import Mathlib.Data.List.Nodup
import NetworkLabs.Foundations.LittleEndian
import NetworkLabs.Foundations.Memory
import NetworkLabs.Foundations.Run
import NetworkLabs.Mrt.Queue

/-!
# The registry of connections

`mrt_connect` makes `connections_q` in one critical section and registers its connection
in a later one; the last `handler` to finish deletes the queue. The machine below runs any
number of connects and clean-ups against each other, one critical section a step. A
connection is known by the number of the call of `mrt_connect` that makes it.
-/

namespace NetworkLabs.Mrt.Registry

open Foundations

/-- Where a call of `mrt_connect` is. The increment of `next_id` is not under a lock and
therefore two steps. -/
inductive ConnectCall where
  /-- Before the critical section that makes the queue. -/
  | makeQueue
  /-- In `connection_t_init`, before `next_id` is read. -/
  | loadNextId
  /-- In `connection_t_init`, before the incremented `next_id` is stored. -/
  | storeNextId
  /-- Before the critical section that enqueues the connection. -/
  | enqueue
  /-- Before `pthread_create` of `handler`. -/
  | createHandler
  /-- In the loop that waits for the first `ACON`. -/
  | poll
  /-- Before `return curr_conn->id`. -/
  | readId
  | returned (value : ℤ)
  deriving DecidableEq, Repr

/-- Where the `handler` of a connection is, whose clean-up removes and frees the connection. -/
inductive HandlerThread where
  | notCreated
  | running
  | ended
  deriving DecidableEq, Repr

/-- A `connection_t` with the call of `mrt_connect` that makes it and its `handler`. -/
structure Connection where
  call : ConnectCall
  id : ℤ
  /-- `last_acknowledged_frag` is no longer -1; the checker and the sender run. -/
  established : Bool
  handler : HandlerThread
  /-- The record has not been freed. -/
  live : Bool
  deriving DecidableEq, Repr

/-- A call of `mrt_connect` that has just begun, before there is a record. -/
def newConnection : Connection :=
  { call := .makeQueue, id := 0, established := false, handler := .notCreated, live := true }

/-- The module's globals and all connections, which are taken by the order in which their calls
began. A queue of connections holds these numbers, as the one in the source holds pointers. -/
structure State where
  connectionsQ : Option (List ℕ)
  nextId : ℤ
  connections : List Connection
  deriving DecidableEq, Repr

/-- The module before the first call, with `connections_q` still `NULL` and no
identifier given. -/
def initial : State := { connectionsQ := none, nextId := 0, connections := [] }

/-- Change the record of one connection. The others and the globals stay as they are. -/
def State.update (s : State) (k : ℕ) (f : Connection → Connection) : State :=
  { s with connections := s.connections.modify k f }

/-- The id in a connection's record, which may not be set yet, and nothing for a call that never
began. -/
def State.idOf (s : State) (k : ℕ) : Option ℤ := (s.connections[k]?).map Connection.id

/-- `connection_matcher`, which compares identifiers and not records, so that a duplicate
identifier leads to the first of two. -/
def State.connectionMatcher (s : State) (id : ℤ) (k : ℕ) : Bool := s.idOf k == some id

/-- `get_item_q(connections_q, connection_matcher, &id)`, the look-up with which `mrt_send`
and `mrt_disconnect` begin. -/
def State.getConnection (s : State) (id : ℤ) : Option ℕ :=
  s.connectionsQ.bind fun queue => getItemQ queue (s.connectionMatcher id)

/-- A section that uses the record of a connection, through the pointer that a thread or a call
has. -/
def Connection.use (c : Connection) (next : State) : Except Fault State :=
  if c.live then .ok next else .error .useAfterFree

/-- The next section of a call of `mrt_connect` in which nothing fails. -/
def mrtConnectContinue (s : State) (k : ℕ) (c : Connection) : Except Fault State :=
  match c.call with
  | .makeQueue =>
    .ok (State.update { s with connectionsQ := some (s.connectionsQ.getD []) } k
      fun c => { c with call := .loadNextId })
  | .loadNextId => .ok (s.update k fun c => { c with id := s.nextId, call := .storeNextId })
  | .storeNextId =>
    .ok (State.update { s with nextId := wrapInt (c.id + 1) } k
      fun c => { c with call := .enqueue })
  | .enqueue =>
    -- the result of enq_q is ignored, also when the queue is NULL
    .ok (State.update { s with connectionsQ := s.connectionsQ.map fun queue => enqQ queue k } k
      fun c => { c with call := .createHandler })
  | .createHandler =>
    c.use (s.update k fun c => { c with handler := .running, call := .poll })
  | .poll => c.use (if c.established then s.update k fun c => { c with call := .readId } else s)
  | .readId => c.use (s.update k fun c => { c with call := .returned c.id })
  | .returned _ => .ok s

/-- The clean-up of `handler`: it frees the connection that it pops and deletes the queue
when that leaves it empty. -/
def cleanUp (s : State) (k : ℕ) (c : Connection) : State :=
  let freed := match s.getConnection c.id with
    | some j => s.update j fun c => { c with live := false }
    | none => s
  let queue := s.connectionsQ.map fun queue => popItemQ queue (s.connectionMatcher c.id)
  { freed with connectionsQ := queue.filter fun queue => !queue.isEmpty }.update k
    fun c => { c with handler := .ended }

/-- The steps of the module. The calls of the library that can fail on the way to a registered
connection have actions of their own for it. -/
inductive Action where
  /-- A new call of `mrt_connect`. -/
  | mrtConnect
  | mrtConnectContinue (k : ℕ)
  /-- `connection_t_init` cannot make a mutex or its socket. -/
  | connectionInitFails (k : ℕ)
  /-- The thread for `handler` cannot be created. -/
  | handlerNotCreated (k : ℕ)
  /-- `handler` handles the first `ACON`. -/
  | acon (k : ℕ)
  /-- `handler` has left its loop and joined the other two threads. -/
  | cleanUp (k : ℕ)
  deriving DecidableEq, Repr

/-- A step of a connection that exists and is ready for it; otherwise nothing happens. -/
def State.when (s : State) (k : ℕ) (ready : Connection → Bool)
    (next : Connection → Except Fault State) : Except Fault State :=
  match s.connections[k]? with
  | some c => if ready c then next c else .ok s
  | none => .ok s

/-- One step. An action for a connection that is not at the place the action needs
does nothing. -/
def step (s : State) : Action → Except Fault State
  | .mrtConnect => .ok { s with connections := s.connections ++ [newConnection] }
  | .mrtConnectContinue k => s.when k (fun _ => true) (mrtConnectContinue s k)
  | .connectionInitFails k =>
    s.when k (·.call == .loadNextId) fun _ =>
      .ok (s.update k fun c => { c with call := .returned (-1) })
  | .handlerNotCreated k =>
    s.when k (·.call == .createHandler) fun c =>
      c.use (s.update k fun c => { c with call := .returned (-1) })
  | .acon k =>
    s.when k (·.handler == .running) fun c =>
      c.use (s.update k fun c => { c with established := true })
  | .cleanUp k =>
    s.when k (fun c => c.handler == .running && c.established) fun c => c.use (cleanUp s k c)

/-- A connection whose id was returned is found until its own `handler` cleans up. -/
def ReturnedRegistered (s : State) : Prop :=
  ∀ k c id, s.connections[k]? = some c → c.call = .returned id → 0 ≤ id → c.handler ≠ .ended →
    s.connectionsQ ≠ none ∧ s.getConnection id = some k

/-- A call that enqueues its connection finds the queue, with no connection of the same id
in it. -/
def EnqueuesProperly (s : State) : Action → Prop
  | .mrtConnectContinue k =>
    ∀ c ∈ s.connections[k]?, c.call = .enqueue →
      s.connectionsQ ≠ none ∧ s.getConnection c.id = none
  | _ => True

instance (s : State) (act : Action) : Decidable (EnqueuesProperly s act) :=
  match act with
  | .mrtConnectContinue k =>
    inferInstanceAs (Decidable (∀ c ∈ s.connections[k]?, c.call = .enqueue →
      s.connectionsQ ≠ none ∧ s.getConnection c.id = none))
  | .mrtConnect | .connectionInitFails _ | .handlerNotCreated _ | .acon _ | .cleanUp _ =>
    isTrue trivial

/-- The items of `connections_q`, of which there are none when the pointer is `NULL`. -/
def State.queue (s : State) : List ℕ := s.connectionsQ.getD []

/-- The connection has been enqueued and its `handler` may still run. -/
def Connection.Registered (c : Connection) : Prop :=
  c.call = .createHandler ∨ c.handler = .running

/-- A connection that is registered was registered before, if only its call went on. -/
theorem Connection.Registered.of_same {c d : Connection} (h : d.Registered)
    (hcall : d.call ≠ .createHandler) (hhandler : d.handler = c.handler) : c.Registered := by
  right
  rw [← hhandler]
  exact h.resolve_left hcall

/-- The call is past the section that enqueues the connection. -/
def Connection.Enqueued (c : Connection) : Prop :=
  match c.call with
  | .createHandler | .poll | .readId | .returned _ => True
  | .makeQueue | .loadNextId | .storeNextId | .enqueue => False

/-- A call that waits has its `handler`, and the id it returns is that of its record. -/
def Connection.WellFormed (c : Connection) : Prop :=
  match c.call with
  | .poll | .readId => c.handler ≠ .notCreated
  | .returned value => value < 0 ∨ c.handler ≠ .notCreated ∧ c.id = value
  | .makeQueue | .loadNextId | .storeNextId | .enqueue | .createHandler =>
    c.handler = .notCreated

/-- The invariant behind `ReturnedRegistered`. What is registered is in the queue, what is in
the queue was put there by its call, and no look-up by an identifier is ambiguous. -/
structure RegistryHolds (s : State) : Prop where
  wellFormed : ∀ c ∈ s.connections, c.WellFormed
  /-- What is registered is queued. -/
  registered : ∀ k c, s.connections[k]? = some c → c.Registered → k ∈ s.queue
  /-- What is queued was enqueued. -/
  queued : ∀ k ∈ s.queue, ∃ c, s.connections[k]? = some c ∧ c.Enqueued
  /-- No two queued connections have one id. -/
  distinct : (s.queue.map s.idOf).Nodup

/-- A change of one connection's record changes no other id, and not its own if it keeps it. -/
theorem idOf_of_modify {s s' : State} {k : ℕ} {c : Connection} {f : Connection → Connection}
    (hk : s.connections[k]? = some c) (hconnections : s'.connections = s.connections.modify k f)
    {j : ℕ} (hid : j = k → (f c).id = c.id) : s'.idOf j = s.idOf j := by
  rw [State.idOf, State.idOf, hconnections, List.getElem?_modify]
  by_cases hjk : k = j
  · subst hjk
    simp [hk, hid rfl]
  · simp [hjk]

/-- The id of an existing connection is the one in its record. -/
theorem idOf_eq {s : State} {k : ℕ} {c : Connection} (hk : s.connections[k]? = some c) :
    s.idOf k = some c.id := by
  rw [State.idOf, hk, Option.map_some]

/-- The callback compares the id of a connection with the given one. -/
theorem connectionMatcher_iff {s : State} {id : ℤ} {k : ℕ} :
    s.connectionMatcher id k = true ↔ s.idOf k = some id := by
  rw [State.connectionMatcher, beq_iff_eq]

/-- Under the invariant only the connection itself matches its id in the queue. -/
theorem RegistryHolds.eq_of_matches {s : State} (h : RegistryHolds s) {j k : ℕ} {c : Connection}
    (hk : s.connections[k]? = some c) (hqueued : k ∈ s.queue) (hj : j ∈ s.queue)
    (hmatch : s.connectionMatcher c.id j = true) : j = k := by
  apply List.inj_on_of_nodup_map h.distinct hj hqueued
  rw [connectionMatcher_iff.mp hmatch, idOf_eq hk]

/-- Under the invariant the look-up of a queued connection's id finds it. -/
theorem RegistryHolds.getConnection {s : State} (h : RegistryHolds s) {k : ℕ} {c : Connection}
    (hk : s.connections[k]? = some c) (hqueued : k ∈ s.queue) :
    s.connectionsQ ≠ none ∧ s.getConnection c.id = some k := by
  have hunique := fun j => h.eq_of_matches (j := j) hk hqueued
  rw [State.getConnection]
  cases hqueue : s.connectionsQ with
  | none => simp [State.queue, hqueue] at hqueued
  | some queue =>
    simp only [State.queue, hqueue, Option.getD_some] at hqueued hunique
    refine ⟨Option.some_ne_none _, ?_⟩
    exact find?_eq_some_of_unique hqueued (connectionMatcher_iff.mpr (idOf_eq hk)) hunique

/-- Under the invariant every connection whose id was returned is found. -/
theorem RegistryHolds.returnedRegistered {s : State} (h : RegistryHolds s) :
    ReturnedRegistered s := by
  intro k c id hk hcall hid hhandler
  have hwf := h.wellFormed c (List.mem_of_getElem? hk)
  rw [Connection.WellFormed, hcall] at hwf
  obtain hneg | ⟨hcreated, rfl⟩ := hwf
  · omega
  · apply h.getConnection hk
    apply h.registered k c hk
    right
    cases hthread : c.handler with
    | notCreated => exact absurd hthread hcreated
    | running => rfl
    | ended => exact absurd hthread hhandler

/-- A change of one connection keeps the invariant if it keeps it for that connection and
leaves the other queue entries where they are. -/
theorem RegistryHolds.of_modify {s s' : State} (h : RegistryHolds s) {k : ℕ} {c : Connection}
    {f : Connection → Connection} (hk : s.connections[k]? = some c)
    (hconnections : s'.connections = s.connections.modify k f) (hwf : (f c).WellFormed)
    (hother : ∀ j, j ≠ k → (j ∈ s'.queue ↔ j ∈ s.queue))
    (hregistered : (f c).Registered → k ∈ s'.queue) (henqueued : k ∈ s'.queue → (f c).Enqueued)
    (hdistinct : (s'.queue.map s'.idOf).Nodup) : RegistryHolds s' := by
  have hget : ∀ j : ℕ, j ≠ k → s'.connections[j]? = s.connections[j]? := by
    intro j hj
    rw [hconnections, List.getElem?_modify_ne _ _ (Ne.symm hj)]
  have hsame : s'.connections[k]? = some (f c) := by
    rw [hconnections, List.getElem?_modify_eq, hk]
    rfl
  constructor
  · intro d hd
    obtain ⟨j, hj⟩ := List.getElem?_of_mem hd
    by_cases hjk : j = k
    · subst hjk
      cases hsame.symm.trans hj
      exact hwf
    · rw [hget j hjk] at hj
      exact h.wellFormed d (List.mem_of_getElem? hj)
  · intro j d hj hd
    by_cases hjk : j = k
    · subst hjk
      cases hsame.symm.trans hj
      exact hregistered hd
    · rw [hget j hjk] at hj
      exact (hother j hjk).mpr (h.registered j d hj hd)
  · intro j hj
    by_cases hjk : j = k
    · subst hjk
      exact ⟨f c, hsame, henqueued hj⟩
    · rw [hget j hjk]
      exact h.queued j ((hother j hjk).mp hj)
  · exact hdistinct

/-- A change of one connection that registers and unregisters nothing keeps the invariant. -/
theorem RegistryHolds.update {s s' : State} (h : RegistryHolds s) {k : ℕ} {c : Connection}
    {f : Connection → Connection} (hk : s.connections[k]? = some c)
    (hconnections : s'.connections = s.connections.modify k f) (hqueue : s'.queue = s.queue)
    (hwf : (f c).WellFormed) (hregistered : (f c).Registered → c.Registered)
    (henqueued : c.Enqueued → (f c).Enqueued ∧ (f c).id = c.id) : RegistryHolds s' := by
  have hdone : k ∈ s.queue → c.Enqueued := by
    intro hmem
    obtain ⟨d, hd, hdone⟩ := h.queued k hmem
    cases hk.symm.trans hd
    exact hdone
  apply h.of_modify hk hconnections hwf
  · intro j _
    rw [hqueue]
  · intro hnow
    rw [hqueue]
    exact h.registered k c hk (hregistered hnow)
  · intro hmem
    rw [hqueue] at hmem
    exact (henqueued (hdone hmem)).1
  · rw [hqueue]
    have hids : s.queue.map s'.idOf = s.queue.map s.idOf := by
      apply List.map_congr_left
      intro j hj
      apply idOf_of_modify hk hconnections
      rintro rfl
      exact (henqueued (hdone hj)).2
    rw [hids]
    exact h.distinct

/-- A connection that is enqueued properly keeps the invariant: the queue exists, and its
identifier is new there. -/
theorem registryHolds_enqueue {s s' : State} {k : ℕ} {c : Connection} (h : RegistryHolds s)
    (hk : s.connections[k]? = some c) (hcall : c.call = .enqueue) (hqueue : s.connectionsQ ≠ none)
    (hnew : s.getConnection c.id = none)
    (hstep : mrtConnectContinue s k c = .ok s') : RegistryHolds s' := by
  obtain ⟨queue, hsome⟩ := Option.ne_none_iff_exists'.mp hqueue
  have hold : s.queue = queue := by rw [State.queue, hsome, Option.getD_some]
  rw [mrtConnectContinue, hcall] at hstep
  dsimp only at hstep
  rw [hsome, Option.map_some] at hstep
  cases hstep
  have hwf := h.wellFormed c (List.mem_of_getElem? hk)
  rw [Connection.WellFormed, hcall] at hwf
  have hids : ∀ j, (State.update { s with connectionsQ := some (enqQ queue k) } k
      fun c => { c with call := .createHandler }).idOf j = s.idOf j :=
    fun j => idOf_of_modify hk rfl fun _ => rfl
  apply h.of_modify hk rfl
  · exact hwf
  · intro j hj
    simp [State.queue, State.update, enqQ, hsome, hj]
  · intro _
    simp [State.queue, State.update, enqQ]
  · intro _
    trivial
  · have hfree : s.idOf k ∉ queue.map s.idOf := by
      intro hmem
      obtain ⟨j, hj, hid⟩ := List.mem_map.mp hmem
      rw [State.getConnection, hsome, Option.bind_some, getItemQ, List.find?_eq_none] at hnew
      exact hnew j hj (connectionMatcher_iff.mpr (hid.trans (idOf_eq hk)))
    have hdistinct := h.distinct
    rw [hold] at hdistinct
    rw [List.map_congr_left fun j _ => hids j]
    simp only [State.queue, State.update, enqQ, Option.getD_some, List.map_append,
      List.map_singleton]
    rw [List.nodup_append]
    refine ⟨hdistinct, List.nodup_singleton _, ?_⟩
    rintro id hid _ hlast rfl
    rw [List.mem_singleton.mp hlast] at hid
    exact hfree hid

/-- A clean-up of a running `handler` keeps the invariant, also when it deletes the queue with
its last connection. -/
theorem registryHolds_cleanUp {s : State} {k : ℕ} {c : Connection} (h : RegistryHolds s)
    (hk : s.connections[k]? = some c) (hrunning : c.handler = .running) :
    RegistryHolds (cleanUp s k c) := by
  have hmem : k ∈ s.queue := h.registered k c hk (Or.inr hrunning)
  obtain ⟨hqueue, hfind⟩ := h.getConnection hk hmem
  obtain ⟨queue, hsome⟩ := Option.ne_none_iff_exists'.mp hqueue
  have hold : s.queue = queue := by rw [State.queue, hsome, Option.getD_some]
  have hwf := h.wellFormed c (List.mem_of_getElem? hk)
  have hconnections : (cleanUp s k c).connections =
      s.connections.modify k fun c => { c with live := false, handler := .ended } := by
    simp only [cleanUp, hfind, State.update, List.modify_modify_eq]
    rfl
  have hdistinct := h.distinct
  have hunique := fun j => h.eq_of_matches (j := j) hk hmem
  rw [hold] at hdistinct hunique
  have hleft : (cleanUp s k c).queue = queue.erase k := by
    rw [← eraseP_eq_erase_of_unique (connectionMatcher_iff.mpr (idOf_eq hk)) hunique]
    simp only [cleanUp, hfind, State.update, State.queue, hsome, popItemQ, Option.map_some]
    cases queue.eraseP (s.connectionMatcher c.id) <;> rfl
  have hnodup : queue.Nodup := hdistinct.of_map
  have hgone : k ∉ (cleanUp s k c).queue := by
    rw [hleft]
    exact hnodup.not_mem_erase
  apply h.of_modify hk hconnections
  · rw [Connection.WellFormed] at hwf ⊢
    dsimp only
    split at hwf <;> simp_all
  · intro j hj
    rw [hleft, hold, hnodup.mem_erase_iff]
    exact and_iff_right hj
  · rintro (hcall | hhandler)
    · rw [Connection.WellFormed, hcall] at hwf
      cases hwf.symm.trans hrunning
    · cases hhandler
  · intro hstill
    exact absurd hstill hgone
  · rw [hleft, List.map_congr_left fun j _ => idOf_of_modify hk hconnections fun _ => rfl]
    exact hdistinct.sublist (List.erase_sublist.map _)

/-- A step of one connection does nothing or finds the connection ready. -/
theorem of_when {s s' : State} {k : ℕ} {ready : Connection → Bool}
    {next : Connection → Except Fault State} (hstep : s.when k ready next = .ok s') :
    s' = s ∨ ∃ c, s.connections[k]? = some c ∧ ready c = true ∧ next c = .ok s' := by
  unfold State.when at hstep
  split at hstep
  · rename_i c hk
    split at hstep
    · rename_i hready
      exact Or.inr ⟨c, hk, hready, hstep⟩
    · cases hstep
      exact Or.inl rfl
  · cases hstep
    exact Or.inl rfl

/-- A section that succeeds leaves the state it was given. -/
theorem eq_of_use {c : Connection} {next s' : State} (hstep : c.use next = .ok s') :
    s' = next := by
  unfold Connection.use at hstep
  split at hstep
  · cases hstep
    rfl
  · cases hstep

/-- A section of `mrt_connect` in which the enqueuing is proper keeps the invariant. -/
theorem registryHolds_connect {s s' : State} {k : ℕ} {c : Connection} (h : RegistryHolds s)
    (hk : s.connections[k]? = some c)
    (hproper : c.call = .enqueue → s.connectionsQ ≠ none ∧ s.getConnection c.id = none)
    (hstep : mrtConnectContinue s k c = .ok s') : RegistryHolds s' := by
  have hwf := h.wellFormed c (List.mem_of_getElem? hk)
  cases hcall : c.call with
  | enqueue =>
    obtain ⟨hqueue, hnew⟩ := hproper hcall
    exact registryHolds_enqueue h hk hcall hqueue hnew hstep
  | makeQueue | loadNextId | storeNextId =>
    simp only [Connection.WellFormed, hcall] at hwf
    simp only [mrtConnectContinue, hcall, Except.ok.injEq] at hstep
    subst hstep
    refine h.update hk rfl rfl ?_ ?_ ?_
    · exact hwf
    · exact fun hnext => hnext.of_same nofun rfl
    · simp [Connection.Enqueued, hcall]
  | createHandler =>
    simp only [mrtConnectContinue, hcall] at hstep
    rw [eq_of_use hstep]
    refine h.update hk rfl rfl ?_ ?_ ?_
    · simp [Connection.WellFormed]
    · exact fun _ => Or.inl hcall
    · exact fun _ => ⟨trivial, rfl⟩
  | poll =>
    simp only [Connection.WellFormed, hcall] at hwf
    simp only [mrtConnectContinue, hcall] at hstep
    rw [eq_of_use hstep]
    split
    · refine h.update hk rfl rfl ?_ ?_ ?_
      · exact hwf
      · exact fun hnext => hnext.of_same nofun rfl
      · exact fun _ => ⟨trivial, rfl⟩
    · exact h
  | readId =>
    simp only [Connection.WellFormed, hcall] at hwf
    simp only [mrtConnectContinue, hcall] at hstep
    rw [eq_of_use hstep]
    refine h.update hk rfl rfl ?_ ?_ ?_
    · exact Or.inr ⟨hwf, rfl⟩
    · exact fun hnext => hnext.of_same nofun rfl
    · exact fun _ => ⟨trivial, rfl⟩
  | returned value =>
    simp only [mrtConnectContinue, hcall, Except.ok.injEq] at hstep
    rwa [← hstep]

/-- A new call of `mrt_connect` concerns no other connection, and has no identifier yet. -/
theorem registryHolds_mrtConnect {s : State} (h : RegistryHolds s) :
    RegistryHolds { s with connections := s.connections ++ [newConnection] } := by
  have hget : ∀ (k : ℕ) (c : Connection), (s.connections ++ [newConnection])[k]? = some c →
      s.connections[k]? = some c ∨ c = newConnection := by
    intro k c hk
    rw [List.getElem?_append] at hk
    split at hk
    · exact Or.inl hk
    · right
      exact List.mem_singleton.mp (List.mem_of_getElem? hk)
  have hkeep : ∀ (k : ℕ) (c : Connection), s.connections[k]? = some c →
      (s.connections ++ [newConnection])[k]? = some c := by
    intro k c hk
    rwa [List.getElem?_append_left (List.getElem?_eq_some_iff.mp hk).1]
  constructor
  · intro c hc
    rcases List.mem_append.mp hc with hc | hc
    · exact h.wellFormed c hc
    · rw [List.mem_singleton.mp hc]
      rfl
  · intro k c hk hc
    obtain hk | rfl := hget k c hk
    · exact h.registered k c hk hc
    · rcases hc with hc | hc <;> cases hc
  · intro k hk
    obtain ⟨c, hc, hdone⟩ := h.queued k hk
    exact ⟨c, hkeep k c hc, hdone⟩
  · have hids : s.queue.map { s with connections := s.connections ++ [newConnection] }.idOf =
        s.queue.map s.idOf := by
      apply List.map_congr_left
      intro k hk
      obtain ⟨c, hc, hdone⟩ := h.queued k hk
      rw [idOf_eq hc, idOf_eq (hkeep k c hc)]
    exact hids ▸ h.distinct

/-- A step whose enqueuing is proper keeps the invariant. All other steps keep it anyway. -/
theorem registryHolds_step {s s' : State} {act : Action} (h : RegistryHolds s)
    (hproper : EnqueuesProperly s act) (hstep : step s act = .ok s') : RegistryHolds s' := by
  cases act with
  | mrtConnect =>
    cases hstep
    exact registryHolds_mrtConnect h
  | mrtConnectContinue k =>
    obtain rfl | ⟨c, hk, -, hnext⟩ := of_when hstep
    · exact h
    · exact registryHolds_connect h hk (hproper c hk) hnext
  | connectionInitFails k =>
    obtain rfl | ⟨c, hk, hready, hnext⟩ := of_when hstep
    · exact h
    · cases hnext
      refine h.update hk rfl rfl ?_ ?_ ?_
      · exact Or.inl (by decide)
      · exact fun hnext => hnext.of_same nofun rfl
      · simp [Connection.Enqueued, eq_of_beq hready]
  | handlerNotCreated k =>
    obtain rfl | ⟨c, hk, hready, hnext⟩ := of_when hstep
    · exact h
    · rw [eq_of_use hnext]
      refine h.update hk rfl rfl ?_ ?_ ?_
      · exact Or.inl (by decide)
      · exact fun hnext => hnext.of_same nofun rfl
      · exact fun _ => ⟨trivial, rfl⟩
  | acon k =>
    obtain rfl | ⟨c, hk, -, hnext⟩ := of_when hstep
    · exact h
    · rw [eq_of_use hnext]
      refine h.update hk rfl rfl ?_ ?_ ?_
      · exact h.wellFormed c (List.mem_of_getElem? hk)
      · exact id
      · exact fun hdone => ⟨hdone, rfl⟩
  | cleanUp k =>
    obtain rfl | ⟨c, hk, hready, hnext⟩ := of_when hstep
    · exact h
    · rw [eq_of_use hnext]
      exact registryHolds_cleanUp h hk (eq_of_beq (Bool.and_eq_true_iff.mp hready).1)

/-- At the start there is no connection, and no queue for one. -/
theorem registryHolds_initial : RegistryHolds initial :=
  ⟨nofun, nofun, nofun, List.nodup_nil⟩

/-- In every run whose enqueuings are proper a returned connection is found until its `handler`
cleans up, whatever calls and clean-ups overlap. -/
theorem returnedRegistered_of_meets (acts : List Action)
    (hmeets : Meets step EnqueuesProperly initial acts) :
    Always step (fun _ s' => ReturnedRegistered s') initial acts := by
  refine always_of_meets (fun s act s' h hproper hstep => ?_) registryHolds_initial hmeets
  have hnext := registryHolds_step h hproper hstep
  exact ⟨hnext.returnedRegistered, hnext⟩

/-- A connection is established and cleaned up before a second one is. -/
def oneAfterTheOther : List Action :=
  [.mrtConnect, .mrtConnectContinue 0, .mrtConnectContinue 0, .mrtConnectContinue 0,
    .mrtConnectContinue 0, .mrtConnectContinue 0, .acon 0, .mrtConnectContinue 0,
    .mrtConnectContinue 0, .cleanUp 0, .mrtConnect, .mrtConnectContinue 1,
    .mrtConnectContinue 1, .mrtConnectContinue 1, .mrtConnectContinue 1, .mrtConnectContinue 1,
    .acon 1, .mrtConnectContinue 1, .mrtConnectContinue 1]

/-- That run enqueues properly, and the second connection is found under its id. -/
theorem returnedRegistered_one_after_the_other :
    Meets step EnqueuesProperly initial oneAfterTheOther ∧
      Always step (fun _ s' => ReturnedRegistered s') initial oneAfterTheOther :=
  have hmeets : Meets step EnqueuesProperly initial oneAfterTheOther := by decide +kernel
  ⟨hmeets, returnedRegistered_of_meets oneAfterTheOther hmeets⟩

/-- The clean-up of the first connection deletes the queue after a second call of
`mrt_connect` has seen it and before it enqueues. -/
def cleanedUpDuringConnect : List Action :=
  [.mrtConnect, .mrtConnectContinue 0, .mrtConnectContinue 0, .mrtConnectContinue 0,
    .mrtConnectContinue 0, .mrtConnectContinue 0, .acon 0, .mrtConnectContinue 0,
    .mrtConnectContinue 0, .mrtConnect, .mrtConnectContinue 1, .cleanUp 0,
    .mrtConnectContinue 1, .mrtConnectContinue 1, .mrtConnectContinue 1, .mrtConnectContinue 1,
    .acon 1, .mrtConnectContinue 1, .mrtConnectContinue 1]

/-- The second call returns the id 1 while `connections_q` is `NULL`, so that no look-up finds
the connection. -/
theorem returnedRegistered_fails_for_deleted_queue :
    ¬Always step (fun _ s' => ReturnedRegistered s') initial cleanedUpDuringConnect := by
  have hrun : someStep step (fun _ s' => s'.connectionsQ == none &&
      s'.connections[1]? == some ⟨.returned 1, 1, true, .running, true⟩)
      initial cleanedUpDuringConnect = true := by
    decide +kernel
  refine not_always_of_someStep (fun s s' htest hregistered => ?_) hrun
  obtain ⟨hqueue, hget⟩ := Bool.and_eq_true_iff.mp htest
  have hfound := hregistered 1 _ 1 (eq_of_beq hget) rfl (by decide) nofun
  exact hfound.1 (eq_of_beq hqueue)

end NetworkLabs.Mrt.Registry
