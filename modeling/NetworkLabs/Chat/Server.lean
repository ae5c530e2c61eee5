import Mathlib.Data.List.Nodup
import NetworkLabs.Chat.Dpp
import NetworkLabs.Foundations.Run

/-!
# The chat server

`main` accepts clients and enqueues their descriptors; one `server_receiver` for each client
broadcasts what it receives. A client is known by the number of the `accept` that returned
it. Its descriptor may be the number of one that was closed before.
-/

namespace NetworkLabs.Chat.Server

open Foundations

/-- Where the `server_receiver` of a client is. The thread closes its socket before it takes the
lock to delete the descriptor. -/
inductive ReceiverThread where
  | notCreated
  /-- Before it reads the descriptor through its argument. -/
  | starting
  /-- In `recv`. -/
  | receiving
  /-- Before the critical section that broadcasts the chunk. -/
  | broadcasting (chunk : List Byte)
  /-- Before `shutdown` and `close`. -/
  | closing
  /-- Before the critical section that deletes the descriptor from the queue. -/
  | deleting
  | ended
  deriving DecidableEq

/-- A client with its thread, and what it was sent since it was enqueued: `sent` are the
numbers of the broadcasts, and `joined` is that of the first one after it was enqueued. -/
structure Client where
  sockfd : ℕ
  thread : ReceiverThread
  receiverBuffer : Memory Byte
  enqueued : Bool
  joined : ℕ
  sent : List ℕ

/-- Where `main` is; `k` is the client that it has accepted. -/
inductive MainThread where
  | accepting
  | enqueuing (k : ℕ)
  | creating (k : ℕ)
  deriving DecidableEq

/-- The queue holds pointers to the descriptors of clients, the history what was broadcast. -/
structure State where
  mainThread : MainThread
  clients : List Client
  acceptedSockfdQ : List ℕ
  freed : List ℕ
  broadcasts : List (List Byte)

/-- The server before the first client, with `main` in `accept`. -/
def initial : State :=
  { mainThread := .accepting, clients := [], acceptedSockfdQ := [], freed := [],
    broadcasts := [] }

/-- The client's own thread has not closed its socket, so that the system does not give its
number away. -/
def Client.isOpen (c : Client) : Bool :=
  match c.thread with
  | .deleting | .ended => false
  | .notCreated | .starting | .receiving | .broadcasting _ | .closing => true

/-- The descriptor that a pointer in the queue points to. -/
def State.sockfdOf (s : State) (k : ℕ) : Option ℕ := (s.clients[k]?).map Client.sockfd

/-- The descriptors in the queue, read through its pointers. Two of them can be the
same number. -/
def State.sockfds (s : State) : List (Option ℕ) := s.acceptedSockfdQ.map s.sockfdOf

/-- Change one client, and leave the others and the globals as they are. -/
def State.update (s : State) (k : ℕ) (f : Client → Client) : State :=
  { s with clients := s.clients.modify k f }

/-- `send` of a broadcast to a descriptor reaches the client that has it open. -/
def broadcastCallback (number : ℕ) (clients : List Client) (sockfd : Option ℕ) : List Client :=
  clients.map fun c =>
    if c.isOpen && sockfd == some c.sockfd then { c with sent := c.sent ++ [number] } else c

/-- The critical section of `server_receiver` that broadcasts a chunk, to every descriptor in
the queue. -/
def broadcast (s : State) (chunk : List Byte) : State :=
  { s with
    clients := s.sockfds.foldl (broadcastCallback s.broadcasts.length) s.clients
    broadcasts := s.broadcasts ++ [chunk] }

/-- `delete_integer_targets_q` for the descriptor of a client; it frees the integers too. -/
def deleteIntegerTargets (s : State) (target : ℕ) : State :=
  let matching := fun k => s.sockfdOf k == some target
  { s with
    acceptedSockfdQ := s.acceptedSockfdQ.filter fun k => !matching k
    freed := s.freed ++ s.acceptedSockfdQ.filter matching }

/-- The next step of the `server_receiver` of client `k`, other than `recv`. -/
def serverReceiver (s : State) (k : ℕ) (c : Client) : Except Fault State :=
  match c.thread with
  | .starting =>
    if k ∈ s.freed then .error .useAfterFree
    else .ok (s.update k fun c => { c with thread := .receiving })
  | .broadcasting chunk =>
    .ok ((broadcast s chunk).update k fun c =>
      { c with thread := if isQuit c.receiverBuffer then .closing else .receiving })
  | .closing => .ok (s.update k fun c => { c with thread := .deleting })
  | .deleting =>
    .ok ((deleteIntegerTargets s c.sockfd).update k fun c => { c with thread := .ended })
  | .notCreated | .receiving | .ended => .ok s

/-- `recv` returns a chunk, or nothing when the client has disconnected. -/
def recv (c : Client) (chunk : List Byte) : Client :=
  match chunk with
  | [] => { c with thread := .closing }
  | b :: bs =>
    { c with
      receiverBuffer := c.receiverBuffer.write 0 ((b :: bs).take bufferSize)
      thread := .broadcasting ((b :: bs).take bufferSize) }

/-- The next step of `main` after `accept`: it enqueues the descriptor, and then creates the
thread. -/
def main (s : State) : State :=
  match s.mainThread with
  | .accepting => s
  | .enqueuing k =>
    State.update
      { s with mainThread := .creating k, acceptedSockfdQ := s.acceptedSockfdQ ++ [k] } k
      fun c => { c with enqueued := true, joined := s.broadcasts.length, sent := [] }
  | .creating k =>
    State.update { s with mainThread := .accepting } k fun c => { c with thread := .starting }

/-- A client that was just accepted. It has no thread yet and its descriptor is not enqueued. -/
def newClient (sockfd : ℕ) : Client :=
  { sockfd := sockfd, thread := .notCreated, receiverBuffer := Memory.fill 0, enqueued := false,
    joined := 0, sent := [] }

/-- The steps of the server's threads. One of them is the return of `accept` or of `recv`. -/
inductive Action where
  /-- `accept` returns a descriptor. -/
  | accept (sockfd : ℕ)
  | main
  | recv (k : ℕ) (chunk : List Byte)
  | serverReceiver (k : ℕ)
  deriving DecidableEq

/-- One step. `accept` returns no descriptor that is open, and may return any other one. -/
def step (s : State) : Action → Except Fault State
  | .accept sockfd =>
    if s.mainThread = .accepting ∧ ∀ c ∈ s.clients, c.isOpen → c.sockfd ≠ sockfd then
      .ok { s with
            mainThread := .enqueuing s.clients.length
            clients := s.clients ++ [newClient sockfd] }
    else .ok s
  | .main => .ok (main s)
  | .recv k chunk =>
    match s.clients[k]? with
    | some c => .ok (if c.thread = .receiving then s.update k (Server.recv · chunk) else s)
    | none => .ok s
  | .serverReceiver k =>
    match s.clients[k]? with
    | some c => Server.serverReceiver s k c
    | none => .ok s

/-- The client is enqueued and its own thread has not closed its socket. -/
def Client.Present (c : Client) : Prop := c.enqueued = true ∧ c.isOpen = true

/-- A present client is queued once and was sent every broadcast since then once, in order,
so that two of them were sent their common broadcasts in the same order. -/
structure BroadcastExact (s : State) : Prop where
  queued_once : ∀ c ∈ s.clients, c.Present → s.sockfds.count (some c.sockfd) = 1
  sent_once : ∀ c ∈ s.clients, c.Present →
    c.sent = List.range' c.joined (s.broadcasts.length - c.joined)
  same_order : ∀ c ∈ s.clients, ∀ d ∈ s.clients, c.Present → d.Present →
    c.sent <:+ d.sent ∨ d.sent <:+ c.sent

/-- `main` enqueues a descriptor only when the queue holds none of its number. -/
def EnqueuesFresh (s : State) : Action → Prop
  | .main =>
    match s.mainThread with
    | .enqueuing k => s.sockfdOf k ∉ s.sockfds
    | .accepting | .creating _ => True
  | .accept _ | .recv _ _ | .serverReceiver _ => True

instance (s : State) (act : Action) : Decidable (EnqueuesFresh s act) :=
  match act with
  | .main =>
    match hmain : s.mainThread with
    | .enqueuing k => decidable_of_iff (s.sockfdOf k ∉ s.sockfds) (by rw [EnqueuesFresh, hmain])
    | .accepting | .creating _ => isTrue (by rw [EnqueuesFresh, hmain]; trivial)
  | .accept _ | .recv _ _ | .serverReceiver _ => isTrue trivial

/-- What `main` has done with the client that it has accepted. -/
def State.MainReady (s : State) : Prop :=
  match s.mainThread with
  | .accepting => True
  | .enqueuing k => ∃ c, s.clients[k]? = some c ∧ c.thread = .notCreated ∧ c.enqueued = false
  | .creating k => ∃ c, s.clients[k]? = some c ∧ c.thread = .notCreated ∧ c.enqueued = true

/-- The invariant behind `BroadcastExact`, which says which clients the queue holds. -/
structure QueueMatches (s : State) : Prop where
  main_ready : s.MainReady
  /-- The queue holds the clients that were enqueued and not deleted. -/
  queued_iff : ∀ k, k ∈ s.acceptedSockfdQ ↔
    ∃ c, s.clients[k]? = some c ∧ c.enqueued = true ∧ c.thread ≠ .ended
  /-- No descriptor is queued twice. -/
  sockfds_nodup : s.sockfds.Nodup
  /-- A thread runs only for a client that was enqueued. -/
  running : ∀ c ∈ s.clients, c.thread ≠ .notCreated → c.enqueued = true
  /-- The present clients were sent what was broadcast since they were enqueued. -/
  sent : ∀ c ∈ s.clients, c.Present → c.joined ≤ s.broadcasts.length ∧
    c.sent = List.range' c.joined (s.broadcasts.length - c.joined)

/-- The broadcasts from a later one on are the last of those from an earlier one on. -/
theorem range'_suffix {i j n : ℕ} (hij : i ≤ j) (hjn : j ≤ n) :
    List.range' j (n - j) <:+ List.range' i (n - i) := by
  obtain ⟨d, rfl⟩ := Nat.exists_eq_add_of_le hij
  refine ⟨List.range' i d, ?_⟩
  rw [List.range'_append_1]
  congr 1
  omega

/-- Under the invariant the broadcasts are exact. -/
theorem QueueMatches.broadcastExact {s : State} (h : QueueMatches s) : BroadcastExact s := by
  constructor
  · intro c hc hpresent
    obtain ⟨k, hk⟩ := List.getElem?_of_mem hc
    rw [h.sockfds_nodup.count, if_pos]
    have hqueued : k ∈ s.acceptedSockfdQ := by
      apply (h.queued_iff k).mpr
      refine ⟨c, hk, hpresent.1, fun hended => ?_⟩
      have hopen := hpresent.2
      rw [Client.isOpen, hended] at hopen
      cases hopen
    exact List.mem_map.mpr ⟨k, hqueued, by rw [State.sockfdOf, hk, Option.map_some]⟩
  · intro c hc hpresent
    exact (h.sent c hc hpresent).2
  · intro c hc d hd hpresent hpresent'
    obtain ⟨hle, hsent⟩ := h.sent c hc hpresent
    obtain ⟨hle', hsent'⟩ := h.sent d hd hpresent'
    rw [hsent, hsent']
    rcases Nat.le_total c.joined d.joined with hjoined | hjoined
    · exact Or.inr (range'_suffix hjoined hle')
    · exact Or.inl (range'_suffix hjoined hle)

/-- A change of a client that keeps its descriptor keeps what the queue points to. -/
theorem sockfdOf_of_modify {s s' : State} {k : ℕ} {c : Client} {f : Client → Client}
    (hk : s.clients[k]? = some c) (hclients : s'.clients = s.clients.modify k f)
    (hsockfd : (f c).sockfd = c.sockfd) : s'.sockfdOf = s.sockfdOf := by
  funext j
  rw [State.sockfdOf, State.sockfdOf, hclients, List.getElem?_modify]
  by_cases hjk : k = j
  · subst hjk
    simp [hk, hsockfd]
  · simp [hjk]

/-- `main` depends only on the clients whose thread does not run yet. -/
theorem State.MainReady.mono {s s' : State} (h : s.MainReady)
    (hmain : s'.mainThread = s.mainThread)
    (hkeep : ∀ (j : ℕ) (c : Client), s.clients[j]? = some c → c.thread = .notCreated →
      ∃ c', s'.clients[j]? = some c' ∧ c'.thread = .notCreated ∧ c'.enqueued = c.enqueued) :
    s'.MainReady := by
  have hwaits : ∀ {j : ℕ} {enqueued : Bool},
      (∃ c, s.clients[j]? = some c ∧ c.thread = .notCreated ∧ c.enqueued = enqueued) →
      ∃ c, s'.clients[j]? = some c ∧ c.thread = .notCreated ∧ c.enqueued = enqueued := by
    rintro j enqueued ⟨c, hc, hthread, henqueued⟩
    obtain ⟨c', hc', hthread', hsame⟩ := hkeep j c hc hthread
    exact ⟨c', hc', hthread', hsame.trans henqueued⟩
  unfold State.MainReady at h ⊢
  rw [hmain]
  cases hthread : s.mainThread with
  | accepting => trivial
  | enqueuing k =>
    rw [hthread] at h
    exact hwaits h
  | creating k =>
    rw [hthread] at h
    exact hwaits h

/-- A change of a client whose thread runs does not concern `main`. -/
theorem State.MainReady.of_modify {s s' : State} {k : ℕ} {c : Client} {f : Client → Client}
    (h : s.MainReady) (hk : s.clients[k]? = some c)
    (hclients : s'.clients = s.clients.modify k f) (hmain : s'.mainThread = s.mainThread)
    (hrunning : c.thread ≠ .notCreated) : s'.MainReady := by
  refine h.mono hmain fun j d hj hd => ⟨d, ?_, hd, rfl⟩
  rw [hclients, List.getElem?_modify_ne]
  · exact hj
  · rintro rfl
    cases hk.symm.trans hj
    exact hrunning hd

/-- A change of one client keeps the invariant if it keeps it for that client and leaves the
other queue entries where they are. -/
theorem QueueMatches.of_modify {s s' : State} (h : QueueMatches s) {k : ℕ} {c : Client}
    {f : Client → Client} (hk : s.clients[k]? = some c)
    (hclients : s'.clients = s.clients.modify k f) (hbroadcasts : s'.broadcasts = s.broadcasts)
    (hmain : s'.MainReady)
    (hother : ∀ j, j ≠ k → (j ∈ s'.acceptedSockfdQ ↔ j ∈ s.acceptedSockfdQ))
    (hself : k ∈ s'.acceptedSockfdQ ↔ (f c).enqueued = true ∧ (f c).thread ≠ .ended)
    (hnodup : s'.sockfds.Nodup) (hrunning : (f c).thread ≠ .notCreated → (f c).enqueued = true)
    (hsent : (f c).Present → (f c).joined ≤ s.broadcasts.length ∧
      (f c).sent = List.range' (f c).joined (s.broadcasts.length - (f c).joined)) :
    QueueMatches s' := by
  have hget : ∀ j : ℕ, j ≠ k → s'.clients[j]? = s.clients[j]? := by
    intro j hj
    rw [hclients, List.getElem?_modify_ne _ _ (Ne.symm hj)]
  have hsame : s'.clients[k]? = some (f c) := by
    rw [hclients, List.getElem?_modify_eq, hk]
    rfl
  have hclient : ∀ d ∈ s'.clients, d ∈ s.clients ∨ d = f c := by
    intro d hd
    obtain ⟨j, hj⟩ := List.getElem?_of_mem hd
    by_cases hjk : j = k
    · subst hjk
      cases hsame.symm.trans hj
      exact Or.inr rfl
    · rw [hget j hjk] at hj
      exact Or.inl (List.mem_of_getElem? hj)
  constructor
  · exact hmain
  · intro j
    by_cases hjk : j = k
    · subst hjk
      simp [hself, hsame]
    · rw [hother j hjk, hget j hjk]
      exact h.queued_iff j
  · exact hnodup
  · intro d hd
    obtain hd | rfl := hclient d hd
    · exact h.running d hd
    · exact hrunning
  · intro d hd
    rw [hbroadcasts]
    obtain hd | rfl := hclient d hd
    · exact h.sent d hd
    · exact hsent

/-- A thread that goes on, without ending, keeps the invariant. -/
theorem QueueMatches.of_thread {s : State} (h : QueueMatches s) {k : ℕ} {c : Client}
    {f : Client → Client} (hk : s.clients[k]? = some c) (hrunning : c.thread ≠ .notCreated)
    (hended : c.thread ≠ .ended) (hended' : (f c).thread ≠ .ended)
    (hkept : (f c).sockfd = c.sockfd ∧ (f c).enqueued = c.enqueued ∧ (f c).joined = c.joined ∧
      (f c).sent = c.sent)
    (hopen : (f c).isOpen = true → c.isOpen = true) : QueueMatches (s.update k f) := by
  obtain ⟨hsockfd, henqueued, hjoined, hsent⟩ := hkept
  have hdone : c.enqueued = true := h.running c (List.mem_of_getElem? hk) hrunning
  refine h.of_modify hk rfl rfl ?_ ?_ ?_ ?_ ?_ ?_
  · exact h.main_ready.of_modify hk rfl rfl hrunning
  · exact fun j _ => Iff.rfl
  · rw [henqueued]
    refine iff_of_true ?_ ⟨hdone, hended'⟩
    exact (h.queued_iff k).mpr ⟨c, hk, hdone, hended⟩
  · rw [State.sockfds, sockfdOf_of_modify hk rfl hsockfd]
    exact h.sockfds_nodup
  · exact fun _ => henqueued.trans hdone
  · rintro ⟨-, hnow⟩
    rw [hjoined, hsent]
    exact h.sent c (List.mem_of_getElem? hk) ⟨hdone, hopen hnow⟩

/-- What a client is sent when a broadcast goes to these descriptors. -/
def Client.deliver (number : ℕ) (sockfds : List (Option ℕ)) (c : Client) : Client :=
  if c.isOpen then
    { c with sent := c.sent ++ List.replicate (sockfds.count (some c.sockfd)) number }
  else c

/-- Sending neither opens nor closes the descriptor of a client. -/
theorem isOpen_deliver (number : ℕ) (sockfds : List (Option ℕ)) (c : Client) :
    (c.deliver number sockfds).isOpen = c.isOpen := by
  unfold Client.deliver
  split <;> rfl

/-- A broadcast is delivered to each client as often as its descriptor occurs. -/
theorem foldl_broadcastCallback (number : ℕ) (sockfds : List (Option ℕ))
    (clients : List Client) :
    sockfds.foldl (broadcastCallback number) clients =
      clients.map (Client.deliver number sockfds) := by
  induction sockfds generalizing clients with
  | nil =>
    have hsame : Client.deliver number [] = id := by
      funext c
      unfold Client.deliver
      split <;> simp
    rw [List.foldl_nil, hsame, List.map_id]
  | cons sockfd sockfds ih =>
    rw [List.foldl_cons, ih, broadcastCallback, List.map_map]
    apply List.map_congr_left
    intro c _
    cases hopen : c.isOpen with
    | false => simp [Client.deliver, hopen]
    | true =>
      by_cases hsockfd : sockfd = some c.sockfd
      · subst hsockfd
        have hopen' : Client.isOpen { c with sent := c.sent ++ [number] } = true := hopen
        simp [Client.deliver, hopen, hopen', List.replicate_succ]
      · simp [Client.deliver, hopen, hsockfd]

/-- A delivery changes nothing but what was sent: descriptor, thread and the two flags of the
client stay. -/
theorem deliver_eq (number : ℕ) (sockfds : List (Option ℕ)) (c : Client) :
    (c.deliver number sockfds).sockfd = c.sockfd ∧
      (c.deliver number sockfds).thread = c.thread ∧
      (c.deliver number sockfds).enqueued = c.enqueued ∧
      (c.deliver number sockfds).joined = c.joined := by
  unfold Client.deliver
  split <;> exact ⟨rfl, rfl, rfl, rfl⟩

/-- The clients after a broadcast, each of which was sent it or not. -/
theorem getElem?_broadcast (s : State) (chunk : List Byte) (k : ℕ) :
    (broadcast s chunk).clients[k]? =
      (s.clients[k]?).map (Client.deliver s.broadcasts.length s.sockfds) := by
  rw [broadcast, foldl_broadcastCallback, List.getElem?_map]

/-- A broadcast keeps the invariant: every present client is sent it once. -/
theorem QueueMatches.broadcast {s : State} (h : QueueMatches s) (chunk : List Byte) :
    QueueMatches (broadcast s chunk) := by
  have hexact := h.broadcastExact
  have hclient : ∀ d ∈ (Server.broadcast s chunk).clients, ∃ c ∈ s.clients,
      d = c.deliver s.broadcasts.length s.sockfds := by
    intro d hd
    rw [Server.broadcast, foldl_broadcastCallback] at hd
    obtain ⟨c, hc, rfl⟩ := List.mem_map.mp hd
    exact ⟨c, hc, rfl⟩
  constructor
  · refine h.main_ready.mono rfl fun j c hc hthread => ?_
    obtain ⟨-, hthread', henqueued, -⟩ := deliver_eq s.broadcasts.length s.sockfds c
    exact ⟨_, by rw [getElem?_broadcast, hc, Option.map_some], hthread'.trans hthread, henqueued⟩
  · intro k
    rw [getElem?_broadcast]
    refine (h.queued_iff k).trans ?_
    simp [deliver_eq]
  · have hsame : (Server.broadcast s chunk).sockfdOf = s.sockfdOf := by
      funext k
      rw [State.sockfdOf, State.sockfdOf, getElem?_broadcast, Option.map_map]
      congr 1
      funext c
      exact (deliver_eq _ _ c).1
    rw [State.sockfds, hsame]
    exact h.sockfds_nodup
  · intro d hd hthread
    obtain ⟨c, hc, rfl⟩ := hclient d hd
    obtain ⟨-, hthread', henqueued, -⟩ := deliver_eq s.broadcasts.length s.sockfds c
    rw [henqueued]
    exact h.running c hc (hthread' ▸ hthread)
  · intro d hd hpresent
    obtain ⟨c, hc, rfl⟩ := hclient d hd
    obtain ⟨-, -, henqueued, hjoined⟩ := deliver_eq s.broadcasts.length s.sockfds c
    have hbefore : c.Present := ⟨henqueued ▸ hpresent.1, isOpen_deliver _ _ c ▸ hpresent.2⟩
    obtain ⟨hle, hsent⟩ := h.sent c hc hbefore
    have hnumber : (Server.broadcast s chunk).broadcasts.length = s.broadcasts.length + 1 :=
      List.length_append
    have hnow : (c.deliver s.broadcasts.length s.sockfds).sent =
        c.sent ++ [s.broadcasts.length] := by
      rw [Client.deliver, if_pos hbefore.2, hexact.queued_once c hc hbefore]
      rfl
    rw [hjoined, hnumber, hnow, hsent, Nat.sub_add_comm hle, List.range'_1_concat,
      Nat.add_sub_cancel' hle]
    exact ⟨Nat.le_succ_of_le hle, rfl⟩

/-- The deletion of a client's descriptor by its own thread keeps the invariant. -/
theorem queueMatches_delete {s : State} (h : QueueMatches s) {k : ℕ} {c : Client}
    (hk : s.clients[k]? = some c) (hdeleting : c.thread = .deleting) :
    QueueMatches ((deleteIntegerTargets s c.sockfd).update k
      fun c => { c with thread := .ended }) := by
  have hdone : c.enqueued = true :=
    h.running c (List.mem_of_getElem? hk) (by rw [hdeleting]; exact nofun)
  have hqueued : k ∈ s.acceptedSockfdQ :=
    (h.queued_iff k).mpr ⟨c, hk, hdone, by rw [hdeleting]; exact nofun⟩
  have hsockfd : s.sockfdOf k = some c.sockfd := by rw [State.sockfdOf, hk, Option.map_some]
  refine h.of_modify hk rfl rfl ?_ ?_ ?_ ?_ ?_ ?_
  · exact h.main_ready.of_modify hk rfl rfl (by rw [hdeleting]; exact nofun)
  · intro j hj
    have hother : j ∈ s.acceptedSockfdQ → s.sockfdOf j ≠ some c.sockfd := by
      intro hmem hsame
      exact hj (List.inj_on_of_nodup_map h.sockfds_nodup hmem hqueued (hsame.trans hsockfd.symm))
    simpa [deleteIntegerTargets, State.update] using hother
  · simp [deleteIntegerTargets, State.update, hsockfd]
  · rw [State.sockfds, sockfdOf_of_modify (s := s) hk rfl rfl]
    exact h.sockfds_nodup.sublist (List.filter_sublist.map _)
  · exact fun _ => hdone
  · rintro ⟨-, hopen⟩
    cases hopen

/-- A descriptor that is not queued yet is enqueued. -/
theorem queueMatches_enqueue {s : State} (h : QueueMatches s) {k : ℕ}
    (hmain : s.mainThread = .enqueuing k) (hfresh : s.sockfdOf k ∉ s.sockfds) :
    QueueMatches (main s) := by
  have hready := h.main_ready
  simp only [State.MainReady, hmain] at hready
  obtain ⟨c, hk, hthread, hnew⟩ := hready
  have hnot : k ∉ s.acceptedSockfdQ := fun hmem => hfresh (List.mem_map_of_mem hmem)
  have hids : (main s).sockfdOf = s.sockfdOf := by
    rw [main, hmain]
    exact sockfdOf_of_modify hk rfl rfl
  rw [main, hmain] at hids ⊢
  refine h.of_modify hk rfl rfl ?_ ?_ ?_ ?_ ?_ ?_
  · refine ⟨{ c with enqueued := true, joined := s.broadcasts.length, sent := [] }, ?_,
      hthread, rfl⟩
    simp [State.update, hk]
  · intro j hj
    simp [State.update, hj]
  · simp [State.update, hthread]
  · rw [State.sockfds, hids]
    simp only [State.update, List.map_append, List.map_singleton]
    rw [List.nodup_append]
    refine ⟨h.sockfds_nodup, List.nodup_singleton _, ?_⟩
    rintro sockfd hmem _ hlast rfl
    rw [List.mem_singleton.mp hlast] at hmem
    exact hfresh hmem
  · exact fun _ => rfl
  · intro _
    exact ⟨le_rfl, by rw [Nat.sub_self]; rfl⟩

/-- The thread of an enqueued client is created, and the queue matches as before. -/
theorem queueMatches_create {s : State} (h : QueueMatches s) {k : ℕ}
    (hmain : s.mainThread = .creating k) : QueueMatches (main s) := by
  have hready := h.main_ready
  simp only [State.MainReady, hmain] at hready
  obtain ⟨c, hk, hthread, hdone⟩ := hready
  have hopen : c.isOpen = true := by rw [Client.isOpen, hthread]
  rw [main, hmain]
  refine h.of_modify hk rfl rfl trivial ?_ ?_ ?_ ?_ ?_
  · exact fun j _ => Iff.rfl
  · refine iff_of_true ?_ ⟨hdone, nofun⟩
    exact (h.queued_iff k).mpr ⟨c, hk, hdone, by rw [hthread]; exact nofun⟩
  · rw [State.sockfds, sockfdOf_of_modify (s := s) hk rfl rfl]
    exact h.sockfds_nodup
  · exact fun _ => hdone
  · intro _
    exact h.sent c (List.mem_of_getElem? hk) ⟨hdone, hopen⟩

/-- A client that is accepted is not enqueued yet. -/
theorem queueMatches_accept {s : State} (h : QueueMatches s) (sockfd : ℕ) :
    QueueMatches { s with
      mainThread := .enqueuing s.clients.length
      clients := s.clients ++ [newClient sockfd] } := by
  have hclient : ∀ d ∈ s.clients ++ [newClient sockfd], d ∈ s.clients ∨ d = newClient sockfd := by
    intro d hd
    rcases List.mem_append.mp hd with hd | hd
    · exact Or.inl hd
    · exact Or.inr (List.mem_singleton.mp hd)
  have hold : ∀ k : ℕ, k ∈ s.acceptedSockfdQ →
      (s.clients ++ [newClient sockfd])[k]? = s.clients[k]? := by
    intro k hk
    obtain ⟨c, hc, -⟩ := (h.queued_iff k).mp hk
    exact List.getElem?_append_left (List.getElem?_eq_some_iff.mp hc).1
  constructor
  · exact ⟨newClient sockfd, List.getElem?_concat_length, rfl, rfl⟩
  · intro k
    constructor
    · intro hk
      rw [hold k hk]
      exact (h.queued_iff k).mp hk
    · rintro ⟨c, hc, hdone, hended⟩
      rw [List.getElem?_append] at hc
      split at hc
      · exact (h.queued_iff k).mpr ⟨c, hc, hdone, hended⟩
      · rw [List.mem_singleton.mp (List.mem_of_getElem? hc)] at hdone
        cases hdone
  · have hids : s.acceptedSockfdQ.map
        (State.sockfdOf { s with
          mainThread := .enqueuing s.clients.length
          clients := s.clients ++ [newClient sockfd] }) = s.sockfds := by
      apply List.map_congr_left
      intro k hk
      exact congrArg _ (hold k hk)
    rw [State.sockfds, hids]
    exact h.sockfds_nodup
  · intro d hd hthread
    obtain hd | rfl := hclient d hd
    · exact h.running d hd hthread
    · exact absurd rfl hthread
  · intro d hd hpresent
    obtain hd | rfl := hclient d hd
    · exact h.sent d hd hpresent
    · cases hpresent.1

/-- A step of a `server_receiver` keeps the invariant. -/
theorem queueMatches_serverReceiver {s s' : State} (h : QueueMatches s) {k : ℕ} {c : Client}
    (hk : s.clients[k]? = some c) (hstep : serverReceiver s k c = .ok s') : QueueMatches s' := by
  unfold serverReceiver at hstep
  split at hstep
  · rename_i hthread
    split at hstep
    · cases hstep
    · cases hstep
      refine h.of_thread hk (by rw [hthread]; exact nofun) (by rw [hthread]; exact nofun) nofun
        ⟨rfl, rfl, rfl, rfl⟩ fun _ => by rw [Client.isOpen, hthread]
  · rename_i chunk hthread
    cases hstep
    obtain ⟨-, hthread', -, -⟩ := deliver_eq s.broadcasts.length s.sockfds c
    have hbroadcasting := hthread'.trans hthread
    refine (h.broadcast chunk).of_thread
      (by rw [getElem?_broadcast, hk, Option.map_some])
      (by rw [hbroadcasting]; exact nofun) (by rw [hbroadcasting]; exact nofun) ?_
      ⟨rfl, rfl, rfl, rfl⟩ fun _ => by rw [Client.isOpen, hbroadcasting]
    dsimp only
    split <;> exact nofun
  · rename_i hthread
    cases hstep
    exact h.of_thread hk (by rw [hthread]; exact nofun) (by rw [hthread]; exact nofun) nofun
      ⟨rfl, rfl, rfl, rfl⟩ fun hopen => by cases hopen
  · rename_i hthread
    cases hstep
    exact queueMatches_delete h hk hthread
  · cases hstep
    exact h
  · cases hstep
    exact h
  · cases hstep
    exact h

/-- What a client's thread receives keeps the invariant. -/
theorem queueMatches_recv {s : State} (h : QueueMatches s) {k : ℕ} {c : Client}
    (hk : s.clients[k]? = some c) (hthread : c.thread = .receiving) (chunk : List Byte) :
    QueueMatches (s.update k (recv · chunk)) := by
  refine h.of_thread hk (by rw [hthread]; exact nofun) (by rw [hthread]; exact nofun) ?_ ?_
    fun _ => by rw [Client.isOpen, hthread]
  · cases chunk <;> exact nofun
  · cases chunk <;> exact ⟨rfl, rfl, rfl, rfl⟩

/-- A step that enqueues only fresh descriptors keeps the invariant. -/
theorem queueMatches_step {s s' : State} {act : Action} (h : QueueMatches s)
    (hfresh : EnqueuesFresh s act) (hstep : step s act = .ok s') : QueueMatches s' := by
  cases act with
  | accept sockfd =>
    rw [step] at hstep
    split at hstep <;> cases hstep
    · exact queueMatches_accept h sockfd
    · exact h
  | main =>
    cases hstep
    cases hmain : s.mainThread with
    | accepting =>
      rw [main, hmain]
      exact h
    | enqueuing k =>
      simp only [EnqueuesFresh, hmain] at hfresh
      exact queueMatches_enqueue h hmain hfresh
    | creating k => exact queueMatches_create h hmain
  | recv k chunk =>
    rw [step] at hstep
    split at hstep
    · rename_i c hk
      cases hstep
      split
      · rename_i hthread
        exact queueMatches_recv h hk hthread chunk
      · exact h
    · cases hstep
      exact h
  | serverReceiver k =>
    rw [step] at hstep
    split at hstep
    · rename_i c hk
      exact queueMatches_serverReceiver h hk hstep
    · cases hstep
      exact h

/-- At the start there is no client, and the queue is empty. -/
theorem queueMatches_initial : QueueMatches initial :=
  ⟨trivial, fun _ => iff_of_false nofun (by simp [initial]), List.nodup_nil, nofun, nofun⟩

/-- Enqueuing a descriptor that is queued makes it occur twice. -/
theorem not_broadcastExact_of_step {s : State} {act : Action} (h : QueueMatches s)
    (hbroken : ¬EnqueuesFresh s act) : ∃ s', step s act = .ok s' ∧ ¬BroadcastExact s' := by
  cases act with
  | main =>
    refine ⟨main s, rfl, fun hexact => ?_⟩
    cases hmain : s.mainThread with
    | accepting | creating k =>
      rw [EnqueuesFresh, hmain] at hbroken
      exact hbroken trivial
    | enqueuing k =>
      simp only [EnqueuesFresh, hmain, not_not] at hbroken
      have hready := h.main_ready
      simp only [State.MainReady, hmain] at hready
      obtain ⟨c, hk, hthread, hnew⟩ := hready
      have hids : (main s).sockfdOf = s.sockfdOf := by
        rw [main, hmain]
        exact sockfdOf_of_modify hk rfl rfl
      have hsockfd : s.sockfdOf k = some c.sockfd := by rw [State.sockfdOf, hk, Option.map_some]
      have hsockfds : (main s).sockfds = s.sockfds ++ [some c.sockfd] := by
        rw [State.sockfds, hids, main, hmain]
        simp [State.update, State.sockfds, hsockfd]
      have hclient : { c with enqueued := true, joined := s.broadcasts.length, sent := [] } ∈
          (main s).clients := by
        apply List.mem_of_getElem? (i := k)
        rw [main, hmain]
        simp [State.update, hk]
      have honce := hexact.queued_once _ hclient ⟨rfl, by rw [Client.isOpen, hthread]⟩
      have hpos := List.count_pos_iff.mpr (hsockfd ▸ hbroken)
      simp only [hsockfds, List.count_append, List.count_singleton_self] at honce
      omega
  | accept sockfd | recv k chunk | serverReceiver k => exact absurd trivial hbroken

/-- The broadcasts are exact in exactly the runs in which `main` enqueues a descriptor only
when the queue holds none of its number. -/
theorem broadcastExact_iff (acts : List Action) :
    Always step (fun _ s' => BroadcastExact s') initial acts ↔
      Meets step EnqueuesFresh initial acts := by
  apply always_iff_meets QueueMatches
  · intro s act s' h hfresh hstep
    have hnext := queueMatches_step h hfresh hstep
    exact ⟨hnext.broadcastExact, hnext⟩
  · intro s act h hbroken
    exact not_broadcastExact_of_step h hbroken
  · exact queueMatches_initial

/-- A client disconnects; `accept` returns its number again, and `main` enqueues it before the
old thread deletes it from the queue. -/
def reusedDescriptor : List Action :=
  [.accept 4, .main, .main, .serverReceiver 0, .recv 0 [], .serverReceiver 0, .accept 4, .main]

/-- Then the new client's descriptor occurs twice in the queue. -/
theorem broadcastExact_fails_for_reused_descriptor :
    ¬Always step (fun _ s' => BroadcastExact s') initial reusedDescriptor := by
  have hrun : someStep step (fun _ s' => s'.sockfds == [some 4, some 4] &&
      (s'.clients[1]?).any fun c => c.sockfd == 4 && c.enqueued && c.isOpen)
      initial reusedDescriptor = true := by
    decide +kernel
  refine not_always_of_someStep (fun s s' htest hexact => ?_) hrun
  obtain ⟨hsockfds, hclient⟩ := Bool.and_eq_true_iff.mp htest
  obtain ⟨c, hc, hpresent⟩ := (Option.any_eq_true _ _).mp hclient
  simp only [Bool.and_eq_true, beq_iff_eq] at hpresent
  have honce := hexact.queued_once c (List.mem_of_getElem? hc) ⟨hpresent.1.2, hpresent.2⟩
  rw [eq_of_beq hsockfds, hpresent.1.1] at honce
  exact absurd honce (by decide)

end NetworkLabs.Chat.Server
