import NetworkLabs.Chat.Room

/-!
# What the server relays

The bytes that a client receives are, from its acceptance on, the bytes of all broadcasts in
their order, and the broadcasts of one author are what that author sent. This holds however
TCP cuts the streams, if `accept` returns only numbers that the queue does not hold.
-/

namespace NetworkLabs.Chat.Server

open Foundations

/-! ### A client's seat -/

/-- The chunk that a thread has received and not yet broadcast. -/
def ReceiverThread.pending : ReceiverThread → List (List Byte)
  | .broadcasting chunk => [chunk]
  | .notCreated | .starting | .receiving | .closing | .deleting | .ended => []

/-- The first broadcast for a client that is enqueued, and whether its socket is open. -/
structure Seat where
  joined : ℕ
  isOpen : Bool

/-- The seat of a client, which it has from its enqueuing on and keeps when its socket is
closed. -/
def Client.seat (c : Client) : Option Seat :=
  if c.enqueued then some { joined := c.joined, isOpen := c.isOpen } else none

/-- The pending chunk of a client, which its thread has received and not yet broadcast. -/
def State.pending (s : State) (k : ℕ) : List (List Byte) :=
  (s.clients[k]?).elim [] fun c => c.thread.pending

/-- The seat of a client, if it has one. A client without one is sent nothing. -/
def State.seat (s : State) (k : ℕ) : Option Seat := (s.clients[k]?).bind Client.seat

/-- How a step that broadcasts nothing changes a seat, after `n` broadcasts. -/
inductive SeatStep (n : ℕ) : Option Seat → Option Seat → Prop
  | same (seat : Option Seat) : SeatStep n seat seat
  /-- The client is enqueued. -/
  | taken : SeatStep n none (some { joined := n, isOpen := true })
  /-- The socket is closed. -/
  | left (joined : ℕ) :
      SeatStep n (some { joined := joined, isOpen := true })
        (some { joined := joined, isOpen := false })

/-- What is pending after the change of one client. -/
theorem pending_of_modify {s s' : State} {k : ℕ} {c : Client} {f : Client → Client}
    (hk : s.clients[k]? = some c) (hclients : s'.clients = s.clients.modify k f) (j : ℕ) :
    s'.pending j = if j = k then (f c).thread.pending else s.pending j := by
  unfold State.pending
  rw [hclients]
  by_cases hjk : k = j
  · subst hjk
    rw [List.getElem?_modify_eq, hk, if_pos rfl]
    rfl
  · rw [List.getElem?_modify_ne _ _ hjk, if_neg (Ne.symm hjk)]

/-- The seats after the change of one client: the others keep theirs. -/
theorem seat_of_modify {s s' : State} {k : ℕ} {c : Client} {f : Client → Client}
    (hk : s.clients[k]? = some c) (hclients : s'.clients = s.clients.modify k f) (j : ℕ) :
    s'.seat j = if j = k then (f c).seat else s.seat j := by
  unfold State.seat
  rw [hclients]
  by_cases hjk : k = j
  · subst hjk
    rw [List.getElem?_modify_eq, hk, if_pos rfl]
    rfl
  · rw [List.getElem?_modify_ne _ _ hjk, if_neg (Ne.symm hjk)]

/-- The change of one client that keeps what is pending. -/
theorem quiet_of_modify {s s' : State} {k n : ℕ} {c : Client} {f : Client → Client}
    (hk : s.clients[k]? = some c) (hclients : s'.clients = s.clients.modify k f)
    (hpending : (f c).thread.pending = c.thread.pending) (hseat : SeatStep n c.seat (f c).seat)
    (j : ℕ) : s'.pending j = s.pending j ∧ SeatStep n (s.seat j) (s'.seat j) := by
  rw [pending_of_modify hk hclients, seat_of_modify hk hclients]
  split
  · rename_i hjk
    subst hjk
    rw [State.pending, State.seat, hk]
    exact ⟨hpending, hseat⟩
  · exact ⟨rfl, .same _⟩

/-- A client whose thread goes on keeps its seat. -/
theorem seat_of_thread {c d : Client} (henqueued : d.enqueued = c.enqueued)
    (hjoined : d.joined = c.joined) (hopen : d.isOpen = c.isOpen) : d.seat = c.seat := by
  rw [Client.seat, Client.seat, henqueued, hjoined, hopen]

/-- A client that keeps its seat and what is pending. -/
theorem quiet_of_thread {s s' : State} {k : ℕ} {c : Client} {f : Client → Client} (n : ℕ)
    (hk : s.clients[k]? = some c) (hclients : s'.clients = s.clients.modify k f)
    (hpending : (f c).thread.pending = c.thread.pending) (hseat : (f c).seat = c.seat)
    (j : ℕ) : s'.pending j = s.pending j ∧ SeatStep n (s.seat j) (s'.seat j) := by
  refine quiet_of_modify hk hclients hpending ?_ j
  rw [hseat]
  exact .same _

/-- A step that receives no bytes and broadcasts nothing, so that it leaves the
history alone. -/
def Quiet (s : State) : Action → Prop
  | .recv _ chunk => chunk = []
  | .serverReceiver k => s.pending k = []
  | .accept _ | .main => True

/-- A quiet step broadcasts nothing, keeps what is pending, and gives and takes seats. -/
theorem quiet_step {s s' : State} {act : Action} (h : QueueMatches s) (hquiet : Quiet s act)
    (hstep : step s act = .ok s') :
    s'.broadcasts = s.broadcasts ∧ ∀ k, s'.pending k = s.pending k ∧
      SeatStep s.broadcasts.length (s.seat k) (s'.seat k) := by
  cases effect_of_step hstep with
  | idle => exact ⟨rfl, fun _ => ⟨rfl, .same _⟩⟩
  | accepted sockfd hmain =>
    refine ⟨rfl, fun k => ?_⟩
    unfold State.pending State.seat
    dsimp only
    rcases Nat.lt_trichotomy k s.clients.length with hlt | rfl | hgt
    · rw [List.getElem?_append_left hlt]
      exact ⟨rfl, .same _⟩
    · rw [List.getElem?_concat_length, List.getElem?_eq_none le_rfl]
      exact ⟨rfl, .same _⟩
    · rw [List.getElem?_eq_none (by simp; omega), List.getElem?_eq_none (by omega)]
      exact ⟨rfl, .same _⟩
  | enqueued hmain =>
    have hready := h.main_ready
    simp only [State.MainReady, hmain] at hready
    obtain ⟨c, hk, hthread, hnew⟩ := hready
    refine ⟨rfl, fun j => quiet_of_modify hk rfl rfl ?_ j⟩
    have hseat : c.seat = none := by rw [Client.seat, hnew]; rfl
    have hopen : c.isOpen = true := by rw [Client.isOpen, hthread]
    rw [hseat]
    have hnow : Client.seat { c with enqueued := true, joined := s.broadcasts.length, sent := [] } =
        some { joined := s.broadcasts.length, isOpen := c.isOpen } := rfl
    rw [hnow, hopen]
    exact .taken
  | created hmain =>
    have hready := h.main_ready
    simp only [State.MainReady, hmain] at hready
    obtain ⟨c, hk, hthread, -⟩ := hready
    refine ⟨rfl, fun j => quiet_of_thread _ hk rfl ?_ (seat_of_thread rfl rfl ?_) j⟩
    · rw [hthread]
      rfl
    · rw [Client.isOpen, Client.isOpen, hthread]
  | received chunk hk hthread =>
    cases hquiet
    refine ⟨rfl, fun j => quiet_of_thread _ hk rfl ?_ (seat_of_thread rfl rfl ?_) j⟩
    · rw [hthread]
      rfl
    · rw [Client.isOpen, Client.isOpen, hthread]
      rfl
  | started hk hthread =>
    refine ⟨rfl, fun j => quiet_of_thread _ hk rfl ?_ (seat_of_thread rfl rfl ?_) j⟩
    · rw [hthread]
      rfl
    · rw [Client.isOpen, Client.isOpen, hthread]
  | broadcast hk hthread =>
    rw [Quiet, State.pending, hk, Option.elim_some, hthread] at hquiet
    cases hquiet
  | @closed k c hk hthread =>
    refine ⟨rfl, fun j => quiet_of_modify hk rfl ?_ ?_ j⟩
    · rw [hthread]
      rfl
    · have hdone : c.enqueued = true :=
        h.running c (List.mem_of_getElem? hk) (by simp [hthread])
      have hopen : c.isOpen = true := by rw [Client.isOpen, hthread]
      have hseat : c.seat = some { joined := c.joined, isOpen := true } := by
        rw [Client.seat, if_pos hdone, hopen]
      have hseat' : Client.seat { c with thread := .deleting } =
          some { joined := c.joined, isOpen := false } := if_pos hdone
      rw [hseat, hseat']
      exact .left _
  | deleted hk hthread =>
    refine ⟨rfl, fun j => quiet_of_thread _ hk rfl ?_ (seat_of_thread rfl rfl ?_) j⟩
    · rw [hthread]
      rfl
    · rw [Client.isOpen, Client.isOpen, hthread]

/-- A thread that receives a chunk has it pending. -/
theorem views_of_recv {s s' : State} {k : ℕ} {c : Client} {chunk : List Byte}
    (hk : s.clients[k]? = some c) (hthread : c.thread = .receiving) (hsome : chunk ≠ [])
    (hstep : step s (.recv k chunk) = .ok s') :
    s'.broadcasts = s.broadcasts ∧ ∀ j,
      s'.pending j = (if j = k then [chunk.take bufferSize] else s.pending j) ∧
        s'.seat j = s.seat j := by
  rw [step, hk] at hstep
  dsimp only at hstep
  rw [if_pos hthread] at hstep
  cases hstep
  obtain ⟨b, bs, rfl⟩ := List.exists_cons_of_ne_nil hsome
  have hopen : (recv c (b :: bs)).isOpen = c.isOpen := by
    rw [Client.isOpen, Client.isOpen, hthread]
    rfl
  have hseat : (recv c (b :: bs)).seat = c.seat := seat_of_thread rfl rfl hopen
  refine ⟨rfl, fun j => ⟨pending_of_modify (f := (recv · (b :: bs))) hk rfl j, ?_⟩⟩
  rw [seat_of_modify hk rfl, hseat]
  split
  · rename_i hjk
    rw [hjk, State.seat, hk]
    rfl
  · rfl

/-- A broadcast by itself changes no seat and nothing pending: it only adds to what the clients
were sent. -/
theorem views_broadcast (s : State) (chunk : List Byte) (k : ℕ) :
    (broadcast s chunk).pending k = s.pending k ∧ (broadcast s chunk).seat k = s.seat k := by
  unfold State.pending State.seat
  rw [getElem?_broadcast]
  cases s.clients[k]? with
  | none => exact ⟨rfl, rfl⟩
  | some d =>
    obtain ⟨-, hthread, henqueued, hjoined⟩ := deliver_eq s.broadcasts.length s.sockfds d
    exact ⟨congrArg ReceiverThread.pending hthread,
      seat_of_thread henqueued hjoined (isOpen_deliver _ _ d)⟩

/-- A thread that broadcasts its chunk has nothing pending. -/
theorem views_of_broadcast {s s' : State} {k : ℕ} {c : Client} {chunk : List Byte}
    (hk : s.clients[k]? = some c) (hthread : c.thread = .broadcasting chunk)
    (hstep : step s (.serverReceiver k) = .ok s') :
    s'.broadcasts = s.broadcasts ++ [chunk] ∧ ∀ j,
      s'.pending j = (if j = k then [] else s.pending j) ∧ s'.seat j = s.seat j := by
  rw [step, hk] at hstep
  dsimp only at hstep
  rw [serverReceiver, hthread] at hstep
  cases hstep
  refine ⟨rfl, fun j => ?_⟩
  have hk' : (broadcast s chunk).clients[k]? = some (c.deliver s.broadcasts.length s.sockfds) := by
    rw [getElem?_broadcast, hk]
    rfl
  obtain ⟨hpending, hseat⟩ := views_broadcast s chunk j
  rw [pending_of_modify hk' rfl, seat_of_modify hk' rfl, hpending, hseat]
  split
  · rename_i hjk
    have hopen : c.isOpen = true := by rw [Client.isOpen, hthread]
    obtain ⟨-, -, henqueued, hjoined⟩ := deliver_eq s.broadcasts.length s.sockfds c
    refine ⟨?_, ?_⟩
    · dsimp only
      split <;> rfl
    · rw [hjk, State.seat, hk]
      refine seat_of_thread henqueued hjoined ?_
      rw [hopen]
      generalize isQuit _ = quit
      cases quit <;> rfl
  · exact ⟨rfl, rfl⟩

end NetworkLabs.Chat.Server

namespace NetworkLabs.Chat.Room

open Foundations Server

/-! ### The connections -/

/-- How many entries of the queue have the descriptor of a client with an open socket. -/
def copies (server : Server.State) (k : ℕ) (sockfds : List (Option ℕ)) : ℕ :=
  (server.clients[k]?).elim 0 fun d => if d.isOpen then sockfds.count (some d.sockfd) else 0

/-- A broadcast is sent to a connection for every entry with its descriptor. -/
theorem getElem?_foldl_broadcastCallback (server : Server.State) (chunk : List Byte)
    (sockfds : List (Option ℕ)) (connections : List Connection) (k : ℕ) :
    (sockfds.foldl (Room.broadcastCallback server chunk) connections)[k]? =
      (connections[k]?).map fun c =>
        { c with sentBack := c.sentBack ++ List.replicate (copies server k sockfds) chunk } := by
  induction sockfds generalizing connections with
  | nil =>
    have hnone : copies server k [] = 0 := by
      unfold copies
      cases server.clients[k]? <;> simp
    simp [hnone]
  | cons sockfd sockfds ih =>
    rw [List.foldl_cons, ih, Room.broadcastCallback, List.getElem?_mapIdx, Option.map_map]
    congr 1
    funext c
    unfold copies
    cases server.clients[k]? with
    | none => simp
    | some d =>
      cases hopen : d.isOpen with
      | false => simp [hopen]
      | true =>
        by_cases hsockfd : sockfd = some d.sockfd
        · simp [hopen, hsockfd, List.replicate_succ]
        · simp [hopen, hsockfd]

/-- A broadcast adds no connection, whoever is sent it. -/
theorem foldl_broadcastCallback_length (server : Server.State) (chunk : List Byte)
    (sockfds : List (Option ℕ)) (connections : List Connection) :
    (sockfds.foldl (Room.broadcastCallback server chunk) connections).length =
      connections.length := by
  induction sockfds generalizing connections with
  | nil => rfl
  | cons sockfd sockfds ih => rw [List.foldl_cons, ih, Room.broadcastCallback, List.length_mapIdx]

/-- While the numbers are fresh, a client is sent a broadcast once if it has an open seat. -/
theorem copies_eq {s : Server.State} (h : NumbersFresh s) (k : ℕ) :
    copies s k s.sockfds = (s.seat k).elim 0 fun seat => if seat.isOpen then 1 else 0 := by
  unfold copies State.seat
  cases hk : s.clients[k]? with
  | none => rfl
  | some d =>
    have hmem := List.mem_of_getElem? hk
    dsimp only [Option.elim_some, Option.bind_some, Client.seat]
    cases hopen : d.isOpen with
    | false => cases d.enqueued <;> rfl
    | true =>
      cases henqueued : d.enqueued with
      | false => exact List.count_eq_zero.mpr (h.unqueued d hmem henqueued)
      | true =>
        have hexact := h.descriptorsHold.queueMatches.broadcastExact
        exact hexact.queued_once d hmem ⟨henqueued, hopen⟩

/-- The broadcasts of one author, in the order in which the server made them. -/
def authored (k : ℕ) (log : List (ℕ × List Byte)) : List (List Byte) :=
  (log.filter fun entry => entry.1 == k).map Prod.snd

/-- One more broadcast, which is one more of its author only. -/
theorem authored_append (k j : ℕ) (log : List (ℕ × List Byte)) (chunk : List Byte) :
    authored k (log ++ [(j, chunk)]) = authored k log ++ if j = k then [chunk] else [] := by
  by_cases hjk : j = k
  · simp [authored, hjk]
  · simp [authored, hjk]

/-- What a client was sent with its seat: every broadcast from its first one on, as long as its
socket is open. -/
def SentBack (log : List (ℕ × List Byte)) (seat : Option Seat) (sentBack : List (List Byte)) :
    Prop :=
  match seat with
  | none => sentBack = []
  | some seat =>
    seat.joined ≤ log.length ∧ sentBack <+: (log.drop seat.joined).map Prod.snd ∧
      (seat.isOpen = true → sentBack = (log.drop seat.joined).map Prod.snd)

/-- A seat that is taken or left changes nothing that was sent. -/
theorem SentBack.step {log : List (ℕ × List Byte)} {seat seat' : Option Seat}
    {sentBack : List (List Byte)} (h : SentBack log seat sentBack)
    (hstep : SeatStep log.length seat seat') : SentBack log seat' sentBack := by
  cases hstep with
  | same => exact h
  | taken =>
    have hnone : sentBack = [] := h
    have hlog : (log.drop log.length).map Prod.snd = [] := by rw [List.drop_length, List.map_nil]
    refine ⟨le_rfl, ?_, fun _ => ?_⟩
    · rw [hnone]
      exact List.nil_prefix
    · exact hnone.trans hlog.symm
  | left joined => exact ⟨h.1, h.2.1, nofun⟩

/-- A broadcast is sent to the clients with an open seat. -/
theorem SentBack.broadcast {log : List (ℕ × List Byte)} {seat : Option Seat}
    {sentBack : List (List Byte)} (h : SentBack log seat sentBack) (k : ℕ) (chunk : List Byte) :
    SentBack (log ++ [(k, chunk)]) seat (sentBack ++
      List.replicate (seat.elim 0 fun seat => if seat.isOpen then 1 else 0) chunk) := by
  cases seat with
  | none =>
    have hnone : sentBack = [] := h
    rw [hnone]
    rfl
  | some seat =>
    obtain ⟨hjoined, hpart, hall⟩ := h
    have hdrop : ((log ++ [(k, chunk)]).drop seat.joined).map Prod.snd =
        (log.drop seat.joined).map Prod.snd ++ [chunk] := by
      rw [List.drop_append_of_le_length hjoined, List.map_append]
      rfl
    have hlength : seat.joined ≤ (log ++ [(k, chunk)]).length := by
      rw [List.length_append]
      omega
    dsimp only [SentBack, Option.elim_some]
    rw [hdrop]
    cases hopen : seat.isOpen with
    | false =>
      refine ⟨hlength, ?_, nofun⟩
      simpa using hpart.trans (List.prefix_append _ _)
    | true =>
      have hnow : sentBack ++ List.replicate 1 chunk =
          (log.drop seat.joined).map Prod.snd ++ [chunk] := by rw [hall hopen]; rfl
      refine ⟨hlength, ?_, fun _ => hnow⟩
      exact hnow ▸ List.prefix_rfl

/-! ### The invariant -/

/-- The streams of a connection and the history agree, in both directions. -/
structure ConnectionHolds (w : State) (k : ℕ) (c : Connection) : Prop where
  /-- The server has received a first part of what the client sent. -/
  atServer : c.atServer.flatten <+: c.session.sent.flatten
  /-- The client has received a first part of what the server sent. -/
  atClient : c.atClient.flatten <+: c.sentBack.flatten
  /-- What was received and is not pending was broadcast. -/
  authored : authored k w.log ++ w.server.pending k = c.atServer
  /-- What was broadcast was sent. -/
  sentBack : SentBack w.log (w.server.seat k) c.sentBack

/-- The invariant of the room, with what holds of each connection. -/
structure Holds (w : State) : Prop where
  numbersFresh : NumbersFresh w.server
  accepted : w.server.clients.length ≤ w.connections.length
  logged : w.log.length = w.server.broadcasts.length
  genuine : ∀ entry ∈ w.log, entry.1 < w.connections.length
  connections : ∀ k c, w.connections[k]? = some c → ConnectionHolds w k c

/-- What the room shows: the broadcasts of every author are what it sent, and every client has
received the broadcasts from some place on, all in the order of one history. -/
structure Relayed (w : State) : Prop where
  genuine : ∀ entry ∈ w.log, entry.1 < w.connections.length
  said : ∀ k c, w.connections[k]? = some c →
    (authored k w.log).flatten <+: c.session.sent.flatten
  heard : ∀ c ∈ w.connections, ∃ i,
    c.atClient.flatten <+: ((w.log.drop i).map Prod.snd).flatten

/-- `accept` returns only numbers that the queue does not hold. -/
def AcceptsFresh (w : State) : Action → Prop
  | .accept sockfd => some sockfd ∉ w.server.sockfds
  | .connect _ | .serverMain | .serverRecv _ _ | .serverRecvEnds _ | .serverReceiver _
  | .clientRecv _ _ | .clientRecvEnds _ | .client _ _ => True

instance (w : State) (act : Action) : Decidable (AcceptsFresh w act) :=
  match act with
  | .accept sockfd => inferInstanceAs (Decidable (some sockfd ∉ w.server.sockfds))
  | .connect _ | .serverMain | .serverRecv _ _ | .serverRecvEnds _ | .serverReceiver _
  | .clientRecv _ _ | .clientRecvEnds _ | .client _ _ => isTrue trivial

/-- A client has received the broadcasts from its first one on. -/
theorem SentBack.suffix {log : List (ℕ × List Byte)} {seat : Option Seat}
    {sentBack : List (List Byte)} (h : SentBack log seat sentBack) :
    ∃ i, sentBack <+: (log.drop i).map Prod.snd := by
  cases seat with
  | none =>
    have hnone : sentBack = [] := h
    rw [hnone]
    exact ⟨0, List.nil_prefix⟩
  | some seat => exact ⟨seat.joined, h.2.1⟩

/-- Under the invariant the room relays what it gets. -/
theorem Holds.relayed {w : State} (h : Holds w) : Relayed w := by
  refine ⟨h.genuine, fun k c hk => ?_, fun c hc => ?_⟩
  · have hconnection := h.connections k c hk
    refine List.IsPrefix.trans ?_ hconnection.atServer
    rw [← hconnection.authored]
    exact (List.prefix_append _ _).flatten
  · obtain ⟨k, hk⟩ := List.getElem?_of_mem hc
    have hconnection := h.connections k c hk
    obtain ⟨i, hsent⟩ := hconnection.sentBack.suffix
    exact ⟨i, hconnection.atClient.trans hsent.flatten⟩

/-! ### One step -/

/-- Only `accept` adds a client to the server. -/
theorem length_clients_step {s s' : Server.State} {act : Server.Action}
    (hstep : Server.step s act = .ok s') :
    s'.clients.length ≤ s.clients.length + 1 ∧
      ((∀ sockfd, act ≠ .accept sockfd) → s'.clients.length = s.clients.length) := by
  cases effect_of_step hstep with
  | accepted sockfd _ => exact ⟨by simp, fun hother => absurd rfl (hother sockfd)⟩
  | broadcast _ _ =>
    simp [State.update, Server.broadcast, foldl_broadcastCallback]
  | _ => simp [State.update, deleteIntegerTargets]

/-- A client sends more and takes nothing back, whatever its threads do. -/
theorem sent_prefix_step {s s' : Session.State} {act : Session.Action}
    (hstep : Session.step s act = .ok s') : s.sent <+: s'.sent := by
  cases Session.effect_of_step hstep with
  | signalled _ _ | acknowledged _ _ =>
    dsimp only [Session.State.signal]
    split <;> exact List.prefix_rfl
  | requested _ | sent _ => exact List.prefix_append _ _
  | _ => exact List.prefix_rfl

/-- A quiet step of the server keeps the invariant. -/
theorem holds_serverStep {w : State} {act : Server.Action} {server : Server.State} (h : Holds w)
    (hfresh : Server.AcceptsFresh w.server act) (hquiet : Quiet w.server act)
    (hstep : Server.step w.server act = .ok server)
    (hroom : server.clients.length ≤ w.connections.length) :
    Holds { w with server := server } := by
  obtain ⟨hbroadcasts, hviews⟩ :=
    quiet_step h.numbersFresh.descriptorsHold.queueMatches hquiet hstep
  refine ⟨numbersFresh_step h.numbersFresh hfresh hstep, hroom, ?_, h.genuine, fun k c hk => ?_⟩
  · exact hbroadcasts ▸ h.logged
  · have hconnection := h.connections k c hk
    obtain ⟨hpending, hseat⟩ := hviews k
    refine ⟨hconnection.atServer, hconnection.atClient, ?_, ?_⟩
    · dsimp only
      rw [hpending]
      exact hconnection.authored
    · rw [← h.logged] at hseat
      exact hconnection.sentBack.step hseat

/-- A step that changes one connection keeps the invariant. -/
theorem holds_setConnection {w : State} {k : ℕ} {c c' : Connection} (h : Holds w)
    (hk : w.connections[k]? = some c) (hconnection : ConnectionHolds w k c') :
    Holds (w.setConnection k c') := by
  have hlength : (w.setConnection k c').connections.length = w.connections.length :=
    List.length_set
  refine ⟨h.numbersFresh, hlength ▸ h.accepted, h.logged, hlength ▸ h.genuine,
    fun j d hj => ?_⟩
  by_cases hjk : k = j
  · subst hjk
    have hlt := (List.getElem?_eq_some_iff.mp hk).1
    rw [State.setConnection, List.getElem?_set_self hlt] at hj
    cases hj
    exact ⟨hconnection.atServer, hconnection.atClient, hconnection.authored,
      hconnection.sentBack⟩
  · rw [State.setConnection, List.getElem?_set_ne hjk] at hj
    have hother := h.connections j d hj
    exact ⟨hother.atServer, hother.atClient, hother.authored, hother.sentBack⟩

/-- A section of a client keeps the invariant. -/
theorem holds_clientStep {w w' : State} {k : ℕ} {c c' : Connection} {act : Session.Action}
    (h : Holds w) (hk : w.connections[k]? = some c) (hconnection : ConnectionHolds w k c')
    (hstep : w.clientStep k c' act = .ok w') : Holds w' := by
  obtain ⟨session, hsession, rfl⟩ := of_map_eq_ok hstep
  refine holds_setConnection h hk ⟨?_, hconnection.atClient, hconnection.authored,
    hconnection.sentBack⟩
  exact hconnection.atServer.trans (sent_prefix_step hsession).flatten

/-- A client that connects keeps the invariant. -/
theorem holds_connect {w : State} (h : Holds w) (username : List Byte) :
    Holds { w with connections := w.connections ++ [newConnection username] } := by
  have hlength : (w.connections ++ [newConnection username]).length = w.connections.length + 1 :=
    List.length_append
  refine ⟨h.numbersFresh, ?_, h.logged, ?_, fun k c hk => ?_⟩
  · dsimp only
    rw [hlength]
    exact Nat.le_succ_of_le h.accepted
  · intro entry hentry
    dsimp only
    rw [hlength]
    exact Nat.lt_succ_of_lt (h.genuine entry hentry)
  · rw [List.getElem?_append] at hk
    split at hk
    · have hconnection := h.connections k c hk
      exact ⟨hconnection.atServer, hconnection.atClient, hconnection.authored,
        hconnection.sentBack⟩
    · rename_i hnew
      rw [List.mem_singleton.mp (List.mem_of_getElem? hk)]
      have haccepted := h.accepted
      have hnone : w.server.clients[k]? = none := List.getElem?_eq_none (by omega)
      have hunsaid : Room.authored k w.log = [] := by
        have hfilter : (w.log.filter fun entry => entry.1 == k) = [] := by
          rw [List.filter_eq_nil_iff]
          intro entry hentry
          have hauthor := h.genuine entry hentry
          simp only [beq_iff_eq]
          omega
        rw [Room.authored, hfilter]
        rfl
      refine ⟨List.prefix_rfl, List.prefix_rfl, ?_, ?_⟩
      · dsimp only [State.pending]
        rw [hunsaid, hnone]
        rfl
      · dsimp only [State.seat]
        rw [hnone]
        rfl

/-- What `server_receiver` broadcasts is sent to every open seat. -/
theorem holds_broadcast {w : State} {server : Server.State} {k : ℕ} {d : Client}
    {chunk : List Byte} (h : Holds w) (hk : w.server.clients[k]? = some d)
    (hthread : d.thread = .broadcasting chunk)
    (hstep : Server.step w.server (.serverReceiver k) = .ok server) :
    Holds
      { server := server
        connections := w.server.sockfds.foldl (Room.broadcastCallback w.server chunk) w.connections
        log := w.log ++ [(k, chunk)] } := by
  obtain ⟨hbroadcasts, hviews⟩ := views_of_broadcast hk hthread hstep
  have hget := getElem?_foldl_broadcastCallback w.server chunk w.server.sockfds w.connections
  have hlength : (w.server.sockfds.foldl (Room.broadcastCallback w.server chunk)
      w.connections).length = w.connections.length := by
    apply foldl_broadcastCallback_length
  have hclients := (length_clients_step hstep).2 (by simp)
  have haccepted := h.accepted
  have hlt := (List.getElem?_eq_some_iff.mp hk).1
  have hfresh : Server.AcceptsFresh w.server (.serverReceiver k) := trivial
  refine ⟨numbersFresh_step h.numbersFresh hfresh hstep, ?_, ?_, ?_, fun j c hj => ?_⟩
  · dsimp only
    omega
  · dsimp only
    rw [hbroadcasts, List.length_append, List.length_append, h.logged]
    rfl
  · intro entry hentry
    dsimp only at hentry ⊢
    rw [hlength]
    rcases List.mem_append.mp hentry with hentry | hentry
    · exact h.genuine entry hentry
    · rw [List.mem_singleton.mp hentry]
      dsimp only
      omega
  · rw [hget] at hj
    obtain ⟨c', hc', rfl⟩ := Option.map_eq_some_iff.mp hj
    have hconnection := h.connections j c' hc'
    obtain ⟨hpending, hseat⟩ := hviews j
    refine ⟨hconnection.atServer, ?_, ?_, ?_⟩
    · dsimp only
      exact hconnection.atClient.trans (List.prefix_append _ _).flatten
    · dsimp only
      rw [hpending, authored_append, ← hconnection.authored]
      by_cases hjk : j = k
      · subst hjk
        rw [if_pos rfl, if_pos rfl, State.pending, hk, Option.elim_some, hthread]
        exact List.append_nil _
      · rw [if_neg hjk, if_neg (Ne.symm hjk), List.append_nil]
    · dsimp only
      rw [hseat, copies_eq h.numbersFresh]
      exact hconnection.sentBack.broadcast k chunk

/-- What is received is pending until the thread broadcasts it. -/
theorem holds_received {w : State} {server : Server.State} {k n : ℕ} {c : Connection} {d : Client}
    (h : Holds w) (hc : w.connections[k]? = some c) (hd : w.server.clients[k]? = some d)
    (hthread : d.thread = .receiving) (hsize : n ≤ bufferSize)
    (hreadable : Readable c.session.sent c.atServer n)
    (hstep : Server.step w.server (.recv k (nextRead c.session.sent c.atServer n)) = .ok server) :
    Holds (State.setConnection { w with server := server } k
      { c with atServer := c.atServer ++ [nextRead c.session.sent c.atServer n] }) := by
  obtain ⟨hpos, hlength⟩ := hreadable
  have hsome : nextRead c.session.sent c.atServer n ≠ [] := by
    intro hnone
    have hzero := congrArg List.length hnone
    rw [nextRead, List.length_take, List.length_nil] at hzero
    omega
  have hwhole : (nextRead c.session.sent c.atServer n).take bufferSize =
      nextRead c.session.sent c.atServer n := by
    apply List.take_of_length_le
    rw [nextRead, List.length_take]
    omega
  obtain ⟨hbroadcasts, hviews⟩ := views_of_recv hd hthread hsome hstep
  have hclients := (length_clients_step hstep).2 (by simp)
  have hlt := (List.getElem?_eq_some_iff.mp hc).1
  have hfresh : Server.AcceptsFresh w.server (.recv k (nextRead c.session.sent c.atServer n)) :=
    trivial
  have hset (c' : Connection) :
      (State.setConnection { w with server := server } k c').connections.length =
        w.connections.length := List.length_set
  refine ⟨numbersFresh_step h.numbersFresh hfresh hstep, ?_, ?_, hset _ ▸ h.genuine,
    fun j e hj => ?_⟩
  · rw [hset]
    exact hclients ▸ h.accepted
  · exact hbroadcasts ▸ h.logged
  · obtain ⟨hpending, hseat⟩ := hviews j
    dsimp only [State.setConnection] at hj ⊢
    by_cases hjk : k = j
    · subst hjk
      rw [List.getElem?_set_self hlt] at hj
      cases hj
      have hconnection := h.connections k c hc
      have hnone : w.server.pending k = [] := by
        rw [State.pending, hd, Option.elim_some, hthread]
        rfl
      refine ⟨flatten_nextRead hconnection.atServer n, hconnection.atClient, ?_, ?_⟩
      · have hauthored := hconnection.authored
        rw [hnone, List.append_nil] at hauthored
        dsimp only
        rw [hpending, if_pos rfl, hwhole, hauthored]
      · dsimp only
        rw [hseat]
        exact hconnection.sentBack
    · rw [List.getElem?_set_ne hjk] at hj
      have hconnection := h.connections j e hj
      refine ⟨hconnection.atServer, hconnection.atClient, ?_, ?_⟩
      · dsimp only
        rw [hpending, if_neg (Ne.symm hjk)]
        exact hconnection.authored
      · dsimp only
        rw [hseat]
        exact hconnection.sentBack

/-- Bytes that the server receives keep the invariant; where nothing can be received the room
stays as it is. -/
theorem holds_serverRecv {w w' : State} {k n : ℕ} (h : Holds w)
    (hstep : serverRecv w k n = .ok w') : Holds w' := by
  unfold serverRecv at hstep
  split at hstep
  · rename_i c d hc hd
    split at hstep
    · rename_i hready
      obtain ⟨hthread, hsize, hreadable⟩ := hready
      obtain ⟨w₁, hserver, rfl⟩ := of_map_eq_ok hstep
      obtain ⟨server, hrecv, rfl⟩ := of_map_eq_ok hserver
      exact holds_received h hc hd hthread hsize hreadable hrecv
    · cases hstep
      exact h
  · cases hstep
    exact h

/-- A client that receives bytes, or the end of its stream, keeps the invariant. -/
theorem holds_clientRecv {w w' : State} {k : ℕ} (h : Holds w) {act : Action}
    (hact : (∃ n, act = .clientRecv k n) ∨ act = .clientRecvEnds k)
    (hstep : step w act = .ok w') : Holds w' := by
  rcases hact with ⟨n, rfl⟩ | rfl
  · rw [step, clientRecv] at hstep
    split at hstep
    · rename_i c hc
      split at hstep
      · have hconnection := h.connections k c hc
        have hnext : ConnectionHolds w k
            { c with atClient := c.atClient ++ [nextRead c.sentBack c.atClient n] } :=
          ⟨hconnection.atServer, flatten_nextRead hconnection.atClient n, hconnection.authored,
            hconnection.sentBack⟩
        exact holds_clientStep h hc hnext hstep
      · cases hstep
        exact h
    · cases hstep
      exact h
  · rw [step, clientRecvEnds] at hstep
    split at hstep
    · rename_i c d hc hd
      split at hstep
      · exact holds_clientStep h hc (h.connections k c hc) hstep
      · cases hstep
        exact h
    · cases hstep
      exact h

/-- `server_receiver` continues: it broadcasts what is pending, closes its socket or deletes its
descriptor. -/
theorem holds_serverReceiver {w w' : State} {k : ℕ} (h : Holds w)
    (hstep : serverReceiver w k = .ok w') : Holds w' := by
  obtain ⟨server, hserver, rfl⟩ := of_map_eq_ok hstep
  have hclients := (length_clients_step hserver).2 (by simp)
  have hroom : server.clients.length ≤ w.connections.length := hclients ▸ h.accepted
  have hfresh : Server.AcceptsFresh w.server (.serverReceiver k) := trivial
  split
  · rename_i chunk hbroadcasting
    obtain ⟨d, hd, hthread⟩ := Option.map_eq_some_iff.mp hbroadcasting
    exact holds_broadcast h hd hthread hserver
  · rename_i hquiet
    have hnone : w.server.pending k = [] := by
      unfold State.pending
      cases hd : w.server.clients[k]? with
      | none => rfl
      | some d =>
        rw [Option.elim_some]
        cases hthread : d.thread with
        | broadcasting chunk => exact absurd (by rw [hd, Option.map_some, hthread]) (hquiet chunk)
        | _ => rfl
    exact holds_serverStep h hfresh hnone hserver hroom

/-- A step that accepts only fresh numbers keeps the invariant. -/
theorem holds_step {w w' : State} {act : Action} (h : Holds w) (hfresh : AcceptsFresh w act)
    (hstep : step w act = .ok w') : Holds w' := by
  cases act with
  | connect username =>
    cases hstep
    split
    · exact holds_connect h username
    · exact h
  | accept sockfd =>
    rw [step] at hstep
    split at hstep
    · rename_i hwaiting
      obtain ⟨server, hserver, rfl⟩ := of_map_eq_ok hstep
      have hclients := (length_clients_step hserver).1
      have haccepts : Server.AcceptsFresh w.server (.accept sockfd) := hfresh
      exact holds_serverStep h haccepts trivial hserver (by omega)
    · cases hstep
      exact h
  | serverMain =>
    rw [step, State.serverStep] at hstep
    obtain ⟨server, hserver, rfl⟩ := of_map_eq_ok hstep
    have hclients := (length_clients_step hserver).2 (by simp)
    have hmain : Server.AcceptsFresh w.server .main := trivial
    exact holds_serverStep h hmain trivial hserver (hclients ▸ h.accepted)
  | serverRecv k n => exact holds_serverRecv h hstep
  | serverRecvEnds k =>
    rw [step, State.serverStep] at hstep
    obtain ⟨server, hserver, rfl⟩ := of_map_eq_ok hstep
    have hclients := (length_clients_step hserver).2 (by simp)
    have hends : Server.AcceptsFresh w.server (.recv k []) := trivial
    exact holds_serverStep h hends rfl hserver (hclients ▸ h.accepted)
  | serverReceiver k => exact holds_serverReceiver h hstep
  | clientRecv k n => exact holds_clientRecv h (Or.inl ⟨n, rfl⟩) hstep
  | clientRecvEnds k => exact holds_clientRecv h (Or.inr rfl) hstep
  | client k act =>
    rw [step] at hstep
    unfold client at hstep
    split at hstep
    · cases hstep
      exact h
    · cases hstep
      exact h
    · rename_i c hrecv hc
      exact holds_clientStep h hc (h.connections k c hc) hstep

/-- At the start nobody is in the room and nothing is broadcast, so that there is nothing to
relate. -/
theorem holds_initial : Holds initial :=
  ⟨numbersFresh_initial, le_rfl, rfl, nofun, nofun⟩

/-- In every run in which `accept` returns only fresh numbers the room relays, however TCP cuts
the streams and whatever the clients send. -/
theorem relayed_of_meets (acts : List Action) (hfresh : Meets step AcceptsFresh initial acts) :
    Always step (fun _ w' => Relayed w') initial acts :=
  always_of_meets (fun _ _ _ h hcondition hstep =>
    have hnext := holds_step h hcondition hstep
    ⟨hnext.relayed, hnext⟩) holds_initial hfresh

/-- A client joins; the server receives its request in two parts, the client all at once. -/
def cutRequest : List Action :=
  [.connect [0x61], .accept 4, .serverMain, .serverMain, .serverReceiver 0, .client 0 .sender,
    .serverRecv 0 3, .serverReceiver 0, .serverRecv 0 4, .serverReceiver 0, .clientRecv 0 7]

/-- It is relayed, and the client receives it back in one piece. -/
theorem relayed_cutRequest : Always step (fun _ w' => Relayed w') initial cutRequest :=
  relayed_of_meets cutRequest (by decide +kernel)

end NetworkLabs.Chat.Room
