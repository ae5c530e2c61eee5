import Mathlib.Data.List.Nodup
import Mathlib.Data.List.Perm.Subperm
import NetworkLabs.Mrt.Closing
import NetworkLabs.Mrt.Hanging

/-!
# The receiver program comes to its end unless it hangs

While `main` of `receiver.c` accepts connections there is always a program that has not asked
yet. In a turn it reads what is unread, and when the `checker` of the connection has ticked
often enough the turn is over. So from every state in which no connection is forgotten whose
turn is not over, the program can come to its end.
-/

namespace NetworkLabs.Mrt

open Foundations

namespace Receiver

variable {s s' : State} {act : Action}

/-- A connected record belongs to an accepted identifier, and its `checker` was started. -/
def State.Registered (s : State) : Prop :=
  ∀ r ∈ s.connectedSendersQ, r.addr ∈ s.acceptedIds ∧ r.checkerThread ≠ .notStarted

/-- So does the record found for an address. -/
theorem State.Registered.record (h : s.Registered) {addr : SockaddrIn} {r : Sender}
    (hrecord : s.record addr = some r) :
    addr ∈ s.acceptedIds ∧ r.checkerThread ≠ .notStarted := by
  have hmatch : senderMatcher addr r = true := List.find?_some hrecord
  rw [← show r.addr = addr from eq_of_beq hmatch]
  exact h r (List.mem_of_find?_eq_some hrecord)

/-- Every section keeps the connected records registered: `mrt_accept1` notes the identifier and
starts the thread in one section. -/
theorem registered_step (h : s.Registered) (hstep : step s act = .ok s') : s'.Registered := by
  cases effect_of_step hstep with
  | closed => exact fun r hr => absurd hr List.not_mem_nil
  | refused | disconnected => exact forall_updateRecord h fun r => id
  | buffered => exact forall_updateRecord (forall_updateRecord h fun r => id) fun r => id
  | consumed =>
    refine forall_updateRecord h fun r hr => ?_
    rw [consume_addr, (consume_inactive r _).2]
    exact hr
  | accepted hopen hr₀ =>
    intro r hr
    rcases List.mem_append.mp hr with hold | hnew
    · exact ⟨List.mem_append_left _ (h r hold).1, (h r hold).2⟩
    · rw [List.mem_singleton.mp hnew]
      exact ⟨List.mem_append_right _ (List.mem_singleton_self _), CheckerThread.noConfusion⟩
  | ticked =>
    intro r hr
    rcases mem_modify hr with hold | ⟨r₀, hr₀, rfl⟩
    · exact h r hold
    · obtain ⟨haccepted, hstarted⟩ := h r₀ hr₀
      unfold Sender.tick
      split
      · refine ⟨haccepted, ?_⟩
        dsimp only
        split <;> exact CheckerThread.noConfusion
      · exact ⟨haccepted, hstarted⟩
  | _ => exact h

/-- A request from an unknown address is pending afterwards, if it was not before. -/
theorem handleRcon_pending {addr : SockaddrIn} (hnone : s.record addr = none) (frag : ℤ) :
    (handleRcon s addr frag).pendingSendersQ ≠ [] := by
  unfold handleRcon
  cases hpending : getItemQ s.pendingSendersQ (senderMatcher addr) with
  | some r => exact List.ne_nil_of_mem (List.mem_of_find?_eq_some hpending)
  | none =>
    rw [hnone]
    exact List.append_ne_nil_of_right_ne_nil _ (List.cons_ne_nil _ _)

/-- Without a record `mrt_receive1` returns -1 at once and changes nothing. -/
theorem mrtReceive1_of_none {id : SockaddrIn} (hrecord : s.record id = none) (len : ℤ) :
    mrtReceive1 s id len = .ok (s, .spurious) := by
  rw [mrtReceive1, hrecord]

/-- The record from which a call of `mrt_receive1` has read. -/
theorem record_of_reads {id : SockaddrIn} {r : Sender} {len : ℤ} {received : Received}
    (hrecord : s.record id = some r) (hunread : 0 < r.bytesUnread)
    (hcall : mrtReceive1 s id len = .ok (s', received)) :
    s'.record id = some (r.consume (r.bytesRead len)) := by
  rw [mrtReceive1, hrecord] at hcall
  dsimp only at hcall
  rw [if_neg (Int.not_le.mpr hunread)] at hcall
  split at hcall
  · cases hcall
    exact record_updateRecord_self (f := fun r => r.consume (r.bytesRead len))
      (fun r => consume_addr r _) hrecord
  · cases hcall

/-- The reads and the ticks before a turn can be over are fewer than this. It counts what is
unread and what `inactive_time` lacks to the threshold. -/
def Sender.untilOver (r : Sender) : ℕ :=
  r.bytesUnread.toNat + (timeoutThreshold + 1 - r.inactiveTime).toNat

/-- A read is one less, as it takes at least one byte. -/
theorem untilOver_consume {r : Sender} {len : ℤ} (hlen : 0 < len) (hunread : 0 < r.bytesUnread) :
    (r.consume (r.bytesRead len)).untilOver < r.untilOver := by
  have hread : 0 < r.bytesRead len := by
    unfold Sender.bytesRead
    split <;> assumption
  unfold Sender.untilOver Sender.consume
  split
  · dsimp only
    omega
  · dsimp only
    omega

/-- A tick is one less, as it adds a whole period to `inactive_time`. -/
theorem untilOver_tick {r : Sender} (hrunning : r.checkerThread = .running)
    (hinactive : r.inactiveTime ≤ timeoutThreshold) : r.tick.untilOver < r.untilOver := by
  have hperiod : 0 < checkerPeriod := by decide
  rw [Sender.tick, if_pos hrunning]
  unfold Sender.untilOver
  dsimp only
  omega

end Receiver

namespace Sender

variable {s s' : State} {act : Action}

/-- A connection is flagged only by a `checker`, so that one that is flagged was established. -/
def FlaggedByChecker (s : State) : Prop := s.conn.shouldClose = true → s.checkerThreads ≠ []

/-- Every section keeps this, as the list of `checker` threads never gets shorter. -/
theorem flaggedByChecker_step (h : FlaggedByChecker s) (hstep : step s act = .ok s') :
    FlaggedByChecker s' := by
  intro hclose
  cases effect_of_step hstep with
  | connected => simp
  | ticked hth | flagged hth =>
    refine List.ne_nil_of_length_pos ?_
    rw [List.length_set]
    exact Nat.zero_lt_of_lt (List.getElem?_eq_some_iff.mp hth).1
  | _ => exact h hclose

end Sender

namespace Programs

variable {numConnections : ℤ} {stdin : SockaddrIn → List Byte} {w w' : World} {addr : SockaddrIn}
  {m m' : ReceiverMain} {r r' : Receiver.State}

/-! ### Runs of the programs -/

/-- A program whose receiver serves, with the connections of its module. -/
structure Runs (numConnections : ℤ) (stdin : SockaddrIn → List Byte) (w : World) : Prop where
  holds : Holds stdin w
  registered : w.network.receiver.Registered
  flagged : ∀ addr, Sender.FlaggedByChecker (w.network.senders addr)
  connections : w.receiverMain.Serves → Network.ConnectionsHold w.network
  numConnections_eq : w.receiverMain.numConnections = numConnections

/-- The programs start, with no record, no thread and no connection. -/
theorem runs_initial (numConnections : ℤ) (readSize : SockaddrIn → ℤ)
    (stdin : SockaddrIn → List Byte) :
    Runs numConnections stdin (initial numConnections readSize stdin) :=
  ⟨holds_initial numConnections readSize stdin, fun r hr => absurd hr List.not_mem_nil,
    fun _ hclose => (by cases hclose), fun _ => Network.connectionsHold_initial, rfl⟩

/-- The number of connections stays when a turn begins. -/
theorem numConnections_nextTurn {i : ℕ} (h : m.nextTurn i = .ok m') :
    m'.numConnections = m.numConnections := by
  unfold ReceiverMain.nextTurn at h
  split at h
  · split at h
    · cases h
      rfl
    · cases h
  · cases h
    rfl

/-- `main` serves the number of connections it was told to. -/
theorem numConnections_of_move {act : Receiver.Action} (h : ReceiverMove m r act r' m') :
    m'.numConnections = m.numConnections := by
  cases h with
  | accepted hposition htaken hnext =>
    unfold ReceiverMain.nextAccept at hnext
    split at hnext
    · cases hnext
      rfl
    · exact (numConnections_nextTurn hnext).trans rfl
  | received hposition hcall hnext =>
    unfold ReceiverMain.received at hnext
    split at hnext
    · cases hnext
      rfl
    · cases hnext
      rfl
    · exact (numConnections_nextTurn hnext).trans rfl
    · exact (numConnections_nextTurn hnext).trans rfl
  | _ => rfl

/-- A section of a sender module is a reliable use of the network. -/
theorem Runs.sender (h : Runs numConnections stdin w)
    (hstdin : ∀ addr, (stdin addr).length < 2 ^ 31 - 1) {act : Sender.Action} {s : Sender.State}
    (hreturns : w.network.Returns addr act)
    (hact : act = .mrtSendContinue → (w.senderMains addr).position = .sending)
    (hstep : Sender.step (w.network.senders addr) act = .ok s) :
    (∀ id, Sender.FlaggedByChecker ((w.network.setSender addr s).senders id)) ∧
      (w.receiverMain.Serves → Network.ConnectionsHold (w.network.setSender addr s)) := by
  refine ⟨fun id => ?_, fun hserves => ?_⟩
  · by_cases hid : id = addr
    · subst hid
      rw [Network.setSender_self]
      exact Sender.flaggedByChecker_step (h.flagged id) hstep
    · rw [Network.setSender_of_ne _ s hid]
      exact h.flagged id
  · have hserving := h.holds.serving hserves
    obtain ⟨hfew, hconnected⟩ := meets_of_senderHolds (h.holds.senders addr)
      (hserving.senders addr) (hserving.reliable.calls addr) (hstdin addr) hact
    have huse : Network.ReliableUse w.network (.sender addr act) := hfew
    exact Network.connectionsHold_step (h.connections hserves) huse hconnected
      (Network.step_sender hreturns hstep)

/-- Every section keeps the programs running. The network's part needs that the receiver program
serves; what is said of the modules alone stays true after that. -/
theorem runs_step (hstdin : ∀ addr, (stdin addr).length < 2 ^ 31 - 1) {act : Action}
    (h : Runs numConnections stdin w) (hstep : step w act = .ok w') :
    Runs numConnections stdin w' := by
  have hholds := holds_step hstdin h.holds hstep
  cases effect_of_step hstep with
  | idle => exact h
  | @receiverThread act r hthread hdelivers hsub =>
    have huse : Network.ReliableUse w.network (.receiver act) := by cases act <;> trivial
    exact ⟨hholds, Receiver.registered_step h.registered hsub, h.flagged,
      fun hserves => Network.connectionsHold_step (h.connections hserves) huse trivial
        (Network.step_receiver hdelivers hsub), h.numConnections_eq⟩
  | receiverMain hmove hdelivers hsub =>
    refine ⟨hholds, Receiver.registered_step h.registered hsub, h.flagged, fun hserves => ?_,
      (numConnections_of_move hmove).trans h.numConnections_eq⟩
    obtain ⟨hbefore, rfl | ⟨-, huse⟩⟩ := hmove.serves
    · cases hmove
      exact absurd rfl hserves.1
    · have hreliable : Network.ReliableUse w.network (.receiver _) := huse
      exact Network.connectionsHold_step (h.connections hbefore) hreliable trivial
        (Network.step_receiver hdelivers hsub)
  | returned hposition =>
    exact ⟨hholds, h.registered, h.flagged, fun hserves => absurd rfl hserves.2,
      h.numConnections_eq⟩
  | senderThread hthread hreturns hsub =>
    obtain ⟨hflagged, hconnections⟩ := h.sender hstdin hreturns
      (fun hact => by subst hact; exact hthread.elim) hsub
    exact ⟨hholds, h.registered, hflagged, hconnections, h.numConnections_eq⟩
  | senderMain hmove hreturns hsub =>
    obtain ⟨hflagged, hconnections⟩ := h.sender hstdin hreturns
      (fun hact => by subst hact; cases hmove <;> assumption) hsub
    exact ⟨hholds, h.registered, hflagged, hconnections, h.numConnections_eq⟩

/-! ### Sections that help -/

/-- The sections of `main` of `receiver.c` and of the `checker` threads of its module, the
handling of requests, and the sections of a sender program that does not read. -/
def Helps : Action → Prop
  | .receiverMain | .receiverThread (.checker _) => True
  | .receiverThread (.mainHandler _ dg) => dg = rconDatagram
  | .senderMain _ numBytesRead => numBytesRead = 0
  | _ => False

/-- The programs run and the receiver program does not hang. -/
structure GoesOn (numConnections : ℤ) (stdin : SockaddrIn → List Byte) (w : World) : Prop
    extends Runs numConnections stdin w where
  servable : ¬w.Hangs

/-- No section of `main` forgets a connection, as it handles no datagrams. -/
theorem ReceiverMove.handlesRequests {act : Receiver.Action} (h : ReceiverMove m r act r' m') :
    Receiver.HandlesRequests act := by
  cases h <;> trivial

/-- While `main` accepts connections all accepted ones are to be served. -/
theorem mem_toServe_of_registering {i : ℕ} (h : ReceiverHolds r m)
    (hposition : m.position = .registering i) (haddr : addr ∈ r.acceptedIds) :
    addr ∈ m.toServe := by
  have hserved := h.served
  have hstands := h.stands
  rw [hposition] at hstands
  rw [ReceiverMain.turns, hposition, hstands.1] at hserved
  rw [ReceiverMain.toServe, hposition, show m.senderIdQ = r.acceptedIds from hserved]
  exact haddr

/-- These sections do not make the receiver program hang. Only a datagram that is no request
could. -/
theorem goesOn_step (h : GoesOn numConnections stdin w)
    (hstdin : ∀ addr, (stdin addr).length < 2 ^ 31 - 1) {act : Action} (hact : Helps act)
    (hstep : step w act = .ok w') : GoesOn numConnections stdin w' := by
  refine ⟨runs_step hstdin h.toRuns hstep, ?_⟩
  rintro ⟨addr, hserve, hforgets⟩
  refine h.servable ?_
  cases effect_of_step hstep with
  | idle | senderMain => exact ⟨addr, hserve, hforgets⟩
  | senderThread => exact hact.elim
  | @receiverThread act r hthread hdelivers hsub =>
    have hrequests : Receiver.HandlesRequests act := by
      cases act with
      | mainHandler _ _ => exact hact
      | _ => trivial
    exact ⟨addr, hserve, Receiver.forgets_of_step hrequests hsub hforgets⟩
  | @receiverMain act r m hmove hdelivers hsub =>
    have hforgets' := Receiver.forgets_of_step hmove.handlesRequests hsub hforgets
    refine ⟨addr, ?_, hforgets'⟩
    cases turns_of_move h.holds.receiver hmove hsub with
    | kept hturns => exact hturns ▸ hserve
    | accepted htaken hturns =>
      obtain ⟨x, hx, -⟩ := hforgets'
      have haccepted := (h.registered.record hx).1
      cases hmove with
      | accepted hposition => exact mem_toServe_of_registering h.holds.receiver hposition haccepted
    | ended hcall hover hturns =>
      rw [hturns]
      exact List.mem_cons_of_mem _ hserve
  | returned => cases hserve

/-! ### The sections of `main` -/

/-- A bound on the sections of `main` that take it on, before it has returned. -/
def ReceiverMain.remaining (m : ReceiverMain) : ℕ :=
  match m.position with
  | .accepting i => 2 * (m.numConnections.toNat - i) + m.numConnections.toNat + 3
  | .registering i => 2 * (m.numConnections.toNat - i) + m.numConnections.toNat + 2
  | .receiving i _ _ => m.numConnections.toNat - i + 2
  | .closing => 2
  | .returning => 1
  | .ended => 0

/-- The turns that are left bound what remains when the next one begins, or `main` comes to
`mrt_close`. -/
theorem remaining_nextTurn {i : ℕ} (h : m.nextTurn i = .ok m') :
    m'.remaining ≤ m.numConnections.toNat - i + 2 := by
  unfold ReceiverMain.nextTurn at h
  split at h
  · split at h
    · cases h
      exact Nat.le_refl _
    · cases h
  · cases h
    exact Nat.le_add_left _ _

/-- The calls of `mrt_accept1` that are left, and the turns. -/
theorem remaining_nextAccept {i : ℕ} (h : m.nextAccept i = .ok m') :
    m'.remaining ≤ 2 * (m.numConnections.toNat - i) + m.numConnections.toNat + 3 := by
  unfold ReceiverMain.nextAccept at h
  split at h
  · cases h
    exact Nat.le_refl _
  · have hturns := remaining_nextTurn h
    omega

/-- A call of `mrt_accept1` takes a request, if one is pending, and comes to its
second section. -/
theorem GoesOn.takes (h : GoesOn numConnections stdin w) {i : ℕ}
    (hposition : w.receiverMain.position = .accepting i)
    (hpending : w.network.receiver.pendingSendersQ ≠ []) :
    ∃ w', step w .receiverMain = .ok w' ∧
      w'.receiverMain.remaining < w.receiverMain.remaining := by
  obtain ⟨w', hstep⟩ := h.holds.main_ok
  refine ⟨w', hstep, ?_⟩
  rcases move_of_receiverMain hstep with
    ⟨act, r, m, hmove, -, hsub, rfl⟩ | ⟨hother, -⟩ | ⟨-, hother | ⟨j, hother, -⟩⟩
  · cases hmove with
    | waiting hsame hnone =>
      obtain ⟨x, queue, hqueue⟩ := List.exists_cons_of_ne_nil hpending
      rw [Receiver.step, Receiver.mrtAccept1Dequeue, hqueue] at hsub
      split at hsub
      · cases hsub
      · cases hsub
        exact absurd hnone (List.append_ne_nil_of_right_ne_nil _ (List.cons_ne_nil x []))
    | taken hsame hsome =>
      cases hposition.symm.trans hsame
      rw [ReceiverMain.remaining, ReceiverMain.remaining, hposition]
      exact Nat.lt_succ_self _
    | accepted hother | received hother | closing hother => cases hposition.symm.trans hother
  all_goals cases hposition.symm.trans hother

/-- A call of `mrt_accept1` returns with the record that it has taken, and `main` comes to its
next call or its first turn. -/
theorem GoesOn.accepts (h : GoesOn numConnections stdin w) {i : ℕ}
    (hposition : w.receiverMain.position = .registering i) :
    ∃ w', step w .receiverMain = .ok w' ∧
      w'.receiverMain.remaining < w.receiverMain.remaining := by
  obtain ⟨w', hstep⟩ := h.holds.main_ok
  have hstands := h.holds.receiver.stands
  rw [hposition] at hstands
  obtain ⟨-, -, hmore, x, haccepting⟩ := hstands
  refine ⟨w', hstep, ?_⟩
  rcases move_of_receiverMain hstep with
    ⟨act, r, m, hmove, -, hsub, rfl⟩ | ⟨hother, -⟩ | ⟨-, hother | ⟨j, hother, hnone⟩⟩
  · cases hmove with
    | accepted hsame htaken hnext =>
      cases hposition.symm.trans hsame
      have hleft := remaining_nextAccept hnext
      have hbefore : w.receiverMain.remaining = 2 * (w.receiverMain.numConnections.toNat - i) +
          w.receiverMain.numConnections.toNat + 2 := by
        rw [ReceiverMain.remaining, hposition]
      dsimp only at hleft ⊢
      omega
    | waiting hother | taken hother | received hother | closing hother =>
      cases hposition.symm.trans hother
  · cases hposition.symm.trans hother
  · cases hposition.symm.trans hother
  · rw [haccepting] at hnone
    cases hnone

/-- A call of `mrt_receive1` runs its loop once, and `main` goes on with what it returned. -/
theorem GoesOn.receives (h : GoesOn numConnections stdin w) {i : ℕ} {id : SockaddrIn}
    {written : List Byte} (hposition : w.receiverMain.position = .receiving i id written) :
    ∃ w' received, step w .receiverMain = .ok w' ∧
      Receiver.mrtReceive1 w.network.receiver id bufferSize =
        .ok (w'.network.receiver, received) ∧
      w.receiverMain.received i id written received = .ok w'.receiverMain := by
  obtain ⟨w', hstep⟩ := h.holds.main_ok
  rcases move_of_receiverMain hstep with
    ⟨act, r, m, hmove, -, hsub, rfl⟩ | ⟨hother, -⟩ | ⟨-, hother | ⟨j, hother, -⟩⟩
  · cases hmove with
    | @received _ _ _ _ outcome _ hsame hcall hnext =>
      cases hposition.symm.trans hsame
      obtain ⟨r', received⟩ := outcome
      refine ⟨_, received, hstep, ?_, hnext⟩
      rw [Receiver.step, hcall] at hsub
      split at hsub
      · cases hsub
      · cases hsub
        exact hcall
    | waiting hother | taken hother | accepted hother | closing hother =>
      cases hposition.symm.trans hother
  all_goals cases hposition.symm.trans hother

/-- When the turn is over fewer are left, and `main` begins the next one or
calls `mrt_close`. -/
theorem GoesOn.turnOver (h : GoesOn numConnections stdin w) {i : ℕ} {id : SockaddrIn}
    {written : List Byte} (hposition : w.receiverMain.position = .receiving i id written)
    {received : Receiver.Received} (hover : received = .spurious ∨ received = .returns [])
    (hnext : w.receiverMain.received i id written received = .ok m') :
    m'.remaining < w.receiverMain.remaining := by
  have hserved := congrArg List.length h.holds.receiver.served
  have hstands := h.holds.receiver.stands
  rw [hposition] at hstands
  rw [ReceiverMain.turns, hposition, ReceiverPosition.current] at hserved
  simp only [List.length_append, List.length_map, List.length_singleton] at hserved
  have hturn : ReceiverMain.nextTurn
      { w.receiverMain with finished := w.receiverMain.finished ++ [(id, written)] } (i + 1) =
        .ok m' := by
    rcases hover with rfl | rfl <;> exact hnext
  have hleft := remaining_nextTurn hturn
  have hcount := hstands.1
  have hall := hstands.2
  have hbefore : w.receiverMain.remaining = w.receiverMain.numConnections.toNat - i + 2 := by
    rw [ReceiverMain.remaining, hposition]
  dsimp only at hleft
  omega

/-! ### A turn -/

/-- In a turn `main` reads what is unread, and writes it. -/
theorem GoesOn.reads (h : GoesOn numConnections stdin w) {i : ℕ} {id : SockaddrIn}
    {written : List Byte} (hposition : w.receiverMain.position = .receiving i id written)
    {x : Receiver.Sender} (hrecord : w.network.receiver.record id = some x)
    (hunread : 0 < x.bytesUnread) : ∃ w' x' written', step w .receiverMain = .ok w' ∧
      w'.network.receiver.record id = some x' ∧ x'.untilOver < x.untilOver ∧
        w'.receiverMain = { w.receiverMain with position := .receiving i id written' } := by
  have hserving := h.holds.serving (serves_of_eq hposition (by simp))
  have hfit := hserving.reliable.isOpen.fit x (Receiver.mem_records_of_record hrecord)
  have hlen : (0 : ℤ) < bufferSize := by simp
  obtain ⟨w', received, hstep, hcall, hnext⟩ := h.receives hposition
  have hrecord' := Receiver.record_of_reads hrecord hunread hcall
  obtain ⟨r', hreads⟩ := Receiver.mrtReceive1_of_unread hrecord hfit (Int.le_of_lt hlen) hunread
  have hreceived := congrArg Prod.snd (Except.ok.inj (hcall.symm.trans hreads))
  cases hbytes : x.unread.take (bufferSize : ℤ).toNat with
  | nil =>
    -- An unread byte fits into the buffer.
    have hlength := congrArg List.length hbytes
    rw [List.length_take, show x.unread.length = x.bytesUnread.toNat from Memory.length_read _ _ _,
      List.length_nil, Int.toNat_natCast, bufferSize] at hlength
    omega
  | cons b bytes =>
    rw [hbytes] at hreceived
    rw [show received = .returns (b :: bytes) from hreceived] at hnext
    exact ⟨w', _, written ++ b :: bytes, hstep, hrecord',
      Receiver.untilOver_consume hlen hunread, (Except.ok.inj hnext).symm⟩

/-- While it waits the `checker` of the connection ticks, which brings the end of the turn
nearer. -/
theorem GoesOn.ticks (h : GoesOn numConnections stdin w) {id : SockaddrIn}
    (hserve : id ∈ w.receiverMain.toServe) {x : Receiver.Sender}
    (hrecord : w.network.receiver.record id = some x)
    (hinactive : x.inactiveTime ≤ Receiver.timeoutThreshold) : ∃ i w' x',
      step w (.receiverThread (.checker i)) = .ok w' ∧
        w'.network.receiver.record id = some x' ∧ x'.untilOver < x.untilOver ∧
          w'.receiverMain = w.receiverMain := by
  have hserves := serves_of_mem_toServe hserve
  have hopen := (h.holds.serving hserves).reliable.isOpen
  have hrunning : x.checkerThread = .running := by
    cases hthread : x.checkerThread with
    | running => rfl
    | notStarted => exact absurd hthread (h.registered.record hrecord).2
    | ended => exact absurd ⟨id, hserve, x, hrecord, hthread, hinactive⟩ h.servable
  obtain ⟨i, hticked⟩ := Receiver.exists_checker hrecord
  have hsub : Receiver.step w.network.receiver (.checker i) =
      .ok (Receiver.checker w.network.receiver i) :=
    if_neg (by simp [hopen.closed_eq])
  have hthread : ReceiverThreadSection (.checker i) := trivial
  have hdelivers : w.network.Delivers (.checker i) := trivial
  exact ⟨i, _, x.tick, step_receiverThread hthread hserves.2 hdelivers hsub,
    congrArg Receiver.View.record hticked, Receiver.untilOver_tick hrunning hinactive, rfl⟩

/-- Every turn can be over: the reads and the ticks that are left become fewer. -/
theorem GoesOn.canEndTurn (h : GoesOn numConnections stdin w)
    (hstdin : ∀ addr, (stdin addr).length < 2 ^ 31 - 1) {i : ℕ} {id : SockaddrIn}
    {written : List Byte} (hposition : w.receiverMain.position = .receiving i id written) :
    CanReach step Helps (fun t => GoesOn numConnections stdin t ∧
      t.receiverMain.remaining < w.receiverMain.remaining) w := by
  refine canReach_of_measure (fun t => GoesOn numConnections stdin t ∧
      t.receiverMain.remaining = w.receiverMain.remaining ∧
        ∃ written, t.receiverMain.position = .receiving i id written)
    (fun t => (t.network.receiver.record id).elim 0 Receiver.Sender.untilOver) (fun t ht => ?_)
    ⟨h, rfl, written, hposition⟩
  obtain ⟨ht, hremaining, written', hposition'⟩ := ht
  obtain ⟨t', received, hstep, hcall, hnext⟩ := ht.receives hposition'
  have hmain : Helps .receiverMain := trivial
  have hover (hnone : received = .spurious ∨ received = .returns []) :
      GoesOn numConnections stdin t' ∧
        t'.receiverMain.remaining < w.receiverMain.remaining :=
    ⟨goesOn_step ht hstdin hmain hstep, hremaining ▸ ht.turnOver hposition' hnone hnext⟩
  cases hrecord : t.network.receiver.record id with
  | none =>
    have hspurious := hcall.symm.trans (Receiver.mrtReceive1_of_none hrecord bufferSize)
    refine canReach_step hmain hstep (canReach_now (Or.inl (hover (Or.inl ?_))))
    exact congrArg Prod.snd (Except.ok.inj hspurious)
  | some x =>
    by_cases hunread : 0 < x.bytesUnread
    · obtain ⟨u, x', written'', hstep, hrecord', hless, hmoved⟩ :=
        ht.reads hposition' hrecord hunread
      refine canReach_step hmain hstep (canReach_now (Or.inr
        ⟨⟨goesOn_step ht hstdin hmain hstep, ?_, written'', ?_⟩, ?_⟩))
      · rw [← hremaining, hmoved, ReceiverMain.remaining, ReceiverMain.remaining, hposition']
      · rw [hmoved]
      · rw [hrecord']
        exact hless
    · by_cases hinactive : Receiver.timeoutThreshold < x.inactiveTime
      · have hends := hcall.symm.trans
          (Receiver.mrtReceive1_of_inactive hrecord (Int.not_lt.mp hunread) hinactive)
        refine canReach_step hmain hstep (canReach_now (Or.inl (hover (Or.inr ?_))))
        exact congrArg Prod.snd (Except.ok.inj hends)
      · have hserve : id ∈ t.receiverMain.toServe := by
          rw [ReceiverMain.toServe, hposition']
          exact List.mem_cons_self
        obtain ⟨j, u, x', hstep, hrecord', hless, hkept⟩ :=
          ht.ticks hserve hrecord (Int.not_lt.mp hinactive)
        have hticks : Helps (.receiverThread (.checker j)) := trivial
        refine canReach_step hticks hstep (canReach_now (Or.inr
          ⟨⟨goesOn_step ht hstdin hticks hstep, ?_, written', ?_⟩, ?_⟩))
        · rw [hkept]
          exact hremaining
        · rw [hkept]
          exact hposition'
        · rw [hrecord']
          exact hless

/-! ### A new request -/

/-- There are more addresses than connections that an `int` can count. So a sender that has not
connected yet can always ask. -/
theorem exists_address_notMem {ids : List SockaddrIn} (h : ids.length < 2 ^ 31) :
    ∃ addr, addr ∉ ids := by
  by_contra! hall
  -- One address for each value of `sin_addr`, of which there are enough.
  let address (i : Fin (ids.length + 1)) : SockaddrIn := ⟨2, 0, BitVec.ofNat 32 i, 0⟩
  have hinjective : Function.Injective address := by
    intro i j hij
    have hvalue := congrArg (fun addr => addr.sinAddr.toNat) hij
    simp only [address, BitVec.toNat_ofNat] at hvalue
    rw [Nat.mod_eq_of_lt (by omega), Nat.mod_eq_of_lt (by omega)] at hvalue
    exact Fin.ext hvalue
  have hnodup := List.Nodup.map hinjective (List.nodup_finRange (ids.length + 1))
  have hlength := (List.subperm_of_subset hnodup fun addr _ => hall addr).length_le
  rw [List.length_map, List.length_finRange] at hlength
  exact Nat.not_succ_le_self _ hlength

/-- A program that the receiver does not know is still in its call of `mrt_connect`, and its
connection is as it was. -/
structure Unknown (w : World) (addr : SockaddrIn) : Prop where
  connecting : (w.senderMains addr).position = .connecting
  idle : (w.network.senders addr).handlerThread = .recvfrom
  first : (w.network.senders addr).conn.lastAcknowledgedFrag = -1
  live : (w.network.senders addr).live = true
  call : (w.network.senders addr).connectCall ≠ .returned

/-- The receiver knows the programs whose connections have changed, so that an unknown one is as
it started. -/
theorem Runs.unknown (h : Runs numConnections stdin w) (hserves : w.receiverMain.Serves)
    (hnone : w.network.receiver.record addr = none) : Unknown w addr := by
  have hconnections := h.connections hserves
  have hserving := h.holds.serving hserves
  have hclosed := Bool.eq_false_iff.mp hserving.reliable.isOpen.closed_eq
  have hunknown : ¬(w.network.receiver.view addr).Known := not_or.mpr ⟨not_not.mpr hnone, hclosed⟩
  have hfirst : (w.network.senders addr).conn.lastAcknowledgedFrag = -1 :=
    not_not.mp fun hestablished => hunknown (hconnections.known addr hestablished)
  have hthreads := hconnections.threads addr
  have hunflagged : (w.network.senders addr).conn.shouldClose = false := by
    refine Bool.eq_false_iff.mpr fun hclose => h.flagged addr hclose (List.length_eq_zero_iff.mp ?_)
    rw [hthreads.checkers, Sender.Connection.threadsDue, if_pos hfirst]
  exact {
    connecting := not_not.mp fun hposition => (hserving.senders addr).established hposition hfirst
    idle := not_not.mp fun hbusy => hunknown (hconnections.sessions.known addr hbusy)
    first := hfirst
    live := Network.Open.live ⟨hconnections, hunflagged⟩
    call := fun hreturned => hthreads.returned hreturned hfirst }

/-- A section of `mrt_connect` that does not return. -/
theorem step_connecting (hposition : (w.senderMains addr).position = .connecting)
    {s : Sender.State} (hsub : Sender.step (w.network.senders addr) .mrtConnect = .ok s)
    (hcall : s.connectCall ≠ .returned) :
    step w (.senderMain addr 0) = .ok { w with network := w.network.setSender addr s } := by
  have hreturns : w.network.Returns addr .mrtConnect := trivial
  rw [step, senderMain, hposition]
  dsimp only
  rw [World.runSender, Network.step_sender hreturns hsub]
  dsimp only [Except.map]
  rw [Network.setSender_self, if_neg hcall]

/-- An unknown program can send a request, by two sections of its call of `mrt_connect`. -/
theorem Unknown.canRequest (h : Unknown w addr) : CanReach step Helps
    (fun t => t.receiverMain = w.receiverMain ∧ t.network.receiver = w.network.receiver ∧
      rconDatagram ∈ (t.network.senders addr).outbox) w := by
  have hconnects : Helps (.senderMain addr 0) := rfl
  have hsend (t : World) (ht : Unknown t addr)
      (hcall : (t.network.senders addr).connectCall = .sendRcon) : CanReach step Helps
        (fun u => u.receiverMain = t.receiverMain ∧ u.network.receiver = t.network.receiver ∧
          rconDatagram ∈ (u.network.senders addr).outbox) t := by
    have hsub := Sender.step_mrtConnect ht.live ht.idle
    rw [hcall] at hsub
    have hstep := step_connecting ht.connecting hsub Sender.ConnectCall.noConfusion
    refine canReach_step hconnects hstep (canReach_now ⟨rfl, rfl, ?_⟩)
    rw [Network.setSender_self]
    exact List.mem_append_right _ (by simp)
  cases hcall : (w.network.senders addr).connectCall with
  | sendRcon => exact hsend w h hcall
  | returned => exact absurd hcall h.call
  | poll =>
    have hsub := Sender.step_mrtConnect h.live h.idle
    rw [hcall, h.first] at hsub
    have hstep := step_connecting h.connecting hsub Sender.ConnectCall.noConfusion
    refine canReach_step hconnects hstep (hsend _ ⟨h.connecting, ?_, ?_, ?_, ?_⟩ ?_)
    all_goals rw [Network.setSender_self]
    · exact h.idle
    · exact h.first
    · exact h.live
    · exact Sender.ConnectCall.noConfusion
    · rfl

/-- While `main` accepts connections there can be a request, from an address that it has not
accepted. -/
theorem GoesOn.canBeAsked (h : GoesOn numConnections stdin w)
    (hstdin : ∀ addr, (stdin addr).length < 2 ^ 31 - 1) (hmax : numConnections < 2 ^ 31) {i : ℕ}
    (hposition : w.receiverMain.position = .accepting i) :
    CanReach step Helps (fun t => GoesOn numConnections stdin t ∧
      t.receiverMain = w.receiverMain ∧ t.network.receiver.pendingSendersQ ≠ []) w := by
  by_cases hpending : w.network.receiver.pendingSendersQ = []
  · have hserves := serves_of_eq hposition (by simp)
    have hopen := (h.holds.serving hserves).reliable.isOpen
    have hstands := h.holds.receiver.stands
    have hcount := h.numConnections_eq
    rw [hposition] at hstands
    obtain ⟨-, hlength, hmore, -⟩ := hstands
    obtain ⟨addr, hfresh⟩ := exists_address_notMem
      (show w.network.receiver.acceptedIds.length < 2 ^ 31 by omega)
    have hnone : w.network.receiver.record addr = none := by
      by_contra hsome
      obtain ⟨x, hx⟩ := Option.ne_none_iff_exists'.mp hsome
      exact hfresh (h.registered.record hx).1
    have hrequests := ((h.unknown hserves hnone).canRequest).keeping
      (fun _ _ _ ht hact hstep => goesOn_step ht hstdin hact hstep) h
    refine hrequests.trans ?_
    rintro t ⟨ht, hmain, hreceiver, hrcon⟩
    have hhandled : Receiver.step w.network.receiver (.mainHandler addr rconDatagram) = _ :=
      Receiver.step_of_dispatchedType hopen.closed_eq hopen.shouldClose_eq
        (dispatchedType_rcon w.network.receiver)
    rw [← hreceiver] at hhandled
    have hdelivers : t.network.Delivers (.mainHandler addr rconDatagram) := hrcon
    have hthread : ReceiverThreadSection (.mainHandler addr rconDatagram) := trivial
    have hended : t.receiverMain.position ≠ .ended := by
      rw [hmain, hposition]
      exact ReceiverPosition.noConfusion
    have hrun := step_receiverThread hthread hended hdelivers hhandled
    have hhelps : Helps (.receiverThread (.mainHandler addr rconDatagram)) := rfl
    refine canReach_step hhelps hrun (canReach_now ⟨goesOn_step ht hstdin hhelps hrun, hmain, ?_⟩)
    refine Receiver.handleRcon_pending (s := t.network.receiver.store rconDatagram) ?_ _
    rw [hreceiver]
    exact hnone
  · exact canReach_now ⟨h, rfl, hpending⟩

/-! ### The end -/

/-- `main` calls `mrt_close` and returns, without waiting for anything. -/
theorem GoesOn.closes (h : GoesOn numConnections stdin w)
    (hposition : w.receiverMain.position = .closing ∨ w.receiverMain.position = .returning) :
    ∃ w', step w .receiverMain = .ok w' ∧
      w'.receiverMain.remaining < w.receiverMain.remaining := by
  obtain ⟨w', hstep⟩ := h.holds.main_ok
  refine ⟨w', hstep, ?_⟩
  rcases move_of_receiverMain hstep with
    ⟨act, r, m, hmove, -, -, rfl⟩ | ⟨hreturning, rfl⟩ | ⟨-, hother | ⟨j, hother, -⟩⟩
  · cases hmove with
    | closing hclosing =>
      rw [ReceiverMain.remaining, ReceiverMain.remaining, hclosing]
      exact Nat.lt_succ_self 1
    | waiting hother | taken hother | accepted hother | received hother =>
      rcases hposition with hposition | hposition <;> cases hposition.symm.trans hother
  · rw [ReceiverMain.remaining, ReceiverMain.remaining, hreturning]
    exact Nat.zero_lt_one
  all_goals rcases hposition with hposition | hposition <;> cases hposition.symm.trans hother

/-- Wherever `main` stands it can go on, by its own sections and those that help it. -/
theorem GoesOn.canMoveOn (h : GoesOn numConnections stdin w)
    (hstdin : ∀ addr, (stdin addr).length < 2 ^ 31 - 1) (hmax : numConnections < 2 ^ 31)
    (hruns : w.receiverMain.position ≠ .ended) : CanReach step Helps
      (fun t => GoesOn numConnections stdin t ∧
        t.receiverMain.remaining < w.receiverMain.remaining) w := by
  have hmain : Helps .receiverMain := trivial
  have hmoves {t t' : World} (ht : GoesOn numConnections stdin t)
      (hstep : step t .receiverMain = .ok t')
      (hless : t'.receiverMain.remaining < t.receiverMain.remaining) : CanReach step Helps
        (fun u => GoesOn numConnections stdin u ∧
          u.receiverMain.remaining < t.receiverMain.remaining) t :=
    canReach_step hmain hstep (canReach_now ⟨goesOn_step ht hstdin hmain hstep, hless⟩)
  cases hposition : w.receiverMain.position with
  | accepting i =>
    refine (h.canBeAsked hstdin hmax hposition).trans ?_
    rintro t ⟨ht, hkept, hpending⟩
    rw [← hkept] at hposition ⊢
    obtain ⟨t', hstep, hless⟩ := ht.takes hposition hpending
    exact hmoves ht hstep hless
  | registering i =>
    obtain ⟨w', hstep, hless⟩ := h.accepts hposition
    exact hmoves h hstep hless
  | receiving i id written => exact h.canEndTurn hstdin hposition
  | closing =>
    obtain ⟨w', hstep, hless⟩ := h.closes (Or.inl hposition)
    exact hmoves h hstep hless
  | returning =>
    obtain ⟨w', hstep, hless⟩ := h.closes (Or.inr hposition)
    exact hmoves h hstep hless
  | ended => exact absurd hposition hruns

/-- A receiver program that does not hang can come to its end. -/
theorem GoesOn.canEnd (h : GoesOn numConnections stdin w)
    (hstdin : ∀ addr, (stdin addr).length < 2 ^ 31 - 1) (hmax : numConnections < 2 ^ 31) :
    CanReach step Helps (fun t => t.receiverMain.position = .ended) w := by
  refine canReach_of_measure (GoesOn numConnections stdin) (fun t => t.receiverMain.remaining)
    (fun t ht => ?_) h
  by_cases hended : t.receiverMain.position = .ended
  · exact canReach_now (Or.inl hended)
  · exact (ht.canMoveOn hstdin hmax hended).mono (fun _ => id) fun _ => Or.inr

/-- In every state that the programs can reach, the receiver program can still come to its end
exactly if no connection is forgotten whose turn is not over. Then the sections that help it
are enough. -/
theorem canEnd_iff_of_run {numConnections : ℤ} (hmax : numConnections < 2 ^ 31)
    (readSize : SockaddrIn → ℤ) {stdin : SockaddrIn → List Byte}
    (hstdin : ∀ addr, (stdin addr).length < 2 ^ 31 - 1) {acts : List Action} {w : World}
    (hrun : run step (initial numConnections readSize stdin) acts = .ok w) :
    (CanReach step (fun _ => True) (fun t => t.receiverMain.position = .ended) w ↔ ¬w.Hangs) ∧
      (CanReach step Helps (fun t => t.receiverMain.position = .ended) w ↔ ¬w.Hangs) := by
  have hruns := invariant_of_steps (fun _ _ _ h => runs_step hstdin h)
    (runs_initial numConnections readSize stdin) hrun
  have hnever (hcan : CanReach step (fun _ => True) (fun t => t.receiverMain.position = .ended) w) :
      ¬w.Hangs := fun hhangs => hruns.holds.not_canReach_ended hstdin hhangs hcan
  have hhelped (hservable : ¬w.Hangs) :
      CanReach step Helps (fun t => t.receiverMain.position = .ended) w :=
    have hgoesOn : GoesOn numConnections stdin w := ⟨hruns, hservable⟩
    hgoesOn.canEnd hstdin hmax
  constructor
  · exact ⟨hnever, fun hservable => (hhelped hservable).mono (fun _ _ => trivial) fun _ => id⟩
  · exact ⟨fun hcan => hnever (hcan.mono (fun _ _ => trivial) fun _ => id), hhelped⟩

/-- A program connects and is silent until the `checker` of its connection has ended. -/
def silent : List Action :=
  ((oneConnectionParts (loopback 4242)).take 3).flatten ++
    List.replicate 4 (.receiverThread (.checker 0))

/-- Then its first `DATA` comes in, which sets `inactive_time` back although nobody counts any
more. -/
def lateData : List Action := silent ++ transferred (loopback 4242) dataEmptyDatagram 3

/-- After the silence the receiver program can come to its end, with sections that help it.
After the `DATA` it cannot with any. -/
theorem canEnd_until_late_data :
    (∃ w, run step (initial 1 (fun _ => 1) fun _ => [7]) silent = .ok w ∧
      CanReach step Helps (fun t => t.receiverMain.position = .ended) w) ∧
    ∃ w, run step (initial 1 (fun _ => 1) fun _ => [7]) lateData = .ok w ∧
      ¬CanReach step (fun _ => True) (fun t => t.receiverMain.position = .ended) w := by
  have hmax : (1 : ℤ) < 2 ^ 31 := by decide
  have hstdin : ∀ _ : SockaddrIn, ([7] : List Byte).length < 2 ^ 31 - 1 := fun _ => by decide
  have hbefore : endsWith (run step (initial 1 (fun _ => 1) fun _ => [7]) silent)
      (fun w => decide ¬w.Hangs) = true := by
    decide +kernel
  have hafter : endsWith (run step (initial 1 (fun _ => 1) fun _ => [7]) lateData)
      (fun w => decide w.Hangs) = true := by
    decide +kernel
  obtain ⟨w, hw, hservable⟩ := exists_of_endsWith hbefore
  obtain ⟨w', hw', hhangs⟩ := exists_of_endsWith hafter
  refine ⟨⟨w, hw, ?_⟩, w', hw', ?_⟩
  · exact (canEnd_iff_of_run hmax (fun _ => 1) hstdin hw).2.mpr (of_decide_eq_true hservable)
  · rw [(canEnd_iff_of_run hmax (fun _ => 1) hstdin hw').1, not_not]
    exact of_decide_eq_true hhangs

end Programs

end NetworkLabs.Mrt
