import NetworkLabs.Mrt.Flow
import NetworkLabs.Mrt.Network
import NetworkLabs.Mrt.Window

/-!
# The order of transmission

`last_sent_index` is relative to the buffer that the `ADAT` case shifts, and nothing
shifts it along. Fragments are transmitted in the order of Go-Back-N as long as an
`ADAT` that acknowledges new fragments is handled only while the index is -1, so after
a reset and before the next payload is sent.
-/

namespace NetworkLabs.Mrt.Sender

open Foundations

/-- The absolute number of the next fragment that `sender` transmits. -/
def Connection.nextToSend (c : Connection) : ℤ := c.lastAcknowledgedFrag + c.lastSentIndex + 2

/-- The `DATA` that `sender` builds for it, with the window size field that the buffer happens
to hold. -/
def Connection.nextDatagram (c : Connection) : Datagram :=
  dataDatagram (wrapInt c.nextToSend) (c.outgoingBuffer.read 16 4)
    (c.payload c.nextPayloadIndex.toNat)

/-- A step of a connection transmits in order, and so does what `sender` does next. -/
structure TransmitsInOrder (s s' : State) : Prop where
  /-- An `ADAT` moves the next number to the one behind it, and never back. -/
  next_after_adat : ∀ frag window, s.handlerThread = .adatAck frag window →
    s'.handlerThread ≠ .adatAck frag window →
    s'.conn.nextToSend =
      if s.conn.lastAcknowledgedFrag ≤ frag then max s.conn.nextToSend (frag + 1)
      else s.conn.nextToSend
  /-- The index is at least -1. -/
  index_lo : -1 ≤ s'.conn.lastSentIndex
  /-- The index is that of a payload in the buffer, without the payloads that a pending
  shift removes. -/
  index_hi : s'.conn.lastSentIndex ≤ s'.conn.lastPayloadIndex - s'.handlerThread.pendingShift
  /-- A payload is sent only when all unacknowledged ones before it were sent. -/
  never_skips : ∀ i resendTime s'', s'.senderThreads[i]? = some ⟨.select, resendTime⟩ →
    step s' (.sender i) = .ok s'' → s''.outbox ≠ s'.outbox →
    s''.outbox = s'.outbox ++ [s'.conn.nextDatagram] ∧
      ∀ m, s'.conn.lastAcknowledgedFrag < m → m < s'.conn.nextToSend → m ∈ s'.sentSinceReset
  /-- When the window allows it and some payload was not sent, one is sent next. -/
  sends_next : ∀ i resendTime m, s'.senderThreads[i]? = some ⟨.select, resendTime⟩ →
    s'.live = true → s'.receiverLockHeld = false →
    maxMrtPayloadLength ≤ s'.conn.receiverWindowSize → s'.conn.lastAcknowledgedFrag < m →
    m ≤ s'.conn.lastAcknowledgedFrag + s'.conn.lastPayloadIndex + 1 → m ∉ s'.sentSinceReset →
    (∃ s'', step s' (.sender i) = .ok s'' ∧ s''.outbox = s'.outbox ++ [s'.conn.nextDatagram]) ∧
      s'.conn.nextToSend ≤ m ∧ s'.conn.nextToSend ∉ s'.sentSinceReset

/-- An `ADAT` is outdated, or repeats the latest number, or acknowledges buffered payloads
while none is marked as sent; and its difference does not overflow. -/
def Connection.OrderKept (c : Connection) (frag : ℤ) : Prop :=
  if c.lastAcknowledgedFrag ≤ frag then
    (0 ≤ c.fragDifference frag ∧ c.fragDifference frag ≤ c.lastPayloadIndex + 1) ∧
      (frag = c.lastAcknowledgedFrag ∨ c.lastSentIndex = -1)
  else c.fragDifference frag < 0

instance (c : Connection) (frag : ℤ) : Decidable (c.OrderKept frag) :=
  inferInstanceAs (Decidable (if c.lastAcknowledgedFrag ≤ frag then
    (0 ≤ c.fragDifference frag ∧ c.fragDifference frag ≤ c.lastPayloadIndex + 1) ∧
      (frag = c.lastAcknowledgedFrag ∨ c.lastSentIndex = -1)
  else c.fragDifference frag < 0))

/-- The section of `handler` is not one that misaligns the index. -/
def KeepsOrder (s : State) : HandlerThread → Prop
  | .adatAck frag _ => s.conn.OrderKept frag
  | _ => True

instance (s : State) (thread : HandlerThread) : Decidable (KeepsOrder s thread) :=
  match thread with
  | .adatAck frag _ => inferInstanceAs (Decidable (s.conn.OrderKept frag))
  | .recvfrom | .closeCheck | .acon | .adatTimeout _ _ | .adatShift _ | .acls | .cleanUp
  | .ended => isTrue trivial

/-- The parts of a state that determine which fragment is sent next. -/
def State.orderParts (s : State) : ℤ × ℤ × ℤ × List ℤ :=
  (s.conn.lastSentIndex, s.conn.lastPayloadIndex - s.handlerThread.pendingShift,
    s.conn.lastAcknowledgedFrag, s.sentSinceReset)

/-- The invariant behind `TransmitsInOrder`, which ties the index to the numbers that were sent
since the last reset. -/
structure InOrder (s : State) : Prop where
  /-- The window is well formed. -/
  window : WindowHolds s
  /-- The index is at least -1. -/
  index_lo : -1 ≤ s.conn.lastSentIndex
  /-- The index is that of a payload that stays in the buffer. -/
  index_hi : s.conn.lastSentIndex ≤ s.conn.lastPayloadIndex - s.handlerThread.pendingShift
  /-- The fragments up to the index are those sent since the reset. -/
  sent : s.sentSinceReset =
    (List.range (s.conn.lastSentIndex + 1).toNat).map fun k : ℕ =>
      s.conn.lastAcknowledgedFrag + 1 + (k : ℤ)
  /-- The number is at least -1. -/
  acknowledged_lo : -1 ≤ s.conn.lastAcknowledgedFrag
  /-- Nothing is sent before the connection is established. -/
  unstarted : s.conn.lastAcknowledgedFrag = -1 →
    s.senderThreads = [] ∧ s.conn.lastSentIndex = -1

/-- What keeps the order acknowledges only what is buffered, so that the invariant of the window
is kept. -/
theorem acknowledgesBuffered_of_keepsOrder {s : State} {act : Action} (h : InOrder s)
    (hcondition : OnHandler KeepsOrder s act) : OnHandler AcknowledgesBuffered s act := by
  cases act with
  | handler =>
    cases hthread : s.handlerThread with
    | adatAck frag window =>
      have hindex := h.window.fits.index_lo
      simp only [OnHandler, hthread, KeepsOrder, AcknowledgesBuffered, Connection.OrderKept]
        at hcondition ⊢
      split at hcondition
      · exact hcondition.1.2
      · omega
    | _ =>
      rw [OnHandler, hthread]
      trivial
  | _ => trivial

/-- A step that leaves the numbers and the indices alone keeps the invariant. -/
theorem InOrder.of_eq {s s' : State} (h : InOrder s) (hwindow : WindowHolds s')
    (hsame : s'.orderParts = s.orderParts)
    (hthreads : s.senderThreads = [] → s'.senderThreads = []) : InOrder s' := by
  simp only [State.orderParts, Prod.mk.injEq] at hsame
  obtain ⟨hsentIndex, hindex, hack, hsent⟩ := hsame
  refine ⟨hwindow, ?_, ?_, ?_, ?_, ?_⟩
  · rw [hsentIndex]
    exact h.index_lo
  · rw [hsentIndex, hindex]
    exact h.index_hi
  · rw [hsent, hsentIndex, hack]
    exact h.sent
  · rw [hack]
    exact h.acknowledged_lo
  · rw [hack, hsentIndex]
    intro hfirst
    obtain ⟨hnone, hunsent⟩ := h.unstarted hfirst
    exact ⟨hthreads hnone, hunsent⟩

/-- One more fragment is sent, with the number behind the last one. -/
theorem range_sent {lo first : ℤ} (hlo : -1 ≤ lo) :
    ((List.range (lo + 1).toNat).map fun k : ℕ => first + (k : ℤ)) ++ [first + (lo + 1)] =
      (List.range (lo + 1 + 1).toNat).map fun k : ℕ => first + (k : ℤ) := by
  have hcount : (lo + 1 + 1).toNat = (lo + 1).toNat + 1 := by omega
  have hlast : ((lo + 1).toNat : ℤ) = lo + 1 := Int.toNat_of_nonneg (by omega)
  rw [hcount, List.range_succ, List.map_append, List.map_singleton, hlast]

/-- A step that handles only `ADAT`s that keep the order keeps the invariant. -/
theorem inOrder_step {s s' : State} {act : Action} (h : InOrder s)
    (hcondition : OnHandler KeepsOrder s act) (hstep : step s act = .ok s') : InOrder s' := by
  have hwindow := windowHolds_step h.window (acknowledgesBuffered_of_keepsOrder h hcondition) hstep
  have hlo := h.index_lo
  have hhi := h.index_hi
  cases effect_of_step hstep with
  | idle => exact h
  | polled | requested | submitted _ | found _ | estimated _ _ | foundAgain _ | succeeded _ _ _
  | unacknowledged _ _ _ | full _ | disconnecting | disconnectMoved _ | sentRcls
  | requestedClose | ticked _ | flagged _ =>
    exact h.of_eq hwindow rfl id
  | senderMoved _ _ | sentEmpty _ _ =>
    exact h.of_eq hwindow rfl fun hnone => by simp [hnone]
  | dispatched hthread hclose =>
    have hpending := (dispatch_spec s.conn.incomingBuffer).1
    refine h.of_eq hwindow ?_ id
    simp only [State.orderParts, hthread, hpending]
    rfl
  | received hthread | closing hthread _ | reconnected hthread _ | refreshed hthread
  | outdated hthread _ | closedByPeer hthread | freed hthread =>
    refine h.of_eq hwindow ?_ id
    simp only [State.orderParts, hthread, HandlerThread.pendingShift]
  | shifted hthread hbounds =>
    refine h.of_eq hwindow ?_ id
    simp only [State.orderParts, hthread, HandlerThread.pendingShift, Connection.shift,
      Int.sub_zero]
  | buffered hcall hspace hbounds =>
    refine ⟨hwindow, hlo, ?_, h.sent, h.acknowledged_lo, h.unstarted⟩
    simp only [Connection.bufferPayload]
    omega
  | connected hthread hfirst =>
    obtain ⟨hnone, hunsent⟩ := h.unstarted hfirst
    have hsent := h.sent
    have hzero : (-1 : ℤ) ≤ 0 := by decide
    refine ⟨hwindow, hlo, ?_, ?_, hzero, fun hfirst => by cases hfirst⟩
    · rw [hthread] at hhi
      exact hhi
    · simpa [hunsent] using hsent
  | @acknowledged frag window hthread hdifference =>
    simp only [OnHandler, hthread, KeepsOrder, Connection.OrderKept] at hcondition
    split at hcondition
    · rename_i hle
      obtain ⟨⟨-, hbuffered⟩, horder⟩ := hcondition
      have hpending := pendingShift_adat hdifference
      have hackLo := h.acknowledged_lo
      rcases horder with rfl | hunsent
      · have hzero : s.conn.fragDifference s.conn.lastAcknowledgedFrag = 0 := by
          rw [Connection.fragDifference, Int.sub_self]
          rfl
        refine ⟨hwindow, hlo, ?_, h.sent, hackLo, h.unstarted⟩
        dsimp only
        rw [hpending, hzero]
        rw [hthread] at hhi
        exact hhi
      · have hsent := h.sent
        refine ⟨hwindow, hlo, ?_, ?_, Int.le_trans hackLo hle, fun hfirst => ?_⟩
        · dsimp only
          rw [hpending]
          omega
        · simpa [hunsent] using hsent
        · exact h.unstarted (Int.le_antisymm (hfirst ▸ hle) hackLo)
    · omega
  | reset hth hnothing =>
    obtain ⟨-, hpending⟩ := h.window.pending
    refine ⟨hwindow, Int.le_refl _, ?_, rfl, h.acknowledged_lo, fun hfirst => ⟨?_, rfl⟩⟩
    · dsimp only [State.setSender]
      omega
    · simp [(h.unstarted hfirst).1]
  | sentPayload hth hlock hwait hbounds =>
    have hunlocked := pendingShift_of_unlocked hlock
    have hready : s.conn.nextPayloadIndex ≤ s.conn.lastPayloadIndex := by
      simp only [Connection.mustWait, Bool.or_eq_false_iff, decide_eq_false_iff_not,
        Int.not_lt] at hwait
      exact hwait.2
    refine ⟨hwindow, ?_, ?_, ?_, h.acknowledged_lo, fun hfirst => ?_⟩
    · dsimp only
      omega
    · rw [Connection.nextPayloadIndex] at hready
      dsimp only [State.sendTo, State.setSender]
      omega
    · have hnext : s.conn.lastAcknowledgedFrag + s.conn.nextPayloadIndex + 1 =
          s.conn.lastAcknowledgedFrag + 1 + (s.conn.lastSentIndex + 1) := by
        rw [Connection.nextPayloadIndex]
        omega
      dsimp only [State.sendTo, State.setSender]
      rw [h.sent, hnext]
      exact range_sent hlo
    · obtain ⟨th, hth⟩ := hth
      rw [(h.unstarted hfirst).1] at hth
      cases hth

/-- Nothing was sent when the connection is initialized. -/
theorem inOrder_initial : InOrder initial :=
  ⟨windowHolds_initial, Int.le_refl _, Int.le_refl _, rfl, Int.le_refl _, fun _ => ⟨rfl, rfl⟩⟩

/-- The section of the `MRT_ADAT` case that updates the number moves the next one along. -/
theorem handleAdatAck_order (s : State) (frag window : ℤ) :
    (handleAdatAck s frag window).conn.nextToSend =
        (if 0 ≤ s.conn.fragDifference frag then frag + s.conn.lastSentIndex + 2
          else s.conn.nextToSend) ∧
      (handleAdatAck s frag window).conn.lastSentIndex = s.conn.lastSentIndex ∧
      (handleAdatAck s frag window).conn.lastPayloadIndex = s.conn.lastPayloadIndex ∧
      (handleAdatAck s frag window).handlerThread.pendingShift =
        if 0 ≤ s.conn.fragDifference frag then s.conn.fragDifference frag else 0 := by
  unfold handleAdatAck
  by_cases hdifference : 0 ≤ s.conn.fragDifference frag
  · simp only [hdifference, if_true, Connection.nextToSend, true_and]
    split <;> simp only [HandlerThread.pendingShift]
    omega
  · simp only [hdifference, if_false, Connection.nextToSend, HandlerThread.pendingShift, and_self]

/-- An `ADAT` keeps the order exactly when it moves the next number as it should and
leaves the index inside the buffer. -/
theorem orderKept_iff {s : State} (h : InOrder s) {frag window : ℤ}
    (hthread : s.handlerThread = .adatAck frag window) : s.conn.OrderKept frag ↔
      (handleAdatAck s frag window).conn.nextToSend =
          (if s.conn.lastAcknowledgedFrag ≤ frag then max s.conn.nextToSend (frag + 1)
            else s.conn.nextToSend) ∧
        (handleAdatAck s frag window).conn.lastSentIndex ≤
          (handleAdatAck s frag window).conn.lastPayloadIndex -
            (handleAdatAck s frag window).handlerThread.pendingShift := by
  obtain ⟨hnext, hsentIndex, hindex, hpending⟩ := handleAdatAck_order s frag window
  obtain ⟨hackLo, hackHi⟩ := h.window.acknowledged_int
  have hfrag := h.window.frag_int
  rw [hthread] at hfrag
  obtain ⟨hfragLo, hfragHi⟩ := hfrag
  have hlo := h.index_lo
  have hhi := h.index_hi
  have hfits := h.window.fits.index_hi
  have hdifference : s.conn.fragDifference frag =
      (frag - s.conn.lastAcknowledgedFrag + 2 ^ 31) % 2 ^ 32 - 2 ^ 31 := wrapInt_eq _
  rw [hthread] at hhi
  simp only [HandlerThread.pendingShift, maxPayloadsBufferable] at hhi hfits
  rw [hnext, hsentIndex, hindex, hpending, Connection.OrderKept, Connection.nextToSend]
  split <;> split <;> omega

/-- The order is kept in the step that handles an `ADAT`. -/
theorem next_after_adat_step {s s' : State} {act : Action} (h : InOrder s)
    (hcondition : OnHandler KeepsOrder s act) (hstep : step s act = .ok s') {frag window : ℤ}
    (hthread : s.handlerThread = .adatAck frag window)
    (hleft : s'.handlerThread ≠ .adatAck frag window) :
    s'.conn.nextToSend =
      if s.conn.lastAcknowledgedFrag ≤ frag then max s.conn.nextToSend (frag + 1)
      else s.conn.nextToSend := by
  cases act with
  | handler =>
    simp only [OnHandler, hthread, KeepsOrder] at hcondition
    cases hstep.symm.trans (handler_of_adatAck hthread)
    exact ((orderKept_iff h hthread).mp hcondition).1
  | handlerRecvfrom dg =>
    cases effect_of_step hstep with
    | idle => exact absurd hthread hleft
    | received hidle => cases hidle.symm.trans hthread
  | _ => cases effect_of_step hstep <;> exact absurd hthread hleft

/-- A payload of the buffer is read and sent inside the arrays. -/
theorem Connection.FitsBuffer.sendInBounds {c : Connection} (h : c.FitsBuffer) {i : ℤ}
    (hlo : 0 ≤ i) (hhi : i ≤ c.lastPayloadIndex) : c.SendInBounds i := by
  have hindex := h.index_hi
  obtain ⟨hsizeLo, hsizeHi⟩ := h.slots i.toNat (by omega)
  simp only [Connection.SendInBounds, Memory.InBounds, maxMrtPayloadLength, maxUdpPayloadLength,
    mrtHeaderLength, mrtHashLength, mrtTypeLength, mrtFragmentLength, mrtWindowsizeLength,
    mrtPayloadLocation, maxPayloadsBufferable] at hindex hsizeHi ⊢
  omega

/-- The payload that is sent is the next one. -/
theorem senderSendPayload_outbox {s s' : State} {i : ℕ} (hsend : senderSendPayload s i = .ok s') :
    s'.outbox = s.outbox ++ [s.conn.nextDatagram] := by
  have hnumber : s.conn.sendingFrag s.conn.nextPayloadIndex = wrapInt s.conn.nextToSend := by
    rw [Connection.sendingFrag, Connection.nextPayloadIndex, Connection.nextToSend]
    congr 1
    omega
  obtain ⟨-, rfl⟩ := of_senderSendPayload hsend
  simp only [State.sendTo_outbox, State.setSender_outbox]
  rw [read_buildData, hnumber]
  rfl

/-- A `sender` thread that need not wait sends the next payload. -/
theorem sends_nextDatagram {s : State} (h : InOrder s) {i : ℕ} {resendTime : ℤ}
    (hth : s.senderThreads[i]? = some ⟨.select, resendTime⟩) (hlive : s.live = true)
    (hlock : s.receiverLockHeld = false) (hwait : s.conn.mustWait = false) :
    ∃ s'', step s (.sender i) = .ok s'' ∧ s''.outbox = s.outbox ++ [s.conn.nextDatagram] := by
  have hlo := h.index_lo
  have hready : s.conn.nextPayloadIndex ≤ s.conn.lastPayloadIndex := by
    simp only [Connection.mustWait, Bool.or_eq_false_iff, decide_eq_false_iff_not,
      Int.not_lt] at hwait
    exact hwait.2
  have hfirst : 0 ≤ s.conn.nextPayloadIndex := by
    rw [Connection.nextPayloadIndex]
    omega
  have hbounds := h.window.fits.sendInBounds hfirst hready
  obtain ⟨s'', hsend⟩ : ∃ s'', senderSendPayload s i = .ok s'' := by
    unfold senderSendPayload
    exact ⟨_, if_pos hbounds⟩
  rw [sender_of_select hth, State.lockReceiver, State.useConnection, hlive, hlock, hwait]
  exact ⟨s'', hsend, senderSendPayload_outbox hsend⟩

/-- The numbers up to the index are those sent since the reset. -/
theorem InOrder.mem_sentSinceReset {s : State} (h : InOrder s) {m : ℤ}
    (hm : s.conn.lastAcknowledgedFrag < m) :
    m ∈ s.sentSinceReset ↔ m < s.conn.nextToSend := by
  rw [h.sent, List.mem_map, Connection.nextToSend]
  constructor
  · rintro ⟨k, hk, rfl⟩
    have hlt := List.mem_range.mp hk
    omega
  · intro hlt
    exact ⟨(m - s.conn.lastAcknowledgedFrag - 1).toNat, List.mem_range.mpr (by omega), by omega⟩

/-- Under the invariant `sender` goes on in order, with the fragment that its index
stands for. -/
theorem InOrder.transmitsInOrder {s s' : State} (h : InOrder s')
    (hnext : ∀ frag window, s.handlerThread = .adatAck frag window →
      s'.handlerThread ≠ .adatAck frag window →
      s'.conn.nextToSend =
        if s.conn.lastAcknowledgedFrag ≤ frag then max s.conn.nextToSend (frag + 1)
        else s.conn.nextToSend) : TransmitsInOrder s s' := by
  refine ⟨hnext, h.index_lo, h.index_hi, fun i resendTime s'' hth hstep hsent => ?_,
    fun i resendTime m hth hlive hlock hwindow hm hbuffered hunsent => ?_⟩
  · refine ⟨?_, fun m hm hlt => (h.mem_sentSinceReset hm).mpr hlt⟩
    have hselect := (sender_of_select hth).symm.trans hstep
    obtain ⟨hlive, rfl | ⟨hlock, hselect⟩⟩ := of_lockReceiver hselect
    · exact absurd rfl hsent
    · cases hwait : s'.conn.mustWait with
      | true =>
        rw [hwait, if_pos rfl] at hselect
        cases hselect
        have hi : i < s'.senderThreads.length := (List.getElem?_eq_some_iff.mp hth).1
        exact absurd (senderWait_spec s' hi resendTime).1 hsent
      | false =>
        obtain ⟨s₁, hs₁, houtbox⟩ := sends_nextDatagram h hth hlive hlock hwait
        cases hs₁.symm.trans hstep
        exact houtbox
  · have hle : s'.conn.nextToSend ≤ m :=
      Int.not_lt.mp fun hlt => hunsent ((h.mem_sentSinceReset hm).mpr hlt)
    have hlo := h.index_lo
    have hwait : s'.conn.mustWait = false := by
      rw [Connection.nextToSend] at hle
      refine Bool.or_eq_false_iff.mpr ⟨decide_eq_false (by omega), decide_eq_false ?_⟩
      rw [Connection.nextPayloadIndex]
      omega
    refine ⟨sends_nextDatagram h hth hlive hlock hwait, hle, fun hmem => ?_⟩
    have hself : s'.conn.lastAcknowledgedFrag < s'.conn.nextToSend := by
      rw [Connection.nextToSend]
      omega
    exact absurd ((h.mem_sentSinceReset hself).mp hmem) (Int.lt_irrefl _)

end NetworkLabs.Mrt.Sender

namespace NetworkLabs.Mrt.Network

open Foundations Sender

/-- Every sender transmits in the order of Go-Back-N in exactly the runs in which every
`ADAT` that is handled keeps the order. -/
theorem transmitsInOrder_iff (acts : List Action) :
    Always step (fun w w' => ∀ addr, TransmitsInOrder (w.senders addr) (w'.senders addr))
        initial acts ↔
      Meets step (OnSender (OnHandler KeepsOrder)) initial acts := by
  refine always_iff_meets (fun w => ∀ addr, InOrder (w.senders addr))
    (fun w act w' h hcondition hstep => ?_) (fun w act h hbroken => ?_) fun _ => inOrder_initial
  · have hnext := senders_step inOrder_initial
      (fun s act s' hs hact hsub => inOrder_step hs hact hsub) h hcondition hstep
    refine ⟨fun addr => (hnext addr).transmitsInOrder fun frag window hthread hleft => ?_, hnext⟩
    have hchange := senderChange_of_step hstep addr
    generalize w'.senders addr = s' at hchange hleft ⊢
    cases hchange with
    | kept => exact absurd hthread hleft
    | stepped hreturns hsub => exact next_after_adat_step (h addr) hcondition hsub hthread hleft
    | reopened hended => cases hended.symm.trans hthread
  · cases act with
    | sender addr act =>
      cases act with
      | handler =>
        cases hthread : (w.senders addr).handlerThread with
        | adatAck frag window =>
          simp only [OnSender, OnHandler, hthread, KeepsOrder] at hbroken
          let s' := handleAdatAck (w.senders addr) frag window
          have hsub : Sender.step (w.senders addr) .handler = .ok s' := handler_of_adatAck hthread
          have hstep : step w (.sender addr .handler) = .ok (w.setSender addr s') := by
            rw [step, if_pos (show w.Returns addr .handler from trivial), hsub]
            rfl
          refine ⟨w.setSender addr s', hstep, fun horder => hbroken ?_⟩
          have hself := horder addr
          rw [setSender_self] at hself
          have hleft : s'.handlerThread ≠ .adatAck frag window := by
            simp only [s', handleAdatAck]
            split
            · dsimp only
              split <;> exact HandlerThread.noConfusion
            · exact HandlerThread.noConfusion
          exact (orderKept_iff (h addr) hthread).mpr
            ⟨hself.next_after_adat frag window hthread hleft, hself.index_hi⟩
        | _ => exact absurd (by rw [OnSender, OnHandler, hthread]; trivial) hbroken
      | _ => exact absurd trivial hbroken
    | _ => exact absurd trivial hbroken

/-- After fragment 1 was sent and acknowledged the next one to be sent is fragment 3. -/
theorem transmitsInOrder_fails_for_sent_payload :
    ¬Always step (fun w w' => ∀ addr, TransmitsInOrder (w.senders addr) (w'.senders addr)) initial
      sentAndAcknowledged := by
  have hrun : someStep step (fun w w' => decide
      ((w.senders (loopback 4242)).handlerThread = .adatAck 1 2439 ∧
        (w'.senders (loopback 4242)).handlerThread ≠ .adatAck 1 2439 ∧
        (w'.senders (loopback 4242)).conn.nextToSend ≠
          if (w.senders (loopback 4242)).conn.lastAcknowledgedFrag ≤ 1 then
            max (w.senders (loopback 4242)).conn.nextToSend (1 + 1)
          else (w.senders (loopback 4242)).conn.nextToSend)) initial sentAndAcknowledged = true := by
    decide +kernel
  refine not_always_of_someStep (fun w w' htest horder => ?_) hrun
  obtain ⟨hthread, hleft, hnext⟩ := of_decide_eq_true htest
  exact hnext ((horder (loopback 4242)).next_after_adat 1 2439 hthread hleft)

end NetworkLabs.Mrt.Network
