import NetworkLabs.Mrt.Fifo
import NetworkLabs.Mrt.InUse

/-!
# Delivery can always be completed

From every state of a connection in use its threads can complete the delivery on their own:
`handler` finishes what it handles, `sender` probes the receiver with the next `DATA` it
sends, the `ADAT` brings the two sides to the same number and opens the window, and the
oldest fragment is sent again when the timer runs out. So no order of sections, losses,
repetitions and delays leaves a connection stuck, in spite of the index that an `ADAT` does
not shift and of the window that it never lowers.
-/

namespace NetworkLabs.Mrt

open Foundations

namespace Sender

/-! ### The first `sender` thread -/

/-- What the next section of a `sender` thread does that has not ended, on a connection that
is not flagged and not locked. -/
inductive Advance (s : State) (j : ℕ) : SenderThread → State → Prop
  | checked (resendTime : ℤ) :
      Advance s j ⟨.closeCheck, resendTime⟩ (s.setSender j .select resendTime)
  | waited (resendTime : ℤ) (hwait : s.conn.mustWait = true) :
      Advance s j ⟨.select, resendTime⟩ (senderWait s j resendTime)
  | sent (resendTime : ℤ) {s' : State} (hwait : s.conn.mustWait = false)
      (hsend : senderSendPayload s j = .ok s') : Advance s j ⟨.select, resendTime⟩ s'
  | sentEmpty (resendTime : ℤ) :
      Advance s j ⟨.sendEmpty, resendTime⟩ ((s.setSender j .closeCheck resendTime).sendTo
        (buildDataEmpty s.conn.outgoingBuffer) 16)

/-- The first `sender` thread can run, and `handler` waits for a datagram. -/
structure Ready (s : State) : Prop where
  usable : Usable s
  unflagged : s.conn.shouldClose = false
  idle : s.handlerThread = .recvfrom
  running : ∃ th, s.senderThreads[0]? = some th ∧ th.position ≠ .ended

/-- The connection is not freed, as its flag would be set then. -/
theorem Ready.live {s : State} (h : Ready s) : s.live = true := by
  by_contra hfreed
  have hclose := h.usable.steady.flagged (.inl (Bool.eq_false_iff.mpr hfreed))
  rw [h.unflagged] at hclose
  cases hclose

/-- The connection is not locked, as `handler` holds `receiver_lock` in the middle of an `ADAT`
only. -/
theorem Ready.unlocked {s : State} (h : Ready s) : s.receiverLockHeld = false := by
  rw [State.receiverLockHeld, h.idle]

/-- A payload that need not wait is in the buffer. -/
theorem nextPayloadIndex_mem {s : State} (h : Steady s) (hwait : s.conn.mustWait = false) :
    0 ≤ s.conn.nextPayloadIndex ∧ s.conn.nextPayloadIndex ≤ s.conn.lastPayloadIndex := by
  have hlo := h.index_lo
  simp only [Connection.mustWait, Bool.or_eq_false_iff, decide_eq_false_iff_not,
    Int.not_lt] at hwait
  exact ⟨by rw [Connection.nextPayloadIndex]; omega, hwait.2⟩

/-- The thread advances: its next section is neither blocked by a lock nor undefined, and it
takes the thread to the next place of its loop. -/
theorem Ready.advance {s : State} (h : Ready s) {th : SenderThread}
    (hth : s.senderThreads[0]? = some th) :
    ∃ s', step s (.sender 0) = .ok s' ∧ Advance s 0 th s' := by
  obtain ⟨position, resendTime⟩ := th
  have hlive := h.live
  have hlock := h.unlocked
  rw [step, sender, hth]
  cases position with
  | closeCheck =>
    refine ⟨_, if_pos hlive, ?_⟩
    rw [h.unflagged]
    exact .checked resendTime
  | select =>
    dsimp only
    rw [State.lockReceiver, State.useConnection, if_pos hlive, hlock]
    cases hwait : s.conn.mustWait with
    | true => exact ⟨_, rfl, .waited resendTime hwait⟩
    | false =>
      obtain ⟨hlo, hhi⟩ := nextPayloadIndex_mem h.usable.steady hwait
      have hbounds := h.usable.steady.fits.sendInBounds hlo hhi
      obtain ⟨s', hsend⟩ : ∃ s', senderSendPayload s 0 = .ok s' := by
        unfold senderSendPayload
        exact ⟨_, if_pos hbounds⟩
      exact ⟨s', hsend, .sent resendTime hwait hsend⟩
  | sendEmpty => exact ⟨_, if_pos hlive, .sentEmpty resendTime⟩
  | ended =>
    obtain ⟨th', hth', hrunning⟩ := h.running
    cases hth.symm.trans hth'
    exact absurd rfl hrunning

/-- The thread and the rest of the connection stay ready. -/
theorem Ready.step {s s' : State} (h : Ready s) (hstep : Sender.step s (.sender 0) = .ok s') :
    Ready s' := by
  obtain ⟨-, -, hthread, -, -, -, hclose⟩ := (turn_of_step hstep).kept
  have husable := usable_step h.usable hstep
  obtain ⟨th, hth, -⟩ := h.running
  obtain ⟨t, ht, hadvance⟩ := h.advance hth
  cases ht.symm.trans hstep
  have hlength : s'.senderThreads.length = s.senderThreads.length := by
    cases effect_of_step hstep <;> first | rfl | exact List.length_set
  have hfirst : 0 < s'.senderThreads.length := by
    rw [hlength]
    exact (List.getElem?_eq_some_iff.mp hth).1
  refine ⟨husable, hclose.trans h.unflagged, hthread.trans h.idle,
    s'.senderThreads[0], List.getElem?_eq_getElem hfirst, fun hended => ?_⟩
  have hflag := husable.thread_ended 0 s'.senderThreads[0].resendTime (by
    rw [List.getElem?_eq_getElem hfirst, ← hended])
  rw [hclose, h.unflagged] at hflag
  cases hflag

/-- A datagram is `DATA` to every receiver, whatever its incoming buffer holds. -/
def IsData (dg : Datagram) : Prop := ∀ r, Receiver.dispatchedType r dg = some mrtData

/-- The datagram that `sender` sends next is `DATA`, whichever payload it carries. -/
theorem isData_nextDatagram {s : State} (h : Steady s) (hwait : s.conn.mustWait = false) :
    IsData s.conn.nextDatagram := by
  intro r
  obtain ⟨hlo, hhi⟩ := nextPayloadIndex_mem h hwait
  exact dispatchedType_data r _ (Memory.length_read _ _ _) (length_payload_le h.fits (by omega))

/-- The sections of the thread before it sends, a payload or an empty `DATA`. -/
def SenderPosition.untilSent : SenderPosition → ℕ
  | .closeCheck => 2
  | .select => 1
  | .sendEmpty | .ended => 0

/-- The position of a thread, which counts as ended when there is no such thread. -/
def State.position (s : State) (i : ℕ) : SenderPosition :=
  (s.senderThreads[i]?).elim .ended SenderThread.position

/-- The position of a thread that was changed. -/
theorem position_setSender {s : State} {j : ℕ} {th : SenderThread}
    (hth : s.senderThreads[j]? = some th) (position : SenderPosition) (resendTime : ℤ) :
    (s.setSender j position resendTime).position j = position := by
  have hj : j < s.senderThreads.length := (List.getElem?_eq_some_iff.mp hth).1
  rw [State.position, State.setSender_senderThreads, List.getElem?_set_self hj]
  rfl

/-- The position of a thread that waits. -/
theorem position_senderWait {s : State} {j : ℕ} {th : SenderThread}
    (hth : s.senderThreads[j]? = some th) (resendTime : ℤ) :
    (senderWait s j resendTime).position j = .sendEmpty := by
  obtain ⟨-, time, hwaits⟩ :=
    senderWait_spec s (List.getElem?_eq_some_iff.mp hth).1 resendTime
  rw [State.position, hwaits]
  rfl

/-- The thread can send a `DATA`, with a payload or without. -/
theorem Ready.canSend {s : State} (h : Ready s) :
    CanReach Sender.step (· = .sender 0) (fun s' => Ready s' ∧ ∃ dg ∈ s'.outbox, IsData dg) s := by
  refine canReach_of_measure Ready (fun s => (s.position 0).untilSent) (fun s hs => ?_) h
  obtain ⟨th, hth, -⟩ := hs.running
  obtain ⟨s', hstep, hadvance⟩ := hs.advance hth
  have hready := hs.step hstep
  refine canReach_step rfl hstep (canReach_now ?_)
  cases hadvance with
  | checked resendTime =>
    refine Or.inr ⟨hready, ?_⟩
    rw [position_setSender hth, State.position, hth]
    exact Nat.lt_succ_self 1
  | waited resendTime hwait =>
    refine Or.inr ⟨hready, ?_⟩
    rw [position_senderWait hth, State.position, hth]
    exact Nat.zero_lt_one
  | sent resendTime hwait hsend =>
    refine Or.inl ⟨hready, s.conn.nextDatagram, ?_, isData_nextDatagram hs.usable.steady hwait⟩
    rw [senderSendPayload_outbox hsend]
    exact List.mem_append_right _ (List.mem_singleton_self _)
  | sentEmpty resendTime =>
    refine Or.inl ⟨hready, dataEmptyDatagram, ?_, fun r => dispatchedType_dataEmpty r⟩
    rw [State.sendTo_outbox, read_buildDataEmpty]
    exact List.mem_append_right _ (List.mem_singleton_self _)

/-- The sections of the thread before it decides what to send. -/
def SenderPosition.untilSelect : SenderPosition → ℕ
  | .sendEmpty => 2
  | .closeCheck => 1
  | .select | .ended => 0

/-- The thread has a fragment behind number `n` to send again. -/
structure Resends (n : ℤ) (s : State) : Prop where
  ready : Ready s
  retransmits : Retransmits s
  acknowledged : s.conn.lastAcknowledgedFrag = n

/-- A section of the thread leaves the fragment where it is. -/
theorem Resends.step {n : ℤ} {s s' : State} (h : Resends n s)
    (hstep : Sender.step s (.sender 0) = .ok s') : Resends n s' := by
  obtain ⟨-, -, -, hpayloads, -, hwindow, -⟩ := (turn_of_step hstep).kept
  have hready := h.ready.step hstep
  have hack : s'.conn.lastAcknowledgedFrag = s.conn.lastAcknowledgedFrag := by
    cases effect_of_step hstep <;> rfl
  exact ⟨hready, ⟨hready.usable.steady, hpayloads ▸ h.retransmits.payload,
    hwindow ▸ h.retransmits.window⟩, hack.trans h.acknowledged⟩

/-- The datagram that `sender` sends after a reset carries the oldest fragment. -/
theorem nextDatagram_of_reset {s : State} (h : Steady s) (hwait : s.conn.mustWait = false)
    (hreset : s.conn.lastSentIndex = -1) : ∃ stale payload, stale.length = 4 ∧
      payload.length ≤ 488 ∧ s.conn.nextDatagram =
        dataDatagram (wrapInt (s.conn.lastAcknowledgedFrag + 1)) stale payload := by
  obtain ⟨hlo, hhi⟩ := nextPayloadIndex_mem h hwait
  have holdest : s.conn.nextToSend = s.conn.lastAcknowledgedFrag + 1 := by
    rw [Connection.nextToSend, hreset]
    omega
  refine ⟨s.conn.outgoingBuffer.read 16 4, s.conn.payload s.conn.nextPayloadIndex.toNat,
    Memory.length_read _ _ _, length_payload_le h.fits (by omega), ?_⟩
  rw [Connection.nextDatagram, holdest]

/-- The thread can send the oldest fragment: either the index or the timer advances. -/
theorem Resends.canResend {n : ℤ} {s : State} (h : Resends n s) :
    CanReach Sender.step (· = .sender 0) (fun s' => ∃ stale payload, stale.length = 4 ∧
      payload.length ≤ 488 ∧ dataDatagram (wrapInt (n + 1)) stale payload ∈ s'.outbox) s := by
  refine canReach_of_measure (Resends n)
    (fun s => 3 * rank 0 s + (s.position 0).untilSelect) (fun s hs => ?_) h
  obtain ⟨th, hth, -⟩ := hs.ready.running
  obtain ⟨s', hstep, hadvance⟩ := hs.ready.advance hth
  have hnext := hs.step hstep
  refine canReach_step rfl hstep (canReach_now ?_)
  have hkept : ∀ {resendTime : ℤ} {position : SenderPosition},
      s.senderThreads[0]? = some ⟨position, resendTime⟩ →
      s'.conn.lastSentIndex = s.conn.lastSentIndex →
      s'.timer 0 = resendTime → rank 0 s' = rank 0 s := fun hposition hindex htimer =>
    rank_congr hindex (htimer.trans (timer_eq hposition).symm)
  cases hadvance with
  | checked resendTime =>
    have htimer := timer_setSender hth .select resendTime 0
    have hrank := hkept hth rfl htimer
    refine Or.inr ⟨hnext, ?_⟩
    rw [position_setSender hth, State.position, hth, hrank]
    exact Nat.lt_succ_self _
  | waited resendTime hwait =>
    have hrank := rank_waits hs.retransmits (waits_senderWait hth hwait) 0
    rw [if_pos rfl] at hrank
    refine Or.inr ⟨hnext, ?_⟩
    rw [position_senderWait hth, SenderPosition.untilSelect]
    omega
  | sent resendTime hwait hsend =>
    obtain ⟨hindex, htimer, houtbox⟩ := senderSendPayload_spec hth hsend
    by_cases hreset : s.conn.lastSentIndex = -1
    · obtain ⟨stale, payload, hstale, hpayload, holdest⟩ :=
        nextDatagram_of_reset hs.ready.usable.steady hwait hreset
      rw [hs.acknowledged] at holdest
      refine Or.inl ⟨stale, payload, hstale, hpayload, ?_⟩
      rw [houtbox, holdest]
      exact List.mem_append_right _ (List.mem_singleton_self _)
    · have hrank := rank_sent hs.ready.usable.steady hnext.ready.usable.steady hreset hindex
        htimer 0
      rw [if_pos rfl] at hrank
      have huntil : (s'.position 0).untilSelect ≤ 2 := by
        cases s'.position 0 <;> decide
      exact Or.inr ⟨hnext, by omega⟩
  | sentEmpty resendTime =>
    have htimer := timer_setSender hth .closeCheck resendTime 0
    have hrank := hkept hth rfl htimer
    have hposition := position_setSender hth .closeCheck resendTime
    refine Or.inr ⟨hnext, ?_⟩
    rw [hrank, State.position, State.sendTo_senderThreads, ← State.position, hposition,
      State.position, hth]
    exact Nat.lt_succ_self _

/-! ### `handler` -/

/-- The sections of `handler` before it waits for a datagram. -/
def HandlerThread.untilRecvfrom : HandlerThread → ℕ
  | .closeCheck => 4
  | .adatTimeout _ _ => 3
  | .adatAck _ _ => 2
  | .adatShift _ | .acon | .acls => 1
  | .recvfrom | .cleanUp | .ended => 0

/-- The sections after the dispatch are fewer than before, whatever was received. -/
theorem untilRecvfrom_dispatch (incoming : Memory Byte) :
    (dispatch incoming).untilRecvfrom < HandlerThread.closeCheck.untilRecvfrom := by
  unfold dispatch
  split
  · split
    · decide
    · split
      · exact Nat.lt_succ_self 3
      · split <;> decide
  · decide

/-- `handler` goes on with what it handles, and comes nearer to `recvfrom`. Its copies are in
bounds by the invariant of the window. -/
theorem handler_advances {s : State} (hwindow : WindowHolds s) (hopen : s.conn.shouldClose = false)
    (hclean : s.handlerThread ≠ .cleanUp) (hended : s.handlerThread ≠ .ended)
    (hbusy : s.handlerThread ≠ .recvfrom) : ∃ s', step s .handler = .ok s' ∧
      s'.handlerThread.untilRecvfrom < s.handlerThread.untilRecvfrom := by
  rw [step, handler]
  cases hthread : s.handlerThread with
  | recvfrom => exact absurd hthread hbusy
  | cleanUp => exact absurd hthread hclean
  | ended => exact absurd hthread hended
  | closeCheck =>
    refine ⟨_, rfl, ?_⟩
    dsimp only
    rw [hopen]
    exact untilRecvfrom_dispatch _
  | acon =>
    refine ⟨_, rfl, ?_⟩
    unfold handleAcon
    split <;> exact Nat.zero_lt_one
  | acls => exact ⟨_, rfl, Nat.zero_lt_one⟩
  | adatTimeout frag window => exact ⟨_, rfl, Nat.lt_succ_self 2⟩
  | adatAck frag window =>
    refine ⟨_, rfl, ?_⟩
    unfold handleAdatAck
    by_cases hdifference : 0 ≤ s.conn.fragDifference frag
    · rw [if_pos hdifference]
      dsimp only
      split
      · exact Nat.lt_succ_self 1
      · exact Nat.zero_lt_two
    · rw [if_neg hdifference]
      exact Nat.zero_lt_two
  | adatShift d =>
    have hbounds := hwindow.wellFormed.shift_in_bounds d hthread
    exact ⟨_, if_pos hbounds, Nat.zero_lt_one⟩

/-- `handler` dispatches on a datagram that it has received, when the connection is
not flagged. -/
theorem handler_dispatches {s : State} (hidle : s.handlerThread = .recvfrom)
    (hopen : s.conn.shouldClose = false) (dg : Datagram) :
    ∃ s', step (handlerRecvfrom s dg) .handler = .ok s' ∧ s'.handlerThread =
      dispatch (receiveInto s.conn.incomingBuffer (dg.take mrtHeaderLength)) := by
  rw [handlerRecvfrom, hidle]
  refine ⟨_, rfl, ?_⟩
  simp [hopen]

/-- `handler` resets the counter for an `ADAT`. -/
theorem handler_refreshes {s : State} {frag window : ℤ}
    (hthread : s.handlerThread = .adatTimeout frag window) :
    ∃ s', step s .handler = .ok s' ∧ s'.handlerThread = .adatAck frag window := by
  rw [step, handler, hthread]
  exact ⟨_, rfl, rfl⟩

/-- `handler` takes the number of an `ADAT` that is not outdated, and its window. -/
theorem handleAdatAck_takes {s : State} {frag : ℤ} (window : ℤ)
    (hdifference : 0 ≤ s.conn.fragDifference frag) :
    (handleAdatAck s frag window).conn.lastAcknowledgedFrag = frag ∧
      window ≤ (handleAdatAck s frag window).conn.receiverWindowSize := by
  rw [handleAdatAck, if_pos hdifference]
  refine ⟨rfl, ?_⟩
  dsimp only
  split <;> omega

/-! ### The call of `mrt_send` -/

/-- A call in progress has bytes to send, and its fragments can be numbered. -/
def SendCall.CanSucceed (buffered : ℕ) : SendCall → Prop
  | .none | .returned _ => True
  | .firstLookup args | .lastBuffered args =>
    0 < args.len ∧ buffered + fragmentCount args.len < 2 ^ 31 - 1
  | .lookup args _ _ | .ackCheck args _ _ | .copy args _ _ => 0 < args.len

instance (buffered : ℕ) (call : SendCall) : Decidable (call.CanSucceed buffered) :=
  match call with
  | .none | .returned _ => isTrue trivial
  | .firstLookup args | .lastBuffered args =>
    inferInstanceAs (Decidable (0 < args.len ∧ buffered + fragmentCount args.len < 2 ^ 31 - 1))
  | .lookup args _ _ | .ackCheck args _ _ | .copy args _ _ =>
    inferInstanceAs (Decidable (0 < args.len))

/-- The sections of a call that always finds the buffer empty. -/
def SendCall.untilReturned : SendCall → ℕ
  | .none | .returned _ => 0
  | .firstLookup args => 3 * fragmentCount args.len + 4
  | .lastBuffered args => 3 * fragmentCount args.len + 3
  | .lookup args _ copied => 3 * fragmentCount (args.len - copied) + 2
  | .ackCheck args _ copied => 3 * fragmentCount (args.len - copied) + 1
  | .copy args _ copied => 3 * fragmentCount (args.len - copied)

/-- Everything that was buffered is acknowledged, and the connection can be used. -/
structure Cleared (s : State) : Prop where
  live : s.live = true
  registered : s.registered = true
  unlocked : s.receiverLockHeld = false
  empty : s.conn.lastPayloadIndex = -1
  acknowledged : s.conn.lastAcknowledgedFrag = s.bufferedFragments.length

/-- What a call has done when it goes on, and that it can still succeed. -/
structure GoesOn (s s' : State) : Prop where
  submitted : s'.submitted = s.submitted
  can_succeed : s'.sendCall.CanSucceed s'.bufferedFragments.length
  closer : s'.sendCall.untilReturned < s.sendCall.untilReturned
  succeeds : s'.sendCall = .returned 1 ∨ ¬s'.sendCall.Finished

/-- When its fragments are acknowledged a call goes on, and returns only when it has succeeded. -/
theorem Cleared.goesOn {s : State} (h : Cleared s) (hcopying : s.sendCall.HasBytesLeft)
    {delivered : ℕ} (hinformed : s.sendCall.Informed s.bufferedFragments.length delivered)
    (hcan : s.sendCall.CanSucceed s.bufferedFragments.length) (hruns : ¬s.sendCall.Finished) :
    ∃ s', step s .mrtSendContinue = .ok s' ∧ GoesOn s s' := by
  rw [step, mrtSendContinue]
  cases hcall : s.sendCall with
  | none =>
    rw [hcall] at hruns
    exact absurd trivial hruns
  | returned value =>
    rw [hcall] at hruns
    exact absurd trivial hruns
  | firstLookup args =>
    rw [hcall] at hcan
    refine ⟨_, rfl, ?_⟩
    rw [h.registered]
    exact ⟨rfl, hcan, hcall ▸ Nat.lt_succ_self _, Or.inr id⟩
  | lastBuffered args =>
    rw [hcall] at hcan
    dsimp only
    rw [State.lockReceiver, State.useConnection, if_pos h.live, h.unlocked]
    refine ⟨_, rfl, rfl, hcan.1, ?_, Or.inr id⟩
    have hnone : args.len - ((0 : ℕ) : ℤ) = args.len := Int.sub_zero _
    rw [hcall, SendCall.untilReturned, SendCall.untilReturned, hnone]
    exact Nat.lt_succ_self _
  | lookup args finalFrag copied =>
    rw [hcall] at hcan
    refine ⟨_, rfl, ?_⟩
    rw [h.registered]
    exact ⟨rfl, hcan, hcall ▸ Nat.lt_succ_self _, Or.inr id⟩
  | ackCheck args finalFrag copied =>
    rw [hcall] at hcan hinformed
    have hfinal := hinformed.1 hcan
    dsimp only
    rw [State.lockReceiver, State.useConnection, if_pos h.live, h.unlocked]
    refine ⟨_, rfl, ?_⟩
    rw [h.acknowledged]
    by_cases hdone : finalFrag ≤ s.bufferedFragments.length
    · rw [if_pos hdone]
      exact ⟨rfl, trivial, hcall ▸ Nat.succ_pos _, Or.inl rfl⟩
    · have hleft : copied < args.len := by
        by_contra hnone
        have hzero := fragmentCount_eq_zero_iff.mpr (show args.len - copied ≤ 0 by omega)
        omega
      rw [if_neg hdone, if_pos hleft]
      exact ⟨rfl, hcan, hcall ▸ Nat.lt_succ_self _, Or.inr id⟩
  | copy args finalFrag copied =>
    rw [hcall] at hcan hcopying
    obtain ⟨hpos, hmax, -⟩ := numBytesToCopy_mem hcopying
    have hcount := fragmentCount_copy hcopying
    dsimp only
    rw [State.useConnection, if_pos h.live, mrtSendCopy, h.empty]
    have hbounds : Memory.InBounds (maxMrtPayloadLength * maxPayloadsBufferable)
        ((-1 + 1) * maxMrtPayloadLength) (numBytesToCopy args.len copied) ∧
        Memory.InBounds maxPayloadsBufferable (-1 + 1) 1 := by
      simp only [Memory.InBounds, maxMrtPayloadLength, maxUdpPayloadLength, mrtHeaderLength,
        mrtHashLength, mrtTypeLength, mrtFragmentLength, mrtWindowsizeLength,
        maxPayloadsBufferable] at hmax ⊢
      omega
    rw [if_pos (by decide)]
    dsimp only
    rw [if_pos hbounds]
    refine ⟨_, rfl, rfl, hcan, ?_, Or.inr id⟩
    rw [hcall, SendCall.untilReturned, SendCall.untilReturned]
    omega

end Sender

namespace Receiver

/-! ### `main_handler` -/

variable {s s' : State} {addr : SockaddrIn} {dg : Datagram} {r : Sender}

/-- Data of a connected sender is buffered or not, and acknowledged. -/
theorem handled_of_data (hopen : OpenAndFit s) (htype : dispatchedType s dg = some mrtData)
    (hrecord : s.record addr = some r) (hstep : step s (.mainHandler addr dg) = .ok s') :
    if r.admits ((stored dg).length - mrtHeaderLength) (dispatchedFrag s dg) then
      s' = replyAdat ((s.store dg).appendPayload addr (dispatchedPayload s dg)) addr
        (r.append (dispatchedPayload s dg))
    else s' = replyAdat (s.store dg) addr r := by
  rw [step_of_data hopen.closed_eq hopen.shouldClose_eq htype] at hstep
  cases hadmits : r.admits ((stored dg).length - mrtHeaderLength) (dispatchedFrag s dg) with
  | true => exact handleData_of_admits hrecord hadmits hstep
  | false =>
    have hfound : (s.store dg).record addr = some r := hrecord
    rw [handleData, hfound] at hstep
    dsimp only at hstep
    rw [hadmits] at hstep
    exact (Except.ok.inj hstep).symm

/-- When nothing is unread the answer to `DATA` opens the window. -/
theorem answer_of_data (hopen : OpenAndFit s) (htype : dispatchedType s dg = some mrtData)
    (hrecord : s.record addr = some r) (hempty : r.bytesUnread = 0)
    (hstep : step s (.mainHandler addr dg) = .ok s') : ∃ r' window, s'.record addr = some r' ∧
      s'.sentTo addr = s.sentTo addr ++ [adatDatagram (r'.nextFrag - 1) window] ∧
      (maxMrtPayloadLength : ℤ) ≤ window ∧ window ≤ receiverMaxWindowSize := by
  have hhandled := handled_of_data hopen htype hrecord hstep
  split at hhandled
  · have hview := congrArg (State.view · addr) hhandled
    rw [view_appendPayload hrecord] at hview
    refine ⟨_, _, congrArg View.record hview, congrArg View.sent hview, ?_⟩
    have hlength := length_dispatchedPayload s dg
    have hstored : (stored dg).length ≤ maxUdpPayloadLength := List.length_take_le _ _
    simp only [Sender.currWindowSize, Sender.append, hempty, maxMrtPayloadLength,
      maxUdpPayloadLength, mrtHeaderLength, mrtHashLength, mrtTypeLength, mrtFragmentLength,
      mrtWindowsizeLength, receiverMaxWindowSize] at hlength hstored ⊢
    omega
  · have hview := congrArg (State.view · addr) hhandled
    rw [view_replyAdat (s := s.store dg) hrecord] at hview
    refine ⟨_, _, congrArg View.record hview, congrArg View.sent hview, ?_⟩
    rw [Sender.currWindowSize, hempty]
    decide

/-- Data with the expected number that fits the free space is buffered. -/
theorem buffered_of_data (hopen : OpenAndFit s) (htype : dispatchedType s dg = some mrtData)
    (hrecord : s.record addr = some r) (hfrag : dispatchedFrag s dg = r.nextFrag)
    (hempty : r.bytesUnread = 0) (hstep : step s (.mainHandler addr dg) = .ok s') :
    s'.bufferedPayloads addr = s.bufferedPayloads addr ++ [dispatchedPayload s dg] := by
  have hstored : (stored dg).length ≤ maxUdpPayloadLength := List.length_take_le _ _
  have hadmits : r.admits ((stored dg).length - mrtHeaderLength) (dispatchedFrag s dg) = true := by
    refine r.admits_iff.mpr ⟨?_, hfrag.symm⟩
    rw [hempty]
    simp only [maxMrtPayloadLength, maxUdpPayloadLength, mrtHeaderLength, mrtHashLength,
      mrtTypeLength, mrtFragmentLength, mrtWindowsizeLength, receiverMaxWindowSize] at hstored ⊢
    omega
  have hhandled := handled_of_data hopen htype hrecord hstep
  rw [if_pos hadmits] at hhandled
  have hview := congrArg (State.view · addr) hhandled
  rw [view_appendPayload hrecord] at hview
  exact congrArg View.bufferedPayloads hview

/-- A call of `mrt_receive1` for a full buffer leaves nothing unread. -/
theorem mrtReceive1_all (hopen : OpenAndFit s) (hrecord : s.record addr = some r) (hfits : r.Fits)
    (hunread : 0 < r.bytesUnread) : ∃ s' r',
      step s (.mrtReceive1 addr receiverMaxWindowSize) = .ok s' ∧ s'.record addr = some r' ∧
        r'.bytesUnread = 0 := by
  have hall : r.bytesRead receiverMaxWindowSize = r.bytesUnread :=
    if_neg (Int.not_lt.mpr hfits.2)
  have hbounds := hfits.copiesInBounds (Int.natCast_nonneg receiverMaxWindowSize)
  have hclosed : ¬s.closed = true := by simp [hopen.closed_eq]
  rw [step, if_neg hclosed, mrtReceive1, hrecord]
  dsimp only
  rw [if_neg (Int.not_le.mpr hunread), if_pos hbounds]
  refine ⟨_, r.consume (r.bytesRead receiverMaxWindowSize), rfl, ?_, ?_⟩
  · exact record_updateRecord_self (f := fun r => r.consume (r.bytesRead receiverMaxWindowSize))
      (fun r => consume_addr r _) hrecord
  · rw [hall, Sender.consume, if_neg (Int.lt_irrefl _)]

end Receiver

namespace Network

open Sender (IsData)

variable {w : World} {addr : SockaddrIn}

/-! ### Stages of a delivery -/

/-- Replacing a sender by itself changes nothing. -/
theorem setSender_eq_self (w : World) (addr : SockaddrIn) :
    w.setSender addr (w.senders addr) = w := by simp [World.setSender]

/-- Replacing a sender twice leaves the second one, so that sections of one sender can be
composed. -/
theorem setSender_setSender (w : World) (addr : SockaddrIn) (s s' : Sender.State) :
    (w.setSender addr s).setSender addr s' = w.setSender addr s' := by simp [World.setSender]

/-- A section of a sender that was replaced. -/
theorem step_setSender {s s' : Sender.State} {act : Sender.Action}
    (hreturns : (w.setSender addr s).Returns addr act) (hstep : Sender.step s act = .ok s') :
    step (w.setSender addr s) (.sender addr act) = .ok (w.setSender addr s') := by
  have hnext := step_sender hreturns (by rw [setSender_self]; exact hstep)
  rwa [setSender_setSender] at hnext

/-- What sections of a sender can reach alone, they can reach in the network. -/
theorem canReach_sender {allowed : Sender.Action → Prop} {goal : Sender.State → Prop}
    (hreturns : ∀ act, allowed act → ∀ s, (w.setSender addr s).Returns addr act)
    (h : CanReach Sender.step allowed goal (w.senders addr)) :
    CanReach step (fun act => ∃ a, allowed a ∧ act = .sender addr a)
      (fun t => ∃ s, goal s ∧ t = w.setSender addr s) w := by
  rw [← setSender_eq_self w addr]
  refine (h.embed (w.setSender addr) (Action.sender addr) (fun act hact => ⟨act, hact, rfl⟩)
    (fun s act s' hact hstep => ?_)).mono (fun _ => id) fun t ht => ?_
  · exact step_setSender (hreturns act hact s) hstep
  · rwa [setSender_eq_self]

/-- What the first `sender` thread can reach alone, it can reach in the network. -/
theorem canReach_firstSender {goal : Sender.State → Prop}
    (h : CanReach Sender.step (· = .sender 0) goal (w.senders addr)) :
    CanReach step (Carries addr) (fun t => ∃ s, goal s ∧ t = w.setSender addr s) w := by
  refine (canReach_sender (fun act hact s => ?_) h).mono (fun act hact => ?_) fun _ => id
  · subst hact
    trivial
  · obtain ⟨act, rfl, rfl⟩ := hact
    rfl

/-- The first `sender` thread of a connection in use is ready while `handler` is idle. -/
theorem InUse.ready (h : InUse w addr) (hidle : (w.senders addr).handlerThread = .recvfrom) :
    Sender.Ready (w.senders addr) :=
  ⟨h.holds.usable addr, h.unflagged, hidle, h.thread⟩

/-- `handler` can finish what it handles by its own sections, and wait for the next datagram.
Nothing happens at the receiver meanwhile. -/
theorem Open.settles (h : Open w addr) : CanReach step (· = .sender addr .handler)
    (fun t => Open t addr ∧ t.receiver = w.receiver ∧
      (t.senders addr).handlerThread = .recvfrom) w := by
  refine canReach_of_measure (fun t => Open t addr ∧ t.receiver = w.receiver)
    (fun t => (t.senders addr).handlerThread.untilRecvfrom) (fun t ht => ?_) ⟨h, rfl⟩
  obtain ⟨hopen, hreceiver⟩ := ht
  by_cases hidle : (t.senders addr).handlerThread = .recvfrom
  · exact canReach_now (Or.inl ⟨hopen, hreceiver, hidle⟩)
  · have husable := hopen.holds.usable addr
    obtain ⟨g, hg⟩ := hopen.holds.reliable.network.refines addr
    have hunflagged : ¬(t.senders addr).conn.shouldClose = true := by simp [hopen.unflagged]
    obtain ⟨s', hs', hless⟩ := Sender.handler_advances hg.sender.window hopen.unflagged
      (fun hclean => hunflagged (husable.steady.flagged (.inr hclean)))
      (fun hended => hunflagged (husable.handler_ended hended)) hidle
    have huse : ReliableUse t (.sender addr .handler) ∧
        OnSender (Sender.OnSend Sender.SendsConnected) t (.sender addr .handler) :=
      ⟨trivial, trivial⟩
    have hstep : step t (.sender addr .handler) = .ok (t.setSender addr s') :=
      step_sender trivial hs'
    refine canReach_step rfl hstep (canReach_now (Or.inr ⟨⟨?_, hreceiver⟩, ?_⟩))
    · exact hopen.kept huse.1 huse.2 (fun i hi => by cases hi) hstep
    · rwa [setSender_self]

/-- So it can while it carries data, as its own sections are among those that do. -/
theorem InUse.settles (h : InUse w addr) : CanReach step (Carries addr)
    (fun t => t.receiver = w.receiver ∧ (t.senders addr).handlerThread = .recvfrom) w :=
  h.toOpen.settles.mono (fun act hact => by subst hact; rfl) fun _ ht => ht.2

/-- Everything unread can be read, by one call of `mrt_receive1` that asks for a full buffer. -/
theorem InUse.drains (h : InUse w addr) : CanReach step (Carries addr)
    (fun t => t.senders = w.senders ∧ ∃ r, t.receiver.record addr = some r ∧ r.bytesUnread = 0)
    w := by
  obtain ⟨r, hrecord, hfits⟩ := h.record
  rcases Int.lt_or_eq_of_le hfits.1 with hunread | hempty
  · obtain ⟨s', r', hs', hrecord', hempty⟩ :=
      Receiver.mrtReceive1_all h.holds.reliable.isOpen hrecord hfits hunread
    have hcarries : Carries addr (.receiver (.mrtReceive1 addr receiverMaxWindowSize)) :=
      ⟨rfl, Int.natCast_nonneg _⟩
    exact canReach_step hcarries (step_receiver trivial hs')
      (canReach_now ⟨rfl, r', hrecord', hempty⟩)
  · exact canReach_now ⟨rfl, r, hrecord, hempty.symm⟩

/-- `main_handler` can handle every datagram in flight, as none of them is a short `DATA` with
the expected number. -/
theorem InUse.handles (h : InUse w addr) {dg : Datagram} (hdg : dg ∈ (w.senders addr).outbox) :
    ∃ r, Receiver.step w.receiver (.mainHandler addr dg) = .ok r ∧
      step w (.receiver (.mainHandler addr dg)) = .ok { w with receiver := r } := by
  have hdelivers : w.Delivers (.mainHandler addr dg) := hdg
  have huse : Receiver.OpenUse (.mainHandler addr dg) := trivial
  have hlong := noShortExpectedData_of_delivers h.holds.reliable.network hdelivers
  obtain ⟨r, hr⟩ := (Receiver.openAndFit_step_ok_iff h.holds.reliable.isOpen huse).mpr hlong
  exact ⟨r, hr, step_receiver hdelivers hr⟩

/-- The number of payloads that the receiver has buffered for an address. -/
def World.delivered (w : World) (addr : SockaddrIn) : ℕ := (w.receiver.bufferedPayloads addr).length

/-- The two sides of a connection have the same number, the window is open, and `handler`
waits. -/
structure World.Synchronized (w : World) (addr : SockaddrIn) : Prop where
  idle : (w.senders addr).handlerThread = .recvfrom
  acknowledged : (w.senders addr).conn.lastAcknowledgedFrag = w.delivered addr
  window : maxMrtPayloadLength ≤ (w.senders addr).conn.receiverWindowSize

/-- An `ADAT` for everything that is delivered, with an open window, is in flight. -/
def World.Answered (w : World) (addr : SockaddrIn) : Prop :=
  ∃ window : ℤ, adatDatagram (w.delivered addr) window ∈ w.inFlight addr ∧
    (maxMrtPayloadLength : ℤ) ≤ window ∧ window ≤ receiverMaxWindowSize

/-- When nothing is unread a `DATA` in flight can be answered. -/
theorem InUse.answers (h : InUse w addr) {dg : Datagram} (hdg : dg ∈ (w.senders addr).outbox)
    (hdata : IsData dg) {r : Receiver.Sender} (hrecord : w.receiver.record addr = some r)
    (hempty : r.bytesUnread = 0) : CanReach step (Carries addr)
      (fun t => t.senders = w.senders ∧ t.Answered addr) w := by
  obtain ⟨s, hs, hstep⟩ := h.handles hdg
  have hcarries : Carries addr (.receiver (.mainHandler addr dg)) := rfl
  refine canReach_step hcarries hstep (canReach_now ⟨rfl, ?_⟩)
  obtain ⟨r', window, hrecord', hsent, hlo, hhi⟩ :=
    Receiver.answer_of_data h.holds.reliable.isOpen (hdata w.receiver) hrecord hempty hs
  have hnext := (h.carries hcarries hstep).1
  obtain ⟨g, hg, -⟩ := hnext.refines
  have hnumber : r'.nextFrag - 1 = World.delivered { w with receiver := s } addr := by
    rw [hg.receiver.expected r' hrecord', Int.add_sub_cancel]
    rfl
  refine ⟨window, ?_, hlo, hhi⟩
  rw [World.inFlight, hnext.holds.first, List.drop_zero, ← hnumber, hsent]
  exact List.mem_append_right _ (List.mem_singleton_self _)

/-- No more is acknowledged than is delivered, and no more delivered than buffered. -/
theorem InUse.trails (h : InUse w addr) :
    (w.senders addr).conn.lastAcknowledgedFrag ≤ w.delivered addr ∧
      w.delivered addr ≤ (w.senders addr).bufferedFragments.length ∧
      (w.senders addr).bufferedFragments.length < 2 ^ 31 - 1 := by
  obtain ⟨g, hg, hconnected⟩ := h.refines
  have hsound := hg.reachable.sound
  have hack := hconnected.acknowledged
  have hacknowledged := hsound.acknowledged_delivered
  have hwritten := hsound.delivered_written.length_le
  have hnumbered := hg.sender.numbered
  rw [hg.receiver.delivered] at hacknowledged hwritten
  rw [hg.sender.fragments] at hwritten
  exact ⟨by rw [hack]; exact_mod_cast hacknowledged, hwritten, by omega⟩

/-- `handler` can take an answer in. It reads the `ADAT`, moves the buffer on and raises the
window, and then the two sides agree. -/
theorem InUse.acknowledges (h : InUse w addr)
    (hidle : (w.senders addr).handlerThread = .recvfrom) (hanswered : w.Answered addr) :
    CanReach step (Carries addr) (fun t => t.Synchronized addr) w := by
  obtain ⟨window, hflight, hlo, hhi⟩ := hanswered
  obtain ⟨-, hdelivered, hfew⟩ := h.trails
  have hnumber : wrapInt (w.delivered addr : ℤ) = w.delivered addr :=
    wrapInt_of_mem (by omega) (by omega)
  have hsize : wrapInt window = window := by
    simp only [maxMrtPayloadLength, maxUdpPayloadLength, mrtHeaderLength, mrtHashLength,
      mrtTypeLength, mrtFragmentLength, mrtWindowsizeLength, receiverMaxWindowSize] at hlo hhi
    exact wrapInt_of_mem (by omega) (by omega)
  have hcarries : Carries addr (.sender addr .handler) := rfl
  -- The sections before the number is taken.
  have hread : CanReach step (Carries addr) (fun t => t.receiver = w.receiver ∧
      (t.senders addr).handlerThread = .adatAck (w.delivered addr) window) w := by
    obtain ⟨s₁, hs₁, hthread₁⟩ := Sender.handler_dispatches hidle h.unflagged
      (adatDatagram (w.delivered addr) window)
    rw [dispatch_adat, hnumber, hsize] at hthread₁
    obtain ⟨s₂, hs₂, hthread₂⟩ := Sender.handler_refreshes hthread₁
    have hreceived : Carries addr
        (.sender addr (.handlerRecvfrom (adatDatagram (w.delivered addr) window))) := rfl
    refine canReach_step hreceived (step_sender hflight rfl)
      (canReach_step hcarries (step_setSender trivial hs₁)
        (canReach_step hcarries (step_setSender trivial hs₂) (canReach_now ⟨rfl, ?_⟩)))
    rwa [setSender_self]
  refine (h.canReach hread).trans fun t ht => ?_
  obtain ⟨⟨huse, -⟩, hreceiver, hthread⟩ := ht
  have hsame : t.delivered addr = w.delivered addr := by rw [World.delivered, hreceiver]; rfl
  -- The number of the answer is not outdated.
  have hdifference : 0 ≤ (t.senders addr).conn.fragDifference (w.delivered addr) := by
    obtain ⟨g, hg, hconnected⟩ := huse.refines
    have hsound := hg.reachable.sound
    obtain ⟨n, -, hn, hahead, -⟩ := hg.sender.fragDifference_eq hsound hthread
    have hack := hconnected.acknowledged
    have htrails := huse.trails.1
    omega
  obtain ⟨hack, hwindow⟩ := Sender.handleAdatAck_takes window hdifference
  have hstep : step t (.sender addr .handler) =
      .ok (t.setSender addr (Sender.handleAdatAck (t.senders addr) (w.delivered addr) window)) :=
    step_sender trivial (Sender.handler_of_adatAck hthread)
  obtain ⟨huse', -⟩ := huse.carries hcarries hstep
  refine canReach_step hcarries hstep ((huse'.canReach huse'.settles).mono (fun _ => id) ?_)
  rintro u ⟨⟨hu, hforward⟩, hreceiver', hidle'⟩
  have hsame' : u.delivered addr = w.delivered addr := by
    rw [← hsame, World.delivered, hreceiver']
    rfl
  have hacknowledged := hforward.acknowledged
  have hopened := hforward.window
  have htrails := hu.trails.1
  rw [setSender_self] at hacknowledged hopened
  exact ⟨hidle', by omega, by omega⟩

/-- The two sides can come to the same number. What is unread is read, `sender` sends something,
and the answer is taken in. -/
theorem InUse.synchronizes (h : InUse w addr) : CanReach step (Carries addr)
    (fun t => (InUse t addr ∧ Forward addr w t) ∧ t.Synchronized addr) w := by
  refine h.canReach ((h.canReach h.settles).trans ?_)
  rintro t ⟨⟨ht, -⟩, -, hidle⟩
  refine (ht.canReach ht.drains).trans ?_
  rintro u ⟨⟨hu, -⟩, hsenders, r, hrecord, hempty⟩
  have hready := hu.ready (by rw [hsenders]; exact hidle)
  refine (hu.canReach (canReach_firstSender hready.canSend)).trans ?_
  rintro v ⟨⟨hv, -⟩, s, ⟨hs, dg, hdg, hdata⟩, rfl⟩
  rw [← setSender_self u addr s] at hs hdg
  refine (hv.canReach (hv.answers hdg hdata hrecord hempty)).trans ?_
  rintro x ⟨⟨hx, -⟩, hsenders', hanswered⟩
  exact hx.acknowledges (by rw [hsenders']; exact hs.idle) hanswered

/-- Between two sides with the same number the next fragment can be delivered. -/
theorem InUse.advances (h : InUse w addr) (hsync : w.Synchronized addr)
    (hmore : w.delivered addr < (w.senders addr).bufferedFragments.length) :
    CanReach step (Carries addr) (fun t => w.delivered addr < t.delivered addr) w := by
  obtain ⟨g, hg, hconnected⟩ := h.refines
  have haligned := hconnected.aligned
  have hack := hsync.acknowledged
  rw [hsync.idle] at haligned
  simp only [Sender.HandlerThread.pendingShift] at haligned
  have hresends : Sender.Resends (w.delivered addr) (w.senders addr) :=
    ⟨h.ready hsync.idle, ⟨(h.holds.usable addr).steady, by omega, hsync.window⟩, hack⟩
  refine (h.canReach (canReach_firstSender hresends.canResend)).trans ?_
  rintro t ⟨⟨ht, hforward⟩, s, ⟨stale, payload, hstale, hpayload, hdg⟩, rfl⟩
  rw [← setSender_self w addr s] at hdg
  refine (ht.canReach ht.drains).trans ?_
  rintro u ⟨⟨hu, hforward'⟩, hsenders, r, hrecord, hempty⟩
  rcases Nat.lt_or_eq_of_le (Nat.le_trans hforward.delivered hforward'.delivered) with hless | hsame
  · exact canReach_now hless
  · rw [← hsenders] at hdg
    obtain ⟨s', hs', hstep⟩ := hu.handles hdg
    obtain ⟨g', hg', -⟩ := hu.refines
    obtain ⟨-, hdelivered, hfew⟩ := h.trails
    have hexpected := hg'.receiver.expected r hrecord
    have hnumber : wrapInt ((w.delivered addr : ℤ) + 1) = w.delivered addr + 1 :=
      wrapInt_of_mem (by omega) (by omega)
    have hfrag : Receiver.dispatchedFrag u.receiver
        (dataDatagram (wrapInt (w.delivered addr + 1)) stale payload) = r.nextFrag := by
      rw [dispatchedFrag_data _ _ hstale hpayload, hnumber, hnumber, hexpected]
      have hsame' : w.delivered addr = (u.receiver.bufferedPayloads addr).length := hsame
      rw [hsame']
      rfl
    have hbuffered := Receiver.buffered_of_data hu.holds.reliable.isOpen
      (dispatchedType_data _ _ hstale hpayload) hrecord hfrag hempty hs'
    have hcarries : Carries addr (.receiver (.mainHandler addr
        (dataDatagram (wrapInt (w.delivered addr + 1)) stale payload))) := rfl
    refine canReach_step hcarries hstep (canReach_now ?_)
    have hlength := congrArg List.length hbuffered
    rw [List.length_append, List.length_singleton] at hlength
    have hsame' : w.delivered addr = (u.receiver.bufferedPayloads addr).length := hsame
    rw [hsame']
    exact Nat.lt_of_lt_of_eq (Nat.lt_succ_self _) hlength.symm

/-- All fragments in the buffer can be delivered and acknowledged. -/
theorem InUse.delivers (h : InUse w addr) : CanReach step (Carries addr)
    (fun t => (InUse t addr ∧ Forward addr w t) ∧ t.Synchronized addr ∧
      t.delivered addr = (t.senders addr).bufferedFragments.length) w := by
  refine canReach_of_measure (fun t => InUse t addr ∧ Forward addr w t)
    (fun t => (t.senders addr).bufferedFragments.length - t.delivered addr) ?_ ⟨h, .refl addr w⟩
  rintro t ⟨ht, hforward⟩
  refine ht.synchronizes.trans ?_
  rintro u ⟨⟨hu, hforward'⟩, hsync⟩
  by_cases hall : u.delivered addr = (u.senders addr).bufferedFragments.length
  · exact canReach_now (Or.inl ⟨⟨hu, hforward.trans hforward'⟩, hsync, hall⟩)
  · have hmore := Nat.lt_of_le_of_ne hu.trails.2.1 hall
    refine (hu.canReach (hu.advances hsync hmore)).mono (fun _ => id) ?_
    rintro v ⟨⟨hv, hforward''⟩, hless⟩
    refine Or.inr ⟨⟨hv, (hforward.trans hforward').trans hforward''⟩, ?_⟩
    have hgrows : t.delivered addr ≤ u.delivered addr := hforward'.delivered
    rw [hforward''.fragments, ← hforward'.fragments]
    omega

/-! ### A call of `mrt_send` -/

/-- The sections that carry data and those of the call of `mrt_send`. -/
def Sends (addr : SockaddrIn) (act : Action) : Prop :=
  Carries addr act ∨ act = .sender addr .mrtSendContinue

/-- Everything that was submitted for an address is delivered and acknowledged, and the call of
`mrt_send` has returned 1 or there was none in progress. -/
structure Completes (addr : SockaddrIn) (w t : World) : Prop where
  submitted_kept : (t.senders addr).submitted = (w.senders addr).submitted
  stream_eq : (t.receiver.view addr).stream = (t.senders addr).submitted.flatten
  /-- The buffer of the sender is empty. -/
  acknowledged : (t.senders addr).conn.lastPayloadIndex = -1
  finished : (t.senders addr).sendCall.Finished
  succeeded : ¬(w.senders addr).sendCall.Finished → (t.senders addr).sendCall = .returned 1
  /-- The connection is still not flagged. -/
  unflagged : (t.senders addr).conn.shouldClose = false

/-- When all fragments are delivered to a synchronized connection it is cleared. -/
theorem InUse.cleared (h : InUse w addr) (hsync : w.Synchronized addr)
    (hall : w.delivered addr = (w.senders addr).bufferedFragments.length) :
    Sender.Cleared (w.senders addr) := by
  obtain ⟨g, hg, hconnected⟩ := h.refines
  have haligned := hconnected.aligned
  have hack := hsync.acknowledged
  rw [hsync.idle] at haligned
  simp only [Sender.HandlerThread.pendingShift] at haligned
  refine ⟨h.live, h.registered, (h.ready hsync.idle).unlocked, by omega, ?_⟩
  rw [hack, hall]

/-- The call of a connection in use has an account. -/
theorem InUse.complete (h : InUse w addr) :
    Sender.Complete (w.senders addr) (w.delivered addr) := by
  refine (h.holds.reliable.calls addr).resolve_right fun hlost => ?_
  have hremoved := hlost.unregistered
  rw [h.registered] at hremoved
  cases hremoved

/-- When no call is in progress and all fragments are delivered, the receiver has everything. -/
theorem InUse.stream_eq (h : InUse w addr)
    (hall : w.delivered addr = (w.senders addr).bufferedFragments.length)
    (hfinished : (w.senders addr).sendCall.Finished) :
    (w.receiver.view addr).stream = (w.senders addr).submitted.flatten := by
  obtain ⟨g, hg, -⟩ := h.refines
  have hstream :=
    stream_eq_flatten h.holds.reliable.network.streams h.holds.reliable.isOpen.closed_eq addr
  have hnone : (w.senders addr).sendCall.rest = [] := by
    cases hcall : (w.senders addr).sendCall <;> rw [hcall] at hfinished <;>
      first | rfl | exact hfinished.elim
  have hdelivered : w.receiver.bufferedPayloads addr = (w.senders addr).bufferedFragments := by
    rw [← hg.sender.fragments]
    refine Eq.trans hg.receiver.delivered.symm (hg.reachable.sound.delivered_eq ?_)
    rw [hg.sender.fragments, hg.receiver.delivered]
    exact Nat.le_of_eq hall.symm
  rw [hstream, hdelivered, h.complete.submitted, hnone, List.append_nil]

/-- The call of a cleared connection goes on, with a fragment that it copies or with its last
test. -/
theorem InUse.goesOn (h : InUse w addr) (hcleared : Sender.Cleared (w.senders addr))
    (hcan : (w.senders addr).sendCall.CanSucceed (w.senders addr).bufferedFragments.length)
    (hruns : ¬(w.senders addr).sendCall.Finished) :
    CanReach step (Sends addr)
      (fun t => InUse t addr ∧ Sender.GoesOn (w.senders addr) (t.senders addr)) w := by
  obtain ⟨g, hg, -⟩ := h.refines
  obtain ⟨s', hs', hgoes⟩ :=
    hcleared.goesOn hg.sender.window.copying h.complete.informed hcan hruns
  have hstep : step w (.sender addr .mrtSendContinue) = .ok (w.setSender addr s') :=
    step_sender trivial hs'
  have huse : ReliableUse w (.sender addr .mrtSendContinue) ∧
      OnSender (Sender.OnSend Sender.SendsConnected) w (.sender addr .mrtSendContinue) := by
    simp only [ReliableUse, OnSender, Sender.OnSend]
    cases hcall : (w.senders addr).sendCall with
    | lastBuffered args =>
      rw [hcall] at hcan
      exact ⟨hcan.2, fun _ => h.established⟩
    | _ => exact ⟨trivial, trivial⟩
  refine canReach_step (Or.inr rfl) hstep (canReach_now ⟨?_, ?_⟩)
  · exact h.kept huse.1 huse.2 (fun i hi => by cases hi) hstep
  · rw [setSender_self]
    exact hgoes

/-- Every delivery over a connection in use can be completed. -/
theorem InUse.completes (h : InUse w addr)
    (hcan : (w.senders addr).sendCall.CanSucceed (w.senders addr).bufferedFragments.length) :
    CanReach step (Sends addr) (fun t => (InUse t addr ∧ t.Synchronized addr ∧
      t.delivered addr = (t.senders addr).bufferedFragments.length) ∧ Completes addr w t) w := by
  refine canReach_of_measure
    (fun t => InUse t addr ∧ (t.senders addr).submitted = (w.senders addr).submitted ∧
      (t.senders addr).sendCall.CanSucceed (t.senders addr).bufferedFragments.length ∧
      (¬(w.senders addr).sendCall.Finished →
        (t.senders addr).sendCall = .returned 1 ∨ ¬(t.senders addr).sendCall.Finished))
    (fun t => (t.senders addr).sendCall.untilReturned) ?_ ⟨h, rfl, hcan, Or.inr⟩
  rintro t ⟨ht, hsubmitted, hcan', hruns⟩
  refine (ht.delivers.mono (fun _ => Or.inl) fun _ => id).trans ?_
  rintro u ⟨⟨hu, hforward⟩, hsync, hall⟩
  have hcleared := hu.cleared hsync hall
  have hsame := hforward.submitted.trans hsubmitted
  rw [← hforward.call] at hcan' hruns
  rw [← hforward.fragments] at hcan'
  by_cases hfinished : (u.senders addr).sendCall.Finished
  · refine canReach_now (Or.inl ⟨⟨hu, hsync, hall⟩, hsame, hu.stream_eq hall hfinished,
      hcleared.empty, hfinished, fun hcalled => ?_, hu.unflagged⟩)
    exact (hruns hcalled).resolve_right fun hnot => hnot hfinished
  · refine (hu.goesOn hcleared hcan' hfinished).mono (fun _ => id) ?_
    rintro v ⟨hv, hgoes⟩
    have hsubmitted' := hgoes.submitted.trans hsame
    refine Or.inr ⟨⟨hv, hsubmitted', hgoes.can_succeed, fun _ => hgoes.succeeds⟩, ?_⟩
    rw [← hforward.call]
    exact hgoes.closer

/-- From every state that a reliable use can reach, an established connection that is not
flagged can complete what was submitted for it: by further sections of its threads, of
`main_handler`, of `mrt_receive1` and of the call of `mrt_send` alone, all of it is delivered
and acknowledged, and the call returns 1. -/
theorem completes_of_run {acts : List Action} (huse : Meets step ReliableUse initial acts)
    (hconnected : Meets step (OnSender (Sender.OnSend Sender.SendsConnected)) initial acts)
    (hrun : run step initial acts = .ok w)
    (hestablished : (w.senders addr).conn.lastAcknowledgedFrag ≠ -1)
    (hopen : (w.senders addr).conn.shouldClose = false)
    (hcan : (w.senders addr).sendCall.CanSucceed (w.senders addr).bufferedFragments.length) :
    CanReach step (Sends addr) (Completes addr w) w := by
  have hholds := invariant_of_run
    (fun w act w' h hcondition hstep => connectionsHold_step h hcondition.1 hcondition.2 hstep)
    connectionsHold_initial (huse.and hconnected) hrun
  have hinUse : InUse w addr := ⟨⟨hholds, hopen⟩, hestablished⟩
  exact (hinUse.completes hcan).mono (fun _ => id) fun _ ht => ht.2

/-- A call has buffered a byte, and no `DATA` was sent yet. -/
def calledOnce : List Action :=
  handshake (loopback 4242) ++ submit (loopback 4242) oneByte

/-- Its byte can be delivered and the call can return, although nothing has arrived yet. -/
theorem completes_one_byte : ∃ w, run step initial calledOnce = .ok w ∧
    (w.senders (loopback 4242)).submitted = [[7]] ∧
    (w.receiver.view (loopback 4242)).stream = [] ∧
    CanReach step (Sends (loopback 4242)) (Completes (loopback 4242) w) w := by
  have hrun : endsWith (run step initial calledOnce) (fun w => decide
      ((w.senders (loopback 4242)).conn.lastAcknowledgedFrag ≠ -1 ∧
        (w.senders (loopback 4242)).conn.shouldClose = false ∧
        (w.senders (loopback 4242)).sendCall.CanSucceed
          (w.senders (loopback 4242)).bufferedFragments.length ∧
        (w.senders (loopback 4242)).submitted = [[7]] ∧
        (w.receiver.view (loopback 4242)).stream = [])) = true := by
    decide +kernel
  obtain ⟨w, hw, htest⟩ := exists_of_endsWith hrun
  obtain ⟨hestablished, hopen, hcan, hsubmitted, hstream⟩ := of_decide_eq_true htest
  exact ⟨w, hw, hsubmitted, hstream, completes_of_run (by decide +kernel) (by decide +kernel) hw
    hestablished hopen hcan⟩

end Network

end NetworkLabs.Mrt
