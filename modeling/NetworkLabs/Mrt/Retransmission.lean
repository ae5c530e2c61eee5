import NetworkLabs.Foundations.Response
import NetworkLabs.Mrt.SendOrder

/-!
# Retransmission of the oldest fragment

An iteration of `sender` either sends the payload behind the last one sent, or waits and
advances the timer, or finds the timer expired and starts again from index 0. Every payload
that it sends moves the index towards the end of the buffer and sets the timer back, and
every wait brings the timer closer to its end, so that without `ADAT`s index 0 is sent again
after a bounded number of iterations, however many payloads `mrt_send` appends.
-/

namespace NetworkLabs.Mrt.Sender

open Foundations

/-- The timer of a `sender` thread, its local variable `resend_time`. -/
def State.timer (s : State) (i : ℕ) : ℤ := (s.senderThreads[i]?).elim 0 SenderThread.resendTime

/-- The next section of a `sender` thread decides what to send. -/
def State.selects (s : State) (i : ℕ) : Bool :=
  !s.receiverLockHeld && (s.senderThreads[i]?).any fun th => th.position == .select

/-- An iteration of the loop of a `sender` thread is counted when it decides what to send. -/
def iterates (i : ℕ) (s : State) : Action → Bool
  | .sender j => j == i && s.selects j
  | _ => false

/-- The section of `handler` handles no `ADAT`, so that nothing is acknowledged by it. -/
def HandlesNoAdat (_ : State) : HandlerThread → Prop
  | .adatTimeout _ _ | .adatAck _ _ | .adatShift _ => False
  | .recvfrom | .closeCheck | .acon | .acls | .cleanUp | .ended => True

instance (s : State) (thread : HandlerThread) : Decidable (HandlesNoAdat s thread) :=
  match thread with
  | .adatTimeout _ _ | .adatAck _ _ | .adatShift _ => isFalse id
  | .recvfrom | .closeCheck | .acon | .acls | .cleanUp | .ended => isTrue trivial

/-- The step transmits index 0 of the buffer, the fragment behind the last acknowledged one. -/
def TransmitsOldest (s s' : State) : Prop :=
  ∃ stale, s'.outbox = s.outbox ++
    [dataDatagram (wrapInt (s.conn.lastAcknowledgedFrag + 1)) stale (s.conn.payload 0)]

/-- What one section of a `sender` thread does to the index, its timer and what is sent. -/
inductive Turn (s : State) (j : ℕ) : State → Prop
  /-- The thread waits for the lock, has ended or does not exist. -/
  | idle (hselects : s.selects j = false) : Turn s j s
  | checked {resendTime : ℤ} (position : SenderPosition)
      (hth : s.senderThreads[j]? = some ⟨.closeCheck, resendTime⟩) :
      Turn s j (s.setSender j position resendTime)
  | waited {resendTime : ℤ} (hth : s.senderThreads[j]? = some ⟨.select, resendTime⟩)
      (hwait : s.conn.mustWait = true) : Turn s j (senderWait s j resendTime)
  | sent {resendTime : ℤ} {s' : State}
      (hth : s.senderThreads[j]? = some ⟨.select, resendTime⟩)
      (hwait : s.conn.mustWait = false) (hbounds : s.conn.SendInBounds s.conn.nextPayloadIndex)
      (hsend : senderSendPayload s j = .ok s') : Turn s j s'
  | sentEmpty {resendTime : ℤ} (hth : s.senderThreads[j]? = some ⟨.sendEmpty, resendTime⟩) :
      Turn s j ((s.setSender j .closeCheck resendTime).sendTo
        (buildDataEmpty s.conn.outgoingBuffer) 16)

/-- Every section of a `sender` thread is one of these. -/
theorem turn_of_step {s s' : State} {j : ℕ} (hstep : step s (.sender j) = .ok s') :
    Turn s j s' := by
  rw [step, sender] at hstep
  split at hstep
  · rename_i hth
    cases hstep
    exact .idle (by simp [State.selects, hth])
  · rename_i resendTime hth
    obtain ⟨-, hnext⟩ := of_useConnection hstep
    cases hnext
    exact .checked _ hth
  · rename_i resendTime hth
    rw [State.lockReceiver] at hstep
    obtain ⟨-, hnext⟩ := of_useConnection hstep
    split at hnext
    · rename_i hlock
      cases hnext
      exact .idle (by simp [State.selects, hlock])
    · split at hnext
      · rename_i hwait
        cases hnext
        exact .waited hth hwait
      · rename_i hwait
        exact .sent hth (by simpa using hwait) (of_senderSendPayload hnext).1 hnext
  · rename_i resendTime hth
    obtain ⟨-, hnext⟩ := of_useConnection hstep
    cases hnext
    exact .sentEmpty hth
  · rename_i resendTime hth
    cases hstep
    exact .idle (by simp [State.selects, hth])

/-- Changing a thread sets its own timer. -/
theorem timer_setSender {s : State} {j : ℕ} {th : SenderThread}
    (hth : s.senderThreads[j]? = some th) (position : SenderPosition) (resendTime : ℤ) (i : ℕ) :
    (s.setSender j position resendTime).timer i = if i = j then resendTime else s.timer i := by
  have hj : j < s.senderThreads.length := (List.getElem?_eq_some_iff.mp hth).1
  unfold State.timer
  rw [State.setSender_senderThreads]
  by_cases hij : i = j
  · rw [hij, List.getElem?_set_self hj, if_pos rfl]
    rfl
  · rw [List.getElem?_set_ne (Ne.symm hij), if_neg hij]

/-- A thread that starts has its timer at 0, as no thread has before it starts. -/
theorem timer_append {s : State} {position : SenderPosition} {s' : State}
    (hthreads : s'.senderThreads = s.senderThreads ++ [⟨position, 0⟩]) (i : ℕ) :
    s'.timer i = s.timer i := by
  unfold State.timer
  rw [hthreads]
  by_cases hi : i < s.senderThreads.length
  · rw [List.getElem?_append_left hi]
  · rw [List.getElem?_append_right (Nat.not_lt.mp hi), List.getElem?_eq_none (Nat.not_lt.mp hi)]
    cases i - s.senderThreads.length with
    | zero => rfl
    | succ k => rfl

/-- The timer of a thread in its position. -/
theorem timer_eq {s : State} {j : ℕ} {position : SenderPosition} {resendTime : ℤ}
    (hth : s.senderThreads[j]? = some ⟨position, resendTime⟩) : s.timer j = resendTime := by
  rw [State.timer, hth]
  rfl

/-- What holds of every connection that can be reached: the buffer and the indices are in
range, no timer is negative, and the connection is freed only after it was flagged to close. -/
structure Steady (s : State) : Prop where
  fits : s.conn.FitsBuffer
  copying : s.sendCall.HasBytesLeft
  index_lo : -1 ≤ s.conn.lastSentIndex
  index_hi : s.conn.lastSentIndex < maxPayloadsBufferable
  timers : ∀ i, 0 ≤ s.timer i
  /-- `handler` cleans up only after the flag was set. -/
  flagged : s.live = false ∨ s.handlerThread = .cleanUp → s.conn.shouldClose = true

/-- A connection that is initialized is in range. -/
theorem steady_initial : Steady initial :=
  ⟨windowHolds_initial.fits, trivial, by decide, by decide, fun _ => Int.le_refl 0, by
    rintro (hlive | hthread)
    · cases hlive
    · cases hthread⟩

/-- Freeing slots inside the arrays frees slots that are in use. -/
theorem of_shiftInBounds {c : Connection} {d : ℤ} (h : c.ShiftInBounds d) :
    0 ≤ d ∧ d ≤ c.lastPayloadIndex + 1 := by
  obtain ⟨-, hlo, hlen, -⟩ := h
  omega

/-- A section of a `sender` thread leaves the buffer, the calls and `handler` alone. -/
theorem Turn.kept {s s' : State} {j : ℕ} (hturn : Turn s j s') :
    s'.sendCall = s.sendCall ∧ s'.live = s.live ∧ s'.handlerThread = s.handlerThread ∧
      s'.conn.lastPayloadIndex = s.conn.lastPayloadIndex ∧
      s'.conn.numBytesBuffered = s.conn.numBytesBuffered ∧
      s'.conn.receiverWindowSize = s.conn.receiverWindowSize ∧
      s'.conn.shouldClose = s.conn.shouldClose := by
  cases hturn with
  | idle | checked _ _ | sentEmpty _ => exact ⟨rfl, rfl, rfl, rfl, rfl, rfl, rfl⟩
  | waited hth hwait =>
    unfold senderWait
    split
    · split <;> exact ⟨rfl, rfl, rfl, rfl, rfl, rfl, rfl⟩
    · exact ⟨rfl, rfl, rfl, rfl, rfl, rfl, rfl⟩
  | sent hth hwait hbounds hsend =>
    obtain ⟨-, rfl⟩ := of_senderSendPayload hsend
    exact ⟨rfl, rfl, rfl, rfl, rfl, rfl, rfl⟩

/-- What waiting does to the index and the timers, when there is nothing to send or no window
for it. -/
inductive Waits (s : State) (j : ℕ) (s' : State) : Prop
  | expired (hnothing : s.conn.lastPayloadIndex < s.conn.nextPayloadIndex)
      (hindex : s'.conn.lastSentIndex = -1)
      (htimer : ∀ i, s'.timer i = if i = j then 0 else s.timer i)
  | advanced (hnothing : s.conn.lastPayloadIndex < s.conn.nextPayloadIndex)
      (hrunning : s.timer j ≤ resendTimeoutThreshold)
      (hindex : s'.conn.lastSentIndex = s.conn.lastSentIndex)
      (htimer : ∀ i, s'.timer i = if i = j then s.timer j + emptyDataPeriod else s.timer i)
  /-- There is something to send, so the window is too small for it. -/
  | stalled (hwindow : s.conn.receiverWindowSize < maxMrtPayloadLength)
      (hindex : s'.conn.lastSentIndex = s.conn.lastSentIndex)
      (htimer : ∀ i, s'.timer i = if i = j then 0 else s.timer i)

/-- Waiting is one of these, according to what the thread waits for and how long it has
done so. -/
theorem waits_senderWait {s : State} {j : ℕ} {resendTime : ℤ}
    (hth : s.senderThreads[j]? = some ⟨.select, resendTime⟩) (hwait : s.conn.mustWait = true) :
    Waits s j (senderWait s j resendTime) := by
  have htime := timer_eq hth
  unfold senderWait
  split
  · rename_i hnothing
    split
    · exact .expired hnothing rfl fun i => timer_setSender hth .sendEmpty 0 i
    · rename_i hrunning
      rw [← htime] at hrunning ⊢
      exact .advanced hnothing (by omega) rfl fun i =>
        timer_setSender hth .sendEmpty (s.timer j + emptyDataPeriod) i
  · rename_i hready
    refine .stalled ?_ rfl fun i => timer_setSender hth .sendEmpty 0 i
    rcases Bool.or_eq_true_iff.mp hwait with hwindow | hnothing
    · exact of_decide_eq_true hwindow
    · exact absurd (of_decide_eq_true hnothing) hready

/-- What sending a payload does: the index moves on, the timer of the thread starts again, and
one datagram is sent. -/
theorem senderSendPayload_spec {s s' : State} {j : ℕ} {th : SenderThread}
    (hth : s.senderThreads[j]? = some th) (hsend : senderSendPayload s j = .ok s') :
    s'.conn.lastSentIndex = s.conn.lastSentIndex + 1 ∧
      (∀ i, s'.timer i = if i = j then 0 else s.timer i) ∧
      s'.outbox = s.outbox ++ [s.conn.nextDatagram] := by
  have houtbox := senderSendPayload_outbox hsend
  obtain ⟨-, rfl⟩ := of_senderSendPayload hsend
  exact ⟨rfl, fun i => timer_setSender hth .closeCheck 0 i, houtbox⟩

/-- A section of a `sender` thread keeps the connection in range. -/
theorem steady_turn {s s' : State} {j : ℕ} (h : Steady s) (hturn : Turn s j s') : Steady s' := by
  obtain ⟨hcall, hlive, hthread, hpayloads, hsizes, -, hclose⟩ := hturn.kept
  have hcursor : (-1 ≤ s'.conn.lastSentIndex ∧ s'.conn.lastSentIndex < maxPayloadsBufferable) ∧
      ∀ i, 0 ≤ s'.timer i := by
    have hold : -1 ≤ s.conn.lastSentIndex ∧ s.conn.lastSentIndex < maxPayloadsBufferable :=
      ⟨h.index_lo, h.index_hi⟩
    have hset : ∀ {x : ℤ}, 0 ≤ x → (∀ i, s'.timer i = if i = j then x else s.timer i) →
        ∀ i, 0 ≤ s'.timer i := by
      intro x hx htimer i
      rw [htimer]
      split
      · exact hx
      · exact h.timers i
    cases hturn with
    | idle => exact ⟨hold, h.timers⟩
    | checked position hth =>
      have htime := h.timers j
      rw [timer_eq hth] at htime
      exact ⟨hold, hset htime (timer_setSender hth position _)⟩
    | sentEmpty hth =>
      have htime := h.timers j
      rw [timer_eq hth] at htime
      exact ⟨hold, hset htime (timer_setSender hth .closeCheck _)⟩
    | waited hth hwait =>
      cases waits_senderWait hth hwait with
      | expired hnothing hindex htimer =>
        rw [hindex]
        exact ⟨by decide, hset (Int.le_refl 0) htimer⟩
      | advanced hnothing hrunning hindex htimer =>
        have hnext : 0 ≤ s.timer j + emptyDataPeriod :=
          Int.add_nonneg (h.timers j) (by decide)
        rw [hindex]
        exact ⟨hold, hset hnext htimer⟩
      | stalled hwindow hindex htimer =>
        rw [hindex]
        exact ⟨hold, hset (Int.le_refl 0) htimer⟩
    | sent hth hwait hbounds hsend =>
      obtain ⟨hindex, htimer, -⟩ := senderSendPayload_spec hth hsend
      have hroom : s.conn.nextPayloadIndex + 1 ≤ maxPayloadsBufferable := hbounds.1.2.2
      rw [Connection.nextPayloadIndex] at hroom
      rw [hindex]
      exact ⟨⟨by omega, by omega⟩, hset (Int.le_refl 0) htimer⟩
  refine ⟨h.fits.of_eq hpayloads hsizes, hcall ▸ h.copying, hcursor.1.1, hcursor.1.2, hcursor.2, ?_⟩
  rw [hlive, hthread, hclose]
  exact h.flagged

/-- `handler` goes to its clean-up only from the test of the flag. -/
theorem dispatch_ne_cleanUp (incoming : Memory Byte) : dispatch incoming ≠ .cleanUp := by
  unfold dispatch
  split
  · split
    · exact HandlerThread.noConfusion
    · split
      · exact HandlerThread.noConfusion
      · split <;> exact HandlerThread.noConfusion
  · exact HandlerThread.noConfusion

/-- The parts of a state that a step of another thread may leave alone. -/
def State.steadyParts (s : State) : ℤ × Memory ℤ × ℤ × List SenderThread :=
  (s.conn.lastPayloadIndex, s.conn.numBytesBuffered, s.conn.lastSentIndex, s.senderThreads)

/-- A step that leaves them alone keeps the connection in range. -/
theorem Steady.of_eq {s s' : State} (h : Steady s) (hsame : s'.steadyParts = s.steadyParts)
    (hcopying : s'.sendCall.HasBytesLeft)
    (hflagged : s'.live = false ∨ s'.handlerThread = .cleanUp → s'.conn.shouldClose = true) :
    Steady s' := by
  simp only [State.steadyParts, Prod.mk.injEq] at hsame
  obtain ⟨hpayloads, hsizes, hindex, hthreads⟩ := hsame
  refine ⟨h.fits.of_eq hpayloads hsizes, hcopying, ?_, ?_, fun i => ?_, hflagged⟩
  · rw [hindex]
    exact h.index_lo
  · rw [hindex]
    exact h.index_hi
  · rw [State.timer, hthreads]
    exact h.timers i

/-- Every step keeps the connection in range: the index, the timers and the lengths of the
payloads. -/
theorem steady_step {s s' : State} {act : Action} (h : Steady s) (hstep : step s act = .ok s') :
    Steady s' := by
  have hlive : s.live = false → s.conn.shouldClose = true := fun hfreed => h.flagged (.inl hfreed)
  cases effect_of_step hstep with
  | idle => exact h
  | senderMoved _ _ | reset _ _ | sentPayload _ _ _ _ | sentEmpty _ _ =>
    exact steady_turn h (turn_of_step hstep)
  | polled | requested | disconnecting | disconnectMoved _ | sentRcls | requestedClose | ticked _ =>
    exact h.of_eq rfl h.copying h.flagged
  | submitted _ | estimated _ _ | succeeded _ _ _ | full _ => exact h.of_eq rfl trivial h.flagged
  | found _ | foundAgain _ =>
    refine h.of_eq rfl ?_ h.flagged
    dsimp only
    split <;> trivial
  | unacknowledged hcall hlock hfinal =>
    refine h.of_eq rfl ?_ h.flagged
    dsimp only
    split
    · rename_i hleft
      exact hleft
    · trivial
  | @buffered args finalFrag copied hcall hspace hbounds =>
    have hcopying := h.copying
    rw [hcall] at hcopying
    obtain ⟨hpos, hmax, -⟩ := numBytesToCopy_mem hcopying
    have hlen : ((args.buffer.drop copied).take (numBytesToCopy args.len copied).toNat).length ≤
        maxMrtPayloadLength := by
      have htake := List.length_take_le (numBytesToCopy args.len copied).toNat
        (args.buffer.drop copied)
      omega
    exact ⟨h.fits.bufferPayload hspace hlen, trivial, h.index_lo, h.index_hi, h.timers, h.flagged⟩
  | flagged _ => exact h.of_eq rfl h.copying fun _ => rfl
  | freed hthread => exact h.of_eq rfl h.copying fun _ => h.flagged (.inr hthread)
  | closing hthread hclose => exact h.of_eq rfl h.copying fun _ => hclose
  | dispatched hthread hclose =>
    refine h.of_eq rfl h.copying ?_
    rintro (hfreed | hdispatch)
    · exact hlive hfreed
    · exact absurd hdispatch (dispatch_ne_cleanUp _)
  | received hthread | reconnected hthread _ | refreshed hthread | outdated hthread _
  | closedByPeer hthread =>
    refine h.of_eq rfl h.copying ?_
    rintro (hfreed | hcleanUp)
    · exact hlive hfreed
    · cases hcleanUp
  | acknowledged hthread hdifference =>
    refine h.of_eq rfl h.copying ?_
    rintro (hfreed | hcleanUp)
    · exact hlive hfreed
    · dsimp only at hcleanUp
      split at hcleanUp <;> cases hcleanUp
  | connected hthread hfirst =>
    refine ⟨⟨h.fits.index_lo, h.fits.index_hi, h.fits.slots⟩, h.copying, h.index_lo, h.index_hi,
      fun i => ?_, ?_⟩
    · rw [timer_append (s := s) rfl]
      exact h.timers i
    · rintro (hfreed | hcleanUp)
      · exact hlive hfreed
      · cases hcleanUp
  | shifted hthread hbounds =>
    obtain ⟨hlo, hhi⟩ := of_shiftInBounds hbounds
    refine ⟨h.fits.shift hlo hhi, h.copying, h.index_lo, h.index_hi, h.timers, ?_⟩
    rintro (hfreed | hcleanUp)
    · exact hlive hfreed
    · cases hcleanUp

/-- A connection that can be reached is in range. -/
theorem steady_of_run {s : State} {acts : List Action} (hrun : run step initial acts = .ok s) :
    Steady s :=
  invariant_of_steps (fun _ _ _ h hstep => steady_step h hstep) steady_initial hrun

/-- The iterations until a timer that nothing sets back has started the buffer again. -/
def waitsLeft (resendTime : ℤ) : ℕ :=
  if resendTimeoutThreshold < resendTime then 1
  else ((resendTimeoutThreshold - resendTime) / emptyDataPeriod + 2).toNat

/-- The iterations of the `i`-th thread before index 0 is sent: for each slot behind the index
a payload may be appended just before the timer expires. -/
def rank (i : ℕ) (s : State) : ℕ :=
  if s.conn.lastSentIndex = -1 then 0
  else 5 * (maxPayloadsBufferable - 1 - s.conn.lastSentIndex).toNat + waitsLeft (s.timer i)

/-- A wait brings the timer one iteration closer to its end. -/
theorem waitsLeft_advance {resendTime : ℤ} (hrunning : resendTime ≤ resendTimeoutThreshold) :
    1 + waitsLeft (resendTime + emptyDataPeriod) = waitsLeft resendTime := by
  have hnow : waitsLeft resendTime =
      ((resendTimeoutThreshold - resendTime) / emptyDataPeriod + 2).toNat :=
    if_neg (Int.not_lt.mpr hrunning)
  rw [hnow, waitsLeft]
  split
  all_goals
    rename_i hnext
    simp only [resendTimeoutThreshold, emptyDataPeriod, expectedRtt] at hrunning hnext ⊢
    omega

/-- A timer that is not negative runs at most five iterations, and at least one. -/
theorem waitsLeft_mem {resendTime : ℤ} (h : 0 ≤ resendTime) :
    1 ≤ waitsLeft resendTime ∧ waitsLeft resendTime ≤ 5 := by
  unfold waitsLeft
  split
  · exact ⟨Nat.le_refl 1, by decide⟩
  · rename_i hrunning
    simp only [resendTimeoutThreshold, emptyDataPeriod, expectedRtt] at hrunning ⊢
    omega

/-- A rank is at most that of a buffer whose first payload was just sent. -/
theorem rank_le {s : State} (h : Steady s) (i : ℕ) : rank i s ≤ 50 := by
  have hlo := h.index_lo
  obtain ⟨-, hwaits⟩ := waitsLeft_mem (h.timers i)
  unfold rank
  simp only [maxPayloadsBufferable]
  split <;> omega

/-- There is something to retransmit and the window admits it. -/
structure Retransmits (s : State) : Prop where
  steady : Steady s
  payload : 0 ≤ s.conn.lastPayloadIndex
  window : maxMrtPayloadLength ≤ s.conn.receiverWindowSize

/-- A step of another thread that handles no `ADAT` leaves the index and the timers alone. -/
theorem kept_of_step {s s' : State} {act : Action} (hact : ∀ j, act ≠ .sender j)
    (hquiet : OnHandler HandlesNoAdat s act) (hstep : step s act = .ok s') :
    s'.conn.lastSentIndex = s.conn.lastSentIndex ∧ (∀ i, s'.timer i = s.timer i) ∧
      s.conn.lastPayloadIndex ≤ s'.conn.lastPayloadIndex ∧
      s'.conn.receiverWindowSize = s.conn.receiverWindowSize := by
  cases effect_of_step hstep with
  | senderMoved _ _ | reset _ _ | sentPayload _ _ _ _ | sentEmpty _ _ => exact absurd rfl (hact _)
  | buffered hcall hspace hbounds =>
    refine ⟨rfl, fun _ => rfl, ?_, rfl⟩
    simp only [Connection.bufferPayload]
    omega
  | connected hthread hfirst =>
    exact ⟨rfl, timer_append rfl, Int.le_refl _, rfl⟩
  | acknowledged hthread _ | shifted hthread _ =>
    rw [OnHandler, hthread] at hquiet
    exact absurd hquiet id
  | _ => exact ⟨rfl, fun _ => rfl, Int.le_refl _, rfl⟩

/-- The rank depends on the index and the timer. -/
theorem rank_congr {s s' : State} {i : ℕ} (hindex : s'.conn.lastSentIndex = s.conn.lastSentIndex)
    (htimer : s'.timer i = s.timer i) : rank i s' = rank i s := by
  rw [rank, rank, hindex, htimer]

/-- An index that is -1 has rank 0. -/
theorem rank_of_reset {s : State} (hindex : s.conn.lastSentIndex = -1) (i : ℕ) : rank i s = 0 :=
  if_pos hindex

/-- The rank with a payload sent. Every slot that is left counts more than all waiting before
it. -/
theorem rank_of_sent {s : State} (hindex : s.conn.lastSentIndex ≠ -1) (i : ℕ) : rank i s =
    5 * (maxPayloadsBufferable - 1 - s.conn.lastSentIndex).toNat + waitsLeft (s.timer i) :=
  if_neg hindex

/-- A thread in another position does not decide what to send. -/
theorem selects_of_position {s : State} {j : ℕ} {position : SenderPosition} {resendTime : ℤ}
    (hth : s.senderThreads[j]? = some ⟨position, resendTime⟩) (hposition : position ≠ .select) :
    s.selects j = false := by
  simp [State.selects, hth, hposition]

/-- Waiting lowers the rank of the thread and raises no other. -/
theorem rank_waits {s s' : State} {j : ℕ} (h : Retransmits s) (hwaits : Waits s j s') (i : ℕ) :
    (if j = i then 1 else 0) + rank i s' ≤ rank i s := by
  obtain ⟨hsteady, hpayload, hwindow⟩ := h
  have hbehind : s.conn.lastPayloadIndex < s.conn.nextPayloadIndex →
      s.conn.lastSentIndex ≠ -1 := by
    intro hnothing hfirst
    rw [Connection.nextPayloadIndex] at hnothing
    omega
  cases hwaits with
  | expired hnothing hindex htimer =>
    obtain ⟨hone, -⟩ := waitsLeft_mem (hsteady.timers i)
    rw [rank_of_reset hindex, rank_of_sent (hbehind hnothing)]
    split <;> omega
  | advanced hnothing hrunning hindex htimer =>
    by_cases hij : j = i
    · subst hij
      have hadvance := waitsLeft_advance hrunning
      have hsent' : s'.conn.lastSentIndex ≠ -1 := hindex ▸ hbehind hnothing
      have htime := htimer j
      rw [if_pos rfl] at htime
      rw [if_pos rfl, rank_of_sent (hbehind hnothing), rank_of_sent hsent', hindex, htime]
      omega
    · have hother := htimer i
      rw [if_neg (Ne.symm hij)] at hother
      refine Nat.le_of_eq ?_
      rw [if_neg hij, Nat.zero_add, rank_congr hindex hother]
  | stalled hsmall hindex htimer => omega

/-- Sending a payload that is not the first does so too. -/
theorem rank_sent {s s' : State} {j : ℕ} (h : Steady s) (h' : Steady s')
    (hsent : s.conn.lastSentIndex ≠ -1)
    (hindex : s'.conn.lastSentIndex = s.conn.lastSentIndex + 1)
    (htimer : ∀ i, s'.timer i = if i = j then 0 else s.timer i) (i : ℕ) :
    (if j = i then 1 else 0) + rank i s' ≤ rank i s := by
  have hlo := h.index_lo
  have hhi := h'.index_hi
  obtain ⟨hone, -⟩ := waitsLeft_mem (h.timers i)
  have hsent' : s'.conn.lastSentIndex ≠ -1 := by omega
  have htime := htimer i
  rw [rank_of_sent hsent, rank_of_sent hsent', hindex]
  rw [hindex] at hhi
  simp only [maxPayloadsBufferable] at hhi ⊢
  by_cases hij : j = i
  · have hfull : waitsLeft 0 = 5 := rfl
    rw [if_pos hij.symm] at htime
    rw [if_pos hij, htime, hfull]
    omega
  · rw [if_neg (Ne.symm hij)] at htime
    rw [if_neg hij, htime]
    omega

/-- In a section of a `sender` thread index 0 is sent, or the rank of every thread falls with
its own iterations and does not rise with those of the others. -/
theorem rank_turn {s s' : State} {j : ℕ} (h : Retransmits s) (hturn : Turn s j s') (i : ℕ) :
    TransmitsOldest s s' ∨
      (if iterates i s (.sender j) then 1 else 0) + rank i s' ≤ rank i s := by
  have hcount : (if iterates i s (.sender j) then 1 else 0) ≤ if j = i then 1 else 0 := by
    by_cases hij : j = i
    · rw [if_pos hij]
      split
      · exact Nat.le_refl 1
      · exact Nat.zero_le 1
    · simp [iterates, hij]
  have hnone : s.selects j = false → (if iterates i s (.sender j) then 1 else 0) = 0 := by
    intro hselects
    simp [iterates, hselects]
  have hsame : ∀ {position : SenderPosition} {resendTime : ℤ},
      s.senderThreads[j]? = some ⟨position, resendTime⟩ → position ≠ .select →
      s'.conn.lastSentIndex = s.conn.lastSentIndex →
      (∀ i, s'.timer i = if i = j then resendTime else s.timer i) →
      (if iterates i s (.sender j) then 1 else 0) + rank i s' ≤ rank i s := by
    intro position resendTime hth hposition hindex htimer
    have hkept : s'.timer i = s.timer i := by
      rw [htimer, ← timer_eq hth]
      split
      · rename_i hij
        rw [hij]
      · rfl
    refine Nat.le_of_eq ?_
    rw [hnone (selects_of_position hth hposition), Nat.zero_add, rank_congr hindex hkept]
  cases hturn with
  | idle hselects =>
    refine Or.inr (Nat.le_of_eq ?_)
    rw [hnone hselects, Nat.zero_add]
  | checked position hth =>
    exact Or.inr (hsame hth SenderPosition.noConfusion rfl (timer_setSender hth position _))
  | sentEmpty hth =>
    exact Or.inr (hsame hth SenderPosition.noConfusion rfl (timer_setSender hth .closeCheck _))
  | waited hth hwait =>
    have hwaits := rank_waits h (waits_senderWait hth hwait) i
    exact Or.inr (by omega)
  | sent hth hwait hbounds hsend =>
    obtain ⟨hindex, htimer, houtbox⟩ := senderSendPayload_spec hth hsend
    by_cases hfirst : s.conn.lastSentIndex = -1
    · have holdest : s.conn.nextToSend = s.conn.lastAcknowledgedFrag + 1 := by
        rw [Connection.nextToSend, hfirst]
        omega
      have hzero : s.conn.nextPayloadIndex = 0 := by
        rw [Connection.nextPayloadIndex, hfirst]
        rfl
      rw [Connection.nextDatagram, holdest, hzero] at houtbox
      exact Or.inl ⟨_, houtbox⟩
    · have hnext := steady_turn h.steady (.sent hth hwait hbounds hsend)
      have hsent := rank_sent h.steady hnext hfirst hindex htimer i
      exact Or.inr (by omega)

/-- Every step that handles no `ADAT` sends index 0, or keeps something to retransmit and lowers
the rank of the thread when that iterates. -/
theorem rank_step {s s' : State} {act : Action} (h : Retransmits s)
    (hquiet : OnHandler HandlesNoAdat s act) (hstep : step s act = .ok s') (i : ℕ) :
    TransmitsOldest s s' ∨
      Retransmits s' ∧ (if iterates i s act then 1 else 0) + rank i s' ≤ rank i s := by
  have hsteady := steady_step h.steady hstep
  by_cases hact : ∃ j, act = .sender j
  · obtain ⟨j, rfl⟩ := hact
    have hturn := turn_of_step hstep
    obtain ⟨-, -, -, hpayloads, -, hwindow, -⟩ := hturn.kept
    rcases rank_turn h hturn i with holdest | hrank
    · exact Or.inl holdest
    · exact Or.inr ⟨⟨hsteady, hpayloads ▸ h.payload, hwindow ▸ h.window⟩, hrank⟩
  · have hother : ∀ j, act ≠ .sender j := fun j hj => hact ⟨j, hj⟩
    obtain ⟨hindex, htimer, hpayloads, hwindow⟩ := kept_of_step hother hquiet hstep
    have hcount : iterates i s act = false := by
      cases act with
      | sender j => exact absurd rfl (hother j)
      | _ => rfl
    refine Or.inr ⟨⟨hsteady, Int.le_trans h.payload hpayloads, hwindow ▸ h.window⟩, ?_⟩
    rw [hcount, rank_congr hindex (htimer i)]
    simp

/-- Until the flag is set no section of a `sender` thread fails. -/
theorem sender_succeeds {s : State} (h : Steady s) (hopen : s.conn.shouldClose = false) (j : ℕ) :
    ∃ s', step s (.sender j) = .ok s' := by
  have hlive : s.live = true := by
    by_contra hfreed
    have hclose := h.flagged (.inl (by simpa using hfreed))
    rw [hopen] at hclose
    cases hclose
  rw [step, sender]
  split
  · exact ⟨_, rfl⟩
  · exact ⟨_, if_pos hlive⟩
  · rw [State.lockReceiver, State.useConnection, if_pos hlive]
    split
    · exact ⟨_, rfl⟩
    · split
      · exact ⟨_, rfl⟩
      · rename_i hwait
        have hlo := h.index_lo
        simp only [Connection.mustWait, Bool.or_eq_true, decide_eq_true_eq, not_or,
          Int.not_lt] at hwait
        have hfirst : 0 ≤ s.conn.nextPayloadIndex := by
          rw [Connection.nextPayloadIndex]
          omega
        exact ⟨_, if_pos (h.fits.sendInBounds hfirst hwait.2)⟩
  · exact ⟨_, if_pos hlive⟩
  · exact ⟨_, rfl⟩

/-- From every state that can be reached with a payload in the buffer and a window that admits
it, while no `ADAT` is handled, `sender` goes on and transmits index 0 within 64 iterations. -/
theorem oldest_retransmitted {s t : State} {before acts : List Action} (i : ℕ)
    (hreached : run step initial before = .ok s) (hpayload : 0 ≤ s.conn.lastPayloadIndex)
    (hwindow : maxMrtPayloadLength ≤ s.conn.receiverWindowSize)
    (hquiet : Meets step (OnHandler HandlesNoAdat) s acts) (hrun : run step s acts = .ok t) :
    (t.conn.shouldClose = false → ∀ j, ∃ t', step t (.sender j) = .ok t') ∧
      (64 ≤ countSteps step (iterates i) s acts → Sometime step TransmitsOldest s acts) := by
  have hsteady := steady_of_run hreached
  constructor
  · intro hopen j
    have hlater := invariant_of_steps (fun _ _ _ h hstep => steady_step h hstep) hsteady hrun
    exact sender_succeeds hlater hopen j
  · intro hcount
    have hrank := rank_le hsteady i
    exact sometime_of_rank Retransmits (rank i)
      (fun s act s' h hact hstep => rank_step h hact hstep i)
      ⟨hsteady, hpayload, hwindow⟩ hquiet hrun (by omega)

/-- The connection is established, and its first fragment was sent and not acknowledged. -/
def sentOnce : List Action :=
  [.handlerRecvfrom (aconDatagram 0), .handler, .handler, .handlerRecvfrom (adatDatagram 0 2440),
    .handler, .handler, .handler, .mrtSend ⟨[7], 1, Int.le_refl 1⟩, .mrtSendContinue,
    .mrtSendContinue, .mrtSendContinue, .mrtSendContinue, .mrtSendContinue, .sender 0, .sender 0]

/-- A payload of one byte is sent again, by the thread that sent it first. -/
theorem oldest_retransmitted_one_byte :
    ∃ s, run step initial sentOnce = .ok s ∧ s.conn.lastSentIndex = 0 ∧
      Sometime step TransmitsOldest s (List.replicate 192 (.sender 0)) := by
  have hrun : endsWith (run step initial sentOnce) (fun s =>
      decide (0 ≤ s.conn.lastPayloadIndex ∧
        maxMrtPayloadLength ≤ s.conn.receiverWindowSize ∧ s.conn.lastSentIndex = 0) &&
      decide (Meets step (OnHandler HandlesNoAdat) s (List.replicate 192 (.sender 0))) &&
      decide (64 ≤ countSteps step (iterates 0) s (List.replicate 192 (.sender 0))) &&
      endsWith (run step s (List.replicate 192 (.sender 0))) fun _ => true) = true := by
    decide +kernel
  obtain ⟨s, hs, htest⟩ := exists_of_endsWith hrun
  simp only [Bool.and_eq_true, decide_eq_true_eq] at htest
  obtain ⟨⟨⟨⟨hpayload, hwindow, hindex⟩, hquiet⟩, hcount⟩, hend⟩ := htest
  obtain ⟨t, ht, -⟩ := exists_of_endsWith hend
  exact ⟨s, hs, hindex, (oldest_retransmitted 0 hs hpayload hwindow hquiet ht).2 hcount⟩

end NetworkLabs.Mrt.Sender
