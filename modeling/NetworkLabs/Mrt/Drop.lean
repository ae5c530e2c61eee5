import NetworkLabs.Mrt.Stream

/-!
# Dropped connections

When a checker ends, the connection is dropped, but its record stays connected so
that the unread bytes remain available. The `DATA` and `RCLS` cases set the counter
of a record without knowing whether its checker still runs. As long as neither is
handled for a dropped connection, it stays dropped and a reader that stops at the
first 0 has received everything that was acknowledged.
-/

namespace NetworkLabs.Mrt.Receiver

open Foundations

/-- The connection is dropped: its checker has ended. The record stays in the queue, as the
comment in `checker` has it. -/
def Sender.Dropped (r : Sender) : Prop := r.checkerThread = .ended

/-- What a state says about dropped connections: that no more is buffered on them, and that what
was can be read to its end. -/
structure DroppedAreReadable (s : State) : Prop where
  /-- The counter of a dropped connection is above the threshold. -/
  inactive : ∀ r ∈ s.connectedSendersQ, r.Dropped → timeoutThreshold < r.inactiveTime
  /-- A call of `mrt_receive1` on it returns unread bytes and never waits. -/
  receives : ∀ id r len, s.record id = some r → r.Dropped → 1 ≤ len →
    ∃ s', mrtReceive1 s id len = .ok (s', .returns (r.unread.take len.toNat))
  /-- When a call returns 0, every byte that was ever buffered has been returned. -/
  complete : ∀ id len s', 1 ≤ len → mrtReceive1 s id len = .ok (s', .returns []) →
    s.returnedBytes id = (s.bufferedPayloads id).flatten
  /-- Only a call on a dropped connection returns 0, so that what is complete then is all that
  is ever acknowledged on it. -/
  dropped : ∀ id len s', 1 ≤ len → mrtReceive1 s id len = .ok (s', .returns []) →
    ∃ r, s.record id = some r ∧ r.Dropped
  /-- Only buffered payloads were ever acknowledged. -/
  acknowledged : ∀ id r, s.record id = some r → ∃ first, (s.view id).AcknowledgesFrom first

/-- A step leaves dropped connections dropped: until the clean-up nothing is
appended to their records, and nothing is acknowledged on them. -/
def KeepsDropped (s s' : State) : Prop :=
  ∀ id r, s.record id = some r → r.Dropped → s'.closed = true ∨
    (∃ r', s'.record id = some r' ∧ r'.Dropped ∧ r'.nextFrag = r.nextFrag) ∧
      s'.bufferedPayloads id = s.bufferedPayloads id ∧
      ∀ dg, s'.sentTo id = s.sentTo id ++ [dg] → typeField dg ≠ mrtAdat

/-- A step keeps dropped connections dropped, and in the state that it leads to they are
readable. -/
def StaysDropped (s s' : State) : Prop := KeepsDropped s s' ∧ DroppedAreReadable s'

/-- `main_handler` handles no `DATA` and no `RCLS` for a dropped connection. -/
def NothingForDropped (s : State) : Action → Prop
  | .mainHandler addr dg =>
    s.shouldClose = false →
      dispatchedType s dg = some mrtData ∨ dispatchedType s dg = some mrtRcls →
      (s.record addr).map Sender.checkerThread ≠ some .ended
  | _ => True

instance (s : State) (act : Action) : Decidable (NothingForDropped s act) :=
  match act with
  | .mainHandler addr dg =>
    inferInstanceAs (Decidable (s.shouldClose = false →
      dispatchedType s dg = some mrtData ∨ dispatchedType s dg = some mrtRcls →
      (s.record addr).map Sender.checkerThread ≠ some .ended))
  | .mrtAccept1Dequeue | .mrtAccept1Enqueue _ | .checker _ | .mrtReceive1 _ _ | .mrtClose =>
    isTrue trivial

/-- The counter of a record is above the threshold only when its checker has ended. -/
def Sender.Timed (r : Sender) : Prop := timeoutThreshold < r.inactiveTime → r.Dropped

/-- The counters of all records. Nothing is counted for a request before its checker runs. -/
structure CountersTimed (s : State) : Prop where
  waiting : ∀ r ∈ s.waiting, r.inactiveTime = 0
  connected : ∀ r ∈ s.connectedSendersQ, r.Timed

/-- The counters of dropped connections, and no others, are above the threshold, and the
streams of all connections are kept. -/
structure DropInvariant (s : State) : Prop where
  streams : StreamsKept s
  timed : CountersTimed s
  inactive : ∀ r ∈ s.connectedSendersQ, r.Dropped → timeoutThreshold < r.inactiveTime

/-- Nothing is dropped when the module is opened, as there are no records. -/
theorem dropInvariant_initial : DropInvariant initial :=
  ⟨streamsKept_initial, ⟨fun r hr => by simp [State.waiting, initial] at hr,
    fun r hr => by simp [initial] at hr⟩, fun r hr => by simp [initial] at hr⟩

/-- A connection for which a `DATA` or `RCLS` is handled is not dropped. -/
theorem NothingForDropped.not_dropped {s : State} {addr : SockaddrIn} {dg : Datagram}
    {r : Sender} (h : NothingForDropped s (.mainHandler addr dg)) (hclose : s.shouldClose = false)
    (htype : dispatchedType s dg = some mrtData ∨ dispatchedType s dg = some mrtRcls)
    (hrecord : s.record addr = some r) : ¬r.Dropped := by
  intro hdropped
  refine h hclose htype ?_
  rw [hrecord, Option.map_some]
  exact congrArg some hdropped

/-- A connected record after a change in place is an old one or the changed one. -/
theorem mem_connected_updateRecord {s : State} {id : SockaddrIn} {f : Sender → Sender} {r : Sender}
    (h : r ∈ (s.updateRecord id f).connectedSendersQ) :
    r ∈ s.connectedSendersQ ∨ ∃ r₀, s.record id = some r₀ ∧ r = f r₀ :=
  mem_updateFirst h

/-- A change in place keeps what holds of all connected records. -/
theorem forall_updateRecord {s : State} {id : SockaddrIn} {P : Sender → Prop}
    {f : Sender → Sender} (h : ∀ r ∈ s.connectedSendersQ, P r) (hf : ∀ r, P r → P (f r)) :
    ∀ r ∈ (s.updateRecord id f).connectedSendersQ, P r := by
  intro r hr
  rcases mem_connected_updateRecord hr with hold | ⟨r₀, hr₀, rfl⟩
  · exact h r hold
  · exact hf r₀ (h r₀ (List.mem_of_find?_eq_some hr₀))

/-- A counter that is not above the threshold says nothing about the checker. -/
theorem timed_of_le {r : Sender} (h : r.inactiveTime ≤ timeoutThreshold) : r.Timed :=
  fun hover => absurd hover (Int.not_lt.mpr h)

/-- A counter that starts again is not above the threshold. -/
theorem zero_le_timeoutThreshold : 0 ≤ timeoutThreshold := by decide

/-- The iteration of the checker that takes the counter above the threshold is its last. -/
theorem Sender.Timed.tick {r : Sender} (h : r.Timed) : r.tick.Timed := by
  intro hover
  unfold Sender.tick at hover ⊢
  by_cases hrunning : r.checkerThread = .running
  · rw [if_pos hrunning] at hover ⊢
    exact if_pos hover
  · rw [if_neg hrunning] at hover ⊢
    exact h hover

/-- An iteration of the checker ends it above the threshold only. -/
theorem inactive_tick {r : Sender} (h : r.Dropped → timeoutThreshold < r.inactiveTime)
    (hdropped : r.tick.Dropped) : timeoutThreshold < r.tick.inactiveTime := by
  unfold Sender.tick at hdropped ⊢
  by_cases hrunning : r.checkerThread = .running
  · rw [if_pos hrunning] at hdropped ⊢
    by_cases hover : timeoutThreshold < r.inactiveTime + checkerPeriod
    · exact hover
    · simp only [Sender.Dropped, if_neg hover] at hdropped
      cases hdropped
  · rw [if_neg hrunning] at hdropped ⊢
    exact h hdropped

/-- Reading changes neither the counter nor the checker, so that a reader cannot keep a
connection alive. -/
theorem consume_inactive (r : Sender) (n : ℤ) :
    (r.consume n).inactiveTime = r.inactiveTime ∧
      (r.consume n).checkerThread = r.checkerThread := by
  unfold Sender.consume
  split <;> exact ⟨rfl, rfl⟩

/-- Every step keeps the counters timed. Only a tick takes one above the threshold, and the
checker that ticks ends there. -/
theorem countersTimed_step {s s' : State} {act : Action} (h : CountersTimed s)
    (hstep : step s act = .ok s') : CountersTimed s' := by
  have hold := h.connected
  refine ⟨fun r hr => ?_, ?_⟩
  · rcases mem_waiting_of_step hstep hr with hr | ⟨addr, dg, -, -, rfl⟩
    · exact h.waiting r hr
    · rfl
  cases effect_of_step hstep with
  | closed hclose =>
    intro r hr
    simp [cleanUp] at hr
  | refused => exact forall_updateRecord hold fun _ _ => timed_of_le zero_le_timeoutThreshold
  | buffered =>
    exact forall_updateRecord (forall_updateRecord hold fun _ => id) fun _ _ =>
      timed_of_le zero_le_timeoutThreshold
  | disconnected => exact forall_updateRecord hold fun _ _ => timed_of_le (Int.le_refl _)
  | @accepted i r hopen hr =>
    intro r' hr'
    rcases List.mem_append.mp hr' with hr' | hr'
    · exact hold r' hr'
    · rw [List.mem_singleton.mp hr']
      have hzero := h.waiting r (List.mem_append_right _ (List.mem_of_getElem? hr))
      exact timed_of_le (Int.le_trans (Int.le_of_eq hzero) zero_le_timeoutThreshold)
  | ticked i =>
    intro r' hr'
    rcases mem_modify hr' with hr' | ⟨r, hr, rfl⟩
    · exact hold r' hr'
    · exact (hold r hr).tick
  | @consumed id len r =>
    refine forall_updateRecord hold fun r hr hover => ?_
    obtain ⟨htime, hthread⟩ := consume_inactive r (r.bytesRead len)
    rw [htime] at hover
    exact hthread.trans (hr hover)
  | _ => exact hold

/-- A step that handles nothing for dropped connections preserves the invariant. -/
theorem dropInvariant_step {s s' : State} {act : Action} (h : DropInvariant s)
    (hcondition : NothingForDropped s act) (hstep : step s act = .ok s') : DropInvariant s' := by
  refine ⟨streamsKept_step h.streams hstep, countersTimed_step h.timed hstep, ?_⟩
  have hold := h.inactive
  cases effect_of_step hstep with
  | closed hclose =>
    intro r hr
    simp [cleanUp] at hr
  | @refused addr dg r hclose htype hrecord hadmits =>
    intro r' hr' hdropped
    have halive := hcondition.not_dropped hclose (Or.inl htype) hrecord
    rcases mem_connected_updateRecord hr' with hr' | ⟨r₀, hr₀, rfl⟩
    · exact hold r' hr' hdropped
    · cases hrecord.symm.trans hr₀
      exact absurd hdropped halive
  | @buffered addr dg r hclose htype hrecord hadmits hbounds =>
    intro r' hr' hdropped
    have hfound := record_appendPayload_self (s := s.store dg) hrecord (dispatchedPayload s dg)
    have halive := hcondition.not_dropped hclose (Or.inl htype) hrecord
    rcases mem_connected_updateRecord hr' with hr' | ⟨r₀, hr₀, rfl⟩
    · rcases mem_connected_updateRecord hr' with hr' | ⟨r₀, hr₀, rfl⟩
      · exact hold r' hr' hdropped
      · cases hrecord.symm.trans hr₀
        exact absurd hdropped halive
    · cases hfound.symm.trans hr₀
      exact absurd hdropped halive
  | @disconnected addr dg r hclose htype hrecord =>
    intro r' hr' hdropped
    have halive := hcondition.not_dropped hclose (Or.inr htype) hrecord
    rcases mem_connected_updateRecord hr' with hr' | ⟨r₀, hr₀, rfl⟩
    · exact hold r' hr' hdropped
    · cases hrecord.symm.trans hr₀
      exact absurd hdropped halive
  | @accepted i r hopen hr =>
    intro r' hr' hdropped
    rcases List.mem_append.mp hr' with hr' | hr'
    · exact hold r' hr' hdropped
    · rw [List.mem_singleton.mp hr'] at hdropped
      cases hdropped
  | ticked i =>
    intro r' hr' hdropped
    rcases mem_modify hr' with hr' | ⟨r, hr, rfl⟩
    · exact hold r' hr' hdropped
    · exact inactive_tick (hold r hr) hdropped
  | @consumed id len r hrecord hunread hbounds =>
    intro r' hr' hdropped
    rcases mem_connected_updateRecord hr' with hr' | ⟨r₀, hr₀, rfl⟩
    · exact hold r' hr' hdropped
    · obtain ⟨htime, hthread⟩ := consume_inactive r₀ (r₀.bytesRead len)
      rw [htime]
      exact hold r₀ (List.mem_of_find?_eq_some hr₀) (hthread.symm.trans hdropped)
  | _ => exact hold

/-- An iteration of the checker keeps a dropped record, as there is no thread to run it. -/
theorem tick_of_dropped {r : Sender} (h : r.Dropped) : r.tick = r := by
  have hrunning : ¬r.checkerThread = .running := by
    rw [show r.checkerThread = .ended from h]
    exact fun h => by cases h
  exact if_neg hrunning

/-- A step that handles nothing for dropped connections keeps them dropped. -/
theorem keepsDropped_step {s s' : State} {act : Action} (hcondition : NothingForDropped s act)
    (hstep : step s act = .ok s') : KeepsDropped s s' := by
  intro id r hrecord hdropped
  have heffect := addressEffect_of_step hstep id
  have hquiet : ∀ (sent : List Datagram) (dg : Datagram), sent ≠ sent ++ [dg] :=
    fun sent dg h => by simpa using congrArg List.length h
  generalize hview : s'.view id = v at heffect
  have hrecord' : s'.record id = v.record := congrArg View.record hview
  have hbuffered' : s'.bufferedPayloads id = v.bufferedPayloads :=
    congrArg View.bufferedPayloads hview
  have hsent' : s'.sentTo id = v.sent := congrArg View.sent hview
  have hclosed' : s'.closed = v.closed := congrArg View.closed hview
  rw [hrecord', hbuffered', hsent', hclosed']
  cases heffect with
  | kept => exact Or.inr ⟨⟨r, hrecord, hdropped, rfl⟩, rfl, fun dg h => absurd h (hquiet _ dg)⟩
  | @ticked i r₀ hr₀ =>
    cases hrecord.symm.trans hr₀
    rw [tick_of_dropped hdropped]
    exact Or.inr ⟨⟨r, rfl, hdropped, rfl⟩, rfl, fun dg h => absurd h (hquiet _ dg)⟩
  | registered hopen hnone hr haddr => cases hrecord.symm.trans hnone
  | acknowledged frag hr₀ =>
    refine Or.inr ⟨⟨r, hrecord, hdropped, rfl⟩, rfl, fun dg h => ?_⟩
    cases List.append_cancel_left h
    simp
  | refused hclose htype hr₀ hadmits =>
    exact absurd hdropped (hcondition.not_dropped hclose (Or.inl htype) hrecord)
  | buffered hclose htype hr₀ hadmits hbounds =>
    exact absurd hdropped (hcondition.not_dropped hclose (Or.inl htype) hrecord)
  | disconnected hclose htype hr₀ =>
    exact absurd hdropped (hcondition.not_dropped hclose (Or.inr htype) hrecord)
  | @consumed len r₀ hr₀ hunread hbounds =>
    cases hrecord.symm.trans hr₀
    have hthread := (consume_inactive r (r.bytesRead len)).2
    refine Or.inr ⟨⟨_, rfl, hthread.trans hdropped, ?_⟩, rfl, fun dg h => absurd h (hquiet _ dg)⟩
    unfold Sender.consume
    split <;> rfl
  | cleaned => exact Or.inl rfl

/-- The number of bytes a call reads: what it asks for, or what is there. -/
theorem bytesRead_eq_min {r : Sender} (h : r.Fits) {len : ℤ} (hlen : 0 ≤ len) :
    (r.bytesRead len).toNat = min len.toNat r.unread.length := by
  obtain ⟨hlo, hhi⟩ := h
  have hlength : r.unread.length = r.bytesUnread.toNat := Memory.length_read _ _ _
  unfold Sender.bytesRead
  rw [hlength]
  split <;> omega

/-- A call of `mrt_receive1` that finds unread bytes returns the first of them. -/
theorem mrtReceive1_of_unread {s : State} {id : SockaddrIn} {r : Sender} {len : ℤ}
    (hrecord : s.record id = some r) (hfit : r.Fits) (hlen : 0 ≤ len)
    (hunread : 0 < r.bytesUnread) :
    ∃ s', mrtReceive1 s id len = .ok (s', .returns (r.unread.take len.toNat)) := by
  have hbytes : r.buffer.read 0 (r.bytesRead len).toNat = r.unread.take len.toNat := by
    have hhi : r.bytesRead len ≤ r.bytesUnread := by
      unfold Sender.bytesRead
      split <;> omega
    rw [read_eq_take_unread hhi, bytesRead_eq_min hfit hlen, ← List.take_eq_take_min]
  refine ⟨s.consumeBytes id len (r.unread.take len.toNat), ?_⟩
  rw [mrtReceive1, hrecord]
  dsimp only
  rw [if_neg (by omega), if_pos (hfit.copiesInBounds hlen), hbytes]
  rfl

/-- Without unread bytes a call of `mrt_receive1` on a dropped connection returns 0. -/
theorem mrtReceive1_of_inactive {s : State} {id : SockaddrIn} {r : Sender} {len : ℤ}
    (hrecord : s.record id = some r) (hunread : r.bytesUnread ≤ 0)
    (hinactive : timeoutThreshold < r.inactiveTime) :
    mrtReceive1 s id len = .ok (s, .returns []) := by
  rw [mrtReceive1, hrecord]
  dsimp only
  rw [if_pos hunread, if_pos hinactive]

/-- A record without unread bytes has nothing to return. -/
theorem unread_eq_nil {r : Sender} (h : r.bytesUnread ≤ 0) : r.unread = [] := by
  have hzero : r.bytesUnread.toNat = 0 := by omega
  rw [Sender.unread, hzero]
  rfl

/-- A call of `mrt_receive1` for at least one byte that returns 0 has found nothing unread and
a counter above the threshold. -/
theorem of_mrtReceive1_nil {s s' : State} {id : SockaddrIn} {len : ℤ} (hlen : 1 ≤ len)
    (hreceive : mrtReceive1 s id len = .ok (s', .returns [])) :
    ∃ r, s.record id = some r ∧ r.bytesUnread ≤ 0 ∧ timeoutThreshold < r.inactiveTime := by
  unfold mrtReceive1 at hreceive
  cases hrecord : s.record id with
  | none =>
    rw [hrecord] at hreceive
    cases hreceive
  | some r =>
    rw [hrecord] at hreceive
    dsimp only at hreceive
    refine ⟨r, rfl, ?_⟩
    split at hreceive
    · rename_i hnothing
      split at hreceive
      · exact ⟨hnothing, by assumption⟩
      · cases hreceive
    · rename_i hunread
      split at hreceive
      · -- With unread bytes a call for at least one byte returns one.
        have hreturned := congrArg Prod.snd (Except.ok.inj hreceive)
        have hlength := congrArg List.length (Received.returns.inj hreturned)
        rw [Memory.length_read, List.length_nil] at hlength
        unfold Sender.bytesRead at hlength
        split at hlength <;> omega
      · cases hreceive

/-- Under the invariant dropped connections are readable, down to the last byte and then as
ended. -/
theorem DropInvariant.droppedAreReadable {s : State} (h : DropInvariant s) :
    DroppedAreReadable s := by
  refine ⟨h.inactive, fun id r len hrecord hdropped hlen => ?_,
    fun id len s' hlen hreceive => ?_, fun id len s' hlen hreceive => ?_, fun id r hrecord => ?_⟩
  · have hfit := h.streams.fit _ (mem_records_of_record hrecord)
    have hinactive := h.inactive r (List.mem_of_find?_eq_some hrecord) hdropped
    by_cases hunread : 0 < r.bytesUnread
    · exact mrtReceive1_of_unread hrecord hfit (by omega) hunread
    · have hnone : r.bytesUnread ≤ 0 := by omega
      rw [unread_eq_nil hnone, List.take_nil]
      exact ⟨s, mrtReceive1_of_inactive hrecord hnone hinactive⟩
  · obtain ⟨r, hrecord, hnone, -⟩ := of_mrtReceive1_nil hlen hreceive
    have hstream := (h.streams.accounts id).stream r hrecord
    rwa [unread_eq_nil hnone, List.append_nil] at hstream
  · obtain ⟨r, hrecord, -, hover⟩ := of_mrtReceive1_nil hlen hreceive
    exact ⟨r, hrecord, h.timed.connected r (List.mem_of_find?_eq_some hrecord) hover⟩
  · obtain ⟨first, _, hsent⟩ := (h.streams.accounts id).acknowledges r hrecord
    exact ⟨first, hsent⟩

/-- In every run in which no `DATA` and no `RCLS` is handled for a dropped connection,
dropped connections stay dropped and readable. -/
theorem staysDropped_of_meets {acts : List Action}
    (hmeets : Meets step NothingForDropped initial acts) :
    Always step StaysDropped initial acts := by
  refine always_of_meets (fun s act s' hs hcondition hstep => ?_) dropInvariant_initial hmeets
  have hs' := dropInvariant_step hs hcondition hstep
  exact ⟨⟨keepsDropped_step hcondition hstep, hs'.droppedAreReadable⟩, hs'⟩

/-- A sender sends three bytes and disconnects, the checker ends, and the reader takes
the bytes in two calls and calls once more. -/
theorem staysDropped_after_disconnect :
    Always step StaysDropped initial
      [.mainHandler (loopback 0x9210) rconDatagram, .mrtAccept1Dequeue, .mrtAccept1Enqueue 0,
        .mainHandler (loopback 0x9210) (dataDatagram 1 [0, 0, 0, 0] [65, 66, 67]),
        .mainHandler (loopback 0x9210) rclsDatagram, .checker 0,
        .mrtReceive1 (loopback 0x9210) 2, .mrtReceive1 (loopback 0x9210) 2,
        .mrtReceive1 (loopback 0x9210) 2] :=
  staysDropped_of_meets (by decide +kernel)

/-- Data that arrives after the checker has ended is buffered and acknowledged, and
resets the counter that nobody increments any more. -/
theorem staysDropped_fails_for_late_data :
    ¬Always step StaysDropped initial
      [.mainHandler (loopback 0x9210) rconDatagram, .mrtAccept1Dequeue, .mrtAccept1Enqueue 0,
        .checker 0, .checker 0, .checker 0, .checker 0,
        .mainHandler (loopback 0x9210) (dataDatagram 1 [0, 0, 0, 0] [65, 66, 67])] := by
  let forgotten (r : Sender) : Bool :=
    decide (r.checkerThread = .ended) && decide (r.inactiveTime ≤ timeoutThreshold)
  have hrun : someStep step (fun _ t' => t'.connectedSendersQ.any forgotten) initial
      [.mainHandler (loopback 0x9210) rconDatagram, .mrtAccept1Dequeue, .mrtAccept1Enqueue 0,
        .checker 0, .checker 0, .checker 0, .checker 0,
        .mainHandler (loopback 0x9210) (dataDatagram 1 [0, 0, 0, 0] [65, 66, 67])] = true := by
    decide +kernel
  refine not_always_of_someStep (fun t t' htest hstays => ?_) hrun
  obtain ⟨r, hr, hforgotten⟩ := List.any_eq_true.mp htest
  obtain ⟨hended, hlow⟩ := Bool.and_eq_true_iff.mp hforgotten
  have hdropped : r.checkerThread = .ended := of_decide_eq_true hended
  have habove := hstays.2.inactive r hr hdropped
  exact absurd (of_decide_eq_true hlow) (Int.not_le.mpr habove)

end NetworkLabs.Mrt.Receiver
