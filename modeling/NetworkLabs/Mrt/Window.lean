import NetworkLabs.Foundations.Run
import NetworkLabs.Mrt.SenderEffects

/-!
# The sender's window

The payloads in `sender_buffer` are the latest fragments that `mrt_send` buffered.
Copying a fragment appends to the window and the `ADAT` case drops from its front.
It drops as many payloads as the `ADAT` claims to acknowledge, so the window stays
well formed exactly as long as no `ADAT` acknowledges more than is buffered.
-/

namespace NetworkLabs.Mrt.Sender

open Foundations

/-- The payloads in the buffer, oldest first. A slot that is acknowledged counts until it is
freed. -/
def Connection.window (c : Connection) : List (List Byte) :=
  (List.range (c.lastPayloadIndex + 1).toNat).map c.payload

/-- The index is in range and no payload is longer than its slot. -/
structure Connection.FitsBuffer (c : Connection) : Prop where
  index_lo : -1 ≤ c.lastPayloadIndex
  index_hi : c.lastPayloadIndex < maxPayloadsBufferable
  slots : ∀ i : ℕ, i ≤ c.lastPayloadIndex →
    0 ≤ c.numBytesBuffered i ∧ c.numBytesBuffered i ≤ maxMrtPayloadLength

/-- The window of the sender is well formed: the index is in range, nothing is acknowledged that
was not buffered, and the copies are in bounds. -/
structure WindowWellFormed (s : State) : Prop where
  /-- The index is at least -1. -/
  index_lo : -1 ≤ s.conn.lastPayloadIndex
  /-- The index is below the number of slots. -/
  index_hi : s.conn.lastPayloadIndex < maxPayloadsBufferable
  /-- No fragment is acknowledged that was never buffered. -/
  acknowledged_le : s.conn.lastAcknowledgedFrag ≤ s.bufferedFragments.length
  /-- The copies that the `ADAT` case is about to make are in bounds. -/
  shift_in_bounds : ∀ fragDifference, s.handlerThread = .adatShift fragDifference →
    s.conn.ShiftInBounds fragDifference

/-- The section of `handler` does not acknowledge more fragments than are buffered. -/
def AcknowledgesBuffered (s : State) : HandlerThread → Prop
  | .adatAck frag _ => s.conn.fragDifference frag ≤ s.conn.lastPayloadIndex + 1
  | _ => True

instance (s : State) (thread : HandlerThread) : Decidable (AcknowledgesBuffered s thread) :=
  match thread with
  | .adatAck frag _ =>
    inferInstanceAs (Decidable (s.conn.fragDifference frag ≤ s.conn.lastPayloadIndex + 1))
  | .recvfrom | .closeCheck | .acon | .adatTimeout _ _ | .adatShift _ | .acls | .cleanUp
  | .ended => isTrue trivial

/-- The number of slots that are acknowledged and not yet freed. -/
def HandlerThread.pendingShift : HandlerThread → ℤ
  | .adatShift fragDifference => fragDifference
  | _ => 0

/-- An `ADAT` leaves a shift pending by as much as its number is ahead. -/
theorem pendingShift_adat {fragDifference : ℤ} (h : 0 ≤ fragDifference) :
    (if 0 < fragDifference then HandlerThread.adatShift fragDifference
      else .recvfrom).pendingShift = fragDifference := by
  split <;> simp only [HandlerThread.pendingShift]
  omega

/-- While `handler` does not hold the lock no shift is pending. -/
theorem pendingShift_of_unlocked {s : State} (h : s.receiverLockHeld = false) :
    s.handlerThread.pendingShift = 0 := by
  unfold State.receiverLockHeld at h
  cases hthread : s.handlerThread with
  | adatShift d =>
    rw [hthread] at h
    cases h
  | _ => rfl

/-- The parts of a state that make up the window. -/
def State.windowParts (s : State) : ℤ × Memory Byte × Memory ℤ × ℤ × List (List Byte) × ℤ :=
  (s.conn.lastPayloadIndex, s.conn.senderBuffer, s.conn.numBytesBuffered,
    s.conn.lastAcknowledgedFrag, s.bufferedFragments, s.handlerThread.pendingShift)

/-- A value of type `int`, which has 32 bits. -/
def IsInt (x : ℤ) : Prop := -2 ^ 31 ≤ x ∧ x < 2 ^ 31

/-- A field of a datagram is a value of type `int`. -/
theorem isInt_bytesInt (bs : List Byte) : IsInt (bytesInt bs) := wrapInt_mem _

/-- The fragment number that `handler` read is a value of type `int`. -/
def HandlerThread.FragIsInt : HandlerThread → Prop
  | .adatTimeout frag _ | .adatAck frag _ => IsInt frag
  | _ => True

/-- A call of `mrt_send` that copies has bytes left, so that no empty fragment is buffered. -/
def SendCall.HasBytesLeft : SendCall → Prop
  | .copy args _ copied => copied < args.len
  | _ => True

/-- The invariant behind `WindowWellFormed`. A shift that `handler` has decided on and not yet
done is counted in. -/
structure WindowHolds (s : State) : Prop where
  /-- The index and the slots. -/
  fits : s.conn.FitsBuffer
  /-- The window holds the latest fragments. -/
  suffix : s.conn.window <:+ s.bufferedFragments
  /-- What is acknowledged and what is in the window was buffered. -/
  acknowledged : s.conn.lastAcknowledgedFrag + s.conn.lastPayloadIndex + 1 -
    s.handlerThread.pendingShift ≤ s.bufferedFragments.length
  /-- A pending shift frees slots that are in use. -/
  pending : 0 ≤ s.handlerThread.pendingShift ∧
    s.handlerThread.pendingShift ≤ s.conn.lastPayloadIndex + 1
  /-- The number is a value of type `int`. -/
  acknowledged_int : IsInt s.conn.lastAcknowledgedFrag
  /-- So is a number that was read. -/
  frag_int : s.handlerThread.FragIsInt
  /-- There is something to copy. -/
  copying : s.sendCall.HasBytesLeft

/-- The number of payloads in the window. -/
@[simp] theorem length_window (c : Connection) :
    c.window.length = (c.lastPayloadIndex + 1).toNat := by
  simp [Connection.window]

/-- A payload of the window is the one in the slot of its index. -/
theorem getElem?_window (c : Connection) {i : ℕ} (hi : i ≤ c.lastPayloadIndex) :
    c.window[i]? = some (c.payload i) := by
  have hlt : i < (c.lastPayloadIndex + 1).toNat := by omega
  rw [Connection.window, List.getElem?_map, List.getElem?_range hlt, Option.map_some]

/-- A payload behind the others leaves them unchanged, as it is written to a slot of its own. -/
theorem payload_bufferPayload {c : Connection} (h : c.FitsBuffer) (payload : List Byte) {i : ℕ}
    (hi : i ≤ c.lastPayloadIndex) : (c.bufferPayload payload).payload i = c.payload i := by
  obtain ⟨hlo, hhi⟩ := h.slots i hi
  have hsize : (c.bufferPayload payload).numBytesBuffered i = c.numBytesBuffered i :=
    Memory.write_of_lt _ _ (by omega)
  unfold Connection.payload
  rw [hsize]
  refine Memory.read_write_disjoint _ (Or.inl ?_)
  simp only [maxMrtPayloadLength, maxUdpPayloadLength, mrtHeaderLength, mrtHashLength,
    mrtTypeLength, mrtFragmentLength, mrtWindowsizeLength] at hhi ⊢
  omega

/-- The payload that was put behind the others. -/
theorem payload_bufferPayload_last (c : Connection) (payload : List Byte) :
    (c.bufferPayload payload).payload (c.lastPayloadIndex + 1).toNat = payload := by
  have hsize : (c.bufferPayload payload).numBytesBuffered (c.lastPayloadIndex + 1).toNat =
      payload.length := Memory.write_add _ _ (i := 0) (by simp)
  unfold Connection.payload
  rw [hsize, Int.toNat_natCast]
  exact Memory.read_write _ _ rfl

/-- Buffering a payload appends it to the window, by the two lemmas above. -/
theorem window_bufferPayload {c : Connection} (h : c.FitsBuffer) (payload : List Byte) :
    (c.bufferPayload payload).window = c.window ++ [payload] := by
  have hlo := h.index_lo
  have hcount : ((c.bufferPayload payload).lastPayloadIndex + 1).toNat =
      (c.lastPayloadIndex + 1).toNat + 1 := by
    simp only [Connection.bufferPayload]
    omega
  rw [Connection.window, hcount, List.range_succ, List.map_append, List.map_singleton,
    payload_bufferPayload_last]
  congr 1
  refine List.map_congr_left fun i hi => ?_
  have hlt := List.mem_range.mp hi
  exact payload_bufferPayload h payload (by omega)

/-- The size of a slot after a shift is that of the slot that was moved there. -/
theorem numBytesBuffered_shift {c : Connection} {d : ℤ} {i : ℕ}
    (hi : i + d ≤ c.lastPayloadIndex) :
    (c.shift d).numBytesBuffered i = c.numBytesBuffered (i + d.toNat) := by
  have hmove := @Memory.read_move _ c.numBytesBuffered 0 d.toNat
    (c.lastPayloadIndex - d + 1).toNat i 1 (by omega)
  have hcell : c.numBytesBuffered.move 0 d.toNat (c.lastPayloadIndex - d + 1).toNat i =
      c.numBytesBuffered (i + d.toNat) := by
    simpa [Memory.read, Nat.add_comm] using hmove
  exact hcell

/-- A slot after a shift is the slot that was moved there. -/
theorem payload_shift {c : Connection} (h : c.FitsBuffer) {d : ℤ} (hd : 0 ≤ d) {i : ℕ}
    (hi : i + d ≤ c.lastPayloadIndex) : (c.shift d).payload i = c.payload (i + d.toNat) := by
  obtain ⟨hlo, hhi⟩ := h.slots (i + d.toNat) (by omega)
  have hbytes := @Memory.read_move _ c.senderBuffer 0 (maxMrtPayloadLength * d.toNat)
    (maxMrtPayloadLength * (c.lastPayloadIndex - d + 1).toNat) (i * maxMrtPayloadLength)
    (c.numBytesBuffered (i + d.toNat)).toNat (by
      simp only [maxMrtPayloadLength, maxUdpPayloadLength, mrtHeaderLength, mrtHashLength,
        mrtTypeLength, mrtFragmentLength, mrtWindowsizeLength] at hhi ⊢
      omega)
  have hoffset : maxMrtPayloadLength * d.toNat + i * maxMrtPayloadLength =
      (i + d.toNat) * maxMrtPayloadLength := by
    rw [Nat.add_mul, Nat.mul_comm maxMrtPayloadLength, Nat.add_comm]
  rw [Nat.zero_add, hoffset] at hbytes
  rw [Connection.payload, numBytesBuffered_shift hi]
  exact hbytes

/-- A shift drops payloads from the front of the window. -/
theorem window_shift {c : Connection} (h : c.FitsBuffer) {d : ℤ} (hd : 0 ≤ d)
    (hd' : d ≤ c.lastPayloadIndex + 1) : (c.shift d).window = c.window.drop d.toNat := by
  have hindex : (c.shift d).lastPayloadIndex = c.lastPayloadIndex - d := rfl
  apply List.ext_getElem?
  intro i
  rw [List.getElem?_drop]
  by_cases hi : i + d ≤ c.lastPayloadIndex
  · rw [getElem?_window _ (by omega), getElem?_window _ (by omega), payload_shift h hd hi,
      Nat.add_comm]
  · rw [List.getElem?_eq_none (by rw [length_window]; omega),
      List.getElem?_eq_none (by rw [length_window]; omega)]

/-- A call copies at least one byte and at most a full payload. -/
theorem numBytesToCopy_mem {len : ℤ} {copied : ℕ} (h : copied < len) :
    0 < numBytesToCopy len copied ∧ numBytesToCopy len copied ≤ maxMrtPayloadLength ∧
      numBytesToCopy len copied ≤ len - copied := by
  unfold numBytesToCopy
  split
  · exact ⟨by decide, Int.le_refl _, by omega⟩
  · exact ⟨by omega, by omega, Int.le_refl _⟩

/-- Buffering a payload that fits a slot keeps the buffer in range. -/
theorem Connection.FitsBuffer.bufferPayload {c : Connection} (h : c.FitsBuffer)
    {payload : List Byte} (hspace : c.lastPayloadIndex + 1 < maxPayloadsBufferable)
    (hlen : payload.length ≤ maxMrtPayloadLength) : (c.bufferPayload payload).FitsBuffer := by
  have hlo := h.index_lo
  refine ⟨?_, hspace, fun i hi => ?_⟩
  · simp only [Connection.bufferPayload]
    omega
  · by_cases hold : i ≤ c.lastPayloadIndex
    · have hsize : (c.bufferPayload payload).numBytesBuffered i = c.numBytesBuffered i :=
        Memory.write_of_lt _ _ (by omega)
      rw [hsize]
      exact h.slots i hold
    · have hlast : i = (c.lastPayloadIndex + 1).toNat + 0 := by
        simp only [Connection.bufferPayload] at hi
        omega
      have hsize : (c.bufferPayload payload).numBytesBuffered i = payload.length := by
        rw [hlast]
        exact Memory.write_add _ _ (i := 0) (by simp)
      rw [hsize]
      omega

/-- A shift by at most the window keeps the buffer in range. -/
theorem Connection.FitsBuffer.shift {c : Connection} (h : c.FitsBuffer) {d : ℤ} (hd : 0 ≤ d)
    (hd' : d ≤ c.lastPayloadIndex + 1) : (c.shift d).FitsBuffer := by
  have hhi := h.index_hi
  have hindex : (c.shift d).lastPayloadIndex = c.lastPayloadIndex - d := rfl
  refine ⟨by omega, by omega, fun i hi => ?_⟩
  rw [hindex] at hi
  rw [numBytesBuffered_shift (by omega)]
  exact h.slots (i + d.toNat) (by omega)

/-- It depends on the number of slots in use and their sizes. -/
theorem Connection.FitsBuffer.of_eq {c c' : Connection} (h : c.FitsBuffer)
    (hindex : c'.lastPayloadIndex = c.lastPayloadIndex)
    (hsizes : c'.numBytesBuffered = c.numBytesBuffered) : c'.FitsBuffer := by
  refine ⟨?_, ?_, ?_⟩
  · rw [hindex]
    exact h.index_lo
  · rw [hindex]
    exact h.index_hi
  · rw [hindex, hsizes]
    exact h.slots

/-- A step that leaves the window alone keeps the invariant. -/
theorem WindowHolds.of_eq {s s' : State} (h : WindowHolds s)
    (hsame : s'.windowParts = s.windowParts) (hfrag : s'.handlerThread.FragIsInt)
    (hcopying : s'.sendCall.HasBytesLeft) : WindowHolds s' := by
  simp only [State.windowParts, Prod.mk.injEq] at hsame
  obtain ⟨hindex, hbuffer, hsizes, hack, hfragments, hpending⟩ := hsame
  have hpayload : s'.conn.payload = s.conn.payload := by
    funext i
    simp only [Connection.payload, hbuffer, hsizes]
  have hwindow : s'.conn.window = s.conn.window := by
    simp only [Connection.window, hindex, hpayload]
  refine ⟨h.fits.of_eq hindex hsizes, ?_, ?_, ?_, ?_, hfrag, hcopying⟩
  · rw [hwindow, hfragments]
    exact h.suffix
  · rw [hack, hindex, hpending, hfragments]
    exact h.acknowledged
  · rw [hpending, hindex]
    exact h.pending
  · rw [hack]
    exact h.acknowledged_int

/-- The number of an `ADAT` is ahead by what the difference says, or less after an
overflow. -/
theorem le_add_fragDifference {c : Connection} {frag : ℤ} (hack : IsInt c.lastAcknowledgedFrag)
    (hfrag : IsInt frag) (hlo : 0 ≤ c.fragDifference frag) :
    frag ≤ c.lastAcknowledgedFrag + c.fragDifference frag := by
  obtain ⟨hacklo, hackhi⟩ := hack
  obtain ⟨hfraglo, hfraghi⟩ := hfrag
  rw [Connection.fragDifference, wrapInt_eq] at hlo ⊢
  omega

/-- What is dispatched frees nothing, and its number is a value of type `int`. -/
theorem dispatch_spec (incoming : Memory Byte) :
    (dispatch incoming).pendingShift = 0 ∧ (dispatch incoming).FragIsInt := by
  unfold dispatch
  split
  · split
    · exact ⟨rfl, trivial⟩
    · split
      · exact ⟨rfl, isInt_bytesInt _⟩
      · split <;> exact ⟨rfl, trivial⟩
  · exact ⟨rfl, trivial⟩

/-- A step that acknowledges only buffered fragments keeps the invariant. -/
theorem windowHolds_step {s s' : State} {act : Action} (h : WindowHolds s)
    (hcondition : OnHandler AcknowledgesBuffered s act) (hstep : step s act = .ok s') :
    WindowHolds s' := by
  have hfits := h.fits
  have hack := h.acknowledged
  obtain ⟨hpendingLo, hpendingHi⟩ := h.pending
  cases effect_of_step hstep with
  | idle => exact h
  | polled | requested | disconnecting | disconnectMoved _ | sentRcls | requestedClose
  | senderMoved _ _ | reset _ _ | sentPayload _ _ _ _ | sentEmpty _ _ | ticked _ | flagged _ =>
    exact h.of_eq rfl h.frag_int h.copying
  | submitted _ | estimated _ _ | succeeded _ _ _ | full _ =>
    exact h.of_eq rfl h.frag_int trivial
  | found _ | foundAgain _ =>
    refine h.of_eq rfl h.frag_int ?_
    dsimp only
    split <;> trivial
  | unacknowledged hcall hlock hfinal =>
    refine h.of_eq rfl h.frag_int ?_
    dsimp only
    split
    · rename_i hleft
      exact hleft
    · trivial
  | @buffered args finalFrag copied hcall hspace hbounds =>
    let payload := (args.buffer.drop copied).take (numBytesToCopy args.len copied).toNat
    have hcopying := h.copying
    rw [hcall] at hcopying
    obtain ⟨hpos, hmax, hleft⟩ := numBytesToCopy_mem hcopying
    have hlen : payload.length ≤ maxMrtPayloadLength := by
      have htake : payload.length ≤ (numBytesToCopy args.len copied).toNat :=
        List.length_take_le _ _
      omega
    refine ⟨hfits.bufferPayload hspace hlen, ?_, ?_, ?_, h.acknowledged_int, h.frag_int, trivial⟩
    · obtain ⟨old, hold⟩ := h.suffix
      refine ⟨old, ?_⟩
      rw [window_bufferPayload hfits, ← List.append_assoc, hold]
    · simp only [Connection.bufferPayload, List.length_append, List.length_singleton]
      omega
    · simp only [Connection.bufferPayload]
      omega
  | received hthread | closing hthread _ | reconnected hthread _ | outdated hthread _
  | closedByPeer hthread | freed hthread =>
    refine h.of_eq ?_ trivial h.copying
    simp only [State.windowParts, hthread, HandlerThread.pendingShift]
  | dispatched hthread hclose =>
    obtain ⟨hpending, hfrag⟩ := dispatch_spec s.conn.incomingBuffer
    refine h.of_eq ?_ hfrag h.copying
    simp only [State.windowParts, hthread, hpending]
    rfl
  | connected hthread hfirst =>
    have hlength := h.suffix.length_le
    rw [length_window] at hlength
    rw [hthread] at hpendingHi
    have hzero : IsInt 0 := ⟨by decide, by decide⟩
    refine ⟨⟨hfits.index_lo, hfits.index_hi, hfits.slots⟩, h.suffix, ?_,
      ⟨Int.le_refl 0, hpendingHi⟩, hzero, trivial, h.copying⟩
    simp only [HandlerThread.pendingShift]
    omega
  | @refreshed frag window hthread =>
    have hfrag := h.frag_int
    rw [hthread] at hfrag
    refine h.of_eq ?_ hfrag h.copying
    simp only [State.windowParts, hthread, HandlerThread.pendingShift]
  | @acknowledged frag window hthread hdifference =>
    have hfrag := h.frag_int
    have hle : s.conn.fragDifference frag ≤ s.conn.lastPayloadIndex + 1 := by
      simpa only [OnHandler, hthread, AcknowledgesBuffered] using hcondition
    rw [hthread] at hfrag hack
    have hahead := le_add_fragDifference h.acknowledged_int hfrag hdifference
    have hpending := pendingShift_adat hdifference
    simp only [HandlerThread.pendingShift] at hack
    refine ⟨⟨hfits.index_lo, hfits.index_hi, hfits.slots⟩, h.suffix, ?_, ?_, hfrag, ?_,
      h.copying⟩
    · dsimp only
      rw [hpending]
      omega
    · dsimp only
      rw [hpending]
      exact ⟨hdifference, hle⟩
    · dsimp only
      split <;> trivial
  | @shifted d hthread hbounds =>
    rw [hthread] at hack hpendingLo hpendingHi
    simp only [HandlerThread.pendingShift] at hack hpendingLo hpendingHi
    have hindex : (s.conn.shift d).lastPayloadIndex = s.conn.lastPayloadIndex - d := rfl
    refine ⟨hfits.shift hpendingLo hpendingHi, ?_, ?_, ?_, h.acknowledged_int, trivial,
      h.copying⟩
    · rw [window_shift hfits hpendingLo hpendingHi]
      exact (List.drop_suffix _ _).trans h.suffix
    · have hfreed : s.conn.lastAcknowledgedFrag + (s.conn.lastPayloadIndex - d) + 1 - 0 ≤
          (s.bufferedFragments.length : ℤ) := by omega
      exact hfreed
    · simp only [HandlerThread.pendingShift, hindex]
      omega

/-- The window is empty when the connection is initialized. -/
theorem windowHolds_initial : WindowHolds initial := by
  have hint : IsInt (-1) := ⟨by decide, by decide⟩
  refine ⟨⟨by decide, by decide, fun i hi => ?_⟩, List.suffix_refl [], by decide,
    ⟨by decide, by decide⟩, hint, trivial, trivial⟩
  have hindex : initial.conn.lastPayloadIndex = -1 := rfl
  omega

/-- Freeing slots that are in use copies inside the arrays. -/
theorem shiftInBounds_iff {c : Connection} (h : c.FitsBuffer) {d : ℤ} (hd : 0 ≤ d) :
    c.ShiftInBounds d ↔ d ≤ c.lastPayloadIndex + 1 := by
  have hhi := h.index_hi
  simp only [Connection.ShiftInBounds, Memory.InBounds, maxMrtPayloadLength, maxUdpPayloadLength,
    mrtHeaderLength, mrtHashLength, mrtTypeLength, mrtFragmentLength, mrtWindowsizeLength,
    maxPayloadsBufferable] at hhi ⊢
  omega

/-- The invariant contains the claim about the window. A shift that is pending makes no
difference. -/
theorem WindowHolds.wellFormed {s : State} (h : WindowHolds s) : WindowWellFormed s := by
  obtain ⟨hpendingLo, hpendingHi⟩ := h.pending
  have hack := h.acknowledged
  refine ⟨h.fits.index_lo, h.fits.index_hi, by omega, fun d hthread => ?_⟩
  rw [hthread] at hpendingLo hpendingHi
  exact (shiftInBounds_iff h.fits hpendingLo).mpr hpendingHi

/-- The window stays well formed in exactly the runs in which no `ADAT` acknowledges more
fragments than are buffered. -/
theorem windowWellFormed_iff (acts : List Action) :
    Always step (fun _ s' => WindowWellFormed s') initial acts ↔
      Meets step (OnHandler AcknowledgesBuffered) initial acts := by
  refine always_iff_meets WindowHolds (fun s act s' h hcondition hstep => ?_)
    (fun s act h hbroken => ?_) windowHolds_initial
  · have hnext := windowHolds_step h hcondition hstep
    exact ⟨hnext.wellFormed, hnext⟩
  · cases act with
    | handler =>
      cases hthread : s.handlerThread with
      | adatAck frag window =>
        simp only [OnHandler, hthread, AcknowledgesBuffered, Int.not_le] at hbroken
        have hlo := h.fits.index_lo
        have hpos : 0 < s.conn.fragDifference frag := by omega
        refine ⟨handleAdatAck s frag window, handler_of_adatAck hthread, fun hwell => ?_⟩
        have hshift := hwell.shift_in_bounds (s.conn.fragDifference frag) (by
          rw [handleAdatAck, if_pos (by omega), if_pos hpos])
        have hindex : (handleAdatAck s frag window).conn.lastPayloadIndex =
            s.conn.lastPayloadIndex := by
          rw [handleAdatAck, if_pos (by omega)]
        have hremaining := hshift.2.2.1
        omega
      | _ => exact absurd (by rw [OnHandler, hthread]; trivial) hbroken
    | _ => exact absurd trivial hbroken

/-- An `ADAT` for fragment 1 that arrives when nothing was buffered makes `handler` copy
-488 bytes. -/
theorem windowWellFormed_fails_for_early_adat :
    ¬Always step (fun _ s' => WindowWellFormed s') initial
      [.handlerRecvfrom (aconDatagram 0), .handler, .handler,
        .handlerRecvfrom (adatDatagram 1 2440), .handler, .handler, .handler] := by
  have hrun : someStep step (fun _ s' =>
      decide (s'.handlerThread = .adatShift 1 ∧ ¬s'.conn.ShiftInBounds 1)) initial
      [.handlerRecvfrom (aconDatagram 0), .handler, .handler,
        .handlerRecvfrom (adatDatagram 1 2440), .handler, .handler, .handler] = true := by
    decide +kernel
  refine not_always_of_someStep (fun s s' htest hwell => ?_) hrun
  obtain ⟨hthread, hout⟩ := of_decide_eq_true htest
  exact hout (hwell.shift_in_bounds 1 hthread)

end NetworkLabs.Mrt.Sender
