import NetworkLabs.Foundations.Run
import NetworkLabs.Mrt.ReceiverEffects
import NetworkLabs.Mrt.Sender

/-!
# Which alterations the checksum detects

The hash of a transmission ends at its first zero byte, and that is the second byte
of the type field. So of all alterations of one byte exactly those of the hash field
and of the first two bytes of the type field are detected. An alteration that is
detected leaves everything but the incoming buffer unchanged.
-/

namespace NetworkLabs.Mrt

open Foundations

/-- The transmissions that the `build_x` functions assemble, with those of their arguments that
are not fixed. -/
inductive Build
  | rcon
  | dataEmpty
  | data (frag : ℤ) (payload : List Byte) (length_le : payload.length ≤ maxMrtPayloadLength)
  | rcls
  | acon (frag : ℤ)
  | adat (frag window : ℤ)
  | acls

/-- The datagram that is sent after a transmission was built in an outgoing buffer. -/
def Build.datagram (out : Memory Byte) : Build → Datagram
  | .rcon => (buildRcon out).read 0 (mrtHashLength + mrtTypeLength + mrtFragmentLength)
  | .dataEmpty => (buildDataEmpty out).read 0 (mrtHashLength + mrtTypeLength + mrtFragmentLength)
  | .data frag payload _ =>
    (buildData out frag payload).read 0 (mrtPayloadLocation + payload.length)
  | .rcls => (buildRcls out).read 0 (mrtHashLength + mrtTypeLength)
  | .acon frag => (buildAcon out frag).read 0 mrtHeaderLength
  | .adat frag window => (buildAdat out frag window).read 0 mrtHeaderLength
  | .acls => (buildAcls out).read 0 (mrtHashLength + mrtTypeLength)

/-- Both handlers find a datagram invalid and drop it, whatever they received before. -/
structure Rejected (dg : Datagram) : Prop where
  /-- The validation of `main_handler` fails. -/
  main_handler_validation : ∀ incoming,
    validTransmission (maxUdpPayloadLength + 1) (receiveInto incoming (Receiver.stored dg)) = false
  /-- The validation of `handler` fails. -/
  handler_validation : ∀ incoming,
    validTransmission (mrtHeaderLength + 1) (receiveInto incoming (dg.take mrtHeaderLength)) = false
  /-- An open receiver changes nothing but its incoming buffer. -/
  main_handler_drops : ∀ (s : Receiver.State) addr, s.closed = false → s.shouldClose = false →
    Receiver.step s (.mainHandler addr dg) =
      .ok { s with incomingBuffer := receiveInto s.incomingBuffer (Receiver.stored dg) }
  /-- An open connection changes nothing but its incoming buffer. -/
  handler_drops : ∀ s : Sender.State, s.handlerThread = .recvfrom → s.conn.shouldClose = false →
    run Sender.step s [.handlerRecvfrom dg, .handler] =
      .ok { s with conn := { s.conn with
        incomingBuffer := receiveInto s.conn.incomingBuffer (dg.take mrtHeaderLength) } }

/-- A failed validation in both handlers is all that rejection needs. -/
theorem rejected_of_invalid {dg : Datagram}
    (hmain : ∀ incoming,
      validTransmission (maxUdpPayloadLength + 1) (receiveInto incoming (Receiver.stored dg)) =
        false)
    (hhandler : ∀ incoming,
      validTransmission (mrtHeaderLength + 1) (receiveInto incoming (dg.take mrtHeaderLength)) =
        false) : Rejected dg := by
  refine ⟨hmain, hhandler, fun s addr hclosed hclose => ?_, fun s hthread hclose => ?_⟩
  · have hopen : ¬s.closed = true := by simp [hclosed]
    have hnotClosing : ¬s.shouldClose = true := by simp [hclose]
    rw [Receiver.step, if_neg hopen, Receiver.mainHandler, if_neg hnotClosing]
    simp only [hmain, Bool.false_eq_true, if_false]
  · have hrecv : Sender.handlerRecvfrom s dg =
        { s with
          conn := { s.conn with
            incomingBuffer := receiveInto s.conn.incomingBuffer (dg.take mrtHeaderLength) }
          handlerThread := .closeCheck } := by
      rw [Sender.handlerRecvfrom, hthread]
    have hdispatch := hhandler s.conn.incomingBuffer
    simp only [run, Sender.step, hrecv, Sender.handler, hclose, Bool.false_eq_true, if_false,
      Sender.dispatch, hdispatch, hthread]

/-! ### The hash of a type field -/

/-- One iteration of the loop of `hash` on a value that stands for an integer. -/
theorem hash_iteration (h : ℤ) (c : Byte) :
    (BitVec.ofInt 64 h <<< 5) + BitVec.ofInt 64 h + c.signExtend 64 =
      BitVec.ofInt 64 (33 * h + c.toInt) := by
  have hshift : BitVec.ofInt 64 h <<< 5 = BitVec.ofInt 64 32 * BitVec.ofInt 64 h := by
    rw [BitVec.shiftLeft_eq_mul_twoPow, BitVec.mul_comm]
    rfl
  have hsign : c.signExtend 64 = BitVec.ofInt 64 c.toInt := rfl
  rw [hshift, hsign, ← BitVec.ofInt_mul, ← BitVec.ofInt_add, ← BitVec.ofInt_add]
  congr 1
  omega

/-- Small integers are represented faithfully by an `unsigned long`, also when they are
negative. -/
theorem ofInt_eq_ofInt_iff {x y : ℤ} (hx : -2 ^ 63 ≤ x ∧ x < 2 ^ 63)
    (hy : -2 ^ 63 ≤ y ∧ y < 2 ^ 63) : BitVec.ofInt 64 x = BitVec.ofInt 64 y ↔ x = y := by
  constructor
  · intro h
    have hint := congrArg BitVec.toInt h
    rwa [BitVec.toInt_ofInt, BitVec.toInt_ofInt, Int.bmod_eq_of_le (by omega) (by omega),
      Int.bmod_eq_of_le (by omega) (by omega)] at hint
  · rintro rfl
    rfl

/-- The hash of the empty string, which is the start value of djb2. -/
theorem hash_nul (ys : List Byte) : hash (0 :: ys) = BitVec.ofInt 64 5381 := rfl

/-- The hash of a string of one character, of which no wrap-around can be seen. -/
theorem hash_char {c : Byte} (hc : c ≠ 0) (ys : List Byte) :
    hash (c :: 0 :: ys) = BitVec.ofInt 64 (33 * 5381 + c.toInt) := by
  have hone := hash_iteration 5381 c
  rw [hash, hashFrom, if_neg hc, hashFrom, if_pos rfl]
  exact hone

/-- The hash of a string of two characters, which is as far as a hash without collisions is
needed. -/
theorem hash_char_char {c d : Byte} (hc : c ≠ 0) (hd : d ≠ 0) (ys : List Byte) :
    hash (c :: d :: 0 :: ys) = BitVec.ofInt 64 (33 * (33 * 5381 + c.toInt) + d.toInt) := by
  have hone : ((5381 : BitVec 64) <<< 5) + 5381 + c.signExtend 64 =
      BitVec.ofInt 64 (33 * 5381 + c.toInt) := hash_iteration 5381 c
  rw [hash, hashFrom, if_neg hc, hashFrom, if_neg hd, hashFrom, if_pos rfl, hone]
  exact hash_iteration (33 * 5381 + c.toInt) d

/-- The value of a `char`, which is signed. -/
theorem char_mem (c : Byte) : -128 ≤ c.toInt ∧ c.toInt < 128 :=
  ⟨BitVec.le_toInt c, BitVec.toInt_lt⟩

/-- Of the bytes of a type field the hash covers the first one and its terminator. -/
theorem hash_set_typeField {c b : Byte} (hc : c ≠ 0) {j : ℕ} (hj : j < 4)
    (hb : [c, 0, 0, 0][j]? ≠ some b) :
    hash ([c, 0, 0, 0].set j b) = hash [c, 0, 0, 0] ↔ 2 ≤ j := by
  obtain ⟨hclo, hchi⟩ := char_mem c
  obtain ⟨hblo, hbhi⟩ := char_mem b
  rw [hash_char hc]
  match j, hj with
  | 0, _ =>
    refine iff_of_false (fun heq => ?_) (by omega)
    by_cases hzero : b = 0
    · rw [hzero, List.set_cons_zero, hash_nul, ofInt_eq_ofInt_iff (by omega) (by omega)] at heq
      omega
    · rw [List.set_cons_zero, hash_char hzero, ofInt_eq_ofInt_iff (by omega) (by omega)] at heq
      exact hb (congrArg some (BitVec.eq_of_toInt_eq (by omega)))
  | 1, _ =>
    refine iff_of_false (fun heq => ?_) (by omega)
    have hnonzero : b ≠ 0 := fun hzero => hb (by simp [hzero])
    rw [show [c, 0, 0, 0].set 1 b = [c, b, 0, 0] from rfl, hash_char_char hc hnonzero,
      ofInt_eq_ofInt_iff (by omega) (by omega)] at heq
    omega
  | 2, _ => exact iff_of_true (hash_char hc _) (by omega)
  | 3, _ => exact iff_of_true (hash_char hc _) (by omega)

/-- The bytes of a transmission's type. The second one is the NUL at which the hash ends. -/
theorem intBytes_type {type : ℤ} (hlo : 1 ≤ type) (hhi : type ≤ 6) :
    ∃ c : Byte, c ≠ 0 ∧ intBytes type = [c, 0, 0, 0] := by
  obtain rfl | rfl | rfl | rfl | rfl | rfl :
    type = 1 ∨ type = 2 ∨ type = 3 ∨ type = 4 ∨ type = 5 ∨ type = 6 := by omega
  all_goals exact ⟨_, by decide, rfl⟩

/-! ### Altered transmissions -/

/-- After an alteration of one byte a buffer is valid exactly when the byte is none of
the first ten. -/
theorem validTransmission_altered_iff {incoming : Memory Byte} {type : ℤ} {body : List Byte}
    {i size : ℕ} {b : Byte} (hlo : 1 ≤ type) (hhi : type ≤ 6) (hsize : 12 ≤ size)
    (hb : (header type ++ body)[i]? ≠ some b)
    (h : incoming.read 0 12 = ((header type ++ body).set i b).take 12) :
    validTransmission size incoming = true ↔ 10 ≤ i := by
  obtain ⟨c, hc, hbytes⟩ := intBytes_type hlo hhi
  let stored := littleEndian 8 (hash [c, 0, 0, 0]).toNat
  have hstored : stored.length = 8 := length_littleEndian 8 _
  have hvalue : ofLittleEndian stored = (hash [c, 0, 0, 0]).toNat := ofLittleEndian_toNat _
  have hheader : header type = stored ++ [c, 0, 0, 0] := by
    rw [header, hbytes]
    rfl
  rw [hheader, List.append_assoc] at h hb
  by_cases hhashField : i < 8
  · have hfront : incoming.read 0 12 = stored.set i b ++ [c, 0, 0, 0] := by
      rw [h, List.set_append_left _ _ (by omega), ← List.append_assoc]
      exact List.take_left' (by simp [hstored])
    rw [validTransmission_iff hsize (by simpa using hstored) (by simp) hfront, ← hvalue]
    refine iff_of_false (fun heq => hb ?_) (by omega)
    have hsame := ofLittleEndian_injective (by simp) heq
    rw [List.getElem?_append_left (by omega), hsame]
    exact List.getElem?_set_self (by omega)
  · obtain ⟨j, rfl⟩ := Nat.exists_eq_add_of_le (Nat.le_of_not_lt hhashField)
    by_cases htypeField : j < 4
    · have hfront : incoming.read 0 12 = stored ++ [c, 0, 0, 0].set j b := by
        rw [h, List.set_append_right _ _ (by omega), hstored, Nat.add_sub_cancel_left,
          List.set_append_left _ _ (by simpa using htypeField), ← List.append_assoc]
        exact List.take_left' (by simp [hstored])
      have hzero : (0 : Byte) ∈ [c, 0, 0, 0].set j b := by
        obtain rfl | rfl | rfl | rfl : j = 0 ∨ j = 1 ∨ j = 2 ∨ j = 3 := by omega
        all_goals simp
      have hbyte : [c, 0, 0, 0][j]? ≠ some b := by
        rwa [List.getElem?_append_right (by omega), hstored, Nat.add_sub_cancel_left,
          List.getElem?_append_left (by simpa using htypeField)] at hb
      rw [validTransmission_iff hsize hstored hzero hfront, hvalue, ← BitVec.toNat_eq,
        hash_set_typeField hc htypeField hbyte]
      omega
    · have hfront : incoming.read 0 12 = stored ++ [c, 0, 0, 0] := by
        rw [h, List.set_append_right _ _ (by omega), hstored, Nat.add_sub_cancel_left,
          List.set_append_right _ _ (by simpa using htypeField), ← List.append_assoc]
        exact List.take_left' (by simp [hstored])
      rw [validTransmission_iff hsize hstored (by simp) hfront, hvalue]
      exact iff_of_true rfl (by omega)

/-- Every built transmission is a header followed by its other fields. -/
theorem Build.datagram_eq (build : Build) (out : Memory Byte) :
    ∃ type body, 1 ≤ type ∧ type ≤ 6 ∧ build.datagram out = header type ++ body := by
  cases build with
  | rcon => exact ⟨mrtRcon, _, by decide, by decide, read_buildRcon out⟩
  | dataEmpty => exact ⟨mrtData, _, by decide, by decide, read_buildDataEmpty out⟩
  | data frag payload length_le =>
    exact ⟨mrtData, _, by decide, by decide, read_buildData out frag payload⟩
  | rcls =>
    exact ⟨mrtRcls, [], by decide, by decide,
      (read_buildRcls out).trans (List.append_nil _).symm⟩
  | acon frag => exact ⟨mrtAcon, _, by decide, by decide, read_buildAcon out frag⟩
  | adat frag window => exact ⟨mrtAdat, _, by decide, by decide, read_buildAdat out frag window⟩
  | acls =>
    exact ⟨mrtAcls, [], by decide, by decide,
      (read_buildAcls out).trans (List.append_nil _).symm⟩

/-- A transmission altered in one byte is rejected exactly when the byte belongs to the
hash field or is one of the first two of the type field. -/
theorem rejected_altered_iff (build : Build) (out : Memory Byte) {i : ℕ} {b : Byte}
    (hb : (build.datagram out)[i]? ≠ some b) :
    Rejected ((build.datagram out).set i b) ↔ i < mrtHashLength + 2 := by
  obtain ⟨type, body, hlo, hhi, hbuilt⟩ := build.datagram_eq out
  rw [hbuilt] at hb ⊢
  have hlength : 12 ≤ ((header type ++ body).set i b).length := by simp
  have htake : ∀ n incoming, 12 ≤ n →
      (receiveInto incoming (((header type ++ body).set i b).take n)).read 0 12 =
        ((header type ++ body).set i b).take 12 := by
    intro n incoming hn
    rw [read_receiveInto incoming (by rw [List.length_take]; omega), List.drop_zero,
      List.take_take, Nat.min_eq_left hn]
  have hvalid : ∀ n size incoming, 12 ≤ n → 12 ≤ size → (validTransmission size
      (receiveInto incoming (((header type ++ body).set i b).take n)) = true ↔ 10 ≤ i) :=
    fun n size incoming hn hsize =>
      validTransmission_altered_iff hlo hhi hsize hb (htake n incoming hn)
  constructor
  · intro hrejected
    have hinvalid := hrejected.main_handler_validation (Memory.fill 0)
    have hnot := mt (hvalid maxUdpPayloadLength _ (Memory.fill 0) (by decide) (by decide)).mpr
      (Bool.eq_false_iff.mp hinvalid)
    exact Nat.lt_of_not_le hnot
  · intro hlow
    have hnot : ¬10 ≤ i := Nat.not_le_of_lt hlow
    refine rejected_of_invalid (fun incoming => ?_) fun incoming => ?_
    · exact Bool.eq_false_iff.mpr (mt (hvalid _ _ incoming (by decide) (by decide)).mp hnot)
    · exact Bool.eq_false_iff.mpr (mt (hvalid _ _ incoming (by decide) (by decide)).mp hnot)

/-- An `RCON` whose type was changed to an unknown one is rejected. -/
theorem rejected_altered_type : Rejected ((Build.rcon.datagram (Memory.fill 0)).set 8 7) :=
  (rejected_altered_iff .rcon (Memory.fill 0) (by decide +kernel)).mpr (by decide)

/-- An `RCON` whose fragment number was changed from 0 to 1 is accepted. -/
theorem rejected_fails_for_altered_frag :
    (Build.rcon.datagram (Memory.fill 0))[12]? ≠ some 1 ∧
      ¬Rejected ((Build.rcon.datagram (Memory.fill 0)).set 12 1) := by
  refine ⟨by decide +kernel, fun hrejected => ?_⟩
  have hvalid : validTransmission (maxUdpPayloadLength + 1) (receiveInto (Memory.fill 0)
      (Receiver.stored ((Build.rcon.datagram (Memory.fill 0)).set 12 1))) = true := by
    decide +kernel
  exact Bool.false_ne_true ((hrejected.main_handler_validation _).symm.trans hvalid)

end NetworkLabs.Mrt
