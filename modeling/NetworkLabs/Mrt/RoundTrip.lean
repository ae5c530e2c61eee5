import NetworkLabs.Mrt.Messages

/-!
# Decoding undoes encoding

Every transmission that one side builds, in an outgoing buffer that held anything before and
cut at the length that is passed to `sendto`, is accepted by the other side, whose incoming
buffer held anything before, and the fields it reads are those that were written.
-/

namespace NetworkLabs.Mrt

open Foundations

/-- The transmissions of a sender, with the numbers and the payload that it builds them from. -/
inductive SenderTransmission
  | rcon (initialFrag : BitVec 32)
  | dataEmpty
  | data (sendingFrag : BitVec 32) (payload : List Byte)
    (hpayload : 0 < payload.length ∧ payload.length ≤ maxMrtPayloadLength)
  | rcls

/-- The transmissions of a receiver, with the arguments of their `build_x` functions. -/
inductive ReceiverTransmission
  | acon (initialFrag initialWindowSize : BitVec 32)
  | adat (receivedFrag currWindowSize : BitVec 32)
  | acls

/-! ### The encoders -/

namespace SenderTransmission

/-- The type that is written, which is the same for empty and meaningful data. -/
def type : SenderTransmission → ℤ
  | rcon _ => mrtRcon
  | dataEmpty => mrtData
  | data _ _ _ => mrtData
  | rcls => mrtRcls

/-- The fragment number that is written, if the transmission has one. -/
def frag : SenderTransmission → Option (BitVec 32)
  | rcon initialFrag => some initialFrag
  | dataEmpty => some (-1)
  | data sendingFrag _ _ => some sendingFrag
  | rcls => none

/-- The payload that is written, if the transmission has one. An empty transmission has none. -/
def payload : SenderTransmission → Option (List Byte)
  | data _ payload _ => some payload
  | rcon _ | dataEmpty | rcls => none

/-- The length that is passed to `sendto`, which for a `DATA` ends behind the payload. -/
def length : SenderTransmission → ℕ
  | rcon _ => mrtHashLength + mrtTypeLength + mrtFragmentLength
  | dataEmpty => mrtHashLength + mrtTypeLength + mrtFragmentLength
  | data _ payload _ => mrtPayloadLocation + payload.length
  | rcls => mrtHashLength + mrtTypeLength

variable (order : ByteOrder)

/-- The fields behind the type and their locations, in the order in which `build_x`
writes them. -/
def fields : SenderTransmission → List (ℕ × List Byte)
  | rcon initialFrag => [(mrtFragmentLocation, order.storeInt initialFrag.toInt)]
  | dataEmpty => [(mrtFragmentLocation, order.storeInt (-1))]
  | data sendingFrag payload _ =>
    [(mrtFragmentLocation, order.storeInt sendingFrag.toInt), (mrtPayloadLocation, payload)]
  | rcls => []

/-- The `build_x` function of the transmission; all of them terminate at the length sent. -/
def build (out : Memory Byte) (tx : SenderTransmission) : Memory Byte :=
  encode order out tx.type (tx.fields order) tx.length

/-- On a little-endian host these are the functions of the sender. -/
theorem build_leastFirst (out : Memory Byte) :
    (rcon 0).build .leastFirst out = buildRcon out ∧
      dataEmpty.build .leastFirst out = buildDataEmpty out ∧
      (∀ frag payload hpayload, (data frag payload hpayload).build .leastFirst out =
        buildData out frag.toInt payload) ∧
      rcls.build .leastFirst out = buildRcls out :=
  ⟨rfl, rfl, fun _ _ _ => rfl, rfl⟩

end SenderTransmission

namespace ReceiverTransmission

/-- The type that is written by each of the three functions of the receiver module. -/
def type : ReceiverTransmission → ℤ
  | acon _ _ => mrtAcon
  | adat _ _ => mrtAdat
  | acls => mrtAcls

/-- The fragment number and the window size that are written. -/
def numbers : ReceiverTransmission → Option (BitVec 32 × BitVec 32)
  | acon initialFrag initialWindowSize => some (initialFrag, initialWindowSize)
  | adat receivedFrag currWindowSize => some (receivedFrag, currWindowSize)
  | acls => none

/-- The length that is passed to `sendto` by the receiver module. -/
def length : ReceiverTransmission → ℕ
  | acon _ _ => mrtHeaderLength
  | adat _ _ => mrtHeaderLength
  | acls => mrtHashLength + mrtTypeLength

variable (order : ByteOrder)

/-- The fields behind the type and their locations. Both acknowledgements have a number and a
window size. -/
def fields : ReceiverTransmission → List (ℕ × List Byte)
  | acon initialFrag initialWindowSize =>
    [(mrtFragmentLocation, order.storeInt initialFrag.toInt),
      (mrtWindowsizeLocation, order.storeInt initialWindowSize.toInt)]
  | adat receivedFrag currWindowSize =>
    [(mrtFragmentLocation, order.storeInt receivedFrag.toInt),
      (mrtWindowsizeLocation, order.storeInt currWindowSize.toInt)]
  | acls => []

/-- The `build_x` function of the transmission; all of them terminate at the length sent. -/
def build (out : Memory Byte) (tx : ReceiverTransmission) : Memory Byte :=
  encode order out tx.type (tx.fields order) tx.length

/-- On a little-endian host these are the functions of the receiver. -/
theorem build_leastFirst (out : Memory Byte) :
    (∀ frag : BitVec 32, (acon frag receiverMaxWindowSize).build .leastFirst out =
      buildAcon out frag.toInt) ∧
      (∀ frag window : BitVec 32, (adat frag window).build .leastFirst out =
        buildAdat out frag.toInt window.toInt) ∧
      acls.build .leastFirst out = buildAcls out :=
  ⟨fun _ => rfl, fun _ _ => rfl, rfl⟩

end ReceiverTransmission

/-! ### The decoders -/

section Decoders

variable (order : ByteOrder) (incoming : Memory Byte)

/-- What `main_handler` reads from a transmission before it looks at the type; the payload ends
where the datagram does. -/
structure SenderFields where
  type : ℤ
  frag : ℤ
  payload : List Byte

/-- `main_handler` up to the dispatch: `recvfrom`, the terminator, the validation and the fields
that the cases use. -/
def decodeMain (dg : Datagram) : Option SenderFields :=
  let received := dg.take maxUdpPayloadLength
  let m := receiveInto incoming received
  if validIn order (maxUdpPayloadLength + 1) m then
    some {
      type := order.loadInt (m.read mrtTypeLocation mrtTypeLength)
      frag := order.loadInt (m.read mrtFragmentLocation mrtFragmentLength)
      payload := m.read mrtPayloadLocation ((received.length : ℤ) - mrtHeaderLength).toNat }
  else none

/-- What `handler` reads from a transmission before it looks at the type. It reads all three
fields of any transmission. -/
structure ReceiverFields where
  type : ℤ
  frag : ℤ
  window : ℤ

/-- `handler` up to the dispatch, on a buffer that may hold anything. It receives the bytes of a
header at most. -/
def decodeHandler (dg : Datagram) : Option ReceiverFields :=
  let m := receiveInto incoming (dg.take mrtHeaderLength)
  if validIn order (mrtHeaderLength + 1) m then
    some {
      type := order.loadInt (m.read mrtTypeLocation mrtTypeLength)
      frag := order.loadInt (m.read mrtFragmentLocation mrtFragmentLength)
      window := order.loadInt (m.read mrtWindowsizeLocation mrtWindowsizeLength) }
  else none

/-- On a little-endian host `main_handler` dispatches on what is decoded. -/
theorem decodeMain_leastFirst (s : Receiver.State) (dg : Datagram) :
    decodeMain .leastFirst s.incomingBuffer dg = (Receiver.dispatchedType s dg).map fun type =>
      ⟨type, Receiver.dispatchedFrag s dg, Receiver.dispatchedPayload s dg⟩ := by
  unfold decodeMain Receiver.dispatchedType Receiver.stored
  dsimp only
  rw [validIn_leastFirst]
  split <;> rfl

/-- On a little-endian host `handler` dispatches on what is decoded. -/
theorem decodeHandler_leastFirst (dg : Datagram) :
    Sender.dispatch (receiveInto incoming (dg.take mrtHeaderLength)) =
      (decodeHandler .leastFirst incoming dg).elim .recvfrom fun d =>
        if d.type = mrtAcon then .acon
        else if d.type = mrtAdat then .adatTimeout d.frag d.window
        else if d.type = mrtAcls then .acls
        else .recvfrom := by
  have hdecode : ∀ m, (if validIn .leastFirst (mrtHeaderLength + 1) m then
      some (ReceiverFields.mk (ByteOrder.leastFirst.loadInt (m.read mrtTypeLocation mrtTypeLength))
        (ByteOrder.leastFirst.loadInt (m.read mrtFragmentLocation mrtFragmentLength))
        (ByteOrder.leastFirst.loadInt (m.read mrtWindowsizeLocation mrtWindowsizeLength)))
      else none) = if validTransmission (mrtHeaderLength + 1) m then
        some ⟨typeHolder m, fragHolder m, winsizeHolder m⟩ else none := by
    intro m
    rw [validIn_leastFirst]
    rfl
  rw [decodeHandler, hdecode, Sender.dispatch]
  split
  · rw [Option.elim_some]
  · rfl

/-- A header and what follows it are decoded by `main_handler`. -/
theorem decodeMain_header {type : ℤ} (hzero : 0 ∈ order.storeInt type)
    (htype : wrapInt type = type) {body : List Byte} (hbody : body.length ≤ 496) :
    ∃ d, decodeMain order incoming (headerIn order type ++ body) = some d ∧ d.type = type ∧
      (4 ≤ body.length → d.frag = order.loadInt (body.take 4)) ∧
      (8 ≤ body.length → d.payload = body.drop 8) := by
  have hall : (headerIn order type ++ body).take maxUdpPayloadLength =
      headerIn order type ++ body := by
    apply List.take_of_length_le
    rw [List.length_append, length_headerIn, maxUdpPayloadLength]
    omega
  have hread := read_receiveInto_headerIn order incoming type body
  have hvalid := validIn_of_header order hzero (show 12 ≤ maxUdpPayloadLength + 1 by decide) hread
  simp only [decodeMain, hall]
  rw [if_pos hvalid]
  refine ⟨_, rfl, ?_, fun hfrag => ?_, fun hpayload => ?_⟩
  · dsimp only
    exact loadInt_of_header order htype hread
  · have hfield := read_receiveInto_fields order incoming type (show 0 + 4 ≤ body.length from hfrag)
    rw [List.drop_zero] at hfield
    dsimp only
    exact congrArg order.loadInt hfield
  · have hfield := read_receiveInto_fields order incoming type
      (show 8 + (body.length - 8) ≤ body.length by omega)
    rw [List.take_of_length_le (Nat.le_of_eq List.length_drop)] at hfield
    have hlength : (((headerIn order type ++ body).length : ℤ) - mrtHeaderLength).toNat =
        body.length - 8 := by
      rw [List.length_append, length_headerIn]
      simp only [mrtHeaderLength, mrtHashLength, mrtTypeLength, mrtFragmentLength,
        mrtWindowsizeLength]
      omega
    dsimp only
    rw [hlength]
    exact hfield

/-- A header and what follows it are decoded by `handler`. -/
theorem decodeHandler_header {type : ℤ} (hzero : 0 ∈ order.storeInt type)
    (htype : wrapInt type = type) {body : List Byte} (hbody : body.length ≤ 8) :
    ∃ d, decodeHandler order incoming (headerIn order type ++ body) = some d ∧ d.type = type ∧
      (body.length = 8 → d.frag = order.loadInt (body.take 4) ∧
        d.window = order.loadInt (body.drop 4)) := by
  have hall : (headerIn order type ++ body).take mrtHeaderLength =
      headerIn order type ++ body := by
    apply List.take_of_length_le
    simp only [List.length_append, length_headerIn, mrtHeaderLength, mrtHashLength, mrtTypeLength,
      mrtFragmentLength, mrtWindowsizeLength]
    omega
  have hread := read_receiveInto_headerIn order incoming type body
  have hvalid := validIn_of_header order hzero (show 12 ≤ mrtHeaderLength + 1 by decide) hread
  simp only [decodeHandler, hall]
  rw [if_pos hvalid]
  refine ⟨_, rfl, ?_, fun hlength => ⟨?_, ?_⟩⟩
  · dsimp only
    exact loadInt_of_header order htype hread
  · have hfield := read_receiveInto_fields order incoming type
      (show 0 + 4 ≤ body.length by omega)
    rw [List.drop_zero] at hfield
    dsimp only
    exact congrArg order.loadInt hfield
  · have hfield := read_receiveInto_fields order incoming type
      (show 4 + 4 ≤ body.length by omega)
    rw [List.take_of_length_le (by rw [List.length_drop]; omega)] at hfield
    dsimp only
    exact congrArg order.loadInt hfield

end Decoders

/-! ### The round trip -/

section RoundTrip

variable (order : ByteOrder) (out incoming : Memory Byte)

/-- A type that has a zero byte has one in either order. -/
theorem zero_mem_storeInt {type : ℤ} (h : 0 ∈ intBytes type) : 0 ∈ order.storeInt type :=
  order.mem_arrange.mpr h

/-- The datagram of a transmission that ends with its fragment number. -/
theorem read_encode_frag {type : ℤ} (hzero : 0 ∈ intBytes type) (frag : ℤ) :
    (encode order out type [(12, order.storeInt frag)] 16).read 0 16 =
      headerIn order type ++ order.storeInt frag := by
  have h := read_encode order out (zero_mem_storeInt order hzero)
    (show ∀ field ∈ [(12, order.storeInt frag)], 12 ≤ field.1 by simp) (show 12 ≤ 16 by decide)
  refine h.trans (congrArg _ ?_)
  exact Memory.read_write _ 12 (order.length_storeInt frag)

/-- The datagram of a transmission that ends with its type. -/
theorem read_encode_type {type : ℤ} (hzero : 0 ∈ intBytes type) :
    (encode order out type [] 12).read 0 12 = headerIn order type ++ [] :=
  read_encode order out (zero_mem_storeInt order hzero)
    (show ∀ field ∈ ([] : List (ℕ × List Byte)), 12 ≤ field.1 by simp) (Nat.le_refl 12)

/-- The datagram of a transmission with a fragment number and a payload. -/
theorem read_encode_data {type : ℤ} (hzero : 0 ∈ intBytes type) (frag : ℤ) (payload : List Byte) :
    ∃ stale, stale.length = 4 ∧
      (encode order out type [(12, order.storeInt frag), (20, payload)]
        (20 + payload.length)).read 0 (20 + payload.length) =
        headerIn order type ++ (order.storeInt frag ++ (stale ++ payload)) := by
  have h := read_encode order out (zero_mem_storeInt order hzero)
    (show ∀ field ∈ [(12, order.storeInt frag), (20, payload)], 12 ≤ field.1 by simp)
    (show 12 ≤ 20 + payload.length by omega)
  rw [show 20 + payload.length - 12 = 8 + payload.length by omega] at h
  have hfields := read_data_fields (out.write 8 (order.storeInt type))
    (order.length_storeInt frag) payload
  exact ⟨_, Memory.length_read _ 16 4, h.trans (congrArg _ hfields)⟩

/-- The datagram of a transmission with a fragment number and a window size. -/
theorem read_encode_acknowledgement {type : ℤ} (hzero : 0 ∈ intBytes type) (frag window : ℤ) :
    (encode order out type [(12, order.storeInt frag), (16, order.storeInt window)] 20).read 0 20 =
      headerIn order type ++ (order.storeInt frag ++ order.storeInt window) := by
  have h := read_encode order out (zero_mem_storeInt order hzero)
    (show ∀ field ∈ [(12, order.storeInt frag), (16, order.storeInt window)], 12 ≤ field.1 by simp)
    (show 12 ≤ 20 by decide)
  refine h.trans (congrArg _ ?_)
  exact read_acknowledgement_fields _ (order.length_storeInt frag) (order.length_storeInt window)

/-- What `main_handler` decodes from the transmissions of a sender is what the sender wrote. -/
theorem decodeMain_build (tx : SenderTransmission) :
    ∃ d, decodeMain order incoming ((tx.build order out).read 0 tx.length) = some d ∧
      d.type = tx.type ∧ (∀ frag ∈ tx.frag, d.frag = frag.toInt) ∧
      ∀ payload ∈ tx.payload, d.payload = payload := by
  have hfrag : ∀ {type : ℤ} (frag : BitVec 32), 0 ∈ intBytes type → wrapInt type = type →
      ∃ d, decodeMain order incoming
        ((encode order out type [(12, order.storeInt frag.toInt)] 16).read 0 16) = some d ∧
          d.type = type ∧ d.frag = frag.toInt := by
    intro type frag hzero htype
    rw [read_encode_frag order out hzero]
    obtain ⟨d, hd, htype', hfield, -⟩ := decodeMain_header order incoming
      (zero_mem_storeInt order hzero) htype (show (order.storeInt frag.toInt).length ≤ 496 by simp)
    refine ⟨d, hd, htype', (hfield (by simp)).trans ?_⟩
    rw [List.take_of_length_le (by simp), ByteOrder.loadInt_storeInt_toInt]
  cases tx with
  | rcon initialFrag =>
    obtain ⟨d, hd, htype, hfield⟩ := hfrag initialFrag (show 0 ∈ intBytes mrtRcon by decide) rfl
    refine ⟨d, hd, htype, ?_, ?_⟩
    · rintro frag ⟨⟩
      exact hfield
    · rintro payload ⟨⟩
  | dataEmpty =>
    obtain ⟨d, hd, htype, hfield⟩ := hfrag (-1) (show 0 ∈ intBytes mrtData by decide) rfl
    refine ⟨d, hd, htype, ?_, ?_⟩
    · rintro frag ⟨⟩
      exact hfield
    · rintro payload ⟨⟩
  | data sendingFrag payload hpayload =>
    obtain ⟨stale, hstale, hread⟩ := read_encode_data order out
      (show 0 ∈ intBytes mrtData by decide) sendingFrag.toInt payload
    have hlength : (order.storeInt sendingFrag.toInt ++ (stale ++ payload)).length =
        8 + payload.length := by
      simp only [List.length_append, ByteOrder.length_storeInt, hstale]
      omega
    have hmax : payload.length ≤ 488 := hpayload.2
    obtain ⟨d, hd, htype, hfield, hrest⟩ := decodeMain_header order incoming
      (zero_mem_storeInt order (show 0 ∈ intBytes mrtData by decide)) rfl
      (show (order.storeInt sendingFrag.toInt ++ (stale ++ payload)).length ≤ 496 by omega)
    refine ⟨d, (congrArg _ hread).trans hd, htype, ?_, ?_⟩
    · rintro frag ⟨⟩
      rw [hfield (by omega), List.take_left' (order.length_storeInt _),
        ByteOrder.loadInt_storeInt_toInt]
    · rintro payload ⟨⟩
      rw [hrest (by omega), ← List.append_assoc]
      exact List.drop_left' (by simp [hstale])
  | rcls =>
    obtain ⟨d, hd, htype, -⟩ := decodeMain_header order incoming
      (zero_mem_storeInt order (show 0 ∈ intBytes mrtRcls by decide)) rfl
      (show ([] : List Byte).length ≤ 496 by simp)
    refine ⟨d, (congrArg _ (read_encode_type order out (by decide))).trans hd, htype, ?_, ?_⟩
    · rintro frag ⟨⟩
    · rintro payload ⟨⟩

/-- What `handler` decodes from the transmissions of a receiver is what the receiver wrote. -/
theorem decodeHandler_build (tx : ReceiverTransmission) :
    ∃ d, decodeHandler order incoming ((tx.build order out).read 0 tx.length) = some d ∧
      d.type = tx.type ∧
      ∀ numbers ∈ tx.numbers, d.frag = numbers.1.toInt ∧ d.window = numbers.2.toInt := by
  have hnumbers : ∀ {type : ℤ} (frag window : BitVec 32), 0 ∈ intBytes type →
      wrapInt type = type → ∃ d, decodeHandler order incoming
        ((encode order out type [(12, order.storeInt frag.toInt),
          (16, order.storeInt window.toInt)] 20).read 0 20) = some d ∧
        d.type = type ∧ d.frag = frag.toInt ∧ d.window = window.toInt := by
    intro type frag window hzero htype
    rw [read_encode_acknowledgement order out hzero]
    obtain ⟨d, hd, htype', hfields⟩ := decodeHandler_header order incoming
      (zero_mem_storeInt order hzero) htype
      (show (order.storeInt frag.toInt ++ order.storeInt window.toInt).length ≤ 8 by simp)
    obtain ⟨hfrag, hwindow⟩ := hfields (by simp)
    rw [List.take_left' (order.length_storeInt _), ByteOrder.loadInt_storeInt_toInt] at hfrag
    rw [List.drop_left' (order.length_storeInt _), ByteOrder.loadInt_storeInt_toInt] at hwindow
    exact ⟨d, hd, htype', hfrag, hwindow⟩
  cases tx with
  | acon initialFrag initialWindowSize =>
    obtain ⟨d, hd, htype, hfields⟩ :=
      hnumbers initialFrag initialWindowSize (show 0 ∈ intBytes mrtAcon by decide) rfl
    refine ⟨d, hd, htype, ?_⟩
    rintro numbers ⟨⟩
    exact hfields
  | adat receivedFrag currWindowSize =>
    obtain ⟨d, hd, htype, hfields⟩ :=
      hnumbers receivedFrag currWindowSize (show 0 ∈ intBytes mrtAdat by decide) rfl
    refine ⟨d, hd, htype, ?_⟩
    rintro numbers ⟨⟩
    exact hfields
  | acls =>
    obtain ⟨d, hd, htype, -⟩ := decodeHandler_header order incoming
      (zero_mem_storeInt order (show 0 ∈ intBytes mrtAcls by decide)) rfl
      (show ([] : List Byte).length ≤ 8 by simp)
    refine ⟨d, (congrArg _ (read_encode_type order out (by decide))).trans hd, htype, ?_⟩
    rintro numbers ⟨⟩

end RoundTrip

/-- On hosts of the same byte order both sides decode what the other side built, whatever the
two buffers held before. -/
theorem decode_build (order : ByteOrder) (out incoming : Memory Byte) :
    (∀ tx : SenderTransmission, ∃ d,
      decodeMain order incoming ((tx.build order out).read 0 tx.length) = some d ∧
        d.type = tx.type ∧ (∀ frag ∈ tx.frag, d.frag = frag.toInt) ∧
        ∀ payload ∈ tx.payload, d.payload = payload) ∧
    (∀ tx : ReceiverTransmission, ∃ d,
      decodeHandler order incoming ((tx.build order out).read 0 tx.length) = some d ∧
        d.type = tx.type ∧
        ∀ numbers ∈ tx.numbers, d.frag = numbers.1.toInt ∧ d.window = numbers.2.toInt) :=
  ⟨decodeMain_build order out incoming, decodeHandler_build order out incoming⟩

end NetworkLabs.Mrt
