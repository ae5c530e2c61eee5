import NetworkLabs.Foundations.ByteOrder
import NetworkLabs.Mrt.Transmission

/-!
# Transmissions in either byte order

The `build_x` functions copy integers as the host stores them. Sender and receiver agree as
long as their hosts do: the type is a small number, so whatever the order one of its bytes
is zero, the hash covers at most the type, and the header depends on nothing else.
-/

namespace NetworkLabs.Mrt

open Foundations

variable (order : ByteOrder)

/-- The common body of the `build_x` functions on a host with a byte order. The fields are
given as they are copied. -/
def encode (out : Memory Byte) (type : ℤ) (fields : List (ℕ × List Byte)) (length : ℕ) :
    Memory Byte :=
  let terminated :=
    (writeFields (out.write mrtTypeLocation (order.storeInt type)) fields).write length [0]
  let hashHolder := hash (terminated.read mrtHashLength (length + 1 - mrtHashLength))
  terminated.write 0 (order.store mrtHashLength hashHolder.toNat)

/-- The validation of both handlers on a host with a byte order. -/
def validIn (size : ℕ) (incoming : Memory Byte) : Bool :=
  (hash (incoming.read mrtHashLength (size - mrtHashLength))).toNat ==
    order.load (incoming.read 0 mrtHashLength)

/-- The model of the `build_x` functions is the one of a little-endian host. -/
theorem encode_leastFirst (out : Memory Byte) (type : ℤ) (fields : List (ℕ × List Byte))
    (length : ℕ) : encode .leastFirst out type fields length =
      buildTransmission out type fields length := rfl

/-- And so is that of the validation. -/
theorem validIn_leastFirst (size : ℕ) (incoming : Memory Byte) :
    validIn .leastFirst size incoming = validTransmission size incoming := rfl

/-- The hash and type fields of every transmission of a type. -/
def headerIn (type : ℤ) : List Byte :=
  order.store mrtHashLength (hash (order.storeInt type)).toNat ++ order.storeInt type

/-- The hash and type fields take twelve bytes. -/
@[simp] theorem length_headerIn (type : ℤ) : (headerIn order type).length = 12 := by
  simp [headerIn]

/-- Writing fields behind the type leaves everything before them unchanged. -/
theorem read_writeFields {out : Memory Byte} {fields : List (ℕ × List Byte)} {offset length : ℕ}
    (h : ∀ field ∈ fields, offset + length ≤ field.1) :
    (writeFields out fields).read offset length = out.read offset length := by
  induction fields generalizing out with
  | nil => rfl
  | cons field fields ih =>
    have hrest := @ih (out.write field.1 field.2)
      fun f hf => h f (List.mem_cons_of_mem field hf)
    have hfirst : offset + length ≤ field.1 := h field List.mem_cons_self
    exact hrest.trans (Memory.read_write_disjoint out (Or.inl hfirst))

/-- The datagram of a built transmission is the header of its type followed by
the fields as they stand in the buffer. -/
theorem read_encode (out : Memory Byte) {type : ℤ} {fields : List (ℕ × List Byte)}
    {length : ℕ} (htype : 0 ∈ order.storeInt type) (hfields : ∀ field ∈ fields, 12 ≤ field.1)
    (hlength : 12 ≤ length) :
    (encode order out type fields length).read 0 length = headerIn order type ++
      (writeFields (out.write 8 (order.storeInt type)) fields).read 12 (length - 12) := by
  let m := writeFields (out.write 8 (order.storeInt type)) fields
  let stored := order.store 8 (hash (order.storeInt type)).toNat
  have htypeField : m.read 8 4 = order.storeInt type := by
    rw [read_writeFields hfields]
    exact Memory.read_write out 8 (order.length_storeInt type)
  have hterminated : ∀ offset n, offset + n ≤ length →
      (m.write length [0]).read offset n = m.read offset n :=
    fun _ _ h => Memory.read_write_disjoint m (Or.inl h)
  have hhash : hash ((m.write length [0]).read 8 (length + 1 - 8)) =
      hash (order.storeInt type) := by
    have hsplit : length + 1 - 8 = 4 + (length - 11) := by omega
    rw [hsplit, Memory.read_add, hterminated 8 4 (by omega), htypeField]
    exact hash_append htype _
  have hbuilt : encode order out type fields length = (m.write length [0]).write 0 stored := by
    change (m.write length [0]).write 0 (order.store 8
      (hash ((m.write length [0]).read 8 (length + 1 - 8))).toNat) = _
    rw [hhash]
  have hfront : ((m.write length [0]).write 0 stored).read 0 8 = stored :=
    Memory.read_write _ 0 (order.length_store 8 _)
  have hback : ((m.write length [0]).write 0 stored).read 8 (4 + (length - 12)) =
      order.storeInt type ++ m.read 12 (length - 12) := by
    rw [Memory.read_write_disjoint _ (Or.inr (by simp [stored])), hterminated 8 _ (by omega),
      Memory.read_add, htypeField]
  have hsplit : length = 8 + (4 + (length - 12)) := by omega
  calc (encode order out type fields length).read 0 length
      = ((m.write length [0]).write 0 stored).read 0 (8 + (4 + (length - 12))) := by
        rw [hbuilt, ← hsplit]
    _ = stored ++ (order.storeInt type ++ m.read 12 (length - 12)) := by
        rw [Memory.read_add, hfront, hback]
    _ = headerIn order type ++ m.read 12 (length - 12) := (List.append_assoc _ _ _).symm

/-- The fragment number behind the type, a window size or stale bytes, and a payload. -/
theorem read_data_fields (m : Memory Byte) {frag : List Byte} (hfrag : frag.length = 4)
    (payload : List Byte) :
    ((m.write 12 frag).write 20 payload).read 12 (8 + payload.length) =
      frag ++ (m.read 16 4 ++ payload) := by
  have hfirst : ((m.write 12 frag).write 20 payload).read 12 4 = frag := by
    rw [Memory.read_write_disjoint _ (Or.inl (by omega))]
    exact Memory.read_write m 12 hfrag
  have hstale : ((m.write 12 frag).write 20 payload).read 16 4 = m.read 16 4 := by
    rw [Memory.read_write_disjoint _ (Or.inl (by omega)),
      Memory.read_write_disjoint _ (Or.inr (by omega))]
  have hpayload : ((m.write 12 frag).write 20 payload).read 20 payload.length = payload :=
    Memory.read_write _ 20 rfl
  rw [show 8 + payload.length = 4 + (4 + payload.length) by omega, Memory.read_add,
    Memory.read_add, hfirst, hstale, hpayload]

/-- The two integer fields of an acknowledgement. -/
theorem read_acknowledgement_fields (m : Memory Byte) {frag window : List Byte}
    (hfrag : frag.length = 4) (hwindow : window.length = 4) :
    ((m.write 12 frag).write 16 window).read 12 8 = frag ++ window := by
  have hfirst : ((m.write 12 frag).write 16 window).read 12 4 = frag := by
    rw [Memory.read_write_disjoint _ (Or.inl (by omega))]
    exact Memory.read_write m 12 hfrag
  rw [show 8 = 4 + 4 from rfl, Memory.read_add, hfirst]
  exact congrArg _ (Memory.read_write _ 16 hwindow)

/-! ### Received copies -/

/-- The received part of the incoming buffer is the datagram. -/
theorem read_receiveInto (incoming : Memory Byte) {dg : Datagram} {offset n : ℕ}
    (h : offset + n ≤ dg.length) :
    (receiveInto incoming dg).read offset n = (dg.drop offset).take n := by
  have hinside := @Memory.read_write_inside _ incoming 0 offset n dg h
  rw [receiveInto, Memory.read_write_disjoint _ (Or.inl h)]
  simpa using hinside

/-- A stored hash is loaded again on a host of the same byte order. -/
theorem load_store_toNat (h : BitVec 64) : order.load (order.store 8 h.toNat) = h.toNat := by
  have hbound : h.toNat < 256 ^ 8 := h.isLt
  exact (order.load_store 8 _).trans (Nat.mod_eq_of_lt hbound)

/-- The validation of a buffer whose type field contains a zero byte. -/
theorem validIn_iff {incoming : Memory Byte} {hashField typeField : List Byte} {size : ℕ}
    (hsize : 12 ≤ size) (hhash : hashField.length = 8) (htype : 0 ∈ typeField)
    (h : incoming.read 0 12 = hashField ++ typeField) :
    validIn order size incoming = true ↔ (hash typeField).toNat = order.load hashField := by
  have hstored : incoming.read 0 8 = hashField := by
    rw [← Memory.take_read incoming (show 8 ≤ 12 by decide), h]
    exact List.take_left' hhash
  have htypeField : incoming.read 8 4 = typeField := by
    rw [← Memory.drop_read incoming (show 8 ≤ 12 by decide), h]
    exact List.drop_left' hhash
  have hsplit : size - 8 = 4 + (size - 12) := by omega
  have hcovered : hash (incoming.read 8 (size - 8)) = hash typeField := by
    rw [hsplit, Memory.read_add, htypeField]
    exact hash_append htype _
  simp only [validIn, mrtHashLength, hcovered, hstored, beq_iff_eq]

/-- A buffer that starts with a header passes the validation. -/
theorem validIn_of_header {incoming : Memory Byte} {type : ℤ} {size : ℕ}
    (htype : 0 ∈ order.storeInt type) (hsize : 12 ≤ size)
    (h : incoming.read 0 12 = headerIn order type) : validIn order size incoming = true :=
  (validIn_iff order hsize (order.length_store 8 _) htype h).mpr (load_store_toNat order _).symm

/-- The type field of a buffer that starts with a header. -/
theorem loadInt_of_header {incoming : Memory Byte} {type : ℤ} (htype : wrapInt type = type)
    (h : incoming.read 0 12 = headerIn order type) :
    order.loadInt (incoming.read mrtTypeLocation mrtTypeLength) = type := by
  have htypeField : incoming.read 8 4 = order.storeInt type := by
    rw [← Memory.drop_read incoming (show 8 ≤ 12 by decide), h]
    exact List.drop_left' (order.length_store 8 _)
  exact (congrArg order.loadInt htypeField).trans ((order.loadInt_storeInt type).trans htype)

/-- A received transmission starts with its header. -/
theorem read_receiveInto_headerIn (incoming : Memory Byte) (type : ℤ) (body : List Byte) :
    (receiveInto incoming (headerIn order type ++ body)).read 0 12 = headerIn order type := by
  rw [read_receiveInto incoming (by simp)]
  exact List.take_left' (length_headerIn order type)

/-- The fields of a received transmission stand behind its header. -/
theorem read_receiveInto_fields (incoming : Memory Byte) (type : ℤ) {body : List Byte}
    {offset n : ℕ} (h : offset + n ≤ body.length) :
    (receiveInto incoming (headerIn order type ++ body)).read (12 + offset) n =
      (body.drop offset).take n := by
  rw [read_receiveInto incoming (by simp; omega), ← List.drop_drop,
    List.drop_left' (length_headerIn order type)]

end NetworkLabs.Mrt
