import NetworkLabs.Mrt.Encoding

/-!
# What the built transmissions look like

The type is a small number stored in four bytes, so its second byte is zero and
the hash of every transmission covers the first byte of the type only. Hence a
datagram is a header determined by its type alone, followed by the fields as
they stand in the outgoing buffer, and a received copy is always accepted.
-/

namespace NetworkLabs.Mrt

open Foundations

/-- The hash and type fields of every transmission of a type. -/
def header (type : ℤ) : List Byte :=
  littleEndian mrtHashLength (hash (intBytes type)).toNat ++ intBytes type

/-- The datagram `build_rcon` leaves in the outgoing buffer. It is the same for every sender. -/
def rconDatagram : Datagram := header mrtRcon ++ intBytes 0

/-- The datagram `build_data_empty` leaves in the outgoing buffer, with no window size and no
payload. -/
def dataEmptyDatagram : Datagram := header mrtData ++ intBytes (-1)

/-- The datagram `build_data` leaves in the outgoing buffer; `stale` stands in
the window size field, which is not written. -/
def dataDatagram (frag : ℤ) (stale payload : List Byte) : Datagram :=
  header mrtData ++ (intBytes frag ++ (stale ++ payload))

/-- The datagram `build_rcls` leaves in the outgoing buffer, which is a header without further
fields. -/
def rclsDatagram : Datagram := header mrtRcls

/-- The datagram `build_acon` leaves in the outgoing buffer. It always advertises the full
window. -/
def aconDatagram (frag : ℤ) : Datagram :=
  header mrtAcon ++ (intBytes frag ++ intBytes receiverMaxWindowSize)

/-- The datagram `build_adat` leaves in the outgoing buffer, for a number and a window size. -/
def adatDatagram (frag window : ℤ) : Datagram :=
  header mrtAdat ++ (intBytes frag ++ intBytes window)

/-- The datagram `build_acls` leaves in the outgoing buffer, which is a header without further
fields. -/
def aclsDatagram : Datagram := header mrtAcls

/-- The hash and type fields take twelve bytes, whatever the type is. -/
@[simp] theorem length_header (type : ℤ) : (header type).length = 12 := by simp [header]

/-- The datagram of a built transmission is the header of its type followed by
the fields as they stand in the buffer. -/
theorem read_buildTransmission (out : Memory Byte) {type : ℤ} {fields : List (ℕ × List Byte)}
    {length : ℕ} (htype : 0 ∈ intBytes type) (hfields : ∀ field ∈ fields, 12 ≤ field.1)
    (hlength : 12 ≤ length) :
    (buildTransmission out type fields length).read 0 length =
      header type ++ (writeFields (out.write 8 (intBytes type)) fields).read 12 (length - 12) :=
  read_encode .leastFirst out htype hfields hlength

/-- `build_rcon` produces its datagram whatever the buffer held before. -/
@[simp] theorem read_buildRcon (out : Memory Byte) :
    (buildRcon out).read 0 16 = rconDatagram := by
  have h := read_buildTransmission out (show 0 ∈ intBytes mrtRcon by decide)
    (show ∀ field ∈ [(12, intBytes 0)], 12 ≤ field.1 by simp) (show 12 ≤ 16 by decide)
  refine h.trans (congrArg _ ?_)
  exact Memory.read_write _ 12 (length_intBytes 0)

/-- `build_data_empty` produces its datagram whatever the buffer held before. -/
@[simp] theorem read_buildDataEmpty (out : Memory Byte) :
    (buildDataEmpty out).read 0 16 = dataEmptyDatagram := by
  have h := read_buildTransmission out (show 0 ∈ intBytes mrtData by decide)
    (show ∀ field ∈ [(12, intBytes (-1))], 12 ≤ field.1 by simp) (show 12 ≤ 16 by decide)
  refine h.trans (congrArg _ ?_)
  exact Memory.read_write _ 12 (length_intBytes (-1))

/-- `build_data` produces its datagram, with what the buffer held before in the
window size field. -/
theorem read_buildData (out : Memory Byte) (frag : ℤ) (payload : List Byte) :
    (buildData out frag payload).read 0 (20 + payload.length) =
      dataDatagram frag (out.read 16 4) payload := by
  have h := read_buildTransmission out (show 0 ∈ intBytes mrtData by decide)
    (show ∀ field ∈ [(12, intBytes frag), (20, payload)], 12 ≤ field.1 by simp)
    (show 12 ≤ 20 + payload.length by omega)
  refine h.trans (congrArg _ ?_)
  have hstale : (out.write 8 (intBytes mrtData)).read 16 4 = out.read 16 4 :=
    Memory.read_write_disjoint _ (Or.inr (by simp))
  rw [show 20 + payload.length - 12 = 8 + payload.length by omega, ← hstale]
  exact read_data_fields _ (length_intBytes frag) payload

/-- `build_rcls` produces its datagram whatever the buffer held before. -/
@[simp] theorem read_buildRcls (out : Memory Byte) :
    (buildRcls out).read 0 12 = rclsDatagram := by
  have h := read_buildTransmission out (show 0 ∈ intBytes mrtRcls by decide)
    (show ∀ field ∈ ([] : List (ℕ × List Byte)), 12 ≤ field.1 by simp) (Nat.le_refl 12)
  exact h.trans (List.append_nil _)

/-- `build_acon` produces its datagram whatever the buffer held before. -/
@[simp] theorem read_buildAcon (out : Memory Byte) (frag : ℤ) :
    (buildAcon out frag).read 0 20 = aconDatagram frag := by
  have h := read_buildTransmission out (show 0 ∈ intBytes mrtAcon by decide)
    (show ∀ field ∈ [(12, intBytes frag), (16, intBytes receiverMaxWindowSize)], 12 ≤ field.1
      by simp) (show 12 ≤ 20 by decide)
  exact h.trans
    (congrArg _ (read_acknowledgement_fields _ (length_intBytes frag) (length_intBytes _)))

/-- `build_adat` produces its datagram whatever the buffer held before. -/
@[simp] theorem read_buildAdat (out : Memory Byte) (frag window : ℤ) :
    (buildAdat out frag window).read 0 20 = adatDatagram frag window := by
  have h := read_buildTransmission out (show 0 ∈ intBytes mrtAdat by decide)
    (show ∀ field ∈ [(12, intBytes frag), (16, intBytes window)], 12 ≤ field.1 by simp)
    (show 12 ≤ 20 by decide)
  exact h.trans
    (congrArg _ (read_acknowledgement_fields _ (length_intBytes frag) (length_intBytes window)))

/-- `build_acls` produces its datagram whatever the buffer held before. -/
@[simp] theorem read_buildAcls (out : Memory Byte) :
    (buildAcls out).read 0 12 = aclsDatagram := by
  have h := read_buildTransmission out (show 0 ∈ intBytes mrtAcls by decide)
    (show ∀ field ∈ ([] : List (ℕ × List Byte)), 12 ≤ field.1 by simp) (Nat.le_refl 12)
  exact h.trans (List.append_nil _)

/-! ### Fields of a datagram -/

/-- The type field of a datagram, as an `int`. It reads what is there of a datagram that is too
short. -/
def typeField (dg : Datagram) : ℤ :=
  bytesInt ((dg.drop mrtTypeLocation).take mrtTypeLength)

/-- The fragment number field of a datagram, as an `int`. -/
def fragField (dg : Datagram) : ℤ :=
  bytesInt ((dg.drop mrtFragmentLocation).take mrtFragmentLength)

/-- The window size field of a datagram, as an `int`. -/
def windowField (dg : Datagram) : ℤ :=
  bytesInt ((dg.drop mrtWindowsizeLocation).take mrtWindowsizeLength)

/-- The type field of a datagram that starts with a header. -/
@[simp] theorem typeField_header (type : ℤ) (body : List Byte) :
    typeField (header type ++ body) = wrapInt type := by
  have hhash : (littleEndian mrtHashLength (hash (intBytes type)).toNat).length = 8 :=
    length_littleEndian 8 _
  have hfield : ((header type ++ body).drop 8).take 4 = intBytes type := by
    rw [header, List.append_assoc, List.drop_left' hhash]
    exact List.take_left' (length_intBytes type)
  simp only [typeField, mrtTypeLocation, mrtHashLength, mrtTypeLength, hfield, bytesInt_intBytes]

/-- The type field of an `ACON`, whatever number it carries. -/
@[simp] theorem typeField_aconDatagram (frag : ℤ) : typeField (aconDatagram frag) = mrtAcon :=
  typeField_header mrtAcon _

/-- The type field of an `ACLS`, which ends behind it. -/
@[simp] theorem typeField_aclsDatagram : typeField aclsDatagram = mrtAcls :=
  typeField_header mrtAcls []

/-- The fragment number field of a datagram that starts with a header. -/
theorem fragField_header (type frag : ℤ) (rest : List Byte) :
    fragField (header type ++ (intBytes frag ++ rest)) = wrapInt frag := by
  have hfield : ((header type ++ (intBytes frag ++ rest)).drop 12).take 4 = intBytes frag := by
    rw [List.drop_left' (length_header type)]
    exact List.take_left' (length_intBytes frag)
  exact (congrArg bytesInt hfield).trans (bytesInt_intBytes frag)

/-- The fragment number field of an `ADAT`. -/
@[simp] theorem fragField_adatDatagram (frag window : ℤ) :
    fragField (adatDatagram frag window) = wrapInt frag := fragField_header mrtAdat frag _

/-- The window size field of an `ADAT`. -/
@[simp] theorem windowField_adatDatagram (frag window : ℤ) :
    windowField (adatDatagram frag window) = wrapInt window := by
  have hfront : (header mrtAdat ++ intBytes frag).length = 16 := by simp
  have hfield : ((adatDatagram frag window).drop 16).take 4 = intBytes window := by
    rw [adatDatagram, ← List.append_assoc, List.drop_left' hfront]
    exact List.take_of_length_le (by simp)
  exact (congrArg bytesInt hfield).trans (bytesInt_intBytes window)

/-! ### Received copies -/

/-- A stored hash is read back, as it has no more than the eight bytes that are stored. -/
theorem ofLittleEndian_toNat (h : BitVec 64) : ofLittleEndian (littleEndian 8 h.toNat) = h.toNat :=
  load_store_toNat .leastFirst h

/-- The validation of a buffer whose type field contains a zero byte. -/
theorem validTransmission_iff {incoming : Memory Byte} {hashField typeField : List Byte} {size : ℕ}
    (hsize : 12 ≤ size) (hhash : hashField.length = 8) (htype : 0 ∈ typeField)
    (h : incoming.read 0 12 = hashField ++ typeField) :
    validTransmission size incoming = true ↔ (hash typeField).toNat = ofLittleEndian hashField :=
  validIn_iff .leastFirst hsize hhash htype h

/-- A buffer that starts with a header passes the validation. -/
theorem validTransmission_of_header {incoming : Memory Byte} {type : ℤ} {size : ℕ}
    (htype : 0 ∈ intBytes type) (hsize : 12 ≤ size) (h : incoming.read 0 12 = header type) :
    validTransmission size incoming = true :=
  validIn_of_header .leastFirst htype hsize h

/-- The type field of a buffer that starts with a header. -/
theorem typeHolder_of_header {incoming : Memory Byte} {type : ℤ} (htype : wrapInt type = type)
    (h : incoming.read 0 12 = header type) : typeHolder incoming = type :=
  loadInt_of_header .leastFirst htype h

/-- A received transmission starts with its header, whatever the buffer held before. -/
theorem read_receiveInto_header (incoming : Memory Byte) (type : ℤ) (body : List Byte) :
    (receiveInto incoming (header type ++ body)).read 0 12 = header type :=
  read_receiveInto_headerIn .leastFirst incoming type body

/-- The fields of a received transmission stand behind its header. -/
theorem read_receiveInto_body (incoming : Memory Byte) (type : ℤ) {body : List Byte}
    {offset n : ℕ} (h : offset + n ≤ body.length) :
    (receiveInto incoming (header type ++ body)).read (12 + offset) n =
      (body.drop offset).take n :=
  read_receiveInto_fields .leastFirst incoming type h

end NetworkLabs.Mrt
