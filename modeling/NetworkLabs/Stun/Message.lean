import Mathlib.Algebra.GroupWithZero.Nat
import NetworkLabs.Stun.Response

/-!
# Messages of any size

A `Binding Response` with attributes of any types and any total size that the length field
can tell. A response that fits the buffer is such a message.
-/

namespace NetworkLabs.Stun

open Foundations

/-- An attribute of any type, with a value that is padded to whole words. -/
structure RawAttribute where
  type : BitVec 16
  value : List Byte
  padded : 4 ∣ value.length

/-- The type and the length of an attribute, two bytes each. -/
def RawAttribute.header (a : RawAttribute) : List Byte :=
  bigEndian 2 a.type.toNat ++ bigEndian 2 a.value.length

/-- An attribute as it is sent, with its value behind its header. -/
def RawAttribute.encode (a : RawAttribute) : List Byte := a.header ++ a.value

/-- Attributes as they are sent, without anything between them. -/
def encodeRaw (attributes : List RawAttribute) : List Byte :=
  attributes.flatMap RawAttribute.encode

/-- A `Binding Response`; its identification is the magic cookie and the transaction ID. -/
structure Message where
  identification : List Byte
  attributes : List RawAttribute
  length_identification : identification.length = 16
  length_lt : (encodeRaw attributes).length < 2 ^ 16

/-- The header of a message: the type of a success response, the length of all attributes, and
the identification. -/
def Message.header (r : Message) : List Byte :=
  bigEndian 2 0x0101 ++ bigEndian 2 (encodeRaw r.attributes).length ++ r.identification

/-- A message as it is sent, with its attributes behind its header. -/
def Message.encode (r : Message) : List Byte := r.header ++ encodeRaw r.attributes

/-- Where an attribute starts: each earlier one takes its length and four bytes more. -/
def Message.start (r : Message) (k : ℕ) : ℕ :=
  stunHeaderSize + ((r.attributes.take k).map fun a => a.value.length + 4).sum

/-- The header of an attribute is its type and its length. -/
@[simp] theorem RawAttribute.length_header (a : RawAttribute) : a.header.length = 4 := by
  simp [RawAttribute.header]

/-- An attribute takes its length and four bytes more. -/
@[simp] theorem RawAttribute.length_encode (a : RawAttribute) :
    a.encode.length = a.value.length + 4 := by
  rw [RawAttribute.encode, List.length_append, a.length_header, Nat.add_comm]

/-- Attributes are sent one after the other, so that a list in two parts is sent in
two parts. -/
@[simp] theorem encodeRaw_append (as bs : List RawAttribute) :
    encodeRaw (as ++ bs) = encodeRaw as ++ encodeRaw bs :=
  List.flatMap_append

/-- The first attribute is sent first, and the others follow it. -/
@[simp] theorem encodeRaw_cons (a : RawAttribute) (as : List RawAttribute) :
    encodeRaw (a :: as) = a.encode ++ encodeRaw as := rfl

/-- The size of some attributes is the sum of theirs. -/
theorem length_encodeRaw (as : List RawAttribute) :
    (encodeRaw as).length = (as.map fun a => a.value.length + 4).sum := by
  induction as with
  | nil => rfl
  | cons a as ih =>
    rw [encodeRaw_cons, List.length_append, a.length_encode, ih, List.map_cons, List.sum_cons]

/-- The header of a message has the size that the handlers skip before the first attribute. -/
@[simp] theorem Message.length_header (r : Message) : r.header.length = stunHeaderSize := by
  simp [Message.header, r.length_identification, stunHeaderSize]

/-- A message is its header and its attributes, and its length is the sum of theirs. -/
theorem Message.length_encode (r : Message) :
    r.encode.length = stunHeaderSize + (encodeRaw r.attributes).length := by
  rw [Message.encode, List.length_append, r.length_header]

/-- The first attribute follows the header, whatever attributes there are. -/
@[simp] theorem Message.start_zero (r : Message) : r.start 0 = stunHeaderSize := rfl

/-- The next attribute follows the value of the one before. -/
theorem Message.start_succ (r : Message) {k : ℕ} {a : RawAttribute}
    (ha : r.attributes[k]? = some a) : r.start (k + 1) = r.start k + (a.value.length + 4) := by
  rw [Message.start, Message.start, List.take_add_one, ha, List.map_append, List.sum_append]
  simp [Nat.add_assoc]

/-- What stands before and behind the header of an attribute. -/
theorem Message.encode_split (r : Message) {k : ℕ} {a : RawAttribute}
    (ha : r.attributes[k]? = some a) :
    ∃ before behind, r.encode = before ++ a.encode ++ behind ∧ before.length = r.start k := by
  obtain ⟨hk, rfl⟩ := List.getElem?_eq_some_iff.mp ha
  refine ⟨r.header ++ encodeRaw (r.attributes.take k), encodeRaw (r.attributes.drop (k + 1)),
    ?_, ?_⟩
  · have hsplit : r.attributes =
        r.attributes.take k ++ r.attributes[k] :: r.attributes.drop (k + 1) := by simp
    have hencode : encodeRaw r.attributes = encodeRaw (r.attributes.take k) ++
        (r.attributes[k].encode ++ encodeRaw (r.attributes.drop (k + 1))) := by
      rw [← encodeRaw_cons, ← encodeRaw_append, ← hsplit]
    rw [Message.encode, hencode, List.append_assoc, List.append_assoc]
  · rw [List.length_append, r.length_header, length_encodeRaw, Message.start]

/-- An attribute ends where the message does or before. -/
theorem Message.start_add_le (r : Message) {k : ℕ} {a : RawAttribute}
    (ha : r.attributes[k]? = some a) :
    r.start k + (a.value.length + 4) ≤ stunHeaderSize + (encodeRaw r.attributes).length := by
  obtain ⟨before, behind, hencode, hbefore⟩ := r.encode_split ha
  have hlength := congrArg List.length hencode
  rw [r.length_encode, List.length_append, List.length_append, a.length_encode, hbefore] at hlength
  omega

/-- Behind the last attribute the message ends: that start is the number of its bytes. -/
theorem Message.start_length (r : Message) :
    r.start r.attributes.length = stunHeaderSize + (encodeRaw r.attributes).length := by
  rw [Message.start, List.take_length, length_encodeRaw]

/-- Each attribute starts before the end of the message. -/
theorem Message.start_lt_iff (r : Message) {k : ℕ} (hk : k ≤ r.attributes.length) :
    r.start k < stunHeaderSize + (encodeRaw r.attributes).length ↔ k < r.attributes.length := by
  constructor
  · intro hlt
    by_contra hnot
    obtain rfl : k = r.attributes.length := by omega
    rw [r.start_length] at hlt
    omega
  · intro hlt
    have hend := r.start_add_le (List.getElem?_eq_getElem hlt)
    omega

/-- The values of all attributes are multiples of four bytes. -/
theorem Attribute.padded_value (a : Attribute) : 4 ∣ a.value.length := by
  cases a with
  | mappedAddress address => simp [Attribute.value]
  | xorMappedAddress address => simp [Attribute.value]
  | other type value irrelevant padded => exact padded

/-- An attribute without regard to its meaning, as the loop sees it. -/
def Attribute.raw (a : Attribute) : RawAttribute :=
  { type := BitVec.ofNat 16 a.type, value := a.value, padded := a.padded_value }

/-- Without regard to its meaning an attribute is sent as the same bytes. -/
theorem Attribute.encode_raw (a : Attribute) : a.raw.encode = a.encode := by
  have htype : (BitVec.ofNat 16 a.type).toNat = a.type := by
    rw [BitVec.toNat_ofNat]
    exact Nat.mod_eq_of_lt a.type_lt
  rw [RawAttribute.encode, RawAttribute.header, Attribute.raw, htype, Attribute.encode]

/-- So are the attributes of a response. -/
theorem encodeRaw_map_raw (as : List Attribute) :
    encodeRaw (as.map Attribute.raw) = encodeAttributes as := by
  simp [encodeRaw, encodeAttributes, List.flatMap_map, Attribute.encode_raw]

/-- A response that fits the buffer, as a message of any attributes. -/
def Response.message (r : Response) : Message where
  identification := bigEndian 4 stunMagicCookie ++ r.transactionId
  attributes := r.attributes.map Attribute.raw
  length_identification := by simp [r.length_transactionId]
  length_lt := by
    have hfits := r.fits
    have hbuffer : stunBufferSize = stunHeaderSize + 1000 := rfl
    rw [encodeRaw_map_raw]
    omega

/-- It is sent as the same bytes. -/
theorem Response.encode_message (r : Response) : r.message.encode = r.encode := by
  simp [Message.encode, Message.header, Response.message, encodeRaw_map_raw, Response.encode,
    Response.header]

end NetworkLabs.Stun
