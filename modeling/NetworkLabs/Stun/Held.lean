import NetworkLabs.Stun.Host

/-!
# Attributes in the buffer

Where the buffer holds the bytes of an attribute, a host of either byte order reads its fields.
-/

namespace NetworkLabs.Stun

open Foundations

/-- The buffer holds an attribute at a place, with all of its bytes. -/
def HoldsAttribute (s : State) (location : ℕ) (a : Attribute) : Prop :=
  s.responseBuffer.read location a.encode.length = a.encode

variable {s : State} {location : ℕ} {a : Attribute}

/-- The type field is compared in network order. -/
theorem HoldsAttribute.type_eq_iff (ha : HoldsAttribute s location a) (order : ByteOrder) {n : ℕ}
    (hn : n < 256 ^ 2) :
    Host.word order s.responseBuffer location 2 = Host.htons order n ↔ a.type = n := by
  have hword : Host.word order s.responseBuffer location 2 = Host.htons order a.type := by
    have h := Host.word_of_read order ha [] (bigEndian 2 a.type) _ (List.append_assoc _ _ _)
    rwa [length_bigEndian] at h
  rw [hword]
  constructor
  · intro h
    have hbytes := order.load_injective (by simp) h
    exact bigEndian_injective a.type_lt hn hbytes
  · rintro rfl
    rfl

/-- The length field counts the bytes of the value. -/
theorem HoldsAttribute.length_eq (ha : HoldsAttribute s location a) (order : ByteOrder)
    (hlength : a.value.length < 256 ^ 2) :
    Host.ntohs order (Host.word order s.responseBuffer (location + 2) 2) = a.value.length := by
  have h := Host.word_of_read order ha (bigEndian 2 a.type) (bigEndian 2 a.value.length) _ rfl
  simp only [length_bigEndian] at h
  rw [h, Host.ntohs_load order (length_bigEndian 2 _), Host.mostFirst_load_bigEndian,
    Nat.mod_eq_of_lt hlength]

/-- The value of an attribute with an address has two bytes, the port and the IP. -/
theorem HoldsAttribute.value_eq (ha : HoldsAttribute s location a) (order : ByteOrder)
    {port ip : List Byte} (hvalue : a.value = [0x00, 0x01] ++ port ++ ip)
    (hport : port.length = 2) (hip : ip.length = 4) :
    Host.word order s.responseBuffer (location + 6) 2 = order.load port ∧
      Host.word order s.responseBuffer (location + 8) 4 = order.load ip := by
  let fields := bigEndian 2 a.type ++ bigEndian 2 a.value.length ++ [0x00, 0x01]
  have hfields : fields.length = 6 := by simp [fields]
  have hencode : a.encode = fields ++ port ++ ip := by
    simp only [Attribute.encode, fields, hvalue, List.append_assoc]
  constructor
  · have h := Host.word_of_read order ha fields port ip hencode
    rwa [hfields, hport] at h
  · have h := Host.word_of_read order ha (fields ++ port) ip [] (by rw [List.append_nil, hencode])
    rwa [List.length_append, hfields, hport, hip] at h

end NetworkLabs.Stun
