import NetworkLabs.Stun.Loop

/-!
# Messages in the buffer

What the handlers read of a message that has come in, as far as it fits the buffer.
-/

namespace NetworkLabs.Stun.Program

open Foundations

variable {p : Program} {order : ByteOrder} {m : Memory Byte} {r : Message}

/-- A part of a message that fits the buffer is received. -/
theorem receive_read {bytes before part behind : List Byte}
    (hbytes : bytes = before ++ part ++ behind)
    (hfits : before.length + part.length ≤ p.stunBufferSize) :
    (p.receive m bytes).read before.length part.length = part := by
  have hlength := congrArg List.length hbytes
  simp only [List.length_append] at hlength
  have hinside : before.length + part.length ≤ (bytes.take p.stunBufferSize).length := by
    rw [List.length_take]
    omega
  have hread : (m.write 0 (bytes.take p.stunBufferSize)).read (0 + before.length) part.length = _ :=
    Memory.read_write_inside m hinside
  have hpart : ((bytes.take p.stunBufferSize).drop before.length).take part.length = part := by
    rw [List.drop_take, List.take_take, Nat.min_eq_left (by omega), hbytes, List.append_assoc,
      List.drop_left, List.take_left]
  rwa [Nat.zero_add, hpart] at hread

/-- Any message is taken for a success response. -/
theorem receive_type (p : Program) (order : ByteOrder) (m : Memory Byte) (r : Message) :
    Host.word order (p.receive m r.encode) 0 2 = Host.htons order 0x0101 := by
  have hbytes : r.encode = [] ++ bigEndian 2 0x0101 ++
      (bigEndian 2 (encodeRaw r.attributes).length ++ r.identification ++
        encodeRaw r.attributes) := by
    simp [Message.encode, Message.header]
  have hheader := p.header_fits
  have hread := receive_read (p := p) (m := m) hbytes (by simp; omega)
  rw [Host.word_eq_htons_iff]
  simpa using hread

/-- The header of a message tells the total size of the attributes. -/
theorem receive_numBytesAttributes (p : Program) (order : ByteOrder) (m : Memory Byte)
    (r : Message) :
    Host.numBytesAttributes order (p.receive m r.encode) = (encodeRaw r.attributes).length := by
  have hbytes : r.encode = bigEndian 2 0x0101 ++ bigEndian 2 (encodeRaw r.attributes).length ++
      (r.identification ++ encodeRaw r.attributes) := by
    simp [Message.encode, Message.header]
  have hheader : stunHeaderSize + 4 ≤ p.stunBufferSize := p.header_fits
  have hread := receive_read (p := p) (m := m) hbytes (by simp; omega)
  rw [length_bigEndian, length_bigEndian] at hread
  rw [Host.numBytesAttributes, Host.ntohs_word, hread, Host.mostFirst_load_bigEndian]
  exact Nat.mod_eq_of_lt r.length_lt

/-- The length of an attribute whose header is in the buffer is read at its place. -/
theorem receive_attributeLength (order : ByteOrder) (m : Memory Byte) {k : ℕ} {a : RawAttribute}
    (ha : r.attributes[k]? = some a) (hfits : r.start k + 4 ≤ p.stunBufferSize) (stray : Stray) :
    p.attributeLength order (p.receive m r.encode) stray (r.start k) = a.value.length := by
  obtain ⟨before, behind, hencode, hbefore⟩ := r.encode_split ha
  have hbytes : r.encode = before ++ bigEndian 2 a.type.toNat ++ bigEndian 2 a.value.length ++
      (a.value ++ behind) := by
    rw [hencode, RawAttribute.encode, RawAttribute.header]
    simp only [List.append_assoc]
  have hread := receive_read (p := p) (m := m) hbytes (by simp; omega)
  rw [List.length_append, hbefore, length_bigEndian, length_bigEndian] at hread
  have hend := r.start_add_le ha
  have htotal := r.length_lt
  have hstart : stunHeaderSize ≤ r.start k := Nat.le_add_right _ _
  rw [attributeLength_of_le hfits stray, hread, Host.mostFirst_load_bigEndian]
  exact Nat.mod_eq_of_lt (by omega)

/-- What follows a message in its datagram could have been in the buffer before. -/
theorem receive_append (p : Program) (m : Memory Byte) (bytes rest : List Byte) :
    p.receive (p.receive m (bytes ++ rest)) bytes = p.receive m (bytes ++ rest) := by
  rw [receive, receive, List.take_append, Memory.write_write_append]

/-- The type of an attribute in the buffer is recognized. -/
theorem receive_attributeType {k : ℕ} {a : RawAttribute} (ha : r.attributes[k]? = some a)
    (hfits : r.start k + 4 ≤ p.stunBufferSize) (stray : Stray) (type : BitVec 16) :
    p.field order (p.receive m r.encode) stray (r.start k) 2 = Host.htons order type.toNat ↔
      a.type = type := by
  obtain ⟨before, behind, hencode, hbefore⟩ := r.encode_split ha
  have hbytes : r.encode = before ++ bigEndian 2 a.type.toNat ++
      (bigEndian 2 a.value.length ++ a.value ++ behind) := by
    rw [hencode, RawAttribute.encode, RawAttribute.header]
    simp only [List.append_assoc]
  have hread := receive_read (p := p) (m := m) hbytes (by simp; omega)
  rw [hbefore, length_bigEndian] at hread
  rw [field, if_pos (by omega), Host.word_eq_htons_iff, hread]
  constructor
  · intro h
    exact BitVec.eq_of_toNat_eq (bigEndian_injective a.type.isLt type.isLt h)
  · rintro rfl
    rfl

end NetworkLabs.Stun.Program
