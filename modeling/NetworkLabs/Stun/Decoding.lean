import NetworkLabs.Stun.AnyHost
import NetworkLabs.Stun.Held

/-!
# The two decodings of a mapped address

The cookie is converted to network order before it is truncated for the port. On a
little-endian host the truncation selects its top half, with which the port was encoded; on a
big-endian host it selects the other one.
-/

namespace NetworkLabs.Stun.Host

open Foundations

variable {order : ByteOrder} {s : State} {location : ℕ} {a : Attribute}

/-- The half of the cookie that its truncation to a `uint16_t` selects. -/
def cookieHalf (order : ByteOrder) : BitVec 16 :=
  BitVec.ofNat 16 (ntohs order (htonl order stunMagicCookie % 2 ^ 16))

/-- The truncation selects the top half exactly on a little-endian host. -/
theorem cookieHalf_eq_iff : cookieHalf order = 0x2112 ↔ order = .leastFirst := by
  cases order <;> decide

/-- The truncated cookie is that half, in network order. -/
theorem htonl_mod (order : ByteOrder) :
    htonl order stunMagicCookie % 2 ^ 16 = htons order (cookieHalf order).toNat := by
  cases order <;> decide

/-- The value of an encoded address: the port is combined with the top half of the cookie and
the IP with all of it. -/
theorem value_xorMappedAddress (address : Address) :
    (Attribute.xorMappedAddress address).value =
      [0x00, 0x01] ++ bigEndian 2 (address.port ^^^ 0x2112).toNat ++
        bigEndian 4 (address.ip ^^^ 0x2112A442).toNat := by
  rw [BitVec.toNat_xor, BitVec.toNat_xor, bigEndian_xor, bigEndian_xor]
  rfl

/-- Exclusive or commutes with the conversion to network order. -/
theorem load_bigEndian_xor {width w : ℕ} (x y : BitVec w) :
    order.load (bigEndian width (x ^^^ y).toNat) =
      order.load (bigEndian width x.toNat) ^^^ order.load (bigEndian width y.toNat) := by
  rw [BitVec.toNat_xor, bigEndian_xor, order.load_xorBytes (by simp)]

/-- The address that a host finds in an attribute. The encoded port depends on which half of the
cookie its cast selects. -/
def decoded (order : ByteOrder) : Attribute → Option Address
  | .mappedAddress address => some address
  | .xorMappedAddress address =>
    some { address with port := address.port ^^^ 0x2112 ^^^ cookieHalf order }
  | .other _ _ _ _ => none

/-- On a little-endian host it is the one that the attribute carries. -/
theorem decoded_leastFirst (a : Attribute) : decoded .leastFirst a = a.address := by
  cases a with
  | mappedAddress address => rfl
  | xorMappedAddress address =>
    have hhalf : cookieHalf .leastFirst = 0x2112 := cookieHalf_eq_iff.mpr rfl
    rw [decoded, hhalf, BitVec.xor_assoc, BitVec.xor_self, BitVec.xor_zero, Attribute.address]
  | other type value irrelevant padded => rfl

/-- An address as it is kept in `nat_addr_holder`, in network order. -/
def sockaddr (order : ByteOrder) (address : Address) : SockaddrIn :=
  ⟨order.load (bigEndian 2 address.port.toNat), order.load (bigEndian 4 address.ip.toNat)⟩

/-- Take note of an address, as the handler does after decoding an attribute. -/
def State.note (order : ByteOrder) (s : State) (address : Address) : State :=
  s.found order (sockaddr order address).sinPort (sockaddr order address).sAddr

/-- An attribute that lies in the buffer is processed: the address that is found in it is
noted. -/
theorem processAttribute_eq (order : ByteOrder) (ha : HoldsAttribute s.toState location a)
    (hfits : location + a.encode.length ≤ stunBufferSize) :
    processAttribute order s location =
      .ok ((decoded order a).toList.foldl (State.note order) s) := by
  have hmapped := ha.type_eq_iff order (n := 0x0001) (by decide)
  have hxor := ha.type_eq_iff order (n := 0x0020) (by decide)
  rw [a.length_encode] at hfits
  cases a with
  | mappedAddress address =>
    have hbound : location + 12 ≤ stunBufferSize := by
      simpa [Attribute.value] using hfits
    obtain ⟨hport, hip⟩ := ha.value_eq order rfl (length_bigEndian 2 _) (length_bigEndian 4 _)
    rw [processAttribute, if_pos (hmapped.mpr rfl), if_pos hbound, hport, hip]
    rfl
  | xorMappedAddress address =>
    have hbound : location + 12 ≤ stunBufferSize := by
      simpa [Attribute.value] using hfits
    obtain ⟨hport, hip⟩ := ha.value_eq order (value_xorMappedAddress address)
      (length_bigEndian 2 _) (length_bigEndian 4 _)
    have hne : ¬word order s.responseBuffer location 2 = htons order 0x0001 := by
      rw [hmapped]
      exact (by decide : ¬0x0020 = 0x0001)
    have hport' : word order s.responseBuffer (location + 6) 2 ^^^
        htonl order stunMagicCookie % 2 ^ 16 =
          order.load (bigEndian 2 (address.port ^^^ 0x2112 ^^^ cookieHalf order).toNat) := by
      rw [hport, htonl_mod, htons, ← load_bigEndian_xor]
    have hip' : word order s.responseBuffer (location + 8) 4 ^^^ htonl order stunMagicCookie =
        order.load (bigEndian 4 address.ip.toNat) := by
      have hcookie : htonl order stunMagicCookie =
          order.load (bigEndian 4 (0x2112A442 : BitVec 32).toNat) := rfl
      rw [hip, hcookie, ← load_bigEndian_xor, BitVec.xor_assoc, BitVec.xor_self, BitVec.xor_zero]
    rw [processAttribute, if_neg hne, if_pos (hxor.mpr rfl), if_pos hbound]
    dsimp only
    rw [hport', hip']
    rfl
  | other type value irrelevant padded =>
    have hne : ¬word order s.responseBuffer location 2 = htons order 0x0001 := fun h =>
      irrelevant.1 (BitVec.eq_of_toNat_eq (hmapped.mp h))
    have hne' : ¬word order s.responseBuffer location 2 = htons order 0x0020 := fun h =>
      irrelevant.2 (BitVec.eq_of_toNat_eq (hxor.mp h))
    rw [processAttribute, if_neg hne, if_neg hne']
    rfl

/-- A plain and an encoded attribute with an address leave the same in `nat_addr_holder`. -/
def SameDecoding (order : ByteOrder) (address : Address) : Prop :=
  ∀ (s s' : State) (location location' : ℕ), location + 12 ≤ stunBufferSize →
    location' + 12 ≤ stunBufferSize →
    HoldsAttribute s.toState location (.mappedAddress address) →
    HoldsAttribute s'.toState location' (.xorMappedAddress address) →
    ∃ t t', processAttribute order s location = .ok t ∧
      processAttribute order s' location' = .ok t' ∧ t.natAddrHolder = t'.natAddrHolder

variable {address : Address}

/-- An attribute with an address takes 12 bytes, of which four are its header. -/
theorem length_encode_of_address (h : a.address = some address) : a.encode.length = 12 := by
  rw [a.length_encode]
  cases a with
  | mappedAddress address => simp [Attribute.value]
  | xorMappedAddress address => simp [Attribute.value]
  | other type value irrelevant padded => cases h

/-- What an attribute with an address leaves in `nat_addr_holder`. -/
theorem exists_natAddrHolder (order : ByteOrder) {found : Address}
    (ha : HoldsAttribute s.toState location a) (haddress : a.address = some address)
    (hfits : location + 12 ≤ stunBufferSize)
    (hfound : decoded order a = some found) :
    ∃ t, processAttribute order s location = .ok t ∧ t.natAddrHolder = sockaddr order found := by
  have hprocess := processAttribute_eq order ha
    (by rwa [length_encode_of_address haddress])
  rw [hfound] at hprocess
  exact ⟨_, hprocess, found_natAddrHolder s _ _⟩

/-- A little-endian host decodes both kinds of attributes to the same. -/
theorem sameDecoding_leastFirst (address : Address) : SameDecoding .leastFirst address := by
  intro s s' location location' hfits hfits' ha ha'
  obtain ⟨t, hprocess, hholder⟩ := exists_natAddrHolder _ ha rfl hfits (decoded_leastFirst _)
  obtain ⟨t', hprocess', hholder'⟩ := exists_natAddrHolder _ ha' rfl hfits' (decoded_leastFirst _)
  exact ⟨t, t', hprocess, hprocess', hholder.trans hholder'.symm⟩

/-- Different addresses are kept as different ones, so that the decoded address tells which one
was sent. -/
theorem sockaddr_injective {b c : Address} (h : sockaddr order b = sockaddr order c) : b = c := by
  obtain ⟨hport, hip⟩ := SockaddrIn.mk.inj h
  have hport' := bigEndian_injective b.port.isLt c.port.isLt
    (order.load_injective (by simp) hport)
  have hip' := bigEndian_injective b.ip.isLt c.ip.isLt (order.load_injective (by simp) hip)
  exact Address.mk.injEq .. ▸ ⟨BitVec.eq_of_toNat_eq hip', BitVec.eq_of_toNat_eq hport'⟩

/-- With the other half of the cookie another port is found. -/
theorem exists_decoded_ne (horder : order ≠ .leastFirst) (address : Address) :
    ∃ found, decoded order (.xorMappedAddress address) = some found ∧ found ≠ address := by
  refine ⟨_, rfl, fun h => horder (cookieHalf_eq_iff.mp ?_)⟩
  have hport : address.port ^^^ 0x2112 ^^^ cookieHalf order = address.port :=
    congrArg Address.port h
  have hzero : (0x2112 ^^^ cookieHalf order : BitVec 16) = 0 := by
    rw [← BitVec.xor_right_inj address.port, ← BitVec.xor_assoc, hport]
    exact BitVec.xor_zero.symm
  exact (BitVec.xor_eq_zero_iff.mp hzero).symm

/-- A state with an attribute behind the header in the buffer. -/
def holding (a : Attribute) : State :=
  { initial with responseBuffer := (Memory.fill 0).write stunHeaderSize a.encode }

/-- The buffer of that state holds the attribute. -/
theorem holdsAttribute_holding (a : Attribute) :
    HoldsAttribute (holding a).toState stunHeaderSize a :=
  Memory.read_write _ _ rfl

/-- A host of the other order decodes the two kinds of attributes differently. -/
theorem not_sameDecoding (horder : order ≠ .leastFirst) (address : Address) :
    ¬SameDecoding order address := by
  intro hsame
  obtain ⟨found, hfound, hne⟩ := exists_decoded_ne horder address
  have ha := holdsAttribute_holding (.mappedAddress address)
  have ha' := holdsAttribute_holding (.xorMappedAddress address)
  have hfits : stunHeaderSize + 12 ≤ stunBufferSize := by decide
  obtain ⟨t, t', hprocess, hprocess', hholder⟩ := hsame _ _ _ _ hfits hfits ha ha'
  obtain ⟨u, hu, hu'⟩ := exists_natAddrHolder order ha rfl hfits rfl
  obtain ⟨v, hv, hv'⟩ := exists_natAddrHolder order ha' rfl hfits hfound
  cases hprocess.symm.trans hu
  cases hprocess'.symm.trans hv
  rw [hu', hv'] at hholder
  exact hne (sockaddr_injective hholder).symm

end NetworkLabs.Stun.Host
