import NetworkLabs.Foundations.FirstSeen
import NetworkLabs.Stun.Decoding

/-!
# The walk through the attributes

The handler keeps the first mapped address as a text and a port and compares every later
one with it. The walk finds the first two attributes of a response.
-/

namespace NetworkLabs.Stun

open Foundations

/-- The text of the IP of an address, in dotted decimal notation. -/
def Address.text (a : Address) : List Char := dottedDecimal (bigEndian 4 a.ip.toNat)

/-- Four bytes, the first one shown, for the lemmas about a text that is not empty. -/
theorem bigEndian_four (n : ℕ) : ∃ b bs, bigEndian 4 n = b :: bs ∧ bs.length = 3 := by
  have hlen := length_bigEndian 4 n
  cases h : bigEndian 4 n with
  | nil => simp [h] at hlen
  | cons b bs =>
    rw [h] at hlen
    exact ⟨b, bs, rfl, Nat.succ.inj hlen⟩

/-- A text fits where `INET_ADDRSTRLEN` characters are copied. -/
theorem Address.length_text_lt (a : Address) : a.text.length < inetAddrstrlen := by
  obtain ⟨b, bs, hbytes, hlen⟩ := bigEndian_four a.ip.toNat
  have hle := length_dottedDecimal_le b bs
  rw [Address.text, hbytes, inetAddrstrlen]
  omega

/-- No address has an empty text, which stands for no address at all in the holder. -/
theorem Address.text_ne_nil (a : Address) : a.text ≠ [] := by
  obtain ⟨b, bs, hbytes, -⟩ := bigEndian_four a.ip.toNat
  rw [Address.text, hbytes]
  exact dottedDecimal_ne_nil b bs

/-- A text in dotted decimal notation is a C string without its end. -/
theorem nul_notMem_dottedDecimal (bs : List Byte) : nul ∉ dottedDecimal bs := by
  intro hmem
  rcases of_mem_dottedDecimal hmem with h | h
  · exact absurd h (by decide)
  · exact absurd h (by decide)

/-- Distinct IPs have distinct texts, so that comparing texts compares IPs. -/
theorem Address.text_inj {a b : Address} : a.text = b.text ↔ a.ip = b.ip := by
  constructor
  · intro h
    have hne : ∀ n, bigEndian 4 n ≠ [] := by
      intro n hnil
      simpa [hnil] using length_bigEndian 4 n
    have hbytes := dottedDecimal_injective (hne _) (hne _) h
    exact BitVec.eq_of_toNat_eq (bigEndian_injective a.ip.isLt b.ip.isLt hbytes)
  · intro h
    rw [Address.text, Address.text, h]

/-- What the handler has noted is the first address and whether another was different. -/
structure Represents (s : State) (seen : FirstSeen Address) : Prop where
  first : match seen.first with
    | none => s.natIpv4Holder 0 = nul
    | some a => HoldsText nul s.natIpv4Holder a.text ∧ s.natPortHolder = a.port.toNat
  differs : s.isBehindSymmetricNat = if seen.differs then 1 else 0

/-- The comparison of two addresses by their texts and ports. -/
theorem compare_iff {m m' : Memory Char} {a b : Address} (ha : HoldsText nul m a.text)
    (hb : HoldsText nul m' b.text) :
    (¬sameText nul inetAddrstrlen (m.read 0 inetAddrstrlen) (m'.read 0 inetAddrstrlen) ∨
      a.port.toNat ≠ b.port.toNat) ↔ b ≠ a := by
  rw [ha.sameText_iff hb a.length_text_lt b.length_text_lt, Address.text_inj]
  obtain ⟨ip, port⟩ := a
  obtain ⟨ip', port'⟩ := b
  simp only [Ne, Address.mk.injEq, BitVec.toNat_inj, eq_comm (a := ip), eq_comm (a := port)]
  tauto

/-- A mapped address is noted: as the first one, or compared with it. -/
theorem Represents.found {s : State} {seen : FirstSeen Address} (hrep : Represents s seen)
    {a : Address} {sinPort sAddr : ℕ} (hport : ntohs sinPort = a.port.toNat)
    (haddr : littleEndian 4 sAddr = bigEndian 4 a.ip.toNat) :
    Represents (s.found sinPort sAddr) (seen.see a) := by
  have hname : HoldsText nul (getnameinfo s.hostnameHolder sAddr) a.text := by
    rw [getnameinfo, haddr]
    exact holdsText_write _ (nul_notMem_dottedDecimal _)
  obtain ⟨hfirst, hdiffers⟩ := hrep
  cases hseen : seen.first with
  | none =>
    rw [hseen] at hfirst
    have hsee : seen.see a = { seen with first := some a } := by rw [FirstSeen.see, hseen]
    rw [State.found, hsee]
    dsimp only
    rw [if_pos hfirst]
    exact ⟨⟨hname.copy _ a.length_text_lt, hport⟩, hdiffers⟩
  | some b =>
    rw [hseen] at hfirst
    obtain ⟨htext, hport'⟩ := hfirst
    have hsentinel := htext.head_ne b.text_ne_nil
    have hcompare := compare_iff htext hname
    rw [State.found]
    dsimp only
    rw [if_neg hsentinel, hport', hport]
    by_cases hab : a = b
    · have hsee : seen.see a = seen := by
        rw [FirstSeen.see, hseen]
        exact if_pos hab
      rw [if_neg fun h => hcompare.mp h hab, hsee]
      refine ⟨?_, hdiffers⟩
      rw [hseen]
      exact ⟨htext, rfl⟩
    · have hsee : seen.see a = { seen with differs := true } := by
        rw [FirstSeen.see, hseen]
        exact if_neg hab
      rw [if_pos (hcompare.mpr hab), hsee]
      refine ⟨?_, rfl⟩
      rw [hseen]
      exact ⟨htext, rfl⟩

/-- An address is noted on every host. -/
theorem Represents.note {order : ByteOrder} {s : Host.State} {seen : FirstSeen Address}
    (hrep : Represents s.toState seen) (address : Address) :
    Represents (s.note order address).toState (seen.see address) := by
  rw [Host.State.note, Host.sockaddr, Host.found_toState]
  apply hrep.found
  · rw [order.store_load (length_bigEndian 2 _), ntohs, swapBytes_bigEndian]
    exact Nat.mod_eq_of_lt address.port.isLt
  · rw [order.store_load (length_bigEndian 4 _),
      littleEndian_ofLittleEndian (length_bigEndian 4 _)]

variable {s : State} {location : ℕ} {a : Attribute}

/-- An attribute that lies in the buffer is processed as on a host that also keeps the last
address. -/
theorem HoldsAttribute.process_eq (ha : HoldsAttribute s location a)
    (hfits : location + a.encode.length ≤ stunBufferSize) :
    processAttribute s location =
      .ok (a.address.toList.foldl (Host.State.note .leastFirst)
        { s with natAddrHolder := ⟨0, 0⟩ }).toState := by
  have hsame := Host.processAttribute_leastFirst { s with natAddrHolder := ⟨0, 0⟩ } location
  rw [Host.processAttribute_eq .leastFirst ha hfits, Host.decoded_leastFirst] at hsame
  exact hsame.symm

/-- An attribute without an address is passed over. -/
theorem HoldsAttribute.process_other (ha : HoldsAttribute s location a)
    (hfits : location + a.encode.length ≤ stunBufferSize) (hnone : a.address = none) :
    processAttribute s location = .ok s := by
  rw [ha.process_eq hfits, hnone]
  rfl

/-- An attribute that lies in the buffer is processed: its address, if it has one, is noted. -/
theorem HoldsAttribute.process (ha : HoldsAttribute s location a)
    (hfits : location + a.encode.length ≤ stunBufferSize) {seen : FirstSeen Address}
    (hrep : Represents s seen) :
    ∃ s', processAttribute s location = .ok s' ∧ s'.responseBuffer = s.responseBuffer ∧
      Represents s' (a.address.toList.foldl FirstSeen.see seen) := by
  cases haddress : a.address with
  | none => exact ⟨s, ha.process_other hfits haddress, rfl, hrep⟩
  | some address =>
    have hprocess := ha.process_eq hfits
    rw [haddress] at hprocess
    refine ⟨_, hprocess, Host.found_responseBuffer _ _ _, ?_⟩
    exact Represents.note (s := { s with natAddrHolder := ⟨0, 0⟩ }) hrep address

variable {numBytesAttributes index : ℕ} {seen : FirstSeen Address}

/-- One iteration of the walk over an attribute that is where the walk looks for it. -/
theorem HoldsAttribute.walk_eq (ha : HoldsAttribute s (location + index) a)
    (hfits : location + index + a.encode.length ≤ stunBufferSize)
    (hindex : index < numBytesAttributes) (hsmall : index + a.encode.length < 2 ^ 16)
    {s' : State} (hprocess : processAttribute s (location + index) = .ok s') (fuel : ℕ) :
    walk numBytesAttributes (fuel + 1) s location index =
      walk numBytesAttributes fuel s' (location + index) (index + a.encode.length) := by
  have hlength := a.length_encode
  have hvalue : ntohs (word s.responseBuffer (location + index + 2) 2) = a.value.length :=
    ha.length_eq .leastFirst (by omega)
  have hbound : location + index + 4 ≤ stunBufferSize := by omega
  rw [walk, if_pos hindex]
  dsimp only
  rw [if_pos hbound, hprocess, hvalue, ← hlength, Nat.mod_eq_of_lt hsmall]

/-- The walk ends behind the last attribute. -/
theorem walk_end (fuel : ℕ) (s : State) (location : ℕ) (hindex : numBytesAttributes ≤ index) :
    walk numBytesAttributes (fuel + 1) s location index = .ok s := by
  rw [walk, if_neg (by omega)]

/-- The walk finds up to two attributes. -/
theorem walk_of_length_le_two {attributes : List Attribute}
    (hread : s.responseBuffer.read stunHeaderSize (encodeAttributes attributes).length =
      encodeAttributes attributes)
    (hfits : stunHeaderSize + (encodeAttributes attributes).length ≤ stunBufferSize)
    (htwo : attributes.length ≤ 2) (hrep : Represents s seen) (fuel : ℕ) :
    ∃ s', walk (encodeAttributes attributes).length (fuel + 3) s stunHeaderSize 0 = .ok s' ∧
      Represents s' ((attributes.filterMap Attribute.address).foldl FirstSeen.see seen) := by
  cases attributes with
  | nil =>
    refine ⟨s, ?_, hrep⟩
    exact walk_end _ s stunHeaderSize (Nat.le_refl 0)
  | cons a rest =>
    rw [encodeAttributes_cons] at hread hfits ⊢
    obtain ⟨ha, hrest⟩ := Memory.read_eq_append hread
    have hbuffer : stunBufferSize = stunHeaderSize + 1000 := rfl
    have hlength := a.length_encode
    have htotal : (a.encode ++ encodeAttributes rest).length = _ := List.length_append
    have hfirst : HoldsAttribute s (stunHeaderSize + 0) a := ha
    have hindex : 0 < (a.encode ++ encodeAttributes rest).length := by omega
    obtain ⟨s₁, hprocess, hsame, hrep₁⟩ := hfirst.process (by omega) hrep
    rw [hfirst.walk_eq (by omega) hindex (by omega) hprocess]
    cases rest with
    | nil =>
      refine ⟨s₁, walk_end _ s₁ _ ?_, ?_⟩
      · simp
      · cases a <;> exact hrep₁
    | cons b rest =>
      obtain rfl : rest = [] := by
        simp only [List.length_cons] at htwo
        exact List.length_eq_zero_iff.mp (by omega)
      simp only [encodeAttributes_cons, encodeAttributes_nil, List.append_nil] at *
      have hsecond : HoldsAttribute s₁ (stunHeaderSize + 0 + (0 + a.encode.length)) b := by
        rw [HoldsAttribute, hsame, Nat.add_zero, Nat.zero_add]
        exact hrest
      have hlength' := b.length_encode
      have hindex' : 0 + a.encode.length < (a.encode ++ b.encode).length := by omega
      obtain ⟨s₂, hprocess', -, hrep₂⟩ := hsecond.process (by omega) hrep₁
      rw [hsecond.walk_eq (by omega) hindex' (by omega) hprocess']
      refine ⟨s₂, walk_end _ s₂ _ (by omega), ?_⟩
      rw [List.filterMap_cons, List.filterMap_cons]
      cases a <;> cases b <;> exact hrep₂

end NetworkLabs.Stun
