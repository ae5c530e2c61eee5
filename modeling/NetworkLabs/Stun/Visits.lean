import NetworkLabs.Stun.Received

/-!
# The attributes that the loop visits

Both programs add `index` to the place of the last attribute, although `index` already is the
distance from the first one. The second attribute is found and the third one is missed.
-/

namespace NetworkLabs.Stun.Program

open Foundations

variable {p : Program} {order : ByteOrder} {m : Memory Byte} {r : Message}

/-- The loop over the attributes of a message that was received. -/
def messageLoop (p : Program) (order : ByteOrder) (m : Memory Byte) (r : Message) :
    While Cursor Stray :=
  p.loop order (p.receive m r.encode) (Host.numBytesAttributes order (p.receive m r.encode))

/-- The loop visits the attributes of a message in order and ends behind the last one. -/
def VisitsAll (p : Program) (order : ByteOrder) (m : Memory Byte) (r : Message)
    (strays : ℕ → Stray) : Prop :=
  Host.word order (p.receive m r.encode) 0 2 = Host.htons order 0x0101 ∧
    (p.messageLoop order m r).EndsAfter strays .start r.attributes.length ∧
    ∀ k < r.attributes.length,
      ((p.messageLoop order m r).after strays .start k).visited = r.start k

variable {strays : ℕ → Stray}

/-- The guard compares with the total size of the attributes. -/
theorem messageLoop_guard (c : Cursor) :
    (p.messageLoop order m r).guard c ↔ c.index < (encodeRaw r.attributes).length := by
  rw [messageLoop, receive_numBytesAttributes]
  exact Iff.rfl

/-- The loop goes on as long as there are attributes, if `index` is right. -/
theorem messageLoop_guard_iff {k : ℕ} {c : Cursor} (hk : k ≤ r.attributes.length)
    (hindex : stunHeaderSize + c.index = r.start k) :
    (p.messageLoop order m r).guard c ↔ k < r.attributes.length := by
  rw [messageLoop_guard, ← r.start_lt_iff hk]
  omega

/-- An iteration over an attribute whose header is in the buffer. -/
theorem messageLoop_body {k : ℕ} {a : RawAttribute} {c : Cursor}
    (ha : r.attributes[k]? = some a) (hvisited : c.visited = r.start k)
    (hindex : stunHeaderSize + c.index = r.start k) (hfits : r.start k + 4 ≤ p.stunBufferSize)
    (stray : Stray) :
    (p.messageLoop order m r).body c stray = ⟨r.start k, r.start (k + 1) - stunHeaderSize⟩ := by
  have hlength := receive_attributeLength order m ha hfits stray
  have hend := r.start_add_le ha
  have htotal := r.length_lt
  rw [← hvisited] at hlength
  have hnext : (c.index + (a.value.length + 4)) % 2 ^ 16 = r.start (k + 1) - stunHeaderSize := by
    rw [r.start_succ ha]
    omega
  calc
    (p.messageLoop order m r).body c stray = c.next a.value.length := congrArg c.next hlength
    _ = ⟨r.start k, r.start (k + 1) - stunHeaderSize⟩ := by rw [Cursor.next, hvisited, hnext]

/-- At the guard `index` is right, and the loop goes to the attribute with some number next. -/
structure Located (r : Message) (k : ℕ) (c : Cursor) : Prop where
  index_eq : stunHeaderSize + c.index = r.start k
  visited_eq : k < r.attributes.length → c.visited = r.start k

/-- The loop starts at the first attribute. -/
theorem Located.start (r : Message) : Located r 0 .start := ⟨rfl, fun _ => rfl⟩

/-- The first iteration leads to the second attribute, and the last one behind the message. -/
theorem Located.body {k : ℕ} {c : Cursor} (hc : Located r k c) (hk : k < r.attributes.length)
    (hnext : k = 0 ∨ k + 1 = r.attributes.length) (hfits : r.start k + 4 ≤ p.stunBufferSize)
    (stray : Stray) : Located r (k + 1) ((p.messageLoop order m r).body c stray) := by
  have hle : stunHeaderSize ≤ r.start (k + 1) := Nat.le_add_right _ _
  rw [messageLoop_body (List.getElem?_eq_getElem hk) (hc.visited_eq hk) hc.index_eq hfits]
  refine ⟨Nat.add_sub_of_le hle, fun hlt => ?_⟩
  obtain rfl : k = 0 := by omega
  exact Nat.add_sub_of_le hle

/-- With a second attribute the loop comes to it. -/
theorem located_one (hone : 1 < r.attributes.length) :
    Located r 1 ((p.messageLoop order m r).after strays .start 1) :=
  (Located.start r).body (by omega) (.inl rfl) p.header_fits (strays 0)

/-- Behind the second attribute `index` is the distance from the first one. -/
theorem after_two (hone : 1 < r.attributes.length) (hfits : r.start 1 + 4 ≤ p.stunBufferSize) :
    (p.messageLoop order m r).after strays .start 2 =
      ⟨r.start 1, r.start 2 - stunHeaderSize⟩ := by
  have hone' : Located r 1 ((p.messageLoop order m r).after strays .start 1) := located_one hone
  exact messageLoop_body (List.getElem?_eq_getElem hone) (hone'.visited_eq hone) hone'.index_eq
    hfits (strays 1)

/-- A length outside of the buffer can bring `index` back to zero. -/
theorem exists_after_two (order : ByteOrder) (m : Memory Byte) (hone : 1 < r.attributes.length)
    (hout : p.stunBufferSize < r.start 1 + 4) :
    ∃ strays, (p.messageLoop order m r).after strays .start 2 = ⟨r.start 1, 0⟩ := by
  have hend := r.start_add_le (List.getElem?_eq_getElem hone)
  have hfirst : r.start 1 = stunHeaderSize + (r.attributes[0].value.length + 4) :=
    r.start_succ (List.getElem?_eq_getElem (by omega))
  have htotal := r.length_lt
  let length := 2 ^ 16 - 4 - (r.start 1 - stunHeaderSize)
  let strays : ℕ → Stray := fun _ _ => Host.htons order length
  let c := (p.messageLoop order m r).after strays .start 1
  have hc : Located r 1 c := located_one hone
  have hindex := hc.index_eq
  have hvisited := hc.visited_eq hone
  have hlength := attributeLength_of_lt order (p.receive m r.encode) hout
    (n := length) (by omega)
  rw [← hvisited] at hlength
  have hzero : (c.index + (length + 4)) % 2 ^ 16 = 0 := by omega
  refine ⟨strays, ?_⟩
  calc
    (p.messageLoop order m r).after strays .start 2 = c.next length := congrArg c.next hlength
    _ = ⟨r.start 1, 0⟩ := by rw [Cursor.next, hvisited, hzero]

/-- Up to two attributes are visited if their headers are in the buffer. -/
theorem visitsAll_of_le_two (htwo : r.attributes.length ≤ 2)
    (hfits : ∀ k < r.attributes.length, r.start k + 4 ≤ p.stunBufferSize) :
    p.VisitsAll order m r strays := by
  have hlocated : ∀ k ≤ r.attributes.length,
      Located r k ((p.messageLoop order m r).after strays .start k) := by
    intro k hk
    induction k with
    | zero => exact .start r
    | succ k ih => exact (ih (by omega)).body hk (by omega) (hfits k hk) (strays k)
  refine ⟨p.receive_type order m r, ⟨?_, ?_⟩, ?_⟩
  · intro k hk
    have hle := Nat.le_of_lt hk
    exact (messageLoop_guard_iff hle (hlocated k hle).index_eq).mpr hk
  · rw [messageLoop_guard_iff (Nat.le_refl _) (hlocated _ (Nat.le_refl _)).index_eq]
    exact Nat.lt_irrefl _
  · intro k hk
    exact (hlocated k (Nat.le_of_lt hk)).visited_eq hk

/-- With a second attribute the header of which is outside of the buffer, words there make the
loop go wrong. -/
theorem not_visitsAll_of_outside (order : ByteOrder) (m : Memory Byte)
    (hone : 1 < r.attributes.length) (hout : p.stunBufferSize < r.start 1 + 4) :
    ∃ strays, ¬p.VisitsAll order m r strays := by
  obtain ⟨strays, hafter⟩ := exists_after_two order m hone hout
  refine ⟨strays, ?_⟩
  rintro ⟨-, ⟨-, hend⟩, hvisits⟩
  rcases Nat.lt_or_ge 2 r.attributes.length with hthree | htwo
  · have hvisited := hvisits 2 hthree
    have hsecond := r.start_succ (List.getElem?_eq_getElem hone)
    rw [hafter, Cursor.visited, hsecond] at hvisited
    dsimp only at hvisited
    omega
  · obtain htwo : r.attributes.length = 2 := by omega
    have hstart := (r.start_lt_iff (Nat.zero_le _)).mpr (by omega)
    rw [htwo, hafter, messageLoop_guard] at hend
    rw [r.start_zero] at hstart
    dsimp only at hend
    omega

/-- The third attribute is missed, as `location` is moved on by the length of the first one
twice. -/
theorem not_visitsAll_of_three (hfits : r.start 1 + 4 ≤ p.stunBufferSize)
    (hthree : 2 < r.attributes.length) : ¬p.VisitsAll order m r strays := by
  rintro ⟨-, -, hvisits⟩
  have hvisited := hvisits 2 hthree
  have hfirst : r.start 1 = stunHeaderSize + (r.attributes[0].value.length + 4) :=
    r.start_succ (List.getElem?_eq_getElem (by omega))
  have hsecond : r.start 2 = r.start 1 + (r.attributes[1].value.length + 4) :=
    r.start_succ (List.getElem?_eq_getElem (by omega))
  rw [after_two (by omega) hfits, Cursor.visited] at hvisited
  dsimp only at hvisited
  omega

/-- The loop visits the attributes of a message in order and ends behind the last one, whatever
the words behind the buffer are, if and only if there are no more than two attributes and their
headers are in the buffer. -/
theorem visitsAll_iff (p : Program) (order : ByteOrder) (m : Memory Byte) (r : Message) :
    (∀ strays, p.VisitsAll order m r strays) ↔
      r.attributes.length ≤ 2 ∧
        ∀ k < r.attributes.length, r.start k + 4 ≤ p.stunBufferSize := by
  constructor
  · intro hall
    have hfits : ∀ k < r.attributes.length, k < 2 → r.start k + 4 ≤ p.stunBufferSize := by
      intro k hk hlt
      rcases k with _ | _ | k
      · exact p.header_fits
      · by_contra hout
        obtain ⟨strays, hnot⟩ := not_visitsAll_of_outside order m hk (Nat.lt_of_not_le hout)
        exact hnot (hall strays)
      · omega
    have htwo : r.attributes.length ≤ 2 := by
      by_contra hthree
      exact not_visitsAll_of_three (hfits 1 (by omega) (by omega)) (by omega) (hall fun _ _ => 0)
    exact ⟨htwo, fun k hk => hfits k hk (by omega)⟩
  · rintro ⟨htwo, hfits⟩ strays
    exact visitsAll_of_le_two htwo hfits

/-- An attribute for an address that is not encoded, of a given type. -/
def addressAttribute (type : BitVec 16) (address : Address) : RawAttribute where
  type := type
  value := Attribute.value (.mappedAddress address)
  padded := Attribute.padded_value (.mappedAddress address)

/-- A transaction ID of zeros, without the magic cookie, where it makes no difference. -/
def zeroIdentification : List Byte := List.replicate 16 0

/-- It has the length of the cookie and a transaction ID. -/
theorem length_zeroIdentification : zeroIdentification.length = 16 := rfl

/-- The addresses that are mapped, of the source, and changed, as the server of the test for the
cone level sends them. -/
def threeAddresses : Message where
  identification := zeroIdentification
  attributes := [addressAttribute 0x0001 ⟨0xC6336401, 4242⟩,
    addressAttribute 0x0004 ⟨0x4D48A9D2, 3479⟩, addressAttribute 0x0005 ⟨0x4D48A9D3, 3479⟩]
  length_identification := length_zeroIdentification
  length_lt := Nat.le_of_ble_eq_true rfl

/-- In both programs the loop looks for the third address where the message has ended. -/
theorem visitsAll_fails_for_third :
    ¬symmetry.VisitsAll .leastFirst (Memory.fill 0) threeAddresses (fun _ _ => 0) ∧
      ¬coneLevel.VisitsAll .leastFirst (Memory.fill 0) threeAddresses (fun _ _ => 0) := by
  have hsymmetry : ((symmetry.messageLoop .leastFirst (Memory.fill 0) threeAddresses).after
      (fun _ _ => 0) .start 2).visited = 56 := by decide +kernel
  have hconeLevel : ((coneLevel.messageLoop .leastFirst (Memory.fill 0) threeAddresses).after
      (fun _ _ => 0) .start 2).visited = 56 := by decide +kernel
  have hstart : threeAddresses.start 2 = 44 := by decide
  constructor
  · rintro ⟨-, -, hvisits⟩
    rw [hvisits 2 (by decide), hstart] at hsymmetry
    omega
  · rintro ⟨-, -, hvisits⟩
    rw [hvisits 2 (by decide), hstart] at hconeLevel
    omega

end NetworkLabs.Stun.Program
