import NetworkLabs.Stun.Loop

/-!
# When the loop over the attributes ends

`index` is a `uint16_t` to which a length of the message is added. A first attribute of the
length 65532 brings it back to zero in each iteration. After any other first length the places
grow, so that the loop ends unless the length fields lead out of the buffer.
-/

namespace NetworkLabs.Stun.Program

open Foundations

/-- The length field of the attribute at a place in the buffer. -/
def lengthField (m : Memory Byte) (location : ℕ) : ℕ :=
  ByteOrder.mostFirst.load (m.read (location + 2) 2)

/-- Where the length fields in the buffer lead, one after the other, starting behind the header
of a message with some number of bytes of attributes. -/
inductive LeadsTo (p : Program) (m : Memory Byte) (numBytesAttributes : ℕ) : Cursor → Prop
  | start (h : 0 < numBytesAttributes) : LeadsTo p m numBytesAttributes .start
  | next {c : Cursor} (h : LeadsTo p m numBytesAttributes c)
    (hfits : c.visited + 4 ≤ p.stunBufferSize)
    (hmore : (c.next (lengthField m c.visited)).index < numBytesAttributes) :
    LeadsTo p m numBytesAttributes (c.next (lengthField m c.visited))

/-- The length that keeps `index` as it is: with the header of the attribute it is `2 ^ 16`. -/
def stuckLength : ℕ := 2 ^ 16 - 4

/-- The length fields do not keep the loop going: the first one is not the stuck length, and
they do not lead out of the buffer. -/
def LengthsSafe (p : Program) (m : Memory Byte) (numBytesAttributes : ℕ) : Prop :=
  (numBytesAttributes = 0 ∨ lengthField m stunHeaderSize ≠ stuckLength) ∧
    ∀ c, LeadsTo p m numBytesAttributes c → c.visited + 4 ≤ p.stunBufferSize

/-- The cursors at which the loop can be kept going. -/
def Stuck (p : Program) (m : Memory Byte) (numBytesAttributes : ℕ) (c : Cursor) : Prop :=
  c.index < numBytesAttributes ∧ (p.stunBufferSize < c.visited + 4 ∨
    c.index = 0 ∧ lengthField m c.location = stuckLength)

/-- How far the loop is from the end of the buffer; with `index` at zero it stays where it is,
but `index` changes. -/
def remaining (p : Program) (c : Cursor) : ℕ :=
  2 * (p.stunBufferSize - c.location) + if c.index = 0 then 1 else 0

variable {p : Program} {order : ByteOrder} {m : Memory Byte} {numBytesAttributes : ℕ}
  {c : Cursor}

/-- A length field has two bytes, so that it is less than 65536. -/
theorem lengthField_lt (m : Memory Byte) (location : ℕ) : lengthField m location < 2 ^ 16 := by
  have h := ByteOrder.mostFirst.load_lt (m.read (location + 2) 2)
  rwa [Memory.length_read] at h

/-- The stuck length keeps `index`, as 65532 and the four bytes of the header are 0 in
16 bits. -/
theorem next_stuckLength (hindex : c.index < 2 ^ 16) :
    c.next stuckLength = ⟨c.visited, c.index⟩ := by
  have hkeep : (c.index + (stuckLength + 4)) % 2 ^ 16 = c.index := by
    rw [stuckLength]
    omega
  rw [Cursor.next, hkeep]

/-- Any other length changes `index` when it is zero. -/
theorem next_index_eq_zero {n : ℕ} (hn : n < 2 ^ 16) (hzero : (c.next n).index = 0)
    (hindex : c.index < 2 ^ 16) : c.index = 0 ↔ n = stuckLength := by
  rw [Cursor.next] at hzero
  dsimp only at hzero
  rw [stuckLength]
  omega

/-- An iteration in the buffer goes where the length field leads. -/
theorem loop_body_of_le (hfits : c.visited + 4 ≤ p.stunBufferSize) (stray : Stray) :
    (p.loop order m numBytesAttributes).body c stray = c.next (lengthField m c.visited) :=
  congrArg c.next (attributeLength_of_le hfits stray)

/-- A stuck loop can be kept stuck: by the value read outside of the buffer, or by the first
length. -/
theorem Stuck.body (hc : p.Stuck m numBytesAttributes c) (hsmall : numBytesAttributes ≤ 2 ^ 16) :
    ∃ stray, p.Stuck m numBytesAttributes ((p.loop order m numBytesAttributes).body c stray) := by
  obtain ⟨hguard, hstuck⟩ := hc
  have hindex : c.index < 2 ^ 16 := by omega
  by_cases hfits : c.visited + 4 ≤ p.stunBufferSize
  · obtain ⟨hzero, hlength⟩ := hstuck.resolve_left (by omega)
    have hvisited : c.visited = c.location := by rw [Cursor.visited, hzero, Nat.add_zero]
    refine ⟨fun _ => 0, ?_⟩
    rw [loop_body_of_le hfits, hvisited, hlength, next_stuckLength hindex, hvisited]
    exact ⟨hguard, .inr ⟨hzero, hlength⟩⟩
  · have hlength := attributeLength_of_lt order m (Nat.lt_of_not_le hfits)
      (n := stuckLength) (by decide)
    refine ⟨fun _ => Host.htons order stuckLength, ?_⟩
    have hbody : (p.loop order m numBytesAttributes).body c
        (fun _ => Host.htons order stuckLength) = ⟨c.visited, c.index⟩ := by
      rw [← next_stuckLength hindex]
      exact congrArg c.next hlength
    rw [hbody]
    refine ⟨hguard, .inl ?_⟩
    rw [Cursor.visited]
    dsimp only
    omega

/-- A stuck loop does not end, as each iteration leaves it stuck. -/
theorem Stuck.not_ends (hc : p.Stuck m numBytesAttributes c)
    (hsmall : numBytesAttributes ≤ 2 ^ 16) :
    ¬(p.loop order m numBytesAttributes).Ends c :=
  While.not_ends_of_trap (fun _ ht => ⟨ht.1, ht.body hsmall⟩) hc

/-- A loop that is not stuck makes progress. -/
theorem remaining_body_lt (hguard : c.index < numBytesAttributes)
    (hfree : ¬p.Stuck m numBytesAttributes c) (hsmall : numBytesAttributes ≤ 2 ^ 16)
    (stray : Stray) :
    p.remaining ((p.loop order m numBytesAttributes).body c stray) < p.remaining c := by
  have hfits : c.visited + 4 ≤ p.stunBufferSize := by
    by_contra hout
    exact hfree ⟨hguard, .inl (by omega)⟩
  have hvisited : c.visited = c.location + c.index := rfl
  rw [loop_body_of_le hfits]
  by_cases hzero : c.index = 0
  · have hlength : lengthField m c.visited ≠ stuckLength := by
      rw [hvisited, hzero, Nat.add_zero]
      exact fun h => hfree ⟨hguard, .inr ⟨hzero, h⟩⟩
    have hmoved : (c.next (lengthField m c.visited)).index ≠ 0 := fun h =>
      hlength ((next_index_eq_zero (lengthField_lt m c.visited) h (by omega)).mp hzero)
    have hplace : (c.next (lengthField m c.visited)).location = c.location := by
      rw [Cursor.next, hvisited, hzero, Nat.add_zero]
    rw [remaining, remaining, if_neg hmoved, if_pos hzero, hplace]
    omega
  · have hplace : (c.next (lengthField m c.visited)).location = c.visited := rfl
    rw [remaining, remaining, if_neg hzero, hplace]
    split_ifs <;> omega

/-- The loop comes to where the length fields in the buffer lead. -/
theorem LeadsTo.reaches (order : ByteOrder) (hc : p.LeadsTo m numBytesAttributes c) :
    (p.loop order m numBytesAttributes).Reaches .start c ∧ c.index < numBytesAttributes := by
  induction hc with
  | start h => exact ⟨.refl, h⟩
  | next h hfits hmore ih =>
    have hnext := ih.1.next ih.2 fun _ => 0
    rw [loop_body_of_le hfits] at hnext
    exact ⟨hnext, hmore⟩

/-- Under the condition the loop only comes to where the length fields lead, and `index` is zero
at the stuck length nowhere. -/
theorem LengthsSafe.of_reaches (hsafe : p.LengthsSafe m numBytesAttributes)
    (hsmall : numBytesAttributes ≤ 2 ^ 16)
    (hreach : (p.loop order m numBytesAttributes).Reaches .start c) :
    (c.index < numBytesAttributes → p.LeadsTo m numBytesAttributes c) ∧
      (c.index = 0 → c.location = stunHeaderSize ∨ lengthField m c.location ≠ stuckLength) := by
  induction hreach with
  | refl => exact ⟨.start, fun _ => .inl rfl⟩
  | @next c hreach hguard stray ih =>
    have hindex : c.index < numBytesAttributes := hguard
    have hlead := ih.1 hindex
    have hfits := hsafe.2 c hlead
    rw [loop_body_of_le hfits]
    refine ⟨hlead.next hfits, fun hzero => ?_⟩
    by_cases hlength : lengthField m c.visited = stuckLength
    · have hbefore : c.index = 0 :=
        (next_index_eq_zero (lengthField_lt m c.visited) hzero (by omega)).mpr hlength
      have hvisited : c.visited = c.location := by rw [Cursor.visited, hbefore, Nat.add_zero]
      have hfirst := ih.2 hbefore
      rw [← hvisited] at hfirst
      exact .inl (hfirst.resolve_right (not_not_intro hlength))
    · exact .inr hlength

/-- The loop ends, whatever the words behind the buffer are, if and only if the length fields in
the buffer do not keep it going. -/
theorem ends_iff_lengthsSafe (p : Program) (order : ByteOrder) (m : Memory Byte) :
    (p.loop order m (Host.numBytesAttributes order m)).Ends .start ↔
      p.LengthsSafe m (Host.numBytesAttributes order m) := by
  have hsmall : Host.numBytesAttributes order m ≤ 2 ^ 16 := by
    have h := ByteOrder.mostFirst.load_lt (m.read 2 2)
    rw [Memory.length_read] at h
    rw [Host.numBytesAttributes, Host.ntohs_word]
    exact Nat.le_of_lt h
  have htrap : ∀ c, p.Stuck m (Host.numBytesAttributes order m) c →
      (p.loop order m (Host.numBytesAttributes order m)).guard c ∧ ∃ stray,
        p.Stuck m (Host.numBytesAttributes order m)
          ((p.loop order m (Host.numBytesAttributes order m)).body c stray) :=
    fun c hc => ⟨hc.1, hc.body hsmall⟩
  rw [While.ends_iff_of_trap p.remaining htrap
    (fun c hguard hfree stray => remaining_body_lt hguard hfree hsmall stray)]
  constructor
  · intro hfree
    refine ⟨?_, fun c hc => ?_⟩
    · rw [or_iff_not_imp_left]
      intro hsome hlength
      exact hfree .start .refl ⟨Nat.pos_of_ne_zero hsome, .inr ⟨rfl, hlength⟩⟩
    · obtain ⟨hreach, hguard⟩ := hc.reaches order
      by_contra hout
      exact hfree c hreach ⟨hguard, .inl (by omega)⟩
  · rintro hsafe c hreach ⟨hguard, hstuck⟩
    obtain ⟨hlead, hfirst⟩ := hsafe.of_reaches hsmall hreach
    rcases hstuck with hout | ⟨hzero, hlength⟩
    · have hfits := hsafe.2 c (hlead hguard)
      omega
    · have hstart := (hfirst hzero).resolve_right (not_not_intro hlength)
      rw [hstart] at hlength
      rw [hzero] at hguard
      exact hsafe.1.elim (fun hnone => by omega) fun h => h hlength

/-- A loop that ends needs only some fuel when something is done with each attribute. -/
theorem exists_fuel_of_ends {σ : Type} {process : σ → ℕ → Except Failure σ}
    (hprocess : ∀ s location, process s location ≠ .error .outOfFuel)
    (hends : (p.loop order m numBytesAttributes).Ends c) :
    ∃ fuel, ∀ s, p.walk order m process numBytesAttributes fuel s c ≠ .error .outOfFuel := by
  obtain ⟨n, -, hguard⟩ := hends fun _ _ => 0
  refine ⟨n + 1, fun s hwalk => hguard ?_⟩
  exact guard_of_walk_eq_outOfFuel hprocess hwalk _ (Nat.lt_succ_self n)

/-- A loop in which something was done with each attribute up to its end does end. -/
theorem ends_of_walk {σ : Type} {process : σ → ℕ → Except Failure σ} {fuel : ℕ} {s t : σ}
    (hwalk : p.walk order m process numBytesAttributes fuel s c = .ok t) :
    (p.loop order m numBytesAttributes).Ends c := fun strays =>
  have ⟨n, _, hends⟩ := endsAfter_of_walk hwalk strays
  ⟨n, hends⟩

/-- The loop ends, whatever the words behind the buffer are, if and only if the length fields in
the buffer do not keep it going. Whatever the handlers do with the attributes, they come to the
end of the loop only then, and then they need only some fuel. -/
theorem loop_ends_iff (p : Program) (order : ByteOrder) (m : Memory Byte) :
    ((p.loop order m (Host.numBytesAttributes order m)).Ends .start ↔
      p.LengthsSafe m (Host.numBytesAttributes order m)) ∧
    ∀ {σ : Type} (process : σ → ℕ → Except Failure σ),
      (∀ fuel s t, p.walk order m process (Host.numBytesAttributes order m) fuel s .start = .ok t →
        p.LengthsSafe m (Host.numBytesAttributes order m)) ∧
      ((∀ s location, process s location ≠ .error .outOfFuel) →
        p.LengthsSafe m (Host.numBytesAttributes order m) → ∃ fuel, ∀ s,
          p.walk order m process (Host.numBytesAttributes order m) fuel s .start ≠
            .error .outOfFuel) := by
  have hiff := ends_iff_lengthsSafe p order m
  refine ⟨hiff, fun process => ⟨fun fuel s t hwalk => ?_, fun hprocess hsafe => ?_⟩⟩
  · exact hiff.mp (ends_of_walk hwalk)
  · exact exists_fuel_of_ends hprocess (hiff.mpr hsafe)

/-- A success response of 24 bytes: one attribute, with the stuck length. -/
def stuckBytes : List Byte :=
  [0x01, 0x01, 0x00, 0x04] ++ List.replicate 16 0 ++ [0x80, 0x22, 0xFF, 0xFC]

/-- Once it has come in, neither loop ends. -/
theorem ends_fails_for_stuckBytes :
    (Host.word .leastFirst (symmetry.receive (Memory.fill 0) stuckBytes) 0 2 =
        Host.htons .leastFirst 0x0101 ∧
      ¬(symmetry.loop .leastFirst (symmetry.receive (Memory.fill 0) stuckBytes)
        (Host.numBytesAttributes .leastFirst
          (symmetry.receive (Memory.fill 0) stuckBytes))).Ends .start) ∧
    (Host.word .leastFirst (coneLevel.receive (Memory.fill 0) stuckBytes) 0 2 =
        Host.htons .leastFirst 0x0101 ∧
      ¬(coneLevel.loop .leastFirst (coneLevel.receive (Memory.fill 0) stuckBytes)
        (Host.numBytesAttributes .leastFirst
          (coneLevel.receive (Memory.fill 0) stuckBytes))).Ends .start) := by
  have hnumber : ∀ p : Program, p = symmetry ∨ p = coneLevel →
      Host.numBytesAttributes .leastFirst (p.receive (Memory.fill 0) stuckBytes) = 4 := by
    rintro p (rfl | rfl) <;> decide +kernel
  have hstuck : ∀ p : Program, p = symmetry ∨ p = coneLevel →
      p.Stuck (p.receive (Memory.fill 0) stuckBytes) 4 .start := by
    rintro p (rfl | rfl)
    · exact ⟨by decide, .inr ⟨rfl, by decide +kernel⟩⟩
    · exact ⟨by decide, .inr ⟨rfl, by decide +kernel⟩⟩
  refine ⟨⟨by decide +kernel, ?_⟩, by decide +kernel, ?_⟩
  · rw [hnumber _ (.inl rfl)]
    exact (hstuck _ (.inl rfl)).not_ends (by decide)
  · rw [hnumber _ (.inr rfl)]
    exact (hstuck _ (.inr rfl)).not_ends (by decide)

end NetworkLabs.Stun.Program
