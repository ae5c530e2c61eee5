import NetworkLabs.Foundations.While
import NetworkLabs.Stun.Host
import NetworkLabs.Stun.Message

/-!
# The loop over the attributes

The loop is the same in both programs, apart from the size of the buffer and the types of
the attributes that are looked into. Its variables are the place of the last attribute and
`index`. A field that does not lie in the buffer reads as a stray value, which may be a
different one in each iteration.
-/

namespace NetworkLabs.Stun

open Foundations

/-- What the handlers of two programs differ in; the first attribute has a header. -/
structure Program where
  stunBufferSize : ℕ
  addressTypes : List (BitVec 16)
  header_fits : stunHeaderSize + 4 ≤ stunBufferSize

namespace Program

/-- `stun_symmetry.c`, which looks for mapped addresses, plain or not. -/
def symmetry : Program where
  stunBufferSize := Stun.stunBufferSize
  addressTypes := [0x0001, 0x0020]
  header_fits := by decide

/-- `stun_cone_level.c`: the addresses that are mapped, of the source, and changed. -/
def coneLevel : Program where
  stunBufferSize := stunHeaderSize + 8 + 1000
  addressTypes := [0x0001, 0x0004, 0x0005]
  header_fits := by decide

end Program

/-- What a field that does not lie in the buffer reads as, by its offset. -/
abbrev Stray := ℕ → ℕ

/-- The variables of the loop; `location` is counted from the start of the buffer. -/
structure Cursor where
  location : ℕ
  index : ℕ
  deriving DecidableEq

/-- The cursor in front of the loop, at the first attribute and with `index` 0. -/
def Cursor.start : Cursor := ⟨stunHeaderSize, 0⟩

/-- The attribute that the next iteration looks at. `location` already has the lengths in it
that `index` adds again. -/
def Cursor.visited (c : Cursor) : ℕ := c.location + c.index

/-- The cursor behind an iteration that finds some length; `index` is a `uint16_t`. -/
def Cursor.next (c : Cursor) (attributeLength : ℕ) : Cursor :=
  ⟨c.visited, (c.index + (attributeLength + 4)) % 2 ^ 16⟩

/-- The number of bytes of the attributes, from the header. -/
def Host.numBytesAttributes (order : ByteOrder) (m : Memory Byte) : ℕ :=
  Host.ntohs order (Host.word order m 2 2)

namespace Program

variable (p : Program) (order : ByteOrder) (m : Memory Byte)

/-- `recvfrom` writes no more than the buffer takes, and leaves what is behind. -/
def receive (bytes : List Byte) : Memory Byte := m.write 0 (bytes.take p.stunBufferSize)

/-- A word of some width in bytes, as it is read. -/
def field (stray : Stray) (offset width : ℕ) : ℕ :=
  if offset + width ≤ p.stunBufferSize then Host.word order m offset width
  else stray offset % 256 ^ width

/-- The length of the attribute at a place, in the buffer or behind it. -/
def attributeLength (stray : Stray) (location : ℕ) : ℕ :=
  Host.ntohs order (p.field order m stray (location + 2) 2)

/-- The loop over the attributes of a success response, without what the programs do
with them. -/
def loop (numBytesAttributes : ℕ) : While Cursor Stray where
  guard c := c.index < numBytesAttributes
  body c stray := c.next (p.attributeLength order m stray c.visited)

/-- The loop in which something is done with each attribute, where reading outside of the
buffer fails and so does using up the fuel. -/
def walk {σ : Type*} (process : σ → ℕ → Except Failure σ) (numBytesAttributes : ℕ) :
    ℕ → σ → Cursor → Except Failure σ
  | 0, _, _ => .error .outOfFuel
  | fuel + 1, s, c =>
    if c.index < numBytesAttributes then
      if c.visited + 4 ≤ p.stunBufferSize then
        match process s c.visited with
        | .ok s =>
          walk process numBytesAttributes fuel s
            (c.next (Host.ntohs order (Host.word order m (c.visited + 2) 2)))
        | .error e => .error e
      else .error .outOfBounds
    else .ok s

variable {p order m} {numBytesAttributes location : ℕ} {stray : Stray}

/-- A length field in the buffer is what the bytes say in network order, on every host. -/
theorem attributeLength_of_le (h : location + 4 ≤ p.stunBufferSize) (stray : Stray) :
    p.attributeLength order m stray location =
      ByteOrder.mostFirst.load (m.read (location + 2) 2) := by
  rw [attributeLength, field, if_pos (by omega), Host.ntohs_word]

/-- A length field outside of the buffer can read as any length. -/
theorem attributeLength_of_lt (order : ByteOrder) (m : Memory Byte)
    (h : p.stunBufferSize < location + 4) {n : ℕ} (hn : n < 2 ^ 16) :
    p.attributeLength order m (fun _ => Host.htons order n) location = n := by
  have hlt : Host.htons order n < 256 ^ 2 := by
    have h := order.load_lt (bigEndian 2 n)
    rwa [length_bigEndian] at h
  rw [attributeLength, field, if_neg (by omega), Nat.mod_eq_of_lt hlt, Host.ntohs_htons order hn]

variable {σ : Type*} {process : σ → ℕ → Except Failure σ} {fuel : ℕ} {s s' : σ} {c : Cursor}

/-- What a walk does next: it ends, it fails, or it goes on behind an iteration of the loop. -/
theorem walk_cases {r : Except Failure σ}
    (hwalk : p.walk order m process numBytesAttributes (fuel + 1) s c = r) (stray : Stray) :
    (¬(p.loop order m numBytesAttributes).guard c ∧ r = .ok s) ∨
    (p.stunBufferSize < c.visited + 4 ∧ r = .error .outOfBounds) ∨
    (∃ e, process s c.visited = .error e ∧ r = .error e) ∨
    ((p.loop order m numBytesAttributes).guard c ∧ ∃ s₁, process s c.visited = .ok s₁ ∧
      p.walk order m process numBytesAttributes fuel s₁
        ((p.loop order m numBytesAttributes).body c stray) = r) := by
  rw [walk] at hwalk
  split_ifs at hwalk with hguard hfits
  · cases hprocess : process s c.visited with
    | error e =>
      rw [hprocess] at hwalk
      exact .inr (.inr (.inl ⟨e, rfl, hwalk.symm⟩))
    | ok s₁ =>
      rw [hprocess] at hwalk
      dsimp only at hwalk
      rw [Host.ntohs_word, ← attributeLength_of_le hfits stray] at hwalk
      exact .inr (.inr (.inr ⟨hguard, s₁, rfl, hwalk⟩))
  · exact .inr (.inl ⟨by omega, hwalk.symm⟩)
  · exact .inl ⟨hguard, hwalk.symm⟩

/-- A walk that comes to its end has performed the loop. -/
theorem endsAfter_of_walk
    (hwalk : p.walk order m process numBytesAttributes fuel s c = .ok s') (strays : ℕ → Stray) :
    ∃ n < fuel, (p.loop order m numBytesAttributes).EndsAfter strays c n := by
  induction fuel generalizing s c strays with
  | zero => cases hwalk
  | succ fuel ih =>
    obtain ⟨hguard, -⟩ | ⟨-, h⟩ | ⟨e, -, h⟩ | ⟨hguard, s₁, -, hrest⟩ :=
      walk_cases hwalk (strays 0)
    · exact ⟨0, Nat.succ_pos fuel, fun k hk => absurd hk (Nat.not_lt_zero k), hguard⟩
    · cases h
    · cases h
    · obtain ⟨n, hn, hends⟩ := ih hrest fun k => strays (k + 1)
      exact ⟨n + 1, Nat.succ_lt_succ hn, hends.succ hguard⟩

/-- A walk that uses up its fuel has performed as many iterations of the loop. -/
theorem guard_of_walk_eq_outOfFuel
    (hprocess : ∀ s location, process s location ≠ .error .outOfFuel)
    (hwalk : p.walk order m process numBytesAttributes fuel s c = .error .outOfFuel)
    (strays : ℕ → Stray) {k : ℕ} (hk : k < fuel) :
    (p.loop order m numBytesAttributes).guard
      ((p.loop order m numBytesAttributes).after strays c k) := by
  induction fuel generalizing s c strays k with
  | zero => omega
  | succ fuel ih =>
    obtain ⟨-, h⟩ | ⟨-, h⟩ | ⟨e, he, h⟩ | ⟨hguard, s₁, -, hrest⟩ := walk_cases hwalk (strays 0)
    · cases h
    · cases h
    · cases h
      exact absurd he (hprocess s c.visited)
    · cases k with
      | zero => exact hguard
      | succ k =>
        rw [While.after_succ]
        exact ih hrest (fun k => strays (k + 1)) (Nat.lt_of_succ_lt_succ hk)

end Program

end NetworkLabs.Stun
