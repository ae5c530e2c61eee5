import Mathlib.Algebra.Group.Int.Defs
import Mathlib.Algebra.Group.Nat.Defs

/-!
# Little-endian integers

Unsigned and two's complement integers stored as bytes, least significant byte
first. Storing an integer keeps it modulo the range of its width, which is what
a conversion to a machine integer of that width does.
-/

namespace Foundations

/-- One byte of memory, which is a `char` or an `unsigned char`. -/
abbrev Byte := BitVec 8

/-- The low `8 * width` bits of a number, least significant byte first. -/
def littleEndian : ℕ → ℕ → List Byte
  | 0, _ => []
  | width + 1, n => BitVec.ofNat 8 n :: littleEndian width (n / 256)

/-- The number stored by a list of bytes, least significant byte first. -/
def ofLittleEndian : List Byte → ℕ
  | [] => 0
  | b :: bs => b.toNat + 256 * ofLittleEndian bs

/-- The value of an integer after conversion to a 32-bit two's complement type. -/
def wrapInt (x : ℤ) : ℤ := x.bmod (2 ^ 32)

/-- The four bytes of a 32-bit two's complement integer, the least significant one first. -/
def intBytes (x : ℤ) : List Byte := littleEndian 4 (x % 2 ^ 32).toNat

/-- The 32-bit two's complement integer that four bytes store, the least significant
one first. -/
def bytesInt (bs : List Byte) : ℤ := wrapInt (ofLittleEndian bs)

/-- A number is stored in as many bytes as its width says. -/
@[simp] theorem length_littleEndian (width n : ℕ) : (littleEndian width n).length = width := by
  induction width generalizing n with
  | zero => rfl
  | succ width ih => simp [littleEndian, ih]

/-- Storing a number keeps it modulo the range of the width. -/
theorem ofLittleEndian_littleEndian (width n : ℕ) :
    ofLittleEndian (littleEndian width n) = n % 256 ^ width := by
  induction width generalizing n with
  | zero => simp [littleEndian, ofLittleEndian, Nat.mod_one]
  | succ width ih =>
    have hpow : 256 ^ (width + 1) = 256 * 256 ^ width := Nat.pow_succ'
    rw [littleEndian, ofLittleEndian, ih, BitVec.toNat_ofNat, hpow, Nat.mod_mul]

/-- Equal numbers of equal width are stored by the same bytes. -/
theorem ofLittleEndian_injective {bs cs : List Byte} (hlen : bs.length = cs.length)
    (h : ofLittleEndian bs = ofLittleEndian cs) : bs = cs := by
  induction bs generalizing cs with
  | nil => exact (List.length_eq_zero_iff.mp hlen.symm).symm
  | cons b bs ih =>
    cases cs with
    | nil => simp at hlen
    | cons c cs =>
      simp only [ofLittleEndian] at h
      have hb := b.isLt
      have hc := c.isLt
      have hhead : b = c := BitVec.eq_of_toNat_eq (by omega)
      have htail : bs = cs := ih (by simpa using hlen) (by omega)
      rw [hhead, htail]

/-- A 32-bit integer occupies four bytes, whatever its value. -/
@[simp] theorem length_intBytes (x : ℤ) : (intBytes x).length = 4 := length_littleEndian _ _

/-- Conversion reduces modulo `2 ^ 32` into the range centred at zero. -/
theorem wrapInt_eq (x : ℤ) : wrapInt x = (x + 2 ^ 31) % 2 ^ 32 - 2 ^ 31 := by
  unfold wrapInt Int.bmod
  dsimp only
  split <;> omega

/-- Conversion does not change an integer of the target range. -/
theorem wrapInt_of_mem {x : ℤ} (hlo : -2 ^ 31 ≤ x) (hhi : x < 2 ^ 31) : wrapInt x = x := by
  rw [wrapInt_eq]
  omega

/-- A converted integer lies in the target range. -/
theorem wrapInt_mem (x : ℤ) : -2 ^ 31 ≤ wrapInt x ∧ wrapInt x < 2 ^ 31 := by
  rw [wrapInt_eq]
  omega

/-- Decoding a stored integer gives its value after conversion. -/
@[simp] theorem bytesInt_intBytes (x : ℤ) : bytesInt (intBytes x) = wrapInt x := by
  rw [bytesInt, intBytes, ofLittleEndian_littleEndian, wrapInt_eq, wrapInt_eq]
  omega

/-- A list of bytes stores a number below the range of its length. -/
theorem ofLittleEndian_lt (bs : List Byte) : ofLittleEndian bs < 256 ^ bs.length := by
  induction bs with
  | nil => exact Nat.one_pos
  | cons b bs ih =>
    have hb := b.isLt
    rw [ofLittleEndian, List.length_cons, Nat.pow_succ']
    omega

/-- Storing the integer that four bytes store gives the bytes back. -/
theorem intBytes_bytesInt {bs : List Byte} (hlen : bs.length = 4) :
    intBytes (bytesInt bs) = bs := by
  apply ofLittleEndian_injective (by rw [length_intBytes, hlen])
  have hlt := ofLittleEndian_lt bs
  rw [hlen] at hlt
  rw [intBytes, ofLittleEndian_littleEndian, bytesInt, wrapInt_eq]
  omega

/-- Wrapping a summand does not change the wrapped sum. -/
@[simp] theorem wrapInt_wrapInt_add (x y : ℤ) : wrapInt (wrapInt x + y) = wrapInt (x + y) := by
  simp only [wrapInt_eq]
  omega

/-- Wrapping a summand does not change the stored bytes of the sum. -/
theorem intBytes_wrapInt_add (x y : ℤ) : intBytes (wrapInt x + y) = intBytes (x + y) := by
  rw [intBytes, intBytes, show (wrapInt x + y) % 2 ^ 32 = (x + y) % 2 ^ 32 by
    rw [wrapInt_eq]
    omega]

end Foundations
