import Mathlib.Data.List.Basic
import NetworkLabs.Foundations.LittleEndian

/-!
# Network byte order

Integers as they are sent, most significant byte first, on a machine that stores them least
significant byte first. Exclusive or works on the bytes in either order.
-/

namespace Foundations

/-- The low `8 * width` bits of a number, most significant byte first. -/
def bigEndian (width n : ℕ) : List Byte := (littleEndian width n).reverse

/-- The conversion between host and network byte order, in both directions. -/
def swapBytes (width n : ℕ) : ℕ := ofLittleEndian (bigEndian width n)

/-- The exclusive or of corresponding bytes, as far as both lists go. -/
def xorBytes (bs cs : List Byte) : List Byte := List.zipWith (· ^^^ ·) bs cs

/-- A number in network order takes its width. -/
@[simp] theorem length_bigEndian (width n : ℕ) : (bigEndian width n).length = width := by
  simp [bigEndian]

/-- Bytes are what stores the number they store. -/
theorem littleEndian_ofLittleEndian {bs : List Byte} {width : ℕ} (hlen : bs.length = width) :
    littleEndian width (ofLittleEndian bs) = bs := by
  apply ofLittleEndian_injective (by rw [length_littleEndian, hlen])
  rw [ofLittleEndian_littleEndian, ← hlen]
  exact Nat.mod_eq_of_lt (ofLittleEndian_lt bs)

/-- Converting what was sent gives the number. -/
theorem swapBytes_bigEndian (width n : ℕ) :
    swapBytes width (ofLittleEndian (bigEndian width n)) = n % 256 ^ width := by
  rw [swapBytes, bigEndian, littleEndian_ofLittleEndian (length_bigEndian width n), bigEndian,
    List.reverse_reverse, ofLittleEndian_littleEndian]

/-- Equal numbers below the range of the width are sent as the same bytes. -/
theorem bigEndian_injective {width m n : ℕ} (hm : m < 256 ^ width) (hn : n < 256 ^ width)
    (h : bigEndian width m = bigEndian width n) : m = n := by
  have hvalue := congrArg (fun bs => swapBytes width (ofLittleEndian bs)) h
  simp only [swapBytes_bigEndian] at hvalue
  rwa [Nat.mod_eq_of_lt hm, Nat.mod_eq_of_lt hn] at hvalue

/-- Only bytes that have a partner are combined. -/
@[simp] theorem length_xorBytes (bs cs : List Byte) :
    (xorBytes bs cs).length = min bs.length cs.length :=
  List.length_zipWith

/-- The exclusive or of two numbers is stored by that of their bytes. -/
theorem ofLittleEndian_xorBytes {bs cs : List Byte} (hlen : bs.length = cs.length) :
    ofLittleEndian (xorBytes bs cs) = ofLittleEndian bs ^^^ ofLittleEndian cs := by
  induction bs generalizing cs with
  | nil =>
    rw [List.length_nil] at hlen
    rw [List.length_eq_zero_iff.mp hlen.symm]
    rfl
  | cons b bs ih =>
    cases cs with
    | nil => cases hlen
    | cons c cs =>
      have hrest := ih (Nat.succ.inj hlen)
      -- the low byte and the remaining ones are combined separately
      have hdigit : ∀ (d : Byte) (ds : List Byte),
          ofLittleEndian (d :: ds) % 2 ^ 8 = d.toNat ∧
            ofLittleEndian (d :: ds) / 2 ^ 8 = ofLittleEndian ds := by
        intro d ds
        have hd := d.isLt
        rw [ofLittleEndian]
        omega
      have hlow : (ofLittleEndian (b :: bs) ^^^ ofLittleEndian (c :: cs)) % 2 ^ 8 =
          (b ^^^ c).toNat := by
        rw [Nat.xor_mod_two_pow, (hdigit b bs).1, (hdigit c cs).1, BitVec.toNat_xor]
      have hhigh : (ofLittleEndian (b :: bs) ^^^ ofLittleEndian (c :: cs)) / 2 ^ 8 =
          ofLittleEndian (xorBytes bs cs) := by
        rw [Nat.xor_div_two_pow, (hdigit b bs).2, (hdigit c cs).2, hrest]
      have hsplit := Nat.mod_add_div (ofLittleEndian (b :: bs) ^^^ ofLittleEndian (c :: cs)) (2 ^ 8)
      rw [hlow, hhigh] at hsplit
      exact hsplit

/-- The exclusive or of two numbers is stored as that of their bytes. -/
theorem littleEndian_xor (width m n : ℕ) :
    littleEndian width (m ^^^ n) = xorBytes (littleEndian width m) (littleEndian width n) := by
  induction width generalizing m n with
  | zero => rfl
  | succ width ih =>
    have hhead : BitVec.ofNat 8 (m ^^^ n) = BitVec.ofNat 8 m ^^^ BitVec.ofNat 8 n :=
      BitVec.ofNat_xor
    have htail : (m ^^^ n) / 256 = m / 256 ^^^ n / 256 := Nat.xor_div_two_pow (n := 8)
    rw [littleEndian, hhead, htail, ih, littleEndian, littleEndian, xorBytes, xorBytes,
      List.zipWith_cons_cons]

/-- It is sent as that of their bytes, too. -/
theorem bigEndian_xor (width m n : ℕ) :
    bigEndian width (m ^^^ n) = xorBytes (bigEndian width m) (bigEndian width n) := by
  rw [bigEndian, littleEndian_xor, xorBytes, List.reverse_zipWith (by simp)]
  rfl

end Foundations
