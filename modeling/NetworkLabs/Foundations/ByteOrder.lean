import NetworkLabs.Foundations.NetworkOrder

/-!
# Integers in the byte order of a host

A host stores the bytes of an integer least or most significant byte first. What one host
stores, a host of the same order loads again.
-/

namespace Foundations

/-- The order in which a host stores the bytes of an integer. -/
inductive ByteOrder
  | leastFirst
  | mostFirst
  deriving DecidableEq

namespace ByteOrder

/-- Between bytes listed least significant byte first and the bytes in memory. -/
def arrange : ByteOrder → List Byte → List Byte
  | leastFirst, bs => bs
  | mostFirst, bs => bs.reverse

variable (order : ByteOrder)

/-- An unsigned integer of some bytes in memory, in the order of the host. -/
def store (width n : ℕ) : List Byte := order.arrange (littleEndian width n)

/-- The unsigned integer that bytes in memory store, in the order of the host. -/
def load (bs : List Byte) : ℕ := ofLittleEndian (order.arrange bs)

/-- A 32-bit two's complement integer in memory, in the order of the host. -/
def storeInt (x : ℤ) : List Byte := order.arrange (intBytes x)

/-- The 32-bit two's complement integer that bytes in memory store. -/
def loadInt (bs : List Byte) : ℤ := bytesInt (order.arrange bs)

/-- Arranging bytes twice gives them back, for either order. -/
@[simp] theorem arrange_arrange (bs : List Byte) : order.arrange (order.arrange bs) = bs := by
  cases order with
  | leastFirst => rfl
  | mostFirst => exact List.reverse_reverse bs

/-- Arranging keeps the number of bytes, in either order. -/
@[simp] theorem length_arrange (bs : List Byte) : (order.arrange bs).length = bs.length := by
  cases order with
  | leastFirst => rfl
  | mostFirst => exact List.length_reverse

/-- Arranging keeps the bytes themselves, so that a host of either order stores the same ones. -/
@[simp] theorem mem_arrange {b : Byte} {bs : List Byte} : b ∈ order.arrange bs ↔ b ∈ bs := by
  cases order with
  | leastFirst => exact Iff.rfl
  | mostFirst => exact List.mem_reverse

/-- A stored number takes its width, however small it is. -/
@[simp] theorem length_store (width n : ℕ) : (order.store width n).length = width := by
  simp [store]

/-- A stored `int` takes four bytes, in either order. -/
@[simp] theorem length_storeInt (x : ℤ) : (order.storeInt x).length = 4 := by
  simp [storeInt]

/-- Loading what was stored gives the number back, as far as it fits the width. -/
theorem load_store (width n : ℕ) : order.load (order.store width n) = n % 256 ^ width := by
  rw [load, store, arrange_arrange, ofLittleEndian_littleEndian]

/-- Storing what bytes of some number store gives the bytes back. -/
theorem store_load {bs : List Byte} {width : ℕ} (hlen : bs.length = width) :
    order.store width (order.load bs) = bs := by
  rw [store, load, littleEndian_ofLittleEndian (by simpa using hlen), arrange_arrange]

/-- As many bytes that store the same integer are the same. -/
theorem load_injective {bs cs : List Byte} (hlen : bs.length = cs.length)
    (h : order.load bs = order.load cs) : bs = cs := by
  calc
    bs = order.store cs.length (order.load bs) := (order.store_load hlen).symm
    _ = order.store cs.length (order.load cs) := by rw [h]
    _ = cs := order.store_load rfl

/-- Bytes store an integer below the range of their number. -/
theorem load_lt (bs : List Byte) : order.load bs < 256 ^ bs.length := by
  rw [load, ← order.length_arrange bs]
  exact ofLittleEndian_lt _

/-- Exclusive or commutes with the order of the bytes. -/
theorem arrange_xorBytes {bs cs : List Byte} (hlen : bs.length = cs.length) :
    order.arrange (xorBytes bs cs) = xorBytes (order.arrange bs) (order.arrange cs) := by
  cases order with
  | leastFirst => rfl
  | mostFirst => exact List.reverse_zipWith hlen

/-- The exclusive or of two integers is stored by that of their bytes. -/
theorem load_xorBytes {bs cs : List Byte} (hlen : bs.length = cs.length) :
    order.load (xorBytes bs cs) = order.load bs ^^^ order.load cs := by
  rw [load, order.arrange_xorBytes hlen, ofLittleEndian_xorBytes (by simpa using hlen), load, load]

/-- Loading a signed integer that was stored. -/
theorem loadInt_storeInt (x : ℤ) : order.loadInt (order.storeInt x) = wrapInt x := by
  rw [loadInt, storeInt, arrange_arrange, bytesInt_intBytes]

/-- A 32-bit number is loaded as it was stored. -/
theorem loadInt_storeInt_toInt (x : BitVec 32) :
    order.loadInt (order.storeInt x.toInt) = x.toInt := by
  rw [loadInt_storeInt]
  exact wrapInt_of_mem (by have := x.le_toInt; omega) (by have := x.toInt_lt; omega)

end ByteOrder

end Foundations
