import NetworkLabs.Foundations.ByteOrder
import NetworkLabs.Stun.Symmetry

/-!
# Words on a host of either byte order

The conversions between the order of a host and network order, and the words that a host
reads from memory. What was converted and compared in network order does not depend on the
host.
-/

namespace NetworkLabs.Stun.Host

open Foundations

variable (order : ByteOrder)

/-- `htons`: the word whose bytes in memory are in network order. -/
def htons (n : ℕ) : ℕ := order.load (bigEndian 2 n)

/-- `ntohs`: what the bytes of a word in memory say in network order. -/
def ntohs (n : ℕ) : ℕ := ByteOrder.mostFirst.load (order.store 2 n)

/-- `htonl`, the same for four bytes. -/
def htonl (n : ℕ) : ℕ := order.load (bigEndian 4 n)

/-- The unsigned integer of some width in bytes at a place in memory. -/
def word (m : Memory Byte) (offset width : ℕ) : ℕ := order.load (m.read offset width)

/-- A socket address for IPv4, with its members as they are in memory. -/
structure SockaddrIn where
  sinPort : ℕ
  sAddr : ℕ
  deriving DecidableEq

/-- `getnameinfo` with `NI_NUMERICHOST` for an IPv4 address: its four numbers in decimal, with
dots and the NUL at the end. -/
def getnameinfo (holder : Memory Char) (sAddr : ℕ) : Memory Char :=
  holder.write 0 (dottedDecimal (order.store 4 sAddr) ++ [nul])

/-- The conversions of a host that stores the least significant byte first. -/
theorem leastFirst_eq : htons .leastFirst = Stun.htons ∧ ntohs .leastFirst = Stun.ntohs ∧
    htonl .leastFirst = Stun.htonl ∧ word .leastFirst = Stun.word ∧
    getnameinfo .leastFirst = Stun.getnameinfo :=
  ⟨rfl, rfl, rfl, rfl, rfl⟩

variable {bs : List Byte} {n : ℕ}

/-- A word of some width is a number of that width. -/
theorem word_lt (m : Memory Byte) (offset width : ℕ) :
    word order m offset width < 256 ^ width := by
  have h := order.load_lt (m.read offset width)
  rwa [Memory.length_read] at h

/-- Two bytes in network order are converted to the number they were sent for. -/
theorem ntohs_load (hlen : bs.length = 2) :
    ntohs order (order.load bs) = ByteOrder.mostFirst.load bs := by
  rw [ntohs, order.store_load hlen]

/-- A number is sent as its bytes in network order. -/
theorem mostFirst_load_bigEndian (width n : ℕ) :
    ByteOrder.mostFirst.load (bigEndian width n) = n % 256 ^ width :=
  ByteOrder.mostFirst.load_store width n

/-- Converting there and back gives a 16-bit number again. -/
theorem ntohs_htons (hn : n < 2 ^ 16) : ntohs order (htons order n) = n := by
  rw [htons, ntohs_load order (length_bigEndian 2 n), mostFirst_load_bigEndian]
  exact Nat.mod_eq_of_lt hn

/-- What was read from the network does not depend on the host. -/
theorem ntohs_word (m : Memory Byte) (offset : ℕ) :
    ntohs order (word order m offset 2) = ByteOrder.mostFirst.load (m.read offset 2) :=
  ntohs_load order (Memory.length_read m offset 2)

/-- A comparison in network order is one of the bytes. -/
theorem word_eq_htons_iff (m : Memory Byte) (offset n : ℕ) :
    word order m offset 2 = htons order n ↔ m.read offset 2 = bigEndian 2 n := by
  constructor
  · exact order.load_injective (by simp)
  · intro h
    rw [word, h, htons]

/-- The words that hold the bytes of a list. -/
theorem word_of_read {m : Memory Byte} {offset : ℕ} (hread : m.read offset bs.length = bs)
    (xs ys zs : List Byte) (hbs : bs = xs ++ ys ++ zs) :
    word order m (offset + xs.length) ys.length = order.load ys := by
  subst hbs
  rw [List.append_assoc] at hread
  have hrest := (Memory.read_eq_append hread).2
  rw [word, (Memory.read_eq_append hrest).1]

end NetworkLabs.Stun.Host
