import NetworkLabs.Foundations.Memory
import NetworkLabs.Foundations.LittleEndian

/-!
# MRT transmissions

A transmission is a checksum, a type, and for most types a fragment number, a
window size and a payload. Senders and receivers assemble it in an outgoing
buffer that still holds earlier transmissions and take it apart in an incoming
buffer that does too. The target is little-endian with signed `char`, 32-bit
`int` and 64-bit `unsigned long`.
-/

namespace NetworkLabs.Mrt

open Foundations

/-- The bytes of one UDP datagram, as `sendto` is given them and as `recvfrom` puts them into a
buffer. -/
abbrev Datagram := List Byte

/-! ### Definitions of `mrt.h` -/

/-- `MRT_RCON`, the type of a connection request, which a sender repeats until
it is accepted. -/
@[simp] def mrtRcon : ℤ := 1

/-- `MRT_ACON`, the acknowledgement of a connection request, which repeats its fragment number
and advertises the window. -/
@[simp] def mrtAcon : ℤ := 2

/-- `MRT_DATA`, a fragment of data or an empty transmission, which asks for an `ADAT` only. -/
@[simp] def mrtData : ℤ := 3

/-- `MRT_ADAT`, the type of an acknowledgement of data. It names the last fragment received in
order and the free bytes of the receiver's buffer. -/
@[simp] def mrtAdat : ℤ := 4

/-- `MRT_RCLS`, the type of a disconnection request, the last transmission of a sender. -/
@[simp] def mrtRcls : ℤ := 5

/-- `MRT_ACLS`, the acknowledgement of a disconnection request, after which both sides drop the
connection. -/
@[simp] def mrtAcls : ℤ := 6

/-- `MRT_HASH_LENGTH`, the bytes of the `unsigned long` that holds the checksum. -/
@[simp] def mrtHashLength : ℕ := 8

/-- `MRT_TYPE_LENGTH`, the bytes of the `int` that holds the type. -/
@[simp] def mrtTypeLength : ℕ := 4

/-- `MRT_FRAGMENT_LENGTH`, the bytes of the `int` that holds the fragment number. -/
@[simp] def mrtFragmentLength : ℕ := 4

/-- `MRT_WINDOWSIZE_LENGTH`, the bytes of the `int` that holds the window size. -/
@[simp] def mrtWindowsizeLength : ℕ := 4

/-- `MRT_HEADER_LENGTH`, the bytes of a full header with checksum, type, fragment number and
window size. No type of transmission is longer but `MRT_DATA`. -/
@[simp] def mrtHeaderLength : ℕ :=
  mrtHashLength + mrtTypeLength + mrtFragmentLength + mrtWindowsizeLength

/-- `MRT_TYPE_LOCATION`. The type stands right behind the checksum, where the string that is
hashed begins. -/
@[simp] def mrtTypeLocation : ℕ := mrtHashLength

/-- `MRT_FRAGMENT_LOCATION`, which is also the length of a transmission that has a type only. -/
@[simp] def mrtFragmentLocation : ℕ := mrtTypeLocation + mrtTypeLength

/-- `MRT_WINDOWSIZE_LOCATION`, which is also the length of a transmission without a window size
and a payload. -/
@[simp] def mrtWindowsizeLocation : ℕ := mrtFragmentLocation + mrtFragmentLength

/-- `MRT_PAYLOAD_LOCATION`. The payload stands behind the full header, also in a `DATA`, whose
window size nobody writes. -/
@[simp] def mrtPayloadLocation : ℕ := mrtHeaderLength

/-- `MAX_UDP_PAYLOAD_LENGTH`, the largest number of bytes of a datagram that is never
fragmented, as the comment of `mrt.h` has it. -/
@[simp] def maxUdpPayloadLength : ℕ := 508

/-- `MAX_MRT_PAYLOAD_LENGTH`, the number of bytes in a slot of the sender's buffer and the most
that one `DATA` carries. -/
@[simp] def maxMrtPayloadLength : ℕ := maxUdpPayloadLength - mrtHeaderLength

/-- `RECEIVER_MAX_WINDOW_SIZE` of `mrt_receiver.h`, the bytes of the buffer in the record of a
sender, which has room for five full payloads. -/
@[simp] def receiverMaxWindowSize : ℕ := maxMrtPayloadLength * 5

/-- `EXPECTED_RTT`, in microseconds. All periods and thresholds of the two modules are multiples
of it. -/
@[simp] def expectedRtt : ℤ := 10000

/-! ### The checksum -/

/-- The loop of `hash`: `hash * 33 + c` for every character up to the first NUL.
The end of the list stands for the end of the array that holds the string. -/
def hashFrom (h : BitVec 64) : List Byte → BitVec 64
  | [] => h
  | c :: str => if c = 0 then h else hashFrom ((h <<< 5) + h + c.signExtend 64) str

/-- `hash` of `utilities.c`, the djb2 hash of a NUL-terminated string. -/
def hash (str : List Byte) : BitVec 64 := hashFrom 5381 str

/-- The loop never looks behind a NUL, so that what follows it is not protected. -/
theorem hashFrom_append (h : BitVec 64) {xs : List Byte} (hxs : 0 ∈ xs) (ys : List Byte) :
    hashFrom h (xs ++ ys) = hashFrom h xs := by
  induction xs generalizing h with
  | nil => simp at hxs
  | cons c xs ih =>
    rw [List.cons_append, hashFrom, hashFrom]
    by_cases hc : c = 0
    · rw [if_pos hc, if_pos hc]
    · rw [if_neg hc, if_neg hc]
      exact ih _ ((List.mem_cons.mp hxs).resolve_left (Ne.symm hc))

/-- The hash depends only on the characters up to the first NUL. -/
theorem hash_append {xs : List Byte} (hxs : 0 ∈ xs) (ys : List Byte) :
    hash (xs ++ ys) = hash xs := hashFrom_append _ hxs ys

/-! ### Building transmissions -/

/-- Write the listed fields at their locations, one `memmove` for each. -/
def writeFields (out : Memory Byte) (fields : List (ℕ × List Byte)) : Memory Byte :=
  fields.foldl (fun m field => m.write field.1 field.2) out

/-- The common body of the `build_x` functions: write the type and the other
fields, terminate the string at `length` and put its hash in front. -/
def buildTransmission (out : Memory Byte) (type : ℤ) (fields : List (ℕ × List Byte))
    (length : ℕ) : Memory Byte :=
  let terminated :=
    (writeFields (out.write mrtTypeLocation (intBytes type)) fields).write length [0]
  let hashHolder := hash (terminated.read mrtHashLength (length + 1 - mrtHashLength))
  terminated.write 0 (littleEndian mrtHashLength hashHolder.toNat)

/-- `build_rcon`. The fragment number is the global `initial_frag`, which is 0 and which nothing
changes. -/
def buildRcon (out : Memory Byte) : Memory Byte :=
  buildTransmission out mrtRcon [(mrtFragmentLocation, intBytes 0)]
    (mrtHashLength + mrtTypeLength + mrtFragmentLength)

/-- `build_data_empty`, with the `fake_frag` -1, which the receiver is supposed to drop and to
answer with an `ADAT`. -/
def buildDataEmpty (out : Memory Byte) : Memory Byte :=
  buildTransmission out mrtData [(mrtFragmentLocation, intBytes (-1))]
    (mrtHashLength + mrtTypeLength + mrtFragmentLength)

/-- `build_data`, for the fragment number and the payload its caller selects. The
window size is not written. -/
def buildData (out : Memory Byte) (sendingFrag : ℤ) (payload : List Byte) : Memory Byte :=
  buildTransmission out mrtData
    [(mrtFragmentLocation, intBytes sendingFrag), (mrtPayloadLocation, payload)]
    (mrtPayloadLocation + payload.length)

/-- `build_rcls`, a transmission that ends behind its type. -/
def buildRcls (out : Memory Byte) : Memory Byte :=
  buildTransmission out mrtRcls [] (mrtHashLength + mrtTypeLength)

/-- `build_acon`, with the fragment number that the sender proposed; the window size is the
global `initial_window_size`. -/
def buildAcon (out : Memory Byte) (initialFrag : ℤ) : Memory Byte :=
  buildTransmission out mrtAcon
    [(mrtFragmentLocation, intBytes initialFrag),
      (mrtWindowsizeLocation, intBytes receiverMaxWindowSize)]
    mrtHeaderLength

/-- `build_adat`, with the number of the last fragment received in order and the number of bytes
that are free in the buffer. -/
def buildAdat (out : Memory Byte) (receivedFrag currWindowSize : ℤ) : Memory Byte :=
  buildTransmission out mrtAdat
    [(mrtFragmentLocation, intBytes receivedFrag),
      (mrtWindowsizeLocation, intBytes currWindowSize)]
    mrtHeaderLength

/-- `build_acls`, the counterpart of `build_rcls` in the receiver module. -/
def buildAcls (out : Memory Byte) : Memory Byte :=
  buildTransmission out mrtAcls [] (mrtHashLength + mrtTypeLength)

/-! ### Receiving transmissions -/

/-- The incoming buffer after `recvfrom` stored a datagram in it and the handler
terminated the string behind it. -/
def receiveInto (incoming : Memory Byte) (dg : Datagram) : Memory Byte :=
  (incoming.write 0 dg).write dg.length [0]

/-- The validation of both handlers: the hash of everything behind the hash field,
in an array of `size` bytes, equals the hash field. -/
def validTransmission (size : ℕ) (incoming : Memory Byte) : Bool :=
  (hash (incoming.read mrtHashLength (size - mrtHashLength))).toNat ==
    ofLittleEndian (incoming.read 0 mrtHashLength)

/-- The type field of the incoming buffer, as `memmove` copies it to `type_holder`. -/
def typeHolder (incoming : Memory Byte) : ℤ :=
  bytesInt (incoming.read mrtTypeLocation mrtTypeLength)

/-- The fragment number field of the incoming buffer, as `memmove` copies it to `frag_holder`. -/
def fragHolder (incoming : Memory Byte) : ℤ :=
  bytesInt (incoming.read mrtFragmentLocation mrtFragmentLength)

/-- The window size field of the incoming buffer, as `memmove` copies it to `winsize_holder`. -/
def winsizeHolder (incoming : Memory Byte) : ℤ :=
  bytesInt (incoming.read mrtWindowsizeLocation mrtWindowsizeLength)

end NetworkLabs.Mrt
