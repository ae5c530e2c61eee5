import NetworkLabs.Foundations.CString
import NetworkLabs.Foundations.DottedDecimal
import NetworkLabs.Stun.Response

/-!
# The test for a symmetric NAT

The response handler of `stun_symmetry.c` on a little-endian machine. A word that is not
converted is what the machine reads from the bytes in network order. Reading outside of
`response_buffer` fails, and so does a walk that uses up its fuel.
-/

namespace NetworkLabs.Stun

open Foundations

/-- Why the handler does not come to an end. Reading outside of the buffer is undefined
behaviour. -/
inductive Failure where
  | outOfBounds
  | outOfFuel
  /-- `recvfrom` waits for another datagram. -/
  | waiting
  deriving DecidableEq

/-- `INET_ADDRSTRLEN`, the most characters of a text that are copied or compared. -/
def inetAddrstrlen : ℕ := 16

/-- The character that ends a string in the holders. -/
def nul : Char := Char.ofNat 0

/-- `htons`, which swaps the bytes on a little-endian host. -/
def htons (n : ℕ) : ℕ := swapBytes 2 n

/-- `ntohs`, which does the same. -/
def ntohs (n : ℕ) : ℕ := swapBytes 2 n

/-- `htonl`, which turns four bytes around. -/
def htonl (n : ℕ) : ℕ := swapBytes 4 n

/-- The unsigned integer of some width in bytes at a place in memory. -/
def word (m : Memory Byte) (offset width : ℕ) : ℕ := ofLittleEndian (m.read offset width)

/-- `getnameinfo` with `NI_NUMERICHOST` for an IPv4 address, which writes its text and a NUL. -/
def getnameinfo (holder : Memory Char) (sAddr : ℕ) : Memory Char :=
  holder.write 0 (dottedDecimal (littleEndian 4 sAddr) ++ [nul])

/-- The variables of the handler that outlive an iteration, and the globals; `addrHolder` has
no IPv4 address before the first datagram. -/
structure State where
  responseBuffer : Memory Byte
  addrHolder : Option ℕ
  hostnameHolder : Memory Char
  natIpv4Holder : Memory Char
  natPortHolder : ℕ
  isBehindSymmetricNat : ℕ

/-- The state in which the handler starts, with all of its buffers zeroed. -/
def initial : State :=
  { responseBuffer := Memory.fill 0, addrHolder := none, hostnameHolder := Memory.fill nul,
    natIpv4Holder := Memory.fill nul, natPortHolder := 0, isBehindSymmetricNat := 0 }

/-- Take note of a mapped address; the source has this text once for each kind. -/
def State.found (s : State) (sinPort sAddr : ℕ) : State :=
  let s := { s with hostnameHolder := getnameinfo s.hostnameHolder sAddr }
  if s.natIpv4Holder 0 = nul then
    { s with
      natIpv4Holder := s.natIpv4Holder.write 0 (s.hostnameHolder.read 0 inetAddrstrlen)
      natPortHolder := ntohs sinPort }
  else if ¬sameText nul inetAddrstrlen (s.natIpv4Holder.read 0 inetAddrstrlen)
        (s.hostnameHolder.read 0 inetAddrstrlen) ∨ s.natPortHolder ≠ ntohs sinPort then
    { s with isBehindSymmetricNat := 1 }
  else s

/-- Process the attribute at a place in the buffer. One that carries no mapped address is passed
over. -/
def processAttribute (s : State) (location : ℕ) : Except Failure State :=
  let attributeType := word s.responseBuffer location 2
  if attributeType = htons 0x0001 then
    if location + 12 ≤ stunBufferSize then
      .ok (s.found (word s.responseBuffer (location + 6) 2)
        (word s.responseBuffer (location + 8) 4))
    else .error .outOfBounds
  else if attributeType = htons 0x0020 then
    if location + 12 ≤ stunBufferSize then
      let stunMagicCookie := htonl stunMagicCookie
      .ok (s.found (word s.responseBuffer (location + 6) 2 ^^^ stunMagicCookie % 2 ^ 16)
        (word s.responseBuffer (location + 8) 4 ^^^ stunMagicCookie))
    else .error .outOfBounds
  else .ok s

/-- The walk through the attributes. It ends when `index` is beyond the attributes, fails where
it would read outside of the buffer, and has fuel for its iterations. -/
def walk (numBytesAttributes : ℕ) : ℕ → State → ℕ → ℕ → Except Failure State
  | 0, _, _, _ => .error .outOfFuel
  | fuel + 1, s, location, index =>
    if index < numBytesAttributes then
      -- `index` already is the distance from the first attribute, and `location` keeps the sum
      let location := location + index
      if location + 4 ≤ stunBufferSize then
        let attributeLength := ntohs (word s.responseBuffer (location + 2) 2)
        match processAttribute s location with
        | .ok s => walk numBytesAttributes fuel s location ((index + (attributeLength + 4)) % 2 ^ 16)
        | .error e => .error e
      else .error .outOfBounds
    else .ok s

/-- Process what the buffer holds; anything but a success response is only reported. -/
def processResponse (fuel : ℕ) (s : State) : Except Failure State :=
  if word s.responseBuffer 0 2 = htons 0x0101 then
    walk (ntohs (word s.responseBuffer 2 2)) fuel s stunHeaderSize 0
  else .ok s

/-- What `recvfrom` returns: an error, or a datagram with the IPv4 address of its sender. -/
inductive Arrival where
  | failed
  | datagram (source : ℕ) (bytes : List Byte)

/-- `recvfrom`, with the number of bytes received. An error changes neither the buffer nor the
address. -/
def recvfrom (s : State) : Arrival → State × ℤ
  | .failed => (s, -1)
  | .datagram source bytes =>
    let bytes := bytes.take stunBufferSize
    ({ s with responseBuffer := s.responseBuffer.write 0 bytes, addrHolder := some source },
      bytes.length)

/-- The text of the address of the sender goes to the hostname holder. -/
def State.nameSender (s : State) : State :=
  match s.addrHolder with
  | none => s
  | some sAddr => { s with hostnameHolder := getnameinfo s.hostnameHolder sAddr }

/-- `response_handler`, for the number of responses that are still expected. -/
def responseHandler (fuel : ℕ) : ℕ → State → List Arrival → Except Failure State
  | 0, s, _ => .ok s
  | _ + 1, _, [] => .error .waiting
  | expected + 1, s, arrival :: arrivals =>
    let (s, numBytesReceived) := recvfrom s arrival
    let s := s.nameSender
    if 0 < numBytesReceived then
      match processResponse fuel s with
      | .ok s => responseHandler fuel expected s arrivals
      | .error e => .error e
    else responseHandler fuel (expected + 1) s arrivals

/-- The arrival of a response, as one datagram of its server. -/
def Response.arrival (r : Response) : Arrival :=
  .datagram (ofLittleEndian (bigEndian 4 r.source.toNat)) r.encode

end NetworkLabs.Stun
