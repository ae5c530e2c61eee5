import NetworkLabs.Stun.Loop

/-!
# The test for the level of a cone NAT

The response handler of `stun_cone_level.c`, on a host of either byte order. It keeps no
verdict: what it finds out is printed at once.
-/

namespace NetworkLabs.Stun.ConeLevel

open Foundations

/-- `HOSTNAME_HOLDER_SIZE`, the characters of a hostname at most. -/
def hostnameHolderSize : ℕ := 100

/-- The server that all requests go to, by its address in dotted decimal notation. -/
def originalServerIpv4 : List Char := "77.72.169.210".toList

/-- Its port, the usual one for STUN. -/
def originalServerPort : ℕ := 3478

/-- What the handler prints, with the values it fills in. -/
inductive Report where
  | responded (server : List Char)
  | mappedAddress (ip : List Char) (port : ℕ)
  | sourceAddress (ip : List Char) (port : ℕ)
  | changedAddress (ip : List Char) (port : ℕ)
  /-- Behind a full cone NAT; the peers can use the address. -/
  | fullCone (ip : List Char) (port : ℕ)
  /-- At least behind a restricted cone NAT, and not behind a port restricted one. -/
  | restrictedCone (ip : List Char) (port : ℕ)
  | irrelevantAttribute
  | bindingError
  | neitherSuccessNorError
  | nothingReceived
  deriving DecidableEq

/-- The variables of the handler that outlive an iteration, and what it has printed. -/
structure State where
  responseBuffer : Memory Byte
  serverAddrHolder : Option Host.SockaddrIn
  serverHostnameHolder : Memory Char
  attrHostnameHolder : Memory Char
  attrAddrHolder : Host.SockaddrIn
  printed : List Report

/-- The state in which the handler starts, before it has received or printed anything. -/
def initial : State :=
  { responseBuffer := Memory.fill 0, serverAddrHolder := none,
    serverHostnameHolder := Memory.fill nul, attrHostnameHolder := Memory.fill nul,
    attrAddrHolder := ⟨0, 0⟩, printed := [] }

/-- The string in a holder, as far as it is printed or compared. -/
def text (holder : Memory Char) : List Char :=
  (holder.read 0 hostnameHolderSize).takeWhile (· ≠ nul)

/-- `printf` and `puts`, with what they fill in. -/
def State.print (s : State) (report : Report) : State :=
  { s with printed := s.printed ++ [report] }

variable (order : ByteOrder)

/-- Print the address of the attribute at a place; the source has this text once for each
type. -/
def State.found (s : State) (report : List Char → ℕ → Report) (location : ℕ) : State :=
  let attrAddrHolder : Host.SockaddrIn :=
    ⟨Host.word order s.responseBuffer (location + 6) 2,
      Host.word order s.responseBuffer (location + 8) 4⟩
  let attrHostnameHolder := Host.getnameinfo order s.attrHostnameHolder attrAddrHolder.sAddr
  State.print { s with attrAddrHolder, attrHostnameHolder }
    (report (text attrHostnameHolder) (Host.ntohs order attrAddrHolder.sinPort))

/-- The port of the sender, which is zero before there was one. -/
def State.serverPort (s : State) : ℕ :=
  match s.serverAddrHolder with
  | none => 0
  | some server => server.sinPort

/-- What it means that a response with this mapped address has come in. -/
def State.judge (s : State) : State :=
  if Host.htons order originalServerPort ≠ s.serverPort then
    if ¬sameText nul inetAddrstrlen (s.serverHostnameHolder.read 0 inetAddrstrlen)
        (originalServerIpv4 ++ [nul]) then
      s.print (.fullCone (text s.attrHostnameHolder) (Host.ntohs order s.attrAddrHolder.sinPort))
    else
      s.print
        (.restrictedCone (text s.attrHostnameHolder) (Host.ntohs order s.attrAddrHolder.sinPort))
  else s

/-- Process the attribute at a place in the buffer. Addresses are reported, and a mapped one
shows the level of the NAT. -/
def processAttribute (s : State) (location : ℕ) : Except Failure State :=
  let attributeTypeNetworkByte := Host.word order s.responseBuffer location 2
  if attributeTypeNetworkByte = Host.htons order 0x0001 then
    if location + 12 ≤ Program.coneLevel.stunBufferSize then
      .ok ((s.found order .mappedAddress location).judge order)
    else .error .outOfBounds
  else if attributeTypeNetworkByte = Host.htons order 0x0004 then
    if location + 12 ≤ Program.coneLevel.stunBufferSize then
      .ok (s.found order .sourceAddress location)
    else .error .outOfBounds
  else if attributeTypeNetworkByte = Host.htons order 0x0005 then
    if location + 12 ≤ Program.coneLevel.stunBufferSize then
      .ok (s.found order .changedAddress location)
    else .error .outOfBounds
  else .ok (s.print .irrelevantAttribute)

/-- Process what the buffer holds. The attributes of a success response are walked through, and
anything else is only reported. -/
def processResponse (fuel : ℕ) (s : State) : Except Failure State :=
  let numBytesAttributes := Host.numBytesAttributes order s.responseBuffer
  if Host.word order s.responseBuffer 0 2 = Host.htons order 0x0101 then
    Program.coneLevel.walk order s.responseBuffer (processAttribute order) numBytesAttributes fuel s
      .start
  else if Host.word order s.responseBuffer 0 2 = Host.htons order 0x0111 then
    .ok (s.print .bindingError)
  else .ok (s.print .neitherSuccessNorError)

/-- What `recvfrom` returns: an error, or a datagram with the address of its sender. -/
inductive Arrival where
  | failed
  | datagram (source : Host.SockaddrIn) (bytes : List Byte)

/-- `recvfrom`, with the number of bytes received. What does not fit the buffer is cut off, and
an error writes nothing. -/
def recvfrom (s : State) : Arrival → State × ℤ
  | .failed => (s, -1)
  | .datagram source bytes =>
    ({ s with responseBuffer := Program.coneLevel.receive s.responseBuffer bytes,
              serverAddrHolder := some source },
      (bytes.take Program.coneLevel.stunBufferSize).length)

/-- The text of the address of the sender goes to its holder and is printed. -/
def State.nameSender (s : State) : State :=
  let serverHostnameHolder :=
    match s.serverAddrHolder with
    | none => s.serverHostnameHolder
    | some server => Host.getnameinfo order s.serverHostnameHolder server.sAddr
  State.print { s with serverHostnameHolder } (.responded (text serverHostnameHolder))

/-- `response_handler`, for the number of responses that are still expected. -/
def responseHandler (fuel : ℕ) : ℕ → State → List Arrival → Except Failure State
  | 0, s, _ => .ok s
  | _ + 1, _, [] => .error .waiting
  | expected + 1, s, arrival :: arrivals =>
    let (s, numBytesReceived) := recvfrom s arrival
    let s := s.nameSender order
    if 0 < numBytesReceived then
      match processResponse order fuel s with
      | .ok s => responseHandler fuel expected s arrivals
      | .error e => .error e
    else responseHandler fuel (expected + 1) (s.print .nothingReceived) arrivals

variable {order} {s s' : State} {location : ℕ}

/-- Judging a response only prints, and leaves the buffer as it is. -/
theorem judge_responseBuffer : (s.judge order).responseBuffer = s.responseBuffer := by
  rw [State.judge]
  split_ifs <;> rfl

/-- Processing an attribute leaves the buffer alone, so that the loop reads what was received. -/
theorem processAttribute_responseBuffer (h : processAttribute order s location = .ok s') :
    s'.responseBuffer = s.responseBuffer := by
  rw [processAttribute] at h
  split_ifs at h <;> cases h
  · exact judge_responseBuffer
  all_goals rfl

end NetworkLabs.Stun.ConeLevel
