import NetworkLabs.Foundations.Run
import NetworkLabs.Stun.Level

/-!
# The whole test for the level of a cone NAT

`main` of `stun_cone_level.c` sends four requests while its response handler already runs, and
a NAT stands between the socket and the network. The handler moves from one attribute to the
next, so that a loop over the attributes that never ends is a run, too.
-/

namespace NetworkLabs.Stun.ConeLevel

open Foundations

/-- Why a thread does not move. Only a failure is undefined behaviour. -/
inductive Stop where
  /-- `recvfrom` waits for another datagram. -/
  | waiting
  /-- The thread has returned, or only waits for the other one to return. -/
  | ended
  | failed (e : Failure)
  deriving DecidableEq

variable (order : ByteOrder)

/-! ### The handler -/

/-- Where the handler is: at `recvfrom`, or at the guard of the loop over the attributes. -/
inductive Position where
  | receiving
  | walking (numBytesAttributes : ℕ) (c : Cursor)

/-- The handler with its variables and the number of responses that are still expected. -/
structure Handler where
  state : State
  position : Position
  expected : ℕ

/-- The handler goes on to the next response, and expects one fewer. -/
def Handler.finish (h : Handler) (s : State) : Handler :=
  { state := s, position := .receiving, expected := h.expected - 1 }

/-- From `recvfrom` to the loop over the attributes, or to the end of the iteration. -/
def Handler.receive (h : Handler) (arrival : Arrival) : Handler :=
  let (s, numBytesReceived) := recvfrom h.state arrival
  let s := s.nameSender order
  if 0 < numBytesReceived then
    let numBytesAttributes := Host.numBytesAttributes order s.responseBuffer
    if Host.word order s.responseBuffer 0 2 = Host.htons order 0x0101 then
      { h with state := s, position := .walking numBytesAttributes .start }
    else if Host.word order s.responseBuffer 0 2 = Host.htons order 0x0111 then
      h.finish (s.print .bindingError)
    else h.finish (s.print .neitherSuccessNorError)
  else { h with state := s.print .nothingReceived }

/-- The handler behind an iteration of the loop over the attributes. -/
def Handler.advance (h : Handler) (numBytesAttributes : ℕ) (c : Cursor) (s : State) : Handler :=
  let attributeLength := Host.ntohs order (Host.word order h.state.responseBuffer (c.visited + 2) 2)
  { h with state := s, position := .walking numBytesAttributes (c.next attributeLength) }

/-- An iteration of the loop over the attributes, or its end. -/
def Handler.walk (h : Handler) (numBytesAttributes : ℕ) (c : Cursor) : Except Failure Handler :=
  if c.index < numBytesAttributes then
    if c.visited + 4 ≤ Program.coneLevel.stunBufferSize then
      (processAttribute order h.state c.visited).map (h.advance order numBytesAttributes c)
    else .error .outOfBounds
  else .ok (h.finish h.state)

/-- A move of the handler, with the datagrams that wait at the socket. -/
def Handler.step (h : Handler) (socket : List Arrival) : Except Stop (Handler × List Arrival) :=
  match h.position with
  | .walking numBytesAttributes c =>
    match h.walk order numBytesAttributes c with
    | .ok h => .ok (h, socket)
    | .error e => .error (.failed e)
  | .receiving =>
    if h.expected = 0 then .error .ended
    else
      match socket with
      | [] => .error .waiting
      | arrival :: socket => .ok (h.receive order arrival, socket)

/-- `num_response_expected`, one response for each call of `sendto`. -/
def numResponseExpected : ℕ := 4

/-- The datagram that the next move receives, if it receives one. -/
def Handler.next (h : Handler) (socket : List Arrival) : List (Host.SockaddrIn × List Byte) :=
  match h.position, socket with
  | .receiving, .datagram source bytes :: _ => [(source, bytes)]
  | _, _ => []

/-- The datagrams that the handler is done with, among those that it has received. -/
def Handler.handled (h : Handler) (received : List (Host.SockaddrIn × List Byte)) :
    List (Host.SockaddrIn × List Byte) :=
  match h.position with
  | .receiving => received
  | .walking _ _ => received.dropLast

/-- The handler when its thread is created, before it has called `recvfrom`. -/
def Handler.initial : Handler :=
  { state := ConeLevel.initial, position := .receiving, expected := numResponseExpected }

/-! ### The requests -/

/-- `STUN_WITH_CHANGE_SIZE`, a header and one attribute with a value of four bytes. -/
def stunWithChangeSize : ℕ := stunHeaderSize + 8

/-- Build a request for a change of where the response comes from; the source has this text once
for each change. -/
def buildSpoof (requestBuffer : Memory Byte) (change : ℕ) : Memory Byte :=
  let stunType := Host.htons order 0x0001
  let stunLength := Host.htons order 0x0008
  let stunMagicCookie := Host.htonl order stunMagicCookie
  let stunChangeRequestHeader := Host.htonl order 0x00030004
  let stunChangeRequestAttribute := Host.htonl order change
  ((((requestBuffer.write 0 (order.store 2 stunType)).write 2 (order.store 2 stunLength)).write 4
    (order.store 4 stunMagicCookie)).write 20 (order.store 4 stunChangeRequestHeader)).write 24
    (order.store 4 stunChangeRequestAttribute)

/-- Another port, as the flag in the `CHANGE-REQUEST`. -/
def changePort : ℕ := 0x00000002

/-- Another address and another port, as the two flags in the `CHANGE-REQUEST`. -/
def changeBoth : ℕ := 0x00000006

/-- `build_port_spoof`, the request for a response from another port. -/
def buildPortSpoof (requestBuffer : Memory Byte) : Memory Byte :=
  buildSpoof order requestBuffer changePort

/-- `build_both_spoof`, the request for a response from another address and another port. -/
def buildBothSpoof (requestBuffer : Memory Byte) : Memory Byte :=
  buildSpoof order requestBuffer changeBoth

/-- `stun_server_addr`, as `inet_pton` and `htons` fill it in. All requests are sent there. -/
def stunServerAddr : Host.SockaddrIn :=
  ⟨Host.htons order originalServerPort, order.load originalServer⟩

/-- What `main` does between creating the handler and waiting for it. -/
inductive Statement where
  | buildPortSpoof
  | buildBothSpoof
  | sendto
  deriving DecidableEq

/-- The statements of `main` in their order. Each request is sent twice. -/
def statements : List Statement :=
  [.buildPortSpoof, .sendto, .sendto, .buildBothSpoof, .sendto, .sendto]

/-! ### The NAT -/

/-- A NAT that uses one translated address for all destinations, by what it admits. -/
inductive Level where
  | fullCone
  | restrictedCone
  | portRestrictedCone
  deriving DecidableEq

/-- Whether a datagram from a source is admitted after datagrams were sent to some
destinations. Before the first one there is no translated address. -/
def Level.admits : Level → List Host.SockaddrIn → Host.SockaddrIn → Bool
  | .fullCone, destinations, _ => !destinations.isEmpty
  | .restrictedCone, destinations, source => destinations.any (·.sAddr = source.sAddr)
  | .portRestrictedCone, destinations, source => source ∈ destinations

/-! ### The program behind the NAT -/

/-- The program, what it has sent where, what waits at its socket, and the datagrams that its
handler has received. -/
structure World where
  main : List Statement
  requestBuffer : Memory Byte
  sent : List (Host.SockaddrIn × List Byte)
  socket : List Arrival
  handler : Handler
  received : List (Host.SockaddrIn × List Byte)

/-- The state of the program when `main` has created the handler. -/
def World.initial : World :=
  { main := statements, requestBuffer := Memory.fill 0, sent := [], socket := [],
    handler := .initial, received := [] }

/-- What happens: `main` performs a statement, where `sendto` may fail; a datagram comes to the
NAT, from anyone, or an error to the socket; the handler moves. -/
inductive Action where
  | main (succeeds : Bool)
  | arrive (arrival : Arrival)
  | handler

/-- A statement of `main`. A call of `sendto` that fails sends nothing. -/
def World.perform (w : World) (statement : Statement) (succeeds : Bool) : World :=
  match statement with
  | .buildPortSpoof => { w with requestBuffer := buildPortSpoof order w.requestBuffer }
  | .buildBothSpoof => { w with requestBuffer := buildBothSpoof order w.requestBuffer }
  | .sendto =>
    if succeeds then
      let request := w.requestBuffer.read 0 stunWithChangeSize
      { w with sent := w.sent ++ [(stunServerAddr order, request)] }
    else w

/-- What comes to the socket. The NAT lets a datagram through according to what was
sent before. -/
def World.arrive (level : Level) (w : World) : Arrival → World
  | .failed => { w with socket := w.socket ++ [.failed] }
  | .datagram source bytes =>
    if level.admits (w.sent.map Prod.fst) source then
      { w with socket := w.socket ++ [.datagram source bytes] }
    else w

/-- An action: of `main`, of the handler, or of whoever sends something to the client. -/
def World.step (level : Level) (w : World) : Action → Except Stop World
  | .main succeeds =>
    match w.main with
    | [] => .error .ended
    | statement :: rest => .ok { w.perform order statement succeeds with main := rest }
  | .arrive arrival => .ok (w.arrive level arrival)
  | .handler =>
    match w.handler.step order w.socket with
    | .ok (handler, socket) =>
      .ok { w with handler, socket, received := w.received ++ w.handler.next w.socket }
    | .error e => .error e

variable {order} {h h' : Handler} {socket socket' : List Arrival}

/-- What a move of the handler is: it receives, or it performs an iteration of the loop over the
attributes, or it ends the loop. -/
theorem Handler.step_cases (hstep : h.step order socket = .ok (h', socket')) :
    (h.position = .receiving ∧ h.expected ≠ 0 ∧
      ∃ arrival, socket = arrival :: socket' ∧ h' = h.receive order arrival) ∨
    (socket' = socket ∧ ∃ numBytesAttributes c, h.position = .walking numBytesAttributes c ∧
      c.index < numBytesAttributes ∧ c.visited + 4 ≤ Program.coneLevel.stunBufferSize ∧
      ∃ s, processAttribute order h.state c.visited = .ok s ∧
        h' = h.advance order numBytesAttributes c s) ∨
    (socket' = socket ∧ ∃ numBytesAttributes c, h.position = .walking numBytesAttributes c ∧
      ¬c.index < numBytesAttributes ∧ h' = h.finish h.state) := by
  unfold Handler.step at hstep
  cases hposition : h.position with
  | receiving =>
    rw [hposition] at hstep
    dsimp only at hstep
    split_ifs at hstep with hexpected
    cases socket with
    | nil => cases hstep
    | cons arrival rest =>
      cases hstep
      exact .inl ⟨rfl, hexpected, arrival, rfl, rfl⟩
  | walking numBytesAttributes c =>
    rw [hposition] at hstep
    dsimp only at hstep
    rw [Handler.walk] at hstep
    by_cases hguard : c.index < numBytesAttributes
    · rw [if_pos hguard] at hstep
      by_cases hfits : c.visited + 4 ≤ Program.coneLevel.stunBufferSize
      · rw [if_pos hfits] at hstep
        cases hprocess : processAttribute order h.state c.visited with
        | error e =>
          rw [hprocess] at hstep
          cases hstep
        | ok s =>
          rw [hprocess] at hstep
          cases hstep
          exact .inr (.inl ⟨rfl, numBytesAttributes, c, rfl, hguard, hfits, s, hprocess, rfl⟩)
      · rw [if_neg hfits] at hstep
        cases hstep
    · rw [if_neg hguard] at hstep
      cases hstep
      exact .inr (.inr ⟨rfl, numBytesAttributes, c, rfl, hguard, rfl⟩)

/-- A move of the handler, on the handler and its socket. -/
def moves (order : ByteOrder) (p : Handler × List Arrival) (_ : Unit) :
    Except Stop (Handler × List Arrival) :=
  p.1.step order p.2

end NetworkLabs.Stun.ConeLevel
