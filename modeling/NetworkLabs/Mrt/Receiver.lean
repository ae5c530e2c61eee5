import Mathlib.Tactic.Simps.Basic
import NetworkLabs.Mrt.Queue
import NetworkLabs.Mrt.Transmission

/-!
# The receiver module

`mrt_receiver.c` as a state machine. An action is one critical section of one
thread: `main_handler` handles a datagram, a call of `mrt_accept1` takes a
request and later registers it, a `checker` ticks, or a call of `mrt_receive1`
runs its loop once. Every section holds `q_lock`, so actions interleave in any
order. `main_handler` is the only user of the incoming buffer, and receiving a
datagram is part of the action that handles it. `mrt_accept_all` looks at the queue
of requests, which changes nothing, and calls `mrt_accept1` for each it sees.
-/

namespace NetworkLabs.Mrt

open Foundations

/-- `struct sockaddr_in`, the identifier of a sender. `sender_matcher` compares it byte by byte
with `memcmp`, padding included. -/
structure SockaddrIn where
  sinFamily : BitVec 16
  sinPort : BitVec 16
  sinAddr : BitVec 32
  sinZero : BitVec 64
  deriving DecidableEq

/-- The address of a sender bound to a port of the loopback interface, in network
byte order. -/
def loopback (port : BitVec 16) : SockaddrIn := ⟨2, port, 0x0100007f, 0⟩

namespace Receiver

/-- `CHECKER_PERIOD`, the time in microseconds that `checker` sleeps in each iteration and adds
to `inactive_time`. -/
@[simp] def checkerPeriod : ℤ := expectedRtt * 4

/-- `TIMEOUT_THRESHOLD`. When `inactive_time` is above it, `checker` leaves its loop. -/
@[simp] def timeoutThreshold : ℤ := checkerPeriod * 3

/-- The life of a `checker` thread, which `mrt_accept1` starts for a record and which ends when
the counter is above the threshold. -/
inductive CheckerThread
  | notStarted
  | running
  | ended
  deriving DecidableEq

/-- `sender_t`, the receiver's record of one connection. The life of its thread stands for
`checker_thread`. -/
structure Sender where
  addr : SockaddrIn
  buffer : Memory Byte
  bytesUnread : ℤ
  nextFrag : ℤ
  inactiveTime : ℤ
  checkerThread : CheckerThread

/-- The globals of the module, the records that calls of `mrt_accept1` hold between
their two critical sections, and what the module has done so far: the datagrams
it sent, the identifiers `mrt_accept1` returned, the bytes `mrt_receive1`
returned and the payloads buffered for each address. -/
structure State where
  pendingSendersQ : List Sender
  connectedSendersQ : List Sender
  accepting : List Sender
  incomingBuffer : Memory Byte
  outgoingBuffer : Memory Byte
  shouldClose : Bool
  closed : Bool
  outbox : List (SockaddrIn × Datagram)
  acceptedIds : List SockaddrIn
  returnedBytes : SockaddrIn → List Byte
  bufferedPayloads : SockaddrIn → List (List Byte)

/-- The state after `mrt_open` has succeeded. Both queues are empty and `main_handler` waits for
the first datagram. -/
def initial : State where
  pendingSendersQ := []
  connectedSendersQ := []
  accepting := []
  incomingBuffer := Memory.fill 0
  outgoingBuffer := Memory.fill 0
  shouldClose := false
  closed := false
  outbox := []
  acceptedIds := []
  returnedBytes := fun _ => []
  bufferedPayloads := fun _ => []

/-- `sender_matcher`, as a predicate for the functions of the queue module. -/
def senderMatcher (id : SockaddrIn) (r : Sender) : Bool := r.addr == id

/-- The connected record that `get_item_q` finds for an address, the first one if there are
several. -/
def State.record (s : State) (id : SockaddrIn) : Option Sender :=
  getItemQ s.connectedSendersQ (senderMatcher id)

/-- Pass a transmission in the outgoing buffer to `sendto`. The source does not look at what the
call returns. -/
@[simps] def State.sendTo (s : State) (out : Memory Byte) (length : ℕ) (addr : SockaddrIn) : State :=
  { s with outgoingBuffer := out, outbox := s.outbox ++ [(addr, out.read 0 length)] }

/-- Change the connected record of an address in place, through the pointer that `get_item_q`
returned. -/
@[simps] def State.updateRecord (s : State) (id : SockaddrIn) (f : Sender → Sender) : State :=
  { s with connectedSendersQ := updateItemQ s.connectedSendersQ (senderMatcher id) f }

/-! ### `main_handler` -/

/-- The record `main_handler` allocates for a new sender. The buffer is not
initialized; no byte of it is read before it is written. -/
def newSender (addr : SockaddrIn) (fragHolder : ℤ) : Sender where
  addr := addr
  buffer := Memory.fill 0
  bytesUnread := 0
  nextFrag := wrapInt (fragHolder + 1)
  inactiveTime := 0
  checkerThread := .notStarted

/-- The `MRT_RCON` case of `main_handler`. A sender that is pending already is left alone, one
that is connected gets a duplicate `ACON`, and only a new one is queued. -/
def handleRcon (s : State) (addr : SockaddrIn) (fragHolder : ℤ) : State :=
  match getItemQ s.pendingSendersQ (senderMatcher addr) with
  | some _ => s
  | none =>
    match s.record addr with
    | none => { s with pendingSendersQ := enqQ s.pendingSendersQ (newSender addr fragHolder) }
    | some _ => s.sendTo (buildAcon s.outgoingBuffer fragHolder) mrtHeaderLength addr

/-- The free space of a record's buffer, which `build_adat` advertises. -/
def Sender.currWindowSize (r : Sender) : ℤ := receiverMaxWindowSize - r.bytesUnread

/-- The test of the `MRT_DATA` case: enough free space and the expected number. -/
def Sender.admits (r : Sender) (payloadSize fragHolder : ℤ) : Bool :=
  decide (payloadSize ≤ r.currWindowSize) && decide (r.nextFrag = fragHolder)

/-- Buffer a payload behind the unread bytes, and expect the next fragment. -/
def Sender.append (r : Sender) (payload : List Byte) : Sender :=
  { r with
    buffer := r.buffer.write r.bytesUnread.toNat payload
    bytesUnread := r.bytesUnread + payload.length
    nextFrag := wrapInt (r.nextFrag + 1) }

/-- The end of the `MRT_DATA` case: reset the counter and reply with an `ADAT`. -/
def replyAdat (s : State) (addr : SockaddrIn) (r : Sender) : State :=
  let s' := s.updateRecord addr fun r => { r with inactiveTime := 0 }
  s'.sendTo (buildAdat s.outgoingBuffer (r.nextFrag - 1) r.currWindowSize) mrtHeaderLength addr

/-- The `MRT_DATA` case of `main_handler`. Whether the payload is taken or not, a connected
sender has proved that it is alive and gets an `ADAT`; one that is not connected is ignored. -/
def handleData (s : State) (addr : SockaddrIn) (numBytesReceived fragHolder : ℤ) :
    Except Fault State :=
  match s.record addr with
  | none => .ok s
  | some r =>
    let payloadSize := numBytesReceived - mrtHeaderLength
    if r.admits payloadSize fragHolder then
      if Memory.InBounds receiverMaxWindowSize r.bytesUnread payloadSize then
        let payload := s.incomingBuffer.read mrtPayloadLocation payloadSize.toNat
        let s' := s.updateRecord addr fun r => r.append payload
        .ok (replyAdat
          { s' with
            bufferedPayloads := Function.update s.bufferedPayloads addr
              (s.bufferedPayloads addr ++ [payload]) }
          addr (r.append payload))
      else .error .outOfBounds
    else .ok (replyAdat s addr r)

/-- The `MRT_RCLS` case of `main_handler`. The counter of a connected sender is set to the
threshold, which is not yet above it, so that the checker ends at its next iteration. -/
def handleRcls (s : State) (addr : SockaddrIn) : State :=
  match s.record addr with
  | some _ =>
    let s' := s.updateRecord addr fun r => { r with inactiveTime := timeoutThreshold }
    s'.sendTo (buildAcls s.outgoingBuffer) (mrtHashLength + mrtTypeLength) addr
  | none => { s with pendingSendersQ := popItemQ s.pendingSendersQ (senderMatcher addr) }

/-- The clean-up of `main_handler`: both queues and all records are deleted. -/
def cleanUp (s : State) : State :=
  { s with pendingSendersQ := [], connectedSendersQ := [], closed := true }

/-- The bytes of a datagram that `recvfrom` stores. What does not fit is cut off. -/
def stored (dg : Datagram) : Datagram := dg.take maxUdpPayloadLength

/-- `main_handler` for one datagram: the test of the close flag, the validation and
the dispatch on the type. -/
def mainHandler (s : State) (addr : SockaddrIn) (dg : Datagram) : Except Fault State :=
  if s.shouldClose then .ok (cleanUp s)
  else
    let incoming := receiveInto s.incomingBuffer (stored dg)
    let s' := { s with incomingBuffer := incoming }
    if validTransmission (maxUdpPayloadLength + 1) incoming then
      if typeHolder incoming = mrtRcon then .ok (handleRcon s' addr (fragHolder incoming))
      else if typeHolder incoming = mrtData then
        handleData s' addr (stored dg).length (fragHolder incoming)
      else if typeHolder incoming = mrtRcls then .ok (handleRcls s' addr)
      else .ok s'
    else .ok s'

/-- The type of the transmission that `main_handler` dispatches on, when the
datagram passes the validation. -/
def dispatchedType (s : State) (dg : Datagram) : Option ℤ :=
  let incoming := receiveInto s.incomingBuffer (stored dg)
  if validTransmission (maxUdpPayloadLength + 1) incoming then some (typeHolder incoming) else none

/-- The fragment number `main_handler` reads from a datagram, or from what is behind it in the
buffer. -/
def dispatchedFrag (s : State) (dg : Datagram) : ℤ :=
  fragHolder (receiveInto s.incomingBuffer (stored dg))

/-! ### The other threads -/

/-- The first critical section of `mrt_accept1`; with nothing pending it sleeps. -/
def mrtAccept1Dequeue (s : State) : State :=
  match deqQ s.pendingSendersQ with
  | none => s
  | some (r, queue) => { s with pendingSendersQ := queue, accepting := s.accepting ++ [r] }

/-- The second critical section of the call of `mrt_accept1` that holds the `i`-th
of the records taken: register it, send the `ACON`, start the checker. -/
def mrtAccept1Enqueue (s : State) (i : ℕ) : State :=
  match s.accepting[i]? with
  | none => s
  | some r =>
    let s' :=
      { s with
        accepting := s.accepting.eraseIdx i
        connectedSendersQ := enqQ s.connectedSendersQ { r with checkerThread := .running }
        acceptedIds := s.acceptedIds ++ [r.addr] }
    s'.sendTo (buildAcon s.outgoingBuffer (r.nextFrag - 1)) mrtHeaderLength r.addr

/-- One iteration of `checker` on its record, which is the last one if the counter is above the
threshold then. -/
def Sender.tick (r : Sender) : Sender :=
  if r.checkerThread = .running then
    { r with
      inactiveTime := r.inactiveTime + checkerPeriod
      checkerThread :=
        if timeoutThreshold < r.inactiveTime + checkerPeriod then .ended else .running }
  else r

/-- One iteration of the checker of the `i`-th connected record. -/
def checker (s : State) (i : ℕ) : State :=
  { s with connectedSendersQ := s.connectedSendersQ.modify i Sender.tick }

/-- The outcome of one iteration of the loop of `mrt_receive1`. -/
inductive Received
  /-- The identifier belongs to no connection: the call returns -1. -/
  | spurious
  /-- The call sleeps and tries again. -/
  | waits
  /-- The call returns the number of these bytes. -/
  | returns (bytes : List Byte)
  deriving DecidableEq

/-- The unread bytes of a record, which `mrt_receive1` copies from and moves to the front. -/
def Sender.unread (r : Sender) : List Byte := r.buffer.read 0 r.bytesUnread.toNat

/-- Remove the bytes that were read and move the remaining ones to the front. -/
def Sender.consume (r : Sender) (bytesRead : ℤ) : Sender :=
  if bytesRead < r.bytesUnread then
    { r with
      buffer := r.buffer.move 0 bytesRead.toNat (r.bytesUnread - bytesRead).toNat
      bytesUnread := r.bytesUnread - bytesRead }
  else { r with bytesUnread := 0 }

/-- The number of bytes a call of `mrt_receive1` reads from a record. -/
def Sender.bytesRead (r : Sender) (len : ℤ) : ℤ :=
  if len < r.bytesUnread then len else r.bytesUnread

/-- Both copies of `mrt_receive1`, out of the record's buffer and to its front, stay
inside the buffer. -/
def Sender.CopiesInBounds (r : Sender) (bytesRead : ℤ) : Prop :=
  Memory.InBounds receiverMaxWindowSize 0 bytesRead ∧
    Memory.InBounds receiverMaxWindowSize bytesRead (r.bytesUnread - bytesRead)

instance (r : Sender) (bytesRead : ℤ) : Decidable (r.CopiesInBounds bytesRead) :=
  inferInstanceAs (Decidable (_ ∧ _))

/-- One iteration of the loop of `mrt_receive1`. Records stay connected until the
clean-up, so the look-up before the loop finds the same record. -/
def mrtReceive1 (s : State) (id : SockaddrIn) (len : ℤ) : Except Fault (State × Received) :=
  match s.record id with
  | none => .ok (s, .spurious)
  | some r =>
    if r.bytesUnread ≤ 0 then
      if timeoutThreshold < r.inactiveTime then .ok (s, .returns []) else .ok (s, .waits)
    else if r.CopiesInBounds (r.bytesRead len) then
      let bytes := r.buffer.read 0 (r.bytesRead len).toNat
      let s' := s.updateRecord id fun r => r.consume (r.bytesRead len)
      .ok ({ s' with
              returnedBytes := Function.update s.returnedBytes id (s.returnedBytes id ++ bytes) },
            .returns bytes)
    else .error .outOfBounds

/-- The critical sections of the module. A call of `mrt_accept1` has two, as it lets go of
`q_lock` between the taking of a record and its registering. -/
inductive Action
  /-- `main_handler` receives a datagram and handles it. -/
  | mainHandler (addr : SockaddrIn) (dg : Datagram)
  /-- A call of `mrt_accept1` looks for a pending request. -/
  | mrtAccept1Dequeue
  /-- A call of `mrt_accept1` registers the `i`-th of the records taken. -/
  | mrtAccept1Enqueue (i : ℕ)
  /-- The checker of the `i`-th connected record runs. -/
  | checker (i : ℕ)
  /-- A call of `mrt_receive1` runs its loop once. -/
  | mrtReceive1 (id : SockaddrIn) (len : ℤ)
  /-- `mrt_close` sets the close flag. -/
  | mrtClose
  deriving DecidableEq

/-- One critical section. After the clean-up `main_handler` has returned and the checkers
are cancelled; every other use of the queues touches freed memory. The cancellation reaches
a checker in its `sleep`. One that is waiting for `q_lock` goes on instead, with its freed
record, and is the subject of `Lifetime`, where each call and each checker has a position. -/
def step (s : State) (act : Action) : Except Fault State :=
  match act with
  | .mainHandler addr dg => if s.closed then .ok s else mainHandler s addr dg
  | .checker i => if s.closed then .ok s else .ok (checker s i)
  | .mrtClose => .ok { s with shouldClose := true }
  | .mrtAccept1Dequeue =>
    if s.closed then .error .useAfterFree else .ok (mrtAccept1Dequeue s)
  | .mrtAccept1Enqueue i =>
    if s.closed then .error .useAfterFree else .ok (mrtAccept1Enqueue s i)
  | .mrtReceive1 id len =>
    if s.closed then .error .useAfterFree else (mrtReceive1 s id len).map Prod.fst

end Receiver

end NetworkLabs.Mrt
