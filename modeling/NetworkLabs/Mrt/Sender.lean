import Mathlib.Tactic.Simps.Basic
import NetworkLabs.Mrt.Transmission

/-!
# The sender module

`mrt_sender.c` as a state machine for one connection. An action is one critical
section of one thread: of a call of `mrt_connect`, `mrt_send` or `mrt_disconnect`,
or of the threads `handler`, `sender` and `checker`. What a thread does next and
its local variables form its program counter. The `handler` holds `receiver_lock`
between the two sections of its `MRT_ADAT` case, and a section that needs the lock
then does nothing.

The look-up of a connection in `connections_q` finds it until its `handler` removes
it, so the queue is a flag of each connection here. Where a look-up before a loop
has the same outcomes as the one in it, only the latter is modelled.
-/

namespace NetworkLabs.Mrt.Sender

open Foundations

/-- `EMPTY_DATA_PERIOD`, the time in microseconds that `sender` sleeps after an empty
transmission. -/
@[simp] def emptyDataPeriod : ℤ := expectedRtt * 2

/-- `RESEND_TIMEOUT_THRESHOLD`. When `resend_time` is above it, the buffered fragments are
marked as unsent. -/
@[simp] def resendTimeoutThreshold : ℤ := emptyDataPeriod * 3

/-- `CLOSE_TIMEOUT_INCREMENT`, which `checker` adds to `inactive_time` in every iteration. -/
@[simp] def closeTimeoutIncrement : ℤ := emptyDataPeriod * 2

/-- `CLOSE_TIMEOUT_THRESHOLD`. When `inactive_time` is above it, `checker` flags the connection
to close. -/
@[simp] def closeTimeoutThreshold : ℤ := closeTimeoutIncrement * 3

/-- `MAX_PAYLOADS_BUFFERABLE`, the number of slots in the buffer of a connection. -/
@[simp] def maxPayloadsBufferable : ℕ := 10

/-- `connection_t`, without the identifier, the socket, the addresses and the locks. -/
structure Connection where
  lastSentIndex : ℤ
  lastPayloadIndex : ℤ
  senderBuffer : Memory Byte
  numBytesBuffered : Memory ℤ
  lastAcknowledgedFrag : ℤ
  receiverWindowSize : ℤ
  inactiveTime : ℤ
  shouldClose : Bool
  incomingBuffer : Memory Byte
  outgoingBuffer : Memory Byte

/-- `connection_t_init`. The record comes from `calloc`, so that buffers and lengths are zero,
and no fragment is buffered, sent or acknowledged. -/
def connectionTInit : Connection where
  lastSentIndex := -1
  lastPayloadIndex := -1
  senderBuffer := Memory.fill 0
  numBytesBuffered := Memory.fill 0
  lastAcknowledgedFrag := -1
  receiverWindowSize := 0
  inactiveTime := 0
  shouldClose := false
  incomingBuffer := Memory.fill 0
  outgoingBuffer := Memory.fill 0

/-- Where the call of `mrt_connect` stands, in the loop that follows the start of `handler`. The
test and the `RCON` are under different locks. -/
inductive ConnectCall
  /-- It tests whether the connection is established. -/
  | poll
  /-- It sends an `RCON`. -/
  | sendRcon
  /-- It has returned the identifier. -/
  | returned
  deriving DecidableEq

/-- Where `handler` stands, with the local variables that the next section reads. The `MRT_ADAT`
case has three sections, as it takes `timeout_lock`, `receiver_lock` and then `buffer_lock`. -/
inductive HandlerThread
  /-- It waits for a datagram. -/
  | recvfrom
  /-- It has received one and tests the close flag. -/
  | closeCheck
  /-- It handles an `ACON`. -/
  | acon
  /-- It handles an `ADAT` and resets the counter. -/
  | adatTimeout (fragHolder winsizeHolder : ℤ)
  /-- It handles an `ADAT` and updates the number and the window. -/
  | adatAck (fragHolder winsizeHolder : ℤ)
  /-- It handles an `ADAT`, holds `receiver_lock` and shifts the buffer. -/
  | adatShift (fragDifference : ℤ)
  /-- It handles an `ACLS`. -/
  | acls
  /-- It has left the loop. -/
  | cleanUp
  /-- It has returned. -/
  | ended
  deriving DecidableEq

/-- Where a `sender` thread stands in an iteration of its loop. -/
inductive SenderPosition
  | closeCheck
  | select
  | sendEmpty
  | ended
  deriving DecidableEq

/-- A `sender` thread with its local variable `resend_time`. The others do not outlive a
section. -/
structure SenderThread where
  position : SenderPosition
  resendTime : ℤ
  deriving DecidableEq

/-- Where a `checker` thread stands: before it counts, between its last count and the raising of
the flag under `close_lock`, or behind its loop. -/
inductive CheckerThread
  | tick
  | setClose
  | ended
  deriving DecidableEq

/-- The arguments of a call of `mrt_send`; the buffer holds `len` bytes. -/
structure SendArgs where
  buffer : List Byte
  len : ℤ
  len_le : len ≤ buffer.length
  deriving DecidableEq

/-- The bytes a call of `mrt_send` has to send, of which there are none for a
negative length. -/
def SendArgs.bytes (args : SendArgs) : List Byte := args.buffer.take args.len.toNat

/-- Where the latest call of `mrt_send` stands; the calls for one connection do not
overlap. -/
inductive SendCall
  /-- There was no call. -/
  | none
  /-- The first look-up. -/
  | firstLookup (args : SendArgs)
  /-- The number of the last buffered fragment is computed. -/
  | lastBuffered (args : SendArgs)
  /-- The look-up in the loop. -/
  | lookup (args : SendArgs) (finalFrag : ℤ) (copied : ℕ)
  /-- The test whether the final fragment is acknowledged. -/
  | ackCheck (args : SendArgs) (finalFrag : ℤ) (copied : ℕ)
  /-- A fragment is copied into the buffer. -/
  | copy (args : SendArgs) (finalFrag : ℤ) (copied : ℕ)
  /-- The call has returned a value. -/
  | returned (value : ℤ)
  deriving DecidableEq

/-- Where a call of `mrt_disconnect` stands. Several calls can be in progress, and each takes
four locks one after the other. -/
inductive DisconnectCall
  /-- The look-up in the loop. -/
  | lookup
  /-- The test whether the buffer is empty. -/
  | bufferCheck
  /-- An `RCLS` is sent. -/
  | sendRcls
  /-- The counter is set. -/
  | setInactive
  /-- The call has returned. -/
  | returned
  deriving DecidableEq

/-- One connection, the threads and calls that use it, and what happened so far: the
datagrams sent, the fragments buffered, the bytes passed to `mrt_send`, the numbers
of the fragments sent since the last reset of `last_sent_index`, the window of the
latest `ADAT` that was not outdated, and whether closing was requested. -/
structure State where
  conn : Connection
  registered : Bool
  live : Bool
  connectCall : ConnectCall
  handlerThread : HandlerThread
  senderThreads : List SenderThread
  checkerThreads : List CheckerThread
  sendCall : SendCall
  disconnectCalls : List DisconnectCall
  outbox : List Datagram
  bufferedFragments : List (List Byte)
  submitted : List (List Byte)
  sentSinceReset : List ℤ
  latestWindow : ℤ
  closeRequested : Bool

/-- The state when `mrt_connect` has queued the connection and started `handler`. -/
def initial : State where
  conn := connectionTInit
  registered := true
  live := true
  connectCall := .poll
  handlerThread := .recvfrom
  senderThreads := []
  checkerThreads := []
  sendCall := .none
  disconnectCalls := []
  outbox := []
  bufferedFragments := []
  submitted := []
  sentSinceReset := []
  latestWindow := 0
  closeRequested := false

/-- `handler` holds `receiver_lock` between two critical sections, when it has an
acknowledgement to shift the buffer for. -/
def State.receiverLockHeld (s : State) : Bool :=
  match s.handlerThread with
  | .adatShift _ => true
  | _ => false

/-- A section that uses the connection after `handler` freed it is undefined. -/
def State.useConnection (s : State) (s' : Except Fault State) : Except Fault State :=
  if s.live then s' else .error .useAfterFree

/-- A section that uses the connection under `receiver_lock`, which waits while
`handler` holds it. -/
def State.lockReceiver (s : State) (s' : Except Fault State) : Except Fault State :=
  s.useConnection (if s.receiverLockHeld then .ok s else s')

/-- Pass a transmission in the outgoing buffer to `sendto`. The source does not look at what the
call returns. -/
@[simps] def State.sendTo (s : State) (out : Memory Byte) (length : ℕ) : State :=
  { s with
    conn := { s.conn with outgoingBuffer := out }
    outbox := s.outbox ++ [out.read 0 length] }

/-! ### `mrt_connect` -/

/-- One critical section of the loop of `mrt_connect`, which returns as soon as the number is
not -1. -/
def mrtConnect (s : State) : Except Fault State :=
  match s.connectCall with
  | .poll =>
    s.lockReceiver (.ok
      { s with
        connectCall := if s.conn.lastAcknowledgedFrag ≠ -1 then .returned else .sendRcon })
  | .sendRcon =>
    s.useConnection (.ok
      { s.sendTo (buildRcon s.conn.outgoingBuffer)
          (mrtHashLength + mrtTypeLength + mrtFragmentLength) with
        connectCall := .poll })
  | .returned => .ok s

/-! ### `mrt_send` -/

/-- The first statement of a call of `mrt_send`. A call that overlaps another one is undefined
by the header and not made here. -/
def mrtSend (s : State) (args : SendArgs) : State :=
  match s.sendCall with
  | .none | .returned _ =>
    { s with sendCall := .firstLookup args, submitted := s.submitted ++ [args.bytes] }
  | _ => s

/-- `last_buffered_frag`, the number of the fragment in the last slot that is in use. -/
def Connection.lastBufferedFrag (c : Connection) : ℤ :=
  c.lastPayloadIndex + c.lastAcknowledgedFrag + 1

/-- `final_frag`, with the divisions of C, which truncate. It is an `int` and may
wrap around. -/
def Connection.finalFrag (c : Connection) (len : ℤ) : ℤ :=
  wrapInt (c.lastBufferedFrag + len.tdiv maxMrtPayloadLength +
    if len.tmod maxMrtPayloadLength ≠ 0 then 1 else 0)

/-- The number of bytes a call of `mrt_send` copies next. -/
def numBytesToCopy (len : ℤ) (copied : ℕ) : ℤ :=
  if maxMrtPayloadLength < len - copied then maxMrtPayloadLength else len - copied

/-- Put a payload behind the buffered ones, into the slot that follows. -/
def Connection.bufferPayload (c : Connection) (payload : List Byte) : Connection :=
  { c with
    senderBuffer :=
      c.senderBuffer.write ((c.lastPayloadIndex + 1).toNat * maxMrtPayloadLength) payload
    numBytesBuffered :=
      c.numBytesBuffered.write (c.lastPayloadIndex + 1).toNat [(payload.length : ℤ)]
    lastPayloadIndex := c.lastPayloadIndex + 1 }

/-- The section of `mrt_send` that copies a fragment if there is space for it. -/
def mrtSendCopy (s : State) (args : SendArgs) (finalFrag : ℤ) (copied : ℕ) : Except Fault State :=
  if 0 < maxPayloadsBufferable - (s.conn.lastPayloadIndex + 1) then
    let toCopy := numBytesToCopy args.len copied
    if Memory.InBounds (maxMrtPayloadLength * maxPayloadsBufferable)
        ((s.conn.lastPayloadIndex + 1) * maxMrtPayloadLength) toCopy ∧
        Memory.InBounds maxPayloadsBufferable (s.conn.lastPayloadIndex + 1) 1 then
      let payload := (args.buffer.drop copied).take toCopy.toNat
      .ok { s with
        conn := s.conn.bufferPayload payload
        sendCall := .lookup args finalFrag (copied + toCopy.toNat)
        bufferedFragments := s.bufferedFragments ++ [payload] }
    else .error .outOfBounds
  else .ok { s with sendCall := .lookup args finalFrag copied }

/-- The next critical section of the latest call of `mrt_send`. -/
def mrtSendContinue (s : State) : Except Fault State :=
  match s.sendCall with
  | .none | .returned _ => .ok s
  | .firstLookup args =>
    .ok { s with sendCall := if s.registered then .lastBuffered args else .returned (-1) }
  | .lastBuffered args =>
    s.lockReceiver (.ok { s with sendCall := .lookup args (s.conn.finalFrag args.len) 0 })
  | .lookup args finalFrag copied =>
    .ok { s with
      sendCall := if s.registered then .ackCheck args finalFrag copied else .returned 0 }
  | .ackCheck args finalFrag copied =>
    s.lockReceiver (.ok
      { s with
        sendCall :=
          if finalFrag ≤ s.conn.lastAcknowledgedFrag then .returned 1
          else if copied < args.len then .copy args finalFrag copied
          else .lookup args finalFrag copied })
  | .copy args finalFrag copied => s.useConnection (mrtSendCopy s args finalFrag copied)

/-! ### `mrt_disconnect` -/

/-- Change the position of the `i`-th call of `mrt_disconnect`, and leave the others where they
are. -/
@[simps] def State.setDisconnect (s : State) (i : ℕ) (call : DisconnectCall) : State :=
  { s with disconnectCalls := s.disconnectCalls.set i call }

/-- The next critical section of a call of `mrt_disconnect` at a position. -/
def disconnectSection (s : State) (i : ℕ) : DisconnectCall → Except Fault State
  | .lookup => .ok (s.setDisconnect i (if s.registered then .bufferCheck else .returned))
  | .bufferCheck =>
    s.useConnection
      (.ok (s.setDisconnect i (if s.conn.lastPayloadIndex < 0 then .sendRcls else .lookup)))
  | .sendRcls =>
    s.useConnection (.ok ((s.setDisconnect i .setInactive).sendTo
      (buildRcls s.conn.outgoingBuffer) (mrtHashLength + mrtTypeLength)))
  | .setInactive =>
    s.useConnection (.ok
      { s.setDisconnect i .returned with
        conn := { s.conn with inactiveTime := closeTimeoutThreshold + 1 }
        closeRequested := true })
  | .returned => .ok s

/-- The next critical section of the `i`-th call of `mrt_disconnect`. -/
def mrtDisconnectContinue (s : State) (i : ℕ) : Except Fault State :=
  match s.disconnectCalls[i]? with
  | none => .ok s
  | some call => disconnectSection s i call

/-! ### `handler` -/

/-- `handler` receives a datagram; the buffer takes the bytes of a header. -/
def handlerRecvfrom (s : State) (dg : Datagram) : State :=
  match s.handlerThread with
  | .recvfrom =>
    { s with
      conn := { s.conn with
        incomingBuffer := receiveInto s.conn.incomingBuffer (dg.take mrtHeaderLength) }
      handlerThread := .closeCheck }
  | _ => s

/-- Where `handler` goes for the transmission in the incoming buffer. -/
def dispatch (incoming : Memory Byte) : HandlerThread :=
  if validTransmission (mrtHeaderLength + 1) incoming then
    if typeHolder incoming = mrtAcon then .acon
    else if typeHolder incoming = mrtAdat then
      .adatTimeout (fragHolder incoming) (winsizeHolder incoming)
    else if typeHolder incoming = mrtAcls then .acls
    else .recvfrom
  else .recvfrom

/-- The `MRT_ACON` case of `handler`. The first `ACON` starts the threads `sender` and
`checker`, and all later ones are ignored. -/
def handleAcon (s : State) : State :=
  if s.conn.lastAcknowledgedFrag = -1 then
    { s with
      conn := { s.conn with lastAcknowledgedFrag := 0 }
      handlerThread := .recvfrom
      senderThreads := s.senderThreads ++ [⟨.closeCheck, 0⟩]
      checkerThreads := s.checkerThreads ++ [.tick] }
  else { s with handlerThread := .recvfrom }

/-- `frag_difference`, by how many fragments an `ADAT` is ahead of what is acknowledged. It is
negative for an outdated one. -/
def Connection.fragDifference (c : Connection) (fragHolder : ℤ) : ℤ :=
  wrapInt (fragHolder - c.lastAcknowledgedFrag)

/-- The section of the `MRT_ADAT` case that updates the number and the window. -/
def handleAdatAck (s : State) (fragHolder winsizeHolder : ℤ) : State :=
  let s' := { s with
    latestWindow :=
      if s.conn.lastAcknowledgedFrag ≤ fragHolder then winsizeHolder else s.latestWindow }
  if 0 ≤ s.conn.fragDifference fragHolder then
    { s' with
      conn := { s.conn with
        lastAcknowledgedFrag := fragHolder
        receiverWindowSize :=
          if s.conn.receiverWindowSize < winsizeHolder then winsizeHolder
          else s.conn.receiverWindowSize }
      handlerThread :=
        if 0 < s.conn.fragDifference fragHolder then .adatShift (s.conn.fragDifference fragHolder)
        else .recvfrom }
  else { s' with handlerThread := .recvfrom }

/-- Both copies of the `MRT_ADAT` case stay inside their arrays. -/
def Connection.ShiftInBounds (c : Connection) (fragDifference : ℤ) : Prop :=
  Memory.InBounds (maxMrtPayloadLength * maxPayloadsBufferable)
      (maxMrtPayloadLength * fragDifference)
      (maxMrtPayloadLength * (c.lastPayloadIndex - fragDifference + 1)) ∧
    Memory.InBounds maxPayloadsBufferable fragDifference (c.lastPayloadIndex - fragDifference + 1)

instance (c : Connection) (fragDifference : ℤ) : Decidable (c.ShiftInBounds fragDifference) :=
  inferInstanceAs (Decidable (_ ∧ _))

/-- Move the payloads behind the acknowledged ones to the front. -/
def Connection.shift (c : Connection) (fragDifference : ℤ) : Connection :=
  let remaining := (c.lastPayloadIndex - fragDifference + 1).toNat
  { c with
    senderBuffer := c.senderBuffer.move 0 (maxMrtPayloadLength * fragDifference.toNat)
      (maxMrtPayloadLength * remaining)
    numBytesBuffered := c.numBytesBuffered.move 0 fragDifference.toNat remaining
    lastPayloadIndex := c.lastPayloadIndex - fragDifference }

/-- The section of the `MRT_ADAT` case that frees buffer space. Where the products
overflow, one of the two copies is out of bounds with or without the overflow. -/
def handleAdatShift (s : State) (fragDifference : ℤ) : Except Fault State :=
  if s.conn.ShiftInBounds fragDifference then
    .ok { s with conn := s.conn.shift fragDifference, handlerThread := .recvfrom }
  else .error .outOfBounds

/-- The threads that `handler` joins, the latest ones, have ended. -/
def State.joined (s : State) : Bool :=
  (s.checkerThreads.getLast?.all fun th => th == .ended) &&
    (s.senderThreads.getLast?.all fun th => th.position == .ended)

/-- The next critical section of `handler`. In `recvfrom` it waits for a datagram, which is an
action of its own. -/
def handler (s : State) : Except Fault State :=
  match s.handlerThread with
  | .recvfrom | .ended => .ok s
  | .closeCheck =>
    .ok { s with
      handlerThread :=
        if s.conn.shouldClose then .cleanUp else dispatch s.conn.incomingBuffer }
  | .acon => .ok (handleAcon s)
  | .adatTimeout fragHolder winsizeHolder =>
    .ok { s with
      conn := { s.conn with inactiveTime := 0 }
      handlerThread := .adatAck fragHolder winsizeHolder }
  | .adatAck fragHolder winsizeHolder => .ok (handleAdatAck s fragHolder winsizeHolder)
  | .adatShift fragDifference => handleAdatShift s fragDifference
  | .acls =>
    .ok { s with
      conn := { s.conn with inactiveTime := closeTimeoutThreshold + 1 }
      handlerThread := .recvfrom
      closeRequested := true }
  | .cleanUp =>
    if s.joined then .ok { s with registered := false, live := false, handlerThread := .ended }
    else .ok s

/-! ### `sender` -/

/-- `next_payload_index`, the slot that `sender` sends next. -/
def Connection.nextPayloadIndex (c : Connection) : ℤ := c.lastSentIndex + 1

/-- The test of `sender` before it sends a payload: the window is too small or there is
nothing to send. -/
def Connection.mustWait (c : Connection) : Bool :=
  decide (c.receiverWindowSize < maxMrtPayloadLength) ||
    decide (c.lastPayloadIndex < c.nextPayloadIndex)

/-- Change the position and the timer of the `i`-th `sender` thread. -/
@[simps] def State.setSender (s : State) (i : ℕ) (position : SenderPosition) (resendTime : ℤ) :
    State :=
  { s with senderThreads := s.senderThreads.set i ⟨position, resendTime⟩ }

/-- The section of `sender` when it must wait: the timer, and the reset when it has
run out. -/
def senderWait (s : State) (i : ℕ) (resendTime : ℤ) : State :=
  if s.conn.lastPayloadIndex < s.conn.nextPayloadIndex then
    if resendTimeoutThreshold < resendTime then
      { s.setSender i .sendEmpty 0 with
        conn := { s.conn with lastSentIndex := -1 }
        sentSinceReset := [] }
    else s.setSender i .sendEmpty (resendTime + emptyDataPeriod)
  else s.setSender i .sendEmpty 0

/-- The fragment number that `build_data` computes for a slot, as an `int`. It counts from the
last fragment that is acknowledged. -/
def Connection.sendingFrag (c : Connection) (payloadIndex : ℤ) : ℤ :=
  wrapInt (c.lastAcknowledgedFrag + payloadIndex + 1)

/-- The reads and the copy of `build_data` and its caller stay inside the arrays. -/
def Connection.SendInBounds (c : Connection) (payloadIndex : ℤ) : Prop :=
  Memory.InBounds maxPayloadsBufferable payloadIndex 1 ∧
    Memory.InBounds (maxMrtPayloadLength * maxPayloadsBufferable)
      (payloadIndex * maxMrtPayloadLength) (c.numBytesBuffered payloadIndex.toNat) ∧
    Memory.InBounds (maxUdpPayloadLength + 1) mrtPayloadLocation
      (c.numBytesBuffered payloadIndex.toNat + 1)

instance (c : Connection) (payloadIndex : ℤ) : Decidable (c.SendInBounds payloadIndex) :=
  inferInstanceAs (Decidable (_ ∧ _ ∧ _))

/-- The buffered payload at an index, the bytes that `build_data` copies from the slot. -/
def Connection.payload (c : Connection) (payloadIndex : ℕ) : List Byte :=
  c.senderBuffer.read (payloadIndex * maxMrtPayloadLength)
    (c.numBytesBuffered payloadIndex).toNat

/-- The section of `sender` that sends the next payload, under all three locks. -/
def senderSendPayload (s : State) (i : ℕ) : Except Fault State :=
  let next := s.conn.nextPayloadIndex
  if s.conn.SendInBounds next then
    let payload := s.conn.payload next.toNat
    let out := buildData s.conn.outgoingBuffer (s.conn.sendingFrag next) payload
    let sent := (s.setSender i .closeCheck 0).sendTo out (mrtPayloadLocation + payload.length)
    .ok { sent with
      conn := { sent.conn with lastSentIndex := s.conn.lastSentIndex + 1 }
      sentSinceReset := s.sentSinceReset ++ [s.conn.lastAcknowledgedFrag + next + 1] }
  else .error .outOfBounds

/-- The next critical section of the `i`-th `sender` thread. It sleeps only after an empty
`DATA`. -/
def sender (s : State) (i : ℕ) : Except Fault State :=
  match s.senderThreads[i]? with
  | none => .ok s
  | some ⟨.closeCheck, resendTime⟩ =>
    s.useConnection (.ok
      (s.setSender i (if s.conn.shouldClose then .ended else .select) resendTime))
  | some ⟨.select, resendTime⟩ =>
    s.lockReceiver
      (if s.conn.mustWait then .ok (senderWait s i resendTime) else senderSendPayload s i)
  | some ⟨.sendEmpty, resendTime⟩ =>
    s.useConnection (.ok ((s.setSender i .closeCheck resendTime).sendTo
      (buildDataEmpty s.conn.outgoingBuffer)
      (mrtHashLength + mrtTypeLength + mrtFragmentLength)))
  | some ⟨.ended, _⟩ => .ok s

/-! ### `checker` -/

/-- The next critical section of the `i`-th `checker` thread, which counts and then flags the
connection. -/
def checker (s : State) (i : ℕ) : Except Fault State :=
  match s.checkerThreads[i]? with
  | none | some .ended => .ok s
  | some .tick =>
    let inactiveTime := s.conn.inactiveTime + closeTimeoutIncrement
    s.useConnection (.ok
      { s with
        conn := { s.conn with inactiveTime := inactiveTime }
        checkerThreads := s.checkerThreads.set i
          (if closeTimeoutThreshold < inactiveTime then .setClose else .tick) })
  | some .setClose =>
    s.useConnection (.ok
      { s with
        conn := { s.conn with shouldClose := true }
        checkerThreads := s.checkerThreads.set i .ended })

/-! ### All threads and calls -/

/-- The critical sections of one connection. Calls of `mrt_disconnect` and threads are taken by
their index in the state. -/
inductive Action
  /-- The call of `mrt_connect` continues. -/
  | mrtConnect
  /-- `mrt_send` is called. -/
  | mrtSend (args : SendArgs)
  /-- The call of `mrt_send` continues. -/
  | mrtSendContinue
  /-- `mrt_disconnect` is called. -/
  | mrtDisconnect
  /-- The `i`-th call of `mrt_disconnect` continues. -/
  | mrtDisconnectContinue (i : ℕ)
  /-- `handler` receives a datagram. -/
  | handlerRecvfrom (dg : Datagram)
  /-- `handler` continues. -/
  | handler
  /-- The `i`-th `sender` thread continues. -/
  | sender (i : ℕ)
  /-- The `i`-th `checker` thread continues. -/
  | checker (i : ℕ)
  deriving DecidableEq

/-- One critical section, of the thread or call that the action names. An error is undefined
behaviour in the source, and nothing happens after it. -/
def step (s : State) (act : Action) : Except Fault State :=
  match act with
  | .mrtConnect => mrtConnect s
  | .mrtSend args => .ok (mrtSend s args)
  | .mrtSendContinue => mrtSendContinue s
  | .mrtDisconnect => .ok { s with disconnectCalls := s.disconnectCalls ++ [.lookup] }
  | .mrtDisconnectContinue i => mrtDisconnectContinue s i
  | .handlerRecvfrom dg => .ok (handlerRecvfrom s dg)
  | .handler => handler s
  | .sender i => sender s i
  | .checker i => checker s i

end NetworkLabs.Mrt.Sender
