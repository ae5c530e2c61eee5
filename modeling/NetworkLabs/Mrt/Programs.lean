import NetworkLabs.Mrt.Reliability

/-!
# The receiver program and the sender programs

`receiver.c` and `sender.c` on top of the two modules. The main thread of a program
runs one critical section of a call of its module at a time and goes on when the call
has returned; the threads that the module started run between. A process ends, with its
threads, when `main` returns.
-/

namespace NetworkLabs.Mrt.Programs

open Foundations

/-- `BUFFER_SIZE` of both programs, the size of the array between the module and the standard
streams. -/
@[simp] def bufferSize : ℕ := 1000

/-! ### State -/

/-- Where `main` of `sender.c` stands. Between two calls of the module it only reads. -/
inductive SenderPosition
  /-- In `mrt_connect`. -/
  | connecting
  /-- It reads from its standard input. -/
  | reading
  /-- In `mrt_send`. -/
  | sending
  /-- In `mrt_disconnect`. -/
  | disconnecting
  /-- It has returned. -/
  | ended
  deriving DecidableEq

/-- `main` of `sender.c`, with what it has not yet read from its standard input. -/
structure SenderMain where
  position : SenderPosition
  readSize : ℤ
  stdin : List Byte

/-- Where `main` of `receiver.c` stands. It accepts a number of connections first and then
serves them one after the other. -/
inductive ReceiverPosition
  /-- In the `i`-th call of `mrt_accept1`, which looks for a request. -/
  | accepting (i : ℕ)
  /-- In the `i`-th call of `mrt_accept1`, which has taken a request. -/
  | registering (i : ℕ)
  /-- In the `i`-th turn, with what it has written in this turn. -/
  | receiving (i : ℕ) (currSenderId : SockaddrIn) (written : List Byte)
  /-- It calls `mrt_close`. -/
  | closing
  /-- It returns. -/
  | returning
  /-- It has returned. -/
  | ended
  deriving DecidableEq

/-- `main` of `receiver.c`, with what it has written in the turns that are over. -/
structure ReceiverMain where
  numConnections : ℤ
  position : ReceiverPosition
  senderIdQ : List SockaddrIn
  finished : List (SockaddrIn × List Byte)

/-- The modules and the programs. There may be a sender program at every address. -/
structure World where
  network : Network.World
  receiverMain : ReceiverMain
  senderMains : SockaddrIn → SenderMain

/-- The receiver program has opened its module and each sender program has started its
call of `mrt_connect`. -/
def initial (numConnections : ℤ) (readSize : SockaddrIn → ℤ) (stdin : SockaddrIn → List Byte) :
    World where
  network := Network.initial
  receiverMain := ⟨numConnections, if 0 < numConnections then .accepting 0 else .closing, [], []⟩
  senderMains addr := ⟨.connecting, readSize addr, stdin addr⟩

/-- What was written in the turn that is not over. -/
def ReceiverPosition.current : ReceiverPosition → List (SockaddrIn × List Byte)
  | .receiving _ currSenderId written => [(currSenderId, written)]
  | _ => []

/-- What was written in each turn, those that are over and the one that `main` is in. -/
def ReceiverMain.turns (m : ReceiverMain) : List (SockaddrIn × List Byte) :=
  m.finished ++ m.position.current

/-- What was written in those of some turns that belong to an address. -/
def outputOf (turns : List (SockaddrIn × List Byte)) (addr : SockaddrIn) : List Byte :=
  (turns.filter fun turn => turn.1 == addr).flatMap Prod.snd

/-- What was written in the turns of an address, of which there may be several. -/
def ReceiverMain.output (m : ReceiverMain) (addr : SockaddrIn) : List Byte := outputOf m.turns addr

/-! ### Sections of the modules -/

/-- The receiver module runs a section for the program, in the network. -/
def World.runReceiver (w : World) (act : Receiver.Action) : Except Fault World :=
  (Network.step w.network (.receiver act)).map fun network => { w with network := network }

/-- The sender module of an address runs a section for its program, in the network. -/
def World.runSender (w : World) (addr : SockaddrIn) (act : Sender.Action) : Except Fault World :=
  (Network.step w.network (.sender addr act)).map fun network => { w with network := network }

/-- A section that a thread of the receiver module runs. -/
def ReceiverThreadSection : Receiver.Action → Prop
  | .mainHandler _ _ | .checker _ => True
  | _ => False

instance (act : Receiver.Action) : Decidable (ReceiverThreadSection act) :=
  match act with
  | .mainHandler _ _ | .checker _ => isTrue trivial
  | .mrtAccept1Dequeue | .mrtAccept1Enqueue _ | .mrtReceive1 _ _ | .mrtClose => isFalse id

/-- A section that a thread of a sender module runs. -/
def SenderThreadSection : Sender.Action → Prop
  | .handlerRecvfrom _ | .handler | .sender _ | .checker _ => True
  | _ => False

instance (act : Sender.Action) : Decidable (SenderThreadSection act) :=
  match act with
  | .handlerRecvfrom _ | .handler | .sender _ | .checker _ => isTrue trivial
  | .mrtConnect | .mrtSend _ | .mrtSendContinue | .mrtDisconnect | .mrtDisconnectContinue _ =>
    isFalse id

/-! ### `main` of `sender.c` -/

/-- Change the main thread of the sender program of an address. -/
@[simps] def World.setSenderMain (w : World) (addr : SockaddrIn) (m : SenderMain) : World :=
  { w with senderMains := Function.update w.senderMains addr m }

/-- The call of `mrt_send` for the first bytes of the standard input. -/
def SenderMain.args (m : SenderMain) (numBytesRead : ℕ) : Sender.SendArgs :=
  ⟨m.stdin.take numBytesRead, (m.stdin.take numBytesRead).length, Int.le_refl _⟩

/-- The numbers of bytes that `read` can return besides 0 and -1; its last argument is the
read size as a `size_t`. -/
def SenderMain.CanRead (m : SenderMain) (numBytesRead : ℕ) : Prop :=
  (numBytesRead : ℤ) ≤ m.readSize % 2 ^ 64 ∧ numBytesRead ≤ m.stdin.length

instance (m : SenderMain) (numBytesRead : ℕ) : Decidable (m.CanRead numBytesRead) :=
  inferInstanceAs (Decidable (_ ∧ _))

/-- One section of `main` of `sender.c`. The argument is the number of bytes that `read`
returns, or 0 when it returns 0 or -1. -/
def senderMain (w : World) (addr : SockaddrIn) (numBytesRead : ℕ) : Except Fault World :=
  let m := w.senderMains addr
  match m.position with
  | .connecting =>
    (w.runSender addr .mrtConnect).map fun w' =>
      if (w'.network.senders addr).connectCall = .returned then
        w'.setSenderMain addr { m with position := .reading }
      else w'
  | .reading =>
    if numBytesRead = 0 then
      (w.runSender addr .mrtDisconnect).map fun w' =>
        w'.setSenderMain addr { m with position := .disconnecting }
    else if m.CanRead numBytesRead then
      if numBytesRead ≤ bufferSize then
        (w.runSender addr (.mrtSend (m.args numBytesRead))).map fun w' =>
          w'.setSenderMain addr { m with position := .sending, stdin := m.stdin.drop numBytesRead }
      else .error .outOfBounds
    else .ok w
  | .sending =>
    (w.runSender addr .mrtSendContinue).map fun w' =>
      match (w'.network.senders addr).sendCall with
      | .returned _ => w'.setSenderMain addr { m with position := .reading }
      | _ => w'
  | .disconnecting =>
    (w.runSender addr (.mrtDisconnectContinue 0)).map fun w' =>
      if (w'.network.senders addr).disconnectCalls = [.returned] then
        w'.setSenderMain addr { m with position := .ended }
      else w'
  | .ended => .ok w

/-! ### `main` of `receiver.c` -/

/-- The test of the second loop and the first statement of its body. The queue holds an
identifier for every turn; without one `mrt_receive1` would compare identifiers with a
null pointer. -/
def ReceiverMain.nextTurn (m : ReceiverMain) (i : ℕ) : Except Fault ReceiverMain :=
  if i < m.numConnections then
    match deqQ m.senderIdQ with
    | some (id, queue) => .ok { m with senderIdQ := queue, position := .receiving i id [] }
    | none => .error .outOfBounds
  else .ok { m with position := .closing }

/-- The test of the first loop, which comes to the second loop when enough connections are
accepted. -/
def ReceiverMain.nextAccept (m : ReceiverMain) (i : ℕ) : Except Fault ReceiverMain :=
  if i < m.numConnections then .ok { m with position := .accepting i } else m.nextTurn 0

/-- What `main` does with the outcome of one iteration of `mrt_receive1`. -/
def ReceiverMain.received (m : ReceiverMain) (i : ℕ) (id : SockaddrIn) (written : List Byte) :
    Receiver.Received → Except Fault ReceiverMain
  | .waits => .ok m
  | .returns (b :: bytes) => .ok { m with position := .receiving i id (written ++ b :: bytes) }
  | .returns [] | .spurious =>
    ReceiverMain.nextTurn { m with finished := m.finished ++ [(id, written)] } (i + 1)

/-- Change the main thread of the receiver program when that succeeds. -/
def World.setReceiverMain (w : World) (m : Except Fault ReceiverMain) : Except Fault World :=
  m.map fun m => { w with receiverMain := m }

/-- One section of `main` of `receiver.c`. A section of a call of the module is a step of the
network, and what `main` does until its next call belongs to it. -/
def receiverMain (w : World) : Except Fault World :=
  let m := w.receiverMain
  match m.position with
  | .accepting i =>
    (w.runReceiver .mrtAccept1Dequeue).map fun w' =>
      if w'.network.receiver.accepting = [] then w'
      else { w' with receiverMain := { m with position := .registering i } }
  | .registering i =>
    match w.network.receiver.accepting with
    | [] => .ok w
    | r :: _ =>
      (w.runReceiver (.mrtAccept1Enqueue 0)).bind fun w' =>
        w'.setReceiverMain
          (ReceiverMain.nextAccept { m with senderIdQ := enqQ m.senderIdQ r.addr } (i + 1))
  | .receiving i id written =>
    (w.runReceiver (.mrtReceive1 id bufferSize)).bind fun w' =>
      (Receiver.mrtReceive1 w.network.receiver id bufferSize).bind fun outcome =>
        w'.setReceiverMain (m.received i id written outcome.2)
  | .closing =>
    (w.runReceiver .mrtClose).map fun w' =>
      { w' with receiverMain := { m with position := .returning } }
  | .returning => .ok { w with receiverMain := { m with position := .ended } }
  | .ended => .ok w

/-! ### All processes -/

/-- The sections of all processes. The threads of a process run as long as its `main` has not
returned. -/
inductive Action
  /-- The main thread of the receiver program continues. -/
  | receiverMain
  /-- A thread of the receiver module runs a section. -/
  | receiverThread (act : Receiver.Action)
  /-- The main thread of the sender program of an address continues. -/
  | senderMain (addr : SockaddrIn) (numBytesRead : ℕ)
  /-- A thread of the sender module of an address runs a section. -/
  | senderThread (addr : SockaddrIn) (act : Sender.Action)
  deriving DecidableEq

/-- One section, of a main thread or of a thread of a module. -/
def step (w : World) (act : Action) : Except Fault World :=
  match act with
  | .receiverMain => receiverMain w
  | .receiverThread act =>
    if ReceiverThreadSection act ∧ w.receiverMain.position ≠ .ended then w.runReceiver act
    else .ok w
  | .senderMain addr numBytesRead => senderMain w addr numBytesRead
  | .senderThread addr act =>
    if SenderThreadSection act ∧ (w.senderMains addr).position ≠ .ended then w.runSender addr act
    else .ok w

end NetworkLabs.Mrt.Programs
