import Mathlib.Logic.Function.Basic
import NetworkLabs.Foundations.Run
import NetworkLabs.Mrt.AddressEffects
import NetworkLabs.Mrt.SenderEffects

/-!
# One receiver and its senders

The network delivers a datagram any number of times, in any order, or never, and
does not alter it. So every datagram that was sent remains in flight, and an action
that delivers any other one does nothing. The sender of an address can open a new
session when its `handler` has ended; no datagram of the earlier sessions is in
flight any more then.
-/

namespace NetworkLabs.Mrt.Network

open Foundations

/-- The receiver, the sender of each address, and the number of datagrams sent to each
address before its current session. -/
structure World where
  receiver : Receiver.State
  senders : SockaddrIn → Sender.State
  sentBefore : SockaddrIn → ℕ

/-- The receiver is open and every sender has opened its first session. -/
def initial : World where
  receiver := Receiver.initial
  senders := fun _ => Sender.initial
  sentBefore := fun _ => 0

/-- The datagrams that the session of an address can receive. -/
def World.inFlight (w : World) (addr : SockaddrIn) : List Datagram :=
  (w.receiver.sentTo addr).drop (w.sentBefore addr)

/-- The critical sections of all parties. An address can have any number of sessions, one after
the other. -/
inductive Action
  /-- The receiver runs a section. -/
  | receiver (act : Receiver.Action)
  /-- The sender of an address runs a section. -/
  | sender (addr : SockaddrIn) (act : Sender.Action)
  /-- The sender of an address opens its next session. -/
  | reopen (addr : SockaddrIn)
  deriving DecidableEq

/-- What the receiver receives is in flight, as the network makes no datagram up and alters
none. -/
def World.Delivers (w : World) : Receiver.Action → Prop
  | .mainHandler addr dg => dg ∈ (w.senders addr).outbox
  | _ => True

instance (w : World) (act : Receiver.Action) : Decidable (w.Delivers act) :=
  match act with
  | .mainHandler addr dg => inferInstanceAs (Decidable (dg ∈ (w.senders addr).outbox))
  | .mrtAccept1Dequeue | .mrtAccept1Enqueue _ | .checker _ | .mrtReceive1 _ _ | .mrtClose =>
    isTrue trivial

/-- What the sender of an address receives is in flight. -/
def World.Returns (w : World) (addr : SockaddrIn) : Sender.Action → Prop
  | .handlerRecvfrom dg => dg ∈ w.inFlight addr
  | _ => True

instance (w : World) (addr : SockaddrIn) (act : Sender.Action) : Decidable (w.Returns addr act) :=
  match act with
  | .handlerRecvfrom dg => inferInstanceAs (Decidable (dg ∈ w.inFlight addr))
  | .mrtConnect | .mrtSend _ | .mrtSendContinue | .mrtDisconnect | .mrtDisconnectContinue _
  | .handler | .sender _ | .checker _ => isTrue trivial

/-- Replace the sender of an address and leave all others as they are. -/
def World.setSender (w : World) (addr : SockaddrIn) (s : Sender.State) : World :=
  { w with senders := Function.update w.senders addr s }

/-- The sender of an address opens a session after the datagrams sent to it so far. -/
def World.reopen (w : World) (addr : SockaddrIn) : World :=
  { w.setSender addr Sender.initial with
    sentBefore := Function.update w.sentBefore addr (w.receiver.sentTo addr).length }

/-- One critical section. A datagram is delivered only if it was sent, which it may be any
number of times, and a session is opened only when the one before has ended. -/
def step (w : World) (act : Action) : Except Fault World :=
  match act with
  | .receiver act =>
    if w.Delivers act then (Receiver.step w.receiver act).map fun s => { w with receiver := s }
    else .ok w
  | .sender addr act =>
    if w.Returns addr act then (Sender.step (w.senders addr) act).map (w.setSender addr)
    else .ok w
  | .reopen addr =>
    if (w.senders addr).handlerThread = .ended then .ok (w.reopen addr) else .ok w

/-- The outcomes of one critical section, at the level of the network. The effects within a
party are those of its own module. -/
inductive Effect (w : World) : Action → World → Prop
  /-- There is nothing to deliver or to reopen. -/
  | idle (act : Action) : Effect w act w
  /-- The receiver runs a section. -/
  | receiver {act : Receiver.Action} {s : Receiver.State} (hdelivers : w.Delivers act)
      (hstep : Receiver.step w.receiver act = .ok s) :
      Effect w (.receiver act) { w with receiver := s }
  /-- The sender of an address runs a section. -/
  | sender {addr : SockaddrIn} {act : Sender.Action} {s : Sender.State}
      (hreturns : w.Returns addr act) (hstep : Sender.step (w.senders addr) act = .ok s) :
      Effect w (.sender addr act) (w.setSender addr s)
  /-- The sender of an address opens its next session. -/
  | reopened {addr : SockaddrIn} (hended : (w.senders addr).handlerThread = .ended) :
      Effect w (.reopen addr) (w.reopen addr)

/-- Every successful step of the network is one of the listed outcomes. -/
theorem effect_of_step {w w' : World} {act : Action} (h : step w act = .ok w') :
    Effect w act w' := by
  cases act with
  | receiver act =>
    rw [step] at h
    split at h
    · rename_i hdelivers
      obtain ⟨s, hstep, rfl⟩ := of_map_eq_ok h
      exact .receiver hdelivers hstep
    · cases h
      exact .idle _
  | sender addr act =>
    rw [step] at h
    split at h
    · rename_i hreturns
      obtain ⟨s, hstep, rfl⟩ := of_map_eq_ok h
      exact .sender hreturns hstep
    · cases h
      exact .idle _
  | reopen addr =>
    rw [step] at h
    split at h
    · rename_i hended
      cases h
      exact .reopened hended
    · cases h
      exact .idle _

/-- A section of the receiver that succeeds. -/
theorem step_receiver {w : World} {act : Receiver.Action} {r : Receiver.State}
    (hdelivers : w.Delivers act) (hstep : Receiver.step w.receiver act = .ok r) :
    step w (.receiver act) = .ok { w with receiver := r } := by
  rw [step, if_pos hdelivers, hstep]
  rfl

/-- A section of a sender that succeeds. -/
theorem step_sender {w : World} {addr : SockaddrIn} {act : Sender.Action} {s : Sender.State}
    (hreturns : w.Returns addr act) (hstep : Sender.step (w.senders addr) act = .ok s) :
    step w (.sender addr act) = .ok (w.setSender addr s) := by
  rw [step, if_pos hreturns, hstep]
  rfl

/-- A condition on the sections of the senders, each with the state that it starts in. -/
def OnSender (condition : Sender.State → Sender.Action → Prop) (w : World) : Action → Prop
  | .sender addr act => condition (w.senders addr) act
  | _ => True

instance (condition : Sender.State → Sender.Action → Prop)
    [∀ s act, Decidable (condition s act)] (w : World) (act : Action) :
    Decidable (OnSender condition w act) :=
  match act with
  | .sender addr act => inferInstanceAs (Decidable (condition (w.senders addr) act))
  | .receiver _ | .reopen _ => isTrue trivial

/-- The sender that was replaced is the given one. -/
@[simp] theorem setSender_self (w : World) (addr : SockaddrIn) (s : Sender.State) :
    (w.setSender addr s).senders addr = s := by simp [World.setSender]

/-- Any other sender is what it was. -/
theorem setSender_of_ne (w : World) {addr id : SockaddrIn} (s : Sender.State) (h : id ≠ addr) :
    (w.setSender addr s).senders id = w.senders id := by simp [World.setSender, h]

/-- The sender that opened a session starts anew, with nothing submitted or acknowledged. -/
@[simp] theorem reopen_self (w : World) (addr : SockaddrIn) :
    (w.reopen addr).senders addr = Sender.initial := setSender_self w addr Sender.initial

/-- Any other sender when one opens a session. -/
theorem reopen_of_ne (w : World) {addr id : SockaddrIn} (h : id ≠ addr) :
    (w.reopen addr).senders id = w.senders id := setSender_of_ne w Sender.initial h

/-- The changes of the sender of an address, of which the sections of all others make none. -/
inductive SenderChange (w : World) (addr : SockaddrIn) : Action → Sender.State → Prop
  /-- The step does not concern the sender. -/
  | kept (act : Action) : SenderChange w addr act (w.senders addr)
  /-- The sender runs a section. -/
  | stepped {act : Sender.Action} {s : Sender.State} (hreturns : w.Returns addr act)
      (hstep : Sender.step (w.senders addr) act = .ok s) :
      SenderChange w addr (.sender addr act) s
  /-- The sender opens a session. -/
  | reopened (hended : (w.senders addr).handlerThread = .ended) :
      SenderChange w addr (.reopen addr) Sender.initial

/-- Every successful step changes every sender in one of the listed ways. -/
theorem senderChange_of_step {w w' : World} {act : Action} (h : step w act = .ok w')
    (addr : SockaddrIn) : SenderChange w addr act (w'.senders addr) := by
  cases effect_of_step h with
  | idle => exact .kept _
  | receiver hdelivers hstep => exact .kept _
  | @sender id act s hreturns hstep =>
    by_cases haddr : addr = id
    · subst haddr
      rw [setSender_self]
      exact .stepped hreturns hstep
    · rw [setSender_of_ne w s haddr]
      exact .kept _
  | @reopened id hended =>
    by_cases haddr : addr = id
    · subst haddr
      rw [reopen_self]
      exact .reopened hended
    · rw [reopen_of_ne w haddr]
      exact .kept _

/-- What holds of every sender initially and after each of its sections, under a
condition on the section, holds of every sender in the network. -/
theorem senders_step {Inv : Sender.State → Prop}
    {condition : Sender.State → Sender.Action → Prop} (hinit : Inv Sender.initial)
    (hsection : ∀ s act s', Inv s → condition s act → Sender.step s act = .ok s' → Inv s')
    {w w' : World} {act : Action} (h : ∀ addr, Inv (w.senders addr))
    (hcondition : OnSender condition w act) (hstep : step w act = .ok w') (addr : SockaddrIn) :
    Inv (w'.senders addr) := by
  have hchange := senderChange_of_step hstep addr
  generalize w'.senders addr = s' at hchange ⊢
  cases hchange with
  | kept => exact h addr
  | @stepped act s hreturns hsub => exact hsection _ act s' (h addr) hcondition hsub
  | reopened hended => exact hinit

/-! ### Parts of runs -/

/-- The sender of an address requests a connection and the receiver accepts it. -/
def handshake (addr : SockaddrIn) : List Action :=
  [.sender addr .mrtConnect, .sender addr .mrtConnect, .receiver (.mainHandler addr rconDatagram),
    .receiver .mrtAccept1Dequeue, .receiver (.mrtAccept1Enqueue 0),
    .sender addr (.handlerRecvfrom (aconDatagram 0)), .sender addr .handler,
    .sender addr .handler]

/-- `handler` receives an `ADAT` and updates the number and the window. -/
def acknowledge (addr : SockaddrIn) (frag window : ℤ) : List Action :=
  [.sender addr (.handlerRecvfrom (adatDatagram frag window)), .sender addr .handler,
    .sender addr .handler, .sender addr .handler]

/-- The first `sender` thread has nothing to send, and its empty `DATA` is acknowledged. -/
def probe (addr : SockaddrIn) (frag window : ℤ) : List Action :=
  [.sender addr (.sender 0), .sender addr (.sender 0), .sender addr (.sender 0),
    .receiver (.mainHandler addr dataEmptyDatagram)] ++ acknowledge addr frag window

/-- A call of `mrt_send` copies its first payload into the buffer. -/
def submit (addr : SockaddrIn) (args : Sender.SendArgs) : List Action :=
  [.sender addr (.mrtSend args), .sender addr .mrtSendContinue, .sender addr .mrtSendContinue,
    .sender addr .mrtSendContinue, .sender addr .mrtSendContinue, .sender addr .mrtSendContinue]

/-- The first `sender` thread sends a payload and the receiver handles it. -/
def transfer (addr : SockaddrIn) (dg : Datagram) : List Action :=
  [.sender addr (.sender 0), .sender addr (.sender 0), .receiver (.mainHandler addr dg)]

/-- A call of `mrt_send` for one byte, for the runs below. -/
def oneByte : Sender.SendArgs := ⟨[7], 1, by decide⟩

/-- A fragment is sent and then acknowledged, without a reset between. -/
def sentAndAcknowledged : List Action :=
  handshake (loopback 4242) ++ probe (loopback 4242) 0 2440 ++
    submit (loopback 4242) oneByte ++
    transfer (loopback 4242) (dataDatagram 1 [0, 0, 0, 0] [7]) ++ acknowledge (loopback 4242) 1 2439

end NetworkLabs.Mrt.Network
