import NetworkLabs.Mrt.Drop
import NetworkLabs.Mrt.ReceiverProgram
import NetworkLabs.Mrt.SenderProgram

/-!
# From standard input to standard output

Until `mrt_close` is called the programs use their modules as reliable delivery asks: a
sender program sends only when it is connected, and no standard input of less than
`2 ^ 31 - 1` bytes has more fragments than an `int` can number. So what the receiver
program writes in the turns of an address is a prefix of what the program of that address
has read, and all of it when the program asked to disconnect before the turn is over.
-/

namespace NetworkLabs.Mrt.Programs

open Foundations
open Network (ReliabilityHolds)

/-! ### While the receiver program serves -/

/-- `main` of `receiver.c` has not yet called `mrt_close`, so that its module goes on handling
datagrams. -/
def ReceiverMain.Serves (m : ReceiverMain) : Prop := m.position ≠ .returning ∧ m.position ≠ .ended

/-- A sender program whose receiver serves, with what connects its position to the state of its
module. -/
structure SenderServed (s : Sender.State) (m : SenderMain) : Prop where
  /-- There are no more fragments than bytes. -/
  fragments : FragmentsHoldBytes s
  /-- The connection is established when `mrt_connect` has returned. -/
  established : m.position ≠ .connecting → s.conn.lastAcknowledgedFrag ≠ -1
  /-- Only a program that has sent everything asks to close. -/
  confirmed : RequestsClose s → Confirmed s

/-- The programs while the receiver program serves. Their use of the network is then a reliable
one. -/
structure Serving (w : World) : Prop where
  reliable : ReliabilityHolds w.network
  senders : ∀ addr, SenderServed (w.network.senders addr) (w.senderMains addr)

/-- The programs with the given standard inputs, in any state of a run. -/
structure Holds (stdin : SockaddrIn → List Byte) (w : World) : Prop where
  receiver : ReceiverHolds w.network.receiver w.receiverMain
  senders : ∀ addr, SenderHolds (stdin addr) (w.network.senders addr) (w.senderMains addr)
  /-- What `mrt_receive1` returned was passed to `mrt_send`. -/
  delivered : ∀ addr,
    w.network.receiver.returnedBytes addr <+: (w.network.senders addr).submitted.flatten
  serving : w.receiverMain.Serves → Serving w
  /-- The module closes only after `mrt_close` is called. -/
  closing : w.receiverMain.Serves ∨ w.network.receiver.shouldClose = true

/-- The programs start with nothing read, submitted or written, and the receiver
program serves. -/
theorem holds_initial (numConnections : ℤ) (readSize : SockaddrIn → ℤ)
    (stdin : SockaddrIn → List Byte) :
    Holds stdin (initial numConnections readSize stdin) := by
  refine ⟨receiverHolds_initial numConnections readSize stdin,
    fun addr => senderHolds_initial (stdin addr) (readSize addr), fun _ => List.nil_prefix,
    fun _ => ⟨Network.reliabilityHolds_initial, fun addr => ⟨?_, ?_, ?_⟩⟩, Or.inl ?_⟩
  · intro fragment hfragment
    cases hfragment
  · exact fun hposition => absurd rfl hposition
  · rintro (hrcls | ⟨call, hcall, -⟩)
    · cases hrcls
    · cases hcall
  · unfold initial
    constructor <;> dsimp only <;> split <;> decide

/-- A call of `mrt_send` in a sender program is made on an established connection and has
few fragments. -/
theorem meets_of_senderHolds {stdin : List Byte} {s : Sender.State} {m : SenderMain}
    {delivered : ℕ} (hholds : SenderHolds stdin s m) (hserved : SenderServed s m)
    (hcalls : Sender.CallsHold s delivered) (hstdin : stdin.length < 2 ^ 31 - 1)
    {act : Sender.Action} (hact : act = .mrtSendContinue → m.position = .sending) :
    Sender.OnSend Sender.FitsNumbering s act ∧ Sender.OnSend Sender.SendsConnected s act := by
  cases act with
  | mrtSendContinue =>
    cases hcall : s.sendCall with
    | lastBuffered args =>
      obtain ⟨hstream, -⟩ := hcalls.complete_of hcall id
      have hfragments := length_bufferedFragments_le hserved.fragments
      have hread := congrArg List.length hholds.stream
      have hbuffered := congrArg List.length hstream
      have hcount : Sender.fragmentCount args.len ≤ args.bytes.length := by
        have hfull : (maxMrtPayloadLength : ℤ) = 488 := rfl
        have hlen := args.len_le
        rw [Sender.fragmentCount, hfull, Sender.SendArgs.bytes, List.length_take]
        omega
      simp only [Sender.SendCall.rest, List.length_append] at hread hbuffered
      simp only [Sender.OnSend, hcall, Sender.FitsNumbering, Sender.SendsConnected]
      refine ⟨by omega, fun _ => hserved.established ?_⟩
      rw [hact rfl]
      decide
    | _ => simp only [Sender.OnSend, hcall, Sender.FitsNumbering, Sender.SendsConnected, and_self]
  | _ => exact ⟨trivial, trivial⟩

/-- A section of a thread of the module, which leaves the calls of the main thread alone. -/
theorem SenderServed.thread {s s' : Sender.State} {m : SenderMain} {g : Transfer}
    (h : SenderServed s m) (hrefines : SenderRefines s g) (hsound : GoBackN.Sound g)
    {act : Sender.Action} (hthread : SenderThreadSection act)
    (hstep : Sender.step s act = .ok s') : SenderServed s' m := by
  have hparts := callParts_of_thread hthread hstep
  simp only [callParts, Prod.mk.injEq] at hparts
  obtain ⟨-, hsend, -, -, -⟩ := hparts
  refine ⟨fragmentsHoldBytes_step h.fragments hrefines.window.copying hstep,
    fun hposition => lastAcknowledgedFrag_step hrefines hsound hstep (h.established hposition),
    fun hclose => ?_⟩
  have hother : ∀ i, act ≠ .mrtDisconnectContinue i := by
    rintro i rfl
    exact hthread
  have hconfirmed := h.confirmed (requestsClose_of_step hother hstep hclose)
  unfold Confirmed at hconfirmed ⊢
  rw [hsend]
  exact hconfirmed

/-- When `mrt_connect` returns the connection is established. This is the test in its loop. -/
theorem established_of_returned {s s' : Sender.State} (hbefore : s.connectCall ≠ .returned)
    (hstep : Sender.step s .mrtConnect = .ok s') (hafter : s'.connectCall = .returned) :
    s'.conn.lastAcknowledgedFrag ≠ -1 := by
  cases Sender.effect_of_step hstep with
  | idle => exact absurd hafter hbefore
  | polled =>
    dsimp only at hafter
    split at hafter
    · assumption
    · cases hafter
  | requested => cases hafter

/-- A call of `mrt_disconnect` asks to close only when everything is confirmed. -/
theorem confirmed_of_disconnect {s s' : Sender.State} {i delivered : ℕ}
    (hcalls : Sender.CallsHold s delivered) (hfinished : s.sendCall.Finished)
    (hold : RequestsClose s → Confirmed s)
    (hstep : Sender.step s (.mrtDisconnectContinue i) = .ok s') (hclose : RequestsClose s') :
    Confirmed s' := by
  have hbefore : Confirmed s := by
    rcases requestsClose_of_disconnect hstep hclose with hrequest | hregistered
    · exact hold hrequest
    · exact confirmed_of_registered hcalls hfinished hregistered
  obtain ⟨hsend, -⟩ := sendParts_of_step (Or.inr ⟨i, rfl⟩) hstep
  unfold Confirmed at hbefore ⊢
  rw [hsend]
  exact hbefore

/-- A section of the main thread, in a call of the module or between two of them. -/
theorem SenderServed.move {stdin : List Byte} {s s' : Sender.State} {m m' : SenderMain}
    {g : Transfer} (h : SenderServed s m) (hholds : SenderHolds stdin s m)
    (hrefines : SenderRefines s g) (hsound : GoBackN.Sound g) {delivered : ℕ}
    (hcalls : Sender.CallsHold s delivered) {act : Sender.Action}
    (hmove : SenderMove m act s' m') (hstep : Sender.step s act = .ok s') :
    SenderServed s' m' := by
  have hfragments := fragmentsHoldBytes_step h.fragments hrefines.window.copying hstep
  have hkeeps := lastAcknowledgedFrag_step hrefines hsound hstep
  have hstands := h.established
  have hcallsStand := hholds.stands
  -- Before `mrt_disconnect` is called nothing asks to close.
  have hnever (hact : ∀ i, act ≠ .mrtDisconnectContinue i) (hnone : s.disconnectCalls = []) :
      RequestsClose s' → Confirmed s' := fun hclose =>
    absurd hnone (hholds.disconnectCalls_ne (requestsClose_of_step hact hstep hclose))
  cases hmove with
  | connecting hposition hcall =>
    rw [hposition] at hcallsStand
    exact ⟨hfragments, fun hother => absurd hposition hother,
      hnever (fun i => by simp) hcallsStand.2.2⟩
  | connected hposition hcall =>
    rw [hposition] at hcallsStand
    exact ⟨hfragments, fun _ => established_of_returned hcallsStand.1 hstep hcall,
      hnever (fun i => by simp) hcallsStand.2.2⟩
  | read hposition =>
    rw [hposition] at hcallsStand hstands
    exact ⟨hfragments, fun _ => hkeeps (hstands (by decide)),
      hnever (fun i => by simp) hcallsStand.2⟩
  | readEnded hposition =>
    rw [hposition] at hcallsStand hstands
    exact ⟨hfragments, fun _ => hkeeps (hstands (by decide)),
      hnever (fun i => by simp) hcallsStand.2⟩
  | sending hposition =>
    rw [hposition] at hcallsStand
    exact ⟨hfragments, fun hother => hkeeps (hstands hother),
      hnever (fun i => by simp) hcallsStand⟩
  | sent hposition hcall =>
    rw [hposition] at hcallsStand hstands
    exact ⟨hfragments, fun _ => hkeeps (hstands (by decide)),
      hnever (fun i => by simp) hcallsStand⟩
  | disconnecting hposition =>
    rw [hposition] at hcallsStand
    exact ⟨hfragments, fun hother => hkeeps (hstands hother),
      confirmed_of_disconnect hcalls hcallsStand h.confirmed hstep⟩
  | disconnected hposition =>
    rw [hposition] at hcallsStand hstands
    exact ⟨hfragments, fun _ => hkeeps (hstands (by decide)),
      confirmed_of_disconnect hcalls hcallsStand h.confirmed hstep⟩

/-- What `mrt_receive1` returned was passed to `mrt_send`, by the reliability of the network's
connections. -/
theorem Serving.delivered {w : World} (h : Serving w) (addr : SockaddrIn) :
    w.network.receiver.returnedBytes addr <+: (w.network.senders addr).submitted.flatten :=
  have hdelivers := h.reliable.deliversReliably addr
  (List.prefix_append _ _).trans hdelivers.stream_prefix

/-- A section of the receiver module other than `mrt_close` is a reliable use. -/
theorem Serving.receiver {w : World} (h : Serving w) {act : Receiver.Action} {r : Receiver.State}
    {m : ReceiverMain} (huse : Receiver.OpenUse act) (hdelivers : w.network.Delivers act)
    (hstep : Receiver.step w.network.receiver act = .ok r) :
    Serving { w with network := { w.network with receiver := r }, receiverMain := m } := by
  have hreliable : Network.ReliableUse w.network (.receiver act) := huse
  exact ⟨Network.reliabilityHolds_step h.reliable hreliable trivial
    (Network.step_receiver hdelivers hstep), h.senders⟩

/-- At any other position than the last two `main` serves. -/
theorem serves_of_eq {m : ReceiverMain} {position : ReceiverPosition} (h : m.position = position)
    (hposition : position ≠ .returning ∧ position ≠ .ended) : m.Serves := by
  rw [ReceiverMain.Serves, h]
  exact hposition

/-- A turn begins before `mrt_close` is called. -/
theorem serves_of_nextTurn {m m' : ReceiverMain} {i : ℕ} (h : m.nextTurn i = .ok m') :
    m'.Serves := by
  unfold ReceiverMain.nextTurn at h
  split at h
  · split at h
    · cases h
      exact serves_of_eq rfl (by simp)
    · cases h
  · cases h
    exact serves_of_eq rfl (by simp)

/-- Only the call of `mrt_close` is not followed by something else. -/
theorem ReceiverMove.serves {m m' : ReceiverMain} {r r' : Receiver.State} {act : Receiver.Action}
    (hmove : ReceiverMove m r act r' m') :
    m.Serves ∧ (act = .mrtClose ∨ m'.Serves ∧ Receiver.OpenUse act) := by
  cases hmove with
  | closing hposition => exact ⟨serves_of_eq hposition (by simp), Or.inl rfl⟩
  | waiting hposition hnone =>
    have hserves := serves_of_eq hposition (by simp)
    exact ⟨hserves, Or.inr ⟨hserves, trivial⟩⟩
  | taken hposition hsome =>
    exact ⟨serves_of_eq hposition (by simp), Or.inr ⟨serves_of_eq rfl (by simp), trivial⟩⟩
  | accepted hposition htaken hnext =>
    refine ⟨serves_of_eq hposition (by simp), Or.inr ⟨?_, trivial⟩⟩
    unfold ReceiverMain.nextAccept at hnext
    split at hnext
    · cases hnext
      exact serves_of_eq rfl (by simp)
    · exact serves_of_nextTurn hnext
  | @received i id written _ outcome _ hposition hcall hnext =>
    have huse : Receiver.OpenUse (.mrtReceive1 id bufferSize) := Int.natCast_nonneg bufferSize
    refine ⟨serves_of_eq hposition (by simp), Or.inr ⟨?_, huse⟩⟩
    unfold ReceiverMain.received at hnext
    split at hnext
    · cases hnext
      exact serves_of_eq hposition (by simp)
    · cases hnext
      exact serves_of_eq rfl (by simp)
    · exact serves_of_nextTurn hnext
    · exact serves_of_nextTurn hnext

/-- The close flag of the receiver module is never reset, so that a receiver that was told to
close stays so. -/
theorem shouldClose_step {r r' : Receiver.State} {act : Receiver.Action}
    (hstep : Receiver.step r act = .ok r') (hclose : r.shouldClose = true) :
    r'.shouldClose = true := by
  cases Receiver.effect_of_step hstep with
  | closing => rfl
  | _ => exact hclose

/-- What was passed to `mrt_send` stays, and later calls only append to it. -/
theorem submitted_step {s s' : Sender.State} {act : Sender.Action}
    (hstep : Sender.step s act = .ok s') : s.submitted.flatten <+: s'.submitted.flatten := by
  cases Sender.effect_of_step hstep with
  | submitted hcall =>
    rw [List.flatten_append]
    exact List.prefix_append _ _
  | _ => exact List.prefix_refl _

/-- A section of a sender module, with the main thread of its program after it. -/
theorem Holds.sender {stdin : SockaddrIn → List Byte} {w : World} (h : Holds stdin w)
    (hstdin : ∀ addr, (stdin addr).length < 2 ^ 31 - 1) {addr : SockaddrIn} {act : Sender.Action}
    {s : Sender.State} {m : SenderMain} (hreturns : w.network.Returns addr act)
    (hstep : Sender.step (w.network.senders addr) act = .ok s)
    (hact : act = .mrtSendContinue → (w.senderMains addr).position = .sending)
    (hholds : SenderHolds (stdin addr) s m)
    (hserved : Serving w → SenderServed s m) :
    Holds stdin
      (({ w with network := w.network.setSender addr s } : World).setSenderMain addr m) := by
  have hsenders : ∀ id, SenderHolds (stdin id) ((w.network.setSender addr s).senders id)
      (Function.update w.senderMains addr m id) := by
    intro id
    by_cases hid : id = addr
    · subst hid
      rw [Network.setSender_self, Function.update_self]
      exact hholds
    · rw [Network.setSender_of_ne _ s hid, Function.update_of_ne hid]
      exact h.senders id
  have hdelivered : ∀ id, w.network.receiver.returnedBytes id <+:
      ((w.network.setSender addr s).senders id).submitted.flatten := by
    intro id
    by_cases hid : id = addr
    · subst hid
      rw [Network.setSender_self]
      exact (h.delivered id).trans (submitted_step hstep)
    · rw [Network.setSender_of_ne _ s hid]
      exact h.delivered id
  refine ⟨h.receiver, hsenders, hdelivered, fun hserves => ?_, h.closing⟩
  have hserving := h.serving hserves
  have hconditions := meets_of_senderHolds (h.senders addr) (hserving.senders addr)
    (hserving.reliable.calls addr) (hstdin addr) hact
  have hreliable : Network.ReliableUse w.network (.sender addr act) := hconditions.1
  refine ⟨Network.reliabilityHolds_step hserving.reliable hreliable hconditions.2
    (Network.step_sender hreturns hstep), fun id => ?_⟩
  by_cases hid : id = addr
  · subst hid
    simp only [World.setSenderMain, Network.setSender_self, Function.update_self]
    exact hserved hserving
  · simp only [World.setSenderMain, Network.setSender_of_ne _ s hid, Function.update_of_ne hid]
    exact hserving.senders id

/-- Every section keeps the programs reliable, of a main thread as well as of a thread of a
module. This is where the assumptions of the two modules are discharged by how their users call
them. -/
theorem holds_step {stdin : SockaddrIn → List Byte}
    (hstdin : ∀ addr, (stdin addr).length < 2 ^ 31 - 1) {w w' : World} {act : Action}
    (h : Holds stdin w) (hstep : step w act = .ok w') : Holds stdin w' := by
  cases effect_of_step hstep with
  | idle => exact h
  | @receiverThread act r hthread hdelivers hsub =>
    have hreceiver := h.receiver.thread hthread hsub
    have huse : Receiver.OpenUse act := by
      cases act <;> trivial
    refine ⟨hreceiver, h.senders, fun addr => ?_,
      fun hserves => (h.serving hserves).receiver huse hdelivers hsub,
      h.closing.imp id (shouldClose_step hsub)⟩
    rw [← hreceiver.output addr, h.receiver.output addr]
    exact h.delivered addr
  | @receiverMain act r m hmove hdelivers hsub =>
    have hreceiver := h.receiver.move hmove hsub
    obtain ⟨hbefore, rfl | ⟨hafter, huse⟩⟩ := hmove.serves
    · cases hmove
      cases hsub
      exact ⟨hreceiver, h.senders, h.delivered, fun hserves => absurd rfl hserves.1, Or.inr rfl⟩
    · have hserving := (h.serving hbefore).receiver (m := m) huse hdelivers hsub
      exact ⟨hreceiver, h.senders, hserving.delivered, fun _ => hserving, Or.inl hafter⟩
  | returned hposition =>
    have hclose := h.closing.resolve_left fun hserves => hserves.1 hposition
    have hreceiver := h.receiver
    refine ⟨⟨?_, fun addr => ?_, trivial⟩, h.senders, h.delivered,
      fun hserves => absurd rfl hserves.2, Or.inr hclose⟩
    · have hserved := hreceiver.served
      rw [ReceiverMain.turns, hposition] at hserved
      exact hserved
    · have houtput := hreceiver.output addr
      rw [ReceiverMain.output, ReceiverMain.turns, hposition] at houtput
      exact houtput
  | @senderThread addr act s hthread hreturns hsub =>
    have hnext := h.sender hstdin hreturns hsub (fun hact => by subst hact; exact hthread.elim)
      ((h.senders addr).thread hthread hsub) fun hserving => by
        obtain ⟨g, hg⟩ := hserving.reliable.network.refines addr
        exact (hserving.senders addr).thread hg.sender hg.reachable.sound hthread hsub
    have hself :=
      setSenderMain_self ({ w with network := w.network.setSender addr s } : World) addr
    rwa [hself] at hnext
  | @senderMain addr numBytesRead act s m hmove hreturns hsub =>
    refine h.sender hstdin hreturns hsub (fun hact => ?_) ((h.senders addr).move hmove hsub)
      fun hserving => ?_
    · subst hact
      cases hmove <;> assumption
    · obtain ⟨g, hg⟩ := hserving.reliable.network.refines addr
      exact (hserving.senders addr).move (h.senders addr) hg.sender hg.reachable.sound
        (hserving.reliable.calls addr) hmove hsub

/-! ### Results -/

/-- The sender module of an address handles a datagram in some sections. -/
def handled (addr : SockaddrIn) (dg : Datagram) (sections : ℕ) : List Action :=
  .senderThread addr (.handlerRecvfrom dg) ::
    List.replicate sections (.senderThread addr .handler)

/-- A thread of the sender module of an address sends a datagram, and the receiver gets it. -/
def transferred (addr : SockaddrIn) (dg : Datagram) (sections : ℕ) : List Action :=
  List.replicate sections (.senderThread addr (.sender 0)) ++
    [.receiverThread (.mainHandler addr dg)]

/-- The parts of a run in which a sender program sends one byte and disconnects, and the
receiver program serves it. -/
def oneConnectionParts (addr : SockaddrIn) : List (List Action) :=
  [[.senderMain addr 0, .senderMain addr 0, .receiverThread (.mainHandler addr rconDatagram),
      .receiverMain, .receiverMain],
    handled addr (aconDatagram 0) 2, [.senderMain addr 0],
    transferred addr dataEmptyDatagram 3, handled addr (adatDatagram 0 2440) 3,
    [.senderMain addr 1], List.replicate 5 (.senderMain addr 0),
    transferred addr (dataDatagram 1 [0, 0, 0, 0] [7]) 2, handled addr (adatDatagram 1 2439) 4,
    List.replicate 6 (.senderMain addr 0),
    [.receiverMain, .receiverThread (.mainHandler addr rclsDatagram), .receiverThread (.checker 0),
      .receiverMain]]

/-- The run of these parts, at one address. -/
def oneConnection : List Action := (oneConnectionParts (loopback 4242)).flatten

/-- What is written was read: no byte is invented, altered, lost in between, repeated or put
under another address. -/
structure WritesWhatWasRead (stdin : SockaddrIn → List Byte) (w : World) : Prop where
  /-- Connections get their turns in the order in which they were accepted. -/
  in_order : w.receiverMain.turns.map Prod.fst <+: w.network.receiver.acceptedIds
  /-- What was written for an address is what its program has read first. -/
  read_first : ∀ addr, ∃ unwritten,
    w.receiverMain.output addr ++ unwritten ++ (w.senderMains addr).stdin = stdin addr

/-- The programs write what was read, as what was written is what `mrt_receive1` returned, this
was submitted, and what was submitted was read. -/
theorem Holds.writesWhatWasRead {stdin : SockaddrIn → List Byte} {w : World} (h : Holds stdin w) :
    WritesWhatWasRead stdin w := by
  refine ⟨⟨_, h.receiver.served⟩, fun addr => ?_⟩
  obtain ⟨unwritten, hunwritten⟩ := h.delivered addr
  refine ⟨unwritten, ?_⟩
  rw [h.receiver.output addr, hunwritten]
  exact (h.senders addr).stream

/-- In every run of the receiver program with any number of sender programs, what it writes in
the turns of an address is a prefix of what the program of this address has read, whatever
the network loses, repeats, delays and reorders. -/
theorem writesWhatWasRead_of_run (numConnections : ℤ) (readSize : SockaddrIn → ℤ)
    {stdin : SockaddrIn → List Byte} (hstdin : ∀ addr, (stdin addr).length < 2 ^ 31 - 1)
    (acts : List Action) :
    Always step (fun _ w' => WritesWhatWasRead stdin w')
      (initial numConnections readSize stdin) acts :=
  always_of_steps (fun _ _ _ h hstep =>
    have hnext := holds_step hstdin h hstep
    ⟨hnext.writesWhatWasRead, hnext⟩) (holds_initial numConnections readSize stdin)

/-- A run of one sender program, which reads one byte and disconnects. -/
theorem writesWhatWasRead_one_connection :
    Always step (fun _ w' => WritesWhatWasRead (fun _ => [7]) w')
      (initial 1 (fun _ => 1) fun _ => [7]) oneConnection :=
  writesWhatWasRead_of_run 1 (fun _ => 1) (fun _ => by decide) oneConnection

/-- The turn of an address whose program has asked to disconnect is not over before all that
this program has read is written. -/
def CompletesTurn (stdin : SockaddrIn → List Byte) (w w' : World) : Prop :=
  ∀ i id written, w.receiverMain.position = .receiving i id written →
    (∀ written', w'.receiverMain.position ≠ .receiving i id written') →
      rclsDatagram ∈ (w.network.senders id).outbox →
        w'.receiverMain.output id ++ (w'.senderMains id).stdin = stdin id

/-- A call of `mrt_receive1` that ends a turn has found nothing unread and the connection
dropped. -/
theorem dropped_of_over {r r' : Receiver.State} {id : SockaddrIn} {len : ℤ}
    {received : Receiver.Received} (hlen : 0 < len)
    (hcall : Receiver.mrtReceive1 r id len = .ok (r', received))
    (hover : received = .spurious ∨ received = .returns []) {x : Receiver.Sender}
    (hrecord : r.record id = some x) :
    x.bytesUnread ≤ 0 ∧ Receiver.timeoutThreshold < x.inactiveTime := by
  rcases hover with rfl | rfl
  · rw [Receiver.mrtReceive1, hrecord] at hcall
    dsimp only at hcall
    split at hcall
    · split at hcall <;> cases hcall
    · split at hcall <;> cases hcall
  · obtain ⟨y, hy, hnothing, hinactive⟩ := Receiver.of_mrtReceive1_nil hlen hcall
    cases hrecord.symm.trans hy
    exact ⟨hnothing, hinactive⟩

/-- When a turn is over nothing of the stream is unread. -/
theorem stream_eq_returnedBytes {r r' : Receiver.State} {id : SockaddrIn} {len : ℤ}
    {received : Receiver.Received} (hlen : 0 < len)
    (hcall : Receiver.mrtReceive1 r id len = .ok (r', received))
    (hover : received = .spurious ∨ received = .returns []) :
    (r.view id).stream = r.returnedBytes id := by
  unfold Receiver.View.stream
  rw [Receiver.State.view_returnedBytes, Receiver.State.view_record]
  cases hrecord : r.record id with
  | none => exact List.append_nil _
  | some x =>
    obtain ⟨hnothing, -⟩ := dropped_of_over hlen hcall hover hrecord
    rw [Option.map_some, Receiver.unread_eq_nil hnothing]
    exact List.append_nil _

/-- A program that has sent everything successfully has everything in the stream. -/
theorem stream_eq_of_confirmed {w : Network.World} (h : ReliabilityHolds w) {addr : SockaddrIn}
    (hunsent : (w.senders addr).sendCall = .none → (w.senders addr).submitted = [])
    (hconfirmed : Confirmed (w.senders addr)) :
    (w.receiver.view addr).stream = (w.senders addr).submitted.flatten := by
  have hdelivers := h.deliversReliably addr
  rcases hconfirmed with hnone | hreturned
  · have hprefix := hdelivers.stream_prefix
    rw [hunsent hnone] at hprefix ⊢
    exact List.prefix_nil.mp hprefix
  · exact hdelivers.stream_complete hreturned

/-- A turn that is over was ended by a call of `mrt_receive1` that returned no bytes. -/
theorem over_of_received {m m' : ReceiverMain} {i : ℕ} {id : SockaddrIn} {written : List Byte}
    {received : Receiver.Received} (hposition : m.position = .receiving i id written)
    (hnext : m.received i id written received = .ok m')
    (hends : ∀ written', m'.position ≠ .receiving i id written') :
    received = .spurious ∨ received = .returns [] := by
  unfold ReceiverMain.received at hnext
  split at hnext
  · cases hnext
    exact absurd hposition (hends written)
  · cases hnext
    exact absurd rfl (hends _)
  · exact Or.inr rfl
  · exact Or.inl rfl

/-- A turn is not over too early. It is over when `mrt_receive1` returns 0, and then everything
was read. -/
theorem completesTurn_step {stdin : SockaddrIn → List Byte} {w w' : World} {act : Action}
    (h : Holds stdin w) (hnext : Holds stdin w') (hstep : step w act = .ok w') :
    CompletesTurn stdin w w' := by
  intro i id written hposition hends hrcls
  cases effect_of_step hstep with
  | returned hreturning => cases hposition.symm.trans hreturning
  | @receiverMain act r m hmove hdelivers hsub =>
    cases hmove with
    | @received j id' written' _ outcome _ hreceiving hcall hturn =>
      cases hposition.symm.trans hreceiving
      obtain ⟨r', received⟩ := outcome
      have hover := over_of_received hposition hturn hends
      have hserving := h.serving (serves_of_eq hposition (by simp))
      have hconfirmed := (hserving.senders id).confirmed (Or.inl hrcls)
      have hstream := stream_eq_of_confirmed hserving.reliable (h.senders id).unsent hconfirmed
      have hread := stream_eq_returnedBytes (by simp) hcall hover
      have hreturned := (mrtReceive1_spec hcall).2 id
      have hsame : r'.returnedBytes id = w.network.receiver.returnedBytes id := by
        rcases hover with rfl | rfl <;> simpa using hreturned
      have hafter : r = r' := by
        rw [Receiver.step, hcall] at hsub
        split at hsub
        · cases hsub
        · exact (Except.ok.inj hsub).symm
      subst hafter
      have houtput : m.output id = r.returnedBytes id := hnext.receiver.output id
      dsimp only
      rw [houtput, hsame, ← hread, hstream]
      exact (h.senders id).stream
    | waiting hother | taken hother | accepted hother | closing hother =>
      cases hposition.symm.trans hother
  | _ => exact absurd hposition (hends written)

/-- In every run, when the turn of an address is over whose program has sent an `RCLS`, all
that this program has read is written. -/
theorem completesTurn_of_run (numConnections : ℤ) (readSize : SockaddrIn → ℤ)
    {stdin : SockaddrIn → List Byte} (hstdin : ∀ addr, (stdin addr).length < 2 ^ 31 - 1)
    (acts : List Action) :
    Always step (CompletesTurn stdin) (initial numConnections readSize stdin) acts :=
  always_of_steps (fun _ _ _ h hstep =>
    have hnext := holds_step hstdin h hstep
    ⟨completesTurn_step h hnext hstep, hnext⟩) (holds_initial numConnections readSize stdin)

/-- A run in which a program disconnects before its turn is over. -/
theorem completesTurn_one_connection :
    Always step (CompletesTurn fun _ => [7]) (initial 1 (fun _ => 1) fun _ => [7]) oneConnection :=
  completesTurn_of_run 1 (fun _ => 1) (fun _ => by decide) oneConnection

/-! ### The receiver program accesses only its memory -/

/-- A section of the receiver module that succeeds. -/
theorem runReceiver_eq {w : World} {act : Receiver.Action} (hdelivers : w.network.Delivers act)
    {r : Receiver.State} (hr : Receiver.step w.network.receiver act = .ok r) :
    w.runReceiver act = .ok { w with network := { w.network with receiver := r } } := by
  rw [World.runReceiver, Network.step_receiver hdelivers hr]
  rfl

/-- A section of a thread of the receiver module that succeeds. -/
theorem step_receiverThread {w : World} {act : Receiver.Action}
    (hthread : ReceiverThreadSection act) (hruns : w.receiverMain.position ≠ .ended)
    (hdelivers : w.network.Delivers act) {r : Receiver.State}
    (hr : Receiver.step w.network.receiver act = .ok r) :
    step w (.receiverThread act) =
      .ok { w with network := { w.network with receiver := r } } := by
  rw [step, if_pos ⟨hthread, hruns⟩]
  exact runReceiver_eq hdelivers hr

/-- While the receiver program serves its module can run every section. -/
theorem Serving.step_ok {w : World} (h : Serving w) {act : Receiver.Action}
    (huse : Receiver.OpenUse act) (hdelivers : w.network.Delivers act) :
    ∃ r, Receiver.step w.network.receiver act = .ok r :=
  (Receiver.openAndFit_step_ok_iff h.reliable.isOpen huse).mpr
    (Network.noShortExpectedData_of_delivers h.reliable.network hdelivers)

/-- The main thread of the receiver program can go on. -/
theorem Holds.main_ok {stdin : SockaddrIn → List Byte} {w : World} (h : Holds stdin w) :
    ∃ w', receiverMain w = .ok w' := by
  rw [receiverMain]
  cases hposition : w.receiverMain.position with
  | accepting i =>
    have hserving := h.serving (serves_of_eq hposition (by simp))
    have huse : Receiver.OpenUse .mrtAccept1Dequeue := trivial
    have hdelivers : w.network.Delivers .mrtAccept1Dequeue := trivial
    obtain ⟨r, hr⟩ := hserving.step_ok huse hdelivers
    have hrun := runReceiver_eq hdelivers hr
    dsimp only
    rw [hrun]
    exact ⟨_, rfl⟩
  | registering i =>
    have hserving := h.serving (serves_of_eq hposition (by simp))
    have huse : Receiver.OpenUse (.mrtAccept1Enqueue 0) := trivial
    have hdelivers : w.network.Delivers (.mrtAccept1Enqueue 0) := trivial
    obtain ⟨r, hr⟩ := hserving.step_ok huse hdelivers
    have hrun := runReceiver_eq hdelivers hr
    dsimp only
    cases htaken : w.network.receiver.accepting with
    | nil => exact ⟨_, rfl⟩
    | cons x rest =>
      obtain ⟨m, hm, -⟩ := accepted_spec h.receiver hposition htaken hr
      rw [hposition] at hm
      dsimp only
      rw [hrun]
      dsimp only [Except.bind, World.setReceiverMain]
      rw [hm]
      exact ⟨_, rfl⟩
  | receiving i id written =>
    have hserving := h.serving (serves_of_eq hposition (by simp))
    have huse : Receiver.OpenUse (.mrtReceive1 id bufferSize) := Int.natCast_nonneg bufferSize
    have hdelivers : w.network.Delivers (.mrtReceive1 id bufferSize) := trivial
    obtain ⟨r, hr⟩ := hserving.step_ok huse hdelivers
    have hrun := runReceiver_eq hdelivers hr
    have hcall := hr
    rw [Receiver.step, if_neg (by simp [hserving.reliable.isOpen.closed_eq])] at hcall
    obtain ⟨⟨r', received⟩, hcall, -⟩ := of_map_eq_ok hcall
    obtain ⟨m, hm, -⟩ := received_spec h.receiver hposition hcall
    dsimp only
    rw [hrun, hcall]
    dsimp only [Except.bind, World.setReceiverMain]
    rw [hm]
    exact ⟨_, rfl⟩
  | closing => exact ⟨_, rfl⟩
  | returning => exact ⟨_, rfl⟩
  | ended => exact ⟨_, rfl⟩

end NetworkLabs.Mrt.Programs
