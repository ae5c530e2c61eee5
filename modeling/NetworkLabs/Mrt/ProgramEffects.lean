import NetworkLabs.Mrt.Programs

/-!
# What one section of the programs can do

A section of a main thread is a section of its module together with a move of the main
thread. `SenderMove` and `ReceiverMove` list the moves, and every successful step is one
of the outcomes of `Effect`.
-/

namespace NetworkLabs.Mrt.Programs

open Foundations

/-- The moves of `main` of `sender.c`, with the section of the module and the state of the
module after it. -/
inductive SenderMove (m : SenderMain) : Sender.Action → Sender.State → SenderMain → Prop
  /-- `mrt_connect` continues. -/
  | connecting {s : Sender.State} (hposition : m.position = .connecting)
      (hcall : s.connectCall ≠ .returned) : SenderMove m .mrtConnect s m
  /-- `mrt_connect` returns. -/
  | connected {s : Sender.State} (hposition : m.position = .connecting)
      (hcall : s.connectCall = .returned) :
      SenderMove m .mrtConnect s { m with position := .reading }
  /-- `read` returns bytes, and `mrt_send` is called for them. -/
  | read {numBytesRead : ℕ} {s : Sender.State} (hposition : m.position = .reading) :
      SenderMove m (.mrtSend (m.args numBytesRead)) s
        { m with position := .sending, stdin := m.stdin.drop numBytesRead }
  /-- `read` returns none, and `mrt_disconnect` is called. -/
  | readEnded {s : Sender.State} (hposition : m.position = .reading) :
      SenderMove m .mrtDisconnect s { m with position := .disconnecting }
  /-- `mrt_send` continues. -/
  | sending {s : Sender.State} (hposition : m.position = .sending) :
      SenderMove m .mrtSendContinue s m
  /-- `mrt_send` returns. -/
  | sent {s : Sender.State} {value : ℤ} (hposition : m.position = .sending)
      (hcall : s.sendCall = .returned value) :
      SenderMove m .mrtSendContinue s { m with position := .reading }
  /-- `mrt_disconnect` continues. -/
  | disconnecting {s : Sender.State} (hposition : m.position = .disconnecting) :
      SenderMove m (.mrtDisconnectContinue 0) s m
  /-- `mrt_disconnect` returns. -/
  | disconnected {s : Sender.State} (hposition : m.position = .disconnecting) :
      SenderMove m (.mrtDisconnectContinue 0) s { m with position := .ended }

/-- The moves of `main` of `receiver.c` with a section of the module between two states. -/
inductive ReceiverMove (m : ReceiverMain) (s : Receiver.State) :
    Receiver.Action → Receiver.State → ReceiverMain → Prop
  /-- `mrt_accept1` finds no request. -/
  | waiting {i : ℕ} {s' : Receiver.State} (hposition : m.position = .accepting i)
      (hnone : s'.accepting = []) : ReceiverMove m s .mrtAccept1Dequeue s' m
  /-- `mrt_accept1` takes a request. -/
  | taken {i : ℕ} {s' : Receiver.State} (hposition : m.position = .accepting i)
      (hsome : s'.accepting ≠ []) :
      ReceiverMove m s .mrtAccept1Dequeue s' { m with position := .registering i }
  /-- `mrt_accept1` registers the request and returns. -/
  | accepted {i : ℕ} {s' : Receiver.State} {r : Receiver.Sender} {rest : List Receiver.Sender}
      {m' : ReceiverMain} (hposition : m.position = .registering i)
      (htaken : s.accepting = r :: rest)
      (hnext : ReceiverMain.nextAccept { m with senderIdQ := enqQ m.senderIdQ r.addr } (i + 1) =
        .ok m') : ReceiverMove m s (.mrtAccept1Enqueue 0) s' m'
  /-- `mrt_receive1` runs its loop once. -/
  | received {i : ℕ} {id : SockaddrIn} {written : List Byte} {s' : Receiver.State}
      {outcome : Receiver.State × Receiver.Received} {m' : ReceiverMain}
      (hposition : m.position = .receiving i id written)
      (hcall : Receiver.mrtReceive1 s id bufferSize = .ok outcome)
      (hnext : m.received i id written outcome.2 = .ok m') :
      ReceiverMove m s (.mrtReceive1 id bufferSize) s' m'
  /-- `mrt_close` is called. -/
  | closing {s' : Receiver.State} (hposition : m.position = .closing) :
      ReceiverMove m s .mrtClose s' { m with position := .returning }

/-- The outcomes of one section, at the level of the programs. -/
inductive Effect (w : World) : Action → World → Prop
  /-- There is nothing to do. -/
  | idle (act : Action) : Effect w act w
  /-- A thread of the receiver module runs. -/
  | receiverThread {act : Receiver.Action} {s : Receiver.State}
      (hthread : ReceiverThreadSection act) (hdelivers : w.network.Delivers act)
      (hstep : Receiver.step w.network.receiver act = .ok s) :
      Effect w (.receiverThread act) { w with network := { w.network with receiver := s } }
  /-- `main` of `receiver.c` and its module move. -/
  | receiverMain {act : Receiver.Action} {s : Receiver.State} {m : ReceiverMain}
      (hmove : ReceiverMove w.receiverMain w.network.receiver act s m)
      (hdelivers : w.network.Delivers act)
      (hstep : Receiver.step w.network.receiver act = .ok s) :
      Effect w .receiverMain
        { w with network := { w.network with receiver := s }, receiverMain := m }
  /-- `main` of `receiver.c` returns. -/
  | returned (hposition : w.receiverMain.position = .returning) :
      Effect w .receiverMain
        { w with receiverMain := { w.receiverMain with position := .ended } }
  /-- A thread of a sender module runs. -/
  | senderThread {addr : SockaddrIn} {act : Sender.Action} {s : Sender.State}
      (hthread : SenderThreadSection act) (hreturns : w.network.Returns addr act)
      (hstep : Sender.step (w.network.senders addr) act = .ok s) :
      Effect w (.senderThread addr act) { w with network := w.network.setSender addr s }
  /-- `main` of a `sender.c` and its module move. -/
  | senderMain {addr : SockaddrIn} {numBytesRead : ℕ} {act : Sender.Action} {s : Sender.State}
      {m : SenderMain} (hmove : SenderMove (w.senderMains addr) act s m)
      (hreturns : w.network.Returns addr act)
      (hstep : Sender.step (w.network.senders addr) act = .ok s) :
      Effect w (.senderMain addr numBytesRead)
        (({ w with network := w.network.setSender addr s } : World).setSenderMain addr m)

/-- A section of the receiver module that succeeds and has something to deliver. -/
theorem of_runReceiver {w w' : World} {act : Receiver.Action} (h : w.runReceiver act = .ok w')
    (hdelivers : w.network.Delivers act) :
    ∃ s, Receiver.step w.network.receiver act = .ok s ∧
      w' = { w with network := { w.network with receiver := s } } := by
  obtain ⟨network, hstep, rfl⟩ := of_map_eq_ok h
  rw [Network.step, if_pos hdelivers] at hstep
  obtain ⟨s, hs, rfl⟩ := of_map_eq_ok hstep
  exact ⟨s, hs, rfl⟩

/-- A section of a sender module that succeeds and has something to receive. -/
theorem of_runSender {w w' : World} {addr : SockaddrIn} {act : Sender.Action}
    (h : w.runSender addr act = .ok w') (hreturns : w.network.Returns addr act) :
    ∃ s, Sender.step (w.network.senders addr) act = .ok s ∧
      w' = { w with network := w.network.setSender addr s } := by
  obtain ⟨network, hstep, rfl⟩ := of_map_eq_ok h
  rw [Network.step, if_pos hreturns] at hstep
  obtain ⟨s, hs, rfl⟩ := of_map_eq_ok hstep
  exact ⟨s, hs, rfl⟩

/-- A main thread that stays where it is. -/
theorem setSenderMain_self (w : World) (addr : SockaddrIn) :
    w.setSenderMain addr (w.senderMains addr) = w := by
  rw [World.setSenderMain, Function.update_eq_self]

private theorem effect_of_senderMain {w w' : World} {addr : SockaddrIn} {numBytesRead : ℕ}
    (h : senderMain w addr numBytesRead = .ok w') :
    Effect w (.senderMain addr numBytesRead) w' := by
  -- A main thread that does not move is replaced by itself.
  have hkept (act : Sender.Action) (s : Sender.State)
      (hmove : SenderMove (w.senderMains addr) act s (w.senderMains addr))
      (hreturns : w.network.Returns addr act)
      (hstep : Sender.step (w.network.senders addr) act = .ok s) :
      Effect w (.senderMain addr numBytesRead)
        { w with network := w.network.setSender addr s } := by
    have heffect : Effect w (.senderMain addr numBytesRead)
        ({ w with network := w.network.setSender addr s }.setSenderMain addr
          (w.senderMains addr)) := .senderMain hmove hreturns hstep
    rwa [setSenderMain_self] at heffect
  unfold senderMain at h
  dsimp only at h
  split at h
  · rename_i hposition
    obtain ⟨w₁, hrun, rfl⟩ := of_map_eq_ok h
    obtain ⟨s, hs, rfl⟩ := of_runSender hrun trivial
    split
    · rename_i hcall
      exact .senderMain (.connected hposition (by simpa using hcall)) trivial hs
    · rename_i hcall
      exact hkept _ s (.connecting hposition (by simpa using hcall)) trivial hs
  · rename_i hposition
    split at h
    · obtain ⟨w₁, hrun, rfl⟩ := of_map_eq_ok h
      obtain ⟨s, hs, rfl⟩ := of_runSender hrun trivial
      exact .senderMain (.readEnded hposition) trivial hs
    · split at h
      · split at h
        · obtain ⟨w₁, hrun, rfl⟩ := of_map_eq_ok h
          obtain ⟨s, hs, rfl⟩ := of_runSender hrun trivial
          exact .senderMain (.read hposition) trivial hs
        · cases h
      · cases h
        exact .idle _
  · rename_i hposition
    obtain ⟨w₁, hrun, rfl⟩ := of_map_eq_ok h
    obtain ⟨s, hs, rfl⟩ := of_runSender hrun trivial
    split
    · rename_i value hcall
      have hreturned : s.sendCall = .returned value := by simpa using hcall
      exact .senderMain (.sent hposition hreturned) trivial hs
    · exact hkept _ s (.sending hposition) trivial hs
  · rename_i hposition
    obtain ⟨w₁, hrun, rfl⟩ := of_map_eq_ok h
    obtain ⟨s, hs, rfl⟩ := of_runSender hrun trivial
    split
    · exact .senderMain (.disconnected hposition) trivial hs
    · exact hkept _ s (.disconnecting hposition) trivial hs
  · cases h
    exact .idle _

/-- `main` of `receiver.c` moves with its module, or it returns, or it has nothing to do. -/
theorem move_of_receiverMain {w w' : World} (h : receiverMain w = .ok w') :
    (∃ act s m, ReceiverMove w.receiverMain w.network.receiver act s m ∧
      w.network.Delivers act ∧ Receiver.step w.network.receiver act = .ok s ∧
        w' = { w with network := { w.network with receiver := s }, receiverMain := m }) ∨
    w.receiverMain.position = .returning ∧
      w' = { w with receiverMain := { w.receiverMain with position := .ended } } ∨
    w' = w ∧ (w.receiverMain.position = .ended ∨
      ∃ i, w.receiverMain.position = .registering i ∧ w.network.receiver.accepting = []) := by
  unfold receiverMain at h
  dsimp only at h
  split at h
  · rename_i i hposition
    obtain ⟨w₁, hrun, rfl⟩ := of_map_eq_ok h
    obtain ⟨s, hs, rfl⟩ := of_runReceiver hrun trivial
    split
    · rename_i hnone
      exact Or.inl ⟨_, s, _, .waiting hposition hnone, trivial, hs, rfl⟩
    · rename_i hsome
      exact Or.inl ⟨_, s, _, .taken hposition hsome, trivial, hs, rfl⟩
  · rename_i i hposition
    split at h
    · rename_i hnone
      cases h
      exact Or.inr (Or.inr ⟨rfl, Or.inr ⟨i, hposition, hnone⟩⟩)
    · rename_i r rest htaken
      obtain ⟨w₁, hrun, hnext⟩ := of_bind_eq_ok h
      obtain ⟨s, hs, rfl⟩ := of_runReceiver hrun trivial
      obtain ⟨m, hm, rfl⟩ := of_map_eq_ok hnext
      exact Or.inl ⟨_, s, m, .accepted hposition htaken hm, trivial, hs, rfl⟩
  · rename_i i id written hposition
    obtain ⟨w₁, hrun, hrest⟩ := of_bind_eq_ok h
    obtain ⟨outcome, hcall, hnext⟩ := of_bind_eq_ok hrest
    obtain ⟨s, hs, rfl⟩ := of_runReceiver hrun trivial
    obtain ⟨m, hm, rfl⟩ := of_map_eq_ok hnext
    exact Or.inl ⟨_, s, m, .received hposition hcall hm, trivial, hs, rfl⟩
  · rename_i hposition
    obtain ⟨w₁, hrun, rfl⟩ := of_map_eq_ok h
    obtain ⟨s, hs, rfl⟩ := of_runReceiver hrun trivial
    exact Or.inl ⟨_, s, _, .closing hposition, trivial, hs, rfl⟩
  · rename_i hposition
    cases h
    exact Or.inr (Or.inl ⟨hposition, rfl⟩)
  · rename_i hposition
    cases h
    exact Or.inr (Or.inr ⟨rfl, Or.inl hposition⟩)

/-- Every successful step of the programs is one of the listed outcomes. -/
theorem effect_of_step {w w' : World} {act : Action} (h : step w act = .ok w') :
    Effect w act w' := by
  cases act with
  | receiverMain =>
    rcases move_of_receiverMain h with
      ⟨act, s, m, hmove, hdelivers, hs, rfl⟩ | ⟨hposition, rfl⟩ | ⟨rfl, -⟩
    · exact .receiverMain hmove hdelivers hs
    · exact .returned hposition
    · exact .idle _
  | receiverThread act =>
    rw [step] at h
    split at h
    · rename_i hthread
      by_cases hdelivers : w.network.Delivers act
      · obtain ⟨s, hs, rfl⟩ := of_runReceiver h hdelivers
        exact .receiverThread hthread.1 hdelivers hs
      · obtain ⟨network, hstep, rfl⟩ := of_map_eq_ok h
        rw [Network.step, if_neg hdelivers] at hstep
        cases hstep
        exact .idle _
    · cases h
      exact .idle _
  | senderMain addr numBytesRead => exact effect_of_senderMain h
  | senderThread addr act =>
    rw [step] at h
    split at h
    · rename_i hthread
      by_cases hreturns : w.network.Returns addr act
      · obtain ⟨s, hs, rfl⟩ := of_runSender h hreturns
        exact .senderThread hthread.1 hreturns hs
      · obtain ⟨network, hstep, rfl⟩ := of_map_eq_ok h
        rw [Network.step, if_neg hreturns] at hstep
        cases hstep
        exact .idle _
    · cases h
      exact .idle _

end NetworkLabs.Mrt.Programs
