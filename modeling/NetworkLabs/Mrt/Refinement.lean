import NetworkLabs.Mrt.Messages
import NetworkLabs.Mrt.Network
import NetworkLabs.Mrt.Stream
import NetworkLabs.Mrt.Window

/-!
# The network refines Go-Back-N

As long as fragment numbers fit an `int` and a session opens only where the receiver
has buffered nothing yet, each connection behaves as Go-Back-N: the fragments are the
payloads that `mrt_send` buffered, the delivered ones those that the receiver buffered,
and the sender's window is what lies behind the acknowledged ones.
-/

namespace NetworkLabs.Mrt

open Foundations

namespace Sender

/-- The number of fragments that hold a number of bytes. -/
def fragmentCount (len : ℤ) : ℕ := ((len + (maxMrtPayloadLength - 1)) / maxMrtPayloadLength).toNat

/-- The number of fragments that a call of `mrt_send` has not yet buffered, from the time
it starts to buffer them. -/
def SendCall.remaining : SendCall → ℕ
  | .lookup args _ copied | .ackCheck args _ copied | .copy args _ copied =>
    fragmentCount (args.len - copied)
  | .none | .firstLookup _ | .lastBuffered _ | .returned _ => 0

/-- A condition on the section that a call of `mrt_send` runs. -/
def OnSend (condition : State → SendCall → Prop) (s : State) : Action → Prop
  | .mrtSendContinue => condition s s.sendCall
  | _ => True

instance (condition : State → SendCall → Prop) [∀ s call, Decidable (condition s call)]
    (s : State) (act : Action) : Decidable (OnSend condition s act) :=
  match act with
  | .mrtSendContinue => inferInstanceAs (Decidable (condition s s.sendCall))
  | .mrtConnect | .mrtSend _ | .mrtDisconnect | .mrtDisconnectContinue _ | .handlerRecvfrom _
  | .handler | .sender _ | .checker _ => isTrue trivial

/-- A call that starts to buffer its fragments leaves the connection with fewer than
`2 ^ 31 - 1` of them. -/
def FitsNumbering (s : State) : SendCall → Prop
  | .lastBuffered args => s.bufferedFragments.length + fragmentCount args.len < 2 ^ 31 - 1
  | _ => True

instance (s : State) (call : SendCall) : Decidable (FitsNumbering s call) :=
  match call with
  | .lastBuffered args =>
    inferInstanceAs (Decidable (s.bufferedFragments.length + fragmentCount args.len < 2 ^ 31 - 1))
  | .none | .firstLookup _ | .lookup _ _ _ | .ackCheck _ _ _ | .copy _ _ _ | .returned _ =>
    isTrue trivial

/-- Copying a payload completes one fragment, so that one fewer is left. -/
theorem fragmentCount_copy {len : ℤ} {copied : ℕ} (h : copied < len) :
    fragmentCount (len - (copied + (numBytesToCopy len copied).toNat : ℕ)) + 1 =
      fragmentCount (len - copied) := by
  have hfull : (maxMrtPayloadLength : ℤ) = 488 := rfl
  unfold fragmentCount numBytesToCopy
  rw [hfull]
  split <;> omega

end Sender

open Sender (State)

/-! ### The sender's side -/

/-- Before the first `ACON` nothing but requests is sent, and the numbers of the module do not
count yet. -/
structure Unconnected (s : State) (g : Transfer) : Prop where
  first : s.conn.lastAcknowledgedFrag = -1
  aligned : s.conn.lastPayloadIndex + 1 = s.bufferedFragments.length
  unlocked : s.handlerThread.pendingShift = 0
  unstarted : s.senderThreads = []
  requests : ∀ dg ∈ s.outbox, dg = rconDatagram ∨ dg = rclsDatagram
  unused : g.Unused

/-- After the first `ACON` the window is what lies behind the acknowledged fragments. -/
structure Connected (s : State) (g : Transfer) : Prop where
  acknowledged : s.conn.lastAcknowledgedFrag = g.acknowledged
  aligned : s.conn.lastAcknowledgedFrag + s.conn.lastPayloadIndex + 1 -
    s.handlerThread.pendingShift = s.bufferedFragments.length

/-- A sender has written the fragments of Go-Back-N and knows what is acknowledged. -/
structure SenderRefines (s : State) (g : Transfer) : Prop where
  window : Sender.WindowHolds s
  numbered : s.bufferedFragments.length + s.sendCall.remaining < 2 ^ 31 - 1
  fragments : g.fragments = s.bufferedFragments
  outbox : ∀ dg ∈ s.outbox, FromSender g dg
  thread : s.handlerThread.Acknowledges g
  incoming : s.handlerThread = .closeCheck →
    (Sender.dispatch s.conn.incomingBuffer).Acknowledges g
  connection : Unconnected s g ∨ Connected s g

variable {s s' : State} {g g' : Transfer}

/-- A connected sender is not affected by what the receiver does. -/
theorem SenderRefines.mono (h : SenderRefines s g) (hconnected : Connected s g)
    (hfragments : g'.fragments = g.fragments) (hack : g'.acknowledged = g.acknowledged)
    (hdata : g.data ⊆ g'.data) (hacks : g.acks ⊆ g'.acks) : SenderRefines s g' := by
  refine ⟨h.window, h.numbered, hfragments.trans h.fragments,
    fun dg hdg => (h.outbox dg hdg).mono hdata, h.thread.mono hacks,
    fun hthread => (h.incoming hthread).mono hacks, Or.inr ⟨?_, hconnected.aligned⟩⟩
  rw [hack]
  exact hconnected.acknowledged

/-- A step that leaves the window and what is sent alone, but for requests, does not concern
Go-Back-N. -/
theorem SenderRefines.of_eq (h : SenderRefines s g) (hwindow : Sender.WindowHolds s')
    (hnumbered : s'.bufferedFragments.length + s'.sendCall.remaining < 2 ^ 31 - 1)
    (hsame : s'.windowParts = s.windowParts)
    (houtbox : ∀ dg ∈ s'.outbox, dg ∈ s.outbox ∨ dg = rconDatagram ∨ dg = rclsDatagram)
    (hthreads : s.senderThreads = [] → s'.senderThreads = [])
    (hthread : s'.handlerThread.Acknowledges g)
    (hincoming : s'.handlerThread = .closeCheck →
      (Sender.dispatch s'.conn.incomingBuffer).Acknowledges g) : SenderRefines s' g := by
  simp only [Sender.State.windowParts, Prod.mk.injEq] at hsame
  obtain ⟨hindex, -, -, hack, hfragments, hpending⟩ := hsame
  refine ⟨hwindow, hnumbered, h.fragments.trans hfragments.symm, ?_, hthread, hincoming, ?_⟩
  · intro dg hdg
    rcases houtbox dg hdg with hold | rfl | rfl
    · exact h.outbox dg hold
    · exact .rcon
    · exact .rcls
  · rcases h.connection with hunconnected | hconnected
    · left
      refine ⟨hack.trans hunconnected.first, ?_, hpending.trans hunconnected.unlocked,
        hthreads hunconnected.unstarted, ?_, hunconnected.unused⟩
      · rw [hindex, hfragments]
        exact hunconnected.aligned
      · intro dg hdg
        exact (houtbox dg hdg).elim (hunconnected.requests dg) id
    · right
      refine ⟨hack.trans hconnected.acknowledged, ?_⟩
      rw [hack, hindex, hpending, hfragments]
      exact hconnected.aligned

/-- A sender with a running thread is connected, as the first `ACON` has started the thread. -/
theorem SenderRefines.connected_of_thread (h : SenderRefines s g) {i : ℕ}
    (hth : ∃ th, s.senderThreads[i]? = some th) : Connected s g := by
  refine h.connection.resolve_left fun hunconnected => ?_
  obtain ⟨th, hth⟩ := hth
  rw [hunconnected.unstarted] at hth
  cases hth

/-- A sender that acknowledges something is connected, as nothing is in flight to others. -/
theorem SenderRefines.connected_of_ack (h : SenderRefines s g) {n : ℕ} (hn : n ∈ g.acks) :
    Connected s g := by
  refine h.connection.resolve_left fun hunconnected => ?_
  rw [hunconnected.unused.acks] at hn
  exact hn.elim

/-- Without overflow the number of an `ADAT` counts delivered fragments, and the difference
is the number of payloads it frees. -/
theorem SenderRefines.fragDifference_eq (h : SenderRefines s g) (hsound : GoBackN.Sound g)
    {frag window : ℤ} (hthread : s.handlerThread = .adatAck frag window) :
    ∃ n ∈ g.acks, frag = n ∧ s.conn.fragDifference frag = n - g.acknowledged ∧
      n ≤ s.bufferedFragments.length := by
  have hack := h.thread
  rw [hthread] at hack
  obtain ⟨n, hn, hfrag⟩ := hack
  have hconnected := h.connected_of_ack hn
  have hnumbered := h.numbered
  have hle : n ≤ s.bufferedFragments.length := by
    rw [← h.fragments]
    exact Nat.le_trans (hsound.acks_delivered n hn) hsound.delivered_written.length_le
  have hacknowledged : g.acknowledged ≤ s.bufferedFragments.length := by
    rw [← h.fragments]
    exact hsound.acknowledged_written
  rw [wrapInt_of_mem (by omega) (by omega)] at hfrag
  refine ⟨n, hn, hfrag, ?_, hle⟩
  rw [Sender.Connection.fragDifference, hfrag, hconnected.acknowledged]
  exact wrapInt_of_mem (by omega) (by omega)

/-- What a connected sender acknowledges is buffered, since it was delivered. -/
theorem SenderRefines.acknowledgesBuffered (h : SenderRefines s g) (hsound : GoBackN.Sound g)
    (act : Sender.Action) : Sender.OnHandler Sender.AcknowledgesBuffered s act := by
  cases act with
  | handler =>
    cases hthread : s.handlerThread with
    | adatAck frag window =>
      obtain ⟨n, hn, -, hdifference, hle⟩ := h.fragDifference_eq hsound hthread
      have hconnected := h.connected_of_ack hn
      have haligned := hconnected.aligned
      rw [hthread, hconnected.acknowledged] at haligned
      simp only [Sender.OnHandler, hthread, Sender.AcknowledgesBuffered,
        Sender.HandlerThread.pendingShift, hdifference] at haligned ⊢
      omega
    | _ =>
      rw [Sender.OnHandler, hthread]
      trivial
  | _ => trivial

/-- The payload that a connected sender transmits is the fragment of its number. -/
theorem SenderRefines.payload_eq (h : SenderRefines s g) (hconnected : Connected s g)
    (hlock : s.receiverLockHeld = false) {i : ℕ} (hi : i ≤ s.conn.lastPayloadIndex) :
    g.fragments[g.acknowledged + i]? = some (s.conn.payload i) := by
  have haligned := hconnected.aligned
  rw [Sender.pendingShift_of_unlocked hlock, hconnected.acknowledged] at haligned
  obtain ⟨old, hold⟩ := h.window.suffix
  have hlength := congrArg List.length hold
  rw [List.length_append, Sender.length_window] at hlength
  have holdLength : old.length = g.acknowledged := by omega
  rw [h.fragments, ← hold, ← holdLength, List.getElem?_append_right (Nat.le_add_right _ _),
    Nat.add_sub_cancel_left]
  exact Sender.getElem?_window s.conn hi

/-- A payload of the window fits a datagram. -/
theorem length_payload_le {c : Sender.Connection} (h : c.FitsBuffer) {i : ℕ}
    (hi : i ≤ c.lastPayloadIndex) : (c.payload i).length ≤ 488 := by
  obtain ⟨hlo, hhi⟩ := h.slots i hi
  have hfull : (maxMrtPayloadLength : ℤ) = 488 := rfl
  rw [hfull] at hhi
  simp only [Sender.Connection.payload, Memory.length_read]
  omega

/-- Buffering a payload keeps the connection aligned with the fragments. -/
theorem SenderRefines.connection_bufferPayload (h : SenderRefines s g) (payload : List Byte)
    (call : Sender.SendCall) (fragments : List (List Byte)) :
    Unconnected
        { s with
          conn := s.conn.bufferPayload payload
          sendCall := call
          bufferedFragments := s.bufferedFragments ++ [payload] } { g with fragments := fragments } ∨
      Connected
        { s with
          conn := s.conn.bufferPayload payload
          sendCall := call
          bufferedFragments := s.bufferedFragments ++ [payload] }
        { g with fragments := fragments } := by
  have hindex : (s.conn.bufferPayload payload).lastPayloadIndex = s.conn.lastPayloadIndex + 1 := rfl
  have hlength : (s.bufferedFragments ++ [payload]).length = s.bufferedFragments.length + 1 :=
    List.length_append
  rcases h.connection with ⟨hfirst, haligned, hunlocked, hnone, hrequests, hunused⟩ |
    ⟨hack, haligned⟩
  · refine Or.inl ⟨hfirst, ?_, hunlocked, hnone, hrequests,
      ⟨hunused.delivered, hunused.acknowledged, hunused.data, hunused.acks⟩⟩
    dsimp only
    rw [hindex, hlength]
    omega
  · refine Or.inr ⟨hack, ?_⟩
    simp only [Sender.Connection.bufferPayload, hlength]
    omega

/-- The first `ACON` connects the sender. Then the numbers of the module are those of the
abstract protocol. -/
theorem SenderRefines.connected_acon (h : SenderRefines s g)
    (hfirst : s.conn.lastAcknowledgedFrag = -1)
    (hindex : s'.conn.lastPayloadIndex = s.conn.lastPayloadIndex)
    (hack : s'.conn.lastAcknowledgedFrag = 0)
    (hfragments : s'.bufferedFragments = s.bufferedFragments)
    (hunlocked : s'.handlerThread.pendingShift = 0) : Connected s' g := by
  rcases h.connection with hunconnected | hconnected
  · have haligned := hunconnected.aligned
    constructor
    · rw [hack, hunconnected.unused.acknowledged]
      rfl
    · rw [hack, hindex, hunlocked, hfragments]
      omega
  · have hacknowledged := hconnected.acknowledged
    omega

/-- The shift that an `ADAT` asked for keeps the connection aligned with the fragments. -/
theorem SenderRefines.connection_shift (h : SenderRefines s g) {d : ℤ}
    (hthread : s.handlerThread = .adatShift d) :
    Unconnected { s with conn := s.conn.shift d, handlerThread := .recvfrom } g ∨
      Connected { s with conn := s.conn.shift d, handlerThread := .recvfrom } g := by
  have hindex : (s.conn.shift d).lastPayloadIndex = s.conn.lastPayloadIndex - d := rfl
  have hnumber : (s.conn.shift d).lastAcknowledgedFrag = s.conn.lastAcknowledgedFrag := rfl
  rcases h.connection with ⟨hfirst, haligned, hunlocked, hnone, hrequests, hunused⟩ |
    ⟨hack, haligned⟩
  · rw [hthread] at hunlocked
    simp only [Sender.HandlerThread.pendingShift] at hunlocked
    refine Or.inl ⟨hfirst, ?_, rfl, hnone, hrequests, hunused⟩
    dsimp only
    rw [hindex]
    omega
  · rw [hthread] at haligned
    simp only [Sender.HandlerThread.pendingShift] at haligned
    refine Or.inr ⟨hack, ?_⟩
    simp only [Sender.HandlerThread.pendingShift]
    rw [hindex, hnumber]
    omega

/-- The payload that a connected sender transmits has the number of its fragment. -/
theorem SenderRefines.sendingFrag_eq (h : SenderRefines s g) (hconnected : Connected s g)
    (hlock : s.receiverLockHeld = false) {i : ℕ} (hi : i ≤ s.conn.lastPayloadIndex) :
    s.conn.sendingFrag i = ((g.acknowledged + i : ℕ) : ℤ) + 1 := by
  have hack := hconnected.acknowledged
  have haligned := hconnected.aligned
  have hnumbered := h.numbered
  rw [Sender.pendingShift_of_unlocked hlock] at haligned
  rw [Sender.Connection.sendingFrag, hack]
  refine (wrapInt_of_mem ?_ ?_).trans ?_ <;> omega

/-- Every section of a sender that receives only what its receiver sent is matched by at
most one step of the writer of Go-Back-N. -/
theorem senderRefines_step (h : SenderRefines s g) (hsound : GoBackN.Sound g)
    {act : Sender.Action} (hnumbering : Sender.OnSend Sender.FitsNumbering s act)
    (hreceived : ∀ dg, act = .handlerRecvfrom dg → FromReceiver g dg)
    (hstep : Sender.step s act = .ok s') : ∃ g', GoBackN.Steps g g' ∧ SenderRefines s' g' ∧
      g'.delivered = g.delivered ∧ g'.acks = g.acks := by
  have hwindow := Sender.windowHolds_step h.window (h.acknowledgesBuffered hsound act) hstep
  have hnumbered := h.numbered
  have hsame : SenderRefines s' g → ∃ g', GoBackN.Steps g g' ∧ SenderRefines s' g' ∧
      g'.delivered = g.delivered ∧ g'.acks = g.acks := fun hs' => ⟨g, .refl, hs', rfl, rfl⟩
  have hold : ∀ dg ∈ s.outbox, dg ∈ s.outbox ∨ dg = rconDatagram ∨ dg = rclsDatagram :=
    fun _ hdg => Or.inl hdg
  have hdone : s.bufferedFragments.length + 0 < 2 ^ 31 - 1 :=
    Nat.lt_of_le_of_lt (Nat.add_le_add_left (Nat.zero_le _) _) hnumbered
  cases Sender.effect_of_step hstep with
  | idle => exact hsame h
  | polled | disconnecting | disconnectMoved _ | requestedClose | ticked _ | flagged _ =>
    exact hsame (h.of_eq hwindow hnumbered rfl hold id h.thread h.incoming)
  | senderMoved position resendTime =>
    exact hsame (h.of_eq hwindow hnumbered rfl hold (fun hnone => by simp [hnone])
      h.thread h.incoming)
  | reset hth hnothing =>
    exact hsame (h.of_eq hwindow hnumbered rfl hold (fun hnone => by simp [hnone])
      h.thread h.incoming)
  | requested =>
    refine hsame (h.of_eq hwindow hnumbered rfl (fun dg hdg => ?_) id h.thread
      h.incoming)
    rcases List.mem_append.mp hdg with hdg | hdg
    · exact Or.inl hdg
    · rw [List.mem_singleton, read_buildRcon] at hdg
      exact Or.inr (Or.inl hdg)
  | sentRcls =>
    refine hsame (h.of_eq hwindow hnumbered rfl (fun dg hdg => ?_) id h.thread
      h.incoming)
    rcases List.mem_append.mp hdg with hdg | hdg
    · exact Or.inl hdg
    · rw [List.mem_singleton, read_buildRcls] at hdg
      exact Or.inr (Or.inr hdg)
  | submitted _ | succeeded _ _ _ =>
    exact hsame (h.of_eq hwindow hdone rfl hold id h.thread h.incoming)
  | found hcall =>
    refine hsame (h.of_eq hwindow ?_ rfl hold id h.thread h.incoming)
    dsimp only
    split <;> exact hdone
  | @estimated args hcall hlock =>
    refine hsame (h.of_eq hwindow ?_ rfl hold id h.thread h.incoming)
    simp only [Sender.OnSend, hcall, Sender.FitsNumbering] at hnumbering
    have hnone : args.len - ((0 : ℕ) : ℤ) = args.len := Int.sub_zero _
    simpa only [Sender.SendCall.remaining, hnone] using hnumbering
  | foundAgain hcall =>
    refine hsame (h.of_eq hwindow ?_ rfl hold id h.thread h.incoming)
    rw [hcall] at hnumbered
    dsimp only
    split
    · exact hnumbered
    · exact hdone
  | unacknowledged hcall hlock hfinal =>
    refine hsame (h.of_eq hwindow ?_ rfl hold id h.thread h.incoming)
    rw [hcall] at hnumbered
    dsimp only
    split <;> exact hnumbered
  | full hcall =>
    refine hsame (h.of_eq hwindow ?_ rfl hold id h.thread h.incoming)
    rw [hcall] at hnumbered
    exact hnumbered
  | @received dg hthread =>
    refine hsame (h.of_eq hwindow hnumbered ?_ hold id trivial fun _ => ?_)
    · simp only [Sender.State.windowParts, hthread, Sender.HandlerThread.pendingShift]
    · exact acknowledges_dispatch s.conn.incomingBuffer (hreceived dg rfl)
  | dispatched hthread hclose =>
    refine hsame (h.of_eq hwindow hnumbered ?_ hold id (h.incoming hthread)
      fun _ => h.incoming hthread)
    have hpending := (Sender.dispatch_spec s.conn.incomingBuffer).1
    simp only [Sender.State.windowParts, hthread, hpending]
    rfl
  | refreshed hthread =>
    have hack := h.thread
    rw [hthread] at hack
    refine hsame (h.of_eq hwindow hnumbered ?_ hold id hack fun hcheck => ?_)
    · simp only [Sender.State.windowParts, hthread, Sender.HandlerThread.pendingShift]
    · cases hcheck
  | closing hthread _ | reconnected hthread _ | outdated hthread _ | closedByPeer hthread
  | freed hthread =>
    -- The next section belongs to no `ADAT`.
    refine hsame (h.of_eq hwindow hnumbered ?_ hold id trivial fun hcheck => ?_)
    · simp only [Sender.State.windowParts, hthread, Sender.HandlerThread.pendingShift]
    · cases hcheck
  | @buffered args finalFrag copied hcall hspace hbounds =>
    have hcopying := h.window.copying
    rw [hcall] at hnumbered hcopying
    have hcount := Sender.fragmentCount_copy hcopying
    refine ⟨_, .single (.write _), ⟨hwindow, ?_, congrArg (· ++ _) h.fragments,
      fun dg hdg => (h.outbox dg hdg).mono (Set.Subset.refl _),
      h.thread.mono (Set.Subset.refl _),
      fun hcheck => (h.incoming hcheck).mono (Set.Subset.refl _),
      h.connection_bufferPayload _ _ _⟩, rfl, rfl⟩
    simp only [Sender.SendCall.remaining, List.length_append, List.length_singleton]
      at hnumbered ⊢
    omega
  | connected hthread hfirst =>
    exact hsame ⟨hwindow, hnumbered, h.fragments, h.outbox, trivial,
      (fun hcheck => by cases hcheck), Or.inr (h.connected_acon hfirst rfl rfl rfl rfl)⟩
  | @acknowledged frag window hthread hdifference =>
    obtain ⟨n, hn, hfrag, hahead, hle⟩ := h.fragDifference_eq hsound hthread
    have hconnected := h.connected_of_ack hn
    have haligned := hconnected.aligned
    have hack := hconnected.acknowledged
    have hpending := Sender.pendingShift_adat hdifference
    rw [hthread] at haligned
    simp only [Sender.HandlerThread.pendingShift] at haligned
    refine ⟨_, .single (.advance hn (by omega)), ⟨hwindow, hnumbered, h.fragments,
      fun dg hdg => (h.outbox dg hdg).mono (Set.Subset.refl _), ?_, ?_, Or.inr ⟨hfrag, ?_⟩⟩,
      rfl, rfl⟩
    · dsimp only
      split <;> trivial
    · dsimp only
      split <;> exact fun hcheck => by cases hcheck
    · dsimp only
      rw [hpending]
      omega
  | shifted hthread _ =>
    exact hsame ⟨hwindow, hnumbered, h.fragments, h.outbox, trivial,
      (fun hcheck => by cases hcheck), h.connection_shift hthread⟩
  | sentEmpty resendTime hth =>
    have hconnected := h.connected_of_thread hth
    refine hsame ⟨hwindow, hnumbered, h.fragments, fun dg hdg => ?_, h.thread, h.incoming,
      Or.inr ⟨hconnected.acknowledged, hconnected.aligned⟩⟩
    rcases List.mem_append.mp hdg with hdg | hdg
    · exact h.outbox dg hdg
    · rw [List.mem_singleton, read_buildDataEmpty] at hdg
      rw [hdg]
      exact .dataEmpty
  | sentPayload hth hlock hwait hbounds =>
    have hconnected := h.connected_of_thread hth
    obtain ⟨i, hi⟩ := Int.eq_ofNat_of_zero_le hbounds.1.1
    have hready : (i : ℤ) ≤ s.conn.lastPayloadIndex := by
      simp only [Sender.Connection.mustWait, Bool.or_eq_false_iff, decide_eq_false_iff_not,
        Int.not_lt] at hwait
      omega
    have hnumber := h.sendingFrag_eq hconnected hlock hready
    refine ⟨_, .single (.transmit (h.payload_eq hconnected hlock hready)), ⟨hwindow, hnumbered,
      h.fragments, fun dg hdg => ?_, h.thread.mono (Set.Subset.refl _),
      fun hcheck => (h.incoming hcheck).mono (Set.Subset.refl _),
      Or.inr ⟨hconnected.acknowledged, hconnected.aligned⟩⟩, rfl, rfl⟩
    rcases List.mem_append.mp hdg with hdg | hdg
    · exact (h.outbox dg hdg).mono (Set.subset_insert _ _)
    · rw [List.mem_singleton, read_buildData, hi, hnumber, Int.toNat_natCast] at hdg
      rw [hdg]
      exact .data _ (Set.mem_insert _ _) (Memory.length_read _ _ _)
        (length_payload_le h.window.fits hready)

/-! ### The receiver's side -/

/-- A receiver has delivered the fragments of Go-Back-N and expects the next one. Only
what it sent after the first `before` datagrams is in flight. -/
structure ReceiverRefines (v : Receiver.View) (before : ℕ) (g : Transfer) : Prop where
  delivered : g.delivered = v.bufferedPayloads
  expected : ∀ r, v.record = some r → r.nextFrag = v.bufferedPayloads.length + 1
  inFlight : ∀ dg ∈ v.sent.drop before, FromReceiver g dg

/-- One more datagram is in flight, and it is one that a receiver sends. -/
theorem inFlight_append {sent : List Datagram} {before : ℕ}
    (h : ∀ dg ∈ sent.drop before, FromReceiver g dg) {dg : Datagram} (hdg : FromReceiver g dg) :
    ∀ dg' ∈ (sent ++ [dg]).drop before, FromReceiver g dg' := by
  intro dg' hmem
  rw [List.drop_append] at hmem
  rcases List.mem_append.mp hmem with hold | hnew
  · exact h dg' hold
  · rw [List.mem_singleton.mp (List.mem_of_mem_drop hnew)]
    exact hdg

/-- A sender of data is connected. What it sends before that are requests. -/
theorem SenderRefines.connected_of_data (h : SenderRefines s g) {r : Receiver.State}
    {dg : Datagram} (hdg : dg ∈ s.outbox) (htype : Receiver.dispatchedType r dg = some mrtData) :
    Connected s g := by
  refine h.connection.resolve_left fun hunconnected => ?_
  rcases hunconnected.requests dg hdg with rfl | rfl
  · cases (dispatchedType_rcon r).symm.trans htype
  · cases (dispatchedType_rcls r).symm.trans htype

/-- The data that a receiver expects is the next fragment of Go-Back-N. -/
theorem SenderRefines.expected_mem_data (h : SenderRefines s g) (hsound : GoBackN.Sound g)
    {r : Receiver.State} {dg : Datagram} (hdg : dg ∈ s.outbox)
    (htype : Receiver.dispatchedType r dg = some mrtData)
    (hfrag : Receiver.dispatchedFrag r dg = g.delivered.length + 1) :
    (g.delivered.length, Receiver.dispatchedPayload r dg) ∈ g.data := by
  cases h.outbox dg hdg with
  | rcon => cases (dispatchedType_rcon r).symm.trans htype
  | dataEmpty =>
    rw [dispatchedFrag_dataEmpty] at hfrag
    omega
  | @data i payload stale hdata hstale hpayload =>
    have hwritten := (List.getElem?_eq_some_iff.mp (hsound.data_written i payload hdata)).1
    have hnumbered := h.numbered
    rw [h.fragments] at hwritten
    rw [dispatchedFrag_data r _ hstale hpayload, wrapInt_of_mem (by omega) (by omega)] at hfrag
    have hindex : i = g.delivered.length := by omega
    rw [dispatchedPayload_data r _ hstale hpayload, ← hindex]
    exact hdata
  | rcls => cases (dispatchedType_rcls r).symm.trans htype

/-- Every section of a receiver that receives only what the sender sent is matched by at
most two steps of the reader of Go-Back-N. -/
theorem receiverRefines_step {r r' : Receiver.State} {addr : SockaddrIn} {before : ℕ}
    (h : ReceiverRefines (r.view addr) before g) (hsender : SenderRefines s g)
    (hsound : GoBackN.Sound g) (hstreams : Receiver.StreamsKept r)
    (hwaiting : ∀ x ∈ r.waiting, x.nextFrag = 1) {act : Receiver.Action}
    (hdelivers : ∀ dg, act = .mainHandler addr dg → dg ∈ s.outbox)
    (hstep : Receiver.step r act = .ok r') : ∃ g', GoBackN.Steps g g' ∧
      ReceiverRefines (r'.view addr) before g' ∧ SenderRefines s g' := by
  have heffect := Receiver.addressEffect_of_step hstep addr
  generalize r'.view addr = v at heffect ⊢
  have hsame : ReceiverRefines v before g → ∃ g', GoBackN.Steps g g' ∧
      ReceiverRefines v before g' ∧ SenderRefines s g' := fun hv => ⟨g, .refl, hv, hsender⟩
  cases heffect with
  | kept => exact hsame h
  | @ticked i x hrecord =>
    refine hsame ⟨h.delivered, fun y hy => ?_, h.inFlight⟩
    cases hy
    have hfrag : x.tick.nextFrag = x.nextFrag := by
      unfold Receiver.Sender.tick
      split <;> rfl
    exact hfrag.trans (h.expected x hrecord)
  | @registered i x hopen hrecord hx haddr =>
    obtain ⟨-, hbuffered, -⟩ := (hstreams.accounts addr).unknown hrecord hopen
    refine hsame ⟨h.delivered, fun y hy => ?_, inFlight_append h.inFlight (.acon _)⟩
    cases hy
    rw [hbuffered]
    exact hwaiting x hx
  | @acknowledged act x frag hrecord =>
    exact hsame ⟨h.delivered, h.expected, inFlight_append h.inFlight (.acon _)⟩
  | @disconnected dg x hclose htype hrecord =>
    refine hsame ⟨h.delivered, fun y hy => ?_, inFlight_append h.inFlight .acls⟩
    cases hy
    exact h.expected x hrecord
  | @consumed len x hrecord hunread hbounds =>
    refine hsame ⟨h.delivered, fun y hy => ?_, h.inFlight⟩
    cases hy
    have hfrag : (x.consume (x.bytesRead len)).nextFrag = x.nextFrag := by
      unfold Receiver.Sender.consume
      split <;> rfl
    exact hfrag.trans (h.expected x hrecord)
  | cleaned => exact hsame ⟨h.delivered, (fun y hy => by cases hy), h.inFlight⟩
  | @refused dg x hclose htype hrecord hadmits =>
    have hconnected := hsender.connected_of_data (hdelivers dg rfl) htype
    have hnumber : x.nextFrag - 1 = g.delivered.length := by
      rw [h.expected x hrecord, h.delivered, Int.add_sub_cancel]
    refine ⟨_, .single .acknowledge, ⟨h.delivered, fun y hy => ?_, ?_⟩,
      hsender.mono hconnected rfl rfl (Set.Subset.refl _) (Set.subset_insert _ _)⟩
    · cases hy
      exact h.expected x hrecord
    · refine inFlight_append (fun dg' hdg' => (h.inFlight dg' hdg').mono (Set.subset_insert _ _)) ?_
      rw [hnumber]
      exact .adat _ (Set.mem_insert _ _)
  | @buffered dg x hclose htype hrecord hadmits hbounds =>
    have hconnected := hsender.connected_of_data (hdelivers dg rfl) htype
    have hexpected := h.expected x hrecord
    rw [← h.delivered] at hexpected
    have hfrag := ((Receiver.Sender.admits_iff x).mp hadmits).2.symm.trans hexpected
    have hdata := hsender.expected_mem_data hsound (hdelivers dg rfl) htype hfrag
    let payload := Receiver.dispatchedPayload r dg
    let g₁ : Transfer := { g with delivered := g.delivered ++ [payload] }
    have hlength : g₁.delivered.length = g.delivered.length + 1 := by simp [g₁]
    have hwritten := (hsound.step (.accept hdata)).delivered_written.length_le
    have hnumbered := hsender.numbered
    rw [← hsender.fragments] at hnumbered
    have hnext : (x.append payload).nextFrag = g₁.delivered.length + 1 := by
      have happend : (x.append payload).nextFrag = wrapInt (x.nextFrag + 1) := rfl
      have hfits : g₁.delivered.length ≤ g.fragments.length := hwritten
      rw [happend, hexpected, wrapInt_of_mem (by omega) (by omega), hlength]
      rfl
    have hdelivered : g₁.delivered = r.bufferedPayloads addr ++ [payload] :=
      congrArg (· ++ [payload]) h.delivered
    refine ⟨{ g₁ with acks := insert g₁.delivered.length g₁.acks },
      .tail (.single (.accept hdata)) .acknowledge, ⟨hdelivered, fun y hy => ?_, ?_⟩,
      hsender.mono hconnected rfl rfl (Set.Subset.refl _) (Set.subset_insert _ _)⟩
    · cases hy
      rw [← hdelivered]
      exact hnext
    · refine inFlight_append (fun dg' hdg' => (h.inFlight dg' hdg').mono (Set.subset_insert _ _)) ?_
      rw [hnext, Int.add_sub_cancel]
      exact .adat _ (Set.mem_insert _ _)

/-! ### All connections -/

namespace Network

/-- The connection of an address is a state of Go-Back-N. -/
structure Refines (w : World) (addr : SockaddrIn) (g : Transfer) : Prop where
  reachable : GoBackN.Reachable g
  sender : SenderRefines (w.senders addr) g
  receiver : ReceiverRefines (w.receiver.view addr) (w.sentBefore addr) g

/-- Every connection is a state of Go-Back-N, and new connections start with fragment 1. -/
structure NetworkHolds (w : World) : Prop where
  streams : Receiver.StreamsKept w.receiver
  waiting : ∀ r ∈ w.receiver.waiting, r.nextFrag = 1
  refines : ∀ addr, ∃ g, Refines w addr g

/-- No connection has more fragments than an `int` can number. -/
def FewFragments : World → Action → Prop := OnSender (Sender.OnSend Sender.FitsNumbering)

instance (w : World) (act : Action) : Decidable (FewFragments w act) :=
  inferInstanceAs (Decidable (OnSender (Sender.OnSend Sender.FitsNumbering) w act))

/-- A session opens only at an address from which the receiver has buffered nothing. -/
def FreshSession (w : World) : Action → Prop
  | .reopen addr => w.receiver.bufferedPayloads addr = []
  | _ => True

instance (w : World) (act : Action) : Decidable (FreshSession w act) :=
  match act with
  | .reopen addr => inferInstanceAs (Decidable (w.receiver.bufferedPayloads addr = []))
  | .receiver _ | .sender _ _ => isTrue trivial

/-- A sender that has not yet sent anything. -/
theorem senderRefines_initial : SenderRefines Sender.initial GoBackN.initial :=
  ⟨Sender.windowHolds_initial, by decide, rfl, (fun dg hdg => by cases hdg), trivial,
    (fun hcheck => by cases hcheck), Or.inl ⟨rfl, rfl, rfl, rfl, (fun dg hdg => by cases hdg),
      ⟨rfl, rfl, rfl, rfl⟩⟩⟩

/-- Nothing is written or delivered initially, and nothing is in flight. -/
theorem networkHolds_initial : NetworkHolds initial := by
  refine ⟨Receiver.streamsKept_initial, fun r hr => ?_,
    fun addr => ⟨GoBackN.initial, .refl, senderRefines_initial, rfl, fun r hr => ?_,
      fun dg hdg => ?_⟩⟩
  · cases hr
  · cases hr
  · cases hdg

/-- What a sender receives comes from its receiver, in this session or in no other. -/
theorem fromReceiver_of_returns {w : World} {addr : SockaddrIn} {g : Transfer}
    (h : Refines w addr g) {act : Sender.Action} (hreturns : w.Returns addr act) (dg : Datagram)
    (hact : act = .handlerRecvfrom dg) : FromReceiver g dg := by
  subst hact
  exact h.receiver.inFlight dg hreturns

/-- A new request starts with fragment 1, as every sender proposes the number 0. -/
theorem nextFrag_of_waiting {w : World} (h : NetworkHolds w) {act : Receiver.Action}
    (hdelivers : w.Delivers act) {s : Receiver.State} (hstep : Receiver.step w.receiver act = .ok s)
    (r : Receiver.Sender) (hr : r ∈ s.waiting) : r.nextFrag = 1 := by
  rcases Receiver.mem_waiting_of_step hstep hr with hold | ⟨addr, dg, rfl, htype, rfl⟩
  · exact h.waiting r hold
  · obtain ⟨g, hg⟩ := h.refines addr
    cases hg.sender.outbox dg hdelivers with
    | rcon =>
      rw [dispatchedFrag_rcon]
      rfl
    | dataEmpty => cases (dispatchedType_dataEmpty w.receiver).symm.trans htype
    | data stale hdata hstale hpayload =>
      cases (dispatchedType_data w.receiver _ hstale hpayload).symm.trans htype
    | rcls => cases (dispatchedType_rcls w.receiver).symm.trans htype

/-- Every step keeps every connection a state of Go-Back-N. A step is one of the abstract
protocol or none for each address. -/
theorem networkHolds_step {w w' : World} {act : Action} (h : NetworkHolds w)
    (hfew : FewFragments w act) (hfresh : FreshSession w act) (hstep : step w act = .ok w') :
    NetworkHolds w' := by
  cases effect_of_step hstep with
  | idle => exact h
  | @receiver act s hdelivers hsub =>
    refine ⟨Receiver.streamsKept_step h.streams hsub, nextFrag_of_waiting h hdelivers hsub,
      fun addr => ?_⟩
    obtain ⟨g, hg⟩ := h.refines addr
    obtain ⟨g', hsteps, hreceiver, hsender⟩ := receiverRefines_step hg.receiver hg.sender
      hg.reachable.sound h.streams h.waiting (fun dg hact => by subst hact; exact hdelivers) hsub
    exact ⟨g', hg.reachable.steps hsteps, hsender, hreceiver⟩
  | @sender id act s hreturns hsub =>
    refine ⟨h.streams, h.waiting, fun addr => ?_⟩
    obtain ⟨g, hg⟩ := h.refines addr
    by_cases haddr : addr = id
    · subst haddr
      obtain ⟨g', hsteps, hsender, hdelivered, hacks⟩ := senderRefines_step hg.sender
        hg.reachable.sound hfew (fromReceiver_of_returns hg hreturns) hsub
      refine ⟨g', hg.reachable.steps hsteps, ?_, hdelivered.trans hg.receiver.delivered,
        hg.receiver.expected, fun dg hdg => (hg.receiver.inFlight dg hdg).mono ?_⟩
      · rw [setSender_self]
        exact hsender
      · rw [hacks]
    · refine ⟨g, hg.reachable, ?_, hg.receiver⟩
      rw [setSender_of_ne w s haddr]
      exact hg.sender
  | @reopened id hended =>
    refine ⟨h.streams, h.waiting, fun addr => ?_⟩
    obtain ⟨g, hg⟩ := h.refines addr
    by_cases haddr : addr = id
    · subst haddr
      refine ⟨GoBackN.initial, .refl, ?_, Eq.symm hfresh, hg.receiver.expected, fun dg hdg => ?_⟩
      · rw [reopen_self]
        exact senderRefines_initial
      · simp [World.reopen, World.setSender] at hdg
    · have hbefore : (w.reopen id).sentBefore addr = w.sentBefore addr :=
        Function.update_of_ne haddr _ _
      refine ⟨g, hg.reachable, ?_, hg.receiver.delivered, hg.receiver.expected, ?_⟩
      · rw [reopen_of_ne w haddr]
        exact hg.sender
      · rw [hbefore]
        exact hg.receiver.inFlight

end Network

end NetworkLabs.Mrt
