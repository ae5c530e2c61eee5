import NetworkLabs.Mrt.Acceptance

/-!
# Accepting all pending requests

One call of `mrt_accept_all` by the only thread that accepts, beside `main_handler`. The call
looks at the first request in one critical section and `mrt_accept1` takes it in another, so
that `main_handler` can withdraw it in between. `mrt_accept1` registers it in a third, and a
sender that repeats its request meanwhile is accepted twice.
-/

namespace NetworkLabs.Mrt.AcceptAll

open Foundations Receiver

/-- The critical section that the call is before. Between the look and the taking, and between
two requests, the lock is free. -/
inductive Position where
  /-- It looks for a request. -/
  | peek
  /-- `mrt_accept1` takes a request, or sleeps and tries again. -/
  | dequeue
  /-- `mrt_accept1` registers the request that it has taken. -/
  | enqueue
  | returned
  deriving DecidableEq

/-- The receiver, the call with its `accepted_q`, and a history: how often `mrt_accept1` slept,
the requests that were pending, in their order, and the senders that the call has moved. -/
structure State where
  shared : Receiver.State
  position : Position
  acceptedQ : List SockaddrIn
  sleeps : ℕ
  requests : List Sender
  moved : List Sender

/-- The call is made. What is pending then counts as requested. -/
def start (shared : Receiver.State) : State :=
  { shared := shared, position := .peek, acceptedQ := [], sleeps := 0
    requests := shared.pendingSendersQ, moved := [] }

/-- The next critical section of the call, which calls `mrt_accept1` as long as a look finds a
request. -/
def mrtAcceptAll (s : State) : Except Fault State :=
  match s.position with
  | .peek =>
    if s.shared.closed then .error .useAfterFree
    else .ok { s with position := if s.shared.pendingSendersQ = [] then .returned else .dequeue }
  | .dequeue =>
    (Receiver.step s.shared .mrtAccept1Dequeue).map fun shared =>
      match deqQ s.shared.pendingSendersQ with
      | none => { s with shared := shared, sleeps := s.sleeps + 1 }
      | some _ => { s with shared := shared, position := .enqueue }
  | .enqueue =>
    (Receiver.step s.shared (.mrtAccept1Enqueue 0)).map fun shared =>
      { s with
        shared := shared
        position := .peek
        acceptedQ := s.acceptedQ ++ addresses (s.shared.accepting.take 1)
        moved := s.moved ++ s.shared.accepting.take 1 }
  | .returned => .ok s

/-- The steps of the two threads. A call of `mrt_accept_all` and the calls of `mrt_accept1` in
it are one thread. -/
inductive Action where
  | mainHandler (addr : SockaddrIn) (dg : Datagram)
  | mrtAcceptAll
  deriving DecidableEq

/-- One step. What `main_handler` adds to `pending_senders_q` counts as requested. -/
def step (s : State) : Action → Except Fault State
  | .mainHandler addr dg =>
    (Receiver.step s.shared (.mainHandler addr dg)).map fun shared =>
      { s with
        shared := shared
        requests :=
          s.requests ++ shared.pendingSendersQ.drop s.shared.pendingSendersQ.length }
  | .mrtAcceptAll => mrtAcceptAll s

/-- The call has not slept and is not about to, and it has listed the senders that it has
moved behind those connected `before`, each once and in the order of their requests. -/
structure AcceptsExactly (before : List Sender) (s : State) : Prop where
  never_slept : s.sleeps = 0
  never_sleeps : ∀ s', step s .mrtAcceptAll = .ok s' → s'.sleeps = 0
  listed : s.acceptedQ = addresses s.moved
  once : s.acceptedQ.Nodup
  in_order : s.moved.Sublist s.requests
  connected : addresses s.shared.connectedSendersQ = addresses before ++ addresses s.moved

/-- The datagram withdraws the only pending request: it is an `RCLS` of its sender, which is not
connected. -/
def WithdrawsOnly (s : Receiver.State) (addr : SockaddrIn) (dg : Datagram) : Prop :=
  dispatchedType s dg = some mrtRcls ∧ (s.record addr).isNone ∧
    addresses s.pendingSendersQ = [addr]

instance (s : Receiver.State) (addr : SockaddrIn) (dg : Datagram) :
    Decidable (WithdrawsOnly s addr dg) :=
  inferInstanceAs (Decidable (_ ∧ _ ∧ _))

/-- `mrt_accept1` registers a second request of a sender, whose first one the call has moved
already. -/
def RegistersAgain (s : State) : Prop :=
  s.position = .enqueue ∧ ∃ r ∈ s.shared.accepting, r.addr ∈ addresses s.moved

instance (s : State) : Decidable (RegistersAgain s) :=
  inferInstanceAs (Decidable (_ ∧ _))

/-- The only pending request is not withdrawn between the look and the taking, and no sender
is registered a second time. -/
def OneRequestEach (s : State) : Action → Prop
  | .mainHandler addr dg => s.position = .dequeue → ¬WithdrawsOnly s.shared addr dg
  | .mrtAcceptAll => ¬RegistersAgain s

instance (s : State) (act : Action) : Decidable (OneRequestEach s act) :=
  match act with
  | .mainHandler _ _ => inferInstanceAs (Decidable (_ → _))
  | .mrtAcceptAll => inferInstanceAs (Decidable (¬_))

/-- The datagram is a request of a sender that `mrt_accept1` has taken and not yet registered. -/
def RepeatsHeld (s : Receiver.State) (addr : SockaddrIn) (dg : Datagram) : Prop :=
  dispatchedType s dg = some mrtRcon ∧ addr ∈ addresses s.accepting

instance (s : Receiver.State) (addr : SockaddrIn) (dg : Datagram) :
    Decidable (RepeatsHeld s addr dg) :=
  inferInstanceAs (Decidable (_ ∧ _))

/-- What `main_handler` handles while the call is between two critical sections: it does not
withdraw the only pending request between the look and the taking, and no sender repeats its
request between the taking and the registering. -/
def LeavesRequests (s : State) : Action → Prop
  | .mainHandler addr dg =>
    (s.position = .dequeue → ¬WithdrawsOnly s.shared addr dg) ∧ ¬RepeatsHeld s.shared addr dg
  | .mrtAcceptAll => True

instance (s : State) (act : Action) : Decidable (LeavesRequests s act) :=
  match act with
  | .mainHandler _ _ => inferInstanceAs (Decidable (_ ∧ _))
  | .mrtAcceptAll => isTrue trivial

/-- What the call holds between the two critical sections of `mrt_accept1`, and what it has
seen before the first of them. -/
def State.Ready (s : State) : Prop :=
  match s.position with
  | .dequeue => s.shared.accepting = [] ∧ s.shared.pendingSendersQ ≠ []
  | .enqueue => ∃ r, s.shared.accepting = [r]
  | .peek | .returned => s.shared.accepting = []

/-- The invariant behind `AcceptsExactly`, which holds between any two sections of the call. -/
structure Accepting (before : List Sender) (s : State) : Prop where
  still_open : s.shared.closed = false
  not_closing : s.shared.shouldClose = false
  ready : s.Ready
  never_slept : s.sleeps = 0
  listed : s.acceptedQ = addresses s.moved
  once : (addresses s.moved).Nodup
  /-- What was moved, is held and is pending was requested in this order. -/
  in_order : (s.moved ++ (s.shared.accepting ++ s.shared.pendingSendersQ)).Sublist s.requests
  connected : addresses s.shared.connectedSendersQ = addresses before ++ addresses s.moved

/-- The records of the senders that the call has moved, holds or may still take. -/
def State.records (s : State) : List Sender :=
  s.moved ++ (s.shared.accepting ++ s.shared.pendingSendersQ)

/-- The datagram is the request of a new sender, which becomes pending. -/
structure Requests (s s' : Receiver.State) (addr : SockaddrIn) (dg : Datagram) (r : Sender) :
    Prop where
  queue_eq : s'.pendingSendersQ = s.pendingSendersQ ++ [r]
  addr_eq : r.addr = addr
  isRequest : dispatchedType s dg = some mrtRcon
  notPending : addr ∉ addresses s.pendingSendersQ
  notConnected : addr ∉ addresses s.connectedSendersQ

/-- What a datagram does to the queues. It makes a request pending, withdraws one or leaves
`pending_senders_q` as it is. -/
structure Handled (s s' : Receiver.State) (addr : SockaddrIn) (dg : Datagram) : Prop where
  closed_eq : s'.closed = s.closed
  shouldClose_eq : s'.shouldClose = s.shouldClose
  accepting_eq : s'.accepting = s.accepting
  connected_eq : addresses s'.connectedSendersQ = addresses s.connectedSendersQ
  pending : s'.pendingSendersQ = s.pendingSendersQ ∨
    (∃ r, Requests s s' addr dg r) ∨
    dispatchedType s dg = some mrtRcls ∧ s.record addr = none ∧
      s'.pendingSendersQ = popItemQ s.pendingSendersQ (senderMatcher addr)

/-- Every datagram is handled so while the receiver is not closing. -/
theorem handled_of_step {s s' : Receiver.State} {addr : SockaddrIn} {dg : Datagram}
    (hclose : s.shouldClose = false) (hstep : Receiver.step s (.mainHandler addr dg) = .ok s') :
    Handled s s' addr dg := by
  cases effect_of_step hstep with
  | idle => exact ⟨rfl, rfl, rfl, rfl, .inl rfl⟩
  | dropped => exact ⟨rfl, rfl, rfl, rfl, .inl rfl⟩
  | closed hclosing => exact absurd (hclose.symm.trans hclosing) Bool.false_ne_true
  | requested hclose htype hpending hrecord =>
    exact ⟨rfl, rfl, rfl, rfl, .inr (.inl ⟨_, rfl, rfl, htype, not_mem_addresses hpending,
      not_mem_addresses hrecord⟩)⟩
  | reacknowledged => exact ⟨rfl, rfl, rfl, rfl, .inl rfl⟩
  | @refused _ _ r => exact ⟨rfl, rfl, rfl, addresses_replyAdat _ addr r, .inl rfl⟩
  | buffered =>
    have happend := addresses_updateRecord (s.store dg) addr
      (f := fun r => r.append (dispatchedPayload s dg)) fun _ => rfl
    exact ⟨rfl, rfl, rfl, (addresses_replyAdat _ addr _).trans happend, .inl rfl⟩
  | disconnected =>
    exact ⟨rfl, rfl, rfl, addresses_updateRecord (s.store dg) addr fun _ => rfl, .inl rfl⟩
  | withdrawn htype hrecord => exact ⟨rfl, rfl, rfl, rfl, .inr (.inr ⟨htype, hrecord, rfl⟩)⟩

/-- Taking the only request away is what empties the queue. -/
theorem popItemQ_eq_nil_iff {queue : List Sender} (hqueue : queue ≠ []) (addr : SockaddrIn) :
    popItemQ queue (senderMatcher addr) = [] ↔ addresses queue = [addr] := by
  obtain ⟨r, queue, rfl⟩ := List.exists_cons_of_ne_nil hqueue
  by_cases haddr : r.addr = addr
  · simp [popItemQ, senderMatcher, Receiver.addresses, haddr]
  · simp [popItemQ, senderMatcher, Receiver.addresses, haddr]

/-- With a request to take, the call does not sleep. -/
theorem sleeps_of_ready {s s' : State} (hready : s.Ready) (hstep : mrtAcceptAll s = .ok s') :
    s'.sleeps = s.sleeps := by
  unfold State.Ready at hready
  unfold mrtAcceptAll at hstep
  cases hposition : s.position with
  | peek =>
    simp only [hposition] at hstep
    split at hstep <;> cases hstep
    rfl
  | dequeue =>
    simp only [hposition] at hready hstep
    obtain ⟨r, queue, hqueue⟩ := List.exists_cons_of_ne_nil hready.2
    obtain ⟨shared, -, rfl⟩ := of_map_eq_ok hstep
    simp only [hqueue, deqQ]
  | enqueue =>
    simp only [hposition] at hstep
    obtain ⟨shared, -, rfl⟩ := of_map_eq_ok hstep
    rfl
  | returned =>
    simp only [hposition] at hstep
    cases hstep
    rfl

/-- Under the invariant the call accepts exactly what it should. -/
theorem Accepting.acceptsExactly {before : List Sender} {s : State} (h : Accepting before s) :
    AcceptsExactly before s := by
  refine ⟨h.never_slept, fun s' hstep => ?_, h.listed, ?_, ?_, h.connected⟩
  · exact (sleeps_of_ready h.ready hstep).trans h.never_slept
  · rw [h.listed]
    exact h.once
  · exact (List.sublist_append_left _ _).trans h.in_order

/-- A datagram that leaves the call its request keeps the invariant. -/
theorem accepting_mainHandler {before : List Sender} {s s' : State} {addr : SockaddrIn}
    {dg : Datagram} (h : Accepting before s) (hkeeps : OneRequestEach s (.mainHandler addr dg))
    (hstep : step s (.mainHandler addr dg) = .ok s') : Accepting before s' := by
  obtain ⟨shared, hshared, rfl⟩ := of_map_eq_ok hstep
  have hhandled := handled_of_step h.not_closing hshared
  have hpending : s.position = .dequeue → s.shared.pendingSendersQ ≠ [] →
      shared.pendingSendersQ ≠ [] := by
    intro hposition hqueue
    rcases hhandled.pending with hsame | ⟨r, hnew⟩ | ⟨htype, hrecord, hpop⟩
    · rwa [hsame]
    · rw [hnew.queue_eq]
      exact List.append_ne_nil_of_right_ne_nil _ (List.cons_ne_nil r [])
    · rw [hpop, Ne, popItemQ_eq_nil_iff hqueue]
      intro honly
      exact hkeeps hposition ⟨htype, Option.isNone_iff_eq_none.mpr hrecord, honly⟩
  constructor
  · exact hhandled.closed_eq.trans h.still_open
  · exact hhandled.shouldClose_eq.trans h.not_closing
  · have hready := h.ready
    unfold State.Ready at hready ⊢
    simp only [hhandled.accepting_eq]
    cases hposition : s.position with
    | dequeue =>
      simp only [hposition] at hready ⊢
      exact ⟨hready.1, hpending hposition hready.2⟩
    | peek | enqueue | returned =>
      simp only [hposition] at hready ⊢
      exact hready
  · exact h.never_slept
  · exact h.listed
  · exact h.once
  · have horder := h.in_order
    simp only [hhandled.accepting_eq]
    rcases hhandled.pending with hsame | ⟨r, hnew⟩ | ⟨-, -, hpop⟩
    · simpa [hsame] using horder
    · rw [hnew.queue_eq, List.drop_left, ← List.append_assoc, ← List.append_assoc]
      rw [← List.append_assoc] at horder
      exact horder.append_right [r]
    · have hsub : (popItemQ s.shared.pendingSendersQ (senderMatcher addr)).Sublist
          s.shared.pendingSendersQ := List.eraseP_sublist
      rw [hpop, List.drop_eq_nil_of_le hsub.length_le, List.append_nil]
      exact ((hsub.append_left _).append_left _).trans horder
  · exact hhandled.connected_eq.trans h.connected

/-- The call only moves records on, from what is pending to what it holds and from there to what
it has moved. -/
theorem records_mrtAcceptAll {before : List Sender} {s s' : State} (h : Accepting before s)
    (hstep : mrtAcceptAll s = .ok s') : s'.records = s.records ∧ s'.requests = s.requests := by
  have hready := h.ready
  unfold State.Ready at hready
  unfold mrtAcceptAll at hstep
  cases hposition : s.position with
  | peek =>
    simp only [hposition, h.still_open, Bool.false_eq_true, if_false] at hstep
    cases hstep
    exact ⟨rfl, rfl⟩
  | dequeue =>
    simp only [hposition] at hready hstep
    obtain ⟨r, queue, hqueue⟩ := List.exists_cons_of_ne_nil hready.2
    obtain ⟨shared, hshared, rfl⟩ := of_map_eq_ok hstep
    rw [Receiver.step, h.still_open, if_neg Bool.false_ne_true, mrtAccept1Dequeue,
      hqueue] at hshared
    cases hshared
    simp [State.records, hqueue, hready.1, deqQ]
  | enqueue =>
    simp only [hposition] at hready hstep
    obtain ⟨r, hr⟩ := hready
    obtain ⟨shared, hshared, rfl⟩ := of_map_eq_ok hstep
    rw [Receiver.step, h.still_open, if_neg Bool.false_ne_true, mrtAccept1Enqueue, hr] at hshared
    cases hshared
    simp [State.records, hr]
  | returned =>
    simp only [hposition] at hstep
    cases hstep
    exact ⟨rfl, rfl⟩

/-- Every section of the call that registers no sender again keeps the invariant. -/
theorem accepting_mrtAcceptAll {before : List Sender} {s s' : State} (h : Accepting before s)
    (hkeeps : ¬RegistersAgain s) (hstep : mrtAcceptAll s = .ok s') : Accepting before s' := by
  have hready := h.ready
  have horder : s'.records.Sublist s'.requests := by
    obtain ⟨hrecords, hrequests⟩ := records_mrtAcceptAll h hstep
    rw [hrecords, hrequests]
    exact h.in_order
  have hsleeps := (sleeps_of_ready hready hstep).trans h.never_slept
  unfold State.Ready at hready
  unfold mrtAcceptAll at hstep
  cases hposition : s.position with
  | peek =>
    simp only [hposition, h.still_open, Bool.false_eq_true, if_false] at hready hstep
    cases hstep
    refine ⟨h.still_open, h.not_closing, ?_, hsleeps, h.listed, h.once, horder, h.connected⟩
    unfold State.Ready
    by_cases hqueue : s.shared.pendingSendersQ = []
    · simp only [if_pos hqueue]
      exact hready
    · simp only [if_neg hqueue]
      exact ⟨hready, hqueue⟩
  | dequeue =>
    simp only [hposition] at hready hstep
    obtain ⟨hnone, hqueue⟩ := hready
    obtain ⟨r, queue, hqueue⟩ := List.exists_cons_of_ne_nil hqueue
    obtain ⟨shared, hshared, rfl⟩ := of_map_eq_ok hstep
    rw [Receiver.step, h.still_open, if_neg Bool.false_ne_true, mrtAccept1Dequeue,
      hqueue] at hshared
    cases hshared
    simp only [hqueue, deqQ] at horder hsleeps ⊢
    refine ⟨h.still_open, h.not_closing, ⟨r, ?_⟩, hsleeps, h.listed, h.once, horder, h.connected⟩
    simp [hnone]
  | enqueue =>
    simp only [hposition] at hready hstep
    obtain ⟨r, hr⟩ := hready
    have hnew : r.addr ∉ addresses s.moved := by
      intro hmem
      exact hkeeps ⟨hposition, r, by simp [hr], hmem⟩
    obtain ⟨shared, hshared, rfl⟩ := of_map_eq_ok hstep
    rw [Receiver.step, h.still_open, if_neg Bool.false_ne_true, mrtAccept1Enqueue, hr] at hshared
    cases hshared
    refine ⟨h.still_open, h.not_closing, rfl, hsleeps, ?_, ?_, horder, ?_⟩
    · simp [hr, h.listed, Receiver.addresses]
    · have honce : (addresses s.moved ++ [r.addr]).Nodup := by
        refine List.nodup_append.mpr ⟨h.once, by simp, fun id hid id' hid' heq => hnew ?_⟩
        rwa [← List.mem_singleton.mp hid', ← heq]
      simpa [hr, Receiver.addresses] using honce
    · have hconnected := h.connected
      simp only [Receiver.addresses] at hconnected
      simp [hr, hconnected, Receiver.addresses, enqQ]
  | returned =>
    simp only [hposition] at hstep
    cases hstep
    exact h

/-- A request of a sender that is not connected is withdrawn. -/
theorem step_withdrawn {s : Receiver.State} {addr : SockaddrIn} {dg : Datagram}
    (hopen : s.closed = false) (hclose : s.shouldClose = false)
    (htype : dispatchedType s dg = some mrtRcls) (hrecord : s.record addr = none) :
    Receiver.step s (.mainHandler addr dg) = .ok { s.store dg with
      pendingSendersQ := popItemQ s.pendingSendersQ (senderMatcher addr) } := by
  have hrcls : handleRcls (s.store dg) addr = { s.store dg with
      pendingSendersQ := popItemQ s.pendingSendersQ (senderMatcher addr) } := by
    have hnone : (s.store dg).record addr = none := hrecord
    rw [handleRcls, hnone]
    rfl
  unfold dispatchedType at htype
  simp only [Option.ite_none_right_eq_some, Option.some.injEq] at htype
  obtain ⟨hvalid, htype⟩ := htype
  rw [Receiver.step, if_neg (by simp [hopen]), mainHandler, if_neg (by simp [hclose])]
  dsimp only
  rw [if_pos hvalid, htype, if_neg (by decide), if_neg (by decide), if_pos rfl]
  exact congrArg Except.ok hrcls

/-- Withdrawing the only request between the look and the taking makes the call sleep. -/
theorem sleeps_of_withdrawn {before : List Sender} {s : State} {addr : SockaddrIn}
    {dg : Datagram} (h : Accepting before s) (hposition : s.position = .dequeue)
    (hwithdraws : WithdrawsOnly s.shared addr dg) :
    ∃ s', step s (.mainHandler addr dg) = .ok s' ∧ ¬AcceptsExactly before s' := by
  obtain ⟨htype, hrecord, honly⟩ := hwithdraws
  have hready := h.ready
  simp only [State.Ready, hposition] at hready
  have hempty := (popItemQ_eq_nil_iff hready.2 addr).mpr honly
  have hshared := step_withdrawn h.still_open h.not_closing htype
    (Option.isNone_iff_eq_none.mp hrecord)
  rw [hempty] at hshared
  refine ⟨_, by rw [step, hshared]; rfl, fun hexact => ?_⟩
  have hsleeps := hexact.never_sleeps _ (by
    rw [step, mrtAcceptAll]
    simp only [hposition, Receiver.step, State.store_closed, h.still_open]
    rfl)
  simp [mrtAccept1Dequeue, deqQ] at hsleeps

/-- Registering a sender again lists it twice, as the call appends every address
that it moves. -/
theorem listed_twice {before : List Sender} {s : State} (h : Accepting before s)
    (hagain : RegistersAgain s) :
    ∃ s', step s .mrtAcceptAll = .ok s' ∧ ¬AcceptsExactly before s' := by
  obtain ⟨hposition, r, hr, hmem⟩ := hagain
  have hready := h.ready
  simp only [State.Ready, hposition] at hready
  obtain ⟨r', haccepting⟩ := hready
  rw [haccepting, List.mem_singleton] at hr
  subst hr
  have hstep : ∃ shared, Receiver.step s.shared (.mrtAccept1Enqueue 0) = .ok shared := by
    rw [Receiver.step, h.still_open, if_neg Bool.false_ne_true]
    exact ⟨_, rfl⟩
  obtain ⟨shared, hshared⟩ := hstep
  refine ⟨_, by rw [step, mrtAcceptAll]; simp only [hposition, hshared]; rfl, fun hexact => ?_⟩
  have honce := hexact.once
  simp only [haccepting, h.listed] at honce
  exact (List.nodup_append.mp honce).2.2 _ hmem _ (by simp [Receiver.addresses]) rfl

/-- No sender has two records among those that the call has moved, holds or may still take. -/
def State.OneRecordEach (s : State) : Prop := (addresses s.records).Nodup

/-- Then `mrt_accept1` registers no sender again, since the record it holds is of a sender that
it has not moved. -/
theorem not_registersAgain {s : State} (h : s.OneRecordEach) : ¬RegistersAgain s := by
  rintro ⟨-, r, hr, hmem⟩
  rw [State.OneRecordEach, State.records, Receiver.addresses, List.map_append] at h
  refine (List.nodup_append.mp h).2.2 r.addr hmem r.addr ?_ rfl
  exact List.mem_map_of_mem (List.mem_append_left _ hr)

/-- A datagram makes a second record only for the sender that is held. -/
theorem oneRecordEach_mainHandler {before : List Sender} {s s' : State} {addr : SockaddrIn}
    {dg : Datagram} (h : Accepting before s) (hone : s.OneRecordEach)
    (hkeeps : ¬RepeatsHeld s.shared addr dg) (hstep : step s (.mainHandler addr dg) = .ok s') :
    s'.OneRecordEach := by
  obtain ⟨shared, hshared, rfl⟩ := of_map_eq_ok hstep
  have hhandled := handled_of_step h.not_closing hshared
  unfold State.OneRecordEach State.records at hone ⊢
  simp only [hhandled.accepting_eq]
  rcases hhandled.pending with hsame | ⟨r, hnew⟩ | ⟨-, -, hpop⟩
  · rwa [hsame]
  · have hmoved : addr ∉ addresses s.moved := by
      intro hmem
      refine hnew.notConnected ?_
      rw [h.connected]
      exact List.mem_append_right _ hmem
    have hheld : addr ∉ addresses s.shared.accepting :=
      fun hmem => hkeeps ⟨hnew.isRequest, hmem⟩
    have hfresh : addr ∉ addresses s.records := by
      unfold State.records
      have hpending := hnew.notPending
      simp only [Receiver.addresses, List.map_append, List.mem_append] at hmoved hheld hpending ⊢
      tauto
    rw [hnew.queue_eq, ← List.append_assoc, ← List.append_assoc, Receiver.addresses,
      List.map_append, List.map_singleton, hnew.addr_eq, List.append_assoc s.moved]
    exact List.nodup_append.mpr ⟨hone, List.pairwise_singleton _ addr, fun id hid id' hid' heq =>
      hfresh (List.mem_singleton.mp hid' ▸ heq ▸ hid)⟩
  · have hsub : (popItemQ s.shared.pendingSendersQ (senderMatcher addr)).Sublist
        s.shared.pendingSendersQ := List.eraseP_sublist
    rw [hpop]
    exact hone.sublist (((hsub.append_left _).append_left _).map Sender.addr)

/-- The invariant when no sender has two records. -/
structure AcceptingOnce (before : List Sender) (s : State) : Prop where
  accepting : Accepting before s
  oneRecord : s.OneRecordEach

/-- It is kept as long as `main_handler` leaves the call its requests. -/
theorem acceptingOnce_step {before : List Sender} {s s' : State} {act : Action}
    (h : AcceptingOnce before s) (hleaves : LeavesRequests s act) (hstep : step s act = .ok s') :
    AcceptingOnce before s' := by
  obtain ⟨h, hone⟩ := h
  cases act with
  | mainHandler addr dg =>
    exact ⟨accepting_mainHandler h hleaves.1 hstep,
      oneRecordEach_mainHandler h hone hleaves.2 hstep⟩
  | mrtAcceptAll =>
    refine ⟨accepting_mrtAcceptAll h (not_registersAgain hone) hstep, ?_⟩
    rw [State.OneRecordEach, (records_mrtAcceptAll h hstep).1]
    exact hone

/-- The call accepts exactly what it should without waiting in exactly the runs in which the
only pending request is never withdrawn between its look and its taking and no sender is
registered twice. For the latter it is enough that no sender was pending twice and that none
repeats its request while `mrt_accept1` holds its record. -/
theorem acceptsExactly_iff {shared : Receiver.State} (hopen : shared.closed = false)
    (hclose : shared.shouldClose = false) (haccepting : shared.accepting = [])
    (acts : List Action) :
    (Always step (fun _ s' => AcceptsExactly shared.connectedSendersQ s') (start shared) acts ↔
      Meets step OneRequestEach (start shared) acts) ∧
    ((addresses shared.pendingSendersQ).Nodup → Meets step LeavesRequests (start shared) acts →
      Always step (fun _ s' => AcceptsExactly shared.connectedSendersQ s') (start shared) acts) := by
  have hstep : ∀ s act s', Accepting shared.connectedSendersQ s → OneRequestEach s act →
      step s act = .ok s' → Accepting shared.connectedSendersQ s' := by
    intro s act s' h hkeeps hstep
    cases act with
    | mainHandler addr dg => exact accepting_mainHandler h hkeeps hstep
    | mrtAcceptAll => exact accepting_mrtAcceptAll h hkeeps hstep
  have hstart : Accepting shared.connectedSendersQ (start shared) := by
    refine ⟨hopen, hclose, haccepting, rfl, rfl, List.nodup_nil, ?_, (List.append_nil _).symm⟩
    simp [start, haccepting]
  refine ⟨?_, fun hnodup hmeets => ?_⟩
  · refine always_iff_meets (Accepting shared.connectedSendersQ)
      (fun s act s' h hkeeps hs' => ?_) (fun s act h hbroken => ?_) hstart
    · have hnext := hstep s act s' h hkeeps hs'
      exact ⟨hnext.acceptsExactly, hnext⟩
    · cases act with
      | mainHandler addr dg =>
        obtain ⟨hposition, hwithdraws⟩ := Classical.not_imp.mp hbroken
        exact sleeps_of_withdrawn h hposition (not_not.mp hwithdraws)
      | mrtAcceptAll => exact listed_twice h (not_not.mp hbroken)
  · have hone : (start shared).OneRecordEach := by
      simpa [State.OneRecordEach, State.records, start, haccepting] using hnodup
    have honce := AcceptingOnce.mk hstart hone
    refine always_of_meets (fun s act s' h hleaves hs' => ?_) honce hmeets
    have hnext := acceptingOnce_step h hleaves hs'
    exact ⟨hnext.accepting.acceptsExactly, hnext⟩

/-- The receiver with a pending request, before `mrt_accept_all` is called. -/
def requested : Receiver.State :=
  { Receiver.initial with pendingSendersQ := [newSender (loopback 0x9210) 0] }

/-- The request is accepted although its sender repeats it meanwhile, and so is the one that
another sender makes while `mrt_accept1` holds the first. -/
theorem acceptsExactly_repeated :
    Always step (fun _ s' => AcceptsExactly requested.connectedSendersQ s') (start requested)
      [.mrtAcceptAll, .mainHandler (loopback 0x9210) rconDatagram, .mrtAcceptAll,
        .mrtAcceptAll, .mrtAcceptAll] ∧
      Always step (fun _ s' => AcceptsExactly requested.connectedSendersQ s') (start requested)
        [.mrtAcceptAll, .mrtAcceptAll, .mainHandler (loopback 0x9211) rconDatagram,
          .mrtAcceptAll, .mrtAcceptAll, .mrtAcceptAll, .mrtAcceptAll, .mrtAcceptAll] :=
  ⟨(acceptsExactly_iff rfl rfl rfl _).1.mpr (by decide +kernel),
    (acceptsExactly_iff rfl rfl rfl _).2 (by decide) (by decide +kernel)⟩

/-- A request that is withdrawn after the look makes the call sleep, and one that is repeated
before `mrt_accept1` registers it lists its sender twice. -/
theorem acceptsExactly_fails :
    (¬Always step (fun _ s' => AcceptsExactly requested.connectedSendersQ s') (start requested)
      [.mrtAcceptAll, .mainHandler (loopback 0x9210) rclsDatagram, .mrtAcceptAll]) ∧
      ¬Always step (fun _ s' => AcceptsExactly requested.connectedSendersQ s') (start requested)
        [.mrtAcceptAll, .mrtAcceptAll, .mainHandler (loopback 0x9210) rconDatagram,
          .mrtAcceptAll, .mrtAcceptAll, .mrtAcceptAll, .mrtAcceptAll] := by
  have hsleeps : someStep step (fun _ s' => decide (s'.sleeps ≠ 0)) (start requested)
      [.mrtAcceptAll, .mainHandler (loopback 0x9210) rclsDatagram, .mrtAcceptAll] = true := by
    decide +kernel
  have htwice : someStep step (fun _ s' => decide (¬s'.acceptedQ.Nodup)) (start requested)
      [.mrtAcceptAll, .mrtAcceptAll, .mainHandler (loopback 0x9210) rconDatagram,
        .mrtAcceptAll, .mrtAcceptAll, .mrtAcceptAll, .mrtAcceptAll] = true := by
    decide +kernel
  constructor
  · refine not_always_of_someStep (fun s s' htest hexact => ?_) hsleeps
    exact of_decide_eq_true htest hexact.never_slept
  · refine not_always_of_someStep (fun s s' htest hexact => ?_) htwice
    exact of_decide_eq_true htest hexact.once

end NetworkLabs.Mrt.AcceptAll
