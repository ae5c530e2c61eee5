import NetworkLabs.Foundations.Reach
import NetworkLabs.Mrt.Established
import NetworkLabs.Mrt.Reliability
import NetworkLabs.Mrt.Retransmission
import NetworkLabs.Mrt.Sessions

/-!
# Connections in use

An established connection stays registered and keeps its threads until a `checker` flags it,
and the receiver has a record for it. While its threads carry data, with no `checker` ticking,
nothing of this is lost: the calls stay where they are, and the numbers that the two sides
know and the window never fall.
-/

namespace NetworkLabs.Mrt

open Foundations

namespace Sender

/-- Only a connection that is flagged to close is removed, and only then its threads end. -/
structure Usable (s : State) : Prop where
  steady : Steady s
  unregistered : s.registered = false → s.conn.shouldClose = true
  handler_ended : s.handlerThread = .ended → s.conn.shouldClose = true
  thread_ended : ∀ (i : ℕ) (resendTime : ℤ),
    s.senderThreads[i]? = some ⟨.ended, resendTime⟩ → s.conn.shouldClose = true
  checker_ended : .ended ∈ s.checkerThreads → s.conn.shouldClose = true

/-- A connection that is initialized is usable, and nothing is started yet. -/
theorem usable_initial : Usable initial :=
  ⟨steady_initial, (fun h => by cases h), (fun h => by cases h), (fun _ _ h => by cases h),
    fun h => by cases h⟩

/-- A thread that did not change to its end was there before. -/
theorem ended_of_set {threads : List SenderThread} {j i : ℕ} {position : SenderPosition}
    {time resendTime : ℤ} (hposition : position ≠ .ended)
    (h : (threads.set j ⟨position, time⟩)[i]? = some ⟨.ended, resendTime⟩) :
    threads[i]? = some ⟨.ended, resendTime⟩ := by
  rw [List.getElem?_set] at h
  split at h
  · split at h
    · cases h
      exact absurd rfl hposition
    · cases h
  · exact h

/-- A `sender` thread ends only when the flag is set. -/
theorem ended_of_sender {s s' : State} {j : ℕ} (hstep : step s (.sender j) = .ok s')
    (hopen : s.conn.shouldClose = false) {i : ℕ} {resendTime : ℤ}
    (hended : s'.senderThreads[i]? = some ⟨.ended, resendTime⟩) :
    s.senderThreads[i]? = some ⟨.ended, resendTime⟩ := by
  rw [step, sender] at hstep
  split at hstep
  · cases hstep
    exact hended
  · obtain ⟨-, hnext⟩ := of_useConnection hstep
    cases hnext
    rw [State.setSender_senderThreads, hopen] at hended
    exact ended_of_set SenderPosition.noConfusion hended
  · obtain ⟨-, rfl | ⟨-, hnext⟩⟩ := of_lockReceiver hstep
    · exact hended
    · split at hnext
      · cases hnext
        unfold senderWait at hended
        split at hended
        · split at hended <;> exact ended_of_set SenderPosition.noConfusion hended
        · exact ended_of_set SenderPosition.noConfusion hended
      · obtain ⟨-, rfl⟩ := of_senderSendPayload hnext
        exact ended_of_set SenderPosition.noConfusion hended
  · obtain ⟨-, hnext⟩ := of_useConnection hstep
    cases hnext
    exact ended_of_set SenderPosition.noConfusion hended
  · cases hstep
    exact hended

/-- `handler` does not return from the dispatch. -/
theorem dispatch_ne_ended (incoming : Memory Byte) : dispatch incoming ≠ .ended := by
  unfold dispatch
  split
  · split
    · exact HandlerThread.noConfusion
    · split
      · exact HandlerThread.noConfusion
      · split <;> exact HandlerThread.noConfusion
  · exact HandlerThread.noConfusion

/-- Every step keeps a connection usable. Only a flagged connection is removed and freed. -/
theorem usable_step {s s' : State} {act : Action} (h : Usable s) (hstep : step s act = .ok s') :
    Usable s' := by
  have hsteady := steady_step h.steady hstep
  cases effect_of_step hstep with
  | idle => exact h
  | senderMoved _ _ | reset _ _ | sentPayload _ _ _ _ | sentEmpty _ _ =>
    refine ⟨hsteady, h.unregistered, h.handler_ended, fun i resendTime hended => ?_,
      h.checker_ended⟩
    by_contra hopen
    exact hopen (h.thread_ended i resendTime
      (ended_of_sender hstep (Bool.eq_false_iff.mpr hopen) hended))
  | ticked hth =>
    refine ⟨hsteady, h.unregistered, h.handler_ended, h.thread_ended, fun hended => ?_⟩
    rcases List.mem_or_eq_of_mem_set hended with hold | hnew
    · exact h.checker_ended hold
    · split at hnew <;> cases hnew
  | flagged _ => exact ⟨hsteady, fun _ => rfl, fun _ => rfl, fun _ _ _ => rfl, fun _ => rfl⟩
  | freed hthread =>
    have hclose := h.steady.flagged (.inr hthread)
    exact ⟨hsteady, fun _ => hclose, fun _ => hclose, fun _ _ _ => hclose, fun _ => hclose⟩
  | dispatched hthread hclose =>
    exact ⟨hsteady, h.unregistered, fun hended => absurd hended (dispatch_ne_ended _),
      h.thread_ended, h.checker_ended⟩
  | connected hthread hfirst =>
    refine ⟨hsteady, h.unregistered, HandlerThread.noConfusion, fun i resendTime hended => ?_,
      fun hended => ?_⟩
    · rcases List.mem_append.mp (List.mem_of_getElem? hended) with hold | hnew
      · obtain ⟨k, hk⟩ := List.mem_iff_getElem?.mp hold
        exact h.thread_ended k resendTime hk
      · cases List.mem_singleton.mp hnew
    · rcases List.mem_append.mp hended with hold | hnew
      · exact h.checker_ended hold
      · cases List.mem_singleton.mp hnew
  | acknowledged hthread hdifference =>
    refine ⟨hsteady, h.unregistered, fun hended => ?_, h.thread_ended, h.checker_ended⟩
    dsimp only at hended
    split at hended <;> cases hended
  | received _ | closing _ _ | reconnected _ _ | refreshed _ | outdated _ _ | shifted _ _
  | closedByPeer _ =>
    exact ⟨hsteady, h.unregistered, HandlerThread.noConfusion, h.thread_ended, h.checker_ended⟩
  | _ => exact ⟨hsteady, h.unregistered, h.handler_ended, h.thread_ended, h.checker_ended⟩

/-- Only a `checker` sets the flag. An `ACLS` or a call of `mrt_disconnect` sets the counter,
which the next tick finds. -/
theorem shouldClose_step {s s' : State} {act : Action} (hact : ∀ i, act ≠ .checker i)
    (hstep : step s act = .ok s') : s'.conn.shouldClose = s.conn.shouldClose := by
  cases effect_of_step hstep with
  | flagged _ => exact absurd rfl (hact _)
  | _ => rfl

end Sender

open Sender (State)

variable {s s' : State} {g : Transfer}

/-- An established connection stays established, as the number of what is acknowledged never
goes back. -/
theorem lastAcknowledgedFrag_step (h : SenderRefines s g) (hsound : GoBackN.Sound g)
    {act : Sender.Action} (hstep : Sender.step s act = .ok s')
    (hestablished : s.conn.lastAcknowledgedFrag ≠ -1) : s'.conn.lastAcknowledgedFrag ≠ -1 := by
  cases Sender.effect_of_step hstep with
  | connected hthread hfirst => exact absurd hfirst hestablished
  | acknowledged hthread hdifference =>
    obtain ⟨n, hn, hfrag, -, -⟩ := h.fragDifference_eq hsound hthread
    intro hminus
    have hnegative : (n : ℤ) = -1 := hfrag.symm.trans hminus
    omega
  | _ => exact hestablished

/-- No `ADAT` of the receiver confuses the flag, as it is sent to a connected sender and names a
fragment of it. -/
theorem keepsFlag (h : SenderRefines s g) (hsound : GoBackN.Sound g) (act : Sender.Action) :
    Sender.OnHandler Sender.KeepsFlag s act := by
  cases act with
  | handler =>
    cases hthread : s.handlerThread with
    | adatAck frag window =>
      obtain ⟨n, hn, hfrag, -, -⟩ := h.fragDifference_eq hsound hthread
      have hack := (h.connected_of_ack hn).acknowledged
      simp only [Sender.OnHandler, hthread, Sender.KeepsFlag, Sender.Connection.FlagKept]
      omega
    | _ =>
      rw [Sender.OnHandler, hthread]
      trivial
  | _ => trivial

/-- Without an overflow an `ADAT` does not lower the acknowledged number. -/
theorem lastAcknowledgedFrag_le (h : SenderRefines s g) (hsound : GoBackN.Sound g)
    {act : Sender.Action} (hstep : Sender.step s act = .ok s')
    (hestablished : s.conn.lastAcknowledgedFrag ≠ -1) :
    s.conn.lastAcknowledgedFrag ≤ s'.conn.lastAcknowledgedFrag := by
  cases Sender.effect_of_step hstep with
  | connected hthread hfirst => exact absurd hfirst hestablished
  | acknowledged hthread hdifference =>
    obtain ⟨n, hn, hfrag, hahead, -⟩ := h.fragDifference_eq hsound hthread
    have hack := (h.connected_of_ack hn).acknowledged
    dsimp only
    omega
  | _ => exact Int.le_refl _

/-- No step lowers the window that `sender` obeys. `handler` only raises it. -/
theorem receiverWindowSize_le {act : Sender.Action} (hstep : Sender.step s act = .ok s') :
    s.conn.receiverWindowSize ≤ s'.conn.receiverWindowSize := by
  cases Sender.effect_of_step hstep with
  | acknowledged hthread hdifference =>
    dsimp only
    split <;> omega
  | _ => exact Int.le_refl _

namespace Network

/-- What a sender program sends never makes `main_handler` copy a negative length. -/
theorem noShortExpectedData_of_delivers {w : World} (h : NetworkHolds w) {act : Receiver.Action}
    (hdelivers : w.Delivers act) : Receiver.NoShortExpectedData w.receiver act := by
  cases act with
  | mainHandler addr dg =>
    intro htype hexpected
    obtain ⟨g, hg⟩ := h.refines addr
    cases hg.sender.outbox dg hdelivers with
    | rcon => cases (dispatchedType_rcon w.receiver).symm.trans htype
    | rcls => cases (dispatchedType_rcls w.receiver).symm.trans htype
    | dataEmpty =>
      rw [dispatchedFrag_dataEmpty] at hexpected
      obtain ⟨r, hrecord, hfrag⟩ := Option.map_eq_some_iff.mp hexpected
      have hnumber := hg.receiver.expected r hrecord
      omega
    | @data i payload stale hdata hstale hpayload =>
      have hstored : Receiver.stored (dataDatagram (i + 1) stale payload) =
          dataDatagram (i + 1) stale payload := by
        apply stored_header
        simp only [List.length_append, length_intBytes]
        omega
      rw [hstored]
      simp only [dataDatagram, List.length_append, length_header, length_intBytes]
      show (20 : ℕ) ≤ _
      omega
  | _ => trivial

/-- All connections of a run with one session for each address. -/
structure ConnectionsHold (w : World) : Prop where
  reliable : ReliabilityHolds w
  sessions : SessionsHold w
  usable : ∀ addr, Sender.Usable (w.senders addr)
  threads : ∀ addr, Sender.ThreadsMatch (w.senders addr)
  first : ∀ addr, w.sentBefore addr = 0
  /-- The receiver has accepted an established connection. -/
  known : ∀ addr, (w.senders addr).conn.lastAcknowledgedFrag ≠ -1 → (w.receiver.view addr).Known

/-- No connection is established initially, and nothing is required of the others. -/
theorem connectionsHold_initial : ConnectionsHold initial :=
  ⟨reliabilityHolds_initial, sessionsHold_initial, fun _ => Sender.usable_initial,
    fun _ => Sender.threadsMatch_initial, fun _ => rfl,
    fun _ hestablished => absurd rfl hestablished⟩

/-- Every step of the reliable use keeps the invariant of the connections. -/
theorem connectionsHold_step {w w' : World} {act : Action} (h : ConnectionsHold w)
    (huse : ReliableUse w act) (hconnected : OnSender (Sender.OnSend Sender.SendsConnected) w act)
    (hstep : step w act = .ok w') : ConnectionsHold w' := by
  have hfew : FewFragments w act := by
    cases act with
    | sender addr act => exact huse
    | _ => trivial
  have hfresh : FreshSession w act := by
    cases act with
    | reopen addr => exact huse.elim
    | _ => trivial
  have hsender : ∀ addr, Sender.Usable (w'.senders addr) ∧ Sender.ThreadsMatch (w'.senders addr) ∧
      ((w'.senders addr).conn.lastAcknowledgedFrag ≠ -1 → (w'.receiver.view addr).Known) := by
    intro addr
    obtain ⟨g, hg⟩ := h.reliable.network.refines addr
    have hchange := senderChange_of_step hstep addr
    generalize w'.senders addr = s' at hchange ⊢
    cases hchange with
    | kept =>
      exact ⟨h.usable addr, h.threads addr, fun hold => known_of_step (h.known addr hold) hstep⟩
    | @stepped act s' hreturns hsub =>
      refine ⟨Sender.usable_step (h.usable addr) hsub, Sender.threadsMatch_step (h.threads addr)
        (keepsFlag hg.sender hg.reachable.sound act) hsub, fun hestablished => ?_⟩
      by_cases hold : (w.senders addr).conn.lastAcknowledgedFrag = -1
      · have hbusy := handlerThread_of_ack_ne hsub (by rwa [hold])
        exact known_of_step (h.sessions.known addr hbusy) hstep
      · exact known_of_step (h.known addr hold) hstep
    | reopened hended => exact huse.elim
  refine ⟨reliabilityHolds_step h.reliable huse hconnected hstep,
    sessionsHold_step h.sessions hfew hfresh hstep, fun addr => (hsender addr).1,
    fun addr => (hsender addr).2.1, fun addr => ?_, fun addr => (hsender addr).2.2⟩
  cases effect_of_step hstep with
  | reopened hended => exact huse.elim
  | _ => exact h.first addr

/-- The connection of an address is not flagged to close. -/
structure Open (w : World) (addr : SockaddrIn) : Prop where
  holds : ConnectionsHold w
  unflagged : (w.senders addr).conn.shouldClose = false

/-- It is established, too, so that its threads run and it can carry data. -/
structure InUse (w : World) (addr : SockaddrIn) : Prop extends Open w addr where
  established : (w.senders addr).conn.lastAcknowledgedFrag ≠ -1

section InUse

variable {w w' : World} {addr : SockaddrIn}

/-- A connection that is not flagged is not freed. -/
theorem Open.live (h : Open w addr) : (w.senders addr).live = true := by
  by_contra hfreed
  have hclose := (h.holds.usable addr).steady.flagged (.inl (Bool.eq_false_iff.mpr hfreed))
  rw [h.unflagged] at hclose
  cases hclose

/-- It is registered, so that calls of the user find it. -/
theorem Open.registered (h : Open w addr) : (w.senders addr).registered = true := by
  by_contra hremoved
  have hclose := (h.holds.usable addr).unregistered (Bool.eq_false_iff.mpr hremoved)
  rw [h.unflagged] at hclose
  cases hclose

/-- A step in which no `checker` of the connection runs does not flag it. -/
theorem Open.kept {act : Action} (h : Open w addr) (huse : ReliableUse w act)
    (hconnected : OnSender (Sender.OnSend Sender.SendsConnected) w act)
    (hact : ∀ i, act ≠ .sender addr (.checker i)) (hstep : step w act = .ok w') :
    Open w' addr := by
  refine ⟨connectionsHold_step h.holds huse hconnected hstep, ?_⟩
  have hchange := senderChange_of_step hstep addr
  generalize w'.senders addr = s' at hchange ⊢
  cases hchange with
  | kept => exact h.unflagged
  | stepped hreturns hsub =>
    rw [Sender.shouldClose_step (fun i hi => hact i (congrArg _ hi)) hsub]
    exact h.unflagged
  | reopened hended => exact huse.elim

/-- The receiver has a record for a connection in use. -/
theorem InUse.record (h : InUse w addr) : ∃ r, w.receiver.record addr = some r ∧ r.Fits := by
  have hclosed := Bool.eq_false_iff.mp h.holds.reliable.isOpen.closed_eq
  have hknown := (h.holds.known addr h.established).resolve_right hclosed
  obtain ⟨r, hr⟩ := Option.ne_none_iff_exists'.mp hknown
  exact ⟨r, hr, h.holds.reliable.isOpen.fit r (Receiver.mem_records_of_record hr)⟩

/-- Its first `sender` thread has not ended, as it ends only when the connection is flagged. -/
theorem InUse.thread (h : InUse w addr) :
    ∃ th, (w.senders addr).senderThreads[0]? = some th ∧ th.position ≠ .ended := by
  obtain ⟨hstarted, -⟩ := (h.holds.threads addr).started_iff.mp h.established
  obtain ⟨th, rest, hthreads⟩ := List.exists_cons_of_ne_nil hstarted
  refine ⟨th, by simp [hthreads], fun hended => ?_⟩
  have hclose := (h.holds.usable addr).thread_ended 0 th.resendTime (by
    rw [hthreads, ← hended]
    rfl)
  rw [h.unflagged] at hclose
  cases hclose

/-- It is a connected state of Go-Back-N, so that all is known of it that the abstract protocol
keeps. -/
theorem InUse.refines (h : InUse w addr) :
    ∃ g, Refines w addr g ∧ Connected (w.senders addr) g := by
  obtain ⟨g, hg⟩ := h.holds.reliable.network.refines addr
  obtain ⟨th, hth, -⟩ := h.thread
  exact ⟨g, hg, hg.sender.connected_of_thread ⟨th, hth⟩⟩

/-- A step in which no `checker` of the connection runs leaves it in use. -/
theorem InUse.kept {act : Action} (h : InUse w addr) (huse : ReliableUse w act)
    (hconnected : OnSender (Sender.OnSend Sender.SendsConnected) w act)
    (hact : ∀ i, act ≠ .sender addr (.checker i)) (hstep : step w act = .ok w') :
    InUse w' addr := by
  refine ⟨h.toOpen.kept huse hconnected hact hstep, ?_⟩
  obtain ⟨g, hg⟩ := h.holds.reliable.network.refines addr
  have hchange := senderChange_of_step hstep addr
  generalize w'.senders addr = s' at hchange ⊢
  cases hchange with
  | kept => exact h.established
  | stepped hreturns hsub =>
    exact lastAcknowledgedFrag_step hg.sender hg.reachable.sound hsub h.established
  | reopened hended => exact huse.elim

end InUse

/-- The sections that carry data over the connection of an address: of its `handler` and
its `sender`, of `main_handler` for its datagrams, and of calls of `mrt_receive1` for it. -/
def Carries (addr : SockaddrIn) : Action → Prop
  | .receiver (.mainHandler id _) => id = addr
  | .receiver (.mrtReceive1 id len) => id = addr ∧ 0 ≤ len
  | .sender id (.handlerRecvfrom _) | .sender id .handler | .sender id (.sender _) => id = addr
  | _ => False

/-- What carrying data does not take back: what was submitted, buffered, delivered and
acknowledged, and the window. -/
structure Forward (addr : SockaddrIn) (w w' : World) : Prop where
  call : (w'.senders addr).sendCall = (w.senders addr).sendCall
  submitted : (w'.senders addr).submitted = (w.senders addr).submitted
  fragments : (w'.senders addr).bufferedFragments = (w.senders addr).bufferedFragments
  delivered : (w.receiver.bufferedPayloads addr).length ≤ (w'.receiver.bufferedPayloads addr).length
  acknowledged : (w.senders addr).conn.lastAcknowledgedFrag ≤
    (w'.senders addr).conn.lastAcknowledgedFrag
  window : (w.senders addr).conn.receiverWindowSize ≤ (w'.senders addr).conn.receiverWindowSize

section Forward

variable {addr : SockaddrIn} {w w' w'' : World}

/-- Nothing is taken back at first. -/
theorem Forward.refl (addr : SockaddrIn) (w : World) : Forward addr w w :=
  ⟨rfl, rfl, rfl, Nat.le_refl _, Int.le_refl _, Int.le_refl _⟩

/-- And nothing later, whatever happens in between. -/
theorem Forward.trans (h : Forward addr w w') (h' : Forward addr w' w'') : Forward addr w w'' :=
  ⟨h'.call.trans h.call, h'.submitted.trans h.submitted, h'.fragments.trans h.fragments,
    Nat.le_trans h.delivered h'.delivered, Int.le_trans h.acknowledged h'.acknowledged,
    Int.le_trans h.window h'.window⟩

/-- The threads leave the call of `mrt_send` alone, and what it has submitted and buffered. -/
theorem sendCall_of_carries {act : Sender.Action} {s s' : Sender.State}
    (hact : Carries addr (.sender addr act)) (hstep : Sender.step s act = .ok s') :
    s'.sendCall = s.sendCall ∧ s'.submitted = s.submitted ∧
      s'.bufferedFragments = s.bufferedFragments := by
  cases Sender.effect_of_step hstep with
  | polled | requested | submitted _ | found _ | estimated _ _ | foundAgain _ | succeeded _ _ _
  | unacknowledged _ _ _ | buffered _ _ _ | full _ | disconnecting | disconnectMoved _ | sentRcls
  | requestedClose => exact hact.elim
  | _ => exact ⟨rfl, rfl, rfl⟩

/-- Carrying data is a reliable use, so that the invariants of reliable runs are kept by it. -/
theorem reliableUse_of_carries {act : Action} (hact : Carries addr act) (w : World) :
    ReliableUse w act ∧ OnSender (Sender.OnSend Sender.SendsConnected) w act := by
  cases act with
  | receiver act =>
    cases act with
    | mainHandler _ _ => exact ⟨trivial, trivial⟩
    | mrtReceive1 _ _ => exact ⟨hact.2, trivial⟩
    | _ => exact hact.elim
  | sender id act =>
    cases act with
    | handlerRecvfrom _ | handler | sender _ => exact ⟨trivial, trivial⟩
    | _ => exact hact.elim
  | reopen id => exact hact.elim

/-- Carrying data leaves the connection in use and takes nothing back. -/
theorem InUse.carries {act : Action} (h : InUse w addr) (hact : Carries addr act)
    (hstep : step w act = .ok w') : InUse w' addr ∧ Forward addr w w' := by
  obtain ⟨huse, hconnected⟩ := reliableUse_of_carries hact w
  refine ⟨h.kept huse hconnected (fun i hi => ?_) hstep, ?_⟩
  · subst hi
    exact hact
  · obtain ⟨g, hg, -⟩ := h.refines
    cases effect_of_step hstep with
    | idle => exact .refl addr w
    | receiver hdelivers hsub =>
      exact ⟨rfl, rfl, rfl, length_bufferedPayloads_le hsub addr, Int.le_refl _, Int.le_refl _⟩
    | @sender id act s' hreturns hsub =>
      have hid : id = addr := by
        cases act with
        | handlerRecvfrom _ | handler | sender _ => exact hact
        | _ => exact hact.elim
      subst hid
      obtain ⟨hcall, hsubmitted, hfragments⟩ := sendCall_of_carries hact hsub
      have hack := lastAcknowledgedFrag_le hg.sender hg.reachable.sound hsub h.established
      have hwindow := receiverWindowSize_le hsub
      refine ⟨?_, ?_, ?_, Nat.le_refl _, ?_, ?_⟩ <;> rw [setSender_self] <;> assumption
    | reopened hended => exact huse.elim

/-- What carrying data can reach, it can reach without taking anything back. -/
theorem InUse.canReach {goal : World → Prop} (h : InUse w addr)
    (hgoal : CanReach step (Carries addr) goal w) :
    CanReach step (Carries addr)
      (fun t => (InUse t addr ∧ Forward addr w t) ∧ goal t) w := by
  refine hgoal.keeping (fun t act t' ht hact hstep => ?_) ⟨h, .refl addr w⟩
  obtain ⟨huse, hforward⟩ := ht.1.carries hact hstep
  exact ⟨huse, ht.2.trans hforward⟩

end Forward

end Network

end NetworkLabs.Mrt
