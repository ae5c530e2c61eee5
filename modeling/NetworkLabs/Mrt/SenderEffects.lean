import NetworkLabs.Mrt.Codec
import NetworkLabs.Mrt.Sender

/-!
# What one critical section of a connection can do

`Effect` lists the outcomes of a section of the sender module together with the
position its thread or call is at and the tests that led to the outcome. Every
successful step is one of them.
-/

namespace NetworkLabs.Mrt.Sender

open Foundations

/-- A call of `mrt_send` can start: there was none, or the latest one has returned. -/
def SendCall.Finished : SendCall → Prop
  | .none | .returned _ => True
  | _ => False

/-- The outcomes of one critical section, with the conditions under which each of them
is taken. -/
inductive Effect (s : State) : Action → State → Prop
  /-- The section waits or there is nothing to do. -/
  | idle (act : Action) : Effect s act s
  /-- `mrt_connect` tests whether the connection is established. -/
  | polled :
      Effect s .mrtConnect { s with
        connectCall := if s.conn.lastAcknowledgedFrag ≠ -1 then .returned else .sendRcon }
  /-- `mrt_connect` sends an `RCON`. -/
  | requested :
      Effect s .mrtConnect
        { s.sendTo (buildRcon s.conn.outgoingBuffer) 16 with connectCall := .poll }
  /-- `mrt_send` is called. -/
  | submitted {args : SendArgs} (hcall : s.sendCall.Finished) :
      Effect s (.mrtSend args)
        { s with sendCall := .firstLookup args, submitted := s.submitted ++ [args.bytes] }
  /-- `mrt_send` looks the connection up. -/
  | found {args : SendArgs} (hcall : s.sendCall = .firstLookup args) :
      Effect s .mrtSendContinue { s with
        sendCall := if s.registered then .lastBuffered args else .returned (-1) }
  /-- `mrt_send` computes the number of its final fragment. -/
  | estimated {args : SendArgs} (hcall : s.sendCall = .lastBuffered args)
      (hlock : s.receiverLockHeld = false) :
      Effect s .mrtSendContinue
        { s with sendCall := .lookup args (s.conn.finalFrag args.len) 0 }
  /-- `mrt_send` looks the connection up again. -/
  | foundAgain {args : SendArgs} {finalFrag : ℤ} {copied : ℕ}
      (hcall : s.sendCall = .lookup args finalFrag copied) :
      Effect s .mrtSendContinue { s with
        sendCall := if s.registered then .ackCheck args finalFrag copied else .returned 0 }
  /-- `mrt_send` finds its final fragment acknowledged. -/
  | succeeded {args : SendArgs} {finalFrag : ℤ} {copied : ℕ}
      (hcall : s.sendCall = .ackCheck args finalFrag copied)
      (hlock : s.receiverLockHeld = false) (hack : finalFrag ≤ s.conn.lastAcknowledgedFrag) :
      Effect s .mrtSendContinue { s with sendCall := .returned 1 }
  /-- `mrt_send` finds its final fragment not yet acknowledged. -/
  | unacknowledged {args : SendArgs} {finalFrag : ℤ} {copied : ℕ}
      (hcall : s.sendCall = .ackCheck args finalFrag copied)
      (hlock : s.receiverLockHeld = false) (hack : s.conn.lastAcknowledgedFrag < finalFrag) :
      Effect s .mrtSendContinue { s with
        sendCall :=
          if copied < args.len then .copy args finalFrag copied
          else .lookup args finalFrag copied }
  /-- `mrt_send` copies a fragment into the buffer. -/
  | buffered {args : SendArgs} {finalFrag : ℤ} {copied : ℕ}
      (hcall : s.sendCall = .copy args finalFrag copied)
      (hspace : s.conn.lastPayloadIndex + 1 < maxPayloadsBufferable)
      (hbounds : Memory.InBounds (maxMrtPayloadLength * maxPayloadsBufferable)
        ((s.conn.lastPayloadIndex + 1) * maxMrtPayloadLength) (numBytesToCopy args.len copied)) :
      Effect s .mrtSendContinue { s with
        conn := s.conn.bufferPayload
          ((args.buffer.drop copied).take (numBytesToCopy args.len copied).toNat)
        sendCall := .lookup args finalFrag (copied + (numBytesToCopy args.len copied).toNat)
        bufferedFragments := s.bufferedFragments ++
          [(args.buffer.drop copied).take (numBytesToCopy args.len copied).toNat] }
  /-- `mrt_send` finds the buffer full. -/
  | full {args : SendArgs} {finalFrag : ℤ} {copied : ℕ}
      (hcall : s.sendCall = .copy args finalFrag copied) :
      Effect s .mrtSendContinue { s with sendCall := .lookup args finalFrag copied }
  /-- `mrt_disconnect` is called. -/
  | disconnecting :
      Effect s .mrtDisconnect { s with disconnectCalls := s.disconnectCalls ++ [.lookup] }
  /-- A call of `mrt_disconnect` continues. -/
  | disconnectMoved {i : ℕ} (call : DisconnectCall) :
      Effect s (.mrtDisconnectContinue i) (s.setDisconnect i call)
  /-- A call of `mrt_disconnect` sends an `RCLS`. -/
  | sentRcls {i : ℕ} :
      Effect s (.mrtDisconnectContinue i)
        ((s.setDisconnect i .setInactive).sendTo (buildRcls s.conn.outgoingBuffer) 12)
  /-- A call of `mrt_disconnect` sets the counter. -/
  | requestedClose {i : ℕ} :
      Effect s (.mrtDisconnectContinue i)
        { s.setDisconnect i .returned with
          conn := { s.conn with inactiveTime := closeTimeoutThreshold + 1 }
          closeRequested := true }
  /-- `handler` receives a datagram. -/
  | received {dg : Datagram} (hthread : s.handlerThread = .recvfrom) :
      Effect s (.handlerRecvfrom dg)
        { s with
          conn := { s.conn with
            incomingBuffer := receiveInto s.conn.incomingBuffer (dg.take mrtHeaderLength) }
          handlerThread := .closeCheck }
  /-- `handler` leaves its loop. -/
  | closing (hthread : s.handlerThread = .closeCheck) (hclose : s.conn.shouldClose = true) :
      Effect s .handler { s with handlerThread := .cleanUp }
  /-- `handler` dispatches on the type of the transmission. -/
  | dispatched (hthread : s.handlerThread = .closeCheck) (hclose : s.conn.shouldClose = false) :
      Effect s .handler { s with handlerThread := dispatch s.conn.incomingBuffer }
  /-- `handler` handles the first `ACON`. -/
  | connected (hthread : s.handlerThread = .acon) (hack : s.conn.lastAcknowledgedFrag = -1) :
      Effect s .handler
        { s with
          conn := { s.conn with lastAcknowledgedFrag := 0 }
          handlerThread := .recvfrom
          senderThreads := s.senderThreads ++ [⟨.closeCheck, 0⟩]
          checkerThreads := s.checkerThreads ++ [.tick] }
  /-- `handler` ignores another `ACON`. -/
  | reconnected (hthread : s.handlerThread = .acon) (hack : s.conn.lastAcknowledgedFrag ≠ -1) :
      Effect s .handler { s with handlerThread := .recvfrom }
  /-- `handler` resets the counter for an `ADAT`. -/
  | refreshed {frag window : ℤ} (hthread : s.handlerThread = .adatTimeout frag window) :
      Effect s .handler
        { s with
          conn := { s.conn with inactiveTime := 0 }
          handlerThread := .adatAck frag window }
  /-- `handler` ignores an outdated `ADAT`. -/
  | outdated {frag window : ℤ} (hthread : s.handlerThread = .adatAck frag window)
      (hdifference : s.conn.fragDifference frag < 0) :
      Effect s .handler
        { s with
          handlerThread := .recvfrom
          latestWindow :=
            if s.conn.lastAcknowledgedFrag ≤ frag then window else s.latestWindow }
  /-- `handler` updates the number and the window for an `ADAT`. -/
  | acknowledged {frag window : ℤ} (hthread : s.handlerThread = .adatAck frag window)
      (hdifference : 0 ≤ s.conn.fragDifference frag) :
      Effect s .handler
        { s with
          conn := { s.conn with
            lastAcknowledgedFrag := frag
            receiverWindowSize :=
              if s.conn.receiverWindowSize < window then window else s.conn.receiverWindowSize }
          handlerThread :=
            if 0 < s.conn.fragDifference frag then .adatShift (s.conn.fragDifference frag)
            else .recvfrom
          latestWindow :=
            if s.conn.lastAcknowledgedFrag ≤ frag then window else s.latestWindow }
  /-- `handler` shifts the buffer for an `ADAT`. -/
  | shifted {fragDifference : ℤ} (hthread : s.handlerThread = .adatShift fragDifference)
      (hbounds : s.conn.ShiftInBounds fragDifference) :
      Effect s .handler
        { s with conn := s.conn.shift fragDifference, handlerThread := .recvfrom }
  /-- `handler` handles an `ACLS`. -/
  | closedByPeer (hthread : s.handlerThread = .acls) :
      Effect s .handler
        { s with
          conn := { s.conn with inactiveTime := closeTimeoutThreshold + 1 }
          handlerThread := .recvfrom
          closeRequested := true }
  /-- `handler` removes and frees the connection. -/
  | freed (hthread : s.handlerThread = .cleanUp) :
      Effect s .handler { s with registered := false, live := false, handlerThread := .ended }
  /-- A `sender` thread changes its position or its timer. -/
  | senderMoved {i : ℕ} (position : SenderPosition) (resendTime : ℤ) :
      Effect s (.sender i) (s.setSender i position resendTime)
  /-- A `sender` thread marks all payloads as unsent. -/
  | reset {i : ℕ} (hth : ∃ th, s.senderThreads[i]? = some th)
      (hnothing : s.conn.lastPayloadIndex < s.conn.nextPayloadIndex) :
      Effect s (.sender i)
        { s.setSender i .sendEmpty 0 with
          conn := { s.conn with lastSentIndex := -1 }
          sentSinceReset := [] }
  /-- A `sender` thread sends the next payload. -/
  | sentPayload {i : ℕ} (hth : ∃ th, s.senderThreads[i]? = some th)
      (hlock : s.receiverLockHeld = false) (hwait : s.conn.mustWait = false)
      (hbounds : s.conn.SendInBounds s.conn.nextPayloadIndex) :
      Effect s (.sender i)
        { (s.setSender i .closeCheck 0).sendTo
            (buildData s.conn.outgoingBuffer (s.conn.sendingFrag s.conn.nextPayloadIndex)
              (s.conn.payload s.conn.nextPayloadIndex.toNat))
            (20 + (s.conn.payload s.conn.nextPayloadIndex.toNat).length) with
          conn := { s.conn with
            outgoingBuffer := buildData s.conn.outgoingBuffer
              (s.conn.sendingFrag s.conn.nextPayloadIndex)
              (s.conn.payload s.conn.nextPayloadIndex.toNat)
            lastSentIndex := s.conn.lastSentIndex + 1 }
          sentSinceReset := s.sentSinceReset ++
            [s.conn.lastAcknowledgedFrag + s.conn.nextPayloadIndex + 1] }
  /-- A `sender` thread sends an empty `DATA`. -/
  | sentEmpty {i : ℕ} (resendTime : ℤ) (hth : ∃ th, s.senderThreads[i]? = some th) :
      Effect s (.sender i)
        ((s.setSender i .closeCheck resendTime).sendTo (buildDataEmpty s.conn.outgoingBuffer) 16)
  /-- A `checker` thread increments the counter. -/
  | ticked {i : ℕ} (hth : s.checkerThreads[i]? = some .tick) :
      Effect s (.checker i)
        { s with
          conn := { s.conn with inactiveTime := s.conn.inactiveTime + closeTimeoutIncrement }
          checkerThreads := s.checkerThreads.set i
            (if closeTimeoutThreshold < s.conn.inactiveTime + closeTimeoutIncrement then .setClose
              else .tick) }
  /-- A `checker` thread sets the close flag. -/
  | flagged {i : ℕ} (hth : s.checkerThreads[i]? = some .setClose) :
      Effect s (.checker i)
        { s with
          conn := { s.conn with shouldClose := true }
          checkerThreads := s.checkerThreads.set i .ended }

/-- A condition on the section that `handler` runs. It asks nothing of other sections. -/
def OnHandler (condition : State → HandlerThread → Prop) (s : State) : Action → Prop
  | .handler => condition s s.handlerThread
  | _ => True

instance (condition : State → HandlerThread → Prop) [∀ s thread, Decidable (condition s thread)]
    (s : State) (act : Action) : Decidable (OnHandler condition s act) :=
  match act with
  | .handler => inferInstanceAs (Decidable (condition s s.handlerThread))
  | .mrtConnect | .mrtSend _ | .mrtSendContinue | .mrtDisconnect | .mrtDisconnectContinue _
  | .handlerRecvfrom _ | .sender _ | .checker _ => isTrue trivial

/-- What a section that uses the connection does when it succeeds. -/
theorem of_useConnection {s s' : State} {next : Except Fault State}
    (h : s.useConnection next = .ok s') : s.live = true ∧ next = .ok s' := by
  unfold State.useConnection at h
  split at h
  · exact ⟨‹_›, h⟩
  · cases h

/-- What a section under `receiver_lock` does when it succeeds: it has waited, or was done while
nobody held the lock. -/
theorem of_lockReceiver {s s' : State} {next : Except Fault State}
    (h : s.lockReceiver next = .ok s') :
    s.live = true ∧ (s = s' ∨ s.receiverLockHeld = false ∧ next = .ok s') := by
  obtain ⟨hlive, h⟩ := of_useConnection h
  refine ⟨hlive, ?_⟩
  split at h
  · exact Or.inl (Except.ok.inj h)
  · rename_i hlock
    exact Or.inr ⟨by simpa using hlock, h⟩

/-- The section of the `MRT_ADAT` case that updates the number and the window. -/
theorem handler_of_adatAck {s : State} {frag window : ℤ}
    (hthread : s.handlerThread = .adatAck frag window) :
    step s .handler = .ok (handleAdatAck s frag window) := by
  rw [step, handler, hthread]

private theorem effect_of_mrtConnect {s s' : State} (h : mrtConnect s = .ok s') :
    Effect s .mrtConnect s' := by
  unfold mrtConnect at h
  split at h
  · obtain ⟨-, rfl | ⟨-, h⟩⟩ := of_lockReceiver h
    · exact .idle _
    · cases h
      exact .polled
  · obtain ⟨-, h⟩ := of_useConnection h
    cases h
    exact .requested
  · cases h
    exact .idle _

private theorem effect_of_mrtSendContinue {s s' : State} (h : mrtSendContinue s = .ok s') :
    Effect s .mrtSendContinue s' := by
  unfold mrtSendContinue at h
  split at h
  · cases h
    exact .idle _
  · cases h
    exact .idle _
  · rename_i hcall
    cases h
    exact .found hcall
  · rename_i hcall
    obtain ⟨-, rfl | ⟨hlock, h⟩⟩ := of_lockReceiver h
    · exact .idle _
    · cases h
      exact .estimated hcall hlock
  · rename_i hcall
    cases h
    exact .foundAgain hcall
  · rename_i args finalFrag copied hcall
    obtain ⟨-, rfl | ⟨hlock, h⟩⟩ := of_lockReceiver h
    · exact .idle _
    · cases h
      by_cases hack : finalFrag ≤ s.conn.lastAcknowledgedFrag
      · rw [if_pos hack]
        exact .succeeded hcall hlock hack
      · rw [if_neg hack]
        exact .unacknowledged hcall hlock (Int.not_le.mp hack)
  · rename_i args finalFrag copied hcall
    obtain ⟨-, h⟩ := of_useConnection h
    unfold mrtSendCopy at h
    split at h
    · rename_i hspace
      dsimp only at h
      split at h
      · rename_i hbounds
        cases h
        exact .buffered hcall (by omega) hbounds.1
      · cases h
    · cases h
      exact .full hcall

private theorem effect_of_mrtDisconnectContinue {s s' : State} {i : ℕ}
    (h : mrtDisconnectContinue s i = .ok s') : Effect s (.mrtDisconnectContinue i) s' := by
  unfold mrtDisconnectContinue at h
  split at h
  · cases h
    exact .idle _
  · rename_i call hcall
    cases call with
    | lookup =>
      cases h
      exact .disconnectMoved _
    | bufferCheck =>
      obtain ⟨-, h⟩ := of_useConnection h
      cases h
      exact .disconnectMoved _
    | sendRcls =>
      obtain ⟨-, h⟩ := of_useConnection h
      cases h
      exact .sentRcls
    | setInactive =>
      obtain ⟨-, h⟩ := of_useConnection h
      cases h
      exact .requestedClose
    | returned =>
      cases h
      exact .idle _

private theorem effect_of_handler {s s' : State} (h : handler s = .ok s') :
    Effect s .handler s' := by
  unfold handler at h
  split at h
  · cases h
    exact .idle _
  · cases h
    exact .idle _
  · rename_i hthread
    cases h
    cases hclose : s.conn.shouldClose with
    | true => exact .closing hthread hclose
    | false => exact .dispatched hthread hclose
  · rename_i hthread
    cases h
    unfold handleAcon
    split
    · rename_i hack
      exact .connected hthread hack
    · rename_i hack
      exact .reconnected hthread hack
  · rename_i hthread
    cases h
    exact .refreshed hthread
  · rename_i frag window hthread
    cases h
    unfold handleAdatAck
    by_cases hdifference : 0 ≤ s.conn.fragDifference frag
    · rw [if_pos hdifference]
      exact .acknowledged hthread hdifference
    · rw [if_neg hdifference]
      exact .outdated hthread (Int.not_le.mp hdifference)
  · rename_i hthread
    unfold handleAdatShift at h
    split at h
    · rename_i hbounds
      cases h
      exact .shifted hthread hbounds
    · cases h
  · rename_i hthread
    cases h
    exact .closedByPeer hthread
  · rename_i hthread
    split at h
    · cases h
      exact .freed hthread
    · cases h
      exact .idle _

/-- What sending the next payload does, which succeeds inside the arrays only. -/
theorem of_senderSendPayload {s s' : State} {i : ℕ} (h : senderSendPayload s i = .ok s') :
    s.conn.SendInBounds s.conn.nextPayloadIndex ∧
      s' = { (s.setSender i .closeCheck 0).sendTo
          (buildData s.conn.outgoingBuffer (s.conn.sendingFrag s.conn.nextPayloadIndex)
            (s.conn.payload s.conn.nextPayloadIndex.toNat))
          (20 + (s.conn.payload s.conn.nextPayloadIndex.toNat).length) with
        conn := { s.conn with
          outgoingBuffer := buildData s.conn.outgoingBuffer
            (s.conn.sendingFrag s.conn.nextPayloadIndex)
            (s.conn.payload s.conn.nextPayloadIndex.toNat)
          lastSentIndex := s.conn.lastSentIndex + 1 }
        sentSinceReset := s.sentSinceReset ++
          [s.conn.lastAcknowledgedFrag + s.conn.nextPayloadIndex + 1] } := by
  unfold senderSendPayload at h
  dsimp only at h
  split at h
  · rename_i hbounds
    exact ⟨hbounds, (Except.ok.inj h).symm⟩
  · cases h

private theorem effect_of_sender {s s' : State} {i : ℕ} (h : sender s i = .ok s') :
    Effect s (.sender i) s' := by
  unfold sender at h
  split at h
  · cases h
    exact .idle _
  · obtain ⟨-, h⟩ := of_useConnection h
    cases h
    exact .senderMoved _ _
  · rename_i resendTime hth
    obtain ⟨-, rfl | ⟨hlock, h⟩⟩ := of_lockReceiver h
    · exact .idle _
    split at h
    · cases h
      unfold senderWait
      split
      · rename_i hnothing
        split
        · exact .reset ⟨_, hth⟩ hnothing
        · exact .senderMoved _ _
      · exact .senderMoved _ _
    · rename_i hwait
      obtain ⟨hbounds, rfl⟩ := of_senderSendPayload h
      exact .sentPayload ⟨_, hth⟩ hlock (by simpa using hwait) hbounds
  · rename_i resendTime hth
    obtain ⟨-, h⟩ := of_useConnection h
    cases h
    exact .sentEmpty resendTime ⟨_, hth⟩
  · cases h
    exact .idle _

private theorem effect_of_checker {s s' : State} {i : ℕ} (h : checker s i = .ok s') :
    Effect s (.checker i) s' := by
  unfold checker at h
  split at h
  · cases h
    exact .idle _
  · cases h
    exact .idle _
  · rename_i hth
    obtain ⟨-, h⟩ := of_useConnection h
    cases h
    exact .ticked hth
  · rename_i hth
    obtain ⟨-, h⟩ := of_useConnection h
    cases h
    exact .flagged hth

/-- Every successful step of a connection has one of the listed effects. -/
theorem effect_of_step {s s' : State} {act : Action} (h : step s act = .ok s') :
    Effect s act s' := by
  cases act with
  | mrtConnect => exact effect_of_mrtConnect h
  | mrtSend args =>
    cases h
    unfold mrtSend
    split
    · rename_i hcall
      exact .submitted (by rw [hcall]; trivial)
    · rename_i hcall
      exact .submitted (by rw [hcall]; trivial)
    · exact .idle _
  | mrtSendContinue => exact effect_of_mrtSendContinue h
  | mrtDisconnect =>
    cases h
    exact .disconnecting
  | mrtDisconnectContinue i => exact effect_of_mrtDisconnectContinue h
  | handlerRecvfrom dg =>
    cases h
    unfold handlerRecvfrom
    split
    · rename_i hthread
      exact .received hthread
    · exact .idle _
  | handler => exact effect_of_handler h
  | sender i => exact effect_of_sender h
  | checker i => exact effect_of_checker h

end NetworkLabs.Mrt.Sender
