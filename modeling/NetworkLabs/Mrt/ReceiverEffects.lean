import NetworkLabs.Mrt.Codec
import NetworkLabs.Mrt.Receiver

/-!
# What one critical section of the receiver can do

`Effect` lists the outcomes of a section together with the tests that led to
them, and every successful step of the receiver is one of them. The invariants
of the receiver are proved by cases on the effect.
-/

namespace NetworkLabs.Mrt.Receiver

open Foundations

/-- The state after `recvfrom` stored a datagram, in the buffer that all senders share. -/
@[simps] def State.store (s : State) (dg : Datagram) : State :=
  { s with incomingBuffer := receiveInto s.incomingBuffer (stored dg) }

/-- The payload that the `MRT_DATA` case reads from the incoming buffer. -/
def dispatchedPayload (s : State) (dg : Datagram) : List Byte :=
  (s.store dg).incomingBuffer.read mrtPayloadLocation
    (((stored dg).length : ℤ) - mrtHeaderLength).toNat

/-- The `MRT_DATA` case without its reply: the payload is appended to the record. -/
@[simps] def State.appendPayload (s : State) (addr : SockaddrIn) (payload : List Byte) : State :=
  { s.updateRecord addr fun r => r.append payload with
    bufferedPayloads := Function.update s.bufferedPayloads addr
      (s.bufferedPayloads addr ++ [payload]) }

/-- The effect of `mrt_receive1` when it returns bytes, on the record and on the history. -/
@[simps] def State.consumeBytes (s : State) (id : SockaddrIn) (len : ℤ) (bytes : List Byte) : State :=
  { s.updateRecord id fun r => r.consume (r.bytesRead len) with
    returnedBytes := Function.update s.returnedBytes id (s.returnedBytes id ++ bytes) }

/-- What the test of the `MRT_DATA` case says. An empty `DATA` passes it when its number is
expected. -/
theorem Sender.admits_iff (r : Sender) {payloadSize fragHolder : ℤ} :
    r.admits payloadSize fragHolder = true ↔
      payloadSize ≤ receiverMaxWindowSize - r.bytesUnread ∧ r.nextFrag = fragHolder :=
  Bool.and_eq_true_iff.trans (and_congr decide_eq_true_iff decide_eq_true_iff)

/-- An iteration of the checker keeps the address. -/
@[simp] theorem tick_addr (r : Sender) : r.tick.addr = r.addr := by
  unfold Sender.tick
  split <;> rfl

/-- Reading keeps the address, by which the record is found. -/
@[simp] theorem consume_addr (r : Sender) (n : ℤ) : (r.consume n).addr = r.addr := by
  unfold Sender.consume
  split <;> rfl

/-- The outcomes of one critical section, with the conditions under which each of them
is taken. -/
inductive Effect (s : State) : Action → State → Prop
  /-- The section changes neither the queues nor the history. -/
  | idle (act : Action) : Effect s act s
  /-- The datagram is dropped. -/
  | dropped (addr : SockaddrIn) (dg : Datagram) : Effect s (.mainHandler addr dg) (s.store dg)
  /-- `mrt_close` was called. -/
  | closing : Effect s .mrtClose { s with shouldClose := true }
  /-- `main_handler` cleans up. -/
  | closed {addr : SockaddrIn} {dg : Datagram} (hclose : s.shouldClose = true) :
      Effect s (.mainHandler addr dg) (cleanUp s)
  /-- A request of a new sender becomes pending. -/
  | requested {addr : SockaddrIn} {dg : Datagram} (hclose : s.shouldClose = false)
      (htype : dispatchedType s dg = some mrtRcon)
      (hpending : getItemQ s.pendingSendersQ (senderMatcher addr) = none)
      (hrecord : s.record addr = none) :
      Effect s (.mainHandler addr dg)
        { s.store dg with
          pendingSendersQ := enqQ s.pendingSendersQ (newSender addr (dispatchedFrag s dg)) }
  /-- A connected sender repeats its request. -/
  | reacknowledged {addr : SockaddrIn} {dg : Datagram} {r : Sender}
      (htype : dispatchedType s dg = some mrtRcon) (hrecord : s.record addr = some r) :
      Effect s (.mainHandler addr dg)
        ((s.store dg).sendTo (buildAcon s.outgoingBuffer (dispatchedFrag s dg)) 20 addr)
  /-- Data of a connected sender is acknowledged without being buffered. -/
  | refused {addr : SockaddrIn} {dg : Datagram} {r : Sender} (hclose : s.shouldClose = false)
      (htype : dispatchedType s dg = some mrtData) (hrecord : s.record addr = some r)
      (hadmits : r.admits ((stored dg).length - mrtHeaderLength) (dispatchedFrag s dg) = false) :
      Effect s (.mainHandler addr dg) (replyAdat (s.store dg) addr r)
  /-- Data of a connected sender is buffered and acknowledged. -/
  | buffered {addr : SockaddrIn} {dg : Datagram} {r : Sender} (hclose : s.shouldClose = false)
      (htype : dispatchedType s dg = some mrtData) (hrecord : s.record addr = some r)
      (hadmits : r.admits ((stored dg).length - mrtHeaderLength) (dispatchedFrag s dg) = true)
      (hbounds : Memory.InBounds receiverMaxWindowSize r.bytesUnread
        ((stored dg).length - mrtHeaderLength)) :
      Effect s (.mainHandler addr dg)
        (replyAdat ((s.store dg).appendPayload addr (dispatchedPayload s dg)) addr
          (r.append (dispatchedPayload s dg)))
  /-- A connected sender asks to disconnect. -/
  | disconnected {addr : SockaddrIn} {dg : Datagram} {r : Sender} (hclose : s.shouldClose = false)
      (htype : dispatchedType s dg = some mrtRcls) (hrecord : s.record addr = some r) :
      Effect s (.mainHandler addr dg)
        (((s.store dg).updateRecord addr fun r =>
          { r with inactiveTime := timeoutThreshold }).sendTo (buildAcls s.outgoingBuffer) 12 addr)
  /-- A sender withdraws its request. -/
  | withdrawn {addr : SockaddrIn} {dg : Datagram}
      (htype : dispatchedType s dg = some mrtRcls) (hrecord : s.record addr = none) :
      Effect s (.mainHandler addr dg)
        { s.store dg with pendingSendersQ := popItemQ s.pendingSendersQ (senderMatcher addr) }
  /-- A pending request is taken. -/
  | taken {r : Sender} {queue : List Sender} (hqueue : s.pendingSendersQ = r :: queue) :
      Effect s .mrtAccept1Dequeue
        { s with pendingSendersQ := queue, accepting := s.accepting ++ [r] }
  /-- A taken request is registered and acknowledged. -/
  | accepted {i : ℕ} {r : Sender} (hopen : s.closed = false) (hr : s.accepting[i]? = some r) :
      Effect s (.mrtAccept1Enqueue i)
        ({ s with
            accepting := s.accepting.eraseIdx i
            connectedSendersQ := enqQ s.connectedSendersQ { r with checkerThread := .running }
            acceptedIds := s.acceptedIds ++ [r.addr] : State }.sendTo
          (buildAcon s.outgoingBuffer (r.nextFrag - 1)) 20 r.addr)
  /-- A checker ticks. -/
  | ticked (i : ℕ) : Effect s (.checker i) (checker s i)
  /-- A call of `mrt_receive1` returns bytes. -/
  | consumed {id : SockaddrIn} {len : ℤ} {r : Sender} (hrecord : s.record id = some r)
      (hunread : 0 < r.bytesUnread)
      (hbounds : r.CopiesInBounds (r.bytesRead len)) :
      Effect s (.mrtReceive1 id len)
        (s.consumeBytes id len (r.buffer.read 0 (r.bytesRead len).toNat))

private theorem effect_of_handleRcon {s : State} {addr : SockaddrIn} {dg : Datagram}
    (hclose : s.shouldClose = false) (htype : dispatchedType s dg = some mrtRcon) :
    Effect s (.mainHandler addr dg) (handleRcon (s.store dg) addr (dispatchedFrag s dg)) := by
  unfold handleRcon
  cases hpending : getItemQ (s.store dg).pendingSendersQ (senderMatcher addr) with
  | some r => exact .dropped addr dg
  | none =>
    cases hrecord : (s.store dg).record addr with
    | none => exact .requested hclose htype hpending hrecord
    | some r => exact .reacknowledged htype hrecord

private theorem effect_of_handleRcls {s : State} {addr : SockaddrIn} {dg : Datagram}
    (hclose : s.shouldClose = false) (htype : dispatchedType s dg = some mrtRcls) :
    Effect s (.mainHandler addr dg) (handleRcls (s.store dg) addr) := by
  unfold handleRcls
  cases hrecord : (s.store dg).record addr with
  | none => exact .withdrawn htype hrecord
  | some r => exact .disconnected hclose htype hrecord

private theorem effect_of_handleData {s s' : State} {addr : SockaddrIn} {dg : Datagram}
    (hclose : s.shouldClose = false) (htype : dispatchedType s dg = some mrtData)
    (h : handleData (s.store dg) addr (stored dg).length (dispatchedFrag s dg) = .ok s') :
    Effect s (.mainHandler addr dg) s' := by
  unfold handleData at h
  cases hrecord : (s.store dg).record addr with
  | none =>
    simp only [hrecord, Except.ok.injEq] at h
    subst h
    exact .dropped addr dg
  | some r =>
    simp only [hrecord] at h
    split at h
    · rename_i hadmits
      split at h
      · rename_i hbounds
        rw [Except.ok.injEq] at h
        subst h
        exact .buffered hclose htype hrecord hadmits hbounds
      · cases h
    · rename_i hadmits
      rw [Except.ok.injEq] at h
      subst h
      exact .refused hclose htype hrecord (by simpa using hadmits)

/-- Every successful step of the receiver has one of the listed effects. -/
theorem effect_of_step {s s' : State} {act : Action} (h : step s act = .ok s') :
    Effect s act s' := by
  cases act with
  | mainHandler addr dg =>
    simp only [step] at h
    split at h
    · cases h
      exact .idle _
    unfold mainHandler at h
    split at h
    · rename_i hclose
      cases h
      exact .closed hclose
    rename_i hopen
    have hclose : s.shouldClose = false := by simpa using hopen
    simp only at h
    split at h
    · rename_i hvalid
      have htype : dispatchedType s dg = some (typeHolder (s.store dg).incomingBuffer) :=
        if_pos hvalid
      split at h
      · rename_i hrcon
        rw [Except.ok.injEq] at h
        subst h
        exact effect_of_handleRcon hclose (htype.trans (congrArg some hrcon))
      · split at h
        · rename_i hdata
          exact effect_of_handleData hclose (htype.trans (congrArg some hdata)) h
        · split at h
          · rename_i hrcls
            rw [Except.ok.injEq] at h
            subst h
            exact effect_of_handleRcls hclose (htype.trans (congrArg some hrcls))
          · cases h
            exact .dropped addr dg
    · cases h
      exact .dropped addr dg
  | mrtAccept1Dequeue =>
    simp only [step] at h
    split at h
    · cases h
    rw [Except.ok.injEq] at h
    subst h
    unfold mrtAccept1Dequeue
    cases hqueue : s.pendingSendersQ with
    | nil => exact .idle _
    | cons r queue => exact .taken hqueue
  | mrtAccept1Enqueue i =>
    simp only [step] at h
    split at h
    · cases h
    rename_i hopen
    rw [Except.ok.injEq] at h
    subst h
    unfold mrtAccept1Enqueue
    cases hr : s.accepting[i]? with
    | none => exact .idle _
    | some r => exact .accepted (by simpa using hopen) hr
  | checker i =>
    simp only [step] at h
    split at h
    · cases h
      exact .idle _
    · cases h
      exact .ticked i
  | mrtReceive1 id len =>
    simp only [step] at h
    split at h
    · cases h
    unfold mrtReceive1 at h
    cases hrecord : s.record id with
    | none =>
      simp only [hrecord, Except.map, Except.ok.injEq] at h
      subst h
      exact .idle _
    | some r =>
      simp only [hrecord] at h
      split at h
      · have hs : s = s' := by
          split at h <;> exact Except.ok.inj h
        subst hs
        exact .idle _
      · rename_i hunread
        split at h
        · rename_i hbounds
          cases h
          exact .consumed hrecord (by omega) hbounds
        · cases h
  | mrtClose =>
    cases h
    exact .closing

end NetworkLabs.Mrt.Receiver
