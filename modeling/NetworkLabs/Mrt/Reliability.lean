import NetworkLabs.Mrt.Refinement

/-!
# Reliable delivery

The fragments that `mrt_send` buffers and the bytes it has not yet copied are together
what was passed to it. So the receiver's stream, which consists of delivered fragments,
is a prefix of that, and it is all of it when a call finds its final fragment
acknowledged. `mrt_send` computes the number of this fragment from numbers that are
those of the window only once the connection is established.
-/

namespace NetworkLabs.Mrt

open Foundations

namespace Sender

/-- A call that computes the number of its final fragment has nothing to send or uses an
established connection. -/
def SendsConnected (s : State) : SendCall → Prop
  | .lastBuffered args => 0 < args.len → s.conn.lastAcknowledgedFrag ≠ -1
  | _ => True

instance (s : State) (call : SendCall) : Decidable (SendsConnected s call) :=
  match call with
  | .lastBuffered args =>
    inferInstanceAs (Decidable (0 < args.len → s.conn.lastAcknowledgedFrag ≠ -1))
  | .none | .firstLookup _ | .lookup _ _ _ | .ackCheck _ _ _ | .copy _ _ _ | .returned _ =>
    isTrue trivial

/-- The bytes of the latest call that are not yet in the buffer. -/
def SendCall.rest : SendCall → List Byte
  | .firstLookup args | .lastBuffered args => args.bytes
  | .lookup args _ copied | .ackCheck args _ copied | .copy args _ copied =>
    args.bytes.drop copied
  | .none | .returned _ => []

/-- What a call knows when `buffered` fragments are buffered and `delivered` of them are
delivered: all of them before it computes its final number and when it has nothing to
send, and else the number of the fragment that will be its last one. -/
def SendCall.Informed (buffered delivered : ℕ) : SendCall → Prop
  | .none | .firstLookup _ | .lastBuffered _ => buffered ≤ delivered
  | .lookup args finalFrag copied | .ackCheck args finalFrag copied
  | .copy args finalFrag copied =>
    (0 < args.len → finalFrag = buffered + fragmentCount (args.len - copied)) ∧
      (args.len ≤ 0 → buffered ≤ delivered)
  | .returned value => value = 1 ∧ buffered ≤ delivered

/-- A call that will not succeed. One that is before its first look-up will not find a
connection that was dropped. -/
def SendCall.Fails : SendCall → Prop
  | .firstLookup _ => True
  | .returned value => value ≠ 1
  | _ => False

/-- Everything that was submitted is buffered or still to be copied. -/
structure Complete (s : State) (delivered : ℕ) : Prop where
  submitted : s.submitted.flatten = s.bufferedFragments.flatten ++ s.sendCall.rest
  informed : s.sendCall.Informed s.bufferedFragments.length delivered

/-- The connection was dropped, and no call succeeds any more. -/
structure Lost (s : State) : Prop where
  unregistered : s.registered = false
  submitted : s.bufferedFragments.flatten <+: s.submitted.flatten
  fails : s.sendCall.Fails

/-- The calls of `mrt_send` account for what was submitted, or the connection was dropped. -/
def CallsHold (s : State) (delivered : ℕ) : Prop := Complete s delivered ∨ Lost s

/-- More deliveries do not matter for what a call knows. -/
theorem SendCall.Informed.mono {call : SendCall} {buffered delivered delivered' : ℕ}
    (h : call.Informed buffered delivered) (hle : delivered ≤ delivered') :
    call.Informed buffered delivered' := by
  cases call with
  | none => exact Nat.le_trans h hle
  | firstLookup args => exact Nat.le_trans h hle
  | lastBuffered args => exact Nat.le_trans h hle
  | lookup args finalFrag copied => exact ⟨h.1, fun hnone => Nat.le_trans (h.2 hnone) hle⟩
  | ackCheck args finalFrag copied => exact ⟨h.1, fun hnone => Nat.le_trans (h.2 hnone) hle⟩
  | copy args finalFrag copied => exact ⟨h.1, fun hnone => Nat.le_trans (h.2 hnone) hle⟩
  | returned value => exact ⟨h.1, Nat.le_trans h.2 hle⟩

/-- More deliveries do not matter for the account of the calls. -/
theorem CallsHold.mono {s : State} {delivered delivered' : ℕ} (h : CallsHold s delivered)
    (hle : delivered ≤ delivered') : CallsHold s delivered' :=
  h.imp (fun hcomplete => ⟨hcomplete.submitted, hcomplete.informed.mono hle⟩) id

/-- A step outside `mrt_send` that registers nothing keeps the account of the calls. -/
theorem CallsHold.of_eq {s s' : State} {delivered : ℕ} (h : CallsHold s delivered)
    (hcall : s'.sendCall = s.sendCall) (hfragments : s'.bufferedFragments = s.bufferedFragments)
    (hsubmitted : s'.submitted = s.submitted)
    (hregistered : s.registered = false → s'.registered = false) : CallsHold s' delivered := by
  rcases h with hcomplete | hlost
  · refine Or.inl ⟨?_, ?_⟩
    · rw [hsubmitted, hfragments, hcall]
      exact hcomplete.submitted
    · rw [hfragments, hcall]
      exact hcomplete.informed
  · refine Or.inr ⟨hregistered hlost.unregistered, ?_, ?_⟩
    · rw [hsubmitted, hfragments]
      exact hlost.submitted
    · rw [hcall]
      exact hlost.fails

/-- A call that may still succeed has an account of all that was submitted. -/
theorem CallsHold.complete_of {s : State} {delivered : ℕ} (h : CallsHold s delivered)
    {call : SendCall} (hcall : s.sendCall = call) (hruns : ¬call.Fails) :
    s.submitted.flatten = s.bufferedFragments.flatten ++ call.rest ∧
      call.Informed s.bufferedFragments.length delivered := by
  subst hcall
  rcases h with hcomplete | hlost
  · exact ⟨hcomplete.submitted, hcomplete.informed⟩
  · exact absurd hlost.fails hruns

/-- Before the first call nothing is submitted and nothing has to be delivered. -/
theorem callsHold_initial : CallsHold initial 0 := Or.inl ⟨rfl, Nat.le_refl 0⟩

/-- The bytes of a call are no more than its length says. -/
theorem drop_bytes_eq_nil {args : SendArgs} {copied : ℕ} (h : args.len ≤ copied) :
    args.bytes.drop copied = [] := by
  apply List.drop_eq_nil_of_le
  have htake : args.bytes.length ≤ args.len.toNat := List.length_take_le _ _
  omega

/-- No fragment is needed exactly for no bytes, or a negative number of them. -/
theorem fragmentCount_eq_zero_iff {len : ℤ} : fragmentCount len = 0 ↔ len ≤ 0 := by
  have hfull : (maxMrtPayloadLength : ℤ) = 488 := rfl
  unfold fragmentCount
  rw [hfull]
  omega

/-- The bytes that a call copies next are the first of those that are left. -/
theorem drop_bytes_eq_append {args : SendArgs} {copied : ℕ} (h : copied < args.len) :
    args.bytes.drop copied =
      (args.buffer.drop copied).take (numBytesToCopy args.len copied).toNat ++
        args.bytes.drop (copied + (numBytesToCopy args.len copied).toNat) := by
  obtain ⟨hpos, hmax, hleft⟩ := numBytesToCopy_mem h
  have hfirst : (args.bytes.drop copied).take (numBytesToCopy args.len copied).toNat =
      (args.buffer.drop copied).take (numBytesToCopy args.len copied).toNat := by
    rw [SendArgs.bytes, List.drop_take, List.take_take, Nat.min_eq_left (by omega)]
  rw [← hfirst, ← List.drop_drop, List.take_append_drop]

/-- The final number of a call on an established connection counts the buffered fragments
and those of the call. -/
theorem finalFrag_eq {c : Connection} {n : ℕ} (hbuffered : c.lastBufferedFrag = n) {len : ℤ}
    (hlen : 0 < len) (hfits : n + fragmentCount len < 2 ^ 31 - 1) :
    c.finalFrag len = n + fragmentCount len := by
  have hfull : (maxMrtPayloadLength : ℤ) = 488 := rfl
  have hcount : len.tdiv 488 + (if len.tmod 488 ≠ 0 then 1 else 0) = fragmentCount len := by
    rw [Int.tdiv_eq_ediv_of_nonneg (by omega), Int.tmod_eq_emod_of_nonneg (by omega),
      fragmentCount, hfull]
    split <;> omega
  rw [Connection.finalFrag, hfull, hbuffered, Int.add_assoc, hcount]
  exact wrapInt_of_mem (by omega) (by omega)

/-- A call that finds its final fragment acknowledged has copied all its bytes, and all
fragments are delivered. -/
theorem delivered_of_finalFrag {s : State} {g : Transfer} (hrefines : SenderRefines s g)
    (hsound : GoBackN.Sound g) {args : SendArgs} {finalFrag : ℤ} {copied : ℕ}
    (hinformed : (SendCall.ackCheck args finalFrag copied).Informed s.bufferedFragments.length
      g.delivered.length)
    (hfinal : finalFrag ≤ s.conn.lastAcknowledgedFrag) :
    args.len ≤ copied ∧ s.bufferedFragments.length ≤ g.delivered.length := by
  by_cases hlen : 0 < args.len
  · have hnumber := hinformed.1 hlen
    have hconnected : Connected s g := hrefines.connection.resolve_left fun hunconnected => by
      have hfirst := hunconnected.first
      omega
    have hack := hconnected.acknowledged
    have hwritten := hsound.acknowledged_written
    rw [hrefines.fragments] at hwritten
    have hnone : fragmentCount (args.len - copied) = 0 := by omega
    have hdone := fragmentCount_eq_zero_iff.mp hnone
    have hdelivered := hsound.acknowledged_delivered
    exact ⟨by omega, by omega⟩
  · exact ⟨by omega, hinformed.2 (by omega)⟩

/-- A section of a sender whose connection is a state of Go-Back-N keeps the account, when
no call computes its final number too early. -/
theorem callsHold_step {s s' : State} {g : Transfer} (h : CallsHold s g.delivered.length)
    (hrefines : SenderRefines s g) (hsound : GoBackN.Sound g) {act : Action}
    (hnumbering : OnSend FitsNumbering s act) (hconnected : OnSend SendsConnected s act)
    (hstep : step s act = .ok s') : CallsHold s' g.delivered.length := by
  have hminus : (-1 : ℤ) ≠ 1 := by decide
  have hzero : (0 : ℤ) ≠ 1 := by decide
  cases effect_of_step hstep with
  | @submitted args hcall =>
    have hsubmitted :
        (s.submitted ++ [args.bytes]).flatten = s.submitted.flatten ++ args.bytes := by
      simp
    rcases h with ⟨hstream, hinformed⟩ | ⟨hunregistered, hstream, hfails⟩
    · refine Or.inl ⟨hsubmitted.trans ?_, ?_⟩
      · rw [hstream]
        cases hposition : s.sendCall <;> rw [hposition] at hcall <;>
          first | exact hcall.elim | simp [SendCall.rest]
      · cases hposition : s.sendCall <;> rw [hposition] at hcall hinformed <;>
          first | exact hcall.elim | exact hinformed | exact hinformed.2
    · refine Or.inr ⟨hunregistered, ?_, trivial⟩
      rw [hsubmitted]
      exact hstream.trans (List.prefix_append _ _)
  | @found args hcall =>
    rcases h with ⟨hstream, hinformed⟩ | ⟨hunregistered, hstream, hfails⟩
    · rw [hcall] at hstream hinformed
      cases hregistered : s.registered with
      | true => exact Or.inl ⟨hstream, hinformed⟩
      | false =>
        refine Or.inr ⟨rfl, ?_, hminus⟩
        rw [hstream]
        exact List.prefix_append _ _
    · refine Or.inr ⟨hunregistered, hstream, ?_⟩
      rw [hunregistered]
      exact hminus
  | @estimated args hcall hlock =>
    obtain ⟨hstream, hinformed⟩ := h.complete_of hcall id
    simp only [OnSend, hcall, FitsNumbering, SendsConnected] at hnumbering hconnected
    refine Or.inl ⟨hstream, fun hlen => ?_, fun _ => hinformed⟩
    have hlinked : Connected s g := hrefines.connection.resolve_left fun hunconnected =>
      hconnected hlen hunconnected.first
    have haligned := hlinked.aligned
    rw [pendingShift_of_unlocked hlock] at haligned
    have hbuffered : s.conn.lastBufferedFrag = s.bufferedFragments.length := by
      rw [Connection.lastBufferedFrag]
      omega
    have hnone : args.len - ((0 : ℕ) : ℤ) = args.len := Int.sub_zero _
    rw [hnone]
    exact finalFrag_eq hbuffered hlen hnumbering
  | @foundAgain args finalFrag copied hcall =>
    obtain ⟨hstream, hinformed⟩ := h.complete_of hcall id
    cases hregistered : s.registered with
    | true => exact Or.inl ⟨hstream, hinformed⟩
    | false =>
      refine Or.inr ⟨rfl, ?_, hzero⟩
      rw [hstream]
      exact List.prefix_append _ _
  | @succeeded args finalFrag copied hcall hlock hfinal =>
    obtain ⟨hstream, hinformed⟩ := h.complete_of hcall id
    obtain ⟨hdone, hdelivered⟩ := delivered_of_finalFrag hrefines hsound hinformed hfinal
    refine Or.inl ⟨?_, rfl, hdelivered⟩
    rw [hstream, SendCall.rest, drop_bytes_eq_nil hdone]
    rfl
  | @unacknowledged args finalFrag copied hcall hlock hfinal =>
    obtain ⟨hstream, hinformed⟩ := h.complete_of hcall id
    refine Or.inl ⟨?_, ?_⟩
    · dsimp only
      split <;> exact hstream
    · dsimp only
      split <;> exact hinformed
  | @buffered args finalFrag copied hcall hspace hbounds =>
    obtain ⟨hstream, hinformed⟩ := h.complete_of hcall id
    have hleft := hrefines.window.copying
    rw [hcall] at hleft
    have hcount := fragmentCount_copy hleft
    have hcopied : (copied : ℤ) < args.len := hleft
    refine Or.inl ⟨?_, fun hlen => ?_, fun hnone => ?_⟩
    · have hrest : (SendCall.copy args finalFrag copied).rest = args.bytes.drop copied := rfl
      rw [hstream, hrest, drop_bytes_eq_append hleft]
      simp [SendCall.rest]
    · rw [hinformed.1 hlen, List.length_append, List.length_singleton]
      omega
    · omega
  | full hcall =>
    obtain ⟨hstream, hinformed⟩ := h.complete_of hcall id
    exact Or.inl ⟨hstream, hinformed⟩
  | freed hthread => exact h.of_eq rfl rfl rfl fun _ => rfl
  | _ => exact h.of_eq rfl rfl rfl id

end Sender

/-- The bytes that `mrt_receive1` has returned for a connection, followed by its unread
buffer. -/
def Receiver.View.stream (v : Receiver.View) : List Byte :=
  v.returnedBytes ++ (v.record.map Receiver.Sender.unread).getD []

/-- While the receiver is open the stream of a connection is what was buffered for it. -/
theorem stream_eq_flatten {r : Receiver.State} (h : Receiver.StreamsKept r)
    (hopen : r.closed = false) (addr : SockaddrIn) :
    (r.view addr).stream = (r.bufferedPayloads addr).flatten := by
  have haccounts := h.accounts addr
  unfold Receiver.View.stream
  cases hrecord : (r.view addr).record with
  | some x => exact haccounts.stream x hrecord
  | none =>
    obtain ⟨hreturned, hbuffered, -⟩ := haccounts.unknown hrecord hopen
    rw [Receiver.State.view_bufferedPayloads] at hbuffered
    rw [hreturned, hbuffered]
    rfl

/-- The receiver never forgets what it buffered, not even in its clean-up. -/
theorem length_bufferedPayloads_le {r r' : Receiver.State} {act : Receiver.Action}
    (hstep : Receiver.step r act = .ok r') (addr : SockaddrIn) :
    (r.bufferedPayloads addr).length ≤ (r'.bufferedPayloads addr).length := by
  have heffect := Receiver.addressEffect_of_step hstep addr
  have hview : r'.bufferedPayloads addr = (r'.view addr).bufferedPayloads := rfl
  rw [hview]
  generalize r'.view addr = v at heffect
  cases heffect with
  | buffered hclose htype hrecord hadmits hbounds => simp
  | _ => exact Nat.le_refl _

namespace Network

open Sender (SendsConnected CallsHold)

/-- A connection delivers reliably, as the receiver's user and the callers of `mrt_send`
see it. -/
structure DeliversReliably (w : World) (addr : SockaddrIn) : Prop where
  /-- The receiver's stream is a prefix of what was submitted. -/
  stream_prefix : (w.receiver.view addr).stream <+: (w.senders addr).submitted.flatten
  /-- When a call of `mrt_send` returns 1 everything is in the receiver's stream. -/
  stream_complete : (w.senders addr).sendCall = .returned 1 →
    (w.receiver.view addr).stream = (w.senders addr).submitted.flatten

/-- Every address has one session, with fewer than `2 ^ 31 - 1` fragments, `mrt_close` is not
called, and `mrt_receive1` gets a length. -/
def ReliableUse (w : World) : Action → Prop
  | .receiver act => Receiver.OpenUse act
  | .sender addr act => Sender.OnSend Sender.FitsNumbering (w.senders addr) act
  | .reopen _ => False

instance (w : World) (act : Action) : Decidable (ReliableUse w act) :=
  match act with
  | .receiver act => inferInstanceAs (Decidable (Receiver.OpenUse act))
  | .sender addr act =>
    inferInstanceAs (Decidable (Sender.OnSend Sender.FitsNumbering (w.senders addr) act))
  | .reopen _ => isFalse id

/-- What was buffered for a connection stays buffered. -/
theorem bufferedPayloads_step {w w' : World} {act : Action} (hstep : step w act = .ok w')
    (addr : SockaddrIn) : (w.receiver.bufferedPayloads addr).length ≤
      (w'.receiver.bufferedPayloads addr).length := by
  cases effect_of_step hstep with
  | receiver hdelivers hsub => exact length_bufferedPayloads_le hsub addr
  | _ => exact Nat.le_refl _

/-- The invariant behind `DeliversReliably`: the refinement of the abstract protocol, a receiver
that is open with room in its buffers, and the account of the calls. -/
structure ReliabilityHolds (w : World) : Prop where
  network : NetworkHolds w
  isOpen : Receiver.OpenAndFit w.receiver
  calls : ∀ addr, CallsHold (w.senders addr) (w.receiver.bufferedPayloads addr).length

/-- The invariant contains the claim about the streams: the prefix from the refinement, and
completeness from the account of the calls. -/
theorem ReliabilityHolds.deliversReliably {w : World} (h : ReliabilityHolds w)
    (addr : SockaddrIn) : DeliversReliably w addr := by
  obtain ⟨g, hg⟩ := h.network.refines addr
  have hsound := hg.reachable.sound
  have hstream := stream_eq_flatten h.network.streams h.isOpen.closed_eq addr
  have hdelivered : w.receiver.bufferedPayloads addr = g.delivered := hg.receiver.delivered.symm
  rw [hdelivered] at hstream
  have hprefix : g.delivered <+: (w.senders addr).bufferedFragments := by
    rw [← hg.sender.fragments]
    exact hsound.delivered_written
  refine ⟨?_, fun hreturned => ?_⟩
  · obtain ⟨undelivered, hundelivered⟩ := hprefix
    have hbuffered : (w.receiver.view addr).stream <+:
        (w.senders addr).bufferedFragments.flatten := by
      rw [hstream, ← hundelivered, List.flatten_append]
      exact List.prefix_append _ _
    rcases h.calls addr with hcomplete | hlost
    · rw [hcomplete.submitted]
      exact hbuffered.trans (List.prefix_append _ _)
    · exact hbuffered.trans hlost.submitted
  · rcases h.calls addr with ⟨hsubmitted, hinformed⟩ | ⟨hunregistered, hsubmitted, hfails⟩
    · rw [hreturned] at hsubmitted hinformed
      have hall : g.fragments.length ≤ g.delivered.length := by
        rw [hg.sender.fragments, ← hdelivered]
        exact hinformed.2
      rw [hstream, hsubmitted, hsound.delivered_eq hall, hg.sender.fragments]
      exact (List.append_nil _).symm
    · rw [hreturned] at hfails
      exact absurd rfl hfails

/-- Nothing is submitted initially, and the receiver is open. -/
theorem reliabilityHolds_initial : ReliabilityHolds initial :=
  ⟨networkHolds_initial, Receiver.openAndFit_initial, fun _ => Sender.callsHold_initial⟩

/-- A step in which no call computes its final number too early keeps the invariant. -/
theorem reliabilityHolds_step {w w' : World} {act : Action} (h : ReliabilityHolds w)
    (huse : ReliableUse w act) (hconnected : OnSender (Sender.OnSend SendsConnected) w act)
    (hstep : step w act = .ok w') : ReliabilityHolds w' := by
  have hfew : FewFragments w act := by
    cases act with
    | sender addr act => exact huse
    | _ => trivial
  have hfresh : FreshSession w act := by
    cases act with
    | reopen addr => exact huse.elim
    | _ => trivial
  refine ⟨networkHolds_step h.network hfew hfresh hstep, ?_, fun addr => ?_⟩
  · cases effect_of_step hstep with
    | receiver hdelivers hsub => exact Receiver.openAndFit_step h.isOpen huse hsub
    | _ => exact h.isOpen
  · obtain ⟨g, hg⟩ := h.network.refines addr
    have hcalls := h.calls addr
    have hdelivered : w.receiver.bufferedPayloads addr = g.delivered := hg.receiver.delivered.symm
    have hgrows := bufferedPayloads_step hstep addr
    rw [hdelivered] at hcalls hgrows
    have hchange := senderChange_of_step hstep addr
    generalize w'.senders addr = s' at hchange ⊢
    cases hchange with
    | kept => exact hcalls.mono hgrows
    | stepped hreturns hsub =>
      have hnext :=
        Sender.callsHold_step hcalls hg.sender hg.reachable.sound huse hconnected hsub
      exact hnext.mono hgrows
    | reopened hended => exact huse.elim

/-- Every connection delivers reliably in every run of the described use in which each call
of `mrt_send` that has bytes to send computes the number of its final fragment after the
connection is established. A step on a freed `connection_t` fails and ends the run, so that
nothing is said after it. -/
theorem deliversReliably_of_meets {acts : List Action} (huse : Meets step ReliableUse initial acts)
    (hconnected : Meets step (OnSender (Sender.OnSend SendsConnected)) initial acts) :
    Always step (fun _ w' => ∀ addr, DeliversReliably w' addr) initial acts := by
  refine always_of_meets (fun w act w' h hcondition hstep => ?_) reliabilityHolds_initial
    (huse.and hconnected)
  have hnext := reliabilityHolds_step h hcondition.1 hcondition.2 hstep
  exact ⟨hnext.deliversReliably, hnext⟩

/-- One byte is sent, delivered, acknowledged and read, and the call returns 1. -/
def sentAndRead : List Action :=
  sentAndAcknowledged ++
    [.sender (loopback 4242) .handler, .sender (loopback 4242) .mrtSendContinue,
      .sender (loopback 4242) .mrtSendContinue, .receiver (.mrtReceive1 (loopback 4242) 1)]

/-- A run of one sender that meets both conditions, from the request to the reading of
its byte. -/
theorem deliversReliably_one_byte :
    Always step (fun _ w' => ∀ addr, DeliversReliably w' addr) initial sentAndRead :=
  deliversReliably_of_meets (by decide +kernel) (by decide +kernel)

/-- A call of `mrt_send` computes the number of its final fragment before the connection is
established. -/
def earlySend : List Action :=
  [.sender (loopback 4242) (.mrtSend oneByte),
      .sender (loopback 4242) .mrtSendContinue, .sender (loopback 4242) .mrtSendContinue] ++
    handshake (loopback 4242) ++
    [.sender (loopback 4242) .mrtSendContinue, .sender (loopback 4242) .mrtSendContinue]

/-- A call that is made too early returns 1 before its byte is even buffered. -/
theorem deliversReliably_fails_for_early_send :
    Meets step ReliableUse initial earlySend ∧
      ¬Always step (fun _ w' => ∀ addr, DeliversReliably w' addr) initial earlySend := by
  refine ⟨by decide +kernel, ?_⟩
  have hrun : someStep step (fun _ w' => decide
      ((w'.senders (loopback 4242)).sendCall = .returned 1 ∧
        (w'.receiver.view (loopback 4242)).stream ≠
          (w'.senders (loopback 4242)).submitted.flatten)) initial earlySend = true := by
    decide +kernel
  refine not_always_of_someStep (fun w w' htest hreliable => ?_) hrun
  obtain ⟨hreturned, hlost⟩ := of_decide_eq_true htest
  exact hlost ((hreliable (loopback 4242)).stream_complete hreturned)

end Network

end NetworkLabs.Mrt
