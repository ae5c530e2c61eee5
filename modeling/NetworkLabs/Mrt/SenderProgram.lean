import NetworkLabs.Mrt.InUse
import NetworkLabs.Mrt.ProgramEffects

/-!
# The sender program

`main` of `sender.c` reads before it sends and sends before it disconnects, so the calls of
its module never overlap and everything that was passed to `mrt_send` was read. It asks to
disconnect only when the connection is still registered, and then no call of `mrt_send` has
failed.
-/

namespace NetworkLabs.Mrt.Programs

open Foundations
open Sender (SendCall DisconnectCall)

/-! ### What the sections of the module change -/

/-- What only the calls of the module change: their positions, what was submitted and what was
buffered. -/
def callParts (s : Sender.State) :
    Sender.ConnectCall × SendCall × List DisconnectCall × List (List Byte) × List (List Byte) :=
  (s.connectCall, s.sendCall, s.disconnectCalls, s.submitted, s.bufferedFragments)

/-- The threads leave the calls alone: what was submitted and where the calls stand changes in
sections of the main thread only. -/
theorem callParts_of_thread {s s' : Sender.State} {act : Sender.Action}
    (hthread : SenderThreadSection act) (hstep : Sender.step s act = .ok s') :
    callParts s' = callParts s := by
  cases Sender.effect_of_step hstep with
  | polled | requested | submitted _ | found _ | estimated _ _ | foundAgain _ | succeeded _ _ _
  | unacknowledged _ _ _ | buffered _ _ _ | full _ | disconnecting | disconnectMoved _ | sentRcls
  | requestedClose => exact hthread.elim
  | _ => rfl

/-- Every buffered fragment holds a byte, as `mrt_send` copies only while something is left. -/
def FragmentsHoldBytes (s : Sender.State) : Prop := ∀ fragment ∈ s.bufferedFragments, fragment ≠ []

/-- A call of `mrt_send` copies at least a byte, when it copies at all. -/
theorem fragmentsHoldBytes_step {s s' : Sender.State} (h : FragmentsHoldBytes s)
    (hcopying : s.sendCall.HasBytesLeft) {act : Sender.Action}
    (hstep : Sender.step s act = .ok s') : FragmentsHoldBytes s' := by
  cases Sender.effect_of_step hstep with
  | @buffered args finalFrag copied hcall hspace hbounds =>
    rw [hcall] at hcopying
    obtain ⟨hpos, -, hleft⟩ := Sender.numBytesToCopy_mem hcopying
    intro fragment hfragment
    rcases List.mem_append.mp hfragment with hold | hnew
    · exact h fragment hold
    · have hlength := args.len_le
      have hcopied : (copied : ℤ) < args.len := hcopying
      rw [List.mem_singleton.mp hnew]
      apply List.ne_nil_of_length_pos
      rw [List.length_take, List.length_drop]
      omega
  | _ => exact h

/-- So there are no more fragments than bytes. -/
theorem length_bufferedFragments_le {s : Sender.State} (h : FragmentsHoldBytes s) :
    s.bufferedFragments.length ≤ s.bufferedFragments.flatten.length := by
  unfold FragmentsHoldBytes at h
  generalize s.bufferedFragments = fragments at h ⊢
  induction fragments with
  | nil => exact Nat.le_refl 0
  | cons fragment fragments ih =>
    have hfirst := List.length_pos_of_ne_nil (h fragment List.mem_cons_self)
    have hrest := ih fun other hother => h other (List.mem_cons_of_mem _ hother)
    simp only [List.length_cons, List.flatten_cons, List.length_append]
    omega

/-! ### Disconnecting -/

/-- A call of `mrt_disconnect` has found the connection registered, or it has sent its
`RCLS`. -/
def RequestsClose (s : Sender.State) : Prop :=
  rclsDatagram ∈ s.outbox ∨
    ∃ call ∈ s.disconnectCalls, call ≠ DisconnectCall.lookup ∧ call ≠ DisconnectCall.returned

/-- The latest call of `mrt_send` has returned 1, or there was none. -/
def Confirmed (s : Sender.State) : Prop := s.sendCall = .none ∨ s.sendCall = .returned 1

/-- No other transmission of a sender is an `RCLS`, which is shorter than all of them. -/
theorem ne_rclsDatagram {dg : Datagram} (hlength : 16 ≤ dg.length) : dg ≠ rclsDatagram := by
  rintro rfl
  have hshort : rclsDatagram.length = 12 := length_header mrtRcls
  omega

/-- A request stays when the transmissions and the calls do. -/
theorem RequestsClose.of_append {s s' : Sender.State} (h : RequestsClose s')
    {sent : List Datagram} (houtbox : s'.outbox = s.outbox ++ sent)
    (hsent : ∀ dg ∈ sent, 16 ≤ dg.length) (hcalls : s'.disconnectCalls = s.disconnectCalls) :
    RequestsClose s := by
  rcases h with hrcls | hcall
  · rw [houtbox] at hrcls
    rcases List.mem_append.mp hrcls with hold | hnew
    · exact Or.inl hold
    · exact absurd rfl (ne_rclsDatagram (hsent _ hnew))
  · rw [hcalls] at hcall
    exact Or.inr hcall

/-- A call of `mrt_disconnect` that moves to a new position. -/
theorem RequestsClose.of_set {s : Sender.State} {i : ℕ} {call : DisconnectCall}
    (h : RequestsClose (s.setDisconnect i call))
    (hcall : call = .lookup ∨ call = .returned) : RequestsClose s := by
  rcases h with hrcls | ⟨other, hother, hpositions⟩
  · exact Or.inl hrcls
  · rcases List.mem_or_eq_of_mem_set hother with hold | rfl
    · exact Or.inr ⟨other, hold, hpositions⟩
    · rcases hcall with rfl | rfl
      · exact absurd rfl hpositions.1
      · exact absurd rfl hpositions.2

/-- What a call of `mrt_disconnect` requests goes back to a request, or to its look-up. -/
theorem requestsClose_of_disconnect {s s' : Sender.State} {i : ℕ}
    (hstep : Sender.step s (.mrtDisconnectContinue i) = .ok s') (h : RequestsClose s') :
    RequestsClose s ∨ s.registered = true := by
  rw [Sender.step, Sender.mrtDisconnectContinue] at hstep
  split at hstep
  · cases hstep
    exact Or.inl h
  · rename_i call hcall
    have hmem : call ∈ s.disconnectCalls := List.mem_of_getElem? hcall
    cases call with
    | lookup =>
      cases hregistered : s.registered with
      | true => exact Or.inr rfl
      | false =>
        simp only [Sender.disconnectSection, hregistered, Bool.false_eq_true, if_false] at hstep
        cases hstep
        exact Or.inl (h.of_set (Or.inr rfl))
    | bufferCheck => exact Or.inl (Or.inr ⟨_, hmem, by decide, by decide⟩)
    | sendRcls => exact Or.inl (Or.inr ⟨_, hmem, by decide, by decide⟩)
    | setInactive => exact Or.inl (Or.inr ⟨_, hmem, by decide, by decide⟩)
    | returned =>
      cases hstep
      exact Or.inl h

/-- No other section requests to close than those of `mrt_disconnect`. -/
theorem requestsClose_of_step {s s' : Sender.State} {act : Sender.Action}
    (hact : ∀ i, act ≠ .mrtDisconnectContinue i) (hstep : Sender.step s act = .ok s')
    (h : RequestsClose s') : RequestsClose s := by
  have hsingle (dg : Datagram) (hlength : 16 ≤ dg.length) : ∀ dg' ∈ [dg], 16 ≤ dg'.length := by
    intro dg' hdg'
    rw [List.mem_singleton.mp hdg']
    exact hlength
  cases Sender.effect_of_step hstep with
  | requested => exact h.of_append rfl (hsingle _ (by rw [Memory.length_read])) rfl
  | sentPayload hth hlock hwait hbounds =>
    exact h.of_append rfl (hsingle _ (by rw [Memory.length_read]; omega)) rfl
  | sentEmpty resendTime hth => exact h.of_append rfl (hsingle _ (by rw [Memory.length_read])) rfl
  | disconnecting =>
    rcases h with hrcls | ⟨call, hcall, hpositions⟩
    · exact Or.inl hrcls
    · rcases List.mem_append.mp hcall with hold | hnew
      · exact Or.inr ⟨call, hold, hpositions⟩
      · exact absurd (List.mem_singleton.mp hnew) hpositions.1
  | disconnectMoved _ | sentRcls | requestedClose => exact absurd rfl (hact _)
  | _ => exact h

/-- Where a connection is registered no call of `mrt_send` has failed. -/
theorem confirmed_of_registered {s : Sender.State} {delivered : ℕ}
    (h : Sender.CallsHold s delivered) (hfinished : s.sendCall.Finished)
    (hregistered : s.registered = true) : Confirmed s := by
  rcases h with hcomplete | hlost
  · have hinformed := hcomplete.informed
    cases hcall : s.sendCall with
    | none => exact Or.inl hcall
    | returned value =>
      rw [hcall] at hinformed
      exact Or.inr (hcall.trans (congrArg _ hinformed.1))
    | _ =>
      rw [hcall] at hfinished
      exact hfinished.elim
  · exact absurd (hregistered.symm.trans hlost.unregistered) (by decide)

/-! ### `main` and its calls -/

/-- The calls of the module while `main` stands at a position. -/
def StandsAt (s : Sender.State) : SenderPosition → Prop
  | .connecting => s.connectCall ≠ .returned ∧ s.sendCall = .none ∧ s.disconnectCalls = []
  | .reading => s.sendCall.Finished ∧ s.disconnectCalls = []
  | .sending => s.disconnectCalls = []
  | .disconnecting | .ended => s.sendCall.Finished

/-- The sender program at an address with the given standard input. -/
structure SenderHolds (stdin : List Byte) (s : Sender.State) (m : SenderMain) : Prop where
  /-- What was passed to `mrt_send` was read. -/
  stream : s.submitted.flatten ++ m.stdin = stdin
  /-- The calls do not overlap. -/
  stands : StandsAt s m.position
  /-- Nothing is passed to `mrt_send` before the first call. -/
  unsent : s.sendCall = .none → s.submitted = []
  /-- Only `mrt_disconnect` sends an `RCLS`. -/
  rcls : rclsDatagram ∈ s.outbox → s.disconnectCalls ≠ []

/-- Only a program that has called `mrt_disconnect` asks to close. -/
theorem SenderHolds.disconnectCalls_ne {stdin : List Byte} {s : Sender.State} {m : SenderMain}
    (h : SenderHolds stdin s m) (hclose : RequestsClose s) : s.disconnectCalls ≠ [] := by
  rcases hclose with hrcls | ⟨call, hcall, -⟩
  · exact h.rcls hrcls
  · exact List.ne_nil_of_mem hcall

/-- The program waits in `mrt_connect` and has read nothing. -/
theorem senderHolds_initial (stdin : List Byte) (readSize : ℤ) :
    SenderHolds stdin Sender.initial ⟨.connecting, readSize, stdin⟩ :=
  ⟨rfl, ⟨by decide, rfl, rfl⟩, fun _ => rfl, fun hrcls => by cases hrcls⟩

/-- The first `RCLS` is sent by a call of `mrt_disconnect`. -/
theorem disconnectCalls_of_rcls {s s' : Sender.State} {act : Sender.Action}
    (hstep : Sender.step s act = .ok s') (hold : rclsDatagram ∈ s.outbox → s.disconnectCalls ≠ [])
    (hrcls : rclsDatagram ∈ s'.outbox) : s'.disconnectCalls ≠ [] := by
  have hgrows : s.disconnectCalls ≠ [] → s'.disconnectCalls ≠ [] := by
    intro hne
    cases Sender.effect_of_step hstep <;> simp [hne]
  apply hgrows
  by_cases hact : ∃ i, act = .mrtDisconnectContinue i
  · obtain ⟨i, rfl⟩ := hact
    intro hnone
    -- A call that does not exist sends nothing.
    rw [Sender.step, Sender.mrtDisconnectContinue, hnone] at hstep
    cases hstep
    exact hold hrcls hnone
  · have hother : ∀ i, act ≠ .mrtDisconnectContinue i := fun i hi => hact ⟨i, hi⟩
    rcases requestsClose_of_step hother hstep (Or.inl hrcls) with hsent | ⟨call, hcall, -⟩
    · exact hold hsent
    · exact List.ne_nil_of_mem hcall

/-- A section of a thread of the module keeps what the main thread relies on. -/
theorem SenderHolds.thread {stdin : List Byte} {s s' : Sender.State} {m : SenderMain}
    (h : SenderHolds stdin s m) {act : Sender.Action} (hthread : SenderThreadSection act)
    (hstep : Sender.step s act = .ok s') : SenderHolds stdin s' m := by
  have hparts := callParts_of_thread hthread hstep
  simp only [callParts, Prod.mk.injEq] at hparts
  obtain ⟨hconnect, hsend, hdisconnect, hsubmitted, -⟩ := hparts
  refine ⟨?_, ?_, ?_, disconnectCalls_of_rcls hstep h.rcls⟩
  · rw [hsubmitted]
    exact h.stream
  · have hstands := h.stands
    cases hposition : m.position <;> rw [hposition] at hstands <;>
      simpa only [StandsAt, hconnect, hsend, hdisconnect] using hstands
  · rw [hsend, hsubmitted]
    exact h.unsent

/-- `mrt_connect` and `mrt_disconnect` leave the calls of `mrt_send` alone. -/
theorem sendParts_of_step {s s' : Sender.State} {act : Sender.Action}
    (hact : act = .mrtConnect ∨ ∃ i, act = .mrtDisconnectContinue i)
    (hstep : Sender.step s act = .ok s') :
    s'.sendCall = s.sendCall ∧ s'.submitted = s.submitted := by
  rcases hact with rfl | ⟨i, rfl⟩ <;> cases Sender.effect_of_step hstep <;> exact ⟨rfl, rfl⟩

/-- A call of `mrt_send` starts when the latest one has returned. -/
theorem mrtSend_of_finished {s : Sender.State} (h : s.sendCall.Finished) (args : Sender.SendArgs) :
    Sender.mrtSend s args =
      { s with sendCall := .firstLookup args, submitted := s.submitted ++ [args.bytes] } := by
  unfold Sender.mrtSend
  split
  · rfl
  · rfl
  · rename_i hother₁ hother₂
    cases hcall : s.sendCall with
    | none => exact absurd hcall hother₁
    | returned value => exact absurd hcall (hother₂ value)
    | _ =>
      rw [hcall] at h
      exact h.elim

/-- A call of `mrt_send` that continues submits nothing, as its bytes were submitted when it was
made. -/
theorem submitted_of_mrtSendContinue {s s' : Sender.State}
    (hstep : Sender.step s .mrtSendContinue = .ok s') :
    s'.submitted = s.submitted ∧ s'.disconnectCalls = s.disconnectCalls ∧
      (s'.sendCall = .none → s.sendCall = .none) := by
  cases Sender.effect_of_step hstep with
  | idle => exact ⟨rfl, rfl, id⟩
  | found hcall | foundAgain hcall | unacknowledged hcall _ _ =>
    refine ⟨rfl, rfl, fun hnone => ?_⟩
    dsimp only at hnone
    split at hnone <;> cases hnone
  | _ => exact ⟨rfl, rfl, fun hnone => by cases hnone⟩

/-- A section of the main thread, whether it takes a call further or reads the next bytes. -/
theorem SenderHolds.move {stdin : List Byte} {s s' : Sender.State} {m m' : SenderMain}
    (h : SenderHolds stdin s m) {act : Sender.Action} (hmove : SenderMove m act s' m')
    (hstep : Sender.step s act = .ok s') : SenderHolds stdin s' m' := by
  have hstands := h.stands
  have hunsent := h.unsent
  have hstream := h.stream
  have hrcls := disconnectCalls_of_rcls hstep h.rcls
  cases hmove with
  | connecting hposition hcall =>
    rw [hposition] at hstands
    obtain ⟨hsend, hsubmitted⟩ := sendParts_of_step (Or.inl rfl) hstep
    have hdisconnect : s'.disconnectCalls = s.disconnectCalls := by
      cases Sender.effect_of_step hstep <;> rfl
    rw [← hsubmitted] at hstream hunsent
    rw [← hsend] at hunsent
    refine ⟨hstream, ?_, hunsent, hrcls⟩
    rw [hposition]
    exact ⟨hcall, hsend.trans hstands.2.1, hdisconnect.trans hstands.2.2⟩
  | connected hposition hcall =>
    rw [hposition] at hstands
    obtain ⟨hsend, hsubmitted⟩ := sendParts_of_step (Or.inl rfl) hstep
    have hdisconnect : s'.disconnectCalls = s.disconnectCalls := by
      cases Sender.effect_of_step hstep <;> rfl
    rw [← hsubmitted] at hstream hunsent
    rw [← hsend] at hunsent
    refine ⟨hstream, ⟨?_, hdisconnect.trans hstands.2.2⟩, hunsent, hrcls⟩
    rw [hsend, hstands.2.1]
    trivial
  | @read numBytesRead _ hposition =>
    rw [hposition] at hstands
    obtain ⟨hfinished, hdisconnect⟩ := hstands
    have hbytes : (m.args numBytesRead).bytes = m.stdin.take numBytesRead := by
      rw [Sender.SendArgs.bytes, SenderMain.args, Int.toNat_natCast, List.take_length]
    rw [Sender.step, mrtSend_of_finished hfinished] at hstep
    cases hstep
    refine ⟨?_, hdisconnect, (fun hnone => by cases hnone), hrcls⟩
    rw [hbytes, List.flatten_append, List.flatten_singleton, List.append_assoc,
      List.take_append_drop]
    exact hstream
  | readEnded hposition =>
    rw [hposition] at hstands
    cases hstep
    exact ⟨hstream, hstands.1, hunsent, hrcls⟩
  | sending hposition =>
    rw [hposition] at hstands
    obtain ⟨hsubmitted, hdisconnect, hnone⟩ := submitted_of_mrtSendContinue hstep
    rw [← hsubmitted] at hstream hunsent
    refine ⟨hstream, ?_, fun hcall => hunsent (hnone hcall), hrcls⟩
    rw [hposition]
    exact hdisconnect.trans hstands
  | sent hposition hcall =>
    rw [hposition] at hstands
    obtain ⟨hsubmitted, hdisconnect, hnone⟩ := submitted_of_mrtSendContinue hstep
    rw [← hsubmitted] at hstream hunsent
    refine ⟨hstream, ⟨?_, hdisconnect.trans hstands⟩, fun hcall => hunsent (hnone hcall), hrcls⟩
    rw [hcall]
    trivial
  | disconnecting hposition =>
    rw [hposition] at hstands
    obtain ⟨hsend, hsubmitted⟩ := sendParts_of_step (Or.inr ⟨0, rfl⟩) hstep
    have hfinished : s.sendCall.Finished := hstands
    rw [← hsubmitted] at hstream hunsent
    rw [← hsend] at hunsent hfinished
    refine ⟨hstream, ?_, hunsent, hrcls⟩
    rw [hposition]
    exact hfinished
  | disconnected hposition =>
    rw [hposition] at hstands
    obtain ⟨hsend, hsubmitted⟩ := sendParts_of_step (Or.inr ⟨0, rfl⟩) hstep
    have hfinished : s.sendCall.Finished := hstands
    rw [← hsubmitted] at hstream hunsent
    rw [← hsend] at hunsent hfinished
    exact ⟨hstream, hfinished, hunsent, hrcls⟩

end NetworkLabs.Mrt.Programs
