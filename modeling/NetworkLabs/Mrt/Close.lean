import NetworkLabs.Foundations.Run
import NetworkLabs.Mrt.SenderEffects

/-!
# Closing a connection

A request to close is encoded in the counter of inactivity: it is set above the
threshold, and the next iteration of `checker` sets the close flag. Every `ADAT`
resets the same counter, so the request lasts only as long as none is handled.
-/

namespace NetworkLabs.Mrt.Sender

open Foundations

/-- A requested close stays requested until a `checker` thread sets the flag. -/
structure ClosesForGood (s : State) : Prop where
  /-- The counter stays above the threshold. -/
  inactive : s.closeRequested = true → closeTimeoutThreshold < s.conn.inactiveTime
  /-- The next iteration of `checker` goes on to set the flag. -/
  next_tick : s.closeRequested = true → ∀ i s', s.checkerThreads[i]? = some .tick →
    step s (.checker i) = .ok s' → s'.checkerThreads[i]? = some .setClose
  /-- Then the flag is set. -/
  sets_flag : ∀ i s', s.checkerThreads[i]? = some .setClose →
    step s (.checker i) = .ok s' → s'.conn.shouldClose = true

/-- The section of `handler` is not one that resets the counter after closing was
requested. -/
def KeepsRequest (s : State) : HandlerThread → Prop
  | .adatTimeout _ _ => s.closeRequested = false
  | _ => True

instance (s : State) (thread : HandlerThread) : Decidable (KeepsRequest s thread) :=
  match thread with
  | .adatTimeout _ _ => inferInstanceAs (Decidable (s.closeRequested = false))
  | .recvfrom | .closeCheck | .acon | .adatAck _ _ | .adatShift _ | .acls | .cleanUp | .ended =>
    isTrue trivial

/-- The counter is above the threshold once closing was requested. -/
def RequestLasts (s : State) : Prop :=
  s.closeRequested = true → closeTimeoutThreshold < s.conn.inactiveTime

/-- While the request lasts `checker` carries it out: its next iteration finds the counter above
the threshold. -/
theorem RequestLasts.closesForGood {s : State} (h : RequestLasts s) : ClosesForGood s := by
  refine ⟨h, fun hrequested i s' hth hstep => ?_, fun i s' hth hstep => ?_⟩
  · have hover : closeTimeoutThreshold < s.conn.inactiveTime + closeTimeoutIncrement := by
      have hlasts := h hrequested
      simp only [closeTimeoutThreshold, closeTimeoutIncrement, emptyDataPeriod, expectedRtt]
        at hlasts ⊢
      omega
    have hi : i < s.checkerThreads.length := (List.getElem?_eq_some_iff.mp hth).1
    rw [step, checker, hth] at hstep
    obtain ⟨-, hstep⟩ := of_useConnection hstep
    cases hstep
    simp only [if_pos hover, List.getElem?_set_self hi]
  · rw [step, checker, hth] at hstep
    obtain ⟨-, hstep⟩ := of_useConnection hstep
    cases hstep
    rfl

/-- A step that handles no `ADAT` after the request keeps the counter above the
threshold. -/
theorem requestLasts_step {s s' : State} {act : Action} (h : RequestLasts s)
    (hcondition : OnHandler KeepsRequest s act) (hstep : step s act = .ok s') :
    RequestLasts s' := by
  cases effect_of_step hstep with
  | requestedClose => exact fun _ => Int.lt_succ _
  | closedByPeer hthread => exact fun _ => Int.lt_succ _
  | refreshed hthread =>
    intro hrequested
    simp only [OnHandler, hthread, KeepsRequest] at hcondition
    exact absurd hrequested (by simp [hcondition])
  | ticked hth =>
    intro hrequested
    have hlasts := h hrequested
    simp only [closeTimeoutThreshold, closeTimeoutIncrement, emptyDataPeriod, expectedRtt]
      at hlasts ⊢
    omega
  | _ => exact h

/-- Closing is irrevocable in exactly the runs in which `handler` resets the counter for
no `ADAT` after closing was requested. -/
theorem closesForGood_iff (acts : List Action) :
    Always step (fun _ s' => ClosesForGood s') initial acts ↔
      Meets step (OnHandler KeepsRequest) initial acts := by
  refine always_iff_meets RequestLasts (fun s act s' h hcondition hstep => ?_)
    (fun s act h hbroken => ?_) (fun hrequested => by cases hrequested)
  · have hnext := requestLasts_step h hcondition hstep
    exact ⟨hnext.closesForGood, hnext⟩
  · cases act with
    | handler =>
      cases hthread : s.handlerThread with
      | adatTimeout frag window =>
        simp only [OnHandler, hthread, KeepsRequest, Bool.not_eq_false] at hbroken
        refine ⟨{ s with
          conn := { s.conn with inactiveTime := 0 }
          handlerThread := .adatAck frag window },
          by rw [step, handler, hthread], fun hcloses => ?_⟩
        have hreset : closeTimeoutThreshold < 0 := hcloses.inactive hbroken
        exact absurd hreset (by decide)
      | _ => exact absurd (by rw [OnHandler, hthread]; trivial) hbroken
    | _ => exact absurd trivial hbroken

/-- An `ADAT` that is in flight when `mrt_disconnect` sets the counter resets it. -/
theorem closesForGood_fails_for_late_adat :
    ¬Always step (fun _ s' => ClosesForGood s') initial
      [.handlerRecvfrom (aconDatagram 0), .handler, .handler,
        .mrtDisconnect, .mrtDisconnectContinue 0, .mrtDisconnectContinue 0,
        .mrtDisconnectContinue 0, .mrtDisconnectContinue 0,
        .handlerRecvfrom (adatDatagram 0 2440), .handler, .handler] := by
  have hrun : someStep step (fun _ s' => s'.closeRequested &&
        decide (s'.conn.inactiveTime ≤ closeTimeoutThreshold)) initial
      [.handlerRecvfrom (aconDatagram 0), .handler, .handler,
        .mrtDisconnect, .mrtDisconnectContinue 0, .mrtDisconnectContinue 0,
        .mrtDisconnectContinue 0, .mrtDisconnectContinue 0,
        .handlerRecvfrom (adatDatagram 0 2440), .handler, .handler] = true := by
    decide +kernel
  refine not_always_of_someStep (fun s s' htest hcloses => ?_) hrun
  obtain ⟨hrequested, hlow⟩ := Bool.and_eq_true_iff.mp htest
  exact Int.not_le.mpr (hcloses.inactive hrequested) (of_decide_eq_true hlow)

end NetworkLabs.Mrt.Sender
