import Mathlib.Algebra.GroupWithZero.Nat
import NetworkLabs.Foundations.Run

/-!
# What a system can still reach

A system that never gets stuck can always go on to what it is for. That allowed actions can
lead to a goal is shown in stages, each of which takes some steps or comes closer to the goal
by a measure, while the invariants of the allowed actions are kept.
-/

namespace Foundations

variable {σ α ε : Type*}

/-- Allowed actions can lead from the state to one in which the goal holds. -/
def CanReach (step : σ → α → Except ε σ) (allowed : α → Prop) (goal : σ → Prop) (s : σ) : Prop :=
  ∃ as t, (∀ a ∈ as, allowed a) ∧ run step s as = .ok t ∧ goal t

variable {step : σ → α → Except ε σ} {allowed : α → Prop} {goal : σ → Prop} {s s' : σ}

/-- The goal holds already, and no step is needed. -/
theorem canReach_now (h : goal s) : CanReach step allowed goal s :=
  ⟨[], s, fun _ ha => absurd ha List.not_mem_nil, rfl, h⟩

/-- An allowed step leads to a state from which the goal can be reached. -/
theorem canReach_step {a : α} (ha : allowed a) (hs' : step s a = .ok s')
    (h : CanReach step allowed goal s') : CanReach step allowed goal s := by
  obtain ⟨as, t, has, hrun, hgoal⟩ := h
  exact ⟨a :: as, t, List.forall_mem_cons.mpr ⟨ha, has⟩, run_cons_eq_ok.mpr ⟨s', hs', hrun⟩, hgoal⟩

/-- Stages follow each other: what can be reached from every state of a stage can be reached
from where the stage can. -/
theorem CanReach.trans {stage : σ → Prop} (h : CanReach step allowed stage s)
    (hrest : ∀ t, stage t → CanReach step allowed goal t) : CanReach step allowed goal s := by
  obtain ⟨as, t, has, hrun, hstage⟩ := h
  obtain ⟨bs, u, hbs, hrun', hgoal⟩ := hrest t hstage
  refine ⟨as ++ bs, u, ?_, run_append hrun hrun', hgoal⟩
  intro a ha
  exact (List.mem_append.mp ha).elim (has a) (hbs a)

/-- A weaker goal can be reached by more actions. -/
theorem CanReach.mono {allowed' : α → Prop} {goal' : σ → Prop} (h : CanReach step allowed goal s)
    (hallowed : ∀ a, allowed a → allowed' a) (hgoal : ∀ t, goal t → goal' t) :
    CanReach step allowed' goal' s := by
  obtain ⟨as, t, has, hrun, ht⟩ := h
  exact ⟨as, t, fun a ha => hallowed a (has a ha), hrun, hgoal t ht⟩

/-- What every allowed step keeps holds when the goal is reached. -/
theorem CanReach.keeping {Inv : σ → Prop} (h : CanReach step allowed goal s)
    (hstep : ∀ s a s', Inv s → allowed a → step s a = .ok s' → Inv s') (hinit : Inv s) :
    CanReach step allowed (fun t => Inv t ∧ goal t) s := by
  obtain ⟨as, t, has, hrun, hgoal⟩ := h
  have hmeets : Meets step (fun _ a => allowed a) s as := meets_of_forall fun a ha _ => has a ha
  exact ⟨as, t, has, hrun, invariant_of_run hstep hinit hmeets hrun, hgoal⟩

/-- Measure rule: if from every state of the invariant the goal can be reached or a state of the
invariant with a smaller measure, then the goal can be reached. -/
theorem canReach_of_measure (Inv : σ → Prop) (measure : σ → ℕ)
    (hcloser : ∀ s, Inv s →
      CanReach step allowed (fun t => goal t ∨ Inv t ∧ measure t < measure s) s)
    (hinit : Inv s) : CanReach step allowed goal s := by
  induction hn : measure s using Nat.strongRecOn generalizing s with
  | ind n ih =>
    subst hn
    refine (hcloser s hinit).trans fun t ht => ?_
    rcases ht with hnow | ⟨hinv, hless⟩
    · exact canReach_now hnow
    · exact ih (measure t) hless hinv rfl

/-- The measure of a list of parts is lower when one part is closer to its end. -/
theorem sum_map_set_lt {β : Type*} {f : β → ℕ} {xs : List β} {i : ℕ} {x y : β}
    (hx : xs[i]? = some x) (hless : f y < f x) : ((xs.set i y).map f).sum < (xs.map f).sum := by
  induction xs generalizing i with
  | nil => cases hx
  | cons z xs ih =>
    cases i with
    | zero =>
      cases hx
      simpa using hless
    | succ i => simpa using ih hx

/-- What a part of the system can reach the system can reach, and only this part changes. -/
theorem CanReach.embed {τ β : Type*} {partStep : τ → β → Except ε τ} {partAllowed : β → Prop}
    {partGoal : τ → Prop} {u : τ} (h : CanReach partStep partAllowed partGoal u)
    (place : τ → σ) (act : β → α) (hallowed : ∀ b, partAllowed b → allowed (act b))
    (hstep : ∀ u b u', partAllowed b → partStep u b = .ok u' →
      step (place u) (act b) = .ok (place u')) :
    CanReach step allowed (fun t => ∃ u', partGoal u' ∧ t = place u') (place u) := by
  obtain ⟨bs, u', hbs, hrun, hgoal⟩ := h
  induction bs generalizing u with
  | nil =>
    cases hrun
    exact canReach_now ⟨u', hgoal, rfl⟩
  | cons b bs ih =>
    obtain ⟨hb, hrest⟩ := List.forall_mem_cons.mp hbs
    obtain ⟨v, hv, hrun'⟩ := run_cons_eq_ok.mp hrun
    exact canReach_step (hallowed b hb) (hstep u b v hb hv) (ih hrest hrun')

end Foundations
