import Mathlib.Data.Nat.Notation
import NetworkLabs.Foundations.Run

/-!
# Bounded response

Some steps of a run are counted, such as the iterations of a loop. If every counted step
lowers a rank until what is awaited happens, and no other step raises it, then a run with
more counted steps than the rank contains what is awaited.
-/

namespace Foundations

variable {σ α ε : Type*}

/-- Some step of the run relates the states before and after it. -/
def Sometime (step : σ → α → Except ε σ) (relation : σ → σ → Prop) : σ → List α → Prop
  | _, [] => False
  | s, a :: as => ∃ s', step s a = .ok s' ∧ (relation s s' ∨ Sometime step relation s' as)

/-- The number of the counted steps of a run, up to where it fails. -/
def countSteps (step : σ → α → Except ε σ) (counts : σ → α → Bool) : σ → List α → ℕ
  | _, [] => 0
  | s, a :: as =>
    (if counts s a then 1 else 0) +
      match step s a with
      | .ok s' => countSteps step counts s' as
      | .error _ => 0

variable {step : σ → α → Except ε σ} {condition : σ → α → Prop} {counts : σ → α → Bool}
  {relation : σ → σ → Prop} {s t : σ} {as : List α}

/-- The counted steps after the first step. -/
theorem countSteps_cons {a : α} {s' : σ} (hs' : step s a = .ok s') :
    countSteps step counts s (a :: as) =
      (if counts s a then 1 else 0) + countSteps step counts s' as := by
  rw [countSteps, hs']

/-- Bound rule: a rank that every counted step lowers, and no other step raises, bounds the
number of counted steps. -/
theorem countSteps_le (Inv : σ → Prop) (rank : σ → ℕ)
    (hstep : ∀ s a s', Inv s → step s a = .ok s' →
      Inv s' ∧ (if counts s a then 1 else 0) + rank s' ≤ rank s)
    (herror : ∀ s a e, step s a = .error e → counts s a = false) (hinit : Inv s) :
    countSteps step counts s as ≤ rank s := by
  induction as generalizing s with
  | nil => exact Nat.zero_le _
  | cons a as ih =>
    cases hs' : step s a with
    | error e =>
      rw [countSteps, hs', herror s a e hs']
      exact Nat.zero_le _
    | ok s' =>
      obtain ⟨hinv, hrank⟩ := hstep s a s' hinit hs'
      have hrest := ih hinv
      rw [countSteps_cons hs']
      omega

/-- Ranking rule: what every counted step that meets the condition brings closer, and no
other step defers, happens in a run with more counted steps than the rank. -/
theorem sometime_of_rank (Inv : σ → Prop) (rank : σ → ℕ)
    (hstep : ∀ s a s', Inv s → condition s a → step s a = .ok s' →
      relation s s' ∨ Inv s' ∧ (if counts s a then 1 else 0) + rank s' ≤ rank s)
    (hinit : Inv s) (hmeets : Meets step condition s as) (hrun : run step s as = .ok t)
    (hcount : rank s < countSteps step counts s as) : Sometime step relation s as := by
  induction as generalizing s with
  | nil => exact absurd hcount (Nat.not_lt_zero _)
  | cons a as ih =>
    obtain ⟨s', hs', hrest⟩ := run_cons_eq_ok.mp hrun
    obtain ⟨ha, hmeets'⟩ := meets_cons.mp hmeets
    refine ⟨s', hs', ?_⟩
    rcases hstep s a s' hinit ha hs' with hnow | ⟨hinv, hrank⟩
    · exact Or.inl hnow
    · rw [countSteps_cons hs'] at hcount
      exact Or.inr (ih hinv (hmeets' s' hs') hrest (by omega))

end Foundations
