import NetworkLabs.Foundations.Run

/-!
# Runs that note what they do

A step function together with a history that every step extends. The history does not
influence the steps, so the runs of the two are the same and a property of a run may be
stated with what was noted on the way.
-/

namespace Foundations

variable {σ α ε τ : Type*}

/-- A step that also changes a history according to the state it is taken in. -/
def noted (step : σ → α → Except ε σ) (note : σ → α → τ → τ) (w : σ × τ) (a : α) :
    Except ε (σ × τ) :=
  (step w.1 a).map fun s => (s, note w.1 a w.2)

variable {step : σ → α → Except ε σ} {note : σ → α → τ → τ} {condition : σ → α → Prop} {s : σ}
  {h : τ} {as : List α}

/-- A step that notes what it does succeeds when the step does. -/
theorem noted_eq_ok {w : σ × τ} {a : α} {s' : σ} (hs' : step w.1 a = .ok s') :
    noted step note w a = .ok (s', note w.1 a w.2) := by
  rw [noted, hs']
  rfl

/-- Conditions on the states do not depend on what is noted. -/
theorem meets_noted (hmeets : Meets step condition s as) :
    Meets (noted step note) (fun w => condition w.1) (s, h) as := by
  induction as generalizing s h with
  | nil => trivial
  | cons a as ih =>
    obtain ⟨ha, hrest⟩ := meets_cons.mp hmeets
    refine meets_cons.mpr ⟨ha, fun w hw => ?_⟩
    obtain ⟨s', hs', hpair⟩ := of_map_eq_ok hw
    cases hpair
    exact ih (hrest s' hs')

end Foundations
