import Mathlib.Logic.Basic
import Mathlib.Tactic.ByContra

/-!
# Runs of a labelled step function

A program is a step function that takes an action and either yields the next
state or fails, where a failure stands for behaviour the language leaves
undefined. A run performs a list of actions. The rules below reduce a property
of every state a run can reach to a property of one step.
-/

namespace Foundations

variable {σ α ε : Type*}

/-- Perform a list of actions in order; the first failure ends the run. -/
def run (step : σ → α → Except ε σ) : σ → List α → Except ε σ
  | s, [] => .ok s
  | s, a :: as =>
    match step s a with
    | .ok s' => run step s' as
    | .error e => .error e

/-- Every action of the run meets a condition in the state it is taken in. -/
def Meets (step : σ → α → Except ε σ) (condition : σ → α → Prop) : σ → List α → Prop
  | _, [] => True
  | s, a :: as =>
    condition s a ∧
      match step s a with
      | .ok s' => Meets step condition s' as
      | .error _ => True

/-- The condition on a run can be checked by performing it. -/
instance decidableMeets (step : σ → α → Except ε σ) (condition : σ → α → Prop)
    [∀ s a, Decidable (condition s a)] :
    ∀ (s : σ) (as : List α), Decidable (Meets step condition s as)
  | _, [] => isTrue trivial
  | s, a :: as =>
    have : Decidable (match step s a with
        | .ok s' => Meets step condition s' as
        | .error _ => True) :=
      match step s a with
      | .ok s' => decidableMeets step condition s' as
      | .error _ => isTrue trivial
    inferInstanceAs (Decidable (condition s a ∧ _))

variable {step : σ → α → Except ε σ} {condition : σ → α → Prop} {s t : σ} {as : List α}

/-- A nonempty run that succeeds passes through an intermediate state. -/
theorem run_cons_eq_ok {a : α} :
    run step s (a :: as) = .ok t ↔ ∃ s', step s a = .ok s' ∧ run step s' as = .ok t := by
  rw [run]
  cases step s a with
  | ok s' => simp
  | error e => simp

/-- A run can be continued where it ends. -/
theorem run_append {u : σ} {bs : List α} (h : run step s as = .ok u)
    (h' : run step u bs = .ok t) : run step s (as ++ bs) = .ok t := by
  induction as generalizing s with
  | nil =>
    cases h
    exact h'
  | cons a as ih =>
    obtain ⟨s', hs', hrest⟩ := run_cons_eq_ok.mp h
    exact run_cons_eq_ok.mpr ⟨s', hs', ih hrest⟩

/-- The condition on the first action and on the rest of the run. -/
theorem meets_cons {a : α} :
    Meets step condition s (a :: as) ↔
      condition s a ∧ ∀ s', step s a = .ok s' → Meets step condition s' as := by
  rw [Meets]
  cases step s a with
  | ok s' => simp
  | error e => simp

/-- A run meets a condition that its actions meet in every state. -/
theorem meets_of_forall (h : ∀ a ∈ as, ∀ s, condition s a) : Meets step condition s as := by
  induction as generalizing s with
  | nil => trivial
  | cons a as ih =>
    obtain ⟨ha, hrest⟩ := List.forall_mem_cons.mp h
    exact meets_cons.mpr ⟨ha s, fun _ _ => ih hrest⟩

/-- A run that meets two conditions meets their conjunction. -/
theorem Meets.and {condition' : σ → α → Prop} (h : Meets step condition s as)
    (h' : Meets step condition' s as) :
    Meets step (fun s a => condition s a ∧ condition' s a) s as := by
  induction as generalizing s with
  | nil => trivial
  | cons a as ih =>
    obtain ⟨ha, hrest⟩ := meets_cons.mp h
    obtain ⟨ha', hrest'⟩ := meets_cons.mp h'
    exact meets_cons.mpr ⟨⟨ha, ha'⟩, fun s' hs' => ih (hrest s' hs') (hrest' s' hs')⟩

/-- Invariant rule: what every step that meets the condition preserves holds at
the end of every run whose steps all meet it. -/
theorem invariant_of_run {Inv : σ → Prop}
    (hstep : ∀ s a s', Inv s → condition s a → step s a = .ok s' → Inv s')
    (hinit : Inv s) (hmeets : Meets step condition s as) (hrun : run step s as = .ok t) :
    Inv t := by
  induction as generalizing s with
  | nil =>
    cases hrun
    exact hinit
  | cons a as ih =>
    obtain ⟨s', hs', hrest⟩ := run_cons_eq_ok.mp hrun
    obtain ⟨ha, hmeets'⟩ := meets_cons.mp hmeets
    exact ih (hstep s a s' hinit ha hs') (hmeets' s' hs') hrest

/-- Invariant rule without a condition: what every step preserves holds at the end of
every run. -/
theorem invariant_of_steps {Inv : σ → Prop} (hstep : ∀ s a s', Inv s → step s a = .ok s' → Inv s')
    (hinit : Inv s) (hrun : run step s as = .ok t) : Inv t := by
  induction as generalizing s with
  | nil =>
    cases hrun
    exact hinit
  | cons a as ih =>
    obtain ⟨s', hs', hrest⟩ := run_cons_eq_ok.mp hrun
    exact ih (hstep s a s' hinit hs') hrest

/-- No step of the run fails, and each relates the states before and after it. -/
def Safely (step : σ → α → Except ε σ) (relation : σ → σ → Prop) : σ → List α → Prop
  | _, [] => True
  | s, a :: as => ∃ s', step s a = .ok s' ∧ relation s s' ∧ Safely step relation s' as

/-- Every step of the run that succeeds relates the states before and after it. -/
def Always (step : σ → α → Except ε σ) (relation : σ → σ → Prop) : σ → List α → Prop
  | _, [] => True
  | s, a :: as => ∀ s', step s a = .ok s' → relation s s' ∧ Always step relation s' as

/-- Relational invariant rule: what every step that meets the condition does under an
invariant, it does in every run whose steps all meet the condition. -/
theorem always_of_meets {Inv : σ → Prop} {relation : σ → σ → Prop}
    (hstep : ∀ s a s', Inv s → condition s a → step s a = .ok s' → relation s s' ∧ Inv s')
    (hinit : Inv s) (hmeets : Meets step condition s as) : Always step relation s as := by
  induction as generalizing s with
  | nil => trivial
  | cons a as ih =>
    intro s' hs'
    obtain ⟨ha, hrest⟩ := meets_cons.mp hmeets
    obtain ⟨hrelation, hinv⟩ := hstep s a s' hinit ha hs'
    exact ⟨hrelation, ih hinv (hrest s' hs')⟩

/-- Relational invariant rule without a condition: every step relates its two states, and the
invariant carries on. -/
theorem always_of_steps {Inv : σ → Prop} {relation : σ → σ → Prop}
    (hstep : ∀ s a s', Inv s → step s a = .ok s' → relation s s' ∧ Inv s')
    (hinit : Inv s) : Always step relation s as := by
  induction as generalizing s with
  | nil => trivial
  | cons a as ih =>
    intro s' hs'
    obtain ⟨hrelation, hinv⟩ := hstep s a s' hinit hs'
    exact ⟨hrelation, ih hinv⟩

/-- Exactness rule for relations: if under an invariant a step that meets the condition
keeps the relation and any other one breaks it, then the relation always holds in
exactly the runs whose steps all meet the condition. -/
theorem always_iff_meets (Inv : σ → Prop) {relation : σ → σ → Prop}
    (hstep : ∀ s a s', Inv s → condition s a → step s a = .ok s' → relation s s' ∧ Inv s')
    (hbreak : ∀ s a, Inv s → ¬condition s a → ∃ s', step s a = .ok s' ∧ ¬relation s s')
    (hinit : Inv s) : Always step relation s as ↔ Meets step condition s as := by
  constructor
  · intro halways
    induction as generalizing s with
    | nil => trivial
    | cons a as ih =>
      have ha : condition s a := by
        by_contra hnot
        obtain ⟨s', hs', hbroken⟩ := hbreak s a hinit hnot
        exact hbroken (halways s' hs').1
      rw [meets_cons]
      constructor
      · exact ha
      · intro s' hs'
        exact ih (hstep s a s' hinit ha hs').2 (halways s' hs').2
  · exact always_of_meets hstep hinit

/-- Exactness rule: if within a scope a step succeeds exactly under the condition,
then a run within the scope is safe exactly when all its steps meet the condition. -/
theorem safely_iff_meets (Inv : σ → Prop) {scope : α → Prop} {relation : σ → σ → Prop}
    (hok : ∀ s a, Inv s → scope a → ((∃ s', step s a = .ok s') ↔ condition s a))
    (hstep : ∀ s a s', Inv s → scope a → step s a = .ok s' → relation s s' ∧ Inv s')
    (hinit : Inv s) (hscope : ∀ a ∈ as, scope a) :
    Safely step relation s as ↔ Meets step condition s as := by
  induction as generalizing s with
  | nil => exact iff_of_true trivial trivial
  | cons a as ih =>
    have ha : scope a := hscope a List.mem_cons_self
    have hrest : ∀ b ∈ as, scope b := fun b hb => hscope b (List.mem_cons_of_mem a hb)
    rw [meets_cons]
    constructor
    · rintro ⟨s', hs', hrelation, hsafe⟩
      refine ⟨(hok s a hinit ha).mp ⟨s', hs'⟩, fun t ht => ?_⟩
      cases hs'.symm.trans ht
      exact (ih (hstep s a s' hinit ha hs').2 hrest).mp hsafe
    · rintro ⟨hcondition, hmeets⟩
      obtain ⟨s', hs'⟩ := (hok s a hinit ha).mpr hcondition
      obtain ⟨hrelation, hinv⟩ := hstep s a s' hinit ha hs'
      exact ⟨s', hs', hrelation, (ih hinv hrest).mpr (hmeets s' hs')⟩

/-- Safety rule: if under an invariant every step that meets the condition succeeds and relates
the states, then every run whose steps all meet the condition is safe. -/
theorem safely_of_meets (Inv : σ → Prop) {relation : σ → σ → Prop}
    (hstep : ∀ s a, Inv s → condition s a → ∃ s', step s a = .ok s' ∧ relation s s' ∧ Inv s')
    (hinit : Inv s) (hmeets : Meets step condition s as) : Safely step relation s as := by
  induction as generalizing s with
  | nil => trivial
  | cons a as ih =>
    obtain ⟨ha, hrest⟩ := meets_cons.mp hmeets
    obtain ⟨s', hs', hrelation, hinv⟩ := hstep s a hinit ha
    exact ⟨s', hs', hrelation, ih hinv (hrest s' hs')⟩

/-- Total rule: if under an invariant every step succeeds and relates the states, then
every run is safe. -/
theorem safely_of_total (Inv : σ → Prop) {relation : σ → σ → Prop}
    (hstep : ∀ s a, Inv s → ∃ s', step s a = .ok s' ∧ relation s s' ∧ Inv s')
    (hinit : Inv s) : Safely step relation s as := by
  induction as generalizing s with
  | nil => trivial
  | cons a as ih =>
    obtain ⟨s', hs', hrelation, hinv⟩ := hstep s a hinit
    exact ⟨s', hs', hrelation, ih hinv⟩

/-- A run that fails is not safe. -/
theorem not_safely_of_run_eq_error {relation : σ → σ → Prop} {e : ε}
    (h : run step s as = .error e) : ¬Safely step relation s as := by
  induction as generalizing s with
  | nil => cases h
  | cons a as ih =>
    rintro ⟨s', hs', hrelation, hsafe⟩
    rw [run, hs'] at h
    exact ih h hsafe

/-- A step that is made on a part of the state succeeds when that part does. -/
theorem of_map_eq_ok {τ : Type*} {next : Except ε σ} {f : σ → τ} {t : τ}
    (h : next.map f = .ok t) : ∃ s, next = .ok s ∧ f s = t := by
  cases next with
  | error e => cases h
  | ok s => exact ⟨s, rfl, Except.ok.inj h⟩

/-- Two steps in a row succeed when both do. -/
theorem of_bind_eq_ok {τ : Type*} {first : Except ε σ} {next : σ → Except ε τ} {t : τ}
    (h : first.bind next = .ok t) : ∃ s, first = .ok s ∧ next s = .ok t := by
  cases first with
  | error e => cases h
  | ok s => exact ⟨s, rfl, h⟩

/-- A test of the final state of a run, false when the run fails. -/
def endsWith (r : Except ε σ) (test : σ → Bool) : Bool :=
  match r with
  | .ok s => test s
  | .error _ => false

/-- A passed test exhibits the final state of the run. -/
theorem exists_of_endsWith {r : Except ε σ} {test : σ → Bool} (h : endsWith r test = true) :
    ∃ s, r = .ok s ∧ test s = true := by
  cases r with
  | ok s => exact ⟨s, rfl, h⟩
  | error e => simp [endsWith] at h

/-- A test whether some step of a run passes a test of the states before and after it. -/
def someStep (step : σ → α → Except ε σ) (test : σ → σ → Bool) : σ → List α → Bool
  | _, [] => false
  | s, a :: as => endsWith (step s a) fun s' => test s s' || someStep step test s' as

/-- A passed test refutes a relation that it contradicts. -/
theorem not_always_of_someStep {relation : σ → σ → Prop} {test : σ → σ → Bool}
    (htest : ∀ t t', test t t' = true → ¬relation t t')
    (h : someStep step test s as = true) : ¬Always step relation s as := by
  induction as generalizing s with
  | nil => cases h
  | cons a as ih =>
    obtain ⟨s', hs', hsome⟩ := exists_of_endsWith h
    intro halways
    obtain ⟨hrelation, hrest⟩ := halways s' hs'
    rcases Bool.or_eq_true_iff.mp hsome with hnow | hlater
    · exact htest s s' hnow hrelation
    · exact ih hlater hrest

/-- A test for the failure a run ends with, which can be computed. -/
def failsWith [DecidableEq ε] (r : Except ε σ) (e : ε) : Bool :=
  match r with
  | .ok _ => false
  | .error e' => decide (e' = e)

/-- A passed test identifies the failure, so that a computation says what a run ends with. -/
theorem eq_error_of_failsWith [DecidableEq ε] {r : Except ε σ} {e : ε}
    (h : failsWith r e = true) : r = .error e := by
  cases r with
  | ok s => simp [failsWith] at h
  | error e' => exact congrArg Except.error (of_decide_eq_true h)

end Foundations
