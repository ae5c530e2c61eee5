import Mathlib.Data.Nat.Find
import Mathlib.Logic.Function.Iterate
import Mathlib.Tactic.Choose

/-!
# Loops that read from outside

A loop has a guard and a body, and the body takes an input from outside in every iteration.
The loop ends if the guard fails at some time whatever the inputs are. A loop that can be
kept in a trap does not end, and one that makes progress everywhere else ends exactly if it
never comes to a trap.
-/

namespace Foundations

/-- A loop whose body takes an input from outside, such as bytes that the program does not
determine. -/
structure While (σ ι : Type*) where
  guard : σ → Prop
  body : σ → ι → σ

namespace While

variable {σ ι : Type*} (loop : While σ ι)

/-- The state after some executions of the body, with the first inputs. -/
def after (inputs : ℕ → ι) (s : σ) : ℕ → σ
  | 0 => s
  | n + 1 => loop.body (after inputs s n) (inputs n)

/-- The loop performs exactly some number of iterations, with the inputs that come. -/
def EndsAfter (inputs : ℕ → ι) (s : σ) (n : ℕ) : Prop :=
  (∀ k < n, loop.guard (loop.after inputs s k)) ∧ ¬loop.guard (loop.after inputs s n)

/-- The loop performs finitely many iterations, whatever the inputs are. -/
def Ends (s : σ) : Prop := ∀ inputs, ∃ n, loop.EndsAfter inputs s n

/-- The loop comes from one state at its guard to another one. -/
inductive Reaches (s : σ) : σ → Prop
  | refl : Reaches s s
  | next {t : σ} (h : Reaches s t) (hguard : loop.guard t) (input : ι) :
    Reaches s (loop.body t input)

variable {loop} {s t : σ} {inputs : ℕ → ι} {n : ℕ}

/-- The first iteration can be taken off. -/
theorem after_succ (inputs : ℕ → ι) (s : σ) (n : ℕ) :
    loop.after inputs s (n + 1) =
      loop.after (fun k => inputs (k + 1)) (loop.body s (inputs 0)) n := by
  induction n with
  | zero => rfl
  | succ n ih => rw [after, ih, after]

/-- A loop whose guard fails at some time has ended then or before. -/
theorem exists_endsAfter (h : ¬loop.guard (loop.after inputs s n)) :
    ∃ m, loop.EndsAfter inputs s m := by
  classical
  have hex : ∃ m, ¬loop.guard (loop.after inputs s m) := ⟨n, h⟩
  refine ⟨Nat.find hex, ?_, Nat.find_spec hex⟩
  intro k hk
  exact not_not.mp (Nat.find_min hex hk)

/-- One more iteration in front, with an input of its own. -/
theorem EndsAfter.succ (hguard : loop.guard s)
    (h : loop.EndsAfter (fun k => inputs (k + 1)) (loop.body s (inputs 0)) n) :
    loop.EndsAfter inputs s (n + 1) := by
  constructor
  · intro k hk
    cases k with
    | zero => exact hguard
    | succ k =>
      rw [after_succ]
      exact h.1 k (Nat.lt_of_succ_lt_succ hk)
  · rw [after_succ]
    exact h.2

/-- A loop ends if its guard fails or every execution of the body leads to where it ends. -/
theorem ends_of_body (h : loop.guard s → ∀ input, loop.Ends (loop.body s input)) :
    loop.Ends s := by
  intro inputs
  by_cases hguard : loop.guard s
  · obtain ⟨n, hn⟩ := h hguard (inputs 0) fun k => inputs (k + 1)
    exact ⟨n + 1, hn.succ hguard⟩
  · exact exists_endsAfter (n := 0) hguard

/-- A loop that ends also does so after an execution of its body. -/
theorem Ends.body (h : loop.Ends s) (hguard : loop.guard s) (input : ι) :
    loop.Ends (loop.body s input) := by
  intro inputs
  obtain ⟨n, -, hn⟩ := h fun
    | 0 => input
    | k + 1 => inputs k
  cases n with
  | zero => exact absurd hguard hn
  | succ n =>
    rw [after_succ] at hn
    exact exists_endsAfter hn

/-- A loop that ends does so from every state that it comes to. -/
theorem Ends.of_reaches (h : loop.Ends s) (hreach : loop.Reaches s t) : loop.Ends t := by
  induction hreach with
  | refl => exact h
  | next hreach hguard input ih => exact ih.body hguard input

/-- Progress rule: under an invariant that the body keeps, a measure that it decreases makes
the loop end. -/
theorem ends_of_measure (Inv : σ → Prop) (measure : σ → ℕ)
    (hbody : ∀ t, Inv t → loop.guard t → ∀ input,
      Inv (loop.body t input) ∧ measure (loop.body t input) < measure t)
    (hinit : Inv s) : loop.Ends s := by
  induction hm : measure s using Nat.strong_induction_on generalizing s with
  | h m ih =>
    apply ends_of_body
    intro hguard input
    obtain ⟨hinv, hlt⟩ := hbody s hinit hguard input
    exact ih _ (hm ▸ hlt) hinv rfl

/-- Trap rule: inputs that keep the loop where its guard holds make it run forever. -/
theorem not_ends_of_trap {Trap : σ → Prop}
    (htrap : ∀ t, Trap t → loop.guard t ∧ ∃ input, Trap (loop.body t input)) (hs : Trap s) :
    ¬loop.Ends s := by
  choose hguard input hinput using htrap
  let next (t : {t // Trap t}) : {t // Trap t} := ⟨loop.body t (input t t.2), hinput t t.2⟩
  let states (n : ℕ) := next^[n] ⟨s, hs⟩
  let inputs (n : ℕ) := input (states n) (states n).2
  have hafter : ∀ n, loop.after inputs s n = states n := by
    intro n
    induction n with
    | zero => rfl
    | succ n ih =>
      have hstates : states (n + 1) = next (states n) := Function.iterate_succ_apply' next n _
      rw [after, ih, hstates]
  intro hends
  obtain ⟨n, -, hn⟩ := hends inputs
  apply hn
  rw [hafter]
  exact hguard _ (states n).2

/-- Exactness rule: a loop that can be kept in a trap and makes progress everywhere else ends if
and only if it never comes to the trap. -/
theorem ends_iff_of_trap {Trap : σ → Prop} (measure : σ → ℕ)
    (htrap : ∀ t, Trap t → loop.guard t ∧ ∃ input, Trap (loop.body t input))
    (hprogress : ∀ t, loop.guard t → ¬Trap t → ∀ input,
      measure (loop.body t input) < measure t) :
    loop.Ends s ↔ ∀ t, loop.Reaches s t → ¬Trap t := by
  constructor
  · intro hends t hreach ht
    exact not_ends_of_trap htrap ht (hends.of_reaches hreach)
  · intro hfree
    apply ends_of_measure (loop.Reaches s) measure
    · intro t hreach hguard input
      exact ⟨hreach.next hguard input, hprogress t hguard (hfree t hreach) input⟩
    · exact .refl

end While

end Foundations
