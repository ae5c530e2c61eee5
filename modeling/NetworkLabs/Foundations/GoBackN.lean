import Mathlib.Data.Nat.Notation
import Mathlib.Data.Set.Insert
import Mathlib.Logic.Relation

/-!
# Go-Back-N over an unreliable network

A writer numbers fragments consecutively and transmits any of them at any time.
The reader takes only the fragment it expects next and acknowledges how many it
has taken. Messages in flight form a set from which nothing is removed, so the
network may lose, repeat, delay and reorder them. The rules below are independent
of window sizes, timers and message formats.
-/

namespace Foundations.GoBackN

/-- What has been written, delivered and acknowledged, and what is in flight: numbered
fragments in one direction, counts of delivered fragments in the other. -/
structure State (α : Type*) where
  fragments : List α
  delivered : List α
  acknowledged : ℕ
  data : Set (ℕ × α)
  acks : Set ℕ

variable {α : Type*} {g g' : State α}

/-- Nothing has been sent yet, although something may have been written. -/
structure State.Unused (g : State α) : Prop where
  delivered : g.delivered = []
  acknowledged : g.acknowledged = 0
  data : g.data = ∅
  acks : g.acks = ∅

/-- Nothing has been written or sent, and nothing is in flight. -/
def initial : State α := ⟨[], [], 0, ∅, ∅⟩

/-- The steps of the writer and the reader. What is in flight stays there, as the network may
repeat it. -/
inductive Step (g : State α) : State α → Prop
  /-- A fragment is written. -/
  | write (x : α) : Step g { g with fragments := g.fragments ++ [x] }
  /-- A written fragment is transmitted. -/
  | transmit {i : ℕ} {x : α} (h : g.fragments[i]? = some x) :
      Step g { g with data := insert (i, x) g.data }
  /-- The expected fragment is delivered. -/
  | accept {x : α} (h : (g.delivered.length, x) ∈ g.data) :
      Step g { g with delivered := g.delivered ++ [x] }
  /-- The reader acknowledges what was delivered. -/
  | acknowledge : Step g { g with acks := insert g.delivered.length g.acks }
  /-- The writer handles an acknowledgement that is not outdated. -/
  | advance {n : ℕ} (h : n ∈ g.acks) (hle : g.acknowledged ≤ n) :
      Step g { g with acknowledged := n }

/-- Several steps, or none. -/
abbrev Steps : State α → State α → Prop := Relation.ReflTransGen Step

/-- The states that are reached when nothing has been sent before. -/
def Reachable (g : State α) : Prop := Steps initial g

/-- The reader trails the writer, and the writer's knowledge trails the reader. -/
structure Sound (g : State α) : Prop where
  /-- What was delivered is what was written first. -/
  delivered_written : g.delivered <+: g.fragments
  /-- Only written fragments are in flight. -/
  data_written : ∀ i x, (i, x) ∈ g.data → g.fragments[i]? = some x
  /-- Only delivered fragments are acknowledged. -/
  acks_delivered : ∀ n ∈ g.acks, n ≤ g.delivered.length
  /-- So are the fragments that the writer knows to be delivered. -/
  acknowledged_delivered : g.acknowledged ≤ g.delivered.length

/-- Nothing is delivered when nothing was written. -/
theorem sound_initial : Sound (initial : State α) :=
  ⟨List.prefix_refl [], fun _ _ h => h.elim, fun _ h => h.elim, Nat.le_refl 0⟩

/-- The next fragment extends a prefix of what was written to a longer one. -/
theorem prefix_append_getElem? {xs ys : List α} (h : xs <+: ys) {x : α}
    (hx : ys[xs.length]? = some x) : xs ++ [x] <+: ys := by
  obtain ⟨zs, rfl⟩ := h
  rw [List.getElem?_append_right (Nat.le_refl _), Nat.sub_self] at hx
  cases zs with
  | nil => cases hx
  | cons z zs =>
    cases hx
    exact ⟨zs, List.append_cons xs x zs |>.symm⟩

/-- Every step is sound: whatever fragment or acknowledgement in flight it takes, the invariant
still holds. -/
theorem Sound.step (h : Sound g) (hstep : Step g g') : Sound g' := by
  cases hstep with
  | write x =>
    refine ⟨h.delivered_written.trans (List.prefix_append _ _), fun i y hy => ?_,
      h.acks_delivered, h.acknowledged_delivered⟩
    have hold := h.data_written i y hy
    rw [List.getElem?_append_left (List.getElem?_eq_some_iff.mp hold).1]
    exact hold
  | @transmit i x hx =>
    refine ⟨h.delivered_written, fun j y hy => ?_, h.acks_delivered, h.acknowledged_delivered⟩
    rcases Set.mem_insert_iff.mp hy with hnew | hold
    · cases hnew
      exact hx
    · exact h.data_written j y hold
  | @accept x hx =>
    have hgrows : g.delivered.length ≤ (g.delivered ++ [x]).length := by simp
    exact ⟨prefix_append_getElem? h.delivered_written (h.data_written _ x hx), h.data_written,
      fun n hn => Nat.le_trans (h.acks_delivered n hn) hgrows,
      Nat.le_trans h.acknowledged_delivered hgrows⟩
  | acknowledge =>
    refine ⟨h.delivered_written, h.data_written, fun n hn => ?_, h.acknowledged_delivered⟩
    rcases Set.mem_insert_iff.mp hn with rfl | hold
    · exact Nat.le_refl _
    · exact h.acks_delivered n hold
  | @advance n hn hle =>
    exact ⟨h.delivered_written, h.data_written, h.acks_delivered, h.acks_delivered n hn⟩

/-- Every reachable state is sound, by induction on the steps that lead there. -/
theorem Reachable.sound (h : Reachable g) : Sound g := by
  induction h with
  | refl => exact sound_initial
  | tail hsteps hstep ih => exact ih.step hstep

/-- Further steps reach further states. -/
theorem Reachable.steps (h : Reachable g) (hsteps : Steps g g') : Reachable g' :=
  Relation.ReflTransGen.trans h hsteps

/-- The writer never knows of more fragments than it has written. -/
theorem Sound.acknowledged_written (h : Sound g) : g.acknowledged ≤ g.fragments.length :=
  Nat.le_trans h.acknowledged_delivered h.delivered_written.length_le

/-- When the writer knows of all its fragments, they are delivered. -/
theorem Sound.delivered_eq (h : Sound g) (hall : g.fragments.length ≤ g.delivered.length) :
    g.delivered = g.fragments :=
  h.delivered_written.eq_of_length_le hall

end Foundations.GoBackN
