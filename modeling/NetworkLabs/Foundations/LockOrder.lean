import Mathlib.Data.Set.Finite.Lemmas
import Mathlib.Data.Set.Finite.Range
import NetworkLabs.Foundations.Run

/-!
# Programs that take their mutexes in order

A thread is seen through the mutexes it locks and unlocks; what it computes only shows in
the branches it takes, which are left open. If every program locks along a rank and holds
nothing where a loop iteration ends, no set of threads can wait for itself.
-/

namespace Foundations

universe u v w

/-- A structured program over mutexes `μ`, with open choices from `κ`. -/
inductive Cmd (μ : Type u) (κ : Type v) where
  | skip
  | lock (m : μ)
  | unlock (m : μ)
  | seq (c d : Cmd μ κ)
  /-- A test on data that is not modelled. -/
  | branch (c d : Cmd μ κ)
  /-- A value that depends on data that is not modelled. -/
  | choose (f : κ → Cmd μ κ)
  /-- `while (1)`. -/
  | loop (body : Cmd μ κ)
  | breakLoop
  | continueLoop
  | returnNow

/-- Statements one after the other, as in a block of braces. -/
def Cmd.block {μ : Type u} {κ : Type v} : List (Cmd μ κ) → Cmd μ κ
  | [] => .skip
  | c :: cs => .seq c (block cs)

/-- What a thread has yet to do: a command, or another iteration of a loop. -/
inductive Todo (μ : Type u) (κ : Type v) where
  | cmd (c : Cmd μ κ)
  | again (body : Cmd μ κ)

/-- A thread with the mutexes it holds and what is left for it to do. -/
structure Thread (μ : Type u) (κ : Type v) where
  todo : List (Todo μ κ)
  held : List μ

/-- The outcome of an open test and of an open value. -/
structure Choice (κ : Type v) where
  left : Bool
  pick : κ

/-- A mutex is unlocked by a thread that does not hold it. -/
inductive LockFault where
  | notHeld
  deriving DecidableEq, Repr

variable {μ : Type u} {κ : Type v}

/-- The end of the innermost loop's body, which `continue` goes to. -/
def unwind : List (Todo μ κ) → List (Todo μ κ)
  | [] => []
  | .again c :: k => .again c :: k
  | .cmd _ :: k => unwind k

section Semantics

variable [DecidableEq μ]

/-- One step of a thread, where `free` tells which mutexes nobody holds. A thread that
needs a held mutex waits. -/
def Thread.advance (free : μ → Bool) (choice : Choice κ) (t : Thread μ κ) :
    Except LockFault (Thread μ κ) :=
  match t.todo with
  | [] => .ok t
  | .again c :: k => .ok { t with todo := .cmd c :: .again c :: k }
  | .cmd .skip :: k => .ok { t with todo := k }
  | .cmd (.lock m) :: k =>
    if free m then .ok { todo := k, held := m :: t.held } else .ok t
  | .cmd (.unlock m) :: k =>
    if m ∈ t.held then .ok { todo := k, held := t.held.erase m } else .error .notHeld
  | .cmd (.seq c d) :: k => .ok { t with todo := .cmd c :: .cmd d :: k }
  | .cmd (.branch c d) :: k =>
    .ok { t with todo := .cmd (if choice.left then c else d) :: k }
  | .cmd (.choose f) :: k => .ok { t with todo := .cmd (f choice.pick) :: k }
  | .cmd (.loop c) :: k => .ok { t with todo := .cmd c :: .again c :: k }
  | .cmd .breakLoop :: k => .ok { t with todo := (unwind k).tail }
  | .cmd .continueLoop :: k => .ok { t with todo := unwind k }
  | .cmd .returnNow :: _ => .ok { t with todo := [] }

/-- A new thread is started or an existing one makes a step. -/
inductive ThreadAction (π : Type w) (κ : Type v) where
  | start (p : π)
  | advance (i : ℕ) (choice : Choice κ)

/-- The threads of a program, of which any number may be started. -/
def threadStep {π : Type w} (program : π → Cmd μ κ) (threads : List (Thread μ κ)) :
    ThreadAction π κ → Except LockFault (List (Thread μ κ))
  | .start p => .ok (threads ++ [{ todo := [.cmd (program p)], held := [] }])
  | .advance i choice =>
    match threads[i]? with
    | some t =>
      (t.advance (fun m => threads.all fun u => m ∉ u.held) choice).map (threads.set i)
    | none => .ok threads

end Semantics

/-- The mutex that the thread locks next, if its next command is to lock one. -/
def Thread.awaits (t : Thread μ κ) : Option μ :=
  match t.todo with
  | .cmd (.lock m) :: _ => some m
  | _ => none

/-- A nonempty set of threads each of which waits for a mutex that the set holds. -/
def Deadlocked (threads : List (Thread μ κ)) (D : Set ℕ) : Prop :=
  D.Nonempty ∧ ∀ i ∈ D, ∃ t m, threads[i]? = some t ∧ t.awaits = some m ∧
    ∃ j ∈ D, ∃ u, threads[j]? = some u ∧ m ∈ u.held

/-- The thread is about to leave a loop iteration, or returns or has returned. -/
def Thread.LeavesIteration (t : Thread μ κ) : Prop :=
  match t.todo with
  | [] | .again _ :: _ | .cmd .breakLoop :: _ | .cmd .continueLoop :: _
  | .cmd .returnNow :: _ => True
  | _ => False

/-- There is no deadlock, and no mutex is held where an iteration or a thread ends. -/
structure LocksSafe (threads : List (Thread μ κ)) : Prop where
  no_deadlock : ∀ D, ¬Deadlocked threads D
  released : ∀ t ∈ threads, t.LeavesIteration → t.held = []

variable {ι : Type*} [LinearOrder ι] [DecidableEq μ] {rank : μ → ι}

/-- The precondition under which a command locks only above what is held, unlocks only what
is held, leaves iterations with nothing held, and establishes `Q` if it completes. -/
def Cmd.Pre (rank : μ → ι) : Cmd μ κ → (List μ → Prop) → List μ → Prop
  | .skip, Q, held => Q held
  | .lock m, Q, held => (∀ m' ∈ held, rank m' < rank m) ∧ Q (m :: held)
  | .unlock m, Q, held => m ∈ held ∧ Q (held.erase m)
  | .seq c d, Q, held => c.Pre rank (d.Pre rank Q) held
  | .branch c d, Q, held => c.Pre rank Q held ∧ d.Pre rank Q held
  | .choose f, Q, held => ∀ x, (f x).Pre rank Q held
  | .loop c, Q, held => held = [] ∧ c.Pre rank (· = []) [] ∧ Q []
  | .breakLoop, _, held | .continueLoop, _, held | .returnNow, _, held => held = []

/-- A program that takes its mutexes in the order of the rank. -/
def Cmd.Ordered (rank : μ → ι) (c : Cmd μ κ) : Prop := c.Pre rank (· = []) []

/-- A weaker postcondition has a weaker precondition. -/
theorem Cmd.Pre.mono {c : Cmd μ κ} {Q Q' : List μ → Prop} {held : List μ}
    (h : c.Pre rank Q held) (hQ : ∀ held, Q held → Q' held) : c.Pre rank Q' held := by
  induction c generalizing Q Q' held with
  | skip => exact hQ held h
  | lock m => exact ⟨h.1, hQ _ h.2⟩
  | unlock m => exact ⟨h.1, hQ _ h.2⟩
  | seq c d ihc ihd => exact ihc h fun held hd => ihd hd hQ
  | branch c d ihc ihd => exact ⟨ihc h.1 hQ, ihd h.2 hQ⟩
  | choose f ih => exact fun x => ih x (h x) hQ
  | loop c ih => exact ⟨h.1, h.2.1, hQ [] h.2.2⟩
  | breakLoop | continueLoop | returnNow => exact h

/-- What a thread has yet to do keeps the order. -/
def Continues (rank : μ → ι) : List (Todo μ κ) → List μ → Prop
  | [], held => held = []
  | .cmd c :: k, held => c.Pre rank (Continues rank k) held
  | .again c :: k, held => held = [] ∧ c.Ordered rank ∧ Continues rank k []

/-- Every loop that a thread is in can be continued and left with nothing held. -/
def LoopsOrdered (rank : μ → ι) (todo : List (Todo μ κ)) : Prop :=
  ∀ c k, .again c :: k <:+ todo → c.Ordered rank ∧ Continues rank k []

/-- The invariant of a thread: what is left of it takes its locks in order, and so does each
loop that it may return to. -/
structure Thread.Ordered (rank : μ → ι) (t : Thread μ κ) : Prop where
  continues : Continues rank t.todo t.held
  loops : LoopsOrdered rank t.todo

/-- A thread with nothing to do is in no loop. -/
theorem LoopsOrdered.nil : LoopsOrdered rank ([] : List (Todo μ κ)) :=
  fun _ _ hsuffix => absurd (List.suffix_nil.mp hsuffix) (List.cons_ne_nil _ _)

/-- A thread that leaves a body is only in loops that it was in before. -/
theorem LoopsOrdered.of_suffix {k todo : List (Todo μ κ)} (h : LoopsOrdered rank todo)
    (hk : k <:+ todo) : LoopsOrdered rank k :=
  fun c k' hsuffix => h c k' (hsuffix.trans hk)

/-- A command in front adds no loop. -/
theorem LoopsOrdered.cons_cmd {c : Cmd μ κ} {k : List (Todo μ κ)} (h : LoopsOrdered rank k) :
    LoopsOrdered rank (.cmd c :: k) := by
  intro d k' hsuffix
  rcases List.suffix_cons_iff.mp hsuffix with heq | hsuffix
  · cases heq
  · exact h d k' hsuffix

/-- A thread can enter a loop that can be continued and left with nothing held. -/
theorem LoopsOrdered.cons_again {c : Cmd μ κ} {k : List (Todo μ κ)} (h : LoopsOrdered rank k)
    (hc : c.Ordered rank) (hk : Continues rank k []) : LoopsOrdered rank (.again c :: k) := by
  intro d k' hsuffix
  rcases List.suffix_cons_iff.mp hsuffix with heq | hsuffix
  · cases heq
    exact ⟨hc, hk⟩
  · exact h d k' hsuffix

omit [DecidableEq μ] in
/-- Unwinding stops at the end of a body or at the end of the thread. -/
theorem unwind_cases (k : List (Todo μ κ)) :
    unwind k <:+ k ∧ (unwind k = [] ∨ ∃ c k', unwind k = .again c :: k') := by
  induction k with
  | nil => exact ⟨List.suffix_rfl, Or.inl rfl⟩
  | cons item k ih =>
    cases item with
    | cmd c => exact ⟨ih.1.trans (List.suffix_cons _ k), ih.2⟩
    | again c => exact ⟨List.suffix_rfl, Or.inr ⟨c, k, rfl⟩⟩

/-- A thread that holds nothing may go on to the next iteration. -/
theorem continues_unwind {k : List (Todo μ κ)} (h : LoopsOrdered rank k) :
    Continues rank (unwind k) [] := by
  obtain ⟨hsuffix, hnil | ⟨c, k', hagain⟩⟩ := unwind_cases k
  · rw [hnil]
    rfl
  · rw [hagain] at hsuffix ⊢
    exact ⟨rfl, h c k' hsuffix⟩

/-- A thread that holds nothing may leave the loop. -/
theorem continues_tail_unwind {k : List (Todo μ κ)} (h : LoopsOrdered rank k) :
    Continues rank (unwind k).tail [] := by
  obtain ⟨hsuffix, hnil | ⟨c, k', hagain⟩⟩ := unwind_cases k
  · rw [hnil]
    rfl
  · rw [hagain] at hsuffix ⊢
    exact (h c k' hsuffix).2

/-- A step of an ordered thread succeeds and leaves it ordered. -/
theorem Thread.Ordered.advance {t : Thread μ κ} (h : t.Ordered rank) (free : μ → Bool)
    (choice : Choice κ) : ∃ t', t.advance free choice = .ok t' ∧ t'.Ordered rank := by
  obtain ⟨todo, held⟩ := t
  obtain ⟨hcontinues, hloops⟩ := h
  cases todo with
  | nil => exact ⟨_, rfl, hcontinues, hloops⟩
  | cons item k =>
    have hk : LoopsOrdered rank k := hloops.of_suffix (List.suffix_cons item k)
    cases item with
    | again c =>
      obtain ⟨rfl, hc, hrest⟩ := hcontinues
      refine ⟨_, rfl, ?_, hloops.cons_cmd⟩
      exact hc.mono fun held hheld => ⟨hheld, hc, hrest⟩
    | cmd c =>
      cases c with
      | skip => exact ⟨_, rfl, hcontinues, hk⟩
      | lock m =>
        cases hfree : free m with
        | true => exact ⟨⟨k, m :: held⟩, if_pos hfree, hcontinues.2, hk⟩
        | false => exact ⟨_, if_neg (by simp [hfree]), hcontinues, hloops⟩
      | unlock m =>
        refine ⟨⟨k, held.erase m⟩, ?_, hcontinues.2, hk⟩
        exact if_pos hcontinues.1
      | seq c d => exact ⟨_, rfl, hcontinues, hk.cons_cmd.cons_cmd⟩
      | branch c d =>
        refine ⟨_, rfl, ?_, hk.cons_cmd⟩
        cases choice.left with
        | true => exact hcontinues.1
        | false => exact hcontinues.2
      | choose f => exact ⟨_, rfl, hcontinues choice.pick, hk.cons_cmd⟩
      | loop c =>
        obtain ⟨rfl, hc, hrest⟩ := hcontinues
        refine ⟨_, rfl, ?_, (hk.cons_again hc hrest).cons_cmd⟩
        exact hc.mono fun held hheld => ⟨hheld, hc, hrest⟩
      | breakLoop =>
        obtain rfl : held = [] := hcontinues
        refine ⟨_, rfl, continues_tail_unwind hk, ?_⟩
        exact hk.of_suffix ((List.tail_suffix _).trans (unwind_cases k).1)
      | continueLoop =>
        obtain rfl : held = [] := hcontinues
        exact ⟨_, rfl, continues_unwind hk, hk.of_suffix (unwind_cases k).1⟩
      | returnNow =>
        exact ⟨_, rfl, hcontinues, hk.of_suffix List.nil_suffix⟩

/-- An ordered thread waits only for a mutex above all those it holds. -/
theorem Thread.Ordered.rank_lt {t : Thread μ κ} (h : t.Ordered rank) {m m' : μ}
    (hawaits : t.awaits = some m) (hheld : m' ∈ t.held) : rank m' < rank m := by
  obtain ⟨todo, held⟩ := t
  unfold Thread.awaits at hawaits
  split at hawaits
  · rename_i m₀ k htodo
    obtain rfl : todo = .cmd (.lock m₀) :: k := htodo
    cases hawaits
    exact h.continues.1 m' hheld
  · cases hawaits

/-- Ordered threads are not deadlocked: a waiting thread of greatest rank would wait for
one that waits for a greater rank. -/
theorem not_deadlocked {threads : List (Thread μ κ)} (h : ∀ t ∈ threads, t.Ordered rank)
    (D : Set ℕ) : ¬Deadlocked threads D := by
  rintro ⟨⟨i₀, hi₀⟩, hwaits⟩
  obtain ⟨t₀, m₀, -, -, -⟩ := hwaits i₀ hi₀
  let awaitedRank : ℕ → ι := fun i => (threads[i]?.bind Thread.awaits).elim (rank m₀) rank
  have hrank : ∀ {i : ℕ} {t m}, threads[i]? = some t → t.awaits = some m →
      awaitedRank i = rank m := by
    intro i t m hi hm
    simp [awaitedRank, hi, hm]
  have hfinite : D.Finite := by
    apply (Set.finite_lt_nat threads.length).subset
    intro i hi
    obtain ⟨t, -, ht, -⟩ := hwaits i hi
    exact (List.getElem?_eq_some_iff.mp ht).1
  obtain ⟨i, hi, hmax⟩ := Set.exists_max_image D awaitedRank hfinite ⟨i₀, hi₀⟩
  obtain ⟨t, m, ht, hm, j, hj, u, hu, hheld⟩ := hwaits i hi
  obtain ⟨u', m', hu', hm', -⟩ := hwaits j hj
  cases hu.symm.trans hu'
  have hlt : rank m < rank m' := (h u (List.mem_of_getElem? hu)).rank_lt hm' hheld
  have hle : rank m' ≤ rank m := by
    rw [← hrank ht hm, ← hrank hu hm']
    exact hmax j hj
  exact absurd hlt hle.not_gt

/-- An ordered thread holds nothing where an iteration or the thread ends. -/
theorem Thread.Ordered.released {t : Thread μ κ} (h : t.Ordered rank)
    (hleaves : t.LeavesIteration) : t.held = [] := by
  obtain ⟨todo, held⟩ := t
  have hcontinues := h.continues
  unfold Thread.LeavesIteration at hleaves
  dsimp only at hleaves hcontinues
  split at hleaves
  · exact hcontinues
  · exact hcontinues.1
  · exact hcontinues
  · exact hcontinues
  · exact hcontinues
  · cases hleaves

/-- Every run of threads whose programs are ordered is safe. -/
theorem safely_of_ordered {π : Type w} {program : π → Cmd μ κ}
    (hprogram : ∀ p, (program p).Ordered rank) (actions : List (ThreadAction π κ)) :
    Safely (threadStep program) (fun _ threads => LocksSafe threads) [] actions := by
  apply safely_of_total fun threads => ∀ t ∈ threads, t.Ordered rank
  · intro threads action h
    have hnext : ∃ threads', threadStep program threads action = .ok threads' ∧
        ∀ t ∈ threads', t.Ordered rank := by
      cases action with
      | start p =>
        refine ⟨_, rfl, fun t ht => ?_⟩
        rcases List.mem_append.mp ht with ht | ht
        · exact h t ht
        · rw [List.mem_singleton.mp ht]
          exact ⟨hprogram p, LoopsOrdered.nil.cons_cmd⟩
      | advance i choice =>
        cases hi : threads[i]? with
        | none => exact ⟨threads, by rw [threadStep, hi], h⟩
        | some t =>
          obtain ⟨t', hadvance, ht'⟩ := (h t (List.mem_of_getElem? hi)).advance
            (fun m => threads.all fun u => m ∉ u.held) choice
          refine ⟨threads.set i t', ?_, fun u hu => ?_⟩
          · rw [threadStep, hi]
            dsimp only
            rw [hadvance]
            rfl
          · rcases List.mem_or_eq_of_mem_set hu with hu | rfl
            · exact h u hu
            · exact ht'
    obtain ⟨threads', hstep, hordered⟩ := hnext
    refine ⟨threads', hstep, ⟨not_deadlocked hordered, ?_⟩, hordered⟩
    intro t ht hleaves
    exact (hordered t ht).released hleaves
  · exact nofun

end Foundations
