import Mathlib.Data.List.Nodup
import NetworkLabs.Queue.Linked

/-!
# What a linked queue represents

A queue represents the list of the items in its cells. The four cases of unlinking a node
are one lemma; with it each loop is an induction on the cells that it has yet to visit.
-/

namespace NetworkLabs.LinkedQueue

open Foundations

variable {ι : Type} {h₀ h : Heap ι} {q : Queue} {cells done rest : List (ℕ × ι)} {a : ℕ} {x : ι}

/-- The queue links the cells from its head to its tail, and the heap holds what it held
before the queue was made and nothing else. -/
structure Represents (h₀ h : Heap ι) (q : Queue) (cells : List (ℕ × ι)) : Prop where
  chain : Segment h q.head cells none
  tail : q.tail = last cells
  /-- The chain has no cycle. -/
  nodup : (addresses cells).Nodup
  /-- The nodes are the queue's own. -/
  own : ∀ b ∈ addresses cells, h₀ b = none
  /-- Every other node that the queue has had is freed. -/
  frame : ∀ b, b ∉ addresses cells → h b = h₀ b

/-- The head is `NULL` exactly when the tail is. -/
theorem Represents.head_eq_none_iff (hrep : Represents h₀ h q cells) :
    q.head = none ↔ q.tail = none := by
  rw [hrep.chain.eq_first, hrep.tail]
  simp [first, last, List.head?_eq_none_iff, List.getLast?_eq_none_iff]

/-- The node of a cell, and what is linked behind it. -/
theorem Represents.node (hrep : Represents h₀ h q (done ++ (a, x) :: rest)) :
    h a = some ⟨x, first rest⟩ ∧ Segment h q.head done (some a) ∧
      Segment h (first rest) rest none := by
  obtain ⟨p, hdone, rfl, next, ha, hrest⟩ := segment_append.mp hrep.chain
  rw [hrest.eq_first] at ha hrest
  exact ⟨ha, hdone, hrest⟩

/-- The queue without a cell that was unlinked and freed. -/
theorem Represents.of_removed {h' : Heap ι} {q' : Queue}
    (hrep : Represents h₀ h q (done ++ (a, x) :: rest))
    (hchain : Segment h' q'.head (done ++ rest) none) (htail : q'.tail = last (done ++ rest))
    (ha : h' a = none)
    (hsame : ∀ b, b ∉ addresses (done ++ (a, x) :: rest) → h' b = h b) :
    Represents h₀ h' q' (done ++ rest) := by
  constructor
  · exact hchain
  · exact htail
  · have hsub : (addresses (done ++ rest)).Sublist (addresses (done ++ (a, x) :: rest)) := by
      simp only [addresses_append, addresses_cons]
      exact (List.sublist_cons_self a _).append_left _
    exact hrep.nodup.sublist hsub
  · intro b hb
    apply hrep.own
    simp only [addresses_append, addresses_cons, List.mem_append, List.mem_cons] at hb ⊢
    tauto
  · intro b hb
    by_cases hba : b = a
    · subst hba
      rw [ha, hrep.own]
      simp
    · have hall : b ∉ addresses (done ++ (a, x) :: rest) := by
        simp only [addresses_append, addresses_cons, List.mem_append, List.mem_cons] at hb ⊢
        tauto
      rw [hsame b hall, hrep.frame b hall]

/-- The cell is the head exactly when nothing precedes it. -/
theorem Represents.head_iff (hrep : Represents h₀ h q (done ++ (a, x) :: rest)) :
    q.head = some a ↔ done = [] := by
  rw [hrep.chain.eq_first]
  cases done with
  | nil => simp
  | cons cell done =>
    have hnodup := hrep.nodup
    simp only [List.cons_append, addresses_cons, addresses_append, List.nodup_cons,
      List.mem_append, List.mem_cons, not_or] at hnodup
    simp [hnodup.1.2.1]

/-- The cell is the tail exactly when nothing follows it. -/
theorem Represents.tail_iff (hrep : Represents h₀ h q (done ++ (a, x) :: rest)) :
    q.tail = some a ↔ rest = [] := by
  rw [hrep.tail, last_append_cons]
  constructor
  · intro hlast
    cases rest with
    | nil => rfl
    | cons cell rest =>
      have hmem : a ∈ addresses (cell :: rest) := by
        apply mem_of_last
        rw [← hlast]
        exact (last_append_cons [(a, x)] cell rest).symm
      have hnodup := hrep.nodup
      rw [addresses_append, addresses_cons, List.nodup_append] at hnodup
      exact absurd hmem (List.nodup_cons.mp hnodup.2.1).1
  · rintro rfl
    rfl

/-- A node is unlinked and freed, and the next node to visit is the one that was behind it. -/
def Unlinks (h₀ h : Heap ι) (q : Queue) (done : List (ℕ × ι)) (a : ℕ) (rest : List (ℕ × ι)) :
    Prop :=
  ∃ h₁ q' h₂, unlink h q (last done) a (first rest) = .ok (h₁, q') ∧ h₁.free a = .ok h₂ ∧
    Represents h₀ h₂ q' (done ++ rest) ∧
    nodeAfterRemoved h₂ q q' (last done) a = .ok (first rest)

/-- The address of a cell is that of no other. -/
theorem Represents.not_mem (hrep : Represents h₀ h q (done ++ (a, x) :: rest)) :
    a ∉ addresses done ∧ a ∉ addresses rest := by
  have hnodup := hrep.nodup
  simp only [addresses_append, addresses_cons, List.nodup_append, List.nodup_cons] at hnodup
  obtain ⟨-, ⟨hafter, -⟩, hdisjoint⟩ := hnodup
  exact ⟨fun hmem => hdisjoint a hmem a List.mem_cons_self rfl, hafter⟩

/-- The queue without its first cell, whose node is taken off the heap. -/
theorem Represents.remove_head (hrep : Represents h₀ h q ((a, x) :: rest)) {tail : Option ℕ}
    (htail : tail = last rest) :
    Represents h₀ (h.remove a) { head := first rest, tail := tail } rest := by
  replace hrep : Represents h₀ h q ([] ++ (a, x) :: rest) := hrep
  obtain ⟨-, -, hrest⟩ := hrep.node
  refine hrep.of_removed (hrest.remove hrep.not_mem.2) htail (Heap.remove_same h a) ?_
  intro b hb
  apply Heap.remove_of_ne
  rintro rfl
  exact hb List.mem_cons_self

/-- The head is unlinked, whether or not it is the only node. -/
theorem Represents.unlinks_head (hrep : Represents h₀ h q ((a, x) :: rest)) :
    Unlinks h₀ h q [] a rest := by
  have hrep₀ : Represents h₀ h q ([] ++ (a, x) :: rest) := hrep
  obtain ⟨ha, -, -⟩ := hrep₀.node
  have hhead : q.head = some a := hrep₀.head_iff.mpr rfl
  cases rest with
  | nil =>
    refine ⟨h, ⟨none, none⟩, h.remove a, ?_, Heap.free_eq ha, hrep.remove_head rfl, if_pos hhead⟩
    rw [unlink, if_pos hhead, if_pos (hrep₀.tail_iff.mpr rfl)]
  | cons cell rest =>
    have htail : q.tail = last (cell :: rest) :=
      hrep.tail.trans (last_append_cons [(a, x)] cell rest)
    refine ⟨h, { q with head := first (cell :: rest) }, h.remove a, ?_, Heap.free_eq ha,
      hrep.remove_head htail, if_pos hhead⟩
    rw [unlink, if_pos hhead, if_neg fun ht => List.cons_ne_nil _ _ (hrep₀.tail_iff.mp ht)]

/-- A node behind another one is unlinked, whether or not it is the tail. -/
theorem Represents.unlinks_behind {l : ℕ} {y : ι}
    (hrep : Represents h₀ h q ((done ++ [(l, y)]) ++ (a, x) :: rest)) :
    Unlinks h₀ h q (done ++ [(l, y)]) a rest := by
  have hhead : q.head ≠ some a := fun hh => by simpa using hrep.head_iff.mp hh
  obtain ⟨ha, hdone, hrest⟩ := hrep.node
  obtain ⟨hbefore, hafter⟩ := hrep.not_mem
  have hl : h l = some ⟨y, some a⟩ := by
    have hsplit := hrep
    rw [List.append_assoc] at hsplit
    exact hsplit.node.1
  have hlast : last (done ++ [(l, y)]) = some l := last_concat done (l, y)
  have hla : l ≠ a := by
    rintro rfl
    exact hbefore (mem_of_last hlast)
  have hother : l ∉ addresses done ∧ l ∉ addresses rest := by
    have hsplit := hrep
    rw [List.append_assoc] at hsplit
    obtain ⟨hdone', hrest'⟩ := hsplit.not_mem
    exact ⟨hdone', fun hmem => hrest' (List.mem_cons_of_mem _ hmem)⟩
  -- whatever `a` pointed to, `l` points to now
  let h₁ := h.put l ⟨y, first rest⟩
  have hset : h.setNext (some l) (first rest) = .ok h₁ := Heap.setNext_eq hl _
  have ha₁ : h₁ a = some ⟨x, first rest⟩ := by
    rw [← ha]
    exact Heap.put_of_ne h _ hla.symm
  have hl₂ : h₁.remove a l = some ⟨y, first rest⟩ :=
    (Heap.remove_of_ne h₁ hla).trans (Heap.put_same h l _)
  have hchain : Segment (h₁.remove a) q.head ((done ++ [(l, y)]) ++ rest) none := by
    rw [segment_append]
    refine ⟨first rest, ?_, ?_⟩
    · exact (hdone.relink hother.1).remove hbefore
    · exact (hrest.put hother.2 _).remove hafter
  have hsame : ∀ b, b ∉ addresses ((done ++ [(l, y)]) ++ (a, x) :: rest) →
      h₁.remove a b = h b := by
    intro b hb
    simp only [addresses_append, addresses_cons, List.mem_append, List.mem_cons, not_or] at hb
    exact (Heap.remove_of_ne h₁ hb.2.1).trans (Heap.put_of_ne h _ hb.1.2.1)
  cases rest with
  | nil =>
    have htail : q.tail = some a := hrep.tail_iff.mpr rfl
    refine ⟨h₁, { q with tail := some l }, h₁.remove a, ?_, Heap.free_eq ha₁, ?_, ?_⟩
    · rw [unlink, if_neg hhead, if_pos htail, hlast]
      rw [first_nil] at hset
      rw [hset, ok_bind]
    · refine hrep.of_removed hchain ?_ (Heap.remove_same h₁ a) hsame
      rw [List.append_nil, hlast]
    · rw [nodeAfterRemoved, if_neg hhead, if_pos htail, first_nil]
  | cons cell rest =>
    have htail : q.tail ≠ some a := fun ht => List.cons_ne_nil _ _ (hrep.tail_iff.mp ht)
    refine ⟨h₁, q, h₁.remove a, ?_, Heap.free_eq ha₁, ?_, ?_⟩
    · rw [unlink, if_neg hhead, if_neg htail, hlast, hset, ok_bind]
    · refine hrep.of_removed hchain ?_ (Heap.remove_same h₁ a) hsame
      rw [hrep.tail, last_append_cons, last_append_cons]
      exact last_append_cons [(a, x)] cell rest
    · rw [nodeAfterRemoved, if_neg hhead, if_neg htail, hlast, Heap.load_eq hl₂]
      rfl

/-- Every node of a queue can be unlinked and freed. -/
theorem Represents.unlinks (hrep : Represents h₀ h q (done ++ (a, x) :: rest)) :
    Unlinks h₀ h q done a rest := by
  cases hlast : last done with
  | none =>
    obtain rfl := eq_nil_of_last hlast
    exact hrep.unlinks_head
  | some l =>
    obtain ⟨done, y, rfl⟩ := eq_concat_of_last hlast
    exact hrep.unlinks_behind

/-- The items of some cells, in the order of the links. -/
def items (cells : List (ℕ × ι)) : List ι := cells.map Prod.snd

/-- The items of two parts, in their order. -/
@[simp] theorem items_append (cells cells' : List (ℕ × ι)) :
    items (cells ++ cells') = items cells ++ items cells' :=
  List.map_append

/-- The item of a cell and those of the other ones. -/
@[simp] theorem items_cons (cell : ℕ × ι) (cells : List (ℕ × ι)) :
    items (cell :: cells) = cell.2 :: items cells := rfl

/-- No cells have no items, so that an empty queue holds the empty list. -/
@[simp] theorem items_nil : items ([] : List (ℕ × ι)) = [] := rfl

/-- There is one item for each cell. -/
@[simp] theorem length_items (cells : List (ℕ × ι)) : (items cells).length = cells.length :=
  List.length_map _

/-- The queue with a new cell behind its last one. -/
theorem Represents.of_appended {h' : Heap ι} {q' : Queue} (hrep : Represents h₀ h q cells)
    (hfree : h a = none) (hchain : Segment h' q'.head (cells ++ [(a, x)]) none)
    (htail : q'.tail = some a)
    (hsame : ∀ b, b ∉ addresses (cells ++ [(a, x)]) → h' b = h b) :
    Represents h₀ h' q' (cells ++ [(a, x)]) := by
  have hnew : a ∉ addresses cells := fun hmem => hrep.chain.allocated hmem hfree
  constructor
  · exact hchain
  · rw [htail, last_concat]
  · rw [addresses_append, List.nodup_append]
    refine ⟨hrep.nodup, List.nodup_singleton a, ?_⟩
    rintro b hb c hc rfl
    rw [List.mem_singleton.mp hc] at hb
    exact hnew hb
  · intro b hb
    rw [addresses_append, List.mem_append] at hb
    rcases hb with hb | hb
    · exact hrep.own b hb
    · rw [List.mem_singleton.mp hb, ← hrep.frame a hnew, hfree]
  · intro b hb
    rw [hsame b hb]
    apply hrep.frame
    rw [addresses_append, List.mem_append, not_or] at hb
    exact hb.1

/-- `enq_q` with a new node, which becomes the last one. An empty queue has no last node to be
linked to it. -/
theorem Represents.enqQ_eq (hrep : Represents h₀ h q cells) {choice : Option ℕ}
    (hmalloc : h.malloc choice = some a) :
    ∃ h' q', enqQ h (some q) x choice = .ok (h', some q', 0) ∧
      Represents h₀ h' q' (cells ++ [(a, x)]) := by
  have hfree : h a = none := Heap.of_malloc hmalloc
  have hnew : a ∉ addresses cells := fun hmem => hrep.chain.allocated hmem hfree
  let h₁ := h.put a ⟨x, none⟩
  have hput : ∀ b, b ≠ a → h₁ b = h b := fun b hb => Heap.put_of_ne h _ hb
  cases hlast : last cells with
  | none =>
    obtain rfl := eq_nil_of_last hlast
    refine ⟨h₁, ⟨some a, some a⟩, ?_, ?_⟩
    · simp only [enqQ, hmalloc]
      exact if_pos hrep.chain
    · refine hrep.of_appended hfree ⟨rfl, none, Heap.put_same h a _, rfl⟩ rfl fun b hb => ?_
      exact hput b fun hba => hb (hba ▸ List.mem_cons_self)
  | some l =>
    obtain ⟨cells, y, rfl⟩ := eq_concat_of_last hlast
    obtain ⟨hl, -, -⟩ := hrep.node
    have hla : l ≠ a := by
      rintro rfl
      exact hnew (mem_of_last hlast)
    have hl₁ : h₁ l = some ⟨y, none⟩ := (hput l hla).trans hl
    have hhead : q.head ≠ none := by
      rw [Ne, hrep.head_eq_none_iff, hrep.tail, hlast]
      exact Option.some_ne_none l
    refine ⟨h₁.put l ⟨y, some a⟩, { q with tail := some a }, ?_, ?_⟩
    · have hset : h₁.setNext (some l) (some a) = .ok (h₁.put l ⟨y, some a⟩) :=
        Heap.setNext_eq hl₁ _
      simp only [enqQ, hmalloc, if_neg hhead, hrep.tail, hlast]
      rw [hset, ok_bind]
    · refine hrep.of_appended hfree ?_ rfl fun b hb => ?_
      · rw [segment_append]
        refine ⟨some a, (hrep.chain.put hnew _).relink hrep.not_mem.1, rfl, none, ?_, rfl⟩
        exact (Heap.put_of_ne h₁ _ hla.symm).trans (Heap.put_same h a _)
      · simp only [addresses_append, addresses_cons, addresses_nil, List.mem_append,
          List.mem_singleton, not_or] at hb
        rw [Heap.put_of_ne h₁ _ hb.1.2, hput b hb.2]

/-- `deq_q` of a queue with a first cell. -/
theorem Represents.deqQ_eq (hrep : Represents h₀ h q ((a, x) :: rest)) :
    ∃ h' q', deqQ h (some q) = .ok (h', some q', some x) ∧ Represents h₀ h' q' rest := by
  obtain ⟨hhead, next, ha, hrest⟩ := hrep.chain
  rw [hrest.eq_first] at ha
  have htail : (if first rest = none then none else q.tail) = last rest := by
    cases rest with
    | nil => rfl
    | cons cell rest => exact hrep.tail.trans (last_append_cons [(a, x)] cell rest)
  refine ⟨h.remove a, ⟨first rest, _⟩, ?_, hrep.remove_head htail⟩
  simp only [deqQ, hhead, Heap.load_eq ha, Heap.free_eq ha]
  rfl

/-- The loop of `iterate_q` visits the items in order. -/
theorem iterateLoop_eq {σ : Type} (itemfunc : σ → ι → σ) {p : Option ℕ}
    (hrest : Segment h p rest none) {fuel : ℕ} (hfuel : rest.length < fuel) (argument : σ) :
    iterateLoop itemfunc h fuel argument p = .ok ((items rest).foldl itemfunc argument) := by
  induction rest generalizing p fuel argument with
  | nil =>
    obtain ⟨fuel, rfl⟩ := Nat.exists_eq_succ_of_ne_zero (Nat.ne_zero_of_lt hfuel)
    obtain rfl : p = none := hrest
    rfl
  | cons cell rest ih =>
    obtain ⟨fuel, rfl⟩ := Nat.exists_eq_succ_of_ne_zero (Nat.ne_zero_of_lt hfuel)
    obtain ⟨a, x⟩ := cell
    obtain ⟨rfl, next, ha, hrest⟩ := hrest
    have hnext := ih hrest (Nat.lt_of_succ_lt_succ hfuel) (itemfunc argument x)
    rw [iterateLoop, Heap.load_eq ha]
    exact hnext

/-- The loop of `get_item_q` finds the first match. -/
theorem getItemLoop_eq (itemMatcher : ι → Bool) {p : Option ℕ} (hrest : Segment h p rest none)
    {fuel : ℕ} (hfuel : rest.length < fuel) :
    getItemLoop itemMatcher h fuel p = .ok ((items rest).find? itemMatcher) := by
  induction rest generalizing p fuel with
  | nil =>
    obtain ⟨fuel, rfl⟩ := Nat.exists_eq_succ_of_ne_zero (Nat.ne_zero_of_lt hfuel)
    obtain rfl : p = none := hrest
    rfl
  | cons cell rest ih =>
    obtain ⟨fuel, rfl⟩ := Nat.exists_eq_succ_of_ne_zero (Nat.ne_zero_of_lt hfuel)
    obtain ⟨a, x⟩ := cell
    obtain ⟨rfl, next, ha, hrest⟩ := hrest
    have hnext := ih hrest (Nat.lt_of_succ_lt_succ hfuel)
    rw [getItemLoop, Heap.load_eq ha, items_cons, List.find?_cons]
    cases hmatch : itemMatcher x with
    | true => exact if_pos hmatch
    | false => exact (if_neg (by simp [hmatch])).trans hnext

/-- The loop of `pop_item_q` removes the first match behind the cells it has visited. -/
theorem popItemLoop_eq (itemMatcher : ι → Bool) (hrep : Represents h₀ h q (done ++ rest))
    {fuel : ℕ} (hfuel : rest.length < fuel) :
    ∃ h' q' rest', popItemLoop itemMatcher h q fuel (last done) (first rest) =
        .ok (h', q', (items rest).find? itemMatcher) ∧
      Represents h₀ h' q' (done ++ rest') ∧ items rest' = (items rest).eraseP itemMatcher := by
  induction rest generalizing done fuel with
  | nil =>
    obtain ⟨fuel, rfl⟩ := Nat.exists_eq_succ_of_ne_zero (Nat.ne_zero_of_lt hfuel)
    exact ⟨h, q, [], rfl, hrep, rfl⟩
  | cons cell rest ih =>
    obtain ⟨fuel, rfl⟩ := Nat.exists_eq_succ_of_ne_zero (Nat.ne_zero_of_lt hfuel)
    obtain ⟨a, x⟩ := cell
    obtain ⟨ha, -, -⟩ := hrep.node
    rw [first_cons, popItemLoop, Heap.load_eq ha, items_cons, List.find?_cons, List.eraseP_cons]
    cases hmatch : itemMatcher x with
    | true =>
      obtain ⟨h₁, q', h₂, hunlink, hfree, hrep', -⟩ := hrep.unlinks
      refine ⟨h₂, q', rest, ?_, hrep', rfl⟩
      simp [hmatch, hunlink, hfree]
    | false =>
      rw [List.append_cons] at hrep
      obtain ⟨h', q', rest', hloop, hrep', hrest'⟩ := ih hrep (Nat.lt_of_succ_lt_succ hfuel)
      refine ⟨h', q', (a, x) :: rest', ?_, ?_, ?_⟩
      · rw [last_concat] at hloop
        simpa [hmatch] using hloop
      · rwa [List.append_cons]
      · simp [hrest']

section DeleteIntegerTargets

variable {frees : Bool} {ints : ι → Option ℤ} {target : ℤ}

/-- The item points to the target, which `delete_integer_targets_q` tests by reading the
integer. -/
def matchesTarget (ints : ι → Option ℤ) (target : ℤ) (x : ι) : Bool := ints x == some target

/-- Every integer that `delete_integer_targets_q` reads is there, and none is freed before. -/
def Deletable (frees : Bool) (ints : ι → Option ℤ) (target : ℤ) : List ι → List ι → Prop
  | _, [] => True
  | freed, x :: xs =>
    (x ∉ freed ∧ ints x ≠ none) ∧
      Deletable frees ints target
        (if frees && matchesTarget ints target x then freed ++ [x] else freed) xs

/-- All items point to integers, and no item whose integer is freed occurs twice. -/
theorem deletable_iff {freed xs : List ι} :
    Deletable frees ints target freed xs ↔
      (∀ x ∈ xs, x ∉ freed ∧ ints x ≠ none) ∧
        (frees = true → (xs.filter (matchesTarget ints target)).Nodup) := by
  induction xs generalizing freed with
  | nil => simp [Deletable]
  | cons x xs ih =>
    rw [Deletable, ih, List.forall_mem_cons, List.filter_cons]
    cases frees with
    | false => simp
    | true =>
      cases hmatch : matchesTarget ints target x with
      | false => simp [and_assoc]
      | true =>
        simp only [Bool.and_true, if_true, List.mem_append, List.mem_singleton, not_or,
          List.nodup_cons, List.mem_filter, hmatch, and_true, true_imp_iff]
        constructor
        · rintro ⟨hx, hxs, hnodup⟩
          refine ⟨⟨hx, fun y hy => ⟨(hxs y hy).1.1, (hxs y hy).2⟩⟩, fun hmem => ?_, hnodup⟩
          exact (hxs x hmem).1.2 rfl
        · rintro ⟨⟨hx, hxs⟩, hnew, hnodup⟩
          refine ⟨hx, fun y hy => ⟨⟨(hxs y hy).1, ?_⟩, (hxs y hy).2⟩, hnodup⟩
          rintro rfl
          exact hnew hy

variable [DecidableEq ι]

/-- One iteration of the loop that removes a node. -/
theorem deleteLoop_match (frees : Bool) (hrep : Represents h₀ h q (done ++ (a, x) :: rest))
    {freed : List ι} (hnew : x ∉ freed) (hx : ints x = some target) (fuel : ℕ) :
    ∃ h' q', Represents h₀ h' q' (done ++ rest) ∧
      deleteLoop frees ints target (fuel + 1) h q freed (last done) (some a) =
        deleteLoop frees ints target fuel h' q' (if frees then freed ++ [x] else freed)
          (last done) (first rest) := by
  obtain ⟨ha, -, -⟩ := hrep.node
  obtain ⟨h₁, q', h₂, hunlink, hfree, hrep', hnext⟩ := hrep.unlinks
  refine ⟨h₂, q', hrep', ?_⟩
  have hread : readInt ints freed x = .ok target := by rw [readInt, if_neg hnew, hx]
  rw [deleteLoop, Heap.load_eq ha, ok_bind, hread, ok_bind, if_pos rfl, hunlink]
  dsimp only [ok_bind]
  rw [hfree, ok_bind, hnext, ok_bind]

/-- One iteration of the loop that keeps a node. -/
theorem deleteLoop_keep (hrep : Represents h₀ h q (done ++ (a, x) :: rest)) {freed : List ι}
    (hnew : x ∉ freed) {number : ℤ} (hx : ints x = some number) (hother : number ≠ target)
    (fuel : ℕ) :
    deleteLoop frees ints target (fuel + 1) h q freed (last done) (some a) =
      deleteLoop frees ints target fuel h q freed (some a) (first rest) := by
  obtain ⟨ha, -, -⟩ := hrep.node
  rw [deleteLoop, Heap.load_eq ha, ok_bind]
  simp only [readInt, if_neg hnew, hx, ok_bind, if_neg hother]

/-- The loop of `delete_integer_targets_q` removes all matches behind the cells it has
visited. -/
theorem deleteLoop_eq (hrep : Represents h₀ h q (done ++ rest)) {fuel : ℕ}
    (hfuel : rest.length < fuel) {freed : List ι}
    (hdeletable : Deletable frees ints target freed (items rest)) :
    ∃ h' q' rest', deleteLoop frees ints target fuel h q freed (last done) (first rest) =
        .ok (h', q', freed ++
          if frees then (items rest).filter (matchesTarget ints target) else []) ∧
      Represents h₀ h' q' (done ++ rest') ∧
      items rest' = (items rest).filter fun x => !matchesTarget ints target x := by
  induction rest generalizing done fuel freed h q with
  | nil =>
    obtain ⟨fuel, rfl⟩ := Nat.exists_eq_succ_of_ne_zero (Nat.ne_zero_of_lt hfuel)
    refine ⟨h, q, [], ?_, hrep, rfl⟩
    simp [deleteLoop]
  | cons cell rest ih =>
    obtain ⟨fuel, rfl⟩ := Nat.exists_eq_succ_of_ne_zero (Nat.ne_zero_of_lt hfuel)
    obtain ⟨a, x⟩ := cell
    obtain ⟨⟨hnew, hlive⟩, hrest⟩ := hdeletable
    obtain ⟨number, hx⟩ := Option.ne_none_iff_exists'.mp hlive
    have hfuel' := Nat.lt_of_succ_lt_succ hfuel
    rw [first_cons, items_cons]
    by_cases hmatch : number = target
    · subst hmatch
      have hmatches : matchesTarget ints number x = true := by simp [matchesTarget, hx]
      obtain ⟨h₁, q₁, hrep₁, hloop⟩ := deleteLoop_match frees hrep hnew hx fuel
      rw [hmatches, Bool.and_true] at hrest
      obtain ⟨h', q', rest', hnext, hrep', hrest'⟩ := ih hrep₁ hfuel' hrest
      refine ⟨h', q', rest', ?_, hrep', ?_⟩
      · rw [hloop, hnext]
        cases frees <;> simp [hmatches]
      · simp [hmatches, hrest']
    · have hmatches : matchesTarget ints target x = false := by simp [matchesTarget, hx, hmatch]
      rw [deleteLoop_keep hrep hnew hx hmatch]
      rw [List.append_cons] at hrep
      simp only [hmatches, Bool.and_false, Bool.false_eq_true, if_false] at hrest
      obtain ⟨h', q', rest', hnext, hrep', hrest'⟩ := ih hrep hfuel' hrest
      refine ⟨h', q', (a, x) :: rest', ?_, ?_, ?_⟩
      · rw [last_concat] at hnext
        rw [hnext]
        simp [hmatches]
      · rwa [List.append_cons]
      · simp [hmatches, hrest']

/-- It fails when it reads an integer that is not there. -/
theorem deleteLoop_error (hrep : Represents h₀ h q (done ++ rest)) (fuel : ℕ) {freed : List ι}
    (hbroken : ¬Deletable frees ints target freed (items rest)) :
    ∃ e, deleteLoop frees ints target fuel h q freed (last done) (first rest) = .error e := by
  induction rest generalizing done fuel freed h q with
  | nil => exact absurd trivial hbroken
  | cons cell rest ih =>
    obtain ⟨a, x⟩ := cell
    obtain ⟨ha, -, -⟩ := hrep.node
    cases fuel with
    | zero => exact ⟨_, rfl⟩
    | succ fuel =>
      rw [items_cons, Deletable, not_and] at hbroken
      rw [first_cons]
      by_cases hread : x ∉ freed ∧ ints x ≠ none
      · obtain ⟨hnew, hlive⟩ := hread
        obtain ⟨number, hx⟩ := Option.ne_none_iff_exists'.mp hlive
        have hrest := hbroken ⟨hnew, hlive⟩
        by_cases hmatch : number = target
        · subst hmatch
          have hmatches : matchesTarget ints number x = true := by simp [matchesTarget, hx]
          obtain ⟨h₁, q₁, hrep₁, hloop⟩ := deleteLoop_match frees hrep hnew hx fuel
          rw [hmatches, Bool.and_true] at hrest
          rw [hloop]
          exact ih hrep₁ fuel hrest
        · have hmatches : matchesTarget ints target x = false := by
            simp [matchesTarget, hx, hmatch]
          rw [deleteLoop_keep hrep hnew hx hmatch]
          rw [List.append_cons] at hrep
          simp only [hmatches, Bool.and_false, Bool.false_eq_true, if_false] at hrest
          have hnext := ih hrep fuel hrest
          rwa [last_concat] at hnext
      · refine ⟨.invalidAccess, ?_⟩
        have hfault : readInt ints freed x = .error .invalidAccess := by
          by_cases hnew : x ∈ freed
          · exact if_pos hnew
          · have hnone : ints x = none := by
              by_contra hlive
              exact hread ⟨hnew, hlive⟩
            rw [readInt, if_neg hnew, hnone]
        rw [deleteLoop, Heap.load_eq ha, ok_bind, hfault, error_bind]

end DeleteIntegerTargets

end NetworkLabs.LinkedQueue
