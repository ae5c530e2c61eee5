import NetworkLabs.Foundations.Run
import NetworkLabs.Mrt.Queue
import NetworkLabs.Queue.Representation

/-!
# The linked queue refines a list

A list is kept beside the linked queue and every call is made on both. A call of
`delete_integer_targets_q` is legal when the queue holds what `Queue.h` asks for: integers,
and in lab2's copy, which frees them, each of the deleted ones once.
-/

namespace NetworkLabs.LinkedQueue

open Foundations

variable {ι : Type}

/-- What a call does to the list of the items, and what it returns; `allocated` tells
whether `enq_q` gets its node. -/
def specCall (version : Version) (allocated : Bool) (xs : List ι) : Call ι → List ι × Result ι
  | .enqQ item _ => if allocated then (Mrt.enqQ xs item, .code 0) else (xs, .code (-1))
  | .deqQ =>
    match Mrt.deqQ xs with
    | none => (xs, .item none)
    | some (x, xs') => (xs', .item (some x))
  | .peekQ => (xs, .item xs.head?)
  | .iterateQ => (xs, .visited xs)
  | .getItemQ itemMatcher => (xs, .item (Mrt.getItemQ xs itemMatcher))
  | .popItemQ itemMatcher =>
    (Mrt.popItemQ xs itemMatcher, .item (Mrt.getItemQ xs itemMatcher))
  | .deleteIntegerTargetsQ ints target =>
    (xs.filter fun x => !matchesTarget ints target x,
      .freed (if version.freesInts then xs.filter (matchesTarget ints target) else []))

/-- The heap and the queue, the list beside them, and what the calls returned on both. -/
structure State (ι : Type) where
  heap : Heap ι
  queue : Option Queue
  list : List ι
  returned : List (Result ι)
  expected : List (Result ι)

/-- The state after `make_q`, with an empty list beside the queue. -/
def initial (h₀ : Heap ι) (allocated : Bool) : State ι :=
  { heap := h₀, queue := makeQ allocated, list := [], returned := [], expected := [] }

/-- Whether `enq_q` gets its node. It asks for one only if there is a queue. -/
def allocates (h : Heap ι) (queue : Option Queue) : Call ι → Bool
  | .enqQ _ choice => queue.isSome && (h.malloc choice).isSome
  | _ => true

/-- A call is legal when the integers it reads are there and it frees none of them twice. -/
def Legal (version : Version) (xs : List ι) : Call ι → Prop
  | .deleteIntegerTargetsQ ints target =>
    (∀ x ∈ xs, ints x ≠ none) ∧
      (version.freesInts = true → (xs.filter (matchesTarget ints target)).Nodup)
  | _ => True

/-- The linked queue holds exactly the items of the list. -/
def Holds (h₀ h : Heap ι) : Option Queue → List ι → Prop
  | none, xs => h = h₀ ∧ xs = []
  | some q, xs =>
    (q.head = none ↔ q.tail = none) ∧ ∃ cells, Represents h₀ h q cells ∧ items cells = xs

/-- The linked queue holds the list, and every call has returned what it should. -/
structure RefinesList (h₀ : Heap ι) (s : State ι) : Prop where
  returned : s.returned = s.expected
  holds : Holds h₀ s.heap s.queue s.list

/-- The same for a call, where a failed `enq_q` has moreover changed nothing. -/
structure CallRefines (h₀ : Heap ι) (s s' : State ι) : Prop where
  refines : RefinesList h₀ s'
  failed : s'.returned = s.returned ++ [.code (-1)] → s'.heap = s.heap ∧ s'.queue = s.queue

variable [DecidableEq ι]

/-- Make a call on the linked queue and on the list; `extra` is fuel that no loop needs. -/
def step (version : Version) (extra : ℕ) (s : State ι) (call : Call ι) :
    Except HeapFault (State ι) := do
  let (heap, queue, value) ← perform version (s.list.length + 1 + extra) s.heap s.queue call
  let (list, value') := specCall version (allocates s.heap s.queue call) s.list call
  .ok { heap := heap, queue := queue, list := list, returned := s.returned ++ [value],
        expected := s.expected ++ [value'] }

variable {version : Version} {h₀ h : Heap ι} {q : Queue} {cells : List (ℕ × ι)} {fuel : ℕ}
  {call : Call ι}

/-- A call leaves a queue that represents the new list, and returns what it should. -/
def Refines (version : Version) (fuel : ℕ) (h₀ h : Heap ι) (q : Queue) (xs : List ι)
    (call : Call ι) : Prop :=
  ∃ h' q' cells', perform version fuel h (some q) call =
      .ok (h', some q', (specCall version (allocates h (some q) call) xs call).2) ∧
    Represents h₀ h' q' cells' ∧
    items cells' = (specCall version (allocates h (some q) call) xs call).1

/-- `enq_q` appends the item, or changes nothing when it gets no node. -/
theorem Represents.refines_enqQ (hrep : Represents h₀ h q cells) (item : ι)
    (choice : Option ℕ) :
    Refines version fuel h₀ h q (items cells) (.enqQ item choice) := by
  cases hmalloc : h.malloc choice with
  | none =>
    refine ⟨h, q, cells, ?_, hrep, ?_⟩
    · simp [perform, enqQ, specCall, allocates, hmalloc]
    · simp [specCall, allocates, hmalloc]
  | some node =>
    obtain ⟨h', q', hcall, hrep'⟩ := hrep.enqQ_eq (x := item) hmalloc
    refine ⟨h', q', _, ?_, hrep', ?_⟩
    · rw [perform, hcall]
      simp [specCall, allocates, hmalloc]
    · simp [specCall, allocates, hmalloc, Mrt.enqQ]

/-- `deq_q` removes the first item and returns it, or `NULL` from an empty queue. -/
theorem Represents.refines_deqQ (hrep : Represents h₀ h q cells) :
    Refines version fuel h₀ h q (items cells) .deqQ := by
  cases cells with
  | nil =>
    have hhead : q.head = none := hrep.chain
    refine ⟨h, q, [], ?_, hrep, rfl⟩
    simp [perform, deqQ, hhead, specCall, Mrt.deqQ]
  | cons cell rest =>
    obtain ⟨h', q', hcall, hrep'⟩ := hrep.deqQ_eq
    refine ⟨h', q', rest, ?_, hrep', rfl⟩
    rw [perform, hcall]
    rfl

/-- `peek_q` returns the first item and leaves the list as it is. -/
theorem Represents.refines_peekQ (hrep : Represents h₀ h q cells) :
    Refines version fuel h₀ h q (items cells) .peekQ := by
  refine ⟨h, q, cells, ?_, hrep, rfl⟩
  cases cells with
  | nil =>
    have hhead : q.head = none := hrep.chain
    simp [perform, peekQ, hhead, specCall]
  | cons cell rest =>
    obtain ⟨hhead, next, ha, -⟩ := hrep.chain
    rw [perform, peekQ, hhead]
    dsimp only
    rw [Heap.load_eq ha]
    rfl

/-- `iterate_q` visits all items in order, each of them once. -/
theorem Represents.refines_iterateQ (hrep : Represents h₀ h q cells)
    (hfuel : cells.length < fuel) : Refines version fuel h₀ h q (items cells) .iterateQ := by
  refine ⟨h, q, cells, ?_, hrep, rfl⟩
  rw [perform, iterateQ, iterateLoop_eq _ hrep.chain hfuel, List.foldl_append_eq_append,
    ← List.flatMap_def, List.flatMap_singleton']
  rfl

/-- `get_item_q` finds the first match and leaves the list as it is. -/
theorem Represents.refines_getItemQ (hrep : Represents h₀ h q cells)
    (hfuel : cells.length < fuel) (itemMatcher : ι → Bool) :
    Refines version fuel h₀ h q (items cells) (.getItemQ itemMatcher) := by
  refine ⟨h, q, cells, ?_, hrep, rfl⟩
  rw [perform, getItemQ, getItemLoop_eq itemMatcher hrep.chain hfuel]
  rfl

/-- `pop_item_q` removes the first match and returns it. Later matches stay. -/
theorem Represents.refines_popItemQ (hrep : Represents h₀ h q cells)
    (hfuel : cells.length < fuel) (itemMatcher : ι → Bool) :
    Refines version fuel h₀ h q (items cells) (.popItemQ itemMatcher) := by
  have hrep₀ : Represents h₀ h q ([] ++ cells) := hrep
  obtain ⟨h', q', cells', hloop, hrep', hcells'⟩ := popItemLoop_eq itemMatcher hrep₀ hfuel
  refine ⟨h', q', cells', ?_, hrep', hcells'⟩
  rw [last_nil, ← hrep.chain.eq_first] at hloop
  rw [perform, popItemQ, hloop]
  rfl

/-- A legal `delete_integer_targets_q` removes all matches and keeps the order of the others. -/
theorem Represents.refines_deleteIntegerTargetsQ (hrep : Represents h₀ h q cells)
    (hfuel : cells.length < fuel) {ints : ι → Option ℤ} {target : ℤ}
    (hlegal : Legal version (items cells) (.deleteIntegerTargetsQ ints target)) :
    Refines version fuel h₀ h q (items cells) (.deleteIntegerTargetsQ ints target) := by
  have hrep₀ : Represents h₀ h q ([] ++ cells) := hrep
  have hdeletable : Deletable version.freesInts ints target [] (items cells) := by
    rw [deletable_iff]
    exact ⟨fun x hx => ⟨List.not_mem_nil, hlegal.1 x hx⟩, hlegal.2⟩
  obtain ⟨h', q', cells', hloop, hrep', hcells'⟩ := deleteLoop_eq hrep₀ hfuel hdeletable
  refine ⟨h', q', cells', ?_, hrep', hcells'⟩
  rw [last_nil, ← hrep.chain.eq_first, List.nil_append] at hloop
  rw [perform, deleteIntegerTargetsQ, hloop]
  rfl

/-- Every legal call is made on the list. -/
theorem Represents.refines (hrep : Represents h₀ h q cells) (hfuel : cells.length < fuel)
    (hlegal : Legal version (items cells) call) :
    Refines version fuel h₀ h q (items cells) call := by
  cases call with
  | enqQ item choice => exact hrep.refines_enqQ item choice
  | deqQ => exact hrep.refines_deqQ
  | peekQ => exact hrep.refines_peekQ
  | iterateQ => exact hrep.refines_iterateQ hfuel
  | getItemQ itemMatcher => exact hrep.refines_getItemQ hfuel itemMatcher
  | popItemQ itemMatcher => exact hrep.refines_popItemQ hfuel itemMatcher
  | deleteIntegerTargetsQ ints target => exact hrep.refines_deleteIntegerTargetsQ hfuel hlegal

/-- An illegal call reads an integer that is not there. -/
theorem Represents.perform_error (hrep : Represents h₀ h q cells)
    (hillegal : ¬Legal version (items cells) call) :
    ∃ e, perform version fuel h (some q) call = .error e := by
  cases call with
  | deleteIntegerTargetsQ ints target =>
    have hrep₀ : Represents h₀ h q ([] ++ cells) := hrep
    have hbroken : ¬Deletable version.freesInts ints target [] (items cells) := by
      rw [deletable_iff]
      rintro ⟨hlive, hnodup⟩
      exact hillegal ⟨fun x hx => (hlive x hx).2, hnodup⟩
    obtain ⟨e, hloop⟩ := deleteLoop_error hrep₀ fuel hbroken
    refine ⟨e, ?_⟩
    rw [last_nil, ← hrep.chain.eq_first] at hloop
    rw [perform, deleteIntegerTargetsQ, hloop]
    rfl
  | enqQ item choice => exact absurd trivial hillegal
  | deqQ => exact absurd trivial hillegal
  | peekQ => exact absurd trivial hillegal
  | iterateQ => exact absurd trivial hillegal
  | getItemQ itemMatcher => exact absurd trivial hillegal
  | popItemQ itemMatcher => exact absurd trivial hillegal

/-- Without a queue every call returns what it does for the empty list and a failed `malloc`,
and is legal. -/
theorem perform_null (version : Version) (fuel : ℕ) (h : Heap ι) (call : Call ι) :
    perform version fuel h none call =
        .ok (h, none, (specCall version (allocates h none call) [] call).2) ∧
      (specCall version (allocates h none call) [] call).1 = [] ∧ Legal version [] call := by
  cases call with
  | deleteIntegerTargetsQ ints target => simp [perform, deleteIntegerTargetsQ, specCall, Legal]
  | enqQ item choice => simp [perform, enqQ, specCall, allocates, Legal]
  | deqQ => simp [perform, deqQ, specCall, Mrt.deqQ, Legal]
  | peekQ => simp [perform, peekQ, specCall, Legal]
  | iterateQ => simp [perform, iterateQ, specCall, Legal]
  | getItemQ itemMatcher => simp [perform, getItemQ, specCall, Mrt.getItemQ, Legal]
  | popItemQ itemMatcher =>
    simp [perform, popItemQ, specCall, Mrt.getItemQ, Mrt.popItemQ, Legal]

/-- A failed `enq_q` changes nothing, and no other call returns a code. -/
theorem unchanged_of_failed {h' : Heap ι} {queue queue' : Option Queue}
    (hcall : perform version fuel h queue call = .ok (h', queue', .code (-1))) :
    h' = h ∧ queue' = queue := by
  cases call with
  | enqQ item choice =>
    cases queue with
    | none =>
      simp only [perform, enqQ, ok_bind, Except.ok.injEq, Prod.mk.injEq] at hcall
      exact ⟨hcall.1.symm, hcall.2.1.symm⟩
    | some q =>
      cases hmalloc : h.malloc choice with
      | none =>
        simp only [perform, enqQ, hmalloc, ok_bind, Except.ok.injEq, Prod.mk.injEq] at hcall
        exact ⟨hcall.1.symm, hcall.2.1.symm⟩
      | some node =>
        -- the result of an `enq_q` that has a node is 0
        by_cases hhead : q.head = none
        · simp [perform, enqQ, hmalloc, hhead] at hcall
        · cases hset : (h.put node ⟨item, none⟩).setNext q.tail (some node) <;>
            simp [perform, enqQ, hmalloc, hhead, hset] at hcall
  | deqQ => cases hdeq : deqQ h queue <;> simp [perform, hdeq] at hcall
  | peekQ => cases hpeek : peekQ h queue <;> simp [perform, hpeek] at hcall
  | iterateQ =>
    cases hiterate : iterateQ fuel h queue (fun visited x => visited ++ [x]) [] <;>
      simp [perform, hiterate] at hcall
  | getItemQ itemMatcher =>
    cases hget : getItemQ fuel h queue itemMatcher <;> simp [perform, hget] at hcall
  | popItemQ itemMatcher =>
    cases hpop : popItemQ fuel h queue itemMatcher <;> simp [perform, hpop] at hcall
  | deleteIntegerTargetsQ ints target =>
    cases hdelete : deleteIntegerTargetsQ version fuel h queue ints target <;>
      simp [perform, hdelete] at hcall

variable {s s' : State ι} {extra : ℕ}

/-- A call that succeeds on the linked queue and whose result is that of the list. -/
theorem CallRefines.of_perform (href : RefinesList h₀ s) {h' : Heap ι} {queue' : Option Queue}
    (hperform : perform version (s.list.length + 1 + extra) s.heap s.queue call =
      .ok (h', queue', (specCall version (allocates s.heap s.queue call) s.list call).2))
    (hholds : Holds h₀ h' queue'
      (specCall version (allocates s.heap s.queue call) s.list call).1) :
    ∃ s', step version extra s call = .ok s' ∧ CallRefines h₀ s s' := by
  have hstep : step version extra s call = .ok
      { heap := h', queue := queue'
        list := (specCall version (allocates s.heap s.queue call) s.list call).1
        returned :=
          s.returned ++ [(specCall version (allocates s.heap s.queue call) s.list call).2]
        expected :=
          s.expected ++ [(specCall version (allocates s.heap s.queue call) s.list call).2] } := by
    rw [step, hperform]
    rfl
  refine ⟨_, hstep, ⟨?_, hholds⟩, ?_⟩
  · dsimp only
    rw [href.returned]
  · intro hfailed
    have hvalue := List.append_cancel_left hfailed
    rw [List.singleton_inj] at hvalue
    rw [hvalue] at hperform
    exact unchanged_of_failed hperform

/-- A legal call succeeds and keeps the refinement. -/
theorem RefinesList.legal (href : RefinesList h₀ s) (hlegal : Legal version s.list call)
    (extra : ℕ) :
    ∃ s', step version extra s call = .ok s' ∧ CallRefines h₀ s s' := by
  have hholds := href.holds
  cases hq : s.queue with
  | none =>
    rw [hq] at hholds
    obtain ⟨hheap, hlist⟩ := hholds
    obtain ⟨hperform, hnil, -⟩ := perform_null version _ _ call
    rw [← hq, ← hlist] at hperform
    refine CallRefines.of_perform href hperform ?_
    rw [hq, hlist]
    exact ⟨hheap, hnil⟩
  | some q =>
    rw [hq] at hholds
    obtain ⟨-, cells, hrep, hcells⟩ := hholds
    rw [← hcells] at hlegal
    have hfuel : cells.length < s.list.length + 1 + extra := by
      rw [← hcells, length_items]
      omega
    obtain ⟨h', q', cells', hperform, hrep', hcells'⟩ := hrep.refines hfuel hlegal
    rw [hcells, ← hq] at hperform hcells'
    exact CallRefines.of_perform href hperform ⟨hrep'.head_eq_none_iff, cells', hrep', hcells'⟩

/-- In a state that refines a list, exactly the legal calls succeed. -/
theorem RefinesList.succeeds_iff (href : RefinesList h₀ s) :
    (∃ s', step version extra s call = .ok s') ↔ Legal version s.list call := by
  constructor
  · rintro ⟨s', hs'⟩
    by_contra hillegal
    have hholds := href.holds
    cases hq : s.queue with
    | none =>
      rw [hq] at hholds
      rw [hholds.2] at hillegal
      exact hillegal (perform_null version 0 s.heap call).2.2
    | some q =>
      rw [hq] at hholds
      obtain ⟨-, cells, hrep, hcells⟩ := hholds
      rw [← hcells] at hillegal
      obtain ⟨e, hperform⟩ := hrep.perform_error hillegal
      rw [step, hq, hperform] at hs'
      cases hs'
  · intro hlegal
    obtain ⟨s', hs', -⟩ := href.legal hlegal _
    exact ⟨s', hs'⟩

/-- The linked queue refines a list in exactly the sequences of calls that are all legal. -/
theorem refinesList_iff (version : Version) (extra : ℕ) (h₀ : Heap ι) (allocated : Bool)
    (calls : List (Call ι)) :
    Safely (step version extra) (CallRefines h₀) (initial h₀ allocated) calls ↔
      Meets (step version extra) (fun s call => Legal version s.list call)
        (initial h₀ allocated) calls := by
  have hinit : RefinesList h₀ (initial h₀ allocated) := by
    refine ⟨rfl, ?_⟩
    cases allocated with
    | false => exact ⟨rfl, rfl⟩
    | true => exact ⟨Iff.rfl, [], ⟨rfl, rfl, List.nodup_nil, nofun, fun _ _ => rfl⟩, rfl⟩
  refine safely_iff_meets (RefinesList h₀) (fun s call href (_ : True) => href.succeeds_iff)
    ?_ hinit fun _ _ => trivial
  intro s call s' href _ hstep
  have hlegal : Legal version s.list call := href.succeeds_iff.mp ⟨s', hstep⟩
  obtain ⟨t, ht, hrefines⟩ := href.legal hlegal extra
  rw [hstep] at ht
  cases ht
  exact ⟨hrefines, hrefines.refines⟩

/-- An integer that is queued twice is read again after it was freed. -/
def callsDoubled : List (Call ℕ) :=
  [.enqQ 7 (some 0), .enqQ 7 (some 1), .deleteIntegerTargetsQ (fun _ => some 5) 5]

/-- In lab2's copy this sequence of calls does not refine a list. -/
theorem refinesList_fails_for_doubled :
    ¬Safely (step .lab2 0) (CallRefines fun _ => none) (initial (fun _ => none) true)
      callsDoubled :=
  not_safely_of_run_eq_error (e := .invalidAccess) rfl

end NetworkLabs.LinkedQueue
