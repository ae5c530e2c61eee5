import NetworkLabs.Queue.Refinement

/-!
# The end of a linked queue

`delete_q` dequeues until the queue is empty. It frees every node that the queue still has and
hands every item to the caller's function, in order. Nothing that was enqueued is lost, and the
heap is again what it was before the queue was made.
-/

namespace NetworkLabs.LinkedQueue

open Foundations

variable {ι σ : Type}

/-- The loop of `delete_q`, which dequeues until the queue is empty and hands every item to
`itemdelete`, if there is one. What `itemdelete` does is a fold over `deleted`. -/
def deleteQLoop (itemdelete : Option (σ → ι → σ)) :
    ℕ → Heap ι → Option Queue → σ → Except HeapFault (Heap ι × σ)
  | 0, _, _, _ => .error .outOfFuel
  | _ + 1, h, none, deleted => .ok (h, deleted)
  | fuel + 1, h, some q, deleted =>
    if q.head = none then .ok (h, deleted)
    else do
      let (h, queue, item) ← deqQ h (some q)
      deleteQLoop itemdelete fuel h queue
        (match itemdelete, item with
        | some f, some x => f deleted x
        | _, _ => deleted)

/-- `delete_q`; the caller's function is applied to the items and to what it has done so far. -/
def deleteQ (fuel : ℕ) (h : Heap ι) (queue : Option Queue) (itemdelete : Option (σ → ι → σ))
    (deleted : σ) : Except HeapFault (Heap ι × σ) :=
  match queue with
  | none => .ok (h, deleted)
  | some q => deleteQLoop itemdelete fuel h (some q) deleted

variable {h₀ h : Heap ι} {q : Queue} {cells : List (ℕ × ι)} {fuel : ℕ}

/-- A queue without cells holds no memory. -/
theorem Represents.heap_eq (hrep : Represents h₀ h q []) : h = h₀ :=
  funext fun b => hrep.frame b List.not_mem_nil

/-- What is done with an item; nothing, when there is no function. -/
def handOver (itemdelete : Option (σ → ι → σ)) : σ → ι → σ :=
  itemdelete.getD fun deleted _ => deleted

/-- The loop of `delete_q` hands over the items and frees the nodes. -/
theorem deleteQLoop_eq (itemdelete : Option (σ → ι → σ)) (hrep : Represents h₀ h q cells)
    (hfuel : cells.length < fuel) (deleted : σ) :
    deleteQLoop itemdelete fuel h (some q) deleted =
      .ok (h₀, (items cells).foldl (handOver itemdelete) deleted) := by
  induction cells generalizing h q fuel deleted with
  | nil =>
    obtain ⟨fuel, rfl⟩ := Nat.exists_eq_succ_of_ne_zero (Nat.ne_zero_of_lt hfuel)
    have hhead : q.head = none := hrep.chain
    rw [deleteQLoop, if_pos hhead, hrep.heap_eq]
    rfl
  | cons cell rest ih =>
    obtain ⟨fuel, rfl⟩ := Nat.exists_eq_succ_of_ne_zero (Nat.ne_zero_of_lt hfuel)
    obtain ⟨a, x⟩ := cell
    have hhead : q.head ≠ none := by
      rw [hrep.chain.1]
      exact Option.some_ne_none a
    obtain ⟨h', q', hdeq, hrep'⟩ := hrep.deqQ_eq
    have hnext := ih hrep' (Nat.lt_of_succ_lt_succ hfuel) (handOver itemdelete deleted x)
    rw [deleteQLoop, if_neg hhead, hdeq]
    cases itemdelete <;> exact hnext

/-- `delete_q` on what holds a list, `NULL` included. The items are handed over in their order,
and the heap is what it was before the queue. -/
theorem Holds.deleteQ_eq {queue : Option Queue} {xs : List ι} (h' : Holds h₀ h queue xs)
    (hfuel : xs.length < fuel) (itemdelete : Option (σ → ι → σ)) (deleted : σ) :
    deleteQ fuel h queue itemdelete deleted =
      .ok (h₀, xs.foldl (handOver itemdelete) deleted) := by
  cases queue with
  | none =>
    obtain ⟨rfl, rfl⟩ := h'
    rfl
  | some q =>
    obtain ⟨-, cells, hrep, rfl⟩ := h'
    rw [length_items] at hfuel
    exact deleteQLoop_eq itemdelete hrep hfuel deleted

/-! ### What enters and leaves a queue -/

/-- The items that a call with this result puts into the queue. -/
def Call.entered : Call ι → Result ι → List ι
  | .enqQ item _, .code value => if value = 0 then [item] else []
  | _, _ => []

/-- The items that a call with this result takes out of the queue. -/
def Call.left : Call ι → Result ι → List ι
  | .deqQ, .item x | .popItemQ _, .item x => x.toList
  | .deleteIntegerTargetsQ _ _, .freed xs => xs
  | _, _ => []

/-- The items that some calls put into the queue, in the order of the calls. -/
def entered (calls : List (Call ι)) (results : List (Result ι)) : List ι :=
  (List.zipWith Call.entered calls results).flatten

/-- The items that some calls take out of the queue. -/
def left (calls : List (Call ι)) (results : List (Result ι)) : List ι :=
  (List.zipWith Call.left calls results).flatten

/-- The items that a call removes are told to the caller. -/
def Call.Reports (version : Version) : Call ι → Prop
  | .deleteIntegerTargetsQ _ _ => version.freesInts = true
  | _ => True

/-- The first match and the list without it. -/
theorem find_perm (itemMatcher : ι → Bool) (xs : List ι) :
    xs.Perm ((xs.find? itemMatcher).toList ++ xs.eraseP itemMatcher) := by
  induction xs with
  | nil => exact .refl _
  | cons x xs ih =>
    cases hmatch : itemMatcher x with
    | true =>
      rw [List.find?_cons_of_pos hmatch, List.eraseP_cons_of_pos hmatch]
      exact .refl _
    | false =>
      have hno : ¬itemMatcher x = true := by simp [hmatch]
      rw [List.find?_cons_of_neg hno, List.eraseP_cons_of_neg hno]
      exact (ih.cons x).trans List.perm_middle.symm

/-- What was in the queue and what enters it is what leaves it and what then is in it. -/
theorem specCall_perm {version : Version} {call : Call ι} (hreports : call.Reports version)
    (allocated : Bool) (xs : List ι) :
    (call.entered (specCall version allocated xs call).2 ++ xs).Perm
      (call.left (specCall version allocated xs call).2 ++
        (specCall version allocated xs call).1) := by
  cases call with
  | enqQ item choice =>
    cases allocated with
    | false => exact .refl _
    | true => exact List.perm_append_comm
  | deqQ => cases xs <;> exact .refl _
  | peekQ | iterateQ | getItemQ itemMatcher => exact .refl _
  | popItemQ itemMatcher => exact find_perm itemMatcher xs
  | deleteIntegerTargetsQ ints target =>
    have hfrees : version.freesInts = true := hreports
    simp only [specCall, hfrees, if_true, Call.entered, Call.left, List.nil_append]
    exact (List.filter_append_perm _ xs).symm

/-! ### Whole lives -/

variable [DecidableEq ι] {version : Version} {extra : ℕ}

/-- A call changes the list and adds a result as it should. -/
theorem of_step {s s' : State ι} {call : Call ι} (hstep : step version extra s call = .ok s') :
    s'.list = (specCall version (allocates s.heap s.queue call) s.list call).1 ∧
      s'.expected =
        s.expected ++ [(specCall version (allocates s.heap s.queue call) s.list call).2] := by
  rw [step] at hstep
  cases hperform : perform version (s.list.length + 1 + extra) s.heap s.queue call with
  | error e =>
    rw [hperform] at hstep
    cases hstep
  | ok outcome =>
    rw [hperform] at hstep
    cases hstep
    exact ⟨rfl, rfl⟩

/-- Legal calls succeed, and what enters and leaves the queue balances when the caller is told
of all that leaves it. -/
theorem RefinesList.balances {s : State ι} (href : RefinesList h₀ s) {calls : List (Call ι)}
    (hlegal : Meets (step version extra) (fun s call => Legal version s.list call) s calls) :
    ∃ t results, run (step version extra) s calls = .ok t ∧ RefinesList h₀ t ∧
      t.returned = s.returned ++ results ∧
      ((∀ call ∈ calls, call.Reports version) →
        (entered calls results ++ s.list).Perm (left calls results ++ t.list)) := by
  induction calls generalizing s with
  | nil => exact ⟨s, [], rfl, href, (List.append_nil _).symm, fun _ => .refl _⟩
  | cons call calls ih =>
    obtain ⟨hlegalCall, hrest⟩ := meets_cons.mp hlegal
    obtain ⟨s', hs', hrefines⟩ := href.legal hlegalCall extra
    obtain ⟨t, results, hrun, hholds, hreturned, hbalance⟩ :=
      ih hrefines.refines (hrest s' hs')
    obtain ⟨hlist, hexpected⟩ := of_step hs'
    let result := (specCall version (allocates s.heap s.queue call) s.list call).2
    refine ⟨t, result :: results, run_cons_eq_ok.mpr ⟨s', hs', hrun⟩, hholds, ?_,
      fun hreports => ?_⟩
    · rw [hreturned, hrefines.refines.returned, hexpected, href.returned, List.append_assoc]
      rfl
    · obtain ⟨hcall, hcalls⟩ := List.forall_mem_cons.mp hreports
      have hperm := hbalance hcalls
      have hstep := specCall_perm hcall (allocates s.heap s.queue call) s.list
      rw [← hlist] at hstep
      have hfirst := List.perm_append_comm_assoc (call.entered result) (entered calls results)
        s.list
      have hlast := List.perm_append_comm_assoc (entered calls results) (call.left result) s'.list
      rw [entered, left, List.zipWith_cons_cons, List.zipWith_cons_cons, List.flatten_cons,
        List.flatten_cons, List.append_assoc, List.append_assoc]
      calc
        (call.entered result ++ (entered calls results ++ s.list)).Perm
            (entered calls results ++ (call.left result ++ s'.list)) :=
          hfirst.trans (hstep.append_left _)
        List.Perm _ (call.left result ++ (left calls results ++ t.list)) :=
          hlast.trans (hperm.append_left _)

/-- After the whole life of a queue the heap is what it was before `make_q`. Every item that
enters the queue leaves it once, at the latest to the function given to `delete_q`; only the
`delete_integer_targets_q` of lab3 does not tell which items it removes. -/
theorem deletesAll_of_meets (version : Version) (extra : ℕ) (h₀ : Heap ι) (allocated : Bool)
    (calls : List (Call ι))
    (hlegal : Meets (step version extra) (fun s call => Legal version s.list call)
      (initial h₀ allocated) calls) :
    ∃ t deleted, run (step version extra) (initial h₀ allocated) calls = .ok t ∧
      deleteQ (t.list.length + 1 + extra) t.heap t.queue
        (some fun deleted x => deleted ++ [x]) [] = .ok (h₀, deleted) ∧
      ((∀ call ∈ calls, call.Reports version) →
        (entered calls t.returned).Perm (left calls t.returned ++ deleted)) := by
  have hinit : RefinesList h₀ (initial h₀ allocated) := by
    refine ⟨rfl, ?_⟩
    cases allocated with
    | false => exact ⟨rfl, rfl⟩
    | true => exact ⟨Iff.rfl, [], ⟨rfl, rfl, List.nodup_nil, nofun, fun _ _ => rfl⟩, rfl⟩
  obtain ⟨t, results, hrun, hholds, hreturned, hbalance⟩ := hinit.balances hlegal
  have hresults : t.returned = results := hreturned
  have hfuel : t.list.length < t.list.length + 1 + extra := by omega
  have hdelete := hholds.holds.deleteQ_eq hfuel
    (some fun (deleted : List ι) x => deleted ++ [x]) []
  have hall : t.list.foldl (fun deleted x => deleted ++ [x]) [] = t.list := by
    rw [List.foldl_append_eq_append, List.nil_append, ← List.flatMap_def,
      List.flatMap_singleton']
  refine ⟨t, t.list, hrun, ?_, fun hreports => ?_⟩
  · rw [hdelete]
    exact congrArg (fun xs => Except.ok (h₀, xs)) hall
  · rw [hresults]
    simpa [initial] using hbalance hreports

/-- Three items enter a queue, and one of them leaves it before the end. -/
def callsLeaving : List (Call ℕ) :=
  [.enqQ 7 (some 0), .enqQ 8 (some 1), .popItemQ (· == 8), .enqQ 9 (some 1), .iterateQ]

/-- The other two are handed over at the end. -/
theorem deletesAll_leaving :
    ∃ t deleted, run (step .lab3 0) (initial (fun _ => none) true) callsLeaving = .ok t ∧
      deleteQ (t.list.length + 1 + 0) t.heap t.queue
        (some fun deleted x => deleted ++ [x]) [] = .ok (fun _ => none, deleted) ∧
      (entered callsLeaving t.returned).Perm (left callsLeaving t.returned ++ deleted) := by
  have hlegal : Meets (step .lab3 0) (fun s call => Legal .lab3 s.list call)
      (initial (fun _ => none) true) callsLeaving := by
    refine meets_of_forall fun call hcall s => ?_
    cases call <;> trivial
  obtain ⟨t, deleted, hrun, hdelete, hbalance⟩ :=
    deletesAll_of_meets .lab3 0 (fun _ => none) true callsLeaving hlegal
  exact ⟨t, deleted, hrun, hdelete, hbalance (by simp [callsLeaving, Call.Reports])⟩

end NetworkLabs.LinkedQueue
