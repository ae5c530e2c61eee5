import Mathlib.Data.List.Basic
import Mathlib.Data.List.Induction
import Mathlib.Logic.Function.Basic

/-!
# Linked lists in a heap

A heap maps addresses to nodes; a pointer is an optional address. A segment is a list of
cells, each an address with its item, that are linked from one pointer to another. The
operations fail where C leaves the behaviour undefined.
-/

namespace Foundations

universe u

/-- The ways in which a program with pointers goes wrong. -/
inductive HeapFault where
  /-- A pointer to nothing, or one that was never set, is dereferenced. -/
  | invalidAccess
  /-- What is freed is not allocated. -/
  | invalidFree
  /-- A loop has used up its fuel. -/
  | outOfFuel
  deriving DecidableEq, Repr

/-- A computation that succeeds goes on with its value. -/
@[simp] theorem ok_bind {ε : Type*} {α β : Type u} (x : α) (f : α → Except ε β) :
    (Except.ok x >>= f) = f x := rfl

/-- A computation that fails does not go on. -/
@[simp] theorem error_bind {ε : Type*} {α β : Type u} (e : ε) (f : α → Except ε β) :
    (Except.error e >>= f) = .error e := rfl

/-- A node of a linked list, with its item and the address of the next node. -/
structure Node (ι : Type*) where
  item : ι
  next : Option ℕ

/-- The allocated nodes by their addresses. Every other address is free or was
never allocated. -/
def Heap (ι : Type*) := ℕ → Option (Node ι)

variable {ι : Type*}

namespace Heap

/-- The node that a pointer points to. Loading through `NULL` or a dangling pointer is undefined
behaviour. -/
def load (h : Heap ι) : Option ℕ → Except HeapFault (Node ι)
  | some a =>
    match h a with
    | some node => .ok node
    | none => .error .invalidAccess
  | none => .error .invalidAccess

/-- Put a node at an address, over what may be there. -/
def put (h : Heap ι) (a : ℕ) (node : Node ι) : Heap ι := Function.update h a (some node)

/-- Change the link of the node that a pointer points to. -/
def setNext (h : Heap ι) (p next : Option ℕ) : Except HeapFault (Heap ι) :=
  match p with
  | some a => (h.load (some a)).map fun node => h.put a { node with next := next }
  | none => .error .invalidAccess

/-- Take the node at an address away, so that the address is free. -/
def remove (h : Heap ι) (a : ℕ) : Heap ι := Function.update h a none

/-- `free` for a node. Freeing what is not allocated, a second time for example, is undefined
behaviour. -/
def free (h : Heap ι) (a : ℕ) : Except HeapFault (Heap ι) :=
  match h a with
  | some _ => .ok (h.remove a)
  | none => .error .invalidFree

/-- What `malloc` returns: `NULL`, or an address that is not in use. -/
def malloc (h : Heap ι) (choice : Option ℕ) : Option ℕ := choice.filter fun a => (h a).isNone

/-- An allocated node can be loaded, which gives the node. -/
theorem load_eq {h : Heap ι} {a : ℕ} {node : Node ι} (ha : h a = some node) :
    h.load (some a) = .ok node := by
  rw [load, ha]

/-- The link of an allocated node can be changed, and nothing else of it changes. -/
theorem setNext_eq {h : Heap ι} {a : ℕ} {node : Node ι} (ha : h a = some node)
    (next : Option ℕ) : h.setNext (some a) next = .ok (h.put a { node with next := next }) := by
  rw [setNext, load_eq ha]
  rfl

/-- An allocated node can be freed, and is gone then. -/
theorem free_eq {h : Heap ι} {a : ℕ} {node : Node ι} (ha : h a = some node) :
    h.free a = .ok (h.remove a) := by
  rw [free, ha]

/-- An address that `malloc` returns is not in use. -/
theorem of_malloc {h : Heap ι} {choice : Option ℕ} {a : ℕ} (hm : h.malloc choice = some a) :
    h a = none := by
  rw [malloc, Option.filter_eq_some_iff] at hm
  exact Option.isNone_iff_eq_none.mp hm.2

/-- The address of a node that was put in place. -/
@[simp] theorem put_same (h : Heap ι) (a : ℕ) (node : Node ι) : h.put a node a = some node :=
  Function.update_self ..

/-- Putting a node in place leaves all other addresses as they are. -/
theorem put_of_ne (h : Heap ι) {a b : ℕ} (node : Node ι) (hba : b ≠ a) :
    h.put a node b = h b :=
  Function.update_of_ne hba ..

/-- A node that was taken away is not allocated. -/
@[simp] theorem remove_same (h : Heap ι) (a : ℕ) : h.remove a a = none :=
  Function.update_self ..

/-- Taking a node away leaves all other addresses as they are. -/
theorem remove_of_ne (h : Heap ι) {a b : ℕ} (hba : b ≠ a) : h.remove a b = h b :=
  Function.update_of_ne hba ..

end Heap

/-- The addresses of some cells, in the order of the links. -/
def addresses (cells : List (ℕ × ι)) : List ℕ := cells.map Prod.fst

/-- A pointer to the first cell, `NULL` when there is none. -/
def first (cells : List (ℕ × ι)) : Option ℕ := (addresses cells).head?

/-- A pointer to the last cell, `NULL` when there is none. -/
def last (cells : List (ℕ × ι)) : Option ℕ := (addresses cells).getLast?

/-- The addresses of two parts are those of the first one and then those of the other. -/
@[simp] theorem addresses_append (cells cells' : List (ℕ × ι)) :
    addresses (cells ++ cells') = addresses cells ++ addresses cells' :=
  List.map_append

/-- The addresses of a cell and the other ones. -/
@[simp] theorem addresses_cons (cell : ℕ × ι) (cells : List (ℕ × ι)) :
    addresses (cell :: cells) = cell.1 :: addresses cells := rfl

/-- No cells have no addresses. -/
@[simp] theorem addresses_nil : addresses ([] : List (ℕ × ι)) = [] := rfl

/-- Nothing points to the first of no cells. -/
@[simp] theorem first_nil : first ([] : List (ℕ × ι)) = none := rfl

/-- The first cell is the one in front. -/
@[simp] theorem first_cons (cell : ℕ × ι) (cells : List (ℕ × ι)) :
    first (cell :: cells) = some cell.1 := rfl

/-- Nothing points to the last of no cells. -/
@[simp] theorem last_nil : last ([] : List (ℕ × ι)) = none := rfl

/-- The last cell is the one behind all others. -/
@[simp] theorem last_concat (cells : List (ℕ × ι)) (cell : ℕ × ι) :
    last (cells ++ [cell]) = some cell.1 := by
  simp [last]

/-- The last cell of two parts is that of the second, if there is one. -/
theorem last_append_cons (cells : List (ℕ × ι)) (cell : ℕ × ι) (cells' : List (ℕ × ι)) :
    last (cells ++ cell :: cells') = last (cell :: cells') := by
  simp [last, List.getLast?_append, List.getLast?_cons]

/-- The last cell is one of the cells. -/
theorem mem_of_last {cells : List (ℕ × ι)} {a : ℕ} (h : last cells = some a) :
    a ∈ addresses cells :=
  List.mem_of_getLast? h

/-- The cells linked from one pointer to another, in the order of the links. -/
def Segment (h : Heap ι) : Option ℕ → List (ℕ × ι) → Option ℕ → Prop
  | p, [], stop => p = stop
  | p, (a, x) :: cells, stop =>
    p = some a ∧ ∃ next, h a = some ⟨x, next⟩ ∧ Segment h next cells stop

variable {h h' : Heap ι} {p stop stop' : Option ℕ} {cells : List (ℕ × ι)}

/-- A segment of two parts is a segment to some pointer and one from it. -/
theorem segment_append {cells' : List (ℕ × ι)} :
    Segment h p (cells ++ cells') stop ↔
      ∃ q, Segment h p cells q ∧ Segment h q cells' stop := by
  induction cells generalizing p with
  | nil => simp [Segment]
  | cons cell cells ih =>
    obtain ⟨a, x⟩ := cell
    simp only [List.cons_append, Segment, ih]
    constructor
    · rintro ⟨rfl, next, ha, q, hcells, hcells'⟩
      exact ⟨q, ⟨rfl, next, ha, hcells⟩, hcells'⟩
    · rintro ⟨q, ⟨rfl, next, ha, hcells⟩, hcells'⟩
      exact ⟨rfl, next, ha, q, hcells, hcells'⟩

/-- Frame rule: a segment depends only on its own cells. -/
theorem Segment.congr (hseg : Segment h p cells stop)
    (hsame : ∀ a ∈ addresses cells, h' a = h a) : Segment h' p cells stop := by
  induction cells generalizing p with
  | nil => exact hseg
  | cons cell cells ih =>
    obtain ⟨a, x⟩ := cell
    obtain ⟨rfl, next, ha, hcells⟩ := hseg
    refine ⟨rfl, next, ?_, ih hcells fun b hb => hsame b (List.mem_cons_of_mem _ hb)⟩
    rw [hsame a List.mem_cons_self, ha]

/-- Putting a node elsewhere leaves a segment alone. -/
theorem Segment.put {a : ℕ} (hseg : Segment h p cells stop) (ha : a ∉ addresses cells)
    (node : Node ι) : Segment (h.put a node) p cells stop := by
  apply hseg.congr
  intro b hb
  apply Heap.put_of_ne
  rintro rfl
  exact ha hb

/-- So does taking a node elsewhere away. -/
theorem Segment.remove {a : ℕ} (hseg : Segment h p cells stop) (ha : a ∉ addresses cells) :
    Segment (h.remove a) p cells stop := by
  apply hseg.congr
  intro b hb
  apply Heap.remove_of_ne
  rintro rfl
  exact ha hb

/-- Every cell of a segment is allocated. -/
theorem Segment.allocated (hseg : Segment h p cells stop) {a : ℕ} (ha : a ∈ addresses cells) :
    h a ≠ none := by
  induction cells generalizing p with
  | nil => cases ha
  | cons cell cells ih =>
    obtain ⟨b, x⟩ := cell
    obtain ⟨-, next, hb, hcells⟩ := hseg
    rcases List.mem_cons.mp ha with rfl | ha
    · rw [hb]
      exact Option.some_ne_none _
    · exact ih hcells ha

/-- A segment that ends in `NULL` begins with a pointer to its first cell. -/
theorem Segment.eq_first (hseg : Segment h p cells none) : p = first cells := by
  cases cells with
  | nil => exact hseg
  | cons cell cells => exact hseg.1

/-- The link of the last cell can be changed. -/
theorem Segment.relink {a : ℕ} {x : ι} (hseg : Segment h p (cells ++ [(a, x)]) stop)
    (hnew : a ∉ addresses cells) :
    Segment (h.put a ⟨x, stop'⟩) p (cells ++ [(a, x)]) stop' := by
  rw [segment_append] at hseg ⊢
  obtain ⟨q, hcells, hlast⟩ := hseg
  exact ⟨q, hcells.put hnew _, hlast.1, stop', Heap.put_same h a _, rfl⟩

/-- Without a last cell there is none. -/
theorem eq_nil_of_last (hlast : last cells = none) : cells = [] := by
  simpa [last, addresses, List.getLast?_eq_none_iff] using hlast

/-- A nonempty list of cells has a last one. -/
theorem eq_concat_of_last {a : ℕ} (hlast : last cells = some a) :
    ∃ cells' x, cells = cells' ++ [(a, x)] := by
  induction cells using List.reverseRecOn with
  | nil => cases hlast
  | append_singleton cells cell _ =>
    obtain ⟨b, x⟩ := cell
    simp only [last, addresses, List.map_append, List.map_singleton, List.getLast?_append,
      List.getLast?_singleton, Option.some_or, Option.some.injEq] at hlast
    subst hlast
    exact ⟨cells, x, rfl⟩

end Foundations
