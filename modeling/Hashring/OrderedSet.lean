import Mathlib.Data.List.Sort
import Mathlib.Data.Prod.Lex

/-! Finite sets kept in increasing order, as an ordered tree keeps them. The
order is part of the value: a structure cannot be built from an unsorted or
repeating list, so every enumeration below is already in order and free of
duplicates. -/
namespace Hashring

variable {α : Type} [LinearOrder α]

structure OrderedSet (α : Type) [LinearOrder α] where
  elements : List α
  sorted : elements.SortedLT

namespace OrderedSet

instance : DecidableEq (OrderedSet α) := fun left right =>
  decidable_of_iff (left.elements = right.elements)
    ⟨fun same => by cases left; cases right; cases same; rfl, fun same => same ▸ rfl⟩

instance : Membership α (OrderedSet α) := ⟨fun set value => value ∈ set.elements⟩

instance (value : α) (set : OrderedSet α) : Decidable (value ∈ set) :=
  inferInstanceAs (Decidable (value ∈ set.elements))

def empty : OrderedSet α := ⟨[], List.Pairwise.nil.sortedLT⟩

def insert (value : α) (set : OrderedSet α) : OrderedSet α :=
  if absent : value ∈ set.elements then set else
    { elements := set.elements.orderedInsert (· ≤ ·) value
      sorted := by
        have ordered := (set.sorted.sortedLE.pairwise).orderedInsert value set.elements
        have once : (set.elements.orderedInsert (· ≤ ·) value).Nodup :=
          (List.perm_orderedInsert _ _ _).nodup_iff.mpr (List.nodup_cons.mpr ⟨absent, set.sorted.nodup⟩)
        exact ordered.sortedLE.sortedLT_of_nodup once }

def filter (keep : α → Bool) (set : OrderedSet α) : OrderedSet α :=
  ⟨set.elements.filter keep, (set.sorted.pairwise.filter _).sortedLT⟩

def erase (value : α) (set : OrderedSet α) : OrderedSet α :=
  set.filter fun candidate => candidate ≠ value

def first (set : OrderedSet α) : Option α := set.elements.head?

theorem mem_def (set : OrderedSet α) (value : α) : value ∈ set ↔ value ∈ set.elements := Iff.rfl

@[simp]
theorem mem_empty (value : α) : ¬ value ∈ (empty : OrderedSet α) := by
  simp [mem_def, empty]

@[simp]
theorem mem_insert (set : OrderedSet α) (value probe : α) :
    probe ∈ set.insert value ↔ probe = value ∨ probe ∈ set := by
  unfold insert
  by_cases present : value ∈ set.elements
  · simp only [present, ↓reduceDIte]
    constructor
    · exact Or.inr
    · rintro (rfl | old)
      · exact present
      · exact old
  · simp [present, mem_def, List.mem_orderedInsert]

@[simp]
theorem mem_filter (set : OrderedSet α) (keep : α → Bool) (probe : α) :
    probe ∈ set.filter keep ↔ probe ∈ set ∧ keep probe = true := by
  simp [mem_def, filter]

@[simp]
theorem mem_erase (set : OrderedSet α) (value probe : α) :
    probe ∈ set.erase value ↔ probe ≠ value ∧ probe ∈ set := by
  simp [erase, and_comm]

theorem first_mem (set : OrderedSet α) (value : α) (head : set.first = some value) : value ∈ set :=
  List.mem_of_mem_head? head

theorem first_le (set : OrderedSet α) (value probe : α) (head : set.first = some value)
    (member : probe ∈ set) : value ≤ probe := by
  cases listed : set.elements with
  | nil => simp [first, listed] at head
  | cons leading rest =>
      have same : leading = value := by simpa [first, listed] using head
      subst leading
      have sorted := set.sorted
      rw [listed] at sorted
      rw [mem_def, listed] at member
      rcases List.mem_cons.mp member with here | later
      · exact le_of_eq here.symm
      · exact le_of_lt ((List.pairwise_cons.mp sorted.pairwise).1 probe later)

end OrderedSet

/-- A priority queue that yields its smallest element first and may hold equal
elements more than once. -/
structure OrderedBag (α : Type) [LinearOrder α] where
  elements : List α
  sorted : elements.SortedLE

namespace OrderedBag

instance : DecidableEq (OrderedBag α) := fun left right =>
  decidable_of_iff (left.elements = right.elements)
    ⟨fun same => by cases left; cases right; cases same; rfl, fun same => same ▸ rfl⟩

instance : Membership α (OrderedBag α) := ⟨fun bag value => value ∈ bag.elements⟩

instance (value : α) (bag : OrderedBag α) : Decidable (value ∈ bag) :=
  inferInstanceAs (Decidable (value ∈ bag.elements))

def empty : OrderedBag α := ⟨[], List.Pairwise.nil.sortedLE⟩

def push (value : α) (bag : OrderedBag α) : OrderedBag α :=
  ⟨bag.elements.orderedInsert (· ≤ ·) value,
    ((bag.sorted.pairwise).orderedInsert value bag.elements).sortedLE⟩

def peek (bag : OrderedBag α) : Option α := bag.elements.head?

def due (isDue : α → Bool) (bag : OrderedBag α) : List α := bag.elements.takeWhile isDue

/-- What is left once every due element was popped. -/
def later (isDue : α → Bool) (bag : OrderedBag α) : OrderedBag α :=
  ⟨bag.elements.dropWhile isDue,
    (bag.sorted.pairwise.sublist (List.dropWhile_sublist isDue)).sortedLE⟩

theorem mem_def (bag : OrderedBag α) (value : α) : value ∈ bag ↔ value ∈ bag.elements := Iff.rfl

@[simp]
theorem mem_push (bag : OrderedBag α) (value probe : α) :
    probe ∈ bag.push value ↔ probe = value ∨ probe ∈ bag := by
  simp [mem_def, push, List.mem_orderedInsert]

theorem mem_due_or_later (bag : OrderedBag α) (isDue : α → Bool) (value : α) :
    value ∈ bag ↔ value ∈ bag.due isDue ∨ value ∈ bag.later isDue := by
  rw [mem_def, mem_def, due, later, ← List.mem_append, List.takeWhile_append_dropWhile]

theorem due_isDue (bag : OrderedBag α) (isDue : α → Bool) (value : α) (popped : value ∈ bag.due isDue) :
    isDue value = true :=
  List.all_eq_true.mp List.all_takeWhile value popped

theorem later_not_due (bag : OrderedBag α) (isDue : α → Bool)
    (initial : ∀ {small large}, small ≤ large → isDue large = true → isDue small = true)
    (value : α) (left : value ∈ bag.later isDue) : isDue value = false := by
  by_contra due
  rw [Bool.not_eq_false] at due
  cases rest : bag.elements.dropWhile isDue with
  | nil =>
      rw [mem_def] at left
      simp only [later, rest] at left
      exact List.not_mem_nil left
  | cons head tail =>
      have headLate : isDue head = false := by
        have stopped := List.head_dropWhile_not isDue (l := bag.elements) (by simp [rest])
        simpa [rest] using stopped
      have sorted := (bag.later isDue).sorted.pairwise
      rw [mem_def] at left
      simp only [later, rest] at left sorted
      have smallest : head ≤ value := by
        rcases List.mem_cons.mp left with here | behind
        · exact le_of_eq here.symm
        · exact (List.pairwise_cons.mp sorted).1 value behind
      rw [initial smallest due] at headLate
      exact Bool.noConfusion headLate

end OrderedBag
end Hashring
