import Mathlib.Data.List.Basic

/-! Cutting a sequence along a list of pieces, each of which takes one item it
accepts or a run of any length. The facts a matcher rests on: what each piece
takes, that neighbouring runs are one, that single items fix how far a cut has
come, and that a sequence has at least one item for each of them. -/
namespace Wildcards

inductive Piece (α : Type) where
  | run
  | one (accepts : α → Prop)

variable {α : Type}

inductive Cuts : List (Piece α) → List α → Prop where
  | nil : Cuts [] []
  | run (taken : List α) {rest : List (Piece α)} {items : List α} : Cuts rest items →
      Cuts (.run :: rest) (taken ++ items)
  | one {accepts : α → Prop} {item : α} {rest : List (Piece α)} {items : List α} :
      accepts item → Cuts rest items → Cuts (.one accepts :: rest) (item :: items)

def Piece.Single : Piece α → Prop
  | .run => False
  | .one _ => True

@[simp] theorem cuts_nil_iff (items : List α) : Cuts [] items ↔ items = [] := by
  constructor
  · intro cuts
    cases cuts
    rfl
  · rintro rfl
    exact .nil

@[simp] theorem cuts_one_nil (accepts : α → Prop) (rest : List (Piece α)) :
    ¬ Cuts (.one accepts :: rest) [] := by
  intro cuts
  cases cuts

@[simp] theorem cuts_one_cons (accepts : α → Prop) (rest : List (Piece α)) (item : α) (items : List α) :
    Cuts (.one accepts :: rest) (item :: items) ↔ accepts item ∧ Cuts rest items := by
  constructor
  · intro cuts
    cases cuts with
    | one accepted later => exact ⟨accepted, later⟩
  · rintro ⟨accepted, later⟩
    exact .one accepted later

theorem cuts_run_iff (rest : List (Piece α)) (items : List α) :
    Cuts (.run :: rest) items ↔ ∃ taken, Cuts rest (items.drop taken) := by
  constructor
  · intro cuts
    cases cuts with
    | run taken later => exact ⟨taken.length, by rwa [List.drop_left]⟩
  · rintro ⟨taken, later⟩
    rw [← List.take_append_drop taken items]
    exact .run _ later

theorem cuts_run_run (rest : List (Piece α)) (items : List α) :
    Cuts (.run :: .run :: rest) items ↔ Cuts (.run :: rest) items := by
  rw [cuts_run_iff, cuts_run_iff]
  constructor
  · rintro ⟨first, later⟩
    obtain ⟨second, last⟩ := (cuts_run_iff _ _).mp later
    exact ⟨first + second, by rwa [← List.drop_drop]⟩
  · rintro ⟨taken, later⟩
    exact ⟨taken, (cuts_run_iff _ _).mpr ⟨0, later⟩⟩

theorem cuts_append_congr {before after : List (Piece α)}
    (alike : ∀ items, Cuts before items ↔ Cuts after items)
    (front : List (Piece α)) (items : List α) :
    Cuts (front ++ before) items ↔ Cuts (front ++ after) items := by
  induction front generalizing items with
  | nil => exact alike items
  | cons piece rest ih =>
      cases piece with
      | run =>
          rw [List.cons_append, List.cons_append, cuts_run_iff, cuts_run_iff]
          exact exists_congr fun taken => ih _
      | one accepts =>
          cases items with
          | nil => simp
          | cons item items => simp [ih items]

theorem cuts_empty_iff (pieces : List (Piece α)) : Cuts pieces [] ↔ ∀ piece ∈ pieces, piece = .run := by
  induction pieces with
  | nil => simp
  | cons piece rest ih =>
      cases piece with
      | run => simp [cuts_run_iff, ih]
      | one accepts => simp

theorem cuts_behind_singles {singles rest : List (Piece α)} {items : List α}
    (single : ∀ piece ∈ singles, piece.Single)
    (cuts : Cuts (singles ++ rest) items) :
    singles.length ≤ items.length ∧ Cuts rest (items.drop singles.length) := by
  induction singles generalizing items with
  | nil => exact ⟨Nat.zero_le _, cuts⟩
  | cons piece singles ih =>
      cases piece with
      | run => exact absurd (single .run (by simp)) (by simp [Piece.Single])
      | one accepts =>
          cases cuts with
          | one accepted later =>
              obtain ⟨short, behind⟩ :=
                ih (fun piece member => single piece (List.mem_cons_of_mem _ member)) later
              exact ⟨Nat.succ_le_succ short, behind⟩

/-- How many items the pieces take one by one. -/
def singles : List (Piece α) → Nat
  | [] => 0
  | .run :: rest => singles rest
  | .one _ :: rest => singles rest + 1

theorem singles_le_length {pieces : List (Piece α)} {items : List α} (cuts : Cuts pieces items) :
    singles pieces ≤ items.length := by
  induction cuts with
  | nil => exact Nat.le_refl _
  | run taken _ ih =>
      rw [List.length_append]
      exact Nat.le_trans ih (Nat.le_add_left _ _)
  | one _ _ ih => exact Nat.succ_le_succ ih

end Wildcards
