import Mathlib.Order.Basic

/-! Runs of a labelled transition relation and the induction rules over them.
A run lists the labels in the order they were taken. -/
namespace Hashring.Transition

variable {State Label : Type*}

inductive Run (step : State → Label → State → Prop) : State → List Label → State → Prop where
  | refl (state : State) : Run step state [] state
  | next {before middle after : State} {label : Label} {rest : List Label} :
      step before label middle → Run step middle rest after → Run step before (label :: rest) after

variable {step : State → Label → State → Prop}

theorem run_append {before middle after : State} {early late : List Label}
    (first : Run step before early middle) (second : Run step middle late after) :
    Run step before (early ++ late) after := by
  induction first with
  | refl => exact second
  | next taken _ ih => exact Run.next taken (ih second)

theorem run_single {before after : State} {label : Label} (taken : step before label after) :
    Run step before [label] after :=
  Run.next taken (Run.refl after)

def Permits (guard : State → Label → Prop) (next : State → Label → State) : State → List Label → Prop
  | _, [] => True
  | state, label :: rest => guard state label ∧ Permits guard next (next state label) rest

instance permitsDecidable (guard : State → Label → Prop) [∀ state label, Decidable (guard state label)]
    (next : State → Label → State) : (state : State) → (labels : List Label) →
      Decidable (Permits guard next state labels)
  | _, [] => isTrue trivial
  | state, label :: rest =>
      have _ := permitsDecidable guard next (next state label) rest
      inferInstanceAs (Decidable (guard state label ∧ Permits guard next (next state label) rest))

theorem permitted_run (guard : State → Label → Prop) (next : State → Label → State)
    (enabled : ∀ state label, guard state label → step state label (next state label))
    (labels : List Label)
    (state : State) (permitted : Permits guard next state labels) :
    Run step state labels (labels.foldl next state) := by
  induction labels generalizing state with
  | nil => exact .refl state
  | cons label rest ih => exact .next (enabled state label permitted.1) (ih _ permitted.2)

theorem total_run (next : State → Label → State)
    (enabled : ∀ state label, step state label (next state label))
    (labels : List Label) (state : State) : Run step state labels (labels.foldl next state) := by
  induction labels generalizing state with
  | nil => exact .refl state
  | cons label rest ih => exact .next (enabled state label) (ih _)

/-- A predicate that every allowed step keeps holds after every run whose
labels are all allowed. -/
theorem run_invariant (allowed : Label → Prop) (inv : State → Prop)
    (keeps : ∀ before label after, allowed label → inv before → step before label after → inv after)
    {before after : State} {labels : List Label} (run : Run step before labels after)
    (permitted : ∀ label ∈ labels, allowed label) (start : inv before) : inv after := by
  induction run with
  | refl => exact start
  | next taken _ ih =>
      apply ih
      · intro label member
        exact permitted label (List.mem_cons_of_mem _ member)
      · exact keeps _ _ _ (permitted _ List.mem_cons_self) start taken

theorem run_mapped {Other : Type*} {other : Other → Label → Other → Prop} (image : State → Other)
    (inv : State → Prop)
    (maps : ∀ before label after, inv before → step before label after → inv after ∧
      other (image before) label (image after))
    {before after : State} {labels : List Label} (run : Run step before labels after)
    (start : inv before) :
    inv after ∧ Run other (image before) labels (image after) := by
  induction run with
  | refl => exact ⟨start, .refl _⟩
  | next taken _ ih =>
      obtain ⟨kept, mapped⟩ := maps _ _ _ start taken
      obtain ⟨reached, rest⟩ := ih kept
      exact ⟨reached, .next mapped rest⟩

end Hashring.Transition
