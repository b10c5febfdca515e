import Hashring.Transition
import Mathlib.Algebra.BigOperators.Group.List.Basic
import Mathlib.Data.List.Basic
import Mathlib.Tactic.Linarith

/-! A counting semaphore that serves its callers in the order they asked. A caller
that asks for many permits keeps its place until enough of them are free, and the
callers behind it wait as well. -/
namespace Hashring

/-- The amounts taken, and those asked for in the order of the requests. -/
structure FairBudget where
  capacity : Nat
  held : List Nat := []
  waiting : List Nat := []

namespace FairBudget

/-- Grants requests from the front as long as they fit. -/
def grant (capacity : Nat) : List Nat → List Nat → List Nat × List Nat
  | held, [] => (held, [])
  | held, amount :: rest =>
      if held.sum + amount ≤ capacity then grant capacity (held ++ [amount]) rest
        else (held, amount :: rest)

def settle (budget : FairBudget) : FairBudget :=
  let (held, waiting) := grant budget.capacity budget.held budget.waiting
  { budget with held, waiting }

def acquire (budget : FairBudget) (amount : Nat) : FairBudget :=
  settle { budget with waiting := budget.waiting ++ [amount] }

def release (budget : FairBudget) (index : Nat) : FairBudget :=
  settle { budget with held := budget.held.eraseIdx index }

/-- No request is larger than the budget, and the first one waits only for permits
that are taken. -/
structure Settled (budget : FairBudget) : Prop where
  within : ∀ amount ∈ budget.waiting, amount ≤ budget.capacity
  blocked : ∀ amount ∈ budget.waiting.head?, budget.capacity < budget.held.sum + amount

theorem Settled.held {budget : FairBudget} (settled : budget.Settled)
    (waiting : budget.waiting ≠ []) : budget.held ≠ [] := by
  intro none
  cases queue : budget.waiting with
  | nil => exact waiting queue
  | cons amount rest =>
      have small := settled.within amount (by simp [queue])
      have large := settled.blocked amount (by simp [queue])
      simp only [none, List.sum_nil, Nat.zero_add] at large
      omega

/-- A grant moves a front part of the queue to the holders and stops where the next
request does not fit. -/
theorem grant_spec (capacity : Nat) (held waiting : List Nat) :
    ∃ granted left, waiting = granted ++ left ∧ grant capacity held waiting = (held ++ granted, left) ∧
      ∀ amount ∈ left.head?, capacity < (held ++ granted).sum + amount := by
  induction waiting generalizing held with
  | nil => exact ⟨[], [], rfl, by simp [grant], by simp⟩
  | cons amount rest ih =>
      unfold grant
      by_cases fits : held.sum + amount ≤ capacity
      · obtain ⟨granted, left, split, result, stops⟩ := ih (held ++ [amount])
        refine ⟨amount :: granted, left, by rw [split]; rfl, ?_, ?_⟩
        · rw [if_pos fits, result, List.append_assoc]
          rfl
        · simpa [List.append_assoc] using stops
      · refine ⟨[], amount :: rest, rfl, by rw [if_neg fits, List.append_nil], ?_⟩
        simp only [List.head?_cons, Option.mem_some_iff, forall_eq', List.append_nil]
        omega

theorem settle_settled (budget : FairBudget)
    (within : ∀ amount ∈ budget.waiting, amount ≤ budget.capacity) :
    budget.settle.Settled ∧ budget.settle.capacity = budget.capacity := by
  obtain ⟨granted, left, split, result, stops⟩ := grant_spec budget.capacity budget.held budget.waiting
  unfold settle
  rw [result]
  refine ⟨⟨?_, stops⟩, rfl⟩
  intro amount listed
  exact within amount (by rw [split]; exact List.mem_append_right _ listed)

inductive Event where
  | acquire (amount : Nat)
  | release (index : Nat)

def Step (before : FairBudget) (event : Event) (after : FairBudget) : Prop :=
  match event with
  | .acquire amount => amount ≤ before.capacity ∧ after = before.acquire amount
  | .release index => index < before.held.length ∧ after = before.release index

theorem Step.settled {before after : FairBudget} {event : Event} (step : Step before event after)
    (settled : before.Settled) :
    after.Settled ∧ after.capacity = before.capacity := by
  cases event with
  | acquire amount =>
      obtain ⟨fits, rfl⟩ := step
      refine settle_settled _ fun other listed => ?_
      rcases List.mem_append.mp listed with early | last
      · exact settled.within other early
      · rw [List.mem_singleton.mp last]
        exact fits
  | release index =>
      obtain ⟨_, rfl⟩ := step
      exact settle_settled _ settled.within

def asked : List Event → List Nat
  | [] => []
  | .acquire amount :: rest => amount :: asked rest
  | .release _ :: rest => asked rest

def releases : List Event → Nat
  | [] => 0
  | .acquire _ :: rest => releases rest
  | .release _ :: rest => releases rest + 1

theorem Step.grants {before after : FairBudget} {event : Event} (step : Step before event after) :
    ∃ granted, before.waiting ++ asked [event] = granted ++ after.waiting ∧
      after.held.length + releases [event] = before.held.length + granted.length := by
  cases event with
  | acquire amount =>
      obtain ⟨_, rfl⟩ := step
      obtain ⟨granted, left, split, result, _⟩ :=
        grant_spec before.capacity before.held (before.waiting ++ [amount])
      refine ⟨granted, ?_, ?_⟩
      · simp only [acquire, settle, result]
        exact split
      · simp [acquire, settle, result, releases]
  | release index =>
      obtain ⟨inside, rfl⟩ := step
      obtain ⟨granted, left, split, result, _⟩ :=
        grant_spec before.capacity (before.held.eraseIdx index) before.waiting
      refine ⟨granted, ?_, ?_⟩
      · simp only [asked, List.append_nil, release, settle, result]
        exact split
      · have shorter := List.length_eraseIdx_of_lt inside
        simp only [release, settle, result, releases, List.length_append, shorter]
        omega

theorem asked_cons (event : Event) (rest : List Event) :
    asked (event :: rest) = asked [event] ++ asked rest := by
  cases event <;> rfl

theorem releases_cons (event : Event) (rest : List Event) :
    releases (event :: rest) = releases [event] + releases rest := by
  cases event with
  | acquire => simp [releases]
  | release => simp only [releases]; omega

theorem run_grants {before after : FairBudget} {events : List Event}
    (run : Transition.Run Step before events after) (settled : before.Settled) :
    after.Settled ∧ after.capacity = before.capacity ∧ ∃ granted, before.waiting ++ asked events =
      granted ++ after.waiting ∧
      after.held.length + releases events = before.held.length + granted.length := by
  induction run with
  | refl => exact ⟨settled, rfl, [], by simp [asked], by simp [releases]⟩
  | @next before middle after event rest step _ ih =>
      obtain ⟨first, split, counted⟩ := step.grants
      obtain ⟨still, same⟩ := step.settled settled
      obtain ⟨finally_, kept, later, order, total⟩ := ih still
      refine ⟨finally_, kept.trans same, first ++ later, ?_, ?_⟩
      · rw [asked_cons, ← List.append_assoc, split, List.append_assoc, order, List.append_assoc]
      · rw [releases_cons, List.length_append]
        omega

/-- A request that waits is granted after as many releases as there are holders and
requests before it, whatever is asked for meanwhile. -/
theorem granted_within {before after : FairBudget} {events : List Event}
    (run : Transition.Run Step before events after) (settled : before.Settled) (place : Nat)
    (waits : place < before.waiting.length) (enough : before.held.length + place ≤ releases events) :
    ∃ granted, before.waiting ++ asked events = granted ++ after.waiting ∧ place < granted.length := by
  obtain ⟨still, _, granted, order, counted⟩ := run_grants run settled
  refine ⟨granted, order, ?_⟩
  by_contra short
  -- The request would still wait, so someone would have to hold permits.
  have queue : after.waiting ≠ [] := by
    intro none
    have lengths := congrArg List.length order
    simp only [none, List.append_nil, List.length_append] at lengths
    omega
  have holders := List.length_pos_iff.mpr (still.held queue)
  omega

end FairBudget

end Hashring
