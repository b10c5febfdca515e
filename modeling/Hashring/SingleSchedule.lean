import Mathlib.Logic.Basic

/-! Work that waits in exactly one of several places: a main queue and side
queues that hold an entry back. `waits` says where an entry is, `due` which
entries there should be. -/
namespace Hashring

structure SingleSchedule {Entry Place : Type} (waits : Entry → Place → Prop) (due : Entry → Prop) :
    Prop where
  single : ∀ entry here there, waits entry here → waits entry there → here = there
  exact : ∀ entry, (∃ place, waits entry place) ↔ due entry

namespace SingleSchedule

variable {Entry Place : Type} {waits waits' : Entry → Place → Prop} {due due' : Entry → Prop}

theorem congr (scheduled : SingleSchedule waits due)
    (sameWaits : ∀ entry place, waits' entry place ↔ waits entry place)
    (sameDue : ∀ entry, due' entry ↔ due entry) : SingleSchedule waits' due' where
  single entry here there first second :=
    scheduled.single entry here there ((sameWaits entry here).mp first)
      ((sameWaits entry there).mp second)
  exact entry := by
    rw [sameDue, ← scheduled.exact entry]
    exact exists_congr (sameWaits entry)

theorem empty (noneWait : ∀ entry place, ¬waits entry place) (noneDue : ∀ entry, ¬due entry) :
    SingleSchedule waits due where
  single entry here _ first _ := absurd first (noneWait entry here)
  exact entry := by
    constructor
    · rintro ⟨place, waiting⟩
      exact absurd waiting (noneWait entry place)
    · intro missing
      exact absurd missing (noneDue entry)

theorem forget (scheduled : SingleSchedule waits due) (dropped : Entry → Prop)
    (nowWaits : ∀ entry place, waits' entry place ↔ ¬dropped entry ∧ waits entry place)
    (nowDue : ∀ entry, due' entry ↔ ¬dropped entry ∧ due entry) : SingleSchedule waits' due' where
  single entry here there first second :=
    scheduled.single entry here there ((nowWaits entry here).mp first).2
      ((nowWaits entry there).mp second).2
  exact entry := by
    rw [nowDue, ← scheduled.exact entry]
    constructor
    · rintro ⟨place, waiting⟩
      obtain ⟨kept, before⟩ := (nowWaits entry place).mp waiting
      exact ⟨kept, place, before⟩
    · rintro ⟨kept, place, before⟩
      exact ⟨place, (nowWaits entry place).mpr ⟨kept, before⟩⟩

theorem schedule (scheduled : SingleSchedule waits due) (added : Entry) (place : Place)
    (fresh : ¬due added)
    (nowWaits : ∀ entry there, waits' entry there ↔ entry = added ∧ there = place ∨ waits entry there)
    (nowDue : ∀ entry, due' entry ↔ entry = added ∨ due entry) : SingleSchedule waits' due' := by
  have absent : ∀ there, ¬waits added there := fun there waiting =>
    fresh ((scheduled.exact added).mp ⟨there, waiting⟩)
  constructor
  · intro entry here there first second
    rcases (nowWaits entry here).mp first with ⟨rfl, rfl⟩ | before
    · rcases (nowWaits entry there).mp second with ⟨_, rfl⟩ | waiting
      · rfl
      · exact absurd waiting (absent there)
    · rcases (nowWaits entry there).mp second with ⟨rfl, rfl⟩ | waiting
      · exact absurd before (absent here)
      · exact scheduled.single entry here there before waiting
  · intro entry
    rw [nowDue, ← scheduled.exact entry]
    constructor
    · rintro ⟨there, waiting⟩
      rcases (nowWaits entry there).mp waiting with ⟨same, _⟩ | before
      · exact .inl same
      · exact .inr ⟨there, before⟩
    · rintro (rfl | ⟨there, before⟩)
      · exact ⟨place, (nowWaits entry place).mpr (.inl ⟨rfl, rfl⟩)⟩
      · exact ⟨there, (nowWaits entry there).mpr (.inr before)⟩

theorem move (scheduled : SingleSchedule waits due) (moved : Entry) (place : Place) (isDue : due moved)
    (nowWaits : ∀ entry there, waits' entry there ↔
      entry = moved ∧ there = place ∨ entry ≠ moved ∧ waits entry there)
    (nowDue : ∀ entry, due' entry ↔ due entry) : SingleSchedule waits' due' := by
  have rest : SingleSchedule (fun entry there => entry ≠ moved ∧ waits entry there)
      (fun entry => entry ≠ moved ∧ due entry) :=
    scheduled.forget (fun entry => entry = moved) (fun _ _ => Iff.rfl) fun _ => Iff.rfl
  refine rest.schedule moved place (fun both => both.1 rfl) nowWaits ?_
  intro entry
  rw [nowDue]
  constructor
  · intro stillDue
    by_cases same : entry = moved
    · exact .inl same
    · exact .inr ⟨same, stillDue⟩
  · rintro (rfl | ⟨_, stillDue⟩)
    · exact isDue
    · exact stillDue

theorem release (scheduled : SingleSchedule waits due) (closed target : Place)
    (nowWaits : ∀ entry there, waits' entry there ↔
      there ≠ closed ∧ waits entry there ∨ there = target ∧ waits entry closed)
    (nowDue : ∀ entry, due' entry ↔ due entry) : SingleSchedule waits' due' where
  single entry here there first second := by
    rcases (nowWaits entry here).mp first with ⟨open', before⟩ | ⟨rfl, handed⟩
    · rcases (nowWaits entry there).mp second with ⟨_, waiting⟩ | ⟨rfl, handed⟩
      · exact scheduled.single entry here there before waiting
      · exact absurd (scheduled.single entry here closed before handed) open'
    · rcases (nowWaits entry there).mp second with ⟨open', waiting⟩ | ⟨rfl, _⟩
      · exact absurd (scheduled.single entry there closed waiting handed) open'
      · rfl
  exact entry := by
    rw [nowDue, ← scheduled.exact entry]
    constructor
    · rintro ⟨there, waiting⟩
      rcases (nowWaits entry there).mp waiting with ⟨_, before⟩ | ⟨_, handed⟩
      · exact ⟨there, before⟩
      · exact ⟨closed, handed⟩
    · rintro ⟨there, before⟩
      by_cases same : there = closed
      · subst there
        exact ⟨target, (nowWaits entry target).mpr (.inr ⟨rfl, before⟩)⟩
      · exact ⟨there, (nowWaits entry there).mpr (.inl ⟨same, before⟩)⟩

end SingleSchedule
end Hashring
