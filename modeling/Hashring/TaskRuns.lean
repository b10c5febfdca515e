import Hashring.TaskPool

/-! Runs put together: of a part and what follows it, of a pool whose tasks happen
to go one after another, and beside a simpler state that follows every step. -/
namespace Hashring.Program

variable {Effect Inner : Type → Type 1} {α β ε σ τ : Type}

variable {handles : {γ : Type} → Effect γ → σ → γ → σ → Prop} {inv : σ → Prop}
  {rely keeps : σ → σ → Prop}

theorem safe_lift {embed : {γ : Type} → Inner γ → Effect γ} {program : Program Inner α}
    {post : α → σ → Prop} {state : σ}
    (safe : program.Safe (fun effect => handles (embed effect)) inv rely keeps post state) :
    (program.lift embed).Safe handles inv rely keeps post state := by
  induction program generalizing state with
  | done value => exact safe
  | perform effect next ih =>
      intro later passed holds answer after handled
      obtain ⟨holdsAfter, guaranteed, rest⟩ := safe later passed holds answer after handled
      exact ⟨holdsAfter, guaranteed, ih answer rest⟩
  | choose next ih => exact fun pick => ih pick (safe pick)
  | halt => trivial

/-- A round starts from `going` and ends in it again, or in the result. -/
theorem attempts_loop (reflexive : ∀ state, rely state state)
    {round : α → ExceptT ε (Program Effect) (α ⊕ β)} {start : α}
    {going : α → σ → Prop} {post : β → σ → Prop} {failed : σ → Prop}
    (goes : ∀ value, Stable inv rely (going value))
    (ends : ∀ value, Stable inv rely (post value)) (fails : Stable inv rely failed)
    (each : ∀ value, Attempts handles inv rely keeps (going value) (round value)
      (Sum.elim going post) failed) :
    Attempts handles inv rely keeps (going start) (tryLoop round start) post failed := by
  -- The body is the one `tryLoop` repeats; it is not looked into here.
  have turns : ∀ (body : α → Program Effect (α ⊕ Except ε β)),
      (∀ value state, inv state → going value state → (body value).Safe handles inv rely keeps
        (fun result later => Sum.elim (fun again => going again later) (fun (ended : Except ε β) =>
          (∀ last, ended = .ok last → post last later) ∧ ∀ error, ended = .error error →
            failed later) result) state) →
      ∀ (fuel : Nat) (value : α) (state : σ), inv state → going value state →
        (repeatUntil body fuel value).Safe handles inv rely keeps (fun (ended : Except ε β) later =>
          (∀ last, ended = .ok last → post last later) ∧ ∀ error, ended = .error error →
              failed later) state := by
    intro body step fuel
    induction fuel with
    | zero => exact fun _ _ _ _ => trivial
    | succ fuel ih =>
        intro value state holds known
        refine safe_bind reflexive (safe_consequence ?_ (step value state holds known))
        rintro (again | ended) later holdsLater reached
        · exact ih again later holdsLater reached
        · intro end_ passed holdsEnd
          exact ⟨fun last same => ends last later end_ passed holdsEnd (reached.1 last same),
            fun error same => fails later end_ passed holdsEnd (reached.2 error same)⟩
  intro state holds known fuel
  refine turns _ ?_ fuel start state holds known
  intro value state holds known
  refine safe_bind reflexive (safe_consequence ?_ (each value state holds known))
  rintro (error | again | last) later _ reached end_ passed holdsEnd
  · refine ⟨fun _ same => absurd same (by simp), fun _ _ => ?_⟩
    exact fails later end_ passed holdsEnd (reached.2 error rfl)
  · exact goes again later end_ passed holdsEnd (reached.1 _ rfl)
  · refine ⟨fun found same => ?_, fun _ same => absurd same (by simp)⟩
    exact Except.ok.inj same ▸ ends last later end_ passed holdsEnd (reached.1 _ rfl)

theorem ends_simulated {follows : {γ : Type} → Effect γ → τ → γ → τ → Prop} {waits : τ → τ → Prop}
    (related : σ → τ → Prop)
    (step : ∀ {γ : Type} (effect : Effect γ) state shadow answer after, related state shadow →
      handles effect state answer after → ∃ next, follows effect shadow answer next ∧ related after next)
    (moved : ∀ state shadow later, related state shadow → rely state later →
      ∃ next, waits shadow next ∧ related later next)
    {program : Program Effect α} {value : α} {state last : σ} {shadow : τ} (starts : related state shadow)
    (ends : program.Ends handles rely state value last) :
    ∃ final, program.Ends follows waits shadow value final ∧ related last final := by
  induction program generalizing state shadow with
  | done result =>
      obtain ⟨same, passed⟩ := ends
      obtain ⟨final, waited, reached⟩ := moved state shadow last starts passed
      exact ⟨final, ⟨same, waited⟩, reached⟩
  | perform effect next ih =>
      obtain ⟨later, answer, after, passed, handled, rest⟩ := ends
      obtain ⟨beside, waited, middle⟩ := moved state shadow later starts passed
      obtain ⟨followed, follows, reached⟩ := step effect later beside answer after middle handled
      obtain ⟨final, ran, ended⟩ := ih answer reached rest
      exact ⟨final, ⟨beside, answer, followed, waited, follows, ran⟩, ended⟩
  | choose next ih =>
      obtain ⟨pick, rest⟩ := ends
      obtain ⟨final, ran, ended⟩ := ih pick starts rest
      exact ⟨final, ⟨pick, ran⟩, ended⟩
  | halt => exact ends.elim

theorem ends_lift {embed : {γ : Type} → Inner γ → Effect γ} {program : Program Inner α} {value : α}
    {state last : σ}
    (ends : program.Ends (fun effect => handles (embed effect)) rely state value last) :
    (program.lift embed).Ends handles rely state value last := by
  induction program generalizing state with
  | done result => exact ends
  | perform effect next ih =>
      obtain ⟨later, answer, after, passed, handled, rest⟩ := ends
      exact ⟨later, answer, after, passed, handled, ih answer rest⟩
  | choose next ih =>
      obtain ⟨pick, rest⟩ := ends
      exact ⟨pick, ih pick rest⟩
  | halt => exact ends

variable (transitive : ∀ first second third, rely first second → rely second third → rely first third)

include transitive in
/-- A run may start earlier, with the others moving first. -/
theorem ends_earlier {program : Program Effect α} {value : α} {state later last : σ}
    (passed : rely state later)
    (ends : program.Ends handles rely later value last) : program.Ends handles rely state value last := by
  induction program with
  | done result => exact ⟨ends.1, transitive _ _ _ passed ends.2⟩
  | perform effect next ih =>
      obtain ⟨waited, answer, after, further, handled, rest⟩ := ends
      exact ⟨waited, answer, after, transitive _ _ _ passed further, handled, rest⟩
  | choose next ih =>
      obtain ⟨pick, rest⟩ := ends
      exact ⟨pick, ih pick rest⟩
  | halt => exact ends

include transitive in
theorem ends_bind {program : Program Effect α} {rest : α → Program Effect β} {value : α}
    {result : β} {state middle last : σ} (first : program.Ends handles rely state value middle)
    (second : (rest value).Ends handles rely middle result last) :
    (program >>= rest).Ends handles rely state result last := by
  induction program generalizing state with
  | done found =>
      obtain ⟨rfl, passed⟩ := first
      exact ends_earlier transitive passed second
  | perform effect next ih =>
      obtain ⟨later, answer, after, passed, handled, first⟩ := first
      exact ⟨later, answer, after, passed, handled, ih answer first⟩
  | choose next ih =>
      obtain ⟨pick, first⟩ := first
      exact ⟨pick, ih pick first⟩
  | halt => exact first.elim

include transitive in
theorem ends_then {task : ExceptT ε (Program Effect) α} {rest : α → ExceptT ε (Program Effect) β}
    {value : α} {result : Except ε β} {state middle last : σ}
    (first : task.run.Ends handles rely state (.ok value) middle)
    (second : (rest value).run.Ends handles rely middle result last) :
    (task >>= rest).run.Ends handles rely state result last :=
  ends_bind transitive first second

include transitive in
theorem ends_loop {round : α → ExceptT ε (Program Effect) (α ⊕ β)} {start : α} {value : β}
    {state last : σ} (reflexive : rely last last)
    (ends : (round start).run.Ends handles rely state (.ok (.inr value)) last) :
    (tryLoop round start).run.Ends handles rely state (.ok value) last :=
  ⟨1, ends_bind transitive (ends_bind transitive ends ⟨rfl, reflexive⟩) ⟨rfl, reflexive⟩⟩

/-! A pool whose tasks happen to run one after another. -/

variable (handles rely)

def InTurn : List (Program Effect α) → σ → List α → σ → Prop
  | [], state, values, last => values = [] ∧ rely state last
  | task :: rest, state, values, last => ∃ value middle others,
      task.Ends handles rely state value middle ∧
      InTurn rest middle others last ∧ values = value :: others

variable {handles rely}

theorem finished_unless {tasks : List (Program Effect α)} {task : Program Effect α}
    (member : task ∈ tasks)
    (running : finished task = none) : tasks.mapM finished = none := by
  induction tasks with
  | nil => exact absurd member List.not_mem_nil
  | cons first rest ih =>
      rw [List.mapM_cons]
      rcases List.mem_cons.mp member with rfl | later
      · rw [running]
        rfl
      · rw [ih later]
        cases finished first <;> rfl

theorem finished_all (values : List α) :
    (values.map fun value => (done value : Program Effect α)).mapM finished = some values := by
  induction values with
  | nil => rfl
  | cons value rest ih =>
      rw [List.map_cons, List.mapM_cons, ih]
      rfl

include transitive in
theorem gather_next {program : Program Effect α} {front : List α} {rest : List (Program Effect α)}
    {value : α}
    {values : List α} {state middle last : σ} (ends : program.Ends handles rely state value middle)
    (others : ∃ fuel, (gather fuel (front.map done ++ done value :: rest)).Ends handles rely middle
      values last) :
    ∃ fuel, (gather fuel (front.map done ++ program :: rest)).Ends handles rely state values last := by
  -- The scheduler picks the first task that is not done until it is.
  have turn : ∀ task : Program Effect α,
      front.length % (front.map done ++ task :: rest).length = front.length := by
    intro task
    exact Nat.mod_eq_of_lt (by simp)
  have chosen : ∀ task : Program Effect α, (front.map done ++ task :: rest)[front.length]? =
      some task := by
    intro task
    rw [List.getElem?_append_right (by simp)]
    simp
  have moved : ∀ task next : Program Effect α,
      (front.map done ++ task :: rest).set front.length next = front.map done ++ next :: rest := by
    intro task next
    rw [List.set_append_right _ _ (by simp)]
    simp
  induction program generalizing state with
  | done found =>
      obtain ⟨rfl, passed⟩ := ends
      obtain ⟨fuel, ran⟩ := others
      exact ⟨fuel, ends_earlier transitive passed ran⟩
  | perform effect next ih =>
      obtain ⟨later, answer, after, passed, handled, ends⟩ := ends
      obtain ⟨fuel, ran⟩ := ih answer ends
      refine ⟨fuel + 1, ?_⟩
      rw [gather, finished_unless (List.mem_append_right _ List.mem_cons_self) rfl]
      refine ⟨front.length, ?_⟩
      simp only [turn, chosen, moved]
      exact ⟨later, answer, after, passed, handled, ran⟩
  | choose next ih =>
      obtain ⟨pick, ends⟩ := ends
      obtain ⟨fuel, ran⟩ := ih pick ends
      refine ⟨fuel + 1, ?_⟩
      rw [gather, finished_unless (List.mem_append_right _ List.mem_cons_self) rfl]
      refine ⟨front.length, ?_⟩
      simp only [turn, chosen, moved]
      exact ⟨pick, ran⟩
  | halt => exact ends.elim

include transitive in
theorem gather_in_turn {tasks : List (Program Effect α)} {values : List α} {state last : σ}
    (turns : InTurn handles rely tasks state values last) :
    ∃ fuel, (gather fuel tasks).Ends handles rely state values last := by
  -- `front` holds the results of the tasks that have ended.
  have after : ∀ (tasks : List (Program Effect α)) (front : List α) (state : σ) (values : List α),
      InTurn handles rely tasks state values last →
      ∃ fuel, (gather fuel (front.map done ++ tasks)).Ends handles rely state (front ++ values) last := by
    intro tasks
    induction tasks with
    | nil =>
        rintro front state values ⟨rfl, passed⟩
        refine ⟨0, ?_⟩
        rw [gather, List.append_nil, List.append_nil, finished_all]
        exact ⟨rfl, passed⟩
    | cons task rest ih =>
        rintro front state values ⟨value, middle, others, ends, turns, rfl⟩
        apply gather_next transitive ends
        simpa using ih (front ++ [value]) middle others turns
  exact after tasks [] state values turns

end Hashring.Program
