import Hashring.Program

/-! A task and the part of the state that only its own effects change, such as a
record of what it did. The others may do what they like to the rest between two
of its effects. -/
namespace Hashring.Program

variable {Effect : Type → Type 1} {α β ε σ ο : Type}

theorem safe_among {handles : {γ : Type} → Effect γ → σ → γ → σ → Prop} {inv : σ → Prop}
    {rely keeps fewer promises : σ → σ → Prop} {program : Program Effect α} {post : α → σ → Prop}
    {state : σ} (relied : ∀ state later, fewer state later → rely state later)
    (promised : ∀ state later, keeps state later → promises state later)
    (safe : program.Safe handles inv rely keeps post state) :
    program.Safe handles inv fewer promises post state := by
  have known : (fun _ : σ => True) state := trivial
  exact safe_consequence (fun _ _ _ reached => reached.2)
    (safe_frame relied promised (fun _ _ _ _ _ => trivial) (fun _ _ _ _ _ => trivial) safe known)

theorem returns_free {handles : {γ : Type} → Effect γ → σ → γ → σ → Prop} {inv : σ → Prop}
    {keeps : σ → σ → Prop}
    (kept : ∀ {γ : Type} (effect : Effect γ) state answer after, handles effect state answer after →
      inv after ∧ keeps state after)
    (program : ExceptT ε (Program Effect) α) : Returns handles inv keeps program fun _ => True := by
  have all : ∀ (program : Program Effect (Except ε α)) (state : σ),
      program.Safe handles inv (fun _ _ => True) keeps
      (fun result _ => ∀ value, result = .ok value → True) state := by
    intro program
    induction program with
    | done value => exact fun _ _ _ _ _ _ => trivial
    | perform effect next ih =>
        intro state later _ _ answer after handled
        obtain ⟨holds, guaranteed⟩ := kept effect later answer after handled
        exact ⟨holds, guaranteed, ih answer after⟩
    | choose next ih => exact fun state pick => ih pick state
    | halt => exact fun _ => trivial
  exact fun state _ => all program.run state

section Runs

variable (handles : {γ : Type} → Effect γ → σ → γ → σ → Prop) {inv : σ → Prop}
  (rely : σ → σ → Prop)
  {keeps : σ → σ → Prop}

/-- The program can end with this value in this state. Before each of its effects,
and at its end, the others have moved. -/
def Ends : Program Effect α → σ → α → σ → Prop
  | done value, state, result, last => result = value ∧ rely state last
  | perform effect next, state, result, last => ∃ later answer after, rely state later ∧
      handles effect later answer after ∧ Ends (next answer) after result last
  | choose next, state, result, last => ∃ pick, Ends (next pick) state result last
  | halt, _, _, _ => False

def Passes : Program Effect α → σ → σ → Prop
  | done _, state, seen => rely state seen
  | perform effect next, state, seen => rely state seen ∨ ∃ later answer after, rely state later ∧
      handles effect later answer after ∧ Passes (next answer) after seen
  | choose next, state, seen => ∃ pick, Passes (next pick) state seen
  | halt, state, seen => rely state seen

variable {handles rely}

theorem ends_safe (kept : ∀ state later, rely state later → inv state → inv later)
    {program : Program Effect α} {post : α → σ → Prop} {state last : σ} {value : α}
    (ends : program.Ends handles rely state value last)
    (holds : inv state) (safe : program.Safe handles inv rely keeps post state) : post value last := by
  induction program generalizing state with
  | done result =>
      obtain ⟨rfl, passed⟩ := ends
      exact safe last passed (kept state last passed holds)
  | perform effect next ih =>
      obtain ⟨later, answer, after, passed, handled, ends⟩ := ends
      obtain ⟨holdsAfter, -, safeAfter⟩ :=
        safe later passed (kept state later passed holds) answer after handled
      exact ih answer ends holdsAfter safeAfter
  | choose next ih =>
      obtain ⟨pick, ends⟩ := ends
      exact ih pick ends holds (safe pick)
  | halt => exact ends.elim

theorem passes_safe (kept : ∀ state later, rely state later → inv state → inv later)
    {program : Program Effect α} {post : α → σ → Prop} {state seen : σ}
    (passes : program.Passes handles rely state seen) (holds : inv state)
    (safe : program.Safe handles inv rely keeps post state) : inv seen := by
  induction program generalizing state with
  | done result => exact kept state seen passes holds
  | perform effect next ih =>
      rcases passes with passed | ⟨later, answer, after, passed, handled, passes⟩
      · exact kept state seen passed holds
      · obtain ⟨holdsAfter, -, safeAfter⟩ :=
          safe later passed (kept state later passed holds) answer after handled
        exact ih answer passes holdsAfter safeAfter
  | choose next ih =>
      obtain ⟨pick, passes⟩ := passes
      exact ih pick passes holds (safe pick)
  | halt => exact kept state seen passes holds

theorem ends_passes
    (transitive : ∀ {first second third}, rely first second → rely second third → rely first third)
    {program : Program Effect α} {state last seen : σ} {value : α}
    (ends : program.Ends handles rely state value last)
    (moved : rely last seen) : program.Passes handles rely state seen := by
  induction program generalizing state with
  | done result => exact transitive ends.2 moved
  | perform effect next ih =>
      obtain ⟨later, answer, after, passed, handled, ends⟩ := ends
      exact .inr ⟨later, answer, after, passed, handled, ih answer ends⟩
  | choose next ih =>
      obtain ⟨pick, ends⟩ := ends
      exact ⟨pick, ih pick ends⟩
  | halt => exact ends.elim

theorem ends_interruptible {dropped value : α} {program : Program Effect α} {state last : σ}
    (ends : (interruptible (done dropped) program).Ends handles rely state value last) :
    program.Ends handles rely state value last ∨ value = dropped := by
  induction program generalizing state with
  | done result => exact .inl ends
  | perform effect next ih =>
      obtain ⟨pick, ends⟩ := ends
      by_cases first : pick = 0
      · simp only [first, if_true] at ends
        exact .inr ends.1
      · simp only [first, if_false] at ends
        obtain ⟨later, answer, after, passed, handled, rest⟩ := ends
        exact (ih answer rest).imp_left fun rest => ⟨later, answer, after, passed, handled, rest⟩
  | choose next ih =>
      obtain ⟨pick, ends⟩ := ends
      exact (ih pick ends).imp_left fun rest => ⟨pick, rest⟩
  | halt =>
      obtain ⟨_, ends⟩ := ends
      exact .inr ends.1

/-- Runs the program in this environment, with these decisions of the scheduler one
after the other. -/
def execute (serve : {γ : Type} → Effect γ → σ → γ × σ) (picks : Nat → Nat) : Program Effect α → σ →
    Option (α × σ)
  | done value, state => some (value, state)
  | perform effect next, state =>
      execute (fun effect => serve effect) picks (next (serve effect state).1) (serve effect state).2
  | choose next, state => execute (fun effect => serve effect) (fun turn => picks (turn + 1))
      (next (picks 0)) state
  | halt, _ => none

section Executions

variable {serve : {γ : Type} → Effect γ → σ → γ × σ} {picks : Nat → Nat} {program : Program Effect α}
  {state last : σ} {value : α}

/-- Such a run, in which the others may move first at every effect, is one of the
program's runs. -/
theorem execute_ends_among (reflexive : ∀ state, inv state → rely state state)
    (served : ∀ {γ : Type} (effect : Effect γ) (state : σ), inv state →
      (∃ later, rely state later ∧ handles effect later (serve effect state).1 (serve effect state).2) ∧
        inv (serve effect state).2)
    (holds : inv state) (ran : program.execute serve picks state = some (value, last)) :
    program.Ends handles rely state value last := by
  induction program generalizing state picks with
  | done result =>
      obtain ⟨rfl, rfl⟩ := Prod.mk.inj (Option.some.inj ran)
      exact ⟨rfl, reflexive _ holds⟩
  | perform effect next ih =>
      obtain ⟨⟨later, passed, handled⟩, kept⟩ := served effect state holds
      exact ⟨later, _, _, passed, handled, ih _ kept ran⟩
  | choose next ih => exact ⟨picks 0, ih _ holds ran⟩
  | halt => exact absurd ran (by simp [execute])

theorem execute_ends_within (reflexive : ∀ state, inv state → rely state state)
    (served : ∀ {γ : Type} (effect : Effect γ) (state : σ), inv state →
      handles effect state (serve effect state).1 (serve effect state).2 ∧ inv (serve effect state).2)
    (holds : inv state) (ran : program.execute serve picks state = some (value, last)) :
    program.Ends handles rely state value last := by
  refine execute_ends_among reflexive ?_ holds ran
  intro γ effect state holds
  obtain ⟨handled, kept⟩ := served effect state holds
  exact ⟨⟨state, reflexive state holds, handled⟩, kept⟩

theorem execute_ends (reflexive : ∀ state, rely state state)
    (served : ∀ {γ : Type} (effect : Effect γ) (state : σ),
      handles effect state (serve effect state).1 (serve effect state).2)
    (ran : program.execute serve picks state = some (value, last)) :
    program.Ends handles rely state value last := by
  have anywhere : ∀ state, (fun _ : σ => True) state → rely state state := fun state _ => reflexive state
  exact execute_ends_within anywhere (fun effect state _ => ⟨served effect state, trivial⟩) trivial ran

end Executions

end Runs

/-! Runs with all the states they passed. -/
section Traces

variable (handles : {γ : Type} → Effect γ → σ → γ → σ → Prop)

/-- The program ran from this state to that value, past these states; before each
of its effects the others may have done anything. -/
def Ran : Program Effect α → σ → List σ → α → σ → Prop
  | done value, state, passed, result, last => result = value ∧ passed = [] ∧ last = state
  | perform effect next, _, passed, result, last => ∃ later answer after rest,
      handles effect later answer after ∧ Ran (next answer) after rest result last ∧
        passed = later :: after :: rest
  | choose next, state, passed, result, last => ∃ pick, Ran (next pick) state passed result last
  | halt, _, _, _, _ => False

variable {handles}

/-- `execute`, with the states it passes and the decisions of the scheduler one after
the other. -/
def trace (serve : {γ : Type} → Effect γ → σ → γ × σ) : Program Effect α → List Nat → σ →
    Option (List σ × α × σ)
  | done value, _, state => some ([], value, state)
  | perform effect next, picks, state =>
      (trace (fun effect => serve effect) (next (serve effect state).1) picks
          (serve effect state).2).map fun (rest, ended) =>
        (state :: (serve effect state).2 :: rest, ended)
  | choose next, picks, state => trace (fun effect => serve effect) (next (picks.headD 0))
      picks.tail state
  | halt, _, _ => none

theorem trace_ran {inv : σ → Prop} {serve : {γ : Type} → Effect γ → σ → γ × σ} {picks : List Nat}
    (served : ∀ {γ : Type} (effect : Effect γ) (state : σ), inv state →
      handles effect state (serve effect state).1 (serve effect state).2 ∧ inv (serve effect state).2)
    {program : Program Effect α} {state last : σ} {value : α} {passed : List σ} (holds : inv state)
    (ran : program.trace serve picks state = some (passed, value, last)) :
    program.Ran handles state passed value last ∧ ∀ seen ∈ passed, inv seen := by
  induction program generalizing picks state passed with
  | done result =>
      obtain ⟨rfl, rfl, rfl⟩ : [] = passed ∧ result = value ∧ state = last := by simpa [trace] using ran
      exact ⟨⟨rfl, rfl, rfl⟩, fun _ member => absurd member List.not_mem_nil⟩
  | perform effect next ih =>
      obtain ⟨⟨rest, ended⟩, went, same⟩ := Option.map_eq_some_iff.mp ran
      obtain ⟨rfl, rfl⟩ := Prod.mk.inj same
      obtain ⟨handled, kept⟩ := served effect state holds
      obtain ⟨ran, all⟩ := ih _ kept went
      refine ⟨⟨state, _, _, rest, handled, ran, rfl⟩, fun seen member => ?_⟩
      rcases List.mem_cons.mp member with rfl | member
      · exact holds
      · rcases List.mem_cons.mp member with rfl | member
        · exact kept
        · exact all seen member
  | choose next ih =>
      obtain ⟨ran, all⟩ := ih _ holds ran
      exact ⟨⟨picks.headD 0, ran⟩, all⟩
  | halt => exact absurd ran (by simp [trace])

theorem ran_bind {program : Program Effect α} {rest : α → Program Effect β} {state last : σ}
    {passed : List σ} {result : β} (ran : (program >>= rest).Ran handles state passed result last) :
    ∃ value middle early late, program.Ran handles state early value middle ∧
      (rest value).Ran handles middle late result last ∧ passed = early ++ late := by
  induction program generalizing state passed with
  | done value => exact ⟨value, state, [], passed, ⟨rfl, rfl, rfl⟩, ran, rfl⟩
  | perform effect next ih =>
      obtain ⟨later, answer, after, others, handled, ran, rfl⟩ := ran
      obtain ⟨value, middle, early, late, first, second, rfl⟩ := ih answer ran
      exact ⟨value, middle, later :: after :: early, late,
        ⟨later, answer, after, early, handled, first, rfl⟩, second, rfl⟩
  | choose next ih =>
      obtain ⟨pick, ran⟩ := ran
      obtain ⟨value, middle, early, late, first, second, same⟩ := ih pick ran
      exact ⟨value, middle, early, late, ⟨pick, first⟩, second, same⟩
  | halt => exact ran.elim

theorem ran_then {task : ExceptT ε (Program Effect) α} {rest : α → ExceptT ε (Program Effect) β}
    {state last : σ} {passed : List σ} {result : β}
    (ran : (task >>= rest).run.Ran handles state passed (.ok result) last) :
    ∃ value middle early late, task.run.Ran handles state early (.ok value) middle ∧
      (rest value).run.Ran handles middle late (.ok result) last ∧ passed = early ++ late := by
  obtain ⟨ended, middle, early, late, first, second, same⟩ := ran_bind ran
  cases ended with
  | error error => exact absurd second.1 (by simp)
  | ok value => exact ⟨value, middle, early, late, first, second, same⟩

theorem ran_repeat {round : α → Program Effect (α ⊕ β)} (fuel : Nat) {start : α} {state last : σ}
    {passed : List σ} {result : β}
    (ran : (repeatUntil round fuel start).Ran handles state passed result last) :
    ∃ value middle early late, (round value).Ran handles middle late (.inr result) last ∧
      passed = early ++ late := by
  induction fuel generalizing start state passed with
  | zero => exact ran.elim
  | succ fuel ih =>
      obtain ⟨next, middle, early, late, turned, goes, rfl⟩ := ran_bind ran
      cases next with
      | inl again =>
          obtain ⟨value, begun, before, after, ended, rfl⟩ := ih goes
          exact ⟨value, begun, early ++ before, after, ended, by simp⟩
      | inr found =>
          obtain ⟨rfl, rfl, rfl⟩ := goes
          exact ⟨start, state, [], early, turned, by simp⟩

theorem ran_loop {round : α → ExceptT ε (Program Effect) (α ⊕ β)} {start : α} {state last : σ}
    {passed : List σ} {result : β}
    (ran : (tryLoop round start).run.Ran handles state passed (.ok result) last) :
    ∃ value middle early late, (round value).run.Ran handles middle late (.ok (.inr result)) last ∧
      passed = early ++ late := by
  obtain ⟨fuel, ran⟩ := ran
  obtain ⟨value, middle, early, late, turned, rfl⟩ := ran_repeat fuel ran
  obtain ⟨ended, settled, first, second, turned, goes, rfl⟩ := ran_bind turned
  cases ended with
  | error error => exact absurd goes.1 (by simp)
  | ok ended =>
      cases ended with
      | inl again => exact absurd goes.1 (by simp)
      | inr found =>
          obtain ⟨same, rfl, rfl⟩ := goes
          obtain rfl := Except.ok.inj (Sum.inr.inj same)
          exact ⟨value, middle, early, first, turned, by simp⟩

theorem ran_ends {program : Program Effect α} {holds : σ → Prop} {state last : σ} {passed : List σ}
    {value : α} (ran : program.Ran handles state passed value last) (start : holds state)
    (all : ∀ seen ∈ passed, holds seen) :
    program.Ends (fun effect state answer after => handles effect state answer after ∧ holds after)
      (fun _ later => holds later) state value last := by
  induction program generalizing state passed with
  | done result =>
      obtain ⟨rfl, -, rfl⟩ := ran
      exact ⟨rfl, start⟩
  | perform effect next ih =>
      obtain ⟨later, answer, after, rest, handled, ran, rfl⟩ := ran
      have holdsAfter := all after (by simp)
      exact ⟨later, answer, after, all later (by simp), ⟨handled, holdsAfter⟩,
        ih answer ran holdsAfter fun seen member => all seen (by simp [member])⟩
  | choose next ih =>
      obtain ⟨pick, ran⟩ := ran
      exact ⟨pick, ih pick ran start all⟩
  | halt => exact ran.elim

end Traces

/-! Runs that end. -/
section Finishing

variable (handles : {γ : Type} → Effect γ → σ → γ → σ → Prop)

/-- Every run alone ends, and ends like this, once its loops may turn often enough. -/
def Finishes : Program Effect α → σ → (α → σ → Prop) → Prop
  | done value, state, post => post value state
  | perform effect next, state, post => ∀ answer after, handles effect state answer after →
      Finishes (next answer) after post
  | choose next, state, post => ∃ enough, ∀ fuel, enough ≤ fuel → Finishes (next fuel) state post
  | halt, _, _ => False

variable {handles}

theorem finishes_bind {program : Program Effect α} {rest : α → Program Effect β}
    {post : β → σ → Prop} {state : σ}
    (first : program.Finishes handles state fun value later => (rest value).Finishes handles later post) :
    (program >>= rest).Finishes handles state post := by
  induction program generalizing state with
  | done value => exact first
  | perform effect next ih => exact fun answer after handled => ih answer (first answer after handled)
  | choose next ih =>
      obtain ⟨enough, first⟩ := first
      exact ⟨enough, fun fuel reached => ih fuel (first fuel reached)⟩
  | halt => exact first

theorem finishes_consequence {program : Program Effect α} {post weaker : α → σ → Prop} {state : σ}
    (implies : ∀ value state, post value state → weaker value state)
    (finishes : program.Finishes handles state post) :
    program.Finishes handles state weaker := by
  induction program generalizing state with
  | done value => exact implies value state finishes
  | perform effect next ih => exact fun answer after handled => ih answer (finishes answer after handled)
  | choose next ih =>
      obtain ⟨enough, finishes⟩ := finishes
      exact ⟨enough, fun fuel reached => ih fuel (finishes fuel reached)⟩
  | halt => exact finishes

theorem finishes_lift {Inner : Type → Type 1} {embed : {γ : Type} → Inner γ → Effect γ}
    {program : Program Inner α} {post : α → σ → Prop} {state : σ}
    (finishes : program.Finishes (fun effect => handles (embed effect)) state post) :
    (program.lift embed).Finishes handles state post := by
  induction program generalizing state with
  | done value => exact finishes
  | perform effect next ih => exact fun answer after handled => ih answer (finishes answer after handled)
  | choose next ih =>
      obtain ⟨enough, finishes⟩ := finishes
      exact ⟨enough, fun fuel reached => ih fuel (finishes fuel reached)⟩
  | halt => exact finishes

theorem finishes_then {task : ExceptT ε (Program Effect) α} {rest : α → ExceptT ε (Program Effect) β}
    {post : Except ε β → σ → Prop} {state : σ}
    (first : task.run.Finishes handles state fun result later =>
      match result with
      | .ok value => (rest value).run.Finishes handles later post
      | .error error => post (.error error) later) : (task >>= rest).run.Finishes handles state post := by
  refine finishes_bind (finishes_consequence ?_ first)
  rintro (error | value) later reached
  · exact reached
  · exact reached

/-- A step that is known to succeed, with what it returns. -/
theorem finishes_after {task : ExceptT ε (Program Effect) α} {rest : α → ExceptT ε (Program Effect) β}
    {post : Except ε β → σ → Prop} {state : σ} {good : α → σ → Prop}
    (first : task.run.Finishes handles state fun result later => ∃ value, result = .ok value ∧
      good value later)
    (second : ∀ value later, good value later → (rest value).run.Finishes handles later post) :
    (task >>= rest).run.Finishes handles state post := by
  refine finishes_then (finishes_consequence ?_ first)
  rintro _ later ⟨value, rfl, reached⟩
  exact second value later reached

theorem finishes_loop {round : α → ExceptT ε (Program Effect) (α ⊕ β)} {start : α}
    (going : α → σ → Prop) (left : α → Nat) {post : Except ε β → σ → Prop} {state : σ}
    (starts : going start state)
    (each : ∀ value state, going value state → (round value).run.Finishes handles state
      fun result after =>
      match result with
      | .ok (.inl again) => going again after ∧ left again < left value
      | .ok (.inr last) => post (.ok last) after
      | .error error => post (.error error) after) :
    (tryLoop round start).run.Finishes handles state post := by
  have turns : ∀ (fuel : Nat) (value : α) (state : σ), left value < fuel → going value state →
      (repeatUntil (fun state => do
        match ← (round state).run with
        | .ok (.inl again) => return .inl again
        | .ok (.inr result) => return .inr (.ok result)
        | .error error => return .inr (.error error)) fuel value).Finishes handles state post := by
    intro fuel
    induction fuel with
    | zero => exact fun _ _ short => absurd short (by simp)
    | succ fuel ih =>
        intro value state enough holds
        refine finishes_bind (finishes_bind (finishes_consequence ?_ (each value state holds)))
        rintro (error | again | last) after reached
        · exact reached
        · exact ih again after (by omega) reached.1
        · exact reached
  exact ⟨left start + 1, fun fuel enough => turns fuel start state enough starts⟩

end Finishing

theorem attempts_lift {handles : {γ : Type} → Effect γ → σ → γ → σ → Prop} {inv : σ → Prop}
    {rely keeps : σ → σ → Prop} {pre failed : σ → Prop} {effect : Effect α} {post : α → σ → Prop}
    (stable : Stable inv rely pre) (stablePost : ∀ value, Stable inv rely (post value))
    (step : ∀ state, inv state → pre state → ∀ answer after, handles effect state answer after →
      inv after ∧ keeps state after ∧ post answer after) :
    Attempts handles inv rely keeps pre (ExceptT.lift (call effect) : ExceptT ε (Program Effect) α)
      post failed := by
  intro state _ known later passed holds answer after handled
  obtain ⟨holdsAfter, guaranteed, reached⟩ :=
    step later holds (stable state later passed holds known) answer after handled
  refine ⟨holdsAfter, guaranteed, fun last further holdsLast =>
    ⟨fun value same => ?_, fun _ same => absurd same (by simp)⟩⟩
  exact Except.ok.inj same ▸ stablePost answer after last further holdsLast reached

/-! What is observed of the state is the task's own. -/
variable (handles : {γ : Type} → Effect γ → σ → γ → σ → Prop) (inv : σ → Prop) (observe : σ → ο)

/-- Others leave what is observed alone, and keep the invariant. -/
def Apart (state later : σ) : Prop := observe later = observe state ∧ (inv state → inv later)

/-- From what is observed before, every end of the program leads to what is
observed after. -/
def Meets (pre : ο → Prop) (program : ExceptT ε (Program Effect) α) (post : Except ε α → ο → Prop) :
    Prop :=
  ∀ state, inv state → pre (observe state) → program.run.Safe handles inv (Apart inv observe)
    (fun _ _ => True)
    (fun result later => post result (observe later)) state

variable {handles inv observe} {pre : ο → Prop}

theorem apart_refl (state : σ) : Apart inv observe state state := ⟨rfl, id⟩

theorem safe_done {value : α} {post : α → ο → Prop} {state : σ} (reached : post value (observe state)) :
    (done value : Program Effect α).Safe handles inv (Apart inv observe) (fun _ _ => True)
      (fun result later => post result (observe later)) state := by
  intro later apart _
  rw [apart.1]
  exact reached

theorem meets_ends {program : ExceptT ε (Program Effect) α} {post : Except ε α → ο → Prop}
    (meets : Meets handles inv observe pre program post) {state last : σ} {result : Except ε α}
    (holds : inv state) (before : pre (observe state))
    (ends : program.run.Ends handles (Apart inv observe) state result last) :
    post result (observe last) := by
  have kept : ∀ state later, Apart inv observe state later → inv state → inv later :=
    fun _ _ apart => apart.2
  have reached := ends_safe kept ends holds (meets state holds before)
  exact reached

theorem meets_consequence {stronger : ο → Prop} {program : ExceptT ε (Program Effect) α}
    {post weaker : Except ε α → ο → Prop} (before : ∀ seen, stronger seen → pre seen)
    (after : ∀ result seen, post result seen → weaker result seen)
    (meets : Meets handles inv observe pre program post) :
    Meets handles inv observe stronger program weaker := by
  intro state holds known
  exact safe_consequence (fun result later _ => after result (observe later))
    (meets state holds (before _ known))

theorem meets_pure {value : α} {post : Except ε α → ο → Prop}
    (ends : ∀ seen, pre seen → post (.ok value) seen) :
    Meets handles inv observe pre (pure value : ExceptT ε (Program Effect) α) post := by
  intro state _ known
  exact safe_done (ends _ known)

theorem meets_throw {error : ε} {post : Except ε α → ο → Prop}
    (ends : ∀ seen, pre seen → post (.error error) seen) :
    Meets handles inv observe pre (throw error : ExceptT ε (Program Effect) α) post := by
  intro state _ known
  exact safe_done (ends _ known)

theorem meets_bind {program : ExceptT ε (Program Effect) α} {rest : α → ExceptT ε (Program Effect) β}
    {middle : Except ε α → ο → Prop} {post : Except ε β → ο → Prop}
    (first : Meets handles inv observe pre program middle)
    (failing : ∀ error seen, middle (.error error) seen → post (.error error) seen)
    (second : ∀ value, Meets handles inv observe (middle (.ok value)) (rest value) post) :
    Meets handles inv observe pre (program >>= rest) post := by
  intro state holds known
  refine safe_bind apart_refl (safe_consequence ?_ (first state holds known))
  rintro (error | value) later holdsLater reached
  · exact safe_done (failing error _ reached)
  · exact second value later holdsLater reached

theorem meets_perform {effect : Effect α} {post : Except ε α → ο → Prop}
    (step : ∀ state, inv state → pre (observe state) → ∀ answer after, handles effect state answer after →
      inv after ∧ post (.ok answer) (observe after)) :
    Meets handles inv observe pre (ExceptT.lift (call effect) : ExceptT ε (Program Effect) α) post := by
  intro state _ known later apart holdsLater answer after handled
  obtain ⟨holdsAfter, reached⟩ := step later holdsLater (apart.1 ▸ known) answer after handled
  exact ⟨holdsAfter, trivial, safe_done reached⟩

theorem meets_attempt {program : ExceptT ε (Program Effect) α} {post : Except ε (Except ε α) → ο → Prop}
    (meets : Meets handles inv observe pre program fun result => post (.ok result)) :
    Meets handles inv observe pre (attempt program) post := by
  intro state holds known
  refine safe_bind apart_refl (safe_consequence ?_ (meets state holds known))
  intro result later _ reached
  exact safe_done reached

/-- A round of a loop starts from `going` and ends in it again, or in the result. -/
theorem meets_loop {round : α → ExceptT ε (Program Effect) (α ⊕ β)} {start : α} {going : α → ο → Prop}
    {post : Except ε β → ο → Prop} (starts : ∀ seen, pre seen → going start seen)
    (each : ∀ value, Meets handles inv observe (going value) (round value) fun
      | .ok (.inl again) => going again
      | .ok (.inr last) => post (.ok last)
      | .error error => post (.error error)) :
    Meets handles inv observe pre (tryLoop round start) post := by
  have turns : ∀ (fuel : Nat) (value : α) (state : σ), inv state → going value (observe state) →
      (repeatUntil (fun state => do
        match ← (round state).run with
        | .ok (.inl again) => return .inl again
        | .ok (.inr result) => return .inr (.ok result)
        | .error error => return .inr (.error error)) fuel value).Safe handles inv (Apart inv observe)
          (fun _ _ => True) (fun result later => post result (observe later)) state := by
    intro fuel
    induction fuel with
    | zero => exact fun _ _ _ _ => trivial
    | succ fuel ih =>
        intro value state holds known
        refine safe_bind apart_refl
          (safe_bind apart_refl (safe_consequence ?_ (each value state holds known)))
        rintro (error | again | last) later _ reached end_ apart holdsEnd
        · exact safe_done (apart.1 ▸ reached)
        · exact ih again end_ holdsEnd (apart.1 ▸ reached)
        · exact safe_done (apart.1 ▸ reached)
  intro state holds known fuel
  exact turns fuel start state holds (starts _ known)

/-! Programs that leave what is observed alone, by how they end. -/

variable (handles inv observe)

def Quiet (program : ExceptT ε (Program Effect) α) (good : α → Prop) (fails : ε → Prop) : Prop :=
  ∀ kept, Meets handles inv observe (· = kept) program fun result seen => seen = kept ∧
    (∀ value, result = .ok value → good value) ∧ ∀ error, result = .error error → fails error

variable {handles inv observe} {good : α → Prop} {fails : ε → Prop}

theorem meets_quiet {program : ExceptT ε (Program Effect) α}
    (quiet : Quiet handles inv observe program good fails) :
    Meets handles inv observe pre program fun result seen => pre seen ∧
      (∀ value, result = .ok value → good value) ∧ ∀ error, result = .error error → fails error := by
  intro state holds known
  refine safe_consequence ?_ (quiet (observe state) state holds rfl)
  intro result later _ reached
  exact ⟨reached.1.symm ▸ known, reached.2⟩

theorem meets_quiet_bind {program : ExceptT ε (Program Effect) α}
    {rest : α → ExceptT ε (Program Effect) β} {post : Except ε β → ο → Prop}
    (first : Quiet handles inv observe program good fails)
    (failing : ∀ error seen, pre seen → fails error → post (.error error) seen)
    (second : ∀ value, good value → Meets handles inv observe pre (rest value) post) :
    Meets handles inv observe pre (program >>= rest) post := by
  refine meets_bind (meets_quiet first) ?_ ?_
  · rintro error seen ⟨known, -, failed⟩
    exact failing error seen known (failed error rfl)
  · intro value state holds known
    exact second value (known.2.1 value rfl) state holds known.1

theorem quiet_pure {value : α} (holds : good value) :
    Quiet handles inv observe (pure value : ExceptT ε (Program Effect) α) good fails :=
  fun _ => meets_pure fun _ same => ⟨same, fun _ found => Except.ok.inj found ▸ holds,
    fun _ found => absurd found (by simp)⟩

theorem quiet_throw {error : ε} (holds : fails error) :
    Quiet handles inv observe (throw error : ExceptT ε (Program Effect) α) good fails :=
  fun _ => meets_throw fun _ same =>
    ⟨same, fun _ found => absurd found (by simp), fun _ found => Except.error.inj found ▸ holds⟩

theorem quiet_bind {program : ExceptT ε (Program Effect) α}
    {rest : α → ExceptT ε (Program Effect) β} {result : β → Prop}
    (first : Quiet handles inv observe program good fails)
    (second : ∀ value, good value → Quiet handles inv observe (rest value) result fails) :
    Quiet handles inv observe (program >>= rest) result fails := by
  intro kept
  refine meets_bind (first kept) ?_ ?_
  · rintro error seen ⟨same, -, failing⟩
    exact ⟨same, fun _ found => absurd found (by simp), fun _ found =>
      Except.error.inj found ▸ failing error rfl⟩
  · intro value state holds known
    exact second value (known.2.1 value rfl) kept state holds known.1

theorem quiet_silent {effect : Effect α}
    (silent : ∀ state, inv state → ∀ answer after, handles effect state answer after →
      inv after ∧ observe after = observe state ∧ good answer) :
    Quiet handles inv observe (ExceptT.lift (call effect) : ExceptT ε (Program Effect) α) good fails := by
  intro kept
  apply meets_perform
  intro state holds known answer after handled
  obtain ⟨holdsAfter, same, answered⟩ := silent state holds answer after handled
  exact ⟨holdsAfter, same.trans known, fun _ found => Except.ok.inj found ▸ answered, fun _ found =>
    absurd found (by simp)⟩

theorem quiet_weaken {weaker : α → Prop} {weaklyFails : ε → Prop} {program : ExceptT ε (Program Effect) α}
    (ends : ∀ value, good value → weaker value) (failing : ∀ error, fails error → weaklyFails error)
    (quiet : Quiet handles inv observe program good fails) :
    Quiet handles inv observe program weaker weaklyFails := by
  intro kept
  refine meets_consequence (fun _ => id) ?_ (quiet kept)
  rintro result seen ⟨same, reached, failed⟩
  exact ⟨same, fun value found => ends value (reached value found), fun error found =>
    failing error (failed error found)⟩

theorem quiet_attempt {program : ExceptT ε (Program Effect) α} {never : ε → Prop}
    (quiet : Quiet handles inv observe program good fails) :
    Quiet handles inv observe (attempt program)
      (fun result => (∀ value, result = .ok value → good value) ∧ ∀ error, result = .error error →
        fails error) never := by
  intro kept
  apply meets_attempt
  refine meets_consequence (fun _ => id) ?_ (quiet kept)
  rintro result seen ⟨same, reached⟩
  exact ⟨same, fun _ found => Except.ok.inj found ▸ reached, fun _ found => absurd found (by simp)⟩

theorem quiet_loop {round : α → ExceptT ε (Program Effect) (α ⊕ β)} {start : α}
    (each : ∀ value, Quiet handles inv observe (round value) (fun _ => True) fails) :
    Quiet handles inv observe (tryLoop round start) (fun _ => True) fails := by
  intro kept
  have starts : ∀ seen, seen = kept → (fun (_ : α) seen => seen = kept) start seen := fun _ => id
  refine meets_loop starts fun value => meets_consequence (fun _ => id) ?_ (each value kept)
  rintro (error | again | last) seen ⟨same, -, failing⟩
  · exact ⟨same, fun _ found => absurd found (by simp), fun _ found =>
      failing _ (Except.error.inj found ▸ rfl)⟩
  · exact same
  · exact ⟨same, fun _ _ => trivial, fun _ found => absurd found (by simp)⟩

end Hashring.Program
