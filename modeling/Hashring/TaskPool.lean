import Hashring.TaskRecord

/-! Tasks run side by side for their results in order, and the rule for them: each
task's own rely is what its siblings and the outside may do. An effect carries
the position of the task that performs it. -/
namespace Hashring

inductive Labelled (Effect : Type → Type 1) : Type → Type 1 where
  | mk {γ : Type} (label : Nat) (effect : Effect γ) : Labelled Effect γ

namespace Program

variable {Effect : Type → Type 1} {α ε σ : Type}

def labelled (label : Nat) (program : Program Effect α) : Program (Labelled Effect) α :=
  program.lift (.mk label)

def finished : Program Effect α → Option α
  | done value => some value
  | _ => none

/-- Lets one task at a time make a step, in any order, until all are done. -/
def gather : Nat → List (Program Effect α) → Program Effect (List α)
  | 0, tasks =>
      match tasks.mapM finished with
      | some values => done values
      | none => halt
  | fuel + 1, tasks =>
      match tasks.mapM finished with
      | some values => done values
      | none => choose fun pick =>
          let turn := pick % tasks.length
          match tasks[turn]? with
          | some (perform effect next) => perform effect fun answer =>
              gather fuel (tasks.set turn (next answer))
          | some (choose next) => choose fun inner => gather fuel (tasks.set turn (next inner))
          | _ => gather fuel tasks

def gatherAll (tasks : List (Program Effect α)) : Program (Labelled Effect) (List α) :=
  choose fun fuel => gather fuel (tasks.mapIdx labelled)

def succeeded : Program Effect (Except ε α) → Option α
  | done (.ok value) => some value
  | _ => none

/-- The same for tasks that may fail: the first failure that is noticed ends them all. -/
def tryGather : Nat → List (Program Effect (Except ε α)) → Program Effect (Except ε (List α))
  | 0, _ => halt
  | fuel + 1, tasks =>
      match tasks.mapM succeeded with
      | some values => done (.ok values)
      | none => choose fun pick =>
          let turn := pick % tasks.length
          match tasks[turn]? with
          | some (done (.error error)) => done (.error error)
          | some (perform effect next) => perform effect fun answer => tryGather fuel
              (tasks.set turn (next answer))
          | some (choose next) => choose fun inner => tryGather fuel (tasks.set turn (next inner))
          | _ => tryGather fuel tasks

def tryJoinAll (tasks : List (ExceptT ε (Program Effect) α)) : ExceptT ε (Program Effect) (List α) :=
  ExceptT.mk (choose fun fuel => tryGather fuel (tasks.map (·.run)))

theorem mapM_finished {tasks : List (Program Effect α)} {values : List α}
    (all : tasks.mapM finished = some values) :
    tasks = values.map done := by
  induction tasks generalizing values with
  | nil =>
      obtain rfl := Option.some.inj all
      rfl
  | cons first rest ih =>
      rw [List.mapM_cons] at all
      obtain ⟨head, headDone, tail⟩ := Option.bind_eq_some_iff.mp all
      obtain ⟨others, restDone, same⟩ := Option.bind_eq_some_iff.mp tail
      obtain rfl := Option.some.inj same
      rw [List.map_cons, ← ih restDone]
      cases first with
      | done value => rw [Option.some.inj headDone]
      | perform effect next => exact absurd headDone (by simp [finished])
      | choose next => exact absurd headDone (by simp [finished])
      | halt => exact absurd headDone (by simp [finished])

def interpret {Wider : Type → Type 1} (run : {γ : Type} → Effect γ → Program Wider γ) :
    Program Effect α → Program Wider α
  | done value => done value
  | perform effect next => run effect >>= fun answer => (next answer).interpret (fun effect => run effect)
  | choose next => choose fun pick => (next pick).interpret (fun effect => run effect)
  | halt => halt

theorem interpret_bind {Wider : Type → Type 1} {β : Type} (run : {γ : Type} → Effect γ → Program Wider γ)
    (program : Program Effect α) (rest : α → Program Effect β) :
    (program >>= rest).interpret run = program.interpret run >>= fun value =>
      (rest value).interpret run := by
  have assoc : ∀ {γ δ ε : Type} (first : Program Wider γ) (second : γ → Program Wider δ)
      (third : δ → Program Wider ε),
      (first >>= second) >>= third = first >>= fun value => second value >>= third := by
    intro γ δ ε first second third
    induction first with
    | done value => rfl
    | perform effect next ih => exact congrArg (perform effect) (funext ih)
    | choose next ih => exact congrArg choose (funext ih)
    | halt => rfl
  induction program with
  | done value => rfl
  | perform effect next ih =>
      refine Eq.trans ?_ (assoc _ _ _).symm
      exact congrArg (run effect >>= ·) (funext ih)
  | choose next ih => exact congrArg choose (funext ih)
  | halt => rfl

theorem lift_bind {Wider : Type → Type 1} {β : Type} (embed : {γ : Type} → Effect γ → Wider γ)
    (program : Program Effect α) (rest : α → Program Effect β) :
    (program >>= rest).lift embed = program.lift embed >>= fun value => (rest value).lift embed := by
  induction program with
  | done value => rfl
  | perform effect next ih => exact congrArg (perform (embed effect)) (funext ih)
  | choose next ih => exact congrArg choose (funext ih)
  | halt => rfl

def embedded {Wider : Type → Type 1} (embed : {γ : Type} → Effect γ → Wider γ)
    (task : ExceptT ε (Program Effect) α) :
    ExceptT ε (Program Wider) α :=
  ExceptT.mk (task.run.lift embed)

theorem embedded_bind {Wider : Type → Type 1} {β : Type} (embed : {γ : Type} → Effect γ → Wider γ)
    (task : ExceptT ε (Program Effect) α) (rest : α → ExceptT ε (Program Effect) β) :
    embedded embed (task >>= rest) = embedded embed task >>= fun value => embedded embed
      (rest value) := by
  refine (lift_bind embed task.run _).trans
    (congrArg (task.run.lift embed >>= ·) (funext fun result => ?_))
  cases result with
  | ok value => rfl
  | error error => rfl

def carryOut {Wider : Type → Type 1} (run : {γ : Type} → Effect γ → Program Wider γ)
    (task : ExceptT ε (Program Effect) α) :
    ExceptT ε (Program Wider) α :=
  ExceptT.mk (task.run.interpret run)

theorem carry_out_bind {Wider : Type → Type 1} {β : Type} (run : {γ : Type} → Effect γ → Program Wider γ)
    (task : ExceptT ε (Program Effect) α) (rest : α → ExceptT ε (Program Effect) β) :
    carryOut run (task >>= rest) = carryOut run task >>= fun value => carryOut run (rest value) := by
  refine (interpret_bind run task.run _).trans
    (congrArg (task.run.interpret run >>= ·) (funext fun result => ?_))
  cases result with
  | ok value => rfl
  | error error => rfl

theorem bind_done {Wider : Type → Type 1} (program : Program Wider α) : program >>= done = program := by
  induction program with
  | done value => rfl
  | perform effect next ih => exact congrArg (perform effect) (funext ih)
  | choose next ih => exact congrArg choose (funext ih)
  | halt => rfl

theorem carry_out_call {Wider : Type → Type 1} (run : {γ : Type} → Effect γ → Program Wider γ)
    (effect : Effect (Except ε α)) : carryOut run (ExceptT.mk (call effect)) = ExceptT.mk (run effect) :=
  bind_done (run effect)

section Layers

variable {τ : Type} {handles : {γ : Type} → Effect γ → τ → γ → τ → Prop} {inv : τ → Prop}
  {rely keeps : τ → τ → Prop}

theorem labelled_safe {outer : {γ : Type} → Labelled Effect γ → σ → γ → σ → Prop}
    {outerInv : σ → Prop}
    {outerRely outerKeeps : σ → σ → Prop} {label : Nat} (view : σ → τ) {post : α → τ → Prop}
    (sees : ∀ state, outerInv state → inv (view state))
    (relied : ∀ state later, outerRely state later → rely (view state) (view later))
    (step : ∀ {γ : Type} (effect : Effect γ) state answer after, outerInv state →
      outer (.mk label effect) state answer after →
      handles effect (view state) answer (view after) ∧ outerInv after ∧ outerKeeps state after)
    {program : Program Effect α} {state : σ}
    (safe : program.Safe handles inv rely keeps post (view state)) :
    (program.labelled label).Safe outer outerInv outerRely outerKeeps
      (fun value later => post value (view later)) state := by
  induction program generalizing state with
  | done value =>
      intro later passed holds
      exact safe _ (relied state later passed) (sees later holds)
  | perform effect next ih =>
      intro later passed holds answer after handled
      obtain ⟨inner, holdsAfter, guaranteed⟩ := step effect later answer after holds handled
      exact ⟨holdsAfter, guaranteed,
        ih answer (safe _ (relied state later passed) (sees later holds) answer _ inner).2.2⟩
  | choose next ih => exact fun pick => ih pick (safe pick)
  | halt => trivial

/-- A program whose effects are programs: what each of them may do is the effect's
meaning for the program above. -/
theorem interpret_safe {Wider : Type → Type 1} {lower : {γ : Type} → Wider γ → τ → γ → τ → Prop}
    {run : {γ : Type} → Effect γ → Program Wider γ} {post : α → τ → Prop}
    (reflexive : ∀ state, rely state state)
    (meaning : ∀ {γ : Type} (effect : Effect γ) state, inv state →
      (run effect).Safe lower inv rely keeps (fun answer after => handles effect state answer after)
        state)
    {program : Program Effect α} {state : τ} (safe : program.Safe handles inv rely keeps post state) :
    (program.interpret run).Safe lower inv rely keeps post state := by
  induction program generalizing state with
  | done value => exact safe
  | perform effect next ih =>
      refine safe_bind reflexive (safe_after reflexive fun later passed holds => ?_)
      refine safe_consequence ?_ (meaning effect later holds)
      intro answer after _ handled
      exact ih answer (safe later passed holds answer after handled).2.2
  | choose next ih => exact fun pick => ih pick (safe pick)
  | halt => trivial

end Layers

section Parallel

variable {handles : {γ : Type} → Effect γ → σ → γ → σ → Prop} {inv : σ → Prop}
  {rely keeps : σ → σ → Prop}
variable (relies guarantees : Nat → σ → σ → Prop) (post : Nat → α → σ → Prop)

/-- What holds of every task holds of the pool: a task's step is within what its
siblings rely on, and so is a step from outside. -/
theorem gather_safe (transitive : ∀ index {first second third}, relies index first second →
    relies index second third →
      relies index first third)
    (siblings : ∀ index other state later, index ≠ other → inv later → guarantees index state later →
      relies other state later)
    (outside : ∀ index state later, rely state later → relies index state later)
    (kept : ∀ index state later, guarantees index state later → keeps state later) (fuel : Nat)
    {tasks : List (Program Effect α)} {state : σ}
    (safe : ∀ index (task : Program Effect α), tasks[index]? = some task →
      task.Safe handles inv (relies index) (guarantees index) (post index) state) :
    (gather fuel tasks).Safe handles inv rely keeps
      (fun values later => values.length = tasks.length ∧ ∀ index value, values[index]? =
        some value → post index value later)
      state := by
  have settled : ∀ {tasks : List (Program Effect α)} {state : σ} {values : List α},
      tasks.mapM finished = some values →
      (∀ index (task : Program Effect α), tasks[index]? = some task →
        task.Safe handles inv (relies index) (guarantees index) (post index) state) →
      (done values : Program Effect (List α)).Safe handles inv rely keeps
        (fun values later => values.length = tasks.length ∧ ∀ index value, values[index]? =
          some value → post index value later)
        state := by
    intro tasks state values all safe later passed holds
    obtain rfl := mapM_finished all
    refine ⟨by simp, fun index value found => ?_⟩
    exact safe index (done value) (by simp [found]) later (outside index state later passed) holds
  -- On the picks left. The task that was picked goes on from its own step; for the
  -- others that step is one they rely on.
  induction fuel generalizing tasks state with
  | zero =>
      rw [gather]
      split
      · rename_i values all
        exact settled all safe
      · trivial
  | succ fuel ih =>
      rw [gather]
      split
      · rename_i values all
        exact settled all safe
      · intro pick
        simp only
        have moved : ∀ {next : Program Effect α} {after : σ},
            (∀ index (task : Program Effect α), (tasks.set (pick % tasks.length) next)[index]? =
              some task →
              task.Safe handles inv (relies index) (guarantees index) (post index) after) →
            (gather fuel (tasks.set (pick % tasks.length) next)).Safe handles inv rely keeps
              (fun values later => values.length = tasks.length ∧
                ∀ index value, values[index]? = some value → post index value later) after := by
          intro next after safe
          simpa using ih safe
        split
        · rename_i γ effect next moving
          intro later passed holds answer after handled
          obtain ⟨holdsAfter, guaranteed, rest⟩ :=
            safe _ _ moving later (outside _ state later passed) holds answer after handled
          refine ⟨holdsAfter, kept _ _ _ guaranteed, moved ?_⟩
          intro index task found
          by_cases own : pick % tasks.length = index
          · subst own
            rw [List.getElem?_set_self (List.getElem?_eq_some_iff.mp moving).1] at found
            exact Option.some.inj found ▸ rest
          · rw [List.getElem?_set_ne own] at found
            have moved : relies index state after :=
              transitive index (outside index state later passed)
                (siblings _ index later after own holdsAfter guaranteed)
            refine safe_stable ?_ (safe index task found) moved
            exact transitive index
        · rename_i next moving
          intro inner
          apply moved
          intro index task found
          by_cases own : pick % tasks.length = index
          · subst own
            rw [List.getElem?_set_self (List.getElem?_eq_some_iff.mp moving).1] at found
            exact Option.some.inj found ▸ safe _ _ moving inner
          · rw [List.getElem?_set_ne own] at found
            exact safe index task found
        · exact ih safe

theorem mapM_succeeded {tasks : List (Program Effect (Except ε α))} {values : List α}
    (all : tasks.mapM succeeded = some values) : tasks = values.map fun value => done (.ok value) := by
  induction tasks generalizing values with
  | nil =>
      obtain rfl := Option.some.inj all
      rfl
  | cons first rest ih =>
      rw [List.mapM_cons] at all
      obtain ⟨head, headDone, tail⟩ := Option.bind_eq_some_iff.mp all
      obtain ⟨others, restDone, same⟩ := Option.bind_eq_some_iff.mp tail
      obtain rfl := Option.some.inj same
      rw [List.map_cons, ← ih restDone]
      unfold succeeded at headDone
      split at headDone
      · rw [Option.some.inj headDone]
      · exact absurd headDone (by simp)

theorem returns_join {tasks : List (ExceptT ε (Program Effect) α)} {good : Nat → α → Prop}
    (each : ∀ index task, tasks[index]? = some task → Returns handles inv keeps task (good index)) :
    Returns handles inv keeps (tryJoinAll tasks) fun values =>
      values.length = tasks.length ∧ ∀ index value, values[index]? = some value → good index value := by
  have turns : ∀ (fuel : Nat) (running : List (Program Effect (Except ε α))) (state : σ), inv state →
      running.length = tasks.length →
      (∀ index (task : Program Effect (Except ε α)), running[index]? = some task →
        task.Safe handles inv (fun _ _ => True) keeps (fun result _ => ∀ value, result = .ok value →
          good index value) state) →
      (tryGather fuel running).Safe handles inv (fun _ _ => True) keeps
        (fun result _ => ∀ values, result = .ok values →
        values.length = tasks.length ∧ ∀ index value, values[index]? = some value →
            good index value) state := by
    -- On the picks left; a task that fails ends the pool, and nothing is owed then.
    intro fuel
    induction fuel with
    | zero => exact fun _ _ _ _ _ => trivial
    | succ fuel ih =>
        intro running state kept count safe
        rw [tryGather]
        split
        · rename_i values all
          intro later _ keptLater found same
          obtain rfl := Except.ok.inj same
          obtain rfl := mapM_succeeded all
          refine ⟨by simpa using count, fun index value listed => ?_⟩
          exact safe index (done (.ok value)) (by simp [listed]) later trivial keptLater value rfl
        · intro pick
          simp only
          have replaced : ∀ {next : Program Effect (Except ε α)} {after : σ},
              next.Safe handles inv (fun _ _ => True) keeps
                (fun result _ => ∀ value, result = .ok value → good (pick % running.length) value) after →
              ∀ index (task : Program Effect (Except ε α)),
                (running.set (pick % running.length) next)[index]? = some task →
                task.Safe handles inv (fun _ _ => True) keeps
                  (fun result _ => ∀ value, result = .ok value → good index value)
                  after := by
            intro next after moved index task found
            by_cases own : pick % running.length = index
            · subst own
              have inside : pick % running.length < running.length := by
                by_contra outside
                rw [List.getElem?_eq_none (by simpa using outside)] at found
                exact absurd found (by simp)
              rw [List.getElem?_set_self inside] at found
              exact Option.some.inj found ▸ moved
            · rw [List.getElem?_set_ne own] at found
              exact safe_stable (fun _ _ => trivial) (safe index task found) trivial
          split
          · exact fun _ _ _ _ same => absurd same (by simp)
          · rename_i effect next moving
            intro later _ keptLater answer after handled
            obtain ⟨keptAfter, guaranteed, rest⟩ :=
              safe _ _ moving later trivial keptLater answer after handled
            exact ⟨keptAfter, guaranteed, ih _ after keptAfter (by simpa using count) (replaced rest)⟩
          · rename_i next moving
            intro inner
            exact ih _ state kept (by simpa using count) (replaced (safe _ _ moving inner))
          · exact ih running state kept count safe
  intro state kept fuel
  refine turns fuel _ state kept (by simp) fun index task found => ?_
  obtain ⟨program, listed, rfl⟩ := Option.map_eq_some_iff.mp ((List.getElem?_map ..).symm.trans found)
  exact each index program listed state kept

end Parallel

end Program
end Hashring
