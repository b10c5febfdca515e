import Mathlib.Data.List.Basic

/-! Tasks of a concurrent service as programs over its effects. A task waits only
where it performs an effect, so other tasks run between two effects and never
inside one. `choose` is a decision of the scheduler; `halt` is a task that makes
no further step within the run that is looked at. -/
namespace Hashring

inductive Program (Effect : Type → Type 1) (α : Type) : Type 1 where
  | done (value : α)
  | perform {β : Type} (effect : Effect β) (next : β → Program Effect α)
  | choose (next : Nat → Program Effect α)
  | halt

namespace Program

variable {Effect Wider : Type → Type 1} {α β ε ι : Type}

def andThen : Program Effect α → (α → Program Effect β) → Program Effect β
  | done value, rest => rest value
  | perform effect next, rest => perform effect fun answer => (next answer).andThen rest
  | choose next, rest => choose fun pick => (next pick).andThen rest
  | halt, _ => halt

instance : Monad (Program Effect) where
  pure := done
  bind := andThen

def call (effect : Effect α) : Program Effect α := perform effect done

/-- A fallible program whose error the caller looks at. -/
def attempt (program : ExceptT ε (Program Effect) α) : ExceptT ε (Program Effect) (Except ε α) :=
  ExceptT.lift program.run

def lift (embed : {γ : Type} → Effect γ → Wider γ) : Program Effect α → Program Wider α
  | done value => done value
  | perform effect next => perform (embed effect) fun answer => (next answer).lift embed
  | choose next => choose fun pick => (next pick).lift embed
  | halt => halt

/-- The tasks of a pool with what it has collected so far. Each turn lets one
running task make a step. A finished task makes room for the next item until a
task has failed; the tasks already running are then driven to their end. -/
def drain (operation : ι → Program Effect (Except ε β)) :
    Nat → List (Program Effect (Except ε β)) → List ι → List β → Option ε →
      Program Effect (Except ε (List β))
  | _, [], _, values, none => done (.ok values)
  | _, [], _, _, some error => done (.error error)
  | 0, _ :: _, _, _, _ => halt
  | fuel + 1, first :: others, waiting, values, failure => choose fun pick =>
      let running := first :: others
      let turn := pick % running.length
      match running[turn]?, waiting, failure with
      | some (done (.ok value)), item :: rest, none =>
          drain operation fuel (running.eraseIdx turn ++ [operation item]) rest (values ++ [value]) none
      | some (done (.ok value)), _, _ => drain operation fuel (running.eraseIdx turn) waiting
          (values ++ [value]) failure
      | some (done (.error error)), _, _ =>
          drain operation fuel (running.eraseIdx turn) waiting values (some (failure.getD error))
      | some (perform effect next), _, _ => perform effect fun answer =>
          drain operation fuel (running.set turn (next answer)) waiting values failure
      | some (choose next), _, _ => choose fun inner =>
          drain operation fuel (running.set turn (next inner)) waiting values failure
      | some halt, _, _ => drain operation fuel running waiting values failure
      | none, _, _ => halt

/-- Runs the operation for every item, at most `concurrency` of them at once. -/
def tryMapBounded (items : List ι) (concurrency : Nat) (operation : ι → ExceptT ε (Program Effect) β) :
    ExceptT ε (Program Effect) (List β) :=
  ExceptT.mk (choose fun fuel => drain (fun item => (operation item).run) fuel
    ((items.take concurrency).map fun item => (operation item).run) (items.drop concurrency) [] none)

def repeatUntil (round : α → Program Effect (α ⊕ β)) : Nat → α → Program Effect β
  | 0, _ => halt
  | fuel + 1, state => (round state).andThen fun
      | .inl again => repeatUntil round fuel again
      | .inr result => done result

def loop (round : α → Program Effect (α ⊕ β)) (start : α) : Program Effect β :=
  choose fun fuel => repeatUntil round fuel start

def tryLoop (round : α → ExceptT ε (Program Effect) (α ⊕ β)) (start : α) : ExceptT ε (Program Effect) β :=
  ExceptT.mk (loop (fun state => do
    match ← (round state).run with
    | .ok (.inl again) => return .inl again
    | .ok (.inr result) => return .inr (.ok result)
    | .error error => return .inr (.error error)) start)

def interruptible (handler : Program Effect α) : Program Effect α → Program Effect α
  | done value => done value
  | perform effect next => choose fun pick =>
      if pick = 0 then handler else perform effect fun answer => interruptible handler (next answer)
  | choose next => choose fun pick => interruptible handler (next pick)
  | halt => choose fun _ => handler

/-! Rely and guarantee. `handles` says which answers an effect may get in a state
and which state it leaves; `rely` is what the other tasks may do between two
effects of this one. -/
section Interference

variable {σ : Type} (handles : {γ : Type} → Effect γ → σ → γ → σ → Prop)
variable (inv : σ → Prop) (rely keeps : σ → σ → Prop)

/-- Every effect the program performs keeps the invariant and the guarantee, and
its result satisfies `post` as long as only the others go on. -/
def Safe : Program Effect α → (α → σ → Prop) → σ → Prop
  | done value, post, state => ∀ later, rely state later → inv later → post value later
  | perform effect next, post, state => ∀ later, rely state later → inv later →
      ∀ answer after, handles effect later answer after →
        inv after ∧ keeps later after ∧ Safe (next answer) post after
  | choose next, post, state => ∀ pick, Safe (next pick) post state
  | halt, _, _ => True

variable {handles inv rely keeps}
variable (transitive : ∀ {first second third}, rely first second → rely second third → rely first third)

include transitive in
theorem safe_stable {program : Program Effect α} {post : α → σ → Prop} {state later : σ}
    (safe : program.Safe handles inv rely keeps post state) (passed : rely state later) :
    program.Safe handles inv rely keeps post later := by
  induction program with
  | done value =>
      intro end_ further kept
      exact safe end_ (transitive passed further) kept
  | perform effect next ih =>
      intro end_ further kept answer after handled
      exact safe end_ (transitive passed further) kept answer after handled
  | choose next ih =>
      intro pick
      exact ih pick (safe pick)
  | halt => trivial

theorem safe_consequence {program : Program Effect α} {post weaker : α → σ → Prop} {state : σ}
    (implies : ∀ value state, inv state → post value state → weaker value state)
    (safe : program.Safe handles inv rely keeps post state) :
    program.Safe handles inv rely keeps weaker state := by
  induction program generalizing state with
  | done value =>
      intro later passed kept
      exact implies value later kept (safe later passed kept)
  | perform effect next ih =>
      intro later passed kept answer after handled
      obtain ⟨holds, guaranteed, rest⟩ := safe later passed kept answer after handled
      exact ⟨holds, guaranteed, ih answer rest⟩
  | choose next ih =>
      intro pick
      exact ih pick (safe pick)
  | halt => trivial

/-- A program may start once the others have gone on. -/
theorem safe_after (reflexive : ∀ state, rely state state) {program : Program Effect α}
    {post : α → σ → Prop} {state : σ}
    (safe : ∀ later, rely state later → inv later → program.Safe handles inv rely keeps post later) :
    program.Safe handles inv rely keeps post state := by
  induction program with
  | done value =>
      intro later passed kept
      exact safe later passed kept later (reflexive later) kept
  | perform effect next ih =>
      intro later passed kept
      exact safe later passed kept later (reflexive later) kept
  | choose next ih =>
      intro pick
      exact ih pick fun later passed kept => safe later passed kept pick
  | halt => trivial

theorem safe_bind (reflexive : ∀ state, rely state state) {program : Program Effect α}
    {rest : α → Program Effect β}
    {post : β → σ → Prop} {state : σ}
    (safe : program.Safe handles inv rely keeps
      (fun value => (rest value).Safe handles inv rely keeps post) state) :
    (program >>= rest).Safe handles inv rely keeps post state := by
  induction program generalizing state with
  | done value => exact safe_after reflexive safe
  | perform effect next ih =>
      intro later passed kept answer after handled
      obtain ⟨holds, guaranteed, safe⟩ := safe later passed kept answer after handled
      exact ⟨holds, guaranteed, ih answer safe⟩
  | choose next ih =>
      intro pick
      exact ih pick (safe pick)
  | halt => trivial

/-- A program that is safe among many others is safe among fewer, and keeps what
neither they nor its own effects can falsify. -/
theorem safe_frame {fewer promises : σ → σ → Prop} {known : σ → Prop} {program : Program Effect α}
    {post : α → σ → Prop} {state : σ} (relied : ∀ state later, fewer state later → rely state later)
    (promised : ∀ state later, keeps state later → promises state later)
    (stable : ∀ state later, fewer state later → inv later → known state → known later)
    (kept : ∀ state later, keeps state later → inv later → known state → known later)
    (safe : program.Safe handles inv rely keeps post state) (knows : known state) :
    program.Safe handles inv fewer promises (fun value later => known later ∧ post value later)
      state := by
  induction program generalizing state with
  | done value =>
      intro later passed keptLater
      exact ⟨stable state later passed keptLater knows, safe later (relied state later passed) keptLater⟩
  | perform effect next ih =>
      intro later passed keptLater answer after handled
      obtain ⟨holds, guaranteed, rest⟩ :=
        safe later (relied state later passed) keptLater answer after handled
      have knowsLater := stable state later passed keptLater knows
      exact ⟨holds, promised later after guaranteed,
        ih answer rest (kept later after guaranteed holds knowsLater)⟩
  | choose next ih =>
      intro pick
      exact ih pick (safe pick) knows
  | halt => trivial

/-! Programs that are safe whatever the others do, by what they return. -/

variable (handles inv keeps)

def Returns (program : ExceptT ε (Program Effect) α) (good : α → Prop) : Prop :=
  ∀ state, inv state → program.run.Safe handles inv (fun _ _ => True) keeps
    (fun result _ => ∀ value, result = .ok value → good value) state

variable {handles inv keeps}

theorem returns_pure {value : α} {good : α → Prop} (holds : good value) :
    Returns handles inv keeps (pure value : ExceptT ε (Program Effect) α) good := by
  intro state _ later _ _ found same
  exact Except.ok.inj same ▸ holds

theorem returns_throw {error : ε} {good : α → Prop} :
    Returns handles inv keeps (throw error : ExceptT ε (Program Effect) α) good := by
  intro state _ later _ _ found same
  exact absurd same (by simp)

theorem returns_bind {program : ExceptT ε (Program Effect) α} {rest : α → ExceptT ε (Program Effect) β}
    {middle : α → Prop} {good : β → Prop} (first : Returns handles inv keeps program middle)
    (second : ∀ value, middle value → Returns handles inv keeps (rest value) good) :
    Returns handles inv keeps (program >>= rest) good := by
  intro state kept
  refine safe_bind (fun _ => trivial) (safe_consequence ?_ (first state kept))
  rintro (error | value) later keptLater reached
  · intro end_ _ _ found same
    exact absurd same (by simp)
  · exact second value (reached value rfl) later keptLater

theorem returns_weaken {program : ExceptT ε (Program Effect) α} {good weaker : α → Prop}
    (returns : Returns handles inv keeps program good) (implies : ∀ value, good value → weaker value) :
    Returns handles inv keeps program weaker := by
  intro state kept
  exact safe_consequence (fun _ _ _ reached value same => implies value (reached value same))
    (returns state kept)

/-- The shape of a check inside a `do` block. -/
theorem returns_unless {refuses : Prop} [Decidable refuses] {error : ε}
    {rest : Unit → ExceptT ε (Program Effect) α} {good : α → Prop}
    (passes : ¬refuses → Returns handles inv keeps (rest ()) good) :
    Returns handles inv keeps (if refuses then throw error >>= rest else rest ()) good := by
  split
  · exact returns_bind returns_throw fun _ (impossible : False) => impossible.elim
  · rename_i accepted
    exact passes accepted

theorem returns_attempt {program : ExceptT ε (Program Effect) α} {good : α → Prop}
    (returns : Returns handles inv keeps program good) :
    Returns handles inv keeps (attempt program) fun result => ∀ value, result = .ok value →
      good value := by
  intro state kept
  refine safe_bind (fun _ => trivial) (safe_consequence ?_ (returns state kept))
  rintro result later _ reached end_ _ _ found same
  exact Except.ok.inj same ▸ reached

theorem returns_lift {effect : Effect α} {good : α → Prop}
    (step : ∀ state, inv state → ∀ answer after, handles effect state answer after →
      inv after ∧ keeps state after ∧ good answer) :
    Returns handles inv keeps (ExceptT.lift (call effect) : ExceptT ε (Program Effect) α) good := by
  intro state _ later _ kept answer after handled
  obtain ⟨keptAfter, guaranteed, result⟩ := step later kept answer after handled
  refine ⟨keptAfter, guaranteed, fun end_ _ _ found same => ?_⟩
  exact Except.ok.inj same ▸ result

theorem returns_call {effect : Effect (Except ε α)} {good : α → Prop}
    (step : ∀ state, inv state → ∀ answer after, handles effect state answer after →
      inv after ∧ keeps state after ∧ ∀ value, answer = .ok value → good value) :
    Returns handles inv keeps (ExceptT.mk (call effect)) good := by
  intro state _ later _ kept answer after handled
  obtain ⟨keptAfter, guaranteed, result⟩ := step later kept answer after handled
  exact ⟨keptAfter, guaranteed, fun end_ _ _ found same => result found same⟩

theorem drain_safe {fits : ι → Prop} {good : β → Prop} {operation : ι → Program Effect (Except ε β)}
    (starts : ∀ item, fits item → ∀ state, inv state →
      (operation item).Safe handles inv (fun _ _ => True) keeps
        (fun result _ => ∀ value, result = .ok value → good value)
        state)
    (fuel : Nat) {running : List (Program Effect (Except ε β))} {waiting : List ι} {values : List β}
    {failure : Option ε} {state : σ} (kept : inv state) (fitting : ∀ item ∈ waiting, fits item)
    (collected : ∀ value ∈ values, good value)
    (safe : ∀ task ∈ running, task.Safe handles inv (fun _ _ => True) keeps
      (fun result _ => ∀ value, result = .ok value → good value) state) :
    (drain operation fuel running waiting values failure).Safe handles inv (fun _ _ => True) keeps
      (fun result _ => ∀ found, result = .ok found → ∀ value ∈ found, good value) state := by
  have drained : ∀ (fuel : Nat) {waiting : List ι} {values : List β} {failure : Option ε} {state : σ},
      (∀ value ∈ values, good value) → (drain operation fuel [] waiting values failure).Safe handles
        inv (fun _ _ => True)
        keeps (fun result _ => ∀ found, result = .ok found → ∀ value ∈ found, good value) state := by
    intro fuel waiting values failure state collected
    rw [drain.eq_def]
    cases failure with
    | none => exact fun _ _ _ found same => Except.ok.inj same ▸ collected
    | some error => exact fun _ _ _ found same => absurd same (by simp)
  -- Induction on the turns left: whoever moves keeps its own task safe, and its
  -- siblings are safe after any move.
  induction fuel generalizing running waiting values failure state with
  | zero =>
      cases running with
      | nil => exact drained 0 collected
      | cons first rest => trivial
  | succ fuel ih =>
      cases running with
      | nil => exact drained (fuel + 1) collected
      | cons first rest =>
          intro pick
          have settled : ∀ task ∈ (first :: rest).eraseIdx (pick % (first :: rest).length),
              task.Safe handles inv (fun _ _ => True) keeps
                (fun result _ => ∀ value, result = .ok value → good value)
                state :=
            fun task member => safe task (List.mem_of_mem_eraseIdx member)
          have gathered : ∀ value, (first :: rest)[pick % (first :: rest).length]? =
              some (done (.ok value)) →
              ∀ found ∈ values ++ [value], good found := by
            intro value finished found member
            rcases List.mem_append.mp member with old | new
            · exact collected found old
            · obtain rfl := List.mem_singleton.mp new
              exact safe _ (List.mem_of_getElem? finished) state trivial kept found rfl
          simp only
          split
          · rename_i value item later finished
            refine ih kept (fun item member => fitting item (List.mem_cons_of_mem _ member))
              (gathered value finished)
              fun task member => ?_
            rcases List.mem_append.mp member with old | new
            · exact settled task old
            · obtain rfl := List.mem_singleton.mp new
              exact starts item (fitting item List.mem_cons_self) state kept
          · rename_i value finished _
            exact ih kept fitting (gathered value finished) settled
          · exact ih kept fitting collected settled
          · rename_i effect next moving
            intro later passed keptLater answer after handled
            obtain ⟨keptAfter, guaranteed, rest⟩ :=
              safe _ (List.mem_of_getElem? moving) later trivial keptLater answer after handled
            refine ⟨keptAfter, guaranteed, ih keptAfter fitting collected fun task member => ?_⟩
            rcases List.mem_or_eq_of_mem_set member with old | rfl
            · exact safe_stable (fun _ _ => trivial) (safe task old) trivial
            · exact rest
          · rename_i next moving
            intro inner
            refine ih kept fitting collected fun task member => ?_
            rcases List.mem_or_eq_of_mem_set member with old | rfl
            · exact safe task old
            · exact safe _ (List.mem_of_getElem? moving) inner
          · exact ih kept fitting collected safe
          · trivial

theorem returns_pool {items : List ι} {concurrency : Nat}
    {operation : ι → ExceptT ε (Program Effect) β} {good : β → Prop}
    (each : ∀ item ∈ items, Returns handles inv keeps (operation item) good) :
    Returns handles inv keeps (tryMapBounded items concurrency operation) fun values =>
      ∀ value ∈ values, good value := by
  intro state kept fuel
  refine drain_safe (fun item member => each item member) fuel kept
    (fun item member => List.mem_of_mem_drop member)
    (fun _ member => absurd member List.not_mem_nil) fun task member => ?_
  obtain ⟨item, listed, rfl⟩ := List.mem_map.mp member
  exact each item (List.mem_of_mem_take listed) state kept

theorem repeat_until_safe {round : α → Program Effect (α ⊕ β)} {going : α → Prop} {good : β → Prop}
    (each : ∀ value, going value → ∀ state, inv state →
      (round value).Safe handles inv (fun _ _ => True) keeps
      (fun result _ => (∀ again, result = .inl again → going again) ∧ ∀ last, result = .inr last →
        good last) state)
    (fuel : Nat) {value : α} {state : σ} (kept : inv state) (fits : going value) :
    (repeatUntil round fuel value).Safe handles inv (fun _ _ => True) keeps
      (fun result _ => good result) state := by
  induction fuel generalizing value state with
  | zero => trivial
  | succ fuel ih =>
      refine safe_bind (fun _ => trivial) (safe_consequence ?_ (each value fits state kept))
      rintro (again | last) later keptLater reached
      · exact ih keptLater (reached.1 again rfl)
      · exact fun _ _ _ => reached.2 last rfl

theorem returns_loop {round : α → ExceptT ε (Program Effect) (α ⊕ β)} {start : α} {going : α → Prop}
    {good : β → Prop}
    (starts : going start) (each : ∀ value, going value → Returns handles inv keeps (round value)
      fun result => (∀ again, result = .inl again → going again) ∧ ∀ last, result = .inr last →
        good last) :
    Returns handles inv keeps (tryLoop round start) good := by
  intro state kept fuel
  apply repeat_until_safe _ fuel kept starts
  intro value fits state kept
  refine safe_bind (fun _ => trivial) (safe_consequence ?_ (each value fits state kept))
  rintro (error | again | last) later _ reached
  · exact fun _ _ _ => ⟨fun _ same => absurd same (by simp), fun found same _ failed =>
      absurd (Sum.inr.inj same ▸ failed) (by simp)⟩
  · refine fun _ _ _ => ⟨fun found same => ?_, fun _ same => absurd same (by simp)⟩
    exact Sum.inl.inj same ▸ (reached _ rfl).1 again rfl
  · refine fun _ _ _ => ⟨fun _ same => absurd same (by simp), fun found same value ended => ?_⟩
    obtain rfl := Except.ok.inj ((Sum.inr.inj same).trans ended)
    exact (reached _ rfl).2 last rfl

theorem returns_rounds {round : α → ExceptT ε (Program Effect) (α ⊕ β)} {start : α}
    (each : ∀ value, Returns handles inv keeps (round value) fun _ => True) :
    Returns handles inv keeps (tryLoop round start) fun _ => True := by
  have going : (fun _ : α => True) start := trivial
  exact returns_loop going fun value _ =>
    returns_weaken (each value) fun _ _ => ⟨fun _ _ => trivial, fun _ _ => trivial⟩

theorem interruptible_safe {handler program : Program Effect α} {post : α → σ → Prop}
    (drops : ∀ state, inv state → handler.Safe handles inv rely keeps post state) {state : σ}
    (kept : inv state) (safe : program.Safe handles inv rely keeps post state) :
    (interruptible handler program).Safe handles inv rely keeps post state := by
  induction program generalizing state with
  | done value => exact safe
  | perform effect next ih =>
      intro pick
      simp only
      split
      · exact drops state kept
      · intro later passed keptLater answer after handled
        obtain ⟨keptAfter, guaranteed, rest⟩ := safe later passed keptLater answer after handled
        exact ⟨keptAfter, guaranteed, ih answer keptAfter rest⟩
  | choose next ih =>
      intro pick
      exact ih pick kept (safe pick)
  | halt => exact fun _ => drops state kept

theorem returns_interruptible {handler program : ExceptT ε (Program Effect) α} {good : α → Prop}
    (drops : Returns handles inv keeps handler good) (returns : Returns handles inv keeps program good) :
    Returns handles inv keeps (ExceptT.mk (interruptible handler.run program.run)) good := by
  intro state kept
  exact interruptible_safe drops kept (returns state kept)

/-! A program over some of the effects, none of which touches the state. -/

def Yields {Inner : Type → Type 1} (allowed : {γ : Type} → Inner γ → γ → Prop)
    (program : ExceptT ε (Program Inner) α)
    (good : α → Prop) : Prop :=
  Returns (fun effect (_ : Unit) answer _ => allowed effect answer) (fun _ => True)
    (fun _ _ => True) program good

theorem yields_anything {Inner : Type → Type 1} {allowed : {γ : Type} → Inner γ → γ → Prop}
    (program : ExceptT ε (Program Inner) α) : Yields allowed program fun _ => True := by
  intro state kept
  have all : ∀ (program : Program Inner (Except ε α)) (state : Unit),
      program.Safe (fun effect (_ : Unit) answer _ => allowed effect answer) (fun _ => True)
        (fun _ _ => True)
        (fun _ _ => True) (fun result _ => ∀ value, result = .ok value → True) state := by
    intro program
    induction program with
    | done value => exact fun _ _ _ _ _ _ => trivial
    | perform effect next ih => exact fun _ _ _ _ answer after _ => ⟨trivial, trivial, ih answer after⟩
    | choose next ih => exact fun state pick => ih pick state
    | halt => exact fun _ => trivial
  exact all program.run state

theorem returns_embedded {Inner : Type → Type 1} {allowed : {γ : Type} → Inner γ → γ → Prop}
    {embed : {γ : Type} → Inner γ → Effect γ} {program : ExceptT ε (Program Inner) α} {good : α → Prop}
    (untouched : ∀ {γ : Type} (effect : Inner γ) state answer after,
      handles (embed effect) state answer after →
      allowed effect answer ∧ after = state)
    (reflexive : ∀ state, keeps state state) (yields : Yields allowed program good) :
    Returns handles inv keeps (ExceptT.mk (program.run.lift embed)) good := by
  intro state kept
  have all : ∀ (program : Program Inner (Except ε α)) (state : σ), inv state →
      program.Safe (fun effect (_ : Unit) answer _ => allowed effect answer) (fun _ => True)
        (fun _ _ => True)
        (fun _ _ => True) (fun result _ => ∀ value, result = .ok value → good value) () →
      (program.lift embed).Safe handles inv (fun _ _ => True) keeps
        (fun result _ => ∀ value, result = .ok value → good value) state := by
    intro program
    induction program with
    | done value => exact fun _ _ safe _ _ _ => safe () trivial trivial
    | perform effect next ih =>
        intro state _ safe later _ keptLater answer after handled
        obtain ⟨permitted, rfl⟩ := untouched effect later answer after handled
        exact ⟨keptLater, reflexive _,
          ih answer _ keptLater (safe () trivial trivial answer () permitted).2.2⟩
    | choose next ih => exact fun state kept safe pick => ih pick state kept (safe pick)
    | halt => exact fun _ _ _ => trivial
  exact all program.run state kept (yields () trivial)

/-! Programs that know something of the state: they rely on the others not to
falsify it. -/

variable (handles inv rely keeps)

/-- `failed` holds when the program ends with an error. -/
def Attempts (pre : σ → Prop) (program : ExceptT ε (Program Effect) α) (post : α → σ → Prop)
    (failed : σ → Prop) : Prop :=
  ∀ state, inv state → pre state → program.run.Safe handles inv rely keeps
    (fun result later => (∀ value, result = .ok value → post value later) ∧
      ∀ error, result = .error error → failed later)
    state

def Stable (assertion : σ → Prop) : Prop :=
  ∀ state later, rely state later → inv later → assertion state → assertion later

variable {handles inv rely keeps} {pre failed : σ → Prop}

theorem attempts_pure {value : α} {post : α → σ → Prop} (stable : Stable inv rely pre)
    (holds : ∀ state, inv state → pre state → post value state) :
    Attempts handles inv rely keeps pre (pure value : ExceptT ε (Program Effect) α) post failed := by
  intro state _ known later passed kept
  refine ⟨fun found same => ?_, fun _ same => absurd same (by simp)⟩
  exact Except.ok.inj same ▸ holds later kept (stable state later passed kept known)

theorem attempts_throw {error : ε} {post : α → σ → Prop} (stable : Stable inv rely pre)
    (holds : ∀ state, inv state → pre state → failed state) :
    Attempts handles inv rely keeps pre (throw error : ExceptT ε (Program Effect) α) post failed := by
  intro state _ known later passed kept
  exact ⟨fun _ same => absurd same (by simp), fun _ _ => holds later kept
    (stable state later passed kept known)⟩

theorem attempts_bind (reflexive : ∀ state, rely state state) (stable : Stable inv rely failed)
    {program : ExceptT ε (Program Effect) α} {rest : α → ExceptT ε (Program Effect) β}
    {middle : α → σ → Prop} {post : β → σ → Prop}
    (first : Attempts handles inv rely keeps pre program middle failed)
    (second : ∀ value, Attempts handles inv rely keeps (middle value) (rest value) post failed) :
    Attempts handles inv rely keeps pre (program >>= rest) post failed := by
  intro state kept known
  refine safe_bind reflexive (safe_consequence ?_ (first state kept known))
  rintro (error | value) later keptLater reached
  · exact fun end_ passed keptEnd => ⟨fun _ same => absurd same (by simp), fun _ _ =>
      stable later end_ passed keptEnd (reached.2 error rfl)⟩
  · exact second value later keptLater (reached.1 value rfl)

theorem attempts_weaken {stronger weaklyFailed : σ → Prop} {program : ExceptT ε (Program Effect) α}
    {post weaker : α → σ → Prop} (attempts : Attempts handles inv rely keeps pre program post failed)
    (before : ∀ state, inv state → stronger state → pre state)
    (after : ∀ value state, inv state → post value state → weaker value state)
    (failing : ∀ state, inv state → failed state → weaklyFailed state) :
    Attempts handles inv rely keeps stronger program weaker weaklyFailed := by
  intro state kept known
  refine safe_consequence ?_ (attempts state kept (before state kept known))
  intro result later keptLater reached
  exact ⟨fun value same => after value later keptLater (reached.1 value same),
    fun error same => failing later keptLater (reached.2 error same)⟩

theorem attempts_unless (reflexive : ∀ state, rely state state) (stableFailed : Stable inv rely failed)
    (stable : Stable inv rely pre) {refuses : Prop} [Decidable refuses] {error : ε}
    {rest : Unit → ExceptT ε (Program Effect) α} {post : α → σ → Prop}
    (fails : ∀ state, inv state → pre state → failed state)
    (passes : ¬refuses → Attempts handles inv rely keeps pre (rest ()) post failed) :
    Attempts handles inv rely keeps pre (if refuses then throw error >>= rest else rest ()) post
      failed := by
  split
  · exact attempts_bind reflexive stableFailed (attempts_throw stable fails)
        fun _ _ _ (impossible : False) =>
      impossible.elim
  · rename_i accepted
    exact passes accepted

theorem attempts_attempt (reflexive : ∀ state, rely state state) {program : ExceptT ε (Program Effect) α}
    {post : Except ε α → σ → Prop} (stable : ∀ result, Stable inv rely (post result))
    (attempts : Attempts handles inv rely keeps pre program (fun value => post (.ok value)) fun state =>
      ∀ error, post (.error error) state) :
    Attempts handles inv rely keeps pre (attempt program) post failed := by
  intro state kept known
  refine safe_bind reflexive (safe_consequence ?_ (attempts state kept known))
  rintro result later _ reached end_ passed keptEnd
  refine ⟨fun found same => ?_, fun _ same => absurd same (by simp)⟩
  obtain rfl := Except.ok.inj same
  apply stable result later end_ passed keptEnd
  cases result with
  | error error => exact reached.2 error rfl error
  | ok value => exact reached.1 value rfl

theorem attempts_call {effect : Effect (Except ε α)} {post : α → σ → Prop} (stable : Stable inv rely pre)
    (stablePost : ∀ value, Stable inv rely (post value)) (stableFailed : Stable inv rely failed)
    (step : ∀ state, inv state → pre state → ∀ answer after, handles effect state answer after →
      inv after ∧ keeps state after ∧ (∀ value, answer = .ok value → post value after) ∧
        ∀ error, answer = .error error → failed after) :
    Attempts handles inv rely keeps pre (ExceptT.mk (call effect)) post failed := by
  intro state _ known later passed kept answer after handled
  obtain ⟨keptAfter, guaranteed, done_, failing⟩ :=
    step later kept (stable state later passed kept known) answer after handled
  refine ⟨keptAfter, guaranteed, fun end_ further keptEnd => ⟨fun value same => ?_, fun error same => ?_⟩⟩
  · exact stablePost value after end_ further keptEnd (done_ value same)
  · exact stableFailed after end_ further keptEnd (failing error same)

/-- A program that is safe whatever the others do, run by one that knows something
neither it nor they touch. -/
theorem attempts_returns {quiet : σ → σ → Prop} {program : ExceptT ε (Program Effect) α} {good : α → Prop}
    (promised : ∀ state later, quiet state later → keeps state later) (stable : Stable inv rely pre)
    (kept : ∀ state later, quiet state later → inv later → pre state → pre later)
    (returns : Returns handles inv quiet program good) :
    Attempts handles inv rely keeps pre program (fun value state => pre state ∧ good value) pre := by
  intro state holds known
  refine safe_consequence ?_
    (safe_frame (fun _ _ _ => trivial) promised stable kept (returns state holds) known)
  intro result later _ reached
  exact ⟨fun value same => ⟨reached.1, reached.2 value same⟩, fun _ _ => reached.1⟩

end Interference

/-! Running tasks. -/

/-- One step of a task: an effect, or a decision of the scheduler. -/
inductive Moves {σ : Type} (handles : {γ : Type} → Effect γ → σ → γ → σ → Prop) :
    Program Effect α → σ → Program Effect α → σ → Prop
  | perform {β : Type} {effect : Effect β} {next : β → Program Effect α} {state after : σ} {answer : β}
      (handled : handles effect state answer after) : Moves handles (perform effect next) state
        (next answer) after
  | choose {next : Nat → Program Effect α} {state : σ} (pick : Nat) :
      Moves handles (choose next) state (next pick) state

theorem safe_moves {σ : Type} {handles : {γ : Type} → Effect γ → σ → γ → σ → Prop} {inv : σ → Prop}
    {rely keeps : σ → σ → Prop} (reflexive : ∀ state, rely state state)
    (unchanged : ∀ state, keeps state state) {program next : Program Effect α} {post : α → σ → Prop}
    {state after : σ} (kept : inv state) (safe : program.Safe handles inv rely keeps post state)
    (moves : Moves handles program state next after) :
    inv after ∧ keeps state after ∧ next.Safe handles inv rely keeps post after := by
  cases moves with
  | perform handled => exact safe _ (reflexive _) kept _ _ handled
  | choose pick => exact ⟨kept, unchanged _, safe pick⟩

end Program
end Hashring
