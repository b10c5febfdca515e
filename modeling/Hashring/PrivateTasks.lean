import Hashring.TaskRuns
import Hashring.TaskTriples

/-! Tasks carried out in private: their effects change a state that no other task
sees, so a run of the whole is one step to the others. -/
namespace Hashring.Program

variable {Effect Wider : Type → Type 1} {α β ε σ τ : Type}

def threaded (run : {γ : Type} → Effect γ → τ → Program Wider (γ × τ)) : Program Effect α → τ →
    Program Wider (α × τ)
  | done value, state => done (value, state)
  | perform effect next, state => (run effect state).andThen fun step => (next step.1).threaded run step.2
  | choose next, state => choose fun pick => (next pick).threaded run state
  | halt, _ => halt

section Giving

variable (allowed : {γ : Type} → Effect γ → γ → Prop)

def Gives : Program Effect α → α → Prop
  | done value, result => result = value
  | perform effect next, result => ∃ answer, allowed effect answer ∧ (next answer).Gives result
  | choose next, result => ∃ pick, (next pick).Gives result
  | halt, _ => False

variable {allowed}

theorem gives_then {program : Program Effect α} {rest : α → Program Effect β} {result : β} :
    (program.andThen rest).Gives allowed result ↔ ∃ value, program.Gives allowed value ∧
      (rest value).Gives allowed result := by
  induction program with
  | done value =>
      constructor
      · exact fun gives => ⟨value, rfl, gives⟩
      · rintro ⟨_, rfl, gives⟩
        exact gives
  | perform effect next ih =>
      constructor
      · rintro ⟨answer, fits, gives⟩
        obtain ⟨value, first, second⟩ := (ih answer).mp gives
        exact ⟨value, ⟨answer, fits, first⟩, second⟩
      · rintro ⟨value, ⟨answer, fits, first⟩, second⟩
        exact ⟨answer, fits, (ih answer).mpr ⟨value, first, second⟩⟩
  | choose next ih =>
      constructor
      · rintro ⟨pick, gives⟩
        obtain ⟨value, first, second⟩ := (ih pick).mp gives
        exact ⟨value, ⟨pick, first⟩, second⟩
      · rintro ⟨value, ⟨pick, first⟩, second⟩
        exact ⟨pick, (ih pick).mpr ⟨value, first, second⟩⟩
  | halt =>
      constructor
      · exact fun impossible => impossible.elim
      · exact fun ⟨_, impossible, _⟩ => impossible

theorem gives_weaken {permitted : {γ : Type} → Effect γ → γ → Prop} {program : Program Effect α}
    {result : α}
    (implies : ∀ {γ : Type} (effect : Effect γ) answer, allowed effect answer → permitted effect answer)
    (gives : program.Gives allowed result) : program.Gives permitted result := by
  induction program with
  | done value => exact gives
  | perform effect next ih =>
      obtain ⟨answer, fits, rest⟩ := gives
      exact ⟨answer, implies effect answer fits, ih answer rest⟩
  | choose next ih =>
      obtain ⟨pick, rest⟩ := gives
      exact ⟨pick, ih pick rest⟩
  | halt => exact gives.elim

theorem gives_ends {embed : {γ : Type} → Effect γ → Wider γ}
    {handles : {γ : Type} → Wider γ → σ → γ → σ → Prop}
    (answers : ∀ {γ : Type} (effect : Effect γ) answer state, allowed effect answer →
      handles (embed effect) state answer state)
    {program : Program Effect α} {result : α} (state : σ) (gives : program.Gives allowed result) :
    (program.lift embed).Ends handles Eq state result state := by
  induction program with
  | done value => exact ⟨gives, rfl⟩
  | perform effect next ih =>
      obtain ⟨answer, fits, rest⟩ := gives
      exact ⟨state, answer, state, rfl, answers effect answer state fits, ih answer rest⟩
  | choose next ih =>
      obtain ⟨pick, rest⟩ := gives
      exact ⟨pick, ih pick rest⟩
  | halt => exact gives.elim

end Giving

section Threads

variable {allowed : {γ : Type} → Wider γ → γ → Prop}
  {run : {γ : Type} → Effect γ → τ → Program Wider (γ × τ)}

theorem gives_threaded {related : τ → τ → Prop} (reflexive : ∀ state, related state state)
    (transitive : ∀ first second third, related first second → related second third → related first third)
    (step : ∀ {γ : Type} (effect : Effect γ) (state : τ) (answer : γ × τ),
      (run effect state).Gives allowed answer → related state answer.2)
    {program : Program Effect α} {state : τ} {result : α × τ}
    (gives : (program.threaded (fun effect => run effect) state).Gives allowed result) :
    related state result.2 := by
  induction program generalizing state with
  | done value =>
      obtain rfl : result = (value, state) := gives
      exact reflexive state
  | perform effect next ih =>
      obtain ⟨answer, first, rest⟩ := gives_then.mp gives
      exact transitive _ _ _ (step effect state answer first) (ih answer.1 rest)
  | choose next ih =>
      obtain ⟨pick, rest⟩ := gives
      exact ih pick rest
  | halt => exact gives.elim

theorem ends_threaded {handles : {γ : Type} → Effect γ → τ → γ → τ → Prop}
    (carried : ∀ {γ : Type} (effect : Effect γ) (state : τ) (answer : γ) (after : τ),
      handles effect state answer after →
      (run effect state).Gives allowed (answer, after))
    {program : Program Effect α} {state last : τ} {value : α}
    (ends : program.Ends handles Eq state value last) :
    (program.threaded (fun effect => run effect) state).Gives allowed (value, last) := by
  induction program generalizing state with
  | done result =>
      obtain ⟨rfl, rfl⟩ := ends
      rfl
  | perform effect next ih =>
      obtain ⟨_, answer, after, rfl, handled, rest⟩ := ends
      exact gives_then.mpr ⟨(answer, after), carried effect state answer after handled, ih answer rest⟩
  | choose next ih =>
      obtain ⟨pick, rest⟩ := ends
      exact ⟨pick, ih pick rest⟩
  | halt => exact ends.elim

end Threads

theorem ends_uninterrupted {handles : {γ : Type} → Effect γ → σ → γ → σ → Prop}
    {rely : σ → σ → Prop}
    {handler program : Program Effect α} {rest : α → Program Effect β} {value : β} {state last : σ}
    (ends : (program.andThen rest).Ends handles rely state value last) :
    ((interruptible handler program).andThen rest).Ends handles rely state value last := by
  induction program generalizing state with
  | done result => exact ends
  | perform effect next ih =>
      obtain ⟨later, answer, after, passed, handled, ends⟩ := ends
      exact ⟨1, later, answer, after, passed, handled, ih answer ends⟩
  | choose next ih =>
      obtain ⟨pick, ends⟩ := ends
      exact ⟨pick, ih pick ends⟩
  | halt => exact ends.elim

theorem ends_loop_error {handles : {γ : Type} → Effect γ → σ → γ → σ → Prop} {rely : σ → σ → Prop}
    (transitive : ∀ first second third, rely first second → rely second third → rely first third)
    {round : α → ExceptT ε (Program Effect) (α ⊕ β)} {start : α} {error : ε} {state last : σ}
    (reflexive : rely last last) (ends : (round start).run.Ends handles rely state (.error error) last) :
    (tryLoop round start).run.Ends handles rely state (.error error) last :=
  ⟨1, ends_bind transitive (ends_bind transitive ends ⟨rfl, reflexive⟩) ⟨rfl, reflexive⟩⟩

section Triples

variable {handles : {γ : Type} → Wider γ → σ → γ → σ → Prop} {inv : σ → Prop}
  {rely : σ → σ → Prop}
variable {pre : Assertion inv rely} {post : Except ε α → Assertion inv rely}

theorem triple_lift {embed : {γ : Type} → Effect γ → Wider γ} {task : ExceptT ε (Program Effect) α}
    (triple : Triple (fun effect => handles (embed effect)) inv rely pre task post) :
    Triple handles inv rely pre (ExceptT.mk (task.run.lift embed)) post :=
  fun state kept known => safe_lift (triple state kept known)

/-- A task that leaves the shared state alone is one step to the others. -/
theorem triple_private {embed : {γ : Type} → Effect γ → Wider γ}
    {allowed : {γ : Type} → Effect γ → γ → Prop} (program : Program Effect α)
    (unseen : ∀ {γ : Type} (effect : Effect γ) state answer after,
      handles (embed effect) state answer after →
      after = state ∧ allowed effect answer) :
    Triple handles inv rely pre (ExceptT.lift (program.lift embed) : ExceptT ε (Program Wider) α)
      (.onOk fun value => .given (program.Gives allowed value) pre) := by
  have whole : ∀ (rest : Program Effect α) (state : σ),
      (∀ value, rest.Gives allowed value → program.Gives allowed value) →
      inv state → pre.holds state →
      (ExceptT.lift (rest.lift embed) : ExceptT ε (Program Wider) α).run.Safe handles inv rely
        (fun _ _ => True)
        (fun result => (Assertion.onOk
            (fun value => Assertion.given (program.Gives allowed value) pre) result).holds) state :=
          by
    intro rest
    induction rest with
    | done value =>
        intro state ends kept known later passed keptLater
        exact ⟨ends value rfl, pre.stable state later passed keptLater known⟩
    | perform effect next ih =>
        intro state ends kept known later passed keptLater answer after handled
        obtain ⟨rfl, fits⟩ := unseen effect later answer after handled
        have knownLater := pre.stable state after passed keptLater known
        exact ⟨keptLater, trivial,
          ih answer after (fun value gives => ends value ⟨answer, fits, gives⟩) keptLater
          knownLater⟩
    | choose next ih =>
        intro state ends kept known pick
        exact ih pick state (fun value gives => ends value ⟨pick, gives⟩) kept known
    | halt => exact fun _ _ _ _ => trivial
  exact fun state kept known => whole program state (fun _ gives => gives) kept known

theorem triple_given {fact : Prop} {task : ExceptT ε (Program Wider) α}
    (triple : fact → Triple handles inv rely pre task post) :
    Triple handles inv rely (.given fact pre) task post :=
  fun state kept known => triple known.1 state kept known.2

end Triples

end Hashring.Program
