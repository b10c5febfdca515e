import Hashring.TaskRecord

/-! Triples for tasks that run among others. An assertion says something of the
shared state that the others cannot falsify, so it may stand between any two
effects of the task. -/
namespace Hashring.Program

variable {Effect : Type → Type 1} {α β ε σ : Type}

/-- What is said of a state stays true while the others go on. -/
structure Assertion (inv : σ → Prop) (rely : σ → σ → Prop) where
  holds : σ → Prop
  stable : Stable inv rely holds

namespace Assertion

variable {inv : σ → Prop} {rely : σ → σ → Prop}

def given (fact : Prop) (said : Assertion inv rely) : Assertion inv rely where
  holds state := fact ∧ said.holds state
  stable state later passed kept known := ⟨known.1, said.stable state later passed kept known.2⟩

def either (first second : Assertion inv rely) : Assertion inv rely where
  holds state := first.holds state ∨ second.holds state
  stable state later passed kept known :=
    known.imp (first.stable state later passed kept) (second.stable state later passed kept)

def any {ι : Type} (family : ι → Assertion inv rely) : Assertion inv rely where
  holds state := ∃ index, (family index).holds state
  stable state later passed kept known :=
    known.imp fun index => (family index).stable state later passed kept

/-- Only success is possible. -/
def onOk (family : α → Assertion inv rely) : Except ε α → Assertion inv rely
  | .ok value => family value
  | .error _ => ⟨fun _ => False, fun _ _ _ _ impossible => impossible⟩

end Assertion

section Triples

variable (handles : {γ : Type} → Effect γ → σ → γ → σ → Prop) (inv : σ → Prop)
  (rely : σ → σ → Prop)

/-- From `pre`, however the others go on, the task ends as `post` says. -/
def Triple (pre : Assertion inv rely) (task : ExceptT ε (Program Effect) α)
    (post : Except ε α → Assertion inv rely) : Prop :=
  ∀ state, inv state → pre.holds state →
    task.run.Safe handles inv rely (fun _ _ => True) (fun result => (post result).holds) state

variable {handles inv rely} {pre : Assertion inv rely} {post : Except ε α → Assertion inv rely}

theorem triple_done {result : Except ε α}
    (ends : ∀ state, inv state → pre.holds state → (post result).holds state) :
    Triple handles inv rely pre (ExceptT.mk (.done result)) post := by
  intro state _ known later passed kept
  exact ends later kept (pre.stable state later passed kept known)

theorem triple_pure {value : α}
    (ends : ∀ state, inv state → pre.holds state → (post (.ok value)).holds state) :
    Triple handles inv rely pre (pure value) post :=
  triple_done ends

theorem triple_throw {error : ε}
    (ends : ∀ state, inv state → pre.holds state → (post (.error error)).holds state) :
    Triple handles inv rely pre (throw error) post :=
  triple_done ends

theorem triple_bind (reflexive : ∀ state, rely state state) {task : ExceptT ε (Program Effect) α}
    {rest : α → ExceptT ε (Program Effect) β} {middle : Except ε α → Assertion inv rely}
    {last : Except ε β → Assertion inv rely} (first : Triple handles inv rely pre task middle)
    (failing : ∀ error state, inv state → (middle (.error error)).holds state →
      (last (.error error)).holds state)
    (second : ∀ value, Triple handles inv rely (middle (.ok value)) (rest value) last) :
    Triple handles inv rely pre (task >>= rest) last := by
  intro state kept known
  refine safe_bind reflexive (safe_consequence ?_ (first state kept known))
  rintro (error | value) later keptLater reached
  · exact triple_done (failing error) later keptLater reached
  · exact second value later keptLater reached

theorem triple_ask {effect : Effect α}
    (step : ∀ state, inv state → pre.holds state → ∀ answer after, handles effect state answer after →
      inv after ∧ (post (.ok answer)).holds after) :
    Triple handles inv rely pre (ExceptT.lift (call effect)) post := by
  intro state _ known later passed kept answer after handled
  obtain ⟨keptAfter, reached⟩ :=
    step later kept (pre.stable state later passed kept known) answer after handled
  exact ⟨keptAfter, trivial, fun end_ further keptEnd => (post (.ok answer)).stable after end_
    further keptEnd reached⟩

theorem triple_attempt (reflexive : ∀ state, rely state state) {task : ExceptT ε (Program Effect) α}
    {last : Except ε (Except ε α) → Assertion inv rely}
    (triple : Triple handles inv rely pre task fun result => last (.ok result)) :
    Triple handles inv rely pre (attempt task) last := by
  intro state kept known
  refine safe_bind reflexive (safe_consequence ?_ (triple state kept known))
  intro result later _ reached end_ passed keptEnd
  exact (last (.ok result)).stable later end_ passed keptEnd reached

/-- Each round starts from `going` and comes back to it, or ends. -/
theorem triple_loop (reflexive : ∀ state, rely state state)
    {round : α → ExceptT ε (Program Effect) (α ⊕ β)} {start : α}
    {going : α → Assertion inv rely} {last : Except ε β → Assertion inv rely}
    {turned : α → Except ε (α ⊕ β) → Assertion inv rely}
    (starts : ∀ state, inv state → pre.holds state → (going start).holds state)
    (each : ∀ value, Triple handles inv rely (going value) (round value) (turned value))
    (again : ∀ value next state, inv state → (turned value (.ok (.inl next))).holds state →
      (going next).holds state)
    (ends : ∀ value result state, inv state → (turned value (.ok (.inr result))).holds state →
      (last (.ok result)).holds state)
    (fails : ∀ value error state, inv state → (turned value (.error error)).holds state →
      (last (.error error)).holds state) :
    Triple handles inv rely pre (tryLoop round start) last := by
  -- The body is the one `tryLoop` repeats; it is not looked into here.
  have turns : ∀ (body : α → Program Effect (α ⊕ Except ε β)),
      (∀ value state, inv state → (going value).holds state → (body value).Safe handles inv rely
        (fun _ _ => True)
        (fun result later => Sum.elim (fun again => (going again).holds later)
          (fun ended => (last ended).holds later) result)
        state) →
      ∀ (fuel : Nat) (value : α) (state : σ), inv state → (going value).holds state →
        (repeatUntil body fuel value).Safe handles inv rely (fun _ _ => True)
            (fun result => (last result).holds) state := by
    intro body step fuel
    induction fuel with
    | zero => exact fun _ _ _ _ => trivial
    | succ fuel ih =>
        intro value state kept known
        refine safe_bind reflexive (safe_consequence ?_ (step value state kept known))
        rintro (next | ended) later keptLater reached
        · exact ih next later keptLater reached
        · exact fun end_ passed keptEnd => (last ended).stable later end_ passed keptEnd reached
  intro state kept known fuel
  refine turns _ ?_ fuel start state kept (starts state kept known)
  intro value state kept known
  refine safe_bind reflexive (safe_consequence ?_ (each value state kept known))
  rintro (error | next | result) later _ reached end_ passed keptEnd
  · exact fails value error end_ keptEnd
      ((turned value (.error error)).stable later end_ passed keptEnd reached)
  · exact again value next end_ keptEnd
      ((turned value (.ok (.inl next))).stable later end_ passed keptEnd reached)
  · exact ends value result end_ keptEnd
      ((turned value (.ok (.inr result))).stable later end_ passed keptEnd reached)

theorem triple_ends (keeps : ∀ state later, rely state later → inv state → inv later)
    {task : ExceptT ε (Program Effect) α} (triple : Triple handles inv rely pre task post)
    {state last : σ} {result : Except ε α} (kept : inv state) (known : pre.holds state)
    (ends : task.run.Ends handles rely state result last) : inv last ∧ (post result).holds last := by
  have both : task.run.Safe handles inv rely (fun _ _ => True) (fun result later => inv later ∧
      (post result).holds later) state :=
    safe_consequence (fun _ _ keptLater reached => ⟨keptLater, reached⟩) (triple state kept known)
  exact ends_safe keeps ends kept both

end Triples

end Hashring.Program
