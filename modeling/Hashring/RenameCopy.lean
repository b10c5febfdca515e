import Hashring.PartialWrites
import Mathlib.Logic.Relation

/-! `RENAME` against the records it moves: a write may be applied when its call says
so, when its call leaves that open, or later still; deadlines pass and expired
records are swept at any time. -/
namespace Hashring

open Program

inductive AskedWrite where
  | put (key value : Bytes) (expiry : Expiry) (expected : Option Expect)
  | expire (key : Bytes) (deadline : Option Nat) (expected : Expect)
  | delete (key : Bytes) (expected : Expect)

structure World where
  records : Bytes → Option Current
  now : Nat
  /-- Requests that may still reach their owner. -/
  stray : List AskedWrite

namespace World

def live (world : World) (key : Bytes) : Option Current :=
  (world.records key).filter fun record => record.deadline.all (world.now < ·)

def Meets (world : World) (key : Bytes) : Expect → Prop
  | .absent => world.live key = none
  | .version version => ∃ record, world.live key = some record ∧ record.version = version

def deadlineAfter (world : World) (key : Bytes) (expiry : Expiry) : Option Nat :=
  match expiry with
  | .keep => (world.live key).bind (·.deadline)
  | .atMillis unixMillis => if unixMillis = 0 then none else some unixMillis
  | .clear => none

def store (world : World) (key : Bytes) (record : Option Current) : World :=
  { world with records := fun other => if other = key then record else world.records other }

def Makes (world : World) : AskedWrite → World → Prop
  | .put key value expiry expected, after => (∀ condition ∈ expected, world.Meets key condition) ∧
      ∃ version, after = world.store key
        (some { value, deadline := world.deadlineAfter key expiry, version })
  | .expire key deadline expected, after => world.Meets key expected ∧ ∃ record version,
      world.live key = some record ∧
      after = world.store key (some { record with deadline, version })
  | .delete key expected, after => world.Meets key expected ∧ after = world.store key none

/-- What happens without the command. -/
inductive Moves : World → World → Prop
  | pass {world : World} (now : Nat) (later : world.now ≤ now) : Moves world { world with now }
  | sweep {world : World} {key : Bytes} {record : Current} {deadline : Nat}
      (found : world.records key = some record)
      (due : record.deadline = some deadline) (passed : deadline ≤ world.now) :
        Moves world (world.store key none)
  | late {world after : World} {asked : AskedWrite} (underway : asked ∈ world.stray)
      (makes : world.Makes asked after) :
      Moves world after

def Elapses : World → World → Prop := Relation.ReflTransGen Moves

def asking (world : World) (asked : AskedWrite) : World := { world with stray := asked :: world.stray }

/-- A write came out this way: what is not known to be applied may be applied, now
or later. -/
def Tried (world : World) (asked : AskedWrite) (outcome : CallOutcome) (after : World) : Prop :=
  match outcome with
  | .applied => world.Makes asked after
  | .unknown | .unversioned =>
      after = world.asking asked ∨ ∃ made, world.Makes asked made ∧ after = made.asking asked
  | _ => after = world

def Answers (world : World) : {γ : Type} → ClientCall γ → γ → World → Prop
  | _, .get key, answer, after => after = world ∧ ∀ output, answer = .ok output →
      world.live key = some { value := output.value, deadline := output.expiresAtUnixMillis, version := output.version }
  | _, .putWithExpiry key value expiry, answer, after => world.Tried (.put key value expiry none)
      (writeOutcome answer) after
  | _, .putIf key value expiry expected, answer, after =>
      world.Tried (.put key value expiry (some expected)) (conditionalOutcome answer) after
  | _, .setExpiryIf key deadline expected, answer, after =>
      world.Tried (.expire key deadline expected) (conditionalOutcome answer) after
  | _, .deleteIf key expected, answer, after => world.Tried (.delete key expected)
      (conditionalOutcome answer) after
  | _, .now, _, after | _, .connect, _, after | _, .lock _, _, after | _, .unlock _, _,
      after => after = world

def LabelledAnswers {γ : Type} : Labelled ClientCall γ → World → γ → World → Prop
  | .mk _ call, world, answer, after => world.Answers call answer after

section Rename

variable (source destination : Bytes) (current : Current)

/-- The deadline of what is moved has passed. -/
def Expired (world : World) : Prop := ∃ deadline, current.deadline = some deadline ∧ deadline ≤ world.now

/-- The destination holds what was read from the source. -/
def Copied (world : World) : Prop := ∃ record, world.records destination = some record ∧
    record.value = current.value ∧
  (record.deadline = none ∨ record.deadline = current.deadline)

/-- The value is held by the source or the destination until its deadline passes. -/
def Held (world : World) : Prop :=
  world.records source = some current ∨ world.Copied destination current ∨ world.Expired current

/-- Nothing is under way that could lose the value. -/
structure Kept (world : World) : Prop where
  held : world.Held source destination current
  unchanged : source ≠ destination → ∀ record, world.records source = some record → record = current
  stray : ∀ asked ∈ world.stray,
    (∃ expected, asked = .put destination current.value (expiryOf current.deadline) expected) ∨
    ∃ expected, asked = .delete source expected ∧ source ≠ destination ∧
      (world.Copied destination current ∨ world.Expired current)

variable {source destination : Bytes} {current : Current} {world after : World}

theorem copied_store {key : Bytes} {record : Option Current} (distinct : key ≠ destination)
    (copied : world.Copied destination current) : (world.store key record).Copied destination
      current := by
  obtain ⟨copy, found, value, deadline⟩ := copied
  exact ⟨copy, by simp [store, distinct.symm, found], value, deadline⟩

theorem expired_store {key : Bytes} {record : Option Current} (expired : world.Expired current) :
    (world.store key record).Expired current := expired

theorem makes_copy {expected : Option Expect}
    (makes : world.Makes (.put destination current.value (expiryOf current.deadline) expected) after) :
    after.Copied destination current ∧ after.stray = world.stray ∧ after.now = world.now ∧
      ∀ key, key ≠ destination → after.records key = world.records key := by
  obtain ⟨-, version, rfl⟩ := makes
  have found : (world.store destination
      (some ⟨current.value, world.deadlineAfter destination (expiryOf current.deadline),
      version⟩)).records
      destination = some ⟨current.value, world.deadlineAfter destination
        (expiryOf current.deadline), version⟩ := by simp [store]
  refine ⟨⟨_, found, rfl, ?_⟩, rfl, rfl, fun key distinct => by simp [store, distinct]⟩
  cases deadline : current.deadline with
  | none => exact .inl rfl
  | some unixMillis =>
      simp only [expiryOf, deadlineAfter]
      split
      · exact .inl rfl
      · exact .inr rfl

theorem makes_delete {expected : Expect} (makes : world.Makes (.delete source expected) after) :
    after = world.store source none := makes.2

theorem kept_copy {expected : Option Expect} (kept : world.Kept source destination current)
    (makes : world.Makes (.put destination current.value (expiryOf current.deadline) expected) after) :
    after.Kept source destination current := by
  obtain ⟨copied, stray, now, others⟩ := makes_copy makes
  refine ⟨.inr (.inl copied), fun distinct record found => ?_, fun asked underway => ?_⟩
  · rw [others source distinct] at found
    exact kept.unchanged distinct record found
  · rw [stray] at underway
    rcases kept.stray asked underway with copy | ⟨expected, same, distinct, -⟩
    · exact .inl copy
    · exact .inr ⟨expected, same, distinct, .inl copied⟩

/-- The source is deleted only after that. -/
theorem kept_delete (kept : world.Kept source destination current) (distinct : source ≠ destination)
    (safe : world.Copied destination current ∨ world.Expired current) :
    (world.store source none).Kept source destination current := by
  have still : (world.store source none).Copied destination current ∨
      (world.store source none).Expired current :=
    safe.imp (copied_store distinct) expired_store
  refine ⟨.inr still, fun _ record found => absurd found (by simp [store]), fun asked underway => ?_⟩
  rcases kept.stray asked underway with copy | ⟨expected, same, apart, -⟩
  · exact .inl copy
  · exact .inr ⟨expected, same, apart, still⟩

/-- The value is at the destination, or its time is over. -/
def Safe (destination : Bytes) (current : Current) (world : World) : Prop :=
  world.Copied destination current ∨ world.Expired current

theorem safe_moves (kept : world.Kept source destination current) (safe : world.Safe destination current)
    (moves : world.Moves after) : after.Safe destination current := by
  cases moves with
  | pass now later => exact safe.imp_right fun ⟨deadline, due, passed⟩ =>
      ⟨deadline, due, passed.trans later⟩
  | @sweep key record deadline found due passed =>
      rcases safe with copied | expired
      · by_cases there : key = destination
        · subst there
          -- A copy that is swept had the deadline of what is moved.
          obtain ⟨copy, present, -, same⟩ := copied
          obtain rfl := Option.some.inj (found.symm.trans present)
          rcases same with never | same
          · exact absurd (due.symm.trans never) (by simp)
          · exact .inr ⟨deadline, same.symm.trans due, passed⟩
        · exact .inl (copied_store there copied)
      · exact .inr (expired_store expired)
  | late underway makes =>
      rcases kept.stray _ underway with ⟨expected, rfl⟩ | ⟨expected, rfl, distinct, -⟩
      · exact .inl (makes_copy makes).1
      · rw [makes_delete makes]
        exact safe.imp (copied_store distinct) expired_store

theorem kept_moves (kept : world.Kept source destination current) (moves : world.Moves after) :
    after.Kept source destination current := by
  have strayKept : after.stray = world.stray → ∀ asked ∈ after.stray,
      (∃ expected, asked = .put destination current.value (expiryOf current.deadline) expected) ∨
        ∃ expected, asked = .delete source expected ∧ source ≠ destination ∧
            after.Safe destination current := by
    intro same asked underway
    rw [same] at underway
    rcases kept.stray asked underway with copy | ⟨expected, same, distinct, safe⟩
    · exact .inl copy
    · exact .inr ⟨expected, same, distinct, safe_moves kept safe moves⟩
  cases moves with
  | pass now later =>
      refine ⟨?_, kept.unchanged, strayKept rfl⟩
      exact kept.held.imp_right fun safe => safe_moves kept safe (.pass now later)
  | @sweep key record deadline found due passed =>
      refine ⟨?_, fun distinct other present => ?_, strayKept rfl⟩
      · rcases kept.held with held | safe
        · by_cases there : key = source
          · subst there
            obtain rfl := Option.some.inj (found.symm.trans held)
            exact .inr (.inr ⟨deadline, due, passed⟩)
          · exact .inl (by simp [store, Ne.symm there, held])
        · exact .inr (safe_moves kept safe (.sweep found due passed))
      · by_cases there : source = key
        · simp [store, there] at present
        · exact kept.unchanged distinct other (by simpa [store, there] using present)
  | late underway makes =>
      rcases kept.stray _ underway with ⟨expected, rfl⟩ | ⟨expected, rfl, distinct, safe⟩
      · exact kept_copy kept makes
      · rw [makes_delete makes]
        exact kept_delete kept distinct safe

theorem kept_elapses (kept : world.Kept source destination current) (elapses : world.Elapses after) :
    after.Kept source destination current := by
  induction elapses with
  | refl => exact kept
  | tail _ moves ih => exact kept_moves ih moves

theorem safe_elapses (kept : world.Kept source destination current)
    (safe : world.Safe destination current)
    (elapses : world.Elapses after) : after.Safe destination current := by
  induction elapses with
  | refl => exact safe
  | tail earlier moves ih => exact safe_moves (kept_elapses kept earlier) ih moves

theorem tried_cases {asked : AskedWrite} {outcome : CallOutcome}
    (tried : world.Tried asked outcome after) :
    world.Makes asked after ∨ (outcome ≠ .applied ∧ (after = world ∨ after = world.asking asked ∨
      ∃ made, world.Makes asked made ∧ after = made.asking asked)) := by
  cases outcome with
  | applied => exact .inl tried
  | unknown => exact .inr ⟨by simp, .inr tried⟩
  | unversioned => exact .inr ⟨by simp, .inr tried⟩
  | found => exact .inr ⟨by simp, .inl tried⟩
  | missing => exact .inr ⟨by simp, .inl tried⟩
  | unread => exact .inr ⟨by simp, .inl tried⟩
  | notApplied => exact .inr ⟨by simp, .inl tried⟩

theorem kept_asking {asked : AskedWrite} (kept : world.Kept source destination current)
    (harmless : (∃ expected, asked = .put destination current.value (expiryOf current.deadline)
      expected) ∨
      ∃ expected, asked = .delete source expected ∧ source ≠ destination ∧
        world.Safe destination current) :
    (world.asking asked).Kept source destination current := by
  refine ⟨kept.held, kept.unchanged, fun other underway => ?_⟩
  rcases List.mem_cons.mp underway with rfl | old
  · exact harmless
  · exact kept.stray other old

theorem kept_tried_copy {expected : Option Expect} {outcome : CallOutcome}
    (kept : world.Kept source destination current)
    (tried : world.Tried (.put destination current.value (expiryOf current.deadline) expected)
      outcome after) :
    after.Kept source destination current ∧ (outcome = .applied → after.Safe destination current) := by
  rcases tried_cases tried with makes | ⟨unconfirmed, rfl | rfl | ⟨made, makes, rfl⟩⟩
  · exact ⟨kept_copy kept makes, fun _ => .inl (makes_copy makes).1⟩
  · exact ⟨kept, fun applied => absurd applied unconfirmed⟩
  · exact ⟨kept_asking kept (.inl ⟨expected, rfl⟩), fun applied => absurd applied unconfirmed⟩
  · exact ⟨kept_asking (kept_copy kept makes) (.inl ⟨expected, rfl⟩), fun applied =>
      absurd applied unconfirmed⟩

theorem kept_tried_delete {expected : Expect} {outcome : CallOutcome}
    (kept : world.Kept source destination current) (distinct : source ≠ destination)
    (safe : world.Safe destination current)
    (tried : world.Tried (.delete source expected) outcome after) :
    after.Kept source destination current := by
  rcases tried_cases tried with makes | ⟨-, rfl | rfl | ⟨made, makes, rfl⟩⟩
  · rw [makes_delete makes]
    exact kept_delete kept distinct safe
  · exact kept
  · exact kept_asking kept (.inr ⟨expected, rfl, distinct, safe⟩)
  · rw [makes_delete makes]
    have still : (world.store source none).Safe destination current :=
      safe.imp (copied_store distinct) expired_store
    exact kept_asking (kept_delete kept distinct safe) (.inr ⟨expected, rfl, distinct, still⟩)

/-! The calls of the command, one after the other. -/

variable (source destination current)

/-- A part of the command that keeps the value held, and what it knows when it
succeeds. -/
abbrev Upholds {β : Type} (pre : World → Prop)
    (task : ExceptT RedisError (Program (Labelled ClientCall)) β)
    (good : β → World → Prop) : Prop :=
  Attempts LabelledAnswers (Kept source destination current) Elapses (fun _ _ => True) pre task good
    fun _ => True

variable {source destination current} {β : Type}

theorem stable_always : Stable (Kept source destination current) Elapses fun _ => True :=
  fun _ _ _ _ _ => trivial

theorem stable_fact {fact : Prop} : Stable (Kept source destination current) Elapses fun _ => fact :=
  fun _ _ _ _ known => known

theorem elapses_refl (world : World) : Elapses world world := .refl

theorem upholds_bind {γ : Type} {pre : World → Prop}
    {task : ExceptT RedisError (Program (Labelled ClientCall)) β}
    {rest : β → ExceptT RedisError (Program (Labelled ClientCall)) γ} {middle : β → World → Prop}
    {good : γ → World → Prop} (first : Upholds source destination current pre task middle)
    (second : ∀ value, Upholds source destination current (middle value) (rest value) good) :
    Upholds source destination current pre (task >>= rest) good :=
  attempts_bind elapses_refl stable_always first second

theorem upholds_call {call : ClientCall β} {pre : World → Prop} {good : β → World → Prop}
    (stable : Stable (Kept source destination current) Elapses pre)
    (stableGood : ∀ value, Stable (Kept source destination current) Elapses (good value))
    (step : ∀ world : World, world.Kept source destination current → pre world → ∀ answer after,
      world.Answers call answer after → after.Kept source destination current ∧ good answer after) :
    Upholds source destination current pre (ExceptT.lift (Program.call (.mk 0 call))) good := by
  refine attempts_lift stable stableGood ?_
  intro world kept known answer after handled
  obtain ⟨keptAfter, reached⟩ := step world kept known answer after handled
  exact ⟨keptAfter, trivial, reached⟩

def atLabel (task : StoreTask β) : ExceptT RedisError (Program (Labelled ClientCall)) β :=
  ExceptT.mk (task.run.labelled 0)

theorem at_label_bind {γ : Type} (task : StoreTask β) (rest : β → StoreTask γ) :
    atLabel (task >>= rest) = atLabel task >>= fun value => atLabel (rest value) :=
  embedded_bind (fun call => Labelled.mk 0 call) task rest

/-- A command that has failed touches nothing any more. -/
theorem safe_anything (error : RedisError) (world : World) {good : β → World → Prop} :
    (done (.error error) : Program (Labelled ClientCall) (Except RedisError β)).Safe LabelledAnswers
      (Kept source destination current) Elapses (fun _ _ => True)
      (fun result later => (∀ value, result = .ok value → good value later) ∧
        ∀ error, result = .error error → True) world :=
  fun _ _ _ => ⟨fun _ same => absurd same (by simp), fun _ _ => trivial⟩

theorem upholds_throw {error : RedisError} {pre : World → Prop} {good : β → World → Prop} :
    Upholds source destination current pre (throw error) good :=
  fun world _ _ => safe_anything error world

theorem upholds_shared_client {pre : World → Prop}
    (stable : Stable (Kept source destination current) Elapses pre) :
    Upholds source destination current pre (atLabel sharedClient) fun _ => pre := by
  rw [sharedClient, at_label_bind]
  refine upholds_bind (upholds_call stable (fun _ => stable) ?_) fun answer => ?_
  · rintro world kept known answer after rfl
    exact ⟨kept, known⟩
  · cases answer with
    | ok value => exact attempts_pure stable fun _ _ known => known
    | error error => exact attempts_throw stable fun _ _ _ => trivial

theorem upholds_ask_or_fail {call : ClientCall (Except ClientError β)} {pre : World → Prop}
    {good : β → World → Prop} (stable : Stable (Kept source destination current) Elapses pre)
    (stableGood : ∀ value, Stable (Kept source destination current) Elapses (good value))
    (step : ∀ world : World, world.Kept source destination current → pre world → ∀ answer after,
      world.Answers call answer after → after.Kept source destination current ∧
        ∀ value, answer = .ok value → good value after) :
    Upholds source destination current pre (atLabel (askOrFail call)) good := by
  rw [askOrFail, at_label_bind]
  have asked : Upholds source destination current pre (ExceptT.lift (Program.call (.mk 0 call)))
      fun answer after => ∀ value, answer = .ok value → good value after := by
    refine upholds_call stable ?_ step
    intro answer world after elapses kept reached value same
    exact stableGood value world after elapses kept (reached value same)
  refine upholds_bind asked fun answer => ?_
  cases answer with
  | ok value =>
      refine attempts_pure ?_ fun world _ known => known value rfl
      intro world after elapses kept known found same
      exact stableGood found world after elapses kept (known found same)
  | error error => exact upholds_throw

theorem live_record {key : Bytes} {record : Current} (found : world.live key = some record) :
    world.records key = some record :=
  (Option.filter_eq_some_iff.mp found).1

/-- What is read from the source is what is to be moved. -/
theorem upholds_read : Upholds source destination current (fun _ => True)
    (atLabel (do sharedClient; readWith source)) fun found _ => ∀ record ∈ found, source ≠
      destination → record = current := by
  rw [at_label_bind]
  refine upholds_bind (upholds_shared_client stable_always) fun _ => ?_
  rw [readWith, at_label_bind]
  have asked : Upholds source destination current (fun _ => True)
      (ExceptT.lift (Program.call (.mk 0 (.get source))))
      fun answer _ => ∀ output, answer = .ok output → source ≠ destination →
        (⟨output.value, output.expiresAtUnixMillis, output.version⟩ : Current) = current := by
    refine upholds_call stable_always (fun _ => stable_fact) ?_
    rintro world kept - answer after ⟨rfl, truthful⟩
    exact ⟨kept, fun output same distinct => kept.unchanged distinct _
      (live_record (truthful output same))⟩
  refine upholds_bind asked fun answer => ?_
  split
  · refine attempts_pure stable_fact fun world _ known record found distinct => ?_
    rw [← Option.some.inj found]
    exact known _ rfl distinct
  · split
    · exact attempts_pure stable_fact fun _ _ _ _ found => absurd found (by simp)
    · exact upholds_throw
  · exact upholds_throw

/-- The value is at the destination for good, whatever elapses. -/
def Secured (source destination : Bytes) (current : Current) (world : World) : Prop :=
  world.Kept source destination current ∧ world.Safe destination current

theorem stable_secured :
    Stable (Kept source destination current) Elapses (Secured source destination current) := by
  rintro world after elapses - ⟨kept, safe⟩
  exact ⟨kept_elapses kept elapses, safe_elapses kept safe elapses⟩

abbrev onCluster (handler : Handler β) : ExceptT RedisError (Program (Labelled ClientCall)) β :=
  carryOut (fun effect => effect.cluster) handler

theorem upholds_direct {request : StoreEffect (Except ClientError β)}
    {call : ClientCall (Except ClientError β)}
    (plain : request.cluster = (Program.call call).labelled 0) {pre : World → Prop}
    {good : β → World → Prop} (stable : Stable (Kept source destination current) Elapses pre)
    (stableGood : ∀ value, Stable (Kept source destination current) Elapses (good value))
    (step : ∀ world : World, world.Kept source destination current → pre world → ∀ answer after,
      world.Answers call answer after → after.Kept source destination current ∧
        ∀ value, answer = .ok value → good value after) :
    Upholds source destination current pre (onCluster (Handler.direct request)) good := by
  have same : onCluster (Handler.direct request) = atLabel (askOrFail call) := by
    rw [Handler.direct, onCluster, carry_out_bind, askOrFail, at_label_bind]
    have lifted : carryOut (fun effect => effect.cluster)
        (ExceptT.lift (Program.call request) : Handler _) =
        atLabel (ask call) := by
      change ExceptT.mk (request.cluster >>= fun answer => done (.ok answer)) = _
      rw [plain]
      rfl
    rw [lifted]
    refine congrArg (atLabel (ask call) >>= ·) (funext fun answer => ?_)
    cases answer with
    | ok value => rfl
    | error error => rfl
  rw [same]
  exact upholds_ask_or_fail stable stableGood step

theorem secured_copy {expected : Option Expect} {outcome : CallOutcome}
    (kept : world.Kept source destination current)
    (tried : world.Tried (.put destination current.value (expiryOf current.deadline) expected)
      outcome after) :
    after.Kept source destination current ∧
      (outcome = .applied → after.Secured source destination current) := by
  obtain ⟨keptAfter, safe⟩ := kept_tried_copy kept tried
  exact ⟨keptAfter, fun applied => ⟨keptAfter, safe applied⟩⟩

theorem upholds_rename_source (distinct : source ≠ destination) (onlyIfAbsent : Bool) :
    Upholds source destination current (Secured source destination current)
      (onCluster (renameSource source current onlyIfAbsent)) fun _ _ => True := by
  rw [renameSource, onCluster, carry_out_bind]
  refine upholds_bind (upholds_direct rfl stable_secured (fun _ => stable_always) ?_) fun deleted => ?_
  · intro world _ secured answer after answered
    exact ⟨kept_tried_delete secured.1 distinct secured.2 answered, fun _ _ => trivial⟩
  · cases deleted with
    | some output => exact attempts_pure stable_always fun _ _ _ => trivial
    | none => exact upholds_throw

/-- `RENAME` from the read on. -/
theorem upholds_copy (distinct : source ≠ destination) :
    Upholds source destination current (fun _ => True) (onCluster (do
      Handler.store (.put destination current.value (expiryOf current.deadline))
      renameSource source current false)) fun _ _ => True := by
  rw [onCluster, carry_out_bind]
  have copies : Upholds source destination current (fun _ => True)
      (onCluster (Handler.store (.put destination current.value (expiryOf current.deadline))))
      fun _ => Secured source destination current := by
    rw [onCluster, Handler.store, carry_out_call]
    change Upholds source destination current (fun _ => True) (atLabel (do
      sharedClient
      let _ ← askOrFail (.putWithExpiry destination current.value (expiryOf current.deadline))
      return ())) _
    rw [at_label_bind]
    refine upholds_bind (upholds_shared_client stable_always) fun _ => ?_
    rw [at_label_bind]
    refine upholds_bind (upholds_ask_or_fail stable_always (fun _ => stable_secured) ?_) fun output =>
      attempts_pure stable_secured fun _ _ => id
    intro world kept _ answer after answered
    obtain ⟨keptAfter, secured⟩ := secured_copy kept answered
    exact ⟨keptAfter, fun _ accepted => secured (by rw [accepted]; rfl)⟩
  exact upholds_bind copies fun _ => upholds_rename_source distinct false

/-- `RENAMENX` from the read on. -/
theorem upholds_copy_absent (distinct : source ≠ destination) :
    Upholds source destination current (fun _ => True) (onCluster (do
      match ← Handler.direct (.putIf destination current.value (expiryOf current.deadline) .absent) with
      | none => return .integer 0
      | some _ => renameSource source current true)) fun _ _ => True := by
  rw [onCluster, carry_out_bind]
  have copies : Upholds source destination current (fun _ => True)
      (onCluster (Handler.direct (.putIf destination current.value (expiryOf current.deadline) .absent)))
      fun written world => written.isSome → world.Secured source destination current := by
    refine upholds_direct rfl stable_always ?_ ?_
    · intro written world later elapses kept secured present
      exact stable_secured world later elapses kept (secured present)
    · intro world kept _ answer after answered
      obtain ⟨keptAfter, secured⟩ := secured_copy kept answered
      refine ⟨keptAfter, fun written accepted present => secured ?_⟩
      obtain ⟨output, rfl⟩ := Option.isSome_iff_exists.mp present
      rw [accepted]
      rfl
  refine upholds_bind copies fun written => ?_
  cases written with
  | none =>
      refine attempts_pure ?_ fun _ _ _ => trivial
      intro _ _ _ _ _ impossible
      exact absurd impossible (by simp)
  | some output =>
      have reached : Upholds source destination current (Secured source destination current)
          (onCluster (renameSource source current true)) fun _ _ => True :=
            upholds_rename_source distinct true
      exact attempts_weaken reached (fun _ _ secured => secured rfl) (fun _ _ _ => id) fun _ _ => id

/-- Whatever the read answers, the command keeps the value held. -/
theorem upholds_rename (name : String) (rest : List Bytes) (onlyIfAbsent : Bool) :
    Upholds source destination current (fun _ => True)
      (onCluster (rename ⟨name, source :: destination :: rest⟩ onlyIfAbsent)) fun _ _ => True := by
  have reads : Upholds source destination current (fun _ => True)
      (onCluster (Handler.store (.read source)))
      fun found _ => ∀ record ∈ found, source ≠ destination → record = current := by
    rw [onCluster, Handler.store, carry_out_call]
    exact upholds_read
  change Upholds source destination current (fun _ => True)
    (onCluster (Handler.store (.read source) >>= renameFound source destination onlyIfAbsent)) _
  rw [onCluster, carry_out_bind]
  refine upholds_bind reads fun found => ?_
  cases found with
  | none => exact upholds_throw
  | some record =>
      rw [renameFound]
      split
      · exact attempts_pure stable_fact fun _ _ _ => trivial
      · rename_i distinct
        intro world kept known
        obtain rfl := known record rfl distinct
        have connects : Upholds source destination record (fun _ => True) (onCluster Handler.client)
            fun _ _ => True := by
          rw [onCluster, Handler.client, carry_out_call]
          exact upholds_shared_client stable_always
        rw [carry_out_bind]
        refine upholds_bind connects (fun _ => ?_) world kept trivial
        cases onlyIfAbsent with
        | true => exact upholds_copy_absent distinct
        | false => exact upholds_copy distinct

/-- The value read by a rename is held at every step of it, while no other client
writes either key. -/
theorem held_while_renaming (name : String) (rest : List Bytes) (onlyIfAbsent : Bool)
    (found : world.records source = some current) (still : world.stray = []) {seen : World}
    (passes : (writeCommand (rename ⟨name, source :: destination :: rest⟩ onlyIfAbsent)).run.Passes
      LabelledAnswers Elapses
      world seen) : seen.Held source destination current := by
  have start : world.Kept source destination current :=
    ⟨.inl found, fun _ record present => Option.some.inj (present.symm.trans found),
      fun asked underway => absurd underway (by simp [still])⟩
  have renames : Upholds source destination current (fun _ => True)
      (onCluster (rename ⟨name, source :: destination :: rest⟩ onlyIfAbsent)) fun _ _ => True :=
    upholds_rename name rest onlyIfAbsent
  have safe := interruptible_safe (fun later _ => safe_anything (.deadline true) later) start
      (renames world start trivial)
  exact (passes_safe (fun _ _ elapses kept => kept_elapses kept elapses) passes start safe).held

end Rename

end World

/-- What the commands that write several keys tell their client, and that a rename
never loses what it moves. -/
theorem partial_writes_told (args : Args) (onlyIfAbsent : Bool) (result : Except RedisError Reply)
    (calls : CallRecord) :
    (Reports (Strings.mset args) result calls →
      Tells (Strings.mset args) result calls (callsOf (msetKeys args) calls)
        (LosesVersion (msetKeys args) calls)) ∧
    (Reports (delete args) result calls →
      Tells (delete args) result calls (callsOf args.rest.length calls)
        (LosesVersion args.rest.length calls)) ∧
    (Reports (rename args onlyIfAbsent) result calls →
      Tells (rename args onlyIfAbsent) result calls (calls 0) (HidesCopy (calls 0))) ∧
    ∀ source destination rest current (world seen : World), args.rest = source :: destination :: rest →
      world.records source = some current → world.stray = [] →
      (writeCommand (rename args onlyIfAbsent)).run.Passes World.LabelledAnswers World.Elapses world
        seen →
      seen.Held source destination current := by
  refine ⟨?_, ?_, ?_, ?_⟩
  · exact fun reports => tells_handler (commands_mset args) reports
  · exact fun reports => tells_handler (commands_delete args) reports
  · intro reports
    have told : Commands Blank (rename args onlyIfAbsent) fun result calls =>
        Told result (calls 0) ↔ ¬HidesCopy (calls 0) := commands_rename args onlyIfAbsent
    exact tells_handler told reports
  · intro source destination rest current world seen words found still passes
    obtain ⟨name, arguments⟩ := args
    subst words
    exact World.held_while_renaming name rest onlyIfAbsent found still passes

namespace RenameSample

def source : Bytes := [byte 97]

def destination : Bytes := [byte 98]

def args : Args := ⟨"rename", [source, destination]⟩

def version : RecordVersion := ⟨1, 1, "node"⟩

def acknowledged : PutOutput := { version, topologyEpoch := 1 }

/-- The source can be read, the destination is written, and the source's owner is
not reached before the deadline of its delete. -/
def unreached : Nat → {γ : Type} → ClientCall γ → γ
  | _, _, .now => 0
  | _, _, .connect => .ok ()
  | _, _, .lock _ | _, _, .unlock _ => ()
  | _, _, .get _ => .ok { value := [byte 1], version, topologyEpoch := 1, expiresAtUnixMillis := none }
  | _, _, .putWithExpiry _ _ _ => .ok acknowledged
  | _, _, .putIf _ _ _ _ => .ok (some acknowledged)
  | _, _, .setExpiryIf _ _ _ => .ok none
  | _, _, .deleteIf _ _ => .error (.deadlineExceeded .knownNotApplied)

/-- The first key is written, or its write may have been; the second one is not
reached, or gone. -/
def mixed : Nat → {γ : Type} → ClientCall γ → γ
  | label, _, .putWithExpiry _ _ _ =>
      if label = 0 then .ok acknowledged else .error (.deadlineExceeded .knownNotApplied)
  | label, _, .get key =>
      if label = 0 then unreached label (.get key) else .error
        (.operation ⟨.notFound, "", false, .knownNotApplied⟩)
  | _, _, .deleteIf _ _ => .error (.deadlineExceeded .mayHaveApplied)
  | label, _, call => unreached label call

def serve (answers : Nat → {γ : Type} → ClientCall γ → γ) : {γ : Type} → Labelled ClientCall γ →
    CallRecord → γ × CallRecord
  | _, .mk label call, calls => (answers label call, fun other =>
      if other = label then calls other ++ callOutcome call (answers label call) else calls other)

theorem serve_labelled {answers : Nat → {γ : Type} → ClientCall γ → γ} {γ : Type}
    (call : Labelled ClientCall γ) (calls : CallRecord) :
    LabelledCalls call calls (serve answers call calls).1 (serve answers call calls).2 := by
  cases call with
  | mk label call => rfl

theorem reports_retry : ∃ calls, Reports (rename args false)
    (.error ⟨"TRYAGAIN", "the operation did not finish before its deadline", false⟩) calls ∧
    calls 0 = [.found, .applied, .notApplied] := by
  have ran : (writeCommand (rename args false)).run.execute (fun call => serve unreached call)
      (fun _ => 1) (fun _ => []) =
      some (.error ⟨"TRYAGAIN", "the operation did not finish before its deadline", false⟩, _) := rfl
  have alone : ∀ calls, Alone calls calls := fun _ => rfl
  exact ⟨_, execute_ends alone serve_labelled ran, rfl⟩

/-- The destination holds the value, and the client is asked to try again. -/
theorem rename_asks_for_retry : ∃ calls, Reports (rename args false)
    (.error ⟨"TRYAGAIN", "the operation did not finish before its deadline", false⟩) calls ∧
    ¬Told (.error ⟨"TRYAGAIN", "the operation did not finish before its deadline", false⟩) (calls 0) := by
  obtain ⟨calls, reports, made⟩ := reports_retry
  refine ⟨calls, reports, fun told => ?_⟩
  rw [made] at told
  exact absurd (told _ rfl ⟨.applied, by decide, rfl⟩).1 (by decide)

def pairs : Args := ⟨"mset", [source, [byte 1], destination, [byte 2]]⟩

def keys : Args := ⟨"del", [source, destination]⟩

/-- The first key's task runs to its end, then the second's. -/
def inOrder (turn : Nat) : Nat := if turn < 60 then 200 else 201

theorem reports_mset : ∃ result calls, Reports (Strings.mset pairs) result calls ∧
    callsOf (msetKeys pairs) calls = [.applied, .notApplied] := by
  have ran : (writeCommand (Strings.mset pairs)).run.execute (fun call => serve mixed call) inOrder
      (fun _ => []) =
      some (_, _) := rfl
  have alone : ∀ calls, Alone calls calls := fun _ => rfl
  exact ⟨_, _, execute_ends alone serve_labelled ran, rfl⟩

theorem reports_delete : ∃ result calls, Reports (delete keys) result calls ∧
    callsOf 2 calls = [.found, .unknown, .missing] := by
  have ran : (writeCommand (delete keys)).run.execute (fun call => serve mixed call) inOrder
      (fun _ => []) =
      some (_, _) := rfl
  have alone : ∀ calls, Alone calls calls := fun _ => rfl
  exact ⟨_, _, execute_ends alone serve_labelled ran, rfl⟩

def moved : Current := { value := [byte 1], deadline := none, version }

def world : World where
  records key := if key = source then some moved else none
  now := 0
  stray := []

def shown (world : World) (key : Bytes) : Except ClientError GetOutput :=
  match world.live key with
  | some record =>
      .ok { value := record.value, version := record.version, topologyEpoch := 1
            expiresAtUnixMillis := record.deadline }
  | none => .error .missingVersion

def serveWorld : {γ : Type} → Labelled ClientCall γ → World → γ × World
  | _, .mk _ .now, world => (0, world)
  | _, .mk _ .connect, world => (.ok (), world)
  | _, .mk _ (.lock _), world | _, .mk _ (.unlock _), world => ((), world)
  | _, .mk _ (.get key), world => (shown world key, world)
  | _, .mk _ (.putWithExpiry key value expiry), world =>
      (.ok acknowledged, world.store key (some { value, deadline := world.deadlineAfter key expiry, version }))
  | _, .mk _ (.putIf _ _ _ _), world => (.ok none, world)
  | _, .mk _ (.setExpiryIf _ _ _), world => (.ok none, world)
  | _, .mk _ (.deleteIf key expected), world =>
      (.error (.deadlineExceeded .mayHaveApplied), world.asking (.delete key expected))

theorem serve_world_answers {γ : Type} (call : Labelled ClientCall γ) (world : World) :
    World.LabelledAnswers call world (serveWorld call world).1 (serveWorld call world).2 := by
  obtain ⟨label, call⟩ := call
  cases call with
  | get key =>
      refine ⟨rfl, fun output same => ?_⟩
      change shown world key = .ok output at same
      unfold shown at same
      cases found : world.live key with
      | none =>
          rw [found] at same
          exact absurd same (by simp)
      | some record =>
          rw [found] at same
          obtain rfl := Except.ok.inj same
          rfl
  | putWithExpiry key value expiry =>
      exact ⟨fun _ impossible => absurd impossible (by simp), version, rfl⟩
  | deleteIf key expected => exact .inl rfl
  | now | connect | lock stripe | unlock stripe => rfl
  | putIf key value expiry expected => rfl
  | setExpiryIf key deadline expected => rfl

theorem late_delete {world : World} (underway : AskedWrite.delete source (.version version) ∈ world.stray)
    (present : world.live source = some moved) : World.Moves world (world.store source none) :=
  .late underway ⟨⟨moved, present, rfl⟩, rfl⟩

/-- The source is gone once the delete has been applied after all. -/
theorem passes_moved : ∃ seen : World,
    (writeCommand (rename args false)).run.Passes World.LabelledAnswers World.Elapses world seen ∧
      seen.records source = none ∧ (seen.records destination).map (·.value) = some [byte 1] := by
  have ran : (writeCommand (rename args false)).run.execute (fun call => serveWorld call)
      (fun _ => 1) world =
      some (.error _, _) := rfl
  have ends := execute_ends World.elapses_refl serve_world_answers ran
  exact ⟨_, ends_passes Relation.ReflTransGen.trans ends
    (.single (late_delete List.mem_cons_self rfl)), rfl, rfl⟩

/-- What is told of that rename and of two other commands with mixed outcomes, and
where the value is after a rename whose delete came late. -/
theorem rename_told_and_held :
    (∃ result calls, Reports (rename args false) result calls ∧
      Tells (rename args false) result calls (calls 0) (HidesCopy (calls 0))) ∧
    (∃ result calls, Reports (Strings.mset pairs) result calls ∧
      callsOf (msetKeys pairs) calls = [.applied, .notApplied] ∧
      Tells (Strings.mset pairs) result calls (callsOf (msetKeys pairs) calls)
        (LosesVersion (msetKeys pairs) calls)) ∧
    (∃ result calls, Reports (delete keys) result calls ∧ callsOf 2 calls = [.found, .unknown, .missing] ∧
      Tells (delete keys) result calls (callsOf 2 calls) (LosesVersion 2 calls)) ∧
    ∃ seen : World, seen.records source = none ∧ (seen.records destination).map (·.value) =
      some [byte 1] ∧
      seen.Held source destination moved := by
  obtain ⟨calls, reports, -⟩ := reports_retry
  obtain ⟨_, both, reportsBoth, mixedPuts⟩ := reports_mset
  obtain ⟨_, gone, reportsGone, mixedDeletes⟩ := reports_delete
  obtain ⟨seen, passes, left, arrived⟩ := passes_moved
  obtain ⟨-, -, told, held⟩ := partial_writes_told args false _ calls
  refine ⟨⟨_, calls, reports, told reports⟩, ⟨_, both, reportsBoth, mixedPuts, ?_⟩,
    ⟨_, gone, reportsGone, mixedDeletes, ?_⟩, seen, left, arrived, ?_⟩
  · exact (partial_writes_told pairs false _ both).1 reportsBoth
  · exact (partial_writes_told keys false _ gone).2.1 reportsGone
  · exact held source destination [] moved world seen rfl (by decide) rfl passes

end RenameSample

end Hashring
