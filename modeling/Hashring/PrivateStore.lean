import Hashring.AtomicUpdates
import Hashring.Dispatcher
import Hashring.PrivateTasks

/-! A private store of one key (crates/hashring-redis/src/commands/store.rs, `Overlay`,
and crates/hashring-redis-lua-experimental/src/commands.rs, `State`). Commands read
and write it in place of the cluster; what it holds is published in one write. -/
namespace Hashring

open Program

structure Snapshot where
  /-- The version that was read; never changed. -/
  expected : Option RecordVersion
  current : Option Current
  dirty : Bool
  deriving DecidableEq

/-- One attempt's view of its declared key. -/
structure ScriptState where
  key : Option Bytes
  snapshot : Snapshot
  deriving DecidableEq

namespace ScriptState

def new (key : Option Bytes) (current : Option Current) : ScriptState where
  key
  snapshot := { expected := current.map (·.version), current, dirty := false }

def checkKey (state : ScriptState) (key : Bytes) : Except RedisError Unit :=
  if state.key = some key then .ok () else .error
    ⟨"ERR", "a script may only touch its declared key", false⟩

def read (state : ScriptState) (key : Bytes) : Except RedisError (Option Current) := do
  state.checkKey key
  return state.snapshot.current

def write (state : ScriptState) (key : Bytes) (value : Option Current) :
    Except RedisError ScriptState := do
  state.checkKey key
  if value.any fun current => maxValueBytesCeiling < current.value.length then
    throw ⟨"ERR", "value exceeds the cluster ceiling", false⟩
  return { state with snapshot := { state.snapshot with current := value, dirty := true } }

/-- `RecordVersion::default`. -/
def defaultVersion : RecordVersion := ⟨0, 0, ""⟩

def versionOf (current : Option Current) : RecordVersion := (current.map (·.version)).getD defaultVersion

/-- A refused write leaves the state as it was. -/
def settle {α : Type} (state : ScriptState) (reply : α) (written : Except RedisError ScriptState) :
    Except RedisError α × ScriptState :=
  match written with
  | .ok after => (.ok reply, after)
  | .error error => (.error error, state)

/-- The deadline a put leaves. -/
def deadlineFor (current : Option Current) : Expiry → Option Nat
  | .keep => kept current
  | .atMillis deadline => some deadline
  | .clear => none

def apply {α : Type} (state : ScriptState) (key : Bytes) (current : Option Current) :
    Change α → Option (Except RedisError α × ScriptState)
  | .nothing reply => some (.ok reply, state)
  | .put value deadline reply =>
      some (state.settle reply (state.write key (some { value, deadline, version := versionOf current })))
  | .expire deadline reply =>
      current.map fun current => state.settle reply (state.write key (some { current with deadline }))
  | .delete reply => some (state.settle reply (state.write key none))

end ScriptState

/-- What a command asks of the gateway while its keys are private. -/
inductive HostEffect : Type → Type 1 where
  | now : HostEffect Nat
  | uptime : HostEffect Nat
  | instanceId : HostEffect Nat

/-- `put_if_absent` decides what an update would. -/
def claimAbsent (value : Bytes) : Decide Bool := fun _ current =>
  .ok (if current.isSome then .nothing false else .put value none true)

namespace ScriptState

/-- The private branch of `Store::update`. -/
def update {α : Type} (state : ScriptState) (key : Bytes) (decide : Decide α) :
    Program HostEffect (Except RedisError α × ScriptState) :=
  match state.read key with
  | .error error => .done (.error error, state)
  | .ok current => (Program.call .now).andThen fun now =>
      match decide now current with
      | .error error => .done (.error error, state)
      | .ok change =>
          match state.apply key current change with
          | none => .halt
          | some ended => .done ended

def put (state : ScriptState) (key value : Bytes) (expiry : Expiry) :
    Except RedisError Unit × ScriptState :=
  match state.read key with
  | .error error => (.error error, state)
  | .ok current => state.settle ()
      (state.write key (some { value, deadline := deadlineFor current expiry, version := versionOf current }))

end ScriptState

/-- The private branches of `Store`. -/
def KeyEffect.overlaid : {α : Type} → KeyEffect α → ScriptState → Program HostEffect (α × ScriptState)
  | _, .read key, state => .done (state.read key, state)
  | _, .put key value expiry, state => .done (state.put key value expiry)
  | _, .putIfAbsent key value, state => state.update key (claimAbsent value)
  | _, .update key decide, state => state.update key decide

/-- Operations on several keys: none waits, so each is done when its turn comes. -/
def KeyEffect.overlaidAll {α : Type} : List (KeyEffect α) → ScriptState →
    Program HostEffect (List α × ScriptState)
  | [], state => .done ([], state)
  | effect :: rest, state => (effect.overlaid state).andThen fun first =>
      (overlaidAll rest first.2).andThen fun others => .done (first.1 :: others.1, others.2)

def directAccess : RedisError := ⟨"ERR", "this command requires direct cluster access", false⟩

def StoreEffect.overlaid : {α : Type} → StoreEffect α → ScriptState → Program HostEffect (α × ScriptState)
  | _, .now, state => (Program.call .now).andThen fun now => .done (now, state)
  | _, .one effect, state => effect.overlaid state
  | _, .all effects, state => KeyEffect.overlaidAll effects state
  | _, .client, state => .done (.error directAccess, state)
  | _, .putIf _ _ _ _, _ | _, .deleteIf _ _, _ => .halt

def CommandEffect.overlaid : {α : Type} → CommandEffect α → ScriptState →
    Program HostEffect (α × ScriptState)
  | _, .store effect, state => effect.overlaid state
  | _, .uptime, state => (Program.call .uptime).andThen fun seconds => .done (seconds, state)
  | _, .instanceId, state => (Program.call .instanceId).andThen fun id => .done (id, state)
  | _, .keys _ _, _ | _, .scan _ _ _ _, _ | _, .keyCount, _ | _, .randomKey, _ | _,
      .extension _ _ _, _ => .halt

/-- `execute_with_store` on a private store. -/
def Dispatcher.executePrivately (dispatcher : Dispatcher) (connection : Connection) (args : List Bytes)
    (state : ScriptState) : Program HostEffect ((Response × Connection) × ScriptState) :=
  (dispatcher.executeWithStore true connection args).threaded (fun effect => effect.overlaid) state

namespace ScriptState

/-- What a run in private keeps: the key, the version that was read, and
everything else until something is staged. -/
structure Within (before after : ScriptState) : Prop where
  key : after.key = before.key
  expected : after.snapshot.expected = before.snapshot.expected
  clean : after.snapshot.dirty = false → after = before

theorem within_refl (state : ScriptState) : state.Within state := ⟨rfl, rfl, fun _ => rfl⟩

theorem within_trans (first second third : ScriptState) (early : first.Within second)
    (late : second.Within third) :
    first.Within third where
  key := late.key.trans early.key
  expected := late.expected.trans early.expected
  clean untouched := by
    have same := late.clean untouched
    rw [same] at untouched ⊢
    exact early.clean untouched

variable {state after : ScriptState} {key : Bytes} {allowed : {γ : Type} → HostEffect γ → γ → Prop}

theorem write_within {value : Option Current} (written : state.write key value = .ok after) :
    state.Within after := by
  unfold write at written
  cases checked : state.checkKey key with
  | error error =>
      rw [checked] at written
      exact absurd written (by simp [bind, Except.bind])
  | ok _ =>
      rw [checked] at written
      simp only [bind, Except.bind] at written
      split at written
      · exact absurd written (by simp [throw, throwThe, MonadExceptOf.throw])
      · obtain rfl := Except.ok.inj written
        exact ⟨rfl, rfl, fun untouched => absurd untouched (by simp)⟩

theorem settle_within {α : Type} (reply : α) (value : Option Current) :
    state.Within (state.settle reply (state.write key value)).2 := by
  cases written : state.write key value with
  | error error => exact within_refl state
  | ok after => exact write_within written

theorem apply_within {α : Type} {current : Option Current} {change : Change α}
    {ended : Except RedisError α × ScriptState}
    (applied : state.apply key current change = some ended) : state.Within ended.2 := by
  cases change with
  | nothing reply =>
      obtain rfl := Option.some.inj applied
      exact within_refl state
  | put value deadline reply =>
      obtain rfl := Option.some.inj applied
      exact settle_within reply _
  | expire deadline reply =>
      obtain ⟨record, -, rfl⟩ := Option.map_eq_some_iff.mp applied
      exact settle_within reply _
  | delete reply =>
      obtain rfl := Option.some.inj applied
      exact settle_within reply _

theorem update_within {α : Type} {decide : Decide α} {ended : Except RedisError α × ScriptState}
    (gives : (state.update key decide).Gives allowed ended) : state.Within ended.2 := by
  unfold update at gives
  split at gives
  · obtain rfl := gives
    exact within_refl state
  · obtain ⟨now, -, gives⟩ := gives_then.mp gives
    split at gives
    · obtain rfl := gives
      exact within_refl state
    · split at gives
      · exact gives.elim
      · rename_i applied
        obtain rfl := gives
        exact apply_within applied

theorem put_within {value : Bytes} {expiry : Expiry} : state.Within (state.put key value expiry).2 := by
  unfold put
  split
  · exact within_refl state
  · exact settle_within () _

theorem overlaid_within {α : Type} {effect : KeyEffect α} {ended : α × ScriptState}
    (gives : (effect.overlaid state).Gives allowed ended) : state.Within ended.2 := by
  cases effect with
  | read key =>
      obtain rfl := gives
      exact within_refl state
  | put key value expiry =>
      obtain rfl := gives
      exact put_within
  | putIfAbsent key value =>
      have updated : (state.update key (claimAbsent value)).Gives allowed ended := gives
      exact update_within updated
  | update key decide => exact update_within gives

theorem overlaid_all_within {α : Type} {effects : List (KeyEffect α)} {ended : List α × ScriptState}
    (gives : (KeyEffect.overlaidAll effects state).Gives allowed ended) : state.Within ended.2 := by
  induction effects generalizing state ended with
  | nil =>
      obtain rfl := gives
      exact within_refl state
  | cons effect rest ih =>
      obtain ⟨first, early, gives⟩ := gives_then.mp gives
      obtain ⟨others, late, rfl⟩ := gives_then.mp gives
      have rest : first.2.Within others.2 := ih late
      exact within_trans _ _ _ (overlaid_within early) rest

theorem store_within {α : Type} {effect : StoreEffect α} {ended : α × ScriptState}
    (gives : (effect.overlaid state).Gives allowed ended) : state.Within ended.2 := by
  cases effect with
  | now =>
      obtain ⟨now, -, rfl⟩ := gives_then.mp gives
      exact within_refl state
  | one effect => exact overlaid_within gives
  | all effects => exact overlaid_all_within gives
  | client =>
      obtain rfl := gives
      exact within_refl state
  | putIf | deleteIf => exact gives.elim

theorem command_within {α : Type} (effect : CommandEffect α) (state : ScriptState)
    (ended : α × ScriptState)
    (gives : (effect.overlaid state).Gives allowed ended) : state.Within ended.2 := by
  cases effect with
  | store effect => exact store_within gives
  | uptime | instanceId =>
      obtain ⟨answer, -, rfl⟩ := gives_then.mp gives
      exact within_refl state
  | keys | scan | keyCount | randomKey | extension => exact gives.elim

theorem execute_within {dispatcher : Dispatcher} {connection : Connection} {args : List Bytes}
    {ended : (Response × Connection) × ScriptState}
    (gives : (dispatcher.executePrivately connection args state).Gives allowed ended) :
    state.Within ended.2 :=
  gives_threaded within_refl within_trans command_within gives

end ScriptState
end Hashring
