import Hashring.ClientRetry
import Hashring.Coalescing
import Hashring.TaskRuns

/-! The topology a client caches, and the tasks that refresh it
(crates/hashring-client/src/lib.rs). An operation touches the cache only by reading
it, by `refresh_topology_for_inner` and `refresh_after_unavailable`, and by
`trigger_background_refresh`; here any number of these calls may be under way beside
the poll and the background refresh. Every shared access is one step. -/
namespace Hashring

open Coalescing (Event)

/-- Clocks, the coordinator and the network answer anything. -/
def ClientEffect.Answers {γ : Type} : ClientEffect γ → ClientInner → γ → ClientInner → Prop
  | .now, inner, _, after => after = inner
  | .random, inner, _, after => after = inner
  | .sleep _, inner, _, after => after = inner
  | .shared access, inner, answer, after => answer = (access inner).1 ∧ after = (access inner).2
  | .lockRefresh _, inner, answer, after =>
      if answer then inner.refreshLocked = false ∧
        after = { inner with refreshLocked := true } else after = inner
  | .fetchTopology _, inner, _, after => after = inner
  | .connect _ _, inner, _, after => after = inner
  | .put _ _ _, inner, _, after => after = inner
  | .delete _ _ _, inner, _, after => after = inner

abbrev RefreshProgram := Program ClientEffect (Except ClientError TopologySnapshot)

/-- Where a call of `trigger_background_refresh` is. -/
inductive TriggerPhase where
  | raise
  | count
  | claim
  | spawn
  deriving DecidableEq

/-- Where a run of `run_background_refresh` is, with the variables it has read. -/
inductive BackgroundPhase where
  | load
  | request (handled : Nat)
  | refresh (handled requested : Nat) (rest : RefreshProgram)
  | compare (handled : Nat)
  | lower (newest : Nat)
  | check (newest : Nat)
  | restart

/-- Where `poll_for_topology_changes` is. -/
inductive PollPhase where
  | wait
  | observed (epoch : Nat)
  | refresh (epoch : Nat) (rest : RefreshProgram)

inductive CacheTask where
  | refresh (minimumEpoch : Option Nat) (rest : RefreshProgram)
  | unavailable (rest : Program ClientEffect (Except ClientError Unit))
  | poll (phase : PollPhase)
  | trigger (minimumEpoch : Nat) (phase : TriggerPhase)
  | background (phase : BackgroundPhase)
  | ended

/-- A client with its tasks, which keep their place in the list. `holder` is the task
that took the refresh lock last. -/
structure ClientCache where
  inner : ClientInner
  tasks : List CacheTask
  holder : Option Nat := none

namespace ClientCache

variable (client : HashringClient) (refreshTimeout : Nat)

def backgroundRefresh (minimumEpoch : Nat) : RefreshProgram :=
  (client.refreshTopologyForInner refreshTimeout false (some minimumEpoch)).run

inductive Turn (place : Nat) :
    CacheTask → ClientInner → Event Nat → CacheTask → ClientInner → List CacheTask → Prop where
  | refresh {minimumEpoch : Option Nat} {rest next : RefreshProgram} {inner after : ClientInner}
      (moves : rest.Moves ClientEffect.Answers inner next after) :
      Turn place (.refresh minimumEpoch rest) inner .silent (.refresh minimumEpoch next) after []
  | unavailable {rest next : Program ClientEffect (Except ClientError Unit)} {inner after : ClientInner}
      (moves : rest.Moves ClientEffect.Answers inner next after) :
      Turn place (.unavailable rest) inner .silent (.unavailable next) after []
  -- `poll_for_topology_changes`; an epoch it could not fetch leaves it waiting.
  | pollFetch (epoch : Nat) {inner : ClientInner} :
      Turn place (.poll .wait) inner .silent (.poll (.observed epoch)) inner []
  | pollBehind {epoch : Nat} {inner : ClientInner} (behind : inner.topology.epoch < epoch) :
      Turn place (.poll (.observed epoch)) inner .silent
        (.poll (.refresh epoch (backgroundRefresh client refreshTimeout epoch)))
        inner []
  | pollCurrent {epoch : Nat} {inner : ClientInner} (current : epoch ≤ inner.topology.epoch) :
      Turn place (.poll (.observed epoch)) inner .silent (.poll .wait) inner []
  | pollRefresh {epoch : Nat} {rest next : RefreshProgram} {inner after : ClientInner}
      (moves : rest.Moves ClientEffect.Answers inner next after) :
      Turn place (.poll (.refresh epoch rest)) inner .silent (.poll (.refresh epoch next)) after []
  | pollDone {epoch : Nat} {result : Except ClientError TopologySnapshot} {inner : ClientInner} :
      Turn place (.poll (.refresh epoch (.done result))) inner .silent (.poll .wait) inner []
  -- `trigger_background_refresh`
  | raise {minimumEpoch : Nat} {inner : ClientInner} :
      Turn place (.trigger minimumEpoch .raise) inner .silent (.trigger minimumEpoch .count)
        (HashringClient.raiseMinimumEpoch minimumEpoch inner).2 []
  | count {minimumEpoch : Nat} {inner : ClientInner} :
      Turn place (.trigger minimumEpoch .count) inner (.triggered place minimumEpoch)
        (.trigger minimumEpoch .claim)
        (HashringClient.countTrigger inner).2 []
  | coalesce {minimumEpoch : Nat} {inner : ClientInner}
      (running : (HashringClient.claimBackground inner).1 = false) :
      Turn place (.trigger minimumEpoch .claim) inner (.returned place) .ended
        (HashringClient.claimBackground inner).2 []
  | claim {minimumEpoch : Nat} {inner : ClientInner}
      (idle : (HashringClient.claimBackground inner).1 = true) :
      Turn place (.trigger minimumEpoch .claim) inner .silent (.trigger minimumEpoch .spawn)
        (HashringClient.claimBackground inner).2 []
  | spawn {minimumEpoch : Nat} {inner : ClientInner} :
      Turn place (.trigger minimumEpoch .spawn) inner (.returned place) .ended inner [.background .load]
  -- `run_background_refresh`, from the head of its loop
  | load {inner : ClientInner} :
      Turn place (.background .load) inner .silent
        (.background (.request inner.backgroundTriggerGeneration)) inner []
  | request {handled : Nat} {inner : ClientInner} :
      Turn place (.background (.request handled)) inner (.attempted inner.backgroundMinimumEpoch)
        (.background (.refresh handled inner.backgroundMinimumEpoch
          (backgroundRefresh client refreshTimeout inner.backgroundMinimumEpoch))) inner []
  | attempt {handled requested : Nat} {rest next : RefreshProgram} {inner after : ClientInner}
      (moves : rest.Moves ClientEffect.Answers inner next after) :
      Turn place (.background (.refresh handled requested rest)) inner .silent
        (.background (.refresh handled requested next))
        after []
  | attempted {handled requested : Nat} {result : Except ClientError TopologySnapshot}
      {inner : ClientInner} :
      Turn place (.background (.refresh handled requested (.done result))) inner .silent
        (.background (.compare handled)) inner []
  | newer {handled : Nat} {inner : ClientInner} (newer : handled < inner.backgroundTriggerGeneration) :
      Turn place (.background (.compare handled)) inner .silent (.background .load) inner []
  | handled {handled : Nat} {inner : ClientInner} (same : ¬handled < inner.backgroundTriggerGeneration) :
      Turn place (.background (.compare handled)) inner .silent
        (.background (.lower inner.backgroundTriggerGeneration)) inner []
  -- A trigger counted since then found the flag up and started nothing; hence the second look.
  | lower {newest : Nat} {inner : ClientInner} :
      Turn place (.background (.lower newest)) inner .silent (.background (.check newest))
        { inner with backgroundRefreshRunning := false } []
  | raced {newest : Nat} {inner : ClientInner} (newer : newest < inner.backgroundTriggerGeneration) :
      Turn place (.background (.check newest)) inner .silent (.background .restart) inner []
  | finish {newest : Nat} {inner : ClientInner} (same : ¬newest < inner.backgroundTriggerGeneration) :
      Turn place (.background (.check newest)) inner .silent .ended inner []
  | restart {inner : ClientInner} (idle : (HashringClient.claimBackground inner).1 = true) :
      Turn place (.background .restart) inner .silent (.background .load)
        (HashringClient.claimBackground inner).2 []
  | overtaken {inner : ClientInner} (running : (HashringClient.claimBackground inner).1 = false) :
      Turn place (.background .restart) inner .silent .ended (HashringClient.claimBackground inner).2 []

/-- A call of an operation or of its user. -/
def Starts : CacheTask → Prop
  | .refresh minimumEpoch rest =>
      ∃ timeout unknown, rest = (client.refreshTopologyForInner timeout unknown minimumEpoch).run
  | .unavailable rest =>
      ∃ observedEpoch deadline unknown,
        rest = (client.refreshAfterUnavailable observedEpoch deadline unknown).run
  | .trigger _ .raise => True
  | _ => False

/-- A future that its owner may drop; a trigger does not wait, and the poll and the
background refresh are tasks of their own. -/
def Droppable : CacheTask → Prop
  | .refresh _ _ | .unavailable _ => True
  | _ => False

def holderAfter (cache : ClientCache) (place : Nat) (after : ClientInner) : Option Nat :=
  if after.refreshLocked then if cache.inner.refreshLocked then cache.holder else some place else none

/-- The guard of a dropped future releases the lock. -/
def drop (cache : ClientCache) (place : Nat) : ClientCache :=
  if cache.holder = some place then
    { inner := { cache.inner with refreshLocked := false }, tasks := cache.tasks.set place .ended }
  else { cache with tasks := cache.tasks.set place .ended }

inductive Step : ClientCache → Event Nat → ClientCache → Prop where
  | begin {cache : ClientCache} {task : CacheTask} (starts : Starts client task) :
      Step cache .silent { cache with tasks := cache.tasks ++ [task] }
  | turn {cache : ClientCache} {place : Nat} {task next : CacheTask} {event : Event Nat}
      {after : ClientInner}
      {spawned : List CacheTask} (found : cache.tasks[place]? = some task)
      (turn : Turn client refreshTimeout place task cache.inner event next after spawned) :
      Step cache event
        { inner := after, tasks := cache.tasks.set place next ++ spawned, holder := cache.holderAfter place after }
  | drop {cache : ClientCache} {place : Nat} {task : CacheTask} (found : cache.tasks[place]? = some task)
      (droppable : Droppable task) : Step cache .silent (cache.drop place)
  /-- What else an operation shares: its channels, and the counts of its retries. -/
  | operation {cache : ClientCache} (channels : List String) (retries : Nat)
      (retryReasons : RetryReason → Nat) :
      Step cache .silent { cache with inner := { cache.inner with channels, retries, retryReasons } }

/-- A client as `connect` leaves it, with or without a poll. -/
def connected (topology : TopologySnapshot) (polls : Bool) : ClientCache where
  inner :=
    { topology, channels := [], refreshLocked := false, refreshGeneration := 0, backgroundMinimumEpoch := 0
      backgroundTriggerGeneration := 0, retries := 0, retryReasons := fun _ => 0 }
  tasks := if polls then [.poll .wait] else []

abbrev Run : ClientCache → List (Event Nat) → ClientCache → Prop :=
  Transition.Run (Step client refreshTimeout)

end ClientCache

/-! What a refresh does to the cache, beside other refreshes. -/

structure CacheGrows (before after : ClientInner) : Prop where
  epoch : before.topology.epoch ≤ after.topology.epoch
  same : after.topology.epoch = before.topology.epoch → after.topology = before.topology

theorem CacheGrows.refl (inner : ClientInner) : CacheGrows inner inner := ⟨le_rfl, fun _ => rfl⟩

theorem CacheGrows.trans {first second third : ClientInner} (early : CacheGrows first second)
    (late : CacheGrows second third) :
    CacheGrows first third where
  epoch := early.epoch.trans late.epoch
  same equal := by
    have between : second.topology.epoch = first.topology.epoch := by
      have := early.epoch
      have := late.epoch
      omega
    rw [late.same (equal.trans between.symm), early.same between]

def ClientInner.shared (inner : ClientInner) : Coalescing.Shared Nat :=
  ⟨inner.backgroundRefreshRunning, inner.backgroundMinimumEpoch, inner.backgroundTriggerGeneration⟩

/-- A refresh leaves the cells of the background refresh alone. -/
structure Refreshed (before after : ClientInner) : Prop extends CacheGrows before after where
  shared : after.shared = before.shared

theorem Refreshed.refl (inner : ClientInner) : Refreshed inner inner := ⟨.refl inner, rfl⟩

/-- The cache is at this epoch or above. -/
def Reached (minimumEpoch : Option Nat) (inner : ClientInner) : Prop :=
  ∀ epoch, minimumEpoch = some epoch → epoch ≤ inner.topology.epoch

theorem Reached.none (inner : ClientInner) : Reached none inner := fun _ impossible => nomatch impossible

theorem Reached.grows {minimumEpoch : Option Nat} {before after : ClientInner}
    (reached : Reached minimumEpoch before)
    (grows : CacheGrows before after) : Reached minimumEpoch after :=
  fun epoch asked => (reached epoch asked).trans grows.epoch

theorem Reached.of_all {minimumEpoch : Option Nat} {current : Nat} {inner : ClientInner}
    (enough : minimumEpoch.all (· ≤ current) = true) (cached : Reached (some current) inner) :
    Reached minimumEpoch inner := by
  rintro epoch rfl
  have below : epoch ≤ current := by simpa using enough
  exact below.trans (cached current rfl)

theorem Reached.of_any {minimumEpoch : Option Nat} {current : Nat} {inner : ClientInner}
    (enough : minimumEpoch.any (· ≤ current) = true) (cached : Reached (some current) inner) :
    Reached minimumEpoch inner := by
  apply Reached.of_all _ cached
  cases minimumEpoch with
  | none => rfl
  | some epoch => exact enough

theorem cache_topology_grows (topology : TopologySnapshot) (inner : ClientInner) :
    Refreshed inner (cacheTopology topology inner).2 ∧
      ∀ current, (cacheTopology topology inner).1 = .ok current →
        current = (cacheTopology topology inner).2.topology := by
  unfold cacheTopology
  simp only
  split
  · rename_i newer
    exact ⟨⟨⟨newer.le, fun same => absurd same newer.ne'⟩, rfl⟩, fun current same =>
      (Except.ok.inj same).symm⟩
  · split
    · exact ⟨.refl inner, fun _ impossible => nomatch impossible⟩
    · exact ⟨⟨⟨le_rfl, fun _ => rfl⟩, rfl⟩, fun current same => (Except.ok.inj same).symm⟩

section Refreshing

open Program

variable {α β : Type} {known : Option Nat} {leads : α → Option Nat}

/-- From a cache at `known`, the task takes it to where its result says, while other
tasks refresh too. -/
def Refreshing (known : Option Nat) (task : ClientTask α) (leads : α → Option Nat) : Prop :=
  Attempts ClientEffect.Answers (fun _ => True) CacheGrows Refreshed (Reached known) task
    (fun value => Reached (leads value))
    fun _ => True

theorem reached_stable (minimumEpoch : Option Nat) :
    Stable (fun _ => True) CacheGrows (Reached minimumEpoch) :=
  fun _ _ grows _ reached => reached.grows grows

theorem refreshing_pure {value : α} (holds : ∀ inner, Reached known inner → Reached (leads value) inner) :
    Refreshing known (pure value) leads :=
  attempts_pure (reached_stable known) fun inner _ => holds inner

theorem refreshing_throw {error : ClientError} : Refreshing known (throw error : ClientTask α) leads :=
  attempts_throw (reached_stable known) fun _ _ _ => trivial

theorem refreshing_bind {task : ClientTask α} {rest : α → ClientTask β} {ends : β → Option Nat}
    (first : Refreshing known task leads) (second : ∀ value, Refreshing (leads value) (rest value) ends) :
    Refreshing known (task >>= rest) ends :=
  attempts_bind CacheGrows.refl (fun _ _ _ _ _ => trivial) first second

theorem refreshing_weaken {less : Option Nat} {weaker : α → Option Nat} {task : ClientTask α}
    (refreshing : Refreshing known task leads)
    (before : ∀ inner, Reached less inner → Reached known inner)
    (after : ∀ value inner, Reached (leads value) inner → Reached (weaker value) inner) :
    Refreshing less task weaker :=
  attempts_weaken refreshing (fun inner _ => before inner) (fun value inner _ => after value inner)
    fun _ _ _ => trivial

theorem refreshing_request {effect : ClientEffect α}
    (step : ∀ inner answer after, effect.Answers inner answer after → Reached known inner →
      Refreshed inner after ∧ Reached (leads answer) after) :
      Refreshing known (request effect) leads := by
  apply attempts_lift (reached_stable known) fun _ => reached_stable _
  intro inner _ reached answer after answered
  exact ⟨trivial, step inner answer after answered reached⟩

theorem refreshing_loop {round : α → ClientTask (α ⊕ β)} {start : α} {ends : β → Option Nat}
    (each : ∀ value, Refreshing none (round value) (Sum.elim (fun _ => none) ends)) :
    Refreshing none (tryLoop round start) ends := by
  apply attempts_loop CacheGrows.refl (fun _ => reached_stable none) (fun _ => reached_stable _)
    fun _ _ _ _ _ => trivial
  intro value
  refine attempts_weaken (each value) (fun _ _ => id) ?_ fun _ _ _ => trivial
  rintro (again | last) inner _ reached
  · exact reached
  · exact reached

theorem refreshing_silent {effect : ClientEffect α}
    (step : ∀ inner answer after, effect.Answers inner answer after → Refreshed inner after) :
    Refreshing known (request effect) fun _ => known := by
  apply refreshing_request
  intro inner answer after answered reached
  have refreshed := step inner answer after answered
  exact ⟨refreshed, reached.grows refreshed.toCacheGrows⟩

/-- Clocks and the coordinator. -/
theorem refreshing_outside {effect : ClientEffect α}
    (outside : ∀ inner answer after, effect.Answers inner answer after → after = inner) :
    Refreshing known (request effect) fun _ => known :=
  refreshing_silent fun inner answer after answered =>
    outside inner answer after answered ▸ Refreshed.refl inner

theorem refreshing_now : Refreshing known (request .now) fun _ => known :=
  refreshing_outside fun _ _ _ => id

theorem refreshing_sleep (duration : Nat) : Refreshing known (request (.sleep duration)) fun _ => known :=
  refreshing_outside fun _ _ _ => id

theorem refreshing_fetch (timeout : Nat) : Refreshing known (request (.fetchTopology timeout))
    fun _ => known :=
  refreshing_outside fun _ _ _ => id

theorem refreshing_shared {access : ClientInner → α × ClientInner}
    (refreshed : ∀ inner, Refreshed inner (access inner).2) :
    Refreshing known (request (.shared access)) fun _ => known :=
  refreshing_silent fun inner _ _ answered => answered.2 ▸ refreshed inner

theorem refreshing_lock (timeout : Nat) : Refreshing known (request (.lockRefresh timeout)) fun _ =>
    known := by
  apply refreshing_silent
  intro inner answer after answered
  cases answer with
  | false =>
      obtain rfl : after = inner := answered
      exact .refl after
  | true =>
      obtain ⟨-, rfl⟩ : inner.refreshLocked = false ∧
        after = { inner with refreshLocked := true } := answered
      exact ⟨⟨le_rfl, fun _ => rfl⟩, rfl⟩

theorem refreshing_cached : Refreshing known cachedTopology fun topology => some topology.epoch := by
  apply refreshing_request
  rintro inner answer after ⟨rfl, same⟩ -
  obtain rfl : after = inner := same
  exact ⟨.refl after, fun _ same => (Option.some.inj same).ge⟩

theorem refreshing_cached_again : Refreshing known cachedTopology fun _ => known :=
  refreshing_shared .refl

theorem refreshing_cache (topology : TopologySnapshot) :
    Refreshing known (request (.shared (cacheTopology topology))) fun installed =>
      installed.toOption.map TopologySnapshot.epoch := by
  apply refreshing_request
  rintro inner answer after ⟨rfl, rfl⟩ -
  obtain ⟨refreshed, current⟩ := cache_topology_grows topology inner
  refine ⟨refreshed, fun epoch asked => ?_⟩
  cases installed : (cacheTopology topology inner).1 with
  | error error => simp [installed, Except.toOption] at asked
  | ok cached =>
      rw [installed] at asked
      rw [← current cached installed]
      exact (Option.some.inj asked).ge

theorem refreshing_remaining (deadline : Instant) (unknownWriteOutcome : Bool) :
    Refreshing known (remaining deadline unknownWriteOutcome) fun _ => known := by
  refine refreshing_bind refreshing_now fun now => ?_
  split
  · exact refreshing_pure fun _ => id
  · exact refreshing_throw

theorem refreshing_retry_delay (deadline : Instant) (attempt : Nat) (unknownWriteOutcome : Bool)
    (reason : RetryReason) :
    Refreshing known (retryDelay deadline attempt unknownWriteOutcome reason) fun _ => known := by
  refine refreshing_bind (refreshing_shared fun _ => ⟨⟨le_rfl, fun _ => rfl⟩, rfl⟩) fun _ => ?_
  refine refreshing_bind (refreshing_outside fun _ _ _ => id) fun jitter =>
    refreshing_bind (refreshing_remaining deadline _) fun available => ?_
  split
  · exact refreshing_bind (refreshing_sleep _) fun _ => refreshing_throw
  · exact refreshing_bind (refreshing_sleep _) fun _ => refreshing_pure fun _ => id

theorem refreshing_under_lock {deadline : Instant} {unknownWriteOutcome : Bool} {body : ClientTask α}
    (refreshing : Refreshing none body leads) :
    Refreshing none (underRefreshLock deadline unknownWriteOutcome body) leads := by
  refine refreshing_bind (refreshing_remaining deadline _) fun available =>
    refreshing_bind (refreshing_lock available) fun locked => ?_
  split
  · have attempted : Refreshing none (attempt body) fun result => result.toOption.bind leads := by
      apply attempts_attempt CacheGrows.refl fun _ => reached_stable _
      exact attempts_weaken refreshing (fun _ _ => id) (fun _ _ _ => id) fun inner _ _ _ => .none inner
    refine refreshing_bind attempted fun result => ?_
    have unlocked : Refreshing (result.toOption.bind leads)
        (request (.shared fun inner : ClientInner => ((), { inner with refreshLocked := false })))
        fun _ => result.toOption.bind leads :=
      refreshing_shared fun _ => ⟨⟨le_rfl, fun _ => rfl⟩, rfl⟩
    refine refreshing_bind unlocked fun _ => ?_
    rcases result with error | value
    · exact refreshing_throw
    · exact refreshing_pure fun _ => id
  · exact refreshing_throw

variable {client : HashringClient}

theorem refreshing_fetch_round (deadline : Instant) (unknownWriteOutcome : Bool)
    (minimumEpoch : Option Nat) (attempt : Nat) :
    Refreshing none (client.fetchRound deadline unknownWriteOutcome minimumEpoch attempt)
      (Sum.elim (fun _ => none) fun _ => minimumEpoch) := by
  have again : ∀ known, Refreshing known
      (do return .inl (← retryDelay deadline attempt unknownWriteOutcome .topologyRefresh) :
        ClientTask (Nat ⊕ TopologySnapshot)) (Sum.elim (fun _ => none) fun _ => minimumEpoch) := by
    intro known
    exact refreshing_bind (refreshing_retry_delay deadline attempt _ _) fun _ => refreshing_pure
      fun inner _ => .none inner
  refine refreshing_bind (refreshing_remaining deadline _) fun available =>
    refreshing_bind (refreshing_fetch available) fun fetched => ?_
  rcases fetched with _ | error | topology
  · exact refreshing_throw
  · simp only
    split
    · exact again _
    · exact refreshing_throw
  · refine refreshing_bind (refreshing_cache topology) fun installed => ?_
    rcases installed with error | current
    · exact refreshing_throw
    · simp only
      split
      · rename_i enough
        exact refreshing_pure fun _ cached => cached.of_all enough
      · exact again _

theorem refreshing_topology (timeout : Nat) (unknownWriteOutcome : Bool) (minimumEpoch : Option Nat) :
    Refreshing none (client.refreshTopologyForInner timeout unknownWriteOutcome minimumEpoch)
      fun _ => minimumEpoch := by
  -- Between the two reads the cache may have been replaced, by one at least as new.
  have cached : ∀ seen : TopologySnapshot, minimumEpoch.any (· ≤ seen.epoch) = true →
      Refreshing (some seen.epoch) cachedTopology fun _ => minimumEpoch := by
    intro seen enough
    exact refreshing_weaken refreshing_cached_again (fun _ => Reached.of_any enough) fun _ _ => id
  refine refreshing_bind refreshing_now fun now => refreshing_bind refreshing_cached fun seen => ?_
  split
  · exact cached seen ‹_›
  · refine refreshing_weaken
      (refreshing_under_lock (refreshing_bind refreshing_cached fun meanwhile => ?_))
      (fun inner _ => .none inner) fun _ _ => id
    split
    · exact cached meanwhile ‹_›
    · exact refreshing_weaken
        (refreshing_loop fun attempt => refreshing_fetch_round _ _ minimumEpoch attempt)
        (fun inner _ => .none inner) fun _ _ => id

theorem refreshing_unavailable (observedEpoch : Nat) (deadline : Instant) (unknownWriteOutcome : Bool) :
    Refreshing none (client.refreshAfterUnavailable observedEpoch deadline unknownWriteOutcome)
      fun _ => none := by
  have generation : ∀ known, Refreshing known
      (request (.shared fun inner : ClientInner => (inner.refreshGeneration, inner))) fun _ => none := by
    intro known
    exact refreshing_weaken (refreshing_shared .refl) (fun _ => id) fun _ inner _ => .none inner
  have done : ∀ known, Refreshing known (pure () : ClientTask Unit) fun _ => none :=
    fun _ => refreshing_pure fun inner _ => .none inner
  refine refreshing_bind refreshing_cached fun before => ?_
  split
  · exact done _
  · refine refreshing_bind (generation _) fun seen => refreshing_under_lock ?_
    refine refreshing_bind refreshing_cached fun meanwhile => refreshing_bind (generation _)
      fun current => ?_
    split
    · exact done _
    · refine refreshing_bind (refreshing_remaining deadline _) fun available =>
        refreshing_bind (refreshing_fetch available) fun fetched => ?_
      rcases fetched with _ | error | topology
      · exact refreshing_throw
      · exact done _
      · refine refreshing_bind (refreshing_cache topology) fun installed => ?_
        rcases installed with error | current
        · exact refreshing_throw
        · exact done _

end Refreshing

end Hashring
