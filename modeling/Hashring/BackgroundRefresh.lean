import Hashring.TopologyCache
import Hashring.TopologyPlan

/-! The background refresh of a client (`trigger_background_refresh` and
`run_background_refresh` of crates/hashring-client/src/lib.rs): every step of the client
is a step of the coalescing protocol or none of it, and every refresh under way is one
that only moves the cache forward. -/
namespace Hashring

open Coalescing (Event Role Answered triggers)

namespace CacheTask

def role : CacheTask → Role Nat
  | .trigger minimumEpoch .raise => .raise minimumEpoch
  | .trigger minimumEpoch .count => .count minimumEpoch
  | .trigger minimumEpoch .claim => .claim minimumEpoch
  | .trigger minimumEpoch .spawn => .spawn minimumEpoch
  | .background .load => .load
  | .background (.request handled) => .ask handled
  | .background (.refresh handled _ _) => .serve handled
  | .background (.compare handled) => .compare handled
  | .background (.lower newest) => .lower newest
  | .background (.check newest) => .check newest
  | .background .restart => .restart
  | _ => .outside

/-- A background refresh between the claim of the flag, made for it before it is
spawned, and the store that lowers it. -/
def runsBackground : CacheTask → Bool
  | .trigger _ .spawn => true
  | .background .load | .background (.request _) | .background (.refresh _ _ _) => true
  | .background (.compare _) | .background (.lower _) => true
  | _ => false

/-- A background refresh that has lowered the flag and is about to claim it again. -/
def RestartsBackground (generation : Nat) : CacheTask → Prop
  | .background (.check newest) => newest < generation
  | .background .restart => True
  | _ => False

def succeeded : CacheTask → Option Nat
  | .refresh (some minimumEpoch) (.done (.ok _)) => some minimumEpoch
  | .poll (.refresh epoch (.done (.ok _))) => some epoch
  | .background (.refresh _ requested (.done (.ok _))) => some requested
  | _ => none

def Refreshes {α : Type} (minimumEpoch : Option Nat) (rest : Program ClientEffect (Except ClientError α))
    (inner : ClientInner) : Prop :=
  rest.Safe ClientEffect.Answers (fun _ => True) CacheGrows Refreshed
    (fun result inner => (∀ value, result = .ok value → Reached minimumEpoch inner) ∧
      ∀ error, result = .error error → True)
    inner

def Sound (inner : ClientInner) : CacheTask → Prop
  | .refresh minimumEpoch rest => Refreshes minimumEpoch rest inner
  | .unavailable rest => Refreshes none rest inner
  | .poll (.refresh epoch rest) => Refreshes (some epoch) rest inner
  | .background (.refresh _ requested rest) => Refreshes (some requested) rest inner
  | _ => True

theorem runs_holds (task : CacheTask) : task.runsBackground = task.role.holds := by
  cases task with
  | trigger minimumEpoch phase => cases phase <;> rfl
  | background phase => cases phase <;> rfl
  | _ => rfl

theorem restarts_iff (generation : Nat) (task : CacheTask) :
    task.RestartsBackground generation ↔ task.role.Restarts generation := by
  cases task with
  | trigger minimumEpoch phase => cases phase <;> rfl
  | background phase => cases phase <;> rfl
  | _ => rfl

theorem Refreshes.later {α : Type} {minimumEpoch : Option Nat}
    {rest : Program ClientEffect (Except ClientError α)} {inner after : ClientInner}
    (refreshes : Refreshes minimumEpoch rest inner) (grows : CacheGrows inner after) :
    Refreshes minimumEpoch rest after :=
  Program.safe_stable (fun early late => early.trans late) refreshes grows

theorem Refreshes.moves {α : Type} {minimumEpoch : Option Nat}
    {rest next : Program ClientEffect (Except ClientError α)} {inner after : ClientInner}
    (refreshes : Refreshes minimumEpoch rest inner)
    (moves : rest.Moves ClientEffect.Answers inner next after) :
    Refreshed inner after ∧ Refreshes minimumEpoch next after :=
  (Program.safe_moves CacheGrows.refl Refreshed.refl trivial refreshes moves).2

theorem Sound.later {task : CacheTask} {inner after : ClientInner} (sound : task.Sound inner)
    (grows : CacheGrows inner after) :
    task.Sound after := by
  cases task with
  | refresh minimumEpoch rest => exact Refreshes.later sound grows
  | unavailable rest => exact Refreshes.later sound grows
  | poll phase =>
      cases phase with
      | refresh epoch rest => exact Refreshes.later sound grows
      | _ => trivial
  | background phase =>
      cases phase with
      | refresh handled requested rest => exact Refreshes.later sound grows
      | _ => trivial
  | trigger | ended => trivial

theorem refreshes_background (client : HashringClient) (refreshTimeout minimumEpoch : Nat)
    (inner : ClientInner) :
    Refreshes (some minimumEpoch) (ClientCache.backgroundRefresh client refreshTimeout minimumEpoch)
      inner :=
  refreshing_topology refreshTimeout false (some minimumEpoch) inner trivial (.none inner)

theorem Sound.succeeded {task : CacheTask} {inner : ClientInner} {minimumEpoch : Nat}
    (sound : task.Sound inner)
    (ended : task.succeeded = some minimumEpoch) : minimumEpoch ≤ inner.topology.epoch := by
  have at_end : ∀ epoch topology, Refreshes (some epoch) (.done (.ok topology) : RefreshProgram) inner →
      epoch ≤ inner.topology.epoch := by
    intro epoch topology refreshes
    exact (refreshes inner (.refl inner) trivial).1 topology rfl epoch rfl
  unfold CacheTask.succeeded at ended
  split at ended
  · cases ended
    exact at_end _ _ sound
  · cases ended
    exact at_end _ _ sound
  · cases ended
    exact at_end _ _ sound
  · cases ended

end CacheTask

namespace ClientCache

variable {client : HashringClient} {refreshTimeout place : Nat} {task next : CacheTask}
  {inner after : ClientInner}
  {event : Event Nat} {spawned : List CacheTask}

theorem turn_sound (sound : task.Sound inner)
    (turn : Turn client refreshTimeout place task inner event next after spawned) :
    CacheGrows inner after ∧ next.Sound after ∧ ∀ other ∈ spawned, other.Sound after := by
  have alone : ∀ other ∈ ([] : List CacheTask), other.Sound after := List.forall_mem_nil _
  cases turn with
  | refresh moves | unavailable moves | pollRefresh moves | attempt moves =>
      obtain ⟨refreshed, rest⟩ := CacheTask.Refreshes.moves sound moves
      exact ⟨refreshed.toCacheGrows, rest, alone⟩
  | pollBehind behind => exact ⟨.refl _, CacheTask.refreshes_background client refreshTimeout _ _, alone⟩
  | request => exact ⟨.refl _, CacheTask.refreshes_background client refreshTimeout _ _, alone⟩
  | spawn => exact ⟨.refl _, trivial, fun other new => List.mem_singleton.mp new ▸ trivial⟩
  | raise | count | coalesce | claim | lower | restart | overtaken =>
      exact ⟨⟨le_rfl, fun _ => rfl⟩, trivial, alone⟩
  | pollFetch | pollCurrent | pollDone | load | attempted | newer | handled | raced | finish =>
      exact ⟨.refl _, trivial, alone⟩

theorem turn_role (sound : task.Sound inner)
    (turn : Turn client refreshTimeout place task inner event next after spawned) :
    (event = .silent ∧ next.role = task.role ∧ after.shared = inner.shared ∧ spawned = []) ∨
      task.role.turn (2 ^ 64) place inner.shared =
        ⟨event, next.role, after.shared, spawned.map CacheTask.role⟩ := by
  cases turn with
  | refresh moves | unavailable moves | pollRefresh moves | attempt moves =>
      obtain ⟨refreshed, -⟩ := CacheTask.Refreshes.moves sound moves
      exact .inl ⟨rfl, rfl, refreshed.shared, rfl⟩
  | pollFetch | pollBehind | pollCurrent | pollDone => exact .inl ⟨rfl, rfl, rfl, rfl⟩
  | raise | count | spawn | load | request | attempted | lower => exact .inr rfl
  | coalesce running | overtaken running =>
      have up : inner.backgroundRefreshRunning = true :=
        by simpa [HashringClient.claimBackground] using running
      right
      simp [CacheTask.role, Role.turn, ClientInner.shared, HashringClient.claimBackground, up]
  | claim idle | restart idle =>
      have down : inner.backgroundRefreshRunning = false :=
        by simpa [HashringClient.claimBackground] using idle
      right
      simp [CacheTask.role, Role.turn, ClientInner.shared, HashringClient.claimBackground, down]
  | newer more | raced more =>
      right
      simp [CacheTask.role, Role.turn, ClientInner.shared, more]
  | handled same | finish same =>
      right
      simp [CacheTask.role, Role.turn, ClientInner.shared, same]

/-- The client as the protocol sees it. -/
def machine (cache : ClientCache) : Coalescing.Machine Nat :=
  ⟨cache.inner.shared, cache.tasks.map CacheTask.role⟩

def Sound (cache : ClientCache) : Prop := ∀ task ∈ cache.tasks, task.Sound cache.inner

variable {before cache : ClientCache}

theorem Sound.later {tasks : List CacheTask} {holder : Option Nat} (sound : cache.Sound)
    (grows : CacheGrows cache.inner after)
    (new : ∀ task ∈ tasks, task ∈ cache.tasks ∨ task.Sound after) : Sound ⟨after, tasks, holder⟩ := by
  intro task member
  rcases new task member with old | here
  · exact (sound task old).later grows
  · exact here

theorem roles_kept {tasks : List CacheTask} (found : tasks[place]? = some task)
    (same : next.role = task.role) :
    (tasks.set place next).map CacheTask.role = tasks.map CacheTask.role := by
  apply List.ext_getElem?
  intro index
  rw [List.map_set, List.getElem?_set]
  split
  · rename_i here
    subst here
    rw [List.getElem?_map, found]
    simp [same, List.getElem?_eq_some_iff.mp found |>.1]
  · rfl

theorem starts_sound (starts : Starts client task) (inner : ClientInner) :
    task.Sound inner ∧ task.role.Starts := by
  cases task with
  | refresh minimumEpoch rest =>
      obtain ⟨timeout, unknown, rfl⟩ := starts
      exact ⟨refreshing_topology timeout unknown minimumEpoch inner trivial (.none inner), trivial⟩
  | unavailable rest =>
      obtain ⟨observedEpoch, deadline, unknown, rfl⟩ := starts
      exact ⟨refreshing_unavailable observedEpoch deadline unknown inner trivial (.none inner), trivial⟩
  | trigger minimumEpoch phase =>
      cases phase with
      | raise => exact ⟨trivial, trivial⟩
      | _ => exact starts.elim
  | poll | background | ended => exact starts.elim

theorem machine_waits (same : cache.machine = before.machine) :
    Coalescing.Machine.Step (2 ^ 64) before.machine .silent cache.machine := by
  have waits : Coalescing.Machine.Step (2 ^ 64) before.machine .silent
      ⟨before.machine.shared, before.machine.roles ++ []⟩ := .begin (List.forall_mem_nil _)
  rw [same]
  rwa [List.append_nil] at waits

theorem machine_append (inner : ClientInner) (tasks more : List CacheTask) (holder : Option Nat) :
    machine ⟨inner, tasks ++ more, holder⟩ =
      ⟨inner.shared, tasks.map CacheTask.role ++ more.map CacheTask.role⟩ := by
  simp [machine]

theorem drop_kept (sound : before.Sound) (found : before.tasks[place]? = some task)
    (droppable : Droppable task) :
    (before.drop place).Sound ∧ CacheGrows before.inner (before.drop place).inner ∧
      (before.drop place).machine = before.machine := by
  have kept : ∀ other ∈ before.tasks.set place .ended, ∀ inner, other ∈ before.tasks ∨
      other.Sound inner := by
    intro other member inner
    rcases List.mem_or_eq_of_mem_set member with listed | rfl
    · exact .inl listed
    · exact .inr trivial
  have outside : CacheTask.ended.role = task.role := by
    cases task with
    | refresh | unavailable => rfl
    | _ => exact droppable.elim
  have roles := roles_kept found outside
  unfold drop
  split
  · have grows : CacheGrows before.inner { before.inner with refreshLocked := false } :=
      ⟨le_rfl, fun _ => rfl⟩
    exact ⟨sound.later grows fun other member => kept other member _, grows, by rw [machine, roles]; rfl⟩
  · exact ⟨sound.later (.refl _) fun other member => kept other member _, .refl _,
      by rw [machine, roles]; rfl⟩

theorem step_kept (sound : before.Sound) (step : Step client refreshTimeout before event cache) :
    cache.Sound ∧ CacheGrows before.inner cache.inner ∧
      Coalescing.Machine.Step (2 ^ 64) before.machine event cache.machine := by
  cases step with
  | begin starts =>
      obtain ⟨new, enters⟩ := starts_sound starts before.inner
      refine ⟨sound.later (.refl _) fun other member => ?_, .refl _, ?_⟩
      · rcases List.mem_append.mp member with listed | last
        · exact .inl listed
        · obtain rfl := List.mem_singleton.mp last
          exact .inr new
      · rw [machine_append]
        exact .begin (List.forall_mem_singleton.mpr enters)
  | turn found turn =>
      obtain ⟨grows, moved, others⟩ := turn_sound (sound _ (List.mem_of_getElem? found)) turn
      refine ⟨sound.later grows fun other member => ?_, grows, ?_⟩
      · rcases List.mem_append.mp member with listed | new
        · rcases List.mem_or_eq_of_mem_set listed with kept | rfl
          · exact .inl kept
          · exact .inr moved
        · exact .inr (others other new)
      · rcases turn_role (sound _ (List.mem_of_getElem? found)) turn
          with ⟨rfl, same, shared, rfl⟩ | turned
        · apply machine_waits
          rw [machine, shared, List.append_nil, roles_kept found same]
          rfl
        · have listed := congrArg (Option.map CacheTask.role) found
          rw [← List.getElem?_map] at listed
          rw [machine_append, List.map_set]
          exact @Coalescing.Machine.Step.turn Nat _ (2 ^ 64) before.machine _ _ _ listed turned
  | drop found droppable =>
      obtain ⟨kept, grows, same⟩ := drop_kept sound found droppable
      exact ⟨kept, grows, machine_waits same⟩
  | operation channels retries retryReasons =>
      have grows : CacheGrows before.inner { before.inner with channels, retries, retryReasons } :=
        ⟨le_rfl, fun _ => rfl⟩
      exact ⟨sound.later grows fun other member => .inl member, grows, machine_waits rfl⟩

/-- The flag is down, and no task is about to raise it again. The flag is up from the
claim made for a background refresh to the store at its end. -/
def Idle (cache : ClientCache) : Prop :=
  cache.inner.backgroundRefreshRunning = false ∧
    ∀ task ∈ cache.tasks, ¬task.RestartsBackground cache.inner.backgroundTriggerGeneration

theorem machine_idle (idle : cache.Idle) : cache.machine.Idle := by
  refine ⟨idle.1, fun role listed => ?_⟩
  obtain ⟨task, member, rfl⟩ := List.mem_map.mp listed
  exact fun restarts => idle.2 task member ((CacheTask.restarts_iff _ task).mpr restarts)

theorem machine_held (cache : ClientCache) :
    cache.machine.roles.countP Role.holds = cache.tasks.countP CacheTask.runsBackground := by
  rw [machine, List.countP_map]
  exact congrArg (List.countP · cache.tasks) (funext fun task => (task.runs_holds).symm)

theorem run_grows {log : List (Event Nat)} (sound : before.Sound)
    (run : Run client refreshTimeout before log cache) :
    CacheGrows before.inner cache.inner := by
  induction run with
  | refl => exact .refl _
  | next step _ ih =>
      obtain ⟨kept, grows, -⟩ := step_kept sound step
      exact grows.trans (ih kept)

theorem run_kept {log : List (Event Nat)} (sound : before.Sound)
    (run : Run client refreshTimeout before log cache) :
    cache.Sound ∧ Transition.Run (Coalescing.Machine.Step (2 ^ 64)) before.machine log cache.machine := by
  refine Transition.run_mapped machine Sound (fun before event after sound step => ?_) run sound
  obtain ⟨kept, -, taken⟩ := step_kept sound step
  exact ⟨kept, taken⟩

theorem connected_sound (topology : TopologySnapshot)
    (polls : Bool) : (connected topology polls).Sound := by
  intro task member
  cases polls with
  | false => exact absurd member List.not_mem_nil
  | true =>
      obtain rfl := List.mem_singleton.mp member
      trivial

theorem connected_fresh (topology : TopologySnapshot) (polls : Bool) :
    Coalescing.Invariant (2 ^ 64) [] (connected topology polls).machine := by
  refine .fresh rfl rfl fun role listed => ?_
  cases polls with
  | false => exact absurd listed List.not_mem_nil
  | true => exact List.mem_singleton.mp listed

/-- A trigger takes effect when it is counted, and is made when its call returns. -/
theorem topology_cache_advances (topology : TopologySnapshot) (polls : Bool)
    {early late : List (Event Nat)} {middle last : ClientCache}
    (first : Run client refreshTimeout (connected topology polls) early middle)
    (second : Run client refreshTimeout middle late last) :
    (middle.inner.topology.epoch ≤ last.inner.topology.epoch ∧
        (last.inner.topology.epoch = middle.inner.topology.epoch →
          last.inner.topology = middle.inner.topology)) ∧
      (∀ task ∈ last.tasks, ∀ minimumEpoch, task.succeeded = some minimumEpoch →
        minimumEpoch ≤ last.inner.topology.epoch) ∧
      last.tasks.countP CacheTask.runsBackground ≤ 1 ∧
      (triggers (early ++ late) < 2 ^ 64 → last.Idle →
        ∀ (before after : List (Event Nat)) (task minimumEpoch : Nat),
          early ++ late = before ++ .triggered task minimumEpoch :: after → .returned task ∈ after →
            ∃ epoch, minimumEpoch ≤ epoch ∧ .attempted epoch ∈ after) := by
  -- The first two parts are about the refreshes under way, the last two about the
  -- machine the client follows.
  obtain ⟨soundMiddle, -⟩ := run_kept (connected_sound topology polls) first
  obtain ⟨sound, taken⟩ := run_kept (connected_sound topology polls) (Transition.run_append first second)
  have grows := run_grows soundMiddle second
  have invariant := (connected_fresh topology polls).run taken
  refine ⟨⟨grows.epoch, grows.same⟩, fun task member epoch ended =>
    (sound task member).succeeded ended, ?_, ?_⟩
  · rw [← machine_held, invariant.held]
    split
    · exact le_rfl
    · exact Nat.zero_le 1
  · exact fun below idle => invariant.answered below (machine_idle idle)

theorem run_begin (task : CacheTask) {log : List (Event Nat)} {last : ClientCache}
    (starts : Starts client task)
    (rest : Run client refreshTimeout { cache with tasks := cache.tasks ++ [task] } log last) :
    Run client refreshTimeout cache (.silent :: log) last :=
  .next (.begin starts) rest

theorem run_turn (place : Nat) {task next : CacheTask} {event : Event Nat}
    {spawned : List CacheTask} {log : List (Event Nat)}
    {last : ClientCache} (found : cache.tasks[place]? = some task)
    (turn : Turn client refreshTimeout place task cache.inner event next after spawned)
    (rest : Run client refreshTimeout ⟨after, cache.tasks.set place next ++ spawned,
      cache.holderAfter place after⟩ log last) :
    Run client refreshTimeout cache (event :: log) last :=
  .next (.turn found turn) rest

theorem idle_ended (down : cache.inner.backgroundRefreshRunning = false)
    (ended : ∀ task ∈ cache.tasks, task = .ended) :
    cache.Idle := by
  refine ⟨down, fun task member => ?_⟩
  rw [ended task member]
  exact id

theorem placed_next {tasks : List CacheTask} (inside : place < tasks.length) (next : CacheTask) :
    (tasks.set place next ++ [])[place]? = some next := by
  rw [List.append_nil, List.getElem?_set_self inside]

theorem refresh_ends (client : HashringClient) (refreshTimeout : Nat) (cache : ClientCache)
    (place : Nat) {handled : Nat}
    (found : cache.tasks[place]? = some (.background (.compare handled)))
    (same : ¬handled < cache.inner.backgroundTriggerGeneration) :
    ∃ last, Run client refreshTimeout cache [.silent, .silent, .silent] last ∧
      last.inner = { cache.inner with backgroundRefreshRunning := false } ∧
        last.tasks = cache.tasks.set place .ended := by
  obtain ⟨bound, -⟩ := List.getElem?_eq_some_iff.mp found
  have inside : place < (cache.tasks.set place
      (.background (.lower cache.inner.backgroundTriggerGeneration)) ++ []).length := by
    simpa using bound
  refine ⟨_, run_turn place found (.handled same) <| run_turn place (placed_next bound _) .lower <|
    run_turn place (placed_next inside _) (.finish (Nat.lt_irrefl _)) (.refl _), rfl, ?_⟩
  simp

theorem trigger_coalesced (client : HashringClient) (refreshTimeout : Nat) (cache : ClientCache)
    (minimumEpoch : Nat) (running : cache.inner.backgroundRefreshRunning = true) :
    ∃ last, Run client refreshTimeout cache
        [.silent, .silent, .triggered cache.tasks.length minimumEpoch, .returned cache.tasks.length]
          last ∧
      last.inner.backgroundRefreshRunning = true ∧
      last.inner.backgroundTriggerGeneration = (cache.inner.backgroundTriggerGeneration + 1) % 2 ^ 64 ∧
      last.tasks = cache.tasks ++ [.ended] := by
  have claimed : (!cache.inner.backgroundRefreshRunning) = false := by rw [running]; rfl
  refine ⟨_, run_begin (.trigger minimumEpoch .raise) trivial <|
    run_turn cache.tasks.length List.getElem?_concat_length .raise <|
    run_turn cache.tasks.length (placed_next (by simp) _) .count <|
    run_turn cache.tasks.length (placed_next (by simp) _) (.coalesce claimed) (.refl _), rfl, rfl, ?_⟩
  simp

theorem triggers_coalesced (client : HashringClient) (refreshTimeout : Nat) (cache : ClientCache)
    (minimumEpoch count : Nat) (running : cache.inner.backgroundRefreshRunning = true)
    (inside : cache.inner.backgroundTriggerGeneration < 2 ^ 64) :
    ∃ log last, Run client refreshTimeout cache log last ∧ last.inner.backgroundRefreshRunning = true ∧
      last.inner.backgroundTriggerGeneration =
        (cache.inner.backgroundTriggerGeneration + count) % 2 ^ 64 ∧
      (∃ more, last.tasks = cache.tasks ++ more ∧ ∀ task ∈ more, task = .ended) ∧
        ∀ epoch, .attempted epoch ∉ log := by
  induction count with
  | zero =>
      refine ⟨[], cache, .refl cache, running, (Nat.mod_eq_of_lt inside).symm, ⟨[], by simp⟩, by simp⟩
  | succ count ih =>
      obtain ⟨log, middle, run, up, generation, ⟨more, tasks, ended⟩, quiet⟩ := ih
      obtain ⟨last, once, upLast, counted, grown⟩ :=
        trigger_coalesced client refreshTimeout middle minimumEpoch up
      refine ⟨_, last, Transition.run_append run once, upLast, ?_, ⟨more ++ [.ended], ?_, ?_⟩, ?_⟩
      · rw [counted, generation, Nat.mod_add_mod]
        rfl
      · rw [grown, tasks, List.append_assoc]
      · intro task member
        rcases List.mem_append.mp member with earlier | new
        · exact ended task earlier
        · exact List.mem_singleton.mp new
      · intro epoch member
        rcases List.mem_append.mp member with earlier | new
        · exact quiet epoch earlier
        · simp at new

theorem attempt_answered {γ : Type} (effect : ClientEffect γ) (answer : γ) {handled requested : Nat}
    {rest : γ → RefreshProgram} (answered : effect.Answers inner answer after) :
    Turn client refreshTimeout place
      (.background (.refresh handled requested (.perform effect rest))) inner .silent
      (.background (.refresh handled requested (rest answer))) after [] :=
  .attempt (.perform answered)

end ClientCache

/-! A client at epoch 1 is told of epoch 2. -/
namespace BackgroundSample

open ClientCache

def client : HashringClient where
  hashing := JoinSample.hashing
  statusText status := status.message
  endpointError _ := none
  operationTimeout := 1000
  receiptRetention := 1000

def start : ClientCache := connected JoinSample.alone false

def spawned : ClientCache where
  inner := { start.inner with
    backgroundRefreshRunning := true, backgroundMinimumEpoch := 2, backgroundTriggerGeneration := 1 }
  tasks := [.ended, .background .load]

def triggerLog : List (Event Nat) := [.silent, .silent, .triggered 0 2, .silent, .returned 0]

theorem trigger_run : Run client 1000 start triggerLog spawned := by
  apply run_begin (.trigger 2 .raise) trivial
  apply run_turn 0 rfl .raise
  apply run_turn 0 rfl .count
  apply run_turn 0 rfl (.claim rfl)
  apply run_turn 0 rfl .spawn
  exact .refl _

def fetched : ClientCache where
  inner := { spawned.inner with topology := JoinSample.joined, refreshGeneration := 1 }
  tasks := [.ended, .background (.compare 1)]

def fetchLog : List (Event Nat) := .silent :: .attempted 2 :: List.replicate 11 .silent

theorem fetch_run : Run client 1000 spawned fetchLog fetched := by
  refine run_turn 1 rfl .load ?_
  refine run_turn 1 rfl .request ?_
  refine run_turn 1 rfl (attempt_answered .now 0 rfl) ?_
  refine run_turn 1 rfl (attempt_answered (.shared fun inner => (inner.topology, inner))
    JoinSample.alone ⟨rfl, rfl⟩) ?_
  refine run_turn 1 rfl (attempt_answered .now 0 rfl) ?_
  refine run_turn 1 rfl (attempt_answered (.lockRefresh 1000) true ⟨rfl, rfl⟩) ?_
  refine run_turn 1 rfl (attempt_answered (.shared fun inner => (inner.topology, inner))
    JoinSample.alone ⟨rfl, rfl⟩) ?_
  refine run_turn 1 rfl (.attempt (.choose 1)) ?_
  refine run_turn 1 rfl (attempt_answered .now 0 rfl) ?_
  refine run_turn 1 rfl (attempt_answered (.fetchTopology 1000) (some (.ok JoinSample.joined)) rfl) ?_
  refine run_turn 1 rfl (attempt_answered (.shared (cacheTopology JoinSample.joined))
    (.ok JoinSample.joined) ⟨rfl, rfl⟩) ?_
  refine run_turn 1 rfl (attempt_answered
    (.shared fun inner => ((), { inner with refreshLocked := false })) () ⟨rfl, rfl⟩) ?_
  refine run_turn 1 rfl .attempted ?_
  exact .refl _

/-- The trigger for epoch 2 was followed by an attempt for it, which fetched it. -/
theorem topology_cache_advances_fetched :
    ∃ log last, Run client 1000 spawned log last ∧ last.Idle ∧ last.inner.topology = JoinSample.joined ∧
      ∃ epoch, 2 ≤ epoch ∧ .attempted epoch ∈ log := by
  obtain ⟨last, ended, inner, tasks⟩ := refresh_ends client 1000 fetched 1 rfl (Nat.lt_irrefl 1)
  have late := Transition.run_append fetch_run ended
  have idle : last.Idle := idle_ended (by rw [inner]) fun task member =>
      by simpa [tasks, fetched] using member
  have advances := topology_cache_advances JoinSample.alone false trigger_run late
  obtain ⟨epoch, above, attempted⟩ := advances.2.2.2 (by decide) idle [.silent, .silent] _ 0 2 rfl
    (by simp)
  refine ⟨_, last, late, idle, by rw [inner]; rfl, epoch, above, ?_⟩
  simpa using attempted

/-- After 2^64 triggers the generation is zero again, below the one the background
refresh has handled, and it takes the triggers for epoch 3 for handled. -/
theorem wrapped_trigger_lost :
    ¬∀ (client : HashringClient) (refreshTimeout : Nat) (topology : TopologySnapshot) (polls : Bool)
      (log : List (Event Nat))
      (last : ClientCache), Run client refreshTimeout (connected topology polls) log last → last.Idle →
        ∀ (before after : List (Event Nat)) (task minimumEpoch : Nat), log = before ++
          .triggered task minimumEpoch :: after →
          .returned task ∈ after → ∃ epoch, minimumEpoch ≤ epoch ∧ .attempted epoch ∈ after := by
  intro claimed
  -- The background refresh has handled generation 1 and compares last.
  obtain ⟨first, once, up, generation, tasks⟩ := trigger_coalesced client 1000 fetched 3 rfl
  have small : first.inner.backgroundTriggerGeneration < 2 ^ 64 := by
    rw [generation]
    exact Nat.mod_lt _ (by decide)
  obtain ⟨log, middle, further, -, wrapped, ⟨others, grown, ended⟩, quiet⟩ :=
    triggers_coalesced client 1000 first 3 (2 ^ 64 - 2) up small
  have zero : middle.inner.backgroundTriggerGeneration = 0 := by
    rw [wrapped, generation]
    rfl
  have found : middle.tasks[1]? = some (.background (.compare 1)) := by
    rw [grown, tasks]
    rfl
  obtain ⟨last, finished, inner, left⟩ := refresh_ends client 1000 middle 1 found (by rw [zero]; decide)
  have idle : last.Idle := by
    refine idle_ended (by rw [inner]) fun task member => ?_
    have listed : task = .ended ∨ task ∈ others := by simpa [left, grown, tasks, fetched] using member
    exact listed.elim id (ended task)
  have run := Transition.run_append trigger_run <| Transition.run_append fetch_run <|
    Transition.run_append once <| Transition.run_append further finished
  let after : List (Event Nat) := .returned 2 :: (log ++ [.silent, .silent, .silent])
  obtain ⟨epoch, -, attempted⟩ := claimed client 1000 JoinSample.alone false _ last run idle
    (triggerLog ++ (fetchLog ++ [.silent, .silent])) after 2 3 (by simp [after, fetched])
      List.mem_cons_self
  have inside : Event.attempted epoch ∈ log := by simpa [after] using attempted
  exact quiet epoch inside

end BackgroundSample

end Hashring
