import Hashring.CoordinatorMachine

/-! The coordinator over whole runs: what is stored is what is in memory and can be
loaded again, the topology moves by publications only, and a publication stays. -/
namespace Hashring
namespace CoordinatorMachine

open CoordinatorSystem ClusterState Coordination Program

variable (settings : CoordinatorSettings)

def HolderSafe (system : CoordinatorSystem)
    (task : Program CoordinatorEffect (Except Status Unit)) : Prop :=
  task.Safe (CoordinatorEffect.Handles settings) (Kept settings) Elsewhere Onward (fun _ _ => True) system

def PassSafe (system : CoordinatorSystem)
    (task : Program CoordinatorEffect (Except Status FailurePass)) : Prop :=
  task.Safe (CoordinatorEffect.Handles settings) (Kept settings) (fun _ _ => True) Quietly
    (fun result _ => ∀ value, result = .ok value → value.Named) system

structure Inv (machine : CoordinatorMachine) : Prop where
  kept : Kept settings machine.system
  holder : ∀ task, machine.holder = some task → HolderSafe settings machine.system task
  passes : ∀ task ∈ machine.passes, PassSafe settings machine.system task
  confirmed : ∀ entry ∈ machine.confirmed, entry.2.isEmpty = false

variable {settings}

theorem HolderSafe.elsewhere {system after : CoordinatorSystem}
    {task : Program CoordinatorEffect (Except Status Unit)}
    (safe : HolderSafe settings system task) (shared : Shared system.state after.state) :
    HolderSafe settings after task :=
  safe_stable @Elsewhere.trans safe shared

theorem PassSafe.anywhere {system after : CoordinatorSystem}
    {task : Program CoordinatorEffect (Except Status FailurePass)}
    (safe : PassSafe settings system task) : PassSafe settings after task :=
  safe_stable (fun _ _ => trivial) safe trivial

theorem Inv.quietly {machine : CoordinatorMachine} {after : CoordinatorSystem}
    (inv : Inv settings machine)
    (kept : Kept settings after) (quietly : Quietly machine.system after) :
    Inv settings { machine with system := after } :=
  ⟨kept, fun task holds => (inv.holder task holds).elsewhere quietly.shared,
    fun task member => (inv.passes task member).anywhere, inv.confirmed⟩

/-- A request that one critical section answers. -/
theorem Inv.submits {α : Type} {machine : CoordinatorMachine} {decision : Decision α}
    {answer : Except Status α}
    {after : CoordinatorSystem} (inv : Inv settings machine)
    (submits : machine.system.Submits settings decision answer after)
    (quiet : ∀ next value, decision = .ok (some next, value) → Quiet settings machine.system.state next) :
    Inv settings { machine with system := after } ∧ Quietly machine.system after := by
  have quietly : Quietly machine.system after := by
    rcases submits.answered.1 with same | ⟨value, decided, _⟩
    · exact .same same
    · exact ⟨(quiet _ _ decided).shared, (quiet _ _ decided).advance⟩
  refine ⟨inv.quietly ?_ quietly, quietly⟩
  exact submits.kept inv.kept fun next value decided =>
    ⟨(quiet next value decided).sound, (quiet next value decided).advance⟩

theorem operation_safe (digests : ∀ bytes, settings.hashing.blake3 bytes ≠ [])
    {operation : LockedOperation}
    {system : CoordinatorSystem} (kept : Kept settings system)
    (named : ∀ change failedNodeId, operation = .recover change failedNodeId → failedNodeId.isEmpty = false) :
    HolderSafe settings system (operation.program settings).run := by
  have ends : Ends settings (fun _ => True) (operation.program settings) := by
    cases operation with
    | execute change retryTransient =>
        refine ends_step (execute_change_ends digests change retryTransient) fun _ => ?_
        exact ends_pure steady_true
    | recover change failedNodeId =>
        exact recover_pending_change_failure_ends change (named change failedNodeId rfl)
    | repair =>
        refine ends_then steady_true resume_replica_repairs_harmless fun _ _ => ?_
        exact ends_pure steady_true
  exact safe_consequence (fun _ _ _ _ => trivial) (ends system kept trivial)

theorem step_keeps (digests : ∀ bytes, settings.hashing.blake3 bytes ≠ [])
    {machine next : CoordinatorMachine} {event : CoordinatorEvent} (inv : Inv settings machine)
    (step : Step settings machine event next) :
    Inv settings next ∧ Advance machine.system.state next.system.state := by
  -- Every task beside the holder of the change lock is quiet, and quiet steps are what
  -- the holder relies on.
  cases step with
  | clock later => exact ⟨inv.quietly (inv.kept.clock later) (.same rfl), (Quietly.same rfl).advance⟩
  | begin submits =>
      obtain ⟨kept, quietly⟩ := inv.submits submits fun _ _ decided => begin_quiet inv.kept.sound decided
      exact ⟨kept, quietly.advance⟩
  | register submits =>
      obtain ⟨kept, quietly⟩ := inv.submits submits fun _ _ decided =>
        register_quiet inv.kept.sound decided
      exact ⟨kept, quietly.advance⟩
  | blockReason submits =>
      obtain ⟨kept, quietly⟩ := inv.submits submits fun _ _ decided =>
        recovery_block_reason_quiet inv.kept.sound decided
      exact ⟨kept, quietly.advance⟩
  | renew request =>
      have quietly : Quietly machine.system (machine.system.renew request) :=
        .same (renew_state request machine.system)
      exact ⟨inv.quietly (inv.kept.renew request) quietly, quietly.advance⟩
  | report request past =>
      rename_i now
      have quietly : Quietly machine.system (machine.system.report now request) :=
        .same (report_state now request machine.system)
      exact ⟨inv.quietly (inv.kept.report now request) quietly, quietly.advance⟩
  | startPass =>
      refine ⟨⟨inv.kept, inv.holder, fun task member => ?_, inv.confirmed⟩, (Quietly.same rfl).advance⟩
      rcases List.mem_cons.mp member with rfl | old
      · exact run_failure_pass_harmless machine.system inv.kept
      · exact inv.passes task old
  | pass picked moves =>
      obtain ⟨kept, quietly, safe⟩ := safe_moves (fun _ => trivial) (fun _ => .same rfl) inv.kept
        (inv.passes _ (List.mem_of_getElem? picked)) moves
      refine ⟨⟨kept, fun task holds => (inv.holder task holds).elsewhere quietly.shared,
        fun task member => ?_,
        inv.confirmed⟩, quietly.advance⟩
      rcases List.mem_or_eq_of_mem_set member with old | rfl
      · exact (inv.passes task old).anywhere
      · exact safe
  | passEnded ended =>
      have named := inv.passes _ (List.mem_of_getElem? ended) machine.system trivial inv.kept _ rfl
      refine ⟨⟨inv.kept, inv.holder, fun task member => inv.passes task (List.mem_of_mem_eraseIdx member),
        fun entry member => ?_⟩, (Quietly.same rfl).advance⟩
      rcases List.mem_cons.mp member with rfl | old
      · exact named
      · exact inv.confirmed entry old
  | passDropped index =>
      exact ⟨⟨inv.kept, inv.holder, fun task member => inv.passes task
        (List.mem_of_mem_eraseIdx member), inv.confirmed⟩,
        (Quietly.same rfl).advance⟩
  | start free asked =>
      refine ⟨⟨inv.kept, fun task holds => ?_, inv.passes, inv.confirmed⟩, (Quietly.same rfl).advance⟩
      obtain rfl := Option.some.inj holds
      exact operation_safe digests inv.kept fun change failedNodeId same => inv.confirmed _
        (asked change failedNodeId same)
  | operate holds moves =>
      obtain ⟨kept, onward, safe⟩ :=
        safe_moves Elsewhere.refl (fun _ => (Quietly.same rfl).advance) inv.kept
        (inv.holder _ holds) moves
      refine ⟨⟨kept, fun task same => ?_, fun task member => (inv.passes task member).anywhere,
        inv.confirmed⟩, onward⟩
      obtain rfl := Option.some.inj same
      exact safe
  | release => exact ⟨⟨inv.kept, fun _ holds => absurd holds (by simp), inv.passes, inv.confirmed⟩,
      (Quietly.same rfl).advance⟩
  | restart loads =>
      rename_i state now unixMillis
      obtain ⟨kept, same⟩ := inv.kept.restart loads
      have quietly : Quietly machine.system (machine.system.restart state now unixMillis) := .same same
      exact ⟨⟨kept, fun _ holds => absurd holds (by simp), fun _ member => absurd member List.not_mem_nil,
        fun _ member => absurd member List.not_mem_nil⟩, quietly.advance⟩

theorem run_keeps (digests : ∀ bytes, settings.hashing.blake3 bytes ≠ [])
    {machine later : CoordinatorMachine} {events : List CoordinatorEvent}
    (inv : Inv settings machine) (run : Transition.Run (Step settings) machine events later) :
    Inv settings later :=
  Transition.run_invariant (fun _ => True) (Inv settings)
    (fun _ _ _ _ inv step => (step_keeps digests inv step).1) run
    (fun _ _ => trivial) inv

theorem run_epoch (digests : ∀ bytes, settings.hashing.blake3 bytes ≠ [])
    {machine later : CoordinatorMachine} {events : List CoordinatorEvent}
    (inv : Inv settings machine) (run : Transition.Run (Step settings) machine events later) :
    machine.system.state.committed.epoch ≤ later.system.state.committed.epoch := by
  induction run with
  | refl => exact le_rfl
  | next step _ ih =>
      obtain ⟨kept, advance⟩ := step_keeps digests inv step
      refine le_trans ?_ (ih kept)
      rcases advance.committed with same | ⟨grown, _⟩
      · rw [same]
      · omega

theorem boot_inv {works : Bool} {bootstrap : TopologySnapshot} {state : ClusterState}
    {now unixMillis : Nat} (epoch : bootstrap.epoch < 2 ^ 64)
    (booted : settings.loadOrInitialize works none (some bootstrap) = .ok state) :
    Inv settings (boot state now unixMillis) := by
  unfold CoordinatorSettings.loadOrInitialize at booted
  obtain ⟨reconciled, reconciles, booted⟩ := bind_ok_iff.mp booted
  obtain ⟨_, stored, booted⟩ := bind_ok_iff.mp booted
  obtain rfl := Except.ok.inj booted
  unfold CoordinatorSettings.storeState at stored
  obtain ⟨_, accepted, _⟩ := bind_ok_iff.mp stored
  have valid := (validate_iff _ _ _).mp accepted
  obtain ⟨ranges, derived, few, rfl⟩ := (reconcile_iff _ _).mp reconciles
  have sound : Sound settings
      (({ committed := bootstrap } : ClusterState).reconciled (desiredCopies ranges)) :=
    ⟨epoch, valid, reconcile_settled reconciles, fun _ active => absurd active (by simp [reconciled])⟩
  refine ⟨⟨sound, rfl, fun other member => ?_, fun _ member => absurd member List.not_mem_nil,
    fun key failure found => ?_⟩,
    fun _ holds => absurd holds (by simp [boot]), fun _ member => absurd member List.not_mem_nil,
    fun _ member => absurd member List.not_mem_nil⟩
  · obtain rfl := List.mem_singleton.mp member
    exact accepted
  · exact absurd found (by simp [boot, memory, Coordinator.start])

/-- A published change stays published: the epoch does not fall below its own, and
whoever finds it active later finds it published. -/
def StaysPublished (change : TopologyChange) (state : ClusterState) : Prop :=
  change.targetTopology.epoch ≤ state.committed.epoch ∧ ∀ active, state.activeChange = some active →
    changeIdentity active = changeIdentity change → active.phase.beforePublication = false

theorem stays_published {machine later : CoordinatorMachine} {events : List CoordinatorEvent}
    {change : TopologyChange} (digests : ∀ bytes, settings.hashing.blake3 bytes ≠ [])
    (inv : Inv settings machine) (run : Transition.Run (Step settings) machine events later)
    (active : machine.system.state.activeChange = some change)
    (published : change.phase.beforePublication = false) : StaysPublished change later.system.state := by
  have target := published_target inv.kept.sound active published
  have epoch := (inv.kept.sound.change change active).epoch
  have grown : change.targetTopology.epoch ≤ later.system.state.committed.epoch := by
    rw [target]
    exact run_epoch digests inv run
  refine ⟨grown, fun other found same => ?_⟩
  by_contra early
  have laterKept := (run_keeps digests inv run).kept
  have base := (target_epoch (laterKept.sound.valid.change other found) (by simpa using early)).1
  have sameBase : other.baseEpoch = change.baseEpoch := congrArg ChangeIdentity.baseEpoch same
  omega

/-- Over every run from an empty store, with every kind of step in any order: the
state in memory is the one stored last, everything handed to the repository passes
its check and would load again, each step moves the topology only by a publication
of the next epoch on the same ring, and a publication is not taken back. -/
theorem coordinator_safe (digests : ∀ bytes, settings.hashing.blake3 bytes ≠ []) {works : Bool}
    {bootstrap : TopologySnapshot} {state : ClusterState} {now unixMillis : Nat}
    (epoch : bootstrap.epoch < 2 ^ 64)
    (booted : settings.loadOrInitialize works none (some bootstrap) = .ok state)
    {machine : CoordinatorMachine} {events : List CoordinatorEvent}
    (run : Transition.Run (Step settings) (boot state now unixMillis) events machine) :
    machine.system.stored = machine.system.state ∧
      (∀ handed ∈ machine.system.handed, handed.validate settings.hashing settings.digestOf = .ok ()) ∧
      settings.loadState machine.system.stored = .ok machine.system.state ∧
      (∀ event next, Step settings machine event next → Advance machine.system.state next.system.state) ∧
      ∀ further later, Transition.Run (Step settings) machine further later → ∀ change,
        machine.system.state.activeChange = some change → change.phase.beforePublication = false →
          StaysPublished change later.system.state := by
  have inv := run_keeps digests (boot_inv epoch booted) run
  refine ⟨inv.kept.stored, inv.kept.handed, ?_, fun event next step => (step_keeps digests inv step).2,
    fun further later onward change active published => stays_published digests inv onward active
      published⟩
  rw [inv.kept.stored]
  exact load_state_ok inv.kept.sound

theorem holder_valid {α : Type} {decide : Coordinator → Decision α}
    {next : Except Status α → Program CoordinatorEffect (Except Status Unit)} {system : CoordinatorSystem}
    (kept : Kept settings system) (safe : HolderSafe settings system (.perform (.update decide) next))
    {stored : ClusterState} {value : α} (decided : decide system.service = .ok (some stored, value)) :
    stored.validate settings.hashing settings.digestOf = .ok () := by
  cases checked : stored.validate settings.hashing settings.digestOf with
  | ok _ => rfl
  | error error =>
      -- A state that fails would be handed over all the same, which the task never lets happen.
      have fails : settings.storeState true stored = .error error := by
        unfold CoordinatorSettings.storeState
        rw [checked]
        rfl
      have handled : CoordinatorEffect.Handles settings (.update decide) system
          (.error ⟨.internal, error.message⟩)
          (system.handOver stored) := by
        change system.Submits settings (decide system.service) _ _
        rw [decided]
        exact .failed true fails
      have handed := (safe system (Elsewhere.refl system) kept _ _ handled).1.handed stored
          List.mem_cons_self
      exact absurd (checked.symm.trans handed) (by simp)

end CoordinatorMachine

/-! A coordinator that starts with one member, which a second one joins. -/
namespace BootSample

open ClusterState Coordination

def settings : CoordinatorSettings where
  hashing := { JoinSample.hashing with blake3 := Sample.hashing.blake3 }
  digestOf _ := ""
  migrationTimeout := 0
  rangeMoveConcurrency := 4
  replicaRepairConcurrency := 4
  prepublicationFailureGrace := 0

theorem digests (bytes : Bytes) : settings.hashing.blake3 bytes ≠ [] := by
  simp [settings, Sample.hashing]

theorem alone_valid : JoinSample.alone.validate settings.hashing settings.digestOf = .ok () := by
  have built : TopologySnapshot.newWithTimings settings.hashing settings.digestOf 1 7 1
      JoinSample.alone.members {} {} =
      .ok JoinSample.alone := by
    have points : JoinSample.alone.members.flatMap (memberAssignments settings.hashing 7 1) =
        JoinSample.alone.assignments := by
      decide +kernel
    have members : canonicalMembers JoinSample.alone.members = JoinSample.alone.members :=
      List.mergeSort_of_pairwise (by decide)
    unfold TopologySnapshot.newWithTimings canonicalAssignments
    rw [members, points, List.mergeSort_of_pairwise (by decide)]
    rfl
  exact TopologySnapshot.new_with_timings_valid built

/-- One member has no followers, so no copy is asked for. -/
theorem alone_copies :
    ∃ ranges, JoinSample.alone.derivedRanges = .ok ranges ∧ desiredCopies ranges = [] := by
  obtain ⟨_, ranges, _, derived, _⟩ :=
    TopologySnapshot.derived_ranges_spec (TopologySnapshot.validate_sound alone_valid)
  refine ⟨ranges, derived, List.eq_nil_iff_forall_not_mem.mpr fun copy desired => ?_⟩
  obtain ⟨range, member, listed⟩ := List.mem_flatMap.mp desired
  obtain ⟨distinct, members⟩ := TopologySnapshot.derived_range_placed alone_valid derived member
  have follower := (mem_copies listed).2.2.2
  have owner := members _ List.mem_cons_self
  have other := members _ (List.mem_cons_of_mem _ follower)
  simp only [JoinSample.alone, JoinSample.topology, List.map_cons, List.map_nil, List.mem_singleton]
    at owner other
  rw [owner, ← other] at distinct
  exact (List.nodup_cons.mp distinct).1 follower

theorem booted : settings.loadOrInitialize true none (some JoinSample.alone) =
    .ok { committed := JoinSample.alone } := by
  obtain ⟨ranges, derived, none_desired⟩ := alone_copies
  have reconciles : ({ committed := JoinSample.alone } : ClusterState).reconcileReplicaRepairs =
      .ok { committed := JoinSample.alone } := by
    refine (reconcile_iff _ _).mpr ⟨ranges, derived, ?_, ?_⟩
    · rw [none_desired]
      exact Nat.zero_le _
    · rw [none_desired]
      rfl
  have valid : ({ committed := JoinSample.alone } : ClusterState).validate settings.hashing
      settings.digestOf =
      .ok () := by
    refine (validate_iff _ _ _).mpr ⟨alone_valid, Nat.zero_le _, Nat.zero_le _, fun _ active =>
      absurd active (by simp),
      ?_, ?_, ?_, ranges, derived, ⟨List.nodup_nil, ?_, List.nodup_nil, ?_⟩⟩
    all_goals exact fun _ member => absurd member List.not_mem_nil
  unfold CoordinatorSettings.loadOrInitialize CoordinatorSettings.storeState
  exact bind_ok_iff.mpr ⟨_, reconciles, bind_ok_iff.mpr ⟨(), bind_ok_iff.mpr ⟨(), valid, rfl⟩, rfl⟩⟩

def answer : {β : Type} → NodeRequest β → β
  | _, .getProcessInfo => ⟨"b", "b-1"⟩
  | _, .prepareSourceRange _ => "a-1"
  | _, .prepareDestinationRange _ => "b-1"
  | _, .readSnapshotPage _ => { records := [], nextCursor := 0, done := true }
  | _, .readDedupSnapshotPage _ => { records := [], nextCursor := 0, done := true }
  | _, .readChangelogPage _ => { records := [], currentWatermark := 0 }
  | _, .pauseRangeWrites _ => 0
  | _, .sourceRangeDigest _ | _, .destinationRangeDigest _ => ⟨0, "d", 0⟩
  | _, .getReplicationProgress _ | _, .installReplicationCheckpoint _ => ⟨"b-1", 0, 0, 0, false⟩
  | _, .applyMigrationBatch _ | _, .applyDedupBatch _ | _, .commitDestinationRange _ | _,
      .activateDestinationRange _
  | _, .cleanupSourceRange _ | _, .abortRangeMigration _ | _, .abortReplicaRepairs _ | _,
      .installTopology _ _
  | _, .pausePolicyWrites _ | _, .resumePolicyWrites _ | _, .prepareStop _ _ | _, .stop _ _ => ()

def reply : {β : Type} → NodeEffect β → β
  | _, .connect _ _ => .ok ()
  | _, .call _ _ request => .ok (answer request)

theorem reply_answers {β : Type} (effect : NodeEffect β) : effect.Answers (reply effect) := by
  cases effect with
  | connect endpoint deadline => trivial
  | call endpoint deadline request =>
      cases request with
      | sourceRangeDigest control | destinationRangeDigest control =>
          intro digest same
          obtain rfl := Except.ok.inj same
          rfl
      | _ => trivial

/-- A critical section whose successor passes its check. -/
def submit {α : Type} (works : Bool) : Decision α → CoordinatorSystem →
    Except Status α × CoordinatorSystem
  | .error status, system => (.error status, system)
  | .ok (none, value), system => (.ok value, system)
  | .ok (some next, value), system =>
      if works then (.ok value, system.adopt next)
      else (.error ⟨.internal, RepositoryError.storage.message⟩, system.handOver next)

theorem submit_submits {α : Type} {works : Bool} {decision : Decision α} {system : CoordinatorSystem}
    (valid : ∀ next value, decision = .ok (some next, value) →
      next.validate settings.hashing settings.digestOf = .ok ()) :
    system.Submits settings decision (submit works decision system).1
      (submit works decision system).2 := by
  rcases decision with status | ⟨_ | next, value⟩
  · exact .refused
  · exact .unchanged
  · have checked := valid next value rfl
    cases works with
    | false =>
        have fails : settings.storeState false next = .error .storage := by
          simp [CoordinatorSettings.storeState, checked]
          rfl
        exact .failed false fails
    | true =>
        refine .stored true ?_
        simp [CoordinatorSettings.storeState, checked]

def handle (works : Bool) : {β : Type} → CoordinatorEffect β → CoordinatorSystem →
    Option (β × CoordinatorSystem)
  | _, .node effect, system => some (reply effect, system)
  | _, .observe read, system =>
      some (read system.service, { system with observed := system.moment :: system.observed })
  | _, .modify change, system => some ((change system.memory).1,
      { system with service := { system.service with memory := (change system.memory).2 } })
  | _, .update decide, system => some (submit works (decide system.service) system)
  | _, .sleepUntil deadline, system => if deadline ≤ system.service.now then some ((), system) else none
  | _, .freshId, system => some ("fresh", system)

/-- The next step of a task; a pool or a loop gets fuel for `turns` turns. -/
def advance {α : Type} (works : Bool) (turns : Nat) :
    Program CoordinatorEffect α → CoordinatorSystem →
      Option (Program CoordinatorEffect α × CoordinatorSystem)
  | .perform effect next, system => (handle works effect system).map fun handled =>
    (next handled.1, handled.2)
  | .choose next, system => some (next turns, system)
  | .done _, _ | .halt, _ => none

theorem advance_moves {works : Bool} {turns : Nat}
    {task next : Program CoordinatorEffect (Except Status Unit)} {system after : CoordinatorSystem}
    (kept : CoordinatorSystem.Kept settings system)
    (safe : CoordinatorMachine.HolderSafe settings system task)
    (advanced : advance works turns task system = some (next, after)) :
    task.Moves (CoordinatorEffect.Handles settings) system next after := by
  cases task with
  | perform effect rest =>
      obtain ⟨⟨value, reached⟩, handled, same⟩ := Option.map_eq_some_iff.mp advanced
      obtain ⟨rfl, rfl⟩ := Prod.mk.inj same
      refine .perform ?_
      cases effect with
      | node effect =>
          obtain ⟨rfl, rfl⟩ := Prod.mk.inj (Option.some.inj handled)
          exact ⟨reply_answers effect, rfl⟩
      | observe read | modify change =>
          obtain ⟨rfl, rfl⟩ := Prod.mk.inj (Option.some.inj handled)
          exact ⟨rfl, rfl⟩
      | update decide =>
          have submits : system.Submits settings (decide system.service)
              (submit works (decide system.service) system).1
              (submit works (decide system.service) system).2 :=
            submit_submits fun stored value decided => CoordinatorMachine.holder_valid kept safe decided
          rw [Option.some.inj handled] at submits
          exact submits
      | sleepUntil deadline =>
          obtain ⟨past, same⟩ := Option.ite_none_right_eq_some.mp handled
          obtain ⟨-, rfl⟩ := Prod.mk.inj (Option.some.inj same)
          exact ⟨past, rfl⟩
      | freshId =>
          obtain ⟨-, rfl⟩ := Prod.mk.inj (Option.some.inj handled)
          rfl
  | choose rest =>
      obtain ⟨rfl, rfl⟩ := Prod.mk.inj (Option.some.inj advanced)
      exact .choose turns
  | done value | halt => exact absurd advanced (by simp [advance])

/-- What is done to the coordinator. -/
inductive Command where
  | register (nodeId processInstanceId : String)
  | start
  | operate (works : Bool)
  | release
  | restart

def Command.event : Command → CoordinatorEvent
  | .register _ _ => .request
  | .start | .operate _ | .release => .operation
  | .restart => .restart

/-- The step of a command, if it can be made. -/
def Command.next (machine : CoordinatorMachine) : Command → Option CoordinatorMachine
  | .register nodeId processInstanceId => some { machine with
      system := (submit true (machine.system.state.registerNode nodeId processInstanceId)
        machine.system).2 }
  | .start =>
      if machine.holder.isNone then
        some { machine with holder := some (LockedOperation.program settings (.execute ⟨"join", 1, 2⟩ false)).run }
      else none
  | .operate works => machine.holder.bind fun task =>
      (advance works 100 task machine.system).map fun moved =>
        { machine with system := moved.2, holder := some moved.1 }
  | .release => some { machine with holder := none }
  | .restart => some { system := machine.system.restart machine.system.stored 0 0 }

theorem Command.next_step {machine after : CoordinatorMachine} {command : Command}
    (inv : CoordinatorMachine.Inv settings machine) (made : command.next machine = some after) :
    CoordinatorMachine.Step settings machine command.event after := by
  cases command with
  | register nodeId processInstanceId =>
      obtain rfl := Option.some.inj made
      refine .register (submit_submits fun next value decided => ?_)
      exact (validate_iff _ _ _).mpr (register_quiet inv.kept.sound decided).sound.valid
  | start =>
      obtain ⟨free, same⟩ := Option.ite_none_right_eq_some.mp made
      obtain rfl := Option.some.inj same
      exact .start (Option.isNone_iff_eq_none.mp free) fun _ _ same => absurd same (by simp)
  | operate works =>
      obtain ⟨task, holds, moved⟩ := Option.bind_eq_some_iff.mp made
      obtain ⟨⟨next, reached⟩, advanced, rfl⟩ := Option.map_eq_some_iff.mp moved
      exact .operate holds (advance_moves inv.kept (inv.holder task holds) advanced)
  | release =>
      obtain rfl := Option.some.inj made
      exact .release
  | restart =>
      obtain rfl := Option.some.inj made
      have loads : settings.loadOrInitialize true (some machine.system.stored) none =
          .ok machine.system.stored := by
        rw [inv.kept.stored]
        exact CoordinatorSystem.load_state_ok inv.kept.sound
      exact .restart loads

def play : List Command → CoordinatorMachine → Option CoordinatorMachine
  | [], machine => some machine
  | command :: rest, machine => (command.next machine).bind (play rest)

theorem play_run {commands : List Command} {machine later : CoordinatorMachine}
    (inv : CoordinatorMachine.Inv settings machine) (played : play commands machine = some later) :
    Transition.Run (CoordinatorMachine.Step settings) machine (commands.map Command.event) later := by
  induction commands generalizing machine with
  | nil =>
      obtain rfl := Option.some.inj played
      exact .refl _
  | cons command rest ih =>
      obtain ⟨next, made, played⟩ := Option.bind_eq_some_iff.mp played
      have step := Command.next_step inv made
      exact .next step (ih (CoordinatorMachine.step_keeps digests inv step).1 played)

theorem join_boundaries : TopologyDelta.boundaries JoinSample.alone JoinSample.joined = [2047, 2048] := by
  unfold TopologyDelta.boundaries
  rw [List.mergeSort_of_pairwise (by decide)]
  decide

def delta : List RangeMigration × List ReplicaObligation :=
  (TopologyDelta.collect settings.hashing JoinSample.alone JoinSample.joined 2048 [] []
    [2047, 2048]).toOption.getD ([], [])

def join : TopologyChange where
  changeId := "join"
  baseEpoch := 1
  baseTopology := some JoinSample.alone
  targetTopology := JoinSample.joined
  ranges := delta.1
  replicaObligations := delta.2

theorem join_planned : TopologyChange.planWithConfig settings.hashing settings.digestOf "join"
    JoinSample.alone
    JoinSample.joined.members JoinSample.alone.config = .ok join := by
  have target : TopologySnapshot.newWithTimings settings.hashing settings.digestOf 2 7 1
      JoinSample.joined.members
      JoinSample.alone.config JoinSample.alone.timings = .ok JoinSample.joined := by
    have points : JoinSample.joined.members.flatMap (memberAssignments settings.hashing 7 1) =
        JoinSample.joined.assignments := by decide +kernel
    have members : canonicalMembers JoinSample.joined.members = JoinSample.joined.members :=
      List.mergeSort_of_pairwise (by decide)
    unfold TopologySnapshot.newWithTimings canonicalAssignments
    rw [members, points, List.mergeSort_of_pairwise (by decide)]
    rfl
  have collected : topologyDelta settings.hashing JoinSample.alone JoinSample.joined = .ok delta := by
    unfold topologyDelta
    rw [join_boundaries]
    decide +kernel
  unfold TopologyChange.planWithConfig
  have unmoved : (JoinSample.alone.members.find? fun current =>
      (JoinSample.joined.members.find? fun target => decide (target.nodeId = current.nodeId)).any
          fun target =>
        decide (target.endpoint ≠ current.endpoint)) = none := by decide +kernel
  simp only [unmoved]
  refine (unless_thrown_ok _ _ _ _).mpr ⟨by decide, bind_ok_iff.mpr ⟨JoinSample.joined, ?_, ?_⟩⟩
  · change fromTopology (TopologySnapshot.newWithTimings settings.hashing settings.digestOf 2 7 1
      JoinSample.joined.members JoinSample.alone.config JoinSample.alone.timings) = _
    rw [target]
    rfl
  · exact (unless_thrown_ok _ _ _ _).mpr ⟨by decide, bind_ok_iff.mpr ⟨delta, collected, rfl⟩⟩

theorem join_begins : ({ committed := JoinSample.alone } : ClusterState).beginTopologyChange
    settings "join"
    { targetMembers := JoinSample.joined.members } =
      .ok (some { committed := JoinSample.alone, activeChange := some join }, join) := by
  have planned : (TopologyChange.planWithConfig settings.hashing settings.digestOf "join" JoinSample.alone
      JoinSample.joined.members JoinSample.alone.config).mapError
        (fun error => (⟨.invalidArgument, error.message⟩ : Status)) = .ok join := by
    rw [join_planned]
    rfl
  obtain ⟨ranges, derived, few⟩ : ∃ ranges, JoinSample.joined.derivedRanges = .ok ranges ∧
      ¬maxReplicaObligations < (ranges.map fun range => range.followerNodeIds.length).sum := by
    refine ⟨(JoinSample.joined.derivedRanges).toOption.getD [], ?_, ?_⟩ <;> decide +kernel
  unfold ClusterState.beginTopologyChange
  refine bind_ok_iff.mpr ⟨none, rfl, (unless_thrown_ok _ _ _ _).mpr
    ⟨by decide, (unless_thrown_ok _ _ _ _).mpr
    ⟨by decide, bind_ok_iff.mpr
      ⟨join, planned, (unless_thrown_ok _ _ _ _).mpr ⟨by decide +kernel, ?_⟩⟩⟩⟩⟩
  refine bind_ok_iff.mpr ⟨ranges, ?_, (unless_thrown_ok _ _ _ _).mpr ⟨few, rfl⟩⟩
  change Except.mapError _ JoinSample.joined.derivedRanges = _
  rw [derived]
  rfl

def first : CoordinatorMachine := CoordinatorMachine.boot { committed := JoinSample.alone } 0 0

theorem first_inv : CoordinatorMachine.Inv settings first :=
  CoordinatorMachine.boot_inv (by decide) booted

def begun : CoordinatorMachine where
  system := first.system.adopt { committed := JoinSample.alone, activeChange := some join }

theorem begin_step : CoordinatorMachine.Step settings first .request begun := by
  have submits : first.system.Submits settings (first.system.state.beginTopologyChange settings "join"
      { targetMembers := JoinSample.joined.members }) (.ok join) begun.system := by
    change first.system.Submits settings
      (({ committed := JoinSample.alone } : ClusterState).beginTopologyChange settings
      "join" { targetMembers := JoinSample.joined.members }) _ _
    rw [join_begins]
    refine .stored true ?_
    have valid := (validate_iff _ _ _).mpr (begin_quiet first_inv.kept.sound join_begins).sound.valid
    simp [CoordinatorSettings.storeState, valid]
  exact .begin submits

/-- The two nodes register, the first store of the change fails, a second attempt is
cut off by a restart, and the third publishes. -/
def attempts : List Command :=
  [.register "a" "a-1", .register "b" "b-1", .start] ++ List.replicate 3 (.operate true) ++
    [.operate false, .release, .start] ++ List.replicate 30 (.operate true) ++
      [.restart, .start] ++ List.replicate 72 (.operate true)

/-- A restart after the publication, and the rest of the change. -/
def completion : List Command := [.restart, .start] ++ List.replicate 30 (.operate true)

def phase (machine : CoordinatorMachine) : Option MigrationPhase :=
  machine.system.state.activeChange.map (·.phase)

/-- What the holder of the lock has come to. -/
def ended (machine : CoordinatorMachine) : Option (Except Status Unit) :=
  match machine.holder with
  | some (.done result) => some result
  | _ => none

theorem first_attempt_fails : (play (attempts.take 7) begun).any (fun machine =>
    ended machine = some (.error ⟨.internal, RepositoryError.storage.message⟩) && phase machine =
        some .planned) = true := by
  decide +kernel

theorem attempts_played : (play attempts begun).any (fun published =>
    phase published = some .published && published.system.handed.length = 19 &&
      (play completion published).any fun later => phase later = some .complete && ended later =
        some (.ok ()) &&
        later.system.state.committed.epoch = 2 && later.system.handed.length = 23) = true := by
  decide +kernel

end BootSample

/-- A member joins over a failed store and a restart, and the change that was
published before a second restart completes. -/
theorem coordinator_safe_join :
    (BootSample.play (BootSample.attempts.take 7) BootSample.begun).any (fun machine =>
      BootSample.ended machine = some (.error ⟨.internal, RepositoryError.storage.message⟩) &&
        BootSample.phase machine = some .planned) = true ∧
    ∃ published later : CoordinatorMachine,
      Transition.Run (CoordinatorMachine.Step BootSample.settings) BootSample.first
        (.request :: BootSample.attempts.map BootSample.Command.event) published ∧
      BootSample.phase published = some .published ∧ published.system.stored = published.system.state ∧
      (∀ handed ∈ published.system.handed,
        handed.validate BootSample.settings.hashing BootSample.settings.digestOf = .ok ()) ∧
      published.system.handed.length = 19 ∧
      BootSample.settings.loadState published.system.stored = .ok published.system.state ∧
      Transition.Run (CoordinatorMachine.Step BootSample.settings) published
        (BootSample.completion.map BootSample.Command.event) later ∧
      BootSample.phase later = some .complete ∧ later.system.state.committed.epoch = 2 ∧
      ∃ change ∈ published.system.state.activeChange,
          CoordinatorMachine.StaysPublished change later.system.state := by
  have inv := (CoordinatorMachine.step_keeps BootSample.digests BootSample.first_inv
      BootSample.begin_step).1
  obtain ⟨published, played, shown⟩ := (Option.any_eq_true _ _).mp BootSample.attempts_played
  obtain ⟨⟨publishedPhase, handed⟩, rest⟩ :=
    by simpa only [Bool.and_eq_true, decide_eq_true_eq] using shown
  obtain ⟨later, completed, shown⟩ := (Option.any_eq_true _ _).mp rest
  obtain ⟨⟨⟨complete, -⟩, epoch⟩, -⟩ := by simpa only [Bool.and_eq_true, decide_eq_true_eq] using shown
  have run := Transition.Run.next BootSample.begin_step (BootSample.play_run inv played)
  have further := BootSample.play_run
      (CoordinatorMachine.run_keeps BootSample.digests BootSample.first_inv run) completed
  obtain ⟨stored, valid, loads, -, stays⟩ :=
    CoordinatorMachine.coordinator_safe BootSample.digests (by decide) BootSample.booted run
  obtain ⟨change, active, phase⟩ := Option.map_eq_some_iff.mp publishedPhase
  refine ⟨BootSample.first_attempt_fails, published, later, run, publishedPhase, stored, valid,
    handed, loads, further,
    complete, epoch, change, active, ?_⟩
  exact stays _ later further change active (by rw [phase]; rfl)

end Hashring
