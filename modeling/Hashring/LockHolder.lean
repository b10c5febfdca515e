import Hashring.FailurePasses

/-! What the holder of the execution lock does to the state: it moves the active
change on, publishes it at most once, and never takes a publication back. -/
namespace Hashring
namespace Coordination

open CoordinatorSystem ClusterState Program

variable (settings : CoordinatorSettings)

/-- What the other tasks do between two effects of the holder. -/
def Elsewhere (before after : CoordinatorSystem) : Prop := Shared before.state after.state

theorem Elsewhere.refl (system : CoordinatorSystem) : Elsewhere system system := Shared.refl _

theorem Elsewhere.trans {first second third : CoordinatorSystem} (early : Elsewhere first second)
    (late : Elsewhere second third) : Elsewhere first third :=
  Shared.trans early late

/-- What an effect of the holder does. -/
def Onward (before after : CoordinatorSystem) : Prop := Advance before.state after.state

def Exclusive {α : Type} (pre : ClusterState → Prop) (program : Coordination α)
    (post : α → ClusterState → Prop)
    (failed : ClusterState → Prop) : Prop :=
  Attempts (CoordinatorEffect.Handles settings) (Kept settings) Elsewhere Onward
    (fun system => pre system.state) program
    (fun value system => post value system.state) fun system => failed system.state

/-- Knowledge that only the holder can end. -/
def Steady (known : ClusterState → Prop) : Prop := ∀ before after, Shared before after →
    known before → known after

variable {settings} {α β : Type} {pre failed : ClusterState → Prop}

theorem Steady.stable (steady : Steady pre) :
    Stable (Kept settings) Elsewhere fun system => pre system.state :=
  fun before after shared _ known => steady before.state after.state shared known

theorem steady_true : Steady fun _ => True := fun _ _ _ _ => trivial

theorem exclusive_bind {program : Coordination α} {rest : α → Coordination β}
    {middle : α → ClusterState → Prop} {post : β → ClusterState → Prop} (steady : Steady failed)
    (first : Exclusive settings pre program middle failed)
    (second : ∀ value, Exclusive settings (middle value) (rest value) post failed) :
    Exclusive settings pre (program >>= rest) post failed :=
  attempts_bind Elsewhere.refl steady.stable first second

theorem exclusive_pure {value : α} {post : α → ClusterState → Prop} (steady : Steady pre)
    (holds : ∀ state, pre state → post value state) : Exclusive settings pre (pure value) post failed :=
  attempts_pure steady.stable fun _ _ known => holds _ known

theorem exclusive_throw {error : Status} {post : α → ClusterState → Prop} (steady : Steady pre)
    (holds : ∀ state, pre state → failed state) : Exclusive settings pre (throw error) post failed :=
  attempts_throw steady.stable fun _ _ known => holds _ known

theorem exclusive_harmless {program : Coordination α} {good : α → Prop} (steady : Steady pre)
    (harmless : Harmless settings program good) :
    Exclusive settings pre program (fun value state => pre state ∧ good value) pre :=
  attempts_returns (fun _ _ quietly => quietly.advance) steady.stable
    (fun before after quietly _ known => steady before.state after.state quietly.shared known) harmless

theorem exclusive_weaken {stronger weaklyFailed : ClusterState → Prop} {program : Coordination α}
    {post weaker : α → ClusterState → Prop} (exclusive : Exclusive settings pre program post failed)
    (before : ∀ state, Sound settings state → stronger state → pre state)
    (after : ∀ value state, post value state → weaker value state)
    (failing : ∀ state, failed state → weaklyFailed state) :
    Exclusive settings stronger program weaker weaklyFailed :=
  attempts_weaken exclusive (fun _ kept known => before _ kept.sound known)
    (fun value _ _ reached => after value _ reached)
    fun _ _ reached => failing _ reached

theorem exclusive_then {program : Coordination α} {good : α → Prop} {rest : α → Coordination β}
    {post : β → ClusterState → Prop} (steady : Steady pre) (steadyFailed : Steady failed)
    (fails : ∀ state, pre state → failed state) (harmless : Harmless settings program good)
    (second : ∀ value, good value → Exclusive settings pre (rest value) post failed) :
    Exclusive settings pre (program >>= rest) post failed := by
  refine exclusive_bind steadyFailed
    (exclusive_weaken (exclusive_harmless steady harmless) (fun _ _ known => known)
    (fun _ _ reached => reached) fails) fun value => ?_
  intro system kept known
  exact second value known.2 system kept known.1

theorem exclusive_keeps {program : Coordination α} {good : α → Prop} (steady : Steady pre)
    (harmless : Harmless settings program good) : Exclusive settings pre program (fun _ => pre) pre :=
  exclusive_weaken (exclusive_harmless steady harmless) (fun _ _ known => known)
    (fun _ _ known => known.1) fun _ known => known

theorem exclusive_when {takes : Prop} [Decidable takes] {optional : Coordination Unit}
    {rest : Unit → Coordination β} {post : β → ClusterState → Prop} (steady : Steady failed)
    (step : takes → Exclusive settings pre optional (fun _ => pre) failed)
    (second : Exclusive settings pre (rest ()) post failed) :
    Exclusive settings pre (if takes then optional >>= rest else rest ()) post failed := by
  split
  · rename_i taken
    exact exclusive_bind steady (step taken) fun _ => second
  · exact second

theorem exclusive_unless {refuses : Prop} [Decidable refuses] {error : Status}
    {rest : Unit → Coordination α} {post : α → ClusterState → Prop} (steady : Steady pre)
    (steadyFailed : Steady failed) (fails : ∀ state, pre state → failed state)
    (passes : ¬refuses → Exclusive settings pre (rest ()) post failed) :
    Exclusive settings pre (if refuses then throw error >>= rest else rest ()) post failed :=
  attempts_unless Elsewhere.refl steadyFailed.stable steady.stable (fun _ _ known => fails _ known) passes

theorem exclusive_attempt {program : Coordination α} {post : Except Status α → ClusterState → Prop}
    (steady : ∀ result, Steady (post result))
    (attempts : Exclusive settings pre program (fun value => post (.ok value)) fun state =>
      ∀ error, post (.error error) state) : Exclusive settings pre (attempt program) post failed :=
  attempts_attempt Elsewhere.refl (fun result => (steady result).stable) attempts

theorem exclusive_update {decide : Coordinator → Decision α} {post : α → ClusterState → Prop}
    (steady : Steady pre) (steadyPost : ∀ value, Steady (post value)) (steadyFailed : Steady failed)
    (step : ∀ coordinator, Sound settings coordinator.state → pre coordinator.state →
      (∀ next value, decide coordinator = .ok (some next, value) →
        Sound settings next ∧ Advance coordinator.state next ∧ post value next) ∧
      ∀ value, decide coordinator = .ok (none, value) → post value coordinator.state)
    (fails : ∀ state, Sound settings state → pre state → failed state) :
    Exclusive settings pre (update decide) post failed := by
  refine attempts_call steady.stable (fun value => (steadyPost value).stable) steadyFailed.stable ?_
  intro system kept known answer after handled
  obtain ⟨stores, leaves⟩ := step system.service kept.sound known
  obtain ⟨states, answers, errors⟩ := Submits.answered handled
  refine ⟨Submits.kept handled kept fun next value decided =>
    ⟨(stores next value decided).1, (stores next value decided).2.1⟩,
    ?_, fun value same => ?_, fun error same => ?_⟩
  · rcases states with same | ⟨value, decided, _⟩
    · exact (Quietly.same same).advance
    · exact (stores _ _ decided).2.1
  · obtain ⟨stored, decided, same⟩ := answers value same
    cases stored with
    | none =>
        rw [same]
        exact leaves value decided
    | some next =>
        rw [same]
        exact (stores next value decided).2.2
  · rw [errors error same]
    exact fails system.state kept.sound known

/-! What the holder knows while it carries out a change. -/

structure SamePlan (change active : TopologyChange) : Prop where
  changeId : active.changeId = change.changeId
  baseTopology : active.baseTopology = change.baseTopology
  target : active.targetTopology = change.targetTopology

structure Carries (change : TopologyChange) (side : MigrationPhase → Bool) (state : ClusterState) :
    Prop where
  named : ChangeNamed change
  active : ∃ active, state.activeChange = some active ∧ SamePlan change active ∧
    active.phase.isTerminal = false ∧
    side active.phase = true

theorem steady_carries (change : TopologyChange) (side : MigrationPhase → Bool) :
    Steady (Carries change side) := by
  intro before after shared carries
  obtain ⟨active, found, same, going, fits⟩ := carries.active
  obtain ⟨ranges, next⟩ := shared.2 active found going
  exact ⟨carries.named, _, next, ⟨same.changeId, same.baseTopology, same.target⟩, going, fits⟩

/-- Nothing is published yet. -/
abbrev Preparing (change : TopologyChange) : ClusterState → Prop :=
  Carries change MigrationPhase.beforePublication

/-- The target is the committed topology. -/
abbrev Finishing (change : TopologyChange) : ClusterState → Prop :=
  Carries change fun phase => ¬phase.beforePublication

theorem Carries.finishing_target {change : TopologyChange} {state : ClusterState}
    (finishing : Finishing change state)
    (sound : Sound settings state) : state.committed = change.targetTopology := by
  obtain ⟨active, found, same, _, published⟩ := finishing.active
  have late : active.phase.beforePublication = false := by simpa using published
  exact (published_target sound found late).symm.trans same.target

theorem rank_before {phase : MigrationPhase} (before : phase.beforePublication = true) :
    publishedRank phase = 0 := by
  cases phase <;> simp [MigrationPhase.beforePublication, publishedRank] at before ⊢

section Phases

variable {change : TopologyChange}

theorem set_phase_step {side : MigrationPhase → Bool} {phase : MigrationPhase}
    {post : ClusterState → Prop} (steady : Steady post)
    (moves : ∀ old, side old = true → old.isTerminal = false →
      phase.beforePublication = old.beforePublication ∧ publishedRank old ≤ publishedRank phase)
    (reaches : ∀ state next active, Sound settings state → Carries change side state →
      SamePlan change active → OnlyChange state next active { active with phase } → post next) :
    Exclusive settings (Carries change side) (setPhase phase) (fun _ => post) (Carries change side) := by
  refine exclusive_update (steady_carries change side) (fun _ => steady)
    (steady_carries change side) ?_ fun _ _ known => known
  intro coordinator sound carries
  obtain ⟨active, found, same, going, fits⟩ := carries.active
  obtain ⟨before, forward⟩ := moves active.phase fits going
  refine ⟨fun next _ decided => ?_, fun _ decided => ?_⟩
  · have only := set_phase_only decided found before forward
    exact ⟨only.sound sound, only.advance, reaches _ next active sound carries same only⟩
  · unfold ClusterState.setPhase at decided
    rw [found] at decided
    exact absurd decided (by simp)

theorem set_phase_preparing {phase : MigrationPhase} (before : phase.beforePublication = true)
    (going : phase.isTerminal = false) :
    Exclusive settings (Preparing change) (setPhase phase) (fun _ => Preparing change)
      (Preparing change) := by
  refine set_phase_step (steady_carries _ _) (fun old early _ => ?_)
    fun state next active _ carries same only => ?_
  · exact ⟨before.trans early.symm, (rank_before early).le.trans (Nat.zero_le _)⟩
  · obtain ⟨_, _, _, rfl⟩ := only
    exact ⟨carries.named, _, rfl, ⟨same.changeId, same.baseTopology, same.target⟩, going, before⟩

theorem set_phase_aborted :
    Exclusive settings (Preparing change) (setPhase .aborted) (fun _ _ => True) (Preparing change) := by
  refine set_phase_step steady_true (fun old early _ => ?_) fun _ _ _ _ _ _ _ => trivial
  exact ⟨early.symm, (rank_before early).le.trans (Nat.zero_le _)⟩

theorem set_phase_cleaning :
    Exclusive settings (Finishing change) (setPhase .cleaningUp) (fun _ => Finishing change)
      (Finishing change) := by
  refine set_phase_step (steady_carries _ _) (fun old late going => ?_)
    fun state next active _ carries same only => ?_
  · cases old <;>
      simp [MigrationPhase.beforePublication, MigrationPhase.isTerminal, publishedRank] at late going ⊢
  · obtain ⟨_, _, _, rfl⟩ := only
    exact ⟨carries.named, _, rfl, ⟨same.changeId, same.baseTopology, same.target⟩, rfl, rfl⟩

def Committed (change : TopologyChange) (state : ClusterState) : Prop :=
  state.committed = change.targetTopology

theorem steady_committed : Steady (Committed change) := fun _ _ shared known => shared.1.trans known

theorem set_phase_complete :
    Exclusive settings (Finishing change) (setPhase .complete) (fun _ => Committed change)
      (Finishing change) := by
  refine set_phase_step steady_committed (fun old late going => ?_)
    fun state next active sound carries same only => ?_
  · cases old <;>
      simp [MigrationPhase.beforePublication, MigrationPhase.isTerminal, publishedRank] at late going ⊢
  · obtain ⟨_, _, _, rfl⟩ := only
    exact carries.finishing_target sound

theorem same_phase_step {side : MigrationPhase → Bool} {decide : Coordinator → Decision Unit}
    (stores : ∀ coordinator, Sound settings coordinator.state →
      Carries change side coordinator.state → ∀ next,
      decide coordinator = .ok (some next, ()) → Sound settings next ∧ SamePhase coordinator.state next) :
    Exclusive settings (Carries change side) (update decide) (fun _ => Carries change side)
      (Carries change side) := by
  refine exclusive_update (steady_carries _ _) (fun _ => steady_carries _ _) (steady_carries _ _) ?_
    fun _ _ known => known
  intro coordinator sound carries
  refine ⟨fun next _ decided => ?_, fun _ _ => carries⟩
  obtain ⟨nextSound, same⟩ := stores coordinator sound carries next decided
  refine ⟨nextSound, same.advance, carries.named, ?_⟩
  obtain ⟨active, found, plan, going, fits⟩ := carries.active
  obtain ⟨_, ⟨old, edited, active', result, edits, phase⟩, _⟩ := same
  obtain rfl := Option.some.inj (found.symm.trans active')
  exact ⟨edited, result, ⟨edits.changeId.trans plan.changeId, edits.baseTopology.trans plan.baseTopology,
    edits.target.trans plan.target⟩, phase ▸ going, phase ▸ fits⟩

theorem store_stopping_step {nodeId : String} :
    Exclusive settings (Finishing change) (storeStoppingNode nodeId) (fun _ => Finishing change)
      (Finishing change) :=
  same_phase_step fun _ sound _ _ decided => store_stopping_same sound decided

theorem store_stopped_step {nodeId : String}
    (gone : nodeId ∉ change.targetTopology.members.map (·.nodeId)) :
    Exclusive settings (Finishing change) (storeStoppedNode nodeId) (fun _ => Finishing change)
      (Finishing change) := by
  refine same_phase_step fun coordinator sound carries next decided => store_stopped_same sound decided ?_
  rw [carries.finishing_target sound]
  exact gone

theorem store_stop_prepared_step {nodeId processInstanceId : String} (named : nodeId.isEmpty = false)
    (instanceNamed : processInstanceId.isEmpty = false) :
    Exclusive settings (Finishing change) (storeStopPreparedNode nodeId processInstanceId)
      (fun _ => Finishing change)
      (Finishing change) :=
  same_phase_step fun _ sound _ _ decided => store_stop_prepared_same sound decided named instanceNamed

theorem set_activation_ready_step :
    Exclusive settings (Finishing change) setActivationReady (fun _ => Finishing change)
      (Finishing change) := by
  refine same_phase_step fun coordinator sound carries next decided => ?_
  obtain ⟨active, _, only⟩ := set_activation_ready_only decided
  refine ⟨only.sound sound, ?_⟩
  obtain ⟨found, edits, _, rfl⟩ := only
  exact ⟨rfl, ⟨active, _, found, rfl, edits, rfl⟩, .same rfl⟩

theorem publishing_step {decide : Coordinator → Decision α} {post : α → ClusterState → Prop}
    (steady : ∀ value, Steady (post value))
    (stores : ∀ coordinator active, Sound settings coordinator.state →
      coordinator.state.activeChange = some active →
      active.phase.beforePublication = true → SamePlan change active → ∀ next value,
        decide coordinator = .ok (some next, value) → Published settings coordinator.state next active ∧
          (Finishing change next → post value next))
    (leaves : ∀ coordinator value, decide coordinator = .ok (none, value) →
      Preparing change coordinator.state →
      post value coordinator.state) :
    Exclusive settings (Preparing change) (update decide) post (Preparing change) := by
  refine exclusive_update (steady_carries _ _) steady (steady_carries _ _) ?_ fun _ _ known => known
  intro coordinator sound preparing
  obtain ⟨active, found, plan, _, before⟩ := preparing.active
  refine ⟨fun next value decided => ?_, fun value decided => leaves coordinator value decided preparing⟩
  obtain ⟨published, reaches⟩ := stores coordinator active sound found before plan next value decided
  refine ⟨published.sound, published.advance, reaches ⟨preparing.named, ?_⟩⟩
  obtain ⟨result, now, publishes⟩ := published.change
  exact ⟨result, now, ⟨publishes.changeId.trans plan.changeId,
    publishes.baseTopology.trans plan.baseTopology,
    publishes.target.trans plan.target⟩, by rw [publishes.phase]; rfl, by rw [publishes.phase]; rfl⟩

end Phases

/-! Whole operations. Nothing is known after their end. -/

variable (settings) in
def Ends {α : Type} (pre : ClusterState → Prop) (program : Coordination α) : Prop :=
  Exclusive settings pre program (fun _ _ => True) fun _ => True

theorem ends_pure {value : α} (steady : Steady pre) : Ends settings pre (pure value) :=
  exclusive_pure steady fun _ _ => trivial

theorem ends_throw {error : Status} (steady : Steady pre) :
    Ends settings pre (throw error : Coordination α) :=
  exclusive_throw steady fun _ _ => trivial

theorem ends_then {program : Coordination α} {good : α → Prop} {rest : α → Coordination β}
    (steady : Steady pre) (harmless : Harmless settings program good)
    (second : ∀ value, good value → Ends settings pre (rest value)) :
    Ends settings pre (program >>= rest) :=
  exclusive_then steady steady_true (fun _ _ => trivial) harmless second

theorem ends_step {program : Coordination α} {rest : α → Coordination β}
    {middle : α → ClusterState → Prop} (first : Exclusive settings pre program middle failed)
    (second : ∀ value, Ends settings (middle value) (rest value)) :
    Ends settings pre (program >>= rest) :=
  exclusive_bind steady_true (exclusive_weaken first (fun _ _ known => known) (fun _ _ reached => reached)
    fun _ _ => trivial) second

theorem ends_thrown {error : Status} {rest : β → Coordination α} (steady : Steady pre) :
    Ends settings pre (throw error >>= rest) := by
  have thrown : Exclusive settings pre (throw error : Coordination β) (fun _ _ => False) pre :=
    exclusive_throw steady fun _ known => known
  exact ends_step thrown fun _ _ _ impossible => impossible.elim

theorem ends_weaken {stronger : ClusterState → Prop} {program : Coordination α}
    (ends : Ends settings pre program)
    (implies : ∀ state, Sound settings state → stronger state → pre state) :
    Ends settings stronger program :=
  exclusive_weaken ends implies (fun _ _ _ => trivial) fun _ _ => trivial

theorem ends_last {program : Coordination α} {post : α → ClusterState → Prop}
    (last : Exclusive settings pre program post failed) : Ends settings pre program :=
  exclusive_weaken last (fun _ _ known => known) (fun _ _ _ => trivial) fun _ _ => trivial

theorem ends_attempt {program : Coordination α} {rest : Except Status α → Coordination β}
    {middle : α → ClusterState → Prop} (steady : ∀ value, Steady (middle value))
    (steadyFailed : Steady failed) (first : Exclusive settings pre program middle failed)
    (fails : ∀ error, Ends settings failed (rest (.error error)))
    (second : ∀ value, Ends settings (middle value) (rest (.ok value))) :
    Ends settings pre (attempt program >>= rest) := by
  have result : Exclusive settings pre (attempt program)
      (fun | .ok value => middle value | .error _ => failed) fun _ => True := by
    refine exclusive_attempt (fun result => ?_) ?_
    · cases result with
      | error error => exact steadyFailed
      | ok value => exact steady value
    · exact exclusive_weaken first (fun _ _ known => known) (fun _ _ reached => reached)
        fun _ reached _ => reached
  refine ends_step result fun value => ?_
  cases value with
  | error error => exact fails error
  | ok value => exact second value

theorem ends_when {takes : Prop} [Decidable takes] {optional : Coordination Unit}
    {rest : Unit → Coordination β}
    (step : takes → Exclusive settings pre optional (fun _ => pre) failed)
    (second : Ends settings pre (rest ())) :
    Ends settings pre (if takes then optional >>= rest else rest ()) := by
  refine exclusive_when steady_true (fun taken => ?_) second
  exact exclusive_weaken (step taken) (fun _ _ known => known) (fun _ _ known => known) fun _ _ => trivial

theorem ends_unless {refuses : Prop} [Decidable refuses] {error : Status}
    {rest : Unit → Coordination α} (steady : Steady pre)
    (passes : ¬refuses → Ends settings pre (rest ())) :
    Ends settings pre (if refuses then throw error >>= rest else rest ()) :=
  exclusive_unless steady steady_true (fun _ _ => trivial) passes

theorem Carries.congr {change other : TopologyChange} {side : MigrationPhase → Bool}
    {state : ClusterState} (carries : Carries change side state) (named : ChangeNamed other)
    (changeId : other.changeId = change.changeId)
    (baseTopology : other.baseTopology = change.baseTopology)
    (target : other.targetTopology = change.targetTopology) :
    Carries other side state := by
  obtain ⟨active, found, same, going, fits⟩ := carries.active
  exact ⟨named, active, found,
    ⟨same.changeId.trans changeId.symm, same.baseTopology.trans baseTopology.symm,
    same.target.trans target.symm⟩, going, fits⟩

section Operations

variable {change : TopologyChange} {retryTransient : Bool}

theorem finish_abort_ends : Ends settings (Preparing change) (finishAbort settings change) := by
  unfold finishAbort
  refine ends_then (steady_carries _ _) harmless_deadline fun deadline _ => ?_
  refine ends_then (steady_carries _ _) (harmless_talk _) fun _ _ => ?_
  exact ends_last set_phase_aborted

theorem abort_prepublication_ends : Ends settings (Preparing change)
    (abortPrepublicationChange settings change) := by
  unfold abortPrepublicationChange
  refine ends_step (set_phase_preparing rfl rfl) fun _ => ?_
  exact finish_abort_ends

theorem clear_prepublication_harmless : Harmless settings (clearPrepublicationNodes settings change)
    fun _ => True := by
  unfold clearPrepublicationNodes
  refine returns_bind harmless_deadline fun deadline _ => ?_
  exact harmless_talk _

theorem abort_after_error_ends {original : Status} :
    Ends settings (Preparing change) (abortAfterError settings change original retryTransient) := by
  unfold abortAfterError
  split
  · refine ends_step (set_phase_preparing rfl rfl) fun _ => ?_
    refine ends_then (steady_carries _ _) (returns_attempt clear_prepublication_harmless)
      fun cleared _ => ?_
    cases cleared with
    | error cleanup => exact ends_thrown (steady_carries _ _)
    | ok _ => exact ends_thrown (steady_carries _ _)
  · refine ends_attempt (fun _ => steady_true) steady_true abort_prepublication_ends (fun _ => ?_)
      fun _ => ?_
    · exact ends_throw steady_true
    · exact ends_throw steady_true

theorem reset_prepublication_step :
    Exclusive settings (Preparing change) (resetPrepublicationAttempt settings change) Preparing
      (Preparing change) := by
  unfold resetPrepublicationAttempt
  refine exclusive_bind (steady_carries _ _) (set_phase_preparing rfl rfl) fun _ => ?_
  refine exclusive_then (steady_carries _ _) (steady_carries _ _) (fun _ known => known)
    clear_prepublication_harmless
    fun _ _ => ?_
  refine exclusive_update (steady_carries _ _) (fun _ => steady_carries _ _) (steady_carries _ _) ?_
    fun _ _ known => known
  intro coordinator sound preparing
  obtain ⟨active, found, plan, _, before⟩ := preparing.active
  refine ⟨fun next reset decided => ?_, fun reset decided => ?_⟩
  · obtain ⟨only, rfl⟩ := reset_attempt_only decided found before
    have nextSound := only.sound sound
    refine ⟨nextSound, only.advance, ?_⟩
    obtain ⟨_, _, _, rfl⟩ := only
    exact ⟨active_named nextSound rfl, _, rfl, ⟨rfl, rfl, rfl⟩, rfl, rfl⟩
  · unfold ClusterState.resetAttempt at decided
    rw [found] at decided
    exact absurd decided (by simp)

/-! After the publication: only forward. -/

theorem removed_sources_inv {targetIds : List String} (ranges : List RangeMigration)
    {found : FiniteMap String (String × String)} {sources : List RemovedSource}
    (collected : removedSources targetIds ranges found = .ok sources)
    (named : ∀ range ∈ ranges, range.sourceNodeId.isEmpty = false)
    (before : ∀ entry ∈ found.entries, entry.1 ∉ targetIds ∧ entry.1.isEmpty = false ∧
      entry.2.2.isEmpty = false) :
    ∀ source ∈ sources, source.nodeId ∉ targetIds ∧ source.nodeId.isEmpty = false ∧
      source.processInstanceId.isEmpty = false := by
  induction ranges generalizing found with
  | nil =>
      obtain rfl := Except.ok.inj collected
      intro source member
      obtain ⟨entry, listed, rfl⟩ := List.mem_map.mp member
      obtain ⟨kept, inside, rfl⟩ := List.mem_map.mp (mem_nodes_of listed)
      exact before kept inside
  | cons range rest ih =>
      have later : ∀ range ∈ rest, range.sourceNodeId.isEmpty = false :=
        fun other member => named other (List.mem_cons_of_mem _ member)
      unfold removedSources at collected
      split at collected
      · exact ih collected later before
      · rename_i outside
        split at collected
        · exact absurd collected (by simp)
        · rename_i process
          simp only at collected
          split at collected
          · exact absurd collected (by simp)
          · refine ih collected later fun entry member => ?_
            rcases FiniteMap.mem_entries_insert member with rfl | old
            · exact ⟨outside, named range List.mem_cons_self, by simpa using process⟩
            · exact before entry old

section Stopping

variable {source : RemovedSource} {deadline : Instant} {other : TopologyChange}

theorem prepare_removed_source_step (named : source.nodeId.isEmpty = false)
    (instanceNamed : source.processInstanceId.isEmpty = false) :
    Exclusive settings (Finishing change) (prepareRemovedSource other source deadline)
      (fun _ => Finishing change)
      (Finishing change) := by
  have steady := steady_carries change fun phase => ¬phase.beforePublication
  unfold prepareRemovedSource
  split
  · exact exclusive_pure steady fun _ known => known
  · refine exclusive_then steady steady (fun _ known => known) (harmless_talk _) fun _ _ => ?_
    refine exclusive_then steady steady (fun _ known => known) (harmless_talk _) fun actual _ => ?_
    split
    · exact exclusive_pure steady fun _ known => known
    · refine exclusive_then steady steady (fun _ known => known) (harmless_talk _) fun _ _ => ?_
      refine exclusive_bind steady (store_stop_prepared_step named instanceNamed) fun _ => ?_
      exact exclusive_pure steady fun _ known => known

theorem stop_removed_source_step (gone : source.nodeId ∉ change.targetTopology.members.map (·.nodeId))
    (named : source.nodeId.isEmpty = false) (instanceNamed : source.processInstanceId.isEmpty = false) :
    Exclusive settings (Finishing change) (stopRemovedSource other source deadline)
      (fun _ => Finishing change)
      (Finishing change) := by
  have steady := steady_carries change fun phase => ¬phase.beforePublication
  unfold stopRemovedSource
  split
  · exact exclusive_pure steady fun _ known => known
  · refine exclusive_when steady (fun _ => store_stopping_step) ?_
    refine exclusive_bind steady (prepare_removed_source_step named instanceNamed) fun replaced => ?_
    exact exclusive_when steady (fun _ => exclusive_keeps steady (harmless_talk _))
      (store_stopped_step gone)

end Stopping

theorem stop_each_removed_step {deadline : Instant} {other : TopologyChange}
    (sources : List RemovedSource)
    (fit : ∀ source ∈ sources, source.nodeId ∉ change.targetTopology.members.map (·.nodeId) ∧
      source.nodeId.isEmpty = false ∧ source.processInstanceId.isEmpty = false) :
    Exclusive settings (Finishing change) (stopEachRemoved other deadline sources)
      (fun _ => Finishing change)
      (Finishing change) := by
  induction sources with
  | nil => exact exclusive_pure (steady_carries _ _) fun _ known => known
  | cons source rest ih =>
      obtain ⟨gone, named, instanceNamed⟩ := fit source List.mem_cons_self
      unfold stopEachRemoved
      refine exclusive_bind (steady_carries _ _) (stop_removed_source_step gone named instanceNamed)
        fun _ => ?_
      exact ih fun other member => fit other (List.mem_cons_of_mem _ member)

theorem activate_published_step {other : TopologyChange} :
    Exclusive settings (Finishing change) (activatePublished settings other) (fun _ => Finishing change)
      (Finishing change) := by
  have steady := steady_carries change fun phase => ¬phase.beforePublication
  unfold activatePublished
  refine exclusive_when steady (fun _ => exclusive_keeps steady seed_repairs_harmless) ?_
  refine exclusive_bind steady set_activation_ready_step fun _ => ?_
  refine exclusive_then steady steady (fun _ known => known) harmless_deadline fun deadline _ => ?_
  exact exclusive_keeps steady (harmless_talk _)

/-- What the holder knows holds of every state it may start in. -/
theorem ends_known {fact : Prop} {program : Coordination α} (given : ∀ state, pre state → fact)
    (ends : fact → Ends settings pre program) : Ends settings pre program :=
  fun system kept known => ends (given _ known) system kept known

theorem finish_published_ends : Ends settings (Finishing change)
    (finishPublishedChange settings change) := by
  have steady := steady_carries change fun phase => ¬phase.beforePublication
  refine ends_known (fun _ known => known.named) fun named => ?_
  unfold finishPublishedChange
  refine ends_then steady harmless_deadline fun deadline _ => ?_
  refine ends_then steady (harmless_talk _) fun _ _ => ?_
  refine ends_when (fun _ => activate_published_step) ?_
  refine ends_when (fun _ => exclusive_keeps steady (harmless_talk _)) ?_
  refine ends_step set_phase_cleaning fun _ => ?_
  refine ends_then steady (returns_pool fun range member =>
    clean_source_harmless change deadline (named.ranges range (List.mem_filter.mp member).1))
      fun _ _ => ?_
  refine ends_then steady (harmless_except fun sources collected =>
    removed_sources_inv change.ranges collected named.ranges fun _ member =>
      absurd member List.not_mem_nil)
      fun sources fit => ?_
  refine ends_step (stop_each_removed_step sources fit) fun _ => ?_
  refine ends_step set_phase_complete fun _ => ?_
  exact ends_pure steady_committed

theorem finish_recovered_ends : Ends settings (Finishing change)
    (finishRecoveredChange settings change) := by
  have steady := steady_carries change fun phase => ¬phase.beforePublication
  unfold finishRecoveredChange
  refine ends_then steady harmless_look fun original _ => ?_
  cases original with
  | none => exact ends_throw steady
  | some original =>
      refine ends_then steady harmless_deadline fun deadline _ => ?_
      refine ends_then steady (harmless_talk _) fun _ _ => ?_
      refine ends_then steady harmless_look fun safeAt _ => ?_
      refine ends_then steady harmless_sleep fun _ _ => ?_
      refine ends_then steady harmless_deadline fun deadline _ => ?_
      refine ends_then steady (harmless_talk _) fun _ _ => ?_
      refine ends_when (fun _ => exclusive_keeps steady seed_repairs_harmless) ?_
      refine ends_step set_activation_ready_step fun _ => ?_
      refine ends_then steady harmless_deadline fun deadline _ => ?_
      refine ends_then steady (harmless_talk _) fun _ _ => ?_
      refine ends_step set_phase_complete fun _ => ?_
      exact ends_pure steady_committed

theorem install_on_removed_step {target : TopologySnapshot} {deadline : Instant}
    (members : List Member) {stopped : List String}
    (gone : ∀ member ∈ members, member.nodeId ∉ change.targetTopology.members.map (·.nodeId)) :
    Exclusive settings (Finishing change) (installOnRemoved target deadline stopped members)
      (fun _ => Finishing change)
      (Finishing change) := by
  have steady := steady_carries change fun phase => ¬phase.beforePublication
  induction members generalizing stopped with
  | nil => exact exclusive_pure steady fun _ known => known
  | cons member rest ih =>
      have later := fun other inside => gone other (List.mem_cons_of_mem member inside)
      unfold installOnRemoved
      split
      · exact ih later
      · refine exclusive_then steady steady (fun _ known => known)
          (returns_attempt (harmless_talk _)) fun installed _ => ?_
        cases installed with
        | ok _ => exact ih later
        | error error =>
            simp only
            split
            · exact exclusive_bind steady (store_stopped_step (gone member List.mem_cons_self))
                fun _ => ih later
            · exact exclusive_throw steady fun _ known => known

theorem stop_prepared_step {member : Member} {processInstanceId : String} {deadline : Instant}
    (named : member.nodeId.isEmpty = false) (instanceNamed : processInstanceId.isEmpty = false) :
    Exclusive settings (Finishing change) (stopPrepared member processInstanceId deadline)
      (fun _ => Finishing change)
      (Finishing change) := by
  have steady := steady_carries change fun phase => ¬phase.beforePublication
  unfold stopPrepared
  refine exclusive_bind steady (store_stop_prepared_step named instanceNamed) fun _ => ?_
  refine exclusive_then steady steady (fun _ known => known) (returns_attempt (harmless_talk _))
    fun stopped _ => ?_
  cases stopped with
  | ok _ => exact exclusive_pure steady fun _ known => known
  | error error =>
      simp only
      split
      · exact exclusive_pure steady fun _ known => known
      · exact exclusive_throw steady fun _ known => known

theorem stop_member_step {member : Member} {deadline : Instant} (named : member.nodeId.isEmpty = false)
    (gone : member.nodeId ∉ change.targetTopology.members.map (·.nodeId)) :
    Exclusive settings (Finishing change) (stopMember member deadline) (fun _ => Finishing change)
      (Finishing change) := by
  have steady := steady_carries change fun phase => ¬phase.beforePublication
  have seen : Harmless settings
      (observe fun coordinator => coordinator.state.processInstances.lookup member.nodeId)
      fun registered => ∀ processInstanceId, registered = some processInstanceId →
        processInstanceId.isEmpty = false :=
    harmless_observe fun _ kept _ found =>
      (kept.sound.valid.instances _ ((FiniteMap.lookup_some_iff _ _ _).mp found)).2
  unfold stopMember
  refine exclusive_then steady steady (fun _ known => known) seen fun registered instanceNamed => ?_
  cases registered with
  | none => exact store_stopped_step gone
  | some processInstanceId =>
      refine exclusive_bind steady store_stopping_step fun _ => ?_
      refine exclusive_then steady steady (fun _ known => known) (harmless_talk _) fun asked _ => ?_
      exact exclusive_when steady (fun _ => stop_prepared_step named (instanceNamed _ rfl))
        (store_stopped_step gone)

theorem stop_each_member_step {stopped : List String} {deadline : Instant} (members : List Member)
    (fit : ∀ member ∈ members, member.nodeId.isEmpty = false ∧
      member.nodeId ∉ change.targetTopology.members.map (·.nodeId)) :
    Exclusive settings (Finishing change) (stopEachMember stopped deadline members)
      (fun _ => Finishing change)
      (Finishing change) := by
  induction members with
  | nil => exact exclusive_pure (steady_carries _ _) fun _ known => known
  | cons member rest ih =>
      obtain ⟨named, gone⟩ := fit member List.mem_cons_self
      unfold stopEachMember
      refine exclusive_when (steady_carries _ _) (fun _ => stop_member_step named gone) ?_
      exact ih fun other inside => fit other (List.mem_cons_of_mem _ inside)

theorem finish_direct_merge_ends : Ends settings (Finishing change)
    (finishDirectMerge settings change) := by
  have steady := steady_carries change fun phase => ¬phase.beforePublication
  refine ends_known (fun _ known => known.named) fun named => ?_
  unfold finishDirectMerge
  refine ends_then steady harmless_deadline fun deadline _ => ?_
  cases found : change.baseTopology with
  | none => exact ends_throw steady
  | some base =>
      have fit : ∀ member ∈ removedMembers base change.targetTopology, member.nodeId.isEmpty = false ∧
          member.nodeId ∉ change.targetTopology.members.map (·.nodeId) := by
        intro member listed
        obtain ⟨inside, gone⟩ := List.mem_filter.mp listed
        exact ⟨named.base base found member inside, of_decide_eq_true gone⟩
      refine ends_step (install_on_removed_step _ fun member listed => (fit member listed).2)
        fun stopped => ?_
      refine ends_then steady (harmless_talk _) fun _ _ => ?_
      refine ends_step set_phase_cleaning fun _ => ?_
      refine ends_step (stop_each_member_step _ fit) fun _ => ?_
      refine ends_step set_phase_complete fun _ => ?_
      exact ends_pure steady_committed

theorem forget_node_ends {nodeId : String}
    (gone : nodeId ∉ change.targetTopology.members.map (·.nodeId)) :
    Exclusive settings (Committed change) (modify fun memory => ((), forgetNode nodeId memory))
      (fun _ => Committed change)
      (Committed change) := by
  intro system _ known later shared kept answer after handled
  obtain ⟨rfl, rfl⟩ := handled
  have committed := steady_committed _ _ shared known
  have outside : nodeId ∉ later.state.committed.members.map (·.nodeId) := by
    rw [committed]
    exact gone
  refine ⟨kept.forget outside, (Quietly.same rfl).advance, fun end_ passed _ => ?_⟩
  exact ⟨fun _ _ => steady_committed _ _ passed committed, fun _ same => absurd same (by simp)⟩

theorem finish_failed_ends : Ends settings (Finishing change) (finishFailedChange settings change) := by
  have steady := steady_carries change fun phase => ¬phase.beforePublication
  refine ends_known (fun _ known => known.named) fun named => ?_
  unfold finishFailedChange
  refine ends_then steady harmless_deadline fun deadline _ => ?_
  refine ends_then steady (harmless_talk _) fun _ _ => ?_
  refine ends_step set_phase_complete fun _ => ?_
  cases found : change.failedNodeId with
  | none => exact ends_pure steady_committed
  | some nodeId =>
      refine ends_step (forget_node_ends (named.failed nodeId found)) fun _ => ?_
      exact ends_pure steady_committed

end Operations

end Coordination
end Hashring
