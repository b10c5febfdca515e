import Hashring.LockHolder

/-! The operations under the execution lock from their start: whatever they find,
every store they make keeps the coordinator's invariant. -/
namespace Hashring
namespace Coordination

open CoordinatorSystem ClusterState Program

variable {settings : CoordinatorSettings} {α : Type} {pre failed : ClusterState → Prop}

theorem exclusive_known {fact : Prop} {program : Coordination α} {post : α → ClusterState → Prop}
    (given : ∀ state, Sound settings state → pre state → fact)
    (exclusive : fact → Exclusive settings pre program post failed) :
    Exclusive settings pre program post failed :=
  fun system kept known => exclusive (given _ kept.sound known) system kept known

theorem exclusive_observe {read : Coordinator → α} {post : α → ClusterState → Prop} (steady : Steady pre)
    (steadyPost : ∀ value, Steady (post value))
    (seen : ∀ coordinator, Sound settings coordinator.state → pre coordinator.state →
      post (read coordinator) coordinator.state) : Exclusive settings pre (observe read) post failed := by
  intro system _ known later shared kept answer after handled
  obtain ⟨rfl, rfl⟩ := handled
  have found := seen later.service kept.sound (steady _ _ shared known)
  refine ⟨kept.observe, (Quietly.same rfl).advance, fun end_ passed _ =>
    ⟨fun value same => ?_, fun _ same => absurd same (by simp)⟩⟩
  exact Except.ok.inj same ▸ steadyPost _ _ _ passed found

section Operations

variable {change : TopologyChange} {retryTransient : Bool}

theorem ChangeNamed.with_phase {phase : MigrationPhase} {activationReady : Bool}
    (named : ChangeNamed change) :
    ChangeNamed { change with phase, activationReady } :=
  ⟨named.ranges, named.base, named.target, named.failed⟩

theorem Carries.with_phase {side : MigrationPhase → Bool} {phase : MigrationPhase}
    {activationReady : Bool} {state : ClusterState} (carries : Carries change side state) :
    Carries { change with phase, activationReady } side state :=
  carries.congr carries.named.with_phase rfl rfl rfl

/-! A change of configuration. -/

theorem publish_policy_step :
    Exclusive settings (Preparing change)
      (update fun coordinator => coordinator.state.publishPolicy change)
      (fun _ => Finishing change) (Preparing change) := by
  refine publishing_step (fun _ => steady_carries _ _)
    (fun coordinator active sound found before plan next _ decided => ?_) ?_
  · exact ⟨publish_policy_published sound found before plan.target.symm decided, fun finishing =>
      finishing⟩
  · intro coordinator _ decided preparing
    obtain ⟨active, found, _⟩ := preparing.active
    unfold ClusterState.publishPolicy at decided
    rw [found] at decided
    simp only at decided
    split at decided
    · exact absurd decided (by simp)
    · obtain ⟨next, _, decided⟩ := bind_ok_iff.mp decided
      exact absurd (Prod.mk.inj (Except.ok.inj decided)).1 (by simp)

theorem execute_policy_change_ends :
    Ends settings (Preparing change) (executePolicyChange settings change retryTransient) := by
  have steady := steady_carries change MigrationPhase.beforePublication
  unfold executePolicyChange
  refine ends_then steady harmless_deadline fun deadline _ => ?_
  refine ends_step (set_phase_preparing rfl rfl) fun _ => ?_
  refine ends_then steady (returns_attempt (harmless_talk _)) fun fenced _ => ?_
  cases fenced with
  | error error => exact abort_after_error_ends
  | ok _ =>
  refine ends_attempt (fun _ => steady) steady (set_phase_preparing rfl rfl)
    (fun _ => abort_after_error_ends) fun _ => ?_
  refine ends_then steady (await_policy_readiness_harmless change deadline) fun waited _ => ?_
  cases waited with
  | some failure => exact abort_after_error_ends
  | none =>
  refine ends_attempt (fun _ => steady) steady (set_phase_preparing rfl rfl)
    (fun _ => abort_after_error_ends) fun _ => ?_
  refine ends_then steady (returns_attempt (recheck_policy_readiness_harmless change)) fun checked _ => ?_
  cases checked with
  | error error => exact abort_after_error_ends
  | ok _ =>
  refine ends_attempt (fun _ => steady_carries _ _) steady publish_policy_step
    (fun _ => abort_after_error_ends) fun _ => ?_
  exact ends_weaken finish_published_ends fun _ _ finishing => finishing.with_phase

/-! A range copy. -/

theorem replace_progress_named {progress : RangeMigration} (named : ChangeNamed change)
    (source : progress.sourceNodeId.isEmpty = false) :
    ChangeNamed (replaceRangeProgress change progress) := by
  refine ⟨fun range member => ?_, named.base, named.target, named.failed⟩
  unfold replaceRangeProgress at member
  cases found : replaceFirst (fun range => range.rangeId = progress.rangeId)
    (fun _ => progress) change.ranges with
  | none =>
      rw [found] at member
      exact named.ranges range member
  | some ranges =>
      rw [found] at member
      rcases mem_replace_first found member with old | ⟨_, _, _, rfl⟩
      · exact named.ranges range old
      · exact source

theorem Carries.with_progress {side : MigrationPhase → Bool} {state : ClusterState}
    (progresses : List RangeMigration)
    (sources : ∀ progress ∈ progresses, progress.sourceNodeId.isEmpty = false)
    (carries : Carries change side state) :
    Carries (progresses.foldl replaceRangeProgress change) side state := by
  induction progresses generalizing change with
  | nil => exact carries
  | cons progress rest ih =>
      refine ih (fun other member => sources other (List.mem_cons_of_mem _ member)) ?_
      exact carries.congr (replace_progress_named carries.named
        (sources progress List.mem_cons_self)) rfl rfl rfl

/-- The publication of a range copy, or the destination that spoils it. -/
theorem publish_copied_step {destinations : FiniteMap String (String × String)} :
    Exclusive settings (Preparing change)
      (update fun coordinator => coordinator.state.publishCopied change destinations)
      (fun | some _ => Preparing change | none => Finishing change) (Preparing change) := by
  refine publishing_step (fun changed => ?_)
    (fun coordinator active sound found before plan next changed decided => ?_) ?_
  · cases changed with
    | none => exact steady_carries _ _
    | some nodeId => exact steady_carries _ _
  · refine ⟨publish_copied_published sound found before decided, fun finishing => ?_⟩
    unfold ClusterState.publishCopied at decided
    split at decided
    · exact absurd decided (by simp)
    · rw [found] at decided
      simp only at decided
      split at decided
      · exact absurd decided (by simp)
      · obtain ⟨_, _, decided⟩ := bind_ok_iff.mp decided
        obtain rfl := (Prod.mk.inj (Except.ok.inj decided)).2
        exact finishing
  · intro coordinator changed decided preparing
    obtain ⟨active, found, _⟩ := preparing.active
    unfold ClusterState.publishCopied at decided
    split at decided
    · obtain rfl := (Prod.mk.inj (Except.ok.inj decided)).2
      exact preparing
    · rw [found] at decided
      simp only at decided
      split at decided
      · exact absurd decided (by simp)
      · obtain ⟨_, _, decided⟩ := bind_ok_iff.mp decided
        exact absurd (Prod.mk.inj (Except.ok.inj decided)).1 (by simp)

theorem execute_copy_change_ends :
    Ends settings (Preparing change) (executeCopyChange settings change retryTransient) := by
  refine ends_known (fun _ known => known.named) fun named => ?_
  unfold executeCopyChange
  refine ends_then (steady_carries _ _) harmless_deadline fun deadline _ => ?_
  refine ends_step (set_phase_preparing rfl rfl) fun _ => ?_
  refine ends_then (steady_carries _ _) (returns_attempt (returns_pool fun range member =>
    copy_and_store_harmless change deadline (named.ranges range member))) fun copied sources => ?_
  cases copied with
  | error error => exact abort_after_error_ends
  | ok copied =>
  refine ends_weaken ?_ fun _ _ preparing => preparing.with_progress copied (sources copied rfl)
  refine ends_known (fun _ known => known.named) fun named => ?_
  refine ends_step (set_phase_preparing rfl rfl) fun _ => ?_
  refine ends_step (set_phase_preparing rfl rfl) fun _ => ?_
  refine ends_then (steady_carries _ _) (returns_attempt (harmless_talk _)) fun watermarks _ => ?_
  cases watermarks with
  | error error => exact abort_after_error_ends
  | ok watermarks =>
  refine ends_attempt (fun _ => steady_carries _ _) (steady_carries _ _) (set_phase_preparing rfl rfl)
    (fun _ => abort_after_error_ends) fun _ => ?_
  refine ends_then (steady_carries _ _) (returns_attempt (returns_pool fun range member =>
    finalize_and_store_harmless _ watermarks deadline (named.ranges range member)))
      fun finalized sources => ?_
  cases finalized with
  | error error => exact abort_after_error_ends
  | ok finalized =>
  refine ends_weaken ?_ fun _ _ preparing => preparing.with_progress finalized (sources finalized rfl)
  refine ends_step (set_phase_preparing rfl rfl) fun _ => ?_
  refine ends_then (steady_carries _ _) (returns_attempt (harmless_talk _)) fun verified _ => ?_
  cases verified with
  | error error => exact abort_after_error_ends
  | ok _ =>
  refine ends_then (steady_carries _ _) (harmless_except fun _ _ => trivial) fun destinations _ => ?_
  refine ends_step publish_copied_step fun changed => ?_
  cases changed with
  | some nodeId => exact abort_after_error_ends
  | none => exact ends_weaken finish_published_ends fun _ _ finishing => finishing.with_phase

/-! A direct merge. -/

theorem prepare_merge_coverage_step :
    Exclusive settings (Preparing change) (prepareDirectMergeCoverage settings change)
      (fun _ => Preparing change)
      (Preparing change) := by
  have steady := steady_carries change MigrationPhase.beforePublication
  unfold prepareDirectMergeCoverage
  refine exclusive_then steady steady (fun _ known => known) cleanup_interrupted_harmless fun _ _ => ?_
  refine exclusive_then steady steady (fun _ known => known) harmless_read fun snapshot _ => ?_
  refine exclusive_unless steady steady (fun _ known => known) fun _ => ?_
  refine exclusive_then steady steady (fun _ known => known) (harmless_except fun _ _ => trivial)
    fun missing _ => ?_
  split
  · exact exclusive_pure steady fun _ known => known
  · refine exclusive_bind steady (set_phase_preparing rfl rfl) fun _ => ?_
    refine exclusive_then steady steady (fun _ known => known) (harmless_except fun _ _ => trivial)
      fun groups _ => ?_
    refine exclusive_then steady steady (fun _ known => known)
      (returns_pool fun tasks _ => seed_replica_group_harmless tasks) fun _ _ => ?_
    refine exclusive_then steady steady (fun _ known => known) harmless_read fun state _ => ?_
    split
    · exact exclusive_throw steady fun _ known => known
    · exact exclusive_pure steady fun _ known => known

theorem publish_merged_step {snapshot : ClusterState} {admissions : List ReplicaAdmission}
    (fits : RemovalPublication.Fits (.graceful admissions)) :
    Exclusive settings (Preparing change)
      (update fun coordinator => coordinator.state.publishMerged snapshot change admissions)
      (fun _ => Finishing change)
      (Preparing change) := by
  refine publishing_step (fun _ => steady_carries _ _)
    (fun coordinator active sound found before plan next _ decided => ?_) ?_
  · exact ⟨publish_merged_published sound found before plan.target.symm fits decided,
      fun finishing => finishing⟩
  · intro coordinator _ decided _
    unfold ClusterState.publishMerged at decided
    simp only [unless_thrown_ok] at decided
    obtain ⟨_, decided⟩ := decided
    obtain ⟨_, _, decided⟩ := bind_ok_iff.mp decided
    exact absurd (Prod.mk.inj (Except.ok.inj decided)).1 (by simp)

theorem Carries.valid_target {side : MigrationPhase → Bool} {state : ClusterState}
    (carries : Carries change side state)
    (sound : Sound settings state) :
    change.targetTopology.validate settings.hashing settings.digestOf = .ok () := by
  obtain ⟨active, found, plan, _⟩ := carries.active
  rw [← plan.target]
  exact (sound.valid.change active found).target

variable (digests : ∀ bytes, settings.hashing.blake3 bytes ≠ [])

include digests in
theorem cut_over_merge_step {deadline : Instant} :
    Exclusive settings (Preparing change) (cutOverDirectMerge settings change deadline)
      (fun _ => Finishing change)
      (Preparing change) := by
  have steady := steady_carries change MigrationPhase.beforePublication
  refine exclusive_known (fun _ sound preparing => preparing.valid_target sound) fun target => ?_
  unfold cutOverDirectMerge
  refine exclusive_then steady steady (fun _ known => known) (harmless_talk _) fun _ _ => ?_
  refine exclusive_bind steady (set_phase_preparing rfl rfl) fun _ => ?_
  refine exclusive_then steady steady (fun _ known => known) harmless_read fun snapshot sound => ?_
  refine exclusive_unless steady steady (fun _ known => known) fun _ => ?_
  refine exclusive_then steady steady (fun _ known => known) harmless_look fun seen _ => ?_
  refine exclusive_then steady steady (fun _ known => known) (harmless_except fun _ _ => trivial)
    fun _ _ => ?_
  refine exclusive_then steady steady (fun _ known => known)
    (harmless_except fun _ proved => proved) fun proof proved => ?_
  refine exclusive_then steady steady (fun _ known => known) store_timings_harmless fun _ _ => ?_
  refine exclusive_then steady steady (fun _ known => known)
    (catch_up_required_harmless snapshot deadline _) fun _ _ => ?_
  refine exclusive_then steady steady (fun _ known => known) (harmless_talk _) fun caughtUp _ => ?_
  refine exclusive_bind steady (set_phase_preparing rfl rfl) fun _ => ?_
  exact publish_merged_step (merge_proof_fits digests sound target proved)

include digests in
theorem execute_direct_merge_ends :
    Ends settings (Preparing change) (executeDirectMerge settings change retryTransient) := by
  have steady := steady_carries change MigrationPhase.beforePublication
  unfold executeDirectMerge
  refine ends_attempt (fun _ => steady) steady prepare_merge_coverage_step (fun error => ?_) fun _ => ?_
  · refine ends_then steady cleanup_interrupted_harmless fun _ _ => ?_
    simp only
    split
    · refine ends_step set_phase_aborted fun _ => ?_
      exact ends_throw steady_true
    · exact ends_throw steady
  · refine ends_then steady harmless_deadline fun deadline _ => ?_
    refine ends_step (set_phase_preparing rfl rfl) fun _ => ?_
    refine ends_attempt (fun _ => steady_carries _ _) steady (cut_over_merge_step digests)
      (fun _ => abort_after_error_ends) fun _ => ?_
    exact ends_weaken finish_direct_merge_ends fun _ _ finishing => finishing.with_phase

/-! The removal of a failed member. -/

theorem publish_failed_step {failedNodeId : String} :
    Exclusive settings (Preparing change) (update (publishFailed change failedNodeId))
      (fun _ => Finishing change)
      (Preparing change) := by
  refine publishing_step (fun _ => steady_carries _ _)
    (fun coordinator active sound found before plan next _ decided => ?_) ?_
  · exact ⟨publish_failed_published sound found before plan.target.symm decided, fun finishing =>
      finishing⟩
  · intro coordinator _ decided _
    unfold ClusterState.publishFailed at decided
    obtain ⟨_, _, decided⟩ := bind_ok_iff.mp decided
    simp only [unless_thrown_ok] at decided
    obtain ⟨_, decided⟩ := decided
    obtain ⟨_, _, decided⟩ := bind_ok_iff.mp decided
    exact absurd (Prod.mk.inj (Except.ok.inj decided)).1 (by simp)

theorem remove_failed_ends {failedNodeId : String} : Ends settings (Preparing change) (do
    cleanupInterruptedRepairs settings
    let safeAt ← observe fun coordinator =>
      let memory := coordinator.memory
      max (((memory.leaseGrants.lookup failedNodeId).map (·.expiresAt)).getD memory.startupAt)
        (memory.startupAt + memory.leaseDuration)
    sleepUntil safeAt
    update (ClusterState.publishFailed change failedNodeId)
    finishFailedChange settings { change with phase := .published }) := by
  have steady := steady_carries change MigrationPhase.beforePublication
  refine ends_then steady cleanup_interrupted_harmless fun _ _ => ?_
  refine ends_then steady harmless_look fun safeAt _ => ?_
  refine ends_then steady harmless_sleep fun _ _ => ?_
  refine ends_step publish_failed_step fun _ => ?_
  exact ends_weaken finish_failed_ends fun _ _ finishing => finishing.with_phase

/-- The change as it was read; the others leave it alone unless it is over. -/
def Read (change : TopologyChange) (state : ClusterState) : Prop :=
  change.phase.isTerminal = false → Carries change (fun phase => phase = change.phase) state

theorem steady_read : Steady (Read change) :=
  fun before after shared known going => steady_carries _ _ before after shared (known going)

theorem read_active {state : ClusterState} (sound : Sound settings state)
    (found : state.activeChange = some change) :
    Read change state :=
  fun going => ⟨active_named sound found, change, found, ⟨rfl, rfl, rfl⟩, going, decide_eq_true rfl⟩

theorem Read.preparing {state : ClusterState} (known : Read change state)
    (going : change.phase.isTerminal = false)
    (before : change.phase.beforePublication = true) : Preparing change state := by
  obtain ⟨named, active, found, plan, running, same⟩ := known going
  exact ⟨named, active, found, plan, running, by rw [of_decide_eq_true same]; exact before⟩

theorem Read.finishing {state : ClusterState} (known : Read change state)
    (going : change.phase.isTerminal = false)
    (late : change.phase.beforePublication = false) : Finishing change state := by
  obtain ⟨named, active, found, plan, running, same⟩ := known going
  exact ⟨named, active, found, plan, running, by rw [of_decide_eq_true same]; simp [late]⟩

theorem execute_failed_change_ends {failedNodeId : String} :
    Ends settings (Read change) (executeFailedChange settings change failedNodeId) := by
  unfold executeFailedChange
  split
  · exact ends_pure steady_read
  · rename_i phase
    exact ends_weaken finish_failed_ends fun _ _ known => known.finishing (by rw [phase]; rfl)
      (by rw [phase]; rfl)
  · rename_i phase
    exact ends_weaken finish_failed_ends fun _ _ known => known.finishing (by rw [phase]; rfl) (by rw [phase]; rfl)
  · exact ends_throw steady_read
  · rename_i complete published cleaning aborted
    refine ends_weaken remove_failed_ends fun _ _ known => ?_
    apply known.preparing
    · cases phase : change.phase <;> simp_all [MigrationPhase.isTerminal]
    · cases phase : change.phase <;> simp_all [MigrationPhase.beforePublication]

include digests in
theorem start_attempt_ends : Ends settings (Preparing change) (startAttempt settings change retryTransient) := by
  unfold startAttempt
  split
  · exact execute_direct_merge_ends digests
  · refine ends_then (steady_carries _ _) harmless_read fun state _ => ?_
    split
    · exact execute_policy_change_ends
    · exact execute_copy_change_ends

include digests in
theorem execute_active_ends : Ends settings (Read change) (executeActive settings change retryTransient) := by
  have again : Ends settings (Preparing change) (do
      let reset ← resetPrepublicationAttempt settings change
      startAttempt settings reset retryTransient) :=
    ends_step reset_prepublication_step fun reset => start_attempt_ends digests
  have finish : Ends settings (Finishing change)
      (if change.directMerge then finishDirectMerge settings change
        else if change.supersedesChangeId.isSome then finishRecoveredChange settings change
        else finishPublishedChange settings change) := by
    split
    · exact finish_direct_merge_ends
    · split
      · exact finish_recovered_ends
      · exact finish_published_ends
  unfold executeActive
  cases phase : change.phase with
  | complete => exact ends_pure steady_read
  | aborted => exact ends_throw steady_read
  | aborting =>
      refine ends_weaken ?_ fun _ _ known => known.preparing (by rw [phase]; rfl) (by rw [phase]; rfl)
      refine ends_step finish_abort_ends fun _ => ?_
      exact ends_pure steady_true
  | published =>
      exact ends_weaken finish fun _ _ known => known.finishing (by rw [phase]; rfl) (by rw [phase]; rfl)
  | cleaningUp =>
      exact ends_weaken finish fun _ _ known => known.finishing (by rw [phase]; rfl) (by rw [phase]; rfl)
  | planned =>
      exact ends_weaken (start_attempt_ends digests) fun _ _ known =>
        known.preparing (by rw [phase]; rfl) (by rw [phase]; rfl)
  | resetting =>
      exact ends_weaken again fun _ _ known => known.preparing (by rw [phase]; rfl) (by rw [phase]; rfl)
  | copyingSnapshot =>
      exact ends_weaken again fun _ _ known => known.preparing (by rw [phase]; rfl) (by rw [phase]; rfl)
  | replayingChangelog =>
      exact ends_weaken again fun _ _ known => known.preparing (by rw [phase]; rfl) (by rw [phase]; rfl)
  | pausingWrites =>
      exact ends_weaken again fun _ _ known => known.preparing (by rw [phase]; rfl) (by rw [phase]; rfl)
  | verifying =>
      exact ends_weaken again fun _ _ known => known.preparing (by rw [phase]; rfl) (by rw [phase]; rfl)
  | readyToPublish =>
      exact ends_weaken again fun _ _ known => known.preparing (by rw [phase]; rfl) (by rw [phase]; rfl)

end Operations

/-! From the lock on. -/

theorem observe_active_step : Exclusive settings (fun _ => True) (observe (·.state.activeChange))
    (fun active state => ∀ change, active = some change → Read change state) fun _ => True :=
  exclusive_observe steady_true (fun _ _ _ shared known change same => steady_read _ _ shared
    (known change same))
    fun _ sound _ _ found => read_active sound found

theorem execute_change_ends (digests : ∀ bytes, settings.hashing.blake3 bytes ≠ [])
    (expected : ChangeIdentity)
    (retryTransient : Bool) : Ends settings (fun _ => True)
      (executeChange settings expected retryTransient) := by
  unfold executeChange
  refine ends_step observe_active_step fun active => ?_
  cases active with
  | none => exact ends_throw fun _ _ _ _ _ same => absurd same (by simp)
  | some change =>
      refine ends_weaken ?_ fun _ _ known => known change rfl
      refine ends_unless steady_read fun _ => ?_
      cases change.failedNodeId with
      | some failedNodeId => exact execute_failed_change_ends
      | none => exact execute_active_ends digests

theorem forget_outages_harmless : Harmless settings forgetOutages fun _ => True :=
  harmless_modify (fun _ => ⟨rfl, rfl, rfl⟩) fun _ => trivial

theorem recover_unpublished_ends {change : TopologyChange} {failedNodeId : String}
    (going : change.phase.isTerminal = false)
    (unfinished : change.phase ≠ .published ∨ change.activationReady = true) :
    Ends settings (Read change) (recoverUnpublished settings change failedNodeId) := by
  unfold recoverUnpublished
  simp only
  split
  · rename_i joins
    obtain ⟨waiting, _, uncleaned, _⟩ := joins
    have before : change.phase.beforePublication = true := by
      have unpublished := unfinished.resolve_right waiting
      cases phase : change.phase <;>
        simp_all [MigrationPhase.beforePublication, MigrationPhase.isTerminal]
    refine ends_weaken ?_ fun _ _ known => known.preparing going before
    refine ends_step abort_prepublication_ends fun _ => ?_
    refine ends_then steady_true set_recovery_block_reason_harmless fun _ _ => ?_
    exact ends_last (exclusive_keeps steady_true forget_outages_harmless)
  · exact ends_last (exclusive_keeps steady_read set_recovery_block_reason_harmless)

theorem publish_recovery_step {state : ClusterState} {change planned : TopologyChange}
    {changeId failedNodeId : String}
    {members : List Member} (published : change.phase = .published) (named : failedNodeId.isEmpty = false)
    (accepted : TopologyChange.plan settings.hashing settings.digestOf changeId state.committed
      members = .ok planned) :
    let recovery := { planned with ranges := [], phase := .published, supersedesChangeId := some change.changeId }
    Exclusive settings (Read change)
      (update fun coordinator => coordinator.state.publishRecovery state change recovery failedNodeId)
      (fun stored later => stored = true → Finishing recovery later) fun _ => True := by
  refine exclusive_update steady_read
    (fun _ _ _ shared known stored => steady_carries _ _ _ _ shared (known stored))
    steady_true ?_ fun _ _ _ => trivial
  intro coordinator sound known
  obtain ⟨_, active, found, plan, _, same⟩ := known (by rw [published]; rfl)
  have live : active.phase = .published := (of_decide_eq_true same).trans published
  refine ⟨fun next answer decided => ?_, fun answer decided stored => ?_⟩
  · have answer_true : answer = true := by
      unfold ClusterState.publishRecovery at decided
      split at decided
      · exact absurd decided (by simp)
      · obtain ⟨_, _, decided⟩ := bind_ok_iff.mp decided
        exact (Prod.mk.inj (Except.ok.inj decided)).2.symm
    subst answer_true
    obtain ⟨nextSound, advance, _, result⟩ :=
      publish_recovery_advance sound found plan.changeId plan.target live published named accepted decided
    exact ⟨nextSound, advance, fun _ => ⟨active_named nextSound result, _, result, ⟨rfl, rfl, rfl⟩,
      rfl, rfl⟩⟩
  · unfold ClusterState.publishRecovery at decided
    split at decided
    · obtain ⟨_, rfl⟩ := Prod.mk.inj (Except.ok.inj decided)
      exact absurd stored (by simp)
    · obtain ⟨_, _, decided⟩ := bind_ok_iff.mp decided
      exact absurd (Prod.mk.inj (Except.ok.inj decided)).1 (by simp)

theorem recover_published_ends {state : ClusterState} {change : TopologyChange} {base : TopologySnapshot}
    {failedNodeId : String} (published : change.phase = .published)
    (named : failedNodeId.isEmpty = false) :
    Ends settings (Read change) (recoverPublished settings state change base failedNodeId) := by
  unfold recoverPublished
  refine ends_then steady_read harmless_deadline fun deadline _ => ?_
  refine ends_then steady_read (harmless_talk _) fun _ _ => ?_
  refine ends_then steady_read harmless_fresh fun changeId _ => ?_
  refine ends_then steady_read (harmless_except fun _ accepted => mapped_ok accepted)
    fun planned accepted => ?_
  refine ends_step (publish_recovery_step published named accepted) fun stored => ?_
  cases stored with
  | false => exact ends_pure fun _ _ _ _ impossible => absurd impossible (by simp)
  | true =>
      refine ends_weaken ?_ fun _ _ known => known rfl
      refine ends_then (steady_carries _ _) forget_outages_harmless fun _ _ => ?_
      refine ends_step finish_recovered_ends fun _ => ?_
      exact ends_pure steady_true

theorem recover_pending_change_failure_ends {failedNodeId : String} (expected : ChangeIdentity)
    (named : failedNodeId.isEmpty = false) :
    Ends settings (fun _ => True) (recoverPendingChangeFailure settings expected failedNodeId) := by
  unfold recoverPendingChangeFailure
  have seen : Exclusive settings (fun _ => True) readState
      (fun state later => ∀ change, state.activeChange = some change → Read change later) fun _ => True :=
    exclusive_observe steady_true (fun _ _ _ shared known change same => steady_read _ _ shared
      (known change same))
      fun _ sound _ _ found => read_active sound found
  refine ends_step seen fun state => ?_
  cases found : state.activeChange with
  | none => exact ends_pure fun _ _ _ _ _ same => absurd same (by simp)
  | some change =>
      refine ends_weaken ?_ fun _ _ known => known change rfl
      simp only
      split
      · exact ends_pure steady_read
      · rename_i current
        obtain ⟨_, going⟩ := not_or.mp current
        have going : change.phase.isTerminal = false := by simpa using going
        split
        · rename_i unfinished
          exact recover_unpublished_ends going unfinished
        · rename_i waiting
          have published : change.phase = .published := not_not.mp (not_or.mp waiting).1
          cases change.baseTopology with
          | none => exact ends_last (exclusive_keeps steady_read set_recovery_block_reason_harmless)
          | some base =>
              simp only
              split
              · exact recover_published_ends published named
              · exact ends_last (exclusive_keeps steady_read set_recovery_block_reason_harmless)

end Coordination
end Hashring
