import Hashring.CoordinatorSystem

/-! The programs that keep the coordinator's invariant whatever else runs: repairs,
the copying of ranges, and every wait for nodes. -/
namespace Hashring

namespace NodeCalls

open Program

theorem yields_connect {endpoint : String} {deadline : Instant} :
    Yields NodeEffect.Answers (connectNode endpoint deadline) fun _ => True :=
  yields_anything _

theorem yields_rpc {β : Type} {endpoint : String} {deadline : Instant} {request : NodeRequest β} :
    Yields NodeEffect.Answers (rpcBefore deadline endpoint request) fun _ => True :=
  yields_anything _

theorem copy_range_yields (change : TopologyChange) (range : RangeMigration) (deadline : Instant) :
    Yields NodeEffect.Answers (copyRange change range deadline) fun progress =>
      progress.sourceNodeId = range.sourceNodeId := by
  unfold copyRange
  refine returns_bind yields_connect fun _ _ => ?_
  refine returns_bind yields_connect fun _ _ => ?_
  refine returns_bind yields_rpc fun source _ => ?_
  refine returns_unless fun _ => ?_
  refine returns_bind yields_rpc fun destination _ => ?_
  refine returns_unless fun _ => ?_
  refine returns_bind (yields_anything (copySnapshot change range deadline)) fun _ _ => ?_
  refine returns_bind (yields_anything (copyReceipts change range deadline)) fun _ _ => ?_
  refine returns_bind (yields_anything (replayChangelog change range 0 none deadline)) fun _ _ => ?_
  exact returns_pure rfl

theorem source_digest_yields (endpoint : String) (deadline : Instant) (control : RangeKey) :
    Yields NodeEffect.Answers (rpcBefore deadline endpoint (.sourceRangeDigest control)) fun digest =>
      digest.digest.isEmpty = false :=
  returns_call fun _ _ _ _ answered => ⟨trivial, trivial, answered⟩

theorem finalize_range_yields (change : TopologyChange) (range : RangeMigration)
    (finalWatermark : Nat) (deadline : Instant) :
    Yields NodeEffect.Answers (finalizeRange change range finalWatermark deadline) fun result =>
      result.1.sourceNodeId = range.sourceNodeId ∧ result.2.isEmpty = false := by
  unfold finalizeRange
  refine returns_bind yields_connect fun _ _ => ?_
  refine returns_bind yields_connect fun _ _ => ?_
  refine returns_bind (yields_anything (replayChangelog change range _ _ deadline)) fun watermark _ => ?_
  refine returns_bind (source_digest_yields _ _ _) fun sourceDigest named => ?_
  refine returns_bind yields_rpc fun destinationDigest _ => ?_
  refine returns_unless fun _ => ?_
  refine returns_bind yields_rpc fun _ _ => ?_
  exact returns_pure ⟨rfl, named⟩

end NodeCalls

namespace Coordination

open CoordinatorSystem ClusterState Program

variable {settings : CoordinatorSettings}

theorem set_repair_phases_harmless {tasks : List ReplicaRepair} {phase : ReplicaRepairPhase}
    (open_ : phase ≠ .complete) :
    Harmless settings (setRepairPhases tasks phase) fun _ => True := by
  refine harmless_update (fun coordinator sound next _ decided => ?_) fun _ _ _ _ _ => trivial
  exact set_repair_phases_quiet sound decided open_

theorem cleanup_interrupted_harmless : Harmless settings (cleanupInterruptedRepairs settings)
    fun _ => True := by
  unfold cleanupInterruptedRepairs
  refine returns_bind harmless_read fun state _ => ?_
  refine returns_bind harmless_deadline fun deadline _ => ?_
  exact harmless_talk _

theorem copy_replica_harmless (task : ReplicaRepair) : Harmless settings (copyReplica settings task)
    fun _ => True := by
  unfold copyReplica
  refine returns_bind harmless_read fun state _ => ?_
  refine returns_unless fun _ => ?_
  refine returns_bind (harmless_except fun _ _ => trivial) fun ownerInstance _ => ?_
  refine returns_bind (harmless_except fun _ _ => trivial) fun followerInstance _ => ?_
  refine returns_bind (harmless_except fun _ _ => trivial) fun owner _ => ?_
  refine returns_bind (harmless_except fun _ _ => trivial) fun follower _ => ?_
  refine returns_bind harmless_deadline fun deadline _ => ?_
  refine returns_bind (harmless_talk _) fun copied _ => ?_
  refine returns_unless fun _ => ?_
  exact returns_pure trivial

theorem finish_replica_harmless (copied : CopiedReplicaSeed) (finalWatermark : Nat) (deadline : Instant) :
    Harmless settings (finishReplica copied finalWatermark deadline) SeedSound := by
  unfold finishReplica
  refine returns_bind (harmless_calls (NodeCalls.finalize_range_yields _ _ _ _)) fun result verified => ?_
  exact returns_pure ⟨rfl, rfl, verified.2⟩

theorem checkpoint_seeds_yields (group : SeedGroup) (prepared : List PreparedReplicaSeed)
    (deadline : Instant) (sound : ∀ seed ∈ prepared, SeedSound seed) :
    Yields NodeEffect.Answers (checkpointSeeds group prepared deadline) fun admitted =>
      ∀ seed ∈ admitted, SeedSound seed := by
  unfold checkpointSeeds
  refine returns_bind NodeCalls.yields_connect fun _ _ => ?_
  refine returns_bind NodeCalls.yields_connect fun _ _ => ?_
  refine returns_bind NodeCalls.yields_rpc fun head _ => ?_
  refine returns_unless fun _ => ?_
  refine returns_bind NodeCalls.yields_rpc fun checkpoint _ => ?_
  refine returns_unless fun _ => ?_
  refine returns_bind (yields_anything (releaseSeeds _ _ _ _)) fun _ _ => ?_
  refine returns_pure fun seed member => ?_
  obtain ⟨old, present, rfl⟩ := List.mem_map.mp member
  exact ⟨(sound old present).epoch, (sound old present).copy, (sound old present).digest⟩

theorem pause_replica_harmless (copied : CopiedReplicaSeed) (deadline : Instant) :
    Harmless settings (do
      let watermark ← calls (NodeCalls.pauseRange copied.change copied.range deadline)
      return (copied, watermark)) fun _ => True := by
  refine returns_bind (harmless_talk _) fun watermark _ => ?_
  exact returns_pure trivial

theorem try_seed_group_harmless (tasks : List ReplicaRepair) (group : SeedGroup) :
    Harmless settings (trySeedGroup settings tasks group) fun _ => True := by
  unfold trySeedGroup
  refine returns_bind (set_repair_phases_harmless (by simp)) fun _ _ => ?_
  refine returns_bind (returns_pool fun task _ => copy_replica_harmless task) fun copied _ => ?_
  refine returns_bind harmless_deadline fun deadline _ => ?_
  refine returns_bind (returns_pool fun copied _ => pause_replica_harmless copied deadline)
    fun paused _ => ?_
  refine returns_bind (set_repair_phases_harmless (by simp)) fun _ _ => ?_
  refine returns_bind (returns_pool fun entry _ => finish_replica_harmless entry.1 entry.2 deadline)
    fun prepared sound => ?_
  refine returns_bind harmless_deadline fun deadline _ => ?_
  refine returns_bind (harmless_calls (checkpoint_seeds_yields group prepared deadline sound))
    fun admitted seeded => ?_
  refine harmless_update (fun coordinator kept next _ decided => ?_) fun _ _ _ _ _ => trivial
  exact store_repair_admissions_quiet kept seeded decided

theorem seed_replica_group_harmless (tasks : List ReplicaRepair) :
    Harmless settings (seedReplicaGroup settings tasks) fun _ => True := by
  unfold seedReplicaGroup
  refine returns_bind harmless_read fun state _ => ?_
  refine returns_bind (harmless_except fun _ _ => trivial) fun group _ => ?_
  refine returns_bind (returns_attempt (try_seed_group_harmless tasks group)) fun result _ => ?_
  cases result with
  | ok _ => exact returns_pure trivial
  | error error =>
      refine returns_bind harmless_deadline fun deadline _ => ?_
      refine returns_bind (harmless_talk _) fun _ _ => ?_
      refine returns_bind (set_repair_phases_harmless (by simp)) fun _ _ => ?_
      exact returns_throw

theorem seed_repairs_harmless : Harmless settings (seedRepairsForActivation settings) fun _ => True := by
  unfold seedRepairsForActivation
  refine returns_bind cleanup_interrupted_harmless fun _ _ => ?_
  refine returns_bind harmless_read fun state _ => ?_
  refine returns_bind (harmless_except fun _ _ => trivial) fun groups _ => ?_
  refine returns_bind (returns_pool fun tasks _ => seed_replica_group_harmless tasks) fun _ _ => ?_
  refine returns_bind harmless_read fun seeded _ => ?_
  exact harmless_except fun _ _ => trivial

theorem repair_one_group_harmless (deadline : Instant) (tasks : List ReplicaRepair) :
    Harmless settings (repairOneGroup settings deadline tasks) fun _ => True := by
  unfold repairOneGroup
  refine returns_bind harmless_look fun late _ => ?_
  cases late with
  | true => exact returns_pure trivial
  | false =>
      refine returns_bind (returns_attempt (seed_replica_group_harmless tasks)) fun result _ => ?_
      cases result with
      | ok _ => exact returns_pure trivial
      | error error =>
          have recorded : Harmless settings (update fun coordinator =>
              coordinator.state.recordRepairFailure tasks error coordinator.unixMillis) fun _ =>
                  True := by
            refine harmless_update (fun coordinator kept next _ decided => ?_) fun _ _ _ _ _ => trivial
            exact record_repair_failure_quiet kept decided
          refine returns_bind recorded fun _ _ => ?_
          exact returns_pure trivial

theorem repair_round_harmless (deadline : Instant) (groups : List (List ReplicaRepair)) :
    Harmless settings (repairRound settings deadline groups) fun _ => True := by
  refine returns_interruptible ?_ ?_
  · refine returns_bind cleanup_interrupted_harmless fun _ _ => ?_
    exact returns_pure trivial
  · refine returns_bind (returns_pool fun tasks _ => repair_one_group_harmless deadline tasks)
      fun results _ => ?_
    exact returns_pure trivial

theorem resume_replica_repairs_harmless : Harmless settings (resumeReplicaRepairs settings) fun _ =>
    True := by
  unfold resumeReplicaRepairs
  refine returns_bind harmless_deadline fun deadline _ => ?_
  refine returns_rounds fun seeded => ?_
  have selected : Harmless settings (update fun coordinator =>
      coordinator.state.selectDueRepairGroups coordinator.unixMillis) fun _ => True := by
    refine harmless_update (fun coordinator kept next _ decided => ?_) fun _ _ _ _ _ => trivial
    exact select_due_quiet kept decided
  refine returns_bind selected fun groups _ => ?_
  split
  · exact returns_pure trivial
  · refine returns_bind (repair_round_harmless deadline groups) fun results _ => ?_
    cases results with
    | none => exact returns_pure trivial
    | some results => exact returns_pure trivial

/-! What the holder of the execution lock does besides moving its change on. -/

theorem store_range_progress_harmless {progress : RangeMigration}
    (named : progress.sourceNodeId.isEmpty = false) :
    Harmless settings (storeRangeProgress progress) fun _ => True := by
  refine harmless_update (fun coordinator kept next _ decided => ?_) fun _ _ _ _ _ => trivial
  obtain ⟨change, ranges, only⟩ := store_range_progress_only decided named
  refine ⟨only.sound kept, ⟨?_, fun running found _ => ⟨ranges, ?_⟩⟩, only.advance⟩
  · obtain ⟨_, _, _, rfl⟩ := only
    rfl
  · obtain ⟨active, _, _, rfl⟩ := only
    obtain rfl := Option.some.inj (active.symm.trans found)
    rfl

theorem set_recovery_block_reason_harmless {reason : String} :
    Harmless settings (setRecoveryBlockReason reason) fun _ => True := by
  refine harmless_update (fun coordinator kept next _ decided => ?_) fun _ _ _ _ _ => trivial
  exact recovery_block_reason_quiet kept decided

theorem store_timings_harmless : Harmless settings storeTimings fun _ => True := by
  refine harmless_update (fun coordinator kept next _ decided => ?_) fun _ _ _ _ _ => trivial
  cases active : coordinator.state.activeChange with
  | none =>
      unfold alterChange at decided
      rw [active] at decided
      exact absurd decided (by simp)
  | some change =>
      have only := store_timings_only decided active
      refine ⟨only.sound kept, .same_change ?_ ?_, only.advance⟩
      · obtain ⟨_, _, _, rfl⟩ := only
        rfl
      · obtain ⟨_, _, _, rfl⟩ := only
        exact active.symm

theorem copy_and_store_harmless (change : TopologyChange) (deadline : Instant) {range : RangeMigration}
    (named : range.sourceNodeId.isEmpty = false) :
    Harmless settings (copyAndStore change deadline range) fun progress =>
      progress.sourceNodeId.isEmpty = false := by
  unfold copyAndStore
  refine returns_bind (harmless_calls (NodeCalls.copy_range_yields change range deadline))
    fun progress same => ?_
  rw [← same] at named
  refine returns_bind (store_range_progress_harmless named) fun _ _ => ?_
  exact returns_pure named

theorem finalize_and_store_harmless (change : TopologyChange) (watermarks : List (String × Nat))
    (deadline : Instant) {range : RangeMigration} (named : range.sourceNodeId.isEmpty = false) :
    Harmless settings (finalizeAndStore change watermarks deadline range) fun progress =>
      progress.sourceNodeId.isEmpty = false := by
  unfold finalizeAndStore
  refine returns_bind (harmless_calls (NodeCalls.finalize_range_yields _ _ _ _)) fun result same => ?_
  have named : result.1.sourceNodeId.isEmpty = false := by
    rw [same.1]
    exact named
  refine returns_bind (store_range_progress_harmless named) fun _ _ => ?_
  exact returns_pure named

theorem clean_source_harmless (change : TopologyChange) (deadline : Instant) {range : RangeMigration}
    (named : range.sourceNodeId.isEmpty = false) :
    Harmless settings (cleanSource change deadline range) fun _ => True := by
  unfold cleanSource
  refine returns_bind (harmless_talk _) fun _ _ => ?_
  refine returns_bind (store_range_progress_harmless named) fun _ _ => ?_
  exact returns_pure trivial

theorem get_replica_status_harmless : Harmless settings (getReplicaStatus settings) fun _ => True := by
  unfold getReplicaStatus
  refine returns_bind harmless_look fun seen _ => ?_
  refine returns_bind (harmless_talk _) fun progress _ => ?_
  refine returns_bind (harmless_except fun _ _ => trivial) fun ranges _ => ?_
  exact returns_pure trivial

theorem timeout_at_harmless {α : Type} {message : String} {program : Coordination α} {good : α → Prop}
    (harmless : Harmless settings program good) : Harmless settings (timeoutAt message program) good :=
  returns_interruptible returns_throw harmless

theorem await_policy_readiness_harmless (change : TopologyChange) (deadline : Instant) :
    Harmless settings (awaitPolicyReadiness settings change deadline) fun _ => True := by
  unfold awaitPolicyReadiness
  refine returns_rounds fun _ => ?_
  refine returns_bind (returns_attempt (timeout_at_harmless get_replica_status_harmless))
    fun result _ => ?_
  cases result with
  | error error => exact returns_pure trivial
  | ok status =>
      simp only
      split
      · exact returns_pure trivial
      · refine returns_bind harmless_look fun late _ => ?_
        exact returns_pure trivial

theorem recheck_policy_readiness_harmless (change : TopologyChange) :
    Harmless settings (recheckPolicyReadiness settings change) fun _ => True := by
  unfold recheckPolicyReadiness
  refine returns_bind (timeout_at_harmless get_replica_status_harmless) fun status _ => ?_
  split
  · exact returns_throw
  · exact returns_pure trivial

theorem catch_up_required_harmless (state : ClusterState) (deadline : Instant) (pairs : List StreamPair) :
    Harmless settings (catchUpRequired state deadline pairs) fun _ => True := by
  induction pairs with
  | nil => exact returns_pure trivial
  | cons pair rest ih =>
      unfold catchUpRequired
      refine returns_bind (returns_rounds fun _ => ?_) fun _ _ => ih
      refine returns_bind (harmless_talk _) fun caughtUp _ => ?_
      cases caughtUp with
      | true => exact returns_pure trivial
      | false =>
          refine returns_bind harmless_look fun late _ => ?_
          cases late with
          | true => exact returns_bind returns_throw fun _ (impossible : False) => impossible.elim
          | false => exact returns_pure trivial

end Coordination
end Hashring
