import Hashring.RangeStaging

/-! The migration RPCs of a node as one family of messages. Whoever sends them,
and in whatever order they arrive, they write records, receipts and range
tables only: topology, lease, sequences and stream positions stay. -/
namespace Hashring

inductive RangeOperation where
  | prepareSource (request : Option RangeSpec)
  | prepareDestination (request : Option RangeSpec)
  | applyBatch (clock : Clock) (request : ApplyMigrationBatchRequest)
  | applyDedup (clock : Clock) (request : ApplyDedupBatchRequest)
  | pauseWrites (key : RangeKey)
  | commitDestination (clock : Clock) (key : RangeKey)
  | activateDestination (key : RangeKey)
  | cleanupSource (key : RangeKey)
  | abort (key : RangeKey)
  | abortRepairs (topologyEpoch : Nat)

/-- What preparing, staging and releasing a range may write. -/
def OnlyStaging (before after : NodeState) : Prop :=
  ∃ records recordsByToken recordExpirations sources destinations journalBytesTotal,
    after = { before with
      records, recordsByToken, recordExpirations, sources, destinations, journalBytesTotal }

/-- What a migration RPC may write: a commit also adopts receipts. -/
def OnlyRanges (before after : NodeState) : Prop := ∃ middle, OnlyStaging before middle ∧
    OnlyReceipts middle after

namespace OnlyStaging

theorem refl (state : NodeState) : OnlyStaging state state := ⟨_, _, _, _, _, _, rfl⟩

theorem trans {first second third : NodeState} (early : OnlyStaging first second)
    (late : OnlyStaging second third) : OnlyStaging first third := by
  obtain ⟨_, _, _, _, _, _, rfl⟩ := early
  obtain ⟨_, _, _, _, _, _, rfl⟩ := late
  exact ⟨_, _, _, _, _, _, rfl⟩

theorem of_records {before after : NodeState} (only : NodeState.OnlyRecords before after) :
    OnlyStaging before after := by
  obtain ⟨⟨_, _, _, _, rfl⟩, _⟩ := only
  exact ⟨_, _, _, _, _, _, rfl⟩

theorem with_destinations {before after : NodeState} (only : OnlyStaging before after)
    (destinations : FiniteMap RangeKey DestinationMigration) :
    OnlyStaging before { after with destinations } := by
  obtain ⟨_, _, _, _, _, _, rfl⟩ := only
  exact ⟨_, _, _, _, _, _, rfl⟩

theorem with_sources {before after : NodeState} (only : OnlyStaging before after)
    (sources : FiniteMap RangeKey SourceMigration) : OnlyStaging before { after with sources } := by
  obtain ⟨_, _, _, _, _, _, rfl⟩ := only
  exact ⟨_, _, _, _, _, _, rfl⟩

theorem remove_source (state : NodeState) (key : RangeKey) :
    OnlyStaging state (state.removeSource key) := by
  unfold NodeState.removeSource
  split
  · exact OnlyStaging.refl state
  · exact ⟨_, _, _, _, _, _, rfl⟩

theorem remove_sources (keys : List RangeKey) (state : NodeState) :
    OnlyStaging state (keys.foldl NodeState.removeSource state) := by
  induction keys generalizing state with
  | nil => exact OnlyStaging.refl state
  | cons key rest ih => exact (remove_source state key).trans (ih _)

theorem ranges {before after : NodeState} (only : OnlyStaging before after) : OnlyRanges before after :=
  ⟨after, only, OnlyReceipts.refl after⟩

theorem scheduled {before after : NodeState} (only : OnlyStaging before after)
    (start : ReceiptsScheduled before) :
    ReceiptsScheduled after := by
  obtain ⟨_, _, _, _, _, _, rfl⟩ := only
  exact start

end OnlyStaging

namespace RangeOperation

variable (hashing : Hashing) (config : NodeConfig)

def perform (state : NodeState) : RangeOperation → NodeState × Except Status Unit
  | .prepareSource request =>
      let (next, answer) := prepareSourceRange config state request
      (next, answer.map fun _ => ())
  | .prepareDestination request =>
      let (next, answer) := prepareDestinationRange config state request
      (next, answer.map fun _ => ())
  | .applyBatch clock request => applyMigrationBatch hashing config clock state request
  | .applyDedup clock request => applyDedupBatch hashing config clock state request
  | .pauseWrites key =>
      let (next, answer) := pauseRangeWrites state key
      (next, answer.map fun _ => ())
  | .commitDestination clock key => commitDestinationRange hashing config clock state key
  | .activateDestination key => activateDestinationRange state key
  | .cleanupSource key => cleanupSourceRange config state key
  | .abort key => (abortRangeMigration state key, .ok ())
  | .abortRepairs topologyEpoch => abortReplicaRepairs state topologyEpoch

theorem prepare_source_only (state : NodeState) (request : Option RangeSpec) :
    OnlyStaging state (prepareSourceRange config state request).1 := by
  have same := OnlyStaging.refl state
  unfold prepareSourceRange
  split
  · exact same
  · split
    · exact same
    · split
      · exact same
      · split
        · split
          · exact same
          · exact same
        · exact same.with_sources _

theorem prepare_destination_only (state : NodeState) (request : Option RangeSpec) :
    OnlyStaging state (prepareDestinationRange config state request).1 := by
  have same := OnlyStaging.refl state
  unfold prepareDestinationRange
  split
  · exact same
  · split
    · exact same
    · split
      · exact same
      · split
        · split
          · exact same
          · exact same
        · exact same.with_destinations _

/-- Every migration RPC but the commit leaves the receipts alone. -/
theorem perform_staging (state : NodeState) (operation : RangeOperation)
    (uncommitted : ∀ clock key, operation ≠ .commitDestination clock key) :
    OnlyStaging state (perform hashing config state operation).1 := by
  have same := OnlyStaging.refl state
  cases operation with
  | prepareSource request => exact prepare_source_only config state request
  | prepareDestination request => exact prepare_destination_only config state request
  | applyBatch clock request =>
      simp only [perform, applyMigrationBatch]
      split
      · exact same
      · split
        · exact same
        · exact same.with_destinations _
  | applyDedup clock request =>
      simp only [perform, applyDedupBatch]
      split
      · exact same
      · split
        · exact same
        · exact same.with_destinations _
  | pauseWrites key =>
      simp only [perform, pauseRangeWrites]
      split
      · exact same
      · exact same.with_sources _
  | commitDestination clock key => exact absurd rfl (uncommitted clock key)
  | activateDestination key =>
      simp only [perform, activateDestinationRange]
      split
      · exact same
      · split
        · exact same
        · exact same.with_destinations _
  | cleanupSource key =>
      simp only [perform, cleanupSourceRange]
      split
      · exact same
      · exact (OnlyStaging.of_records (remove_keys_fold _ state).1).trans
          (OnlyStaging.remove_source _ key)
  | abort key => exact (OnlyStaging.remove_source state key).with_destinations _
  | abortRepairs topologyEpoch =>
      simp only [perform, abortReplicaRepairs]
      split
      · exact same
      · exact (OnlyStaging.remove_sources _ state).with_destinations _

theorem adopt_scheduled (entries : List (Sigma fun _ : String => StagedDedup)) (state : NodeState)
    (start : ReceiptsScheduled state) :
    ReceiptsScheduled (entries.foldl (fun state entry => adoptReceipt hashing state entry.1 entry.2)
      state) := by
  induction entries generalizing state with
  | nil => exact start
  | cons entry rest ih =>
      rw [List.foldl_cons]
      apply ih
      unfold adoptReceipt
      split
      · exact start
      · split
        · exact start
        · exact insert_dedup_scheduled hashing state _ _ _ _ _ _ start

/-- A commit drops expired receipts, replaces the range and adopts the staged
receipts. -/
theorem commit_only (clock : Clock) (state : NodeState) (key : RangeKey) :
    OnlyRanges state (commitDestinationRange hashing config clock state key).1 ∧
      (ReceiptsScheduled state →
        ReceiptsScheduled (commitDestinationRange hashing config clock state key).1) := by
  have purge := purge_expired_only hashing state clock.later
  have purgedScheduled := purge_expired_scheduled hashing state clock.later
  have dropped : OnlyRanges state (purgeExpiredDedup hashing state clock.later) :=
    ⟨state, OnlyStaging.refl state, purge⟩
  unfold commitDestinationRange
  split
  · exact ⟨(OnlyStaging.refl state).ranges, id⟩
  · rename_i destination _
    split
    · exact ⟨(OnlyStaging.refl state).ranges, id⟩
    · simp only
      generalize purgeExpiredDedup hashing state clock.later = purged at purge purgedScheduled dropped
      split
      · exact ⟨dropped, purgedScheduled⟩
      · split
        · exact ⟨dropped, purgedScheduled⟩
        · have replaced : NodeState.OnlyRecords purged
              (replaceRange hashing purged destination.range destination.records) :=
            (remove_keys_fold (purged.recordKeysInRange destination.range) purged).1.trans
              (apply_records_only hashing destination.records.entries _)
          have adopted := adopt_receipts_only hashing
            (destination.dedup.retain fun _ entry => clock.now < entry.expiresAt).entries
            (replaceRange hashing purged destination.range destination.records)
          have scheduled := adopt_scheduled hashing
            (destination.dedup.retain fun _ entry => clock.now < entry.expiresAt).entries
            (replaceRange hashing purged destination.range destination.records)
          constructor
          · obtain ⟨⟨_, _, _, _, moved⟩, _⟩ := replaced
            obtain ⟨_, _, _, _, _, received⟩ := adopted
            obtain ⟨_, _, _, _, _, _, _, _, _, same⟩ := purge
            rw [received, moved, same]
            exact ⟨_, ⟨_, _, _, _, _, _, rfl⟩, ⟨_, _, _, _, _, _, _, _, _, rfl⟩⟩
          · intro start
            exact scheduled ((OnlyStaging.of_records replaced).scheduled (purgedScheduled start))

/-- One migration RPC, whatever it answers. -/
theorem perform_only (state : NodeState) (operation : RangeOperation) :
    OnlyRanges state (perform hashing config state operation).1 ∧
      (ReceiptsScheduled state → ReceiptsScheduled (perform hashing config state operation).1) := by
  by_cases committing : ∃ clock key, operation = .commitDestination clock key
  · obtain ⟨clock, key, rfl⟩ := committing
    exact commit_only hashing config clock state key
  · have staged := perform_staging hashing config state operation fun clock key same =>
        committing ⟨clock, key, same⟩
    exact ⟨staged.ranges, staged.scheduled⟩

end RangeOperation
end Hashring
