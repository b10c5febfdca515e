import Hashring.NodeStores

/-! The events of a node as far as its acknowledgement tables go: the receipts that
name acknowledgements, the progress of each stream and who reported it. A relation
that the few sections writing these tables respect is respected by every event. -/
namespace Hashring

/-- The tables are the very same, in the same epoch. -/
structure SameAcks (before after : NodeState) : Prop where
  topology : after.topology = before.topology
  reporters : after.ackProcessInstances = before.ackProcessInstances
  progress : after.ackProgress = before.ackProgress
  dedup : after.dedup = before.dedup

namespace SameAcks

theorem of_records {before after : NodeState} (only : NodeState.OnlyRecords before after) :
    SameAcks before after := by
  obtain ⟨⟨_, _, _, _, rfl⟩, _⟩ := only
  exact ⟨rfl, rfl, rfl, rfl⟩

theorem of_staging {before after : NodeState} (only : OnlyStaging before after) :
    SameAcks before after := by
  obtain ⟨_, _, _, _, _, _, rfl⟩ := only
  exact ⟨rfl, rfl, rfl, rfl⟩

theorem of_standing {before after : NodeState} (only : OnlyStanding before after) :
    SameAcks before after := by
  obtain ⟨_, _, _, _, rfl⟩ := only
  exact ⟨rfl, rfl, rfl, rfl⟩

end SameAcks

structure AckRule (hashing : Hashing) (related : NodeState → NodeState → Prop) : Prop where
  trans : ∀ {first second third}, related first second → related second third → related first third
  same : ∀ before after, SameAcks before after → related before after
  purge : ∀ state now, related state (purgeExpiredDedup hashing state now)
  insert : ∀ state id key fingerprint version deleted expiresAt,
    related state (insertDedupUntil hashing state id key fingerprint version deleted expiresAt)
  complete : ∀ state mutationId version, related state (completeRequiredAcks state mutationId version)

/-- The events that neither write nor take in a follower's report. -/
def NodeEvent.Quiet : NodeEvent → Prop
  | .commit .. | .send _ | .answered _ (.ok _) => False
  | _ => True

namespace AckRule

variable {hashing : Hashing} {related : NodeState → NodeState → Prop} (rule : AckRule hashing related)

include rule

theorem refl (state : NodeState) : related state state := rule.same _ _ ⟨rfl, rfl, rfl, rfl⟩

theorem adopt_receipts (entries : List (Sigma fun _ : String => StagedDedup)) (state : NodeState) :
    related state (entries.foldl (fun state entry => adoptReceipt hashing state entry.1 entry.2)
      state) := by
  induction entries generalizing state with
  | nil => exact rule.refl state
  | cons entry rest ih =>
      have adopted : related state (adoptReceipt hashing state entry.1 entry.2) := by
        unfold adoptReceipt
        split
        · exact rule.refl state
        · split
          · exact rule.refl state
          · exact rule.insert state _ _ _ _ _ _
      exact rule.trans adopted (ih _)

theorem finish (state : NodeState) (now : Instant) (reached : Bool) (epoch : Nat) (mutationId : String)
    (version : RecordVersion) (required : List RequiredAck) :
    related state (finishRequiredAcks now state reached epoch mutationId version required).1 := by
  rcases finish_required_acks_cases now state reached epoch mutationId version required
    with same | completed
  · rw [same]
    exact rule.refl state
  · rw [completed]
    exact rule.complete state mutationId version

theorem replicate (config : NodeConfig) (clock : Clock) (entry : ReplicationEntry) (state : NodeState) :
    related state (applyReplicationEntry hashing config clock state entry).1 := by
  have met : related state (state.initStream entry.stream) := rule.same _ _ ⟨rfl, rfl, rfl, rfl⟩
  have purged := rule.trans met (rule.purge (state.initStream entry.stream) clock.now)
  have cases := apply_entry_cases hashing config clock state entry
  generalize applyReplicationEntry hashing config clock state entry = result at cases
  cases cases with
  | malformed => exact rule.refl state
  | redelivered | conflict | gap | stale => exact met
  | refused => exact purged
  | accepted record =>
      have stored := rule.trans purged
          (rule.same _ _ (.of_records (NodeState.apply_record_only hashing _ entry.key record)))
      have advanced : ∀ stream, related state (NodeState.setStream _ entry.stream stream) := fun stream =>
        rule.trans stored (rule.same _ _ ⟨rfl, rfl, rfl, rfl⟩)
      exact rule.trans (advanced _) (rule.insert _ _ _ _ _ _ _)

theorem replicate_entries (config : NodeConfig) (clock : Clock) (entries : List ReplicationEntry)
    (applied : Nat)
    (state : NodeState) : related state
      (applyReplicationEntries hashing config clock state applied entries).1 := by
  induction entries generalizing state applied with
  | nil => exact rule.refl state
  | cons entry rest ih =>
      have step := rule.replicate config clock entry state
      unfold applyReplicationEntries
      split
      · rename_i next sequence accepted
        rw [accepted] at step
        exact rule.trans step (ih sequence next)
      · rename_i next status refused
        rw [refused] at step
        split <;> exact step

theorem commit_destination (config : NodeConfig) (clock : Clock) (key : RangeKey) (state : NodeState) :
    related state (commitDestinationRange hashing config clock state key).1 := by
  have purged := rule.purge state clock.later
  unfold commitDestinationRange
  split
  · exact rule.refl state
  · rename_i destination _
    split
    · exact rule.refl state
    · simp only
      generalize purgeExpiredDedup hashing state clock.later = current at purged
      split
      · exact purged
      · split
        · exact purged
        · have cleared := rule.same _ _
              (.of_records (remove_keys_fold (current.recordKeysInRange destination.range)
              current).1)
          have replaced := rule.trans cleared
              (rule.same _ _ (.of_records
              (apply_records_only hashing destination.records.entries _)))
          refine rule.trans (rule.trans purged replaced) ?_
          exact rule.trans (rule.adopt_receipts _ _) (rule.same _ _ ⟨rfl, rfl, rfl, rfl⟩)

theorem range (config : NodeConfig) (operation : RangeOperation) (state : NodeState) :
    related state (operation.perform hashing config state).1 := by
  by_cases committing : ∃ clock key, operation = .commitDestination clock key
  · obtain ⟨clock, key, rfl⟩ := committing
    exact rule.commit_destination config clock key state
  · exact rule.same _ _ (.of_staging (RangeOperation.perform_staging hashing config state operation
      fun clock key same => committing ⟨clock, key, same⟩))

theorem handle (config : NodeConfig) (process : NodeProcess) (event : NodeEvent) (quiet : event.Quiet)
    (stays : ¬event.Adopts) : related process.state (process.handle hashing config event).state := by
  have same := rule.refl process.state
  cases event with
  | commit | send => exact absurd quiet id
  | install | refresh => exact absurd trivial stays
  | finishAcks => exact rule.finish process.state _ _ _ _ _ _
  | replicate clock entry => exact rule.replicate config clock entry process.state
  | replicateBatch clock entries =>
      simp only [NodeProcess.handle, replicateMutations]
      split
      · exact same
      · split
        · exact same
        · exact rule.replicate_entries config clock _ 0 process.state
  | checkpoint | renewed | pausePolicy | resumePolicy =>
      exact rule.same _ _ (.of_standing (handle_standing hashing config process trivial))
  | range operation => exact rule.range config operation process.state
  | sweep nowUnixMillis limit =>
      exact rule.same _ _ (.of_records (sweep_swept hashing nowUnixMillis limit process.state).only)
  | collect key => exact same
  | answered key answer =>
      rw [NodeProcess.handle]
      rcases process.receive_answer_state key answer with kept | ⟨_, _, rfl, -⟩
      · rw [kept]
        exact same
      · exact absurd quiet id

theorem commit (config : NodeConfig) (clock : Clock) (process : NodeProcess)
    (request : WriteRequest) (ready : Readiness)
    (planned : ∀ process plan,
      related process.state (commitPlan hashing config clock process plan ready).1.state) :
    related process.state (commitRequest hashing config clock process request ready).1.state := by
  have same := rule.refl process.state
  have purged := rule.purge process.state clock.now
  have checked : ∀ (id : String) (fingerprint : Bytes) (deleted : Bool)
      (section_ : NodeProcess → NodeProcess × WriteOutcome),
      (∀ process, related process.state (section_ process).1.state) →
      related process.state
        (withReceiptChecks hashing config clock process id fingerprint deleted ready
            section_).1.state := by
    intro id fingerprint deleted section_ kept
    unfold withReceiptChecks
    simp only
    split
    · exact same
    · exact same
    · split
      · exact same
      · split
        · exact purged
        · exact rule.trans purged
            (kept { process with state := purgeExpiredDedup hashing process.state clock.now })
  unfold commitRequest
  split
  · exact same
  · split
    · apply checked
      intro process
      simp only
      split
      · exact rule.refl _
      · split
        · exact rule.refl _
        · split
          · exact rule.refl _
          · exact planned _ _
          · exact planned _ _
    · apply checked
      intro process
      simp only
      split
      · exact rule.refl _
      · exact planned _ _

end AckRule

theorem adopt_acks (hashing : Hashing) (process : NodeProcess) (topology : TopologySnapshot) :
    ∃ switched, (adoptTopology hashing process topology).state = pruneAckProgress switched ∧
      switched.topology = topology ∧ switched.ackProcessInstances = process.state.ackProcessInstances ∧
      switched.ackProgress = process.state.ackProgress ∧ switched.dedup = process.state.dedup := by
  have unleased : SameAcks process.state
      (if topology.epoch ≠ process.state.topology.epoch then
        NodeState.clearReplicaRepairStaging { process.state with lease := none, admittedFollowers := ∅ }
      else process.state) := by
    split
    · have cleared : SameAcks { process.state with lease := none, admittedFollowers := ∅ }
          (NodeState.clearReplicaRepairStaging
            { process.state with lease := none, admittedFollowers := ∅ }) :=
        .of_staging ((OnlyStaging.remove_sources _ _).with_destinations _)
      exact ⟨cleared.topology, cleared.reporters, cleared.progress, cleared.dedup⟩
    · exact ⟨rfl, rfl, rfl, rfl⟩
  have switched : ∀ state : NodeState, (state.setTopology hashing topology).topology = topology ∧
      (state.setTopology hashing topology).ackProcessInstances = state.ackProcessInstances ∧
      (state.setTopology hashing topology).ackProgress = state.ackProgress ∧
      (state.setTopology hashing topology).dedup = state.dedup := by
    intro state
    unfold NodeState.setTopology
    split <;> exact ⟨rfl, rfl, rfl, rfl⟩
  refine ⟨_, rfl, (switched _).1, ?_, ?_, ?_⟩
  · exact (switched _).2.1.trans unleased.reporters
  · exact (switched _).2.2.1.trans unleased.progress
  · exact (switched _).2.2.2.trans unleased.dedup

end Hashring
