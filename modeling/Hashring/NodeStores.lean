import Hashring.NodeMachine
import Hashring.FollowerStream

/-! What the events of a node have in common as far as its stores go: the records,
the receipts and the range tables. Most events leave them alone; batches and
adopted topologies are made of smaller sections. -/
namespace Hashring

structure SameStores (before after : NodeState) : Prop where
  topology : after.topology = before.topology
  records : after.records = before.records
  recordsByToken : after.recordsByToken = before.recordsByToken
  recordExpirations : after.recordExpirations = before.recordExpirations
  sources : after.sources = before.sources
  destinations : after.destinations = before.destinations
  journalBytesTotal : after.journalBytesTotal = before.journalBytesTotal
  dedup : after.dedup = before.dedup
  dedupBytes : after.dedupBytes = before.dedupBytes
  dedupExpirations : after.dedupExpirations = before.dedupExpirations

theorem SameStores.refl (state : NodeState) : SameStores state state :=
  ⟨rfl, rfl, rfl, rfl, rfl, rfl, rfl, rfl, rfl, rfl⟩

structure StoresKept (before after : NodeState) : Prop extends SameStores before after where
  sequence : after.nextSequence = before.nextSequence

theorem StoresKept.refl (state : NodeState) : StoresKept state state := ⟨SameStores.refl state, rfl⟩

theorem NodeState.OnlyRecords.destinations {before after : NodeState}
    (only : NodeState.OnlyRecords before after) :
    after.destinations = before.destinations := by
  obtain ⟨⟨_, _, _, _, rfl⟩, _⟩ := only
  rfl

theorem NodeState.OnlyRecords.topology {before after : NodeState}
    (only : NodeState.OnlyRecords before after) :
    after.topology = before.topology := by
  obtain ⟨⟨_, _, _, _, rfl⟩, _⟩ := only
  rfl

theorem NodeState.OnlyRecords.nextSequence {before after : NodeState}
    (only : NodeState.OnlyRecords before after) :
    after.nextSequence = before.nextSequence := by
  obtain ⟨⟨_, _, _, _, rfl⟩, _⟩ := only
  rfl

theorem OnlyReceipts.destinations {before after : NodeState} (only : OnlyReceipts before after) :
    after.destinations = before.destinations := by
  obtain ⟨_, _, _, _, _, _, _, _, _, rfl⟩ := only
  rfl

theorem OnlyReceipts.sources {before after : NodeState} (only : OnlyReceipts before after) :
    after.sources = before.sources := by
  obtain ⟨_, _, _, _, _, _, _, _, _, rfl⟩ := only
  rfl

theorem OnlyReceipts.nextSequence {before after : NodeState} (only : OnlyReceipts before after) :
    after.nextSequence = before.nextSequence := by
  obtain ⟨_, _, _, _, _, _, _, _, _, rfl⟩ := only
  rfl

theorem remove_source_destinations (state : NodeState) (key : RangeKey) :
    (state.removeSource key).destinations = state.destinations := by
  unfold NodeState.removeSource
  split <;> rfl

theorem remove_sources_destinations (keys : List RangeKey) (state : NodeState) :
    (keys.foldl NodeState.removeSource state).destinations = state.destinations := by
  induction keys generalizing state with
  | nil => rfl
  | cons key rest ih => exact (ih _).trans (remove_source_destinations state key)

/-- What a node is told of its standing: who may follow it, its lease, a fence on its
policy and where the streams it follows are. -/
def OnlyStanding (before after : NodeState) : Prop :=
  ∃ admittedFollowers followerStreams lease policyWriteFence,
    after = { before with admittedFollowers, followerStreams, lease, policyWriteFence }

def NodeEvent.Standing : NodeEvent → Prop
  | .checkpoint _ | .renewed .. | .pausePolicy _ | .resumePolicy _ => True
  | _ => False

theorem handle_standing (hashing : Hashing) (config : NodeConfig) (process : NodeProcess)
    {event : NodeEvent} (standing : event.Standing) :
    OnlyStanding process.state (process.handle hashing config event).state := by
  have same : OnlyStanding process.state process.state := ⟨_, _, _, _, rfl⟩
  cases event with
  | checkpoint request =>
      rcases FollowerStream.checkpoint_cases config process.state request with kept | met | ⟨_, set⟩
      · simp only [NodeProcess.handle, kept]
        exact same
      · simp only [NodeProcess.handle, met]
        exact ⟨_, _, _, _, rfl⟩
      · simp only [NodeProcess.handle, set]
        exact ⟨_, _, _, _, rfl⟩
  | renewed epoch sentAt response =>
      simp only [NodeProcess.handle, receiveRenewal]
      split
      · exact ⟨_, _, _, _, rfl⟩
      · exact same
  | pausePolicy request =>
      simp only [NodeProcess.handle, pausePolicyWrites]
      split
      · exact same
      · split
        · exact same
        · split
          · exact same
          · exact ⟨_, _, _, _, rfl⟩
  | resumePolicy request =>
      simp only [NodeProcess.handle, resumePolicyWrites]
      split
      · exact ⟨_, _, _, _, rfl⟩
      · exact same
  | commit | finishAcks | replicate | replicateBatch | range | sweep | install | refresh | collect
    | send | answered => exact absurd standing id

theorem StoresKept.of_standing {before after : NodeState} (only : OnlyStanding before after) :
    StoresKept before after := by
  obtain ⟨_, _, _, _, rfl⟩ := only
  exact ⟨⟨rfl, rfl, rfl, rfl, rfl, rfl, rfl, rfl, rfl, rfl⟩, rfl⟩

/-- The events that write none of the stores. -/
def NodeEvent.Storeless : NodeEvent → Prop
  | .checkpoint _ | .renewed .. | .pausePolicy _ | .resumePolicy _ | .collect _ | .send _ |
    .answered .. => True
  | _ => False

theorem handle_storeless (hashing : Hashing) (config : NodeConfig) (process : NodeProcess)
    {event : NodeEvent}
    (storeless : event.Storeless) :
    StoresKept process.state (process.handle hashing config event).state := by
  have same := StoresKept.refl process.state
  cases event with
  | checkpoint | renewed | pausePolicy | resumePolicy =>
      exact .of_standing (handle_standing hashing config process trivial)
  | collect key => exact same
  | send key =>
      rw [NodeProcess.handle, NodeProcess.send_batch_state]
      exact same
  | answered key answer =>
      rw [NodeProcess.handle]
      rcases process.receive_answer_state key answer with kept | ⟨stream, response, -, reported⟩
      · rw [kept]
        exact same
      · rw [reported]
        exact ⟨⟨rfl, rfl, rfl, rfl, rfl, rfl, rfl, rfl, rfl, rfl⟩, rfl⟩
  | commit | finishAcks | replicate | replicateBatch | range | sweep | install | refresh =>
      exact absurd storeless id

section Rules

variable {hashing : Hashing} {related : NodeState → NodeState → Prop}
  (refl : ∀ state, related state state)
  (trans : ∀ {first second third}, related first second → related second third → related first third)

include refl trans

theorem replicate_rule {config : NodeConfig} {clock : Clock} {entries : List ReplicationEntry}
    (each : ∀ entry ∈ entries, ∀ state,
      related state (applyReplicationEntry hashing config clock state entry).1)
    (state : NodeState) : related state (replicateMutations hashing config clock state entries).1 := by
  have run : ∀ (left : List ReplicationEntry) (state : NodeState) (applied : Nat),
      (∀ entry ∈ left, entry ∈ entries) →
      related state (applyReplicationEntries hashing config clock state applied left).1 := by
    intro left
    induction left with
    | nil => exact fun state _ _ => refl state
    | cons entry rest ih =>
        intro state applied listed
        have step := each entry (listed entry (by simp)) state
        unfold applyReplicationEntries
        split
        · rename_i next sequence accepted
          rw [accepted] at step
          exact trans step (ih next sequence fun other member => listed other (by simp [member]))
        · rename_i next status refused
          rw [refused] at step
          split <;> exact step
  unfold replicateMutations
  split
  · exact refl state
  · split
    · exact refl state
    · exact run _ state 0 fun _ => id

theorem remove_sources_rule (removed : ∀ key state, related state (state.removeSource key))
    (keys : List RangeKey)
    (state : NodeState) : related state (keys.foldl NodeState.removeSource state) := by
  induction keys generalizing state with
  | nil => exact refl state
  | cons key rest ih => exact trans (removed key state) (ih _)

/-- A topology is adopted by clearing the repairs of the epoch before it and
switching over. -/
theorem adopt_rule (stores : ∀ before after, StoresKept before after → related before after)
    (removed : ∀ key state, related state (state.removeSource key))
    (unprepared : ∀ state destinations, (∀ key destination, destinations.lookup key = some destination →
      state.destinations.lookup key = some destination) → related state { state with destinations })
    {topology : TopologySnapshot} (process : NodeProcess)
    (switched : ∀ state, state.topology = process.state.topology →
      related state (state.setTopology hashing topology)) :
      related process.state (adoptTopology hashing process topology).state := by
  have unleased : related process.state
      (if topology.epoch ≠ process.state.topology.epoch then
        NodeState.clearReplicaRepairStaging { process.state with lease := none, admittedFollowers := ∅ }
      else process.state) ∧
      (if topology.epoch ≠ process.state.topology.epoch then
        NodeState.clearReplicaRepairStaging { process.state with lease := none, admittedFollowers := ∅ }
      else process.state).topology = process.state.topology := by
    split
    · have bare : related process.state { process.state with lease := none, admittedFollowers := ∅ } :=
        stores _ _ ⟨⟨rfl, rfl, rfl, rfl, rfl, rfl, rfl, rfl, rfl, rfl⟩, rfl⟩
      refine ⟨?_, (clear_repairs_authority _).topology⟩
      refine trans bare (trans (remove_sources_rule refl trans removed _ _)
        (unprepared _ _ fun key destination found => ?_))
      rw [FiniteMap.lookup_retain] at found
      exact (Option.filter_eq_some_iff.mp found).1
    · exact ⟨refl _, rfl⟩
  have pruned : ∀ state, related state (pruneAckProgress state) := by
    intro state
    unfold pruneAckProgress
    simp only
    split
    · exact refl state
    · exact stores _ _ ⟨⟨rfl, rfl, rfl, rfl, rfl, rfl, rfl, rfl, rfl, rfl⟩, rfl⟩
  refine trans (trans unleased.1 (switched _ unleased.2)) (trans ?_ (pruned _))
  exact stores _ _ ⟨⟨rfl, rfl, rfl, rfl, rfl, rfl, rfl, rfl, rfl, rfl⟩, rfl⟩

end Rules

section Staging

variable (hashing : Hashing) (config : NodeConfig) (topology : TopologySnapshot)

/-- A property of a destination that staging keeps, one receipt or one record of
its range at a time. -/
structure StagingClosed (holds : DestinationMigration → Prop) : Prop where
  purge : ∀ destination now, holds destination → holds (purgeStagedDedup destination now)
  receipt : ∀ destination staged record now, holds destination →
    stageDedup destination record config.maxDedupBytes topology.timings.receiptRetentionMillis now =
      .ok staged → holds staged
  record : ∀ destination sent records, holds destination →
    destination.range.contains (topology.keyToken hashing sent.key) →
    stageRecord destination.records sent = .ok records → holds { destination with records }
  advance : ∀ destination, holds destination →
    holds { destination with watermark := destination.watermark + 1 }

structure StagingKeeps (allowed : MigrationRecord → Prop) (holds : DestinationMigration → Prop) :
    Prop where
  purge : ∀ destination now, holds destination → holds (purgeStagedDedup destination now)
  receipt : ∀ destination staged record now, holds destination →
    stageDedup destination record config.maxDedupBytes topology.timings.receiptRetentionMillis now =
      .ok staged → holds staged
  record : ∀ destination sent records, holds destination → allowed sent →
    destination.range.contains (topology.keyToken hashing sent.key) →
      stageRecord destination.records sent = .ok records →
      holds { destination with records }
  advance : ∀ destination, holds destination →
    holds { destination with watermark := destination.watermark + 1 }

/-- The records a batch sends. -/
def sentRecords (snapshot : List MigrationRecord) (entries : List JournalRecord) : List MigrationRecord :=
  snapshot ++ entries.filterMap (·.record)

namespace StagingKeeps

variable {hashing config topology} {allowed : MigrationRecord → Prop}
  {holds : DestinationMigration → Prop}
  (keeps : StagingKeeps hashing config topology allowed holds)

include keeps

theorem snapshot_records (sent : List MigrationRecord) (kind : ∀ record ∈ sent, allowed record)
    (destination : DestinationMigration) (start : holds destination) :
    holds (stageSnapshotRecords hashing topology destination sent).1 := by
  induction sent generalizing destination with
  | nil => exact start
  | cons record rest ih =>
      unfold stageSnapshotRecords
      split
      · exact start
      · rename_i inside
        split
        · exact start
        · rename_i records staged
          apply ih (fun record listed => kind record (List.mem_cons_of_mem _ listed))
          exact keeps.record destination record records start (kind record List.mem_cons_self)
            (Bool.eq_true_of_not_eq_false inside) staged

theorem journal_record (now : Instant) (sent : MigrationRecord) (kind : allowed sent)
    (destination : DestinationMigration) (start : holds destination)
    (inside : destination.range.contains (topology.keyToken hashing sent.key)) :
    holds (stageJournalRecord config topology now destination (destination.watermark + 1) sent).1 := by
  have receipted : ∀ staged, (if sent.mutationId.isEmpty then .ok destination
      else stageDedup destination (journalReceipt sent) config.maxDedupBytes
        topology.timings.receiptRetentionMillis now) =
        .ok staged → holds staged ∧ staged.range = destination.range ∧
            staged.watermark = destination.watermark := by
    intro staged accepted
    split at accepted
    · obtain rfl := Except.ok.inj accepted
      exact ⟨start, rfl, rfl⟩
    · refine ⟨keeps.receipt _ _ _ _ start accepted, ?_⟩
      obtain ⟨_, _, rfl⟩ := stage_dedup_frame _ _ _ _ _ _ accepted
      exact ⟨rfl, rfl⟩
  unfold stageJournalRecord
  simp only
  split
  · exact start
  · rename_i staged accepted
    obtain ⟨held, range, watermark⟩ := receipted staged accepted
    split
    · exact held
    · rename_i records merged
      have stored := keeps.record staged sent records held kind (range ▸ inside) merged
      rw [← watermark]
      exact keeps.advance _ stored

theorem journal_records (now : Instant) (entries : List JournalRecord)
    (kind : ∀ record ∈ entries.filterMap (·.record), allowed record) (destination : DestinationMigration)
    (start : holds destination) :
    holds (stageJournalRecords hashing config topology now destination entries).1 := by
  induction entries generalizing destination with
  | nil => exact start
  | cons entry rest ih =>
      have later : ∀ record ∈ rest.filterMap (·.record), allowed record := fun record listed =>
        kind record (by
          obtain ⟨entry, member, sent⟩ := List.mem_filterMap.mp listed
          exact List.mem_filterMap.mpr ⟨entry, List.mem_cons_of_mem _ member, sent⟩)
      unfold stageJournalRecords
      split
      · exact ih later destination start
      · split
        · exact start
        · rename_i next
          split
          · exact start
          · rename_i sent found
            split
            · exact start
            · rename_i inside
              have one := keeps.journal_record now sent
                (kind sent (List.mem_filterMap.mpr ⟨entry, List.mem_cons_self, found⟩))
                destination start (Bool.eq_true_of_not_eq_false inside)
              rw [← not_not.mp next] at one
              split
              · rename_i staged _ failed
                rw [failed] at one
                exact one
              · rename_i staged accepted
                rw [accepted] at one
                exact ih later staged one

theorem batch (clock : Clock) (snapshot : List MigrationRecord) (entries : List JournalRecord)
    (kind : ∀ record ∈ sentRecords snapshot entries, allowed record) (destination : DestinationMigration)
    (start : holds destination) :
    holds (stageBatch hashing config topology clock destination snapshot entries).1 := by
  have pages := keeps.snapshot_records snapshot
    (fun record listed => kind record (List.mem_append_left _ listed)) _
    (keeps.purge destination clock.now start)
  unfold stageBatch
  split
  · rename_i staged _ failed
    rw [failed] at pages
    exact pages
  · rename_i staged accepted
    rw [accepted] at pages
    exact keeps.journal_records clock.later entries
      (fun record listed => kind record (List.mem_append_right _ listed)) staged pages

theorem dedup_records (now : Instant) (records : List DeduplicationRecord)
    (destination : DestinationMigration)
    (start : holds destination) :
    holds (stageDedupRecords hashing config topology now destination records).1 := by
  induction records generalizing destination with
  | nil => exact start
  | cons record rest ih =>
      unfold stageDedupRecords
      split
      · exact start
      · split
        · exact start
        · rename_i staged accepted
          exact ih staged (keeps.receipt _ _ _ _ start accepted)

end StagingKeeps

theorem StagingClosed.keeps {hashing : Hashing} {config : NodeConfig} {topology : TopologySnapshot}
    {holds : DestinationMigration → Prop} (closed : StagingClosed hashing config topology holds) :
    StagingKeeps hashing config topology (fun _ => True) holds where
  purge := closed.purge
  receipt := closed.receipt
  record destination sent records start _ := closed.record destination sent records start
  advance := closed.advance

/-- Every prepared destination has the property. -/
def NodeState.Destinations (state : NodeState) (holds : DestinationMigration → Prop) : Prop :=
  ∀ key destination, state.destinations.lookup key = some destination → holds destination

end Staging

end Hashring
