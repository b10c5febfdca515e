import Hashring.NodeIndices
import Hashring.OwnVersions
import Hashring.OwnerWrite
import Hashring.RangeStaging
import Hashring.StreamLog
import Hashring.Transition

/-! One range on its way from a source to a destination. Between the two
preparations and the commit, writes and expiry sweeps on the source, page
reads, batches of any page that was ever read, and everything else either node
does follow in any order. A page that was read stays available: a batch may be
late, repeated, or retried after it failed midway. -/
namespace Hashring.RangeMove

structure Move where
  source : NodeProcess
  destination : NodeState
  snapshotPages : List (Nat × SnapshotPageResponse) := []
  dedupPages : List (Nat × DedupSnapshotPageResponse) := []
  changelogPages : List ChangelogPageResponse := []
  /-- Cursor intervals of the snapshot pages that were applied with success. -/
  snapshotApplied : List (Nat × Nat) := []
  dedupApplied : List (Nat × Nat) := []
  /-- The watermark the pause answered. -/
  finalWatermark : Option Nat := none

inductive Event where
  | write (clock : Clock) (request : WriteRequest) (ready : Readiness)
  | finishAcks (now : Instant) (reached : Bool) (epoch : Nat) (mutationId : String)
      (version : RecordVersion)
      (required : List RequiredAck)
  | sweep (nowUnixMillis limit : Nat)
  | purge (now : Instant)
  | sourceOther (rest : NodeProcess)
  | readSnapshot (cursor maxBytes : Nat)
  | readDedup (now : Instant) (cursor maxBytes : Nat)
  | readChangelog (now : Instant) (afterWatermark maxBytes : Nat)
  | pause
  | applyBatch (clock : Clock) (snapshot : Option (Nat × SnapshotPageResponse))
      (changelog : Option ChangelogPageResponse)
  | applyDedup (clock : Clock) (page : Nat × DedupSnapshotPageResponse)
  | destinationOther (state : NodeState)

/-- The indices a node keeps beside its record and receipt maps agree with them. -/
structure NodeSound (hashing : Hashing) (state : NodeState) : Prop where
  recordsIndexed : NodeState.RecordsIndexed hashing state
  receiptsScheduled : ReceiptsScheduled state
  receiptsIndexed : ReceiptsIndexed hashing state

section

variable (hashing : Hashing) (sourceConfig destinationConfig : NodeConfig) (range : RangeSpec)

def begin (source : NodeProcess) (destination : NodeState) : Move where
  source := { source with state := (prepareSourceRange sourceConfig source.state (some range)).1 }
  destination := (prepareDestinationRange destinationConfig destination (some range)).1

/-- Any activity of the source that leaves records, receipts, sequence and
source ranges alone. -/
def keepSource (state : NodeState) (rest : NodeProcess) : NodeProcess :=
  { rest with
    state := { rest.state with
      topology := state.topology
      records := state.records
      nextSequence := state.nextSequence
      sources := state.sources
      dedup := state.dedup } }

def applied (intervals : List (Nat × Nat)) (answer : Except Status Unit) (interval : Option (Nat × Nat)) :
    List (Nat × Nat) :=
  match answer with
  | .ok () => intervals ++ interval.toList
  | .error _ => intervals

def migrationBatch (snapshot : Option (Nat × SnapshotPageResponse))
    (changelog : Option ChangelogPageResponse) :
    ApplyMigrationBatchRequest where
  changeId := range.changeId
  rangeId := range.rangeId
  snapshotRecords := snapshot.elim [] fun page => page.2.records
  journalRecords := changelog.elim [] fun page => page.records

def next (move : Move) : Event → Move
  | .write clock request ready =>
      { move with source := (commitRequest hashing sourceConfig clock move.source request ready).1 }
  | .finishAcks now reached epoch mutationId version required =>
      { move with
        source := { move.source with
          state := (finishRequiredAcks now move.source.state reached epoch mutationId version
            required).1 } }
  | .sweep nowUnixMillis limit =>
      { move with
        source := { move.source with
          state := (sweepExpiredRecords hashing nowUnixMillis limit move.source.state).1 } }
  | .purge now =>
      { move with source := { move.source with state := purgeExpiredDedup hashing move.source.state now } }
  | .sourceOther rest => { move with source := keepSource move.source.state rest }
  | .readSnapshot cursor maxBytes =>
      match readSnapshotPage sourceConfig move.source.state ⟨range.changeId, range.rangeId, cursor,
        maxBytes⟩ with
      | .error _ => move
      | .ok page => { move with snapshotPages := (cursor, page) :: move.snapshotPages }
  | .readDedup now cursor maxBytes =>
      match readDedupSnapshotPage sourceConfig now move.source.state
          ⟨range.changeId, range.rangeId, cursor, maxBytes⟩ with
      | .error _ => move
      | .ok page => { move with dedupPages := (cursor, page) :: move.dedupPages }
  | .readChangelog now afterWatermark maxBytes =>
      match readChangelogPage sourceConfig now move.source.state
          ⟨range.changeId, range.rangeId, afterWatermark, maxBytes⟩ with
      | .error _ => move
      | .ok page => { move with changelogPages := page :: move.changelogPages }
  | .pause =>
      match pauseRangeWrites move.source.state range.key with
      | (_, .error _) => move
      | (state, .ok watermark) =>
          { move with source := { move.source with state }, finalWatermark := some watermark }
  | .applyBatch clock snapshot changelog =>
      let (destination, answer) := applyMigrationBatch hashing destinationConfig clock move.destination
        (migrationBatch range snapshot changelog)
      { move with
        destination
        snapshotApplied := applied move.snapshotApplied answer
          (snapshot.map fun page => (page.1, page.2.nextCursor)) }
  | .applyDedup clock page =>
      let (destination, answer) := applyDedupBatch hashing destinationConfig clock move.destination
        ⟨range.changeId, range.rangeId, page.2.records⟩
      { move with
        destination
        dedupApplied := applied move.dedupApplied answer (some (page.1, page.2.nextCursor)) }
  | .destinationOther state => { move with destination := state }

/-- A write passed its own lookup section; a batch sends pages that were read;
the rest of the destination keeps topology, staging and indices. -/
def Admissible (move : Move) : Event → Prop
  | .write _ request ready =>
      ∃ now earlier, lookupRequest hashing sourceConfig now earlier request =
        .proceed ready.token ready.tokenSeed
  | .applyBatch _ snapshot changelog =>
      (∀ page ∈ snapshot, page ∈ move.snapshotPages) ∧ ∀ page ∈ changelog, page ∈ move.changelogPages
  | .applyDedup _ page => page ∈ move.dedupPages
  | .destinationOther state =>
      state.topology = move.destination.topology ∧
        state.destinations.lookup range.key = move.destination.destinations.lookup range.key ∧
        NodeSound hashing state
  | _ => True

def Step (before : Move) (event : Event) (after : Move) : Prop :=
  Admissible hashing sourceConfig range before event ∧
    after = next hashing sourceConfig destinationConfig range before event

def Permitted : Move → List Event → Prop :=
  Transition.Permits (Admissible hashing sourceConfig range)
    (next hashing sourceConfig destinationConfig range)

/-- The intervals cover every position below `length`. -/
def Covers (intervals : List (Nat × Nat)) (length : Nat) : Prop :=
  ∀ index < length, ∃ interval ∈ intervals, interval.1 ≤ index ∧ index < interval.2

/-- The range was cut over: the source paused, every snapshot page applied, and
the destination at the watermark the pause answered. -/
def CutOver (move : Move) (source : SourceMigration) (staged : DestinationMigration) : Prop :=
  move.source.state.sources.lookup range.key = some source ∧
    move.destination.destinations.lookup range.key = some staged ∧ source.writesPaused = true ∧
    move.finalWatermark = some staged.watermark ∧ Covers move.snapshotApplied source.snapshotKeys.length

/-- Two nodes as their runs have left them, both prepared for a range that is new to
either. -/
structure Ready (source : NodeProcess) (destination : NodeState) : Prop where
  sourceReached : ReachedNode hashing sourceConfig source
  destinationReached : ∃ topology events dispatch,
    Transition.Run (NodeProcess.Step hashing destinationConfig)
    { state := { topology } } events { state := destination, dispatch }
  sourceFresh : source.state.sources.lookup range.key = none
  destinationFresh : destination.destinations.lookup range.key = none
  sourcePrepared : ∃ id, (prepareSourceRange sourceConfig source.state (some range)).2 = .ok id
  destinationPrepared : ∃ id,
    (prepareDestinationRange destinationConfig destination (some range)).2 = .ok id

end

theorem permitted_run (hashing : Hashing) (sourceConfig destinationConfig : NodeConfig)
    (range : RangeSpec) (events : List Event) (move : Move)
    (permitted : Permitted hashing sourceConfig destinationConfig range move events) :
    Transition.Run (Step hashing sourceConfig destinationConfig range) move events
      (events.foldl (next hashing sourceConfig destinationConfig range) move) :=
  Transition.permitted_run _ _ (fun _ _ admitted => ⟨admitted, rfl⟩) events move permitted

theorem lookup_proceeds_token (hashing : Hashing) (config : NodeConfig) (now : Instant)
    (state : NodeState) (request : WriteRequest) (token : Token) (seed : Nat)
    (proceeded : lookupRequest hashing config now state request = .proceed token seed) :
    token = keyToken hashing request.key seed := by
  unfold lookupRequest at proceeded
  split at proceeded
  · exact absurd proceeded (by simp)
  · unfold lookupReceipt at proceeded
    simp only at proceeded
    split at proceeded
    · exact absurd proceeded (by simp)
    · exact absurd proceeded (by simp)
    · split at proceeded
      · exact absurd proceeded (by simp)
      · obtain ⟨rfl, rfl⟩ := LookupOutcome.proceed.inj proceeded
        rfl

section Reaches

variable {hashing : Hashing} {config : NodeConfig}

theorem handle_scheduled {process : NodeProcess} (event : NodeEvent) (scheduled : ReceiptsScheduled process.state) :
    ReceiptsScheduled (process.handle hashing config event).state := by
  have rule : StoreRule hashing config process.state event
      (fun before after => ReceiptsScheduled before → ReceiptsScheduled after) := {
    refl := fun _ => id
    trans := fun early late held => late (early held)
    stores := fun _ _ same held => by
      unfold ReceiptsScheduled
      rw [same.dedup, same.dedupExpirations]
      exact held
    -- The operations on receipts; everything else leaves table and heap alone.
    purge := fun now before held => purge_expired_scheduled hashing before now held
    write := by
      intro clock request ready _ after plan entries prepared stored held
      obtain ⟨_, _, numbered⟩ := prepare_frame _ _ _ _ stored.fanned
      rw [stored.result]
      refine (store_write_effect hashing clock prepared plan _ ready.token ready.followers
        entries).receiptsScheduled ?_
      rw [numbered]
      exact held
    acks := fun id version before held => complete_required_acks_scheduled held id version
    entry := fun clock entry _ before record _ _ held =>
      accept_entry_scheduled hashing clock before entry record held
    range := by
      rintro operation _ after step held
      cases step with
      | kept same =>
          unfold ReceiptsScheduled
          rw [same.dedup, same.dedupExpirations]
          exact held
      | refused clock => exact purge_expired_scheduled hashing process.state clock.later held
      | source | paused | destination | batch | receipts | activated => exact held
      | committed clock key destination =>
          have replaced := (OnlyStaging.of_records (replace_range_only hashing _ destination.range
            destination.records)).scheduled
              (purge_expired_scheduled hashing process.state clock.later held)
          exact RangeOperation.adopt_scheduled hashing (destination.liveDedup clock.now).entries _
            replaced
      | cleaned key source =>
          have dropped := (remove_keys_fold (droppedKeys config process.state source.range) process.state).1
          exact ((OnlyStaging.of_records dropped).trans (OnlyStaging.remove_source _ key)).scheduled held
      | aborted key =>
          exact ((OnlyStaging.remove_source process.state key).with_destinations _).scheduled held
      | cleared epoch =>
          exact ((OnlyStaging.remove_sources _ process.state).with_destinations _).scheduled held
    sweep := fun _ _ _ entry before _ _ held =>
      (OnlyStaging.of_records (sweep_entry_swept hashing before entry).only).scheduled held
    release := fun key before held => (OnlyStaging.remove_source before key).scheduled held
    unprepare := fun _ _ _ => id
    adopt := by
      intro topology _ _ before _ held
      unfold NodeState.setTopology
      split <;> exact held }
  exact handle_rule rule scheduled

theorem NodeSound.reached {topology : TopologySnapshot} {events : List NodeEvent} {process : NodeProcess}
    (run : Transition.Run (NodeProcess.Step hashing config) { state := { topology } } events process) :
    NodeSound hashing process.state := by
  have indexed := NodeIndexed.reached run
  have scheduled := Transition.run_invariant (fun _ => True)
    (fun process => ReceiptsScheduled process.state)
    (fun before event after _ held taken => by
      obtain ⟨sources, _, rfl⟩ := taken
      have shuffled : ReceiptsScheduled { before.state with sources } := held
      exact handle_scheduled event shuffled) run (fun _ _ => trivial)
        (fun _ _ found => absurd found (by simp))
  exact ⟨indexed.records, scheduled, indexed.receipts⟩

variable {sourceConfig destinationConfig : NodeConfig} {range : RangeSpec} {source : NodeProcess}
  {destination : NodeState}

namespace Ready

variable (ready : Ready hashing sourceConfig destinationConfig range source destination)

include ready

theorem sourceSound : NodeSound hashing source.state := by
  obtain ⟨_, _, run⟩ := ready.sourceReached.steps
  exact NodeSound.reached run

theorem destinationSound : NodeSound hashing destination := by
  obtain ⟨_, _, _, run⟩ := ready.destinationReached
  exact NodeSound.reached run

theorem versions : VersionsBelow hashing sourceConfig source.state :=
  (VersionsAssigned.reached ready.sourceReached).below

end Ready
end Reaches
end Hashring.RangeMove
