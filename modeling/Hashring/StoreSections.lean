import Hashring.WriteSections

/-! The migration RPCs, replication entries and sweeps by what they do to the
stores of a node, each with the tests of the source that let it through. -/
namespace Hashring

section Ranges

variable (hashing : Hashing) (config : NodeConfig)

def NodeState.withDestination (state : NodeState) (key : RangeKey)
    (destination : DestinationMigration) : NodeState :=
  { state with destinations := state.destinations.insert key destination }

/-- The staged receipts a commit looks at. -/
def DestinationMigration.liveDedup (destination : DestinationMigration) (now : Instant) :
    FiniteMap String StagedDedup :=
  destination.dedup.retain fun _ entry => now < entry.expiresAt

def commitRange (clock : Clock) (state : NodeState) (key : RangeKey)
    (destination : DestinationMigration) : NodeState :=
  let replaced := replaceRange hashing (purgeExpiredDedup hashing state clock.later)
      destination.range destination.records
  let adopted := (destination.liveDedup clock.now).entries.foldl
    (fun state entry => adoptReceipt hashing state entry.1 entry.2) replaced
  adopted.withDestination key { destination with committed := true }

/-- The keys a source gives up at its cleanup. -/
def droppedKeys (state : NodeState) (range : RangeSpec) : List (Token × Bytes) :=
  (state.recordKeysInRange range).filter fun entry =>
    match state.topology.replicaNodeIdsForToken entry.1 with
    | .ok replicas => !replicas.contains config.nodeId
    | .error _ => false

inductive RangeSection (before : NodeState) : RangeOperation → NodeState → Prop where
  | kept {operation : RangeOperation} {after : NodeState} (same : StoresKept before after) :
      RangeSection before operation after
  | refused (clock : Clock) (key : RangeKey) : RangeSection before (.commitDestination clock key)
      (purgeExpiredDedup hashing before clock.later)
  | source (range : RangeSpec) (valid : range.tryFrom = .ok range)
      (own : range.sourceNodeId = config.nodeId)
      (fresh : before.sources.lookup range.key = none) : RangeSection before (.prepareSource (some range))
      { before with sources := before.sources.insert range.key (frozenSource before range) }
  | paused (key : RangeKey) (source : SourceMigration) (found : before.sources.lookup key = some source) :
      RangeSection before (.pauseWrites key)
        { before with sources := before.sources.insert key { source with writesPaused := true } }
  | destination (range : RangeSpec) (valid : range.tryFrom = .ok range)
      (own : range.destinationNodeId = config.nodeId)
      (fresh : before.destinations.lookup range.key = none) :
        RangeSection before (.prepareDestination (some range))
      (before.withDestination range.key (emptyDestination range))
  | batch (clock : Clock) (request : ApplyMigrationBatchRequest) (destination : DestinationMigration)
      (found : before.destinations.lookup ⟨request.changeId, request.rangeId⟩ = some destination)
      (pending : destination.committed = false) : RangeSection before (.applyBatch clock request)
      (before.withDestination ⟨request.changeId, request.rangeId⟩
        (stageBatch hashing config before.topology clock destination request.snapshotRecords
          request.journalRecords).1)
  | receipts (clock : Clock) (request : ApplyDedupBatchRequest) (destination : DestinationMigration)
      (found : before.destinations.lookup ⟨request.changeId, request.rangeId⟩ = some destination)
      (pending : destination.committed = false) : RangeSection before (.applyDedup clock request)
      (before.withDestination ⟨request.changeId, request.rangeId⟩
        (stageDedupRecords hashing config before.topology
        clock.later (purgeStagedDedup destination clock.now) request.records).1)
  | committed (clock : Clock) (key : RangeKey) (destination : DestinationMigration)
      (found : before.destinations.lookup key = some destination)
        (pending : destination.committed = false)
      (room : (purgeExpiredDedup hashing before clock.later).dedupBytes +
        ((destination.liveDedup clock.now).values.map
        (stagedCost (purgeExpiredDedup hashing before clock.later))).sum ≤ config.maxDedupBytes) :
      RangeSection before (.commitDestination clock key)
        (commitRange hashing clock before key destination)
  | activated (key : RangeKey) (destination : DestinationMigration)
      (found : before.destinations.lookup key = some destination) :
      RangeSection before (.activateDestination key)
        (before.withDestination key { destination with writesActivated := true })
  | cleaned (key : RangeKey) (source : SourceMigration)
      (found : before.sources.lookup key = some source) :
      RangeSection before (.cleanupSource key) (((droppedKeys config before source.range).foldl
        (fun state entry => state.removeRecordAt entry.1 entry.2) before).removeSource key)
  | aborted (key : RangeKey) : RangeSection before (.abort key)
      { before.removeSource key with destinations := (before.removeSource key).destinations.erase key }
  | cleared (epoch : Nat) : RangeSection before (.abortRepairs epoch) before.clearReplicaRepairStaging

theorem perform_sections (state : NodeState) (operation : RangeOperation) :
    RangeSection hashing config state operation (operation.perform hashing config state).1 := by
  -- A refusal leaves the state as it was. What passes every test is the section that
  -- names them.
  have same : ∀ operation, RangeSection hashing config state operation state :=
    fun _ => .kept (StoresKept.refl state)
  cases operation with
  | prepareSource request =>
      simp only [RangeOperation.perform, prepareSourceRange]
      split
      · exact same _
      · split
        · exact same _
        · rename_i range checked valid
          obtain rfl := try_from_ok valid
          split
          · exact same _
          · rename_i own
            split
            · split <;> exact same _
            · rename_i fresh
              exact .source checked valid (not_not.mp own) fresh
  | prepareDestination request =>
      simp only [RangeOperation.perform, prepareDestinationRange]
      split
      · exact same _
      · split
        · exact same _
        · rename_i range checked valid
          obtain rfl := try_from_ok valid
          split
          · exact same _
          · rename_i own
            split
            · split <;> exact same _
            · rename_i fresh
              exact .destination checked valid (not_not.mp own) fresh
  | applyBatch clock request =>
      simp only [RangeOperation.perform, applyMigrationBatch]
      split
      · exact same _
      · rename_i destination found
        split
        · exact same _
        · rename_i pending
          exact .batch clock request destination found (Bool.not_eq_true _ ▸ pending)
  | applyDedup clock request =>
      simp only [RangeOperation.perform, applyDedupBatch]
      split
      · exact same _
      · rename_i destination found
        split
        · exact same _
        · rename_i pending
          exact .receipts clock request destination found (Bool.not_eq_true _ ▸ pending)
  | pauseWrites key =>
      simp only [RangeOperation.perform, pauseRangeWrites]
      split
      · exact same _
      · rename_i source found
        exact .paused key source found
  | commitDestination clock key =>
      simp only [RangeOperation.perform, commitDestinationRange]
      split
      · exact same _
      · rename_i destination found
        split
        · exact same _
        · rename_i pending
          split
          · exact .refused clock key
          · split
            · exact .refused clock key
            · rename_i room
              exact .committed clock key destination found (Bool.not_eq_true _ ▸ pending) (not_lt.mp room)
  | activateDestination key =>
      simp only [RangeOperation.perform, activateDestinationRange]
      split
      · exact same _
      · rename_i destination found
        split
        · exact same _
        · exact .activated key destination found
  | cleanupSource key =>
      simp only [RangeOperation.perform, cleanupSourceRange]
      split
      · exact same _
      · rename_i source found
        exact .cleaned key source found
  | abort key => exact .aborted key
  | abortRepairs epoch =>
      simp only [RangeOperation.perform, abortReplicaRepairs]
      split
      · exact same _
      · exact .cleared epoch

theorem replace_range_only (state : NodeState) (range : RangeSpec) (records : FiniteMap Bytes Record) :
    NodeState.OnlyRecords state (replaceRange hashing state range records) :=
  (remove_keys_fold (state.recordKeysInRange range) state).1.trans
    (apply_records_only hashing records.entries _)

theorem commit_range_destinations (clock : Clock) (state : NodeState) (key : RangeKey)
    (destination : DestinationMigration) :
    (commitRange hashing clock state key destination).destinations =
      state.destinations.insert key { destination with committed := true } := by
  have purged := (purge_expired_only hashing state clock.later).destinations
  have replaced := (replace_range_only hashing (purgeExpiredDedup hashing state clock.later)
    destination.range
    destination.records).destinations
  have adopted := (adopt_receipts_only hashing (destination.liveDedup clock.now).entries
      (replaceRange hashing
    (purgeExpiredDedup hashing state clock.later) destination.range
      destination.records)).receipts.destinations
  simp only [commitRange, NodeState.withDestination]
  rw [adopted, replaced, purged]

theorem commit_range_topology (clock : Clock) (state : NodeState) (key : RangeKey)
    (destination : DestinationMigration) :
    (commitRange hashing clock state key destination).topology = state.topology := by
  have adopted := (adopt_receipts_only hashing (destination.liveDedup clock.now).entries
      (replaceRange hashing
    (purgeExpiredDedup hashing state clock.later) destination.range
      destination.records)).receipts.topology
  exact adopted.trans ((replace_range_only hashing _ destination.range destination.records).topology.trans
    (purge_expired_only hashing state clock.later).topology)

theorem commit_range_lookup (clock : Clock) (state : NodeState) (key : RangeKey)
    (destination : DestinationMigration)
    (indexed : NodeState.RecordsIndexed hashing state)
    (inside : ∀ key, key ∈ destination.records →
      destination.range.contains (state.tokenOf hashing key) = true) (probe : Bytes) :
    (commitRange hashing clock state key destination).records.lookup probe =
      if destination.range.contains (state.tokenOf hashing probe) then destination.records.lookup probe
      else state.records.lookup probe := by
  have purge := purge_expired_only hashing state clock.later
  obtain ⟨_, _, _, _, _, adopted⟩ := adopt_receipts_only hashing (destination.liveDedup clock.now).entries
    (replaceRange hashing (purgeExpiredDedup hashing state clock.later) destination.range
      destination.records)
  simp only [commitRange, NodeState.withDestination, adopted]
  generalize purgeExpiredDedup hashing state clock.later = purged at purge
  obtain ⟨_, _, _, _, _, _, _, _, _, same⟩ := purge
  have sameRecords : purged.records = state.records := by rw [same]
  have sameTopology : purged.topology = state.topology := by rw [same]
  have stillIndexed : NodeState.RecordsIndexed hashing purged := by
    rw [same]
    exact indexed
  have replaced := (replace_range_effect hashing purged destination.range destination.records
      stillIndexed (by
    intro key record found
    rw [NodeState.tokenOf, sameTopology]
    exact inside key ((FiniteMap.mem_iff_lookup _ _).mpr ⟨record, found⟩))).2.2 probe
  rw [sameRecords, NodeState.tokenOf, sameTopology] at replaced
  exact replaced

variable {hashing config}

def RangeOperation.records : RangeOperation → List MigrationRecord
  | .applyBatch _ request => sentRecords request.snapshotRecords request.journalRecords
  | _ => []

theorem RangeSection.staged {before after : NodeState} {operation : RangeOperation}
    {allowed : MigrationRecord → Prop} {holds : DestinationMigration → Prop}
    (keeps : StagingKeeps hashing config before.topology allowed holds)
    (kind : ∀ record ∈ operation.records, allowed record)
    (fresh : ∀ range, holds (emptyDestination range))
    (flagged : ∀ destination committed writesActivated, holds destination →
      holds { destination with committed, writesActivated })
    (step : RangeSection hashing config before operation after) (start : before.Destinations holds) :
    after.Destinations holds := by
  -- Most operations store one destination and leave the others as they were.
  have stored : ∀ key destination, holds destination →
      (before.withDestination key destination).Destinations holds := by
    intro key destination held probe other found
    rw [NodeState.withDestination, FiniteMap.lookup_insert_if] at found
    split at found
    · exact Option.some.inj found ▸ held
    · exact start probe other found
  have unchanged : ∀ state : NodeState, state.destinations = before.destinations → state.Destinations holds := by
    intro state same key destination found
    rw [same] at found
    exact start key destination found
  cases step with
  | kept same => exact unchanged _ same.destinations
  | refused clock key =>
      exact unchanged _ (purge_expired_only hashing before clock.later).destinations
  | source range => exact unchanged _ rfl
  | paused key source => exact unchanged _ rfl
  | destination range => exact stored _ _ (fresh range)
  | batch clock request destination found =>
      exact stored _ _ (keeps.batch clock _ _ kind destination (start _ _ found))
  | receipts clock request destination found =>
      exact stored _ _ (keeps.dedup_records _ _ _ (keeps.purge destination clock.now (start _ _ found)))
  | committed clock key destination found =>
      intro probe other stays
      rw [commit_range_destinations] at stays
      exact stored key _ (flagged destination true destination.writesActivated (start _ _ found)) probe other stays
  | activated key destination found =>
      exact stored _ _ (flagged destination destination.committed true (start _ _ found))
  | cleaned key source found =>
      have dropped := (remove_keys_fold (droppedKeys config before source.range) before).1.destinations
      exact unchanged _ ((remove_source_destinations _ key).trans dropped)
  | aborted key =>
      intro probe other found
      rw [FiniteMap.lookup_erase_if] at found
      split at found
      · exact absurd found (by simp)
      · exact unchanged _ (remove_source_destinations before key) probe other found
  | cleared epoch =>
      intro probe other found
      rw [NodeState.clearReplicaRepairStaging, FiniteMap.lookup_retain] at found
      exact unchanged _ (remove_sources_destinations _ before) probe other
        (Option.filter_eq_some_iff.mp found).1

theorem RangeSection.topology {before after : NodeState} {operation : RangeOperation}
    (step : RangeSection hashing config before operation after) : after.topology = before.topology := by
  cases step with
  | kept same => exact same.topology
  | refused clock key => exact (purge_expired_only hashing before clock.later).topology
  | source | paused | destination | batch | receipts | activated => rfl
  | committed clock key destination => exact commit_range_topology hashing clock before key destination
  | cleaned key source =>
      have dropped := (remove_keys_fold (droppedKeys config before source.range) before).1.topology
      exact (remove_source_authority _ key).topology.trans dropped
  | aborted key => exact (remove_source_authority before key).topology
  | cleared epoch => exact (clear_repairs_authority before).topology

theorem RangeSection.sequence {before after : NodeState} {operation : RangeOperation}
    (step : RangeSection hashing config before operation after) :
    after.nextSequence = before.nextSequence := by
  have released : ∀ {state : NodeState}, OnlyStaging before state →
      state.nextSequence = before.nextSequence := by
    rintro state ⟨_, _, _, _, _, _, rfl⟩
    rfl
  cases step with
  | kept same => exact same.sequence
  | refused clock key => exact (purge_expired_only hashing before clock.later).nextSequence
  | source | paused | destination | batch | receipts | activated => rfl
  | committed clock key destination =>
      have adopted := (adopt_receipts_only hashing (destination.liveDedup clock.now).entries
          (replaceRange hashing
        (purgeExpiredDedup hashing before clock.later) destination.range
          destination.records)).receipts.nextSequence
      exact adopted.trans ((replace_range_only hashing _ destination.range
        destination.records).nextSequence.trans
        (purge_expired_only hashing before clock.later).nextSequence)
  | cleaned key source =>
      have dropped := (remove_keys_fold (droppedKeys config before source.range) before).1
      exact released ((OnlyStaging.of_records dropped).trans (OnlyStaging.remove_source _ key))
  | aborted key => exact released ((OnlyStaging.remove_source before key).with_destinations _)
  | cleared epoch => exact released ((OnlyStaging.remove_sources _ before).with_destinations _)

end Ranges

def NodeEvent.entries : NodeEvent → List ReplicationEntry
  | .replicate _ entry => [entry]
  | .replicateBatch _ entries => entries
  | _ => []

def NodeEvent.records : NodeEvent → List MigrationRecord
  | .range operation => operation.records
  | _ => []

theorem guard_passed {ε α : Type} {refuses : Prop} [Decidable refuses] {error : ε}
    {rest : Except ε α} {value : α}
    (accepted : (if refuses then .error error else rest) = .ok value) : ¬refuses ∧ rest = .ok value := by
  by_cases refused : refuses
  · exact absurd ((if_pos refused).symm.trans accepted) (by simp)
  · exact ⟨refused, (if_neg refused).symm.trans accepted⟩

/-- What the checks of a follower entry have found: the version its stream is of, for
the owner of the key in the installed epoch, and this node among the followers. -/
structure EntryChecked (hashing : Hashing) (config : NodeConfig) (state : NodeState)
    (entry : ReplicationEntry)
    (record : Record) : Prop where
  stored : ∃ version carried,
    record = Record.stored entry.value version entry.deleted entry.expiresAtUnixMillis carried
  epoch : record.version.topologyEpoch = state.topology.epoch
  owner : ∃ owner, state.topology.ownerForToken (state.tokenOf hashing entry.key) = .ok owner ∧
    owner.nodeId = record.version.ownerNodeId
  follower : ∃ replicas, state.topology.replicaNodeIdsForToken (state.tokenOf hashing entry.key) =
    .ok replicas ∧
    config.nodeId ∈ replicas.tail

theorem entry_checked {hashing : Hashing} {config : NodeConfig} {state : NodeState}
    {entry : ReplicationEntry} {record : Record}
    (checked : checkReplicationEntry hashing config state entry = .ok record) :
    EntryChecked hashing config state entry record := by
  unfold checkReplicationEntry at checked
  have sized := (guard_passed (guard_passed (guard_passed (guard_passed checked).2).2).2).2
  by_cases carried : entry.deleted = true ∧ entry.value ≠ []
  · exact absurd ((dif_pos carried).symm.trans sized) (by simp)
  · have versioned := (dif_neg carried).symm.trans sized
    split at versioned
    · exact absurd versioned (by simp)
    · rename_i version _
      obtain ⟨authority, rest⟩ := guard_passed versioned
      obtain ⟨current, rest⟩ := guard_passed rest
      rw [not_or, not_not, not_not] at authority
      rw [not_not] at current
      split at rest
      · exact absurd rest (by simp)
      · rename_i owner routed
        obtain ⟨issued, rest⟩ := guard_passed rest
        rw [not_not] at issued
        split at rest
        · exact absurd rest (by simp)
        · rename_i replicas placed
          obtain ⟨desired, stored⟩ := guard_passed rest
          obtain rfl := Except.ok.inj stored
          exact ⟨⟨version, carried, rfl⟩, authority.1.trans current,
            ⟨owner, routed, issued.trans authority.2.symm⟩,
            replicas, placed, not_not.mp desired⟩

/-- What a follower entry passed before it was applied to `before`, its expired
receipts already gone. -/
structure EntryAdmitted (hashing : Hashing) (config : NodeConfig) (before : NodeState)
    (entry : ReplicationEntry)
    (record : Record) : Prop where
  checked : checkReplicationEntry hashing config before entry = .ok record
  fresh : before.dedup.lookup entry.mutationId = none
  room : before.dedupBytes + dedupRetainedBytes entry.mutationId entry.key.length
    record.version.ownerNodeId.utf8ByteSize ≤
    config.maxDedupBytes

structure StoreRule (hashing : Hashing) (config : NodeConfig) (start : NodeState) (event : NodeEvent)
    (related : NodeState → NodeState → Prop) : Prop where
  refl : ∀ state, related state state
  trans : ∀ {first second third}, related first second → related second third → related first third
  stores : ∀ before after, StoresKept before after → related before after
  purge : ∀ now before, related before (purgeExpiredDedup hashing before now)
  write : ∀ clock request ready, event = .commit clock request ready → ∀ after plan entries prepared,
    StoredWrite hashing config clock (purgeExpiredDedup hashing start clock.now) after request ready
      plan entries prepared →
      related (purgeExpiredDedup hashing start clock.now) after
  acks : ∀ id version before, related before (completeRequiredAcks before id version)
  entry : ∀ clock, ∀ entry ∈ event.entries, ∀ before record, before.topology = start.topology →
    EntryAdmitted hashing config before entry record →
      related before (acceptEntry hashing clock before entry record)
  range : ∀ operation, event = .range operation →
    ∀ after, RangeSection hashing config start operation after →
    related start after
  sweep : ∀ nowUnixMillis limit, event = .sweep nowUnixMillis limit → ∀ entry before,
    before.topology = start.topology →
    dueExpiration before nowUnixMillis = some entry → related before (sweepEntry hashing before entry).1
  release : ∀ key before, related before (before.removeSource key)
  unprepare : ∀ before destinations, (∀ key destination, destinations.lookup key = some destination →
    before.destinations.lookup key = some destination) → related before { before with destinations }
  adopt : ∀ topology, event.offered = some topology → start.topology.epoch ≤ topology.epoch → ∀ before,
    before.topology = start.topology → related before (before.setTopology hashing topology)

namespace StoreRule

variable {hashing : Hashing} {config : NodeConfig} {start : NodeState} {event : NodeEvent}
variable {related : NodeState → NodeState → Prop} (rule : StoreRule hashing config start event related)

include rule

theorem apply_entry (clock : Clock) (entry : ReplicationEntry) (delivered : entry ∈ event.entries)
    (before : NodeState) (current : before.topology = start.topology) :
    related before (applyReplicationEntry hashing config clock before entry).1 ∧
      (applyReplicationEntry hashing config clock before entry).1.topology = start.topology := by
  have met : related before (before.initStream entry.stream) :=
    rule.stores _ _ ⟨⟨rfl, rfl, rfl, rfl, rfl, rfl, rfl, rfl, rfl, rfl⟩, rfl⟩
  have purged := rule.trans met (rule.purge clock.now (before.initStream entry.stream))
  have kept := (purge_expired_only hashing (before.initStream entry.stream) clock.now).topology
  have cases := apply_entry_cases hashing config clock before entry
  generalize applyReplicationEntry hashing config clock before entry = result at cases
  cases cases with
  | malformed => exact ⟨rule.refl before, current⟩
  | redelivered | conflict | gap | stale => exact ⟨met, current⟩
  | refused => exact ⟨purged, kept.trans current⟩
  | accepted record checked next ahead sized fresh room =>
      have admitted : EntryAdmitted hashing config
          (purgeExpiredDedup hashing (before.initStream entry.stream) clock.now)
          entry record := by
        refine ⟨?_, AList.lookup_eq_none.mpr fresh, room⟩
        unfold checkReplicationEntry at checked ⊢
        rw [NodeState.tokenOf, kept]
        exact checked
      refine ⟨rule.trans purged
        (rule.entry clock entry delivered _ record (kept.trans current) admitted), ?_⟩
      exact ((accept_entry_topology hashing clock _ entry record).trans kept).trans current

theorem apply_entries (clock : Clock) (entries : List ReplicationEntry)
    (delivered : ∀ entry ∈ entries, entry ∈ event.entries) (before : NodeState)
    (current : before.topology = start.topology) :
    related before (replicateMutations hashing config clock before entries).1 := by
  let staying := fun first second : NodeState => first.topology = start.topology →
    related first second ∧ second.topology = start.topology
  have run : staying before (replicateMutations hashing config clock before entries).1 := by
    refine replicate_rule (fun state same => ⟨rule.refl state, same⟩) ?_ ?_ before
    · intro first second third early late same
      obtain ⟨one, still⟩ := early same
      obtain ⟨two, last⟩ := late still
      exact ⟨rule.trans one two, last⟩
    · exact fun entry member state same => rule.apply_entry clock entry (delivered entry member)
        state same
  exact (run current).1

theorem sweep_all {nowUnixMillis most : Nat} (swept : event = .sweep nowUnixMillis most) (limit : Nat)
    (before : NodeState) (current : before.topology = start.topology) :
    related before (sweepExpiredRecords hashing nowUnixMillis limit before).1 := by
  induction limit generalizing before with
  | zero => exact rule.refl before
  | succ limit ih =>
      unfold sweepExpiredRecords
      split
      · exact rule.refl before
      · rename_i entry due
        have kept := (sweep_entry_swept hashing before entry).topology
        exact rule.trans (rule.sweep nowUnixMillis most swept entry before current due)
          (ih _ (kept.trans current))

theorem adopt_offered (process : NodeProcess) (here : process.state = start) (topology : TopologySnapshot)
    (offered : event.offered = some topology) (newer : start.topology.epoch ≤ topology.epoch) :
    related start (adoptTopology hashing process topology).state := by
  rw [← here]
  refine adopt_rule rule.refl rule.trans rule.stores rule.release rule.unprepare process
    fun state same => ?_
  exact rule.adopt topology offered newer state (same.trans (by rw [here]))

end StoreRule

theorem handle_rule {hashing : Hashing} {config : NodeConfig} {process : NodeProcess} {event : NodeEvent}
    {related : NodeState → NodeState → Prop} (rule : StoreRule hashing config process.state event related) :
    related process.state (process.handle hashing config event).state := by
  cases event with
  | commit clock request ready =>
      rcases commit_request_sections hashing config clock process request ready with
        same | same | ⟨plan, entries, prepared, stored⟩
      · exact rule.stores _ _ same
      · exact rule.trans (rule.purge clock.now _) (rule.stores _ _ same)
      · exact rule.trans (rule.purge clock.now _)
          (rule.write clock request ready rfl _ plan entries prepared stored)
  | finishAcks now reached epoch mutationId version required =>
      rw [NodeProcess.handle]
      rcases finish_required_acks_cases now process.state reached epoch mutationId version required
        with same | completed
      · rw [same]
        exact rule.refl _
      · rw [completed]
        exact rule.acks mutationId version _
  | replicate clock entry => exact (rule.apply_entry clock entry List.mem_cons_self _ rfl).1
  | replicateBatch clock entries => exact rule.apply_entries clock entries (fun _ => id) _ rfl
  | range operation =>
      exact rule.range operation rfl _ (perform_sections hashing config process.state operation)
  | sweep nowUnixMillis limit => exact rule.sweep_all rfl limit _ rfl
  | install | refresh =>
      exact NodeProcess.handle_adopting hashing config
        (motive := fun after => related process.state after.state) (rule.refl _)
        (fun topology offered newer => rule.adopt_offered process rfl topology offered newer) trivial
  | checkpoint | renewed | pausePolicy | resumePolicy | collect | send | answered =>
      exact rule.stores _ _ (handle_storeless hashing config process trivial)

theorem handle_staged {hashing : Hashing} {config : NodeConfig} {process : NodeProcess}
    (event : NodeEvent) {allowed : MigrationRecord → Prop} {holds : DestinationMigration → Prop}
    (stages : StagingKeeps hashing config process.state.topology allowed holds)
    (kind : ∀ record ∈ event.records, allowed record)
    (fresh : ∀ range, holds (emptyDestination range))
    (flagged : ∀ destination committed writesActivated, holds destination →
      holds { destination with committed, writesActivated })
    (start : process.state.Destinations holds) :
    (process.handle hashing config event).state.Destinations holds := by
  let keeps := fun before after : NodeState => before.Destinations holds → after.Destinations holds
  have same : ∀ before after : NodeState, after.destinations = before.destinations →
      keeps before after := by
    intro before after equal held key destination found
    rw [equal] at found
    exact held key destination found
  have rule : StoreRule hashing config process.state event keeps := {
    refl := fun _ => id
    trans := fun early late held => late (early held)
    stores := fun before after kept => same before after kept.destinations
    purge := fun now before => same _ _ (purge_expired_only hashing before now).destinations
    write := fun _ _ _ _ _ _ _ _ stored => same _ _ stored.destinations
    acks := fun mutationId version before =>
      same _ _ (complete_required_acks_only before mutationId version).destinations
    entry := by
      intro clock entry _ before record _ _
      obtain ⟨_, filed⟩ := accept_entry_only hashing clock before entry record
      refine same _ _ (filed.destinations.trans ?_)
      exact (NodeState.apply_record_only hashing before entry.key record).destinations
    range := by
      rintro operation rfl after step held
      exact step.staged stages kind fresh flagged held
    sweep := fun _ _ _ entry before _ _ =>
      same _ _ (sweep_entry_swept hashing before entry).only.destinations
    release := fun key before => same _ _ (remove_source_destinations before key)
    unprepare := fun before destinations subset held key destination found => held key destination
      (subset key destination found)
    adopt := by
      intro topology _ _ before _
      unfold NodeState.setTopology
      split <;> exact same _ _ rfl }
  exact handle_rule rule start

theorem handle_destinations {hashing : Hashing} {config : NodeConfig} {process : NodeProcess}
    (event : NodeEvent) {holds : DestinationMigration → Prop}
    (closed : StagingClosed hashing config process.state.topology holds)
    (fresh : ∀ range, holds (emptyDestination range))
    (flagged : ∀ destination committed writesActivated, holds destination →
      holds { destination with committed, writesActivated })
    (start : process.state.Destinations holds) :
    (process.handle hashing config event).state.Destinations holds :=
  handle_staged event closed.keeps (fun _ _ => trivial) fresh flagged start

theorem handle_topology (hashing : Hashing) (config : NodeConfig) (process : NodeProcess)
    (event : NodeEvent) :
    (process.handle hashing config event).state.topology = process.state.topology ∨
      ∃ topology, event.offered = some topology ∧ process.state.topology.epoch ≤ topology.epoch ∧
        (process.handle hashing config event).state.topology = topology := by
  let moves := fun before after : NodeState => after.topology = before.topology ∨
    ∃ topology, event.offered = some topology ∧ process.state.topology.epoch ≤ topology.epoch ∧
      after.topology = topology
  have rule : StoreRule hashing config process.state event moves := {
    refl := fun _ => .inl rfl
    trans := by
      rintro first second third early (same | late)
      · rcases early with kept | ⟨topology, offered, newer, taken⟩
        · exact .inl (same.trans kept)
        · exact .inr ⟨topology, offered, newer, same.trans taken⟩
      · exact .inr late
    stores := fun _ _ same => .inl same.topology
    purge := fun now before => .inl (purge_expired_only hashing before now).topology
    write := fun _ _ _ _ _ _ _ _ stored => .inl stored.topology
    acks := fun id version before => .inl (complete_required_acks_only before id version).topology
    entry := fun clock entry _ before record _ _ =>
      .inl (accept_entry_topology hashing clock before entry record)
    range := fun _ _ _ step => .inl step.topology
    sweep := fun _ _ _ entry before _ _ => .inl (sweep_entry_swept hashing before entry).topology
    release := fun key before => .inl (remove_source_authority before key).topology
    unprepare := fun _ _ _ => .inl rfl
    adopt := fun topology offered newer before _ =>
      .inr ⟨topology, offered, newer, (set_topology_spec hashing before topology).1⟩ }
  exact handle_rule rule

end Hashring
