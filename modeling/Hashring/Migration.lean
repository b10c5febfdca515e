import Hashring.Dedup
import Hashring.VersionedMap

/-! Range migration on a node: preparation, paging, staging, commit and the
release of either side (crates/hashring-node/src/rpc.rs and migration.rs),
with the expiry sweep that has to leave moving ranges alone
(crates/hashring-node/src/expiry.rs). A batch that fails midway keeps what it
had staged before the failure. -/
namespace Hashring

def pageLimit (requested maxValueBytes : Nat) : Nat :=
  max (min (max requested 1) maxMigrationPageBytes) maxValueBytes

/-- The page loop: what `emit` makes of the items, until the next one would
pass the limit. The first record is taken at any size. The cursor counts the
items passed over. -/
def takePage {α β : Type} (emit : α → Option β) (size : β → Nat) (maxBytes : Nat) :
    List α → Nat → List β → Nat → List β × Nat
  | [], _, taken, cursor => (taken, cursor)
  | item :: rest, bytes, taken, cursor =>
      match emit item with
      | none => takePage emit size maxBytes rest bytes taken (cursor + 1)
      | some record =>
          if taken ≠ [] ∧ maxBytes < bytes + size record then (taken, cursor)
          else takePage emit size maxBytes rest (bytes + size record) (taken ++ [record]) (cursor + 1)

theorem take_page_prefix {α β : Type} (emit : α → Option β) (size : β → Nat) (maxBytes : Nat)
    (items : List α) (bytes : Nat) (taken : List β) (cursor : Nat) :
    ∃ count ≤ items.length, takePage emit size maxBytes items bytes taken cursor =
      (taken ++ (items.take count).filterMap emit, cursor + count) := by
  induction items generalizing bytes taken cursor with
  | nil => exact ⟨0, le_refl _, by simp [takePage]⟩
  | cons item rest ih =>
      unfold takePage
      cases emitted : emit item with
      | none =>
          obtain ⟨count, bound, result⟩ := ih bytes taken (cursor + 1)
          refine ⟨count + 1, Nat.succ_le_succ bound, ?_⟩
          simp only [result, List.take_succ_cons, List.filterMap_cons, emitted, Prod.mk.injEq, true_and]
          omega
      | some record =>
          simp only
          split
          · exact ⟨0, Nat.zero_le _, by simp⟩
          · obtain ⟨count, bound, result⟩ := ih (bytes + size record) (taken ++ [record]) (cursor + 1)
            refine ⟨count + 1, Nat.succ_le_succ bound, ?_⟩
            simp only [result, List.take_succ_cons, List.filterMap_cons, emitted, List.append_assoc,
              List.cons_append, List.nil_append, Prod.mk.injEq, true_and]
            omega

def migrationRecordSize (record : MigrationRecord) : Nat :=
  record.key.length + record.value.length + record.mutationId.utf8ByteSize + 128

def applyInternalRecord (records : FiniteMap Bytes Record) (key : Bytes) (record : Record) :
    FiniteMap Bytes Record :=
  match records.lookup key with
  | none => records.insert key record
  | some current =>
      if compareVersions record.version current.version = .gt then records.insert key record else records

/-- `apply_record`: a wire record into the staging map. -/
def stageRecord (records : FiniteMap Bytes Record) (record : MigrationRecord) :
    Except Status (FiniteMap Bytes Record) :=
  match record.version with
  | none => .error ⟨.invalidArgument, "migration record omitted version"⟩
  | some version =>
      if carried : record.deleted = true ∧ record.value ≠ [] then
        .error ⟨.invalidArgument, "deleted migration record must omit its value"⟩
      else
        .ok (applyInternalRecord records record.key
          (Record.stored record.value version record.deleted record.expiresAtUnixMillis carried))

section Sweep

variable (hashing : Hashing)

def dueExpiration (state : NodeState) (nowUnixMillis : Nat) : Option (Nat ×ₗ Bytes) :=
  state.recordExpirations.first.filter fun entry => (ofLex entry).1 ≤ nowUnixMillis

def sweepEntry (state : NodeState) (entry : Nat ×ₗ Bytes) : NodeState × Bool :=
  let unscheduled := { state with recordExpirations := state.recordExpirations.erase entry }
  let token := unscheduled.tokenOf hashing (ofLex entry).2
  match unscheduled.sources.entries.find? fun source => source.2.range.contains token with
  | some found =>
      ({ unscheduled with
         sources := unscheduled.sources.modify found.1 fun source =>
           { source with deferredExpirations := source.deferredExpirations.insert entry } }, false)
  | none => (unscheduled.removeRecordAt token (ofLex entry).2, true)

def sweepExpiredRecords (nowUnixMillis : Nat) : Nat → NodeState → NodeState × Nat
  | 0, state => (state, 0)
  | limit + 1, state =>
      match dueExpiration state nowUnixMillis with
      | none => (state, 0)
      | some entry =>
          let (next, removed) := sweepEntry hashing state entry
          let (final, later) := sweepExpiredRecords nowUnixMillis limit next
          (final, if removed then later + 1 else later)

end Sweep

section Source

variable (config : NodeConfig)

/-- `prepare_source_range`; a retry of the same specification changes nothing. -/
def prepareSourceRange (state : NodeState) (request : Option RangeSpec) :
    NodeState × Except Status String :=
  match request with
  | none => (state, .error ⟨.invalidArgument, "missing range"⟩)
  | some range =>
      match range.tryFrom with
      | .error status => (state, .error status)
      | .ok range =>
          if range.sourceNodeId ≠ config.nodeId then
            (state, .error ⟨.failedPrecondition, "this node is not the range source"⟩)
          else
            match state.sources.lookup range.key with
            | some existing =>
                if existing.range ≠ range then
                  (state, .error ⟨.failedPrecondition,
                    "source range retry conflicts with the prepared specification"⟩)
                else (state, .ok config.processInstanceId)
            | none =>
                ({ state with
                   sources := state.sources.insert range.key
                     { range
                       snapshotKeys := (state.recordKeysInRange range).map Prod.snd
                       snapshotDedupIds := state.dedupIdsInRange range
                       journal := []
                       journalBytes := 0
                       watermark := 0
                       writesPaused := false
                       deferredExpirations := OrderedSet.empty } },
                  .ok config.processInstanceId)

def snapshotRecord (key : Bytes) (record : Record) : MigrationRecord where
  key
  value := record.value
  version := some record.version
  deleted := record.deleted
  mutationId := ""
  remainingRetentionMillis := 0
  expiresAtUnixMillis := record.expiresAtUnixMillis
  requestFingerprint := []

def snapshotPage (records : FiniteMap Bytes Record) (maxBytes : Nat) (keys : List Bytes) (cursor : Nat) :
    List MigrationRecord × Nat :=
  takePage (fun key => (records.lookup key).map (snapshotRecord key)) migrationRecordSize maxBytes
    keys 0 [] cursor

def readSnapshotPage (state : NodeState) (request : SnapshotPageRequest) :
    Except Status SnapshotPageResponse :=
  match state.sources.lookup ⟨request.changeId, request.rangeId⟩ with
  | none => .error ⟨.notFound, "source migration not prepared"⟩
  | some source =>
      if source.snapshotKeys.length < request.cursor then
        .error ⟨.outOfRange, "snapshot cursor exceeds record count"⟩
      else
        let (records, nextCursor) :=
          snapshotPage state.records (pageLimit request.maxBytes config.maxValueBytes)
          (source.snapshotKeys.drop request.cursor) request.cursor
        .ok { records, nextCursor, done := nextCursor = source.snapshotKeys.length }

def dedupSnapshotRecord (id : String) (entry : DedupEntry) (now : Instant) (retentionMillis : Nat) :
    DeduplicationRecord where
  mutationId := id
  key := entry.key
  fingerprint := entry.fingerprint
  version := some entry.version
  deleted := entry.deleted
  remainingRetentionMillis := remainingRetentionMillis entry.expiresAt now retentionMillis

def dedupSnapshotPage (dedup : FiniteMap String DedupEntry) (now : Instant)
    (retentionMillis maxBytes : Nat)
    (ids : List String) (cursor : Nat) : List DeduplicationRecord × Nat :=
  takePage
    (fun id => ((dedup.lookup id).filter fun entry => now < entry.expiresAt).map fun entry =>
      dedupSnapshotRecord id entry now retentionMillis)
    dedupRecordSize maxBytes ids 0 [] cursor

def readDedupSnapshotPage (now : Instant) (state : NodeState) (request : SnapshotPageRequest) :
    Except Status DedupSnapshotPageResponse :=
  match state.sources.lookup ⟨request.changeId, request.rangeId⟩ with
  | none => .error ⟨.notFound, "source migration not prepared"⟩
  | some source =>
      if source.snapshotDedupIds.length < request.cursor then
        .error ⟨.outOfRange, "dedup cursor exceeds record count"⟩
      else
        let (records, nextCursor) := dedupSnapshotPage state.dedup now
          state.topology.timings.receiptRetentionMillis (pageLimit request.maxBytes config.maxValueBytes)
          (source.snapshotDedupIds.drop request.cursor) request.cursor
        .ok { records, nextCursor, done := nextCursor = source.snapshotDedupIds.length }

def journalRetention (dedup : FiniteMap String DedupEntry) (now : Instant) (retentionMillis : Nat)
    (record : MigrationRecord) : Nat :=
  ((dedup.lookup record.mutationId).filter fun dedup =>
      dedup.fingerprint = record.requestFingerprint && some dedup.version = record.version).elim 0
    fun dedup => remainingRetentionMillis dedup.expiresAt now retentionMillis

def copiedJournalRecord (dedup : FiniteMap String DedupEntry) (now : Instant) (retentionMillis : Nat)
    (entry : JournalRecord) : JournalRecord :=
  { entry with
    record := entry.record.map fun record =>
      { record with remainingRetentionMillis := journalRetention dedup now retentionMillis record } }

def journalRecordSize (entry : JournalRecord) : Nat := entry.record.elim 0 migrationRecordSize + 16

def changelogPage (maxBytes : Nat) (journal : List JournalRecord) : List JournalRecord :=
  (takePage some journalRecordSize maxBytes journal 0 [] 0).1

def readChangelogPage (now : Instant) (state : NodeState) (request : ChangelogPageRequest) :
    Except Status ChangelogPageResponse :=
  match state.sources.lookup ⟨request.changeId, request.rangeId⟩ with
  | none => .error ⟨.notFound, "source migration not prepared"⟩
  | some source =>
      let page := changelogPage (pageLimit request.maxBytes config.maxValueBytes)
        (source.journal.filter fun entry => request.afterWatermark < entry.watermark)
      .ok { records := page.map (copiedJournalRecord state.dedup now state.topology.timings.receiptRetentionMillis)
            currentWatermark := source.watermark }

def pauseRangeWrites (state : NodeState) (key : RangeKey) : NodeState × Except Status Nat :=
  match state.sources.lookup key with
  | none => (state, .error ⟨.notFound, "source migration not prepared"⟩)
  | some source =>
      ({ state with sources := state.sources.insert key { source with writesPaused := true } },
        .ok source.watermark)

end Source

section Destination

variable (hashing : Hashing) (config : NodeConfig)

def prepareDestinationRange (state : NodeState) (request : Option RangeSpec) :
    NodeState × Except Status String :=
  match request with
  | none => (state, .error ⟨.invalidArgument, "missing range"⟩)
  | some range =>
      match range.tryFrom with
      | .error status => (state, .error status)
      | .ok range =>
          if range.destinationNodeId ≠ config.nodeId then
            (state, .error ⟨.failedPrecondition, "this node is not the range destination"⟩)
          else
            match state.destinations.lookup range.key with
            | some existing =>
                if existing.range ≠ range then
                  (state, .error ⟨.failedPrecondition,
                    "destination range retry conflicts with the prepared specification"⟩)
                else (state, .ok config.processInstanceId)
            | none =>
                ({ state with
                   destinations := state.destinations.insert range.key
                     { range, records := ∅, dedup := ∅, dedupBytes := 0, watermark := 0
                       committed := false, writesActivated := false } },
                  .ok config.processInstanceId)

def stageSnapshotRecords (topology : TopologySnapshot) :
    DestinationMigration → List MigrationRecord → DestinationMigration × Option Status
  | destination, [] => (destination, none)
  | destination, record :: rest =>
      if destination.range.contains (topology.keyToken hashing record.key) = false then
        (destination, some ⟨.invalidArgument, "snapshot record is outside the prepared range"⟩)
      else
        match stageRecord destination.records record with
        | .error status => (destination, some status)
        | .ok records => stageSnapshotRecords topology { destination with records } rest

def journalReceipt (record : MigrationRecord) : DeduplicationRecord where
  mutationId := record.mutationId
  key := record.key
  fingerprint := record.requestFingerprint
  version := record.version
  deleted := record.deleted
  remainingRetentionMillis := record.remainingRetentionMillis

def stageJournalRecord (topology : TopologySnapshot) (now : Instant) (destination : DestinationMigration)
    (watermark : Nat) (record : MigrationRecord) : DestinationMigration × Option Status :=
  let receipted :=
    if record.mutationId.isEmpty then .ok destination
    else stageDedup destination (journalReceipt record) config.maxDedupBytes
      topology.timings.receiptRetentionMillis now
  match receipted with
  | .error status => (destination, some status)
  | .ok destination =>
      match stageRecord destination.records record with
      | .error status => (destination, some status)
      | .ok records => ({ destination with records, watermark }, none)

def stageJournalRecords (topology : TopologySnapshot) (now : Instant) :
    DestinationMigration → List JournalRecord → DestinationMigration × Option Status
  | destination, [] => (destination, none)
  | destination, entry :: rest =>
      if entry.watermark ≤ destination.watermark then stageJournalRecords topology now destination rest
      else if entry.watermark ≠ destination.watermark + 1 then
        (destination, some ⟨.failedPrecondition, "non-contiguous changelog: expected " ++
          toString (destination.watermark + 1) ++ ", received " ++ toString entry.watermark⟩)
      else
        match entry.record with
        | none => (destination, some ⟨.invalidArgument, "journal entry omitted record"⟩)
        | some record =>
            if destination.range.contains (topology.keyToken hashing record.key) = false then
              (destination, some ⟨.invalidArgument, "journal record is outside the prepared range"⟩)
            else
              match stageJournalRecord config topology now destination entry.watermark record with
              | (staged, some status) => (staged, some status)
              | (staged, none) => stageJournalRecords topology now staged rest

def stageBatch (topology : TopologySnapshot) (clock : Clock) (destination : DestinationMigration)
    (snapshotRecords : List MigrationRecord) (journalRecords : List JournalRecord) :
    DestinationMigration × Option Status :=
  match stageSnapshotRecords hashing topology (purgeStagedDedup destination clock.now)
    snapshotRecords with
  | (staged, some status) => (staged, some status)
  | (staged, none) => stageJournalRecords hashing config topology clock.later staged journalRecords

def answerOf (error : Option Status) : Except Status Unit :=
  match error with
  | none => .ok ()
  | some status => .error status

def applyMigrationBatch (clock : Clock) (state : NodeState) (request : ApplyMigrationBatchRequest) :
    NodeState × Except Status Unit :=
  let key : RangeKey := ⟨request.changeId, request.rangeId⟩
  match state.destinations.lookup key with
  | none => (state, .error ⟨.notFound, "destination migration not prepared"⟩)
  | some destination =>
      if destination.committed then
        (state, .error ⟨.failedPrecondition, "destination range is already committed"⟩)
      else
        let (staged, error) := stageBatch hashing config state.topology clock destination
          request.snapshotRecords request.journalRecords
        ({ state with destinations := state.destinations.insert key staged }, answerOf error)

def stageDedupRecords (topology : TopologySnapshot) (now : Instant) :
    DestinationMigration → List DeduplicationRecord → DestinationMigration × Option Status
  | destination, [] => (destination, none)
  | destination, record :: rest =>
      if destination.range.contains (topology.keyToken hashing record.key) = false then
        (destination, some ⟨.invalidArgument, "dedup record is outside the prepared range"⟩)
      else
        match stageDedup destination record config.maxDedupBytes
          topology.timings.receiptRetentionMillis now with
        | .error status => (destination, some status)
        | .ok staged => stageDedupRecords topology now staged rest

def applyDedupBatch (clock : Clock) (state : NodeState) (request : ApplyDedupBatchRequest) :
    NodeState × Except Status Unit :=
  let key : RangeKey := ⟨request.changeId, request.rangeId⟩
  match state.destinations.lookup key with
  | none => (state, .error ⟨.notFound, "destination migration not prepared"⟩)
  | some destination =>
      if destination.committed then
        (state, .error ⟨.failedPrecondition, "destination range is already committed"⟩)
      else
        let (staged, error) := stageDedupRecords hashing config state.topology clock.later
          (purgeStagedDedup destination clock.now) request.records
        ({ state with destinations := state.destinations.insert key staged }, answerOf error)

def stagedConflicts (state : NodeState) (staged : StagedDedup) : Bool :=
  (state.dedup.lookup staged.record.mutationId).any fun existing =>
    decide (existing.fingerprint ≠ staged.record.fingerprint) ||
      decide (some existing.version ≠ staged.record.version) || decide
        (existing.deleted ≠ staged.record.deleted)

def stagedCost (state : NodeState) (staged : StagedDedup) : Nat :=
  if staged.record.mutationId ∈ state.dedup then 0
  else dedupRetainedBytes staged.record.mutationId staged.record.key.length
    (staged.record.version.elim 0 (·.ownerNodeId.utf8ByteSize))

def replaceRange (state : NodeState) (range : RangeSpec) (records : FiniteMap Bytes Record) : NodeState :=
  let cleared := (state.recordKeysInRange range).foldl
    (fun state entry => state.removeRecordAt entry.1 entry.2) state
  records.entries.foldl (fun state entry => state.applyRecord hashing entry.1 entry.2) cleared

def adoptReceipt (state : NodeState) (id : String) (staged : StagedDedup) : NodeState :=
  if id ∈ state.dedup then state
  else
    match staged.record.version with
    | none => state
    | some version =>
        insertDedupUntil hashing state id staged.record.key staged.record.fingerprint version
          staged.record.deleted staged.expiresAt

def commitDestinationRange (clock : Clock) (state : NodeState) (key : RangeKey) :
    NodeState × Except Status Unit :=
  match state.destinations.lookup key with
  | none => (state, .error ⟨.notFound, "destination migration not prepared"⟩)
  | some destination =>
      if destination.committed then (state, .ok ())
      else
        let dedup := destination.dedup.retain fun _ entry => clock.now < entry.expiresAt
        let purged := purgeExpiredDedup hashing state clock.later
        if dedup.values.any (stagedConflicts purged) then
          (purged, .error ⟨.failedPrecondition,
            "destination mutation ID conflicts with existing deduplication receipt"⟩)
        else if config.maxDedupBytes < purged.dedupBytes + (dedup.values.map (stagedCost purged)).sum then
          (purged, .error ⟨.resourceExhausted, "destination deduplication receipt store is full"⟩)
        else
          let replaced := replaceRange hashing purged destination.range destination.records
          let adopted := dedup.entries.foldl
              (fun state entry => adoptReceipt hashing state entry.1 entry.2) replaced
          ({ adopted with destinations := adopted.destinations.insert key { destination with committed := true } },
            .ok ())

def activateDestinationRange (state : NodeState) (key : RangeKey) : NodeState × Except Status Unit :=
  match state.destinations.lookup key with
  | none => (state, .error ⟨.notFound, "destination migration not prepared"⟩)
  | some destination =>
      if destination.committed = false then
        (state, .error ⟨.failedPrecondition, "destination range is not committed"⟩)
      else
        ({ state with destinations := state.destinations.insert key { destination with writesActivated := true } },
          .ok ())

def cleanupSourceRange (state : NodeState) (key : RangeKey) : NodeState × Except Status Unit :=
  match state.sources.lookup key with
  | none => (state, .ok ())
  | some source =>
      let keys := (state.recordKeysInRange source.range).filter fun entry =>
        match state.topology.replicaNodeIdsForToken entry.1 with
        | .ok replicas => !replicas.contains config.nodeId
        | .error _ => false
      ((keys.foldl (fun state entry => state.removeRecordAt entry.1 entry.2) state).removeSource
        key, .ok ())

def abortRangeMigration (state : NodeState) (key : RangeKey) : NodeState :=
  let released := state.removeSource key
  { released with destinations := released.destinations.erase key }

def abortReplicaRepairs (state : NodeState) (topologyEpoch : Nat) : NodeState × Except Status Unit :=
  if state.topology.epoch ≠ topologyEpoch then
    (state, .error ⟨.failedPrecondition, "repair cleanup epoch does not match installed topology"⟩)
  else (state.clearReplicaRepairStaging, .ok ())

end Destination

namespace MigrationRecord

/-- The wire record stands for `record` under `key`; receipt fields aside. -/
structure Carries (sent : MigrationRecord) (key : Bytes) (record : Record) : Prop where
  key : sent.key = key
  value : sent.value = record.value
  version : sent.version = some record.version
  deleted : sent.deleted = record.deleted
  deadline : sent.expiresAtUnixMillis = record.expiresAtUnixMillis

theorem Carries.unique {sent : MigrationRecord} {key other : Bytes} {record another : Record}
    (first : sent.Carries key record) (second : sent.Carries other another) :
    key = other ∧ record = another := by
  refine ⟨first.key.symm.trans second.key, ?_⟩
  obtain ⟨value, version, deleted, deadline, _, _⟩ := record
  obtain ⟨value', version', deleted', deadline', _, _⟩ := another
  obtain rfl : value = value' := first.value.symm.trans second.value
  obtain rfl : version = version' := Option.some.inj (first.version.symm.trans second.version)
  obtain rfl : deleted = deleted' := first.deleted.symm.trans second.deleted
  obtain rfl : deadline = deadline' := first.deadline.symm.trans second.deadline
  rfl

end MigrationRecord

/-- The journal entry stands for `record` under `key`. -/
def JournalRecord.Carries (entry : JournalRecord) (key : Bytes) (record : Record) : Prop :=
  ∃ sent, entry.record = some sent ∧ sent.Carries key record

theorem JournalRecord.Carries.unique {entry : JournalRecord} {key other : Bytes} {record another : Record}
    (first : entry.Carries key record) (second : entry.Carries other another) :
    key = other ∧ record = another := by
  obtain ⟨sent, found, carried⟩ := first
  obtain ⟨again, same, carriedToo⟩ := second
  obtain rfl := Option.some.inj (found.symm.trans same)
  exact carried.unique carriedToo

theorem snapshot_record_carries (key : Bytes)
    (record : Record) : (snapshotRecord key record).Carries key record :=
  ⟨rfl, rfl, rfl, rfl, rfl⟩

theorem copied_journal_carries (dedup : FiniteMap String DedupEntry) (now : Instant)
    (retentionMillis : Nat) (entry : JournalRecord) (key : Bytes) (record : Record)
    (carried : entry.Carries key record) :
    (copiedJournalRecord dedup now retentionMillis entry).Carries key record := by
  obtain ⟨sent, found, fields⟩ := carried
  refine ⟨_, by simp [copiedJournalRecord, found]; rfl, ?_⟩
  exact ⟨fields.key, fields.value, fields.version, fields.deleted, fields.deadline⟩

theorem apply_internal_record_offer (records : FiniteMap Bytes Record) (key : Bytes) (record : Record) :
    applyInternalRecord records key record = VersionedMap.offer Record.version records key record := by
  unfold applyInternalRecord VersionedMap.offer
  cases records.lookup key with
  | none => rfl
  | some current =>
      simp only [compareVersions, compare_gt_iff_gt]

/-- A carried record passes the checks of `apply_record`. -/
theorem stage_carried (records : FiniteMap Bytes Record) (sent : MigrationRecord) (key : Bytes)
    (record : Record) (carried : sent.Carries key record) :
    stageRecord records sent = .ok (VersionedMap.offer Record.version records key record) := by
  have clean : ¬(sent.deleted = true ∧ sent.value ≠ []) := by
    rintro ⟨removed, kept⟩
    rw [carried.value] at kept
    exact kept (record.tombstoneEmpty (carried.deleted.symm.trans removed))
  have rebuilt : Record.stored sent.value record.version sent.deleted sent.expiresAtUnixMillis
      clean = record := by
    obtain ⟨value, version, deleted, deadline, nonzero, empty⟩ := record
    have stored := stored_deadline_record ⟨value, version, deleted, deadline, nonzero, empty⟩
    simp only [Record.stored, Record.mk.injEq]
    exact ⟨carried.value, trivial, carried.deleted, by rw [carried.deadline]; exact stored⟩
  unfold stageRecord
  rw [carried.version]
  simp only [clean, ↓reduceDIte, rebuilt, carried.key, apply_internal_record_offer]

section Sweep

variable (hashing : Hashing)

def NodeState.Sourced (state : NodeState) (token : Token) : Prop :=
  ∃ key source, state.sources.lookup key = some source ∧ source.range.contains token = true

theorem sourced_same {before after : NodeState} (same : SameSources before.sources after.sources)
    (token : Token)
    (sourced : before.Sourced token) : after.Sourced token := by
  obtain ⟨key, source, found, inside⟩ := sourced
  obtain ⟨old, kept, fields⟩ := same.symm.lookup_some found
  refine ⟨key, old, kept, ?_⟩
  have sameRange : old.range = source.range := (SourceMigration.mk.inj fields).1
  rw [sameRange]
  exact inside

/-- What a sweep may do: drop records outside every source range. -/
structure Swept (before after : NodeState) : Prop where
  only : NodeState.OnlyRecords before after
  kept : ∀ key, before.Sourced (before.tokenOf hashing key) → after.records.lookup key =
    before.records.lookup key
  subset : ∀ key record, after.records.lookup key = some record → before.records.lookup key = some record
  indexed : NodeState.RecordsIndexed hashing before → NodeState.RecordsIndexed hashing after

theorem Swept.topology {hashing : Hashing} {before after : NodeState}
    (swept : Swept hashing before after) :
    after.topology = before.topology := by
  obtain ⟨⟨_, _, _, _, rfl⟩, _⟩ := swept.only
  rfl

theorem Swept.refl (state : NodeState) : Swept hashing state state :=
  ⟨NodeState.OnlyRecords.refl state, fun _ _ => rfl, fun _ _ found => found, id⟩

theorem Swept.trans {first second third : NodeState} (early : Swept hashing first second)
    (late : Swept hashing second third) : Swept hashing first third where
  only := early.only.trans late.only
  kept key sourced := by
    have still : second.Sourced (second.tokenOf hashing key) := by
      simp only [NodeState.tokenOf, early.topology]
      exact sourced_same early.only.2 _ sourced
    exact (late.kept key still).trans (early.kept key sourced)
  subset key record found := early.subset key record (late.subset key record found)
  indexed start := late.indexed (early.indexed start)

theorem sweep_entry_swept (state : NodeState) (entry : Nat ×ₗ Bytes) :
    Swept hashing state (sweepEntry hashing state entry).1 := by
  unfold sweepEntry
  simp only
  split
  · -- The record lies in a moving range: its removal is deferred.
    exact ⟨⟨⟨_, _, _, _, rfl⟩, SameSources.modify _ _ _ fun _ => rfl⟩, fun _ _ => rfl,
      fun _ _ found => found, id⟩
  · rename_i uncovered
    refine ⟨?_, ?_, ?_, ?_⟩
    · have erased : NodeState.OnlyRecords state
          { state with recordExpirations := state.recordExpirations.erase entry } :=
        ⟨⟨_, _, _, _, rfl⟩, SameSources.refl _⟩
      exact erased.trans (NodeState.remove_record_only _ _ _)
    · rintro key ⟨rangeKey, source, found, inside⟩
      rw [NodeState.lookup_remove_record]
      split
      · rename_i same
        subst key
        have missed := List.find?_eq_none.mp uncovered ⟨rangeKey, source⟩
          ((FiniteMap.lookup_some_iff _ _ _).mp found)
        exact absurd inside missed
      · rfl
    · intro key record found
      rw [NodeState.lookup_remove_record] at found
      split at found
      · exact absurd found (by simp)
      · exact found
    · intro indexed
      exact NodeState.remove_record_indexed hashing
        { state with recordExpirations := state.recordExpirations.erase entry } (ofLex entry).2 indexed

theorem sweep_swept (nowUnixMillis limit : Nat) (state : NodeState) :
    Swept hashing state (sweepExpiredRecords hashing nowUnixMillis limit state).1 := by
  induction limit generalizing state with
  | zero => exact Swept.refl hashing state
  | succ limit ih =>
      unfold sweepExpiredRecords
      split
      · exact Swept.refl hashing state
      · rename_i entry _
        exact (sweep_entry_swept hashing state entry).trans hashing (ih _)

end Sweep
end Hashring
