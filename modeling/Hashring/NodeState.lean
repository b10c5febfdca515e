import Hashring.FiniteMap
import Hashring.OrderedSet
import Hashring.Wire

/-! The state a data node keeps behind its lock, and the mutators that keep
the token index and the expiry schedule in step with the record map
(crates/hashring-node/src/lib.rs). Diagnostic timings and operation counters
are left out: nothing below reads them. -/
namespace Hashring

variable {α : Type} [LinearOrder α]

/-- Keys or mutation IDs ordered by ring token, ties broken by their own order. -/
abbrev TokenIndex (α : Type) [LinearOrder α] := OrderedSet (Token ×ₗ α)

namespace TokenIndex

def add (token : Token) (value : α) (index : TokenIndex α) : TokenIndex α :=
  OrderedSet.insert (toLex (token, value)) index

def remove (token : Token) (value : α) (index : TokenIndex α) : TokenIndex α :=
  OrderedSet.erase (toLex (token, value)) index

/-- How many values share `token`. -/
def lenAt (token : Token) (index : TokenIndex α) : Nat :=
  index.elements.countP fun entry => (ofLex entry).1 = token

def inRange (index : TokenIndex α) (range : RangeSpec) : List (Token × α) :=
  range.tokenBounds.flatMap fun bounds =>
    (index.elements.map ofLex).filter fun entry => bounds.accepts entry.1

theorem mem_inRange (index : TokenIndex α) (range : RangeSpec) (token : Token) (value : α) :
    (token, value) ∈ index.inRange range ↔
      toLex (token, value) ∈ index ∧ range.contains token = true := by
  rw [RangeSpec.contains_iff_token_bounds, inRange, List.mem_flatMap]
  constructor
  · rintro ⟨bounds, member, kept⟩
    obtain ⟨listed, inside⟩ := List.mem_filter.mp kept
    obtain ⟨stored, present, same⟩ := List.mem_map.mp listed
    rw [← same]
    exact ⟨present, bounds, member, by simpa [← same] using inside⟩
  · rintro ⟨present, bounds, member, inside⟩
    exact ⟨bounds, member, List.mem_filter.mpr ⟨List.mem_map.mpr ⟨_, present, rfl⟩, inside⟩⟩

end TokenIndex

/-- Epoch, follower and sequence of an acknowledgement a write waits for. -/
structure RequiredAck where
  epoch : Nat
  nodeId : String
  sequence : Nat
  deriving DecidableEq

structure DedupEntry where
  key : Bytes
  fingerprint : Bytes
  version : RecordVersion
  deleted : Bool
  retainedBytes : Nat
  expiresAt : Instant
  requiredAcks : List RequiredAck
  deriving DecidableEq

structure SourceMigration where
  range : RangeSpec
  snapshotKeys : List Bytes
  snapshotDedupIds : List String
  journal : List JournalRecord
  journalBytes : Nat
  watermark : Nat
  writesPaused : Bool
  deferredExpirations : OrderedSet (Nat ×ₗ Bytes)

structure StagedDedup where
  record : DeduplicationRecord
  expiresAt : Instant
  retainedBytes : Nat
  deriving DecidableEq

structure DestinationMigration where
  range : RangeSpec
  records : FiniteMap Bytes Record
  dedup : FiniteMap String StagedDedup
  dedupBytes : Nat
  watermark : Nat
  committed : Bool
  writesActivated : Bool

structure FollowerStreamState where
  appliedSequence : Nat := 0
  lastOwnerSequence : Nat := 0
  checkpointSequence : Nat := 0
  fingerprints : FiniteMap Nat Bytes := ∅

/-- Epoch and the peer at the other end. -/
structure StreamKey where
  epoch : Nat
  nodeId : String
  deriving DecidableEq

/-- The fixed identity and budgets of a `DataNodeService`. -/
structure NodeConfig where
  nodeId : String
  processInstanceId : String
  maxKeyBytes : Nat := defaultMaxKeyBytes
  maxValueBytes : Nat := 8 * 1024 * 1024
  maxJournalBytes : Nat := 16 * 1024 * 1024
  maxDedupBytes : Nat := 128 * 1024 * 1024
  maxPendingReplicationBytes : Nat := 64 * 1024 * 1024
  replicationStreamQueueCapacity : Nat := 32

structure Lease where
  epoch : Nat
  expiresAt : Instant
  deriving DecidableEq

structure NodeState where
  topology : TopologySnapshot
  records : FiniteMap Bytes Record := ∅
  recordsByToken : TokenIndex Bytes := OrderedSet.empty
  recordExpirations : OrderedSet (Nat ×ₗ Bytes) := OrderedSet.empty
  nextSequence : Nat := 0
  ownerStreamSequences : FiniteMap StreamKey Nat := ∅
  ownerStreamUnacked : FiniteMap StreamKey (List (Nat × Nat)) := ∅
  ackProgress : FiniteMap StreamKey Nat := ∅
  ackProcessInstances : FiniteMap StreamKey String := ∅
  admittedFollowers : FiniteMap String String := ∅
  followerStreams : FiniteMap StreamKey FollowerStreamState := ∅
  sources : FiniteMap RangeKey SourceMigration := ∅
  destinations : FiniteMap RangeKey DestinationMigration := ∅
  journalBytesTotal : Nat := 0
  lease : Option Lease := none
  policyWriteFence : Option PolicyWriteFenceRequest := none
  dedup : FiniteMap String DedupEntry := ∅
  dedupByToken : TokenIndex String := OrderedSet.empty
  dedupExpirations : OrderedBag (Instant ×ₗ String) := OrderedBag.empty
  dedupBytes : Nat := 0
  dedupPeakBytes : Nat := 0
  ackProgressNeedsPrune : Bool := false
  nextAckPruneAt : Instant := 0

namespace NodeState

variable (hashing : Hashing)

def tokenOf (state : NodeState) (key : Bytes) : Token := state.topology.keyToken hashing key

def setTopology (state : NodeState) (topology : TopologySnapshot) : NodeState :=
  if topology.hashSeed = state.topology.hashSeed then { state with topology }
  else
    { state with
      topology
      recordsByToken := state.records.keys.foldl
        (fun index key => index.add (topology.keyToken hashing key) key) OrderedSet.empty
      dedupByToken := state.dedup.entries.foldl
        (fun index entry => index.add (topology.keyToken hashing entry.2.key) entry.1) OrderedSet.empty }

def forgetDeferred (entry : Nat ×ₗ Bytes) (sources : FiniteMap RangeKey SourceMigration) :
    FiniteMap RangeKey SourceMigration :=
  match sources.entries.find? fun source => entry ∈ source.2.deferredExpirations with
  | none => sources
  | some found => sources.modify found.1 fun source =>
      { source with deferredExpirations := source.deferredExpirations.erase entry }

def forgetExpiration (state : NodeState) (key : Bytes) (deadline : Option Nat) : NodeState :=
  match deadline with
  | none => state
  | some deadline =>
      let entry := toLex (deadline, key)
      if entry ∈ state.recordExpirations then
        { state with recordExpirations := state.recordExpirations.erase entry }
      else { state with sources := forgetDeferred entry state.sources }

def insertRecord (state : NodeState) (key : Bytes) (record : Record) : NodeState :=
  let recordsByToken :=
    if key ∈ state.records then state.recordsByToken
    else state.recordsByToken.add (state.tokenOf hashing key) key
  let stored := { state with recordsByToken, records := state.records.insert key record }
  let forgotten :=
    match state.records.lookup key with
    | some replaced => stored.forgetExpiration key replaced.expiresAtUnixMillis
    | none => stored
  match record.expiresAtUnixMillis with
  | none => forgotten
  | some deadline =>
      { forgotten with recordExpirations := forgotten.recordExpirations.insert (toLex (deadline, key)) }

/-- Stores a record only when it is newer than the one already there. -/
def applyRecord (state : NodeState) (key : Bytes) (record : Record) : NodeState :=
  match state.records.lookup key with
  | some current =>
      if (compareVersions record.version current.version).isLE then state
      else state.insertRecord hashing key record
  | none => state.insertRecord hashing key record

def removeRecordAt (state : NodeState) (token : Token) (key : Bytes) : NodeState :=
  match state.records.lookup key with
  | none => state
  | some removed =>
      forgetExpiration
        { state with
          records := state.records.erase key
          recordsByToken := state.recordsByToken.remove token key }
        key removed.expiresAtUnixMillis

def removeSource (state : NodeState) (key : RangeKey) : NodeState :=
  match state.sources.lookup key with
  | none => state
  | some source =>
      { state with
        sources := state.sources.erase key
        journalBytesTotal := state.journalBytesTotal - source.journalBytes
        recordExpirations := source.deferredExpirations.elements.foldl
          (fun schedule entry => schedule.insert entry) state.recordExpirations }

def recordKeysInRange (state : NodeState) (range : RangeSpec) : List (Token × Bytes) :=
  state.recordsByToken.inRange range

def dedupIdsInRange (state : NodeState) (range : RangeSpec) : List String :=
  (state.dedupByToken.inRange range).map Prod.snd

def insertDedupIndex (state : NodeState) (id : String) (key : Bytes) : NodeState :=
  { state with dedupByToken := state.dedupByToken.add (state.tokenOf hashing key) id }

def removeDedupIndex (state : NodeState) (id : String) (key : Bytes) : NodeState :=
  { state with dedupByToken := state.dedupByToken.remove (state.tokenOf hashing key) id }

/-- `change_id.starts_with("repair-")`. -/
def isRepairId (changeId : String) : Bool := "repair-".toList.isPrefixOf changeId.toList

def clearReplicaRepairStaging (state : NodeState) : NodeState :=
  let keys := state.sources.keys.filter fun key => isRepairId key.changeId
  let cleared := keys.foldl removeSource state
  { cleared with
    destinations := FiniteMap.retain (fun key _ => !isRepairId key.changeId) cleared.destinations }

end NodeState

def SourceMigration.undeferred (source : SourceMigration) : SourceMigration :=
  { source with deferredExpirations := OrderedSet.empty }

/-- The two tables hold the same migrations apart from deferred removals. -/
def SameSources (before after : FiniteMap RangeKey SourceMigration) : Prop :=
  ∀ key, (after.lookup key).map SourceMigration.undeferred =
    (before.lookup key).map SourceMigration.undeferred

namespace SameSources

theorem refl (sources : FiniteMap RangeKey SourceMigration) : SameSources sources sources :=
  fun _ => rfl

theorem trans {first second third : FiniteMap RangeKey SourceMigration}
    (early : SameSources first second) (late : SameSources second third) : SameSources first third :=
  fun key => (late key).trans (early key)

theorem symm {before after : FiniteMap RangeKey SourceMigration} (same : SameSources before after) :
    SameSources after before :=
  fun key => (same key).symm

theorem modify (sources : FiniteMap RangeKey SourceMigration) (key : RangeKey)
    (f : SourceMigration → SourceMigration) (kept : ∀ source, (f source).undeferred = source.undeferred) :
    SameSources sources (sources.modify key f) := by
  intro probe
  rw [FiniteMap.lookup_modify, Option.map_map]
  congr 1
  funext source
  by_cases same : probe = key
  · simp [same, kept]
  · simp [same]

theorem lookup_some {before after : FiniteMap RangeKey SourceMigration} (same : SameSources before after)
    {key : RangeKey} {source : SourceMigration} (found : after.lookup key = some source) :
    ∃ old, before.lookup key = some old ∧ old.undeferred = source.undeferred := by
  have equal := same key
  rw [found, Option.map_some] at equal
  exact Option.map_eq_some_iff.mp equal.symm

end SameSources

namespace NodeState

theorem forget_deferred_same (entry : Nat ×ₗ Bytes) (sources : FiniteMap RangeKey SourceMigration) :
    SameSources sources (forgetDeferred entry sources) := by
  unfold forgetDeferred
  split
  · exact SameSources.refl sources
  · exact SameSources.modify sources _ _ fun _ => rfl

theorem forget_expiration_frame (state : NodeState) (key : Bytes) (deadline : Option Nat) :
    ∃ recordExpirations sources,
      state.forgetExpiration key deadline = { state with recordExpirations, sources } ∧
      SameSources state.sources sources := by
  unfold forgetExpiration
  cases deadline with
  | none => exact ⟨_, _, rfl, SameSources.refl _⟩
  | some deadline =>
      by_cases scheduled : toLex (deadline, key) ∈ state.recordExpirations
      · simp only [scheduled, ↓reduceIte]
        exact ⟨_, _, rfl, SameSources.refl _⟩
      · simp only [scheduled, ↓reduceIte]
        exact ⟨_, _, rfl, forget_deferred_same _ _⟩

variable (hashing : Hashing)

/-- Everything `insert_record` changes. -/
theorem insert_record_frame (state : NodeState) (key : Bytes) (record : Record) :
    ∃ recordExpirations sources,
      state.insertRecord hashing key record =
        { state with
          records := state.records.insert key record
          recordsByToken :=
            if key ∈ state.records then state.recordsByToken
            else state.recordsByToken.add (state.tokenOf hashing key) key
          recordExpirations, sources } ∧
      SameSources state.sources sources := by
  unfold insertRecord
  cases found : state.records.lookup key with
  | none =>
      cases deadline : record.expiresAtUnixMillis with
      | none => exact ⟨_, _, rfl, SameSources.refl _⟩
      | some _ => exact ⟨_, _, rfl, SameSources.refl _⟩
  | some replaced =>
      obtain ⟨schedule, sources, forgotten, same⟩ := forget_expiration_frame
        { state with
          recordsByToken :=
            if key ∈ state.records then state.recordsByToken
            else state.recordsByToken.add (state.tokenOf hashing key) key
          records := state.records.insert key record } key replaced.expiresAtUnixMillis
      simp only [forgotten]
      cases deadline : record.expiresAtUnixMillis with
      | none => exact ⟨_, _, rfl, same⟩
      | some _ => exact ⟨_, _, rfl, same⟩

/-- Everything `remove_record_at` changes when the key is stored. -/
theorem remove_record_frame (state : NodeState) (token : Token) (key : Bytes) (removed : Record)
    (found : state.records.lookup key = some removed) :
    ∃ recordExpirations sources,
      state.removeRecordAt token key =
        { state with
          records := state.records.erase key
          recordsByToken := state.recordsByToken.remove token key
          recordExpirations, sources } ∧
      SameSources state.sources sources := by
  unfold removeRecordAt
  rw [found]
  exact forget_expiration_frame _ _ _

/-- What the mutators of `records` leave alone. -/
def OnlyRecords (before after : NodeState) : Prop :=
  (∃ records recordsByToken recordExpirations sources,
    after = { before with records, recordsByToken, recordExpirations, sources }) ∧
  SameSources before.sources after.sources

theorem OnlyRecords.refl (state : NodeState) : OnlyRecords state state :=
  ⟨⟨_, _, _, _, rfl⟩, SameSources.refl _⟩

theorem OnlyRecords.trans {first second third : NodeState} (early : OnlyRecords first second)
    (late : OnlyRecords second third) : OnlyRecords first third := by
  obtain ⟨⟨_, _, _, _, rfl⟩, same⟩ := early
  obtain ⟨⟨_, _, _, _, rfl⟩, again⟩ := late
  exact ⟨⟨_, _, _, _, rfl⟩, same.trans again⟩

theorem insert_record_only (state : NodeState) (key : Bytes) (record : Record) :
    OnlyRecords state (state.insertRecord hashing key record) := by
  obtain ⟨_, _, inserted, same⟩ := insert_record_frame hashing state key record
  rw [inserted]
  exact ⟨⟨_, _, _, _, rfl⟩, same⟩

theorem apply_record_only (state : NodeState) (key : Bytes) (record : Record) :
    OnlyRecords state (state.applyRecord hashing key record) := by
  unfold applyRecord
  split
  · split
    · exact OnlyRecords.refl state
    · exact insert_record_only hashing state key record
  · exact insert_record_only hashing state key record

theorem remove_record_only (state : NodeState) (token : Token) (key : Bytes) :
    OnlyRecords state (state.removeRecordAt token key) := by
  cases found : state.records.lookup key with
  | none =>
      unfold removeRecordAt
      rw [found]
      exact OnlyRecords.refl state
  | some removed =>
      obtain ⟨_, _, erased, same⟩ := remove_record_frame state token key removed found
      rw [erased]
      exact ⟨⟨_, _, _, _, rfl⟩, same⟩

theorem lookup_insert_record (state : NodeState) (key probe : Bytes) (record : Record) :
    (state.insertRecord hashing key record).records.lookup probe =
      if probe = key then some record else state.records.lookup probe := by
  obtain ⟨_, _, inserted, _⟩ := insert_record_frame hashing state key record
  rw [inserted]
  exact FiniteMap.lookup_insert_if _ _ _ _

/-- `apply_record` keeps the newer of the stored and the offered record. -/
theorem lookup_apply_record (state : NodeState) (key probe : Bytes) (record : Record) :
    (state.applyRecord hashing key record).records.lookup probe =
      if probe = key ∧ (∀ current, state.records.lookup key = some current →
          current.version < record.version)
      then some record else state.records.lookup probe := by
  unfold applyRecord
  cases found : state.records.lookup key with
  | none => simp [lookup_insert_record]
  | some current =>
      simp only [compareVersions, Ordering.isLE_iff_ne_gt, compare_gt_iff_gt, not_lt, Option.some.injEq,
        forall_eq']
      by_cases newer : current.version < record.version
      · simp [newer, not_le.mpr newer, lookup_insert_record]
      · simp [newer, not_lt.mp newer]

theorem lookup_remove_record (state : NodeState) (token : Token) (key probe : Bytes) :
    (state.removeRecordAt token key).records.lookup probe =
      if probe = key then none else state.records.lookup probe := by
  cases found : state.records.lookup key with
  | none =>
      unfold removeRecordAt
      rw [found]
      by_cases same : probe = key
      · subst probe
        simpa using found
      · simp [same]
  | some removed =>
      obtain ⟨_, _, erased, _⟩ := remove_record_frame state token key removed found
      rw [erased]
      exact FiniteMap.lookup_erase_if _ _ _

def RecordsIndexed (hashing : Hashing) (state : NodeState) : Prop :=
  ∀ token key, toLex (token, key) ∈ state.recordsByToken ↔
    token = state.tokenOf hashing key ∧ key ∈ state.records

theorem insert_record_indexed (state : NodeState) (key : Bytes) (record : Record)
    (indexed : RecordsIndexed hashing state) :
    RecordsIndexed hashing (state.insertRecord hashing key record) := by
  obtain ⟨_, _, inserted, _⟩ := insert_record_frame hashing state key record
  rw [inserted]
  intro token probe
  have before := indexed token probe
  simp only [tokenOf, AList.mem_insert] at before ⊢
  by_cases present : key ∈ state.records
  · simp only [present, ↓reduceIte, before]
    constructor
    · rintro ⟨here, stored⟩
      exact ⟨here, Or.inr stored⟩
    · rintro ⟨here, rfl | stored⟩
      · exact ⟨here, present⟩
      · exact ⟨here, stored⟩
  · simp only [present, ↓reduceIte, TokenIndex.add, OrderedSet.mem_insert, before,
      EmbeddingLike.apply_eq_iff_eq, Prod.mk.injEq]
    constructor
    · rintro (⟨rfl, rfl⟩ | ⟨here, stored⟩)
      · exact ⟨rfl, Or.inl rfl⟩
      · exact ⟨here, Or.inr stored⟩
    · rintro ⟨here, rfl | stored⟩
      · exact Or.inl ⟨here, rfl⟩
      · exact Or.inr ⟨here, stored⟩

theorem apply_record_indexed (state : NodeState) (key : Bytes) (record : Record)
    (indexed : RecordsIndexed hashing state) :
    RecordsIndexed hashing (state.applyRecord hashing key record) := by
  unfold applyRecord
  split
  · split
    · exact indexed
    · exact insert_record_indexed hashing state key record indexed
  · exact insert_record_indexed hashing state key record indexed

theorem remove_record_indexed (state : NodeState) (key : Bytes)
    (indexed : RecordsIndexed hashing state) :
    RecordsIndexed hashing (state.removeRecordAt (state.tokenOf hashing key) key) := by
  cases found : state.records.lookup key with
  | none =>
      unfold removeRecordAt
      rw [found]
      exact indexed
  | some removed =>
      obtain ⟨_, _, erased, _⟩ :=
        remove_record_frame state (state.tokenOf hashing key) key removed found
      rw [erased]
      intro token probe
      have before := indexed token probe
      simp only [tokenOf, AList.mem_erase, TokenIndex.remove, OrderedSet.mem_erase, ne_eq,
        EmbeddingLike.apply_eq_iff_eq, Prod.mk.injEq] at before ⊢
      rw [before]
      constructor
      · rintro ⟨other, here, stored⟩
        exact ⟨here, fun same => other ⟨same ▸ here, same⟩, stored⟩
      · rintro ⟨here, other, stored⟩
        exact ⟨fun same => other same.2, here, stored⟩

end NodeState
end Hashring
