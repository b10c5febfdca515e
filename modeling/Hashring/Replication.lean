import Hashring.Dedup

/-! The follower half of crates/hashring-node/src/rpc.rs: replication entries,
batches and checkpoints. An operation returns the state it leaves behind
together with its answer, because a refused entry may still have purged
expired receipts or created an empty stream position. -/
namespace Hashring

def maxReplicationFingerprints : Nat := 4096

/-- The byte string `replication_fingerprint` feeds to BLAKE3. -/
def replicationEncoding (entry : ReplicationEntry) : Bytes :=
  utf8 "hashring-rs:replication-entry:v3" ++ [byte 0] ++ beBytes entry.topologyEpoch ++
    encodeText entry.ownerNodeId ++ beBytes entry.streamSequence ++ encodeBytes entry.key ++
    encodeBytes entry.value ++ [flagByte entry.deleted] ++ encodeBytes entry.requestFingerprint ++
    encodeDeadline entry.expiresAtUnixMillis ++ entry.version.elim [] encodeVersion ++
    encodeText entry.mutationId

-- The source keeps the digest as hexadecimal text.
def replicationFingerprint (hashing : Hashing) (entry : ReplicationEntry) : Bytes :=
  hashing.blake3 (replicationEncoding entry)

namespace ReplicationEntry

def stream (entry : ReplicationEntry) : StreamKey := ⟨entry.topologyEpoch, entry.ownerNodeId⟩

end ReplicationEntry

namespace NodeState

/-- A stream the follower has not met yet reads as the default position. -/
def streamAt (state : NodeState) (key : StreamKey) : FollowerStreamState :=
  (state.followerStreams.lookup key).getD {}

def initStream (state : NodeState) (key : StreamKey) : NodeState :=
  { state with followerStreams := state.followerStreams.insert key (state.streamAt key) }

def setStream (state : NodeState) (key : StreamKey) (stream : FollowerStreamState) : NodeState :=
  { state with followerStreams := state.followerStreams.insert key stream }

end NodeState

section

variable (hashing : Hashing) (config : NodeConfig)

/-- The checks before the stream position is read; the record they admit
carries the entry's version. -/
def checkReplicationEntry (state : NodeState) (entry : ReplicationEntry) : Except Status Record :=
  if entry.streamSequence = 0 then
    .error ⟨.invalidArgument, "replication stream sequence must be greater than zero"⟩
  else if entry.mutationId.isEmpty ∨ maxMutationIdBytes < entry.mutationId.utf8ByteSize then
    .error ⟨.invalidArgument, s!"mutation id must contain 1 to {maxMutationIdBytes} bytes"⟩
  else if entry.key.isEmpty ∨ config.maxKeyBytes < entry.key.length then
    .error ⟨.invalidArgument, "replication key size is invalid"⟩
  else if maxValueBytesCeiling < entry.value.length then
    .error ⟨.resourceExhausted, "replication value exceeds the cluster ceiling"⟩
  else if carried : entry.deleted = true ∧ entry.value ≠ [] then
    .error ⟨.invalidArgument, "deleted replication entry must omit its value"⟩
  else
    match entry.version with
    | none => .error ⟨.invalidArgument, "replication entry omitted version"⟩
    | some version =>
        if version.topologyEpoch ≠ entry.topologyEpoch ∨ version.ownerNodeId ≠ entry.ownerNodeId then
          .error ⟨.failedPrecondition, "replication entry version does not match its stream authority"⟩
        else if entry.topologyEpoch ≠ state.topology.epoch then
          .error ⟨.failedPrecondition, "replication epoch " ++ toString entry.topologyEpoch ++
            " does not match installed epoch " ++ toString state.topology.epoch⟩
        else
          match state.topology.ownerForToken (state.tokenOf hashing entry.key) with
          | .error error => .error ⟨.internal, error.message⟩
          | .ok owner =>
              if owner.nodeId ≠ entry.ownerNodeId then
                .error ⟨.failedPrecondition, "replication entry was not issued by the current owner"⟩
              else
                match state.topology.replicaNodeIdsForToken (state.tokenOf hashing entry.key) with
                | .error error => .error ⟨.internal, error.message⟩
                | .ok replicas =>
                    if config.nodeId ∉ replicas.tail then
                      .error ⟨.failedPrecondition, "this node is not a desired follower for the mutation"⟩
                    else .ok (Record.stored entry.value version entry.deleted
                      entry.expiresAtUnixMillis carried)

def advanceStream (stream : FollowerStreamState) (sequence ownerSequence : Nat) (fingerprint : Bytes) :
    FollowerStreamState :=
  let fingerprints := stream.fingerprints.insert sequence fingerprint
  { stream with
    appliedSequence := sequence
    lastOwnerSequence := ownerSequence
    fingerprints :=
      if maxReplicationFingerprints < sequence then
        fingerprints.erase (sequence - maxReplicationFingerprints)
      else fingerprints }

def acceptEntry (clock : Clock) (purged : NodeState) (entry : ReplicationEntry) (record : Record) :
    NodeState :=
  let stored := purged.applyRecord hashing entry.key record
  let advanced := stored.setStream entry.stream
    (advanceStream (stored.streamAt entry.stream) entry.streamSequence record.version.ownerSequence
      (replicationFingerprint hashing entry))
  insertDedup hashing advanced entry.mutationId entry.key entry.requestFingerprint record.version
    entry.deleted clock.later

/-- The rest of `apply_replication_entry` for the entry the stream expects,
under `purged`, the state whose expired receipts were dropped. -/
def applyNextEntry (clock : Clock) (purged : NodeState) (entry : ReplicationEntry) (record : Record) :
    NodeState × Except Status Nat :=
  if entry.requestFingerprint.length ≠ 32 then
    (purged, .error ⟨.invalidArgument, "replication entry fingerprint is invalid"⟩)
  else if entry.mutationId ∈ purged.dedup then
    (purged, .error ⟨.alreadyExists, "replication stream reused a live mutation ID"⟩)
  else if config.maxDedupBytes < purged.dedupBytes +
      dedupRetainedBytes entry.mutationId entry.key.length record.version.ownerNodeId.utf8ByteSize then
    (purged, .error ⟨.resourceExhausted, "follower deduplication receipt store is full"⟩)
  else (acceptEntry hashing clock purged entry record, .ok entry.streamSequence)

def applyReplicationEntry (clock : Clock) (state : NodeState) (entry : ReplicationEntry) :
    NodeState × Except Status Nat :=
  match checkReplicationEntry hashing config state entry with
  | .error status => (state, .error status)
  | .ok record =>
      let stream := state.streamAt entry.stream
      let met := state.initStream entry.stream
      if entry.streamSequence ≤ stream.appliedSequence then
        if stream.fingerprints.lookup entry.streamSequence =
          some (replicationFingerprint hashing entry) then
          (met, .ok stream.appliedSequence)
        else if entry.streamSequence ≤ stream.checkpointSequence ∧
            entry.streamSequence ∉ stream.fingerprints then
          (met, .ok stream.appliedSequence)
        else
          (met, .error ⟨.alreadyExists, "replication stream sequence conflicts with an applied entry"⟩)
      else if entry.streamSequence ≠ stream.appliedSequence + 1 then
        (met, .error ⟨.aborted, "replication gap: expected sequence " ++
          toString (stream.appliedSequence + 1) ++ ", received " ++ toString entry.streamSequence⟩)
      else if record.version.ownerSequence ≤ stream.lastOwnerSequence then
        (met, .error ⟨.failedPrecondition,
          "replication record version did not advance the owner sequence"⟩)
      else applyNextEntry hashing config clock (purgeExpiredDedup hashing met clock.now) entry record

/-- The loop of `replicate_mutations`; `applied` is the sequence of the last
accepted entry, zero while there is none. -/
def applyReplicationEntries (clock : Clock) : NodeState → Nat → List ReplicationEntry →
    NodeState × Except Status Nat
  | state, applied, [] => (state, .ok applied)
  | state, applied, entry :: rest =>
      match applyReplicationEntry hashing config clock state entry with
      | (next, .ok sequence) => applyReplicationEntries clock next sequence rest
      | (next, .error status) => if 0 < applied then (next, .ok applied) else (next, .error status)

def replicateMutations (clock : Clock) (state : NodeState) (entries : List ReplicationEntry) :
    NodeState × Except Status ReplicateMutationsResponse :=
  match entries with
  | [] => (state, .error ⟨.invalidArgument, "replication batch must not be empty"⟩)
  | first :: rest =>
      if (first :: rest).any fun entry => decide (entry.stream ≠ first.stream) then
        (state, .error ⟨.invalidArgument, "replication batch must contain one stream"⟩)
      else
        let (next, answer) := applyReplicationEntries hashing config clock state 0 (first :: rest)
        (next, answer.map fun applied => ⟨config.processInstanceId, applied⟩)

/-- The ranges a checkpoint of the stream from `owner` has to verify. -/
def expectedCheckpointRanges (owner : String) (ranges : List DerivedRange) : List (Token × Token) :=
  ((ranges.filter fun range => range.ownerNodeId = owner ∧ config.nodeId ∈ range.followerNodeIds).map
    fun range => (range.startExclusive, range.endInclusive)).dedup

def verifiedCheckpointRanges (state : NodeState) (owner : String) :
    List (Token × Token) → List RangeKey → Except Status (List (Token × Token))
  | actual, [] => .ok actual
  | actual, control :: rest =>
      match state.destinations.lookup control with
      | none => .error ⟨.failedPrecondition, "checkpoint range was not prepared"⟩
      | some destination =>
          let interval := (destination.range.startExclusive, destination.range.endInclusive)
          if destination.committed = false ∨ destination.range.sourceNodeId ≠ owner ∨
              destination.range.destinationNodeId ≠ config.nodeId ∨ interval ∈ actual then
            .error ⟨.failedPrecondition, "checkpoint contains an unverified or duplicate range"⟩
          else verifiedCheckpointRanges state owner (interval :: actual) rest

def installReplicationCheckpoint (state : NodeState) (request : ReplicationCheckpointRequest) :
    NodeState × Except Status Nat :=
  if request.topologyEpoch ≠ state.topology.epoch ∨ request.followerNodeId ≠ config.nodeId then
    (state, .error ⟨.failedPrecondition, "checkpoint does not match follower epoch"⟩)
  else
    match state.topology.derivedRanges with
    | .error error => (state, .error ⟨.internal, error.message⟩)
    | .ok ranges =>
        let expected := expectedCheckpointRanges config request.ownerNodeId ranges
        if expected = [] ∨ request.verifiedRanges.length ≠ expected.length then
          (state, .error ⟨.failedPrecondition, "checkpoint does not cover the full follower stream"⟩)
        else
          match verifiedCheckpointRanges config state request.ownerNodeId [] request.verifiedRanges with
          | .error status => (state, .error status)
          | .ok actual =>
              if ¬(actual ⊆ expected ∧ expected ⊆ actual) then
                (state, .error ⟨.failedPrecondition, "checkpoint has incomplete stream coverage"⟩)
              else
                let key : StreamKey := ⟨request.topologyEpoch, request.ownerNodeId⟩
                let stream := state.streamAt key
                if request.streamSequence < stream.appliedSequence then
                  (state.initStream key,
                    .error ⟨.failedPrecondition, "checkpoint would rewind the follower stream"⟩)
                else
                  (state.setStream key
                    { stream with
                      appliedSequence := request.streamSequence
                      checkpointSequence := request.streamSequence },
                    .ok request.streamSequence)

end

namespace NodeState

@[simp]
theorem stream_at_init (state : NodeState) (key probe : StreamKey) :
    (state.initStream key).streamAt probe = state.streamAt probe := by
  unfold streamAt initStream
  rw [FiniteMap.lookup_insert_if]
  by_cases same : probe = key
  · subst probe
    simp [streamAt]
  · simp [same]

@[simp]
theorem stream_at_set (state : NodeState) (key probe : StreamKey) (stream : FollowerStreamState) :
    (state.setStream key stream).streamAt probe = if probe = key then stream else state.streamAt
      probe := by
  unfold streamAt setStream
  rw [FiniteMap.lookup_insert_if]
  split <;> rfl

theorem OnlyRecords.stream_at {before after : NodeState} (only : OnlyRecords before after)
    (key : StreamKey) :
    after.streamAt key = before.streamAt key := by
  obtain ⟨⟨_, _, _, _, rfl⟩, _⟩ := only
  rfl

end NodeState

theorem OnlyReceipts.stream_at {before after : NodeState} (only : OnlyReceipts before after)
    (key : StreamKey) :
    after.streamAt key = before.streamAt key := by
  obtain ⟨_, _, _, _, _, _, _, _, _, rfl⟩ := only
  rfl

section

variable (hashing : Hashing) (config : NodeConfig)

/-- Every way `apply_replication_entry` can end. -/
inductive EntryCase (clock : Clock) (state : NodeState) (entry : ReplicationEntry) :
    NodeState × Except Status Nat → Prop where
  | malformed (status : Status)
      (refused : checkReplicationEntry hashing config state entry = .error status) :
      EntryCase clock state entry (state, .error status)
  | redelivered (record : Record)
      (checked : checkReplicationEntry hashing config state entry = .ok record)
      (old : entry.streamSequence ≤ (state.streamAt entry.stream).appliedSequence)
      (known : (state.streamAt entry.stream).fingerprints.lookup entry.streamSequence =
          some (replicationFingerprint hashing entry) ∨
        entry.streamSequence ≤ (state.streamAt entry.stream).checkpointSequence ∧
          (state.streamAt entry.stream).fingerprints.lookup entry.streamSequence = none) :
      EntryCase clock state entry
        (state.initStream entry.stream, .ok (state.streamAt entry.stream).appliedSequence)
  | conflict (record : Record) (checked : checkReplicationEntry hashing config state entry = .ok record)
      (old : entry.streamSequence ≤ (state.streamAt entry.stream).appliedSequence)
      (differs : (state.streamAt entry.stream).fingerprints.lookup entry.streamSequence ≠
        some (replicationFingerprint hashing entry))
      (covered : entry.streamSequence ≤ (state.streamAt entry.stream).checkpointSequence →
        (state.streamAt entry.stream).fingerprints.lookup entry.streamSequence ≠ none) :
      EntryCase clock state entry
        (state.initStream entry.stream,
          .error ⟨.alreadyExists, "replication stream sequence conflicts with an applied entry"⟩)
  | gap (record : Record) (checked : checkReplicationEntry hashing config state entry = .ok record)
      (beyond : (state.streamAt entry.stream).appliedSequence + 1 < entry.streamSequence)
        (message : String) :
      EntryCase clock state entry (state.initStream entry.stream, .error ⟨.aborted, message⟩)
  | stale (record : Record) (checked : checkReplicationEntry hashing config state entry = .ok record)
      (next : entry.streamSequence = (state.streamAt entry.stream).appliedSequence + 1)
      (behind : record.version.ownerSequence ≤ (state.streamAt entry.stream).lastOwnerSequence) :
      EntryCase clock state entry
        (state.initStream entry.stream,
          .error ⟨.failedPrecondition, "replication record version did not advance the owner sequence"⟩)
  | refused (record : Record) (checked : checkReplicationEntry hashing config state entry = .ok record)
      (next : entry.streamSequence = (state.streamAt entry.stream).appliedSequence + 1)
      (ahead : (state.streamAt entry.stream).lastOwnerSequence < record.version.ownerSequence)
        (status : Status)
      (reason : entry.requestFingerprint.length ≠ 32 ∧ status.code = .invalidArgument ∨
        entry.mutationId ∈ (purgeExpiredDedup hashing (state.initStream entry.stream) clock.now).dedup ∧
          status.code = .alreadyExists ∨ status.code = .resourceExhausted) :
      EntryCase clock state entry
        (purgeExpiredDedup hashing (state.initStream entry.stream) clock.now, .error status)
  | accepted (record : Record) (checked : checkReplicationEntry hashing config state entry = .ok record)
      (next : entry.streamSequence = (state.streamAt entry.stream).appliedSequence + 1)
      (ahead : (state.streamAt entry.stream).lastOwnerSequence < record.version.ownerSequence)
      (sized : entry.requestFingerprint.length = 32)
      (fresh : entry.mutationId ∉
        (purgeExpiredDedup hashing (state.initStream entry.stream) clock.now).dedup)
      (room : (purgeExpiredDedup hashing (state.initStream entry.stream) clock.now).dedupBytes +
        dedupRetainedBytes
        entry.mutationId entry.key.length record.version.ownerNodeId.utf8ByteSize ≤
          config.maxDedupBytes) :
      EntryCase clock state entry
        (acceptEntry hashing clock
          (purgeExpiredDedup hashing (state.initStream entry.stream) clock.now) entry record,
          .ok entry.streamSequence)

theorem apply_entry_cases (clock : Clock) (state : NodeState) (entry : ReplicationEntry) :
    EntryCase hashing config clock state entry
      (applyReplicationEntry hashing config clock state entry) := by
  unfold applyReplicationEntry
  cases checked : checkReplicationEntry hashing config state entry with
  | error status => exact .malformed status checked
  | ok record =>
      simp only
      split
      · rename_i old
        split
        · rename_i known
          exact .redelivered record checked old (Or.inl known)
        · rename_i differs
          split
          · rename_i covered
            exact .redelivered record checked old (Or.inr ⟨covered.1, AList.lookup_eq_none.mpr covered.2⟩)
          · rename_i uncovered
            refine .conflict record checked old differs ?_
            intro below absent
            exact uncovered ⟨below, AList.lookup_eq_none.mp absent⟩
      · rename_i fresh
        split
        · rename_i skipped
          exact .gap record checked (by omega) _
        · rename_i next
          rw [not_not] at next
          split
          · rename_i behind
            exact .stale record checked next behind
          · rename_i ahead
            unfold applyNextEntry
            split
            · rename_i sized
              exact .refused record checked next (not_le.mp ahead) _ (Or.inl ⟨sized, rfl⟩)
            · rename_i sized
              split
              · rename_i live
                exact .refused record checked next (not_le.mp ahead) _ (Or.inr (Or.inl ⟨live, rfl⟩))
              · rename_i live
                split
                · exact .refused record checked next (not_le.mp ahead) _ (Or.inr (Or.inr rfl))
                · rename_i room
                  exact .accepted record checked next (not_le.mp ahead) (not_not.mp sized) live
                    (not_lt.mp room)

/-- An accepted entry stores its record, moves its stream and files its receipt. -/
theorem accept_entry_only (clock : Clock) (purged : NodeState) (entry : ReplicationEntry)
    (record : Record) :
    ∃ stream, OnlyReceipts ((purged.applyRecord hashing entry.key record).setStream entry.stream stream)
      (acceptEntry hashing clock purged entry record) :=
  ⟨_, (insert_dedup_only hashing _ _ _ _ _ _ _).receipts⟩

theorem accept_entry_stream_at (clock : Clock) (purged : NodeState) (entry : ReplicationEntry)
    (record : Record) (key : StreamKey) :
    (acceptEntry hashing clock purged entry record).streamAt key =
      if key = entry.stream then
        advanceStream (purged.streamAt entry.stream) entry.streamSequence record.version.ownerSequence
          (replicationFingerprint hashing entry)
      else purged.streamAt key := by
  unfold acceptEntry insertDedup
  simp only
  rw [(insert_dedup_only hashing _ _ _ _ _ _ _).receipts.stream_at, NodeState.stream_at_set,
    (NodeState.apply_record_only hashing _ _ _).stream_at,
      (NodeState.apply_record_only hashing _ _ _).stream_at]

theorem accept_entry_records (clock : Clock) (purged : NodeState) (entry : ReplicationEntry)
    (record : Record) :
    (acceptEntry hashing clock purged entry record).records =
      (purged.applyRecord hashing entry.key record).records := by
  obtain ⟨_, _, _, _, _, _, _, _, _, _, filed⟩ := accept_entry_only hashing clock purged entry record
  rw [filed]
  rfl

theorem accept_entry_topology (clock : Clock) (purged : NodeState) (entry : ReplicationEntry)
    (record : Record) :
    (acceptEntry hashing clock purged entry record).topology = purged.topology := by
  obtain ⟨⟨_, _, _, _, stored⟩, _⟩ := NodeState.apply_record_only hashing purged entry.key record
  obtain ⟨_, filed⟩ := accept_entry_only hashing clock purged entry record
  rw [filed.topology]
  simp only [NodeState.setStream, stored]

theorem accept_entry_scheduled (clock : Clock) (purged : NodeState) (entry : ReplicationEntry)
    (record : Record) (scheduled : ReceiptsScheduled purged) :
    ReceiptsScheduled (acceptEntry hashing clock purged entry record) := by
  have stored : ReceiptsScheduled (purged.applyRecord hashing entry.key record) := by
    obtain ⟨⟨_, _, _, _, only⟩, _⟩ := NodeState.apply_record_only hashing purged entry.key record
    rw [only]
    exact scheduled
  exact insert_dedup_scheduled hashing _ _ _ _ _ _ _ stored

end
end Hashring
