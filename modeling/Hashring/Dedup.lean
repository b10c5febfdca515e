import Hashring.NodeState
import Hashring.Encoding

/-! Deduplication receipts of crates/hashring-node/src/dedup.rs: the shape a
receipt answers for, its fingerprint, its retention and its byte cost.
`size_of` is the value on a 64-bit target. -/
namespace Hashring

inductive Condition where
  | always
  | absent
  | version (version : RecordVersion)
  deriving DecidableEq

namespace Condition

def fromProto : Option Precondition → Except OperationError Condition
  | none => .ok .always
  | some ⟨some .absent⟩ => .ok .absent
  | some ⟨some (.version expected)⟩ => .ok (.version expected)
  | some ⟨none⟩ =>
      .error (operationError .invalidArgument "a precondition must say what it expects" false)

def holds (condition : Condition) (live : Option Record) : Bool :=
  match condition with
  | .always => true
  | .absent => live.isNone
  | .version expected => live.any fun record => record.version = expected

end Condition

structure MutationShape where
  value : Bytes
  deleted : Bool
  preserveValue : Bool
  expiresAtUnixMillis : Option Nat
  condition : Condition
  deriving DecidableEq

namespace MutationShape

def ofValue (value : Bytes) (deleted : Bool) (expiresAtUnixMillis : Option Nat) : MutationShape :=
  { value, deleted, preserveValue := false, expiresAtUnixMillis, condition := .always }

def expiryOnly (expiresAtUnixMillis : Nat) : MutationShape :=
  { value := [], deleted := false, preserveValue := true
    expiresAtUnixMillis := some expiresAtUnixMillis, condition := .always }

def withCondition (shape : MutationShape) (condition : Condition) : MutationShape :=
  { shape with condition }

end MutationShape

def encodeCondition : Condition → Bytes
  | .always => [byte 0]
  | .absent => [byte 1]
  | .version version => byte 2 :: encodeVersion version

/-- The byte string `mutation_fingerprint` feeds to BLAKE3. -/
def mutationEncoding (key : Bytes) (shape : MutationShape) : Bytes :=
  utf8 "hashring-rs:mutation:v3" ++ [byte 0] ++ encodeBytes key ++
    [flagByte shape.deleted, flagByte shape.preserveValue] ++ encodeBytes shape.value ++
    encodeDeadline shape.expiresAtUnixMillis ++ encodeCondition shape.condition

def mutationFingerprint (hashing : Hashing) (key : Bytes) (shape : MutationShape) : Bytes :=
  hashing.blake3 (mutationEncoding key shape)

/-- A condition the wire can carry. -/
def ConditionFits : Condition → Prop
  | .version version => VersionFits version
  | _ => True

structure MutationFits (key : Bytes) (shape : MutationShape) : Prop where
  key : key.length < 2 ^ 64
  value : shape.value.length < 2 ^ 64
  deadline : DeadlineFits shape.expiresAtUnixMillis
  condition : ConditionFits shape.condition

theorem encode_condition_injective (a b : Condition) (left : ConditionFits a) (right : ConditionFits b)
    (same : encodeCondition a = encodeCondition b) : a = b := by
  cases a with
  | always => cases b <;> simp [encodeCondition, byte] at same ⊢
  | absent => cases b <;> simp [encodeCondition, byte] at same ⊢
  | version x =>
      cases b with
      | always => simp [encodeCondition, byte] at same
      | absent => simp [encodeCondition, byte] at same
      | version y =>
          simp only [encodeCondition, List.cons.injEq, true_and] at same
          have split := encode_version_splits x y left right [] [] (by simpa using same)
          rw [split.1]

theorem mutation_encoding_injective (key key' : Bytes) (shape shape' : MutationShape)
    (left : MutationFits key shape) (right : MutationFits key' shape')
    (same : mutationEncoding key shape = mutationEncoding key' shape') : key = key' ∧ shape = shape' := by
  obtain ⟨value, deleted, preserve, deadline, condition⟩ := shape
  obtain ⟨value', deleted', preserve', deadline', condition'⟩ := shape'
  simp only [mutationEncoding, List.append_assoc, List.append_cancel_left_eq, List.cons_append,
    List.nil_append, List.cons.injEq, true_and] at same
  obtain ⟨rfl, afterKey⟩ := encode_bytes_splits _ _ left.key right.key _ _ same
  simp only [List.cons.injEq] at afterKey
  obtain ⟨sameDeleted, samePreserve, afterFlags⟩ := afterKey
  obtain rfl := flag_byte_injective _ _ sameDeleted
  obtain rfl := flag_byte_injective _ _ samePreserve
  obtain ⟨rfl, afterValue⟩ := encode_bytes_splits _ _ left.value right.value _ _ afterFlags
  obtain ⟨rfl, conditions⟩ := encode_deadline_splits _ _ left.deadline right.deadline _ _ afterValue
  obtain rfl := encode_condition_injective _ _ left.condition right.condition conditions
  exact ⟨rfl, rfl⟩

def receiptSize : Nat := 160
def expirationSize : Nat := 32
def stagedReceiptSize : Nat := 176
def requiredAckSize : Nat := 40

def dedupRetainedBytes (mutationId : String) (keyLen ownerLen : Nat) : Nat :=
  mutationId.utf8ByteSize + keyLen + ownerLen + receiptSize + expirationSize + 32 + 64

def stagedDedupRetainedBytes (mutationId : String) (keyLen ownerLen : Nat) : Nat :=
  mutationId.utf8ByteSize * 2 + keyLen + ownerLen + 32 + stagedReceiptSize + 64

def requiredAckEntryBytes (nodeIdLen : Nat) : Nat := 2 * requiredAckSize + nodeIdLen + 64

def requiredAckRetainedBytes (followers : List String) : Nat :=
  (followers.map fun nodeId => requiredAckEntryBytes nodeId.utf8ByteSize).sum

def dedupRecordSize (record : DeduplicationRecord) : Nat :=
  record.mutationId.utf8ByteSize + record.key.length + record.fingerprint.length +
    record.version.elim 0 (·.ownerNodeId.utf8ByteSize) + 128

/-- `remaining_retention_millis`: rounded up to a millisecond, then capped. -/
def remainingRetentionMillis (expiresAt now : Instant) (retentionMillis : Nat) : Nat :=
  if expiresAt - now = 0 then 0
  else min ((expiresAt - now + (nanosPerMilli - 1)) / nanosPerMilli) retentionMillis

def stageDedup (destination : DestinationMigration) (record : DeduplicationRecord)
    (maxDedupBytes retentionMillis : Nat) (now : Instant) : Except Status DestinationMigration :=
  if record.remainingRetentionMillis = 0 then .ok destination
  else if record.mutationId.isEmpty ∨ maxMutationIdBytes < record.mutationId.utf8ByteSize ∨
      record.fingerprint.length ≠ 32 then
    .error ⟨.invalidArgument, "invalid deduplication record"⟩
  else
    match record.version with
    | none => .error ⟨.invalidArgument, "invalid deduplication record"⟩
    | some version =>
        let expiresAt := now + min record.remainingRetentionMillis retentionMillis * nanosPerMilli
        match destination.dedup.lookup record.mutationId with
        | some existing =>
            if existing.record.key = record.key ∧ existing.record.fingerprint = record.fingerprint ∧
                existing.record.version = record.version ∧ existing.record.deleted = record.deleted then
              .ok { destination with
                    dedup := destination.dedup.insert record.mutationId
                      { existing with expiresAt := max existing.expiresAt expiresAt } }
            else .error ⟨.failedPrecondition, "conflicting mutation ID in destination migration"⟩
        | none =>
            let cost := stagedDedupRetainedBytes record.mutationId record.key.length
              version.ownerNodeId.utf8ByteSize
            if maxDedupBytes < destination.dedupBytes + cost then
              .error ⟨.resourceExhausted, "staged deduplication receipt store is full"⟩
            else
              .ok { destination with
                    dedupBytes := destination.dedupBytes + cost
                    dedup := destination.dedup.insert record.mutationId
                      { record, expiresAt, retainedBytes := cost } }

def purgeStagedDedup (destination : DestinationMigration) (now : Instant) : DestinationMigration :=
  let dedup := destination.dedup.retain fun _ entry => now < entry.expiresAt
  { destination with dedup, dedupBytes := (dedup.values.map (·.retainedBytes)).sum }

/-- Streams named by a pending acknowledgement of a retained receipt. -/
def liveAckStreams (dedup : FiniteMap String DedupEntry) : List StreamKey :=
  dedup.values.flatMap fun entry => entry.requiredAcks.map fun ack => ⟨ack.epoch, ack.nodeId⟩

def pruneAckProgress (state : NodeState) : NodeState :=
  let currentEpoch := state.topology.epoch
  if (state.ackProgress.keys ++ state.ackProcessInstances.keys).all fun key => key.epoch =
    currentEpoch then
    state
  else
    let live := liveAckStreams state.dedup
    { state with
      ackProgress := state.ackProgress.retain fun key _ => key.epoch = currentEpoch || key ∈ live
      ackProcessInstances := state.ackProcessInstances.retain fun key _ =>
        key.epoch = currentEpoch || key ∈ live }

section

variable (hashing : Hashing)

/-- One turn of the purge loop, after its heap entry was popped. -/
def dropExpiredReceipt (now : Instant) (state : NodeState) (mutationId : String) : NodeState :=
  match state.dedup.lookup mutationId with
  | none => state
  | some entry =>
      if entry.expiresAt ≤ now then
        { state with
          dedup := state.dedup.erase mutationId
          dedupByToken := state.dedupByToken.remove (state.tokenOf hashing entry.key) mutationId
          dedupBytes := state.dedupBytes - entry.retainedBytes
          ackProgressNeedsPrune := true }
      else state

def receiptDue (now : Instant) (entry : Instant ×ₗ String) : Bool := (ofLex entry).1 ≤ now

def purgeExpiredDedup (state : NodeState) (now : Instant) : NodeState :=
  let purged := (state.dedupExpirations.due (receiptDue now)).foldl
    (fun state entry => dropExpiredReceipt hashing now state (ofLex entry).2)
    { state with dedupExpirations := state.dedupExpirations.later (receiptDue now) }
  if purged.ackProgressNeedsPrune ∧ purged.nextAckPruneAt ≤ now then
    { pruneAckProgress purged with
      ackProgressNeedsPrune := false, nextAckPruneAt := now + 1000 * nanosPerMilli }
  else purged

def insertDedupUntil (state : NodeState) (mutationId : String) (key fingerprint : Bytes)
    (version : RecordVersion) (deleted : Bool) (expiresAt : Instant) : NodeState :=
  let retainedBytes := dedupRetainedBytes mutationId key.length version.ownerNodeId.utf8ByteSize
  let inserted :=
    { state with
      dedupExpirations := state.dedupExpirations.push (toLex (expiresAt, mutationId))
      dedup := state.dedup.insert mutationId
        { key, fingerprint, version, deleted, retainedBytes, expiresAt, requiredAcks := [] } }
  let released :=
    match state.dedup.lookup mutationId with
    | some previous =>
        { inserted.removeDedupIndex hashing mutationId previous.key with
          dedupBytes := inserted.dedupBytes - previous.retainedBytes }
    | none => inserted
  let charged := released.dedupBytes + retainedBytes
  { released.insertDedupIndex hashing mutationId key with
    dedupBytes := charged, dedupPeakBytes := max released.dedupPeakBytes charged }

def insertDedup (state : NodeState) (mutationId : String) (key fingerprint : Bytes)
    (version : RecordVersion) (deleted : Bool) (now : Instant) : NodeState :=
  insertDedupUntil hashing state mutationId key fingerprint version deleted
    (now + state.topology.timings.receiptRetention)

end

def completeRequiredAcks (state : NodeState) (mutationId : String) (version : RecordVersion) :
    NodeState :=
  match state.dedup.lookup mutationId with
  | none => state
  | some entry =>
      if entry.version ≠ version ∨ entry.requiredAcks = [] then state
      else
        let released := (entry.requiredAcks.map fun ack =>
            requiredAckEntryBytes ack.nodeId.utf8ByteSize).sum
        { state with
          dedup := state.dedup.insert mutationId
            { entry with requiredAcks := [], retainedBytes := entry.retainedBytes - released }
          dedupBytes := state.dedupBytes - released }

def dedupRetryAfterMillis (state : NodeState) (now : Instant) : Nat :=
  match state.dedupExpirations.peek with
  | some entry =>
      max (remainingRetentionMillis (ofLex entry).1 now state.topology.timings.receiptRetentionMillis) 1
  | none => 1

/-- What the receipt operations leave alone. -/
def OnlyReceipts (before after : NodeState) : Prop :=
  ∃ dedup dedupByToken dedupExpirations dedupBytes dedupPeakBytes ackProgress ackProcessInstances
      ackProgressNeedsPrune nextAckPruneAt,
    after = { before with
      dedup, dedupByToken, dedupExpirations, dedupBytes, dedupPeakBytes, ackProgress, ackProcessInstances
      ackProgressNeedsPrune, nextAckPruneAt }

/-- What an inserted receipt leaves alone. -/
def OnlyDedup (before after : NodeState) : Prop :=
  ∃ dedup dedupByToken dedupExpirations dedupBytes dedupPeakBytes,
    after = { before with dedup, dedupByToken, dedupExpirations, dedupBytes, dedupPeakBytes }

theorem OnlyDedup.receipts {before after : NodeState} (only : OnlyDedup before after) :
    OnlyReceipts before after := by
  obtain ⟨_, _, _, _, _, rfl⟩ := only
  exact ⟨_, _, _, _, _, _, _, _, _, rfl⟩

/-- Every receipt waits in the heap under its current expiry. Stale heap
entries of replaced receipts are allowed. -/
def ReceiptsScheduled (state : NodeState) : Prop :=
  ∀ id entry, state.dedup.lookup id = some entry → toLex (entry.expiresAt, id) ∈ state.dedupExpirations

def ReceiptsIndexed (hashing : Hashing) (state : NodeState) : Prop :=
  ∀ token id, toLex (token, id) ∈ state.dedupByToken ↔
    ∃ entry, state.dedup.lookup id = some entry ∧ token = state.tokenOf hashing entry.key

namespace OnlyReceipts

theorem refl (state : NodeState) : OnlyReceipts state state := ⟨_, _, _, _, _, _, _, _, _, rfl⟩

theorem trans {first second third : NodeState} (early : OnlyReceipts first second)
    (late : OnlyReceipts second third) : OnlyReceipts first third := by
  obtain ⟨_, _, _, _, _, _, _, _, _, rfl⟩ := early
  obtain ⟨_, _, _, _, _, _, _, _, _, rfl⟩ := late
  exact ⟨_, _, _, _, _, _, _, _, _, rfl⟩

theorem topology {before after : NodeState} (only : OnlyReceipts before after) :
    after.topology = before.topology := by
  obtain ⟨_, _, _, _, _, _, _, _, _, rfl⟩ := only
  rfl

end OnlyReceipts

/-- Completing a wait rewrites its receipt in place and gives back what it was charged. -/
theorem complete_required_acks_frame (state : NodeState) (mutationId : String) (version : RecordVersion) :
    ∃ dedup dedupBytes, completeRequiredAcks state mutationId version =
      { state with dedup, dedupBytes } := by
  unfold completeRequiredAcks
  split
  · exact ⟨_, _, rfl⟩
  · split <;> exact ⟨_, _, rfl⟩

theorem complete_required_acks_only (state : NodeState) (mutationId : String) (version : RecordVersion) :
    OnlyReceipts state (completeRequiredAcks state mutationId version) := by
  obtain ⟨_, _, frame⟩ := complete_required_acks_frame state mutationId version
  exact ⟨_, _, _, _, _, _, _, _, _, frame⟩

theorem complete_required_acks_scheduled {state : NodeState} (scheduled : ReceiptsScheduled state)
    (mutationId : String) (version : RecordVersion) :
    ReceiptsScheduled (completeRequiredAcks state mutationId version) := by
  unfold completeRequiredAcks
  split
  · exact scheduled
  · rename_i entry found
    split
    · exact scheduled
    · intro probe other kept
      rw [FiniteMap.lookup_insert_if] at kept
      split at kept
      · rename_i here
        rw [← Option.some.inj kept, here]
        exact scheduled mutationId entry found
      · exact scheduled probe other kept

section

variable (hashing : Hashing)

theorem drop_expired_only (now : Instant) (state : NodeState) (id : String) :
    OnlyReceipts state (dropExpiredReceipt hashing now state id) := by
  unfold dropExpiredReceipt
  split
  · exact OnlyReceipts.refl state
  · split
    · exact ⟨_, _, _, _, _, _, _, _, _, rfl⟩
    · exact OnlyReceipts.refl state

theorem lookup_drop_expired (now : Instant) (state : NodeState) (id probe : String) :
    (dropExpiredReceipt hashing now state id).dedup.lookup probe =
      (state.dedup.lookup probe).filter fun entry => probe ≠ id ∨ now < entry.expiresAt := by
  by_cases same : probe = id
  · subst probe
    unfold dropExpiredReceipt
    cases found : state.dedup.lookup id with
    | none => simp [found]
    | some entry =>
        by_cases expired : entry.expiresAt ≤ now
        · simp [expired, Option.filter_some]
        · simp [expired, Option.filter_some, found]
  · rw [filter_eq_self (by simp [same])]
    unfold dropExpiredReceipt
    split
    · rfl
    · split
      · simp [same]
      · rfl

theorem drop_expired_indexed (now : Instant) (state : NodeState) (id : String)
    (indexed : ReceiptsIndexed hashing state) :
    ReceiptsIndexed hashing (dropExpiredReceipt hashing now state id) := by
  unfold dropExpiredReceipt
  cases found : state.dedup.lookup id with
  | none => exact indexed
  | some entry =>
      by_cases expired : entry.expiresAt ≤ now
      · simp only [expired, ↓reduceIte]
        intro token probe
        have before := indexed token probe
        simp only [NodeState.tokenOf, TokenIndex.remove, OrderedSet.mem_erase, ne_eq,
          EmbeddingLike.apply_eq_iff_eq, Prod.mk.injEq, FiniteMap.lookup_erase_if] at before ⊢
        rw [before]
        by_cases same : probe = id
        · subst probe
          simp [found]
        · simp [same]
      · simpa only [expired, ↓reduceIte] using indexed

theorem drop_expired_fold (now : Instant) (popped : List (Instant ×ₗ String)) (state : NodeState) :
    let purged := popped.foldl
      (fun state entry => dropExpiredReceipt hashing now state (ofLex entry).2) state
    OnlyReceipts state purged ∧ purged.dedupExpirations = state.dedupExpirations ∧
      (∀ probe, purged.dedup.lookup probe = (state.dedup.lookup probe).filter fun entry =>
        probe ∉ popped.map (fun entry => (ofLex entry).2) ∨ now < entry.expiresAt) ∧
      (ReceiptsIndexed hashing state → ReceiptsIndexed hashing purged) := by
  induction popped generalizing state with
  | nil => exact ⟨OnlyReceipts.refl state, rfl, fun _ => (filter_eq_self (by simp)).symm, id⟩
  | cons head rest ih =>
      obtain ⟨only, heap, lookups, indexed⟩ := ih (dropExpiredReceipt hashing now state (ofLex head).2)
      have untouched : (dropExpiredReceipt hashing now state (ofLex head).2).dedupExpirations =
          state.dedupExpirations := by
        unfold dropExpiredReceipt
        split
        · rfl
        · split <;> rfl
      refine ⟨(drop_expired_only hashing now state _).trans only, heap.trans untouched, ?_, ?_⟩
      · intro probe
        have later := lookups probe
        simp only [List.foldl_cons, List.map_cons, List.mem_cons, not_or] at later ⊢
        rw [later, lookup_drop_expired, Option.filter_filter]
        congr 1
        funext entry
        rw [← Bool.decide_and]
        apply decide_eq_decide.mpr
        tauto
      · intro start
        exact indexed (drop_expired_indexed hashing now state _ start)

theorem prune_ack_progress_only (state : NodeState) :
    OnlyReceipts state (pruneAckProgress state) ∧ (pruneAckProgress state).dedup = state.dedup ∧
      (pruneAckProgress state).dedupByToken = state.dedupByToken ∧
      (pruneAckProgress state).dedupExpirations = state.dedupExpirations := by
  unfold pruneAckProgress
  simp only
  split
  · exact ⟨OnlyReceipts.refl state, rfl, rfl, rfl⟩
  · exact ⟨⟨_, _, _, _, _, _, _, _, _, rfl⟩, rfl, rfl, rfl⟩

/-- The acknowledgement tables of the installed epoch are the same. -/
def SameCurrentAcks (before after : NodeState) : Prop :=
  ∀ key : StreamKey, key.epoch = before.topology.epoch →
    after.ackProgress.lookup key = before.ackProgress.lookup key ∧
      after.ackProcessInstances.lookup key = before.ackProcessInstances.lookup key

theorem prune_keeps_current_acks (state : NodeState) :
    SameCurrentAcks state (pruneAckProgress state) := by
  intro key current
  unfold pruneAckProgress
  simp only
  split
  · exact ⟨rfl, rfl⟩
  · simp only [FiniteMap.lookup_retain]
    exact ⟨filter_eq_self (by simp [current]), filter_eq_self (by simp [current])⟩

theorem drop_expired_same_acks (now : Instant) (popped : List (Instant ×ₗ String)) (state : NodeState) :
    let purged := popped.foldl
      (fun state entry => dropExpiredReceipt hashing now state (ofLex entry).2) state
    purged.topology = state.topology ∧ purged.ackProgress = state.ackProgress ∧
      purged.ackProcessInstances = state.ackProcessInstances := by
  induction popped generalizing state with
  | nil => exact ⟨rfl, rfl, rfl⟩
  | cons head rest ih =>
      obtain ⟨topology, progress, instances⟩ := ih (dropExpiredReceipt hashing now state (ofLex head).2)
      have one : (dropExpiredReceipt hashing now state (ofLex head).2).topology = state.topology ∧
          (dropExpiredReceipt hashing now state (ofLex head).2).ackProgress = state.ackProgress ∧
          (dropExpiredReceipt hashing now state (ofLex head).2).ackProcessInstances =
            state.ackProcessInstances := by
        unfold dropExpiredReceipt
        split
        · exact ⟨rfl, rfl, rfl⟩
        · split <;> exact ⟨rfl, rfl, rfl⟩
      exact ⟨topology.trans one.1, progress.trans one.2.1, instances.trans one.2.2⟩

theorem purge_keeps_current_acks (state : NodeState) (now : Instant) :
    SameCurrentAcks state (purgeExpiredDedup hashing state now) := by
  obtain ⟨topology, progress, instances⟩ := drop_expired_same_acks hashing now
    (state.dedupExpirations.due (receiptDue now))
    { state with dedupExpirations := state.dedupExpirations.later (receiptDue now) }
  intro key current
  unfold purgeExpiredDedup
  simp only
  split
  · have kept := prune_keeps_current_acks
      ((state.dedupExpirations.due (receiptDue now)).foldl
        (fun state entry => dropExpiredReceipt hashing now state (ofLex entry).2)
        { state with dedupExpirations := state.dedupExpirations.later (receiptDue now) }) key
      (by rw [topology]; exact current)
    rw [progress, instances] at kept
    exact kept
  · exact ⟨congrArg _ progress, congrArg _ instances⟩

/-- The purge is its loop followed at most by a prune of the ack tables. -/
theorem purge_expired_cases (state : NodeState) (now : Instant) :
    ∃ purged : NodeState,
      OnlyReceipts state purged ∧ OnlyReceipts purged (purgeExpiredDedup hashing state now) ∧
      (purgeExpiredDedup hashing state now).dedup = purged.dedup ∧
      (purgeExpiredDedup hashing state now).dedupByToken = purged.dedupByToken ∧
      (purgeExpiredDedup hashing state now).dedupExpirations =
        state.dedupExpirations.later (receiptDue now) ∧
      (∀ probe, purged.dedup.lookup probe = (state.dedup.lookup probe).filter fun entry =>
        probe ∉ (state.dedupExpirations.due (receiptDue now)).map
          (fun entry => (ofLex entry).2) ∨ now < entry.expiresAt) ∧
      (ReceiptsIndexed hashing state → ReceiptsIndexed hashing purged) := by
  obtain ⟨only, heap, lookups, indexed⟩ := drop_expired_fold hashing now
    (state.dedupExpirations.due (receiptDue now))
    { state with dedupExpirations := state.dedupExpirations.later (receiptDue now) }
  have first : OnlyReceipts state { state with
      dedupExpirations := state.dedupExpirations.later (receiptDue now) } :=
    ⟨_, _, _, _, _, _, _, _, _, rfl⟩
  refine ⟨_, first.trans only, ?_⟩
  unfold purgeExpiredDedup
  simp only
  split
  · obtain ⟨pruned, same, sameIndex, sameHeap⟩ := prune_ack_progress_only
      ((state.dedupExpirations.due (receiptDue now)).foldl
        (fun state entry => dropExpiredReceipt hashing now state (ofLex entry).2)
        { state with dedupExpirations := state.dedupExpirations.later (receiptDue now) })
    exact ⟨pruned.trans ⟨_, _, _, _, _, _, _, _, _, rfl⟩, same, sameIndex, sameHeap.trans heap,
      lookups, indexed⟩
  · exact ⟨OnlyReceipts.refl _, rfl, rfl, heap, lookups, indexed⟩

theorem receipt_due_initial (now : Instant) {small large : Instant ×ₗ String} (order : small ≤ large)
    (due : receiptDue now large = true) : receiptDue now small = true := by
  have bound : (ofLex small).1 ≤ (ofLex large).1 := by
    rcases Prod.Lex.le_iff.mp order with earlier | ⟨same, _⟩
    · exact le_of_lt earlier
    · exact le_of_eq same
  simp only [receiptDue, decide_eq_true_eq] at due ⊢
  exact le_trans bound due

theorem purge_expired_only (state : NodeState) (now : Instant) :
    OnlyReceipts state (purgeExpiredDedup hashing state now) := by
  obtain ⟨_, early, late, _⟩ := purge_expired_cases hashing state now
  exact early.trans late

/-- A purge never touches an unexpired receipt. -/
theorem purge_keeps_live (state : NodeState) (now : Instant) (id : String) (entry : DedupEntry)
    (found : state.dedup.lookup id = some entry) (live : now < entry.expiresAt) :
    (purgeExpiredDedup hashing state now).dedup.lookup id = some entry := by
  obtain ⟨_, _, _, same, _, _, lookups, _⟩ := purge_expired_cases hashing state now
  rw [same, lookups, found]
  simp [Option.filter_some, live]

theorem purge_lookup_some (state : NodeState) (now : Instant) (id : String) (entry : DedupEntry)
    (found : (purgeExpiredDedup hashing state now).dedup.lookup id = some entry) :
    state.dedup.lookup id = some entry := by
  obtain ⟨_, _, _, same, _, _, lookups, _⟩ := purge_expired_cases hashing state now
  rw [same, lookups] at found
  exact (Option.filter_eq_some_iff.mp found).1

theorem lookup_purge_expired (state : NodeState) (now : Instant) (scheduled : ReceiptsScheduled state)
    (id : String) :
    (purgeExpiredDedup hashing state now).dedup.lookup id =
      (state.dedup.lookup id).filter fun entry => now < entry.expiresAt := by
  obtain ⟨_, _, _, same, _, _, lookups, _⟩ := purge_expired_cases hashing state now
  rw [same, lookups]
  cases found : state.dedup.lookup id with
  | none => rfl
  | some entry =>
      by_cases live : now < entry.expiresAt
      · simp [Option.filter_some, live]
      · have popped : toLex (entry.expiresAt, id) ∈
            state.dedupExpirations.due (receiptDue now) := by
          rcases (OrderedBag.mem_due_or_later _ _ _).mp (scheduled id entry found) with due | left
          · exact due
          · have late := OrderedBag.later_not_due _ _ (receipt_due_initial now) _ left
            exact absurd (not_le.mp (of_decide_eq_false late)) live
        have listed : id ∈ (state.dedupExpirations.due (receiptDue now)).map
            (fun entry => (ofLex entry).2) :=
          List.mem_map.mpr ⟨_, popped, rfl⟩
        simp [Option.filter_some, live, listed]

theorem purge_expired_scheduled (state : NodeState) (now : Instant)
    (scheduled : ReceiptsScheduled state) :
    ReceiptsScheduled (purgeExpiredDedup hashing state now) := by
  intro id entry found
  rw [lookup_purge_expired hashing state now scheduled] at found
  obtain ⟨kept, live⟩ := Option.filter_eq_some_iff.mp found
  obtain ⟨_, _, _, _, _, heap, _⟩ := purge_expired_cases hashing state now
  rw [heap]
  rcases (OrderedBag.mem_due_or_later _ _ _).mp (scheduled id entry kept) with due | left
  · have expired := OrderedBag.due_isDue _ (receiptDue now) _ due
    exact absurd (of_decide_eq_true live) (not_lt.mpr (of_decide_eq_true expired))
  · exact left

theorem purge_expired_indexed (state : NodeState) (now : Instant)
    (indexed : ReceiptsIndexed hashing state) :
    ReceiptsIndexed hashing (purgeExpiredDedup hashing state now) := by
  obtain ⟨_, _, late, same, sameIndex, _, _, kept⟩ := purge_expired_cases hashing state now
  intro token id
  rw [sameIndex, same, kept indexed token id]
  simp only [NodeState.tokenOf, late.topology]

theorem insert_dedup_only (state : NodeState) (id : String) (key fingerprint : Bytes)
    (version : RecordVersion) (deleted : Bool) (expiresAt : Instant) :
    OnlyDedup state (insertDedupUntil hashing state id key fingerprint version deleted expiresAt) := by
  unfold insertDedupUntil
  cases state.dedup.lookup id with
  | none => exact ⟨_, _, _, _, _, rfl⟩
  | some _ => exact ⟨_, _, _, _, _, rfl⟩

/-- The receipt `insert_dedup_until` stores. -/
def freshReceipt (id : String) (key fingerprint : Bytes) (version : RecordVersion) (deleted : Bool)
    (expiresAt : Instant) : DedupEntry :=
  { key, fingerprint, version, deleted, expiresAt, requiredAcks := []
    retainedBytes := dedupRetainedBytes id key.length version.ownerNodeId.utf8ByteSize }

theorem lookup_insert_dedup (state : NodeState) (id probe : String) (key fingerprint : Bytes)
    (version : RecordVersion) (deleted : Bool) (expiresAt : Instant) :
    (insertDedupUntil hashing state id key fingerprint version deleted expiresAt).dedup.lookup probe =
      if probe = id then some (freshReceipt id key fingerprint version deleted expiresAt)
      else state.dedup.lookup probe := by
  unfold insertDedupUntil
  cases state.dedup.lookup id with
  | none => exact FiniteMap.lookup_insert_if _ _ _ _
  | some _ => exact FiniteMap.lookup_insert_if _ _ _ _

theorem insert_dedup_scheduled (state : NodeState) (id : String) (key fingerprint : Bytes)
    (version : RecordVersion) (deleted : Bool) (expiresAt : Instant)
    (scheduled : ReceiptsScheduled state) :
    ReceiptsScheduled (insertDedupUntil hashing state id key fingerprint version deleted expiresAt) := by
  intro probe entry found
  have heap : (insertDedupUntil hashing state id key fingerprint version deleted
      expiresAt).dedupExpirations =
      state.dedupExpirations.push (toLex (expiresAt, id)) := by
    unfold insertDedupUntil
    cases state.dedup.lookup id <;> rfl
  rw [lookup_insert_dedup] at found
  rw [heap, OrderedBag.mem_push]
  by_cases same : probe = id
  · subst probe
    simp only [↓reduceIte, Option.some.injEq] at found
    subst entry
    exact Or.inl rfl
  · simp only [same, ↓reduceIte] at found
    exact Or.inr (scheduled probe entry found)

theorem insert_dedup_indexed (state : NodeState) (id : String) (key fingerprint : Bytes)
    (version : RecordVersion) (deleted : Bool) (expiresAt : Instant)
    (indexed : ReceiptsIndexed hashing state) :
    ReceiptsIndexed hashing (insertDedupUntil hashing state id key fingerprint version deleted
      expiresAt) := by
  intro token probe
  have before := indexed token probe
  have sameSeed := (insert_dedup_only hashing state id key fingerprint version deleted
      expiresAt).receipts.topology
  rw [lookup_insert_dedup]
  simp only [NodeState.tokenOf, sameSeed] at before ⊢
  unfold insertDedupUntil
  cases found : state.dedup.lookup id with
  | none =>
      simp only [NodeState.insertDedupIndex, TokenIndex.add, OrderedSet.mem_insert, NodeState.tokenOf,
        EmbeddingLike.apply_eq_iff_eq, Prod.mk.injEq, before]
      by_cases same : probe = id
      · subst probe
        simp [found, freshReceipt]
      · simp [same]
  | some previous =>
      simp only [NodeState.insertDedupIndex, NodeState.removeDedupIndex, TokenIndex.add,
        TokenIndex.remove,
        OrderedSet.mem_insert, OrderedSet.mem_erase, NodeState.tokenOf, ne_eq,
        EmbeddingLike.apply_eq_iff_eq, Prod.mk.injEq, before]
      by_cases same : probe = id
      · subst probe
        simp [found, freshReceipt]
      · simp [same]

end
end Hashring
