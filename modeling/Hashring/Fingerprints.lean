import Hashring.AtMostOnce

/-! What two equal fingerprints mean
(crates/hashring-node/src/dedup.rs and replication.rs): the byte strings that are
hashed determine what was encoded, and the shape of an accepted write determines
the operation its request asked for. -/
namespace Hashring

open AtMostOnce

/-- An entry the wire can carry. -/
structure ReplicationFits (entry : ReplicationEntry) : Prop where
  topologyEpoch : entry.topologyEpoch < 2 ^ 64
  ownerNodeId : (utf8 entry.ownerNodeId).length < 2 ^ 64
  streamSequence : entry.streamSequence < 2 ^ 64
  key : entry.key.length < 2 ^ 64
  value : entry.value.length < 2 ^ 64
  requestFingerprint : entry.requestFingerprint.length < 2 ^ 64
  deadline : DeadlineFits entry.expiresAtUnixMillis
  version : ∀ version, entry.version = some version → VersionFits version
  mutationId : (utf8 entry.mutationId).length < 2 ^ 64

theorem replication_encoding_injective {entry other : ReplicationEntry}
    (left : ReplicationFits entry) (right : ReplicationFits other)
    (versioned : entry.version.isSome = true) (versionedOther : other.version.isSome = true)
    (same : replicationEncoding entry = replicationEncoding other) : entry = other := by
  obtain ⟨epoch, owner, sequence, key, value, deleted, version, mutation, deadline, fingerprint⟩ := entry
  obtain ⟨epoch', owner', sequence', key', value', deleted', version', mutation', deadline',
    fingerprint'⟩ := other
  obtain ⟨version, rfl⟩ := Option.isSome_iff_exists.mp versioned
  obtain ⟨version', rfl⟩ := Option.isSome_iff_exists.mp versionedOther
  simp only [replicationEncoding, Option.elim_some, List.append_assoc, List.append_cancel_left_eq] at same
  obtain ⟨rfl, afterEpoch⟩ := be_bytes_splits _ _ left.topologyEpoch right.topologyEpoch _ _ same
  obtain ⟨rfl, afterOwner⟩ := encode_text_splits _ _ left.ownerNodeId right.ownerNodeId _ _ afterEpoch
  obtain ⟨rfl, afterSequence⟩ :=
    be_bytes_splits _ _ left.streamSequence right.streamSequence _ _ afterOwner
  obtain ⟨rfl, afterKey⟩ := encode_bytes_splits _ _ left.key right.key _ _ afterSequence
  obtain ⟨rfl, afterValue⟩ := encode_bytes_splits _ _ left.value right.value _ _ afterKey
  simp only [List.cons_append, List.nil_append, List.cons.injEq] at afterValue
  obtain ⟨sameDeleted, afterFlag⟩ := afterValue
  obtain rfl := flag_byte_injective _ _ sameDeleted
  obtain ⟨rfl, afterFingerprint⟩ :=
    encode_bytes_splits _ _ left.requestFingerprint right.requestFingerprint _ _ afterFlag
  obtain ⟨rfl, afterDeadline⟩ :=
    encode_deadline_splits _ _ left.deadline right.deadline _ _ afterFingerprint
  obtain ⟨rfl, afterVersion⟩ :=
    encode_version_splits _ _ (left.version _ rfl) (right.version _ rfl) _ _ afterDeadline
  obtain ⟨rfl, _⟩ := encode_text_splits _ _ left.mutationId right.mutationId [] []
    (by simpa using afterVersion)
  rfl

/-- A request apart from its mutation ID and the epoch its client knew. -/
inductive WriteOperation where
  | put (key value : Bytes) (expiresAtUnixMillis : Option Nat) (preserveValue : Bool)
      (precondition : Option Precondition)
  | delete (key : Bytes) (precondition : Option Precondition)
  deriving DecidableEq

def WriteRequest.operation : WriteRequest → WriteOperation
  | .put request => .put request.key request.value request.expiresAtUnixMillis request.preserveValue
    request.precondition
  | .delete request => .delete request.key request.precondition

theorem condition_from_proto_injective {left right : Option Precondition} {condition : Condition}
    (first : Condition.fromProto left = .ok condition)
    (second : Condition.fromProto right = .ok condition) :
    left = right := by
  rcases left with _ | ⟨_ | _ | version⟩
  · rcases right with _ | ⟨_ | _ | version'⟩ <;> simp [Condition.fromProto, ← Except.ok.inj first]
      at second ⊢
  · exact absurd first (by simp [Condition.fromProto])
  · rcases right with _ | ⟨_ | _ | version'⟩ <;> simp [Condition.fromProto, ← Except.ok.inj first]
      at second ⊢
  · rcases right with _ | ⟨_ | _ | version'⟩ <;> simp [Condition.fromProto, ← Except.ok.inj first]
      at second ⊢
    exact second.symm

theorem or_else_reject_none {error : Option OperationError} {next : Except OperationError MutationShape}
    {shape : MutationShape} (passed : orElseReject error next = .ok shape) : error = none := by
  cases error with
  | none => rfl
  | some _ => exact absurd passed (by simp [orElseReject])

theorem validated_put {config : NodeConfig} {request : PutRequest} {shape : MutationShape}
    (valid : validatePut config request = .ok shape) :
    (∃ condition, Condition.fromProto request.precondition = .ok condition ∧
      putShape request condition = shape) ∧
      (request.preserveValue = true → request.value = [] ∧ ∃ deadline, request.expiresAtUnixMillis =
        some deadline) := by
  have late := or_else_reject_ok (or_else_reject_ok (or_else_reject_ok valid))
  refine ⟨mapped_condition (or_else_reject_ok late), ?_⟩
  intro preserve
  have checked := or_else_reject_none late
  unfold validateExpiryRequest at checked
  split at checked
  · exact absurd checked (by simp)
  · rename_i valueless
    split at checked
    · exact absurd checked (by simp)
    · rename_i dated
      constructor
      · simpa [preserve] using valueless
      · simpa [preserve, Option.ne_none_iff_exists'] using dated

theorem put_shape_preserves (request : PutRequest) (condition : Condition) :
    (putShape request condition).preserveValue = request.preserveValue := by
  unfold putShape
  cases request.preserveValue with
  | true => rfl
  | false => rfl

theorem shape_operation {config : NodeConfig} {request other : WriteRequest} {shape : MutationShape}
    (valid : request.validate config = .ok shape) (validOther : other.validate config = .ok shape)
    (key : request.key = other.key) : request.operation = other.operation := by
  have deleted := (validated_deleted config request shape valid).symm.trans
      (validated_deleted config other shape validOther)
  cases request with
  | put first =>
      cases other with
      | delete second => exact absurd deleted (by simp [WriteRequest.isDelete])
      | put second =>
          obtain ⟨⟨condition, parsed, rfl⟩, expiryOnly⟩ := validated_put valid
          obtain ⟨⟨condition', parsed', same⟩, expiryOnly'⟩ := validated_put validOther
          have conditions : condition' = condition := congrArg MutationShape.condition same
          subst conditions
          have preconditions := condition_from_proto_injective parsed parsed'
          have preserves : second.preserveValue = first.preserveValue := by
            rw [← put_shape_preserves second condition', same, put_shape_preserves]
          have values := congrArg MutationShape.value same
          have deadlines := congrArg MutationShape.expiresAtUnixMillis same
          unfold putShape at values deadlines
          rw [preserves] at values deadlines expiryOnly'
          change WriteOperation.put _ _ _ _ _ = WriteOperation.put _ _ _ _ _
          rw [show first.key = second.key from key, preconditions, preserves]
          -- A request that keeps the value carries none and always has a deadline; for
          -- any other the shape holds the value and the deadline as they were sent.
          cases preserve : first.preserveValue with
          | true =>
              obtain ⟨empty, deadline, dated⟩ := expiryOnly preserve
              obtain ⟨empty', deadline', dated'⟩ := expiryOnly' preserve
              rw [preserve, dated, dated'] at deadlines
              rw [empty, empty', dated, dated', show deadline = deadline'
                from (Option.some.inj deadlines).symm]
          | false =>
              rw [preserve] at values deadlines
              rw [show first.value = second.value from values.symm,
                show first.expiresAtUnixMillis = second.expiresAtUnixMillis from deadlines.symm]
  | delete first =>
      cases other with
      | put second => exact absurd deleted (by simp [WriteRequest.isDelete])
      | delete second =>
          obtain ⟨condition, parsed, rfl⟩ :=
            mapped_condition (or_else_reject_ok (or_else_reject_ok valid))
          obtain ⟨condition', parsed', same⟩ :=
            mapped_condition (or_else_reject_ok (or_else_reject_ok validOther))
          have conditions : condition' = condition := congrArg MutationShape.condition same
          subst conditions
          change WriteOperation.delete _ _ = WriteOperation.delete _ _
          rw [show first.key = second.key from key, condition_from_proto_injective parsed parsed']

def sampleEntry (value : Bytes) : ReplicationEntry :=
  { topologyEpoch := 1, ownerNodeId := "a", streamSequence := 1, key := [byte 107], value, deleted := false
    version := some ⟨1, 1, "a"⟩, mutationId := "m", expiresAtUnixMillis :=
      none, requestFingerprint := [] }

theorem sample_entry_fits (value : Bytes) (short : value.length < 2 ^ 64) :
    ReplicationFits (sampleEntry value) where
  topologyEpoch := (by decide : 1 < 2 ^ 64)
  ownerNodeId := (by decide +kernel : (utf8 "a").length < 2 ^ 64)
  streamSequence := (by decide : 1 < 2 ^ 64)
  key := (by decide : 1 < 2 ^ 64)
  value := short
  requestFingerprint := (by decide : 0 < 2 ^ 64)
  deadline := by simp [DeadlineFits, sampleEntry]
  version := by
    intro version same
    obtain rfl := Option.some.inj same
    exact ⟨by decide, by decide, by decide +kernel⟩
  mutationId := (by decide +kernel : (utf8 "m").length < 2 ^ 64)

end Hashring
