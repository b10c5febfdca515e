import Hashring.Topology

/-! Messages of crates/hashring-core/proto/hashring.proto that a data node
receives or answers, and the errors they carry. An absent message field is
`none`; an unset scalar has its protobuf default. -/
namespace Hashring

def defaultMaxKeyBytes : Nat := 64 * 1024
def maxValueBytesCeiling : Nat := 128 * 1024 * 1024
def maxMutationIdBytes : Nat := 128
def maxMigrationPageBytes : Nat := maxValueBytesCeiling
def maxDataMessageBytes : Nat := maxValueBytesCeiling + 1024 * 1024

/-- `tonic::Code`. -/
inductive Code where
  | ok
  | cancelled
  | unknown
  | invalidArgument
  | deadlineExceeded
  | notFound
  | alreadyExists
  | permissionDenied
  | resourceExhausted
  | failedPrecondition
  | aborted
  | outOfRange
  | unimplemented
  | internal
  | unavailable
  | dataLoss
  | unauthenticated
  deriving DecidableEq

structure Status where
  code : Code
  message : String
  deriving DecidableEq

inductive ErrorCode where
  | unspecified
  | notFound
  | moved
  | rangeBusy
  | unavailable
  | deadlineExceeded
  | tooLarge
  | resourceExhausted
  | invalidArgument
  | mutationIdConflict
  | temporarilyUnavailable
  | outcomeUnknown
  | replicaNotReady
  | leaseExpired
  deriving DecidableEq

structure OperationError where
  code : ErrorCode
  message : String
  currentEpoch : Nat := 0
  ownerEndpoint : String := ""
  retryable : Bool
  unknownWriteOutcome : Bool := false
  retryAfterMillis : Nat := 0
  deriving DecidableEq

def operationError (code : ErrorCode) (message : String) (retryable : Bool) : OperationError :=
  { code, message, retryable }

def temporarilyUnavailable (epoch : Nat) (message : String) : OperationError :=
  { operationError .temporarilyUnavailable message true with currentEpoch := epoch }

def outcomeUnknown (epoch : Nat) : OperationError :=
  { operationError .outcomeUnknown "required replica acknowledgement is uncertain" true with
    currentEpoch := epoch, unknownWriteOutcome := true }

inductive Expect where
  | absent
  | version (version : RecordVersion)
  deriving DecidableEq

structure Precondition where
  expect : Option Expect
  deriving DecidableEq

structure PutRequest where
  key : Bytes
  value : Bytes
  topologyEpoch : Nat
  requestId : String
  expiresAtUnixMillis : Option Nat
  preserveValue : Bool
  precondition : Option Precondition
  deriving DecidableEq

structure DeleteRequest where
  key : Bytes
  topologyEpoch : Nat
  requestId : String
  precondition : Option Precondition
  deriving DecidableEq

/-- `PutResponse`, and `DeleteResponse` whose `keyMissing` is never set. -/
structure WriteResponse where
  version : Option RecordVersion := none
  currentEpoch : Nat := 0
  error : Option OperationError := none
  keyMissing : Bool := false
  conditionFailed : Bool := false
  deriving DecidableEq

structure MigrationRecord where
  key : Bytes
  value : Bytes
  version : Option RecordVersion
  deleted : Bool
  mutationId : String
  remainingRetentionMillis : Nat
  expiresAtUnixMillis : Option Nat
  requestFingerprint : Bytes
  deriving DecidableEq

structure JournalRecord where
  watermark : Nat
  record : Option MigrationRecord
  deriving DecidableEq

structure DeduplicationRecord where
  mutationId : String
  key : Bytes
  fingerprint : Bytes
  version : Option RecordVersion
  deleted : Bool
  remainingRetentionMillis : Nat
  deriving DecidableEq

structure ReplicationEntry where
  topologyEpoch : Nat
  ownerNodeId : String
  streamSequence : Nat
  key : Bytes
  value : Bytes
  deleted : Bool
  version : Option RecordVersion
  mutationId : String
  expiresAtUnixMillis : Option Nat
  requestFingerprint : Bytes
  deriving DecidableEq

/-- `RangeControlRequest`: the pair that names a range of a change. -/
structure RangeKey where
  changeId : String
  rangeId : String
  deriving DecidableEq

structure RangeSpec where
  changeId : String
  rangeId : String
  startExclusive : Token
  endInclusive : Token
  sourceNodeId : String
  destinationNodeId : String
  deriving DecidableEq

namespace RangeSpec

def contains (range : RangeSpec) (token : Token) : Bool :=
  match compare range.startExclusive range.endInclusive with
  | .lt => range.startExclusive < token && token ≤ range.endInclusive
  | .gt => range.startExclusive < token || token ≤ range.endInclusive
  | .eq => true

def key (range : RangeSpec) : RangeKey := { changeId := range.changeId, rangeId := range.rangeId }

/-- `TryFrom<proto::RangeSpec>`. -/
def tryFrom (range : RangeSpec) : Except Status RangeSpec :=
  if range.changeId.isEmpty ∨ range.rangeId.isEmpty ∨ range.sourceNodeId.isEmpty ∨
      range.destinationNodeId.isEmpty then
    .error ⟨.invalidArgument, "range identifiers and node identifiers must not be empty"⟩
  else .ok range

/-- One interval of `token_bounds`; an open side is `none`. -/
structure Bounds where
  above : Option Token
  upTo : Option Token

def Bounds.accepts (bounds : Bounds) (token : Token) : Bool :=
  bounds.above.all (fun start => decide (start < token)) &&
    bounds.upTo.all fun finish => decide (token ≤ finish)

def tokenBounds (range : RangeSpec) : List Bounds :=
  match compare range.startExclusive range.endInclusive with
  | .gt => [⟨none, some range.endInclusive⟩, ⟨some range.startExclusive, none⟩]
  | .eq => [⟨none, none⟩]
  | .lt => [⟨some range.startExclusive, some range.endInclusive⟩]

theorem contains_iff_token_bounds (range : RangeSpec) (token : Token) :
    range.contains token = true ↔ ∃ bounds ∈ range.tokenBounds, bounds.accepts token = true := by
  unfold contains tokenBounds
  cases compare range.startExclusive range.endInclusive <;> simp [Bounds.accepts, or_comm]

end RangeSpec

structure SnapshotPageRequest where
  changeId : String
  rangeId : String
  cursor : Nat
  maxBytes : Nat
  deriving DecidableEq

structure SnapshotPageResponse where
  records : List MigrationRecord
  nextCursor : Nat
  done : Bool
  deriving DecidableEq

structure DedupSnapshotPageResponse where
  records : List DeduplicationRecord
  nextCursor : Nat
  done : Bool
  deriving DecidableEq

structure ChangelogPageRequest where
  changeId : String
  rangeId : String
  afterWatermark : Nat
  maxBytes : Nat
  deriving DecidableEq

structure ChangelogPageResponse where
  records : List JournalRecord
  currentWatermark : Nat
  deriving DecidableEq

structure ApplyMigrationBatchRequest where
  changeId : String
  rangeId : String
  snapshotRecords : List MigrationRecord
  journalRecords : List JournalRecord
  deriving DecidableEq

structure ApplyDedupBatchRequest where
  changeId : String
  rangeId : String
  records : List DeduplicationRecord
  deriving DecidableEq

structure ReplicationCheckpointRequest where
  topologyEpoch : Nat
  ownerNodeId : String
  followerNodeId : String
  streamSequence : Nat
  verifiedRanges : List RangeKey
  deriving DecidableEq

structure ReplicateMutationsResponse where
  processInstanceId : String
  appliedStreamSequence : Nat
  deriving DecidableEq

structure PolicyWriteFenceRequest where
  changeId : String
  baseEpoch : Nat
  deriving DecidableEq

structure RenewNodeLeaseRequest where
  nodeId : String
  processInstanceId : String
  topologyEpoch : Nat
  deriving DecidableEq

structure RenewNodeLeaseResponse where
  topologyEpoch : Nat
  leaseDurationMillis : Nat
  admittedFollowers : List (String × String)
  deriving DecidableEq

end Hashring
