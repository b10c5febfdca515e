import Hashring.Dispatch

/-! `put` and `delete` of crates/hashring-node/src/rpc.rs with the service
helpers they call. A write is split where the source gives up its lock:
validation, the receipt lookup under the read lock, the readiness check, the
commit under the write lock, and the wait for acknowledgements. Any other
operation of the node may run between two of these. -/
namespace Hashring

def maxKeysPerToken : Nat := 16

def validateKey (config : NodeConfig) (key : Bytes) : Option OperationError :=
  if key.isEmpty then some (operationError .invalidArgument "key must not be empty" false)
  else if config.maxKeyBytes < key.length then
    some (operationError .tooLarge ("key exceeds " ++ toString config.maxKeyBytes ++ " bytes") false)
  else none

def validateMutationId (requestId : String) : Option OperationError :=
  if requestId.isEmpty ∨ maxMutationIdBytes < requestId.utf8ByteSize then
    some (operationError .invalidArgument
      s!"mutation id must contain 1 to {maxMutationIdBytes} bytes" false)
  else none

def validateExpiryRequest (preserveValue hasValue : Bool) (expiresAtUnixMillis : Option Nat) :
    Option OperationError :=
  if preserveValue ∧ hasValue then
    some (operationError .invalidArgument "an expiry-only write must not carry a value" false)
  else if preserveValue ∧ expiresAtUnixMillis.isNone then
    some (operationError .invalidArgument "an expiry-only write must say which expiry to store" false)
  else none

def putShape (request : PutRequest) (condition : Condition) : MutationShape :=
  (if request.preserveValue then MutationShape.expiryOnly (request.expiresAtUnixMillis.getD 0)
   else MutationShape.ofValue request.value false request.expiresAtUnixMillis).withCondition condition

def deleteShape (condition : Condition) : MutationShape :=
  (MutationShape.ofValue [] true none).withCondition condition

def orElseReject (error : Option OperationError) (next : Except OperationError MutationShape) :
    Except OperationError MutationShape :=
  match error with
  | some error => .error error
  | none => next

/-- The checks of `put` before any lock, in their order. -/
def validatePut (config : NodeConfig) (request : PutRequest) : Except OperationError MutationShape :=
  orElseReject (validateKey config request.key) <|
  orElseReject (validateMutationId request.requestId) <|
  orElseReject (if config.maxValueBytes < request.value.length then
      some (operationError .tooLarge ("value exceeds " ++ toString config.maxValueBytes ++ " bytes")
        false)
    else none) <|
  orElseReject (validateExpiryRequest request.preserveValue (!request.value.isEmpty)
    request.expiresAtUnixMillis) <|
  (Condition.fromProto request.precondition).map (putShape request)

/-- The checks of `delete` before any lock, in their order. -/
def validateDelete (config : NodeConfig) (request : DeleteRequest) :
    Except OperationError MutationShape :=
  orElseReject (validateKey config request.key) <|
  orElseReject (validateMutationId request.requestId) <|
  (Condition.fromProto request.precondition).map deleteShape

def leaseError (state : NodeState) (now : Instant) : Option OperationError :=
  if state.lease.all fun lease => lease.epoch ≠ state.topology.epoch || lease.expiresAt ≤ now then
    some { operationError .leaseExpired "owner lease has expired" true with currentEpoch := state.topology.epoch }
  else none

def ownerError (config : NodeConfig) (state : NodeState) (token : Token) (now : Instant) :
    Except Status (Option OperationError) :=
  match state.topology.ownerForToken token with
  | .error error => .error ⟨.internal, error.message⟩
  | .ok owner =>
      if owner.nodeId = config.nodeId then .ok (leaseError state now)
      else
        .ok (some
          { code := .moved
            message := "key is owned by " ++ owner.nodeId
            currentEpoch := state.topology.epoch
            ownerEndpoint := owner.endpoint
            retryable := true })

def mutationIdConflict (epoch : Nat) : WriteResponse :=
  { currentEpoch := epoch
    error := some (operationError .mutationIdConflict
      "mutation ID was reused with a different operation or payload" false) }

def refusedWith (error : OperationError) : WriteResponse :=
  { currentEpoch := error.currentEpoch, error := some error }

/-- How a locked section of a write ends: an answer, a transport status, or a
wait for the acknowledgements that decide the answer. -/
inductive WriteOutcome where
  | respond (response : WriteResponse)
  | fail (status : Status)
  | awaitAcks (version : RecordVersion) (epoch : Nat) (required : List RequiredAck)
  deriving DecidableEq

inductive LookupOutcome where
  | ended (outcome : WriteOutcome)
  | proceed (token : Token) (tokenSeed : Nat)
  deriving DecidableEq

def answerReceipt (epoch : Nat) (existing : DedupEntry) (fingerprint : Bytes) (deleted : Bool) :
    WriteOutcome :=
  if existing.fingerprint = fingerprint ∧ existing.deleted = deleted then
    .awaitAcks existing.version epoch existing.requiredAcks
  else .respond (mutationIdConflict epoch)

/-- The section under the read lock. `deleted` tells `put` from `delete`. -/
def lookupReceipt (hashing : Hashing) (config : NodeConfig) (now : Instant) (state : NodeState)
    (key : Bytes) (requestId : String) (fingerprint : Bytes) (deleted : Bool) : LookupOutcome :=
  let token := state.tokenOf hashing key
  match ownerError config state token now with
  | .error status => .ended (.fail status)
  | .ok (some error) => .ended (.respond (refusedWith error))
  | .ok none =>
      match (state.dedup.lookup requestId).filter fun entry => now < entry.expiresAt with
      | some existing => .ended (answerReceipt state.topology.epoch existing fingerprint deleted)
      | none => .proceed token state.topology.hashSeed

structure FollowerStatus where
  nodeId : String
  admitted : Bool
  lagKnown : Bool
  lagMillis : Nat
  deriving DecidableEq

structure ReplicaRangeStatus where
  startExclusive : Token
  endInclusive : Token
  ownerNodeId : String
  followers : List FollowerStatus
  deriving DecidableEq

structure ReplicaStatusResponse where
  topologyEpoch : Nat
  ranges : List ReplicaRangeStatus
  deriving DecidableEq

def requiredFollowers (topology : TopologySnapshot) (token : Token)
    (status : Option ReplicaStatusResponse)
    (ownerNodeId : String) : Except OperationError (List String) :=
  match topology.replicaNodeIdsForToken token with
  | .error error => .error (temporarilyUnavailable topology.epoch error.message)
  | .ok replicas =>
      let guard := topology.writeAvailabilityGuard
      let healthyFollower := fun follower : FollowerStatus =>
        follower.admitted && follower.lagKnown && decide (follower.lagMillis ≤ guard.maxReplicaLagMillis)
      if topology.writeAckPolicy = .firstSuccessor ∧ replicas.length < 2 then
        .error (temporarilyUnavailable topology.epoch "first successor is not in the desired placement")
      else if topology.writeAckPolicy = .allReplicas ∧ replicas.length <
        topology.desiredReplicationFactor then
        .error (temporarilyUnavailable topology.epoch
          "complete desired replication factor is unavailable")
      else if guard.minimumAdmittedCopies ≤ 1 ∧ guard.minimumHealthyFollowers = 0 ∧
          topology.writeAckPolicy = .ownerOnly then .ok []
      else
        match (status.filter fun status => status.topologyEpoch = topology.epoch).bind fun status =>
            status.ranges.find? fun range =>
              range.ownerNodeId = ownerNodeId && rangeContains range.startExclusive
                range.endInclusive token with
        | none => .error (temporarilyUnavailable topology.epoch "replica admission status is unavailable")
        | some range =>
            let admitted := range.followers.countP (·.admitted)
            let healthy := range.followers.countP healthyFollower
            if admitted + 1 < guard.minimumAdmittedCopies ∨ healthy < guard.minimumHealthyFollowers then
              .error (temporarilyUnavailable topology.epoch
                "minimum admitted-copy or healthy-follower guard is not satisfied")
            else
              let desired :=
                match topology.writeAckPolicy with
                | .ownerOnly => []
                | .firstSuccessor => replicas.tail.take 1
                | .allReplicas => replicas.tail
              match desired.find? fun nodeId =>
                  !(range.followers.any fun follower => follower.nodeId =
                    nodeId && healthyFollower follower) with
              | some nodeId =>
                  .error { operationError .replicaNotReady
                      ("required follower " ++ nodeId ++ " is not healthy and admitted") true with
                    currentEpoch := topology.epoch }
              | none => .ok desired

/-- `ready_followers`; `status` is the coordinator's answer, `none` when the
call failed or timed out. -/
def readyFollowers (config : NodeConfig) (unixMillis : Nat) (state : NodeState) (token : Token)
    (status : Option ReplicaStatusResponse) : Except OperationError (Nat × List String) :=
  let topology := state.topology
  let guard := topology.writeAvailabilityGuard
  let needsStatus := decide (1 < guard.minimumAdmittedCopies) || decide
      (0 < guard.minimumHealthyFollowers) ||
    decide (topology.writeAckPolicy ≠ .ownerOnly)
  if guard.minimumAdmittedCopies ≤ 1 ∧ guard.minimumHealthyFollowers = 0 then
    match topology.replicaNodeIdsForToken token with
    | .error error => .error (temporarilyUnavailable topology.epoch error.message)
    | .ok replicas =>
        let count :=
          match topology.writeAckPolicy with
          | .ownerOnly => 0
          | .firstSuccessor => 1
          | .allReplicas => topology.desiredReplicationFactor - 1
        if replicas.length < count + 1 then
          .error (temporarilyUnavailable topology.epoch "required replica placement is unavailable")
        else
          let followers := (replicas.drop 1).take count
          if followers.any fun nodeId => decide (nodeId ∉ state.admittedFollowers) then
            .error (temporarilyUnavailable topology.epoch "required follower admission is unavailable")
          else if followers.any fun nodeId =>
              ((state.ownerStreamUnacked.lookup ⟨topology.epoch, nodeId⟩).bind List.head?).any
                  fun oldest =>
                decide (guard.maxReplicaLagMillis < unixMillis - oldest.2) then
            .error (temporarilyUnavailable topology.epoch
              "required follower exceeds the replication lag bound")
          else .ok (topology.epoch, followers)
  else if needsStatus ∧ status.isNone then
    .error (temporarilyUnavailable topology.epoch "replica readiness could not be verified")
  else (requiredFollowers topology token status config.nodeId).map fun followers =>
    (topology.epoch, followers)

/-- What the earlier sections of a write established. -/
structure Readiness where
  token : Token
  tokenSeed : Nat
  epoch : Nat
  followers : List String
  deriving DecidableEq

/-- What a write stores, once its receipt lookup and condition have passed. -/
structure WritePlan where
  key : Bytes
  requestId : String
  fingerprint : Bytes
  value : Bytes
  deleted : Bool
  expiresAtUnixMillis : Option Nat
  clean : ¬(deleted = true ∧ value ≠ [])

def WritePlan.journalRecordBytes (plan : WritePlan) : Nat :=
  plan.key.length + plan.value.length + plan.requestId.utf8ByteSize + 128

def ownerDedupFullError (state : NodeState) (now : Instant) : OperationError :=
  { operationError .resourceExhausted
      "owner deduplication receipt store is full; retry after capacity returns" true with
    currentEpoch := state.topology.epoch, retryAfterMillis := dedupRetryAfterMillis state now }

def rangeBusy (epoch : Nat) (message : String) : OperationError :=
  { operationError .rangeBusy message true with currentEpoch := epoch }

/-- The fences of a write, in the order the source tests them. -/
def writeFence (state : NodeState) (token : Token) : Option OperationError :=
  if state.policyWriteFence.isSome then
    some (rangeBusy state.topology.epoch "writes are fenced for ACK-policy transition")
  else if state.sources.values.any fun source => source.range.contains token && source.writesPaused then
    some (rangeBusy state.topology.epoch "range writes are fenced for topology cutover")
  else if state.destinations.values.any fun destination =>
      !destination.writesActivated && destination.range.contains token then
    some (rangeBusy state.topology.epoch "range writes are fenced for topology cutover")
  else none

def journalEntry (plan : WritePlan) (record : Record) (watermark : Nat) : JournalRecord where
  watermark
  record := some
    { key := plan.key
      value := record.value
      version := some record.version
      deleted := record.deleted
      mutationId := plan.requestId
      remainingRetentionMillis := 0
      expiresAtUnixMillis := record.expiresAtUnixMillis
      requestFingerprint := plan.fingerprint }

def journalWrite (plan : WritePlan) (record : Record) (source : SourceMigration) : SourceMigration :=
  { source with
    watermark := source.watermark + 1
    journalBytes := source.journalBytes + plan.journalRecordBytes
    journal := source.journal ++ [journalEntry plan record (source.watermark + 1)] }

def journalSources (token : Token) (plan : WritePlan) (record : Record)
    (sources : FiniteMap RangeKey SourceMigration) : FiniteMap RangeKey SourceMigration :=
  sources.mapValues fun _ source => if source.range.contains token then journalWrite plan record
    source else source

def pushUnacked (unixMillis : Nat) (state : NodeState) (entry : PreparedReplication) : NodeState :=
  { state with
    ownerStreamUnacked := state.ownerStreamUnacked.insert entry.ownerStream
      ((state.ownerStreamUnacked.lookup entry.ownerStream).getD [] ++
        [(entry.streamSequence, unixMillis)]) }

def setRequiredAcks (state : NodeState) (requestId : String) (required : List RequiredAck)
    (ackCost : Nat) :
    NodeState :=
  { state with
    dedup := state.dedup.modify requestId fun entry =>
      { entry with requiredAcks := required, retainedBytes := entry.retainedBytes + ackCost }
    dedupBytes := state.dedupBytes + ackCost
    dedupPeakBytes := max state.dedupPeakBytes (state.dedupBytes + ackCost) }

def requiredAcksOf (followers : List String) (entries : List PreparedReplication) : List RequiredAck :=
  (entries.filter fun entry => followers.contains entry.followerNodeId).map fun entry =>
    ⟨entry.mutation.topologyEpoch, entry.followerNodeId, entry.streamSequence⟩

/-- The record step of an accepted write: `put` replaces the record, `delete`
goes through the version comparison. -/
def storeRecord (hashing : Hashing) (state : NodeState) (plan : WritePlan) (record : Record) :
    NodeState :=
  if plan.deleted then state.applyRecord hashing plan.key record else state.insertRecord hashing
    plan.key record

def journalGrowth (state : NodeState) (token : Token) (plan : WritePlan) : Nat :=
  plan.journalRecordBytes * state.sources.values.countP fun source => source.range.contains token

def journalState (token : Token) (plan : WritePlan) (record : Record) (growth : Nat) (state : NodeState) :
    NodeState :=
  { state with
    sources := journalSources token plan record state.sources
    journalBytesTotal := state.journalBytesTotal + growth }

/-- The writes of an accepted mutation, after its reservations were granted. -/
def storeWrite (hashing : Hashing) (clock : Clock) (state : NodeState) (plan : WritePlan)
    (record : Record)
    (token : Token) (followers : List String) (entries : List PreparedReplication) : NodeState :=
  let unacked := entries.foldl (pushUnacked clock.unixLater)
    { state with nextSequence := record.version.ownerSequence }
  let journaled := journalState token plan record (journalGrowth state token plan)
    (storeRecord hashing unacked plan record)
  setRequiredAcks
    (insertDedup hashing journaled plan.requestId plan.key plan.fingerprint record.version
      plan.deleted clock.later)
    plan.requestId (requiredAcksOf followers entries) (requiredAckRetainedBytes followers)

/-- From the receipt budget to the dispatch; shared by `put` and `delete`. -/
def commitPlan (hashing : Hashing) (config : NodeConfig) (clock : Clock) (process : NodeProcess)
    (plan : WritePlan) (ready : Readiness) : NodeProcess × WriteOutcome :=
  let state := process.state
  let epoch := state.topology.epoch
  let dedupCost := dedupRetainedBytes plan.requestId plan.key.length config.nodeId.utf8ByteSize +
    requiredAckRetainedBytes ready.followers
  if config.maxDedupBytes < state.dedupBytes + dedupCost then
    (process, .respond { currentEpoch := epoch, error := some (ownerDedupFullError state clock.later) })
  else
    match writeFence state ready.token with
    | some error => (process, .respond { currentEpoch := epoch, error := some error })
    | none =>
        if config.maxJournalBytes < state.journalBytesTotal + journalGrowth state ready.token plan then
          (process, .respond
            { currentEpoch := epoch
              error := some { operationError .resourceExhausted
                  "node migration journal budget is full; retry with backoff" true
                    with currentEpoch := epoch } })
        else
          let version : RecordVersion := ⟨epoch, state.nextSequence + 1, config.nodeId⟩
          let record := Record.stored plan.value version plan.deleted plan.expiresAtUnixMillis plan.clean
          match prepareReplicationEntries state
              { key := plan.key, record, requestFingerprint := plan.fingerprint, mutationId := plan.requestId
                token := ready.token, maxPendingBytes := config.maxPendingReplicationBytes
                ackAwaitedFollowers := ready.followers } with
          | none =>
              (process, .respond { currentEpoch := epoch, error := some (replicationBackpressureError epoch) })
          | some (prepared, entries) =>
              match process.dispatch.reserve config entries with
              | (dispatch, false) =>
                  ({ state := rollbackReplicationSequences prepared entries, dispatch },
                    .respond { currentEpoch := epoch, error := some (replicationBackpressureError epoch) })
              | (dispatch, true) =>
                  ({ state := storeWrite hashing clock prepared plan record ready.token ready.followers entries
                     dispatch := dispatch.enqueue entries },
                    .awaitAcks version epoch (requiredAcksOf ready.followers entries))

/-- Ownership, topology and receipt checks at the head of the write-lock
section; `commit` continues on the purged state. -/
def withReceiptChecks (hashing : Hashing) (config : NodeConfig) (clock : Clock) (process : NodeProcess)
    (requestId : String) (fingerprint : Bytes) (deleted : Bool) (ready : Readiness)
    (commit : NodeProcess → NodeProcess × WriteOutcome) : NodeProcess × WriteOutcome :=
  let state := process.state
  match ownerError config state ready.token clock.now with
  | .error status => (process, .fail status)
  | .ok (some error) => (process, .respond (refusedWith error))
  | .ok none =>
      if state.topology.epoch ≠ ready.epoch ∨ state.topology.hashSeed ≠ ready.tokenSeed then
        (process, .respond (refusedWith (temporarilyUnavailable state.topology.epoch
          "topology changed while checking replica readiness")))
      else
        let purged := { process with state := purgeExpiredDedup hashing state clock.now }
        match purged.state.dedup.lookup requestId with
        | some existing => (purged, answerReceipt state.topology.epoch existing fingerprint deleted)
        | none => commit purged

/-- The record a read would return. -/
def liveRecord (state : NodeState) (key : Bytes) (unixMillis : Nat) : Option Record :=
  (state.records.lookup key).filter fun record => !record.deleted && !record.isExpired unixMillis

/-- `put` under the write lock. -/
def putCommit (hashing : Hashing) (config : NodeConfig) (clock : Clock) (process : NodeProcess)
    (request : PutRequest) (shape : MutationShape) (ready : Readiness) : NodeProcess × WriteOutcome :=
  let fingerprint := mutationFingerprint hashing request.key shape
  withReceiptChecks hashing config clock process request.requestId fingerprint false ready fun process =>
    let state := process.state
    let epoch := state.topology.epoch
    let live := liveRecord state request.key clock.unixMillis
    if shape.condition.holds live = false then
      (process, .respond { currentEpoch := epoch, conditionFailed := true })
    else if request.key ∉ state.records ∧
        maxKeysPerToken ≤ state.recordsByToken.lenAt (state.tokenOf hashing request.key) then
      (process, .respond
        { currentEpoch := epoch
          error := some (operationError .resourceExhausted
            s!"{maxKeysPerToken} keys already share this key's position on the ring" false) })
    else
      match request.preserveValue, live with
      | true, none => (process, .respond { currentEpoch := epoch, keyMissing := true })
      | true, some kept =>
          commitPlan hashing config clock process
            { key := request.key, requestId := request.requestId, fingerprint, value := kept.value
              deleted := false, expiresAtUnixMillis := shape.expiresAtUnixMillis, clean := by simp } ready
      | false, live =>
          -- A write that names no deadline keeps the live record's.
          commitPlan hashing config clock process
            { key := request.key, requestId := request.requestId, fingerprint, value := request.value
              deleted := false
              expiresAtUnixMillis :=
                request.expiresAtUnixMillis.orElse fun _ => live.bind (·.expiresAtUnixMillis)
              clean := by simp } ready

/-- `delete` under the write lock. -/
def deleteCommit (hashing : Hashing) (config : NodeConfig) (clock : Clock) (process : NodeProcess)
    (request : DeleteRequest) (shape : MutationShape) (ready : Readiness) : NodeProcess × WriteOutcome :=
  let fingerprint := mutationFingerprint hashing request.key shape
  withReceiptChecks hashing config clock process request.requestId fingerprint true ready fun process =>
    let state := process.state
    if shape.condition.holds (liveRecord state request.key clock.unixMillis) = false then
      (process, .respond { currentEpoch := state.topology.epoch, conditionFailed := true })
    else
      commitPlan hashing config clock process
        { key := request.key, requestId := request.requestId, fingerprint, value := [], deleted := true
          expiresAtUnixMillis := none, clean := by simp } ready

def leaseHolds (state : NodeState) (epoch : Nat) (now : Instant) : Bool :=
  state.lease.any fun lease =>
    decide (lease.epoch = epoch) && decide (state.topology.epoch = epoch) && decide
      (now < lease.expiresAt)

/-- The end of `wait_required_acks`, once the progress channels reached the
required sequences (`reached`) or the wait gave up. -/
def finishRequiredAcks (now : Instant) (state : NodeState) (reached : Bool) (epoch : Nat)
    (mutationId : String)
    (version : RecordVersion) (required : List RequiredAck) : NodeState × Option OperationError :=
  if required = [] then
    (state, if leaseHolds state epoch now then none else some (outcomeUnknown epoch))
  else if reached = false ∨ leaseHolds state epoch now = false then (state, some (outcomeUnknown epoch))
  else if required.all fun ack =>
      let stream : StreamKey := ⟨ack.epoch, ack.nodeId⟩
      (state.admittedFollowers.lookup ack.nodeId).isSome &&
        decide (state.ackProcessInstances.lookup stream = state.admittedFollowers.lookup ack.nodeId) &&
        (state.ackProgress.lookup stream).any fun progress => decide (ack.sequence ≤ progress) then
    (completeRequiredAcks state mutationId version, none)
  else (state, some (outcomeUnknown epoch))

theorem finish_required_acks_cases (now : Instant) (state : NodeState) (reached : Bool) (epoch : Nat)
    (mutationId : String) (version : RecordVersion) (required : List RequiredAck) :
    (finishRequiredAcks now state reached epoch mutationId version required).1 = state ∨
      (finishRequiredAcks now state reached epoch mutationId version required).1 =
        completeRequiredAcks state mutationId version := by
  unfold finishRequiredAcks
  split
  · exact .inl rfl
  · split
    · exact .inl rfl
    · split
      · exact .inr rfl
      · exact .inl rfl

def ackedResponse (version : RecordVersion) (epoch : Nat) (error : Option OperationError) :
    WriteResponse :=
  { version := if error.isNone then some version else none, currentEpoch := epoch, error }

/-- What the caller receives, given how the wait for acknowledgements ended. -/
def WriteOutcome.answer (ackError : Option OperationError) : WriteOutcome → Except Status WriteResponse
  | .respond response => .ok response
  | .fail status => .error status
  | .awaitAcks version epoch _ => .ok (ackedResponse version epoch ackError)

inductive WriteRequest where
  | put (request : PutRequest)
  | delete (request : DeleteRequest)
  deriving DecidableEq

namespace WriteRequest

def key : WriteRequest → Bytes
  | .put request => request.key
  | .delete request => request.key

def requestId : WriteRequest → String
  | .put request => request.requestId
  | .delete request => request.requestId

def isDelete : WriteRequest → Bool
  | .put _ => false
  | .delete _ => true

def validate (config : NodeConfig) : WriteRequest → Except OperationError MutationShape
  | .put request => validatePut config request
  | .delete request => validateDelete config request

end WriteRequest

theorem validated_request (config : NodeConfig) (request : WriteRequest) (shape : MutationShape)
    (valid : request.validate config = .ok shape) :
    validateKey config request.key = none ∧ validateMutationId request.requestId = none := by
  cases request with
  | put put =>
      simp only [WriteRequest.validate, validatePut] at valid
      cases keyed : validateKey config put.key with
      | some _ => simp [keyed, orElseReject] at valid
      | none =>
          cases named : validateMutationId put.requestId with
          | some _ => simp [keyed, named, orElseReject] at valid
          | none => exact ⟨keyed, named⟩
  | delete delete =>
      simp only [WriteRequest.validate, validateDelete] at valid
      cases keyed : validateKey config delete.key with
      | some _ => simp [keyed, orElseReject] at valid
      | none =>
          cases named : validateMutationId delete.requestId with
          | some _ => simp [keyed, named, orElseReject] at valid
          | none => exact ⟨keyed, named⟩

theorem validate_key_none (config : NodeConfig) (key : Bytes) (valid : validateKey config key = none) :
    ¬(key.isEmpty = true ∨ config.maxKeyBytes < key.length) := by
  unfold validateKey at valid
  split at valid
  · exact absurd valid (by simp)
  · rename_i filled
    split at valid
    · exact absurd valid (by simp)
    · rename_i short
      exact not_or.mpr ⟨filled, short⟩

theorem validate_mutation_id_none (requestId : String) (valid : validateMutationId requestId = none) :
    ¬(requestId.isEmpty = true ∨ maxMutationIdBytes < requestId.utf8ByteSize) := by
  unfold validateMutationId at valid
  split at valid
  · exact absurd valid (by simp)
  · assumption

def lookupRequest (hashing : Hashing) (config : NodeConfig) (now : Instant) (state : NodeState)
    (request : WriteRequest) : LookupOutcome :=
  match request.validate config with
  | .error error => .ended (.respond (refusedWith error))
  | .ok shape =>
      lookupReceipt hashing config now state request.key request.requestId
        (mutationFingerprint hashing request.key shape) request.isDelete

/-- The write-lock section of a request, for whatever its earlier sections
established: validation reads nothing but the request. -/
def commitRequest (hashing : Hashing) (config : NodeConfig) (clock : Clock) (process : NodeProcess)
    (request : WriteRequest) (ready : Readiness) : NodeProcess × WriteOutcome :=
  match request.validate config with
  | .error error => (process, .respond (refusedWith error))
  | .ok shape =>
      match request with
      | .put put => putCommit hashing config clock process put shape ready
      | .delete delete => deleteCommit hashing config clock process delete shape ready

theorem prepare_followers_frame (mutation : ReplicationMutation) (awaited : List String)
    (followers : List (String × String)) (state : NodeState) :
    ∃ ackProgress ownerStreamSequences,
      (prepareFollowers mutation awaited state followers).1 =
        { state with ackProgress, ownerStreamSequences } := by
  induction followers generalizing state with
  | nil => exact ⟨_, _, rfl⟩
  | cons follower rest ih =>
      obtain ⟨nodeId, endpoint⟩ := follower
      unfold prepareFollowers
      obtain ⟨progress, sequences, same⟩ := ih
        { state with
          ackProgress :=
            if (⟨state.topology.epoch, nodeId⟩ : StreamKey) ∈ state.ackProgress then state.ackProgress
            else state.ackProgress.insert ⟨state.topology.epoch, nodeId⟩ 0
          ownerStreamSequences := state.ownerStreamSequences.insert ⟨state.topology.epoch, nodeId⟩
            ((state.ownerStreamSequences.lookup ⟨state.topology.epoch, nodeId⟩).getD 0 + 1) }
      exact ⟨progress, sequences, same⟩

theorem prepare_frame (state prepared : NodeState) (write : ReplicationWrite)
    (entries : List PreparedReplication)
    (fanned : prepareReplicationEntries state write = some (prepared, entries)) :
    ∃ ackProgress ownerStreamSequences, prepared = { state with ackProgress, ownerStreamSequences } := by
  unfold prepareReplicationEntries at fanned
  simp only at fanned
  split at fanned
  · exact absurd fanned (by simp)
  · rw [Option.some.injEq, Prod.ext_iff] at fanned
    obtain ⟨progress, sequences, same⟩ := prepare_followers_frame _ _ _ state
    exact ⟨progress, sequences, fanned.1.symm.trans same⟩

theorem rollback_frame (entries : List PreparedReplication) (state : NodeState) :
    ∃ ownerStreamSequences, rollbackReplicationSequences state entries =
      { state with ownerStreamSequences } := by
  unfold rollbackReplicationSequences
  induction entries generalizing state with
  | nil => exact ⟨_, rfl⟩
  | cons entry rest ih =>
      rw [List.foldl_cons]
      obtain ⟨sequences, same⟩ := ih
        { state with
          ownerStreamSequences :=
            if (state.ownerStreamSequences.lookup entry.ownerStream).getD 0 - 1 = 0 then
              state.ownerStreamSequences.erase entry.ownerStream
            else state.ownerStreamSequences.insert entry.ownerStream
              ((state.ownerStreamSequences.lookup entry.ownerStream).getD 0 - 1) }
      exact ⟨sequences, same⟩

def WritePlan.version (config : NodeConfig) (state : NodeState) : RecordVersion :=
  ⟨state.topology.epoch, state.nextSequence + 1, config.nodeId⟩

def WritePlan.record (plan : WritePlan) (version : RecordVersion) : Record :=
  Record.stored plan.value version plan.deleted plan.expiresAtUnixMillis plan.clean

/-- Every way `commitPlan` can end: refused, refused after a rollback of the
stream sequences, or stored. -/
inductive PlanCase (hashing : Hashing) (config : NodeConfig) (clock : Clock) (process : NodeProcess)
    (plan : WritePlan) (ready : Readiness) : NodeProcess × WriteOutcome → Prop where
  | refused (response : WriteResponse) (error : OperationError) (failed : response.error = some error) :
      PlanCase hashing config clock process plan ready (process, .respond response)
  | rolledBack (ackProgress : FiniteMap StreamKey Nat) (ownerStreamSequences : FiniteMap StreamKey Nat)
      (entries : List PreparedReplication) (dispatch : ReplicationDispatcher)
      (reserved : process.dispatch.reserve config entries = (dispatch, false))
      (restored : ∀ key, NodeState.streamHead
        { process.state with ackProgress, ownerStreamSequences } key =
        process.state.streamHead key)
      (idle : ∀ key, ownerStreamSequences.lookup key = some 0 →
        process.state.ownerStreamSequences.lookup key = some 0)
      (opened : ∀ key progress, ackProgress.lookup key = some progress → 0 < progress →
        process.state.ackProgress.lookup key = some progress)
      (response : WriteResponse) (error : OperationError) (failed : response.error = some error) :
      PlanCase hashing config clock process plan ready
        ({ state := { process.state with ackProgress, ownerStreamSequences }, dispatch },
          .respond response)
  | stored (prepared : NodeState) (entries : List PreparedReplication) (dispatch : ReplicationDispatcher)
      (unfenced : writeFence process.state ready.token = none)
      (fanned : prepareReplicationEntries process.state
        { key := plan.key, record := plan.record (WritePlan.version config process.state)
          requestFingerprint := plan.fingerprint, mutationId := plan.requestId, token := ready.token
          maxPendingBytes := config.maxPendingReplicationBytes, ackAwaitedFollowers := ready.followers } =
            some (prepared, entries))
      (reserved : process.dispatch.reserve config entries = (dispatch, true)) :
      PlanCase hashing config clock process plan ready
        ({ state := storeWrite hashing clock prepared plan (plan.record (WritePlan.version config process.state))
             ready.token ready.followers entries
           dispatch := dispatch.enqueue entries },
          .awaitAcks (WritePlan.version config process.state) process.state.topology.epoch
            (requiredAcksOf ready.followers entries))

theorem commit_plan_cases (hashing : Hashing) (config : NodeConfig) (clock : Clock)
    (process : NodeProcess) (plan : WritePlan) (ready : Readiness) :
    PlanCase hashing config clock process plan ready
      (commitPlan hashing config clock process plan ready) := by
  unfold commitPlan
  simp only
  split
  · exact .refused _ _ rfl
  · split
    · exact .refused _ _ rfl
    · rename_i unfenced
      split
      · exact .refused _ _ rfl
      · split
        · exact .refused _ _ rfl
        · rename_i prepared entries fanned
          split
          · rename_i dispatch reserved
            have restored := rollback_restores _ _ _ _ fanned
            have idle := rollback_no_zero _ _ _ _ fanned
            have opened := prepare_keeps_progress _ _ _ _ fanned
            obtain ⟨progress, sequences, rfl⟩ := prepare_frame _ _ _ _ fanned
            obtain ⟨rolled, same⟩ := rollback_frame entries
              { process.state with ackProgress := progress, ownerStreamSequences := sequences }
            rw [same] at restored idle ⊢
            exact .rolledBack progress rolled entries dispatch reserved restored idle opened _ _ rfl
          · rename_i dispatch reserved
            exact .stored prepared entries dispatch unfenced fanned reserved

inductive CommitCase (hashing : Hashing) (config : NodeConfig) (clock : Clock) (process : NodeProcess)
    (request : WriteRequest) (ready : Readiness) : NodeProcess × WriteOutcome → Prop where
  | invalid (error : OperationError) (rejected : request.validate config = .error error) :
      CommitCase hashing config clock process request ready (process, .respond (refusedWith error))
  | unroutable (status : Status)
      (failed : ownerError config process.state ready.token clock.now = .error status) :
      CommitCase hashing config clock process request ready (process, .fail status)
  | notOwner (error : OperationError)
      (refused : ownerError config process.state ready.token clock.now = .ok (some error)) :
      CommitCase hashing config clock process request ready (process, .respond (refusedWith error))
  | moved (owned : ownerError config process.state ready.token clock.now = .ok none)
      (changed : process.state.topology.epoch ≠ ready.epoch ∨ process.state.topology.hashSeed ≠
        ready.tokenSeed) :
      CommitCase hashing config clock process request ready
        (process, .respond (refusedWith (temporarilyUnavailable process.state.topology.epoch
          "topology changed while checking replica readiness")))
  | answered (shape : MutationShape) (valid : request.validate config = .ok shape) (existing : DedupEntry)
      (owned : ownerError config process.state ready.token clock.now = .ok none)
      (found : (purgeExpiredDedup hashing process.state clock.now).dedup.lookup request.requestId =
        some existing) :
      CommitCase hashing config clock process request ready
        ({ process with state := purgeExpiredDedup hashing process.state clock.now },
          answerReceipt process.state.topology.epoch existing
            (mutationFingerprint hashing request.key shape) request.isDelete)
  | declined (shape : MutationShape) (valid : request.validate config = .ok shape)
      (response : WriteResponse)
      (fresh : (purgeExpiredDedup hashing process.state clock.now).dedup.lookup request.requestId =
        none) :
      CommitCase hashing config clock process request ready
        ({ process with state := purgeExpiredDedup hashing process.state clock.now }, .respond response)
  | planned (shape : MutationShape) (valid : request.validate config = .ok shape) (plan : WritePlan)
      (owned : ownerError config process.state ready.token clock.now = .ok none)
      (current : process.state.topology.epoch = ready.epoch ∧ process.state.topology.hashSeed =
        ready.tokenSeed)
      (fresh : (purgeExpiredDedup hashing process.state clock.now).dedup.lookup request.requestId = none)
      (sameKey : plan.key = request.key) (sameId : plan.requestId = request.requestId)
      (sameFingerprint : plan.fingerprint = mutationFingerprint hashing request.key shape)
      (sameDeleted : plan.deleted = request.isDelete) (result : NodeProcess × WriteOutcome)
      (ended : PlanCase hashing config clock
        { process with state := purgeExpiredDedup hashing process.state clock.now } plan ready result) :
      CommitCase hashing config clock process request ready result

theorem receipt_checks_cases (hashing : Hashing) (config : NodeConfig) (clock : Clock)
    (process : NodeProcess) (request : WriteRequest) (ready : Readiness) (shape : MutationShape)
    (valid : request.validate config = .ok shape)
    (commit : NodeProcess → NodeProcess × WriteOutcome)
    (committed : ∀ purged, purged =
      { process with state := purgeExpiredDedup hashing process.state clock.now } →
      purged.state.dedup.lookup request.requestId = none →
      ownerError config process.state ready.token clock.now = .ok none →
      process.state.topology.epoch = ready.epoch ∧ process.state.topology.hashSeed = ready.tokenSeed →
      CommitCase hashing config clock process request ready (commit purged)) :
    CommitCase hashing config clock process request ready
      (withReceiptChecks hashing config clock process request.requestId
        (mutationFingerprint hashing request.key shape) request.isDelete ready commit) := by
  unfold withReceiptChecks
  simp only
  split
  · rename_i status failed
    exact .unroutable status failed
  · rename_i error refused
    exact .notOwner error refused
  · rename_i owned
    split
    · rename_i changed
      exact .moved owned changed
    · rename_i current
      rw [not_or, not_not, not_not] at current
      split
      · rename_i existing found
        exact .answered shape valid existing owned found
      · rename_i fresh
        exact committed _ rfl fresh owned current

theorem commit_request_cases (hashing : Hashing) (config : NodeConfig) (clock : Clock)
    (process : NodeProcess) (request : WriteRequest) (ready : Readiness) :
    CommitCase hashing config clock process request ready
      (commitRequest hashing config clock process request ready) := by
  unfold commitRequest
  cases valid : request.validate config with
  | error error => exact .invalid error valid
  | ok shape =>
      cases request with
      | put put =>
          simp only [putCommit]
          apply receipt_checks_cases hashing config clock process (.put put) ready shape valid
          rintro purged rfl fresh owned current
          simp only
          split
          · exact .declined shape valid _ fresh
          · split
            · exact .declined shape valid _ fresh
            · split
              · exact .declined shape valid _ fresh
              · exact .planned shape valid _ owned current fresh rfl rfl rfl rfl _ (commit_plan_cases ..)
              · exact .planned shape valid _ owned current fresh rfl rfl rfl rfl _ (commit_plan_cases ..)
      | delete delete =>
          simp only [deleteCommit]
          apply receipt_checks_cases hashing config clock process (.delete delete) ready shape valid
          rintro purged rfl fresh owned current
          simp only
          split
          · exact .declined shape valid _ fresh
          · exact .planned shape valid _ owned current fresh rfl rfl rfl rfl _ (commit_plan_cases ..)

theorem push_unacked_frame (unixMillis : Nat) (entries : List PreparedReplication) (state : NodeState) :
    ∃ ownerStreamUnacked, entries.foldl (pushUnacked unixMillis) state =
      { state with ownerStreamUnacked } := by
  induction entries generalizing state with
  | nil => exact ⟨_, rfl⟩
  | cons entry rest ih =>
      rw [List.foldl_cons]
      obtain ⟨unacked, same⟩ := ih (pushUnacked unixMillis state entry)
      exact ⟨unacked, same⟩

theorem store_record_only (hashing : Hashing) (state : NodeState) (plan : WritePlan) (record : Record) :
    NodeState.OnlyRecords state (storeRecord hashing state plan record) := by
  unfold storeRecord
  split
  · exact NodeState.apply_record_only hashing state plan.key record
  · exact NodeState.insert_record_only hashing state plan.key record

theorem journal_sources_same (token : Token) (plan : WritePlan) (record : Record)
    (before after : FiniteMap RangeKey SourceMigration) (same : SameSources before after) :
    SameSources (journalSources token plan record before) (journalSources token plan record after) := by
  intro key
  have step : ∀ source : SourceMigration,
      (if source.range.contains token then journalWrite plan record source else source).undeferred =
        (if source.undeferred.range.contains token then journalWrite plan record source.undeferred
         else source.undeferred).undeferred := by
    intro source
    by_cases covered : source.range.contains token = true
    · simp [covered, SourceMigration.undeferred, journalWrite]
    · simp [covered, SourceMigration.undeferred]
  have mapped : ∀ sources : FiniteMap RangeKey SourceMigration,
      ((journalSources token plan record sources).lookup key).map SourceMigration.undeferred =
        ((sources.lookup key).map SourceMigration.undeferred).map fun source =>
          (if source.range.contains token then journalWrite plan record source
              else source).undeferred := by
    intro sources
    simp only [journalSources, FiniteMap.lookup_mapValues, Option.map_map]
    congr 1
    funext source
    exact step source
  rw [mapped, mapped, same key]

def writeReceipt (plan : WritePlan) (record : Record) (expiresAt : Instant) (followers : List String)
    (entries : List PreparedReplication) : DedupEntry :=
  { freshReceipt plan.requestId plan.key plan.fingerprint record.version plan.deleted expiresAt with
    requiredAcks := requiredAcksOf followers entries
    retainedBytes :=
      dedupRetainedBytes plan.requestId plan.key.length record.version.ownerNodeId.utf8ByteSize +
        requiredAckRetainedBytes followers }

/-- Everything an accepted write changes. -/
structure WriteEffect (hashing : Hashing) (clock : Clock) (before after : NodeState) (plan : WritePlan)
    (record : Record) (token : Token) (followers : List String)
    (entries : List PreparedReplication) : Prop where
  frame : ∃ records recordsByToken recordExpirations sources journalBytesTotal ownerStreamUnacked
    dedup dedupByToken
      dedupExpirations dedupBytes dedupPeakBytes,
    after = { before with
      nextSequence := record.version.ownerSequence
      records, recordsByToken, recordExpirations, sources, journalBytesTotal, ownerStreamUnacked
      dedup, dedupByToken, dedupExpirations, dedupBytes, dedupPeakBytes }
  records : ∀ probe, after.records.lookup probe =
    if probe = plan.key ∧ (plan.deleted = true → ∀ current, before.records.lookup plan.key =
      some current →
        current.version < record.version)
    then some record else before.records.lookup probe
  sources : SameSources (journalSources token plan record before.sources) after.sources
  receipts : ∀ probe, after.dedup.lookup probe =
    if probe = plan.requestId then
      some (writeReceipt plan record (clock.later + before.topology.timings.receiptRetention)
        followers entries)
    else before.dedup.lookup probe
  recordsIndexed : NodeState.RecordsIndexed hashing before → NodeState.RecordsIndexed hashing after
  receiptsScheduled : ReceiptsScheduled before → ReceiptsScheduled after
  receiptsIndexed : ReceiptsIndexed hashing before → ReceiptsIndexed hashing after

theorem lookup_store_record (hashing : Hashing) (state : NodeState) (plan : WritePlan) (record : Record)
    (probe : Bytes) :
    (storeRecord hashing state plan record).records.lookup probe =
      if probe = plan.key ∧ (plan.deleted = true → ∀ current, state.records.lookup plan.key =
        some current →
          current.version < record.version)
      then some record else state.records.lookup probe := by
  unfold storeRecord
  by_cases removed : plan.deleted = true
  · simp only [removed, ↓reduceIte, forall_const]
    exact NodeState.lookup_apply_record hashing state plan.key probe record
  · simp [removed, NodeState.lookup_insert_record]

theorem store_record_indexed (hashing : Hashing) (state : NodeState) (plan : WritePlan) (record : Record)
    (indexed : NodeState.RecordsIndexed hashing state) :
    NodeState.RecordsIndexed hashing (storeRecord hashing state plan record) := by
  unfold storeRecord
  split
  · exact NodeState.apply_record_indexed hashing state plan.key record indexed
  · exact NodeState.insert_record_indexed hashing state plan.key record indexed

theorem set_required_acks_lookup (state : NodeState) (id probe : String)
    (required : List RequiredAck) (cost : Nat) :
    (setRequiredAcks state id required cost).dedup.lookup probe =
      (state.dedup.lookup probe).map fun entry =>
        if probe = id then { entry with requiredAcks := required, retainedBytes := entry.retainedBytes + cost }
        else entry := by
  simp [setRequiredAcks]

theorem set_required_acks_invariants (hashing : Hashing) (state : NodeState) (id : String)
    (required : List RequiredAck) (cost : Nat) :
    (ReceiptsScheduled state → ReceiptsScheduled (setRequiredAcks state id required cost)) ∧
      (ReceiptsIndexed hashing state →
        ReceiptsIndexed hashing (setRequiredAcks state id required cost)) := by
  constructor
  · intro scheduled probe entry found
    rw [set_required_acks_lookup] at found
    obtain ⟨old, kept, rfl⟩ := Option.map_eq_some_iff.mp found
    have waiting := scheduled probe old kept
    by_cases same : probe = id
    · simpa [same, setRequiredAcks] using waiting
    · simpa [same, setRequiredAcks] using waiting
  · intro indexed token probe
    rw [set_required_acks_lookup]
    have before := indexed token probe
    simp only [NodeState.tokenOf, setRequiredAcks] at before ⊢
    rw [before]
    constructor
    · rintro ⟨entry, found, here⟩
      refine ⟨_, by rw [found]; rfl, ?_⟩
      by_cases same : probe = id
      · simpa [same] using here
      · simpa [same] using here
    · rintro ⟨entry, found, here⟩
      obtain ⟨old, kept, rfl⟩ := Option.map_eq_some_iff.mp found
      refine ⟨old, kept, ?_⟩
      by_cases same : probe = id
      · simpa [same] using here
      · simpa [same] using here

theorem store_write_effect (hashing : Hashing) (clock : Clock) (state : NodeState) (plan : WritePlan)
    (record : Record) (token : Token) (followers : List String) (entries : List PreparedReplication) :
    WriteEffect hashing clock state
      (storeWrite hashing clock state plan record token followers entries) plan record
      token followers entries := by
  -- The stages of the write are named as they come: streams, record, journal, receipt.
  obtain ⟨unacked, pushed⟩ := push_unacked_frame clock.unixLater entries
    { state with nextSequence := record.version.ownerSequence }
  generalize sequenced : entries.foldl (pushUnacked clock.unixLater)
    { state with nextSequence := record.version.ownerSequence } = base at pushed
  obtain ⟨⟨records, byToken, schedule, sources, stored⟩, same⟩ :=
    store_record_only hashing base plan record
  have lookups := lookup_store_record hashing base plan record
  have indexed := store_record_indexed hashing base plan record
  generalize kept : storeRecord hashing base plan record = written at stored same lookups indexed
  generalize growth : journalGrowth state token plan = grown
  have inserted := insert_dedup_only hashing (journalState token plan record grown written)
    plan.requestId plan.key plan.fingerprint record.version plan.deleted
    (clock.later + state.topology.timings.receiptRetention)
  have found := fun probe => lookup_insert_dedup hashing (journalState token plan record grown written)
    plan.requestId probe plan.key plan.fingerprint record.version plan.deleted
    (clock.later + state.topology.timings.receiptRetention)
  have scheduled := insert_dedup_scheduled hashing (journalState token plan record grown written)
    plan.requestId plan.key plan.fingerprint record.version plan.deleted
    (clock.later + state.topology.timings.receiptRetention)
  have listed := insert_dedup_indexed hashing (journalState token plan record grown written)
    plan.requestId plan.key plan.fingerprint record.version plan.deleted
    (clock.later + state.topology.timings.receiptRetention)
  have unfolded : storeWrite hashing clock state plan record token followers entries =
      setRequiredAcks
        (insertDedupUntil hashing (journalState token plan record grown written) plan.requestId plan.key
          plan.fingerprint record.version plan.deleted
            (clock.later + state.topology.timings.receiptRetention))
        plan.requestId (requiredAcksOf followers entries) (requiredAckRetainedBytes followers) := by
    unfold storeWrite insertDedup
    simp only [sequenced, kept, growth]
    subst stored pushed
    rfl
  rw [unfolded]
  generalize receipts : insertDedupUntil hashing (journalState token plan record grown written)
    plan.requestId plan.key
    plan.fingerprint record.version plan.deleted
      (clock.later + state.topology.timings.receiptRetention) = filed
    at inserted found scheduled listed
  obtain ⟨_, _, _, _, _, filedAs⟩ := inserted
  have acks := set_required_acks_invariants hashing filed plan.requestId
    (requiredAcksOf followers entries)
    (requiredAckRetainedBytes followers)
  exact {
    frame := by
      subst filedAs stored pushed
      exact ⟨_, _, _, _, _, _, _, _, _, _, _, rfl⟩
    records := fun probe => by
      have lookup := lookups probe
      subst filedAs stored pushed
      exact lookup
    sources := by
      subst filedAs stored pushed
      exact journal_sources_same token plan record state.sources sources same
    receipts := fun probe => by
      rw [set_required_acks_lookup, found probe]
      by_cases here : probe = plan.requestId
      · subst probe
        simp [writeReceipt, freshReceipt]
      · have others : (journalState token plan record grown written).dedup = state.dedup := by
          subst stored pushed
          rfl
        simp [here, others]
    recordsIndexed := fun start => by
      have begun : NodeState.RecordsIndexed hashing base := by
        subst pushed
        exact start
      have done := indexed begun
      subst filedAs stored pushed
      exact done
    receiptsScheduled := fun start => acks.1 (scheduled (by
      subst stored pushed
      exact start))
    receiptsIndexed := fun start => acks.2 (listed (by
      subst stored pushed
      exact start)) }

structure WriteKept (hashing : Hashing) (now : Instant) (before after : NodeState) : Prop where
  topology : after.topology = before.topology
  records : after.records = before.records
  sources : after.sources = before.sources
  sequence : after.nextSequence = before.nextSequence
  receipts : after.dedup = before.dedup ∨ after.dedup = (purgeExpiredDedup hashing before now).dedup

structure WriteStored (hashing : Hashing) (config : NodeConfig) (clock : Clock) (before after : NodeState)
    (request : WriteRequest) (ready : Readiness) (plan : WritePlan) (record : Record)
    (entries : List PreparedReplication) : Prop where
  valid : ∃ shape, request.validate config = .ok shape ∧
    plan.fingerprint = mutationFingerprint hashing request.key shape
  topology : after.topology = before.topology
  version : record.version = ⟨before.topology.epoch, before.nextSequence + 1, config.nodeId⟩
  sequence : after.nextSequence = before.nextSequence + 1
  owned : ownerError config before ready.token clock.now = .ok none
  seed : before.topology.hashSeed = ready.tokenSeed
  unfenced : writeFence before ready.token = none
  key : plan.key = request.key
  id : plan.requestId = request.requestId
  deleted : record.deleted = plan.deleted
  records : ∀ probe, after.records.lookup probe =
    if probe = plan.key ∧ (plan.deleted = true → ∀ current, before.records.lookup plan.key =
      some current →
        current.version < record.version)
    then some record else before.records.lookup probe
  sources : SameSources (journalSources ready.token plan record before.sources) after.sources
  fresh : (purgeExpiredDedup hashing before clock.now).dedup.lookup plan.requestId = none
  receipts : ∀ probe, after.dedup.lookup probe =
    if probe = plan.requestId then
      some (writeReceipt plan record (clock.later + before.topology.timings.receiptRetention)
        ready.followers entries)
    else (purgeExpiredDedup hashing before clock.now).dedup.lookup probe

theorem purge_write_fence (hashing : Hashing) (state : NodeState) (now : Instant) (token : Token) :
    writeFence (purgeExpiredDedup hashing state now) token = writeFence state token := by
  obtain ⟨_, _, _, _, _, _, _, _, _, purged⟩ := purge_expired_only hashing state now
  rw [purged]
  rfl

theorem purge_kept (hashing : Hashing) (state : NodeState) (now : Instant) :
    WriteKept hashing now state (purgeExpiredDedup hashing state now) := by
  have purge := purge_expired_only hashing state now
  refine ⟨purge.topology, ?_, ?_, ?_, Or.inr rfl⟩
  · obtain ⟨_, _, _, _, _, _, _, _, _, purged⟩ := purge
    rw [purged]
  · obtain ⟨_, _, _, _, _, _, _, _, _, purged⟩ := purge
    rw [purged]
  · obtain ⟨_, _, _, _, _, _, _, _, _, purged⟩ := purge
    rw [purged]

def WritePlan.mutation (plan : WritePlan) (record : Record) (topologyEpoch : Nat) :
    ReplicationMutation where
  topologyEpoch
  ownerNodeId := record.version.ownerNodeId
  key := plan.key
  value := record.value
  deleted := record.deleted
  version := record.version
  mutationId := plan.requestId
  expiresAtUnixMillis := record.expiresAtUnixMillis
  requestFingerprint := plan.fingerprint

/-- No stream of the process moved; a refused reservation may have opened some. -/
structure QueuesKept (before after : NodeProcess) : Prop where
  heads : ∀ key, after.state.streamHead key = before.state.streamHead key
  tasks : ∀ key, after.dispatch.taskAt key = before.dispatch.taskAt key
  failed : after.dispatch.failedStreams = before.dispatch.failedStreams

structure QueuesExtended (before after : NodeProcess) (token : Token) (mutation : ReplicationMutation)
    (entries : List PreparedReplication) : Prop where
  fanned : FannedOut before.state token mutation entries
  heads : ∀ key, after.state.streamHead key =
    if key ∈ entries.map (·.ownerStream) then before.state.streamHead key +
      1 else before.state.streamHead key
  tasks : ∀ key, after.dispatch.taskAt key =
    { before.dispatch.taskAt key with
      queue := (before.dispatch.taskAt key).queue ++ entries.filter fun entry => entry.streamKey = key }
  failed : after.dispatch.failedStreams = before.dispatch.failedStreams
  healthy : ∀ entry ∈ entries, entry.streamKey ∉ before.dispatch.failedStreams

theorem purge_stream_head (hashing : Hashing) (state : NodeState) (now : Instant) (key : StreamKey) :
    (purgeExpiredDedup hashing state now).streamHead key = state.streamHead key := by
  obtain ⟨_, _, _, _, _, _, _, _, _, purged⟩ := purge_expired_only hashing state now
  rw [purged]
  rfl

/-- The write-lock section of a request either stores nothing and leaves every
stream alone, or stores the request's record and extends its followers' streams. -/
theorem commit_request_outcome (hashing : Hashing) (config : NodeConfig) (clock : Clock)
    (process : NodeProcess) (request : WriteRequest) (ready : Readiness) :
    (WriteKept hashing clock.now process.state
      (commitRequest hashing config clock process request ready).1.state ∧
        QueuesKept process (commitRequest hashing config clock process request ready).1) ∨
      ∃ plan record entries, WriteStored hashing config clock process.state
          (commitRequest hashing config clock process request ready).1.state request ready plan
            record entries ∧
        QueuesExtended process (commitRequest hashing config clock process request ready).1 ready.token
          (plan.mutation record process.state.topology.epoch) entries := by
  have unchanged : WriteKept hashing clock.now process.state process.state ∧ QueuesKept process process :=
    ⟨⟨rfl, rfl, rfl, rfl, Or.inl rfl⟩, ⟨fun _ => rfl, fun _ => rfl, rfl⟩⟩
  have purged := purge_kept hashing process.state clock.now
  have sameHead := purge_stream_head hashing process.state clock.now
  have idle : QueuesKept process
      { process with state := purgeExpiredDedup hashing process.state clock.now } :=
    ⟨sameHead, fun _ => rfl, rfl⟩
  have cases := commit_request_cases hashing config clock process request ready
  generalize commitRequest hashing config clock process request ready = result at cases
  cases cases with
  | invalid _ _ => exact Or.inl unchanged
  | unroutable _ _ => exact Or.inl unchanged
  | notOwner _ _ => exact Or.inl unchanged
  | moved _ _ => exact Or.inl unchanged
  | answered _ _ _ _ _ => exact Or.inl ⟨purged, idle⟩
  | declined _ _ _ _ => exact Or.inl ⟨purged, idle⟩
  | planned shape valid plan owned current fresh sameKey sameId sameFingerprint sameDeleted _ ended =>
      cases ended with
      | refused _ _ _ => exact Or.inl ⟨purged, idle⟩
      | rolledBack ackProgress sequences entries dispatch reserved restored _ _ _ _ _ =>
          obtain ⟨failed, tasks, _⟩ := ReplicationDispatcher.reserve_spec config entries process.dispatch
          rw [reserved] at failed tasks
          exact Or.inl ⟨⟨purged.topology, purged.records, purged.sources, purged.sequence,
            purged.receipts⟩,
            ⟨fun key => (restored key).trans (sameHead key), tasks, failed⟩⟩
      | stored prepared entries dispatch unfenced fanned reserved =>
          right
          -- The write goes into the purged state; every field is read back through the purge.
          have version : WritePlan.version config (purgeExpiredDedup hashing process.state clock.now) =
              ⟨process.state.topology.epoch, process.state.nextSequence + 1, config.nodeId⟩ := by
            simp only [WritePlan.version, purged.topology, purged.sequence]
          obtain ⟨fan, heads⟩ := prepare_fans_out _ _ _ _ fanned
          obtain ⟨failed, tasks, granted⟩ :=
            ReplicationDispatcher.reserve_spec config entries process.dispatch
          rw [reserved] at failed tasks granted
          obtain ⟨stillFailed, queued⟩ := ReplicationDispatcher.enqueue_spec entries dispatch
            fun entry member => (granted rfl entry member).1
          obtain ⟨progress, sequences, rfl⟩ := prepare_frame _ _ _ _ fanned
          have effect := store_write_effect hashing clock
            { purgeExpiredDedup hashing process.state clock.now with
              ackProgress := progress, ownerStreamSequences := sequences } plan
            (plan.record (WritePlan.version config
              (purgeExpiredDedup hashing process.state clock.now))) ready.token
            ready.followers entries
          obtain ⟨_, _, _, _, _, _, _, _, _, _, _, frame⟩ := effect.frame
          refine ⟨plan, plan.record
            (WritePlan.version config (purgeExpiredDedup hashing process.state clock.now)),
            entries, ?_, ?_⟩
          · exact {
            valid := ⟨shape, valid, sameFingerprint⟩
            topology := by
              rw [frame]
              exact purged.topology
            version := version
            sequence := by
              rw [frame]
              exact congrArg RecordVersion.ownerSequence version
            owned := owned
            seed := current.2
            unfenced := by
              rw [← purge_write_fence hashing process.state clock.now ready.token]
              exact unfenced
            key := sameKey
            id := sameId
            deleted := rfl
            records := fun probe => by
              rw [← purged.records]
              exact effect.records probe
            sources := by
              rw [← purged.sources]
              exact effect.sources
            fresh := by
              rw [sameId]
              exact fresh
            receipts := fun probe => by
              rw [← purged.topology]
              exact effect.receipts probe }
          · exact {
            fanned := {
              streams := fan.streams
              carries := fun entry member => by
                rw [← purged.topology]
                exact fan.carries entry member
              numbered := fun entry member => by
                rw [← sameHead]
                exact fan.numbered entry member
              placed := fun entry member => by
                rw [← purged.topology]
                exact fan.placed entry member }
            heads := fun key => by
              rw [← sameHead key, frame]
              exact heads key
            tasks := fun key => by
              rw [queued key, tasks key]
            failed := stillFailed.trans failed
            healthy := fun entry member => (granted rfl entry member).2 }

/-- The write-lock section of a request either stores nothing or stores the
request's record. -/
theorem commit_request_effect (hashing : Hashing) (config : NodeConfig) (clock : Clock)
    (process : NodeProcess) (request : WriteRequest) (ready : Readiness) :
    WriteKept hashing clock.now process.state
      (commitRequest hashing config clock process request ready).1.state ∨
      ∃ plan record entries, WriteStored hashing config clock process.state
        (commitRequest hashing config clock process request ready).1.state request ready plan record
          entries := by
  rcases commit_request_outcome hashing config clock process request ready with
    ⟨kept, _⟩ | ⟨plan, record, entries, stored, _⟩
  · exact Or.inl kept
  · exact Or.inr ⟨plan, record, entries, stored⟩

end Hashring
