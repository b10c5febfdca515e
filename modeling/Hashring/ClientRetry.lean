import Hashring.ClientErrors
import Hashring.PlacementLaw
import Hashring.TaskRecord

/-! The retry loop of a mutation (crates/hashring-client/src/lib.rs). Everything a
call learns comes from an effect: the clock, the cached topology it shares with
the other calls of the client, the coordinator, the node's answer. -/
namespace Hashring

inductive TopologyRefreshError where
  | transport (error : String)
  | rpc (status : Status)
  | invalidTopology (error : TopologyError)
  | conflictingEpoch (epoch : Nat) (cachedDigest fetchedDigest : String)

def retryableStatus (status : Status) : Bool := status.code = .unavailable

def TopologyRefreshError.isRetryable : TopologyRefreshError → Bool
  | transport _ => true
  | rpc status => retryableStatus status
  | _ => false

/-- The text of the error; `statusText` is how a status displays. -/
def TopologyRefreshError.text (statusText : Status → String) : TopologyRefreshError → String
  | transport error => s!"coordinator transport failed: {error}"
  | rpc status => s!"coordinator topology RPC failed: {statusText status}"
  | invalidTopology error => s!"coordinator returned an invalid topology: {error.message}"
  | conflictingEpoch epoch cached fetched =>
      s!"coordinator returned conflicting topology digests for epoch {epoch}: cached={cached}, fetched={fetched}"

inductive RetryReason where
  | moved
  | rangeBusy
  | unavailable
  | resourceExhausted
  | temporarilyUnavailable
  | replicaNotReady
  | outcomeUnknown
  | leaseExpired
  | rpc
  | connect
  | topologyRefresh
  deriving DecidableEq

/-- The part of `ClientInner` that its tasks change. -/
structure ClientInner where
  topology : TopologySnapshot
  channels : List String
  refreshLocked : Bool
  refreshGeneration : Nat
  backgroundRefreshRunning : Bool := false
  backgroundMinimumEpoch : Nat
  backgroundTriggerGeneration : Nat
  retries : Nat
  retryReasons : RetryReason → Nat

/-- What an attempt comes back with: nothing before its timeout, a status, or the
node's response. -/
abbrev Answer := Option (Except Status WriteResponse)

inductive ClientEffect : Type → Type 1 where
  | now : ClientEffect Instant
  | random : ClientEffect Nat
  | sleep (duration : Nat) : ClientEffect Unit
  | shared {γ : Type} (access : ClientInner → γ × ClientInner) : ClientEffect γ
  | lockRefresh (timeout : Nat) : ClientEffect Bool
  | fetchTopology (timeout : Nat) : ClientEffect (Option (Except TopologyRefreshError TopologySnapshot))
  | connect (endpoint : String) (timeout : Nat) : ClientEffect (Option (Except String Unit))
  | put (endpoint : String) (request : PutRequest) (timeout : Nat) : ClientEffect Answer
  | delete (endpoint : String) (request : DeleteRequest) (timeout : Nat) : ClientEffect Answer

abbrev ClientTask := ExceptT ClientError (Program ClientEffect)

def request {α : Type} (effect : ClientEffect α) : ClientTask α := ExceptT.lift (Program.call effect)

/-- An unset field keeps the record's deadline and zero clears it. -/
inductive Expiry where
  | keep
  | atMillis (unixMillis : Nat)
  | clear
  deriving DecidableEq

def Expiry.toWire : Expiry → Option Nat
  | keep => none
  | atMillis unixMillis => some unixMillis
  | clear => some 0

structure HashringClient where
  hashing : Hashing
  /-- How `tonic::Status` displays. -/
  statusText : Status → String
  /-- `Endpoint::from_shared`. -/
  endpointError : String → Option String
  operationTimeout : Nat
  receiptRetention : Nat

def statusMayHaveApplied (status : Status) : Bool :=
  match status.code with
  | .cancelled | .unknown | .deadlineExceeded | .internal | .unavailable | .dataLoss => true
  | _ => false

def accumulatedWriteAmbiguity (alreadyUnknown : Bool) (status : Status) : Bool :=
  alreadyUnknown || statusMayHaveApplied status

def rpcError (status : Status) (unknownWriteOutcome : Bool) : ClientError :=
  .rpc status.code status.message (.ofUnknown unknownWriteOutcome)

def sizeFailure (message : String) : ClientError :=
  .operation { code := .tooLarge, message, retryable := false, outcome := .knownNotApplied }

def rejectedAfterAmbiguity : ClientError :=
  .operation
    { code := .outcomeUnknown
      message := "a retried conditional write was rejected, but an earlier attempt may still apply"
      retryable := false
      outcome := .mayHaveApplied }

def validateKeySize (key : Bytes) : ClientTask Unit :=
  if key.length > defaultMaxKeyBytes then throw
    (sizeFailure s!"key exceeds {defaultMaxKeyBytes} bytes") else pure ()

def remaining (deadline : Instant) (unknownWriteOutcome : Bool) : ClientTask Nat := do
  let now ← request .now
  if now < deadline then return deadline - now else throw (.deadline unknownWriteOutcome)

def cachedTopology : ClientTask TopologySnapshot := request (.shared fun inner => (inner.topology, inner))

def u32Max : Nat := 2 ^ 32 - 1

def retryDelayWithHint (deadline : Instant) (attempt : Nat) (unknownWriteOutcome : Bool)
    (minimumDelay : Nat) :
    ClientTask Nat := do
  let baseMillis := 5 * 2 ^ min attempt 5
  let jitterMillis := (← request .random) % (baseMillis + 1)
  let delay := max (min (baseMillis + jitterMillis) 200 * nanosPerMilli) minimumDelay
  let available ← remaining deadline unknownWriteOutcome
  if available ≤ delay then do
    request (.sleep available)
    throw (.deadline unknownWriteOutcome)
  else do
    request (.sleep delay)
    return min (attempt + 1) u32Max

def recordRetry (reason : RetryReason) : ClientTask Unit :=
  request (.shared fun inner => ((), { inner with
    retries := (inner.retries + 1) % 2 ^ 64
    retryReasons := fun other => if other = reason then (inner.retryReasons other + 1) % 2 ^ 64
      else inner.retryReasons other }))

def retryDelay (deadline : Instant) (attempt : Nat) (unknownWriteOutcome : Bool) (reason : RetryReason) :
    ClientTask Nat := do
  recordRetry reason
  retryDelayWithHint deadline attempt unknownWriteOutcome 0

/-- The topology write lock is held only here. -/
def cacheTopology (topology : TopologySnapshot) (inner : ClientInner) :
    Except TopologyRefreshError TopologySnapshot × ClientInner :=
  let counted := { inner with refreshGeneration := (inner.refreshGeneration + 1) % 2 ^ 64 }
  if inner.topology.epoch < topology.epoch then (.ok topology, { counted with topology })
  else if topology.epoch = inner.topology.epoch ∧ topology ≠ inner.topology then
    (.error (.conflictingEpoch topology.epoch inner.topology.digest topology.digest), inner)
  else (.ok inner.topology, counted)

def underRefreshLock {α : Type} (deadline : Instant) (unknownWriteOutcome : Bool)
    (body : ClientTask α) : ClientTask α := do
  let available ← remaining deadline unknownWriteOutcome
  if ← request (.lockRefresh available) then do
    let result ← Program.attempt body
    request (.shared fun inner => ((), { inner with refreshLocked := false }))
    match result with
    | .ok value => return value
    | .error error => throw error
  else throw (.deadline unknownWriteOutcome)

namespace HashringClient

variable (client : HashringClient)

def refreshFailure (error : TopologyRefreshError) (unknownWriteOutcome : Bool) : ClientError :=
  .topologyRefresh (error.text client.statusText) (.ofUnknown unknownWriteOutcome)

def route (key : Bytes) : ClientTask (Nat × String) := do
  let topology ← cachedTopology
  match topology.ownerForToken (topology.keyToken client.hashing key) with
  | .ok owner => return (topology.epoch, owner.endpoint)
  | .error error => throw (.topology error.message)

/-- One turn of `refresh_topology_for_inner`: the topology it ends with, or the
number of the next try. -/
def fetchRound (deadline : Instant) (unknownWriteOutcome : Bool) (minimumEpoch : Option Nat) (attempt : Nat) :
    ClientTask (Nat ⊕ TopologySnapshot) := do
  let available ← remaining deadline unknownWriteOutcome
  match ← request (.fetchTopology available) with
  | none => throw (.deadline unknownWriteOutcome)
  | some (.error error) =>
      if error.isRetryable then return .inl (← retryDelay deadline attempt unknownWriteOutcome .topologyRefresh)
      else throw (client.refreshFailure error unknownWriteOutcome)
  | some (.ok topology) => do
      match ← request (.shared (cacheTopology topology)) with
      | .error error => throw (client.refreshFailure error unknownWriteOutcome)
      | .ok current =>
          if minimumEpoch.all (· ≤ current.epoch) then return .inr current
          else return .inl (← retryDelay deadline attempt unknownWriteOutcome .topologyRefresh)

def refreshTopologyForInner (timeout : Nat) (unknownWriteOutcome : Bool) (minimumEpoch : Option Nat) :
    ClientTask TopologySnapshot := do
  let deadline := (← request .now) + timeout
  if minimumEpoch.any (· ≤ (← cachedTopology).epoch) then cachedTopology
  else underRefreshLock deadline unknownWriteOutcome do
    if minimumEpoch.any (· ≤ (← cachedTopology).epoch) then cachedTopology
    else Program.tryLoop (client.fetchRound deadline unknownWriteOutcome minimumEpoch) 0

def refreshTopologyBefore (deadline : Instant) (unknownWriteOutcome : Bool) (minimumEpoch : Option Nat) :
    ClientTask TopologySnapshot := do
  let available ← remaining deadline unknownWriteOutcome
  client.refreshTopologyForInner available unknownWriteOutcome minimumEpoch

def refreshAfterUnavailable (observedEpoch : Nat) (deadline : Instant) (unknownWriteOutcome : Bool) :
    ClientTask Unit := do
  if observedEpoch < (← cachedTopology).epoch then return ()
  else do
    let generation ← request (.shared fun inner => (inner.refreshGeneration, inner))
    underRefreshLock deadline unknownWriteOutcome do
      let newer := observedEpoch < (← cachedTopology).epoch
      if newer || (← request (.shared fun inner => (inner.refreshGeneration, inner))) ≠
        generation then return ()
      else do
        let available ← remaining deadline unknownWriteOutcome
        match ← request (.fetchTopology available) with
        | none => throw (.deadline unknownWriteOutcome)
        | some (.error _) => return ()
        | some (.ok topology) => do
            match ← request (.shared (cacheTopology topology)) with
            | .error error => throw (client.refreshFailure error unknownWriteOutcome)
            | .ok _ => return ()

/-- `fetch_max` on the epoch the background refresh is asked for. -/
def raiseMinimumEpoch (minimumEpoch : Nat) (inner : ClientInner) : Unit × ClientInner :=
  ((), { inner with backgroundMinimumEpoch := max inner.backgroundMinimumEpoch minimumEpoch })

def countTrigger (inner : ClientInner) : Unit × ClientInner :=
  ((), { inner with backgroundTriggerGeneration := (inner.backgroundTriggerGeneration + 1) % 2 ^ 64 })

/-- The exchange of the flag, and whether it was down. -/
def claimBackground (inner : ClientInner) : Bool × ClientInner :=
  (!inner.backgroundRefreshRunning, { inner with backgroundRefreshRunning := true })

def triggerBackgroundRefresh (minimumEpoch : Nat) : ClientTask Unit := do
  request (.shared (raiseMinimumEpoch minimumEpoch))
  request (.shared countTrigger)
  let _ ← request (.shared claimBackground)
  return ()

def dataNodeClient (endpoint : String) (deadline : Instant) : ClientTask Unit := do
  if ← request (.shared fun inner => (inner.channels.contains endpoint, inner)) then return ()
  else
    match client.endpointError endpoint with
    | some error => throw (.topology error)
    | none => do
        let available ← remaining deadline false
        match ← request (.connect endpoint available) with
        | none => throw (.deadline false)
        | some (.error error) => throw (.topology error)
        | some (.ok ()) =>
            request (.shared fun inner => ((), { inner with channels := endpoint :: inner.channels }))

def refreshWhenBehind (attemptedEpoch currentEpoch : Nat) (deadline : Instant) (unknownWriteOutcome : Bool) :
    ClientTask Unit :=
  if attemptedEpoch < currentEpoch then do
    let _ ← client.refreshTopologyBefore deadline unknownWriteOutcome (some currentEpoch)
    return ()
  else return ()

def retryCode (reason : RetryReason) (error : OperationError) (attemptedEpoch : Nat)
    (deadline : Instant) (attempt : Nat)
    (unknownWriteOutcome : Bool) : ClientTask (Option Nat) := do
  client.refreshWhenBehind attemptedEpoch error.currentEpoch deadline unknownWriteOutcome
  recordRetry reason
  let hint := if error.code = .resourceExhausted then error.retryAfterMillis * nanosPerMilli else 0
  return some (← retryDelayWithHint deadline attempt unknownWriteOutcome hint)

def handleRetryable (error : OperationError) (attemptedEpoch : Nat) (deadline : Instant) (attempt : Nat)
    (unknownWriteOutcome : Bool) : ClientTask (Option Nat) :=
  match error.code, error.retryable with
  | .moved, _ => do
      let requiredEpoch := max error.currentEpoch (min (attemptedEpoch + 1) (2 ^ 64 - 1))
      let _ ← client.refreshTopologyBefore deadline unknownWriteOutcome (some requiredEpoch)
      return some (← retryDelay deadline attempt unknownWriteOutcome .moved)
  | .unavailable, true => do
      client.refreshAfterUnavailable attemptedEpoch deadline unknownWriteOutcome
      return some (← retryDelay deadline attempt unknownWriteOutcome .unavailable)
  | .rangeBusy, true =>
      client.retryCode .rangeBusy error attemptedEpoch deadline attempt unknownWriteOutcome
  | .resourceExhausted, true =>
      client.retryCode .resourceExhausted error attemptedEpoch deadline attempt unknownWriteOutcome
  | .temporarilyUnavailable, true =>
      client.retryCode .temporarilyUnavailable error attemptedEpoch deadline attempt unknownWriteOutcome
  | .replicaNotReady, true =>
      client.retryCode .replicaNotReady error attemptedEpoch deadline attempt unknownWriteOutcome
  | .outcomeUnknown, true =>
      client.retryCode .outcomeUnknown error attemptedEpoch deadline attempt unknownWriteOutcome
  | .leaseExpired, true => do
      let _ ← client.refreshTopologyBefore deadline unknownWriteOutcome none
      return some (← retryDelay deadline attempt unknownWriteOutcome .leaseExpired)
  | _, _ => return none

/-- What `put_record` and `delete_record` differ in. -/
structure RecordWrite (ρ : Type) where
  key : Bytes
  /-- The request under this epoch, to this endpoint, for at most so long. -/
  send : Nat → String → Nat → ClientEffect Answer
  /-- A response that says the write was not made. -/
  rejected : WriteResponse → Option ρ
  applied : RecordVersion → Nat → ρ

variable {ρ : Type} (write : RecordWrite ρ)

/-- The number of the attempt, and whether an earlier one may have been applied. -/
abbrev Progress := Nat × Bool

def afterStatus (status : Status) (epoch : Nat) (deadline : Instant) (progress : Progress) :
    ClientTask (Progress ⊕ ρ) := do
  let unknownWriteOutcome := accumulatedWriteAmbiguity progress.2 status
  if retryableStatus status then do
    client.refreshAfterUnavailable epoch deadline unknownWriteOutcome
    return .inl (← retryDelay deadline progress.1 unknownWriteOutcome .rpc, unknownWriteOutcome)
  else throw (rpcError status unknownWriteOutcome)

def afterError (error : OperationError) (epoch : Nat) (deadline : Instant) (progress : Progress) :
    ClientTask (Progress ⊕ ρ) := do
  let unknownWriteOutcome := progress.2 || operationMayHaveApplied error
  match ← client.handleRetryable error epoch deadline progress.1 unknownWriteOutcome with
  | some attempt => return .inl (attempt, unknownWriteOutcome)
  | none => throw (.operation
      { OperationFailure.ofError error with outcome := .ofUnknown unknownWriteOutcome })

def noteEpoch (epoch currentEpoch : Nat) : ClientTask Unit :=
  if epoch < currentEpoch then triggerBackgroundRefresh currentEpoch else pure ()

def afterResponse (response : WriteResponse) (epoch : Nat) (progress : Progress) :
    ClientTask (Progress ⊕ ρ) := do
  noteEpoch epoch response.currentEpoch
  match write.rejected response with
  | some result => if progress.2 then throw rejectedAfterAmbiguity else return .inr result
  | none =>
      match response.version with
      | some version => return .inr (write.applied version response.currentEpoch)
      | none => throw .missingVersion

def attemptWrite (deadline : Instant) (progress : Progress) : ClientTask (Progress ⊕ ρ) := do
  let (epoch, endpoint) ← client.route write.key
  match ← Program.attempt (client.dataNodeClient endpoint deadline) with
  | .error (.deadlineExceeded _) => throw (.deadline progress.2)
  | .error _ => do
      client.refreshAfterUnavailable epoch deadline progress.2
      return .inl (← retryDelay deadline progress.1 progress.2 .connect, progress.2)
  | .ok () => do
      let available ← remaining deadline progress.2
      match ← request (write.send epoch endpoint available) with
      | none => throw (.deadline true)
      | some (.error status) => client.afterStatus status epoch deadline progress
      | some (.ok response) =>
          match response.error with
          | some error => client.afterError error epoch deadline progress
          | none => afterResponse write response epoch progress

/-- The loop of both mutations, from `mutation_deadline` on. -/
def writeRecord : ClientTask ρ := do
  let deadline := (← request .now) + min client.operationTimeout client.receiptRetention
  Program.tryLoop (client.attemptWrite write deadline) (0, false)

inductive PutResult where
  | applied (version : RecordVersion) (topologyEpoch : Nat)
  | keyMissing
  | conditionFailed
  deriving DecidableEq

def putWrite (key value : Bytes) (expiry : Expiry) (preserveValue : Bool)
    (precondition : Option Precondition)
    (requestId : String) : RecordWrite PutResult where
  key := key
  send topologyEpoch endpoint timeout := .put endpoint
    { key, value, topologyEpoch, requestId, expiresAtUnixMillis := expiry.toWire, preserveValue, precondition } timeout
  rejected response :=
    if response.conditionFailed then some .conditionFailed
    else if response.keyMissing then some .keyMissing
    else none
  applied := .applied

def putRecord (key value : Bytes) (expiry : Expiry) (preserveValue : Bool) (precondition : Option Precondition)
    (requestId : String) : ClientTask PutResult := do
  validateKeySize key
  if value.length > maxValueBytesCeiling then throw (sizeFailure s!"value exceeds {maxValueBytesCeiling} bytes")
  else client.writeRecord (putWrite key value expiry preserveValue precondition requestId)

structure DeleteOutput where
  topologyEpoch : Nat
  version : RecordVersion
  deriving DecidableEq

def deleteWrite (key : Bytes) (precondition : Option Precondition) (requestId : String) :
    RecordWrite (Option DeleteOutput) where
  key := key
  send topologyEpoch endpoint timeout :=
    .delete endpoint { key, topologyEpoch, requestId, precondition } timeout
  rejected response := if response.conditionFailed then some none else none
  applied version topologyEpoch := some { topologyEpoch, version }

def deleteRecord (key : Bytes) (precondition : Option Precondition) (requestId : String) :
    ClientTask (Option DeleteOutput) := do
  validateKeySize key
  client.writeRecord (deleteWrite key precondition requestId)

end HashringClient

end Hashring
