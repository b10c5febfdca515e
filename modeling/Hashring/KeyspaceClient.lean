import Hashring.ClientRetry
import Hashring.FailedWrite
import Hashring.KeyPages
import Hashring.TaskPool

/-! The client's walks of the keyspace (crates/hashring-client/src/keyspace.rs). A
scan goes round the ring in token order, each stretch from whichever node owns it
when asked; a whole walk pages through every owner at one epoch. -/
namespace Hashring

inductive KeyspaceEffect : Type → Type 1 where
  /-- What every call of the client uses: its clock, its cache, the coordinator. -/
  | client {γ : Type} (effect : ClientEffect γ) : KeyspaceEffect γ
  | listKeys (endpoint : String) (request : ListKeysRequest) (timeout : Nat) :
      KeyspaceEffect (Option (Except Status ListKeysResponse))
  /-- One of the page slots the walks of an attempt share. -/
  | acquirePage : KeyspaceEffect Unit
  | releasePage : KeyspaceEffect Unit
  /-- `kept_bytes.fetch_add`: the total with the cost. -/
  | spend (cost : Nat) : KeyspaceEffect Nat

abbrev KeyspaceTask := ExceptT ClientError (Program KeyspaceEffect)

/-- Why one owner's part of a walk stopped short. -/
inductive Interrupted where
  /-- The owner could not answer for this epoch, or not at all. -/
  | retry (error : Option OperationError)
  | connect
  | failed (error : ClientError)

abbrev PageTask := ExceptT Interrupted (Program KeyspaceEffect)

def keysPerPage : Nat := 1000

def countPerPage : Nat := 10000

def keyBytesPerPage : Nat := 2 ^ 20

def scanPagesPerCall : Nat := 64

def perKeyOverheadBytes : Nat := 64

def asClient {α : Type} (task : ClientTask α) : KeyspaceTask α := Program.embedded .client task

def duringPage {α : Type} (task : ClientTask α) : PageTask α := do
  match ← ExceptT.lift (asClient task).run with
  | .ok value => return value
  | .error error => throw (.failed error)

def reachOwner (client : HashringClient) (endpoint : String) (deadline : Instant) : PageTask Unit := do
  match ← ExceptT.lift (asClient (client.dataNodeClient endpoint deadline)).run with
  | .ok () => return ()
  | .error (.deadlineExceeded _) => throw (.failed (.deadline false))
  | .error _ => throw .connect

namespace HashringClient

variable (client : HashringClient)

def listPage (endpoint : String) (request : ListKeysRequest) (deadline : Instant) :
    PageTask ListKeysResponse := do
  reachOwner client endpoint deadline
  let available ← duringPage (remaining deadline false)
  match ← ExceptT.lift (Program.call (.listKeys endpoint request available)) with
  | none => throw (.failed (.deadline false))
  | some (.error status) =>
      if retryableStatus status then throw (.retry none) else throw (.failed (rpcError status false))
  | some (.ok response) =>
      match response.error with
      | some error => throw (.retry (some error))
      | none => return response

def recover (failure : Interrupted) (epoch : Nat) (deadline : Instant) (attempt : Nat) : ClientTask Nat :=
  match failure with
  | .failed error => throw error
  | .connect => do
      client.refreshAfterUnavailable epoch deadline false
      retryDelay deadline attempt false .connect
  | .retry none => do
      client.refreshAfterUnavailable epoch deadline false
      retryDelay deadline attempt false .rpc
  | .retry (some error) => do
      match ← client.handleRetryable error epoch deadline attempt false with
      | some attempt => return attempt
      | none => throw (.operation (.ofError error))

end HashringClient

def keepWithin (keep : Bytes → Bool) (maxBytes : Nat) :
    Nat → List Bytes → List Bytes → Except ClientError (List Bytes × Nat)
  | keptBytes, kept, [] => .ok (kept, keptBytes)
  | keptBytes, kept, key :: rest =>
      if keep key then
        let keptBytes := keptBytes + key.length + perKeyOverheadBytes
        if maxBytes < keptBytes then .error (sizeFailure s!"the matching keys exceed {maxBytes} bytes")
        else keepWithin keep maxBytes keptBytes (kept ++ [key]) rest
      else keepWithin keep maxBytes keptBytes kept rest

structure ScanProgress where
  attempt : Nat := 0
  position : Token
  keys : List Bytes := []
  pages : Nat := 0
  seen : Nat := 0
  keptBytes : Nat := 0

namespace HashringClient

variable (client : HashringClient)

def ownerRoute (token : Token) : ClientTask (Nat × String) := do
  let topology ← cachedTopology
  match topology.ownerForToken token with
  | .ok owner => return (topology.epoch, owner.endpoint)
  | .error error => throw (.topology error.message)

def scanRound (count : Nat) (keep : Bytes → Bool) (maxBytes : Nat) (deadline : Instant)
    (progress : ScanProgress) :
    KeyspaceTask (ScanProgress ⊕ (List Bytes × Option Token)) := do
  if progress.pages < scanPagesPerCall ∧ progress.seen < count then do
    let (epoch, endpoint) ← asClient (ownerRoute progress.position)
    let request : ListKeysRequest :=
      { topologyEpoch := epoch
        startToken := progress.position
        maxKeys := min (count - progress.seen) u32Max
        maxBytes := keyBytesPerPage
        oneStretch := true }
    match ← ExceptT.lift (client.listPage endpoint request deadline).run with
    | .error (.failed error) => throw error
    | .error failure => do
        let attempt ← asClient (client.recover failure epoch deadline progress.attempt)
        return .inl { progress with attempt }
    | .ok page => do
        match keepWithin keep maxBytes progress.keptBytes progress.keys page.keys with
        | .error error => throw error
        | .ok (keys, keptBytes) =>
            if page.done then return .inr (keys, none)
            else
              return .inl { progress with
                pages := progress.pages + 1
                seen := progress.seen + page.count
                keys, keptBytes
                position := page.nextToken }
  else return .inr (progress.keys, some progress.position)

def scan (cursor : Token) (count : Nat) (keep : Bytes → Bool) (maxBytes : Nat) :
    KeyspaceTask (List Bytes × Option Token) := do
  let deadline := (← asClient (request .now)) + client.operationTimeout
  Program.tryLoop (client.scanRound (max count 1) keep maxBytes deadline) { position := cursor }

end HashringClient

/-! Whole walks. -/

def ownerEndpoints (topology : TopologySnapshot) : List String :=
  (topology.members.filter fun member => topology.assignments.any (·.nodeId = member.nodeId)).map
    (·.endpoint)

def keepShared (keep : Bytes → Bool) (maxBytes : Nat) : List Bytes → List Bytes → PageTask (List Bytes)
  | kept, [] => return kept
  | kept, key :: rest =>
      if keep key then do
        let total ← ExceptT.lift (Program.call (.spend (key.length + perKeyOverheadBytes)))
        if maxBytes < total then throw (.failed (sizeFailure s!"the matching keys exceed {maxBytes} bytes"))
        else keepShared keep maxBytes (kept ++ [key]) rest
      else keepShared keep maxBytes kept rest

structure OwnerProgress where
  startToken : Token := 0
  keys : List Bytes := []
  count : Nat := 0

def ListKeysRequest.ofWalk (epoch : Nat) (countOnly : Bool) (startToken : Token) : ListKeysRequest where
  topologyEpoch := epoch
  startToken
  maxKeys := if countOnly then countPerPage else keysPerPage
  maxBytes := keyBytesPerPage
  countOnly

namespace HashringClient

variable (client : HashringClient) (countOnly : Bool) (keep : Bytes → Bool) (maxBytes : Nat)

/-- One page of `walk_owner`. What a failed walk holds goes with its budget. -/
def ownerRound (endpoint : String) (epoch : Nat) (deadline : Instant) (progress : OwnerProgress) :
    PageTask (OwnerProgress ⊕ (List Bytes × Nat)) := do
  ExceptT.lift (Program.call .acquirePage)
  let page ← client.listPage endpoint (.ofWalk epoch countOnly progress.startToken) deadline
  let keys ← keepShared keep maxBytes progress.keys page.keys
  let count := progress.count + page.count
  ExceptT.lift (Program.call .releasePage)
  if page.done then return .inr (keys, count) else return .inl { startToken := page.nextToken, keys, count }

def walkOwner (endpoint : String) (epoch : Nat) (deadline : Instant) : PageTask (List Bytes × Nat) :=
  Program.tryLoop (client.ownerRound countOnly keep maxBytes endpoint epoch deadline) {}

def walkOwners (deadline : Instant) (attempt : Nat) (topology : TopologySnapshot) :
    KeyspaceTask (Nat ⊕ (List Bytes × Nat)) := do
  let walks := (ownerEndpoints topology).map fun endpoint =>
    client.walkOwner countOnly keep maxBytes endpoint topology.epoch deadline
  match ← ExceptT.lift (Program.tryJoinAll walks).run with
  | .ok parts => return .inr (parts.flatMap (·.1), (parts.map (·.2)).sum)
  | .error (.failed error) => throw error
  | .error failure => do
      let attempt ← asClient (client.recover failure topology.epoch deadline attempt)
      return .inl attempt

def walkRound (deadline : Instant) (attempt : Nat) : KeyspaceTask (Nat ⊕ (List Bytes × Nat)) := do
  let topology ← asClient cachedTopology
  client.walkOwners countOnly keep maxBytes deadline attempt topology

def walk : KeyspaceTask (List Bytes × Nat) := do
  let deadline := (← asClient (request .now)) + client.operationTimeout
  Program.tryLoop (client.walkRound countOnly keep maxBytes deadline) 0

def keys : KeyspaceTask (List Bytes) := do
  return (← client.walk false keep maxBytes).1

def keyCount : KeyspaceTask Nat := do
  return (← client.walk true (fun _ => true) 0).2

end HashringClient

structure DataNode where
  config : NodeConfig
  process : NodeProcess
  now : Instant
  unixMillis : Nat

/-- `list_keys`; `fetched` is the coordinator's answer to `fetch_topology`. -/
def DataNode.listKeys (hashing : Hashing) (node : DataNode) (fetched : Except String TopologySnapshot)
    (request : ListKeysRequest) : DataNode × Except Status ListKeysResponse :=
  match refreshIfNewer hashing node.process request.topologyEpoch fetched with
  | (process, .error status) => ({ node with process }, .error status)
  | (process, .ok _) =>
      ({ node with process }, answerListing node.config process.state node.now node.unixMillis request)

end Hashring
