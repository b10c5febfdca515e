import Hashring.Program
import Hashring.ClusterState
import Hashring.Wire

/-! What the coordinator asks of data nodes (crates/hashring-coordinator: the RPC
parts of change.rs, merge.rs and policy.rs, and migration_helpers.rs). Programs of
this file only talk to nodes; they neither read nor write the cluster state. -/
namespace Hashring

def defaultMigrationPageBytes : Nat := 8 * 1024 * 1024

structure ProcessInfo where
  nodeId : String
  processInstanceId : String
  deriving DecidableEq

structure RangeDigest where
  recordCount : Nat
  digest : String
  changelogWatermark : Nat
  deriving DecidableEq

structure ReplicationProgressRequest where
  topologyEpoch : Nat
  ownerNodeId : String
  followerNodeId : String
  deriving DecidableEq

structure ReplicationProgress where
  processInstanceId : String
  streamSequence : Nat
  oldestUnackedUnixMillis : Nat := 0
  lastAckSequence : Nat := 0
  lastAckKnown : Bool := false
  deriving DecidableEq

/-- The RPCs of a data node, by what they answer. -/
inductive NodeRequest : Type → Type where
  | getProcessInfo : NodeRequest ProcessInfo
  | prepareSourceRange (range : RangeSpec) : NodeRequest String
  | prepareDestinationRange (range : RangeSpec) : NodeRequest String
  | readSnapshotPage (request : SnapshotPageRequest) : NodeRequest SnapshotPageResponse
  | applyMigrationBatch (request : ApplyMigrationBatchRequest) : NodeRequest Unit
  | readDedupSnapshotPage (request : SnapshotPageRequest) : NodeRequest DedupSnapshotPageResponse
  | applyDedupBatch (request : ApplyDedupBatchRequest) : NodeRequest Unit
  | readChangelogPage (request : ChangelogPageRequest) : NodeRequest ChangelogPageResponse
  | pauseRangeWrites (control : RangeKey) : NodeRequest Nat
  | sourceRangeDigest (control : RangeKey) : NodeRequest RangeDigest
  | destinationRangeDigest (control : RangeKey) : NodeRequest RangeDigest
  | commitDestinationRange (control : RangeKey) : NodeRequest Unit
  | activateDestinationRange (control : RangeKey) : NodeRequest Unit
  | cleanupSourceRange (control : RangeKey) : NodeRequest Unit
  | abortRangeMigration (control : RangeKey) : NodeRequest Unit
  | abortReplicaRepairs (topologyEpoch : Nat) : NodeRequest Unit
  | installTopology (topology : TopologySnapshot) (requireLease : Bool) : NodeRequest Unit
  | pausePolicyWrites (request : PolicyWriteFenceRequest) : NodeRequest Unit
  | resumePolicyWrites (request : PolicyWriteFenceRequest) : NodeRequest Unit
  | getReplicationProgress (request : ReplicationProgressRequest) : NodeRequest ReplicationProgress
  | installReplicationCheckpoint (request : ReplicationCheckpointRequest) :
      NodeRequest ReplicationProgress
  | prepareStop (nodeId processInstanceId : String) : NodeRequest Unit
  | stop (nodeId processInstanceId : String) : NodeRequest Unit

/-- Connecting is lazy and fails only on a spent deadline or a malformed endpoint;
a call may fail without having been delivered, after it, or before a later delivery. -/
inductive NodeEffect : Type → Type 1 where
  | connect (endpoint : String) (deadline : Instant) : NodeEffect (Except Status Unit)
  | call {β : Type} (endpoint : String) (deadline : Instant) (request : NodeRequest β) :
      NodeEffect (Except Status β)

abbrev NodeCalls := ExceptT Status (Program NodeEffect)

/-- `connect_node`. -/
def connectNode (endpoint : String) (deadline : Instant) : NodeCalls Unit :=
  ExceptT.mk (Program.call (.connect endpoint deadline))

/-- `rpc_before` around one request. -/
def rpcBefore {β : Type} (deadline : Instant) (endpoint : String) (request : NodeRequest β) :
    NodeCalls β :=
  ExceptT.mk (Program.call (.call endpoint deadline request))

def isAbsenceStatus (status : Status) : Bool := status.code = .unavailable

structure ChangeIdentity where
  changeId : String
  baseEpoch : Nat
  targetEpoch : Nat
  deriving DecidableEq

def changeIdentity (change : TopologyChange) : ChangeIdentity :=
  { changeId := change.changeId, baseEpoch := change.baseEpoch, targetEpoch := change.targetTopology.epoch }

def TopologyChange.control (change : TopologyChange) (range : RangeMigration) : RangeKey :=
  { changeId := change.changeId, rangeId := range.rangeId }

def TopologyChange.fenceRequest (change : TopologyChange) : PolicyWriteFenceRequest :=
  { changeId := change.changeId, baseEpoch := change.baseEpoch }

namespace NodeCalls

def copySnapshot (change : TopologyChange) (range : RangeMigration) (deadline : Instant) :
    NodeCalls Unit :=
  Program.tryLoop (fun cursor => do
    let page ← rpcBefore deadline range.sourceEndpoint (.readSnapshotPage
      { changeId := change.changeId, rangeId := range.rangeId, cursor, maxBytes := defaultMigrationPageBytes })
    if ¬page.records.isEmpty then
      rpcBefore deadline range.destinationEndpoint (.applyMigrationBatch
        { changeId := change.changeId, rangeId := range.rangeId
          snapshotRecords := page.records, journalRecords := [] })
    return if page.done then .inr () else .inl page.nextCursor) 0

def copyReceipts (change : TopologyChange) (range : RangeMigration) (deadline : Instant) :
    NodeCalls Unit :=
  Program.tryLoop (fun cursor => do
    let page ← rpcBefore deadline range.sourceEndpoint (.readDedupSnapshotPage
      { changeId := change.changeId, rangeId := range.rangeId, cursor, maxBytes := defaultMigrationPageBytes })
    if ¬page.records.isEmpty then
      rpcBefore deadline range.destinationEndpoint (.applyDedupBatch
        { changeId := change.changeId, rangeId := range.rangeId, records := page.records })
    return if page.done then .inr () else .inl page.nextCursor) 0

/-- `replay_changelog`: up to the final watermark, or to the one of the page read last. -/
def replayChangelog (change : TopologyChange) (range : RangeMigration) (watermark : Nat)
    (finalWatermark : Option Nat)
    (deadline : Instant) : NodeCalls Nat :=
  Program.tryLoop (fun watermark => do
    let page ← rpcBefore deadline range.sourceEndpoint (.readChangelogPage
      { changeId := change.changeId, rangeId := range.rangeId, afterWatermark := watermark
        maxBytes := defaultMigrationPageBytes })
    let target := finalWatermark.getD page.currentWatermark
    let reached := (page.records.getLast?.map (·.watermark)).getD watermark
    if ¬page.records.isEmpty then
      rpcBefore deadline range.destinationEndpoint (.applyMigrationBatch
        { changeId := change.changeId, rangeId := range.rangeId
          snapshotRecords := [], journalRecords := page.records })
    if target ≤ reached then return .inr reached
    if page.records.isEmpty then
      throw ⟨.dataLoss, "source changelog omitted records before its watermark"⟩
    return .inl reached) watermark

def copyRange (change : TopologyChange) (range : RangeMigration) (deadline : Instant) :
    NodeCalls RangeMigration := do
  connectNode range.sourceEndpoint deadline
  connectNode range.destinationEndpoint deadline
  let spec : RangeSpec :=
    { changeId := change.changeId, rangeId := range.rangeId
      startExclusive := range.startExclusive, endInclusive := range.endInclusive
      sourceNodeId := range.sourceNodeId, destinationNodeId := range.destinationNodeId }
  let sourceProcessInstanceId ← rpcBefore deadline range.sourceEndpoint (.prepareSourceRange spec)
  if sourceProcessInstanceId.isEmpty then
    throw ⟨.dataLoss, "source omitted its process instance identifier"⟩
  let destinationProcessInstanceId ← rpcBefore deadline range.destinationEndpoint
      (.prepareDestinationRange spec)
  if destinationProcessInstanceId.isEmpty then
    throw ⟨.dataLoss, "destination omitted its process instance identifier"⟩
  copySnapshot change range deadline
  copyReceipts change range deadline
  let changelogWatermark ← replayChangelog change range 0 none deadline
  return { range with sourceProcessInstanceId, destinationProcessInstanceId, changelogWatermark }

def pauseRange (change : TopologyChange) (range : RangeMigration) (deadline : Instant) :
    NodeCalls Nat := do
  connectNode range.sourceEndpoint deadline
  rpcBefore deadline range.sourceEndpoint (.pauseRangeWrites (change.control range))

/-- `finalize_range`: the progress and the digest both sides agreed on. -/
def finalizeRange (change : TopologyChange) (range : RangeMigration) (finalWatermark : Nat)
    (deadline : Instant) :
    NodeCalls (RangeMigration × String) := do
  connectNode range.sourceEndpoint deadline
  connectNode range.destinationEndpoint deadline
  let watermark ← replayChangelog change range range.changelogWatermark (some finalWatermark) deadline
  let control := change.control range
  let sourceDigest ← rpcBefore deadline range.sourceEndpoint (.sourceRangeDigest control)
  let destinationDigest ← rpcBefore deadline range.destinationEndpoint (.destinationRangeDigest control)
  if sourceDigest.recordCount ≠ destinationDigest.recordCount ∨ sourceDigest.digest ≠
    destinationDigest.digest ∨
      sourceDigest.changelogWatermark ≠ destinationDigest.changelogWatermark ∨
      destinationDigest.changelogWatermark ≠ finalWatermark ∨ watermark ≠ finalWatermark then
    throw ⟨.dataLoss, s!"range verification failed for {range.rangeId}"⟩
  rpcBefore deadline range.destinationEndpoint (.commitDestinationRange control)
  return ({ range with changelogWatermark := finalWatermark, verified := true }, sourceDigest.digest)

def installOnMembersWithLease (topology : TopologySnapshot) (deadline : Instant) (requireLease : Bool) :
    List Member → NodeCalls Unit
  | [] => pure ()
  | member :: rest => do
      connectNode member.endpoint deadline
      rpcBefore deadline member.endpoint (.installTopology topology requireLease)
      installOnMembersWithLease topology deadline requireLease rest

def installOnMembers (topology : TopologySnapshot) (members : List Member) (deadline : Instant) :
    NodeCalls Unit :=
  installOnMembersWithLease topology deadline true members

-- The source must acknowledge the release. An unreachable destination is left
-- with its staging, which no client sees before a publication.
def clearPrepublicationNodes (change : TopologyChange) (concurrency : Nat) (deadline : Instant) :
    NodeCalls Unit := do
  let _ ← Program.tryMapBounded change.ranges concurrency fun range => do
    let control := change.control range
    connectNode range.sourceEndpoint deadline
    rpcBefore deadline range.sourceEndpoint (.abortRangeMigration control)
    match ← Program.attempt (connectNode range.destinationEndpoint deadline) with
    | .error _ => pure ()
    | .ok _ =>
        let _ ← Program.attempt (rpcBefore deadline range.destinationEndpoint
            (.abortRangeMigration control))
        pure ()

def fenceMember (request : PolicyWriteFenceRequest) (pause : Bool) (deadline : Instant)
    (member : Member) :
    NodeCalls Unit := do
  connectNode member.endpoint deadline
  rpcBefore deadline member.endpoint
    (if pause then .pausePolicyWrites request else .resumePolicyWrites request)

/-- Pausing stops at the first member that does not acknowledge; releasing goes on
to the others and reports the first failure at the end. -/
def setWriteFence (request : PolicyWriteFenceRequest) (pause : Bool) (deadline : Instant) :
    Option Status → List Member → NodeCalls Unit
  | none, [] => pure ()
  | some error, [] => throw error
  | firstError, member :: rest => do
      match ← Program.attempt (fenceMember request pause deadline member) with
      | .ok _ => setWriteFence request pause deadline firstError rest
      | .error error =>
          if pause then throw error
          else setWriteFence request pause deadline (some (firstError.getD error)) rest

def policyFenceMembers (change : TopologyChange) (pause : Bool) (deadline : Instant) : NodeCalls Unit :=
  setWriteFence change.fenceRequest pause deadline none change.targetTopology.members

def setDirectMergeFence (change : TopologyChange) (pause baseMembers : Bool) (deadline : Instant) :
    NodeCalls Unit :=
  match change.baseTopology with
  | none => throw ⟨.internal, "direct merge omitted base topology"⟩
  | some base =>
      setWriteFence change.fenceRequest pause deadline none
        (if baseMembers then base.members else change.targetTopology.members)

end NodeCalls

-- A second range of one destination must name the same endpoint and process.
def collectInstances : List RangeMigration → FiniteMap String (String × String) →
    Except Status (FiniteMap String (String × String))
  | [], destinations => .ok destinations
  | range :: rest, destinations =>
      if range.destinationProcessInstanceId.isEmpty then
        .error ⟨.dataLoss, s!"missing process instance for destination {range.destinationNodeId}"⟩
      else
        let identity := (range.destinationEndpoint, range.destinationProcessInstanceId)
        if (destinations.lookup range.destinationNodeId).any (· ≠ identity) then
          .error ⟨.dataLoss, s!"destination {range.destinationNodeId} changed process instance during migration"⟩
        else collectInstances rest (destinations.insert range.destinationNodeId identity)

def destinationInstances (change : TopologyChange) : Except Status (FiniteMap String (String × String)) :=
  collectInstances change.ranges ∅

namespace NodeCalls

def verifyEachInstance (deadline : Instant) : List (Sigma fun _ : String => String × String) →
    NodeCalls Unit
  | [] => pure ()
  | ⟨nodeId, endpoint, expectedInstance⟩ :: rest => do
      connectNode endpoint deadline
      let actual ← rpcBefore deadline endpoint .getProcessInfo
      if actual.nodeId ≠ nodeId ∨ actual.processInstanceId ≠ expectedInstance then
        throw ⟨.failedPrecondition, s!"destination process changed before publication: {nodeId}"⟩
      verifyEachInstance deadline rest

def verifyDestinationInstances (change : TopologyChange) (deadline : Instant) : NodeCalls Unit := do
  let destinations ← liftExcept (destinationInstances change)
  verifyEachInstance deadline destinations.entries

end NodeCalls
end Hashring
