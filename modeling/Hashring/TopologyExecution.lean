import Hashring.ReplicaSeeding

/-! Carrying out a topology change (crates/hashring-coordinator/src/change.rs,
policy.rs and merge.rs). Every function below runs while its caller holds the
execution lock; the state lock is held only inside one critical section. -/
namespace Hashring

/-- `replace_range_progress`. -/
def replaceRangeProgress (change : TopologyChange) (progress : RangeMigration) : TopologyChange :=
  { change with ranges :=
      (replaceFirst (fun range => range.rangeId = progress.rangeId)
        (fun _ => progress) change.ranges).getD change.ranges }

def RangeMigration.cleared (range : RangeMigration) : RangeMigration :=
  { range with
    sourceProcessInstanceId := "", destinationProcessInstanceId := "", sourceCleaned := false
    changelogWatermark := 0, verified := false }

/-- `push` and `sort`, unless the ID is already there. -/
def insertSorted (nodeId : String) (nodeIds : List String) : List String :=
  if nodeId ∈ nodeIds then nodeIds else (nodeIds ++ [nodeId]).mergeSort fun left right => left ≤ right

namespace ClusterState

/-- A store that alters the active change, which the caller expects to be there. -/
def alterChange (alter : TopologyChange → TopologyChange) (state : ClusterState) :
    Except Status (Option ClusterState × Unit) :=
  match state.activeChange with
  | none => .error ⟨.internal, "active change disappeared"⟩
  | some change => .ok (some { state with activeChange := some (alter change) }, ())

/-- `set_phase_with_timings`. -/
def setPhase (phase : MigrationPhase) (state : ClusterState) :
    Except Status (Option ClusterState × Unit) :=
  match state.activeChange with
  | none => .error ⟨.internal, "active change disappeared"⟩
  | some change => .ok (some { state with
      activeChange := some { change with phase }
      recoveryBlockReason := if phase.isTerminal then "" else state.recoveryBlockReason }, ())

def storeRangeProgress (progress : RangeMigration) (state : ClusterState) :
    Except Status (Option ClusterState × Unit) :=
  match state.activeChange with
  | none => .error ⟨.internal, "migration range disappeared"⟩
  | some change =>
      match replaceFirst (fun range => range.rangeId = progress.rangeId)
        (fun _ => progress) change.ranges with
      | none => .error ⟨.internal, "migration range disappeared"⟩
      | some ranges => .ok (some { state with activeChange := some { change with ranges } }, ())

def setActivationReady (state : ClusterState) : Except Status (Option ClusterState × Unit) :=
  match state.activeChange with
  | none => .error ⟨.failedPrecondition, "no topology change is active"⟩
  | some change =>
      if change.phase ≠ .published then
        .error ⟨.failedPrecondition, "topology is not waiting for owner activation"⟩
      else .ok (some { state with
        activeChange := some { change with activationReady := true }, recoveryBlockReason := "" }, ())

def setRecoveryBlockReason (reason : String) (state : ClusterState) :
    Except Status (Option ClusterState × Unit) :=
  if state.recoveryBlockReason = reason then .ok (none, ())
  else .ok (some { state with recoveryBlockReason := reason }, ())

def resetAttempt (state : ClusterState) : Except Status (Option ClusterState × TopologyChange) :=
  match state.activeChange with
  | none => .error ⟨.internal, "active change disappeared"⟩
  | some change =>
      let reset := { change with ranges := change.ranges.map RangeMigration.cleared, phase := .copyingSnapshot }
      .ok (some { state with activeChange := some reset }, reset)

def storeStoppedNode (nodeId : String) (state : ClusterState) :
    Except Status (Option ClusterState × Unit) :=
  match state.activeChange with
  | none => .error ⟨.internal, "active change disappeared"⟩
  | some change => .ok (some { state with
      activeChange := some { change with
        stoppingNodeIds := change.stoppingNodeIds.filter (· ≠ nodeId)
        stopPreparedNodeIds := change.stopPreparedNodeIds.filter (· ≠ nodeId)
        stoppedNodeIds := insertSorted nodeId change.stoppedNodeIds }
      processInstances := state.processInstances.erase nodeId }, ())

def storeStoppingNode (nodeId : String) (state : ClusterState) :
    Except Status (Option ClusterState × Unit) :=
  match state.activeChange with
  | none => .error ⟨.internal, "active change disappeared"⟩
  | some change =>
      if nodeId ∈ change.stoppingNodeIds then .ok (none, ())
      else .ok (some { state with activeChange := some { change with
        stoppingNodeIds := insertSorted nodeId change.stoppingNodeIds } }, ())

def storeStopPreparedNode (nodeId processInstanceId : String) (state : ClusterState) :
    Except Status (Option ClusterState × Unit) :=
  match state.activeChange with
  | none => .error ⟨.internal, "active change disappeared"⟩
  | some change => .ok (some { state with
      activeChange := some { change with
        stoppingNodeIds := change.stoppingNodeIds.filter (· ≠ nodeId)
        stopPreparedNodeIds := insertSorted nodeId change.stopPreparedNodeIds }
      stopConfirmations := state.stopConfirmations.insert nodeId
        (((state.stopConfirmations.lookup nodeId).getD OrderedSet.empty).insert processInstanceId) }, ())

def internalRepository {α : Type} (result : Except RepositoryError α) : Except Status α :=
  result.mapError fun error => ⟨.internal, error.message⟩

end ClusterState

def changedDestination (state : ClusterState) (destinations : FiniteMap String (String × String)) :
    Option String :=
  (destinations.entries.find? fun entry =>
    state.processInstances.lookup entry.1 ≠ some entry.2.2).map (·.1)

namespace ClusterState

/-- The publication of a range copy: `none` when a destination process changed. -/
def publishCopied (change : TopologyChange) (destinations : FiniteMap String (String × String))
    (state : ClusterState) :
    Except Status (Option ClusterState × Option String) :=
  match changedDestination state destinations with
  | some nodeId => .ok (none, some nodeId)
  | none =>
      match state.activeChange with
      | none => .error ⟨.internal, "active change disappeared"⟩
      | some active =>
          if changeIdentity active ≠ changeIdentity change then
            .error ⟨.failedPrecondition, "active topology change changed before publication"⟩
          else do
            let next ← internalRepository ({ state with
              activeChange := some { active with phase := .published }
              committed := active.targetTopology } : ClusterState).reconcileReplicaRepairs
            return (some next, none)

/-- Identical placements plus the catch-up barrier carry the admissions over. -/
def publishPolicy (change : TopologyChange) (state : ClusterState) :
    Except Status (Option ClusterState × Unit) :=
  match state.activeChange with
  | none => .error ⟨.failedPrecondition, "policy transition changed before publication"⟩
  | some active =>
      if changeIdentity active ≠ changeIdentity change then
        .error ⟨.failedPrecondition, "policy transition changed before publication"⟩
      else do
        let epoch := change.targetTopology.epoch
        let next ← internalRepository ({ state with
          activeChange := some { active with phase := .published }
          committed := change.targetTopology
          replicaAdmissions := state.replicaAdmissions.map fun admission => { admission with epoch }
          replicaRepairs := state.replicaRepairs.map fun repair => { repair with epoch } } :
            ClusterState).reconcileReplicaRepairs
        return (some next, ())

/-- The publication that returns a failed pure join to its original members. -/
def publishRecovery (state snapshot : ClusterState) (change recovery : TopologyChange)
    (failedNodeId : String) :
    Except Status (Option ClusterState × Bool) :=
  if ¬state.activeIs change ∨ state.committed ≠ snapshot.committed then .ok (none, false)
  else do
    let next ← internalRepository ({ state with
      committed := recovery.targetTopology
      activeChange := some recovery
      supersededChange := some change
      fencedNodes := state.fencedNodes.insert failedNodeId
      processInstances := state.processInstances.erase failedNodeId
      replicaAdmissions := []
      replicaRepairs := []
      recoveryBlockReason := "" } : ClusterState).reconcileReplicaRepairs
    return (some next, true)

def publishFailed (change : TopologyChange) (failedNodeId : String) (coordinator : Coordinator) :
    Except Status (Option ClusterState × Unit) := do
  let state := coordinator.state
  state.proveFailureCoverage change.targetTopology coordinator.memory.leaseGrants coordinator.now
  if failedNodeId ∉ state.fencedNodes ∨ ¬state.activeIs change then
    throw ⟨.failedPrecondition, "failure transition lost its durable fence"⟩
  let next ← state.publishRemovedTopology change .failed
  return (some next, ())

def publishMerged (state snapshot : ClusterState) (change : TopologyChange)
    (admissions : List ReplicaAdmission) :
    Except Status (Option ClusterState × Unit) := do
  if state.committed ≠ snapshot.committed ∨
      ¬state.processInstances.entries.Perm snapshot.processInstances.entries ∨
      state.replicaAdmissions ≠ snapshot.replicaAdmissions ∨ state.fencedNodes ≠ snapshot.fencedNodes ∨
      ¬state.activeIs change then
    throw ⟨.failedPrecondition, "merge coverage changed before publication"⟩
  let next ← state.publishRemovedTopology change (.graceful admissions)
  return (some next, ())

end ClusterState

namespace Coordination

variable (settings : CoordinatorSettings)

def setPhase (phase : MigrationPhase) : Coordination Unit :=
  update fun coordinator => coordinator.state.setPhase phase

/-- The durations themselves are not modelled; the store is. -/
def storeTimings : Coordination Unit := update fun coordinator => coordinator.state.alterChange id

def storeRangeProgress (progress : RangeMigration) : Coordination Unit :=
  update fun coordinator => coordinator.state.storeRangeProgress progress

def setRecoveryBlockReason (reason : String) : Coordination Unit :=
  update fun coordinator => coordinator.state.setRecoveryBlockReason reason

def setActivationReady : Coordination Unit :=
  update fun coordinator => coordinator.state.setActivationReady

def storeStoppedNode (nodeId : String) : Coordination Unit :=
  update fun coordinator => coordinator.state.storeStoppedNode nodeId

def storeStoppingNode (nodeId : String) : Coordination Unit :=
  update fun coordinator => coordinator.state.storeStoppingNode nodeId

def storeStopPreparedNode (nodeId processInstanceId : String) : Coordination Unit :=
  update fun coordinator => coordinator.state.storeStopPreparedNode nodeId processInstanceId

def clearPrepublicationNodes (change : TopologyChange) : Coordination Unit := do
  let deadline ← newDeadline settings
  calls (NodeCalls.clearPrepublicationNodes change settings.rangeMoveConcurrency deadline)

def finishAbort (change : TopologyChange) : Coordination Unit := do
  let deadline ← newDeadline settings
  calls do
    NodeCalls.clearPrepublicationNodes change settings.rangeMoveConcurrency deadline
    if change.directMerge then NodeCalls.setDirectMergeFence change false true deadline
    else if change.ranges.isEmpty ∧ change.replicaObligations.isEmpty then
      NodeCalls.policyFenceMembers change false deadline
  setPhase .aborted

def abortPrepublicationChange (change : TopologyChange) : Coordination Unit := do
  setPhase .aborting
  finishAbort settings change

def isTransient (status : Status) : Bool := status.code = .unavailable ∨ status.code = .deadlineExceeded

def abortAfterError (change : TopologyChange) (original : Status) (retryTransient : Bool) :
    Coordination TopologyChange := do
  if retryTransient ∧ isTransient original then
    -- A network-interrupted change stays recoverable: the next pass repeats the cleanup.
    setPhase .resetting
    match ← Program.attempt (clearPrepublicationNodes settings change) with
    | .error cleanup =>
        throw ⟨.unavailable,
          s!"migration interrupted ({original.message}); cleanup remains pending ({cleanup.message})"⟩
    | .ok _ => throw original
  match ← Program.attempt (abortPrepublicationChange settings change) with
  | .ok _ => throw original
  | .error cleanup =>
      throw ⟨.internal, s!"migration failed ({original.message}); cleanup remains pending ({cleanup.message})"⟩

def resetPrepublicationAttempt (change : TopologyChange) : Coordination TopologyChange := do
  setPhase .resetting
  clearPrepublicationNodes settings change
  update fun coordinator => coordinator.state.resetAttempt

def needsReplicaBarrier (topology : TopologySnapshot) : Bool :=
  topology.writeAckPolicy ≠ .ownerOnly ∨ 1 < topology.writeAvailabilityGuard.minimumAdmittedCopies ∨
    0 < topology.writeAvailabilityGuard.minimumHealthyFollowers

/-- The latest deadline of a grant of any node, or the start of this process. -/
def lastGrant (memory : CoordinatorMemory) : Instant :=
  (memory.leaseGrants.values.map (·.expiresAt)).foldl
    (fun latest expiry => some (max (latest.getD expiry) expiry))
    none |>.getD memory.startupAt

def abortOriginalRanges (original : TopologyChange) (deadline : Instant) : List RangeMigration →
    NodeCalls Unit
  | [] => pure ()
  | range :: rest => do
      connectNode range.sourceEndpoint deadline
      rpcBefore deadline range.sourceEndpoint (.abortRangeMigration (original.control range))
      abortOriginalRanges original deadline rest

def finishRecoveredChange (change : TopologyChange) : Coordination TopologyChange := do
  let some original ← observe (·.state.supersededChange)
    | throw ⟨.failedPrecondition, "superseded change is missing from durable state"⟩
  let deadline ← newDeadline settings
  calls (NodeCalls.installOnMembersWithLease change.targetTopology deadline false
    change.targetTopology.members)
  let safeAt ← observe fun coordinator =>
    max (lastGrant coordinator.memory) (coordinator.memory.startupAt + coordinator.memory.leaseDuration)
  sleepUntil safeAt
  let deadline ← newDeadline settings
  calls (abortOriginalRanges original deadline original.ranges)
  if needsReplicaBarrier change.targetTopology then seedRepairsForActivation settings
  setActivationReady
  let deadline ← newDeadline settings
  calls (NodeCalls.installOnMembers change.targetTopology change.targetTopology.members deadline)
  setPhase .complete
  return { change with activationReady := true, phase := .complete }

/-- A `BTreeMap` from node IDs: sorted, the last entry of a node wins. -/
def nodesOf {ν : Type} (entries : List (String × ν)) : List (String × ν) :=
  ((entries.map (·.1)).dedup.mergeSort fun left right => left ≤ right).filterMap fun nodeId =>
    entries.reverse.find? fun entry => entry.1 = nodeId

/-- The old owners of the moving ranges, one entry for each node. -/
def sourceMembers (ranges : List RangeMigration) : List Member :=
  (nodesOf (ranges.map fun range => (range.sourceNodeId, range.sourceEndpoint))).map
      fun (nodeId, endpoint) =>
    { nodeId, endpoint }

structure RemovedSource where
  nodeId : String
  endpoint : String
  processInstanceId : String

-- A second range of one removed node must name the same endpoint and process.
def removedSources (targetIds : List String) : List RangeMigration → FiniteMap String (String × String) →
    Except Status (List RemovedSource)
  | [], found => .ok (nodesOf (found.entries.map fun entry => (entry.1, entry.2))
      |>.map fun (nodeId, endpoint, processInstanceId) => { nodeId, endpoint, processInstanceId })
  | range :: rest, found =>
      if range.sourceNodeId ∈ targetIds then removedSources targetIds rest found
      else if range.sourceProcessInstanceId.isEmpty then
        .error ⟨.dataLoss, s!"missing process instance for removed node {range.sourceNodeId}"⟩
      else
        let value := (range.sourceEndpoint, range.sourceProcessInstanceId)
        if (found.lookup range.sourceNodeId).any (· ≠ value) then
          .error ⟨.dataLoss, s!"removed node {range.sourceNodeId} changed process instance during migration"⟩
        else removedSources targetIds rest (found.insert range.sourceNodeId value)

/-- Asking a process to stop once it has acknowledged that it will: `false` when
it is gone already or another process answers at its endpoint. -/
def stopProcess (source : RemovedSource) (deadline : Instant) : NodeCalls Unit := do
  match ← Program.attempt (connectNode source.endpoint deadline) with
  | .error error => if isAbsenceStatus error then return else throw error
  | .ok _ =>
      match ← Program.attempt (rpcBefore deadline source.endpoint .getProcessInfo) with
      | .error error => if isAbsenceStatus error then return else throw error
      | .ok actual =>
          if actual.nodeId = source.nodeId ∧ actual.processInstanceId = source.processInstanceId then
            match ← Program.attempt (rpcBefore deadline source.endpoint
                (.stop source.nodeId source.processInstanceId)) with
            | .error error => if isAbsenceStatus error then return else throw error
            | .ok _ => return

def prepareRemovedSource (change : TopologyChange) (source : RemovedSource) (deadline : Instant) :
    Coordination Bool :=
  if source.nodeId ∈ change.stopPreparedNodeIds then pure false
  else do
    calls (connectNode source.endpoint deadline)
    let actual ← calls (rpcBefore deadline source.endpoint .getProcessInfo)
    if actual.nodeId ≠ source.nodeId ∨ actual.processInstanceId ≠
      source.processInstanceId then return true
    calls (rpcBefore deadline source.endpoint (.prepareStop source.nodeId source.processInstanceId))
    storeStopPreparedNode source.nodeId source.processInstanceId
    return false

def stopRemovedSource (change : TopologyChange) (source : RemovedSource) (deadline : Instant) :
    Coordination Unit := do
  if source.nodeId ∈ change.stoppedNodeIds then return
  if source.nodeId ∉ change.stoppingNodeIds ∧ source.nodeId ∉ change.stopPreparedNodeIds then
    storeStoppingNode source.nodeId
  let replaced ← prepareRemovedSource change source deadline
  if ¬replaced then calls (stopProcess source deadline)
  storeStoppedNode source.nodeId

def stopEachRemoved (change : TopologyChange) (deadline : Instant) : List RemovedSource →
    Coordination Unit
  | [] => pure ()
  | source :: rest => do
      stopRemovedSource change source deadline
      stopEachRemoved change deadline rest

/-- Installation on old owners first, then on the new ones, then on everybody else. -/
def installPublished (change : TopologyChange) (deadline : Instant) : NodeCalls Unit := do
  let target := change.targetTopology
  let needsActivation := ¬change.activationReady
  if needsActivation then
    NodeCalls.installOnMembersWithLease target deadline false (sourceMembers change.ranges)
  let destinationIds := change.ranges.map (·.destinationNodeId)
  NodeCalls.installOnMembersWithLease target deadline (¬needsActivation)
    (target.members.filter fun member => member.nodeId ∈ destinationIds)
  NodeCalls.installOnMembersWithLease target deadline (¬needsActivation)
    (target.members.filter fun member => member.nodeId ∉ destinationIds)
  let leaving := change.stoppingNodeIds ++ change.stopPreparedNodeIds ++ change.stoppedNodeIds
  let removed := change.ranges.filter fun range =>
    range.sourceNodeId ∉ target.members.map (·.nodeId) ∧ range.sourceNodeId ∉ leaving
  NodeCalls.installOnMembers target (sourceMembers removed) deadline

def activateRanges (change : TopologyChange) (deadline : Instant) : NodeCalls Unit := do
  let _ ← Program.tryMapBounded change.ranges settings.rangeMoveConcurrency fun range => do
    connectNode range.destinationEndpoint deadline
    rpcBefore deadline range.destinationEndpoint (.activateDestinationRange (change.control range))

def cleanSource (change : TopologyChange) (deadline : Instant) (range : RangeMigration) :
    Coordination RangeMigration := do
  calls do
    connectNode range.sourceEndpoint deadline
    rpcBefore deadline range.sourceEndpoint (.cleanupSourceRange (change.control range))
  let cleaned := { range with sourceCleaned := true }
  storeRangeProgress cleaned
  return cleaned

/-- The followers the new owners need, then the leases: the new epoch takes writes. -/
def activatePublished (change : TopologyChange) : Coordination Unit := do
  if needsReplicaBarrier change.targetTopology ∧
    (¬change.ranges.isEmpty ∨ ¬change.replicaObligations.isEmpty) then
    seedRepairsForActivation settings
  setActivationReady
  let deadline ← newDeadline settings
  calls (NodeCalls.installOnMembers change.targetTopology change.targetTopology.members deadline)

def finishPublishedChange (change : TopologyChange) : Coordination TopologyChange := do
  let deadline ← newDeadline settings
  calls do
    installPublished change deadline
    activateRanges settings change deadline
  if ¬change.activationReady then activatePublished settings change
  if change.ranges.isEmpty ∧ change.replicaObligations.isEmpty then
    calls (NodeCalls.policyFenceMembers change false deadline)
  setPhase .cleaningUp
  let leaving := change.stoppingNodeIds ++ change.stopPreparedNodeIds ++ change.stoppedNodeIds
  let toClean := change.ranges.filter fun range => ¬range.sourceCleaned ∧ range.sourceNodeId ∉ leaving
  let _ ← Program.tryMapBounded toClean settings.rangeMoveConcurrency (cleanSource change deadline)
  let removed ← liftExcept (removedSources (change.targetTopology.members.map (·.nodeId)) change.ranges ∅)
  stopEachRemoved change deadline removed
  setPhase .complete
  return { change with activationReady := true, phase := .complete }

/-! A change of policy, replication factor or guard with unchanged placement. -/

structure FollowerReplicaStatus where
  nodeId : String
  admitted : Bool
  lagKnown : Bool
  lagMillis : Nat
  streamCursor : Nat
  streamHead : Nat

structure RangeReplicaStatus where
  startExclusive : Token
  endInclusive : Token
  ownerNodeId : String
  followers : List FollowerReplicaStatus

structure ReplicaStatus where
  topologyEpoch : Nat
  ranges : List RangeReplicaStatus

structure StreamProgress where
  head : Nat
  applied : Nat
  lagMillis : Nat

/-- `read_replication_pair`. -/
def readReplicationPair (epoch : Nat) (pair : StreamPair) (source destination : String)
    (ownerInstance followerInstance : String) (unixMillis : Nat) (deadline : Instant) :
    NodeCalls StreamProgress := do
  let request : ReplicationProgressRequest :=
    { topologyEpoch := epoch, ownerNodeId := pair.1, followerNodeId := pair.2 }
  let head ← rpcBefore deadline source (.getReplicationProgress request)
  let applied ← rpcBefore deadline destination (.getReplicationProgress request)
  if head.processInstanceId ≠ ownerInstance ∨ applied.processInstanceId ≠ followerInstance then
    throw ⟨.failedPrecondition, ""⟩
  if head.streamSequence ≤ applied.streamSequence then
    return { head := head.streamSequence, applied := applied.streamSequence, lagMillis := 0 }
  if head.oldestUnackedUnixMillis = 0 then throw ⟨.failedPrecondition, ""⟩
  return { head := head.streamSequence, applied := applied.streamSequence
           lagMillis := unixMillis - head.oldestUnackedUnixMillis }

def endpointOf (state : ClusterState) (nodeId : String) : Option String :=
  (state.committed.members.find? fun member => member.nodeId = nodeId).map (·.endpoint)

def liveStream (state : ClusterState) (grants : LeaseGrants) (now : Instant) (pair : StreamPair) :
    Option (String × String × String × String) := do
  if ¬state.hasLease grants now pair.1 ∨ ¬state.hasLease grants now pair.2 then none
  return (← endpointOf state pair.1, ← endpointOf state pair.2, ← state.processInstances.lookup pair.1,
    ← state.processInstances.lookup pair.2)

def followerStatus (state : ClusterState) (progress : List (StreamPair × Option StreamProgress))
    (range : DerivedRange)
    (nodeId : String) : FollowerReplicaStatus :=
  let admission := (state.replicaAdmissions.find? fun admission =>
    admission.copy = { startExclusive := range.startExclusive, endInclusive := range.endInclusive
                       ownerNodeId := range.ownerNodeId, nodeId }).filter fun admission =>
      state.processInstances.lookup nodeId = some admission.processInstanceId ∧ nodeId ∉ state.fencedNodes
  let live := ((progress.find? fun entry => entry.1 = (range.ownerNodeId, nodeId)).bind (·.2))
  { nodeId
    admitted := admission.isSome
    lagKnown := live.isSome
    lagMillis := (live.map (·.lagMillis)).getD 0
    streamCursor := (live.map (·.applied) <|> admission.map (·.streamCursor)).getD 0
    streamHead := (live.map (·.head)).getD 0 }

/-- `get_replica_status`, as far as the policy barrier reads it. -/
def getReplicaStatus : Coordination ReplicaStatus := do
  let (state, grants, now, unixMillis) ← observe fun coordinator =>
    (coordinator.state, coordinator.memory.leaseGrants, coordinator.now, coordinator.unixMillis)
  let pairs := ClusterState.orderedPairs (state.replicaRepairs.map (·.pair))
  let progress ← calls (Program.tryMapBounded pairs settings.rangeMoveConcurrency fun pair => do
    match liveStream state grants now pair with
    | none => return (pair, none)
    | some (source, destination, ownerInstance, followerInstance) =>
        let read ← Program.attempt
            (readReplicationPair state.committed.epoch pair source destination ownerInstance
          followerInstance unixMillis (now + 500 * nanosPerMilli))
        return (pair, read.toOption))
  let ranges ← liftExcept (ClusterState.internalTopology state.committed.derivedRanges)
  return { topologyEpoch := state.committed.epoch
           ranges := ranges.map fun range =>
             { startExclusive := range.startExclusive, endInclusive := range.endInclusive
               ownerNodeId := range.ownerNodeId
               followers := range.followerNodeIds.map (followerStatus state progress range) } }

namespace FollowerReplicaStatus

def caughtUp (follower : FollowerReplicaStatus) : Bool :=
  follower.lagKnown ∧ follower.streamCursor = follower.streamHead

def ready (guard : WriteAvailabilityGuard) (follower : FollowerReplicaStatus) : Bool :=
  follower.admitted ∧ follower.lagKnown ∧ follower.lagMillis ≤ guard.maxReplicaLagMillis ∧
    follower.streamCursor = follower.streamHead

end FollowerReplicaStatus

def rangeReady (topology : TopologySnapshot) (status : ReplicaStatus) (range : DerivedRange) : Bool :=
  let guard := topology.writeAvailabilityGuard
  match status.ranges.find? fun actual =>
      actual.startExclusive = range.startExclusive ∧ actual.endInclusive = range.endInclusive ∧
        actual.ownerNodeId = range.ownerNodeId with
  | none => false
  | some actual =>
      let admitted := (actual.followers.filter (·.admitted)).length
      let healthy := (actual.followers.filter (·.ready guard)).length
      (actual.followers.all fun follower => ¬follower.admitted ∨ follower.caughtUp) &&
        decide (guard.minimumAdmittedCopies ≤ admitted + 1) && decide
          (guard.minimumHealthyFollowers ≤ healthy) &&
        (topology.writeAckPolicy ≠ .allReplicas || topology.desiredReplicationFactor ≤
          range.followerNodeIds.length + 1) &&
        (ClusterState.policyFollowers topology range).all fun nodeId =>
          actual.followers.any fun follower => follower.nodeId = nodeId ∧ follower.ready guard

/-- `policy_readiness_verified`. -/
def policyReadinessVerified (topology : TopologySnapshot) (status : ReplicaStatus) : Bool :=
  status.topologyEpoch = topology.epoch - 1 &&
    match topology.derivedRanges with
    | .error _ => false
    | .ok ranges => ranges.all (rangeReady topology status)

/-- `timeout_at`: the program may be dropped for having taken too long. -/
def timeoutAt {α : Type} (message : String) (program : Coordination α) : Coordination α :=
  ExceptT.mk (Program.interruptible (.done (.error ⟨.deadlineExceeded, message⟩)) program.run)

/-- Waiting for the followers under the write fence; `none` once they are ready. -/
def awaitPolicyReadiness (change : TopologyChange) (deadline : Instant) :
    Coordination (Option (Status × Bool)) :=
  Program.tryLoop (fun _ => do
    match ← Program.attempt (timeoutAt "policy readiness barrier timed out"
      (getReplicaStatus settings)) with
    | .error error => return .inr (some (error, true))
    | .ok status =>
        if policyReadinessVerified change.targetTopology status then return .inr none
        let late ← observe fun coordinator => decide (deadline ≤ coordinator.now)
        return if late then .inr (some (⟨.deadlineExceeded,
          "required followers did not catch up before policy publication"⟩, false)) else .inl ()) ()

def recheckPolicyReadiness (change : TopologyChange) : Coordination Unit := do
  let status ← timeoutAt "policy readiness recheck timed out" (getReplicaStatus settings)
  if ¬policyReadinessVerified change.targetTopology status then
    throw ⟨.failedPrecondition, "policy readiness was lost before publication"⟩

def executePolicyChange (change : TopologyChange) (retryTransient : Bool) :
    Coordination TopologyChange := do
  let deadline ← newDeadline settings
  setPhase .pausingWrites
  match ← Program.attempt (calls (NodeCalls.policyFenceMembers change true deadline)) with
  | .error error => abortAfterError settings change error retryTransient
  | .ok _ =>
  match ← Program.attempt (setPhase .verifying) with
  | .error error => abortAfterError settings change error retryTransient
  | .ok _ =>
  match ← awaitPolicyReadiness settings change deadline with
  | some (error, transient) => abortAfterError settings change error (transient && retryTransient)
  | none =>
  match ← Program.attempt (setPhase .readyToPublish) with
  | .error error => abortAfterError settings change error retryTransient
  | .ok _ =>
  match ← Program.attempt (recheckPolicyReadiness settings change) with
  | .error error => abortAfterError settings change error retryTransient
  | .ok _ =>
  match ← Program.attempt (update fun coordinator => coordinator.state.publishPolicy change) with
  | .error error => abortAfterError settings change error retryTransient
  | .ok _ => finishPublishedChange settings { change with phase := .published }

/-! Removing members whose successors already hold their data. -/

def mergeGroups (snapshot : ClusterState) (missing : List StreamPair) :
    Except Status (List (List ReplicaRepair)) :=
  missing.mapM fun pair =>
    let tasks := snapshot.replicaRepairs.filter fun task =>
      task.epoch = snapshot.committed.epoch ∧ task.ownerNodeId = pair.1 ∧ task.nodeId = pair.2
    if tasks.isEmpty then
      .error ⟨.failedPrecondition, s!"missing old-topology repair stream from {pair.1} to {pair.2}"⟩
    else .ok tasks

def prepareDirectMergeCoverage (change : TopologyChange) : Coordination Unit := do
  cleanupInterruptedRepairs settings
  let snapshot ← readState
  if ¬canPrepareDirectMerge snapshot.committed change then
    throw ⟨.failedPrecondition, "removal can no longer use the natural successor merge"⟩
  let missing ← liftExcept (snapshot.missingMergeStreams change)
  if missing.isEmpty then return
  setPhase .copyingSnapshot
  let groups ← liftExcept (mergeGroups snapshot missing)
  let _ ← Program.tryMapBounded groups settings.replicaRepairConcurrency (seedReplicaGroup settings)
  let state ← readState
  if ¬state.canDirectMerge settings.hashing change then
    throw ⟨.failedPrecondition, "prepared successor coverage is incomplete"⟩

/-- `merge_pair_caught_up`. -/
def mergePairCaughtUp (state : ClusterState) (pair : StreamPair) (deadline : Instant) :
    NodeCalls Bool := do
  let some source := endpointOf state pair.1
    | throw ⟨.failedPrecondition, "replication stream member disappeared"⟩
  connectNode source deadline
  let some destination := endpointOf state pair.2
    | throw ⟨.failedPrecondition, "replication stream member disappeared"⟩
  connectNode destination deadline
  let request : ReplicationProgressRequest :=
    { topologyEpoch := state.committed.epoch, ownerNodeId := pair.1, followerNodeId := pair.2 }
  let head ← rpcBefore deadline source (.getReplicationProgress request)
  let cursor ← rpcBefore deadline destination (.getReplicationProgress request)
  if state.processInstances.lookup pair.1 ≠ some head.processInstanceId ∨
      state.processInstances.lookup pair.2 ≠ some cursor.processInstanceId then
    throw ⟨.failedPrecondition, "replication participant changed process"⟩
  return decide (head.streamSequence ≤ cursor.streamSequence)

def catchUpRequired (state : ClusterState) (deadline : Instant) : List StreamPair → Coordination Unit
  | [] => pure ()
  | pair :: rest => do
      Program.tryLoop (fun _ => do
        if ← calls (mergePairCaughtUp state pair deadline) then return .inr ()
        let late ← observe fun coordinator => decide (deadline ≤ coordinator.now)
        if late then throw ⟨.deadlineExceeded, "natural successor did not catch up"⟩
        return .inl ()) ()
      catchUpRequired state deadline rest

def catchUpOptional (state : ClusterState) (deadline : Instant) : List StreamPair →
    NodeCalls (List StreamPair)
  | [] => pure []
  | pair :: rest => do
      let caughtUp ← Program.attempt (mergePairCaughtUp state pair deadline)
      let later ← catchUpOptional state deadline rest
      return if caughtUp.toOption = some true then pair :: later else later

def carriedAdmissions (candidates : List CandidateAdmission) (caughtUp : List StreamPair) :
    List ReplicaAdmission :=
  (candidates.filter fun candidate => candidate.pairs.all fun pair => caughtUp.contains pair).map
    (·.admission)

/-- From the write fence on every old member to the durable publication. -/
def cutOverDirectMerge (change : TopologyChange) (deadline : Instant) : Coordination Unit := do
  calls (NodeCalls.setDirectMergeFence change true true deadline)
  setPhase .verifying
  let snapshot ← readState
  if ¬snapshot.canDirectMerge settings.hashing change then
    throw ⟨.failedPrecondition, "natural successor coverage was lost"⟩
  let (grants, now) ← observe fun coordinator => (coordinator.memory.leaseGrants, coordinator.now)
  liftExcept (snapshot.proveRemovalOwnerLeases change.targetTopology grants now)
  let proof ← liftExcept (snapshot.mergeProof settings.hashing change)
  storeTimings
  catchUpRequired snapshot deadline proof.required
  let optional := (proof.candidates.flatMap (·.pairs)).dedup.filter fun pair =>
      ¬proof.required.contains pair
  let alsoCaughtUp ← calls (catchUpOptional snapshot deadline optional)
  let carried := carriedAdmissions proof.candidates (proof.required ++ alsoCaughtUp)
  setPhase .readyToPublish
  update fun coordinator => coordinator.state.publishMerged snapshot change carried

def removedMembers (base target : TopologySnapshot) : List Member :=
  base.members.filter fun member => member.nodeId ∉ target.members.map (·.nodeId)

/-- Installs the target on the removed members; one that cannot be reached counts
as stopped. Answers the IDs now recorded as stopped. -/
def installOnRemoved (target : TopologySnapshot) (deadline : Instant) : List String → List Member →
    Coordination (List String)
  | stopped, [] => pure stopped
  | stopped, member :: rest => do
      if member.nodeId ∈ stopped then installOnRemoved target deadline stopped rest
      else
        match ← Program.attempt (calls
          (NodeCalls.installOnMembersWithLease target deadline false [member])) with
        | .ok _ => installOnRemoved target deadline stopped rest
        | .error error =>
            if isAbsenceStatus error then
              storeStoppedNode member.nodeId
              installOnRemoved target deadline (stopped ++ [member.nodeId]) rest
            else throw error

/-- The process to stop, or `none` when it is gone or replaced. -/
def askToStop (member : Member) (processInstanceId : String) (deadline : Instant) : NodeCalls Bool := do
  match ← Program.attempt (connectNode member.endpoint deadline) with
  | .error error => if isAbsenceStatus error then return false else throw error
  | .ok _ =>
      match ← Program.attempt (rpcBefore deadline member.endpoint .getProcessInfo) with
      | .error error => if isAbsenceStatus error then return false else throw error
      | .ok info =>
          if info.nodeId = member.nodeId ∧ info.processInstanceId = processInstanceId then
            rpcBefore deadline member.endpoint (.prepareStop member.nodeId processInstanceId)
            return true
          else return false

def stopPrepared (member : Member) (processInstanceId : String) (deadline : Instant) :
    Coordination Unit := do
  storeStopPreparedNode member.nodeId processInstanceId
  match ← Program.attempt (calls
    (rpcBefore deadline member.endpoint (.stop member.nodeId processInstanceId))) with
  | .ok _ => pure ()
  | .error error => if isAbsenceStatus error then pure () else throw error

def stopMember (member : Member) (deadline : Instant) : Coordination Unit := do
  match ← observe fun coordinator => coordinator.state.processInstances.lookup member.nodeId with
  | none => storeStoppedNode member.nodeId
  | some processInstanceId =>
      storeStoppingNode member.nodeId
      if ← calls (askToStop member processInstanceId deadline) then stopPrepared member processInstanceId deadline
      storeStoppedNode member.nodeId

def stopEachMember (stopped : List String) (deadline : Instant) : List Member → Coordination Unit
  | [] => pure ()
  | member :: rest => do
      if member.nodeId ∉ stopped then stopMember member deadline
      stopEachMember stopped deadline rest

def finishDirectMerge (change : TopologyChange) : Coordination TopologyChange := do
  let deadline ← newDeadline settings
  let some base := change.baseTopology | throw ⟨.internal, "direct merge omitted base topology"⟩
  let removed := removedMembers base change.targetTopology
  let stopped ← installOnRemoved change.targetTopology deadline change.stoppedNodeIds removed
  calls do
    NodeCalls.installOnMembers change.targetTopology change.targetTopology.members deadline
    NodeCalls.setDirectMergeFence change false false deadline
  setPhase .cleaningUp
  stopEachMember stopped deadline removed
  setPhase .complete
  return { change with phase := .complete }

def executeDirectMerge (change : TopologyChange) (retryTransient : Bool) :
    Coordination TopologyChange := do
  match ← Program.attempt (prepareDirectMergeCoverage settings change) with
  | .error error =>
      -- Preparing never fences writes, so there is no fence to release here.
      cleanupInterruptedRepairs settings
      if ¬(retryTransient ∧ isTransient error) then setPhase .aborted
      throw error
  | .ok _ =>
      let deadline ← newDeadline settings
      setPhase .pausingWrites
      match ← Program.attempt (cutOverDirectMerge settings change deadline) with
      | .error error => abortAfterError settings change error retryTransient
      | .ok _ => finishDirectMerge settings { change with phase := .published, activationReady := true }

/-! Removing a member that was confirmed as failed. -/

def forgetNode (nodeId : String) (memory : CoordinatorMemory) : CoordinatorMemory :=
  { memory with
    leaseGrants := memory.leaseGrants.erase nodeId
    peerFailures := memory.peerFailures.retain fun key _ => key.1 ≠ nodeId ∧ key.2 ≠ nodeId }

def finishFailedChange (change : TopologyChange) : Coordination TopologyChange := do
  let deadline ← newDeadline settings
  calls (NodeCalls.installOnMembers change.targetTopology change.targetTopology.members deadline)
  setPhase .complete
  match change.failedNodeId with
  | none => pure ()
  | some nodeId => modify fun memory => ((), forgetNode nodeId memory)
  return { change with phase := .complete }

def executeFailedChange (change : TopologyChange) (failedNodeId : String) : Coordination TopologyChange :=
  match change.phase with
  | .complete => pure change
  | .published | .cleaningUp => finishFailedChange settings change
  | .aborted => throw ⟨.failedPrecondition, "failure transition was aborted"⟩
  | _ => do
      cleanupInterruptedRepairs settings
      -- A restart forgets the last grant; waiting out a full lease covers it.
      let safeAt ← observe fun coordinator =>
        let memory := coordinator.memory
        max (((memory.leaseGrants.lookup failedNodeId).map (·.expiresAt)).getD memory.startupAt)
          (memory.startupAt + memory.leaseDuration)
      sleepUntil safeAt
      update (ClusterState.publishFailed change failedNodeId)
      finishFailedChange settings { change with phase := .published }

/-! A range copy: snapshot and changelog while writes go on, then a fence, a
verified final replay, and the publication. -/

def copyAndStore (change : TopologyChange) (deadline : Instant) (range : RangeMigration) :
    Coordination RangeMigration := do
  let progress ← calls (NodeCalls.copyRange change range deadline)
  storeRangeProgress progress
  return progress

def finalizeAndStore (change : TopologyChange) (watermarks : List (String × Nat)) (deadline : Instant)
    (range : RangeMigration) : Coordination RangeMigration := do
  let finalWatermark := ((watermarks.find? fun entry => entry.1 = range.rangeId).map (·.2)).getD 0
  let (progress, _) ← calls (NodeCalls.finalizeRange change range finalWatermark deadline)
  storeRangeProgress progress
  return progress

def executeCopyChange (change : TopologyChange) (retryTransient : Bool) :
    Coordination TopologyChange := do
  let deadline ← newDeadline settings
  setPhase .copyingSnapshot
  match ← Program.attempt (Program.tryMapBounded change.ranges settings.rangeMoveConcurrency
      (copyAndStore change deadline)) with
  | .error error => abortAfterError settings change error retryTransient
  | .ok copied =>
  let change := copied.foldl replaceRangeProgress change
  setPhase .replayingChangelog
  setPhase .pausingWrites
  match ← Program.attempt (calls (Program.tryMapBounded change.ranges settings.rangeMoveConcurrency
      fun range => do
      return (range.rangeId, ← NodeCalls.pauseRange change range deadline))) with
  | .error error => abortAfterError settings change error retryTransient
  | .ok watermarks =>
  match ← Program.attempt (setPhase .verifying) with
  | .error error => abortAfterError settings change error retryTransient
  | .ok _ =>
  match ← Program.attempt (Program.tryMapBounded change.ranges settings.rangeMoveConcurrency
      (finalizeAndStore change watermarks deadline)) with
  | .error error => abortAfterError settings change error retryTransient
  | .ok finalized =>
  let change := finalized.foldl replaceRangeProgress change
  setPhase .readyToPublish
  match ← Program.attempt (calls (NodeCalls.verifyDestinationInstances change deadline)) with
  | .error error => abortAfterError settings change error retryTransient
  | .ok _ =>
  let destinations ← liftExcept (destinationInstances change)
  match ← update fun coordinator => coordinator.state.publishCopied change destinations with
  | some nodeId =>
      let error : Status := ⟨.failedPrecondition,
          s!"destination process changed before publication: {nodeId}"⟩
      abortAfterError settings change error retryTransient
  | none => finishPublishedChange settings { change with phase := .published }

def isPolicyChange (state : ClusterState) (change : TopologyChange) : Bool :=
  change.ranges.isEmpty ∧ change.replicaObligations.isEmpty ∧
    change.targetTopology.members = state.committed.members ∧ change.targetTopology.config ≠
      state.committed.config

def startAttempt (change : TopologyChange) (retryTransient : Bool) : Coordination TopologyChange := do
  if change.directMerge then executeDirectMerge settings change retryTransient
  else if isPolicyChange (← readState) change then executePolicyChange settings change false
  else executeCopyChange settings change retryTransient

def executeActive (change : TopologyChange) (retryTransient : Bool) : Coordination TopologyChange :=
  match change.phase with
  | .complete => pure change
  | .aborted => throw ⟨.failedPrecondition, "the topology change was aborted"⟩
  | .aborting => do
      finishAbort settings change
      return { change with phase := .aborted }
  | .published | .cleaningUp =>
      if change.directMerge then finishDirectMerge settings change
      else if change.supersedesChangeId.isSome then finishRecoveredChange settings change
      else finishPublishedChange settings change
  | .planned => startAttempt settings change retryTransient
  | .resetting | .copyingSnapshot | .replayingChangelog | .pausingWrites | .verifying |
      .readyToPublish => do
      let reset ← resetPrepublicationAttempt settings change
      startAttempt settings reset retryTransient

/-- `execute_change`, from the execution lock on. -/
def executeChange (expected : ChangeIdentity) (retryTransient : Bool) : Coordination TopologyChange := do
  let some change ← observe (·.state.activeChange) | throw ⟨.failedPrecondition, "no topology change is active"⟩
  if changeIdentity change ≠ expected then
    throw ⟨.failedPrecondition, "active topology change does not match the execute request"⟩
  match change.failedNodeId with
  | some failedNodeId => executeFailedChange settings change failedNodeId
  | none => executeActive settings change retryTransient

end Coordination
end Hashring
