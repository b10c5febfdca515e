import Hashring.Coordinator

/-! Copying ranges to their followers (crates/hashring-coordinator/src/repair.rs):
a repair group holds all ranges of one owner-to-follower stream, is copied while
writes go on, verified under a short fence, and admitted in one store. -/
namespace Hashring

/-- `replica_repair_control`: the same task always gets the same ID. -/
def replicaRepairControl (hashing : Hashing) (task : ReplicaRepair) : RangeKey :=
  let id := "repair-" ++ hex
      (hashing.blake3 (utf8 "hashring-rs:replica-repair:v1" ++ [byte 0] ++ beBytes task.epoch ++
    beBytes task.startExclusive ++ beBytes task.endInclusive ++ utf8 task.ownerNodeId ++
      utf8 task.nodeId))
  { changeId := id, rangeId := id }

structure CopiedReplicaSeed where
  task : ReplicaRepair
  change : TopologyChange
  range : RangeMigration
  control : RangeKey
  followerInstance : String

structure PreparedReplicaSeed where
  task : ReplicaRepair
  control : RangeKey
  admission : ReplicaAdmission

def replaceFirst {α : Type} (pick : α → Bool) (change : α → α) : List α → Option (List α)
  | [] => none
  | head :: rest =>
      if pick head then some (change head :: rest) else (replaceFirst pick change rest).map (head :: ·)

namespace ReplicaRepair

def sameTask (task repair : ReplicaRepair) : Bool := repair.epoch = task.epoch ∧ repair.copy = task.copy

def pair (repair : ReplicaRepair) : StreamPair := (repair.ownerNodeId, repair.nodeId)

/-- A failed attempt waits 2, 4, ..., at most 60 seconds before the next one. -/
def backOff (now : Nat) (error : Status) (repair : ReplicaRepair) : ReplicaRepair :=
  let retryCount := min (repair.retryCount + 1) (2 ^ 32 - 1)
  { repair with
    retryCount
    nextAttemptUnixMillis := min (now + min (2 ^ min retryCount 6) 60 * 1000) (2 ^ 64 - 1)
    lastError := String.ofList (error.message.toList.take 256) }

end ReplicaRepair

namespace ClusterState

def setRepairPhases (tasks : List ReplicaRepair) (phase : ReplicaRepairPhase) (state : ClusterState) :
    Except Status (Option ClusterState × Unit) :=
  match tasks.foldlM (fun repairs task =>
      replaceFirst task.sameTask (fun repair => { repair with phase }) repairs) state.replicaRepairs with
  | none => .error ⟨.failedPrecondition, "replica repair was invalidated"⟩
  | some replicaRepairs => .ok (some { state with replicaRepairs }, ())

def admitSeed (state : ClusterState) (seed : PreparedReplicaSeed) : Except Status ClusterState :=
  if state.committed.epoch ≠ seed.task.epoch ∨
      state.processInstances.lookup seed.task.nodeId ≠ some seed.admission.processInstanceId then
    .error ⟨.failedPrecondition, "replica changed before durable admission"⟩
  else
    match replaceFirst seed.task.sameTask
        (fun repair => { repair with phase := .complete, retryCount := 0, nextAttemptUnixMillis := 0, lastError := "" })
        state.replicaRepairs with
    | none => .error ⟨.failedPrecondition, "replica repair was invalidated"⟩
    | some replicaRepairs => .ok { state with
        replicaRepairs
        replicaAdmissions := (state.replicaAdmissions.filter fun existing =>
          ¬(existing.epoch = seed.task.epoch ∧ existing.copy = seed.task.copy)) ++ [seed.admission] }

def storeRepairAdmissions (seeds : List PreparedReplicaSeed) (state : ClusterState) :
    Except Status (Option ClusterState × Unit) := do
  let next ← seeds.foldlM admitSeed state
  return (some next, ())

def recordRepairFailure (tasks : List ReplicaRepair) (error : Status) (now : Nat) (state : ClusterState) :
    Except Status (Option ClusterState × Unit) :=
  let next : ClusterState := { state with replicaRepairs := tasks.foldl (fun repairs task =>
    (replaceFirst (fun repair => task.sameTask repair ∧ repair.phase ≠ .complete)
      (ReplicaRepair.backOff now error) repairs).getD repairs) state.replicaRepairs }
  if next ≠ state then .ok (some next, ()) else .ok (none, ())

def repairGroup (state : ClusterState) (pair : StreamPair) : List ReplicaRepair :=
  state.replicaRepairs.filter fun repair => repair.pair = pair

/-- The pairs a `BTreeMap` over them would list. -/
def orderedPairs (pairs : List StreamPair) : List StreamPair :=
  pairs.dedup.mergeSort fun left right => left.1 < right.1 ∨ left.1 = right.1 ∧ left.2 ≤ right.2

def groupDue (now : Nat) (group : List ReplicaRepair) : Bool :=
  (group.any fun repair => repair.phase = .pending) &&
    group.all fun repair => repair.phase = .complete ∨ repair.nextAttemptUnixMillis ≤ now

/-- `sort_due_repair_groups`: fewest failed attempts first, then the largest group. -/
def sortDueRepairGroups (groups : List (List ReplicaRepair)) : List (List ReplicaRepair) :=
  let attempts := fun group : List ReplicaRepair => (group.map (·.retryCount)).foldl max 0
  groups.mergeSort fun left right =>
    attempts left < attempts right ∨ attempts left = attempts right ∧ right.length ≤ left.length

def dueRepairGroups (state : ClusterState) (now : Nat) : List (List ReplicaRepair) :=
  let registered := state.replicaRepairs.filter fun repair =>
    (state.processInstances.lookup repair.ownerNodeId).isSome ∧
      (state.processInstances.lookup repair.nodeId).isSome
  sortDueRepairGroups (((orderedPairs (registered.map (·.pair))).map fun pair =>
    registered.filter fun repair => repair.pair = pair).filter (groupDue now))

def selectDueRepairGroups (now : Nat) (state : ClusterState) :
    Except Status (Option ClusterState × List (List ReplicaRepair)) := do
  if state.transitionActive then return (none, [])
  let reconciled ← state.reconcileReplicaRepairs.mapError fun error => ⟨.internal, error.message⟩
  let next := { reconciled with replicaRepairs := reconciled.replicaRepairs.map fun repair =>
    if repair.phase = .complete then repair else { repair with phase := .pending } }
  return (if next ≠ state then some next else none, next.dueRepairGroups now)

/-! Which groups have to be seeded before owners of a new epoch may be leased. -/

def admittedCopy (state : ClusterState) (range : DerivedRange) (follower : String) : Bool :=
  state.replicaAdmissions.any fun admission =>
    admission.epoch = state.committed.epoch ∧
      state.processInstances.lookup admission.nodeId = some admission.processInstanceId ∧
      admission.copy = { startExclusive := range.startExclusive, endInclusive := range.endInclusive
                         ownerNodeId := range.ownerNodeId, nodeId := follower }

/-- `max_by_key`: the last of the largest groups. -/
def largestGroup (state : ClusterState) (pairs : List StreamPair) : Option StreamPair :=
  pairs.foldl (fun best pair =>
    if (state.repairGroup pair).isEmpty then best
    else match best with
      | none => some pair
      | some found => if (state.repairGroup found).length ≤
          (state.repairGroup pair).length then some pair else best) none

def fillQuota (state : ClusterState) (range : DerivedRange) : Nat → List StreamPair →
    Except Status (List StreamPair)
  | 0, selected => .ok selected
  | missing + 1, selected =>
      let open_ := (range.followerNodeIds.filter fun follower =>
        ¬state.admittedCopy range follower ∧ (range.ownerNodeId, follower) ∉ selected).map fun follower =>
          (range.ownerNodeId, follower)
      match state.largestGroup open_ with
      | none => .error ⟨.unavailable, "required target follower repair is unavailable"⟩
      | some pair => state.fillQuota range missing (selected ++ [pair])

def selectForRange (state : ClusterState) (selected : List StreamPair) (range : DerivedRange) :
    Except Status (List StreamPair) :=
  let named := (range.followerNodeIds.take (policyFollowerCount state.committed)).filter fun follower =>
    ¬state.admittedCopy range follower
  let chosen := (selected ++ named.map fun follower => (range.ownerNodeId, follower)).dedup
  let covered := (range.followerNodeIds.filter fun follower =>
    state.admittedCopy range follower ∨ (range.ownerNodeId, follower) ∈ chosen).length
  state.fillQuota range (requiredMergeFollowers state.committed - covered) chosen

def activationGroups (state : ClusterState) : Except Status (List (List ReplicaRepair)) := do
  let needed := requiredMergeFollowers state.committed
  let ranges ← internalTopology state.committed.derivedRanges
  if ranges.any fun range => range.followerNodeIds.length < needed then
    throw ⟨.failedPrecondition, "target range cannot satisfy the activation policy and copy guard"⟩
  let selected ← ranges.foldlM state.selectForRange []
  (orderedPairs selected).mapM fun pair =>
    if (state.repairGroup pair).isEmpty then
      .error ⟨.unavailable, "required target follower repair is unavailable"⟩
    else .ok (state.repairGroup pair)

/-- The barrier after seeding: every range has its copies. -/
def activationCovered (state : ClusterState) : Except Status Unit := do
  let needed := requiredMergeFollowers state.committed
  let ranges ← internalTopology state.committed.derivedRanges
  if ranges.any fun range =>
      (range.followerNodeIds.filter (state.admittedCopy range)).length < needed ∨
        (range.followerNodeIds.take (policyFollowerCount state.committed)).any fun follower =>
          ¬state.admittedCopy range follower then
    throw ⟨.unavailable, "required target followers are not all admitted"⟩

end ClusterState

namespace Coordination

variable (settings : CoordinatorSettings)

/-- `Instant::now() + self.migration_timeout`. -/
def newDeadline : Coordination Instant := observe fun coordinator => coordinator.now +
    settings.migrationTimeout

def cleanupInterruptedRepairs : Coordination Unit := do
  let state ← readState
  let interrupted := state.replicaRepairs.filter fun repair => repair.phase = .copying ∨
      repair.phase = .verifying
  let affected := (interrupted.flatMap fun repair => [repair.ownerNodeId, repair.nodeId]).filter
      fun nodeId =>
    nodeId ∉ state.fencedNodes
  let members := state.committed.members.filter fun member => member.nodeId ∈ affected
  let deadline ← newDeadline settings
  calls do
    let _ ← Program.tryMapBounded members settings.rangeMoveConcurrency fun member => do
      connectNode member.endpoint deadline
      rpcBefore deadline member.endpoint (.abortReplicaRepairs state.committed.epoch)

def memberOf (topology : TopologySnapshot) (nodeId message : String) : Except Status Member :=
  match topology.members.find? fun member => member.nodeId = nodeId with
  | none => .error ⟨.internal, message⟩
  | some member => .ok member

def registeredInstance (state : ClusterState) (nodeId message : String) : Except Status String :=
  match state.processInstances.lookup nodeId with
  | none => .error ⟨.unavailable, message⟩
  | some processInstanceId => .ok processInstanceId

def copyReplica (task : ReplicaRepair) : Coordination CopiedReplicaSeed := do
  let state ← readState
  if state.committed.epoch ≠ task.epoch then throw ⟨.failedPrecondition, "replica task epoch is stale"⟩
  let ownerInstance ← liftExcept
      (registeredInstance state task.ownerNodeId "owner process is not registered")
  let followerInstance ← liftExcept
      (registeredInstance state task.nodeId "follower process is not registered")
  let owner ← liftExcept (memberOf state.committed task.ownerNodeId
      "repair owner is absent from topology")
  let follower ← liftExcept
      (memberOf state.committed task.nodeId "repair follower is absent from topology")
  let control := replicaRepairControl settings.hashing task
  let range : RangeMigration :=
    { rangeId := control.rangeId, startExclusive := task.startExclusive, endInclusive := task.endInclusive
      sourceNodeId := task.ownerNodeId, destinationNodeId := task.nodeId
      sourceEndpoint := owner.endpoint, destinationEndpoint := follower.endpoint }
  let change : TopologyChange :=
    { changeId := control.changeId, baseEpoch := task.epoch, baseTopology := none
      targetTopology := state.committed, phase := .copyingSnapshot, ranges :=
        [], replicaObligations := [] }
  let deadline ← newDeadline settings
  -- A retry first releases any write fence left by an interrupted attempt.
  let copied ← calls do
    connectNode range.sourceEndpoint deadline
    connectNode range.destinationEndpoint deadline
    rpcBefore deadline range.sourceEndpoint (.abortRangeMigration control)
    rpcBefore deadline range.destinationEndpoint (.abortRangeMigration control)
    NodeCalls.copyRange change range deadline
  if copied.sourceProcessInstanceId ≠ ownerInstance ∨ copied.destinationProcessInstanceId ≠
    followerInstance then
    throw ⟨.failedPrecondition, "replica process changed during snapshot"⟩
  return { task, change, range := copied, control, followerInstance }

def finishReplica (copied : CopiedReplicaSeed) (finalWatermark : Nat) (deadline : Instant) :
    Coordination PreparedReplicaSeed := do
  let (verified, digest) ← calls
      (NodeCalls.finalizeRange copied.change copied.range finalWatermark deadline)
  return { task := copied.task, control := copied.control
           admission :=
             { epoch := copied.task.epoch
               startExclusive := copied.task.startExclusive, endInclusive := copied.task.endInclusive
               ownerNodeId := copied.task.ownerNodeId, nodeId := copied.task.nodeId
               processInstanceId := copied.followerInstance
               verifiedWatermark := verified.changelogWatermark, streamCursor := 0, digest } }

def setRepairPhases (tasks : List ReplicaRepair) (phase : ReplicaRepairPhase) : Coordination Unit :=
  update fun coordinator => coordinator.state.setRepairPhases tasks phase

def releaseSeeds (deadline : Instant) (ownerEndpoint followerEndpoint : String) :
    List PreparedReplicaSeed → NodeCalls Unit
  | [] => pure ()
  | seed :: rest => do
      rpcBefore deadline ownerEndpoint (.cleanupSourceRange seed.control)
      rpcBefore deadline followerEndpoint (.abortRangeMigration seed.control)
      releaseSeeds deadline ownerEndpoint followerEndpoint rest

def abortEach (deadline : Instant) (endpoint : String) : List RangeKey → NodeCalls Unit
  | [] => pure ()
  | control :: rest => do
      let _ ← Program.attempt (rpcBefore deadline endpoint (.abortRangeMigration control))
      abortEach deadline endpoint rest

/-- What a failed group leaves behind on its two nodes, released as far as they answer. -/
def abandonSeeds (deadline : Instant) (endpoint : String) (controls : List RangeKey) :
    NodeCalls Unit := do
  match ← Program.attempt (connectNode endpoint deadline) with
  | .ok _ => abortEach deadline endpoint controls
  | .error _ => pure ()

/-- The streams and processes one group is about, as the state shows them. -/
structure SeedGroup where
  epoch : Nat
  ownerNodeId : String
  nodeId : String
  ownerInstance : Option String
  followerInstance : Option String
  ownerEndpoint : String
  followerEndpoint : String

def seedGroup (state : ClusterState) (tasks : List ReplicaRepair) : Except Status SeedGroup := do
  let some first := tasks.head? | throw ⟨.invalidArgument, "empty repair group"⟩
  if state.committed.epoch ≠ first.epoch then throw ⟨.failedPrecondition, "repair stream epoch is stale"⟩
  let ranges ← ClusterState.internalTopology state.committed.derivedRanges
  let expected := (ranges.filter fun range =>
    range.ownerNodeId = first.ownerNodeId ∧ first.nodeId ∈ range.followerNodeIds).map fun range =>
      (range.startExclusive, range.endInclusive)
  let actual := tasks.map fun task => (task.startExclusive, task.endInclusive)
  if expected.isEmpty ∨ ¬expected.all (fun bounds => bounds ∈ actual) ∨
      ¬actual.all (fun bounds => bounds ∈ expected) ∨ tasks.any fun task =>
      task.epoch ≠ first.epoch ∨ task.ownerNodeId ≠ first.ownerNodeId ∨ task.nodeId ≠ first.nodeId then
    throw ⟨.failedPrecondition, "repair group does not cover its full stream"⟩
  let owner ← memberOf state.committed first.ownerNodeId "repair owner is absent"
  let follower ← memberOf state.committed first.nodeId "repair follower is absent"
  return { epoch := first.epoch, ownerNodeId := first.ownerNodeId, nodeId := first.nodeId
           ownerInstance := state.processInstances.lookup first.ownerNodeId
           followerInstance := state.processInstances.lookup first.nodeId
           ownerEndpoint := owner.endpoint, followerEndpoint := follower.endpoint }

def checkpointSeeds (group : SeedGroup) (prepared : List PreparedReplicaSeed) (deadline : Instant) :
    NodeCalls (List PreparedReplicaSeed) := do
  connectNode group.ownerEndpoint deadline
  connectNode group.followerEndpoint deadline
  let head ← rpcBefore deadline group.ownerEndpoint (.getReplicationProgress
    { topologyEpoch := group.epoch, ownerNodeId := group.ownerNodeId, followerNodeId := group.nodeId })
  if some head.processInstanceId ≠ group.ownerInstance then
    throw ⟨.failedPrecondition, "owner process changed before checkpoint"⟩
  let checkpoint ← rpcBefore deadline group.followerEndpoint (.installReplicationCheckpoint
    { topologyEpoch := group.epoch, ownerNodeId := group.ownerNodeId, followerNodeId := group.nodeId
      streamSequence := head.streamSequence, verifiedRanges := prepared.map (·.control) })
  if some checkpoint.processInstanceId ≠ group.followerInstance ∨ checkpoint.streamSequence <
    head.streamSequence then
    throw ⟨.failedPrecondition, "follower process changed before checkpoint"⟩
  let admitted := prepared.map fun seed =>
    { seed with admission := { seed.admission with streamCursor := checkpoint.streamSequence } }
  releaseSeeds deadline group.ownerEndpoint group.followerEndpoint admitted
  return admitted

def trySeedGroup (tasks : List ReplicaRepair) (group : SeedGroup) : Coordination Unit := do
  setRepairPhases tasks .copying
  let copied ← Program.tryMapBounded tasks settings.replicaRepairConcurrency (copyReplica settings)
  let deadline ← newDeadline settings
  let paused ← Program.tryMapBounded copied settings.rangeMoveConcurrency fun copied => do
    let watermark ← calls (NodeCalls.pauseRange copied.change copied.range deadline)
    return (copied, watermark)
  setRepairPhases tasks .verifying
  let prepared ← Program.tryMapBounded paused settings.replicaRepairConcurrency fun (copied, watermark) =>
    finishReplica copied watermark deadline
  let deadline ← newDeadline settings
  let admitted ← calls (checkpointSeeds group prepared deadline)
  update fun coordinator => coordinator.state.storeRepairAdmissions admitted

def seedReplicaGroup (tasks : List ReplicaRepair) : Coordination Unit := do
  let state ← readState
  let group ← liftExcept (seedGroup state tasks)
  match ← Program.attempt (trySeedGroup settings tasks group) with
  | .ok _ => pure ()
  | .error error =>
      let cleanupDeadline ← newDeadline settings
      let controls := tasks.map (replicaRepairControl settings.hashing)
      calls do
        abandonSeeds cleanupDeadline group.ownerEndpoint controls
        abandonSeeds cleanupDeadline group.followerEndpoint controls
      setRepairPhases tasks .pending
      throw error

def seedRepairsForActivation : Coordination Unit := do
  cleanupInterruptedRepairs settings
  let state ← readState
  let groups ← liftExcept state.activationGroups
  let _ ← Program.tryMapBounded groups settings.replicaRepairConcurrency (seedReplicaGroup settings)
  let seeded ← readState
  liftExcept seeded.activationCovered

/-- One group of a repair pass: skipped once time is up or a change was planned. -/
def repairOneGroup (deadline : Instant) (tasks : List ReplicaRepair) : Coordination (Option Nat) := do
  let late ← observe fun coordinator => decide (deadline ≤ coordinator.now) ||
      coordinator.state.transitionActive
  if late then return none
  match ← Program.attempt (seedReplicaGroup settings tasks) with
  | .ok _ => return some tasks.length
  | .error error =>
      update fun coordinator => coordinator.state.recordRepairFailure tasks error coordinator.unixMillis
      return some 0

def repairRound (deadline : Instant) (groups : List (List ReplicaRepair)) :
    Coordination (Option (List (Option Nat))) :=
  ExceptT.mk (Program.interruptible
    (do cleanupInterruptedRepairs settings
        return none : Coordination (Option (List (Option Nat)))).run
    (do let results ← Program.tryMapBounded groups settings.replicaRepairConcurrency
          (repairOneGroup settings deadline)
        return some results : Coordination (Option (List (Option Nat)))).run)

def resumeReplicaRepairs : Coordination Nat := do
  let deadline ← newDeadline settings
  Program.tryLoop (fun seeded => do
    let groups ← update fun coordinator => coordinator.state.selectDueRepairGroups coordinator.unixMillis
    if groups.isEmpty then return .inr seeded
    match ← repairRound settings deadline groups with
    | none => return .inr seeded
    | some results =>
        let total := seeded + (results.filterMap id).sum
        return if results.any Option.isNone then .inr total else .inl total) 0

end Coordination
end Hashring
