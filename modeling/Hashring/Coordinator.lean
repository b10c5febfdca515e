import Hashring.Removal

/-! The coordinator service (crates/hashring-coordinator/src/lib.rs and rpc.rs):
its durable and volatile state, the requests it answers under one lock, and the
effects its longer operations are made of. -/
namespace Hashring

structure CoordinatorSettings where
  hashing : Hashing
  digestOf : TopologySnapshot → String
  migrationTimeout : Nat
  rangeMoveConcurrency : Nat
  replicaRepairConcurrency : Nat
  prepublicationFailureGrace : Nat

/-- What a restart loses. -/
structure CoordinatorMemory where
  leaseGrants : LeaseGrants := ∅
  peerFailures : PeerFailures := ∅
  pendingChangeOutages : FiniteMap String Instant := ∅
  pendingChangeProbeCursor : Nat := 0
  startupAt : Instant
  leaseDuration : Nat
  deriving DecidableEq

structure Coordinator where
  state : ClusterState
  memory : CoordinatorMemory
  now : Instant
  unixMillis : Nat
  deriving DecidableEq

/-- `CoordinatorService::new`. -/
def Coordinator.start (state : ClusterState) (now : Instant) (unixMillis : Nat) : Coordinator :=
  { state, now, unixMillis
    memory := { startupAt := now, leaseDuration := state.committed.timings.leaseDuration } }

/-- What one critical section over the state decided: an error, or a value and the
state to store first, if any. -/
abbrev Decision (α : Type) := Except Status (Option ClusterState × α)

namespace Decision

def keep {α : Type} (value : α) : Decision α := .ok (none, value)
def store {α : Type} (next : ClusterState) (value : α) : Decision α := .ok (some next, value)
def refuse {α : Type} (code : Code) (message : String) : Decision α := .error ⟨code, message⟩

end Decision

namespace CoordinatorSettings

variable (settings : CoordinatorSettings)

/-- `store_state`; `works` is whether the database accepts the write. -/
def storeState (works : Bool) (state : ClusterState) : Except RepositoryError Unit := do
  state.validate settings.hashing settings.digestOf
  if ¬works then throw .storage

/-- `load_state` over the bytes of the last store. -/
def loadState (stored : ClusterState) : Except RepositoryError ClusterState := do
  let state ← stored.reconcileReplicaRepairs
  state.validate settings.hashing settings.digestOf
  return state

/-- `load_or_initialize`: a configured bootstrap topology must be the stored one, and
is what an empty store starts with. -/
def loadOrInitialize (works : Bool) (persisted : Option ClusterState)
    (bootstrap : Option TopologySnapshot) :
    Except RepositoryError ClusterState :=
  match persisted, bootstrap with
  | some stored, none => settings.loadState stored
  | some stored, some bootstrap => do
      let state ← settings.loadState stored
      if state.committed ≠ bootstrap then throw .bootstrapMismatch
      return state
  | none, none => throw .missingBootstrap
  | none, some bootstrap => do
      let state ← ({ committed := bootstrap } : ClusterState).reconcileReplicaRepairs
      settings.storeState works state
      return state

end CoordinatorSettings

/-- The policy is the number that came on the wire. -/
structure BeginTopologyChangeRequest where
  targetMembers : List Member
  targetWriteAckPolicy : Option Int := none
  targetDesiredReplicationFactor : Option Nat := none
  targetWriteAvailabilityGuard : Option WriteAvailabilityGuard := none
  deriving DecidableEq

structure ReportPeerHealthRequest where
  reporterNodeId : String
  reporterProcessInstanceId : String
  topologyEpoch : Nat
  peerNodeId : String
  reachable : Bool
  deriving DecidableEq

def BeginTopologyChangeRequest.targetPolicy (request : BeginTopologyChangeRequest) :
    Except TopologyError (Option WriteAckPolicy) :=
  match request.targetWriteAckPolicy with
  | none => .ok none
  | some value => (WriteAckPolicy.tryFrom value).map some

namespace ClusterState

variable (settings : CoordinatorSettings)

def transitionActive (state : ClusterState) : Bool :=
  state.activeChange.any fun change => ¬change.phase.isTerminal

def targetSatisfiable (state : ClusterState) (target : TopologySnapshot) : Bool :=
  let memberCount := target.members.length
  let guard := target.writeAvailabilityGuard
  ¬(memberCount < guard.minimumAdmittedCopies ∨ memberCount - 1 < guard.minimumHealthyFollowers ∨
    target.desiredReplicationFactor < guard.minimumAdmittedCopies ∨
    target.desiredReplicationFactor - 1 < guard.minimumHealthyFollowers ∨
    target.writeAckPolicy = .firstSuccessor ∧ memberCount < 2 ∨
    (target.members ≠ state.committed.members ∨
        target.desiredReplicationFactor ≠ state.committed.desiredReplicationFactor) ∧
      target.writeAckPolicy = .allReplicas ∧ memberCount < target.desiredReplicationFactor)

def beginTopologyChange (changeId : String) (request : BeginTopologyChangeRequest)
    (state : ClusterState) :
    Except Status (Option ClusterState × TopologyChange) := do
  let targetPolicy ← request.targetPolicy.mapError fun error => ⟨.invalidArgument, error.message⟩
  if state.transitionActive then throw ⟨.failedPrecondition, "another topology change is already active"⟩
  let current := state.committed.config
  let config : TopologyConfig :=
    { desiredReplicationFactor := request.targetDesiredReplicationFactor.getD current.desiredReplicationFactor
      writeAckPolicy := targetPolicy.getD current.writeAckPolicy
      writeAvailabilityGuard := request.targetWriteAvailabilityGuard.getD current.writeAvailabilityGuard }
  if config ≠ current ∧ request.targetMembers ≠ state.committed.members then
    throw ⟨.invalidArgument, "change membership and topology configuration in separate transitions"⟩
  let planned ← (TopologyChange.planWithConfig settings.hashing settings.digestOf changeId state.committed
    request.targetMembers config).mapError fun error => ⟨.invalidArgument, error.message⟩
  let change := if canPrepareDirectMerge state.committed planned then
      { planned with directMerge := true, ranges := [] }
    else planned
  if ¬state.targetSatisfiable change.targetTopology then
    throw ⟨.failedPrecondition,
      "target membership cannot satisfy its write policy and availability guard"⟩
  let ranges ← change.targetTopology.derivedRanges.mapError fun error => ⟨.invalidArgument, error.message⟩
  if maxReplicaObligations < (ranges.map fun range => range.followerNodeIds.length).sum then
    throw ⟨.resourceExhausted, s!"target topology exceeds the {maxReplicaObligations} replica-task limit"⟩
  Decision.store { state with activeChange := some change, recoveryBlockReason := "" } change

def isMember (topology : TopologySnapshot) (nodeId : String) : Bool :=
  topology.members.any fun member => member.nodeId = nodeId

def isPending (state : ClusterState) (nodeId : String) : Bool :=
  state.activeChange.any fun change => ¬change.phase.isTerminal ∧ isMember change.targetTopology nodeId

def registerNode (nodeId processInstanceId : String) (state : ClusterState) :
    Except Status (Option ClusterState × Unit) := do
  if nodeId.isEmpty ∨ processInstanceId.isEmpty then
    throw ⟨.invalidArgument, "node_id and process_instance_id must not be empty"⟩
  let isCommitted := isMember state.committed nodeId
  if ¬isCommitted ∧ ¬state.isPending nodeId then
    throw ⟨.failedPrecondition, "node is not present in committed or pending membership"⟩
  if isCommitted ∧ nodeId ∈ state.fencedNodes then throw ⟨.failedPrecondition, "node has been fenced"⟩
  let registered : ClusterState := { state with
    fencedNodes := if isCommitted then state.fencedNodes else state.fencedNodes.erase nodeId
    processInstances := state.processInstances.insert nodeId processInstanceId }
  match state.processInstances.lookup nodeId with
  | none => Decision.store registered ()
  | some existing =>
      if existing = processInstanceId then Decision.keep ()
      else if isCommitted then
        Decision.refuse .failedPrecondition
          s!"committed node {nodeId} is fenced to another process instance"
      else Decision.store registered ()

def renewalValid (request : RenewNodeLeaseRequest) (state : ClusterState) : Bool :=
  ¬(request.nodeId.isEmpty ∨ request.processInstanceId.isEmpty ∨
    state.committed.epoch ≠ request.topologyEpoch ∨ ¬isMember state.committed request.nodeId ∨
    state.processInstances.lookup request.nodeId ≠ some request.processInstanceId ∨
    request.nodeId ∈ state.fencedNodes ∨
    state.activeChange.any fun change => change.phase = .published ∧ ¬change.activationReady)

def policyFollowers (topology : TopologySnapshot) (range : DerivedRange) : List String :=
  match topology.writeAckPolicy with
  | .ownerOnly => []
  | .firstSuccessor => range.followerNodeIds.take 1
  | .allReplicas => range.followerNodeIds

def currentlyAdmitted (state : ClusterState) (owner : String) (range : DerivedRange)
    (follower : String) : Bool :=
  state.replicaAdmissions.any fun admission =>
    admission.epoch = state.committed.epoch ∧ admission.ownerNodeId = owner ∧
      admission.nodeId ∉ state.fencedNodes ∧
      state.processInstances.lookup admission.nodeId = some admission.processInstanceId ∧
      admission.startExclusive = range.startExclusive ∧ admission.endInclusive = range.endInclusive ∧
      admission.nodeId = follower

-- A follower is offered for ACKs only when every range that needs it admits it.
def admittedFollowers (state : ClusterState) (owner : String) :
    Except Status (List (String × String)) := do
  if state.committed.writeAckPolicy = .ownerOnly then return []
  let ranges ← internalTopology state.committed.derivedRanges
  let owned := ranges.filter fun range => range.ownerNodeId = owner
  let candidates := (owned.flatMap (policyFollowers state.committed)).dedup
  let missing := owned.flatMap fun range =>
    (policyFollowers state.committed range).filter fun follower =>
      ¬state.currentlyAdmitted owner range follower
  return (candidates.filter fun follower => follower ∉ missing).filterMap fun follower =>
    (state.processInstances.lookup follower).map fun processInstanceId => (follower, processInstanceId)

end ClusterState

namespace Coordinator

/-- `renew_node_lease`: the answer and the grant it is bound to. -/
def renewNodeLease (request : RenewNodeLeaseRequest) (coordinator : Coordinator) :
    Except Status RenewNodeLeaseResponse × Coordinator :=
  if ¬coordinator.state.renewalValid request then
    (.error ⟨.failedPrecondition, "lease identity, epoch, or membership is no longer valid"⟩, coordinator)
  else
    match coordinator.state.admittedFollowers request.nodeId with
    | .error status => (.error status, coordinator)
    | .ok admittedFollowers =>
        let grant : NodeLeaseGrant :=
          { processInstanceId := request.processInstanceId
            epoch := coordinator.state.committed.epoch
            expiresAt := coordinator.now + coordinator.memory.leaseDuration }
        (.ok { topologyEpoch := coordinator.state.committed.epoch
               leaseDurationMillis := coordinator.memory.leaseDuration / nanosPerMilli
               admittedFollowers },
         { coordinator with memory := { coordinator.memory with
             leaseGrants := coordinator.memory.leaseGrants.insert request.nodeId grant } })

def reportMatches (request : ReportPeerHealthRequest) (state : ClusterState) : Bool :=
  ¬(request.reporterNodeId = request.peerNodeId ∨ request.peerNodeId.isEmpty ∨
    request.topologyEpoch ≠ state.committed.epoch ∨
    state.processInstances.lookup request.reporterNodeId ≠ some request.reporterProcessInstanceId ∨
    request.reporterNodeId ∈ state.fencedNodes ∨
      ¬ClusterState.isMember state.committed request.peerNodeId)

def reporterLeased (request : ReportPeerHealthRequest) (grants : LeaseGrants) (now : Instant) : Bool :=
  (grants.lookup request.reporterNodeId).any fun grant =>
    grant.epoch = request.topologyEpoch ∧ grant.processInstanceId = request.reporterProcessInstanceId ∧
      now < grant.expiresAt

/-- An unreachable peer at `now`: a report after a pause starts the outage anew. -/
def observeFailure (now : Instant) : Option PeerFailure → PeerFailure
  | none => { firstSeen := now, lastSeen := now }
  | some failure =>
      { firstSeen := if failure.lastSeen + peerFailureReportFreshness < now then now else failure.firstSeen
        lastSeen := now }

/-- `report_peer_health`. It reads the clock before it gets the lock over the
reports, so `now` may lie behind the coordinator's own. -/
def reportPeerHealth (now : Instant) (request : ReportPeerHealthRequest) (coordinator : Coordinator) :
    Except Status Unit × Coordinator :=
  if ¬reportMatches request coordinator.state then
    (.error ⟨.failedPrecondition, "peer report does not match active membership"⟩, coordinator)
  else if ¬reporterLeased request coordinator.memory.leaseGrants now then
    (.error ⟨.failedPrecondition, "reporter has no valid lease"⟩, coordinator)
  else
    let key := (request.peerNodeId, request.reporterNodeId)
    let failures := coordinator.memory.peerFailures
    (.ok (), { coordinator with memory := { coordinator.memory with
      peerFailures := if request.reachable then failures.erase key
        else failures.insert key (observeFailure now (failures.lookup key)) } })

end Coordinator

/-- What the coordinator's longer operations do between two waits. -/
inductive CoordinatorEffect : Type → Type 1 where
  | node {β : Type} (effect : NodeEffect β) : CoordinatorEffect β
  | observe {β : Type} (read : Coordinator → β) : CoordinatorEffect β
  | modify {β : Type} (change : CoordinatorMemory → β × CoordinatorMemory) : CoordinatorEffect β
  | update {β : Type} (decide : Coordinator → Decision β) : CoordinatorEffect (Except Status β)
  | sleepUntil (deadline : Instant) : CoordinatorEffect Unit
  | freshId : CoordinatorEffect String

abbrev Coordination := ExceptT Status (Program CoordinatorEffect)

namespace Coordination

def calls {α : Type} (program : NodeCalls α) : Coordination α :=
  ExceptT.mk (program.run.lift .node)

def observe {α : Type} (read : Coordinator → α) : Coordination α :=
  ExceptT.lift (Program.call (.observe read))

def readState : Coordination ClusterState := observe (·.state)

def modify {α : Type} (change : CoordinatorMemory → α × CoordinatorMemory) : Coordination α :=
  ExceptT.lift (Program.call (.modify change))

def update {α : Type} (decide : Coordinator → Decision α) : Coordination α :=
  ExceptT.mk (Program.call (.update decide))

def sleepUntil (deadline : Instant) : Coordination Unit :=
  ExceptT.lift (Program.call (.sleepUntil deadline))

def freshId : Coordination String := ExceptT.lift (Program.call .freshId)

end Coordination
end Hashring
