import Hashring.TopologyExecution

/-! Failure passes and the recovery of a published join
(crates/hashring-coordinator/src/repair.rs and change.rs). -/
namespace Hashring

def maxPendingProbesPerPass : Nat := 32

def MigrationPhase.name : MigrationPhase → String
  | planned => "Planned"
  | resetting => "Resetting"
  | copyingSnapshot => "CopyingSnapshot"
  | replayingChangelog => "ReplayingChangelog"
  | pausingWrites => "PausingWrites"
  | verifying => "Verifying"
  | readyToPublish => "ReadyToPublish"
  | published => "Published"
  | cleaningUp => "CleaningUp"
  | complete => "Complete"
  | aborting => "Aborting"
  | aborted => "Aborted"

namespace ClusterState

/-- Whether the original members alone can take a failed pure join back: every
moved range has the failed node as destination and a source that is still frozen. -/
def recoverable (state : ClusterState) (change : TopologyChange) (base : TopologySnapshot)
    (failedNodeId : String) : Bool :=
  let surviving := state.committed.members.filter fun member => member.nodeId ≠ failedNodeId
  ¬base.members.isEmpty ∧ surviving.all (fun member => member ∈ base.members) ∧
    base.members.all (fun member => member ∈ surviving) ∧
    ¬base.members.any (fun member => member.nodeId = failedNodeId) ∧
    change.ranges.all fun range =>
      range.destinationNodeId = failedNodeId ∧ range.verified ∧ ¬range.sourceCleaned ∧
        ¬range.sourceProcessInstanceId.isEmpty ∧
        state.processInstances.lookup range.sourceNodeId = some range.sourceProcessInstanceId

def fenceFailed (state snapshot : ClusterState) (change : TopologyChange) (failedNodeId : String) :
    Except Status (Option ClusterState × Bool) :=
  if state.committed ≠ snapshot.committed ∨ state.transitionActive then .ok (none, false)
  else .ok (some { state with
    fencedNodes := state.fencedNodes.insert failedNodeId
    activeChange := some change
    recoveryBlockReason := "" }, true)

def failureCandidate (state : ClusterState) (grants : LeaseGrants) (failures : PeerFailures)
    (now : Instant) : Option String :=
  (state.committed.members.find? fun member =>
    (state.processInstances.lookup member.nodeId).isSome ∧ member.nodeId ∉ state.fencedNodes ∧
      state.failureConfirmed grants failures member.nodeId now).map (·.nodeId)

def changeParticipants (state : ClusterState) (change : TopologyChange) : List (Member × String) :=
  let base : List Member := match change.baseTopology with
    | none => []
    | some base => if change.phase = .cleaningUp ∨ change.phase = .complete then [] else base.members
  let entries := base.map (fun member => (member.nodeId, member)) ++
    change.targetTopology.members.map fun member => (member.nodeId, member)
  (Coordination.nodesOf entries).filterMap fun (_, member) =>
    (state.processInstances.lookup member.nodeId).map fun processInstanceId => (member, processInstanceId)

end ClusterState

/-- What a pass hands over to an operation that takes the execution lock. -/
inductive FailurePass where
  | idle
  | execute (change : ChangeIdentity)
  | recover (change : ChangeIdentity) (failedNodeId : String)
  deriving DecidableEq

namespace Coordination

variable (settings : CoordinatorSettings)

def checkOriginalOwners (state : ClusterState) (deadline : Instant) : List Member → NodeCalls Unit
  | [] => pure ()
  | member :: rest => do
      let some expected := state.processInstances.lookup member.nodeId
        | throw ⟨.failedPrecondition, s!"original owner {member.nodeId} has no process identity"⟩
      connectNode member.endpoint deadline
      let info ← rpcBefore deadline member.endpoint .getProcessInfo
      if info.nodeId ≠ member.nodeId ∨ info.processInstanceId ≠ expected then
        throw ⟨.failedPrecondition, s!"original owner {member.nodeId} changed process instance"⟩
      checkOriginalOwners state deadline rest

def checkFrozenRanges (change : TopologyChange) (deadline : Instant) : List RangeMigration →
    NodeCalls Unit
  | [] => pure ()
  | range :: rest => do
      connectNode range.sourceEndpoint deadline
      let digest ← rpcBefore deadline range.sourceEndpoint (.sourceRangeDigest (change.control range))
      if digest.changelogWatermark ≠ range.changelogWatermark ∨ digest.digest.isEmpty then
        throw ⟨.failedPrecondition,
          s!"frozen source range {range.rangeId} no longer matches the verified watermark"⟩
      checkFrozenRanges change deadline rest

/-- `TopologyChange::plan` with its error as a status. -/
def planMembers (changeId : String) (committed : TopologySnapshot) (members : List Member) :
    Except Status TopologyChange :=
  (TopologyChange.plan settings.hashing settings.digestOf changeId committed members).mapError
      fun error =>
    ⟨.failedPrecondition, error.message⟩

def forgetOutages : Coordination Unit := modify fun memory =>
    ((), { memory with pendingChangeOutages := ∅ })

/-- A node missing before the publication of a change that was to add it: the
change is aborted. Anything else waits for an operator. -/
def recoverUnpublished (change : TopologyChange) (failedNodeId : String) : Coordination Unit := do
  let joins := change.baseTopology.any fun base => ¬ClusterState.isMember base failedNodeId
  if ¬change.activationReady ∧ change.phase ≠ .aborting ∧ change.phase ≠ .cleaningUp ∧ joins then
    abortPrepublicationChange settings change
    setRecoveryBlockReason ""
    forgetOutages
  else
    setRecoveryBlockReason (s!"confirmed unavailable node {failedNodeId} during {change.phase.name}; " ++
      "automatic recovery requires a published, unactivated pure join")

def recoverPublished (state : ClusterState) (change : TopologyChange) (base : TopologySnapshot)
    (failedNodeId : String) :
    Coordination Unit := do
  let deadline ← newDeadline settings
  calls do
    checkOriginalOwners state deadline base.members
    checkFrozenRanges change deadline change.ranges
  let changeId ← freshId
  let planned ← liftExcept (planMembers settings changeId state.committed base.members)
  let recovery := { planned with ranges := [], phase := .published, supersedesChangeId := some change.changeId }
  let published ← update fun coordinator => coordinator.state.publishRecovery state change recovery
      failedNodeId
  if published then
    forgetOutages
    let _ ← finishRecoveredChange settings recovery

/-- `recover_pending_change_failure`, from the execution lock on. -/
def recoverPendingChangeFailure (expected : ChangeIdentity) (failedNodeId : String) :
    Coordination Unit := do
  let state ← readState
  match state.activeChange with
  | none => pure ()
  | some change =>
      if changeIdentity change ≠ expected ∨ change.phase.isTerminal then pure ()
      else if change.phase ≠ .published ∨ change.activationReady then
        recoverUnpublished settings change failedNodeId
      else
        match change.baseTopology with
        | none =>
            setRecoveryBlockReason
              s!"confirmed unavailable node {failedNodeId}; original topology is unavailable for recovery"
        | some base =>
            if state.recoverable change base failedNodeId then
              recoverPublished settings state change base failedNodeId
            else
              setRecoveryBlockReason (s!"confirmed unavailable node {failedNodeId}; " ++
                "surviving original owners cannot prove complete frozen-range coverage")

def probeMember (deadline : Instant) (entry : Member × String) : NodeCalls (String × Bool) := do
  let answer ← Program.attempt (do
    connectNode entry.1.endpoint deadline
    rpcBefore deadline entry.1.endpoint .getProcessInfo)
  return (entry.1.nodeId, answer.toOption.any fun info =>
    info.nodeId = entry.1.nodeId ∧ info.processInstanceId = entry.2)

def probeWindow (candidates : List (Member × String)) (memory : CoordinatorMemory) :
    List (Member × String) × CoordinatorMemory :=
  if candidates.isEmpty then (candidates, memory)
  else
    let start := memory.pendingChangeProbeCursor % candidates.length
    let scanned := min candidates.length maxPendingProbesPerPass
    ((candidates.rotate start).take scanned,
      { memory with pendingChangeProbeCursor := (start + scanned) % candidates.length })

/-- The outage of one probed node, and the first node whose outage has lasted long enough. -/
def recordProbe (now : Instant) (delay : Nat) (found : Option String × FiniteMap String Instant)
    (probe : String × Bool) :
    Option String × FiniteMap String Instant :=
  if probe.2 then (found.1, found.2.erase probe.1)
  else
    let first := (found.2.lookup probe.1).getD now
    (if found.1.isNone ∧ first + delay ≤ now then some probe.1 else found.1, found.2.insert probe.1 first)

def recordProbes (phase : MigrationPhase) (candidates : List (Member × String))
    (probes : List (String × Bool))
    (now : Instant) (memory : CoordinatorMemory) : Option String × CoordinatorMemory :=
  let delay := if phase = .published ∨ phase = .cleaningUp then memory.leaseDuration
    else settings.prepublicationFailureGrace
  let outages := memory.pendingChangeOutages.retain fun nodeId _ => candidates.any fun entry =>
      entry.1.nodeId = nodeId
  let (confirmed, outages) := probes.foldl (recordProbe now delay) (none, outages)
  (confirmed, { memory with pendingChangeOutages := outages })

def runPendingChangeFailurePass (change : TopologyChange) : Coordination FailurePass := do
  let state ← readState
  let candidates := state.changeParticipants change
  let window ← modify (probeWindow candidates)
  let deadline ← observe fun coordinator => coordinator.now + 500 * nanosPerMilli
  let probes ← calls (Program.tryMapBounded window 8 (probeMember deadline))
  let now ← observe (·.now)
  match ← modify (recordProbes settings change.phase candidates probes now) with
  | none => return .idle
  | some failedNodeId => return .recover (changeIdentity change) failedNodeId

/-- The part of `run_failure_pass` for a cluster without a change in progress. -/
def confirmFailure : Coordination FailurePass := do
  let state ← readState
  if state.committed.members.length ≤ 1 then return .idle
  let (now, quarantined) ← observe fun coordinator =>
    (coordinator.now, decide
      (coordinator.now < coordinator.memory.startupAt + coordinator.memory.leaseDuration))
  if quarantined then return .idle
  match ← observe fun coordinator =>
      state.failureCandidate coordinator.memory.leaseGrants coordinator.memory.peerFailures now with
  | none => return .idle
  | some failedNodeId =>
      let changeId ← freshId
      let planned ← liftExcept (planMembers settings changeId state.committed
        (state.committed.members.filter fun member => member.nodeId ≠ failedNodeId))
      let change := { planned with failedNodeId := some failedNodeId }
      let fenced ← update fun coordinator => coordinator.state.fenceFailed state change failedNodeId
      return if fenced then .execute (changeIdentity change) else .idle

/-- `run_failure_pass` up to the operation that needs the execution lock. -/
def runFailurePass : Coordination FailurePass := do
  match ← observe (·.state.activeChange) with
  | none => confirmFailure settings
  | some change =>
      if change.phase.isTerminal then confirmFailure settings
      else if change.failedNodeId.isSome then return .execute (changeIdentity change)
      else runPendingChangeFailurePass settings change

end Coordination
end Hashring
