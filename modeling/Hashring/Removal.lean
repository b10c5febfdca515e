import Hashring.ClusterState
import Hashring.NodeCalls

/-! What the coordinator proves before it removes members
(crates/hashring-coordinator/src/failure.rs, removal.rs and the pure part of
merge.rs): who has failed, which old ranges make up a merged one, and which
followers already hold it. -/
namespace Hashring

/-- `PEER_FAILURE_REPORT_FRESHNESS`, two seconds. -/
def peerFailureReportFreshness : Nat := 2000 * nanosPerMilli

structure NodeLeaseGrant where
  processInstanceId : String
  epoch : Nat
  expiresAt : Instant
  deriving DecidableEq

structure PeerFailure where
  firstSeen : Instant
  lastSeen : Instant
  deriving DecidableEq

abbrev LeaseGrants := FiniteMap String NodeLeaseGrant

/-- Keyed by the reported peer and the reporter. -/
abbrev PeerFailures := FiniteMap (String × String) PeerFailure

namespace ClusterState

def hasLease (state : ClusterState) (grants : LeaseGrants) (now : Instant) (nodeId : String) : Bool :=
  (grants.lookup nodeId).any fun grant =>
    grant.epoch = state.committed.epoch ∧
      state.processInstances.lookup nodeId = some grant.processInstanceId ∧ now < grant.expiresAt ∧
      nodeId ∉ state.fencedNodes

/-- A report that counts against `target`. -/
def reportCounts (state : ClusterState) (grants : LeaseGrants) (now : Instant) (target : String)
    (reported reporter : String) (report : PeerFailure) : Bool :=
  reported = target ∧ reporter ≠ reported ∧ state.hasLease grants now reporter ∧
    report.firstSeen + state.committed.timings.leaseDuration ≤ now ∧
    now ≤ report.lastSeen + peerFailureReportFreshness

def failureConfirmed (state : ClusterState) (grants : LeaseGrants) (reports : PeerFailures)
    (target : String)
    (now : Instant) : Bool :=
  if ¬state.hasLease grants now target then true
  else 2 ≤ (reports.entries.filter fun report =>
    state.reportCounts grants now target report.1.1 report.1.2 report.2).length

end ClusterState

/-- `token_in_range`. -/
def tokenInRange (start finish token : Token) : Bool :=
  if start < finish then start < token ∧ token ≤ finish
  else if finish < start then start < token ∨ token ≤ finish
  else true

def constituents (old : List DerivedRange) (target : DerivedRange) : List DerivedRange :=
  old.filter fun range => tokenInRange target.startExclusive target.endInclusive range.endInclusive

namespace ClusterState

def admissionFor (state : ClusterState) (range : DerivedRange) (follower : String) :
    Option ReplicaAdmission := do
  let processInstanceId ← state.processInstances.lookup follower
  state.replicaAdmissions.find? fun admission =>
    admission.epoch = state.committed.epoch ∧ admission.startExclusive = range.startExclusive ∧
      admission.endInclusive = range.endInclusive ∧ admission.ownerNodeId = range.ownerNodeId ∧
      admission.nodeId = follower ∧ admission.processInstanceId = processInstanceId ∧
      follower ∉ state.fencedNodes

def internalTopology {α : Type} (result : Except TopologyError α) : Except Status α :=
  result.mapError fun error => ⟨.internal, error.message⟩

-- The parts of one merged range, whose owner must hold each: as its old owner,
-- or as its first follower with a current admission.
def provePartsCovered (state : ClusterState) (owner : String) : List DerivedRange → Except Status Unit
  | [] => .ok ()
  | part :: rest =>
      if part.ownerNodeId ≠ owner ∧
          (part.followerNodeIds.head? ≠ some owner ∨ (state.admissionFor part owner).isNone) then
        .error ⟨.failedPrecondition,
          s!"merged owner {owner} lacks first-successor coverage for ({part.startExclusive}, {part.endInclusive}]"⟩
      else state.provePartsCovered owner rest

def proveRangesCovered (state : ClusterState) (oldRanges : List DerivedRange) :
    List DerivedRange → Except Status Unit
  | [] => .ok ()
  | target :: rest => do
      let parts := constituents oldRanges target
      if parts.isEmpty then throw ⟨.dataLoss, "merged range has no old constituents"⟩
      state.provePartsCovered target.ownerNodeId parts
      state.proveRangesCovered oldRanges rest

def proveRemovalOwnerCoverage (state : ClusterState) (target : TopologySnapshot) :
    Except Status Unit := do
  let oldRanges ← internalTopology state.committed.derivedRanges
  let targetRanges ← internalTopology target.derivedRanges
  state.proveRangesCovered oldRanges targetRanges

def proveOwnersLeased (state : ClusterState) (grants : LeaseGrants) (now : Instant) :
    List DerivedRange → Except Status Unit
  | [] => .ok ()
  | range :: rest =>
      let owner := range.ownerNodeId
      match state.processInstances.lookup owner with
      | none => .error ⟨.failedPrecondition, s!"merged owner {owner} is not registered"⟩
      | some processInstanceId =>
          if owner ∈ state.fencedNodes ∨ ¬(grants.lookup owner).any fun grant =>
              grant.epoch = state.committed.epoch ∧ grant.processInstanceId = processInstanceId ∧
                now < grant.expiresAt then
            .error ⟨.failedPrecondition, s!"merged owner {owner} has no current lease"⟩
          else state.proveOwnersLeased grants now rest

def proveRemovalOwnerLeases (state : ClusterState) (target : TopologySnapshot) (grants : LeaseGrants)
    (now : Instant) : Except Status Unit := do
  let ranges ← internalTopology target.derivedRanges
  state.proveOwnersLeased grants now ranges

def proveFailureCoverage (state : ClusterState) (target : TopologySnapshot) (grants : LeaseGrants)
    (now : Instant) : Except Status Unit := do
  state.proveRemovalOwnerLeases target grants now
  state.proveRemovalOwnerCoverage target

end ClusterState

def policyFollowerCount (topology : TopologySnapshot) : Nat :=
  match topology.writeAckPolicy with
  | .ownerOnly => 0
  | .firstSuccessor => 1
  | .allReplicas => topology.desiredReplicationFactor - 1

def requiredMergeFollowers (target : TopologySnapshot) : Nat :=
  let guard := target.writeAvailabilityGuard
  max (max (policyFollowerCount target) (guard.minimumAdmittedCopies - 1)) guard.minimumHealthyFollowers

def canPrepareDirectMerge (old : TopologySnapshot) (change : TopologyChange) : Bool :=
  let target := change.targetTopology
  if old.members.length ≤ target.members.length ∨ target.config ≠ old.config ∨
      ¬target.members.all fun member => member ∈ old.members then false
  else
    match old.derivedRanges, target.derivedRanges with
    | .ok oldRanges, .ok targetRanges =>
        let needed := requiredMergeFollowers target
        targetRanges.all fun range =>
          let parts := constituents oldRanges range
          ¬parts.isEmpty ∧ needed ≤ range.followerNodeIds.length ∧
            parts.all fun part =>
              (part.ownerNodeId = range.ownerNodeId ∨ part.followerNodeIds.head? =
                some range.ownerNodeId) ∧
                (range.followerNodeIds.take needed).all fun follower =>
                  part.ownerNodeId = follower ∨ follower ∈ part.followerNodeIds
    | _, _ => false

/-- An owner and a follower of its replication stream. -/
abbrev StreamPair := String × String

/-- An admission of the target epoch with the old streams it rests on. -/
structure CandidateAdmission where
  admission : ReplicaAdmission
  pairs : List StreamPair
  deriving DecidableEq

structure MergeProof where
  required : List StreamPair
  candidates : List CandidateAdmission
  deriving DecidableEq

namespace ClusterState

variable (hashing : Hashing)

/-- The old streams a follower of a merged range holds its parts by, and the
digest over the parts; `none` when one part is not covered. -/
def followerCoverage (state : ClusterState) (follower : String) :
    List DerivedRange → List StreamPair → Bytes → Option (List StreamPair × Bytes)
  | [], pairs, digest => some (pairs, digest)
  | part :: rest, pairs, digest =>
      let bounds := digest ++ beBytes part.startExclusive ++ beBytes part.endInclusive
      if part.ownerNodeId = follower then state.followerCoverage follower rest pairs
        (bounds ++ utf8 "owner")
      else
        match state.admissionFor part follower with
        | some admission =>
            state.followerCoverage follower rest (pairs ++ [(part.ownerNodeId, follower)])
              (bounds ++ utf8 admission.digest)
        | none => none

def candidateFor (state : ClusterState) (epoch : Nat) (target : DerivedRange) (parts : List DerivedRange)
    (follower : String) : Option CandidateAdmission := do
  let processInstanceId ← state.processInstances.lookup follower
  if follower ∈ state.fencedNodes then none
  let (pairs, digest) ← state.followerCoverage follower parts []
      (utf8 "hashring-rs:merged-admission:v1" ++ [byte 0])
  return { admission :=
             { epoch, startExclusive := target.startExclusive, endInclusive := target.endInclusive
               ownerNodeId := target.ownerNodeId, nodeId := follower, processInstanceId
               verifiedWatermark := 0, streamCursor := 0, digest := hex (hashing.blake3 digest) }
           pairs }

def ownerStreams (target : DerivedRange) (parts : List DerivedRange) : List StreamPair :=
  (parts.filter fun part => part.ownerNodeId ≠ target.ownerNodeId).map fun part =>
    (part.ownerNodeId, target.ownerNodeId)

def collectCandidates (state : ClusterState) (epoch : Nat) (oldRanges : List DerivedRange) :
    List DerivedRange → Except Status MergeProof
  | [] => .ok { required := [], candidates := [] }
  | target :: rest => do
      let parts := constituents oldRanges target
      if parts.isEmpty then throw ⟨.dataLoss, "merged range has no old constituents"⟩
      let later ← state.collectCandidates epoch oldRanges rest
      return { required := ownerStreams target parts ++ later.required
               candidates := target.followerNodeIds.filterMap
                 (state.candidateFor hashing epoch target parts) ++
                 later.candidates }

def requireFollowers (candidates : List CandidateAdmission) (range : DerivedRange) :
    List String → Except Status (List StreamPair)
  | [] => .ok []
  | follower :: rest =>
      match candidates.find? fun candidate =>
          candidate.admission.startExclusive = range.startExclusive ∧
            candidate.admission.endInclusive = range.endInclusive ∧ candidate.admission.nodeId =
              follower with
      | none => .error ⟨.failedPrecondition, "required merged follower lacks admitted coverage"⟩
      | some candidate => do return candidate.pairs ++ (← requireFollowers candidates range rest)

def requireEachRange (candidates : List CandidateAdmission) (needed : Nat) :
    List DerivedRange → Except Status (List StreamPair)
  | [] => .ok []
  | range :: rest => do
      if range.followerNodeIds.length < needed then
        throw ⟨.failedPrecondition, "merged range cannot satisfy its write guard"⟩
      let pairs ← requireFollowers candidates range (range.followerNodeIds.take needed)
      return pairs ++ (← requireEachRange candidates needed rest)

def mergeProof (state : ClusterState) (change : TopologyChange) : Except Status MergeProof := do
  state.proveRemovalOwnerCoverage change.targetTopology
  let oldRanges ← internalTopology state.committed.derivedRanges
  let targetRanges ← internalTopology change.targetTopology.derivedRanges
  let collected ← state.collectCandidates hashing change.targetTopology.epoch oldRanges targetRanges
  let followers ← requireEachRange collected.candidates
      (requiredMergeFollowers change.targetTopology) targetRanges
  return { required := (collected.required ++ followers).dedup, candidates := collected.candidates }

def canDirectMerge (state : ClusterState) (change : TopologyChange) : Bool :=
  canPrepareDirectMerge state.committed change && (state.mergeProof hashing change).isOk

def missingMergeStreams (state : ClusterState) (change : TopologyChange) :
    Except Status (List StreamPair) := do
  let oldRanges ← internalTopology state.committed.derivedRanges
  let targetRanges ← internalTopology change.targetTopology.derivedRanges
  let needed := requiredMergeFollowers change.targetTopology
  return (targetRanges.flatMap fun target =>
    (constituents oldRanges target).flatMap fun part =>
      ((target.ownerNodeId :: target.followerNodeIds.take needed).filter fun node =>
        part.ownerNodeId ≠ node ∧ (state.admissionFor part node).isNone).map fun node =>
          (part.ownerNodeId, node)).dedup

inductive RemovalPublication where
  | graceful (admissions : List ReplicaAdmission)
  | failed

def activeIs (state : ClusterState) (change : TopologyChange) : Bool :=
  state.activeChange.any fun active => changeIdentity active = changeIdentity change

def publishRemovedTopology (state : ClusterState) (change : TopologyChange)
    (publication : RemovalPublication) :
    Except Status ClusterState := do
  let active ← match state.activeChange with
    | some active =>
        if changeIdentity active = changeIdentity change then pure active
        else throw ⟨.failedPrecondition, "removal transition changed before publication"⟩
    | none => throw ⟨.failedPrecondition, "removal transition changed before publication"⟩
  let (admissions, processInstances) ← match publication with
    | .graceful admissions => pure (admissions, state.processInstances)
    | .failed =>
        match change.failedNodeId with
        | none => throw ⟨.internal, "failure transition omitted node identity"⟩
        | some nodeId => pure ([], state.processInstances.erase nodeId)
  let next : ClusterState := { state with
    committed := change.targetTopology
    processInstances
    replicaAdmissions := admissions
    replicaRepairs := []
    activeChange := some { active with phase := .published, activationReady := true } }
  next.reconcileReplicaRepairs.mapError fun error => ⟨.internal, error.message⟩

end ClusterState
end Hashring
