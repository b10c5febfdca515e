import Hashring.PlacementLaw
import Hashring.TopologyPlan

/-! Topologies and topology changes on the wire: the conversions to and from the
protobuf messages (crates/hashring-core/src/topology.rs, migration.rs). A change
is carried whole here, with the durations and the record counts that the planner
and the coordinator only report. -/
namespace Hashring

namespace Proto

structure Member where
  nodeId : String
  endpoint : String
  deriving DecidableEq

structure TokenAssignment where
  token : Token
  nodeId : String
  deriving DecidableEq

structure WriteAvailabilityGuard where
  minimumAdmittedCopies : Nat
  minimumHealthyFollowers : Nat
  maxReplicaLagMillis : Nat
  deriving DecidableEq

/-- An enumeration is the number it travels as. -/
structure TopologySnapshot where
  epoch : Nat
  hashSeed : Nat
  hashAlgorithm : String
  encodingVersion : Nat
  virtualNodes : Nat
  members : List Member
  assignments : List TokenAssignment
  digest : String
  desiredReplicationFactor : Nat
  writeAckPolicy : Int
  writeAvailabilityGuard : Option WriteAvailabilityGuard
  receiptRetentionMillis : Nat
  leaseDurationMillis : Nat
  deriving DecidableEq

structure RangeMigration where
  rangeId : String
  startExclusive : Token
  endInclusive : Token
  sourceNodeId : String
  destinationNodeId : String
  snapshotRecords : Nat
  changelogWatermark : Nat
  verified : Bool
  sourceEndpoint : String
  destinationEndpoint : String
  sourceProcessInstanceId : String
  destinationProcessInstanceId : String
  sourceCleaned : Bool
  changelogReplayMs : Nat
  deriving DecidableEq

structure MigrationTimings where
  snapshotCopyMs : Nat
  changelogReplayMs : Nat
  pauseWritesMs : Nat
  verifyMs : Nat
  publishMs : Nat
  activationMs : Nat
  mergeProofMs : Nat
  catchUpMs : Nat
  deriving DecidableEq

structure ReplicaObligation where
  startExclusive : Token
  endInclusive : Token
  sourceNodeId : String
  destinationNodeId : String
  deriving DecidableEq

structure TopologyChangeSnapshot where
  changeId : String
  baseEpoch : Nat
  targetTopology : Option TopologySnapshot
  phase : Int
  ranges : List RangeMigration
  stoppedNodeIds : List String
  stoppingNodeIds : List String
  stopPreparedNodeIds : List String
  replicaObligations : List ReplicaObligation
  failedNodeId : String
  activationReady : Bool
  baseTopology : Option TopologySnapshot
  supersedesChangeId : String
  directMerge : Bool
  timings : Option MigrationTimings
  deriving DecidableEq

end Proto

def Member.toProto (member : Member) : Proto.Member where
  nodeId := member.nodeId
  endpoint := member.endpoint

def Member.ofProto (member : Proto.Member) : Member where
  nodeId := member.nodeId
  endpoint := member.endpoint

def TokenAssignment.toProto (assignment : TokenAssignment) : Proto.TokenAssignment where
  token := assignment.token
  nodeId := assignment.nodeId

def TokenAssignment.ofProto (assignment : Proto.TokenAssignment) : TokenAssignment where
  token := assignment.token
  nodeId := assignment.nodeId

def WriteAvailabilityGuard.toProto (guard : WriteAvailabilityGuard) : Proto.WriteAvailabilityGuard where
  minimumAdmittedCopies := guard.minimumAdmittedCopies
  minimumHealthyFollowers := guard.minimumHealthyFollowers
  maxReplicaLagMillis := guard.maxReplicaLagMillis

def WriteAvailabilityGuard.ofProto (guard : Proto.WriteAvailabilityGuard) : WriteAvailabilityGuard where
  minimumAdmittedCopies := guard.minimumAdmittedCopies
  minimumHealthyFollowers := guard.minimumHealthyFollowers
  maxReplicaLagMillis := guard.maxReplicaLagMillis

namespace TopologySnapshot

def toProto (snapshot : TopologySnapshot) : Proto.TopologySnapshot where
  epoch := snapshot.epoch
  hashSeed := snapshot.hashSeed
  hashAlgorithm := snapshot.hashAlgorithm
  encodingVersion := snapshot.encodingVersion
  virtualNodes := snapshot.virtualNodes
  desiredReplicationFactor := snapshot.desiredReplicationFactor
  writeAckPolicy := snapshot.writeAckPolicy.toProto
  writeAvailabilityGuard := some snapshot.writeAvailabilityGuard.toProto
  receiptRetentionMillis := snapshot.timings.receiptRetentionMillis
  leaseDurationMillis := snapshot.timings.leaseDurationMillis
  members := snapshot.members.map Member.toProto
  assignments := snapshot.assignments.map TokenAssignment.toProto
  digest := snapshot.digest

/-- The fields of a message, with the policy and the guard already read. -/
def ofProto (snapshot : Proto.TopologySnapshot) (policy : WriteAckPolicy)
    (guard : Proto.WriteAvailabilityGuard) :
    TopologySnapshot where
  epoch := snapshot.epoch
  hashSeed := snapshot.hashSeed
  hashAlgorithm := snapshot.hashAlgorithm
  encodingVersion := snapshot.encodingVersion
  virtualNodes := snapshot.virtualNodes
  desiredReplicationFactor := snapshot.desiredReplicationFactor
  writeAckPolicy := policy
  writeAvailabilityGuard := .ofProto guard
  timings := { receiptRetentionMillis := snapshot.receiptRetentionMillis
               leaseDurationMillis := snapshot.leaseDurationMillis }
  members := snapshot.members.map Member.ofProto
  assignments := snapshot.assignments.map TokenAssignment.ofProto
  digest := snapshot.digest

def tryFrom (hashing : Hashing) (digestOf : TopologySnapshot → String)
    (snapshot : Proto.TopologySnapshot) :
    Except TopologyError TopologySnapshot := do
  let policy ← WriteAckPolicy.tryFrom snapshot.writeAckPolicy
  match snapshot.writeAvailabilityGuard with
  | none => throw .noMinimumAdmittedCopies
  | some guard => do
      (ofProto snapshot policy guard).validate hashing digestOf
      return ofProto snapshot policy guard

end TopologySnapshot

/-- `RangeMigration` with what it reports besides its progress. -/
structure RangeReport where
  range : RangeMigration
  snapshotRecords : Nat := 0
  changelogReplayMs : Nat := 0
  deriving DecidableEq

structure MigrationTimings where
  snapshotCopyMs : Nat := 0
  changelogReplayMs : Nat := 0
  pauseWritesMs : Nat := 0
  verifyMs : Nat := 0
  publishMs : Nat := 0
  activationMs : Nat := 0
  mergeProofMs : Nat := 0
  catchUpMs : Nat := 0
  deriving DecidableEq

/-- `TopologyChange` with the reports of its ranges and its durations. -/
structure ChangeReport where
  changeId : String
  baseEpoch : Nat
  baseTopology : Option TopologySnapshot
  supersedesChangeId : Option String
  targetTopology : TopologySnapshot
  phase : MigrationPhase
  ranges : List RangeReport
  replicaObligations : List ReplicaObligation
  stoppedNodeIds : List String
  stoppingNodeIds : List String
  stopPreparedNodeIds : List String
  failedNodeId : Option String
  activationReady : Bool
  directMerge : Bool
  timings : MigrationTimings
  deriving DecidableEq

def ChangeReport.planned (change : TopologyChange) : ChangeReport where
  changeId := change.changeId
  baseEpoch := change.baseEpoch
  baseTopology := change.baseTopology
  supersedesChangeId := change.supersedesChangeId
  targetTopology := change.targetTopology
  phase := change.phase
  ranges := change.ranges.map fun range => { range }
  replicaObligations := change.replicaObligations
  stoppedNodeIds := change.stoppedNodeIds
  stoppingNodeIds := change.stoppingNodeIds
  stopPreparedNodeIds := change.stopPreparedNodeIds
  failedNodeId := change.failedNodeId
  activationReady := change.activationReady
  directMerge := change.directMerge
  timings := {}

def MigrationPhase.toProto : MigrationPhase → Int
  | .planned => 1
  | .copyingSnapshot => 2
  | .replayingChangelog => 3
  | .pausingWrites => 4
  | .verifying => 5
  | .readyToPublish => 6
  | .published => 7
  | .cleaningUp => 8
  | .complete => 9
  | .aborted => 10
  | .resetting => 11
  | .aborting => 12

def MigrationPhase.tryFrom (value : Int) : Except MigrationError MigrationPhase :=
  if value = 1 then .ok .planned
  else if value = 2 then .ok .copyingSnapshot
  else if value = 3 then .ok .replayingChangelog
  else if value = 4 then .ok .pausingWrites
  else if value = 5 then .ok .verifying
  else if value = 6 then .ok .readyToPublish
  else if value = 7 then .ok .published
  else if value = 8 then .ok .cleaningUp
  else if value = 9 then .ok .complete
  else if value = 10 then .ok .aborted
  else if value = 11 then .ok .resetting
  else if value = 12 then .ok .aborting
  else .error (.unknownPhase value)

def RangeReport.toProto (report : RangeReport) : Proto.RangeMigration where
  rangeId := report.range.rangeId
  startExclusive := report.range.startExclusive
  endInclusive := report.range.endInclusive
  sourceNodeId := report.range.sourceNodeId
  destinationNodeId := report.range.destinationNodeId
  sourceEndpoint := report.range.sourceEndpoint
  destinationEndpoint := report.range.destinationEndpoint
  sourceProcessInstanceId := report.range.sourceProcessInstanceId
  destinationProcessInstanceId := report.range.destinationProcessInstanceId
  sourceCleaned := report.range.sourceCleaned
  snapshotRecords := report.snapshotRecords
  changelogWatermark := report.range.changelogWatermark
  changelogReplayMs := report.changelogReplayMs
  verified := report.range.verified

def RangeReport.ofProto (range : Proto.RangeMigration) : RangeReport where
  range :=
    { rangeId := range.rangeId
      startExclusive := range.startExclusive
      endInclusive := range.endInclusive
      sourceNodeId := range.sourceNodeId
      destinationNodeId := range.destinationNodeId
      sourceEndpoint := range.sourceEndpoint
      destinationEndpoint := range.destinationEndpoint
      sourceProcessInstanceId := range.sourceProcessInstanceId
      destinationProcessInstanceId := range.destinationProcessInstanceId
      sourceCleaned := range.sourceCleaned
      changelogWatermark := range.changelogWatermark
      verified := range.verified }
  snapshotRecords := range.snapshotRecords
  changelogReplayMs := range.changelogReplayMs

def MigrationTimings.toProto (timings : MigrationTimings) : Proto.MigrationTimings where
  snapshotCopyMs := timings.snapshotCopyMs
  changelogReplayMs := timings.changelogReplayMs
  pauseWritesMs := timings.pauseWritesMs
  verifyMs := timings.verifyMs
  publishMs := timings.publishMs
  activationMs := timings.activationMs
  mergeProofMs := timings.mergeProofMs
  catchUpMs := timings.catchUpMs

def MigrationTimings.ofProto (timings : Proto.MigrationTimings) : MigrationTimings where
  snapshotCopyMs := timings.snapshotCopyMs
  changelogReplayMs := timings.changelogReplayMs
  pauseWritesMs := timings.pauseWritesMs
  verifyMs := timings.verifyMs
  publishMs := timings.publishMs
  activationMs := timings.activationMs
  mergeProofMs := timings.mergeProofMs
  catchUpMs := timings.catchUpMs

def ReplicaObligation.toProto (obligation : ReplicaObligation) : Proto.ReplicaObligation where
  startExclusive := obligation.startExclusive
  endInclusive := obligation.endInclusive
  sourceNodeId := obligation.sourceNodeId
  destinationNodeId := obligation.destinationNodeId

def ReplicaObligation.ofProto (obligation : Proto.ReplicaObligation) : ReplicaObligation where
  startExclusive := obligation.startExclusive
  endInclusive := obligation.endInclusive
  sourceNodeId := obligation.sourceNodeId
  destinationNodeId := obligation.destinationNodeId

def identifierOf (text : String) : Option String := if text.isEmpty then none else some text

namespace ChangeReport

def toProto (report : ChangeReport) : Proto.TopologyChangeSnapshot where
  changeId := report.changeId
  baseEpoch := report.baseEpoch
  baseTopology := report.baseTopology.map TopologySnapshot.toProto
  supersedesChangeId := report.supersedesChangeId.getD ""
  targetTopology := some report.targetTopology.toProto
  phase := report.phase.toProto
  ranges := report.ranges.map RangeReport.toProto
  replicaObligations := report.replicaObligations.map ReplicaObligation.toProto
  stoppedNodeIds := report.stoppedNodeIds
  stoppingNodeIds := report.stoppingNodeIds
  stopPreparedNodeIds := report.stopPreparedNodeIds
  failedNodeId := report.failedNodeId.getD ""
  activationReady := report.activationReady
  directMerge := report.directMerge
  timings := some report.timings.toProto

variable (hashing : Hashing) (digestOf : TopologySnapshot → String)

def topologyFrom (snapshot : Proto.TopologySnapshot) : Except MigrationError TopologySnapshot :=
  (TopologySnapshot.tryFrom hashing digestOf snapshot).mapError .topology

def baseFrom : Option Proto.TopologySnapshot → Except MigrationError (Option TopologySnapshot)
  | none => .ok none
  | some snapshot => (topologyFrom hashing digestOf snapshot).map some

def targetFrom : Option Proto.TopologySnapshot → Except MigrationError TopologySnapshot
  | none => .error .missingTargetTopology
  | some snapshot => topologyFrom hashing digestOf snapshot

def tryFrom (change : Proto.TopologyChangeSnapshot) : Except MigrationError ChangeReport := do
  let baseTopology ← baseFrom hashing digestOf change.baseTopology
  let targetTopology ← targetFrom hashing digestOf change.targetTopology
  let phase ← MigrationPhase.tryFrom change.phase
  return { changeId := change.changeId
           baseEpoch := change.baseEpoch
           baseTopology
           supersedesChangeId := identifierOf change.supersedesChangeId
           targetTopology
           phase
           ranges := change.ranges.map RangeReport.ofProto
           replicaObligations := change.replicaObligations.map ReplicaObligation.ofProto
           stoppedNodeIds := change.stoppedNodeIds
           stoppingNodeIds := change.stoppingNodeIds
           stopPreparedNodeIds := change.stopPreparedNodeIds
           failedNodeId := identifierOf change.failedNodeId
           activationReady := change.activationReady
           directMerge := change.directMerge
           timings := (change.timings.map MigrationTimings.ofProto).getD {} }

end ChangeReport

/-! ### Round trips -/

theorem policy_round_trip (policy : WriteAckPolicy) :
    WriteAckPolicy.tryFrom policy.toProto = .ok policy := by
  cases policy <;> rfl

theorem policy_back {value : Int} {policy : WriteAckPolicy}
    (read : WriteAckPolicy.tryFrom value = .ok policy) :
    policy.toProto = value := by
  unfold WriteAckPolicy.tryFrom at read
  split_ifs at read with first second third
  · obtain rfl := Except.ok.inj read
    exact first.symm
  · obtain rfl := Except.ok.inj read
    exact second.symm
  · obtain rfl := Except.ok.inj read
    exact third.symm

theorem phase_round_trip (phase : MigrationPhase) : MigrationPhase.tryFrom phase.toProto = .ok phase := by
  cases phase <;> rfl

theorem map_inverse {α β : Type} {forth : α → β} {back : β → α}
    (inverse : ∀ item, back (forth item) = item)
    (items : List α) : (items.map forth).map back = items := by
  rw [List.map_map]
  exact (List.map_congr_left fun item _ => inverse item).trans (List.map_id _)

theorem identifier_round_trip {identifier : Option String} (named : identifier ≠ some "") :
    identifierOf (identifier.getD "") = identifier := by
  cases identifier with
  | none => rfl
  | some text =>
      have full : text.isEmpty = false := by
        rw [Bool.eq_false_iff]
        intro empty
        exact named (congrArg some (String.isEmpty_iff.mp empty))
      unfold identifierOf
      simp [full]

namespace TopologySnapshot

variable {hashing : Hashing} {digestOf : TopologySnapshot → String}

/-- Validation accepts exactly what building from the same parts gives. -/
theorem validate_iff_built (snapshot : TopologySnapshot) :
    snapshot.validate hashing digestOf = .ok () ↔
      newWithTimings hashing digestOf snapshot.epoch snapshot.hashSeed snapshot.virtualNodes
        snapshot.members snapshot.config
        snapshot.timings = .ok snapshot := by
  constructor
  · intro valid
    unfold validate at valid
    obtain ⟨_, -, valid⟩ := bind_ok_iff.mp valid
    obtain ⟨_, -, valid⟩ := bind_ok_iff.mp valid
    simp only [unless_thrown_ok] at valid
    obtain ⟨hashes, -, valid⟩ := valid
    push Not at hashes
    split at valid
    · exact absurd valid (thrown_ne_ok _ _ _)
    -- Validation builds the snapshot anew and compares what the parts do not fix.
    · obtain ⟨canonical, built, valid⟩ := bind_ok_iff.mp valid
      simp only [unless_thrown_ok, thrown_at_end_ok] at valid
      obtain ⟨digests, same⟩ := valid
      push Not at digests same
      rw [built]
      unfold newWithTimings at built
      obtain ⟨_, -, built⟩ := bind_ok_iff.mp built
      obtain ⟨_, -, built⟩ := bind_ok_iff.mp built
      obtain ⟨_, -, built⟩ := bind_ok_iff.mp built
      obtain rfl := Except.ok.inj built
      cases snapshot
      simp only [config] at hashes digests same ⊢
      rw [Except.ok.injEq, mk.injEq]
      exact ⟨rfl, rfl, hashes.1.symm, hashes.2.symm, rfl, rfl, rfl, rfl, rfl, same.1, same.2, digests⟩
  · exact new_with_timings_valid

/-- An accepted snapshot is sorted, lists every virtual node of its members and
carries the hash of its other fields. -/
structure Exact (hashing : Hashing) (digestOf : TopologySnapshot → String)
    (snapshot : TopologySnapshot) : Prop where
  membersSorted : snapshot.members.Pairwise fun left right => left.nodeId < right.nodeId
  assignmentsSorted : snapshot.assignments.Pairwise fun left right => assignmentLe left right = true
  assignmentsComplete : snapshot.assignments.Perm
    (snapshot.members.flatMap (memberAssignments hashing snapshot.hashSeed snapshot.virtualNodes))
  hashAlgorithm : snapshot.hashAlgorithm = Hashring.hashAlgorithm
  encodingVersion : snapshot.encodingVersion = Hashring.encodingVersion
  digest : snapshot.digest = digestOf { snapshot with digest := "" }

theorem validate_exact {snapshot : TopologySnapshot}
    (valid : snapshot.validate hashing digestOf = .ok ()) :
    snapshot.Exact hashing digestOf := by
  have sound := validate_sound valid
  have built := (validate_iff_built snapshot).mp valid
  unfold newWithTimings at built
  obtain ⟨_, -, built⟩ := bind_ok_iff.mp built
  obtain ⟨_, -, built⟩ := bind_ok_iff.mp built
  obtain ⟨_, -, built⟩ := bind_ok_iff.mp built
  have same := Except.ok.inj built
  have members : canonicalMembers snapshot.members = snapshot.members :=
    congrArg TopologySnapshot.members same
  have assignments := congrArg TopologySnapshot.assignments same
  have algorithm : Hashring.hashAlgorithm = snapshot.hashAlgorithm :=
    congrArg TopologySnapshot.hashAlgorithm same
  have version : Hashring.encodingVersion = snapshot.encodingVersion :=
    congrArg TopologySnapshot.encodingVersion same
  have digest := congrArg TopologySnapshot.digest same
  simp only [members] at assignments digest
  refine ⟨?_, ?_, ?_, algorithm.symm, version.symm, ?_⟩
  -- Sorted and distinct names are strictly sorted.
  · have sorted := canonical_members_sorted snapshot.members
    rw [members] at sorted
    have distinct := List.pairwise_map.mp sound.distinct
    refine (sorted.and distinct).imp fun {left right} both => ?_
    exact lt_of_le_of_ne (of_decide_eq_true both.1) both.2
  · rw [← assignments]
    exact List.pairwise_mergeSort assignment_le_trans assignment_le_total _
  · rw [← assignments]
    exact List.mergeSort_perm _ _
  · rw [← digest]
    simp only [assignments, algorithm, version, config]

theorem to_proto_round_trip {snapshot : TopologySnapshot}
    (valid : snapshot.validate hashing digestOf = .ok ()) :
    tryFrom hashing digestOf snapshot.toProto = .ok snapshot := by
  have same : ofProto snapshot.toProto snapshot.writeAckPolicy
      snapshot.writeAvailabilityGuard.toProto = snapshot := by
    cases snapshot
    simp only [ofProto, toProto, mk.injEq, true_and, and_true]
    exact ⟨rfl, map_inverse (fun _ => rfl) _, map_inverse (fun _ => rfl) _⟩
  unfold tryFrom
  refine bind_ok_iff.mpr ⟨snapshot.writeAckPolicy, policy_round_trip _, ?_⟩
  simp only [toProto] at same ⊢
  rw [same, valid]
  rfl

theorem try_from_round_trip {message : Proto.TopologySnapshot} {snapshot : TopologySnapshot}
    (read : tryFrom hashing digestOf message = .ok snapshot) :
    snapshot.validate hashing digestOf = .ok () ∧ snapshot.toProto = message := by
  unfold tryFrom at read
  obtain ⟨policy, policed, read⟩ := bind_ok_iff.mp read
  cases guarded : message.writeAvailabilityGuard with
  | none =>
      rw [guarded] at read
      exact absurd read (by simp [throw, throwThe, MonadExceptOf.throw])
  | some guard =>
      simp only [guarded] at read
      obtain ⟨_, valid, read⟩ := bind_ok_iff.mp read
      obtain rfl := Except.ok.inj read
      refine ⟨valid, ?_⟩
      cases message
      simp only [Proto.TopologySnapshot.mk.injEq, toProto, ofProto, true_and, and_true]
      exact ⟨map_inverse (fun _ => rfl) _, map_inverse (fun _ => rfl) _, policy_back policed,
        guarded.symm⟩

end TopologySnapshot

namespace ChangeReport

variable {hashing : Hashing} {digestOf : TopologySnapshot → String}

theorem topology_from_round_trip {snapshot : TopologySnapshot}
    (valid : snapshot.validate hashing digestOf = .ok ()) :
    topologyFrom hashing digestOf snapshot.toProto = .ok snapshot := by
  unfold topologyFrom
  rw [TopologySnapshot.to_proto_round_trip valid]
  rfl

theorem base_from_round_trip {base : Option TopologySnapshot}
    (valid : ∀ snapshot, base = some snapshot → snapshot.validate hashing digestOf = .ok ()) :
    baseFrom hashing digestOf (base.map TopologySnapshot.toProto) = .ok base := by
  cases base with
  | none => rfl
  | some snapshot =>
      simp only [Option.map_some, baseFrom, topology_from_round_trip (valid snapshot rfl)]
      rfl

theorem to_proto_round_trip {report : ChangeReport}
    (target : report.targetTopology.validate hashing digestOf = .ok ())
    (base : ∀ snapshot, report.baseTopology = some snapshot → snapshot.validate hashing digestOf = .ok ())
    (superseded : report.supersedesChangeId ≠ some "") (failed : report.failedNodeId ≠ some "") :
    tryFrom hashing digestOf report.toProto = .ok report := by
  unfold tryFrom
  refine bind_ok_iff.mpr ⟨report.baseTopology, base_from_round_trip base, ?_⟩
  refine bind_ok_iff.mpr ⟨report.targetTopology, topology_from_round_trip target, ?_⟩
  refine bind_ok_iff.mpr ⟨report.phase, phase_round_trip _, ?_⟩
  have ranges : (report.ranges.map RangeReport.toProto).map RangeReport.ofProto = report.ranges :=
    map_inverse (fun _ => rfl) _
  have obligations : (report.replicaObligations.map ReplicaObligation.toProto).map
      ReplicaObligation.ofProto =
      report.replicaObligations := map_inverse (fun _ => rfl) _
  simp only [toProto, identifier_round_trip superseded, identifier_round_trip failed, ranges, obligations]
  rfl

end ChangeReport

/-- Validation accepts what construction builds, and the accepted topologies and
the changes between them come back from the wire as they were sent. -/
theorem topologies_survive_wire (hashing : Hashing) (digestOf : TopologySnapshot → String) :
    (∀ snapshot : TopologySnapshot, snapshot.validate hashing digestOf = .ok () ↔
      TopologySnapshot.newWithTimings hashing digestOf snapshot.epoch snapshot.hashSeed
        snapshot.virtualNodes
        snapshot.members snapshot.config snapshot.timings = .ok snapshot) ∧
    (∀ snapshot : TopologySnapshot, snapshot.validate hashing digestOf = .ok () →
      snapshot.Exact hashing digestOf ∧
      TopologySnapshot.tryFrom hashing digestOf snapshot.toProto = .ok snapshot) ∧
    (∀ message snapshot, TopologySnapshot.tryFrom hashing digestOf message = .ok snapshot →
      snapshot.validate hashing digestOf = .ok () ∧ snapshot.toProto = message) ∧
    ∀ report : ChangeReport, report.targetTopology.validate hashing digestOf = .ok () →
      (∀ base, report.baseTopology = some base → base.validate hashing digestOf = .ok ()) →
      report.supersedesChangeId ≠ some "" → report.failedNodeId ≠ some "" →
      ChangeReport.tryFrom hashing digestOf report.toProto = .ok report := by
  refine ⟨TopologySnapshot.validate_iff_built, fun snapshot valid => ?_, fun message snapshot read => ?_,
    fun report target base superseded failed => ?_⟩
  · exact ⟨TopologySnapshot.validate_exact valid, TopologySnapshot.to_proto_round_trip valid⟩
  · exact TopologySnapshot.try_from_round_trip read
  · exact ChangeReport.to_proto_round_trip target base superseded failed

namespace WireSample

def join : ChangeReport := .planned
  { changeId := "join", baseEpoch := 1, baseTopology := some JoinSample.alone, targetTopology := JoinSample.joined
    phase := .planned, failedNodeId := some "c"
    ranges := [{ rangeId := "range", startExclusive := 2047, endInclusive := 2048, sourceNodeId := "a"
                 destinationNodeId := "b", sourceEndpoint := "http://127.0.0.1:5001"
                 destinationEndpoint := "http://127.0.0.1:5002" }]
    replicaObligations := [] }

end WireSample

theorem topologies_survive_wire_join :
    TopologySnapshot.tryFrom JoinSample.hashing (fun _ => "") JoinSample.joined.toProto =
      .ok JoinSample.joined ∧
      ChangeReport.tryFrom JoinSample.hashing (fun _ => "") WireSample.join.toProto =
        .ok WireSample.join := by
  obtain ⟨_, snapshots, _, changes⟩ := topologies_survive_wire JoinSample.hashing fun _ => ""
  refine ⟨(snapshots _ JoinSample.joined_valid).2, changes _ JoinSample.joined_valid
    (fun base found => ?_)
    (by decide) (by decide)⟩
  obtain rfl := Option.some.inj found
  exact JoinSample.alone_valid

end Hashring
