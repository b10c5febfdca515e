import Hashring.Records
import Mathlib.Data.List.Destutter
import Mathlib.Data.List.Sort

/-! The topology snapshot of crates/hashring-core/src/topology.rs: its
construction, its validation and the placement functions read by every node.
Serialisation to JSON belongs to serde; the digest over it is a parameter. -/
namespace Hashring

def hashAlgorithm : String := "xxh3-64"
def encodingVersion : Nat := 2
def maxMembers : Nat := 1024
def maxVirtualNodes : Nat := 4096
def maxTokenAssignments : Nat := 1048576
def maxNodeIdBytes : Nat := 32
def maxEndpointBytes : Nat := 256
def minClusterTimingMillis : Nat := 1000
def maxClusterTimingMillis : Nat := 24 * 60 * 60 * 1000

inductive WriteAckPolicy where
  | ownerOnly
  | firstSuccessor
  | allReplicas
  deriving DecidableEq

structure WriteAvailabilityGuard where
  minimumAdmittedCopies : Nat := 1
  minimumHealthyFollowers : Nat := 0
  maxReplicaLagMillis : Nat := 5000
  deriving DecidableEq

structure TopologyConfig where
  desiredReplicationFactor : Nat := 3
  writeAckPolicy : WriteAckPolicy := .ownerOnly
  writeAvailabilityGuard : WriteAvailabilityGuard := {}
  deriving DecidableEq

structure ClusterTimings where
  receiptRetentionMillis : Nat := 60000
  leaseDurationMillis : Nat := 5000
  deriving DecidableEq

def nanosPerMilli : Nat := 1000000

def ClusterTimings.receiptRetention (timings : ClusterTimings) : Nat :=
  timings.receiptRetentionMillis * nanosPerMilli

def ClusterTimings.leaseDuration (timings : ClusterTimings) : Nat :=
  timings.leaseDurationMillis * nanosPerMilli

structure Member where
  nodeId : String
  endpoint : String
  deriving DecidableEq

structure TokenAssignment where
  token : Token
  nodeId : String
  deriving DecidableEq

structure DerivedRange where
  startExclusive : Token
  endInclusive : Token
  ownerNodeId : String
  followerNodeIds : List String
  deriving DecidableEq

structure TopologySnapshot where
  epoch : Nat
  hashSeed : Nat
  hashAlgorithm : String := Hashring.hashAlgorithm
  encodingVersion : Nat := Hashring.encodingVersion
  virtualNodes : Nat
  desiredReplicationFactor : Nat
  writeAckPolicy : WriteAckPolicy
  writeAvailabilityGuard : WriteAvailabilityGuard
  timings : ClusterTimings
  members : List Member
  assignments : List TokenAssignment
  digest : String
  deriving DecidableEq

inductive TopologyError where
  | noMembers
  | noVirtualNodes
  | tooManyMembers
  | tooManyVirtualNodes
  | tooManyAssignments
  | emptyNodeId
  | nodeIdTooLong
  | emptyEndpoint
  | endpointTooLong
  | duplicateNodeId (nodeId : String)
  | duplicateEndpoint (endpoint : String)
  | noAssignments
  | unsupportedHashConfiguration (algorithm : String) (encodingVersion : Nat)
  | digestMismatch
  | nonCanonical
  | unknownAssignedNode (nodeId : String)
  | noReplicas
  | tooManyReplicas
  | firstSuccessorRequiresFollower
  | noMinimumAdmittedCopies
  | noMaximumReplicaLag
  | minimumAdmittedCopiesExceedReplicationFactor
  | minimumHealthyFollowersExceedReplicationFactor
  | unknownWriteAckPolicy (value : Int)
  | receiptRetentionOutOfRange
  | leaseDurationOutOfRange
  deriving DecidableEq

def TopologyError.message : TopologyError → String
  | noMembers => "a topology must contain at least one member"
  | noVirtualNodes => "virtual node count must be greater than zero"
  | tooManyMembers => s!"member count exceeds {maxMembers}"
  | tooManyVirtualNodes => s!"virtual node count exceeds {maxVirtualNodes}"
  | tooManyAssignments => s!"token assignment count exceeds {maxTokenAssignments}"
  | emptyNodeId => "node id must not be empty"
  | nodeIdTooLong => s!"node id exceeds {maxNodeIdBytes} bytes"
  | emptyEndpoint => "endpoint must not be empty"
  | endpointTooLong => s!"endpoint exceeds {maxEndpointBytes} bytes"
  | duplicateNodeId nodeId => s!"duplicate node id: {nodeId}"
  | duplicateEndpoint endpoint => s!"duplicate endpoint: {endpoint}"
  | noAssignments => "topology has no token assignments"
  | unsupportedHashConfiguration algorithm version =>
      s!"unsupported hash configuration: {algorithm}, encoding version {version}"
  | digestMismatch => "topology digest mismatch"
  | nonCanonical => "members or token assignments are not in canonical form"
  | unknownAssignedNode nodeId => s!"token assignment references unknown node: {nodeId}"
  | noReplicas => "desired replication factor must be greater than zero"
  | tooManyReplicas => s!"desired replication factor exceeds {maxMembers}"
  | firstSuccessorRequiresFollower =>
      "FirstSuccessor requires a desired replication factor of at least two"
  | noMinimumAdmittedCopies => "minimum admitted copies must be greater than zero"
  | noMaximumReplicaLag => "maximum replica lag must be greater than zero"
  | minimumAdmittedCopiesExceedReplicationFactor =>
      "minimum admitted copies exceeds the desired replication factor"
  | minimumHealthyFollowersExceedReplicationFactor =>
      "minimum healthy followers exceeds the desired follower count"
  | unknownWriteAckPolicy value => s!"unknown write acknowledgement policy: {value}"
  | receiptRetentionOutOfRange =>
      s!"receipt retention must be between {minClusterTimingMillis} and {maxClusterTimingMillis} ms"
  | leaseDurationOutOfRange =>
      s!"lease duration must be between {minClusterTimingMillis} and {maxClusterTimingMillis} ms"

def WriteAckPolicy.toProto : WriteAckPolicy → Int
  | .ownerOnly => 1
  | .firstSuccessor => 2
  | .allReplicas => 3

def WriteAckPolicy.tryFrom (value : Int) : Except TopologyError WriteAckPolicy :=
  if value = 1 then .ok .ownerOnly
  else if value = 2 then .ok .firstSuccessor
  else if value = 3 then .ok .allReplicas
  else .error (.unknownWriteAckPolicy value)

def ClusterTimings.validate (timings : ClusterTimings) : Except TopologyError Unit := do
  unless minClusterTimingMillis ≤ timings.receiptRetentionMillis ∧
      timings.receiptRetentionMillis ≤ maxClusterTimingMillis do
    throw .receiptRetentionOutOfRange
  unless minClusterTimingMillis ≤ timings.leaseDurationMillis ∧
      timings.leaseDurationMillis ≤ maxClusterTimingMillis do
    throw .leaseDurationOutOfRange

def validateConfig (config : TopologyConfig) : Except TopologyError Unit := do
  if config.desiredReplicationFactor = 0 then throw .noReplicas
  if maxMembers < config.desiredReplicationFactor then throw .tooManyReplicas
  if config.writeAckPolicy = .firstSuccessor ∧ config.desiredReplicationFactor < 2 then
    throw .firstSuccessorRequiresFollower
  if config.writeAvailabilityGuard.minimumAdmittedCopies = 0 then throw .noMinimumAdmittedCopies
  if config.writeAvailabilityGuard.maxReplicaLagMillis = 0 then throw .noMaximumReplicaLag
  if config.desiredReplicationFactor < config.writeAvailabilityGuard.minimumAdmittedCopies then
    throw .minimumAdmittedCopiesExceedReplicationFactor
  if config.desiredReplicationFactor - 1 < config.writeAvailabilityGuard.minimumHealthyFollowers then
    throw .minimumHealthyFollowersExceedReplicationFactor

def validateMember (nodeIds endpoints : List String) (member : Member) : Except TopologyError Unit := do
  if member.nodeId.isEmpty then throw .emptyNodeId
  if maxNodeIdBytes < member.nodeId.utf8ByteSize then throw .nodeIdTooLong
  if member.endpoint.isEmpty then throw .emptyEndpoint
  if maxEndpointBytes < member.endpoint.utf8ByteSize then throw .endpointTooLong
  if member.nodeId ∈ nodeIds then throw (.duplicateNodeId member.nodeId)
  if member.endpoint ∈ endpoints then throw (.duplicateEndpoint member.endpoint)

def validateEachMember : List String → List String → List Member → Except TopologyError Unit
  | _, _, [] => pure ()
  | nodeIds, endpoints, member :: rest => do
      validateMember nodeIds endpoints member
      validateEachMember (member.nodeId :: nodeIds) (member.endpoint :: endpoints) rest

def validateMembers (members : List Member) (virtualNodes : Nat) : Except TopologyError Unit := do
  if members.isEmpty then throw .noMembers
  if virtualNodes = 0 then throw .noVirtualNodes
  if maxMembers < members.length then throw .tooManyMembers
  if maxVirtualNodes < virtualNodes then throw .tooManyVirtualNodes
  if maxTokenAssignments < members.length * virtualNodes then throw .tooManyAssignments
  validateEachMember [] [] members

/-- The four bytes of `u32::to_be_bytes`. -/
def beBytes32 (n : Nat) : Bytes := (List.range 4).reverse.map fun i => byte (n / 256 ^ i)

def encodedVnode (nodeId : String) (vnode : Nat) : Bytes :=
  utf8 "hashring-rs:vnode:v1" ++ [byte 0] ++ beBytes nodeId.utf8ByteSize ++ utf8 nodeId ++ beBytes32 vnode

def memberAssignments (hashing : Hashing) (hashSeed virtualNodes : Nat) (member : Member) :
    List TokenAssignment :=
  (List.range virtualNodes).map fun vnode =>
    { token := hashing.xxh3 (encodedVnode member.nodeId vnode) hashSeed, nodeId := member.nodeId }

def assignmentLe (left right : TokenAssignment) : Bool :=
  left.token < right.token ∨ left.token = right.token ∧ left.nodeId ≤ right.nodeId

def canonicalMembers (members : List Member) : List Member :=
  members.mergeSort fun left right => left.nodeId ≤ right.nodeId

def canonicalAssignments (hashing : Hashing) (hashSeed virtualNodes : Nat) (members : List Member) :
    List TokenAssignment :=
  (members.flatMap (memberAssignments hashing hashSeed virtualNodes)).mergeSort assignmentLe

namespace TopologySnapshot

/-- `new_with_timings`; `digestOf` stands for the hex BLAKE3 of the JSON text. -/
def newWithTimings (hashing : Hashing) (digestOf : TopologySnapshot → String)
    (epoch hashSeed virtualNodes : Nat) (members : List Member) (config : TopologyConfig)
    (timings : ClusterTimings) : Except TopologyError TopologySnapshot := do
  validateMembers members virtualNodes
  validateConfig config
  timings.validate
  let snapshot : TopologySnapshot :=
    { epoch, hashSeed, virtualNodes
      desiredReplicationFactor := config.desiredReplicationFactor
      writeAckPolicy := config.writeAckPolicy
      writeAvailabilityGuard := config.writeAvailabilityGuard
      timings
      members := canonicalMembers members
      assignments := canonicalAssignments hashing hashSeed virtualNodes (canonicalMembers members)
      digest := "" }
  return { snapshot with digest := digestOf snapshot }

def config (topology : TopologySnapshot) : TopologyConfig :=
  { desiredReplicationFactor := topology.desiredReplicationFactor
    writeAckPolicy := topology.writeAckPolicy
    writeAvailabilityGuard := topology.writeAvailabilityGuard }

def keyToken (hashing : Hashing) (topology : TopologySnapshot) (key : Bytes) : Token :=
  Hashring.keyToken hashing key topology.hashSeed

/-- `partition_point` over the sorted assignments. -/
def partitionPoint (topology : TopologySnapshot) (token : Token) : Nat :=
  (topology.assignments.takeWhile fun assignment => assignment.token < token).length

-- The source indexes an empty list out of bounds; a validated snapshot has one
-- assignment for each virtual node, so the first error is never returned.
def ownerForToken (topology : TopologySnapshot) (token : Token) : Except TopologyError Member :=
  match topology.assignments[topology.partitionPoint token % topology.assignments.length]? with
  | none => .error .noAssignments
  | some assignment =>
      match topology.members.find? fun member => member.nodeId = assignment.nodeId with
      | none => .error (.unknownAssignedNode assignment.nodeId)
      | some member => .ok member

def collectReplicas (targetCount : Nat) : List String → List TokenAssignment → List String
  | replicas, [] => replicas
  | replicas, assignment :: rest =>
      if assignment.nodeId ∈ replicas then collectReplicas targetCount replicas rest
      else if (replicas ++ [assignment.nodeId]).length = targetCount then replicas ++ [assignment.nodeId]
      else collectReplicas targetCount (replicas ++ [assignment.nodeId]) rest

def replicaNodeIdsForToken (topology : TopologySnapshot) (token : Token) :
    Except TopologyError (List String) :=
  let ownerIndex := topology.partitionPoint token % topology.assignments.length
  let targetCount := min topology.desiredReplicationFactor topology.members.length
  match collectReplicas targetCount [] (topology.assignments.rotate ownerIndex) with
  | [] => .error .noAssignments
  | replicas => .ok replicas

theorem collect_replicas_nodup (targetCount : Nat) (assignments : List TokenAssignment)
    (replicas : List String)
    (distinct : replicas.Nodup) : (collectReplicas targetCount replicas assignments).Nodup := by
  induction assignments generalizing replicas with
  | nil => exact distinct
  | cons assignment rest ih =>
      unfold collectReplicas
      split
      · exact ih replicas distinct
      · rename_i absent
        have extended : (replicas ++ [assignment.nodeId]).Nodup :=
          List.nodup_append.mpr ⟨distinct, List.nodup_singleton _, by
            intro node old other new
            obtain rfl := List.mem_singleton.mp new
            rintro rfl
            exact absent old⟩
        split
        · exact extended
        · exact ih _ extended

theorem replica_node_ids_nodup (topology : TopologySnapshot) (token : Token) (replicas : List String)
    (placed : topology.replicaNodeIdsForToken token = .ok replicas) : replicas.Nodup := by
  have distinct := collect_replicas_nodup (min topology.desiredReplicationFactor topology.members.length)
    (topology.assignments.rotate (topology.partitionPoint token % topology.assignments.length))
      [] List.nodup_nil
  unfold replicaNodeIdsForToken at placed
  simp only at placed
  split at placed
  · exact absurd placed (by simp)
  · rw [← Except.ok.inj placed]
    exact distinct

def derivedRangesFrom (topology : TopologySnapshot) : Token → List Token →
    Except TopologyError (List DerivedRange)
  | _, [] => .ok []
  | previous, boundary :: rest => do
      let replicas ← topology.replicaNodeIdsForToken boundary
      let later ← topology.derivedRangesFrom boundary rest
      return { startExclusive := previous, endInclusive := boundary
               ownerNodeId := replicas.headD "", followerNodeIds := replicas.tail } :: later

def derivedRanges (topology : TopologySnapshot) : Except TopologyError (List DerivedRange) :=
  let boundaries := (topology.assignments.map (·.token)).destutter (· ≠ ·)
  match boundaries.getLast? with
  | none => .error .noAssignments
  | some previous => topology.derivedRangesFrom previous boundaries

def validate (hashing : Hashing) (digestOf : TopologySnapshot → String) (topology : TopologySnapshot) :
    Except TopologyError Unit := do
  validateMembers topology.members topology.virtualNodes
  validateConfig topology.config
  if topology.hashAlgorithm ≠ Hashring.hashAlgorithm ∨
      topology.encodingVersion ≠ Hashring.encodingVersion then
    throw (.unsupportedHashConfiguration topology.hashAlgorithm topology.encodingVersion)
  if topology.assignments.isEmpty then throw .noAssignments
  match topology.assignments.find? fun assignment =>
      !(topology.members.any fun member => member.nodeId = assignment.nodeId) with
  | some assignment => throw (.unknownAssignedNode assignment.nodeId)
  | none => pure ()
  let canonical ← newWithTimings hashing digestOf topology.epoch topology.hashSeed topology.virtualNodes
    topology.members topology.config topology.timings
  if canonical.digest ≠ topology.digest then throw .digestMismatch
  if canonical.members ≠ topology.members ∨ canonical.assignments ≠ topology.assignments then
    throw .nonCanonical

end TopologySnapshot

/-- `range_contains`: `(start, end]`, wrapping when start exceeds end and the
whole ring when they are equal. -/
def rangeContains (startExclusive endInclusive token : Token) : Bool :=
  if startExclusive < endInclusive then startExclusive < token && token ≤ endInclusive
  else if endInclusive < startExclusive then startExclusive < token || token ≤ endInclusive
  else true

/-! A ring of two members, for the concrete runs that accompany the general
results. Every key hashes to token 5, which "a" owns and "b" follows. -/
namespace Sample

def hashing : Hashing where
  xxh3 _ _ := 5
  blake3 bytes := List.replicate 31 (byte 0) ++ [byte bytes.length]

def topology : TopologySnapshot where
  epoch := 1
  hashSeed := 7
  virtualNodes := 1
  desiredReplicationFactor := 2
  writeAckPolicy := .firstSuccessor
  writeAvailabilityGuard := {}
  timings := {}
  members := [⟨"a", "http://127.0.0.1:5001"⟩, ⟨"b", "http://127.0.0.1:5002"⟩]
  assignments := [⟨10, "a"⟩, ⟨20, "b"⟩]
  digest := ""

def clock (now : Instant) : Clock where
  now := now
  later := now
  unixMillis := now / nanosPerMilli
  unixLater := now / nanosPerMilli
  ordered := le_refl now

end Sample
end Hashring
