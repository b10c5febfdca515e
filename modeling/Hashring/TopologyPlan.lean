import Hashring.Encoding
import Hashring.PlacementLaw

/-! Planning a topology change (crates/hashring-core/src/migration.rs): the
ranges that change owner, the follower copies the target adds, and the change
record the coordinator then carries through its phases. Work-step durations and
copy counts are left out: only status reports read them. -/
namespace Hashring

def maxMigrationRanges : Nat := 16384
def maxReplicaObligations : Nat := 131072

inductive MigrationPhase where
  | planned
  | resetting
  | copyingSnapshot
  | replayingChangelog
  | pausingWrites
  | verifying
  | readyToPublish
  | published
  | cleaningUp
  | complete
  | aborting
  | aborted
  deriving DecidableEq

def MigrationPhase.isTerminal (phase : MigrationPhase) : Bool :=
  match phase with
  | complete | aborted => true
  | _ => false

structure RangeMigration where
  rangeId : String
  startExclusive : Token
  endInclusive : Token
  sourceNodeId : String
  destinationNodeId : String
  sourceEndpoint : String
  destinationEndpoint : String
  sourceProcessInstanceId : String := ""
  destinationProcessInstanceId : String := ""
  sourceCleaned : Bool := false
  changelogWatermark : Nat := 0
  verified : Bool := false
  deriving DecidableEq

structure ReplicaObligation where
  startExclusive : Token
  endInclusive : Token
  sourceNodeId : String
  destinationNodeId : String
  deriving DecidableEq

structure TopologyChange where
  changeId : String
  baseEpoch : Nat
  baseTopology : Option TopologySnapshot
  supersedesChangeId : Option String := none
  targetTopology : TopologySnapshot
  phase : MigrationPhase := .planned
  ranges : List RangeMigration
  replicaObligations : List ReplicaObligation
  stoppedNodeIds : List String := []
  stoppingNodeIds : List String := []
  stopPreparedNodeIds : List String := []
  failedNodeId : Option String := none
  activationReady : Bool := false
  directMerge : Bool := false
  deriving DecidableEq

inductive MigrationError where
  | topology (error : TopologyError)
  | noTopologyChange
  | endpointChangeUnsupported (nodeId : String)
  | epochOverflow
  | tooManyRanges
  | tooManyReplicaObligations
  | missingTargetTopology
  | unknownPhase (value : Int)
  deriving DecidableEq

def MigrationError.message : MigrationError → String
  | topology error => s!"invalid target topology: {error.message}"
  | noTopologyChange => "target topology is identical to committed topology"
  | endpointChangeUnsupported nodeId =>
      s!"changing the endpoint of existing node {nodeId} is not supported for in-memory nodes"
  | epochOverflow => "topology epoch overflow"
  | tooManyRanges => s!"topology change exceeds the {maxMigrationRanges} moving-range limit"
  | tooManyReplicaObligations =>
      s!"topology change exceeds the {maxReplicaObligations} new-follower obligation limit"
  | missingTargetTopology => "migration payload omitted target topology"
  | unknownPhase value => s!"unknown migration phase: {value}"

/-- `to_hex`: two lower-case digits for each byte. -/
def hex (bytes : Bytes) : String :=
  String.ofList (bytes.flatMap fun byte => [Nat.digitChar (byte.val / 16), Nat.digitChar (byte.val % 16)])

def rangeId (hashing : Hashing) (start end_ : Token) (source destination : String) : String :=
  hex (hashing.blake3 (utf8 "hashring-rs:range:v1" ++ [byte 0] ++ beBytes start ++ beBytes end_ ++
    encodeText source ++ encodeText destination))

def fromTopology {α : Type} (result : Except TopologyError α) : Except MigrationError α :=
  result.mapError .topology

theorem from_topology_ok {α : Type} {result : Except TopologyError α} {value : α}
    (converted : fromTopology result = .ok value) : result = .ok value := by
  cases result with
  | error error => exact absurd converted (by simp [fromTopology, Except.mapError])
  | ok found => exact congrArg Except.ok (Except.ok.inj converted)

namespace TopologyDelta

variable (hashing : Hashing) (committed target : TopologySnapshot)

def boundaries : List Token :=
  (((committed.assignments ++ target.assignments).map (·.token)).mergeSort (· ≤ ·)).dedup

def addObligations (committedReplicas : List String) (previous boundary : Token) (source : String) :
    List String → List ReplicaObligation → Except MigrationError (List ReplicaObligation)
  | [], obligations => .ok obligations
  | follower :: rest, obligations =>
      if follower ∈ committedReplicas then
        addObligations committedReplicas previous boundary source rest obligations
      else if obligations.length = maxReplicaObligations then .error .tooManyReplicaObligations
      else
        addObligations committedReplicas previous boundary source rest
          (obligations ++
            [{ startExclusive := previous, endInclusive := boundary
               sourceNodeId := source, destinationNodeId := follower }])

def addRange (previous boundary : Token) (ranges : List RangeMigration) :
    Except MigrationError (List RangeMigration) := do
  if ranges.length = maxMigrationRanges then throw .tooManyRanges
  let source ← fromTopology (committed.ownerForToken boundary)
  let destination ← fromTopology (target.ownerForToken boundary)
  return ranges ++
    [{ rangeId := rangeId hashing previous boundary source.nodeId destination.nodeId
       startExclusive := previous
       endInclusive := boundary
       sourceNodeId := source.nodeId
       destinationNodeId := destination.nodeId
       sourceEndpoint := source.endpoint
       destinationEndpoint := destination.endpoint }]

def moveRange (committedReplicas targetReplicas : List String) (previous boundary : Token)
    (ranges : List RangeMigration) : Except MigrationError (List RangeMigration) :=
  if committedReplicas.headD "" ≠ targetReplicas.headD "" then
    addRange hashing committed target previous boundary ranges
  else .ok ranges

/-- The loop over the boundaries, with the boundary before the first one and
what was collected so far. -/
def collect (previous : Token) (ranges : List RangeMigration) (obligations : List ReplicaObligation) :
    List Token → Except MigrationError (List RangeMigration × List ReplicaObligation)
  | [] => .ok (ranges, obligations)
  | boundary :: rest => do
      let committedReplicas ← fromTopology (committed.replicaNodeIdsForToken boundary)
      let targetReplicas ← fromTopology (target.replicaNodeIdsForToken boundary)
      let moved ← moveRange hashing committed target committedReplicas targetReplicas previous
          boundary ranges
      let added ← addObligations committedReplicas previous boundary (committedReplicas.headD "")
        targetReplicas.tail obligations
      collect boundary moved added rest

variable {hashing committed target}

theorem add_range_spec {previous boundary : Token} {ranges moved : List RangeMigration}
    (added : addRange hashing committed target previous boundary ranges = .ok moved) :
    ∃ range, moved = ranges ++ [range] ∧ range.startExclusive = previous ∧ range.endInclusive = boundary ∧
      committed.ownerId boundary = some range.sourceNodeId ∧
      target.ownerId boundary = some range.destinationNodeId := by
  unfold addRange at added
  simp only at added
  split at added
  · exact absurd added (thrown_ne_ok _ _ _)
  · obtain ⟨source, routed, added⟩ := bind_ok_iff.mp added
    obtain ⟨destination, rerouted, added⟩ := bind_ok_iff.mp added
    obtain rfl := Except.ok.inj added
    exact ⟨_, rfl, rfl, rfl, TopologySnapshot.owner_for_token_owner_id (from_topology_ok routed),
      TopologySnapshot.owner_for_token_owner_id (from_topology_ok rerouted)⟩

variable (committed target) in
def newFollower (nodeId : String) (boundary : Token) : Bool :=
  match committed.replicaNodeIdsForToken boundary, target.replicaNodeIdsForToken boundary with
  | .ok committedReplicas, .ok targetReplicas => nodeId ∈ targetReplicas.tail && nodeId ∉
      committedReplicas
  | _, _ => false

theorem add_obligations_spec {committedReplicas followers : List String} {previous boundary : Token}
    {source : String} {obligations kept : List ReplicaObligation}
    (added : addObligations committedReplicas previous boundary source followers obligations = .ok kept) :
    kept = obligations ++ (followers.filter (· ∉ committedReplicas)).map fun follower =>
      { startExclusive := previous, endInclusive := boundary
        sourceNodeId := source, destinationNodeId := follower } := by
  induction followers generalizing obligations with
  | nil =>
      obtain rfl := Except.ok.inj added
      simp
  | cons follower rest ih =>
      unfold addObligations at added
      split at added
      · rename_i known
        rw [ih added, List.filter_cons_of_neg (by simpa using known)]
      · rename_i fresh
        split at added
        · exact absurd added (by simp)
        · rw [ih added, List.filter_cons_of_pos (by simpa using fresh)]
          simp

variable (committed target) in
structure Collected (arcs : List (Token × Token)) (ranges found : List RangeMigration)
    (obligations kept : List ReplicaObligation) : Prop where
  rangeCount : ∀ within : Token × Token → Bool,
    found.countP (fun range => within (range.startExclusive, range.endInclusive)) =
      ranges.countP (fun range => within (range.startExclusive, range.endInclusive)) +
        arcs.countP fun arc => within arc && committed.ownerId arc.2 ≠ target.ownerId arc.2
  obligationCount : ∀ (within : Token × Token → Bool) (nodeId : String),
    kept.countP (fun obligation => within (obligation.startExclusive, obligation.endInclusive) &&
        obligation.destinationNodeId = nodeId) =
      obligations.countP (fun obligation => within (obligation.startExclusive, obligation.endInclusive) &&
        obligation.destinationNodeId = nodeId) +
        arcs.countP fun arc => within arc && newFollower committed target nodeId arc.2
  rangeNames : ∀ range ∈ found, range ∈ ranges ∨ (range.startExclusive, range.endInclusive) ∈ arcs ∧
    committed.ownerId range.endInclusive = some range.sourceNodeId ∧
    target.ownerId range.endInclusive = some range.destinationNodeId
  obligationNames : ∀ obligation ∈ kept, obligation ∈ obligations ∨
    (obligation.startExclusive, obligation.endInclusive) ∈ arcs ∧
    committed.ownerId obligation.endInclusive = some obligation.sourceNodeId

theorem Collected.trans {early late : List (Token × Token)} {ranges moved found : List RangeMigration}
    {obligations added kept : List ReplicaObligation}
    (first : Collected committed target early ranges moved obligations added)
    (second : Collected committed target late moved found added kept) :
    Collected committed target (early ++ late) ranges found obligations kept where
  rangeCount within := by
    rw [second.rangeCount, first.rangeCount, List.countP_append, Nat.add_assoc]
  obligationCount within nodeId := by
    rw [second.obligationCount, first.obligationCount, List.countP_append, Nat.add_assoc]
  rangeNames range member := by
    rcases second.rangeNames range member with before | ⟨arc, names⟩
    · rcases first.rangeNames range before with old | ⟨arc, names⟩
      · exact .inl old
      · exact .inr ⟨List.mem_append_left _ arc, names⟩
    · exact .inr ⟨List.mem_append_right _ arc, names⟩
  obligationNames obligation member := by
    rcases second.obligationNames obligation member with before | ⟨arc, names⟩
    · rcases first.obligationNames obligation before with old | ⟨arc, names⟩
      · exact .inl old
      · exact .inr ⟨List.mem_append_left _ arc, names⟩
    · exact .inr ⟨List.mem_append_right _ arc, names⟩

theorem move_range_spec {committedReplicas targetReplicas : List String} {previous boundary : Token}
    {ranges moved : List RangeMigration}
    (placed : committed.replicaNodeIdsForToken boundary = .ok committedReplicas)
    (replaced : target.replicaNodeIdsForToken boundary = .ok targetReplicas)
    (extended : moveRange hashing committed target committedReplicas targetReplicas previous
      boundary ranges =
      .ok moved) :
    (∀ within : Token × Token → Bool,
      moved.countP (fun range => within (range.startExclusive, range.endInclusive)) =
        ranges.countP (fun range => within (range.startExclusive, range.endInclusive)) +
          [(previous, boundary)].countP fun arc => within arc && committed.ownerId arc.2 ≠
            target.ownerId arc.2) ∧
      ∀ range ∈ moved, range ∈ ranges ∨
        (range.startExclusive, range.endInclusive) ∈ [(previous, boundary)] ∧
        committed.ownerId range.endInclusive = some range.sourceNodeId ∧
        target.ownerId range.endInclusive = some range.destinationNodeId := by
  -- The first replica is the owner, on either side.
  have heads : committedReplicas.headD "" = targetReplicas.headD "" ↔
      committed.ownerId boundary = target.ownerId boundary := by
    rw [← TopologySnapshot.replica_node_ids_head placed,
      ← TopologySnapshot.replica_node_ids_head replaced]
    obtain ⟨first, others, rfl⟩ :=
      List.exists_cons_of_ne_nil (TopologySnapshot.replica_node_ids_ne_nil placed)
    obtain ⟨head, tail, rfl⟩ :=
      List.exists_cons_of_ne_nil (TopologySnapshot.replica_node_ids_ne_nil replaced)
    simp
  unfold moveRange at extended
  split at extended
  · rename_i differs
    obtain ⟨range, rfl, starts, ends, source, destination⟩ := add_range_spec extended
    constructor
    · intro within
      rw [List.countP_append, List.countP_singleton, List.countP_singleton, starts, ends]
      simp [heads.not.mp differs]
    · intro probe member
      rcases List.mem_append.mp member with old | new
      · exact .inl old
      · obtain rfl := List.mem_singleton.mp new
        rw [starts, ends]
        exact .inr ⟨List.mem_singleton_self _, source, destination⟩
  · rename_i same
    obtain rfl := Except.ok.inj extended
    constructor
    · intro within
      simp [heads.mp (not_not.mp same)]
    · exact fun range member => .inl member

theorem added_obligations {committedReplicas targetReplicas : List String} {previous boundary : Token}
    {obligations added : List ReplicaObligation}
    (placed : committed.replicaNodeIdsForToken boundary = .ok committedReplicas)
    (replaced : target.replicaNodeIdsForToken boundary = .ok targetReplicas)
    (extended : addObligations committedReplicas previous boundary (committedReplicas.headD "")
      targetReplicas.tail
      obligations = .ok added) :
    (∀ (within : Token × Token → Bool) (nodeId : String),
      added.countP (fun obligation => within (obligation.startExclusive, obligation.endInclusive) &&
          obligation.destinationNodeId = nodeId) =
        obligations.countP (fun obligation =>
          within (obligation.startExclusive, obligation.endInclusive) &&
          obligation.destinationNodeId = nodeId) +
          [(previous, boundary)].countP fun arc => within arc && newFollower committed target nodeId
            arc.2) ∧
      ∀ obligation ∈ added, obligation ∈ obligations ∨
        (obligation.startExclusive, obligation.endInclusive) ∈ [(previous, boundary)] ∧
        committed.ownerId obligation.endInclusive = some obligation.sourceNodeId := by
  obtain rfl := add_obligations_spec extended
  constructor
  · intro within nodeId
    -- A follower is new to the token once at most.
    have distinct : (targetReplicas.tail.filter (· ∉ committedReplicas)).Nodup :=
      ((TopologySnapshot.replica_node_ids_nodup target boundary _ replaced).sublist
        (List.tail_sublist _)).filter _
    rw [List.countP_append, List.countP_map, List.countP_singleton]
    congr 1
    simp only [newFollower, placed, replaced, Function.comp_def]
    cases inside : within (previous, boundary) with
    | false => simp
    | true =>
        have once := distinct.count (a := nodeId)
        rw [List.count_eq_countP] at once
        simp only [Bool.true_and]
        refine (List.countP_congr fun follower _ => ?_).trans (once.trans ?_)
        · simp
        · simp [List.mem_filter]
  · intro probe member
    rcases List.mem_append.mp member with old | new
    · exact .inl old
    · obtain ⟨follower, -, rfl⟩ := List.mem_map.mp new
      refine .inr ⟨List.mem_singleton_self _, ?_⟩
      rw [← TopologySnapshot.replica_node_ids_head placed]
      obtain ⟨first, others, rfl⟩ :=
        List.exists_cons_of_ne_nil (TopologySnapshot.replica_node_ids_ne_nil placed)
      rfl

theorem collect_spec {rest : List Token} {previous : Token} {ranges found : List RangeMigration}
    {obligations kept : List ReplicaObligation}
    (collected : collect hashing committed target previous ranges obligations rest = .ok (found, kept)) :
    Collected committed target (RingArcs.arcsFrom previous rest) ranges found obligations kept := by
  induction rest generalizing previous ranges obligations with
  | nil =>
      obtain ⟨rfl, rfl⟩ := Prod.mk.inj (Except.ok.inj collected)
      exact ⟨fun _ => rfl, fun _ _ => rfl, fun _ member => .inl member, fun _ member => .inl member⟩
  | cons boundary rest ih =>
      unfold collect at collected
      obtain ⟨committedReplicas, placed, collected⟩ := bind_ok_iff.mp collected
      obtain ⟨targetReplicas, replaced, collected⟩ := bind_ok_iff.mp collected
      obtain ⟨moved, extended, collected⟩ := bind_ok_iff.mp collected
      obtain ⟨added, obliged, collected⟩ := bind_ok_iff.mp collected
      obtain ⟨rangeCount, rangeNames⟩ :=
        move_range_spec (from_topology_ok placed) (from_topology_ok replaced) extended
      obtain ⟨obligationCount, obligationNames⟩ :=
        added_obligations (from_topology_ok placed) (from_topology_ok replaced) obliged
      have first : Collected committed target [(previous, boundary)] ranges moved obligations added :=
        ⟨rangeCount, obligationCount, rangeNames, obligationNames⟩
      exact first.trans (ih collected)

theorem add_obligations_limit {committedReplicas followers : List String} {previous boundary : Token}
    {source : String} {obligations kept : List ReplicaObligation}
    (few : obligations.length ≤ maxReplicaObligations)
    (added : addObligations committedReplicas previous boundary source followers obligations = .ok kept) :
    kept.length ≤ maxReplicaObligations := by
  induction followers generalizing obligations with
  | nil =>
      obtain rfl := Except.ok.inj added
      exact few
  | cons follower rest ih =>
      unfold addObligations at added
      split at added
      · exact ih few added
      · split at added
        · exact absurd added (by simp)
        · rename_i room
          apply ih _ added
          rw [List.length_append, List.length_singleton]
          exact lt_of_le_of_ne few room

theorem move_range_limit {committedReplicas targetReplicas : List String} {previous boundary : Token}
    {ranges moved : List RangeMigration} (few : ranges.length ≤ maxMigrationRanges)
    (extended : moveRange hashing committed target committedReplicas targetReplicas previous
      boundary ranges =
      .ok moved) : moved.length ≤ maxMigrationRanges := by
  unfold moveRange at extended
  split at extended
  · have room : ranges.length ≠ maxMigrationRanges := by
      intro full
      unfold addRange at extended
      simp only [full, if_pos] at extended
      exact absurd extended (thrown_ne_ok _ _ _)
    obtain ⟨range, rfl, _⟩ := add_range_spec extended
    rw [List.length_append, List.length_singleton]
    exact lt_of_le_of_ne few room
  · obtain rfl := Except.ok.inj extended
    exact few

theorem collect_limits {rest : List Token} {previous : Token} {ranges found : List RangeMigration}
    {obligations kept : List ReplicaObligation} (fewRanges : ranges.length ≤ maxMigrationRanges)
    (fewObligations : obligations.length ≤ maxReplicaObligations)
    (collected : collect hashing committed target previous ranges obligations rest = .ok (found, kept)) :
    found.length ≤ maxMigrationRanges ∧ kept.length ≤ maxReplicaObligations := by
  induction rest generalizing previous ranges obligations with
  | nil =>
      obtain ⟨rfl, rfl⟩ := Prod.mk.inj (Except.ok.inj collected)
      exact ⟨fewRanges, fewObligations⟩
  | cons boundary rest ih =>
      unfold collect at collected
      obtain ⟨committedReplicas, placed, collected⟩ := bind_ok_iff.mp collected
      obtain ⟨targetReplicas, replaced, collected⟩ := bind_ok_iff.mp collected
      obtain ⟨moved, extended, collected⟩ := bind_ok_iff.mp collected
      obtain ⟨added, obliged, collected⟩ := bind_ok_iff.mp collected
      exact ih (move_range_limit fewRanges extended) (add_obligations_limit fewObligations obliged)
        collected

end TopologyDelta

def topologyDelta (hashing : Hashing) (committed target : TopologySnapshot) :
    Except MigrationError (List RangeMigration × List ReplicaObligation) :=
  let ordered := TopologyDelta.boundaries committed target
  match ordered.getLast? with
  | none => .error (.topology .noAssignments)
  | some last => TopologyDelta.collect hashing committed target last [] [] ordered

section

variable {hashing : Hashing} {committed target : TopologySnapshot} {ranges : List RangeMigration}
  {obligations : List ReplicaObligation}

theorem delta_boundaries (committed target : TopologySnapshot) :
    (TopologyDelta.boundaries committed target).Pairwise (· < ·) ∧
      (∀ assignment ∈ committed.assignments, assignment.token ∈ TopologyDelta.boundaries committed
        target) ∧
      ∀ assignment ∈ target.assignments, assignment.token ∈ TopologyDelta.boundaries committed
        target := by
  have placed : ∀ assignment ∈ committed.assignments ++ target.assignments,
      assignment.token ∈ TopologyDelta.boundaries committed target := by
    intro assignment present
    rw [TopologyDelta.boundaries, List.mem_dedup, List.mem_mergeSort]
    exact List.mem_map_of_mem present
  refine ⟨?_, fun assignment present => placed assignment (List.mem_append_left _ present),
    fun assignment present => placed assignment (List.mem_append_right _ present)⟩
  apply RingArcs.dedup_sorted
  have transitive : ∀ a b c : Token, decide (a ≤ b) = true → decide (b ≤ c) = true →
      decide (a ≤ c) = true :=
    fun a b c early late => decide_eq_true ((of_decide_eq_true early).trans (of_decide_eq_true late))
  have total : ∀ a b : Token, (decide (a ≤ b) || decide (b ≤ a)) = true :=
    fun a b => by simpa using le_total a b
  exact (List.pairwise_mergeSort transitive total _).imp of_decide_eq_true

theorem delta_collected (planned : topologyDelta hashing committed target = .ok (ranges, obligations)) :
    ∃ last, (TopologyDelta.boundaries committed target).getLast? = some last ∧
      TopologyDelta.Collected committed target
        (RingArcs.arcsFrom last (TopologyDelta.boundaries committed target))
        [] ranges [] obligations := by
  unfold topologyDelta at planned
  simp only at planned
  split at planned
  · exact absurd planned (by simp)
  · rename_i last final
    exact ⟨last, final, TopologyDelta.collect_spec planned⟩

theorem delta_limits (planned : topologyDelta hashing committed target = .ok (ranges, obligations)) :
    ranges.length ≤ maxMigrationRanges ∧ obligations.length ≤ maxReplicaObligations := by
  unfold topologyDelta at planned
  simp only at planned
  split at planned
  · exact absurd planned (by simp)
  · exact TopologyDelta.collect_limits (Nat.zero_le _) (Nat.zero_le _) planned

theorem delta_sources (planned : topologyDelta hashing committed target = .ok (ranges, obligations))
    {range : RangeMigration} (member : range ∈ ranges) :
    committed.ownerId range.endInclusive = some range.sourceNodeId := by
  obtain ⟨last, _, collected⟩ := delta_collected planned
  rcases collected.rangeNames range member with old | ⟨_, source, _⟩
  · exact absurd old List.not_mem_nil
  · exact source

theorem delta_ranges (planned : topologyDelta hashing committed target = .ok (ranges, obligations))
    (token : Token) :
    ranges.countP (fun range => rangeContains range.startExclusive range.endInclusive token) =
        (if committed.ownerId token ≠ target.ownerId token then 1 else 0) ∧
      ∀ range ∈ ranges, rangeContains range.startExclusive range.endInclusive token = true →
        committed.ownerId token = some range.sourceNodeId ∧
        target.ownerId token = some range.destinationNodeId := by
  obtain ⟨last, final, collected⟩ := delta_collected planned
  obtain ⟨sorted, onCommitted, onTarget⟩ := delta_boundaries committed target
  constructor
  · rw [collected.rangeCount fun arc => rangeContains arc.1 arc.2 token]
    have picked := RingArcs.arcs_picked sorted final token
      (fun boundary => committed.ownerId boundary ≠ target.ownerId boundary) (by
        intro finish together
        rw [(TopologySnapshot.unseparated_lookups onCommitted together).1,
          (TopologySnapshot.unseparated_lookups onTarget together).1])
    simp only [decide_eq_true_eq] at picked
    rw [List.countP_nil, Nat.zero_add]
    exact picked
  · intro range member inside
    rcases collected.rangeNames range member with old | ⟨arc, source, destination⟩
    · exact absurd old List.not_mem_nil
    · have together := RingArcs.arc_unseparated sorted final arc inside
      rw [(TopologySnapshot.unseparated_lookups onCommitted together).1,
        (TopologySnapshot.unseparated_lookups onTarget together).1]
      exact ⟨source, destination⟩

theorem delta_obligations (planned : topologyDelta hashing committed target = .ok (ranges, obligations))
    (token : Token) (nodeId : String) :
    obligations.countP (fun obligation => rangeContains obligation.startExclusive
      obligation.endInclusive token &&
        obligation.destinationNodeId = nodeId) =
        (if TopologyDelta.newFollower committed target nodeId token then 1 else 0) ∧
      ∀ obligation ∈ obligations, rangeContains obligation.startExclusive obligation.endInclusive
        token = true →
        committed.ownerId token = some obligation.sourceNodeId := by
  obtain ⟨last, final, collected⟩ := delta_collected planned
  obtain ⟨sorted, onCommitted, onTarget⟩ := delta_boundaries committed target
  constructor
  · rw [collected.obligationCount fun arc => rangeContains arc.1 arc.2 token]
    have picked := RingArcs.arcs_picked sorted final token
        (TopologyDelta.newFollower committed target nodeId) (by
      intro finish together
      unfold TopologyDelta.newFollower
      rw [(TopologySnapshot.unseparated_lookups onCommitted together).2,
        (TopologySnapshot.unseparated_lookups onTarget together).2])
    rw [List.countP_nil, Nat.zero_add]
    exact picked
  · intro obligation member inside
    rcases collected.obligationNames obligation member with old | ⟨arc, source⟩
    · exact absurd old List.not_mem_nil
    · rw [(TopologySnapshot.unseparated_lookups onCommitted
        (RingArcs.arc_unseparated sorted final arc inside)).1]
      exact source

end

/-- Every token lies in as many planned ranges as its owner changes, one or
none, and in one obligation for each follower the target adds. -/
theorem delta_exact {hashing : Hashing} {digestOf : TopologySnapshot → String}
    {committed target : TopologySnapshot} {ranges : List RangeMigration}
    {obligations : List ReplicaObligation}
    (validCommitted : committed.validate hashing digestOf = .ok ())
    (validTarget : target.validate hashing digestOf = .ok ())
    (planned : topologyDelta hashing committed target = .ok (ranges, obligations)) (token : Token) :
    ∃ oldOwner newOwner oldReplicas newReplicas,
      committed.ownerForToken token = .ok oldOwner ∧ target.ownerForToken token = .ok newOwner ∧
      committed.replicaNodeIdsForToken token = .ok oldReplicas ∧
      target.replicaNodeIdsForToken token = .ok newReplicas ∧
      (oldOwner.nodeId ≠ newOwner.nodeId ↔
        ranges.countP (fun range => rangeContains range.startExclusive range.endInclusive token) = 1) ∧
      (∀ range ∈ ranges, rangeContains range.startExclusive range.endInclusive token = true →
        range.sourceNodeId = oldOwner.nodeId ∧ range.destinationNodeId = newOwner.nodeId) ∧
      ∀ nodeId,
        (nodeId ∈ newReplicas.tail ∧ nodeId ∉ oldReplicas ↔
          obligations.countP (fun obligation =>
            rangeContains obligation.startExclusive obligation.endInclusive token &&
              obligation.destinationNodeId = nodeId) = 1) ∧
        ∀ obligation ∈ obligations, rangeContains obligation.startExclusive obligation.endInclusive
          token = true →
          obligation.destinationNodeId = nodeId → obligation.sourceNodeId = oldOwner.nodeId := by
  obtain ⟨oldOwner, -, routed, -⟩ :=
    (TopologySnapshot.validate_sound validCommitted).owner_for_token token
  obtain ⟨newOwner, -, rerouted, -⟩ := (TopologySnapshot.validate_sound validTarget).owner_for_token token
  have oldPlaced := (TopologySnapshot.validate_sound validCommitted).replica_node_ids token
  have newPlaced := (TopologySnapshot.validate_sound validTarget).replica_node_ids token
  have oldId := TopologySnapshot.owner_for_token_owner_id routed
  have newId := TopologySnapshot.owner_for_token_owner_id rerouted
  obtain ⟨rangeCount, rangeNames⟩ := delta_ranges planned token
  -- Both sides of each count are read off the two placements at the token.
  refine ⟨oldOwner, newOwner, _, _, routed, rerouted, oldPlaced, newPlaced, ?_, ?_, fun nodeId =>
    ⟨?_, ?_⟩⟩
  · -- Exactly one range covers a token that changes hands, and none another one.
    rw [rangeCount, oldId, newId]
    by_cases same : oldOwner.nodeId = newOwner.nodeId
    · simp [same]
    · simp [same]
  · intro range member inside
    obtain ⟨source, destination⟩ := rangeNames range member inside
    rw [oldId] at source
    rw [newId] at destination
    exact ⟨(Option.some.inj source).symm, (Option.some.inj destination).symm⟩
  · -- The same of the obligations of one follower.
    rw [(delta_obligations planned token nodeId).1]
    unfold TopologyDelta.newFollower
    rw [oldPlaced, newPlaced]
    simp only [Bool.and_eq_true, decide_eq_true_eq]
    split
    · rename_i added
      exact ⟨fun _ => rfl, fun _ => added⟩
    · rename_i kept
      exact ⟨fun added => absurd added kept, fun none => absurd none (by simp)⟩
  · intro obligation member inside _
    have source := (delta_obligations planned token nodeId).2 obligation member inside
    rw [oldId] at source
    exact (Option.some.inj source).symm

/-! Node "b" joins "a" on a ring of one point each. -/
namespace JoinSample

def hashing : Hashing where
  xxh3 bytes _ := (bytes.map (·.val)).sum
  blake3 bytes := bytes

def topology (epoch : Nat) (members : List Member) (assignments : List TokenAssignment) :
    TopologySnapshot where
  epoch
  hashSeed := 7
  virtualNodes := 1
  desiredReplicationFactor := 3
  writeAckPolicy := .ownerOnly
  writeAvailabilityGuard := {}
  timings := {}
  members
  assignments
  digest := ""

def alone : TopologySnapshot := topology 1 [⟨"a", "http://127.0.0.1:5001"⟩] [⟨2047, "a"⟩]

def joined : TopologySnapshot :=
  topology 2 [⟨"a", "http://127.0.0.1:5001"⟩, ⟨"b", "http://127.0.0.1:5002"⟩] [⟨2047, "a"⟩, ⟨2048, "b"⟩]

theorem topology_valid (hashing : Hashing) (epoch : Nat) (members : List Member)
    (assignments : List TokenAssignment)
    (ordered : members.Pairwise fun left right => decide (left.nodeId ≤ right.nodeId) = true)
    (points : members.flatMap (memberAssignments hashing 7 1) = assignments)
    (sorted : assignments.Pairwise fun left right => assignmentLe left right = true)
    (accepted : validateMembers members 1 = .ok ()) :
    (topology epoch members assignments).validate hashing (fun _ => "") = .ok () := by
  have listed : canonicalMembers members = members := List.mergeSort_of_pairwise ordered
  have built : TopologySnapshot.newWithTimings hashing (fun _ => "") epoch 7 1 members {} {} =
      .ok (topology epoch members assignments) := by
    unfold TopologySnapshot.newWithTimings canonicalAssignments
    rw [listed, points, List.mergeSort_of_pairwise sorted, accepted]
    rfl
  exact TopologySnapshot.new_with_timings_valid built

theorem alone_valid : alone.validate hashing (fun _ => "") = .ok () :=
  topology_valid _ _ _ _ (by decide) (by decide +kernel) (by decide) rfl

theorem joined_valid : joined.validate hashing (fun _ => "") = .ok () :=
  topology_valid _ _ _ _ (by decide) (by decide +kernel) (by decide) rfl

theorem join_planned :
    ∃ ranges obligations, topologyDelta hashing alone joined = .ok (ranges, obligations) := by
  have sorted : TopologyDelta.boundaries alone joined = [2047, 2048] := by
    unfold TopologyDelta.boundaries
    rw [List.mergeSort_of_pairwise (by decide)]
    decide
  unfold topologyDelta
  rw [sorted]
  exact ⟨_, _, rfl⟩

end JoinSample

/-- Token 2048 goes from "a" to "b", in one range. -/
theorem delta_exact_join :
    ∃ ranges obligations, topologyDelta JoinSample.hashing JoinSample.alone JoinSample.joined =
      .ok (ranges, obligations) ∧
      ranges.countP (fun range => rangeContains range.startExclusive range.endInclusive 2048) = 1 := by
  obtain ⟨ranges, obligations, planned⟩ := JoinSample.join_planned
  obtain ⟨oldOwner, newOwner, -, -, routed, rerouted, -, -, moved, -⟩ :=
    delta_exact JoinSample.alone_valid JoinSample.joined_valid planned 2048
  refine ⟨ranges, obligations, planned, moved.mp ?_⟩
  obtain rfl := Except.ok.inj routed
  obtain rfl := Except.ok.inj rerouted
  decide

namespace TopologyChange

variable (hashing : Hashing) (digestOf : TopologySnapshot → String)

/-- `plan_with_config`; the change ID is a fresh UUID. -/
def planWithConfig (changeId : String) (committed : TopologySnapshot) (targetMembers : List Member)
    (config : TopologyConfig) : Except MigrationError TopologyChange := do
  match committed.members.find? fun current =>
      (targetMembers.find? fun target => target.nodeId = current.nodeId).any fun target =>
        target.endpoint ≠ current.endpoint with
  | some current => throw (.endpointChangeUnsupported current.nodeId)
  | none => pure ()
  if committed.epoch = 2 ^ 64 - 1 then throw .epochOverflow
  let targetTopology ← fromTopology
      (TopologySnapshot.newWithTimings hashing digestOf (committed.epoch + 1)
    committed.hashSeed committed.virtualNodes targetMembers config committed.timings)
  if targetTopology.members = committed.members ∧ targetTopology.config = committed.config then
    throw .noTopologyChange
  let (ranges, replicaObligations) ← topologyDelta hashing committed targetTopology
  return { changeId, baseEpoch := committed.epoch, baseTopology := some committed, targetTopology
           ranges, replicaObligations }

/-- `plan`: the policy of the committed topology stays. -/
def plan (changeId : String) (committed : TopologySnapshot) (targetMembers : List Member) :
    Except MigrationError TopologyChange :=
  planWithConfig hashing digestOf changeId committed targetMembers committed.config

/-- A change as planned over `committed`, before any of its phases ran. -/
structure Planned (changeId : String) (committed : TopologySnapshot) (targetMembers : List Member)
    (change : TopologyChange) : Prop where
  identity : change.changeId = changeId
  baseEpoch : change.baseEpoch = committed.epoch
  baseTopology : change.baseTopology = some committed
  supersedes : change.supersedesChangeId = none
  phase : change.phase = .planned
  failedNodeId : change.failedNodeId = none
  activationReady : change.activationReady = false
  directMerge : change.directMerge = false
  epoch : change.targetTopology.epoch = committed.epoch + 1
  sameRing : TopologySnapshot.SameRing change.targetTopology committed
  members : change.targetTopology.members = canonicalMembers targetMembers
  canonical : change.targetTopology.Canonical hashing
  delta : topologyDelta hashing committed change.targetTopology =
    .ok (change.ranges, change.replicaObligations)

variable {hashing digestOf}

theorem plan_with_config_inv {changeId : String} {committed : TopologySnapshot}
    {targetMembers : List Member}
    {config : TopologyConfig} {change : TopologyChange}
    (accepted : planWithConfig hashing digestOf changeId committed targetMembers config = .ok change) :
    committed.epoch ≠ 2 ^ 64 - 1 ∧ ∃ targetTopology ranges replicaObligations,
      TopologySnapshot.newWithTimings hashing digestOf (committed.epoch + 1) committed.hashSeed
        committed.virtualNodes
        targetMembers config committed.timings = .ok targetTopology ∧
      topologyDelta hashing committed targetTopology = .ok (ranges, replicaObligations) ∧
      change = { changeId, baseEpoch := committed.epoch, baseTopology := some committed, targetTopology
                 ranges, replicaObligations } := by
  unfold planWithConfig at accepted
  simp only at accepted
  split at accepted
  · exact absurd accepted (thrown_ne_ok _ _ _)
  · obtain ⟨bounded, accepted⟩ := (unless_thrown_ok _ _ _ _).mp accepted
    obtain ⟨target, built, accepted⟩ := bind_ok_iff.mp accepted
    obtain ⟨_, accepted⟩ := (unless_thrown_ok _ _ _ _).mp accepted
    obtain ⟨⟨ranges, obligations⟩, delta, accepted⟩ := bind_ok_iff.mp accepted
    exact ⟨bounded, target, ranges, obligations, from_topology_ok built, delta,
      (Except.ok.inj accepted).symm⟩

theorem plan_with_config_planned {changeId : String} {committed : TopologySnapshot}
    {targetMembers : List Member}
    {config : TopologyConfig} {change : TopologyChange}
    (accepted : planWithConfig hashing digestOf changeId committed targetMembers config = .ok change) :
    Planned hashing changeId committed targetMembers change := by
  obtain ⟨_, target, ranges, obligations, built, delta, rfl⟩ := plan_with_config_inv accepted
  obtain ⟨epoch, seed, vnodes, timings, members, canonical⟩ :=
    TopologySnapshot.new_with_timings_spec hashing built
  exact ⟨rfl, rfl, rfl, rfl, rfl, rfl, rfl, rfl, epoch, ⟨seed, vnodes, timings⟩, members, canonical,
    delta⟩

end TopologyChange
end Hashring
