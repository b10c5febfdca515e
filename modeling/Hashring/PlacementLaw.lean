import Hashring.Placement
import Hashring.RingArcs

/-! Placement on the ring: which nodes hold a token in a valid topology, how
that changes with the member set, and that the derived ranges say the same. -/
namespace Hashring

/-! A ring of three members with two points each, some of them colliding. -/
namespace RingSample

def hashing : Hashing where
  xxh3 bytes _ := (bytes.map (·.val)).sum % 5
  blake3 bytes := bytes

def members : List Member :=
    [⟨"a", "http://127.0.0.1:5001"⟩, ⟨"b", "http://127.0.0.1:5002"⟩, ⟨"c", "http://127.0.0.1:5003"⟩]

def topologyOf (epoch : Nat) (members : List Member) : TopologySnapshot :=
  (TopologySnapshot.newWithTimings hashing (fun _ => "") epoch 7 2 members {} {}).toOption.getD
    Sample.topology

theorem built (epoch : Nat) :
    TopologySnapshot.newWithTimings hashing (fun _ => "") epoch 7 2 members {}
      {} = .ok (topologyOf epoch members) ∧
      TopologySnapshot.newWithTimings hashing (fun _ => "") epoch 7 2 members.tail {}
        {} = .ok (topologyOf epoch members.tail) :=
  ⟨rfl, rfl⟩

end RingSample

namespace TopologySnapshot

section

variable (hashing : Hashing)

/-- The distinct nodes in the order a walk from the token meets them. -/
def clockwiseNodes (topology : TopologySnapshot) (token : Token) : List String :=
  ((topology.assignments.rotate (topology.partitionPoint token % topology.assignments.length)).map
    (·.nodeId)).eraseDups

theorem collect_replicas_take (targetCount : Nat) (assignments : List TokenAssignment)
    (replicas : List String) (room : replicas.length < targetCount) :
    collectReplicas targetCount replicas assignments =
      replicas ++ (((assignments.map (·.nodeId)).filter (· ∉ replicas)).eraseDups).take
        (targetCount - replicas.length) := by
  induction assignments generalizing replicas with
  | nil => simp [collectReplicas]
  | cons assignment rest ih =>
      unfold collectReplicas
      split
      · rename_i present
        rw [ih replicas room]
        simp [present]
      · rename_i absent
        rw [List.map_cons, List.filter_cons_of_pos (by simpa using absent), List.eraseDups_cons]
        split
        · rename_i full
          have one : targetCount - replicas.length = 1 := by
            simp at full
            omega
          simp [one]
        · rename_i partly
          have more : (replicas ++ [assignment.nodeId]).length < targetCount := by
            simp at partly ⊢
            omega
          have left : targetCount - replicas.length = targetCount -
              (replicas ++ [assignment.nodeId]).length + 1 := by
            simp at more ⊢
            omega
          rw [ih _ more, left, List.take_succ_cons, List.append_assoc, List.singleton_append,
            List.filter_filter]
          congr 3
          apply congrArg List.eraseDups
          apply List.filter_congr
          intro nodeId _
          by_cases same : nodeId = assignment.nodeId
          · simp [same]
          · simp [same]

/-- The checks of one member that do not look at the others. -/
def MemberFits (member : Member) : Prop :=
  ¬member.nodeId.isEmpty ∧ ¬maxNodeIdBytes < member.nodeId.utf8ByteSize ∧ ¬member.endpoint.isEmpty ∧
    ¬maxEndpointBytes < member.endpoint.utf8ByteSize

theorem validate_member_iff (nodeIds endpoints : List String) (member : Member) :
    validateMember nodeIds endpoints member = .ok () ↔
      MemberFits member ∧ member.nodeId ∉ nodeIds ∧ member.endpoint ∉ endpoints := by
  unfold validateMember MemberFits
  simp only [unless_thrown_ok, thrown_at_end_ok, and_assoc]

theorem validate_each_member_iff (nodeIds endpoints : List String) (members : List Member) :
    validateEachMember nodeIds endpoints members = .ok () ↔
      (∀ member ∈ members, MemberFits member ∧ member.nodeId ∉ nodeIds ∧ member.endpoint ∉ endpoints) ∧
        (members.map (·.nodeId)).Nodup ∧ (members.map (·.endpoint)).Nodup := by
  induction members generalizing nodeIds endpoints with
  | nil => simp [validateEachMember, pure, Except.pure]
  | cons member rest ih =>
      unfold validateEachMember
      rw [bind_ok_iff]
      constructor
      · rintro ⟨_, head, tail⟩
        obtain ⟨fits, freshId, freshEndpoint⟩ := (validate_member_iff _ _ _).mp head
        obtain ⟨others, ids, endpoints⟩ := (ih _ _).mp tail
        refine ⟨fun probe present => ?_, List.nodup_cons.mpr ⟨?_, ids⟩,
          List.nodup_cons.mpr ⟨?_, endpoints⟩⟩
        · rcases List.mem_cons.mp present with rfl | present
          · exact ⟨fits, freshId, freshEndpoint⟩
          · obtain ⟨fits, freshId, freshEndpoint⟩ := others probe present
            exact ⟨fits, List.not_mem_of_not_mem_cons freshId, List.not_mem_of_not_mem_cons freshEndpoint⟩
        · -- A later member of the same ID would find it among those seen.
          intro repeated
          obtain ⟨other, present, same⟩ := List.mem_map.mp repeated
          exact (others other present).2.1 (same ▸ List.mem_cons_self)
        · intro repeated
          obtain ⟨other, present, same⟩ := List.mem_map.mp repeated
          exact (others other present).2.2 (same ▸ List.mem_cons_self)
      · rintro ⟨all, ids, distinctEndpoints⟩
        obtain ⟨freshId, ids⟩ := List.nodup_cons.mp ids
        obtain ⟨freshEndpoint, distinctEndpoints⟩ := List.nodup_cons.mp distinctEndpoints
        refine ⟨(), (validate_member_iff _ _ _).mpr (all member List.mem_cons_self),
          (ih _ _).mpr ⟨?_, ids, distinctEndpoints⟩⟩
        intro other present
        obtain ⟨fits, unseenId, unseenEndpoint⟩ := all other (List.mem_cons_of_mem _ present)
        refine ⟨fits, ?_, ?_⟩
        · intro seen
          rcases List.mem_cons.mp seen with same | seen
          · exact freshId (List.mem_map.mpr ⟨other, present, same⟩)
          · exact unseenId seen
        · intro seen
          rcases List.mem_cons.mp seen with same | seen
          · exact freshEndpoint (List.mem_map.mpr ⟨other, present, same⟩)
          · exact unseenEndpoint seen

theorem validate_members_iff (members : List Member) (virtualNodes : Nat) :
    validateMembers members virtualNodes = .ok () ↔
      ¬members.isEmpty ∧ ¬virtualNodes = 0 ∧ ¬maxMembers < members.length ∧ ¬maxVirtualNodes <
        virtualNodes ∧
        ¬maxTokenAssignments < members.length * virtualNodes ∧ validateEachMember []
          [] members = .ok () := by
  unfold validateMembers
  simp only [unless_thrown_ok]

/-- The facts of a valid topology that placement rests on. -/
structure Sound (topology : TopologySnapshot) : Prop where
  canonical : topology.Canonical hashing
  distinct : (topology.members.map (·.nodeId)).Nodup
  members : topology.members ≠ []
  virtualNodes : 0 < topology.virtualNodes
  replicas : 0 < topology.desiredReplicationFactor

theorem validate_members_spec {members : List Member} {virtualNodes : Nat}
    (valid : validateMembers members virtualNodes = .ok ()) :
    members ≠ [] ∧ 0 < virtualNodes ∧ (members.map (·.nodeId)).Nodup := by
  obtain ⟨nonempty, positive, -, -, -, each⟩ := (validate_members_iff _ _).mp valid
  exact ⟨by simpa using nonempty, Nat.pos_of_ne_zero positive,
    ((validate_each_member_iff _ _ _).mp each).2.1⟩

theorem validate_members_perm {members listed : List Member} {virtualNodes : Nat}
    (same : listed.Perm members)
    (valid : validateMembers members virtualNodes = .ok ()) :
    validateMembers listed virtualNodes = .ok () := by
  rw [validate_members_iff, validate_each_member_iff] at valid ⊢
  obtain ⟨nonempty, positive, members, vnodes, points, fit, ids, endpoints⟩ := valid
  refine ⟨?_, positive, same.length_eq ▸ members, vnodes, same.length_eq ▸ points, ?_, ?_, ?_⟩
  · intro empty
    rw [List.isEmpty_iff.mp empty] at same
    exact nonempty (List.isEmpty_iff.mpr (List.perm_nil.mp same.symm))
  · exact fun member present => fit member (same.mem_iff.mp present)
  · exact (same.map _).nodup_iff.mpr ids
  · exact (same.map _).nodup_iff.mpr endpoints

theorem validate_config_spec {config : TopologyConfig} (valid : validateConfig config = .ok ()) :
    0 < config.desiredReplicationFactor := by
  apply Nat.pos_of_ne_zero
  intro zero
  unfold validateConfig at valid
  extract_lets at valid
  rw [if_pos zero] at valid
  exact thrown_ne_ok _ _ _ valid

variable {hashing}

theorem new_with_timings_sound {digestOf : TopologySnapshot → String} {epoch hashSeed virtualNodes : Nat}
    {members : List Member} {config : TopologyConfig} {timings : ClusterTimings}
    {topology : TopologySnapshot}
    (built : newWithTimings hashing digestOf epoch hashSeed virtualNodes members config timings =
      .ok topology) :
    topology.Sound hashing ∧ topology.members.Perm members ∧
      topology.desiredReplicationFactor = config.desiredReplicationFactor := by
  obtain ⟨-, -, vnodes, -, listed, canonical⟩ := new_with_timings_spec hashing built
  unfold newWithTimings at built
  obtain ⟨_, validMembers, built⟩ := bind_ok_iff.mp built
  obtain ⟨_, validConfig, built⟩ := bind_ok_iff.mp built
  obtain ⟨_, -, built⟩ := bind_ok_iff.mp built
  obtain rfl := Except.ok.inj built
  obtain ⟨nonempty, positive, distinct⟩ := validate_members_spec validMembers
  have same : (canonicalMembers members).Perm members := List.mergeSort_perm _ _
  refine ⟨⟨canonical, ?_, ?_, positive, validate_config_spec validConfig⟩, same, rfl⟩
  · exact (same.map _).nodup_iff.mpr distinct
  · exact fun empty => nonempty (List.perm_nil.mp (empty ▸ same.symm))

theorem validate_sound {digestOf : TopologySnapshot → String} {topology : TopologySnapshot}
    (valid : topology.validate hashing digestOf = .ok ()) : topology.Sound hashing := by
  have canonical := validate_canonical hashing valid
  unfold validate at valid
  obtain ⟨_, validMembers, valid⟩ := bind_ok_iff.mp valid
  obtain ⟨_, validConfig, -⟩ := bind_ok_iff.mp valid
  obtain ⟨nonempty, positive, distinct⟩ := validate_members_spec validMembers
  exact ⟨canonical, distinct, nonempty, positive, validate_config_spec validConfig⟩

namespace Sound

variable {topology : TopologySnapshot} (sound : topology.Sound hashing)

include sound

theorem assignments_sorted :
    topology.assignments.Pairwise fun left right => left.token ≤ right.token := by
  rw [sound.canonical.assignments]
  apply (List.pairwise_mergeSort assignment_le_trans assignment_le_total _).imp
  intro left right ordered
  simp only [assignmentLe, decide_eq_true_eq] at ordered
  rcases ordered with before | ⟨same, -⟩
  · exact before.le
  · exact same.le

theorem mem_assignments (nodeId : String) :
    (∃ assignment ∈ topology.assignments, assignment.nodeId = nodeId) ↔
      nodeId ∈ topology.members.map (·.nodeId) := by
  rw [sound.canonical.assignments, canonicalAssignments]
  simp only [List.mem_mergeSort, List.mem_flatMap, List.mem_map]
  constructor
  · rintro ⟨assignment, ⟨member, listed, built⟩, rfl⟩
    obtain ⟨vnode, -, rfl⟩ := List.mem_map.mp built
    exact ⟨member, listed, rfl⟩
  · rintro ⟨member, listed, rfl⟩
    exact ⟨_, ⟨member, listed, List.mem_map.mpr ⟨0, List.mem_range.mpr sound.virtualNodes, rfl⟩⟩, rfl⟩

theorem assignments_ne_nil : topology.assignments ≠ [] := by
  obtain ⟨member, others, listed⟩ := List.exists_cons_of_ne_nil sound.members
  obtain ⟨assignment, present, -⟩ := (sound.mem_assignments member.nodeId).mpr (by simp [listed])
  exact List.ne_nil_of_mem present

theorem mem_clockwise_nodes (token : Token) (nodeId : String) :
    nodeId ∈ topology.clockwiseNodes token ↔ nodeId ∈ topology.members.map (·.nodeId) := by
  rw [← sound.mem_assignments, clockwiseNodes, List.mem_eraseDups, List.mem_map]
  simp only [List.mem_rotate]

/-- The walk from any token meets every member once. -/
theorem clockwise_nodes_perm (token : Token) :
    (topology.clockwiseNodes token).Perm (topology.members.map (·.nodeId)) :=
  (List.perm_ext_iff_of_nodup (SuccessorRing.eraseDups_nodup _) sound.distinct).mpr
    (sound.mem_clockwise_nodes token)

theorem clockwise_nodes_length (token : Token) :
    (topology.clockwiseNodes token).length = topology.members.length := by
  rw [(sound.clockwise_nodes_perm token).length_eq, List.length_map]

theorem replica_node_ids (token : Token) :
    topology.replicaNodeIdsForToken token =
      .ok ((topology.clockwiseNodes token).take
        (min topology.desiredReplicationFactor topology.members.length)) := by
  have someMember : 0 < topology.members.length := List.length_pos_of_ne_nil sound.members
  have room : 0 < min topology.desiredReplicationFactor topology.members.length :=
    lt_min sound.replicas someMember
  unfold replicaNodeIdsForToken
  simp only
  rw [collect_replicas_take _ _ _ room]
  simp only [List.not_mem_nil, not_false_eq_true, decide_true, List.filter_true, List.length_nil,
    Nat.sub_zero,
    List.nil_append]
  split
  · rename_i empty
    have none : ((topology.clockwiseNodes token).take
        (min topology.desiredReplicationFactor topology.members.length)).length = 0 :=
          congrArg List.length empty
    rw [List.length_take, sound.clockwise_nodes_length] at none
    omega
  · rfl

theorem owner_for_token (token : Token) :
    ∃ owner ∈ topology.members, topology.ownerForToken token = .ok owner ∧
      (topology.clockwiseNodes token).head? = some owner.nodeId := by
  have inside : topology.partitionPoint token % topology.assignments.length <
      topology.assignments.length :=
    Nat.mod_lt _ (List.length_pos_of_ne_nil sound.assignments_ne_nil)
  have first := List.head?_rotate inside
  have placed := List.getElem?_eq_getElem inside
  have present := List.getElem_mem inside
  generalize topology.assignments[topology.partitionPoint token % topology.assignments.length] =
    assignment
    at placed present
  obtain ⟨member, listed, same⟩ :=
    List.mem_map.mp ((sound.mem_assignments assignment.nodeId).mp ⟨_, present, rfl⟩)
  cases found : topology.members.find? fun member => member.nodeId = assignment.nodeId with
  | none => exact absurd (decide_eq_true same) (List.find?_eq_none.mp found member listed)
  | some owner =>
      have named : owner.nodeId = assignment.nodeId := by simpa using List.find?_some found
      refine ⟨owner, List.mem_of_find?_eq_some found, ?_, ?_⟩
      · simp only [ownerForToken, placed, found]
      · rw [placed] at first
        obtain ⟨rest, turned⟩ := List.head?_eq_some_iff.mp first
        rw [clockwiseNodes, turned, List.map_cons, List.eraseDups_cons, List.head?_cons, named]

end Sound

/-- What `new_with_timings` builds passes `validate`. -/
theorem new_with_timings_valid {digestOf : TopologySnapshot → String} {epoch hashSeed virtualNodes : Nat}
    {members : List Member} {config : TopologyConfig} {timings : ClusterTimings}
    {topology : TopologySnapshot}
    (built : newWithTimings hashing digestOf epoch hashSeed virtualNodes members config timings =
      .ok topology) :
    topology.validate hashing digestOf = .ok () := by
  have sound := (new_with_timings_sound built).1
  have known : topology.assignments.find? (fun assignment =>
      !(topology.members.any fun member => member.nodeId = assignment.nodeId)) = none := by
    rw [List.find?_eq_none]
    intro assignment present
    have listed := (sound.mem_assignments assignment.nodeId).mp ⟨_, present, rfl⟩
    obtain ⟨member, here, same⟩ := List.mem_map.mp listed
    simpa using ⟨member, here, same⟩
  have points := sound.assignments_ne_nil
  unfold newWithTimings at built
  obtain ⟨_, validMembers, built⟩ := bind_ok_iff.mp built
  obtain ⟨_, validConfig, built⟩ := bind_ok_iff.mp built
  obtain ⟨_, validTimings, built⟩ := bind_ok_iff.mp built
  obtain rfl := Except.ok.inj built
  have same : (canonicalMembers members).Perm members := List.mergeSort_perm _ _
  have relisted := validate_members_perm same validMembers
  have canonical : canonicalMembers (canonicalMembers members) = canonicalMembers members :=
    canonical_members_of_sublist (List.Sublist.refl _)
  unfold validate
  refine bind_ok_iff.mpr ⟨(), relisted, bind_ok_iff.mpr ⟨(), validConfig, ?_⟩⟩
  simp only [unless_thrown_ok]
  refine ⟨by simp, by simpa using points, ?_⟩
  rw [known]
  refine bind_ok_iff.mpr ⟨_, bind_ok_iff.mpr ⟨(), relisted, bind_ok_iff.mpr ⟨(), validConfig,
    bind_ok_iff.mpr ⟨(), validTimings, rfl⟩⟩⟩, ?_⟩
  simp only [unless_thrown_ok, thrown_at_end_ok, canonical, not_true_eq_false, or_self,
    not_false_eq_true, and_true,
    ne_eq, not_not]
  rfl

theorem kept_assignments {topology smaller : TopologySnapshot} (sound : topology.Sound hashing)
    (soundSmaller : smaller.Sound hashing) (seed : smaller.hashSeed = topology.hashSeed)
    (vnodes : smaller.virtualNodes = topology.virtualNodes)
    (subset : ∀ nodeId ∈ smaller.members.map (·.nodeId), nodeId ∈ topology.members.map (·.nodeId)) :
    smaller.assignments =
      topology.assignments.filter fun assignment => assignment.nodeId ∈ smaller.members.map
        (·.nodeId) := by
  let ids := smaller.members.map (·.nodeId)
  let kept := topology.members.filter fun member => member.nodeId ∈ ids
  have sameIds : (kept.map (·.nodeId)).Perm ids := by
    apply (List.perm_ext_iff_of_nodup ?_ soundSmaller.distinct).mpr
    · intro nodeId
      constructor
      · intro listed
        obtain ⟨member, present, rfl⟩ := List.mem_map.mp listed
        exact of_decide_eq_true (List.mem_filter.mp present).2
      · intro listed
        obtain ⟨member, present, rfl⟩ := List.mem_map.mp (subset nodeId listed)
        exact List.mem_map_of_mem (List.mem_filter.mpr ⟨present, decide_eq_true listed⟩)
    · exact sound.distinct.sublist (List.filter_sublist.map _)
  have samePoints : (smaller.members.flatMap
      (memberAssignments hashing topology.hashSeed topology.virtualNodes)).Perm
        (kept.flatMap (memberAssignments hashing topology.hashSeed topology.virtualNodes)) := by
    -- The ring points of a member depend on its node ID alone.
    let points := fun nodeId => memberAssignments hashing topology.hashSeed topology.virtualNodes
        ⟨nodeId, ""⟩
    have byId : ∀ members : List Member,
        members.flatMap (memberAssignments hashing topology.hashSeed topology.virtualNodes) =
          (members.map (·.nodeId)).flatMap points := by
      intro members
      rw [List.flatMap_map]
      rfl
    rw [byId, byId]
    exact sameIds.symm.flatMap_right _
  rw [soundSmaller.canonical.assignments, sound.canonical.assignments, seed, vnodes]
  have filtered := canonical_assignments_kept hashing topology.hashSeed topology.virtualNodes
    topology.members
    (fun nodeId => nodeId ∈ ids)
  rw [← filtered]
  exact List.Perm.eq_of_pairwise (fun a b _ _ => assignment_le_antisymm a b)
    (List.pairwise_mergeSort assignment_le_trans assignment_le_total _)
    (List.pairwise_mergeSort assignment_le_trans assignment_le_total _)
    ((List.mergeSort_perm _ _).trans (samePoints.trans (List.mergeSort_perm _ _).symm))

theorem kept_clockwise_nodes {topology smaller : TopologySnapshot} (sound : topology.Sound hashing)
    (soundSmaller : smaller.Sound hashing) (seed : smaller.hashSeed = topology.hashSeed)
    (vnodes : smaller.virtualNodes = topology.virtualNodes)
    (subset : ∀ nodeId ∈ smaller.members.map (·.nodeId), nodeId ∈ topology.members.map (·.nodeId))
    (token : Token) :
    smaller.clockwiseNodes token =
      (topology.clockwiseNodes token).filter (· ∈ smaller.members.map (·.nodeId)) := by
  unfold clockwiseNodes partitionPoint
  rw [SuccessorRing.rotate_partition_point sound.assignments_sorted,
    SuccessorRing.rotate_partition_point soundSmaller.assignments_sorted,
    kept_assignments sound soundSmaller seed vnodes subset, SuccessorRing.clockwise_filter,
    ← SuccessorRing.eraseDups_filter, List.filter_map]
  rfl

/-- The replicas of a token on the ring of some of the members are the nodes the
walk over the whole ring meets, without the dropped ones. So the owner changes
only where it was dropped, and then to its first follower that was not. -/
theorem placement_law {digestOf : TopologySnapshot → String}
    {epoch laterEpoch hashSeed virtualNodes : Nat}
    {members kept : List Member} {config laterConfig : TopologyConfig}
    {timings laterTimings : ClusterTimings}
    {topology smaller : TopologySnapshot}
    (built : newWithTimings hashing digestOf epoch hashSeed virtualNodes members config timings =
      .ok topology)
    (rebuilt : newWithTimings hashing digestOf laterEpoch hashSeed virtualNodes kept laterConfig
      laterTimings =
      .ok smaller)
    (subset : ∀ member ∈ kept, member ∈ members) (token : Token) :
    smaller.replicaNodeIdsForToken token =
        .ok (((topology.clockwiseNodes token).filter (· ∈ kept.map (·.nodeId))).take
          (min laterConfig.desiredReplicationFactor kept.length)) ∧
      ∃ owner newOwner replicas, topology.ownerForToken token = .ok owner ∧
        smaller.ownerForToken token = .ok newOwner ∧ topology.replicaNodeIdsForToken token =
          .ok replicas ∧
        (newOwner ≠ owner → owner ∉ kept) ∧
        (owner ∉ kept → ∀ follower, replicas.tail.find? (· ∈ kept.map (·.nodeId)) = some follower →
          newOwner.nodeId = follower) := by
  obtain ⟨sound, sameMembers, -⟩ := new_with_timings_sound built
  obtain ⟨soundSmaller, sameKept, factor⟩ := new_with_timings_sound rebuilt
  obtain ⟨-, seed, vnodes, -⟩ := new_with_timings_spec hashing built
  obtain ⟨-, seedSmaller, vnodesSmaller, -⟩ := new_with_timings_spec hashing rebuilt
  have ids : ∀ nodeId, nodeId ∈ smaller.members.map (·.nodeId) ↔ nodeId ∈ kept.map (·.nodeId) :=
    fun nodeId => (sameKept.map _).mem_iff
  have inside : ∀ nodeId ∈ smaller.members.map (·.nodeId), nodeId ∈ topology.members.map (·.nodeId) := by
    intro nodeId listed
    obtain ⟨member, present, rfl⟩ := List.mem_map.mp ((ids nodeId).mp listed)
    exact List.mem_map_of_mem (sameMembers.mem_iff.mpr (subset member present))
  have walk := kept_clockwise_nodes sound soundSmaller (seedSmaller.trans seed.symm)
    (vnodesSmaller.trans vnodes.symm)
    inside token
  simp only [ids] at walk
  -- The owner is the first node of the walk, on either ring.
  obtain ⟨owner, ownerMember, routed, first⟩ := sound.owner_for_token token
  obtain ⟨newOwner, newMember, rerouted, newFirst⟩ := soundSmaller.owner_for_token token
  rw [walk, List.head?_filter] at newFirst
  refine ⟨?_, owner, newOwner, _, routed, rerouted, sound.replica_node_ids token, ?_, ?_⟩
  · rw [soundSmaller.replica_node_ids, walk, factor, sameKept.length_eq]
  · intro moved survives
    apply moved
    have stays : newOwner.nodeId = owner.nodeId := by
      obtain ⟨rest, walked⟩ := List.head?_eq_some_iff.mp first
      rw [walked, List.find?_cons_of_pos (by simpa using ⟨owner, survives, rfl⟩)] at newFirst
      exact (Option.some.inj newFirst).symm
    exact List.inj_on_of_nodup_map sound.distinct
      (sameMembers.mem_iff.mpr (subset _ (sameKept.mem_iff.mp newMember))) ownerMember stays
  · intro dropped follower successor
    have gone : owner.nodeId ∉ kept.map (·.nodeId) := by
      intro listed
      obtain ⟨member, present, same⟩ := List.mem_map.mp listed
      have equal := List.inj_on_of_nodup_map sound.distinct
        (sameMembers.mem_iff.mpr (subset member present))
        ownerMember same
      exact dropped (equal ▸ present)
    obtain ⟨rest, walked⟩ := List.head?_eq_some_iff.mp first
    rw [walked, List.find?_cons_of_neg (by simpa using gone)] at newFirst
    obtain ⟨count, size⟩ := Nat.exists_eq_succ_of_ne_zero
      (lt_min sound.replicas (List.length_pos_of_ne_nil sound.members)).ne.symm
    rw [walked, size, List.take_succ_cons, List.tail_cons] at successor
    have found : rest.find? (fun nodeId => decide (nodeId ∈ kept.map (·.nodeId))) = some follower := by
      rw [← List.take_append_drop _ rest, List.find?_append, successor]
      rfl
    rw [newFirst] at found
    exact Option.some.inj found

/-- Without "a", the replicas of token 2 are the other nodes its walk meets. -/
theorem placement_law_three_members :
    (RingSample.topologyOf 2 RingSample.members.tail).replicaNodeIdsForToken 2 =
      .ok (((RingSample.topologyOf 1 RingSample.members).clockwiseNodes 2).filter
        (· ∈ ["b", "c"]) |>.take 2) :=
  (placement_law (RingSample.built 1).1 (RingSample.built 2).2
    (fun _ listed => List.mem_of_mem_tail listed) 2).1

theorem unseparated_lookups {topology : TopologySnapshot} {boundaries : List Token} {token finish : Token}
    (placed : ∀ assignment ∈ topology.assignments, assignment.token ∈ boundaries)
    (together : RingArcs.Unseparated boundaries token finish) :
    topology.ownerId token = topology.ownerId finish ∧
      topology.replicaNodeIdsForToken token = topology.replicaNodeIdsForToken finish := by
  have index := RingArcs.partition_index TokenAssignment.token placed together
  unfold ownerId ownerAssignment replicaNodeIdsForToken partitionPoint
  rw [← SuccessorRing.getElem?_partition_point, ← SuccessorRing.getElem?_partition_point, index]
  exact ⟨rfl, rfl⟩

theorem derived_ranges_from_spec {topology : TopologySnapshot} (sound : topology.Sound hashing)
    (boundaries : List Token) (previous : Token) :
    ∃ ranges, topology.derivedRangesFrom previous boundaries = .ok ranges ∧
      ranges.map (fun range => (range.startExclusive, range.endInclusive)) =
        RingArcs.arcsFrom previous boundaries ∧
      ∀ range ∈ ranges, topology.replicaNodeIdsForToken range.endInclusive =
        .ok (range.ownerNodeId :: range.followerNodeIds) := by
  induction boundaries generalizing previous with
  | nil => exact ⟨[], rfl, rfl, fun _ member => absurd member List.not_mem_nil⟩
  | cons boundary rest ih =>
      obtain ⟨later, derived, arcs, held⟩ := ih boundary
      have placed := sound.replica_node_ids boundary
      obtain ⟨owner, followers, listed⟩ := List.exists_cons_of_ne_nil (replica_node_ids_ne_nil placed)
      rw [listed] at placed
      refine ⟨{ startExclusive := previous, endInclusive := boundary
                ownerNodeId := owner, followerNodeIds := followers } :: later, ?_, ?_, ?_⟩
      · unfold derivedRangesFrom
        rw [placed, derived]
        rfl
      · rw [List.map_cons, arcs]
        rfl
      · intro range member
        rcases List.mem_cons.mp member with rfl | member
        · exact placed
        · exact held range member

theorem boundaries_sorted {topology : TopologySnapshot} (sound : topology.Sound hashing) :
    (topology.assignments.map (·.token)).destutter (· ≠ ·) = (topology.assignments.map (·.token)).dedup ∧
      (topology.assignments.map (·.token)).dedup.Pairwise (· < ·) := by
  have sorted : (topology.assignments.map (·.token)).Pairwise (· ≤ ·) :=
    List.pairwise_map.mpr sound.assignments_sorted
  exact ⟨sorted.destutter_eq_dedup, RingArcs.dedup_sorted sorted⟩

theorem derived_ranges_spec {topology : TopologySnapshot} (sound : topology.Sound hashing) :
    ∃ last ranges, (topology.assignments.map (·.token)).dedup.getLast? = some last ∧
      topology.derivedRanges = .ok ranges ∧
      ranges.map (fun range => (range.startExclusive, range.endInclusive)) =
        RingArcs.arcsFrom last (topology.assignments.map (·.token)).dedup ∧
      ∀ range ∈ ranges, topology.replicaNodeIdsForToken range.endInclusive =
        .ok (range.ownerNodeId :: range.followerNodeIds) := by
  obtain ⟨same, _⟩ := boundaries_sorted sound
  cases final : (topology.assignments.map (·.token)).dedup.getLast? with
  | none =>
      obtain ⟨assignment, others, listed⟩ := List.exists_cons_of_ne_nil sound.assignments_ne_nil
      have present : assignment.token ∈ (topology.assignments.map (·.token)).dedup :=
        List.mem_dedup.mpr (List.mem_map_of_mem (by simp [listed]))
      rw [List.getLast?_eq_none_iff.mp final] at present
      exact absurd present List.not_mem_nil
  | some last =>
      obtain ⟨ranges, derived, arcs, held⟩ :=
        derived_ranges_from_spec sound (topology.assignments.map (·.token)).dedup last
      refine ⟨last, ranges, rfl, ?_, arcs, held⟩
      unfold derivedRanges
      simp only [same, final]
      exact derived

theorem Sound.replicas_placed {topology : TopologySnapshot} (sound : topology.Sound hashing)
    {token : Token} {replicas : List String}
    (found : topology.replicaNodeIdsForToken token = .ok replicas) :
    (∀ nodeId ∈ replicas, nodeId ∈ topology.members.map (·.nodeId)) ∧
      replicas.length = min topology.desiredReplicationFactor topology.members.length := by
  have taken := Except.ok.inj (found.symm.trans (sound.replica_node_ids token))
  constructor
  · intro nodeId listed
    rw [taken] at listed
    exact (sound.mem_clockwise_nodes token nodeId).mp (List.mem_of_mem_take listed)
  · rw [taken, List.length_take, sound.clockwise_nodes_length]
    exact min_eq_left (min_le_right _ _)

/-- Every token lies in exactly one derived range, which names the replicas the
lookup gives for it. -/
theorem ring_partition {digestOf : TopologySnapshot → String} {topology : TopologySnapshot}
    (valid : topology.validate hashing digestOf = .ok ()) :
    ∃ ranges, topology.derivedRanges = .ok ranges ∧ ∀ token,
      ranges.countP (fun range => rangeContains range.startExclusive range.endInclusive token) = 1 ∧
      ∀ range ∈ ranges, rangeContains range.startExclusive range.endInclusive token = true →
        topology.replicaNodeIdsForToken token = .ok (range.ownerNodeId :: range.followerNodeIds) ∧
        (range.ownerNodeId :: range.followerNodeIds).Nodup ∧
        (∀ nodeId ∈ range.ownerNodeId :: range.followerNodeIds, nodeId ∈ topology.members.map
          (·.nodeId)) ∧
        (range.ownerNodeId :: range.followerNodeIds).length =
          min topology.desiredReplicationFactor topology.members.length ∧
        ∃ owner, topology.ownerForToken token = .ok owner ∧ owner.nodeId = range.ownerNodeId := by
  have sound := validate_sound valid
  obtain ⟨_, sorted⟩ := boundaries_sorted sound
  have placed : ∀ assignment ∈ topology.assignments,
      assignment.token ∈ (topology.assignments.map (·.token)).dedup := by
    intro assignment present
    exact List.mem_dedup.mpr (List.mem_map_of_mem present)
  obtain ⟨last, ranges, final, derived, arcs, held⟩ := derived_ranges_spec sound
  refine ⟨ranges, derived, fun token => ⟨?_, fun range member inside => ?_⟩⟩
  · have once := RingArcs.arcs_partition sorted final token
    rw [← arcs, List.countP_map] at once
    exact once
  · have arc : (range.startExclusive, range.endInclusive) ∈
        RingArcs.arcsFrom last (topology.assignments.map (·.token)).dedup :=
      arcs ▸ List.mem_map_of_mem member
    have lookups := unseparated_lookups placed (RingArcs.arc_unseparated sorted final arc inside)
    have replicas := lookups.2.trans (held range member)
    obtain ⟨members, length⟩ := sound.replicas_placed replicas
    obtain ⟨owner, -, routed, first⟩ := sound.owner_for_token token
    refine ⟨replicas, replica_node_ids_nodup topology token _ replicas, members, length, owner,
      routed, ?_⟩
    have head := replica_node_ids_head replicas
    rw [owner_for_token_owner_id routed] at head
    exact (Option.some.inj head).symm

/-- The ranges of the ring of "a", "b" and "c" hold every token once. -/
theorem ring_partition_three_members :
    ∃ ranges, (RingSample.topologyOf 1 RingSample.members).derivedRanges = .ok ranges ∧
      ∀ token, ranges.countP (fun range => rangeContains range.startExclusive range.endInclusive
        token) = 1 := by
  obtain ⟨ranges, derived, placed⟩ := ring_partition (new_with_timings_valid (RingSample.built 1).1)
  exact ⟨ranges, derived, fun token => (placed token).1⟩

end

end TopologySnapshot
end Hashring
