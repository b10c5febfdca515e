import Hashring.SuccessorRing
import Hashring.Topology
import Mathlib.Data.List.Rotate

/-! Who owns a token in a snapshot, and how the owner moves between two
snapshots of one ring: only where a member was added or removed. -/
namespace Hashring

/-- A computation that succeeds went through its first part. -/
theorem bind_ok_iff {ε α β : Type} {first : Except ε α} {rest : α → Except ε β} {result : β} :
    (first >>= rest) = .ok result ↔ ∃ value, first = .ok value ∧ rest value = .ok result := by
  cases first with
  | error error => simp [bind, Except.bind]
  | ok value => simp [bind, Except.bind]

theorem thrown_ne_ok {ε α β : Type} (error : ε) (rest : α → Except ε β) (result : β) :
    (throw error >>= rest) ≠ (.ok result : Except ε β) :=
  fun thrown => absurd thrown (by simp [bind, Except.bind, throw, throwThe, MonadExceptOf.throw])

theorem unless_thrown_ok {ε β : Type} (condition : Prop) [Decidable condition] (error : ε)
    (rest : Unit → Except ε β) (result : β) :
    (if condition then throw error >>= rest else rest ()) = .ok result ↔ ¬condition ∧
      rest () = .ok result := by
  by_cases holds : condition
  · rw [if_pos holds]
    exact ⟨fun thrown => absurd thrown (thrown_ne_ok _ _ _), fun checked => absurd holds checked.1⟩
  · rw [if_neg holds]
    exact ⟨fun passed => ⟨holds, passed⟩, fun checked => checked.2⟩

theorem thrown_at_end_ok {ε : Type} (condition : Prop) [Decidable condition] (error : ε) :
    (if condition then throw error else pure ()) = (.ok () : Except ε Unit) ↔ ¬condition := by
  by_cases holds : condition
  · simp [holds, throw, throwThe, MonadExceptOf.throw]
  · simp [holds, pure, Except.pure]

namespace TopologySnapshot

variable (hashing : Hashing)

def ownerAssignment (topology : TopologySnapshot) (token : Token) : Option TokenAssignment :=
  SuccessorRing.successor TokenAssignment.token topology.assignments token

def ownerId (topology : TopologySnapshot) (token : Token) : Option String :=
  (topology.ownerAssignment token).map (·.nodeId)

theorem owner_for_token_owner_id {topology : TopologySnapshot} {token : Token} {owner : Member}
    (routed : topology.ownerForToken token = .ok owner) : topology.ownerId token = some owner.nodeId := by
  unfold ownerForToken partitionPoint at routed
  rw [SuccessorRing.getElem?_partition_point TokenAssignment.token] at routed
  unfold ownerId ownerAssignment
  split at routed
  · exact absurd routed (by simp)
  · rename_i assignment found
    split at routed
    · exact absurd routed (by simp)
    · rename_i member listed
      obtain rfl := Except.ok.inj routed
      rw [found, Option.map_some]
      have named : member.nodeId = assignment.nodeId := by simpa using List.find?_some listed
      exact congrArg some named.symm

theorem collect_replicas_head (targetCount : Nat) (assignments : List TokenAssignment) (owner : String)
    (replicas : List String) :
    (collectReplicas targetCount (owner :: replicas) assignments).head? = some owner := by
  induction assignments generalizing replicas with
  | nil => rfl
  | cons assignment rest ih =>
      unfold collectReplicas
      split
      · exact ih replicas
      · split
        · rfl
        · exact ih _

theorem replica_node_ids_head {topology : TopologySnapshot} {token : Token} {replicas : List String}
    (placed : topology.replicaNodeIdsForToken token = .ok replicas) :
    replicas.head? = topology.ownerId token := by
  unfold ownerId ownerAssignment
  rw [← SuccessorRing.getElem?_partition_point]
  unfold replicaNodeIdsForToken partitionPoint at placed
  simp only at placed
  split at placed
  · exact absurd placed (by simp)
  · rename_i nonempty
    rw [← Except.ok.inj placed]
    have present : 0 < topology.assignments.length := by
      apply List.length_pos_of_ne_nil
      intro empty
      rw [empty] at nonempty
      exact nonempty rfl
    rw [← List.head?_rotate (Nat.mod_lt _ present)]
    cases topology.assignments.rotate _ with
    | nil => rfl
    | cons first rest =>
        unfold collectReplicas
        simp only [List.not_mem_nil, ↓reduceIte, List.nil_append]
        split
        · rfl
        · exact collect_replicas_head _ rest first.nodeId []

theorem replica_node_ids_ne_nil {topology : TopologySnapshot} {token : Token} {replicas : List String}
    (placed : topology.replicaNodeIdsForToken token = .ok replicas) : replicas ≠ [] := by
  unfold replicaNodeIdsForToken at placed
  simp only at placed
  split at placed
  · exact absurd placed (by simp)
  · rename_i nonempty
    rw [← Except.ok.inj placed]
    exact nonempty

theorem assignment_le_trans (a b c : TokenAssignment) (early : assignmentLe a b)
    (late : assignmentLe b c) :
    assignmentLe a c := by
  simp only [assignmentLe, decide_eq_true_eq] at early late ⊢
  rcases early with before | ⟨same, first⟩
  · rcases late with after | ⟨equal, -⟩
    · exact .inl (before.trans after)
    · exact .inl (equal ▸ before)
  · rcases late with after | ⟨equal, second⟩
    · exact .inl (same ▸ after)
    · exact .inr ⟨same.trans equal, first.trans second⟩

theorem assignment_le_total (a b : TokenAssignment) : (assignmentLe a b || assignmentLe b a) = true := by
  simp only [assignmentLe, Bool.or_eq_true, decide_eq_true_eq]
  rcases lt_trichotomy a.token b.token with before | same | after
  · exact .inl (.inl before)
  · rcases le_total a.nodeId b.nodeId with first | second
    · exact .inl (.inr ⟨same, first⟩)
    · exact .inr (.inr ⟨same.symm, second⟩)
  · exact .inr (.inl after)

theorem assignment_le_antisymm (a b : TokenAssignment) (early : assignmentLe a b)
    (late : assignmentLe b a) :
    a = b := by
  obtain ⟨token, nodeId⟩ := a
  obtain ⟨token', nodeId'⟩ := b
  simp only [assignmentLe, decide_eq_true_eq] at early late
  rcases early with before | ⟨same, first⟩
  · rcases late with after | ⟨equal, -⟩
    · exact absurd before after.asymm
    · exact absurd before (equal ▸ lt_irrefl _)
  · rcases late with after | ⟨-, second⟩
    · exact absurd after (same ▸ lt_irrefl _)
    · rw [same, le_antisymm first second]

theorem canonical_members_sorted (members : List Member) :
    (canonicalMembers members).Pairwise fun left right => decide (left.nodeId ≤ right.nodeId) = true := by
  apply List.pairwise_mergeSort
  · intro a b c early late
    exact decide_eq_true ((of_decide_eq_true early).trans (of_decide_eq_true late))
  · intro a b
    simpa using le_total a.nodeId b.nodeId

theorem canonical_members_of_sublist {kept members : List Member}
    (sublist : kept.Sublist (canonicalMembers members)) :
    canonicalMembers kept = kept :=
  List.mergeSort_of_pairwise ((canonical_members_sorted members).sublist sublist)

/-- Members and assignments are the ones `new_with_timings` builds. -/
structure Canonical (topology : TopologySnapshot) : Prop where
  members : canonicalMembers topology.members = topology.members
  assignments : topology.assignments =
    canonicalAssignments hashing topology.hashSeed topology.virtualNodes topology.members

/-- Two snapshots place one member list alike. -/
structure SameRing (left right : TopologySnapshot) : Prop where
  hashSeed : left.hashSeed = right.hashSeed
  virtualNodes : left.virtualNodes = right.virtualNodes
  timings : left.timings = right.timings

/-- What a snapshot built by `new_with_timings` holds. -/
theorem new_with_timings_spec {digestOf : TopologySnapshot → String} {epoch hashSeed virtualNodes : Nat}
    {members : List Member} {config : TopologyConfig} {timings : ClusterTimings}
    {topology : TopologySnapshot}
    (built : newWithTimings hashing digestOf epoch hashSeed virtualNodes members config timings =
      .ok topology) :
    topology.epoch = epoch ∧ topology.hashSeed = hashSeed ∧ topology.virtualNodes = virtualNodes ∧
      topology.timings = timings ∧ topology.members = canonicalMembers members ∧
        topology.Canonical hashing := by
  unfold newWithTimings at built
  obtain ⟨_, -, built⟩ := bind_ok_iff.mp built
  obtain ⟨_, -, built⟩ := bind_ok_iff.mp built
  obtain ⟨_, -, built⟩ := bind_ok_iff.mp built
  obtain rfl := Except.ok.inj built
  exact ⟨rfl, rfl, rfl, rfl, rfl, canonical_members_of_sublist (List.Sublist.refl _), rfl⟩

theorem validate_canonical {digestOf : TopologySnapshot → String} {topology : TopologySnapshot}
    (valid : topology.validate hashing digestOf = .ok ()) : topology.Canonical hashing := by
  unfold validate at valid
  obtain ⟨_, -, valid⟩ := bind_ok_iff.mp valid
  obtain ⟨_, -, valid⟩ := bind_ok_iff.mp valid
  simp only [unless_thrown_ok] at valid
  obtain ⟨-, -, valid⟩ := valid
  split at valid
  · exact absurd valid (thrown_ne_ok _ _ _)
  · obtain ⟨canonical, built, valid⟩ := bind_ok_iff.mp valid
    simp only [unless_thrown_ok, thrown_at_end_ok] at valid
    obtain ⟨-, same⟩ := valid
    push Not at same
    obtain ⟨-, seed, vnodes, -, -, members, assignments⟩ := new_with_timings_spec hashing built
    rw [same.1] at members
    rw [same.1, same.2, seed, vnodes] at assignments
    exact ⟨members, assignments⟩

theorem owner_id_member {topology : TopologySnapshot} (canonical : topology.Canonical hashing)
    {token : Token} {nodeId : String} (owned : topology.ownerId token = some nodeId) :
    ∃ member ∈ topology.members, member.nodeId = nodeId := by
  obtain ⟨assignment, found, rfl⟩ := Option.map_eq_some_iff.mp owned
  have listed := SuccessorRing.successor_mem _ found
  rw [canonical.assignments, canonicalAssignments, List.mem_mergeSort, List.mem_flatMap] at listed
  obtain ⟨member, present, built⟩ := listed
  obtain ⟨vnode, -, rfl⟩ := List.mem_map.mp built
  exact ⟨member, present, rfl⟩

theorem member_assignments_kept (hashSeed virtualNodes : Nat) (members : List Member)
    (keep : String → Bool) :
    (members.filter fun member => keep member.nodeId).flatMap
      (memberAssignments hashing hashSeed virtualNodes) =
      (members.flatMap (memberAssignments hashing hashSeed virtualNodes)).filter
        fun assignment => keep assignment.nodeId := by
  induction members with
  | nil => rfl
  | cons member rest ih =>
      have points : (memberAssignments hashing hashSeed virtualNodes member).filter
          (fun assignment => keep assignment.nodeId) =
            if keep member.nodeId then memberAssignments hashing hashSeed virtualNodes member
                else [] := by
        split
        · rename_i kept
          apply List.filter_eq_self.mpr
          intro assignment built
          obtain ⟨vnode, -, rfl⟩ := List.mem_map.mp built
          exact kept
        · rename_i dropped
          apply List.filter_eq_nil_iff.mpr
          intro assignment built
          obtain ⟨vnode, -, rfl⟩ := List.mem_map.mp built
          exact dropped
      rw [List.flatMap_cons, List.filter_append, ← ih, points, List.filter_cons]
      split
      · rw [List.flatMap_cons]
      · rw [List.nil_append]

theorem canonical_assignments_kept (hashSeed virtualNodes : Nat) (members : List Member)
    (keep : String → Bool) :
    canonicalAssignments hashing hashSeed virtualNodes (members.filter fun member => keep member.nodeId) =
      (canonicalAssignments hashing hashSeed virtualNodes members).filter fun assignment =>
        keep assignment.nodeId := by
  unfold canonicalAssignments
  rw [member_assignments_kept, SuccessorRing.mergeSort_filter assignmentLe assignment_le_trans
    assignment_le_total
    assignment_le_antisymm]

end TopologySnapshot
end Hashring
