import Hashring.ReplicaSeeding
import Hashring.CoordinatorSystem
import Hashring.TaskRecord
import Hashring.RepairReconciliation

/-! Seeding the followers of a new epoch (`seed_repairs_for_activation`,
crates/hashring-coordinator/src/repair.rs): the selection finds a group for every
follower it needs, the selected groups are enough, and the barrier at the end is
the only way out. -/
namespace Hashring

theorem derived_ranges_from_followers {topology : TopologySnapshot} (boundaries : List Token)
    {previous : Token} {ranges : List DerivedRange}
    (derived : topology.derivedRangesFrom previous boundaries = .ok ranges) :
    ∀ range ∈ ranges, range.followerNodeIds.Nodup := by
  induction boundaries generalizing previous ranges with
  | nil =>
      obtain rfl := Except.ok.inj derived
      exact fun _ member => absurd member List.not_mem_nil
  | cons boundary rest ih =>
      unfold TopologySnapshot.derivedRangesFrom at derived
      obtain ⟨replicas, placed, derived⟩ := bind_ok_iff.mp derived
      obtain ⟨later, found, derived⟩ := bind_ok_iff.mp derived
      obtain rfl := Except.ok.inj derived
      intro range member
      rcases List.mem_cons.mp member with rfl | member
      · exact (TopologySnapshot.replica_node_ids_nodup topology boundary replicas placed).sublist
          (List.tail_sublist _)
      · exact ih found range member

theorem derived_ranges_followers {topology : TopologySnapshot} {ranges : List DerivedRange}
    (derived : topology.derivedRanges = .ok ranges) : ∀ range ∈ ranges, range.followerNodeIds.Nodup := by
  unfold TopologySnapshot.derivedRanges at derived
  simp only at derived
  split at derived
  · exact absurd derived (by simp)
  · exact derived_ranges_from_followers _ derived

theorem internal_topology_ok {α : Type} {result : Except TopologyError α} {value : α} :
    ClusterState.internalTopology result = .ok value ↔ result = .ok value := by
  cases result with
  | error error => simp [ClusterState.internalTopology, Except.mapError]
  | ok found => simp [ClusterState.internalTopology, Except.mapError]

def DerivedRange.copyTo (range : DerivedRange) (follower : String) : ReplicaCopy :=
  { startExclusive := range.startExclusive, endInclusive := range.endInclusive
    ownerNodeId := range.ownerNodeId, nodeId := follower }

namespace ClusterState

def AdmittedNow (state : ClusterState) (copy : ReplicaCopy) : Prop :=
  ∃ admission ∈ state.replicaAdmissions, admission.epoch = state.committed.epoch ∧
    state.processInstances.lookup admission.nodeId = some admission.processInstanceId ∧
      admission.copy = copy

/-- Every range has the followers its ACK policy names and as many admitted ones as
the policy and the guard ask for. -/
structure Covered (state : ClusterState) (ranges : List DerivedRange) : Prop where
  named : ∀ range ∈ ranges, ∀ follower ∈ range.followerNodeIds.take (policyFollowerCount state.committed),
    state.AdmittedNow (range.copyTo follower)
  counted : ∀ range ∈ ranges, ∃ admitted : List String, admitted.Sublist range.followerNodeIds ∧
    requiredMergeFollowers state.committed ≤ admitted.length ∧
    ∀ follower ∈ admitted, state.AdmittedNow (range.copyTo follower)

theorem admitted_copy_iff {state : ClusterState} {range : DerivedRange} {follower : String} :
    state.admittedCopy range follower = true ↔ state.AdmittedNow (range.copyTo follower) := by
  unfold admittedCopy AdmittedNow
  rw [List.any_eq_true]
  constructor
  · rintro ⟨admission, member, fits⟩
    exact ⟨admission, member, of_decide_eq_true fits⟩
  · rintro ⟨admission, member, fits⟩
    exact ⟨admission, member, decide_eq_true fits⟩

theorem activation_covered_iff (state : ClusterState) :
    state.activationCovered = .ok () ↔ ∃ ranges, state.committed.derivedRanges = .ok ranges ∧
      state.Covered ranges := by
  unfold activationCovered
  simp only [bind_ok_iff, internal_topology_ok, thrown_at_end_ok]
  apply exists_congr
  intro ranges
  apply and_congr_right
  intro _
  simp only [List.any_eq_true, not_exists, not_and, decide_eq_true_eq, not_or, not_lt, not_not,
    admitted_copy_iff]
  constructor
  · intro passes
    refine ⟨fun range member => (passes range member).2, fun range member => ?_⟩
    refine ⟨range.followerNodeIds.filter (state.admittedCopy range), List.filter_sublist,
      (passes range member).1, ?_⟩
    intro follower admitted
    exact admitted_copy_iff.mp (List.mem_filter.mp admitted).2
  -- Any list of admitted followers is part of the one the barrier counts.
  · intro covered range member
    obtain ⟨admitted, listed, enough, all⟩ := covered.counted range member
    refine ⟨enough.trans ?_, covered.named range member⟩
    have kept : admitted.filter (state.admittedCopy range) = admitted :=
      List.filter_eq_self.mpr fun follower inside => admitted_copy_iff.mpr (all follower inside)
    rw [← kept]
    exact (listed.filter _).length_le

/-! The selection. -/

theorem repair_group_nonempty {state : ClusterState} {repair : ReplicaRepair}
    (present : repair ∈ state.replicaRepairs) :
    (state.repairGroup repair.pair).isEmpty = false := by
  rw [List.isEmpty_eq_false_iff_exists_mem]
  exact ⟨repair, List.mem_filter.mpr ⟨present, by simp⟩⟩

theorem largest_group_found {state : ClusterState} (pairs : List StreamPair)
    (grouped : ∀ pair ∈ pairs, (state.repairGroup pair).isEmpty = false) :
    pairs = [] ∧ state.largestGroup pairs = none ∨ ∃ pair ∈ pairs, state.largestGroup pairs =
      some pair := by
  -- From the front, since the search carries the best of the pairs before.
  induction pairs using List.reverseRecOn with
  | nil => exact .inl ⟨rfl, rfl⟩
  | append_singleton earlier pair ih =>
      have before := ih fun other inside => grouped other (List.mem_append_left _ inside)
      have here := grouped pair (List.mem_append_right _ List.mem_cons_self)
      unfold largestGroup at before ⊢
      rw [List.foldl_append, List.foldl_cons, List.foldl_nil, if_neg (by simp [here])]
      rcases before with ⟨_, none_yet⟩ | ⟨best, inside, found⟩
      · rw [none_yet]
        exact .inr ⟨pair, by simp, rfl⟩
      · rw [found]
        by_cases larger : (state.repairGroup best).length ≤ (state.repairGroup pair).length
        · exact .inr ⟨pair, by simp, if_pos larger⟩
        · exact .inr ⟨best, List.mem_append_left _ inside, if_neg larger⟩

def coveredBy (state : ClusterState) (range : DerivedRange) (selected : List StreamPair) : List String :=
  range.followerNodeIds.filter fun follower =>
    state.admittedCopy range follower || selected.any fun pair => pair.1 =
      range.ownerNodeId && pair.2 = follower

theorem mem_covered_by {state : ClusterState} {range : DerivedRange} {selected : List StreamPair}
    {follower : String} :
    follower ∈ state.coveredBy range selected ↔ follower ∈ range.followerNodeIds ∧
      (state.admittedCopy range follower ∨ (range.ownerNodeId, follower) ∈ selected) := by
  simp [coveredBy]

theorem covered_by_eq (state : ClusterState) (range : DerivedRange) (selected : List StreamPair) :
    (range.followerNodeIds.filter fun follower =>
      state.admittedCopy range follower ∨ (range.ownerNodeId, follower) ∈ selected) =
          state.coveredBy range selected := by
  apply List.filter_congr
  intro follower _
  rw [Bool.eq_iff_iff, decide_eq_true_eq]
  simp

theorem covered_by_grows {state : ClusterState} {range : DerivedRange} {selected wider : List StreamPair}
    (grows : selected ⊆ wider) :
    (state.coveredBy range selected).length ≤ (state.coveredBy range wider).length := by
  apply List.Sublist.length_le
  apply List.monotone_filter_right
  intro follower covered
  rw [Bool.or_eq_true, List.any_eq_true] at covered ⊢
  exact covered.imp_right fun listed => listed.imp fun _ found => ⟨grows found.1, found.2⟩

theorem covered_by_pick {state : ClusterState} {range : DerivedRange} {selected : List StreamPair}
    {follower : String} (distinct : range.followerNodeIds.Nodup)
    (listed : follower ∈ range.followerNodeIds) (waits : follower ∉ state.coveredBy range selected) :
    (state.coveredBy range (selected ++ [(range.ownerNodeId, follower)])).length =
      (state.coveredBy range selected).length + 1 := by
  have same : (state.coveredBy range (selected ++ [(range.ownerNodeId, follower)])).Perm
      (follower :: state.coveredBy range selected) := by
    -- Followers are listed once, so the two lists are compared by membership.
    apply (List.perm_ext_iff_of_nodup (distinct.filter _)
      (List.nodup_cons.mpr ⟨waits, distinct.filter _⟩)).mpr
    intro other
    change other ∈ state.coveredBy range (selected ++ [(range.ownerNodeId, follower)]) ↔
      other ∈ follower :: state.coveredBy range selected
    simp only [mem_covered_by, List.mem_cons, List.mem_append, Prod.mk.injEq, true_and,
      List.not_mem_nil, or_false]
    constructor
    · rintro ⟨inside, admitted | chosen | rfl⟩
      · exact .inr ⟨inside, .inl admitted⟩
      · exact .inr ⟨inside, .inr chosen⟩
      · exact .inl rfl
    · rintro (rfl | ⟨inside, admitted | chosen⟩)
      · exact ⟨listed, .inr (.inr rfl)⟩
      · exact ⟨inside, .inl admitted⟩
      · exact ⟨inside, .inr (.inl chosen)⟩
  exact same.length_eq

structure Extends (range : DerivedRange) (selected wider : List StreamPair) : Prop where
  grows : selected ⊆ wider
  added : ∀ pair ∈ wider, pair ∈ selected ∨ ∃ follower ∈ range.followerNodeIds,
    pair = (range.ownerNodeId, follower)

theorem fill_quota_spec {state : ClusterState} {range : DerivedRange}
    (distinct : range.followerNodeIds.Nodup)
    (grouped : ∀ follower ∈ range.followerNodeIds,
      (state.repairGroup (range.ownerNodeId, follower)).isEmpty = false)
    (missing : Nat) (selected : List StreamPair)
    (room : (state.coveredBy range selected).length + missing ≤ range.followerNodeIds.length) :
    ∃ wider, state.fillQuota range missing selected = .ok wider ∧ Extends range selected wider ∧
      (state.coveredBy range selected).length + missing ≤ (state.coveredBy range wider).length := by
  induction missing generalizing selected with
  | zero => exact ⟨selected, rfl, ⟨List.Subset.refl _, fun pair inside => .inl inside⟩, le_rfl⟩
  | succ missing ih =>
      -- If every follower were admitted or selected, none would be missing.
      have partly : (range.followerNodeIds.filter fun follower =>
          ¬state.admittedCopy range follower ∧ (range.ownerNodeId, follower) ∉ selected) ≠ [] := by
        intro none_open
        rw [List.filter_eq_nil_iff] at none_open
        have all : state.coveredBy range selected = range.followerNodeIds := by
          apply List.filter_eq_self.mpr
          intro follower listed
          have closed := none_open follower listed
          rw [decide_eq_true_eq, not_and_or, not_not, not_not] at closed
          exact (List.mem_filter.mp (mem_covered_by.mpr ⟨listed, closed⟩)).2
        rw [all] at room
        omega
      have search := largest_group_found ((range.followerNodeIds.filter fun follower =>
          ¬state.admittedCopy range follower ∧ (range.ownerNodeId, follower) ∉ selected).map
              fun follower =>
            (range.ownerNodeId, follower)) (by
        intro pair inside
        obtain ⟨follower, waits, rfl⟩ := List.mem_map.mp inside
        exact grouped follower (List.mem_of_mem_filter waits))
      obtain ⟨pair, open_, found⟩ := search.resolve_left fun none_open =>
        partly (List.map_eq_nil_iff.mp none_open.1)
      obtain ⟨follower, waits, rfl⟩ := List.mem_map.mp open_
      obtain ⟨listed, waiting⟩ := List.mem_filter.mp waits
      rw [decide_eq_true_eq] at waiting
      have uncovered : follower ∉ state.coveredBy range selected := by
        intro covered
        exact (mem_covered_by.mp covered).2.elim waiting.1 waiting.2
      -- The pick covers one more follower, which is one fewer to fill.
      have more := covered_by_pick distinct listed uncovered
      obtain ⟨wider, filled, extends_, enough⟩ :=
        ih (selected ++ [(range.ownerNodeId, follower)]) (by omega)
      refine ⟨wider, ?_, ⟨fun pair inside => extends_.grows (List.mem_append_left _ inside), ?_⟩,
        by omega⟩
      · unfold fillQuota
        simp only [found]
        exact filled
      · intro pair inside
        rcases extends_.added pair inside with earlier | later
        · rcases List.mem_append.mp earlier with earlier | picked
          · exact .inl earlier
          · exact .inr ⟨follower, listed, List.mem_singleton.mp picked⟩
        · exact .inr later

structure Selects (state : ClusterState) (range : DerivedRange) (selected : List StreamPair) : Prop where
  named : ∀ follower ∈ range.followerNodeIds.take (policyFollowerCount state.committed),
    state.admittedCopy range follower ∨ (range.ownerNodeId, follower) ∈ selected
  counted : requiredMergeFollowers state.committed ≤ (state.coveredBy range selected).length

theorem Selects.grows {state : ClusterState} {range : DerivedRange} {selected wider : List StreamPair}
    (selects : state.Selects range selected) (grows : selected ⊆ wider) : state.Selects range wider := by
  constructor
  · intro follower listed
    exact (selects.named follower listed).imp_right fun inside => grows inside
  · exact selects.counted.trans (covered_by_grows grows)

theorem select_for_range_spec {state : ClusterState} {range : DerivedRange}
    (distinct : range.followerNodeIds.Nodup)
    (enough : requiredMergeFollowers state.committed ≤ range.followerNodeIds.length)
    (grouped : ∀ follower ∈ range.followerNodeIds,
      (state.repairGroup (range.ownerNodeId, follower)).isEmpty = false)
    (selected : List StreamPair) :
    ∃ wider, state.selectForRange selected range = .ok wider ∧ Extends range selected wider ∧
      state.Selects range wider := by
  let named := (range.followerNodeIds.take (policyFollowerCount state.committed)).filter fun follower =>
    ¬state.admittedCopy range follower
  let chosen := (selected ++ named.map fun follower => (range.ownerNodeId, follower)).dedup
  have atMost : (state.coveredBy range chosen).length ≤ range.followerNodeIds.length :=
    List.filter_sublist.length_le
  obtain ⟨wider, filled, extends_, covered⟩ := fill_quota_spec distinct grouped
    (requiredMergeFollowers state.committed - (state.coveredBy range chosen).length) chosen (by omega)
  rw [← covered_by_eq] at filled
  refine ⟨wider, filled, ⟨fun pair inside => extends_.grows ?_, fun pair inside => ?_⟩,
    ⟨fun follower listed => ?_, by omega⟩⟩
  · exact List.mem_dedup.mpr (List.mem_append_left _ inside)
  · rcases extends_.added pair inside with earlier | later
    · rcases List.mem_append.mp (List.mem_dedup.mp earlier) with earlier | picked
      · exact .inl earlier
      · obtain ⟨follower, waits, rfl⟩ := List.mem_map.mp picked
        exact .inr ⟨follower, List.mem_of_mem_take (List.mem_of_mem_filter waits), rfl⟩
    · exact .inr later
  · by_cases admitted : state.admittedCopy range follower = true
    · exact .inl admitted
    · refine .inr (extends_.grows (List.mem_dedup.mpr (List.mem_append_right _ ?_)))
      exact List.mem_map_of_mem (List.mem_filter.mpr ⟨listed, decide_eq_true admitted⟩)

theorem selection_spec {state : ClusterState} (ranges : List DerivedRange)
    (distinct : ∀ range ∈ ranges, range.followerNodeIds.Nodup)
    (enough : ∀ range ∈ ranges, requiredMergeFollowers state.committed ≤ range.followerNodeIds.length)
    (grouped : ∀ range ∈ ranges, ∀ follower ∈ range.followerNodeIds,
      (state.repairGroup (range.ownerNodeId, follower)).isEmpty = false) (selected : List StreamPair) :
    ∃ wider, ranges.foldlM state.selectForRange selected = .ok wider ∧ selected ⊆ wider ∧
      (∀ pair ∈ wider, pair ∈ selected ∨ ∃ range ∈ ranges, ∃ follower ∈ range.followerNodeIds,
        pair = (range.ownerNodeId, follower)) ∧
      ∀ range ∈ ranges, state.Selects range wider := by
  induction ranges generalizing selected with
  | nil =>
      exact ⟨selected, rfl, List.Subset.refl _, fun pair inside => .inl inside,
        fun _ member => absurd member List.not_mem_nil⟩
  | cons range rest ih =>
      obtain ⟨first, picked, extends_, selects⟩ :=
        select_for_range_spec (distinct range List.mem_cons_self)
        (enough range List.mem_cons_self) (grouped range List.mem_cons_self) selected
      obtain ⟨wider, folded, grows, added, all⟩ :=
        ih (fun other inside => distinct other (List.mem_cons_of_mem _ inside))
        (fun other inside => enough other (List.mem_cons_of_mem _ inside))
        (fun other inside => grouped other (List.mem_cons_of_mem _ inside)) first
      refine ⟨wider, ?_, fun pair inside => grows (extends_.grows inside), fun pair inside => ?_,
        fun other inside => ?_⟩
      · rw [List.foldlM_cons]
        exact bind_ok_iff.mpr ⟨first, picked, folded⟩
      · rcases added pair inside with earlier | ⟨other, member, follower, listed, same⟩
        · rcases extends_.added pair earlier with before | ⟨follower, listed, same⟩
          · exact .inl before
          · exact .inr ⟨range, List.mem_cons_self, follower, listed, same⟩
        · exact .inr ⟨other, List.mem_cons_of_mem _ member, follower, listed, same⟩
      -- What was selected for an earlier range is never dropped.
      · rcases List.mem_cons.mp inside with rfl | inside
        · exact selects.grows grows
        · exact all other inside

theorem groups_collected {state : ClusterState} (pairs : List StreamPair)
    (grouped : ∀ pair ∈ pairs, (state.repairGroup pair).isEmpty = false) :
    (pairs.mapM fun pair => if (state.repairGroup pair).isEmpty then
        Except.error (⟨.unavailable, "required target follower repair is unavailable"⟩ : Status)
      else .ok (state.repairGroup pair)) = .ok (pairs.map state.repairGroup) := by
  induction pairs with
  | nil => rfl
  | cons pair rest ih =>
      rw [List.mapM_cons, ih fun other inside => grouped other (List.mem_cons_of_mem _ inside),
        if_neg (by simp [grouped pair List.mem_cons_self])]
      rfl

theorem mem_ordered_pairs {pairs : List StreamPair} {pair : StreamPair} :
    pair ∈ orderedPairs pairs ↔ pair ∈ pairs := by
  unfold orderedPairs
  rw [List.mem_mergeSort, List.mem_dedup]

theorem ordered_pairs_nodup (pairs : List StreamPair) : (orderedPairs pairs).Nodup :=
  (List.mergeSort_perm _ _).nodup_iff.mpr pairs.nodup_dedup

theorem settled_repair {state : ClusterState} (settled : state.Settled) {ranges : List DerivedRange}
    (derived : state.committed.derivedRanges = .ok ranges) {range : DerivedRange}
    (member : range ∈ ranges) {follower : String} (listed : follower ∈ range.followerNodeIds) :
    ∃ repair ∈ state.replicaRepairs, repair.copy = range.copyTo follower ∧
      repair.pair = (range.ownerNodeId, follower) := by
  obtain ⟨found, same, _, copies⟩ := (settled_iff state).mp settled
  obtain rfl := Except.ok.inj (derived.symm.trans same)
  have desired : range.copyTo follower ∈ desiredCopies ranges :=
    List.mem_flatMap.mpr ⟨range, member, List.mem_map_of_mem listed⟩
  obtain ⟨repair, present, named⟩ := List.mem_map.mp (copies.covered _ desired)
  refine ⟨repair, present, named, ?_⟩
  exact Prod.ext (congrArg ReplicaCopy.ownerNodeId named) (congrArg ReplicaCopy.nodeId named)

/-- The groups a selection stands for. -/
structure Plan (state : ClusterState) (ranges : List DerivedRange) (pairs : List StreamPair) : Prop where
  once : pairs.Nodup
  placed : ∀ pair ∈ pairs, ∃ range ∈ ranges, ∃ follower ∈ range.followerNodeIds,
    pair = (range.ownerNodeId, follower)
  grouped : ∀ pair ∈ pairs, state.repairGroup pair ≠ []

theorem activation_groups_found {state : ClusterState} (settled : state.Settled)
    {ranges : List DerivedRange}
    (derived : state.committed.derivedRanges = .ok ranges)
    (enough : ∀ range ∈ ranges, requiredMergeFollowers state.committed ≤ range.followerNodeIds.length) :
    ∃ pairs, state.activationGroups = .ok (pairs.map state.repairGroup) ∧ state.Plan ranges pairs ∧
      ∀ range ∈ ranges, state.Selects range pairs := by
  have grouped : ∀ range ∈ ranges, ∀ follower ∈ range.followerNodeIds,
      (state.repairGroup (range.ownerNodeId, follower)).isEmpty = false := by
    intro range member follower listed
    obtain ⟨repair, present, _, pair⟩ := settled_repair settled derived member listed
    rw [← pair]
    exact repair_group_nonempty present
  obtain ⟨selected, folded, _, added, selects⟩ :=
    selection_spec ranges (derived_ranges_followers derived) enough grouped []
  have placed : ∀ pair ∈ orderedPairs selected, ∃ range ∈ ranges, ∃ follower ∈ range.followerNodeIds,
      pair = (range.ownerNodeId, follower) := fun pair inside =>
    (added pair (mem_ordered_pairs.mp inside)).resolve_left List.not_mem_nil
  have nonempty : ∀ pair ∈ orderedPairs selected, (state.repairGroup pair).isEmpty = false := by
    intro pair inside
    obtain ⟨range, member, follower, listed, rfl⟩ := placed pair inside
    exact grouped range member follower listed
  refine ⟨orderedPairs selected, ?_, ⟨ordered_pairs_nodup _, placed, fun pair inside => ?_⟩,
    fun range member => ?_⟩
  · unfold activationGroups
    refine bind_ok_iff.mpr ⟨ranges, internal_topology_ok.mpr derived, ?_⟩
    rw [unless_thrown_ok]
    refine ⟨?_, bind_ok_iff.mpr ⟨selected, folded, groups_collected _ nonempty⟩⟩
    simpa using enough
  · exact List.isEmpty_eq_false_iff.mp (nonempty pair inside)
  · exact (selects range member).grows fun pair inside => mem_ordered_pairs.mpr inside

theorem selected_groups_cover {state later : ClusterState} (settled : state.Settled)
    {ranges : List DerivedRange}
    (derived : state.committed.derivedRanges = .ok ranges) {pairs : List StreamPair}
    (selects : ∀ range ∈ ranges, state.Selects range pairs)
    (committed : later.committed = state.committed)
    (kept : ∀ copy, state.AdmittedNow copy → later.AdmittedNow copy)
    (admitted : ∀ group ∈ pairs.map state.repairGroup, ∀ repair ∈ group, later.AdmittedNow repair.copy) :
    later.Covered ranges := by
  have reached : ∀ range ∈ ranges, ∀ follower ∈ range.followerNodeIds,
      (state.admittedCopy range follower = true ∨ (range.ownerNodeId, follower) ∈ pairs) →
      later.AdmittedNow (range.copyTo follower) := by
    intro range member follower listed either
    rcases either with already | picked
    · exact kept _ (admitted_copy_iff.mp already)
    -- A settled state has a repair for every copy, and it lies in its pair's group.
    · obtain ⟨repair, present, copy, pair⟩ := settled_repair settled derived member listed
      rw [← copy]
      refine admitted _ (List.mem_map_of_mem picked) repair (List.mem_filter.mpr ⟨present, ?_⟩)
      exact decide_eq_true pair
  constructor
  · intro range member follower named
    rw [committed] at named
    exact reached range member follower (List.mem_of_mem_take named)
      ((selects range member).named follower named)
  · intro range member
    refine ⟨state.coveredBy range pairs, List.filter_sublist, ?_, fun follower covered => ?_⟩
    · rw [committed]
      exact (selects range member).counted
    · obtain ⟨listed, either⟩ := mem_covered_by.mp covered
      exact reached range member follower listed either

end ClusterState

theorem seeding_ends_covered {settings : CoordinatorSettings} {before last : CoordinatorSystem}
    {passed : List CoordinatorSystem}
    (ran : (Coordination.seedRepairsForActivation settings).run.Ran
      (CoordinatorEffect.Handles settings) before passed
      (.ok ()) last) : last.state.activationCovered = .ok () := by
  unfold Coordination.seedRepairsForActivation at ran
  obtain ⟨_, _, _, _, _, ran, _⟩ := Program.ran_then ran
  obtain ⟨_, _, _, _, _, ran, _⟩ := Program.ran_then ran
  obtain ⟨_, _, _, _, _, ran, _⟩ := Program.ran_then ran
  obtain ⟨_, _, _, _, _, ran, _⟩ := Program.ran_then ran
  obtain ⟨seeded, middle, _, _, reads, ran, _⟩ := Program.ran_then ran
  have current : seeded = middle.state := by
    obtain ⟨later, answer, after, rest, ⟨rfl, rfl⟩, ⟨same, -, rfl⟩, -⟩ := reads
    exact Except.ok.inj same
  cases checked : seeded.activationCovered with
  | error error =>
      rw [checked] at ran
      exact absurd ran.1 (by simp)
  | ok _ =>
      rw [checked] at ran
      obtain ⟨-, -, rfl⟩ := ran
      rw [← current]
      exact checked

/-- In a reconciled state whose ranges have followers enough the selection succeeds
and its groups are enough; and seeding returns only over covered ranges. -/
theorem activation_seeding_covers (settings : CoordinatorSettings) :
    (∀ (state : ClusterState) (ranges : List DerivedRange), state.Settled →
      state.committed.derivedRanges = .ok ranges →
      (∀ range ∈ ranges, requiredMergeFollowers state.committed ≤ range.followerNodeIds.length) →
      ∃ pairs, state.activationGroups = .ok (pairs.map state.repairGroup) ∧ state.Plan ranges pairs ∧
        ∀ later : ClusterState, later.committed = state.committed →
          (∀ copy, state.AdmittedNow copy → later.AdmittedNow copy) →
          (∀ group ∈ pairs.map state.repairGroup, ∀ repair ∈ group, later.AdmittedNow repair.copy) →
            later.Covered ranges) ∧
    ∀ (before last : CoordinatorSystem) (passed : List CoordinatorSystem),
      (Coordination.seedRepairsForActivation settings).run.Ran (CoordinatorEffect.Handles settings)
        before passed (.ok ()) last →
      ∃ ranges, last.state.committed.derivedRanges = .ok ranges ∧ last.state.Covered ranges := by
  constructor
  · intro state ranges settled derived enough
    obtain ⟨pairs, found, plan, selects⟩ := ClusterState.activation_groups_found settled derived enough
    refine ⟨pairs, found, plan, fun later committed kept admitted => ?_⟩
    exact ClusterState.selected_groups_cover settled derived selects committed kept admitted
  · intro before last passed ran
    exact (ClusterState.activation_covered_iff last.state).mp (seeding_ends_covered ran)

namespace SeedingSample

/-- Two members, of which the owner's first successor has to answer. -/
def topology : TopologySnapshot := { JoinSample.joined with writeAckPolicy := .firstSuccessor }

/-- Follower "b" is admitted, follower "a" is not. -/
def partly : ClusterState where
  committed := topology
  processInstances := AList.insert "a" "a-1" (AList.insert "b" "b-1" ∅)
  replicaAdmissions := [RepairSample.admission 2 RepairSample.toB "b-1"]
  replicaRepairs := [ReplicaRepair.pendingFor 2 RepairSample.toA,
    { ReplicaRepair.pendingFor 2 RepairSample.toB with phase := .complete }]

def fully : ClusterState :=
  { partly with
    replicaAdmissions :=
      [RepairSample.admission 2 RepairSample.toB "b-1", RepairSample.admission 2 RepairSample.toA "a-1"] }

def ranges : List DerivedRange := [⟨2048, 2047, "a", ["b"]⟩, ⟨2047, 2048, "b", ["a"]⟩]

theorem derived : topology.derivedRanges = .ok ranges := rfl

def settings : CoordinatorSettings where
  hashing := JoinSample.hashing
  digestOf _ := ""
  migrationTimeout := 0
  rangeMoveConcurrency := 4
  replicaRepairConcurrency := 4
  prepublicationFailureGrace := 0

def system : CoordinatorSystem := { service := Coordinator.start fully 0 0, stored := fully }

def looked : CoordinatorSystem := { system with observed := [system.moment] }

theorem nothing_left : fully.activationGroups = .ok [] := by
  have selected : ranges.foldlM fully.selectForRange [] = .ok [] := rfl
  unfold ClusterState.activationGroups
  refine bind_ok_iff.mpr ⟨ranges, rfl, ?_⟩
  rw [unless_thrown_ok]
  refine ⟨by decide, bind_ok_iff.mpr ⟨[], selected, ?_⟩⟩
  simp [ClusterState.orderedPairs, pure, Except.pure]

theorem returns : (Coordination.seedRepairsForActivation settings).run.Ran
    (CoordinatorEffect.Handles settings) system
    [system, looked, system, looked, system, looked, system, looked] (.ok ()) looked := by
  refine ⟨system, fully, looked, _, ⟨rfl, rfl⟩, ?_, rfl⟩
  refine ⟨system, 0, looked, _, ⟨rfl, rfl⟩, ⟨1, ?_⟩, rfl⟩
  refine ⟨system, fully, looked, [system, looked], ⟨rfl, rfl⟩, ?_, rfl⟩
  change Program.Ran _ (ExceptT.run (do
    let groups ← liftExcept fully.activationGroups
    let _ ← Program.tryMapBounded groups settings.replicaRepairConcurrency
        (Coordination.seedReplicaGroup settings)
    let seeded ← Coordination.readState
    liftExcept seeded.activationCovered)) looked _ (.ok ()) looked
  rw [nothing_left]
  refine ⟨1, system, fully, looked, [], ⟨rfl, rfl⟩, ?_, rfl⟩
  exact ⟨rfl, rfl, rfl⟩

end SeedingSample

/-- The group of follower "a" is all that is missing, and a run over admitted followers returns. -/
theorem activation_seeding_two_members :
    SeedingSample.partly.Settled ∧ SeedingSample.fully.Covered SeedingSample.ranges ∧
      ∃ ranges, SeedingSample.looked.state.committed.derivedRanges = .ok ranges ∧
        SeedingSample.looked.state.Covered ranges := by
  obtain ⟨selects, ends⟩ := activation_seeding_covers SeedingSample.settings
  refine ⟨rfl, ?_, ends _ _ _ SeedingSample.returns⟩
  obtain ⟨pairs, found, plan, covers⟩ :=
    selects SeedingSample.partly SeedingSample.ranges rfl SeedingSample.derived (by decide)
  refine covers SeedingSample.fully rfl ?_ fun group picked repair inside => ?_
  · rintro copy ⟨admission, member, admitted⟩
    exact ⟨admission, List.mem_cons.mpr (.inl (List.mem_singleton.mp member)), admitted⟩
  · obtain ⟨pair, listed, rfl⟩ := List.mem_map.mp picked
    have present := List.mem_of_mem_filter inside
    rcases List.mem_cons.mp present with rfl | present
    · exact ⟨RepairSample.admission 2 RepairSample.toA "a-1", by decide, rfl, rfl, rfl⟩
    · obtain rfl := List.mem_singleton.mp present
      exact ⟨RepairSample.admission 2 RepairSample.toB "b-1", by decide, rfl, rfl, rfl⟩

end Hashring
