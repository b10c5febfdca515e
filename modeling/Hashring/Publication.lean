import Hashring.RepairStores

/-! The publications: the target of a change becomes the committed topology, and
reconciliation fits the admissions and repairs to it. -/
namespace Hashring
namespace ClusterState

variable {settings : CoordinatorSettings}

theorem reconcile_sound {ready next : ClusterState}
    (reconciles : ready.reconcileReplicaRepairs = .ok next) (epoch : ready.committed.epoch < 2 ^ 64)
    (committed : ready.committed.validate settings.hashing settings.digestOf = .ok ())
    (change : ∀ change, ready.activeChange = some change →
      ready.ValidChange settings.hashing settings.digestOf change ∧ ready.ChangeSound change)
    (instances : ∀ entry ∈ ready.processInstances.entries, entry.1.isEmpty = false ∧
      entry.2.isEmpty = false)
    (fenced : ∀ node ∈ ready.fencedNodes.elements, node.isEmpty = false)
    (stops : ∀ entry ∈ ready.stopConfirmations.entries, entry.1.isEmpty = false ∧
      entry.2.elements.isEmpty = false ∧
      ∀ instance_ ∈ entry.2.elements, instance_.isEmpty = false)
    (admissionsOnce : (ready.replicaAdmissions.map (·.copy)).Nodup)
    (named : ∀ admission ∈ ready.replicaAdmissions,
      admission.processInstanceId.isEmpty = false ∧ admission.digest.isEmpty = false)
    (repairsOnce : (ready.replicaRepairs.map (·.copy)).Nodup) :
    Sound settings next ∧ next.committed = ready.committed ∧ next.activeChange = ready.activeChange := by
  have settled := reconcile_settled reconciles
  obtain ⟨ranges, derived, few, rfl⟩ := (reconcile_iff ready next).mp reconciles
  have copies := reconciled_copies ready (desiredCopies ranges) admissionsOnce repairsOnce named
  refine ⟨⟨epoch, ⟨committed, ?_, ?_, fun other active => (change other active).1.transfer rfl rfl,
    instances, fenced, stops,
    ranges, derived, copies⟩, settled, fun other active => (change other active).2.transfer rfl⟩,
      rfl, rfl⟩
  · exact Sound.few_admissions few copies.admissionsOnce fun admission member =>
      (copies.admitted admission member).2.2.2
  · have inside : (ready.reconciled (desiredCopies ranges)).replicaRepairs.map
        (·.copy) ⊆ desiredCopies ranges :=
      fun copy member => (mem_reconciled_copies ready _ copy).mp member
    have short := (List.subperm_of_subset copies.repairsOnce inside).length_le
    rw [List.length_map] at short
    exact short.trans few

structure Publishes (change published : TopologyChange) : Prop where
  changeId : published.changeId = change.changeId
  baseEpoch : published.baseEpoch = change.baseEpoch
  baseTopology : published.baseTopology = change.baseTopology
  supersedes : published.supersedesChangeId = change.supersedesChangeId
  target : published.targetTopology = change.targetTopology
  obligations : published.replicaObligations = change.replicaObligations
  ranges : published.ranges = change.ranges
  failed : published.failedNodeId = change.failedNodeId
  phase : published.phase = .published

theorem target_epoch {state : ClusterState} {change : TopologyChange}
    (valid : state.ValidChange settings.hashing settings.digestOf change)
    (before : change.phase.beforePublication = true) :
    change.baseEpoch = state.committed.epoch ∧ change.targetTopology.epoch =
      saturatingSucc state.committed.epoch := by
  have epochs := valid.epochs
  simp only [epochRelationIsValid, before, if_true, decide_eq_true_eq] at epochs
  exact epochs

theorem Publishes.valid {state ready : ClusterState} {change published : TopologyChange}
    (publishes : Publishes change published)
    (valid : state.ValidChange settings.hashing settings.digestOf change)
    (before : change.phase.beforePublication = true)
    (committed : ready.committed = change.targetTopology)
    (superseded : ready.supersededChange = state.supersededChange) :
    ready.ValidChange settings.hashing settings.digestOf published := by
  obtain ⟨base, epoch⟩ := target_epoch valid before
  have target : published.targetTopology = ready.committed := publishes.target.trans committed.symm
  have after : published.phase.beforePublication = false := by rw [publishes.phase]; rfl
  refine ⟨?_, publishes.ranges ▸ valid.ranges, publishes.obligations ▸ valid.obligations,
    publishes.target ▸ valid.target, ?_,
    by rw [target], by rw [target], by rw [target], by rw [target], ?_⟩
  · have supersedes := valid.supersedes
    unfold supersedesPublished at supersedes ⊢
    rw [publishes.supersedes, publishes.baseEpoch, superseded]
    exact supersedes
  · simp only [epochRelationIsValid, after, Bool.false_eq_true, if_false, decide_eq_true_eq]
    exact ⟨target, by rw [publishes.baseEpoch, base, committed, epoch]⟩
  · intro topology same
    rw [publishes.baseTopology] at same
    obtain ⟨baseValid, baseEpoch, _⟩ := valid.base topology same
    exact ⟨baseValid, baseEpoch.trans publishes.baseEpoch.symm, fun early =>
      absurd early (by simp [after])⟩

theorem Publishes.change_sound {state ready : ClusterState} {change published : TopologyChange}
    (publishes : Publishes change published) (sound : state.ChangeSound change)
    (committed : ready.committed = change.targetTopology) : ready.ChangeSound published :=
  ⟨by rw [publishes.target, committed]; exact ⟨rfl, rfl, rfl⟩,
    by rw [publishes.target, publishes.baseEpoch]; exact sound.epoch,
    publishes.ranges ▸ sound.named, by rw [publishes.failed, publishes.target]; exact sound.failed⟩

theorem publication {state ready next : ClusterState} {change published : TopologyChange}
    (sound : Sound settings state)
    (active : state.activeChange = some change) (before : change.phase.beforePublication = true)
    (publishes : Publishes change published) (reconciles : ready.reconcileReplicaRepairs = .ok next)
    (committed : ready.committed = change.targetTopology) (result : ready.activeChange = some published)
    (superseded : ready.supersededChange = state.supersededChange)
    (fenced : ready.fencedNodes = state.fencedNodes)
    (stops : ready.stopConfirmations = state.stopConfirmations)
    (instances : ∀ entry ∈ ready.processInstances.entries, entry.1.isEmpty = false ∧
      entry.2.isEmpty = false)
    (admissionsOnce : (ready.replicaAdmissions.map (·.copy)).Nodup)
    (named : ∀ admission ∈ ready.replicaAdmissions,
      admission.processInstanceId.isEmpty = false ∧ admission.digest.isEmpty = false)
    (repairsOnce : (ready.replicaRepairs.map (·.copy)).Nodup) :
    Sound settings next ∧ Advance state next ∧ next.activeChange = some published ∧
      next.committed = change.targetTopology := by
  have valid := sound.valid.change change active
  have changed := sound.change change active
  obtain ⟨base, epoch⟩ := target_epoch valid before
  -- The target is the successor of its base, and it saturates below the width.
  have small : ready.committed.epoch < 2 ^ 64 := by
    rw [committed, epoch]
    unfold saturatingSucc
    omega
  have fits : ∀ other, ready.activeChange = some other →
      ready.ValidChange settings.hashing settings.digestOf other ∧ ready.ChangeSound other := by
    intro other same
    obtain rfl := Option.some.inj (result.symm.trans same)
    exact ⟨publishes.valid valid before committed superseded, publishes.change_sound changed committed⟩
  obtain ⟨nextSound, nextCommitted, nextChange⟩ :=
    reconcile_sound reconciles small (committed ▸ valid.target) fits instances
    (fenced ▸ sound.valid.fenced) (stops ▸ sound.valid.stops) admissionsOnce named repairsOnce
  rw [committed] at nextCommitted
  rw [result] at nextChange
  have grown : next.committed.epoch = state.committed.epoch + 1 := by
    rw [nextCommitted, changed.epoch, base]
  refine ⟨nextSound, ⟨.inr ⟨grown, nextCommitted ▸ changed.sameRing, published, nextChange,
    publishes.phase, ?_⟩, ?_,
    KeepsProcesses.of_growth grown⟩, nextChange, nextCommitted⟩
  · rw [publishes.target, nextCommitted]
  · intro other same late
    obtain rfl := Option.some.inj (active.symm.trans same)
    exact absurd before (by simp [late])

theorem Sound.admissions_named {state : ClusterState} (sound : Sound settings state) :
    ∀ admission ∈ state.replicaAdmissions,
      admission.processInstanceId.isEmpty = false ∧ admission.digest.isEmpty = false := by
  obtain ⟨ranges, derived, copies⟩ := sound.valid.copies
  intro admission member
  exact ⟨(copies.admitted admission member).2.1, (copies.admitted admission member).2.2.1⟩

theorem Sound.admissions_once {state : ClusterState} (sound : Sound settings state) :
    (state.replicaAdmissions.map (·.copy)).Nodup := by
  obtain ⟨ranges, derived, copies⟩ := sound.valid.copies
  exact copies.admissionsOnce

theorem Sound.repairs_once {state : ClusterState} (sound : Sound settings state) :
    (state.replicaRepairs.map (·.copy)).Nodup := by
  obtain ⟨ranges, derived, copies⟩ := sound.valid.copies
  exact copies.repairsOnce

variable (settings) in
structure Published (state next : ClusterState) (active : TopologyChange) : Prop where
  sound : Sound settings next
  advance : Advance state next
  change : ∃ published, next.activeChange = some published ∧ Publishes active published
  committed : next.committed = active.targetTopology

theorem publish_copied_published {state next : ClusterState} {change active : TopologyChange}
    {destinations : FiniteMap String (String × String)} {changed : Option String}
    (sound : Sound settings state) (found : state.activeChange = some active)
    (before : active.phase.beforePublication = true)
    (stored : state.publishCopied change destinations = .ok (some next, changed)) :
    Published settings state next active := by
  unfold publishCopied at stored
  split at stored
  · exact absurd stored (by simp)
  · rw [found] at stored
    simp only at stored
    split at stored
    · exact absurd stored (by simp)
    · obtain ⟨ready, reconciles, stored⟩ := bind_ok_iff.mp stored
      obtain rfl := Option.some.inj (Prod.mk.inj (Except.ok.inj stored)).1
      have publishes : Publishes active { active with phase := .published } :=
        ⟨rfl, rfl, rfl, rfl, rfl, rfl, rfl, rfl, rfl⟩
      obtain ⟨nextSound, advance, result, committed⟩ :=
        publication sound found before publishes (mapped_ok reconciles) rfl rfl rfl
        rfl rfl sound.valid.instances sound.admissions_once sound.admissions_named sound.repairs_once
      exact ⟨nextSound, advance, ⟨_, result, publishes⟩, committed⟩

theorem publish_policy_published {state next : ClusterState} {change active : TopologyChange}
    (sound : Sound settings state) (found : state.activeChange = some active)
    (before : active.phase.beforePublication = true)
    (same : change.targetTopology = active.targetTopology)
    (stored : state.publishPolicy change = .ok (some next, ())) :
    Published settings state next active := by
  unfold publishPolicy at stored
  rw [found] at stored
  simp only at stored
  split at stored
  · exact absurd stored (by simp)
  · obtain ⟨ready, reconciles, stored⟩ := bind_ok_iff.mp stored
    obtain rfl := Option.some.inj (Prod.mk.inj (Except.ok.inj stored)).1
    have publishes : Publishes active { active with phase := .published } :=
      ⟨rfl, rfl, rfl, rfl, rfl, rfl, rfl, rfl, rfl⟩
    have once : ((state.replicaAdmissions.map fun admission =>
        { admission with epoch := change.targetTopology.epoch }).map (·.copy)).Nodup := by
      rw [List.map_map]
      exact sound.admissions_once
    have named : ∀ admission ∈ state.replicaAdmissions.map fun admission =>
        { admission with epoch := change.targetTopology.epoch },
        admission.processInstanceId.isEmpty = false ∧ admission.digest.isEmpty = false := by
      intro admission member
      obtain ⟨old, present, rfl⟩ := List.mem_map.mp member
      exact sound.admissions_named old present
    have repairsOnce : ((state.replicaRepairs.map fun repair =>
        { repair with epoch := change.targetTopology.epoch }).map (·.copy)).Nodup := by
      rw [List.map_map]
      exact sound.repairs_once
    obtain ⟨nextSound, advance, result, committed⟩ :=
      publication sound found before publishes (mapped_ok reconciles) same rfl rfl
      rfl rfl sound.valid.instances once named repairsOnce
    exact ⟨nextSound, advance, ⟨_, result, publishes⟩, committed⟩

def RemovalPublication.Fits : RemovalPublication → Prop
  | .failed => True
  | .graceful admissions => (admissions.map (·.copy)).Nodup ∧ ∀ admission ∈ admissions,
      admission.processInstanceId.isEmpty = false ∧ admission.digest.isEmpty = false

theorem publish_removed_published {state next : ClusterState} {change active : TopologyChange}
    {publication : RemovalPublication} (sound : Sound settings state)
    (found : state.activeChange = some active) (before : active.phase.beforePublication = true)
    (same : change.targetTopology = active.targetTopology) (fits : publication.Fits)
    (stored : state.publishRemovedTopology change publication = .ok next) :
    Published settings state next active := by
  have publishes : Publishes active { active with phase := .published, activationReady := true } :=
    ⟨rfl, rfl, rfl, rfl, rfl, rfl, rfl, rfl, rfl⟩
  have finish : ∀ (admissions : List ReplicaAdmission) (instances : FiniteMap String String),
      (admissions.map (·.copy)).Nodup → (∀ admission ∈ admissions,
        admission.processInstanceId.isEmpty = false ∧ admission.digest.isEmpty = false) →
      (∀ entry ∈ instances.entries, entry.1.isEmpty = false ∧ entry.2.isEmpty = false) →
      ({ state with
          committed := change.targetTopology, processInstances := instances, replicaAdmissions :=
            admissions
          replicaRepairs := []
          activeChange := some { active with phase := .published, activationReady := true } } :
            ClusterState).reconcileReplicaRepairs = .ok next → Published settings state next active := by
    intro admissions instances once named registered reconciles
    obtain ⟨nextSound, advance, result, committed⟩ :=
      ClusterState.publication sound found before publishes reconciles
      same rfl rfl rfl rfl registered once named List.nodup_nil
    exact ⟨nextSound, advance, ⟨_, result, publishes⟩, committed⟩
  unfold publishRemovedTopology at stored
  simp only [found] at stored
  split at stored
  · cases publication with
    | graceful given => exact finish given _ fits.1 fits.2 sound.valid.instances (mapped_ok stored)
    | failed =>
        simp only at stored
        split at stored
        · exact absurd stored (by simp [pure, Except.pure, throw, throwThe, MonadExceptOf.throw, bind, Except.bind])
        · have none_named : ∀ admission ∈ ([] : List ReplicaAdmission),
              admission.processInstanceId.isEmpty = false ∧ admission.digest.isEmpty = false :=
            fun _ member => absurd member List.not_mem_nil
          exact finish [] _ List.nodup_nil none_named
            (fun entry member => sound.valid.instances entry (FiniteMap.mem_entries_erase member))
              (mapped_ok stored)
  · exact absurd stored (by simp [throw, throwThe, MonadExceptOf.throw, bind, Except.bind])

theorem publish_failed_published {coordinator : Coordinator} {next : ClusterState}
    {change active : TopologyChange} {failedNodeId : String}
    (sound : Sound settings coordinator.state)
    (found : coordinator.state.activeChange = some active)
    (before : active.phase.beforePublication = true)
    (same : change.targetTopology = active.targetTopology)
    (stored : publishFailed change failedNodeId coordinator = .ok (some next, ())) :
    Published settings coordinator.state next active := by
  unfold publishFailed at stored
  obtain ⟨_, _, stored⟩ := bind_ok_iff.mp stored
  simp only [unless_thrown_ok] at stored
  obtain ⟨_, stored⟩ := stored
  obtain ⟨removed, published, stored⟩ := bind_ok_iff.mp stored
  obtain rfl := Option.some.inj (Prod.mk.inj (Except.ok.inj stored)).1
  have fits : RemovalPublication.Fits .failed := trivial
  exact publish_removed_published sound found before same fits published

theorem publish_merged_published {state snapshot next : ClusterState} {change active : TopologyChange}
    {admissions : List ReplicaAdmission} (sound : Sound settings state)
    (found : state.activeChange = some active) (before : active.phase.beforePublication = true)
    (same : change.targetTopology = active.targetTopology)
    (fits : RemovalPublication.Fits (.graceful admissions))
    (stored : state.publishMerged snapshot change admissions = .ok (some next, ())) :
    Published settings state next active := by
  unfold publishMerged at stored
  simp only [unless_thrown_ok] at stored
  obtain ⟨_, stored⟩ := stored
  obtain ⟨removed, published, stored⟩ := bind_ok_iff.mp stored
  obtain rfl := Option.some.inj (Prod.mk.inj (Except.ok.inj stored)).1
  exact publish_removed_published sound found before same fits published

theorem recovery_fits {state ready : ClusterState} {change planned : TopologyChange}
    (valid : state.ValidChange settings.hashing settings.digestOf planned)
    (changed : state.ChangeSound planned) (before : planned.phase.beforePublication = true)
    (joined : change.targetTopology = state.committed) (published : change.phase = .published)
    (committed : ready.committed = planned.targetTopology)
    (superseded : ready.supersededChange = some change) :
    let recovery := { planned with ranges := [], phase := .published, supersedesChangeId := some change.changeId }
    ready.ValidChange settings.hashing settings.digestOf recovery ∧ ready.ChangeSound recovery := by
  obtain ⟨base, epoch⟩ := target_epoch valid before
  refine ⟨⟨?_, Nat.zero_le _, valid.obligations, valid.target, ?_,
    by rw [committed], by rw [committed], by rw [committed],
    by rw [committed], ?_⟩, by rw [committed]; exact ⟨rfl, rfl, rfl⟩, changed.epoch,
    fun _ member => absurd member List.not_mem_nil, changed.failed⟩
  · simp only [supersedesPublished, superseded, Option.all_some, Option.any_some, joined, base,
      published, and_self,
      decide_true]
  · simp only [epochRelationIsValid, MigrationPhase.beforePublication, Bool.false_eq_true, if_false,
      decide_eq_true_eq]
    exact ⟨committed.symm, by rw [base, committed, epoch]⟩
  · intro topology same
    obtain ⟨baseValid, baseEpoch, _⟩ := valid.base topology same
    exact ⟨baseValid, baseEpoch, fun early => absurd early (by simp [MigrationPhase.beforePublication])⟩

theorem publish_recovery_advance {state snapshot next : ClusterState}
    {change active planned : TopologyChange}
    {changeId failedNodeId : String} {members : List Member} (sound : Sound settings state)
    (found : state.activeChange = some active) (sameId : active.changeId = change.changeId)
    (sameTarget : active.targetTopology = change.targetTopology) (live : active.phase = .published)
    (published : change.phase = .published) (named : failedNodeId.isEmpty = false)
    (accepted : TopologyChange.plan settings.hashing settings.digestOf changeId snapshot.committed
      members = .ok planned)
    (stored : state.publishRecovery snapshot change
      { planned with ranges := [], phase := .published, supersedesChangeId := some change.changeId }
        failedNodeId =
        .ok (some next, true)) :
    Sound settings next ∧ Advance state next ∧ next.committed = planned.targetTopology ∧
      next.activeChange =
        some { planned with ranges := [], phase := .published, supersedesChangeId := some change.changeId } := by
  unfold publishRecovery at stored
  split at stored
  · exact absurd stored (by simp)
  · -- The recovery is planned on the topology that is committed now.
    rename_i current
    obtain ⟨_, unchanged⟩ := not_or.mp current
    rw [← not_not.mp unchanged] at accepted
    obtain ⟨ready, reconciles, stored⟩ := bind_ok_iff.mp stored
    have same := Option.some.inj (Prod.mk.inj (Except.ok.inj stored)).1
    subst same
    obtain ⟨valid, changed, phase, base, _⟩ := plan_sound sound accepted
    have before : planned.phase.beforePublication = true := by rw [phase]; rfl
    have late : active.phase.beforePublication = false := by rw [live]; rfl
    have joined : change.targetTopology = state.committed :=
      sameTarget.symm.trans (published_target sound found late)
    -- The next epoch saturates, so it still fits the wire.
    have small : planned.targetTopology.epoch < 2 ^ 64 := by
      rw [(target_epoch valid before).2]
      unfold saturatingSucc
      omega
    have fencedNamed : ∀ node ∈ (state.fencedNodes.insert failedNodeId).elements,
        node.isEmpty = false := by
      intro node member
      rcases (OrderedSet.mem_insert _ _ _).mp member with rfl | old
      · exact named
      · exact sound.valid.fenced node old
    obtain ⟨nextSound, committed, result⟩ := reconcile_sound (mapped_ok reconciles) small valid.target
      (fun other same => Option.some.inj same ▸ recovery_fits valid changed before joined published
        rfl rfl)
      (fun entry member => sound.valid.instances entry (FiniteMap.mem_entries_erase member))
        fencedNamed sound.valid.stops
      List.nodup_nil (fun _ member => absurd member List.not_mem_nil) List.nodup_nil
    have grown : ready.committed.epoch = state.committed.epoch + 1 := by
      rw [committed]
      exact changed.epoch.trans (congrArg (· + 1) base)
    refine ⟨nextSound, ⟨.inr ⟨grown, ?_, _, result, rfl, committed.symm⟩, fun other same _ => ?_,
      KeepsProcesses.of_growth grown⟩, committed, result⟩
    · rw [committed]
      exact changed.sameRing
    · obtain rfl := Option.some.inj (found.symm.trans same)
      exact ⟨_, result, .inr (.inr
        ⟨congrArg some sameId.symm, rfl, by rw [sameTarget, joined]; exact base⟩)⟩

/-! The admissions carried into a merged topology. -/

theorem candidate_for_inv {state : ClusterState} {hashing : Hashing} {epoch : Nat} {target : DerivedRange}
    {parts : List DerivedRange} {follower : String} {candidate : CandidateAdmission}
    (found : state.candidateFor hashing epoch target parts follower = some candidate) :
    follower ∉ state.fencedNodes ∧ ∃ processInstanceId digest,
      state.processInstances.lookup follower = some processInstanceId ∧
      state.followerCoverage follower parts [] (utf8 "hashring-rs:merged-admission:v1" ++ [byte 0]) =
        some (candidate.pairs, digest) ∧
      candidate.admission =
        { epoch, startExclusive := target.startExclusive, endInclusive := target.endInclusive
          ownerNodeId := target.ownerNodeId, nodeId := follower, processInstanceId
          verifiedWatermark := 0, streamCursor := 0, digest := hex (hashing.blake3 digest) } := by
  unfold candidateFor at found
  obtain ⟨processInstanceId, registered, found⟩ := Option.bind_eq_some_iff.mp found
  split at found
  · exact absurd found (by simp)
  · rename_i free
    obtain ⟨⟨pairs, digest⟩, covered, found⟩ := Option.bind_eq_some_iff.mp found
    obtain rfl := Option.some.inj found
    exact ⟨free, processInstanceId, digest, registered, covered, rfl⟩

theorem candidates_of_range {state : ClusterState} {hashing : Hashing} {epoch : Nat}
    {target : DerivedRange} {parts : List DerivedRange} (followers : List String) :
    ((followers.filterMap (state.candidateFor hashing epoch target parts)).map (·.admission.copy)).Sublist
      (followers.map fun nodeId => { startExclusive := target.startExclusive, endInclusive := target.endInclusive
                                     ownerNodeId := target.ownerNodeId, nodeId }) := by
  induction followers with
  | nil => exact List.Sublist.refl _
  | cons follower rest ih =>
      cases found : state.candidateFor hashing epoch target parts follower with
      | none =>
          rw [List.filterMap_cons_none found, List.map_cons]
          exact ih.cons _
      | some candidate =>
          rw [List.filterMap_cons_some found, List.map_cons, List.map_cons]
          obtain ⟨_, _, _, _, _, same⟩ := candidate_for_inv found
          rw [same]
          exact ih.cons_cons _

theorem collect_candidates_inv {state : ClusterState} {hashing : Hashing} {epoch : Nat}
    {oldRanges : List DerivedRange} {targets : List DerivedRange} {proof : MergeProof}
    (collected : state.collectCandidates hashing epoch oldRanges targets = .ok proof) :
    (proof.candidates.map (·.admission.copy)).Sublist (desiredCopies targets) ∧
      ∀ candidate ∈ proof.candidates, ∃ target ∈ targets, ∃ follower ∈ target.followerNodeIds,
        state.candidateFor hashing epoch target (constituents oldRanges target) follower =
          some candidate := by
  induction targets generalizing proof with
  | nil =>
      obtain rfl := Except.ok.inj collected
      exact ⟨List.Sublist.refl _, fun _ member => absurd member List.not_mem_nil⟩
  | cons target rest ih =>
      unfold collectCandidates at collected
      simp only [unless_thrown_ok] at collected
      obtain ⟨_, collected⟩ := collected
      obtain ⟨later, inner, collected⟩ := bind_ok_iff.mp collected
      obtain rfl := Except.ok.inj collected
      obtain ⟨sublist, origin⟩ := ih inner
      refine ⟨?_, fun candidate member => ?_⟩
      · simp only [List.map_append, desiredCopies, List.flatMap_cons]
        exact (candidates_of_range target.followerNodeIds).append sublist
      · rcases List.mem_append.mp member with here | there
        · obtain ⟨follower, listed, found⟩ := List.mem_filterMap.mp here
          exact ⟨target, List.mem_cons_self, follower, listed, found⟩
        · obtain ⟨other, listed, follower, named, found⟩ := origin candidate there
          exact ⟨other, List.mem_cons_of_mem _ listed, follower, named, found⟩

theorem hex_named {bytes : Bytes} (some_byte : bytes ≠ []) : (hex bytes).isEmpty = false := by
  obtain ⟨first, rest, rfl⟩ := List.exists_cons_of_ne_nil some_byte
  simp [hex]

theorem merge_proof_fits {state : ClusterState} {change : TopologyChange} {proof : MergeProof}
    {caughtUp : List StreamPair} (digests : ∀ bytes, settings.hashing.blake3 bytes ≠ [])
    (sound : Sound settings state)
    (target : change.targetTopology.validate settings.hashing settings.digestOf = .ok ())
    (proved : state.mergeProof settings.hashing change = .ok proof) :
    RemovalPublication.Fits (.graceful (Coordination.carriedAdmissions proof.candidates caughtUp)) := by
  unfold mergeProof at proved
  obtain ⟨_, _, proved⟩ := bind_ok_iff.mp proved
  obtain ⟨oldRanges, _, proved⟩ := bind_ok_iff.mp proved
  obtain ⟨targetRanges, derived, proved⟩ := bind_ok_iff.mp proved
  obtain ⟨collected, found, proved⟩ := bind_ok_iff.mp proved
  obtain ⟨followers, _, proved⟩ := bind_ok_iff.mp proved
  obtain rfl := Except.ok.inj proved
  obtain ⟨sublist, origin⟩ := collect_candidates_inv found
  refine ⟨?_, fun admission member => ?_⟩
  · unfold Coordination.carriedAdmissions
    rw [List.map_map]
    exact (desired_copies_nodup target (mapped_ok derived)).sublist
      ((List.filter_sublist.map _).trans sublist)
  · obtain ⟨candidate, kept, rfl⟩ := List.mem_map.mp member
    obtain ⟨range, _, follower, _, made⟩ := origin candidate (List.mem_filter.mp kept).1
    obtain ⟨_, processInstanceId, digest, registered, _, same⟩ := candidate_for_inv made
    rw [same]
    exact ⟨(sound.valid.instances _ ((FiniteMap.lookup_some_iff _ _ _).mp registered)).2,
      hex_named (digests digest)⟩

end ClusterState
end Hashring
