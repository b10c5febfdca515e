import Hashring.CoordinatorInvariant

/-! Reconciling follower admissions and repairs with the committed topology
(`reconcile_replica_repairs`, crates/hashring-coordinator/src/lib.rs), from any
stored lists: what it keeps, what it starts over, and that the check of the store
accepts the result. -/
namespace Hashring
namespace ClusterState

/-- Whether an admission still vouches for a copy: this epoch, a copy the topology
asks for, and the process its follower registered. -/
structure AdmissionStands (state : ClusterState) (desired : List ReplicaCopy)
    (admission : ReplicaAdmission) : Prop where
  epoch : admission.epoch = state.committed.epoch
  registered : state.processInstances.lookup admission.nodeId = some admission.processInstanceId
  desired : admission.copy ∈ desired

structure RepairWanted (state : ClusterState) (desired : List ReplicaCopy)
    (repair : ReplicaRepair) : Prop where
  epoch : repair.epoch = state.committed.epoch
  desired : repair.copy ∈ desired

/-- The replica part of `validate`. -/
structure ReplicasAccepted (state : ClusterState) (desired : List ReplicaCopy) : Prop where
  admissionCount : state.replicaAdmissions.length ≤ maxReplicaObligations
  repairCount : state.replicaRepairs.length ≤ maxReplicaObligations
  admissions : validateAdmissions state.committed.epoch desired state.replicaAdmissions = .ok ()
  repairs : validateRepairs state.committed.epoch desired (state.replicaAdmissions.map (·.copy))
    state.replicaRepairs = .ok ()

/-- What holds after reconciliation, for the copies the committed topology asks for. -/
structure ReplicasRestored (state after : ClusterState) (desired : List ReplicaCopy) : Prop where
  frame : after = { state with replicaAdmissions := after.replicaAdmissions, replicaRepairs := after.replicaRepairs }
  oneEach : (after.replicaRepairs.map (·.copy)).Perm desired
  current : ∀ repair ∈ after.replicaRepairs, repair.epoch = state.committed.epoch
  admissions : ∀ admission, admission ∈ after.replicaAdmissions ↔
    admission ∈ state.replicaAdmissions ∧ state.AdmissionStands desired admission
  complete : ∀ repair ∈ after.replicaRepairs, repair.phase = .complete →
    ∃ admission ∈ after.replicaAdmissions, admission.copy = repair.copy
  progress : ∀ repair ∈ state.replicaRepairs, state.RepairWanted desired repair →
    (repair.phase = .complete → ∃ admission ∈ after.replicaAdmissions, admission.copy = repair.copy) →
    repair ∈ after.replicaRepairs
  reopened : ∀ repair ∈ state.replicaRepairs, state.RepairWanted desired repair →
    repair.phase = .complete →
    (∀ admission ∈ after.replicaAdmissions, admission.copy ≠ repair.copy) →
    { repair with phase := .pending } ∈ after.replicaRepairs
  added : ∀ repair ∈ after.replicaRepairs,
    (∃ old ∈ state.replicaRepairs, state.RepairWanted desired old ∧ old.copy = repair.copy) ∨
      repair = ReplicaRepair.pendingFor state.committed.epoch repair.copy
  accepted : after.ReplicasAccepted desired
  settled : after.reconcileReplicaRepairs = .ok after

variable {state : ClusterState} {desired : List ReplicaCopy}

theorem admission_kept_iff {admission : ReplicaAdmission} :
    state.admissionKept desired admission = true ↔ state.AdmissionStands desired admission := by
  unfold admissionKept
  rw [decide_eq_true_eq]
  constructor
  · rintro ⟨epoch, registered, inside⟩
    exact ⟨epoch, registered, inside⟩
  · rintro ⟨epoch, registered, inside⟩
    exact ⟨epoch, registered, inside⟩

theorem repair_kept_iff {repair : ReplicaRepair} :
    state.repairKept desired repair = true ↔ state.RepairWanted desired repair := by
  unfold repairKept
  rw [decide_eq_true_eq]
  constructor
  · rintro ⟨epoch, inside⟩
    exact ⟨epoch, inside⟩
  · rintro ⟨epoch, inside⟩
    exact ⟨epoch, inside⟩

theorem mem_reconciled_admissions {admission : ReplicaAdmission} :
    admission ∈ (state.reconciled desired).replicaAdmissions ↔
      admission ∈ state.replicaAdmissions ∧ state.AdmissionStands desired admission := by
  unfold reconciled
  rw [List.mem_filter, admission_kept_iff]

theorem reconciled_keeps_repair {repair : ReplicaRepair} (present : repair ∈ state.replicaRepairs)
    (wanted : state.RepairWanted desired repair) :
    repair.reopen ((state.reconciled desired).replicaAdmissions.map (·.copy)) ∈ (state.reconciled
      desired).replicaRepairs := by
  apply List.mem_append_left
  apply List.mem_map_of_mem
  exact List.mem_filter.mpr ⟨present, repair_kept_iff.mpr wanted⟩

theorem reconciled_repair_origin {repair : ReplicaRepair}
    (member : repair ∈ (state.reconciled desired).replicaRepairs) :
    (∃ old ∈ state.replicaRepairs, state.RepairWanted desired old ∧ old.copy = repair.copy) ∨
      repair = ReplicaRepair.pendingFor state.committed.epoch repair.copy := by
  rcases List.mem_append.mp member with kept | missing
  · obtain ⟨old, inside, rfl⟩ := List.mem_map.mp kept
    obtain ⟨present, fits⟩ := List.mem_filter.mp inside
    exact .inl ⟨old, present, repair_kept_iff.mp fits, (reopen_copy _ old).symm⟩
  · obtain ⟨copy, _, rfl⟩ := List.mem_map.mp missing
    exact .inr (by rw [pending_for_copy])

/-- The counts stay within the limit because no copy is admitted or repaired twice. -/
theorem valid_copies_accepted {after : ClusterState} (few : desired.length ≤ maxReplicaObligations)
    (valid : ValidCopies after.committed.epoch desired after.replicaAdmissions after.replicaRepairs) :
    after.ReplicasAccepted desired := by
  have counted : ∀ copies : List ReplicaCopy, copies.Nodup → (∀ copy ∈ copies, copy ∈ desired) →
      copies.length ≤ maxReplicaObligations := fun copies once inside =>
    (List.subperm_of_subset once inside).length_le.trans few
  obtain ⟨admissions, repairs⟩ := (valid_copies_iff _ _ _ _).mpr valid
  refine ⟨?_, ?_, admissions, repairs⟩
  · rw [← List.length_map (f := ReplicaAdmission.copy)]
    apply counted _ valid.admissionsOnce
    intro copy listed
    obtain ⟨admission, member, rfl⟩ := List.mem_map.mp listed
    exact (valid.admitted admission member).2.2.2
  · rw [← List.length_map (f := ReplicaRepair.copy)]
    apply counted _ valid.repairsOnce
    intro copy listed
    obtain ⟨repair, member, rfl⟩ := List.mem_map.mp listed
    exact (valid.repaired repair member).2.1

/-- Whatever epochs, ranges and processes the stored admissions and repairs name, a
reconciliation that succeeds restores the replica invariants. -/
theorem reconciliation_restores_replicas {hashing : Hashing} {digestOf : TopologySnapshot → String}
    {state after : ClusterState} (valid : state.committed.validate hashing digestOf = .ok ())
    (admissionsOnce : (state.replicaAdmissions.map (·.copy)).Nodup)
    (repairsOnce : (state.replicaRepairs.map (·.copy)).Nodup)
    (named : ∀ admission ∈ state.replicaAdmissions,
      admission.processInstanceId.isEmpty = false ∧ admission.digest.isEmpty = false)
    (reconciles : state.reconcileReplicaRepairs = .ok after) :
    ∃ ranges, state.committed.derivedRanges = .ok ranges ∧
      state.ReplicasRestored after (desiredCopies ranges) := by
  have settled := reconcile_settled reconciles
  obtain ⟨ranges, derived, few, rfl⟩ := (reconcile_iff state after).mp reconciles
  have copies := reconciled_copies state (desiredCopies ranges) admissionsOnce repairsOnce named
  refine ⟨ranges, derived, ?_⟩
  constructor
  case frame => rfl
  -- Both lists are without repetitions and hold the desired copies.
  case oneEach =>
    apply (List.perm_ext_iff_of_nodup copies.repairsOnce (desired_copies_nodup valid derived)).mpr
    exact mem_reconciled_copies state (desiredCopies ranges)
  case current =>
    intro repair member
    exact (reconciled_repair member).1
  case admissions =>
    intro admission
    exact mem_reconciled_admissions
  case complete =>
    intro repair member complete
    exact List.mem_map.mp ((reconciled_repair member).2.2 complete)
  case progress =>
    intro repair present wanted admitted
    have kept := reconciled_keeps_repair present wanted
    rw [reopen_admitted fun complete => List.mem_map.mpr (admitted complete)] at kept
    exact kept
  -- A complete repair whose admission is gone starts again.
  case reopened =>
    intro repair present wanted complete lost
    have kept := reconciled_keeps_repair present wanted
    unfold ReplicaRepair.reopen at kept
    rw [if_pos] at kept
    · exact kept
    · refine ⟨complete, fun admitted => ?_⟩
      obtain ⟨admission, member, same⟩ := List.mem_map.mp admitted
      exact lost admission member same
  case added =>
    intro repair member
    exact reconciled_repair_origin member
  case accepted => exact valid_copies_accepted few copies
  case settled => exact settled

end ClusterState

namespace RepairSample

def toB : ReplicaCopy := ⟨2048, 2047, "a", "b"⟩
def toA : ReplicaCopy := ⟨2047, 2048, "b", "a"⟩

def admission (epoch : Nat) (copy : ReplicaCopy) (process : String) : ReplicaAdmission :=
  { epoch, startExclusive := copy.startExclusive, endInclusive := copy.endInclusive, ownerNodeId := copy.ownerNodeId
    nodeId := copy.nodeId, processInstanceId := process, verifiedWatermark := 0, streamCursor :=
      0, digest := "d" }

/-- Follower "a" was admitted before it restarted, follower "b" still runs. -/
def stored : ClusterState where
  committed := JoinSample.joined
  processInstances := AList.insert "a" "a-2" (AList.insert "b" "b-1" ∅)
  replicaAdmissions := [admission 2 toB "b-1", admission 2 toA "a-1"]
  replicaRepairs := [{ ReplicaRepair.pendingFor 2 toA with phase := .complete },
    ReplicaRepair.pendingFor 1 ⟨0, 0, "c", "a"⟩]

def restored : ClusterState :=
  { stored with replicaAdmissions := [admission 2 toB "b-1"]
                replicaRepairs := [ReplicaRepair.pendingFor 2 toA, ReplicaRepair.pendingFor 2 toB] }

theorem reconciles : stored.reconcileReplicaRepairs = .ok restored := rfl

end RepairSample

namespace ClusterState

/-- The admission of the earlier process of "a" is dropped and its repair starts over. -/
theorem reconciliation_after_restart :
    RepairSample.stored.reconcileReplicaRepairs = .ok RepairSample.restored ∧
      ∃ ranges, JoinSample.joined.derivedRanges = .ok ranges ∧
        RepairSample.stored.ReplicasRestored RepairSample.restored (desiredCopies ranges) :=
  ⟨RepairSample.reconciles, reconciliation_restores_replicas JoinSample.joined_valid (by decide)
    (by decide) (by decide)
    RepairSample.reconciles⟩

end ClusterState
end Hashring
