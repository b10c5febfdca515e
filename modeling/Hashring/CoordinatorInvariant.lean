import Hashring.FailureRecovery

/-! What every stored coordinator state satisfies beyond the check of the store,
and what one store may do to it. -/
namespace Hashring

namespace TopologySnapshot

variable {hashing : Hashing} {digestOf : TopologySnapshot → String}

theorem derived_ranges_from_ends {topology : TopologySnapshot} (boundaries : List Token)
    {previous : Token} {ranges : List DerivedRange}
    (derived : topology.derivedRangesFrom previous boundaries = .ok ranges) :
    ranges.map (·.endInclusive) = boundaries := by
  induction boundaries generalizing previous ranges with
  | nil =>
      obtain rfl := Except.ok.inj derived
      rfl
  | cons boundary rest ih =>
      unfold derivedRangesFrom at derived
      obtain ⟨replicas, _, derived⟩ := bind_ok_iff.mp derived
      obtain ⟨later, found, derived⟩ := bind_ok_iff.mp derived
      obtain rfl := Except.ok.inj derived
      rw [List.map_cons, ih found]

theorem derived_ranges_ends {topology : TopologySnapshot}
    (valid : topology.validate hashing digestOf = .ok ()) {ranges : List DerivedRange}
    (derived : topology.derivedRanges = .ok ranges) :
    (ranges.map (·.endInclusive)).Nodup := by
  obtain ⟨same, sorted⟩ := boundaries_sorted (validate_sound valid)
  unfold derivedRanges at derived
  simp only [same] at derived
  split at derived
  · exact absurd derived (by simp)
  · rw [derived_ranges_from_ends _ derived]
    exact sorted.imp ne_of_lt

theorem derived_range_placed {topology : TopologySnapshot}
    (valid : topology.validate hashing digestOf = .ok ()) {ranges : List DerivedRange}
    (derived : topology.derivedRanges = .ok ranges) {range : DerivedRange} (member : range ∈ ranges) :
    (range.ownerNodeId :: range.followerNodeIds).Nodup ∧
      ∀ nodeId ∈ range.ownerNodeId :: range.followerNodeIds, nodeId ∈ topology.members.map
        (·.nodeId) := by
  have sound := validate_sound valid
  obtain ⟨_, found, _, same, _, held⟩ := derived_ranges_spec sound
  obtain rfl := Except.ok.inj (derived.symm.trans same)
  exact ⟨replica_node_ids_nodup topology range.endInclusive _ (held range member),
    (sound.replicas_placed (held range member)).1⟩

end TopologySnapshot

theorem mem_copies {range : DerivedRange} {copy : ReplicaCopy} (member : copy ∈ range.copies) :
    copy.startExclusive = range.startExclusive ∧ copy.endInclusive = range.endInclusive ∧
      copy.ownerNodeId = range.ownerNodeId ∧ copy.nodeId ∈ range.followerNodeIds := by
  obtain ⟨nodeId, listed, rfl⟩ := List.mem_map.mp member
  exact ⟨rfl, rfl, rfl, listed⟩

section Copies

variable {hashing : Hashing} {digestOf : TopologySnapshot → String} {topology : TopologySnapshot}
  {ranges : List DerivedRange}

theorem desired_copies_nodup (valid : topology.validate hashing digestOf = .ok ())
    (derived : topology.derivedRanges = .ok ranges) : (desiredCopies ranges).Nodup := by
  refine List.nodup_flatMap.mpr ⟨fun range member => ?_, ?_⟩
  · have distinct := (List.nodup_cons.mp (TopologySnapshot.derived_range_placed valid derived member).1).2
    exact distinct.map fun left right same => congrArg ReplicaCopy.nodeId same
  · have ends := List.pairwise_map.mp (TopologySnapshot.derived_ranges_ends valid derived)
    refine ends.imp fun {left right} different => ?_
    intro copy first second
    exact different ((mem_copies first).2.1.symm.trans (mem_copies second).2.1)

theorem desired_copy_member (valid : topology.validate hashing digestOf = .ok ())
    (derived : topology.derivedRanges = .ok ranges) {copy : ReplicaCopy}
    (desired : copy ∈ desiredCopies ranges) :
    copy.nodeId ∈ topology.members.map (·.nodeId) := by
  obtain ⟨range, member, listed⟩ := List.mem_flatMap.mp desired
  exact (TopologySnapshot.derived_range_placed valid derived member).2 _
    (List.mem_cons_of_mem _ (mem_copies listed).2.2.2)

end Copies

theorem member_named {hashing : Hashing} {digestOf : TopologySnapshot → String}
    {topology : TopologySnapshot} (valid : topology.validate hashing digestOf = .ok ())
    {member : Member} (listed : member ∈ topology.members) :
    member.nodeId.isEmpty = false := by
  unfold TopologySnapshot.validate at valid
  obtain ⟨_, members, _⟩ := bind_ok_iff.mp valid
  obtain ⟨_, _, _, _, _, each⟩ := (TopologySnapshot.validate_members_iff _ _).mp members
  have fits := ((TopologySnapshot.validate_each_member_iff [] [] topology.members).mp each).1 member
      listed
  simpa using fits.1.1

theorem mapped_ok {ε δ α : Type} {result : Except ε α} {convert : ε → δ} {value : α}
    (accepted : result.mapError convert = .ok value) : result = .ok value := by
  cases result with
  | error error => exact absurd accepted (by simp [Except.mapError])
  | ok found => exact congrArg Except.ok (Except.ok.inj accepted)

theorem valid_hash_configuration {hashing : Hashing} {digestOf : TopologySnapshot → String}
    {topology : TopologySnapshot} (valid : topology.validate hashing digestOf = .ok ()) :
    topology.hashAlgorithm = hashAlgorithm ∧ topology.encodingVersion = encodingVersion := by
  unfold TopologySnapshot.validate at valid
  obtain ⟨_, -, valid⟩ := bind_ok_iff.mp valid
  obtain ⟨_, -, valid⟩ := bind_ok_iff.mp valid
  simp only [unless_thrown_ok, not_or, not_not] at valid
  exact valid.1

namespace ClusterState

variable (settings : CoordinatorSettings)

/-- What an active change keeps from its plan. -/
structure ChangeSound (state : ClusterState) (change : TopologyChange) : Prop where
  sameRing : TopologySnapshot.SameRing change.targetTopology state.committed
  epoch : change.targetTopology.epoch = change.baseEpoch + 1
  named : ∀ range ∈ change.ranges, range.sourceNodeId.isEmpty = false
  failed : ∀ nodeId, change.failedNodeId = some nodeId → nodeId ∉ change.targetTopology.members.map
    (·.nodeId)

structure Sound (state : ClusterState) : Prop where
  epoch : state.committed.epoch < 2 ^ 64
  valid : state.Valid settings.hashing settings.digestOf
  settled : state.Settled
  change : ∀ change, state.activeChange = some change → state.ChangeSound change

variable {settings}

theorem ValidChange.transfer {hashing : Hashing} {digestOf : TopologySnapshot → String}
    {state other : ClusterState} {change : TopologyChange}
    (valid : state.ValidChange hashing digestOf change)
    (committed : other.committed = state.committed)
    (superseded : other.supersededChange = state.supersededChange) :
    other.ValidChange hashing digestOf change := by
  obtain ⟨supersedes, ranges, obligations, target, epochs, seed, algorithm, encoding, vnodes,
    base⟩ := valid
  unfold supersedesPublished at supersedes
  unfold epochRelationIsValid at epochs
  refine ⟨?_, ranges, obligations, target, ?_, ?_, ?_, ?_, ?_, ?_⟩
  · unfold supersedesPublished
    rw [superseded]
    exact supersedes
  · unfold epochRelationIsValid
    rw [committed]
    exact epochs
  · rw [committed]
    exact seed
  · rw [committed]
    exact algorithm
  · rw [committed]
    exact encoding
  · rw [committed]
    exact vnodes
  · rw [committed]
    exact base

theorem Settled.transfer {state other : ClusterState} (settled : state.Settled)
    (committed : other.committed = state.committed)
    (admissions : other.replicaAdmissions = state.replicaAdmissions)
    (repairs : other.replicaRepairs = state.replicaRepairs)
    (instances : ∀ admission ∈ state.replicaAdmissions,
      state.processInstances.lookup admission.nodeId = some admission.processInstanceId →
        other.processInstances.lookup admission.nodeId = some admission.processInstanceId) :
        other.Settled := by
  obtain ⟨ranges, derived, few, copies⟩ := (settled_iff state).mp settled
  refine (settled_iff other).mpr ⟨ranges, committed ▸ derived, few, ?_, ?_, ?_, ?_⟩
  · rw [admissions]
    intro admission member
    have kept := copies.admissions admission member
    simp only [admissionKept, decide_eq_true_eq] at kept ⊢
    rw [committed]
    exact ⟨kept.1, instances admission member kept.2.1, kept.2.2⟩
  · rw [repairs]
    intro repair member
    have kept := copies.repairs repair member
    simp only [repairKept] at kept ⊢
    rw [committed]
    exact kept
  · rw [repairs, admissions]
    exact copies.complete
  · rw [repairs]
    exact copies.covered

theorem ChangeSound.transfer {state other : ClusterState} {change : TopologyChange}
    (sound : state.ChangeSound change)
    (committed : other.committed = state.committed) : other.ChangeSound change :=
  ⟨committed ▸ sound.sameRing, sound.epoch, sound.named, sound.failed⟩

/-- The registered process of a member stays while the topology does. -/
def KeepsProcesses (before after : ClusterState) : Prop :=
  after.committed = before.committed → ∀ nodeId ∈ before.committed.members.map (·.nodeId),
    ∀ processInstanceId,
    before.processInstances.lookup nodeId = some processInstanceId →
      after.processInstances.lookup nodeId = some processInstanceId

theorem KeepsProcesses.same {before after : ClusterState}
    (same : after.processInstances = before.processInstances) :
    KeepsProcesses before after := by
  intro _ nodeId _ processInstanceId registered
  rw [same]
  exact registered

theorem KeepsProcesses.of_growth {before after : ClusterState}
    (grown : after.committed.epoch = before.committed.epoch + 1) :
    KeepsProcesses before after := by
  intro same
  rw [same] at grown
  omega

/-- A store that leaves the topology, the admissions and the repairs alone. -/
structure Frame (state next : ClusterState) : Prop where
  committed : next.committed = state.committed
  superseded : next.supersededChange = state.supersededChange
  admissions : next.replicaAdmissions = state.replicaAdmissions
  repairs : next.replicaRepairs = state.replicaRepairs
  processes : KeepsProcesses state next

theorem Frame.sound {state next : ClusterState} (frame : Frame state next) (sound : Sound settings state)
    (change : ∀ change, next.activeChange = some change →
      state.ValidChange settings.hashing settings.digestOf change ∧ state.ChangeSound change)
    (instances : ∀ entry ∈ next.processInstances.entries, entry.1.isEmpty = false ∧
      entry.2.isEmpty = false)
    (fenced : ∀ node ∈ next.fencedNodes.elements, node.isEmpty = false)
    (stops : ∀ entry ∈ next.stopConfirmations.entries, entry.1.isEmpty = false ∧
      entry.2.elements.isEmpty = false ∧
      ∀ instance_ ∈ entry.2.elements, instance_.isEmpty = false) : Sound settings next := by
  obtain ⟨committed, superseded, admissions, repairs, processes⟩ := frame
  have kept : ∀ admission ∈ state.replicaAdmissions,
      state.processInstances.lookup admission.nodeId = some admission.processInstanceId →
        next.processInstances.lookup admission.nodeId = some admission.processInstanceId := by
    intro admission member registered
    obtain ⟨ranges, derived, copies⟩ := sound.valid.copies
    have placed := desired_copy_member sound.valid.committed derived
        (copies.admitted admission member).2.2.2
    exact processes committed _ placed _ registered
  refine ⟨committed ▸ sound.epoch,
    ⟨committed ▸ sound.valid.committed, admissions ▸ sound.valid.admissionCount,
    repairs ▸ sound.valid.repairCount, fun other active =>
      (change other active).1.transfer committed superseded, instances,
    fenced, stops, ?_⟩, sound.settled.transfer committed admissions repairs kept,
    fun other active => (change other active).2.transfer committed⟩
  obtain ⟨derived, found, copies⟩ := sound.valid.copies
  refine ⟨derived, committed ▸ found, ?_⟩
  rw [committed, admissions, repairs]
  exact copies

/-- What no task but the holder of the execution lock changes: the committed
topology, and an active change that is not over, but for its ranges' progress. -/
def Shared (before after : ClusterState) : Prop :=
  after.committed = before.committed ∧ ∀ change, before.activeChange = some change →
    change.phase.isTerminal = false →
    ∃ ranges, after.activeChange = some { change with ranges }

theorem Shared.refl (state : ClusterState) : Shared state state :=
  ⟨rfl, fun change active _ => ⟨change.ranges, active⟩⟩

theorem Shared.trans {first second third : ClusterState} (early : Shared first second)
    (late : Shared second third) :
    Shared first third := by
  refine ⟨late.1.trans early.1, fun change active running => ?_⟩
  obtain ⟨ranges, next⟩ := early.2 change active running
  obtain ⟨later, last⟩ := late.2 _ next running
  exact ⟨later, last⟩

/-- How far a change that was published has come. -/
def publishedRank : MigrationPhase → Nat
  | .published => 1
  | .cleaningUp => 2
  | .complete => 3
  | _ => 0

structure Advance (before after : ClusterState) : Prop where
  committed : after.committed = before.committed ∨
    after.committed.epoch = before.committed.epoch + 1 ∧
      TopologySnapshot.SameRing after.committed before.committed ∧
      ∃ change, after.activeChange = some change ∧ change.phase = .published ∧
        change.targetTopology = after.committed
  published : ∀ change, before.activeChange = some change → change.phase.beforePublication = false →
    ∃ next, after.activeChange = some next ∧
      (changeIdentity next = changeIdentity change ∧ publishedRank change.phase ≤
        publishedRank next.phase ∨
        change.phase = .complete ∧ next.phase = .planned ∧ next.baseEpoch = change.targetTopology.epoch ∨
        next.supersedesChangeId = some change.changeId ∧ next.phase = .published ∧
          next.baseEpoch = change.targetTopology.epoch)
  processes : KeepsProcesses before after

/-- An edit of the active change that leaves what its plan decided. -/
structure Edits (change edited : TopologyChange) : Prop where
  changeId : edited.changeId = change.changeId
  baseEpoch : edited.baseEpoch = change.baseEpoch
  baseTopology : edited.baseTopology = change.baseTopology
  supersedes : edited.supersedesChangeId = change.supersedesChangeId
  target : edited.targetTopology = change.targetTopology
  obligations : edited.replicaObligations = change.replicaObligations
  ranges : edited.ranges.length ≤ change.ranges.length
  named : (∀ range ∈ change.ranges, range.sourceNodeId.isEmpty = false) →
    ∀ range ∈ edited.ranges, range.sourceNodeId.isEmpty = false
  side : edited.phase.beforePublication = change.phase.beforePublication
  forward : publishedRank change.phase ≤ publishedRank edited.phase
  failed : ∀ nodeId, edited.failedNodeId = some nodeId → change.failedNodeId = some nodeId ∨
    nodeId ∉ change.targetTopology.members.map (·.nodeId)

theorem Edits.same_ranges {change edited : TopologyChange} (same : edited.ranges = change.ranges)
    (changeId : edited.changeId = change.changeId) (baseEpoch : edited.baseEpoch = change.baseEpoch)
    (baseTopology : edited.baseTopology = change.baseTopology)
    (supersedes : edited.supersedesChangeId = change.supersedesChangeId)
    (target : edited.targetTopology = change.targetTopology)
    (obligations : edited.replicaObligations = change.replicaObligations)
    (side : edited.phase.beforePublication = change.phase.beforePublication)
    (forward : publishedRank change.phase ≤ publishedRank edited.phase)
    (failed : ∀ nodeId, edited.failedNodeId = some nodeId → change.failedNodeId = some nodeId ∨
      nodeId ∉ change.targetTopology.members.map (·.nodeId)) : Edits change edited :=
  ⟨changeId, baseEpoch, baseTopology, supersedes, target, obligations, (congrArg List.length same).le,
    fun named => same ▸ named, side, forward, failed⟩

theorem Edits.valid {state : ClusterState} {change edited : TopologyChange} (edits : Edits change edited)
    (valid : state.ValidChange settings.hashing settings.digestOf change) :
    state.ValidChange settings.hashing settings.digestOf edited := by
  obtain ⟨supersedes, ranges, obligations, target, epochs, seed, algorithm, encoding, vnodes,
    base⟩ := valid
  refine ⟨?_, edits.ranges.trans ranges, edits.obligations ▸ obligations, edits.target ▸ target, ?_,
    edits.target ▸ seed,
    edits.target ▸ algorithm, edits.target ▸ encoding, edits.target ▸ vnodes, ?_⟩
  · unfold supersedesPublished at supersedes ⊢
    rw [edits.supersedes, edits.baseEpoch]
    exact supersedes
  · unfold epochRelationIsValid at epochs ⊢
    rw [edits.side, edits.baseEpoch, edits.target]
    exact epochs
  · rw [edits.baseTopology, edits.baseEpoch, edits.side]
    exact base

theorem Edits.sound {state : ClusterState} {change edited : TopologyChange} (edits : Edits change edited)
    (sound : state.ChangeSound change) : state.ChangeSound edited := by
  refine ⟨edits.target ▸ sound.sameRing, ?_, edits.named sound.named, fun nodeId same => ?_⟩
  · rw [edits.target, edits.baseEpoch]
    exact sound.epoch
  · rw [edits.target]
    rcases edits.failed nodeId same with old | gone
    · exact sound.failed nodeId old
    · exact gone

theorem edit_sound {state next : ClusterState} {change edited : TopologyChange}
    (sound : Sound settings state)
    (active : state.activeChange = some change) (edits : Edits change edited) (frame : Frame state next)
    (result : next.activeChange = some edited) (fenced : next.fencedNodes = state.fencedNodes)
    (instances : ∀ entry ∈ next.processInstances.entries, entry.1.isEmpty = false ∧
      entry.2.isEmpty = false)
    (stops : ∀ entry ∈ next.stopConfirmations.entries, entry.1.isEmpty = false ∧
      entry.2.elements.isEmpty = false ∧
      ∀ instance_ ∈ entry.2.elements, instance_.isEmpty = false) : Sound settings next := by
  refine frame.sound sound (fun other same => ?_) instances (fenced ▸ sound.valid.fenced) stops
  obtain rfl := Option.some.inj (result.symm.trans same)
  exact ⟨edits.valid (sound.valid.change change active), edits.sound (sound.change change active)⟩

theorem edit_advance {state next : ClusterState} {change edited : TopologyChange}
    (active : state.activeChange = some change) (edits : Edits change edited)
    (result : next.activeChange = some edited) (committed : next.committed = state.committed)
    (processes : KeepsProcesses state next) : Advance state next := by
  refine ⟨.inl committed, fun other same _ => ?_, processes⟩
  obtain rfl := Option.some.inj (active.symm.trans same)
  refine ⟨edited, result, .inl ⟨?_, edits.forward⟩⟩
  simp only [changeIdentity, edits.changeId, edits.baseEpoch, edits.target]

structure OnlyChange (state next : ClusterState) (change edited : TopologyChange) : Prop where
  active : state.activeChange = some change
  edits : Edits change edited
  next : ∃ reason, next = { state with activeChange := some edited, recoveryBlockReason := reason }

theorem OnlyChange.sound {state next : ClusterState} {change edited : TopologyChange}
    (only : OnlyChange state next change edited) (sound : Sound settings state) :
    Sound settings next := by
  obtain ⟨active, edits, reason, rfl⟩ := only
  exact edit_sound sound active edits ⟨rfl, rfl, rfl, rfl, .same rfl⟩ rfl rfl sound.valid.instances
    sound.valid.stops

theorem OnlyChange.advance {state next : ClusterState} {change edited : TopologyChange}
    (only : OnlyChange state next change edited) : Advance state next := by
  obtain ⟨active, edits, reason, rfl⟩ := only
  exact edit_advance active edits rfl rfl (.same rfl)

theorem set_phase_only {state next : ClusterState} {phase : MigrationPhase} {change : TopologyChange}
    (stored : state.setPhase phase = .ok (some next, ())) (active : state.activeChange = some change)
    (side : phase.beforePublication = change.phase.beforePublication)
    (forward : publishedRank change.phase ≤ publishedRank phase) :
    OnlyChange state next change { change with phase } := by
  unfold setPhase at stored
  rw [active] at stored
  have same := (Prod.mk.inj (Except.ok.inj stored)).1
  exact ⟨active, Edits.same_ranges rfl rfl rfl rfl rfl rfl rfl side forward fun _ => .inl, _,
    (Option.some.inj same).symm⟩

theorem store_timings_only {state next : ClusterState} {change : TopologyChange}
    (stored : state.alterChange id = .ok (some next, ())) (active : state.activeChange = some change) :
    OnlyChange state next change change := by
  unfold alterChange at stored
  rw [active] at stored
  have same := (Prod.mk.inj (Except.ok.inj stored)).1
  exact ⟨active, Edits.same_ranges rfl rfl rfl rfl rfl rfl rfl rfl le_rfl fun _ => .inl,
    state.recoveryBlockReason,
    (Option.some.inj same).symm⟩

/-- One entry changes, in its place. -/
theorem replace_first_split {α : Type} {pick : α → Bool} {change : α → α} {entries replaced : List α}
    (found : replaceFirst pick change entries = some replaced) :
    ∃ before old after, pick old = true ∧ entries = before ++ old :: after ∧
      replaced = before ++ change old :: after := by
  induction entries generalizing replaced with
  | nil => exact absurd found (by simp [replaceFirst])
  | cons head rest ih =>
      unfold replaceFirst at found
      split at found
      · rename_i picked
        exact ⟨[], head, rest, picked, rfl, (Option.some.inj found).symm⟩
      · obtain ⟨later, inner, rfl⟩ := Option.map_eq_some_iff.mp found
        obtain ⟨before, old, after, picked, rfl, rfl⟩ := ih inner
        exact ⟨head :: before, old, after, picked, rfl, rfl⟩

theorem replace_first_length {α : Type} {pick : α → Bool} {change : α → α} {entries replaced : List α}
    (found : replaceFirst pick change entries = some replaced) : replaced.length = entries.length := by
  obtain ⟨before, old, after, -, rfl, rfl⟩ := replace_first_split found
  simp

theorem mem_replace_first {α : Type} {pick : α → Bool} {change : α → α} {entries replaced : List α}
    (found : replaceFirst pick change entries = some replaced) {entry : α} (member : entry ∈ replaced) :
    entry ∈ entries ∨ ∃ old ∈ entries, pick old = true ∧ entry = change old := by
  obtain ⟨before, old, after, picked, rfl, rfl⟩ := replace_first_split found
  rcases List.mem_append.mp member with early | member
  · exact .inl (List.mem_append_left _ early)
  · rcases List.mem_cons.mp member with rfl | late
    · exact .inr ⟨old, by simp, picked, rfl⟩
    · exact .inl (List.mem_append_right _ (List.mem_cons_of_mem _ late))

theorem store_range_progress_only {state next : ClusterState} {progress : RangeMigration}
    (stored : state.storeRangeProgress progress = .ok (some next, ()))
    (named : progress.sourceNodeId.isEmpty = false) :
    ∃ change ranges, OnlyChange state next change { change with ranges } := by
  unfold storeRangeProgress at stored
  split at stored
  · exact absurd stored (by simp)
  · rename_i change active
    split at stored
    · exact absurd stored (by simp)
    · rename_i ranges found
      have same := Option.some.inj (Prod.mk.inj (Except.ok.inj stored)).1
      refine ⟨change, ranges, active,
        ⟨rfl, rfl, rfl, rfl, rfl, rfl, (replace_first_length found).le, ?_, rfl, le_rfl,
        fun _ => .inl⟩,
        state.recoveryBlockReason, same.symm⟩
      intro all range member
      rcases mem_replace_first found member with old | ⟨old, _, _, rfl⟩
      · exact all range old
      · exact named

theorem set_activation_ready_only {state next : ClusterState}
    (stored : state.setActivationReady = .ok (some next, ())) :
    ∃ change, change.phase = .published ∧
      OnlyChange state next change { change with activationReady := true } := by
  unfold setActivationReady at stored
  split at stored
  · exact absurd stored (by simp)
  · rename_i change active
    split at stored
    · exact absurd stored (by simp)
    · rename_i waiting
      have same := Option.some.inj (Prod.mk.inj (Except.ok.inj stored)).1
      exact ⟨change, not_not.mp waiting, active, Edits.same_ranges rfl rfl rfl rfl rfl rfl rfl rfl
        le_rfl fun _ => .inl, "", same.symm⟩

theorem reset_attempt_only {state next : ClusterState} {change reset : TopologyChange}
    (stored : state.resetAttempt = .ok (some next, reset)) (active : state.activeChange = some change)
    (before : change.phase.beforePublication = true) : OnlyChange state next change reset ∧
      reset = { change with ranges := change.ranges.map RangeMigration.cleared, phase := .copyingSnapshot } := by
  unfold resetAttempt at stored
  rw [active] at stored
  obtain ⟨same, rfl⟩ := Prod.mk.inj (Except.ok.inj stored)
  refine ⟨⟨active, ⟨rfl, rfl, rfl, rfl, rfl, rfl, (List.length_map _).le, ?_, before.symm, ?_,
    fun _ => .inl⟩, state.recoveryBlockReason,
    (Option.some.inj same).symm⟩, rfl⟩
  · intro named range member
    obtain ⟨old, present, rfl⟩ := List.mem_map.mp member
    exact named old present
  · cases phase : change.phase <;> simp [phase, MigrationPhase.beforePublication, publishedRank]
      at before ⊢

structure SamePhase (state next : ClusterState) : Prop where
  committed : next.committed = state.committed
  change : ∃ change edited, state.activeChange = some change ∧ next.activeChange = some edited ∧
    Edits change edited ∧
    edited.phase = change.phase
  processes : KeepsProcesses state next

theorem SamePhase.advance {state next : ClusterState} (same : SamePhase state next) :
    Advance state next := by
  obtain ⟨committed, ⟨change, edited, active, result, edits, _⟩, processes⟩ := same
  exact edit_advance active edits result committed processes

theorem store_stopping_same {state next : ClusterState} {nodeId : String} (sound : Sound settings state)
    (stored : state.storeStoppingNode nodeId = .ok (some next, ())) :
    Sound settings next ∧ SamePhase state next := by
  unfold storeStoppingNode at stored
  split at stored
  · exact absurd stored (by simp)
  · rename_i change active
    split at stored
    · exact absurd stored (by simp)
    · have same := Option.some.inj (Prod.mk.inj (Except.ok.inj stored)).1
      have edits : Edits change
          { change with stoppingNodeIds := insertSorted nodeId change.stoppingNodeIds } :=
        Edits.same_ranges rfl rfl rfl rfl rfl rfl rfl rfl le_rfl fun _ => .inl
      have only : OnlyChange state next change _ := ⟨active, edits, state.recoveryBlockReason, same.symm⟩
      exact ⟨only.sound sound, same ▸ rfl, ⟨change, _, active, same ▸ rfl, edits, rfl⟩,
        .same (same ▸ rfl)⟩

/-- A process may be forgotten once its node is no committed member: no admission
names it. -/
theorem store_stopped_same {state next : ClusterState} {nodeId : String} (sound : Sound settings state)
    (stored : state.storeStoppedNode nodeId = .ok (some next, ()))
    (gone : nodeId ∉ state.committed.members.map (·.nodeId)) :
    Sound settings next ∧ SamePhase state next := by
  unfold storeStoppedNode at stored
  split at stored
  · exact absurd stored (by simp)
  · rename_i change active
    obtain rfl := Option.some.inj (Prod.mk.inj (Except.ok.inj stored)).1
    have edits : Edits change { change with
        stoppingNodeIds := change.stoppingNodeIds.filter (· ≠ nodeId)
        stopPreparedNodeIds := change.stopPreparedNodeIds.filter (· ≠ nodeId)
        stoppedNodeIds := insertSorted nodeId change.stoppedNodeIds } :=
      Edits.same_ranges rfl rfl rfl rfl rfl rfl rfl rfl le_rfl fun _ => .inl
    have processes : KeepsProcesses state { state with
        activeChange := some { change with
          stoppingNodeIds := change.stoppingNodeIds.filter (· ≠ nodeId)
          stopPreparedNodeIds := change.stopPreparedNodeIds.filter (· ≠ nodeId)
          stoppedNodeIds := insertSorted nodeId change.stoppedNodeIds }
        processInstances := state.processInstances.erase nodeId } := by
      intro _ other member processInstanceId registered
      have different : other ≠ nodeId := by
        rintro rfl
        exact gone member
      rw [FiniteMap.lookup_erase_if, if_neg different]
      exact registered
    exact ⟨edit_sound sound active edits ⟨rfl, rfl, rfl, rfl, processes⟩ rfl rfl
      (fun entry member => sound.valid.instances entry (FiniteMap.mem_entries_erase member))
        sound.valid.stops, rfl,
      ⟨change, _, active, rfl, edits, rfl⟩, processes⟩

theorem store_stop_prepared_same {state next : ClusterState} {nodeId processInstanceId : String}
    (sound : Sound settings state)
    (stored : state.storeStopPreparedNode nodeId processInstanceId = .ok (some next, ()))
    (named : nodeId.isEmpty = false) (instanceNamed : processInstanceId.isEmpty = false) :
    Sound settings next ∧ SamePhase state next := by
  unfold storeStopPreparedNode at stored
  split at stored
  · exact absurd stored (by simp)
  · rename_i change active
    obtain rfl := Option.some.inj (Prod.mk.inj (Except.ok.inj stored)).1
    have edits : Edits change { change with
        stoppingNodeIds := change.stoppingNodeIds.filter (· ≠ nodeId)
        stopPreparedNodeIds := insertSorted nodeId change.stopPreparedNodeIds } :=
      Edits.same_ranges rfl rfl rfl rfl rfl rfl rfl rfl le_rfl fun _ => .inl
    refine ⟨edit_sound sound active edits ⟨rfl, rfl, rfl, rfl, .same rfl⟩ rfl rfl
      sound.valid.instances ?_, rfl,
      ⟨change, _, active, rfl, edits, rfl⟩, .same rfl⟩
    intro entry member
    rcases FiniteMap.mem_entries_insert member with rfl | old
    · refine ⟨named, ?_, fun instance_ listed => ?_⟩
      · have present := (OrderedSet.mem_insert
          ((state.stopConfirmations.lookup nodeId).getD OrderedSet.empty)
          processInstanceId processInstanceId).mpr (.inl rfl)
        exact List.isEmpty_eq_false_iff.mpr (List.ne_nil_of_mem present)
      · rcases (OrderedSet.mem_insert _ _ _).mp listed with rfl | old
        · exact instanceNamed
        · cases held : state.stopConfirmations.lookup nodeId with
          | none =>
              rw [held] at old
              exact absurd old (OrderedSet.mem_empty _)
          | some instances =>
              rw [held] at old
              exact (sound.valid.stops _ ((FiniteMap.lookup_some_iff _ _ _).mp held)).2.2 instance_ old
    · exact sound.valid.stops entry old

theorem recovery_block_reason_sound {state next : ClusterState} {reason : String}
    (sound : Sound settings state)
    (stored : state.setRecoveryBlockReason reason = .ok (some next, ())) :
    Sound settings next ∧ ∃ reason, next = { state with recoveryBlockReason := reason } := by
  unfold setRecoveryBlockReason at stored
  split at stored
  · exact absurd stored (by simp)
  · obtain rfl := Option.some.inj (Prod.mk.inj (Except.ok.inj stored)).1
    have frame : Frame state { state with recoveryBlockReason := reason } :=
      ⟨rfl, rfl, rfl, rfl, .same rfl⟩
    exact ⟨frame.sound sound
      (fun change active => ⟨sound.valid.change change active, sound.change change active⟩)
      sound.valid.instances sound.valid.fenced sound.valid.stops, reason, rfl⟩

theorem saturating_succ_lt {epoch : Nat} (bounded : epoch < 2 ^ 64) (room : epoch ≠ 2 ^ 64 - 1) :
    saturatingSucc epoch = epoch + 1 := by
  unfold saturatingSucc
  omega

theorem plan_sound {state : ClusterState} {changeId : String} {members : List Member}
    {config : TopologyConfig} {change : TopologyChange} (sound : Sound settings state)
    (planned : TopologyChange.planWithConfig settings.hashing settings.digestOf changeId
      state.committed members config =
      .ok change) :
    state.ValidChange settings.hashing settings.digestOf change ∧ state.ChangeSound change ∧
      change.phase = .planned ∧
      change.baseEpoch = state.committed.epoch ∧ change.supersedesChangeId = none := by
  obtain ⟨room, target, ranges, obligations, built, delta, rfl⟩ :=
    TopologyChange.plan_with_config_inv planned
  obtain ⟨epoch, seed, vnodes, timings, _, _⟩ :=
    TopologySnapshot.new_with_timings_spec settings.hashing built
  have valid := TopologySnapshot.new_with_timings_valid built
  obtain ⟨fewRanges, fewObligations⟩ := delta_limits delta
  obtain ⟨algorithm, encoding⟩ := valid_hash_configuration valid
  obtain ⟨oldAlgorithm, oldEncoding⟩ := valid_hash_configuration sound.valid.committed
  refine ⟨⟨rfl, fewRanges, fewObligations, valid, ?_, seed, algorithm.trans oldAlgorithm.symm,
    encoding.trans oldEncoding.symm,
    vnodes, ?_⟩, ⟨⟨seed, vnodes, timings⟩, epoch, ?_, fun _ same => absurd same (by simp)⟩, rfl, rfl, rfl⟩
  · simp only [epochRelationIsValid, MigrationPhase.beforePublication, if_true, decide_eq_true_eq, epoch,
      saturating_succ_lt sound.epoch room, and_self]
  · intro base same
    obtain rfl := Option.some.inj same
    exact ⟨sound.valid.committed, rfl, fun _ => rfl⟩
  · intro range member
    obtain ⟨owner, listed, named⟩ :=
      TopologySnapshot.owner_id_member settings.hashing
        (TopologySnapshot.validate_canonical settings.hashing sound.valid.committed)
        (delta_sources delta member)
    exact named ▸ member_named sound.valid.committed listed

/-! The stores that do not need the execution lock: they leave a change in
progress alone. -/

variable (settings) in
structure Quiet (state next : ClusterState) : Prop where
  sound : Sound settings next
  shared : Shared state next
  advance : Advance state next

theorem terminal_of_inactive {state : ClusterState} {change : TopologyChange}
    (ended : state.transitionActive = false)
    (active : state.activeChange = some change) : change.phase.isTerminal = true := by
  unfold transitionActive at ended
  rw [active] at ended
  simpa using ended

theorem Shared.same_change {state next : ClusterState} (committed : next.committed = state.committed)
    (change : next.activeChange = state.activeChange) : Shared state next :=
  ⟨committed, fun running active _ => ⟨running.ranges, change.trans active⟩⟩

theorem Advance.same_change {state next : ClusterState} (committed : next.committed = state.committed)
    (change : next.activeChange = state.activeChange) (processes : KeepsProcesses state next) :
    Advance state next :=
  ⟨.inl committed, fun running active _ => ⟨running, change.trans active, .inl ⟨rfl, le_rfl⟩⟩, processes⟩

theorem published_target {state : ClusterState} {change : TopologyChange} (sound : Sound settings state)
    (active : state.activeChange = some change) (published : change.phase.beforePublication = false) :
    change.targetTopology = state.committed := by
  have epochs := (sound.valid.change change active).epochs
  simp only [epochRelationIsValid, published, Bool.false_eq_true, if_false, decide_eq_true_eq] at epochs
  exact epochs.1

/-- A new plan takes the place of a change that is over. -/
theorem planned_quiet {state next : ClusterState} {change : TopologyChange} (sound : Sound settings state)
    (ended : state.transitionActive = false) (nextSound : Sound settings next)
    (committed : next.committed = state.committed) (active : next.activeChange = some change)
    (planned : change.phase = .planned) (base : change.baseEpoch = state.committed.epoch)
    (processes : KeepsProcesses state next) : Quiet settings state next := by
  refine ⟨nextSound, ⟨committed, fun running found going => ?_⟩, .inl committed,
    fun running found published => ?_, processes⟩
  · exact absurd (terminal_of_inactive ended found) (by simp [going])
  · have target := published_target sound found published
    refine ⟨change, active, .inr (.inl ⟨?_, planned, by rw [base, target]⟩)⟩
    have terminal := terminal_of_inactive ended found
    cases phase : running.phase <;> simp [phase, MigrationPhase.isTerminal,
      MigrationPhase.beforePublication] at terminal published ⊢

/-- A state whose active change was just planned, with nothing else touched that
the topology is tied to. -/
theorem adopt_plan {state next : ClusterState} {changeId : String} {members : List Member}
    {config : TopologyConfig} {planned change : TopologyChange} (sound : Sound settings state)
    (ended : state.transitionActive = false)
    (accepted : TopologyChange.planWithConfig settings.hashing settings.digestOf changeId
      state.committed members config =
      .ok planned)
    (edits : Edits planned change) (phase : change.phase = .planned) (frame : Frame state next)
    (active : next.activeChange = some change)
    (instances : next.processInstances = state.processInstances)
    (fenced : ∀ node ∈ next.fencedNodes.elements, node.isEmpty = false)
    (stops : next.stopConfirmations = state.stopConfirmations) : Quiet settings state next := by
  obtain ⟨valid, changed, _, base, _⟩ := plan_sound sound accepted
  refine planned_quiet sound ended ?_ frame.committed active phase (edits.baseEpoch.trans base)
    frame.processes
  refine frame.sound sound (fun other same => ?_) (instances ▸ sound.valid.instances) fenced
    (stops ▸ sound.valid.stops)
  obtain rfl := Option.some.inj (active.symm.trans same)
  exact ⟨edits.valid valid, edits.sound changed⟩

theorem begin_quiet {state next : ClusterState} {changeId : String} {request : BeginTopologyChangeRequest}
    {change : TopologyChange} (sound : Sound settings state)
    (begun : state.beginTopologyChange settings changeId request = .ok (some next, change)) :
    Quiet settings state next := by
  unfold beginTopologyChange at begun
  obtain ⟨policy, _, begun⟩ := bind_ok_iff.mp begun
  simp only [unless_thrown_ok, Bool.not_eq_true] at begun
  obtain ⟨ended, _, begun⟩ := begun
  obtain ⟨planned, accepted, begun⟩ := bind_ok_iff.mp begun
  simp only [unless_thrown_ok] at begun
  obtain ⟨_, begun⟩ := begun
  obtain ⟨ranges, _, begun⟩ := bind_ok_iff.mp begun
  simp only [unless_thrown_ok] at begun
  obtain ⟨_, begun⟩ := begun
  obtain ⟨same, rfl⟩ := Prod.mk.inj (Except.ok.inj begun)
  obtain rfl := Option.some.inj same
  have accepted := mapped_ok accepted
  have phase := (plan_sound sound accepted).2.2.1
  refine adopt_plan sound ended accepted ?_ ?_ ⟨rfl, rfl, rfl, rfl, .same rfl⟩ rfl rfl
    sound.valid.fenced rfl
  · split
    · exact ⟨rfl, rfl, rfl, rfl, rfl, rfl, Nat.zero_le _, fun _ range member =>
        absurd member List.not_mem_nil, rfl, le_rfl,
        fun _ => .inl⟩
    · exact Edits.same_ranges rfl rfl rfl rfl rfl rfl rfl rfl le_rfl fun _ => .inl
  · split
    · exact phase
    · exact phase

theorem fence_quiet {state snapshot next : ClusterState} {changeId : String} {members : List Member}
    {planned : TopologyChange}
    {failedNodeId : String} (sound : Sound settings state)
    (accepted : TopologyChange.plan settings.hashing settings.digestOf changeId snapshot.committed
      members = .ok planned)
    (named : failedNodeId.isEmpty = false)
    (others : ∀ member ∈ members, member.nodeId ≠ failedNodeId) {answer : Bool}
    (fenced : state.fenceFailed snapshot { planned with failedNodeId := some failedNodeId } failedNodeId =
      .ok (some next, answer)) :
    Quiet settings state next := by
  unfold fenceFailed at fenced
  split at fenced
  · exact absurd fenced (by simp)
  · rename_i free
    obtain ⟨committed, ended⟩ := not_or.mp free
    obtain ⟨same, _⟩ := Prod.mk.inj (Except.ok.inj fenced)
    obtain rfl := Option.some.inj same
    rw [← not_not.mp committed] at accepted
    have phase := (plan_sound sound accepted).2.2.1
    have gone : failedNodeId ∉ planned.targetTopology.members.map (·.nodeId) := by
      rw [(TopologyChange.plan_with_config_planned accepted).members]
      intro listed
      obtain ⟨member, inside, same⟩ := List.mem_map.mp listed
      exact others member ((List.mergeSort_perm _ _).mem_iff.mp inside) same
    have edits : Edits planned { planned with failedNodeId := some failedNodeId } :=
      Edits.same_ranges rfl rfl rfl rfl rfl rfl rfl rfl le_rfl fun _ same =>
        .inr (Option.some.inj same ▸ gone)
    refine adopt_plan sound (Bool.not_eq_true _ ▸ ended) accepted edits phase
      ⟨rfl, rfl, rfl, rfl, .same rfl⟩ rfl
      rfl ?_ rfl
    intro node member
    rcases (OrderedSet.mem_insert _ _ _).mp member with rfl | old
    · exact named
    · exact sound.valid.fenced node old

theorem recovery_block_reason_quiet {state next : ClusterState} {reason : String}
    (sound : Sound settings state)
    (stored : state.setRecoveryBlockReason reason = .ok (some next, ())) : Quiet settings state next := by
  obtain ⟨nextSound, reason, rfl⟩ := recovery_block_reason_sound sound stored
  exact ⟨nextSound, .same_change rfl rfl, .same_change rfl rfl (.same rfl)⟩

theorem register_quiet {state next : ClusterState} {nodeId processInstanceId : String}
    (sound : Sound settings state)
    (registered : state.registerNode nodeId processInstanceId = .ok (some next, ())) :
    Quiet settings state next := by
  unfold registerNode at registered
  simp only [unless_thrown_ok] at registered
  obtain ⟨named, _, _, registered⟩ := registered
  -- No admission names the process that is replaced: the node had none, or is no
  -- committed member.
  have free : next = { state with
        fencedNodes := if isMember state.committed nodeId then state.fencedNodes
          else state.fencedNodes.erase nodeId
        processInstances := state.processInstances.insert nodeId processInstanceId } ∧
      (state.processInstances.lookup nodeId = none ∨ isMember state.committed nodeId = false) := by
    split at registered
    · rename_i absent
      exact ⟨(Option.some.inj (Prod.mk.inj (Except.ok.inj registered)).1).symm, .inl absent⟩
    · split at registered
      · exact absurd registered (by simp [Decision.keep])
      · split at registered
        · exact absurd registered (by simp [Decision.refuse])
        · rename_i outside
          rw [if_neg outside]
          exact ⟨(Option.some.inj (Prod.mk.inj (Except.ok.inj registered)).1).symm,
            .inr (by simpa using outside)⟩
  obtain ⟨rfl, free⟩ := free
  have processes : KeepsProcesses state { state with
      fencedNodes := if isMember state.committed nodeId then state.fencedNodes
        else state.fencedNodes.erase nodeId
      processInstances := state.processInstances.insert nodeId processInstanceId } := by
    intro _ other member old held
    have different : other ≠ nodeId := by
      rintro rfl
      rcases free with absent | outside
      · exact absurd held (by simp [absent])
      · obtain ⟨owner, listed, owns⟩ := List.mem_map.mp member
        have inside : isMember state.committed other = true :=
          List.any_eq_true.mpr ⟨owner, listed, decide_eq_true owns⟩
        exact absurd inside (by simp [outside])
    rw [FiniteMap.lookup_insert_if, if_neg different]
    exact held
  have frame : Frame state { state with
      fencedNodes := if isMember state.committed nodeId then state.fencedNodes
        else state.fencedNodes.erase nodeId
      processInstances := state.processInstances.insert nodeId processInstanceId } :=
        ⟨rfl, rfl, rfl, rfl, processes⟩
  refine ⟨frame.sound sound
    (fun change active => ⟨sound.valid.change change active, sound.change change active⟩) ?_ ?_
    sound.valid.stops, .same_change rfl rfl, .same_change rfl rfl processes⟩
  · intro entry member
    rcases FiniteMap.mem_entries_insert member with rfl | old
    · simpa using named
    · exact sound.valid.instances entry old
  · intro node member
    apply sound.valid.fenced node
    simp only at member
    split at member
    · exact member
    · exact (List.mem_filter.mp member).1

end ClusterState
end Hashring
