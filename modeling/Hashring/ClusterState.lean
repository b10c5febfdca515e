import Hashring.TopologyPlan
import Hashring.FiniteMap
import Hashring.OrderedSet
import Mathlib.Data.String.Basic

/-! The durable state of the coordinator (crates/hashring-coordinator/src/lib.rs):
what it may hold, the check every load and store makes, and the reconciliation
of follower admissions and repairs with the committed topology. -/
namespace Hashring

/-- `u64::saturating_add(1)`. -/
def saturatingSucc (epoch : Nat) : Nat := min (epoch + 1) (2 ^ 64 - 1)

structure ReplicaAdmission where
  epoch : Nat
  startExclusive : Token
  endInclusive : Token
  ownerNodeId : String
  nodeId : String
  processInstanceId : String
  verifiedWatermark : Nat
  streamCursor : Nat
  digest : String
  deriving DecidableEq

inductive ReplicaRepairPhase where
  | pending
  | copying
  | verifying
  | complete
  deriving DecidableEq

structure ReplicaRepair where
  epoch : Nat
  startExclusive : Token
  endInclusive : Token
  ownerNodeId : String
  nodeId : String
  phase : ReplicaRepairPhase := .pending
  retryCount : Nat := 0
  nextAttemptUnixMillis : Nat := 0
  lastError : String := ""
  deriving DecidableEq

/-- The copy an admission or a repair is about: range bounds, owner, follower. -/
structure ReplicaCopy where
  startExclusive : Token
  endInclusive : Token
  ownerNodeId : String
  nodeId : String
  deriving DecidableEq

def ReplicaAdmission.copy (admission : ReplicaAdmission) : ReplicaCopy :=
  { startExclusive := admission.startExclusive, endInclusive := admission.endInclusive
    ownerNodeId := admission.ownerNodeId, nodeId := admission.nodeId }

def ReplicaRepair.copy (repair : ReplicaRepair) : ReplicaCopy :=
  { startExclusive := repair.startExclusive, endInclusive := repair.endInclusive
    ownerNodeId := repair.ownerNodeId, nodeId := repair.nodeId }

def DerivedRange.copies (range : DerivedRange) : List ReplicaCopy :=
  range.followerNodeIds.map fun nodeId =>
    { startExclusive := range.startExclusive, endInclusive := range.endInclusive
      ownerNodeId := range.ownerNodeId, nodeId }

/-- Every follower copy a topology asks for, in ring order. -/
def desiredCopies (ranges : List DerivedRange) : List ReplicaCopy := ranges.flatMap DerivedRange.copies

structure ClusterState where
  committed : TopologySnapshot
  activeChange : Option TopologyChange := none
  supersededChange : Option TopologyChange := none
  processInstances : FiniteMap String String := ∅
  stopConfirmations : FiniteMap String (OrderedSet String) := ∅
  replicaAdmissions : List ReplicaAdmission := []
  replicaRepairs : List ReplicaRepair := []
  fencedNodes : OrderedSet String := OrderedSet.empty
  recoveryBlockReason : String := ""
  deriving DecidableEq

inductive RepositoryError where
  | storage
  | topology (error : TopologyError)
  | invalidState (message : String)
  | missingBootstrap
  | bootstrapMismatch
  deriving DecidableEq

def RepositoryError.message : RepositoryError → String
  | storage => "storage error"
  | topology error => s!"invalid topology: {error.message}"
  | invalidState message => s!"invalid coordinator state: {message}"
  | missingBootstrap => "the coordinator store is empty; bootstrap members are required"
  | bootstrapMismatch =>
      "configured bootstrap topology differs from durable topology; the store already holds a " ++
        "topology, so restart without --member or with the configuration file to use it"

def checkedTopology {α : Type} (result : Except TopologyError α) : Except RepositoryError α :=
  result.mapError .topology

/-- The phases before a change's target became the committed topology. -/
def MigrationPhase.beforePublication (phase : MigrationPhase) : Bool :=
  match phase with
  | published | cleaningUp | complete => false
  | _ => true

namespace ClusterState

variable (hashing : Hashing) (digestOf : TopologySnapshot → String)

def supersedesPublished (state : ClusterState) (change : TopologyChange) : Bool :=
  change.supersedesChangeId.all fun superseded =>
    state.supersededChange.any fun old =>
      old.changeId = superseded ∧ old.targetTopology.epoch = change.baseEpoch ∧ old.phase = .published

def epochRelationIsValid (state : ClusterState) (change : TopologyChange) : Bool :=
  if change.phase.beforePublication then
    change.baseEpoch = state.committed.epoch ∧
      change.targetTopology.epoch = saturatingSucc state.committed.epoch
  else
    change.targetTopology = state.committed ∧ saturatingSucc change.baseEpoch = state.committed.epoch

def validateBase (state : ClusterState) (change : TopologyChange) : Except RepositoryError Unit :=
  match change.baseTopology with
  | none => .ok ()
  | some base => do
      checkedTopology (base.validate hashing digestOf)
      if base.epoch ≠ change.baseEpoch ∨ change.phase.beforePublication ∧ base ≠ state.committed then
        throw (.invalidState "active change has an invalid original topology")

def validateChange (state : ClusterState) (change : TopologyChange) : Except RepositoryError Unit := do
  if ¬state.supersedesPublished change then
    throw (.invalidState "recovery change has no matching published predecessor")
  if maxMigrationRanges < change.ranges.length then
    throw (.invalidState s!"active change exceeds the {maxMigrationRanges} moving-range limit")
  if maxReplicaObligations < change.replicaObligations.length then
    throw (.invalidState s!"active change exceeds the {maxReplicaObligations} replica-obligation limit")
  checkedTopology (change.targetTopology.validate hashing digestOf)
  if ¬state.epochRelationIsValid change ∨
      change.targetTopology.hashSeed ≠ state.committed.hashSeed ∨
      change.targetTopology.hashAlgorithm ≠ state.committed.hashAlgorithm ∨
      change.targetTopology.encodingVersion ≠ state.committed.encodingVersion ∨
      change.targetTopology.virtualNodes ≠ state.committed.virtualNodes then
    throw (.invalidState "active change does not descend from committed topology")
  state.validateBase hashing digestOf change

def validateActive (state : ClusterState) : Except RepositoryError Unit :=
  match state.activeChange with
  | none => .ok ()
  | some change => state.validateChange hashing digestOf change

/-- Entries of which each is about another copy and none is unfit; `seen` are
the copies of the entries before. -/
def validateCopies {α : Type} (copyOf : α → ReplicaCopy) (unfit : α → Bool) (message : String) :
    List ReplicaCopy → List α → Except RepositoryError Unit
  | _, [] => pure ()
  | seen, entry :: rest => do
      if unfit entry ∨ copyOf entry ∈ seen then throw (.invalidState message)
      validateCopies copyOf unfit message (copyOf entry :: seen) rest

def validateAdmissions (epoch : Nat) (desired : List ReplicaCopy) :
    List ReplicaAdmission → Except RepositoryError Unit :=
  validateCopies ReplicaAdmission.copy
    (fun admission => admission.epoch ≠ epoch ∨ admission.processInstanceId.isEmpty ∨
      admission.digest.isEmpty ∨
      admission.copy ∉ desired)
    "invalid or duplicate replica admission" []

def validateRepairs (epoch : Nat) (desired admitted : List ReplicaCopy) :
    List ReplicaRepair → Except RepositoryError Unit :=
  validateCopies ReplicaRepair.copy
    (fun repair => repair.epoch ≠ epoch ∨ repair.copy ∉ desired ∨ repair.phase = .complete ∧
      repair.copy ∉ admitted)
    "invalid or duplicate replica repair" []

def validate (state : ClusterState) : Except RepositoryError Unit := do
  checkedTopology (state.committed.validate hashing digestOf)
  if maxReplicaObligations < state.replicaAdmissions.length ∨
      maxReplicaObligations < state.replicaRepairs.length then
    throw (.invalidState s!"replica metadata exceeds the {maxReplicaObligations} task limit")
  state.validateActive hashing digestOf
  if state.processInstances.entries.any fun entry => entry.1.isEmpty || entry.2.isEmpty then
    throw (.invalidState "registered process identities must not be empty")
  if state.fencedNodes.elements.any String.isEmpty then
    throw (.invalidState "fenced node identities must not be empty")
  if state.stopConfirmations.entries.any fun entry =>
      entry.1.isEmpty || entry.2.elements.isEmpty || entry.2.elements.any String.isEmpty then
    throw (.invalidState "durable stop confirmations must identify a node and process instance")
  let ranges ← checkedTopology state.committed.derivedRanges
  let desired := desiredCopies ranges
  validateAdmissions state.committed.epoch desired state.replicaAdmissions
  validateRepairs state.committed.epoch desired (state.replicaAdmissions.map (·.copy))
    state.replicaRepairs

end ClusterState

namespace ReplicaRepair

/-- A repair that lost its admission starts over. -/
def reopen (admitted : List ReplicaCopy) (repair : ReplicaRepair) : ReplicaRepair :=
  if repair.phase = .complete ∧ repair.copy ∉ admitted then { repair with phase := .pending } else repair

def pendingFor (epoch : Nat) (copy : ReplicaCopy) : ReplicaRepair :=
  { epoch, startExclusive := copy.startExclusive, endInclusive := copy.endInclusive
    ownerNodeId := copy.ownerNodeId, nodeId := copy.nodeId }

end ReplicaRepair

/-- The desired copies, in order, that no repair exists for yet. -/
def missingCopies : List ReplicaCopy → List ReplicaCopy → List ReplicaCopy
  | _, [] => []
  | existing, copy :: rest =>
      if copy ∈ existing then missingCopies existing rest
      else copy :: missingCopies (copy :: existing) rest

namespace ClusterState

def admissionKept (state : ClusterState) (desired : List ReplicaCopy)
    (admission : ReplicaAdmission) : Bool :=
  admission.epoch = state.committed.epoch ∧
    state.processInstances.lookup admission.nodeId = some admission.processInstanceId ∧
      admission.copy ∈ desired

def repairKept (state : ClusterState) (desired : List ReplicaCopy) (repair : ReplicaRepair) : Bool :=
  repair.epoch = state.committed.epoch ∧ repair.copy ∈ desired

/-- The admissions and repairs that fit the desired copies, and a pending repair
for each copy without one. -/
def reconciled (state : ClusterState) (desired : List ReplicaCopy) : ClusterState :=
  let admissions := state.replicaAdmissions.filter (state.admissionKept desired)
  let repairs := (state.replicaRepairs.filter (state.repairKept desired)).map
    (ReplicaRepair.reopen (admissions.map (·.copy)))
  { state with
    replicaAdmissions := admissions
    replicaRepairs := repairs ++
      (missingCopies (repairs.map (·.copy)) desired).map
        (ReplicaRepair.pendingFor state.committed.epoch) }

def reconcileReplicaRepairs (state : ClusterState) : Except RepositoryError ClusterState := do
  let ranges ← checkedTopology state.committed.derivedRanges
  if maxReplicaObligations < (ranges.map fun range => range.followerNodeIds.length).sum then
    throw (.invalidState s!"topology exceeds the {maxReplicaObligations} replica-task limit")
  return state.reconciled (desiredCopies ranges)

variable (hashing : Hashing) (digestOf : TopologySnapshot → String)

structure ValidChange (state : ClusterState) (change : TopologyChange) : Prop where
  supersedes : state.supersedesPublished change = true
  ranges : change.ranges.length ≤ maxMigrationRanges
  obligations : change.replicaObligations.length ≤ maxReplicaObligations
  target : change.targetTopology.validate hashing digestOf = .ok ()
  epochs : state.epochRelationIsValid change = true
  seed : change.targetTopology.hashSeed = state.committed.hashSeed
  algorithm : change.targetTopology.hashAlgorithm = state.committed.hashAlgorithm
  encoding : change.targetTopology.encodingVersion = state.committed.encodingVersion
  virtualNodes : change.targetTopology.virtualNodes = state.committed.virtualNodes
  base : ∀ base, change.baseTopology = some base → base.validate hashing digestOf = .ok () ∧
    base.epoch = change.baseEpoch ∧ (change.phase.beforePublication = true → base = state.committed)

structure ValidCopies (epoch : Nat) (desired : List ReplicaCopy) (admissions : List ReplicaAdmission)
    (repairs : List ReplicaRepair) : Prop where
  admissionsOnce : (admissions.map (·.copy)).Nodup
  admitted : ∀ admission ∈ admissions, admission.epoch = epoch ∧
    admission.processInstanceId.isEmpty = false ∧
    admission.digest.isEmpty = false ∧ admission.copy ∈ desired
  repairsOnce : (repairs.map (·.copy)).Nodup
  repaired : ∀ repair ∈ repairs, repair.epoch = epoch ∧ repair.copy ∈ desired ∧
    (repair.phase = .complete → repair.copy ∈ admissions.map (·.copy))

structure Valid (state : ClusterState) : Prop where
  committed : state.committed.validate hashing digestOf = .ok ()
  admissionCount : state.replicaAdmissions.length ≤ maxReplicaObligations
  repairCount : state.replicaRepairs.length ≤ maxReplicaObligations
  change : ∀ change, state.activeChange = some change → state.ValidChange hashing digestOf change
  instances : ∀ entry ∈ state.processInstances.entries, entry.1.isEmpty = false ∧ entry.2.isEmpty = false
  fenced : ∀ node ∈ state.fencedNodes.elements, node.isEmpty = false
  stops : ∀ entry ∈ state.stopConfirmations.entries, entry.1.isEmpty = false ∧
    entry.2.elements.isEmpty = false ∧
    ∀ instance_ ∈ entry.2.elements, instance_.isEmpty = false
  copies : ∃ ranges, state.committed.derivedRanges = .ok ranges ∧
    ValidCopies state.committed.epoch (desiredCopies ranges) state.replicaAdmissions state.replicaRepairs

theorem validate_copies_iff {α : Type} (copyOf : α → ReplicaCopy) (unfit : α → Bool) (message : String)
    (seen : List ReplicaCopy) (entries : List α) :
    validateCopies copyOf unfit message seen entries = .ok () ↔
      (entries.map copyOf).Nodup ∧ ∀ entry ∈ entries, unfit entry = false ∧ copyOf entry ∉ seen := by
  induction entries generalizing seen with
  | nil => simp [validateCopies, pure, Except.pure]
  | cons entry rest ih =>
      unfold validateCopies
      rw [unless_thrown_ok, ih]
      simp only [List.map_cons, List.nodup_cons, List.mem_map, List.mem_cons, not_or, forall_eq_or_imp,
        Bool.not_eq_true]
      constructor
      · rintro ⟨⟨fits, fresh⟩, once, others⟩
        refine ⟨⟨?_, once⟩, ⟨fits, fresh⟩, fun other member =>
          ⟨(others other member).1, (others other member).2.2⟩⟩
        rintro ⟨other, member, same⟩
        exact (others other member).2.1 same
      · rintro ⟨⟨absent, once⟩, head, others⟩
        exact ⟨head, once, fun other member =>
          ⟨(others other member).1, fun same => absent ⟨other, member, same⟩, (others other member).2⟩⟩

theorem checked_topology_ok {α : Type} {result : Except TopologyError α} {value : α} :
    checkedTopology result = .ok value ↔ result = .ok value := by
  cases result with
  | error error => simp [checkedTopology, Except.mapError]
  | ok found => simp [checkedTopology, Except.mapError]

theorem validate_base_iff (state : ClusterState) (change : TopologyChange) :
    state.validateBase hashing digestOf change = .ok () ↔
      ∀ base, change.baseTopology = some base → base.validate hashing digestOf = .ok () ∧
        base.epoch = change.baseEpoch ∧
          (change.phase.beforePublication = true → base = state.committed) := by
  unfold validateBase
  cases change.baseTopology with
  | none => simp
  | some base =>
      simp only [bind_ok_iff, checked_topology_ok, thrown_at_end_ok, not_or, not_not, not_and]
      constructor
      · rintro ⟨_, valid, epoch, same⟩ other found
        obtain rfl := Option.some.inj found
        exact ⟨valid, epoch, same⟩
      · intro all
        obtain ⟨valid, epoch, same⟩ := all base rfl
        exact ⟨(), valid, epoch, same⟩

theorem validate_change_iff (state : ClusterState) (change : TopologyChange) :
    state.validateChange hashing digestOf change = .ok () ↔
      state.ValidChange hashing digestOf change := by
  unfold validateChange
  simp only [unless_thrown_ok, bind_ok_iff, checked_topology_ok, validate_base_iff, not_not, not_or,
    not_lt]
  constructor
  · rintro ⟨supersedes, ranges, obligations, _, target, ⟨epochs, seed, algorithm, encoding, vnodes⟩, base⟩
    exact ⟨supersedes, ranges, obligations, target, epochs, seed, algorithm, encoding, vnodes, base⟩
  · intro valid
    exact ⟨valid.supersedes, valid.ranges, valid.obligations, (), valid.target,
      ⟨valid.epochs, valid.seed, valid.algorithm, valid.encoding, valid.virtualNodes⟩, valid.base⟩

theorem validate_active_iff (state : ClusterState) :
    state.validateActive hashing digestOf = .ok () ↔
      ∀ change, state.activeChange = some change → state.ValidChange hashing digestOf change := by
  unfold validateActive
  cases state.activeChange with
  | none => simp
  | some change => simp [validate_change_iff]

theorem valid_copies_iff (epoch : Nat) (desired : List ReplicaCopy) (admissions : List ReplicaAdmission)
    (repairs : List ReplicaRepair) :
    (validateAdmissions epoch desired admissions = .ok () ∧
        validateRepairs epoch desired (admissions.map (·.copy)) repairs = .ok ()) ↔
      ValidCopies epoch desired admissions repairs := by
  unfold validateAdmissions validateRepairs
  rw [validate_copies_iff, validate_copies_iff]
  constructor
  · rintro ⟨⟨admissionsOnce, admitted⟩, repairsOnce, repaired⟩
    refine ⟨admissionsOnce, fun admission member => ?_, repairsOnce, fun repair member => ?_⟩
    · simpa using (admitted admission member).1
    · simpa using (repaired repair member).1
  · rintro ⟨admissionsOnce, admitted, repairsOnce, repaired⟩
    refine ⟨⟨admissionsOnce, fun admission member => ⟨?_, List.not_mem_nil⟩⟩, repairsOnce,
        fun repair member =>
      ⟨?_, List.not_mem_nil⟩⟩
    · simpa using admitted admission member
    · simpa using repaired repair member

theorem validate_iff (state : ClusterState) :
    state.validate hashing digestOf = .ok () ↔ state.Valid hashing digestOf := by
  unfold validate
  simp only [unless_thrown_ok, bind_ok_iff, checked_topology_ok, not_or, not_lt,
    List.any_eq_true, Bool.or_eq_true, not_exists, not_and]
  constructor
  · rintro ⟨_, committed, ⟨admissions, repairs⟩, _, change, instances, fenced, stops, ranges,
      derived, _, first, second⟩
    refine ⟨committed, admissions, repairs, (validate_active_iff hashing digestOf state).mp change,
      ?_, ?_, ?_, ranges, derived, (valid_copies_iff _ _ _ _).mp ⟨first, second⟩⟩
    · intro entry member
      simpa using instances entry member
    · intro node member
      simpa using fenced node member
    · intro entry member
      simpa [and_assoc] using stops entry member
  · intro valid
    obtain ⟨ranges, derived, copies⟩ := valid.copies
    obtain ⟨first, second⟩ := (valid_copies_iff _ _ _ _).mpr copies
    refine ⟨(), valid.committed, ⟨valid.admissionCount, valid.repairCount⟩, (),
      (validate_active_iff hashing digestOf state).mpr valid.change, ?_, ?_, ?_, ranges, derived,
        (), first, second⟩
    · intro entry member
      simpa using valid.instances entry member
    · intro node member
      simpa using valid.fenced node member
    · intro entry member
      simpa [and_assoc] using valid.stops entry member

/-! Reconciliation keeps one repair for each desired copy, and a state it leaves
alone is one whose admissions are all current. -/

@[simp]
theorem reopen_copy (admitted : List ReplicaCopy) (repair : ReplicaRepair) :
    (ReplicaRepair.reopen admitted repair).copy = repair.copy := by
  unfold ReplicaRepair.reopen
  split <;> rfl

@[simp]
theorem reopen_epoch (admitted : List ReplicaCopy) (repair : ReplicaRepair) :
    (ReplicaRepair.reopen admitted repair).epoch = repair.epoch := by
  unfold ReplicaRepair.reopen
  split <;> rfl

theorem reopen_complete {admitted : List ReplicaCopy} {repair : ReplicaRepair}
    (complete : (ReplicaRepair.reopen admitted repair).phase = .complete) : repair.copy ∈ admitted := by
  unfold ReplicaRepair.reopen at complete
  split at complete
  · exact absurd complete (by simp)
  · rename_i open_
    by_contra lost
    exact open_ ⟨complete, lost⟩

theorem reopen_admitted {admitted : List ReplicaCopy} {repair : ReplicaRepair}
    (current : repair.phase = .complete → repair.copy ∈ admitted) :
    ReplicaRepair.reopen admitted repair = repair := by
  unfold ReplicaRepair.reopen
  rw [if_neg]
  rintro ⟨complete, lost⟩
  exact lost (current complete)

@[simp]
theorem pending_for_copy (epoch : Nat)
    (copy : ReplicaCopy) : (ReplicaRepair.pendingFor epoch copy).copy = copy := rfl

theorem mem_missing_copies (existing desired : List ReplicaCopy) (copy : ReplicaCopy) :
    copy ∈ missingCopies existing desired ↔ copy ∈ desired ∧ copy ∉ existing := by
  induction desired generalizing existing with
  | nil => simp [missingCopies]
  | cons head rest ih =>
      unfold missingCopies
      by_cases present : head ∈ existing
      · rw [if_pos present, ih]
        constructor
        · rintro ⟨inside, absent⟩
          exact ⟨List.mem_cons_of_mem _ inside, absent⟩
        · rintro ⟨inside, absent⟩
          rcases List.mem_cons.mp inside with rfl | inside
          · exact absurd present absent
          · exact ⟨inside, absent⟩
      · rw [if_neg present, List.mem_cons, ih, List.mem_cons, List.mem_cons]
        by_cases same : copy = head
        · subst same
          simp [present]
        · simp [same]

theorem missing_copies_nodup (existing desired : List ReplicaCopy) :
    (missingCopies existing desired).Nodup := by
  induction desired generalizing existing with
  | nil => exact List.nodup_nil
  | cons head rest ih =>
      unfold missingCopies
      split
      · exact ih existing
      · refine List.nodup_cons.mpr ⟨fun repeated => ?_, ih _⟩
        exact ((mem_missing_copies _ _ _).mp repeated).2 List.mem_cons_self

theorem desired_copies_length (ranges : List DerivedRange) :
    (desiredCopies ranges).length = (ranges.map fun range => range.followerNodeIds.length).sum := by
  simp [desiredCopies, DerivedRange.copies, List.length_flatMap]

theorem reconcile_iff (state after : ClusterState) :
    state.reconcileReplicaRepairs = .ok after ↔
      ∃ ranges, state.committed.derivedRanges = .ok ranges ∧
        (desiredCopies ranges).length ≤ maxReplicaObligations ∧
          after = state.reconciled (desiredCopies ranges) := by
  unfold reconcileReplicaRepairs
  simp only [bind_ok_iff, checked_topology_ok, unless_thrown_ok, not_lt, desired_copies_length]
  constructor
  · rintro ⟨ranges, derived, few, result⟩
    exact ⟨ranges, derived, few, (Except.ok.inj result).symm⟩
  · rintro ⟨ranges, derived, few, rfl⟩
    exact ⟨ranges, derived, few, rfl⟩

theorem mem_reconciled_copies (state : ClusterState) (desired : List ReplicaCopy) (copy : ReplicaCopy) :
    copy ∈ (state.reconciled desired).replicaRepairs.map (·.copy) ↔ copy ∈ desired := by
  simp only [reconciled, List.map_append, List.map_map, List.mem_append, Function.comp_def, reopen_copy,
    pending_for_copy, List.map_id', mem_missing_copies]
  constructor
  · rintro (kept | ⟨inside, _⟩)
    · obtain ⟨repair, member, rfl⟩ := List.mem_map.mp kept
      have fits := (List.mem_filter.mp member).2
      simp only [repairKept, decide_eq_true_eq] at fits
      exact fits.2
    · exact inside
  · intro inside
    by_cases kept : copy ∈ (state.replicaRepairs.filter (state.repairKept desired)).map (·.copy)
    · exact .inl kept
    · exact .inr ⟨inside, kept⟩

theorem reconciled_repair {state : ClusterState} {desired : List ReplicaCopy} {repair : ReplicaRepair}
    (member : repair ∈ (state.reconciled desired).replicaRepairs) :
    repair.epoch = state.committed.epoch ∧ repair.copy ∈ desired ∧
      (repair.phase = .complete → repair.copy ∈ (state.reconciled desired).replicaAdmissions.map
        (·.copy)) := by
  rcases List.mem_append.mp member with kept | missing
  · obtain ⟨old, inside, rfl⟩ := List.mem_map.mp kept
    have fits := (List.mem_filter.mp inside).2
    simp only [repairKept, decide_eq_true_eq] at fits
    rw [reopen_copy, reopen_epoch]
    exact ⟨fits.1, fits.2, reopen_complete⟩
  · obtain ⟨copy, absent, rfl⟩ := List.mem_map.mp missing
    exact ⟨rfl, ((mem_missing_copies _ _ _).mp absent).1,
      fun complete => absurd complete (by simp [ReplicaRepair.pendingFor])⟩

theorem reconciled_copies (state : ClusterState) (desired : List ReplicaCopy)
    (admissionsOnce : (state.replicaAdmissions.map (·.copy)).Nodup)
    (repairsOnce : (state.replicaRepairs.map (·.copy)).Nodup)
    (named : ∀ admission ∈ state.replicaAdmissions,
      admission.processInstanceId.isEmpty = false ∧ admission.digest.isEmpty = false) :
    ValidCopies state.committed.epoch desired (state.reconciled desired).replicaAdmissions
      (state.reconciled desired).replicaRepairs := by
  refine ⟨?_, fun admission member => ?_, ?_, fun repair member => ?_⟩
  · exact admissionsOnce.sublist (List.filter_sublist.map _)
  · obtain ⟨inside, fits⟩ := List.mem_filter.mp member
    simp only [admissionKept, decide_eq_true_eq] at fits
    exact ⟨fits.1, (named admission inside).1, (named admission inside).2, fits.2.2⟩
  · simp only [reconciled, List.map_append, List.map_map, Function.comp_def, reopen_copy,
      pending_for_copy, List.map_id']
    refine List.nodup_append.mpr ⟨repairsOnce.sublist (List.filter_sublist.map _),
      missing_copies_nodup _ _, ?_⟩
    rintro copy kept other missing rfl
    exact ((mem_missing_copies _ _ _).mp missing).2 kept
  · exact reconciled_repair member

/-- A state that reconciliation would not change: a restart loads it as it was stored. -/
def Settled (state : ClusterState) : Prop := state.reconcileReplicaRepairs = .ok state

structure CopiesSettled (state : ClusterState) (desired : List ReplicaCopy) : Prop where
  admissions : ∀ admission ∈ state.replicaAdmissions, state.admissionKept desired admission = true
  repairs : ∀ repair ∈ state.replicaRepairs, state.repairKept desired repair = true
  complete : ∀ repair ∈ state.replicaRepairs, repair.phase = .complete →
    repair.copy ∈ state.replicaAdmissions.map (·.copy)
  covered : ∀ copy ∈ desired, copy ∈ state.replicaRepairs.map (·.copy)

theorem copies_settled_iff (state : ClusterState) (desired : List ReplicaCopy) :
    state.reconciled desired = state ↔ state.CopiesSettled desired := by
  constructor
  · intro same
    have admissions : state.replicaAdmissions.filter (state.admissionKept desired) =
        state.replicaAdmissions :=
      congrArg ClusterState.replicaAdmissions same
    have repairs : (state.reconciled desired).replicaRepairs = state.replicaRepairs :=
      congrArg ClusterState.replicaRepairs same
    refine ⟨fun admission member => ?_, fun repair member => ?_, fun repair member complete => ?_,
      fun copy inside => ?_⟩
    · rw [← admissions] at member
      exact (List.mem_filter.mp member).2
    · rw [← repairs] at member
      obtain ⟨epoch, inside, _⟩ := reconciled_repair member
      exact decide_eq_true ⟨epoch, inside⟩
    · rw [← repairs] at member
      rw [← admissions]
      exact (reconciled_repair member).2.2 complete
    · rw [← repairs]
      exact (mem_reconciled_copies state desired copy).mpr inside
  · intro settled
    have admissions : state.replicaAdmissions.filter (state.admissionKept desired) =
        state.replicaAdmissions :=
      List.filter_eq_self.mpr settled.admissions
    have kept : state.replicaRepairs.filter (state.repairKept desired) = state.replicaRepairs :=
      List.filter_eq_self.mpr settled.repairs
    have reopened : state.replicaRepairs.map
        (ReplicaRepair.reopen (state.replicaAdmissions.map (·.copy))) =
        state.replicaRepairs := by
      apply (List.map_congr_left fun repair member => ?_).trans (List.map_id _)
      exact reopen_admitted (settled.complete repair member)
    have none_missing : missingCopies (state.replicaRepairs.map (·.copy)) desired = [] := by
      apply List.eq_nil_iff_forall_not_mem.mpr
      intro copy missing
      obtain ⟨inside, absent⟩ := (mem_missing_copies _ _ _).mp missing
      exact absent (settled.covered copy inside)
    simp only [reconciled, admissions, kept, reopened, none_missing, List.map_nil, List.append_nil]

theorem settled_iff (state : ClusterState) :
    state.Settled ↔ ∃ ranges, state.committed.derivedRanges = .ok ranges ∧
      (desiredCopies ranges).length ≤ maxReplicaObligations ∧
        state.CopiesSettled (desiredCopies ranges) := by
  unfold Settled
  rw [reconcile_iff]
  constructor
  · rintro ⟨ranges, derived, few, same⟩
    exact ⟨ranges, derived, few, (copies_settled_iff _ _).mp same.symm⟩
  · rintro ⟨ranges, derived, few, settled⟩
    exact ⟨ranges, derived, few, ((copies_settled_iff _ _).mpr settled).symm⟩

theorem reconcile_settled {state after : ClusterState}
    (reconciles : state.reconcileReplicaRepairs = .ok after) :
    after.Settled := by
  obtain ⟨ranges, derived, few, rfl⟩ := (reconcile_iff state after).mp reconciles
  refine (settled_iff _).mpr ⟨ranges, derived, few, fun admission member => ?_, fun repair member => ?_,
    fun repair member complete => ?_, fun copy inside => (mem_reconciled_copies state _ copy).mpr inside⟩
  · exact (List.mem_filter.mp member).2
  · obtain ⟨epoch, inside, _⟩ := reconciled_repair member
    exact decide_eq_true ⟨epoch, inside⟩
  · exact (reconciled_repair member).2.2 complete

end ClusterState
end Hashring
