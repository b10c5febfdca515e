import Hashring.CoordinatorSystem
import Hashring.PlacementLaw

/-! Requests for a topology change (`begin_topology_change`, rpc.rs, and
`plan_with_config`, migration.rs) that list the same members in another order.
A plan depends on the order only through the fault it reports first; a request
that changes the configuration is also compared with the committed list as it
was sent. -/
namespace Hashring

namespace TopologyChange

def endpointConflict (committed : TopologySnapshot) (members : List Member) : Option Member :=
  committed.members.find? fun current =>
    (members.find? fun target => target.nodeId = current.nodeId).any fun target => target.endpoint ≠
      current.endpoint

def firstFault (committed : TopologySnapshot) (members : List Member) : Option MigrationError :=
  match endpointConflict committed members with
  | some current => some (.endpointChangeUnsupported current.nodeId)
  | none =>
      if committed.epoch = 2 ^ 64 - 1 then some .epochOverflow
      else match validateMembers members committed.virtualNodes with
        | .error error => some (.topology error)
        | .ok _ => none

def withoutId (change : TopologyChange) : TopologyChange := { change with changeId := "" }

theorem find_by_id_perm {left right : List Member} (same : left.Perm right)
    (distinct : (left.map (·.nodeId)).Nodup) (nodeId : String) :
    (left.find? fun target => target.nodeId = nodeId) = right.find? fun target => target.nodeId =
      nodeId := by
  have unique : ∀ members : List Member, (members.map (·.nodeId)).Nodup → ∀ member,
      (members.find? fun target => target.nodeId = nodeId) = some member ↔ member ∈ members ∧
          member.nodeId = nodeId := by
    intro members once member
    constructor
    · intro found
      exact ⟨List.mem_of_find?_eq_some found, by simpa using List.find?_some found⟩
    · rintro ⟨inside, rfl⟩
      cases found : members.find? fun target => target.nodeId = member.nodeId with
      | none =>
          have other := List.find?_eq_none.mp found member inside
          simp at other
      | some other =>
          have named : other.nodeId = member.nodeId := by simpa using List.find?_some found
          exact congrArg some (List.inj_on_of_nodup_map once (List.mem_of_find?_eq_some found)
            inside named)
  apply Option.ext
  intro member
  rw [unique left distinct, unique right ((same.map _).nodup_iff.mp distinct), same.mem_iff]

theorem endpoint_conflict_perm {committed : TopologySnapshot} {left right : List Member}
    (same : left.Perm right)
    (distinct : (left.map (·.nodeId)).Nodup) :
    endpointConflict committed left = endpointConflict committed right := by
  unfold endpointConflict
  simp only [find_by_id_perm same distinct]

theorem first_fault_perm {committed : TopologySnapshot} {left right : List Member}
    (same : left.Perm right) (valid : validateMembers left committed.virtualNodes = .ok ()) :
    firstFault committed left = firstFault committed right := by
  have relisted := TopologySnapshot.validate_members_perm same.symm valid
  unfold firstFault
  rw [endpoint_conflict_perm same (TopologySnapshot.validate_members_spec valid).2.2, valid, relisted]

theorem faultless_valid {committed : TopologySnapshot} {members : List Member}
    (fault : firstFault committed members = none) :
    validateMembers members committed.virtualNodes = .ok () := by
  unfold firstFault at fault
  split at fault
  · exact absurd fault (by simp)
  · split at fault
    · exact absurd fault (by simp)
    · split at fault
      · exact absurd fault (by simp)
      · assumption

theorem canonical_members_perm {left right : List Member} (same : left.Perm right)
    (distinct : (left.map (·.nodeId)).Nodup) : canonicalMembers left = canonicalMembers right := by
  have sorted : (canonicalMembers left).Perm (canonicalMembers right) :=
    (List.mergeSort_perm _ _).trans (same.trans (List.mergeSort_perm _ _).symm)
  refine sorted.eq_of_pairwise ?_ (TopologySnapshot.canonical_members_sorted left)
    (TopologySnapshot.canonical_members_sorted right)
  intro one other inLeft inRight before after
  have named : one.nodeId = other.nodeId :=
    le_antisymm (of_decide_eq_true before) (of_decide_eq_true after)
  refine List.inj_on_of_nodup_map distinct ?_ ?_ named
  · exact (List.mergeSort_perm _ _).mem_iff.mp inLeft
  · exact same.mem_iff.mpr ((List.mergeSort_perm _ _).mem_iff.mp inRight)

section Plans

variable (hashing : Hashing) (digestOf : TopologySnapshot → String) (committed : TopologySnapshot)
  (config : TopologyConfig)

theorem plan_fault {changeId : String} {members : List Member} {error : MigrationError}
    (fault : firstFault committed members = some error) :
    planWithConfig hashing digestOf changeId committed members config = .error error := by
  unfold firstFault at fault
  unfold planWithConfig
  cases conflict : endpointConflict committed members with
  | some current =>
      simp only [conflict, Option.some.injEq] at fault
      -- The plan looks for the conflict before anything else.
      unfold endpointConflict at conflict
      rw [conflict, ← fault]
      rfl
  | none =>
      simp only [conflict] at fault
      unfold endpointConflict at conflict
      rw [conflict]
      by_cases overflows : committed.epoch = 2 ^ 64 - 1
      · simp only [if_pos overflows, Option.some.injEq] at fault ⊢
        rw [← fault]
        rfl
      · simp only [if_neg overflows] at fault ⊢
        cases checked : validateMembers members committed.virtualNodes with
        | ok _ => simp only [checked, reduceCtorEq] at fault
        | error refused =>
            simp only [checked, Option.some.injEq] at fault
            -- The target topology is built from the list, which checks it first.
            unfold TopologySnapshot.newWithTimings
            rw [checked, ← fault]
            rfl

theorem plan_perm {changeId : String} {left right : List Member} (same : left.Perm right)
    (fault : firstFault committed left = none) :
    planWithConfig hashing digestOf changeId committed left config =
      planWithConfig hashing digestOf changeId committed right config := by
  have valid := faultless_valid fault
  have distinct := (TopologySnapshot.validate_members_spec valid).2.2
  have conflict : endpointConflict committed left = endpointConflict committed right :=
    endpoint_conflict_perm same distinct
  unfold endpointConflict at conflict
  unfold planWithConfig TopologySnapshot.newWithTimings
  rw [conflict, valid, TopologySnapshot.validate_members_perm same.symm valid,
    canonical_members_perm same distinct]

theorem plan_order_iff {changeId : String} {left right : List Member} (same : left.Perm right) :
    planWithConfig hashing digestOf changeId committed left config =
        planWithConfig hashing digestOf changeId committed right config ↔
      firstFault committed left = firstFault committed right := by
  cases first : firstFault committed left with
  | none =>
      have second := first_fault_perm same (faultless_valid first)
      rw [first] at second
      exact iff_of_true (plan_perm hashing digestOf committed config same first) second
  | some error =>
      cases second : firstFault committed right with
      | none =>
          have faultless := first_fault_perm same.symm (faultless_valid second)
          rw [second, first] at faultless
          exact absurd faultless (by simp)
      | some other =>
          rw [plan_fault hashing digestOf committed config first,
            plan_fault hashing digestOf committed config second,
            Except.error.injEq, Option.some.injEq]

theorem plan_id (changeId : String) (members : List Member) :
    (planWithConfig hashing digestOf changeId committed members config).map withoutId =
      planWithConfig hashing digestOf "" committed members config := by
  unfold planWithConfig
  cases committed.members.find? fun current =>
      (members.find? fun target => target.nodeId = current.nodeId).any fun target =>
        target.endpoint ≠ current.endpoint with
  | some current => rfl
  | none =>
      simp only
      split
      · rfl
      · cases fromTopology (TopologySnapshot.newWithTimings hashing digestOf (committed.epoch + 1)
          committed.hashSeed
          committed.virtualNodes members config committed.timings) with
        | error error => rfl
        | ok target =>
            by_cases unchanged : target.members = committed.members ∧ target.config = committed.config
            · simp only [bind, Except.bind, if_pos unchanged]
              rfl
            · simp only [bind, Except.bind, if_neg unchanged]
              cases topologyDelta hashing committed target with
              | error error => rfl
              | ok delta => rfl

end Plans
end TopologyChange

def separately : Status :=
  ⟨.invalidArgument, "change membership and topology configuration in separate transitions"⟩

theorem starts_apart {start rest text : String} (apart : text.toList.take start.length ≠ start.toList) :
    start ++ rest ≠ text := by
  rintro rfl
  apply apart
  rw [String.toList_append]
  exact List.take_left' String.length_toList

theorem starts_apart_then {start rest more text : String} (apart : ∀ rest, start ++ rest ≠ text) :
    start ++ rest ++ more ≠ text := by
  rw [String.append_assoc]
  exact apart _

theorem topology_message_apart (error : TopologyError) : error.message ≠ separately.message := by
  cases error with
  | duplicateNodeId nodeId => exact starts_apart (by decide)
  | duplicateEndpoint endpoint => exact starts_apart (by decide)
  | unsupportedHashConfiguration algorithm version =>
      refine starts_apart_then fun rest => ?_
      exact starts_apart_then fun rest => starts_apart (by decide)
  | unknownAssignedNode nodeId => exact starts_apart (by decide)
  | unknownWriteAckPolicy value => exact starts_apart (by decide)
  | _ => decide

theorem migration_message_apart (error : MigrationError) : error.message ≠ separately.message := by
  cases error with
  | topology error => exact starts_apart (by decide)
  | endpointChangeUnsupported nodeId => exact starts_apart_then fun rest => starts_apart (by decide)
  | unknownPhase value => exact starts_apart (by decide)
  | _ => decide

namespace ClusterState

variable (settings : CoordinatorSettings) (works : Bool)

/-- What a decision of a request comes to; `works` is whether the database accepts the write. -/
def answerStored : Option ClusterState × TopologyChange → Except Status TopologyChange
  | (none, change) => .ok change
  | (some next, change) =>
      ((settings.storeState works next).mapError fun error => ⟨.internal, error.message⟩).map
        fun _ => change

/-- `begin_topology_change` with its store. -/
def beginAnswer (changeId : String) (request : BeginTopologyChangeRequest) (state : ClusterState) :
    Except Status TopologyChange :=
  state.beginTopologyChange settings changeId request >>= answerStored settings works

def requestedConfig (state : ClusterState) (policy : Option WriteAckPolicy)
    (request : BeginTopologyChangeRequest) :
    TopologyConfig :=
  { desiredReplicationFactor :=
      request.targetDesiredReplicationFactor.getD state.committed.config.desiredReplicationFactor
    writeAckPolicy := policy.getD state.committed.config.writeAckPolicy
    writeAvailabilityGuard :=
      request.targetWriteAvailabilityGuard.getD state.committed.config.writeAvailabilityGuard }

/-- The part of `begin_topology_change` after the plan. -/
def admitPlan (state : ClusterState) (planned : TopologyChange) :
    Except Status (Option ClusterState × TopologyChange) := do
  let change := if canPrepareDirectMerge state.committed planned then
      { planned with directMerge := true, ranges := [] }
    else planned
  if ¬state.targetSatisfiable change.targetTopology then
    throw ⟨.failedPrecondition,
      "target membership cannot satisfy its write policy and availability guard"⟩
  let ranges ← change.targetTopology.derivedRanges.mapError fun error => ⟨.invalidArgument, error.message⟩
  if maxReplicaObligations < (ranges.map fun range => range.followerNodeIds.length).sum then
    throw ⟨.resourceExhausted, s!"target topology exceeds the {maxReplicaObligations} replica-task limit"⟩
  Decision.store { state with activeChange := some change, recoveryBlockReason := "" } change

/-- A policy the code does not know is refused before anything else. -/
theorem begin_answer_unknown {request : BeginTopologyChangeRequest} {error : TopologyError}
    (unknown : request.targetPolicy = .error error) (changeId : String) (state : ClusterState) :
    state.beginAnswer settings works changeId request = .error ⟨.invalidArgument, error.message⟩ := by
  unfold beginAnswer beginTopologyChange
  rw [unknown]
  rfl

/-- A request answered in the order of the source: the running change, the separate
transitions, the plan, and what the plan comes to. -/
theorem begin_answer_eq {request : BeginTopologyChangeRequest} {policy : Option WriteAckPolicy}
    (known : request.targetPolicy = .ok policy) (changeId : String) (state : ClusterState) :
    state.beginAnswer settings works changeId request =
      if state.transitionActive then .error
        ⟨.failedPrecondition, "another topology change is already active"⟩
      else if state.requestedConfig policy request ≠ state.committed.config ∧
        request.targetMembers ≠ state.committed.members then
        .error separately
      else (TopologyChange.planWithConfig settings.hashing settings.digestOf changeId
        state.committed request.targetMembers
        (state.requestedConfig policy request)).mapError
          (fun error => ⟨.invalidArgument, error.message⟩) >>= fun planned =>
          state.admitPlan planned >>= answerStored settings works := by
  unfold beginAnswer beginTopologyChange
  have decodes : (request.targetPolicy.mapError fun error =>
      (⟨.invalidArgument, error.message⟩ : Status)) = pure policy := by
    rw [known]
    rfl
  rw [decodes, pure_bind]
  by_cases active : state.transitionActive = true
  · simp only [if_pos active]
    rfl
  · simp only [if_neg active]
    by_cases separate : state.requestedConfig policy request ≠ state.committed.config ∧
      request.targetMembers ≠ state.committed.members
    · have asked := separate
      unfold requestedConfig at asked
      rw [if_pos separate, if_pos asked]
      rfl
    · have asked := separate
      unfold requestedConfig at asked
      rw [if_neg separate, if_neg asked]
      unfold requestedConfig
      cases (TopologyChange.planWithConfig settings.hashing settings.digestOf changeId
        state.committed request.targetMembers
        { desiredReplicationFactor :=
            request.targetDesiredReplicationFactor.getD state.committed.config.desiredReplicationFactor
          writeAckPolicy := policy.getD state.committed.config.writeAckPolicy
          writeAvailabilityGuard :=
            request.targetWriteAvailabilityGuard.getD state.committed.config.writeAvailabilityGuard
              }) with
      | error error => rfl
      | ok planned => rfl

theorem admit_apart (state : ClusterState) (planned : TopologyChange) :
    (state.admitPlan planned >>= answerStored settings works) ≠ .error separately := by
  unfold admitPlan
  simp only
  generalize (if canPrepareDirectMerge state.committed planned then
    { planned with directMerge := true, ranges := [] } else planned) = change
  split
  · exact fun same => absurd (Except.error.inj same) (by decide)
  · cases change.targetTopology.derivedRanges with
    | error error =>
        intro same
        exact topology_message_apart error (congrArg Status.message (Except.error.inj same))
    | ok ranges =>
        by_cases many : maxReplicaObligations < (ranges.map fun range => range.followerNodeIds.length).sum
        · simp only [Except.mapError, bind, Except.bind, if_pos many]
          exact fun same => absurd (congrArg Status.code (Except.error.inj same)) (by decide)
        · simp only [Except.mapError, bind, Except.bind, if_neg many, Decision.store, answerStored]
          cases settings.storeState works { state with activeChange := some change, recoveryBlockReason := "" } with
          | error error =>
              exact fun same => absurd (congrArg Status.code (Except.error.inj same)) (by simp [separately])
          | ok _ => exact fun same => absurd same (by simp [Except.map])

theorem admit_id (state : ClusterState) (planned : TopologyChange) :
    (state.admitPlan planned >>= answerStored settings works).map TopologyChange.withoutId =
      (state.admitPlan planned.withoutId >>= answerStored settings works).map
        TopologyChange.withoutId := by
  unfold admitPlan
  have merges : canPrepareDirectMerge state.committed planned.withoutId =
      canPrepareDirectMerge state.committed planned := rfl
  have same : (if canPrepareDirectMerge state.committed planned.withoutId then
      { planned.withoutId with directMerge := true, ranges := [] } else planned.withoutId) =
      (if canPrepareDirectMerge state.committed planned then
        { planned with directMerge := true, ranges := [] } else planned : TopologyChange).withoutId := by
    rw [merges]
    split <;> rfl
  simp only [same]
  generalize (if canPrepareDirectMerge state.committed planned then
    { planned with directMerge := true, ranges := [] } else planned : TopologyChange) = change
  have targets : change.withoutId.targetTopology = change.targetTopology := rfl
  rw [targets]
  split
  · rfl
  · cases change.targetTopology.derivedRanges with
    | error error => rfl
    | ok ranges =>
        by_cases many : maxReplicaObligations < (ranges.map fun range => range.followerNodeIds.length).sum
        · simp only [Except.mapError, bind, Except.bind, if_pos many]
          rfl
        · simp only [Except.mapError, bind, Except.bind, if_neg many, Decision.store, answerStored]
          have stores : settings.storeState works
              { state with activeChange := some change.withoutId, recoveryBlockReason := "" } =
              settings.storeState works
                { state with activeChange := some change, recoveryBlockReason := "" } := rfl
          rw [stores]
          cases settings.storeState works
            { state with activeChange := some change, recoveryBlockReason := "" } with
          | error error => rfl
          | ok _ => rfl

theorem begin_id (changeId : String) (request : BeginTopologyChangeRequest) (state : ClusterState) :
    (state.beginAnswer settings works changeId request).map TopologyChange.withoutId =
      (state.beginAnswer settings works "" request).map TopologyChange.withoutId := by
  cases decoded : request.targetPolicy with
  | error error => rw [begin_answer_unknown settings works decoded,
      begin_answer_unknown settings works decoded]
  | ok policy =>
      rw [begin_answer_eq settings works decoded, begin_answer_eq settings works decoded]
      split
      · rfl
      · split
        · rfl
        · rw [← TopologyChange.plan_id settings.hashing settings.digestOf state.committed
            (state.requestedConfig policy request) changeId]
          cases TopologyChange.planWithConfig settings.hashing settings.digestOf changeId
            state.committed request.targetMembers
            (state.requestedConfig policy request) with
          | error error => rfl
          | ok planned => exact admit_id settings works state planned

/-- When two orders of a request's members come to the same: its policy is unknown; or a
change is running; or the configuration changes too and the committed list was sent in
both orders or in neither; or the configuration stays and the same fault is met first,
if any. -/
def OrderBlind (state : ClusterState) (request : BeginTopologyChangeRequest)
    (left right : List Member) : Prop :=
  (∃ error, request.targetPolicy = .error error) ∨ state.transitionActive = true ∨
    ∃ policy, request.targetPolicy = .ok policy ∧
      (state.requestedConfig policy request ≠ state.committed.config ∧
          (left = state.committed.members ↔ right = state.committed.members) ∨
        state.requestedConfig policy request = state.committed.config ∧
          (TopologyChange.firstFault state.committed left).map (·.message) =
            (TopologyChange.firstFault state.committed right).map (·.message))

section Orders

variable {settings works}
variable {state : ClusterState} {request : BeginTopologyChangeRequest}
  {policy : Option WriteAckPolicy} {right : List Member}

/-- Only the committed list passes with a changed configuration, and what it comes
to is never that refusal. -/
theorem separate_order_iff (known : request.targetPolicy = .ok policy)
    (inactive : state.transitionActive = false)
    (changes : state.requestedConfig policy request ≠ state.committed.config) :
    state.beginAnswer settings works "" request = .error separately ↔ request.targetMembers ≠
      state.committed.members := by
  rw [begin_answer_eq settings works known, if_neg (by simp [inactive])]
  by_cases other : request.targetMembers = state.committed.members
  · rw [if_neg (by simp [other])]
    refine iff_of_false ?_ (by simp [other])
    cases TopologyChange.planWithConfig settings.hashing settings.digestOf "" state.committed
      request.targetMembers
      (state.requestedConfig policy request) with
    | error error =>
        intro same
        exact migration_message_apart error (congrArg Status.message (Except.error.inj same))
    | ok planned => exact admit_apart settings works state planned
  · rw [if_pos ⟨changes, other⟩]
    exact iff_of_true rfl other

theorem map_error {ε α β : Type} {result : Except ε α} {change : α → β} {error : ε} :
    result.map change = .error error ↔ result = .error error := by
  cases result with
  | error found => simp [Except.map]
  | ok value => simp [Except.map]

theorem begin_answer_kept (known : request.targetPolicy = .ok policy)
    (inactive : state.transitionActive = false)
    (keeps : state.requestedConfig policy request = state.committed.config) :
    state.beginAnswer settings works "" request =
      (TopologyChange.planWithConfig settings.hashing settings.digestOf "" state.committed
        request.targetMembers
        state.committed.config).mapError (fun error => ⟨.invalidArgument, error.message⟩) >>=
          fun planned =>
          state.admitPlan planned >>= answerStored settings works := by
  rw [begin_answer_eq settings works known, if_neg (by simp [inactive]), if_neg (by simp [keeps]), keeps]

/-- A request that keeps the configuration is refused for the first fault of its
list, or comes to what the canonical list comes to. -/
theorem kept_order_iff (known : request.targetPolicy = .ok policy)
    (same : request.targetMembers.Perm right) (inactive : state.transitionActive = false)
    (keeps : state.requestedConfig policy request = state.committed.config) :
    (state.beginAnswer settings works "" request).map TopologyChange.withoutId =
        (state.beginAnswer settings works "" { request with targetMembers := right }).map
          TopologyChange.withoutId ↔
      (TopologyChange.firstFault state.committed request.targetMembers).map (·.message) =
        (TopologyChange.firstFault state.committed right).map (·.message) := by
  have asked : state.requestedConfig policy { request with targetMembers := right } =
      state.committed.config := keeps
  have relisted : ({ request with targetMembers := right } :
      BeginTopologyChangeRequest).targetPolicy = .ok policy := known
  rw [begin_answer_kept known inactive keeps, begin_answer_kept relisted inactive asked]
  cases first : TopologyChange.firstFault state.committed request.targetMembers with
  | none =>
      have second := TopologyChange.first_fault_perm same (TopologyChange.faultless_valid first)
      rw [TopologyChange.plan_perm settings.hashing settings.digestOf state.committed
        state.committed.config same first]
      exact iff_of_true rfl (by rw [← second, first])
  | some error =>
      cases second : TopologyChange.firstFault state.committed right with
      | none =>
          have faultless := TopologyChange.first_fault_perm same.symm
              (TopologyChange.faultless_valid second)
          rw [second, first] at faultless
          exact absurd faultless (by simp)
      | some other =>
          rw [TopologyChange.plan_fault settings.hashing settings.digestOf state.committed
            state.committed.config first,
            TopologyChange.plan_fault settings.hashing settings.digestOf state.committed
              state.committed.config second]
          simp [Except.mapError, Except.map, bind, Except.bind]

/-- With a changed configuration the answers agree when the committed list was sent
in both orders, which are then one, or in neither. -/
theorem changed_order_iff (known : request.targetPolicy = .ok policy)
    (inactive : state.transitionActive = false)
    (changes : state.requestedConfig policy request ≠ state.committed.config) :
    (state.beginAnswer settings works "" request).map TopologyChange.withoutId =
        (state.beginAnswer settings works "" { request with targetMembers := right }).map
          TopologyChange.withoutId ↔
      (request.targetMembers = state.committed.members ↔ right = state.committed.members) := by
  have refusedLeft : (state.beginAnswer settings works "" request).map TopologyChange.withoutId =
      .error separately ↔
      request.targetMembers ≠ state.committed.members :=
        map_error.trans (separate_order_iff known inactive changes)
  have relisted : ({ request with targetMembers := right } :
      BeginTopologyChangeRequest).targetPolicy = .ok policy := known
  have refusedRight : (state.beginAnswer settings works "" { request with targetMembers := right }).map
        TopologyChange.withoutId = .error separately ↔ right ≠ state.committed.members :=
    map_error.trans (separate_order_iff relisted inactive changes)
  constructor
  · intro equal
    rw [equal] at refusedLeft
    exact not_iff_not.mp (refusedLeft.symm.trans refusedRight)
  · intro both
    by_cases committed : request.targetMembers = state.committed.members
    · have one : right = request.targetMembers := (both.mp committed).trans committed.symm
      rw [one]
    · rw [refusedLeft.mpr committed, refusedRight.mpr fun sent => committed (both.mpr sent)]

end Orders
end ClusterState

/-- Two orders of the members of a request come to the same answer, apart from the
generated ID, exactly when the order is one the code is blind to; a plan differs
only in the fault it reports, and never for members that are valid. -/
theorem change_request_order_iff (settings : CoordinatorSettings) (works : Bool) (state : ClusterState)
    (request : BeginTopologyChangeRequest) (right : List Member) (same : request.targetMembers.Perm right)
    (leftId rightId : String) :
    ((state.beginAnswer settings works leftId request).map TopologyChange.withoutId =
        (state.beginAnswer settings works rightId { request with targetMembers := right }).map
          TopologyChange.withoutId ↔
      state.OrderBlind request request.targetMembers right) ∧
    (∀ config, TopologyChange.planWithConfig settings.hashing settings.digestOf leftId state.committed
          request.targetMembers config =
        TopologyChange.planWithConfig settings.hashing settings.digestOf leftId state.committed
          right config ↔
      TopologyChange.firstFault state.committed request.targetMembers =
        TopologyChange.firstFault state.committed right) ∧
    (validateMembers request.targetMembers state.committed.virtualNodes = .ok () →
      TopologyChange.firstFault state.committed request.targetMembers =
        TopologyChange.firstFault state.committed right) := by
  refine ⟨?_, fun config => ?_, fun valid => ?_⟩
  · rw [ClusterState.begin_id, ClusterState.begin_id settings works rightId]
    -- The two refusals in front of the plan read nothing of the member list.
    cases decoded : request.targetPolicy with
    | error error =>
        have relisted : ({ request with targetMembers := right } :
            BeginTopologyChangeRequest).targetPolicy = .error error := decoded
        refine iff_of_true ?_ (.inl ⟨error, decoded⟩)
        rw [ClusterState.begin_answer_unknown settings works decoded,
          ClusterState.begin_answer_unknown settings works relisted]
    | ok policy =>
        have relisted : ({ request with targetMembers := right } :
            BeginTopologyChangeRequest).targetPolicy = .ok policy := decoded
        cases active : state.transitionActive with
        | true =>
            refine iff_of_true ?_ (.inr (.inl active))
            rw [ClusterState.begin_answer_eq settings works decoded,
              ClusterState.begin_answer_eq settings works relisted,
              if_pos active, if_pos active]
        | false =>
            by_cases changes : state.requestedConfig policy request = state.committed.config
            · rw [ClusterState.kept_order_iff decoded same active changes]
              simp [ClusterState.OrderBlind, decoded, active, changes]
            · rw [ClusterState.changed_order_iff decoded active changes]
              simp [ClusterState.OrderBlind, decoded, active, changes]
  · exact TopologyChange.plan_order_iff settings.hashing settings.digestOf state.committed config same
  · exact TopologyChange.first_fault_perm same valid

namespace OrderSample

def settings : CoordinatorSettings where
  hashing := JoinSample.hashing
  digestOf _ := ""
  migrationTimeout := 0
  rangeMoveConcurrency := 4
  replicaRepairConcurrency := 4
  prepublicationFailureGrace := 0

def state : ClusterState := { committed := JoinSample.joined }

/-- The members as they are, with one copy less of each key. -/
def request : BeginTopologyChangeRequest :=
  { targetMembers := JoinSample.joined.members, targetDesiredReplicationFactor := some 2 }

def swapped : List Member := [⟨"b", "http://127.0.0.1:5002"⟩, ⟨"a", "http://127.0.0.1:5001"⟩]

def reduced : TopologySnapshot := { JoinSample.joined with epoch := 3, desiredReplicationFactor := 2 }

def change : TopologyChange :=
  { changeId := "1", baseEpoch := 2, baseTopology := some JoinSample.joined, targetTopology := reduced, ranges := []
    replicaObligations := [] }

theorem built : TopologySnapshot.newWithTimings settings.hashing settings.digestOf 3 7 1
    JoinSample.joined.members
    (state.requestedConfig none request) {} = .ok reduced := by
  have points : JoinSample.joined.members.flatMap (memberAssignments settings.hashing 7 1) =
      JoinSample.joined.assignments := by
    decide +kernel
  have members : canonicalMembers JoinSample.joined.members = JoinSample.joined.members :=
    List.mergeSort_of_pairwise (by decide)
  unfold TopologySnapshot.newWithTimings canonicalAssignments
  rw [members, points, List.mergeSort_of_pairwise (by decide)]
  rfl

theorem delta : topologyDelta settings.hashing state.committed reduced = .ok ([], []) := by
  have merged : [2047, 2048, 2047, 2048].mergeSort (fun left right : Nat => decide (left ≤ right)) =
      [2047, 2047, 2048, 2048] := by
    have sorted : ([2047, 2048, 2047, 2048].mergeSort fun left right : Nat =>
        decide (left ≤ right)).Pairwise
        fun left right => decide (left ≤ right) = true := by
      apply List.pairwise_mergeSort
      · intro first second third early late
        exact decide_eq_true ((of_decide_eq_true early).trans (of_decide_eq_true late))
      · intro left right
        simpa using le_total left right
    have same : [2047, 2048, 2047, 2048].Perm [2047, 2047, 2048, 2048] := by decide
    refine ((List.mergeSort_perm _ _).trans same).eq_of_pairwise ?_ sorted (by decide)
    intro one other _ _ before after
    exact Nat.le_antisymm (of_decide_eq_true before) (of_decide_eq_true after)
  have boundaries : TopologyDelta.boundaries state.committed reduced = [2047, 2048] := by
    unfold TopologyDelta.boundaries
    exact (congrArg List.dedup merged).trans (by decide)
  unfold topologyDelta
  rw [boundaries]
  rfl

theorem planned : TopologyChange.planWithConfig settings.hashing settings.digestOf "1"
    state.committed request.targetMembers
    (state.requestedConfig none request) = .ok change := by
  unfold TopologyChange.planWithConfig
  refine (congrArg (fromTopology · >>= _) built).trans ?_
  simp only [fromTopology, Except.mapError, bind, Except.bind]
  rw [if_neg (by decide), delta]
  rfl

theorem stored : settings.storeState true
    { state with activeChange := some change, recoveryBlockReason := "" } = .ok () := by
  obtain ⟨_, ranges, _, derived, _⟩ := TopologySnapshot.derived_ranges_spec
    (TopologySnapshot.validate_sound JoinSample.joined_valid)
  have valid : ({ state with activeChange := some change, recoveryBlockReason := "" } :
      ClusterState).validate settings.hashing
      settings.digestOf = .ok () := by
    refine (ClusterState.validate_iff _ _ _).mpr ⟨JoinSample.joined_valid, Nat.zero_le _,
      Nat.zero_le _, ?_, ?_, ?_, ?_,
      ranges, derived, ⟨List.nodup_nil, ?_, List.nodup_nil, ?_⟩⟩
    · intro active found
      obtain rfl := Option.some.inj found
      refine ⟨rfl, Nat.zero_le _, Nat.zero_le _, TopologySnapshot.new_with_timings_valid built,
        by decide, rfl, rfl, rfl, rfl, ?_⟩
      intro base held
      obtain rfl := Option.some.inj held
      exact ⟨JoinSample.joined_valid, rfl, fun _ => rfl⟩
    all_goals exact fun _ member => absurd member List.not_mem_nil
  exact bind_ok_iff.mpr ⟨(), valid, rfl⟩

theorem accepted : state.beginAnswer settings true "1" request = .ok change := by
  rw [ClusterState.begin_answer_eq settings true rfl, if_neg (by decide), if_neg (by decide), planned]
  refine (congrArg (·.mapError
    (fun error : RepositoryError => (⟨.internal, error.message⟩ : Status)) |>.map fun _ => change)
    stored).trans ?_
  rfl

end OrderSample

/-- A join is planned alike however its members are listed. -/
theorem join_order_alike :
    JoinSample.joined.members.Perm OrderSample.swapped ∧
      (({ committed := JoinSample.alone } : ClusterState).beginAnswer OrderSample.settings true "1"
          { targetMembers := JoinSample.joined.members }).map TopologyChange.withoutId =
        (({ committed := JoinSample.alone } : ClusterState).beginAnswer OrderSample.settings true "2"
          { targetMembers := OrderSample.swapped }).map TopologyChange.withoutId := by
  have same : JoinSample.joined.members.Perm OrderSample.swapped := by decide
  refine ⟨same, (change_request_order_iff OrderSample.settings true { committed := JoinSample.alone }
    { targetMembers := JoinSample.joined.members } OrderSample.swapped same "1" "2").1.mpr
      (.inr (.inr ⟨none, rfl, .inr ⟨rfl, ?_⟩⟩))⟩
  decide +kernel

/-- With the copies of each key set to two, the committed members are accepted in
their stored order and refused in the other. -/
theorem swapped_members_refused :
    OrderSample.request.targetMembers.Perm OrderSample.swapped ∧
      OrderSample.state.beginAnswer OrderSample.settings true "1" OrderSample.request =
        .ok OrderSample.change ∧
      OrderSample.state.beginAnswer OrderSample.settings true "2"
        { OrderSample.request with targetMembers := OrderSample.swapped } = .error separately ∧
      (OrderSample.state.beginAnswer OrderSample.settings true "1" OrderSample.request).map
        TopologyChange.withoutId ≠
        (OrderSample.state.beginAnswer OrderSample.settings true "2"
          { OrderSample.request with targetMembers := OrderSample.swapped }).map
              TopologyChange.withoutId := by
  have refused : OrderSample.state.beginAnswer OrderSample.settings true "2"
      { OrderSample.request with targetMembers := OrderSample.swapped } = .error separately := by
    rw [ClusterState.begin_answer_eq OrderSample.settings true rfl, if_neg (by decide),
      if_pos (by decide)]
  refine ⟨by decide, OrderSample.accepted, refused, ?_⟩
  rw [OrderSample.accepted, refused]
  exact fun same => absurd same (by simp [Except.map])

end Hashring
