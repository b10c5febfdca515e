import Hashring.Publication

/-! The coordinator with its repository, and what each effect of a task may do to
them. The record of grants and reports, the list of observations and the list of
states handed to the repository are kept for the proofs only. -/
namespace Hashring

structure IssuedGrant where
  issuedAt : Instant
  nodeId : String
  grant : NodeLeaseGrant

structure AcceptedReport where
  seenAt : Instant
  peerNodeId : String
  reporterNodeId : String
  reachable : Bool

structure CoordinatorRecord where
  granted : List IssuedGrant := []
  reported : List AcceptedReport := []

/-- What one observation of a task saw. -/
structure Moment where
  service : Coordinator
  record : CoordinatorRecord

structure CoordinatorSystem where
  service : Coordinator
  stored : ClusterState
  handed : List ClusterState := []
  record : CoordinatorRecord := {}
  observed : List Moment := []

namespace CoordinatorSystem

def state (system : CoordinatorSystem) : ClusterState := system.service.state

def memory (system : CoordinatorSystem) : CoordinatorMemory := system.service.memory

def moment (system : CoordinatorSystem) : Moment := { service := system.service, record := system.record }

/-- A state passed to `store_state`. -/
def handOver (next : ClusterState) (system : CoordinatorSystem) : CoordinatorSystem :=
  { system with handed := next :: system.handed }

def adopt (next : ClusterState) (system : CoordinatorSystem) : CoordinatorSystem :=
  { system with handed := next :: system.handed, stored := next, service := { system.service with state := next } }

variable (settings : CoordinatorSettings)

/-- A critical section over the state, which changes only once its successor is
stored; `works` is whether the database accepts the write. -/
inductive Submits {α : Type} (system : CoordinatorSystem) : Decision α → Except Status α →
    CoordinatorSystem → Prop
  | refused {status : Status} : Submits system (.error status) (.error status) system
  | unchanged {value : α} : Submits system (.ok (none, value)) (.ok value) system
  | failed {next : ClusterState} {value : α} {error : RepositoryError} (works : Bool)
      (fails : settings.storeState works next = .error error) :
      Submits system (.ok (some next, value)) (.error ⟨.internal, error.message⟩) (system.handOver next)
  | stored {next : ClusterState} {value : α} (works : Bool)
      (accepted : settings.storeState works next = .ok ()) :
      Submits system (.ok (some next, value)) (.ok value) (system.adopt next)

end CoordinatorSystem

def NodeEffect.Answers : {β : Type} → NodeEffect β → β → Prop
  | _, .call _ _ (.sourceRangeDigest _), answer => ∀ digest, answer = .ok digest →
    digest.digest.isEmpty = false
  | _, .call _ _ (.destinationRangeDigest _), answer => ∀ digest, answer = .ok digest →
      digest.digest.isEmpty = false
  | _, _, _ => True

def CoordinatorEffect.Handles (settings : CoordinatorSettings) :
    {β : Type} → CoordinatorEffect β → CoordinatorSystem → β → CoordinatorSystem → Prop
  | _, .node effect, system, answer, after => effect.Answers answer ∧ after = system
  | _, .observe read, system, answer, after =>
      answer = read system.service ∧ after = { system with observed := system.moment :: system.observed }
  | _, .modify change, system, answer, after =>
      answer = (change system.memory).1 ∧
        after = { system with service := { system.service with memory := (change system.memory).2 } }
  | _, .update decide, system, answer, after => system.Submits settings (decide system.service)
      answer after
  | _, .sleepUntil deadline, system, _, after => deadline ≤ system.service.now ∧ after = system
  | _, .freshId, system, _, after => after = system

def CoordinatorRecord.reportsOf (record : CoordinatorRecord) (key : String × String) :
    List (Instant × Bool) :=
  (record.reported.filter fun report => report.peerNodeId = key.1 ∧
      report.reporterNodeId = key.2).map fun report =>
    (report.seenAt, report.reachable)

/-- The newest reports say unreachable, from the first on with no gap beyond the
freshness bound and no reachable one in between. -/
inductive Outage : List (Instant × Bool) → PeerFailure → Prop
  | starts {seenAt : Instant} {earlier : List (Instant × Bool)} :
      Outage ((seenAt, false) :: earlier) { firstSeen := seenAt, lastSeen := seenAt }
  | goesOn {seenAt : Instant} {earlier : List (Instant × Bool)} {failure : PeerFailure}
      (before : Outage earlier failure)
      (fresh : seenAt ≤ failure.lastSeen + peerFailureReportFreshness) :
      Outage ((seenAt, false) :: earlier) { firstSeen := failure.firstSeen, lastSeen := seenAt }

namespace CoordinatorSystem

open ClusterState

/-- An issued lease of the committed epoch: its node is a member with that process,
and no older than the one still remembered. -/
structure GrantKept (system : CoordinatorSystem) (issued : IssuedGrant) : Prop where
  expiry : issued.grant.expiresAt = issued.issuedAt + system.memory.leaseDuration
  past : issued.issuedAt ≤ system.service.now
  epoch : issued.grant.epoch ≤ system.state.committed.epoch
  current : issued.grant.epoch = system.state.committed.epoch →
    issued.nodeId ∈ system.state.committed.members.map (·.nodeId) ∧
      system.state.processInstances.lookup issued.nodeId = some issued.grant.processInstanceId ∧
      ∃ latest, system.memory.leaseGrants.lookup issued.nodeId = some latest ∧
        latest.epoch = issued.grant.epoch ∧
        latest.processInstanceId = issued.grant.processInstanceId ∧ issued.grant.expiresAt ≤
          latest.expiresAt

structure Kept (settings : CoordinatorSettings) (system : CoordinatorSystem) : Prop where
  sound : Sound settings system.state
  stored : system.stored = system.state
  handed : ∀ state ∈ system.handed, state.validate settings.hashing settings.digestOf = .ok ()
  grants : ∀ issued ∈ system.record.granted, system.GrantKept issued
  reports : ∀ key failure, system.memory.peerFailures.lookup key = some failure →
    Outage (system.record.reportsOf key) failure

/-- What an effect of a task without the execution lock may do. -/
structure Quietly (before after : CoordinatorSystem) : Prop where
  shared : Shared before.state after.state
  advance : Advance before.state after.state

theorem Quietly.same {before after : CoordinatorSystem} (same : after.state = before.state) :
    Quietly before after :=
  ⟨.same_change (congrArg _ same) (congrArg _ same), .same_change (congrArg _ same) (congrArg _ same)
    (.same (congrArg _ same))⟩

variable {settings : CoordinatorSettings}

/-- The epoch only grows, so an older grant is never of the committed epoch again. -/
theorem GrantKept.advance {system after : CoordinatorSystem} {issued : IssuedGrant}
    (kept : system.GrantKept issued) (advance : Advance system.state after.state)
    (memory : after.memory = system.memory)
    (now : after.service.now = system.service.now) : after.GrantKept issued := by
  have epochs : system.state.committed.epoch ≤ after.state.committed.epoch := by
    rcases advance.committed with same | ⟨grown, _⟩
    · rw [same]
    · omega
  refine ⟨memory ▸ kept.expiry, now ▸ kept.past, kept.epoch.trans epochs, fun current => ?_⟩
  rcases advance.committed with same | ⟨grown, _⟩
  · rw [same] at current
    obtain ⟨member, process, latest⟩ := kept.current current
    rw [same, memory]
    exact ⟨member, advance.processes same _ member _ process, latest⟩
  · have old := kept.epoch
    omega

theorem Kept.hand_over {system : CoordinatorSystem} {next : ClusterState} (kept : Kept settings system)
    (sound : Sound settings next) : Kept settings (system.handOver next) := by
  refine ⟨kept.sound, kept.stored, fun state member => ?_, fun issued member => ?_, kept.reports⟩
  · rcases List.mem_cons.mp member with rfl | old
    · exact (validate_iff _ _ _).mpr sound.valid
    · exact kept.handed state old
  · obtain ⟨expiry, past, epoch, current⟩ := kept.grants issued member
    exact ⟨expiry, past, epoch, current⟩

theorem Kept.adopt {system : CoordinatorSystem} {next : ClusterState} (kept : Kept settings system)
    (sound : Sound settings next) (advance : Advance system.state next) :
    Kept settings (system.adopt next) := by
  refine ⟨sound, rfl, (kept.hand_over sound).handed, fun issued member => ?_, kept.reports⟩
  exact (kept.grants issued member).advance advance rfl rfl

theorem Submits.kept {α : Type} {system after : CoordinatorSystem} {decision : Decision α}
    {answer : Except Status α}
    (submits : system.Submits settings decision answer after) (kept : Kept settings system)
    (decided : ∀ next value, decision = .ok (some next, value) → Sound settings next ∧
      Advance system.state next) :
    Kept settings after := by
  cases submits with
  | refused => exact kept
  | unchanged => exact kept
  | failed works fails => exact kept.hand_over (decided _ _ rfl).1
  | stored works accepted => exact kept.adopt (decided _ _ rfl).1 (decided _ _ rfl).2

theorem Submits.answered {α : Type} {system after : CoordinatorSystem} {decision : Decision α}
    {answer : Except Status α} (submits : system.Submits settings decision answer after) :
    (after.state = system.state ∨ ∃ value, decision = .ok (some after.state, value) ∧
      answer = .ok value) ∧
      (∀ value, answer = .ok value → ∃ stored, decision = .ok (stored, value) ∧
        after.state = stored.getD system.state) ∧
      ∀ error, answer = .error error → after.state = system.state := by
  cases submits with
  | refused => exact ⟨.inl rfl, fun _ same => absurd same (by simp), fun _ _ => rfl⟩
  | unchanged =>
      refine ⟨.inl rfl, fun value same => ⟨none, ?_, rfl⟩, fun _ _ => rfl⟩
      rw [Except.ok.inj same]
  | failed works fails => exact ⟨.inl rfl, fun _ same => absurd same (by simp), fun _ _ => rfl⟩
  | stored works accepted =>
      rename_i next value
      refine ⟨.inr ⟨_, rfl, rfl⟩, fun found same => ⟨some next, ?_, rfl⟩, fun _ same =>
        absurd same (by simp)⟩
      rw [Except.ok.inj same]

theorem Kept.observe {system : CoordinatorSystem} (kept : Kept settings system) :
    Kept settings { system with observed := system.moment :: system.observed } := by
  refine ⟨kept.sound, kept.stored, kept.handed, fun issued member => ?_, kept.reports⟩
  obtain ⟨expiry, past, epoch, current⟩ := kept.grants issued member
  exact ⟨expiry, past, epoch, current⟩

structure SameEvidence (before after : CoordinatorMemory) : Prop where
  grants : after.leaseGrants = before.leaseGrants
  failures : after.peerFailures = before.peerFailures
  duration : after.leaseDuration = before.leaseDuration

theorem Kept.remember {system : CoordinatorSystem} {memory : CoordinatorMemory}
    (kept : Kept settings system) (same : SameEvidence system.memory memory) :
    Kept settings { system with service := { system.service with memory } } := by
  refine ⟨kept.sound, kept.stored, kept.handed, fun issued member => ?_, fun key failure found => ?_⟩
  · obtain ⟨expiry, past, epoch, current⟩ := kept.grants issued member
    refine ⟨expiry.trans (congrArg (issued.issuedAt + ·) same.duration.symm), past, epoch, fun now => ?_⟩
    obtain ⟨inside, process, latest, found, rest⟩ := current now
    refine ⟨inside, process, latest, ?_, rest⟩
    exact (congrArg (·.lookup issued.nodeId) same.grants).trans found
  · apply kept.reports key failure
    exact (congrArg (·.lookup key) same.failures).symm.trans found

/-- Only what is no member any more may be forgotten. -/
theorem Kept.forget {system : CoordinatorSystem} {nodeId : String} (kept : Kept settings system)
    (gone : nodeId ∉ system.state.committed.members.map (·.nodeId)) :
    Kept settings { system with service := { system.service with
      memory := Coordination.forgetNode nodeId system.service.memory } } := by
  refine ⟨kept.sound, kept.stored, kept.handed, fun issued member => ?_, fun key failure found => ?_⟩
  · obtain ⟨expiry, past, epoch, current⟩ := kept.grants issued member
    refine ⟨expiry, past, epoch, fun now => ?_⟩
    obtain ⟨inside, process, latest, found, rest⟩ := current now
    have different : issued.nodeId ≠ nodeId := by
      rintro rfl
      exact gone inside
    refine ⟨inside, process, latest, ?_, rest⟩
    exact (FiniteMap.lookup_erase_if _ _ _).trans ((if_neg different).trans found)
  · apply kept.reports key failure
    have retained := (FiniteMap.lookup_retain _ _ key).symm.trans found
    exact (Option.filter_eq_some_iff.mp retained).1

end CoordinatorSystem

/-! Programs that anybody may run at any time. -/

namespace Coordination

open CoordinatorSystem ClusterState

variable (settings : CoordinatorSettings)

def Harmless {α : Type} (program : Coordination α) (good : α → Prop) : Prop :=
  Program.Returns (CoordinatorEffect.Handles settings) (Kept settings) Quietly program good

variable {settings} {α : Type}

theorem harmless_calls {program : NodeCalls α} {good : α → Prop}
    (yields : Program.Yields NodeEffect.Answers program good) :
    Harmless settings (calls program) good := by
  refine Program.returns_embedded ?_ (fun _ => .same rfl) yields
  intro γ effect system answer after handled
  exact handled

theorem harmless_talk (program : NodeCalls α) : Harmless settings (calls program) fun _ => True :=
  harmless_calls (Program.yields_anything program)

theorem harmless_observe {read : Coordinator → α} {good : α → Prop}
    (seen : ∀ system, Kept settings system → good (read system.service)) :
    Harmless settings (observe read) good := by
  refine Program.returns_lift fun system kept answer after handled => ?_
  obtain ⟨rfl, rfl⟩ := handled
  exact ⟨kept.observe, .same rfl, seen system kept⟩

theorem harmless_look {read : Coordinator → α} : Harmless settings (observe read) fun _ => True :=
  harmless_observe fun _ _ => trivial

theorem harmless_read : Harmless settings readState (Sound settings) :=
  harmless_observe fun _ kept => kept.sound

theorem harmless_modify {change : CoordinatorMemory → α × CoordinatorMemory} {good : α → Prop}
    (same : ∀ memory, SameEvidence memory (change memory).2) (found : ∀ memory, good (change memory).1) :
    Harmless settings (modify change) good := by
  refine Program.returns_lift fun system kept answer after handled => ?_
  obtain ⟨rfl, rfl⟩ := handled
  exact ⟨kept.remember (same _), .same rfl, found _⟩

theorem harmless_update {decide : Coordinator → Decision α} {good : α → Prop}
    (quiet : ∀ coordinator, Sound settings coordinator.state → ∀ next value,
      decide coordinator = .ok (some next, value) → Quiet settings coordinator.state next)
    (result : ∀ coordinator stored value, Sound settings coordinator.state →
      decide coordinator = .ok (stored, value) →
      good value) : Harmless settings (update decide) good := by
  refine Program.returns_call fun system kept answer after handled => ?_
  have quietly := quiet system.service kept.sound
  obtain ⟨states, answers, _⟩ := Submits.answered handled
  refine ⟨Submits.kept handled kept fun next value decided => ⟨(quietly next value decided).sound,
    (quietly next value decided).advance⟩, ?_, fun value same => ?_⟩
  · rcases states with same | ⟨value, decided, _⟩
    · exact .same same
    · exact ⟨(quietly _ _ decided).shared, (quietly _ _ decided).advance⟩
  · obtain ⟨stored, decided, _⟩ := answers value same
    exact result system.service stored value kept.sound decided

theorem harmless_sleep {deadline : Instant} : Harmless settings (sleepUntil deadline) fun _ => True := by
  refine Program.returns_lift fun system kept answer after handled => ?_
  obtain ⟨_, rfl⟩ := handled
  exact ⟨kept, .same rfl, trivial⟩

theorem harmless_fresh : Harmless settings freshId fun _ => True := by
  refine Program.returns_lift fun system kept answer after handled => ?_
  obtain rfl : after = system := handled
  exact ⟨kept, .same rfl, trivial⟩

theorem harmless_except {result : Except Status α} {good : α → Prop}
    (holds : ∀ value, result = .ok value → good value) :
    Harmless settings (liftExcept result) good := by
  cases result with
  | error error => exact Program.returns_throw
  | ok value => exact Program.returns_pure (holds value rfl)

theorem harmless_deadline : Harmless settings (newDeadline settings) fun _ => True :=
  harmless_look

end Coordination
end Hashring
