import Hashring.ChangeRuns
import Hashring.Transition

/-! The running coordinator: requests that one critical section answers, failure
passes, at most one operation under the execution lock, the passing of time, and
restarts. Between two effects of a task anything else may happen. -/
namespace Hashring

inductive LockedOperation where
  | execute (change : ChangeIdentity) (retryTransient : Bool)
  | recover (change : ChangeIdentity) (failedNodeId : String)
  | repair

def LockedOperation.program (settings : CoordinatorSettings) : LockedOperation → Coordination Unit
  | .execute change retryTransient => do
      let _ ← Coordination.executeChange settings change retryTransient
  | .recover change failedNodeId => Coordination.recoverPendingChangeFailure settings change failedNodeId
  | .repair => do
      let _ ← Coordination.resumeReplicaRepairs settings

structure CoordinatorMachine where
  system : CoordinatorSystem
  holder : Option (Program CoordinatorEffect (Except Status Unit)) := none
  passes : List (Program CoordinatorEffect (Except Status FailurePass)) := []
  /-- Recoveries that a pass asked for. -/
  confirmed : List (ChangeIdentity × String) := []

namespace CoordinatorSystem

def renew (request : RenewNodeLeaseRequest) (system : CoordinatorSystem) : CoordinatorSystem :=
  match system.service.renewNodeLease request with
  | (.error _, service) => { system with service }
  | (.ok _, service) => { system with
      service
      record := { system.record with
        granted := (service.memory.leaseGrants.lookup request.nodeId).toList.map (fun grant =>
          { issuedAt := system.service.now, nodeId := request.nodeId, grant }) ++
            system.record.granted } }

def report (now : Instant) (request : ReportPeerHealthRequest) (system : CoordinatorSystem) :
    CoordinatorSystem :=
  match system.service.reportPeerHealth now request with
  | (.error _, service) => { system with service }
  | (.ok _, service) => { system with
      service
      record := { system.record with
        reported := { seenAt := now, peerNodeId := request.peerNodeId, reporterNodeId := request.reporterNodeId
                      reachable := request.reachable } :: system.record.reported } }

/-- A new process over the state that was stored last. -/
def restart (state : ClusterState) (now : Instant) (unixMillis : Nat) (system : CoordinatorSystem) :
    CoordinatorSystem :=
  { system with service := Coordinator.start state now unixMillis, record := {}, observed := [] }

end CoordinatorSystem

/-- Who makes a step. -/
inductive CoordinatorEvent where
  | clock
  | request
  | pass
  | operation
  | restart
  deriving DecidableEq

namespace CoordinatorMachine

variable (settings : CoordinatorSettings)

inductive Step : CoordinatorMachine → CoordinatorEvent → CoordinatorMachine → Prop
  | clock {machine : CoordinatorMachine} {now unixMillis : Nat}
    (later : machine.system.service.now ≤ now) :
      Step machine .clock { machine with
        system := { machine.system with service := { machine.system.service with now, unixMillis } } }
  | begin {machine : CoordinatorMachine} {changeId : String} {request : BeginTopologyChangeRequest}
      {answer : Except Status TopologyChange} {after : CoordinatorSystem}
      (submits : machine.system.Submits settings
        (machine.system.state.beginTopologyChange settings changeId request) answer
        after) : Step machine .request { machine with system := after }
  | register {machine : CoordinatorMachine} {nodeId processInstanceId : String}
      {answer : Except Status Unit}
      {after : CoordinatorSystem}
      (submits : machine.system.Submits settings
        (machine.system.state.registerNode nodeId processInstanceId) answer after) :
      Step machine .request { machine with system := after }
  | blockReason {machine : CoordinatorMachine} {reason : String} {answer : Except Status Unit}
      {after : CoordinatorSystem}
      (submits : machine.system.Submits settings
        (machine.system.state.setRecoveryBlockReason reason) answer after) :
      Step machine .request { machine with system := after }
  | renew {machine : CoordinatorMachine} (request : RenewNodeLeaseRequest) :
      Step machine .request { machine with system := machine.system.renew request }
  | report {machine : CoordinatorMachine} {now : Instant} (request : ReportPeerHealthRequest)
      (past : now ≤ machine.system.service.now) :
      Step machine .request { machine with system := machine.system.report now request }
  | startPass {machine : CoordinatorMachine} :
      Step machine .pass { machine with passes := (Coordination.runFailurePass settings).run :: machine.passes }
  | pass {machine : CoordinatorMachine}
      {task next : Program CoordinatorEffect (Except Status FailurePass)} {index : Nat}
      {after : CoordinatorSystem} (picked : machine.passes[index]? = some task)
      (moves : task.Moves (CoordinatorEffect.Handles settings) machine.system next after) :
      Step machine .pass { machine with system := after, passes := machine.passes.set index next }
  | passEnded {machine : CoordinatorMachine} {index : Nat} {change : ChangeIdentity}
      {failedNodeId : String}
      (ended : machine.passes[index]? = some (.done (.ok (.recover change failedNodeId)))) :
      Step machine .pass { machine with
        passes := machine.passes.eraseIdx index, confirmed :=
          (change, failedNodeId) :: machine.confirmed }
  | passDropped {machine : CoordinatorMachine} (index : Nat) :
      Step machine .pass { machine with passes := machine.passes.eraseIdx index }
  | start {machine : CoordinatorMachine} {operation : LockedOperation} (free : machine.holder = none)
      (asked : ∀ change failedNodeId, operation = .recover change failedNodeId →
        (change, failedNodeId) ∈ machine.confirmed) :
      Step machine .operation { machine with holder := some (operation.program settings).run }
  | operate {machine : CoordinatorMachine} {task next : Program CoordinatorEffect (Except Status Unit)}
      {after : CoordinatorSystem} (holds : machine.holder = some task)
      (moves : task.Moves (CoordinatorEffect.Handles settings) machine.system next after) :
      Step machine .operation { machine with system := after, holder := some next }
  | release {machine : CoordinatorMachine} : Step machine .operation { machine with holder := none }
  | restart {machine : CoordinatorMachine} {works : Bool} {bootstrap : Option TopologySnapshot}
      {state : ClusterState}
      {now unixMillis : Nat}
      (loads : settings.loadOrInitialize works (some machine.system.stored) bootstrap = .ok state) :
      Step machine .restart { system := machine.system.restart state now unixMillis }

def boot (state : ClusterState) (now : Instant) (unixMillis : Nat) : CoordinatorMachine :=
  { system := { service := Coordinator.start state now unixMillis, stored := state, handed := [state] } }

end CoordinatorMachine

namespace CoordinatorSystem

open ClusterState

variable {settings : CoordinatorSettings}

theorem Kept.clock {system : CoordinatorSystem} {now unixMillis : Nat} (kept : Kept settings system)
    (later : system.service.now ≤ now) :
    Kept settings { system with service := { system.service with now, unixMillis } } := by
  refine ⟨kept.sound, kept.stored, kept.handed, fun issued listed => ?_, kept.reports⟩
  obtain ⟨expiry, past, epoch, current⟩ := kept.grants issued listed
  exact ⟨expiry, past.trans later, epoch, current⟩

/-- A renewal either leaves the service or grants a lease to the registered process
of a member. -/
theorem renew_cases (request : RenewNodeLeaseRequest) (system : CoordinatorSystem) :
    system.renew request = system ∨
      ∃ grant : NodeLeaseGrant, grant.processInstanceId = request.processInstanceId ∧
        grant.epoch = system.state.committed.epoch ∧ grant.expiresAt = system.service.now +
          system.memory.leaseDuration ∧
        request.nodeId ∈ system.state.committed.members.map (·.nodeId) ∧
        system.state.processInstances.lookup request.nodeId = some request.processInstanceId ∧
        system.renew request = { system with
          service := { system.service with memory := { system.memory with
            leaseGrants := system.memory.leaseGrants.insert request.nodeId grant } }
          record := { system.record with
            granted := { issuedAt := system.service.now, nodeId := request.nodeId, grant } ::
                system.record.granted } } := by
  unfold renew Coordinator.renewNodeLease
  by_cases valid : system.service.state.renewalValid request = true
  · rw [if_neg (by simp [valid])]
    cases followers : system.service.state.admittedFollowers request.nodeId with
    | error status => exact .inl rfl
    | ok admitted =>
        refine .inr ⟨{ processInstanceId := request.processInstanceId, epoch := system.state.committed.epoch
                       expiresAt := system.service.now + system.memory.leaseDuration }, rfl, rfl,
                         rfl, ?_, ?_, ?_⟩
        · simp only [renewalValid, decide_eq_true_eq, not_or, not_not] at valid
          obtain ⟨member, listed, same⟩ := List.any_eq_true.mp valid.2.2.2.1
          exact List.mem_map.mpr ⟨member, listed, of_decide_eq_true same⟩
        · simp only [renewalValid, decide_eq_true_eq, not_or, not_not] at valid
          exact valid.2.2.2.2.1
        · simp [memory, state]
  · rw [if_pos valid]
    exact .inl rfl

theorem renew_state (request : RenewNodeLeaseRequest) (system : CoordinatorSystem) :
    (system.renew request).state = system.state := by
  rcases renew_cases request system with same | ⟨grant, _, _, _, _, _, same⟩
  · rw [same]
  · rw [same]
    rfl

theorem Kept.renew {system : CoordinatorSystem} (kept : Kept settings system)
    (request : RenewNodeLeaseRequest) :
    Kept settings (system.renew request) := by
  rcases renew_cases request system with same | ⟨grant, process, epoch, expires, member, registered, same⟩
  · rw [same]
    exact kept
  · rw [same]
    refine ⟨kept.sound, kept.stored, kept.handed, fun issued listed => ?_, kept.reports⟩
    have latest : ∀ nodeId, (system.memory.leaseGrants.insert request.nodeId grant).lookup nodeId =
        if nodeId = request.nodeId then some grant else system.memory.leaseGrants.lookup nodeId :=
      fun nodeId => FiniteMap.lookup_insert_if _ _ _ _
    rcases List.mem_cons.mp listed with rfl | old
    · refine ⟨expires, le_rfl, epoch.le,
        fun _ => ⟨member, registered.trans (congrArg some process.symm), grant, ?_, rfl, rfl,
        le_rfl⟩⟩
      exact (latest _).trans (if_pos rfl)
    · obtain ⟨expiry, past, earlier, current⟩ := kept.grants issued old
      refine ⟨expiry, past, earlier, fun now => ?_⟩
      obtain ⟨inside, held, remembered, found, sameEpoch, sameProcess, longer⟩ := current now
      by_cases renewed : issued.nodeId = request.nodeId
      · refine ⟨inside, held, grant, (latest _).trans (if_pos renewed), epoch.trans now.symm, ?_, ?_⟩
        · rw [renewed, registered] at held
          exact process.trans (Option.some.inj held)
        · rw [expiry, expires]
          exact Nat.add_le_add_right past _
      · exact ⟨inside, held, remembered, (latest _).trans ((if_neg renewed).trans found), sameEpoch,
          sameProcess, longer⟩

theorem report_cases (now : Instant) (request : ReportPeerHealthRequest) (system : CoordinatorSystem) :
    system.report now request = system ∨
      system.report now request = { system with
        service := { system.service with memory := { system.memory with
          peerFailures := if request.reachable then
              system.memory.peerFailures.erase (request.peerNodeId, request.reporterNodeId)
            else system.memory.peerFailures.insert (request.peerNodeId, request.reporterNodeId)
              (Coordinator.observeFailure now
                (system.memory.peerFailures.lookup (request.peerNodeId, request.reporterNodeId))) } }
        record := { system.record with
          reported := { seenAt := now, peerNodeId := request.peerNodeId, reporterNodeId := request.reporterNodeId
                        reachable := request.reachable } :: system.record.reported } } := by
  unfold report Coordinator.reportPeerHealth
  by_cases matching : Coordinator.reportMatches request system.service.state = true
  · rw [if_neg (by simp [matching])]
    by_cases leased : Coordinator.reporterLeased request system.service.memory.leaseGrants now = true
    · rw [if_neg (by simp [leased])]
      exact .inr rfl
    · rw [if_pos leased]
      exact .inl rfl
  · rw [if_pos matching]
    exact .inl rfl

theorem report_state (now : Instant) (request : ReportPeerHealthRequest) (system : CoordinatorSystem) :
    (system.report now request).state = system.state := by
  rcases report_cases now request system with same | same
  · rw [same]
  · rw [same]
    rfl

theorem reports_of_other {record : CoordinatorRecord} {report : AcceptedReport} {key : String × String}
    (other : (report.peerNodeId, report.reporterNodeId) ≠ key) :
    { record with reported := report :: record.reported }.reportsOf key = record.reportsOf key := by
  unfold CoordinatorRecord.reportsOf
  rw [List.filter_cons_of_neg]
  intro same
  obtain ⟨peer, reporter⟩ := of_decide_eq_true same
  exact other (Prod.ext peer reporter)

theorem reports_of_same {record : CoordinatorRecord} {report : AcceptedReport} :
    { record with reported := report :: record.reported }.reportsOf
      (report.peerNodeId, report.reporterNodeId) =
      (report.seenAt, report.reachable) ::
          record.reportsOf (report.peerNodeId, report.reporterNodeId) := by
  unfold CoordinatorRecord.reportsOf
  rw [List.filter_cons_of_pos, List.map_cons]
  exact decide_eq_true ⟨rfl, rfl⟩

theorem observe_failure_outage {now : Instant} {reports : List (Instant × Bool)}
    {known : Option PeerFailure} (before : ∀ failure, known = some failure → Outage reports failure) :
    Outage ((now, false) :: reports) (Coordinator.observeFailure now known) := by
  cases known with
  | none => exact .starts
  | some failure =>
      unfold Coordinator.observeFailure
      by_cases stale : failure.lastSeen + peerFailureReportFreshness < now
      · simp only [stale, if_true]
        exact .starts
      · simp only [stale, if_false]
        exact .goesOn (before failure rfl) (Nat.le_of_not_lt stale)

theorem Kept.report {system : CoordinatorSystem} (kept : Kept settings system) (now : Instant)
    (request : ReportPeerHealthRequest) : Kept settings (system.report now request) := by
  rcases report_cases now request system with same | same
  · rw [same]
    exact kept
  · rw [same]
    refine ⟨kept.sound, kept.stored, kept.handed, fun issued listed => ?_, fun key failure found => ?_⟩
    · obtain ⟨expiry, past, epoch, current⟩ := kept.grants issued listed
      exact ⟨expiry, past, epoch, current⟩
    · by_cases touched : (request.peerNodeId, request.reporterNodeId) = key
      · subst touched
        cases reachable : request.reachable with
        | true =>
            simp only [memory, reachable, if_true, FiniteMap.lookup_erase_if] at found
            exact absurd found (by simp)
        | false =>
            simp only [memory, reachable, Bool.false_eq_true, if_false, FiniteMap.lookup_insert_if,
              if_true] at found
            obtain rfl := Option.some.inj found
            rw [reports_of_same]
            exact observe_failure_outage fun failure known => kept.reports _ failure known
      · rw [reports_of_other touched]
        apply kept.reports key failure
        cases reachable : request.reachable with
        | true =>
            simp only [memory, reachable, if_true, FiniteMap.lookup_erase_if, Ne.symm touched,
              if_false] at found
            exact found
        | false =>
            simp only [memory, reachable, Bool.false_eq_true, if_false, FiniteMap.lookup_insert_if,
              Ne.symm touched] at found
            exact found

theorem load_state_same {state loaded : ClusterState} (sound : Sound settings state)
    (loads : settings.loadState state = .ok loaded) : loaded = state := by
  unfold CoordinatorSettings.loadState at loads
  obtain ⟨reconciled, same, loads⟩ := bind_ok_iff.mp loads
  obtain rfl := Except.ok.inj (sound.settled.symm.trans same)
  obtain ⟨_, _, loads⟩ := bind_ok_iff.mp loads
  exact (Except.ok.inj loads).symm

theorem load_state_ok {state : ClusterState} (sound : Sound settings state) :
    settings.loadState state = .ok state := by
  unfold CoordinatorSettings.loadState
  exact bind_ok_iff.mpr ⟨state, sound.settled,
    bind_ok_iff.mpr ⟨(), (validate_iff _ _ _).mpr sound.valid, rfl⟩⟩

theorem Kept.restart {system : CoordinatorSystem} {state : ClusterState} {works : Bool}
    {bootstrap : Option TopologySnapshot} {now unixMillis : Nat} (kept : Kept settings system)
    (loads : settings.loadOrInitialize works (some system.stored) bootstrap = .ok state) :
    Kept settings (system.restart state now unixMillis) ∧ state = system.state := by
  have same : state = system.state := by
    rw [kept.stored] at loads
    unfold CoordinatorSettings.loadOrInitialize at loads
    cases bootstrap with
    | none => exact load_state_same kept.sound loads
    | some topology =>
        obtain ⟨loaded, first, loads⟩ := bind_ok_iff.mp loads
        simp only [unless_thrown_ok] at loads
        obtain rfl := Except.ok.inj loads.2
        exact load_state_same kept.sound first
  subst same
  refine ⟨⟨kept.sound, kept.stored, kept.handed, fun _ member => absurd member List.not_mem_nil,
    fun key failure found => ?_⟩,
    rfl⟩
  exact absurd found (by simp [CoordinatorSystem.restart, memory, Coordinator.start])

end CoordinatorSystem
end Hashring
