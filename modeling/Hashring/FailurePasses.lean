import Hashring.QuietTasks

/-! A failure pass up to the operation that needs the execution lock. It changes
the state in one place only, where it fences a member and plans its removal. -/
namespace Hashring

def FailurePass.Named : FailurePass → Prop
  | .recover _ failedNodeId => failedNodeId.isEmpty = false
  | _ => True

namespace Coordination

open CoordinatorSystem ClusterState Program

variable {settings : CoordinatorSettings}

theorem mem_nodes_of {ν : Type} {entries : List (String × ν)} {entry : String × ν}
    (member : entry ∈ nodesOf entries) :
    entry ∈ entries := by
  obtain ⟨nodeId, _, found⟩ := List.mem_filterMap.mp member
  exact List.mem_reverse.mp (List.mem_of_find?_eq_some found)

/-- What holds of a change that was read as the active one: its nodes have names,
and a failed node is not in its target. -/
structure ChangeNamed (change : TopologyChange) : Prop where
  ranges : ∀ range ∈ change.ranges, range.sourceNodeId.isEmpty = false
  base : ∀ base, change.baseTopology = some base → ∀ member ∈ base.members, member.nodeId.isEmpty = false
  target : ∀ member ∈ change.targetTopology.members, member.nodeId.isEmpty = false
  failed : ∀ nodeId, change.failedNodeId = some nodeId → nodeId ∉ change.targetTopology.members.map
    (·.nodeId)

theorem active_named {state : ClusterState} {change : TopologyChange} (sound : Sound settings state)
    (active : state.activeChange = some change) : ChangeNamed change := by
  have valid := sound.valid.change change active
  exact ⟨(sound.change change active).named, fun base same _ member =>
    member_named (valid.base base same).1 member,
    fun _ member => member_named valid.target member, (sound.change change active).failed⟩

theorem change_participant_named {state : ClusterState} {change : TopologyChange}
    (named : ChangeNamed change)
    {entry : Member × String} (member : entry ∈ state.changeParticipants change) :
    entry.1.nodeId.isEmpty = false := by
  unfold changeParticipants at member
  obtain ⟨⟨nodeId, participant⟩, listed, found⟩ := List.mem_filterMap.mp member
  obtain ⟨processInstanceId, _, rfl⟩ := Option.map_eq_some_iff.mp found
  rcases List.mem_append.mp (mem_nodes_of listed) with old | new
  · obtain ⟨participant, inside, same⟩ := List.mem_map.mp old
    obtain ⟨rfl, rfl⟩ := Prod.mk.inj same
    split at inside
    · exact absurd inside List.not_mem_nil
    · rename_i base same
      split at inside
      · exact absurd inside List.not_mem_nil
      · exact named.base base same participant inside
  · obtain ⟨participant, inside, same⟩ := List.mem_map.mp new
    obtain ⟨rfl, rfl⟩ := Prod.mk.inj same
    exact named.target participant inside

theorem probe_window_inside (candidates : List (Member × String)) (memory : CoordinatorMemory) :
    ∀ entry ∈ (probeWindow candidates memory).1, entry ∈ candidates := by
  intro entry member
  unfold probeWindow at member
  split at member
  · exact member
  · exact List.mem_rotate.mp (List.mem_of_mem_take member)

theorem probe_window_same (candidates : List (Member × String)) (memory : CoordinatorMemory) :
    SameEvidence memory (probeWindow candidates memory).2 := by
  unfold probeWindow
  split
  · exact ⟨rfl, rfl, rfl⟩
  · exact ⟨rfl, rfl, rfl⟩

theorem probe_member_yields (deadline : Instant) (entry : Member × String) :
    Yields NodeEffect.Answers (probeMember deadline entry) fun probe => probe.1 = entry.1.nodeId := by
  unfold probeMember
  refine returns_bind (yields_anything _) fun answer _ => ?_
  exact returns_pure rfl

theorem record_probe_found {now : Instant} {delay : Nat} {found : Option String}
    {outages : FiniteMap String Instant} {probe : String × Bool} {nodeId : String}
    (confirmed : (recordProbe now delay (found, outages) probe).1 = some nodeId) :
    found = some nodeId ∨ probe.1 = nodeId := by
  unfold recordProbe at confirmed
  by_cases healthy : probe.2 = true
  · rw [if_pos healthy] at confirmed
    exact .inl confirmed
  · rw [if_neg healthy] at confirmed
    by_cases lasting : found.isNone ∧ (outages.lookup probe.1).getD now + delay ≤ now
    · simp only [lasting, and_self, if_true] at confirmed
      exact .inr (Option.some.inj confirmed)
    · simp only [lasting, if_false] at confirmed
      exact .inl confirmed

theorem record_probes_named {now : Instant} {delay : Nat} (probes : List (String × Bool))
    {found : Option String} {outages : FiniteMap String Instant}
    (named : ∀ probe ∈ probes, probe.1.isEmpty = false)
    (before : ∀ nodeId, found = some nodeId → nodeId.isEmpty = false) {nodeId : String}
    (confirmed : (probes.foldl (recordProbe now delay) (found, outages)).1 = some nodeId) :
    nodeId.isEmpty = false := by
  induction probes generalizing found outages with
  | nil => exact before nodeId confirmed
  | cons probe rest ih =>
      rw [List.foldl_cons] at confirmed
      refine ih (fun other member => named other (List.mem_cons_of_mem _ member)) ?_ confirmed
      intro other same
      rcases record_probe_found same with old | rfl
      · exact before other old
      · exact named probe List.mem_cons_self

theorem pending_change_pass_harmless {change : TopologyChange} (named : ChangeNamed change) :
    Harmless settings (runPendingChangeFailurePass settings change) FailurePass.Named := by
  unfold runPendingChangeFailurePass
  refine returns_bind harmless_read fun state _ => ?_
  have windowed : Harmless settings (modify (probeWindow (state.changeParticipants change))) fun window =>
      ∀ entry ∈ window, entry.1.nodeId.isEmpty = false :=
    harmless_modify (probe_window_same _) fun memory entry member =>
      change_participant_named named (probe_window_inside _ _ entry member)
  refine returns_bind windowed fun window inside => ?_
  refine returns_bind harmless_look fun deadline _ => ?_
  have probed : Yields NodeEffect.Answers (tryMapBounded window 8 (probeMember deadline)) fun probes =>
      ∀ probe ∈ probes, probe.1.isEmpty = false :=
    returns_pool fun entry member =>
      returns_weaken (probe_member_yields deadline entry) fun probe same =>
        by rw [same]; exact inside entry member
  refine returns_bind (harmless_calls probed) fun probes allNamed => ?_
  refine returns_bind harmless_look fun now _ => ?_
  have recorded : Harmless settings
      (modify (recordProbes settings change.phase (state.changeParticipants change) probes now))
      fun confirmed => ∀ nodeId, confirmed = some nodeId → nodeId.isEmpty = false :=
    harmless_modify (fun _ => ⟨rfl, rfl, rfl⟩) fun memory nodeId confirmed =>
      record_probes_named probes allNamed (fun _ same => absurd same (by simp)) confirmed
  refine returns_bind recorded fun confirmed found => ?_
  cases confirmed with
  | none => exact returns_pure trivial
  | some failedNodeId => exact returns_pure (found failedNodeId rfl)

theorem failure_candidate_named {state : ClusterState} {grants : LeaseGrants}
    {failures : PeerFailures} {now : Instant} {failedNodeId : String} (sound : Sound settings state)
    (found : state.failureCandidate grants failures now = some failedNodeId) :
    failedNodeId.isEmpty = false := by
  obtain ⟨member, picked, rfl⟩ := Option.map_eq_some_iff.mp found
  exact member_named sound.valid.committed (List.mem_of_find?_eq_some picked)

theorem confirm_failure_harmless : Harmless settings (confirmFailure settings) FailurePass.Named := by
  unfold confirmFailure
  refine returns_bind harmless_read fun state sound => ?_
  split
  · exact returns_pure trivial
  refine returns_bind harmless_look fun seen _ => ?_
  obtain ⟨now, quarantined⟩ := seen
  cases quarantined with
  | true => exact returns_pure trivial
  | false =>
  have picked : Harmless settings (observe fun coordinator =>
      state.failureCandidate coordinator.memory.leaseGrants coordinator.memory.peerFailures now)
          fun candidate =>
        ∀ nodeId, candidate = some nodeId → nodeId.isEmpty = false :=
    harmless_observe fun _ _ nodeId found => failure_candidate_named sound found
  refine returns_bind picked fun candidate named => ?_
  cases candidate with
  | none => exact returns_pure trivial
  | some failedNodeId =>
      refine returns_bind harmless_fresh fun changeId _ => ?_
      refine returns_bind (harmless_except fun planned accepted => mapped_ok accepted)
        fun planned accepted => ?_
      have fences : Harmless settings (update fun coordinator => coordinator.state.fenceFailed state
          { planned with failedNodeId := some failedNodeId } failedNodeId) fun _ => True := by
        refine harmless_update (fun coordinator kept next _ decided => ?_) fun _ _ _ _ _ => trivial
        exact fence_quiet kept accepted (named failedNodeId rfl)
          (fun member inside => of_decide_eq_true (List.mem_filter.mp inside).2) decided
      refine returns_bind fences fun fenced _ => ?_
      cases fenced with
      | true => exact returns_pure trivial
      | false => exact returns_pure trivial

theorem run_failure_pass_harmless : Harmless settings (runFailurePass settings) FailurePass.Named := by
  unfold runFailurePass
  have seen : Harmless settings (observe (·.state.activeChange)) fun active =>
      ∀ change, active = some change → ChangeNamed change :=
    harmless_observe fun _ kept change found => active_named kept.sound found
  refine returns_bind seen fun active named => ?_
  cases active with
  | none => exact confirm_failure_harmless
  | some change =>
      simp only
      split
      · exact confirm_failure_harmless
      · split
        · exact returns_pure trivial
        · exact pending_change_pass_harmless (named change rfl)

end Coordination
end Hashring
