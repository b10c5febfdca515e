import Hashring.Placement
import Hashring.StoredRecords
import Hashring.Transition

/-! Versions at the tokens a node owns. `put` stores what it wrote whatever record was
there before, so an owner relies on the order of versions: at a token it owns, no
record carries a version it has yet to assign. Its own writes number upwards, a
follower entry for a token of its own is refused, and what a commit takes over was
brought by batches, whose versions others have assigned. -/
namespace Hashring

section

variable (hashing : Hashing) (config : NodeConfig)

def Owns (topology : TopologySnapshot) (token : Token) : Prop :=
  ∃ owner, topology.ownerForToken token = .ok owner ∧ owner.nodeId = config.nodeId

def VersionsBelow (state : NodeState) : Prop :=
  ∀ key record, state.records.lookup key = some record →
    Owns config state.topology (state.tokenOf hashing key) →
    record.version < ⟨state.topology.epoch, state.nextSequence + 1, config.nodeId⟩

/-- A version that has been assigned, as the node can tell: of no later epoch, and at
a token of its own none of this epoch beyond the sequence it has reached. -/
structure Assigned (topology : TopologySnapshot) (sequence : Nat) (key : Bytes)
    (version : RecordVersion) : Prop where
  epoch : version.topologyEpoch ≤ topology.epoch
  own : version.topologyEpoch = topology.epoch → Owns config topology (topology.keyToken hashing key) →
    version.ownerSequence ≤ sequence

structure VersionsAssigned (state : NodeState) : Prop where
  stored : state.Holds fun sequence key record => Assigned hashing config state.topology sequence
    key record.version
  staged : state.Destinations fun destination => ∀ key record, destination.records.lookup key =
    some record →
    Assigned hashing config state.topology state.nextSequence key record.version

/-- What the rest of the cluster owes the node: an epoch has one topology, and the
records of a batch carry versions that were assigned. -/
structure NodeEvent.Promised (state : NodeState) (event : NodeEvent) : Prop where
  topology : ∀ topology, event.offered = some topology → topology.epoch = state.topology.epoch →
    topology = state.topology
  records : ∀ sent ∈ event.records, ∀ version, sent.version = some version →
    Assigned hashing config state.topology state.nextSequence sent.key version

def PromisedStep (before : NodeProcess) (event : NodeEvent) (after : NodeProcess) : Prop :=
  event.Promised hashing config before.state ∧ NodeProcess.Step hashing config before event after

def ReachedNode (process : NodeProcess) : Prop :=
  ∃ topology events, Transition.Run (PromisedStep hashing config) { state := { topology } } events process

end

variable {hashing : Hashing} {config : NodeConfig}

theorem owner_error_owns (config : NodeConfig) (state : NodeState) (token : Token) (now : Instant)
    (passed : ownerError config state token now = .ok none) : Owns config state.topology token := by
  unfold ownerError at passed
  split at passed
  · exact absurd passed (by simp)
  · rename_i owner routed
    split at passed
    · rename_i same
      exact ⟨owner, routed, same⟩
    · exact absurd passed (by simp)

/-- An entry that is admitted is for a token of another: the owner comes first among
the replicas, and only once. -/
theorem EntryChecked.foreign {state : NodeState} {entry : ReplicationEntry} {record : Record}
    (checked : EntryChecked hashing config state entry record) :
    ¬Owns config state.topology (state.tokenOf hashing entry.key) := by
  obtain ⟨_, _, ⟨owner, routed, _⟩, replicas, placed, follower⟩ := checked
  rintro ⟨holder, same, named⟩
  obtain rfl : owner = holder := Except.ok.inj (routed.symm.trans same)
  have distinct := TopologySnapshot.replica_node_ids_nodup _ _ _ placed
  have first := TopologySnapshot.replica_node_ids_head placed
  rw [TopologySnapshot.owner_for_token_owner_id routed, named] at first
  cases replicas with
  | nil => exact absurd follower (List.not_mem_nil)
  | cons head rest =>
      obtain rfl : head = config.nodeId := Option.some.inj first
      exact absurd follower (List.nodup_cons.mp distinct).1

namespace Assigned

variable {topology : TopologySnapshot} {sequence : Nat} {key : Bytes} {version : RecordVersion}

theorem later {further : Nat} (assigned : Assigned hashing config topology sequence key version)
    (grown : sequence ≤ further) : Assigned hashing config topology further key version :=
  ⟨assigned.epoch, fun same owned => (assigned.own same owned).trans grown⟩

theorem outdated {next : TopologySnapshot}
    (assigned : Assigned hashing config topology sequence key version)
    (newer : topology.epoch < next.epoch) : Assigned hashing config next sequence key version := by
  have older := lt_of_le_of_lt assigned.epoch newer
  exact ⟨older.le, fun same => absurd same older.ne⟩

theorem written (state : NodeState) (key : Bytes) :
    Assigned hashing config state.topology (state.nextSequence + 1) key
      (WritePlan.version config state) :=
  ⟨le_refl _, fun _ _ => le_refl _⟩

theorem received {state : NodeState} {entry : ReplicationEntry} {record : Record}
    (checked : checkReplicationEntry hashing config state entry = .ok record) :
    Assigned hashing config state.topology sequence entry.key record.version :=
  ⟨(entry_checked checked).epoch.le, fun _ owned => absurd owned (entry_checked checked).foreign⟩

end Assigned

namespace VersionsAssigned

variable {process : NodeProcess} {event : NodeEvent}

theorem below {state : NodeState} (assigned : VersionsAssigned hashing config state) :
    VersionsBelow hashing config state := by
  intro key record found owned
  obtain ⟨epoch, own⟩ := assigned.stored key record found
  rw [RecordVersion.lt_iff]
  rcases epoch.lt_or_eq with older | same
  · exact .inl older
  · exact .inr ⟨same, .inl (Nat.lt_succ_of_le (own same owned))⟩

theorem fresh (topology : TopologySnapshot) : VersionsAssigned hashing config { topology } where
  stored _ _ found := absurd found (by simp)
  staged _ _ found := absurd found (by simp)

theorem staging (topology current : TopologySnapshot) (sequence : Nat) :
    StagingKeeps hashing config current
    (fun sent => ∀ version, sent.version = some version →
      Assigned hashing config topology sequence sent.key version)
    fun destination => ∀ key record, destination.records.lookup key = some record →
      Assigned hashing config topology sequence key record.version where
  purge _ _ start := start
  receipt destination staged record now start accepted := by
    obtain ⟨_, _, rfl⟩ := stage_dedup_frame _ _ _ _ _ _ accepted
    exact start
  record destination sent records start assigned _ accepted key record found := by
    rcases stage_record_origin accepted found with old | ⟨rfl, version, carried, given, rfl⟩
    · exact start key record old
    · exact assigned version given
  advance _ start := start

theorem handle_installed (assigned : VersionsAssigned hashing config process.state)
    (promised : event.Promised hashing config process.state) :
    (process.handle hashing config event).state.Holds
        (fun sequence key record => Assigned hashing config process.state.topology sequence key
          record.version) ∧
      (process.handle hashing config event).state.Destinations fun destination =>
        ∀ key record, destination.records.lookup key = some record →
          Assigned hashing config process.state.topology
          (process.handle hashing config event).state.nextSequence key record.version := by
  constructor
  · refine handle_held _ (fun sequence key record held => held.later (Nat.le_succ _)) ?_ ?_
      assigned.staged assigned.stored
    · intro unixMillis state plan request _ same
      rw [← same]
      exact .written state plan.key
    · intro entry _ state record same checked
      rw [← same]
      exact .received checked
  · have stages : StagingKeeps hashing config process.state.topology _ _ :=
      staging process.state.topology process.state.topology process.state.nextSequence
    have staged := handle_staged event stages promised.records
        (fun _ _ _ found => absurd found (by simp [emptyDestination])) (fun _ _ _ held => held)
        assigned.staged
    intro key destination found probe record stored
    exact (staged key destination found probe record stored).later
      (handle_sequence hashing config process event)

theorem handle (assigned : VersionsAssigned hashing config process.state)
    (promised : event.Promised hashing config process.state) :
    VersionsAssigned hashing config (process.handle hashing config event).state := by
  obtain ⟨stored, staged⟩ := handle_installed assigned promised
  -- A topology of the installed epoch is the installed one; versions are older than a newer one.
  have kept : ∀ sequence key version, Assigned hashing config process.state.topology sequence key
      version →
      Assigned hashing config (process.handle hashing config event).state.topology sequence key
          version := by
    intro sequence key version held
    rcases handle_topology hashing config process event with same | ⟨topology, offered, newer, taken⟩
    · rw [same]
      exact held
    · rw [taken]
      rcases newer.lt_or_eq with grown | level
      · exact held.outdated grown
      · rw [promised.topology topology offered level.symm]
        exact held
  exact ⟨fun key record found => kept _ _ _ (stored key record found),
    fun key destination found probe record held =>
      kept _ _ _ (staged key destination found probe record held)⟩

theorem step {before after : NodeProcess} (assigned : VersionsAssigned hashing config before.state)
    (taken : PromisedStep hashing config before event after) :
    VersionsAssigned hashing config after.state := by
  obtain ⟨promised, sources, _, rfl⟩ := taken
  have shuffled : VersionsAssigned hashing config { before.state with sources } :=
    ⟨assigned.stored, assigned.staged⟩
  have owed : event.Promised hashing config { before.state with sources } :=
    ⟨promised.topology, promised.records⟩
  exact handle shuffled owed

theorem reached (run : ReachedNode hashing config process) :
    VersionsAssigned hashing config process.state := by
  obtain ⟨topology, events, run⟩ := run
  exact Transition.run_invariant (fun _ => True)
    (fun process => VersionsAssigned hashing config process.state)
    (fun _ _ _ _ assigned taken => assigned.step taken) run (fun _ _ => trivial) (fresh topology)

end VersionsAssigned

theorem ReachedNode.steps {process : NodeProcess} (reached : ReachedNode hashing config process) :
    ∃ topology events, Transition.Run (NodeProcess.Step hashing config)
      { state := { topology } } events process := by
  obtain ⟨topology, events, run⟩ := reached
  have plain := Transition.run_mapped id (fun _ => True) (fun _ _ _ _ taken => ⟨trivial, taken.2⟩)
      run trivial
  exact ⟨topology, events, plain.2⟩

end Hashring
