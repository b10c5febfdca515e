import Hashring.ExpirySweep
import Hashring.ServedSource
import Hashring.StoredRecords
import Hashring.RequiredAcks

/-! Deadlines of tombstones. A delete stores none, so no node ever sends a tombstone
with one, and a node whose records all come from such nodes has none that a sweep
could remove. -/
namespace Hashring

def Record.Untimed (record : Record) : Prop := record.deleted = true → record.expiresAtUnixMillis = none

def ReplicationEntry.Untimed (entry : ReplicationEntry) : Prop := entry.deleted = true →
    entry.expiresAtUnixMillis = none

def MigrationRecord.Untimed (sent : MigrationRecord) : Prop := sent.deleted = true →
    sent.expiresAtUnixMillis = none

def NodeState.Stored (state : NodeState) (kind : Record → Prop) : Prop :=
  ∀ key record, state.records.lookup key = some record → kind record

structure TombstonesUntimed (process : NodeProcess) : Prop where
  records : process.state.Stored Record.Untimed
  staged : process.state.Destinations fun destination =>
    ∀ key record, destination.records.lookup key = some record → record.Untimed
  journaled : JournalsHold (fun entry => ∀ sent, entry.record = some sent → sent.Untimed) process.state
  queued : ∀ key, ∀ entry ∈ (process.dispatch.taskAt key).pending, entry.toProto.Untimed

section Records

variable {hashing : Hashing} {config : NodeConfig}

theorem stored_untimed {value : Bytes} {version : RecordVersion} {deleted : Bool} {deadline : Option Nat}
    (clean : ¬(deleted = true ∧ value ≠ [])) (untimed : deleted = true → deadline = none) :
    (Record.stored value version deleted deadline clean).Untimed := by
  intro removed
  change storedDeadline deadline = none
  rw [untimed removed]
  rfl

theorem planned_untimed {unixMillis : Nat} {state : NodeState} {plan : WritePlan} {request : WriteRequest}
    (planned : Planned hashing unixMillis state plan request)
    (version : RecordVersion) : (plan.record version).Untimed := by
  refine stored_untimed plan.clean fun removed => ?_
  cases planned with
  | put _ _ _ stored => exact absurd (stored.symm.trans removed) (by simp)
  | delete _ _ _ _ _ _ unlimited => exact unlimited

theorem checked_untimed {state : NodeState} {entry : ReplicationEntry} {record : Record}
    (checked : checkReplicationEntry hashing config state entry = .ok record)
    (untimed : entry.Untimed) : record.Untimed := by
  obtain ⟨_, _, rfl⟩ := (entry_checked checked).stored
  exact stored_untimed _ untimed

theorem stage_record_untimed {records staged : FiniteMap Bytes Record} {sent : MigrationRecord}
    (untimed : sent.Untimed)
    (start : ∀ key record, records.lookup key = some record → record.Untimed)
    (accepted : stageRecord records sent = .ok staged)
    (key : Bytes) (record : Record) (found : staged.lookup key = some record) : record.Untimed := by
  rcases stage_record_origin accepted found with old | ⟨_, version, carried, _, rfl⟩
  · exact start key record old
  · exact stored_untimed carried untimed

theorem untimed_staging (topology : TopologySnapshot) :
    StagingKeeps hashing config topology MigrationRecord.Untimed
    fun destination => ∀ key record, destination.records.lookup key = some record → record.Untimed where
  purge _ _ start := start
  receipt destination staged record now start accepted := by
    obtain ⟨_, _, rfl⟩ := stage_dedup_frame _ _ _ _ _ _ accepted
    exact start
  record destination sent records start untimed _ accepted := stage_record_untimed untimed start accepted
  advance _ start := start

theorem commit_plan_pending (clock : Clock) (process : NodeProcess) (plan : WritePlan) (ready : Readiness)
    (key : ReplicationStreamKey) (entry : PreparedReplication)
    (member : entry ∈ ((commitPlan hashing config clock process plan ready).1.dispatch.taskAt
      key).pending) :
    entry ∈ (process.dispatch.taskAt key).pending ∨
      ∃ version, entry.mutation = plan.mutation (plan.record version) process.state.topology.epoch := by
  have cases := commit_plan_cases hashing config clock process plan ready
  generalize commitPlan hashing config clock process plan ready = result at cases member
  cases cases with
  | refused => exact .inl member
  | rolledBack _ _ entries dispatch reserved =>
      obtain ⟨_, tasks, _⟩ := ReplicationDispatcher.reserve_spec config entries process.dispatch
      rw [reserved] at tasks
      change entry ∈ (dispatch.taskAt key).pending at member
      rw [tasks key] at member
      exact .inl member
  | stored prepared entries dispatch _ fanned reserved =>
      obtain ⟨_, tasks, granted⟩ := ReplicationDispatcher.reserve_spec config entries process.dispatch
      rw [reserved] at tasks granted
      obtain ⟨_, queued⟩ := ReplicationDispatcher.enqueue_spec entries dispatch fun entry member =>
        (granted rfl entry member).1
      change entry ∈ ((dispatch.enqueue entries).taskAt key).pending at member
      rw [queued key, tasks key] at member
      simp only [StreamTask.pending, List.mem_append] at member ⊢
      rcases member with ((waiting | fresh) | carried) | batched
      · exact .inl (.inl (.inl waiting))
      · refine .inr ⟨WritePlan.version config process.state, ?_⟩
        exact (prepare_fans_out _ _ _ _ fanned).1.carries entry (List.mem_filter.mp fresh).1
      · exact .inl (.inl (.inr carried))
      · exact .inl (.inr batched)

/-- Only a write queues anything. -/
theorem handle_pending (process : NodeProcess) (event : NodeEvent)
    (unwritten : ∀ clock request ready, event ≠ .commit clock request ready) :
    PendingShrinks process (process.handle hashing config event) := by
  by_cases quiet : event.Quiet
  · exact handle_shrinks hashing config process event quiet
  · cases event with
    | commit clock request ready => exact absurd rfl (unwritten clock request ready)
    | send key => exact send_batch_shrinks process key
    | answered key answer =>
        cases answer with
        | error status => exact absurd trivial quiet
        | ok response =>
            simp only [NodeProcess.handle, NodeProcess.receiveAnswer]
            split
            · exact fun _ _ member => member
            · split
              · exact set_task_shrinks
                  { process with state := NodeProcess.recordAck process.state _ response } key _
                  (StreamTask.retain_pending _ _)
              · exact fail_stream_shrinks process key
    | finishAcks | replicate | replicateBatch | checkpoint | range | sweep | renewed | pausePolicy |
        resumePolicy
    | install | refresh | collect => exact absurd trivial quiet

theorem handle_queued {process : NodeProcess} (event : NodeEvent)
    (start : ∀ key, ∀ entry ∈ (process.dispatch.taskAt key).pending, entry.toProto.Untimed)
    (key : ReplicationStreamKey) :
    ∀ entry ∈ ((process.handle hashing config event).dispatch.taskAt key).pending,
      entry.toProto.Untimed := by
  by_cases written : ∃ clock request ready, event = .commit clock request ready
  · obtain ⟨clock, request, ready, rfl⟩ := written
    refine commit_request_rule
      (fun after => ∀ entry ∈ (after.dispatch.taskAt key).pending, entry.toProto.Untimed)
        (start key) (start key) ?_
    intro plan planned _ _ _ _ entry member
    rcases commit_plan_pending clock _ plan ready key entry member with old | ⟨version, carried⟩
    · exact start key entry old
    · have untimed := planned_untimed planned version
      unfold ReplicationEntry.Untimed PreparedReplication.toProto
      rw [carried]
      exact untimed
  · intro entry member
    exact start key entry (handle_pending process event
      (fun clock request ready same => written ⟨clock, request, ready, same⟩) key entry member)

end Records

namespace TombstonesUntimed

variable {hashing : Hashing} {config : NodeConfig}

theorem fresh (topology : TopologySnapshot) : TombstonesUntimed { state := { topology } } where
  records _ _ found := absurd found (by simp)
  staged _ _ found := absurd found (by simp)
  journaled _ _ found := absurd found (by simp)
  queued _ _ member := absurd member (by simp [ReplicationDispatcher.taskAt, StreamTask.pending])

theorem handle {process : NodeProcess} (untimed : TombstonesUntimed process) {event : NodeEvent}
    (entries : ∀ entry ∈ event.entries, entry.Untimed)
    (records : ∀ record ∈ event.records, record.Untimed) :
    TombstonesUntimed (process.handle hashing config event) where
  records := handle_held (fun _ _ record => record.Untimed) (fun _ _ _ => id)
    (fun _ _ _ _ planned _ => planned_untimed planned _)
    (fun entry delivered _ _ _ checked => checked_untimed checked (entries entry delivered))
      untimed.staged untimed.records
  staged := handle_staged event (untimed_staging process.state.topology) records
    (fun _ _ _ found => absurd found (by simp [emptyDestination])) (fun _ _ _ held => held) untimed.staged
  journaled := by
    refine untimed.journaled.handle event fun _ _ plan _ planned version watermark sent carried => ?_
    obtain rfl := Option.some.inj carried
    exact planned_untimed planned version
  queued key := handle_queued event untimed.queued key

theorem step {before after : NodeProcess} {event : NodeEvent} (untimed : TombstonesUntimed before)
    (entries : ∀ entry ∈ event.entries, entry.Untimed)
    (records : ∀ record ∈ event.records, record.Untimed)
    (taken : NodeProcess.Step hashing config before event after) : TombstonesUntimed after := by
  obtain ⟨sources, reordered, rfl⟩ := taken
  have shuffled : TombstonesUntimed { before with state := { before.state with sources } } :=
    ⟨untimed.records, untimed.staged, fun key source found => untimed.journaled key source
      ((AList.perm_lookup reordered).symm.trans found), untimed.queued⟩
  exact shuffled.handle entries records

theorem snapshot_page {process : NodeProcess} (untimed : TombstonesUntimed process)
    {request : SnapshotPageRequest} {page : SnapshotPageResponse}
    (answered : readSnapshotPage config process.state request = .ok page) :
    ∀ sent ∈ page.records, sent.Untimed := by
  unfold readSnapshotPage at answered
  split at answered
  · exact absurd answered (by simp)
  · rename_i source _
    split at answered
    · exact absurd answered (by simp)
    · obtain rfl := Except.ok.inj answered
      intro sent member
      obtain ⟨count, _, taken⟩ :=
        take_page_prefix (fun key => (process.state.records.lookup key).map (snapshotRecord key))
        migrationRecordSize (pageLimit request.maxBytes config.maxValueBytes)
          (source.snapshotKeys.drop request.cursor) 0 []
        request.cursor
      change sent ∈ (takePage (fun key => (process.state.records.lookup key).map
        (snapshotRecord key)) migrationRecordSize
        (pageLimit request.maxBytes config.maxValueBytes) (source.snapshotKeys.drop request.cursor) 0 []
        request.cursor).1 at member
      rw [taken, List.nil_append] at member
      obtain ⟨key, _, emitted⟩ := List.mem_filterMap.mp member
      obtain ⟨record, found, rfl⟩ := Option.map_eq_some_iff.mp emitted
      exact untimed.records key record found

theorem changelog_page {process : NodeProcess} (untimed : TombstonesUntimed process) {now : Instant}
    {request : ChangelogPageRequest} {page : ChangelogPageResponse}
    (answered : readChangelogPage config now process.state request = .ok page) :
    ∀ sent ∈ page.records.filterMap (·.record), sent.Untimed := by
  unfold readChangelogPage at answered
  split at answered
  · exact absurd answered (by simp)
  · rename_i source held
    obtain rfl := Except.ok.inj answered
    intro sent member
    obtain ⟨copied, listed, carried⟩ := List.mem_filterMap.mp member
    obtain ⟨entry, paged, rfl⟩ := List.mem_map.mp listed
    obtain ⟨count, _, taken⟩ :=
      take_page_prefix some journalRecordSize (pageLimit request.maxBytes config.maxValueBytes)
      (source.journal.filter fun entry => request.afterWatermark < entry.watermark) 0 [] 0
    rw [changelogPage, taken, List.nil_append, List.filterMap_some] at paged
    obtain ⟨original, there, rfl⟩ := Option.map_eq_some_iff.mp carried
    exact untimed.journaled _ source held entry (List.mem_filter.mp (List.mem_of_mem_take paged)).1
      original there

theorem sent_batch {process : NodeProcess} (untimed : TombstonesUntimed process)
    {key : ReplicationStreamKey} {entries : List ReplicationEntry}
    (sent : (process.sendBatch key).2 = some entries) :
    ∀ entry ∈ entries, entry.Untimed := by
  unfold NodeProcess.sendBatch at sent
  simp only at sent
  split at sent
  · exact absurd sent (by simp)
  · rename_i first rest batched
    split at sent
    · exact absurd sent (by simp)
    · obtain rfl := Option.some.inj sent
      intro entry member
      obtain ⟨prepared, listed, rfl⟩ := List.mem_map.mp member
      refine untimed.queued key prepared ?_
      rw [StreamTask.pending, batched]
      exact List.mem_append_right _ listed

end TombstonesUntimed

/-- Nodes that send each other what they replicate, and pages a coordinator carries
from a source range to its destination. Messages may be delivered late, often or not
at all. -/
structure Fleet where
  nodes : String → NodeProcess
  entries : List ReplicationEntry := []
  records : List MigrationRecord := []

inductive FleetEvent where
  | node (id : String) (event : NodeEvent)
  | readSnapshot (id : String) (request : SnapshotPageRequest)
  | readChangelog (id : String) (now : Instant) (request : ChangelogPageRequest)
  | restart (id : String) (topology : TopologySnapshot)

namespace Fleet

def batchOf (process : NodeProcess) : NodeEvent → List ReplicationEntry
  | .send key => (process.sendBatch key).2.getD []
  | _ => []

def started (topologies : String → TopologySnapshot) : Fleet where
  nodes id := { state := { topology := topologies id } }

inductive Step (hashing : Hashing) (configs : String → NodeConfig) (before : Fleet) :
    FleetEvent → Fleet → Prop where
  | node {id : String} {event : NodeEvent} {process : NodeProcess}
      (entries : ∀ entry ∈ event.entries, entry ∈ before.entries)
      (records : ∀ record ∈ event.records, record ∈ before.records)
      (taken : NodeProcess.Step hashing (configs id) (before.nodes id) event process) :
      Step hashing configs before (.node id event)
        { before with
          nodes := Function.update before.nodes id process
          entries := before.entries ++ batchOf (before.nodes id) event }
  | readSnapshot {id : String} {request : SnapshotPageRequest} {page : SnapshotPageResponse}
      (answered : readSnapshotPage (configs id) (before.nodes id).state request = .ok page) :
      Step hashing configs before (.readSnapshot id request)
        { before with records := before.records ++ page.records }
  | readChangelog {id : String} {now : Instant} {request : ChangelogPageRequest}
      {page : ChangelogPageResponse}
      (answered : readChangelogPage (configs id) now (before.nodes id).state request = .ok page) :
      Step hashing configs before (.readChangelog id now request)
        { before with records := before.records ++ page.records.filterMap (·.record) }
  | restart {id : String} {topology : TopologySnapshot} :
      Step hashing configs before (.restart id topology)
      { before with nodes := Function.update before.nodes id { state := { topology } } }

structure Sound (hashing : Hashing) (fleet : Fleet) : Prop where
  indexed : ∀ id, NodeIndexed hashing (fleet.nodes id).state
  untimed : ∀ id, TombstonesUntimed (fleet.nodes id)
  entries : ∀ entry ∈ fleet.entries, entry.Untimed
  records : ∀ record ∈ fleet.records, record.Untimed

variable {hashing : Hashing} {configs : String → NodeConfig}

theorem updated (holds : NodeProcess → Prop) {nodes : String → NodeProcess}
    (start : ∀ id, holds (nodes id)) {moved : String}
    {process : NodeProcess} (kept : holds process) (id : String) :
    holds (Function.update nodes moved process id) := by
  by_cases here : id = moved
  · subst here
    rw [Function.update_self]
    exact kept
  · rw [Function.update_of_ne here]
    exact start id

theorem Sound.step {before after : Fleet} {event : FleetEvent} (sound : Sound hashing before)
    (taken : Step hashing configs before event after) : Sound hashing after := by
  cases taken with
  | @node id event process entries records taken =>
      refine ⟨updated (fun process => NodeIndexed hashing process.state) sound.indexed
        ((sound.indexed id).step taken),
        updated TombstonesUntimed sound.untimed ?_, ?_, sound.records⟩
      · exact (sound.untimed id).step (fun entry listed => sound.entries entry (entries entry listed))
          (fun record listed => sound.records record (records record listed)) taken
      · intro entry listed
        rcases List.mem_append.mp listed with old | sent
        · exact sound.entries entry old
        · cases event with
          | send key =>
              rw [batchOf] at sent
              obtain ⟨batch, same⟩ | none_ :=
                (Option.eq_none_or_eq_some ((before.nodes id).sendBatch key).2).symm
              · rw [same] at sent
                exact (sound.untimed id).sent_batch same entry sent
              · rw [none_] at sent
                exact absurd sent List.not_mem_nil
          | _ => exact absurd sent List.not_mem_nil
  | @readSnapshot id request page answered =>
      refine ⟨sound.indexed, sound.untimed, sound.entries, fun record listed => ?_⟩
      rcases List.mem_append.mp listed with old | read
      · exact sound.records record old
      · exact (sound.untimed id).snapshot_page answered record read
  | @readChangelog id now request page answered =>
      refine ⟨sound.indexed, sound.untimed, sound.entries, fun record listed => ?_⟩
      rcases List.mem_append.mp listed with old | read
      · exact sound.records record old
      · exact (sound.untimed id).changelog_page answered record read
  | restart =>
      exact ⟨updated (fun process => NodeIndexed hashing process.state) sound.indexed
        (NodeIndexed.fresh _),
        updated TombstonesUntimed sound.untimed (.fresh _), sound.entries, sound.records⟩

theorem Sound.reached {topologies : String → TopologySnapshot} {events : List FleetEvent} {fleet : Fleet}
    (run : Transition.Run (Step hashing configs) (started topologies) events fleet) :
    Sound hashing fleet := by
  refine Transition.run_invariant (fun _ => True) (Sound hashing)
    (fun _ _ _ _ sound taken => sound.step taken) run
    (fun _ _ => trivial) ⟨fun id => .fresh _, fun id => .fresh _, ?_, ?_⟩
  · exact fun _ listed => absurd listed List.not_mem_nil
  · exact fun _ listed => absurd listed List.not_mem_nil

end Fleet

structure ExpiryExact (hashing : Hashing) (config : NodeConfig) (process : NodeProcess) : Prop where
  reads : ReadsPresent hashing config process
  kept : ∀ clock put ready after, NodeProcess.Step hashing config process
    (.commit clock (.put put) ready) after →
    put.expiresAtUnixMillis = none → put.preserveValue = false → ∀ key record,
      after.state.records.lookup key = some record →
      process.state.records.lookup key = some record ∨
        key = put.key ∧ ∀ deadline, record.expiresAtUnixMillis = some deadline →
          ∃ old, process.state.Shows clock.unixMillis put.key old ∧ old.expiresAtUnixMillis =
            some deadline
  swept : ∀ nowUnixMillis limit after, NodeProcess.Step hashing config process
    (.sweep nowUnixMillis limit) after →
    SweepExact hashing nowUnixMillis process.state after.state
  scheduled : process.state.ExpirationsIndexed
  rescheduled : ∀ event after, NodeProcess.Step hashing config process event after → ∀ key source,
    process.state.sources.lookup key = some source → after.state.sources.lookup key = none →
      ∀ entry ∈ source.deferredExpirations, after.state.Deadline entry →
        entry ∈ after.state.recordExpirations
  drained : process.state.Unsourced → ∀ nowUnixMillis, ∃ turns, ∀ sweeps : List (Nat × Nat), turns ≤
    sweeps.length →
    (∀ sweep ∈ sweeps, nowUnixMillis ≤ sweep.1 ∧ 0 < sweep.2) → ∀ after,
      Transition.Run (NodeProcess.Step hashing config) process (sweepEvents sweeps) after →
        ∀ key record, after.state.records.lookup key = some record → ¬record.Past nowUnixMillis

theorem expiry_exact {hashing : Hashing} {config : NodeConfig} {process : NodeProcess}
    (indexed : NodeIndexed hashing process.state) : ExpiryExact hashing config process where
  reads := reads_present indexed.records
  kept clock put ready after taken silent plain key record stored := by
    obtain ⟨sources, _, rfl⟩ := taken
    exact kept_deadline_shown clock { process with state := { process.state with sources } } put
      ready silent plain key record
      stored
  swept _ _ _ taken := sweep_step indexed taken
  scheduled := indexed.expirations
  rescheduled _ _ taken _ _ found ended _ deferred due :=
    ended_source_reschedules indexed taken found ended deferred due
  drained idle nowUnixMillis :=
    ⟨process.state.records.keys.length, fun _ enough each _ run =>
      sweeps_drain each indexed idle enough run⟩

def TombstonesStay (hashing : Hashing) (config : NodeConfig) (process : NodeProcess) : Prop :=
  ∀ nowUnixMillis limit after,
    NodeProcess.Step hashing config process (.sweep nowUnixMillis limit) after →
    ∀ key record, process.state.records.lookup key = some record → record.deleted = true →
      after.state.records.lookup key = some record

theorem tombstones_stay {hashing : Hashing} {config : NodeConfig} {process : NodeProcess}
    (indexed : NodeIndexed hashing process.state) (untimed : TombstonesUntimed process) :
    TombstonesStay hashing config process := by
  intro nowUnixMillis limit after taken key record found removed
  rcases (sweep_step indexed taken).removed key record found with kept | ⟨_, ⟨deadline, timed, _⟩, _⟩
  · exact kept
  · exact absurd ((untimed.records key record found removed).symm.trans timed) (by simp)

/-- Whatever a node goes through, expiry hides and sweeps exactly the records past
their deadline; and while nodes only receive what nodes sent, tombstones stay. -/
theorem expiry_hides_and_sweeps (hashing : Hashing) :
    (∀ config topology events process,
      Transition.Run (NodeProcess.Step hashing config) { state := { topology } } events process →
        ExpiryExact hashing config process) ∧
    ∀ configs topologies events fleet, Transition.Run (Fleet.Step hashing configs)
      (Fleet.started topologies) events fleet →
      ∀ id, ExpiryExact hashing (configs id) (fleet.nodes id) ∧ TombstonesStay hashing (configs id)
          (fleet.nodes id) := by
  constructor
  · intro config topology events process run
    exact expiry_exact (NodeIndexed.reached run)
  · intro configs topologies events fleet run id
    have sound := Fleet.Sound.reached run
    exact ⟨expiry_exact (sound.indexed id), tombstones_stay (sound.indexed id) (sound.untimed id)⟩

namespace ExpirySample

/-- The sample node deletes the key of the sample put. -/
def delete : WriteRequest := .delete
    { key := [byte 107], topologyEpoch := 1, requestId := "d", precondition := none }

def events : List NodeEvent :=
  [.renewed 1 0 { topologyEpoch := 1, leaseDurationMillis := 1000, admittedFollowers := [("b", "b-1")] },
    .commit (Sample.clock 10) delete ⟨5, 7, 1, ["b"]⟩]

def fleet : Fleet := Fleet.started fun _ => Sample.topology

def handled (fleet : Fleet) (event : NodeEvent) : Fleet :=
  { fleet with
    nodes := Function.update fleet.nodes "a"
      ((fleet.nodes "a").handle Sample.hashing NodeIndexed.sampleConfig event)
    entries := fleet.entries ++ Fleet.batchOf (fleet.nodes "a") event }

theorem run : Transition.Run (Fleet.Step Sample.hashing fun _ => NodeIndexed.sampleConfig) fleet
    (events.map (FleetEvent.node "a")) (events.foldl handled fleet) := by
  have alone : ∀ event ∈ events, event.entries = [] ∧ event.records = [] := by
    simp [events, NodeEvent.entries, NodeEvent.records]
  have step : ∀ fleet event, event ∈ events →
      Fleet.Step Sample.hashing (fun _ => NodeIndexed.sampleConfig) fleet (.node "a" event)
          (handled fleet event) := by
    intro fleet event listed
    obtain ⟨entries, records⟩ := alone event listed
    refine .node ?_ ?_ ⟨(fleet.nodes "a").state.sources, .refl _, rfl⟩
    · simp [entries]
    · simp [records]
  exact .next (step _ _ (by simp [events])) (.next (step _ _ (by simp [events])) (.refl _))

end ExpirySample

theorem expiry_hides_and_sweeps_sample :
    (∃ process, ExpiryExact Sample.hashing NodeIndexed.sampleConfig process ∧
      (process.state.records.lookup [byte 107]).any (fun record => record.isExpired 6) = true) ∧
    ∃ process, TombstonesStay Sample.hashing NodeIndexed.sampleConfig process ∧
      (process.state.records.lookup [byte 107]).any (fun record => record.deleted) = true := by
  have run : Transition.Run (NodeProcess.Step Sample.hashing NodeIndexed.sampleConfig)
      { state := { topology := Sample.topology } } NodeIndexed.sampleEvents
      (NodeIndexed.sampleEvents.foldl (NodeProcess.handle Sample.hashing NodeIndexed.sampleConfig)
        { state := { topology := Sample.topology } }) :=
    NodeProcess.run_handle _ _ _ _
  constructor
  · exact ⟨_, (expiry_hides_and_sweeps Sample.hashing).1 _ _ _ _ run, by decide +kernel⟩
  · exact ⟨_, ((expiry_hides_and_sweeps Sample.hashing).2 _ _ _ _ ExpirySample.run "a").2,
      by decide +kernel⟩

end Hashring
