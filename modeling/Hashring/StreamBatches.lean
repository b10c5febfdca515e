import Hashring.StreamHistory
import Hashring.FairBudget
import Hashring.StoreSections
import Hashring.FailedWrite
import Mathlib.Algebra.Order.BigOperators.Group.List

/-! Every replication stream of a running node is a stream of its own kind: what the
events of the node do to its task is a run of the stream machine, with entries that
were granted by the retained budget. The tasks share one budget of active requests. -/
namespace Hashring

structure SameSending (before after : NodeState) : Prop where
  topology : after.topology = before.topology
  sequences : after.ownerStreamSequences = before.ownerStreamSequences
  unacked : after.ownerStreamUnacked = before.ownerStreamUnacked
  sequence : after.nextSequence = before.nextSequence

namespace SameSending

theorem refl (state : NodeState) : SameSending state state := ⟨rfl, rfl, rfl, rfl⟩

theorem trans {first second third : NodeState} (early : SameSending first second)
    (late : SameSending second third) :
    SameSending first third :=
  ⟨late.topology.trans early.topology, late.sequences.trans early.sequences,
    late.unacked.trans early.unacked,
    late.sequence.trans early.sequence⟩

variable {before after : NodeState}

theorem of_records (only : NodeState.OnlyRecords before after) : SameSending before after := by
  obtain ⟨⟨_, _, _, _, rfl⟩, _⟩ := only
  exact ⟨rfl, rfl, rfl, rfl⟩

theorem of_standing (only : OnlyStanding before after) : SameSending before after := by
  obtain ⟨_, _, _, _, rfl⟩ := only
  exact ⟨rfl, rfl, rfl, rfl⟩

theorem of_receipts (only : OnlyReceipts before after) : SameSending before after := by
  obtain ⟨_, _, _, _, _, _, _, _, _, rfl⟩ := only
  exact ⟨rfl, rfl, rfl, rfl⟩

theorem of_staging (only : OnlyStaging before after) : SameSending before after := by
  obtain ⟨_, _, _, _, _, _, rfl⟩ := only
  exact ⟨rfl, rfl, rfl, rfl⟩

theorem of_ranges (only : OnlyRanges before after) : SameSending before after := by
  obtain ⟨_, staged, received⟩ := only
  exact (of_staging staged).trans (of_receipts received)

theorem replicate (hashing : Hashing) (config : NodeConfig) (clock : Clock)
    (entry : ReplicationEntry) (state : NodeState) :
    SameSending state (applyReplicationEntry hashing config clock state entry).1 := by
  have met : SameSending state (state.initStream entry.stream) := ⟨rfl, rfl, rfl, rfl⟩
  have purged := met.trans
      (of_receipts (purge_expired_only hashing (state.initStream entry.stream) clock.now))
  have cases := apply_entry_cases hashing config clock state entry
  generalize applyReplicationEntry hashing config clock state entry = result at cases
  cases cases with
  | malformed => exact refl state
  | redelivered | conflict | gap | stale => exact met
  | refused => exact purged
  | accepted record =>
      have stored := purged.trans (of_records (NodeState.apply_record_only hashing _ entry.key record))
      obtain ⟨_, filed⟩ := accept_entry_only hashing clock
        (purgeExpiredDedup hashing (state.initStream entry.stream) clock.now) entry record
      refine stored.trans (trans ?_ (of_receipts filed))
      exact ⟨rfl, rfl, rfl, rfl⟩

end SameSending

def NodeEvent.Streamless : NodeEvent → Prop
  | .finishAcks .. | .replicate .. | .replicateBatch .. | .checkpoint _ | .range _ | .sweep .. |
    .renewed .. | .pausePolicy _
  | .resumePolicy _ => True
  | _ => False

theorem handle_streamless (hashing : Hashing) (config : NodeConfig) (process : NodeProcess)
    {event : NodeEvent}
    (streamless : event.Streamless) :
    SameSending process.state (process.handle hashing config event).state ∧
      (process.handle hashing config event).dispatch = process.dispatch := by
  have same := SameSending.refl process.state
  cases event with
  -- Completing a wait writes its receipt and nothing of a stream.
  | finishAcks now reached epoch mutationId version required =>
      refine ⟨?_, rfl⟩
      rw [NodeProcess.handle]
      rcases finish_required_acks_cases now process.state reached epoch mutationId version required
        with kept | completed
      · rw [kept]
        exact same
      · rw [completed]
        exact .of_receipts (complete_required_acks_only process.state mutationId version)
  | replicate clock entry => exact ⟨SameSending.replicate hashing config clock entry process.state, rfl⟩
  | replicateBatch clock entries =>
      refine ⟨?_, rfl⟩
      exact replicate_rule SameSending.refl SameSending.trans
        (fun entry _ state => SameSending.replicate hashing config clock entry state) process.state
  | checkpoint | renewed | pausePolicy | resumePolicy =>
      exact ⟨.of_standing (handle_standing hashing config process trivial), rfl⟩
  | range operation => exact ⟨.of_ranges
      (RangeOperation.perform_only hashing config process.state operation).1, rfl⟩
  | sweep nowUnixMillis limit =>
      exact ⟨.of_records (sweep_swept hashing nowUnixMillis limit process.state).only, rfl⟩
  | commit | install | refresh | collect | send | answered => exact absurd streamless id

section Commits

variable (hashing : Hashing) (config : NodeConfig)

theorem push_unacked_lookup (unixMillis : Nat) (entries : List PreparedReplication)
    (state : NodeState) (key : StreamKey) :
    ((entries.foldl (pushUnacked unixMillis) state).ownerStreamUnacked.lookup key).getD [] =
      (state.ownerStreamUnacked.lookup key).getD [] ++
        (entries.filter fun entry => entry.ownerStream = key).map fun entry =>
          (entry.streamSequence, unixMillis) := by
  induction entries generalizing state with
  | nil => simp
  | cons entry rest ih =>
      rw [List.foldl_cons, ih]
      simp only [pushUnacked, FiniteMap.lookup_insert_if]
      by_cases here : key = entry.ownerStream
      · subst here
        simp
      · have elsewhere : ¬entry.ownerStream = key := fun same => here same.symm
        simp [here, elsewhere]

theorem store_write_unacked (clock : Clock) (state : NodeState) (plan : WritePlan) (record : Record)
    (token : Token) (followers : List String) (entries : List PreparedReplication) :
    (storeWrite hashing clock state plan record token followers entries).ownerStreamUnacked =
      (entries.foldl (pushUnacked clock.unixLater)
        { state with nextSequence := record.version.ownerSequence }).ownerStreamUnacked := by
  have stored := SameSending.of_records
      (store_record_only hashing (entries.foldl (pushUnacked clock.unixLater)
    { state with nextSequence := record.version.ownerSequence }) plan record)
  unfold storeWrite
  simp only
  exact (SameSending.of_receipts (insert_dedup_only hashing _ _ _ _ _ _ _).receipts).unacked.trans
    stored.unacked

structure StreamsKept (before after : NodeProcess) : Prop where
  epoch : after.state.topology.epoch = before.state.topology.epoch
  heads : ∀ key, after.state.streamHead key = before.state.streamHead key
  unacked : after.state.ownerStreamUnacked = before.state.ownerStreamUnacked
  sequence : after.state.nextSequence = before.state.nextSequence
  tasks : ∀ key, after.dispatch.taskAt key = before.dispatch.taskAt key
  failed : after.dispatch.failedStreams = before.dispatch.failedStreams

theorem StreamsKept.of_sending {before after : NodeProcess} (same : SameSending before.state after.state)
    (dispatch : after.dispatch = before.dispatch) : StreamsKept before after where
  epoch := by rw [same.topology]
  heads := fun key => by simp only [NodeState.streamHead, same.sequences]
  unacked := same.unacked
  sequence := same.sequence
  tasks := fun key => by rw [dispatch]
  failed := by rw [dispatch]

/-- A stored write put its entries behind those of their streams, after the retained
budget had room for its mutation. -/
structure StreamsExtended (before after : NodeProcess) (unixMillis : Nat)
    (entries : List PreparedReplication) : Prop where
  epoch : after.state.topology.epoch = before.state.topology.epoch
  distinct : (entries.map (·.ownerStream)).Nodup
  stream : ∀ entry ∈ entries, entry.streamKey =
    ⟨before.state.topology.epoch, config.nodeId, entry.followerNodeId⟩
  number : ∀ entry ∈ entries, entry.streamSequence = before.state.streamHead entry.ownerStream + 1
  version : ∀ entry ∈ entries, entry.mutation.version.ownerSequence = before.state.nextSequence + 1
  small : ∀ entry ∈ entries, replicationMutationBytes entry.mutation < 2 ^ 32
  budget : ∀ entry ∈ entries,
    before.dispatch.retainedBytes + replicationMutationBytes entry.mutation ≤
      config.maxPendingReplicationBytes
  heads : ∀ key, after.state.streamHead key =
    if key ∈ entries.map (·.ownerStream) then before.state.streamHead key +
      1 else before.state.streamHead key
  unacked : ∀ key, (after.state.ownerStreamUnacked.lookup key).getD [] =
    (before.state.ownerStreamUnacked.lookup key).getD [] ++
    (entries.filter fun entry => entry.ownerStream = key).map fun entry =>
      (entry.streamSequence, unixMillis)
  sequence : after.state.nextSequence = before.state.nextSequence + 1
  tasks : ∀ key, after.dispatch.taskAt key = { before.dispatch.taskAt key with
    queue := (before.dispatch.taskAt key).queue ++ entries.filter fun entry => entry.streamKey = key }
  failed : after.dispatch.failedStreams = before.dispatch.failedStreams
  healthy : ∀ entry ∈ entries, entry.streamKey ∉ before.dispatch.failedStreams

theorem reserve_budget {dispatch opened : ReplicationDispatcher} {entries : List PreparedReplication}
    {mutation : ReplicationMutation} (carries : ∀ entry ∈ entries, entry.mutation = mutation)
    (reserved : dispatch.reserve config entries = (opened, true)) :
    ∀ entry ∈ entries, replicationMutationBytes entry.mutation < 2 ^ 32 ∧
      dispatch.retainedBytes + replicationMutationBytes entry.mutation ≤
        config.maxPendingReplicationBytes := by
  intro entry listed
  obtain ⟨first, head⟩ : ∃ first, entries.head? = some first := by
    cases entries with
    | nil => exact absurd listed List.not_mem_nil
    | cons first rest => exact ⟨first, rfl⟩
  have same : first.mutation = entry.mutation :=
    (carries first (List.mem_of_head? head)).trans (carries entry listed).symm
  unfold ReplicationDispatcher.reserve at reserved
  rw [head] at reserved
  simp only [Option.all_some] at reserved
  split at reserved
  · rename_i budgeted
    simpa only [Bool.and_eq_true, decide_eq_true_eq, same] using budgeted
  · exact absurd (congrArg Prod.snd reserved) (by simp)

theorem commit_streams (clock : Clock) (process : NodeProcess) (request : WriteRequest)
    (ready : Readiness) :
    StreamsKept process (commitRequest hashing config clock process request ready).1 ∨
      ∃ entries, StreamsExtended config process
        (commitRequest hashing config clock process request ready).1 clock.unixLater
        entries := by
  have unchanged : StreamsKept process process := .of_sending (.refl _) rfl
  have receipts := SameSending.of_receipts (purge_expired_only hashing process.state clock.now)
  have purged : StreamsKept process
      { process with state := purgeExpiredDedup hashing process.state clock.now } :=
    .of_sending receipts rfl
  have cases := commit_request_cases hashing config clock process request ready
  generalize commitRequest hashing config clock process request ready = result at cases
  cases cases with
  | invalid | unroutable | notOwner | moved => exact .inl unchanged
  | answered | declined => exact .inl purged
  | planned _ _ plan _ _ _ _ _ _ _ _ ended =>
      cases ended with
      | refused => exact .inl purged
      | rolledBack _ sequences entries dispatch reserved restored =>
          -- The numbers that were taken are given back.
          obtain ⟨failed, tasks, _⟩ := ReplicationDispatcher.reserve_spec config entries process.dispatch
          rw [reserved] at failed tasks
          exact .inl ⟨purged.epoch, fun key => (restored key).trans (purged.heads key),
            purged.unacked, purged.sequence,
            tasks, failed⟩
      | stored prepared entries dispatch _ fanned reserved =>
          right
          obtain ⟨fan, heads⟩ := prepare_fans_out _ _ _ _ fanned
          obtain ⟨failed, tasks, granted⟩ :=
            ReplicationDispatcher.reserve_spec config entries process.dispatch
          have budget := reserve_budget config fan.carries reserved
          rw [reserved] at failed tasks granted
          obtain ⟨stillFailed, queued⟩ := ReplicationDispatcher.enqueue_spec entries dispatch
            fun entry member => (granted rfl entry member).1
          have unacked := store_write_unacked hashing clock prepared plan
            (plan.record (WritePlan.version config
              (purgeExpiredDedup hashing process.state clock.now))) ready.token
            ready.followers entries
          obtain ⟨progress, sequences, rfl⟩ := prepare_frame _ _ _ _ fanned
          obtain ⟨_, _, _, _, _, _, _, _, _, _, _, frame⟩ := (store_write_effect hashing clock
            { purgeExpiredDedup hashing process.state clock.now with
              ackProgress := progress, ownerStreamSequences := sequences } plan
            (plan.record (WritePlan.version config
              (purgeExpiredDedup hashing process.state clock.now))) ready.token
            ready.followers entries).frame
          refine ⟨entries, ?_⟩
          exact {
            epoch := by
              rw [frame]
              exact purged.epoch
            distinct := fan.streams
            stream := fun entry listed => by
              rw [PreparedReplication.streamKey, fan.carries entry listed, ← purged.epoch]
              rfl
            number := fun entry listed => by
              rw [← purged.heads]
              exact fan.numbered entry listed
            version := fun entry listed => by
              rw [fan.carries entry listed, ← purged.sequence]
              rfl
            small := fun entry listed => (budget entry listed).1
            budget := fun entry listed => (budget entry listed).2
            heads := fun key => by
              rw [← purged.heads key, frame]
              exact heads key
            unacked := fun key => by
              simp only [unacked]
              rw [push_unacked_lookup, ← purged.unacked]
            sequence := by
              rw [frame, ← purged.sequence]
              rfl
            tasks := fun key => by rw [queued key, tasks key]
            failed := stillFailed.trans failed
            healthy := fun entry listed => (granted rfl entry listed).2 }

end Commits

/-- The entries of one stream are all charged to the retained budget, if no two of them
are of one mutation. -/
theorem pending_retained (dispatch : ReplicationDispatcher) (key : ReplicationStreamKey)
    (distinct : ((dispatch.taskAt key).undelivered.map (·.mutation)).Nodup) :
    (dispatch.taskAt key).pendingBytes ≤ dispatch.retainedBytes := by
  have charged : (dispatch.taskAt key).undelivered.map (·.mutation) ⊆
      ((dispatch.streams.values.flatMap StreamTask.pending).map (·.mutation)).dedup := by
    intro mutation listed
    obtain ⟨entry, held, rfl⟩ := List.mem_map.mp listed
    rw [List.mem_dedup]
    refine List.mem_map_of_mem (List.mem_flatMap.mpr ⟨dispatch.taskAt key, ?_, ?_⟩)
    · cases found : dispatch.streams.lookup key with
      | none => simp [ReplicationDispatcher.taskAt, found, StreamTask.undelivered] at held
      | some task =>
          rw [FiniteMap.mem_values_iff, ReplicationDispatcher.taskAt, found]
          exact ⟨key, found⟩
    · simpa [StreamTask.pending, StreamTask.undelivered, or_comm, or_assoc, or_left_comm] using held
  obtain ⟨part, same, inside⟩ := List.subperm_of_subset distinct charged
  calc (dispatch.taskAt key).pendingBytes
      = (((dispatch.taskAt key).undelivered.map (·.mutation)).map replicationMutationBytes).sum := by
        rw [List.map_map]
        rfl
    _ = (part.map replicationMutationBytes).sum := ((same.map _).sum_eq).symm
    _ ≤ dispatch.retainedBytes := (inside.map _).sum_le_sum fun _ _ => Nat.zero_le _

/-- A node with the streams that have a request out and the budget the requests of all
streams share. -/
structure SendingNode where
  process : NodeProcess
  awaiting : List ReplicationStreamKey := []
  active : FairBudget

inductive SendingEvent where
  | node (event : NodeEvent)
  | ask (key : ReplicationStreamKey)
  | release (index : Nat)

namespace SendingNode

variable (hashing : Hashing) (config : NodeConfig)

def Expected (awaiting : List ReplicationStreamKey) : NodeEvent → Prop
  | .send key => key ∉ awaiting
  | .answered key _ => key ∈ awaiting
  | _ => True

def outstanding (process : NodeProcess) (awaiting : List ReplicationStreamKey) :
    NodeEvent → List ReplicationStreamKey
  | .send key => if (process.sendBatch key).2.isSome then key :: awaiting else awaiting
  | .answered key _ => awaiting.filter fun other => other ≠ key
  | _ => awaiting

/-- A task asks for the bytes of its batch; what a request held is given back when it
is over. -/
def Step (before : SendingNode) (event : SendingEvent) (after : SendingNode) : Prop :=
  match event with
  | .node event => Expected before.awaiting event ∧
      NodeProcess.Step hashing config before.process event after.process ∧
      after.awaiting = outstanding before.process before.awaiting event ∧ after.active = before.active
  | .ask key => (before.process.dispatch.taskAt key).batch ≠ [] ∧
      after = { before with active := before.active.acquire (before.process.dispatch.taskAt key).batchBytes }
  | .release index => index < before.active.held.length ∧
      after = { before with active := before.active.release index }

def start (topology : TopologySnapshot) : SendingNode :=
  { process := { state := { topology } }, active := { capacity := config.maxPendingReplicationBytes } }

structure Mirrors (node : SendingNode) (key : ReplicationStreamKey) (history : StreamHistory) : Prop where
  task : node.process.dispatch.taskAt key = history.task
  open_ : history.open_ = true
  head : node.process.state.streamHead ⟨key.epoch, key.follower⟩ = history.queued.length
  unacked : (node.process.state.ownerStreamUnacked.lookup ⟨key.epoch, key.follower⟩).getD [] =
    history.unacked
  awaiting : key ∈ node.awaiting ↔ history.awaiting = true
  sequences : ∀ entry ∈ history.queued, entry.mutation.version.ownerSequence ≤
    node.process.state.nextSequence

def Live (process : NodeProcess) (key : ReplicationStreamKey) : Prop :=
  key.epoch = process.state.topology.epoch ∧ key.owner = config.nodeId ∧
    key ∉ process.dispatch.failedStreams

structure Streaming (node : SendingNode) : Prop where
  live : ∀ key, Live config node.process key → ∃ events history,
    Transition.Run (StreamHistory.Step key config.maxPendingReplicationBytes) {} events history ∧
      Mirrors node key history
  foreign : ∀ key, key.epoch ≠ node.process.state.topology.epoch ∨ key.owner ≠ config.nodeId →
    node.process.dispatch.taskAt key = {}
  failed : ∀ key ∈ node.process.dispatch.failedStreams,
    (node.process.dispatch.taskAt key).undelivered = []
  unnumbered : ∀ key, key.epoch ≠ node.process.state.topology.epoch →
    node.process.state.streamHead key = 0 ∧
    (node.process.state.ownerStreamUnacked.lookup key).getD [] = []
  past : ∀ key ∈ node.awaiting, key.epoch ≤ node.process.state.topology.epoch
  settled : node.active.Settled
  capacity : node.active.capacity = config.maxPendingReplicationBytes

variable {hashing config}

theorem Live.same_key {process : NodeProcess} {first second : ReplicationStreamKey}
    (one : Live config process first)
    (other : Live config process second) (follower : first.follower = second.follower) :
    first = second := by
  obtain ⟨epoch, owner, _⟩ := one
  obtain ⟨otherEpoch, otherOwner, _⟩ := other
  cases first
  cases second
  simp_all

theorem Streaming.busy_live {node : SendingNode} (streaming : Streaming config node)
    {key : ReplicationStreamKey}
    (busy : (node.process.dispatch.taskAt key).undelivered ≠ []) : Live config node.process key := by
  refine ⟨?_, ?_, fun failed => busy (streaming.failed key failed)⟩
  · by_contra elsewhere
    exact busy (by rw [streaming.foreign key (.inl elsewhere)]; rfl)
  · by_contra elsewhere
    exact busy (by rw [streaming.foreign key (.inr elsewhere)]; rfl)

theorem Streaming.of_kept {node : SendingNode} (streaming : Streaming config node) {process : NodeProcess}
    (kept : StreamsKept node.process process) : Streaming config { node with process } where
  live := by
    intro key alive
    rw [Live, kept.epoch, kept.failed] at alive
    obtain ⟨events, history, run, mirrors⟩ := streaming.live key alive
    refine ⟨events, history, run, ?_⟩
    exact {
      task := (kept.tasks key).trans mirrors.task
      open_ := mirrors.open_
      head := (kept.heads _).trans mirrors.head
      unacked := by
        simp only [kept.unacked]
        exact mirrors.unacked
      awaiting := mirrors.awaiting
      sequences := fun entry listed => kept.sequence ▸ mirrors.sequences entry listed }
  foreign := fun key elsewhere => (kept.tasks key).trans (streaming.foreign key (kept.epoch ▸ elsewhere))
  failed := fun key failed => by
    simp only [kept.tasks key]
    exact streaming.failed key (kept.failed ▸ failed)
  unnumbered := fun key elsewhere => by
    simp only [kept.heads key, kept.unacked]
    exact streaming.unnumbered key (kept.epoch ▸ elsewhere)
  past := fun key out => by
    simp only [kept.epoch]
    exact streaming.past key out
  settled := streaming.settled
  capacity := streaming.capacity

theorem Streaming.advance {node after : SendingNode} (streaming : Streaming config node)
    {moved : ReplicationStreamKey} (alive : Live config node.process moved)
    (epoch : after.process.state.topology.epoch = node.process.state.topology.epoch)
    (failed : after.process.dispatch.failedStreams = node.process.dispatch.failedStreams)
    (sequence : after.process.state.nextSequence = node.process.state.nextSequence)
    (heads : ∀ key, after.process.state.streamHead key = node.process.state.streamHead key)
    (tasks : ∀ key, key ≠ moved → after.process.dispatch.taskAt key = node.process.dispatch.taskAt key)
    (unacked : ∀ key, key ≠ ⟨moved.epoch, moved.follower⟩ →
      after.process.state.ownerStreamUnacked.lookup key =
        node.process.state.ownerStreamUnacked.lookup key)
    (awaiting : ∀ key, key ≠ moved → (key ∈ after.awaiting ↔ key ∈ node.awaiting))
    (active : after.active = node.active)
    (steps : ∀ history, history.Exact moved config.maxPendingReplicationBytes →
      Mirrors node moved history →
      ∃ event, history.Enabled moved config.maxPendingReplicationBytes event ∧
        Mirrors after moved (history.next event)) :
    Streaming config after where
  live := by
    intro key live
    rw [Live, epoch, failed] at live
    obtain ⟨events, history, run, mirrors⟩ := streaming.live key live
    by_cases here : key = moved
    · subst here
      obtain ⟨event, enabled, mirrored⟩ := steps history (StreamHistory.run_exact run) mirrors
      exact ⟨events ++ [event], _, Transition.run_append run (Transition.run_single ⟨enabled, rfl⟩),
        mirrored⟩
    · refine ⟨events, history, run, ?_⟩
      -- The tables of the streams have no owner in their key; live streams share theirs.
      have elsewhere : (⟨key.epoch, key.follower⟩ : StreamKey) ≠ ⟨moved.epoch, moved.follower⟩ := by
        intro same
        exact here (Live.same_key live alive (StreamKey.mk.injEq .. ▸ same).2)
      exact {
        task := (tasks key here).trans mirrors.task
        open_ := mirrors.open_
        head := (heads _).trans mirrors.head
        unacked := (congrArg (Option.getD · []) (unacked _ elsewhere)).trans mirrors.unacked
        awaiting := (awaiting key here).trans mirrors.awaiting
        sequences := fun entry listed => sequence ▸ mirrors.sequences entry listed }
  foreign := by
    intro key elsewhere
    rw [epoch] at elsewhere
    have different : key ≠ moved := by
      rintro rfl
      exact elsewhere.elim (fun other => other alive.1) (fun other => other alive.2.1)
    rw [tasks key different]
    exact streaming.foreign key elsewhere
  failed := by
    intro key lost
    rw [failed] at lost
    have different : key ≠ moved := by
      rintro rfl
      exact alive.2.2 lost
    rw [tasks key different]
    exact streaming.failed key lost
  unnumbered := by
    intro key elsewhere
    rw [epoch] at elsewhere
    have different : key ≠ ⟨moved.epoch, moved.follower⟩ := by
      rintro rfl
      exact elsewhere alive.1
    rw [heads, unacked key different]
    exact streaming.unnumbered key elsewhere
  past := by
    intro key out
    rw [epoch]
    by_cases here : key = moved
    · rw [here, alive.1]
    · exact streaming.past key ((awaiting key here).mp out)
  settled := active ▸ streaming.settled
  capacity := active ▸ streaming.capacity

theorem mutations_distinct {key : ReplicationStreamKey} {capacity : Nat} {history : StreamHistory}
    (exact_ : history.Exact key capacity) : (history.task.undelivered.map (·.mutation)).Nodup := by
  rw [← exact_.pending]
  have rising := exact_.rising.sublist (List.drop_sublist history.acked history.queued)
  refine List.Pairwise.map _ (fun earlier later below same => ?_) rising
  simp only [same] at below
  omega

theorem filter_single {entries : List PreparedReplication}
    (distinct : (entries.map (·.ownerStream)).Nodup) (key : StreamKey) :
    entries.filter (fun entry => entry.ownerStream = key) = [] ∨
      ∃ entry ∈ entries, entry.ownerStream = key ∧
        entries.filter (fun entry => entry.ownerStream = key) = [entry] := by
  induction entries with
  | nil => exact .inl rfl
  | cons first rest ih =>
      simp only [List.map_cons, List.nodup_cons] at distinct
      by_cases here : first.ownerStream = key
      · have none : rest.filter (fun entry => entry.ownerStream = key) = [] := by
          rw [List.filter_eq_nil_iff]
          intro entry listed
          simp only [decide_eq_true_eq]
          rintro rfl
          exact distinct.1 (here ▸ List.mem_map_of_mem listed)
        refine .inr ⟨first, List.mem_cons_self, here, ?_⟩
        rw [List.filter_cons_of_pos (by simpa using here), none]
      · rw [List.filter_cons_of_neg (by simpa using here)]
        exact (ih distinct.2).imp_right fun ⟨entry, listed, found⟩ =>
          ⟨entry, List.mem_cons_of_mem _ listed, found⟩

section Writes

variable {node : SendingNode} {process : NodeProcess} {unixMillis : Nat}
  {entries : List PreparedReplication}

theorem extended_stream_iff (extended : StreamsExtended config node.process process unixMillis entries)
    {key : ReplicationStreamKey} (epoch : key.epoch = node.process.state.topology.epoch)
    (owner : key.owner = config.nodeId) (entry : PreparedReplication) (listed : entry ∈ entries) :
    entry.streamKey = key ↔ entry.ownerStream = ⟨key.epoch, key.follower⟩ := by
  have stream := extended.stream entry listed
  simp only [PreparedReplication.streamKey, ReplicationStreamKey.mk.injEq] at stream
  obtain ⟨keyEpoch, keyOwner, keyFollower⟩ := key
  simp only [PreparedReplication.streamKey, PreparedReplication.ownerStream,
    ReplicationStreamKey.mk.injEq,
    StreamKey.mk.injEq] at epoch owner ⊢
  constructor
  · rintro ⟨same, _, follower⟩
    exact ⟨same, follower⟩
  · rintro ⟨same, follower⟩
    exact ⟨same, stream.2.1.trans owner.symm, follower⟩

theorem extended_elsewhere (extended : StreamsExtended config node.process process unixMillis entries)
    {key : ReplicationStreamKey} (absent : ∀ entry ∈ entries, entry.streamKey ≠ key) :
    process.dispatch.taskAt key = node.process.dispatch.taskAt key := by
  have none : entries.filter (fun entry => entry.streamKey = key) = [] := by
    rw [List.filter_eq_nil_iff]
    intro entry listed
    simpa using absent entry listed
  rw [extended.tasks key, none, List.append_nil]

theorem extended_mirrors (extended : StreamsExtended config node.process process unixMillis entries)
    {key : ReplicationStreamKey} (alive : Live config node.process key) {history : StreamHistory}
    (exact_ : history.Exact key config.maxPendingReplicationBytes) (mirrors : Mirrors node key history) :
    Mirrors { node with process } key history ∨
      ∃ entry, history.Admits key config.maxPendingReplicationBytes entry ∧
      Mirrors { node with process } key (history.next (.queue entry unixMillis)) := by
  have same : entries.filter (fun entry => entry.streamKey = key) =
      entries.filter fun entry => entry.ownerStream = ⟨key.epoch, key.follower⟩ := by
    refine List.filter_congr fun entry listed => ?_
    rw [decide_eq_decide]
    exact extended_stream_iff extended alive.1 alive.2.1 entry listed
  have task := extended.tasks key
  have unacked := extended.unacked ⟨key.epoch, key.follower⟩
  have head := extended.heads ⟨key.epoch, key.follower⟩
  rw [same, mirrors.task] at task
  rw [mirrors.unacked] at unacked
  -- A write has at most one entry for each stream.
  rcases filter_single extended.distinct ⟨key.epoch, key.follower⟩
    with none | ⟨entry, listed, stream, one⟩
  · left
    have absent : (⟨key.epoch, key.follower⟩ : StreamKey) ∉ entries.map (·.ownerStream) := by
      intro present
      obtain ⟨entry, listed, stream⟩ := List.mem_map.mp present
      have kept : entry ∈ entries.filter fun entry => entry.ownerStream = ⟨key.epoch, key.follower⟩ := by
        simpa using ⟨listed, stream⟩
      rw [none] at kept
      exact absurd kept List.not_mem_nil
    rw [none, List.append_nil] at task
    rw [none, List.map_nil, List.append_nil] at unacked
    rw [if_neg absent, mirrors.head] at head
    refine ⟨task, mirrors.open_, head, unacked, mirrors.awaiting, fun entry listed => ?_⟩
    have earlier := mirrors.sequences entry listed
    simp only [extended.sequence]
    omega
  · right
    have present : (⟨key.epoch, key.follower⟩ : StreamKey) ∈ entries.map (·.ownerStream) :=
      stream ▸ List.mem_map_of_mem listed
    rw [one] at task
    rw [one, List.map_singleton] at unacked
    rw [if_pos present, mirrors.head] at head
    refine ⟨entry, ?_, task, mirrors.open_, ?_, unacked, mirrors.awaiting, ?_⟩
    · have retained := pending_retained node.process.dispatch key
          (by rw [mirrors.task]; exact mutations_distinct exact_)
      have budget := extended.budget entry listed
      rw [mirrors.task] at retained
      refine ⟨mirrors.open_, (extended_stream_iff extended alive.1 alive.2.1 entry listed).mpr
        stream, ?_, ?_,
        extended.small entry listed, by omega⟩
      · rw [extended.number entry listed, stream, mirrors.head]
      · intro earlier before
        rw [extended.version entry listed]
        exact Nat.lt_succ_of_le (mirrors.sequences earlier before)
    · simpa [StreamHistory.next] using head
    · intro other known
      simp only [extended.sequence]
      rcases List.mem_append.mp known with early | last
      · have earlier := mirrors.sequences other early
        omega
      · rw [List.mem_singleton.mp last, extended.version entry listed]

theorem Streaming.extended (streaming : Streaming config node)
    (extended : StreamsExtended config node.process process unixMillis entries) :
    Streaming config { node with process } where
  live := by
    intro key alive
    rw [Live, extended.epoch, extended.failed] at alive
    obtain ⟨events, history, run, mirrors⟩ := streaming.live key alive
    rcases extended_mirrors extended alive (StreamHistory.run_exact run) mirrors
      with same | ⟨entry, admits, queued⟩
    · exact ⟨events, history, run, same⟩
    · -- One arrival more in the history of the stream; the other streams see none.
      have step : StreamHistory.Step key config.maxPendingReplicationBytes history
          (.queue entry unixMillis)
          (history.next (.queue entry unixMillis)) := ⟨admits, rfl⟩
      exact ⟨_, _, Transition.run_append run (Transition.run_single step), queued⟩
  foreign := by
    intro key elsewhere
    simp only [extended.epoch] at elsewhere
    have absent : ∀ entry ∈ entries, entry.streamKey ≠ key := by
      rintro entry listed rfl
      rw [extended.stream entry listed] at elsewhere
      exact elsewhere.elim (fun other => other rfl) fun other => other rfl
    simp only [extended_elsewhere extended absent]
    exact streaming.foreign key elsewhere
  failed := by
    intro key lost
    simp only [extended.failed] at lost
    have absent : ∀ entry ∈ entries, entry.streamKey ≠ key := by
      rintro entry listed rfl
      exact extended.healthy entry listed lost
    simp only [extended_elsewhere extended absent]
    exact streaming.failed key lost
  unnumbered := by
    intro key elsewhere
    simp only [extended.epoch] at elsewhere
    have absent : ∀ entry ∈ entries, entry.ownerStream ≠ key := by
      rintro entry listed rfl
      have stream := extended.stream entry listed
      simp only [PreparedReplication.streamKey, ReplicationStreamKey.mk.injEq] at stream
      exact elsewhere stream.1
    have none : entries.filter (fun entry => entry.ownerStream = key) = [] := by
      rw [List.filter_eq_nil_iff]
      intro entry listed
      simpa using absent entry listed
    have unlisted : key ∉ entries.map (·.ownerStream) := by
      intro present
      obtain ⟨entry, listed, same⟩ := List.mem_map.mp present
      exact absent entry listed same
    simp only [extended.heads key, extended.unacked key, if_neg unlisted, none, List.map_nil,
      List.append_nil]
    exact streaming.unnumbered key elsewhere
  past := fun key out => by
    simp only [extended.epoch]
    exact streaming.past key out
  settled := streaming.settled
  capacity := streaming.capacity

end Writes

theorem undelivered_nil {task : StreamTask} (idle : task.undelivered = []) :
    task.batch = [] ∧ task.carry = none ∧ task.queue = [] := by
  simp only [StreamTask.undelivered, List.append_eq_nil_iff, Option.toList_eq_nil_iff] at idle
  exact ⟨idle.1.1, idle.1.2, idle.2⟩

theorem collect_idle {task : StreamTask} (idle : task.undelivered = []) : task.collect = task := by
  obtain ⟨batch, carry, queue⟩ := undelivered_nil idle
  unfold StreamTask.collect
  split
  · rfl
  · simp only [carry, queue]

theorem Streaming.collect {node : SendingNode} (streaming : Streaming config node)
    (moved : ReplicationStreamKey) :
    Streaming config { node with process := node.process.collectBatch moved } := by
  by_cases idle : (node.process.dispatch.taskAt moved).undelivered = []
  · refine streaming.of_kept ⟨rfl, fun _ => rfl, rfl, rfl, fun key => ?_, rfl⟩
    rw [NodeProcess.collectBatch, NodeProcess.task_at_set]
    split
    · rename_i here
      rw [here, collect_idle idle]
    · rfl
  · refine streaming.advance (streaming.busy_live idle) rfl rfl rfl (fun _ => rfl)
      (fun key different => ?_) (fun _ _ => rfl)
      (fun _ _ => Iff.rfl) rfl fun history _ mirrors => ⟨.collect, trivial, ?_⟩
    · rw [NodeProcess.collectBatch, NodeProcess.task_at_set, if_neg different]
    · refine ⟨?_, mirrors.open_, mirrors.head, mirrors.unacked, mirrors.awaiting, mirrors.sequences⟩
      rw [NodeProcess.collectBatch, NodeProcess.task_at_set, if_pos rfl, mirrors.task]
      rfl

theorem Streaming.send {node : SendingNode} (streaming : Streaming config node)
    (moved : ReplicationStreamKey) (free : moved ∉ node.awaiting) :
    Streaming config { node with
      process := (node.process.sendBatch moved).1
      awaiting := outstanding node.process node.awaiting (.send moved) } := by
  cases batch : (node.process.dispatch.taskAt moved).batch with
  | nil =>
      have nothing : node.process.sendBatch moved = (node.process, none) := by
        simp [NodeProcess.sendBatch, batch]
      simp only [outstanding, nothing]
      exact streaming
  | cons first rest =>
      have alive : Live config node.process moved :=
        streaming.busy_live (by simp [StreamTask.undelivered, batch])
      -- Its entries were queued in the epoch of the stream, which is alive.
      have current : node.process.state.topology.epoch = first.mutation.topologyEpoch := by
        obtain ⟨_, history, run, mirrors⟩ := streaming.live moved alive
        have exact_ := StreamHistory.run_exact run
        have listed : first ∈ history.queued := by
          have here : first ∈ history.task.batch := by
            rw [← mirrors.task, batch]
            exact List.mem_cons_self
          rw [exact_.batch_cut] at here
          exact List.mem_of_mem_drop (List.mem_of_mem_take here)
        have stream := exact_.streams first listed
        rw [← alive.1, ← stream]
        rfl
      have sent : node.process.sendBatch moved =
          (node.process.setTask moved { node.process.dispatch.taskAt moved with collected := true },
            some ((first :: rest).map PreparedReplication.toProto)) := by
        simp only [NodeProcess.sendBatch, batch]
        rw [if_neg (not_not.mpr current)]
      simp only [outstanding, sent, Option.isSome_some, ↓reduceIte]
      refine streaming.advance alive rfl rfl rfl (fun _ => rfl) (fun key different => ?_) (fun _ _ => rfl)
        (fun key different => ?_) rfl fun history exact_ mirrors => ⟨.send, ?_, ?_⟩
      · simp only [NodeProcess.task_at_set, if_neg different]
      · simp [different]
      · refine ⟨?_, ?_⟩
        · rw [← mirrors.task, batch]
          simp
        · rw [← Bool.not_eq_true]
          exact fun out => free (mirrors.awaiting.mpr out)
      · refine ⟨?_, mirrors.open_, mirrors.head, mirrors.unacked, ?_, mirrors.sequences⟩
        · simp only [NodeProcess.task_at_set, ↓reduceIte, mirrors.task]
          rfl
        · exact iff_of_true List.mem_cons_self rfl

theorem fail_task_at (process : NodeProcess) (lost key : ReplicationStreamKey) :
    (process.failStream lost).dispatch.taskAt key = if key =
      lost then { closed := true } else process.dispatch.taskAt key :=
  NodeProcess.task_at_set process lost key { closed := true }

theorem Streaming.fail {node : SendingNode} (streaming : Streaming config node)
    {lost : ReplicationStreamKey} (alive : Live config node.process lost) :
    Streaming config { node with
      process := node.process.failStream lost
      awaiting := node.awaiting.filter fun other => other ≠ lost } where
  live := by
    rintro key ⟨epoch, owner, healthy⟩
    have listed : key ∉ lost :: node.process.dispatch.failedStreams := healthy
    rw [List.mem_cons, not_or] at listed
    obtain ⟨events, history, run, mirrors⟩ := streaming.live key ⟨epoch, owner, listed.2⟩
    refine ⟨events, history, run, ?_⟩
    refine ⟨?_, mirrors.open_, mirrors.head, mirrors.unacked, ?_, mirrors.sequences⟩
    · rw [fail_task_at, if_neg listed.1]
      exact mirrors.task
    · simpa [listed.1] using mirrors.awaiting
  foreign := by
    intro key elsewhere
    have different : key ≠ lost := by
      rintro rfl
      exact elsewhere.elim (fun other => other alive.1) fun other => other alive.2.1
    rw [fail_task_at, if_neg different]
    exact streaming.foreign key elsewhere
  failed := by
    intro key gone
    rw [fail_task_at]
    split
    · rfl
    · rename_i different
      exact streaming.failed key ((List.mem_cons.mp gone).resolve_left different)
  unnumbered := streaming.unnumbered
  past := fun key out => streaming.past key (List.mem_filter.mp out).1
  settled := streaming.settled
  capacity := streaming.capacity

theorem Streaming.awaited {node : SendingNode} (streaming : Streaming config node)
    {key : ReplicationStreamKey}
    (out : key ∈ node.awaiting) (alive : Live config node.process key) :
    (node.process.dispatch.taskAt key).batch ≠ [] := by
  obtain ⟨_, history, run, mirrors⟩ := streaming.live key alive
  have exact_ := StreamHistory.run_exact run
  have waits := mirrors.awaiting.mp out
  rw [mirrors.task]
  rcases exact_.place with ⟨_, none⟩ | ⟨_, _, some_⟩
  · exact absurd (waits.symm.trans none) (by simp)
  · exact some_

/-- The answer is over, and the task sends the batch again. -/
theorem Streaming.retry {node : SendingNode} (streaming : Streaming config node)
    {key : ReplicationStreamKey} (out : key ∈ node.awaiting) (alive : Live config node.process key) :
    Streaming config { node with awaiting := node.awaiting.filter fun other => other ≠ key } := by
  refine streaming.advance alive rfl rfl rfl (fun _ => rfl) (fun _ _ => rfl) (fun _ _ => rfl)
    (fun other different => ?_) rfl
    fun history _ mirrors => ⟨.retried, mirrors.awaiting.mp out, ?_⟩
  · simp [different]
  · refine ⟨mirrors.task, mirrors.open_, mirrors.head, mirrors.unacked, ?_, mirrors.sequences⟩
    exact iff_of_false (by simp) (by simp [StreamHistory.next])

theorem Streaming.forget {node : SendingNode} (streaming : Streaming config node)
    {key : ReplicationStreamKey} (dead : ¬Live config node.process key) :
    Streaming config { node with awaiting := node.awaiting.filter fun other => other ≠ key } where
  live := by
    intro other alive
    obtain ⟨events, history, run, mirrors⟩ := streaming.live other alive
    have different : other ≠ key := by
      rintro rfl
      exact dead alive
    refine ⟨events, history, run, mirrors.task, mirrors.open_, mirrors.head, mirrors.unacked, ?_,
      mirrors.sequences⟩
    simpa [different] using mirrors.awaiting
  foreign := streaming.foreign
  failed := streaming.failed
  unnumbered := streaming.unnumbered
  past := fun key out => streaming.past key (List.mem_filter.mp out).1
  settled := streaming.settled
  capacity := streaming.capacity

/-- A usable answer is taken as the stream machine takes it. -/
theorem Streaming.applied {node : SendingNode} (streaming : Streaming config node)
    {key : ReplicationStreamKey} (out : key ∈ node.awaiting) (alive : Live config node.process key)
    (first : PreparedReplication) (rest : List PreparedReplication)
    (batch : (node.process.dispatch.taskAt key).batch = first :: rest)
    (response : ReplicateMutationsResponse) (named : response.processInstanceId.isEmpty = false)
    (covers : first.streamSequence ≤ response.appliedStreamSequence) :
    Streaming config { node with
      process := { node.process with
        state := NodeProcess.recordAck node.process.state first.ownerStream response }.setTask key
        ((node.process.dispatch.taskAt key).retain response.appliedStreamSequence)
      awaiting := node.awaiting.filter fun other => other ≠ key } := by
  have stream : first.ownerStream = ⟨key.epoch, key.follower⟩ := by
    obtain ⟨_, history, run, mirrors⟩ := streaming.live key alive
    have exact_ := StreamHistory.run_exact run
    have listed : first ∈ history.task.batch := by
      rw [← mirrors.task, batch]
      exact List.mem_cons_self
    rw [exact_.batch_cut] at listed
    rw [← exact_.streams first (List.mem_of_mem_drop (List.mem_of_mem_take listed))]
    rfl
  refine streaming.advance alive rfl rfl rfl (fun _ => rfl) (fun other different => ?_)
    (fun other different => ?_)
    (fun other different => ?_) rfl fun history _ mirrors => ⟨.answered response, ?_, ?_⟩
  · simp only [NodeProcess.task_at_set, if_neg different]
  · simp only [NodeProcess.setTask, NodeProcess.recordAck, stream, FiniteMap.lookup_modify,
      if_neg different, Option.map_id']
  · simp [different]
  · refine ⟨mirrors.awaiting.mp out, named, first, ?_, covers⟩
    rw [← mirrors.task, batch]
    rfl
  · refine ⟨?_, mirrors.open_, mirrors.head, ?_, ?_, mirrors.sequences⟩
    · simp only [NodeProcess.task_at_set, ↓reduceIte, mirrors.task]
      rfl
    · simp only [NodeProcess.setTask, NodeProcess.recordAck, stream, FiniteMap.lookup_modify,
        ↓reduceIte, StreamHistory.next,
        ← mirrors.unacked]
      cases node.process.state.ownerStreamUnacked.lookup ⟨key.epoch, key.follower⟩ with
      | none => rfl
      | some queue => rfl
    · exact iff_of_false (by simp) (by simp [StreamHistory.next])

theorem Streaming.answered {node : SendingNode} (streaming : Streaming config node)
    (key : ReplicationStreamKey) (out : key ∈ node.awaiting)
    (answer : Except Status ReplicateMutationsResponse) :
    Streaming config { node with
      process := node.process.receiveAnswer key answer
      awaiting := node.awaiting.filter fun other => other ≠ key } := by
  by_cases alive : Live config node.process key
  · cases batch : (node.process.dispatch.taskAt key).batch with
    | nil => exact absurd batch (streaming.awaited out alive)
    | cons first rest =>
        cases answer with
        | ok response =>
            simp only [NodeProcess.receiveAnswer, batch]
            split
            · rename_i usable
              exact streaming.applied out alive first rest batch response usable.1 usable.2
            · exact streaming.fail alive
        | error status =>
            simp only [NodeProcess.receiveAnswer, batch]
            split
            · exact streaming.retry out alive
            · exact streaming.fail alive
  · have idle : (node.process.dispatch.taskAt key).batch = [] := by
      by_contra busy
      exact alive (streaming.busy_live (by simp [StreamTask.undelivered, busy]))
    simp only [NodeProcess.receiveAnswer, idle]
    exact streaming.forget alive

theorem adopt_tables (hashing : Hashing) (process : NodeProcess) (topology : TopologySnapshot) :
    (adoptTopology hashing process topology).state.topology = topology ∧
      (adoptTopology hashing process topology).state.ownerStreamSequences =
        process.state.ownerStreamSequences.retain (fun key _ => key.epoch = topology.epoch) ∧
      (adoptTopology hashing process topology).state.ownerStreamUnacked =
        process.state.ownerStreamUnacked.retain (fun key _ => key.epoch = topology.epoch) ∧
      (adoptTopology hashing process topology).state.nextSequence = process.state.nextSequence := by
  have unleased : SameSending process.state
      (if topology.epoch ≠ process.state.topology.epoch then
        NodeState.clearReplicaRepairStaging { process.state with lease := none, admittedFollowers := ∅ }
      else process.state) := by
    split
    · have bare : SameSending process.state
          { process.state with lease := none, admittedFollowers := ∅ } :=
        ⟨rfl, rfl, rfl, rfl⟩
      exact bare.trans (.of_staging ((OnlyStaging.remove_sources _ _).with_destinations _))
    · exact .refl _
  have installed : ∀ state : NodeState, (state.setTopology hashing topology).topology = topology ∧
      (state.setTopology hashing topology).ownerStreamSequences = state.ownerStreamSequences ∧
      (state.setTopology hashing topology).ownerStreamUnacked = state.ownerStreamUnacked ∧
      (state.setTopology hashing topology).nextSequence = state.nextSequence := by
    intro state
    unfold NodeState.setTopology
    split <;> exact ⟨rfl, rfl, rfl, rfl⟩
  have pruned : ∀ state : NodeState, SameSending state (pruneAckProgress state) := by
    intro state
    unfold pruneAckProgress
    simp only
    split <;> exact ⟨rfl, rfl, rfl, rfl⟩
  obtain ⟨topologySet, sequences, unacked, sequence⟩ :=
    installed (if topology.epoch ≠ process.state.topology.epoch then
    NodeState.clearReplicaRepairStaging { process.state with lease := none, admittedFollowers := ∅ }
      else process.state)
  refine ⟨(pruned _).topology.trans topologySet, (pruned _).sequences.trans ?_,
    (pruned _).unacked.trans ?_,
    (pruned _).sequence.trans (sequence.trans unleased.sequence)⟩
  · simp only [sequences, unleased.sequences]
  · simp only [unacked, unleased.unacked]

theorem prune_task_at (dispatch : ReplicationDispatcher) (epoch : Nat) (key : ReplicationStreamKey) :
    (dispatch.pruneEpoch epoch).taskAt key =
      if key.epoch = epoch ∧ (dispatch.taskAt key).closed = false then dispatch.taskAt key else {} := by
  simp only [ReplicationDispatcher.pruneEpoch, ReplicationDispatcher.taskAt, FiniteMap.lookup_retain]
  rcases Option.eq_none_or_eq_some (dispatch.streams.lookup key) with found | ⟨task, found⟩
  · simp [found]
  · simp only [found, Option.getD_some, Option.filter_some, Bool.and_eq_true, decide_eq_true_eq,
      Bool.not_eq_true']
    split <;> rfl

theorem retain_epoch {ν : Type} (table : FiniteMap StreamKey ν) (epoch : Nat) (key : StreamKey)
    (default : ν) :
    ((table.retain fun key _ => key.epoch = epoch).lookup key).getD default =
      if key.epoch = epoch then (table.lookup key).getD default else default := by
  rw [FiniteMap.lookup_retain]
  cases table.lookup key with
  | none => simp
  | some value =>
      rw [Option.filter_some]
      by_cases here : key.epoch = epoch <;> simp [here]

/-- A topology of the same epoch keeps the live streams; one of a later epoch begins
with no streams at all. -/
theorem Streaming.adopt {node : SendingNode} (streaming : Streaming config node) (hashing : Hashing)
    (topology : TopologySnapshot) (newer : node.process.state.topology.epoch ≤ topology.epoch) :
    Streaming config { node with process := adoptTopology hashing node.process topology } := by
  obtain ⟨installed, sequences, unacked, sequence⟩ := adopt_tables hashing node.process topology
  have heads : ∀ key : StreamKey, (adoptTopology hashing node.process topology).state.streamHead key =
      if key.epoch = topology.epoch then node.process.state.streamHead key else 0 := by
    intro key
    simp only [NodeState.streamHead, sequences]
    exact retain_epoch _ topology.epoch key 0
  have waiting : ∀ key : StreamKey,
      ((adoptTopology hashing node.process topology).state.ownerStreamUnacked.lookup key).getD [] =
      if key.epoch = topology.epoch then (node.process.state.ownerStreamUnacked.lookup key).getD
          [] else [] := by
    intro key
    simp only [unacked]
    exact retain_epoch _ topology.epoch key []
  have tasks : ∀ key, (adoptTopology hashing node.process topology).dispatch.taskAt key =
      if key.epoch = topology.epoch ∧ (node.process.dispatch.taskAt key).closed = false
      then node.process.dispatch.taskAt key
      else {} := prune_task_at node.process.dispatch topology.epoch
  -- Streams of another epoch are dropped; those of this epoch keep their tables and tasks.
  refine
    { live := ?_
      foreign := ?_
      failed := ?_
      unnumbered := ?_
      past := ?_
      settled := streaming.settled
      capacity := streaming.capacity }
  · rintro key ⟨epoch, owner, healthy⟩
    simp only [installed] at epoch
    by_cases same : node.process.state.topology.epoch = topology.epoch
    · -- The topology is of the same epoch: the stream goes on with the history it has.
      have alive : Live config node.process key := by
        refine ⟨epoch.trans same.symm, owner, fun lost => healthy ?_⟩
        exact List.mem_filter.mpr ⟨lost, by simpa using epoch⟩
      obtain ⟨events, history, run, mirrors⟩ := streaming.live key alive
      refine ⟨events, history, run, ?_⟩
      have running := (StreamHistory.run_exact run).running
      refine ⟨?_, mirrors.open_, ?_, ?_, mirrors.awaiting, ?_⟩
      · simp only [tasks key]
        rw [if_pos ⟨epoch, by rw [mirrors.task]; exact running⟩]
        exact mirrors.task
      · simp only [heads]
        rw [if_pos epoch]
        exact mirrors.head
      · simp only [waiting]
        rw [if_pos epoch]
        exact mirrors.unacked
      · intro entry listed
        simp only [sequence]
        exact mirrors.sequences entry listed
    · -- No stream of the new epoch was there before.
      have early : key.epoch ≠ node.process.state.topology.epoch :=
        fun here => same (here.symm.trans epoch)
      obtain ⟨unnumbered, silent⟩ := streaming.unnumbered ⟨key.epoch, key.follower⟩ early
      refine ⟨[], {}, .refl _, ?_, rfl, ?_, ?_, ?_, fun entry listed => absurd listed List.not_mem_nil⟩
      · simp only [tasks key, streaming.foreign key (.inl early)]
        split <;> rfl
      · simp only [heads]
        rw [if_pos epoch]
        exact unnumbered
      · simp only [waiting]
        rw [if_pos epoch]
        exact silent
      · refine iff_of_false (fun out => ?_) (by simp)
        have past := streaming.past key out
        omega
  · intro key elsewhere
    simp only [installed] at elsewhere
    simp only [tasks key]
    by_cases here : key.epoch = topology.epoch
    · have foreign := streaming.foreign key (.inr (elsewhere.resolve_left fun other => other here))
      rw [foreign]
      split <;> rfl
    · rw [if_neg fun kept => here kept.1]
  · intro key lost
    have listed := (List.mem_filter.mp lost).1
    simp only [tasks key]
    split
    · exact streaming.failed key listed
    · rfl
  · intro key elsewhere
    simp only [installed] at elsewhere
    simp only [heads key, waiting key, if_neg elsewhere, and_self]
  · intro key out
    simp only [installed]
    exact (streaming.past key out).trans newer

theorem Streaming.handle {node : SendingNode} (streaming : Streaming config node)
    (hashing : Hashing) (event : NodeEvent) (expected : Expected node.awaiting event) :
    Streaming config { node with
      process := node.process.handle hashing config event
      awaiting := outstanding node.process node.awaiting event } := by
  have streamless : event.Streamless →
      Streaming config { node with process := node.process.handle hashing config event } := by
    intro quiet
    obtain ⟨same, dispatch⟩ := handle_streamless hashing config node.process quiet
    exact streaming.of_kept (.of_sending same dispatch)
  cases event with
  | commit clock request ready =>
      rcases commit_streams hashing config clock node.process request ready
        with kept | ⟨entries, extended⟩
      · exact streaming.of_kept kept
      · exact streaming.extended extended
  | collect key => exact streaming.collect key
  | send key => exact streaming.send key expected
  | answered key answer => exact streaming.answered key expected answer
  | install topology =>
      simp only [NodeProcess.handle, installTopology, outstanding]
      split
      · exact streaming
      · rename_i newer
        exact streaming.adopt hashing topology (not_lt.mp newer)
  | refresh topology =>
      simp only [NodeProcess.handle, refreshTopology, outstanding]
      split
      · rename_i newer
        exact streaming.adopt hashing topology newer
      · exact streaming
  | finishAcks | replicate | replicateBatch | checkpoint | range | sweep | renewed | pausePolicy |
      resumePolicy =>
      exact streamless trivial

theorem Streaming.budgeted {node : SendingNode} (streaming : Streaming config node)
    {event : FairBudget.Event}
    {active : FairBudget} (step : FairBudget.Step node.active event active) :
    Streaming config { node with active } := by
  obtain ⟨settled, capacity⟩ := step.settled streaming.settled
  refine
    { live := fun key alive => ?_
      foreign := streaming.foreign
      failed := streaming.failed
      unnumbered := streaming.unnumbered
      past := streaming.past
      settled := settled
      capacity := capacity.trans streaming.capacity }
  obtain ⟨events, history, run, mirrors⟩ := streaming.live key alive
  exact ⟨events, history, run, mirrors.task, mirrors.open_, mirrors.head, mirrors.unacked,
    mirrors.awaiting, mirrors.sequences⟩

theorem Streaming.asks {node : SendingNode} (streaming : Streaming config node)
    (key : ReplicationStreamKey) (busy : (node.process.dispatch.taskAt key).batch ≠ []) :
    (node.process.dispatch.taskAt key).batchBytes ≤ node.active.capacity := by
  obtain ⟨_, history, run, mirrors⟩ :=
    streaming.live key (streaming.busy_live (by simp [StreamTask.undelivered, busy]))
  rw [mirrors.task, streaming.capacity]
  exact (StreamHistory.run_exact run).batch_budget

/-- Whether a request is made does not depend on the order of the source ranges. -/
theorem outstanding_reordered (process : NodeProcess) (sources : FiniteMap RangeKey SourceMigration)
    (awaiting : List ReplicationStreamKey) (event : NodeEvent) :
    outstanding { process with state := { process.state with sources } } awaiting event =
      outstanding process awaiting event := by
  cases event with
  | send key =>
      have same : (NodeProcess.sendBatch { process with state := { process.state with sources } } key).2 =
          (process.sendBatch key).2 := by
        cases batch : (process.dispatch.taskAt key).batch with
        | nil => simp only [NodeProcess.sendBatch, batch]
        | cons first rest =>
            simp only [NodeProcess.sendBatch, batch]
            split <;> rfl
      simp only [outstanding, same]
  | _ => rfl

theorem Step.streaming {before after : SendingNode} {event : SendingEvent}
    (step : Step hashing config before event after)
    (streaming : Streaming config before) : Streaming config after := by
  cases event with
  | node event =>
      obtain ⟨process, awaiting, active⟩ := after
      obtain ⟨expected, ⟨sources, _, rfl⟩, rfl, rfl⟩ := step
      have reordered : Streaming config
          { before with process := { before.process with state := { before.process.state with sources } } } :=
        streaming.of_kept ⟨rfl, fun _ => rfl, rfl, rfl, fun _ => rfl, rfl⟩
      have next := reordered.handle hashing event expected
      simp only [outstanding_reordered] at next
      exact next
  | ask key =>
      obtain ⟨busy, rfl⟩ := step
      have step : FairBudget.Step before.active (.acquire _) _ := ⟨streaming.asks key busy, rfl⟩
      exact streaming.budgeted step
  | release index =>
      obtain ⟨held, rfl⟩ := step
      have step : FairBudget.Step before.active (.release index) _ := ⟨held, rfl⟩
      exact streaming.budgeted step

theorem start_streaming (config : NodeConfig) (topology : TopologySnapshot) :
    Streaming config (start config topology) where
  live := by
    intro key _
    refine ⟨[], {}, .refl _, rfl, rfl, rfl, rfl, ?_, fun entry listed => absurd listed List.not_mem_nil⟩
    exact iff_of_false List.not_mem_nil (by simp)
  foreign := fun _ _ => rfl
  failed := fun _ lost => absurd lost List.not_mem_nil
  unnumbered := fun _ _ => ⟨rfl, rfl⟩
  past := fun _ out => absurd out List.not_mem_nil
  settled := ⟨fun _ waits => absurd waits List.not_mem_nil, fun _ first => absurd first (by simp [start])⟩
  capacity := rfl

theorem run_streaming {node after : SendingNode} {events : List SendingEvent}
    (run : Transition.Run (Step hashing config) node events after)
    (streaming : Streaming config node) : Streaming config after :=
  Transition.run_invariant (fun _ => True) (Streaming config)
    (fun _ _ _ _ streaming step => step.streaming streaming) run
    (fun _ _ => trivial) streaming

def releases : List SendingEvent → Nat
  | [] => 0
  | .release _ :: rest => releases rest + 1
  | .node _ :: rest | .ask _ :: rest => releases rest

theorem run_budget {node after : SendingNode} {events : List SendingEvent}
    (run : Transition.Run (Step hashing config) node events after) (streaming : Streaming config node) :
    ∃ operations, Transition.Run FairBudget.Step node.active operations after.active ∧
      FairBudget.releases operations = releases events := by
  induction run with
  | refl => exact ⟨[], .refl _, rfl⟩
  | @next before middle _ event _ step _ ih =>
      obtain ⟨operations, later, count⟩ := ih (step.streaming streaming)
      cases event with
      | node event =>
          obtain ⟨_, _, _, active⟩ := step
          exact ⟨operations, active ▸ later, count⟩
      | ask key =>
          obtain ⟨busy, rfl⟩ := step
          exact ⟨.acquire _ :: operations, .next ⟨streaming.asks key busy, rfl⟩ later, count⟩
      | release index =>
          obtain ⟨held, rfl⟩ := step
          refine ⟨.release index :: operations, .next ⟨held, rfl⟩ later, ?_⟩
          rw [FairBudget.releases, releases, count]

theorem unsent_suffix {key : ReplicationStreamKey} {capacity : Nat} {history : StreamHistory}
    (exact_ : history.Exact key capacity) :
    history.queued.drop history.covered <:+ history.task.undelivered := by
  rw [← exact_.pending]
  rcases exact_.place with ⟨here, _⟩ | ⟨ahead, _⟩
  · rw [here]
  · rw [ahead, ← List.drop_drop]
    exact List.drop_suffix _ _

end SendingNode

/-- Each live stream of a running node is a stream machine with entries of the retained
budget. The requests of a stream machine, with retried parts counted once, are what was
queued, up to the part that the task still has to send; each is well cut; and a number
leaves the unacknowledged ones only for a reply that covers it. A task that waits for
the budget of active requests gets it after finitely many requests of others. -/
theorem replication_batching_keeps_stream (hashing : Hashing) (config : NodeConfig)
    (topology : TopologySnapshot)
    (events : List SendingEvent) (node : SendingNode)
    (run : Transition.Run (SendingNode.Step hashing config) (SendingNode.start config topology)
      events node) :
    (∀ key, SendingNode.Live config node.process key → ∃ events history,
      Transition.Run (StreamHistory.Step key config.maxPendingReplicationBytes) {} events history ∧
        SendingNode.Mirrors node key history) ∧
    (∀ key, (node.process.dispatch.taskAt key).undelivered ≠ [] →
      SendingNode.Live config node.process key) ∧
    (∀ key capacity events history, Transition.Run (StreamHistory.Step key capacity) {} events history →
      SentBatch.countedOnce 0 history.sent ++ history.queued.drop history.covered = history.queued ∧
      history.queued.drop history.covered <:+ history.task.undelivered ∧
      history.sent.IsChain SentBatch.Continues ∧ (∀ batch ∈ history.sent.head?, batch.first = 0) ∧
      (∀ batch ∈ history.sent, StreamHistory.WellCut capacity history.queued batch) ∧
      ∀ entry ∈ history.queued, (∃ unixMillis, (entry.streamSequence, unixMillis) ∈ history.unacked) ∨
        ∃ applied ∈ history.replies, entry.streamSequence ≤ applied) ∧
    node.active.capacity = config.maxPendingReplicationBytes ∧
    ∀ later after, Transition.Run (SendingNode.Step hashing config) node later after →
      ∀ place < node.active.waiting.length, node.active.held.length + place ≤ SendingNode.releases later →
        ∃ granted asked, node.active.waiting ++ asked = granted ++ after.active.waiting ∧
          place < granted.length := by
  have streaming := SendingNode.run_streaming run (SendingNode.start_streaming config topology)
  refine ⟨streaming.live, fun key busy => streaming.busy_live busy, ?_, streaming.capacity, ?_⟩
  · intro key capacity events history run
    have exact_ := StreamHistory.run_exact run
    refine ⟨?_, SendingNode.unsent_suffix exact_, exact_.seams, exact_.started, exact_.requests,
      exact_.acks⟩
    rw [exact_.counted, List.take_append_drop]
  · intro later after goes place waits enough
    obtain ⟨operations, budget, count⟩ := SendingNode.run_budget goes streaming
    obtain ⟨granted, order, served⟩ :=
      FairBudget.granted_within budget streaming.settled place waits (count ▸ enough)
    exact ⟨granted, _, order, served⟩

namespace SendingNode

def sampleConfig : NodeConfig := { nodeId := "a", processInstanceId := "a-1" }

end SendingNode

namespace StreamHistory

def sampleStream : ReplicationStreamKey := ⟨1, "a", "b"⟩

def sampleEntry (number : Nat) (value : Bytes) : PreparedReplication where
  followerNodeId := "b"
  followerEndpoint := "b:1"
  streamSequence := number
  mutation :=
    { topologyEpoch := 1, ownerNodeId := "a", key := [byte 107], value, deleted := false
      version := ⟨1, number, "a"⟩, mutationId := "m", expiresAtUnixMillis :=
        none, requestFingerprint := [] }
  ackAwaited := false

/-- Three of the entries fill a request. -/
def sampleFilled (value : Bytes) : List StreamEvent :=
  [.queue (sampleEntry 1 []) 10, .queue (sampleEntry 2 value) 11, .queue (sampleEntry 3 value) 12,
    .queue (sampleEntry 4 value) 13, .collect, .collect, .collect, .collect]

def sampleFull (value : Bytes) : StreamHistory where
  task :=
    { batch := [sampleEntry 1 [], sampleEntry 2 value, sampleEntry 3 value]
      carry := some (sampleEntry 4 value), collected := true }
  queued := [sampleEntry 1 [], sampleEntry 2 value, sampleEntry 3 value, sampleEntry 4 value]
  unacked := [(1, 10), (2, 11), (3, 12), (4, 13)]

/-- The follower does not answer, then applies one entry of three, does not answer again
and applies the others. The carried entry opens the next request. -/
def sampleAnswered (value : Bytes) : List StreamEvent :=
  [.send, .retried, .send, .answered ⟨"b-1", 1⟩, .send, .retried, .send, .answered ⟨"b-1", 3⟩,
    .queue (sampleEntry 5 value) 20, .collect, .collect, .send]

def sampleCarried (value : Bytes) : StreamHistory where
  task := { batch := [sampleEntry 4 value, sampleEntry 5 value], collected := true }
  queued := [sampleEntry 1 [], sampleEntry 2 value, sampleEntry 3 value, sampleEntry 4 value,
    sampleEntry 5 value]
  acked := 3
  sent :=
    [⟨0, [sampleEntry 1 [], sampleEntry 2 value, sampleEntry 3 value]⟩,
      ⟨0, [sampleEntry 1 [], sampleEntry 2 value, sampleEntry 3 value]⟩,
      ⟨1, [sampleEntry 2 value, sampleEntry 3 value]⟩, ⟨1, [sampleEntry 2 value, sampleEntry 3 value]⟩,
      ⟨3, [sampleEntry 4 value, sampleEntry 5 value]⟩]
  awaiting := true
  unacked := [(4, 13), (5, 20)]
  replies := [1, 3]

variable {value : Bytes}

theorem collect_fits {entry : PreparedReplication} {rest batch : List PreparedReplication}
    (some_ : batch ≠ [])
    (few : batch.length < replicationBatchMaxEntries)
    (fits : StreamTask.batchBytes { batch } + replicationMutationBytes entry.mutation ≤
      replicationBatchMaxBytes) :
    StreamTask.collect { queue := entry :: rest, batch } =
      { queue := rest, batch := batch ++ [entry] } := by
  simp only [StreamTask.batchBytes] at fits
  simp [StreamTask.collect, StreamTask.batchBytes, some_, not_le.mpr few, not_lt.mpr fits]

theorem collect_carries {entry : PreparedReplication} {rest batch : List PreparedReplication}
    (some_ : batch ≠ [])
    (few : batch.length < replicationBatchMaxEntries)
    (exceeds : replicationBatchMaxBytes < StreamTask.batchBytes { batch } +
      replicationMutationBytes entry.mutation) :
    StreamTask.collect { queue := entry :: rest, batch } =
      { queue := rest, batch, carry := some entry, collected := true } := by
  simp only [StreamTask.batchBytes] at exceeds
  simp [StreamTask.collect, StreamTask.batchBytes, some_, not_le.mpr few, exceeds]

theorem sample_bytes (number : Nat) (value : Bytes) :
    replicationMutationBytes (sampleEntry number value).mutation = value.length + 259 := by
  have names : "a".utf8ByteSize = 1 ∧ "m".utf8ByteSize = 1 := by decide
  simp only [replicationMutationBytes, sampleEntry, names.1, names.2, List.length_singleton]
  omega

theorem sample_filled (large : value.length = 60000000) :
    (sampleFilled value).foldl next {} = sampleFull value := by
  have first : StreamTask.collect
      { queue := [sampleEntry 1 [], sampleEntry 2 value, sampleEntry 3 value, sampleEntry 4 value] } =
      { queue := [sampleEntry 2 value, sampleEntry 3 value, sampleEntry 4 value], batch := [sampleEntry 1 []] } := rfl
  have limit : replicationBatchMaxBytes = 135200768 := rfl
  simp only [sampleFilled, List.foldl_cons, List.foldl_nil, next, List.nil_append, List.cons_append]
  rw [first, collect_fits, collect_fits, collect_carries]
  · rfl
  all_goals simp [StreamTask.batchBytes, sample_bytes, large, limit, replicationBatchMaxEntries]

theorem sample_answered (large : value.length = 60000000) :
    (sampleAnswered value).foldl next (sampleFull value) = sampleCarried value := by
  have limit : replicationBatchMaxBytes = 135200768 := rfl
  have later : StreamTask.collect { queue := [sampleEntry 5 value], batch := [sampleEntry 4 value] } =
      { batch := [sampleEntry 4 value, sampleEntry 5 value] } := by
    rw [collect_fits]
    · rfl
    all_goals simp [StreamTask.batchBytes, sample_bytes, large, limit, replicationBatchMaxEntries]
  -- The budget of a request does not enter before the carried entry has opened the next.
  let emptied : StreamHistory :=
    { queued := (sampleCarried value).queued, acked := 3, sent := (sampleCarried value).sent.take 4, replies := [1, 3]
      unacked := [(4, 13), (5, 20)], task :=
        { queue := [sampleEntry 5 value], batch := [sampleEntry 4 value] } }
  calc (sampleAnswered value).foldl next (sampleFull value) = (emptied.next .collect).next .send := rfl
    _ = sampleCarried value := by
        simp only [emptied, next, later]
        rfl

theorem sample_admits {history : StreamHistory} {number : Nat} {value : Bytes}
    (open_ : history.open_ = true)
    (numbers : history.queued.map (·.mutation.version.ownerSequence) = List.range' 1 number)
    (budget : history.task.pendingBytes + (value.length + 259) ≤ 1000000000) :
    history.Admits sampleStream 1000000000 (sampleEntry (number + 1) value) := by
  refine ⟨open_, rfl, ?_, ?_, ?_, ?_⟩
  · have length := congrArg List.length numbers
    simp only [List.length_map, List.length_range'] at length
    exact congrArg (· + 1) length.symm
  · intro earlier listed
    have inside : earlier.mutation.version.ownerSequence ∈ List.range' 1 number :=
      numbers ▸ List.mem_map_of_mem listed
    have bound := (List.mem_range'_1.mp inside).2
    simp only [sampleEntry]
    omega
  · rw [sample_bytes]
    omega
  · rw [sample_bytes]
    exact budget

theorem sample_run (large : value.length = 60000000) :
    Transition.Run (Step sampleStream (1000000000)) {} (sampleFilled value ++ sampleAnswered value)
      (sampleCarried value) := by
  have takes (labels : List StreamEvent) (history : StreamHistory)
      (permits : Transition.Permits (Enabled sampleStream (1000000000)) next history labels) :
      Transition.Run (Step sampleStream (1000000000)) history labels (labels.foldl next history) :=
    Transition.permitted_run _ next (fun _ _ enabled => ⟨enabled, rfl⟩) labels history permits
  have early : Transition.Permits (Enabled sampleStream 1000000000) next {} (sampleFilled value) := by
    refine ⟨sample_admits rfl rfl ?_, sample_admits rfl rfl ?_, sample_admits rfl rfl ?_,
      sample_admits rfl rfl ?_,
      trivial, trivial, trivial, trivial, trivial⟩
    all_goals simp [next, StreamTask.pendingBytes, StreamTask.undelivered, sample_bytes, large]
  have late : Transition.Permits (Enabled sampleStream 1000000000) next (sampleFull value)
      (sampleAnswered value) := by
    refine ⟨⟨List.cons_ne_nil _ _, rfl⟩, rfl, ⟨List.cons_ne_nil _ _, rfl⟩, ⟨rfl, rfl, ?_⟩,
      ⟨List.cons_ne_nil _ _, rfl⟩, rfl,
      ⟨List.cons_ne_nil _ _, rfl⟩, ⟨rfl, rfl, ?_⟩, sample_admits rfl rfl ?_, trivial, trivial,
      ?_, trivial⟩
    · exact ⟨sampleEntry 1 [], rfl, by decide⟩
    · exact ⟨sampleEntry 2 value, rfl, by simp [sampleEntry]⟩
    · exact (congrArg (· + _) (sample_bytes 4 value)).trans_le (by omega)
    · have grown := (StreamTask.collect_spec
        { queue := [sampleEntry 5 value], batch := [sampleEntry 4 value] }
        ⟨fun carried => absurd rfl carried, by simp [replicationBatchMaxEntries]⟩).2.2.2
      exact ⟨List.ne_nil_of_length_pos grown, rfl⟩
  have filled := takes (sampleFilled value) {} early
  have answered := takes (sampleAnswered value) (sampleFull value) late
  rw [sample_filled large] at filled
  rw [sample_answered large] at answered
  exact Transition.run_append filled answered

end StreamHistory

namespace SendingNode

open StreamHistory (sampleStream)

def samplePut (key value : Nat) (requestId : String) : WriteRequest :=
  .put { key := [byte key], value := [byte value], topologyEpoch := 1, requestId, expiresAtUnixMillis := none
         preserveValue := false, precondition := none }

def sampleReady : Readiness := ⟨5, 7, 1, ["b"]⟩

/-- Three puts go out in one request, which fails and is sent again. The follower answers
for two of them, and a fourth put is queued before the third is sent again. -/
def sampleEvents : List SendingEvent :=
  [.node (.renewed 1 0 { topologyEpoch := 1, leaseDurationMillis := 1000, admittedFollowers := [("b", "b-1")] }),
    .node (.commit (Sample.clock 10) (samplePut 107 1 "m") sampleReady),
    .node (.commit (Sample.clock 11) (samplePut 108 2 "n") sampleReady),
    .node (.commit (Sample.clock 12) (samplePut 107 3 "p") sampleReady),
    .node (.collect sampleStream), .node (.collect sampleStream), .node (.collect sampleStream),
    .ask sampleStream, .node (.send sampleStream), .release 0,
    .node (.answered sampleStream (.error ⟨.unavailable, "transport error"⟩)),
    .ask sampleStream, .node (.send sampleStream), .release 0,
    .node (.answered sampleStream (.ok ⟨"b-1", 2⟩)),
    .node (.commit (Sample.clock 13) (samplePut 109 4 "q") sampleReady),
    .ask sampleStream, .node (.send sampleStream)]

def sampleNext (node : SendingNode) : SendingEvent → SendingNode
  | .node event =>
      { node with
        process := node.process.handle Sample.hashing sampleConfig event
        awaiting := outstanding node.process node.awaiting event }
  | .ask key => { node with active := node.active.acquire (node.process.dispatch.taskAt key).batchBytes }
  | .release index => { node with active := node.active.release index }

def Allowed (node : SendingNode) : SendingEvent → Prop
  | .node event => Expected node.awaiting event
  | .ask key => (node.process.dispatch.taskAt key).batch ≠ []
  | .release index => index < node.active.held.length

instance (awaiting : List ReplicationStreamKey) : (event : NodeEvent) →
    Decidable (Expected awaiting event)
  | .send key => inferInstanceAs (Decidable (key ∉ awaiting))
  | .answered key _ => inferInstanceAs (Decidable (key ∈ awaiting))
  | .commit .. | .finishAcks .. | .replicate .. | .replicateBatch .. | .checkpoint .. | .range .. |
      .sweep .. | .install ..
  | .refresh .. | .renewed .. | .pausePolicy .. | .resumePolicy .. | .collect .. => isTrue trivial

instance (node : SendingNode) : (event : SendingEvent) → Decidable (Allowed node event)
  | .node event => inferInstanceAs (Decidable (Expected node.awaiting event))
  | .ask key => inferInstanceAs (Decidable ((node.process.dispatch.taskAt key).batch ≠ []))
  | .release index => inferInstanceAs (Decidable (index < node.active.held.length))

def sampleSent : SendingNode := sampleEvents.foldl sampleNext (start sampleConfig Sample.topology)

theorem sample_sent_run : Transition.Run (Step Sample.hashing sampleConfig)
    (start sampleConfig Sample.topology) sampleEvents
    sampleSent := by
  refine Transition.permitted_run Allowed sampleNext (fun node event allowed => ?_) _ _
    (by decide +kernel)
  cases event with
  | node event => exact ⟨allowed, NodeProcess.step_handle _ _ node.process event, rfl, rfl⟩
  | ask key => exact ⟨allowed, rfl⟩
  | release index => exact ⟨allowed, rfl⟩

end SendingNode

/-- A node that sends three puts, again after a failure, and again what the follower has
not applied; and a stream whose requests are full before its entries are. -/
theorem replication_batching_seams :
    (∃ events history, Transition.Run (StreamHistory.Step StreamHistory.sampleStream
        SendingNode.sampleConfig.maxPendingReplicationBytes) {} events history ∧
      SendingNode.Mirrors SendingNode.sampleSent StreamHistory.sampleStream history ∧
        history.queued.length = 4 ∧
      history.unacked.map Prod.fst = [3, 4] ∧ SentBatch.countedOnce 0 history.sent =
        history.queued.take 3) ∧
    (StreamHistory.sampleCarried (List.replicate 60000000 (byte 0))).sent.map
        (fun batch => (batch.first, batch.entries.length)) = [(0, 3), (0, 3), (1, 2), (1, 2), (3, 2)] ∧
    SentBatch.countedOnce 0 (StreamHistory.sampleCarried (List.replicate 60000000 (byte 0))).sent =
      (StreamHistory.sampleCarried (List.replicate 60000000 (byte 0))).queued := by
  have large : (List.replicate 60000000 (byte 0)).length = 60000000 := List.length_replicate
  generalize List.replicate 60000000 (byte 0) = value at large ⊢
  obtain ⟨live, busy, exact_, _⟩ :=
    replication_batching_keeps_stream Sample.hashing SendingNode.sampleConfig Sample.topology
    SendingNode.sampleEvents SendingNode.sampleSent SendingNode.sample_sent_run
  constructor
  · obtain ⟨events, history, runs, mirrors⟩ :=
      live StreamHistory.sampleStream (busy _ (by decide +kernel))
    have queued : history.queued.length = 4 := mirrors.head.symm.trans (by decide +kernel)
    have placed := StreamHistory.run_exact runs
    have batch : history.task.batch.length = 1 := mirrors.task ▸ (by decide +kernel)
    have left : history.task.undelivered.length = 2 := mirrors.task ▸ (by decide +kernel)
    have out : history.awaiting = true := mirrors.awaiting.mp (by decide +kernel)
    have covered : history.covered = 3 := by
      have within := placed.within
      have length := congrArg List.length placed.pending
      rw [List.length_drop, left] at length
      rcases placed.place with ⟨_, idle⟩ | ⟨ahead, _⟩
      · exact absurd (out.symm.trans idle) (by simp)
      · omega
    refine ⟨events, history, runs, mirrors, queued, by rw [← mirrors.unacked]; decide +kernel, ?_⟩
    obtain ⟨counted, _⟩ := exact_ _ _ _ _ runs
    rw [covered] at counted
    exact List.append_cancel_right (counted.trans (List.take_append_drop 3 _).symm)
  · obtain ⟨counted, _⟩ :=
      exact_ StreamHistory.sampleStream 1000000000 _ _ (StreamHistory.sample_run large)
    exact ⟨rfl, by simpa [StreamHistory.covered, StreamHistory.sampleCarried, SentBatch.stop] using counted⟩

end Hashring
