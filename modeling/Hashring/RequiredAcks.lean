import Hashring.AckSections
import Hashring.Transition

/-! One owner, the followers it streams to, and the acknowledgements a write
waits for. Followers restart under new identities, leases change who is
admitted, epochs change; the acknowledgement tables of the owner never credit a
follower process with more than it reported. -/
namespace Hashring

/-- A change of the owner's state that credits no follower with anything new
and leaves no receipt with new requirements. -/
structure AcksQuiet (before after : NodeState) : Prop where
  acks : ∀ stream reporter progress, after.ackProcessInstances.lookup stream = some reporter →
    after.ackProgress.lookup stream = some progress → 0 < progress →
    before.ackProcessInstances.lookup stream = some reporter ∧ before.ackProgress.lookup stream =
      some progress
  receipts : ∀ id entry, after.dedup.lookup id = some entry → entry.requiredAcks ≠ [] →
    before.dedup.lookup id = some entry

namespace AcksQuiet

theorem refl (state : NodeState) : AcksQuiet state state :=
  ⟨fun _ _ _ named shown _ => ⟨named, shown⟩, fun _ _ found _ => found⟩

theorem trans {first second third : NodeState} (early : AcksQuiet first second)
    (late : AcksQuiet second third) :
    AcksQuiet first third where
  acks stream reporter progress named shown positive := by
    obtain ⟨earlier, reached⟩ := late.acks stream reporter progress named shown positive
    exact early.acks stream reporter progress earlier reached positive
  receipts id entry found pending :=
    early.receipts id entry (late.receipts id entry found pending) pending

/-- The tables are the very same. -/
theorem of_eq {before after : NodeState}
    (reporters : after.ackProcessInstances = before.ackProcessInstances)
    (progress : after.ackProgress = before.ackProgress) (dedup : after.dedup = before.dedup) :
    AcksQuiet before after := by
  constructor
  · intro stream reporter reached named shown _
    rw [reporters] at named
    rw [progress] at shown
    exact ⟨named, shown⟩
  · intro id entry found _
    rw [dedup] at found
    exact found

variable (hashing : Hashing) (state : NodeState)

theorem prune : AcksQuiet state (pruneAckProgress state) := by
  unfold pruneAckProgress
  simp only
  split
  · exact refl state
  · refine ⟨?_, fun _ _ found _ => found⟩
    intro stream reporter progress named shown _
    rw [FiniteMap.lookup_retain] at named shown
    exact ⟨(Option.filter_eq_some_iff.mp named).1, (Option.filter_eq_some_iff.mp shown).1⟩

theorem purge (now : Instant) : AcksQuiet state (purgeExpiredDedup hashing state now) := by
  have receipts := fun id entry found (_ : entry.requiredAcks ≠ []) =>
    purge_lookup_some hashing state now id entry found
  refine ⟨?_, receipts⟩
  obtain ⟨_, progress, reporters⟩ := drop_expired_same_acks hashing now
    (state.dedupExpirations.due (receiptDue now))
    { state with dedupExpirations := state.dedupExpirations.later (receiptDue now) }
  unfold purgeExpiredDedup
  simp only
  intro stream reporter reached named shown positive
  split at named
  · rename_i pruned
    rw [if_pos pruned] at shown
    have kept := (prune _).acks stream reporter reached named shown positive
    rw [progress, reporters] at kept
    exact kept
  · rename_i unpruned
    rw [if_neg unpruned] at shown
    rw [reporters] at named
    rw [progress] at shown
    exact ⟨named, shown⟩

theorem insert_dedup (id : String) (key fingerprint : Bytes) (version : RecordVersion) (deleted : Bool)
    (expiresAt : Instant) :
    AcksQuiet state (insertDedupUntil hashing state id key fingerprint version deleted expiresAt) := by
  have lookups := lookup_insert_dedup hashing state id
  obtain ⟨_, _, _, _, _, same⟩ :=
    insert_dedup_only hashing state id key fingerprint version deleted expiresAt
  constructor
  · rw [same]
    exact fun _ _ _ named shown _ => ⟨named, shown⟩
  · intro probe entry found pending
    rw [lookups] at found
    split at found
    · obtain rfl := Option.some.inj found
      exact absurd rfl pending
    · exact found

theorem complete (mutationId : String) (version : RecordVersion) :
    AcksQuiet state (completeRequiredAcks state mutationId version) := by
  unfold completeRequiredAcks
  split
  · exact refl state
  · split
    · exact refl state
    · refine ⟨fun _ _ _ named shown _ => ⟨named, shown⟩, ?_⟩
      intro id entry found pending
      rw [FiniteMap.lookup_insert_if] at found
      split at found
      · obtain rfl := Option.some.inj found
        exact absurd rfl pending
      · exact found

theorem rule : AckRule hashing AcksQuiet where
  trans := trans
  same _ _ same := of_eq same.reporters same.progress same.dedup
  purge := purge hashing
  insert := insert_dedup hashing
  complete := complete

theorem adopt_topology (process : NodeProcess) (topology : TopologySnapshot) :
    AcksQuiet process.state (adoptTopology hashing process topology).state := by
  obtain ⟨switched, adopted, -, reporters, progress, dedup⟩ := adopt_acks hashing process topology
  rw [adopted]
  exact (of_eq reporters progress dedup).trans (prune switched)

end AcksQuiet

theorem handle_quiet (hashing : Hashing) (config : NodeConfig) (process : NodeProcess) (event : NodeEvent)
    (quiet : event.Quiet) : AcksQuiet process.state (process.handle hashing config event).state := by
  by_cases adopts : event.Adopts
  · exact NodeProcess.handle_adopting hashing config
      (motive := fun after => AcksQuiet process.state after.state) (AcksQuiet.refl process.state)
      (fun topology _ _ => AcksQuiet.adopt_topology hashing process topology) adopts
  · exact (AcksQuiet.rule hashing).handle config process event quiet adopts

/-- What a section put behind the entries already queued. -/
def ReplicationDispatcher.appended (before after : ReplicationDispatcher) : List PreparedReplication :=
  after.streams.entries.flatMap fun stream => stream.2.queue.drop (before.taskAt stream.1).queue.length

theorem mem_appended {before after : NodeProcess} {token : Token} {mutation : ReplicationMutation}
    {entries : List PreparedReplication} (queued : QueuesExtended before after token mutation entries)
    (entry : PreparedReplication) (member : entry ∈ entries) :
    entry ∈ before.dispatch.appended after.dispatch := by
  have tasks := queued.tasks entry.streamKey
  have listed : entry ∈ entries.filter fun other => other.streamKey = entry.streamKey := by
    simp [member]
  cases found : after.dispatch.streams.lookup entry.streamKey with
  | none =>
      have nothing : (after.dispatch.taskAt entry.streamKey).queue = [] := by
        simp [ReplicationDispatcher.taskAt, found]
      rw [tasks] at nothing
      have none : entry ∈ ([] : List PreparedReplication) := by
        rw [← nothing]
        exact List.mem_append_right _ listed
      exact absurd none (by simp)
  | some task =>
      have here : after.dispatch.taskAt entry.streamKey = task := by
        simp [ReplicationDispatcher.taskAt, found]
      rw [here] at tasks
      refine List.mem_flatMap.mpr
        ⟨⟨entry.streamKey, task⟩, (FiniteMap.lookup_some_iff _ _ _).mp found, ?_⟩
      rw [tasks]
      simpa using member

/-- A write that waits for acknowledgements. -/
structure AckWait where
  requestId : String
  version : RecordVersion
  epoch : Nat
  required : List RequiredAck
  deriving DecidableEq

structure FollowerProcess where
  config : NodeConfig
  state : NodeState

/-- The owner with the processes that run as its followers. Sent batches may
arrive late or twice. `reports` are the answers follower processes gave on a
stream, `log` the entries the owner numbered. -/
structure AckSystem where
  owner : NodeProcess
  followers : FiniteMap String FollowerProcess := ∅
  sent : List (ReplicationStreamKey × List ReplicationEntry) := []
  reports : List (ReplicationStreamKey × ReplicateMutationsResponse) := []
  log : List PreparedReplication := []
  waits : List AckWait := []

inductive AckEvent where
  | lookup (now : Instant) (request : WriteRequest)
  | commit (clock : Clock) (request : WriteRequest) (ready : Readiness)
  | owner (event : NodeEvent)
  | send (key : ReplicationStreamKey)
  | deliver (clock : Clock) (key : ReplicationStreamKey) (entries : List ReplicationEntry)
  | answered (key : ReplicationStreamKey) (response : ReplicateMutationsResponse)
  | followerOther (nodeId : String) (state : NodeState)
  | restart (nodeId : String) (process : FollowerProcess)

namespace AckSystem

variable (hashing : Hashing) (config : NodeConfig)

def await (requestId : String) : WriteOutcome → List AckWait
  | .awaitAcks version epoch required => [⟨requestId, version, epoch, required⟩]
  | _ => []

def next (system : AckSystem) : AckEvent → AckSystem
  | .lookup now request =>
      match lookupRequest hashing config now system.owner.state request with
      | .ended outcome => { system with waits := system.waits ++ await request.requestId outcome }
      | .proceed _ _ => system
  | .commit clock request ready =>
      let (owner, outcome) := commitRequest hashing config clock system.owner request ready
      { system with
        owner
        log := system.log ++ system.owner.dispatch.appended owner.dispatch
        waits := system.waits ++ await request.requestId outcome }
  | .owner event => { system with owner := system.owner.handle hashing config event }
  | .send key =>
      let (owner, batch) := system.owner.sendBatch key
      { system with owner, sent := system.sent ++ batch.toList.map fun entries => (key, entries) }
  | .deliver clock key entries =>
      match system.followers.lookup key.follower with
      | none => system
      | some follower =>
          let (state, answer) := replicateMutations hashing follower.config clock follower.state entries
          { system with
            followers := system.followers.insert key.follower { follower with state }
            reports := system.reports ++ answer.toOption.toList.map fun response => (key, response) }
  | .answered key response => { system with owner := system.owner.receiveAnswer key (.ok response) }
  | .followerOther nodeId state =>
      { system with followers := system.followers.modify nodeId fun follower => { follower with state } }
  | .restart nodeId process => { system with followers := system.followers.insert nodeId process }

/-- An answer was given, a delivered batch was sent, and writes, batches and
reports go through their own events. -/
def Enabled (system : AckSystem) : AckEvent → Prop
  | .owner event => event.Quiet
  | .deliver _ key entries => (key, entries) ∈ system.sent
  | .answered key response => (key, response) ∈ system.reports
  | _ => True

def Step (before : AckSystem) (event : AckEvent) (after : AckSystem) : Prop :=
  before.Enabled event ∧ after = before.next hashing config event

end AckSystem

theorem StreamTask.collect_pending (task : StreamTask) (entry : PreparedReplication)
    (member : entry ∈ task.collect.pending) : entry ∈ task.pending := by
  unfold StreamTask.collect at member
  split at member
  · exact member
  · split at member
    · rename_i empty
      split at member
      · rename_i first carried
        simp only [StreamTask.pending, carried, empty, Option.toList_none, Option.toList_some,
          List.append_nil,
          List.mem_append, List.mem_singleton] at member ⊢
        exact member
      · rename_i first rest carried queued
        simp only [StreamTask.pending, carried, empty, queued, Option.toList_none, List.append_nil,
          List.mem_append,
          List.mem_cons, List.not_mem_nil, or_false] at member ⊢
        exact member.symm
      · exact member
    · split at member
      · exact member
      · split at member
        · exact member
        · rename_i next rest queued
          split at member
          · simp only [StreamTask.pending, Option.toList_some, List.mem_append, List.mem_cons,
              List.not_mem_nil,
              or_false] at member
            simp only [StreamTask.pending, queued, List.mem_append, List.mem_cons]
            rcases member with (later | here) | batched
            · exact .inl (.inl (.inr later))
            · exact .inl (.inl (.inl here))
            · exact .inr batched
          · simp only [StreamTask.pending, List.mem_append, List.mem_cons, List.not_mem_nil,
              or_false] at member
            simp only [StreamTask.pending, queued, List.mem_append, List.mem_cons]
            rcases member with (later | carried) | (batched | here)
            · exact .inl (.inl (.inr later))
            · exact .inl (.inr carried)
            · exact .inr batched
            · exact .inl (.inl (.inl here))

theorem StreamTask.retain_pending (task : StreamTask) (applied : Nat) (entry : PreparedReplication)
    (member : entry ∈ (task.retain applied).pending) : entry ∈ task.pending := by
  unfold StreamTask.retain at member
  simp only [StreamTask.pending, List.mem_append] at member ⊢
  rcases member with waiting | batched
  · exact .inl waiting
  · split at batched
    · exact absurd batched (by simp)
    · exact .inr (List.mem_filter.mp batched).1

def PendingShrinks (before after : NodeProcess) : Prop :=
  ∀ key entry, entry ∈ (after.dispatch.taskAt key).pending → entry ∈ (before.dispatch.taskAt key).pending

theorem set_task_shrinks (process : NodeProcess) (key : ReplicationStreamKey) (task : StreamTask)
    (smaller : ∀ entry ∈ task.pending, entry ∈ (process.dispatch.taskAt key).pending) :
    PendingShrinks process (process.setTask key task) := by
  intro probe entry member
  rw [NodeProcess.task_at_set] at member
  split at member
  · rename_i same
    rw [same]
    exact smaller entry member
  · exact member

theorem fail_stream_shrinks (process : NodeProcess) (key : ReplicationStreamKey) :
    PendingShrinks process (process.failStream key) :=
  set_task_shrinks process key { closed := true } fun _ member =>
    absurd member (by simp [StreamTask.pending])

theorem adopt_topology_shrinks (hashing : Hashing) (process : NodeProcess) (topology : TopologySnapshot) :
    PendingShrinks process (adoptTopology hashing process topology) := by
  intro key entry member
  simp only [adoptTopology, ReplicationDispatcher.pruneEpoch, ReplicationDispatcher.taskAt,
    FiniteMap.lookup_retain] at member ⊢
  cases found : process.dispatch.streams.lookup key with
  | none => simp [found, StreamTask.pending] at member
  | some task =>
      rw [found, Option.filter_some] at member
      split at member
      · exact member
      · exact absurd member (by simp [StreamTask.pending])

theorem handle_shrinks (hashing : Hashing) (config : NodeConfig) (process : NodeProcess)
    (event : NodeEvent)
    (quiet : event.Quiet) : PendingShrinks process (process.handle hashing config event) := by
  have same : PendingShrinks process process := fun _ _ member => member
  cases event with
  | commit | send => exact absurd quiet id
  | finishAcks | replicate | replicateBatch | checkpoint | range | sweep | renewed | pausePolicy |
      resumePolicy =>
      exact same
  | install | refresh =>
      exact NodeProcess.handle_adopting hashing config (motive := PendingShrinks process) same
        (fun topology _ _ => adopt_topology_shrinks hashing process topology) trivial
  | collect key => exact set_task_shrinks process key _ (StreamTask.collect_pending _)
  | answered key answer =>
      cases answer with
      | ok => exact absurd quiet id
      | error status =>
          simp only [NodeProcess.handle, NodeProcess.receiveAnswer]
          split
          · exact same
          · split
            · exact same
            · exact fail_stream_shrinks process key

theorem send_batch_shrinks (process : NodeProcess) (key : ReplicationStreamKey) :
    PendingShrinks process (process.sendBatch key).1 := by
  unfold NodeProcess.sendBatch
  simp only
  split
  · exact fun _ _ member => member
  · split
    · exact set_task_shrinks process key { closed := true }
        fun _ member => absurd member (by simp [StreamTask.pending])
    · exact set_task_shrinks process key _ fun _ member => member

theorem commit_credits_none (hashing : Hashing) (config : NodeConfig) (clock : Clock)
    (process : NodeProcess) (request : WriteRequest) (ready : Readiness) (stream : StreamKey)
    (reporter : String) (progress : Nat)
    (named : (commitRequest hashing config clock process request
      ready).1.state.ackProcessInstances.lookup stream =
      some reporter)
    (shown : (commitRequest hashing config clock process request ready).1.state.ackProgress.lookup
      stream =
      some progress) (positive : 0 < progress) :
    process.state.ackProcessInstances.lookup stream = some reporter ∧
      process.state.ackProgress.lookup stream = some progress := by
  have purged := (AcksQuiet.purge hashing process.state clock.now).acks stream reporter progress
  have cases := commit_request_cases hashing config clock process request ready
  generalize commitRequest hashing config clock process request ready = result at cases named shown
  cases cases with
  | invalid | unroutable | notOwner | moved => exact ⟨named, shown⟩
  | answered | declined => exact purged named shown positive
  | planned _ _ plan _ _ _ _ _ _ _ _ ended =>
      cases ended with
      | refused => exact purged named shown positive
      | rolledBack _ _ _ _ _ _ _ opened =>
          exact purged named (opened stream progress shown positive) positive
      | stored prepared entries _ _ fanned _ =>
          have opened := prepare_keeps_progress _ _ _ _ fanned stream progress
          obtain ⟨_, _, rfl⟩ := prepare_frame _ _ _ _ fanned
          obtain ⟨_, _, _, _, _, _, _, _, _, _, _, frame⟩ :=
            (store_write_effect hashing clock _ plan _ ready.token
            ready.followers entries).frame
          rw [frame] at named shown
          exact purged named (opened shown positive) positive

theorem commit_waits (hashing : Hashing) (config : NodeConfig) (clock : Clock) (process : NodeProcess)
    (request : WriteRequest) (ready : Readiness) (version : RecordVersion) (epoch : Nat)
    (required : List RequiredAck)
    (waits : (commitRequest hashing config clock process request ready).2 =
      .awaitAcks version epoch required) :
    ∃ entry, (commitRequest hashing config clock process request ready).1.state.dedup.lookup
      request.requestId =
      some entry ∧ entry.version = version ∧ entry.requiredAcks = required := by
  have cases := commit_request_cases hashing config clock process request ready
  generalize commitRequest hashing config clock process request ready = result at cases waits
  cases cases with
  | invalid | unroutable | notOwner | moved | declined => exact absurd waits (by simp)
  | answered shape _ existing _ found =>
      unfold answerReceipt at waits
      split at waits
      · obtain ⟨rfl, _, rfl⟩ := WriteOutcome.awaitAcks.inj waits
        exact ⟨existing, found, rfl, rfl⟩
      · exact absurd waits (by simp)
  | planned _ _ plan _ _ _ _ sameId _ _ _ ended =>
      cases ended with
      | refused | rolledBack => exact absurd waits (by simp)
      | stored prepared entries _ _ _ _ =>
          obtain ⟨rfl, _, rfl⟩ := WriteOutcome.awaitAcks.inj waits
          have effect := store_write_effect hashing clock prepared plan
            (plan.record (WritePlan.version config
              (purgeExpiredDedup hashing process.state clock.now))) ready.token
            ready.followers entries
          have receipt := effect.receipts request.requestId
          rw [if_pos sameId.symm] at receipt
          exact ⟨_, receipt, rfl, rfl⟩

theorem lookup_waits (hashing : Hashing) (config : NodeConfig) (now : Instant) (state : NodeState)
    (request : WriteRequest) (version : RecordVersion) (epoch : Nat) (required : List RequiredAck)
    (waits : lookupRequest hashing config now state request =
      .ended (.awaitAcks version epoch required)) :
    ∃ entry, state.dedup.lookup request.requestId = some entry ∧ entry.version = version ∧
      entry.requiredAcks = required := by
  unfold lookupRequest at waits
  split at waits
  · exact absurd waits (by simp)
  · unfold lookupReceipt at waits
    simp only at waits
    split at waits
    · exact absurd waits (by simp)
    · exact absurd waits (by simp)
    · split at waits
      · rename_i existing found
        unfold answerReceipt at waits
        split at waits
        · obtain ⟨rfl, _, rfl⟩ := WriteOutcome.awaitAcks.inj (LookupOutcome.ended.inj waits)
          exact ⟨existing, (Option.filter_eq_some_iff.mp found).1, rfl, rfl⟩
        · exact absurd waits (by simp)
      · exact absurd waits (by simp)

/-- The required acknowledgement is the number of the write on that follower's
stream. -/
def Numbered (log : List PreparedReplication) (id : String) (version : RecordVersion)
    (ack : RequiredAck) : Prop :=
  ∃ entry ∈ log, entry.ownerStream = ⟨ack.epoch, ack.nodeId⟩ ∧ entry.streamSequence = ack.sequence ∧
    entry.mutation.mutationId = id ∧ entry.mutation.version = version ∧ 0 < ack.sequence

theorem Numbered.mono {log later : List PreparedReplication} {id : String} {version : RecordVersion}
    {ack : RequiredAck} (numbered : Numbered log id version ack) :
    Numbered (log ++ later) id version ack := by
  obtain ⟨entry, member, rest⟩ := numbered
  exact ⟨entry, List.mem_append_left _ member, rest⟩

structure AckInv (config : NodeConfig) (system : AckSystem) : Prop where
  reported : ∀ stream reporter progress, system.owner.state.ackProcessInstances.lookup stream =
    some reporter →
    system.owner.state.ackProgress.lookup stream = some progress → 0 < progress →
    ∃ response, (⟨stream.epoch, config.nodeId, stream.nodeId⟩, response) ∈ system.reports ∧
      response.processInstanceId = reporter ∧ progress ≤ response.appliedStreamSequence
  keyed : ∀ key entry, entry ∈ (system.owner.dispatch.taskAt key).pending →
    entry.streamKey = key ∧ key.owner = config.nodeId
  receipts : ∀ id entry, system.owner.state.dedup.lookup id = some entry → ∀ ack ∈ entry.requiredAcks,
    Numbered system.log id entry.version ack
  waiting : ∀ wait ∈ system.waits, ∀ ack ∈ wait.required,
    Numbered system.log wait.requestId wait.version ack

namespace AckInv

variable {hashing : Hashing} {config : NodeConfig} {system : AckSystem}

theorem mem_await (requestId : String) (outcome : WriteOutcome) (wait : AckWait)
    (member : wait ∈ AckSystem.await requestId outcome) :
    wait.requestId = requestId ∧ outcome = .awaitAcks wait.version wait.epoch wait.required := by
  cases outcome with
  | respond | fail => exact absurd member (by simp [AckSystem.await])
  | awaitAcks version epoch required =>
      obtain rfl := List.mem_singleton.mp member
      exact ⟨rfl, rfl⟩

theorem quiet (inv : AckInv config system) (owner : NodeProcess)
    (acks : AcksQuiet system.owner.state owner.state) (queues : PendingShrinks system.owner owner) :
    AckInv config { system with owner } where
  reported stream reporter progress named shown positive := by
    obtain ⟨earlier, reached⟩ := acks.acks stream reporter progress named shown positive
    exact inv.reported stream reporter progress earlier reached positive
  keyed key entry member := inv.keyed key entry (queues key entry member)
  receipts id entry found ack required :=
    inv.receipts id entry (acks.receipts id entry found (List.ne_nil_of_mem required)) ack required
  waiting := inv.waiting

theorem lookup (inv : AckInv config system) (now : Instant) (request : WriteRequest) :
    AckInv config (system.next hashing config (.lookup now request)) := by
  simp only [AckSystem.next]
  split
  · rename_i outcome found
    refine ⟨inv.reported, inv.keyed, inv.receipts, ?_⟩
    intro wait member ack required
    rcases List.mem_append.mp member with earlier | added
    · exact inv.waiting wait earlier ack required
    · obtain ⟨sameId, rfl⟩ := mem_await request.requestId outcome wait added
      obtain ⟨entry, stored, version, acks⟩ := lookup_waits hashing config now _ request _ _ _ found
      rw [sameId, ← version]
      exact inv.receipts _ entry stored ack (acks ▸ required)
  · exact inv

/-- The receipts of a committed section: old ones, and that of a stored write,
whose requirements are numbered on the streams it was queued to. -/
theorem commit_receipts (inv : AckInv config system) (clock : Clock) (request : WriteRequest)
    (ready : Readiness)
    (id : String) (entry : DedupEntry)
    (found : (commitRequest hashing config clock system.owner request ready).1.state.dedup.lookup
      id = some entry)
    (ack : RequiredAck) (required : ack ∈ entry.requiredAcks) :
    Numbered (system.log ++ system.owner.dispatch.appended
      (commitRequest hashing config clock system.owner request ready).1.dispatch) id entry.version
        ack := by
  rcases commit_request_outcome hashing config clock system.owner request ready with
    ⟨kept, _⟩ | ⟨plan, record, entries, stored, queued⟩
  · rcases kept.receipts with same | purged
    · rw [same] at found
      exact (inv.receipts id entry found ack required).mono
    · rw [purged] at found
      exact (inv.receipts id entry (purge_lookup_some hashing _ _ id entry found) ack required).mono
  · rw [stored.receipts id] at found
    split at found
    · rename_i sameId
      obtain rfl := Option.some.inj found
      obtain ⟨sent, listed, rfl⟩ := List.mem_map.mp required
      have member := (List.mem_filter.mp listed).1
      have carried := queued.fanned.carries sent member
      have number := queued.fanned.numbered sent member
      refine ⟨sent, List.mem_append_right _ (mem_appended queued sent member), rfl, rfl, ?_, ?_, ?_⟩
      · rw [carried, sameId]
        rfl
      · rw [carried]
        rfl
      · show 0 < sent.streamSequence
        omega
    · exact (inv.receipts id entry (purge_lookup_some hashing _ _ id entry found) ack required).mono

theorem commit_keyed (inv : AckInv config system) (clock : Clock) (request : WriteRequest)
    (ready : Readiness)
    (key : ReplicationStreamKey) (entry : PreparedReplication)
    (member : entry ∈ ((commitRequest hashing config clock system.owner request
      ready).1.dispatch.taskAt key).pending) :
    entry.streamKey = key ∧ key.owner = config.nodeId := by
  rcases commit_request_outcome hashing config clock system.owner request ready with
    ⟨_, kept⟩ | ⟨plan, record, entries, stored, queued⟩
  · rw [kept.tasks key] at member
    exact inv.keyed key entry member
  · rw [queued.tasks key] at member
    simp only [StreamTask.pending, List.mem_append, List.mem_filter, decide_eq_true_eq] at member
    rcases member with ((waiting | ⟨added, here⟩) | carried) | batched
    · exact inv.keyed key entry (by simp [StreamTask.pending, waiting])
    · refine ⟨here, ?_⟩
      rw [← here, PreparedReplication.streamKey, queued.fanned.carries entry added]
      simp only [WritePlan.mutation, stored.version]
    · exact inv.keyed key entry (by
        simp only [StreamTask.pending, List.mem_append]
        exact .inl (.inr carried))
    · exact inv.keyed key entry (by
        simp only [StreamTask.pending, List.mem_append]
        exact .inr batched)

theorem commit (inv : AckInv config system) (clock : Clock) (request : WriteRequest) (ready : Readiness) :
    AckInv config (system.next hashing config (.commit clock request ready)) where
  reported stream reporter progress named shown positive := by
    obtain ⟨earlier, reached⟩ :=
      commit_credits_none hashing config clock system.owner request ready stream reporter
      progress named shown positive
    exact inv.reported stream reporter progress earlier reached positive
  keyed := inv.commit_keyed clock request ready
  receipts := inv.commit_receipts clock request ready
  waiting wait member ack required := by
    rcases List.mem_append.mp member with earlier | added
    · exact (inv.waiting wait earlier ack required).mono
    · obtain ⟨sameId, outcome⟩ := mem_await request.requestId _ wait added
      obtain ⟨entry, stored, version, acks⟩ :=
        commit_waits hashing config clock system.owner request ready _ _ _ outcome
      rw [sameId, ← version]
      exact inv.commit_receipts clock request ready _ entry stored ack (acks ▸ required)

/-- A report is credited to the process that gave it: the first report of
another process replaces the progress of the one before. -/
theorem answered (inv : AckInv config system) (key : ReplicationStreamKey)
    (response : ReplicateMutationsResponse) (given : (key, response) ∈ system.reports) :
    AckInv config (system.next hashing config (.answered key response)) := by
  simp only [AckSystem.next, NodeProcess.receiveAnswer]
  split
  · exact inv
  · rename_i first rest batch
    have named := inv.keyed key first (by simp [StreamTask.pending, batch])
    split
    · have stream : first.ownerStream = ⟨key.epoch, key.follower⟩ := by
        rw [← named.1]
        rfl
      refine ⟨?_, ?_, inv.receipts, inv.waiting⟩
      · intro probe reporter progress instanced shown positive
        simp only [NodeProcess.setTask, NodeProcess.recordAck, FiniteMap.lookup_insert_if,
          FiniteMap.lookup_modify] at instanced shown
        -- The stream of the batch takes the report; the others keep theirs.
        by_cases here : probe = first.ownerStream
        · subst probe
          simp only [↓reduceIte, Option.some.injEq, Option.map_eq_some_iff] at instanced shown
          obtain ⟨earlier, kept, rfl⟩ := shown
          have reported : ((⟨first.ownerStream.epoch, config.nodeId, first.ownerStream.nodeId⟩ :
              ReplicationStreamKey), response) ∈ system.reports := by
            rw [stream, ← named.2]
            exact given
          split
          · exact ⟨response, reported, instanced, le_refl _⟩
          · -- A report that is behind leaves the progress to the one that gave it.
            rename_i unchanged
            obtain ⟨sameReporter, _⟩ := not_or.mp unchanged
            have before : system.owner.state.ackProcessInstances.lookup first.ownerStream =
                some reporter := by
              rw [← instanced]
              simpa using sameReporter
            rw [if_neg unchanged] at positive
            exact inv.reported first.ownerStream reporter earlier before kept positive
        · simp only [here, ↓reduceIte, Option.map_id'] at instanced shown
          exact inv.reported probe reporter progress instanced shown positive
      · intro probe entry member
        rw [NodeProcess.task_at_set] at member
        split at member
        · rename_i same
          rw [same]
          exact inv.keyed key entry (StreamTask.retain_pending _ _ entry member)
        · exact inv.keyed probe entry member
    · exact inv.quiet _ (AcksQuiet.refl _) (fail_stream_shrinks system.owner key)

theorem step (inv : AckInv config system) (event : AckEvent) (enabled : system.Enabled event) :
    AckInv config (system.next hashing config event) := by
  cases event with
  | lookup now request => exact inv.lookup now request
  | commit clock request ready => exact inv.commit clock request ready
  | owner event =>
      exact inv.quiet _ (handle_quiet hashing config system.owner event enabled)
        (handle_shrinks hashing config system.owner event enabled)
  | send key =>
      have queues := send_batch_shrinks system.owner key
      have same := system.owner.send_batch_state key
      have sent := inv.quiet _
          (AcksQuiet.of_eq (congrArg _ same) (congrArg _ same) (congrArg _ same)) queues
      exact ⟨sent.reported, sent.keyed, sent.receipts, sent.waiting⟩
  | deliver clock key entries =>
      simp only [AckSystem.next]
      split
      · exact inv
      · refine ⟨?_, inv.keyed, inv.receipts, inv.waiting⟩
        intro stream reporter progress named shown positive
        obtain ⟨response, given, rest⟩ := inv.reported stream reporter progress named shown positive
        exact ⟨response, List.mem_append_left _ given, rest⟩
  | answered key response => exact inv.answered key response enabled
  | followerOther nodeId state => exact ⟨inv.reported, inv.keyed, inv.receipts, inv.waiting⟩
  | restart nodeId process => exact ⟨inv.reported, inv.keyed, inv.receipts, inv.waiting⟩

theorem fresh (topology : TopologySnapshot) (followers : FiniteMap String FollowerProcess) :
    AckInv config { owner := { state := { topology } }, followers } where
  reported _ _ _ named := absurd named (by simp)
  keyed _ _ member := absurd member (by simp [ReplicationDispatcher.taskAt, StreamTask.pending])
  receipts _ _ found := absurd found (by simp)
  waiting _ member := absurd member (by simp)

end AckInv

/-- Required acknowledgements are sound. When the wait of a write with required
followers ends in success, whatever happened since it began, the owner holds an
unexpired lease of its epoch, and each required follower's admitted process is
the one that reported the write's number on its stream, or a later one. -/
theorem required_acks_sound (hashing : Hashing) (config : NodeConfig) (topology : TopologySnapshot)
    (followers : FiniteMap String FollowerProcess) (events : List AckEvent) (system : AckSystem)
    (run : Transition.Run (AckSystem.Step hashing config)
      { owner := { state := { topology } }, followers } events
      system)
    (wait : AckWait) (waiting : wait ∈ system.waits) (needed : wait.required ≠ []) (now : Instant)
      (reached : Bool)
    (acked : (finishRequiredAcks now system.owner.state reached wait.epoch wait.requestId wait.version
      wait.required).2 = none) :
    (∃ lease, system.owner.state.lease = some lease ∧ lease.epoch = system.owner.state.topology.epoch ∧
        lease.epoch = wait.epoch ∧ now < lease.expiresAt) ∧
      ∀ ack ∈ wait.required, Numbered system.log wait.requestId wait.version ack ∧
        ∃ admitted response, system.owner.state.admittedFollowers.lookup ack.nodeId = some admitted ∧
          (⟨ack.epoch, config.nodeId, ack.nodeId⟩, response) ∈ system.reports ∧
          response.processInstanceId = admitted ∧ ack.sequence ≤ response.appliedStreamSequence := by
  have inv : AckInv config system := by
    refine Transition.run_invariant (fun _ => True) (AckInv config) ?_ run (fun _ _ => trivial)
      (AckInv.fresh topology followers)
    rintro before event after _ inv ⟨enabled, rfl⟩
    exact inv.step event enabled
  unfold finishRequiredAcks at acked
  rw [if_neg needed] at acked
  split at acked
  · exact absurd acked (by simp)
  · rename_i held
    obtain ⟨_, leased⟩ := not_or.mp held
    split at acked
    · rename_i allMet
      constructor
      · unfold leaseHolds at leased
        simp only [Bool.not_eq_false, Option.any_eq_true, Bool.and_eq_true, decide_eq_true_eq] at leased
        obtain ⟨lease, found, ⟨epoch, current⟩, running⟩ := leased
        exact ⟨lease, found, epoch.trans current.symm, epoch, running⟩
      · intro ack required
        have numbered := inv.waiting wait waiting ack required
        have met := List.all_eq_true.mp allMet ack required
        simp only [Bool.and_eq_true, Option.isSome_iff_exists, decide_eq_true_eq,
          Option.any_eq_true] at met
        obtain ⟨⟨⟨admitted, listed⟩, sameProcess⟩, progress, shown, covers⟩ := met
        have positive : 0 < progress := by
          obtain ⟨_, _, _, _, _, _, above⟩ := numbered
          omega
        obtain ⟨response, given, reporter, applied⟩ :=
          inv.reported ⟨ack.epoch, ack.nodeId⟩ admitted progress
          (sameProcess.trans listed) shown positive
        exact ⟨numbered, admitted, response, listed, given, reporter, covers.trans applied⟩
    · exact absurd acked (by simp)

namespace AckSystem

def sampleConfig : NodeConfig := { nodeId := "a", processInstanceId := "a-1" }

def sampleStream : ReplicationStreamKey := ⟨1, "a", "b"⟩

def sampleStart : AckSystem where
  owner := { state := { topology := Sample.topology } }
  followers := (∅ : FiniteMap String FollowerProcess).insert "b"
    ⟨{ nodeId := "b", processInstanceId := "b-1" }, { topology := Sample.topology }⟩

/-- A lease that admits process "b-1", a put, and the batch that carries it. -/
def sampleWrite : List AckEvent :=
  [.owner (.renewed 1 0 { topologyEpoch := 1, leaseDurationMillis := 1000, admittedFollowers := [("b", "b-1")] }),
    .commit (Sample.clock 10)
      (.put { key := [byte 107], value := [byte 1], topologyEpoch := 1, requestId := "m"
              expiresAtUnixMillis := none, preserveValue := false, precondition :=
                none }) ⟨5, 7, 1, ["b"]⟩,
    .owner (.collect sampleStream), .send sampleStream]

def sampleSent : AckSystem := sampleWrite.foldl (next Sample.hashing sampleConfig) sampleStart

def sampleDelivery : List AckEvent :=
  [.deliver (Sample.clock 20) sampleStream ((sampleSent.sent.head?.map Prod.snd).getD []),
    .answered sampleStream ⟨"b-1", 1⟩]

def sampleDelivered : AckSystem := sampleDelivery.foldl (next Sample.hashing sampleConfig) sampleSent

end AckSystem

theorem required_acks_sound_sample :
    ∃ response, (AckSystem.sampleStream, response) ∈ AckSystem.sampleDelivered.reports ∧
      response.processInstanceId = "b-1" ∧ 1 ≤ response.appliedStreamSequence := by
  have written : Transition.Run (AckSystem.Step Sample.hashing AckSystem.sampleConfig)
      AckSystem.sampleStart
      AckSystem.sampleWrite AckSystem.sampleSent :=
    Transition.permitted_run AckSystem.Enabled _ (fun _ _ enabled => ⟨enabled, rfl⟩) _ _
      ⟨trivial, trivial, trivial, trivial, trivial⟩
  have delivered : Transition.Run (AckSystem.Step Sample.hashing AckSystem.sampleConfig)
      AckSystem.sampleSent
      AckSystem.sampleDelivery AckSystem.sampleDelivered :=
    Transition.permitted_run AckSystem.Enabled _ (fun _ _ enabled => ⟨enabled, rfl⟩) _ _
      ⟨by
        show (_, _) ∈ AckSystem.sampleSent.sent
        decide +kernel, by
        show (_, _) ∈ AckSystem.reports _
        decide +kernel, trivial⟩
  obtain ⟨_, acked⟩ := required_acks_sound Sample.hashing AckSystem.sampleConfig Sample.topology _ _ _
    (Transition.run_append written delivered) ⟨"m", ⟨1, 1, "a"⟩, 1, [⟨1, "b", 1⟩]⟩
      (by decide +kernel) (by simp) 30
    true (by decide +kernel)
  obtain ⟨_, admitted, response, listed, given, reporter, applied⟩ := acked ⟨1, "b", 1⟩ (by simp)
  have known : AckSystem.sampleDelivered.owner.state.admittedFollowers.lookup "b" = some "b-1" := by
    decide +kernel
  exact ⟨response, given, reporter.trans (Option.some.inj (listed.symm.trans known)), applied⟩

end Hashring
