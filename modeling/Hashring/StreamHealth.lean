import Hashring.OwnerWrite
import Hashring.RangeControl
import Hashring.RecordsMoved
import Hashring.StreamLog

/-! One owner, one follower and the stream between them, over a whole epoch. A
batch once sent may be delivered at any later time and any number of times; an
answer counts only while the owner waits for it. Repairs and aborts are
whatever migration RPCs either side receives. -/
namespace Hashring.StreamHealth

structure Pair where
  owner : NodeProcess
  follower : NodeState
  /-- Every batch the owner ever sent. -/
  sent : List (List ReplicationEntry) := []
  awaiting : Bool := false
  answer : Option (Except Status ReplicateMutationsResponse) := none

inductive Event where
  | write (clock : Clock) (request : WriteRequest) (ready : Readiness)
  | ownerRange (operation : RangeOperation)
  | ownerOther (rest : NodeProcess)
  | collect
  | send
  | deliver (clock : Clock) (batch : List ReplicationEntry)
  | receive
  /-- The request ran into its timeout or a transport failure. -/
  | lose
  | followerRange (operation : RangeOperation)
  | checkpoint (request : ReplicationCheckpointRequest)
  | followerOther (rest : NodeState)

section

variable (hashing : Hashing) (ownerConfig followerConfig : NodeConfig) (topology : TopologySnapshot)

def task (pair : Pair) : StreamTask :=
  pair.owner.dispatch.taskAt (dispatched ownerConfig followerConfig topology)

def next (pair : Pair) : Event → Pair
  | .write clock request ready =>
      { pair with owner := (commitRequest hashing ownerConfig clock pair.owner request ready).1 }
  | .ownerRange operation =>
      { pair with
        owner := { pair.owner with state := (operation.perform hashing ownerConfig pair.owner.state).1 } }
  | .ownerOther rest => { pair with owner := rest }
  | .collect => { pair with owner := pair.owner.collectBatch (dispatched ownerConfig followerConfig topology) }
  | .send =>
      match pair.owner.sendBatch (dispatched ownerConfig followerConfig topology) with
      | (owner, none) => { pair with owner }
      | (owner, some batch) =>
          { pair with owner, sent := batch :: pair.sent, awaiting := true, answer := none }
  | .deliver clock batch =>
      let (follower, answer) := replicateMutations hashing followerConfig clock pair.follower batch
      { pair with
        follower
        answer :=
          if pair.awaiting ∧ batch = (task ownerConfig followerConfig topology pair).batch.map
            (·.toProto) then
            some answer
          else pair.answer }
  | .receive =>
      match pair.answer with
      | none => pair
      | some answer =>
          { pair with
            owner := pair.owner.receiveAnswer (dispatched ownerConfig followerConfig topology) answer
            awaiting := false
            answer := none }
  | .lose => { pair with awaiting := false, answer := none }
  | .followerRange operation =>
      { pair with follower := (operation.perform hashing followerConfig pair.follower).1 }
  | .checkpoint request =>
      { pair with follower := (installReplicationCheckpoint followerConfig pair.follower request).1 }
  | .followerOther rest => { pair with follower := rest }

/-- A write passed its own lookup section; a delivered batch was sent; the rest
of either process keeps the topology and the stream. -/
def Admissible (pair : Pair) : Event → Prop
  | .write _ request ready =>
      ∃ now earlier, lookupRequest hashing ownerConfig now earlier request =
        .proceed ready.token ready.tokenSeed
  | .ownerOther rest =>
      rest.state.topology = pair.owner.state.topology ∧ pair.owner.state.nextSequence ≤
        rest.state.nextSequence ∧
        rest.state.streamHead ⟨topology.epoch, followerConfig.nodeId⟩ =
          pair.owner.state.streamHead ⟨topology.epoch, followerConfig.nodeId⟩ ∧
        rest.dispatch.taskAt (dispatched ownerConfig followerConfig topology) =
          task ownerConfig followerConfig topology pair ∧
        (dispatched ownerConfig followerConfig topology ∈ rest.dispatch.failedStreams ↔
          dispatched ownerConfig followerConfig topology ∈ pair.owner.dispatch.failedStreams)
  | .send => pair.awaiting = false
  | .deliver _ batch => batch ∈ pair.sent
  | .followerOther rest =>
      rest.topology = pair.follower.topology ∧ ReceiptsScheduled rest ∧
        rest.streamAt (followed ownerConfig topology) = pair.follower.streamAt
          (followed ownerConfig topology)
  | _ => True

def Step (before : Pair) (event : Event) (after : Pair) : Prop :=
  Admissible hashing ownerConfig followerConfig topology before event ∧
    after = next hashing ownerConfig followerConfig topology before event

/-- A step in which no delivered entry whose turn has come meets an unexpired
receipt for its own mutation ID. -/
def SparedStep (before : Pair) (event : Event) (after : Pair) : Prop :=
  Step hashing ownerConfig followerConfig topology before event after ∧
    ∀ clock batch, event = .deliver clock batch →
      Spared hashing followerConfig clock before.follower batch

/-- The two processes at the start of the epoch. -/
structure Fresh (pair : Pair) : Prop where
  ownerInstalled : pair.owner.state.topology = topology
  followerInstalled : pair.follower.topology = topology
  unnumbered : pair.owner.state.streamHead ⟨topology.epoch, followerConfig.nodeId⟩ = 0
  idle : task ownerConfig followerConfig topology pair = {}
  open_ : dispatched ownerConfig followerConfig topology ∉ pair.owner.dispatch.failedStreams
  unmet : pair.follower.streamAt (followed ownerConfig topology) = {}
  scheduled : ReceiptsScheduled pair.follower
  silent : pair.sent = [] ∧ pair.awaiting = false ∧ pair.answer = none

/-- What the two processes have in common by construction: one key limit, and a
process identity that is a fresh UUID. -/
structure Peers : Prop where
  keyLimit : followerConfig.maxKeyBytes = ownerConfig.maxKeyBytes
  named : followerConfig.processInstanceId.isEmpty = false

/-- The owner's half of the invariant; `acked` entries of the log were answered. -/
structure Sending (log : List PreparedReplication) (acked : Nat) (process : NodeProcess) : Prop where
  installed : process.state.topology = topology
  head : process.state.streamHead ⟨topology.epoch, followerConfig.nodeId⟩ = log.length
  within : acked ≤ log.length
  pending : log.drop acked =
    (process.dispatch.taskAt (dispatched ownerConfig followerConfig topology)).undelivered
  ordered : (process.dispatch.taskAt (dispatched ownerConfig followerConfig topology)).Ordered
  running : (process.dispatch.taskAt (dispatched ownerConfig followerConfig topology)).closed = false
  alive : dispatched ownerConfig followerConfig topology ∉ process.dispatch.failedStreams

structure Usable (acked : Nat) (follower : NodeState)
    (answer : Except Status ReplicateMutationsResponse) : Prop where
  refusal : ∀ status, answer = .error status → retryableReplicationStatus status.code = true
  named : ∀ response, answer = .ok response → response.processInstanceId.isEmpty = false
  covers : ∀ response, answer = .ok response → acked + 1 ≤ response.appliedStreamSequence
  applied : ∀ response, answer = .ok response → response.appliedStreamSequence ≤
    (follower.streamAt (followed ownerConfig topology)).appliedSequence

structure Healthy (log : List PreparedReplication) (acked : Nat) (pair : Pair) : Prop where
  logged : Logged hashing ownerConfig followerConfig topology log pair.owner.state.nextSequence
  owner : Sending ownerConfig followerConfig topology log acked pair.owner
  follower : Follows hashing ownerConfig topology log pair.owner.state.nextSequence
    (acked + (task ownerConfig followerConfig topology pair).batch.length) pair.follower
  caughtUp : acked ≤ (pair.follower.streamAt (followed ownerConfig topology)).appliedSequence
  sent : ∀ batch ∈ pair.sent, batch ≠ [] ∧
    FromLog log (acked + (task ownerConfig followerConfig topology pair).batch.length) batch
  waiting : pair.awaiting = true ∨ pair.answer ≠ none →
    (task ownerConfig followerConfig topology pair).collected = true
  usable : ∀ answer, pair.answer = some answer → Usable ownerConfig topology acked pair.follower answer

end

variable {hashing : Hashing} {ownerConfig followerConfig : NodeConfig} {topology : TopologySnapshot}

theorem fresh_healthy {pair : Pair} (fresh : Fresh ownerConfig followerConfig topology pair) :
    Healthy hashing ownerConfig followerConfig topology [] 0 pair := by
  have idle : pair.owner.dispatch.taskAt (dispatched ownerConfig followerConfig topology) = {} :=
    fresh.idle
  constructor
  · exact ⟨fun _ _ found => by simp at found, fun _ member => by simp at member,
      fun _ _ _ _ found => by simp at found, fun _ member => by simp at member⟩
  · refine ⟨fresh.ownerInstalled, fresh.unnumbered, le_refl _, ?_, ?_, ?_, fresh.open_⟩
    · rw [idle]
      rfl
    · rw [idle]
      exact ⟨fun carried => absurd rfl carried, by simp⟩
    · rw [idle]
  · refine ⟨fresh.followerInstalled, fresh.scheduled, ?_⟩
    rw [fresh.unmet]
    exact ⟨Or.inl (le_refl _), fun _ _ found =>
      by simp at found, fun _ beyond within => by simp at beyond within; omega,
      fun _ _ found => by simp at found, Nat.zero_le _⟩
  · exact Nat.zero_le _
  · rw [fresh.silent.1]
    intro batch member
    simp at member
  · rw [fresh.silent.2.1, fresh.silent.2.2]
    simp
  · rw [fresh.silent.2.2]
    simp

theorem check_accepts (config : NodeConfig) (state : NodeState) (entry : ReplicationEntry)
    (version : RecordVersion) (owner : Member) (replicas : List String)
    (numbered : entry.streamSequence ≠ 0)
    (identified : ¬(entry.mutationId.isEmpty = true ∨ maxMutationIdBytes < entry.mutationId.utf8ByteSize))
    (keyed : ¬(entry.key.isEmpty = true ∨ config.maxKeyBytes < entry.key.length))
    (clean : ¬(entry.deleted = true ∧ entry.value ≠ [])) (versioned : entry.version = some version)
    (authority : version.topologyEpoch = entry.topologyEpoch ∧ version.ownerNodeId = entry.ownerNodeId)
    (current : entry.topologyEpoch = state.topology.epoch)
    (routed : state.topology.ownerForToken (state.tokenOf hashing entry.key) = .ok owner)
    (owned : owner.nodeId = entry.ownerNodeId)
    (placed : state.topology.replicaNodeIdsForToken (state.tokenOf hashing entry.key) = .ok replicas)
    (follower : config.nodeId ∈ replicas.tail) :
    (∃ record, checkReplicationEntry hashing config state entry = .ok record ∧ record.version = version) ∨
      ∃ status, checkReplicationEntry hashing config state entry = .error status ∧
        status.code = .resourceExhausted := by
  unfold checkReplicationEntry
  rw [if_neg numbered, if_neg identified, if_neg keyed]
  by_cases large : maxValueBytesCeiling < entry.value.length
  · rw [if_pos large]
    exact Or.inr ⟨_, rfl, rfl⟩
  · rw [if_neg large, dif_neg clean, versioned]
    simp only [authority.1, authority.2, ne_eq, not_true_eq_false, or_self, ↓reduceIte, current,
      routed, owned,
      placed, follower]
    exact Or.inl ⟨_, rfl, rfl⟩

theorem written_deliverable (peers : Peers ownerConfig followerConfig)
    (digests : ∀ bytes, (hashing.blake3 bytes).length = 32) {clock : Clock} {before after : NodeProcess}
    {request : WriteRequest} {ready : Readiness} {plan : WritePlan} {record : Record}
    {entries : List PreparedReplication} (installed : before.state.topology = topology)
    (proceeded : ∃ now earlier,
      lookupRequest hashing ownerConfig now earlier request = .proceed ready.token ready.tokenSeed)
    (stored : WriteStored hashing ownerConfig clock before.state after.state request ready plan
      record entries)
    (extended : QueuesExtended before after ready.token
      (plan.mutation record before.state.topology.epoch) entries)
    (entry : PreparedReplication) (member : entry ∈ entries)
    (addressed : entry.followerNodeId = followerConfig.nodeId) :
    Deliverable hashing ownerConfig followerConfig topology entry := by
  have carries := extended.fanned.carries entry member
  obtain ⟨shape, valid, fingerprint⟩ := stored.valid
  obtain ⟨keyed, identified⟩ := validated_request ownerConfig request shape valid
  obtain ⟨now, earlier, proceeds⟩ := proceeded
  have token : ready.token = topology.keyToken hashing request.key := by
    rw [RangeMove.lookup_proceeds_token hashing ownerConfig now earlier request _ _ proceeds,
      ← stored.seed, installed]
    rfl
  -- The owner wrote under its own token, to the followers of that token.
  obtain ⟨owner, routed, owned⟩ :=
    owner_error_owns ownerConfig before.state ready.token clock.now stored.owned
  obtain ⟨replicas, placed, listed⟩ := extended.fanned.placed entry member
  rw [installed, token] at routed placed
  constructor
  · simp only [PreparedReplication.streamKey, dispatched, carries, WritePlan.mutation, installed,
      stored.version,
      addressed]
  · rw [carries]
    simp only [WritePlan.mutation, fingerprint, mutationFingerprint]
    exact digests _
  · intro state same
    have version : entry.mutation.version = record.version := by rw [carries]; rfl
    rw [version]
    -- One goal for each check of the follower, in its order.
    apply check_accepts followerConfig state entry.toProto record.version owner replicas
    · simp only [PreparedReplication.toProto, extended.fanned.numbered entry member]
      omega
    · simp only [PreparedReplication.toProto, carries, WritePlan.mutation, stored.id]
      exact validate_mutation_id_none _ identified
    · simp only [PreparedReplication.toProto, carries, WritePlan.mutation, stored.key, peers.keyLimit]
      exact validate_key_none _ _ keyed
    · simp only [PreparedReplication.toProto, carries, WritePlan.mutation]
      rintro ⟨removed, kept⟩
      exact kept (record.tombstoneEmpty removed)
    · simp only [PreparedReplication.toProto, version]
    · simp only [PreparedReplication.toProto, carries, WritePlan.mutation, stored.version, and_self]
    · simp only [PreparedReplication.toProto, carries, WritePlan.mutation, installed, same]
    · simp only [NodeState.tokenOf, same, PreparedReplication.toProto, carries, WritePlan.mutation,
        stored.key]
      exact routed
    · simp only [PreparedReplication.toProto, carries, WritePlan.mutation, stored.version]
      exact owned
    · simp only [NodeState.tokenOf, same, PreparedReplication.toProto, carries, WritePlan.mutation,
        stored.key]
      exact placed
    · rw [← addressed]
      exact listed

theorem owner_idle {log : List PreparedReplication} {acked : Nat} {pair : Pair}
    (healthy : Healthy hashing ownerConfig followerConfig topology log acked pair) (owner : NodeProcess)
    (sameTopology : owner.state.topology = pair.owner.state.topology)
    (rising : pair.owner.state.nextSequence ≤ owner.state.nextSequence)
    (sameHead : owner.state.streamHead ⟨topology.epoch, followerConfig.nodeId⟩ =
      pair.owner.state.streamHead ⟨topology.epoch, followerConfig.nodeId⟩)
    (sameTask : owner.dispatch.taskAt (dispatched ownerConfig followerConfig topology) =
      task ownerConfig followerConfig topology pair)
    (sameHealth : dispatched ownerConfig followerConfig topology ∈ owner.dispatch.failedStreams ↔
      dispatched ownerConfig followerConfig topology ∈ pair.owner.dispatch.failedStreams) :
    Healthy hashing ownerConfig followerConfig topology log acked { pair with owner } := by
  have sending := healthy.owner
  have unchanged : task ownerConfig followerConfig topology { pair with owner } =
      task ownerConfig followerConfig topology pair := sameTask
  constructor
  · exact healthy.logged.weaken rising
  · refine ⟨sameTopology.trans sending.installed, sameHead.trans sending.head, sending.within, ?_,
      ?_, ?_, ?_⟩
    · rw [sameTask]
      exact sending.pending
    · rw [sameTask]
      exact sending.ordered
    · rw [sameTask]
      exact sending.running
    · rw [sameHealth]
      exact sending.alive
  · rw [unchanged]
    exact healthy.follower.weaken rising (le_refl _)
  · exact healthy.caughtUp
  · rw [unchanged]
    exact healthy.sent
  · rw [unchanged]
    exact healthy.waiting
  · exact healthy.usable

theorem owner_queued {log : List PreparedReplication} {acked : Nat} {pair : Pair}
    (healthy : Healthy hashing ownerConfig followerConfig topology log acked pair) (owner : NodeProcess)
    (entry : PreparedReplication)
    (deliverable : Deliverable hashing ownerConfig followerConfig topology entry)
    (sameTopology : owner.state.topology = pair.owner.state.topology)
    (numbered : entry.streamSequence = log.length + 1)
    (assigned : entry.mutation.version.ownerSequence = pair.owner.state.nextSequence + 1)
    (sequence : owner.state.nextSequence = pair.owner.state.nextSequence + 1)
    (head : owner.state.streamHead ⟨topology.epoch, followerConfig.nodeId⟩ =
      pair.owner.state.streamHead ⟨topology.epoch, followerConfig.nodeId⟩ + 1)
    (queued : owner.dispatch.taskAt (dispatched ownerConfig followerConfig topology) =
      { task ownerConfig followerConfig topology pair with
        queue := (task ownerConfig followerConfig topology pair).queue ++ [entry] })
    (sameHealth : owner.dispatch.failedStreams = pair.owner.dispatch.failedStreams) :
    Healthy hashing ownerConfig followerConfig topology (log ++ [entry]) acked { pair with owner } := by
  have sending := healthy.owner
  have sameBatch : (task ownerConfig followerConfig topology { pair with owner }).batch =
      (task ownerConfig followerConfig topology pair).batch := by
    simp only [task, queued]
  -- No entry of the log is as new as the one just assigned.
  have fresh : pair.owner.state.nextSequence < entry.mutation.version.ownerSequence := by omega
  constructor
  · -- The entry is numbered behind the log and carries the newest version.
    exact healthy.logged.append entry deliverable numbered fresh
      (by simp only [assigned, sequence]; exact le_refl _)
  · refine ⟨sameTopology.trans sending.installed, ?_, ?_, ?_, ?_, ?_, ?_⟩
    · simp only [head, sending.head, List.length_append, List.length_singleton]
    · exact sending.within.trans (by simp)
    · rw [List.drop_append_of_le_length sending.within, sending.pending, queued]
      simp [StreamTask.undelivered, task]
    · rw [queued]
      exact ⟨sending.ordered.carried, sending.ordered.limited⟩
    · rw [queued]
      exact sending.running
    · rw [sameHealth]
      exact sending.alive
  · -- Nothing has reached the follower yet.
    rw [sameBatch]
    have follower := healthy.follower
    exact ⟨follower.installed, follower.scheduled, follower.position.append entry fresh
      (by simp only [sequence]; omega)⟩
  · exact healthy.caughtUp
  · rw [sameBatch]
    intro batch member
    obtain ⟨filled, fromLog⟩ := healthy.sent batch member
    refine ⟨filled, ?_⟩
    intro copied listed
    obtain ⟨index, prepared, found, same, reach⟩ := fromLog copied listed
    obtain ⟨inside, _⟩ := List.getElem?_eq_some_iff.mp found
    exact ⟨index, prepared, by rw [List.getElem?_append_left inside]; exact found, same, reach⟩
  · -- Queueing does not collect: the batch that waits for an answer is the one that did.
    have sameFlag : (task ownerConfig followerConfig topology { pair with owner }).collected =
        (task ownerConfig followerConfig topology pair).collected := by
      simp only [task, queued]
    rw [sameFlag]
    exact healthy.waiting
  · exact healthy.usable

theorem filter_image_single {α β : Type} [DecidableEq β] (f : α → β) (items : List α)
    (distinct : (items.map f).Nodup)
    (item : α) (member : item ∈ items) : items.filter (fun other => f other = f item) = [item] := by
  induction items with
  | nil => simp at member
  | cons first rest ih =>
      simp only [List.map_cons, List.nodup_cons] at distinct
      rcases List.mem_cons.mp member with rfl | later
      · have absent : ∀ other ∈ rest, ¬f other = f item := by
          intro other listed same
          exact distinct.1 (same ▸ List.mem_map_of_mem listed)
        simp only [List.filter_cons, decide_true, ↓reduceIte, List.cons.injEq, true_and]
        rw [List.filter_eq_nil_iff]
        simpa using absent
      · have different : ¬f first = f item := fun same => distinct.1 (same ▸ List.mem_map_of_mem later)
        simp only [List.filter_cons, different, decide_false, Bool.false_eq_true, ↓reduceIte]
        exact ih distinct.2 later

theorem write_healthy (peers : Peers ownerConfig followerConfig)
    (digests : ∀ bytes, (hashing.blake3 bytes).length = 32) {log : List PreparedReplication}
    {acked : Nat} {pair : Pair}
    (healthy : Healthy hashing ownerConfig followerConfig topology log acked pair) (clock : Clock)
    (request : WriteRequest) (ready : Readiness)
    (proceeded : ∃ now earlier,
      lookupRequest hashing ownerConfig now earlier request = .proceed ready.token ready.tokenSeed) :
    ∃ longer, Healthy hashing ownerConfig followerConfig topology longer acked
      { pair with owner := (commitRequest hashing ownerConfig clock pair.owner request ready).1 } := by
  rcases commit_request_outcome hashing ownerConfig clock pair.owner request ready with
    ⟨kept, idle⟩ | ⟨plan, record, entries, stored, extended⟩
  · refine ⟨log, owner_idle healthy _ kept.topology (le_of_eq kept.sequence.symm) (idle.heads _)
      (idle.tasks _) ?_⟩
    rw [idle.failed]
  · generalize (commitRequest hashing ownerConfig clock pair.owner request ready).1 = owner
      at stored extended
    -- Every entry carries this epoch and owner, so only the follower tells streams apart.
    have same : ∀ entry ∈ entries, entry.streamKey = dispatched ownerConfig followerConfig topology ↔
        entry.ownerStream = ⟨topology.epoch, followerConfig.nodeId⟩ := by
      intro entry member
      have carries := extended.fanned.carries entry member
      simp only [PreparedReplication.streamKey, PreparedReplication.ownerStream, dispatched, carries,
        WritePlan.mutation, stored.version, healthy.owner.installed, ReplicationStreamKey.mk.injEq,
          StreamKey.mk.injEq,
        true_and]
    have filtered : entries.filter
        (fun entry => entry.streamKey = dispatched ownerConfig followerConfig topology) =
        entries.filter fun entry => entry.ownerStream = ⟨topology.epoch, followerConfig.nodeId⟩ := by
      apply List.filter_congr
      intro entry member
      simp only [same entry member]
    have queued := extended.tasks (dispatched ownerConfig followerConfig topology)
    rw [filtered] at queued
    have head := extended.heads ⟨topology.epoch, followerConfig.nodeId⟩
    by_cases addressed : (⟨topology.epoch, followerConfig.nodeId⟩ : StreamKey) ∈ entries.map
      (·.ownerStream)
    · obtain ⟨entry, member, named⟩ := List.mem_map.mp addressed
      have single := filter_image_single PreparedReplication.ownerStream entries
          extended.fanned.streams entry member
      rw [named] at single
      rw [single] at queued
      rw [if_pos addressed] at head
      have follower : entry.followerNodeId = followerConfig.nodeId := (StreamKey.mk.injEq .. ▸ named).2
      have deliverable := written_deliverable peers digests healthy.owner.installed proceeded stored
        extended entry
        member follower
      have carries := extended.fanned.carries entry member
      refine ⟨log ++ [entry], owner_queued healthy owner entry deliverable stored.topology ?_ ?_
        stored.sequence head
        queued extended.failed⟩
      · rw [extended.fanned.numbered entry member, named, healthy.owner.head]
      · rw [carries]
        simp only [WritePlan.mutation, stored.version]
    · have empty : entries.filter
          (fun entry => entry.ownerStream = ⟨topology.epoch, followerConfig.nodeId⟩) = [] := by
        rw [List.filter_eq_nil_iff]
        intro entry member named
        exact addressed (of_decide_eq_true named ▸ List.mem_map_of_mem member)
      rw [empty, List.append_nil] at queued
      rw [if_neg addressed] at head
      refine ⟨log, owner_idle healthy owner stored.topology ?_ head queued ?_⟩
      · rw [stored.sequence]
        omega
      · rw [extended.failed]

/-- A new task for the stream that still holds the rest of the log from `acked`
on, and no smaller a batch. -/
theorem task_replaced {log : List PreparedReplication} {acked advanced : Nat} {pair : Pair}
    (healthy : Healthy hashing ownerConfig followerConfig topology log acked pair) (state : NodeState)
    (sameTopology : state.topology = pair.owner.state.topology)
    (sameSequence : state.nextSequence = pair.owner.state.nextSequence)
    (sameHead : state.streamHead ⟨topology.epoch, followerConfig.nodeId⟩ =
      pair.owner.state.streamHead ⟨topology.epoch, followerConfig.nodeId⟩)
    (replacement : StreamTask) (within : advanced ≤ log.length)
    (pending : log.drop advanced = replacement.undelivered) (ordered : replacement.Ordered)
    (running : replacement.closed = false)
    (reach : acked + (task ownerConfig followerConfig topology pair).batch.length ≤
      advanced + replacement.batch.length)
    (caughtUp : advanced ≤ (pair.follower.streamAt (followed ownerConfig topology)).appliedSequence)
    (awaiting : Bool) (answer : Option (Except Status ReplicateMutationsResponse))
    (waiting : awaiting = true ∨ answer ≠ none → replacement.collected = true)
    (usable : ∀ known, answer = some known → Usable ownerConfig topology advanced pair.follower known) :
    Healthy hashing ownerConfig followerConfig topology log advanced
      { pair with
        owner := { pair.owner with state }.setTask (dispatched ownerConfig followerConfig topology)
          replacement
        awaiting, answer } := by
  have sending := healthy.owner
  -- Reading the stream back gives the task just set.
  have placed : ({ pair.owner with state }.setTask (dispatched ownerConfig followerConfig topology)
      replacement).dispatch.taskAt (dispatched ownerConfig followerConfig topology) = replacement := by
    rw [NodeProcess.task_at_set, if_pos rfl]
  have known : task ownerConfig followerConfig topology
      { pair with
        owner := { pair.owner with state }.setTask (dispatched ownerConfig followerConfig topology)
          replacement
        awaiting, answer } = replacement := placed
  constructor
  · simp only [NodeProcess.setTask, sameSequence]
    exact healthy.logged
  · refine ⟨sameTopology.trans sending.installed, sameHead.trans sending.head, within, ?_, ?_, ?_,
      sending.alive⟩
    · rw [placed]
      exact pending
    · rw [placed]
      exact ordered
    · rw [placed]
      exact running
  · rw [known]
    simp only [NodeProcess.setTask, sameSequence]
    exact healthy.follower.weaken (le_refl _) reach
  · exact caughtUp
  · rw [known]
    intro batch member
    obtain ⟨filled, fromLog⟩ := healthy.sent batch member
    refine ⟨filled, ?_⟩
    intro copied listed
    obtain ⟨index, prepared, found, same, short⟩ := fromLog copied listed
    exact ⟨index, prepared, found, same, short.trans reach⟩
  · rw [known]
    exact waiting
  · exact usable

theorem collect_healthy {log : List PreparedReplication} {acked : Nat} {pair : Pair}
    (healthy : Healthy hashing ownerConfig followerConfig topology log acked pair) :
    Healthy hashing ownerConfig followerConfig topology log acked
      { pair with owner := pair.owner.collectBatch (dispatched ownerConfig followerConfig topology) } := by
  have sending := healthy.owner
  obtain ⟨ordered, undelivered, closed, grown⟩ := StreamTask.collect_spec _ sending.ordered
  refine task_replaced healthy pair.owner.state rfl rfl rfl _ sending.within
    (sending.pending.trans undelivered.symm)
    ordered (closed.trans sending.running) (Nat.add_le_add_left grown acked) healthy.caughtUp _ _ ?_
      healthy.usable
  intro waiting
  have done := healthy.waiting waiting
  simp only [task] at done
  simp [StreamTask.collect, done]

theorem send_healthy {log : List PreparedReplication} {acked : Nat} {pair : Pair}
    (healthy : Healthy hashing ownerConfig followerConfig topology log acked pair) :
    Healthy hashing ownerConfig followerConfig topology log acked
      (next hashing ownerConfig followerConfig topology pair .send) := by
  have sending := healthy.owner
  simp only [next]
  unfold NodeProcess.sendBatch
  simp only
  split
  · rename_i owner unsent
    split at unsent
    · obtain ⟨rfl, _⟩ := Prod.mk.inj unsent
      exact healthy
    · rename_i first rest batch
      have member : first ∈ log := by
        have front : first ∈ log.drop acked := by
          rw [sending.pending]
          simp [StreamTask.undelivered, batch]
        exact List.mem_of_mem_drop front
      -- The batch is of the installed epoch, so it is sent.
      have stream := (healthy.logged.deliverable first member).stream
      simp only [PreparedReplication.streamKey, dispatched, ReplicationStreamKey.mk.injEq] at stream
      rw [if_neg (by simp [stream.1, sending.installed])] at unsent
      exact absurd unsent (by simp)
  · rename_i owner request sent
    split at sent
    · exact absurd sent (by simp)
    · rename_i first rest batch
      split at sent
      · exact absurd sent (by simp)
      · obtain ⟨rfl, copied⟩ := Prod.mk.inj sent
        obtain rfl := Option.some.inj copied
        have base := task_replaced healthy pair.owner.state rfl rfl rfl
          { pair.owner.dispatch.taskAt (dispatched ownerConfig followerConfig topology) with collected := true }
          sending.within sending.pending
          ⟨fun _ => Or.inr rfl, sending.ordered.limited⟩ sending.running
            (le_refl _) healthy.caughtUp true none
          (fun _ => rfl) (fun _ impossible => absurd impossible (by simp))
        refine ⟨base.logged, base.owner, base.follower, base.caughtUp, ?_, base.waiting, base.usable⟩
        intro sentBatch listed
        rcases List.mem_cons.mp listed with rfl | old
        · refine ⟨by simp, ?_⟩
          intro entry member
          obtain ⟨prepared, inside, rfl⟩ := List.mem_map.mp member
          rw [← batch] at inside
          obtain ⟨offset, short, stored⟩ := List.mem_iff_getElem.mp inside
          have found : log[acked + offset]? = some prepared := by
            rw [← List.getElem?_drop, sending.pending]
            simp only [StreamTask.undelivered, List.append_assoc]
            rw [List.getElem?_append_left short, List.getElem?_eq_getElem short, stored]
          refine ⟨acked + offset, prepared, found, rfl, ?_⟩
          have known : (task ownerConfig followerConfig topology
              { pair with
                owner := pair.owner.setTask (dispatched ownerConfig followerConfig topology)
                  { pair.owner.dispatch.taskAt (dispatched ownerConfig followerConfig topology) with collected := true }
                sent := ((first :: rest).map PreparedReplication.toProto) :: pair.sent
                awaiting := true
                answer := none }).batch =
              (pair.owner.dispatch.taskAt (dispatched ownerConfig followerConfig topology)).batch := by
            simp only [task, NodeProcess.task_at_set, ↓reduceIte]
          rw [known]
          omega
        · exact base.sent sentBatch old

theorem batch_in_log {log : List PreparedReplication} {acked : Nat} {process : NodeProcess}
    (sending : Sending ownerConfig followerConfig topology log acked process) (offset : Nat)
    (entry : PreparedReplication)
    (found : (process.dispatch.taskAt
      (dispatched ownerConfig followerConfig topology)).batch[offset]? = some entry) :
    log[acked + offset]? = some entry := by
  obtain ⟨short, _⟩ := List.getElem?_eq_some_iff.mp found
  rw [← List.getElem?_drop, sending.pending]
  simp only [StreamTask.undelivered, List.append_assoc]
  rw [List.getElem?_append_left short]
  exact found

theorem silenced {log : List PreparedReplication} {acked : Nat} {pair : Pair}
    (healthy : Healthy hashing ownerConfig followerConfig topology log acked pair) :
    Healthy hashing ownerConfig followerConfig topology log acked
      { pair with awaiting := false, answer := none } :=
  ⟨healthy.logged, healthy.owner, healthy.follower, healthy.caughtUp, healthy.sent,
    fun waiting => by simp at waiting, fun _ impossible => absurd impossible (by simp)⟩

theorem receive_healthy {log : List PreparedReplication} {acked : Nat} {pair : Pair}
    (healthy : Healthy hashing ownerConfig followerConfig topology log acked pair)
    (answer : Except Status ReplicateMutationsResponse) (arrived : pair.answer = some answer) :
    ∃ advanced, Healthy hashing ownerConfig followerConfig topology log advanced
      { pair with
        owner := pair.owner.receiveAnswer (dispatched ownerConfig followerConfig topology) answer
        awaiting := false
        answer := none } := by
  have sending := healthy.owner
  have usable := healthy.usable answer arrived
  unfold NodeProcess.receiveAnswer
  simp only
  split
  · -- No request was open, so the answer is dropped.
    exact ⟨acked, silenced healthy⟩
  · rename_i first rest batch
    have numbered : ∀ (offset : Nat) (entry : PreparedReplication),
        (pair.owner.dispatch.taskAt (dispatched ownerConfig followerConfig topology)).batch[offset]?
          = some entry →
          entry.streamSequence = acked + offset + 1 := by
      intro offset entry found
      exact healthy.logged.numbered _ _ (batch_in_log sending offset entry found)
    have head : first.streamSequence = acked + 1 := numbered 0 first (by rw [batch]; rfl)
    cases answer with
    | error status =>
        simp only [usable.refusal status rfl, ↓reduceIte]
        exact ⟨acked, silenced healthy⟩
    | ok response =>
        -- The answer covers the head of the batch at least, so the batch can shrink.
        have covers := usable.covers response rfl
        have applied := usable.applied response rfl
        simp only [usable.named response rfl, head, covers, and_self, ↓reduceIte]
        obtain ⟨ordered, undelivered, left⟩ :=
          StreamTask.retain_spec _ acked response.appliedStreamSequence
          sending.ordered numbered
        have size : (pair.owner.dispatch.taskAt
            (dispatched ownerConfig followerConfig topology)).batch.length ≤
            log.length - acked := by
          rw [← List.length_drop, sending.pending]
          simp [StreamTask.undelivered]
        have room := sending.within
        refine ⟨acked + min (response.appliedStreamSequence - acked)
          (pair.owner.dispatch.taskAt (dispatched ownerConfig followerConfig topology)).batch.length,
          task_replaced healthy (NodeProcess.recordAck pair.owner.state first.ownerStream response)
            rfl rfl rfl _ ?_ ?_
            ordered sending.running ?_ ?_ false none ?_ ?_⟩
        · omega
        · rw [← List.drop_drop, sending.pending, undelivered]
        · rw [left]
          simp only [task]
          omega
        · omega
        · simp
        · exact fun _ impossible => absurd impossible (by simp)

/-- A follower step that keeps the invariant of its half and does not move its
position backwards. -/
theorem follower_moved {log : List PreparedReplication} {acked : Nat} {pair : Pair}
    (healthy : Healthy hashing ownerConfig followerConfig topology log acked pair) (follower : NodeState)
    (follows : Follows hashing ownerConfig topology log pair.owner.state.nextSequence
      (acked + (task ownerConfig followerConfig topology pair).batch.length) follower)
    (forward : (pair.follower.streamAt (followed ownerConfig topology)).appliedSequence ≤
      (follower.streamAt (followed ownerConfig topology)).appliedSequence) :
    Healthy hashing ownerConfig followerConfig topology log acked { pair with follower } := by
  refine ⟨healthy.logged, healthy.owner, follows, healthy.caughtUp.trans forward, healthy.sent,
    healthy.waiting, ?_⟩
  intro answer arrived
  have usable := healthy.usable answer arrived
  exact ⟨usable.refusal, usable.named, usable.covers, fun response answered =>
    (usable.applied response answered).trans forward⟩

theorem deliver_healthy (peers : Peers ownerConfig followerConfig) {log : List PreparedReplication}
    {acked : Nat} {pair : Pair}
    (healthy : Healthy hashing ownerConfig followerConfig topology log acked pair) (clock : Clock)
    (batch : List ReplicationEntry) (member : batch ∈ pair.sent)
    (spared : Spared hashing followerConfig clock pair.follower batch) :
    Healthy hashing ownerConfig followerConfig topology log acked
      (next hashing ownerConfig followerConfig topology pair (.deliver clock batch)) := by
  have sending := healthy.owner
  obtain ⟨filled, copied⟩ := healthy.sent batch member
  obtain ⟨follows, forward⟩ :=
    batch_taken clock healthy.logged batch copied pair.follower healthy.follower
  have base := follower_moved healthy _ follows forward
  simp only [next]
  split
  · rename_i current
    obtain ⟨awaiting, rfl⟩ := current
    -- The owner still waits for this batch, so the answer counts.
    have collected := healthy.waiting (Or.inl awaiting)
    refine ⟨base.logged, base.owner, base.follower, base.caughtUp, base.sent, fun _ => collected, ?_⟩
    rintro _ ⟨⟩
    cases held : (task ownerConfig followerConfig topology pair).batch with
    | nil =>
        rw [held] at filled
        exact absurd rfl filled
    | cons first rest =>
        have found : log[acked]? = some first := batch_in_log sending 0 first (by
          simp only [task] at held
          rw [held]
          rfl)
        have limited := sending.ordered.limited
        rw [held, List.map_cons] at copied spared
        obtain ⟨refusal, accepted⟩ := batch_answer clock healthy.logged acked first found _ copied
          (by
            have size : (task ownerConfig followerConfig topology pair).batch.length ≤
                replicationBatchMaxEntries :=
              limited
            rw [held] at size
            omega)
          pair.follower (by rw [← held]; exact healthy.follower) spared
        rw [List.map_cons]
        refine ⟨refusal, ?_, ?_, ?_⟩
        · intro response answered
          rw [(accepted response answered).1]
          exact peers.named
        · intro response answered
          exact (accepted response answered).2.1
        · intro response answered
          rw [(accepted response answered).2.2]
  · exact base

theorem follower_range_healthy {log : List PreparedReplication} {acked : Nat} {pair : Pair}
    (healthy : Healthy hashing ownerConfig followerConfig topology log acked pair)
    (operation : RangeOperation) :
    Healthy hashing ownerConfig followerConfig topology log acked
      { pair with follower := (operation.perform hashing followerConfig pair.follower).1 } := by
  obtain ⟨⟨middle, ⟨_, _, _, _, _, _, staged⟩, receipts⟩, scheduled⟩ :=
    operation.perform_only hashing followerConfig pair.follower
  have position : ((operation.perform hashing followerConfig pair.follower).1).streamAt
      (followed ownerConfig topology) =
      pair.follower.streamAt (followed ownerConfig topology) := by
    rw [receipts.stream_at, staged]
    rfl
  apply follower_moved healthy
  · apply healthy.follower.of_same
    · rw [receipts.topology, staged]
    · exact scheduled healthy.follower.scheduled
    · exact position
  · rw [position]

theorem owner_range_healthy {log : List PreparedReplication} {acked : Nat} {pair : Pair}
    (healthy : Healthy hashing ownerConfig followerConfig topology log acked pair)
    (operation : RangeOperation) :
    Healthy hashing ownerConfig followerConfig topology log acked
      { pair with
        owner := { pair.owner with state := (operation.perform hashing ownerConfig pair.owner.state).1 } } := by
  obtain ⟨⟨middle, ⟨_, _, _, _, _, _, staged⟩, ⟨_, _, _, _, _, _, _, _, _, receipts⟩⟩, _⟩ :=
    operation.perform_only hashing ownerConfig pair.owner.state
  refine owner_idle healthy
    { pair.owner with state := (operation.perform hashing ownerConfig pair.owner.state).1 }
    ?_ ?_ ?_ rfl Iff.rfl
  · rw [receipts, staged]
  · rw [receipts, staged]
  · rw [receipts, staged]
    rfl

theorem checkpoint_healthy {log : List PreparedReplication} {acked : Nat} {pair : Pair}
    (healthy : Healthy hashing ownerConfig followerConfig topology log acked pair)
    (request : ReplicationCheckpointRequest) :
    Healthy hashing ownerConfig followerConfig topology log acked
      { pair with follower := (installReplicationCheckpoint followerConfig pair.follower request).1 } := by
  have forward := FollowerStream.checkpoint_monotone followerConfig pair.follower request
      (followed ownerConfig topology)
  refine follower_moved healthy _ ?_ forward
  rcases FollowerStream.checkpoint_cases followerConfig pair.follower request with same | same |
    ⟨ahead, moved⟩
  · rw [same]
    exact healthy.follower
  · rw [same]
    exact healthy.follower.of_same rfl healthy.follower.scheduled (NodeState.stream_at_init _ _ _)
  · rw [moved]
    by_cases here : followed ownerConfig topology = ⟨request.topologyEpoch, request.ownerNodeId⟩
    · refine ⟨healthy.follower.installed, healthy.follower.scheduled, ?_⟩
      rw [NodeState.stream_at_set, if_pos here, ← here]
      rw [← here] at ahead
      exact healthy.follower.position.checkpoint request.streamSequence ahead
    · refine healthy.follower.of_same rfl healthy.follower.scheduled ?_
      rw [NodeState.stream_at_set, if_neg here]

theorem step_healthy (peers : Peers ownerConfig followerConfig)
    (digests : ∀ bytes, (hashing.blake3 bytes).length = 32) {before after : Pair} {event : Event}
    (taken : SparedStep hashing ownerConfig followerConfig topology before event after)
    (healthy : ∃ log acked, Healthy hashing ownerConfig followerConfig topology log acked before) :
    ∃ log acked, Healthy hashing ownerConfig followerConfig topology log acked after := by
  obtain ⟨log, acked, healthy⟩ := healthy
  obtain ⟨⟨admitted, rfl⟩, spared⟩ := taken
  cases event with
  | write clock request ready =>
      obtain ⟨longer, kept⟩ := write_healthy peers digests healthy clock request ready admitted
      exact ⟨longer, acked, kept⟩
  | ownerRange operation => exact ⟨log, acked, owner_range_healthy healthy operation⟩
  | ownerOther rest =>
      obtain ⟨sameTopology, rising, sameHead, sameTask, sameHealth⟩ := admitted
      exact ⟨log, acked, owner_idle healthy rest sameTopology rising sameHead sameTask sameHealth⟩
  | collect => exact ⟨log, acked, collect_healthy healthy⟩
  | send => exact ⟨log, acked, send_healthy healthy⟩
  | deliver clock batch =>
      exact ⟨log, acked, deliver_healthy peers healthy clock batch admitted (spared clock batch rfl)⟩
  | receive =>
      simp only [next]
      split
      · exact ⟨log, acked, healthy⟩
      · rename_i answer arrived
        obtain ⟨advanced, kept⟩ := receive_healthy healthy answer arrived
        exact ⟨log, advanced, kept⟩
  | lose => exact ⟨log, acked, silenced healthy⟩
  | followerRange operation => exact ⟨log, acked, follower_range_healthy healthy operation⟩
  | checkpoint request => exact ⟨log, acked, checkpoint_healthy healthy request⟩
  | followerOther rest =>
      obtain ⟨sameTopology, scheduled, samePosition⟩ := admitted
      refine ⟨log, acked, follower_moved healthy rest ?_ (le_of_eq (by rw [samePosition]))⟩
      exact healthy.follower.of_same sameTopology scheduled samePosition

/-- As long as no entry meets an unexpired receipt for its own mutation ID when
its turn comes, the stream is never declared failed, and every entry that
arrives in turn is applied or asked for again. -/
theorem spared_stream_survives (peers : Peers ownerConfig followerConfig)
    (digests : ∀ bytes, (hashing.blake3 bytes).length = 32) {start after : Pair} {events : List Event}
    (fresh : Fresh ownerConfig followerConfig topology start)
    (run : Transition.Run (SparedStep hashing ownerConfig followerConfig topology) start events after) :
    dispatched ownerConfig followerConfig topology ∉ after.owner.dispatch.failedStreams ∧
      ∀ clock batch, batch ∈ after.sent → Spared hashing followerConfig clock after.follower batch →
        TurnsSurvive hashing followerConfig clock after.follower batch := by
  obtain ⟨log, acked, healthy⟩ := Transition.run_invariant (fun _ => True)
    (fun pair => ∃ log acked, Healthy hashing ownerConfig followerConfig topology log acked pair)
    (fun _ _ _ _ healthy taken => step_healthy peers digests taken healthy) run (fun _ _ => trivial)
    ⟨[], 0, fresh_healthy fresh⟩
  refine ⟨healthy.owner.alive, ?_⟩
  intro clock batch member spared
  exact turns_survive clock healthy.logged batch (healthy.sent batch member).2 after.follower
    healthy.follower spared

/-! A repair of the pair of the sample ring. The write that it copies is still
queued on the stream when the follower commits the copy. -/

def samplePair : Pair where
  owner := { state := { topology := Sample.topology, lease := some ⟨1, 1000⟩ } }
  follower := { topology := Sample.topology }

theorem sample_fresh : Fresh RangeMove.sampleSourceConfig RangeMove.sampleDestinationConfig
    Sample.topology
    samplePair where
  ownerInstalled := rfl
  followerInstalled := rfl
  unnumbered := by decide +kernel
  idle := rfl
  open_ := by decide +kernel
  unmet := rfl
  scheduled := fun _ _ found => absurd found (by simp [samplePair])
  silent := ⟨rfl, rfl, rfl⟩

theorem sample_proceeds :
    lookupRequest Sample.hashing RangeMove.sampleSourceConfig 1 samplePair.owner.state
    (RangeMove.samplePut (byte 108) "m") = .proceed 5 7 := by
  decide +kernel

def sampleWrite : Event := .write (Sample.clock 10) (RangeMove.samplePut (byte 108) "m") ⟨5, 7, 1, ["b"]⟩

def sampleEntry : ReplicationEntry where
  topologyEpoch := 1
  ownerNodeId := "a"
  streamSequence := 1
  key := [byte 108]
  value := [byte 2]
  deleted := false
  version := some ⟨1, 1, "a"⟩
  mutationId := "m"
  expiresAtUnixMillis := none
  requestFingerprint := List.replicate 31 (byte 0) ++ [byte 46]

def sampleRun : List Event → Pair :=
  List.foldl (next Sample.hashing RangeMove.sampleSourceConfig RangeMove.sampleDestinationConfig
    Sample.topology)
    samplePair

theorem spared_stream_survives_sample :
    dispatched RangeMove.sampleSourceConfig RangeMove.sampleDestinationConfig Sample.topology ∉
      (sampleRun [sampleWrite, .collect, .send, .deliver (Sample.clock 12) [sampleEntry],
        .receive]).owner.dispatch.failedStreams := by
  have untaken : (sampleRun [sampleWrite, .collect, .send]).follower.dedup.lookup "m" = none :=
    by decide +kernel
  have sent : [sampleEntry] ∈ (sampleRun [sampleWrite, .collect, .send]).sent := by decide +kernel
  have idle : (sampleRun [sampleWrite, .collect]).awaiting = false := by decide +kernel
  have run : Transition.Run
      (SparedStep Sample.hashing RangeMove.sampleSourceConfig RangeMove.sampleDestinationConfig
        Sample.topology)
      samplePair [sampleWrite, .collect, .send, .deliver (Sample.clock 12) [sampleEntry], .receive]
      (sampleRun [sampleWrite, .collect, .send, .deliver (Sample.clock 12) [sampleEntry], .receive]) := by
    apply Transition.permitted_run
      (fun pair event =>
        Admissible Sample.hashing RangeMove.sampleSourceConfig RangeMove.sampleDestinationConfig
          Sample.topology
            pair event ∧
          ∀ clock batch, event = .deliver clock batch →
            Spared Sample.hashing RangeMove.sampleDestinationConfig clock pair.follower batch)
    · intro _ _ admitted
      exact ⟨⟨admitted.1, rfl⟩, admitted.2⟩
    · refine ⟨⟨⟨1, samplePair.owner.state, sample_proceeds⟩, nofun⟩, ⟨trivial, nofun⟩,
        ⟨idle, nofun⟩, ⟨sent, ?_⟩,
        ⟨trivial, nofun⟩, trivial⟩
      rintro _ _ ⟨⟩
      refine ⟨fun _ receipt found => ?_, fun _ _ _ => trivial⟩
      exact absurd (untaken.symm.trans found) (by simp)
  have peers : Peers RangeMove.sampleSourceConfig RangeMove.sampleDestinationConfig :=
    ⟨rfl, by decide +kernel⟩
  have digests : ∀ bytes, (Sample.hashing.blake3 bytes).length = 32 := fun _ => by simp [Sample.hashing]
  exact (spared_stream_survives peers digests sample_fresh run).1

def sampleRepair : RangeSpec := ⟨"repair-1", "range", 0, 10, "a", "b"⟩

def sampleCommit : List Event :=
  [.ownerRange (.prepareSource (some sampleRepair)),
    .followerRange (.prepareDestination (some sampleRepair)),
   sampleWrite, .ownerRange (.pauseWrites sampleRepair.key),
   .followerRange (.applyBatch (Sample.clock 12)
     { changeId := "repair-1", rangeId := "range", snapshotRecords := []
       journalRecords := RangeMove.sampleJournal.records.take 1 }),
   .followerRange (.commitDestination (Sample.clock 13) sampleRepair.key), .collect, .send]

def sampleRefusal : List Event :=
  [.deliver (Sample.clock 14) [sampleEntry], .receive, .ownerRange (.abort sampleRepair.key),
   .followerRange (.abort sampleRepair.key)]

/-- An entry delivered between the commit of a repair and its checkpoint meets
the receipt the repair copied. It is the entry the follower expects, yet the
answer cannot be retried: the stream fails, and the owner refuses writes to the
range from then on, with the repair long over. -/
theorem committed_repair_ends_stream :
    ∃ middle after : Pair,
      Fresh RangeMove.sampleSourceConfig RangeMove.sampleDestinationConfig Sample.topology samplePair ∧
      Transition.Run
        (Step Sample.hashing RangeMove.sampleSourceConfig RangeMove.sampleDestinationConfig
          Sample.topology)
        samplePair sampleCommit middle ∧
      (readChangelogPage RangeMove.sampleSourceConfig 12 middle.owner.state
        ⟨"repair-1", "range", 0, 0⟩).toOption.map
        (·.records) = some (RangeMove.sampleJournal.records.take 1) ∧
      [sampleEntry] ∈ middle.sent ∧
      sampleEntry.streamSequence = (middle.follower.streamAt sampleEntry.stream).appliedSequence + 1 ∧
      ¬Survivable (applyReplicationEntry Sample.hashing RangeMove.sampleDestinationConfig
        (Sample.clock 14)
        middle.follower sampleEntry).2 ∧
      Transition.Run
        (Step Sample.hashing RangeMove.sampleSourceConfig RangeMove.sampleDestinationConfig
          Sample.topology)
        middle sampleRefusal after ∧
      dispatched RangeMove.sampleSourceConfig RangeMove.sampleDestinationConfig Sample.topology ∈
        after.owner.dispatch.failedStreams ∧
      (commitRequest Sample.hashing RangeMove.sampleSourceConfig (Sample.clock 20) after.owner
        (RangeMove.samplePut (byte 107) "n") ⟨5, 7, 1, ["b"]⟩).2 =
          .respond { currentEpoch := 1, error := some (replicationBackpressureError 1) } := by
  -- The batch was sent before the repair's commit brought the receipt by another way.
  have idle : (sampleRun sampleCommit.dropLast).awaiting = false := by decide +kernel
  have sent : [sampleEntry] ∈ (sampleRun sampleCommit).sent := by decide +kernel
  refine ⟨sampleRun sampleCommit, sampleRun (sampleCommit ++ sampleRefusal), sample_fresh, ?_,
    by decide +kernel,
    sent, by decide +kernel, ?_, ?_, by decide +kernel, by decide +kernel⟩
  · apply Transition.permitted_run
      (Admissible Sample.hashing RangeMove.sampleSourceConfig RangeMove.sampleDestinationConfig
        Sample.topology)
    · intro _ _ admitted
      exact ⟨admitted, rfl⟩
    · exact ⟨trivial, trivial, ⟨1, samplePair.owner.state, sample_proceeds⟩, trivial, trivial,
        trivial, trivial,
        idle, trivial⟩
  · intro survivable
    have refused : (applyReplicationEntry Sample.hashing RangeMove.sampleDestinationConfig
        (Sample.clock 14)
        (sampleRun sampleCommit).follower sampleEntry).2 =
          .error ⟨.alreadyExists, "replication stream reused a live mutation ID"⟩ := by
      decide +kernel
    exact absurd (survivable _ refused) (by decide)
  · have joined : sampleRun (sampleCommit ++ sampleRefusal) =
        sampleRefusal.foldl (next Sample.hashing RangeMove.sampleSourceConfig
          RangeMove.sampleDestinationConfig
          Sample.topology) (sampleRun sampleCommit) := List.foldl_append
    rw [joined]
    apply Transition.permitted_run
      (Admissible Sample.hashing RangeMove.sampleSourceConfig RangeMove.sampleDestinationConfig
        Sample.topology)
    · intro _ _ admitted
      exact ⟨admitted, rfl⟩
    · exact ⟨sent, trivial, trivial, trivial, trivial⟩

end Hashring.StreamHealth
