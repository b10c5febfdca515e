import Hashring.Replication

/-! The owner half of crates/hashring-node/src/replication.rs up to the point
where an entry waits in its stream's queue: fan-out of a mutation, sequence
rollback, and the reservation that every follower stream must grant first. -/
namespace Hashring

structure ReplicationMutation where
  topologyEpoch : Nat
  ownerNodeId : String
  key : Bytes
  value : Bytes
  deleted : Bool
  version : RecordVersion
  mutationId : String
  expiresAtUnixMillis : Option Nat
  requestFingerprint : Bytes
  deriving DecidableEq

structure PreparedReplication where
  followerNodeId : String
  followerEndpoint : String
  streamSequence : Nat
  mutation : ReplicationMutation
  ackAwaited : Bool
  deriving DecidableEq

def PreparedReplication.toProto (prepared : PreparedReplication) : ReplicationEntry where
  topologyEpoch := prepared.mutation.topologyEpoch
  ownerNodeId := prepared.mutation.ownerNodeId
  streamSequence := prepared.streamSequence
  key := prepared.mutation.key
  value := prepared.mutation.value
  deleted := prepared.mutation.deleted
  version := some prepared.mutation.version
  mutationId := prepared.mutation.mutationId
  expiresAtUnixMillis := prepared.mutation.expiresAtUnixMillis
  requestFingerprint := prepared.mutation.requestFingerprint

structure ReplicationStreamKey where
  epoch : Nat
  owner : String
  follower : String
  deriving DecidableEq

/-- A stream's bounded channel and what its delivery task holds of it: the
batch, whether its collection is over, the entry carried over to the next
batch, and whether the task has returned. -/
structure StreamTask where
  queue : List PreparedReplication := []
  carry : Option PreparedReplication := none
  batch : List PreparedReplication := []
  collected : Bool := false
  closed : Bool := false

structure ReplicationDispatcher where
  streams : FiniteMap ReplicationStreamKey StreamTask := ∅
  failedStreams : List ReplicationStreamKey := []

structure NodeProcess where
  state : NodeState
  dispatch : ReplicationDispatcher := {}

structure ReplicationWrite where
  key : Bytes
  record : Record
  requestFingerprint : Bytes
  mutationId : String
  token : Token
  maxPendingBytes : Nat
  ackAwaitedFollowers : List String

def replicationMutationBytes (mutation : ReplicationMutation) : Nat :=
  mutation.key.length + mutation.value.length + mutation.ownerNodeId.utf8ByteSize +
    mutation.mutationId.utf8ByteSize + 256

def PreparedReplication.streamKey (prepared : PreparedReplication) : ReplicationStreamKey :=
  ⟨prepared.mutation.topologyEpoch, prepared.mutation.ownerNodeId, prepared.followerNodeId⟩

def PreparedReplication.ownerStream (prepared : PreparedReplication) : StreamKey :=
  ⟨prepared.mutation.topologyEpoch, prepared.followerNodeId⟩

def prepareFollowers (mutation : ReplicationMutation) (awaited : List String) :
    NodeState → List (String × String) → NodeState × List PreparedReplication
  | state, [] => (state, [])
  | state, (nodeId, endpoint) :: rest =>
      let key : StreamKey := ⟨state.topology.epoch, nodeId⟩
      let sequence := (state.ownerStreamSequences.lookup key).getD 0 + 1
      let numbered :=
        { state with
          ackProgress := if key ∈ state.ackProgress then state.ackProgress
            else state.ackProgress.insert key 0
          ownerStreamSequences := state.ownerStreamSequences.insert key sequence }
      let (final, later) := prepareFollowers mutation awaited numbered rest
      (final,
        { followerNodeId := nodeId, followerEndpoint := endpoint, streamSequence := sequence, mutation
          ackAwaited := awaited.contains nodeId } :: later)

def ReplicationWrite.mutation (write : ReplicationWrite) (topologyEpoch : Nat) : ReplicationMutation where
  topologyEpoch
  ownerNodeId := write.record.version.ownerNodeId
  key := write.key
  value := write.record.value
  deleted := write.record.deleted
  version := write.record.version
  mutationId := write.mutationId
  expiresAtUnixMillis := write.record.expiresAtUnixMillis
  requestFingerprint := write.requestFingerprint

-- An installed topology was validated, so placement never fails and only names
-- members; the defaults below are never taken.
def replicationFollowers (topology : TopologySnapshot) (token : Token) : List (String × String) :=
  ((topology.replicaNodeIdsForToken token).toOption.getD []).tail.map fun nodeId =>
    (nodeId, ((topology.members.find? fun member => member.nodeId = nodeId).map (·.endpoint)).getD "")

def prepareReplicationEntries (state : NodeState) (write : ReplicationWrite) :
    Option (NodeState × List PreparedReplication) :=
  let mutation := write.mutation state.topology.epoch
  if write.maxPendingBytes < replicationMutationBytes mutation then none
  else
    some (prepareFollowers mutation write.ackAwaitedFollowers state
      (replicationFollowers state.topology write.token))

def rollbackReplicationSequences (state : NodeState) (entries : List PreparedReplication) : NodeState :=
  entries.foldl (fun state entry =>
    let key := entry.ownerStream
    let sequence := (state.ownerStreamSequences.lookup key).getD 0 - 1
    { state with
      ownerStreamSequences :=
        if sequence = 0 then state.ownerStreamSequences.erase key
        else state.ownerStreamSequences.insert key sequence }) state

def replicationBackpressureError (epoch : Nat) : OperationError :=
  { operationError .resourceExhausted "replication queue is full or requires catch-up; retry with backoff" true with
    currentEpoch := epoch }

namespace StreamTask

def pending (task : StreamTask) : List PreparedReplication :=
  task.queue ++ task.carry.toList ++ task.batch

end StreamTask

namespace ReplicationDispatcher

/-- Bytes held against the retained budget. A mutation holds one permit until
the last of its followers' entries is dropped. -/
def retainedBytes (dispatch : ReplicationDispatcher) : Nat :=
  ((((dispatch.streams.values.flatMap StreamTask.pending).map (·.mutation)).dedup).map
    replicationMutationBytes).sum

/-- The reservation loop; a stream created before a refusal stays. -/
def reserveStreams (capacity : Nat) : ReplicationDispatcher → List PreparedReplication →
    ReplicationDispatcher × Bool
  | dispatch, [] => (dispatch, true)
  | dispatch, entry :: rest =>
      if entry.streamKey ∈ dispatch.failedStreams then (dispatch, false)
      else
        let task := (dispatch.streams.lookup entry.streamKey).getD {}
        let opened := { dispatch with streams := dispatch.streams.insert entry.streamKey task }
        if task.closed ∨ capacity ≤ task.queue.length then (opened, false)
        else reserveStreams capacity opened rest

def reserve (config : NodeConfig) (dispatch : ReplicationDispatcher)
    (entries : List PreparedReplication) :
    ReplicationDispatcher × Bool :=
  let budgeted := entries.head?.all fun entry =>
    decide (replicationMutationBytes entry.mutation < 2 ^ 32) &&
      decide (dispatch.retainedBytes + replicationMutationBytes entry.mutation ≤
        config.maxPendingReplicationBytes)
  if budgeted then reserveStreams config.replicationStreamQueueCapacity dispatch entries
  else (dispatch, false)

/-- `dispatch`: each reserved slot receives its entry. -/
def enqueue (dispatch : ReplicationDispatcher) (entries : List PreparedReplication) :
    ReplicationDispatcher :=
  entries.foldl (fun dispatch entry =>
    { dispatch with
      streams := dispatch.streams.modify entry.streamKey fun task =>
        { task with queue := task.queue ++ [entry] } })
    dispatch

def pruneEpoch (dispatch : ReplicationDispatcher) (epoch : Nat) : ReplicationDispatcher where
  streams := dispatch.streams.retain fun key task => key.epoch = epoch && !task.closed
  failedStreams := dispatch.failedStreams.filter fun key => key.epoch = epoch

def taskAt (dispatch : ReplicationDispatcher) (key : ReplicationStreamKey) : StreamTask :=
  (dispatch.streams.lookup key).getD {}

end ReplicationDispatcher

def NodeState.streamHead (state : NodeState) (key : StreamKey) : Nat :=
  (state.ownerStreamSequences.lookup key).getD 0

def numberedFor (mutation : ReplicationMutation) (awaited : List String) (state : NodeState)
    (follower : String × String) : PreparedReplication where
  followerNodeId := follower.1
  followerEndpoint := follower.2
  streamSequence := state.streamHead ⟨state.topology.epoch, follower.1⟩ + 1
  mutation
  ackAwaited := awaited.contains follower.1

theorem prepare_followers_spec (mutation : ReplicationMutation) (awaited : List String)
    (followers : List (String × String)) (distinct : (followers.map Prod.fst).Nodup) (state : NodeState) :
    (prepareFollowers mutation awaited state followers).2 = followers.map
      (numberedFor mutation awaited state) ∧
      ∀ key, (prepareFollowers mutation awaited state followers).1.streamHead key =
        if key.epoch = state.topology.epoch ∧
          key.nodeId ∈ followers.map Prod.fst then state.streamHead key + 1
        else state.streamHead key := by
  induction followers generalizing state with
  | nil => exact ⟨rfl, fun _ => by simp [prepareFollowers]⟩
  | cons follower rest ih =>
      obtain ⟨nodeId, endpoint⟩ := follower
      simp only [List.map_cons, List.nodup_cons] at distinct
      unfold prepareFollowers
      simp only
      generalize numbered : ({ state with
          ackProgress :=
            if (⟨state.topology.epoch, nodeId⟩ : StreamKey) ∈ state.ackProgress then state.ackProgress
            else state.ackProgress.insert ⟨state.topology.epoch, nodeId⟩ 0
          ownerStreamSequences := state.ownerStreamSequences.insert ⟨state.topology.epoch, nodeId⟩
            ((state.ownerStreamSequences.lookup ⟨state.topology.epoch, nodeId⟩).getD 0 + 1) } :
              NodeState) = next
      -- Only this follower's head moves; the rest are numbered from heads it leaves alone.
      have head : ∀ key, next.streamHead key =
          if key = ⟨state.topology.epoch, nodeId⟩ then state.streamHead key +
              1 else state.streamHead key := by
        intro key
        rw [← numbered]
        simp only [NodeState.streamHead, FiniteMap.lookup_insert_if]
        by_cases same : key = ⟨state.topology.epoch, nodeId⟩
        · subst key
          simp
        · simp [same]
      have epoch : next.topology = state.topology := by rw [← numbered]
      obtain ⟨entries, heads⟩ := ih distinct.2 next
      rw [epoch] at heads
      constructor
      · rw [entries]
        simp only [List.map_cons]
        congr 1
        apply List.map_congr_left
        intro other member
        have different : other.1 ≠ nodeId := by
          rintro rfl
          exact distinct.1 (List.mem_map_of_mem member)
        simp [numberedFor, head, epoch, different]
      · intro key
        rw [heads key, head key]
        obtain ⟨keyEpoch, keyNode⟩ := key
        simp only [StreamKey.mk.injEq, List.map_cons, List.mem_cons]
        by_cases sameEpoch : keyEpoch = state.topology.epoch
        · subst keyEpoch
          by_cases sameNode : keyNode = nodeId
          · subst sameNode
            simp only [distinct.1, and_false, ↓reduceIte, and_self, true_or]
          · simp only [sameNode, and_false, ↓reduceIte, false_or]
        · simp only [sameEpoch, false_and, ↓reduceIte]

theorem rollback_head (entries : List PreparedReplication)
    (distinct : (entries.map (·.ownerStream)).Nodup) (state : NodeState) (key : StreamKey) :
    (rollbackReplicationSequences state entries).streamHead key =
      if key ∈ entries.map (·.ownerStream) then state.streamHead key - 1 else state.streamHead key := by
  unfold rollbackReplicationSequences
  induction entries generalizing state with
  | nil => simp
  | cons entry rest ih =>
      simp only [List.map_cons, List.nodup_cons] at distinct
      rw [List.foldl_cons, ih distinct.2]
      have head : ∀ probe, NodeState.streamHead
          { state with
            ownerStreamSequences :=
              if (state.ownerStreamSequences.lookup entry.ownerStream).getD 0 - 1 = 0 then
                state.ownerStreamSequences.erase entry.ownerStream
              else state.ownerStreamSequences.insert entry.ownerStream
                ((state.ownerStreamSequences.lookup entry.ownerStream).getD 0 - 1) } probe =
            if probe = entry.ownerStream then state.streamHead probe - 1 else state.streamHead probe := by
        intro probe
        simp only [NodeState.streamHead]
        split
        · rename_i zero
          rw [FiniteMap.lookup_erase_if]
          by_cases same : probe = entry.ownerStream
          · subst probe
            simp [zero]
          · simp [same]
        · rw [FiniteMap.lookup_insert_if]
          by_cases same : probe = entry.ownerStream
          · subst probe
            simp
          · simp [same]
      rw [head key]
      by_cases same : key = entry.ownerStream
      · subst key
        simp [distinct.1]
      · simp [same]

/-- The fan-out of a mutation: one entry for each follower of the token, numbered
next on that follower's stream. -/
structure FannedOut (state : NodeState) (token : Token) (mutation : ReplicationMutation)
    (entries : List PreparedReplication) : Prop where
  streams : (entries.map (·.ownerStream)).Nodup
  carries : ∀ entry ∈ entries, entry.mutation = mutation
  numbered : ∀ entry ∈ entries, entry.streamSequence = state.streamHead entry.ownerStream + 1
  placed : ∀ entry ∈ entries, ∃ replicas, state.topology.replicaNodeIdsForToken token = .ok replicas ∧
    entry.followerNodeId ∈ replicas.tail

theorem replication_followers_distinct (topology : TopologySnapshot) (token : Token) :
    ((replicationFollowers topology token).map Prod.fst).Nodup := by
  have names : (replicationFollowers topology token).map Prod.fst =
      ((topology.replicaNodeIdsForToken token).toOption.getD []).tail := by
    simp [replicationFollowers, Function.comp_def]
  rw [names]
  cases placed : topology.replicaNodeIdsForToken token with
  | error _ => simp [Except.toOption]
  | ok replicas => exact (TopologySnapshot.replica_node_ids_nodup topology token replicas placed).tail

theorem replication_followers_placed (topology : TopologySnapshot) (token : Token)
    (follower : String × String) (member : follower ∈ replicationFollowers topology token) :
    ∃ replicas, topology.replicaNodeIdsForToken token = .ok replicas ∧ follower.1 ∈ replicas.tail := by
  unfold replicationFollowers at member
  obtain ⟨nodeId, listed, rfl⟩ := List.mem_map.mp member
  cases placed : topology.replicaNodeIdsForToken token with
  | error _ => simp [placed, Except.toOption] at listed
  | ok replicas => exact ⟨replicas, rfl, by simpa [placed, Except.toOption] using listed⟩

theorem prepare_fans_out (state prepared : NodeState) (write : ReplicationWrite)
    (entries : List PreparedReplication)
    (fanned : prepareReplicationEntries state write = some (prepared, entries)) :
    FannedOut state write.token (write.mutation state.topology.epoch) entries ∧
      ∀ key, prepared.streamHead key =
        if key ∈ entries.map (·.ownerStream) then state.streamHead key + 1 else state.streamHead key := by
  unfold prepareReplicationEntries at fanned
  simp only at fanned
  split at fanned
  · exact absurd fanned (by simp)
  · rw [Option.some.injEq, Prod.ext_iff] at fanned
    obtain ⟨rfl, rfl⟩ := fanned
    have distinct := replication_followers_distinct state.topology write.token
    obtain ⟨numbered, heads⟩ := prepare_followers_spec (write.mutation state.topology.epoch)
      write.ackAwaitedFollowers (replicationFollowers state.topology write.token) distinct state
    -- One stream for each follower of the token, none twice.
    have streams : (prepareFollowers (write.mutation state.topology.epoch) write.ackAwaitedFollowers state
        (replicationFollowers state.topology write.token)).2.map (·.ownerStream) =
          ((replicationFollowers state.topology write.token).map Prod.fst).map
              (StreamKey.mk state.topology.epoch) := by
      rw [numbered]
      simp [Function.comp_def, numberedFor, PreparedReplication.ownerStream, ReplicationWrite.mutation]
    constructor
    · constructor
      · rw [streams]
        exact distinct.map fun _ _ same => (StreamKey.mk.injEq .. ▸ same).2
      · intro entry member
        rw [numbered] at member
        obtain ⟨_, _, rfl⟩ := List.mem_map.mp member
        rfl
      · intro entry member
        rw [numbered] at member
        obtain ⟨_, _, rfl⟩ := List.mem_map.mp member
        rfl
      · intro entry member
        rw [numbered] at member
        obtain ⟨follower, listed, rfl⟩ := List.mem_map.mp member
        exact replication_followers_placed state.topology write.token follower listed
    · intro key
      rw [heads key, streams]
      obtain ⟨epoch, nodeId⟩ := key
      have listed : (⟨epoch, nodeId⟩ : StreamKey) ∈ ((replicationFollowers state.topology write.token).map
          Prod.fst).map (StreamKey.mk state.topology.epoch) ↔
          epoch = state.topology.epoch ∧
              nodeId ∈ (replicationFollowers state.topology write.token).map Prod.fst := by
        constructor
        · intro member
          obtain ⟨name, here, same⟩ := List.mem_map.mp member
          obtain ⟨rfl, rfl⟩ := StreamKey.mk.injEq .. ▸ same
          exact ⟨rfl, here⟩
        · rintro ⟨rfl, here⟩
          exact List.mem_map_of_mem here
      simp only [listed]

theorem rollback_restores (state prepared : NodeState) (write : ReplicationWrite)
    (entries : List PreparedReplication)
    (fanned : prepareReplicationEntries state write = some (prepared, entries)) (key : StreamKey) :
    (rollbackReplicationSequences prepared entries).streamHead key = state.streamHead key := by
  obtain ⟨fan, heads⟩ := prepare_fans_out state prepared write entries fanned
  rw [rollback_head entries fan.streams prepared key, heads key]
  by_cases listed : key ∈ entries.map (·.ownerStream)
  · simp only [listed, ↓reduceIte]
    omega
  · simp only [listed, ↓reduceIte]

theorem prepare_followers_no_zero (mutation : ReplicationMutation) (awaited : List String)
    (followers : List (String × String)) (state : NodeState) (key : StreamKey)
    (zero : (prepareFollowers mutation awaited state followers).1.ownerStreamSequences.lookup key =
      some 0) :
    state.ownerStreamSequences.lookup key = some 0 := by
  induction followers generalizing state with
  | nil => exact zero
  | cons follower rest ih =>
      have earlier := ih _ zero
      simp only [FiniteMap.lookup_insert_if] at earlier
      split at earlier
      · exact absurd earlier (by simp)
      · exact earlier

theorem rollback_sequences_no_zero (entries : List PreparedReplication) (state : NodeState)
    (key : StreamKey)
    (zero : (rollbackReplicationSequences state entries).ownerStreamSequences.lookup key = some 0) :
    state.ownerStreamSequences.lookup key = some 0 := by
  unfold rollbackReplicationSequences at zero
  induction entries generalizing state with
  | nil => exact zero
  | cons entry rest ih =>
      rw [List.foldl_cons] at zero
      have earlier := ih _ zero
      simp only at earlier
      split at earlier
      · rw [FiniteMap.lookup_erase_if] at earlier
        split at earlier
        · exact absurd earlier (by simp)
        · exact earlier
      · rename_i positive
        rw [FiniteMap.lookup_insert_if] at earlier
        split at earlier
        · exact absurd (Option.some.inj earlier) positive
        · exact earlier

/-- A stream whose sequence fell back to nothing has no entry, as before its
first mutation. -/
theorem rollback_no_zero (state prepared : NodeState) (write : ReplicationWrite)
    (entries : List PreparedReplication)
    (fanned : prepareReplicationEntries state write = some (prepared, entries)) (key : StreamKey)
    (zero : (rollbackReplicationSequences prepared entries).ownerStreamSequences.lookup key = some 0) :
    state.ownerStreamSequences.lookup key = some 0 := by
  have earlier := rollback_sequences_no_zero entries prepared key zero
  unfold prepareReplicationEntries at fanned
  simp only at fanned
  split at fanned
  · exact absurd fanned (by simp)
  · rw [show prepared = _ from (congrArg Prod.fst (Option.some.inj fanned)).symm] at earlier
    exact prepare_followers_no_zero _ _ _ state key earlier

/-- The fan-out opens acknowledgement channels at zero and moves none. -/
theorem prepare_followers_progress (mutation : ReplicationMutation) (awaited : List String)
    (followers : List (String × String)) (state : NodeState) (key : StreamKey) (progress : Nat)
    (shown : (prepareFollowers mutation awaited state followers).1.ackProgress.lookup key = some progress)
    (positive : 0 < progress) : state.ackProgress.lookup key = some progress := by
  induction followers generalizing state with
  | nil => exact shown
  | cons follower rest ih =>
      have earlier := ih _ shown
      simp only at earlier
      split at earlier
      · exact earlier
      · rw [FiniteMap.lookup_insert_if] at earlier
        split at earlier
        · have zero := Option.some.inj earlier
          omega
        · exact earlier

theorem prepare_keeps_progress (state prepared : NodeState) (write : ReplicationWrite)
    (entries : List PreparedReplication)
    (fanned : prepareReplicationEntries state write = some (prepared, entries)) (key : StreamKey)
    (progress : Nat) (shown : prepared.ackProgress.lookup key = some progress)
    (positive : 0 < progress) : state.ackProgress.lookup key = some progress := by
  unfold prepareReplicationEntries at fanned
  simp only at fanned
  split at fanned
  · exact absurd fanned (by simp)
  · rw [show prepared = _ from (congrArg Prod.fst (Option.some.inj fanned)).symm] at shown
    exact prepare_followers_progress _ _ _ state key progress shown positive

namespace ReplicationDispatcher

theorem reserve_streams_spec (capacity : Nat) (entries : List PreparedReplication)
    (dispatch : ReplicationDispatcher) :
    (reserveStreams capacity dispatch entries).1.failedStreams = dispatch.failedStreams ∧
      (∀ key, (reserveStreams capacity dispatch entries).1.taskAt key = dispatch.taskAt key) ∧
      (∀ key, key ∈ dispatch.streams → key ∈ (reserveStreams capacity dispatch entries).1.streams) ∧
      ((reserveStreams capacity dispatch entries).2 = true → ∀ entry ∈ entries,
        entry.streamKey ∈ (reserveStreams capacity dispatch entries).1.streams ∧
          entry.streamKey ∉ dispatch.failedStreams) := by
  induction entries generalizing dispatch with
  | nil => exact ⟨rfl, fun _ => rfl, fun _ member => member, fun _ _ member => absurd member (by simp)⟩
  | cons entry rest ih =>
      unfold reserveStreams
      split
      · exact ⟨rfl, fun _ => rfl, fun _ member => member, fun granted => absurd granted (by simp)⟩
      · rename_i healthy
        simp only
        have opened : ∀ key, taskAt { dispatch with
            streams := dispatch.streams.insert entry.streamKey
              ((dispatch.streams.lookup entry.streamKey).getD {}) }
              key = dispatch.taskAt key := by
          intro key
          simp only [taskAt, FiniteMap.lookup_insert_if]
          by_cases same : key = entry.streamKey
          · subst key
            simp
          · simp [same]
        split
        · refine ⟨rfl, opened, ?_, fun granted => absurd granted (by simp)⟩
          intro key member
          exact AList.mem_insert _ |>.mpr (Or.inr member)
        · obtain ⟨failed, tasks, kept, granted⟩ := ih
            { dispatch with
              streams := dispatch.streams.insert entry.streamKey
                ((dispatch.streams.lookup entry.streamKey).getD {}) }
          refine ⟨failed, fun key => (tasks key).trans (opened key), ?_, ?_⟩
          · intro key member
            exact kept key (AList.mem_insert _ |>.mpr (Or.inr member))
          · intro all other member
            rcases List.mem_cons.mp member with rfl | listed
            · exact ⟨kept _ (AList.mem_insert _ |>.mpr (Or.inl rfl)), healthy⟩
            · exact granted all other listed

theorem reserve_spec (config : NodeConfig) (entries : List PreparedReplication)
    (dispatch : ReplicationDispatcher) :
    (reserve config dispatch entries).1.failedStreams = dispatch.failedStreams ∧
      (∀ key, (reserve config dispatch entries).1.taskAt key = dispatch.taskAt key) ∧
      ((reserve config dispatch entries).2 = true → ∀ entry ∈ entries,
        entry.streamKey ∈ (reserve config dispatch entries).1.streams ∧
          entry.streamKey ∉ dispatch.failedStreams) := by
  unfold reserve
  simp only
  split
  · obtain ⟨failed, tasks, _, granted⟩ :=
      reserve_streams_spec config.replicationStreamQueueCapacity entries dispatch
    exact ⟨failed, tasks, granted⟩
  · exact ⟨rfl, fun _ => rfl, fun granted => absurd granted (by simp)⟩

theorem enqueue_spec (entries : List PreparedReplication) (dispatch : ReplicationDispatcher)
    (opened : ∀ entry ∈ entries, entry.streamKey ∈ dispatch.streams) :
    (enqueue dispatch entries).failedStreams = dispatch.failedStreams ∧
      ∀ key, (enqueue dispatch entries).taskAt key =
        { dispatch.taskAt key with
          queue := (dispatch.taskAt key).queue ++ entries.filter fun entry => entry.streamKey =
            key } := by
  unfold enqueue
  induction entries generalizing dispatch with
  | nil => exact ⟨rfl, fun _ => by simp⟩
  | cons entry rest ih =>
      rw [List.foldl_cons]
      have present := opened entry List.mem_cons_self
      obtain ⟨task, found⟩ := (FiniteMap.mem_iff_lookup _ _).mp present
      obtain ⟨failed, tasks⟩ := ih
        { dispatch with
          streams := dispatch.streams.modify entry.streamKey fun task =>
            { task with queue := task.queue ++ [entry] } }
        (by
          intro other member
          obtain ⟨held, stored⟩ :=
            (FiniteMap.mem_iff_lookup _ _).mp (opened other (List.mem_cons_of_mem _ member))
          rw [FiniteMap.mem_iff_lookup]
          exact ⟨_, by rw [FiniteMap.lookup_modify, stored]; rfl⟩)
      refine ⟨failed, ?_⟩
      intro key
      rw [tasks key]
      by_cases same : key = entry.streamKey
      · subst key
        simp [taskAt, found]
      · have different : ¬entry.streamKey = key := fun equal => same equal.symm
        have untouched : taskAt { dispatch with
            streams := dispatch.streams.modify entry.streamKey fun task =>
              { task with queue := task.queue ++ [entry] } } key = dispatch.taskAt key := by
          simp only [taskAt, FiniteMap.lookup_modify, same, ↓reduceIte]
          simp
        simp [untouched, different]

end ReplicationDispatcher
end Hashring
