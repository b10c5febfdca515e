import Hashring.Dispatch

/-! The delivery task of a replication stream
(crates/hashring-node/src/replication.rs). The task collects a batch, sends it,
and keeps sending what is left of it until the follower has applied it all; an
answer it can neither use nor retry ends the stream for the rest of the epoch. -/
namespace Hashring

def replicationBatchMaxEntries : Nat := 64
def replicationBatchMaxBytes : Nat := maxDataMessageBytes - 64 * 1024

def retryableReplicationStatus : Code → Bool
  | .aborted | .cancelled | .unknown | .deadlineExceeded | .resourceExhausted | .unavailable => true
  | _ => false

namespace StreamTask

def batchBytes (task : StreamTask) : Nat :=
  (task.batch.map fun entry => replicationMutationBytes entry.mutation).sum

/-- One entry received by `collect_replication_batch`, or by the task that calls
it with its first entry. How long the task lingers for another one is up to the
caller: collection ends with the next send. -/
def collect (task : StreamTask) : StreamTask :=
  if task.closed ∨ task.collected then task
  else if task.batch = [] then
    match task.carry, task.queue with
    | some first, _ => { task with batch := [first], carry := none }
    | none, first :: rest => { task with batch := [first], queue := rest }
    | none, [] => task
  else if replicationBatchMaxEntries ≤ task.batch.length then task
  else
    match task.queue with
    | [] => task
    | entry :: rest =>
        if replicationBatchMaxBytes < task.batchBytes + replicationMutationBytes entry.mutation then
          { task with queue := rest, carry := some entry, collected := true }
        else { task with queue := rest, batch := task.batch ++ [entry] }

/-- The batch after an answer that covers `applied`. -/
def retain (task : StreamTask) (applied : Nat) : StreamTask :=
  let batch :=
    if task.batch.getLast?.all fun last => decide (last.streamSequence ≤ applied) then []
    else task.batch.filter fun entry => applied < entry.streamSequence
  { task with batch, collected := batch ≠ [] }

end StreamTask

namespace NodeProcess

def setTask (process : NodeProcess) (key : ReplicationStreamKey) (task : StreamTask) : NodeProcess :=
  { process with
    dispatch := { process.dispatch with streams := process.dispatch.streams.insert key task } }

def collectBatch (process : NodeProcess) (key : ReplicationStreamKey) : NodeProcess :=
  process.setTask key (process.dispatch.taskAt key).collect

/-- The head of the delivery loop: the request it sends, or none when the epoch
of the batch is over. -/
def sendBatch (process : NodeProcess) (key : ReplicationStreamKey) :
    NodeProcess × Option (List ReplicationEntry) :=
  let task := process.dispatch.taskAt key
  match task.batch with
  | [] => (process, none)
  | first :: rest =>
      if process.state.topology.epoch ≠ first.mutation.topologyEpoch then
        (process.setTask key { closed := true }, none)
      else
        (process.setTask key { task with collected := true },
          some ((first :: rest).map PreparedReplication.toProto))

/-- The bookkeeping of a usable answer. -/
def recordAck (state : NodeState) (stream : StreamKey) (response : ReplicateMutationsResponse) :
    NodeState :=
  let instanceChanged := decide (state.ackProcessInstances.lookup stream ≠
      some response.processInstanceId)
  { state with
    ackProcessInstances := state.ackProcessInstances.insert stream response.processInstanceId
    ackProgress := state.ackProgress.modify stream fun sequence =>
      if instanceChanged ∨ sequence < response.appliedStreamSequence then response.appliedStreamSequence
      else sequence
    ownerStreamUnacked := state.ownerStreamUnacked.modify stream fun queue =>
      queue.dropWhile fun entry => decide (entry.1 ≤ response.appliedStreamSequence) }

def failStream (process : NodeProcess) (key : ReplicationStreamKey) : NodeProcess :=
  { process with
    dispatch :=
      { streams := process.dispatch.streams.insert key { closed := true }
        failedStreams := key :: process.dispatch.failedStreams } }

def receiveAnswer (process : NodeProcess) (key : ReplicationStreamKey)
    (answer : Except Status ReplicateMutationsResponse) : NodeProcess :=
  let task := process.dispatch.taskAt key
  match task.batch with
  | [] => process
  | first :: _ =>
      match answer with
      | .ok response =>
          if response.processInstanceId.isEmpty = false ∧ first.streamSequence ≤
            response.appliedStreamSequence then
            { process with state := recordAck process.state first.ownerStream response }.setTask key
              (task.retain response.appliedStreamSequence)
          else process.failStream key
      | .error status => if retryableReplicationStatus status.code then process
          else process.failStream key

theorem send_batch_state (process : NodeProcess) (key : ReplicationStreamKey) :
    (process.sendBatch key).1.state = process.state := by
  unfold sendBatch
  simp only
  split
  · rfl
  · split <;> rfl

/-- Only a usable report writes the state: the tables of acknowledgements. -/
theorem receive_answer_state (process : NodeProcess) (key : ReplicationStreamKey)
    (answer : Except Status ReplicateMutationsResponse) :
    (process.receiveAnswer key answer).state = process.state ∨
      ∃ stream response, answer = .ok response ∧
        (process.receiveAnswer key answer).state = recordAck process.state stream response := by
  unfold receiveAnswer
  simp only
  split
  · exact .inl rfl
  · cases answer with
    | ok response =>
        simp only
        split
        · exact .inr ⟨_, response, rfl, rfl⟩
        · exact .inl rfl
    | error status =>
        simp only
        split <;> exact .inl rfl

theorem task_at_set (process : NodeProcess) (key probe : ReplicationStreamKey) (task : StreamTask) :
    (process.setTask key task).dispatch.taskAt probe = if probe =
      key then task else process.dispatch.taskAt probe := by
  unfold setTask ReplicationDispatcher.taskAt
  rw [FiniteMap.lookup_insert_if]
  split <;> rfl

end NodeProcess

namespace StreamTask

/-- What the task still has to deliver, in the order it will. -/
def undelivered (task : StreamTask) : List PreparedReplication :=
  task.batch ++ task.carry.toList ++ task.queue

/-- The carried entry stands between a complete batch and the queue, and a batch
never exceeds the entry limit. -/
structure Ordered (task : StreamTask) : Prop where
  carried : task.carry ≠ none → task.batch = [] ∨ task.collected = true
  limited : task.batch.length ≤ replicationBatchMaxEntries

theorem collect_spec (task : StreamTask) (ordered : task.Ordered) :
    task.collect.Ordered ∧ task.collect.undelivered = task.undelivered ∧
      task.collect.closed = task.closed ∧
      task.batch.length ≤ task.collect.batch.length := by
  obtain ⟨carried, limited⟩ := ordered
  have same : task.Ordered ∧ task.undelivered = task.undelivered ∧ task.closed = task.closed ∧
      task.batch.length ≤ task.batch.length := ⟨⟨carried, limited⟩, rfl, rfl, le_refl _⟩
  unfold collect
  split
  · exact same
  · rename_i collecting
    have running : task.collected = false := by
      by_contra stopped
      exact collecting (Or.inr (by simpa using stopped))
    split
    · rename_i empty
      split
      · rename_i first queue carry
        refine ⟨⟨fun present => absurd rfl present, by simp [replicationBatchMaxEntries]⟩, ?_, rfl, ?_⟩
        · simp [undelivered, empty, carry]
        · simp [empty]
      · rename_i first rest carry queue
        refine ⟨⟨fun present => absurd carry present, by simp [replicationBatchMaxEntries]⟩, ?_, rfl, ?_⟩
        · simp [undelivered, empty, carry, queue]
        · simp [empty]
      · exact same
    · rename_i started
      -- A batch that was begun and not sent has left nothing behind.
      have none : task.carry = none := by
        by_contra present
        rcases carried present with idle | done
        · exact started idle
        · exact absurd (running.symm.trans done) (by simp)
      split
      · exact same
      · rename_i room
        split
        · exact same
        · rename_i entry rest queue
          split
          · refine ⟨⟨fun _ => Or.inr rfl, limited⟩, ?_, rfl, le_refl _⟩
            simp [undelivered, none, queue]
          · refine ⟨⟨fun present => absurd none present, ?_⟩, ?_, rfl, ?_⟩
            · simp only [List.length_append, List.length_singleton]
              omega
            · simp [undelivered, none, queue]
            · simp

theorem filter_numbered (entries : List PreparedReplication) (base applied : Nat)
    (numbered : ∀ (offset : Nat) (entry : PreparedReplication), entries[offset]? = some entry →
      entry.streamSequence = base + offset + 1) :
    entries.filter (fun entry => applied < entry.streamSequence) = entries.drop (applied - base) := by
  induction entries generalizing base with
  | nil => simp
  | cons first rest ih =>
      have head : first.streamSequence = base + 1 := numbered 0 first rfl
      have tail := ih (base + 1) (by
        intro offset entry found
        rw [numbered (offset + 1) entry found]
        omega)
      by_cases covered : base + 1 ≤ applied
      · obtain ⟨count, same⟩ : ∃ count, applied - base = count + 1 := ⟨applied - base - 1, by omega⟩
        have later : applied - (base + 1) = count := by omega
        have behind : ¬applied < first.streamSequence := by omega
        rw [same, List.drop_succ_cons, ← later, ← tail]
        simp only [List.filter_cons, behind, decide_false, Bool.false_eq_true, ↓reduceIte]
      · have ahead : applied < first.streamSequence := by omega
        have none : applied - base = 0 := by omega
        have restNone : applied - (base + 1) = 0 := by omega
        rw [restNone, List.drop_zero] at tail
        simp only [List.filter_cons, ahead, decide_true, ↓reduceIte, tail, none, List.drop_zero]

/-- A batch of consecutive entries loses exactly those the answer covers. -/
theorem retain_batch (task : StreamTask) (base applied : Nat)
    (numbered : ∀ (offset : Nat) (entry : PreparedReplication), task.batch[offset]? = some entry →
      entry.streamSequence = base + offset + 1) :
    (task.retain applied).batch = task.batch.drop (applied - base) := by
  unfold retain
  simp only
  split
  · rename_i covered
    cases last : task.batch.getLast? with
    | none =>
        rw [List.getLast?_eq_none_iff.mp last]
        simp
    | some entry =>
        rw [List.getLast?_eq_getElem?] at last
        have number := numbered _ entry last
        obtain ⟨inside, _⟩ := List.getElem?_eq_some_iff.mp last
        rw [List.getLast?_eq_getElem?, last] at covered
        simp only [Option.all_some, decide_eq_true_eq] at covered
        rw [List.drop_eq_nil_of_le]
        omega
  · exact filter_numbered task.batch base applied numbered

/-- What is left of a task after an answer that covers `applied`. -/
theorem retain_spec (task : StreamTask) (base applied : Nat) (ordered : task.Ordered)
    (numbered : ∀ (offset : Nat) (entry : PreparedReplication), task.batch[offset]? = some entry →
      entry.streamSequence = base + offset + 1) :
    (task.retain applied).Ordered ∧
      (task.retain applied).undelivered = task.undelivered.drop (min (applied - base) task.batch.length) ∧
      (task.retain applied).batch.length = task.batch.length - (applied - base) := by
  have kept := retain_batch task base applied numbered
  refine ⟨⟨?_, ?_⟩, ?_, ?_⟩
  · intro _
    by_cases empty : (task.retain applied).batch = []
    · exact Or.inl empty
    · right
      simp only [retain] at empty ⊢
      simp [empty]
  · rw [kept, List.length_drop]
    exact (Nat.sub_le _ _).trans ordered.limited
  · have rest : (task.retain applied).carry = task.carry ∧ (task.retain applied).queue =
        task.queue := ⟨rfl, rfl⟩
    simp only [undelivered, kept, rest, List.append_assoc]
    rcases le_total (applied - base) task.batch.length with short | long
    · rw [min_eq_left short, List.drop_append_of_le_length short]
    · rw [min_eq_right long, List.drop_eq_nil_of_le long, List.drop_left]
      rfl
  · rw [kept, List.length_drop]

end StreamTask
end Hashring
