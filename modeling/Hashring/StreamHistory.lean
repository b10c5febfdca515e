import Hashring.StreamSender
import Hashring.Transition
import Mathlib.Data.List.TakeWhile

/-! One replication stream on its own: entries arrive at any time, the channel may be
closed, and the follower answers requests in full, in part or not at all. The history
of the stream says which entries were queued and in which requests they were sent. -/
namespace Hashring

/-- A request, with the place of its first entry among all the entries queued. -/
structure SentBatch where
  first : Nat
  entries : List PreparedReplication

namespace SentBatch

def stop (batch : SentBatch) : Nat := batch.first + batch.entries.length

/-- The next request begins where this one ends, or is what is left of this one. -/
def Continues (earlier later : SentBatch) : Prop :=
  later.first = earlier.stop ∨ (earlier.first ≤ later.first ∧ later.stop = earlier.stop)

def countedOnce : Nat → List SentBatch → List PreparedReplication
  | _, [] => []
  | covered, batch :: rest => batch.entries.drop (covered - batch.first) ++ countedOnce batch.stop rest

theorem counted_once_append (covered : Nat) (sent : List SentBatch) (batch : SentBatch) :
    countedOnce covered (sent ++ [batch]) =
      countedOnce covered sent ++
        batch.entries.drop ((sent.getLast?.map stop).getD covered - batch.first) := by
  induction sent generalizing covered with
  | nil => simp [countedOnce]
  | cons head rest ih =>
      simp only [List.cons_append, countedOnce, ih, List.append_assoc]
      cases last : rest.getLast? with
      | none =>
          rw [List.getLast?_eq_none_iff.mp last]
          rfl
      | some final => simp [List.getLast?_cons, last]

end SentBatch

def StreamTask.pendingBytes (task : StreamTask) : Nat :=
  (task.undelivered.map fun entry => replicationMutationBytes entry.mutation).sum

structure StreamHistory where
  task : StreamTask := {}
  /-- Whether the sender of the channel is still there. -/
  open_ : Bool := true
  queued : List PreparedReplication := []
  acked : Nat := 0
  sent : List SentBatch := []
  /-- Whether a request is out. -/
  awaiting : Bool := false
  unacked : List (Nat × Nat) := []
  replies : List Nat := []

inductive StreamEvent where
  | queue (entry : PreparedReplication) (unixMillis : Nat)
  | close
  | collect
  | send
  | answered (response : ReplicateMutationsResponse)
  | retried

namespace StreamHistory

/-- Where the last request ends. -/
def covered (history : StreamHistory) : Nat := (history.sent.getLast?.map SentBatch.stop).getD 0

def next (history : StreamHistory) : StreamEvent → StreamHistory
  | .queue entry unixMillis =>
      { history with
        task := { history.task with queue := history.task.queue ++ [entry] }
        queued := history.queued ++ [entry]
        unacked := history.unacked ++ [(entry.streamSequence, unixMillis)] }
  | .close => { history with open_ := false }
  | .collect => { history with task := history.task.collect }
  | .send =>
      { history with
        task := { history.task with collected := true }
        sent := history.sent ++ [⟨history.acked, history.task.batch⟩]
        awaiting := true }
  | .answered response =>
      let task := history.task.retain response.appliedStreamSequence
      { history with
        task
        acked := history.acked + (history.task.batch.length - task.batch.length)
        awaiting := false
        unacked := history.unacked.dropWhile fun entry =>
          decide (entry.1 ≤ response.appliedStreamSequence)
        replies := history.replies ++ [response.appliedStreamSequence] }
  | .retried => { history with awaiting := false }

variable (key : ReplicationStreamKey) (capacity : Nat)

/-- What the owner's write checked before it queued the entry: the entry has the next
number of its stream, and its bytes fit in what is left of the retained budget. -/
structure Admits (history : StreamHistory) (entry : PreparedReplication) : Prop where
  accepting : history.open_ = true
  stream : entry.streamKey = key
  number : entry.streamSequence = history.queued.length + 1
  later : ∀ earlier ∈ history.queued, earlier.mutation.version.ownerSequence <
    entry.mutation.version.ownerSequence
  small : replicationMutationBytes entry.mutation < 2 ^ 32
  budget : history.task.pendingBytes + replicationMutationBytes entry.mutation ≤ capacity

/-- The task sends one request at a time and takes an answer only to that one. -/
def Enabled (history : StreamHistory) : StreamEvent → Prop
  | .queue entry _ => history.Admits key capacity entry
  | .send => history.task.batch ≠ [] ∧ history.awaiting = false
  | .answered response => history.awaiting = true ∧ response.processInstanceId.isEmpty = false ∧
      ∃ first ∈ history.task.batch.head?, first.streamSequence ≤ response.appliedStreamSequence
  | .retried => history.awaiting = true
  | .close | .collect => True

def Step (before : StreamHistory) (event : StreamEvent) (after : StreamHistory) : Prop :=
  before.Enabled key capacity event ∧ after = before.next event

/-- A request holds the entries at its place: at least one, at most as many as a batch
may have, within the bytes of a batch unless it is one entry alone, and never more than
the budget of all active requests. -/
structure WellCut (queued : List PreparedReplication) (batch : SentBatch) : Prop where
  entries : batch.entries = (queued.drop batch.first).take batch.entries.length
  filled : 1 ≤ batch.entries.length
  count : batch.entries.length ≤ replicationBatchMaxEntries
  bytes : batch.entries.length = 1 ∨
    (batch.entries.map fun entry => replicationMutationBytes entry.mutation).sum ≤
      replicationBatchMaxBytes
  budget : (batch.entries.map fun entry => replicationMutationBytes entry.mutation).sum ≤ capacity
  -- The number of permits to acquire is computed as a `u32`.
  word : (batch.entries.map fun entry => replicationMutationBytes entry.mutation).sum < 2 ^ 32

structure Exact (history : StreamHistory) : Prop where
  running : history.task.closed = false
  ordered : history.task.Ordered
  within : history.acked ≤ history.queued.length
  pending : history.queued.drop history.acked = history.task.undelivered
  numbered : ∀ offset entry, history.queued[offset]? = some entry → entry.streamSequence = offset + 1
  streams : ∀ entry ∈ history.queued, entry.streamKey = key
  rising : history.queued.Pairwise fun earlier later =>
    earlier.mutation.version.ownerSequence < later.mutation.version.ownerSequence
  small : ∀ entry ∈ history.queued, replicationMutationBytes entry.mutation < 2 ^ 32
  limited : history.task.batch.length ≤ 1 ∨ history.task.batchBytes ≤ replicationBatchMaxBytes
  budgeted : history.task.pendingBytes ≤ capacity
  requests : ∀ batch ∈ history.sent, WellCut capacity history.queued batch
  seams : history.sent.IsChain SentBatch.Continues
  counted : SentBatch.countedOnce 0 history.sent = history.queued.take history.covered
  place : (history.covered = history.acked ∧ history.awaiting = false) ∨
    (history.covered = history.acked + history.task.batch.length ∧
    history.task.collected = true ∧ history.task.batch ≠ [])
  started : ∀ batch ∈ history.sent.head?, batch.first = 0
  behind : ∀ batch ∈ history.sent.getLast?, batch.first ≤ history.acked
  acks : ∀ entry ∈ history.queued, (∃ unixMillis, (entry.streamSequence, unixMillis) ∈ history.unacked) ∨
    ∃ applied ∈ history.replies, entry.streamSequence ≤ applied

variable {key capacity} {history : StreamHistory}

theorem WellCut.grow {queued : List PreparedReplication} {batch : SentBatch}
    (cut : WellCut capacity queued batch)
    (more : List PreparedReplication) : WellCut capacity (queued ++ more) batch := by
  refine ⟨?_, cut.filled, cut.count, cut.bytes, cut.budget, cut.word⟩
  have length := congrArg List.length cut.entries
  have filled := cut.filled
  rw [List.length_take, List.length_drop] at length
  rw [List.drop_append_of_le_length (by omega), List.take_append_of_le_length]
  · exact cut.entries
  · rw [List.length_drop]
    omega

theorem sum_drop_le {weight : PreparedReplication → Nat} (entries : List PreparedReplication)
    (count : Nat) :
    ((entries.drop count).map weight).sum ≤ (entries.map weight).sum := by
  rw [List.map_drop, ← List.take_append_drop count (entries.map weight), List.sum_append,
    List.take_append_drop]
  omega

namespace Exact

theorem batch_length (exact_ : history.Exact key capacity) :
    history.acked + history.task.batch.length ≤ history.queued.length := by
  have length := congrArg List.length exact_.pending
  have within := exact_.within
  simp only [StreamTask.undelivered, List.length_drop, List.length_append] at length
  omega

theorem covered_le (exact_ : history.Exact key capacity) : history.covered ≤ history.queued.length := by
  have batch := exact_.batch_length
  rcases exact_.place with ⟨here, _⟩ | ⟨ahead, _⟩ <;> omega

theorem batch_cut (exact_ : history.Exact key capacity) :
    history.task.batch = (history.queued.drop history.acked).take history.task.batch.length := by
  rw [exact_.pending, StreamTask.undelivered, List.append_assoc, List.take_left]

theorem batch_numbered (exact_ : history.Exact key capacity) (offset : Nat) (entry : PreparedReplication)
    (found : history.task.batch[offset]? = some entry) :
    entry.streamSequence = history.acked + offset + 1 := by
  have inside := (List.getElem?_eq_some_iff.mp found).1
  rw [exact_.batch_cut, List.getElem?_take_of_lt inside, List.getElem?_drop] at found
  exact exact_.numbered _ entry found

theorem queue (exact_ : history.Exact key capacity) (entry : PreparedReplication) (unixMillis : Nat)
    (admits : history.Admits key capacity entry) : (history.next (.queue entry unixMillis)).Exact
      key capacity := by
  have covered := exact_.covered_le
  -- An arrival touches the end of the queue only: batches, replies and acks stand as they are.
  refine
    { running := exact_.running
      ordered := ⟨exact_.ordered.carried, exact_.ordered.limited⟩
      within := ?_
      pending := ?_
      numbered := ?_
      streams := ?_
      rising := ?_
      small := ?_
      limited := exact_.limited
      budgeted := ?_
      requests := fun batch listed => (exact_.requests batch listed).grow _
      seams := exact_.seams
      counted := ?_
      place := exact_.place
      started := exact_.started
      behind := exact_.behind
      acks := ?_ }
  · exact exact_.within.trans (by simp [next])
  · simp only [next, StreamTask.undelivered]
    rw [List.drop_append_of_le_length exact_.within, exact_.pending, StreamTask.undelivered,
      List.append_assoc]
  · intro offset other found
    simp only [next] at found
    -- The entry behind the last one bears the next number.
    by_cases early : offset < history.queued.length
    · rw [List.getElem?_append_left early] at found
      exact exact_.numbered offset other found
    · rw [List.getElem?_append_right (not_lt.mp early), List.getElem?_singleton] at found
      split at found
      · rw [← Option.some.inj found, admits.number]
        omega
      · exact absurd found (by simp)
  · exact List.forall_mem_append.mpr ⟨exact_.streams, by simpa using admits.stream⟩
  · refine List.pairwise_append.mpr ⟨exact_.rising, List.pairwise_singleton .., ?_⟩
    intro earlier listed other last
    rw [List.mem_singleton.mp last]
    exact admits.later earlier listed
  · exact List.forall_mem_append.mpr ⟨exact_.small, by simpa using admits.small⟩
  · have total : StreamTask.pendingBytes { history.task with queue := history.task.queue ++ [entry] } =
        history.task.pendingBytes + replicationMutationBytes entry.mutation := by
      simp only [StreamTask.pendingBytes, StreamTask.undelivered, List.map_append, List.sum_append,
        List.map_cons, List.map_nil, List.sum_cons, List.sum_nil]
      omega
    exact total.trans_le admits.budget
  · exact exact_.counted.trans (List.take_append_of_le_length covered).symm
  · intro other listed
    rcases List.mem_append.mp listed with early | last
    · rcases exact_.acks other early with ⟨since, waits⟩ | replied
      · exact .inl ⟨since, List.mem_append_left _ waits⟩
      · exact .inr replied
    · rw [List.mem_singleton.mp last]
      exact .inl ⟨unixMillis, List.mem_append_right _ List.mem_cons_self⟩

/-- What `collect_replication_batch` adds stays within the bytes of a batch. -/
theorem collect_limited (task : StreamTask)
    (limited : task.batch.length ≤ 1 ∨ task.batchBytes ≤ replicationBatchMaxBytes) :
    task.collect.batch.length ≤ 1 ∨ task.collect.batchBytes ≤ replicationBatchMaxBytes := by
  unfold StreamTask.collect
  split
  · exact limited
  · split
    · split
      · exact .inl (by simp)
      · exact .inl (by simp)
      · exact limited
    · split
      · exact limited
      · split
        · exact limited
        · rename_i entry rest queue
          split
          · exact limited
          · rename_i fits
            right
            simp only [StreamTask.batchBytes, List.map_append, List.map_cons, List.map_nil,
              List.sum_append, List.sum_cons,
              List.sum_nil] at fits ⊢
            omega

theorem collect (exact_ : history.Exact key capacity) : (history.next .collect).Exact key capacity := by
  obtain ⟨ordered, undelivered, closed, _⟩ := StreamTask.collect_spec history.task exact_.ordered
  refine
    { exact_ with
      running := closed.trans exact_.running
      ordered := ordered
      pending := exact_.pending.trans undelivered.symm
      limited := collect_limited history.task exact_.limited
      budgeted := ?_
      place := ?_ }
  · have same : history.task.collect.pendingBytes = history.task.pendingBytes := by
      rw [StreamTask.pendingBytes, undelivered, StreamTask.pendingBytes]
    exact same.trans_le exact_.budgeted
  · rcases exact_.place with here | ⟨ahead, done, some_⟩
    · exact .inl here
    · -- A batch that was sent is not added to.
      have same : history.task.collect = history.task := by
        unfold StreamTask.collect
        rw [if_pos (.inr done)]
      simp only [next, same]
      exact .inr ⟨ahead, done, some_⟩

theorem batch_budget (exact_ : history.Exact key capacity) : history.task.batchBytes ≤ capacity := by
  refine le_trans ?_ exact_.budgeted
  simp only [StreamTask.batchBytes, StreamTask.pendingBytes, StreamTask.undelivered,
    List.map_append, List.sum_append]
  omega

/-- The permits to acquire are computed without overflow. -/
theorem batch_word (exact_ : history.Exact key capacity) (some_ : history.task.batch ≠ []) :
    history.task.batchBytes < 2 ^ 32 := by
  rcases exact_.limited with single | fits
  · obtain ⟨entry, alone⟩ :=
      List.length_eq_one_iff.mp (le_antisymm single (List.length_pos_iff.mpr some_))
    have member : entry ∈ history.queued := by
      have listed : entry ∈ history.task.batch := by simp [alone]
      rw [exact_.batch_cut] at listed
      exact List.mem_of_mem_drop (List.mem_of_mem_take listed)
    simpa [StreamTask.batchBytes, alone] using exact_.small entry member
  · exact lt_of_le_of_lt fits (by decide)

theorem send (exact_ : history.Exact key capacity) (some_ : history.task.batch ≠ []) :
    (history.next .send).Exact key capacity := by
  have length := List.length_pos_iff.mpr some_
  have covered : (history.next .send).covered = history.acked + history.task.batch.length := by
    simp [next, StreamHistory.covered, SentBatch.stop]
  refine
    { exact_ with
      ordered := ⟨fun _ => .inr rfl, exact_.ordered.limited⟩
      requests := ?_
      seams := ?_
      counted := ?_
      place := .inr ⟨covered, rfl, some_⟩
      started := ?_
      behind := ?_ }
  · refine List.forall_mem_append.mpr ⟨exact_.requests, ?_⟩
    intro batch listed
    rw [List.mem_singleton.mp listed]
    refine ⟨exact_.batch_cut, length, exact_.ordered.limited, ?_, exact_.batch_budget,
      exact_.batch_word some_⟩
    exact exact_.limited.imp_left fun single => le_antisymm single length
  · -- The batch goes on from the one before it or repeats what that one left.
    refine List.IsChain.append exact_.seams (List.isChain_singleton _) ?_
    intro earlier last later here
    obtain rfl := Option.some.inj here
    have stop : history.covered = earlier.stop := by
      rw [StreamHistory.covered, Option.mem_def.mp last]
      rfl
    rcases exact_.place with ⟨fresh, _⟩ | ⟨again, _⟩
    · exact .inl (fresh.symm.trans stop)
    · exact .inr ⟨exact_.behind earlier last, again.symm.trans stop⟩
  · rw [covered]
    simp only [next]
    -- A repeated suffix counts for nothing.
    rw [SentBatch.counted_once_append, exact_.counted, ← StreamHistory.covered, List.take_add,
      ← exact_.batch_cut]
    rcases exact_.place with ⟨fresh, _⟩ | ⟨again, _⟩
    · rw [fresh, Nat.sub_self, List.drop_zero]
    · rw [again, Nat.add_sub_cancel_left, List.drop_length, List.append_nil, List.take_add,
        ← exact_.batch_cut]
  · intro batch first
    cases sent : history.sent with
    | nil =>
        simp only [next, sent, List.nil_append, List.head?_cons, Option.mem_some_iff] at first
        obtain rfl := first
        have none : history.covered = 0 := by simp [StreamHistory.covered, sent]
        rcases exact_.place with ⟨fresh, _⟩ | ⟨again, _⟩
        · exact fresh.symm.trans none
        · simp only at again ⊢
          omega
    | cons earlier rest =>
        simp only [next, sent, List.cons_append, List.head?_cons, Option.mem_some_iff] at first
        exact exact_.started batch (by simp [sent, first])
  · intro batch last
    simp only [next, List.getLast?_concat, Option.mem_some_iff] at last
    rw [← last]
    exact le_refl _

theorem answered (exact_ : history.Exact key capacity) (awaiting : history.awaiting = true)
    (response : ReplicateMutationsResponse) :
    (history.next (.answered response)).Exact key capacity := by
  obtain ⟨ahead, _, some_⟩ : history.covered = history.acked + history.task.batch.length ∧
    history.task.collected = true ∧
      history.task.batch ≠ [] := by
    refine exact_.place.resolve_left fun here => ?_
    exact absurd (awaiting.symm.trans here.2) (by simp)
  have batch := exact_.batch_length
  obtain ⟨ordered, undelivered, left⟩ :=
    StreamTask.retain_spec history.task history.acked response.appliedStreamSequence
    exact_.ordered exact_.batch_numbered
  have kept := StreamTask.retain_batch history.task history.acked response.appliedStreamSequence
      exact_.batch_numbered
  -- The batch begins after the last acknowledged entry, so what the answer takes off it
  -- is counted from there.
  have moved : history.task.batch.length -
      (history.task.retain response.appliedStreamSequence).batch.length =
      min (response.appliedStreamSequence - history.acked) history.task.batch.length := by
    rw [left]
    omega
  have stop : (history.next (.answered response)).covered = history.covered := rfl
  refine
    { exact_ with
      ordered := ordered
      within := ?_
      pending := ?_
      limited := ?_
      budgeted := ?_
      place := ?_
      behind := ?_
      acks := ?_ }
  · simp only [next]
    omega
  · simp only [next, moved]
    rw [← List.drop_drop, exact_.pending, undelivered]
  · simp only [next]
    rw [StreamTask.batchBytes, kept]
    rcases exact_.limited with single | fits
    · left
      rw [List.length_drop]
      omega
    · right
      exact le_trans (sum_drop_le _ _) fits
  · simp only [next]
    rw [StreamTask.pendingBytes, undelivered]
    exact le_trans (sum_drop_le _ _) exact_.budgeted
  · rw [stop]
    by_cases done : (history.task.retain response.appliedStreamSequence).batch = []
    · left
      simp only [next, done, List.length_nil]
      exact ⟨ahead, trivial⟩
    · right
      refine ⟨?_, ?_, done⟩
      · simp only [next]
        omega
      · simp only [StreamTask.retain] at done ⊢
        simp only [next, StreamTask.retain, done, ne_eq, not_false_eq_true, decide_true]
  · intro last found
    exact le_add_right (exact_.behind last found)
  · intro entry listed
    rcases exact_.acks entry listed with ⟨since, waits⟩ | ⟨applied, replied, covers⟩
    · rw [← List.takeWhile_append_dropWhile
        (p := fun entry => decide (entry.1 ≤ response.appliedStreamSequence))
        (l := history.unacked)] at waits
      rcases List.mem_append.mp waits with dropped | stays
      · have past := List.mem_takeWhile_imp dropped
        exact .inr ⟨_, List.mem_append_right _ List.mem_cons_self, of_decide_eq_true past⟩
      · exact .inl ⟨since, stays⟩
    · exact .inr ⟨applied, List.mem_append_left _ replied, covers⟩

theorem retried (exact_ : history.Exact key capacity) : (history.next .retried).Exact key capacity :=
  { exact_ with place := exact_.place.imp_left fun here => ⟨here.1, rfl⟩ }

end Exact

theorem Step.exact {before after : StreamHistory} {event : StreamEvent}
    (step : Step key capacity before event after)
    (exact_ : before.Exact key capacity) : after.Exact key capacity := by
  obtain ⟨enabled, rfl⟩ := step
  cases event with
  | queue entry unixMillis => exact exact_.queue entry unixMillis enabled
  | close => exact { exact_ with }
  | collect => exact exact_.collect
  | send => exact exact_.send enabled.1
  | answered response => exact exact_.answered enabled.1 response
  | retried => exact exact_.retried

theorem fresh (key : ReplicationStreamKey)
    (capacity : Nat) : ({} : StreamHistory).Exact key capacity where
  running := rfl
  ordered := ⟨fun present => absurd rfl present, Nat.zero_le _⟩
  within := Nat.zero_le _
  pending := rfl
  numbered := fun _ _ found => absurd found (by simp)
  streams := fun _ listed => absurd listed List.not_mem_nil
  rising := .nil
  small := fun _ listed => absurd listed List.not_mem_nil
  limited := .inl (Nat.zero_le _)
  budgeted := Nat.zero_le _
  requests := fun _ listed => absurd listed List.not_mem_nil
  seams := .nil
  counted := rfl
  place := .inl ⟨rfl, rfl⟩
  started := fun _ first => absurd first (by simp)
  behind := fun _ last => absurd last (by simp)
  acks := fun _ listed => absurd listed List.not_mem_nil

theorem run_exact {events : List StreamEvent} {history : StreamHistory}
    (run : Transition.Run (Step key capacity) {} events history) : history.Exact key capacity := by
  refine Transition.run_invariant (fun _ => True) (fun history => history.Exact key capacity) ?_ run
    (fun _ _ => trivial) ?_
  · exact fun before event after _ exact_ step => step.exact exact_
  · exact fresh key capacity

end StreamHistory

end Hashring
