import Hashring.WriteSections

/-! `NodeSettings` and its validation (crates/hashring-node/src/lib.rs), and which
writes the budgets of accepted settings refuse. Validation compares the budgets
with the bare value; a write is charged its key, its mutation ID, the owner's name
and a fixed overhead as well. -/
namespace Hashring

/-- `tokio::sync::Semaphore::MAX_PERMITS` on a 64-bit machine. -/
def semaphoreMaxPermits : Nat := 2 ^ 61 - 1

/-- Durations in nanoseconds. -/
structure NodeSettings where
  maxDedupBytes : Nat := 128 * 1024 * 1024
  maxValueBytes : Nat := 8 * 1024 * 1024
  maxPendingReplicationBytes : Nat := 64 * 1024 * 1024
  maxMigrationJournalBytes : Nat := 16 * 1024 * 1024
  replicationStreamQueueCapacity : Nat := 32
  requiredAckTimeout : Nat := 2 * 1000 * nanosPerMilli
  replicationRpcTimeout : Nat := 2 * 1000 * nanosPerMilli
  replicationBatchLinger : Nat := 2 * nanosPerMilli

def ensure (condition : Bool) (message : String) : Except String Unit :=
  if condition then .ok () else .error message

namespace NodeSettings

def validate (settings : NodeSettings) : Except String Unit := do
  ensure (0 < settings.maxDedupBytes) "max_dedup_bytes must be positive"
  ensure (0 < settings.maxValueBytes && settings.maxValueBytes ≤ maxValueBytesCeiling)
    s!"max_value_bytes must be positive and at most {maxValueBytesCeiling}"
  ensure (0 < settings.maxPendingReplicationBytes && settings.maxPendingReplicationBytes ≤
    semaphoreMaxPermits)
    s!"max_pending_replication_bytes must be positive and at most {semaphoreMaxPermits}"
  ensure (settings.maxValueBytes ≤ settings.maxPendingReplicationBytes)
    (s!"max_pending_replication_bytes ({settings.maxPendingReplicationBytes}) must be at least max_value_bytes " ++
      s!"({settings.maxValueBytes}), or a value that size never fits a replication batch")
  ensure (0 < settings.maxMigrationJournalBytes) "max_migration_journal_bytes must be positive"
  ensure (settings.maxValueBytes ≤ settings.maxMigrationJournalBytes)
    (s!"max_migration_journal_bytes ({settings.maxMigrationJournalBytes}) must be at least max_value_bytes " ++
      s!"({settings.maxValueBytes}), or a value that size is rejected while a range is moving")
  ensure (0 < settings.replicationStreamQueueCapacity)
    "replication_stream_queue_capacity must be positive"
  ensure (settings.requiredAckTimeout ≠ 0 && settings.replicationRpcTimeout ≠ 0)
    "timeouts must be positive"

/-- What `connect` hands to the service. -/
def config (settings : NodeSettings) (nodeId processInstanceId : String) : NodeConfig where
  nodeId
  processInstanceId
  maxKeyBytes := defaultMaxKeyBytes
  maxValueBytes := settings.maxValueBytes
  maxJournalBytes := settings.maxMigrationJournalBytes
  maxDedupBytes := settings.maxDedupBytes
  maxPendingReplicationBytes := settings.maxPendingReplicationBytes
  replicationStreamQueueCapacity := settings.replicationStreamQueueCapacity

structure Accepted (settings : NodeSettings) : Prop where
  dedup : 0 < settings.maxDedupBytes
  value : 0 < settings.maxValueBytes ∧ settings.maxValueBytes ≤ maxValueBytesCeiling
  pending : settings.maxValueBytes ≤ settings.maxPendingReplicationBytes
  journal : settings.maxValueBytes ≤ settings.maxMigrationJournalBytes
  capacity : 0 < settings.replicationStreamQueueCapacity

theorem ensure_bind {condition : Bool} {message : String} {next : Unit → Except String Unit}
    (passed : (ensure condition message >>= next) = .ok ()) : condition = true ∧ next () = .ok () := by
  cases condition with
  | false => exact absurd passed (by simp [ensure, bind, Except.bind])
  | true => exact ⟨rfl, passed⟩

theorem validate_accepted {settings : NodeSettings} (valid : settings.validate = .ok ()) :
    settings.Accepted := by
  unfold validate at valid
  obtain ⟨dedup, valid⟩ := ensure_bind valid
  obtain ⟨value, valid⟩ := ensure_bind valid
  obtain ⟨_, valid⟩ := ensure_bind valid
  obtain ⟨pending, valid⟩ := ensure_bind valid
  obtain ⟨_, valid⟩ := ensure_bind valid
  obtain ⟨journal, valid⟩ := ensure_bind valid
  obtain ⟨capacity, _⟩ := ensure_bind valid
  rw [Bool.and_eq_true] at value
  exact ⟨of_decide_eq_true dedup, ⟨of_decide_eq_true value.1, of_decide_eq_true value.2⟩,
    of_decide_eq_true pending,
    of_decide_eq_true journal, of_decide_eq_true capacity⟩

end NodeSettings

def journalBudgetError (epoch : Nat) : OperationError :=
  { operationError .resourceExhausted "node migration journal budget is full; retry with backoff" true with
    currentEpoch := epoch }

def BudgetRefused (epoch : Nat) (outcome : WriteOutcome) : Prop :=
  ∃ response, outcome = .respond response ∧
    (response.error = some (journalBudgetError epoch) ∨
      response.error = some (replicationBackpressureError epoch))

/-- Streams that are open and hold nothing. -/
structure ReplicationDispatcher.Idle (dispatch : ReplicationDispatcher) : Prop where
  streams : ∀ key task, dispatch.streams.lookup key = some task → task.pending = [] ∧ task.closed = false
  healthy : dispatch.failedStreams = []

structure NodeState.MovesOnly (state : NodeState) (key : RangeKey) (source : SourceMigration) : Prop where
  only : state.sources.entries = [⟨key, source⟩]
  journal : source.journal = []
  total : state.journalBytesTotal = 0

def putValue (state : NodeState) (request : PutRequest) (unixMillis : Nat) : Option Bytes :=
  if request.preserveValue then (liveRecord state request.key unixMillis).map
    (·.value) else some request.value

/-- Every check of a put before the budgets lets it pass. The receipts that expired
are gone when it is tested. -/
structure PutReaches (hashing : Hashing) (config : NodeConfig) (clock : Clock) (state : NodeState)
    (request : PutRequest)
    (ready : Readiness) (shape : MutationShape) (value : Bytes) : Prop where
  valid : validatePut config request = .ok shape
  owned : ownerError config state ready.token clock.now = .ok none
  epoch : state.topology.epoch = ready.epoch
  seed : state.topology.hashSeed = ready.tokenSeed
  fresh : (purgeExpiredDedup hashing state clock.now).dedup.lookup request.requestId = none
  holds : shape.condition.holds (liveRecord state request.key clock.unixMillis) = true
  room : request.key ∈ state.records ∨
    state.recordsByToken.lenAt (state.tokenOf hashing request.key) < maxKeysPerToken
  value : putValue state request clock.unixMillis = some value
  receipts : (purgeExpiredDedup hashing state clock.now).dedupBytes +
    (dedupRetainedBytes request.requestId
    request.key.length config.nodeId.utf8ByteSize + requiredAckRetainedBytes ready.followers) ≤
      config.maxDedupBytes
  unfenced : writeFence state ready.token = none

/-- What a write is charged fits both budgets. -/
structure SizeFits (settings : NodeSettings) (nodeId : String) (request : PutRequest)
    (value : Bytes) (journaled : Bool) :
    Prop where
  replication : request.key.length + value.length + nodeId.utf8ByteSize +
    request.requestId.utf8ByteSize + 256 ≤
    settings.maxPendingReplicationBytes
  journal : journaled = true →
    request.key.length + value.length + request.requestId.utf8ByteSize + 128 ≤
      settings.maxMigrationJournalBytes

section Reservations

theorem reserve_streams_idle {capacity : Nat} (positive : 0 < capacity)
    (entries : List PreparedReplication)
    {dispatch : ReplicationDispatcher}
    (idle : dispatch.Idle) : (dispatch.reserveStreams capacity entries).2 = true := by
  induction entries generalizing dispatch with
  | nil => rfl
  | cons entry rest ih =>
      have blank : ((dispatch.streams.lookup entry.streamKey).getD {}).pending = [] ∧
          ((dispatch.streams.lookup entry.streamKey).getD {}).closed = false := by
        cases found : dispatch.streams.lookup entry.streamKey with
        | none => exact ⟨rfl, rfl⟩
        | some task => exact idle.streams _ _ found
      have unqueued : ((dispatch.streams.lookup entry.streamKey).getD {}).queue = [] := by
        have parts := blank.1
        simp only [StreamTask.pending, List.append_eq_nil_iff] at parts
        exact parts.1.1
      unfold ReplicationDispatcher.reserveStreams
      rw [if_neg (by simp [idle.healthy])]
      simp only [blank.2, unqueued, List.length_nil, Bool.false_eq_true, false_or]
      rw [if_neg (by omega)]
      refine ih ⟨?_, idle.healthy⟩
      intro key task found
      rw [FiniteMap.lookup_insert_if] at found
      split at found
      · obtain rfl := Option.some.inj found
        exact blank
      · exact idle.streams key task found

theorem retained_idle {dispatch : ReplicationDispatcher} (idle : dispatch.Idle) :
    dispatch.retainedBytes = 0 := by
  have blank : dispatch.streams.values.flatMap StreamTask.pending = [] := by
    rw [List.flatMap_eq_nil_iff]
    intro task listed
    obtain ⟨key, found⟩ := (FiniteMap.mem_values_iff _ _).mp listed
    exact (idle.streams key task found).1
  simp [ReplicationDispatcher.retainedBytes, blank]

theorem reserve_idle {config : NodeConfig} (positive : 0 < config.replicationStreamQueueCapacity)
    {dispatch : ReplicationDispatcher} (idle : dispatch.Idle) {mutation : ReplicationMutation}
    {entries : List PreparedReplication} (mutations : ∀ entry ∈ entries, entry.mutation = mutation)
    (counted : replicationMutationBytes mutation < 2 ^ 32)
    (fits : replicationMutationBytes mutation ≤ config.maxPendingReplicationBytes) :
    (dispatch.reserve config entries).2 = true := by
  unfold ReplicationDispatcher.reserve
  simp only
  rw [if_pos]
  · exact reserve_streams_idle positive entries idle
  · cases entries with
    | nil => rfl
    | cons entry rest =>
        simp only [List.head?_cons, Option.all_some, retained_idle idle,
          mutations entry List.mem_cons_self, Nat.zero_add,
          Bool.and_eq_true, decide_eq_true_eq]
        exact ⟨counted, fits⟩

end Reservations

section Refusals

variable {hashing : Hashing} {config : NodeConfig} {clock : Clock} {process : NodeProcess}
  {ready : Readiness} {epoch : Nat}

theorem not_refused_of_code {response : WriteResponse} {error : OperationError}
    (answered : response.error = some error)
    (code : error.code ≠ .resourceExhausted ∨ error.retryable = false) :
    ¬BudgetRefused epoch (.respond response) := by
  rintro ⟨_, same, budget⟩
  obtain rfl := WriteOutcome.respond.inj same
  rw [answered] at budget
  rcases budget with full | full <;> obtain rfl := Option.some.inj full <;>
    exact absurd code (by simp [journalBudgetError, replicationBackpressureError, operationError])

theorem not_refused_of_none {response : WriteResponse} (answered : response.error = none) :
    ¬BudgetRefused epoch (.respond response) := by
  rintro ⟨_, same, budget⟩
  obtain rfl := WriteOutcome.respond.inj same
  rw [answered] at budget
  rcases budget with full | full <;> exact absurd full (by simp)

theorem not_refused_receipts (state : NodeState) (now : Instant) (current : Nat) :
    ¬BudgetRefused epoch (.respond
      { currentEpoch := current, error := some (ownerDedupFullError state now) }) := by
  rintro ⟨_, same, budget⟩
  obtain rfl := WriteOutcome.respond.inj same
  have messages : (ownerDedupFullError state now).message ≠ (journalBudgetError epoch).message ∧
      (ownerDedupFullError state now).message ≠ (replicationBackpressureError epoch).message := by
    simp only [ownerDedupFullError, journalBudgetError, replicationBackpressureError, operationError]
    decide
  rcases budget with full | full
  · exact messages.1 (congrArg OperationError.message (Option.some.inj full))
  · exact messages.2 (congrArg OperationError.message (Option.some.inj full))

theorem write_fence_code {state : NodeState} {token : Token} {error : OperationError}
    (fenced : writeFence state token = some error) : error.code = .rangeBusy := by
  unfold writeFence at fenced
  split at fenced
  · obtain rfl := Option.some.inj fenced
    rfl
  · split at fenced
    · obtain rfl := Option.some.inj fenced
      rfl
    · split at fenced
      · obtain rfl := Option.some.inj fenced
        rfl
      · exact absurd fenced (by simp)

theorem commit_plan_refused (hashing : Hashing) (config : NodeConfig) (clock : Clock)
    (process : NodeProcess) (ready : Readiness)
    (positive : 0 < config.replicationStreamQueueCapacity) (idle : process.dispatch.Idle)
    (plan : WritePlan)
    (counted : plan.key.length + plan.value.length + config.nodeId.utf8ByteSize +
      plan.requestId.utf8ByteSize + 256 < 2 ^ 32) :
    BudgetRefused process.state.topology.epoch (commitPlan hashing config clock process plan ready).2 ↔
      process.state.dedupBytes + receiptCost config plan ready.followers ≤ config.maxDedupBytes ∧
        writeFence process.state ready.token = none ∧
        ¬(plan.key.length + plan.value.length + config.nodeId.utf8ByteSize +
          plan.requestId.utf8ByteSize + 256 ≤
            config.maxPendingReplicationBytes ∧
          process.state.journalBytesTotal + journalGrowth process.state ready.token plan ≤
            config.maxJournalBytes) := by
  unfold commitPlan
  simp only
  split
  · rename_i full
    exact iff_of_false (not_refused_receipts _ _ _) fun passed => absurd passed.1 (not_le.mpr full)
  · rename_i receipts
    split
    · rename_i error fenced
      refine iff_of_false (not_refused_of_code rfl (.inl ?_)) fun passed =>
        absurd (fenced.symm.trans passed.2.1) (by simp)
      rw [write_fence_code fenced]
      simp
    · rename_i unfenced
      split
      · rename_i full
        exact iff_of_true ⟨_, rfl, .inl rfl⟩
          ⟨not_lt.mp receipts, unfenced, fun fits => absurd fits.2 (not_le.mpr full)⟩
      · rename_i journals
        split
        · rename_i large
          refine iff_of_true ⟨_, rfl, .inr rfl⟩ ⟨not_lt.mp receipts, unfenced, fun fits => ?_⟩
          unfold prepareReplicationEntries at large
          simp only at large
          split at large
          · rename_i exceeds
            exact absurd fits.1 (not_le.mpr exceeds)
          · exact absurd large (by simp)
        · rename_i prepared entries fanned
          have small : plan.key.length + plan.value.length + config.nodeId.utf8ByteSize +
              plan.requestId.utf8ByteSize + 256 ≤
              config.maxPendingReplicationBytes := by
            unfold prepareReplicationEntries at fanned
            simp only at fanned
            split at fanned
            · exact absurd fanned (by simp)
            · rename_i fits
              exact not_lt.mp fits
          -- An idle stream has room for one entry of this size.
          have granted := reserve_idle positive idle (prepare_fans_out _ _ _ _ fanned).1.carries
              counted small
          split
          · rename_i reserved
            rw [reserved] at granted
            exact absurd granted (by simp)
          · refine iff_of_false (fun refused => ?_) fun passed => passed.2.2 ⟨small, not_lt.mp journals⟩
            obtain ⟨_, same, _⟩ := refused
            exact absurd same (by simp)

theorem validate_put_code {request : PutRequest} {error : OperationError}
    (refused : validatePut config request = .error error) :
    error.code ≠ .resourceExhausted := by
  have cases : ∀ (first : Option OperationError) (next : Except OperationError MutationShape),
      (∀ error, first = some error → error.code ≠ .resourceExhausted) →
      (∀ error, next = .error error → error.code ≠ .resourceExhausted) →
      ∀ error, orElseReject first next = .error error → error.code ≠ .resourceExhausted := by
    intro first next early late error same
    cases first with
    | none => exact late error same
    | some found => exact early error (congrArg some (Except.error.inj same))
  -- The checks in their order: key, mutation ID, value, expiry and condition.
  refine cases _ _ ?_ (cases _ _ ?_ (cases _ _ ?_ (cases _ _ ?_ ?_))) error refused
  · intro error keyed
    unfold validateKey at keyed
    split at keyed
    · obtain rfl := Option.some.inj keyed
      exact nofun
    · split at keyed
      · obtain rfl := Option.some.inj keyed
        exact nofun
      · exact absurd keyed (by simp)
  · intro error named
    unfold validateMutationId at named
    split at named
    · obtain rfl := Option.some.inj named
      exact nofun
    · exact absurd named (by simp)
  · intro error sized
    split at sized
    · obtain rfl := Option.some.inj sized
      exact nofun
    · exact absurd sized (by simp)
  · intro error expiring
    unfold validateExpiryRequest at expiring
    split at expiring
    · obtain rfl := Option.some.inj expiring
      exact nofun
    · split at expiring
      · obtain rfl := Option.some.inj expiring
        exact nofun
      · exact absurd expiring (by simp)
  · intro error conditioned
    rcases stated : request.precondition with _ | ⟨_ | _ | _⟩
    · rw [stated] at conditioned
      exact absurd conditioned (by simp [Condition.fromProto, Except.map])
    · rw [stated] at conditioned
      obtain rfl := Except.error.inj conditioned
      exact nofun
    · rw [stated] at conditioned
      exact absurd conditioned (by simp [Condition.fromProto, Except.map])
    · rw [stated] at conditioned
      exact absurd conditioned (by simp [Condition.fromProto, Except.map])

theorem owner_error_code {state : NodeState} {token : Token} {now : Instant} {error : OperationError}
    (moved : ownerError config state token now = .ok (some error)) : error.code ≠ .resourceExhausted := by
  unfold ownerError at moved
  split at moved
  · exact absurd moved (by simp)
  · split at moved
    · have lease := Except.ok.inj moved
      unfold leaseError at lease
      split at lease
      · obtain rfl := Option.some.inj lease
        exact nofun
      · exact absurd lease (by simp)
    · obtain rfl := Option.some.inj (Except.ok.inj moved)
      exact nofun

theorem put_counted {settings : NodeSettings} (accepted : settings.Accepted)
    {nodeId processInstanceId : String} (named : nodeId.utf8ByteSize ≤ maxNodeIdBytes)
    {request : PutRequest} {shape : MutationShape} {value : Bytes}
    (valid : validatePut (settings.config nodeId processInstanceId) request = .ok shape)
    (fits : value.length ≤ settings.maxValueBytes) :
    request.key.length + value.length + nodeId.utf8ByteSize + request.requestId.utf8ByteSize + 256 <
      2 ^ 32 := by
  obtain ⟨keyed, identified⟩ := validated_request (settings.config nodeId processInstanceId)
    (.put request) shape valid
  have key := (not_or.mp (validate_key_none _ _ keyed)).2
  have id := (not_or.mp (validate_mutation_id_none _ identified)).2
  have ceiling := accepted.value.2
  simp only [WriteRequest.key, WriteRequest.requestId, NodeSettings.config, defaultMaxKeyBytes,
    maxMutationIdBytes,
    maxValueBytesCeiling, maxNodeIdBytes] at key id ceiling named
  omega

theorem validate_put_value {request : PutRequest} {shape : MutationShape}
    (valid : validatePut config request = .ok shape) :
    request.value.length ≤ config.maxValueBytes := by
  unfold validatePut at valid
  cases keyed : validateKey config request.key with
  | some _ => simp [keyed, orElseReject] at valid
  | none =>
      cases named : validateMutationId request.requestId with
      | some _ => simp [keyed, named, orElseReject] at valid
      | none =>
          by_contra large
          simp [keyed, named, orElseReject, not_le.mp large] at valid

theorem receipt_checks_refused {requestId : String} {fingerprint : Bytes} {deleted : Bool}
    {commit : NodeProcess → NodeProcess × WriteOutcome} :
    BudgetRefused epoch (withReceiptChecks hashing config clock process requestId fingerprint
      deleted ready commit).2 ↔
      ownerError config process.state ready.token clock.now = .ok none ∧
        process.state.topology.epoch = ready.epoch ∧ process.state.topology.hashSeed = ready.tokenSeed ∧
        (purgeExpiredDedup hashing process.state clock.now).dedup.lookup requestId = none ∧
        BudgetRefused epoch (commit
          { process with state := purgeExpiredDedup hashing process.state clock.now }).2 := by
  unfold withReceiptChecks
  simp only
  split
  · rename_i failed
    refine iff_of_false (fun refused => ?_) fun passed => absurd (failed.symm.trans passed.1) (by simp)
    obtain ⟨_, same, _⟩ := refused
    exact absurd same (by simp)
  · rename_i error moved
    refine iff_of_false (not_refused_of_code rfl (.inl (owner_error_code moved))) fun passed => ?_
    exact absurd (moved.symm.trans passed.1) (by simp)
  · rename_i owned
    split
    · rename_i changed
      refine iff_of_false (not_refused_of_code rfl
        (.inl (by simp [temporarilyUnavailable, operationError]))) fun passed => ?_
      exact absurd changed (by simp [passed.2.1, passed.2.2.1])
    · rename_i current
      rw [not_or, not_not, not_not] at current
      split
      · rename_i existing found
        refine iff_of_false ?_ fun passed => absurd (found.symm.trans passed.2.2.2.1) (by simp)
        unfold answerReceipt
        split
        · rintro ⟨_, same, _⟩
          exact absurd same (by simp)
        · exact not_refused_of_code rfl (.inl (by simp [operationError]))
      · rename_i fresh
        exact ⟨fun refused => ⟨owned, current.1, current.2, fresh, refused⟩, fun passed => passed.2.2.2.2⟩

theorem put_commit_refused {request : PutRequest} {shape : MutationShape}
    (positive : 0 < config.replicationStreamQueueCapacity) (idle : process.dispatch.Idle)
    (counted : ∀ value, putValue process.state request clock.unixMillis = some value →
      request.key.length + value.length +
      config.nodeId.utf8ByteSize + request.requestId.utf8ByteSize + 256 < 2 ^ 32) :
    BudgetRefused process.state.topology.epoch
      (putCommit hashing config clock process request shape ready).2 ↔
      (ownerError config process.state ready.token clock.now = .ok none ∧
        process.state.topology.epoch = ready.epoch ∧ process.state.topology.hashSeed = ready.tokenSeed ∧
        (purgeExpiredDedup hashing process.state clock.now).dedup.lookup request.requestId = none ∧
        shape.condition.holds (liveRecord process.state request.key clock.unixMillis) = true ∧
        (request.key ∈ process.state.records ∨
          process.state.recordsByToken.lenAt (process.state.tokenOf hashing request.key) <
            maxKeysPerToken) ∧
        ∃ value, putValue process.state request clock.unixMillis = some value ∧
          (purgeExpiredDedup hashing process.state clock.now).dedupBytes +
            (dedupRetainedBytes request.requestId
            request.key.length config.nodeId.utf8ByteSize +
              requiredAckRetainedBytes ready.followers) ≤ config.maxDedupBytes ∧
          writeFence process.state ready.token = none ∧
          ¬(request.key.length + value.length + config.nodeId.utf8ByteSize +
            request.requestId.utf8ByteSize + 256 ≤
              config.maxPendingReplicationBytes ∧
            process.state.journalBytesTotal +
              (request.key.length + value.length + request.requestId.utf8ByteSize + 128) *
              process.state.sources.values.countP (fun source => source.range.contains ready.token) ≤
                config.maxJournalBytes)) := by
  unfold putCommit
  simp only
  rw [receipt_checks_refused]
  -- The first four checks are the same on both sides; the condition and the plan are left.
  refine and_congr Iff.rfl (and_congr Iff.rfl (and_congr Iff.rfl (and_congr Iff.rfl ?_)))
  have fence := purge_write_fence hashing process.state clock.now ready.token
  obtain ⟨dedup, byToken, expirations, bytes, peak, progress, instances, needsPrune, pruneAt, purged⟩ :=
    purge_expired_only hashing process.state clock.now
  rw [purged] at fence ⊢
  have plans : ∀ plan : WritePlan, plan.key = request.key → plan.requestId = request.requestId →
      putValue process.state request clock.unixMillis = some plan.value → _ := fun plan key id value =>
    commit_plan_refused hashing config clock
      { process with state := { process.state with
        dedup, dedupByToken := byToken, dedupExpirations := expirations, dedupBytes :=
          bytes, dedupPeakBytes := peak
        ackProgress := progress, ackProcessInstances := instances, ackProgressNeedsPrune := needsPrune
        nextAckPruneAt := pruneAt } } ready positive idle plan (by
          rw [key, id]
          exact counted plan.value value)
  simp only at plans ⊢
  split
  · rename_i fails
    refine iff_of_false (not_refused_of_none rfl) fun passed => ?_
    exact absurd (fails.symm.trans passed.1) (by simp)
  · rename_i holds
    split
    · rename_i full
      refine iff_of_false (not_refused_of_code rfl (.inr rfl)) fun passed => ?_
      rcases passed.2.1 with present | room
      · exact full.1 present
      · exact absurd full.2 (not_le.mpr room)
    · rename_i room
      rw [not_and_or, not_not, not_le] at room
      have met := Bool.eq_true_of_not_eq_false holds
      split
      · rename_i keeps missing
        refine iff_of_false (not_refused_of_none rfl) fun passed => ?_
        obtain ⟨_, _, _, value, _⟩ := passed
        have gone : liveRecord process.state request.key clock.unixMillis = none := missing
        rw [putValue, if_pos keeps, gone] at value
        exact absurd value (by simp)
      · rename_i kept keeps live
        have value : putValue process.state request clock.unixMillis = some kept.value := by
          rw [putValue, if_pos keeps, show liveRecord process.state request.key clock.unixMillis =
            some kept from live]
          rfl
        rw [plans _ rfl rfl value, fence]
        constructor
        · intro passed
          exact ⟨met, room, kept.value, value, passed⟩
        · rintro ⟨_, _, other, same, passed⟩
          obtain rfl := Option.some.inj (value.symm.trans same)
          exact passed
      · rename_i plain
        have value : putValue process.state request clock.unixMillis = some request.value := by
          rw [putValue, if_neg (by simp [plain])]
        rw [plans _ rfl rfl value, fence]
        constructor
        · intro passed
          exact ⟨met, room, request.value, value, passed⟩
        · rintro ⟨_, _, other, same, passed⟩
          obtain rfl := Option.some.inj (value.symm.trans same)
          exact passed

end Refusals

/-- Under accepted settings, on an owner with idle streams and one moving range that
has journaled nothing, a put is not refused by the budgets exactly when its size,
overheads included, fits them, or something else refuses it first. -/
theorem put_carried_iff_size_fits (settings : NodeSettings) (valid : settings.validate = .ok ())
    (nodeId processInstanceId : String) (named : nodeId.utf8ByteSize ≤ maxNodeIdBytes)
    (hashing : Hashing) (clock : Clock) (process : NodeProcess) (idle : process.dispatch.Idle)
    (key : RangeKey) (source : SourceMigration) (moving : process.state.MovesOnly key source)
    (request : PutRequest) (ready : Readiness)
    (stored : ∀ record, process.state.records.lookup request.key = some record →
      record.value.length ≤ settings.maxValueBytes) :
    ¬BudgetRefused process.state.topology.epoch
        (commitRequest hashing (settings.config nodeId processInstanceId) clock process
          (.put request) ready).2 ↔
      ∀ shape value, PutReaches hashing (settings.config nodeId processInstanceId) clock
        process.state request ready shape value →
        SizeFits settings nodeId request value (source.range.contains ready.token) := by
  have accepted := NodeSettings.validate_accepted valid
  unfold commitRequest
  cases checked : WriteRequest.validate (settings.config nodeId processInstanceId) (.put request) with
  | error error =>
      refine iff_of_true (not_refused_of_code rfl (.inl (validate_put_code checked)))
        fun shape value reaches => ?_
      exact absurd (checked.symm.trans reaches.valid) (by simp)
  | ok shape =>
      have limited : ∀ value, putValue process.state request clock.unixMillis = some value →
          value.length ≤ settings.maxValueBytes := by
        intro value found
        unfold putValue at found
        split at found
        · obtain ⟨record, live, rfl⟩ := Option.map_eq_some_iff.mp found
          exact stored record (Option.filter_eq_some_iff.mp live).1
        · obtain rfl := Option.some.inj found
          exact validate_put_value checked
      -- With one range moving, the journals grow by this write or not at all.
      have growth : ∀ value : Bytes, process.state.journalBytesTotal +
          (request.key.length + value.length +
          request.requestId.utf8ByteSize + 128) * process.state.sources.values.countP
            (fun source => source.range.contains ready.token) ≤ settings.maxMigrationJournalBytes ↔
          (source.range.contains ready.token = true → request.key.length + value.length +
            request.requestId.utf8ByteSize + 128 ≤ settings.maxMigrationJournalBytes) := by
        intro value
        rw [moving.total, FiniteMap.values, moving.only]
        cases covered : source.range.contains ready.token <;> simp [covered]
      simp only
      rw [put_commit_refused accepted.capacity idle fun value found =>
        put_counted accepted named checked (limited value found)]
      constructor
      · -- A write that reaches its budgets is refused exactly when it does not fit them.
        intro carried other value reaches
        obtain rfl : shape = other := Except.ok.inj (checked.symm.trans reaches.valid)
        by_contra large
        refine carried ⟨reaches.owned, reaches.epoch, reaches.seed, reaches.fresh, reaches.holds,
          reaches.room, value,
          reaches.value, reaches.receipts, reaches.unfenced, fun fits =>
            large ⟨fits.1, (growth value).mp fits.2⟩⟩
      · rintro fits ⟨owned, epoch, seed, fresh, holds, room, value, found, receipts, unfenced, large⟩
        have small := fits shape value ⟨checked, owned, epoch, seed, fresh, holds, room, found,
            receipts, unfenced⟩
        exact large ⟨small.replication, (growth value).mpr small.journal⟩

namespace LimitSample

/-- Budgets as small as validation lets them be for values of eight bytes. -/
def tight : NodeSettings :=
    { maxValueBytes := 8, maxPendingReplicationBytes := 8, maxMigrationJournalBytes := 8 }

def range : RangeSpec := ⟨"change", "range", 0, 6, "a", "b"⟩

def moving : SourceMigration := ⟨range, [], [], [], 0, 0, false, OrderedSet.empty⟩

def owner : NodeProcess where
  state := { topology := Sample.topology, lease := some ⟨1, 1000⟩, sources := AList.insert range.key moving ∅ }

def put : PutRequest where
  key := [byte 1]
  value := List.replicate 8 (byte 2)
  topologyEpoch := 1
  requestId := "w"
  expiresAtUnixMillis := none
  preserveValue := false
  precondition := none

def ready : Readiness := ⟨5, 7, 1, ["b"]⟩

theorem idle : owner.dispatch.Idle := ⟨fun _ _ found => absurd found (by simp [owner]), rfl⟩

theorem moves_only : owner.state.MovesOnly range.key moving := ⟨rfl, rfl, rfl⟩

end LimitSample

/-- Under the default settings the same put is carried. -/
theorem put_carried_by_defaults :
    ¬BudgetRefused 1 (commitRequest Sample.hashing (NodeSettings.config {} "a" "a-1")
    (Sample.clock 10) LimitSample.owner (.put LimitSample.put) LimitSample.ready).2 := by
  refine (put_carried_iff_size_fits {} (by decide) "a" "a-1" (by decide) Sample.hashing
    (Sample.clock 10) LimitSample.owner
    LimitSample.idle _ _ LimitSample.moves_only LimitSample.put LimitSample.ready
    (fun record found => absurd found (by simp [LimitSample.owner]))).mpr ?_
  intro shape value reaches
  obtain rfl : LimitSample.put.value = value := Option.some.inj reaches.value
  exact ⟨by decide, fun _ => by decide⟩

/-- Settings that pass validation refuse, on an idle owner, a put whose key, value and
mutation ID are all legal. -/
theorem tight_settings_refuse_put :
    LimitSample.tight.validate = .ok () ∧ LimitSample.owner.dispatch.Idle ∧
      LimitSample.owner.state.MovesOnly LimitSample.range.key LimitSample.moving ∧
      LimitSample.put.key.length ≤ defaultMaxKeyBytes ∧ LimitSample.put.value.length ≤
        LimitSample.tight.maxValueBytes ∧
      LimitSample.put.requestId.utf8ByteSize ≤ maxMutationIdBytes ∧
      BudgetRefused 1 (commitRequest Sample.hashing (LimitSample.tight.config "a" "a-1")
        (Sample.clock 10) LimitSample.owner
        (.put LimitSample.put) LimitSample.ready).2 := by
  refine ⟨by decide, LimitSample.idle, LimitSample.moves_only, by decide, by decide, by decide,
    { currentEpoch := 1, error := some (journalBudgetError 1) }, by decide +kernel, .inl rfl⟩

end Hashring
