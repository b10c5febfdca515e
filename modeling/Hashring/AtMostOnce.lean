import Hashring.OwnerWrite

/-! A mutation ID is applied at most once while its receipt is unexpired. The
run starts at the write that was applied; afterwards sections of any requests,
completed acknowledgement waits, receipt purges and every operation of the
node that writes no receipt follow in any order. Clock readings are part of
the events, so time advances between them as it likes. -/
namespace Hashring.AtMostOnce

inductive Event where
  | lookup (now : Instant) (request : WriteRequest)
  | commit (clock : Clock) (request : WriteRequest) (ready : Readiness)
  | finishAcks (now : Instant) (reached : Bool) (epoch : Nat) (mutationId : String)
      (version : RecordVersion)
      (required : List RequiredAck)
  | purge (now : Instant)
  | other (rest : NodeProcess)

/-- The event reads the clock before `expiresAt`. -/
def Event.before (expiresAt : Instant) : Event → Prop
  | .lookup now _ => now < expiresAt
  | .commit clock _ _ => clock.now < expiresAt
  | .finishAcks now .. => now < expiresAt
  | .purge now => now < expiresAt
  | .other _ => True

def step (hashing : Hashing) (config : NodeConfig) (process : NodeProcess) : Event → NodeProcess
  | .lookup _ _ => process
  | .commit clock request ready => (commitRequest hashing config clock process request ready).1
  | .finishAcks now reached epoch mutationId version required =>
      { process with
        state := (finishRequiredAcks now process.state reached epoch mutationId version required).1 }
  | .purge now => { process with state := purgeExpiredDedup hashing process.state now }
  | .other rest => { rest with state := { rest.state with dedup := process.state.dedup } }

def runEvents (hashing : Hashing) (config : NodeConfig) : NodeProcess → List Event → NodeProcess
  | process, [] => process
  | process, event :: rest => runEvents hashing config (step hashing config process event) rest

/-- The receipt of a mutation, whatever acknowledgements it still waits for. -/
structure Holds (state : NodeState) (id : String) (fingerprint : Bytes) (version : RecordVersion)
    (deleted : Bool) (expiresAt : Instant) : Prop where
  receipt : ∃ entry, state.dedup.lookup id = some entry ∧ entry.fingerprint = fingerprint ∧
    entry.version = version ∧ entry.deleted = deleted ∧ entry.expiresAt = expiresAt

/-- Only receipts may differ: records, sequences, journals and queues are the same. -/
def Quiet (before after : NodeProcess) : Prop :=
  OnlyReceipts before.state after.state ∧ after.dispatch = before.dispatch

inductive RefusedEarly (config : NodeConfig) (now : Instant) (state : NodeState) (request : WriteRequest)
    (ready : Readiness) : WriteOutcome → Prop where
  | invalid (error : OperationError) (rejected : request.validate config = .error error) :
      RefusedEarly config now state request ready (.respond (refusedWith error))
  | unroutable (status : Status) (failed : ownerError config state ready.token now = .error status) :
      RefusedEarly config now state request ready (.fail status)
  | notOwner (error : OperationError)
      (refused : ownerError config state ready.token now = .ok (some error)) :
      RefusedEarly config now state request ready (.respond (refusedWith error))
  | moved (changed : state.topology.epoch ≠ ready.epoch ∨ state.topology.hashSeed ≠ ready.tokenSeed) :
      RefusedEarly config now state request ready
        (.respond (refusedWith (temporarilyUnavailable state.topology.epoch
          "topology changed while checking replica readiness")))

variable (hashing : Hashing) (config : NodeConfig)

theorem or_else_reject_ok {error : Option OperationError} {next : Except OperationError MutationShape}
    {shape : MutationShape} (passed : orElseReject error next = .ok shape) : next = .ok shape := by
  cases error with
  | none => exact passed
  | some _ => exact absurd passed (by simp [orElseReject])

theorem mapped_condition {parsed : Except OperationError Condition} {build : Condition → MutationShape}
    {shape : MutationShape} (passed : parsed.map build = .ok shape) :
    ∃ condition, parsed = .ok condition ∧ build condition = shape := by
  cases parsed with
  | error _ => exact absurd passed (by simp [Except.map])
  | ok condition => exact ⟨condition, rfl, Except.ok.inj passed⟩

theorem validated_deleted (request : WriteRequest) (shape : MutationShape)
    (valid : request.validate config = .ok shape) : shape.deleted = request.isDelete := by
  cases request with
  | put put =>
      obtain ⟨condition, _, rfl⟩ := mapped_condition
        (or_else_reject_ok (or_else_reject_ok (or_else_reject_ok (or_else_reject_ok valid))))
      unfold putShape
      split <;> rfl
  | delete delete =>
      obtain ⟨condition, _, rfl⟩ := mapped_condition (or_else_reject_ok (or_else_reject_ok valid))
      rfl

theorem complete_acks_holds (state : NodeState) (mutationId id : String)
    (accepted version : RecordVersion) (fingerprint : Bytes) (deleted : Bool) (expiresAt : Instant)
    (held : Holds state id fingerprint version deleted expiresAt) :
    Holds (completeRequiredAcks state mutationId accepted) id fingerprint version deleted expiresAt := by
  obtain ⟨entry, found, sameFingerprint, sameVersion, sameDeleted, sameExpiry⟩ := held.receipt
  unfold completeRequiredAcks
  cases stored : state.dedup.lookup mutationId with
  | none => exact held
  | some other =>
      simp only
      split
      · exact held
      · refine ⟨?_⟩
        by_cases same : id = mutationId
        · subst id
          obtain rfl := Option.some.inj (stored.symm.trans found)
          exact ⟨_, AList.lookup_insert _, sameFingerprint, sameVersion, sameDeleted, sameExpiry⟩
        · exact ⟨entry, by simp [same, found], sameFingerprint, sameVersion, sameDeleted, sameExpiry⟩

theorem finish_acks_holds (state : NodeState) (now : Instant) (reached : Bool) (epoch : Nat)
    (mutationId id : String) (accepted version : RecordVersion) (required : List RequiredAck)
    (fingerprint : Bytes) (deleted : Bool) (expiresAt : Instant)
    (held : Holds state id fingerprint version deleted expiresAt) :
    Holds (finishRequiredAcks now state reached epoch mutationId accepted required).1 id fingerprint
      version
      deleted expiresAt := by
  rcases finish_required_acks_cases now state reached epoch mutationId accepted required
    with same | completed
  · rw [same]
    exact held
  · rw [completed]
    exact complete_acks_holds state mutationId id accepted version fingerprint deleted expiresAt held

theorem purge_holds (state : NodeState) (now : Instant) (id : String) (version : RecordVersion)
    (fingerprint : Bytes) (deleted : Bool) (expiresAt : Instant) (early : now < expiresAt)
    (held : Holds state id fingerprint version deleted expiresAt) :
    Holds (purgeExpiredDedup hashing state now) id fingerprint version deleted expiresAt := by
  obtain ⟨entry, found, sameFingerprint, sameVersion, sameDeleted, sameExpiry⟩ := held.receipt
  exact ⟨⟨entry, purge_keeps_live hashing state now id entry found
    (by rw [sameExpiry]; exact early), sameFingerprint,
    sameVersion, sameDeleted, sameExpiry⟩⟩

/-- A request never replaces an unexpired receipt: it stores a receipt only
for an ID the purged map does not know. -/
theorem commit_holds (clock : Clock) (process : NodeProcess) (request : WriteRequest) (ready : Readiness)
    (id : String) (version : RecordVersion) (fingerprint : Bytes) (deleted : Bool) (expiresAt : Instant)
    (early : clock.now < expiresAt)
    (held : Holds process.state id fingerprint version deleted expiresAt) :
    Holds (commitRequest hashing config clock process request ready).1.state id fingerprint version
      deleted
      expiresAt := by
  have purged := purge_holds hashing process.state clock.now id version fingerprint deleted expiresAt
    early held
  have cases := commit_request_cases hashing config clock process request ready
  generalize commitRequest hashing config clock process request ready = result at cases
  cases cases with
  | invalid | unroutable | notOwner | moved => exact held
  | answered | declined => exact purged
  | planned shape valid plan owned current fresh sameKey sameId sameFingerprint sameDeleted _ ended =>
      cases ended with
      | refused => exact purged
      | rolledBack => exact ⟨purged.receipt⟩
      | stored prepared entries dispatch unfenced fanned reserved =>
          obtain ⟨entry, found, rest⟩ := purged.receipt
          have different : id ≠ plan.requestId := by
            rintro rfl
            rw [sameId, fresh] at found
            exact absurd found (by simp)
          have effect := store_write_effect hashing clock prepared plan
            (plan.record (WritePlan.version config (purgeExpiredDedup hashing process.state clock.now)))
            ready.token ready.followers entries
          obtain ⟨_, _, rfl⟩ := prepare_frame _ _ _ _ fanned
          refine ⟨entry, ?_, rest⟩
          rw [effect.receipts]
          simpa [different] using found

theorem step_holds (process : NodeProcess) (event : Event) (id : String) (version : RecordVersion)
    (fingerprint : Bytes) (deleted : Bool) (expiresAt : Instant) (early : event.before expiresAt)
    (held : Holds process.state id fingerprint version deleted expiresAt) :
    Holds (step hashing config process event).state id fingerprint version deleted expiresAt := by
  cases event with
  | lookup => exact held
  | commit clock request ready =>
      exact commit_holds hashing config clock process request ready id version fingerprint deleted expiresAt early held
  | finishAcks now reached epoch mutationId accepted required =>
      exact finish_acks_holds process.state now reached epoch mutationId id accepted version required fingerprint
        deleted expiresAt held
  | purge now =>
      exact purge_holds hashing process.state now id version fingerprint deleted expiresAt early held
  | other rest => exact ⟨held.receipt⟩

theorem run_holds (events : List Event) (process : NodeProcess) (id : String) (version : RecordVersion)
    (fingerprint : Bytes) (deleted : Bool) (expiresAt : Instant)
    (early : ∀ event ∈ events, event.before expiresAt)
    (held : Holds process.state id fingerprint version deleted expiresAt) :
    Holds (runEvents hashing config process events).state id fingerprint version deleted expiresAt := by
  induction events generalizing process with
  | nil => exact held
  | cons event rest ih =>
      exact ih _ (fun later member => early later (List.mem_cons_of_mem _ member))
        (step_holds hashing config process event id version fingerprint deleted expiresAt
          (early event List.mem_cons_self) held)

/-- Only an accepted write advances the owner sequence, and it leaves the
receipt that answers its retries. -/
theorem applied_holds (clock : Clock) (process : NodeProcess) (request : WriteRequest) (ready : Readiness)
    (applied : process.state.nextSequence <
      (commitRequest hashing config clock process request ready).1.state.nextSequence) :
    ∃ shape version required, request.validate config = .ok shape ∧
      (commitRequest hashing config clock process request ready).2 =
        .awaitAcks version process.state.topology.epoch required ∧
      Holds (commitRequest hashing config clock process request ready).1.state request.requestId
        (mutationFingerprint hashing request.key shape) version request.isDelete
        (clock.later + process.state.topology.timings.receiptRetention) := by
  have purged := purge_expired_only hashing process.state clock.now
  have cases := commit_request_cases hashing config clock process request ready
  generalize commitRequest hashing config clock process request ready = result at cases applied
  have sequence : (purgeExpiredDedup hashing process.state clock.now).nextSequence =
      process.state.nextSequence := by
    obtain ⟨_, _, _, _, _, _, _, _, _, same⟩ := purged
    rw [same]
  cases cases with
  | invalid | unroutable | notOwner | moved => exact absurd applied (lt_irrefl _)
  | answered | declined => exact absurd applied (by simp [sequence])
  | planned shape valid plan owned current fresh sameKey sameId sameFingerprint sameDeleted _ ended =>
      cases ended with
      | refused | rolledBack => exact absurd applied (by simp [sequence])
      | stored prepared entries dispatch unfenced fanned reserved =>
          have effect := store_write_effect hashing clock prepared plan
            (plan.record (WritePlan.version config (purgeExpiredDedup hashing process.state clock.now)))
            ready.token ready.followers entries
          have topology : prepared.topology = process.state.topology := by
            obtain ⟨_, _, rfl⟩ := prepare_frame _ _ _ _ fanned
            exact purged.topology
          have filed := effect.receipts request.requestId
          simp only [sameId, ↓reduceIte] at filed
          refine ⟨shape, WritePlan.version config (purgeExpiredDedup hashing process.state clock.now),
            requiredAcksOf ready.followers entries, valid, by rw [purged.topology], ⟨_, filed, ?_⟩⟩
          simp [writeReceipt, freshReceipt, sameFingerprint, sameDeleted, topology,
            WritePlan.record, Record.stored]

/-- How a held receipt answers a request with its mutation ID: the original
version for the same mutation, a conflict for a different one. -/
def Recognised (version : RecordVersion) (epoch : Nat) (same : Prop) (outcome : WriteOutcome) : Prop :=
  (same → (∃ required, outcome = .awaitAcks version epoch required) ∧
    ∀ ackError response, outcome.answer ackError = .ok response → response.error = none →
      response.version = some version) ∧
    (¬same → outcome = .respond (mutationIdConflict epoch))

structure Comparable (hashing : Hashing) (key retryKey : Bytes) (shape retryShape : MutationShape) :
    Prop where
  original : MutationFits key shape
  retry : MutationFits retryKey retryShape
  collisionFree : mutationFingerprint hashing key shape = mutationFingerprint hashing retryKey
    retryShape →
    mutationEncoding key shape = mutationEncoding retryKey retryShape

theorem answer_recognised (epoch : Nat) (existing : DedupEntry) (request retry : WriteRequest)
    (shape retryShape : MutationShape) (version : RecordVersion)
    (valid : request.validate config = .ok shape)
    (retryValid : retry.validate config = .ok retryShape)
    (comparable : Comparable hashing request.key retry.key shape retryShape)
    (sameFingerprint : existing.fingerprint = mutationFingerprint hashing request.key shape)
    (sameVersion : existing.version = version) (sameDeleted : existing.deleted = request.isDelete) :
    Recognised version epoch (retry.key = request.key ∧ retryShape = shape)
      (answerReceipt epoch existing (mutationFingerprint hashing retry.key retryShape)
        retry.isDelete) := by
  constructor
  · rintro ⟨sameKey, rfl⟩
    have deleted : existing.deleted = retry.isDelete := by
      rw [sameDeleted, ← validated_deleted config request _ valid,
        validated_deleted config retry _ retryValid]
    have awaited : answerReceipt epoch existing (mutationFingerprint hashing retry.key retryShape)
        retry.isDelete =
        .awaitAcks version epoch existing.requiredAcks := by
      simp [answerReceipt, sameFingerprint, sameKey, deleted, sameVersion]
    refine ⟨⟨existing.requiredAcks, awaited⟩, ?_⟩
    rw [awaited]
    rintro ackError response answered success
    obtain rfl := Except.ok.inj answered
    simp only [ackedResponse] at success ⊢
    simp [success]
  · intro different
    have unequal : ¬existing.fingerprint = mutationFingerprint hashing retry.key retryShape := by
      intro equal
      rw [sameFingerprint] at equal
      obtain ⟨sameKey, sameShape⟩ :=
        mutation_encoding_injective _ _ _ _ comparable.original comparable.retry
        (comparable.collisionFree equal)
      exact different ⟨sameKey.symm, sameShape.symm⟩
    simp [answerReceipt, unequal]

theorem commit_recognised (clock : Clock) (process : NodeProcess) (request retry : WriteRequest)
    (ready : Readiness) (shape : MutationShape) (version : RecordVersion) (expiresAt : Instant)
    (early : clock.now < expiresAt) (valid : request.validate config = .ok shape)
    (sameId : retry.requestId = request.requestId)
    (comparable : ∀ retryShape, retry.validate config = .ok retryShape →
      Comparable hashing request.key retry.key shape retryShape)
    (held : Holds process.state request.requestId (mutationFingerprint hashing request.key shape) version
      request.isDelete expiresAt) :
    Quiet process (commitRequest hashing config clock process retry ready).1 ∧
      (RefusedEarly config clock.now process.state retry ready
          (commitRequest hashing config clock process retry ready).2 ∨
        ∃ retryShape, retry.validate config = .ok retryShape ∧
          Recognised version process.state.topology.epoch (retry.key = request.key ∧ retryShape = shape)
            (commitRequest hashing config clock process retry ready).2) := by
  have purged := purge_expired_only hashing process.state clock.now
  obtain ⟨entry, kept, sameFingerprint, sameVersion, sameDeleted, _⟩ :=
    (purge_holds hashing process.state clock.now _ version _ _ expiresAt early held).receipt
  rw [← sameId] at kept
  have cases := commit_request_cases hashing config clock process retry ready
  generalize commitRequest hashing config clock process retry ready = result at cases
  cases cases with
  | invalid error rejected => exact ⟨⟨OnlyReceipts.refl _, rfl⟩, Or.inl (.invalid error rejected)⟩
  | unroutable status failed => exact ⟨⟨OnlyReceipts.refl _, rfl⟩, Or.inl (.unroutable status failed)⟩
  | notOwner error refused => exact ⟨⟨OnlyReceipts.refl _, rfl⟩, Or.inl (.notOwner error refused)⟩
  | moved _ changed => exact ⟨⟨OnlyReceipts.refl _, rfl⟩, Or.inl (.moved changed)⟩
  | answered retryShape retryValid existing owned found =>
      obtain rfl := Option.some.inj (kept.symm.trans found)
      exact ⟨⟨purged, rfl⟩, Or.inr
        ⟨retryShape, retryValid, answer_recognised hashing config _ _ request retry shape retryShape
        version valid retryValid (comparable retryShape retryValid) sameFingerprint sameVersion
          sameDeleted⟩⟩
  | declined _ _ _ fresh => exact absurd (kept.symm.trans fresh) (by simp)
  | planned _ _ _ _ _ fresh => exact absurd (kept.symm.trans fresh) (by simp)

theorem lookup_recognised (now : Instant) (state : NodeState) (request retry : WriteRequest)
    (shape : MutationShape) (version : RecordVersion) (expiresAt : Instant) (early : now < expiresAt)
    (valid : request.validate config = .ok shape) (sameId : retry.requestId = request.requestId)
    (comparable : ∀ retryShape, retry.validate config = .ok retryShape →
      Comparable hashing request.key retry.key shape retryShape)
    (held : Holds state request.requestId (mutationFingerprint hashing request.key shape) version
      request.isDelete expiresAt) :
    ∃ outcome, lookupRequest hashing config now state retry = .ended outcome ∧
      (RefusedEarly config now state retry
          ⟨state.tokenOf hashing retry.key, state.topology.hashSeed, state.topology.epoch, []⟩ outcome ∨
        ∃ retryShape, retry.validate config = .ok retryShape ∧
          Recognised version state.topology.epoch (retry.key = request.key ∧ retryShape = shape)
            outcome) := by
  obtain ⟨entry, kept, sameFingerprint, sameVersion, sameDeleted, sameExpiry⟩ := held.receipt
  have live : (state.dedup.lookup retry.requestId).filter
      (fun entry => decide (now < entry.expiresAt)) = some entry := by
    rw [sameId, kept, Option.filter_some_pos]
    simpa [sameExpiry] using early
  unfold lookupRequest
  cases checked : retry.validate config with
  | error error => exact ⟨_, rfl, Or.inl (.invalid error checked)⟩
  | ok retryShape =>
      simp only [lookupReceipt]
      cases owned : ownerError config state (state.tokenOf hashing retry.key) now with
      | error status => exact ⟨_, rfl, Or.inl (.unroutable status owned)⟩
      | ok refusal =>
          cases refusal with
          | some error => exact ⟨_, rfl, Or.inl (.notOwner error owned)⟩
          | none =>
              simp only [live]
              exact ⟨_, rfl, Or.inr ⟨retryShape, rfl,
                answer_recognised hashing config _ _ request retry shape retryShape version
                valid checked (comparable retryShape checked) sameFingerprint sameVersion sameDeleted⟩⟩

/-- At-most-once application: after a write was applied, and through every run
of events that read the clock before its receipt expires, a request with its
mutation ID changes nothing but receipts and is either refused by a check that
precedes the receipt lookup or answered by the receipt. -/
theorem applied_at_most_once (hashing : Hashing) (config : NodeConfig) (clock : Clock)
    (process : NodeProcess) (request : WriteRequest) (ready : Readiness)
    (applied : process.state.nextSequence <
      (commitRequest hashing config clock process request ready).1.state.nextSequence) :
    ∃ shape version required, request.validate config = .ok shape ∧
      (commitRequest hashing config clock process request ready).2 =
        .awaitAcks version process.state.topology.epoch required ∧
      ∀ events : List Event,
        (∀ event ∈ events, event.before (clock.later + process.state.topology.timings.receiptRetention)) →
        ∀ retry : WriteRequest, retry.requestId = request.requestId →
          (∀ retryShape, retry.validate config = .ok retryShape →
            Comparable hashing request.key retry.key shape retryShape) →
          let later := runEvents hashing config
            (commitRequest hashing config clock process request ready).1 events
          (∀ now, now < clock.later + process.state.topology.timings.receiptRetention →
            ∃ outcome, lookupRequest hashing config now later.state retry = .ended outcome ∧
              (RefusedEarly config now later.state retry
                  ⟨later.state.tokenOf hashing retry.key, later.state.topology.hashSeed,
                    later.state.topology.epoch, []⟩ outcome ∨
                ∃ retryShape, retry.validate config = .ok retryShape ∧
                  Recognised version later.state.topology.epoch
                    (retry.key = request.key ∧ retryShape = shape) outcome)) ∧
          (∀ again retryReady, again.now < clock.later + process.state.topology.timings.receiptRetention →
            Quiet later (commitRequest hashing config again later retry retryReady).1 ∧
              (RefusedEarly config again.now later.state retry retryReady
                  (commitRequest hashing config again later retry retryReady).2 ∨
                ∃ retryShape, retry.validate config = .ok retryShape ∧
                  Recognised version later.state.topology.epoch
                    (retry.key = request.key ∧ retryShape = shape)
                    (commitRequest hashing config again later retry retryReady).2)) := by
  obtain ⟨shape, version, required, valid, answered, held⟩ :=
    applied_holds hashing config clock process request ready applied
  refine ⟨shape, version, required, valid, answered, ?_⟩
  intro events early retry sameId comparable
  have kept := run_holds hashing config events _ _ version _ _ _ early held
  exact ⟨fun now soon => lookup_recognised hashing config now _ request retry shape version _ soon
    valid sameId comparable kept,
    fun again retryReady soon =>
      commit_recognised hashing config again _ request retry retryReady shape version _ soon valid
        sameId comparable kept⟩

section

def sampleOwner : NodeConfig := { nodeId := "a", processInstanceId := "a-1", maxValueBytes := 4 }

def sampleProcess : NodeProcess where
  state := { topology := Sample.topology, lease := some ⟨1, 1000⟩ }

def sampleReady : Readiness := ⟨5, 7, 1, ["b"]⟩

def samplePut (value : Bytes) : WriteRequest :=
  .put { key := [byte 107], value, topologyEpoch := 1, requestId := "m", expiresAtUnixMillis := none
         preserveValue := false, precondition := none }

def sampleCommit (now : Instant) (process : NodeProcess) (value : Bytes) : NodeProcess × WriteOutcome :=
  commitRequest Sample.hashing sampleOwner (Sample.clock now) process (samplePut value) sampleReady

theorem sample_fits (value : Bytes) (short : value.length < 2 ^ 64) :
    MutationFits [byte 107] (MutationShape.ofValue value false none) where
  key := by decide
  value := short
  deadline := by simp [DeadlineFits, MutationShape.ofValue]
  condition := trivial

theorem applied_at_most_once_sample :
    ∃ required, (sampleCommit 20 (sampleCommit 10 sampleProcess [byte 1]).1 [byte 1]).2 =
      .awaitAcks ⟨1, 1, "a"⟩ 1 required := by
  obtain ⟨shape, version, required, valid, answered, later⟩ :=
    applied_at_most_once Sample.hashing sampleOwner
    (Sample.clock 10) sampleProcess (samplePut [byte 1]) sampleReady (by decide +kernel)
  have stored : version = ⟨1, 1, "a"⟩ := by
    have first : (sampleCommit 10 sampleProcess [byte 1]).2 = .awaitAcks ⟨1, 1, "a"⟩ 1 [⟨1, "b", 1⟩] := by
      decide +kernel
    exact (WriteOutcome.awaitAcks.inj (answered.symm.trans first)).1
  have shapeIs : shape = MutationShape.ofValue [byte 1] false none := by
    have checked : (samplePut [byte 1]).validate sampleOwner =
        .ok (MutationShape.ofValue [byte 1] false none) := by
      decide +kernel
    exact Except.ok.inj (valid.symm.trans checked)
  subst shapeIs stored
  obtain ⟨-, commits⟩ := later [] (by simp) (samplePut [byte 1]) rfl (fun retryShape again => by
    obtain rfl := Except.ok.inj (valid.symm.trans again)
    exact ⟨sample_fits [byte 1] (by decide), sample_fits [byte 1] (by decide), fun _ => rfl⟩)
  obtain ⟨-, refused | ⟨retryShape, again, recognised⟩⟩ :=
    commits (Sample.clock 20) sampleReady (by decide)
  · exact ⟨[⟨1, "b", 1⟩], by decide +kernel⟩
  · obtain rfl := Except.ok.inj (valid.symm.trans again)
    exact (recognised.1 ⟨rfl, rfl⟩).1

/-- A reused mutation ID whose new value is too large is refused for its size:
validation comes before the receipt lookup. -/
theorem oversized_reuse_is_not_a_conflict :
    (sampleCommit 10 sampleProcess [byte 1]).1.state.dedup.lookup "m" ≠ none ∧
      (sampleCommit 20 (sampleCommit 10 sampleProcess [byte 1]).1 (List.replicate 5 (byte 1))).2 =
        .respond (refusedWith (operationError .tooLarge "value exceeds 4 bytes" false)) ∧
      (sampleCommit 20 (sampleCommit 10 sampleProcess [byte 1]).1 (List.replicate 5 (byte 1))).2 ≠
        .respond (mutationIdConflict 1) := by
  decide +kernel

end

end Hashring.AtMostOnce
