import Hashring.NodeStores

/-! The write-lock section of a request by what it does to the stores: nothing,
dropping expired receipts, or the one write it planned, with every budget the
source tests on the way. -/
namespace Hashring

inductive Planned (hashing : Hashing) (unixMillis : Nat) (state : NodeState) (plan : WritePlan) :
    WriteRequest → Prop where
  | put {request : PutRequest} {shape : MutationShape} (key : plan.key = request.key)
      (id : plan.requestId = request.requestId)
      (fingerprint : plan.fingerprint = mutationFingerprint hashing request.key shape)
        (stored : plan.deleted = false)
      (holds : shape.condition.holds (liveRecord state request.key unixMillis) = true)
      (room : request.key ∈ state.records ∨
        state.recordsByToken.lenAt (state.tokenOf hashing request.key) < maxKeysPerToken)
      (content : (request.preserveValue = true ∧ plan.expiresAtUnixMillis = shape.expiresAtUnixMillis ∧
          ∃ kept, liveRecord state request.key unixMillis = some kept ∧ plan.value = kept.value) ∨
        (request.preserveValue = false ∧ plan.value = request.value ∧ plan.expiresAtUnixMillis =
          request.expiresAtUnixMillis.orElse fun _ =>
            (liveRecord state request.key unixMillis).bind (·.expiresAtUnixMillis))) :
      Planned hashing unixMillis state plan (.put request)
  | delete {request : DeleteRequest} {shape : MutationShape} (key : plan.key = request.key)
      (id : plan.requestId = request.requestId)
      (fingerprint : plan.fingerprint = mutationFingerprint hashing request.key shape)
        (tombstone : plan.deleted = true)
      (holds : shape.condition.holds (liveRecord state request.key unixMillis) = true)
      (empty : plan.value = []) (unlimited : plan.expiresAtUnixMillis = none) :
      Planned hashing unixMillis state plan (.delete request)

def receiptCost (config : NodeConfig) (plan : WritePlan) (followers : List String) : Nat :=
  dedupRetainedBytes plan.requestId plan.key.length config.nodeId.utf8ByteSize +
    requiredAckRetainedBytes followers

structure StoredWrite (hashing : Hashing) (config : NodeConfig) (clock : Clock) (state after : NodeState)
    (request : WriteRequest) (ready : Readiness) (plan : WritePlan) (entries : List PreparedReplication)
    (prepared : NodeState) : Prop where
  planned : Planned hashing clock.unixMillis state plan request
  owned : ownerError config state ready.token clock.now = .ok none
  epoch : state.topology.epoch = ready.epoch
  seed : state.topology.hashSeed = ready.tokenSeed
  fresh : state.dedup.lookup plan.requestId = none
  receipts : state.dedupBytes + receiptCost config plan ready.followers ≤ config.maxDedupBytes
  unfenced : writeFence state ready.token = none
  journals : state.journalBytesTotal + journalGrowth state ready.token plan ≤ config.maxJournalBytes
  fanned : prepareReplicationEntries state
    { key := plan.key, record := plan.record (WritePlan.version config state), requestFingerprint := plan.fingerprint
      mutationId := plan.requestId, token := ready.token, maxPendingBytes :=
        config.maxPendingReplicationBytes
      ackAwaitedFollowers := ready.followers } = some (prepared, entries)
  result : after = storeWrite hashing clock prepared plan
    (plan.record (WritePlan.version config state)) ready.token
    ready.followers entries

/-- A stored write, part by part: sequences and stream positions move first, then
the record, the journals, the receipt and its required acknowledgements. -/
theorem StoredWrite.parts {hashing : Hashing} {config : NodeConfig} {clock : Clock}
    {state after prepared : NodeState} {request : WriteRequest} {ready : Readiness}
    {plan : WritePlan} {entries : List PreparedReplication}
    (stored : StoredWrite hashing config clock state after request ready plan entries prepared) :
    ∃ base, SameStores state base ∧ after = setRequiredAcks (insertDedup hashing
        (journalState ready.token plan (plan.record (WritePlan.version config state))
          (journalGrowth state ready.token plan)
          (storeRecord hashing base plan (plan.record (WritePlan.version config state))))
        plan.requestId plan.key plan.fingerprint (WritePlan.version config state) plan.deleted
          clock.later)
      plan.requestId (requiredAcksOf ready.followers entries)
        (requiredAckRetainedBytes ready.followers) := by
  obtain ⟨progress, sequences, numbered⟩ := prepare_frame _ _ _ _ stored.fanned
  obtain ⟨unacked, pushed⟩ := push_unacked_frame clock.unixLater entries
    { prepared with nextSequence := (WritePlan.version config state).ownerSequence }
  refine ⟨entries.foldl (pushUnacked clock.unixLater)
    { prepared with nextSequence := (WritePlan.version config state).ownerSequence }, ?_, ?_⟩
  · rw [pushed, numbered]
    exact ⟨rfl, rfl, rfl, rfl, rfl, rfl, rfl, rfl, rfl, rfl⟩
  · have growth : journalGrowth prepared ready.token plan = journalGrowth state ready.token plan := by
      rw [numbered]
      rfl
    rw [stored.result, ← growth]
    rfl

theorem StoredWrite.topology {hashing : Hashing} {config : NodeConfig} {clock : Clock}
    {state after prepared : NodeState} {request : WriteRequest} {ready : Readiness}
    {plan : WritePlan} {entries : List PreparedReplication}
    (stored : StoredWrite hashing config clock state after request ready plan entries prepared) :
    after.topology = state.topology := by
  obtain ⟨base, same, rfl⟩ := stored.parts
  have filed := (insert_dedup_only hashing
      (journalState ready.token plan (plan.record (WritePlan.version config state))
    (journalGrowth state ready.token plan)
      (storeRecord hashing base plan (plan.record (WritePlan.version config state))))
    plan.requestId plan.key plan.fingerprint (WritePlan.version config state) plan.deleted (clock.later +
      (storeRecord hashing base plan
        (plan.record (WritePlan.version config state))).topology.timings.receiptRetention)).receipts
  exact filed.topology.trans ((store_record_only hashing base plan _).topology.trans same.topology)

theorem StoredWrite.destinations {hashing : Hashing} {config : NodeConfig} {clock : Clock}
    {state after prepared : NodeState} {request : WriteRequest} {ready : Readiness}
    {plan : WritePlan} {entries : List PreparedReplication}
    (stored : StoredWrite hashing config clock state after request ready plan entries prepared) :
    after.destinations = state.destinations := by
  obtain ⟨_, _, numbered⟩ := prepare_frame _ _ _ _ stored.fanned
  obtain ⟨_, _, _, _, _, _, _, _, _, _, _, written⟩ := (store_write_effect hashing clock prepared plan
    (plan.record (WritePlan.version config state)) ready.token ready.followers entries).frame
  rw [stored.result, written, numbered]

theorem StoredWrite.sequence {hashing : Hashing} {config : NodeConfig} {clock : Clock}
    {state after prepared : NodeState} {request : WriteRequest} {ready : Readiness}
    {plan : WritePlan} {entries : List PreparedReplication}
    (stored : StoredWrite hashing config clock state after request ready plan entries prepared) :
    after.nextSequence = state.nextSequence + 1 := by
  obtain ⟨_, _, _, _, _, _, _, _, _, _, _, written⟩ := (store_write_effect hashing clock prepared plan
    (plan.record (WritePlan.version config state)) ready.token ready.followers entries).frame
  rw [stored.result, written]
  rfl

theorem StoredWrite.record_origin {hashing : Hashing} {config : NodeConfig} {clock : Clock}
    {state after prepared : NodeState} {request : WriteRequest} {ready : Readiness}
    {plan : WritePlan} {entries : List PreparedReplication}
    (stored : StoredWrite hashing config clock state after request ready plan entries prepared)
    (key : Bytes) (record : Record) (found : after.records.lookup key = some record) :
    state.records.lookup key = some record ∨ key = plan.key ∧
      record = plan.record (WritePlan.version config state) := by
  obtain ⟨_, _, numbered⟩ := prepare_frame _ _ _ _ stored.fanned
  rw [stored.result, (store_write_effect hashing clock prepared plan
    (plan.record (WritePlan.version config state))
    ready.token ready.followers entries).records, numbered] at found
  split at found
  · rename_i here
    exact .inr ⟨here.1, (Option.some.inj found).symm⟩
  · exact .inl found

theorem commit_plan_sections (hashing : Hashing) (config : NodeConfig) (clock : Clock)
    (process : NodeProcess) (plan : WritePlan) (ready : Readiness) :
    StoresKept process.state (commitPlan hashing config clock process plan ready).1.state ∨
      (process.state.dedupBytes + receiptCost config plan ready.followers ≤ config.maxDedupBytes ∧
        writeFence process.state ready.token = none ∧
        process.state.journalBytesTotal + journalGrowth process.state ready.token plan ≤
          config.maxJournalBytes ∧
        ∃ prepared entries, prepareReplicationEntries process.state
            { key := plan.key, record := plan.record (WritePlan.version config process.state)
              requestFingerprint := plan.fingerprint, mutationId := plan.requestId, token := ready.token
              maxPendingBytes := config.maxPendingReplicationBytes, ackAwaitedFollowers :=
                ready.followers } =
              some (prepared, entries) ∧
          (commitPlan hashing config clock process plan ready).1.state =
            storeWrite hashing clock prepared plan
            (plan.record (WritePlan.version config process.state)) ready.token ready.followers
                entries) := by
  have same := StoresKept.refl process.state
  unfold commitPlan
  simp only
  split
  · exact .inl same
  · rename_i receipts
    split
    · exact .inl same
    · rename_i unfenced
      split
      · exact .inl same
      · rename_i journals
        split
        · exact .inl same
        · rename_i prepared entries fanned
          split
          · obtain ⟨_, _, rfl⟩ := prepare_frame _ _ _ _ fanned
            obtain ⟨_, rolled⟩ := rollback_frame entries _
            refine .inl ?_
            rw [rolled]
            exact ⟨⟨rfl, rfl, rfl, rfl, rfl, rfl, rfl, rfl, rfl, rfl⟩, rfl⟩
          · exact .inr ⟨not_lt.mp receipts, unfenced, not_lt.mp journals, prepared, entries, fanned, rfl⟩

theorem receipt_checks_sections {hashing : Hashing} {config : NodeConfig} {clock : Clock}
    {process : NodeProcess} {requestId : String} {fingerprint : Bytes} {deleted : Bool}
    {ready : Readiness} {commit : NodeProcess → NodeProcess × WriteOutcome}
    (section_ : NodeProcess → Prop) (refused : section_ process)
    (purged : section_ { process with state := purgeExpiredDedup hashing process.state clock.now })
    (committed : ownerError config (purgeExpiredDedup hashing process.state clock.now) ready.token
      clock.now = .ok none →
      (purgeExpiredDedup hashing process.state clock.now).topology.epoch = ready.epoch →
      (purgeExpiredDedup hashing process.state clock.now).topology.hashSeed = ready.tokenSeed →
      (purgeExpiredDedup hashing process.state clock.now).dedup.lookup requestId = none →
      section_ (commit { process with state := purgeExpiredDedup hashing process.state clock.now }).1) :
    section_ (withReceiptChecks hashing config clock process requestId fingerprint deleted ready
      commit).1 := by
  have same : ownerError config (purgeExpiredDedup hashing process.state clock.now) ready.token
      clock.now =
      ownerError config process.state ready.token clock.now := by
    obtain ⟨_, _, _, _, _, _, _, _, _, dropped⟩ := purge_expired_only hashing process.state clock.now
    rw [dropped]
    rfl
  unfold withReceiptChecks
  simp only
  split
  · exact refused
  · exact refused
  · rename_i owned
    split
    · exact refused
    · rename_i current
      split
      · exact purged
      · rename_i fresh
        rw [not_or, not_not, not_not] at current
        have kept := (purge_expired_only hashing process.state clock.now).topology
        refine committed (same.trans owned) ?_ ?_ fresh
        · rw [kept]
          exact current.1
        · rw [kept]
          exact current.2

/-- The section of a request is refused, ends with its expired receipts dropped, or
goes on with the plan it made. -/
theorem commit_request_rule {hashing : Hashing} {config : NodeConfig} {clock : Clock}
    {process : NodeProcess} {request : WriteRequest} {ready : Readiness}
    (section_ : NodeProcess → Prop) (refused : section_ process)
    (purged : section_ { process with state := purgeExpiredDedup hashing process.state clock.now })
    (planned : ∀ plan : WritePlan,
      Planned hashing clock.unixMillis (purgeExpiredDedup hashing process.state clock.now) plan request →
      ownerError config (purgeExpiredDedup hashing process.state clock.now) ready.token clock.now =
        .ok none →
      (purgeExpiredDedup hashing process.state clock.now).topology.epoch = ready.epoch →
      (purgeExpiredDedup hashing process.state clock.now).topology.hashSeed = ready.tokenSeed →
      (purgeExpiredDedup hashing process.state clock.now).dedup.lookup plan.requestId = none →
      section_ (commitPlan hashing config clock
        { process with state := purgeExpiredDedup hashing process.state clock.now } plan ready).1) :
    section_ (commitRequest hashing config clock process request ready).1 := by
  unfold commitRequest
  cases valid : request.validate config with
  | error error => exact refused
  | ok shape =>
      cases request with
      | put put =>
          refine receipt_checks_sections section_ refused purged fun owned epoch seed fresh => ?_
          simp only
          split
          · exact purged
          · rename_i holds
            split
            · exact purged
            · rename_i full
              rw [not_and_or, not_not, not_le] at full
              have met := Bool.eq_true_of_not_eq_false holds
              split
              · exact purged
              · rename_i kept keeps live
                refine planned _ ?_ owned epoch seed fresh
                exact .put rfl rfl rfl rfl met full (.inl ⟨keeps, rfl, kept, live, rfl⟩)
              · rename_i plain
                refine planned _ ?_ owned epoch seed fresh
                exact .put rfl rfl rfl rfl met full (.inr ⟨plain, rfl, rfl⟩)
      | delete delete =>
          refine receipt_checks_sections section_ refused purged fun owned epoch seed fresh => ?_
          simp only
          split
          · exact purged
          · rename_i holds
            refine planned _ ?_ owned epoch seed fresh
            exact .delete rfl rfl rfl rfl (Bool.eq_true_of_not_eq_false holds) rfl rfl

/-- What the section may leave: the stores, the stores without their expired
receipts, or a write to these. -/
def CommitSection (hashing : Hashing) (config : NodeConfig) (clock : Clock) (before : NodeState)
    (request : WriteRequest)
    (ready : Readiness) (after : NodeState) : Prop :=
  StoresKept before after ∨ StoresKept (purgeExpiredDedup hashing before clock.now) after ∨
    ∃ plan entries prepared, StoredWrite hashing config clock
      (purgeExpiredDedup hashing before clock.now) after request ready
      plan entries prepared

theorem commit_request_sections (hashing : Hashing) (config : NodeConfig) (clock : Clock)
    (process : NodeProcess) (request : WriteRequest) (ready : Readiness) :
    CommitSection hashing config clock process.state request ready
      (commitRequest hashing config clock process request ready).1.state := by
  refine commit_request_rule
    (fun after => CommitSection hashing config clock process.state request ready after.state)
    (.inl (.refl _)) (.inr (.inl (.refl _))) ?_
  intro plan planned owned epoch seed fresh
  rcases commit_plan_sections hashing config clock
    { process with state := purgeExpiredDedup hashing process.state clock.now } plan ready with
    kept | ⟨receipts, unfenced, journals, prepared, entries, fanned, stored⟩
  · exact .inr (.inl kept)
  · exact .inr (.inr ⟨plan, entries, prepared, planned, owned, epoch, seed, fresh, receipts,
      unfenced, journals, fanned, stored⟩)

end Hashring
