import Hashring.Migration

/-! What the migration operations do to the two sides of a move: the pages a
source hands out, the records and receipts a batch stages, and the records a
commit leaves. -/
namespace Hashring

open VersionedMap

section Pages

variable (config : NodeConfig)

theorem try_from_ok {range checked : RangeSpec} (valid : range.tryFrom = .ok checked) :
    checked = range := by
  unfold RangeSpec.tryFrom at valid
  split at valid
  · exact absurd valid (by simp)
  · exact (Except.ok.inj valid).symm

/-- The source side of a range right after its preparation. -/
def frozenSource (state : NodeState) (range : RangeSpec) : SourceMigration where
  range
  snapshotKeys := (state.recordKeysInRange range).map Prod.snd
  snapshotDedupIds := state.dedupIdsInRange range
  journal := []
  journalBytes := 0
  watermark := 0
  writesPaused := false
  deferredExpirations := OrderedSet.empty

def emptyDestination (range : RangeSpec) : DestinationMigration where
  range
  records := ∅
  dedup := ∅
  dedupBytes := 0
  watermark := 0
  committed := false
  writesActivated := false

theorem prepare_source_fresh (state : NodeState) (range : RangeSpec) (id : String)
    (fresh : state.sources.lookup range.key = none)
    (answered : (prepareSourceRange config state (some range)).2 = .ok id) :
    (prepareSourceRange config state (some range)).1 =
      { state with sources := state.sources.insert range.key (frozenSource state range) } := by
  unfold prepareSourceRange at answered ⊢
  cases valid : range.tryFrom with
  | error status =>
      simp only [valid] at answered
      exact absurd answered (by simp)
  | ok checked =>
      obtain rfl := try_from_ok valid
      simp only [valid, fresh] at answered ⊢
      split at answered
      · exact absurd answered (by simp)
      · rename_i here
        rw [if_neg here]
        rfl

theorem prepare_destination_fresh (state : NodeState) (range : RangeSpec) (id : String)
    (fresh : state.destinations.lookup range.key = none)
    (answered : (prepareDestinationRange config state (some range)).2 = .ok id) :
    (prepareDestinationRange config state (some range)).1 =
      { state with destinations := state.destinations.insert range.key (emptyDestination range) } := by
  unfold prepareDestinationRange at answered ⊢
  cases valid : range.tryFrom with
  | error status =>
      simp only [valid] at answered
      exact absurd answered (by simp)
  | ok checked =>
      obtain rfl := try_from_ok valid
      simp only [valid, fresh] at answered ⊢
      split at answered
      · exact absurd answered (by simp)
      · rename_i here
        rw [if_neg here]
        rfl

/-- A snapshot page covers an interval of the frozen keys and shows the live
record of each of them. -/
theorem read_snapshot_page_spec (state : NodeState) (request : SnapshotPageRequest)
    (page : SnapshotPageResponse) (read : readSnapshotPage config state request = .ok page) :
    ∃ source count, state.sources.lookup ⟨request.changeId, request.rangeId⟩ = some source ∧
      page.nextCursor = request.cursor + count ∧
      page.records = ((source.snapshotKeys.drop request.cursor).take count).filterMap fun key =>
        (state.records.lookup key).map (snapshotRecord key) := by
  unfold readSnapshotPage at read
  split at read
  · exact absurd read (by simp)
  · rename_i source found
    split at read
    · exact absurd read (by simp)
    · obtain ⟨count, _, taken⟩ := take_page_prefix
        (fun key => (state.records.lookup key).map (snapshotRecord key)) migrationRecordSize
        (pageLimit request.maxBytes config.maxValueBytes) (source.snapshotKeys.drop request.cursor)
          0 [] request.cursor
      obtain rfl := Except.ok.inj read
      refine ⟨source, count, found, ?_, ?_⟩
      · simp [taken]
      · simp [taken]

theorem read_dedup_page_spec (now : Instant) (state : NodeState) (request : SnapshotPageRequest)
    (page : DedupSnapshotPageResponse)
    (read : readDedupSnapshotPage config now state request = .ok page) :
    ∃ source count, state.sources.lookup ⟨request.changeId, request.rangeId⟩ = some source ∧
      page.nextCursor = request.cursor + count ∧
      page.records = ((source.snapshotDedupIds.drop request.cursor).take count).filterMap fun id =>
        ((state.dedup.lookup id).filter fun entry => now < entry.expiresAt).map fun entry =>
          dedupSnapshotRecord id entry now state.topology.timings.receiptRetentionMillis := by
  unfold readDedupSnapshotPage at read
  split at read
  · exact absurd read (by simp)
  · rename_i source found
    split at read
    · exact absurd read (by simp)
    · obtain ⟨count, _, taken⟩ := take_page_prefix
        (fun id => ((state.dedup.lookup id).filter fun entry => now < entry.expiresAt).map fun entry =>
          dedupSnapshotRecord id entry now state.topology.timings.receiptRetentionMillis) dedupRecordSize
        (pageLimit request.maxBytes config.maxValueBytes)
          (source.snapshotDedupIds.drop request.cursor) 0 []
        request.cursor
      obtain rfl := Except.ok.inj read
      refine ⟨source, count, found, ?_, ?_⟩
      · simp [taken]
      · simp [taken]

theorem read_changelog_page_spec (now : Instant) (state : NodeState) (request : ChangelogPageRequest)
    (page : ChangelogPageResponse) (read : readChangelogPage config now state request = .ok page) :
    ∃ source, state.sources.lookup ⟨request.changeId, request.rangeId⟩ = some source ∧
      ∀ sent ∈ page.records, ∃ entry ∈ source.journal,
        sent = copiedJournalRecord state.dedup now state.topology.timings.receiptRetentionMillis
          entry := by
  unfold readChangelogPage at read
  split at read
  · exact absurd read (by simp)
  · rename_i source found
    refine ⟨source, found, ?_⟩
    obtain rfl := Except.ok.inj read
    intro sent member
    obtain ⟨entry, listed, rfl⟩ := List.mem_map.mp member
    obtain ⟨count, _, taken⟩ := take_page_prefix some journalRecordSize
      (pageLimit request.maxBytes config.maxValueBytes)
      (source.journal.filter fun entry => request.afterWatermark < entry.watermark) 0 [] 0
    simp only [changelogPage, taken, List.nil_append, List.filterMap_some] at listed
    exact ⟨entry, (List.mem_filter.mp (List.mem_of_mem_take listed)).1, rfl⟩

end Pages

section Staging

variable (hashing : Hashing) (config : NodeConfig)

/-- `stage_dedup` touches receipts only. -/
theorem stage_dedup_frame (destination staged : DestinationMigration) (record : DeduplicationRecord)
    (maxDedupBytes retentionMillis : Nat) (now : Instant)
    (accepted : stageDedup destination record maxDedupBytes retentionMillis now = .ok staged) :
    ∃ dedup dedupBytes, staged = { destination with dedup, dedupBytes } := by
  unfold stageDedup at accepted
  simp only at accepted
  split at accepted
  · obtain rfl := Except.ok.inj accepted
    exact ⟨_, _, rfl⟩
  · split at accepted
    · exact absurd accepted (by simp)
    · split at accepted
      · exact absurd accepted (by simp)
      · split at accepted
        · split at accepted
          · obtain rfl := Except.ok.inj accepted
            exact ⟨_, _, rfl⟩
          · exact absurd accepted (by simp)
        · split at accepted
          · exact absurd accepted (by simp)
          · obtain rfl := Except.ok.inj accepted
            exact ⟨_, _, rfl⟩

/-- Staged receipts are never replaced, and their expiry only moves later. -/
def ReceiptsGrow (before after : DestinationMigration) : Prop :=
  ∀ id held, before.dedup.lookup id = some held →
    ∃ later, after.dedup.lookup id = some later ∧ later.record = held.record ∧ held.expiresAt ≤
      later.expiresAt

theorem ReceiptsGrow.refl (staged : DestinationMigration) : ReceiptsGrow staged staged :=
  fun _ held found => ⟨held, found, rfl, le_refl _⟩

theorem ReceiptsGrow.trans {first second third : DestinationMigration} (early : ReceiptsGrow first second)
    (late : ReceiptsGrow second third) : ReceiptsGrow first third := by
  intro id held found
  obtain ⟨middle, kept, same, order⟩ := early id held found
  obtain ⟨last, stillKept, again, later⟩ := late id middle kept
  exact ⟨last, stillKept, again.trans same, le_trans order later⟩

def ReceiptStaged (sent : DeduplicationRecord) (retentionMillis : Nat) (now : Instant)
    (staged : DestinationMigration) : Prop :=
  ∃ held, staged.dedup.lookup sent.mutationId = some held ∧ held.record.key = sent.key ∧
    held.record.fingerprint = sent.fingerprint ∧ held.record.version = sent.version ∧
      held.record.deleted = sent.deleted ∧
    now + min sent.remainingRetentionMillis retentionMillis * nanosPerMilli ≤ held.expiresAt

theorem ReceiptsGrow.receipt_staged {before after : DestinationMigration}
    (grow : ReceiptsGrow before after) {sent : DeduplicationRecord} {retentionMillis : Nat}
    {now : Instant}
    (held : ReceiptStaged sent retentionMillis now before) :
    ReceiptStaged sent retentionMillis now after := by
  obtain ⟨receipt, found, key, fingerprint, version, deleted, order⟩ := held
  obtain ⟨later, kept, same, longer⟩ := grow _ receipt found
  rw [← same] at key fingerprint version deleted
  exact ⟨later, kept, key, fingerprint, version, deleted, order.trans longer⟩

theorem receipts_grow_insert {before after : DestinationMigration} {id : String} {held : StagedDedup}
    (put : after.dedup = before.dedup.insert id held)
    (prolongs : ∀ old, before.dedup.lookup id = some old → held.record = old.record ∧
      old.expiresAt ≤ held.expiresAt) :
    ReceiptsGrow before after := by
  intro probe old stored
  rw [put, FiniteMap.lookup_insert_if]
  by_cases here : probe = id
  · subst here
    obtain ⟨same, longer⟩ := prolongs old stored
    exact ⟨held, if_pos rfl, same, longer⟩
  · exact ⟨old, by rw [if_neg here, stored], rfl, le_refl _⟩

/-- `stage_dedup` keeps what is staged and stages a receipt that has time left. -/
theorem stage_dedup_holds {destination staged : DestinationMigration} {record : DeduplicationRecord}
    {maxDedupBytes retentionMillis : Nat} {now : Instant}
    (accepted : stageDedup destination record maxDedupBytes retentionMillis now = .ok staged) :
    ReceiptsGrow destination staged ∧
      (record.remainingRetentionMillis ≠ 0 → ReceiptStaged record retentionMillis now staged) := by
  unfold stageDedup at accepted
  simp only at accepted
  split at accepted
  · rename_i spent
    obtain rfl := Except.ok.inj accepted
    exact ⟨ReceiptsGrow.refl _, fun left => absurd spent left⟩
  · split at accepted
    · exact absurd accepted (by simp)
    · split at accepted
      · exact absurd accepted (by simp)
      · split at accepted
        · rename_i existing found
          split at accepted
          · rename_i same
            obtain rfl := Except.ok.inj accepted
            refine ⟨receipts_grow_insert rfl fun old stored => ?_, fun _ => ?_⟩
            · obtain rfl := Option.some.inj (found.symm.trans stored)
              exact ⟨rfl, le_max_left _ _⟩
            · exact ⟨_, AList.lookup_insert _, same.1, same.2.1, same.2.2.1, same.2.2.2, le_max_right _ _⟩
          · exact absurd accepted (by simp)
        · rename_i absent
          split at accepted
          · exact absurd accepted (by simp)
          · obtain rfl := Except.ok.inj accepted
            refine ⟨receipts_grow_insert rfl fun old stored => ?_, fun _ => ?_⟩
            · exact absurd (absent.symm.trans stored) (by simp)
            · exact ⟨_, AList.lookup_insert _, rfl, rfl, rfl, rfl, le_refl _⟩

theorem stage_dedup_records_frame (topology : TopologySnapshot) (now : Instant)
    (records : List DeduplicationRecord) (destination : DestinationMigration) :
    ∃ dedup dedupBytes, (stageDedupRecords hashing config topology now destination records).1 =
      { destination with dedup, dedupBytes } := by
  induction records generalizing destination with
  | nil => exact ⟨_, _, rfl⟩
  | cons record rest ih =>
      unfold stageDedupRecords
      split
      · exact ⟨_, _, rfl⟩
      · split
        · exact ⟨_, _, rfl⟩
        · rename_i staged accepted
          obtain ⟨_, _, rfl⟩ := stage_dedup_frame _ _ _ _ _ _ accepted
          obtain ⟨dedup, dedupBytes, same⟩ := ih _
          exact ⟨dedup, dedupBytes, same⟩

theorem stage_snapshot_frame (topology : TopologySnapshot) (records : List MigrationRecord)
    (destination : DestinationMigration) :
    ∃ staged, (stageSnapshotRecords hashing topology destination records).1 =
      { destination with records := staged } := by
  induction records generalizing destination with
  | nil => exact ⟨_, rfl⟩
  | cons sent rest ih =>
      unfold stageSnapshotRecords
      split
      · exact ⟨_, rfl⟩
      · split
        · exact ⟨_, rfl⟩
        · rename_i staged _
          obtain ⟨later, same⟩ := ih { destination with records := staged }
          exact ⟨later, same⟩

/-- Snapshot records are offered in order; a batch that was accepted whole has
offered all of them. -/
theorem stage_snapshot_effect (topology : TopologySnapshot) (offered : Bytes → Record → Prop)
    (records : List MigrationRecord)
    (sound : ∀ sent ∈ records, ∃ record, sent.Carries sent.key record ∧ offered sent.key record)
    (destination : DestinationMigration) :
    Extends Record.version
        (fun key record => destination.range.contains (topology.keyToken hashing key) = true ∧
          offered key record)
        destination.records (stageSnapshotRecords hashing topology destination records).1.records ∧
      ((stageSnapshotRecords hashing topology destination records).2 = none →
        ∀ sent ∈ records, ∀ key record, sent.Carries key record →
          Reaches Record.version (stageSnapshotRecords hashing topology destination records).1.records key
            record.version) := by
  induction records generalizing destination with
  | nil =>
      refine ⟨Extends.refl _, ?_⟩
      intro _ sent member
      exact absurd member (by simp)
  | cons sent rest ih =>
      unfold stageSnapshotRecords
      by_cases inside : destination.range.contains (topology.keyToken hashing sent.key) = true
      · obtain ⟨record, carried, fresh⟩ := sound sent List.mem_cons_self
        simp only [inside, Bool.true_eq_false, ↓reduceIte, stage_carried _ _ _ _ carried]
        obtain ⟨extended, complete⟩ :=
          ih (fun later member => sound later (List.mem_cons_of_mem _ member))
          { destination with records := offer Record.version destination.records sent.key record }
        -- The record is offered to its key, and the rest of the page to what that leaves.
        have first : Extends Record.version
            (fun key record => destination.range.contains (topology.keyToken hashing key) = true ∧
              offered key record)
            destination.records (offer Record.version destination.records sent.key record) :=
          Extends.offer _ _ _ ⟨inside, fresh⟩
        refine ⟨first.trans extended, ?_⟩
        intro accepted later member key other carries
        rcases List.mem_cons.mp member with rfl | listed
        · obtain ⟨rfl, rfl⟩ := carried.unique carries
          exact extended.grows _ _ (offer_reaches _ _ _)
        · exact complete accepted later listed key other carries
      · simp only [Bool.not_eq_true] at inside
        simp only [inside, ↓reduceIte]
        refine ⟨Extends.refl _, ?_⟩
        intro accepted
        exact absurd accepted (by simp)

theorem stage_journal_record_cases (topology : TopologySnapshot) (now : Instant)
    (destination : DestinationMigration) (watermark : Nat) (sent : MigrationRecord) (key : Bytes)
    (record : Record) (carried : sent.Carries key record) :
    (∃ status, stageJournalRecord config topology now destination watermark sent =
      (destination, some status)) ∨
      ∃ receipted,
        (if sent.mutationId.isEmpty then .ok destination
         else stageDedup destination (journalReceipt sent) config.maxDedupBytes
           topology.timings.receiptRetentionMillis now) = Except.ok receipted ∧
        stageJournalRecord config topology now destination watermark sent =
          ({ receipted with records := offer Record.version destination.records key record, watermark }, none) := by
  unfold stageJournalRecord
  simp only
  split
  · rename_i status _
    exact Or.inl ⟨status, rfl⟩
  · rename_i receipted accepted
    have frame : receipted.records = destination.records := by
      split at accepted
      · obtain rfl := Except.ok.inj accepted
        rfl
      · obtain ⟨_, _, rfl⟩ := stage_dedup_frame _ _ _ _ _ _ accepted
        rfl
    refine Or.inr ⟨receipted, accepted, ?_⟩
    rw [stage_carried _ _ _ _ carried, frame]

/-- The step from `before` to `after` staged the journal entry the destination
was waiting for. -/
structure JournalStep (topology : TopologySnapshot) (now : Instant) (entry : JournalRecord)
    (sent : MigrationRecord)
    (key : Bytes) (record : Record) (before receipted after : DestinationMigration) : Prop where
  found : entry.record = some sent
  carried : sent.Carries key record
  next : entry.watermark = before.watermark + 1
  inside : before.range.contains (topology.keyToken hashing key) = true
  receipt : (if sent.mutationId.isEmpty then .ok before
    else stageDedup before (journalReceipt sent) config.maxDedupBytes
      topology.timings.receiptRetentionMillis now) =
      Except.ok receipted
  result : after =
    { receipted with
      records := offer Record.version before.records key record
      watermark := entry.watermark }

theorem JournalStep.frame {hashing : Hashing} {config : NodeConfig} {topology : TopologySnapshot}
    {now : Instant} {entry : JournalRecord} {sent : MigrationRecord} {key : Bytes} {record : Record}
    {before receipted after : DestinationMigration}
    (step : JournalStep hashing config topology now entry sent key record before receipted after) :
    ∃ dedup dedupBytes, after =
      { before with
        dedup, dedupBytes
        records := offer Record.version before.records key record
        watermark := entry.watermark } := by
  have receipt := step.receipt
  rw [step.result]
  split at receipt
  · obtain rfl := Except.ok.inj receipt
    exact ⟨_, _, rfl⟩
  · obtain ⟨dedup, dedupBytes, rfl⟩ := stage_dedup_frame _ _ _ _ _ _ receipt
    exact ⟨_, _, rfl⟩

theorem stage_journal_invariant (topology : TopologySnapshot) (now : Instant)
    (inv : DestinationMigration → Prop) (entries : List JournalRecord)
    (sound : ∀ entry ∈ entries, ∃ key record, entry.Carries key record)
    (keeps : ∀ entry ∈ entries, ∀ sent key record before receipted after,
      JournalStep hashing config topology now entry sent key record before receipted after →
        inv before → inv after)
    (destination : DestinationMigration) (start : inv destination) :
    inv (stageJournalRecords hashing config topology now destination entries).1 := by
  induction entries generalizing destination with
  | nil => exact start
  | cons entry rest ih =>
      have later := ih (fun entry member => sound entry (List.mem_cons_of_mem _ member))
        (fun entry member => keeps entry (List.mem_cons_of_mem _ member))
      unfold stageJournalRecords
      split
      · exact later destination start
      · split
        · exact start
        · rename_i next
          obtain ⟨key, record, sent, found, carried⟩ := sound entry List.mem_cons_self
          rw [found]
          simp only
          split
          · exact start
          · rename_i inside
            rcases stage_journal_record_cases config topology now destination entry.watermark sent
              key record
              carried with ⟨status, failed⟩ | ⟨receipted, receipt, staged⟩
            · rw [failed]
              exact start
            · rw [staged]
              apply later
              apply keeps entry List.mem_cons_self sent key record destination receipted _ _ start
              rw [carried.key, Bool.not_eq_false] at inside
              exact ⟨found, carried, not_not.mp next, inside, receipt, rfl⟩

theorem apply_batch_pending (clock : Clock) (state : NodeState) (request : ApplyMigrationBatchRequest)
    (staged : DestinationMigration)
    (held : state.destinations.lookup ⟨request.changeId, request.rangeId⟩ = some staged)
    (pending : staged.committed = false) :
    applyMigrationBatch hashing config clock state request =
      ({ state with
         destinations := state.destinations.insert ⟨request.changeId, request.rangeId⟩
           (stageBatch hashing config state.topology clock staged request.snapshotRecords
             request.journalRecords).1 },
        answerOf (stageBatch hashing config state.topology clock staged request.snapshotRecords
          request.journalRecords).2) := by
  simp only [applyMigrationBatch, held, pending, Bool.false_eq_true, ↓reduceIte]

theorem apply_dedup_pending (clock : Clock) (state : NodeState) (request : ApplyDedupBatchRequest)
    (staged : DestinationMigration)
    (held : state.destinations.lookup ⟨request.changeId, request.rangeId⟩ = some staged)
    (pending : staged.committed = false) :
    applyDedupBatch hashing config clock state request =
      ({ state with
         destinations := state.destinations.insert ⟨request.changeId, request.rangeId⟩
           (stageDedupRecords hashing config state.topology clock.later
             (purgeStagedDedup staged clock.now)
             request.records).1 },
        answerOf (stageDedupRecords hashing config state.topology clock.later
          (purgeStagedDedup staged clock.now)
          request.records).2) := by
  simp only [applyDedupBatch, held, pending, Bool.false_eq_true, ↓reduceIte]

end Staging

section Commit

variable (hashing : Hashing) (config : NodeConfig)

theorem remove_keys_fold (keys : List (Token × Bytes)) (state : NodeState) :
    NodeState.OnlyRecords state
      (keys.foldl (fun state entry => state.removeRecordAt entry.1 entry.2) state) ∧
      ∀ probe, (keys.foldl (fun state entry => state.removeRecordAt entry.1 entry.2)
        state).records.lookup probe =
        if probe ∈ keys.map Prod.snd then none else state.records.lookup probe := by
  induction keys generalizing state with
  | nil => exact ⟨NodeState.OnlyRecords.refl state, fun _ => by simp⟩
  | cons entry rest ih =>
      rw [List.foldl_cons]
      obtain ⟨only, lookups⟩ := ih (state.removeRecordAt entry.1 entry.2)
      refine ⟨(NodeState.remove_record_only state entry.1 entry.2).trans only, ?_⟩
      intro probe
      rw [lookups probe, NodeState.lookup_remove_record]
      by_cases listed : probe ∈ rest.map Prod.snd
      · simp [listed]
      · by_cases same : probe = entry.2
        · simp [same]
        · simp [listed, same]

theorem remove_keys_indexed (keys : List (Token × Bytes)) (state : NodeState)
    (placed : ∀ entry ∈ keys, entry.1 = state.tokenOf hashing entry.2)
    (indexed : NodeState.RecordsIndexed hashing state) :
    NodeState.RecordsIndexed hashing
      (keys.foldl (fun state entry => state.removeRecordAt entry.1 entry.2) state) := by
  induction keys generalizing state with
  | nil => exact indexed
  | cons entry rest ih =>
      have here := placed entry List.mem_cons_self
      have sameTopology : (state.removeRecordAt entry.1 entry.2).topology = state.topology := by
        obtain ⟨⟨_, _, _, _, same⟩, _⟩ := NodeState.remove_record_only state entry.1 entry.2
        rw [same]
      apply ih
      · intro later member
        simp only [NodeState.tokenOf, sameTopology]
        exact placed later (List.mem_cons_of_mem _ member)
      · simp only [here]
        exact NodeState.remove_record_indexed hashing state entry.2 indexed

theorem apply_records_only (entries : List (Sigma fun _ : Bytes => Record)) (state : NodeState) :
    NodeState.OnlyRecords state
      (entries.foldl (fun state entry => state.applyRecord hashing entry.1 entry.2) state) := by
  induction entries generalizing state with
  | nil => exact NodeState.OnlyRecords.refl state
  | cons entry rest ih =>
      rw [List.foldl_cons]
      exact (NodeState.apply_record_only hashing state entry.1 entry.2).trans (ih _)

theorem apply_records_fold (entries : List (Sigma fun _ : Bytes => Record)) (distinct : entries.NodupKeys)
    (state : NodeState) (absent : ∀ entry ∈ entries, state.records.lookup entry.1 = none) :
    (NodeState.RecordsIndexed hashing state → NodeState.RecordsIndexed hashing
        (entries.foldl (fun state entry => state.applyRecord hashing entry.1 entry.2) state)) ∧
      ∀ probe, (entries.foldl (fun state entry => state.applyRecord hashing entry.1 entry.2)
        state).records.lookup
          probe = (entries.dlookup probe).orElse fun _ => state.records.lookup probe := by
  induction entries generalizing state with
  | nil => exact ⟨id, fun _ => rfl⟩
  | cons entry rest ih =>
      obtain ⟨key, record⟩ := entry
      obtain ⟨unlisted, later⟩ := List.nodupKeys_cons.mp distinct
      have stored : ∀ probe, (state.applyRecord hashing key record).records.lookup probe =
          if probe = key then some record else state.records.lookup probe := by
        intro probe
        rw [NodeState.lookup_apply_record, absent _ List.mem_cons_self]
        simp
      rw [List.foldl_cons]
      obtain ⟨indexed, lookups⟩ := ih later (state.applyRecord hashing key record) (by
        intro other member
        rw [stored]
        have different : other.1 ≠ key := by
          intro same
          have listed : other.1 ∈ rest.keys := List.mem_keys_of_mem member
          rw [same] at listed
          exact unlisted listed
        rw [if_neg different]
        exact absent other (List.mem_cons_of_mem _ member))
      refine ⟨fun start => indexed (NodeState.apply_record_indexed hashing state key record start), ?_⟩
      intro probe
      rw [lookups probe, stored]
      by_cases same : probe = key
      · subst probe
        have missing : rest.dlookup key = none := List.dlookup_eq_none.mpr unlisted
        simp [missing, List.dlookup_cons_eq]
      · rw [List.dlookup_cons_ne _ _ same, if_neg same]

theorem replace_range_effect (state : NodeState) (range : RangeSpec) (records : FiniteMap Bytes Record)
    (indexed : NodeState.RecordsIndexed hashing state)
    (inside : ∀ key record, records.lookup key = some record →
      range.contains (state.tokenOf hashing key) = true) :
    NodeState.OnlyRecords state (replaceRange hashing state range records) ∧
      NodeState.RecordsIndexed hashing (replaceRange hashing state range records) ∧
      ∀ probe, (replaceRange hashing state range records).records.lookup probe =
        if range.contains (state.tokenOf hashing probe) then records.lookup probe
        else state.records.lookup probe := by
  obtain ⟨removed, cleared⟩ := remove_keys_fold (state.recordKeysInRange range) state
  have placed : ∀ entry ∈ state.recordKeysInRange range, entry.1 = state.tokenOf hashing entry.2 := by
    rintro ⟨token, key⟩ member
    exact ((indexed token key).mp ((TokenIndex.mem_inRange _ _ _ _).mp member).1).1
  -- A stored key of the range is listed by the index, so nothing of it survives.
  have emptied : ∀ probe, ((state.recordKeysInRange range).foldl
      (fun state entry => state.removeRecordAt entry.1 entry.2) state).records.lookup probe =
        if range.contains (state.tokenOf hashing probe) then none else state.records.lookup probe := by
    intro probe
    rw [cleared probe]
    by_cases covered : range.contains (state.tokenOf hashing probe) = true
    · simp only [covered, ↓reduceIte]
      by_cases stored : probe ∈ state.records
      · have listed : probe ∈ (state.recordKeysInRange range).map Prod.snd :=
          List.mem_map.mpr ⟨(state.tokenOf hashing probe, probe),
            (TokenIndex.mem_inRange _ _ _ _).mpr ⟨(indexed _ _).mpr ⟨rfl, stored⟩, covered⟩, rfl⟩
        rw [if_pos listed]
      · rw [AList.lookup_eq_none.mpr stored]
        simp
    · have unlisted : probe ∉ (state.recordKeysInRange range).map Prod.snd := by
        intro listed
        obtain ⟨⟨token, key⟩, member, rfl⟩ := List.mem_map.mp listed
        have here := placed _ member
        simp only at here
        rw [← here] at covered
        exact covered ((TokenIndex.mem_inRange _ _ _ _).mp member).2
      rw [if_neg unlisted, if_neg covered]
  have absent : ∀ entry ∈ records.entries, ((state.recordKeysInRange range).foldl
      (fun state entry => state.removeRecordAt entry.1 entry.2) state).records.lookup entry.1 = none := by
    intro entry member
    rw [emptied, inside entry.1 entry.2 ((FiniteMap.lookup_some_iff _ _ _).mpr member)]
    simp
  obtain ⟨stillIndexed, lookups⟩ := apply_records_fold hashing records.entries records.nodupKeys _ absent
  refine ⟨removed.trans (apply_records_only hashing records.entries _),
    stillIndexed (remove_keys_indexed hashing _ state placed indexed), ?_⟩
  intro probe
  have found := lookups probe
  rw [emptied probe] at found
  unfold replaceRange
  rw [found]
  change (records.lookup probe).orElse _ = _
  by_cases covered : range.contains (state.tokenOf hashing probe) = true
  · simp [covered]
  · have unstaged : records.lookup probe = none := by
      cases staged : records.lookup probe with
      | none => rfl
      | some record => exact absurd (inside probe record staged) covered
    simp [covered, unstaged]

theorem adopt_receipt_only (state : NodeState) (id : String) (staged : StagedDedup) :
    OnlyDedup state (adoptReceipt hashing state id staged) := by
  unfold adoptReceipt
  split
  · exact ⟨_, _, _, _, _, rfl⟩
  · split
    · exact ⟨_, _, _, _, _, rfl⟩
    · exact insert_dedup_only hashing state id _ _ _ _ _

theorem adopt_receipts_only (entries : List (Sigma fun _ : String => StagedDedup)) (state : NodeState) :
    OnlyDedup state (entries.foldl (fun state entry => adoptReceipt hashing state entry.1 entry.2)
      state) := by
  induction entries generalizing state with
  | nil => exact ⟨_, _, _, _, _, rfl⟩
  | cons entry rest ih =>
      obtain ⟨_, _, _, _, _, adopted⟩ := adopt_receipt_only hashing state entry.1 entry.2
      obtain ⟨_, _, _, _, _, later⟩ := ih (adoptReceipt hashing state entry.1 entry.2)
      rw [List.foldl_cons, later, adopted]
      exact ⟨_, _, _, _, _, rfl⟩

/-- A commit that answers success on a prepared range: no staged receipt
contradicts a live one, and the range was replaced before the rest was adopted. -/
theorem commit_accepted (clock : Clock) (state : NodeState) (key : RangeKey)
    (destination : DestinationMigration) (found : state.destinations.lookup key = some destination)
    (pending : destination.committed = false)
    (accepted : (commitDestinationRange hashing config clock state key).2 = .ok ()) :
    let purged := purgeExpiredDedup hashing state clock.later
    let live := destination.dedup.retain fun _ entry => clock.now < entry.expiresAt
    (∀ id staged, live.lookup id = some staged → stagedConflicts purged staged = false) ∧
      ∃ destinations, (commitDestinationRange hashing config clock state key).1 =
        { live.entries.foldl (fun state entry => adoptReceipt hashing state entry.1 entry.2)
            (replaceRange hashing purged destination.range destination.records) with destinations } := by
  unfold commitDestinationRange at accepted ⊢
  simp only [found, pending, Bool.false_eq_true, ↓reduceIte] at accepted ⊢
  split at accepted
  · exact absurd accepted (by simp)
  · rename_i agreed
    split at accepted
    · exact absurd accepted (by simp)
    · rename_i room
      simp only [agreed, Bool.false_eq_true, ↓reduceIte, room]
      refine ⟨?_, _, rfl⟩
      intro id staged stored
      have member := (FiniteMap.mem_values_iff _ _).mpr ⟨id, stored⟩
      have none_conflicts := List.any_eq_false.mp (Bool.not_eq_true _ ▸ agreed) staged member
      exact Bool.not_eq_true _ ▸ none_conflicts

/-- Records after an accepted commit: the staged ones inside the range, the old
ones outside. -/
theorem commit_records (clock : Clock) (state : NodeState) (key : RangeKey)
    (destination : DestinationMigration) (found : state.destinations.lookup key = some destination)
    (pending : destination.committed = false) (indexed : NodeState.RecordsIndexed hashing state)
    (inside : ∀ key record, destination.records.lookup key = some record →
      destination.range.contains (state.tokenOf hashing key) = true)
    (accepted : (commitDestinationRange hashing config clock state key).2 = .ok ()) (probe : Bytes) :
    (commitDestinationRange hashing config clock state key).1.records.lookup probe =
      if destination.range.contains (state.tokenOf hashing probe) then destination.records.lookup probe
      else state.records.lookup probe := by
  obtain ⟨_, destinations, result⟩ :=
    commit_accepted hashing config clock state key destination found pending accepted
  have purge := purge_expired_only hashing state clock.later
  generalize purgeExpiredDedup hashing state clock.later = purged at result purge
  obtain ⟨_, _, _, _, _, _, _, _, _, same⟩ := purge
  obtain ⟨_, _, _, _, _, adopted⟩ := adopt_receipts_only hashing
    (destination.dedup.retain fun _ entry => clock.now < entry.expiresAt).entries
    (replaceRange hashing purged destination.range destination.records)
  have replaced := (replace_range_effect hashing purged destination.range destination.records
    (by rw [same]; exact indexed) (by rw [same]; exact inside)).2.2 probe
  have sameRecords : purged.records = state.records := by rw [same]
  have sameTopology : purged.topology = state.topology := by rw [same]
  rw [sameRecords, NodeState.tokenOf, sameTopology] at replaced
  rw [result, adopted]
  exact replaced

end Commit
end Hashring
