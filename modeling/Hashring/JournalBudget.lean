import Hashring.StoreSections
import Hashring.Transition

/-! The journals of a node's source ranges and the one budget they share. Every
accepted write enters the journal of each range that covers its token, under that
range's next watermark, and the bytes charged for it leave with the range. -/
namespace Hashring

def JournalRecord.chargedBytes (entry : JournalRecord) : Nat := entry.record.elim 0 migrationRecordSize

/-- What writes have made of a source range, its fence and deferred expirations
apart. -/
def SourceMigration.journaled (source : SourceMigration) : RangeSpec × List JournalRecord × Nat × Nat :=
  (source.range, source.journal, source.journalBytes, source.watermark)

/-- The account of the journals is the sum over the source ranges. -/
def JournalsCharged (state : NodeState) : Prop :=
  state.journalBytesTotal = FiniteMap.total (·.journalBytes) state.sources

structure JournalsEnd (before after : NodeState) : Prop where
  kept : ∀ key source, after.sources.lookup key = some source →
    (before.sources.lookup key).map SourceMigration.journaled = some source.journaled
  total : JournalsCharged before → JournalsCharged after
  bytes : after.journalBytesTotal ≤ before.journalBytesTotal

namespace JournalsEnd

variable {before after : NodeState}

theorem refl (state : NodeState) : JournalsEnd state state :=
  ⟨fun _ _ found => by rw [found]; rfl, id, le_refl _⟩

theorem trans {first second third : NodeState} (early : JournalsEnd first second)
    (late : JournalsEnd second third) :
    JournalsEnd first third where
  kept key source found := by
    obtain ⟨middle, held, same⟩ := Option.map_eq_some_iff.mp (late.kept key source found)
    exact (early.kept key middle held).trans (congrArg some same)
  total charged := late.total (early.total charged)
  bytes := late.bytes.trans early.bytes

theorem of_same (same : ∀ key, (after.sources.lookup key).map SourceMigration.journaled =
      (before.sources.lookup key).map SourceMigration.journaled)
    (total : after.journalBytesTotal = before.journalBytesTotal) : JournalsEnd before after where
  kept key source found := by
    rw [← same key, found]
    rfl
  total charged := by
    rw [JournalsCharged, total, charged]
    refine FiniteMap.total_congr fun key => ?_
    have bytes := congrArg (Option.map fun journaled : RangeSpec × List JournalRecord × Nat × Nat =>
        journaled.2.2.1) (same key)
    rw [Option.map_map, Option.map_map] at bytes
    exact bytes.symm
  bytes := le_of_eq total

theorem of_stores (same : SameStores before after) : JournalsEnd before after :=
  of_same (fun _ => by rw [same.sources]) same.journalBytesTotal

theorem of_sources (same : SameSources before.sources after.sources)
    (total : after.journalBytesTotal = before.journalBytesTotal) : JournalsEnd before after := by
  refine of_same (fun key => ?_) total
  have journals : ∀ found : Option SourceMigration, found.map SourceMigration.journaled =
      (found.map SourceMigration.undeferred).map SourceMigration.journaled := by
    intro found
    rw [Option.map_map]
    rfl
  rw [journals, same key, ← journals]

theorem of_records (only : NodeState.OnlyRecords before after) : JournalsEnd before after := by
  refine of_sources only.2 ?_
  obtain ⟨⟨_, _, _, _, rfl⟩, _⟩ := only
  rfl

theorem of_receipts (only : OnlyReceipts before after) : JournalsEnd before after := by
  obtain ⟨_, _, _, _, _, _, _, _, _, rfl⟩ := only
  exact of_same (fun _ => rfl) rfl

theorem remove_source (state : NodeState) (key : RangeKey) :
    JournalsEnd state (state.removeSource key) := by
  unfold NodeState.removeSource
  split
  · exact refl state
  · rename_i source found
    refine ⟨?_, ?_, Nat.sub_le _ _⟩
    · intro probe other kept
      rw [FiniteMap.lookup_erase_if] at kept
      split at kept
      · exact absurd kept (by simp)
      · rw [kept]
        rfl
    · intro charged
      have erased : FiniteMap.total (·.journalBytes) (state.sources.erase key) +
          source.journalBytes = _ :=
        FiniteMap.total_erase found
      rw [JournalsCharged] at charged ⊢
      simp only
      omega

theorem with_destinations (ended : JournalsEnd before after)
    (destinations : FiniteMap RangeKey DestinationMigration) :
    JournalsEnd before { after with destinations } := ⟨ended.kept, ended.total, ended.bytes⟩

theorem range {hashing : Hashing} {config : NodeConfig} {operation : RangeOperation}
    (step : RangeSection hashing config before operation after)
    (unprepared : ∀ request, operation ≠ .prepareSource request) :
    JournalsEnd before after := by
  cases step with
  | kept same => exact of_stores same.toSameStores
  | refused clock key => exact of_receipts (purge_expired_only hashing before clock.later)
  | source range => exact absurd rfl (unprepared _)
  | paused key source found =>
      refine of_same (fun probe => ?_) rfl
      rw [FiniteMap.lookup_insert_if]
      split
      · rename_i here
        rw [here, found]
        rfl
      · rfl
  | destination | batch | receipts | activated => exact of_same (fun _ => rfl) rfl
  | committed clock key destination =>
      have purged : JournalsEnd before _ := of_receipts (purge_expired_only hashing before clock.later)
      have replaced := of_records
          (replace_range_only hashing (purgeExpiredDedup hashing before clock.later)
        destination.range destination.records)
      have adopted := of_receipts
          (adopt_receipts_only hashing (destination.liveDedup clock.now).entries
          (replaceRange hashing
        (purgeExpiredDedup hashing before clock.later) destination.range destination.records)).receipts
      exact ((purged.trans replaced).trans adopted).with_destinations _
  | cleaned key source found =>
      have dropped := of_records (remove_keys_fold (droppedKeys config before source.range) before).1
      exact dropped.trans (remove_source _ key)
  | aborted key => exact (remove_source before key).with_destinations _
  | cleared epoch =>
      have released := remove_sources_rule refl trans (fun key state => remove_source state key)
        (before.sources.keys.filter fun key => NodeState.isRepairId key.changeId) before
      exact released.with_destinations _

theorem handle {hashing : Hashing} {config : NodeConfig} {process : NodeProcess} {event : NodeEvent}
    (unwritten : ∀ clock request ready, event ≠ .commit clock request ready)
    (unprepared : ∀ request, event ≠ .range (.prepareSource request)) :
    JournalsEnd process.state (process.handle hashing config event).state := by
  refine handle_rule (?_ : StoreRule hashing config process.state event JournalsEnd)
  exact {
    refl := refl
    trans := trans
    stores := fun _ _ same => of_stores same.toSameStores
    purge := fun now before => of_receipts (purge_expired_only hashing before now)
    write := fun clock request ready same => absurd same (unwritten clock request ready)
    acks := fun id version before => of_receipts (complete_required_acks_only before id version)
    entry := by
      intro clock entry _ before record _ _
      have stored := of_records (NodeState.apply_record_only hashing before entry.key record)
      obtain ⟨_, filed⟩ := accept_entry_only hashing clock before entry record
      refine stored.trans (trans ?_ (of_receipts filed))
      exact of_same (fun _ => rfl) rfl
    range := fun operation same after step => range step fun request other => unprepared request
      (same.trans (by rw [other]))
    sweep := fun _ _ _ entry before _ _ => of_records (sweep_entry_swept hashing before entry).only
    release := fun key before => remove_source before key
    unprepare := fun before destinations _ => (refl before).with_destinations destinations
    adopt := by
      intro topology _ _ before _
      unfold NodeState.setTopology
      split <;> exact of_same (fun _ => rfl) rfl }

end JournalsEnd

structure LoggedWrite where
  token : Token
  request : WriteRequest
  version : RecordVersion

def LoggedWrite.Entered (write : LoggedWrite) (entry : JournalRecord) : Prop :=
  ∃ sent, entry.record = some sent ∧ sent.key = write.request.key ∧
    sent.mutationId = write.request.requestId ∧
    sent.version = some write.version ∧ sent.deleted = write.request.isDelete

/-- A node with the writes it has accepted so far, and how many of them there were
when each source range was prepared. -/
structure JournalNode where
  process : NodeProcess
  log : List LoggedWrite := []
  since : RangeKey → Nat := fun _ => 0

namespace JournalNode

variable (hashing : Hashing) (config : NodeConfig)

def logged (before after : NodeState) : NodeEvent → List LoggedWrite
  | .commit _ request ready =>
      if after.nextSequence = before.nextSequence then []
      else [⟨ready.token, request, ⟨after.topology.epoch, after.nextSequence, config.nodeId⟩⟩]
  | _ => []

def Step (before : JournalNode) (event : NodeEvent) (after : JournalNode) : Prop :=
  ∃ process, NodeProcess.Step hashing config before.process event process ∧
    after = { process
              log := before.log ++ logged config before.process.state process.state event
              since := fun key => if key ∈ before.process.state.sources then before.since key
                else before.log.length }

def writesTo (node : JournalNode) (key : RangeKey) (range : RangeSpec) : List LoggedWrite :=
  (node.log.drop (node.since key)).filter fun write => range.contains write.token

structure Journals (source : SourceMigration) (writes : List LoggedWrite) : Prop where
  entered : List.Forall₂ LoggedWrite.Entered writes source.journal
  watermarks : source.journal.map (·.watermark) = List.range' 1 source.watermark
  bytes : source.journalBytes = (source.journal.map JournalRecord.chargedBytes).sum

structure Exact (node : JournalNode) : Prop where
  each : ∀ key source, node.process.state.sources.lookup key = some source →
    node.since key ≤ node.log.length ∧ Journals source (node.writesTo key source.range)
  total : JournalsCharged node.process.state
  bounded : node.process.state.journalBytesTotal ≤ config.maxJournalBytes

variable {hashing config}

theorem Journals.same {source moved : SourceMigration} {writes : List LoggedWrite}
    (journals : Journals source writes)
    (same : source.journaled = moved.journaled) : Journals moved writes := by
  simp only [SourceMigration.journaled, Prod.mk.injEq] at same
  obtain ⟨_, journal, bytes, watermark⟩ := same
  exact ⟨journal ▸ journals.entered, journal ▸ watermark ▸ journals.watermarks,
    bytes ▸ journal ▸ journals.bytes⟩

theorem journal_entry_charged (plan : WritePlan) (version : RecordVersion) (watermark : Nat) :
    (journalEntry plan (plan.record version) watermark).chargedBytes = plan.journalRecordBytes := rfl

theorem Journals.write {source : SourceMigration} {writes : List LoggedWrite}
    (journals : Journals source writes) {write : LoggedWrite} {plan : WritePlan}
    (key : plan.key = write.request.key) (id : plan.requestId = write.request.requestId)
    (deleted : plan.deleted = write.request.isDelete) :
    Journals (journalWrite plan (plan.record write.version) source) (writes ++ [write]) where
  entered := by
    refine List.rel_append journals.entered (.cons ?_ .nil)
    exact ⟨_, rfl, key, id, rfl, deleted⟩
  watermarks := by
    simp only [journalWrite, List.map_append, journals.watermarks, List.map_cons, List.map_nil,
      List.range'_1_concat]
    rw [show source.watermark + 1 = 1 + source.watermark from Nat.add_comm _ _]
    rfl
  bytes := by
    simp only [journalWrite, List.map_append, List.sum_append, List.map_cons, List.map_nil,
      List.sum_cons, List.sum_nil,
      journals.bytes, journal_entry_charged, Nat.add_zero]

theorem stored_write_journals {clock : Clock} {state after prepared : NodeState}
    {request : WriteRequest} {ready : Readiness} {plan : WritePlan}
    {entries : List PreparedReplication}
    (stored : StoredWrite hashing config clock state after request ready plan entries prepared) :
    SameSources (journalSources ready.token plan (plan.record (WritePlan.version config state))
      state.sources) after.sources ∧
      after.journalBytesTotal = state.journalBytesTotal + journalGrowth state ready.token plan := by
  have effect := store_write_effect hashing clock prepared plan
    (plan.record (WritePlan.version config state)) ready.token
    ready.followers entries
  rw [← stored.result] at effect
  constructor
  · obtain ⟨_, _, numbered⟩ := prepare_frame _ _ _ _ stored.fanned
    have sources := effect.sources
    rw [numbered] at sources
    exact sources
  · obtain ⟨base, same, rfl⟩ := stored.parts
    obtain ⟨⟨_, _, _, _, moved⟩, _⟩ :=
      store_record_only hashing base plan (plan.record (WritePlan.version config state))
    obtain ⟨_, _, _, _, _, filed⟩ := insert_dedup_only hashing (journalState ready.token plan
      (plan.record (WritePlan.version config state)) (journalGrowth state ready.token plan)
      (storeRecord hashing base plan (plan.record (WritePlan.version config state)))) plan.requestId
        plan.key plan.fingerprint
      (WritePlan.version config state) plan.deleted (clock.later +
        (storeRecord hashing base plan
          (plan.record (WritePlan.version config state))).topology.timings.receiptRetention)
    have total : (storeRecord hashing base plan
        (plan.record (WritePlan.version config state))).journalBytesTotal =
        state.journalBytesTotal := by
      rw [moved]
      exact same.journalBytesTotal
    rw [← total]
    exact congrArg NodeState.journalBytesTotal filed

/-- The writes to a range after one more event that the node took while it held
the range. -/
theorem writes_to_held {before after : JournalNode} {key : RangeKey} {writes : List LoggedWrite}
    (log : after.log = before.log ++ writes) (since : after.since key = before.since key)
    (bound : before.since key ≤ before.log.length) (range : RangeSpec) :
    after.since key ≤ after.log.length ∧
      after.writesTo key range = before.writesTo key range ++ writes.filter fun write =>
        range.contains write.token := by
  constructor
  · rw [log, since, List.length_append]
    omega
  · rw [writesTo, log, since, List.drop_append_of_le_length bound, List.filter_append]
    rfl

theorem Exact.ended {before after : JournalNode} (exact_ : before.Exact config)
    (log : after.log = before.log)
    (since : ∀ key, key ∈ before.process.state.sources → after.since key = before.since key)
    (ended : JournalsEnd before.process.state after.process.state) : after.Exact config where
  each key source found := by
    obtain ⟨old, held, same⟩ := Option.map_eq_some_iff.mp (ended.kept key source found)
    obtain ⟨bound, journals⟩ := exact_.each key old held
    have present : key ∈ before.process.state.sources := (FiniteMap.mem_iff_lookup _ _).mpr ⟨old, held⟩
    obtain ⟨later, writes⟩ := writes_to_held (log.trans (List.append_nil _).symm)
      (since key present) bound source.range
    have range : old.range = source.range := congrArg Prod.fst same
    rw [writes, List.filter_nil, List.append_nil, ← range]
    exact ⟨later, journals.same same⟩
  total := ended.total exact_.total
  bounded := ended.bytes.trans exact_.bounded

theorem Exact.stored {before after : JournalNode} (exact_ : before.Exact config) {clock : Clock}
    {request : WriteRequest}
    {ready : Readiness} {plan : WritePlan} {entries : List PreparedReplication} {prepared : NodeState}
    (stored : StoredWrite hashing config clock before.process.state after.process.state request
      ready plan entries prepared)
    (log : after.log = before.log ++
      [⟨ready.token, request, WritePlan.version config before.process.state⟩])
    (since : ∀ key, key ∈ before.process.state.sources → after.since key = before.since key) :
    after.Exact config := by
  obtain ⟨sources, total⟩ := stored_write_journals stored
  obtain ⟨key, id, deleted⟩ : plan.key = request.key ∧ plan.requestId = request.requestId ∧
      plan.deleted = request.isDelete := by
    cases stored.planned with
    | put key id _ kept => exact ⟨key, id, kept⟩
    | delete key id _ removed => exact ⟨key, id, removed⟩
  -- The bytes grow by one entry for each source that covers the token, in the sum and in
  -- the total the node keeps.
  have charged : JournalsCharged after.process.state := by
    have grown : FiniteMap.total (·.journalBytes) (journalSources ready.token plan
        (plan.record (WritePlan.version config before.process.state)) before.process.state.sources) =
          FiniteMap.total (·.journalBytes) before.process.state.sources +
            journalGrowth before.process.state ready.token plan :=
      FiniteMap.total_grow (fun source : SourceMigration => source.range.contains ready.token) _
        plan.journalRecordBytes
        fun _ _ => rfl
    have same : FiniteMap.total (·.journalBytes) after.process.state.sources = FiniteMap.total
        (·.journalBytes)
        (journalSources ready.token plan (plan.record (WritePlan.version config before.process.state))
          before.process.state.sources) := by
      apply FiniteMap.total_congr
      intro probe
      have equal := congrArg (Option.map SourceMigration.journalBytes) (sources probe)
      rw [Option.map_map, Option.map_map] at equal
      exact equal
    rw [JournalsCharged, total, same, grown, exact_.total]
  refine ⟨?_, charged, ?_⟩
  · intro probe source found
    obtain ⟨middle, held, undeferred⟩ := sources.lookup_some found
    rw [journalSources, FiniteMap.lookup_mapValues] at held
    obtain ⟨old, known, moved⟩ := Option.map_eq_some_iff.mp held
    obtain ⟨bound, journals⟩ := exact_.each probe old known
    have present : probe ∈ before.process.state.sources := (FiniteMap.mem_iff_lookup _ _).mpr ⟨old, known⟩
    obtain ⟨later, writes⟩ := writes_to_held log (since probe present) bound source.range
    have same : middle.undeferred.journaled = source.undeferred.journaled :=
      congrArg SourceMigration.journaled undeferred
    have range : old.range = source.range := by
      rw [← show middle.range = source.range from congrArg Prod.fst same, ← moved]
      split <;> rfl
    replace same : middle.journaled = source.journaled := same
    refine ⟨later, ?_⟩
    rw [writes, List.filter_singleton, ← range]
    rw [← moved] at same
    cases covered : old.range.contains ready.token with
    | false =>
        rw [covered, if_neg Bool.false_ne_true] at same
        simp only [cond_false, List.append_nil]
        exact journals.same same
    | true =>
        rw [covered, if_pos rfl] at same
        exact (journals.write key id deleted).same same
  · rw [total]
    exact stored.journals

theorem Exact.prepared {before after : JournalNode} (exact_ : before.Exact config) {range : RangeSpec}
    (fresh : before.process.state.sources.lookup range.key = none)
    (prepared : after.process.state = { before.process.state with
      sources := before.process.state.sources.insert range.key
        (frozenSource before.process.state range) })
    (log : after.log = before.log) (since : ∀ key, key ∈ before.process.state.sources →
      after.since key = before.since key)
    (start : after.since range.key = before.log.length) : after.Exact config := by
  refine ⟨?_, ?_, ?_⟩
  · intro key source found
    rw [prepared, FiniteMap.lookup_insert_if] at found
    split at found
    · rename_i here
      rw [here, ← Option.some.inj found]
      refine ⟨by rw [start, log], ?_⟩
      rw [writesTo, start, log, List.drop_length]
      exact ⟨.nil, rfl, rfl⟩
    · obtain ⟨bound, journals⟩ := exact_.each key source found
      have present : key ∈ before.process.state.sources :=
        (FiniteMap.mem_iff_lookup _ _).mpr ⟨source, found⟩
      obtain ⟨later, writes⟩ := writes_to_held (log.trans (List.append_nil _).symm)
        (since key present) bound source.range
      rw [writes, List.filter_nil, List.append_nil]
      exact ⟨later, journals⟩
  · rw [JournalsCharged, prepared]
    simp only
    rw [FiniteMap.total_insert_new fresh, exact_.total]
    exact (Nat.zero_add _).symm
  · rw [prepared]
    exact exact_.bounded

theorem Exact.handle {before after : JournalNode} (exact_ : before.Exact config) {event : NodeEvent}
    (handled : after.process = before.process.handle hashing config event)
    (log : after.log = before.log ++ logged config before.process.state after.process.state event)
    (since : ∀ key, key ∈ before.process.state.sources → after.since key = before.since key)
    (start : ∀ key, key ∉ before.process.state.sources → after.since key = before.log.length) :
    after.Exact config := by
  by_cases written : ∃ clock request ready, event = .commit clock request ready
  · obtain ⟨clock, request, ready, rfl⟩ := written
    have sections := commit_request_sections hashing config clock before.process request ready
    rw [show (commitRequest hashing config clock before.process request ready).1 = after.process
      from handled.symm] at sections
    have purged := purge_expired_only hashing before.process.state clock.now
    have kept := purged.nextSequence
    simp only [logged] at log
    rcases sections with same | same | ⟨plan, entries, prepared, stored⟩
    · rw [if_pos same.sequence, List.append_nil] at log
      exact exact_.ended log since (.of_stores same.toSameStores)
    · rw [if_pos (same.sequence.trans kept), List.append_nil] at log
      exact exact_.ended log since ((JournalsEnd.of_receipts purged).trans (.of_stores same.toSameStores))
    · -- The receipts that expired go first; the write is made to what they leave.
      let clean : JournalNode :=
        { before with
          process := { before.process with
            state := purgeExpiredDedup hashing before.process.state clock.now } }
      have still : clean.process.state.sources = before.process.state.sources := purged.sources
      have begun : clean.Exact config :=
        exact_.ended rfl (fun _ _ => rfl) (JournalsEnd.of_receipts purged)
      have taken : after.process.state.nextSequence = before.process.state.nextSequence + 1 :=
        stored.sequence.trans (by rw [kept])
      rw [if_neg (by omega), stored.topology, stored.sequence] at log
      exact begun.stored stored log fun key member => since key (still ▸ member)
  · -- Any other event logs nothing; only a preparation begins a journal.
    have quiet : logged config before.process.state after.process.state event = [] := by
      cases event with
      | commit clock request ready => exact absurd ⟨clock, request, ready, rfl⟩ written
      | finishAcks | replicate | replicateBatch | checkpoint | range | sweep | install | refresh
        | renewed | pausePolicy | resumePolicy | collect | send | answered => rfl
    rw [quiet, List.append_nil] at log
    by_cases prepared : ∃ request, event = .range (.prepareSource request)
    · obtain ⟨request, rfl⟩ := prepared
      have step := perform_sections hashing config before.process.state (.prepareSource request)
      have result : after.process.state =
          (RangeOperation.perform hashing config before.process.state (.prepareSource request)).1 :=
        congrArg NodeProcess.state handled
      rw [← result] at step
      generalize moved : after.process.state = ended at step
      cases step with
      | kept same =>
          refine exact_.ended log since ?_
          rw [moved]
          exact .of_stores same.toSameStores
      | source range valid own fresh =>
          exact exact_.prepared fresh moved log since (start range.key (AList.lookup_eq_none.mp fresh))
    · have ended : JournalsEnd before.process.state after.process.state := by
        rw [handled]
        exact JournalsEnd.handle (fun clock request ready same => written ⟨clock, request, ready, same⟩)
          (fun request same => prepared ⟨request, same⟩)
      exact exact_.ended log since ended

theorem Step.exact {before after : JournalNode} {event : NodeEvent}
    (step : Step hashing config before event after)
    (exact_ : before.Exact config) : after.Exact config := by
  obtain ⟨_, ⟨sources, reordered, rfl⟩, rfl⟩ := step
  have lookups : ∀ key, sources.lookup key = before.process.state.sources.lookup key :=
    fun key => AList.perm_lookup reordered
  have members : ∀ key, key ∈ sources ↔ key ∈ before.process.state.sources := by
    intro key
    rw [FiniteMap.mem_iff_lookup, FiniteMap.mem_iff_lookup, lookups key]
  -- The node as it was, its source ranges in the order the event meets them.
  let shuffled : JournalNode :=
    { before with process := { before.process with state := { before.process.state with sources } } }
  have start : shuffled.Exact config := by
    refine ⟨?_, ?_, exact_.bounded⟩
    · intro key source found
      exact exact_.each key source ((lookups key).symm.trans found)
    · exact exact_.total.trans (FiniteMap.total_perm reordered.symm)
  refine start.handle rfl rfl ?_ ?_
  · exact fun key member => if_pos ((members key).mp member)
  · exact fun key absent => if_neg fun member => absent ((members key).mpr member)

/-- A write that took no sequence, or that was not answered as accepted, has left
every journal as it was. -/
theorem refused_adds_nothing (clock : Clock) (process : NodeProcess) (request : WriteRequest)
    (ready : Readiness)
    (refused : (commitRequest hashing config clock process request ready).1.state.nextSequence =
      process.state.nextSequence ∨
      ∀ version epoch required, (commitRequest hashing config clock process request ready).2 ≠
        .awaitAcks version epoch required) :
    (commitRequest hashing config clock process request ready).1.state.sources = process.state.sources ∧
      (commitRequest hashing config clock process request ready).1.state.journalBytesTotal =
        process.state.journalBytesTotal := by
  have purged : (purgeExpiredDedup hashing process.state clock.now).sources = process.state.sources ∧
      (purgeExpiredDedup hashing process.state clock.now).journalBytesTotal =
          process.state.journalBytesTotal := by
    obtain ⟨_, _, _, _, _, _, _, _, _, only⟩ := purge_expired_only hashing process.state clock.now
    rw [only]
    exact ⟨rfl, rfl⟩
  have kept := (purge_expired_only hashing process.state clock.now).nextSequence
  have cases := commit_request_cases hashing config clock process request ready
  generalize commitRequest hashing config clock process request ready = result at cases refused
  cases cases with
  | invalid | unroutable | notOwner | moved => exact ⟨rfl, rfl⟩
  | answered | declined => exact purged
  | planned shape valid plan owned current fresh sameKey sameId sameFingerprint sameDeleted _ ended =>
      cases ended with
      | refused | rolledBack => exact purged
      | stored prepared entries dispatch unfenced fanned reserved =>
          obtain ⟨_, _, _, _, _, _, _, _, _, _, _, written⟩ :=
            (store_write_effect hashing clock prepared plan
            (plan.record (WritePlan.version config
              (purgeExpiredDedup hashing process.state clock.now))) ready.token
            ready.followers entries).frame
          rcases refused with idle | unanswered
          · rw [written] at idle
            simp only [WritePlan.record, Record.stored, WritePlan.version, kept] at idle
            omega
          · exact absurd rfl (unanswered _ _ _)

end JournalNode

/-- Migration journals are contiguous and exactly budgeted. After any run, the
journal of every source range holds one entry for each write accepted at a token of
the range since it was prepared, in order and under watermarks 1, 2, and so on; the
ranges' bytes are the sums of their entries' charges, and the node's total the sum
over its ranges and within the budget. A refused write adds nothing, and an ended
range gives back its own bytes. -/
theorem journals_contiguous_budgeted (hashing : Hashing) (config : NodeConfig)
    (topology : TopologySnapshot)
    (events : List NodeEvent) (node : JournalNode)
    (run : Transition.Run (JournalNode.Step hashing config) { process := { state := { topology } } }
      events node) :
    (∀ key source, node.process.state.sources.lookup key = some source →
      source.watermark = (node.writesTo key source.range).length ∧
      source.journal.map (·.watermark) = List.range' 1 source.watermark ∧
      List.Forall₂ LoggedWrite.Entered (node.writesTo key source.range) source.journal ∧
      source.journalBytes = (source.journal.map JournalRecord.chargedBytes).sum ∧
      (node.process.state.removeSource key).journalBytesTotal + source.journalBytes =
        node.process.state.journalBytesTotal ∧
      ∀ other, other ≠ key →
        (node.process.state.removeSource key).sources.lookup other =
          node.process.state.sources.lookup other) ∧
    node.process.state.journalBytesTotal = (node.process.state.sources.values.map (·.journalBytes)).sum ∧
    node.process.state.journalBytesTotal ≤ config.maxJournalBytes ∧
    ∀ clock request ready,
      ((commitRequest hashing config clock node.process request ready).1.state.nextSequence =
        node.process.state.nextSequence ∨
        ∀ version epoch required,
          (commitRequest hashing config clock node.process request ready).2 ≠
            .awaitAcks version epoch required) →
      (commitRequest hashing config clock node.process request ready).1.state.sources =
        node.process.state.sources ∧
        (commitRequest hashing config clock node.process request ready).1.state.journalBytesTotal =
          node.process.state.journalBytesTotal := by
  have exact_ : node.Exact config := by
    refine Transition.run_invariant (fun _ => True) (fun node => node.Exact config) ?_ run
      (fun _ _ => trivial) ?_
    · exact fun before event after _ exact_ step => step.exact exact_
    · exact ⟨fun _ _ found => absurd found (by simp), rfl, Nat.zero_le _⟩
  refine ⟨?_, exact_.total, exact_.bounded, fun clock => JournalNode.refused_adds_nothing clock
    node.process⟩
  intro key source found
  obtain ⟨_, journals⟩ := exact_.each key source found
  have length : source.watermark = (node.writesTo key source.range).length := by
    have entries := congrArg List.length journals.watermarks
    rw [List.length_map, List.length_range'] at entries
    rw [journals.entered.length_eq, entries]
  refine ⟨length, journals.watermarks, journals.entered, journals.bytes, ?_, ?_⟩
  · have covered : source.journalBytes ≤ node.process.state.journalBytesTotal := by
      rw [exact_.total]
      exact FiniteMap.weigh_le_total found
    simp only [NodeState.removeSource, found]
    omega
  · intro other different
    simp only [NodeState.removeSource, found]
    rw [FiniteMap.lookup_erase_if, if_neg different]

namespace JournalNode

def sampleConfig : NodeConfig := { nodeId := "a", processInstanceId := "a-1" }

def sampleRange (rangeId : String) (startExclusive : Token) : RangeSpec :=
  { changeId := "change", rangeId, startExclusive, endInclusive := 10, sourceNodeId := "a", destinationNodeId := "b" }

def samplePut : WriteRequest :=
  .put { key := [byte 107], value := [byte 1], topologyEpoch := 1, requestId := "m"
         expiresAtUnixMillis := none, preserveValue := false, precondition := none }

def sampleEvents : List NodeEvent :=
  [.renewed 1 0 { topologyEpoch := 1, leaseDurationMillis := 1000, admittedFollowers := [("b", "b-1")] },
    .range (.prepareSource (some (sampleRange "first" 20))),
      .range (.prepareSource (some (sampleRange "second" 2))),
    .commit (Sample.clock 10) samplePut ⟨5, 7, 1, ["b"]⟩]

def sampleNext (node : JournalNode) (event : NodeEvent) : JournalNode :=
  let process := node.process.handle Sample.hashing sampleConfig event
  { process
    log := node.log ++ logged sampleConfig node.process.state process.state event
    since := fun key => if key ∈ node.process.state.sources then node.since key else node.log.length }

def sampleNode : JournalNode := sampleEvents.foldl sampleNext
    { process := { state := { topology := Sample.topology } } }

end JournalNode

/-- A put into two ranges that overlap: one entry in each journal. -/
theorem journals_two_ranges :
    (∃ source, JournalNode.sampleNode.process.state.sources.lookup ⟨"change", "first"⟩ = some source ∧
      source.watermark = (JournalNode.sampleNode.writesTo ⟨"change", "first"⟩ source.range).length ∧
      source.watermark = 1) ∧
    (∃ source, JournalNode.sampleNode.process.state.sources.lookup ⟨"change", "second"⟩ = some source ∧
      source.watermark = (JournalNode.sampleNode.writesTo ⟨"change", "second"⟩ source.range).length ∧
      source.watermark = 1) := by
  have run : Transition.Run (JournalNode.Step Sample.hashing JournalNode.sampleConfig)
      { process := { state := { topology := Sample.topology } } } JournalNode.sampleEvents
        JournalNode.sampleNode :=
    Transition.total_run _ (fun node event => ⟨_, NodeProcess.step_handle _ _ node.process event, rfl⟩) _ _
  have exact_ := (journals_contiguous_budgeted Sample.hashing JournalNode.sampleConfig
      Sample.topology _ _ run).1
  have first : (JournalNode.sampleNode.process.state.sources.lookup ⟨"change", "first"⟩).map
      (·.watermark) = some 1 := by
    decide +kernel
  have second : (JournalNode.sampleNode.process.state.sources.lookup ⟨"change", "second"⟩).map
      (·.watermark) = some 1 := by
    decide +kernel
  obtain ⟨source, found, watermark⟩ := Option.map_eq_some_iff.mp first
  obtain ⟨other, held, marked⟩ := Option.map_eq_some_iff.mp second
  exact ⟨⟨source, found, (exact_ _ source found).1, watermark⟩,
    ⟨other, held, (exact_ _ other held).1, marked⟩⟩

end Hashring
