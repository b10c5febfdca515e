import Hashring.NodeIndices
import Hashring.RecordReads

/-! What the expiry sweep removes, what it defers, and what becomes of a deferred
record (crates/hashring-node/src/expiry.rs, lib.rs). -/
namespace Hashring

def Record.Past (record : Record) (unixMillis : Nat) : Prop :=
  ∃ deadline, record.expiresAtUnixMillis = some deadline ∧ deadline ≤ unixMillis

structure SweepExact (hashing : Hashing) (unixMillis : Nat) (before after : NodeState) : Prop where
  removed : ∀ key record, before.records.lookup key = some record → after.records.lookup key =
    some record ∨
    after.records.lookup key = none ∧ record.Past unixMillis ∧
      ¬before.Sourced (before.tokenOf hashing key)
  kept : ∀ key record, after.records.lookup key = some record → before.records.lookup key = some record

namespace SweepExact

variable {hashing : Hashing} {unixMillis : Nat} {before after : NodeState}

theorem refl (state : NodeState) : SweepExact hashing unixMillis state state :=
  ⟨fun _ _ found => .inl found, fun _ _ found => found⟩

theorem trans {first second third : NodeState} (swept : Swept hashing first second)
    (early : SweepExact hashing unixMillis first second)
    (late : SweepExact hashing unixMillis second third) :
    SweepExact hashing unixMillis first third where
  removed key record found := by
    rcases early.removed key record found with still | ⟨gone, past, unsourced⟩
    · rcases late.removed key record still with kept | ⟨gone, past, unsourced⟩
      · exact .inl kept
      · refine .inr ⟨gone, past, fun sourced => unsourced ?_⟩
        rw [NodeState.tokenOf, swept.topology]
        exact sourced_same swept.only.2 _ sourced
    · refine .inr ⟨?_, past, unsourced⟩
      -- What is gone does not come back.
      cases back : third.records.lookup key with
      | none => rfl
      | some other => exact absurd (gone.symm.trans (late.kept key other back)) (by simp)
  kept key record found := early.kept key record (late.kept key record found)

theorem entry (indexed : NodeIndexed hashing before) (scheduled : Nat ×ₗ Bytes)
    (due : dueExpiration before unixMillis = some scheduled) :
    SweepExact hashing unixMillis before (sweepEntry hashing before scheduled).1 := by
  obtain ⟨first, passed⟩ := Option.filter_eq_some_iff.mp due
  obtain ⟨record, stored, deadline⟩ :=
    (indexed.expirations.exact scheduled).mp ⟨none, OrderedSet.first_mem _ _ first⟩
  have swept := sweep_entry_swept hashing before scheduled
  refine ⟨fun key found held => ?_, swept.subset⟩
  by_cases sourced : before.Sourced (before.tokenOf hashing key)
  · exact .inl ((swept.kept key sourced).trans held)
  · unfold sweepEntry
    simp only
    split
    · exact .inl held
    · rw [NodeState.lookup_remove_record]
      by_cases here : key = (ofLex scheduled).2
      · subst here
        obtain rfl := Option.some.inj (stored.symm.trans held)
        exact .inr ⟨if_pos rfl, ⟨_, deadline, of_decide_eq_true passed⟩, sourced⟩
      · rw [if_neg here]
        exact .inl held

theorem sweep (limit : Nat) (indexed : NodeIndexed hashing before) :
    SweepExact hashing unixMillis before (sweepExpiredRecords hashing unixMillis limit before).1 := by
  induction limit generalizing before with
  | zero => exact refl before
  | succ limit ih =>
      unfold sweepExpiredRecords
      split
      · exact refl before
      · rename_i scheduled due
        have first := (Option.filter_eq_some_iff.mp due).1
        have next := indexed.sweep_entry scheduled (OrderedSet.first_mem _ _ first)
        exact (entry indexed scheduled due).trans (sweep_entry_swept hashing before scheduled) (ih next)

end SweepExact

/-- No source range holds back an entry it did not hold back before. -/
def DeferredShrinks (before after : NodeState) : Prop :=
  ∀ entry key, after.Waits entry (some key) → before.Waits entry (some key)

namespace DeferredShrinks

variable {hashing : Hashing} {config : NodeConfig} {before after : NodeState}

theorem refl (state : NodeState) : DeferredShrinks state state := fun _ _ => id

theorem trans {first second third : NodeState} (early : DeferredShrinks first second)
    (late : DeferredShrinks second third) :
    DeferredShrinks first third :=
  fun entry key waiting => early entry key (late entry key waiting)

theorem of_sources (same : after.sources = before.sources) : DeferredShrinks before after := by
  intro entry key waiting
  rw [NodeState.Waits, same] at waiting
  exact waiting

theorem of_stores (same : SameStores before after) : DeferredShrinks before after :=
  of_sources same.sources

theorem of_receipts (only : OnlyReceipts before after) : DeferredShrinks before after :=
  of_sources only.sources

theorem forget_deferred (state : NodeState) (dropped : Nat ×ₗ Bytes) :
    DeferredShrinks state { state with sources := NodeState.forgetDeferred dropped state.sources } := by
  rintro entry key ⟨source, found, waiting⟩
  simp only [NodeState.forgetDeferred] at found
  split at found
  · exact ⟨source, found, waiting⟩
  · rename_i picked _
    obtain ⟨old, held, rfl⟩ :=
      Option.map_eq_some_iff.mp ((FiniteMap.lookup_modify _ _ _ _).symm.trans found)
    refine ⟨old, held, ?_⟩
    by_cases here : key = picked.1
    · simp only [here, ↓reduceIte, OrderedSet.mem_erase] at waiting
      exact waiting.2
    · simpa only [here, ↓reduceIte] using waiting

theorem forget_expiration (state : NodeState) (key : Bytes) (deadline : Option Nat) :
    DeferredShrinks state (state.forgetExpiration key deadline) := by
  unfold NodeState.forgetExpiration
  split
  · exact refl state
  · simp only
    split
    · exact of_sources rfl
    · exact forget_deferred state _

theorem insert_record (state : NodeState) (key : Bytes) (record : Record) :
    DeferredShrinks state (state.insertRecord hashing key record) := by
  have replaced : DeferredShrinks state (state.withoutReplaced key) := by
    unfold NodeState.withoutReplaced
    split
    · exact forget_expiration state key _
    · exact refl state
  exact replaced.trans (of_sources (NodeState.insert_record_schedule hashing state key record).2)

theorem apply_record (state : NodeState) (key : Bytes) (record : Record) :
    DeferredShrinks state (state.applyRecord hashing key record) := by
  unfold NodeState.applyRecord
  split
  · split
    · exact refl state
    · exact insert_record state key record
  · exact insert_record state key record

theorem remove_record (state : NodeState) (token : Token) (key : Bytes) :
    DeferredShrinks state (state.removeRecordAt token key) := by
  cases found : state.records.lookup key with
  | none =>
      unfold NodeState.removeRecordAt
      rw [found]
      exact refl state
  | some removed =>
      exact (forget_expiration state key removed.expiresAtUnixMillis).trans
        (of_sources (NodeState.remove_record_schedule state token key removed found).2)

theorem remove_keys (entries : List (Token × Bytes)) (state : NodeState) :
    DeferredShrinks state (entries.foldl (fun state entry => state.removeRecordAt entry.1 entry.2)
      state) := by
  induction entries generalizing state with
  | nil => exact refl state
  | cons entry rest ih => exact (remove_record state entry.1 entry.2).trans (ih _)

theorem apply_records (entries : List (Sigma fun _ : Bytes => Record)) (state : NodeState) :
    DeferredShrinks state (entries.foldl
      (fun state entry => state.applyRecord hashing entry.1 entry.2) state) := by
  induction entries generalizing state with
  | nil => exact refl state
  | cons entry rest ih => exact (apply_record state entry.1 entry.2).trans (ih _)

theorem remove_source (state : NodeState) (key : RangeKey) :
    DeferredShrinks state (state.removeSource key) := by
  unfold NodeState.removeSource
  split
  · exact refl state
  · rintro entry probe ⟨source, found, waiting⟩
    rw [FiniteMap.lookup_erase_if] at found
    split at found
    · exact absurd found (by simp)
    · exact ⟨source, found, waiting⟩

theorem write {clock : Clock} {request : WriteRequest} {ready : Readiness} {plan : WritePlan}
    {entries : List PreparedReplication} {prepared : NodeState}
    (stored : StoredWrite hashing config clock before after request ready plan entries prepared) :
    DeferredShrinks before after := by
  obtain ⟨base, same, rfl⟩ := stored.parts
  have recorded : ∀ state : NodeState, ∀ record,
      DeferredShrinks state (storeRecord hashing state plan record) := by
    intro state record
    unfold storeRecord
    split
    · exact apply_record state plan.key record
    · exact insert_record state plan.key record
  -- A journal entry leaves what its source holds back alone.
  have journaled : ∀ state : NodeState, ∀ record growth,
      DeferredShrinks state (journalState ready.token plan record growth state) := by
    rintro state record growth entry key ⟨source, found, waiting⟩
    simp only [journalState, journalSources, FiniteMap.lookup_mapValues] at found
    obtain ⟨old, held, rfl⟩ := Option.map_eq_some_iff.mp found
    refine ⟨old, held, ?_⟩
    split at waiting
    · exact waiting
    · exact waiting
  have filed : ∀ (state : NodeState) id key fingerprint version deleted now,
      DeferredShrinks state (insertDedup hashing state id key fingerprint version deleted now) :=
    fun _ _ _ _ _ _ _ => of_receipts (insert_dedup_only hashing _ _ _ _ _ _ _).receipts
  have acked : ∀ (state : NodeState) id required cost,
      DeferredShrinks state (setRequiredAcks state id required cost) :=
    fun _ _ _ _ => of_sources rfl
  refine trans ?_ (acked _ _ _ _)
  refine trans ?_ (filed _ _ _ _ _ _ _)
  refine trans ?_ (journaled _ _ _)
  exact (of_stores same).trans (recorded base _)

theorem entry (clock : Clock) (entry : ReplicationEntry) (state : NodeState) :
    DeferredShrinks state (applyReplicationEntry hashing config clock state entry).1 := by
  have met : DeferredShrinks state (state.initStream entry.stream) := of_sources rfl
  have purged := met.trans
      (of_receipts (purge_expired_only hashing (state.initStream entry.stream) clock.now))
  have cases := apply_entry_cases hashing config clock state entry
  generalize applyReplicationEntry hashing config clock state entry = result at cases
  cases cases with
  | malformed => exact refl state
  | redelivered | conflict | gap | stale => exact met
  | refused => exact purged
  | accepted record =>
      have stored : DeferredShrinks state (NodeState.applyRecord hashing
          (purgeExpiredDedup hashing (state.initStream entry.stream) clock.now) entry.key record) :=
        purged.trans (apply_record _ entry.key record)
      obtain ⟨_, filed⟩ := accept_entry_only hashing clock
        (purgeExpiredDedup hashing (state.initStream entry.stream) clock.now) entry record
      refine stored.trans (trans ?_ (of_receipts filed))
      exact of_sources rfl

theorem clear_repairs (state : NodeState) : DeferredShrinks state state.clearReplicaRepairStaging := by
  have released := remove_sources_rule refl trans (fun key state => remove_source state key)
    (state.sources.keys.filter fun key => NodeState.isRepairId key.changeId) state
  exact released.trans (of_sources rfl)

theorem range {operation : RangeOperation} (step : RangeSection hashing config before operation after) :
    DeferredShrinks before after := by
  cases step with
  | kept same => exact of_stores same.toSameStores
  | refused clock => exact of_receipts (purge_expired_only hashing before clock.later)
  | source range _ _ fresh =>
      rintro entry key ⟨source, found, waiting⟩
      rw [FiniteMap.lookup_insert_if] at found
      split at found
      · rw [← Option.some.inj found] at waiting
        exact absurd waiting (OrderedSet.mem_empty _)
      · exact ⟨source, found, waiting⟩
  | paused paused source held =>
      rintro entry key ⟨other, found, waiting⟩
      rw [FiniteMap.lookup_insert_if] at found
      split at found
      · rename_i here
        rw [← Option.some.inj found] at waiting
        exact ⟨source, here ▸ held, waiting⟩
      · exact ⟨other, found, waiting⟩
  | destination | batch | receipts | activated => exact of_sources rfl
  | committed clock _ destination =>
      have purged : DeferredShrinks before (purgeExpiredDedup hashing before clock.later) :=
        of_receipts (purge_expired_only hashing before clock.later)
      have cleared := remove_keys
        ((purgeExpiredDedup hashing before clock.later).recordKeysInRange destination.range)
        (purgeExpiredDedup hashing before clock.later)
      have replaced : DeferredShrinks _
          (replaceRange hashing (purgeExpiredDedup hashing before clock.later)
          destination.range destination.records) :=
        cleared.trans (apply_records destination.records.entries _)
      have adopted := of_receipts (adopt_receipts_only hashing (destination.liveDedup clock.now).entries
        (replaceRange hashing (purgeExpiredDedup hashing before clock.later) destination.range
          destination.records)).receipts
      exact ((purged.trans replaced).trans adopted).trans (of_sources rfl)
  | cleaned key source =>
      exact (remove_keys (droppedKeys config before source.range) before).trans (remove_source _ key)
  | aborted key => exact (remove_source before key).trans (of_sources rfl)
  | cleared => exact clear_repairs before

theorem adopt (process : NodeProcess) (topology : TopologySnapshot) :
    DeferredShrinks process.state (adoptTopology hashing process topology).state := by
  refine adopt_rule refl trans (fun _ _ same => of_stores same.toSameStores)
    (fun key state => remove_source state key)
    (fun _ _ _ => of_sources rfl) process fun state _ => ?_
  unfold NodeState.setTopology
  split <;> exact of_sources rfl

theorem handle (process : NodeProcess) (event : NodeEvent)
    (unswept : ∀ nowUnixMillis limit, event ≠ .sweep nowUnixMillis limit) :
    DeferredShrinks process.state (process.handle hashing config event).state := by
  cases event with
  | commit clock request ready =>
      have purged := of_receipts (purge_expired_only hashing process.state clock.now)
      rcases commit_request_sections hashing config clock process request ready with
        same | same | ⟨plan, entries, prepared, stored⟩
      · exact of_stores same.toSameStores
      · exact purged.trans (of_stores same.toSameStores)
      · exact purged.trans (write stored)
  | finishAcks now reached epoch mutationId version required =>
      rw [NodeProcess.handle]
      rcases finish_required_acks_cases now process.state reached epoch mutationId version required
        with same | completed
      · rw [same]
        exact refl _
      · rw [completed]
        exact of_receipts (complete_required_acks_only process.state mutationId version)
  | replicate clock received => exact entry clock received process.state
  | replicateBatch clock entries =>
      exact replicate_rule refl trans (fun received _ state => entry clock received state) process.state
  | range operation => exact range (perform_sections hashing config process.state operation)
  | sweep nowUnixMillis limit => exact absurd rfl (unswept nowUnixMillis limit)
  | install | refresh =>
      exact NodeProcess.handle_adopting hashing config
        (motive := fun after => DeferredShrinks process.state after.state) (refl _)
        (fun topology _ _ => adopt process topology) trivial
  | checkpoint | renewed | pausePolicy | resumePolicy | collect | send | answered =>
      refine of_stores (StoresKept.toSameStores ?_)
      exact handle_storeless hashing config process trivial

end DeferredShrinks

section Runs

variable {hashing : Hashing} {config : NodeConfig} {before after : NodeProcess}

theorem ended_source_reschedules {event : NodeEvent} (indexed : NodeIndexed hashing before.state)
    (taken : NodeProcess.Step hashing config before event after) {key : RangeKey}
    {source : SourceMigration} (found : before.state.sources.lookup key = some source)
    (ended : after.state.sources.lookup key = none) {entry : Nat ×ₗ Bytes}
    (deferred : entry ∈ source.deferredExpirations) (due : after.state.Deadline entry) :
    entry ∈ after.state.recordExpirations := by
  obtain ⟨place, waiting⟩ := ((indexed.step taken).expirations.exact entry).mpr due
  obtain ⟨sources, reordered, rfl⟩ := taken
  have lookups : ∀ probe, sources.lookup probe = before.state.sources.lookup probe := fun probe =>
    AList.perm_lookup reordered
  -- A sweep ends no source range.
  have unswept : ∀ nowUnixMillis limit, event ≠ .sweep nowUnixMillis limit := by
    rintro nowUnixMillis limit rfl
    have same := (sweep_swept hashing nowUnixMillis limit { before.state with sources }).only.2
    obtain ⟨_, still, _⟩ := same.symm.lookup_some ((lookups key).trans found)
    exact absurd (ended.symm.trans still) (by simp)
  cases place with
  | none => exact waiting
  | some other =>
      obtain ⟨holder, held, stays⟩ :=
        DeferredShrinks.handle { before with state := { before.state with sources } } event
        unswept entry other waiting
      have same := Option.some.inj (indexed.expirations.single entry (some other) (some key)
        ⟨holder, (lookups other).symm.trans held, stays⟩ ⟨source, found, deferred⟩)
      obtain ⟨_, present, _⟩ := waiting
      exact absurd (ended.symm.trans (same ▸ present)) (by simp)

/-- No range is moving away from the node. -/
def NodeState.Unsourced (state : NodeState) : Prop := ∀ key, state.sources.lookup key = none

theorem sweep_unsourced {state : NodeState} (idle : state.Unsourced) (nowUnixMillis limit : Nat) :
    (sweepExpiredRecords hashing nowUnixMillis limit state).1.Unsourced := by
  intro key
  have same := (sweep_swept hashing nowUnixMillis limit state).only.2 key
  rw [idle key, Option.map_none] at same
  exact Option.map_eq_none_iff.mp same

theorem sweep_removes {state : NodeState} (indexed : NodeIndexed hashing state) (idle : state.Unsourced)
    {nowUnixMillis later limit : Nat} (reached : nowUnixMillis ≤ later) (positive : 0 < limit)
    {key : Bytes} {record : Record} (found : state.records.lookup key = some record)
    (past : record.Past nowUnixMillis) :
    ∃ gone, gone ∈ state.records ∧ gone ∉ (sweepExpiredRecords hashing later limit state).1.records := by
  obtain ⟨deadline, named, passed⟩ := past
  -- Its own entry waits in the schedule, since nothing could have deferred it.
  obtain ⟨place, waiting⟩ := (indexed.expirations.exact (toLex (deadline, key))).mpr
    ⟨record, found, named⟩
  have scheduled : toLex (deadline, key) ∈ state.recordExpirations := by
    cases place with
    | none => exact waiting
    | some holder =>
        obtain ⟨source, held, _⟩ := waiting
        exact absurd ((idle holder).symm.trans held) (by simp)
  cases first : state.recordExpirations.first with
  | none =>
      rw [OrderedSet.mem_def, List.head?_eq_none_iff.mp first] at scheduled
      exact absurd scheduled List.not_mem_nil
  | some entry =>
      have smallest : (ofLex entry).1 ≤ deadline := by
        rcases Prod.Lex.le_iff.mp (OrderedSet.first_le _ _ _ first scheduled) with below | ⟨same, _⟩
        · exact below.le
        · exact same.le
      have due : dueExpiration state later = some entry := by
        rw [dueExpiration, first, Option.filter_some,
          if_pos (decide_eq_true (smallest.trans (passed.trans reached)))]
      obtain ⟨limit, rfl⟩ := Nat.exists_eq_succ_of_ne_zero positive.ne'
      obtain ⟨removed, stored, _⟩ :=
        (indexed.expirations.exact entry).mp ⟨none, OrderedSet.first_mem _ _ first⟩
      refine ⟨(ofLex entry).2, (FiniteMap.mem_iff_lookup _ _).mpr ⟨removed, stored⟩, fun back => ?_⟩
      obtain ⟨again, still⟩ := (FiniteMap.mem_iff_lookup _ _).mp back
      unfold sweepExpiredRecords at still
      rw [due] at still
      have uncovered : state.sources.entries.find? (fun source =>
          source.2.range.contains (state.tokenOf hashing (ofLex entry).2)) = none := by
        apply List.find?_eq_none.mpr
        rintro ⟨holder, source⟩ listed _
        exact absurd ((idle holder).symm.trans ((FiniteMap.lookup_some_iff _ _ _).mpr listed)) (by simp)
      have cleared : (sweepEntry hashing state entry).1.records.lookup (ofLex entry).2 = none := by
        unfold sweepEntry
        simp only [NodeState.tokenOf] at uncovered ⊢
        rw [uncovered]
        exact (NodeState.lookup_remove_record _ _ _ _).trans (if_pos rfl)
      have before := (sweep_swept hashing later limit (sweepEntry hashing state entry).1).subset _ _ still
      exact absurd (cleared.symm.trans before) (by simp)

theorem records_shrink {before after : FiniteMap Bytes Record} {gone : Bytes}
    (subset : ∀ key record, after.lookup key = some record → before.lookup key = some record)
    (held : gone ∈ before)
    (lost : gone ∉ after) : after.keys.length < before.keys.length := by
  have inside : after.keys ⊆ before.keys.erase gone := by
    intro key listed
    obtain ⟨record, found⟩ := (FiniteMap.mem_iff_lookup _ _).mp (AList.mem_keys.mpr listed)
    have other : key ≠ gone := by
      rintro rfl
      exact lost (AList.mem_keys.mpr listed)
    exact (List.mem_erase_of_ne other).mpr
      (AList.mem_keys.mp ((FiniteMap.mem_iff_lookup _ _).mpr ⟨record, subset key record found⟩))
  have fewer := (List.subperm_of_subset after.keys_nodup inside).length_le
  rw [List.length_erase_of_mem (AList.mem_keys.mp held)] at fewer
  have some_ := List.length_pos_of_mem (AList.mem_keys.mp held)
  omega

def sweepEvents (sweeps : List (Nat × Nat)) : List NodeEvent :=
  sweeps.map fun sweep => .sweep sweep.1 sweep.2

theorem sweep_step {nowUnixMillis limit : Nat} (indexed : NodeIndexed hashing before.state)
    (taken : NodeProcess.Step hashing config before (.sweep nowUnixMillis limit) after) :
    SweepExact hashing nowUnixMillis before.state after.state := by
  obtain ⟨sources, reordered, rfl⟩ := taken
  have shuffled : NodeIndexed hashing { before.state with sources } := indexed.reorder reordered
  have swept : SweepExact hashing nowUnixMillis { before.state with sources }
      (sweepExpiredRecords hashing nowUnixMillis limit { before.state with sources }).1 :=
        SweepExact.sweep limit shuffled
  refine ⟨fun key record found => ?_, swept.kept⟩
  rcases swept.removed key record found with kept | ⟨gone, past, unsourced⟩
  · exact .inl kept
  · refine .inr ⟨gone, past, ?_⟩
    rintro ⟨holder, source, held, inside⟩
    exact unsourced ⟨holder, source, (AList.perm_lookup reordered).trans held, inside⟩

theorem sweeps_keep {sweeps : List (Nat × Nat)} (indexed : NodeIndexed hashing before.state)
    (run : Transition.Run (NodeProcess.Step hashing config) before (sweepEvents sweeps) after)
    {key : Bytes} {record : Record}
    (found : after.state.records.lookup key = some record) :
    before.state.records.lookup key = some record := by
  induction sweeps generalizing before with
  | nil =>
      cases run with
      | refl => exact found
  | cons sweep rest ih =>
      cases run with
      | next taken later =>
          exact (sweep_step indexed taken).kept key record (ih (indexed.step taken) later)

/-- Every sweep that leaves a record past its deadline removed another one, so enough
of them leave none. -/
theorem sweeps_drain {nowUnixMillis : Nat} {sweeps : List (Nat × Nat)}
    (each : ∀ sweep ∈ sweeps, nowUnixMillis ≤ sweep.1 ∧ 0 < sweep.2)
    (indexed : NodeIndexed hashing before.state) (idle : before.state.Unsourced)
    (enough : before.state.records.keys.length ≤ sweeps.length)
    (run : Transition.Run (NodeProcess.Step hashing config) before (sweepEvents sweeps) after)
    (key : Bytes) (record : Record)
    (found : after.state.records.lookup key = some record) : ¬record.Past nowUnixMillis := by
  intro past
  have held := sweeps_keep indexed run found
  induction sweeps generalizing before with
  | nil =>
      have listed := AList.mem_keys.mp ((FiniteMap.mem_iff_lookup _ _).mpr ⟨record, held⟩)
      exact absurd (List.length_pos_of_mem listed) (by simpa using enough)
  | cons sweep rest ih =>
      obtain ⟨reached, positive⟩ := each sweep List.mem_cons_self
      cases run with
      | next taken later =>
          have swept := sweep_step indexed taken
          have next := indexed.step taken
          obtain ⟨sources, reordered, rfl⟩ := taken
          have shuffled : NodeIndexed hashing { before.state with sources } := indexed.reorder reordered
          have unsourced : NodeState.Unsourced { before.state with sources } := fun probe =>
            (AList.perm_lookup reordered).trans (idle probe)
          obtain ⟨gone, there, lost⟩ := sweep_removes shuffled unsourced reached positive held past
          have fewer := records_shrink swept.kept there lost
          refine ih (fun sweep listed => each sweep (List.mem_cons_of_mem _ listed)) next
            (sweep_unsourced unsourced sweep.1 sweep.2) ?_ later (sweeps_keep next later found)
          rw [List.length_cons] at enough
          exact Nat.le_of_lt_succ (fewer.trans_le enough)

end Runs
end Hashring
