import Hashring.JournalBudget

/-! A source range from its preparation to its end. Whatever the node does
meanwhile, the lists that were frozen stay and the journal grows at its end, within
the budget. -/
namespace Hashring

/-- The frozen lists are the same and the journal was only appended to. -/
structure SourceGrows (before after : SourceMigration) : Prop where
  keys : after.snapshotKeys = before.snapshotKeys
  ids : after.snapshotDedupIds = before.snapshotDedupIds
  journal : before.journal <+: after.journal

namespace SourceGrows

theorem refl (source : SourceMigration) : SourceGrows source source := ⟨rfl, rfl, List.prefix_refl _⟩

theorem trans {first second third : SourceMigration} (early : SourceGrows first second)
    (late : SourceGrows second third) :
    SourceGrows first third :=
  ⟨late.keys.trans early.keys, late.ids.trans early.ids, early.journal.trans late.journal⟩

theorem of_undeferred {before after : SourceMigration} (same : before.undeferred = after.undeferred) :
    SourceGrows before after := by
  refine ⟨?_, ?_, ?_⟩
  · exact (congrArg SourceMigration.snapshotKeys same).symm
  · exact (congrArg SourceMigration.snapshotDedupIds same).symm
  · have journals : before.undeferred.journal <+: after.undeferred.journal := by
      rw [same]
    exact journals

theorem write (plan : WritePlan) (record : Record) (source : SourceMigration) :
    SourceGrows source (journalWrite plan record source) := ⟨rfl, rfl, List.prefix_append _ _⟩

end SourceGrows

/-- A migration that is there afterwards was there before and has grown. -/
def Follows (key : RangeKey) (before after : NodeState) : Prop :=
  ∀ source, after.sources.lookup key = some source → ∃ old, before.sources.lookup key = some old ∧
    SourceGrows old source

namespace Follows

variable {hashing : Hashing} {config : NodeConfig} {key : RangeKey} {before after : NodeState}

theorem refl (key : RangeKey) (state : NodeState) : Follows key state state :=
  fun source found => ⟨source, found, .refl source⟩

theorem trans {first second third : NodeState} (early : Follows key first second)
    (late : Follows key second third) :
    Follows key first third := by
  intro source found
  obtain ⟨middle, held, grown⟩ := late source found
  obtain ⟨old, known, older⟩ := early middle held
  exact ⟨old, known, older.trans grown⟩

theorem of_eq (same : after.sources.lookup key = before.sources.lookup key) : Follows key before after :=
  fun source found => ⟨source, same ▸ found, .refl source⟩

theorem of_sources (same : SameSources before.sources after.sources) : Follows key before after := by
  intro source found
  obtain ⟨old, held, undeferred⟩ := same.lookup_some found
  exact ⟨old, held, .of_undeferred undeferred⟩

theorem remove_source (other : RangeKey) (state : NodeState) :
    Follows key state (state.removeSource other) := by
  unfold NodeState.removeSource
  split
  · exact refl key state
  · intro source found
    rw [FiniteMap.lookup_erase_if] at found
    split at found
    · exact absurd found (by simp)
    · exact ⟨source, found, .refl source⟩

theorem write {clock : Clock} {request : WriteRequest} {ready : Readiness} {plan : WritePlan}
    {entries : List PreparedReplication} {prepared : NodeState}
    (stored : StoredWrite hashing config clock before after request ready plan entries prepared) :
    Follows key before after := by
  intro source found
  obtain ⟨middle, held, undeferred⟩ := (JournalNode.stored_write_journals stored).1.lookup_some found
  rw [journalSources, FiniteMap.lookup_mapValues] at held
  obtain ⟨old, known, rfl⟩ := Option.map_eq_some_iff.mp held
  refine ⟨old, known, SourceGrows.trans ?_ (.of_undeferred undeferred)⟩
  split
  · exact .write _ _ old
  · exact .refl old

/-- The range is not prepared again while the node holds it. -/
theorem range {operation : RangeOperation} (present : key ∈ before.sources)
    (step : RangeSection hashing config before operation after) : Follows key before after := by
  cases step with
  | kept same => exact of_eq (by rw [same.sources])
  | refused clock => exact of_eq (by rw [(purge_expired_only hashing before clock.later).sources])
  | source range _ _ fresh =>
      intro source found
      rw [FiniteMap.lookup_insert_if] at found
      split at found
      · rename_i here
        -- The key was free when it was prepared.
        exact absurd (here ▸ present) (AList.lookup_eq_none.mp fresh)
      · exact ⟨source, found, .refl source⟩
  | paused paused old held =>
      intro source found
      rw [FiniteMap.lookup_insert_if] at found
      split at found
      · rename_i here
        obtain rfl := Option.some.inj found
        exact ⟨old, here ▸ held, rfl, rfl, List.prefix_refl _⟩
      · exact ⟨source, found, .refl source⟩
  | destination | batch | receipts | activated => exact of_eq rfl
  | committed clock _ destination =>
      -- Receipts go, the range is replaced and receipts come: none of it touches a source.
      have purged : Follows key before (purgeExpiredDedup hashing before clock.later) :=
        of_eq (by rw [(purge_expired_only hashing before clock.later).sources])
      have replaced : Follows key _
          (replaceRange hashing (purgeExpiredDedup hashing before clock.later) destination.range
          destination.records) :=
        of_sources (replace_range_only hashing (purgeExpiredDedup hashing before clock.later)
          destination.range
          destination.records).2
      have adopted := (adopt_receipts_only hashing (destination.liveDedup clock.now).entries
          (replaceRange hashing
        (purgeExpiredDedup hashing before clock.later) destination.range
          destination.records)).receipts.sources
      exact (purged.trans replaced).trans (of_eq (congrArg (AList.lookup key) adopted))
  | cleaned ended source =>
      have dropped := (remove_keys_fold (droppedKeys config before source.range) before).1
      exact (of_sources dropped.2).trans (remove_source ended _)
  | aborted ended => exact (remove_source ended before).trans (of_eq rfl)
  | cleared =>
      have released := remove_sources_rule (refl key) trans (fun ended state => remove_source ended state)
        (before.sources.keys.filter fun key => NodeState.isRepairId key.changeId) before
      exact released.trans (of_eq rfl)

theorem handle {process : NodeProcess} (present : key ∈ process.state.sources) (event : NodeEvent) :
    Follows key process.state (process.handle hashing config event).state := by
  refine handle_rule (?_ : StoreRule hashing config process.state event (Follows key))
  exact {
    refl := refl key
    trans := trans
    stores := fun _ _ same => of_eq (by rw [same.sources])
    purge := fun now before => of_eq (by rw [(purge_expired_only hashing before now).sources])
    write := fun _ _ _ _ _ _ _ _ stored => write stored
    acks := fun id version before =>
      of_eq (congrArg (AList.lookup key) (complete_required_acks_only before id version).sources)
    entry := by
      intro clock entry _ before record _ _
      have stored : Follows key before (before.applyRecord hashing entry.key record) :=
        of_sources (NodeState.apply_record_only hashing before entry.key record).2
      obtain ⟨_, filed⟩ := accept_entry_only hashing clock before entry record
      exact stored.trans (of_eq (congrArg (AList.lookup key) filed.sources))
    range := fun _ _ _ step => range present step
    sweep := fun _ _ _ entry before _ _ => of_sources (sweep_entry_swept hashing before entry).only.2
    release := fun ended before => remove_source ended before
    unprepare := fun _ _ _ => of_eq rfl
    adopt := by
      intro topology _ _ before _
      unfold NodeState.setTopology
      split <;> exact of_eq rfl }

end Follows

def JournalsHold (holds : JournalRecord → Prop) (state : NodeState) : Prop :=
  ∀ key source, state.sources.lookup key = some source → ∀ entry ∈ source.journal, holds entry

namespace JournalsHold

variable {hashing : Hashing} {config : NodeConfig} {before after : NodeState}
  {holds : JournalRecord → Prop}

theorem ended (start : JournalsHold holds before) (ended : JournalsEnd before after) :
    JournalsHold holds after := by
  intro key source found entry listed
  obtain ⟨old, held, same⟩ := Option.map_eq_some_iff.mp (ended.kept key source found)
  have journals : old.journal = source.journal := congrArg (fun journaled => journaled.2.1) same
  exact start key old held entry (journals ▸ listed)

theorem write (start : JournalsHold holds before) {clock : Clock} {request : WriteRequest}
    {ready : Readiness}
    {plan : WritePlan} {entries : List PreparedReplication} {prepared : NodeState}
    (stored : StoredWrite hashing config clock before after request ready plan entries prepared)
    (made : ∀ watermark, holds
      (journalEntry plan (plan.record (WritePlan.version config before)) watermark)) :
    JournalsHold holds after := by
  intro key source found entry listed
  obtain ⟨middle, held, undeferred⟩ := (JournalNode.stored_write_journals stored).1.lookup_some found
  rw [journalSources, FiniteMap.lookup_mapValues] at held
  obtain ⟨old, known, moved⟩ := Option.map_eq_some_iff.mp held
  have journals : middle.undeferred.journal = source.undeferred.journal := by rw [undeferred]
  replace listed : entry ∈ middle.journal := (show middle.journal = source.journal from journals) ▸ listed
  rw [← moved] at listed
  split at listed
  · rcases List.mem_append.mp listed with early | last
    · exact start key old known entry early
    · obtain rfl := List.mem_singleton.mp last
      exact made _
  · exact start key old known entry listed

theorem handle {process : NodeProcess} (start : JournalsHold holds process.state) (event : NodeEvent)
    (made : ∀ unixMillis state plan request, Planned hashing unixMillis state plan request →
      ∀ version watermark,
      holds (journalEntry plan (plan.record version) watermark)) :
    JournalsHold holds (process.handle hashing config event).state := by
  by_cases written : ∃ clock request ready, event = .commit clock request ready
  · obtain ⟨clock, request, ready, rfl⟩ := written
    have purged := JournalsEnd.of_receipts (purge_expired_only hashing process.state clock.now)
    rcases commit_request_sections hashing config clock process request ready with
      same | same | ⟨plan, entries, prepared, stored⟩
    · exact start.ended (.of_stores same.toSameStores)
    · exact (start.ended purged).ended (.of_stores same.toSameStores)
    · exact (start.ended purged).write stored (made _ _ _ _ stored.planned _)
  · by_cases prepared : ∃ request, event = .range (.prepareSource request)
    · obtain ⟨request, rfl⟩ := prepared
      have step := perform_sections hashing config process.state (.prepareSource request)
      generalize moved : (process.handle hashing config (.range (.prepareSource request))).state = after
      rw [show (RangeOperation.perform hashing config process.state (.prepareSource request)).1 =
        after from moved] at step
      cases step with
      | kept same => exact start.ended (.of_stores same.toSameStores)
      | source range =>
          intro key source found entry listed
          rw [FiniteMap.lookup_insert_if] at found
          split at found
          · rw [← Option.some.inj found] at listed
            exact absurd listed (by simp [frozenSource])
          · exact start key source found entry listed
    · exact start.ended (JournalsEnd.handle
        (fun clock request ready same => written ⟨clock, request, ready, same⟩)
        (fun request same => prepared ⟨request, same⟩))

end JournalsHold

def JournalsCarry (state : NodeState) : Prop :=
  ∀ key source, state.sources.lookup key = some source → ∀ entry ∈ source.journal, ∃ key record,
    entry.Carries key record

theorem JournalsCarry.handle {hashing : Hashing} {config : NodeConfig} {process : NodeProcess}
    (carry : JournalsCarry process.state) (event : NodeEvent) :
    JournalsCarry (process.handle hashing config event).state := by
  have held : JournalsHold (fun entry => ∃ key record, entry.Carries key record) process.state := carry
  refine held.handle event fun _ _ plan _ _ version watermark => ?_
  exact ⟨plan.key, plan.record version, _, rfl, rfl, rfl, rfl, rfl, rfl⟩

section Served

variable (hashing : Hashing) (config : NodeConfig) (key : RangeKey)

/-- An event after which the node still holds the source range. -/
def HoldingStep (before : NodeProcess) (event : NodeEvent) (after : NodeProcess) : Prop :=
  NodeProcess.Step hashing config before event after ∧ key ∈ after.state.sources

/-- The states in which a node is asked, one after the other, about a source range it
holds all the time. Between two of them it may do anything else. -/
structure Serving (views : Nat → NodeProcess) : Prop where
  reached : ∃ topology events, Transition.Run (NodeProcess.Step hashing config)
    { state := { topology } } events (views 0)
  held : key ∈ (views 0).state.sources
  goes : ∀ index, ∃ events, Transition.Run (HoldingStep hashing config key) (views index) events
    (views (index + 1))

variable {hashing config key}

theorem holding_grows {before after : NodeProcess} {events : List NodeEvent}
    (run : Transition.Run (HoldingStep hashing config key) before events after)
    (present : key ∈ before.state.sources) :
    key ∈ after.state.sources ∧ Follows key before.state after.state := by
  induction run with
  | refl => exact ⟨present, .refl key _⟩
  | next step _ ih =>
      obtain ⟨⟨sources, reordered, rfl⟩, still⟩ := step
      obtain ⟨kept, later⟩ := ih still
      have lookups : sources.lookup key = _ := AList.perm_lookup reordered
      refine ⟨kept, Follows.trans (Follows.trans (.of_eq lookups) (Follows.handle ?_ _)) later⟩
      rw [FiniteMap.mem_iff_lookup] at present ⊢
      rw [lookups]
      exact present

/-- The ghost of a run can always be kept beside it. -/
theorem journal_run {before after : NodeProcess} {events : List NodeEvent}
    (run : Transition.Run (NodeProcess.Step hashing config) before events after) (node : JournalNode)
    (start : node.process = before) :
    ∃ ended : JournalNode, ended.process = after ∧
      Transition.Run (JournalNode.Step hashing config) node events ended := by
  induction run generalizing node with
  | refl => exact ⟨node, start, .refl node⟩
  | @next _ middle _ event _ step _ ih =>
      let moved : JournalNode :=
        { process := middle
          log := node.log ++ JournalNode.logged config node.process.state middle.state event
          since := fun key => if key ∈ node.process.state.sources then node.since key
            else node.log.length }
      obtain ⟨ended, same, later⟩ := ih moved rfl
      exact ⟨ended, same, .next ⟨middle, start ▸ step, rfl⟩ later⟩

theorem holding_run {before after : NodeProcess} {events : List NodeEvent}
    (run : Transition.Run (HoldingStep hashing config key) before events after) :
    Transition.Run (NodeProcess.Step hashing config) before events after := by
  induction run with
  | refl => exact .refl _
  | next step _ ih => exact .next step.1 ih

/-- What a reader of the source range can rely on. -/
structure JournalSound (config : NodeConfig) (source : SourceMigration) : Prop where
  watermarks : source.journal.map (·.watermark) = List.range' 1 source.watermark
  carried : ∀ entry ∈ source.journal, ∃ key record, entry.Carries key record
  bounded : source.watermark * 128 ≤ config.maxJournalBytes

theorem JournalSound.length {source : SourceMigration} (sound : JournalSound config source) :
    source.journal.length = source.watermark := by
  have counted := congrArg List.length sound.watermarks
  rwa [List.length_map, List.length_range'] at counted

theorem charged_overhead (journal : List JournalRecord)
    (carried : ∀ entry ∈ journal, ∃ key record, entry.Carries key record) :
    journal.length * 128 ≤ (journal.map JournalRecord.chargedBytes).sum := by
  induction journal with
  | nil => simp
  | cons entry rest ih =>
      obtain ⟨_, _, sent, found, _⟩ := carried entry List.mem_cons_self
      have below := ih fun entry listed => carried entry (List.mem_cons_of_mem _ listed)
      have first : 128 ≤ entry.chargedBytes := by
        simp only [JournalRecord.chargedBytes, found, Option.elim_some, migrationRecordSize]
        omega
      simp only [List.length_cons, List.map_cons, List.sum_cons]
      omega

theorem journals_sound {topology : TopologySnapshot} {events : List NodeEvent} {process : NodeProcess}
    (run : Transition.Run (NodeProcess.Step hashing config) { state := { topology } } events process)
    (source : SourceMigration)
    (found : process.state.sources.lookup key = some source) : JournalSound config source := by
  have carry : JournalsCarry process.state := by
    refine Transition.run_invariant (fun _ => True) (fun process => JournalsCarry process.state) ?_
      run (fun _ _ => trivial) ?_
    · rintro before event after _ carry ⟨sources, reordered, rfl⟩
      refine JournalsCarry.handle (fun key source found => ?_) event
      exact carry key source ((AList.perm_lookup reordered).symm.trans found)
    · exact fun _ _ found => absurd found (by simp)
  obtain ⟨node, rfl, ghost⟩ := journal_run run { process := { state := { topology } } } rfl
  have exact_ : node.Exact config := by
    refine Transition.run_invariant (fun _ => True) (fun node => node.Exact config) ?_ ghost
      (fun _ _ => trivial) ?_
    · exact fun before event after _ exact_ step => step.exact exact_
    · exact ⟨fun _ _ found => absurd found (by simp), rfl, Nat.zero_le _⟩
  obtain ⟨_, journals⟩ := exact_.each key source found
  have counted := congrArg List.length journals.watermarks
  rw [List.length_map, List.length_range'] at counted
  refine ⟨journals.watermarks, carry key source found, ?_⟩
  calc source.watermark * 128 = source.journal.length * 128 := by rw [counted]
    _ ≤ (source.journal.map JournalRecord.chargedBytes).sum := charged_overhead _ (carry key source found)
    _ = source.journalBytes := journals.bytes.symm
    _ ≤ node.process.state.journalBytesTotal := by
        rw [exact_.total]
        exact FiniteMap.weigh_le_total found
    _ ≤ config.maxJournalBytes := exact_.bounded

/-- The range as each of the requests finds it. -/
theorem Serving.sources {views : Nat → NodeProcess} (serving : Serving hashing config key views) :
    ∃ sources : Nat → SourceMigration, ∀ index, (views index).state.sources.lookup key =
      some (sources index) ∧
      JournalSound config (sources index) ∧ ∀ later, index ≤ later → SourceGrows (sources index)
        (sources later) := by
  obtain ⟨topology, events, start⟩ := serving.reached
  have held : ∀ index, key ∈ (views index).state.sources ∧ ∃ events,
      Transition.Run (NodeProcess.Step hashing config) { state := { topology } } events
          (views index) := by
    intro index
    induction index with
    | zero => exact ⟨serving.held, events, start⟩
    | succ index ih =>
        obtain ⟨present, early, run⟩ := ih
        obtain ⟨late, goes⟩ := serving.goes index
        exact ⟨(holding_grows goes present).1, early ++ late, Transition.run_append run
          (holding_run goes)⟩
  choose sources found using fun index => (FiniteMap.mem_iff_lookup _ _).mp (held index).1
  have next : ∀ index, SourceGrows (sources index) (sources (index + 1)) := by
    intro index
    obtain ⟨late, goes⟩ := serving.goes index
    obtain ⟨old, known, grown⟩ := (holding_grows goes (held index).1).2 _ (found (index + 1))
    obtain rfl := Option.some.inj ((found index).symm.trans known)
    exact grown
  refine ⟨sources, fun index => ⟨found index, ?_, ?_⟩⟩
  · obtain ⟨_, _, run⟩ := held index
    exact journals_sound run _ (found index)
  · intro later bound
    induction later, bound using Nat.le_induction with
    | base => exact .refl _
    | succ later _ ih => exact ih.trans (next later)

end Served

end Hashring
