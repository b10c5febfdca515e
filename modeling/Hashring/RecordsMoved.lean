import Hashring.RangeMove

/-! The records of a moved range. Every version a key had since the range was
prepared is either in the frozen snapshot or in the journal; a batch only ever
offers such versions; so once the pages and the journal are in, the staging map
is the source's record map on the range. -/
namespace Hashring.RangeMove

open VersionedMap

/-- The versions `key` had since the preparation. -/
def History (initial : FiniteMap Bytes Record) (source : SourceMigration) (key : Bytes)
    (record : Record) : Prop :=
  initial.lookup key = some record ∨ ∃ entry ∈ source.journal, entry.Carries key record

section Source

variable (hashing : Hashing) (config : NodeConfig) (range : RangeSpec) (initial : FiniteMap Bytes Record)

def Scope (topology : TopologySnapshot) (key : Bytes) : Prop :=
  range.contains (topology.keyToken hashing key) = true

instance (topology : TopologySnapshot) : DecidablePred (Scope hashing range topology) :=
  fun key => inferInstanceAs (Decidable (range.contains (topology.keyToken hashing key) = true))

/-- The source side. `source` is the migration apart from deferred removals. -/
structure SourceInv (state : NodeState) (source : SourceMigration) : Prop where
  held : (state.sources.lookup range.key).map SourceMigration.undeferred = some source
  specified : source.range = range
  listed : ∀ key record, initial.lookup key = some record → Scope hashing range state.topology key →
    key ∈ source.snapshotKeys
  within : ∀ key ∈ source.snapshotKeys, Scope hashing range state.topology key
  numbered : ∀ entry ∈ source.journal, entry.watermark ≤ source.watermark
  distinct : ∀ first ∈ source.journal, ∀ second ∈ source.journal, first.watermark =
    second.watermark → first = second
  carried : ∀ entry ∈ source.journal, ∃ key record, entry.Carries key record ∧
    Scope hashing range state.topology key
  tracks : Tracks Record.version (Scope hashing range state.topology) (History initial source)
    state.records
  versions : VersionsBelow hashing config state

/-- Between two states of the source the journal only grows at its end. -/
structure Grows (before after : SourceMigration) : Prop where
  keys : after.snapshotKeys = before.snapshotKeys
  ids : after.snapshotDedupIds = before.snapshotDedupIds
  watermark : before.watermark ≤ after.watermark
  kept : ∀ entry ∈ before.journal, entry ∈ after.journal
  fresh : ∀ entry ∈ after.journal, entry ∈ before.journal ∨ before.watermark < entry.watermark
  paused : before.writesPaused = true → after.writesPaused = true ∧ after.watermark = before.watermark

theorem Grows.refl (source : SourceMigration) : Grows source source :=
  ⟨rfl, rfl, le_refl _, fun _ member => member, fun _ member => Or.inl member, fun paused =>
    ⟨paused, rfl⟩⟩

theorem Grows.history {initial : FiniteMap Bytes Record} {before after : SourceMigration}
    (grows : Grows before after) {key : Bytes} {record : Record}
    (past : History initial before key record) :
    History initial after key record := by
  rcases past with first | ⟨entry, member, carried⟩
  · exact Or.inl first
  · exact Or.inr ⟨entry, grows.kept entry member, carried⟩

theorem versions_kept {before after : NodeState} (versions : VersionsBelow hashing config before)
    (topology : after.topology = before.topology) (sequence : after.nextSequence = before.nextSequence)
    (subset : ∀ key record, after.records.lookup key = some record → before.records.lookup key =
      some record) :
    VersionsBelow hashing config after := by
  intro key record found owned
  simp only [NodeState.tokenOf, topology, sequence] at owned ⊢
  exact versions key record (subset key record found) owned

theorem source_inv_kept {before after : NodeState} {source : SourceMigration}
    (inv : SourceInv hashing config range initial before source)
    (topology : after.topology = before.topology)
    (held : (after.sources.lookup range.key).map SourceMigration.undeferred = some source)
    (same : ∀ key, Scope hashing range before.topology key → after.records.lookup key =
      before.records.lookup key)
    (versions : VersionsBelow hashing config after) :
    SourceInv hashing config range initial after source where
  held := held
  specified := inv.specified
  listed key record found inside := inv.listed key record found (topology ▸ inside)
  within key member := by
    rw [topology]
    exact inv.within key member
  numbered := inv.numbered
  distinct := inv.distinct
  carried := by
    rw [topology]
    exact inv.carried
  tracks := by
    rw [topology]
    exact inv.tracks.agree after.records same
  versions := versions

theorem lookup_undeferred {sources : FiniteMap RangeKey SourceMigration} {key : RangeKey}
    {source : SourceMigration}
    (held : (sources.lookup key).map SourceMigration.undeferred = some source) :
    ∃ stored, sources.lookup key = some stored ∧ stored.undeferred = source :=
  Option.map_eq_some_iff.mp held

theorem journal_write_history (plan : WritePlan) (record : Record) (source : SourceMigration)
    (key : Bytes) (entry : Record) :
    History initial (journalWrite plan record source) key entry ↔
      History initial source key entry ∨ key = plan.key ∧ entry = record := by
  have carries : (journalEntry plan record (source.watermark + 1)).Carries plan.key record :=
    ⟨_, rfl, rfl, rfl, rfl, rfl, rfl⟩
  constructor
  · rintro (first | ⟨journaled, member, carried⟩)
    · exact Or.inl (Or.inl first)
    · rcases List.mem_append.mp member with old | new
      · exact Or.inl (Or.inr ⟨journaled, old, carried⟩)
      · obtain rfl := List.mem_singleton.mp new
        exact Or.inr (carried.unique carries)
  · rintro ((first | ⟨journaled, member, carried⟩) | ⟨rfl, rfl⟩)
    · exact Or.inl first
    · exact Or.inr ⟨journaled, List.mem_append_left _ member, carried⟩
    · exact Or.inr ⟨_, List.mem_append_right _ List.mem_cons_self, carries⟩

theorem version_below_next (epoch sequence : Nat) (node : String) (version : RecordVersion)
    (below : version < ⟨epoch, sequence + 1, node⟩) : version < ⟨epoch, sequence + 1 + 1, node⟩ := by
  refine lt_trans below ?_
  rw [RecordVersion.lt_iff]
  exact Or.inr ⟨rfl, Or.inl (Nat.lt_succ_self _)⟩

theorem stored_lookup {clock : Clock} {before after : NodeState} {request : WriteRequest}
    {ready : Readiness} {plan : WritePlan} {record : Record} {entries : List PreparedReplication}
    (stored : WriteStored hashing config clock before after request ready plan record entries)
    (placed : ready.token = keyToken hashing request.key ready.tokenSeed)
    (versions : VersionsBelow hashing config before) :
    (∀ current, before.records.lookup plan.key = some current → current.version < record.version) ∧
      ∀ probe, after.records.lookup probe = if probe =
        plan.key then some record else before.records.lookup probe := by
  have here : before.tokenOf hashing plan.key = ready.token := by
    rw [placed, NodeState.tokenOf, TopologySnapshot.keyToken, stored.seed, stored.key]
  have newer : ∀ current, before.records.lookup plan.key = some current → current.version <
      record.version := by
    intro current found
    rw [stored.version]
    apply versions plan.key current found
    rw [here]
    exact owner_error_owns config before ready.token clock.now stored.owned
  refine ⟨newer, ?_⟩
  intro probe
  rw [stored.records probe]
  by_cases same : probe = plan.key
  · rw [if_pos ⟨same, fun _ => newer⟩, if_pos same]
  · rw [if_neg fun both => same both.1, if_neg same]

theorem stored_versions {clock : Clock} {before after : NodeState} {request : WriteRequest}
    {ready : Readiness} {plan : WritePlan} {record : Record} {entries : List PreparedReplication}
    (stored : WriteStored hashing config clock before after request ready plan record entries)
    (placed : ready.token = keyToken hashing request.key ready.tokenSeed)
    (versions : VersionsBelow hashing config before) : VersionsBelow hashing config after := by
  intro key found lookup owned
  rw [(stored_lookup hashing config stored placed versions).2] at lookup
  simp only [NodeState.tokenOf, stored.topology, stored.sequence] at owned ⊢
  by_cases same : key = plan.key
  · simp only [same, ↓reduceIte, Option.some.injEq] at lookup
    rw [← lookup, stored.version, RecordVersion.lt_iff]
    exact Or.inr ⟨rfl, Or.inl (Nat.lt_succ_self _)⟩
  · simp only [same, ↓reduceIte] at lookup
    exact version_below_next _ _ _ _ (versions key found lookup owned)

theorem stored_source {clock : Clock} {before after : NodeState} {request : WriteRequest}
    {ready : Readiness} {plan : WritePlan} {record : Record} {entries : List PreparedReplication}
    {source : SourceMigration}
    (stored : WriteStored hashing config clock before after request ready plan record entries)
    (held : (before.sources.lookup range.key).map SourceMigration.undeferred = some source) :
    (after.sources.lookup range.key).map SourceMigration.undeferred =
      some (if source.range.contains ready.token then journalWrite plan record source else source) := by
  obtain ⟨old, found, rfl⟩ := lookup_undeferred held
  rw [stored.sources range.key, journalSources, FiniteMap.lookup_mapValues, found]
  simp only [Option.map_some, Option.some.injEq]
  by_cases covered : old.range.contains ready.token = true
  · simp [covered, SourceMigration.undeferred, journalWrite]
  · simp [covered, SourceMigration.undeferred]

theorem fence_pauses (state : NodeState) (token : Token) (source : SourceMigration)
    (held : (state.sources.lookup range.key).map SourceMigration.undeferred = some source)
    (inside : source.range.contains token = true) (unfenced : writeFence state token = none) :
    source.writesPaused = false := by
  obtain ⟨old, found, rfl⟩ := lookup_undeferred held
  unfold writeFence at unfenced
  split at unfenced
  · exact absurd unfenced (by simp)
  · split at unfenced
    · exact absurd unfenced (by simp)
    · rename_i open_
      simp only [Bool.not_eq_true, List.any_eq_false] at open_
      have passed := open_ old ((FiniteMap.mem_values_iff _ _).mpr ⟨_, found⟩)
      have covered : old.range.contains token = true := inside
      simpa [covered, SourceMigration.undeferred] using passed

theorem journal_write_grows (plan : WritePlan) (record : Record) (source : SourceMigration)
    (running : source.writesPaused = false) :
    Grows source (journalWrite plan record source) where
  keys := rfl
  ids := rfl
  watermark := Nat.le_succ _
  kept entry member := List.mem_append_left _ member
  fresh entry member := by
    rcases List.mem_append.mp member with old | new
    · exact Or.inl old
    · obtain rfl := List.mem_singleton.mp new
      exact Or.inr (Nat.lt_succ_self _)
  paused stopped := absurd stopped (by simp [running])

theorem source_inv_stored {clock : Clock} {before after : NodeState} {request : WriteRequest}
    {ready : Readiness} {plan : WritePlan} {record : Record} {entries : List PreparedReplication}
    {source : SourceMigration} (inv : SourceInv hashing config range initial before source)
    (stored : WriteStored hashing config clock before after request ready plan record entries)
    (placed : ready.token = keyToken hashing request.key ready.tokenSeed) :
    ∃ later, SourceInv hashing config range initial after later ∧ Grows source later := by
  obtain ⟨newer, lookups⟩ := stored_lookup hashing config stored placed inv.versions
  have held := stored_source hashing config range stored inv.held
  have versions := stored_versions hashing config stored placed inv.versions
  have here : ready.token = before.topology.keyToken hashing plan.key := by
    rw [placed, TopologySnapshot.keyToken, stored.seed, stored.key]
  by_cases inside : source.range.contains ready.token = true
  · -- The write lands in the range: it is journaled under the next watermark.
    simp only [inside, ↓reduceIte] at held
    have running := fence_pauses range before ready.token source inv.held inside stored.unfenced
    have grown := journal_write_grows plan record source running
    have advanced := inv.tracks.advance after.records plan.key record newer lookups
    refine ⟨journalWrite plan record source, ?_, grown⟩
    exact {
      held := held
      specified := inv.specified
      listed := by
        rw [stored.topology]
        exact inv.listed
      within := by
        rw [stored.topology]
        exact inv.within
      numbered := by
        intro entry member
        rcases List.mem_append.mp member with old | new
        · exact Nat.le_succ_of_le (inv.numbered entry old)
        · obtain rfl := List.mem_singleton.mp new
          exact le_refl _
      -- The new entry is numbered above all the others.
      distinct := by
        intro first left second right same
        rcases List.mem_append.mp left with old | new
        · rcases List.mem_append.mp right with older | newest
          · exact inv.distinct first old second older same
          · obtain rfl := List.mem_singleton.mp newest
            have bound := inv.numbered first old
            simp only [journalEntry] at same
            omega
        · obtain rfl := List.mem_singleton.mp new
          rcases List.mem_append.mp right with older | newest
          · have bound := inv.numbered second older
            simp only [journalEntry] at same
            omega
          · exact (List.mem_singleton.mp newest).symm
      carried := by
        rw [stored.topology]
        intro entry member
        rcases List.mem_append.mp member with old | new
        · exact inv.carried entry old
        · obtain rfl := List.mem_singleton.mp new
          refine ⟨plan.key, record, ⟨_, rfl, rfl, rfl, rfl, rfl, rfl⟩, ?_⟩
          rw [Scope, ← here, ← inv.specified]
          exact inside
      -- The write is newer than what the key held, so the history stays one of versions.
      tracks := by
        rw [stored.topology]
        refine ⟨fun key value covered found => ?_, fun key value covered past => ?_⟩
        · exact (journal_write_history initial plan record source key value).mpr
            (advanced.recorded key value covered found)
        · exact advanced.newest key value covered
            ((journal_write_history initial plan record source key value).mp past)
      versions := versions }
  · -- The write lands elsewhere: the range sees nothing of it.
    simp only [inside, Bool.false_eq_true, ↓reduceIte] at held
    refine ⟨source, ?_, Grows.refl source⟩
    apply source_inv_kept hashing config range initial inv stored.topology held _ versions
    intro key covered
    rw [lookups key]
    have other : key ≠ plan.key := by
      rintro rfl
      rw [Scope, ← here, ← inv.specified] at covered
      exact inside covered
    rw [if_neg other]

theorem finish_acks_frame (now : Instant) (state : NodeState) (reached : Bool) (epoch : Nat)
    (mutationId : String) (version : RecordVersion) (required : List RequiredAck) :
    ∃ dedup dedupBytes, (finishRequiredAcks now state reached epoch mutationId version required).1 =
      { state with dedup, dedupBytes } := by
  rcases finish_required_acks_cases now state reached epoch mutationId version required
    with same | completed
  · exact ⟨_, _, same⟩
  · rw [completed]
    exact complete_required_acks_frame state mutationId version

theorem source_inv_write {clock : Clock} {process : NodeProcess} {request : WriteRequest}
    {ready : Readiness} {source : SourceMigration}
    (inv : SourceInv hashing config range initial process.state source)
    (placed : ready.token = keyToken hashing request.key ready.tokenSeed) :
    ∃ later, SourceInv hashing config range initial
      (commitRequest hashing config clock process request ready).1.state later ∧ Grows source later := by
  rcases commit_request_effect hashing config clock process request ready
    with kept | ⟨plan, record, entries, stored⟩
  · refine ⟨source, ?_, Grows.refl source⟩
    apply source_inv_kept hashing config range initial inv kept.topology
    · rw [kept.sources]
      exact inv.held
    · intro key _
      rw [kept.records]
    · apply versions_kept hashing config inv.versions kept.topology kept.sequence
      intro key record found
      rwa [kept.records] at found
  · exact source_inv_stored hashing config range initial inv stored placed

theorem source_inv_sweep {state : NodeState} {source : SourceMigration} (nowUnixMillis limit : Nat)
    (inv : SourceInv hashing config range initial state source) :
    SourceInv hashing config range initial (sweepExpiredRecords hashing nowUnixMillis limit state).1
      source := by
  have swept := sweep_swept hashing nowUnixMillis limit state
  obtain ⟨stored, found, fields⟩ := lookup_undeferred inv.held
  have sequence : (sweepExpiredRecords hashing nowUnixMillis limit state).1.nextSequence =
      state.nextSequence := by
    obtain ⟨⟨_, _, _, _, same⟩, _⟩ := swept.only
    rw [same]
  apply source_inv_kept hashing config range initial inv swept.topology
  · exact (swept.only.2 range.key).trans inv.held
  · intro key covered
    apply swept.kept key
    refine ⟨range.key, stored, found, ?_⟩
    have sameRange : stored.range = range := by
      rw [← inv.specified, ← fields]
      rfl
    rw [sameRange]
    exact covered
  · exact versions_kept hashing config inv.versions swept.topology sequence swept.subset

theorem source_inv_pause {state : NodeState} {source : SourceMigration}
    (inv : SourceInv hashing config range initial state source) :
    ∃ later, (pauseRangeWrites state range.key).2 = .ok later.watermark ∧ later.writesPaused = true ∧
      SourceInv hashing config range initial (pauseRangeWrites state range.key).1 later ∧
        Grows source later := by
  obtain ⟨stored, found, rfl⟩ := lookup_undeferred inv.held
  refine ⟨{ stored.undeferred with writesPaused := true }, ?_, rfl, ?_, ?_⟩
  · unfold pauseRangeWrites
    rw [found]
    rfl
  · unfold pauseRangeWrites
    rw [found]
    exact {
      held := by simp [SourceMigration.undeferred]
      specified := inv.specified
      listed := inv.listed
      within := inv.within
      numbered := inv.numbered
      distinct := inv.distinct
      carried := inv.carried
      tracks := inv.tracks
      versions := inv.versions }
  · exact ⟨rfl, rfl, le_refl _, fun _ member => member, fun _ member => Or.inl member,
      fun _ => ⟨rfl, rfl⟩⟩

end Source

section Staged

variable (hashing : Hashing) (config : NodeConfig) (range : RangeSpec) (initial : FiniteMap Bytes Record)
variable (sourceTopology topology : TopologySnapshot)

/-- The staging map holds versions of the range only, and none older than a
journal entry it has acknowledged. -/
structure StagedInv (source : SourceMigration) (staged : DestinationMigration) : Prop where
  specified : staged.range = range
  pending : staged.committed = false
  drawn : ∀ key record, staged.records.lookup key = some record →
    (Scope hashing range sourceTopology key ∧ History initial source key record) ∧
      Scope hashing range topology key
  behind : staged.watermark ≤ source.watermark
  caughtUp : ∀ entry ∈ source.journal, entry.watermark ≤ staged.watermark → ∀ key record,
    entry.Carries key record →
    Reaches Record.version staged.records key record.version

/-- A page read from the source shows versions of the range, and for each frozen
key it passes a version no older than the frozen one. -/
structure SnapshotShown (source : SourceMigration) (page : Nat × SnapshotPageResponse) : Prop where
  shown : ∀ sent ∈ page.2.records, ∃ record, sent.Carries sent.key record ∧
    Scope hashing range sourceTopology sent.key ∧ History initial source sent.key record
  passed : ∀ index, page.1 ≤ index → index < page.2.nextCursor →
    ∀ key, source.snapshotKeys[index]? = some key →
    ∀ record, initial.lookup key = some record →
      ∃ sent ∈ page.2.records, ∃ later, sent.Carries key later ∧ record.version ≤ later.version

def ChangelogShown (source : SourceMigration) (page : ChangelogPageResponse) : Prop :=
  ∀ sent ∈ page.records, ∃ entry ∈ source.journal, sent.watermark = entry.watermark ∧
    ∀ key record, entry.Carries key record → sent.Carries key record

variable {source : SourceMigration}

theorem staged_inv_grows {later : SourceMigration} {staged : DestinationMigration}
    (grows : Grows source later)
    (inv : StagedInv hashing range initial sourceTopology topology source staged) :
    StagedInv hashing range initial sourceTopology topology later staged where
  specified := inv.specified
  pending := inv.pending
  drawn key record found :=
    let origin := inv.drawn key record found
    ⟨⟨origin.1.1, grows.history origin.1.2⟩, origin.2⟩
  behind := le_trans inv.behind grows.watermark
  caughtUp entry member acknowledged key record carried := by
    rcases grows.fresh entry member with old | new
    · exact inv.caughtUp entry old acknowledged key record carried
    · exact absurd (le_trans acknowledged inv.behind) (not_le.mpr new)

theorem snapshot_shown_grows {later : SourceMigration} {page : Nat × SnapshotPageResponse}
    (grows : Grows source later) (inv : SnapshotShown hashing range initial sourceTopology source page) :
    SnapshotShown hashing range initial sourceTopology later page where
  shown sent member := by
    obtain ⟨record, carried, inside, past⟩ := inv.shown sent member
    exact ⟨record, carried, inside, grows.history past⟩
  passed := by
    rw [grows.keys]
    exact inv.passed

theorem changelog_shown_grows {later : SourceMigration} {page : ChangelogPageResponse}
    (grows : Grows source later) (inv : ChangelogShown source page) : ChangelogShown later page := by
  intro sent member
  obtain ⟨entry, journaled, same, carries⟩ := inv sent member
  exact ⟨entry, grows.kept entry journaled, same, carries⟩

theorem read_snapshot_shown (sourceConfig : NodeConfig) (state : NodeState) (cursor maxBytes : Nat)
    (page : SnapshotPageResponse) (inv : SourceInv hashing sourceConfig range initial state source)
    (read : readSnapshotPage sourceConfig state ⟨range.changeId, range.rangeId, cursor, maxBytes⟩ =
      .ok page) :
    SnapshotShown hashing range initial state.topology source (cursor, page) := by
  obtain ⟨stored, count, found, next, records⟩ := read_snapshot_page_spec sourceConfig state _ page read
  obtain ⟨again, lookup, fields⟩ := lookup_undeferred inv.held
  obtain rfl : again = stored := Option.some.inj (lookup.symm.trans found)
  have sameKeys : again.snapshotKeys = source.snapshotKeys := by
    rw [← fields]
    rfl
  rw [sameKeys] at records
  refine ⟨?_, ?_⟩
  · intro sent member
    simp only [records, List.mem_filterMap, Option.map_eq_some_iff] at member
    obtain ⟨key, taken, record, live, rfl⟩ := member
    have frozen := inv.within key (List.mem_of_mem_drop (List.mem_of_mem_take taken))
    exact ⟨record, snapshot_record_carries key record, frozen, inv.tracks.recorded key record frozen live⟩
  · intro index above below key placed record first
    have frozen := inv.within key (List.mem_of_getElem? placed)
    obtain ⟨current, live, order⟩ := inv.tracks.newest key record frozen (Or.inl first)
    refine ⟨snapshotRecord key current, ?_, current, snapshot_record_carries key current, ?_⟩
    · simp only [records, List.mem_filterMap, Option.map_eq_some_iff]
      refine ⟨key, ?_, current, live, rfl⟩
      apply List.mem_of_getElem? (i := index - cursor)
      simp only [next] at below
      simp only at above
      rw [List.getElem?_take, if_pos (by omega), List.getElem?_drop, Nat.add_sub_cancel' above]
      exact placed
    · rcases order with rfl | lower
      · exact le_refl _
      · exact le_of_lt lower

theorem read_changelog_shown (sourceConfig : NodeConfig) (now : Instant) (state : NodeState)
    (afterWatermark maxBytes : Nat) (page : ChangelogPageResponse)
    (inv : SourceInv hashing sourceConfig range initial state source)
    (read : readChangelogPage sourceConfig now state ⟨range.changeId, range.rangeId, afterWatermark,
      maxBytes⟩ =
      .ok page) : ChangelogShown source page := by
  obtain ⟨stored, found, copies⟩ := read_changelog_page_spec sourceConfig now state _ page read
  obtain ⟨again, lookup, fields⟩ := lookup_undeferred inv.held
  obtain rfl : again = stored := Option.some.inj (lookup.symm.trans found)
  have sameJournal : again.journal = source.journal := by
    rw [← fields]
    rfl
  intro sent member
  obtain ⟨entry, journaled, rfl⟩ := copies sent member
  refine ⟨entry, sameJournal ▸ journaled, rfl, ?_⟩
  intro key record carried
  exact copied_journal_carries _ _ _ entry key record carried

theorem stage_snapshot_inv (records : List MigrationRecord) (staged : DestinationMigration)
    (inv : StagedInv hashing range initial sourceTopology topology source staged)
    (sound : ∀ sent ∈ records, ∃ record, sent.Carries sent.key record ∧
      Scope hashing range sourceTopology sent.key ∧ History initial source sent.key record) :
    StagedInv hashing range initial sourceTopology topology source
        (stageSnapshotRecords hashing topology staged records).1 ∧
      (∀ key bound, Reaches Record.version staged.records key bound →
        Reaches Record.version (stageSnapshotRecords hashing topology staged records).1.records key
          bound) := by
  obtain ⟨extended, _⟩ := stage_snapshot_effect hashing topology
    (fun key record => Scope hashing range sourceTopology key ∧ History initial source key record)
      records sound staged
  obtain ⟨map, frame⟩ := stage_snapshot_frame hashing topology records staged
  generalize (stageSnapshotRecords hashing topology staged records).1 = result at extended frame
  subst frame
  refine ⟨?_, extended.grows⟩
  exact {
    specified := inv.specified
    pending := inv.pending
    drawn := by
      intro key record found
      rcases extended.origin key record found with older | ⟨inside, fresh⟩
      · exact inv.drawn key record older
      · rw [inv.specified] at inside
        exact ⟨fresh, inside⟩
    behind := inv.behind
    caughtUp := fun entry member acknowledged key record carried =>
      extended.grows _ _ (inv.caughtUp entry member acknowledged key record carried) }

/-- Staging the next journal entry keeps the invariant: watermarks name journal
entries uniquely, so the acknowledged one is the one that was offered. -/
theorem journal_step_inv {now : Instant} {entry : JournalRecord} {sent : MigrationRecord} {key : Bytes}
    {record : Record} {before receipted after : DestinationMigration}
    (distinct : ∀ first ∈ source.journal, ∀ second ∈ source.journal, first.watermark = second.watermark →
      first = second)
    (numbered : ∀ journaled ∈ source.journal, journaled.watermark ≤ source.watermark)
    (carried : ∀ journaled ∈ source.journal, ∃ key record, journaled.Carries key record ∧
      Scope hashing range sourceTopology key)
    (shown : ∃ journaled ∈ source.journal, entry.watermark = journaled.watermark ∧
      ∀ key record, journaled.Carries key record → entry.Carries key record)
    (step : JournalStep hashing config topology now entry sent key record before receipted after)
    (inv : StagedInv hashing range initial sourceTopology topology source before) :
    StagedInv hashing range initial sourceTopology topology source after ∧
      ∀ probe bound, Reaches Record.version before.records probe bound →
        Reaches Record.version after.records probe bound := by
  obtain ⟨journaled, member, sameWatermark, carries⟩ := shown
  obtain ⟨_, past, carriesPast, inside⟩ := carried journaled member
  have entryCarries : entry.Carries key record := ⟨sent, step.found, step.carried⟩
  obtain ⟨rfl, rfl⟩ := (carries _ _ carriesPast).unique entryCarries
  obtain ⟨_, _, rfl⟩ := step.frame
  refine ⟨?_, fun probe bound reached => offer_grows _ _ _ _ _ reached⟩
  exact {
    specified := inv.specified
    pending := inv.pending
    drawn := by
      intro probe found stored
      rcases offer_origin _ _ _ _ _ stored with ⟨rfl, rfl⟩ | older
      · have scope := step.inside
        rw [inv.specified] at scope
        exact ⟨⟨inside, Or.inr ⟨journaled, member, carriesPast⟩⟩, scope⟩
      · exact inv.drawn probe found older
    behind := by
      have bound := numbered journaled member
      rw [← sameWatermark] at bound
      exact bound
    caughtUp := by
      intro other listed acknowledged probe held carriedOther
      by_cases newest : other.watermark = entry.watermark
      · obtain rfl := distinct other listed journaled member (newest.trans sameWatermark)
        obtain ⟨rfl, rfl⟩ := carriedOther.unique carriesPast
        exact offer_reaches _ _ _
      · have earlier : other.watermark ≤ before.watermark := by
          have next := step.next
          simp only at acknowledged
          omega
        exact offer_grows _ _ _ _ _ (inv.caughtUp other listed earlier probe held carriedOther) }

theorem stage_journal_inv (now : Instant) (entries : List JournalRecord) (staged : DestinationMigration)
    (distinct : ∀ first ∈ source.journal, ∀ second ∈ source.journal, first.watermark = second.watermark →
      first = second)
    (numbered : ∀ journaled ∈ source.journal, journaled.watermark ≤ source.watermark)
    (carried : ∀ journaled ∈ source.journal, ∃ key record, journaled.Carries key record ∧
      Scope hashing range sourceTopology key)
    (shown : ∀ entry ∈ entries, ∃ journaled ∈ source.journal, entry.watermark = journaled.watermark ∧
      ∀ key record, journaled.Carries key record → entry.Carries key record)
    (inv : StagedInv hashing range initial sourceTopology topology source staged) :
    StagedInv hashing range initial sourceTopology topology source
        (stageJournalRecords hashing config topology now staged entries).1 ∧
      ∀ key bound, Reaches Record.version staged.records key bound →
        Reaches Record.version (stageJournalRecords hashing config topology now staged
          entries).1.records key bound := by
  apply stage_journal_invariant hashing config topology now
    (fun current => StagedInv hashing range initial sourceTopology topology source current ∧
      ∀ key bound, Reaches Record.version staged.records key bound →
        Reaches Record.version current.records key bound)
  · intro entry member
    obtain ⟨journaled, listed, _, carries⟩ := shown entry member
    obtain ⟨key, record, carriesPast, _⟩ := carried journaled listed
    exact ⟨key, record, carries key record carriesPast⟩
  · rintro entry member sent key record before receipted after step ⟨kept, grown⟩
    obtain ⟨next, more⟩ := journal_step_inv hashing config range initial sourceTopology topology
      distinct numbered
      carried (shown entry member) step kept
    exact ⟨next, fun probe bound reached => more probe bound (grown probe bound reached)⟩
  · exact ⟨inv, fun _ _ reached => reached⟩

/-- A batch of shown pages keeps the staging invariant, forgets nothing, and
when it is accepted it has taken in every snapshot record. -/
theorem stage_batch_inv (clock : Clock) (snapshot : List MigrationRecord) (entries : List JournalRecord)
    (staged : DestinationMigration)
    (distinct : ∀ first ∈ source.journal, ∀ second ∈ source.journal, first.watermark = second.watermark →
      first = second)
    (numbered : ∀ journaled ∈ source.journal, journaled.watermark ≤ source.watermark)
    (carried : ∀ journaled ∈ source.journal, ∃ key record, journaled.Carries key record ∧
      Scope hashing range sourceTopology key)
    (sound : ∀ sent ∈ snapshot, ∃ record, sent.Carries sent.key record ∧
      Scope hashing range sourceTopology sent.key ∧ History initial source sent.key record)
    (shown : ∀ entry ∈ entries, ∃ journaled ∈ source.journal, entry.watermark = journaled.watermark ∧
      ∀ key record, journaled.Carries key record → entry.Carries key record)
    (inv : StagedInv hashing range initial sourceTopology topology source staged) :
    StagedInv hashing range initial sourceTopology topology source
        (stageBatch hashing config topology clock staged snapshot entries).1 ∧
      (∀ key bound, Reaches Record.version staged.records key bound →
        Reaches Record.version (stageBatch hashing config topology clock staged snapshot
          entries).1.records key
          bound) ∧
      ((stageBatch hashing config topology clock staged snapshot entries).2 = none →
        ∀ sent ∈ snapshot, ∀ key record, sent.Carries key record →
          Reaches Record.version (stageBatch hashing config topology clock staged snapshot
            entries).1.records key
            record.version) := by
  have purged : StagedInv hashing range initial sourceTopology topology source
      (purgeStagedDedup staged clock.now) :=
    ⟨inv.specified, inv.pending, inv.drawn, inv.behind, inv.caughtUp⟩
  obtain ⟨afterSnapshot, grown⟩ :=
    stage_snapshot_inv hashing range initial sourceTopology topology snapshot _ purged
    sound
  have complete := (stage_snapshot_effect hashing topology
    (fun key record => Scope hashing range sourceTopology key ∧ History initial source key record)
      snapshot sound
    (purgeStagedDedup staged clock.now)).2
  unfold stageBatch
  -- The entries are staged behind a whole page of records, or not at all.
  cases result : stageSnapshotRecords hashing topology (purgeStagedDedup staged clock.now) snapshot with
  | mk middle error =>
      rw [result] at afterSnapshot grown complete
      cases error with
      | some status => exact ⟨afterSnapshot, grown, fun accepted => absurd accepted (by simp)⟩
      | none =>
          obtain ⟨afterJournal, more⟩ :=
            stage_journal_inv hashing config range initial sourceTopology topology
            clock.later entries middle distinct numbered carried shown afterSnapshot
          refine ⟨afterJournal, fun key bound reached => more key bound (grown key bound reached), ?_⟩
          intro _ sent member key record carries
          exact more key _ (complete rfl sent member key record carries)

end Staged

section Moves

variable (hashing : Hashing) (sourceConfig destinationConfig : NodeConfig) (range : RangeSpec)
variable (initial : FiniteMap Bytes Record) (sourceTopology topology : TopologySnapshot)

structure MoveInv (source : SourceMigration) (staged : DestinationMigration) (move : Move) : Prop where
  sourceSame : move.source.state.topology = sourceTopology
  destinationSame : move.destination.topology = topology
  sourceSide : SourceInv hashing sourceConfig range initial move.source.state source
  held : move.destination.destinations.lookup range.key = some staged
  stagedSide : StagedInv hashing range initial sourceTopology topology source staged
  snapshotPages : ∀ page ∈ move.snapshotPages, SnapshotShown hashing range initial sourceTopology
    source page
  changelogPages : ∀ page ∈ move.changelogPages, ChangelogShown source page
  covered : ∀ interval ∈ move.snapshotApplied, ∀ index, interval.1 ≤ index → index < interval.2 →
    ∀ key, source.snapshotKeys[index]? = some key → ∀ record, initial.lookup key = some record →
      Reaches Record.version staged.records key record.version
  final : ∀ watermark, move.finalWatermark = some watermark → source.writesPaused = true ∧
    source.watermark = watermark
  destinationSound : NodeSound hashing move.destination

variable {source : SourceMigration} {staged : DestinationMigration} {move : Move}

/-- A step of the source alone: history grows, the staging side stays valid. -/
theorem move_inv_source {later : SourceMigration} (process : NodeProcess)
    (inv : MoveInv hashing sourceConfig range initial sourceTopology topology source staged move)
    (sourceSide : SourceInv hashing sourceConfig range initial process.state later)
    (grows : Grows source later) (same : process.state.topology = move.source.state.topology) :
    MoveInv hashing sourceConfig range initial sourceTopology topology later staged
      { move with source := process } where
  sourceSame := same.trans inv.sourceSame
  destinationSame := inv.destinationSame
  sourceSide := sourceSide
  held := inv.held
  stagedSide := staged_inv_grows hashing range initial sourceTopology topology grows inv.stagedSide
  snapshotPages page member :=
    snapshot_shown_grows hashing range initial sourceTopology grows (inv.snapshotPages page member)
  changelogPages page member := changelog_shown_grows grows (inv.changelogPages page member)
  covered := by
    rw [grows.keys]
    exact inv.covered
  final watermark answered := by
    obtain ⟨paused, reached⟩ := inv.final watermark answered
    obtain ⟨still, unmoved⟩ := grows.paused paused
    exact ⟨still, unmoved.trans reached⟩
  destinationSound := inv.destinationSound

theorem move_inv_destination (state : NodeState)
    (inv : MoveInv hashing sourceConfig range initial sourceTopology topology source staged move)
    (same : state.topology = move.destination.topology)
    (kept : state.destinations.lookup range.key = move.destination.destinations.lookup range.key)
    (sound : NodeSound hashing state) :
    MoveInv hashing sourceConfig range initial sourceTopology topology source staged
      { move with destination := state } where
  sourceSame := inv.sourceSame
  destinationSame := same.trans inv.destinationSame
  sourceSide := inv.sourceSide
  held := kept.trans inv.held
  stagedSide := inv.stagedSide
  snapshotPages := inv.snapshotPages
  changelogPages := inv.changelogPages
  covered := inv.covered
  final := inv.final
  destinationSound := sound

theorem sound_destinations {state : NodeState} (sound : NodeSound hashing state)
    (destinations : FiniteMap RangeKey DestinationMigration) :
    NodeSound hashing { state with destinations } :=
  ⟨sound.recordsIndexed, sound.receiptsScheduled, sound.receiptsIndexed⟩

theorem answer_of_ok (error : Option Status) (accepted : answerOf error = .ok ()) : error = none := by
  cases error with
  | none => rfl
  | some _ => exact absurd accepted (by simp [answerOf])

theorem mem_applied {intervals : List (Nat × Nat)} {answer : Except Status Unit}
    {interval : Option (Nat × Nat)} {found : Nat × Nat}
    (member : found ∈ applied intervals answer interval) :
    found ∈ intervals ∨ answer = .ok () ∧ interval = some found := by
  unfold applied at member
  split at member
  · rcases List.mem_append.mp member with old | new
    · exact Or.inl old
    · exact Or.inr ⟨rfl, Option.mem_toList.mp new⟩
  · exact Or.inl member

theorem snapshot_of_page {snapshot : Option (Nat × SnapshotPageResponse)} {sent : MigrationRecord}
    (member : sent ∈ snapshot.elim [] fun page => page.2.records) : ∃ page ∈ snapshot,
      sent ∈ page.2.records := by
  cases snapshot with
  | none => exact absurd member (by simp)
  | some page => exact ⟨page, rfl, member⟩

theorem changelog_of_page {changelog : Option ChangelogPageResponse} {sent : JournalRecord}
    (member : sent ∈ changelog.elim [] fun page => page.records) : ∃ page ∈ changelog,
      sent ∈ page.records := by
  cases changelog with
  | none => exact absurd member (by simp)
  | some page => exact ⟨page, rfl, member⟩

theorem move_inv_batch (clock : Clock) (snapshot : Option (Nat × SnapshotPageResponse))
    (changelog : Option ChangelogPageResponse)
    (inv : MoveInv hashing sourceConfig range initial sourceTopology topology source staged move)
    (fromSnapshot : ∀ page ∈ snapshot, page ∈ move.snapshotPages)
    (fromChangelog : ∀ page ∈ changelog, page ∈ move.changelogPages) :
    MoveInv hashing sourceConfig range initial sourceTopology topology source
      (stageBatch hashing destinationConfig topology clock staged
        (migrationBatch range snapshot changelog).snapshotRecords
        (migrationBatch range snapshot changelog).journalRecords).1
      (next hashing sourceConfig destinationConfig range move
        (.applyBatch clock snapshot changelog)) := by
  have side := inv.sourceSide
  obtain ⟨stagedSide, grown, complete⟩ :=
    stage_batch_inv hashing destinationConfig range initial sourceTopology
    topology clock (migrationBatch range snapshot changelog).snapshotRecords
    (migrationBatch range snapshot changelog).journalRecords staged side.distinct side.numbered
    (by rw [← inv.sourceSame]; exact side.carried)
    (by
      intro sent member
      obtain ⟨page, chosen, listed⟩ := snapshot_of_page member
      exact (inv.snapshotPages page (fromSnapshot page chosen)).shown sent listed)
    (by
      intro sent member
      obtain ⟨page, chosen, listed⟩ := changelog_of_page member
      exact inv.changelogPages page (fromChangelog page chosen) sent listed)
    inv.stagedSide
  have answer := apply_batch_pending hashing destinationConfig clock move.destination
    (migrationBatch range snapshot changelog) staged inv.held inv.stagedSide.pending
  have same := inv.destinationSame
  unfold next
  simp only [answer]
  rw [← same] at stagedSide grown complete ⊢
  generalize stageBatch hashing destinationConfig move.destination.topology clock staged
    (migrationBatch range snapshot changelog).snapshotRecords
    (migrationBatch range snapshot changelog).journalRecords = result at stagedSide grown complete
  -- Only what is staged has moved; the batch took its records from pages that were read.
  exact {
    sourceSame := inv.sourceSame
    destinationSame := rfl
    sourceSide := side
    held := AList.lookup_insert _
    stagedSide := stagedSide
    snapshotPages := inv.snapshotPages
    changelogPages := inv.changelogPages
    covered := by
      intro interval member index above below key placed record first
      rcases mem_applied member with old | ⟨accepted, new⟩
      · exact grown key _ (inv.covered interval old index above below key placed record first)
      · -- The page showed this key at least as new, and an accepted batch offers all of it.
        obtain ⟨page, chosen, rfl⟩ := Option.map_eq_some_iff.mp new
        obtain ⟨sent, listed, later, carries, order⟩ :=
          (inv.snapshotPages page (fromSnapshot page chosen)).passed index above below key placed
            record first
        have offered : sent ∈ (migrationBatch range snapshot changelog).snapshotRecords := by
          simp only [migrationBatch, chosen, Option.elim_some]
          exact listed
        obtain ⟨current, found, bound⟩ :=
          complete (answer_of_ok _ accepted) sent offered key later carries
        exact ⟨current, found, le_trans order bound⟩
    final := inv.final
    destinationSound := sound_destinations hashing inv.destinationSound _ }

theorem move_inv_dedup (clock : Clock) (page : Nat × DedupSnapshotPageResponse)
    (inv : MoveInv hashing sourceConfig range initial sourceTopology topology source staged move) :
    MoveInv hashing sourceConfig range initial sourceTopology topology source
      (stageDedupRecords hashing destinationConfig topology clock.later
        (purgeStagedDedup staged clock.now)
        page.2.records).1
      (next hashing sourceConfig destinationConfig range move (.applyDedup clock page)) := by
  obtain ⟨dedup, dedupBytes, frame⟩ :=
    stage_dedup_records_frame hashing destinationConfig topology clock.later
    page.2.records (purgeStagedDedup staged clock.now)
  have answer := apply_dedup_pending hashing destinationConfig clock move.destination
    ⟨range.changeId, range.rangeId, page.2.records⟩ staged inv.held inv.stagedSide.pending
  have kept := inv.stagedSide
  have same := inv.destinationSame
  unfold next
  simp only [answer]
  rw [← same] at frame kept ⊢
  generalize stageDedupRecords hashing destinationConfig move.destination.topology clock.later
    (purgeStagedDedup staged clock.now) page.2.records = result at frame
  obtain ⟨later, error⟩ := result
  simp only at frame
  subst frame
  exact {
    sourceSame := inv.sourceSame
    destinationSame := rfl
    sourceSide := inv.sourceSide
    held := AList.lookup_insert _
    stagedSide := ⟨kept.specified, kept.pending, kept.drawn, kept.behind, kept.caughtUp⟩
    snapshotPages := inv.snapshotPages
    changelogPages := inv.changelogPages
    covered := inv.covered
    final := inv.final
    destinationSound := sound_destinations hashing inv.destinationSound _ }

theorem move_inv_step {event : Event} {after : Move}
    (inv : MoveInv hashing sourceConfig range initial sourceTopology topology source staged move)
    (taken : Step hashing sourceConfig destinationConfig range move event after) :
    ∃ later staged, MoveInv hashing sourceConfig range initial sourceTopology topology later staged
      after ∧
      Grows source later := by
  obtain ⟨admissible, rfl⟩ := taken
  have side := inv.sourceSide
  -- An event touches one of the two nodes; for the source, `move_inv_source` carries
  -- the destination's side over.
  cases event with
  | write clock request ready =>
      obtain ⟨now, earlier, proceeded⟩ := admissible
      have placed := lookup_proceeds_token hashing sourceConfig now earlier request _ _ proceeded
      obtain ⟨later, kept, grows⟩ := source_inv_write hashing sourceConfig range initial side placed
      refine ⟨later, staged, move_inv_source hashing sourceConfig range initial sourceTopology
        topology _ inv kept
        grows ?_, grows⟩
      rcases commit_request_effect hashing sourceConfig clock move.source request ready with
        same | ⟨_, _, _, stored⟩
      · exact same.topology
      · exact stored.topology
  | finishAcks now reached epoch mutationId version required =>
      obtain ⟨_, _, frame⟩ := finish_acks_frame now move.source.state reached epoch mutationId
        version required
      refine ⟨source, staged, move_inv_source hashing sourceConfig range initial sourceTopology
        topology _ inv ?_
        (Grows.refl source) ?_, Grows.refl source⟩
      · rw [frame]
        exact source_inv_kept hashing sourceConfig range initial side rfl side.held
          (fun _ _ => rfl) side.versions
      · rw [frame]
  | sweep nowUnixMillis limit =>
      exact ⟨source, staged, move_inv_source hashing sourceConfig range initial sourceTopology
        topology _ inv
        (source_inv_sweep hashing sourceConfig range initial nowUnixMillis limit side) (Grows.refl source)
        (sweep_swept hashing nowUnixMillis limit _).topology, Grows.refl source⟩
  | purge now =>
      obtain ⟨_, _, _, _, _, _, _, _, _, frame⟩ := purge_expired_only hashing move.source.state now
      refine ⟨source, staged, move_inv_source hashing sourceConfig range initial sourceTopology
        topology _ inv ?_
        (Grows.refl source) ?_, Grows.refl source⟩
      · rw [frame]
        exact source_inv_kept hashing sourceConfig range initial side rfl side.held
          (fun _ _ => rfl) side.versions
      · rw [frame]
  | sourceOther rest =>
      exact ⟨source, staged, move_inv_source hashing sourceConfig range initial sourceTopology
        topology _ inv
        (source_inv_kept hashing sourceConfig range initial side rfl side.held
          (fun _ _ => rfl) side.versions)
        (Grows.refl source) rfl, Grows.refl source⟩
  | readSnapshot cursor maxBytes =>
      unfold next
      simp only
      split
      · exact ⟨source, staged, inv, Grows.refl source⟩
      · rename_i page read
        refine ⟨source, staged, { inv with snapshotPages := ?_ }, Grows.refl source⟩
        intro shown member
        rcases List.mem_cons.mp member with rfl | old
        · rw [← inv.sourceSame]
          exact read_snapshot_shown hashing range initial sourceConfig _ cursor maxBytes page side read
        · exact inv.snapshotPages shown old
  | readDedup now cursor maxBytes =>
      unfold next
      simp only
      split
      · exact ⟨source, staged, inv, Grows.refl source⟩
      · exact ⟨source, staged, { inv with }, Grows.refl source⟩
  | readChangelog now afterWatermark maxBytes =>
      unfold next
      simp only
      split
      · exact ⟨source, staged, inv, Grows.refl source⟩
      · rename_i page read
        refine ⟨source, staged, { inv with changelogPages := ?_ }, Grows.refl source⟩
        intro shown member
        rcases List.mem_cons.mp member with rfl | old
        · exact read_changelog_shown hashing range initial sourceConfig now _ afterWatermark
            maxBytes shown side read
        · exact inv.changelogPages shown old
  | pause =>
      obtain ⟨later, answered, paused, kept, grows⟩ :=
        source_inv_pause hashing sourceConfig range initial side
      have sameTopology : (pauseRangeWrites move.source.state range.key).1.topology =
          move.source.state.topology := by
        unfold pauseRangeWrites
        split <;> rfl
      have moved := move_inv_source hashing sourceConfig range initial sourceTopology topology
        { move.source with state := (pauseRangeWrites move.source.state range.key).1 } inv kept
          grows sameTopology
      unfold next
      cases result : pauseRangeWrites move.source.state range.key with
      | mk state answer =>
          rw [result] at answered moved
          simp only at answered
          subst answered
          refine ⟨later, staged, { moved with final := ?_ }, grows⟩
          intro watermark same
          exact ⟨paused, Option.some.inj same⟩
  | applyBatch clock snapshot changelog =>
      exact ⟨source, _, move_inv_batch hashing sourceConfig destinationConfig range initial
        sourceTopology topology
        clock snapshot changelog inv admissible.1 admissible.2, Grows.refl source⟩
  | applyDedup clock page =>
      exact ⟨source, _, move_inv_dedup hashing sourceConfig destinationConfig range initial
        sourceTopology topology
        clock page inv, Grows.refl source⟩
  | destinationOther state =>
      exact ⟨source, staged, move_inv_destination hashing sourceConfig range initial sourceTopology
        topology state inv
        admissible.1 admissible.2.1 admissible.2.2, Grows.refl source⟩

theorem move_inv_begin (process : NodeProcess) (destination : NodeState)
    (ready : Ready hashing sourceConfig destinationConfig range process destination) :
    ∃ source staged, MoveInv hashing sourceConfig range process.state.records process.state.topology
      destination.topology source staged
        (begin sourceConfig destinationConfig range process destination) := by
  obtain ⟨sourceId, sourceAnswered⟩ := ready.sourcePrepared
  obtain ⟨destinationId, destinationAnswered⟩ := ready.destinationPrepared
  have sourceSide := prepare_source_fresh sourceConfig process.state range sourceId
      ready.sourceFresh sourceAnswered
  have destinationSide := prepare_destination_fresh destinationConfig destination range destinationId
    ready.destinationFresh destinationAnswered
  -- The index lists exactly the stored keys of the range.
  have frozen : ∀ key, key ∈ (process.state.recordKeysInRange range).map Prod.snd ↔
      Scope hashing range process.state.topology key ∧ key ∈ process.state.records := by
    intro key
    constructor
    · intro listed
      obtain ⟨⟨token, stored⟩, member, rfl⟩ := List.mem_map.mp listed
      obtain ⟨indexed, inside⟩ := (TokenIndex.mem_inRange _ _ _ _).mp member
      obtain ⟨rfl, present⟩ := (ready.sourceSound.recordsIndexed token stored).mp indexed
      exact ⟨inside, present⟩
    · rintro ⟨inside, present⟩
      exact List.mem_map.mpr ⟨(process.state.tokenOf hashing key, key),
        (TokenIndex.mem_inRange _ _ _ _).mpr
        ⟨(ready.sourceSound.recordsIndexed _ _).mpr ⟨rfl, present⟩, inside⟩, rfl⟩
  unfold begin
  rw [sourceSide, destinationSide]
  refine ⟨frozenSource process.state range, emptyDestination range, ?_⟩
  exact {
    sourceSame := rfl
    destinationSame := rfl
    sourceSide := {
      held := by
        rw [AList.lookup_insert]
        rfl
      specified := rfl
      listed := fun key record found inside =>
        (frozen key).mpr ⟨inside, (FiniteMap.mem_iff_lookup _ _).mpr ⟨record, found⟩⟩
      within := fun key member => ((frozen key).mp member).1
      numbered := fun _ member => absurd member (by simp [frozenSource])
      distinct := fun _ member => absurd member (by simp [frozenSource])
      carried := fun _ member => absurd member (by simp [frozenSource])
      tracks := {
        recorded := fun _ _ _ found => Or.inl found
        newest := by
          rintro key record _ (first | ⟨_, member, _⟩)
          · exact ⟨record, first, Or.inl rfl⟩
          · exact absurd member (by simp [frozenSource]) }
      versions := ready.versions }
    held := AList.lookup_insert _
    stagedSide := {
      specified := rfl
      pending := rfl
      drawn := fun _ _ found => absurd found (by simp [emptyDestination])
      behind := le_refl 0
      caughtUp := fun _ member => absurd member (by simp [frozenSource]) }
    snapshotPages := fun _ member => absurd member (by simp)
    changelogPages := fun _ member => absurd member (by simp)
    covered := fun _ member => absurd member (by simp)
    final := fun _ answered => absurd answered (by simp)
    destinationSound := sound_destinations hashing ready.destinationSound _ }

theorem move_inv_run {process : NodeProcess} {destination : NodeState} {events : List Event} {move : Move}
    (ready : Ready hashing sourceConfig destinationConfig range process destination)
    (run : Transition.Run (Step hashing sourceConfig destinationConfig range)
      (begin sourceConfig destinationConfig range process destination) events move) :
    ∃ source staged, MoveInv hashing sourceConfig range process.state.records process.state.topology
      destination.topology source staged move := by
  apply Transition.run_invariant (fun _ => True) (fun move => ∃ source staged,
    MoveInv hashing sourceConfig range process.state.records process.state.topology
      destination.topology source staged
      move) _ run (fun _ _ => trivial)
  · exact move_inv_begin hashing sourceConfig destinationConfig range process destination ready
  · rintro before event after _ ⟨source, staged, inv⟩ taken
    obtain ⟨later, restaged, kept, _⟩ :=
      move_inv_step hashing sourceConfig destinationConfig range _ _ _ inv taken
    exact ⟨later, restaged, kept⟩

end Moves

section

def sampleRange : RangeSpec := ⟨"change", "range", 0, 10, "a", "b"⟩

def sampleSourceConfig : NodeConfig := { nodeId := "a", processInstanceId := "a-1" }

def sampleDestinationConfig : NodeConfig := { nodeId := "b", processInstanceId := "b-1" }

/-- The ring of the epoch before, in which "b" owned the keys of "a". -/
def sampleEarlier : TopologySnapshot :=
    { Sample.topology with epoch := 0, assignments := [⟨10, "b"⟩, ⟨20, "a"⟩] }

def sampleRecord : Record := Record.stored [byte 1] ⟨0, 1, "b"⟩ false none (by simp)

def sampleFingerprint : Bytes := List.replicate 31 (byte 0) ++ [byte 46]

def sampleReceipt : DeduplicationRecord :=
  ⟨"w", [byte 107], sampleFingerprint, some ⟨0, 1, "b"⟩, false, 60000⟩

def sampleArrived : RangeSpec := ⟨"earlier", "range", 0, 10, "b", "a"⟩

/-- How the source came to own the range: a move in the earlier epoch, the topology
of its own, a lease, and the range opened for writes. -/
def sampleArrival : List NodeEvent :=
  [.range (.prepareDestination (some sampleArrived)),
    .range (.applyBatch (Sample.clock 2)
      ⟨"earlier", "range", [snapshotRecord [byte 107] sampleRecord], []⟩),
    .range (.applyDedup (Sample.clock 3) ⟨"earlier", "range", [sampleReceipt]⟩),
    .range (.commitDestination (Sample.clock 4) sampleArrived.key), .install Sample.topology,
    .renewed 1 0 { topologyEpoch := 1, leaseDurationMillis := 1000, admittedFollowers := [("b", "b-1")] },
    .range (.activateDestination sampleArrived.key)]

def sampleSource : NodeProcess :=
  sampleArrival.foldl (NodeProcess.handle Sample.hashing sampleSourceConfig)
    { state := { topology := sampleEarlier } }

def sampleDestination : NodeState := { topology := Sample.topology }

def samplePut (key : Byte) (id : String) : WriteRequest :=
  .put { key := [key], value := [byte 2], topologyEpoch := 1, requestId := id, expiresAtUnixMillis := none
         preserveValue := false, precondition := none }

def sampleWrite (now : Instant) (key : Byte) (id : String) : Event :=
  .write (Sample.clock now) (samplePut key id) ⟨5, 7, 1, ["b"]⟩

def samplePage : SnapshotPageResponse :=
  ⟨[snapshotRecord [byte 107] sampleRecord], 1, true⟩

def sampleReceipts : DedupSnapshotPageResponse := ⟨[sampleReceipt], 1, true⟩

def sampleJournal : ChangelogPageResponse where
  records := [("m", byte 108, 1), ("n", byte 107, 2)].map fun (id, key, sequence) =>
    ⟨sequence, some
      { key := [key], value := [byte 2], version := some ⟨1, sequence, "a"⟩, deleted := false, mutationId := id
        remainingRetentionMillis := 60000, expiresAtUnixMillis := none
        requestFingerprint := sampleFingerprint }⟩
  currentWatermark := 2

/-- A snapshot page that overtakes a write to its key, the receipts, and the journal
after them; the page comes once more at the end. -/
def sampleEvents : List Event :=
  [.readSnapshot 0 0, sampleWrite 10 (byte 108) "m", sampleWrite 11 (byte 107) "n",
    .applyBatch (Sample.clock 12) (some (0, samplePage)) none, .readDedup 12 0 0,
    .applyDedup (Sample.clock 12) (0, sampleReceipts), .pause, .readChangelog 12 0 0,
    .applyBatch (Sample.clock 13) none (some sampleJournal), .applyBatch (Sample.clock 14)
      (some (0, samplePage)) none]

def sampleMove : Move :=
  sampleEvents.foldl (next Sample.hashing sampleSourceConfig sampleDestinationConfig sampleRange)
    (begin sampleSourceConfig sampleDestinationConfig sampleRange sampleSource sampleDestination)

theorem sample_source_reached : ReachedNode Sample.hashing sampleSourceConfig sampleSource := by
  have quiet : ∀ (state : NodeState) (event : NodeEvent), event.offered = none → event.records = [] →
      event.Promised Sample.hashing sampleSourceConfig state := by
    intro state event unoffered empty
    refine ⟨fun topology offered => absurd (unoffered.symm.trans offered) (by simp),
      fun sent listed => ?_⟩
    rw [empty] at listed
    exact absurd listed List.not_mem_nil
  refine ⟨sampleEarlier, sampleArrival, Transition.permitted_run
    (fun process event => event.Promised Sample.hashing sampleSourceConfig process.state) _
    (fun process event promised => ⟨promised, NodeProcess.step_handle _ _ process event⟩) _ _ ?_⟩
  refine ⟨quiet _ _ rfl rfl, ⟨fun _ offered => absurd offered (by simp [NodeEvent.offered]), ?_⟩,
    quiet _ _ rfl rfl,
    quiet _ _ rfl rfl, ⟨?_, fun _ listed => absurd listed List.not_mem_nil⟩, quiet _ _ rfl rfl,
      quiet _ _ rfl rfl,
    trivial⟩
  · -- The batch brings a version of the owner at that time.
    rintro sent listed version given
    obtain rfl := List.mem_singleton.mp listed
    obtain rfl := Option.some.inj given
    refine ⟨le_refl 0, fun _ owned => ?_⟩
    obtain ⟨owner, routed, named⟩ := owned
    have held : sampleEarlier.ownerForToken 5 = .ok ⟨"b", "http://127.0.0.1:5002"⟩ := by rfl
    obtain rfl := Except.ok.inj (held.symm.trans routed)
    exact absurd named (by decide)
  · intro topology offered level
    obtain rfl := Option.some.inj offered
    exact absurd level (by decide +kernel)

theorem sample_ready : Ready Sample.hashing sampleSourceConfig sampleDestinationConfig sampleRange
    sampleSource
    sampleDestination where
  sourceReached := sample_source_reached
  destinationReached := ⟨Sample.topology, [], {}, .refl _⟩
  sourceFresh := by decide +kernel
  destinationFresh := by decide +kernel
  sourcePrepared := ⟨"a-1", by decide +kernel⟩
  destinationPrepared := ⟨"b-1", by decide +kernel⟩

theorem sample_proceeds (key : Byte) (id : String)
    (written : key = byte 108 ∧ id = "m" ∨ key = byte 107 ∧ id = "n") :
    lookupRequest Sample.hashing sampleSourceConfig 1 sampleSource.state (samplePut key id) =
      .proceed 5 7 := by
  rcases written with ⟨rfl, rfl⟩ | ⟨rfl, rfl⟩ <;> decide +kernel

theorem sample_permitted : Permitted Sample.hashing sampleSourceConfig sampleDestinationConfig sampleRange
    (begin sampleSourceConfig sampleDestinationConfig sampleRange sampleSource sampleDestination)
      sampleEvents := by
  refine ⟨trivial, ⟨1, sampleSource.state, sample_proceeds _ _ (.inl ⟨rfl, rfl⟩)⟩,
    ⟨1, sampleSource.state, sample_proceeds _ _ (.inr ⟨rfl, rfl⟩)⟩, ⟨?_, by simp⟩, trivial, ?_,
      trivial, trivial,
    ⟨by simp, ?_⟩, ⟨?_, by simp⟩, trivial⟩
  · rintro page ⟨rfl⟩
    decide +kernel
  · unfold Admissible
    decide +kernel
  · rintro page ⟨rfl⟩
    decide +kernel
  · rintro page ⟨rfl⟩
    decide +kernel

instance (intervals : List (Nat × Nat)) (length : Nat) : Decidable (Covers intervals length) :=
  inferInstanceAs (Decidable (∀ index < length, ∃ interval ∈ intervals, interval.1 ≤ index ∧
    index < interval.2))

end
end Hashring.RangeMove
