import Hashring.RangeStaging

/-! What a destination has staged does not depend on the order in which the pages and
journal entries of its source arrive, on how often a call is repeated, or on calls
that stop half way. -/
namespace Hashring

open VersionedMap

/-- The records one source range has to send: those its snapshot pages show and those
its journal holds, entry `i` at watermark `i + 1`. A version names one record. -/
structure SourceItems where
  snapshot : List (Bytes × Record)
  journal : List (Bytes × Record)
  agree : Agree Record.version (snapshot ++ journal)

/-- A call of the coordinator that brings migration data. -/
inductive Delivery where
  | migration (clock : Clock) (snapshotRecords : List MigrationRecord)
      (journalRecords : List JournalRecord)
  | receipts (clock : Clock) (records : List DeduplicationRecord)

namespace Delivery

def snapshotRecords : Delivery → List MigrationRecord
  | .migration _ records _ => records
  | .receipts _ _ => []

def journalRecords : Delivery → List JournalRecord
  | .migration _ _ records => records
  | .receipts _ _ => []

def later : Delivery → Instant
  | .migration clock _ _ => clock.later
  | .receipts clock _ => clock.later

def perform (hashing : Hashing) (config : NodeConfig) (key : RangeKey) (state : NodeState) :
    Delivery → NodeState × Except Status Unit
  | .migration clock snapshotRecords journalRecords =>
      applyMigrationBatch hashing config clock state
        { changeId := key.changeId, rangeId := key.rangeId, snapshotRecords, journalRecords }
  | .receipts clock records =>
      applyDedupBatch hashing config clock state
        { changeId := key.changeId, rangeId := key.rangeId, records }

/-- What the call does to the staged range. -/
def stage (hashing : Hashing) (config : NodeConfig) (topology : TopologySnapshot)
    (destination : DestinationMigration) :
    Delivery → DestinationMigration × Option Status
  | .migration clock snapshotRecords journalRecords =>
      stageBatch hashing config topology clock destination snapshotRecords journalRecords
  | .receipts clock records =>
      stageDedupRecords hashing config topology clock.later (purgeStagedDedup destination clock.now)
        records

def performAll (hashing : Hashing) (config : NodeConfig) (key : RangeKey) (state : NodeState)
    (calls : List Delivery) :
    NodeState :=
  calls.foldl (fun state call => (call.perform hashing config key state).1) state

/-- Those of the calls that were answered without an error. -/
def accepted (hashing : Hashing) (config : NodeConfig) (key : RangeKey) :
    NodeState → List Delivery → List Delivery
  | _, [] => []
  | state, call :: rest =>
      let (after, answer) := call.perform hashing config key state
      if answer = .ok () then call :: accepted hashing config key after rest else accepted hashing
        config key after rest

/-- The call brings records of the source only. -/
structure Brings (items : SourceItems) (call : Delivery) : Prop where
  snapshot : ∀ sent ∈ call.snapshotRecords, ∃ item ∈ items.snapshot, sent.Carries item.1 item.2
  journal : ∀ entry ∈ call.journalRecords, ∃ index item, items.journal[index]? = some item ∧
    entry.watermark = index + 1 ∧ entry.Carries item.1 item.2

end Delivery

section Journal

variable (hashing : Hashing) (config : NodeConfig) (topology : TopologySnapshot) (now : Instant)

/-- The entry is taken in: what is staged holds its key at its version or a newer one,
and its receipt, if it came with one that has time left. -/
def Applied (entry : JournalRecord) (staged : DestinationMigration) : Prop :=
  ∃ sent key record, entry.record = some sent ∧ sent.Carries key record ∧
    Reaches Record.version staged.records key record.version ∧
    (sent.mutationId.isEmpty = false → sent.remainingRetentionMillis ≠ 0 →
      ReceiptStaged (journalReceipt sent) topology.timings.receiptRetentionMillis now staged)

variable {hashing config topology now}

theorem JournalStep.receipts {entry : JournalRecord} {sent : MigrationRecord} {key : Bytes}
    {record : Record} {before receipted after : DestinationMigration}
    (step : JournalStep hashing config topology now entry sent key record before receipted after) :
    ReceiptsGrow before after ∧ (sent.mutationId.isEmpty = false → sent.remainingRetentionMillis ≠ 0 →
      ReceiptStaged (journalReceipt sent) topology.timings.receiptRetentionMillis now after) := by
  have receipt := step.receipt
  rw [step.result]
  split at receipt
  · rename_i empty
    obtain rfl := Except.ok.inj receipt
    exact ⟨ReceiptsGrow.refl _, fun present => absurd (empty.symm.trans present) (by simp)⟩
  · obtain ⟨grow, stages⟩ := stage_dedup_holds receipt
    exact ⟨grow, fun _ => stages⟩

theorem JournalStep.applies {entry : JournalRecord} {sent : MigrationRecord} {key : Bytes}
    {record : Record} {before receipted after : DestinationMigration}
    (step : JournalStep hashing config topology now entry sent key record before receipted after) :
    Applied topology now entry after ∧ ∀ other, Applied topology now other before →
      Applied topology now other after := by
  obtain ⟨grow, stages⟩ := step.receipts
  have records : after.records = offer Record.version before.records key record := by rw [step.result]
  constructor
  · exact ⟨sent, key, record, step.found, step.carried, records ▸ offer_reaches _ _ _, stages⟩
  · rintro other ⟨brought, probe, value, found, carried, reached, receipt⟩
    exact ⟨brought, probe, value, found, carried, records ▸ offer_grows _ _ _ _ _ reached,
      fun named left => grow.receipt_staged (receipt named left)⟩

variable (hashing config topology now)

theorem stage_journal_passes (entries : List JournalRecord)
    (sound : ∀ entry ∈ entries, ∃ key record, entry.Carries key record)
    (destination : DestinationMigration) :
    destination.watermark ≤ (stageJournalRecords hashing config topology now destination
      entries).1.watermark ∧
      ∀ watermark, destination.watermark < watermark →
        watermark ≤ (stageJournalRecords hashing config topology now destination entries).1.watermark →
          ∃ entry ∈ entries, entry.watermark = watermark ∧
            Applied topology now entry
              (stageJournalRecords hashing config topology now destination entries).1 := by
  apply stage_journal_invariant hashing config topology now
    (fun current => destination.watermark ≤ current.watermark ∧ ∀ watermark, destination.watermark <
      watermark →
      watermark ≤ current.watermark → ∃ entry ∈ entries, entry.watermark = watermark ∧
        Applied topology now entry current)
    entries sound
  · rintro entry member sent key record before receipted after step ⟨grown, passed⟩
    obtain ⟨_, _, frame⟩ := step.frame
    obtain ⟨applied, keeps⟩ := step.applies
    have moved : after.watermark = before.watermark + 1 := by
      rw [frame]
      exact step.next
    refine ⟨by omega, fun watermark above below => ?_⟩
    by_cases earlier : watermark ≤ before.watermark
    · obtain ⟨other, listed, same, taken⟩ := passed watermark above earlier
      exact ⟨other, listed, same, keeps other taken⟩
    · exact ⟨entry, member, by have := step.next; omega, applied⟩
  · exact ⟨le_refl _, fun watermark above below => absurd below (not_le.mpr above)⟩

theorem stage_journal_accepted (entries : List JournalRecord)
    (sound : ∀ entry ∈ entries, ∃ key record, entry.Carries key record)
    (destination : DestinationMigration)
    (accepted : (stageJournalRecords hashing config topology now destination entries).2 = none)
    (entry : JournalRecord) (member : entry ∈ entries) :
    entry.watermark ≤ (stageJournalRecords hashing config topology now destination
      entries).1.watermark := by
  induction entries generalizing destination with
  | nil => exact absurd member (by simp)
  | cons first rest ih =>
      have later : ∀ entry ∈ rest, ∃ key record, entry.Carries key record := fun entry listed =>
        sound entry (List.mem_cons_of_mem _ listed)
      have rises : ∀ staged : DestinationMigration,
          staged.watermark ≤ (stageJournalRecords hashing config topology now staged
              rest).1.watermark := fun staged =>
        (stage_journal_passes hashing config topology now rest later staged).1
      obtain ⟨key, record, sent, found, carried⟩ := sound first List.mem_cons_self
      unfold stageJournalRecords at accepted ⊢
      by_cases old : first.watermark ≤ destination.watermark
      · simp only [old, ↓reduceIte] at accepted ⊢
        rcases List.mem_cons.mp member with rfl | listed
        · exact old.trans (rises destination)
        · exact ih later destination accepted listed
      · by_cases next : first.watermark = destination.watermark + 1
        · rw [if_neg old, if_neg (not_not.mpr next), found] at accepted ⊢
          by_cases inside : destination.range.contains (topology.keyToken hashing sent.key) = false
          · simp [inside] at accepted
          · simp only [if_neg inside] at accepted ⊢
            rcases stage_journal_record_cases config topology now destination first.watermark sent
              key record carried with
              ⟨status, failed⟩ | ⟨receipted, _, staged⟩
            · simp [failed] at accepted
            · simp only [staged] at accepted ⊢
              rcases List.mem_cons.mp member with rfl | listed
              · exact rises { receipted with
                  records := offer Record.version destination.records key record, watermark :=
                    entry.watermark }
              · exact ih later _ accepted listed
        · simp [old, next] at accepted

end Journal

section Merge

variable (hashing : Hashing) (config : NodeConfig) (topology : TopologySnapshot) {items : SourceItems}

/-- What holds of the staged range while calls arrive, with those that were accepted. -/
structure Merged (items : SourceItems) (taken : List Delivery) (staged : DestinationMigration) :
    Prop where
  pending : staged.committed = false
  drawn : ∀ key record, staged.records.lookup key = some record → (key, record) ∈ items.snapshot ++
    items.journal
  behind : staged.watermark ≤ items.journal.length
  caughtUp : ∀ index item, items.journal[index]? = some item → index < staged.watermark →
    Reaches Record.version staged.records item.1 item.2.version
  shown : ∀ call ∈ taken, ∀ sent ∈ call.snapshotRecords, ∀ key record, sent.Carries key record →
    Reaches Record.version staged.records key record.version
  passed : ∀ call ∈ taken, ∀ entry ∈ call.journalRecords, entry.watermark ≤ staged.watermark

theorem Merged.empty (items : SourceItems) (range : RangeSpec) : Merged items []
    (emptyDestination range) where
  pending := rfl
  drawn _ _ found := absurd found (by simp [emptyDestination])
  behind := Nat.zero_le _
  caughtUp _ _ _ early := absurd early (Nat.not_lt_zero _)
  shown _ listed := absurd listed (by simp)
  passed _ listed := absurd listed (by simp)

/-- Purging staged receipts, and staging more of them, leaves records and watermark. -/
theorem Merged.same_records {taken : List Delivery} {before after : DestinationMigration}
    (merged : Merged items taken before)
    (frame : ∃ dedup dedupBytes, after = { before with dedup, dedupBytes }) :
    Merged items taken after := by
  obtain ⟨_, _, rfl⟩ := frame
  exact ⟨merged.pending, merged.drawn, merged.behind, merged.caughtUp, merged.shown, merged.passed⟩

theorem Merged.snapshot {taken : List Delivery} {staged : DestinationMigration}
    (merged : Merged items taken staged) (records : List MigrationRecord)
    (brings : ∀ sent ∈ records, ∃ item ∈ items.snapshot, sent.Carries item.1 item.2) :
    Merged items taken (stageSnapshotRecords hashing topology staged records).1 ∧
      ((stageSnapshotRecords hashing topology staged records).2 = none → ∀ sent ∈ records, ∀ key record,
        sent.Carries key record →
          Reaches Record.version (stageSnapshotRecords hashing topology staged records).1.records
          key
          record.version) := by
  have sound : ∀ sent ∈ records, ∃ record, sent.Carries sent.key record ∧
      (sent.key, record) ∈ items.snapshot := by
    intro sent member
    obtain ⟨⟨key, record⟩, listed, carried⟩ := brings sent member
    obtain rfl := carried.key
    exact ⟨record, carried, listed⟩
  obtain ⟨extended, complete⟩ :=
    stage_snapshot_effect hashing topology (fun key record => (key, record) ∈ items.snapshot)
    records sound staged
  refine ⟨?_, complete⟩
  obtain ⟨map, frame⟩ := stage_snapshot_frame hashing topology records staged
  rw [frame] at extended ⊢
  exact {
    pending := merged.pending
    drawn := fun key record found => by
      rcases extended.origin key record found with older | ⟨_, fresh⟩
      · exact merged.drawn key record older
      · exact List.mem_append_left _ fresh
    behind := merged.behind
    caughtUp := fun index item listed early => extended.grows _ _
      (merged.caughtUp index item listed early)
    shown := fun call member sent listed key record carried =>
      extended.grows _ _ (merged.shown call member sent listed key record carried)
    passed := merged.passed }

theorem Merged.journal {taken : List Delivery} {staged : DestinationMigration}
    (merged : Merged items taken staged) (now : Instant) (entries : List JournalRecord)
    (brings : ∀ entry ∈ entries, ∃ index item, items.journal[index]? = some item ∧
      entry.watermark = index + 1 ∧
      entry.Carries item.1 item.2) :
    Merged items taken (stageJournalRecords hashing config topology now staged entries).1 ∧
      ∀ key bound, Reaches Record.version staged.records key bound →
        Reaches Record.version (stageJournalRecords hashing config topology now staged
          entries).1.records key bound := by
  apply stage_journal_invariant hashing config topology now
    (fun current => Merged items taken current ∧ ∀ key bound,
      Reaches Record.version staged.records key bound →
      Reaches Record.version current.records key bound) entries
  · intro entry member
    obtain ⟨_, item, _, _, carried⟩ := brings entry member
    exact ⟨item.1, item.2, carried⟩
  · rintro entry member sent key record before receipted after step ⟨held, grown⟩
    obtain ⟨index, item, listed, numbered, carries⟩ := brings entry member
    obtain ⟨rfl, rfl⟩ := carries.unique ⟨sent, step.found, step.carried⟩
    obtain ⟨_, _, rfl⟩ := step.frame
    have next := step.next
    have bound := (List.getElem?_eq_some_iff.mp listed).1
    refine ⟨?_, fun probe bound reached => offer_grows _ _ _ _ _ (grown probe bound reached)⟩
    exact {
      pending := held.pending
      drawn := fun probe found stored => by
        rcases offer_origin _ _ _ _ _ stored with ⟨rfl, rfl⟩ | older
        · exact List.mem_append_right _ (List.mem_of_getElem? listed)
        · exact held.drawn probe found older
      behind := by
        simp only
        omega
      caughtUp := fun other past known early => by
        simp only at early
        -- The entry just taken in is the only one the watermark newly covers.
        by_cases newest : other = index
        · subst newest
          obtain rfl := Option.some.inj (listed.symm.trans known)
          exact offer_reaches _ _ _
        · exact offer_grows _ _ _ _ _ (held.caughtUp other past known (by omega))
      shown := fun call taken sent among probe found carried =>
        offer_grows _ _ _ _ _ (held.shown call taken sent among probe found carried)
      passed := fun call taken other among => by
        have before := held.passed call taken other among
        simp only
        omega }
  · exact ⟨merged, fun _ _ reached => reached⟩

theorem Merged.call {taken : List Delivery} {staged : DestinationMigration}
    (merged : Merged items taken staged) (call : Delivery) (brings : call.Brings items) :
    Merged items taken (call.stage hashing config topology staged).1 ∧
      ((call.stage hashing config topology staged).2 = none →
        Merged items (call :: taken) (call.stage hashing config topology staged).1) := by
  have cleared : ∀ now, Merged items taken (purgeStagedDedup staged now) :=
    fun now => merged.same_records ⟨_, _, rfl⟩
  cases call with
  | receipts clock records =>
      have kept := (cleared clock.now).same_records
        (stage_dedup_records_frame hashing config topology clock.later records
          (purgeStagedDedup staged clock.now))
      refine ⟨kept, fun _ => ⟨kept.pending, kept.drawn, kept.behind, kept.caughtUp, ?_, ?_⟩⟩
      · intro call listed sent among
        rcases List.mem_cons.mp listed with rfl | before
        · exact absurd among (by simp [Delivery.snapshotRecords])
        · exact kept.shown call before sent among
      · intro call listed entry among
        rcases List.mem_cons.mp listed with rfl | before
        · exact absurd among (by simp [Delivery.journalRecords])
        · exact kept.passed call before entry among
  | migration clock snapshot journal =>
      have sound : ∀ entry ∈ journal, ∃ key record, entry.Carries key record := by
        intro entry member
        obtain ⟨_, item, _, _, carried⟩ := brings.journal entry member
        exact ⟨item.1, item.2, carried⟩
      obtain ⟨shown, complete⟩ := (cleared clock.now).snapshot hashing topology snapshot brings.snapshot
      -- The snapshot records come first; the entries are staged only when all of them fit.
      unfold Delivery.stage stageBatch
      simp only
      cases result : stageSnapshotRecords hashing topology (purgeStagedDedup staged clock.now)
        snapshot with
      | mk middle error =>
          rw [result] at shown complete
          cases error with
          | some status => exact ⟨shown, fun accepted => absurd accepted (by simp)⟩
          | none =>
              obtain ⟨kept, grown⟩ := shown.journal hashing config topology clock.later journal
                brings.journal
              refine ⟨kept, fun accepted => ⟨kept.pending, kept.drawn, kept.behind, kept.caughtUp,
                ?_, ?_⟩⟩
              · intro call listed sent among key record carried
                rcases List.mem_cons.mp listed with rfl | before
                · exact grown _ _ (complete rfl sent among key record carried)
                · exact kept.shown call before sent among key record carried
              · intro call listed entry among
                rcases List.mem_cons.mp listed with rfl | before
                · exact stage_journal_accepted hashing config topology clock.later journal sound
                    middle accepted entry among
                · exact kept.passed call before entry among

theorem Delivery.perform_pending (call : Delivery) (key : RangeKey) (state : NodeState)
    (staged : DestinationMigration) (held : state.destinations.lookup key = some staged)
    (pending : staged.committed = false) :
    call.perform hashing config key state =
      ({ state with destinations := state.destinations.insert key (call.stage hashing config state.topology staged).1 },
        answerOf (call.stage hashing config state.topology staged).2) := by
  cases call with
  | migration clock snapshot journal =>
      exact apply_batch_pending hashing config clock state _ staged held pending
  | receipts clock records => exact apply_dedup_pending hashing config clock state _ staged held pending

theorem merged_after (key : RangeKey) (calls : List Delivery)
    (brings : ∀ call ∈ calls, call.Brings items) (state : NodeState)
    (taken : List Delivery) (staged : DestinationMigration) (held : state.destinations.lookup key = some staged)
    (merged : Merged items taken staged) :
    ∃ final, (Delivery.performAll hashing config key state calls).destinations.lookup key = some final ∧
      Merged items (taken ++ Delivery.accepted hashing config key state calls) final := by
  induction calls generalizing state taken staged with
  | nil => exact ⟨staged, held, by simpa [Delivery.accepted] using merged⟩
  | cons call rest ih =>
      have later : ∀ call ∈ rest, call.Brings items :=
        fun call listed => brings call (List.mem_cons_of_mem _ listed)
      obtain ⟨kept, took⟩ := merged.call hashing config state.topology call
        (brings call List.mem_cons_self)
      have performed := call.perform_pending hashing config key state staged held merged.pending
      have stored : (call.perform hashing config key state).1.destinations.lookup key =
          some (call.stage hashing config state.topology staged).1 := by
        rw [performed]
        exact AList.lookup_insert _
      unfold Delivery.performAll Delivery.accepted
      rw [List.foldl_cons]
      -- A refused call leaves a merge all the same, but only an answered one counts as taken.
      by_cases answered : (call.perform hashing config key state).2 = .ok ()
      · have whole : (call.stage hashing config state.topology staged).2 = none := by
          rw [performed] at answered
          cases error : (call.stage hashing config state.topology staged).2 with
          | none => rfl
          | some status =>
              rw [error] at answered
              exact absurd answered (by simp [answerOf])
        obtain ⟨final, found, after⟩ := ih later _ (call :: taken) _ stored (took whole)
        refine ⟨final, found, ?_⟩
        simp only [answered, ↓reduceIte]
        have sameCalls : ∀ other, other ∈ taken ++ call :: Delivery.accepted hashing config key
            (call.perform hashing config key state).1 rest ↔ other ∈ call :: taken ++
              Delivery.accepted hashing config key
            (call.perform hashing config key state).1 rest := by
          intro other
          simp only [List.mem_append, List.mem_cons]
          tauto
        exact ⟨after.pending, after.drawn, after.behind, after.caughtUp,
          fun other listed => after.shown other ((sameCalls other).mp listed),
          fun other listed => after.passed other ((sameCalls other).mp listed)⟩
      · obtain ⟨final, found, after⟩ := ih later _ taken _ stored kept
        refine ⟨final, found, ?_⟩
        simpa only [answered, ↓reduceIte] using after

theorem Delivery.stage_passes (call : Delivery) (staged : DestinationMigration)
    (brings : call.Brings items) (watermark : Nat) (above : staged.watermark < watermark)
    (below : watermark ≤ (call.stage hashing config topology staged).1.watermark) :
    ∃ entry ∈ call.journalRecords, entry.watermark = watermark ∧
      Applied topology call.later entry (call.stage hashing config topology staged).1 := by
  cases call with
  | receipts clock records =>
      obtain ⟨_, _, frame⟩ := stage_dedup_records_frame hashing config topology clock.later records
        (purgeStagedDedup staged clock.now)
      unfold Delivery.stage at below
      simp only [frame] at below
      exact absurd below (not_le.mpr above)
  | migration clock snapshot journal =>
      have sound : ∀ entry ∈ journal, ∃ key record, entry.Carries key record := by
        intro entry member
        obtain ⟨_, item, _, _, carried⟩ := brings.journal entry member
        exact ⟨item.1, item.2, carried⟩
      obtain ⟨map, frame⟩ := stage_snapshot_frame hashing topology snapshot
        (purgeStagedDedup staged clock.now)
      unfold Delivery.stage stageBatch at below ⊢
      simp only at below ⊢
      cases result : stageSnapshotRecords hashing topology (purgeStagedDedup staged clock.now)
        snapshot with
      | mk middle error =>
          rw [result] at below frame
          have unmoved : middle.watermark = staged.watermark := by
            rw [show middle = _ from frame]
            rfl
          cases error with
          | some status => exact absurd (unmoved ▸ below) (not_le.mpr above)
          | none =>
              obtain ⟨entry, listed, same, applied⟩ :=
                (stage_journal_passes hashing config topology clock.later journal sound
                middle).2 watermark (unmoved.symm ▸ above) below
              exact ⟨entry, listed, same, applied⟩

end Merge

/-- Pages and journal entries of one source range reach an empty destination through
any calls that bring each of them at least once, repeated and failed calls among
them. The staged map then holds the newest of everything brought, as if each item
had come once and in order, the watermark is the journal's last, and no call moved
the watermark past an entry it had not taken in. -/
theorem staging_order_irrelevant (hashing : Hashing) (config : NodeConfig) (key : RangeKey)
    (range : RangeSpec) (state : NodeState)
    (held : state.destinations.lookup key = some (emptyDestination range)) (items : SourceItems)
    (calls : List Delivery) (brings : ∀ call ∈ calls, call.Brings items)
    (everyRecord : ∀ item ∈ items.snapshot, ∃ call ∈ Delivery.accepted hashing config key state calls,
      ∃ sent ∈ call.snapshotRecords, sent.Carries item.1 item.2)
    (everyEntry : ∀ watermark, 1 ≤ watermark → watermark ≤ items.journal.length →
      ∃ call ∈ Delivery.accepted hashing config key state calls, ∃ entry ∈ call.journalRecords,
        entry.watermark = watermark) :
    (∃ staged, (Delivery.performAll hashing config key state calls).destinations.lookup key =
      some staged ∧
        staged.watermark = items.journal.length ∧
        HoldsNewest Record.version (items.snapshot ++ items.journal) staged.records ∧
        ∀ probe, staged.records.lookup probe =
          (offerAll Record.version (items.snapshot ++ items.journal)).lookup probe) ∧
      ∀ early call late, calls = early ++ call :: late → ∀ before after,
        (Delivery.performAll hashing config key state early).destinations.lookup key = some before →
        (Delivery.performAll hashing config key state (early ++ [call])).destinations.lookup key =
          some after →
        ∀ watermark, before.watermark < watermark → watermark ≤ after.watermark →
          ∃ entry ∈ call.journalRecords, entry.watermark = watermark ∧
            Applied (Delivery.performAll hashing config key state early).topology call.later entry
              after := by
  constructor
  · -- What every accepted call has merged is drawn from the items and reaches all of them.
    obtain ⟨staged, found, merged⟩ := merged_after hashing config key calls brings state [] _ held
      (.empty items range)
    rw [List.nil_append] at merged
    -- The watermark is at the end: the call that brought the last entry has passed it.
    have last : staged.watermark = items.journal.length := by
      refine le_antisymm merged.behind ?_
      by_cases none : items.journal.length = 0
      · omega
      · obtain ⟨call, taken, entry, listed, same⟩ :=
          everyEntry items.journal.length (by omega) (le_refl _)
        rw [← same]
        exact merged.passed call taken entry listed
    -- Nothing is staged from outside the items, and every item has been offered.
    have newest : HoldsNewest Record.version (items.snapshot ++ items.journal) staged.records := by
      refine holds_newest_of_reached items.agree merged.drawn fun item listed => ?_
      rcases List.mem_append.mp listed with shown | journaled
      · obtain ⟨call, taken, sent, among, carried⟩ := everyRecord item shown
        exact merged.shown call taken sent among _ _ carried
      · obtain ⟨index, bound, same⟩ := List.mem_iff_getElem.mp journaled
        exact merged.caughtUp index item (List.getElem?_eq_some_iff.mpr ⟨bound, same⟩) (last ▸ bound)
    exact ⟨staged, found, last, newest, newest.unique (offer_all_newest items.agree)⟩
  · -- What came before the call left a merge, so the call starts from one.
    intro early call late split before after foundBefore foundAfter watermark above below
    have among : ∀ other ∈ early ++ [call], other ∈ calls := by
      intro other listed
      rw [split, List.append_cons]
      exact List.mem_append_left _ listed
    obtain ⟨staged, found, merged⟩ := merged_after hashing config key early
      (fun other listed => brings other (among other (List.mem_append_left _ listed))) state
        [] _ held (.empty items range)
    obtain rfl := Option.some.inj (foundBefore.symm.trans found)
    have performed := call.perform_pending hashing config key
      (Delivery.performAll hashing config key state early) before found
      merged.pending
    simp only [Delivery.performAll, List.foldl_append, List.foldl_cons, List.foldl_nil]
      at foundAfter performed
    rw [performed, AList.lookup_insert] at foundAfter
    obtain rfl := Option.some.inj foundAfter
    exact call.stage_passes hashing config _ before (brings call (among call (by simp))) watermark
      above below

namespace StagingSample

def record (sequence : Nat) : Record := .stored [byte sequence] ⟨1, sequence, "a"⟩ false none (by simp)

def sent (sequence : Nat) : MigrationRecord := snapshotRecord [byte 1] (record sequence)

def entry (watermark : Nat) : JournalRecord := ⟨watermark, some (sent (watermark + 1))⟩

/-- A key the snapshot shows at its first version and the journal rewrites twice. -/
def items : SourceItems where
  snapshot := [([byte 1], record 1)]
  journal := [([byte 1], record 2), ([byte 1], record 3)]
  agree := by
    unfold VersionedMap.Agree
    decide

def config : NodeConfig := { nodeId := "b", processInstanceId := "b-1" }

def range : RangeSpec := ⟨"change", "range", 0, 6, "a", "b"⟩

def state : NodeState :=
    { topology := Sample.topology, destinations := AList.insert range.key (emptyDestination range) ∅ }

/-- The second entry comes too early, then everything, then the first half again. -/
def calls : List Delivery :=
  [.migration (Sample.clock 1) [] [entry 2], .migration (Sample.clock 2) [] [entry 1, entry 2],
    .migration (Sample.clock 3) [sent 1] [entry 1]]

def Known (entry : JournalRecord) : Prop :=
  ∃ index item, items.journal[index]? = some item ∧ entry.watermark = index + 1 ∧
    entry.Carries item.1 item.2

theorem first_known : Known (entry 1) :=
  ⟨0, ([byte 1], record 2), rfl, rfl, sent 2, rfl, snapshot_record_carries _ _⟩

theorem second_known : Known (entry 2) :=
  ⟨1, ([byte 1], record 3), rfl, rfl, sent 3, rfl, snapshot_record_carries _ _⟩

theorem calls_bring (call : Delivery) (listed : call ∈ calls) : call.Brings items := by
  simp only [calls, List.mem_cons, List.not_mem_nil, or_false] at listed
  rcases listed with rfl | rfl | rfl
  · refine ⟨fun _ member => absurd member (by simp [Delivery.snapshotRecords]), fun _ member => ?_⟩
    obtain rfl := List.mem_singleton.mp member
    exact second_known
  · refine ⟨fun _ member => absurd member (by simp [Delivery.snapshotRecords]), fun _ member => ?_⟩
    rcases List.mem_cons.mp member with rfl | member
    · exact first_known
    · obtain rfl := List.mem_singleton.mp member
      exact second_known
  · refine ⟨fun _ member => ?_, fun _ member => ?_⟩
    · obtain rfl := List.mem_singleton.mp member
      exact ⟨_, List.mem_singleton_self _, snapshot_record_carries _ _⟩
    · obtain rfl := List.mem_singleton.mp member
      exact first_known

end StagingSample

/-- A call that fails, one that brings the journal, and a late snapshot page. -/
theorem staging_order_three_calls :
    ∃ staged, (Delivery.performAll Sample.hashing StagingSample.config StagingSample.range.key
      StagingSample.state
        StagingSample.calls).destinations.lookup StagingSample.range.key = some staged ∧
          staged.watermark = 2 ∧
      staged.records.lookup [byte 1] = some (StagingSample.record 3) := by
  have taken : Delivery.accepted Sample.hashing StagingSample.config StagingSample.range.key
      StagingSample.state
      StagingSample.calls = StagingSample.calls.tail := rfl
  have everyRecord : ∀ item ∈ StagingSample.items.snapshot, ∃ call ∈ StagingSample.calls.tail,
      ∃ sent ∈ call.snapshotRecords, sent.Carries item.1 item.2 := by
    intro item listed
    obtain rfl := List.mem_singleton.mp listed
    exact ⟨_, .tail _ (.head _), StagingSample.sent 1, .head _, snapshot_record_carries _ _⟩
  have everyEntry : ∀ watermark, 1 ≤ watermark → watermark ≤ StagingSample.items.journal.length →
      ∃ call ∈ StagingSample.calls.tail, ∃ entry ∈ call.journalRecords, entry.watermark = watermark := by
    intro watermark low high
    have bound : watermark ≤ 2 := high
    obtain rfl | rfl : watermark = 1 ∨ watermark = 2 := by omega
    · exact ⟨_, .head _, StagingSample.entry 1, .head _, rfl⟩
    · exact ⟨_, .head _, StagingSample.entry 2, .tail _ (.head _), rfl⟩
  rw [← taken] at everyRecord everyEntry
  obtain ⟨⟨staged, found, last, _, same⟩, _⟩ :=
    staging_order_irrelevant Sample.hashing StagingSample.config
    StagingSample.range.key StagingSample.range StagingSample.state (AList.lookup_insert _)
      StagingSample.items
    StagingSample.calls StagingSample.calls_bring everyRecord everyEntry
  exact ⟨staged, found, last, (same [byte 1]).trans (by decide +kernel)⟩

end Hashring
