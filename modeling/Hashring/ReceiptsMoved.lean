import Hashring.ReceiptStaging

/-! The receipts of a moved range over a whole run. The events of a move carry
the clock readings they take; in a timed run these never go back. -/
namespace Hashring.RangeMove

def Event.reading : Event → Option (Instant × Instant)
  | .write clock _ _ => some (clock.now, clock.later)
  | .finishAcks now .. => some (now, now)
  | .purge now => some (now, now)
  | .readDedup now _ _ => some (now, now)
  | .readChangelog now _ _ => some (now, now)
  | .applyBatch clock _ _ => some (clock.now, clock.later)
  | .applyDedup clock _ => some (clock.now, clock.later)
  | .sweep _ _ => none
  | .sourceOther _ => none
  | .readSnapshot _ _ => none
  | .pause => none
  | .destinationOther _ => none

/-- The time moves from `before` to `after` across an event with these readings. -/
def Elapses (before : Instant) (reading : Option (Instant × Instant)) (after : Instant) : Prop :=
  match reading with
  | none => after = before
  | some (first, last) => before ≤ first ∧ after = last

section

variable (hashing : Hashing) (sourceConfig destinationConfig : NodeConfig) (range : RangeSpec)

def TimedStep (before : Instant × Move) (event : Event) (after : Instant × Move) : Prop :=
  Step hashing sourceConfig destinationConfig range before.2 event after.2 ∧
    Elapses before.1 event.reading after.1

def ReceiptsInv (initial : FiniteMap String DedupEntry) (topology : TopologySnapshot) (time : Instant)
    (source : SourceMigration) (staged : DestinationMigration) (move : Move) : Prop :=
  ReceiptInv (Scope hashing range topology) initial topology.timings.receiptRetentionMillis time
    source staged
    move.source.state.dedup move.dedupPages move.changelogPages move.dedupApplied

variable {initial : FiniteMap Bytes Record} {receipts : FiniteMap String DedupEntry}
variable {sourceTopology topology : TopologySnapshot} {source later : SourceMigration}
  {staged : DestinationMigration}
variable {time : Instant} {move after : Move}

theorem write_unseen {clock : Clock} {before next : NodeState} {request : WriteRequest}
    {ready : Readiness} {plan : WritePlan} {record : Record} {entries : List PreparedReplication}
    {expiresAt : Instant} (inv : SourceInv hashing sourceConfig range initial before source)
    (stored : WriteStored hashing sourceConfig clock before next request ready plan record entries)
    (placed : ready.token = keyToken hashing request.key ready.tokenSeed) :
    ∀ journaled ∈ source.journal,
      ¬Records journaled plan.requestId (writeReceipt plan record expiresAt ready.followers entries) := by
  rintro journaled member ⟨sent, found, described⟩
  obtain ⟨key, past, ⟨again, same, carried⟩, inside⟩ := inv.carried journaled member
  obtain rfl := Option.some.inj (found.symm.trans same)
  obtain rfl : key = plan.key := carried.key.symm.trans described.key
  have sameVersion : past.version = record.version :=
    Option.some.inj (carried.version.symm.trans described.version)
  obtain ⟨current, held, order⟩ :=
    inv.tracks.newest plan.key past inside (Or.inr ⟨journaled, member, sent, found, carried⟩)
  have below := (stored_lookup hashing sourceConfig stored placed inv.versions).1 current held
  rcases order with rfl | lower
  · exact absurd sameVersion (ne_of_lt below)
  · exact absurd sameVersion (ne_of_lt (lt_trans lower below))

theorem receipts_inv_write (clock : Clock) (request : WriteRequest) (ready : Readiness)
    (inv : MoveInv hashing sourceConfig range initial sourceTopology topology source staged move)
    (held : ReceiptsInv hashing range receipts sourceTopology time source staged move)
    (order : time ≤ clock.now) (placed : ready.token = keyToken hashing request.key ready.tokenSeed)
    (found : ((commitRequest hashing sourceConfig clock move.source request ready).1.state.sources.lookup
      range.key).map SourceMigration.undeferred = some later) :
    ReceiptsInv hashing range receipts sourceTopology clock.later later staged
      { move with source := (commitRequest hashing sourceConfig clock move.source request ready).1 } := by
  have soon : time ≤ clock.later := le_trans order clock.ordered
  rcases commit_request_effect hashing sourceConfig clock move.source request ready with
    kept | ⟨plan, record, entries, stored⟩
  · -- Nothing was written: at most expired receipts went.
    rw [kept.sources, inv.sourceSide.held] at found
    obtain rfl := Option.some.inj found
    refine receipt_inv_quieter held soon ?_ rfl rfl
    rcases kept.receipts with same | purged
    · simp only [same]
      exact Quieter.refl _ _
    · simp only [purged]
      exact quieter_purge hashing move.source.state clock.now clock.later clock.ordered
  · have purged := receipt_inv_quieter held soon
      (quieter_purge hashing move.source.state clock.now clock.later clock.ordered) rfl rfl
    have moved := stored_source hashing sourceConfig range stored inv.sourceSide.held
    rw [found] at moved
    obtain rfl := Option.some.inj moved
    obtain ⟨shape, valid, _⟩ := stored.valid
    have here : ready.token = sourceTopology.keyToken hashing plan.key := by
      rw [placed, TopologySnapshot.keyToken, ← inv.sourceSame, stored.seed, stored.key]
    have retention : move.source.state.topology.timings = sourceTopology.timings := by rw [inv.sourceSame]
    -- The receipt is new; in the range it comes with a journal entry that names it.
    apply receipt_inv_insert (if source.range.contains ready.token then
      [journalEntry plan record (source.watermark + 1)] else []) purged stored.fresh stored.receipts
    · rw [retention]
      exact le_refl _
    · exact write_unseen hashing sourceConfig range inv.sourceSide stored placed
    · split <;> rfl
    · split
      · rfl
      · simp
    · intro journaled member sent written
      split at member
      · obtain rfl := List.mem_singleton.mp member
        obtain rfl := Option.some.inj written
        have named := (not_or.mp
            (validate_mutation_id_none _ (validated_request sourceConfig request shape valid).2)).1
        rw [← stored.id] at named
        simpa using named
      · exact absurd member (by simp)
    · intro journaled member
      split at member
      · obtain rfl := List.mem_singleton.mp member
        exact Nat.lt_succ_of_le inv.stagedSide.behind
      · exact absurd member (by simp)
    · intro inside
      have covered : source.range.contains ready.token = true := by
        rw [here, inv.sourceSide.specified]
        exact inside
      rw [if_pos covered]
      exact ⟨_, List.mem_singleton_self _, _, rfl, rfl, rfl, rfl, rfl, stored.deleted⟩

theorem stored_fields (inv : SourceInv hashing sourceConfig range initial move.source.state source)
    {stored : SourceMigration} (found : move.source.state.sources.lookup range.key = some stored) :
    stored.journal = source.journal ∧ stored.snapshotDedupIds = source.snapshotDedupIds := by
  obtain ⟨again, lookup, fields⟩ := lookup_undeferred inv.held
  obtain rfl : again = stored := Option.some.inj (lookup.symm.trans found)
  rw [← fields]
  exact ⟨rfl, rfl⟩

theorem carries_record (inv : SourceInv hashing sourceConfig range initial move.source.state source) :
    ∀ journaled ∈ source.journal, ∃ key record, journaled.Carries key record := by
  intro journaled member
  obtain ⟨key, record, carried, _⟩ := inv.carried journaled member
  exact ⟨key, record, carried⟩

theorem receipts_inv_dedup_page {now : Instant} {cursor maxBytes : Nat} {page : DedupSnapshotPageResponse}
    (inv : MoveInv hashing sourceConfig range initial sourceTopology topology source staged move)
    (held : ReceiptsInv hashing range receipts sourceTopology now source staged move)
    (read : readDedupSnapshotPage sourceConfig now move.source.state
      ⟨range.changeId, range.rangeId, cursor, maxBytes⟩ =
      .ok page) :
    ReceiptsInv hashing range receipts sourceTopology now source staged
      { move with dedupPages := (cursor, page) :: move.dedupPages } := by
  obtain ⟨stored, count, found, next, records⟩ := read_dedup_page_spec sourceConfig now _ _ page read
  rw [(stored_fields hashing sourceConfig range inv.sourceSide found).2, inv.sourceSame] at records
  exact receipt_inv_read now cursor page count held next records

theorem receipts_inv_changelog_page {now : Instant} {afterWatermark maxBytes : Nat}
    {page : ChangelogPageResponse}
    (inv : MoveInv hashing sourceConfig range initial sourceTopology topology source staged move)
    (held : ReceiptsInv hashing range receipts sourceTopology now source staged move)
    (read : readChangelogPage sourceConfig now move.source.state
      ⟨range.changeId, range.rangeId, afterWatermark, maxBytes⟩ =
      .ok page) :
    ReceiptsInv hashing range receipts sourceTopology now source staged
      { move with changelogPages := page :: move.changelogPages } := by
  obtain ⟨stored, found, copies⟩ := read_changelog_page_spec sourceConfig now _ _ page read
  rw [(stored_fields hashing sourceConfig range inv.sourceSide found).1, inv.sourceSame] at copies
  exact receipt_inv_changelog now page held
    (carries_record hashing sourceConfig range inv.sourceSide) copies

theorem receipts_inv_step {event : Event} {clocked : Instant}
    (retention : topology.timings = sourceTopology.timings)
    (inv : MoveInv hashing sourceConfig range initial sourceTopology topology source staged move)
    (held : ReceiptsInv hashing range receipts sourceTopology time source staged move)
    (taken : TimedStep hashing sourceConfig destinationConfig range (time, move) event (clocked, after)) :
    ∃ later restaged, MoveInv hashing sourceConfig range initial sourceTopology topology later
      restaged after ∧
      ReceiptsInv hashing range receipts sourceTopology clocked later restaged after := by
  -- The record side moves first: it names the migrations after the step, and where an
  -- event leaves them alone they are the ones before it.
  obtain ⟨step, elapsed⟩ := taken
  obtain ⟨later, restaged, kept, grows⟩ :=
    move_inv_step hashing sourceConfig destinationConfig range initial
    sourceTopology topology inv step
  obtain ⟨admissible, rfl⟩ := step
  simp only at elapsed admissible kept ⊢
  cases event with
  | write clock request ready =>
      obtain ⟨order, rfl⟩ := elapsed
      obtain ⟨now, earlier, proceeded⟩ := admissible
      obtain rfl : restaged = staged := Option.some.inj (kept.held.symm.trans inv.held)
      exact ⟨later, restaged, kept, receipts_inv_write hashing sourceConfig range clock request
        ready inv held order
        (lookup_proceeds_token hashing sourceConfig now earlier request _ _ proceeded)
          kept.sourceSide.held⟩
  | finishAcks now reached epoch mutationId version required =>
      obtain ⟨order, rfl⟩ := elapsed
      obtain rfl : restaged = staged := Option.some.inj (kept.held.symm.trans inv.held)
      obtain ⟨_, _, frame⟩ := finish_acks_frame clocked move.source.state reached epoch mutationId
        version required
      have unmoved := kept.sourceSide.held
      simp only [next, frame] at unmoved
      obtain rfl : later = source := Option.some.inj (unmoved.symm.trans inv.sourceSide.held)
      exact ⟨later, restaged, kept, receipt_inv_quieter held order (quieter_finish _ _ _ _ _ _ _ _)
        rfl rfl⟩
  | sweep nowUnixMillis limit =>
      obtain rfl := elapsed
      obtain rfl : restaged = staged := Option.some.inj (kept.held.symm.trans inv.held)
      have swept := sweep_swept hashing nowUnixMillis limit move.source.state
      have unmoved := kept.sourceSide.held.symm.trans (swept.only.2 range.key)
      obtain rfl : later = source := Option.some.inj (unmoved.trans inv.sourceSide.held)
      have same : (sweepExpiredRecords hashing nowUnixMillis limit move.source.state).1.dedup =
          move.source.state.dedup := by
        obtain ⟨⟨_, _, _, _, frame⟩, _⟩ := swept.only
        rw [frame]
      refine ⟨later, restaged, kept, ?_⟩
      simp only [ReceiptsInv, next, same]
      exact held
  | purge now =>
      obtain ⟨order, rfl⟩ := elapsed
      obtain rfl : restaged = staged := Option.some.inj (kept.held.symm.trans inv.held)
      have unmoved := kept.sourceSide.held
      simp only [next, (purge_kept hashing move.source.state clocked).sources] at unmoved
      obtain rfl : later = source := Option.some.inj (unmoved.symm.trans inv.sourceSide.held)
      exact ⟨later, restaged, kept, receipt_inv_quieter held order
        (quieter_purge hashing move.source.state clocked clocked (le_refl clocked)) rfl rfl⟩
  | sourceOther rest =>
      obtain rfl := elapsed
      obtain rfl : restaged = staged := Option.some.inj (kept.held.symm.trans inv.held)
      obtain rfl : later = source := Option.some.inj (kept.sourceSide.held.symm.trans inv.sourceSide.held)
      exact ⟨later, restaged, kept, held⟩
  | readSnapshot cursor maxBytes =>
      obtain rfl := elapsed
      refine ⟨later, restaged, kept, ?_⟩
      unfold next at kept ⊢
      simp only at kept ⊢
      split at kept
      · obtain rfl : restaged = staged := Option.some.inj (kept.held.symm.trans inv.held)
        obtain rfl : later = source :=
          Option.some.inj (kept.sourceSide.held.symm.trans inv.sourceSide.held)
        exact held
      · obtain rfl : restaged = staged := Option.some.inj (kept.held.symm.trans inv.held)
        obtain rfl : later = source :=
          Option.some.inj (kept.sourceSide.held.symm.trans inv.sourceSide.held)
        exact held
  | readDedup now cursor maxBytes =>
      obtain ⟨order, rfl⟩ := elapsed
      have quiet : ReceiptsInv hashing range receipts sourceTopology clocked source staged move :=
        receipt_inv_quieter held order (Quieter.refl _ _) rfl rfl
      unfold next at kept ⊢
      simp only at kept ⊢
      split at kept
      · exact ⟨source, staged, inv, quiet⟩
      · rename_i page read
        have unmoved : MoveInv hashing sourceConfig range initial sourceTopology topology source staged
            { move with dedupPages := (cursor, page) :: move.dedupPages } := { inv with }
        exact ⟨source, staged, unmoved, receipts_inv_dedup_page hashing sourceConfig range inv quiet read⟩
  | readChangelog now afterWatermark maxBytes =>
      obtain ⟨order, rfl⟩ := elapsed
      have quiet : ReceiptsInv hashing range receipts sourceTopology clocked source staged move :=
        receipt_inv_quieter held order (Quieter.refl _ _) rfl rfl
      unfold next at kept ⊢
      simp only at kept ⊢
      split at kept
      · exact ⟨source, staged, inv, quiet⟩
      · rename_i page read
        obtain rfl : restaged = staged := Option.some.inj (kept.held.symm.trans inv.held)
        obtain rfl : later = source :=
          Option.some.inj (kept.sourceSide.held.symm.trans inv.sourceSide.held)
        exact ⟨later, restaged, kept, receipts_inv_changelog_page hashing sourceConfig range inv
          quiet read⟩
  | pause =>
      obtain rfl := elapsed
      obtain ⟨stored, found, fields⟩ := lookup_undeferred inv.sourceSide.held
      have paused : pauseRangeWrites move.source.state range.key =
          ({ move.source.state with
             sources := move.source.state.sources.insert range.key { stored with writesPaused := true } },
            .ok stored.watermark) := by
        unfold pauseRangeWrites
        rw [found]
      refine ⟨later, restaged, kept, ?_⟩
      simp only [next, paused] at kept ⊢
      obtain rfl : restaged = staged := Option.some.inj (kept.held.symm.trans inv.held)
      have marked := kept.sourceSide.held
      simp only [AList.lookup_insert, Option.map_some, Option.some.injEq] at marked
      have sameJournal : later.journal = source.journal := by
        rw [← marked, ← fields]
        rfl
      exact receipt_inv_quieter held (le_refl _) (Quieter.refl _ _) sameJournal grows.ids
  | applyBatch clock snapshot changelog =>
      obtain ⟨order, rfl⟩ := elapsed
      have quiet := receipt_inv_quieter held (le_trans order clock.ordered) (Quieter.refl _ _) rfl rfl
      have moved := move_inv_batch hashing sourceConfig destinationConfig range initial
        sourceTopology topology clock
        snapshot changelog inv admissible.1 admissible.2
      refine ⟨source, _, moved, ?_⟩
      apply receipt_inv_batch hashing destinationConfig topology clock _ _ quiet
      · rw [retention]
      · exact inv.sourceSide.distinct
      · exact carries_record hashing sourceConfig range inv.sourceSide
      · intro entry member
        obtain ⟨page, chosen, listed⟩ := changelog_of_page member
        exact ⟨page, admissible.2 page chosen, listed⟩
  | applyDedup clock page =>
      obtain ⟨order, rfl⟩ := elapsed
      have quiet := receipt_inv_quieter held (le_trans order clock.ordered) (Quieter.refl _ _) rfl rfl
      have moved := move_inv_dedup hashing sourceConfig destinationConfig range initial
        sourceTopology topology clock
        page inv
      have answer := apply_dedup_pending hashing destinationConfig clock move.destination
        ⟨range.changeId, range.rangeId, page.2.records⟩ staged inv.held inv.stagedSide.pending
      have stepped := receipt_inv_dedup hashing destinationConfig topology clock page admissible
          quiet (by rw [retention])
      refine ⟨source, _, moved, ?_⟩
      simp only [ReceiptsInv, next, answer, inv.destinationSame]
      exact stepped
  | destinationOther state =>
      obtain rfl := elapsed
      obtain rfl : restaged = staged :=
        Option.some.inj (kept.held.symm.trans (admissible.2.1.trans inv.held))
      obtain rfl : later = source := Option.some.inj (kept.sourceSide.held.symm.trans inv.sourceSide.held)
      exact ⟨later, restaged, kept, held⟩

theorem receipts_inv_begin (process : NodeProcess) (destination : NodeState) (start : Instant)
    (ready : Ready hashing sourceConfig destinationConfig range process destination)
    (bounded : ∀ id entry, process.state.dedup.lookup id = some entry →
      entry.expiresAt ≤ start + process.state.topology.timings.receiptRetention) :
    ∃ source staged, MoveInv hashing sourceConfig range process.state.records process.state.topology
        destination.topology source staged
          (begin sourceConfig destinationConfig range process destination) ∧
      ReceiptsInv hashing range process.state.dedup process.state.topology start source staged
        (begin sourceConfig destinationConfig range process destination) := by
  obtain ⟨source, staged, inv⟩ :=
    move_inv_begin hashing sourceConfig destinationConfig range process destination ready
  refine ⟨source, staged, inv, ?_⟩
  obtain ⟨sourceId, sourceAnswered⟩ := ready.sourcePrepared
  obtain ⟨destinationId, destinationAnswered⟩ := ready.destinationPrepared
  have sourceSide := prepare_source_fresh sourceConfig process.state range sourceId
      ready.sourceFresh sourceAnswered
  have destinationSide := prepare_destination_fresh destinationConfig destination range destinationId
    ready.destinationFresh destinationAnswered
  have held := inv.sourceSide.held
  have stagedHeld := inv.held
  -- Both tables hold what the preparations have just put there.
  unfold begin at held stagedHeld ⊢
  rw [sourceSide, AList.lookup_insert] at held
  rw [destinationSide, AList.lookup_insert] at stagedHeld
  obtain rfl := Option.some.inj held
  obtain rfl := Option.some.inj stagedHeld
  rw [sourceSide, destinationSide]
  exact {
    bounded := bounded
    listed := by
      intro id frozen first inside
      apply List.mem_map.mpr
      refine ⟨(process.state.tokenOf hashing frozen.key, id), (TokenIndex.mem_inRange _ _ _ _).mpr
        ⟨?_, inside⟩, rfl⟩
      exact (ready.sourceSound.receiptsIndexed _ _).mpr ⟨frozen, first, rfl⟩
    kept := fun id frozen first _ => ⟨frozen, first, SameReceipt.refl frozen⟩
    routed := fun id entry found _ _ => Or.inl ⟨entry, found, SameReceipt.refl entry⟩
    named := fun _ member => absurd member (by simp [frozenSource, SourceMigration.undeferred])
    shown := fun _ member => absurd member (by simp)
    copied := fun _ member => absurd member (by simp)
    stagedNamed := fun _ _ found => absurd found (by simp [emptyDestination])
    frozenStaged := fun _ member => absurd member (by simp)
    journalStaged := fun _ member => absurd member (by simp [frozenSource, SourceMigration.undeferred]) }

theorem receipts_inv_run {process : NodeProcess} {destination : NodeState} {start time : Instant}
    {events : List Event} {move : Move}
    (ready : Ready hashing sourceConfig destinationConfig range process destination)
    (retention : destination.topology.timings = process.state.topology.timings)
    (bounded : ∀ id entry, process.state.dedup.lookup id = some entry →
      entry.expiresAt ≤ start + process.state.topology.timings.receiptRetention)
    (run : Transition.Run (TimedStep hashing sourceConfig destinationConfig range)
      (start, begin sourceConfig destinationConfig range process destination) events (time, move)) :
    ∃ source staged, MoveInv hashing sourceConfig range process.state.records process.state.topology
        destination.topology source staged move ∧
      ReceiptsInv hashing range process.state.dedup process.state.topology time source staged move := by
  apply Transition.run_invariant (fun _ => True) (fun timed => ∃ source staged,
    MoveInv hashing sourceConfig range process.state.records process.state.topology
      destination.topology source staged
        timed.2 ∧
      ReceiptsInv hashing range process.state.dedup process.state.topology timed.1 source staged
        timed.2) _ run
    (fun _ _ => trivial)
  · exact receipts_inv_begin hashing sourceConfig destinationConfig range process destination start
      ready bounded
  · rintro ⟨time, before⟩ event ⟨clocked, after⟩ _ ⟨source, staged, inv, held⟩ taken
    exact receipts_inv_step hashing sourceConfig destinationConfig range retention inv held taken

/-- A node that holds an unexpired receipt answers its mutation by the receipt
and stores nothing under its ID. -/
def Recognises (state : NodeState) (id : String) (receipt : DedupEntry) : Prop :=
  ∀ config : NodeConfig,
    (∀ now key, now < receipt.expiresAt → ownerError config state (state.tokenOf hashing key) now =
      .ok none →
      lookupReceipt hashing config now state key id receipt.fingerprint receipt.deleted =
        .ended (.awaitAcks receipt.version state.topology.epoch receipt.requiredAcks)) ∧
    ∀ clock dispatch request ready, request.requestId = id → clock.now < receipt.expiresAt →
      WriteKept hashing clock.now state
        (commitRequest hashing config clock ⟨state, dispatch⟩ request ready).1.state

theorem held_receipt_recognised (state : NodeState) (id : String) (receipt : DedupEntry)
    (held : state.dedup.lookup id = some receipt) : Recognises hashing state id receipt := by
  intro config
  constructor
  · intro now key early owned
    have live : (state.dedup.lookup id).filter (fun entry => decide (now < entry.expiresAt)) =
        some receipt := by
      rw [held]
      exact Option.filter_some_pos (by simpa using early)
    simp only [lookupReceipt, owned, live, answerReceipt, and_self, ↓reduceIte]
  · intro clock dispatch request ready sameId early
    rcases commit_request_effect hashing config clock ⟨state, dispatch⟩ request ready
      with kept | ⟨_, _, _, stored⟩
    · exact kept
    · have fresh := stored.fresh
      rw [stored.id, sameId, purge_keeps_live hashing state clock.now id receipt held early] at fresh
      exact absurd fresh (by simp)

def timeAfter (time : Instant) (event : Event) : Instant := event.reading.elim time Prod.snd

def Chronological : Instant → List Event → Prop
  | _, [] => True
  | time, event :: rest => (∀ reading ∈ event.reading, time ≤ reading.1) ∧
      Chronological (timeAfter time event) rest

theorem chronological_run (events : List Event) (time : Instant) (move : Move)
    (permitted : Permitted hashing sourceConfig destinationConfig range move events)
    (ordered : Chronological time events) :
    Transition.Run (TimedStep hashing sourceConfig destinationConfig range) (time, move) events
      (events.foldl timeAfter time, events.foldl (next hashing sourceConfig destinationConfig range)
        move) := by
  induction events generalizing time move with
  | nil => exact .refl _
  | cons event rest ih =>
      have step : TimedStep hashing sourceConfig destinationConfig range (time, move) event
          (timeAfter time event, next hashing sourceConfig destinationConfig range move event) := by
        refine ⟨⟨permitted.1, rfl⟩, ?_⟩
        have early := ordered.1
        unfold Elapses timeAfter
        cases taken : event.reading with
        | none => rfl
        | some reading => exact ⟨early reading taken, rfl⟩
      exact .next step (ih _ _ permitted.2 ordered.2)

end

section

theorem sample_bounded (id : String) (entry : DedupEntry)
    (found : sampleSource.state.dedup.lookup id = some entry) :
    entry.expiresAt ≤ 3 + sampleSource.state.topology.timings.receiptRetention := by
  have all : ∀ held ∈ sampleSource.state.dedup.entries,
      held.2.expiresAt ≤ 3 + sampleSource.state.topology.timings.receiptRetention := by decide +kernel
  exact all ⟨id, entry⟩ ((FiniteMap.lookup_some_iff _ _ _).mp found)

def sampleFirst : WriteRequest :=
  .put { key := [byte 107], value := [byte 1], topologyEpoch := 0, requestId := "w", expiresAtUnixMillis := none
         preserveValue := false, precondition := none }

/-- How "b" came to hold a receipt of "w": it took the write when it owned the key. -/
def sampleWritten : List NodeEvent :=
  [.renewed 0 0 { topologyEpoch := 0, leaseDurationMillis := 1000, admittedFollowers := [("a", "a-1")] },
    .commit (Sample.clock 1) sampleFirst ⟨5, 7, 0, ["a"]⟩, .install Sample.topology]

def sampleHolder : NodeProcess :=
  sampleWritten.foldl (NodeProcess.handle Sample.hashing sampleDestinationConfig)
    { state := { topology := sampleEarlier } }

def sampleReturn : Move :=
  sampleEvents.foldl (next Sample.hashing sampleSourceConfig sampleDestinationConfig sampleRange)
    (begin sampleSourceConfig sampleDestinationConfig sampleRange sampleSource sampleHolder.state)

def sampleReturned : NodeState :=
  (commitDestinationRange Sample.hashing sampleDestinationConfig
    (Sample.clock 20) sampleReturn.destination
    sampleRange.key).1

end
end Hashring.RangeMove
