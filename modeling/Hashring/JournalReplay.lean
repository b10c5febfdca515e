import Hashring.MigrationPaging
import Hashring.StagingOrder
import Hashring.NodeCalls

/-! `replay_changelog` against a source whose journal goes on growing. The journal is
within its budget, so the replay comes to its end; the destination takes every entry
once and in order. -/
namespace Hashring

section Journal

open VersionedMap

variable (hashing : Hashing) (config : NodeConfig) (topology : TopologySnapshot)

theorem filter_above (start : Nat) (entries : List JournalRecord) (above : Nat)
    (numbered : entries.map (·.watermark) = List.range' (start + 1) entries.length) :
    entries.filter (fun entry => start + above < entry.watermark) = entries.drop above := by
  induction entries generalizing start above with
  | nil => simp
  | cons entry rest ih =>
      simp only [List.map_cons, List.length_cons, List.range'_succ, List.cons.injEq] at numbered
      obtain ⟨first, later⟩ := numbered
      cases above with
      | zero =>
          have all := ih (start + 1) 0 later
          have rest : rest.filter (fun entry => start < entry.watermark) = rest := by
            rw [List.filter_eq_self]
            intro other listed
            have wider := List.filter_eq_self.mp (all.trans (List.drop_zero)) other listed
            simp only [Nat.add_zero, decide_eq_true_eq] at wider ⊢
            omega
          simp only [Nat.add_zero, List.drop_zero]
          rw [List.filter_cons_of_pos (by rw [first]; simp), rest]
      | succ above =>
          rw [List.filter_cons_of_neg (by rw [first]; simp), List.drop_succ_cons,
            ← ih (start + 1) above later]
          refine List.filter_congr fun other _ => ?_
          simp only [decide_eq_decide]
          omega

def CopyOf (sent entry : JournalRecord) : Prop :=
  ∃ dedup now retentionMillis, sent = copiedJournalRecord dedup now retentionMillis entry

theorem copies_numbered {sent entries : List JournalRecord} (copied : List.Forall₂ CopyOf sent entries) :
    sent.map (·.watermark) = entries.map (·.watermark) := by
  induction copied with
  | nil => rfl
  | cons copy _ ih =>
      obtain ⟨_, _, _, rfl⟩ := copy
      rw [List.map_cons, List.map_cons, ih]
      rfl

theorem copies_carry {sent entries : List JournalRecord} (copied : List.Forall₂ CopyOf sent entries)
    (carried : ∀ entry ∈ entries, ∃ key record, entry.Carries key record) :
    ∀ entry ∈ sent, ∃ key record, entry.Carries key record := by
  induction copied with
  | nil => exact fun entry listed => absurd listed List.not_mem_nil
  | cons copy _ ih =>
      obtain ⟨_, _, _, rfl⟩ := copy
      intro entry listed
      rcases List.mem_cons.mp listed with rfl | later
      · obtain ⟨key, record, original⟩ := carried _ List.mem_cons_self
        exact ⟨key, record, copied_journal_carries _ _ _ _ key record original⟩
      · exact ih (fun entry listed => carried entry (List.mem_cons_of_mem _ listed)) entry later

/-- The page a turn reads: the next entries of the journal, none only at its end. -/
structure NextPage (source : SourceMigration) (watermark : Nat) (page : ChangelogPageResponse) :
    Prop where
  current : page.currentWatermark = source.watermark
  behind : page.records ≠ [] ↔ watermark < source.watermark
  within : page.records ≠ [] → watermark + page.records.length ≤ source.watermark
  copied : List.Forall₂ CopyOf page.records ((source.journal.drop watermark).take page.records.length)

theorem NextPage.numbered {config : NodeConfig} {source : SourceMigration} {watermark : Nat}
    {page : ChangelogPageResponse} (next : NextPage source watermark page)
    (sound : JournalSound config source) :
    page.records.map (·.watermark) = List.range' (watermark + 1) page.records.length := by
  by_cases blank : page.records = []
  · simp [blank]
  · have within := next.within blank
    rw [copies_numbered next.copied, List.map_take, List.map_drop, sound.watermarks,
      List.drop_range', List.take_range'_of_length_ge]
    · congr 1
      omega
    · omega

theorem NextPage.last {config : NodeConfig} {source : SourceMigration} {watermark : Nat}
    {page : ChangelogPageResponse} (next : NextPage source watermark page)
    (sound : JournalSound config source) (some_ : page.records ≠ []) :
    page.records.getLast?.map (·.watermark) = some (watermark + page.records.length) := by
  have positive := List.length_pos_iff.mpr some_
  rw [← List.getLast?_map, next.numbered sound, List.getLast?_range', if_neg (by omega)]
  congr 1
  omega

theorem watermark_grows {config : NodeConfig} {before after : SourceMigration}
    (sound : JournalSound config before)
    (later : JournalSound config after) (grows : SourceGrows before after) :
    before.watermark ≤ after.watermark := by
  rw [← sound.length, ← later.length]
  exact grows.journal.length_le

/-- A changelog page shows the next entries after the watermark, and at least one if
there is one. -/
theorem changelog_page_next {source : SourceMigration} (sound : JournalSound config source)
    (now : Instant) (state : NodeState) (key : RangeKey)
    (found : state.sources.lookup key = some source) (watermark maxBytes : Nat) :
    ∃ page, NextPage source watermark page ∧ readChangelogPage config now state
      { changeId := key.changeId, rangeId := key.rangeId, afterWatermark := watermark, maxBytes } =
        .ok page := by
  have rest : source.journal.filter (fun entry => watermark < entry.watermark) =
      source.journal.drop watermark := by
    have above := filter_above 0 source.journal watermark (by rw [sound.length]; exact sound.watermarks)
    simpa only [Nat.zero_add] using above
  rw [readChangelogPage, found]
  simp only [rest]
  refine ⟨_, ?_, rfl⟩
  by_cases blank : source.journal.drop watermark = []
  · have short := List.drop_eq_nil_iff.mp blank
    rw [sound.length] at short
    have empty : changelogPage (pageLimit maxBytes config.maxValueBytes) [] = [] := rfl
    rw [blank, empty]
    exact ⟨rfl, iff_of_false (not_not.mpr rfl) (not_lt.mpr short), fun some_ => absurd rfl some_, .nil⟩
  · obtain ⟨count, moved, bound, taken⟩ :=
      take_page_moves some journalRecordSize (pageLimit maxBytes config.maxValueBytes)
      (source.journal.drop watermark) blank 0
    have length : ((source.journal.drop watermark).take count).length = count := by
      rw [List.length_take, min_eq_left bound]
    rw [List.length_drop, sound.length] at bound
    have page : changelogPage (pageLimit maxBytes config.maxValueBytes) (source.journal.drop watermark) =
        (source.journal.drop watermark).take count := by
      rw [changelogPage, taken, List.filterMap_some]
    rw [page]
    refine ⟨rfl, iff_of_true ?_ (by omega), fun _ => ?_, ?_⟩
    · rw [ne_eq, List.map_eq_nil_iff, ← ne_eq, ← List.length_pos_iff, length]
      exact moved
    · rw [List.length_map, length]
      omega
    · rw [List.length_map, length, List.forall₂_map_left_iff]
      exact List.forall₂_same.mpr fun entry _ => ⟨_, _, _, rfl⟩

theorem stage_journal_reaches (now : Instant) (entries : List JournalRecord)
    (sound : ∀ entry ∈ entries, ∃ key record, entry.Carries key record)
    (distinct : ∀ first ∈ entries, ∀ second ∈ entries, first.watermark = second.watermark →
      first = second)
    (destination : DestinationMigration) :
    (∀ key bound, Reaches Record.version destination.records key bound → Reaches Record.version
        (stageJournalRecords hashing config topology now destination entries).1.records key bound) ∧
      ∀ entry ∈ entries, destination.watermark < entry.watermark →
        entry.watermark ≤ (stageJournalRecords hashing config topology now destination
          entries).1.watermark →
        ∀ key record, entry.Carries key record → Reaches Record.version
          (stageJournalRecords hashing config topology now destination entries).1.records key
            record.version := by
  apply stage_journal_invariant hashing config topology now (fun current =>
    (∀ key bound, Reaches Record.version destination.records key bound →
      Reaches Record.version current.records key bound) ∧
      ∀ entry ∈ entries, destination.watermark < entry.watermark → entry.watermark ≤ current.watermark →
        ∀ key record, entry.Carries key record →
          Reaches Record.version current.records key record.version) entries sound
  · rintro entry member sent key record before receipted after step ⟨kept, reached⟩
    obtain ⟨_, _, rfl⟩ := step.frame
    have next := step.next
    refine ⟨fun probe bound past => offer_grows _ _ _ _ _ (kept probe bound past), ?_⟩
    intro other listed above below probe found carried
    by_cases newest : other.watermark = entry.watermark
    · obtain rfl := distinct other listed entry member newest
      obtain ⟨rfl, rfl⟩ := carried.unique ⟨sent, step.found, step.carried⟩
      exact offer_reaches _ _ _
    · simp only at below
      exact offer_grows _ _ _ _ _ (reached other listed above (by omega) probe found carried)
  · exact ⟨fun _ _ past => past, fun entry _ above below => absurd below (not_le.mpr above)⟩

/-- The staged range once an accepted batch has brought the entries it waited for. -/
structure BatchTaken (before after : DestinationMigration) (entries : List JournalRecord) : Prop where
  pending : after.committed = false
  watermark : after.watermark = before.watermark + entries.length
  kept : ∀ key bound, Reaches Record.version before.records key bound →
    Reaches Record.version after.records key bound
  reached : ∀ entry ∈ entries, ∀ key record, entry.Carries key record →
    Reaches Record.version after.records key record.version

theorem next_entries_taken (clock : Clock) (state : NodeState) (key : RangeKey)
    (staged : DestinationMigration) (held : state.destinations.lookup key = some staged)
    (pending : staged.committed = false) (entries : List JournalRecord)
    (sound : ∀ entry ∈ entries, ∃ key record, entry.Carries key record)
    (numbered : entries.map (·.watermark) = List.range' (staged.watermark + 1) entries.length)
    (accepted : (applyMigrationBatch hashing config clock state
      { changeId := key.changeId, rangeId := key.rangeId, snapshotRecords := []
        journalRecords := entries }).2 = .ok ()) :
    ∃ after, (applyMigrationBatch hashing config clock state
        { changeId := key.changeId, rangeId := key.rangeId, snapshotRecords := []
          journalRecords := entries }).1.destinations.lookup key = some after ∧
      BatchTaken staged after entries := by
  have performed := apply_batch_pending hashing config clock state
    { changeId := key.changeId, rangeId := key.rangeId, snapshotRecords := []
      journalRecords := entries } staged held pending
  rw [performed] at accepted ⊢
  refine ⟨_, AList.lookup_insert _, ?_⟩
  simp only [stageBatch, stageSnapshotRecords] at accepted ⊢
  have whole : (stageJournalRecords hashing config state.topology clock.later
      (purgeStagedDedup staged clock.now) entries).2 = none := by
    cases error : (stageJournalRecords hashing config state.topology clock.later
      (purgeStagedDedup staged clock.now) entries).2 with
    | none => rfl
    | some status =>
        rw [error] at accepted
        exact absurd accepted (by simp [answerOf])
  have member : ∀ entry ∈ entries, staged.watermark < entry.watermark ∧ entry.watermark ≤
      staged.watermark + entries.length := by
    intro entry listed
    have shown : entry.watermark ∈ List.range' (staged.watermark + 1) entries.length := by
      rw [← numbered]
      exact List.mem_map_of_mem listed
    rw [List.mem_range'_1] at shown
    omega
  have distinct : ∀ first ∈ entries, ∀ second ∈ entries, first.watermark = second.watermark →
      first = second := by
    have unique : (entries.map (·.watermark)).Nodup := by
      rw [numbered]
      exact List.nodup_range'
    exact fun first listed second alsoListed same => List.inj_on_of_nodup_map unique listed
      alsoListed same
  obtain ⟨rises, passes⟩ := stage_journal_passes hashing config state.topology clock.later entries sound
    (purgeStagedDedup staged clock.now)
  obtain ⟨kept, reached⟩ :=
    stage_journal_reaches hashing config state.topology clock.later entries sound distinct
    (purgeStagedDedup staged clock.now)
  have passed := stage_journal_accepted hashing config state.topology clock.later entries sound
    (purgeStagedDedup staged clock.now) whole
  have uncommitted : (stageJournalRecords hashing config state.topology clock.later
      (purgeStagedDedup staged clock.now)
      entries).1.committed = false := by
    refine stage_journal_invariant hashing config state.topology clock.later (·.committed = false)
      entries sound ?_ _ pending
    rintro entry _ sent key record before receipted after step waiting
    obtain ⟨_, _, rfl⟩ := step.frame
    exact waiting
  generalize stageJournalRecords hashing config state.topology clock.later
    (purgeStagedDedup staged clock.now) entries = result
    at rises passes kept reached passed uncommitted
  have same : (purgeStagedDedup staged clock.now).watermark = staged.watermark := rfl
  rw [same] at rises passes reached
  refine ⟨uncommitted, ?_, kept, fun entry listed => reached entry listed (member entry listed).1
    (passed entry listed)⟩
  apply le_antisymm
  · by_contra beyond
    obtain ⟨entry, listed, numbered, _⟩ := passes result.1.watermark (by omega) (le_refl _)
    have bound := (member entry listed).2
    omega
  · cases entries with
    | nil => exact rises
    | cons first rest =>
        -- The last entry has the highest watermark, and it was passed.
        have last : staged.watermark + (first :: rest).length ∈ (first :: rest).map (·.watermark) := by
          rw [numbered, List.mem_range'_1]
          simp only [List.length_cons]
          omega
        obtain ⟨entry, listed, watermark⟩ := List.mem_map.mp last
        rw [← watermark]
        exact passed entry listed

end Journal

section Replay

/-- What a replay meets: the endpoints and settings of both nodes, the states of the
source in which its pages are read, and the clocks of both nodes at each turn. -/
structure ReplayPeers where
  sourceEndpoint : String
  destinationEndpoint : String
  sourceConfig : NodeConfig
  destinationConfig : NodeConfig
  views : Nat → NodeProcess
  now : Nat → Instant
  clock : Nat → Clock
  /-- What else the destination does before the batch of a turn comes in. -/
  meanwhile : Nat → NodeState → NodeState

/-- How far a replay has come: the pages it was given, the destination, and whether
an RPC has failed. -/
structure ReplayWorld where
  destination : NodeState
  pages : List ChangelogPageResponse := []
  failed : Bool := false

variable (hashing : Hashing) (peers : ReplayPeers)

/-- The answer of the node an effect is for. The coordinator's replay asks for
nothing else. -/
def ReplayWorld.answer {β : Type} (world : ReplayWorld) : NodeEffect β → β × ReplayWorld
  | .connect _ _ => (.ok (), world)
  | .call endpoint _ (.readChangelogPage request) =>
      if endpoint = peers.sourceEndpoint then
        match readChangelogPage peers.sourceConfig (peers.now world.pages.length)
            (peers.views world.pages.length).state request with
        | .ok page => (.ok page, { world with pages := world.pages ++ [page] })
        | .error status => (.error status, { world with failed := true })
      else (.error ⟨.unavailable, "no such node"⟩, { world with failed := true })
  | .call endpoint _ (.applyMigrationBatch request) =>
      if endpoint = peers.destinationEndpoint then
        let (destination, answer) := applyMigrationBatch hashing peers.destinationConfig
          (peers.clock world.pages.length)
          (peers.meanwhile world.pages.length world.destination) request
        (answer, { world with destination, failed := world.failed || !answer.isOk })
      else (.error ⟨.unavailable, "no such node"⟩, { world with failed := true })
  | .call _ _ _ => (.error ⟨.unimplemented, "not part of a replay"⟩, { world with failed := true })

/-- A program against both nodes. `fuel` bounds its loops; a program that runs out of
it has no result. -/
def ReplayWorld.serve {α : Type} (fuel : Nat) : Program NodeEffect α → ReplayWorld →
    Option (α × ReplayWorld)
  | .done value, world => some (value, world)
  | .perform effect next, world =>
      let (answer, after) := world.answer hashing peers effect
      serve fuel (next answer) after
  | .choose next, world => serve fuel (next fuel) world
  | .halt, _ => none

theorem serve_bind {α β : Type} (fuel : Nat) (program : Program NodeEffect α)
    (rest : α → Program NodeEffect β) (world : ReplayWorld) :
    world.serve hashing peers fuel (program.andThen rest) =
      (world.serve hashing peers fuel program).bind fun result => result.2.serve hashing peers fuel
        (rest result.1) := by
  induction program generalizing world with
  | done value => rfl
  | perform effect next ih => exact ih _ _
  | choose next ih => exact ih _ _
  | halt => rfl

theorem serve_rpc {α : Type} (fuel : Nat) (deadline : Instant) (endpoint : String)
    (request : NodeRequest α) (world : ReplayWorld) :
    world.serve hashing peers fuel (rpcBefore deadline endpoint request).run =
      some (world.answer hashing peers (.call endpoint deadline request)) := rfl

section Rounds

variable {hashing peers}
variable {α β : Type} {fuel : Nat}

theorem serve_ok {program : NodeCalls α} {world after : ReplayWorld} {value : α} (rest : α → NodeCalls β)
    (performed : world.serve hashing peers fuel program.run = some (.ok value, after)) :
    world.serve hashing peers fuel (program >>= rest).run = after.serve hashing peers fuel
      (rest value).run := by
  have split := serve_bind hashing peers fuel program.run (ExceptT.bindCont rest) world
  rw [performed] at split
  exact split

theorem serve_error {program : NodeCalls α} {world after : ReplayWorld} {status : Status}
    (rest : α → NodeCalls β)
    (performed : world.serve hashing peers fuel program.run = some (.error status, after)) :
    world.serve hashing peers fuel (program >>= rest).run = some (.error status, after) := by
  have split := serve_bind hashing peers fuel program.run (ExceptT.bindCont rest) world
  rw [performed] at split
  exact split

inductive RoundEnds (inv : α → ReplayWorld → Prop) (post : β → ReplayWorld → Prop) (left : α → Nat)
    (state : α) :
    α ⊕ β → ReplayWorld → Prop where
  | again {next : α} {world : ReplayWorld} (holds : inv next world) (closer : left next < left state) :
      RoundEnds inv post left state (.inl next) world
  | finished {result : β} {world : ReplayWorld} (holds : post result world) :
      RoundEnds inv post left state (.inr result) world

theorem serve_repeat {inv : α → ReplayWorld → Prop} {post : β → ReplayWorld → Prop} {left : α → Nat}
    (round : α → Program NodeEffect (α ⊕ β))
    (rounds : ∀ state world, inv state world → ∃ result after,
      world.serve hashing peers fuel (round state) = some (result, after) ∧
        RoundEnds inv post left state result after)
    (budget : Nat) (state : α) (world : ReplayWorld) (holds : inv state world)
    (enough : left state < budget) :
    ∃ result after, world.serve hashing peers fuel (Program.repeatUntil round budget state) =
      some (result, after) ∧
      post result after := by
  induction budget generalizing state world with
  | zero => exact absurd enough (Nat.not_lt_zero _)
  | succ budget ih =>
      obtain ⟨result, after, performed, ends⟩ := rounds state world holds
      rw [Program.repeatUntil, serve_bind, performed]
      cases ends with
      | again holds closer => exact ih _ after holds (by omega)
      | finished holds => exact ⟨_, after, rfl, holds⟩

def roundAnswer : Except Status (α ⊕ β) → α ⊕ Except Status β
  | .ok (.inl again) => .inl again
  | .ok (.inr result) => .inr (.ok result)
  | .error status => .inr (.error status)

theorem serve_try_loop (inv : α → ReplayWorld → Prop) (post : Except Status β → ReplayWorld → Prop)
    (left : α → Nat) (round : α → NodeCalls (α ⊕ β))
    (rounds : ∀ state world, inv state world → ∃ result after,
      world.serve hashing peers fuel (round state).run = some (result, after) ∧
        RoundEnds inv post left state (roundAnswer result) after)
    (start : α) (world : ReplayWorld) (holds : inv start world) (enough : left start < fuel) :
    ∃ result after, world.serve hashing peers fuel (Program.tryLoop round start).run =
      some (result, after) ∧
      post result after := by
  refine serve_repeat _ (fun state world holds => ?_) fuel start world holds enough
  obtain ⟨result, after, performed, ends⟩ := rounds state world holds
  refine ⟨roundAnswer result, after, ?_, ends⟩
  simp only [Bind.bind]
  rw [serve_bind, performed]
  cases result with
  | error status => rfl
  | ok answer =>
      cases answer with
      | inl again => rfl
      | inr value => rfl

end Rounds

variable {hashing peers}

section Watermarks

variable {key : RangeKey} {start : Nat} {sources : Nat → SourceMigration}

/-- The entries the destination was sent, in order. -/
def ReplayWorld.sent (world : ReplayWorld) : List JournalRecord := world.pages.flatMap (·.records)

/-- No RPC has failed, the entries sent are those of the journal after `start` and up to
`watermark`, and the staged range has taken all of them. -/
structure Replayed (key : RangeKey) (journal : List JournalRecord) (start watermark : Nat)
    (world : ReplayWorld) : Prop where
  sound : world.failed = false
  forward : start ≤ watermark
  within : watermark = start ∨ watermark ≤ journal.length
  sent : List.Forall₂ CopyOf world.sent ((journal.take watermark).drop start)
  staged : ∃ staged, world.destination.destinations.lookup key = some staged ∧ staged.committed = false ∧
    staged.watermark = watermark ∧ ∀ entry ∈ world.sent, ∀ probe record, entry.Carries probe record →
      VersionedMap.Reaches Record.version staged.records probe record.version

theorem Replayed.grows {journal grown : List JournalRecord} {watermark : Nat} {world : ReplayWorld}
    (replayed : Replayed key journal start watermark world) (longer : journal <+: grown) :
    Replayed key grown start watermark world := by
  obtain ⟨more, rfl⟩ := longer
  refine ⟨replayed.sound, replayed.forward, ?_, ?_, replayed.staged⟩
  · have within := replayed.within
    rw [List.length_append]
    omega
  · have sent := replayed.sent
    obtain rfl | within := replayed.within
    · simpa [List.drop_take] using sent
    · rwa [List.take_append_of_le_length within]

end Watermarks

theorem page_served (change : TopologyChange) (range : RangeMigration) (deadline : Instant)
    (fuel watermark : Nat) (world : ReplayWorld) (source : SourceMigration)
    (endpoint : range.sourceEndpoint = peers.sourceEndpoint)
    (found : (peers.views world.pages.length).state.sources.lookup (change.control range) = some source)
    (sound : JournalSound peers.sourceConfig source) :
    ∃ page, NextPage source watermark page ∧
      world.serve hashing peers fuel (rpcBefore deadline range.sourceEndpoint (.readChangelogPage
          { changeId := change.changeId, rangeId := range.rangeId, afterWatermark := watermark
            maxBytes := defaultMigrationPageBytes })).run =
                some (.ok page, { world with pages := world.pages ++ [page] }) := by
  obtain ⟨page, next, read⟩ := changelog_page_next peers.sourceConfig sound (peers.now world.pages.length)
    (peers.views world.pages.length).state (change.control range) found watermark
      defaultMigrationPageBytes
  refine ⟨page, next, ?_⟩
  rw [serve_rpc]
  simp only [ReplayWorld.answer]
  simp only [TopologyChange.control] at read
  rw [if_pos endpoint, read]

theorem Replayed.blank {key : RangeKey} {journal : List JournalRecord} {start watermark : Nat}
    {world : ReplayWorld} {page : ChangelogPageResponse}
    (replayed : Replayed key journal start watermark world) (blank : page.records = []) :
    Replayed key journal start watermark { world with pages := world.pages ++ [page] } := by
  have sent : ReplayWorld.sent { world with pages := world.pages ++ [page] } = world.sent := by
    simp [ReplayWorld.sent, blank]
  exact ⟨replayed.sound, replayed.forward, replayed.within, sent ▸ replayed.sent, sent ▸ replayed.staged⟩

theorem batch_served (change : TopologyChange) (range : RangeMigration) (deadline : Instant)
    (fuel start watermark : Nat) (world : ReplayWorld) (source : SourceMigration)
    (page : ChangelogPageResponse)
    (endpoint : range.destinationEndpoint = peers.destinationEndpoint)
    (sound : JournalSound peers.sourceConfig source)
    (undisturbed : ∀ turn state, (peers.meanwhile turn state).destinations.lookup (change.control range) =
      state.destinations.lookup (change.control range))
    (replayed : Replayed (change.control range) source.journal start watermark world)
    (next : NextPage source watermark page) (some_ : page.records ≠ []) :
    ∃ answer after, ReplayWorld.serve hashing peers fuel
      (rpcBefore deadline range.destinationEndpoint (.applyMigrationBatch
          { changeId := change.changeId, rangeId := range.rangeId, snapshotRecords := []
            journalRecords := page.records })).run { world with pages := world.pages ++ [page] } =
              some (answer, after) ∧
      after.pages = world.pages ++ [page] ∧
      ((∃ status, answer = .error status ∧ after.failed = true) ∨
        (answer = .ok () ∧ Replayed (change.control range) source.journal start
            (watermark + page.records.length) after)) := by
  -- The page continues the journal where the destination stands, so an accepted batch
  -- takes all of it.
  obtain ⟨staged, held, pending, reached, taken⟩ := replayed.staged
  have within := next.within some_
  have carried : ∀ entry ∈ page.records, ∃ key record, entry.Carries key record := by
    refine copies_carry next.copied fun entry listed => ?_
    exact sound.carried entry (List.mem_of_mem_drop (List.mem_of_mem_take listed))
  have accepts := next_entries_taken hashing peers.destinationConfig
    (peers.clock (world.pages ++ [page]).length)
    (peers.meanwhile (world.pages ++ [page]).length world.destination) (change.control range) staged
    ((undisturbed _ _).trans held) pending page.records carried
      (by rw [reached]; exact next.numbered sound)
  rw [serve_rpc]
  simp only [ReplayWorld.answer]
  rw [if_pos endpoint]
  simp only [TopologyChange.control] at accepts
  generalize applyMigrationBatch hashing peers.destinationConfig
    (peers.clock (world.pages ++ [page]).length)
    (peers.meanwhile (world.pages ++ [page]).length world.destination)
    { changeId := change.changeId, rangeId := range.rangeId, snapshotRecords := []
      journalRecords := page.records } = applied at accepts
  obtain ⟨destination, answer⟩ := applied
  refine ⟨_, _, rfl, rfl, ?_⟩
  cases answer with
  | error status => exact .inl ⟨status, rfl, by simp [Except.isOk, Except.toBool]⟩
  | ok accepted =>
      obtain ⟨after, found, batch⟩ := accepts rfl
      have sent : ReplayWorld.sent { world with pages := world.pages ++ [page] } = world.sent ++
          page.records := by
        simp [ReplayWorld.sent]
      refine .inr ⟨rfl, ?_, ?_, ?_, ?_, after, found, batch.pending, ?_, ?_⟩
      · simp [replayed.sound, Except.isOk, Except.toBool]
      · exact le_add_right replayed.forward
      · right
        rw [sound.length]
        exact within
      · have early : start ≤ (source.journal.take watermark).length := by
          rw [List.length_take, sound.length]
          have forward := replayed.forward
          omega
        have copied : List.Forall₂ CopyOf (world.sent ++ page.records)
            ((source.journal.take (watermark + page.records.length)).drop start) := by
          rw [List.take_add, List.drop_append_of_le_length early]
          exact List.rel_append replayed.sent next.copied
        exact sent ▸ copied
      · rw [batch.watermark, reached]
      · intro entry listed
        rcases List.mem_append.mp (sent ▸ listed) with early | late
        · exact fun probe record carried => batch.kept probe _ (taken entry early probe record carried)
        · exact batch.reached entry late

theorem Replayed.numbered {config : NodeConfig} {key : RangeKey} {source : SourceMigration}
    {start watermark : Nat} {world : ReplayWorld}
    (replayed : Replayed key source.journal start watermark world)
    (sound : JournalSound config source) :
    world.sent.map (·.watermark) = List.range' (start + 1) (watermark - start) := by
  rw [copies_numbered replayed.sent, List.drop_take, List.map_take, List.map_drop, sound.watermarks,
    List.drop_range',
    List.take_range'_of_length_ge]
  · congr 1
    omega
  · have within := replayed.within
    rw [sound.length] at within
    omega

/-- Unless an RPC failed, the replay has come as far as it was to, or as the source
was when the last page was read. -/
def ReplayEnds (key : RangeKey) (sources : Nat → SourceMigration) (start : Nat)
    (finalWatermark : Option Nat)
    (result : Except Status Nat) (world : ReplayWorld) : Prop :=
  world.failed = true ∨ ∃ reached page, result = .ok reached ∧ world.pages.getLast? = some page ∧
    finalWatermark.getD page.currentWatermark ≤ reached ∧
    Replayed key (sources world.pages.length).journal start reached world

theorem replay_ends (change : TopologyChange) (range : RangeMigration) (finalWatermark : Option Nat)
    (deadline : Instant)
    (start fuel : Nat) (sources : Nat → SourceMigration)
    (ends : range.sourceEndpoint = peers.sourceEndpoint ∧ range.destinationEndpoint =
      peers.destinationEndpoint)
    (held : ∀ index, (peers.views index).state.sources.lookup (change.control range) =
      some (sources index) ∧
      JournalSound peers.sourceConfig (sources index) ∧ ∀ later, index ≤ later →
        SourceGrows (sources index) (sources later))
    (undisturbed : ∀ turn state, (peers.meanwhile turn state).destinations.lookup (change.control range) =
      state.destinations.lookup (change.control range))
    (journaled : ∀ bound, finalWatermark = some bound → bound ≤ (sources 0).watermark)
    (enough : peers.sourceConfig.maxJournalBytes / 128 < fuel) (world : ReplayWorld)
    (replayed : Replayed (change.control range) (sources world.pages.length).journal start start world) :
    ∃ result after,
      world.serve hashing peers fuel (NodeCalls.replayChangelog change range start finalWatermark deadline).run =
        some (result, after) ∧ ReplayEnds (change.control range) sources start finalWatermark result after := by
  -- Every page that is taken moves the watermark, and the budget bounds how far it can go.
  refine serve_try_loop
    (fun watermark world => Replayed (change.control range) (sources world.pages.length).journal start watermark world)
    (ReplayEnds (change.control range) sources start finalWatermark)
    (fun watermark => peers.sourceConfig.maxJournalBytes / 128 - watermark)
    _ (fun watermark world replayed => ?_) start world replayed (by omega)
  obtain ⟨found, sound, grows⟩ := held world.pages.length
  obtain ⟨page, next, read⟩ := page_served change range deadline fuel watermark world _ ends.1 found sound
  rw [serve_ok _ read]
  -- A final watermark is one the source had given out before the replay began.
  have target : finalWatermark.getD page.currentWatermark ≤ (sources world.pages.length).watermark := by
    rw [next.current]
    cases finalWatermark with
    | none => exact le_refl _
    | some bound =>
        have grown := watermark_grows (held 0).2.1 sound ((held 0).2.2 _ (Nat.zero_le _))
        exact (journaled bound rfl).trans grown
  by_cases blank : page.records = []
  · -- The journal ends at the watermark, so this is where the replay was to come.
    have end_ : (sources world.pages.length).watermark ≤ watermark :=
      not_lt.mp fun behind => next.behind.mpr behind blank
    simp only [blank, List.isEmpty_nil, not_true_eq_false, ↓reduceIte, List.getLast?_nil,
      Option.map_none, Option.getD_none]
    rw [if_pos (target.trans end_)]
    refine ⟨_, _, rfl, .finished
      (.inr ⟨watermark, page, rfl, List.getLast?_concat, target.trans end_, ?_⟩)⟩
    exact (replayed.blank blank).grows (grows _ (by simp)).journal
  · -- The page is not empty, so its batch is sent on to the destination.
    have filled : page.records.isEmpty = false := by simpa using blank
    obtain ⟨answer, after, served, pages, outcome⟩ :=
      batch_served change range deadline fuel start watermark world _ page ends.2
      sound undisturbed replayed next blank
    simp only [filled, next.last sound blank, Bool.false_eq_true, not_false_eq_true, ↓reduceIte,
      Option.getD_some]
    rcases outcome with ⟨status, rfl, failed⟩ | ⟨rfl, taken⟩
    · rw [serve_error _ served]
      exact ⟨_, _, rfl, .finished (.inl failed)⟩
    · rw [serve_ok _ served]
      have later : Replayed (change.control range) (sources after.pages.length).journal start
          (watermark + page.records.length) after := by
        refine taken.grows (grows _ ?_).journal
        rw [pages]
        simp
      by_cases done : finalWatermark.getD page.currentWatermark ≤ watermark + page.records.length
      · rw [if_pos done]
        refine ⟨_, _, rfl, .finished (.inr ⟨_, page, rfl, ?_, done, later⟩)⟩
        rw [pages, List.getLast?_concat]
      · rw [if_neg done]
        refine ⟨_, _, rfl, .again later ?_⟩
        have within := next.within blank
        have bounded := sound.bounded
        have some_ := List.length_pos_iff.mpr blank
        omega

/-- Whatever page sizes are asked for and whatever the source does in between, the
pages of both frozen lists show all of them; and a replay from the watermark of the
staged range ends, with every entry in between sent once, in order, and taken. -/
theorem migration_paging_complete (change : TopologyChange) (range : RangeMigration) (sizes : Nat → Nat)
    (serving : Serving hashing peers.sourceConfig (change.control range) peers.views)
    (source : SourceMigration)
    (found : (peers.views 0).state.sources.lookup (change.control range) = some source) :
    (∀ fuel, source.snapshotKeys.length < fuel → Covers (shownRecord peers.views) 0 0 source.snapshotKeys
      (follow (snapshotReader peers.sourceConfig (change.control range) peers.views sizes) fuel 0 0)) ∧
    (∀ fuel, source.snapshotDedupIds.length < fuel →
      Covers (shownReceipt peers.views peers.now) 0 0 source.snapshotDedupIds
      (follow (receiptReader peers.sourceConfig (change.control range) peers.views sizes peers.now)
        fuel 0 0)) ∧
    ∀ (finalWatermark : Option Nat) (deadline : Instant) (state : NodeState)
      (staged : DestinationMigration) (fuel : Nat),
      range.sourceEndpoint = peers.sourceEndpoint → range.destinationEndpoint =
        peers.destinationEndpoint →
      (∀ turn state, (peers.meanwhile turn state).destinations.lookup (change.control range) =
        state.destinations.lookup (change.control range)) →
      (∀ bound, finalWatermark = some bound → bound ≤ source.watermark) →
      state.destinations.lookup (change.control range) = some staged → staged.committed = false →
      peers.sourceConfig.maxJournalBytes / 128 < fuel →
      ∃ result world, ReplayWorld.serve hashing peers fuel
          (NodeCalls.replayChangelog change range staged.watermark finalWatermark deadline).run
            { destination := state } =
          some (result, world) ∧
        (world.failed = true ∨ ∃ reached page later, result = .ok reached ∧
          world.pages.getLast? = some page ∧
          finalWatermark.getD page.currentWatermark ≤ reached ∧
          (peers.views world.pages.length).state.sources.lookup (change.control range) = some later ∧
          Replayed (change.control range) later.journal staged.watermark reached world ∧
          world.sent.map (·.watermark) = List.range' (staged.watermark + 1)
              (reached - staged.watermark)) := by
  refine ⟨snapshot_covers _ _ sizes serving found, receipts_covered _ _ sizes _ serving found, ?_⟩
  intro finalWatermark deadline state staged fuel sourceEnd destinationEnd undisturbed journaled
    held pending enough
  obtain ⟨sources, served⟩ := serving.sources
  obtain rfl : source = sources 0 := Option.some.inj (found.symm.trans (served 0).1)
  have start : Replayed (change.control range) (sources 0).journal staged.watermark staged.watermark
      { destination := state } := by
    refine ⟨rfl, le_refl _, .inl rfl, ?_, staged, held, pending, rfl, fun entry listed =>
      absurd listed List.not_mem_nil⟩
    rw [List.drop_take, Nat.sub_self, List.take_zero]
    exact .nil
  obtain ⟨result, world, performed, ends⟩ :=
    replay_ends change range finalWatermark deadline staged.watermark fuel sources
    ⟨sourceEnd, destinationEnd⟩ served undisturbed journaled enough { destination := state } start
  refine ⟨result, world, performed, ends.imp_right ?_⟩
  rintro ⟨reached, page, answered, last, passed, replayed⟩
  refine ⟨reached, page, _, answered, last, passed, (served _).1, replayed, ?_⟩
  exact replayed.numbered (served _).2.1

end Replay

namespace ReplaySample

/-- Every record is longer than the pages of this node. -/
def config : NodeConfig := { nodeId := "a", processInstanceId := "a-1", maxValueBytes := 8 }

def put (key value : Nat) (requestId : String) : WriteRequest :=
  .put { key := [byte key], value := [byte value], topologyEpoch := 1, requestId, expiresAtUnixMillis := none
         preserveValue := false, precondition := none }

def ready : Readiness := ⟨5, 7, 1, ["b"]⟩

def events : List NodeEvent :=
  [.renewed 1 0 { topologyEpoch := 1, leaseDurationMillis := 1000, admittedFollowers := [("b", "b-1")] },
    .commit (Sample.clock 10) (put 107 1 "m") ready, .commit (Sample.clock 11) (put 108 2 "n") ready,
    .commit (Sample.clock 12) (put 109 3 "p") ready,
    .range (.prepareSource (some (JournalNode.sampleRange "range" 2))),
    .range (.prepareSource (some (JournalNode.sampleRange "other" 20)))]

def target : TopologySnapshot :=
  { Sample.topology with epoch := 2, members := [⟨"b", "http://127.0.0.1:5002"⟩], assignments := [⟨20, "b"⟩] }

/-- What goes on between two pages: a listed key is deleted and a new one put; then
another write is journaled, and the cleanup of the other range removes all records. -/
def turns : List (List NodeEvent) :=
  [[.commit (Sample.clock 20)
    (.delete { key := [byte 108], topologyEpoch := 1, requestId := "q", precondition := none })
    ready,
      .commit (Sample.clock 21) (put 110 4 "r") ready],
    [.commit (Sample.clock 22) (put 109 5 "s") ready, .install target,
      .range (.cleanupSource ⟨"change", "other"⟩)]]

def views (turn : Nat) : NodeProcess :=
  (events ++ (turns.take turn).flatten).foldl (NodeProcess.handle Sample.hashing config)
    { state := { topology := Sample.topology } }

/-- The receipts of the first two puts expire before the second page is read. -/
def now (turn : Nat) : Instant := if turn = 0 then 30 else 60000000011

def change : TopologyChange :=
  { changeId := "change", baseEpoch := 1, baseTopology := none, targetTopology := target, ranges := []
    replicaObligations := [] }

def range : RangeMigration :=
  { rangeId := "range", startExclusive := 2, endInclusive := 10, sourceNodeId := "a", destinationNodeId := "b"
    sourceEndpoint := "a:1", destinationEndpoint := "b:1" }

def peers (turn : Nat) : ReplayPeers :=
  { sourceEndpoint := "a:1", destinationEndpoint := "b:1", sourceConfig := config
    destinationConfig := { nodeId := "b", processInstanceId := "b-1" }, views :=
      fun index => views (turn + index)
    now := fun index => now (turn + index), clock := fun _ => Sample.clock 30, meanwhile :=
      fun _ state => state }

def destination : NodeState :=
  (prepareDestinationRange (peers 0).destinationConfig { topology := Sample.topology }
    (some (JournalNode.sampleRange "range" 2))).1

def replay (turn watermark : Nat) (finalWatermark : Option Nat) (destination : NodeState) :
    Option (Except Status Nat × ReplayWorld) :=
  ReplayWorld.serve Sample.hashing (peers turn) (config.maxJournalBytes / 128 + 1)
    (NodeCalls.replayChangelog change range watermark finalWatermark 100).run { destination }

/-- The replay of the copied range, while its source goes on, and the one that ends it. -/
def copied : Option (Except Status Nat × ReplayWorld) := replay 1 0 none destination

def finalized : Option (Except Status Nat × ReplayWorld) :=
  copied.bind fun ended => replay 2 2 (some 3) ended.2.destination

def snapshotPages : List (CursorPage MigrationRecord) :=
  follow (snapshotReader config (change.control range) views fun _ => 0) 4 0 0

def receiptPages : List (CursorPage DeduplicationRecord) :=
  follow (receiptReader config (change.control range) views (fun _ => 0) now) 4 0 0

theorem views_next (turn : Nat) : views (turn + 1) =
    (turns[turn]?.getD []).foldl (NodeProcess.handle Sample.hashing config) (views turn) := by
  unfold views
  rw [List.take_add_one, List.flatten_append, ← List.append_assoc, List.foldl_append]
  cases turns[turn]? <;> simp

theorem views_held (turn : Nat) : change.control range ∈ (views turn).state.sources := by
  induction turn with
  | zero => decide +kernel
  | succ turn ih =>
      cases turn with
      | zero => decide +kernel
      | succ turn =>
          cases turn with
          | zero => decide +kernel
          | succ turn =>
              rw [views_next]
              exact ih

theorem views_go (turn : Nat) : ∃ events,
    Transition.Run (HoldingStep Sample.hashing config (change.control range))
      (views turn) events (views (turn + 1)) := by
  rw [views_next]
  refine ⟨_, Transition.permitted_run
    (fun process event => change.control
      range ∈ (process.handle Sample.hashing config event).state.sources)
    (NodeProcess.handle Sample.hashing config)
    (fun process event held => ⟨NodeProcess.step_handle _ _ process event, held⟩) _ _ ?_⟩
  cases turn with
  | zero => decide +kernel
  | succ turn =>
      cases turn with
      | zero => decide +kernel
      | succ turn => trivial

theorem source_serving (turn : Nat) : Serving Sample.hashing config (change.control range)
    (peers turn).views := by
  refine ⟨⟨Sample.topology, events ++ (turns.take turn).flatten, ?_⟩, views_held turn, fun index =>
    views_go (turn + index)⟩
  exact NodeProcess.run_handle _ _ _ _

end ReplaySample

/-- Three keys and receipts, one to a page, that change from page to page; and a journal
that has grown between the first replay and the last. -/
theorem migration_paging_changing_source :
    (∃ source, (ReplaySample.views 0).state.sources.lookup ⟨"change", "range"⟩ = some source ∧
      Covers (shownRecord ReplaySample.views) 0 0 source.snapshotKeys ReplaySample.snapshotPages ∧
      Covers (shownReceipt ReplaySample.views ReplaySample.now) 0 0 source.snapshotDedupIds
        ReplaySample.receiptPages) ∧
    ReplaySample.snapshotPages.map
      (fun page => (page.records.map fun record => (record.key, record.deleted), page.nextCursor)) =
      [([([byte 107], false)], 1), ([([byte 108], true)], 2), ([], 3)] ∧
    ReplaySample.receiptPages.map (fun page => (page.records.map (·.mutationId), page.nextCursor)) =
      [(["m"], 1), (["p"], 3)] ∧
    (∃ world, ReplaySample.copied = some (.ok 2, world) ∧ world.sent.map (·.watermark) = [1, 2]) ∧
    ∃ world, ReplaySample.finalized = some (.ok 3, world) ∧ world.sent.map (·.watermark) = [3] := by
  have listed (turn : Nat) : ∃ source, (ReplaySample.views turn).state.sources.lookup
      ⟨"change", "range"⟩ = some source :=
    Option.isSome_iff_exists.mp (AList.lookup_isSome.mpr (ReplaySample.views_held turn))
  -- One replay, from the watermark of the staged range to where its run ends.
  have replays (turn : Nat) (finalWatermark : Option Nat) (state : NodeState)
      (staged : DestinationMigration) (last : Nat)
      (journaled : ∀ bound, finalWatermark = some bound → ∀ source,
        (ReplaySample.views turn).state.sources.lookup ⟨"change", "range"⟩ = some source →
          bound ≤ source.watermark)
      (held : state.destinations.lookup ⟨"change", "range"⟩ = some staged)
        (pending : staged.committed = false)
      (ended : (ReplaySample.replay turn staged.watermark finalWatermark state).map
        (fun ended => (ended.1.toOption, ended.2.failed)) = some (some last, false)) :
      ∃ world, ReplaySample.replay turn staged.watermark finalWatermark state = some (.ok last, world) ∧
        world.sent.map (·.watermark) = List.range' (staged.watermark + 1) (last - staged.watermark) ∧
        ∃ later, world.destination.destinations.lookup ⟨"change", "range"⟩ = some later ∧
          later.committed = false ∧
          later.watermark = last := by
    obtain ⟨source, found⟩ := listed turn
    obtain ⟨_, _, complete⟩ :=
      @migration_paging_complete Sample.hashing (ReplaySample.peers turn) ReplaySample.change
      ReplaySample.range (fun _ => 0) (ReplaySample.source_serving turn) source found
    obtain ⟨result, world, performed, ends⟩ := complete finalWatermark 100 state staged _ rfl rfl
      (fun _ _ => rfl)
      (fun bound given => journaled bound given source found) held pending (Nat.lt_succ_self _)
    have performed : ReplaySample.replay turn staged.watermark finalWatermark state =
        some (result, world) := performed
    obtain ⟨reply, sound⟩ : result.toOption = some last ∧ world.failed = false := by
      simpa [performed] using ended
    rcases ends with failed | ⟨reached, _, _, rfl, _, _, _, replayed, sent⟩
    · exact absurd (failed.symm.trans sound) (by simp)
    · obtain rfl : reached = last := Option.some.inj reply
      obtain ⟨later, there, open_, mark, _⟩ := replayed.staged
      exact ⟨world, performed, sent, later, there, open_, mark⟩
  obtain ⟨source, found⟩ := listed 0
  have lists : ((ReplaySample.views 0).state.sources.lookup ⟨"change", "range"⟩).map
      (fun source => (source.snapshotKeys.length, source.snapshotDedupIds.length)) = some (3, 3) := by
    decide +kernel
  obtain ⟨keys, ids⟩ : source.snapshotKeys.length = 3 ∧ source.snapshotDedupIds.length = 3 := by
    simpa [found] using lists
  obtain ⟨snapshot, receipts, _⟩ :=
    @migration_paging_complete Sample.hashing (ReplaySample.peers 0) ReplaySample.change
    ReplaySample.range (fun _ => 0) (ReplaySample.source_serving 0) source found
  have views : (ReplaySample.peers 0).views = ReplaySample.views :=
    funext fun index => congrArg ReplaySample.views (Nat.zero_add index)
  have clocks : (ReplaySample.peers 0).now = ReplaySample.now :=
    funext fun index => congrArg ReplaySample.now (Nat.zero_add index)
  rw [views] at snapshot receipts
  rw [clocks] at receipts
  refine ⟨⟨source, found, snapshot 4 (by omega), receipts 4 (by omega)⟩,
    by decide +kernel, by decide +kernel, ?_⟩
  have prepared : (ReplaySample.destination.destinations.lookup ⟨"change", "range"⟩).map
      (fun staged => (staged.watermark, staged.committed)) = some (0, false) := by
    decide +kernel
  obtain ⟨staged, held, fields⟩ := Option.map_eq_some_iff.mp prepared
  obtain ⟨start, pending⟩ : staged.watermark = 0 ∧ staged.committed = false := by
    simpa using fields
  obtain ⟨world, copied, sent, later, there, open_, mark⟩ :=
    replays 1 none ReplaySample.destination staged 2 (by simp) held pending
    (by rw [start]; decide +kernel)
  rw [start] at copied sent
  have copied : ReplaySample.copied = some (.ok 2, world) := copied
  refine ⟨⟨world, copied, sent⟩, ?_⟩
  have finalized : ReplaySample.finalized = ReplaySample.replay 2 later.watermark
      (some 3) world.destination := by
    rw [ReplaySample.finalized, copied, mark]
    rfl
  have ended : ReplaySample.finalized.map (fun ended => (ended.1.toOption, ended.2.failed)) =
      some (some 3, false) := by
    decide +kernel
  have marks : ((ReplaySample.views 2).state.sources.lookup ⟨"change", "range"⟩).map (·.watermark) =
      some 3 := by
    decide +kernel
  have journaled (bound : Nat) (given : some 3 = some bound) (source : SourceMigration)
      (found : (ReplaySample.views 2).state.sources.lookup ⟨"change", "range"⟩ = some source) :
          bound ≤ source.watermark := by
    rw [found] at marks
    have mark : source.watermark = 3 := Option.some.inj marks
    rw [← Option.some.inj given, mark]
  obtain ⟨final, done, last, _⟩ :=
    replays 2 (some 3) world.destination later 3 journaled there open_ (finalized ▸ ended)
  rw [mark] at last
  exact ⟨final, finalized.trans done, last⟩

end Hashring
