import Hashring.RecordsMoved

/-! Receipts in the staging of a moved range. A receipt travels in a page of the
frozen IDs or with the journal entry of its write, each time as what is left of
it; the staging side counts from the moment it receives it. Both nodes read one
clock here, so that their expiries can be compared. -/
namespace Hashring.RangeMove

/-- The same receipt, apart from the acknowledgements it still waits for. -/
structure SameReceipt (left right : DedupEntry) : Prop where
  key : left.key = right.key
  fingerprint : left.fingerprint = right.fingerprint
  version : left.version = right.version
  deleted : left.deleted = right.deleted
  expiresAt : left.expiresAt = right.expiresAt

theorem SameReceipt.refl (entry : DedupEntry) : SameReceipt entry entry := ⟨rfl, rfl, rfl, rfl, rfl⟩

theorem SameReceipt.trans {first second third : DedupEntry} (early : SameReceipt first second)
    (late : SameReceipt second third) : SameReceipt first third :=
  ⟨early.key.trans late.key, early.fingerprint.trans late.fingerprint, early.version.trans late.version,
    early.deleted.trans late.deleted, early.expiresAt.trans late.expiresAt⟩

theorem SameReceipt.symm {left right : DedupEntry} (same : SameReceipt left right) :
    SameReceipt right left :=
  ⟨same.key.symm, same.fingerprint.symm, same.version.symm, same.deleted.symm, same.expiresAt.symm⟩

/-- The wire receipt names the mutation of `entry`. -/
structure Describes (record : DeduplicationRecord) (id : String) (entry : DedupEntry) : Prop where
  id : record.mutationId = id
  key : record.key = entry.key
  fingerprint : record.fingerprint = entry.fingerprint
  version : record.version = some entry.version
  deleted : record.deleted = entry.deleted

theorem Describes.same {record : DeduplicationRecord} {id : String} {left right : DedupEntry}
    (described : Describes record id left) (same : SameReceipt left right) : Describes record id right :=
  ⟨described.id, described.key.trans same.key, described.fingerprint.trans same.fingerprint,
    described.version.trans (congrArg some same.version), described.deleted.trans same.deleted⟩

/-- Staged now or later, the wire receipt outlives `entry`. -/
def Promises (retentionMillis : Nat) (time : Instant) (record : DeduplicationRecord)
    (entry : DedupEntry) : Prop :=
  record.remainingRetentionMillis ≠ 0 ∧
    entry.expiresAt ≤ time + min record.remainingRetentionMillis retentionMillis * nanosPerMilli

theorem Promises.later {retentionMillis : Nat} {time later : Instant} {record : DeduplicationRecord}
    {entry : DedupEntry} (promised : Promises retentionMillis time record entry) (order : time ≤ later) :
    Promises retentionMillis later record entry :=
  ⟨promised.1, le_trans promised.2 (Nat.add_le_add_right order _)⟩

/-- Rounding up never shortens a receipt, and the cap does not bind while no
receipt outlives the retention. -/
theorem remaining_promises (expiresAt now retentionMillis : Nat) (live : now < expiresAt)
    (bounded : expiresAt ≤ now + retentionMillis * nanosPerMilli) :
    remainingRetentionMillis expiresAt now retentionMillis ≠ 0 ∧
      expiresAt ≤ now + min (remainingRetentionMillis expiresAt now retentionMillis) retentionMillis
        * nanosPerMilli := by
  simp only [remainingRetentionMillis, nanosPerMilli] at bounded ⊢
  have positive : expiresAt - now ≠ 0 := by omega
  rw [if_neg positive]
  rcases Nat.le_total ((expiresAt - now + (1000000 - 1)) / 1000000) retentionMillis with small | large
  · simp only [Nat.min_eq_left small]
    omega
  · simp only [Nat.min_eq_right large, Nat.min_self]
    omega

/-- The staging side holds the receipt, for at least as long. -/
def StagedFor (staged : DestinationMigration) (id : String) (entry : DedupEntry) : Prop :=
  ∃ held, staged.dedup.lookup id = some held ∧ Describes held.record id entry ∧ entry.expiresAt ≤
    held.expiresAt

theorem StagedFor.same {staged : DestinationMigration} {id : String} {left right : DedupEntry}
    (held : StagedFor staged id left) (same : SameReceipt left right) : StagedFor staged id right := by
  obtain ⟨receipt, found, described, order⟩ := held
  exact ⟨receipt, found, described.same same, same.expiresAt ▸ order⟩

theorem ReceiptsGrow.staged {before after : DestinationMigration} (grow : ReceiptsGrow before after)
    {id : String}
    {entry : DedupEntry} (held : StagedFor before id entry) : StagedFor after id entry := by
  obtain ⟨receipt, found, described, order⟩ := held
  obtain ⟨later, kept, same, longer⟩ := grow id receipt found
  exact ⟨later, kept, same ▸ described, le_trans order longer⟩

theorem purge_staged_for (staged : DestinationMigration) (now : Instant) (id : String)
    (entry : DedupEntry) (live : now < entry.expiresAt) (held : StagedFor staged id entry) :
    StagedFor (purgeStagedDedup staged now) id entry := by
  obtain ⟨receipt, found, described, order⟩ := held
  refine ⟨receipt, ?_, described, order⟩
  simp only [purgeStagedDedup, FiniteMap.lookup_retain, found]
  exact Option.filter_some_pos (by simpa using lt_of_lt_of_le live order)

def StagedNamed (staged : DestinationMigration) : Prop :=
  ∀ id held, staged.dedup.lookup id = some held → held.record.mutationId = id

theorem insert_staged {before after : DestinationMigration} {id : String} {held : StagedDedup}
    {staged : Prop}
    (named : StagedNamed before) (put : after.dedup = before.dedup.insert id held)
    (own : held.record.mutationId = id)
    (prolongs : ∀ old, before.dedup.lookup id = some old → held.record = old.record ∧
      old.expiresAt ≤ held.expiresAt)
    (serves : after.dedup.lookup id = some held → staged) :
    ReceiptsGrow before after ∧ StagedNamed after ∧ staged := by
  have found : ∀ probe, after.dedup.lookup probe = if probe =
      id then some held else before.dedup.lookup probe := by
    intro probe
    rw [put, FiniteMap.lookup_insert_if]
  refine ⟨fun probe old stored => ?_, fun probe old stored => ?_, serves (by rw [found, if_pos rfl])⟩
  · by_cases here : probe = id
    · subst here
      obtain ⟨same, longer⟩ := prolongs old stored
      exact ⟨held, by rw [found, if_pos rfl], same, longer⟩
    · exact ⟨old, by rw [found, if_neg here, stored], rfl, le_refl _⟩
  · rw [found] at stored
    split at stored
    · rename_i here
      obtain rfl := Option.some.inj stored
      exact own.trans here.symm
    · exact named probe old stored

theorem stage_dedup_effect (destination staged : DestinationMigration) (record : DeduplicationRecord)
    (maxDedupBytes retentionMillis : Nat) (now : Instant) (named : StagedNamed destination)
    (accepted : stageDedup destination record maxDedupBytes retentionMillis now = .ok staged) :
    ReceiptsGrow destination staged ∧ StagedNamed staged ∧
      ∀ id entry, Describes record id entry → Promises retentionMillis now record entry →
        StagedFor staged id entry := by
  unfold stageDedup at accepted
  simp only at accepted
  -- Spent already, staged before with the same content, or new.
  split at accepted
  · rename_i spent
    obtain rfl := Except.ok.inj accepted
    exact ⟨ReceiptsGrow.refl _, named, fun _ _ _ promised => absurd spent promised.1⟩
  · split at accepted
    · exact absurd accepted (by simp)
    · split at accepted
      · exact absurd accepted (by simp)
      · split at accepted
        · rename_i existing found
          split at accepted
          · rename_i same
            obtain rfl := Except.ok.inj accepted
            refine insert_staged named rfl (named _ existing found) ?_
              fun placed id entry described promised => ?_
            · intro old stored
              obtain rfl := Option.some.inj (found.symm.trans stored)
              exact ⟨rfl, le_max_left _ _⟩
            obtain rfl := described.id
            refine ⟨_, placed, ?_, le_trans promised.2 (le_max_right _ _)⟩
            exact ⟨named _ existing found, same.1.trans described.key,
              same.2.1.trans described.fingerprint,
              same.2.2.1.trans described.version, same.2.2.2.trans described.deleted⟩
          · exact absurd accepted (by simp)
        · rename_i absent
          split at accepted
          · exact absurd accepted (by simp)
          · obtain rfl := Except.ok.inj accepted
            refine insert_staged named rfl rfl (fun old stored => ?_)
              fun placed id entry described promised => ?_
            · exact absurd (absent.symm.trans stored) (by simp)
            obtain rfl := described.id
            exact ⟨_, placed, described, promised.2⟩

theorem stage_dedup_records_effect (hashing : Hashing) (config : NodeConfig) (topology : TopologySnapshot)
    (now : Instant) (records : List DeduplicationRecord) (destination : DestinationMigration)
    (named : StagedNamed destination) :
    ReceiptsGrow destination (stageDedupRecords hashing config topology now destination records).1 ∧
      StagedNamed (stageDedupRecords hashing config topology now destination records).1 ∧
      ((stageDedupRecords hashing config topology now destination records).2 = none →
        ∀ record ∈ records, ∀ id entry, Describes record id entry →
          Promises topology.timings.receiptRetentionMillis now record entry →
            StagedFor (stageDedupRecords hashing config topology now destination records).1 id
              entry) := by
  induction records generalizing destination with
  | nil => exact ⟨ReceiptsGrow.refl _, named, fun _ _ member => absurd member (by simp)⟩
  | cons record rest ih =>
      unfold stageDedupRecords
      split
      · exact ⟨ReceiptsGrow.refl _, named, fun accepted => absurd accepted (by simp)⟩
      · split
        · exact ⟨ReceiptsGrow.refl _, named, fun accepted => absurd accepted (by simp)⟩
        · rename_i staged accepted
          obtain ⟨grow, stillNamed, first⟩ :=
            stage_dedup_effect destination staged record _ _ _ named accepted
          obtain ⟨more, finallyNamed, later⟩ := ih staged stillNamed
          refine ⟨grow.trans more, finallyNamed, ?_⟩
          intro whole other member id entry described promised
          rcases List.mem_cons.mp member with rfl | listed
          · exact ReceiptsGrow.staged more (first id entry described promised)
          · exact later whole other listed id entry described promised

theorem journal_step_receipts {hashing : Hashing} {config : NodeConfig}
    {topology : TopologySnapshot} {now : Instant} {entry : JournalRecord} {sent : MigrationRecord}
    {key : Bytes} {record : Record} {before receipted after : DestinationMigration}
    (step : JournalStep hashing config topology now entry sent key record before receipted after)
    (named : StagedNamed before) :
    ReceiptsGrow before after ∧ StagedNamed after ∧
      (sent.mutationId.isEmpty = false → ∀ id receipt, Describes (journalReceipt sent) id receipt →
        Promises topology.timings.receiptRetentionMillis now (journalReceipt sent) receipt →
          StagedFor after id receipt) := by
  have receipt := step.receipt
  rw [step.result]
  split at receipt
  · rename_i empty
    obtain rfl := Except.ok.inj receipt
    exact ⟨ReceiptsGrow.refl _, named, fun present => absurd (empty.symm.trans present) (by simp)⟩
  · obtain ⟨grow, stillNamed, stages⟩ := stage_dedup_effect before receipted _ _ _ _ named receipt
    exact ⟨grow, stillNamed, fun _ => stages⟩

/-- The journal entry was written together with `entry`. -/
def Records (journaled : JournalRecord) (id : String) (entry : DedupEntry) : Prop :=
  ∃ sent, journaled.record = some sent ∧ Describes (journalReceipt sent) id entry

/-- A journal entry as a changelog page sends it. -/
def CopyOf (copied journaled : JournalRecord) : Prop :=
  copied.watermark = journaled.watermark ∧ ∃ original remaining, journaled.record = some original ∧
    copied.record = some { original with remainingRetentionMillis := remaining }

/-- The receipt side of a move at `time`: where each live receipt of the range
comes from, what the pages in flight promise for it, and what is staged. -/
structure ReceiptInv (inRange : Bytes → Prop) (initial : FiniteMap String DedupEntry)
    (retentionMillis : Nat) (time : Instant) (source : SourceMigration)
    (staged : DestinationMigration) (dedup : FiniteMap String DedupEntry)
    (dedupPages : List (Nat × DedupSnapshotPageResponse))
    (changelogPages : List ChangelogPageResponse)
    (dedupApplied : List (Nat × Nat)) : Prop where
  bounded : ∀ id entry, dedup.lookup id = some entry → entry.expiresAt ≤
    time + retentionMillis * nanosPerMilli
  listed : ∀ id frozen, initial.lookup id = some frozen → inRange frozen.key →
    id ∈ source.snapshotDedupIds
  kept : ∀ id frozen, initial.lookup id = some frozen → time < frozen.expiresAt →
    ∃ entry, dedup.lookup id = some entry ∧ SameReceipt frozen entry
  routed : ∀ id entry, dedup.lookup id = some entry → time < entry.expiresAt → inRange entry.key →
    (∃ frozen, initial.lookup id = some frozen ∧ SameReceipt frozen entry) ∨
      ∃ journaled ∈ source.journal, Records journaled id entry
  named : ∀ journaled ∈ source.journal, ∀ sent, journaled.record = some sent →
    sent.mutationId.isEmpty = false
  shown : ∀ page ∈ dedupPages, ∀ index, page.1 ≤ index → index < page.2.nextCursor →
    ∀ id, source.snapshotDedupIds[index]? = some id → ∀ frozen, initial.lookup id = some frozen →
      time < frozen.expiresAt → ∃ sent ∈ page.2.records, Describes sent id frozen ∧
        Promises retentionMillis time sent frozen
  copied : ∀ page ∈ changelogPages, ∀ copied ∈ page.records, ∃ journaled ∈ source.journal,
    CopyOf copied journaled ∧
    ∀ sent, copied.record = some sent → ∀ id entry, dedup.lookup id = some entry →
      time < entry.expiresAt →
      Describes (journalReceipt sent) id entry → Promises retentionMillis time (journalReceipt sent) entry
  stagedNamed : StagedNamed staged
  frozenStaged : ∀ interval ∈ dedupApplied, ∀ index, interval.1 ≤ index → index < interval.2 →
    ∀ id, source.snapshotDedupIds[index]? = some id → ∀ frozen, initial.lookup id = some frozen →
      time < frozen.expiresAt → StagedFor staged id frozen
  journalStaged : ∀ journaled ∈ source.journal, journaled.watermark ≤ staged.watermark → ∀ id entry,
    dedup.lookup id = some entry → time < entry.expiresAt → Records journaled id entry →
      StagedFor staged id entry

/-- Between two moments receipts only expire: none that is still live is lost,
and none appears. -/
structure Quieter (later : Instant) (before after : FiniteMap String DedupEntry) : Prop where
  kept : ∀ id entry, before.lookup id = some entry → later < entry.expiresAt →
    ∃ still, after.lookup id = some still ∧ SameReceipt entry still
  origin : ∀ id still, after.lookup id = some still → ∃ entry, before.lookup id = some entry ∧
    SameReceipt entry still

theorem Quieter.refl (later : Instant) (dedup : FiniteMap String DedupEntry) :
    Quieter later dedup dedup :=
  ⟨fun _ entry found _ => ⟨entry, found, SameReceipt.refl entry⟩,
    fun _ entry found => ⟨entry, found, SameReceipt.refl entry⟩⟩

theorem quieter_purge (hashing : Hashing) (state : NodeState) (now later : Instant)
    (order : now ≤ later) :
    Quieter later state.dedup (purgeExpiredDedup hashing state now).dedup where
  kept id entry found live :=
    ⟨entry, purge_keeps_live hashing state now id entry found (lt_of_le_of_lt order live),
      SameReceipt.refl entry⟩
  origin id entry found :=
    ⟨entry, purge_lookup_some hashing state now id entry found, SameReceipt.refl entry⟩

theorem quieter_complete (state : NodeState) (mutationId : String) (version : RecordVersion)
    (later : Instant) :
    Quieter later state.dedup (completeRequiredAcks state mutationId version).dedup := by
  unfold completeRequiredAcks
  split
  · exact Quieter.refl later state.dedup
  · rename_i completed present
    split
    · exact Quieter.refl later state.dedup
    · constructor
      · intro id entry found _
        by_cases here : id = mutationId
        · subst id
          obtain rfl := Option.some.inj (present.symm.trans found)
          exact ⟨_, AList.lookup_insert _, ⟨rfl, rfl, rfl, rfl, rfl⟩⟩
        · exact ⟨entry, by simp [here, found], SameReceipt.refl entry⟩
      · intro id still found
        rw [FiniteMap.lookup_insert_if] at found
        split at found
        · rename_i here
          obtain rfl := Option.some.inj found
          exact ⟨completed, here ▸ present, ⟨rfl, rfl, rfl, rfl, rfl⟩⟩
        · exact ⟨still, found, SameReceipt.refl still⟩

theorem quieter_finish (now later : Instant) (state : NodeState) (reached : Bool) (epoch : Nat)
    (mutationId : String) (version : RecordVersion) (required : List RequiredAck) :
    Quieter later state.dedup
      (finishRequiredAcks now state reached epoch mutationId version required).1.dedup := by
  rcases finish_required_acks_cases now state reached epoch mutationId version required
    with same | completed
  · rw [same]
    exact Quieter.refl later state.dedup
  · rw [completed]
    exact quieter_complete state mutationId version later

section Steps

variable {inRange : Bytes → Prop} {initial dedup : FiniteMap String DedupEntry} {retentionMillis : Nat}
variable {time : Instant} {source : SourceMigration} {staged : DestinationMigration}
variable {dedupPages : List (Nat × DedupSnapshotPageResponse)}
  {changelogPages : List ChangelogPageResponse}
variable {dedupApplied : List (Nat × Nat)}

theorem receipt_inv_quieter {later : Instant} {after : FiniteMap String DedupEntry}
    {moved : SourceMigration}
    (inv : ReceiptInv inRange initial retentionMillis time source staged dedup dedupPages
      changelogPages dedupApplied)
    (order : time ≤ later) (quiet : Quieter later dedup after)
    (sameJournal : moved.journal = source.journal)
    (sameIds : moved.snapshotDedupIds = source.snapshotDedupIds) :
    ReceiptInv inRange initial retentionMillis later moved staged after dedupPages changelogPages
      dedupApplied where
  bounded id still found := by
    obtain ⟨entry, before, same⟩ := quiet.origin id still found
    rw [← same.expiresAt]
    exact le_trans (inv.bounded id entry before) (Nat.add_le_add_right order _)
  listed := by
    rw [sameIds]
    exact inv.listed
  kept id frozen first live := by
    obtain ⟨entry, found, same⟩ := inv.kept id frozen first (lt_of_le_of_lt order live)
    obtain ⟨still, kept, again⟩ := quiet.kept id entry found (same.expiresAt ▸ live)
    exact ⟨still, kept, same.trans again⟩
  -- A receipt that is there now was there before, so its way was known.
  routed id still found live inside := by
    obtain ⟨entry, before, same⟩ := quiet.origin id still found
    rcases inv.routed id entry before (lt_of_le_of_lt order (same.expiresAt ▸ live))
      (same.key ▸ inside) with
      ⟨frozen, first, equal⟩ | ⟨journaled, member, sent, record, described⟩
    · exact Or.inl ⟨frozen, first, equal.trans same⟩
    · exact Or.inr ⟨journaled, sameJournal ▸ member, sent, record, described.same same⟩
  named := by
    rw [sameJournal]
    exact inv.named
  shown page member index above below id placed frozen first live := by
    rw [sameIds] at placed
    obtain ⟨sent, listed, described, promised⟩ :=
      inv.shown page member index above below id placed frozen first (lt_of_le_of_lt order live)
    exact ⟨sent, listed, described, promised.later order⟩
  copied page member copied listed := by
    rw [sameJournal]
    obtain ⟨journaled, present, copy, promises⟩ := inv.copied page member copied listed
    refine ⟨journaled, present, copy, ?_⟩
    intro sent record id still found live described
    obtain ⟨entry, before, same⟩ := quiet.origin id still found
    have promised := promises sent record id entry before (lt_of_le_of_lt order (same.expiresAt ▸ live))
      (described.same same.symm)
    refine ⟨promised.1, ?_⟩
    rw [← same.expiresAt]
    exact (promised.later order).2
  stagedNamed := inv.stagedNamed
  frozenStaged interval member index above below id placed frozen first live := by
    rw [sameIds] at placed
    exact inv.frozenStaged interval member index above below id placed frozen first
      (lt_of_le_of_lt order live)
  journalStaged journaled member acknowledged id still found live records := by
    rw [sameJournal] at member
    obtain ⟨entry, before, same⟩ := quiet.origin id still found
    obtain ⟨sent, record, described⟩ := records
    exact (inv.journalStaged journaled member acknowledged id entry before
      (lt_of_le_of_lt order (same.expiresAt ▸ live)) ⟨sent, record, described.same same.symm⟩).same same

/-- A new receipt whose mutation no journal entry has named before; in the range
it comes with a journal entry of its own. -/
theorem receipt_inv_insert {after : FiniteMap String DedupEntry} {moved : SourceMigration} {id : String}
    {new : DedupEntry} (extra : List JournalRecord)
    (inv : ReceiptInv inRange initial retentionMillis time source staged dedup dedupPages
      changelogPages dedupApplied)
    (absent : dedup.lookup id = none)
    (inserted : ∀ probe, after.lookup probe = if probe = id then some new else dedup.lookup probe)
    (bounded : new.expiresAt ≤ time + retentionMillis * nanosPerMilli)
    (unseen : ∀ journaled ∈ source.journal, ¬Records journaled id new)
    (sameIds : moved.snapshotDedupIds = source.snapshotDedupIds)
    (grown : moved.journal = source.journal ++ extra)
    (named : ∀ journaled ∈ extra, ∀ sent, journaled.record = some sent → sent.mutationId.isEmpty = false)
    (ahead : ∀ journaled ∈ extra, staged.watermark < journaled.watermark)
    (route : inRange new.key → ∃ journaled ∈ extra, Records journaled id new) :
    ReceiptInv inRange initial retentionMillis time moved staged after dedupPages changelogPages
      dedupApplied := by
  -- A receipt of the new map is the new one or an old one.
  have origin : ∀ probe entry, after.lookup probe = some entry →
      probe = id ∧ entry = new ∨ probe ≠ id ∧ dedup.lookup probe = some entry := by
    intro probe entry found
    rw [inserted] at found
    by_cases here : probe = id
    · simp only [here, ↓reduceIte, Option.some.injEq] at found
      exact Or.inl ⟨here, found.symm⟩
    · simp only [here, ↓reduceIte] at found
      exact Or.inr ⟨here, found⟩
  exact {
    bounded := by
      intro probe entry found
      rcases origin probe entry found with ⟨_, rfl⟩ | ⟨_, old⟩
      · exact bounded
      · exact inv.bounded probe entry old
    listed := by
      rw [sameIds]
      exact inv.listed
    kept := by
      intro probe frozen first live
      obtain ⟨entry, found, same⟩ := inv.kept probe frozen first live
      refine ⟨entry, ?_, same⟩
      have other : probe ≠ id := by
        rintro rfl
        exact absurd (absent.symm.trans found) (by simp)
      rw [inserted, if_neg other]
      exact found
    routed := by
      intro probe entry found live inside
      rcases origin probe entry found with ⟨rfl, rfl⟩ | ⟨_, old⟩
      · obtain ⟨journaled, member, records⟩ := route inside
        exact Or.inr ⟨journaled, grown ▸ List.mem_append_right _ member, records⟩
      · rcases inv.routed probe entry old live inside with first | ⟨journaled, member, records⟩
        · exact Or.inl first
        · exact Or.inr ⟨journaled, grown ▸ List.mem_append_left _ member, records⟩
    named := by
      intro journaled member
      rw [grown] at member
      rcases List.mem_append.mp member with old | fresh
      · exact inv.named journaled old
      · exact named journaled fresh
    shown := by
      rw [sameIds]
      exact inv.shown
    copied := by
      intro page member copied listed
      obtain ⟨journaled, present, copy, promises⟩ := inv.copied page member copied listed
      refine ⟨journaled, grown ▸ List.mem_append_left _ present, copy, ?_⟩
      intro sent record probe entry found live described
      rcases origin probe entry found with ⟨rfl, rfl⟩ | ⟨_, old⟩
      · obtain ⟨_, original, remaining, stored, same⟩ := copy
        obtain rfl := Option.some.inj (same.symm.trans record)
        exact absurd ⟨original, stored,
          ⟨described.id, described.key, described.fingerprint, described.version,
          described.deleted⟩⟩ (unseen journaled present)
      · exact promises sent record probe entry old live described
    stagedNamed := inv.stagedNamed
    frozenStaged := by
      rw [sameIds]
      exact inv.frozenStaged
    journalStaged := by
      intro journaled member acknowledged probe entry found live records
      rw [grown] at member
      rcases List.mem_append.mp member with old | fresh
      · rcases origin probe entry found with ⟨rfl, rfl⟩ | ⟨_, before⟩
        · exact absurd records (unseen journaled old)
        · exact inv.journalStaged journaled old acknowledged probe entry before live records
      · exact absurd acknowledged (not_le.mpr (ahead journaled fresh)) }

theorem receipt_inv_read (now : Instant) (cursor : Nat) (page : DedupSnapshotPageResponse) (count : Nat)
    (inv : ReceiptInv inRange initial retentionMillis now source staged dedup dedupPages
      changelogPages dedupApplied)
    (next : page.nextCursor = cursor + count)
    (records : page.records = ((source.snapshotDedupIds.drop cursor).take count).filterMap fun id =>
      ((dedup.lookup id).filter fun entry => now < entry.expiresAt).map fun entry =>
        dedupSnapshotRecord id entry now retentionMillis) :
    ReceiptInv inRange initial retentionMillis now source staged dedup
      ((cursor, page) :: dedupPages) changelogPages
      dedupApplied := by
  refine { inv with shown := ?_ }
  intro shown member index above below id placed frozen first live
  rcases List.mem_cons.mp member with rfl | old
  · obtain ⟨entry, found, same⟩ := inv.kept id frozen first live
    have stillLive : now < entry.expiresAt := same.expiresAt ▸ live
    have promised := remaining_promises entry.expiresAt now retentionMillis stillLive
        (inv.bounded id entry found)
    refine ⟨dedupSnapshotRecord id entry now retentionMillis, ?_, ?_, ?_⟩
    · simp only [records, List.mem_filterMap, Option.map_eq_some_iff]
      refine ⟨id, ?_, entry, ?_, rfl⟩
      · apply List.mem_of_getElem? (i := index - cursor)
        simp only [next] at below
        simp only at above
        rw [List.getElem?_take, if_pos (by omega), List.getElem?_drop, Nat.add_sub_cancel' above]
        exact placed
      · rw [found]
        exact Option.filter_some_pos (by simpa using stillLive)
    · exact (⟨rfl, rfl, rfl, rfl, rfl⟩ : Describes _ id entry).same same.symm
    · exact ⟨promised.1, same.expiresAt ▸ promised.2⟩
  · exact inv.shown shown old index above below id placed frozen first live

theorem receipt_inv_changelog (now : Instant) (page : ChangelogPageResponse)
    (inv : ReceiptInv inRange initial retentionMillis now source staged dedup dedupPages
      changelogPages dedupApplied)
    (carried : ∀ journaled ∈ source.journal, ∃ key record, journaled.Carries key record)
    (copies : ∀ sent ∈ page.records, ∃ entry ∈ source.journal,
      sent = copiedJournalRecord dedup now retentionMillis entry) :
    ReceiptInv inRange initial retentionMillis now source staged dedup dedupPages (page :: changelogPages)
      dedupApplied := by
  refine { inv with copied := ?_ }
  intro shown member copied listed
  rcases List.mem_cons.mp member with same | old
  · rw [same] at listed
    obtain ⟨journaled, present, rfl⟩ := copies copied listed
    obtain ⟨_, _, original, stored, _⟩ := carried journaled present
    refine ⟨journaled, present,
      ⟨rfl, original, _, stored, by simp only [copiedJournalRecord, stored]; rfl⟩, ?_⟩
    intro sent record id entry found live described
    simp only [copiedJournalRecord, stored, Option.map_some, Option.some.injEq] at record
    subst sent
    have promised := remaining_promises entry.expiresAt now retentionMillis live
        (inv.bounded id entry found)
    obtain rfl : original.mutationId = id := described.id
    have sameFingerprint : original.requestFingerprint = entry.fingerprint := described.fingerprint
    have sameVersion : original.version = some entry.version := described.version
    have remaining : journalRetention dedup now retentionMillis original =
        remainingRetentionMillis entry.expiresAt now retentionMillis := by
      simp [journalRetention, found, Option.filter_some, sameFingerprint, sameVersion]
    simp only [Promises, journalReceipt, remaining]
    exact promised
  · exact inv.copied shown old copied listed

theorem purge_staged_named (staged : DestinationMigration) (now : Instant) (named : StagedNamed staged) :
    StagedNamed (purgeStagedDedup staged now) := by
  intro id held found
  simp only [purgeStagedDedup, FiniteMap.lookup_retain] at found
  exact named id held (Option.filter_eq_some_iff.mp found).1

theorem batch_keeps_staged (clock : Clock) (id : String) (entry : DedupEntry)
    (after : DestinationMigration) (live : clock.later < entry.expiresAt)
    (grow : ReceiptsGrow (purgeStagedDedup staged clock.now) after)
    (held : StagedFor staged id entry) : StagedFor after id entry :=
  ReceiptsGrow.staged grow
    (purge_staged_for staged clock.now id entry (lt_of_le_of_lt clock.ordered live) held)

variable (hashing : Hashing) (config : NodeConfig) (topology : TopologySnapshot)

theorem receipt_inv_dedup (clock : Clock) (page : Nat × DedupSnapshotPageResponse)
    (member : page ∈ dedupPages)
    (inv : ReceiptInv inRange initial retentionMillis clock.later source staged dedup dedupPages
      changelogPages
      dedupApplied)
    (retention : topology.timings.receiptRetentionMillis = retentionMillis) :
    ReceiptInv inRange initial retentionMillis clock.later source
      (stageDedupRecords hashing config topology clock.later (purgeStagedDedup staged clock.now)
        page.2.records).1 dedup
      dedupPages changelogPages
      (applied dedupApplied (answerOf (stageDedupRecords hashing config topology clock.later
        (purgeStagedDedup staged clock.now) page.2.records).2) (some (page.1, page.2.nextCursor))) := by
  obtain ⟨grow, named, stages⟩ :=
    stage_dedup_records_effect hashing config topology clock.later page.2.records
    (purgeStagedDedup staged clock.now) (purge_staged_named staged clock.now inv.stagedNamed)
  obtain ⟨_, _, frame⟩ := stage_dedup_records_frame hashing config topology clock.later page.2.records
    (purgeStagedDedup staged clock.now)
  rw [retention] at stages
  generalize stageDedupRecords hashing config topology clock.later (purgeStagedDedup staged clock.now)
    page.2.records = result at grow named stages frame
  refine { inv with stagedNamed := named, frozenStaged := ?_, journalStaged := ?_ }
  · intro interval covered index above below id placed frozen first live
    rcases mem_applied covered with old | ⟨accepted, new⟩
    · exact batch_keeps_staged clock id frozen _ live grow
        (inv.frozenStaged interval old index above below id placed frozen first live)
    · obtain rfl := Option.some.inj new
      obtain ⟨sent, listed, described, promised⟩ :=
        inv.shown page member index above below id placed frozen first live
      exact stages (answer_of_ok _ accepted) sent listed id frozen described promised
  · intro journaled present acknowledged id entry found live records
    have sameWatermark : result.1.watermark = staged.watermark := by
      rw [frame]
      rfl
    rw [sameWatermark] at acknowledged
    exact batch_keeps_staged clock id entry _ live grow
      (inv.journalStaged journaled present acknowledged id entry found live records)

theorem receipt_inv_batch (clock : Clock) (snapshot : List MigrationRecord) (entries : List JournalRecord)
    (inv : ReceiptInv inRange initial retentionMillis clock.later source staged dedup dedupPages
      changelogPages
      dedupApplied)
    (retention : topology.timings.receiptRetentionMillis = retentionMillis)
    (distinct : ∀ first ∈ source.journal, ∀ second ∈ source.journal, first.watermark = second.watermark →
      first = second)
    (carried : ∀ journaled ∈ source.journal, ∃ key record, journaled.Carries key record)
    (shown : ∀ entry ∈ entries, ∃ page ∈ changelogPages, entry ∈ page.records) :
    ReceiptInv inRange initial retentionMillis clock.later source
      (stageBatch hashing config topology clock staged snapshot entries).1 dedup dedupPages changelogPages
      dedupApplied := by
  -- What the journal steps keep: receipts only grow, and every acknowledged
  -- journal entry has its live receipt staged.
  have kept : StagedNamed (stageBatch hashing config topology clock staged snapshot entries).1 ∧
      ReceiptsGrow (purgeStagedDedup staged clock.now)
        (stageBatch hashing config topology clock staged snapshot entries).1 ∧
      ∀ journaled ∈ source.journal,
        journaled.watermark ≤ (stageBatch hashing config topology clock staged snapshot
          entries).1.watermark →
        ∀ id entry, dedup.lookup id = some entry → clock.later < entry.expiresAt →
          Records journaled id entry →
          StagedFor (stageBatch hashing config topology clock staged snapshot entries).1 id entry := by
    obtain ⟨records, frame⟩ :=
      stage_snapshot_frame hashing topology snapshot (purgeStagedDedup staged clock.now)
    have start : StagedNamed
        (stageSnapshotRecords hashing topology (purgeStagedDedup staged clock.now) snapshot).1 ∧
        ReceiptsGrow (purgeStagedDedup staged clock.now)
          (stageSnapshotRecords hashing topology (purgeStagedDedup staged clock.now) snapshot).1 ∧
        ∀ journaled ∈ source.journal, journaled.watermark ≤
            (stageSnapshotRecords hashing topology (purgeStagedDedup staged clock.now)
              snapshot).1.watermark →
          ∀ id entry, dedup.lookup id = some entry → clock.later < entry.expiresAt →
            Records journaled id entry →
            StagedFor (stageSnapshotRecords hashing topology (purgeStagedDedup staged clock.now)
              snapshot).1 id
              entry := by
      rw [frame]
      refine ⟨purge_staged_named staged clock.now inv.stagedNamed, ReceiptsGrow.refl _, ?_⟩
      intro journaled present acknowledged id entry found live records
      exact purge_staged_for staged clock.now id entry (lt_of_le_of_lt clock.ordered live)
        (inv.journalStaged journaled present acknowledged id entry found live records)
    unfold stageBatch
    cases result : stageSnapshotRecords hashing topology (purgeStagedDedup staged clock.now) snapshot with
    | mk middle error =>
        rw [result] at start
        cases error with
        | some status => exact start
        | none =>
            apply stage_journal_invariant hashing config topology clock.later
              (fun current => StagedNamed current ∧
                ReceiptsGrow (purgeStagedDedup staged clock.now) current ∧
                ∀ journaled ∈ source.journal, journaled.watermark ≤ current.watermark → ∀ id entry,
                  dedup.lookup id = some entry → clock.later < entry.expiresAt →
                    Records journaled id entry →
                    StagedFor current id entry) entries _ _ middle start
            · intro entry member
              obtain ⟨page, listed, present⟩ := shown entry member
              obtain ⟨journaled, held, ⟨_, original, remaining, stored, same⟩, _⟩ :=
                inv.copied page listed entry present
              obtain ⟨key, record, sent, found, fields⟩ := carried journaled held
              obtain rfl := Option.some.inj (stored.symm.trans found)
              exact ⟨key, record, _, same, fields.key, fields.value, fields.version, fields.deleted,
                fields.deadline⟩
            · rintro entry member sent key record before receipted after step ⟨named, grow, staging⟩
              obtain ⟨page, listed, present⟩ := shown entry member
              obtain ⟨journaled, held, ⟨sameWatermark, original, remaining, stored, same⟩, promises⟩ :=
                inv.copied page listed entry present
              obtain ⟨more, stillNamed, stages⟩ := journal_step_receipts step named
              obtain ⟨_, _, shape⟩ := step.frame
              refine ⟨stillNamed, grow.trans more, ?_⟩
              intro other journaledToo acknowledged id receipt found live records
              by_cases newest : other.watermark = entry.watermark
              · -- The acknowledged entry is the one that was just staged.
                obtain rfl := distinct other journaledToo journaled held (newest.trans sameWatermark)
                obtain ⟨written, again, described⟩ := records
                obtain rfl := Option.some.inj (stored.symm.trans again)
                obtain rfl := Option.some.inj (same.symm.trans step.found)
                have describes : Describes
                    (journalReceipt { original with remainingRetentionMillis := remaining }) id
                    receipt := ⟨described.id, described.key, described.fingerprint,
                      described.version, described.deleted⟩
                apply stages (inv.named other journaledToo original stored) id receipt describes
                rw [retention]
                exact promises _ same id receipt found live describes
              · have earlier : other.watermark ≤ before.watermark := by
                  have next := step.next
                  rw [shape] at acknowledged
                  simp only at acknowledged
                  omega
                exact ReceiptsGrow.staged more
                  (staging other journaledToo earlier id receipt found live records)
  obtain ⟨named, grow, staging⟩ := kept
  refine { inv with stagedNamed := named, frozenStaged := ?_, journalStaged := staging }
  intro interval covered index above below id placed frozen first live
  exact batch_keeps_staged clock id frozen _ live grow
    (inv.frozenStaged interval covered index above below id placed frozen first live)

end Steps

section Commit

variable (hashing : Hashing) (config : NodeConfig)

theorem adopt_receipt_lookup (state : NodeState) (id probe : String) (staged : StagedDedup) :
    (adoptReceipt hashing state id staged).dedup.lookup probe =
      if probe = id ∧ state.dedup.lookup id = none then
        staged.record.version.map fun version =>
          freshReceipt id staged.record.key staged.record.fingerprint version
          staged.record.deleted staged.expiresAt
      else state.dedup.lookup probe := by
  unfold adoptReceipt
  split
  · rename_i held
    obtain ⟨receipt, found⟩ := (FiniteMap.mem_iff_lookup _ _).mp held
    simp [found]
  · rename_i free
    have absent := AList.lookup_eq_none.mpr free
    split
    · rename_i unversioned
      by_cases same : probe = id
      · subst probe
        simp [absent, unversioned]
      · simp [same]
    · rename_i version versioned
      rw [lookup_insert_dedup]
      by_cases same : probe = id
      · subst probe
        simp [absent, versioned]
      · simp [same]

theorem adopt_receipts_lookup (entries : List (Sigma fun _ : String => StagedDedup))
    (distinct : entries.NodupKeys) (state : NodeState) (id : String) :
    (∀ receipt, state.dedup.lookup id = some receipt →
        (entries.foldl (fun state entry => adoptReceipt hashing state entry.1 entry.2)
          state).dedup.lookup id =
          some receipt) ∧
      (state.dedup.lookup id = none → ∀ staged version, ⟨id, staged⟩ ∈ entries →
        staged.record.version = some version →
        (entries.foldl (fun state entry => adoptReceipt hashing state entry.1 entry.2)
          state).dedup.lookup id =
          some (freshReceipt id staged.record.key staged.record.fingerprint version staged.record.deleted
            staged.expiresAt)) := by
  induction entries generalizing state with
  | nil => exact ⟨fun _ found => found, fun _ _ _ member => absurd member (by simp)⟩
  | cons entry rest ih =>
      obtain ⟨key, first⟩ := entry
      obtain ⟨unlisted, later⟩ := List.nodupKeys_cons.mp distinct
      rw [List.foldl_cons]
      obtain ⟨keeps, adopts⟩ := ih later (adoptReceipt hashing state key first)
      have lookup := adopt_receipt_lookup hashing state key id first
      constructor
      · intro receipt found
        -- An ID is adopted once; what follows finds it present.
        apply keeps
        rw [lookup, if_neg _]
        · exact found
        · rintro ⟨rfl, absent⟩
          exact absurd (absent.symm.trans found) (by simp)
      · intro absent staged version member versioned
        rcases List.mem_cons.mp member with same | listed
        · obtain ⟨rfl, sameStaged⟩ := Sigma.mk.inj_iff.mp same
          obtain rfl := eq_of_heq sameStaged
          apply keeps
          rw [lookup, if_pos ⟨rfl, absent⟩, versioned]
          rfl
        · -- The entries name each ID once, so this one is still absent.
          have other : id ≠ key := by
            intro same
            have present : id ∈ rest.keys := List.mem_keys_of_mem listed
            rw [same] at present
            exact unlisted present
          apply adopts _ staged version listed versioned
          rw [lookup, if_neg fun both => other both.1]
          exact absent

/-- A staged receipt after an accepted commit: adopted for its staged time, or
represented by the unexpired receipt the destination already held. -/
theorem commit_receipt (clock : Clock) (state : NodeState) (key : RangeKey)
    (destination : DestinationMigration) (found : state.destinations.lookup key = some destination)
    (pending : destination.committed = false) (named : StagedNamed destination)
    (sound : NodeSound hashing state)
    (accepted : (commitDestinationRange hashing config clock state key).2 = .ok ()) (id : String)
    (entry : DedupEntry) (live : clock.later < entry.expiresAt)
    (staged : StagedFor destination id entry) :
    ∃ receipt, (commitDestinationRange hashing config clock state key).1.dedup.lookup id = some receipt ∧
      receipt.fingerprint = entry.fingerprint ∧ receipt.version = entry.version ∧
        receipt.deleted = entry.deleted ∧
      (entry.expiresAt ≤ receipt.expiresAt ∨
        state.dedup.lookup id = some receipt ∧ clock.later < receipt.expiresAt) := by
  obtain ⟨agree, destinations, result⟩ :=
    commit_accepted hashing config clock state key destination found pending
    accepted
  obtain ⟨held, stored, described, order⟩ := staged
  have kept : (destination.dedup.retain fun _ entry => clock.now < entry.expiresAt).lookup id =
      some held := by
    rw [FiniteMap.lookup_retain, stored]
    exact Option.filter_some_pos (by
      simpa using lt_of_le_of_lt clock.ordered (lt_of_lt_of_le live order))
  have sameReceipts : (replaceRange hashing (purgeExpiredDedup hashing state clock.later)
      destination.range
      destination.records).dedup = (purgeExpiredDedup hashing state clock.later).dedup := by
    have removed := (remove_keys_fold
      ((purgeExpiredDedup hashing state clock.later).recordKeysInRange destination.range)
      (purgeExpiredDedup hashing state clock.later)).1
    have applied := apply_records_only hashing destination.records.entries
      (((purgeExpiredDedup hashing state clock.later).recordKeysInRange destination.range).foldl
        (fun state entry => state.removeRecordAt entry.1 entry.2)
          (purgeExpiredDedup hashing state clock.later))
    obtain ⟨⟨_, _, _, _, same⟩, _⟩ := removed.trans applied
    unfold replaceRange
    rw [same]
  obtain ⟨keeps, adopts⟩ := adopt_receipts_lookup hashing
    (destination.dedup.retain fun _ entry => clock.now < entry.expiresAt).entries
    (destination.dedup.retain fun _ entry => clock.now < entry.expiresAt).nodupKeys
    (replaceRange hashing (purgeExpiredDedup hashing state clock.later) destination.range
      destination.records) id
  rw [sameReceipts] at keeps adopts
  have final : ∀ receipt, (commitDestinationRange hashing config clock state key).1.dedup.lookup
      id = some receipt ↔
      ((destination.dedup.retain fun _ entry => clock.now < entry.expiresAt).entries.foldl
        (fun state entry => adoptReceipt hashing state entry.1 entry.2)
        (replaceRange hashing (purgeExpiredDedup hashing state clock.later) destination.range
          destination.records)).dedup.lookup id = some receipt := by
    intro receipt
    rw [result]
  cases present : (purgeExpiredDedup hashing state clock.later).dedup.lookup id with
  | some receipt =>
      -- The receipt that is already there answers for the same mutation.
      have agreed := agree id held kept
      rw [stagedConflicts, named id held stored, present] at agreed
      simp only [Option.any_some, Bool.or_eq_false_iff, decide_eq_false_iff_not, not_not] at agreed
      have before := lookup_purge_expired hashing state clock.later sound.receiptsScheduled id
      rw [present] at before
      obtain ⟨was, unexpired⟩ := Option.filter_eq_some_iff.mp before.symm
      refine ⟨receipt, (final receipt).mpr (keeps receipt present), ?_, ?_, ?_,
        Or.inr ⟨was, by simpa using unexpired⟩⟩
      · exact agreed.1.1.trans described.fingerprint
      · exact Option.some.inj (agreed.1.2.trans described.version)
      · exact agreed.2.trans described.deleted
  | none =>
      have adopted := adopts present held entry.version ((FiniteMap.lookup_some_iff _ _ _).mp kept)
          described.version
      exact ⟨_, (final _).mpr adopted, described.fingerprint, rfl, described.deleted, Or.inl order⟩

end Commit
end Hashring.RangeMove
