import Hashring.SingleSchedule
import Hashring.Transition
import Hashring.NodeStores

/-! The indices a data node keeps beside its maps: keys and receipts by token,
and the deadlines of records. Every event of the node keeps them exact. -/
namespace Hashring

namespace NodeState

/-- Where an expiry entry waits: in the node's own schedule, or held back by a
source range. -/
def Waits (state : NodeState) (entry : Nat ×ₗ Bytes) : Option RangeKey → Prop
  | none => entry ∈ state.recordExpirations
  | some key => ∃ source, state.sources.lookup key = some source ∧ entry ∈ source.deferredExpirations

def Deadline (state : NodeState) (entry : Nat ×ₗ Bytes) : Prop :=
  ∃ record, state.records.lookup (ofLex entry).2 = some record ∧ record.expiresAtUnixMillis =
    some (ofLex entry).1

def ExpirationsIndexed (state : NodeState) : Prop := SingleSchedule state.Waits state.Deadline

theorem waits_same {before after : NodeState}
    (schedule : after.recordExpirations = before.recordExpirations)
    (deferred : ∀ key, (after.sources.lookup key).map (·.deferredExpirations) =
      (before.sources.lookup key).map (·.deferredExpirations)) (entry : Nat ×ₗ Bytes)
      (place : Option RangeKey) :
    after.Waits entry place ↔ before.Waits entry place := by
  cases place with
  | none =>
      unfold Waits
      rw [schedule]
  | some key =>
      have unfolded : ∀ state : NodeState, state.Waits entry (some key) ↔
          ∃ held, (state.sources.lookup key).map (·.deferredExpirations) = some held ∧ entry ∈ held := by
        intro state
        simp only [Waits, Option.map_eq_some_iff]
        constructor
        · rintro ⟨source, found, waiting⟩
          exact ⟨_, ⟨source, found, rfl⟩, waiting⟩
        · rintro ⟨_, ⟨source, found, rfl⟩, waiting⟩
          exact ⟨source, found, waiting⟩
      rw [unfolded, unfolded, deferred key]

theorem ExpirationsIndexed.same {before after : NodeState} (indexed : before.ExpirationsIndexed)
    (records : after.records = before.records)
    (schedule : after.recordExpirations = before.recordExpirations)
    (deferred : ∀ key, (after.sources.lookup key).map (·.deferredExpirations) =
      (before.sources.lookup key).map (·.deferredExpirations)) : after.ExpirationsIndexed := by
  refine SingleSchedule.congr indexed (waits_same schedule deferred) ?_
  intro entry
  simp only [Deadline, records]

theorem forget_deferred_lookup (entry : Nat ×ₗ Bytes) (sources : FiniteMap RangeKey SourceMigration)
    (single : ∀ here there source other, sources.lookup here = some source →
      entry ∈ source.deferredExpirations →
      sources.lookup there = some other → entry ∈ other.deferredExpirations → here = there)
    (key : RangeKey) (probe : Nat ×ₗ Bytes) :
    (∃ source, (forgetDeferred entry sources).lookup key = some source ∧
      probe ∈ source.deferredExpirations) ↔
      probe ≠ entry ∧ ∃ source, sources.lookup key = some source ∧
        probe ∈ source.deferredExpirations := by
  unfold forgetDeferred
  split
  · rename_i missing
    constructor
    · rintro ⟨source, found, waiting⟩
      refine ⟨?_, source, found, waiting⟩
      rintro rfl
      have skipped := List.find?_eq_none.mp missing ⟨key, source⟩
          ((FiniteMap.lookup_some_iff _ _ _).mp found)
      exact skipped (decide_eq_true waiting)
    · exact And.right
  · rename_i found first
    obtain ⟨holder, source⟩ := found
    have held := (FiniteMap.lookup_some_iff _ _ _).mpr (List.mem_of_find?_eq_some first)
    have picked := List.find?_some first
    have holds : entry ∈ source.deferredExpirations := of_decide_eq_true picked
    simp only [FiniteMap.lookup_modify, Option.map_eq_some_iff]
    constructor
    · rintro ⟨_, ⟨old, kept, rfl⟩, waiting⟩
      by_cases same : key = holder
      · simp only [same, ↓reduceIte, OrderedSet.mem_erase] at waiting
        exact ⟨waiting.1, old, kept, waiting.2⟩
      · simp only [same, ↓reduceIte] at waiting
        refine ⟨?_, old, kept, waiting⟩
        rintro rfl
        -- Only one range waits for an entry.
        exact same (single key holder old source kept waiting held holds)
    · rintro ⟨other, old, kept, waiting⟩
      refine ⟨_, ⟨old, kept, rfl⟩, ?_⟩
      by_cases same : key = holder
      · simp only [same, ↓reduceIte, OrderedSet.mem_erase]
        exact ⟨other, waiting⟩
      · simpa only [same, ↓reduceIte] using waiting

theorem forget_expiration_waits (state : NodeState) (indexed : state.ExpirationsIndexed) (key : Bytes)
    (record : Record) (found : state.records.lookup key = some record) (entry : Nat ×ₗ Bytes)
    (place : Option RangeKey) :
    (state.forgetExpiration key record.expiresAtUnixMillis).Waits entry place ↔
      ¬(ofLex entry).2 = key ∧ state.Waits entry place := by
  -- An entry for the key waits at the deadline of its record, and in one place only.
  have stored : ∀ place, (ofLex entry).2 = key → state.Waits entry place →
      record.expiresAtUnixMillis = some (ofLex entry).1 := by
    intro place here waiting
    obtain ⟨named, held, deadline⟩ := (indexed.exact entry).mp ⟨place, waiting⟩
    rw [here, found] at held
    exact Option.some.inj held ▸ deadline
  cases deadline : record.expiresAtUnixMillis with
  | none =>
      constructor
      · intro waiting
        refine ⟨fun here => ?_, waiting⟩
        have named := stored place here waiting
        rw [deadline] at named
        exact absurd named (by simp)
      · exact And.right
  | some instant =>
      have dropped : (¬(ofLex entry).2 = key ∧ state.Waits entry place) ↔
          entry ≠ toLex (instant, key) ∧ state.Waits entry place := by
        constructor
        · rintro ⟨other, waiting⟩
          refine ⟨?_, waiting⟩
          rintro rfl
          exact other rfl
        · rintro ⟨other, waiting⟩
          refine ⟨fun here => other ?_, waiting⟩
          have named := stored place here waiting
          rw [deadline] at named
          have pair : ofLex entry = (instant, key) := Prod.ext (Option.some.inj named).symm here
          exact congrArg toLex pair
      rw [dropped]
      unfold forgetExpiration
      simp only
      split
      · rename_i scheduled
        cases place with
        | none => exact OrderedSet.mem_erase _ _ _
        | some holder =>
            constructor
            · intro waiting
              refine ⟨?_, waiting⟩
              rintro rfl
              exact absurd (indexed.single _ (some holder) none waiting scheduled) (by simp)
            · exact And.right
      · rename_i unscheduled
        cases place with
        | none =>
            constructor
            · intro waiting
              refine ⟨?_, waiting⟩
              rintro rfl
              exact unscheduled waiting
            · exact And.right
        | some holder =>
            apply forget_deferred_lookup
            intro here there source other heldHere waitsHere heldThere waitsThere
            exact Option.some.inj (indexed.single _ (some here) (some there) ⟨source, heldHere, waitsHere⟩
              ⟨other, heldThere, waitsThere⟩)

theorem forget_expiration_scheduled (state : NodeState) (indexed : state.ExpirationsIndexed) (key : Bytes)
    (record : Record) (found : state.records.lookup key = some record) :
    SingleSchedule (state.forgetExpiration key record.expiresAtUnixMillis).Waits
      fun entry => ¬(ofLex entry).2 = key ∧ state.Deadline entry :=
  SingleSchedule.forget indexed (fun entry => (ofLex entry).2 = key)
    (forget_expiration_waits state indexed key record found) fun _ => Iff.rfl

/-- What `forget_expiration` leaves depends on the schedule alone. -/
theorem forget_expiration_schedule (left right : NodeState)
    (schedule : left.recordExpirations = right.recordExpirations) (sources : left.sources = right.sources)
    (key : Bytes) (deadline : Option Nat) :
    (left.forgetExpiration key deadline).recordExpirations =
      (right.forgetExpiration key deadline).recordExpirations ∧
      (left.forgetExpiration key deadline).sources = (right.forgetExpiration key deadline).sources := by
  unfold forgetExpiration
  cases deadline with
  | none => exact ⟨schedule, sources⟩
  | some instant =>
      by_cases waiting : toLex (instant, key) ∈ right.recordExpirations
      · simp only [schedule, sources, waiting, ↓reduceIte, and_self]
      · simp only [schedule, sources, waiting, ↓reduceIte, and_self]

variable (hashing : Hashing)

/-- The schedule after the record that is being replaced, if there is one, has
left it. -/
def withoutReplaced (state : NodeState) (key : Bytes) : NodeState :=
  match state.records.lookup key with
  | some replaced => state.forgetExpiration key replaced.expiresAtUnixMillis
  | none => state

theorem without_replaced_scheduled (state : NodeState) (key : Bytes)
    (indexed : state.ExpirationsIndexed) :
    SingleSchedule (state.withoutReplaced key).Waits
      fun entry => ¬(ofLex entry).2 = key ∧ state.Deadline entry := by
  unfold withoutReplaced
  split
  · rename_i replaced found
    exact forget_expiration_scheduled state indexed key replaced found
  · rename_i missing
    refine SingleSchedule.congr indexed (fun _ _ => Iff.rfl) ?_
    intro entry
    constructor
    · exact And.right
    · rintro ⟨held, here, deadline⟩
      refine ⟨fun same => ?_, held, here, deadline⟩
      rw [same, missing] at here
      exact absurd here (by simp)

theorem insert_record_schedule (state : NodeState) (key : Bytes) (record : Record) :
    (state.insertRecord hashing key record).recordExpirations =
        (match record.expiresAtUnixMillis with
          | none => (state.withoutReplaced key).recordExpirations
          | some deadline => (state.withoutReplaced key).recordExpirations.insert
              (toLex (deadline, key))) ∧
      (state.insertRecord hashing key record).sources = (state.withoutReplaced key).sources := by
  unfold insertRecord withoutReplaced
  cases found : state.records.lookup key with
  | none => cases record.expiresAtUnixMillis <;> exact ⟨rfl, rfl⟩
  | some replaced =>
      have same := forget_expiration_schedule
        { state with
          recordsByToken :=
            if key ∈ state.records then state.recordsByToken
            else state.recordsByToken.add (state.tokenOf hashing key) key
          records := state.records.insert key record } state rfl rfl key replaced.expiresAtUnixMillis
      cases record.expiresAtUnixMillis with
      | none => exact same
      | some _ =>
          simp only
          rw [same.1]
          exact ⟨rfl, same.2⟩

theorem insert_record_expirations (state : NodeState) (key : Bytes) (record : Record)
    (indexed : state.ExpirationsIndexed) :
    (state.insertRecord hashing key record).ExpirationsIndexed := by
  have rest := without_replaced_scheduled state key indexed
  obtain ⟨schedule, sources⟩ := insert_record_schedule hashing state key record
  have deadlines : ∀ entry, (state.insertRecord hashing key record).Deadline entry ↔
      (ofLex entry).2 = key ∧ record.expiresAtUnixMillis = some (ofLex entry).1 ∨
        ¬(ofLex entry).2 = key ∧ state.Deadline entry := by
    intro entry
    unfold Deadline
    rw [lookup_insert_record]
    by_cases same : (ofLex entry).2 = key
    · simp [same]
    · simp [same]
  cases deadline : record.expiresAtUnixMillis with
  | none =>
      rw [deadline] at schedule
      refine SingleSchedule.congr rest (waits_same schedule fun _ => by rw [sources]) ?_
      intro entry
      rw [deadlines entry, deadline]
      simp
  | some instant =>
      rw [deadline] at schedule
      apply SingleSchedule.schedule rest (toLex (instant, key)) none
      · exact fun both => both.1 rfl
      · intro entry place
        cases place with
        | none => simp only [Waits, schedule, OrderedSet.mem_insert, and_true]
        | some holder => simp only [Waits, sources, reduceCtorEq, and_false, false_or]
      · intro entry
        rw [deadlines entry, deadline]
        constructor
        · rintro (⟨here, named⟩ | other)
          · have pair : ofLex entry = (instant, key) := Prod.ext (Option.some.inj named).symm here
            exact .inl (congrArg toLex pair)
          · exact .inr other
        · rintro (rfl | other)
          · exact .inl ⟨rfl, rfl⟩
          · exact .inr other

theorem apply_record_expirations (state : NodeState) (key : Bytes) (record : Record)
    (indexed : state.ExpirationsIndexed) : (state.applyRecord hashing key record).ExpirationsIndexed := by
  unfold applyRecord
  split
  · split
    · exact indexed
    · exact insert_record_expirations hashing state key record indexed
  · exact insert_record_expirations hashing state key record indexed

theorem remove_record_schedule (state : NodeState) (token : Token) (key : Bytes) (removed : Record)
    (found : state.records.lookup key = some removed) :
    (state.removeRecordAt token key).recordExpirations =
        (state.forgetExpiration key removed.expiresAtUnixMillis).recordExpirations ∧
      (state.removeRecordAt token key).sources =
        (state.forgetExpiration key removed.expiresAtUnixMillis).sources := by
  unfold removeRecordAt
  rw [found]
  exact forget_expiration_schedule
    { state with records := state.records.erase key, recordsByToken := state.recordsByToken.remove token key }
    state rfl rfl key removed.expiresAtUnixMillis

theorem remove_record_expirations (state : NodeState) (token : Token) (key : Bytes)
    (indexed : state.ExpirationsIndexed) : (state.removeRecordAt token key).ExpirationsIndexed := by
  have gone := lookup_remove_record state token key
  cases found : state.records.lookup key with
  | none =>
      unfold removeRecordAt
      rw [found]
      exact indexed
  | some removed =>
      refine SingleSchedule.congr (forget_expiration_scheduled state indexed key removed found) ?_ ?_
      · have schedule := remove_record_schedule state token key removed found
        exact waits_same schedule.1 fun _ => by rw [schedule.2]
      · intro entry
        unfold Deadline
        rw [gone]
        by_cases same : (ofLex entry).2 = key
        · simp [same]
        · simp [same]

theorem mem_insert_all (entries : List (Nat ×ₗ Bytes)) (schedule : OrderedSet (Nat ×ₗ Bytes))
    (probe : Nat ×ₗ Bytes) :
    probe ∈ entries.foldl (fun schedule entry => schedule.insert entry) schedule ↔
      probe ∈ entries ∨ probe ∈ schedule := by
  induction entries generalizing schedule with
  | nil => simp
  | cons entry rest ih =>
      rw [List.foldl_cons, ih, OrderedSet.mem_insert, List.mem_cons]
      tauto

theorem remove_source_expirations (state : NodeState) (key : RangeKey)
    (indexed : state.ExpirationsIndexed) :
    (state.removeSource key).ExpirationsIndexed := by
  unfold removeSource
  cases found : state.sources.lookup key with
  | none => exact indexed
  | some source =>
      apply SingleSchedule.release indexed (some key) none
      · intro entry place
        cases place with
        | none =>
            simp only [Waits, found, Option.some.injEq, ne_eq, reduceCtorEq, not_false_eq_true, true_and,
              exists_eq_left']
            exact (mem_insert_all _ _ entry).trans or_comm
        | some holder =>
            simp only [Waits, FiniteMap.lookup_erase_if, ne_eq, Option.some.injEq, reduceCtorEq,
              false_and, or_false]
            by_cases same : holder = key
            · simp [same]
            · simp [same]
      · exact fun _ => Iff.rfl

end NodeState

/-- The indices of a node agree with its maps. -/
structure NodeIndexed (hashing : Hashing) (state : NodeState) : Prop where
  records : state.RecordsIndexed hashing
  expirations : state.ExpirationsIndexed
  receipts : ReceiptsIndexed hashing state

/-- Maps and indices are the same; of source ranges and receipts only what the
indices read. -/
structure SameIndices (before after : NodeState) : Prop where
  topology : after.topology = before.topology
  records : after.records = before.records
  recordsByToken : after.recordsByToken = before.recordsByToken
  recordExpirations : after.recordExpirations = before.recordExpirations
  deferred : ∀ key, (after.sources.lookup key).map (·.deferredExpirations) =
    (before.sources.lookup key).map (·.deferredExpirations)
  receiptKeys : ∀ id, (after.dedup.lookup id).map (·.key) = (before.dedup.lookup id).map (·.key)
  dedupByToken : after.dedupByToken = before.dedupByToken

theorem SameIndices.of_standing {before after : NodeState} (only : OnlyStanding before after) :
    SameIndices before after := by
  obtain ⟨_, _, _, _, rfl⟩ := only
  exact ⟨rfl, rfl, rfl, rfl, fun _ => rfl, fun _ => rfl, rfl⟩

namespace NodeIndexed

variable {hashing : Hashing} {before after : NodeState}

theorem same (indexed : NodeIndexed hashing before) (kept : SameIndices before after) :
    NodeIndexed hashing after where
  records token key := by
    rw [kept.recordsByToken, kept.records]
    simp only [NodeState.tokenOf, kept.topology]
    exact indexed.records token key
  expirations := indexed.expirations.same kept.records kept.recordExpirations kept.deferred
  receipts token id := by
    have keyed : ∀ state : NodeState, (∃ entry, state.dedup.lookup id = some entry ∧
        token = before.tokenOf hashing entry.key) ↔
        ∃ key, (state.dedup.lookup id).map (·.key) = some key ∧ token = before.tokenOf hashing key := by
      intro state
      simp only [Option.map_eq_some_iff]
      constructor
      · rintro ⟨entry, found, here⟩
        exact ⟨_, ⟨entry, found, rfl⟩, here⟩
      · rintro ⟨_, ⟨entry, found, rfl⟩, here⟩
        exact ⟨entry, found, here⟩
    have sameToken : ∀ key, after.tokenOf hashing key = before.tokenOf hashing key := by
      intro key
      simp only [NodeState.tokenOf, kept.topology]
    simp only [kept.dedupByToken, indexed.receipts token id, sameToken, keyed, kept.receiptKeys]

theorem of_records (indexed : NodeIndexed hashing before) (only : NodeState.OnlyRecords before after)
    (records : after.RecordsIndexed hashing) (expirations : after.ExpirationsIndexed) :
    NodeIndexed hashing after := by
  refine ⟨records, expirations, ?_⟩
  obtain ⟨⟨_, _, _, _, rfl⟩, _⟩ := only
  exact indexed.receipts

/-- A change of receipts leaves the records and their indices. -/
theorem of_receipts (indexed : NodeIndexed hashing before) (only : OnlyReceipts before after)
    (receipts : ReceiptsIndexed hashing after) : NodeIndexed hashing after := by
  obtain ⟨_, _, _, _, _, _, _, _, _, rfl⟩ := only
  exact ⟨indexed.records, indexed.expirations, receipts⟩

theorem insert_record (indexed : NodeIndexed hashing before) (key : Bytes) (record : Record) :
    NodeIndexed hashing (before.insertRecord hashing key record) :=
  indexed.of_records (NodeState.insert_record_only hashing before key record)
    (NodeState.insert_record_indexed hashing before key record indexed.records)
    (NodeState.insert_record_expirations hashing before key record indexed.expirations)

theorem apply_record (indexed : NodeIndexed hashing before) (key : Bytes) (record : Record) :
    NodeIndexed hashing (before.applyRecord hashing key record) :=
  indexed.of_records (NodeState.apply_record_only hashing before key record)
    (NodeState.apply_record_indexed hashing before key record indexed.records)
    (NodeState.apply_record_expirations hashing before key record indexed.expirations)

theorem remove_record (indexed : NodeIndexed hashing before) (key : Bytes) :
    NodeIndexed hashing (before.removeRecordAt (before.tokenOf hashing key) key) :=
  indexed.of_records (NodeState.remove_record_only before _ key)
    (NodeState.remove_record_indexed hashing before key indexed.records)
    (NodeState.remove_record_expirations before _ key indexed.expirations)

theorem remove_keys (keys : List (Token × Bytes)) (indexed : NodeIndexed hashing before)
    (placed : ∀ entry ∈ keys, entry.1 = before.tokenOf hashing entry.2) :
    NodeIndexed hashing (keys.foldl (fun state entry => state.removeRecordAt entry.1 entry.2)
      before) := by
  induction keys generalizing before with
  | nil => exact indexed
  | cons entry rest ih =>
      have here := placed entry List.mem_cons_self
      have sameTopology : (before.removeRecordAt entry.1 entry.2).topology = before.topology := by
        obtain ⟨⟨_, _, _, _, same⟩, _⟩ := NodeState.remove_record_only before entry.1 entry.2
        rw [same]
      apply ih
      · simp only [here]
        exact indexed.remove_record entry.2
      · intro later member
        simp only [NodeState.tokenOf, sameTopology]
        exact placed later (List.mem_cons_of_mem _ member)

theorem keys_placed (indexed : NodeIndexed hashing before) (range : RangeSpec) (entry : Token × Bytes)
    (listed : entry ∈ before.recordKeysInRange range) : entry.1 = before.tokenOf hashing entry.2 :=
  ((indexed.records entry.1 entry.2).mp ((TokenIndex.mem_inRange _ _ _ _).mp listed).1).1

theorem apply_records (entries : List (Sigma fun _ : Bytes => Record))
    (indexed : NodeIndexed hashing before) :
    NodeIndexed hashing (entries.foldl
      (fun state entry => state.applyRecord hashing entry.1 entry.2) before) := by
  induction entries generalizing before with
  | nil => exact indexed
  | cons entry rest ih => exact ih (indexed.apply_record entry.1 entry.2)

theorem remove_source (indexed : NodeIndexed hashing before) (key : RangeKey) :
    NodeIndexed hashing (before.removeSource key) := by
  have expirations := NodeState.remove_source_expirations before key indexed.expirations
  obtain ⟨_, _, _, _, _, _, removed⟩ := OnlyStaging.remove_source before key
  have sameRecords : (before.removeSource key).records = before.records ∧
      (before.removeSource key).recordsByToken = before.recordsByToken := by
    unfold NodeState.removeSource
    split <;> exact ⟨rfl, rfl⟩
  refine ⟨?_, expirations, ?_⟩
  · intro token probe
    rw [sameRecords.1, sameRecords.2, removed]
    exact indexed.records token probe
  · rw [removed]
    exact indexed.receipts

theorem remove_sources (keys : List RangeKey) (indexed : NodeIndexed hashing before) :
    NodeIndexed hashing (keys.foldl NodeState.removeSource before) := by
  induction keys generalizing before with
  | nil => exact indexed
  | cons key rest ih => exact ih (indexed.remove_source key)

theorem clear_repairs (indexed : NodeIndexed hashing before) :
    NodeIndexed hashing before.clearReplicaRepairStaging :=
  (indexed.remove_sources _).same ⟨rfl, rfl, rfl, rfl, fun _ => rfl, fun _ => rfl, rfl⟩

theorem purge (indexed : NodeIndexed hashing before) (now : Instant) :
    NodeIndexed hashing (purgeExpiredDedup hashing before now) :=
  indexed.of_receipts (purge_expired_only hashing before now)
    (purge_expired_indexed hashing before now indexed.receipts)

theorem insert_dedup (indexed : NodeIndexed hashing before) (id : String) (key fingerprint : Bytes)
    (version : RecordVersion) (deleted : Bool) (expiresAt : Instant) :
    NodeIndexed hashing (insertDedupUntil hashing before id key fingerprint version deleted expiresAt) :=
  indexed.of_receipts (insert_dedup_only hashing before id key fingerprint version deleted
    expiresAt).receipts
    (insert_dedup_indexed hashing before id key fingerprint version deleted expiresAt indexed.receipts)

theorem set_topology_seed (indexed : NodeIndexed hashing before) (topology : TopologySnapshot)
    (seed : topology.hashSeed = before.topology.hashSeed) :
    NodeIndexed hashing { before with topology } := by
  have sameToken : ∀ key, NodeState.tokenOf hashing { before with topology } key =
      before.tokenOf hashing key := by
    intro key
    simp only [NodeState.tokenOf, TopologySnapshot.keyToken, seed]
  refine ⟨?_, indexed.expirations, ?_⟩
  · intro token key
    rw [sameToken]
    exact indexed.records token key
  · intro token id
    simp only [sameToken]
    exact indexed.receipts token id

theorem add_all {α β : Type} [LinearOrder β] (place : α → Token) (value : α → β) (items : List α)
    (index : TokenIndex β) (entry : Token ×ₗ β) :
    entry ∈ items.foldl (fun index item => index.add (place item) (value item)) index ↔
      (∃ item ∈ items, entry = toLex (place item, value item)) ∨ entry ∈ index := by
  induction items generalizing index with
  | nil => simp
  | cons item rest ih =>
      rw [List.foldl_cons, ih, TokenIndex.add, OrderedSet.mem_insert]
      simp only [List.mem_cons, exists_eq_or_imp]
      rw [or_left_comm, or_assoc]

/-- A new seed rebuilds both token indices from the maps. -/
theorem set_topology (indexed : NodeIndexed hashing before) (topology : TopologySnapshot) :
    NodeIndexed hashing (before.setTopology hashing topology) := by
  unfold NodeState.setTopology
  split
  · rename_i seed
    exact indexed.set_topology_seed topology seed
  · refine ⟨?_, indexed.expirations, ?_⟩
    · intro token key
      refine (add_all (topology.keyToken hashing) id before.records.keys OrderedSet.empty _).trans ?_
      simp only [OrderedSet.mem_empty, or_false, id_eq, EmbeddingLike.apply_eq_iff_eq, Prod.mk.injEq,
        AList.mem_keys, NodeState.tokenOf]
      constructor
      · rintro ⟨probe, stored, here, rfl⟩
        exact ⟨here, stored⟩
      · rintro ⟨here, stored⟩
        exact ⟨key, stored, here, rfl⟩
    · intro token id
      refine (add_all (fun entry : Sigma fun _ : String => DedupEntry =>
        topology.keyToken hashing entry.2.key)
        (fun entry => entry.1) before.dedup.entries OrderedSet.empty _).trans ?_
      simp only [OrderedSet.mem_empty, or_false, EmbeddingLike.apply_eq_iff_eq, Prod.mk.injEq,
        NodeState.tokenOf,
        FiniteMap.lookup_some_iff]
      constructor
      · rintro ⟨⟨probe, entry⟩, listed, here, rfl⟩
        exact ⟨entry, listed, here⟩
      · rintro ⟨entry, listed, here⟩
        exact ⟨⟨id, entry⟩, listed, here, rfl⟩

theorem prune_acks (indexed : NodeIndexed hashing before) :
    NodeIndexed hashing (pruneAckProgress before) := by
  unfold pruneAckProgress
  simp only
  split
  · exact indexed
  · exact indexed.same ⟨rfl, rfl, rfl, rfl, fun _ => rfl, fun _ => rfl, rfl⟩

theorem sweep_entry (indexed : NodeIndexed hashing before) (entry : Nat ×ₗ Bytes)
    (waiting : entry ∈ before.recordExpirations) :
    NodeIndexed hashing (sweepEntry hashing before entry).1 := by
  have due := (indexed.expirations.exact entry).mp ⟨none, waiting⟩
  unfold sweepEntry
  simp only
  split
  · -- A source range holds the key: the entry waits for it instead of for its time.
    rename_i found picked
    obtain ⟨holder, source⟩ := found
    have held := (FiniteMap.lookup_some_iff _ _ _).mpr (List.mem_of_find?_eq_some picked)
    refine ⟨indexed.records, ?_, indexed.receipts⟩
    apply SingleSchedule.move indexed.expirations entry (some holder) due
    · intro probe place
      cases place with
      | none =>
          simp only [NodeState.Waits, OrderedSet.mem_erase, reduceCtorEq, and_false, false_or, ne_eq]
      | some key =>
          have elsewhere : before.Waits entry (some key) → False := fun there =>
            absurd (indexed.expirations.single entry none (some key) waiting there) (by simp)
          simp only [NodeState.Waits, FiniteMap.lookup_modify, Option.map_eq_some_iff,
            Option.some.injEq] at elsewhere ⊢
          constructor
          · rintro ⟨_, ⟨old, kept, rfl⟩, there⟩
            by_cases same : key = holder
            · simp only [same, ↓reduceIte, OrderedSet.mem_insert] at there
              rcases there with rfl | there
              · exact .inl ⟨rfl, same⟩
              · refine .inr ⟨?_, old, kept, there⟩
                rintro rfl
                exact elsewhere ⟨old, kept, there⟩
            · simp only [same, ↓reduceIte] at there
              refine .inr ⟨?_, old, kept, there⟩
              rintro rfl
              exact elsewhere ⟨old, kept, there⟩
          · rintro (⟨rfl, rfl⟩ | ⟨_, old, kept, there⟩)
            · exact ⟨_, ⟨source, held, rfl⟩, by simp⟩
            · refine ⟨_, ⟨old, kept, rfl⟩, ?_⟩
              by_cases same : key = holder
              · simp only [same, ↓reduceIte, OrderedSet.mem_insert]
                exact .inr there
              · simpa only [same, ↓reduceIte] using there
    · exact fun _ => Iff.rfl
  · -- The entry has left the schedule already, and its record follows.
    obtain ⟨record, stored, deadline⟩ := due
    have removed := indexed.remove_record (ofLex entry).2
    have absent : NodeState.forgetDeferred entry before.sources = before.sources := by
      unfold NodeState.forgetDeferred
      split
      · rfl
      · rename_i found first
        obtain ⟨holder, source⟩ := found
        have held := (FiniteMap.lookup_some_iff _ _ _).mpr (List.mem_of_find?_eq_some first)
        have picked := List.find?_some first
        have there : before.Waits entry (some holder) := ⟨source, held, of_decide_eq_true picked⟩
        exact absurd (indexed.expirations.single entry none (some holder) waiting there) (by simp)
    have swept : NodeState.removeRecordAt
        { before with recordExpirations := before.recordExpirations.erase entry }
        (before.tokenOf hashing (ofLex entry).2) (ofLex entry).2 =
          before.removeRecordAt (before.tokenOf hashing (ofLex entry).2) (ofLex entry).2 := by
      unfold NodeState.removeRecordAt NodeState.forgetExpiration
      simp only [stored, deadline]
      have gone : ¬toLex ((ofLex entry).1, (ofLex entry).2) ∈ before.recordExpirations.erase entry := by
        intro still
        exact ((OrderedSet.mem_erase _ _ _).mp still).1 rfl
      have here : toLex ((ofLex entry).1, (ofLex entry).2) ∈ before.recordExpirations := waiting
      simp only [gone, here, ↓reduceIte]
      rw [show toLex ((ofLex entry).1, (ofLex entry).2) = entry from rfl, absent]
    exact swept ▸ removed

theorem sweep (nowUnixMillis limit : Nat) (indexed : NodeIndexed hashing before) :
    NodeIndexed hashing (sweepExpiredRecords hashing nowUnixMillis limit before).1 := by
  induction limit generalizing before with
  | zero => exact indexed
  | succ limit ih =>
      unfold sweepExpiredRecords
      split
      · exact indexed
      · rename_i entry due
        have first := (Option.filter_eq_some_iff.mp due).1
        exact ih (indexed.sweep_entry entry (OrderedSet.first_mem _ _ first))

theorem store_write (indexed : NodeIndexed hashing before) (clock : Clock) (plan : WritePlan)
    (record : Record) (token : Token) (followers : List String) (entries : List PreparedReplication) :
    NodeIndexed hashing (storeWrite hashing clock before plan record token followers entries) := by
  obtain ⟨unacked, pushed⟩ := push_unacked_frame clock.unixLater entries
    { before with nextSequence := record.version.ownerSequence }
  have queued : NodeIndexed hashing (entries.foldl (pushUnacked clock.unixLater)
      { before with nextSequence := record.version.ownerSequence }) := by
    rw [pushed]
    exact indexed.same ⟨rfl, rfl, rfl, rfl, fun _ => rfl, fun _ => rfl, rfl⟩
  have stored : ∀ state, NodeIndexed hashing state →
      NodeIndexed hashing (storeRecord hashing state plan record) := by
    intro state kept
    unfold storeRecord
    split
    · exact kept.apply_record plan.key record
    · exact kept.insert_record plan.key record
  have journaled : ∀ growth state, NodeIndexed hashing state →
      NodeIndexed hashing (journalState token plan record growth state) := by
    intro growth state kept
    refine kept.same ⟨rfl, rfl, rfl, rfl, ?_, fun _ => rfl, rfl⟩
    intro key
    simp only [journalState, journalSources, FiniteMap.lookup_mapValues, Option.map_map]
    congr 1
    funext source
    simp only [Function.comp_apply]
    split <;> rfl
  have acked : ∀ state required cost, NodeIndexed hashing state →
      NodeIndexed hashing (setRequiredAcks state plan.requestId required cost) := by
    intro state required cost kept
    refine kept.same ⟨rfl, rfl, rfl, rfl, fun _ => rfl, ?_, rfl⟩
    intro id
    rw [set_required_acks_lookup, Option.map_map]
    congr 1
    funext entry
    simp only [Function.comp_apply]
    split <;> rfl
  unfold storeWrite insertDedup
  exact acked _ _ _ ((journaled _ _ (stored _ queued)).insert_dedup _ _ _ _ _ _)

theorem commit {process : NodeProcess} (indexed : NodeIndexed hashing process.state) (config : NodeConfig)
    (clock : Clock) (request : WriteRequest) (ready : Readiness) :
    NodeIndexed hashing (commitRequest hashing config clock process request ready).1.state := by
  have purged := indexed.purge clock.now
  have cases := commit_request_cases hashing config clock process request ready
  generalize commitRequest hashing config clock process request ready = result at cases
  cases cases with
  | invalid | unroutable | notOwner | moved => exact indexed
  | answered | declined => exact purged
  | planned _ _ plan _ _ _ _ _ _ _ _ ended =>
      cases ended with
      | refused => exact purged
      | rolledBack => exact purged.same ⟨rfl, rfl, rfl, rfl, fun _ => rfl, fun _ => rfl, rfl⟩
      | stored prepared entries _ _ fanned _ =>
          obtain ⟨_, _, rfl⟩ := prepare_frame _ _ _ _ fanned
          refine store_write ?_ clock plan _ ready.token ready.followers entries
          exact purged.same ⟨rfl, rfl, rfl, rfl, fun _ => rfl, fun _ => rfl, rfl⟩

theorem finish_acks (indexed : NodeIndexed hashing before) (now : Instant) (reached : Bool) (epoch : Nat)
    (mutationId : String) (version : RecordVersion) (required : List RequiredAck) :
    NodeIndexed hashing (finishRequiredAcks now before reached epoch mutationId version required).1 := by
  have completed : NodeIndexed hashing (completeRequiredAcks before mutationId version) := by
    unfold completeRequiredAcks
    split
    · exact indexed
    · rename_i entry found
      split
      · exact indexed
      · refine indexed.same ⟨rfl, rfl, rfl, rfl, fun _ => rfl, ?_, rfl⟩
        intro id
        simp only [FiniteMap.lookup_insert_if]
        split
        · rename_i same
          rw [same, found]
          rfl
        · rfl
  rcases finish_required_acks_cases now before reached epoch mutationId version required
    with same | ended
  · rw [same]
    exact indexed
  · rw [ended]
    exact completed

theorem replicate (indexed : NodeIndexed hashing before) (config : NodeConfig) (clock : Clock)
    (entry : ReplicationEntry) :
    NodeIndexed hashing (applyReplicationEntry hashing config clock before entry).1 := by
  have met : NodeIndexed hashing (before.initStream entry.stream) :=
    indexed.same ⟨rfl, rfl, rfl, rfl, fun _ => rfl, fun _ => rfl, rfl⟩
  have cases := apply_entry_cases hashing config clock before entry
  generalize applyReplicationEntry hashing config clock before entry = result at cases
  cases cases with
  | malformed => exact indexed
  | redelivered | conflict | gap | stale => exact met
  | refused => exact met.purge clock.now
  | accepted record =>
      have stored := (met.purge clock.now).apply_record entry.key record
      have advanced : ∀ stream, NodeIndexed hashing (NodeState.setStream _ entry.stream stream) :=
        fun stream =>
        stored.same ⟨rfl, rfl, rfl, rfl, fun _ => rfl, fun _ => rfl, rfl⟩
      exact (advanced _).insert_dedup _ _ _ _ _ _

theorem replicate_entries (config : NodeConfig) (clock : Clock) (entries : List ReplicationEntry)
    (applied : Nat) (indexed : NodeIndexed hashing before) :
    NodeIndexed hashing (applyReplicationEntries hashing config clock before applied entries).1 := by
  induction entries generalizing before applied with
  | nil => exact indexed
  | cons entry rest ih =>
      have step := indexed.replicate config clock entry
      unfold applyReplicationEntries
      split
      · rename_i next sequence accepted
        rw [accepted] at step
        exact ih sequence step
      · rename_i next status refused
        rw [refused] at step
        split <;> exact step

theorem replicate_batch (indexed : NodeIndexed hashing before) (config : NodeConfig) (clock : Clock)
    (entries : List ReplicationEntry) :
    NodeIndexed hashing (replicateMutations hashing config clock before entries).1 := by
  unfold replicateMutations
  split
  · exact indexed
  · split
    · exact indexed
    · exact indexed.replicate_entries config clock _ 0

theorem adopt_receipts (entries : List (Sigma fun _ : String => StagedDedup))
    (indexed : NodeIndexed hashing before) :
    NodeIndexed hashing (entries.foldl
      (fun state entry => adoptReceipt hashing state entry.1 entry.2) before) := by
  induction entries generalizing before with
  | nil => exact indexed
  | cons entry rest ih =>
      have adopted : NodeIndexed hashing (adoptReceipt hashing before entry.1 entry.2) := by
        unfold adoptReceipt
        split
        · exact indexed
        · split
          · exact indexed
          · exact indexed.insert_dedup _ _ _ _ _ _
      exact ih adopted

theorem commit_destination (indexed : NodeIndexed hashing before) (config : NodeConfig) (clock : Clock)
    (key : RangeKey) : NodeIndexed hashing
      (commitDestinationRange hashing config clock before key).1 := by
  have purged := indexed.purge clock.later
  unfold commitDestinationRange
  split
  · exact indexed
  · rename_i destination _
    split
    · exact indexed
    · simp only
      generalize purgeExpiredDedup hashing before clock.later = current at purged
      split
      · exact purged
      · split
        · exact purged
        · have cleared := purged.remove_keys (current.recordKeysInRange destination.range)
            fun entry listed => purged.keys_placed destination.range entry listed
          have replaced : NodeIndexed hashing
              (replaceRange hashing current destination.range destination.records) :=
            cleared.apply_records destination.records.entries
          exact (replaced.adopt_receipts _).same ⟨rfl, rfl, rfl, rfl, fun _ => rfl, fun _ => rfl, rfl⟩

theorem prepare_source (indexed : NodeIndexed hashing before) (config : NodeConfig)
    (request : Option RangeSpec) :
    NodeIndexed hashing (prepareSourceRange config before request).1 := by
  unfold prepareSourceRange
  split
  · exact indexed
  · split
    · exact indexed
    · split
      · exact indexed
      · split
        · split <;> exact indexed
        · -- A fresh source range holds nothing back yet.
          rename_i range _ _ _ missing
          refine ⟨indexed.records, ?_, indexed.receipts⟩
          refine SingleSchedule.congr indexed.expirations ?_ fun _ => Iff.rfl
          intro entry place
          cases place with
          | none => exact Iff.rfl
          | some key =>
              simp only [NodeState.Waits, FiniteMap.lookup_insert_if]
              by_cases same : key = range.key
              · subst key
                simp [missing]
              · simp [same]

theorem range (indexed : NodeIndexed hashing before) (config : NodeConfig) (operation : RangeOperation) :
    NodeIndexed hashing (operation.perform hashing config before).1 := by
  -- Staging writes nothing that is indexed.
  have staged : ∀ state, NodeIndexed hashing state → ∀ destinations,
      NodeIndexed hashing { state with destinations } := fun _ kept _ =>
    kept.same ⟨rfl, rfl, rfl, rfl, fun _ => rfl, fun _ => rfl, rfl⟩
  cases operation with
  | prepareSource request => exact indexed.prepare_source config request
  | prepareDestination request =>
      simp only [RangeOperation.perform, prepareDestinationRange]
      split
      · exact indexed
      · split
        · exact indexed
        · split
          · exact indexed
          · split
            · split <;> exact indexed
            · exact staged before indexed _
  | applyBatch clock request =>
      simp only [RangeOperation.perform, applyMigrationBatch]
      split
      · exact indexed
      · split
        · exact indexed
        · exact staged before indexed _
  | applyDedup clock request =>
      simp only [RangeOperation.perform, applyDedupBatch]
      split
      · exact indexed
      · split
        · exact indexed
        · exact staged before indexed _
  | pauseWrites key =>
      simp only [RangeOperation.perform, pauseRangeWrites]
      split
      · exact indexed
      · rename_i source found
        refine indexed.same ⟨rfl, rfl, rfl, rfl, ?_, fun _ => rfl, rfl⟩
        intro probe
        simp only [FiniteMap.lookup_insert_if]
        by_cases same : probe = key
        · subst probe
          simp [found]
        · simp [same]
  | commitDestination clock key => exact indexed.commit_destination config clock key
  | activateDestination key =>
      simp only [RangeOperation.perform, activateDestinationRange]
      split
      · exact indexed
      · split
        · exact indexed
        · exact staged before indexed _
  | cleanupSource key =>
      simp only [RangeOperation.perform, cleanupSourceRange]
      split
      · exact indexed
      · rename_i source _
        refine remove_source (indexed.remove_keys _ ?_) key
        -- The keys to drop are taken from the index, so each stands at its own token.
        intro entry listed
        exact indexed.keys_placed source.range entry (List.mem_filter.mp listed).1
  | abort key => exact staged _ (indexed.remove_source key) _
  | abortRepairs topologyEpoch =>
      simp only [RangeOperation.perform, abortReplicaRepairs]
      split
      · exact indexed
      · exact indexed.clear_repairs

theorem adopt_topology {process : NodeProcess} (indexed : NodeIndexed hashing process.state)
    (topology : TopologySnapshot) :
    NodeIndexed hashing (adoptTopology hashing process topology).state := by
  have unleased : NodeIndexed hashing
      (if topology.epoch ≠ process.state.topology.epoch then
        NodeState.clearReplicaRepairStaging { process.state with lease := none, admittedFollowers := ∅ }
      else process.state) := by
    split
    · refine clear_repairs ?_
      exact indexed.same ⟨rfl, rfl, rfl, rfl, fun _ => rfl, fun _ => rfl, rfl⟩
    · exact indexed
  refine prune_acks ?_
  exact (unleased.set_topology topology).same ⟨rfl, rfl, rfl, rfl, fun _ => rfl, fun _ => rfl, rfl⟩

theorem handle {process : NodeProcess} (indexed : NodeIndexed hashing process.state) (config : NodeConfig)
    (event : NodeEvent) : NodeIndexed hashing (process.handle hashing config event).state := by
  cases event with
  | commit clock request ready => exact indexed.commit config clock request ready
  | finishAcks now reached epoch mutationId version required =>
      exact indexed.finish_acks now reached epoch mutationId version required
  | replicate clock entry => exact indexed.replicate config clock entry
  | replicateBatch clock entries => exact indexed.replicate_batch config clock entries
  | checkpoint | renewed | pausePolicy | resumePolicy =>
      exact indexed.same (.of_standing (handle_standing hashing config process trivial))
  | range operation => exact indexed.range config operation
  | sweep nowUnixMillis limit => exact indexed.sweep nowUnixMillis limit
  | install | refresh =>
      exact NodeProcess.handle_adopting hashing config
        (motive := fun after => NodeIndexed hashing after.state) indexed
        (fun topology _ _ => indexed.adopt_topology topology) trivial
  | collect key => exact indexed
  | send key =>
      rw [NodeProcess.handle, NodeProcess.send_batch_state]
      exact indexed
  | answered key answer =>
      rw [NodeProcess.handle]
      rcases process.receive_answer_state key answer with kept | ⟨stream, response, -, reported⟩
      · rw [kept]
        exact indexed
      · rw [reported]
        exact indexed.same ⟨rfl, rfl, rfl, rfl, fun _ => rfl, fun _ => rfl, rfl⟩

theorem fresh (topology : TopologySnapshot) : NodeIndexed hashing { topology } where
  records token key := by
    constructor
    · intro listed
      exact absurd listed (OrderedSet.mem_empty _)
    · rintro ⟨_, stored⟩
      exact absurd stored (AList.notMem_empty key)
  expirations := by
    apply SingleSchedule.empty
    · intro entry place
      cases place with
      | none => exact OrderedSet.mem_empty entry
      | some key =>
          rintro ⟨source, found, _⟩
          exact absurd found (by simp)
    · rintro entry ⟨record, found, _⟩
      exact absurd found (by simp)
  receipts token id := by
    constructor
    · intro listed
      exact absurd listed (OrderedSet.mem_empty _)
    · rintro ⟨entry, found, _⟩
      exact absurd found (by simp)

/-- The order of the source ranges does not matter to the indices. -/
theorem reorder {state : NodeState} (indexed : NodeIndexed hashing state)
    {sources : FiniteMap RangeKey SourceMigration}
    (reordered : sources.entries.Perm state.sources.entries) :
    NodeIndexed hashing { state with sources } := by
  refine indexed.same ⟨rfl, rfl, rfl, rfl, ?_, fun _ => rfl, rfl⟩
  intro key
  rw [show sources.lookup key = state.sources.lookup key from AList.perm_lookup reordered]

theorem step {before after : NodeProcess} {event : NodeEvent} {config : NodeConfig}
    (indexed : NodeIndexed hashing before.state)
    (taken : NodeProcess.Step hashing config before event after) : NodeIndexed hashing after.state := by
  obtain ⟨sources, reordered, rfl⟩ := taken
  have shuffled : NodeIndexed hashing { before.state with sources } := indexed.reorder reordered
  exact handle shuffled config event

theorem reached {config : NodeConfig} {topology : TopologySnapshot} {events : List NodeEvent}
    {process : NodeProcess}
    (run : Transition.Run (NodeProcess.Step hashing config) { state := { topology } } events process) :
    NodeIndexed hashing process.state :=
  Transition.run_invariant (fun _ => True) (fun process => NodeIndexed hashing process.state)
    (fun _ _ _ _ indexed taken => indexed.step taken) run (fun _ _ => trivial) (fresh topology)

end NodeIndexed

/-- From a fresh process, through any sequence of events, the indices of a node
never drift from the maps they mirror. -/
theorem indices_never_drift (hashing : Hashing) (config : NodeConfig) (topology : TopologySnapshot)
    (events : List NodeEvent) (process : NodeProcess)
    (run : Transition.Run (NodeProcess.Step hashing config) { state := { topology } } events process) :
    NodeIndexed hashing process.state := by
  exact NodeIndexed.reached run

namespace NodeIndexed

def sampleConfig : NodeConfig := { nodeId := "a", processInstanceId := "a-1" }

def sampleRange : RangeSpec :=
  { changeId := "change", rangeId := "range", startExclusive := 20, endInclusive := 10
    sourceNodeId := "a", destinationNodeId := "b" }

def samplePut : WriteRequest :=
  .put { key := [byte 107], value := [byte 1], topologyEpoch := 1, requestId := "m"
         expiresAtUnixMillis := some 5, preserveValue := false, precondition := none }

/-- A put with a deadline reaches a leased owner, the key's range is prepared
for a move, and a sweep comes after the deadline. -/
def sampleEvents : List NodeEvent :=
  [.renewed 1 0 { topologyEpoch := 1, leaseDurationMillis := 1000, admittedFollowers := [("b", "b-1")] },
    .commit (Sample.clock 10) samplePut ⟨5, 7, 1, ["b"]⟩,
      .range (.prepareSource (some sampleRange)), .sweep 6 100]

end NodeIndexed

theorem indices_never_drift_sample :
    ∃ process : NodeProcess, NodeIndexed Sample.hashing process.state ∧
      (process.state.sources.lookup ⟨"change", "range"⟩).any
        (fun source => decide (toLex (5, [byte 107]) ∈ source.deferredExpirations)) = true := by
  have run : Transition.Run (NodeProcess.Step Sample.hashing NodeIndexed.sampleConfig)
      { state := { topology := Sample.topology } } NodeIndexed.sampleEvents
      (NodeIndexed.sampleEvents.foldl (NodeProcess.handle Sample.hashing NodeIndexed.sampleConfig)
        { state := { topology := Sample.topology } }) :=
    NodeProcess.run_handle _ _ _ _
  exact ⟨_, indices_never_drift Sample.hashing NodeIndexed.sampleConfig Sample.topology _ _ run,
    by decide +kernel⟩

end Hashring
