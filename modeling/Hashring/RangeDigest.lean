import Hashring.TopologyPlan
import Hashring.Migration
import Hashring.NodeIndices

/-! The digests a coordinator compares before it publishes a moved range
(crates/hashring-node/src/migration.rs and rpc.rs). The source reads its token
index over one or two bounds, the destination sorts the staged map; both hash
the records one after the other, with lengths and tags between the fields. -/
namespace Hashring

structure RangeDigestResponse where
  recordCount : Nat
  digest : String
  changelogWatermark : Nat
  deriving DecidableEq

/-- What `range_digest` feeds the hasher for one record. -/
def encodeRecord (entry : Bytes × Record) : Bytes :=
  encodeBytes entry.1 ++ encodeVersion entry.2.version ++ encodeBytes entry.2.value ++
    [flagByte entry.2.deleted] ++
    encodeDeadline entry.2.expiresAtUnixMillis

/-- The whole byte string that `range_digest` hashes. -/
def digestInput (records : List (Bytes × Record)) : Bytes :=
  utf8 "hashring-rs:records:v4" ++ [byte 0] ++ records.flatMap encodeRecord

def rangeDigest (hashing : Hashing) (records : List (Bytes × Record)) (watermark : Nat) :
    RangeDigestResponse where
  recordCount := records.length
  digest := hex (hashing.blake3 (digestInput records))
  changelogWatermark := watermark

def tokenPlace {T : Type} (entry : Token × Bytes × T) : Token ×ₗ Bytes := toLex (entry.1, entry.2.1)

def sortIntoTokenOrder {T : Type} (entries : List (Token × Bytes × T)) : List (Token × Bytes × T) :=
  entries.mergeSort fun left right => tokenPlace left ≤ tokenPlace right

namespace NodeState

variable (hashing : Hashing)

/-- The records of a range as `source_range_digest` collects them. -/
def inTokenOrder (state : NodeState) (range : RangeSpec) : List (Bytes × Record) :=
  (state.recordKeysInRange range).filterMap fun entry => (state.records.lookup entry.2).map
    fun record => (entry.2, record)

/-- The staged records as `destination_range_digest` collects them. -/
def stagedInTokenOrder (state : NodeState) (destination : DestinationMigration) : List (Bytes × Record) :=
  (sortIntoTokenOrder (destination.records.entries.map fun entry =>
    (keyToken hashing entry.1 state.topology.hashSeed, entry.1, entry.2))).map Prod.snd

def sourceRangeDigest (state : NodeState) (key : RangeKey) : Except Status RangeDigestResponse :=
  match state.sources.lookup key with
  | none => .error ⟨.notFound, "source migration not prepared"⟩
  | some source => .ok (rangeDigest hashing (state.inTokenOrder source.range) source.watermark)

def destinationRangeDigest (state : NodeState) (key : RangeKey) : Except Status RangeDigestResponse :=
  match state.destinations.lookup key with
  | none => .error ⟨.notFound, "destination migration not prepared"⟩
  | some destination => .ok
      (rangeDigest hashing (state.stagedInTokenOrder hashing destination) destination.watermark)

def recordsInside (state : NodeState) (range : RangeSpec) : FiniteMap Bytes Record :=
  FiniteMap.retain (fun key _ => range.contains (state.tokenOf hashing key)) state.records

end NodeState

section Encoding

/-- A stored key and record as wide as the types of the source let them be. -/
structure EntryFits (key : Bytes) (record : Record) : Prop where
  key : key.length < 2 ^ 64
  version : VersionFits record.version
  value : record.value.length < 2 ^ 64
  deadline : DeadlineFits record.expiresAtUnixMillis

theorem encode_record_splits (left right : Bytes × Record) (fits : EntryFits left.1 left.2)
    (alsoFits : EntryFits right.1 right.2) : Splits encodeRecord left right := by
  intro early late same
  obtain ⟨key, value, version, deleted, deadline, _, _⟩ := left
  obtain ⟨key', value', version', deleted', deadline', _, _⟩ := right
  simp only [encodeRecord, List.append_assoc, List.cons_append, List.nil_append] at same
  obtain ⟨rfl, afterKey⟩ := encode_bytes_splits _ _ fits.key alsoFits.key _ _ same
  obtain ⟨rfl, afterVersion⟩ := encode_version_splits _ _ fits.version alsoFits.version _ _ afterKey
  obtain ⟨rfl, afterValue⟩ := encode_bytes_splits _ _ fits.value alsoFits.value _ _ afterVersion
  obtain ⟨sameFlag, afterFlag⟩ := List.cons.inj afterValue
  obtain rfl := flag_byte_injective _ _ sameFlag
  obtain ⟨rfl, rest⟩ := encode_deadline_splits _ _ fits.deadline alsoFits.deadline _ _ afterFlag
  exact ⟨rfl, rest⟩

theorem encode_record_nonempty (entry : Bytes × Record) : encodeRecord entry ≠ [] := by
  intro blank
  have lengths := congrArg List.length blank
  simp [encodeRecord] at lengths

/-- Self-delimiting entries, none of them empty, can be read back from their concatenation. -/
theorem flat_map_injective {α : Type} {encode : α → Bytes} {fits : α → Prop}
    (splits : ∀ left right, fits left → fits right → Splits encode left right)
    (nonempty : ∀ entry, encode entry ≠ []) (left right : List α)
    (leftFits : ∀ entry ∈ left, fits entry) (rightFits : ∀ entry ∈ right, fits entry)
    (same : left.flatMap encode = right.flatMap encode) : left = right := by
  induction left generalizing right with
  | nil =>
      cases right with
      | nil => rfl
      | cons entry rest =>
          rw [List.flatMap_nil, List.flatMap_cons] at same
          exact absurd (List.append_eq_nil_iff.mp same.symm).1 (nonempty entry)
  | cons first rest ih =>
      cases right with
      | nil =>
          rw [List.flatMap_nil, List.flatMap_cons] at same
          exact absurd (List.append_eq_nil_iff.mp same).1 (nonempty first)
      | cons other others =>
          rw [List.flatMap_cons, List.flatMap_cons] at same
          obtain ⟨rfl, tails⟩ := splits first other (leftFits first List.mem_cons_self)
            (rightFits other List.mem_cons_self) _ _ same
          rw [ih others (fun entry member => leftFits entry (List.mem_cons_of_mem _ member))
            (fun entry member => rightFits entry (List.mem_cons_of_mem _ member)) tails]

theorem digest_input_injective (left right : List (Bytes × Record))
    (leftFits : ∀ entry ∈ left, EntryFits entry.1 entry.2)
    (rightFits : ∀ entry ∈ right, EntryFits entry.1 entry.2)
    (same : digestInput left = digestInput right) : left = right := by
  simp only [digestInput, List.append_assoc] at same
  have records := List.append_cancel_left (List.append_cancel_left same)
  exact flat_map_injective encode_record_splits encode_record_nonempty left right leftFits rightFits
    records

end Encoding

section Order

theorem ascending_ext {α β : Type} [Preorder β] (place : α → β) {left right : List α}
    (ascends : left.Pairwise fun a b => place a < place b)
    (alsoAscends : right.Pairwise fun a b => place a < place b)
    (members : ∀ entry, entry ∈ left ↔ entry ∈ right) : left = right := by
  have distinct : ∀ {entries : List α}, entries.Pairwise (fun a b => place a < place b) →
      entries.Nodup := by
    intro entries ordered
    refine ordered.imp ?_
    rintro a b below rfl
    exact lt_irrefl _ below
  have shuffled : left.Perm right :=
    (List.perm_ext_iff_of_nodup (distinct ascends) (distinct alsoAscends)).mpr members
  exact shuffled.eq_of_pairwise
    (fun a b _ _ below above => absurd (below.trans above) (lt_irrefl _)) ascends alsoAscends

variable {hashing : Hashing} {state : NodeState}

theorem TokenIndex.in_range_ascends {α : Type} [LinearOrder α] (index : TokenIndex α)
    (range : RangeSpec) :
    (index.inRange range).Pairwise fun a b => toLex a < toLex b := by
  have sorted : (index.elements.map ofLex).Pairwise fun a b => toLex a < toLex b := by
    rw [List.pairwise_map]
    exact index.sorted.pairwise
  unfold TokenIndex.inRange RangeSpec.tokenBounds
  cases order : compare range.startExclusive range.endInclusive with
  | lt | eq =>
      simp only [List.flatMap_cons, List.flatMap_nil, List.append_nil]
      exact sorted.filter _
  | gt =>
      simp only [List.flatMap_cons, List.flatMap_nil, List.append_nil]
      rw [List.pairwise_append]
      refine ⟨sorted.filter _, sorted.filter _, ?_⟩
      intro low lowListed high highListed
      -- A wrapping range ends below where it starts.
      have wraps : range.endInclusive < range.startExclusive := compare_gt_iff_gt.mp order
      have below := (List.mem_filter.mp lowListed).2
      have above := (List.mem_filter.mp highListed).2
      simp only [RangeSpec.Bounds.accepts, Option.all_none, Option.all_some, Bool.true_and, Bool.and_true,
        decide_eq_true_eq] at below above
      exact Prod.Lex.toLex_lt_toLex.mpr (.inl (below.trans_lt (wraps.trans above)))

def keyPlace (hashing : Hashing) (hashSeed : Nat) (entry : Bytes × Record) : Token ×ₗ Bytes :=
  toLex (keyToken hashing entry.1 hashSeed, entry.1)

theorem source_ascends (indexed : state.RecordsIndexed hashing) (range : RangeSpec) :
    (state.inTokenOrder range).Pairwise fun a b =>
      keyPlace hashing state.topology.hashSeed a < keyPlace hashing state.topology.hashSeed b := by
  unfold NodeState.inTokenOrder
  rw [List.pairwise_filterMap]
  refine (state.recordsByToken.in_range_ascends range).imp_of_mem ?_
  intro early late earlyListed lateListed below left leftTaken right rightTaken
  obtain ⟨_, _, rfl⟩ := Option.map_eq_some_iff.mp leftTaken
  obtain ⟨_, _, rfl⟩ := Option.map_eq_some_iff.mp rightTaken
  obtain ⟨earlyStored, _⟩ := (TokenIndex.mem_inRange _ _ _ _).mp earlyListed
  obtain ⟨lateStored, _⟩ := (TokenIndex.mem_inRange _ _ _ _).mp lateListed
  have earlyToken := ((indexed _ _).mp earlyStored).1
  have lateToken := ((indexed _ _).mp lateStored).1
  simp only [NodeState.tokenOf, TopologySnapshot.keyToken] at earlyToken lateToken
  rwa [keyPlace, keyPlace, ← earlyToken, ← lateToken]

theorem mem_source (indexed : state.RecordsIndexed hashing) (range : RangeSpec) (key : Bytes)
    (record : Record) :
    (key, record) ∈ state.inTokenOrder range ↔ (state.recordsInside hashing range).lookup key =
      some record := by
  rw [NodeState.recordsInside, FiniteMap.lookup_retain]
  constructor
  · intro member
    obtain ⟨⟨token, other⟩, listed, taken⟩ := List.mem_filterMap.mp member
    obtain ⟨_, found, same⟩ := Option.map_eq_some_iff.mp taken
    obtain ⟨rfl, rfl⟩ := Prod.mk.inj same
    obtain ⟨stored, inside⟩ := (TokenIndex.mem_inRange _ _ _ _).mp listed
    rw [((indexed _ _).mp stored).1] at inside
    rw [found]
    exact Option.filter_eq_some_iff.mpr ⟨rfl, inside⟩
  · intro found
    obtain ⟨stored, inside⟩ := Option.filter_eq_some_iff.mp found
    have listed := (TokenIndex.mem_inRange _ _ _ _).mpr
      ⟨(indexed _ key).mpr ⟨rfl, (FiniteMap.mem_iff_lookup _ _).mpr ⟨record, stored⟩⟩, inside⟩
    exact List.mem_filterMap.mpr ⟨_, listed, by rw [stored]; rfl⟩

variable (hashing state)

theorem staged_ascends (destination : DestinationMigration) :
    (state.stagedInTokenOrder hashing destination).Pairwise fun a b =>
      keyPlace hashing state.topology.hashSeed a < keyPlace hashing state.topology.hashSeed b := by
  let entries := destination.records.entries.map fun entry =>
    (keyToken hashing entry.1 state.topology.hashSeed, entry.1, entry.2)
  have sorted : (sortIntoTokenOrder entries).Pairwise fun a b => tokenPlace a ≤ tokenPlace b := by
    have ordered : (sortIntoTokenOrder entries).Pairwise fun a b =>
        decide (tokenPlace a ≤ tokenPlace b) := by
      apply List.pairwise_mergeSort
      · intro a b c below above
        exact decide_eq_true (le_trans (of_decide_eq_true below) (of_decide_eq_true above))
      · intro a b
        simpa using le_total (tokenPlace a) (tokenPlace b)
    exact ordered.imp of_decide_eq_true
  have distinct : (sortIntoTokenOrder entries).Pairwise fun a b => a.2.1 ≠ b.2.1 := by
    have keys : (entries.map fun entry => entry.2.1).Nodup := by
      have staged : (destination.records.entries.map Sigma.fst).Nodup := destination.records.nodupKeys
      simpa [entries, List.map_map, Function.comp_def] using staged
    exact ((List.mergeSort_perm entries _).pairwise_iff (fun different => different.symm)).mpr
      (List.pairwise_map.mp keys)
  have placed : ∀ entry ∈ sortIntoTokenOrder entries, tokenPlace entry =
      keyPlace hashing state.topology.hashSeed entry.2 := by
    intro entry member
    obtain ⟨staged, _, rfl⟩ := List.mem_map.mp (List.mem_mergeSort.mp member)
    rfl
  unfold NodeState.stagedInTokenOrder
  rw [List.pairwise_map]
  refine (sorted.and distinct).imp_of_mem ?_
  rintro a b aListed bListed ⟨below, different⟩
  rw [← placed a aListed, ← placed b bListed]
  refine lt_of_le_of_ne below fun same => different ?_
  exact (Prod.mk.inj (toLex.injective same)).2

theorem mem_staged (destination : DestinationMigration) (key : Bytes) (record : Record) :
    (key, record) ∈ state.stagedInTokenOrder hashing destination ↔ destination.records.lookup key =
      some record := by
  rw [FiniteMap.lookup_some_iff]
  unfold NodeState.stagedInTokenOrder
  constructor
  · intro member
    obtain ⟨_, sorted, same⟩ := List.mem_map.mp member
    obtain ⟨staged, listed, rfl⟩ := List.mem_map.mp (List.mem_mergeSort.mp sorted)
    obtain ⟨rfl, rfl⟩ := Prod.mk.inj same
    exact listed
  · intro listed
    exact List.mem_map.mpr ⟨_, List.mem_mergeSort.mpr (List.mem_map.mpr ⟨_, listed, rfl⟩), rfl⟩

end Order

namespace DigestSample

def record (sequence : Nat) : Record := .stored [byte sequence] ⟨1, sequence, "a"⟩ false none
  fun removed => absurd removed.1 Bool.false_ne_true

/-- A range that wraps around the ring and holds token 5. -/
def range : RangeSpec := ⟨"change", "range", 18, 6, "a", "b"⟩

def moving : SourceMigration := ⟨range, [[byte 1], [byte 2]], [], [], 0, 0, true, OrderedSet.empty⟩

def staging : DestinationMigration where
  range
  records := (AList.insert [byte 2] (record 2) ∅).insert [byte 1] (record 1)
  dedup := ∅
  dedupBytes := 0
  watermark := 0
  committed := false
  writesActivated := false

def stored : NodeState :=
  ((({ topology := Sample.topology } : NodeState).insertRecord Sample.hashing [byte 2]
    (record 2)).insertRecord Sample.hashing
    [byte 1] (record 1))

def source : NodeState := { stored with sources := AList.insert range.key moving ∅ }

def destination : NodeState :=
    { topology := Sample.topology, destinations := AList.insert range.key staging ∅ }

theorem record_fits (key : Bytes) (sequence : Nat) (short : key.length < 2 ^ 64)
    (early : sequence < 2 ^ 64) :
    EntryFits key (record sequence) :=
  ⟨short, ⟨by simp [record, Record.stored], early, by simp [record, Record.stored]; decide⟩,
    by simp [record, Record.stored],
    by simp [DeadlineFits, record, Record.stored, storedDeadline]⟩

theorem staged_lookup (key : Bytes) : staging.records.lookup key =
    if key = [byte 1] then some (record 1) else if key = [byte 2] then some (record 2) else none := by
  simp only [staging, FiniteMap.lookup_insert_if, AList.lookup_empty]

theorem stored_lookup (key : Bytes) : source.records.lookup key = staging.records.lookup key := by
  simp only [source, stored, staging, NodeState.lookup_insert_record, FiniteMap.lookup_insert_if,
    AList.lookup_empty]

theorem staged_fits (key : Bytes) (found : Record)
    (present : staging.records.lookup key = some found) : EntryFits key found := by
  rw [staged_lookup] at present
  split at present
  · obtain rfl := Option.some.inj present
    exact record_fits _ 1 (by simp_all) (by decide)
  · split at present
    · obtain rfl := Option.some.inj present
      exact record_fits _ 2 (by simp_all) (by decide)
    · exact absurd present (by simp)

end DigestSample

end Hashring
