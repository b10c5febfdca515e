import Hashring.ServedSource

/-! Reading the frozen keys and receipt IDs of a moving range page by page, while
the source goes on serving writes. -/
namespace Hashring

section Cursor

variable {α β : Type}

theorem take_page_moves (emit : α → Option β) (size : β → Nat) (maxBytes : Nat) (items : List α)
    (some_ : items ≠ []) (cursor : Nat) :
    ∃ count, 0 < count ∧ count ≤ items.length ∧
      takePage emit size maxBytes items 0 [] cursor =
        ((items.take count).filterMap emit, cursor + count) := by
  cases items with
  | nil => exact absurd rfl some_
  | cons item rest =>
      unfold takePage
      cases emitted : emit item with
      | none =>
          obtain ⟨count, bound, result⟩ := take_page_prefix emit size maxBytes rest 0 [] (cursor + 1)
          refine ⟨count + 1, Nat.succ_pos _, Nat.succ_le_succ bound, ?_⟩
          simp only [result, List.take_succ_cons, List.filterMap_cons, emitted, List.nil_append,
            Prod.mk.injEq, true_and]
          omega
      | some record =>
          obtain ⟨count, bound, result⟩ :=
            take_page_prefix emit size maxBytes rest (0 + size record) [record] (cursor + 1)
          refine ⟨count + 1, Nat.succ_pos _, Nat.succ_le_succ bound, ?_⟩
          simp only [ne_eq, not_true_eq_false, false_and, ↓reduceIte, List.nil_append, result,
            List.take_succ_cons,
            List.filterMap_cons, emitted, List.cons_append, Prod.mk.injEq, true_and]
          omega

structure CursorPage (β : Type) where
  records : List β
  nextCursor : Nat
  done : Bool

def follow (read : Nat → Nat → Except Status (CursorPage β)) : Nat → Nat → Nat → List (CursorPage β)
  | 0, _, _ => []
  | fuel + 1, index, cursor =>
      match read index cursor with
      | .error _ => []
      | .ok page => page :: if page.done then [] else follow read fuel (index + 1) page.nextCursor

/-- The pages show the items, each of them in one page and in order. Every page but
the last moves the cursor and is not done. Page `index` shows what `emit index` makes
of its items. -/
inductive Covers (emit : Nat → α → Option β) : Nat → Nat → List α → List (CursorPage β) → Prop where
  | last (index cursor : Nat) (items : List α) :
      Covers emit index cursor items [⟨items.filterMap (emit index), cursor + items.length, true⟩]
  | page {index cursor : Nat} {segment later : List α} {more : List (CursorPage β)}
      (advances : segment ≠ [])
      (unfinished : later ≠ []) (rest : Covers emit (index + 1) (cursor + segment.length) later more) :
      Covers emit index cursor (segment ++ later)
        (⟨segment.filterMap (emit index), cursor + segment.length, false⟩ :: more)

theorem follow_covers (emit : Nat → α → Option β) (size : β → Nat) (items : List α)
    (read : Nat → Nat → Except Status (CursorPage β)) (limits : Nat → Nat)
    (reads : ∀ index cursor, cursor ≤ items.length → read index cursor = .ok
      (let taken := takePage (emit index) size (limits index) (items.drop cursor) 0 [] cursor
       ⟨taken.1, taken.2, taken.2 = items.length⟩))
    (fuel index cursor : Nat) (inside : cursor ≤ items.length) (enough : items.length - cursor < fuel) :
    Covers emit index cursor (items.drop cursor) (follow read fuel index cursor) := by
  -- A page that does not end the list takes at least one item, so the fuel outlasts it.
  induction fuel generalizing index cursor with
  | zero => exact absurd enough (Nat.not_lt_zero _)
  | succ fuel ih =>
      unfold follow
      rw [reads index cursor inside]
      by_cases blank : items.drop cursor = []
      · have ended : cursor = items.length := le_antisymm inside (List.drop_eq_nil_iff.mp blank)
        rw [blank]
        simp only [takePage, ended, decide_true, ↓reduceIte]
        exact .last index items.length []
      · obtain ⟨count, moved, bound, taken⟩ :=
          take_page_moves (emit index) size (limits index) (items.drop cursor) blank cursor
        rw [List.length_drop] at bound
        simp only [taken]
        have length : ((items.drop cursor).take count).length = count := by
          rw [List.length_take, List.length_drop]
          omega
        by_cases ended : cursor + count = items.length
        · have whole : (items.drop cursor).take count = items.drop cursor := by
            apply List.take_of_length_le
            rw [List.length_drop]
            omega
          simp only [ended, decide_true, ↓reduceIte, whole]
          have last : Covers emit index cursor (items.drop cursor) _ :=
            .last index cursor (items.drop cursor)
          rwa [List.length_drop, show cursor + (items.length - cursor) = items.length by omega] at last
        · simp only [ended, decide_false, Bool.false_eq_true, ↓reduceIte]
          have rest := ih (index + 1) (cursor + count) (by omega) (by omega)
          have split : items.drop cursor = (items.drop cursor).take count ++
              items.drop (cursor + count) := by
            rw [← List.drop_drop, List.take_append_drop]
          have unfinished : items.drop (cursor + count) ≠ [] := by
            intro empty
            have short := List.drop_eq_nil_iff.mp empty
            omega
          have advances : (items.drop cursor).take count ≠ [] := by
            intro empty
            rw [empty] at length
            simp at length
            omega
          have onward : Covers emit (index + 1) (cursor + ((items.drop cursor).take count).length)
              (items.drop (cursor + count))
              (follow read fuel (index + 1) (cursor + count)) := by
            rw [length]
            exact rest
          have paged : Covers emit index cursor _ _ := .page advances unfinished onward
          rwa [length, ← split] at paged

end Cursor

section Snapshots

variable (config : NodeConfig) (key : RangeKey) (views : Nat → NodeProcess) (sizes : Nat → Nat)
  (now : Nat → Instant)

/-- Page `index` of the frozen keys, asked for with the size of that turn. -/
def snapshotReader (index cursor : Nat) : Except Status (CursorPage MigrationRecord) :=
  (readSnapshotPage config (views index).state
    { changeId := key.changeId, rangeId := key.rangeId, cursor, maxBytes := sizes index }).map
    fun page => ⟨page.records, page.nextCursor, page.done⟩

/-- Page `index` of the frozen receipt IDs. -/
def receiptReader (index cursor : Nat) : Except Status (CursorPage DeduplicationRecord) :=
  (readDedupSnapshotPage config (now index) (views index).state
    { changeId := key.changeId, rangeId := key.rangeId, cursor, maxBytes := sizes index }).map
    fun page => ⟨page.records, page.nextCursor, page.done⟩

/-- A key as a page shows it, if its record is there. -/
def shownRecord (index : Nat) (probe : Bytes) : Option MigrationRecord :=
  ((views index).state.records.lookup probe).map (snapshotRecord probe)

def shownReceipt (index : Nat) (id : String) : Option DeduplicationRecord :=
  (((views index).state.dedup.lookup id).filter fun entry => now index < entry.expiresAt).map fun entry =>
    dedupSnapshotRecord id entry (now index) (views index).state.topology.timings.receiptRetentionMillis

variable {hashing : Hashing} {views}

theorem snapshot_covers (serving : Serving hashing config key views) {source : SourceMigration}
    (found : (views 0).state.sources.lookup key = some source) (fuel : Nat)
    (enough : source.snapshotKeys.length < fuel) :
    Covers (shownRecord views) 0 0 source.snapshotKeys
      (follow (snapshotReader config key views sizes) fuel 0 0) := by
  obtain ⟨sources, held⟩ := serving.sources
  obtain rfl : source = sources 0 := Option.some.inj (found.symm.trans (held 0).1)
  refine follow_covers (shownRecord views) migrationRecordSize (sources 0).snapshotKeys
    (snapshotReader config key views sizes)
    (fun index => pageLimit (sizes index) config.maxValueBytes) (fun index cursor inside => ?_) fuel
      0 0 (Nat.zero_le _)
    (by omega)
  have keys := ((held 0).2.2 index (Nat.zero_le _)).keys
  rw [snapshotReader, readSnapshotPage, (held index).1]
  simp only [keys]
  rw [if_neg (not_lt.mpr inside)]
  rfl

theorem receipts_covered (serving : Serving hashing config key views) {source : SourceMigration}
    (found : (views 0).state.sources.lookup key = some source) (fuel : Nat)
    (enough : source.snapshotDedupIds.length < fuel) :
    Covers (shownReceipt views now) 0 0 source.snapshotDedupIds
      (follow (receiptReader config key views sizes now) fuel 0 0) := by
  obtain ⟨sources, held⟩ := serving.sources
  obtain rfl : source = sources 0 := Option.some.inj (found.symm.trans (held 0).1)
  refine follow_covers (shownReceipt views now) dedupRecordSize (sources 0).snapshotDedupIds
    (receiptReader config key views sizes now) (fun index => pageLimit (sizes index) config.maxValueBytes)
    (fun index cursor inside => ?_) fuel 0 0 (Nat.zero_le _) (by omega)
  have ids := ((held 0).2.2 index (Nat.zero_le _)).ids
  rw [receiptReader, readDedupSnapshotPage, (held index).1]
  simp only [ids]
  rw [if_neg (not_lt.mpr inside)]
  rfl

end Snapshots

end Hashring
