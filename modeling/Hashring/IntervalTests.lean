import Hashring.RingArcs
import Hashring.Removal
import Hashring.RangeDigest

/-! The interval `(start, end]` of the ring, as it is tested in five places, and
the token index that is read through tree bounds (crates/hashring-node/src/lib.rs,
crates/hashring-coordinator/src/migration_helpers.rs and removal.rs). -/
namespace Hashring

open RingArcs

def intervalContains (start finish token : Token) : Bool :=
  if start = finish then true
  else if start < finish then start < token && token ≤ finish
  else start < token || token ≤ finish

def intervalsOverlap (aStart aEnd bStart bEnd : Token) : Bool :=
  intervalContains aStart aEnd bEnd || intervalContains bStart bEnd aEnd

/-! Every test is the arc of the library. -/
section Arc

variable (start finish token : Token)

theorem range_contains_arc : rangeContains start finish token = arcContains start finish token := rfl

theorem token_in_range_arc : tokenInRange start finish token = arcContains start finish token := by
  simp only [tokenInRange, arcContains, ← Bool.decide_and, ← Bool.decide_or]

theorem interval_contains_arc : intervalContains start finish token = arcContains start finish token := by
  rcases lt_trichotomy start finish with proper | rfl | wraps
  · simp [intervalContains, arcContains, proper, proper.ne]
  · simp [intervalContains, arcContains]
  · simp [intervalContains, arcContains, wraps, wraps.not_gt, wraps.ne']

theorem RangeSpec.contains_arc (range : RangeSpec) :
    range.contains token = arcContains range.startExclusive range.endInclusive token := by
  unfold RangeSpec.contains
  cases order : compare range.startExclusive range.endInclusive with
  | lt => simp [arcContains, compare_lt_iff_lt.mp order]
  | eq => simp [arcContains, compare_eq_iff_eq.mp order]
  | gt =>
      have wraps : range.endInclusive < range.startExclusive := compare_gt_iff_gt.mp order
      simp [arcContains, wraps, wraps.not_gt]

end Arc

/-! The values of one token, and the tree of them by token. -/

variable {α : Type} [LinearOrder α]

inductive TokenBucket (α : Type) [LinearOrder α] where
  | one (value : α)
  | many (values : OrderedSet α)

def TokenBucket.values : TokenBucket α → List α
  | one value => [value]
  | many values => values.elements

theorem TokenBucket.values_sorted (bucket : TokenBucket α) : bucket.values.Pairwise (· < ·) := by
  cases bucket with
  | one value => exact List.pairwise_singleton _ _
  | many values => exact values.sorted.pairwise

structure TokenTree (α : Type) [LinearOrder α] where
  byToken : List (Token × TokenBucket α)
  sorted : byToken.Pairwise fun a b => a.1 < b.1

namespace TokenTree

def get (tree : TokenTree α) (token : Token) : Option (TokenBucket α) :=
  (tree.byToken.find? fun entry => entry.1 = token).map Prod.snd

/-- `BTreeMap::range`, which panics on bounds that are the wrong way round. -/
def range (tree : TokenTree α) (bounds : RangeSpec.Bounds) : Option (List (Token × TokenBucket α)) :=
  if bounds.above.any fun start => bounds.upTo.any fun finish => decide (finish < start) then none
  else some (tree.byToken.filter fun entry => bounds.accepts entry.1)

def inRange (tree : TokenTree α) (range : RangeSpec) : Option (List (Token × α)) := do
  let found ← range.tokenBounds.mapM tree.range
  return found.flatten.flatMap fun entry => entry.2.values.map fun value => (entry.1, value)

def Stores (tree : TokenTree α) (token : Token) (value : α) : Prop :=
  ∃ bucket, tree.get token = some bucket ∧ value ∈ bucket.values

theorem mem_iff_get (tree : TokenTree α) (token : Token) (bucket : TokenBucket α) :
    (token, bucket) ∈ tree.byToken ↔ tree.get token = some bucket := by
  obtain ⟨entries, sorted⟩ := tree
  simp only [get]
  induction entries with
  | nil => simp
  | cons entry rest ih =>
      obtain ⟨first, later⟩ := List.pairwise_cons.mp sorted
      by_cases here : entry.1 = token
      · have elsewhere : (token, bucket) ∉ rest := fun member => (first _ member).ne here
        simp [here, elsewhere, Prod.ext_iff, eq_comm]
      · have different : (token, bucket) ≠ entry := fun same => here (congrArg Prod.fst same).symm
        simp only [List.mem_cons, different, false_or, List.find?_cons, decide_eq_false here]
        exact ih later

def flatten (tree : TokenTree α) : TokenIndex α where
  elements := tree.byToken.flatMap fun entry => entry.2.values.map fun value => toLex (entry.1, value)
  sorted := by
    apply List.Pairwise.sortedLT
    rw [List.pairwise_flatMap]
    constructor
    · intro entry _
      rw [List.pairwise_map]
      refine entry.2.values_sorted.imp ?_
      intro low high below
      exact Prod.Lex.toLex_lt_toLex.mpr (.inr ⟨rfl, below⟩)
    · refine tree.sorted.imp ?_
      intro early late before a fromEarly b fromLate
      obtain ⟨value, -, rfl⟩ := List.mem_map.mp fromEarly
      obtain ⟨other, -, rfl⟩ := List.mem_map.mp fromLate
      exact Prod.Lex.toLex_lt_toLex.mpr (.inl before)

theorem mem_flatten (tree : TokenTree α) (token : Token) (value : α) :
    toLex (token, value) ∈ tree.flatten ↔ tree.Stores token value := by
  simp only [OrderedSet.mem_def, flatten, List.mem_flatMap, List.mem_map, Stores, ← mem_iff_get]
  constructor
  · rintro ⟨⟨place, bucket⟩, listed, stored, inside, same⟩
    obtain ⟨rfl, rfl⟩ := Prod.mk.inj (toLex.injective same)
    exact ⟨bucket, listed, inside⟩
  · rintro ⟨bucket, listed, inside⟩
    exact ⟨(token, bucket), listed, value, inside, rfl⟩

/-- The pairs of these buckets, as `in_range` pushes them. -/
def pairs (entries : List (Token × TokenBucket α)) : List (Token × α) :=
  entries.flatMap fun entry => entry.2.values.map fun value => (entry.1, value)

theorem flatten_pairs (tree : TokenTree α) : tree.flatten.elements.map ofLex = pairs tree.byToken := by
  simp only [flatten, pairs, List.map_flatMap, List.map_map]
  rfl

theorem pairs_filter (entries : List (Token × TokenBucket α)) (keep : Token → Bool) :
    pairs (entries.filter fun entry => keep entry.1) = (pairs entries).filter fun pair =>
      keep pair.1 := by
  induction entries with
  | nil => rfl
  | cons entry rest ih =>
      have whole : (entry.2.values.map fun value => (entry.1, value)).filter (fun pair => keep pair.1) =
          if keep entry.1 then entry.2.values.map fun value => (entry.1, value) else [] := by
        rw [List.filter_map]
        by_cases kept : keep entry.1 = true
        · simp [kept, Function.comp_def]
        · simp [kept, Function.comp_def]
      unfold pairs at ih ⊢
      rw [List.flatMap_cons, List.filter_append, whole, ← ih]
      by_cases kept : keep entry.1 = true
      · simp [kept]
      · simp [kept]

/-- `in_range` hands the tree no bounds that are the wrong way round. -/
theorem range_bounds (tree : TokenTree α) {range : RangeSpec} {bounds : RangeSpec.Bounds}
    (member : bounds ∈ range.tokenBounds) :
    tree.range bounds = some (tree.byToken.filter fun entry => bounds.accepts entry.1) := by
  have ordered : (bounds.above.any fun start => bounds.upTo.any fun finish =>
      decide (finish < start)) = false := by
    unfold RangeSpec.tokenBounds at member
    cases order : compare range.startExclusive range.endInclusive with
    | lt =>
        have proper := compare_lt_iff_lt.mp order
        rw [order] at member
        obtain rfl := List.mem_singleton.mp member
        simpa using proper.le
    | eq =>
        rw [order] at member
        obtain rfl := List.mem_singleton.mp member
        rfl
    | gt =>
        rw [order] at member
        rcases List.mem_cons.mp member with rfl | member
        · rfl
        · obtain rfl := List.mem_singleton.mp member
          rfl
  simp [TokenTree.range, ordered]

/-- Reading the tree through its bounds is reading the set of pairs. -/
theorem in_range_flatten (tree : TokenTree α) (range : RangeSpec) :
    tree.inRange range = some (tree.flatten.inRange range) := by
  have read : ∀ bounds : List RangeSpec.Bounds, (∀ bound ∈ bounds, bound ∈ range.tokenBounds) →
      bounds.mapM tree.range =
        some (bounds.map fun bound => tree.byToken.filter fun entry => bound.accepts entry.1) := by
    intro bounds
    induction bounds with
    | nil => intro _; rfl
    | cons bound rest ih =>
        intro listed
        rw [List.mapM_cons, range_bounds tree (listed bound List.mem_cons_self),
          ih fun other member => listed other (List.mem_cons_of_mem _ member)]
        rfl
  have pushed : ∀ bounds : List RangeSpec.Bounds,
      pairs (bounds.map fun bound => tree.byToken.filter fun entry => bound.accepts entry.1).flatten =
        bounds.flatMap fun bound => (pairs tree.byToken).filter fun pair => bound.accepts pair.1 := by
    intro bounds
    induction bounds with
    | nil => rfl
    | cons bound rest ih =>
        rw [List.flatMap_cons, ← ih, ← pairs_filter]
        simp [pairs]
  unfold inRange TokenIndex.inRange
  rw [read _ fun _ member => member, flatten_pairs, ← pushed]
  rfl

end TokenTree

/-! The ring of 64-bit tokens, walked upwards from a start with wrap-around. -/

def stepsBetween (start token : UInt64) : UInt64 := token - start - 1

/-- The walk meets the token no later than the end. -/
def OnArc (start finish token : UInt64) : Prop := stepsBetween start token ≤ stepsBetween start finish

theorem steps_between_nat (start token : UInt64) :
    (stepsBetween start token).toNat = (2 ^ 64 - 1 + (2 ^ 64 - start.toNat + token.toNat) % 2 ^ 64)
      % 2 ^ 64 := by
  rw [stepsBetween, UInt64.toNat_sub, UInt64.toNat_sub]
  rfl

theorem on_arc_iff (start finish token : UInt64) :
    OnArc start finish token ↔ arcContains start.toNat finish.toNat token.toNat = true := by
  have startBound := start.toNat_lt
  have finishBound := finish.toNat_lt
  have tokenBound := token.toNat_lt
  rw [OnArc, UInt64.le_iff_toNat_le, steps_between_nat, steps_between_nat]
  rcases lt_trichotomy start.toNat finish.toNat with proper | same | wraps
  · rw [arc_proper proper]
    omega
  · rw [← same]
    simp only [arc_whole, iff_true]
    omega
  · rw [arc_wraps wraps]
    omega

/-- Half-open on the left, wrapping when start exceeds end, the whole ring when
they are equal. -/
theorem on_arc_cases (start finish token : UInt64) :
    OnArc start finish token ↔
      start = finish ∨ start < finish ∧ start < token ∧ token ≤ finish ∨
        finish < start ∧ (start < token ∨ token ≤ finish) := by
  rw [on_arc_iff]
  simp only [UInt64.lt_iff_toNat_lt, UInt64.le_iff_toNat_le, ← UInt64.toNat_inj]
  rcases lt_trichotomy start.toNat finish.toNat with proper | same | wraps
  · rw [arc_proper proper]
    omega
  · rw [← same]
    simp only [arc_whole, true_or]
  · rw [arc_wraps wraps]
    omega

/-- The arcs of a `RangeSpec` with these bounds. -/
def RangeSpec.between (range : RangeSpec) (start finish : UInt64) : RangeSpec :=
  { range with startExclusive := start.toNat, endInclusive := finish.toNat }

/-- All interval tests accept the tokens of the arc; a token index read through the
tree bounds gives each stored value of the arc once and in token order; and two
intervals overlap by their end points when they share a token. -/
theorem interval_tests_agree :
    (∀ (range : RangeSpec) (start finish token : UInt64),
      (OnArc start finish token ↔ start = finish ∨ start < finish ∧ start < token ∧ token ≤ finish ∨
        finish < start ∧ (start < token ∨ token ≤ finish)) ∧
      ((range.between start finish).contains token.toNat = true ↔ OnArc start finish token) ∧
      ((∃ bounds ∈ (range.between start finish).tokenBounds, bounds.accepts token.toNat = true) ↔
        OnArc start finish token) ∧
      (rangeContains start.toNat finish.toNat token.toNat = true ↔ OnArc start finish token) ∧
      (intervalContains start.toNat finish.toNat token.toNat = true ↔ OnArc start finish token) ∧
      (tokenInRange start.toNat finish.toNat token.toNat = true ↔ OnArc start finish token)) ∧
    (∀ (tree : TokenTree α) (range : RangeSpec), ∃ found, tree.inRange range = some found ∧ found.Nodup ∧
      (∀ token value, (token, value) ∈ found ↔ tree.Stores token value ∧ range.contains token = true) ∧
      found.Pairwise fun early late => early.1 ≤ late.1) ∧
    ∀ aStart aEnd bStart bEnd : UInt64,
      intervalsOverlap aStart.toNat aEnd.toNat bStart.toNat bEnd.toNat = true ↔
        ∃ token, OnArc aStart aEnd token ∧ OnArc bStart bEnd token := by
  refine ⟨?_, ?_, ?_⟩
  · intro range start finish token
    -- Every test is membership in one arc.
    have inside := on_arc_iff start finish token
    have contained := (range.between start finish).contains_arc token.toNat
    refine ⟨on_arc_cases start finish token, ?_, ?_, ?_, ?_, ?_⟩
    · rw [contained, inside]
      rfl
    · rw [← RangeSpec.contains_iff_token_bounds, contained, inside]
      rfl
    · rw [range_contains_arc, inside]
    · rw [interval_contains_arc, inside]
    · rw [token_in_range_arc, inside]
  · intro tree range
    have ascends := tree.flatten.in_range_ascends range
    refine ⟨_, tree.in_range_flatten range, ?_, ?_, ?_⟩
    · refine ascends.imp ?_
      rintro early late before rfl
      exact lt_irrefl _ before
    · intro token value
      rw [TokenIndex.mem_inRange, TokenTree.mem_flatten]
    · refine ascends.imp ?_
      intro early late before
      rcases Prod.Lex.toLex_lt_toLex.mp before with below | ⟨same, -⟩
      · exact below.le
      · exact same.le
  · intro aStart aEnd bStart bEnd
    rw [intervalsOverlap, Bool.or_eq_true, interval_contains_arc, interval_contains_arc]
    constructor
    · -- The end point that lies in the other interval is a token of both.
      rintro (inside | inside)
      · exact ⟨bEnd, (on_arc_iff _ _ _).mpr inside, (on_arc_iff _ _ _).mpr (arc_holds_end _ _)⟩
      · exact ⟨aEnd, (on_arc_iff _ _ _).mpr (arc_holds_end _ _), (on_arc_iff _ _ _).mpr inside⟩
    · rintro ⟨token, inA, inB⟩
      exact (arcs_meet_iff _ _ _ _).mp ⟨token.toNat, (on_arc_iff _ _ _).mp inA, (on_arc_iff _ _ _).mp inB⟩

end Hashring
