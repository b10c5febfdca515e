import Hashring.StringCommands

/-! `GETRANGE` and `SETRANGE` on the bytes of a value
(crates/hashring-redis/src/commands/strings.rs), against the index rules of Redis.
Indices are `i64`; `none` is an overflow or a slice out of bounds, which panics. -/
namespace Hashring

def IsI64 (n : Int) : Prop := i64Min ≤ n ∧ n ≤ i64Max

instance : DecidablePred IsI64 := fun n => inferInstanceAs (Decidable (i64Min ≤ n ∧ n ≤ i64Max))

def i64Add (a b : Int) : Option Int := if i64Min ≤ a + b ∧ a + b ≤ i64Max then some (a + b) else none

/-- `value[start..=stop]`. -/
def sliceInclusive (value : Bytes) (start stop : Nat) : Option Bytes :=
  if start ≤ stop + 1 ∧ stop + 1 ≤ value.length then some ((value.take (stop + 1)).drop start) else none

namespace Strings

def countedIndex (length index : Int) : Option Int :=
  if index < 0 then i64Add length index else some index

/-- `slice_range` with every addition and the slice checked. -/
def sliceRangeChecked (value : Bytes) (start stop : Int) : Option Bytes :=
  let length : Int := value.length
  if length = 0 then some []
  else do
    let start ← countedIndex length start
    let stop ← countedIndex length stop
    let start := if start < 0 then 0 else start
    let stop := if stop < 0 then 0 else stop
    let last ← i64Add length (-1)
    let stop := if length ≤ stop then last else stop
    if stop < start ∨ length ≤ start then some [] else sliceInclusive value start.toNat stop.toNat

/-- The place a negative index names, counted from the end and cut to the start. -/
def fromEnd (length index : Int) : Int := max (if index < 0 then length + index else index) 0

/-- What Redis answers: nothing for two negative indices the wrong way round, else
the bytes from `start` to `stop`, with `stop` cut to the last byte. -/
def redisRange (value : Bytes) (start stop : Int) : Bytes :=
  let length : Int := value.length
  let first := fromEnd length start
  let last := min (fromEnd length stop) (length - 1)
  if start < 0 ∧ stop < 0 ∧ stop < start then []
  else if last < first ∨ value = [] then []
  else (value.take (last.toNat + 1)).drop first.toNat

/-- Two negative indices the wrong way round, the first of which is at or before
the start of a value that is not empty. -/
def Overshoots (value : Bytes) (start stop : Int) : Prop :=
  value ≠ [] ∧ start < 0 ∧ stop < 0 ∧ stop < start ∧ value.length + start ≤ 0

theorem i64_add_some {a b : Int} (low : i64Min ≤ a + b) (high : a + b ≤ i64Max) :
    i64Add a b = some (a + b) :=
  if_pos ⟨low, high⟩

/-- No index makes the code overflow or slice out of bounds. -/
theorem slice_range_checked {value : Bytes} {start stop : Int} (fits : IsI64 value.length)
    (starts : IsI64 start)
    (stops : IsI64 stop) : sliceRangeChecked value start stop = some (sliceRange value start stop) := by
  obtain ⟨_, long⟩ := fits
  obtain ⟨low, high⟩ := starts
  obtain ⟨below, above⟩ := stops
  unfold i64Min at low below
  unfold i64Max at long high above
  have added : ∀ index : Int, -2 ^ 63 ≤ index → index < 0 →
      i64Add value.length index = some (value.length + index) := by
    intro index bound negative
    apply i64_add_some
    · unfold i64Min
      omega
    · unfold i64Max
      omega
  have counted : ∀ index : Int, -2 ^ 63 ≤ index →
      countedIndex value.length index = some (if index < 0 then value.length + index else index) := by
    intro index bound
    unfold countedIndex
    split
    · rename_i negative
      exact added index bound negative
    · rfl
  unfold sliceRangeChecked sliceRange
  dsimp only
  split
  · rfl
  · rename_i nonempty
    rw [counted start low, counted stop below, added (-1) (by decide) (by decide)]
    generalize (if start < 0 then (value.length : Int) + start else start) = first
    generalize (if stop < 0 then (value.length : Int) + stop else stop) = last
    -- The clamps of the source as minimum and maximum.
    have cutFirst : (if first < 0 then 0 else first) = max first 0 := by split <;> omega
    have cutLast : (if (value.length : Int) ≤
        (if last < 0 then 0 else last) then (value.length : Int) + -1
        else if last < 0 then 0 else last) = min (max last 0) (value.length - 1) := by split_ifs <;> omega
    simp only [Option.bind_eq_bind, Option.bind_some, cutFirst, cutLast]
    split
    · rfl
    · rename_i within
      unfold sliceInclusive
      rw [if_pos (by omega), show (min (max last 0) ((value.length : Int) - 1) + 1).toNat =
        (min (max last 0) ((value.length : Int) - 1)).toNat + 1 by omega]

theorem slice_range_redis_iff (value : Bytes) (start stop : Int) :
    sliceRange value start stop = redisRange value start stop ↔ ¬ Overshoots value start stop := by
  unfold sliceRange redisRange Overshoots fromEnd
  dsimp only
  by_cases empty : value = []
  · subst empty
    simp
  have positive : 0 < value.length := List.length_pos_iff.mpr empty
  rw [if_neg (by omega)]
  by_cases reversed : start < 0 ∧ stop < 0 ∧ stop < start
  · rw [if_pos reversed]
    obtain ⟨negative, below, wrong⟩ := reversed
    rw [if_pos negative, if_pos below]
    by_cases before : (value.length : Int) + start ≤ 0
    · -- both places are cut to the first byte, which is what comes back
      refine iff_of_false ?_ (by simp [empty, negative, below, wrong, before])
      rw [if_neg (by omega)]
      intro nothing
      have lengths := congrArg List.length nothing
      rw [List.length_drop, List.length_take, List.length_nil] at lengths
      omega
    · exact iff_of_true (if_pos (by omega)) fun overshoots => before overshoots.2.2.2.2
  · rw [if_neg reversed]
    refine iff_of_true ?_ fun overshoots =>
      reversed ⟨overshoots.2.1, overshoots.2.2.1, overshoots.2.2.2.1⟩
    have start_ : 0 ≤ max (if start < 0 then (value.length : Int) + start else start) 0 :=
      le_max_right _ _
    generalize max (if start < 0 then (value.length : Int) + start else start) 0 = first at start_
    generalize max (if stop < 0 then (value.length : Int) + stop else stop) 0 = last
    by_cases nothing : min last ((value.length : Int) - 1) < first
    · rw [if_pos (.inl nothing), if_pos (.inl nothing)]
    · rw [if_neg (by omega), if_neg (by simp [nothing, empty])]
      congr 2
      omega

/-- What `SETRANGE` leaves of a value: the patch at its offset, the old bytes around
it, and zeros in a gap between the two. -/
structure PatchedAt (value : Bytes) (offset : Nat) (patch result : Bytes) : Prop where
  length : result.length = max value.length (offset + patch.length)
  written : ∀ place < patch.length, result[offset + place]? = patch[place]?
  kept : ∀ place < value.length, place < offset ∨ offset + patch.length ≤ place →
    result[place]? = value[place]?
  gap : ∀ place, value.length ≤ place → place < offset → result[place]? = some (byte 0)
  span : sliceRangeChecked result offset (offset + patch.length - 1 : Nat) = some patch

theorem padded_get (value : Bytes) (offset place : Nat) :
    (value ++ List.replicate (offset - value.length) (byte 0))[place]? =
      if place < value.length then value[place]? else if place < offset then some (byte 0) else none := by
  split
  · rename_i inside
    exact List.getElem?_append_left inside
  · rename_i outside
    rw [List.getElem?_append_right (by omega), List.getElem?_replicate]
    split
    · rw [if_pos (by omega)]
    · rw [if_neg (by omega)]

theorem patched_length (value : Bytes) (offset : Nat) (patch : Bytes) :
    (patched value offset patch).length = max value.length (offset + patch.length) := by
  unfold patched
  simp only [List.length_append, List.length_take, List.length_drop, List.length_replicate]
  omega

theorem patched_get (value : Bytes) (offset : Nat) (patch : Bytes) (place : Nat) :
    (patched value offset patch)[place]? =
      if offset ≤ place ∧ place < offset + patch.length then patch[place - offset]?
      else (value ++ List.replicate (offset - value.length) (byte 0))[place]? := by
  unfold patched
  dsimp only
  have padded : (value ++ List.replicate (offset - value.length) (byte 0)).length =
      max value.length offset := by
    rw [List.length_append, List.length_replicate]
    omega
  generalize value ++ List.replicate (offset - value.length) (byte 0) = bytes at padded
  have front : (bytes.take offset).length = offset := by
    rw [List.length_take]
    omega
  rw [List.append_assoc]
  by_cases before : place < offset
  · rw [if_neg (by omega), List.getElem?_append_left (by omega), List.getElem?_take_of_lt before]
  · rw [List.getElem?_append_right (by omega), front]
    by_cases inside : place < offset + patch.length
    · rw [if_pos (by omega), List.getElem?_append_left (by omega)]
    · rw [if_neg (by omega), List.getElem?_append_right (by omega), List.getElem?_drop]
      by_cases short : offset + patch.length ≤ bytes.length
      · rw [min_eq_left short]
        congr 1
        omega
      · rw [min_eq_right (by omega), List.getElem?_eq_none_iff.mpr (by omega),
          List.getElem?_eq_none_iff.mpr (by omega)]

theorem patched_span (value : Bytes) (offset : Nat) (patch : Bytes) :
    ((patched value offset patch).take (offset + patch.length)).drop offset = patch := by
  apply List.ext_getElem?
  intro place
  rw [List.getElem?_drop]
  by_cases inside : place < patch.length
  · rw [List.getElem?_take_of_lt (by omega), patched_get, if_pos (by omega), Nat.add_sub_cancel_left]
  · rw [List.getElem?_eq_none_iff.mpr (by rw [List.length_take]; omega),
      List.getElem?_eq_none_iff.mpr (by omega)]

theorem patched_at {value patch : Bytes} {offset : Nat} (fits : IsI64 value.length)
    (room : IsI64 (offset + patch.length : Nat)) (some_ : patch ≠ []) :
    PatchedAt value offset patch (patched value offset patch) := by
  have positive : 0 < patch.length := List.length_pos_iff.mpr some_
  have length := patched_length value offset patch
  refine ⟨length, ?_, ?_, ?_, ?_⟩
  · intro place inside
    rw [patched_get, if_pos (by omega), Nat.add_sub_cancel_left]
  · intro place old outside
    rw [patched_get, if_neg (by omega), padded_get, if_pos old]
  · intro place new before
    rw [patched_get, if_neg (by omega), padded_get, if_neg (by omega), if_pos before]
  · obtain ⟨_, long⟩ := fits
    obtain ⟨_, high⟩ := room
    unfold i64Max at long high
    have bounded : ∀ n : Nat, (n : Int) ≤ 2 ^ 63 - 1 → IsI64 n := by
      intro n below
      refine ⟨?_, below⟩
      unfold i64Min
      omega
    rw [slice_range_checked (bounded _ (by omega)) (bounded _ (by omega)) (bounded _ (by omega))]
    unfold sliceRange
    dsimp only
    rw [if_neg (by omega), if_neg (by omega), if_neg (by omega), if_neg (by omega)]
    rw [show (min (max ((offset + patch.length - 1 : Nat) : Int) 0)
      ((patched value offset patch).length - 1 : Int) + 1).toNat =
      offset + patch.length by omega, show (max (offset : Int) 0).toNat = offset by omega, patched_span]

end Strings

/-- `GETRANGE` follows the index rules exactly where the indices do not overshoot,
and `SETRANGE` patches every value at every offset. -/
theorem substring_rules_iff (value : Bytes) (start stop : Int) (offset : Nat) (patch : Bytes)
    (fits : IsI64 value.length) (starts : IsI64 start) (stops : IsI64 stop)
    (room : IsI64 (offset + patch.length : Nat)) (some_ : patch ≠ []) :
    (Strings.sliceRangeChecked value start stop = some (Strings.redisRange value start stop) ↔
      ¬ Strings.Overshoots value start stop) ∧
    Strings.sliceRangeChecked value start stop ≠ none ∧
    ∀ now current, (valueOf current).getD [] = value →
      ∃ result, Strings.setrangeDecide offset patch now current =
        .ok (.put result (kept current) (.integer result.length)) ∧
        Strings.PatchedAt value offset patch result := by
  rw [Strings.slice_range_checked fits starts stops]
  refine ⟨?_, by simp, ?_⟩
  · rw [Option.some.injEq]
    exact Strings.slice_range_redis_iff value start stop
  · intro now current held
    refine ⟨Strings.patched value offset patch, ?_, Strings.patched_at fits room some_⟩
    rw [Strings.setrangeDecide, held]

theorem substring_rules_sample :
    Strings.sliceRangeChecked (utf8 "Hello") (-3) (-1) = some (utf8 "llo") ∧
      ∃ result, Strings.PatchedAt (utf8 "Hello") 7 (utf8 "lo") result := by
  obtain ⟨follows, _, patches⟩ := substring_rules_iff (utf8 "Hello") (-3) (-1) 7 (utf8 "lo")
    (by decide +kernel)
    (by decide) (by decide) (by decide +kernel) (by decide +kernel)
  obtain ⟨result, _, patched⟩ := patches 0 (some ⟨utf8 "Hello", none, ⟨1, 1, "node"⟩⟩) rfl
  refine ⟨(follows.mpr ?_).trans (by decide +kernel), result, patched⟩
  exact fun overshoots => absurd overshoots.2.2.2.1 (by decide)

/-- Two negative indices the wrong way round before the start of a value. -/
theorem overshoot_returns_first_byte :
    Strings.sliceRangeChecked (utf8 "Hello") (-7) (-8) = some (utf8 "H") ∧
      Strings.redisRange (utf8 "Hello") (-7) (-8) = [] := by
  decide +kernel

end Hashring
