import Mathlib.Data.List.TakeWhile
import Mathlib.Data.List.Sort
import Mathlib.Data.List.Rotate

/-! A ring of positioned entries in which a token belongs to the first entry at
or after it, wrapping to the first entry of the list. -/
namespace Hashring.SuccessorRing

variable {ε τ : Type} [LinearOrder τ] (position : ε → τ)

def successor (entries : List ε) (token : τ) : Option ε :=
  (entries.find? fun entry => token ≤ position entry).or entries.head?

/-- The partition point of a token, taken modulo the length, indexes its
successor. -/
theorem getElem?_partition_point (entries : List ε) (token : τ) :
    entries[(entries.takeWhile fun entry => position entry < token).length % entries.length]? =
      successor position entries token := by
  let before := entries.takeWhile fun entry => position entry < token
  let after := entries.dropWhile fun entry => position entry < token
  have parts : before ++ after = entries := List.takeWhile_append_dropWhile
  have found : entries.find? (fun entry => token ≤ position entry) = after.head? := by
    rw [List.find?_eq_head?_dropWhile_not]
    congr 2
    funext entry
    simp [← not_lt]
  unfold successor
  rw [found]
  cases tail : after with
  | nil =>
      have all : before = entries := by rw [← parts, tail, List.append_nil]
      change entries[before.length % entries.length]? = _
      rw [all, Nat.mod_self]
      simp [List.head?_eq_getElem?]
  | cons entry rest =>
      have shorter : before.length < entries.length := by
        rw [← parts, tail]
        simp
      change entries[before.length % entries.length]? = _
      rw [Nat.mod_eq_of_lt shorter, ← parts, tail]
      simp

theorem successor_mem {entries : List ε} {token : τ} {entry : ε}
    (found : successor position entries token = some entry) : entry ∈ entries := by
  unfold successor at found
  rcases Option.or_eq_some_iff.mp found with here | ⟨-, first⟩
  · exact List.mem_of_find?_eq_some here
  · exact List.mem_of_head? first

def clockwise (entries : List ε) (token : τ) : List ε :=
  entries.filter (fun entry => token ≤ position entry) ++ entries.filter fun entry =>
    position entry < token

theorem clockwise_filter (keep : ε → Bool) (entries : List ε) (token : τ) :
    clockwise position (entries.filter keep) token = (clockwise position entries token).filter keep := by
  simp only [clockwise, List.filter_append, List.filter_filter, Bool.and_comm]

section

variable {position} {entries : List ε} (sorted : entries.Pairwise fun left right => position left ≤
  position right)

include sorted

theorem partition_sorted (token : τ) :
    entries.takeWhile (fun entry => position entry < token) = entries.filter
      (fun entry => position entry < token) ∧
      entries.dropWhile (fun entry => position entry < token) =
        entries.filter (fun entry => token ≤ position entry) := by
  induction entries with
  | nil => exact ⟨rfl, rfl⟩
  | cons entry rest ih =>
      obtain ⟨first, tail⟩ := List.pairwise_cons.mp sorted
      rcases lt_or_ge (position entry) token with before | after
      · simp [before, not_le.mpr before, ih tail]
      · have later : ∀ other ∈ rest, token ≤ position other :=
          fun other member => after.trans (first other member)
        have none : rest.filter (fun other => position other < token) = [] := by
          apply List.filter_eq_nil_iff.mpr
          intro other member
          simpa using later other member
        have all : rest.filter (fun other => token ≤ position other) = rest := by
          apply List.filter_eq_self.mpr
          intro other member
          exact decide_eq_true (later other member)
        simp [after, not_lt.mpr after, none, all]

/-- Rotating a sorted ring to the partition point of a token walks it clockwise
from there. -/
theorem rotate_partition_point (token : τ) :
    entries.rotate ((entries.takeWhile fun entry => position entry < token).length % entries.length) =
      clockwise position entries token := by
  obtain ⟨taken, dropped⟩ := partition_sorted sorted token
  have parts := List.takeWhile_append_dropWhile (p := fun entry => decide (position entry < token))
      (l := entries)
  unfold clockwise
  rw [← taken, ← dropped]
  generalize entries.takeWhile (fun entry => position entry < token) = before at parts
  generalize entries.dropWhile (fun entry => position entry < token) = after at parts
  subst parts
  cases after with
  | nil => simp
  | cons entry rest =>
      rw [Nat.mod_eq_of_lt (by simp), List.rotate_append_length_eq]

end

theorem eraseDups_filter {ν : Type} [DecidableEq ν] (keep : ν → Bool) (values : List ν) :
    (values.filter keep).eraseDups = values.eraseDups.filter keep := by
  induction size : values.length using Nat.strong_induction_on generalizing values with
  | _ bound ih =>
      cases values with
      | nil => rfl
      | cons value rest =>
          have shorter : (rest.filter fun other => !other == value).length < bound := by
            rw [← size]
            exact Nat.lt_succ_of_le (List.length_filter_le _ rest)
          have later := ih _ shorter _ rfl
          rw [List.filter_filter] at later
          by_cases kept : keep value = true
          · simp only [List.filter_cons, kept, ↓reduceIte, List.eraseDups_cons, List.filter_filter,
              ← later,
              Bool.and_comm]
          · have same : rest.filter (fun other => keep other && !other == value) = rest.filter keep := by
              apply List.filter_congr
              intro other _
              by_cases equal : other = value
              · simp [equal, kept]
              · simp [equal]
            simp only [List.filter_cons, kept, List.eraseDups_cons, ← later, same,
              Bool.false_eq_true, ↓reduceIte]

theorem eraseDups_nodup {ν : Type} [DecidableEq ν] (values : List ν) : values.eraseDups.Nodup := by
  induction size : values.length using Nat.strong_induction_on generalizing values with
  | _ bound ih =>
      cases values with
      | nil => exact List.nodup_nil
      | cons value rest =>
          have shorter : (rest.filter fun other => !other == value).length < bound := by
            rw [← size]
            exact Nat.lt_succ_of_le (List.length_filter_le _ rest)
          rw [List.eraseDups_cons]
          refine List.nodup_cons.mpr ⟨fun again => ?_, ih _ shorter _ rfl⟩
          simpa using (List.mem_filter.mp (List.mem_eraseDups.mp again)).2

theorem mergeSort_filter (le : ε → ε → Bool) (transitive : ∀ a b c, le a b → le b c → le a c)
    (total : ∀ a b, le a b || le b a) (antisymmetric : ∀ a b, le a b → le b a → a = b) (keep : ε → Bool)
    (entries : List ε) : (entries.filter keep).mergeSort le = (entries.mergeSort le).filter keep := by
  have ordered := List.pairwise_mergeSort transitive total
  have same : ∀ a b, a ∈ (entries.filter keep).mergeSort le → b ∈ (entries.mergeSort le).filter keep →
      le a b = true → le b a = true → a = b :=
    fun a b _ _ => antisymmetric a b
  exact List.Perm.eq_of_pairwise same (ordered _) ((ordered entries).sublist List.filter_sublist)
    ((List.mergeSort_perm _ _).trans ((List.mergeSort_perm entries le).filter keep).symm)

end Hashring.SuccessorRing
