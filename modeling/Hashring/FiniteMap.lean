import Mathlib.Data.List.AList
import Mathlib.Tactic.Ring

/-! Finite maps with unique keys. The representation is the association list
of Mathlib, so insertion order is visible to an enumeration but never to a
lookup. The operations added here are the ones a mutable hash table offers on
top of lookup, insertion and removal: retaining the entries that satisfy a
predicate, rewriting the values in place, and listing them. -/
namespace Hashring

variable {κ ν ω : Type} [DecidableEq κ]

abbrev FiniteMap (κ ν : Type) := AList (fun _ : κ => ν)

theorem filter_eq_self {found : Option ν} {keep : ν → Bool}
    (kept : ∀ value, found = some value → keep value = true) :
    found.filter keep = found := by
  cases found with
  | none => rfl
  | some value => exact Option.filter_some_pos (kept value rfl)

namespace FiniteMap

def retain (keep : κ → ν → Bool) (table : FiniteMap κ ν) : FiniteMap κ ν :=
  ⟨table.entries.filter fun entry => keep entry.1 entry.2,
    table.nodupKeys.sublist List.filter_sublist⟩

def mapValues (f : κ → ν → ω) (table : FiniteMap κ ν) : FiniteMap κ ω where
  entries := table.entries.map fun entry => ⟨entry.1, f entry.1 entry.2⟩
  nodupKeys := by
    have same : (table.entries.map fun entry =>
        (⟨entry.1, f entry.1 entry.2⟩ : Sigma fun _ : κ => ω)).keys = table.entries.keys := by
      simp [List.keys, Function.comp_def]
    unfold List.NodupKeys
    rw [same]
    exact table.keys_nodup

def values (table : FiniteMap κ ν) : List ν := table.entries.map fun entry => entry.2

def modify (key : κ) (f : ν → ν) (table : FiniteMap κ ν) : FiniteMap κ ν :=
  table.mapValues fun candidate value => if candidate = key then f value else value

theorem lookup_some_iff (table : FiniteMap κ ν) (key : κ) (value : ν) :
    table.lookup key = some value ↔ (⟨key, value⟩ : Sigma fun _ : κ => ν) ∈ table.entries :=
  AList.mem_lookup_iff

theorem lookup_insert_if (table : FiniteMap κ ν) (key probe : κ) (value : ν) :
    (table.insert key value).lookup probe = if probe = key then some value else table.lookup probe := by
  by_cases same : probe = key
  · subst probe
    simp
  · simp [same]

theorem lookup_erase_if (table : FiniteMap κ ν) (key probe : κ) :
    (table.erase key).lookup probe = if probe = key then none else table.lookup probe := by
  by_cases same : probe = key
  · subst probe
    simp
  · simp [same]

@[simp]
theorem lookup_retain (table : FiniteMap κ ν) (keep : κ → ν → Bool) (key : κ) :
    (table.retain keep).lookup key = (table.lookup key).filter (keep key) := by
  apply Option.ext
  intro value
  rw [lookup_some_iff, Option.filter_eq_some_iff, lookup_some_iff]
  simp [retain]

@[simp]
theorem lookup_mapValues (table : FiniteMap κ ν) (f : κ → ν → ω) (key : κ) :
    (table.mapValues f).lookup key = (table.lookup key).map (f key) := by
  apply Option.ext
  intro value
  rw [lookup_some_iff, Option.map_eq_some_iff]
  constructor
  · intro member
    obtain ⟨⟨stored, old⟩, inside, same⟩ := List.mem_map.mp member
    obtain ⟨rfl, mapped⟩ := Sigma.mk.inj_iff.mp same
    exact ⟨old, (lookup_some_iff table stored old).mpr inside, eq_of_heq mapped⟩
  · rintro ⟨old, found, rfl⟩
    exact List.mem_map.mpr ⟨⟨key, old⟩, (lookup_some_iff table key old).mp found, rfl⟩

@[simp]
theorem lookup_modify (table : FiniteMap κ ν) (key probe : κ) (f : ν → ν) :
    (table.modify key f).lookup probe =
      (table.lookup probe).map fun value => if probe = key then f value else value := by
  simp [modify]

theorem mem_values_iff (table : FiniteMap κ ν) (value : ν) :
    value ∈ table.values ↔ ∃ key, table.lookup key = some value := by
  simp only [values, List.mem_map, lookup_some_iff]
  constructor
  · rintro ⟨⟨key, stored⟩, member, rfl⟩
    exact ⟨key, member⟩
  · rintro ⟨key, member⟩
    exact ⟨⟨key, value⟩, member, rfl⟩

theorem mem_iff_lookup (table : FiniteMap κ ν) (key : κ) :
    key ∈ table ↔ ∃ value, table.lookup key = some value := by
  rw [← AList.lookup_isSome, Option.isSome_iff_exists]

theorem mem_entries_insert {table : FiniteMap κ ν} {key : κ} {value : ν} {entry : Sigma fun _ : κ => ν}
    (member : entry ∈ (table.insert key value).entries) :
    entry = ⟨key, value⟩ ∨ entry ∈ table.entries := by
  have found := (lookup_some_iff (table.insert key value) entry.1 entry.2).mpr member
  rw [lookup_insert_if] at found
  split at found
  · rename_i same
    refine .inl (Sigma.ext same ?_)
    exact heq_of_eq (Option.some.inj found).symm
  · exact .inr ((lookup_some_iff table entry.1 entry.2).mp found)

theorem mem_entries_erase {table : FiniteMap κ ν} {key : κ} {entry : Sigma fun _ : κ => ν}
    (member : entry ∈ (table.erase key).entries) : entry ∈ table.entries := by
  have found := (lookup_some_iff (table.erase key) entry.1 entry.2).mpr member
  rw [lookup_erase_if] at found
  split at found
  · exact absurd found (by simp)
  · exact (lookup_some_iff table entry.1 entry.2).mp found

/-- A quantity summed over the stored values. -/
def total (weigh : ν → Nat) (table : FiniteMap κ ν) : Nat := (table.values.map weigh).sum

section Total

variable {weigh : ν → Nat} {table : FiniteMap κ ν} {key : κ}

omit [DecidableEq κ] in
theorem total_perm {other : FiniteMap κ ν} (same : table.entries.Perm other.entries) :
    total weigh table = total weigh other :=
  ((same.map _).map weigh).sum_nat

theorem total_erase {value : ν} (found : table.lookup key = some value) :
    total weigh (table.erase key) + weigh value = total weigh table := by
  have listed : key ∈ table.entries.keys :=
    List.mem_keys_of_mem ((lookup_some_iff table key value).mp found)
  obtain ⟨stored, early, late, fresh, split, erased⟩ := List.exists_of_kerase listed
  have present : (⟨key, stored⟩ : Sigma fun _ : κ => ν) ∈ table.entries := by simp [split]
  obtain rfl : stored = value :=
    Option.some.inj (((lookup_some_iff table key stored).mpr present).symm.trans found)
  have shrunk : (table.erase key).entries = early ++ late := erased
  simp only [total, values, shrunk, split, List.map_append, List.map_cons, List.sum_append, List.sum_cons]
  omega

theorem total_insert (value : ν) : total weigh (table.insert key value) = weigh value + total weigh
    (table.erase key) := by
  have erased : (table.erase key).entries = table.entries.kerase key := rfl
  simp [total, values, erased]

theorem total_insert_new (absent : table.lookup key = none) (value : ν) :
    total weigh (table.insert key value) = weigh value + total weigh table := by
  have fresh : (table.insert key value).entries = ⟨key, value⟩ :: table.entries :=
    AList.entries_insert_of_notMem (AList.lookup_eq_none.mp absent)
  simp only [total, values, fresh, List.map_cons, List.sum_cons]

/-- The sum depends on what the table answers, not on its order. -/
theorem total_congr {weighed : ω → Nat} {other : FiniteMap κ ω}
    (same : ∀ probe, (table.lookup probe).map weigh = (other.lookup probe).map weighed) :
    total weigh table = total weighed other := by
  have left : total weigh table = total id (table.mapValues fun _ => weigh) := by
    simp [total, values, mapValues, Function.comp_def]
  have right : total weighed other = total id (other.mapValues fun _ => weighed) := by
    simp [total, values, mapValues, Function.comp_def]
  rw [left, right]
  apply total_perm
  apply List.lookup_ext (mapValues _ table).nodupKeys (mapValues _ other).nodupKeys
  intro probe value
  have equal : (table.mapValues fun _ => weigh).lookup probe =
      (other.mapValues fun _ => weighed).lookup probe := by
    rw [lookup_mapValues, lookup_mapValues, same probe]
  exact Eq.to_iff (congrArg (value ∈ ·) equal)

omit [DecidableEq κ] in
theorem total_grow (chosen : ν → Bool) (grow : ν → ν) (amount : Nat)
    (grown : ∀ value, chosen value = true → weigh (grow value) = weigh value + amount) :
    total weigh (table.mapValues fun _ value => if chosen value then grow value else value) =
      total weigh table + amount * table.values.countP chosen := by
  simp only [total, values, mapValues, List.map_map]
  induction table.entries with
  | nil => rfl
  | cons entry rest ih =>
      simp only [List.map_cons, List.sum_cons, List.countP_cons, Function.comp_apply] at ih ⊢
      rw [ih]
      by_cases here : chosen entry.2 = true
      · rw [if_pos here, if_pos here, grown _ here]
        ring
      · rw [if_neg here, if_neg here]
        ring

theorem total_modify {value : ν} (found : table.lookup key = some value) (f : ν → ν) :
    total weigh (table.modify key f) + weigh value = total weigh table + weigh (f value) := by
  have replaced : total weigh (table.modify key f) = total weigh (table.insert key (f value)) := by
    apply total_congr
    intro probe
    congr 1
    rw [lookup_modify, lookup_insert_if]
    by_cases here : probe = key
    · subst here
      simp [found]
    · simp [here]
  have erased : total weigh (table.erase key) + weigh value = total weigh table := total_erase found
  rw [replaced, total_insert]
  omega

theorem weigh_le_total {value : ν} (found : table.lookup key = some value) :
    weigh value ≤ total weigh table := by
  have split : total weigh (table.erase key) + weigh value = total weigh table := total_erase found
  omega

end Total

end FiniteMap
end Hashring
