import Hashring.FiniteMap
import Mathlib.Order.Lattice

/-! Maps whose entries give way only to entries of higher rank. A copy that is
offered every entry a live map ever had, in any order and any number of times,
ends equal to the live map. -/
namespace Hashring.VersionedMap

variable {κ ν ρ : Type} [DecidableEq κ] [LinearOrder ρ]

/-- Stores `value` unless the map holds an entry of the same or a higher rank. -/
def offer (rank : ν → ρ) (table : FiniteMap κ ν) (key : κ) (value : ν) : FiniteMap κ ν :=
  match table.lookup key with
  | none => table.insert key value
  | some current => if rank current < rank value then table.insert key value else table

/-- The entry of `key` has at least the given rank. -/
def Reaches (rank : ν → ρ) (table : FiniteMap κ ν) (key : κ) (bound : ρ) : Prop :=
  ∃ current, table.lookup key = some current ∧ bound ≤ rank current

/-- On the keys in scope, `live` holds the entry of highest rank of the history. -/
structure Tracks (rank : ν → ρ) (scope : κ → Prop) (history : κ → ν → Prop) (live : FiniteMap κ ν) :
    Prop where
  recorded : ∀ key value, scope key → live.lookup key = some value → history key value
  newest : ∀ key value, scope key → history key value →
    ∃ current, live.lookup key = some current ∧ (value = current ∨ rank value < rank current)

variable {rank : ν → ρ}

theorem offer_origin (table : FiniteMap κ ν) (key probe : κ) (value found : ν)
    (stored : (offer rank table key value).lookup probe = some found) :
    probe = key ∧ found = value ∨ table.lookup probe = some found := by
  unfold offer at stored
  split at stored
  · rw [FiniteMap.lookup_insert_if] at stored
    by_cases same : probe = key
    · simp only [same, ↓reduceIte, Option.some.injEq] at stored
      exact Or.inl ⟨same, stored.symm⟩
    · simp only [same, ↓reduceIte] at stored
      exact Or.inr stored
  · split at stored
    · rw [FiniteMap.lookup_insert_if] at stored
      by_cases same : probe = key
      · simp only [same, ↓reduceIte, Option.some.injEq] at stored
        exact Or.inl ⟨same, stored.symm⟩
      · simp only [same, ↓reduceIte] at stored
        exact Or.inr stored
    · exact Or.inr stored

theorem offer_reaches (table : FiniteMap κ ν) (key : κ) (value : ν) :
    Reaches rank (offer rank table key value) key (rank value) := by
  unfold offer
  split
  · exact ⟨value, AList.lookup_insert table, le_refl _⟩
  · rename_i current found
    split
    · exact ⟨value, AList.lookup_insert table, le_refl _⟩
    · rename_i notNewer
      exact ⟨current, found, not_lt.mp notNewer⟩

theorem offer_grows (table : FiniteMap κ ν) (key probe : κ) (value : ν) (bound : ρ)
    (reached : Reaches rank table probe bound) :
    Reaches rank (offer rank table key value) probe bound := by
  obtain ⟨held, stored, enough⟩ := reached
  by_cases same : probe = key
  · subst probe
    unfold offer
    rw [stored]
    by_cases newer : rank held < rank value
    · simp only [newer, ↓reduceIte]
      exact ⟨value, AList.lookup_insert table, le_trans enough (le_of_lt newer)⟩
    · simp only [newer, ↓reduceIte]
      exact ⟨held, stored, enough⟩
  · refine ⟨held, ?_, enough⟩
    unfold offer
    split
    · rw [FiniteMap.lookup_insert_if, if_neg same]
      exact stored
    · split
      · rw [FiniteMap.lookup_insert_if, if_neg same]
        exact stored
      · exact stored

/-- `after` comes from `before` by offers of entries that satisfy `offered`. -/
structure Extends (rank : ν → ρ) (offered : κ → ν → Prop) (before after : FiniteMap κ ν) : Prop where
  origin : ∀ key found, after.lookup key = some found → before.lookup key = some found ∨ offered key found
  grows : ∀ key bound, Reaches rank before key bound → Reaches rank after key bound

namespace Extends

variable {offered : κ → ν → Prop}

theorem refl (table : FiniteMap κ ν) : Extends rank offered table table where
  origin _ _ found := Or.inl found
  grows _ _ reached := reached

theorem trans {first second third : FiniteMap κ ν} (early : Extends rank offered first second)
    (late : Extends rank offered second third) : Extends rank offered first third where
  origin key found stored := by
    rcases late.origin key found stored with older | fresh
    · exact early.origin key found older
    · exact Or.inr fresh
  grows key bound reached := late.grows key bound (early.grows key bound reached)

theorem offer (table : FiniteMap κ ν) (key : κ) (value : ν) (fresh : offered key value) :
    Extends rank offered table (VersionedMap.offer rank table key value) where
  origin probe found stored := by
    rcases offer_origin table key probe value found stored with ⟨rfl, rfl⟩ | older
    · exact Or.inr fresh
    · exact Or.inl older
  grows probe bound reached := offer_grows table key probe value bound reached

end Extends

namespace Tracks

variable {scope : κ → Prop} {history : κ → ν → Prop} {live : FiniteMap κ ν}

theorem agree (tracked : Tracks rank scope history live) (other : FiniteMap κ ν)
    (same : ∀ key, scope key → other.lookup key = live.lookup key) : Tracks rank scope history other where
  recorded key value inside found :=
    tracked.recorded key value inside ((same key inside).symm.trans found)
  newest key value inside past := by
    obtain ⟨current, found, order⟩ := tracked.newest key value inside past
    exact ⟨current, (same key inside).trans found, order⟩

theorem advance (tracked : Tracks rank scope history live) (updated : FiniteMap κ ν) (key : κ) (value : ν)
    (newer : ∀ current, live.lookup key = some current → rank current < rank value)
    (stored : ∀ probe, updated.lookup probe = if probe = key then some value else live.lookup probe) :
    Tracks rank scope (fun probe entry => history probe entry ∨ probe = key ∧ entry = value) updated where
  recorded probe entry inside found := by
    rw [stored] at found
    by_cases same : probe = key
    · simp only [same, ↓reduceIte, Option.some.injEq] at found
      exact Or.inr ⟨same, found.symm⟩
    · simp only [same, ↓reduceIte] at found
      exact Or.inl (tracked.recorded probe entry inside found)
  newest probe entry inside past := by
    rw [stored]
    by_cases same : probe = key
    · subst probe
      refine ⟨value, by simp, ?_⟩
      rcases past with old | ⟨_, latest⟩
      · obtain ⟨current, found, order⟩ := tracked.newest key entry inside old
        have below := newer current found
        rcases order with rfl | lower
        · exact Or.inr below
        · exact Or.inr (lt_trans lower below)
      · exact Or.inl latest
    · simp only [same, ↓reduceIte]
      rcases past with old | ⟨here, _⟩
      · exact tracked.newest probe entry inside old
      · exact absurd here same

/-- A copy drawn from the history that reaches all of it equals the live map
on the scope and is empty outside. -/
theorem copied [DecidablePred scope] (tracked : Tracks rank scope history live) (copy : FiniteMap κ ν)
    (drawn : ∀ key value, copy.lookup key = some value → scope key ∧ history key value)
    (complete : ∀ key value, scope key → history key value → Reaches rank copy key (rank value))
    (key : κ) :
    copy.lookup key = if scope key then live.lookup key else none := by
  by_cases inside : scope key
  · simp only [inside, ↓reduceIte]
    cases held : live.lookup key with
    | none =>
        cases found : copy.lookup key with
        | none => rfl
        | some value =>
            obtain ⟨current, stored, _⟩ := tracked.newest key value inside (drawn key value found).2
            exact absurd (held.symm.trans stored) (by simp)
    | some current =>
        obtain ⟨value, found, enough⟩ :=
          complete key current inside (tracked.recorded key current inside held)
        obtain ⟨newest, stored, order⟩ := tracked.newest key value inside (drawn key value found).2
        obtain rfl := Option.some.inj (held.symm.trans stored)
        rcases order with rfl | lower
        · exact found
        · exact absurd enough (not_le.mpr lower)
  · simp only [inside, ↓reduceIte]
    cases found : copy.lookup key with
    | none => rfl
    | some value => exact absurd (drawn key value found).1 inside

end Tracks

section Merge

variable {items : List (κ × ν)}

/-- Entries of one rank under one key are one entry. -/
def Agree (rank : ν → ρ) (items : List (κ × ν)) : Prop :=
  ∀ first ∈ items, ∀ second ∈ items, first.1 = second.1 → rank first.2 = rank second.2 → first = second

def HoldsNewest (rank : ν → ρ) (items : List (κ × ν)) (table : FiniteMap κ ν) : Prop :=
  ∀ key value, table.lookup key = some value ↔
    (key, value) ∈ items ∧ ∀ other, (key, other) ∈ items → rank other ≤ rank value

/-- The entries offered to an empty map, each once and in order. -/
def offerAll (rank : ν → ρ) (items : List (κ × ν)) : FiniteMap κ ν :=
  items.foldl (fun table item => offer rank table item.1 item.2) ∅

theorem holds_newest_of_reached {table : FiniteMap κ ν} (agree : Agree rank items)
    (drawn : ∀ key value, table.lookup key = some value → (key, value) ∈ items)
    (reached : ∀ item ∈ items, Reaches rank table item.1 (rank item.2)) :
    HoldsNewest rank items table := by
  intro key value
  constructor
  · intro found
    refine ⟨drawn key value found, fun other listed => ?_⟩
    obtain ⟨current, held, enough⟩ := reached _ listed
    obtain rfl := Option.some.inj (found.symm.trans held)
    exact enough
  · rintro ⟨listed, highest⟩
    obtain ⟨current, held, enough⟩ := reached _ listed
    have rest := highest current (drawn key current held)
    obtain ⟨_, rfl⟩ := Prod.mk.inj
      (agree _ (drawn key current held) _ listed rfl (le_antisymm rest enough))
    exact held

theorem HoldsNewest.unique {left right : FiniteMap κ ν} (first : HoldsNewest rank items left)
    (second : HoldsNewest rank items right) (key : κ) : left.lookup key = right.lookup key := by
  apply Option.ext
  intro value
  rw [first key value, second key value]

theorem offer_all_newest (agree : Agree rank items) : HoldsNewest rank items (offerAll rank items) := by
  have offers : ∀ (rest : List (κ × ν)) (table : FiniteMap κ ν), (∀ item ∈ rest, item ∈ items) →
      Extends rank (fun key value => (key, value) ∈ items) table
          (rest.foldl (fun table item => offer rank table item.1 item.2) table) ∧
        ∀ item ∈ rest, Reaches rank
          (rest.foldl (fun table item => offer rank table item.1 item.2) table) item.1
          (rank item.2) := by
    intro rest
    induction rest with
    | nil =>
        intro table _
        exact ⟨.refl table, fun _ listed => absurd listed (by simp)⟩
    | cons first rest ih =>
        intro table listed
        obtain ⟨extended, reached⟩ := ih (offer rank table first.1 first.2)
          (fun item member => listed item (List.mem_cons_of_mem _ member))
        refine ⟨(Extends.offer table first.1 first.2 (listed first List.mem_cons_self)).trans
          extended, ?_⟩
        intro item member
        rcases List.mem_cons.mp member with rfl | later
        · exact extended.grows _ _ (offer_reaches table item.1 item.2)
        · exact reached item later
  obtain ⟨extended, reached⟩ := offers items ∅ (fun _ listed => listed)
  refine holds_newest_of_reached agree (fun key value found => ?_) reached
  exact (extended.origin key value found).resolve_left (by simp)

end Merge
end Hashring.VersionedMap
