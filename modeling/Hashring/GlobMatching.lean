import Mathlib.Tactic.Ring
import Hashring.Glob

/-! What the glob matcher answers and how long it takes. It goes back to the last
star only: the elements between two stars take single bytes, so a later place for
the first star never leaves more of the text to the second. -/
namespace Hashring.Glob

open Wildcards

/-! ### What compiling keeps -/

def pushAll (elements : List Element) : List Element → List Element
  | [] => elements
  | element :: rest =>
      if element.isStar && elements.getLast?.any Element.isStar then pushAll elements rest
      else pushAll (elements ++ [element]) rest

def fixedCount (elements : List Element) : Nat := elements.countP fun element => !element.isStar

theorem compile_eq (fuel : Nat) (elements : List Element) (fixed : Nat) (pattern : Bytes)
    (within : fixed ≤ maxFixedElements) :
    compile fuel elements fixed pattern =
      if maxFixedElements < fixed + fixedCount (elementsOf fuel pattern) then ⟨[], true⟩
      else ⟨pushAll elements (elementsOf fuel pattern), false⟩ := by
  induction fuel generalizing elements fixed pattern with
  | zero => exact (if_neg (by simpa [elementsOf, fixedCount] using within)).symm
  | succ fuel ih =>
      cases pattern with
      | nil => exact (if_neg (by simpa [elementsOf, fixedCount] using within)).symm
      | cons first rest =>
          rw [compile, elementsOf]
          rcases nextElement first rest with ⟨element, next⟩
          dsimp only
          rw [fixedCount, List.countP_cons, ← fixedCount, pushAll]
          cases kind : element.isStar with
          | true =>
              simp only [↓reduceIte, Bool.true_and, Bool.not_true, Bool.false_eq_true, Nat.add_zero]
              split
              · exact ih elements fixed next within
              · exact ih (elements ++ [element]) fixed next within
          | false =>
              simp only [Bool.false_eq_true, ↓reduceIte, Bool.false_and, Bool.not_false]
              -- The pattern gives up at its first element over the bound, as if it had read
              -- them all.
              by_cases room : maxFixedElements < fixed + 1
              · rw [if_pos room, if_pos (by omega)]
              · rw [if_neg room, ih _ _ _ (by omega), Nat.add_right_comm fixed, Nat.add_assoc fixed]

theorem piece_star {element : Element} (kind : element.isStar = true) : element = .star := by
  cases element with
  | star => rfl
  | anyByte => exact absurd kind (by decide)
  | byte literal => exact absurd kind (by simp [Element.isStar])
  | «class» accepts => exact absurd kind (by simp [Element.isStar])

/-- Leaving out a star behind a star changes no cut. -/
theorem cuts_push_all (elements rest : List Element) (text : Bytes) :
    Cuts ((pushAll elements rest).map Element.piece) text ↔
      Cuts ((elements ++ rest).map Element.piece) text := by
  induction rest generalizing elements with
  | nil => rw [pushAll, List.append_nil]
  | cons element rest ih =>
      rw [pushAll]
      split
      · rename_i doubled
        rw [ih]
        rw [Bool.and_eq_true] at doubled
        obtain rfl := piece_star doubled.1
        obtain ⟨last, found, kind⟩ := (Option.any_eq_true _ _).mp doubled.2
        obtain ⟨front, rfl⟩ := List.getLast?_eq_some_iff.mp found
        obtain rfl := piece_star kind
        simp only [List.map_append, List.map_cons, List.append_assoc, List.cons_append, List.nil_append]
        exact (cuts_append_congr (fun items => cuts_run_run _ items) _ text).symm
      · rw [ih, List.append_assoc]
        rfl

theorem singles_pieces (elements : List Element) :
    singles (elements.map Element.piece) = fixedCount elements := by
  induction elements with
  | nil => rfl
  | cons element rest ih =>
      rw [fixedCount, List.countP_cons, ← fixedCount, List.map_cons]
      cases element with
      | star => exact ih
      | anyByte => exact congrArg Nat.succ ih
      | byte literal => exact congrArg Nat.succ ih
      | «class» accepts => exact congrArg Nat.succ ih

/-! ### What is left to match -/

variable {elements : List Element} {text : Bytes}

/-- The text from `t` on is cut by the elements from `p` on. -/
def Remaining (elements : List Element) (text : Bytes) (p t : Nat) : Prop :=
  Cuts ((elements.drop p).map Element.piece) (text.drop t)

theorem drop_of_get {α : Type} {items : List α} {place : Nat} {item : α}
    (found : items[place]? = some item) :
    items.drop place = item :: items.drop (place + 1) := by
  obtain ⟨within, rfl⟩ := List.getElem?_eq_some_iff.mp found
  exact List.drop_eq_getElem_cons within

theorem drop_of_none {α : Type} {items : List α} {place : Nat} (missing : items[place]? = none) :
    items.drop place = [] :=
  List.drop_eq_nil_iff.mpr (List.getElem?_eq_none_iff.mp missing)

theorem remaining_one {p t : Nat} {element : Element} {item : Byte} (found : elements[p]? = some element)
    (single : element.isStar = false) (held : text[t]? = some item) :
    Remaining elements text p t ↔ element.accepts item = true ∧ Remaining elements text (p + 1)
      (t + 1) := by
  unfold Remaining
  rw [drop_of_get found, drop_of_get held, List.map_cons, piece_one single fun _ => Iff.rfl]
  exact cuts_one_cons _ _ _ _

theorem remaining_star {p t : Nat} (found : elements[p]? = some .star) :
    Remaining elements text p t ↔ ∃ taken, Remaining elements text (p + 1) (t + taken) := by
  unfold Remaining
  rw [drop_of_get found, List.map_cons]
  refine (cuts_run_iff _ _).trans (exists_congr fun taken => ?_)
  rw [List.drop_drop]

theorem remaining_end {p t : Nat} {item : Byte} (ended : elements[p]? = none)
    (held : text[t]? = some item) :
    ¬ Remaining elements text p t := by
  unfold Remaining
  rw [drop_of_none ended, drop_of_get held]
  simp

theorem remaining_done {p t : Nat} (done : text[t]? = none) :
    Remaining elements text p t ↔ (elements.drop p).all Element.isStar = true := by
  unfold Remaining
  rw [drop_of_none done, cuts_empty_iff, List.all_eq_true, List.forall_mem_map]
  refine forall₂_congr fun element _ => ?_
  cases element with
  | star => exact iff_of_true rfl rfl
  | anyByte => exact iff_of_false (by simp [Element.piece]) (by decide)
  | byte literal => exact iff_of_false (by simp [Element.piece]) (by simp [Element.isStar])
  | «class» accepts => exact iff_of_false (by simp [Element.piece]) (by simp [Element.isStar])

theorem remaining_behind {k p c : Nat} (before : k ≤ p) (within : p ≤ elements.length)
    (single : ∀ i element, k ≤ i → i < p → elements[i]? = some element → element.isStar = false)
    (left : Remaining elements text k c) : Remaining elements text p (c + (p - k)) := by
  have split : elements.drop k = (elements.drop k).take (p - k) ++ elements.drop p := by
    rw [← Nat.add_sub_cancel' before, ← List.drop_drop, Nat.add_sub_cancel_left, List.take_append_drop]
  have length : ((elements.drop k).take (p - k)).length = p - k := by
    rw [List.length_take, List.length_drop]
    omega
  unfold Remaining at left ⊢
  rw [split, List.map_append] at left
  have behind := (cuts_behind_singles ?_ left).2
  · rw [List.length_map, length, List.drop_drop] at behind
    exact behind
  · intro piece member
    obtain ⟨element, inside, rfl⟩ := List.mem_map.mp member
    obtain ⟨place, bound, rfl⟩ := List.mem_iff_getElem.mp inside
    have found : elements[k + place]? = some ((elements.drop k).take (p - k))[place] := by
      rw [← List.getElem?_drop, List.getElem_take, List.getElem?_eq_getElem]
    rw [length] at bound
    rw [piece_one (single _ _ (Nat.le_add_right _ _) (by omega) found) fun _ => Iff.rfl]
    trivial

/-! ### The loop -/

/-- The element behind the last star and the text it has consumed, or the start. -/
def anchor (lastStar : Option (Nat × Nat)) : Nat × Nat := lastStar.getD (0, 0)

/-- Where the loop stands: the elements since the last star have each taken the
byte they stand at, and the whole text matches exactly when the attempt does or
the last star can take more. -/
structure Progress (elements : List Element) (text : Bytes) (p t : Nat)
    (lastStar : Option (Nat × Nat)) : Prop where
  within : p ≤ elements.length
  before : (anchor lastStar).1 ≤ p
  place : t = (anchor lastStar).2 + (p - (anchor lastStar).1)
  single : ∀ i element, (anchor lastStar).1 ≤ i → i < p → elements[i]? = some element →
    element.isStar = false
  attempt : Remaining elements text (anchor lastStar).1 (anchor lastStar).2 ↔ Remaining elements text p t
  whole : ∀ k c, lastStar = some (k, c) →
    (Remaining elements text 0 0 ↔ ∃ taken, Remaining elements text k (c + taken))

namespace Progress

variable {p t : Nat} {lastStar : Option (Nat × Nat)}

theorem start : Progress elements text 0 0 none where
  within := Nat.zero_le _
  before := Nat.le_refl _
  place := rfl
  single := fun _ _ _ early _ => absurd early (Nat.not_lt_zero _)
  attempt := Iff.rfl
  whole := fun _ _ none_ => absurd none_ (by simp)

/-- The star may take more, but whatever it takes leaves this much at `p`. -/
theorem later (progress : Progress elements text p t lastStar) (matches_ : Remaining elements text 0 0) :
    ∃ taken, Remaining elements text p (t + taken) := by
  cases lastStar with
  | none => exact ⟨0, progress.attempt.mp matches_⟩
  | some held =>
      obtain ⟨taken, left⟩ := (progress.whole held.1 held.2 rfl).mp matches_
      have behind := remaining_behind progress.before progress.within progress.single left
      refine ⟨taken, ?_⟩
      rw [progress.place, Nat.add_right_comm]
      exact behind

theorem matched (progress : Progress elements text p t lastStar) (attempt : Remaining elements text p t) :
    Remaining elements text 0 0 := by
  cases lastStar with
  | none => exact progress.attempt.mpr attempt
  | some held => exact (progress.whole held.1 held.2 rfl).mpr ⟨0, progress.attempt.mpr attempt⟩

theorem take {element : Element} {item : Byte} (progress : Progress elements text p t lastStar)
    (found : elements[p]? = some element) (kind : element.isStar = false) (held : text[t]? = some item)
    (accepts : element.accepts item = true) : Progress elements text (p + 1) (t + 1) lastStar where
  within := (List.getElem?_eq_some_iff.mp found).1
  before := progress.before.trans (Nat.le_succ _)
  place := by
    have before := progress.before
    have place := progress.place
    omega
  single := by
    intro i other from_ until_ foundOther
    rcases Nat.lt_succ_iff_lt_or_eq.mp until_ with earlier | rfl
    · exact progress.single i other from_ earlier foundOther
    · obtain rfl := Option.some.inj (found.symm.trans foundOther)
      exact kind
  attempt := progress.attempt.trans ((remaining_one found kind held).trans (and_iff_right accepts))
  whole := progress.whole

theorem atStar (progress : Progress elements text p t lastStar) (found : elements[p]? = some .star) :
    Progress elements text (p + 1) t (some (p + 1, t)) where
  within := (List.getElem?_eq_some_iff.mp found).1
  before := Nat.le_refl _
  place := by simp [anchor]
  single := fun i _ from_ until_ _ => absurd until_ (Nat.not_lt.mpr from_)
  attempt := Iff.rfl
  whole := by
    intro k c same
    obtain ⟨rfl, rfl⟩ := Prod.mk.inj (Option.some.inj same)
    constructor
    · intro matches_
      obtain ⟨taken, left⟩ := progress.later matches_
      obtain ⟨more, rest⟩ := (remaining_star found).mp left
      exact ⟨taken + more, by rwa [← Nat.add_assoc]⟩
    · intro left
      exact progress.matched ((remaining_star found).mpr left)

theorem retry {k c : Nat} (progress : Progress elements text p t (some (k, c)))
    (failed : ¬ Remaining elements text p t) :
    Progress elements text k (c + 1) (some (k, c + 1)) where
  within := progress.before.trans progress.within
  before := Nat.le_refl _
  place := by simp [anchor]
  single := fun i _ from_ until_ _ => absurd until_ (Nat.not_lt.mpr from_)
  attempt := Iff.rfl
  whole := by
    intro k' c' same
    obtain ⟨rfl, rfl⟩ := Prod.mk.inj (Option.some.inj same)
    rw [progress.whole k c rfl]
    constructor
    · rintro ⟨taken, left⟩
      cases taken with
      | zero => exact absurd (progress.attempt.mp left) failed
      | succ taken => exact ⟨taken, by rwa [Nat.add_assoc, Nat.add_comm 1]⟩
    · rintro ⟨taken, left⟩
      exact ⟨taken + 1, by rwa [Nat.add_comm taken, ← Nat.add_assoc]⟩

theorem done (progress : Progress elements text p t lastStar) (ended : text[t]? = none) :
    Remaining elements text 0 0 ↔ (elements.drop p).all Element.isStar = true := by
  have short := List.getElem?_eq_none_iff.mp ended
  constructor
  · intro matches_
    obtain ⟨taken, left⟩ := progress.later matches_
    exact (remaining_done (List.getElem?_eq_none_iff.mpr (by omega))).mp left
  · intro stars
    exact progress.matched ((remaining_done ended).mpr stars)

theorem failed (progress : Progress elements text p t none) (mismatch : ¬ Remaining elements text p t) :
    ¬ Remaining elements text 0 0 := fun matches_ => mismatch (progress.attempt.mp matches_)

end Progress

/-- A byte that the element at `p` does not take ends the attempt. -/
theorem mismatch_fails {p t : Nat} {item : Byte} (held : text[t]? = some item)
    (notStar : elements[p]? ≠ some .star)
    (refused : elements[p]?.any (·.accepts item) = false) : ¬ Remaining elements text p t := by
  rcases found : elements[p]? with _ | element
  · exact remaining_end found held
  · rw [found] at refused notStar
    have kind : element.isStar = false := by
      rw [Bool.eq_false_iff]
      exact fun star => notStar (congrArg some (piece_star star))
    intro left
    have accepts := ((remaining_one found kind held).mp left).1
    exact absurd accepts (by simpa using refused)

/-- How many steps are left at most: each element from the last star on meets each
byte from there on once. -/
def stepsLeft (elements : List Element) (text : Bytes) (p : Nat) (lastStar : Option (Nat × Nat)) : Nat :=
  (elements.length + 1 - (anchor lastStar).1) * (text.length - (anchor lastStar).2) -
    (p - (anchor lastStar).1)

section Steps

variable {p t : Nat} {lastStar : Option (Nat × Nat)}
  (progress : Progress elements text p t lastStar) {item : Byte}
  (held : text[t]? = some item)
include progress held

/-- The sides of the rectangle of steps that are left, from the attempt on. -/
theorem steps_bounds : p - (anchor lastStar).1 < elements.length + 1 - (anchor lastStar).1 ∧
    p - (anchor lastStar).1 < text.length - (anchor lastStar).2 := by
  have inside := (List.getElem?_eq_some_iff.mp held).1
  have within := progress.within
  have before := progress.before
  have place := progress.place
  omega

theorem steps_left_pos : 0 < stepsLeft elements text p lastStar := by
  obtain ⟨rows, columns⟩ := steps_bounds progress held
  unfold stepsLeft
  generalize elements.length + 1 - (anchor lastStar).1 = height at rows
  generalize text.length - (anchor lastStar).2 = width at columns
  have area : height * 1 ≤ height * width := Nat.mul_le_mul_left height (by omega)
  omega

theorem steps_left_take :
    stepsLeft elements text (p + 1) lastStar < stepsLeft elements text p lastStar := by
  have positive := steps_left_pos progress held
  have before := progress.before
  unfold stepsLeft at positive ⊢
  omega

theorem steps_left_star :
    stepsLeft elements text (p + 1) (some (p + 1, t)) < stepsLeft elements text p lastStar := by
  obtain ⟨rows, columns⟩ := steps_bounds progress held
  have before := progress.before
  have place := progress.place
  unfold stepsLeft
  rw [show anchor (some (p + 1, t)) = (p + 1, t) from rfl]
  dsimp only
  generalize anchor lastStar = from_ at *
  obtain ⟨height, tall⟩ := Nat.exists_eq_add_of_lt rows
  obtain ⟨width, wide⟩ := Nat.exists_eq_add_of_lt columns
  have rowsLeft : elements.length + 1 - (p + 1) = height := by omega
  have columnsLeft : text.length - t = width + 1 := by omega
  rw [rowsLeft, columnsLeft, tall, wide, Nat.sub_self, Nat.sub_zero]
  generalize p - from_.1 = taken
  have area : (taken + height + 1) * (taken + width + 1) = height * (width + 1) +
      (taken * height + (taken + 1) * (taken + width + 1)) := by
    ring
  rw [area]
  have rest : taken + 1 ≤ (taken + 1) * (taken + width + 1) := Nat.le_mul_of_pos_right _ (by omega)
  omega

end Steps

theorem steps_left_retry {p t k c : Nat} (progress : Progress elements text p t (some (k, c)))
    {item : Byte} (held : text[t]? = some item) :
    stepsLeft elements text k (some (k, c + 1)) < stepsLeft elements text p (some (k, c)) := by
  obtain ⟨rows, columns⟩ := steps_bounds progress held
  unfold stepsLeft
  rw [show anchor (some (k, c + 1)) = (k, c + 1) from rfl, show anchor (some (k, c)) = (k, c)
    from rfl] at *
  dsimp only at rows columns ⊢
  obtain ⟨width, wide⟩ := Nat.exists_eq_add_of_lt columns
  rw [Nat.sub_self, Nat.sub_zero, show text.length - (c + 1) = p - k + width by omega, wide, Nat.mul_succ]
  omega

theorem match_loop_spec (budget : Nat) {p t : Nat} {lastStar : Option (Nat × Nat)}
    (progress : Progress elements text p t lastStar) :
    (∀ answer, (matchLoop elements text budget p t lastStar).1 = some answer →
      (answer = true ↔ Remaining elements text 0 0)) ∧
    (stepsLeft elements text p lastStar ≤ budget → (matchLoop elements text budget p t lastStar).1 ≠
      none) := by
  induction budget generalizing p t lastStar with
  | zero =>
      unfold matchLoop
      rcases held : text[t]? with _ | item
      · refine ⟨fun answer same => ?_, fun _ => by simp⟩
        obtain rfl := Option.some.inj same
        exact (progress.done held).symm
      · refine ⟨fun answer same => absurd same (by simp), fun enough => ?_⟩
        have positive := steps_left_pos progress held
        omega
  | succ budget ih =>
      unfold matchLoop
      rcases held : text[t]? with _ | item
      · refine ⟨fun answer same => ?_, fun _ => by simp⟩
        obtain rfl := Option.some.inj same
        exact (progress.done held).symm
      · dsimp only
        split
        · rename_i found
          obtain ⟨exact_, answers⟩ := ih (progress.atStar found)
          have fewer := steps_left_star progress held
          exact ⟨exact_, fun enough => answers (by omega)⟩
        -- A byte is taken, or the last star takes one more byte before it is tried again.
        · rename_i notStar
          cases accepted : elements[p]?.any (·.accepts item) with
          | true =>
              rw [if_pos rfl]
              obtain ⟨element, found, accepts⟩ := (Option.any_eq_true _ _).mp accepted
              have kind : element.isStar = false := by
                rw [Bool.eq_false_iff]
                exact fun star => notStar (found.trans (congrArg some (piece_star star)))
              obtain ⟨exact_, answers⟩ := ih (progress.take found kind held accepts)
              have fewer := steps_left_take progress held
              exact ⟨exact_, fun enough => answers (by omega)⟩
          | false =>
              rw [if_neg (by simp)]
              have fails := mismatch_fails held notStar accepted
              rcases lastStar with _ | ⟨k, c⟩
              · refine ⟨fun answer same => ?_, fun _ => by simp⟩
                obtain rfl := Option.some.inj same
                exact iff_of_false (by simp) (progress.failed fails)
              · obtain ⟨exact_, answers⟩ := ih (progress.retry fails)
                have fewer := steps_left_retry progress held
                exact ⟨exact_, fun enough => answers (by omega)⟩

theorem match_loop_exact (elements : List Element) (text : Bytes) (budget : Nat) :
    (∀ answer, (matchLoop elements text budget 0 0 none).1 = some answer →
      (answer = true ↔ Cuts (elements.map Element.piece) text)) ∧
    ((elements.length + 1) * text.length ≤ budget → (matchLoop elements text budget 0 0 none).1 ≠
      none) := by
  obtain ⟨exact_, answers⟩ := match_loop_spec budget (Progress.start : Progress elements text 0 0 none)
  exact ⟨exact_, answers⟩

/-- Every pattern has a reading, and the answer is whether it cuts the text,
whichever reading that is. The budget suffices when it covers
every element, and one more, for every byte. The elements of the pattern with all
their stars, and without the bound on how many there are, give the same answer. -/
theorem glob_exact_and_bounded (pattern text : Bytes) (short : text.length ≤ defaultMaxKeyBytes) :
    (∃ pieces, Reads pattern pieces) ∧
    (∀ pieces budget answer, Reads pattern pieces →
      ((Pattern.new pattern).matchesWithin text budget).1 = some answer →
      (answer = true ↔ Cuts pieces text)) ∧
    (∀ budget, ((Pattern.new pattern).elements.length + 1) * text.length ≤ budget →
      ((Pattern.new pattern).matchesWithin text budget).1 ≠ none) ∧
    (∀ budget other answer plain, ((Pattern.new pattern).matchesWithin text budget).1 = some answer →
      (matchLoop (elementsOf pattern.length pattern) text other 0 0 none).1 = some plain →
        answer = plain) := by
  have compiled := compile_eq pattern.length [] 0 pattern (Nat.zero_le _)
  rw [Nat.zero_add] at compiled
  have answers : ∀ budget answer, ((Pattern.new pattern).matchesWithin text budget).1 = some answer →
      (answer = true ↔ Cuts ((elementsOf pattern.length pattern).map Element.piece) text) := by
    intro budget answer same
    unfold Pattern.new Pattern.matchesWithin at same
    rw [compiled] at same
    split at same
    -- More elements than a key has bytes: no key is cut into so many.
    · rename_i long
      obtain rfl := Option.some.inj same
      refine iff_of_false (by simp) fun cuts => ?_
      have bound := singles_le_length cuts
      rw [singles_pieces] at bound
      exact absurd (bound.trans short) (Nat.not_le.mpr long)
    · rw [(match_loop_exact _ text budget).1 answer same]
      exact cuts_push_all [] _ text
  refine ⟨reads_exists pattern, ?_, ?_, ?_⟩
  · intro pieces budget answer reads same
    rw [reads_elements reads (Nat.le_refl _)]
    exact answers budget answer same
  · intro budget enough
    unfold Pattern.matchesWithin
    split
    · simp
    · exact (match_loop_exact _ text budget).2 enough
  · intro budget other answer plain same read
    rw [Bool.eq_iff_iff, answers budget answer same]
    exact ((match_loop_exact _ text other).1 plain read).symm

/-- A class with a range, between two stars. -/
theorem glob_sample :
    ∃ pieces, Reads (utf8 "*[a-c]*x") pieces ∧ Cuts pieces (utf8 "zbyx") := by
  obtain ⟨⟨pieces, reads⟩, exact_, _⟩ := glob_exact_and_bounded (utf8 "*[a-c]*x") (utf8 "zbyx")
    (by decide +kernel)
  exact ⟨pieces, reads, (exact_ pieces 100 true reads (by decide +kernel)).mp rfl⟩

end Hashring.Glob
