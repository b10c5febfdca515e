import Mathlib.Data.List.Destutter
import Mathlib.Data.List.Sort
import Mathlib.Data.List.TakeWhile

/-! The half-open arcs between consecutive boundaries of a ring. The arc that
ends at the least boundary starts at the greatest one and wraps. -/
namespace Hashring.RingArcs

variable {ε τ : Type} [LinearOrder τ]

/-- `(start, end]`, wrapping when start exceeds end and the whole ring when they
are equal. -/
def arcContains (start finish token : τ) : Bool :=
  if start < finish then start < token && token ≤ finish
  else if finish < start then start < token || token ≤ finish
  else true

section Meeting

variable {start finish start' finish' token : τ}

theorem arc_proper (proper : start < finish) :
    arcContains start finish token = true ↔ start < token ∧ token ≤ finish := by
  simp [arcContains, proper]

theorem arc_wraps (wraps : finish < start) :
    arcContains start finish token = true ↔ start < token ∨ token ≤ finish := by
  simp [arcContains, wraps, wraps.not_gt]

theorem arc_whole (start token : τ) : arcContains start start token = true := by
  simp [arcContains]

theorem arc_holds_end (start finish : τ) : arcContains start finish finish = true := by
  rcases lt_trichotomy start finish with proper | rfl | wraps
  · exact (arc_proper proper).mpr ⟨proper, le_rfl⟩
  · exact arc_whole start start
  · exact (arc_wraps wraps).mpr (.inr le_rfl)

theorem proper_meets_wrapping (inside : start < token ∧ token ≤ finish)
    (inside' : start' < token ∨ token ≤ finish') :
    (start < finish' ∧ finish' ≤ finish) ∨ start' < finish ∨ finish ≤ finish' := by
  rcases le_total finish finish' with first | first
  · exact .inr (.inr first)
  · rcases inside' with late | early
    · exact .inr (.inl (late.trans_le inside.2))
    · exact .inl ⟨inside.1.trans_le early, first⟩

theorem arcs_meet_iff (start finish start' finish' : τ) :
    (∃ token, arcContains start finish token = true ∧ arcContains start' finish' token = true) ↔
      arcContains start finish finish' = true ∨ arcContains start' finish' finish = true := by
  constructor
  · rintro ⟨token, inside, inside'⟩
    rcases lt_trichotomy start finish with proper | rfl | wraps
    · rw [arc_proper proper] at inside ⊢
      rcases lt_trichotomy start' finish' with proper' | rfl | wraps'
      · rw [arc_proper proper'] at inside' ⊢
        rcases le_total finish finish' with first | first
        · exact .inr ⟨inside'.1.trans_le inside.2, first⟩
        · exact .inl ⟨inside.1.trans_le inside'.2, first⟩
      · exact .inr (arc_whole _ _)
      · rw [arc_wraps wraps'] at inside' ⊢
        exact proper_meets_wrapping inside inside'
    · exact .inl (arc_whole _ _)
    · rw [arc_wraps wraps] at inside ⊢
      rcases lt_trichotomy start' finish' with proper' | rfl | wraps'
      · rw [arc_proper proper'] at inside' ⊢
        exact (proper_meets_wrapping inside' inside).symm
      · exact .inr (arc_whole _ _)
      · rw [arc_wraps wraps']
        rcases le_total finish finish' with first | first
        · exact .inr (.inr first)
        · exact .inl (.inr first)
  · rintro (inside | inside)
    · exact ⟨finish', inside, arc_holds_end start' finish'⟩
    · exact ⟨finish, arc_holds_end start finish, inside⟩

end Meeting

def arcsFrom (previous : τ) : List τ → List (τ × τ)
  | [] => []
  | boundary :: rest => (previous, boundary) :: arcsFrom boundary rest

def Unseparated (boundaries : List τ) (token finish : τ) : Prop :=
  (∀ boundary ∈ boundaries, token ≤ boundary ↔ finish ≤ boundary) ∨
    (∀ boundary ∈ boundaries, boundary < token) ∧ ∀ boundary ∈ boundaries, finish ≤ boundary

/-- An arc after the first starts where the one before it ended, and no
boundary lies inside it. -/
theorem inner_arc {previous start finish : τ} {boundaries : List τ}
    (sorted : (previous :: boundaries).Pairwise (· < ·))
    (arc : (start, finish) ∈ arcsFrom previous boundaries) :
    previous ≤ start ∧ start < finish ∧
      ∀ boundary ∈ previous :: boundaries, boundary ≤ start ∨ finish ≤ boundary := by
  induction boundaries generalizing previous with
  | nil => exact absurd arc List.not_mem_nil
  | cons boundary rest ih =>
      obtain ⟨first, tail⟩ := List.pairwise_cons.mp sorted
      have step := first boundary List.mem_cons_self
      rcases List.mem_cons.mp arc with here | later
      · obtain ⟨rfl, rfl⟩ := Prod.mk.inj here
        refine ⟨le_rfl, step, fun probe member => ?_⟩
        rcases List.mem_cons.mp member with rfl | member
        · exact .inl le_rfl
        · rcases List.mem_cons.mp member with rfl | member
          · exact .inr le_rfl
          · exact .inr ((List.pairwise_cons.mp tail).1 probe member).le
      · obtain ⟨reached, proper, outside⟩ := ih tail later
        refine ⟨step.le.trans reached, proper, fun probe member => ?_⟩
        rcases List.mem_cons.mp member with rfl | member
        · exact .inl (step.le.trans reached)
        · exact outside probe member

theorem inner_unseparated {previous start finish token : τ} {boundaries : List τ}
    (sorted : (previous :: boundaries).Pairwise (· < ·))
    (arc : (start, finish) ∈ arcsFrom previous boundaries)
    (inside : arcContains start finish token = true) :
    Unseparated (previous :: boundaries) token finish := by
  obtain ⟨-, proper, outside⟩ := inner_arc sorted arc
  simp only [arcContains, proper, ↓reduceIte, Bool.and_eq_true, decide_eq_true_eq] at inside
  left
  intro boundary member
  rcases outside boundary member with before | after
  · constructor
    · intro reached
      exact absurd (inside.1.trans_le reached) (not_lt.mpr before)
    · intro reached
      exact absurd (proper.trans_le reached) (not_lt.mpr before)
  · exact ⟨fun _ => after, fun _ => inside.2.trans after⟩

theorem inner_count {previous last token : τ} {boundaries : List τ}
    (sorted : (previous :: boundaries).Pairwise (· < ·))
    (final : (previous :: boundaries).getLast? = some last) :
    (arcsFrom previous boundaries).countP (fun arc => arcContains arc.1 arc.2 token) =
      if previous < token ∧ token ≤ last then 1 else 0 := by
  induction boundaries generalizing previous with
  | nil =>
      obtain rfl : previous = last := by simpa using final
      simp [arcsFrom]
  | cons boundary rest ih =>
      obtain ⟨first, tail⟩ := List.pairwise_cons.mp sorted
      have step := first boundary List.mem_cons_self
      have still : (boundary :: rest).getLast? = some last := by simpa using final
      have reached : boundary ≤ last := by
        have member := List.mem_of_getLast? still
        rcases List.mem_cons.mp member with rfl | member
        · exact le_rfl
        · exact ((List.pairwise_cons.mp tail).1 last member).le
      rw [arcsFrom, List.countP_cons, ih tail still]
      simp only [arcContains, step, ↓reduceIte, Bool.and_eq_true, decide_eq_true_eq]
      rcases le_or_gt token boundary with early | late
      · simp [early, early.trans reached, not_lt.mpr early]
      · simp [late, step.trans late, not_le.mpr late]

section

variable {boundaries : List τ} {last : τ} (sorted : boundaries.Pairwise (· < ·))
  (final : boundaries.getLast? = some last)

include sorted final

theorem arcs_partition (token : τ) :
    (arcsFrom last boundaries).countP (fun arc => arcContains arc.1 arc.2 token) = 1 := by
  cases boundaries with
  | nil => exact absurd final (by simp)
  | cons boundary rest =>
      rw [arcsFrom, List.countP_cons, inner_count sorted final]
      rcases List.mem_cons.mp (List.mem_of_getLast? final) with rfl | member
      · rcases le_or_gt token last with early | late
        · simp [arcContains, not_lt.mpr early]
        · simp [arcContains, not_le.mpr late]
      · have wraps := (List.pairwise_cons.mp sorted).1 last member
        simp only [arcContains, wraps, wraps.not_gt, ↓reduceIte, Bool.or_eq_true, decide_eq_true_eq]
        rcases le_or_gt token boundary with early | late
        · simp [early, not_lt.mpr early]
        · rcases le_or_gt token last with inside | past
          · simp [late, inside, not_le.mpr late, not_lt.mpr inside]
          · simp [past, not_le.mpr past]

theorem arc_unseparated {start finish token : τ} (arc : (start, finish) ∈ arcsFrom last boundaries)
    (inside : arcContains start finish token = true) : Unseparated boundaries token finish := by
  cases boundaries with
  | nil => exact absurd arc List.not_mem_nil
  | cons boundary rest =>
      have least : ∀ probe ∈ boundary :: rest, boundary ≤ probe := by
        intro probe member
        rcases List.mem_cons.mp member with rfl | member
        · exact le_rfl
        · exact ((List.pairwise_cons.mp sorted).1 probe member).le
      have greatest : ∀ probe ∈ boundary :: rest, probe ≤ last := by
        intro probe member
        obtain ⟨nonempty, same⟩ := List.mem_getLast?_eq_getLast final
        rw [same]
        exact (sorted.imp le_of_lt).rel_getLast member
      rcases List.mem_cons.mp arc with here | later
      · obtain ⟨rfl, rfl⟩ := Prod.mk.inj here
        rcases le_or_gt token finish with early | late
        · left
          intro probe member
          exact ⟨fun _ => least probe member, fun _ => early.trans (least probe member)⟩
        · right
          have past : start < token := by
            rcases (least start (List.mem_of_getLast? final)).eq_or_lt with rfl | wraps
            · exact late
            · simpa [arcContains, wraps, wraps.not_gt, not_le.mpr late] using inside
          exact ⟨fun probe member => (greatest probe member).trans_lt past, least⟩
      · exact inner_unseparated sorted later inside

/-- Within an arc, what holds of the end of the arc holds of the token, so the
token lies in as many of the arcs picked by the end as there are picked arcs. -/
theorem arcs_picked (token : τ) (picked : τ → Bool)
    (uniform : ∀ finish, Unseparated boundaries token finish → picked finish = picked token) :
    (arcsFrom last boundaries).countP (fun arc => arcContains arc.1 arc.2 token && picked arc.2) =
      if picked token then 1 else 0 := by
  have same : (arcsFrom last boundaries).countP
      (fun arc => arcContains arc.1 arc.2 token && picked arc.2) =
      (arcsFrom last boundaries).countP (fun arc => arcContains arc.1 arc.2 token && picked token) := by
    apply List.countP_congr
    rintro ⟨start, finish⟩ arc
    by_cases inside : arcContains start finish token = true
    · rw [uniform finish (arc_unseparated sorted final arc inside)]
    · simp [inside]
  rw [same]
  cases held : picked token with
  | false => simp
  | true => simpa using arcs_partition sorted final token

end

theorem partition_index (position : ε → τ) {entries : List ε} {boundaries : List τ} {token finish : τ}
    (placed : ∀ entry ∈ entries, position entry ∈ boundaries)
    (together : Unseparated boundaries token finish) :
    (entries.takeWhile fun entry => position entry < token).length % entries.length =
      (entries.takeWhile fun entry => position entry < finish).length % entries.length := by
  rcases together with agree | ⟨past, least⟩
  · congr 2
    have same : ∀ entry ∈ entries, decide (position entry < token) =
        decide (position entry < finish) := by
      intro entry member
      rw [decide_eq_decide, ← not_le, ← not_le, agree _ (placed entry member)]
    clear placed
    induction entries with
    | nil => rfl
    | cons entry rest ih =>
        rw [List.takeWhile_cons, List.takeWhile_cons, same entry List.mem_cons_self,
          ih fun other member => same other (List.mem_cons_of_mem _ member)]
  · have whole : entries.takeWhile (fun entry => position entry < token) = entries := by
      apply List.takeWhile_eq_self_iff.mpr
      intro entry member
      exact decide_eq_true (past _ (placed entry member))
    have none : entries.takeWhile (fun entry => position entry < finish) = [] := by
      cases entries with
      | nil => rfl
      | cons entry rest => simp [not_lt.mpr (least _ (placed entry List.mem_cons_self))]
    rw [whole, none, Nat.mod_self, List.length_nil, Nat.zero_mod]

theorem dedup_sorted {tokens : List τ} (sorted : tokens.Pairwise (· ≤ ·)) :
    tokens.dedup.Pairwise (· < ·) := by
  have ordered := sorted.sublist (List.dedup_sublist tokens)
  exact (ordered.and (List.nodup_dedup tokens)).imp fun both => lt_of_le_of_ne both.1 both.2

end Hashring.RingArcs
