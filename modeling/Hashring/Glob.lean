import Hashring.Wire
import Hashring.Wildcards

/-! Glob patterns (crates/hashring-redis/src/commands/glob.rs). A position in the
pattern is the bytes from there on; the matcher keeps its positions as numbers. -/
namespace Hashring

open Wildcards

namespace Glob

def star : Byte := 42
def questionMark : Byte := 63
def openBracket : Byte := 91
def backslash : Byte := 92
def closeBracket : Byte := 93
def caret : Byte := 94
def dash : Byte := 45

/-- `MAX_FIXED_ELEMENTS`. -/
def maxFixedElements : Nat := defaultMaxKeyBytes

/-- `[u64; 4]`, one bit for each byte. -/
abbrev Mask := Fin 4 → BitVec 64

def word (byte : Byte) : Fin 4 := ⟨byte.val / 64, by omega⟩

def acceptsByte (accepts : Mask) (byte : Byte) : Bool :=
  accepts (word byte) &&& (1#64 <<< (byte.val % 64)) != 0

def accept (accepts : Mask) (byte : Byte) : Mask :=
  Function.update accepts (word byte) (accepts (word byte) ||| (1#64 <<< (byte.val % 64)))

def acceptRange (accepts : Mask) (low high : Byte) : Mask := fun index =>
  let base := index.val * 64
  let start := max low.val base
  let stop := min high.val (base + 63)
  if stop < start then accepts index
  else
    let width := stop - start + 1
    let bits := if width = 64 then BitVec.allOnes 64 else (1#64 <<< width) - 1#64
    accepts index ||| (bits <<< (start - base))

/-- `byte as i8`. -/
def signed (byte : Byte) : Int := if byte.val < 128 then byte.val else (byte.val : Int) - 256

/-- `value as u8`. -/
def unsigned (value : Int) : Byte := Hashring.byte (value % 256).toNat

def acceptRedisRange (accepts : Mask) (first second : Byte) : Mask :=
  let low := min (signed first) (signed second)
  let high := max (signed first) (signed second)
  if 0 ≤ low ∨ high < 0 then acceptRange accepts (unsigned low) (unsigned high)
  else acceptRange (acceptRange accepts 0 (unsigned high)) (unsigned low) 255

/-- The loop of `class`: an escape, the closing bracket, the end of the pattern, a
range, a literal, in that order. -/
def classMembers (accepts : Mask) : Bytes → Mask × Bytes
  | [] => (accepts, [])
  | [last] => if last = closeBracket then (accepts, []) else (accept accepts last, [])
  | [first, second] =>
      if first = backslash then (accept accepts second, [])
      else if first = closeBracket then (accepts, [second])
      else classMembers (accept accepts first) [second]
  | first :: second :: third :: rest =>
      if first = backslash then classMembers (accept accepts second) (third :: rest)
      else if first = closeBracket then (accepts, second :: third :: rest)
      else if second = dash then classMembers (acceptRedisRange accepts first third) rest
      else classMembers (accept accepts first) (second :: third :: rest)

/-- `class`: what it accepts, and where the pattern continues. -/
def class_ (pattern : Bytes) : Mask × Bytes :=
  match pattern with
  | [] => classMembers (fun _ => 0) []
  | first :: rest =>
      if first = caret then
        let (accepts, next) := classMembers (fun _ => 0) rest
        (fun index => ~~~ accepts index, next)
      else classMembers (fun _ => 0) (first :: rest)

inductive Element where
  | star
  | anyByte
  | byte (byte : Byte)
  | class (accepts : Mask)

structure Pattern where
  elements : List Element
  /-- Longer than any key could match. -/
  impossible : Bool

/-- The element the pattern starts with, and where it continues. -/
def nextElement (first : Byte) (rest : Bytes) : Element × Bytes :=
  if first = star then (.star, rest)
  else if first = questionMark then (.anyByte, rest)
  else if first = openBracket then (.class (class_ rest).1, (class_ rest).2)
  else
    match rest with
    | escaped :: after => if first = backslash then (.byte escaped, after) else (.byte first,
        escaped :: after)
    | [] => (.byte first, [])

def Element.isStar : Element → Bool
  | .star => true
  | _ => false

/-- The loop of `Pattern::new`, which takes at least one byte in each turn. -/
def compile : Nat → List Element → Nat → Bytes → Pattern
  | 0, elements, _, _ => ⟨elements, false⟩
  | _ + 1, elements, _, [] => ⟨elements, false⟩
  | fuel + 1, elements, fixed, first :: rest =>
      let (element, next) := nextElement first rest
      if element.isStar then
        if elements.getLast?.any Element.isStar then compile fuel elements fixed next
        else compile fuel (elements ++ [element]) fixed next
      else if maxFixedElements < fixed + 1 then ⟨[], true⟩
      else compile fuel (elements ++ [element]) (fixed + 1) next

def Pattern.new (pattern : Bytes) : Pattern := compile pattern.length [] 0 pattern

def Element.accepts : Element → Byte → Bool
  | .star, _ => false
  | .anyByte, _ => true
  | .byte literal, item => literal = item
  | .class accepts, item => acceptsByte accepts item

/-- The loop of `matches_within`: the answer, and what is left of the budget. -/
def matchLoop (elements : List Element) (text : Bytes) : Nat → Nat → Nat → Option (Nat × Nat) →
    Option Bool × Nat
  | budget, p, t, lastStar =>
      match text[t]? with
      | none => (some ((elements.drop p).all Element.isStar), budget)
      | some item =>
          match budget with
          | 0 => (none, 0)
          | budget + 1 =>
              match elements[p]? with
              | some .star => matchLoop elements text budget (p + 1) t (some (p + 1, t))
              | element =>
                  if element.any (·.accepts item) then matchLoop elements text budget (p + 1)
                    (t + 1) lastStar
                  else
                    match lastStar with
                    | none => (some false, budget)
                    | some (afterStar, consumed) =>
                        matchLoop elements text budget afterStar (consumed + 1)
                          (some (afterStar, consumed + 1))

def Pattern.matchesWithin (pattern : Pattern) (text : Bytes) (budget : Nat) : Option Bool × Nat :=
  if pattern.impossible then (some false, budget) else matchLoop pattern.elements text budget 0 0 none

/-! ### Classes as sets of bytes -/

theorem single_bit {shift place : Nat} (below : place < 64) :
    (1#64 <<< shift).getLsbD place = decide (place = shift) := by
  simp only [BitVec.getLsbD_shiftLeft, BitVec.getLsbD_one, below]
  by_cases same : place = shift
  · simp [same]
  · by_cases before : place < shift
    · simp [same, before]
    · simp [same, before]
      omega

theorem accepts_byte_eq (accepts : Mask) (byte : Byte) :
    acceptsByte accepts byte = (accepts (word byte)).getLsbD (byte.val % 64) := by
  have small : byte.val % 64 < 64 := Nat.mod_lt _ (by decide)
  unfold acceptsByte
  generalize accepts (word byte) = bits
  generalize byte.val % 64 = place at small
  cases held : bits.getLsbD place with
  | true =>
      rw [bne_iff_ne]
      intro nothing
      -- The bit that is asked for is the only one the mask can leave.
      have bit : (bits &&& 1#64 <<< place).getLsbD place = false := by
        rw [nothing]
        exact BitVec.getLsbD_zero
      rw [BitVec.getLsbD_and, held, single_bit small] at bit
      simp at bit
  | false =>
      rw [bne_eq_false_iff_eq]
      apply BitVec.eq_of_getLsbD_eq
      intro other below
      rw [BitVec.getLsbD_and, single_bit below]
      by_cases same : other = place
      · simp [same, held]
      · simp [same]

theorem accepts_none (byte : Byte) : acceptsByte (fun _ => 0) byte = false := by
  rw [accepts_byte_eq]
  simp

theorem accepts_negated (accepts : Mask) (byte : Byte) :
    acceptsByte (fun index => ~~~ accepts index) byte = !acceptsByte accepts byte := by
  have small : byte.val % 64 < 64 := Nat.mod_lt _ (by decide)
  rw [accepts_byte_eq, accepts_byte_eq, BitVec.getLsbD_not]
  simp [small]

theorem accepts_accept (accepts : Mask) (added byte : Byte) :
    acceptsByte (accept accepts added) byte = (acceptsByte accepts byte || byte = added) := by
  have small : byte.val % 64 < 64 := Nat.mod_lt _ (by decide)
  rw [accepts_byte_eq, accepts_byte_eq, accept]
  by_cases same : word byte = word added
  · rw [same, Function.update_self, BitVec.getLsbD_or]
    have places : byte.val / 64 = added.val / 64 := congrArg Fin.val same
    rw [single_bit small]
    congr 1
    rw [decide_eq_decide, Fin.ext_iff]
    omega
  · rw [Function.update_of_ne same]
    have different : byte ≠ added := fun equal => same (by rw [equal])
    simp [different]

theorem stretch_bit {width place : Nat} (within : width ≤ 64) :
    (if width = 64 then BitVec.allOnes 64 else (1#64 <<< width) - 1#64).getLsbD place =
      decide (place < width) := by
  split
  · rename_i full
    rw [BitVec.getLsbD_allOnes, full]
  · rename_i partial_
    have power : 2 ^ width < 2 ^ 64 := Nat.pow_lt_pow_right (by decide) (by omega)
    have positive : 0 < 2 ^ width := Nat.two_pow_pos width
    have value : ((1#64 <<< width) - 1#64).toNat = 2 ^ width - 1 := by
      rw [BitVec.toNat_sub, BitVec.toNat_shiftLeft]
      simp only [BitVec.toNat_ofNat, Nat.one_mod, Nat.shiftLeft_eq, Nat.one_mul]
      rw [Nat.mod_eq_of_lt power]
      generalize 2 ^ width = whole at power positive
      omega
    rw [BitVec.getLsbD, value, Nat.testBit_two_pow_sub_one]

theorem accepts_range (accepts : Mask) (low high byte : Byte) :
    acceptsByte (acceptRange accepts low high) byte =
      (acceptsByte accepts byte || (low ≤ byte && byte ≤ high)) := by
  have small : byte.val % 64 < 64 := Nat.mod_lt _ (by decide)
  rw [accepts_byte_eq, accepts_byte_eq, acceptRange]
  have base : (word byte).val = byte.val / 64 := rfl
  have order : (decide (low ≤ byte) && decide (byte ≤ high)) =
      decide (low.val ≤ byte.val ∧ byte.val ≤ high.val) := by
    rw [← Bool.decide_and]
    rfl
  rw [order, base]
  dsimp only
  split
  · rename_i outside
    have out : ¬ (low.val ≤ byte.val ∧ byte.val ≤ high.val) := by omega
    rw [decide_eq_false out, Bool.or_false]
  · rename_i inside
    rw [BitVec.getLsbD_or, BitVec.getLsbD_shiftLeft, stretch_bit (by omega)]
    congr 1
    rw [Bool.eq_iff_iff]
    simp only [Bool.and_eq_true, Bool.not_eq_true', decide_eq_true_eq, decide_eq_false_iff_not]
    omega

/-- The bytes of a range, compared as signed numbers in either direction. -/
def Between (first second byte : Byte) : Prop :=
  min (signed first) (signed second) ≤ signed byte ∧ signed byte ≤ max (signed first) (signed second)

theorem accepts_redis_range (accepts : Mask) (first second byte : Byte) :
    acceptsByte (acceptRedisRange accepts first second) byte = true ↔
      acceptsByte accepts byte = true ∨ Between first second byte := by
  have lower : ∀ value : Int, -128 ≤ value → value ≤ 127 →
      (unsigned value).val = if 0 ≤ value then value.toNat else (value + 256).toNat := by
    intro value low high
    unfold unsigned Hashring.byte
    dsimp only
    split <;> omega
  have bounds : ∀ item : Byte, -128 ≤ signed item ∧ signed item ≤ 127 := by
    intro item
    unfold signed
    split <;> omega
  have first_ := bounds first
  have second_ := bounds second
  have item : signed byte = if byte.val < 128 then (byte.val : Int) else (byte.val : Int) - 256 := rfl
  unfold acceptRedisRange Between
  dsimp only
  have lowest := lower (min (signed first) (signed second)) (by omega) (by omega)
  have highest := lower (max (signed first) (signed second)) (by omega) (by omega)
  have ordered : -128 ≤ min (signed first) (signed second) ∧
      min (signed first) (signed second) ≤ max (signed first) (signed second) ∧
      max (signed first) (signed second) ≤ 127 := by omega
  generalize min (signed first) (signed second) = low at lowest ordered ⊢
  generalize max (signed first) (signed second) = high at highest ordered ⊢
  split
  · rename_i apart
    rw [accepts_range]
    simp only [Bool.or_eq_true, Bool.and_eq_true, decide_eq_true_eq, Fin.le_def]
    rw [lowest, highest, item]
    apply or_congr_right
    clear lowest highest item
    split_ifs <;> omega
  -- Bytes compare as signed, so a range across zero is two ranges of bytes.
  · rename_i across
    rw [accepts_range, accepts_range]
    simp only [Bool.or_eq_true, Bool.and_eq_true, decide_eq_true_eq, Fin.le_def]
    rw [lowest, highest, item]
    have zero : ((0 : Byte) : Nat) = 0 := rfl
    have top : ((255 : Byte) : Nat) = 255 := rfl
    rw [zero, top, or_assoc]
    apply or_congr_right
    clear lowest highest item
    split_ifs <;> omega

/-! ### The rules a pattern is read by -/

inductive ReadsMembers : Bytes → (Byte → Prop) → Bytes → Prop where
  | ended : ReadsMembers [] (fun _ => False) []
  | closed {rest : Bytes} : ReadsMembers (closeBracket :: rest) (fun _ => False) rest
  | escape {escaped : Byte} {rest next : Bytes} {members : Byte → Prop} :
      ReadsMembers rest members next →
      ReadsMembers (backslash :: escaped :: rest) (fun byte => byte = escaped ∨ members byte) next
  | range {first last : Byte} {rest next : Bytes} {members : Byte → Prop} :
      first ≠ backslash → first ≠ closeBracket → ReadsMembers rest members next →
      ReadsMembers (first :: dash :: last :: rest) (fun byte => Between first last byte ∨
        members byte) next
  | literal {first : Byte} {rest next : Bytes} {members : Byte → Prop} :
      first ≠ closeBracket → (first = backslash → rest = []) →
        (∀ last after, rest ≠ dash :: last :: after) →
      ReadsMembers rest members next →
      ReadsMembers (first :: rest) (fun byte => byte = first ∨ members byte) next

inductive ReadsClass : Bytes → (Byte → Prop) → Bytes → Prop where
  | negated {rest next : Bytes} {members : Byte → Prop} :
      ReadsMembers rest members next → ReadsClass (caret :: rest) (fun byte => ¬ members byte) next
  | plain {pattern next : Bytes} {members : Byte → Prop} :
      (∀ rest, pattern ≠ caret :: rest) → ReadsMembers pattern members next →
        ReadsClass pattern members next

/-- A pattern from left to right. A backslash at its end stands for itself. -/
inductive Reads : Bytes → List (Piece Byte) → Prop where
  | done : Reads [] []
  | star {rest : Bytes} {pieces : List (Piece Byte)} : Reads rest pieces → Reads (star :: rest)
      (.run :: pieces)
  | any {rest : Bytes} {pieces : List (Piece Byte)} :
      Reads rest pieces → Reads (questionMark :: rest) (.one (fun _ => True) :: pieces)
  | class {rest next : Bytes} {members : Byte → Prop} {pieces : List (Piece Byte)} :
      ReadsClass rest members next → Reads next pieces →
        Reads (openBracket :: rest) (.one members :: pieces)
  | escape {escaped : Byte} {rest : Bytes} {pieces : List (Piece Byte)} :
      Reads rest pieces → Reads (backslash :: escaped :: rest) (.one (· = escaped) :: pieces)
  | literal {first : Byte} {rest : Bytes} {pieces : List (Piece Byte)} :
      first ≠ Glob.star → first ≠ questionMark → first ≠ openBracket → (first = backslash → rest = []) →
      Reads rest pieces → Reads (first :: rest) (.one (· = first) :: pieces)

def Element.piece : Element → Piece Byte
  | .star => .run
  | element => .one fun byte => element.accepts byte = true

theorem class_members_reads {pattern next : Bytes} {members : Byte → Prop}
    (reads : ReadsMembers pattern members next) (accepts : Mask) :
    (classMembers accepts pattern).2 = next ∧
      ∀ byte, acceptsByte (classMembers accepts pattern).1 byte = true ↔
        acceptsByte accepts byte = true ∨ members byte := by
  induction reads generalizing accepts with
  | ended => exact ⟨rfl, fun byte => by simp [classMembers]⟩
  | @closed rest =>
      have apart : closeBracket ≠ backslash := by decide
      rcases rest with _ | ⟨second, _ | ⟨third, rest⟩⟩
      · exact ⟨rfl, fun byte => (or_iff_left id).symm⟩
      · rw [classMembers, if_neg apart, if_pos rfl]
        exact ⟨rfl, fun byte => (or_iff_left id).symm⟩
      · rw [classMembers, if_neg apart, if_pos rfl]
        exact ⟨rfl, fun byte => (or_iff_left id).symm⟩
  | @escape escaped rest next members _ ih =>
      obtain ⟨follows, accepted⟩ := ih (accept accepts escaped)
      -- An escaped byte is itself, a closing bracket included.
      have step : classMembers accepts (backslash :: escaped :: rest) = classMembers
          (accept accepts escaped) rest := by
        cases rest with
        | nil => exact if_pos rfl
        | cons third rest => exact if_pos rfl
      rw [step]
      refine ⟨follows, fun byte => ?_⟩
      simp only [accepted, accepts_accept, Bool.or_eq_true, decide_eq_true_eq, or_assoc]
  | @range first last rest next members plain open_ _ ih =>
      obtain ⟨follows, accepted⟩ := ih (acceptRedisRange accepts first last)
      rw [classMembers, if_neg plain, if_neg open_, if_pos rfl]
      refine ⟨follows, fun byte => ?_⟩
      simp only [accepted, accepts_redis_range, or_assoc]
  | @literal first rest next members open_ plain single _ ih =>
      obtain ⟨follows, accepted⟩ := ih (accept accepts first)
      have step : classMembers accepts (first :: rest) = classMembers (accept accepts first) rest := by
        rcases rest with _ | ⟨second, _ | ⟨third, rest⟩⟩
        · exact if_neg open_
        · have escapes : first ≠ backslash := fun same => absurd (plain same) (by simp)
          exact (if_neg escapes).trans (if_neg open_)
        -- A dash makes a range only with a byte on either side.
        · have escapes : first ≠ backslash := fun same => absurd (plain same) (by simp)
          have spans : second ≠ dash := fun same => single third rest (by rw [same])
          exact (if_neg escapes).trans ((if_neg open_).trans (if_neg spans))
      rw [step]
      refine ⟨follows, fun byte => ?_⟩
      simp only [accepted, accepts_accept, Bool.or_eq_true, decide_eq_true_eq, or_assoc]

theorem class_reads {pattern next : Bytes} {members : Byte → Prop}
    (reads : ReadsClass pattern members next) :
    (class_ pattern).2 = next ∧ ∀ byte, acceptsByte (class_ pattern).1 byte = true ↔ members byte := by
  cases reads with
  | negated reads =>
      obtain ⟨follows, accepted⟩ := class_members_reads reads (fun _ => 0)
      refine ⟨by simpa [class_] using follows, fun byte => ?_⟩
      simp only [class_, ↓reduceIte, accepts_negated, Bool.not_eq_true', ← Bool.not_eq_true,
        accepted, accepts_none]
      simp
  | plain other reads =>
      obtain ⟨follows, accepted⟩ := class_members_reads reads (fun _ => 0)
      have same : class_ pattern = classMembers (fun _ => 0) pattern := by
        unfold class_
        cases pattern with
        | nil => rfl
        | cons first rest =>
            have uncaret : first ≠ caret := fun same => other rest (by rw [same])
            simp only [uncaret, ↓reduceIte]
      rw [same]
      refine ⟨follows, fun byte => ?_⟩
      rw [accepted, accepts_none]
      simp

/-- The elements of a whole pattern, stars and all. -/
def elementsOf : Nat → Bytes → List Element
  | 0, _ => []
  | _ + 1, [] => []
  | fuel + 1, first :: rest => (nextElement first rest).1 :: elementsOf fuel (nextElement first rest).2

theorem piece_one {element : Element} {accepts : Byte → Prop} (single : element.isStar = false)
    (accepted : ∀ byte, element.accepts byte = true ↔ accepts byte) : element.piece = .one accepts := by
  have same : (fun byte => element.accepts byte = true) = accepts :=
    funext fun byte => propext (accepted byte)
  rw [← same]
  cases element with
  | star => exact absurd single (by decide)
  | anyByte => rfl
  | byte literal => rfl
  | «class» accepts => rfl

theorem literal_piece (literal : Byte) : (Element.byte literal).piece = .one (· = literal) :=
  piece_one rfl fun byte => by simp [Element.accepts, eq_comm]

theorem any_piece : Element.anyByte.piece = .one fun _ => True :=
  piece_one rfl fun byte => by simp [Element.accepts]

theorem class_piece {accepts : Mask} {members : Byte → Prop}
    (accepted : ∀ byte, acceptsByte accepts byte = true ↔ members byte) :
    (Element.class accepts).piece = .one members :=
  piece_one rfl accepted

theorem class_members_shorter {pattern next : Bytes} {members : Byte → Prop}
    (reads : ReadsMembers pattern members next) :
    next.length ≤ pattern.length := by
  induction reads with
  | ended => exact le_refl _
  | closed => exact Nat.le_succ _
  | escape _ ih => exact ih.trans (Nat.le_add_right _ 2)
  | range _ _ _ ih => exact ih.trans (Nat.le_add_right _ 3)
  | literal _ _ _ _ ih => exact ih.trans (by simp)

theorem class_shorter {pattern next : Bytes} {members : Byte → Prop}
    (reads : ReadsClass pattern members next) :
    next.length ≤ pattern.length := by
  cases reads with
  | negated reads => exact (class_members_shorter reads).trans (by simp)
  | plain _ reads => exact class_members_shorter reads

theorem reads_elements {pattern : Bytes} {pieces : List (Piece Byte)} (reads : Reads pattern pieces)
    {fuel : Nat}
    (enough : pattern.length ≤ fuel) : pieces = (elementsOf fuel pattern).map Element.piece := by
  induction reads generalizing fuel with
  | done => cases fuel <;> rfl
  | @star rest pieces _ ih =>
      cases fuel with
      | zero => simp at enough
      | succ fuel =>
          have next : nextElement Glob.star rest = (.star, rest) := rfl
          rw [elementsOf, next, List.map_cons, ← ih (by simpa using enough)]
          rfl
  | @any rest pieces _ ih =>
      cases fuel with
      | zero => simp at enough
      | succ fuel =>
          have next : nextElement questionMark rest = (.anyByte, rest) := rfl
          rw [elementsOf, next, List.map_cons, ← ih (by simpa using enough), any_piece]
  | @«class» rest _ _ _ reads _ ih =>
      -- A class is read whole, up to its bracket or to the end.
      obtain ⟨follows, accepted⟩ := class_reads reads
      have shorter := class_shorter reads
      cases fuel with
      | zero => simp at enough
      | succ fuel =>
          rw [List.length_cons] at enough
          have next : nextElement openBracket rest = (.class (class_ rest).1, (class_ rest).2) := rfl
          rw [elementsOf, next, List.map_cons, follows, ← ih (by omega), class_piece accepted]
  | @escape escaped rest _ _ ih =>
      cases fuel with
      | zero => simp at enough
      | succ fuel =>
          rw [List.length_cons, List.length_cons] at enough
          have next : nextElement backslash (escaped :: rest) = (.byte escaped, rest) := rfl
          rw [elementsOf, next, List.map_cons, ← ih (by omega), literal_piece]
  | @literal first rest pieces notStar notAny notClass escape _ ih =>
      cases fuel with
      | zero => simp at enough
      | succ fuel =>
          have next : nextElement first rest = (.byte first, rest) := by
            unfold nextElement
            rw [if_neg notStar, if_neg notAny, if_neg notClass]
            cases rest with
            | nil => rfl
            | cons escaped after => exact if_neg fun same => absurd (escape same) (by simp)
          rw [elementsOf, next, List.map_cons, ← ih (by simpa using enough), literal_piece]

theorem reads_members_exists (pattern : Bytes) : ∃ members next, ReadsMembers pattern members next := by
  rcases pattern with _ | ⟨first, rest⟩
  · exact ⟨_, _, .ended⟩
  · by_cases closes : first = closeBracket
    · subst closes
      exact ⟨_, _, .closed⟩
    · by_cases escapes : first = backslash ∧ rest ≠ []
      · obtain ⟨rfl, more⟩ := escapes
        obtain ⟨escaped, rest, rfl⟩ := List.exists_cons_of_ne_nil more
        obtain ⟨members, next, reads⟩ := reads_members_exists rest
        exact ⟨_, _, .escape reads⟩
      · by_cases spans : ∃ last after, rest = dash :: last :: after
        · obtain ⟨last, after, rfl⟩ := spans
          obtain ⟨members, next, reads⟩ := reads_members_exists after
          exact ⟨_, _, .range (fun same => escapes ⟨same, by simp⟩) closes reads⟩
        · obtain ⟨members, next, reads⟩ := reads_members_exists rest
          refine ⟨_, _, .literal closes (fun same => ?_)
            (fun last after same => spans ⟨last, after, same⟩) reads⟩
          by_contra more
          exact escapes ⟨same, more⟩
termination_by pattern.length

theorem reads_class_exists (pattern : Bytes) : ∃ members next, ReadsClass pattern members next := by
  by_cases negates : ∃ rest, pattern = caret :: rest
  · obtain ⟨rest, rfl⟩ := negates
    obtain ⟨members, next, reads⟩ := reads_members_exists rest
    exact ⟨_, _, .negated reads⟩
  · obtain ⟨members, next, reads⟩ := reads_members_exists pattern
    exact ⟨_, _, .plain (fun rest same => negates ⟨rest, same⟩) reads⟩

theorem reads_exists (pattern : Bytes) : ∃ pieces, Reads pattern pieces := by
  rcases pattern with _ | ⟨first, rest⟩
  · exact ⟨_, .done⟩
  · by_cases isStar : first = Glob.star
    · obtain ⟨pieces, reads⟩ := reads_exists rest
      rw [isStar]
      exact ⟨_, .star reads⟩
    by_cases isAny : first = questionMark
    · obtain ⟨pieces, reads⟩ := reads_exists rest
      rw [isAny]
      exact ⟨_, .any reads⟩
    by_cases isClass : first = openBracket
    · obtain ⟨members, next, class_⟩ := reads_class_exists rest
      have shorter := class_shorter class_
      obtain ⟨pieces, reads⟩ := reads_exists next
      rw [isClass]
      exact ⟨_, .class class_ reads⟩
    by_cases escapes : first = backslash ∧ rest ≠ []
    · obtain ⟨rfl, more⟩ := escapes
      obtain ⟨escaped, rest, rfl⟩ := List.exists_cons_of_ne_nil more
      obtain ⟨pieces, reads⟩ := reads_exists rest
      exact ⟨_, .escape reads⟩
    · obtain ⟨pieces, reads⟩ := reads_exists rest
      refine ⟨_, .literal isStar isAny isClass (fun same => ?_) reads⟩
      by_contra more
      exact escapes ⟨same, more⟩
termination_by pattern.length
decreasing_by all_goals simp_all; try omega

end Glob

end Hashring
