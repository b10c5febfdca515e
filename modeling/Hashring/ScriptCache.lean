import Hashring.CommandArgs
import Hashring.FiniteMap
import Hashring.Sha1

/-! The script cache of the experimental Lua gateway and the hashes clients name
scripts by (crates/hashring-redis-lua-experimental/src/commands.rs). A `&str` is
its bytes, and `none` is a panic: one raised while a guard of the cache is held
poisons the lock, and every later `expect` on it panics in turn. -/
namespace Hashring

/-- `str::is_char_boundary`. -/
def isCharBoundary (text : Bytes) (place : Nat) : Bool :=
  place = 0 || match text[place]? with
    | none => place = text.length
    | some next => !(0x80 ≤ next.val && next.val < 0xC0)

/-- `&text[start..stop]`. -/
def sliceText (text : Bytes) (start stop : Nat) : Option Bytes :=
  if start ≤ stop && isCharBoundary text start && isCharBoundary text stop then some
    ((text.take stop).drop start) else none

/-- `char::to_digit(16)`. -/
def hexDigitValue (digit : Byte) : Option Nat :=
  if 48 ≤ digit.val ∧ digit.val ≤ 57 then some (digit.val - 48)
  else if 65 ≤ digit.val ∧ digit.val ≤ 70 then some (digit.val - 55)
  else if 97 ≤ digit.val ∧ digit.val ≤ 102 then some (digit.val - 87)
  else none

def plusSign : Byte := byte 43
def minusSign : Byte := byte 45

/-- `u8::from_str_radix(text, 16)`: a leading plus sign is read over, a minus sign
is no digit of an unsigned number. -/
def u8FromHex (text : Bytes) : Option Byte :=
  let digits := match text with
    | [] => none
    | [sign] => if sign = plusSign ∨ sign = minusSign then none else some [sign]
    | first :: rest => if first = plusSign then some rest else some text
  let value := digits.bind fun digits => digits.foldlM (fun value digit =>
    (hexDigitValue digit).map fun next => value * 16 + next) 0
  (value.filter (· < 256)).map byte

def malformedHash : RedisError :=
  ⟨"ERR", "SCRIPT LOAD and EVALSHA need the script's SHA-1 as forty hexadecimal characters", false⟩

/-- The pairs from `index` on. -/
def hashPairs (hash : Bytes) : Nat → Nat → Option (Except RedisError Bytes)
  | 0, _ => some (.ok [])
  | left + 1, index =>
      match sliceText hash (index * 2) (index * 2 + 2) with
      | none => none
      | some pair =>
          match u8FromHex pair with
          | none => some (.error malformedHash)
          | some value => (hashPairs hash left (index + 1)).map fun rest => rest.map (value :: ·)

def hashOf (hash : Bytes) : Option (Except RedisError Bytes) :=
  if hash.length ≠ 40 then some (.error malformedHash) else hashPairs hash 20 0

def digest (hash : Bytes) : Option (Except RedisError Bytes) :=
  match fromUtf8 hash with
  | none => some (.error malformedHash)
  | some _ => hashOf hash

def lowerHexDigit (nibble : Nat) : Byte := if nibble < 10 then byte (48 + nibble) else byte (87 + nibble)

def hexDigits (data : Bytes) : Bytes :=
  data.flatMap fun value => [lowerHexDigit (value.val / 16), lowerHexDigit (value.val % 16)]

/-- What the gateway takes from the `sha1` and `hex` packages. -/
structure ScriptHashing where
  sha1 : Bytes → Bytes
  sha1_length : ∀ source, (sha1 source).length = 20
  /-- `hex::encode`. -/
  encode : Bytes → Bytes
  encode_digits : ∀ data, encode data = hexDigits data

def ScriptHashing.hashHex (hashing : ScriptHashing) (source : Bytes) : Bytes :=
  hashing.encode (hashing.sha1 source)

/-- `CACHED_SCRIPTS`. -/
def cachedScripts : Nat := 512

structure Cached where
  byHash : FiniteMap Bytes Bytes := ∅
  /-- The order scripts arrived in. -/
  order : List Bytes := []

namespace Cached

/-- The oldest scripts beyond the bound go. -/
def trim : Nat → Cached → Cached
  | 0, cache => cache
  | extra + 1, cache =>
      match cache.order with
      | [] => cache
      | oldest :: order => trim extra { byHash := cache.byHash.erase oldest, order }

def remember (cache : Cached) (hash source : Bytes) : Cached :=
  let order := if (cache.byHash.lookup hash).isSome then cache.order else cache.order ++ [hash]
  trim (order.length - cachedScripts) { byHash := cache.byHash.insert hash source, order }

def source (cache : Cached) (hash : Bytes) : Option Bytes := cache.byHash.lookup hash

def knows (cache : Cached) (hash : Bytes) : Bool := (cache.byHash.lookup hash).isSome

def clear (_ : Cached) : Cached := {}

end Cached

/-- The cache behind its lock. -/
structure Scripts where
  sources : Cached := {}
  poisoned : Bool := false

/-- What `run` is called with. -/
structure ScriptCall where
  source : Bytes
  keys : List Bytes
  argv : List Bytes

inductive ScriptAnswer where
  | reply (reply : Reply)
  | run (call : ScriptCall)

/-- A request's effect on the cache, and its answer. -/
abbrev ScriptOutcome := Scripts × Option (Except RedisError ScriptAnswer)

def noSuchScript : RedisError := ⟨"NOSCRIPT", "No matching script. Please use EVAL.", false⟩

def keysAndArguments (tail : List Bytes) : Except RedisError (List Bytes × List Bytes) :=
  match tail.head?.bind parseInteger with
  | none => .error .syntaxError
  | some count =>
      if 0 ≤ count ∧ count ≤ (tail.length : Int) - 1 then
        .ok ((tail.drop 1).take count.toNat, (tail.drop 1).drop count.toNat)
      else .error ⟨"ERR", "Number of keys can't be greater than number of args passed", false⟩

namespace Scripts

/-- The replies of `SCRIPT EXISTS`, collected while the cache is locked. -/
def existsReplies (cache : Cached) : List Bytes → Option (List Reply)
  | [] => some []
  | hash :: rest =>
      match digest hash with
      | none => none
      | some (.ok hash) => (existsReplies cache rest).map
          (.integer (if cache.knows hash then 1 else 0) :: ·)
      | some (.error error) => (existsReplies cache rest).map (error.toReply :: ·)

variable (hashing : ScriptHashing) (runtime : Runtime)

/-- What happens under the guard of `script_command`. -/
def scriptLocked (scripts : Scripts) (subcommand : String) (args : Args) : ScriptOutcome :=
  if subcommand = "load" then
    match args.nextRequired with
    | .error error => (scripts, some (.error error))
    | .ok (source, args) =>
        match args.finish with
        | .error error => (scripts, some (.error error))
        | .ok () =>
            match hashOf (hashing.hashHex source) with
            | none => ({ scripts with poisoned := true }, none)
            | some (.error error) => (scripts, some (.error error))
            | some (.ok hash) =>
                ({ scripts with sources := scripts.sources.remember hash source },
                  some (.ok (.reply (.bulk (some (hashing.hashHex source))))))
  else if subcommand = "exists" then
    match existsReplies scripts.sources args.rest with
    | none => ({ scripts with poisoned := true }, none)
    | some replies => (scripts, some (.ok (.reply (.array replies))))
  else if subcommand = "flush" then
    match args.finish with
    | .error error => (scripts, some (.error error))
    | .ok () => ({ scripts with sources := scripts.sources.clear }, some (.ok (.reply .status)))
  else (scripts, some (.error
    ⟨"ERR", s!"Unknown subcommand or wrong number of arguments for 'SCRIPT {subcommand}'", false⟩))

def scriptCommand (scripts : Scripts) (args : Args) : ScriptOutcome :=
  match args.nextOptional with
  | (none, _) => (scripts, some (.error .syntaxError))
  | (some word, args) =>
      if scripts.poisoned then (scripts, none) else scriptLocked hashing scripts
        (runtime.keyword word) args

def remember (scripts : Scripts) (source : Bytes) : Scripts :=
  { scripts with sources := scripts.sources.remember (hashing.sha1 source) source }

/-- The script a request runs: `EVALSHA` reads its hash before it takes the lock. -/
def evalSource (scripts : Scripts) (name : String) (script : Bytes) :
    Scripts × Option (Except RedisError Bytes) :=
  if name = "evalsha" then
    match digest script with
    | none => (scripts, none)
    | some (.error error) => (scripts, some (.error error))
    | some (.ok hash) =>
        if scripts.poisoned then (scripts, none)
        else
          match scripts.sources.source hash with
          | none => (scripts, some (.error noSuchScript))
          | some source => (scripts.remember hashing source, some (.ok source))
  else if scripts.poisoned then (scripts, none)
  else (scripts.remember hashing script, some (.ok script))

def eval (scripts : Scripts) (name : String) (args : Args) : ScriptOutcome :=
  match args.rest with
  | [] => (scripts, some (.error .syntaxError))
  | script :: tail =>
      let (scripts, answer) := evalSource hashing scripts name script
      (scripts, answer.map fun answer => do
        let source ← answer
        let (keys, argv) ← keysAndArguments tail
        return .run ⟨source, keys, argv⟩)

def execute (scripts : Scripts) (name : String) (arguments : List Bytes) : ScriptOutcome :=
  if name = "script" then scriptCommand hashing runtime scripts ⟨name, arguments⟩
  else eval hashing scripts name ⟨name, arguments⟩

def serve (scripts : Scripts) : List (String × List Bytes) → Scripts
  | [] => scripts
  | request :: rest => serve (execute hashing runtime scripts request.1 request.2).1 rest

end Scripts

/-! ### Characters of valid text -/

/-- A byte inside a character. -/
def continues (next : Byte) : Prop := 0x80 ≤ next.val ∧ next.val < 0xC0

theorem boundary_iff {text : Bytes} {place : Nat} (within : place ≤ text.length) :
    isCharBoundary text place = true ↔ place = 0 ∨ ∀ next, text[place]? = some next →
      ¬ continues next := by
  unfold isCharBoundary continues
  rcases found : text[place]? with _ | next
  · have ended : text.length ≤ place := List.getElem?_eq_none_iff.mp found
    simp only [Bool.or_eq_true, decide_eq_true_eq]
    exact iff_of_true (.inr (by omega)) (.inr (by simp))
  · simp
    omega

theorem utf8_lead_high {first more low high code : Nat}
    (lead : utf8Lead first = some (more, low, high, code)) :
    0xC2 ≤ first ∧ 0x80 ≤ low := by
  unfold utf8Lead at lead
  split_ifs at lead
  all_goals
    simp only [Option.some.injEq, Prod.mk.injEq] at lead
    omega

theorem utf8_tail_high {more low high code taken result : Nat} {rest : Bytes} (bound : 0x80 ≤ low)
    (whole : utf8Tail more low high code taken rest = .inl result) {place : Nat} {next : Byte}
    (inside : place < more)
    (found : rest[place]? = some next) : 0x80 ≤ next.val := by
  induction more generalizing low high code taken rest place with
  | zero => omega
  | succ more ih =>
      cases rest with
      | nil => exact absurd found (by simp)
      | cons head tail =>
          rw [utf8Tail] at whole
          split at whole
          · rename_i within
            cases place with
            | zero =>
                rw [List.getElem?_cons_zero, Option.some.injEq] at found
                subst found
                omega
            | succ place =>
                rw [List.getElem?_cons_succ] at found
                exact ih (by decide) whole (by omega) found
          · exact absurd whole (by simp)

/-- A text is valid when every step of reading it gives a character. -/
def WholeText (fuel : Nat) (text : Bytes) : Prop := ∀ char ∈ utf8Chars fuel text, char.isSome = true

theorem from_utf8_whole {text : Bytes} : (fromUtf8 text).isSome = true ↔ WholeText text.length text := by
  unfold fromUtf8 WholeText
  rw [Option.isSome_map]
  generalize utf8Chars text.length text = chars
  induction chars with
  | nil => simp
  | cons char rest ih =>
      rw [List.mapM_cons]
      cases char with
      | none => simp
      | some char =>
          rcases read : rest.mapM id with _ | chars
          · rw [read] at ih
            simpa [read] using ih
          · rw [read] at ih
            simpa [read] using ih

theorem WholeText.step {fuel : Nat} {first : Byte} {rest : Bytes}
    (whole : WholeText (fuel + 1) (first :: rest)) :
    (utf8Step first rest).1.isSome = true ∧
      WholeText fuel ((first :: rest).drop (utf8Step first rest).2) := by
  constructor
  · exact whole _ (by simp [utf8Chars])
  · intro char member
    exact whole char (by simp [utf8Chars, member])

/-- The first byte of a character is none inside one, and the bytes up to the next
character are not ASCII unless it is alone. -/
theorem utf8_step_cases {first : Byte} {rest : Bytes} (whole : (utf8Step first rest).1.isSome = true) :
    (first.val < 0x80 ∧ (utf8Step first rest).2 = 1) ∨
      (0xC2 ≤ first.val ∧ 0 < (utf8Step first rest).2 ∧ ∀ place next, 0 < place →
        place < (utf8Step first rest).2 →
        (first :: rest)[place]? = some next → 0x80 ≤ next.val) := by
  unfold utf8Step at whole ⊢
  split at whole
  · rename_i ascii
    rw [if_pos ascii]
    exact .inl ⟨ascii, rfl⟩
  · rename_i high
    rw [if_neg high]
    split at whole
    · exact absurd whole (by simp)
    · rename_i more low limit code lead
      -- A lead byte is followed by as many continuation bytes as it announces.
      rcases read : utf8Tail more low limit code 1 rest with result | taken
      · refine .inr ⟨(utf8_lead_high lead).1, Nat.succ_pos more, ?_⟩
        intro place next positive inside found
        obtain ⟨place, rfl⟩ : ∃ before, place = before + 1 := ⟨place - 1, by omega⟩
        rw [List.getElem?_cons_succ] at found
        exact utf8_tail_high (utf8_lead_high lead).2 read (Nat.lt_of_succ_lt_succ inside) found
      · rw [read] at whole
        exact absurd whole (by simp)

theorem WholeText.starts {fuel : Nat} {first : Byte} {rest : Bytes}
    (whole : WholeText (fuel + 1) (first :: rest)) :
    ¬ continues first := by
  unfold continues
  rcases utf8_step_cases whole.step.1 with ⟨ascii, _⟩ | ⟨lead, _, _⟩
  · omega
  · omega

theorem WholeText.after_ascii {fuel : Nat} {text : Bytes} (enough : text.length ≤ fuel)
    (whole : WholeText fuel text) {place : Nat} {head next : Byte}
    (found : text[place]? = some head) (ascii : head.val < 0x80)
    (follows : text[place + 1]? = some next) : ¬ continues next := by
  induction fuel generalizing text place with
  | zero =>
      rw [List.length_eq_zero_iff.mp (Nat.le_zero.mp enough)] at found
      exact absurd found (by simp)
  | succ fuel ih =>
      cases text with
      | nil => exact absurd found (by simp)
      | cons first rest =>
          obtain ⟨read, remains⟩ := whole.step
          rw [List.length_cons] at enough
          rcases utf8_step_cases read with ⟨_, alone⟩ | ⟨lead, positive, inside⟩
          · rw [alone, List.drop_one, List.tail_cons] at remains
            cases place with
            | zero =>
                cases rest with
                | nil => exact absurd follows (by simp)
                | cons second rest =>
                    cases fuel with
                    | zero => simp at enough
                    | succ fuel =>
                        simp only [Nat.zero_add, List.getElem?_cons_succ, List.getElem?_cons_zero,
                          Option.some.injEq] at follows
                        subst follows
                        exact remains.starts
            | succ place =>
                rw [List.getElem?_cons_succ] at found follows
                exact ih (by omega) remains found follows
          · -- the ASCII byte lies behind this character
            have behind : (utf8Step first rest).2 ≤ place := by
              by_contra within
              cases place with
              | zero =>
                  rw [List.getElem?_cons_zero, Option.some.injEq] at found
                  subst found
                  omega
              | succ place =>
                  have high := inside (place + 1) head (by omega) (by omega) found
                  omega
            refine @ih _ ?_ remains (place - (utf8Step first rest).2) ?_ ?_
            · rw [List.length_drop, List.length_cons]
              omega
            · rw [List.getElem?_drop, Nat.add_sub_cancel' behind]
              exact found
            · rw [List.getElem?_drop, ← Nat.add_assoc, Nat.add_sub_cancel' behind]
              exact follows

theorem whole_of_ascii {fuel : Nat} {text : Bytes} (ascii : ∀ next ∈ text, next.val < 0x80) :
    WholeText fuel text := by
  induction fuel generalizing text with
  | zero => exact fun char member => absurd member (by simp [utf8Chars])
  | succ fuel ih =>
      cases text with
      | nil => exact fun char member => absurd member (by simp [utf8Chars])
      | cons first rest =>
          have alone : utf8Step first rest = (some (Char.ofNat first.val), 1) :=
            if_pos (ascii first (by simp))
          intro char member
          rw [utf8Chars, alone, List.drop_one, List.tail_cons, List.mem_cons] at member
          rcases member with rfl | later
          · rfl
          · exact ih (fun next inside => ascii next (List.mem_cons_of_mem _ inside)) char later

/-! ### The pairs of a hash -/

def isHexDigit (digit : Byte) : Bool := (hexDigitValue digit).isSome

/-- Forty hexadecimal digits, in either case. -/
def HexText (hash : Bytes) : Prop := hash.length = 40 ∧ ∀ digit ∈ hash, isHexDigit digit = true

def spelledByte (hash : Bytes) (index : Nat) : Byte :=
  byte (((hash[index * 2]?.bind hexDigitValue).getD 0) * 16 +
    (hash[index * 2 + 1]?.bind hexDigitValue).getD 0)

def spelled (hash : Bytes) : Bytes := (List.range 20).map (spelledByte hash)

def ReadablePair (hash : Bytes) (index : Nat) : Prop :=
  ∃ first second, hash[index * 2]? = some first ∧ hash[index * 2 + 1]? = some second ∧
    (isHexDigit first = true ∨ first = plusSign) ∧ isHexDigit second = true

/-- Forty bytes of valid text whose pairs all read as numbers, one of them through
its plus sign. -/
structure ReadsThroughSign (hash : Bytes) : Prop where
  text : (fromUtf8 hash).isSome = true
  forty : hash.length = 40
  readable : ∀ index < 20, ReadablePair hash index
  sign : ∃ digit ∈ hash, isHexDigit digit = false

/-- Forty bytes of valid text whose first pair that does not read as a number ends
inside a character. -/
structure CutsCharacter (hash : Bytes) : Prop where
  text : (fromUtf8 hash).isSome = true
  forty : hash.length = 40
  pair : ∃ index < 20, (∀ before < index, ReadablePair hash before) ∧ ¬ ReadablePair hash index ∧
    isCharBoundary hash (index * 2 + 2) = false

/-- Reading a hash returns, and accepts exactly forty hexadecimal digits, as the
bytes they spell. -/
structure ReadExactly (hash : Bytes) : Prop where
  returns : digest hash ≠ none
  accepts : ∀ bytes, digest hash = some (.ok bytes) ↔ HexText hash ∧ bytes = spelled hash

theorem hex_digit_bounds {digit : Byte} {value : Nat} (read : hexDigitValue digit = some value) :
    value < 16 ∧ digit.val < 0x80 ∧ digit ≠ plusSign := by
  unfold hexDigitValue at read
  have plain : digit = plusSign → digit.val = 43 := fun same => congrArg Fin.val same
  split_ifs at read
  all_goals
    rw [Option.some.injEq] at read
    refine ⟨by omega, by omega, fun same => ?_⟩
    have := plain same
    omega

theorem hex_digit_some {digit : Byte} (hex : isHexDigit digit = true) : ∃ value,
    hexDigitValue digit = some value :=
  Option.isSome_iff_exists.mp hex

theorem u8_from_hex_pair (first second : Byte) :
    u8FromHex [first, second] =
      if first = plusSign then (hexDigitValue second).map byte
      else (hexDigitValue first).bind fun high => (hexDigitValue second).map fun low =>
        byte (high * 16 + low) := by
  unfold u8FromHex
  dsimp only
  by_cases plus : first = plusSign
  · rw [if_pos plus, if_pos plus]
    rcases read : hexDigitValue second with _ | low
    · simp [read]
    · have bounds := hex_digit_bounds read
      simp [read, Option.filter, show low < 256 by omega]
  · rw [if_neg plus, if_neg plus]
    rcases read : hexDigitValue first with _ | high
    · simp [read]
    · rcases other : hexDigitValue second with _ | low
      · simp [read, other]
      · have bounds := hex_digit_bounds read
        have others := hex_digit_bounds other
        simp [read, other, Option.filter, show high * 16 + low < 256 by omega]

section Pairs

variable {hash : Bytes} {index : Nat} (left : Nat) (forty : hash.length = 40)
include forty

theorem pair_slice (within : index < 20) :
    ∃ first second, hash[index * 2]? = some first ∧ hash[index * 2 + 1]? = some second ∧
      (hash.take (index * 2 + 2)).drop (index * 2) = [first, second] := by
  have low : index * 2 < hash.length := by omega
  have high : index * 2 + 1 < hash.length := by omega
  refine ⟨hash[index * 2], hash[index * 2 + 1], List.getElem?_eq_getElem low,
    List.getElem?_eq_getElem high, ?_⟩
  rw [List.drop_take, Nat.add_sub_cancel_left, List.drop_eq_getElem_cons low,
    List.drop_eq_getElem_cons high]
  rfl

theorem boundary_of_ascii (whole : (fromUtf8 hash).isSome = true) (within : index < 20) {second : Byte}
    (found : hash[index * 2 + 1]? = some second) (ascii : second.val < 0x80) :
    isCharBoundary hash (index * 2 + 2) = true := by
  apply (boundary_iff (by omega)).mpr
  exact .inr fun next follows => (from_utf8_whole.mp whole).after_ascii (le_refl _) found ascii follows

theorem hash_pairs_readable (whole : (fromUtf8 hash).isSome = true) (within : index < 20)
    (start : isCharBoundary hash (index * 2) = true) (readable : ReadablePair hash index) :
    isCharBoundary hash ((index + 1) * 2) = true ∧
      ∃ value, ((∀ digit ∈ hash, isHexDigit digit = true) → value = spelledByte hash index) ∧
        hashPairs hash (left + 1) index =
          (hashPairs hash left (index + 1)).map fun rest => rest.map (value :: ·) := by
  obtain ⟨first, second, atFirst, atSecond, digit, hex⟩ := readable
  obtain ⟨low, lowRead⟩ := hex_digit_some hex
  have stop := boundary_of_ascii forty whole within atSecond (hex_digit_bounds lowRead).2.1
  obtain ⟨_, _, sameFirst, sameSecond, slice⟩ := pair_slice forty within
  rw [atFirst, Option.some.injEq] at sameFirst
  rw [atSecond, Option.some.injEq] at sameSecond
  subst sameFirst sameSecond
  have sliced : sliceText hash (index * 2) (index * 2 + 2) = some [first, second] := by
    unfold sliceText
    rw [if_pos (by simp [start, stop]), slice]
  refine ⟨by rw [Nat.succ_mul]; exact stop, ?_⟩
  -- `from_str_radix` takes a plus sign for the first of the two digits.
  rcases digit with hexFirst | plus
  · obtain ⟨high, highRead⟩ := hex_digit_some hexFirst
    have parsed : u8FromHex [first, second] = some (byte (high * 16 + low)) := by
      rw [u8_from_hex_pair, if_neg (hex_digit_bounds highRead).2.2, highRead, lowRead]
      rfl
    refine ⟨byte (high * 16 + low), fun _ => ?_, ?_⟩
    · simp [spelledByte, atFirst, atSecond, highRead, lowRead]
    · rw [hashPairs, sliced]
      dsimp only
      rw [parsed]
  · have parsed : u8FromHex [first, second] = some (byte low) := by
      rw [u8_from_hex_pair, if_pos plus, lowRead]
      rfl
    refine ⟨byte low, fun all => ?_, ?_⟩
    · obtain ⟨_, plain⟩ := hex_digit_some (all first (List.mem_of_getElem? atFirst))
      exact absurd plus (hex_digit_bounds plain).2.2
    · rw [hashPairs, sliced]
      dsimp only
      rw [parsed]

/-- A pair that reads as no number stops the loop: with an error when it ends at
a boundary, and with a panic when it does not. -/
theorem hash_pairs_unreadable (within : index < 20) (start : isCharBoundary hash (index * 2) = true)
    (unreadable : ¬ ReadablePair hash index) :
    hashPairs hash (left + 1) index =
      if isCharBoundary hash (index * 2 + 2) = true then some (.error malformedHash) else none := by
  obtain ⟨first, second, atFirst, atSecond, slice⟩ := pair_slice forty within
  have unparsed : u8FromHex [first, second] = none := by
    rw [u8_from_hex_pair]
    rcases low : hexDigitValue second with _ | value
    · simp
    · have digit : ¬ (isHexDigit first = true ∨ first = plusSign) := fun digit =>
        unreadable ⟨first, second, atFirst, atSecond, digit, by rw [isHexDigit, low]; rfl⟩
      have plain : hexDigitValue first = none := by
        simpa [isHexDigit] using fun hex => digit (.inl hex)
      rw [if_neg fun plus => digit (.inr plus), plain]
      rfl
  rw [hashPairs]
  by_cases stop : isCharBoundary hash (index * 2 + 2) = true
  · have sliced : sliceText hash (index * 2) (index * 2 + 2) = some [first, second] := by
      unfold sliceText
      rw [if_pos (by simp [start, stop]), slice]
    rw [sliced, if_pos stop]
    dsimp only
    rw [unparsed]
  · have sliced : sliceText hash (index * 2) (index * 2 + 2) = none := by
      unfold sliceText
      rw [if_neg (by simp [stop])]
    rw [sliced, if_neg stop]

theorem hash_pairs_all (whole : (fromUtf8 hash).isSome = true) (span : index + left = 20)
    (start : isCharBoundary hash (index * 2) = true)
    (readable : ∀ place, index ≤ place → place < 20 → ReadablePair hash place) :
    ∃ bytes, hashPairs hash left index = some (.ok bytes) ∧
      ((∀ digit ∈ hash, isHexDigit digit = true) → bytes = (List.range' index left).map
        (spelledByte hash)) := by
  induction left generalizing index with
  | zero => exact ⟨[], rfl, fun _ => rfl⟩
  | succ left ih =>
      obtain ⟨stop, value, exact_, next⟩ :=
        hash_pairs_readable left forty whole (by omega) start (readable index (le_refl _) (by omega))
      obtain ⟨rest, later, same⟩ := ih (by omega) stop fun place after => readable place (by omega)
      refine ⟨value :: rest, by rw [next, later]; rfl, fun hex => ?_⟩
      rw [exact_ hex, same hex]
      rfl

theorem hash_pairs_stop (whole : (fromUtf8 hash).isSome = true) (span : index + left = 20)
    (start : isCharBoundary hash (index * 2) = true) {stopped : Nat} (from_ : index ≤ stopped)
    (within : stopped < 20)
    (readable : ∀ place, index ≤ place → place < stopped → ReadablePair hash place)
    (unreadable : ¬ ReadablePair hash stopped) :
    hashPairs hash left index =
      if isCharBoundary hash (stopped * 2 + 2) = true then some (.error malformedHash) else none := by
  induction left generalizing index with
  | zero => omega
  | succ left ih =>
      rcases Nat.eq_or_lt_of_le from_ with here | later
      · subst here
        exact hash_pairs_unreadable left forty within start unreadable
      · obtain ⟨stop, value, _, next⟩ :=
          hash_pairs_readable left forty whole (by omega) start (readable index (le_refl _) later)
        rw [next, ih (by omega) stop (by omega) fun place after => readable place (by omega)]
        split <;> rfl

end Pairs

theorem digest_ok_of_readable {hash : Bytes} (whole : (fromUtf8 hash).isSome = true)
    (forty : hash.length = 40) (readable : ∀ index < 20, ReadablePair hash index) :
    ∃ bytes, digest hash = some (.ok bytes) ∧
      ((∀ digit ∈ hash, isHexDigit digit = true) → bytes = spelled hash) := by
  obtain ⟨_, read⟩ := Option.isSome_iff_exists.mp whole
  obtain ⟨bytes, paired, same⟩ := hash_pairs_all 20 forty whole rfl rfl fun index _ within =>
    readable index within
  refine ⟨bytes, ?_, ?_⟩
  · rw [digest, read]
    dsimp only
    rw [hashOf, if_neg (not_not_intro forty)]
    exact paired
  · rw [spelled, List.range_eq_range']
    exact same

theorem digest_stopped {hash : Bytes} (whole : (fromUtf8 hash).isSome = true)
    (forty : hash.length = 40) {index : Nat} (within : index < 20)
    (readable : ∀ before < index, ReadablePair hash before) (unreadable : ¬ ReadablePair hash index) :
    digest hash = if isCharBoundary hash (index * 2 + 2) = true then some (.error malformedHash)
      else none := by
  obtain ⟨_, read⟩ := Option.isSome_iff_exists.mp whole
  rw [digest, read]
  dsimp only
  rw [hashOf, if_neg (not_not_intro forty)]
  exact hash_pairs_stop 20 forty whole rfl rfl (Nat.zero_le _) within
    (fun before _ => readable before) unreadable

theorem HexText.whole {hash : Bytes} (hex : HexText hash) : (fromUtf8 hash).isSome = true := by
  apply from_utf8_whole.mpr
  apply whole_of_ascii
  intro digit member
  obtain ⟨_, read⟩ := hex_digit_some (hex.2 digit member)
  exact (hex_digit_bounds read).2.1

theorem HexText.readable {hash : Bytes} (hex : HexText hash) {index : Nat} (within : index < 20) :
    ReadablePair hash index := by
  obtain ⟨first, second, atFirst, atSecond, _⟩ := pair_slice hex.1 within
  exact ⟨first, second, atFirst, atSecond, .inl (hex.2 first (List.mem_of_getElem? atFirst)),
    hex.2 second (List.mem_of_getElem? atSecond)⟩

theorem digest_hex {hash : Bytes} (hex : HexText hash) : digest hash = some (.ok (spelled hash)) := by
  obtain ⟨bytes, read, same⟩ := digest_ok_of_readable hex.whole hex.1 fun index within =>
    hex.readable within
  rw [read, same hex.2]

theorem ReadExactly.of_refused {hash : Bytes} (refused : digest hash = some (.error malformedHash))
    (other : ¬ HexText hash) : ReadExactly hash where
  returns := by simp [refused]
  accepts := fun bytes => iff_of_false (by simp [refused]) fun accepted => other accepted.1

/-- Where the text is valid, what happens at its first unreadable pair. -/
theorem digest_cases {hash : Bytes} (whole : (fromUtf8 hash).isSome = true) (forty : hash.length = 40)
    (other : ¬ HexText hash) :
    ReadsThroughSign hash ∨ CutsCharacter hash ∨ digest hash = some (.error malformedHash) := by
  have odd : ∃ digit ∈ hash, isHexDigit digit = false := by
    by_contra none
    push Not at none
    exact other ⟨forty, fun digit member => by simpa using none digit member⟩
  by_cases stops : ∃ index, index < 20 ∧ ¬ ReadablePair hash index
  -- The first unreadable pair decides.
  · classical
    obtain ⟨within, unreadable⟩ := Nat.find_spec stops
    have readable : ∀ before < Nat.find stops, ReadablePair hash before := by
      intro before earlier
      by_contra bad
      exact Nat.find_min stops earlier ⟨earlier.trans within, bad⟩
    by_cases cut : isCharBoundary hash (Nat.find stops * 2 + 2) = true
    · right
      right
      rw [digest_stopped whole forty within readable unreadable, if_pos cut]
    · right
      left
      exact ⟨whole, forty, _, within, readable, unreadable, by simpa using cut⟩
  · left
    push Not at stops
    exact ⟨whole, forty, stops, odd⟩

/-- Any other text is refused before its pairs are read. -/
theorem digest_unfit {hash : Bytes} (unfit : ¬ ((fromUtf8 hash).isSome = true ∧ hash.length = 40)) :
    digest hash = some (.error malformedHash) := by
  rw [digest]
  rcases read : fromUtf8 hash with _ | text
  · rfl
  · exact if_pos fun forty => unfit ⟨by rw [read]; rfl, forty⟩

theorem CutsCharacter.panics {hash : Bytes} (cuts : CutsCharacter hash) : digest hash = none := by
  obtain ⟨index, within, readable, unreadable, cut⟩ := cuts.pair
  rw [digest_stopped cuts.text cuts.forty within readable unreadable, cut]
  rfl

theorem ReadsThroughSign.accepted {hash : Bytes} (through : ReadsThroughSign hash) :
    ∃ bytes, digest hash = some (.ok bytes) ∧ ¬ HexText hash := by
  obtain ⟨bytes, read, _⟩ := digest_ok_of_readable through.text through.forty through.readable
  obtain ⟨digit, member, other⟩ := through.sign
  exact ⟨bytes, read, fun hex => absurd (hex.2 digit member) (by simp [other])⟩

theorem digest_panics_iff (hash : Bytes) : digest hash = none ↔ CutsCharacter hash := by
  constructor
  · intro panics
    by_cases hex : HexText hash
    · exact absurd panics (by simp [digest_hex hex])
    · by_cases fit : (fromUtf8 hash).isSome = true ∧ hash.length = 40
      · rcases digest_cases fit.1 fit.2 hex with through | cuts | refused
        · obtain ⟨_, read, _⟩ := through.accepted
          exact absurd panics (by simp [read])
        · exact cuts
        · exact absurd panics (by simp [refused])
      · exact absurd panics (by simp [digest_unfit fit])
  · exact CutsCharacter.panics

theorem read_exactly_iff (hash : Bytes) :
    ReadExactly hash ↔ ¬ ReadsThroughSign hash ∧ ¬ CutsCharacter hash := by
  constructor
  · intro exact_
    constructor
    · intro through
      obtain ⟨bytes, read, other⟩ := through.accepted
      exact other ((exact_.accepts bytes).mp read).1
    · intro cuts
      exact exact_.returns cuts.panics
  · intro ⟨plain, uncut⟩
    by_cases hex : HexText hash
    · refine ⟨by simp [digest_hex hex], fun bytes => ?_⟩
      rw [digest_hex hex]
      simp [hex, eq_comm]
    · apply ReadExactly.of_refused _ hex
      by_cases fit : (fromUtf8 hash).isSome = true ∧ hash.length = 40
      · rcases digest_cases fit.1 fit.2 hex with through | cuts | refused
        · exact absurd through plain
        · exact absurd cuts uncut
        · exact refused
      · exact digest_unfit fit

/-! ### Hashes the gateway writes, and letter case -/

theorem lower_hex_digit_value : ∀ nibble < 16, hexDigitValue (lowerHexDigit nibble) = some nibble :=
  by decide

theorem encoded_digits (data : Bytes) (index : Nat) :
    (hexDigits data)[index * 2]? =
        data[index]?.map (fun value => lowerHexDigit (value.val / 16)) ∧
      (hexDigits data)[index * 2 + 1]? =
        data[index]?.map (fun value => lowerHexDigit (value.val % 16)) := by
  induction data generalizing index with
  | nil => simp [hexDigits]
  | cons value rest ih =>
      cases index with
      | zero => exact ⟨rfl, rfl⟩
      | succ index =>
          rw [hexDigits, List.flatMap_cons, Nat.succ_mul]
          exact ih index

theorem encoded_length (data : Bytes) :
    (hexDigits data).length =
      data.length * 2 := by
  induction data with
  | nil => rfl
  | cons value rest ih =>
      rw [hexDigits, List.flatMap_cons, List.length_append, ← hexDigits, ih, List.length_cons]
      simp only [List.length_cons, List.length_nil]
      omega

namespace ScriptHashing

variable (hashing : ScriptHashing) (source : Bytes)

theorem hash_hex_text : HexText (hashing.hashHex source) := by
  unfold hashHex
  rw [hashing.encode_digits]
  constructor
  · rw [encoded_length, hashing.sha1_length]
  · intro digit member
    obtain ⟨value, _, inside⟩ := List.mem_flatMap.mp member
    have bound := value.isLt
    rcases List.mem_pair.mp inside with rfl | rfl
    · rw [isHexDigit, lower_hex_digit_value _ (by omega)]
      rfl
    · rw [isHexDigit, lower_hex_digit_value _ (by omega)]
      rfl

theorem hash_hex_spelled : spelled (hashing.hashHex source) = hashing.sha1 source := by
  have length := hashing.sha1_length source
  apply List.ext_getElem?
  intro index
  rw [spelled, List.getElem?_map, hashHex, hashing.encode_digits]
  by_cases within : index < 20
  · obtain ⟨high, low⟩ := encoded_digits (hashing.sha1 source) index
    have held : index < (hashing.sha1 source).length := by omega
    have bound := ((hashing.sha1 source)[index]).isLt
    rw [List.getElem?_range within, Option.map_some, spelledByte, high, low,
      List.getElem?_eq_getElem held]
    simp only [Option.map_some, Option.bind_some]
    rw [lower_hex_digit_value _ (by omega), lower_hex_digit_value _ (by omega)]
    congr 1
    apply Fin.ext
    simp only [byte, Option.getD_some]
    omega
  · rw [List.getElem?_eq_none_iff.mpr (by simpa using within), List.getElem?_eq_none_iff.mpr (by omega)]
    rfl

end ScriptHashing

/-- `u8::to_ascii_lowercase`. -/
def asciiLower (letter : Byte) : Byte := if 65 ≤ letter.val ∧ letter.val ≤
    90 then byte (letter.val + 32) else letter

theorem ascii_lower_digit {digit : Byte} {value : Nat} (read : hexDigitValue digit = some value) :
    asciiLower digit = lowerHexDigit value := by
  unfold hexDigitValue at read
  unfold asciiLower lowerHexDigit
  apply Fin.ext
  split_ifs at read
  all_goals
    rw [Option.some.injEq] at read
    split_ifs <;> simp only [byte] <;> omega

theorem HexText.lower {hash : Bytes} (hex : HexText hash) :
    hash.map asciiLower = hexDigits (spelled hash) := by
  apply List.ext_getElem?
  intro place
  rw [List.getElem?_map]
  by_cases within : place / 2 < 20
  · obtain ⟨first, second, atFirst, atSecond, _⟩ := pair_slice hex.1 within
    obtain ⟨high, highRead⟩ := hex_digit_some (hex.2 first (List.mem_of_getElem? atFirst))
    obtain ⟨low, lowRead⟩ := hex_digit_some (hex.2 second (List.mem_of_getElem? atSecond))
    have value : (spelledByte hash (place / 2)).val = high * 16 + low := by
      have bounds := hex_digit_bounds highRead
      have others := hex_digit_bounds lowRead
      rw [spelledByte, atFirst, atSecond, Option.bind_some, Option.bind_some, highRead, lowRead]
      exact Nat.mod_eq_of_lt (by simp only [Option.getD_some]; omega)
    have spells : (spelled hash)[place / 2]? = some (spelledByte hash (place / 2)) := by
      rw [spelled, List.getElem?_map, List.getElem?_range within, Option.map_some]
    obtain ⟨left, right⟩ := encoded_digits (spelled hash) (place / 2)
    rw [spells, Option.map_some, value] at left right
    have bound := (hex_digit_bounds lowRead).1
    rcases Nat.mod_two_eq_zero_or_one place with even | odd
    · rw [show place = place / 2 * 2 by omega, left, atFirst, Option.map_some, ascii_lower_digit highRead,
        show (high * 16 + low) / 16 = high by omega]
    · rw [show place = place / 2 * 2 +
        1 by omega, right, atSecond, Option.map_some, ascii_lower_digit lowRead,
        show (high * 16 + low) % 16 = low by omega]
  · have forty := hex.1
    have length : (hexDigits (spelled hash)).length = 40 := by
      rw [encoded_length, spelled, List.length_map, List.length_range]
    rw [List.getElem?_eq_none_iff.mpr (by omega), List.getElem?_eq_none_iff.mpr (by omega)]
    rfl

/-! ### The lock of the cache -/

namespace Scripts

theorem exists_replies_panics_iff (cache : Cached) (hashes : List Bytes) :
    existsReplies cache hashes = none ↔ ∃ hash ∈ hashes, CutsCharacter hash := by
  induction hashes with
  | nil => simp [existsReplies]
  | cons hash rest ih =>
      rw [existsReplies]
      rcases read : digest hash with _ | answer
      · exact iff_of_true rfl ⟨hash, by simp, (digest_panics_iff hash).mp read⟩
      · have whole : ¬ CutsCharacter hash := fun cuts => absurd cuts.panics (by simp [read])
        cases answer with
        | ok _ => simp [ih, whole]
        | error _ => simp [ih, whole]

variable (hashing : ScriptHashing) (runtime : Runtime)

/-- `SCRIPT EXISTS` with a hash that cuts a character. -/
def AsksCut (request : String × List Bytes) : Prop :=
  request.1 = "script" ∧ ∃ word hashes, request.2 = word :: hashes ∧ runtime.keyword word = "exists" ∧
    ∃ hash ∈ hashes, CutsCharacter hash

theorem remember_poisoned (scripts : Scripts) (source : Bytes) :
    (scripts.remember hashing source).poisoned = scripts.poisoned := by
  rw [remember]

theorem eval_source_poisoned (scripts : Scripts) (name : String) (script : Bytes) :
    (evalSource hashing scripts name script).1.poisoned = scripts.poisoned := by
  unfold evalSource
  split
  · split
    · rfl
    · rfl
    · split
      · rfl
      · split
        · rfl
        · exact remember_poisoned hashing scripts _
  · split
    · rfl
    · exact remember_poisoned hashing scripts script

theorem eval_poisoned (scripts : Scripts) (name : String) (args : Args) :
    (eval hashing scripts name args).1.poisoned = scripts.poisoned := by
  unfold eval
  split
  · rfl
  · exact eval_source_poisoned hashing scripts name _

theorem script_locked_poisoned_iff (scripts : Scripts) (sound : scripts.poisoned = false)
    (subcommand : String) (args : Args) :
    (scriptLocked hashing scripts subcommand args).1.poisoned = true ↔
      subcommand = "exists" ∧ ∃ hash ∈ args.rest, CutsCharacter hash := by
  unfold scriptLocked
  by_cases load : subcommand = "load"
  · rw [if_pos load]
    refine iff_of_false ?_ (by simp [load])
    split
    · simp [sound]
    · rename_i source rest _
      split
      · simp [sound]
      -- A loaded script is stored under a hash of the gateway's own.
      · have text := hashing.hash_hex_text source
        have read : hashOf (hashing.hashHex source) = some (.ok (spelled (hashing.hashHex source))) := by
          obtain ⟨_, whole⟩ := Option.isSome_iff_exists.mp text.whole
          have same := digest_hex text
          rw [digest, whole] at same
          exact same
        simp only [read]
        simp [sound]
  · rw [if_neg load]
    by_cases known : subcommand = "exists"
    · rw [if_pos known]
      rcases read : existsReplies scripts.sources args.rest with _ | replies
      · exact iff_of_true rfl ⟨known, (exists_replies_panics_iff _ _).mp read⟩
      · refine iff_of_false (by simp [sound]) fun cuts => ?_
        exact absurd ((exists_replies_panics_iff scripts.sources _).mpr cuts.2) (by simp [read])
    · rw [if_neg known]
      refine iff_of_false ?_ (by simp [known])
      split
      · split <;> simp [sound]
      · simp [sound]

theorem execute_poisoned_iff (scripts : Scripts) (sound : scripts.poisoned = false)
    (request : String × List Bytes) :
    (execute hashing runtime scripts request.1 request.2).1.poisoned = true ↔
      AsksCut runtime request := by
  unfold execute AsksCut
  by_cases script : request.1 = "script"
  · rw [if_pos script, scriptCommand]
    rcases arguments : request.2 with _ | ⟨word, hashes⟩
    · simp [Args.nextOptional, sound]
    · simp only [Args.nextOptional]
      rw [if_neg (by simp [sound]), script_locked_poisoned_iff hashing scripts sound]
      constructor
      · rintro ⟨known, cuts⟩
        exact ⟨script, word, hashes, rfl, known, cuts⟩
      · rintro ⟨_, _, _, same, known, cuts⟩
        obtain ⟨rfl, rfl⟩ := List.cons.inj same
        exact ⟨known, cuts⟩
  · rw [if_neg script, eval_poisoned, sound]
    simp [script]

theorem execute_keeps_poisoned (scripts : Scripts) (poisoned : scripts.poisoned = true)
    (name : String) (arguments : List Bytes) :
    (execute hashing runtime scripts name arguments).1.poisoned = true := by
  unfold execute
  split
  · unfold scriptCommand
    split
    · exact poisoned
    · rw [if_pos poisoned]
      exact poisoned
  · rw [eval_poisoned, poisoned]

theorem serve_keeps_poisoned (scripts : Scripts) (poisoned : scripts.poisoned = true)
    (requests : List (String × List Bytes)) :
    (serve hashing runtime scripts requests).poisoned = true := by
  induction requests generalizing scripts with
  | nil => exact poisoned
  | cons request rest ih => exact ih _ (execute_keeps_poisoned hashing runtime scripts poisoned _ _)

/-- A run poisons the lock exactly when one of its requests asks for a hash that
cuts a character. -/
theorem serve_poisoned_iff (scripts : Scripts) (sound : scripts.poisoned = false)
    (requests : List (String × List Bytes)) :
    (serve hashing runtime scripts requests).poisoned = true ↔ ∃ request ∈ requests,
      AsksCut runtime request := by
  induction requests generalizing scripts with
  | nil => simp [serve, sound]
  | cons request rest ih =>
      have step := execute_poisoned_iff hashing runtime scripts sound request
      rw [serve]
      by_cases cuts : AsksCut runtime request
      · exact iff_of_true (serve_keeps_poisoned hashing runtime _ (step.mpr cuts) rest)
          ⟨request, by simp, cuts⟩
      · have still : (execute hashing runtime scripts request.1 request.2).1.poisoned = false := by
          simpa using fun poisoned => cuts (step.mp poisoned)
        rw [ih _ still]
        simp [cuts]

end Scripts

/-- A hash is read exactly unless it reads through a sign or cuts a character. The
hashes the gateway writes are read back, hashes without a sign that name one
script differ in case only, and a run of requests poisons the cache exactly when
one of them asks whether a hash that cuts a character exists. -/
theorem script_hashes_exact_iff (hashing : ScriptHashing) (runtime : Runtime) (hash : Bytes)
    (requests : List (String × List Bytes)) :
    (ReadExactly hash ↔ ¬ ReadsThroughSign hash ∧ ¬ CutsCharacter hash) ∧
    (∀ source, digest (hashing.hashHex source) = some (.ok (hashing.sha1 source))) ∧
    (∀ other bytes, ¬ ReadsThroughSign hash → ¬ ReadsThroughSign other → digest hash = some (.ok bytes) →
      digest other = some (.ok bytes) → hash.map asciiLower = other.map asciiLower) ∧
    ((Scripts.serve hashing runtime {} requests).poisoned = true ↔
      ∃ request ∈ requests, Scripts.AsksCut runtime request) := by
  refine ⟨read_exactly_iff hash, ?_, ?_, Scripts.serve_poisoned_iff hashing runtime {} rfl requests⟩
  · intro source
    rw [digest_hex (hashing.hash_hex_text source), hashing.hash_hex_spelled]
  · intro other bytes plain others read same
    have exact_ := (read_exactly_iff hash).mpr ⟨plain, fun cuts => absurd cuts.panics (by simp [read])⟩
    have exactly := (read_exactly_iff other).mpr ⟨others, fun cuts => absurd cuts.panics (by simp [same])⟩
    obtain ⟨hex, spells⟩ := (exact_.accepts bytes).mp read
    obtain ⟨hexOther, spellsOther⟩ := (exactly.accepts bytes).mp same
    rw [hex.lower, hexOther.lower, ← spells, ← spellsOther]

/-- A euro sign and 37 digits, which is forty bytes of text. -/
def euroHash : Bytes := [byte 0xE2, byte 0x82, byte 0xAC] ++ List.replicate 37 (byte 48)

def signedHash : Bytes := plusSign :: List.replicate 39 (byte 48)

theorem euro_and_signed_hash :
    ¬ ReadExactly euroHash ∧ Scripts.existsReplies {} [euroHash] = none ∧
      digest signedHash = digest (List.replicate 40 (byte 48)) ∧ ¬ ReadExactly signedHash := by
  refine ⟨fun exact_ => exact_.returns (by decide +kernel),
    by decide +kernel, by decide +kernel, fun exact_ => ?_⟩
  have accepted : digest signedHash = some (.ok (List.replicate 20 (byte 0))) := by decide +kernel
  have hex := ((exact_.accepts _).mp accepted).1.2 plusSign (by simp [signedHash])
  exact absurd hex (by decide)

namespace HashSample

/-- What the two packages compute. -/
def hashing : ScriptHashing where
  sha1 := Sha1.digest
  sha1_length := Sha1.digest_length
  encode := hexDigits
  encode_digits _ := rfl

/-- Words that are in lower case already. -/
def runtime : Runtime where
  lowercase := id
  lowercase_one_line _ whole := whole
  Float := Unit
  parseFloat _ := none
  zero := ()
  add _ _ := none
  formatNumber _ := "0"

def source : Bytes := utf8 "return 1"

def hash : Bytes := utf8 "E0E1F9FABFC9D4800C877A703B823AC0578FF8DB"

/-- A script is loaded, run by its hash, and asked for together with a hash that has a
sign. -/
def requests : List (String × List Bytes) :=
  [("script", [utf8 "load", source]), ("evalsha", [hash, utf8 "0"]),
    ("script", [utf8 "exists", hash, signedHash])]

def asking : List (String × List Bytes) := requests ++ [("script", [utf8 "exists", hash, euroHash])]

theorem hash_written : hashing.hashHex source = utf8 "e0e1f9fabfc9d4800c877a703b823ac0578ff8db" :=
  by decide +kernel

theorem plain (digits : Bytes) (hex : ∀ digit ∈ digits, isHexDigit digit = true) :
    ¬ ReadsThroughSign digits := by
  rintro ⟨_, _, _, digit, member, other⟩
  exact absurd (hex digit member) (by simp [other])

theorem requests_whole (request : String × List Bytes) (asked : request ∈ requests) :
    ¬ Scripts.AsksCut runtime request := by
  rintro ⟨_, word, hashes, same, known, cut, member, cuts⟩
  simp only [requests, List.mem_cons, List.not_mem_nil, or_false] at asked
  rcases asked with rfl | rfl | rfl
  · obtain ⟨rfl, rfl⟩ := List.cons.inj same
    exact absurd known (by decide +kernel)
  · contradiction
  · obtain ⟨rfl, rfl⟩ := List.cons.inj same
    have reads : ∀ cut ∈ [hash, signedHash], digest cut ≠ none := by decide +kernel
    exact reads cut member cuts.panics

theorem asking_cuts : Scripts.AsksCut runtime ("script", [utf8 "exists", hash, euroHash]) := by
  refine ⟨rfl, utf8 "exists", [hash, euroHash], rfl, by decide +kernel, euroHash, by simp, ?_⟩
  exact (digest_panics_iff euroHash).mp (by decide +kernel)

end HashSample

/-- The hash of `return 1`, sent in capitals, is read as its SHA-1, and so is the one the
gateway writes; the lock stays sound until a hash that cuts a character is asked for. -/
theorem script_hashes_exact_return :
    ReadExactly HashSample.hash ∧
      digest (utf8 "e0e1f9fabfc9d4800c877a703b823ac0578ff8db") =
        some (.ok (HashSample.hashing.sha1 HashSample.source)) ∧
      HashSample.hash.map asciiLower = (utf8 "e0e1f9fabfc9d4800c877a703b823ac0578ff8db").map asciiLower ∧
      (Scripts.serve HashSample.hashing HashSample.runtime {} HashSample.requests).poisoned ≠ true ∧
      (Scripts.serve HashSample.hashing HashSample.runtime {} HashSample.asking).poisoned = true := by
  have hex : ∀ digit ∈ HashSample.hash, isHexDigit digit = true := by decide +kernel
  have hexLower : ∀ digit ∈ utf8 "e0e1f9fabfc9d4800c877a703b823ac0578ff8db",
      isHexDigit digit = true := by decide +kernel
  have reads : digest HashSample.hash = some (.ok (HashSample.hashing.sha1 HashSample.source)) :=
    by decide +kernel
  obtain ⟨exactly, written, cases_, sound⟩ :=
    script_hashes_exact_iff HashSample.hashing HashSample.runtime HashSample.hash
    HashSample.requests
  obtain ⟨-, -, -, poisons⟩ :=
    script_hashes_exact_iff HashSample.hashing HashSample.runtime HashSample.hash HashSample.asking
  have writes := written HashSample.source
  rw [HashSample.hash_written] at writes
  refine ⟨exactly.mpr ⟨HashSample.plain _ hex, fun cuts => ?_⟩, writes, ?_, ?_, ?_⟩
  · exact absurd cuts.panics (by simp [reads])
  · exact cases_ _ _ (HashSample.plain _ hex) (HashSample.plain _ hexLower) reads writes
  · rw [Ne, sound]
    rintro ⟨request, asked, cuts⟩
    exact HashSample.requests_whole request asked cuts
  · exact poisons.mpr ⟨_, List.mem_append_right _ (List.mem_singleton_self _), HashSample.asking_cuts⟩

end Hashring
