import Hashring.ClientErrors

/-! Reading a command's arguments (crates/hashring-redis/src/commands/args.rs), and
the standard library's text functions they go through. -/
namespace Hashring

/-- What a byte says of the sequence it starts: how many bytes follow, what the
first of them may be, and the bits it carries. -/
def utf8Lead (first : Nat) : Option (Nat × Nat × Nat × Nat) :=
  if 0xC2 ≤ first ∧ first ≤ 0xDF then some (1, 0x80, 0xBF, first - 0xC0)
  else if first = 0xE0 then some (2, 0xA0, 0xBF, 0)
  else if first = 0xED then some (2, 0x80, 0x9F, 13)
  else if 0xE1 ≤ first ∧ first ≤ 0xEF then some (2, 0x80, 0xBF, first - 0xE0)
  else if first = 0xF0 then some (3, 0x90, 0xBF, 0)
  else if 0xF1 ≤ first ∧ first ≤ 0xF3 then some (3, 0x80, 0xBF, first - 0xF0)
  else if first = 0xF4 then some (3, 0x80, 0x8F, 4)
  else none

/-- Reads the bytes that follow: the code they complete, or how many of them still
belonged to the sequence that broke off. -/
def utf8Tail : Nat → Nat → Nat → Nat → Nat → Bytes → Nat ⊕ Nat
  | 0, _, _, code, _, _ => .inl code
  | _ + 1, _, _, _, taken, [] => .inr taken
  | more + 1, low, high, code, taken, next :: rest =>
      if low ≤ next.val ∧ next.val ≤ high then utf8Tail more 0x80 0xBF (code * 64 + next.val % 64)
        (taken + 1) rest
      else .inr taken

def utf8Step (first : Byte) (rest : Bytes) : Option Char × Nat :=
  if first.val < 0x80 then (some (Char.ofNat first.val), 1)
  else
    match utf8Lead first.val with
    | none => (none, 1)
    | some (more, low, high, code) =>
        match utf8Tail more low high code 1 rest with
        | .inl code => (some (Char.ofNat code), more + 1)
        | .inr taken => (none, taken)

def utf8Chars : Nat → Bytes → List (Option Char)
  | 0, _ => []
  | _ + 1, [] => []
  | fuel + 1, first :: rest =>
      (utf8Step first rest).1 :: utf8Chars fuel ((first :: rest).drop (utf8Step first rest).2)

/-- `String::from_utf8_lossy`: each broken sequence is one replacement character. -/
def fromUtf8Lossy (bytes : Bytes) : String :=
  String.ofList ((utf8Chars bytes.length bytes).map fun char => char.getD (Char.ofNat 0xFFFD))

/-- `str::from_utf8`. -/
def fromUtf8 (bytes : Bytes) : Option String :=
  ((utf8Chars bytes.length bytes).mapM id).map String.ofList

/-- `str::parse::<i64>` without its range. -/
def parseDigits : List Char → Option Nat
  | [] => none
  | digits => digits.foldlM (fun value digit =>
      if '0' ≤ digit ∧ digit ≤ '9' then some (value * 10 + (digit.toNat - 48)) else none) 0

def i64Min : Int := -2 ^ 63
def i64Max : Int := 2 ^ 63 - 1
def u64Max : Nat := 2 ^ 64 - 1

def parseI64 (text : String) : Option Int :=
  let value := match text.toList with
    | '-' :: digits => (parseDigits digits).map fun n => -(n : Int)
    | '+' :: digits => (parseDigits digits).map fun n => (n : Int)
    | digits => (parseDigits digits).map fun n => (n : Int)
  value.filter fun n => i64Min ≤ n ∧ n ≤ i64Max

/-- `str::parse::<u64>`. -/
def parseU64 (text : String) : Option Nat :=
  let value := match text.toList with
    | '+' :: digits => parseDigits digits
    | digits => parseDigits digits
  value.filter (· ≤ u64Max)

def isBreak (c : Char) : Bool := c = '\r' || c = '\n'

def oneLine (text : String) : Bool := text.toList.all fun c => !isBreak c

/-- What the gateway uses of the standard library and the program does not
define: Unicode lower case, and double-precision numbers. -/
structure Runtime where
  lowercase : String → String
  /-- Lower case never makes a line break of anything else. -/
  lowercase_one_line : ∀ text, oneLine text = true → oneLine (lowercase text) = true
  Float : Type
  /-- A finite number, as `f64::from_str` reads it. -/
  parseFloat : String → Option Float
  zero : Float
  /-- The sum, unless it is not finite. -/
  add : Float → Float → Option Float
  formatNumber : Float → String

def parseInteger (value : Bytes) : Option Int := (fromUtf8 value).bind fun text => parseI64 (trim text)

def integer (value : Bytes) (command : String) : Except RedisError Int :=
  match parseInteger value with
  | some n => .ok n
  | none => .error ⟨"ERR", s!"value is not an integer or out of range ({command})", false⟩

namespace Runtime

variable (runtime : Runtime)

/-- A command word in lower case. -/
def keyword (value : Bytes) : String := runtime.lowercase (fromUtf8Lossy value)

def float (value : Bytes) : Except RedisError runtime.Float :=
  match runtime.parseFloat (trim ((fromUtf8 value).getD "")) with
  | some n => .ok n
  | none => .error .notAFloat

end Runtime

/-- The arguments after the command name, read front to back. -/
structure Args where
  name : String
  rest : List Bytes
  deriving DecidableEq

namespace Args

def nextOptional (args : Args) : Option Bytes × Args :=
  match args.rest with
  | [] => (none, args)
  | first :: rest => (some first, { args with rest })

def nextRequired (args : Args) : Except RedisError (Bytes × Args) :=
  match args.rest with
  | [] => .error .syntaxError
  | first :: rest => .ok (first, { args with rest })

def nextInteger (args : Args) : Except RedisError (Int × Args) := do
  let (value, args) ← args.nextRequired
  return (← integer value args.name, args)

def finish (args : Args) : Except RedisError Unit :=
  if args.rest = [] then .ok () else .error .syntaxError

end Args

inductive TimeUnit where
  | seconds
  | milliseconds
  deriving DecidableEq

inductive DeadlineMode where
  | relative
  | absolute
  deriving DecidableEq

structure TtlForm where
  unit : TimeUnit
  mode : DeadlineMode
  deriving DecidableEq

namespace TtlForm

def fromOption (keyword : String) : Option TtlForm :=
  if keyword = "ex" then some ⟨.seconds, .relative⟩
  else if keyword = "px" then some ⟨.milliseconds, .relative⟩
  else if keyword = "exat" then some ⟨.seconds, .absolute⟩
  else if keyword = "pxat" then some ⟨.milliseconds, .absolute⟩
  else none

/-- The deadline in Unix milliseconds that `amount` names at `now`; a negative one
is in the past. -/
def deadline (form : TtlForm) (amount : Int) (now : Nat) : Option Int :=
  let millis := match form.unit with
    | .seconds => amount * 1000
    | .milliseconds => amount
  let deadline := match form.mode with
    | .relative => (now : Int) + millis
    | .absolute => millis
  if deadline ≤ i64Max then some deadline else none

end TtlForm

def invalidExpireTime (command : String) : RedisError :=
  ⟨"ERR", s!"invalid expire time in '{command}' command", false⟩

/-- `u64::try_from`. -/
def toU64 (n : Int) : Option Nat := if 0 ≤ n ∧ n ≤ u64Max then some n.toNat else none

/-- A deadline set by `SET`, `SETEX`, `PSETEX` or `GETEX`, at the clock reading `now`. -/
def positiveDeadline (form : TtlForm) (amount : Int) (now : Nat) (command : String) :
    Except RedisError Nat :=
  if amount ≤ 0 then .error (invalidExpireTime command)
  else
    match (form.deadline amount now).bind toU64 with
    | some deadline => .ok deadline
    | none => .error (invalidExpireTime command)

end Hashring
