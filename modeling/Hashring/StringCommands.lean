import Hashring.RedisStore

/-! String commands (crates/hashring-redis/src/commands/strings.rs). Every value the
gateway stores is a byte string. -/
namespace Hashring

open Handler

def bulkOrNil (value : Option Bytes) : Reply :=
  match value with
  | some value => .ofBytes value
  | none => .nil

def tooLarge : RedisError := ⟨"ERR", "string exceeds maximum allowed size (proto-max-bulk-len)", false⟩

namespace Strings

def get (args : Args) : Handler Reply := do
  let (key, _) ← checked args.nextRequired
  return bulkOrNil (valueOf (← store (.read key)))

def strlen (args : Args) : Handler Reply := do
  let (key, _) ← checked args.nextRequired
  return .integer (((valueOf (← store (.read key))).getD []).length)

/-- `GETRANGE`'s index rules: a negative index counts from the end, and both ends
are clamped into the value before they are compared. -/
def sliceRange (value : Bytes) (start stop : Int) : Bytes :=
  let length : Int := value.length
  if length = 0 then []
  else
    let start := max (if start < 0 then length + start else start) 0
    let stop := min (max (if stop < 0 then length + stop else stop) 0) (length - 1)
    if stop < start ∨ length ≤ start then [] else (value.take (stop + 1).toNat).drop start.toNat

def getrange (args : Args) : Handler Reply := do
  let (key, args) ← checked args.nextRequired
  let (start, args) ← checked args.nextInteger
  let (stop, _) ← checked args.nextInteger
  return .ofBytes (sliceRange ((valueOf (← store (.read key))).getD []) start stop)

def getdelDecide : Decide Reply := fun _ current =>
  match current with
  | none => .ok (.nothing .nil)
  | some current => .ok (.delete (.ofBytes current.value))

def getdel (args : Args) : Handler Reply := do
  let (key, _) ← checked args.nextRequired
  store (.update key getdelDecide)

/-- The one option `GETEX` takes: a deadline to set, or none to clear it. -/
def getexOptions (runtime : Runtime) (name : String) : Option (Option Nat) → List Bytes →
    Handler (Option (Option Nat))
  | change, [] => return change
  | change, word :: rest =>
      if change.isSome then throw .syntaxError
      else
        match TtlForm.fromOption (runtime.keyword word), rest with
        | some _, [] => throw .syntaxError
        | some form, amount :: rest => do
            let amount ← checked (integer amount name)
            let deadline ← checked (positiveDeadline form amount (← now) "getex")
            getexOptions runtime name (some (some deadline)) rest
        | none, rest =>
            if runtime.keyword word = "persist" then getexOptions runtime name
              (some none) rest else throw .syntaxError

def getexDecide (change : Option (Option Nat)) : Decide Reply := fun _ current =>
  match current with
  | none => .ok (.nothing .nil)
  | some current =>
      match change with
      | some deadline =>
          if deadline ≠ current.deadline then .ok (.expire deadline (.ofBytes current.value))
          else .ok (.nothing (.ofBytes current.value))
      | none => .ok (.nothing (.ofBytes current.value))

def getex (runtime : Runtime) (args : Args) : Handler Reply := do
  let (key, args) ← checked args.nextRequired
  let change ← getexOptions runtime args.name none args.rest
  store (.update key (getexDecide change))

inductive SetCondition where
  | absent
  | present
  deriving DecidableEq

inductive SetTtl where
  | clear
  | keep
  | atMillis (deadline : Nat)
  deriving DecidableEq

structure SetOptions where
  condition : Option SetCondition := none
  get : Bool := false
  ttl : SetTtl := .clear
  deriving DecidableEq

namespace SetOptions

/-- The options so far, and whether one of them said what the deadline becomes. -/
def parse (runtime : Runtime) (name : String) : SetOptions → Bool → List Bytes → Handler SetOptions
  | options, _, [] => return options
  | options, ttlGiven, word :: rest =>
      let option := runtime.keyword word
      if option = "nx" then
        if options.condition.isSome then throw .syntaxError
        else parse runtime name { options with condition := some .absent } ttlGiven rest
      else if option = "xx" then
        if options.condition.isSome then throw .syntaxError
        else parse runtime name { options with condition := some .present } ttlGiven rest
      else if option = "get" then parse runtime name { options with get := true } ttlGiven rest
      else if option = "keepttl" then
        if ttlGiven then throw .syntaxError else parse runtime name { options with ttl := .keep }
          true rest
      else
        match TtlForm.fromOption option, rest with
        | none, _ => throw .syntaxError
        | some _, [] => throw .syntaxError
        | some form, amount :: rest => do
            let amount ← checked (integer amount name)
            let deadline ← checked (positiveDeadline form amount (← now) "set")
            if ttlGiven then throw .syntaxError
            else parse runtime name { options with ttl := .atMillis deadline } true rest

def allows (options : SetOptions) (current : Option Current) : Bool :=
  match options.condition with
  | none => true
  | some .absent => current.isNone
  | some .present => current.isSome

def deadline (options : SetOptions) (current : Option Current) : Option Nat :=
  match options.ttl with
  | .clear => none
  | .keep => kept current
  | .atMillis deadline => some deadline

def expiry (options : SetOptions) : Expiry :=
  match options.ttl with
  | .clear => .clear
  | .keep => .keep
  | .atMillis deadline => .atMillis deadline

end SetOptions

/-- `GET` answers with what the key held whether or not the write goes through. -/
def setDecide (options : SetOptions) (value : Bytes) : Decide Reply := fun _ current =>
  let reply := if options.get then bulkOrNil (valueOf current) else .status
  if options.allows current then .ok (.put value (options.deadline current) reply)
  else .ok (.nothing (if options.get then reply else .nil))

def set (runtime : Runtime) (args : Args) : Handler Reply := do
  let (key, args) ← checked args.nextRequired
  let (value, args) ← checked args.nextRequired
  let options ← SetOptions.parse runtime args.name {} false args.rest
  if options.condition.isNone && !options.get then do
    store (.put key value options.expiry)
    return .status
  else store (.update key (setDecide options value))

/-- `SETEX` and `PSETEX`. -/
def setWithTtl (args : Args) (unit : TimeUnit) : Handler Reply := do
  let (key, args) ← checked args.nextRequired
  let (amount, args) ← checked args.nextInteger
  let (value, args) ← checked args.nextRequired
  let deadline ← checked (positiveDeadline ⟨unit, .relative⟩ amount (← now) args.name)
  store (.put key value (.atMillis deadline))
  return .status

def setnxDecide (value : Bytes) : Decide Reply := fun _ current =>
  match current with
  | some _ => .ok (.nothing (.integer 0))
  | none => .ok (.put value none (.integer 1))

def setnx (args : Args) : Handler Reply := do
  let (key, args) ← checked args.nextRequired
  let (value, _) ← checked args.nextRequired
  store (.update key (setnxDecide value))

/-- A plain `GETSET` drops the old deadline, as a plain `SET` does. -/
def getsetDecide (value : Bytes) : Decide Reply :=
  fun _ current => .ok (.put value none (bulkOrNil (valueOf current)))

def getset (args : Args) : Handler Reply := do
  let (key, args) ← checked args.nextRequired
  let (value, _) ← checked args.nextRequired
  store (.update key (getsetDecide value))

def patched (value : Bytes) (offset : Nat) (patch : Bytes) : Bytes :=
  let padded := value ++ List.replicate (offset - value.length) (byte 0)
  padded.take offset ++ patch ++ padded.drop (min (offset + patch.length) padded.length)

def setrangeDecide (offset : Nat) (patch : Bytes) : Decide Reply := fun _ current =>
  let value := patched ((valueOf current).getD []) offset patch
  .ok (.put value (kept current) (.integer value.length))

def setrange (args : Args) (maxValue : Nat) : Handler Reply := do
  let (key, args) ← checked args.nextRequired
  let (offset, args) ← checked args.nextInteger
  let (patch, _) ← checked args.nextRequired
  if offset < 0 then throw .outOfRange
  else if patch = [] then return .integer (((valueOf (← store (.read key))).getD []).length)
  else if maxValue < min (offset.toNat + patch.length) u64Max then throw tooLarge
  else store (.update key (setrangeDecide offset.toNat patch))

def appendDecide (maxValue : Nat) (suffix : Bytes) : Decide Reply := fun _ current =>
  let value := (valueOf current).getD []
  if maxValue < value.length + suffix.length then .error tooLarge
  else .ok (.put (value ++ suffix) (kept current) (.integer (value ++ suffix).length))

def append (args : Args) (maxValue : Nat) : Handler Reply := do
  let (key, args) ← checked args.nextRequired
  let (suffix, _) ← checked args.nextRequired
  store (.update key (appendDecide maxValue suffix))

/-- An absent key counts as zero; one that is not an integer is an error. -/
def incrDecide (delta : Int) : Decide Reply := fun _ current => do
  let base ← match current with
    | some current =>
        match parseInteger current.value with
        | some base => .ok base
        | none => .error RedisError.notAnInteger
    | none => .ok 0
  let updated := base + delta
  if i64Min ≤ updated ∧ updated ≤ i64Max then
    return .put (signedDecimal updated) (kept current) (.integer updated)
  else throw .overflow

/-- The amount of `INCRBY` or `DECRBY`. -/
def incrAmount (args : Args) : Except RedisError Int := do
  let (amount, args) ← args.nextInteger
  if args.name = "decrby" then
    if amount = i64Min then throw ⟨"ERR", "decrement would overflow", false⟩ else return -amount
  else return amount

/-- `INCR` and `DECR` pass their step; `INCRBY` and `DECRBY` read theirs. -/
def incrBy (args : Args) (step : Option Int) : Handler Reply := do
  let (key, args) ← checked args.nextRequired
  let delta ← match step with
    | some step => pure step
    | none => checked (incrAmount args)
  store (.update key (incrDecide delta))

def incrbyfloatDecide (runtime : Runtime) (delta : runtime.Float) : Decide Reply := fun _ current => do
  let base ← match current with
    | some current => if current.value = [] then .ok runtime.zero else runtime.float current.value
    | none => .ok runtime.zero
  match runtime.add base delta with
  | none => throw ⟨"ERR", "increment would produce NaN or Infinity", false⟩
  | some updated =>
      let formatted := utf8 (runtime.formatNumber updated)
      return .put formatted (kept current) (.ofBytes formatted)

def incrbyfloat (runtime : Runtime) (args : Args) : Handler Reply := do
  let (key, args) ← checked args.nextRequired
  let (amount, _) ← checked args.nextRequired
  let delta ← checked (runtime.float amount)
  store (.update key (incrbyfloatDecide runtime delta))

def mget (args : Args) : Handler Reply := do
  let values ← each (args.rest.map .read)
  return .array (values.map fun current => bulkOrNil (valueOf current))

/-- Arguments taken two at a time. -/
def chunks : List Bytes → Option (List (Bytes × Bytes))
  | [] => some []
  | [_] => none
  | key :: value :: rest => (chunks rest).map ((key, value) :: ·)

/-- A key named twice takes the later value. -/
def latest : List (Bytes × Bytes) → List (Bytes × Bytes)
  | [] => []
  | pair :: rest => if rest.any fun later => later.1 = pair.1 then latest rest else pair :: latest rest

def pairs (args : Args) : Except RedisError (List (Bytes × Bytes)) :=
  match chunks args.rest with
  | none => .error (.wrongArity args.name)
  | some pairs => .ok (latest pairs)

def mset (args : Args) : Handler Reply := do
  let pairs ← checked (pairs args)
  let _ ← eachWrite (pairs.map fun pair => .put pair.1 pair.2 .clear)
  return .status

/-- Declined unless it names one key, where it is `SETNX`. -/
def msetnx (args : Args) : Handler Reply := do
  match ← checked (pairs args) with
  | [(key, value)] => return .integer (if ← store (.putIfAbsent key value) then 1 else 0)
  | _ => throw ⟨"ERR", "MSETNX with more than one key is not supported by the hashring-rs Redis gateway: " ++
      "the keys cannot be set atomically; see docs/redis-compatibility.md", false⟩

end Strings

end Hashring
