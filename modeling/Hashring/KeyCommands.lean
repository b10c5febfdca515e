import Hashring.RedisStore

/-! Commands about keys rather than values: existence, deletion, renaming and
deadlines (crates/hashring-redis/src/commands/keys.rs). -/
namespace Hashring

open Handler

/-- Deletes a key that exists and says how many keys that was. -/
def deleteOne : Decide Nat := fun _ current =>
  match current with
  | some _ => .ok (.delete 1)
  | none => .ok (.nothing 0)

/-- `DEL` and `UNLINK`. -/
def delete (args : Args) : Handler Reply := do
  let removed ← eachWrite (args.rest.map fun key => .update key deleteOne)
  return .integer removed.sum

/-- `EXISTS` and `TOUCH`. -/
def exists_ (args : Args) : Handler Reply := do
  let found ← each (args.rest.map .read)
  return .integer (found.filter Option.isSome).length

def keyType (args : Args) : Handler Reply := do
  let (key, _) ← checked args.nextRequired
  match ← store (.read key) with
  | some _ => return .simple "string"
  | none => return .simple "none"

def renamed (onlyIfAbsent : Bool) : Reply := if onlyIfAbsent then .integer 1 else .status

/-- Deletes the source once the destination holds what was read from it. -/
def renameSource (source : Bytes) (current : Current) (onlyIfAbsent : Bool) : Handler Reply := do
  match ← direct (.deleteIf source (.version current.version)) with
  | some _ => return renamed onlyIfAbsent
  | none => throw ⟨"ERR", "the source key changed during RENAME; the destination holds its earlier value", false⟩

/-- Moves the value that was read. -/
def renameFound (source destination : Bytes) (onlyIfAbsent : Bool) : Option Current → Handler Reply
  | none => throw .noSuchKey
  | some current =>
      if source = destination then return if onlyIfAbsent then .integer 0 else renamed onlyIfAbsent
      else do
        client
        if onlyIfAbsent then do
          match ← direct (.putIf destination current.value (expiryOf current.deadline) .absent) with
          | none => return .integer 0
          | some _ => renameSource source current onlyIfAbsent
        else do
          store (.put destination current.value (expiryOf current.deadline))
          renameSource source current onlyIfAbsent

/-- `RENAME` and `RENAMENX`. -/
def rename (args : Args) (onlyIfAbsent : Bool) : Handler Reply := do
  let (source, args) ← checked args.nextRequired
  let (destination, _) ← checked args.nextRequired
  renameFound source destination onlyIfAbsent (← store (.read source))

/-- The `NX`, `XX`, `GT` and `LT` conditions of `EXPIRE`. -/
inductive ExpiryGuard where
  | always
  | onlyWithout
  | onlyWith
  | onlyGreater
  | onlyLess
  deriving DecidableEq

namespace ExpiryGuard

def parse (runtime : Runtime) (args : Args) : Except RedisError ExpiryGuard := do
  let (word, args) := args.nextOptional
  let guard ← match word.map runtime.keyword with
    | none => .ok always
    | some "nx" => .ok onlyWithout
    | some "xx" => .ok onlyWith
    | some "gt" => .ok onlyGreater
    | some "lt" => .ok onlyLess
    | some _ => .error RedisError.syntaxError
  match args.nextOptional.1 with
  | none => return guard
  | some _ => throw .syntaxError

def allows (guard : ExpiryGuard) (current : Option Nat) (requested : Int) : Bool :=
  match guard with
  | always => true
  | onlyWithout => current.isNone
  | onlyWith => current.isSome
  | onlyGreater => current.any fun deadline => (deadline : Int) < requested
  | onlyLess => current.all fun deadline => requested < (deadline : Int)

end ExpiryGuard

def expireDecide (guard : ExpiryGuard) (requested : Int) : Decide Reply := fun now current =>
  match current with
  | none => .ok (.nothing (.integer 0))
  | some current =>
      if guard.allows current.deadline requested then
        match toU64 requested with
        | some deadline => if now < deadline then .ok (.expire (some deadline) (.integer 1))
            else .ok (.delete (.integer 1))
        | none => .ok (.delete (.integer 1))
      else .ok (.nothing (.integer 0))

/-- `EXPIRE`, `PEXPIRE`, `EXPIREAT` and `PEXPIREAT`. -/
def expire (runtime : Runtime) (args : Args) (form : TtlForm) : Handler Reply := do
  let (key, args) ← checked args.nextRequired
  let (amount, args) ← checked args.nextInteger
  let guard ← checked (ExpiryGuard.parse runtime args)
  match form.deadline amount (← now) with
  | none => throw (invalidExpireTime args.name)
  | some requested => store (.update key (expireDecide guard requested))

def persistDecide : Decide Reply := fun _ current =>
  if (kept current).isSome then .ok (.expire none (.integer 1)) else .ok (.nothing (.integer 0))

def persist (args : Args) : Handler Reply := do
  let (key, _) ← checked args.nextRequired
  store (.update key persistDecide)

def ttl (args : Args) (unit : TimeUnit) : Handler Reply := do
  let (key, _) ← checked args.nextRequired
  match ← store (.read key) with
  | none => return .integer (-2)
  | some current =>
      match current.deadline with
      | none => return .integer (-1)
      | some deadline => do
          let remaining := deadline - (← now)
          let value := match unit with
            | .seconds => (remaining + 999) / 1000
            | .milliseconds => remaining
          return .integer (min value i64Max)

end Hashring
