import Hashring.ClientErrors

/-! The commands the gateway claims (crates/hashring-redis/src/table.rs). Every
request is checked against this table before a handler sees it. -/
namespace Hashring

structure CommandInfo where
  name : String
  /-- Counts the name; negative means at least so many. -/
  arity : Int
  flags : List String
  firstKey : Int := 0
  lastKey : Int := 0
  step : Int := 0
  declined : Bool := false
  /-- Reaches the cluster without naming a key. -/
  keyspace : Bool := false
  deriving DecidableEq

namespace CommandInfo

def command (name : String) (arity : Int) (flags : List String) : CommandInfo := { name, arity, flags }

def refused (name : String) (arity : Int) (flags : List String) : CommandInfo :=
  { command name arity flags with declined := true }

def overKeyspace (name : String) (arity : Int) (flags : List String) : CommandInfo :=
  { command name arity flags with keyspace := true }

def keyed (name : String) (arity : Int) (flags : List String) (firstKey lastKey step : Int) :
    CommandInfo :=
  { name, arity, flags, firstKey, lastKey, step }

def read : List String := ["readonly", "fast"]
def write : List String := ["write", "denyoom"]
def admin : List String := ["admin", "loading", "stale"]
def connectionLocal : List String := ["loading", "stale", "fast"]

/-- `given` counts the command name. -/
def accepts (info : CommandInfo) (given : Nat) : Bool :=
  if info.arity < 0 then decide (-info.arity ≤ given) else decide ((given : Int) = info.arity)

/-- May run before the connection authenticates. -/
def preAuth (info : CommandInfo) : Bool := info.flags.contains "no_auth"

/-- Changes data, so a command that passes its deadline may have done so. -/
def writes (info : CommandInfo) : Bool := info.flags.contains "write"

def hasKeys (info : CommandInfo) : Bool := info.firstKey ≠ 0

def reachesCluster (info : CommandInfo) : Bool := info.hasKeys || info.keyspace

def keysEnd (info : CommandInfo) (given : Nat) : Nat :=
  if info.lastKey < 0 then given - (info.lastKey.natAbs - 1) else min (info.lastKey.toNat + 1) given

/-- The key arguments; `args` begins with the command name. -/
def keys (info : CommandInfo) (args : List Bytes) : List Bytes :=
  if ¬info.hasKeys then []
  else
    let first := info.firstKey.toNat
    let step := max (if info.step < 0 then 1 else info.step.toNat) 1
    ((List.range (info.keysEnd args.length)).filter fun index => first ≤ index ∧
      (index - first) % step = 0).filterMap
      (args[·]?)

def toReply (info : CommandInfo) : Reply :=
  .array [.ofText info.name, .integer info.arity, .array (info.flags.map .ofText), .integer info.firstKey,
    .integer info.lastKey, .integer info.step]

end CommandInfo

open CommandInfo in
/-- Every command the gateway answers, and those it knows but declines. -/
def commandTable : List CommandInfo :=
  [command "ping" (-1) ["fast"],
   command "echo" 2 read,
   command "hello" (-1) ["no_auth"],
   command "auth" (-2) ["no_auth", "loading", "stale"],
   command "select" 2 connectionLocal,
   command "client" (-2) admin,
   command "reset" 1 ["no_auth", "loading", "stale"],
   command "quit" (-1) ["no_auth", "loading", "stale"],
   command "command" (-1) connectionLocal,
   command "info" (-1) connectionLocal,
   command "config" (-2) admin,
   keyed "get" 2 read 1 1 1,
   keyed "getdel" 2 write 1 1 1,
   keyed "getex" (-2) write 1 1 1,
   keyed "getrange" 4 read 1 1 1,
   keyed "set" (-3) write 1 1 1,
   keyed "setex" 4 write 1 1 1,
   keyed "psetex" 4 write 1 1 1,
   keyed "setnx" 3 write 1 1 1,
   keyed "setrange" 4 write 1 1 1,
   keyed "mset" (-3) write 1 (-1) 2,
   keyed "msetnx" (-3) write 1 (-1) 2,
   keyed "mget" (-2) read 1 (-1) 1,
   keyed "getset" 3 write 1 1 1,
   keyed "append" 3 write 1 1 1,
   keyed "strlen" 2 read 1 1 1,
   keyed "incr" 2 write 1 1 1,
   keyed "decr" 2 write 1 1 1,
   keyed "incrby" 3 write 1 1 1,
   keyed "decrby" 3 write 1 1 1,
   keyed "incrbyfloat" 3 write 1 1 1,
   keyed "del" (-2) write 1 (-1) 1,
   keyed "unlink" (-2) ["write", "fast"] 1 (-1) 1,
   keyed "exists" (-2) read 1 (-1) 1,
   keyed "touch" (-2) read 1 (-1) 1,
   keyed "type" 2 read 1 1 1,
   keyed "rename" 3 write 1 2 1,
   keyed "renamenx" 3 write 1 2 1,
   keyed "expire" (-3) write 1 1 1,
   keyed "pexpire" (-3) write 1 1 1,
   keyed "expireat" (-3) write 1 1 1,
   keyed "pexpireat" (-3) write 1 1 1,
   keyed "persist" 2 write 1 1 1,
   keyed "ttl" 2 read 1 1 1,
   keyed "pttl" 2 read 1 1 1,
   overKeyspace "keys" 2 ["readonly"],
   overKeyspace "scan" (-2) ["readonly"],
   overKeyspace "dbsize" 1 ["readonly", "fast"],
   overKeyspace "randomkey" 1 ["readonly"],
   refused "flushdb" (-1) write,
   refused "flushall" (-1) write]

/-- `str::eq_ignore_ascii_case`. -/
def eqIgnoreAsciiCase (a b : String) : Bool := a.toList.map Char.toLower = b.toList.map Char.toLower

def CommandInfo.find (commands : List CommandInfo) (name : String) : Option CommandInfo :=
  commands.find? fun info => eqIgnoreAsciiCase info.name name

def lookupCommand (name : String) : Option CommandInfo := CommandInfo.find commandTable name

/-- `str::to_ascii_uppercase`. -/
def asciiUppercase (text : String) : String := String.ofList (text.toList.map Char.toUpper)

end Hashring
