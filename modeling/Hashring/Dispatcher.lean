import Hashring.CommandTable
import Hashring.Gateway
import Hashring.Glob
import Hashring.KeyCommands
import Hashring.StringCommands

/-! Command dispatch (crates/hashring-redis/src/commands/mod.rs, connection.rs and
keyspace.rs): a request is checked against the command table, then answered from
the gateway itself, handed to an extension, or carried out against the cluster
within the command's deadline. -/
namespace Hashring

inductive CommandEffect : Type → Type 1 where
  | store {α : Type} (effect : StoreEffect α) : CommandEffect α
  /-- `HashringClient::keys` with a pattern's matcher, and whether the matcher ran
  out of budget. -/
  | keys (pattern : Bytes) (maxBytes : Nat) : CommandEffect (Except ClientError (List Bytes) × Bool)
  | scan (cursor count : Nat) (pattern : Option Bytes) (maxBytes : Nat) :
      CommandEffect (Except ClientError (List Bytes × Option Token) × Bool)
  | keyCount : CommandEffect (Except ClientError Nat)
  | randomKey : CommandEffect (Except ClientError (Option Bytes))
  /-- The gateway's age in seconds. -/
  | uptime : CommandEffect Nat
  | instanceId : CommandEffect Nat
  | extension (connection : Connection) (command : CommandInfo) (arguments : List Bytes) :
      CommandEffect (Except RedisError Reply)

abbrev Command := ExceptT RedisError (Program CommandEffect)

namespace Command

def checked {α : Type} (result : Except RedisError α) : Command α := ExceptT.mk (.done result)

def ask {α : Type} (effect : CommandEffect α) : Command α := ExceptT.lift (Program.call effect)

def handled {α : Type} (handler : Handler α) : Command α := ExceptT.mk (handler.run.lift .store)

end Command

structure Dispatcher where
  runtime : Runtime
  password : Option String := none
  limits : Resp.Limits := {}
  /-- The commands of the installed extension. -/
  extension : List CommandInfo := []
  version : String
  operatingSystem : String
  processId : Nat

namespace Args

/-- The next argument as a keyword in lower case. -/
def nextKeyword (runtime : Runtime) (args : Args) : Option String × Args :=
  (args.nextOptional.1.map runtime.keyword, args.nextOptional.2)

end Args

/-! Commands over the whole keyspace. -/

namespace Keyspace

open Command

def maxKeysReplyBytes : Nat := 64 * 1024 * 1024

def defaultScanCount : Nat := 10

/-- The client's `TooLarge` as an error that says which command and what to do. -/
def tooManyKeys (command advice : String) (error : ClientError) : RedisError :=
  match error with
  | .operation failure =>
      if failure.code = .tooLarge then
        ⟨"ERR", s!"{command} gathered more than {maxKeysReplyBytes} bytes of keys; {advice}", false⟩
      else .ofClient error
  | _ => .ofClient error

def gathered {α : Type} (command advice : String) (found : Except ClientError α × Bool) :
    Except RedisError α := do
  let value ← found.1.mapError (tooManyKeys command advice)
  if found.2 then throw ⟨"ERR", s!"the {command} pattern takes too much work to match; simplify it",
    false⟩
  return value

def keys (args : Args) : Command Reply := do
  let (pattern, _) ← checked args.nextRequired
  handled Handler.client
  let found ← checked (gathered "KEYS" "narrow the pattern"
      (← Command.ask (.keys pattern maxKeysReplyBytes)))
  return .array (found.map .ofBytes)

structure ScanOptions where
  pattern : Option Bytes := none
  count : Nat := defaultScanCount
  stringsOnly : Bool := true

def scanCount (value : Bytes) : Except RedisError Nat :=
  match parseInteger value with
  | none => .error .notAnInteger
  | some count => if 1 ≤ count then .ok count.toNat else .error .syntaxError

def scanOptions (runtime : Runtime) : ScanOptions → List Bytes → Except RedisError ScanOptions
  | options, [] => .ok options
  | _, [_] => .error .syntaxError
  | options, word :: operand :: rest =>
      if runtime.keyword word = "match" then scanOptions runtime
        { options with pattern := some operand } rest
      else if runtime.keyword word = "count" then do
        scanOptions runtime { options with count := ← scanCount operand } rest
      else if runtime.keyword word = "type" then
        scanOptions runtime { options with stringsOnly := runtime.keyword operand = "string" } rest
      else .error .syntaxError

def scanReply (cursor : Nat) (keys : List Bytes) : Reply :=
  .array [.ofText (toString cursor), .array (keys.map .ofBytes)]

def scanCursor (value : Bytes) : Except RedisError Nat :=
  match (fromUtf8 value).bind parseU64 with
  | some cursor => .ok cursor
  | none => .error ⟨"ERR", "invalid cursor", false⟩

def scan (runtime : Runtime) (args : Args) : Command Reply := do
  let (value, args) ← checked args.nextRequired
  let cursor ← checked (scanCursor value)
  let options ← checked (scanOptions runtime {} args.rest)
  if ¬options.stringsOnly then return scanReply 0 []
  else do
    handled Handler.client
    let (keys, next) ← checked (gathered "SCAN" "use a smaller COUNT"
      (← Command.ask (.scan cursor options.count options.pattern maxKeysReplyBytes)))
    return scanReply (next.getD 0) keys

def dbsize : Command Reply := do
  handled Handler.client
  let count ← checked ((← Command.ask .keyCount).mapError .ofClient)
  return .integer (min (count : Int) i64Max)

def randomkey : Command Reply := do
  handled Handler.client
  return .bulk (← checked ((← Command.ask .randomKey).mapError .ofClient))

end Keyspace

/-! Commands the gateway answers itself. -/

/-- A `u64` cast to `i64`. -/
def asI64 (n : Nat) : Int :=
  if n % 2 ^ 64 < 2 ^ 63 then (n % 2 ^ 64 : Nat) else (n % 2 ^ 64 : Nat) - 2 ^ 64

def Response.failed (error : RedisError) : Response := { reply := .error error }

namespace Connection

/-- The answer of `HELLO` on this connection. -/
def greeting (connection : Connection) (version : String) : Reply :=
  .map [(utf8 "server", .ofText "hashring-rs"), (utf8 "version", .ofText version),
    (utf8 "proto", .integer connection.protocol.version), (utf8 "id", .integer (asI64 connection.id)),
    (utf8 "mode", .ofText "standalone"), (utf8 "role", .ofText "master"), (utf8 "modules", .array [])]

def info (connection : Connection) : String :=
  let name := (connection.name.map fromUtf8Lossy).getD ""
  s!"id={connection.id} addr=127.0.0.1:0 laddr=127.0.0.1:0 fd=8 name={name} " ++
  "age=0 idle=0 flags=N db=0 sub=0 psub=0 ssub=0 multi=-1 watch=0 qbuf=26 qbuf-free=20448 argv-mem=10 multi-mem=0 " ++
  s!"rbs=1024 rbp=0 obl=0 oll=0 omem=0 tot-net-in=0 tot-net-out=0 resp={connection.protocol.version}"

end Connection

/-- The parameters `CONFIG GET` reports and `CONFIG SET` accepts unchanged. -/
def configEntries : List (String × String) :=
  [("maxmemory", "0"), ("maxmemory-policy", "noeviction"), ("appendonly", "no"),
    ("appendfsync", "everysec"), ("save", ""),
   ("dir", ""), ("dbfilename", ""), ("timeout", "0"), ("notify-keyspace-events", ""),
     ("lazyfree-lazy-user-del", "no")]

/-- `Pattern::matches`, which has no budget to run out of. -/
def Glob.Pattern.matches (pattern : Glob.Pattern) (text : Bytes) : Bool :=
  (pattern.matchesWithin text u64Max).1.getD false

namespace Dispatcher

variable (dispatcher : Dispatcher)

/-- Registered commands take precedence over the built-in ones. -/
def command (name : String) : Option CommandInfo :=
  (CommandInfo.find dispatcher.extension name).or (lookupCommand name)

def commands : List CommandInfo :=
  (commandTable.filter fun info => ¬dispatcher.extension.any fun item => item.name = info.name) ++
    dispatcher.extension

def requiresAuth : Bool := dispatcher.password.isSome

def checkCredentials (user : Option Bytes) (password : Bytes) : Except RedisError Unit :=
  match dispatcher.password with
  | none => .error ⟨"ERR",
      "Client sent AUTH, but no password is set. Did you mean AUTH <username> <password>?", false⟩
  | some expected =>
      if (user.all fun user => dispatcher.runtime.keyword user = "default") ∧
        utf8 expected = password then .ok ()
      else .error .wrongPass

/-- The options of `HELLO` after its protocol version. -/
def helloOptions (runtime : Runtime) :
    Option (Bytes × Bytes) → Option Bytes → List Bytes →
      Except RedisError (Option (Bytes × Bytes) × Option Bytes)
  | credentials, name, [] => .ok (credentials, name)
  | credentials, name, word :: rest =>
      if runtime.keyword word = "auth" then
        match rest with
        | user :: password :: rest => helloOptions runtime (some (user, password)) name rest
        | _ => .error .syntaxError
      else if runtime.keyword word = "setname" then
        match rest with
        | name :: rest => helloOptions runtime credentials (some name) rest
        | [] => .error .syntaxError
      else .error .syntaxError

/-- The protocol `HELLO` asks for and its remaining arguments. -/
def helloProtocol (current : Protocol) (rest : List Bytes) : Except RedisError (Protocol × List Bytes) :=
  match rest with
  | [] => .ok (current, [])
  | first :: later =>
      match parseInteger first with
      | none => .ok (current, rest)
      | some version =>
          if version = 2 then .ok (.resp2, later)
          else if version = 3 then .ok (.resp3, later)
          else .error ⟨"NOPROTO", s!"unsupported protocol version {version}", false⟩

/-- Everything is checked before anything is applied. -/
def hello (connection : Connection) (args : Args) : Except RedisError (Reply × Connection) := do
  let (protocol, rest) ← helloProtocol connection.protocol args.rest
  let (credentials, name) ← helloOptions dispatcher.runtime none none rest
  let authenticated ← match credentials with
    | some (user, password) => do
        dispatcher.checkCredentials (some user) password
        pure true
    | none => pure connection.authenticated
  let connection := { connection with authenticated, name := name.or connection.name, protocol }
  return (connection.greeting dispatcher.version, connection)

def auth (connection : Connection) (args : Args) : Except RedisError (Reply × Connection) := do
  let (first, args) ← args.nextRequired
  let (second, args) := args.nextOptional
  args.finish
  match second with
  | some password => dispatcher.checkCredentials (some first) password
  | none => dispatcher.checkCredentials none first
  return (.status, { connection with authenticated := true })

def reset (connection : Connection) (args : Args) : Except RedisError (Reply × Connection) := do
  args.finish
  return (.simple "RESET", { connection with
    protocol := .resp2, name := none, authenticated := dispatcher.password.isNone, replyMode := .on })

def ping (args : Args) : Except RedisError Reply :=
  match args.rest with
  | [] => .ok (.simple "PONG")
  | [message] => .ok (.ofBytes message)
  | _ => .error (.wrongArity "ping")

def echo (args : Args) : Except RedisError Reply := do
  let (message, _) ← args.nextRequired
  return .ofBytes message

def select (args : Args) : Except RedisError Reply := do
  let (index, _) ← args.nextRequired
  if parseInteger index = some 0 then return .status
  else throw ⟨"ERR", "DB index is out of range. This gateway serves one database, 0", false⟩

def unknownSubcommand (subcommand : String) : RedisError :=
  ⟨"ERR", s!"Unknown subcommand or wrong number of arguments for '{subcommand}'", false⟩

def clientSubcommand (connection : Connection) (subcommand : String) (args : Args) :
    Except RedisError (Reply × Connection) := do
  if subcommand = "id" then return (.integer (asI64 connection.id), connection)
  else if subcommand = "setname" then do
    let (name, args) ← args.nextRequired
    args.finish
    return (.status, { connection with name := some name })
  else if subcommand = "getname" then
    return (match connection.name with
      | some name => .ofBytes name
      | none => .nil, connection)
  else if subcommand = "setinfo" then do
    let (_, args) ← args.nextRequired
    let (_, args) ← args.nextRequired
    args.finish
    return (.status, connection)
  else if subcommand ∈ ["no-evict", "no-touch", "no-evict-on-expiry", "unpause", "tracking"] then
    return (.status, connection)
  else if subcommand = "info" then return (.ofText connection.info, connection)
  else if subcommand = "list" then return (.ofText "", connection)
  else if subcommand = "getredir" then return (.integer (-1), connection)
  else throw (unknownSubcommand subcommand)

def answered (connection : Connection) : Except RedisError Reply → Response × Connection
  | .ok reply => ({ reply := .ok reply }, connection)
  | .error error => (.failed error, connection)

def settled (connection : Connection) : Except RedisError (Reply × Connection) → Response × Connection
  | .ok (reply, next) => ({ reply := .ok reply }, next)
  | .error error => (.failed error, connection)

def replyModeOf (word : Option String) : Option ReplyMode :=
  match word with
  | none => none
  | some word =>
      if word = "on" then some .on else if word = "off" then some .off else if word =
        "skip" then some .skip else none

def clientCommand (connection : Connection) (args : Args) : Response × Connection :=
  match args.nextKeyword dispatcher.runtime with
  | (none, _) => (.failed (.wrongArity "client"), connection)
  | (some subcommand, args) =>
      if subcommand = "reply" then
        match replyModeOf (args.nextKeyword dispatcher.runtime).1 with
        | none => (.failed .syntaxError, connection)
        | some mode =>
            match (args.nextKeyword dispatcher.runtime).2.finish with
            | .ok _ => ({ reply := .ok .status, effect := .replyMode mode }, connection)
            | .error error => (.failed error, connection)
      else settled connection (clientSubcommand connection subcommand args)

def commandCommand (args : Args) : Except RedisError Reply :=
  match args.nextKeyword dispatcher.runtime with
  | (none, _) => .ok (.array (dispatcher.commands.map CommandInfo.toReply))
  | (some subcommand, args) =>
      if subcommand = "count" then .ok (.array [.integer dispatcher.commands.length])
      else if subcommand = "docs" then .ok (.array [])
      else if subcommand = "info" then
        .ok (.array (args.rest.map fun name =>
          match dispatcher.command (fromUtf8Lossy name) with
          | some info => info.toReply
          | none => .nil))
      else if subcommand = "getkeys" ∨ subcommand = "getkeysandflags" then .error
        (.unsupported "COMMAND GETKEYS")
      else .error (unknownSubcommand subcommand)

/-- The names in `CONFIG SET`, each followed by its value. -/
def configSet (runtime : Runtime) : List Bytes → Except RedisError Reply
  | [] => .ok .status
  | [_] => .error .syntaxError
  | name :: _ :: rest =>
      if configEntries.any fun entry => entry.1 = runtime.keyword name then configSet runtime rest
      else
        .error ⟨"ERR", s!"Unknown option or number of arguments for CONFIG SET - '{runtime.keyword name}'",
          false⟩

def config (args : Args) : Except RedisError Reply :=
  match args.nextKeyword dispatcher.runtime with
  | (none, _) => .error (.wrongArity "config")
  | (some subcommand, args) =>
      if subcommand = "get" then do
        let (pattern, _) ← args.nextRequired
        let pattern := Glob.Pattern.new (utf8 (dispatcher.runtime.keyword pattern))
        return .map ((configEntries.filter fun entry => pattern.matches (utf8 entry.1)).map fun entry =>
          (utf8 entry.1, .ofText entry.2))
      else if subcommand = "set" then
        if args.rest = [] ∨ args.rest.length % 2 ≠ 0 then .error .syntaxError
        else configSet dispatcher.runtime args.rest
      else if subcommand = "resetstat" ∨ subcommand = "rewrite" then .ok .status
      else .error ⟨"ERR", s!"Unknown CONFIG subcommand '{subcommand}'", false⟩

def serverSection (uptime instanceId : Nat) : String :=
  s!"# Server\r\nredis_version:{dispatcher.version}\r\nredis_mode:standalone\r\nos:{dispatcher.operatingSystem}\r\n" ++
  s!"arch_bits:64\r\nprocess_id:{dispatcher.processId}\r\nrun_id:{instanceId}\r\ntcp_port:0\r\n" ++
  s!"uptime_in_seconds:{uptime}\r\nuptime_in_days:{uptime / 86400}\r\n" ++
  "executable:hashring-rs redis-gateway\r\nconfig_file:\r\n"

/-- The sections of `INFO` behind the first, with their names. -/
def infoSections (uptime : Nat) : List (String × String) :=
  [("clients", "# Clients\r\nconnected_clients:0\r\nblocked_clients:0\r\n"),
   ("memory", "# Memory\r\nused_memory:0\r\nused_memory_human:0B\r\nmaxmemory:0\r\nmaxmemory_policy:noeviction\r\n"),
   ("persistence", "# Persistence\r\nloading:0\r\naof_enabled:0\r\nrdb_changes_since_last_save:0\r\n"),
   ("stats", "# Stats\r\ntotal_connections_received:0\r\ntotal_commands_processed:0\r\n" ++
      s!"uptime_in_seconds:{uptime}\r\n"),
   ("replication", "# Replication\r\nrole:master\r\nconnected_slaves:0\r\n"),
   ("cluster", "# Cluster\r\ncluster_enabled:0\r\ncluster_state:ok\r\ncluster_slots_assigned:0\r\n"),
   ("keyspace", "# Keyspace\r\n")]

def info (args : Args) : Command Reply := do
  let (named, args) := args.nextKeyword dispatcher.runtime
  if args.rest ≠ [] then throw (.wrongArity "info")
  let uptime ← Command.ask .uptime
  let server ← if named.all (· = "server") then do
      pure (dispatcher.serverSection uptime (← Command.ask .instanceId))
    else pure ""
  let others := (infoSections uptime).filter fun entry => named.all (· = entry.1)
  return .ofText (others.foldl (fun body entry => body ++ entry.2) server)

def localCommand (command : CommandInfo) (connection : Connection) (args : Args) :
    Program CommandEffect (Response × Connection) :=
  if command.name = "quit" then .done ({ reply := .ok .status, effect := .close }, connection)
  else if command.name = "client" then .done (dispatcher.clientCommand connection args)
  else if command.name = "ping" then .done (answered connection (ping args))
  else if command.name = "echo" then .done (answered connection (echo args))
  else if command.name = "hello" then .done (settled connection (dispatcher.hello connection args))
  else if command.name = "auth" then .done (settled connection (dispatcher.auth connection args))
  else if command.name = "select" then .done (answered connection (select args))
  else if command.name = "reset" then .done (settled connection (dispatcher.reset connection args))
  else if command.name = "command" then .done (answered connection (dispatcher.commandCommand args))
  else if command.name = "info" then (dispatcher.info args).run.andThen fun result =>
    .done (answered connection result)
  else if command.name = "config" then .done (answered connection (dispatcher.config args))
  else .done (.failed (.unsupported (asciiUppercase command.name)), connection)

def handler (name : String) (args : Args) : Option (Handler Reply) :=
  let maxValue := dispatcher.limits.maxBulkBytes
  let runtime := dispatcher.runtime
  match name with
  | "get" => some (Strings.get args)
  | "getdel" => some (Strings.getdel args)
  | "getex" => some (Strings.getex runtime args)
  | "getrange" => some (Strings.getrange args)
  | "set" => some (Strings.set runtime args)
  | "setex" => some (Strings.setWithTtl args .seconds)
  | "psetex" => some (Strings.setWithTtl args .milliseconds)
  | "setnx" => some (Strings.setnx args)
  | "setrange" => some (Strings.setrange args maxValue)
  | "mset" => some (Strings.mset args)
  | "msetnx" => some (Strings.msetnx args)
  | "mget" => some (Strings.mget args)
  | "getset" => some (Strings.getset args)
  | "append" => some (Strings.append args maxValue)
  | "strlen" => some (Strings.strlen args)
  | "incr" => some (Strings.incrBy args (some 1))
  | "decr" => some (Strings.incrBy args (some (-1)))
  | "incrby" | "decrby" => some (Strings.incrBy args none)
  | "incrbyfloat" => some (Strings.incrbyfloat runtime args)
  | "del" | "unlink" => some (delete args)
  | "exists" | "touch" => some (exists_ args)
  | "type" => some (keyType args)
  | "rename" => some (rename args false)
  | "renamenx" => some (rename args true)
  | "expire" => some (expire runtime args ⟨.seconds, .relative⟩)
  | "pexpire" => some (expire runtime args ⟨.milliseconds, .relative⟩)
  | "expireat" => some (expire runtime args ⟨.seconds, .absolute⟩)
  | "pexpireat" => some (expire runtime args ⟨.milliseconds, .absolute⟩)
  | "persist" => some (persist args)
  | "ttl" => some (ttl args .seconds)
  | "pttl" => some (ttl args .milliseconds)
  | _ => none

def cluster (name : String) (args : Args) : Command Reply :=
  match dispatcher.handler name args with
  | some handler => Command.handled handler
  | none =>
      if name = "keys" then Keyspace.keys args
      else if name = "scan" then Keyspace.scan dispatcher.runtime args
      else if name = "dbsize" then Keyspace.dbsize
      else if name = "randomkey" then Keyspace.randomkey
      else throw (.unsupported (asciiUppercase name))

/-- A task the command's deadline may end between any two of its effects. A private
store answers at once, before the deadline is looked at. -/
def timed (overlaid : Bool) (command : CommandInfo) (connection : Connection) (task : Command Reply) :
    Program CommandEffect (Response × Connection) :=
  (if overlaid then task.run else Program.interruptible (.done (.error (.deadline command.writes)))
    task.run).andThen
    fun result => .done (answered connection result)

/-- `execute_with_store`; with a private store the store effects are its own. -/
def executeWithStore (overlaid : Bool) (connection : Connection) (args : List Bytes) :
    Program CommandEffect (Response × Connection) :=
  match args with
  | [] => .done (.failed ⟨"ERR", "empty multibulk", false⟩, connection)
  | first :: rest =>
      let name := dispatcher.runtime.keyword first
      match dispatcher.command name with
      | none => .done (.failed ⟨"ERR", s!"unknown command '{name}', with args beginning with: ",
          false⟩, connection)
      | some command =>
          if ¬command.declined ∧ ¬command.accepts args.length then .done
            (.failed (.wrongArity command.name), connection)
          else if dispatcher.requiresAuth ∧ ¬connection.authenticated ∧ ¬command.preAuth then
            .done (.failed .noAuth, connection)
          else if command.declined then .done (.failed (.unsupported (asciiUppercase command.name)),
            connection)
          else if dispatcher.extension.any fun item => item.name = command.name then
            timed false command connection
              (ExceptT.mk (Program.call (.extension connection command rest)))
          else if overlaid ∧ command.keyspace then
            .done (.failed ⟨"ERR", "keyspace commands cannot use a private store", false⟩, connection)
          else if ¬command.reachesCluster then dispatcher.localCommand command connection
            ⟨command.name, rest⟩
          else timed overlaid command connection (dispatcher.cluster command.name ⟨command.name, rest⟩)

def execute (connection : Connection) (args : List Bytes) :
    Program CommandEffect (Response × Connection) :=
  dispatcher.executeWithStore false connection args

end Dispatcher
end Hashring
