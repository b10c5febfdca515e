import Hashring.PrivateStore
import Hashring.ScriptCache

/-! Running a script (crates/hashring-redis-lua-experimental/src/commands.rs and
script/mod.rs). Each attempt runs in private on the declared key as it was read;
its final state is published in one write, on the condition that the key is
still as read, and otherwise the whole attempt is made again. -/
namespace Hashring

open Program

/-- The commands a script may not run. -/
def refusedInScripts : List String :=
  ["auth", "hello", "reset", "select", "client", "quit", "eval", "evalsha", "script", "multi",
    "exec", "discard", "watch",
   "keys", "scan", "dbsize", "randomkey"]

def textBefore (mark : List Char) : List Char → List Char
  | [] => []
  | c :: rest => if mark.isPrefixOf (c :: rest) then [] else c :: textBefore mark rest

/-- One more character of a text that becomes one line; the flag says that a line
break is owed. -/
def joinLine (line : List Char × Bool) (c : Char) : List Char × Bool :=
  if isBreak c then (line.1, true)
  else if c = ' ' ∧ line.2 ∧ line.1.getLast? = some ' ' then line
  else ((if line.2 then line.1 ++ [' '] else line.1) ++ [c], false)

/-- `one_line`: every line break is a space. -/
def joinedLines (message : List Char) : List Char :=
  ((message.foldl joinLine ([], false)).1.reverse.dropWhile isWhitespace).reverse

/-- A failure of the script itself, as the client is told it: its first line
without Lua's traceback. -/
def scriptError (message : String) : RedisError :=
  ⟨"ERR", "user_script: " ++
    String.ofList (joinedLines (textBefore "\nstack traceback".toList message.toList)), false⟩

/-- `str::to_ascii_lowercase`. -/
def asciiLowercase (text : String) : String := String.ofList (text.toList.map Char.toLower)

def checkDeclared (declared command : List Bytes) : Except RedisError Unit :=
  match command with
  | [] => .ok ()
  | name :: _ =>
      let spelled := fromUtf8Lossy name
      match lookupCommand (asciiLowercase spelled) with
      | none => .error (scriptError s!"unknown command '{spelled}'")
      | some info =>
          match (info.keys command).find? fun key => ¬declared.contains key with
          | none => .ok ()
          | some key => .error (scriptError
              (s!"the command '{asciiLowercase spelled}' touches '{fromUtf8Lossy key}', " ++
              "which this script did not declare in KEYS; a script here may only touch the keys it declares"))

/-- What a script asks of the gateway: one command, as `redis.call` and
`redis.pcall` pass it on. -/
inductive HostCall : Type → Type 1 where
  | call (command : List Bytes) : HostCall (Except RedisError Reply)

/-- The gateway a script runs in. `ω` is the interpreter's own state, which one
script may leave changed for the next. -/
structure Host (ω : Type) where
  dispatcher : Dispatcher
  /-- The client's connection; a script sees a copy of it. -/
  connection : Connection
  /-- `Runtime::run`: what the script does between its commands, and where its
  budget stops it. -/
  interpret : ω → ScriptCall → Program HostCall (Except RedisError Reply × ω)

/-- The world of a running script. -/
inductive ScriptEffect (ω : Type) : Type → Type 1 where
  | client {α : Type} (call : ClientCall α) : ScriptEffect ω α
  | host {α : Type} (effect : HostEffect α) : ScriptEffect ω α
  /-- One script at a time. -/
  | enter : ScriptEffect ω Unit
  | leave : ScriptEffect ω Unit
  | takeRuntime : ScriptEffect ω ω
  | putRuntime (runtime : ω) : ScriptEffect ω Unit

abbrev ScriptTask (ω : Type) := ExceptT RedisError (Program (ScriptEffect ω))

namespace ScriptState

def expect (expected : Option RecordVersion) : Expect :=
  match expected with
  | some version => .version version
  | none => .absent

/-- Publishes what was staged. Whether the key was still as read. -/
def commit (state : ScriptState) : StoreTask Bool :=
  if state.snapshot.dirty then
    match state.key, state.snapshot.current with
    | none, _ => ExceptT.mk .halt
    | some key, some current => do
        return (← askOrFail (.putIf key current.value (expiryOf current.deadline)
          (expect state.snapshot.expected))).isSome
    | some key, none => do
        return (← askOrFail (.deleteIf key (expect state.snapshot.expected))).isSome
  else return true

end ScriptState

namespace Host

variable {ω : Type} (host : Host ω)

/-- `Host::call`: the gateway's policy, then the ordinary dispatcher. -/
def call (command : List Bytes) (state : ScriptState) :
    Program HostEffect (Except RedisError Reply × ScriptState) :=
  let name := (command.head?.map host.dispatcher.runtime.keyword).getD ""
  if refusedInScripts.contains name then
    .done (.error ⟨"ERR", s!"This command is not allowed from a script: {name}", false⟩, state)
  else
    (host.dispatcher.executePrivately { host.connection with authenticated := true } command
        state).andThen fun ended =>
      .done (ended.1.1.reply, ended.2)

/-- `run_command`. -/
def runCommand (declared : List Bytes) : {α : Type} → HostCall α → ScriptState →
    Program HostEffect (α × ScriptState)
  | _, .call command, state =>
      match checkDeclared declared command with
      | .error error => .done (.error error, state)
      | .ok () => host.call command state

def attempt (call : ScriptCall) (runtime : ω) (current : Option Current) :
    Program HostEffect ((Except RedisError Reply × ω) × ScriptState) :=
  (host.interpret runtime call).threaded (fun effect => host.runCommand call.keys effect)
    (.new call.keys.head? current)

def ask {α : Type} (effect : ScriptEffect ω α) : ScriptTask ω α := ExceptT.lift (Program.call effect)

def store {α : Type} (task : StoreTask α) : ScriptTask ω α := ExceptT.mk (task.run.lift .client)

def readDeclared (call : ScriptCall) : ScriptTask ω (Option Current) :=
  match call.keys.head? with
  | some key => store (do
      sharedClient
      readWith key)
  | none => pure none

/-- An attempt, with the interpreter taken out for its length. -/
def runPrivately (call : ScriptCall) (current : Option Current) :
    ScriptTask ω (Except RedisError Reply × ScriptState) := do
  let ended ← ExceptT.lift ((host.attempt call (← ask .takeRuntime) current).lift .host)
  ask (.putRuntime ended.1.2)
  return (ended.1.1, ended.2)

/-- One turn of `run`: read, run in private, publish if the key is still as read. -/
def round (call : ScriptCall) (_ : Unit) : ScriptTask ω (Unit ⊕ Except RedisError Reply) := do
  let (answer, state) ← host.runPrivately call (← readDeclared call)
  match call.keys.head? with
  | none => return .inr answer
  | some _ => return if ← store state.commit then .inr answer else .inl ()

def tooManyKeys : RedisError := ⟨"ERR", "a script may declare at most one key", false⟩

/-- `run`. The answer of the last attempt stands, even where it is an error: what
was staged before the error was published. -/
def run (call : ScriptCall) : ScriptTask ω Reply := do
  if 1 < call.keys.length then throw tooManyKeys
  ask .enter
  let result ← Program.attempt (tryLoop (host.round call) ())
  ask .leave
  match result with
  | .ok (.ok reply) => return reply
  | .ok (.error error) | .error error => throw error

end Host
end Hashring
