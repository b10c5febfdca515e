import Hashring.ClientRetry
import Hashring.CommandArgs
import Hashring.TaskPool

/-! How a command reaches the cluster (crates/hashring-redis/src/commands/store.rs,
client.rs). A handler is a program over what it asks of the store; against the
cluster each such request is a program over calls of the client. -/
namespace Hashring

/-- A key as one read saw it. -/
structure Current where
  value : Bytes
  /-- Absolute Unix milliseconds. -/
  deadline : Option Nat
  version : RecordVersion
  deriving DecidableEq

/-- What a command decided to do with a key, and what it answers once that is done. -/
inductive Change (α : Type) where
  | put (value : Bytes) (deadline : Option Nat) (reply : α)
  | expire (deadline : Option Nat) (reply : α)
  | delete (reply : α)
  | nothing (reply : α)

/-- Decides from a clock reading and what was read. -/
abbrev Decide (α : Type) := Nat → Option Current → Except RedisError (Change α)

inductive KeyEffect : Type → Type 1 where
  | read (key : Bytes) : KeyEffect (Except RedisError (Option Current))
  | put (key value : Bytes) (expiry : Expiry) : KeyEffect (Except RedisError Unit)
  | putIfAbsent (key value : Bytes) : KeyEffect (Except RedisError Bool)
  | update {α : Type} (key : Bytes) (decide : Decide α) : KeyEffect (Except RedisError α)

structure GetOutput where
  value : Bytes
  version : RecordVersion
  topologyEpoch : Nat
  expiresAtUnixMillis : Option Nat
  deriving DecidableEq

structure PutOutput where
  version : RecordVersion
  topologyEpoch : Nat
  deriving DecidableEq

inductive ClientCall : Type → Type 1 where
  | now : ClientCall Nat
  | connect : ClientCall (Except ClientError Unit)
  | lock (stripe : Nat) : ClientCall Unit
  | unlock (stripe : Nat) : ClientCall Unit
  | get (key : Bytes) : ClientCall (Except ClientError GetOutput)
  | putWithExpiry (key value : Bytes) (expiry : Expiry) : ClientCall (Except ClientError PutOutput)
  | putIf (key value : Bytes) (expiry : Expiry) (expected : Expect) :
      ClientCall (Except ClientError (Option PutOutput))
  | setExpiryIf (key : Bytes) (deadline : Option Nat) (expected : Expect) :
      ClientCall (Except ClientError (Option PutOutput))
  | deleteIf (key : Bytes) (expected : Expect) :
      ClientCall (Except ClientError (Option HashringClient.DeleteOutput))

abbrev StoreTask := ExceptT RedisError (Program ClientCall)

def ask {α : Type} (call : ClientCall α) : StoreTask α := ExceptT.lift (Program.call call)

def askOrFail {α : Type} (call : ClientCall (Except ClientError α)) : StoreTask α := do
  match ← ask call with
  | .ok value => return value
  | .error error => throw (.ofClient error)

def connectError (error : ClientError) : RedisError :=
  ⟨"TRYAGAIN", s!"cluster is unavailable: {error.text}", false⟩

/-- `SharedClient::get`. -/
def sharedClient : StoreTask Unit := do
  match ← ask .connect with
  | .ok _ => return ()
  | .error error => throw (connectError error)

def stripes : Nat := 4096

/-- FNV-1a. -/
def stripeOf (key : Bytes) : Nat :=
  key.foldl (fun hash byte => (hash ^^^ byte.val) * 0x100000001b3 % 2 ^ 64) 0xcbf29ce484222325 % stripes

/-- A conditional write states the deadline it computed from what it read. -/
def expiryOf (deadline : Option Nat) : Expiry :=
  match deadline with
  | none => .clear
  | some unixMillis => .atMillis unixMillis

def kept (current : Option Current) : Option Nat := current.bind (·.deadline)

def valueOf (current : Option Current) : Option Bytes := current.map (·.value)

def readWith (key : Bytes) : StoreTask (Option Current) := do
  match ← ask (.get key) with
  | .ok output =>
      return some
        { value := output.value, deadline := output.expiresAtUnixMillis, version := output.version }
  | .error (.operation failure) =>
      if failure.code = .notFound then return none else throw (.ofClient (.operation failure))
  | .error error => throw (.ofClient error)

/-- The condition that the key is still as it was read. -/
def expectedFor (current : Option Current) : Expect :=
  match current with
  | some current => .version current.version
  | none => .absent

/-- One turn of `Store::update`: read, decide, write if the key is still as read. -/
def updateRound {α : Type} (key : Bytes) (decide : Decide α) (_ : Unit) : StoreTask (Unit ⊕ α) := do
  let current ← readWith key
  match decide (← ask .now) current with
  | .error error => throw error
  | .ok (.nothing reply) => return .inr reply
  | .ok (.put value deadline reply) => do
      let applied ← askOrFail (.putIf key value (expiryOf deadline) (expectedFor current))
      return if applied.isSome then .inr reply else .inl ()
  | .ok (.expire deadline reply) => do
      let applied ← askOrFail (.setExpiryIf key deadline (expectedFor current))
      return if applied.isSome then .inr reply else .inl ()
  | .ok (.delete reply) => do
      let applied ← askOrFail (.deleteIf key (expectedFor current))
      return if applied.isSome then .inr reply else .inl ()

def underKeyLock {α : Type} (key : Bytes) (body : StoreTask α) : StoreTask α := do
  ask (.lock (stripeOf key))
  let result ← Program.attempt body
  ask (.unlock (stripeOf key))
  match result with
  | .ok value => return value
  | .error error => throw error

/-- The cluster branches of `Store`. -/
def KeyEffect.cluster : {α : Type} → KeyEffect α → Program ClientCall α
  | _, .read key => (do
      sharedClient
      readWith key : StoreTask (Option Current))
  | _, .put key value expiry => (do
      sharedClient
      let _ ← askOrFail (.putWithExpiry key value expiry)
      return () : StoreTask Unit)
  | _, .putIfAbsent key value => (do
      sharedClient
      return (← askOrFail (.putIf key value .clear .absent)).isSome : StoreTask Bool)
  | _, .update key decide => underKeyLock key (do
      sharedClient
      Program.tryLoop (updateRound key decide) ())

/-- What a handler asks for. `all` runs one operation for each key side by side. -/
inductive StoreEffect : Type → Type 1 where
  | now : StoreEffect Nat
  | one {α : Type} (effect : KeyEffect α) : StoreEffect α
  | all {α : Type} (effects : List (KeyEffect (Except RedisError α))) :
      StoreEffect (List (Except RedisError α))
  | client : StoreEffect (Except RedisError Unit)
  | putIf (key value : Bytes) (expiry : Expiry) (expected : Expect) :
      StoreEffect (Except ClientError (Option PutOutput))
  | deleteIf (key : Bytes) (expected : Expect) :
      StoreEffect (Except ClientError (Option HashringClient.DeleteOutput))

abbrev Handler := ExceptT RedisError (Program StoreEffect)

namespace Handler

/-- A check that needs nothing of the store. -/
def checked {α : Type} (result : Except RedisError α) : Handler α := ExceptT.mk (.done result)

def now : Handler Nat := ExceptT.lift (Program.call .now)

/-- A request whose error ends the command. -/
def store {α : Type} (effect : KeyEffect (Except RedisError α)) : Handler α :=
  ExceptT.mk (Program.call (.one effect))

def client : Handler Unit := ExceptT.mk (Program.call .client)

def direct {α : Type} (call : StoreEffect (Except ClientError α)) : Handler α := do
  match ← ExceptT.lift (Program.call call) with
  | .ok value => return value
  | .error error => throw (.ofClient error)

/-- `Store::each`: any key's failure fails the command, the first in argument order. -/
def each {α : Type} (effects : List (KeyEffect (Except RedisError α))) : Handler (List α) := do
  checked ((← ExceptT.lift (Program.call (.all effects))).mapM id)

end Handler

def failureOf {α : Type} : Except RedisError α → Option RedisError
  | .ok _ => none
  | .error error => some error

def partialWriteOutcome {α : Type} (results : List (Except RedisError α)) : Except RedisError (List α) :=
  let errors := results.filterMap failureOf
  match errors with
  | [] => .ok (results.filterMap Except.toOption)
  | first :: _ =>
      if results.any Except.isOk || errors.any (·.mayHaveApplied) then
        .error (.outcomeUnknown
          s!"the command failed on some of its keys after others were written ({first.code} {first.message})")
      else .error first

/-- `Store::each_write`. -/
def Handler.eachWrite {α : Type} (effects : List (KeyEffect (Except RedisError α))) :
    Handler (List α) := do
  checked (partialWriteOutcome (← ExceptT.lift (Program.call (.all effects))))

/-- The handler's requests, made to the cluster. -/
def StoreEffect.cluster : {α : Type} → StoreEffect α → Program (Labelled ClientCall) α
  | _, .now => (Program.call .now).labelled 0
  | _, .one effect => effect.cluster.labelled 0
  | _, .all effects => Program.gatherAll (effects.map fun effect => effect.cluster)
  | _, .client => (sharedClient : Program ClientCall (Except RedisError Unit)).labelled 0
  | _, .putIf key value expiry expected => (Program.call (.putIf key value expiry expected)).labelled 0
  | _, .deleteIf key expected => (Program.call (.deleteIf key expected)).labelled 0

end Hashring
