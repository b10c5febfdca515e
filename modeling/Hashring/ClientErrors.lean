import Hashring.RespReply
import Hashring.Wire

/-! What a client call that did not succeed tells its caller
(crates/hashring-client/src/lib.rs), and how a Redis client is told
(crates/hashring-redis/src/error.rs). -/
namespace Hashring

/-- Whether a mutation can be ruled out after an unsuccessful attempt. -/
inductive MutationOutcome where
  | knownNotApplied
  | mayHaveApplied
  deriving DecidableEq

def MutationOutcome.ofUnknown (unknownWriteOutcome : Bool) : MutationOutcome :=
  if unknownWriteOutcome then .mayHaveApplied else .knownNotApplied

def MutationOutcome.debug : MutationOutcome → String
  | knownNotApplied => "KnownNotApplied"
  | mayHaveApplied => "MayHaveApplied"

structure OperationFailure where
  code : ErrorCode
  message : String
  retryable : Bool
  outcome : MutationOutcome
  deriving DecidableEq

def operationMayHaveApplied (error : OperationError) : Bool :=
  error.unknownWriteOutcome || error.code = .outcomeUnknown

def OperationFailure.ofError (error : OperationError) : OperationFailure where
  code := error.code
  message := error.message
  retryable := error.retryable
  outcome := .ofUnknown (operationMayHaveApplied error)

inductive ClientError where
  | topology (source : String)
  | topologyRefresh (source : String) (outcome : MutationOutcome)
  | operation (failure : OperationFailure)
  | deadlineExceeded (outcome : MutationOutcome)
  | missingVersion
  | rpc (code : Code) (message : String) (outcome : MutationOutcome)
  deriving DecidableEq

def ClientError.deadline (unknownWriteOutcome : Bool) : ClientError :=
  .deadlineExceeded (.ofUnknown unknownWriteOutcome)

def Code.debug : Code → String
  | ok => "Ok"
  | cancelled => "Cancelled"
  | unknown => "Unknown"
  | invalidArgument => "InvalidArgument"
  | deadlineExceeded => "DeadlineExceeded"
  | notFound => "NotFound"
  | alreadyExists => "AlreadyExists"
  | permissionDenied => "PermissionDenied"
  | resourceExhausted => "ResourceExhausted"
  | failedPrecondition => "FailedPrecondition"
  | aborted => "Aborted"
  | outOfRange => "OutOfRange"
  | unimplemented => "Unimplemented"
  | internal => "Internal"
  | unavailable => "Unavailable"
  | dataLoss => "DataLoss"
  | unauthenticated => "Unauthenticated"

def ErrorCode.debug : ErrorCode → String
  | unspecified => "Unspecified"
  | notFound => "NotFound"
  | moved => "Moved"
  | rangeBusy => "RangeBusy"
  | unavailable => "Unavailable"
  | deadlineExceeded => "DeadlineExceeded"
  | tooLarge => "TooLarge"
  | resourceExhausted => "ResourceExhausted"
  | invalidArgument => "InvalidArgument"
  | mutationIdConflict => "MutationIdConflict"
  | temporarilyUnavailable => "TemporarilyUnavailable"
  | outcomeUnknown => "OutcomeUnknown"
  | replicaNotReady => "ReplicaNotReady"
  | leaseExpired => "LeaseExpired"

/-- The error's `Display` text. -/
def ClientError.text : ClientError → String
  | topology source => s!"failed to fetch or validate topology: {source}"
  | topologyRefresh source outcome => s!"topology refresh failed: {source} (outcome={outcome.debug})"
  | operation failure => s!"{failure.code.debug}: {failure.message}"
  | deadlineExceeded outcome => s!"logical operation deadline exceeded (outcome={outcome.debug})"
  | missingVersion => "protocol response omitted record version"
  | rpc code message outcome => s!"node RPC failed with {code.debug}: {message} (outcome={outcome.debug})"

/-- `char::is_whitespace`. -/
def isWhitespace (c : Char) : Bool :=
  let code := c.toNat
  (9 ≤ code && code ≤ 13) || code = 0x20 || code = 0x85 || code = 0xA0 || code = 0x1680 ||
    (0x2000 ≤ code && code ≤ 0x200A) || code = 0x2028 || code = 0x2029 || code = 0x202F || code =
      0x205F || code = 0x3000

/-- `str::trim`. -/
def trim (text : String) : String :=
  String.ofList (((text.toList.dropWhile isWhitespace).reverse.dropWhile isWhitespace).reverse)

/-- A failure as a Redis client sees it: the code comes first, since clients
branch on it. -/
structure RedisError where
  code : String
  message : String
  /-- A write may have been applied before this was returned. -/
  mayHaveApplied : Bool := false
  deriving DecidableEq

namespace RedisError

def unsupported (command : String) : RedisError :=
  ⟨"ERR", s!"{command} is not supported by the hashring-rs Redis gateway; see docs/redis-compatibility.md", false⟩

def wrongArity (command : String) : RedisError :=
  ⟨"ERR", s!"wrong number of arguments for '{command}' command", false⟩

def syntaxError : RedisError := ⟨"ERR", "syntax error", false⟩

def notAnInteger : RedisError := ⟨"ERR", "value is not an integer or out of range", false⟩

def notAFloat : RedisError := ⟨"ERR", "value is not a valid float", false⟩

def noSuchKey : RedisError := ⟨"ERR", "no such key", false⟩

def outOfRange : RedisError := ⟨"ERR", "value is out of range, must be positive", false⟩

def overflow : RedisError := ⟨"ERR", "increment or decrement would overflow", false⟩

def noAuth : RedisError := ⟨"NOAUTH", "Authentication required.", false⟩

def wrongPass : RedisError := ⟨"WRONGPASS", "invalid username-password pair or user is disabled.", false⟩

def outcomeUnknown (detail : String) : RedisError :=
  ⟨"ERR", s!"{detail}; its writes may or may not have been applied", true⟩

/-- A command that ran out of time. -/
def deadline (writes : Bool) : RedisError :=
  if writes then outcomeUnknown "the command did not finish before its deadline"
  else ⟨"TRYAGAIN", "the command did not finish before its deadline", false⟩

def protocol (message : String) : RedisError := ⟨"ERR", message, false⟩

def toReply (error : RedisError) : Reply := .error s!"{error.code} {error.message}"

def ofFailure (failure : OperationFailure) : RedisError :=
  let message := trim failure.message
  if failure.outcome = .mayHaveApplied then outcomeUnknown message
  else
    match failure.code with
    | .notFound => ⟨"ERR", if message = "" then "key not found" else message, false⟩
    | .tooLarge => ⟨"OOM", message, false⟩
    | .moved | .rangeBusy | .unavailable | .temporarilyUnavailable | .resourceExhausted | .replicaNotReady
    | .leaseExpired => ⟨"TRYAGAIN", message, false⟩
    | .outcomeUnknown => ⟨"ERR", message, false⟩
    | .invalidArgument | .mutationIdConflict => ⟨"ERR", message, false⟩
    | .unspecified | .deadlineExceeded => ⟨if failure.retryable then "TRYAGAIN" else "ERR", message,
        false⟩

def ofClient (error : ClientError) : RedisError :=
  match error with
  | .deadlineExceeded .mayHaveApplied => outcomeUnknown error.text
  | .topologyRefresh _ .mayHaveApplied => outcomeUnknown error.text
  | .rpc _ _ .mayHaveApplied => outcomeUnknown error.text
  | .operation failure => ofFailure failure
  | .topologyRefresh source _ => ⟨"TRYAGAIN", s!"cluster topology is unavailable: {source}", false⟩
  | .topology source => ⟨"CLUSTERDOWN", s!"cluster topology is unavailable: {source}", false⟩
  | .deadlineExceeded _ => ⟨"TRYAGAIN", "the operation did not finish before its deadline", false⟩
  | .missingVersion => ⟨"ERR", "the cluster returned a record without a version", false⟩
  | .rpc code message _ =>
      if code = .unavailable then ⟨"TRYAGAIN", s!"cluster node is unavailable: {message}", false⟩
      else ⟨"ERR", message, false⟩

end RedisError

end Hashring
