import Hashring.ClientErrors

/-! One client connection of the Redis gateway (crates/hashring-redis/src/server.rs):
requests are taken off the socket in order, each is given to the dispatcher, and
the reply is written if the connection's reply mode lets it through. What the
dispatcher does with a command is a parameter here. -/
namespace Hashring

inductive ReplyMode where
  | on
  | off
  | skip
  deriving DecidableEq

/-- What a command does to its connection once its reply is settled. -/
inductive Effect where
  | none
  | close
  | replyMode (mode : ReplyMode)
  deriving DecidableEq

structure Connection where
  id : Nat
  protocol : Protocol := .resp2
  authenticated : Bool
  name : Option Bytes := none
  replyMode : ReplyMode := .on
  deriving DecidableEq

structure Response where
  reply : Except RedisError Reply
  effect : Effect := .none

/-- The reply as the connection's reply mode lets it through, consuming a
pending `SKIP`. -/
def visible (connection : Connection) (reply : Reply) : Option Reply × Connection :=
  match connection.replyMode with
  | .on => (some reply, connection)
  | .skip => (none, { connection with replyMode := .on })
  | .off => (none, connection)

def settle (connection : Connection) (response : Response) : Option Reply × Bool × Connection :=
  let reply := match response.reply with
    | .ok reply => reply
    | .error error => error.toReply
  match response.effect with
  | .replyMode mode =>
      (if mode = .on then some reply else none, false,
        if mode = .skip ∧ connection.replyMode =
          .off then connection else { connection with replyMode := mode })
  | .close => ((visible connection reply).1, true, (visible connection reply).2)
  | .none => ((visible connection reply).1, false, (visible connection reply).2)

/-- The dispatcher as its connections see it; `ω` is everything outside them. -/
structure Service (ω : Type) where
  limits : Resp.Limits
  requiresAuth : Bool
  execute : ω → Connection → List Bytes → Response × Connection × ω

/-- A connection being served: the commands the dispatcher was given, in order,
and for each the reply that was written with the protocol it was written in. -/
structure Session (ω : Type) where
  outside : ω
  connection : Connection
  handed : List (List Bytes) := []
  written : List (Option (Protocol × Reply)) := []

namespace Service

variable {ω : Type} (service : Service ω)

def limitsFor (connection : Connection) : Resp.Limits :=
  if connection.authenticated then service.limits else service.limits.unauthenticated

def answer (session : Session ω) (args : List Bytes) : Session ω × Bool :=
  if args = [] then (session, false)
  else
    let (response, connection, outside) := service.execute session.outside session.connection args
    let (reply, close, settled) := settle connection response
    ({ outside
       connection := settled
       handed := session.handed ++ [args]
       written := session.written ++ [reply.map fun reply => (settled.protocol, reply)] }, close)

/-- The loop of `serve_connection` over what its reads return. -/
def reader : FrameReader Byte (List Bytes) String (Session ω) where
  parse session := Resp.parse (service.limitsFor session.connection)
  accept := service.answer
  overflow session pending :=
    if (service.limitsFor session.connection).maxQueryBufferBytes <
      pending.length then some "query buffer limit reached"
    else none

/-- A connection as `serve_connection` starts it. -/
def opened (outside : ω) (id : Nat) : Session ω where
  outside
  connection := { id, authenticated := !service.requiresAuth }

def serveConnection (session : Session ω) (reads : List Bytes) : Reading Byte String (Session ω) :=
  service.reader.serve session [] reads

end Service

/-- The bytes written to the client: the visible replies, and the error that
ends a stream that cannot be parsed further. -/
def Reading.output {ω : Type} (reading : Reading Byte String (Session ω)) : Bytes :=
  (reading.state.written.reduceOption.flatMap fun entry => Resp.encode entry.1 entry.2) ++
    match reading with
    | .refused session message =>
        Resp.encode session.connection.protocol
          (RedisError.protocol s!"Protocol error: {message}").toReply
    | _ => []

end Hashring
