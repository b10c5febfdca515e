import Hashring.RespParser

/-! Replies and their encoding for the protocol a connection negotiated
(crates/hashring-redis/src/resp.rs). -/
namespace Hashring

inductive Protocol where
  | resp2
  | resp3
  deriving DecidableEq

def Protocol.version : Protocol → Nat
  | resp2 => 2
  | resp3 => 3

inductive Reply where
  | simple (text : String)
  | error (message : String)
  | integer (value : Int)
  | bulk (value : Option Bytes)
  | array (items : List Reply)
  | map (entries : List (Bytes × Reply))
  | set (items : List Bytes)
  /-- The double as `format_double` prints it. -/
  | double (text : String)
  | boolean (value : Bool)
  | nil

namespace Reply

def status : Reply := simple "OK"

def ofBytes (value : Bytes) : Reply := bulk (some value)

def ofText (value : String) : Reply := ofBytes (utf8 value)

end Reply

/-- A number in decimal, as `to_string` writes it. -/
def decimal (n : Nat) : Bytes :=
  if n < 10 then [byte (48 + n)] else decimal (n / 10) ++ [byte (48 + n % 10)]

def signedDecimal : Int → Bytes
  | .ofNat n => decimal n
  | .negSucc n => byte 45 :: decimal (n + 1)

namespace Resp

/-- `<kind><number>` and a line ending. -/
def header (kind : Nat) (count : Nat) : Bytes := byte kind :: decimal count ++ crlf

def encodeBulk (value : Bytes) : Bytes := header 36 value.length ++ value ++ crlf

def encodeNull : Protocol → Bytes
  | .resp2 => [byte 36, byte 45, byte 49] ++ crlf
  | .resp3 => byte 95 :: crlf

mutual

def encode (protocol : Protocol) : Reply → Bytes
  | .simple text => byte 43 :: utf8 text ++ crlf
  | .error message => byte 45 :: utf8 message ++ crlf
  | .integer value => byte 58 :: signedDecimal value ++ crlf
  | .bulk (some value) => encodeBulk value
  | .bulk none => encodeNull protocol
  | .nil => encodeNull protocol
  | .array items => header 42 items.length ++ encodeItems protocol items
  | .set items =>
      (match protocol with
        | .resp2 => header 42 items.length
        | .resp3 => header 126 items.length) ++ items.flatMap encodeBulk
  | .map entries =>
      (match protocol with
        | .resp2 => header 42 (entries.length * 2)
        | .resp3 => header 37 entries.length) ++ encodeEntries protocol entries
  | .double text => byte 44 :: utf8 text ++ crlf
  | .boolean value => [byte 35, if value then byte 116 else byte 102] ++ crlf

def encodeItems (protocol : Protocol) : List Reply → Bytes
  | [] => []
  | item :: rest => encode protocol item ++ encodeItems protocol rest

def encodeEntries (protocol : Protocol) : List (Bytes × Reply) → Bytes
  | [] => []
  | (key, value) :: rest => encodeBulk key ++ encode protocol value ++ encodeEntries protocol rest

end

end Resp

end Hashring
