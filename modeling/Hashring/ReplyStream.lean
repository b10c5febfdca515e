import Hashring.CommandArgs
import Hashring.RequestStream

/-! Reading back what a connection writes. A client's reader knows nothing of the
requests: it takes one value after another off the bytes, in either dialect, and
has to find each reply where it begins. -/
namespace Hashring

/-! Texts that stand in one line. -/

theorem one_line_append (a b : String) : oneLine (a ++ b) = (oneLine a && oneLine b) := by
  simp [oneLine]

theorem one_line_number (n : Nat) : oneLine (toString n) = true := by
  have digits : (toString n).toList = Nat.toDigits 10 n := Nat.toList_repr
  rw [oneLine, digits, List.all_eq_true]
  intro c listed
  have digit := Nat.isDigit_of_mem_toDigits (by decide) (by decide) listed
  have whole : isBreak c = false := by
    by_contra broken
    rw [Bool.not_eq_false, isBreak, Bool.or_eq_true, decide_eq_true_eq, decide_eq_true_eq] at broken
    rcases broken with rfl | rfl
    · exact absurd digit (by decide)
    · exact absurd digit (by decide)
  rw [whole]
  rfl

theorem encoded_byte (c : Char) (value : UInt8) (listed : value ∈ String.utf8EncodeChar c)
    (ascii : value.toNat < 128) :
    value.toNat = c.toNat := by
  have whole : ∀ n : Nat, (UInt8.ofNat n).toNat = n % 256 := fun n => by simp
  unfold String.utf8EncodeChar at listed
  simp only at listed
  split at listed
  · rename_i small
    obtain rfl := List.mem_singleton.mp listed
    rw [whole]
    exact Nat.mod_eq_of_lt (by omega)
  · -- Longer encodings have the high bit set in every byte.
    exfalso
    split at listed
    · simp only [List.mem_cons, List.not_mem_nil, or_false] at listed
      rcases listed with rfl | rfl <;> rw [whole] at ascii <;> omega
    · split at listed
      · simp only [List.mem_cons, List.not_mem_nil, or_false] at listed
        rcases listed with rfl | rfl | rfl <;> rw [whole] at ascii <;> omega
      · simp only [List.mem_cons, List.not_mem_nil, or_false] at listed
        rcases listed with rfl | rfl | rfl | rfl <;> rw [whole] at ascii <;> omega

theorem mem_utf8 {text : String} {value : Byte} (listed : value ∈ utf8 text) (ascii : value.val < 128) :
    ∃ c ∈ text.toList, c.toNat = value.val := by
  obtain ⟨encoded, member, rfl⟩ := List.mem_map.mp listed
  have bytes : text.toUTF8 = text.toList.utf8Encode := by
    rw [String.toUTF8_eq_toByteArray, ← String.toByteArray_ofList, String.ofList_toList]
  rw [bytes, List.utf8Encode] at member
  simp only [List.data_toByteArray, List.mem_flatMap] at member
  obtain ⟨c, inside, part⟩ := member
  exact ⟨c, inside, (encoded_byte c encoded part ascii).symm⟩

theorem utf8_one_line {text : String} (whole : oneLine text = true) : cr ∉ utf8 text := by
  intro listed
  obtain ⟨c, inside, same⟩ := mem_utf8 listed (by decide)
  have plain := List.all_eq_true.mp whole c inside
  obtain rfl : c = '\r' := Char.ext (UInt32.toNat_inj.mp same)
  exact absurd plain (by decide)

/-- The collections of the protocol. -/
inductive Aggregate where
  | array
  | set
  | map
  deriving DecidableEq

/-- How many values one counted element takes. -/
def Aggregate.width : Aggregate → Nat
  | array | set => 1
  | map => 2

/-- A value as a client's reader sees it. The entries of a map stand one after
another, each key before its value. -/
inductive RespValue where
  | simple (text : Bytes)
  | error (text : Bytes)
  | integer (value : Int)
  | bulk (value : Bytes)
  | null
  | aggregate (kind : Aggregate) (items : List RespValue)
  | double (text : Bytes)
  | boolean (value : Bool)

namespace RespReader

def line : Bytes → Option (Bytes × Bytes)
  | [] => none
  | first :: rest =>
      if first = cr then (if rest.head? = some lf then some ([], rest.tail) else none)
      else (line rest).map fun found => (first :: found.1, found.2)

def digit (value : Nat) (next : Byte) : Option Nat :=
  if 48 ≤ next.val ∧ next.val ≤ 57 then some (value * 10 + (next.val - 48)) else none

def number (text : Bytes) : Option Nat := if text = [] then none else text.foldlM digit 0

def signed (text : Bytes) : Option Int :=
  if text.head? = some (byte 45) then (number text.tail).map fun n =>
    -(n : Int) else (number text).map fun n => (n : Int)

/-- So many bytes and the line ending behind them. -/
def payload (length : Nat) (bytes : Bytes) : Option (Bytes × Bytes) :=
  if (bytes.drop length).take 2 = crlf then some (bytes.take length, bytes.drop (length + 2)) else none

def values (read : Bytes → Option (RespValue × Bytes)) : Nat → Bytes → Option (List RespValue × Bytes)
  | 0, bytes => some ([], bytes)
  | count + 1, bytes => do
      let (first, bytes) ← read bytes
      let (rest, bytes) ← values read count bytes
      return (first :: rest, bytes)

def aggregateOf (kind : Byte) : Option Aggregate :=
  if kind = star then some .array else if kind = byte 126 then some .set else if kind =
    byte 37 then some .map else none

def body (read : Bytes → Option (RespValue × Bytes)) (kind : Byte) (text bytes : Bytes) :
    Option (RespValue × Bytes) :=
  if kind = byte 43 then some (.simple text, bytes)
  else if kind = byte 45 then some (.error text, bytes)
  else if kind = byte 58 then (signed text).map fun n => (.integer n, bytes)
  else if kind = byte 44 then some (.double text, bytes)
  else if kind = byte 95 then (if text = [] then some (.null, bytes) else none)
  else if kind = byte 35 then
    if text = [byte 116] then some (.boolean true, bytes)
    else if text = [byte 102] then some (.boolean false, bytes)
    else none
  else if kind = dollar then
    if text = [byte 45, byte 49] then some (.null, bytes)
    else (number text).bind fun length => (payload length bytes).map fun found => (.bulk found.1, found.2)
  else
    (aggregateOf kind).bind fun kind => (number text).bind fun count =>
      (values read (count * kind.width) bytes).map fun found => (.aggregate kind found.1, found.2)

/-- The value at the front of the bytes, nested at most so deep, and what follows it. -/
def value : Nat → Bytes → Option (RespValue × Bytes)
  | 0, _ => none
  | _ + 1, [] => none
  | depth + 1, kind :: bytes => (line bytes).bind fun found => body (value depth) kind found.1 found.2

def stream : Nat → Bytes → Option (List RespValue)
  | _, [] => some []
  | 0, _ :: _ => none
  | turns + 1, first :: rest =>
      (value (first :: rest).length (first :: rest)).bind fun found => (stream turns found.2).map
        (found.1 :: ·)

def readAll (bytes : Bytes) : Option (List RespValue) := stream bytes.length bytes

end RespReader

namespace Reply

mutual

/-- What the reader is to see of a reply. -/
def seen (protocol : Protocol) : Reply → RespValue
  | .simple text => .simple (utf8 text)
  | .error message => .error (utf8 message)
  | .integer value => .integer value
  | .bulk (some value) => .bulk value
  | .bulk none => .null
  | .nil => .null
  | .array items => .aggregate .array (seenItems protocol items)
  | .set items =>
      .aggregate (match protocol with
        | .resp2 => .array
        | .resp3 => .set) (items.map .bulk)
  | .map entries =>
      .aggregate (match protocol with
        | .resp2 => .array
        | .resp3 => .map) (seenEntries protocol entries)
  | .double text => .double (utf8 text)
  | .boolean value => .boolean value

def seenItems (protocol : Protocol) : List Reply → List RespValue
  | [] => []
  | item :: rest => seen protocol item :: seenItems protocol rest

def seenEntries (protocol : Protocol) : List (Bytes × Reply) → List RespValue
  | [] => []
  | (key, value) :: rest => .bulk key :: seen protocol value :: seenEntries protocol rest

end

mutual

def framed : Reply → Bool
  | .simple text | .error text | .double text => oneLine text
  | .integer _ | .bulk _ | .nil | .set _ | .boolean _ => true
  | .array items => framedItems items
  | .map entries => framedEntries entries

def framedItems : List Reply → Bool
  | [] => true
  | item :: rest => framed item && framedItems rest

def framedEntries : List (Bytes × Reply) → Bool
  | [] => true
  | (_, value) :: rest => framed value && framedEntries rest

end

end Reply

namespace RespReader

open Resp

theorem line_text (text rest : Bytes) (plain : cr ∉ text) :
    line (text ++ (crlf ++ rest)) = some (text, rest) := by
  induction text with
  | nil => simp [line, crlf]
  | cons first text ih =>
      have other : first ≠ cr := fun same => plain (same ▸ List.mem_cons_self)
      rw [List.cons_append, line, if_neg other, ih fun listed => plain (List.mem_cons_of_mem _ listed)]
      rfl

theorem value_line (depth : Nat) (kind : Byte) (text rest : Bytes) (plain : cr ∉ text) :
    value (depth + 1) (kind :: (text ++ (crlf ++ rest))) = body (value depth) kind text rest := by
  rw [value, line_text text rest plain]
  rfl

theorem cr_decimal (n : Nat) : cr ∉ decimal n := by
  intro listed
  have low := (decimal_digit n cr listed).1
  exact absurd low (by decide)

theorem number_decimal (n : Nat) : number (decimal n) = some n := by
  have read : (decimal n).foldlM digit 0 = some n := by
    induction n using Nat.strongRecOn with
    | ind n ih =>
        have shown : ∀ value : Nat, value < 10 → (byte (48 + value)).val = 48 + value :=
          fun value small =>
          Nat.mod_eq_of_lt (by omega)
        rw [decimal]
        by_cases small : n < 10
        · rw [if_pos small, List.foldlM_cons, digit, shown n small, if_pos (by omega)]
          simp
        · have last : n % 10 < 10 := Nat.mod_lt _ (by decide)
          rw [if_neg small, List.foldlM_append, ih (n / 10) (by omega)]
          simp only [Option.bind_eq_bind, Option.bind_some, List.foldlM_cons, List.foldlM_nil,
            digit, shown _ last]
          rw [if_pos (by omega)]
          simp only [Option.bind_some, Option.pure_def, Option.some.injEq]
          omega
  rw [number, if_neg (decimal_ne_nil n), read]

theorem decimal_unsigned (n : Nat) : (decimal n).head? ≠ some (byte 45) := by
  intro first
  have low := (decimal_digit n (byte 45) (List.mem_of_head? first)).1
  exact absurd low (by decide)

theorem signed_decimal (value : Int) : signed (signedDecimal value) = some value := by
  cases value with
  | ofNat n =>
      rw [signedDecimal, signed, if_neg (decimal_unsigned n), number_decimal]
      rfl
  | negSucc n =>
      rw [signedDecimal, signed, List.head?_cons, if_pos rfl, List.tail_cons, number_decimal]
      rfl

theorem cr_signed_decimal (value : Int) : cr ∉ signedDecimal value := by
  cases value with
  | ofNat n => exact cr_decimal n
  | negSucc n =>
      intro listed
      rcases List.mem_cons.mp listed with sign | digits
      · exact absurd sign (by decide)
      · exact cr_decimal (n + 1) digits

theorem payload_crlf (value rest : Bytes) :
    payload value.length (value ++ (crlf ++ rest)) = some (value, rest) := by
  simp [payload, crlf]

theorem body_bulk (read : Bytes → Option (RespValue × Bytes)) (text bytes : Bytes) :
    body read dollar text bytes = if text = [byte 45, byte 49] then some (.null, bytes)
      else (number text).bind fun length => (payload length bytes).map fun found =>
        (.bulk found.1, found.2) := rfl

theorem body_aggregate (read : Bytes → Option (RespValue × Bytes)) {kind : Byte}
    {aggregate : Aggregate} (count : Nat) (bytes : Bytes)
    (named : aggregateOf kind = some aggregate) :
    body read kind (decimal count) bytes =
      (values read (count * aggregate.width) bytes).map fun found =>
        (.aggregate aggregate found.1, found.2) := by
  have known : kind = star ∨ kind = byte 126 ∨ kind = byte 37 := by
    unfold aggregateOf at named
    split at named
    · exact .inl ‹_›
    · split at named
      · exact .inr (.inl ‹_›)
      · split at named
        · exact .inr (.inr ‹_›)
        · exact absurd named (by simp)
  have falls : body read kind (decimal count) bytes = (aggregateOf kind).bind fun kind =>
      (number (decimal count)).bind fun count =>
        (values read (count * kind.width) bytes).map fun found => (.aggregate kind found.1, found.2) := by
    rcases known with rfl | rfl | rfl <;> rfl
  rw [falls, named, number_decimal]
  rfl

theorem value_bulk (depth : Nat) (value_ rest : Bytes) :
    value (depth + 1) (encodeBulk value_ ++ rest) = some (.bulk value_, rest) := by
  have laid : encodeBulk value_ ++
      rest = dollar :: (decimal value_.length ++ (crlf ++ (value_ ++ (crlf ++ rest)))) := by
    simp [encodeBulk, header, dollar]
  have present : decimal value_.length ≠ [byte 45, byte 49] := fun same =>
    decimal_unsigned value_.length (by rw [same]; rfl)
  rw [laid, value_line _ _ _ _ (cr_decimal _), body_bulk, if_neg present, number_decimal,
    Option.bind_some, payload_crlf]
  rfl

/-- The elements of a collection, once each of them is read back. -/
theorem values_bulks (depth : Nat) (items : List Bytes) (rest : Bytes) :
    values (value (depth + 1)) items.length (items.flatMap encodeBulk ++ rest) =
      some (items.map .bulk, rest) := by
  induction items with
  | nil => rfl
  | cons item items ih =>
      rw [List.flatMap_cons, List.append_assoc, List.length_cons, values, value_bulk]
      simp only [Option.bind_eq_bind, Option.bind_some, ih, Option.pure_def, List.map_cons]

theorem value_header (depth : Nat) {kind : Nat} {aggregate : Aggregate} (count : Nat) (rest : Bytes)
    (named : aggregateOf (byte kind) = some aggregate) :
    value (depth + 1) (header kind count ++ rest) =
      (values (value depth) (count * aggregate.width) rest).map fun found =>
        (.aggregate aggregate found.1, found.2) := by
  have laid : header kind count ++ rest = byte kind :: (decimal count ++ (crlf ++ rest)) := by
    simp [header]
  rw [laid, value_line _ _ _ _ (cr_decimal _), body_aggregate _ _ _ named]

theorem header_length (kind count : Nat) : 2 < (header kind count).length := by
  simp [header, crlf]

theorem value_text (kind : Byte) (text : Bytes) {depth : Nat} {rest : Bytes} {found : RespValue}
    (plain : cr ∉ text) (deep : (kind :: text ++ crlf).length ≤ depth)
    (read : ∀ depth, body (value depth) kind text rest = some (found, rest)) :
    value depth (kind :: text ++ crlf ++ rest) = some (found, rest) := by
  obtain ⟨depth, rfl⟩ : ∃ less, depth = less + 1 := Nat.exists_eq_succ_of_ne_zero (by
    intro none
    simp [none] at deep)
  have laid : kind :: text ++ crlf ++ rest = kind :: (text ++ (crlf ++ rest)) := by simp
  rw [laid, value_line _ _ _ _ plain, read]

theorem value_null (protocol : Protocol) {depth : Nat} (rest : Bytes)
    (deep : (encodeNull protocol).length ≤ depth) :
    value depth (encodeNull protocol ++ rest) = some (.null, rest) := by
  cases protocol with
  | resp2 => exact value_text dollar [byte 45, byte 49] (by decide) deep fun _ => rfl
  | resp3 => exact value_text (byte 95) [] (by decide) deep fun _ => rfl

theorem value_collection (aggregate : Aggregate) {depth kind count : Nat} {encoded rest : Bytes}
    {items : List RespValue} (named : aggregateOf (byte kind) = some aggregate)
    (deep : (header kind count ++ encoded).length ≤ depth)
    (read : ∀ less, encoded.length < less →
      values (value less) (count * aggregate.width) (encoded ++ rest) = some (items, rest)) :
    value depth (header kind count ++ encoded ++ rest) = some (.aggregate aggregate items, rest) := by
  have room := header_length kind count
  rw [List.length_append] at deep
  obtain ⟨depth, rfl⟩ : ∃ less, depth = less + 1 := Nat.exists_eq_succ_of_ne_zero (by omega)
  rw [List.append_assoc, value_header depth count _ named, read depth (by omega)]
  rfl

mutual

theorem value_encode (protocol : Protocol) : ∀ (reply : Reply) (depth : Nat) (rest : Bytes),
    reply.framed = true →
    (encode protocol reply).length ≤ depth →
    value depth (encode protocol reply ++ rest) = some (reply.seen protocol, rest)
  | .simple _, _, _, whole, deep => value_text _ _ (utf8_one_line whole) deep fun _ => rfl
  | .error _, _, _, whole, deep => value_text _ _ (utf8_one_line whole) deep fun _ => rfl
  | .double _, _, _, whole, deep => value_text _ _ (utf8_one_line whole) deep fun _ => rfl
  | .integer number, depth, rest, _, deep => by
      apply value_text _ _ (cr_signed_decimal number) deep
      intro less
      show (signed (signedDecimal number)).map _ = _
      rw [signed_decimal]
      rfl
  | .bulk (some bytes), depth, rest, _, deep => by
      have room := header_length 36 bytes.length
      rw [encode, encodeBulk, List.length_append, List.length_append] at deep
      obtain ⟨less, rfl⟩ : ∃ less, depth = less + 1 := Nat.exists_eq_succ_of_ne_zero (by omega)
      exact value_bulk less bytes rest
  | .bulk none, _, rest, _, deep => value_null protocol rest deep
  | .nil, _, rest, _, deep => value_null protocol rest deep
  | .boolean flag, depth, rest, _, deep => by
      cases flag with
      | true => exact value_text (byte 35) [byte 116] (by decide) deep fun _ => rfl
      | false => exact value_text (byte 35) [byte 102] (by decide) deep fun _ => rfl
  | .set items, depth, rest, _, deep => by
      have read : ∀ less, (items.flatMap encodeBulk).length < less →
          values (value less) (items.length * 1) (items.flatMap encodeBulk ++ rest) =
              some (items.map .bulk, rest) := by
        intro less room
        obtain ⟨less, rfl⟩ : ∃ fewer, less = fewer + 1 := Nat.exists_eq_succ_of_ne_zero (by omega)
        rw [Nat.mul_one]
        exact values_bulks less items rest
      -- A set is an array to the older protocol; either header counts its items once.
      cases protocol with
      | resp2 => exact value_collection .array rfl deep read
      | resp3 => exact value_collection .set rfl deep read
  | .array items, depth, rest, whole, deep => by
      apply value_collection .array rfl deep
      intro less room
      rw [Aggregate.width, Nat.mul_one]
      exact values_items protocol items less rest whole room.le
  | .map entries, depth, rest, whole, deep => by
      have read : ∀ less, (encodeEntries protocol entries).length < less →
          values (value less) (entries.length * 2) (encodeEntries protocol entries ++ rest) =
            some (Reply.seenEntries protocol entries, rest) :=
        fun less room => values_entries protocol entries less rest whole room.le
      cases protocol with
      | resp2 =>
          apply value_collection .array rfl deep
          intro less room
          rw [Aggregate.width, Nat.mul_one]
          exact read less room
      | resp3 => exact value_collection .map rfl deep read

theorem values_items (protocol : Protocol) : ∀ (items : List Reply) (depth : Nat) (rest : Bytes),
    Reply.framedItems items = true → (encodeItems protocol items).length ≤ depth →
    values (value depth) items.length (encodeItems protocol items ++ rest) =
      some (Reply.seenItems protocol items, rest)
  | [], depth, rest, whole, enough => rfl
  | item :: items, depth, rest, whole, enough => by
      rw [Reply.framedItems, Bool.and_eq_true] at whole
      rw [encodeItems, List.length_append] at enough
      rw [encodeItems, List.append_assoc, List.length_cons, values,
        value_encode protocol item depth _ whole.1 (by omega)]
      simp only [Option.bind_eq_bind, Option.bind_some,
        values_items protocol items depth rest whole.2 (by omega),
        Option.pure_def, Reply.seenItems]

theorem values_entries (protocol : Protocol) : ∀ (entries : List (Bytes × Reply)) (depth : Nat)
    (rest : Bytes),
    Reply.framedEntries entries = true → (encodeEntries protocol entries).length ≤ depth →
    values (value depth) (entries.length * 2) (encodeEntries protocol entries ++ rest) =
      some (Reply.seenEntries protocol entries, rest)
  | [], depth, rest, whole, enough => rfl
  | (key, item) :: entries, depth, rest, whole, enough => by
      rw [Reply.framedEntries, Bool.and_eq_true] at whole
      have room := header_length 36 key.length
      rw [encodeEntries, List.length_append, List.length_append, encodeBulk, List.length_append,
        List.length_append] at enough
      obtain ⟨less, rfl⟩ : ∃ fewer, depth = fewer + 1 := Nat.exists_eq_succ_of_ne_zero (by omega)
      have counted : (List.length ((key, item) :: entries)) * 2 = entries.length * 2 + 1 + 1 := by
        rw [List.length_cons]
        omega
      rw [counted, encodeEntries, List.append_assoc, List.append_assoc]
      simp only [values, value_bulk, Option.bind_eq_bind, Option.bind_some,
        value_encode protocol item (less + 1) _ whole.1 (by omega),
        values_entries protocol entries (less + 1) rest whole.2 (by omega), Option.pure_def,
          Reply.seenEntries]

end

theorem encode_nonempty (protocol : Protocol) (reply : Reply) : 0 < (encode protocol reply).length := by
  cases reply with
  | bulk value => cases value <;> cases protocol <;> simp [encode, encodeBulk, encodeNull, header]
  | nil => cases protocol <;> simp [encode, encodeNull]
  | set items => cases protocol <;> simp [encode, header]
  | map entries => cases protocol <;> simp [encode, header]
  | _ => simp [encode, header]

theorem stream_encoded (turns : Nat) (entries : List (Protocol × Reply))
    (framed : ∀ entry ∈ entries, entry.2.framed = true)
    (enough : (entries.flatMap fun entry => encode entry.1 entry.2).length ≤ turns) :
    stream turns (entries.flatMap fun entry => encode entry.1 entry.2) =
      some (entries.map fun entry => entry.2.seen entry.1) := by
  induction entries generalizing turns with
  | nil => cases turns <;> rfl
  | cons entry entries ih =>
      have some_ := encode_nonempty entry.1 entry.2
      rw [List.flatMap_cons, List.length_append] at enough
      obtain ⟨turns, rfl⟩ : ∃ fewer, turns = fewer + 1 := Nat.exists_eq_succ_of_ne_zero (by omega)
      have first := value_encode entry.1 entry.2
        (encode entry.1 entry.2 ++ entries.flatMap fun entry => encode entry.1 entry.2).length
        (entries.flatMap fun entry => encode entry.1 entry.2) (framed entry List.mem_cons_self) (by simp)
      have later := ih turns (fun other listed => framed other (List.mem_cons_of_mem _ listed)) (by omega)
      rw [List.flatMap_cons]
      cases bytes : encode entry.1 entry.2 ++ entries.flatMap fun entry => encode entry.1 entry.2 with
      | nil =>
          have short := congrArg List.length bytes
          rw [List.length_append, List.length_nil] at short
          omega
      | cons head tail =>
          rw [bytes] at first
          rw [stream, first, Option.bind_some, later]
          rfl

theorem read_all_encoded (entries : List (Protocol × Reply))
    (framed : ∀ entry ∈ entries, entry.2.framed = true) :
    readAll (entries.flatMap fun entry => encode entry.1 entry.2) =
      some (entries.map fun entry => entry.2.seen entry.1) :=
  stream_encoded _ entries framed le_rfl

end RespReader

/-! Why a request is refused is told in one line. -/

namespace Resp

theorem one_line_fixed {text : String} (whole : oneLine text = true) (n : Nat) (more : String)
    (ends : oneLine more = true) : oneLine (text ++ toString n ++ more) = true := by
  rw [one_line_append, one_line_append, whole, one_line_number, ends]
  rfl

theorem bad_header_one_line (expected : Byte) : oneLine (badHeader expected) = true := by
  unfold badHeader
  split
  · decide
  · decide

theorem header_value_one_line {buffer : Bytes} {start stop : Nat} {expected : Byte} {error : String}
    (invalid : headerValue buffer start stop expected = .invalid error) : oneLine error = true := by
  simp only [headerValue] at invalid
  split at invalid
  · exact Header.invalid.inj invalid ▸ (by decide)
  · split at invalid
    · exact absurd invalid (by simp)
    · exact Header.invalid.inj invalid ▸ bad_header_one_line expected

theorem read_header_one_line {limits : Limits} {buffer : Bytes} {index : Nat} {expected : Byte}
    {error : String}
    (invalid : readHeader limits buffer index expected = .invalid error) : oneLine error = true := by
  unfold readHeader at invalid
  split at invalid
  · exact absurd invalid (by simp)
  · split at invalid
    · obtain rfl := Header.invalid.inj invalid
      split
      · decide
      · decide
    · split at invalid
      · split at invalid
        · obtain rfl := Header.invalid.inj invalid
          unfold tooBigHeader
          split
          · decide
          · decide
        · exact absurd invalid (by simp)
      · exact header_value_one_line invalid

theorem too_many_one_line (limits : Limits) : oneLine (tooManyArguments limits) = true :=
  one_line_fixed (by decide) limits.maxArguments ")" (by decide)

theorem too_long_one_line (limits : Limits) : oneLine (tooLongArgument limits) = true :=
  one_line_fixed (by decide) limits.maxBulkBytes " bytes" (by decide)

theorem parse_arguments_one_line {limits : Limits} {buffer : Bytes} {error : String} (count cursor : Nat)
    (args : List Bytes) (invalid : parseArguments limits buffer count cursor args = .invalid error) :
    oneLine error = true := by
  induction count generalizing cursor args with
  | zero => exact absurd invalid (by simp [parseArguments])
  | succ count ih =>
      rw [parseArguments] at invalid
      split at invalid
      · exact absurd invalid (by simp)
      · rename_i found
        exact Frame.invalid.inj invalid ▸ read_header_one_line found
      · split at invalid
        · exact Frame.invalid.inj invalid ▸ too_long_one_line limits
        · split at invalid
          · exact absurd invalid (by simp)
          · split at invalid
            · exact Frame.invalid.inj invalid ▸ (by decide)
            · exact ih _ _ invalid

theorem parse_inline_one_line {limits : Limits} {buffer : Bytes} {error : String}
    (invalid : parseInline limits buffer = .invalid error) : oneLine error = true := by
  unfold parseInline at invalid
  split at invalid
  · split at invalid
    · exact Frame.invalid.inj invalid ▸ (by decide)
    · exact absurd invalid (by simp)
  · simp only at invalid
    split at invalid
    · exact Frame.invalid.inj invalid ▸ too_long_one_line limits
    · split at invalid
      · exact Frame.invalid.inj invalid ▸ too_many_one_line limits
      · exact absurd invalid (by simp)

theorem parse_one_line {limits : Limits} {buffer : Bytes} {error : String}
    (invalid : parse limits buffer = .invalid error) : oneLine error = true := by
  unfold parse at invalid
  split at invalid
  · exact absurd invalid (by simp)
  · split at invalid
    · split at invalid
      · exact absurd invalid (by simp)
      · exact absurd invalid (by simp)
    · split at invalid
      · unfold parseMultibulk at invalid
        split at invalid
        · exact absurd invalid (by simp)
        · rename_i found
          exact Frame.invalid.inj invalid ▸ read_header_one_line found
        · split at invalid
          · exact Frame.invalid.inj invalid ▸ too_many_one_line limits
          · exact parse_arguments_one_line _ _ _ invalid
      · exact parse_inline_one_line invalid

end Resp

namespace Service

variable {ω : Type} (service : Service ω)

theorem refusal_one_line {session last : Session ω} {reads : List Bytes} {message : String}
    (refused : service.serveConnection session reads = .refused last message) :
    oneLine message = true := by
  obtain ⟨rest, invalid | full⟩ := FrameReader.serve_refused refused
  · exact Resp.parse_one_line invalid
  · simp only [reader] at full
    split at full
    · exact Option.some.inj full ▸ (by decide)
    · exact absurd full (by simp)

end Service

/-- The error that ends a stream which cannot be parsed further. -/
def Reading.refusal {ω : Type} : Reading Byte String (Session ω) → List (Protocol × Reply)
  | .refused session message =>
      [(session.connection.protocol, (RedisError.protocol s!"Protocol error: {message}").toReply)]
  | .waiting _ _ | .closed _ => []

/-- What a connection wrote reads back as its visible replies, one by one, however
the requests arrived. -/
theorem Service.output_reads_back {ω : Type} (service : Service ω) (session : Session ω)
    (reads : List Bytes)
    (framed : ∀ entry ∈ (service.serveConnection session reads).state.written.reduceOption,
      entry.2.framed = true) :
    RespReader.readAll (service.serveConnection session reads).output =
      some (((service.serveConnection session reads).state.written.reduceOption ++
        (service.serveConnection session reads).refusal).map fun entry => entry.2.seen entry.1) := by
  have told : ∀ entry ∈ (service.serveConnection session reads).refusal, entry.2.framed = true := by
    intro entry listed
    cases ended : service.serveConnection session reads with
    | waiting last pending => simp [ended, Reading.refusal] at listed
    | closed last => simp [ended, Reading.refusal] at listed
    | refused last message =>
        have whole := service.refusal_one_line ended
        rw [ended, Reading.refusal, List.mem_singleton] at listed
        subst listed
        show oneLine ("ERR" ++ " " ++ ("Protocol error: " ++ message)) = true
        simp only [one_line_append, whole]
        decide
  have laid : (service.serveConnection session reads).output =
      ((service.serveConnection session reads).state.written.reduceOption ++
        (service.serveConnection session reads).refusal).flatMap fun entry =>
            Resp.encode entry.1 entry.2 := by
    cases service.serveConnection session reads with
    | waiting last pending => simp [Reading.output, Reading.refusal]
    | closed last => simp [Reading.output, Reading.refusal]
    | refused last message => simp [Reading.output, Reading.refusal]
  rw [laid]
  apply RespReader.read_all_encoded
  intro entry listed
  rcases List.mem_append.mp listed with visible | refusal
  · exact framed entry visible
  · exact told entry refusal

namespace ReplySample

/-- Answers an array, asks to skip the next reply, answers that one, and then a map in
the other dialect. -/
def service : Service Nat where
  limits := { maxLineBytes := 4, maxBulkBytes := 16, maxArguments := 1, maxQueryBufferBytes := 64 }
  requiresAuth := false
  execute count connection _ :=
    match count with
    | 0 => ({ reply := .ok (.array [.integer (-3), .nil, .bulk (some crlf)]) }, connection, 1)
    | 1 => ({ reply := .ok .status, effect := .replyMode .skip }, connection, 2)
    | 2 => ({ reply := .ok .status }, connection, 3)
    | _ => ({ reply := .ok (.map [([byte 107], .set [crlf])]) },
        { connection with protocol := .resp3 }, 4)

def session : Session Nat := service.opened 0 1

/-- Four lines, cut inside the second, and a header that is no number. -/
def reads : List Bytes := [[97, 10, 97].map byte, [10, 97, 10, 97, 10, 42, 97, 13, 10].map byte]

/-- The array, the map and the error that ended the stream, each found where it begins;
the payloads that hold a line ending do not mislead the reader. -/
theorem output_reads_back_skipped :
    (service.serveConnection session reads).isRefused = true ∧
      RespReader.readAll (service.serveConnection session reads).output =
        some [.aggregate .array [.integer (-3), .null, .bulk crlf],
          .aggregate .map [.bulk [byte 107], .aggregate .set [.bulk crlf]],
          .error (utf8 "ERR Protocol error: invalid multibulk length")] := by
  refine ⟨by decide +kernel, (service.output_reads_back session reads (by decide +kernel)).trans ?_⟩
  rfl

/-- Answers a command it does not know with the name as it was sent. -/
def echoing : Service Unit where
  limits := service.limits
  requiresAuth := false
  execute _ connection args :=
    let name := String.ofList ((args.headD []).map fun letter => Char.ofNat letter.val)
    ({ reply := .error ⟨"ERR", s!"unknown command '{name}', with args beginning with: ", false⟩ }, connection, ())

-- A line ending in the name splits the one error in two: such texts have to be excluded.
example :
    let sent := [42, 49, 13, 10, 36, 54, 13, 10, 97, 13, 10, 43, 111, 107, 13, 10].map byte
    let served := echoing.serveConnection (echoing.opened () 1) [sent]
    served.state.written.length = 1 ∧ (RespReader.readAll served.output).map List.length = some 2 := by
  decide +kernel

end ReplySample

end Hashring
