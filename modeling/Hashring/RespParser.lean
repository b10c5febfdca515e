import Hashring.FrameReader
import Hashring.Records

/-! The request parser of crates/hashring-redis/src/resp.rs. A request is a RESP
array of bulk strings, an inline line, or a blank line. The parser starts at the
front of the buffer on every call and keeps nothing between calls. -/
namespace Hashring

def cr : Byte := byte 13
def lf : Byte := byte 10
def star : Byte := byte 42
def dollar : Byte := byte 36
def crlf : Bytes := [cr, lf]

namespace Resp

/-- Bounds on what a connection may send. -/
structure Limits where
  maxBulkBytes : Nat := 16 * 1024 * 1024
  maxArguments : Nat := 2 ^ 17
  maxLineBytes : Nat := 64 * 1024
  maxQueryBufferBytes : Nat := 1024 * 1024 * 1024
  deriving DecidableEq

/-- What a connection that has not authenticated may send. -/
def Limits.unauthenticated (limits : Limits) : Limits :=
  { limits with
    maxBulkBytes := min limits.maxBulkBytes (16 * 1024)
    maxArguments := min limits.maxArguments 10 }

/-- The offset just past the line ending at or after `start`. -/
def findLineEnd (buffer : Bytes) (start : Nat) : Option Nat :=
  ((buffer.drop start).findIdx? (· == lf)).map fun offset => start + offset + 1

def slice (buffer : Bytes) (start stop : Nat) : Bytes := (buffer.drop start).take (stop - start)

/-- What is left of a character begun by earlier bytes: how many bytes, and the
bounds on the next one. -/
structure Pending where
  left : Nat
  low : Nat := 128
  high : Nat := 191

def utf8Step (pending : Pending) (value : Nat) : Option Pending :=
  if pending.left ≠ 0 then
    if pending.low ≤ value ∧ value ≤ pending.high then some { left := pending.left - 1 } else none
  else if value < 128 then some { left := 0 }
  else if 0xC2 ≤ value ∧ value ≤ 0xDF then some { left := 1 }
  else if value = 0xE0 then some { left := 2, low := 0xA0 }
  else if value = 0xED then some { left := 2, high := 0x9F }
  else if 0xE1 ≤ value ∧ value ≤ 0xEF then some { left := 2 }
  else if value = 0xF0 then some { left := 3, low := 0x90 }
  else if 0xF1 ≤ value ∧ value ≤ 0xF3 then some { left := 3 }
  else if value = 0xF4 then some { left := 3, high := 0x8F }
  else none

/-- `str::from_utf8` succeeds. -/
def validUtf8 (bytes : Bytes) : Bool :=
  (bytes.foldlM (fun pending next => utf8Step pending next.val) { left := 0 }).any fun pending =>
    pending.left == 0

def usizeMax : Nat := 2 ^ 64 - 1

def pushDigit (value : Nat) (digit : Byte) : Option Nat :=
  if 48 ≤ digit.val ∧ digit.val ≤ 57 ∧ value * 10 + (digit.val - 48) ≤ usizeMax then
    some (value * 10 + (digit.val - 48))
  else none

/-- `str::parse::<usize>`, which takes a leading plus sign and no other. -/
def parseUsize (text : Bytes) : Option Nat :=
  match text with
  | [] => none
  | first :: rest =>
      if first = byte 43 then (if rest = [] then none else rest.foldlM pushDigit 0)
      else text.foldlM pushDigit 0

inductive Header where
  | found (value next : Nat)
  | incomplete
  | invalid (error : String)
  deriving DecidableEq

def tooBigHeader (expected : Byte) : String :=
  if expected = star then "too big mbulk count string" else "too big bulk count string"

def badHeader (expected : Byte) : String :=
  if expected = star then "invalid multibulk length" else "invalid bulk length"

/-- The header's text without its line ending, which may be a bare LF. -/
def headerDigits (buffer : Bytes) (start stop : Nat) : Bytes :=
  let digits := slice buffer start (stop - 1)
  if digits.getLast? = some cr then digits.dropLast else digits

/-- The header whose text starts at `start` and whose line ends before `stop`. -/
def headerValue (buffer : Bytes) (start stop : Nat) (expected : Byte) : Header :=
  let digits := headerDigits buffer start stop
  if ¬ validUtf8 digits then .invalid "invalid multibulk length"
  else
    match parseUsize digits with
    | some value => .found value stop
    | none => .invalid (badHeader expected)

def readHeader (limits : Limits) (buffer : Bytes) (index : Nat) (expected : Byte) : Header :=
  match buffer[index]? with
  | none => .incomplete
  | some first =>
      if first ≠ expected then
        .invalid (if expected = star then "expected '*', but got something else"
          else "expected '$', but got something else")
      else
        match findLineEnd buffer (index + 1) with
        | none =>
            if buffer.length - index > limits.maxLineBytes then .invalid (tooBigHeader expected)
              else .incomplete
        | some stop => headerValue buffer (index + 1) stop expected

def tooManyArguments (limits : Limits) : String :=
  s!"invalid multibulk length, the command has too many arguments (at most {limits.maxArguments})"

def tooLongArgument (limits : Limits) : String :=
  s!"invalid bulk length, a single argument is at most {limits.maxBulkBytes} bytes"

/-- The elements of a multibulk request that are still to come. -/
def parseArguments (limits : Limits) (buffer : Bytes) : Nat → Nat → List Bytes → Frame (List Bytes) String
  | 0, cursor, args => .taken args cursor
  | count + 1, cursor, args =>
      match readHeader limits buffer cursor dollar with
      | .incomplete => .incomplete
      | .invalid error => .invalid error
      | .found length start =>
          if length > limits.maxBulkBytes then .invalid (tooLongArgument limits)
          else if buffer.length < start + length + 2 then .incomplete
          else if slice buffer (start + length) (start + length + 2) ≠ crlf then
            .invalid "invalid bulk length, missing CRLF after argument"
          else
            parseArguments limits buffer count (start + length + 2)
              (args ++ [slice buffer start (start + length)])

def parseMultibulk (limits : Limits) (buffer : Bytes) : Frame (List Bytes) String :=
  match readHeader limits buffer 0 star with
  | .incomplete => .incomplete
  | .invalid error => .invalid error
  | .found count next =>
      if count > limits.maxArguments then .invalid (tooManyArguments limits)
      else parseArguments limits buffer count next []

/-- `u8::is_ascii_whitespace`. -/
def isAsciiWhitespace (value : Byte) : Bool :=
  value.val == 32 || value.val == 9 || value.val == 10 || value.val == 12 || value.val == 13

def words (line : Bytes) : List Bytes := (line.splitOnP isAsciiWhitespace).filter (· ≠ [])

def parseInline (limits : Limits) (buffer : Bytes) : Frame (List Bytes) String :=
  match findLineEnd buffer 0 with
  | none => if buffer.length > limits.maxLineBytes then .invalid "too big inline request" else .incomplete
  | some stop =>
      let args := words (buffer.take stop)
      if args.any fun argument => limits.maxBulkBytes < argument.length then .invalid
        (tooLongArgument limits)
      else if args.length > limits.maxArguments then .invalid (tooManyArguments limits)
      else .taken args stop

def parse (limits : Limits) (buffer : Bytes) : Frame (List Bytes) String :=
  match buffer.head? with
  | none => .incomplete
  | some first =>
      if first = cr ∨ first = lf then
        match findLineEnd buffer 1 with
        | some stop => .taken [] stop
        | none => .incomplete
      else if first = star then parseMultibulk limits buffer
      else parseInline limits buffer

/-! More input behind a buffer changes nothing a finished line, header or frame
was read from. -/

theorem find_line_end_some {buffer : Bytes} {start stop : Nat}
    (found : findLineEnd buffer start = some stop) :
    start < stop ∧ stop ≤ buffer.length := by
  obtain ⟨offset, hit, rfl⟩ := Option.map_eq_some_iff.mp found
  have bound : offset < (buffer.drop start).length := (List.findIdx?_eq_some_iff_findIdx_eq.mp hit).1
  rw [List.length_drop] at bound
  omega

theorem find_line_end_append {buffer : Bytes} {start stop : Nat} (more : Bytes)
    (found : findLineEnd buffer start = some stop) : findLineEnd (buffer ++ more) start = some stop := by
  have inside := find_line_end_some found
  obtain ⟨offset, hit, rfl⟩ := Option.map_eq_some_iff.mp found
  rw [findLineEnd, List.drop_append_of_le_length (by omega), List.findIdx?_append, hit]
  rfl

theorem find_line_end_beyond {buffer more : Bytes} {start stop : Nat} (fits : start ≤ buffer.length)
    (missing : findLineEnd buffer start = none) (found : findLineEnd (buffer ++ more) start = some stop) :
    buffer.length < stop := by
  have nowhere : (buffer.drop start).findIdx? (· == lf) = none := by simpa [findLineEnd] using missing
  rw [findLineEnd, List.drop_append_of_le_length fits, List.findIdx?_append, nowhere] at found
  obtain ⟨offset, hit, rfl⟩ := Option.map_eq_some_iff.mp found
  rw [Option.none_or] at hit
  obtain ⟨inner, _, rfl⟩ := Option.map_eq_some_iff.mp hit
  rw [List.length_drop]
  omega

theorem slice_append {buffer : Bytes} {start stop : Nat} (more : Bytes) (fits : stop ≤ buffer.length) :
    slice (buffer ++ more) start stop = slice buffer start stop := by
  rcases Nat.le_total start stop with ordered | past
  · rw [slice, slice, List.drop_append_of_le_length (by omega), List.take_append_of_le_length]
    rw [List.length_drop]
    omega
  · rw [slice, slice, Nat.sub_eq_zero_of_le past, List.take_zero, List.take_zero]

theorem header_value_append {buffer : Bytes} {start stop : Nat} (expected : Byte) (more : Bytes)
    (fits : stop ≤ buffer.length) :
    headerValue (buffer ++ more) start stop expected = headerValue buffer start stop expected := by
  have digits : headerDigits (buffer ++ more) start stop = headerDigits buffer start stop := by
    rw [headerDigits, headerDigits, slice_append more (by omega)]
  rw [headerValue, headerValue, digits]

theorem header_value_found {buffer : Bytes} {start stop value next : Nat} {expected : Byte}
    (found : headerValue buffer start stop expected = .found value next) : next = stop := by
  simp only [headerValue] at found
  split at found
  · exact absurd found (by simp)
  · split at found
    · exact ((Header.found.injEq _ _ _ _).mp found).2.symm
    · exact absurd found (by simp)

/-- Everything reading a header can find: nothing there, another byte, a line
that is still open, or a whole line. -/
inductive HeaderCase (limits : Limits) (buffer : Bytes) (index : Nat) (expected : Byte) :
    Header → Prop where
  | beyond (short : buffer.length ≤ index) : HeaderCase limits buffer index expected .incomplete
  | other (first : Byte) (present : buffer[index]? = some first) (differs : first ≠ expected)
      (error : String)
      (wording : ∀ longer : Bytes, longer[index]? = some first →
        readHeader limits longer index expected = .invalid error) :
      HeaderCase limits buffer index expected (.invalid error)
  | tooBig (present : buffer[index]? = some expected) (unfinished : findLineEnd buffer (index + 1) = none)
      (over_ : limits.maxLineBytes < buffer.length - index) :
      HeaderCase limits buffer index expected (.invalid (tooBigHeader expected))
  | unfinished (present : buffer[index]? = some expected)
      (unfinished : findLineEnd buffer (index + 1) = none)
      (within : buffer.length - index ≤ limits.maxLineBytes) :
        HeaderCase limits buffer index expected .incomplete
  | line (present : buffer[index]? = some expected) (stop : Nat)
      (found : findLineEnd buffer (index + 1) = some stop) :
      HeaderCase limits buffer index expected (headerValue buffer (index + 1) stop expected)

theorem read_header_cases (limits : Limits) (buffer : Bytes) (index : Nat) (expected : Byte) :
    HeaderCase limits buffer index expected (readHeader limits buffer index expected) := by
  unfold readHeader
  cases present : buffer[index]? with
  | none => exact .beyond (List.getElem?_eq_none_iff.mp present)
  | some first =>
      by_cases same : first = expected
      · subst same
        simp only [ne_eq, not_true_eq_false, if_false]
        cases line : findLineEnd buffer (index + 1) with
        | some stop => exact .line present stop line
        | none =>
            simp only
            split
            · exact .tooBig present line (by omega)
            · exact .unfinished present line (by omega)
      · simp only [ne_eq, same, not_false_eq_true, if_true]
        refine .other first present same _ fun longer there => ?_
        simp only [readHeader, there, ne_eq, same, not_false_eq_true, if_true]

theorem read_header_line {limits : Limits} {buffer : Bytes} {index stop : Nat} {expected : Byte}
    (present : buffer[index]? = some expected) (found : findLineEnd buffer (index + 1) = some stop) :
    readHeader limits buffer index expected = headerValue buffer (index + 1) stop expected := by
  simp only [readHeader, present, found, ne_eq, not_true_eq_false, if_false]

theorem present_append {buffer : Bytes} {index : Nat} {value : Byte} (more : Bytes)
    (present : buffer[index]? = some value) : (buffer ++ more)[index]? = some value := by
  rw [List.getElem?_append_left (List.getElem?_eq_some_iff.mp present).1, present]

theorem read_header_found {limits : Limits} {buffer : Bytes} {index value next : Nat} {expected : Byte}
    (found : readHeader limits buffer index expected = .found value next) :
    (∀ more, readHeader limits (buffer ++ more) index expected = .found value next) ∧
      index < next ∧ next ≤ buffer.length := by
  have cases_ := read_header_cases limits buffer index expected
  rw [found] at cases_
  generalize shown : Header.found value next = header at cases_
  cases cases_ with
  | beyond => exact absurd shown (by simp)
  | other => exact absurd shown (by simp)
  | tooBig => exact absurd shown (by simp)
  | unfinished => exact absurd shown (by simp)
  | line present stop ends =>
      obtain rfl := header_value_found shown.symm
      have bounds := find_line_end_some ends
      refine ⟨fun more => ?_, by omega, by omega⟩
      rw [read_header_line (present_append more present) (find_line_end_append more ends),
        header_value_append expected more bounds.2]

/-- A line the parser reads from `index` on is at most as long as a line may be,
if it ends at all. -/
def lineWithin (limits : Limits) (buffer : Bytes) (index start : Nat) : Bool :=
  (findLineEnd buffer start).all fun stop => stop - 1 - index ≤ limits.maxLineBytes

theorem read_header_invalid {limits : Limits} {buffer more : Bytes} {index : Nat} {expected : Byte}
    {error : String} (within : lineWithin limits (buffer ++ more) index (index + 1) = true)
    (refused : readHeader limits buffer index expected = .invalid error) :
    readHeader limits (buffer ++ more) index expected = .invalid error := by
  have cases_ := read_header_cases limits buffer index expected
  rw [refused] at cases_
  generalize shown : Header.invalid error = header at cases_
  cases cases_ with
  | beyond => exact absurd shown (by simp)
  | unfinished => exact absurd shown (by simp)
  | other first present differs wording wordings =>
      exact wordings _ (present_append more present)
  | line present stop ends =>
      rw [read_header_line (present_append more present) (find_line_end_append more ends),
        header_value_append expected more (find_line_end_some ends).2]
  | tooBig present unfinished big =>
      have inside : index < buffer.length := (List.getElem?_eq_some_iff.mp present).1
      have open_ : findLineEnd (buffer ++ more) (index + 1) = none := by
        cases ends : findLineEnd (buffer ++ more) (index + 1) with
        | none => rfl
        | some stop =>
            have beyond := find_line_end_beyond (by omega) unfinished ends
            simp only [lineWithin, ends, Option.all_some, decide_eq_true_eq] at within
            omega
      have longer : limits.maxLineBytes < (buffer ++ more).length - index := by
        rw [List.length_append]
        omega
      simp only [readHeader, present_append more present, open_, ne_eq, not_true_eq_false, if_false,
        gt_iff_lt, longer,
        if_true]

def argumentsWithin (limits : Limits) (buffer : Bytes) : Nat → Nat → Bool
  | 0, _ => true
  | count + 1, cursor =>
      lineWithin limits buffer cursor (cursor + 1) &&
        match readHeader limits buffer cursor dollar with
        | .found length start => argumentsWithin limits buffer count (start + length + 2)
        | _ => true

def linesWithin (limits : Limits) (buffer : Bytes) : Bool :=
  match buffer.head? with
  | none => true
  | some first =>
      if first = cr ∨ first = lf then true
      else if first = star then
        lineWithin limits buffer 0 1 &&
          match readHeader limits buffer 0 star with
          | .found count next => argumentsWithin limits buffer count next
          | _ => true
      else lineWithin limits buffer 0 0

theorem parse_arguments_taken {limits : Limits} {buffer : Bytes} {count cursor length : Nat}
    {args found : List Bytes} (fits : cursor ≤ buffer.length)
    (taken : parseArguments limits buffer count cursor args = .taken found length) :
    (∀ more, parseArguments limits (buffer ++ more) count cursor args = .taken found length) ∧
      cursor ≤ length ∧ length ≤ buffer.length := by
  induction count generalizing cursor args with
  | zero =>
      simp only [parseArguments, Frame.taken.injEq] at taken
      obtain ⟨rfl, rfl⟩ := taken
      exact ⟨fun more => rfl, le_refl _, fits⟩
  | succ count ih =>
      simp only [parseArguments] at taken ⊢
      cases header : readHeader limits buffer cursor dollar with
      | incomplete => simp [header] at taken
      | invalid error => simp [header] at taken
      | found size start =>
          obtain ⟨stays, forward, inside⟩ := read_header_found header
          simp only [header] at taken
          split at taken
          · exact absurd taken (by simp)
          rename_i small
          split at taken
          · exact absurd taken (by simp)
          rename_i arrived
          split at taken
          · exact absurd taken (by simp)
          rename_i ended
          obtain ⟨later, ordered, bounded⟩ := ih (by omega) taken
          refine ⟨fun more => ?_, by omega, bounded⟩
          have longer : ¬(buffer ++ more).length < start + size + 2 := by
            rw [List.length_append]
            omega
          rw [stays more]
          simp only [small, longer, if_false]
          rw [slice_append more (by omega), slice_append more (by omega), if_neg ended]
          exact later more

theorem parse_arguments_invalid {limits : Limits} {buffer more : Bytes} {count cursor : Nat}
    {args : List Bytes} {error : String}
    (within : argumentsWithin limits (buffer ++ more) count cursor = true)
    (refused : parseArguments limits buffer count cursor args = .invalid error) :
    parseArguments limits (buffer ++ more) count cursor args = .invalid error := by
  induction count generalizing cursor args with
  | zero => simp [parseArguments] at refused
  | succ count ih =>
      obtain ⟨line, rest⟩ := Bool.and_eq_true_iff.mp within
      simp only [parseArguments] at refused ⊢
      cases header : readHeader limits buffer cursor dollar with
      | incomplete => simp [header] at refused
      | invalid wording =>
          rw [read_header_invalid line header]
          simpa [header] using refused
      | found size start =>
          obtain ⟨stays, forward, inside⟩ := read_header_found header
          rw [stays more] at rest ⊢
          simp only [header] at refused
          simp only at rest ⊢
          split
          · rename_i big
            rwa [if_pos big] at refused
          rename_i small
          rw [if_neg small] at refused
          split at refused
          · exact absurd refused (by simp)
          rename_i arrived
          have longer : ¬(buffer ++ more).length < start + size + 2 := by
            rw [List.length_append]
            omega
          rw [if_neg longer, slice_append more (by omega), slice_append more (by omega)]
          split
          · rename_i unended
            rwa [if_pos unended] at refused
          · rename_i ended
            rw [if_neg ended] at refused
            exact ih rest refused

theorem parse_multibulk_taken {limits : Limits} {buffer : Bytes} {args : List Bytes} {length : Nat}
    (taken : parseMultibulk limits buffer = .taken args length) :
    (∀ more, parseMultibulk limits (buffer ++ more) = .taken args length) ∧ 0 < length ∧
      length ≤ buffer.length := by
  simp only [parseMultibulk] at taken ⊢
  cases header : readHeader limits buffer 0 star with
  | incomplete => simp [header] at taken
  | invalid error => simp [header] at taken
  | found count next =>
      obtain ⟨stays, forward, inside⟩ := read_header_found header
      simp only [header] at taken
      split at taken
      · exact absurd taken (by simp)
      rename_i few
      obtain ⟨later, ordered, bounded⟩ := parse_arguments_taken inside taken
      refine ⟨fun more => ?_, by omega, bounded⟩
      rw [stays more]
      simp only [few, if_false]
      exact later more

theorem parse_inline_taken {limits : Limits} {buffer : Bytes} {args : List Bytes} {length : Nat}
    (taken : parseInline limits buffer = .taken args length) :
    (∀ more, parseInline limits (buffer ++ more) = .taken args length) ∧ 0 < length ∧
      length ≤ buffer.length := by
  simp only [parseInline] at taken ⊢
  cases line : findLineEnd buffer 0 with
  | none =>
      rw [line] at taken
      simp only at taken
      split at taken <;> exact absurd taken (by simp)
  | some stop =>
      have bounds := find_line_end_some line
      simp only [line] at taken
      have measured : stop = length := by
        split at taken
        · exact absurd taken (by simp)
        · split at taken
          · exact absurd taken (by simp)
          · exact ((Frame.taken.injEq _ _ _ _).mp taken).2
      refine ⟨fun more => ?_, by omega, by omega⟩
      rw [find_line_end_append more line, ← taken]
      simp only [List.take_append_of_le_length bounds.2]

theorem parse_taken {limits : Limits} {buffer : Bytes} {args : List Bytes} {length : Nat}
    (taken : parse limits buffer = .taken args length) :
    (∀ more, parse limits (buffer ++ more) = .taken args length) ∧ 0 < length ∧
      length ≤ buffer.length := by
  cases buffer with
  | nil => simp [parse] at taken
  | cons first rest =>
      simp only [parse, List.head?_cons, List.cons_append] at taken ⊢
      split at taken
      · rename_i blank
        simp only [blank, if_true]
        cases line : findLineEnd (first :: rest) 1 with
        | none => simp [line] at taken
        | some stop =>
            have bounds := find_line_end_some line
            simp only [line, Frame.taken.injEq] at taken
            obtain ⟨rfl, rfl⟩ := taken
            refine ⟨fun more => ?_, by omega, bounds.2⟩
            rw [← List.cons_append, find_line_end_append more line]
      · rename_i solid
        simp only [solid, if_false]
        split at taken
        · rename_i multi
          simp only [multi, if_true] at taken ⊢
          exact parse_multibulk_taken taken
        · rename_i single
          simp only [single, if_false] at taken ⊢
          exact parse_inline_taken taken

/-- A refusal stands, whatever follows, unless the line it refused ends too late. -/
theorem parse_invalid {limits : Limits} {buffer more : Bytes} {error : String}
    (within : linesWithin limits (buffer ++ more) = true)
    (refused : parse limits buffer = .invalid error) :
    parse limits (buffer ++ more) = .invalid error := by
  cases buffer with
  | nil => simp [parse] at refused
  | cons first rest =>
      -- A line end in front is never refused; otherwise the first byte tells the readers apart.
      simp only [parse, linesWithin, List.head?_cons, List.cons_append] at refused within ⊢
      split at refused
      · split at refused <;> exact absurd refused (by simp)
      rename_i solid
      simp only [solid, if_false] at within ⊢
      split at refused
      · rename_i multi
        simp only [multi, if_true, Bool.and_eq_true] at within ⊢
        subst multi
        obtain ⟨line, rest_⟩ := within
        simp only [parseMultibulk] at refused ⊢
        cases header : readHeader limits (star :: rest) 0 star with
        | incomplete => simp [header] at refused
        | invalid wording =>
            have still : readHeader limits (star :: rest ++ more) 0 star = .invalid wording :=
              read_header_invalid line header
            rw [List.cons_append] at still
            rw [still]
            simpa [header] using refused
        | found count next =>
            obtain ⟨stays, _, _⟩ := read_header_found header
            have still := stays more
            rw [List.cons_append] at still
            rw [still] at rest_ ⊢
            simp only [header] at refused
            simp only at rest_ ⊢
            split
            · rename_i many
              rwa [if_pos many] at refused
            · rename_i few
              rw [if_neg few] at refused
              exact parse_arguments_invalid rest_ refused
      · rename_i single
        simp only [single, if_false] at within ⊢
        simp only [parseInline] at refused ⊢
        cases line : findLineEnd (first :: rest) 0 with
        | some stop =>
            have bounds := find_line_end_some line
            have still := find_line_end_append more line
            rw [List.cons_append] at still
            rw [line] at refused
            rw [still, ← refused]
            simp only [← List.cons_append, List.take_append_of_le_length bounds.2]
        | none =>
            have open_ : findLineEnd (first :: (rest ++ more)) 0 = none := by
              cases ends : findLineEnd (first :: (rest ++ more)) 0 with
              | none => rfl
              | some stop =>
                  have beyond : (first :: rest).length < stop :=
                    find_line_end_beyond (Nat.zero_le _) line ends
                  simp only [lineWithin, ends, Option.all_some, decide_eq_true_eq] at within
                  simp only [line] at refused
                  split at refused
                  · omega
                  · exact absurd refused (by simp)
            simp only [line, List.length_cons] at refused
            rw [open_, ← List.cons_append, List.length_append, List.length_cons]
            split at refused
            · rename_i big
              simp only
              rw [if_pos (by omega), refused]
            · exact absurd refused (by simp)

end Resp

end Hashring
