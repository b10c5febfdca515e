import Hashring.Gateway

/-! The commands a connection is sent are the commands its dispatcher is given,
however the bytes are cut into reads. -/
namespace Hashring

inductive LineEnding where
  | crlf
  | lf
  deriving DecidableEq

namespace LineEnding

def text : LineEnding → Bytes
  | crlf => [cr]
  | lf => []

def bytes (ending : LineEnding) : Bytes := ending.text ++ [Hashring.lf]

end LineEnding

/-- One request as a client sends it. An element of a multibulk request carries
the line ending of its header. -/
inductive Request where
  | multibulk (ending : LineEnding) (args : List (LineEnding × Bytes))
  | inline (line : Bytes) (ending : LineEnding)
  | blank

namespace Request

def headerLine (kind : Byte) (count : Nat) (ending : LineEnding) : Bytes := kind ::
    decimal count ++ ending.text

def element (argument : LineEnding × Bytes) : Bytes :=
  headerLine dollar argument.2.length argument.1 ++ [lf] ++ argument.2 ++ crlf

def bytes : Request → Bytes
  | multibulk ending args => headerLine star args.length ending ++ [lf] ++ args.flatMap element
  | inline line ending => line ++ ending.bytes
  | blank => crlf

def command : Request → List Bytes
  | multibulk _ args => args.map Prod.snd
  | inline line _ => Resp.words line
  | blank => []

/-- A header line that may be sent: its number fits a `usize` and the line is
within the limit. -/
def HeaderFits (limits : Resp.Limits) (kind : Byte) (count : Nat) (ending : LineEnding) : Prop :=
  count ≤ Resp.usizeMax ∧ (headerLine kind count ending).length ≤ limits.maxLineBytes

def Fits (limits : Resp.Limits) : Request → Prop
  | multibulk ending args => HeaderFits limits star args.length ending ∧ args.length ≤
    limits.maxArguments ∧
      ∀ argument ∈ args, HeaderFits limits dollar argument.2.length argument.1 ∧ argument.2.length ≤
        limits.maxBulkBytes
  | inline line ending => lf ∉ line ∧ line.head?.any (fun first => first ≠ star ∧ first ≠ cr) = true ∧
      (line ++ ending.text).length ≤ limits.maxLineBytes ∧ (Resp.words line).length ≤
        limits.maxArguments ∧
      ∀ word ∈ Resp.words line, word.length ≤ limits.maxBulkBytes
  | blank => True

end Request

namespace Resp

theorem decimal_digit (n : Nat) : ∀ digit ∈ decimal n, 48 ≤ digit.val ∧ digit.val ≤ 57 := by
  induction n using Nat.strongRecOn with
  | _ n ih =>
      intro digit member
      rw [decimal] at member
      split at member
      · rw [List.mem_singleton.mp member]
        simp only [byte]
        omega
      · rcases List.mem_append.mp member with early | last
        · exact ih (n / 10) (by omega) digit early
        · rw [List.mem_singleton.mp last]
          simp only [byte]
          omega

theorem push_decimal (n : Nat) (fits : n ≤ usizeMax) : (decimal n).foldlM pushDigit 0 = some n := by
  induction n using Nat.strongRecOn with
  | _ n ih =>
      have push : ∀ value digit, digit < 10 → value * 10 + digit ≤ usizeMax →
          pushDigit value (byte (48 + digit)) = some (value * 10 + digit) := by
        intro value digit small bounded
        have shown : (byte (48 + digit)).val = 48 + digit := by
          simp only [byte]
          omega
        rw [pushDigit, shown, if_pos ⟨by omega, by omega, by omega⟩]
        congr 1
        omega
      rw [decimal]
      split
      · rename_i small
        simpa using push 0 n small (by omega)
      · rw [List.foldlM_append, ih (n / 10) (by omega) (by omega)]
        have whole : n / 10 * 10 + n % 10 = n := by omega
        have last := push (n / 10) (n % 10) (by omega) (by omega)
        rw [whole] at last
        simpa using last

theorem decimal_ne_nil (n : Nat) : decimal n ≠ [] := by
  rw [decimal]
  split <;> simp

theorem parse_usize_decimal (n : Nat) (fits : n ≤ usizeMax) : parseUsize (decimal n) = some n := by
  have pushed := push_decimal n fits
  cases digits : decimal n with
  | nil => exact absurd digits (decimal_ne_nil n)
  | cons first rest =>
      have low := (decimal_digit n first (digits ▸ List.mem_cons_self)).1
      have unsigned : first ≠ byte 43 := by
        rintro rfl
        simp [byte] at low
      rw [parseUsize, if_neg unsigned, ← digits, pushed]

theorem valid_utf8_ascii (bytes : Bytes) (ascii : ∀ value ∈ bytes, value.val < 128) :
    validUtf8 bytes = true := by
  have folded : bytes.foldlM (fun pending next => utf8Step pending next.val) { left := 0 } =
      some { left := 0 } := by
    induction bytes with
    | nil => rfl
    | cons first rest ih =>
        have low := ascii first List.mem_cons_self
        simp only [List.foldlM_cons, utf8Step, ne_eq, not_true_eq_false, if_false, low, if_true]
        exact ih fun value member => ascii value (List.mem_cons_of_mem _ member)
  simp [validUtf8, folded]

theorem find_line_end_at (before line after : Bytes) (plain : lf ∉ line) :
    findLineEnd (before ++ line ++ lf :: after) before.length =
      some (before.length + line.length + 1) := by
  have nowhere : line.findIdx? (· == lf) = none := by
    rw [List.findIdx?_eq_none_iff]
    intro value member
    simp only [beq_eq_false_iff_ne, ne_eq]
    rintro rfl
    exact plain member
  rw [findLineEnd, List.append_assoc, List.drop_append_of_le_length (Nat.le_refl _),
    List.drop_length, List.nil_append,
    List.findIdx?_append, nowhere, List.findIdx?_cons]
  simp

theorem slice_middle (before middle after : Bytes) :
    slice (before ++ middle ++ after) before.length (before.length + middle.length) = middle := by
  rw [slice, List.append_assoc, List.drop_append_of_le_length (Nat.le_refl _), List.drop_length,
    List.nil_append,
    Nat.add_sub_cancel_left, List.take_left']
  rfl

open Request

theorem plain_header (count : Nat) (ending : LineEnding) : lf ∉ decimal count ++ ending.text := by
  intro member
  rcases List.mem_append.mp member with digit | ended
  · have low := (decimal_digit count lf digit).1
    simp [lf, byte] at low
  · cases ending with
    | crlf => simp [LineEnding.text, lf, cr, byte] at ended
    | lf => simp [LineEnding.text] at ended

theorem read_header_at {limits : Limits} (before after : Bytes) {kind : Byte} {count : Nat}
    {ending : LineEnding} (fits : HeaderFits limits kind count ending) :
    readHeader limits (before ++ headerLine kind count ending ++ lf :: after) before.length kind =
        .found count (before.length + (headerLine kind count ending).length + 1) ∧
      lineWithin limits (before ++ headerLine kind count ending ++ lf :: after) before.length
        (before.length + 1) = true := by
  obtain ⟨small, short⟩ := fits
  have layout : before ++ headerLine kind count ending ++ lf :: after =
      (before ++ [kind]) ++ (decimal count ++ ending.text) ++ lf :: after := by
    simp [headerLine]
  -- The first line feed from the header on is its own.
  have line : findLineEnd (before ++ headerLine kind count ending ++ lf :: after) (before.length + 1) =
      some (before.length + (headerLine kind count ending).length + 1) := by
    have found := find_line_end_at (before ++ [kind]) (decimal count ++ ending.text) after
        (plain_header count ending)
    rw [← layout, List.length_append] at found
    rw [show before.length + 1 = before.length + [kind].length from rfl, found]
    simp only [headerLine, List.length_cons, List.length_append, List.length_nil, Option.some.injEq]
    omega
  have present : (before ++ headerLine kind count ending ++ lf :: after)[before.length]? = some kind := by
    simp [headerLine]
  have digits : headerDigits (before ++ headerLine kind count ending ++ lf :: after) (before.length + 1)
      (before.length + (headerLine kind count ending).length + 1) = decimal count := by
    have sliced := slice_middle (before ++ [kind]) (decimal count ++ ending.text) (lf :: after)
    rw [← layout, List.length_append] at sliced
    have stop : before.length + (headerLine kind count ending).length + 1 - 1 =
        before.length + [kind].length + (decimal count ++ ending.text).length := by
      simp only [headerLine, List.length_cons, List.length_append, List.length_nil]
      omega
    rw [headerDigits, stop, show before.length + 1 = before.length + [kind].length from rfl, sliced]
    cases ending with
    | crlf => simp [LineEnding.text]
    | lf =>
        have last : (decimal count ++ LineEnding.text .lf).getLast? ≠ some cr := by
          intro ends
          have member := List.mem_of_getLast? ends
          rw [LineEnding.text, List.append_nil] at member
          have low := (decimal_digit count cr member).1
          simp [cr, byte] at low
        rw [if_neg last, LineEnding.text, List.append_nil]
  constructor
  · have ascii : validUtf8 (decimal count) = true :=
      valid_utf8_ascii _ fun value member => by
        have high := (decimal_digit count value member).2
        omega
    rw [read_header_line present line, headerValue, digits]
    simp only [ascii, not_true_eq_false, if_false, parse_usize_decimal count small]
  · simp only [lineWithin, line, Option.all_some, decide_eq_true_eq]
    omega

theorem parse_elements {limits : Limits} (before after : Bytes) (args : List (LineEnding × Bytes))
    (read : List Bytes)
    (fits : ∀ argument ∈ args, HeaderFits limits dollar argument.2.length argument.1 ∧
      argument.2.length ≤ limits.maxBulkBytes) :
    parseArguments limits (before ++ args.flatMap element ++ after) args.length before.length read =
        .taken (read ++ args.map Prod.snd) (before.length + (args.flatMap element).length) ∧
      argumentsWithin limits (before ++ args.flatMap element ++ after) args.length
        before.length = true := by
  -- Each step moves one element from what is ahead to what is behind.
  induction args generalizing before read with
  | nil => simp [parseArguments, argumentsWithin]
  | cons argument rest ih =>
      obtain ⟨header, small⟩ := fits argument List.mem_cons_self
      let line := headerLine dollar argument.2.length argument.1
      have layout : before ++ (argument :: rest).flatMap element ++ after =
          before ++ line ++ lf :: (argument.2 ++ crlf ++ rest.flatMap element ++ after) := by
        simp [element, line]
      have behind : before ++ (argument :: rest).flatMap element ++ after =
          (before ++ element argument) ++ rest.flatMap element ++ after := by
        simp
      have body : before ++ (argument :: rest).flatMap element ++ after =
          (before ++ line ++ [lf]) ++ argument.2 ++ (crlf ++ rest.flatMap element ++ after) := by
        simp [element, line]
      have ending : before ++ (argument :: rest).flatMap element ++ after =
          (before ++ line ++ [lf] ++ argument.2) ++ crlf ++ (rest.flatMap element ++ after) := by
        simp [element, line]
      obtain ⟨found, within⟩ :=
        read_header_at before (argument.2 ++ crlf ++ rest.flatMap element ++ after) header
      rw [← layout] at found within
      have start : before.length + line.length + 1 = (before ++ line ++ [lf]).length := by
        simp only [List.length_append, List.length_singleton]
      have stop : (before ++ line ++ [lf]).length + argument.2.length =
          (before ++ line ++ [lf] ++ argument.2).length := by
        simp only [List.length_append]
      have next : (before ++ line ++ [lf] ++ argument.2).length + 2 =
          (before ++ element argument).length := by
        simp only [element, line, crlf, List.length_append, List.length_cons, List.length_nil]
        omega
      have taken : slice (before ++ (argument :: rest).flatMap element ++ after)
          (before ++ line ++ [lf]).length
          ((before ++ line ++ [lf]).length + argument.2.length) = argument.2 := by
        rw [body]
        exact slice_middle _ _ _
      have closed : slice (before ++ (argument :: rest).flatMap element ++ after)
          (before ++ line ++ [lf] ++ argument.2).length
              ((before ++ line ++ [lf] ++ argument.2).length + 2) = crlf := by
        rw [ending]
        exact slice_middle _ crlf _
      have arrived : ¬(before ++ (argument :: rest).flatMap element ++ after).length <
          (before ++ line ++ [lf] ++ argument.2).length + 2 := by
        rw [next, behind]
        simp only [List.length_append]
        omega
      obtain ⟨later, laterWithin⟩ := ih (before ++ element argument) (read ++ [argument.2])
        fun other member => fits other (List.mem_cons_of_mem _ member)
      rw [← behind] at later laterWithin
      constructor
      · rw [List.length_cons, parseArguments, found, start]
        simp only [Nat.not_lt.mpr small, if_false]
        rw [stop, if_neg arrived, closed, if_neg (by simp), ← stop, taken, stop, next, later]
        simp only [List.map_cons, List.append_assoc, List.singleton_append, List.flatMap_cons,
          List.length_append,
          Frame.taken.injEq, true_and]
        omega
      · rw [List.length_cons, argumentsWithin, found, start]
        simp only [within, Bool.true_and]
        rw [stop, next]
        exact laterWithin

theorem split_blank (line rest : Bytes) (separator : Byte) (white : isAsciiWhitespace separator = true) :
    (line ++ separator :: rest).splitOnP isAsciiWhitespace =
      line.splitOnP isAsciiWhitespace ++ rest.splitOnP isAsciiWhitespace := by
  induction line with
  | nil => simp [List.splitOnP_cons_eq_if_modifyHead, white]
  | cons first others ih =>
      rw [List.cons_append, List.splitOnP_cons_eq_if_modifyHead, List.splitOnP_cons_eq_if_modifyHead, ih]
      split
      · rfl
      · cases pieces : others.splitOnP isAsciiWhitespace with
        | nil => exact absurd pieces (List.splitOnP_ne_nil _ _)
        | cons piece more => rfl

theorem words_ending (line : Bytes) (ending : LineEnding) :
    words (line ++ ending.bytes) = words line := by
  have nothing : ([] : Bytes).splitOnP isAsciiWhitespace = [[]] := List.splitOnP_nil
  cases ending with
  | lf =>
      rw [words, words, show line ++ LineEnding.bytes .lf = line ++ lf :: [] from rfl,
        split_blank _ _ _ (by decide), nothing]
      simp
  | crlf =>
      rw [words, words, show line ++ LineEnding.bytes .crlf = line ++ cr :: ([] ++ lf :: []) from rfl,
        split_blank _ _ _ (by decide), split_blank _ _ _ (by decide), nothing]
      simp

/-- A request the limits let through is taken off the front whole, and its lines
are within the limit. -/
theorem parse_request {limits : Limits} {request : Request} (after : Bytes) (fits : request.Fits limits) :
    parse limits (request.bytes ++ after) = .taken request.command request.bytes.length ∧
      linesWithin limits (request.bytes ++ after) = true := by
  cases request with
  | blank =>
      have line : findLineEnd (cr :: lf :: after) 1 = some 2 := find_line_end_at [cr] [] after (by simp)
      have shown : blank.bytes ++ after = cr :: lf :: after := rfl
      constructor
      · rw [shown, parse]
        simp only [List.head?_cons, true_or, if_true, line]
        rfl
      · rw [shown, linesWithin]
        simp only [List.head?_cons, true_or, if_true]
  | multibulk ending args =>
      obtain ⟨header, few, elements⟩ := fits
      -- The buffer as the header reader sees it, and as the readers of the elements do.
      let line := headerLine star args.length ending
      have shown : (multibulk ending args).bytes ++ after = (line ++ [lf]) ++
          args.flatMap element ++ after := by
        simp [Request.bytes, line]
      have layout : (multibulk ending args).bytes ++ after = [] ++ line ++
          lf :: (args.flatMap element ++ after) := by
        simp [Request.bytes, line]
      obtain ⟨found, within⟩ := read_header_at [] (args.flatMap element ++ after) header
      rw [← layout] at found within
      obtain ⟨taken, elementsWithin⟩ := parse_elements (line ++ [lf]) after args [] elements
      rw [← shown] at taken elementsWithin
      have start : ([] : Bytes).length + line.length + 1 = (line ++ [lf]).length := by
        simp
      have front : ((multibulk ending args).bytes ++ after).head? = some star := rfl
      have solid : ¬(star = cr ∨ star = lf) := by decide
      constructor
      · rw [parse, front]
        simp only [solid, if_false, if_true]
        rw [parseMultibulk, show (0 : Nat) = ([] : Bytes).length from rfl, found, start]
        simp only [Nat.not_lt.mpr few, if_false]
        rw [taken, List.nil_append, ← List.length_append]
        rfl
      · rw [linesWithin, front]
        simp only [solid, if_false, if_true]
        rw [show (0 : Nat) = ([] : Bytes).length from rfl, found, start]
        rw [show (1 : Nat) = ([] : Bytes).length + 1 from rfl, within]
        simpa using elementsWithin
  | inline line ending =>
      obtain ⟨plain, front, short, few, small⟩ := fits
      cases line with
      | nil => simp at front
      | cons first rest =>
          simp only [List.head?_cons, Option.any_some, decide_eq_true_eq] at front
          have unlike : first ≠ lf := by
            rintro rfl
            exact plain List.mem_cons_self
          have solid : ¬(first = cr ∨ first = lf) := by
            rintro (same | same)
            · exact front.2 same
            · exact unlike same
          have plainAll : lf ∉ first :: rest ++ ending.text := by
            intro member
            rcases List.mem_append.mp member with early | late
            · exact plain early
            · exact plain_header 0 ending (List.mem_append.mpr (.inr late))
          have shown : (inline (first :: rest) ending).bytes ++ after =
              [] ++ (first :: rest ++ ending.text) ++ lf :: after := by
            simp [Request.bytes, LineEnding.bytes]
          have found := find_line_end_at [] (first :: rest ++ ending.text) after plainAll
          rw [← shown] at found
          have whole : ([] : Bytes).length + (first :: rest ++ ending.text).length + 1 =
              (inline (first :: rest) ending).bytes.length := by
            simp [Request.bytes, LineEnding.bytes, Nat.add_assoc]
          have head : ((inline (first :: rest) ending).bytes ++ after).head? = some first := rfl
          constructor
          · rw [parse, head]
            simp only [solid, front.1, if_false]
            rw [parseInline, show (0 : Nat) = ([] : Bytes).length from rfl, found, whole]
            have line : ((inline (first :: rest) ending).bytes ++ after).take
                (inline (first :: rest) ending).bytes.length =
                first :: rest ++ ending.bytes := List.take_left' rfl
            have fitting : ¬((words (first :: rest)).any fun argument =>
                decide (limits.maxBulkBytes < argument.length)) = true := by
              rw [List.any_eq_true]
              rintro ⟨word, member, big⟩
              have bounded := small word member
              simp only [decide_eq_true_eq] at big
              omega
            simp only [line, words_ending, fitting, Nat.not_lt.mpr few, if_false, Request.command,
              Bool.false_eq_true]
          · rw [linesWithin, head]
            simp only [solid, front.1, if_false]
            rw [lineWithin, show (0 : Nat) = ([] : Bytes).length from rfl, found]
            simp only [Option.all_some, decide_eq_true_eq, List.length_nil]
            omega

end Resp

namespace Service

variable {ω : Type} (service : Service ω)

theorem reader_lawful : service.reader.Lawful where
  empty _ := rfl
  forward taken := (Resp.parse_taken taken).2
  extended more taken := (Resp.parse_taken taken).1 more

/-- Every header or inline line met along the stream that ends at all is at most
as long as a line may be. -/
def LinesWithin (session : Session ω) (stream : Bytes) : Prop :=
  ∀ later rest, service.reader.Reached session stream later rest →
    Resp.linesWithin (service.limitsFor later.connection) rest = true

theorem reader_steady {session : Session ω} {stream : Bytes}
    (within : service.LinesWithin session stream) :
    service.reader.Steady session stream := by
  intro before rest reached early late error split refused
  have lines := within before rest reached
  subst split
  exact Resp.parse_invalid lines refused

theorem limits_query_buffer (connection : Connection) :
    (service.limitsFor connection).maxQueryBufferBytes = service.limits.maxQueryBufferBytes := by
  unfold limitsFor
  split <;> rfl

theorem reached_shorter {session later : Session ω} {stream rest : Bytes}
    (reached : service.reader.Reached session stream later rest) : rest.length ≤ stream.length := by
  induction reached with
  | start => exact le_refl _
  | step _ _ _ ih =>
      rw [List.length_drop]
      omega

theorem roomy_total {session : Session ω} {stream : Bytes} (reads : List Bytes)
    (small : stream.length ≤ service.limits.maxQueryBufferBytes) :
    service.reader.Roomy session stream reads := by
  intro before pending piece late reached _ _
  have shorter := service.reached_shorter reached
  rw [List.length_append] at shorter
  have fits : ¬(service.limitsFor before.connection).maxQueryBufferBytes < (pending ++ piece).length := by
    rw [service.limits_query_buffer]
    omega
  simp only [reader, fits, if_false]

/-- Gives commands to the dispatcher one after the other, until one closes the
connection. -/
def handle : Session ω → List (List Bytes) → Reading Byte String (Session ω)
  | session, [] => .waiting session []
  | session, args :: rest =>
      if (service.answer session args).2 then .closed (service.answer session args).1
      else handle (service.answer session args).1 rest

def Admitted : Session ω → List Request → Prop
  | _, [] => True
  | session, request :: rest => request.Fits (service.limitsFor session.connection) ∧
      ((service.answer session request.command).2 = false →
        Admitted (service.answer session request.command).1 rest)

theorem handle_blank (session : Session ω) (commands : List (List Bytes)) :
    service.handle session ([] :: commands) = service.handle session commands := by
  simp [handle, answer]

theorem handle_nonempty (session : Session ω) (commands : List (List Bytes)) :
    service.handle session (commands.filter (· ≠ [])) = service.handle session commands := by
  induction commands generalizing session with
  | nil => rfl
  | cons args rest ih =>
      by_cases blank : args = []
      · subst blank
        simpa [handle_blank] using ih session
      · rw [List.filter_cons_of_pos (by simpa using blank), handle, handle, ih]

theorem drain_requests (session : Session ω) (requests : List Request)
    (admitted : service.Admitted session requests) :
    service.reader.drain session (requests.flatMap Request.bytes) =
      service.handle session (requests.map Request.command) := by
  induction requests generalizing session with
  | nil => rfl
  | cons request rest ih =>
      obtain ⟨fits, later⟩ := admitted
      obtain ⟨parsed, _⟩ := Resp.parse_request (rest.flatMap Request.bytes) fits
      have parsedHere : service.reader.parse session (request.bytes ++ rest.flatMap Request.bytes) =
          .taken request.command request.bytes.length := parsed
      rw [List.flatMap_cons, FrameReader.drain_turn service.reader_lawful, FrameReader.turn,
        parsedHere, List.map_cons, handle]
      simp only [List.drop_left' rfl]
      change (if (service.answer session request.command).2 = true then _ else _) = _
      split
      · rfl
      · rename_i goes
        exact ih _ (later (by simpa using goes))

theorem reached_request {session later : Session ω} {requests : List Request} {rest : Bytes}
    (admitted : service.Admitted session requests)
    (reached : service.reader.Reached session (requests.flatMap Request.bytes) later rest) :
    ∃ remaining, remaining <:+ requests ∧ rest = remaining.flatMap Request.bytes ∧
      service.Admitted later remaining := by
  induction reached with
  | start => exact ⟨requests, List.suffix_refl _, rfl, admitted⟩
  | @step before next rest value length _ parsed accepted ih =>
      obtain ⟨remaining, suffix, rfl, fits⟩ := ih
      cases remaining with
      | nil => simp [reader, Resp.parse] at parsed
      | cons request others =>
          obtain ⟨parsedRequest, _⟩ := Resp.parse_request (others.flatMap Request.bytes) fits.1
          have same : service.reader.parse before ((request :: others).flatMap Request.bytes) =
              .taken request.command request.bytes.length := parsedRequest
          obtain ⟨rfl, rfl⟩ := (Frame.taken.injEq _ _ _ _).mp (same.symm.trans parsed)
          have goes : service.answer before request.command = (next, false) := accepted
          refine ⟨others, (List.suffix_cons _ _).trans suffix, by simp, ?_⟩
          have admittedNext := fits.2 (by rw [goes])
          rwa [goes] at admittedNext

theorem requests_within {session : Session ω} {requests : List Request}
    (admitted : service.Admitted session requests) :
    service.LinesWithin session (requests.flatMap Request.bytes) := by
  intro later rest reached
  obtain ⟨remaining, _, rfl, fits⟩ := service.reached_request admitted reached
  cases remaining with
  | nil => rfl
  | cons request others => exact (Resp.parse_request (others.flatMap Request.bytes) fits.1).2

/-- The reads never hold more than the query buffer may: all that is sent fits,
or any one request fits together with any one read. -/
def BufferFits (requests : List Request) (reads : List Bytes) : Prop :=
  (requests.flatMap Request.bytes).length ≤ service.limits.maxQueryBufferBytes ∨
    ∀ request ∈ requests, ∀ read ∈ reads, request.bytes.length + read.length ≤
      service.limits.maxQueryBufferBytes

theorem roomy_requests {session : Session ω} {requests : List Request} {reads : List Bytes}
    (admitted : service.Admitted session requests) (fits : service.BufferFits requests reads) :
    service.reader.Roomy session (requests.flatMap Request.bytes) reads := by
  rcases fits with total | each
  · exact service.roomy_total reads total
  intro before pending piece late reached short member
  obtain ⟨remaining, suffix, split, fitsHere⟩ := service.reached_request admitted reached
  have bounded : (pending ++ piece).length ≤ service.limits.maxQueryBufferBytes := by
    cases remaining with
    | nil =>
        have empty : pending ++ piece = [] := (List.append_eq_nil_iff.mp split).1
        simp [empty]
    | cons request others =>
        have room := each request (suffix.subset List.mem_cons_self) piece member
        -- What is left over from the last read is a part of the next request.
        have unfinished : pending.length < request.bytes.length := by
          by_contra whole
          obtain ⟨parsed, _⟩ := Resp.parse_request (pending.drop request.bytes.length) fitsHere.1
          have front : pending = request.bytes ++ pending.drop request.bytes.length := by
            have taken : (pending ++ (piece ++ late)).take request.bytes.length = request.bytes := by
              rw [← List.append_assoc, split, List.flatMap_cons, List.take_left' rfl]
            rw [List.take_append_of_le_length (by omega)] at taken
            conv_lhs => rw [← List.take_append_drop request.bytes.length pending, taken]
          rw [← front] at parsed
          have stuck : Resp.parse (service.limitsFor before.connection) pending = .incomplete := short
          exact absurd (parsed.symm.trans stuck) (by simp)
        rw [List.length_append]
        omega
  have allowed : ¬(service.limitsFor before.connection).maxQueryBufferBytes <
      (pending ++ piece).length := by
    rw [service.limits_query_buffer]
    omega
  simp only [reader, allowed, if_false]

/-- The dispatcher was given these commands: all of them, or as far as the one
that closed the connection. -/
def Handed (session : Session ω) (commands : List (List Bytes)) : Reading Byte String (Session ω) → Prop
  | .waiting later rest => later.handed = session.handed ++ commands ∧ rest = []
  | .closed later => ∃ given, given <+: commands ∧ given ≠ [] ∧ later.handed = session.handed ++ given
  | .refused _ _ => False

theorem handle_handed (session : Session ω) (commands : List (List Bytes))
    (solid : ∀ args ∈ commands, args ≠ []) :
    Handed session commands (service.handle session commands) := by
  induction commands generalizing session with
  | nil => exact ⟨by simp, rfl⟩
  | cons args rest ih =>
      have logged : (service.answer session args).1.handed = session.handed ++ [args] := by
        simp [answer, solid args List.mem_cons_self]
      rw [handle]
      split
      · exact ⟨[args], List.prefix_append _ _, by simp, logged⟩
      · have later := ih (service.answer session args).1 fun other member =>
            solid other (List.mem_cons_of_mem _ member)
        cases ended : service.handle (service.answer session args).1 rest with
        | waiting last kept =>
            rw [ended] at later
            exact ⟨by rw [later.1, logged]; simp, later.2⟩
        | refused last error =>
            rw [ended] at later
            exact later.elim
        | closed last =>
            rw [ended] at later
            obtain ⟨given, early, _, shown⟩ := later
            refine ⟨args :: given, ?_, by simp, by rw [shown, logged]; simp⟩
            exact (List.prefix_cons_inj args).mpr early

/-- Whatever is sent and however it is cut, requests within the limits reach the
dispatcher as the non-empty commands they are, in order; and any stream none of
whose lines is over-long is served alike by every way of cutting it. -/
theorem serve_recovers_commands (session : Session ω) :
    (∀ (requests : List Request) (reads : List Bytes), reads.flatten = requests.flatMap Request.bytes →
      service.Admitted session requests → service.BufferFits requests reads →
      let commands := (requests.map Request.command).filter (· ≠ [])
      service.serveConnection session reads = service.handle session commands ∧
        Handed session commands (service.serveConnection session reads)) ∧
    ∀ reads reads' : List Bytes, reads.flatten = reads'.flatten →
      reads.flatten.length ≤ service.limits.maxQueryBufferBytes →
        service.LinesWithin session reads.flatten →
      service.serveConnection session reads = service.serveConnection session reads' := by
  have whole : ∀ reads : List Bytes, service.LinesWithin session reads.flatten →
      service.reader.Roomy session reads.flatten reads →
      service.serveConnection session reads = service.reader.drain session reads.flatten := by
    intro reads within roomy
    exact FrameReader.serve_eq_drain service.reader_lawful rfl (service.reader_steady within) roomy
  constructor
  · intro requests reads cut admitted fits
    have within := service.requests_within admitted
    have roomy := service.roomy_requests admitted fits
    rw [← cut] at within roomy
    have same : service.serveConnection session reads =
        service.handle session ((requests.map Request.command).filter (· ≠ [])) := by
      rw [whole reads within roomy, cut, service.drain_requests session requests admitted,
        service.handle_nonempty]
    refine ⟨same, ?_⟩
    rw [same]
    exact service.handle_handed session _ fun args member => by simpa using (List.mem_filter.mp member).2
  · intro reads reads' cut small within
    have roomy : service.reader.Roomy session reads.flatten reads := service.roomy_total reads small
    have roomy' : service.reader.Roomy session reads'.flatten reads' :=
      service.roomy_total reads' (cut ▸ small)
    rw [whole reads within roomy, whole reads' (cut ▸ within) roomy', cut]

end Service

/-! A service that answers every command with `OK`, and short limits. -/
namespace RequestSample

def service : Service Unit where
  limits := { maxLineBytes := 4, maxBulkBytes := 16, maxArguments := 1, maxQueryBufferBytes := 64 }
  requiresAuth := false
  execute _ connection _ := ({ reply := .ok .status }, connection, ())

def session : Session Unit := service.opened () 1

def text (codes : List Nat) : Bytes := codes.map byte

/-- `PING`. -/
def ping : Bytes := text [80, 73, 78, 71]

/-- `a` and `b`, one blank apart. -/
def letters : Bytes := text [97, 32, 98]

/-- A bare LF takes the next line with it; a line of the full length that ends in
CRLF, or an over-long line, is served or refused by where it was cut; and a line
within the length may hold more words than a command may have arguments. -/
theorem blank_and_long_lines :
    (service.serveConnection session [lf :: ping ++ [lf]]).state.handed = [] ∧
      (service.serveConnection session [ping ++ crlf]).state.handed = [[ping]] ∧
      (service.serveConnection session [ping ++ [cr], [lf]]).isRefused = true ∧
      (service.serveConnection session [ping ++ ping ++ [lf]]).state.handed = [[ping ++ ping]] ∧
      (service.serveConnection session [ping ++ ping, [lf]]).isRefused = true ∧
      (service.serveConnection session [letters ++ [lf]]).isRefused = true := by
  decide +kernel

/-- Two pipelined `PING`s with a blank line in between; a header of the first ends in
a bare LF. -/
def requests : List Request := [.multibulk .crlf [(.lf, ping)], .blank, .multibulk .crlf [(.crlf, ping)]]

def sent : Bytes := requests.flatMap Request.bytes

/-- Reads that end inside the first header, inside the CRLF of the first argument,
inside that of the blank line and inside the last header. -/
def cutRequests : List Bytes :=
  [sent.take 1, (sent.drop 1).take 11, (sent.drop 12).take 2, (sent.drop 14).take 5, sent.drop 19]

theorem header_fits (kind : Byte) {count : Nat} (few : count < 10) (ending : LineEnding) :
    Request.HeaderFits service.limits kind count ending := by
  refine ⟨few.le.trans (by decide), ?_⟩
  rw [Request.headerLine, decimal, if_pos few]
  cases ending <;> simp [LineEnding.text, service]

theorem ping_fits (ending : LineEnding) : (Request.multibulk .crlf [(ending, ping)]).Fits
    service.limits := by
  refine ⟨header_fits star (show 1 < 10 by decide) .crlf, le_rfl, fun argument member => ?_⟩
  obtain rfl := List.mem_singleton.mp member
  exact ⟨header_fits dollar (show ping.length < 10 by decide) ending, show ping.length ≤ 16 by decide⟩

theorem requests_admitted : service.Admitted session requests :=
  ⟨ping_fits .lf, fun _ => ⟨trivial, fun _ => ⟨ping_fits .crlf, fun _ => trivial⟩⟩⟩

theorem serve_recovers_pings :
    (cutRequests.flatten = sent ∧ cutRequests.map List.length = [1, 11, 2, 5, 10] ∧
      service.serveConnection session cutRequests = service.handle session [[ping], [ping]] ∧
        Service.Handed session [[ping], [ping]] (service.serveConnection session cutRequests)) ∧
      service.serveConnection session [ping ++ [lf]] = service.serveConnection session [ping, [lf]] := by
  have recovers := Service.serve_recovers_commands service session
  have cut : cutRequests.flatten = sent := by decide +kernel
  constructor
  · exact ⟨cut, by decide +kernel,
      recovers.1 requests cutRequests cut requests_admitted (.inl (by decide +kernel))⟩
  · refine recovers.2 _ _ (by simp) (by decide) ?_
    intro later rest reached
    have admitted : service.Admitted session [.inline ping .lf] :=
      ⟨⟨by decide, by decide, by decide, by decide, by decide⟩, fun _ => trivial⟩
    exact service.requests_within admitted later rest
      (by simpa [Request.bytes, LineEnding.bytes, LineEnding.text] using reached)

end RequestSample

end Hashring
