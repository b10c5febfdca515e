import Hashring.KeyCommands
import Hashring.StringCommands

/-! What a command that writes several keys reports when some of its calls do not
succeed. -/
namespace Hashring

open Program

/-- How one call of the client came out. -/
inductive CallOutcome where
  | found
  | missing
  | unread
  | applied
  | notApplied
  | unknown
  /-- The node accepted the write and sent no version. -/
  | unversioned
  deriving DecidableEq

/-- The write was made or may have been. -/
def CallOutcome.mayHaveApplied : CallOutcome → Bool
  | applied | unknown | unversioned => true
  | _ => false

def ClientError.writeOutcome : ClientError → CallOutcome
  | .missingVersion => .unversioned
  | .topologyRefresh _ .mayHaveApplied | .deadlineExceeded .mayHaveApplied | .rpc _ _
      .mayHaveApplied => .unknown
  | .operation failure => if failure.outcome = .mayHaveApplied then .unknown else .notApplied
  | _ => .notApplied

def writeOutcome {α : Type} : Except ClientError α → CallOutcome
  | .ok _ => .applied
  | .error error => error.writeOutcome

def conditionalOutcome {α : Type} : Except ClientError (Option α) → CallOutcome
  | .ok (some _) => .applied
  | .ok none => .notApplied
  | .error error => error.writeOutcome

def failedRead (error : ClientError) : CallOutcome :=
  if error.writeOutcome = .unknown then .unknown else .unread

def readOutcome : Except ClientError GetOutput → CallOutcome
  | .ok _ => .found
  | .error (.operation failure) => if failure.code = .notFound then .missing else failedRead
      (.operation failure)
  | .error error => failedRead error

/-- What a call leaves in the record of its operation. -/
def callOutcome : {γ : Type} → ClientCall γ → γ → List CallOutcome
  | _, .get _, answer => [readOutcome answer]
  | _, .putWithExpiry _ _ _, answer => [writeOutcome answer]
  | _, .putIf _ _ _ _, answer => [conditionalOutcome answer]
  | _, .setExpiryIf _ _ _, answer => [conditionalOutcome answer]
  | _, .deleteIf _ _, answer => [conditionalOutcome answer]
  | _, .now, _ | _, .connect, _ | _, .lock _, _ | _, .unlock _, _ => []

/-- Any call may get any answer; the record of its operation grows by it. -/
def Calls {γ : Type} (call : ClientCall γ) (log : List CallOutcome) (answer : γ)
    (after : List CallOutcome) : Prop :=
  after = log ++ callOutcome call answer

theorem of_client_report (error : ClientError) :
    (error.writeOutcome = .unknown ∧ ∃ detail, RedisError.ofClient error = .outcomeUnknown detail) ∨
      (error.writeOutcome ≠ .unknown ∧ (RedisError.ofClient error).mayHaveApplied = false) := by
  cases error with
  | topology source => exact .inr ⟨by simp [ClientError.writeOutcome], rfl⟩
  | missingVersion => exact .inr ⟨by simp [ClientError.writeOutcome], rfl⟩
  | topologyRefresh source outcome =>
      cases outcome with
      | knownNotApplied => exact .inr ⟨by simp [ClientError.writeOutcome], rfl⟩
      | mayHaveApplied => exact .inl ⟨rfl, _, rfl⟩
  | deadlineExceeded outcome =>
      cases outcome with
      | knownNotApplied => exact .inr ⟨by simp [ClientError.writeOutcome], rfl⟩
      | mayHaveApplied => exact .inl ⟨rfl, _, rfl⟩
  | rpc code message outcome =>
      cases outcome with
      | mayHaveApplied => exact .inl ⟨rfl, _, rfl⟩
      | knownNotApplied =>
          refine .inr ⟨by simp [ClientError.writeOutcome], ?_⟩
          simp only [RedisError.ofClient]
          split <;> rfl
  | operation failure =>
      by_cases ambiguous : failure.outcome = .mayHaveApplied
      · refine .inl ⟨by simp [ClientError.writeOutcome, ambiguous], trim failure.message, ?_⟩
        simp [RedisError.ofClient, RedisError.ofFailure, ambiguous]
      · refine .inr ⟨by simp [ClientError.writeOutcome, ambiguous], ?_⟩
        simp only [RedisError.ofClient, RedisError.ofFailure, ambiguous, if_false]
        cases failure.code <;> rfl

/-! One key of a command, by the calls that were made for it. -/

/-- The operation's result against its last call; what came before it wrote nothing. -/
structure Settles {α : Type} (result : Except RedisError α) (log : List CallOutcome) : Prop where
  earlier : ∀ outcome ∈ log.dropLast, outcome.mayHaveApplied = false
  landed : ∀ value, result = .ok value → log.getLast? = some .applied ∨ log.getLast? = some .missing
  failed : ∀ error, result = .error error → log.getLast? ≠ some .applied ∧ log.getLast? ≠ some .missing ∧
    (error.mayHaveApplied = true ↔ log.getLast? = some .unknown)

variable {α : Type}

/-- Nothing has been written so far. -/
def Unwritten (log : List CallOutcome) : Prop := ∀ outcome ∈ log, outcome.mayHaveApplied = false

theorem Unwritten.snoc {log : List CallOutcome} {outcome : CallOutcome} (unwritten : Unwritten log)
    (harmless : outcome.mayHaveApplied = false) : Unwritten (log ++ [outcome]) := by
  intro other member
  rcases List.mem_append.mp member with old | new
  · exact unwritten other old
  · exact List.mem_singleton.mp new ▸ harmless

/-- The operation ends with an error and wrote nothing it knows of. -/
theorem settles_unwritten {log : List CallOutcome} {error : RedisError} (unwritten : Unwritten log)
    (unmarked : error.mayHaveApplied = false) (open_ : log.getLast? ≠ some .missing) :
    Settles (.error error : Except RedisError α) log where
  earlier outcome member := unwritten outcome (List.mem_of_mem_dropLast member)
  landed value same := absurd same (by simp)
  failed found same := by
    obtain rfl := Except.error.inj same
    have clean : ∀ outcome, log.getLast? = some outcome → outcome.mayHaveApplied = false :=
      fun outcome last => unwritten outcome (List.mem_of_getLast? last)
    refine ⟨fun last => absurd (clean _ last) (by decide), open_, ?_⟩
    rw [unmarked]
    exact ⟨fun impossible => absurd impossible (by simp), fun last => absurd (clean _ last) (by decide)⟩

theorem write_outcome_failed (error : ClientError) :
    error.writeOutcome = .notApplied ∨ error.writeOutcome = .unknown ∨
      error.writeOutcome = .unversioned := by
  unfold ClientError.writeOutcome
  split
  · simp
  · simp
  · simp
  · simp
  · split <;> simp
  · simp

theorem failed_read (error : ClientError) : failedRead error = .unread ∨ failedRead error = .unknown := by
  unfold failedRead
  split <;> simp

theorem settles_failed {log : List CallOutcome} {error : ClientError} {outcome : CallOutcome}
    (unwritten : Unwritten log) (failure : outcome ≠ .applied ∧ outcome ≠ .missing)
    (same : outcome = .unknown ↔ error.writeOutcome = .unknown) :
    Settles (.error (.ofClient error) : Except RedisError α) (log ++ [outcome]) where
  earlier other member := unwritten other (by simpa using member)
  landed value found := absurd found (by simp)
  failed found ended := by
    obtain rfl := Except.error.inj ended
    rw [List.getLast?_concat]
    refine ⟨by simpa using failure.1, by simpa using failure.2, ?_⟩
    rw [Option.some.injEq, same]
    rcases of_client_report error with ⟨ambiguous, detail, reported⟩ | ⟨clear, unmarked⟩
    · simp [ambiguous, reported, RedisError.outcomeUnknown]
    · simp [clear, unmarked]

theorem settles_failed_write {log : List CallOutcome} {error : ClientError} (unwritten : Unwritten log) :
    Settles (.error (.ofClient error) : Except RedisError α) (log ++ [error.writeOutcome]) := by
  refine settles_failed unwritten ?_ Iff.rfl
  rcases write_outcome_failed error with same | same | same <;> simp [same]

theorem settles_failed_read {log : List CallOutcome} {error : ClientError} (unwritten : Unwritten log) :
    Settles (.error (.ofClient error) : Except RedisError α) (log ++ [failedRead error]) := by
  refine settles_failed unwritten ?_ ?_
  · rcases failed_read error with same | same <;> simp [same]
  · unfold failedRead
    split
    · rename_i ambiguous
      simp [ambiguous]
    · rename_i clear
      simp [clear]

theorem settles_landed {log : List CallOutcome} {outcome : CallOutcome} {value : α}
    (unwritten : Unwritten log)
    (last : outcome = .applied ∨ outcome = .missing) : Settles (.ok value : Except RedisError α)
      (log ++ [outcome]) where
  earlier other member := unwritten other (by simpa using member)
  landed found same := by
    rw [List.getLast?_concat]
    rcases last with rfl | rfl <;> simp
  failed error same := absurd same (by simp)

abbrev Records (pre : List CallOutcome → Prop) (task : StoreTask α)
    (post : Except RedisError α → List CallOutcome → Prop) :
    Prop :=
  Meets (fun call => Calls call) (fun _ => True) id pre task post

theorem records_after_silent {β : Type} {call : ClientCall β}
    (silent : ∀ answer, callOutcome call answer = []) {pre : List CallOutcome → Prop}
    {rest : β → StoreTask α} {post : Except RedisError α → List CallOutcome → Prop}
    (continues : ∀ answer, Records pre (rest answer) post) : Records pre (ask call >>= rest) post := by
  have asked : Records pre (ask call) fun result log => (∃ answer, result = .ok answer) ∧ pre log := by
    apply meets_perform
    rintro log - known answer after rfl
    refine ⟨trivial, ⟨answer, rfl⟩, ?_⟩
    simpa [silent answer] using known
  refine meets_bind asked (fun _ _ ended => absurd ended.1.choose_spec (by simp)) fun answer => ?_
  exact meets_consequence (fun _ known => known.2) (fun _ _ => id) (continues answer)

theorem records_after_client {pre : List CallOutcome → Prop} {rest : Unit → StoreTask α}
    {post : Except RedisError α → List CallOutcome → Prop}
    (refused : ∀ error log, pre log → error.mayHaveApplied = false → post (.error error) log)
    (connected : Records pre (rest ()) post) : Records pre (sharedClient >>= rest) post := by
  have client : Records pre sharedClient fun result log =>
      pre log ∧ ∀ error, result = .error error → error.mayHaveApplied = false := by
    refine records_after_silent (fun _ => rfl) ?_
    rintro (error | _)
    · refine meets_throw fun log known => ⟨known, fun found same => ?_⟩
      exact Except.error.inj same ▸ rfl
    · exact meets_pure fun log known => ⟨known, fun _ same => absurd same (by simp)⟩
  refine meets_bind client (fun error log known => refused error log known.1 (known.2 error rfl))
    fun _ => ?_
  exact meets_consequence (fun log known => known.1) (fun _ _ => id) connected

theorem records_ask_or_fail (call : ClientCall (Except ClientError α))
    {outcome : Except ClientError α → CallOutcome}
    (recorded : ∀ answer, callOutcome call answer = [outcome answer])
    (pre : List CallOutcome → Prop) :
    Records pre (askOrFail call) fun result log =>
      ∃ before answer, pre before ∧ log = before ++ [outcome answer] ∧
          result = answer.mapError RedisError.ofClient := by
  have asked : Records pre (ask call) fun result log =>
      ∃ before answer, pre before ∧ log = before ++ [outcome answer] ∧ result = .ok answer := by
    apply meets_perform
    rintro log - known answer after rfl
    exact ⟨trivial, log, answer, known, by rw [recorded]; rfl, rfl⟩
  refine meets_bind asked (fun _ _ ended => absurd ended.choose_spec.choose_spec.2.2 (by simp)) ?_
  rintro (error | value)
  · refine meets_throw ?_
    rintro log ⟨before, answer, known, same, answered⟩
    exact ⟨before, answer, known, same, by rw [← Except.ok.inj answered]; rfl⟩
  · refine meets_pure ?_
    rintro log ⟨before, answer, known, same, answered⟩
    exact ⟨before, answer, known, same, by rw [← Except.ok.inj answered]; rfl⟩

theorem unwritten_nil : Unwritten [] := by simp [Unwritten]

def ReadLeaves (before : List CallOutcome) : Except RedisError (Option Current) → List CallOutcome → Prop
  | .ok (some _), log => log = before ++ [.found]
  | .ok none, log => log = before ++ [.missing]
  | .error error, log => (log = before ∧ error.mayHaveApplied = false) ∨
      ∃ failure, log = before ++ [failedRead failure] ∧ error = .ofClient failure

def WriteLeaves (before : List CallOutcome) : Except RedisError Unit → List CallOutcome → Prop
  | .ok _, log => log = before ++ [.applied]
  | .error error, log => (log = before ∧ error.mayHaveApplied = false) ∨
      ∃ failure, log = before ++ [failure.writeOutcome] ∧ error = .ofClient failure

theorem records_read_with (key : Bytes) (pre : List CallOutcome → Prop) :
    Records pre (readWith key) fun
      | .ok (some _), log => ∃ before, pre before ∧ log = before ++ [.found]
      | .ok none, log => ∃ before, pre before ∧ log = before ++ [.missing]
      | .error error, log => ∃ before failure, pre before ∧ log = before ++ [failedRead failure] ∧
          error = .ofClient failure := by
  have asked : Records pre (ask (.get key)) fun result log =>
      ∃ before answer, pre before ∧ log = before ++ [readOutcome answer] ∧ result = .ok answer := by
    apply meets_perform
    rintro log - known answer after rfl
    exact ⟨trivial, log, answer, known, rfl, rfl⟩
  refine meets_bind asked (fun _ _ ended => absurd ended.choose_spec.choose_spec.2.2 (by simp))
    fun answer => ?_
  split
  · refine meets_pure ?_
    rintro log ⟨before, answer, known, same, answered⟩
    obtain rfl := Except.ok.inj answered
    exact ⟨before, known, same⟩
  · rename_i failure
    split
    · rename_i absent
      refine meets_pure ?_
      rintro log ⟨before, answer, known, same, answered⟩
      obtain rfl := Except.ok.inj answered
      exact ⟨before, known, by simpa [readOutcome, absent] using same⟩
    · rename_i present
      refine meets_throw ?_
      rintro log ⟨before, answer, known, same, answered⟩
      obtain rfl := Except.ok.inj answered
      exact ⟨before, _, known, by simpa [readOutcome, present] using same, rfl⟩
  · rename_i error other
    refine meets_throw ?_
    rintro log ⟨before, answer, known, same, answered⟩
    obtain rfl := Except.ok.inj answered
    refine ⟨before, error, known, ?_, rfl⟩
    cases error with
    | operation failure => exact absurd rfl (other failure)
    | topology => exact same
    | topologyRefresh => exact same
    | deadlineExceeded => exact same
    | missingVersion => exact same
    | rpc => exact same

theorem records_under_key_lock {key : Bytes} {pre : List CallOutcome → Prop} {body : StoreTask α}
    {post : Except RedisError α → List CallOutcome → Prop} (records : Records pre body post) :
    Records pre (underKeyLock key body) post := by
  refine records_after_silent (fun _ => rfl) fun _ => ?_
  have tried : Records pre (attempt body) fun result log => ∃ ended, result = .ok ended ∧
      post ended log :=
    meets_attempt (meets_consequence (fun _ => id) (fun ended _ reached => ⟨ended, rfl, reached⟩) records)
  refine meets_bind tried (fun _ _ ended => absurd ended.choose_spec.1 (by simp)) fun ended => ?_
  refine records_after_silent (fun _ => rfl) fun _ => ?_
  split
  · refine meets_pure ?_
    rintro log ⟨result, same, reached⟩
    exact Except.ok.inj same ▸ reached
  · refine meets_throw ?_
    rintro log ⟨result, same, reached⟩
    exact Except.ok.inj same ▸ reached

theorem map_error_ok {ε ε' α : Type} {answer : Except ε α} {change : ε → ε'} {value : α}
    (ended : .ok value = answer.mapError change) : answer = .ok value := by
  cases answer with
  | ok held => exact congrArg Except.ok (Except.ok.inj ended).symm
  | error failure => exact absurd ended (by simp [Except.mapError])

theorem map_error_error {ε ε' α : Type} {answer : Except ε α} {change : ε → ε'} {error : ε'}
    (ended : .error error = answer.mapError change) :
    ∃ failure, answer = .error failure ∧ error = change failure := by
  cases answer with
  | ok value => exact absurd ended (by simp [Except.mapError])
  | error failure => exact ⟨failure, rfl, Except.error.inj ended⟩

theorem records_write (key value : Bytes) (expiry : Expiry) (before : List CallOutcome) :
    Records (· = before) (KeyEffect.put key value expiry).cluster (WriteLeaves before) := by
  refine records_after_client (fun error log same unmarked => .inl ⟨same, unmarked⟩) ?_
  refine meets_bind (records_ask_or_fail (.putWithExpiry key value expiry) (fun _ => rfl) _) ?_
    fun output => ?_
  · rintro error log ⟨_, answer, rfl, same, ended⟩
    obtain ⟨failure, rfl, rfl⟩ := map_error_error ended
    exact .inr ⟨failure, same, rfl⟩
  · refine meets_pure ?_
    rintro log ⟨_, answer, rfl, same, ended⟩
    obtain rfl := map_error_ok ended
    exact same

theorem records_put (key value : Bytes) (expiry : Expiry) :
    Records (· = []) (KeyEffect.put key value expiry).cluster Settles := by
  refine meets_consequence (fun _ => id) ?_ (records_write key value expiry [])
  rintro (error | _) log ended
  · rcases ended with ⟨rfl, unmarked⟩ | ⟨failure, rfl, rfl⟩
    · exact settles_unwritten unwritten_nil unmarked (by simp)
    · exact settles_failed_write unwritten_nil
  · obtain rfl := ended
    exact settles_landed unwritten_nil (.inl rfl)

theorem records_delete_round (key : Bytes) : Records Unwritten (updateRound key deleteOne ()) fun
    | .ok (.inl _) => Unwritten
    | .ok (.inr removed) => Settles (.ok removed)
    | .error error => Settles (.error error : Except RedisError Nat) := by
  refine meets_bind (records_read_with key Unwritten) ?_ fun current => ?_
  · rintro error log ⟨before, failure, unwritten, rfl, rfl⟩
    exact settles_failed_read unwritten
  refine records_after_silent (fun _ => rfl) fun now => ?_
  cases current with
  | none =>
      refine meets_pure ?_
      rintro log ⟨before, unwritten, rfl⟩
      exact settles_landed unwritten (.inr rfl)
  | some current =>
      refine meets_bind (records_ask_or_fail (.deleteIf key (expectedFor (some current)))
        (fun _ => rfl) _) ?_ fun applied => ?_
      · rintro error log ⟨read, answer, ⟨before, unwritten, rfl⟩, rfl, ended⟩
        obtain ⟨failure, rfl, rfl⟩ := map_error_error ended
        exact settles_failed_write (unwritten.snoc rfl)
      · refine meets_pure ?_
        rintro log ⟨read, answer, ⟨before, unwritten, rfl⟩, rfl, ended⟩
        obtain rfl := map_error_ok ended
        cases applied with
        | some output => exact settles_landed (unwritten.snoc rfl) (.inl rfl)
        | none => exact (unwritten.snoc rfl).snoc rfl

theorem records_delete (key : Bytes) : Records (· = [])
    (KeyEffect.update key deleteOne).cluster Settles := by
  apply records_under_key_lock
  refine records_after_client ?_ ?_
  · rintro error log rfl unmarked
    exact settles_unwritten unwritten_nil unmarked (by simp)
  · have starts : ∀ log, log = [] → (fun (_ : Unit) => Unwritten) () log := by
      rintro _ rfl
      exact unwritten_nil
    refine meets_loop starts fun _ => meets_consequence (fun _ => id) ?_ (records_delete_round key)
    rintro (error | again | removed) log ended
    · exact ended
    · exact ended
    · exact ended

/-! The whole command: the calls of each of its operations. -/

/-- The calls made under each label. -/
abbrev CallRecord := Nat → List CallOutcome

def LabelledCalls {γ : Type} : Labelled ClientCall γ → CallRecord → γ → CallRecord → Prop
  | .mk label call, calls, answer, after =>
      after = fun other => if other = label then calls other ++ callOutcome call answer else calls other

/-- Nobody else writes to the command's own record. -/
def Alone (calls later : CallRecord) : Prop := later = calls

theorem labelled_records {label : Nat} {task : StoreTask α}
    {post : Except RedisError α → List CallOutcome → Prop} {calls : CallRecord}
    (records : Records (· = calls label) task post) :
    (task.run.labelled label).Safe LabelledCalls (fun _ => True)
    (fun calls later => later label = calls label)
      (fun calls later => ∀ other, other ≠ label → later other = calls other)
      (fun result later => post result (later label))
      calls := by
  have safe := records (calls label) trivial rfl
  refine labelled_safe (fun calls : CallRecord => calls label) (fun _ _ => trivial) ?_ ?_ safe
  · intro state later same
    exact ⟨same, fun _ => trivial⟩
  · rintro γ effect state answer after - rfl
    exact ⟨by simp [Calls], trivial, fun other distinct => by simp [distinct]⟩

/-- What a handler learns from a request, against the calls made for it. -/
def Outcomes : {γ : Type} → StoreEffect γ → CallRecord → γ → CallRecord → Prop
  | _, .now, calls, _, after => after 0 = calls 0
  | _, .one (.read _), calls, answer, after => ReadLeaves (calls 0) answer (after 0)
  | _, .one (.put _ _ _), calls, answer, after => WriteLeaves (calls 0) answer (after 0)
  | _, .one _, _, _, _ => True
  | _, .all effects, calls, answers, after => (∀ label, calls label = []) →
      (∀ effect ∈ effects, Records (· = []) effect.cluster Settles) →
        answers.length = effects.length ∧ ∀ index answer, answers[index]? = some answer →
          Settles answer (after index)
  | _, .client, calls, answer, after => after 0 = calls 0 ∧ ∀ error, answer = .error error →
      error.mayHaveApplied = false
  | _, .putIf _ _ _ _, calls, answer, after => after 0 = calls 0 ++ [conditionalOutcome answer]
  | _, .deleteIf _ _, calls, answer, after => after 0 = calls 0 ++ [conditionalOutcome answer]

/-- One operation on its own. -/
theorem single_outcome {task : StoreTask α} {calls : CallRecord}
    {post : Except RedisError α → List CallOutcome → Prop}
    (records : Records (· = calls 0) task post) :
    (task.run.labelled 0).Safe LabelledCalls (fun _ => True) Alone (fun _ _ => True)
      (fun result later => post result (later 0)) calls := by
  refine safe_among ?_ (fun _ _ _ => trivial) (labelled_records records)
  rintro state later rfl
  rfl

theorem call_outcome (call : ClientCall α) (calls : CallRecord) :
    ((Program.call call).labelled 0).Safe LabelledCalls (fun _ => True) Alone (fun _ _ => True)
      (fun answer after => after 0 = calls 0 ++ callOutcome call answer) calls := by
  rintro later rfl - answer after rfl
  refine ⟨trivial, trivial, ?_⟩
  rintro last rfl -
  simp

/-- Any request can be made; what is not looked at says nothing. -/
theorem anything_safe (program : Program (Labelled ClientCall) α) (calls : CallRecord) :
    program.Safe LabelledCalls (fun _ => True) Alone (fun _ _ => True) (fun _ _ => True) calls := by
  induction program generalizing calls with
  | done value => exact fun _ _ _ => trivial
  | perform effect next ih => exact fun _ _ _ answer after _ => ⟨trivial, trivial, ih answer after⟩
  | choose next ih => exact fun pick => ih pick calls
  | halt => trivial

theorem records_read (key : Bytes) (before : List CallOutcome) :
    Records (· = before) (KeyEffect.read key).cluster (ReadLeaves before) := by
  refine records_after_client (fun error log same unmarked => .inl ⟨same, unmarked⟩) ?_
  refine meets_consequence (fun _ => id) ?_ (records_read_with key (· = before))
  rintro (error | _ | current) log ended
  · obtain ⟨_, failure, rfl, same, reported⟩ := ended
    exact .inr ⟨failure, same, reported⟩
  · obtain ⟨_, rfl, same⟩ := ended
    exact same
  · obtain ⟨_, rfl, same⟩ := ended
    exact same

theorem tasks_safe {effects : List (KeyEffect (Except RedisError α))} {calls : CallRecord}
    (empty : ∀ label, calls label = [])
    (each : ∀ effect ∈ effects, Records (· = []) effect.cluster Settles) (index : Nat)
    (task : Program (Labelled ClientCall) (Except RedisError α))
    (listed : ((effects.map fun effect => effect.cluster).mapIdx labelled)[index]? = some task) :
    task.Safe LabelledCalls (fun _ => True) (fun calls later => later index = calls index)
      (fun calls later => ∀ other, other ≠ index → later other = calls other)
      (fun result later => Settles result (later index))
      calls := by
  simp only [List.getElem?_mapIdx, List.getElem?_map, Option.map_map, Option.map_eq_some_iff] at listed
  obtain ⟨effect, found, rfl⟩ := listed
  have records := each effect (List.mem_of_getElem? found)
  rw [← empty index] at records
  exact labelled_records records

theorem all_outcome {effects : List (KeyEffect (Except RedisError α))} {calls : CallRecord}
    (empty : ∀ label, calls label = [])
    (each : ∀ effect ∈ effects, Records (· = []) effect.cluster Settles) :
    (StoreEffect.all effects).cluster.Safe LabelledCalls (fun _ => True) Alone (fun _ _ => True)
      (fun answers after => answers.length = effects.length ∧
        ∀ index answer, answers[index]? = some answer → Settles answer (after index)) calls := by
  intro fuel
  let same := fun (label : Nat) (calls later : CallRecord) => later label = calls label
  let apart := fun (label : Nat) (calls later : CallRecord) => ∀ other, other ≠ label →
      later other = calls other
  have chained : ∀ label {first second third : CallRecord}, same label first second →
      same label second third →
      same label first third := fun _ _ _ _ early late => Eq.trans late early
  have siblings : ∀ label other (state later : CallRecord), label ≠ other → True →
      apart label state later →
      same other state later := fun _ other _ _ distinct _ kept => kept other distinct.symm
  have alone : ∀ label (state later : CallRecord), Alone state later → same label state later :=
    fun label _ _ unmoved => congrFun unmoved label
  have pooled := gather_safe same apart
    (fun label answer (later : CallRecord) => Settles answer (later label)) chained siblings
    alone (fun _ _ _ _ => (trivial : (fun (_ _ : CallRecord) => True) _ _)) fuel (tasks_safe empty each)
  simpa using pooled

theorem store_outcome : {γ : Type} → (effect : StoreEffect γ) → (calls : CallRecord) →
    effect.cluster.Safe LabelledCalls (fun _ => True) Alone (fun _ _ => True)
      (Outcomes effect calls) calls
  | _, .now, calls => safe_consequence (fun _ _ _ same => same.trans (List.append_nil _))
    (call_outcome .now calls)
  | _, .one (.read key), calls => single_outcome (records_read key (calls 0))
  | _, .one (.put key value expiry), calls => single_outcome (records_write key value expiry (calls 0))
  | _, .one (.putIfAbsent key value), calls => anything_safe _ calls
  | _, .one (.update key decide), calls => anything_safe _ calls
  | _, .all effects, calls => by
      by_cases empty : ∀ label, calls label = []
      · by_cases each : ∀ effect ∈ effects, Records (· = []) effect.cluster Settles
        · exact safe_consequence (fun _ _ _ reached _ _ => reached) (all_outcome empty each)
        · exact safe_consequence (fun _ _ _ _ _ settling => absurd settling each) (anything_safe _ calls)
      · exact safe_consequence (fun _ _ _ _ blank => absurd blank empty) (anything_safe _ calls)
  | _, .client, calls => by
      have connected : Records (· = calls 0) sharedClient fun result log =>
          log = calls 0 ∧ ∀ error, result = .error error → error.mayHaveApplied = false := by
        refine records_after_silent (fun _ => rfl) ?_
        rintro (error | _)
        · exact meets_throw fun log same => ⟨same, fun _ found => Except.error.inj found ▸ rfl⟩
        · exact meets_pure fun log same => ⟨same, fun _ found => absurd found (by simp)⟩
      exact single_outcome connected
  | _, .putIf key value expiry expected, calls => call_outcome (.putIf key value expiry expected) calls
  | _, .deleteIf key expected, calls => call_outcome (.deleteIf key expected) calls

/-! What the client is told. -/

/-- A command that fails after one of these calls wrote or may have written says
so, and never asks for a plain retry. -/
def Told (result : Except RedisError Reply) (calls : List CallOutcome) : Prop :=
  ∀ error, result = .error error → (∃ outcome ∈ calls, outcome.mayHaveApplied = true) →
    error.mayHaveApplied = true ∧ error.code ≠ "TRYAGAIN"

/-- The calls made for the first `count` keys. -/
def callsOf (count : Nat) (calls : CallRecord) : List CallOutcome := (List.range count).flatMap calls

/-- An acceptance without a version, and no key whose success or ambiguity makes
the command say that it may have written. -/
def LosesVersion (count : Nat) (calls : CallRecord) : Prop :=
  (∃ index < count, (calls index).getLast? = some .unversioned) ∧
    ∀ index < count, (calls index).getLast? ≠ some .applied ∧ (calls index).getLast? ≠ some .missing ∧
      (calls index).getLast? ≠ some .unknown

theorem Settles.touched {result : Except RedisError α} {log : List CallOutcome}
    (settles : Settles result log) :
    (∃ outcome ∈ log, outcome.mayHaveApplied = true) ↔
      log.getLast? = some .applied ∨ log.getLast? = some .unknown ∨ log.getLast? = some .unversioned := by
  constructor
  · rintro ⟨outcome, member, may⟩
    have nonempty : log ≠ [] := List.ne_nil_of_mem member
    rw [← List.dropLast_concat_getLast nonempty] at member
    rcases List.mem_append.mp member with early | last
    · rw [settles.earlier outcome early] at may
      exact absurd may (by simp)
    · obtain rfl := List.mem_singleton.mp last
      rw [List.getLast?_eq_some_getLast nonempty]
      revert may
      cases log.getLast nonempty <;> simp [CallOutcome.mayHaveApplied]
  · rintro (last | last | last)
    · exact ⟨_, List.mem_of_getLast? last, rfl⟩
    · exact ⟨_, List.mem_of_getLast? last, rfl⟩
    · exact ⟨_, List.mem_of_getLast? last, rfl⟩

theorem calls_of_touched {count : Nat} {calls : CallRecord} :
    (∃ outcome ∈ callsOf count calls, outcome.mayHaveApplied = true) ↔
      ∃ index < count, ∃ outcome ∈ calls index, outcome.mayHaveApplied = true := by
  simp only [callsOf, List.mem_flatMap, List.mem_range]
  constructor
  · rintro ⟨outcome, ⟨index, inside, member⟩, may⟩
    exact ⟨index, inside, outcome, member, may⟩
  · rintro ⟨index, inside, outcome, member, may⟩
    exact ⟨outcome, ⟨index, inside, member⟩, may⟩

/-- A key whose operation succeeded, or says that it may have written. -/
theorem not_loses_version {results : List (Except RedisError α)} {calls : CallRecord}
    (settled : ∀ index result, results[index]? = some result → Settles result (calls index))
    {result : Except RedisError α} (member : result ∈ results)
    (heard : (∃ value, result = .ok value) ∨ ∃ error, result = .error error ∧
      error.mayHaveApplied = true) :
    ¬LosesVersion results.length calls := by
  rintro ⟨-, silent⟩
  obtain ⟨index, inside, rfl⟩ := List.mem_iff_getElem.mp member
  have settles := settled index _ (List.getElem?_eq_getElem inside)
  obtain ⟨unapplied, present, certain⟩ := silent index inside
  rcases heard with ⟨value, same⟩ | ⟨error, same, marked⟩
  · rcases settles.landed value same with last | last
    · exact unapplied last
    · exact present last
  · exact certain ((settles.failed error same).2.2.mp marked)

/-- No key succeeded and none says that it may have written. -/
theorem touched_iff_loses_version {results : List (Except RedisError α)} {calls : CallRecord}
    (settled : ∀ index result, results[index]? = some result → Settles result (calls index))
    (unheard : ∀ result ∈ results, ∃ error, result = .error error ∧ error.mayHaveApplied = false) :
    (∃ outcome ∈ callsOf results.length calls, outcome.mayHaveApplied = true) ↔
      LosesVersion results.length calls := by
  have quiet : ∀ index, index < results.length → (calls index).getLast? ≠ some .applied ∧
      (calls index).getLast? ≠ some .missing ∧ (calls index).getLast? ≠ some .unknown := by
    intro index inside
    have settles := settled index _ (List.getElem?_eq_getElem inside)
    obtain ⟨error, same, unmarked⟩ := unheard _ (List.getElem_mem inside)
    obtain ⟨unapplied, present, marked⟩ := settles.failed error same
    refine ⟨unapplied, present, fun last => ?_⟩
    rw [marked.mpr last] at unmarked
    exact absurd unmarked (by simp)
  rw [calls_of_touched]
  constructor
  · rintro ⟨index, inside, touched⟩
    refine ⟨⟨index, inside, ?_⟩, quiet⟩
    have settles := settled index _ (List.getElem?_eq_getElem inside)
    rcases settles.touched.mp touched with last | last | last
    · exact absurd last (quiet index inside).1
    · exact absurd last (quiet index inside).2.2
    · exact last
  · rintro ⟨⟨index, inside, last⟩, -⟩
    exact ⟨index, inside, _, List.mem_of_getLast? last, rfl⟩

theorem told_fan_out {results : List (Except RedisError α)} {calls : CallRecord} {reply : List α → Reply}
    (settled : ∀ index result, results[index]? = some result → Settles result (calls index)) :
    Told ((partialWriteOutcome results).map reply) (callsOf results.length calls) ↔
      ¬LosesVersion results.length calls := by
  have listed : ∀ error, error ∈ results.filterMap failureOf ↔ Except.error error ∈ results := by
    intro error
    rw [List.mem_filterMap]
    constructor
    · rintro ⟨_ | _, member, same⟩
      · exact Option.some.inj same ▸ member
      · exact absurd same (by simp [failureOf])
    · exact fun member => ⟨_, member, rfl⟩
  unfold partialWriteOutcome
  simp only
  split
  · rename_i none_
    refine iff_of_true (fun _ same => absurd same (by simp [Except.map])) ?_
    rintro ⟨⟨index, inside, last⟩, silent⟩
    cases result : results[index] with
    | ok value =>
        exact not_loses_version settled (List.getElem_mem inside) (.inl ⟨value, result⟩)
          ⟨⟨index, inside, last⟩, silent⟩
    | error error =>
        have member := (listed error).mpr (result ▸ List.getElem_mem inside)
        rw [none_] at member
        exact absurd member (by simp)
  · rename_i first rest failures
    split
    · rename_i flagged
      refine iff_of_true ?_ ?_
      · intro error same _
        obtain rfl := Except.error.inj same
        exact ⟨rfl, by simp [RedisError.outcomeUnknown]⟩
      · rcases Bool.or_eq_true_iff.mp flagged with wrote | ambiguous
        · obtain ⟨result, member, ok⟩ := List.any_eq_true.mp wrote
          cases result with
          | ok value => exact not_loses_version settled member (.inl ⟨value, rfl⟩)
          | error error => exact absurd ok (by simp [Except.isOk, Except.toBool])
        · obtain ⟨error, member, marked⟩ := List.any_eq_true.mp ambiguous
          exact not_loses_version settled ((listed error).mp member) (.inr ⟨error, rfl, marked⟩)
    · rename_i unflagged
      -- Every operation failed for certain, and the first failure is passed on as it is.
      have unheard : ∀ result ∈ results, ∃ error, result = .error error ∧
          error.mayHaveApplied = false := by
        intro result member
        cases result with
        | ok value =>
            exact absurd (Bool.or_eq_true_iff.mpr (.inl (List.any_eq_true.mpr ⟨_, member, rfl⟩)))
              unflagged
        | error error =>
            refine ⟨error, rfl, ?_⟩
            by_contra marked
            have found := (listed error).mpr member
            exact unflagged (Bool.or_eq_true_iff.mpr
              (.inr (List.any_eq_true.mpr ⟨error, found, by simpa using marked⟩)))
      have firstMember : Except.error first ∈ results := (listed first).mp (failures ▸ List.mem_cons_self)
      obtain ⟨error, same, unmarked⟩ := unheard _ firstMember
      obtain rfl := Except.error.inj same
      rw [← touched_iff_loses_version settled unheard]
      constructor
      · intro told touched
        exact absurd (told _ rfl touched).1 (by simp [unmarked])
      · intro untouched _ _ touched
        exact absurd touched untouched

/-! The handlers. -/

abbrev Commands {β : Type} (pre : CallRecord → Prop) (handler : Handler β)
    (post : Except RedisError β → CallRecord → Prop) :
    Prop :=
  Meets (fun effect => Outcomes effect) (fun _ => True) id pre handler post

theorem commands_checked {β : Type} {pre : CallRecord → Prop} {result : Except RedisError β} :
    Commands pre (Handler.checked result) fun ended calls => pre calls ∧ ended = result := by
  intro calls _ known later apart _
  exact ⟨apart.1 ▸ known, rfl⟩

theorem commands_request {β : Type} {pre : CallRecord → Prop}
    (effect : StoreEffect (Except RedisError β)) :
    Commands pre (ExceptT.mk (Program.call effect)) fun answer after => ∃ calls, pre calls ∧
      Outcomes effect calls answer after := by
  intro calls _ known later apart _ answer after handled
  have same : later = calls := apart.1
  refine ⟨trivial, trivial, fun last apart' _ => ⟨calls, known, ?_⟩⟩
  have unmoved : last = after := apart'.1
  rw [id, unmoved, ← same]
  exact handled

theorem commands_lifted {β : Type} {pre : CallRecord → Prop} (effect : StoreEffect β) :
    Commands pre (ExceptT.lift (Program.call effect)) fun ended after =>
      ∃ calls answer, ended = .ok answer ∧ pre calls ∧ Outcomes effect calls answer after := by
  apply meets_perform
  intro calls _ known answer after handled
  exact ⟨trivial, calls, answer, rfl, known, handled⟩

def Blank (calls : CallRecord) : Prop := ∀ label, calls label = []

theorem commands_each_write {effects : List (KeyEffect (Except RedisError α))} (reply : List α → Reply)
    (each : ∀ effect ∈ effects, Records (· = []) effect.cluster Settles) :
    Commands Blank (do return reply (← Handler.eachWrite effects)) fun result calls =>
      Told result (callsOf effects.length calls) ↔ ¬LosesVersion effects.length calls := by
  have written : Commands Blank (Handler.eachWrite effects) fun result calls =>
      Told (result.map reply) (callsOf effects.length calls) ↔ ¬LosesVersion effects.length calls := by
    refine meets_bind (commands_lifted (.all effects)) ?_ fun results => ?_
    · rintro error calls ⟨_, _, same, -⟩
      exact absurd same (by simp)
    · refine meets_consequence (fun _ => id) ?_ commands_checked
      rintro result calls ⟨⟨before, answers, same, blank, outcomes⟩, rfl⟩
      obtain rfl := Except.ok.inj same
      obtain ⟨count, settled⟩ := outcomes blank each
      rw [← count]
      exact told_fan_out settled
  refine meets_bind written (fun _ _ told => told) fun values => ?_
  exact meets_pure fun _ told => told

/-- The destination was written and the source's delete was not made, or a write
was accepted without a version. -/
def HidesCopy (log : List CallOutcome) : Prop :=
  log.getLast? = some .unversioned ∨ (log.getLast? = some .notApplied ∧ .applied ∈ log)

/-- A rename that ends this way after these calls tells its client enough. -/
def RenameTold (result : Except RedisError Reply) (log : List CallOutcome) : Prop :=
  Told result log ↔ ¬HidesCopy log

theorem rename_told_ok {reply : Reply} {log : List CallOutcome} (open_ : ¬HidesCopy log) :
    RenameTold (.ok reply) log :=
  iff_of_true (fun _ same => absurd same (by simp)) open_

theorem rename_told_unwritten {error : RedisError} {log : List CallOutcome} (unwritten : Unwritten log) :
    RenameTold (.error error) log := by
  refine iff_of_true ?_ ?_
  · rintro _ _ ⟨outcome, member, may⟩
    exact absurd (unwritten outcome member) (by simp [may])
  · rintro (last | ⟨-, applied⟩)
    · exact absurd (unwritten _ (List.mem_of_getLast? last)) (by decide)
    · exact absurd (unwritten _ applied) (by decide)

theorem rename_told_unknown {failure : ClientError} {log : List CallOutcome}
    (ambiguous : failure.writeOutcome = .unknown)
    (last : log.getLast? = some .unknown) : RenameTold (.error (.ofClient failure)) log := by
  rcases of_client_report failure with ⟨-, detail, reported⟩ | ⟨clear, -⟩
  · refine iff_of_true ?_ (by simp [HidesCopy, last])
    intro error same _
    rw [← Except.error.inj same, reported]
    exact ⟨rfl, by simp [RedisError.outcomeUnknown]⟩
  · exact absurd ambiguous clear

theorem rename_told_read {failure : ClientError} : RenameTold (.error (.ofClient failure))
    [failedRead failure] := by
  by_cases ambiguous : failure.writeOutcome = .unknown
  · exact rename_told_unknown ambiguous (by simp [failedRead, ambiguous])
  · exact rename_told_unwritten (by simp [Unwritten, failedRead, ambiguous, CallOutcome.mayHaveApplied])

theorem rename_told_write {failure : ClientError} {log : List CallOutcome}
    (before : Unwritten log ∨ .applied ∈ log) :
    RenameTold (.error (.ofClient failure)) (log ++ [failure.writeOutcome]) := by
  rcases of_client_report failure with ⟨ambiguous, -⟩ | ⟨clear, unmarked⟩
  · exact rename_told_unknown ambiguous (by simp [ambiguous])
  -- The failure is reported as not applied, so the report is wrong as soon as
  -- anything may have been written.
  · have silent : Told (.error (.ofClient failure)) (log ++ [failure.writeOutcome]) ↔
        Unwritten (log ++ [failure.writeOutcome]) := by
      constructor
      · intro told outcome member
        by_contra may
        exact absurd (told _ rfl ⟨outcome, member, by simpa using may⟩).1 (by simp [unmarked])
      · rintro unwritten _ _ ⟨outcome, member, may⟩
        exact absurd (unwritten outcome member) (by simp [may])
    rw [RenameTold, silent]
    simp only [HidesCopy, List.getLast?_concat, Option.some.injEq, List.mem_append, List.mem_singleton]
    rcases write_outcome_failed failure with outcome | outcome | outcome
    · rw [outcome]
      rcases before with unwritten | applied
      · refine iff_of_true (unwritten.snoc rfl) ?_
        rintro (impossible | ⟨-, member | impossible⟩)
        · exact absurd impossible (by simp)
        · exact absurd (unwritten _ member) (by decide)
        · exact absurd impossible (by simp)
      · refine iff_of_false ?_ (by simp [applied])
        intro unwritten
        exact absurd (unwritten _ (List.mem_append_left _ applied)) (by decide)
    · exact absurd outcome clear
    · rw [outcome]
      refine iff_of_false ?_ (by simp)
      intro unwritten
      exact absurd (unwritten .unversioned (by simp)) (by decide)

theorem commands_direct {β : Type} {pre : CallRecord → Prop}
    (call : StoreEffect (Except ClientError (Option β)))
    (outcome : ∀ calls answer after, Outcomes call calls answer after → after 0 = calls 0 ++
      [conditionalOutcome answer]) :
    Commands pre (Handler.direct call) fun result after => ∃ calls answer, pre calls ∧
      after 0 = calls 0 ++ [conditionalOutcome answer] ∧
        result = answer.mapError RedisError.ofClient := by
  refine meets_bind (commands_lifted call) ?_ fun answer => ?_
  · rintro error calls ⟨_, _, same, -⟩
    exact absurd same (by simp)
  · cases answer with
    | ok value =>
        refine meets_pure ?_
        rintro after ⟨calls, answer, same, known, outcomes⟩
        obtain rfl := Except.ok.inj same
        exact ⟨calls, _, known, outcome _ _ _ outcomes, rfl⟩
    | error failure =>
        refine meets_throw ?_
        rintro after ⟨calls, answer, same, known, outcomes⟩
        obtain rfl := Except.ok.inj same
        exact ⟨calls, _, known, outcome _ _ _ outcomes, rfl⟩

theorem commands_rename_source (source : Bytes) (current : Current) (onlyIfAbsent : Bool) :
    Commands (fun calls => calls 0 = [.found, .applied]) (renameSource source current onlyIfAbsent)
      fun result calls =>
      RenameTold result (calls 0) := by
  refine meets_bind (commands_direct (.deleteIf source (.version current.version)) fun _ _ _ same =>
    same) ?_
    fun deleted => ?_
  · rintro error after ⟨calls, answer, known, same, ended⟩
    obtain ⟨failure, rfl, rfl⟩ := map_error_error ended
    rw [same, known]
    exact rename_told_write (.inr (by simp))
  · cases deleted with
    | some output =>
        refine meets_pure ?_
        rintro after ⟨calls, answer, known, same, ended⟩
        obtain rfl := map_error_ok ended
        rw [same, known]
        exact rename_told_ok (by simp [HidesCopy, conditionalOutcome])
    | none =>
        refine meets_throw ?_
        rintro after ⟨calls, answer, known, same, ended⟩
        obtain rfl := map_error_ok ended
        rw [same, known]
        refine iff_of_false ?_ (by simp [HidesCopy, conditionalOutcome])
        intro told
        exact absurd (told _ rfl ⟨.applied, by simp, rfl⟩).1 (by simp)

theorem commands_argument {β : Type} {argument : Except RedisError β} {rest : β → Handler Reply}
    (continues : ∀ value, Commands Blank (rest value) fun result calls => RenameTold result (calls 0)) :
    Commands Blank (Handler.checked argument >>= rest) fun result calls => RenameTold result
      (calls 0) := by
  refine meets_bind commands_checked ?_ fun value => ?_
  · rintro error calls ⟨blank, -⟩
    rw [blank 0]
    exact rename_told_unwritten unwritten_nil
  · exact meets_consequence (fun _ known => known.1) (fun _ _ => id) (continues value)

theorem unwritten_found : Unwritten [.found] := by simp [Unwritten, CallOutcome.mayHaveApplied]

/-- `RENAMENX` from the read on. -/
theorem commands_copy_absent (source destination : Bytes) (current : Current) :
    Commands (fun calls => calls 0 = [.found]) (do
      match ← Handler.direct (.putIf destination current.value (expiryOf current.deadline) .absent) with
      | none => return .integer 0
      | some _ => renameSource source current true) fun result calls => RenameTold result (calls 0) := by
  refine meets_bind (commands_direct
    (.putIf destination current.value (expiryOf current.deadline) .absent)
    fun _ _ _ same => same) ?_ fun written => ?_
  · rintro error after ⟨calls, answer, known, same, ended⟩
    obtain ⟨failure, rfl, rfl⟩ := map_error_error ended
    rw [same, known]
    exact rename_told_write (.inl unwritten_found)
  · cases written with
    | none =>
        refine meets_pure ?_
        rintro after ⟨calls, answer, known, same, ended⟩
        obtain rfl := map_error_ok ended
        rw [same, known]
        exact rename_told_ok (by simp [HidesCopy, conditionalOutcome])
    | some output =>
        refine meets_consequence ?_ (fun _ _ => id) (commands_rename_source source current true)
        rintro after ⟨calls, answer, known, same, ended⟩
        obtain rfl := map_error_ok ended
        rw [same, known]
        rfl

/-- `RENAME` from the read on. -/
theorem commands_copy (source destination : Bytes) (current : Current) :
    Commands (fun calls => calls 0 = [.found]) (do
      Handler.store (.put destination current.value (expiryOf current.deadline))
      renameSource source current false) fun result calls => RenameTold result (calls 0) := by
  refine meets_bind (commands_request
    (.one (.put destination current.value (expiryOf current.deadline)))) ?_ fun _ => ?_
  · rintro error after ⟨calls, known, outcome⟩
    rcases outcome with ⟨same, -⟩ | ⟨failure, same, rfl⟩
    · rw [same, known]
      exact rename_told_unwritten unwritten_found
    · rw [same, known]
      exact rename_told_write (.inl unwritten_found)
  · refine meets_consequence ?_ (fun _ _ => id) (commands_rename_source source current false)
    rintro after ⟨calls, known, outcome⟩
    have same : after 0 = calls 0 ++ [.applied] := outcome
    rw [same, known]
    rfl

theorem commands_rename (args : Args) (onlyIfAbsent : Bool) :
    Commands Blank (rename args onlyIfAbsent) fun result calls => RenameTold result (calls 0) := by
  refine commands_argument fun ⟨source, args⟩ => commands_argument fun ⟨destination, _⟩ => ?_
  refine meets_bind (commands_request (.one (.read source))) ?_ fun current => ?_
  · rintro error after ⟨calls, blank, outcome⟩
    rcases outcome with ⟨same, -⟩ | ⟨failure, same, rfl⟩
    · rw [same, blank 0]
      exact rename_told_unwritten unwritten_nil
    · rw [same, blank 0]
      exact rename_told_read
  cases current with
  | none =>
      refine meets_throw ?_
      rintro after ⟨calls, blank, outcome⟩
      have same : after 0 = calls 0 ++ [.missing] := outcome
      rw [same, blank 0]
      exact rename_told_unwritten (by simp [Unwritten, CallOutcome.mayHaveApplied])
  | some current =>
      have start : ∀ after, (∃ calls, Blank calls ∧ Outcomes (.one (.read source)) calls
          (.ok (some current)) after) →
          after 0 = [.found] := by
        rintro after ⟨calls, blank, outcome⟩
        have same : after 0 = calls 0 ++ [.found] := outcome
        rw [same, blank 0]
        rfl
      rw [renameFound]
      split
      · refine meets_pure fun after known => ?_
        rw [start after known]
        exact rename_told_ok (by simp [HidesCopy])
      · refine meets_bind (meets_consequence start (fun _ _ => id) (commands_request .client)) ?_
          fun _ => ?_
        · rintro error after ⟨calls, known, same, -⟩
          rw [same, known]
          exact rename_told_unwritten unwritten_found
        · have connected : ∀ after,
              (∃ calls : CallRecord, calls 0 = [.found] ∧ Outcomes .client calls (.ok ()) after) →
              after 0 = [.found] := by
            rintro after ⟨calls, known, same, -⟩
            rw [same, known]
          cases onlyIfAbsent with
          | true =>
              exact meets_consequence connected (fun _ _ => id) (commands_copy_absent source destination current)
          | false =>
              exact meets_consequence connected (fun _ _ => id) (commands_copy source destination current)

/-! Commands as the gateway runs them. -/

def writeCommand (handler : Handler Reply) : ExceptT RedisError (Program (Labelled ClientCall)) Reply :=
  ExceptT.mk (interruptible (.done (.error (.deadline true)))
    (handler.run.interpret fun effect => effect.cluster))

/-- The command can end with this result after these calls, whatever each of them
is answered. -/
def Reports (handler : Handler Reply) (result : Except RedisError Reply) (calls : CallRecord) : Prop :=
  (writeCommand handler).run.Ends LabelledCalls (fun calls later => later = calls)
    (fun _ => []) result calls

def Completes (handler : Handler Reply) (result : Except RedisError Reply) (calls : CallRecord) : Prop :=
  (handler.run.interpret fun effect => effect.cluster).Ends LabelledCalls
    (fun calls later => later = calls) (fun _ => [])
    result calls

theorem completes_handler {handler : Handler Reply} {post : Except RedisError Reply → CallRecord → Prop}
    (commands : Commands Blank handler post) {result : Except RedisError Reply} {calls : CallRecord}
    (completes : Completes handler result calls) : post result calls := by
  have blank : Blank fun _ => [] := fun _ => rfl
  have safe : (handler.run.interpret fun effect => effect.cluster).Safe LabelledCalls (fun _ => True)
      (Apart (fun _ => True) id) (fun _ _ => True) (fun result calls => post result calls)
          (fun _ => []) := by
    refine interpret_safe apart_refl ?_ (commands _ trivial blank)
    intro γ effect calls _
    exact safe_among (fun _ _ apart => apart.1) (fun _ _ _ => trivial) (store_outcome effect calls)
  have kept : ∀ state later : CallRecord, later = state → True → True := fun _ _ _ _ => trivial
  exact ends_safe kept completes trivial
    (safe_among (fun _ _ same => ⟨same, fun _ => trivial⟩) (fun _ _ => id) safe)

theorem told_deadline (calls : List CallOutcome) : Told (.error (.deadline true)) calls := by
  intro error same _
  obtain rfl := Except.error.inj same
  exact ⟨rfl, by simp [RedisError.deadline, RedisError.outcomeUnknown]⟩

/-- The client is told what it needs exactly when nothing is hidden from the
command, and always by a command that was cut off. -/
def Tells (handler : Handler Reply) (result : Except RedisError Reply) (calls : CallRecord)
    (made : List CallOutcome)
    (hidden : Prop) : Prop :=
  (Completes handler result calls ∧ (Told result made ↔ ¬hidden)) ∨
    (result = .error (.deadline true) ∧ Told result made)

theorem tells_handler {handler : Handler Reply} {made : CallRecord → List CallOutcome}
    {hidden : CallRecord → Prop}
    (commands : Commands Blank handler fun result calls => Told result (made calls) ↔ ¬hidden calls)
    {result : Except RedisError Reply} {calls : CallRecord} (reports : Reports handler result calls) :
    Tells handler result calls (made calls) (hidden calls) := by
  rcases ends_interruptible reports with completes | rfl
  · exact .inl ⟨completes, completes_handler commands completes⟩
  · exact .inr ⟨rfl, told_deadline (made calls)⟩

/-- The number of keys `MSET` writes. -/
def msetKeys (args : Args) : Nat :=
  match Strings.pairs args with
  | .ok pairs => pairs.length
  | .error _ => 0

theorem commands_mset (args : Args) : Commands Blank (Strings.mset args) fun result calls =>
    Told result (callsOf (msetKeys args) calls) ↔ ¬LosesVersion (msetKeys args) calls := by
  cases parsed : Strings.pairs args with
  | error error =>
      refine meets_bind commands_checked ?_ fun pairs => ?_
      · rintro failure calls -
        have none_ : msetKeys args = 0 := by simp [msetKeys, parsed]
        simp [none_, callsOf, Told, LosesVersion]
      · intro calls _ known
        exact absurd known.2 (by simp [parsed])
  | ok pairs =>
      refine meets_bind commands_checked ?_ fun found => ?_
      · rintro failure calls ⟨-, same⟩
        exact absurd same (by simp [parsed])
      · intro calls _ known
        obtain rfl := Except.ok.inj (known.2.trans parsed)
        have count : (found.map fun pair => KeyEffect.put pair.1 pair.2 .clear).length =
            msetKeys args := by
          simp [msetKeys, parsed]
        rw [← count]
        refine commands_each_write (fun _ => .status) ?_ calls trivial known.1
        intro effect member
        obtain ⟨pair, -, rfl⟩ := List.mem_map.mp member
        exact records_put pair.1 pair.2 .clear

theorem commands_delete (args : Args) : Commands Blank (delete args) fun result calls =>
    Told result (callsOf args.rest.length calls) ↔ ¬LosesVersion args.rest.length calls := by
  have each : ∀ effect ∈ args.rest.map fun key => KeyEffect.update key deleteOne,
      Records (· = []) effect.cluster Settles := by
    intro effect member
    obtain ⟨key, -, rfl⟩ := List.mem_map.mp member
    exact records_delete key
  have whole := commands_each_write (fun removed : List Nat => .integer removed.sum) each
  rw [List.length_map] at whole
  exact whole

end Hashring
