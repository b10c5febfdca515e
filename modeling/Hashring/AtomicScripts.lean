import Hashring.Authentication
import Hashring.ScriptRuns

/-! A script among other clients: its commands take effect together, on the very
record that its one write replaces. -/
namespace Hashring

open Program

namespace ScriptState

variable {state : ScriptState} {key : Bytes} {seen : Option Current}

/-- The write that publishes what was staged, if anything was. -/
def asks (state : ScriptState) (key : Bytes) : Option AskedWrite :=
  if state.snapshot.dirty then
    some (match state.snapshot.current with
      | some current => .put key current.value (expiryOf current.deadline)
          (some (expect state.snapshot.expected))
      | none => .delete key (expect state.snapshot.expected))
  else none

def published (state : ScriptState) (version : RecordVersion) : Option Current :=
  state.snapshot.current.map fun current =>
    { current with deadline := storedDeadline current.deadline, version }

theorem expect_read (seen : Option Current) : expect (seen.map (·.version)) = expectedFor seen := by
  cases seen <;> rfl

theorem asks_only {asked : AskedWrite} (expected : state.snapshot.expected = seen.map (·.version))
    (asks : state.asks key = some asked) : Cluster.OnlyOn asked seen := by
  intro shown met
  unfold ScriptState.asks at asks
  rw [expected, expect_read] at asks
  split at asks
  · cases current : state.snapshot.current with
    | none =>
        rw [current] at asks
        obtain rfl := Option.some.inj asks
        exact met
    | some record =>
        rw [current] at asks
        obtain rfl := Option.some.inj asks
        exact met _ rfl
  · exact absurd asks (by simp)

/-- What publishing a private state leaves: nothing where nothing was staged, else one
write on the record that was read. -/
inductive Published (state : ScriptState) (key : Bytes) (seen : Option Current) : List KeyEvent → Prop
  | nothing (clean : state.snapshot.dirty = false) : Published state key seen []
  | wrote (event : KeyEvent) (version : RecordVersion) (dirty : state.snapshot.dirty = true)
      (at_ : event.key = key)
      (on : event.shown = seen) (made : event.stores = some (state.published version)) :
        Published state key seen [event]

theorem lands_published {asked : AskedWrite} (asks : state.asks key = some asked) {event : KeyEvent}
    (lands : Cluster.Lands asked event) (shown : event.shown = seen) :
    state.Published key seen [event] := by
  obtain ⟨at_, -, version, after, decided, made⟩ := lands
  unfold ScriptState.asks at asks
  split at asks
  · rename_i dirty
    cases current : state.snapshot.current with
    | none =>
        rw [current] at asks
        obtain rfl := Option.some.inj asks
        refine .wrote event version dirty at_ shown (made.trans ?_)
        rw [← Option.some.inj decided, published, current]
        rfl
    | some record =>
        rw [current] at asks
        obtain rfl := Option.some.inj asks
        refine .wrote event version dirty at_ shown (made.trans ?_)
        simp only [AskedWrite.stores, Change.expiry_of_leaves] at decided
        rw [← Option.some.inj decided, published, current]
        rfl
  · exact absurd asks (by simp)

end ScriptState

namespace Host

variable {ω : Type}

/-- The script, run in private on what was read, can give this answer and leave this
state. -/
def Ran (host : Host ω) (call : ScriptCall) (seen : Option Current)
    (answer : Except RedisError Reply) (left : ScriptState) :
    Prop :=
  ∃ before after, (host.attempt call before seen).Gives (fun _ _ => True) ((answer, after), left)

/-- The events of a script that gave this answer: turns that wrote nothing, the read
its last attempt ran on, and what that attempt published. -/
def Answered (host : Host ω) (call : ScriptCall) (key : Bytes) (answer : Except RedisError Reply)
    (events : List KeyEvent) :
    Prop :=
  ∃ rounds read wrote left, events = rounds ++ read :: wrote ∧ Cluster.Rounds key (rounds ++ [read]) ∧
    host.Ran call read.shown answer left ∧ left.Published key read.shown wrote

/-- The write of the last attempt is still to be made, or never will be. -/
def Underway (host : Host ω) (call : ScriptCall) (key : Bytes) (events : List KeyEvent)
    (owed : List AskedWrite) : Prop :=
  ∃ rounds read answer left asked, events = rounds ++ [read] ∧ Cluster.Rounds key events ∧
    host.Ran call read.shown answer left ∧ left.asks key = some asked ∧ owed = [asked]

/-- How a script that has ended stands. -/
def Scripted (host : Host ω) (call : ScriptCall) (mine : List KeyEvent) (owed : List AskedWrite)
    (result : Except RedisError Reply) : Prop :=
  match call.keys with
  | [] => mine = [] ∧ owed = [] ∧ ∃ left, host.Ran call none result left
  | [key] => (owed = [] ∧ host.Answered call key result mine) ∨ ∃ error, result = .error error ∧
      ((Cluster.Rounds key mine ∧ owed = []) ∨ (error.mayHaveApplied = true ∧
        (host.Underway call key mine owed ∨ (owed = [] ∧ ∃ answer, host.Answered call key answer mine))))
  | _ :: _ :: _ => mine = [] ∧ owed = [] ∧ result = .error tooManyKeys

def Answers (label : Nat) {γ : Type} : ScriptEffect ω γ → Cluster → γ → Cluster → Prop
  | .client call, cluster, answer, after => Cluster.Answers label call cluster answer after
  | .host _, cluster, _, after | .enter, cluster, _, after | .leave, cluster, _,
      after | .takeRuntime, cluster, _, after
  | .putRuntime _, cluster, _, after => after = cluster

variable {host : Host ω} {call : ScriptCall} {seen : Option Current}
  {answer : Except RedisError Reply} {left : ScriptState}

theorem run_command_within {declared : List Bytes} {γ : Type} (effect : HostCall γ) (state : ScriptState)
    (ended : γ × ScriptState)
    (gives : (host.runCommand declared effect state).Gives (fun _ _ => True) ended) :
    state.Within ended.2 := by
  cases effect with
  | call command =>
      simp only [runCommand] at gives
      split at gives
      · obtain rfl := gives
        exact ScriptState.within_refl state
      · unfold Host.call at gives
        simp only at gives
        split at gives
        · obtain rfl := gives
          exact ScriptState.within_refl state
        · obtain ⟨found, first, rfl⟩ := gives_then.mp gives
          exact ScriptState.execute_within first

/-- An attempt leaves the key and the condition of its write as they were. -/
theorem ran_within (ran : host.Ran call seen answer left) :
    (ScriptState.new call.keys.head? seen).Within left := by
  obtain ⟨before, after, gives⟩ := ran
  exact gives_threaded ScriptState.within_refl ScriptState.within_trans run_command_within gives

variable {initial : Bytes → Option Current} {label : Nat} {key : Bytes}

structure Staged (host : Host ω) (call : ScriptCall) (key : Bytes) where
  seen : Option Current
  answer : Except RedisError Reply
  left : ScriptState
  asked : AskedWrite
  ran : host.Ran call seen answer left
  asks : left.asks key = some asked
  only : Cluster.OnlyOn asked seen

variable (host call initial label key)

/-- How a script fails by its own reads and its own write. -/
def failing (error : RedisError) : Assertion (Cluster.Sound initial) (Cluster.Others label) :=
  .either (Cluster.knowing initial label none (Cluster.Rounds key)) (.given (error.mayHaveApplied = true)
    (.any fun staged : Staged host call key =>
      Cluster.pending initial label (Cluster.Looked (Cluster.Rounds key) key staged.seen)
        staged.asked staged.seen staged.only))

def committed (answer : Except RedisError Reply) :
    Except RedisError Bool → Assertion (Cluster.Sound initial) (Cluster.Others label)
  | .ok true => Cluster.knowing initial label none (host.Answered call key answer)
  | .ok false => Cluster.knowing initial label none (Cluster.Rounds key)
  | .error error => failing host call initial label key error

def turned : Except RedisError (Unit ⊕ Except RedisError Reply) → Assertion (Cluster.Sound initial)
    (Cluster.Others label)
  | .ok (.inl _) => Cluster.knowing initial label none (Cluster.Rounds key)
  | .ok (.inr answer) => Cluster.knowing initial label none (host.Answered call key answer)
  | .error error => failing host call initial label key error

/-- How the loop ends. -/
def concluded : Except RedisError (Except RedisError Reply) → Assertion (Cluster.Sound initial)
    (Cluster.Others label)
  | .ok answer => Cluster.knowing initial label none (host.Answered call key answer)
  | .error error => failing host call initial label key error

variable {host call initial label key}

theorem triple_publish {ρ : Type} {made : ClientCall (Except ClientError (Option ρ))}
    (staged : Staged host call key)
    (asks : ∀ cluster answer after, Cluster.Answers label made cluster answer after →
      cluster.Tried label staged.asked (conditionalOutcome answer) after) :
    Triple (Cluster.Answers label) (Cluster.Sound initial) (Cluster.Others label)
      (Cluster.knowing initial label staged.seen (Cluster.Looked (Cluster.Rounds key) key staged.seen))
      (do return (← askOrFail made).isSome) (committed host call initial label key staged.answer) := by
  refine triple_bind Cluster.others_refl (Cluster.triple_conditional staged.only asks) ?_ ?_
  · rintro error cluster - (silent | ⟨ambiguous, pends⟩)
    · exact .inl ⟨silent.1, Cluster.looked_rounds silent.2.1, by simp⟩
    · exact .inr ⟨ambiguous, staged, pends⟩
  · rintro (_ | output)
    · exact triple_pure fun cluster _ known => ⟨known.1, Cluster.looked_rounds known.2.1, by simp⟩
    · refine triple_pure fun cluster _ known => ⟨known.1, ?_, by simp⟩
      obtain ⟨events, event, same, looked, lands, shown⟩ := known.2.1
      have silent := Cluster.looked_rounds looked
      obtain ⟨rounds, read, rfl, -, -, found, -⟩ := looked
      refine ⟨rounds, read, [event], staged.left, by simp [same], silent, found ▸ staged.ran, ?_⟩
      rw [found]
      exact ScriptState.lands_published staged.asks lands shown

theorem triple_commit (ran : host.Ran call seen answer left) (declared : call.keys.head? = some key) :
    Triple (Cluster.Answers label) (Cluster.Sound initial) (Cluster.Others label)
      (Cluster.knowing initial label seen (Cluster.Looked (Cluster.Rounds key) key seen)) left.commit
      (committed host call initial label key answer) := by
  have within := ran_within ran
  have own : left.key = some key := within.key.trans declared
  have expected : left.snapshot.expected = seen.map (·.version) := within.expected
  unfold ScriptState.commit
  split
  · rename_i dirty
    rw [own]
    cases current : left.snapshot.current with
    | none =>
        have asks : left.asks key = some (.delete key (ScriptState.expect left.snapshot.expected)) := by
          simp [ScriptState.asks, dirty, current]
        exact triple_publish ⟨seen, answer, left, _, ran, asks, ScriptState.asks_only expected asks⟩
          fun _ _ _ answers => answers
    | some record =>
        have asks : left.asks key =
            some (.put key record.value (expiryOf record.deadline)
                (some (ScriptState.expect left.snapshot.expected))) := by
          simp [ScriptState.asks, dirty, current]
        exact triple_publish ⟨seen, answer, left, _, ran, asks, ScriptState.asks_only expected asks⟩
          fun _ _ _ answers => answers
  · rename_i clean
    refine triple_pure fun cluster _ known => ⟨known.1, ?_, by simp⟩
    have silent := Cluster.looked_rounds known.2.1
    obtain ⟨rounds, read, same, -, -, found, -⟩ := known.2.1
    rw [same] at silent ⊢
    exact ⟨rounds, read, [], left, rfl, silent, found ▸ ran, .nothing (by simpa using clean)⟩

theorem triple_aside {γ : Type} {effect : ScriptEffect ω γ}
    {pre : Assertion (Cluster.Sound initial) (Cluster.Others label)}
    (unnoticed : ∀ cluster answer after, Answers label effect cluster answer after → after = cluster) :
    Triple (Answers label) (Cluster.Sound initial) (Cluster.Others label) pre (ask effect)
      (.onOk fun _ => pre) := by
  refine triple_ask fun cluster sound known answer after answers => ?_
  obtain rfl := unnoticed cluster answer after answers
  exact ⟨sound, known⟩

/-- The client's part of a turn. -/
theorem triple_store {α : Type} {task : StoreTask α}
    {pre : Assertion (Cluster.Sound initial) (Cluster.Others label)}
    {post : Except RedisError α → Assertion (Cluster.Sound initial) (Cluster.Others label)}
    (triple : Triple (Cluster.Answers label) (Cluster.Sound initial) (Cluster.Others label) pre task
      post) :
    Triple (Answers label) (Cluster.Sound initial)
      (Cluster.Others label) pre (store task : ScriptTask ω α) post :=
  triple_lift triple

theorem triple_privately {pre : Assertion (Cluster.Sound initial) (Cluster.Others label)} :
    Triple (Answers label) (Cluster.Sound initial)
      (Cluster.Others label) pre (host.runPrivately call seen)
      (.onOk fun ended => .given (host.Ran call seen ended.1 ended.2) pre) := by
  refine triple_bind Cluster.others_refl (triple_aside fun _ _ _ same => same)
    (fun _ _ _ impossible => impossible.elim) ?_
  intro before
  have unseen : ∀ {γ : Type} (effect : HostEffect γ) (cluster : Cluster) (answer : γ) (after : Cluster),
      Answers label (ScriptEffect.host effect : ScriptEffect ω γ) cluster answer after →
        after = cluster ∧ True :=
    fun _ _ _ _ same => ⟨same, trivial⟩
  refine triple_bind Cluster.others_refl (triple_private (host.attempt call before seen) unseen)
    (fun _ _ _ impossible => impossible.elim) fun ended => triple_given fun gives => ?_
  refine triple_bind Cluster.others_refl (triple_aside fun _ _ _ same => same)
    (fun _ _ _ impossible => impossible.elim) ?_
  exact fun _ => triple_pure fun _ _ known => ⟨⟨before, ended.1.2, gives⟩, known⟩

theorem triple_read_declared (declared : call.keys.head? = some key) :
    Triple (Answers label) (Cluster.Sound initial) (Cluster.Others label)
      (Cluster.knowing initial label none (Cluster.Rounds key))
      (readDeclared call : ScriptTask ω (Option Current))
      (Cluster.reading initial label (Cluster.Rounds key) key) := by
  unfold readDeclared
  rw [declared]
  apply triple_store
  exact triple_bind Cluster.others_refl Cluster.triple_connect (fun _ _ _ known => known) fun _ =>
    Cluster.triple_read

theorem triple_round (declared : call.keys.head? = some key) :
    Triple (Answers label) (Cluster.Sound initial) (Cluster.Others label)
      (Cluster.knowing initial label none (Cluster.Rounds key)) (host.round call ())
      (turned host call initial label key) := by
  refine triple_bind Cluster.others_refl (triple_read_declared declared)
    (fun _ _ _ known => .inl known) fun current => ?_
  refine triple_bind Cluster.others_refl triple_privately (fun _ _ _ impossible => impossible.elim) ?_
  rintro ⟨answer, left⟩
  refine triple_given fun ran => ?_
  simp only [declared]
  refine triple_bind Cluster.others_refl (triple_store (triple_commit ran declared))
    (fun _ _ _ known => known) ?_
  rintro (_ | _)
  · exact triple_pure fun _ _ known => known
  · exact triple_pure fun _ _ known => known

variable (host call initial label) in
def keyless (ended : Unit ⊕ Except RedisError Reply) : Assertion (Cluster.Sound initial)
    (Cluster.Others label) :=
  .any fun answer => .given (ended = .inr answer ∧ ∃ left, host.Ran call none answer left)
    (Cluster.knowing initial label none fun events => events = [])

theorem triple_keyless (undeclared : call.keys.head? = none) :
    Triple (Answers label) (Cluster.Sound initial) (Cluster.Others label)
      (Cluster.knowing initial label none fun events => events = []) (host.round call ())
      (.onOk (keyless host call initial label)) := by
  have unread : Triple (Answers label) (Cluster.Sound initial) (Cluster.Others label)
      (Cluster.knowing initial label none fun events => events = [])
        (readDeclared call : ScriptTask ω (Option Current))
      (.onOk fun current => .given (current = none)
          (Cluster.knowing initial label none fun events => events = [])) := by
    unfold readDeclared
    rw [undeclared]
    exact triple_pure fun _ _ known => ⟨rfl, known⟩
  refine triple_bind Cluster.others_refl unread (fun _ _ _ impossible => impossible.elim)
    fun current => triple_given ?_
  rintro rfl
  refine triple_bind Cluster.others_refl triple_privately (fun _ _ _ impossible => impossible.elim) ?_
  rintro ⟨answer, left⟩
  refine triple_given fun ran => ?_
  simp only [undeclared]
  exact triple_pure fun _ _ known => ⟨answer, ⟨rfl, left, ran⟩, known⟩

variable (host call initial label key) in
def scripted (result : Except RedisError Reply) : Assertion (Cluster.Sound initial)
    (Cluster.Others label) :=
  .either (Cluster.knowing initial label none (host.Answered call key result))
    (.any fun error => .given (result = .error error) (failing host call initial label key error))

theorem triple_answer {pre : Assertion (Cluster.Sound initial) (Cluster.Others label)}
    {looped : Except RedisError (Except RedisError Reply) → Assertion (Cluster.Sound initial) (Cluster.Others label)}
    {post : Except RedisError Reply → Assertion (Cluster.Sound initial) (Cluster.Others label)}
    (single : ¬1 < call.keys.length)
    (loops : Triple (Answers label) (Cluster.Sound initial) (Cluster.Others label) pre
      (tryLoop (host.round call) ()) looped)
    (answers : ∀ answer cluster, (looped (.ok answer)).holds cluster → (post answer).holds cluster)
    (fails : ∀ error cluster, (looped (.error error)).holds cluster →
      (post (.error error)).holds cluster) :
    Triple (Answers label) (Cluster.Sound initial) (Cluster.Others label) pre (host.run call) post := by
  unfold run
  rw [if_neg single]
  refine triple_bind Cluster.others_refl (triple_aside fun _ _ _ same => same)
    (fun _ _ _ impossible => impossible.elim) fun _ => ?_
  have tried : Triple (Answers label) (Cluster.Sound initial) (Cluster.Others label) pre
      (Program.attempt (tryLoop (host.round call) ())) (.onOk looped) :=
        Program.triple_attempt Cluster.others_refl loops
  refine triple_bind Cluster.others_refl tried (fun _ _ _ impossible => impossible.elim) fun result => ?_
  refine triple_bind Cluster.others_refl (triple_aside fun _ _ _ same => same)
    (fun _ _ _ impossible => impossible.elim) fun _ => ?_
  rcases result with error | error | reply
  · exact triple_throw fun cluster _ known => fails error cluster known
  · exact triple_throw fun cluster _ known => answers _ cluster known
  · exact triple_pure fun cluster _ known => answers _ cluster known

theorem triple_run_one (declared : call.keys = [key]) :
    Triple (Answers label) (Cluster.Sound initial) (Cluster.Others label)
      (Cluster.knowing initial label none fun events => events = []) (host.run call)
      (scripted host call initial label key) := by
  have each : ∀ turn : Unit, Triple (Answers label) (Cluster.Sound initial) (Cluster.Others label)
      ((fun _ => Cluster.knowing initial label none (Cluster.Rounds key)) turn) (host.round call turn)
      ((fun _ => turned host call initial label key) turn) := fun _ => triple_round (by simp [declared])
  have loops : Triple (Answers label) (Cluster.Sound initial) (Cluster.Others label)
      (Cluster.knowing initial label none fun events => events = []) (tryLoop (host.round call) ())
      (concluded host call initial label key) := by
    refine triple_loop Cluster.others_refl ?_ each ?_ ?_ ?_
    · rintro cluster - ⟨idle, none_yet, -⟩
      exact ⟨idle, by simp [none_yet, Cluster.Rounds], by simp⟩
    · exact fun _ _ _ _ known => known
    · exact fun _ _ _ _ known => known
    · exact fun _ _ _ _ known => known
  refine triple_answer (by simp [declared]) loops (fun answer cluster known => .inl known) ?_
  exact fun error cluster known => .inr ⟨error, rfl, known⟩

theorem triple_run_keyless (undeclared : call.keys = []) :
    Triple (Answers label) (Cluster.Sound initial) (Cluster.Others label)
      (Cluster.knowing initial label none fun events => events = []) (host.run call)
      fun result => .given (∃ left, host.Ran call none result left)
        (Cluster.knowing initial label none fun events => events = []) := by
  have each : ∀ turn : Unit, Triple (Answers label) (Cluster.Sound initial) (Cluster.Others label)
      ((fun _ => Cluster.knowing initial label none fun events => events = []) turn)
        (host.round call turn)
      ((fun _ => .onOk (keyless host call initial label)) turn) :=
        fun _ => triple_keyless (by simp [undeclared])
  have loops : Triple (Answers label) (Cluster.Sound initial) (Cluster.Others label)
      (Cluster.knowing initial label none fun events => events = []) (tryLoop (host.round call) ())
      (.onOk fun answer => .given (∃ left, host.Ran call none answer left)
        (Cluster.knowing initial label none fun events => events = [])) := by
    refine triple_loop Cluster.others_refl (fun _ _ known => known) each ?_ ?_ ?_
    · exact fun _ _ _ _ ⟨_, ⟨same, _⟩, _⟩ => absurd same (by simp)
    · rintro _ answer cluster - ⟨found, ⟨same, ran⟩, known⟩
      exact ⟨Sum.inr.inj same ▸ ran, known⟩
    · exact fun _ _ _ _ impossible => impossible.elim
  exact triple_answer (by simp [undeclared]) loops (fun _ _ known => known) fun _ _ impossible =>
    impossible.elim

/-- However many clients there are and whatever they do: a script's commands are run
in private on what one read showed, and what they left replaces exactly that, in at
most one write. A turn that was not published wrote nothing; a script that fails
otherwise wrote nothing, or its error says that it may have; no other key is touched. -/
theorem scripts_are_atomic (host : Host ω) (call : ScriptCall) (label : Nat)
    (initial : Bytes → Option Current) (start last : Cluster) (result : Except RedisError Reply)
    (sound : start.Sound initial)
    (unused : Cluster.mine label start = [] ∧ Cluster.owed label start = [])
    (ends : (host.run call).run.Ends (Answers label) (Cluster.Others label) start result last) :
    Consistent initial last.history ∧ host.Scripted call (Cluster.mine label last)
      (Cluster.owed label last) result := by
  have kept : ∀ state later, Cluster.Others label state later → state.Sound initial →
      later.Sound initial :=
    fun _ _ others => Cluster.sound_others others
  have fresh : (Cluster.knowing initial label none fun events => events = []).holds start :=
    ⟨unused.2, unused.1, by simp⟩
  cases keys : call.keys with
  | nil =>
      obtain ⟨soundLast, ran, idle, nothing, -⟩ :=
        triple_ends kept (triple_run_keyless keys) sound fresh ends
      refine ⟨soundLast.consistent, ?_⟩
      rw [Scripted, keys]
      exact ⟨nothing, idle, ran⟩
  | cons key more =>
      cases more with
      | nil =>
          obtain ⟨soundLast, stands⟩ := triple_ends kept (triple_run_one keys) sound fresh ends
          refine ⟨soundLast.consistent, ?_⟩
          rw [Scripted, keys]
          -- It answered, failed before its write, or was not told what became of the write.
          rcases stands with answered | ⟨error, same, silent | ⟨ambiguous, staged, pends⟩⟩
          · exact .inl ⟨answered.1, answered.2.1⟩
          · exact .inr ⟨error, same, .inl ⟨silent.2.1, silent.1⟩⟩
          · refine .inr ⟨error, same, .inr ⟨ambiguous, ?_⟩⟩
            -- The write is still on its way, or has landed unseen.
            rcases pends.stands with ⟨asked, looked⟩ | ⟨settled, events, event, grew, looked, lands,
              shown⟩
            · have silent := Cluster.looked_rounds looked
              obtain ⟨rounds, read, was, -, -, found, -⟩ := looked
              exact .inl ⟨rounds, read, staged.answer, staged.left, staged.asked, was, silent,
                found ▸ staged.ran,
                staged.asks, asked⟩
            · have silent := Cluster.looked_rounds looked
              obtain ⟨rounds, read, rfl, -, -, found, -⟩ := looked
              refine .inr ⟨settled, staged.answer, rounds, read, [event], staged.left,
                by simp [grew], silent,
                found ▸ staged.ran, ?_⟩
              rw [found]
              exact ScriptState.lands_published staged.asks lands shown
      | cons second others =>
          -- A second key is refused before the program makes any call.
          have refuses : host.run call = throw tooManyKeys := by
            unfold run
            rw [if_pos (by simp [keys])]
            rfl
          have refused : Triple (Answers label) (Cluster.Sound initial) (Cluster.Others label)
              (Cluster.knowing initial label none fun events => events = []) (host.run call)
              fun result => .given (result = .error tooManyKeys)
                  (Cluster.knowing initial label none fun events => events = []) := by
            rw [refuses]
            exact triple_throw fun _ _ known => ⟨rfl, known⟩
          obtain ⟨soundLast, same, idle, nothing, -⟩ := triple_ends kept refused sound fresh ends
          refine ⟨soundLast.consistent, ?_⟩
          rw [Scripted, keys]
          exact ⟨nothing, idle, same⟩

end Host

/-! A script that appends twice, alone at its cluster. -/
namespace ScriptSample

def append (part : Nat) : HostCall (Except RedisError Reply) :=
  .call [utf8 "append", UpdateSample.key, [byte part]]

def host : Host Unit where
  dispatcher := { SampleGateway.dispatcher with password := none }
  connection := { id := 1, authenticated := false }
  interpret _ _ := .perform (append 2) fun _ => .perform (append 3) fun answer => .done (answer, ())

def call : ScriptCall := ⟨[], [UpdateSample.key], []⟩

def hostServe : {γ : Type} → HostEffect γ → Cluster → γ × Cluster
  | _, .now, cluster => (cluster.now, cluster)
  | _, .uptime, cluster | _, .instanceId, cluster => (0, cluster)

def serve : {γ : Type} → ScriptEffect Unit γ → Cluster → γ × Cluster
  | _, .client call, cluster => UpdateSample.serve call cluster
  | _, .host effect, cluster => hostServe effect cluster
  | _, .enter, cluster | _, .leave, cluster | _, .takeRuntime, cluster | _, .putRuntime _,
      cluster => ((), cluster)

theorem serve_answers {γ : Type} (effect : ScriptEffect Unit γ) (cluster : Cluster) :
    ∃ later, Cluster.Others 0 cluster later ∧ Host.Answers 0 effect later (serve effect cluster).1
      (serve effect cluster).2 := by
  cases effect with
  | client call => exact UpdateSample.serve_answers call cluster
  | host effect => cases effect <;> exact ⟨cluster, Cluster.others_refl cluster, rfl⟩
  | enter | leave | takeRuntime | putRuntime => exact ⟨cluster, Cluster.others_refl cluster, rfl⟩

/-- What the first turn staged is not published, for client 1 overwrote the key
meanwhile; the second appends to what that left. -/
theorem scripts_are_atomic_retried : ∃ last : Cluster,
    (host.run call).run.Ends (Host.Answers 0) (Cluster.Others 0) UpdateSample.cluster
      (.ok (.integer 3)) last ∧
      Consistent UpdateSample.initial last.history ∧
      host.Scripted call (Cluster.mine 0 last) (Cluster.owed 0 last) (.ok (.integer 3)) ∧
      (last.records UpdateSample.key).map (·.value) = some [byte 5, byte 2, byte 3] ∧
      last.history.map (·.label) = [0, 1, 0, 0] := by
  have ran : (host.run call).run.execute (fun effect => serve effect) (fun _ => 2) UpdateSample.cluster =
      some (.ok (.integer 3), _) := rfl
  have idle : ∀ cluster, True → Cluster.Others 0 cluster cluster := fun _ _ => Cluster.others_refl _
  have ends := execute_ends_among idle
      (fun effect cluster _ => ⟨serve_answers effect cluster, trivial⟩) trivial ran
  obtain ⟨consistent, scripted⟩ :=
    Host.scripts_are_atomic host call 0 UpdateSample.initial UpdateSample.cluster _ _
    UpdateSample.cluster_sound ⟨rfl, rfl⟩ ends
  exact ⟨_, ends, consistent, scripted, rfl, rfl⟩

end ScriptSample
end Hashring
