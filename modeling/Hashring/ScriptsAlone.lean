import Hashring.PlainDispatch
import Hashring.PrivateRuns
import Mathlib

/-! A script beside its commands sent one after another: where nobody else uses the
cluster, it answers the same and leaves the same. -/
namespace Hashring

open Program

/-- A command's request in private. The gateway answers for itself what is not of
the store. -/
def CommandEffect.Stages (moment : HostMoment) {γ : Type} : CommandEffect γ → ScriptState → γ →
    ScriptState → Prop
  | .store effect, state, answer, after => effect.Stages moment state answer after
  | .uptime, state, answer, after => answer = moment.uptime ∧ after = state
  | .instanceId, state, answer, after => answer = moment.instanceId ∧ after = state
  | .keys _ _, _, _, _ | .scan _ _ _ _, _, _, _ | .keyCount, _, _, _ | .randomKey, _, _,
      _ | .extension _ _ _, _, _, _ => False

/-- The same at a cluster that nobody else uses. -/
def CommandEffect.Alone (moment : HostMoment) {γ : Type} : CommandEffect γ → Cluster → γ → Cluster → Prop
  | .store effect, cluster, answer, after => effect.Alone cluster answer after
  | .uptime, cluster, answer, after => answer = moment.uptime ∧ after = cluster
  | .instanceId, cluster, answer, after => answer = moment.instanceId ∧ after = cluster
  | .keys _ _, _, _, _ | .scan _ _ _ _, _, _, _ | .keyCount, _, _, _ | .randomKey, _, _,
      _ | .extension _ _ _, _, _, _ => False

namespace Host

variable {ω : Type} (host : Host ω)

def refuses (declared command : List Bytes) : Option RedisError :=
  match checkDeclared declared command with
  | .error error => some error
  | .ok () =>
      let name := (command.head?.map host.dispatcher.runtime.keyword).getD ""
      if refusedInScripts.contains name then some
        ⟨"ERR", s!"This command is not allowed from a script: {name}", false⟩ else none

def scriptConnection : Connection := { host.connection with authenticated := true }

def Runs {σ : Type} (executes : List Bytes → σ → Response × Connection → σ → Prop)
    (declared : List Bytes) {γ : Type} :
    HostCall γ → σ → γ → σ → Prop
  | .call command, state, answer, after =>
      match host.refuses declared command with
      | some error => answer = .error error ∧ after = state
      | none => ∃ result, executes command state result after ∧ answer = result.1.reply

def Privately (moment : HostMoment) (declared : List Bytes) {γ : Type} (call : HostCall γ)
    (state : ScriptState) (answer : γ)
    (after : ScriptState) : Prop :=
  host.Runs (fun command state result next =>
    (host.dispatcher.executeWithStore true host.scriptConnection command).Ends
    (fun effect => effect.Stages moment) Eq state result next) declared call state answer after

/-- As a client would send it to the cluster. -/
def Directly (moment : HostMoment) (declared : List Bytes) {γ : Type} (call : HostCall γ)
    (cluster : Cluster) (answer : γ)
    (after : Cluster) : Prop :=
  host.Runs (fun command state result next => (host.dispatcher.execute host.scriptConnection command).Ends
    (fun effect => effect.Alone moment) Eq state result next) declared call cluster answer after

/-- What a script asks for, where nobody else uses the cluster. -/
def Alone (moment : HostMoment) (runtime : ω) {γ : Type} : ScriptEffect ω γ → Cluster → γ → Cluster → Prop
  | .client call, cluster, answer, after => Cluster.Served 0 call cluster answer after
  | .host effect, cluster, answer, after => moment.Tells effect answer ∧ after = cluster
  | .takeRuntime, cluster, answer, after => answer = runtime ∧ after = cluster
  | .enter, cluster, _, after | .leave, cluster, _, after | .putRuntime _, cluster, _,
      after => after = cluster

variable {host} {moment : HostMoment} {key : Bytes} {unasked : Bytes → Option Current}
  {state after : ScriptState} {cluster : Cluster}

/-! What is done in private is what an attempt does. -/

theorem stages_all_give {γ : Type} {effects : List (KeyEffect γ)} {answers : List γ}
    (stages : KeyEffect.StagesAll moment effects state answers after) :
    (KeyEffect.overlaidAll effects state).Gives moment.Tells (answers, after) := by
  induction effects generalizing state answers with
  | nil =>
      obtain ⟨rfl, rfl⟩ := stages
      rfl
  | cons effect rest ih =>
      obtain ⟨answer, others, middle, one, more, rfl⟩ := stages
      exact gives_then.mpr ⟨(answer, middle), one.2, gives_then.mpr ⟨(others, after), ih more, rfl⟩⟩

theorem stages_give {γ : Type} (effect : CommandEffect γ) (state : ScriptState) (answer : γ)
    (after : ScriptState)
    (stages : effect.Stages moment state answer after) : (effect.overlaid state).Gives moment.Tells
      (answer, after) := by
  cases effect with
  | store effect =>
      cases effect with
      | now =>
          obtain ⟨rfl, rfl⟩ := stages
          exact gives_then.mpr ⟨moment.now, ⟨moment.now, rfl, rfl⟩, rfl⟩
      | one effect => exact stages.2
      | all effects => exact stages_all_give stages
      | client | putIf | deleteIf => exact stages.elim
  | uptime =>
      obtain ⟨rfl, rfl⟩ := stages
      exact gives_then.mpr ⟨moment.uptime, ⟨moment.uptime, rfl, rfl⟩, rfl⟩
  | instanceId =>
      obtain ⟨rfl, rfl⟩ := stages
      exact gives_then.mpr ⟨moment.instanceId, ⟨moment.instanceId, rfl, rfl⟩, rfl⟩
  | keys | scan | keyCount | randomKey | extension => exact stages.elim

theorem privately_gives {declared : List Bytes} {γ : Type} (call : HostCall γ) (state : ScriptState)
    (answer : γ) (after : ScriptState)
    (ran : host.Privately moment declared call state answer after) :
    (host.runCommand declared call state).Gives moment.Tells (answer, after) := by
  cases call with
  | call command =>
      simp only [Privately, Runs, refuses] at ran
      cases checked : checkDeclared declared command with
      | error error =>
          rw [checked] at ran
          obtain ⟨rfl, rfl⟩ := ran
          simp only [runCommand, checked]
          rfl
      | ok passed =>
          rw [checked] at ran
          simp only [runCommand, checked, Host.call]
          by_cases refused : refusedInScripts.contains
            ((command.head?.map host.dispatcher.runtime.keyword).getD "") = true
          · simp only [if_pos refused] at ran ⊢
            obtain ⟨rfl, rfl⟩ := ran
            rfl
          · simp only [if_neg refused] at ran ⊢
            obtain ⟨result, ends, rfl⟩ := ran
            exact gives_then.mpr ⟨(result, after), ends_threaded stages_give ends, rfl⟩

/-! And what the cluster does with the same commands. -/

theorem command_mirrored {γ : Type} {effect : CommandEffect γ} {answer : γ}
    (mirrors : Mirrors moment key unasked state cluster) (fair : Regime.apart.FairCommand effect)
    (stages : effect.Stages moment state answer after) :
    ∃ other next, effect.Alone moment cluster other next ∧
      Regime.apart.AgreesCommand effect answer other ∧
      Mirrors moment key unasked after next := by
  cases effect with
  | store effect => exact mirrors.store_mirrored fair stages
  | uptime | instanceId =>
      obtain ⟨rfl, rfl⟩ := stages
      exact ⟨_, cluster, ⟨rfl, rfl⟩, rfl, mirrors⟩
  | keys | scan | keyCount | randomKey | extension => exact stages.elim

theorem allowed_keyed {command : CommandInfo} {name : String} (folded : asciiLowercase name = name)
    (listed : command ∈ commandTable) (spelled : eqIgnoreAsciiCase command.name name = true)
    (allowed : refusedInScripts.contains name = false) : command.keyspace = false := by
  by_contra keyed
  have low : ∀ info ∈ commandTable, asciiLowercase info.name = info.name := by decide +kernel
  have same : asciiLowercase command.name = asciiLowercase name :=
    congrArg String.ofList (of_decide_eq_true spelled)
  have named : command.name = name := by rw [← low command listed, same, folded]
  have member := (Dispatcher.listed_keyspace command listed).mpr (by simpa using keyed)
  rw [named] at member
  have refused : ∀ word ∈ ["keys", "scan", "dbsize", "randomkey"],
      refusedInScripts.contains word = true := by decide
  rw [refused name member] at allowed
  exact absurd allowed (by decide)

theorem refuses_none {declared : List Bytes} {first : Bytes} {rest : List Bytes}
    (passes : host.refuses declared (first :: rest) = none) :
    refusedInScripts.contains (host.dispatcher.runtime.keyword first) = false := by
  unfold refuses at passes
  split at passes
  · exact absurd passes (by simp)
  · change (if refusedInScripts.contains (host.dispatcher.runtime.keyword first) then some _
      else none) = none at passes
    split at passes
    · exact absurd passes (by simp)
    · rename_i allowed
      simpa using allowed

section Alone

variable (folds : ∀ text, asciiLowercase (host.dispatcher.runtime.lowercase text) =
  host.dispatcher.runtime.lowercase text)

include folds

theorem call_mirrored {declared : List Bytes} {γ : Type} (call : HostCall γ) (state : ScriptState)
    (cluster : Cluster) (answer : γ) (after : ScriptState)
    (mirrors : Mirrors moment key unasked state cluster)
    (ran : host.Privately moment declared call state answer after) :
    ∃ next, host.Directly moment declared call cluster answer next ∧
      Mirrors moment key unasked after next := by
  cases call with
  | call command =>
      simp only [Privately, Runs] at ran
      simp only [Directly, Runs]
      cases refused : host.refuses declared command with
      | some error =>
          rw [refused] at ran
          obtain ⟨rfl, rfl⟩ := ran
          exact ⟨cluster, ⟨rfl, rfl⟩, mirrors⟩
      | none =>
          rw [refused] at ran
          obtain ⟨result, ends, rfl⟩ := ran
          have settles : Regime.apart.Settles
              (host.dispatcher.executeWithStore true host.scriptConnection command) :=
            Dispatcher.settles_privately host.scriptConnection command
          obtain ⟨other, next, ran, rfl, kept⟩ := ends_paired (Mirrors moment key unasked)
            (fun effect state shadow answer after fair related staged =>
              command_mirrored related fair staged)
            (fun state shadow later related (same : state = later) => ⟨shadow, rfl, same ▸ related⟩)
            settles mirrors ends
          refine ⟨next, ⟨result, ?_, rfl⟩, kept⟩
          cases command with
          | nil => exact ran
          | cons first rest =>
              refine Dispatcher.executes_directly ?_ ran
              intro info found own
              obtain ⟨listed, spelled⟩ := Dispatcher.command_listed found own
              exact allowed_keyed (folds _) listed spelled (refuses_none refused)

end Alone

/-! The script as a whole. -/

variable {call : ScriptCall} {runtime ended : ω} {answer : Except RedisError Reply} {left : ScriptState}

theorem read_declared_alone (declared : call.keys = [key]) :
    (readDeclared call : ScriptTask ω (Option Current)).run.Ends (Alone moment runtime) Eq cluster
      (.ok (cluster.shown key)) (cluster.showing 0 key) := by
  unfold readDeclared
  rw [declared]
  exact ends_lift (ends_then Cluster.chained Cluster.connect_served Cluster.read_served)

theorem run_privately_alone {current : Option Current}
    (gives : (host.attempt call runtime current).Gives moment.Tells ((answer, ended), left)) :
    (host.runPrivately call current).run.Ends (Alone moment runtime) Eq cluster
      (.ok (answer, left)) cluster := by
  have tells : ∀ {γ : Type} (effect : HostEffect γ) (answer : γ) (cluster : Cluster),
      moment.Tells effect answer →
      Alone moment runtime (ScriptEffect.host effect : ScriptEffect ω γ) cluster answer cluster :=
        fun _ _ _ told => ⟨told, rfl⟩
  have taken : (ask .takeRuntime : ScriptTask ω ω).run.Ends (Alone moment runtime) Eq cluster
      (.ok runtime) cluster :=
    ⟨cluster, runtime, cluster, rfl, ⟨rfl, rfl⟩, rfl, rfl⟩
  have put : (ask (.putRuntime ended) : ScriptTask ω Unit).run.Ends (Alone moment runtime) Eq
      cluster (.ok ()) cluster :=
    ⟨cluster, (), cluster, rfl, rfl, rfl, rfl⟩
  have attempted : (ExceptT.lift ((host.attempt call runtime current).lift .host) : ScriptTask ω
      _).run.Ends (Alone moment runtime) Eq
      cluster (.ok ((answer, ended), left)) cluster :=
        ends_bind Cluster.chained (gives_ends tells cluster gives) ⟨rfl, rfl⟩
  exact ends_then Cluster.chained taken
    (ends_then Cluster.chained attempted (ends_then Cluster.chained put ⟨rfl, rfl⟩))

/-- What was staged is stored; where nothing was, nothing is. -/
theorem commit_alone (cluster shadow : Cluster) (declared : left.key = some key)
    (expected : left.snapshot.expected = (cluster.shown key).map (·.version))
    (clean : left.snapshot.dirty = false → left.snapshot.current = cluster.shown key)
    (same : shadow.now = cluster.now)
    (shown : Option.Rel Decide.SameRecord left.snapshot.current (shadow.shown key)) :
    ∃ published, left.commit.run.Ends (Cluster.Served 0) Eq cluster (.ok true) published ∧
      Option.Rel Decide.SameRecord (published.shown key) (shadow.shown key) ∧
      published.now = cluster.now ∧ ∀ other, other ≠ key → published.records other =
        cluster.records other := by
  have met : (ScriptState.expect left.snapshot.expected).Met (cluster.shown key) := by
    rw [expected, ScriptState.expect_read]
    exact expected_for_met _
  have apart : ∀ (stored : Option Current) other, other ≠ key →
      (cluster.storing 0 key stored).records other = cluster.records other :=
    fun _ other differs => if_neg differs
  unfold ScriptState.commit
  cases dirty : left.snapshot.dirty with
  -- Nothing was staged: what was read still stands.
  | false => exact ⟨cluster, ⟨rfl, rfl⟩, clean dirty ▸ shown, rfl, fun _ _ => rfl⟩
  | true =>
      rw [declared]
      cases current : left.snapshot.current with
      | none =>
          rw [current] at shown
          have erased : (askOrFail
              (.deleteIf key (ScriptState.expect left.snapshot.expected))).run.Ends
              (Cluster.Served 0) Eq cluster
              (.ok (some (Cluster.erased cluster.nextVersion))) (cluster.storing 0 key none) :=
            Cluster.conditional_served (.delete key (ScriptState.expect left.snapshot.expected))
              Cluster.erased rfl met rfl
          refine ⟨_, ends_then Cluster.chained erased ⟨rfl, rfl⟩, ?_, rfl, apart none⟩
          rw [Cluster.shown_storing]
          exact shown
      | some record =>
          rw [current] at shown
          cases found : shadow.shown key with
          | none =>
              rw [found] at shown
              exact absurd shown (by simp)
          | some seen =>
              rw [found] at shown
              have alike : Decide.SameRecord record seen := by simpa using shown
              -- What the direct run shows is alive, so its deadline is one the put can carry.
              have future : ∀ millis ∈ record.deadline, cluster.now < millis := by
                intro millis due
                exact same ▸ Mirrors.shown_future found millis (alike.2 ▸ due)
              have leaves : (expiryOf record.deadline).leaves (cluster.shown key) = record.deadline :=
                (Change.expiry_of_leaves _ _).trans (Mirrors.future_stored future)
              have writes : (AskedWrite.put key record.value (expiryOf record.deadline)
                  (some (ScriptState.expect left.snapshot.expected))).stores
                    (cluster.shown key) cluster.nextVersion =
                  some (some { value := record.value, deadline := record.deadline
                               version := cluster.nextVersion }) := by
                rw [AskedWrite.stores, leaves]
              have fits : (AskedWrite.put key record.value (expiryOf record.deadline)
                  (some (ScriptState.expect left.snapshot.expected))).Met (cluster.shown key) :=
                fun condition given => Option.some.inj given ▸ met
              have wrote : (askOrFail (.putIf key record.value (expiryOf record.deadline)
                  (ScriptState.expect left.snapshot.expected))).run.Ends
                  (Cluster.Served 0) Eq cluster
                    (.ok (some (Cluster.acknowledged cluster.nextVersion))) (cluster.storing 0 key
                    (some { value := record.value, deadline := record.deadline
                            version := cluster.nextVersion })) :=
                Cluster.conditional_served (.put key record.value (expiryOf record.deadline)
                  (some (ScriptState.expect left.snapshot.expected))) Cluster.acknowledged rfl fits writes
              refine ⟨_, ends_then Cluster.chained wrote ⟨rfl, rfl⟩, ?_, rfl, apart _⟩
              have alive : ({ value := record.value, deadline := record.deadline
                              version := cluster.nextVersion } : Current).alive cluster.now = true :=
                Mirrors.future_alive future
              rw [Cluster.shown_storing, shownAt, Option.filter_some, if_pos alive]
              exact .some alike

theorem round_alone {published : Cluster} (declared : call.keys = [key])
    (gives : (host.attempt call runtime (cluster.shown key)).Gives moment.Tells ((answer, ended), left))
    (commits : left.commit.run.Ends (Cluster.Served 0) Eq (cluster.showing 0 key) (.ok true) published) :
    (host.round call ()).run.Ends (Alone moment runtime) Eq cluster (.ok (.inr answer)) published := by
  refine ends_then Cluster.chained (read_declared_alone declared) ?_
  refine ends_then Cluster.chained (run_privately_alone gives) ?_
  rw [declared]
  exact ends_then Cluster.chained (ends_lift commits) ⟨rfl, rfl⟩

theorem run_alone {published : Cluster} (declared : call.keys = [key])
    (turn : (host.round call ()).run.Ends (Alone moment runtime) Eq cluster
      (.ok (.inr answer)) published) :
    (host.run call).run.Ends (Alone moment runtime) Eq cluster answer published := by
  have entered : ∀ cluster : Cluster, (ask .enter : ScriptTask ω Unit).run.Ends
      (Alone moment runtime) Eq cluster (.ok ()) cluster :=
    fun cluster => ⟨cluster, (), cluster, rfl, rfl, rfl, rfl⟩
  have left : ∀ cluster : Cluster, (ask .leave : ScriptTask ω Unit).run.Ends (Alone moment runtime)
      Eq cluster (.ok ()) cluster :=
    fun cluster => ⟨cluster, (), cluster, rfl, rfl, rfl, rfl⟩
  have looped : (Program.attempt (tryLoop (host.round call) ())).run.Ends (Alone moment runtime) Eq
      cluster (.ok (.ok answer)) published :=
    ends_bind Cluster.chained (ends_loop Cluster.chained rfl turn) ⟨rfl, rfl⟩
  unfold run
  rw [if_neg (by simp [declared])]
  refine ends_then Cluster.chained (entered cluster)
    (ends_then Cluster.chained looped (ends_then Cluster.chained (left published) ?_))
  cases answer with
  | ok reply => exact ⟨rfl, rfl⟩
  | error error => exact ⟨rfl, rfl⟩

/-- A script that runs alone answers what its commands would, sent one after another,
and leaves under every key what they would have left. -/
theorem script_as_commands (host : Host ω) (call : ScriptCall) (key : Bytes) (moment : HostMoment)
    (runtime ended : ω)
    (cluster : Cluster) (answer : Except RedisError Reply) (left : ScriptState)
    (folds : ∀ text, asciiLowercase (host.dispatcher.runtime.lowercase text) =
      host.dispatcher.runtime.lowercase text)
    (declared : call.keys = [key]) (now : cluster.now = moment.now)
    (sized : ∀ record ∈ cluster.shown key, record.value.length ≤ maxValueBytesCeiling)
    (ran : (host.interpret runtime call).Ends (host.Privately moment call.keys) Eq
      (.new (some key) (cluster.shown key))
      (answer, ended) left) :
    ∃ published last, (host.run call).run.Ends (Alone moment runtime) Eq cluster answer published ∧
      (host.interpret runtime call).Ends (host.Directly moment call.keys) Eq cluster
        (answer, ended) last ∧
      ∀ other, Option.Rel Decide.SameRecord (published.shown other) (last.shown other) := by
  -- In private the script works on a copy of its key; its commands work on the cluster.
  have mirrors : Mirrors moment key cluster.records (.new (some key) (cluster.shown key)) cluster := by
    refine ⟨rfl, now, ?_, sized, fun _ _ => rfl⟩
    show Option.Rel Decide.SameRecord (cluster.shown key) (cluster.shown key)
    cases cluster.shown key with
    | none => exact .none
    | some record => exact .some ⟨rfl, rfl⟩
  obtain ⟨last, direct, kept⟩ := ends_simulated (Mirrors moment key cluster.records)
    (fun command state shadow answer after related done_ => call_mirrored folds command state shadow
      answer after related done_)
    (fun state shadow later related (same : state = later) => ⟨shadow, rfl, same ▸ related⟩) mirrors ran
  have gives : (host.attempt call runtime (cluster.shown key)).Gives moment.Tells
      ((answer, ended), left) := by
    unfold attempt
    rw [declared] at ran ⊢
    exact ends_threaded privately_gives ran
  have within : (ScriptState.new (some key) (cluster.shown key)).Within left := by
    have attempted : host.Ran call (cluster.shown key) answer left :=
      ⟨runtime, ended, gives_weaken (fun _ _ _ => trivial) gives⟩
    simpa [declared] using ran_within attempted
  have clean : left.snapshot.dirty = false → left.snapshot.current = (cluster.showing 0 key).shown key :=
    fun untouched => congrArg (fun state => state.snapshot.current) (within.clean untouched)
  obtain ⟨published, commits, same, clock, apart⟩ := commit_alone (cluster.showing 0 key) last
    (within.key.trans rfl) within.expected clean (kept.now.trans now.symm) kept.shown
  refine ⟨published, last, run_alone declared (round_alone declared gives commits), direct,
    fun other => ?_⟩
  -- The write stores what the commands left there; neither run touches another key.
  by_cases here : other = key
  · exact here ▸ same
  · have alike : published.shown other = last.shown other := by
      rw [Cluster.shown, Cluster.shown, clock, apart other here, kept.others other here, kept.now, ← now]
      rfl
    rw [alike]
    cases last.shown other with
    | none => exact .none
    | some record => exact .some ⟨rfl, rfl⟩

end Host

/-! A script that appends twice, in private and at its cluster. -/
namespace ScriptSample

def moment : HostMoment := ⟨5, 0, 0⟩

/-- The private store once so much has been staged. -/
def staged (value : Bytes) : ScriptState where
  key := some UpdateSample.key
  snapshot :=
    { expected := some UpdateSample.record.version, current := some { UpdateSample.record with value }
      dirty := true }

theorem staged_append (state : ScriptState) (value : Bytes) (part : Nat)
    (declared : state.key = some UpdateSample.key)
    (expected : state.snapshot.expected = some UpdateSample.record.version)
    (current : state.snapshot.current = some { UpdateSample.record with value })
    (short : value.length < 3) :
    host.Privately moment [UpdateSample.key] (append part) state (.ok (.integer (value.length + 1)))
      (staged (value ++ [byte part])) := by
  have passes :
      host.refuses [UpdateSample.key] [utf8 "append", UpdateSample.key, [byte part]] = none := rfl
  simp only [Host.Privately, Host.Runs, append, passes]
  have asks : host.dispatcher.executeWithStore true host.scriptConnection
      [utf8 "append", UpdateSample.key, [byte part]] =
      (Program.call (.store (.one
        (.update UpdateSample.key
        (Strings.appendDecide host.dispatcher.limits.maxBulkBytes [byte part]))))).andThen
        fun result => .done (Dispatcher.answered host.scriptConnection result) := rfl
  rw [asks]
  have fits : ¬host.dispatcher.limits.maxBulkBytes < value.length + [byte part].length := by
    show ¬16 * 1024 * 1024 < value.length + 1
    omega
  -- The command decides on the staged value, which the script put there itself.
  have decided : Strings.appendDecide host.dispatcher.limits.maxBulkBytes [byte part] moment.now
      state.snapshot.current =
      .ok (.put (value ++ [byte part]) none (.integer (value.length + 1))) := by
    simp only [Strings.appendDecide, current, valueOf, Option.map_some, Option.getD_some, if_neg fits]
    simp [kept, UpdateSample.record]
  have sized : (value ++ [byte part]).length ≤ maxValueBytesCeiling := by
    simp only [List.length_append, List.length_singleton, maxValueBytesCeiling]
    omega
  have applied : state.apply UpdateSample.key state.snapshot.current
      (.put (value ++ [byte part]) none (.integer (value.length + 1) : Reply)) =
      some (.ok (.integer (value.length + 1)), staged (value ++ [byte part])) := by
    have staging : ∀ record ∈ some
        (⟨value ++ [byte part], none, ScriptState.versionOf state.snapshot.current⟩ : Current),
        record.value.length ≤ maxValueBytesCeiling := by
      rintro _ ⟨⟩
      exact sized
    simp only [ScriptState.apply, ScriptState.write_declared declared staging, ScriptState.settle]
    rw [declared, expected, current]
    rfl
  refine ⟨_, ⟨state, .ok (.integer (value.length + 1)), staged (value ++ [byte part]), rfl,
    ⟨⟨declared, ?_⟩, ?_⟩, rfl, rfl⟩, rfl⟩
  · intro change same
    obtain rfl := Except.ok.inj (decided.symm.trans same)
    exact ⟨sized, by simp⟩
  · show (state.update _ _).Gives _ _
    unfold ScriptState.update
    rw [ScriptState.read_declared declared]
    refine gives_then.mpr ⟨moment.now, ⟨moment.now, rfl, rfl⟩, ?_⟩
    simp only [decided, applied]
    rfl

theorem ran : (host.interpret () call).Ends (host.Privately moment call.keys) Eq
    (.new (some UpdateSample.key) (UpdateSample.cluster.shown UpdateSample.key)) (.ok (.integer 3), ())
    (staged [byte 1, byte 2, byte 3]) :=
  ⟨_, _, _, rfl, staged_append _ [byte 1] 2 rfl rfl rfl (by decide), _, _, _, rfl,
    staged_append _ [byte 1, byte 2] 3 rfl rfl rfl (by decide), rfl, rfl⟩

/-- What is in lower case stays as it is. -/
theorem folds (text : String) :
    asciiLowercase (host.dispatcher.runtime.lowercase text) = host.dispatcher.runtime.lowercase text := by
  show String.ofList ((String.ofList (text.toList.map Char.toLower)).toList.map Char.toLower) =
    String.ofList (text.toList.map Char.toLower)
  simp only [String.toList_ofList, List.map_map, Function.comp_def, Char.toLower_toLower_eq_toLower]

theorem script_as_commands_append : ∃ published last : Cluster,
    (host.run call).run.Ends (Host.Alone moment ()) Eq UpdateSample.cluster (.ok (.integer 3)) published ∧
      (host.interpret () call).Ends (host.Directly moment call.keys) Eq UpdateSample.cluster
        (.ok (.integer 3), ()) last ∧
      ∀ other, Option.Rel Decide.SameRecord (published.shown other) (last.shown other) := by
  refine Host.script_as_commands host call UpdateSample.key moment () () UpdateSample.cluster
    (.ok (.integer 3))
    (staged [byte 1, byte 2, byte 3]) folds rfl rfl ?_ ran
  rintro _ ⟨⟩
  decide

end ScriptSample
end Hashring
