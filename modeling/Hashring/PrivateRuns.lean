import Hashring.AtomicScripts
import Hashring.PlainCommands

/-! Commands on a private store do what they would do at a cluster that nobody else
uses, as long as what they stage would be kept there: no value above the ceiling,
and no deadline that has already passed. -/
namespace Hashring

open Program

/-- What the gateway's process answers at one moment. -/
structure HostMoment where
  now : Nat
  uptime : Nat
  instanceId : Nat

def HostMoment.answer (moment : HostMoment) : {γ : Type} → HostEffect γ → γ
  | _, .now => moment.now
  | _, .uptime => moment.uptime
  | _, .instanceId => moment.instanceId

def HostMoment.Tells (moment : HostMoment) {γ : Type} (effect : HostEffect γ) (answer : γ) : Prop :=
  answer = moment.answer effect

/-- What the change stages would be kept, and is still to be seen. -/
def Change.Fits {α : Type} (now : Nat) : Change α → Prop
  | .put value deadline _ => value.length ≤ maxValueBytesCeiling ∧ ∀ millis ∈ deadline, now < millis
  | .expire deadline _ => ∀ millis ∈ deadline, now < millis
  | .delete _ | .nothing _ => True

namespace KeyEffect

def Fits (now : Nat) (state : ScriptState) {γ : Type} : KeyEffect γ → Prop
  | .read key => state.key = some key
  | .put key value expiry => state.key = some key ∧ value.length ≤ maxValueBytesCeiling ∧
      ∀ millis, expiry = .atMillis millis → now < millis
  | .putIfAbsent key value => state.key = some key ∧ value.length ≤ maxValueBytesCeiling
  | .update key decide => state.key = some key ∧ ∀ change, decide now state.snapshot.current =
      .ok change → change.Fits now

/-- A request of the declared key, carried out in private. -/
def Stages (moment : HostMoment) {γ : Type} (effect : KeyEffect γ) (state : ScriptState)
    (answer : γ) (after : ScriptState) : Prop :=
  effect.Fits moment.now state ∧ (effect.overlaid state).Gives moment.Tells (answer, after)

def StagesAll (moment : HostMoment) {γ : Type} : List (KeyEffect γ) → ScriptState → List γ →
    ScriptState → Prop
  | [], state, answers, after => answers = [] ∧ after = state
  | effect :: rest, state, answers, after => ∃ answer others middle,
      effect.Stages moment state answer middle ∧
      StagesAll moment rest middle others after ∧ answers = answer :: others

end KeyEffect

/-- Every request but those of the client itself. -/
def StoreEffect.Stages (moment : HostMoment) {γ : Type} : StoreEffect γ → ScriptState → γ →
    ScriptState → Prop
  | .now, state, answer, after => answer = moment.now ∧ after = state
  | .one effect, state, answer, after => effect.Stages moment state answer after
  | .all effects, state, answer, after => KeyEffect.StagesAll moment effects state answer after
  | .client, _, _, _ | .putIf _ _ _ _, _, _, _ | .deleteIf _ _, _, _, _ => False

def Cluster.Served (label : Nat) {γ : Type} (call : ClientCall γ) (cluster : Cluster) (answer : γ)
    (after : Cluster) : Prop :=
  (answer, after) = Cluster.serve label call cluster

def Cluster.LabelledServed {γ : Type} : Labelled ClientCall γ → Cluster → γ → Cluster → Prop
  | .mk label call, cluster, answer, after => Cluster.Served label call cluster answer after

/-- The request, made to a cluster that nobody else uses. -/
def StoreEffect.Alone {γ : Type} (effect : StoreEffect γ) (cluster : Cluster) (answer : γ)
    (after : Cluster) : Prop :=
  effect.cluster.Ends Cluster.LabelledServed Eq cluster answer after

/-- The private store and the cluster show the same under the declared key; the other
keys hold what they held. -/
structure Mirrors (moment : HostMoment) (key : Bytes) (unasked : Bytes → Option Current)
    (state : ScriptState) (cluster : Cluster) : Prop where
  declared : state.key = some key
  now : cluster.now = moment.now
  shown : Option.Rel Decide.SameRecord state.snapshot.current (cluster.shown key)
  sized : ∀ record ∈ state.snapshot.current, record.value.length ≤ maxValueBytesCeiling
  others : ∀ other, other ≠ key → cluster.records other = unasked other

namespace Cluster

variable {label : Nat} {cluster : Cluster} {key : Bytes}

theorem chained : ∀ first second third : Cluster, first = second → second = third → first = third :=
  fun _ _ _ early late => early.trans late

theorem ask_served {γ : Type} (call : ClientCall γ) :
    (ask call).run.Ends (Served label) Eq cluster (.ok (serve label call cluster).1)
    (serve label call cluster).2 :=
  ⟨cluster, _, _, rfl, rfl, rfl, rfl⟩

theorem connect_served : sharedClient.run.Ends (Served label) Eq cluster (.ok ()) cluster :=
  ends_then chained (ask_served .connect) ⟨rfl, rfl⟩

theorem read_served : (readWith key).run.Ends (Served label) Eq cluster (.ok (cluster.shown key))
    (cluster.showing label key) := by
  refine ends_then chained (ask_served (.get key)) ?_
  cases shown : cluster.shown key with
  | none =>
      simp only [serve, shown]
      exact ⟨rfl, rfl⟩
  | some record =>
      simp only [serve, shown]
      exact ⟨rfl, rfl⟩

theorem shown_storing {stored : Option Current} :
    (cluster.storing label key stored).shown key = shownAt cluster.now stored := by
  simp [shown, storing]

def acknowledged (version : RecordVersion) : PutOutput := { version, topologyEpoch := 1 }

def erased (version : RecordVersion) : HashringClient.DeleteOutput := { version, topologyEpoch := 1 }

theorem conditional_served {ρ : Type} {call : ClientCall (Except ClientError (Option ρ))}
    (asked : AskedWrite) (output : RecordVersion → ρ) {stored : Option Current}
    (asks : serve label call cluster = cluster.served label asked output)
    (met : asked.Met (cluster.shown asked.key))
    (stores : asked.stores (cluster.shown asked.key) cluster.nextVersion = some stored) :
    (askOrFail call).run.Ends (Served label) Eq cluster (.ok (some (output cluster.nextVersion)))
      (cluster.storing label asked.key stored) := by
  have written : serve label call cluster =
      (.ok (some (output cluster.nextVersion)), cluster.storing label asked.key stored) := by
    rw [asks, served, write, if_pos met, stores]
    rfl
  refine ends_then chained (ask_served call) ?_
  rw [written]
  exact ⟨rfl, rfl⟩

theorem put_served (key value : Bytes) (expiry : Expiry) :
    (askOrFail (.putWithExpiry key value expiry)).run.Ends (Served label) Eq cluster
      (.ok (acknowledged cluster.nextVersion))
      (cluster.storing label key
        (some { value, deadline := expiry.leaves (cluster.shown key), version := cluster.nextVersion })) := by
  have written : serve label (.putWithExpiry key value expiry) cluster =
      (.ok (acknowledged cluster.nextVersion),
      cluster.storing label key
          (some { value, deadline := expiry.leaves (cluster.shown key), version := cluster.nextVersion })) := by
    have met : (AskedWrite.put key value expiry none).Met (cluster.shown key) :=
      fun _ impossible => absurd impossible (by simp)
    have wrote : cluster.write label (.put key value expiry none) = some _ := if_pos met
    simp only [serve, wrote]
    rfl
  refine ends_then chained (ask_served (.putWithExpiry key value expiry)) ?_
  rw [written]
  exact ⟨rfl, rfl⟩

theorem claim_served {value : Bytes} (free : cluster.shown key = none) :
    (askOrFail (.putIf key value .clear .absent)).run.Ends (Served label) Eq cluster
      (.ok (some (acknowledged cluster.nextVersion)))
      (cluster.storing label key (some { value, deadline := none, version := cluster.nextVersion })) := by
  have met : (AskedWrite.put key value .clear (some .absent)).Met (cluster.shown key) := by
    rintro _ ⟨⟩
    exact free
  exact conditional_served (.put key value .clear (some .absent)) acknowledged rfl met rfl

theorem claimed_served {value : Bytes} (taken : cluster.shown key ≠ none) :
    (askOrFail (.putIf key value .clear .absent)).run.Ends (Served label) Eq cluster
      (.ok none) cluster := by
  have unmet : ¬(AskedWrite.put key value .clear (some .absent)).Met (cluster.shown key) :=
    fun met => taken (met .absent rfl)
  have refused : serve label (.putIf key value .clear .absent) cluster = (.ok none, cluster) := by
    have wrote : cluster.write label (.put key value .clear (some .absent)) = none := if_neg unmet
    simp only [serve, served, wrote]
  refine ends_then chained (ask_served (.putIf key value .clear .absent)) ?_
  rw [refused]
  exact ⟨rfl, rfl⟩

theorem locked_served {α : Type} {body : StoreTask α} {result : Except RedisError α} {next : Cluster}
    (ends : body.run.Ends (Served label) Eq cluster result next) :
    (underKeyLock key body).run.Ends (Served label) Eq cluster result next := by
  refine ends_then chained (ask_served (.lock (stripeOf key))) ?_
  have tried : (Program.attempt body).run.Ends (Served label) Eq cluster (.ok result) next :=
    ends_bind chained ends ⟨rfl, rfl⟩
  refine ends_then chained tried (ends_then chained (ask_served (.unlock (stripeOf key))) ?_)
  cases result with
  | ok value => exact ⟨rfl, rfl⟩
  | error error => exact ⟨rfl, rfl⟩

variable {α : Type} {decide : Decide α}

theorem update_fails {error : RedisError}
    (decides : decide cluster.now (cluster.shown key) = .error error) :
    (KeyEffect.update key decide).cluster.Ends (Served label) Eq cluster (.error error)
    (cluster.showing label key) := by
  refine locked_served (ends_then chained connect_served (ends_loop_error chained rfl ?_))
  refine ends_then chained read_served (ends_then chained (ask_served .now) ?_)
  simp only [serve, showing, decides]
  exact ⟨rfl, rfl⟩

/-- Nothing is written. -/
theorem update_keeps {reply : α}
    (decides : decide cluster.now (cluster.shown key) = .ok (.nothing reply)) :
    (KeyEffect.update key decide).cluster.Ends (Served label) Eq cluster (.ok reply)
    (cluster.showing label key) := by
  refine locked_served (ends_then chained connect_served (ends_loop chained rfl ?_))
  refine ends_then chained read_served (ends_then chained (ask_served .now) ?_)
  simp only [serve, showing, decides]
  exact ⟨rfl, rfl⟩

theorem update_stores {change : Change α} {asked : AskedWrite} {stored : Option Current}
    (decides : decide cluster.now (cluster.shown key) = .ok change)
    (asks : change.asks key (cluster.shown key) = some asked)
    (stores : asked.stores (cluster.shown key) (cluster.showing label key).nextVersion = some stored) :
    (KeyEffect.update key decide).cluster.Ends (Served label) Eq cluster (.ok change.reply)
      ((cluster.showing label key).storing label key stored) := by
  have clock : (serve label .now (cluster.showing label key)).1 = cluster.now := rfl
  have kept : (expectedFor (cluster.shown key)).Met ((cluster.showing label key).shown key) :=
    expected_for_met _
  refine locked_served (ends_then chained connect_served (ends_loop chained rfl ?_))
  refine ends_then chained read_served (ends_then chained (ask_served .now) ?_)
  rw [clock, decides]
  -- Each change ends in one conditional write, which meets what was read.
  cases change with
  | nothing reply => exact absurd asks (by simp [Change.asks])
  | put value deadline reply =>
      obtain rfl := Option.some.inj asks
      have met : (AskedWrite.put key value (expiryOf deadline)
          (some (expectedFor (cluster.shown key)))).Met
          ((cluster.showing label key).shown key) :=
        fun expected same => Option.some.inj same ▸ kept
      have went : (askOrFail (.putIf key value (expiryOf deadline)
          (expectedFor (cluster.shown key)))).run.Ends (Served label) Eq
          (cluster.showing label key) (.ok (some (acknowledged (cluster.showing label key).nextVersion)))
          ((cluster.showing label key).storing label key stored) :=
        conditional_served (.put key value (expiryOf deadline)
          (some (expectedFor (cluster.shown key)))) acknowledged rfl met stores
      exact ends_then chained went ⟨rfl, rfl⟩
  | expire deadline reply =>
      obtain rfl := Option.some.inj asks
      have went : (askOrFail (.setExpiryIf key deadline (expectedFor (cluster.shown key)))).run.Ends
          (Served label) Eq
          (cluster.showing label key) (.ok (some (acknowledged (cluster.showing label key).nextVersion)))
          ((cluster.showing label key).storing label key stored) :=
        conditional_served (.expire key deadline (expectedFor (cluster.shown key))) acknowledged rfl
          kept stores
      exact ends_then chained went ⟨rfl, rfl⟩
  | delete reply =>
      obtain rfl := Option.some.inj asks
      have went : (askOrFail (.deleteIf key (expectedFor (cluster.shown key)))).run.Ends (Served label) Eq
          (cluster.showing label key) (.ok (some (erased (cluster.showing label key).nextVersion)))
          ((cluster.showing label key).storing label key stored) :=
        conditional_served (.delete key (expectedFor (cluster.shown key))) erased rfl kept stores
      exact ends_then chained went ⟨rfl, rfl⟩

end Cluster

namespace ScriptState

variable {state : ScriptState} {key : Bytes}

theorem read_declared (declared : state.key = some key) :
    state.read key = .ok state.snapshot.current := by
  simp [read, checkKey, declared, bind, Except.bind, pure, Except.pure]

theorem write_declared (declared : state.key = some key) {value : Option Current}
    (sized : ∀ record ∈ value, record.value.length ≤ maxValueBytesCeiling) :
    state.write key value = .ok
      { state with snapshot := { state.snapshot with current := value, dirty := true } } := by
  have fits :
      (value.any fun current => decide (maxValueBytesCeiling < current.value.length)) = false := by
    cases value with
    | none => rfl
    | some record => simpa using sized record rfl
  simp [write, checkKey, declared, fits, bind, Except.bind, pure, Except.pure]

end ScriptState

/-! One request, in private and at the cluster. -/

namespace Mirrors

variable {moment : HostMoment} {key : Bytes} {unasked : Bytes → Option Current}
  {state after : ScriptState} {cluster : Cluster} {label : Nat}

open Cluster (chained connect_served)

/-- Reading leaves both as they are. -/
theorem showing (mirrors : Mirrors moment key unasked state cluster) :
    Mirrors moment key unasked state (cluster.showing label key) :=
  ⟨mirrors.declared, mirrors.now, mirrors.shown, mirrors.sized, mirrors.others⟩

theorem storing (mirrors : Mirrors moment key unasked state cluster) {staged stored : Option Current}
    (same : Option.Rel Decide.SameRecord staged stored)
    (live : ∀ record ∈ stored, record.alive moment.now = true)
    (sized : ∀ record ∈ staged, record.value.length ≤ maxValueBytesCeiling) :
    Mirrors moment key unasked
      { state with snapshot := { state.snapshot with current := staged, dirty := true } }
      (cluster.storing label key stored) where
  declared := mirrors.declared
  now := mirrors.now
  shown := by
    have seen : shownAt cluster.now stored = stored := by
      cases stored with
      | none => rfl
      | some record => simp [shownAt, Option.filter, mirrors.now, live record rfl]
    rw [Cluster.shown_storing, seen]
    exact same
  sized := sized
  others other apart := by
    simp only [Cluster.storing, if_neg apart]
    exact mirrors.others other apart

theorem future_stored {now : Nat} {deadline : Option Nat} (future : ∀ millis ∈ deadline, now < millis) :
    storedDeadline deadline = deadline := by
  cases deadline with
  | none => rfl
  | some millis =>
      have positive : millis ≠ 0 := Nat.ne_of_gt (Nat.zero_lt_of_lt (future millis rfl))
      simp [storedDeadline, Option.filter, positive]

theorem future_alive {now : Nat} {record : Current} (future : ∀ millis ∈ record.deadline, now < millis) :
    record.alive now = true := by
  unfold Current.alive
  cases deadline : record.deadline with
  | none => rfl
  | some millis => simpa using future millis deadline

theorem shown_future {record : Current} (shown : cluster.shown key = some record) :
    ∀ millis ∈ record.deadline, cluster.now < millis := by
  intro millis due
  have alive := (Option.filter_eq_some_iff.mp shown).2
  simp only [Current.alive, Option.mem_def.mp due, Option.all_some, decide_eq_true_eq] at alive
  exact alive

section Deciding

variable {α : Type} {decide : Decide α} {answer : Except RedisError α}

theorem update_own (mirrors : Mirrors moment key unasked state cluster)
    (gives : (state.update key decide).Gives moment.Tells (answer, after)) :
    (∃ error, decide moment.now state.snapshot.current = .error error ∧ answer = .error error ∧
      after = state) ∨
      ∃ change, decide moment.now state.snapshot.current = .ok change ∧
        state.apply key state.snapshot.current change = some (answer, after) := by
  unfold ScriptState.update at gives
  rw [ScriptState.read_declared mirrors.declared] at gives
  obtain ⟨now, ⟨_, rfl, rfl⟩, gives⟩ := gives_then.mp gives
  simp only [HostMoment.answer] at gives
  cases decided : decide moment.now state.snapshot.current with
  | error error =>
      rw [decided] at gives
      obtain ⟨rfl, rfl⟩ := Prod.mk.inj gives
      exact .inl ⟨error, rfl, rfl, rfl⟩
  | ok change =>
      rw [decided] at gives
      simp only at gives
      split at gives
      · exact gives.elim
      · rename_i ended applied
        exact .inr ⟨change, rfl, applied.trans (congrArg some gives.symm)⟩

variable (label) in
theorem change_mirrored {change : Change α} (mirrors : Mirrors moment key unasked state cluster)
    (fits : change.Fits moment.now) (decided : decide cluster.now (cluster.shown key) = .ok change)
    (applied : state.apply key state.snapshot.current change = some (answer, after)) :
    answer = .ok change.reply ∧ ∃ next, (KeyEffect.update key decide).cluster.Ends
      (Cluster.Served label) Eq cluster
      (.ok change.reply) next ∧ Mirrors moment key unasked after next := by
  have shows : Mirrors moment key unasked state (cluster.showing label key) := mirrors.showing
  cases change with
  | nothing reply =>
      obtain ⟨rfl, rfl⟩ := Prod.mk.inj (Option.some.inj applied)
      exact ⟨rfl, _, Cluster.update_keeps decided, shows⟩
  | put value deadline reply =>
      have sized : ∀ record ∈ some
          (⟨value, deadline, ScriptState.versionOf state.snapshot.current⟩ : Current),
          record.value.length ≤ maxValueBytesCeiling := fun record same => Option.some.inj same ▸ fits.1
      simp only [ScriptState.apply, ScriptState.write_declared mirrors.declared sized,
        ScriptState.settle, Option.some.injEq] at applied
      obtain ⟨rfl, rfl⟩ := Prod.mk.inj applied
      refine ⟨rfl, _, Cluster.update_stores decided rfl rfl, shows.storing (.some ⟨rfl, ?_⟩) ?_ sized⟩
      · exact ((Change.expiry_of_leaves deadline _).trans (future_stored fits.2)).symm
      · intro record same
        obtain rfl := Option.some.inj same
        refine future_alive ?_
        show ∀ millis ∈ (expiryOf deadline).leaves _, _
        rw [Change.expiry_of_leaves, future_stored fits.2]
        exact fits.2
  | expire deadline reply =>
      -- Both sides show alike, so a key is either there in both or in neither.
      have related := mirrors.shown
      revert applied related
      cases own : state.snapshot.current with
      | none => exact fun applied _ => absurd applied (by simp [ScriptState.apply])
      | some record =>
          intro applied related
          cases kept : cluster.shown key with
          | none =>
              rw [kept] at related
              exact absurd related (by simp)
          | some found =>
              rw [kept] at related
              -- Only the deadline is replaced; what was staged is as large as what was read.
              have same : Decide.SameRecord record found := by simpa using related
              have sized : ∀ changed ∈ some ({ record with deadline } : Current),
                  changed.value.length ≤ maxValueBytesCeiling := by
                rintro _ ⟨⟩
                exact mirrors.sized record own
              simp only [ScriptState.apply, Option.map_some,
                ScriptState.write_declared mirrors.declared sized, ScriptState.settle,
                Option.some.injEq] at applied
              obtain ⟨rfl, rfl⟩ := Prod.mk.inj applied
              have stores : (AskedWrite.expire key deadline
                  (expectedFor (cluster.shown key))).stores (cluster.shown key)
                  (cluster.showing label key).nextVersion = some (some { found with
                    deadline := (expiryOf deadline).leaves (some found)
                    version := (cluster.showing label key).nextVersion }) := by
                rw [kept]
                rfl
              refine ⟨rfl, _, Cluster.update_stores decided rfl stores,
                shows.storing (.some ⟨same.1, ?_⟩) ?_ sized⟩
              · exact ((Change.expiry_of_leaves deadline _).trans (future_stored fits)).symm
              · intro changed there
                obtain rfl := Option.some.inj there
                refine future_alive ?_
                show ∀ millis ∈ (expiryOf deadline).leaves _, _
                rw [Change.expiry_of_leaves, future_stored fits]
                exact fits
  | delete reply =>
      have sized : ∀ record ∈ (none : Option Current),
          record.value.length ≤ maxValueBytesCeiling := by simp
      simp only [ScriptState.apply, ScriptState.write_declared mirrors.declared sized,
        ScriptState.settle, Option.some.injEq] at applied
      obtain ⟨rfl, rfl⟩ := Prod.mk.inj applied
      exact ⟨rfl, _, Cluster.update_stores decided rfl rfl, shows.storing .none (by simp) sized⟩

theorem update_mirrored (mirrors : Mirrors moment key unasked state cluster)
    (blind : decide moment.now state.snapshot.current = decide moment.now (cluster.shown key))
    (fits : ∀ change, decide moment.now state.snapshot.current = .ok change → change.Fits moment.now)
    (gives : (state.update key decide).Gives moment.Tells (answer, after)) :
    ∃ next, (KeyEffect.update key decide).cluster.Ends (Cluster.Served label) Eq cluster answer next ∧
      Mirrors moment key unasked after next ∧
        ((∃ error, answer = .error error ∧ decide moment.now state.snapshot.current = .error error) ∨
          ∃ reply, answer = .ok reply ∧ decide.Gives reply) := by
  rcases update_own mirrors gives with ⟨error, decided, rfl, rfl⟩ | ⟨change, decided, applied⟩
  · have same : decide cluster.now (cluster.shown key) = .error error :=
      by rw [mirrors.now, ← blind, decided]
    exact ⟨_, Cluster.update_fails same, mirrors.showing, .inl ⟨error, rfl, decided⟩⟩
  · have same : decide cluster.now (cluster.shown key) = .ok change :=
      by rw [mirrors.now, ← blind, decided]
    obtain ⟨rfl, next, ends, kept⟩ := change_mirrored label mirrors (fits change decided) same applied
    exact ⟨next, ends, kept, .inr ⟨_, rfl, moment.now, _, change, decided, rfl⟩⟩

end Deciding

theorem put_deadline {value : Bytes} {expiry : Expiry}
    (mirrors : Mirrors moment key unasked state cluster)
    (fits : (KeyEffect.put key value expiry).Fits moment.now state) :
    expiry.leaves (cluster.shown key) = ScriptState.deadlineFor state.snapshot.current expiry ∧
      ∀ millis ∈ expiry.leaves (cluster.shown key), moment.now < millis := by
  cases expiry with
  | keep =>
      have same : kept state.snapshot.current = kept (cluster.shown key) := by
        have agrees : Option.Rel Regime.apart.same state.snapshot.current (cluster.shown key) :=
          mirrors.shown
        exact Regime.deadline_of_related agrees
      refine ⟨same.symm, fun millis due => ?_⟩
      obtain ⟨record, shown, due⟩ := Option.bind_eq_some_iff.mp due
      exact mirrors.now ▸ shown_future shown millis due
  | atMillis unixMillis =>
      have future := fits.2.2 unixMillis rfl
      have positive : unixMillis ≠ 0 := Nat.ne_of_gt (Nat.zero_lt_of_lt future)
      simp [Expiry.leaves, ScriptState.deadlineFor, positive, future]
  | clear => exact ⟨rfl, by simp [Expiry.leaves]⟩

variable (label) in
theorem put_mirrored {value : Bytes} {expiry : Expiry}
    (mirrors : Mirrors moment key unasked state cluster)
    (fits : (KeyEffect.put key value expiry).Fits moment.now state) :
    (state.put key value expiry).1 = .ok () ∧ ∃ next, (KeyEffect.put key value expiry).cluster.Ends
      (Cluster.Served label) Eq
      cluster (.ok ()) next ∧ Mirrors moment key unasked (state.put key value expiry).2 next := by
  obtain ⟨leaves, future⟩ := mirrors.put_deadline fits
  have sized : ∀ record ∈ some (⟨value, ScriptState.deadlineFor state.snapshot.current expiry,
      ScriptState.versionOf state.snapshot.current⟩ : Current), record.value.length ≤
          maxValueBytesCeiling := by
    rintro _ ⟨⟩
    exact fits.2.1
  have staged : state.put key value expiry = (.ok (), { state with snapshot := { state.snapshot with
      current := some ⟨value, ScriptState.deadlineFor state.snapshot.current expiry,
        ScriptState.versionOf state.snapshot.current⟩
      dirty := true } }) := by
    simp only [ScriptState.put, ScriptState.read_declared mirrors.declared,
      ScriptState.write_declared mirrors.declared sized, ScriptState.settle]
  rw [staged]
  refine ⟨rfl, _, ends_then chained connect_served
    (ends_then chained (Cluster.put_served key value expiry) ⟨rfl, rfl⟩), ?_⟩
  refine mirrors.storing (.some ⟨rfl, leaves.symm⟩) ?_ sized
  rintro _ ⟨⟩
  exact future_alive future

theorem claim_mirrored {value : Bytes} {answer : Except RedisError Bool}
    (mirrors : Mirrors moment key unasked state cluster)
    (fits : value.length ≤ maxValueBytesCeiling)
    (gives : (state.update key (claimAbsent value)).Gives moment.Tells (answer, after)) :
    ∃ other next, (KeyEffect.putIfAbsent key value).cluster.Ends (Cluster.Served label) Eq cluster
      other next ∧
      Agree RedisError.Plain Eq answer other ∧ Mirrors moment key unasked after next := by
  have present : state.snapshot.current.isSome = (cluster.shown key).isSome := by
    have agrees : Option.Rel Regime.apart.same state.snapshot.current (cluster.shown key) := mirrors.shown
    exact Regime.present_related agrees
  obtain ⟨_, decided, -, -⟩ | ⟨change, decided, applied⟩ := update_own mirrors gives
  · exact absurd decided (by simp [claimAbsent])
  · obtain rfl := Except.ok.inj decided
    by_cases taken : (cluster.shown key).isSome = true
    · rw [if_pos (present.trans taken)] at applied
      obtain ⟨rfl, rfl⟩ := Prod.mk.inj (Option.some.inj applied)
      have there : cluster.shown key ≠ none := fun missing => by simp [missing] at taken
      exact ⟨.ok false, _, ends_then chained connect_served
        (ends_then chained (Cluster.claimed_served there) ⟨rfl, rfl⟩), rfl, mirrors⟩
    · have free : cluster.shown key = none := by simpa using taken
      have sized : ∀ record ∈ some
          (⟨value, none, ScriptState.versionOf state.snapshot.current⟩ : Current),
          record.value.length ≤ maxValueBytesCeiling := by
        rintro _ ⟨⟩
        exact fits
      rw [if_neg (by rw [present]; exact taken)] at applied
      simp only [ScriptState.apply, ScriptState.write_declared mirrors.declared sized,
        ScriptState.settle, Option.some.injEq] at applied
      obtain ⟨rfl, rfl⟩ := Prod.mk.inj applied
      refine ⟨.ok true, _, ends_then chained connect_served
        (ends_then chained (Cluster.claim_served free) ⟨rfl, rfl⟩), rfl, ?_⟩
      refine mirrors.storing (.some ⟨rfl, rfl⟩) ?_ sized
      rintro _ ⟨⟩
      rfl

variable (label) in
theorem key_mirrored {γ : Type} {effect : KeyEffect γ} {answer : γ}
    (mirrors : Mirrors moment key unasked state cluster) (fair : Regime.apart.FairKey effect)
    (stages : effect.Stages moment state answer after) :
    ∃ other next, effect.cluster.Ends (Cluster.Served label) Eq cluster other next ∧
      Regime.apart.AgreesKey effect answer other ∧ Mirrors moment key unasked after next := by
  obtain ⟨fits, gives⟩ := stages
  cases effect with
  | read asked =>
      obtain rfl : key = asked := Option.some.inj (mirrors.declared.symm.trans fits)
      obtain ⟨rfl, rfl⟩ := Prod.mk.inj gives
      refine ⟨_, _, ends_then chained connect_served Cluster.read_served, ?_, mirrors.showing⟩
      rw [ScriptState.read_declared mirrors.declared]
      exact mirrors.shown
  | put asked value expiry =>
      obtain rfl : key = asked := Option.some.inj (mirrors.declared.symm.trans fits.1)
      obtain ⟨answered, next, ends, kept⟩ := put_mirrored label mirrors fits
      have put : (answer, after) = state.put key value expiry := gives
      obtain rfl : answer = .ok () := (congrArg Prod.fst put).trans answered
      obtain rfl : after = (state.put key value expiry).2 := congrArg Prod.snd put
      exact ⟨.ok (), next, ends, rfl, kept⟩
  | putIfAbsent asked value =>
      obtain rfl : key = asked := Option.some.inj (mirrors.declared.symm.trans fits.1)
      exact claim_mirrored mirrors fits.2 gives
  | update asked decide =>
      obtain rfl : key = asked := Option.some.inj (mirrors.declared.symm.trans fits.1)
      obtain ⟨next, ends, kept, comes⟩ :=
        update_mirrored mirrors (fair.1 _ _ _ mirrors.shown) fits.2 gives
      refine ⟨answer, next, ends, ?_, kept⟩
      rcases comes with ⟨error, rfl, decided⟩ | ⟨reply, rfl, found⟩
      · exact ⟨rfl, fair.2 _ _ _ decided⟩
      · exact ⟨rfl, found⟩

theorem all_mirrored {γ : Type} {effects : List (KeyEffect γ)} {answers : List γ}
    (mirrors : Mirrors moment key unasked state cluster)
    (fair : ∀ effect ∈ effects, Regime.apart.FairKey effect)
    (stages : KeyEffect.StagesAll moment effects state answers after)
    (first : Nat) : ∃ others next, InTurn Cluster.LabelledServed Eq
      ((effects.map fun effect => effect.cluster).mapIdx fun index => labelled (first + index))
        cluster others next ∧
      Regime.apart.AgreesAll effects answers others ∧ Mirrors moment key unasked after next := by
  induction effects generalizing state answers cluster first with
  | nil =>
      obtain ⟨rfl, rfl⟩ := stages
      exact ⟨[], cluster, ⟨rfl, rfl⟩, trivial, mirrors⟩
  | cons effect rest ih =>
      obtain ⟨answer, answers, middle, one, others, rfl⟩ := stages
      obtain ⟨found, next, ends, agrees, kept⟩ :=
        key_mirrored first mirrors (fair effect List.mem_cons_self) one
      obtain ⟨more, last, turns, alike, ended⟩ :=
        ih kept (fun other member => fair other (List.mem_cons_of_mem _ member)) others (first + 1)
      refine ⟨found :: more, last, ?_, ⟨agrees, alike⟩, ended⟩
      rw [List.map_cons, List.mapIdx_cons]
      refine ⟨found, next, more, ends_lift ends, ?_, rfl⟩
      simpa [Nat.add_assoc, Nat.add_comm 1] using turns

/-- What a handler asks for. -/
theorem store_mirrored {γ : Type} {effect : StoreEffect γ} {answer : γ}
    (mirrors : Mirrors moment key unasked state cluster) (fair : Regime.apart.Fair effect)
    (stages : effect.Stages moment state answer after) :
    ∃ other next, effect.Alone cluster other next ∧ Regime.apart.Agrees effect answer other ∧
      Mirrors moment key unasked after next := by
  cases effect with
  | now =>
      obtain ⟨rfl, rfl⟩ := stages
      exact ⟨_, cluster, ⟨cluster, _, cluster, rfl, rfl, rfl, rfl⟩, mirrors.now.symm, mirrors⟩
  | one effect =>
      obtain ⟨other, next, ends, agrees, kept⟩ := key_mirrored 0 mirrors fair stages
      exact ⟨other, next, ends_lift ends, agrees, kept⟩
  | all effects =>
      obtain ⟨others, next, turns, agrees, kept⟩ := all_mirrored mirrors fair stages 0
      obtain ⟨fuel, ran⟩ := gather_in_turn chained (by simpa using turns)
      exact ⟨others, next, ⟨fuel, ran⟩, agrees, kept⟩
  | client | putIf | deleteIf => exact stages.elim

end Mirrors
end Hashring
