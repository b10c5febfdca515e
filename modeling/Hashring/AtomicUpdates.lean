import Hashring.ClusterHistory

/-! `Store::update` among other clients: what an update writes is its decision on
the very record it replaces, whatever the others did meanwhile. -/
namespace Hashring

open Program

namespace Cluster

variable {initial : Bytes → Option Current} {cluster after later : Cluster} {label : Nat} {key : Bytes}

/-- What the owners did for this client. -/
def mine (label : Nat) (cluster : Cluster) : List KeyEvent :=
  cluster.history.filter fun event => event.label = label

def owed (label : Nat) (cluster : Cluster) : List AskedWrite :=
  (cluster.stray.filter fun errand => errand.1 = label).map Prod.snd

theorem mine_append (history : List KeyEvent) (event : KeyEvent) :
    (history ++ [event]).filter (fun event => event.label = label) =
      history.filter (fun event => event.label = label) ++ if event.label =
        label then [event] else [] := by
  rw [List.filter_append]
  by_cases own : event.label = label
  · simp [own]
  · simp [own]

/-- The owner made the write, on what it showed at that moment. -/
def Lands (asked : AskedWrite) (event : KeyEvent) : Prop :=
  event.key = asked.key ∧ asked.Met event.shown ∧
    ∃ version stored, asked.stores event.shown version = some stored ∧ event.stores = some stored

variable (label) in
theorem makes_mine {other : Nat} {asked : AskedWrite} (makes : cluster.Makes other asked after) :
    ∃ event, Lands asked event ∧ event.shown = cluster.shown asked.key ∧
      mine label after = mine label cluster ++ (if other = label then [event] else []) ∧
      owed label after = owed label cluster := by
  obtain ⟨met, version, stored, stores, -, rfl⟩ := makes
  refine ⟨⟨other, asked.key, cluster.now, cluster.shown asked.key, some stored⟩,
    ⟨rfl, met, version, stored, stores, rfl⟩,
    rfl, mine_append _ _, rfl⟩

theorem owed_append (asked : AskedWrite) (other : Nat) (cluster : Cluster) :
    owed label { cluster with stray := cluster.stray ++ [(other, asked)] } =
      owed label cluster ++ if other = label then [asked] else [] := by
  unfold owed
  rw [List.filter_append, List.map_append]
  by_cases own : other = label
  · simp [own]
  · simp [own]

/-- A step that is not the client's own leaves its standing alone, or makes one of
the writes it asked for. -/
inductive Standing (label : Nat) (cluster after : Cluster) : Prop
  | same (mine_eq : mine label after = mine label cluster)
    (owed_eq : owed label after = owed label cluster)
  | landed (asked : AskedWrite) (event : KeyEvent) (earlier rest : List AskedWrite)
      (lands : Lands asked event)
      (shown : event.shown = cluster.shown asked.key)
        (was : owed label cluster = earlier ++ asked :: rest)
      (left : owed label after = earlier ++ rest) (grew : mine label after = mine label cluster ++
        [event])

theorem late_standing {other : Nat} {asked : AskedWrite} {earlier rest : List (Nat × AskedWrite)}
    (underway : cluster.stray = earlier ++ (other, asked) :: rest)
    (makes : ({ cluster with stray := earlier ++ rest } : Cluster).Makes other asked after) :
    Standing label cluster after := by
  obtain ⟨event, lands, shown, grew, left⟩ := makes_mine label makes
  have dropped : owed label { cluster with stray := earlier ++ rest } =
      (earlier.filter fun errand => errand.1 = label).map Prod.snd ++
        (rest.filter fun errand => errand.1 = label).map Prod.snd := by
    simp [owed]
  by_cases own : other = label
  · rw [if_pos own] at grew
    refine .landed asked event _ _ lands shown ?_ (left.trans dropped) grew
    simp [owed, underway, own]
  · rw [if_neg own, List.append_nil] at grew
    refine .same grew (left.trans ?_)
    simp [owed, underway, own]

theorem tried_standing {other : Nat} (apart : other ≠ label) {asked : AskedWrite} {outcome : CallOutcome}
    (tried : cluster.Tried other asked outcome after) :
    mine label after = mine label cluster ∧ owed label after = owed label cluster := by
  have made : cluster.Makes other asked after →
      mine label after = mine label cluster ∧ owed label after = owed label cluster := by
    intro makes
    obtain ⟨event, -, -, grew, left⟩ := makes_mine label makes
    rw [if_neg apart, List.append_nil] at grew
    exact ⟨grew, left⟩
  cases outcome with
  | applied => exact made tried
  | unknown =>
      rcases tried with makes | rfl
      · exact made makes
      · exact ⟨rfl, by rw [owed_append, if_neg apart, List.append_nil]⟩
  | unversioned => exact tried.elim
  | found | missing | unread | notApplied =>
      obtain rfl : after = cluster := tried
      exact ⟨rfl, rfl⟩

theorem other_standing (step : Other label cluster after) : Standing label cluster after := by
  rcases step with moves | ⟨other, apart, γ, call, answer, answers⟩
  · cases moves with
    | pass now later => exact .same rfl rfl
    | sweep found due => exact .same rfl rfl
    | late underway makes => exact late_standing underway makes
  · cases call with
    | get key =>
        have shown : mine label (cluster.showing other key) = mine label cluster := by
          simp [mine, showing, apart]
        rcases read_cases answers with ⟨_, -, -, rfl⟩ | ⟨_, -, -, -, rfl⟩ | ⟨_, -, -, rfl⟩
        · exact .same shown rfl
        · exact .same shown rfl
        · exact .same rfl rfl
    | putWithExpiry | putIf | setExpiryIf | deleteIf =>
        obtain ⟨history, stray⟩ := tried_standing apart answers
        exact .same history stray
    | now | connect | lock | unlock =>
        obtain rfl : after = cluster := answers
        exact .same rfl rfl

/-! Records and events are only ever added. -/

structure Grows (cluster after : Cluster) : Prop where
  issued : cluster.issued ⊆ after.issued
  history : cluster.history <+: after.history

theorem grows_refl (cluster : Cluster) : cluster.Grows cluster := ⟨List.Subset.refl _, List.prefix_refl _⟩

theorem Grows.trans (first : cluster.Grows after) (second : after.Grows later) : cluster.Grows later :=
  ⟨List.Subset.trans first.issued second.issued, first.history.trans second.history⟩

theorem makes_grows {asked : AskedWrite} (makes : cluster.Makes label asked after) :
    cluster.Grows after := by
  obtain ⟨-, version, stored, -, -, rfl⟩ := makes
  exact ⟨List.subset_append_left _ _, List.prefix_append _ _⟩

theorem tried_grows {asked : AskedWrite} {outcome : CallOutcome}
    (tried : cluster.Tried label asked outcome after) :
    cluster.Grows after := by
  cases outcome with
  | applied => exact makes_grows tried
  | unknown =>
      rcases tried with makes | rfl
      · exact makes_grows makes
      · exact ⟨List.Subset.refl _, List.prefix_refl _⟩
  | unversioned => exact tried.elim
  | found | missing | unread | notApplied =>
      obtain rfl : after = cluster := tried
      exact grows_refl _

theorem answers_grow {γ : Type} {call : ClientCall γ} {answer : γ}
    (answers : Answers label call cluster answer after) :
    cluster.Grows after := by
  cases call with
  | get key =>
      have shown : cluster.Grows (cluster.showing label key) :=
        ⟨List.Subset.refl _, List.prefix_append _ _⟩
      rcases read_cases answers with ⟨_, -, -, rfl⟩ | ⟨_, -, -, -, rfl⟩ | ⟨_, -, -, rfl⟩
      · exact shown
      · exact shown
      · exact grows_refl _
  | putWithExpiry | putIf | setExpiryIf | deleteIf => exact tried_grows answers
  | now | connect | lock | unlock =>
      obtain rfl : after = cluster := answers
      exact grows_refl _

theorem others_grow (others : Others label cluster later) : cluster.Grows later := by
  induction others with
  | refl => exact grows_refl _
  | tail _ step ih =>
      refine ih.trans ?_
      rcases step with moves | ⟨_, -, _, _, _, answers⟩
      · cases moves with
        | pass now later => exact ⟨List.Subset.refl _, List.prefix_refl _⟩
        | sweep found due => exact ⟨List.Subset.refl _, List.prefix_refl _⟩
        | late underway makes => exact ⟨(makes_grows makes).issued, (makes_grows makes).history⟩
      · exact answers_grow answers

/-! What a client knows while the others go on. -/

theorem others_refl (cluster : Cluster) : Others label cluster cluster := Relation.ReflTransGen.refl

/-- A client that waits for no write is left alone. -/
theorem others_idle (others : Others label cluster later) (idle : owed label cluster = []) :
    owed label later = [] ∧ mine label later = mine label cluster := by
  induction others with
  | refl => exact ⟨idle, rfl⟩
  | tail _ step ih =>
      rcases other_standing step with ⟨same, left⟩ | ⟨asked, event, earlier, rest, -, -, was, -, -⟩
      · exact ⟨left.trans ih.1, same.trans ih.2⟩
      · exact absurd (was.symm.trans ih.1) (by simp)

/-- The write is made only on this record. -/
def OnlyOn (asked : AskedWrite) (seen : Option Current) : Prop := ∀ shown, asked.Met shown →
    (expectedFor seen).Met shown

def Wrote (said : List KeyEvent → Prop) (asked : AskedWrite) (seen : Option Current)
    (events : List KeyEvent) : Prop :=
  ∃ rounds event, events = rounds ++ [event] ∧ said rounds ∧ Lands asked event ∧ event.shown = seen

structure Pends (initial : Bytes → Option Current) (label : Nat) (said : List KeyEvent → Prop)
    (asked : AskedWrite)
    (seen : Option Current) (cluster : Cluster) : Prop where
  sound : cluster.Sound initial
  held : ∀ record ∈ seen, record ∈ cluster.issued
  stands : (owed label cluster = [asked] ∧ said (mine label cluster)) ∨
    (owed label cluster = [] ∧ Wrote said asked seen (mine label cluster))

theorem pends_step {said : List KeyEvent → Prop} {asked : AskedWrite} {seen : Option Current}
    (only : OnlyOn asked seen) (pends : cluster.Pends initial label said asked seen)
    (step : Other label cluster after) :
    after.Pends initial label said asked seen := by
  have moved : Others label cluster after := Relation.ReflTransGen.single step
  refine ⟨sound_others moved pends.sound, fun record there => (others_grow moved).issued
    (pends.held record there), ?_⟩
  rcases other_standing step with ⟨same, left⟩ | ⟨other, event, earlier, rest, lands, shown, was,
    left, grew⟩
  · rw [same, left]
    exact pends.stands
  · rcases pends.stands with ⟨asks, rounds⟩ | ⟨nothing, -⟩
    · -- The only write that can land is the one that was asked for.
      obtain ⟨rfl, rfl, rfl⟩ : earlier = [] ∧ asked = other ∧ rest = [] := by
        rw [asks] at was
        cases earlier with
        | nil => exact ⟨rfl, (List.cons.inj was).1, (List.cons.inj was).2.symm⟩
        | cons first more => exact absurd (congrArg List.length was) (by simp)
      have found : event.shown = seen := by
        rw [shown]
        exact pends.sound.same_version pends.held (only _ (shown ▸ lands.2.1))
      exact .inr ⟨left, _, event, grew, rounds, lands, found⟩
    · exact absurd (was.symm.trans nothing) (by simp)

variable (initial label)

/-- Nothing the client asked for is under way, what it saw was stored once, and its
events so far are as said. -/
def knowing (seen : Option Current) (said : List KeyEvent → Prop) : Assertion (Sound initial)
    (Others label) where
  holds cluster := owed label cluster = [] ∧ said (mine label cluster) ∧ ∀ record ∈ seen,
    record ∈ cluster.issued
  stable state later others _ known := by
    obtain ⟨idle, same⟩ := others_idle others known.1
    rw [same]
    exact ⟨idle, known.2.1, fun record held => (others_grow others).issued (known.2.2 record held)⟩

def pending (said : List KeyEvent → Prop) (asked : AskedWrite) (seen : Option Current)
    (only : OnlyOn asked seen) :
    Assertion (Sound initial) (Others label) where
  holds := Pends initial label said asked seen
  stable _ _ others _ known := Relation.ReflTransGen.head_induction_on others (fun pends => pends)
    (fun step _ ih pends => ih (pends_step only pends step)) known

/-! A write that is conditional on what was read. -/

section Conditional

variable (said : List KeyEvent → Prop) (asked : AskedWrite) (seen : Option Current)
  (only : OnlyOn asked seen) {ρ : Type}

/-- How it leaves its client. -/
def conditioned : Except RedisError (Option ρ) → Assertion (Sound initial) (Others label)
  | .ok (some _) => knowing initial label none (Wrote said asked seen)
  | .ok none => knowing initial label none said
  | .error error => .either (knowing initial label none said)
      (.given (error.mayHaveApplied = true) (pending initial label said asked seen only))

def answered : Except RedisError (Except ClientError (Option ρ)) → Assertion (Sound initial)
    (Others label)
  | .ok answer => conditioned initial label said asked seen only (answer.mapError RedisError.ofClient)
  | .error error => conditioned initial label said asked seen only
      (.error error : Except RedisError (Option ρ))

variable {initial label said asked seen}

theorem makes_wrote (only : OnlyOn asked seen) (sound : cluster.Sound initial)
    (known : (knowing initial label seen said).holds cluster) (makes : cluster.Makes label asked after) :
    owed label after = [] ∧ Wrote said asked seen (mine label after) ∧ ∀ record ∈ seen,
      record ∈ after.issued := by
  obtain ⟨idle, rounds, held⟩ := known
  have met : (expectedFor seen).Met (cluster.shown asked.key) := only _ makes.1
  obtain ⟨event, lands, shown, grew, left⟩ := makes_mine label makes
  rw [if_pos rfl] at grew
  exact ⟨left.trans idle, ⟨_, event, grew, rounds, lands, shown.trans (sound.same_version held met)⟩,
    fun record there => (makes_grows makes).issued (held record there)⟩

theorem tried_conditioned {answer : Except ClientError (Option ρ)} (sound : cluster.Sound initial)
    (known : (knowing initial label seen said).holds cluster)
    (tried : cluster.Tried label asked (conditionalOutcome answer) after) :
    (answered initial label said asked seen only (.ok answer)).holds after := by
  have unchanged : after = cluster → (knowing initial label none said).holds after := by
    rintro rfl
    exact ⟨known.1, known.2.1, by simp⟩
  rcases answer with error | _ | output
  · have reported := of_client_report error
    simp only [conditionalOutcome] at tried
    cases outcome : error.writeOutcome with
    | unknown =>
        rw [outcome] at tried reported
        obtain ⟨-, detail, told⟩ | ⟨impossible, -⟩ := reported
        · have ambiguous : (RedisError.ofClient error).mayHaveApplied = true := by rw [told]; rfl
          refine .inr ⟨ambiguous, ?_⟩
          rcases tried with makes | rfl
          · obtain ⟨left, wrote, held⟩ := makes_wrote only sound known makes
            exact ⟨sound_makes sound makes, held, .inr ⟨left, wrote⟩⟩
          · refine ⟨sound_stray sound, known.2.2, .inl ⟨?_, known.2.1⟩⟩
            rw [owed_append, if_pos rfl, known.1, List.nil_append]
        · exact absurd rfl impossible
    | unversioned =>
        rw [outcome] at tried
        exact tried.elim
    | applied =>
        exact absurd outcome (by
          unfold ClientError.writeOutcome
          split <;> (try split) <;> simp)
    | found | missing | unread | notApplied =>
        rw [outcome] at tried
        exact .inl (unchanged tried)
  · exact unchanged tried
  · obtain ⟨left, wrote, -⟩ := makes_wrote only sound known tried
    exact ⟨left, wrote, by simp⟩

theorem triple_conditional {call : ClientCall (Except ClientError (Option ρ))}
    (asks : ∀ cluster answer after, Answers label call cluster answer after →
      cluster.Tried label asked (conditionalOutcome answer) after) :
    Triple (Answers label) (Sound initial) (Others label) (knowing initial label seen said)
      (askOrFail call)
      (conditioned initial label said asked seen only) := by
  have sent : Triple (Answers label) (Sound initial) (Others label)
      (knowing initial label seen said) (ask call)
      (answered initial label said asked seen only) :=
    triple_ask fun cluster sound known answer after answers =>
      ⟨sound_tried sound (asks cluster answer after answers), tried_conditioned only sound known
        (asks cluster answer after answers)⟩
  refine triple_bind others_refl sent (fun error state _ reached => reached) fun answer => ?_
  cases answer with
  | ok value => exact triple_pure fun _ _ reached => reached
  | error error => exact triple_throw fun _ _ reached => reached

end Conditional

/-! Reading a key. -/

def Looked (said : List KeyEvent → Prop) (key : Bytes) (current : Option Current)
    (events : List KeyEvent) : Prop :=
  ∃ rounds read, events = rounds ++ [read] ∧ said rounds ∧ read.key = key ∧ read.shown = current ∧
    read.stores = none

section Reading

variable (said : List KeyEvent → Prop) (key : Bytes)

def reading : Except RedisError (Option Current) → Assertion (Sound initial) (Others label)
  | .ok current => knowing initial label current (Looked said key current)
  | .error _ => knowing initial label none said

/-- What the answer of the read call says. -/
def looking : Except RedisError (Except ClientError GetOutput) → Assertion (Sound initial) (Others label)
  | .ok (.ok output) =>
      reading initial label said key
        (.ok (some ⟨output.value, output.expiresAtUnixMillis, output.version⟩))
  | .ok (.error (.operation failure)) =>
      if failure.code = .notFound then reading initial label said key (.ok none)
      else knowing initial label none said
  | .ok (.error _) | .error _ => knowing initial label none said

variable {initial label said key}

theorem showing_looked (sound : cluster.Sound initial)
    (known : (knowing initial label none said).holds cluster) {current : Option Current}
    (shown : cluster.shown key = current) :
    (reading initial label said key (.ok current)).holds (cluster.showing label key) := by
  refine ⟨known.1, ⟨mine label cluster, ⟨label, key, cluster.now, cluster.shown key, none⟩, ?_,
    known.2.1, rfl, shown, rfl⟩, ?_⟩
  · simp [mine, showing]
  · rintro record rfl
    exact sound.shown_issued shown

theorem read_looking (sound : cluster.Sound initial)
    (known : (knowing initial label none said).holds cluster)
    {answer : Except ClientError GetOutput} (read : cluster.Read label key answer after) :
    (looking initial label said key (.ok answer)).holds after := by
  rcases read_cases read with ⟨output, rfl, shown, rfl⟩ | ⟨failure, rfl, missing, shown, rfl⟩ |
    ⟨error, rfl, other, rfl⟩
  · exact showing_looked sound known shown
  · simp only [looking, missing, if_true]
    exact showing_looked sound known shown
  · cases error with
    | operation failure =>
        simp only [looking, other failure rfl, if_false]
        exact known
    | topology | topologyRefresh | deadlineExceeded | missingVersion | rpc => exact known

theorem triple_read : Triple (Answers label) (Sound initial) (Others label)
    (knowing initial label none said) (readWith key)
    (reading initial label said key) := by
  have shown : Triple (Answers label) (Sound initial) (Others label) (knowing initial label none said) (ask (.get key))
      (looking initial label said key) :=
    triple_ask fun cluster sound known answer after answers =>
      ⟨sound_answers sound answers, read_looking sound known answers⟩
  refine triple_bind others_refl shown (fun error state _ reached => reached) fun answer => ?_
  rcases answer with error | output
  · cases error with
    | operation failure =>
        simp only [looking]
        split
        · exact triple_pure fun _ _ reached => reached
        · exact triple_throw fun _ _ reached => reached
    | topology | topologyRefresh | deadlineExceeded | missingVersion | rpc =>
        exact triple_throw fun _ _ reached => reached
  · exact triple_pure fun _ _ reached => reached

theorem triple_unnoticed {β : Type} {call : ClientCall β} {pre : Assertion (Sound initial) (Others label)}
    (unnoticed : ∀ cluster answer after, Answers label call cluster answer after → after = cluster) :
    Triple (Answers label) (Sound initial) (Others label) pre (ask call) (.onOk fun _ => pre) := by
  refine triple_ask fun cluster sound known answer after answers => ?_
  obtain rfl := unnoticed cluster answer after answers
  exact ⟨sound, known⟩

end Reading

end Cluster

/-! What an update decides, and what it leaves. -/

namespace Change

variable {α : Type}

def reply : Change α → α
  | .put _ _ reply | .expire _ reply | .delete reply | .nothing reply => reply

def stored (seen : Option Current) (version : RecordVersion) : Change α → Option (Option Current)
  | .put value deadline _ => some (some { value, deadline := storedDeadline deadline, version })
  | .expire deadline _ => seen.map fun record =>
      some { record with deadline := storedDeadline deadline, version }
  | .delete _ => some none
  | .nothing _ => none

/-- The conditional write that carries it out. -/
def asks (key : Bytes) (seen : Option Current) : Change α → Option AskedWrite
  | .put value deadline _ => some (.put key value (expiryOf deadline) (some (expectedFor seen)))
  | .expire deadline _ => some (.expire key deadline (expectedFor seen))
  | .delete _ => some (.delete key (expectedFor seen))
  | .nothing _ => none

inductive Carried (change : Change α) (key : Bytes) (seen : Option Current) : List KeyEvent → Prop
  | nothing (same : change = .nothing change.reply) : Carried change key seen []
  | wrote (event : KeyEvent) (version : RecordVersion) (after : Option Current) (at_ : event.key = key)
      (on : event.shown = seen) (decided : change.stored seen version = some after)
        (made : event.stores = some after) :
      Carried change key seen [event]

variable {change : Change α} {key : Bytes} {seen : Option Current} {asked : AskedWrite}

theorem expiry_of_leaves (deadline : Option Nat) (shown : Option Current) :
    (expiryOf deadline).leaves shown = storedDeadline deadline := by
  cases deadline with
  | none => rfl
  | some unixMillis =>
      by_cases zero : unixMillis = 0
      · simp [expiryOf, Expiry.leaves, storedDeadline, zero, Option.filter]
      · simp [expiryOf, Expiry.leaves, storedDeadline, zero, Option.filter]

theorem asks_only (asks : change.asks key seen = some asked) : Cluster.OnlyOn asked seen := by
  intro shown met
  cases change with
  | put value deadline reply =>
      obtain rfl := Option.some.inj asks
      exact met _ rfl
  | expire deadline reply =>
      obtain rfl := Option.some.inj asks
      exact met
  | delete reply =>
      obtain rfl := Option.some.inj asks
      exact met
  | nothing reply => exact absurd asks (by simp [Change.asks])

theorem lands_carried (asks : change.asks key seen = some asked) {event : KeyEvent}
    (lands : Cluster.Lands asked event)
    (shown : event.shown = seen) : change.Carried key seen [event] := by
  obtain ⟨at_, -, version, after, decided, made⟩ := lands
  rw [shown] at decided
  cases change with
  | put value deadline reply =>
      obtain rfl := Option.some.inj asks
      simp only [AskedWrite.stores, expiry_of_leaves] at decided
      exact .wrote event version after at_ shown decided made
  | expire deadline reply =>
      obtain rfl := Option.some.inj asks
      simp only [AskedWrite.stores, expiry_of_leaves] at decided
      exact .wrote event version after at_ shown decided made
  | delete reply =>
      obtain rfl := Option.some.inj asks
      exact .wrote event version after at_ shown decided made
  | nothing reply => exact absurd asks (by simp [Change.asks])

end Change

namespace Cluster

variable {initial : Bytes → Option Current} {label : Nat} {key : Bytes} {α : Type} {decide : Decide α}

def Rounds (key : Bytes) (events : List KeyEvent) : Prop := ∀ event ∈ events, event.key = key ∧
    event.stores = none

def Decided (key : Bytes) (decide : Decide α) (change : Change α) (events : List KeyEvent) : Prop :=
  ∃ rounds read wrote clock, events = rounds ++ read :: wrote ∧ Rounds key (rounds ++ [read]) ∧
    decide clock read.shown = .ok change ∧ change.Carried key read.shown wrote

/-- How an update that has ended stands. A write of its last round may still be
under way when the error says so. -/
def Updated (key : Bytes) (decide : Decide α) (mine : List KeyEvent) (owed : List AskedWrite) :
    Except RedisError α → Prop
  | .ok reply => owed = [] ∧ ∃ change, change.reply = reply ∧ Decided key decide change mine
  | .error error => (Rounds key mine ∧ owed = []) ∨ (error.mayHaveApplied = true ∧
      ((Rounds key mine ∧ ∃ asked, owed = [asked]) ∨
        (owed = [] ∧ ∃ change, Decided key decide change mine)))

theorem looked_rounds {current : Option Current} {events : List KeyEvent}
    (looked : Looked (Rounds key) key current events) :
    Rounds key events := by
  obtain ⟨rounds, read, rfl, silent, at_, -, kept⟩ := looked
  intro event member
  rcases List.mem_append.mp member with old | new
  · exact silent event old
  · rw [List.mem_singleton.mp new]
    exact ⟨at_, kept⟩

theorem wrote_decided {clock : Nat} {current : Option Current} {change : Change α}
    {asked : AskedWrite} {events : List KeyEvent} (decides : decide clock current = .ok change)
    (asks : change.asks key current = some asked)
    (wrote : Wrote (Looked (Rounds key) key current) asked current events) :
    Decided key decide change events := by
  obtain ⟨before, event, rfl, looked, lands, shown⟩ := wrote
  have silent := looked_rounds looked
  obtain ⟨rounds, read, rfl, -, -, rfl, -⟩ := looked
  exact ⟨rounds, read, [event], clock, by simp, silent, decides, Change.lands_carried asks lands shown⟩

variable (initial label key decide)

structure Decision where
  clock : Nat
  seen : Option Current
  change : Change α
  asked : AskedWrite
  decides : decide clock seen = .ok change
  asks : change.asks key seen = some asked

def failing (error : RedisError) : Assertion (Sound initial) (Others label) :=
  .either (knowing initial label none (Rounds key)) (.given (error.mayHaveApplied = true)
    (.any fun decision : Decision key decide =>
      pending initial label (Looked (Rounds key) key decision.seen) decision.asked decision.seen
        (Change.asks_only decision.asks)))

def updated : Except RedisError α → Assertion (Sound initial) (Others label)
  | .ok reply => knowing initial label none fun events => ∃ change, change.reply = reply ∧
    Decided key decide change events
  | .error error => failing initial label key decide error

def turned : Except RedisError (Unit ⊕ α) → Assertion (Sound initial) (Others label)
  | .ok (.inl _) => knowing initial label none (Rounds key)
  | .ok (.inr reply) => updated initial label key decide (.ok reply)
  | .error error => failing initial label key decide error

variable {initial label key decide}

theorem triple_write {ρ : Type} {call : ClientCall (Except ClientError (Option ρ))}
    (decision : Decision key decide)
    (asks : ∀ cluster answer after, Answers label call cluster answer after →
      cluster.Tried label decision.asked (conditionalOutcome answer) after) :
    Triple (Answers label) (Sound initial) (Others label)
      (knowing initial label decision.seen (Looked (Rounds key) key decision.seen))
      (do
        let applied ← askOrFail call
        return if applied.isSome then .inr decision.change.reply else .inl ())
          (turned initial label key decide) := by
  refine triple_bind others_refl (triple_conditional (Change.asks_only decision.asks) asks) ?_ ?_
  · rintro error cluster - (silent | ⟨ambiguous, pends⟩)
    · exact .inl ⟨silent.1, looked_rounds silent.2.1, by simp⟩
    · exact .inr ⟨ambiguous, decision, pends⟩
  · rintro (_ | output)
    · exact triple_pure fun cluster _ known => ⟨known.1, looked_rounds known.2.1, by simp⟩
    · refine triple_pure fun cluster _ known => ⟨known.1, ⟨decision.change, rfl, ?_⟩, by simp⟩
      exact wrote_decided decision.decides decision.asks known.2.1

theorem triple_round : Triple (Answers label) (Sound initial) (Others label)
    (knowing initial label none (Rounds key))
    (updateRound key decide ()) (turned initial label key decide) := by
  refine triple_bind others_refl triple_read (fun _ _ _ known => .inl known) fun current => ?_
  refine triple_bind others_refl (triple_unnoticed fun _ _ _ same => same)
    (fun _ _ _ impossible => impossible.elim) fun clock => ?_
  rcases decides : decide clock current with error | change
  · exact triple_throw fun _ _ known => .inl ⟨known.1, looked_rounds known.2.1, by simp⟩
  · cases change with
    | nothing reply =>
        refine triple_pure fun cluster _ known => ⟨known.1, ⟨.nothing reply, rfl, ?_⟩, by simp⟩
        have silent := looked_rounds known.2.1
        obtain ⟨rounds, read, same, -, -, rfl, -⟩ := known.2.1
        rw [same] at silent ⊢
        exact ⟨rounds, read, [], clock, rfl, silent, decides, .nothing rfl⟩
    | put value deadline reply =>
        exact triple_write ⟨clock, current, _, _, decides, rfl⟩ fun _ _ _ answers => answers
    | expire deadline reply =>
        exact triple_write ⟨clock, current, _, _, decides, rfl⟩ fun _ _ _ answers => answers
    | delete reply =>
        exact triple_write ⟨clock, current, _, _, decides, rfl⟩ fun _ _ _ answers => answers

theorem triple_connect {said : List KeyEvent → Prop} : Triple (Answers label) (Sound initial)
    (Others label)
    (knowing initial label none said) sharedClient fun _ => knowing initial label none said := by
  refine triple_bind others_refl (triple_unnoticed fun _ _ _ same => same)
    (fun _ _ _ impossible => impossible.elim) fun answer => ?_
  cases answer with
  | ok _ => exact triple_pure fun _ _ known => known
  | error error => exact triple_throw fun _ _ known => known

/-- The stripe lock keeps the gateway's own clients apart; nothing rests on it. -/
theorem triple_under_lock {pre : Assertion (Sound initial) (Others label)} {body : StoreTask α}
    {post : Except RedisError α → Assertion (Sound initial) (Others label)}
    (triple : Triple (Answers label) (Sound initial) (Others label) pre body post) :
    Triple (Answers label) (Sound initial) (Others label) pre (underKeyLock key body) post := by
  refine triple_bind others_refl (triple_unnoticed fun _ _ _ same => same)
    (fun _ _ _ impossible => impossible.elim) fun _ => ?_
  have tried : Triple (Answers label) (Sound initial) (Others label) pre (attempt body) (.onOk post) :=
    triple_attempt others_refl triple
  refine triple_bind others_refl tried (fun _ _ _ impossible => impossible.elim) fun result => ?_
  refine triple_bind others_refl (triple_unnoticed fun _ _ _ same => same)
    (fun _ _ _ impossible => impossible.elim) fun _ => ?_
  cases result with
  | ok value => exact triple_pure fun _ _ known => known
  | error error => exact triple_throw fun _ _ known => known

theorem triple_update : Triple (Answers label) (Sound initial) (Others label)
    (knowing initial label none fun events => events = []) (underKeyLock key do
      sharedClient
      Program.tryLoop (updateRound key decide) ()) (updated initial label key decide) := by
  have nothing : ∀ events : List KeyEvent, events = [] → Rounds key events := by
    rintro _ rfl
    simp [Rounds]
  refine triple_under_lock (triple_bind others_refl triple_connect ?_ fun _ => ?_)
  · exact fun _ _ _ known => .inl ⟨known.1, nothing _ known.2.1, known.2.2⟩
  · have each : ∀ round : Unit, Triple (Answers label) (Sound initial) (Others label)
        ((fun _ => knowing initial label none (Rounds key)) round) (updateRound key decide round)
        ((fun _ => turned initial label key decide) round) := fun _ => triple_round
    refine triple_loop others_refl ?_ each ?_ ?_ ?_
    · exact fun _ _ known => ⟨known.1, nothing _ known.2.1, known.2.2⟩
    · exact fun _ _ _ _ known => known
    · exact fun _ _ _ _ known => known
    · exact fun _ _ _ _ known => known

/-- An update among any number of other clients: what it writes is what it decides
on the record it replaces, at most once; it answers for that decision, and an
error that does not say otherwise comes without a write. -/
theorem update_atomic (key : Bytes) (decide : Decide α) (label : Nat) (initial : Bytes → Option Current)
    (start last : Cluster) (result : Except RedisError α) (sound : start.Sound initial)
    (unused : mine label start = [] ∧ owed label start = [])
    (ends : (KeyEffect.cluster (.update key decide)).Ends (Answers label)
      (Others label) start result last) :
    Consistent initial last.history ∧ Updated key decide (mine label last) (owed label last) result := by
  obtain ⟨soundLast, stands⟩ := triple_ends (fun _ _ others => sound_others others) triple_update sound
    ⟨unused.2, unused.1, by simp⟩ ends
  refine ⟨soundLast.consistent, ?_⟩
  cases result with
  | ok reply => exact ⟨stands.1, stands.2.1⟩
  | error error =>
      rcases stands with silent | ⟨ambiguous, decision, pends⟩
      · exact .inl ⟨silent.2.1, silent.1⟩
      · refine .inr ⟨ambiguous, ?_⟩
        rcases pends.stands with ⟨asked, looked⟩ | ⟨settled, wrote⟩
        · exact .inl ⟨looked_rounds looked, _, asked⟩
        · exact .inr ⟨settled, decision.change, wrote_decided decision.decides decision.asks wrote⟩

end Cluster

/-! One key, deleted by client 0 with `DEL` while client 1 overwrites it. -/
namespace UpdateSample

def key : Bytes := [byte 107]

def record : Current := { value := [byte 1], deadline := none, version := ⟨1, 1, "node"⟩ }

def initial (other : Bytes) : Option Current := if other = key then some record else none

def cluster : Cluster := { records := initial, now := 5, issued := [record], history := [], stray := [] }

theorem cluster_sound : cluster.Sound initial where
  once := by decide
  issued other found stored := by
    simp only [cluster, initial] at stored ⊢
    split at stored
    · simp [← Option.some.inj stored]
    · exact absurd stored (by simp)
  consistent := ⟨fun earlier event later split => absurd split (by simp [cluster]), List.Pairwise.nil⟩
  current _ := rfl
  past event member := absurd member List.not_mem_nil

def overwritten (cluster : Cluster) : Cluster :=
  if cluster.history.any fun event => event.label = 1 then cluster
  else (Cluster.serve 1 (.putWithExpiry key [byte 5] .keep) cluster).2

/-- It does so between what client 0 read and what that writes. -/
def meanwhile {γ : Type} (call : ClientCall γ) (cluster : Cluster) : Cluster :=
  match call with
  | .putIf .. | .deleteIf .. => overwritten cluster
  | _ => cluster

def serve {γ : Type} (call : ClientCall γ) (cluster : Cluster) : γ × Cluster :=
  Cluster.serve 0 call (meanwhile call cluster)

theorem overwritten_others (cluster : Cluster) : Cluster.Others 0 cluster (overwritten cluster) := by
  unfold overwritten
  split
  · exact Cluster.others_refl cluster
  · exact Relation.ReflTransGen.single (.inr ⟨1, by decide, _, _, _, Cluster.serve_answers _ cluster⟩)

theorem serve_answers {γ : Type} (call : ClientCall γ) (cluster : Cluster) :
    ∃ later, Cluster.Others 0 cluster later ∧ Cluster.Answers 0 call later (serve call cluster).1
      (serve call cluster).2 := by
  refine ⟨meanwhile call cluster, ?_, Cluster.serve_answers call _⟩
  cases call with
  | putIf | deleteIf => exact overwritten_others cluster
  | now | connect | lock | unlock | get | putWithExpiry | setExpiryIf => exact Cluster.others_refl cluster

/-- The delete conditional on what the first round read is refused, and the second
round deletes what client 1 had written. -/
theorem update_atomic_retried : ∃ last : Cluster,
    (KeyEffect.cluster (.update key deleteOne)).Ends (Cluster.Answers 0)
    (Cluster.Others 0) cluster (.ok 1) last ∧
      Consistent initial last.history ∧
      Cluster.Updated key deleteOne (Cluster.mine 0 last) (Cluster.owed 0 last) (.ok 1) ∧
      last.history.map (fun event => (event.label, event.shown.map (·.value))) =
        [(0, some [byte 1]), (1, some [byte 1]), (0, some [byte 5]), (0, some [byte 5])] ∧
      last.records key = none := by
  have ran : (KeyEffect.cluster (.update key deleteOne)).execute (fun call => serve call)
      (fun _ => 2) cluster =
      some (.ok 1, _) := rfl
  have idle : ∀ cluster, True → Cluster.Others 0 cluster cluster := fun _ _ => Cluster.others_refl _
  have ends := execute_ends_among idle (fun call cluster _ => ⟨serve_answers call cluster, trivial⟩)
      trivial ran
  obtain ⟨consistent, updated⟩ :=
    Cluster.update_atomic key deleteOne 0 initial cluster _ _ cluster_sound ⟨rfl, rfl⟩ ends
  exact ⟨_, ends, consistent, updated, rfl, rfl⟩

end UpdateSample

end Hashring
