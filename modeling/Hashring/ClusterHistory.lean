import Hashring.RenameCopy
import Hashring.TaskTriples

/-! The cluster as its clients see it, with the history of what the owners showed
and stored. Any number of clients make calls at the same time; a write whose call
ended with an unknown outcome may still be made later, once. Every record is
stored under a version of its own. -/
namespace Hashring

open Program

def Current.alive (now : Nat) (record : Current) : Bool := record.deadline.all (now < ·)

def shownAt (now : Nat) (stored : Option Current) : Option Current := stored.filter (Current.alive now)

theorem shown_some {now : Nat} {stored : Option Current} {record : Current}
    (shown : shownAt now stored = some record) :
    stored = some record := (Option.filter_eq_some_iff.mp shown).1

theorem shown_later {now later : Nat} (passed : now ≤ later) {stored known : Option Current}
    (same : shownAt now stored = shownAt now known) : shownAt later stored = shownAt later known := by
  have fades : ∀ stored : Option Current, shownAt later stored = shownAt later (shownAt now stored) := by
    intro stored
    unfold shownAt
    rw [Option.filter_filter]
    congr 1
    funext record
    unfold Current.alive
    cases record.deadline with
    | none => simp
    | some deadline =>
        simp only [Option.all_some]
        by_cases still : later < deadline
        · simp [still, Nat.lt_of_le_of_lt passed still]
        · simp [still]
  rw [fades stored, same, ← fades known]

/-- The condition on what is shown under the key. -/
def Expect.Met (shown : Option Current) : Expect → Prop
  | .absent => shown = none
  | .version expected => ∃ record, shown = some record ∧ record.version = expected

instance (shown : Option Current) (expected : Expect) : Decidable (expected.Met shown) :=
  match expected, shown with
  | .absent, none => .isTrue rfl
  | .absent, some _ => .isFalse (by simp [Expect.Met])
  | .version _, none => .isFalse (by simp [Expect.Met])
  | .version version, some record => decidable_of_iff (record.version = version) (by simp [Expect.Met])

theorem expected_for_met (shown : Option Current) : (expectedFor shown).Met shown := by
  cases shown with
  | none => rfl
  | some record => exact ⟨record, rfl, rfl⟩

def Expiry.leaves (shown : Option Current) : Expiry → Option Nat
  | .keep => shown.bind (·.deadline)
  | .atMillis unixMillis => if unixMillis = 0 then none else some unixMillis
  | .clear => none

namespace AskedWrite

def key : AskedWrite → Bytes
  | .put key _ _ _ | .expire key _ _ | .delete key _ => key

def Met (shown : Option Current) : AskedWrite → Prop
  | .put _ _ _ expected => ∀ condition ∈ expected, condition.Met shown
  | .expire _ _ expected | .delete _ expected => expected.Met shown

instance (shown : Option Current) (asked : AskedWrite) : Decidable (asked.Met shown) :=
  match asked with
  | .put _ _ _ none => .isTrue (by simp [Met])
  | .put _ _ _ (some expected) => decidable_of_iff (expected.Met shown) (by simp [Met])
  | .expire _ _ expected => inferInstanceAs (Decidable (expected.Met shown))
  | .delete _ expected => inferInstanceAs (Decidable (expected.Met shown))

def stores (shown : Option Current) (version : RecordVersion) : AskedWrite → Option (Option Current)
  | .put _ value expiry _ => some (some { value, deadline := expiry.leaves shown, version })
  | .expire _ deadline _ => shown.map fun record =>
      some { record with deadline := (expiryOf deadline).leaves shown, version }
  | .delete _ _ => some none

end AskedWrite

/-- What the owner of a key did for a client at one moment: it showed what is
stored, and for a write replaced it. -/
structure KeyEvent where
  label : Nat
  key : Bytes
  now : Nat
  shown : Option Current
  stores : Option (Option Current)

def replay (initial : Bytes → Option Current) (history : List KeyEvent) (key : Bytes) : Option Current :=
  history.foldl (fun stored event => if event.key = key then event.stores.getD stored else stored)
    (initial key)

/-- Each event was shown what the events before it left, as far as the deadline
allows, and the clock never went back. -/
structure Consistent (initial : Bytes → Option Current) (history : List KeyEvent) : Prop where
  shows : ∀ earlier event later, history = earlier ++ event :: later →
    event.shown = shownAt event.now (replay initial earlier event.key)
  ordered : history.Pairwise fun before after => before.now ≤ after.now

structure Cluster where
  records : Bytes → Option Current
  now : Nat
  /-- Every record that was ever stored. -/
  issued : List Current
  history : List KeyEvent
  /-- Writes that may still be made, by the client that asked for them. -/
  stray : List (Nat × AskedWrite)

namespace Cluster

def shown (cluster : Cluster) (key : Bytes) : Option Current := shownAt cluster.now (cluster.records key)

def showing (cluster : Cluster) (label : Nat) (key : Bytes) : Cluster :=
  { cluster with history := cluster.history ++ [⟨label, key, cluster.now, cluster.shown key, none⟩] }

def storing (cluster : Cluster) (label : Nat) (key : Bytes) (stored : Option Current) : Cluster :=
  { cluster with
    records := fun other => if other = key then stored else cluster.records other
    issued := cluster.issued ++ stored.toList
    history := cluster.history ++ [⟨label, key, cluster.now, cluster.shown key, some stored⟩] }

def Makes (cluster : Cluster) (label : Nat) (asked : AskedWrite) (after : Cluster) : Prop :=
  asked.Met (cluster.shown asked.key) ∧ ∃ version stored,
    asked.stores (cluster.shown asked.key) version = some stored ∧
    (∀ record ∈ cluster.issued, record.version ≠ version) ∧ after = cluster.storing label asked.key stored

/-- What happens by itself. -/
inductive Moves : Cluster → Cluster → Prop
  | pass {cluster : Cluster} (now : Nat) (later : cluster.now ≤ now) : Moves cluster { cluster with now }
  | sweep {cluster : Cluster} {key : Bytes} {record : Current} (found : cluster.records key = some record)
      (due : record.alive cluster.now = false) :
      Moves cluster { cluster with records := fun other => if other = key then none else cluster.records other }
  | late {cluster after : Cluster} {label : Nat} {asked : AskedWrite}
      {earlier rest : List (Nat × AskedWrite)}
      (underway : cluster.stray = earlier ++ (label, asked) :: rest)
      (makes : ({ cluster with stray := earlier ++ rest } : Cluster).Makes label asked after) :
        Moves cluster after

/-- A write came out this way. What may have been made was made, or may be later;
an owner sends a version with every acceptance. -/
def Tried (cluster : Cluster) (label : Nat) (asked : AskedWrite) (outcome : CallOutcome)
    (after : Cluster) : Prop :=
  match outcome with
  | .applied => cluster.Makes label asked after
  | .unknown => cluster.Makes label asked after ∨
      after = { cluster with stray := cluster.stray ++ [(label, asked)] }
  | .unversioned => False
  | _ => after = cluster

def Read (cluster : Cluster) (label : Nat) (key : Bytes) : Except ClientError GetOutput → Cluster → Prop
  | .ok output, after => cluster.shown key =
        some { value := output.value, deadline := output.expiresAtUnixMillis, version := output.version } ∧
      after = cluster.showing label key
  | .error (.operation failure), after =>
      if failure.code = .notFound then cluster.shown key = none ∧
        after = cluster.showing label key else after = cluster
  | .error _, after => after = cluster

def Answers (label : Nat) {γ : Type} : ClientCall γ → Cluster → γ → Cluster → Prop
  | .get key, cluster, answer, after => cluster.Read label key answer after
  | .putWithExpiry key value expiry, cluster, answer, after =>
      cluster.Tried label (.put key value expiry none) (writeOutcome answer) after
  | .putIf key value expiry expected, cluster, answer, after =>
      cluster.Tried label (.put key value expiry (some expected)) (conditionalOutcome answer) after
  | .setExpiryIf key deadline expected, cluster, answer, after =>
      cluster.Tried label (.expire key deadline expected) (conditionalOutcome answer) after
  | .deleteIf key expected, cluster, answer, after =>
      cluster.Tried label (.delete key expected) (conditionalOutcome answer) after
  | .now, cluster, _, after | .connect, cluster, _, after | .lock _, cluster, _, after | .unlock _,
      cluster, _, after =>
      after = cluster

/-- One step that is not this client's: time passes, a stray write is made, or
another client's call is answered. -/
def Other (label : Nat) (cluster after : Cluster) : Prop :=
  cluster.Moves after ∨ ∃ other, other ≠ label ∧ ∃ (γ : Type) (call : ClientCall γ) (answer : γ),
    Answers other call cluster answer after

def Others (label : Nat) : Cluster → Cluster → Prop := Relation.ReflTransGen (Other label)

structure Sound (initial : Bytes → Option Current) (cluster : Cluster) : Prop where
  once : (cluster.issued.map Current.version).Nodup
  issued : ∀ key record, cluster.records key = some record → record ∈ cluster.issued
  consistent : Consistent initial cluster.history
  current : ∀ key, cluster.shown key = shownAt cluster.now (replay initial cluster.history key)
  past : ∀ event ∈ cluster.history, event.now ≤ cluster.now

variable {initial : Bytes → Option Current} {cluster after : Cluster} {label : Nat} {key : Bytes}

theorem replay_snoc (history : List KeyEvent) (event : KeyEvent) (key : Bytes) :
    replay initial (history ++ [event]) key =
      if event.key = key then event.stores.getD (replay initial history key) else replay initial
        history key := by
  simp [replay, List.foldl_append]

theorem Sound.shown_issued (sound : cluster.Sound initial) {record : Current}
    (shown : cluster.shown key = some record) :
    record ∈ cluster.issued :=
  sound.issued key record (shown_some shown)

theorem Sound.same_version (sound : cluster.Sound initial) {seen : Option Current}
    (known : ∀ record ∈ seen, record ∈ cluster.issued)
    (met : (expectedFor seen).Met (cluster.shown key)) :
    cluster.shown key = seen := by
  cases seen with
  | none => exact met
  | some record =>
      obtain ⟨found, shown, same⟩ := met
      rw [shown, List.inj_on_of_nodup_map sound.once (sound.shown_issued shown) (known record rfl) same]

/-! One step keeps the history sound. -/

theorem consistent_snoc {history : List KeyEvent} {event : KeyEvent}
    (consistent : Consistent initial history)
    (shows : event.shown = shownAt event.now (replay initial history event.key))
    (latest : ∀ before ∈ history, before.now ≤ event.now) : Consistent initial (history ++ [event]) where
  shows earlier other later split := by
    rcases List.eq_nil_or_concat later with rfl | ⟨front, final, rfl⟩
    · obtain ⟨rfl, same⟩ := List.append_inj' split rfl
      obtain rfl := (List.cons.inj same).1
      exact shows
    · rw [List.concat_eq_append, ← List.cons_append, ← List.append_assoc] at split
      exact consistent.shows earlier other front (List.append_inj' split rfl).1
  ordered := List.pairwise_append.mpr ⟨consistent.ordered, List.pairwise_singleton _ _,
      fun before member last same => by
    rw [List.mem_singleton.mp same]
    exact latest before member⟩

theorem sound_showing (sound : cluster.Sound initial) : (cluster.showing label key).Sound initial where
  once := sound.once
  issued := sound.issued
  consistent := consistent_snoc sound.consistent (sound.current key) sound.past
  current other := by
    have same := sound.current other
    simp only [showing, replay_snoc, Option.getD_none, ite_self]
    exact same
  past event member := by
    rcases List.mem_append.mp member with old | new
    · exact sound.past event old
    · exact le_of_eq (by rw [List.mem_singleton.mp new]; rfl)

theorem sound_storing (sound : cluster.Sound initial) {stored : Option Current}
    (fresh : ∀ record ∈ stored, ∀ earlier ∈ cluster.issued, earlier.version ≠ record.version) :
    (cluster.storing label key stored).Sound initial where
  once := by
    simp only [storing, List.map_append, List.nodup_append]
    refine ⟨sound.once, ?_, ?_⟩
    · cases stored <;> simp
    · intro version old other new same
      obtain ⟨earlier, listed, rfl⟩ := List.mem_map.mp old
      obtain ⟨record, there, rfl⟩ := List.mem_map.mp new
      exact fresh record (Option.mem_toList.mp there) earlier listed same
  issued other record found := by
    simp only [storing] at found ⊢
    split at found
    · exact List.mem_append_right _ (Option.mem_toList.mpr found)
    · exact List.mem_append_left _ (sound.issued other record found)
  consistent := consistent_snoc sound.consistent (sound.current key) sound.past
  current other := by
    have same := sound.current other
    simp only [shown] at same
    simp only [shown, storing, replay_snoc, Option.getD_some]
    by_cases here : other = key
    · simp [here]
    · simpa [here, Ne.symm here] using same
  past event member := by
    rcases List.mem_append.mp member with old | new
    · exact sound.past event old
    · exact le_of_eq (by rw [List.mem_singleton.mp new]; rfl)

theorem sound_makes {asked : AskedWrite} (sound : cluster.Sound initial)
    (makes : cluster.Makes label asked after) :
    after.Sound initial := by
  obtain ⟨-, version, stored, stores, fresh, rfl⟩ := makes
  refine sound_storing sound fun record held earlier listed => ?_
  have versioned : record.version = version := by
    obtain rfl : stored = some record := held
    cases asked with
    | put key value expiry expected =>
        simp only [AskedWrite.stores, Option.some.injEq] at stores
        rw [← stores]
    | expire key deadline expected =>
        obtain ⟨kept, -, same⟩ := Option.map_eq_some_iff.mp stores
        rw [← Option.some.inj same]
    | delete key expected => exact absurd stores (by simp [AskedWrite.stores])
  rw [versioned]
  exact fresh earlier listed

theorem sound_stray {stray : List (Nat × AskedWrite)} (sound : cluster.Sound initial) :
    ({ cluster with stray } : Cluster).Sound initial :=
  ⟨sound.once, sound.issued, sound.consistent, sound.current, sound.past⟩

theorem sound_moves (sound : cluster.Sound initial) (moves : cluster.Moves after) :
    after.Sound initial := by
  cases moves with
  | pass now later =>
      exact ⟨sound.once, sound.issued, sound.consistent, fun key => shown_later later (sound.current key),
        fun event member => (sound.past event member).trans later⟩
  | @sweep swept record found due =>
      refine ⟨sound.once, fun key other there => ?_, sound.consistent, fun key => ?_, sound.past⟩
      · simp only at there
        split at there
        · exact absurd there (by simp)
        · exact sound.issued key other there
      · have same := sound.current key
        simp only [shown] at same ⊢
        rw [← same]
        split
        · rename_i here
          subst here
          simp [shownAt, found, Option.filter, due]
        · rfl
  | late underway makes => exact sound_makes (sound_stray sound) makes

theorem sound_tried {asked : AskedWrite} {outcome : CallOutcome} (sound : cluster.Sound initial)
    (tried : cluster.Tried label asked outcome after) : after.Sound initial := by
  cases outcome with
  | applied => exact sound_makes sound tried
  | unknown =>
      rcases tried with makes | rfl
      · exact sound_makes sound makes
      · exact sound_stray sound
  | unversioned => exact tried.elim
  | found | missing | unread | notApplied =>
      obtain rfl : after = cluster := tried
      exact sound

theorem read_cases {answer : Except ClientError GetOutput} (read : cluster.Read label key answer after) :
    (∃ output, answer = .ok output ∧ cluster.shown key =
        some { value := output.value, deadline := output.expiresAtUnixMillis, version := output.version } ∧
      after = cluster.showing label key) ∨
      (∃ failure, answer = .error (.operation failure) ∧ failure.code = .notFound ∧
        cluster.shown key = none ∧
        after = cluster.showing label key) ∨
      (∃ error, answer = .error error ∧
          (∀ failure, error = .operation failure → failure.code ≠ .notFound) ∧ after = cluster) :=
        by
  cases answer with
  | ok output => exact .inl ⟨output, rfl, read.1, read.2⟩
  | error error =>
      cases error with
      | operation failure =>
          simp only [Read] at read
          split at read
          · rename_i missing
            exact .inr (.inl ⟨failure, rfl, missing, read.1, read.2⟩)
          · rename_i other
            exact .inr (.inr ⟨_, rfl, fun same found => by cases found; exact other, read⟩)
      | topology | topologyRefresh | deadlineExceeded | missingVersion | rpc =>
          exact .inr (.inr ⟨_, rfl, fun same found => absurd found (by simp), read⟩)

theorem sound_answers {γ : Type} {call : ClientCall γ} {answer : γ} (sound : cluster.Sound initial)
    (answers : Answers label call cluster answer after) : after.Sound initial := by
  cases call with
  | get key =>
      rcases read_cases answers with ⟨_, -, -, rfl⟩ | ⟨_, -, -, -, rfl⟩ | ⟨_, -, -, rfl⟩
      · exact sound_showing sound
      · exact sound_showing sound
      · exact sound
  | putWithExpiry | putIf | setExpiryIf | deleteIf => exact sound_tried sound answers
  | now | connect | lock | unlock =>
      obtain rfl : after = cluster := answers
      exact sound

theorem sound_others {later : Cluster} (others : Others label cluster later)
    (sound : cluster.Sound initial) :
    later.Sound initial := by
  induction others with
  | refl => exact sound
  | tail _ step ih =>
      rcases step with moves | ⟨_, -, _, _, _, answers⟩
      · exact sound_moves ih moves
      · exact sound_answers ih answers

/-! A cluster that answers every call at once. -/

def nextVersion (cluster : Cluster) : RecordVersion :=
  ⟨1, (cluster.issued.map fun record => record.version.ownerSequence).foldr max 0 + 1, ""⟩

theorem next_version_fresh (cluster : Cluster) {record : Current} (listed : record ∈ cluster.issued) :
    record.version ≠ cluster.nextVersion := by
  have below : ∀ numbers : List Nat, ∀ number ∈ numbers, number ≤ numbers.foldr max 0 := by
    intro numbers
    induction numbers with
    | nil => simp
    | cons first rest ih =>
        intro number member
        rcases List.mem_cons.mp member with rfl | old
        · exact le_max_left _ _
        · exact (ih number old).trans (le_max_right _ _)
  intro same
  have member : record.version.ownerSequence ∈ cluster.issued.map fun record =>
      record.version.ownerSequence :=
    List.mem_map.mpr ⟨record, listed, rfl⟩
  have bound := below _ _ member
  rw [same] at bound
  simp only [nextVersion] at bound
  omega

variable (label)

/-- The write, if its condition holds. -/
def write (cluster : Cluster) (asked : AskedWrite) : Option Cluster :=
  if asked.Met (cluster.shown asked.key) then
    (asked.stores (cluster.shown asked.key) cluster.nextVersion).map (cluster.storing label asked.key)
  else none

def missingKey : ClientError :=
  .operation { code := .notFound, message := "key not found", retryable := false, outcome := .knownNotApplied }

def served {ρ : Type} (cluster : Cluster) (asked : AskedWrite) (output : RecordVersion → ρ) :
    Except ClientError (Option ρ) × Cluster :=
  match cluster.write label asked with
  | some after => (.ok (some (output cluster.nextVersion)), after)
  | none => (.ok none, cluster)

def serve : {γ : Type} → ClientCall γ → Cluster → γ × Cluster
  | _, .now, cluster => (cluster.now, cluster)
  | _, .connect, cluster => (.ok (), cluster)
  | _, .lock _, cluster | _, .unlock _, cluster => ((), cluster)
  | _, .get key, cluster =>
      (match cluster.shown key with
        | some record => .ok { value := record.value, version := record.version, topologyEpoch := 1
                               expiresAtUnixMillis := record.deadline }
        | none => .error missingKey, cluster.showing label key)
  | _, .putWithExpiry key value expiry, cluster =>
      match cluster.write label (.put key value expiry none) with
      | some after => (.ok { version := cluster.nextVersion, topologyEpoch := 1 }, after)
      | none => (.error (.deadlineExceeded .knownNotApplied), cluster)
  | _, .putIf key value expiry expected, cluster =>
      cluster.served label (.put key value expiry (some expected)) fun version =>
        { version, topologyEpoch := 1 }
  | _, .setExpiryIf key deadline expected, cluster =>
      cluster.served label (.expire key deadline expected) fun version => { version, topologyEpoch := 1 }
  | _, .deleteIf key expected, cluster =>
      cluster.served label (.delete key expected) fun version => { version, topologyEpoch := 1 }

variable {label}

theorem write_makes {asked : AskedWrite} (written : cluster.write label asked = some after) :
    cluster.Makes label asked after := by
  unfold write at written
  split at written
  · rename_i met
    obtain ⟨stored, stores, rfl⟩ := Option.map_eq_some_iff.mp written
    exact ⟨met, cluster.nextVersion, stored, stores, fun record listed =>
      next_version_fresh cluster listed, rfl⟩
  · exact absurd written (by simp)

theorem served_tried {ρ : Type} (asked : AskedWrite) (output : RecordVersion → ρ) :
    cluster.Tried label asked (conditionalOutcome (cluster.served label asked output).1)
      (cluster.served label asked output).2 := by
  unfold served
  split
  · rename_i after written
    exact write_makes written
  · rfl

theorem serve_answers {γ : Type} (call : ClientCall γ) (cluster : Cluster) :
    Answers label call cluster (serve label call cluster).1 (serve label call cluster).2 := by
  cases call with
  | get key =>
      simp only [Answers, serve]
      cases shown : cluster.shown key with
      | none => exact ⟨shown, rfl⟩
      | some record => exact ⟨shown, rfl⟩
  | putWithExpiry key value expiry =>
      simp only [Answers, serve]
      split
      · rename_i after written
        exact write_makes written
      · rfl
  | putIf | setExpiryIf | deleteIf => exact served_tried _ _
  | now | connect | lock | unlock => rfl

end Cluster
end Hashring
