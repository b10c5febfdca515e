import Hashring.AtomicUpdates
import Hashring.Dispatcher
import Hashring.PairedTasks
import Hashring.ReplyStream

/-! What every handler of the store's commands has in common. None looks at the
version of a record, so it does the same on two stores that show the same values
and deadlines; and what it answers fits on one line where it has to, if the
errors it is told do. -/
namespace Hashring

open Program Handler

def RedisError.Plain (error : RedisError) : Prop := oneLine error.code = true ∧
    oneLine error.message = true

instance (error : RedisError) : Decidable error.Plain := inferInstanceAs (Decidable (_ ∧ _))

namespace Decide

variable {α : Type}

/-- Records that show the same, whatever their versions. -/
def SameRecord (first second : Current) : Prop := first.value = second.value ∧
    first.deadline = second.deadline

structure Plain (good : α → Prop) (decide : Decide α) : Prop where
  blind : ∀ now first second, Option.Rel SameRecord first second → decide now first = decide now second
  errors : ∀ now current error, decide now current = .error error → error.Plain
  replies : ∀ now current change, decide now current = .ok change → good change.reply

theorem blind_of {decide : Decide α}
    (same : ∀ now value deadline version other, decide now (some ⟨value, deadline, version⟩) =
      decide now (some ⟨value, deadline, other⟩)) :
    ∀ now first second, Option.Rel SameRecord first second → decide now first = decide now second := by
  intro now first second related
  cases related with
  | none => rfl
  | @some first second related =>
      obtain ⟨value, deadline, version⟩ := first
      obtain ⟨_, _, other⟩ := second
      obtain ⟨rfl, rfl⟩ := related
      exact same now value deadline version other

/-- A reply that the decision can come with. -/
def Gives (decide : Decide α) (reply : α) : Prop := ∃ now current change, decide now current =
    .ok change ∧ change.reply = reply

theorem Plain.gives {good : α → Prop} {decide : Decide α} (plain : decide.Plain good) {reply : α}
    (gives : decide.Gives reply) :
    good reply := by
  obtain ⟨now, current, change, decided, rfl⟩ := gives
  exact plain.replies now current change decided

end Decide

/-- Two stores that a handler is run on: which of their records show the same, and
whether the cluster's client may be asked. -/
structure Regime where
  same : Current → Current → Prop
  shown : ∀ first second, same first second → Decide.SameRecord first second
  direct : Prop
  exact : direct → ∀ first second, same first second → first = second

namespace Regime

/-- Two stores whose versions differ. -/
def apart : Regime where
  same := Decide.SameRecord
  shown _ _ same := same
  direct := False
  exact impossible := impossible.elim

variable (regime : Regime)

/-- A decision that goes the same way on both stores. -/
def FairKey {γ : Type} : KeyEffect γ → Prop
  | .update _ decide => (∀ now first second, Option.Rel regime.same first second →
    decide now first = decide now second) ∧
      ∀ now current error, decide now current = .error error → error.Plain
  | .read _ | .put _ _ _ | .putIfAbsent _ _ => True

def Fair {γ : Type} : StoreEffect γ → Prop
  | .one effect => regime.FairKey effect
  | .all effects => ∀ effect ∈ effects, regime.FairKey effect
  | .now | .client | .putIf _ _ _ _ | .deleteIf _ _ => True

/-- Answers of the two stores that no handler can tell apart. -/
def AgreesKey {γ : Type} : KeyEffect γ → γ → γ → Prop
  | .read _, first, second => Agree RedisError.Plain (Option.Rel regime.same) first second
  | .put _ _ _, first, second => Agree RedisError.Plain Eq first second
  | .putIfAbsent _ _, first, second => Agree RedisError.Plain Eq first second
  | .update _ decide, first, second => Agree RedisError.Plain (fun reply other => reply = other ∧
      decide.Gives reply) first second

def AgreesAll {γ : Type} : List (KeyEffect γ) → List γ → List γ → Prop
  | [], [], [] => True
  | effect :: effects, first :: firsts, second :: seconds => regime.AgreesKey effect first second ∧
      AgreesAll effects firsts seconds
  | _, _, _ => False

/-- Answers of the client itself. -/
def AgreesClient {γ : Type} (first second : Except ClientError γ) : Prop :=
  regime.direct ∧ first = second ∧ ∀ error, first = .error error → (RedisError.ofClient error).Plain

def Agrees {γ : Type} : StoreEffect γ → γ → γ → Prop
  | .now, first, second => first = second
  | .one effect, first, second => regime.AgreesKey effect first second
  | .all effects, first, second => regime.AgreesAll effects first second
  | .client, first, second => regime.direct ∧ Agree RedisError.Plain Eq first second
  | .putIf _ _ _ _, first, second => regime.AgreesClient first second
  | .deleteIf _ _, first, second => regime.AgreesClient first second

/-- Both runs of a handler go the same way. -/
def Handled {α : Type} (same : α → α → Prop) (first second : Handler α) : Prop :=
  PairedTask (fun effect => regime.Fair effect) (fun effect => regime.Agrees effect)
    RedisError.Plain same first second

def Comes {α : Type} (known : α → Prop) (handler : Handler α) : Prop :=
  regime.Handled (fun first second => first = second ∧ known first) handler handler

/-- A reply that reads back as one. -/
def Answers (handler : Handler Reply) : Prop := regime.Comes (fun reply => reply.framed = true) handler

variable {regime} {α β : Type} {known : α → Prop} {last : β → Prop}

theorem comes_pure {value : α} (holds : known value) : regime.Comes known (pure value) :=
  paired_pure ⟨rfl, holds⟩

theorem comes_throw {error : RedisError} (plain : error.Plain) : regime.Comes known (throw error) :=
  paired_throw plain

theorem comes_bind {handler : Handler α} {rest : α → Handler β} (first : regime.Comes known handler)
    (goes : ∀ value, known value → regime.Comes last (rest value)) :
    regime.Comes last (handler >>= rest) :=
  paired_same first goes

theorem comes_weaken {weaker : α → Prop} {handler : Handler α} (comes : regime.Comes known handler)
    (implies : ∀ value, known value → weaker value) : regime.Comes weaker handler :=
  paired_weaken comes fun _ _ agree =>
    agree_weaken (fun value _ holds => ⟨holds.1, implies value holds.2⟩) agree

theorem comes_checked {result : Except RedisError α}
    (plain : ∀ error, result = .error error → error.Plain) :
    regime.Comes (fun value => result = .ok value) (checked result) := by
  cases result with
  | error error => exact .done ⟨rfl, plain error rfl⟩
  | ok value => exact .done ⟨rfl, rfl⟩

theorem comes_now : regime.Comes (fun _ => True) Handler.now := by
  refine .perform trivial ?_
  rintro now _ rfl
  exact .done ⟨rfl, trivial⟩

theorem handled_store {effect : KeyEffect (Except RedisError α)} {same : α → α → Prop}
    (fair : regime.FairKey effect)
    (agrees : ∀ first second, regime.AgreesKey effect first second →
      Agree RedisError.Plain same first second) :
    regime.Handled same (store effect) (store effect) :=
  .perform fair fun first second agree => .done (agrees first second agree)

theorem handled_read (key : Bytes) : regime.Handled (Option.Rel regime.same) (store (.read key))
    (store (.read key)) :=
  handled_store trivial fun _ _ agree => agree

theorem plain_fair {decide : Decide α} (plain : decide.Plain known) (key : Bytes) :
    regime.FairKey (.update key decide) := by
  refine ⟨fun now first second related => plain.blind now first second ?_, plain.errors⟩
  cases related with
  | none => exact .none
  | some same => exact .some (regime.shown _ _ same)

theorem comes_update {decide : Decide α} (plain : decide.Plain known) (key : Bytes) :
    regime.Comes known (store (.update key decide)) :=
  handled_store (plain_fair plain key) fun _ _ => agree_weaken fun _ _ same =>
    ⟨same.1, plain.gives same.2⟩

theorem comes_equal {effect : KeyEffect (Except RedisError α)} (fair : regime.FairKey effect)
    (equal : ∀ first second, regime.AgreesKey effect first second →
      Agree RedisError.Plain Eq first second) :
    regime.Comes (fun _ => True) (store effect) :=
  handled_store fair fun first second agree => agree_weaken (fun _ _ same => ⟨same, trivial⟩)
    (equal first second agree)

theorem comes_put (key value : Bytes) (expiry : Expiry) : regime.Comes (fun _ => True)
    (store (.put key value expiry)) :=
  comes_equal trivial fun _ _ agree => agree

theorem comes_put_if_absent (key value : Bytes) : regime.Comes (fun _ => True)
    (store (.putIfAbsent key value)) :=
  comes_equal trivial fun _ _ agree => agree

theorem value_of_related {first second : Option Current} (related : Option.Rel regime.same first second) :
    valueOf first = valueOf second := by
  cases related with
  | none => rfl
  | some same => exact congrArg some (regime.shown _ _ same).1

theorem deadline_of_related {first second : Option Current}
    (related : Option.Rel regime.same first second) :
    kept first = kept second := by
  cases related with
  | none => rfl
  | some same => exact (regime.shown _ _ same).2

theorem present_related {first second : Option Current} (related : Option.Rel regime.same first second) :
    first.isSome = second.isSome := by
  cases related <;> rfl

theorem answers_shown (key : Bytes) (reply : Option Bytes → Reply)
    (framed : ∀ value, (reply value).framed = true) :
    regime.Answers (do
      let current ← store (.read key)
      return reply (valueOf current)) := by
  refine paired_then (handled_read key) fun first second related => ?_
  rw [value_of_related related]
  exact comes_pure (framed _)

theorem handled_client : regime.Handled (fun _ _ => regime.direct) client client := by
  refine .perform trivial ?_
  rintro first second ⟨direct, agree⟩
  exact .done (agree_weaken (fun _ _ _ => direct) agree)

theorem comes_direct {call : StoreEffect (Except ClientError α)} (fair : regime.Fair call)
    (agrees : ∀ first second, regime.Agrees call first second → regime.AgreesClient first second) :
    regime.Comes (fun _ => True) (Handler.direct call) := by
  refine .perform fair fun first second agree => ?_
  obtain ⟨-, rfl, plain⟩ := agrees first second agree
  cases first with
  | ok value => exact .done ⟨rfl, trivial⟩
  | error error => exact .done ⟨rfl, plain error rfl⟩

/-! Several keys at once. -/

theorem agrees_all_each {γ : Type} {related : γ → γ → Prop} {effects : List (KeyEffect γ)}
    {firsts seconds : List γ}
    (each : ∀ effect ∈ effects, ∀ first second, regime.AgreesKey effect first second →
      related first second)
    (agree : regime.AgreesAll effects firsts seconds) : List.Forall₂ related firsts seconds := by
  induction effects generalizing firsts seconds with
  | nil =>
      cases firsts with
      | nil =>
          cases seconds with
          | nil => exact .nil
          | cons second seconds => exact agree.elim
      | cons first firsts => exact agree.elim
  | cons effect effects ih =>
      cases firsts with
      | nil => exact agree.elim
      | cons first firsts =>
          cases seconds with
          | nil => exact agree.elim
          | cons second seconds =>
              refine .cons (each effect List.mem_cons_self first second agree.1) (ih ?_ agree.2)
              exact fun other member => each other (List.mem_cons_of_mem _ member)

theorem agree_mapM {same : α → α → Prop} {firsts seconds : List (Except RedisError α)}
    (agree : List.Forall₂ (Agree RedisError.Plain same) firsts seconds) :
    Agree RedisError.Plain (List.Forall₂ same) (firsts.mapM id) (seconds.mapM id) := by
  induction agree with
  | nil => exact List.Forall₂.nil
  | cons head _ ih =>
      rw [List.mapM_cons, List.mapM_cons]
      exact agree_bind head fun value other same => agree_bind ih fun values others rest =>
        .cons same rest

theorem handled_reads (keys : List Bytes) :
    regime.Handled (List.Forall₂ (Option.Rel regime.same)) (each (keys.map .read))
      (each (keys.map .read)) := by
  have read : ∀ effect ∈ keys.map (KeyEffect.read), ∀ first second, regime.AgreesKey effect first second →
      Agree RedisError.Plain (Option.Rel regime.same) first second := by
    intro effect member first second agree
    obtain ⟨key, -, rfl⟩ := List.mem_map.mp member
    exact agree
  refine .perform ?_ fun firsts seconds agree => .done (agree_mapM (agrees_all_each read agree))
  intro effect member
  obtain ⟨key, -, rfl⟩ := List.mem_map.mp member
  trivial

theorem outcome_unknown_plain {detail : String}
    (whole : oneLine detail = true) : (RedisError.outcomeUnknown detail).Plain := by
  have code : oneLine "ERR" = true := by decide
  refine ⟨code, ?_⟩
  show oneLine (detail ++ "; its writes may or may not have been applied") = true
  rw [one_line_append, whole]
  decide

theorem partial_outcome_plain {results : List (Except RedisError α)}
    (plain : ∀ error, .error error ∈ results → error.Plain) (error : RedisError)
    (failed : partialWriteOutcome results = .error error) : error.Plain := by
  unfold partialWriteOutcome at failed
  simp only at failed
  split at failed
  · exact absurd failed (by simp)
  · rename_i first rest listed
    have known : first ∈ results.filterMap failureOf := listed ▸ List.mem_cons_self
    obtain ⟨result, member, same⟩ := List.mem_filterMap.mp known
    have firstPlain : first.Plain := by
      cases result with
      | ok value => exact absurd same (by simp [failureOf])
      | error found => exact plain first (Option.some.inj same ▸ member)
    split at failed
    · rw [← Except.error.inj failed]
      apply outcome_unknown_plain
      show oneLine ("the command failed on some of its keys after others were written (" ++
          first.code ++ " " ++
        first.message ++ ")") = true
      simp only [one_line_append, firstPlain.1, firstPlain.2]
      decide
    · exact Except.error.inj failed ▸ firstPlain

theorem comes_each_write {effects : List (KeyEffect (Except RedisError α))}
    (fair : ∀ effect ∈ effects, regime.FairKey effect)
    (equal : ∀ effect ∈ effects, ∀ first second, regime.AgreesKey effect first second →
      Agree RedisError.Plain Eq first second) : regime.Comes (fun _ => True) (eachWrite effects) := by
  refine .perform fair fun firsts seconds agree => ?_
  have pointwise := agrees_all_each equal agree
  have same : firsts = seconds ∧ ∀ error, .error error ∈ firsts → error.Plain := by
    clear agree fair equal
    induction pointwise with
    | nil => exact ⟨rfl, fun _ member => absurd member List.not_mem_nil⟩
    | @cons first second firsts seconds head _ ih =>
        have equalHead : first = second ∧ ∀ error, first = .error error → error.Plain := by
          cases first with
          | error error =>
              cases second with
              | error mistake => exact ⟨congrArg Except.error head.1, fun _ found =>
                  Except.error.inj found ▸ head.2⟩
              | ok value => exact head.elim
          | ok value =>
              cases second with
              | error mistake => exact head.elim
              | ok other => exact ⟨congrArg Except.ok head, fun _ found => absurd found (by simp)⟩
        refine ⟨by rw [equalHead.1, ih.1], fun error member => ?_⟩
        rcases List.mem_cons.mp member with found | later
        · exact equalHead.2 error found.symm
        · exact ih.2 error later
  obtain ⟨rfl, plain⟩ := same
  exact comes_weaken (comes_checked (partial_outcome_plain plain)) fun _ _ => trivial

/-! Arguments. -/

theorem next_required_error {args : Args} (error : RedisError)
    (failed : args.nextRequired = .error error) : error.Plain := by
  unfold Args.nextRequired at failed
  split at failed
  · obtain rfl := Except.error.inj failed
    decide
  · exact absurd failed (by simp)

theorem next_required_named {args : Args} {found : Bytes × Args} (taken : args.nextRequired = .ok found) :
    found.2.name = args.name := by
  unfold Args.nextRequired at taken
  split at taken
  · exact absurd taken (by simp)
  · exact Except.ok.inj taken ▸ rfl

theorem integer_error {value : Bytes} {command : String} (named : oneLine command = true)
    (error : RedisError)
    (failed : integer value command = .error error) : error.Plain := by
  unfold integer at failed
  split at failed
  · exact absurd failed (by simp)
  · obtain rfl := Except.error.inj failed
    have code : oneLine "ERR" = true := by decide
    refine ⟨code, ?_⟩
    show oneLine ("value is not an integer or out of range (" ++ command ++ ")") = true
    simp only [one_line_append, named]
    decide

theorem invalid_expire_time_plain {command : String}
    (named : oneLine command = true) : (invalidExpireTime command).Plain := by
  have code : oneLine "ERR" = true := by decide
  refine ⟨code, ?_⟩
  show oneLine ("invalid expire time in '" ++ command ++ "' command") = true
  simp only [one_line_append, named]
  decide

theorem positive_deadline_error {form : TtlForm} {amount : Int} {now : Nat} {command : String}
    (named : oneLine command = true)
    (error : RedisError) (failed : positiveDeadline form amount now command = .error error) :
    error.Plain := by
  unfold positiveDeadline at failed
  split at failed
  · exact Except.error.inj failed ▸ invalid_expire_time_plain named
  · split at failed
    · exact absurd failed (by simp)
    · exact Except.error.inj failed ▸ invalid_expire_time_plain named

theorem comes_next (args : Args) : regime.Comes (fun found => found.2.name = args.name)
    (checked args.nextRequired) :=
  comes_weaken (comes_checked next_required_error) fun _ => next_required_named

theorem comes_integer {value : Bytes} {command : String} (named : oneLine command = true) :
    regime.Comes (fun _ => True) (checked (integer value command)) :=
  comes_weaken (comes_checked (integer_error named)) fun _ _ => trivial

theorem next_integer_cases {args : Args} (named : oneLine args.name = true) :
    (∀ error, args.nextInteger = .error error → error.Plain) ∧
      ∀ found, args.nextInteger = .ok found → found.2.name = args.name := by
  unfold Args.nextInteger
  cases taken : args.nextRequired with
  | error error =>
      refine ⟨fun found same => ?_, fun found same => absurd same (by simp [bind, Except.bind])⟩
      exact Except.error.inj same ▸ next_required_error error taken
  | ok word =>
      have kept := next_required_named taken
      simp only [bind, Except.bind]
      cases read : integer word.1 word.2.name with
      | error error =>
          refine ⟨fun found same => ?_, fun found same => absurd same (by simp)⟩
          exact Except.error.inj same ▸ integer_error (kept ▸ named) error read
      | ok value =>
          refine ⟨fun found same => absurd same (by simp [pure, Except.pure]), fun found same => ?_⟩
          exact Except.ok.inj same ▸ kept

theorem comes_next_integer {args : Args} (named : oneLine args.name = true) :
    regime.Comes (fun found => found.2.name = args.name) (checked args.nextInteger) :=
  comes_weaken (comes_checked (next_integer_cases named).1) (next_integer_cases named).2

end Regime

/-! Decisions. -/

theorem bulk_or_nil_framed (value : Option Bytes) : (bulkOrNil value).framed = true := by
  cases value <;> rfl

theorem delete_one_plain : Decide.Plain (fun _ => True) deleteOne where
  blind := Decide.blind_of fun _ _ _ _ _ => rfl
  errors now current error failed := by
    cases current <;> exact absurd failed (by simp [deleteOne])
  replies _ _ _ _ := trivial

namespace Strings

theorem getdel_plain : Decide.Plain (fun reply => reply.framed = true) getdelDecide where
  blind := Decide.blind_of fun _ _ _ _ _ => rfl
  errors now current error failed := by
    cases current <;> exact absurd failed (by simp [getdelDecide])
  replies now current change decided := by
    cases current <;> exact Except.ok.inj decided ▸ rfl

theorem getex_plain (change : Option (Option Nat)) : Decide.Plain (fun reply => reply.framed = true)
    (getexDecide change) where
  blind := Decide.blind_of fun _ _ _ _ _ => rfl
  errors now current error failed := by
    unfold getexDecide at failed
    split at failed
    · exact absurd failed (by simp)
    · split at failed
      · split at failed <;> exact absurd failed (by simp)
      · exact absurd failed (by simp)
  replies now current change decided := by
    unfold getexDecide at decided
    split at decided
    · exact Except.ok.inj decided ▸ rfl
    · split at decided
      · split at decided <;> exact Except.ok.inj decided ▸ rfl
      · exact Except.ok.inj decided ▸ rfl

theorem set_plain (options : SetOptions) (value : Bytes) :
    Decide.Plain (fun reply => reply.framed = true) (setDecide options value) where
  blind := Decide.blind_of fun _ _ _ _ _ => rfl
  errors now current error failed := by
    unfold setDecide at failed
    simp only at failed
    split at failed <;> exact absurd failed (by simp)
  replies now current change decided := by
    have shown : (if options.get then bulkOrNil (valueOf current) else Reply.status).framed = true := by
      split
      · exact bulk_or_nil_framed _
      · decide
    unfold setDecide at decided
    simp only at decided
    split at decided
    · exact Except.ok.inj decided ▸ shown
    · rw [← Except.ok.inj decided]
      show (if options.get then _ else Reply.nil).framed = true
      split
      · exact bulk_or_nil_framed _
      · rfl

theorem setnx_plain (value : Bytes) : Decide.Plain (fun reply => reply.framed = true)
    (setnxDecide value) where
  blind := Decide.blind_of fun _ _ _ _ _ => rfl
  errors now current error failed := by
    cases current <;> exact absurd failed (by simp [setnxDecide])
  replies now current change decided := by
    cases current <;> exact Except.ok.inj decided ▸ rfl

theorem getset_plain (value : Bytes) : Decide.Plain (fun reply => reply.framed = true)
    (getsetDecide value) where
  blind := Decide.blind_of fun _ _ _ _ _ => rfl
  errors now current error failed := absurd failed (by simp [getsetDecide])
  replies now current change decided := by
    rw [← Except.ok.inj decided]
    exact bulk_or_nil_framed _

theorem setrange_plain (offset : Nat) (patch : Bytes) :
    Decide.Plain (fun reply => reply.framed = true) (setrangeDecide offset patch) where
  blind := Decide.blind_of fun _ _ _ _ _ => rfl
  errors now current error failed := absurd failed (by simp [setrangeDecide])
  replies now current change decided := Except.ok.inj decided ▸ rfl

theorem append_plain (maxValue : Nat) (suffix : Bytes) :
    Decide.Plain (fun reply => reply.framed = true) (appendDecide maxValue suffix) where
  blind := Decide.blind_of fun _ _ _ _ _ => rfl
  errors now current error failed := by
    unfold appendDecide at failed
    simp only at failed
    split at failed
    · obtain rfl := Except.error.inj failed
      decide
    · exact absurd failed (by simp)
  replies now current change decided := by
    unfold appendDecide at decided
    simp only at decided
    split at decided
    · exact absurd decided (by simp)
    · exact Except.ok.inj decided ▸ rfl

theorem incr_cases (delta : Int) (now : Nat) (current : Option Current) :
    incrDecide delta now current = .error .notAnInteger ∨ incrDecide delta now current = .error .overflow ∨
      ∃ value updated, incrDecide delta now current = .ok (.put value (kept current) (.integer updated)) := by
  have added : ∀ base : Int, ((do
      let updated := base + delta
      if i64Min ≤ updated ∧ updated ≤ i64Max then
        return .put (signedDecimal updated) (kept current) (.integer updated)
      else throw .overflow : Except RedisError (Change Reply)) = .error .overflow) ∨ ∃ value updated, (do
      let updated := base + delta
      if i64Min ≤ updated ∧ updated ≤ i64Max then
        return .put (signedDecimal updated) (kept current) (.integer updated)
      else throw .overflow : Except RedisError (Change Reply)) =
          .ok (.put value (kept current) (.integer updated)) := by
    intro base
    by_cases fits : i64Min ≤ base + delta ∧ base + delta ≤ i64Max
    · exact .inr ⟨_, _, if_pos fits⟩
    · exact .inl (if_neg fits)
  cases current with
  | none => exact .inr (added 0)
  | some record =>
      cases read : parseInteger record.value with
      | none => exact .inl (by simp [incrDecide, read, bind, Except.bind])
      | some base =>
          refine .inr ?_
          simp only [incrDecide, read]
          exact added base

theorem incr_plain (delta : Int) : Decide.Plain (fun reply => reply.framed = true)
    (incrDecide delta) where
  blind := Decide.blind_of fun _ _ _ _ _ => rfl
  errors now current error failed := by
    rcases incr_cases delta now current with word | exceeded | ⟨_, _, done⟩
    · obtain rfl := Except.error.inj (word.symm.trans failed)
      decide
    · obtain rfl := Except.error.inj (exceeded.symm.trans failed)
      decide
    · exact absurd (done.symm.trans failed) (by simp)
  replies now current change decided := by
    rcases incr_cases delta now current with word | exceeded | ⟨_, _, done⟩
    · exact absurd (word.symm.trans decided) (by simp)
    · exact absurd (exceeded.symm.trans decided) (by simp)
    · exact Except.ok.inj (done.symm.trans decided) ▸ rfl

def badIncrement : RedisError := ⟨"ERR", "increment would produce NaN or Infinity", false⟩

theorem incrbyfloat_cases (runtime : Runtime) (delta : runtime.Float) (now : Nat)
    (current : Option Current) :
    incrbyfloatDecide runtime delta now current = .error .notAFloat ∨
      incrbyfloatDecide runtime delta now current = .error badIncrement ∨
      ∃ value, incrbyfloatDecide runtime delta now current =
        .ok (.put value (kept current) (.ofBytes value)) := by
  cases current with
  | none =>
      cases sum : runtime.add runtime.zero delta with
      | none =>
          exact .inr (.inl (by simp [incrbyfloatDecide, bind, Except.bind, sum, throw, throwThe,
            MonadExceptOf.throw, badIncrement]))
      | some updated =>
          exact .inr (.inr ⟨_, by simp only [incrbyfloatDecide, bind, Except.bind, sum]; rfl⟩)
  | some record =>
      by_cases empty : record.value = []
      · cases sum : runtime.add runtime.zero delta with
        | none =>
            exact .inr (.inl (by simp [incrbyfloatDecide, empty, bind, Except.bind, sum, throw, throwThe,
              MonadExceptOf.throw, badIncrement]))
        | some updated =>
            exact .inr (.inr ⟨_, by
              simp only [incrbyfloatDecide, empty, if_true, bind, Except.bind, sum]; rfl⟩)
      · cases read : runtime.float record.value with
        | error error =>
            have word : error = .notAFloat := by
              unfold Runtime.float at read
              split at read
              · exact absurd read (by simp)
              · exact (Except.error.inj read).symm
            subst word
            exact .inl (by simp [incrbyfloatDecide, empty, read, bind, Except.bind])
        | ok base =>
            cases sum : runtime.add base delta with
            | none =>
                exact .inr (.inl (by simp [incrbyfloatDecide, empty, read, bind, Except.bind, sum, throw,
                  throwThe, MonadExceptOf.throw, badIncrement]))
            | some updated =>
                exact .inr (.inr ⟨_, by
                  simp only [incrbyfloatDecide, empty, if_false, read, bind, Except.bind, sum]; rfl⟩)

theorem incrbyfloat_plain (runtime : Runtime) (delta : runtime.Float) :
    Decide.Plain (fun reply => reply.framed = true) (incrbyfloatDecide runtime delta) where
  blind := Decide.blind_of fun _ _ _ _ _ => rfl
  errors now current error failed := by
    rcases incrbyfloat_cases runtime delta now current with word | wide | ⟨_, done⟩
    · obtain rfl := Except.error.inj (word.symm.trans failed)
      decide
    · obtain rfl := Except.error.inj (wide.symm.trans failed)
      decide
    · exact absurd (done.symm.trans failed) (by simp)
  replies now current change decided := by
    rcases incrbyfloat_cases runtime delta now current with word | wide | ⟨_, done⟩
    · exact absurd (word.symm.trans decided) (by simp)
    · exact absurd (wide.symm.trans decided) (by simp)
    · exact Except.ok.inj (done.symm.trans decided) ▸ rfl

end Strings

theorem expire_plain (guard : ExpiryGuard) (requested : Int) :
    Decide.Plain (fun reply => reply.framed = true) (expireDecide guard requested) where
  blind := Decide.blind_of fun _ _ _ _ _ => rfl
  errors now current error failed := by
    unfold expireDecide at failed
    split at failed
    · exact absurd failed (by simp)
    · split at failed
      · split at failed
        · split at failed <;> exact absurd failed (by simp)
        · exact absurd failed (by simp)
      · exact absurd failed (by simp)
  replies now current change decided := by
    unfold expireDecide at decided
    split at decided
    · exact Except.ok.inj decided ▸ rfl
    · split at decided
      · split at decided
        · split at decided <;> exact Except.ok.inj decided ▸ rfl
        · exact Except.ok.inj decided ▸ rfl
      · exact Except.ok.inj decided ▸ rfl

theorem persist_plain : Decide.Plain (fun reply => reply.framed = true) persistDecide where
  blind := Decide.blind_of fun _ _ _ _ _ => rfl
  errors now current error failed := by
    unfold persistDecide at failed
    split at failed <;> exact absurd failed (by simp)
  replies now current change decided := by
    unfold persistDecide at decided
    split at decided <;> exact Except.ok.inj decided ▸ rfl

end Hashring
