import Hashring.TaskRuns

/-! Two runs of a task that cannot be told apart: they ask for the same effects, and
what the answers differ in makes no difference to what is asked next. -/
namespace Hashring.Program

variable {Effect : Type → Type 1} {α β γ δ ε σ τ : Type}

section Paired

variable (fair : {ι : Type} → Effect ι → Prop) (agrees : {ι : Type} → Effect ι → ι → ι → Prop)

inductive Paired (same : α → β → Prop) : Program Effect α → Program Effect β → Prop
  | done {first : α} {second : β} (ends : same first second) : Paired same (.done first) (.done second)
  | perform {ι : Type} {effect : Effect ι} {next : ι → Program Effect α}
      {other : ι → Program Effect β} (asks : fair effect)
      (goes : ∀ first second, agrees effect first second → Paired same (next first) (other second)) :
      Paired same (.perform effect next) (.perform effect other)
  | choose {next : Nat → Program Effect α} {other : Nat → Program Effect β}
      (goes : ∀ pick, Paired same (next pick) (other pick)) :
      Paired same (.choose next) (.choose other)
  | halt : Paired same .halt .halt

variable {fair agrees} {middle : α → β → Prop} {same : γ → δ → Prop}

theorem paired_bind {first : Program Effect α} {second : Program Effect β} {rest : α → Program Effect γ}
    {other : β → Program Effect δ} (pair : Paired fair agrees middle first second)
    (goes : ∀ a b, middle a b → Paired fair agrees same (rest a) (other b)) :
    Paired fair agrees same (first >>= rest) (second >>= other) := by
  induction pair with
  | done ends => exact goes _ _ ends
  | perform asks _ ih => exact .perform asks ih
  | choose _ ih => exact .choose ih
  | halt => exact .halt

theorem paired_weaken {weaker : α → β → Prop} {first : Program Effect α} {second : Program Effect β}
    (pair : Paired fair agrees middle first second) (implies : ∀ a b, middle a b → weaker a b) :
    Paired fair agrees weaker first second := by
  induction pair with
  | done ends => exact .done (implies _ _ ends)
  | perform asks _ ih => exact .perform asks ih
  | choose _ ih => exact .choose ih
  | halt => exact .halt

theorem paired_lift {Wider : Type → Type 1} {asked : {ι : Type} → Wider ι → Prop}
    {alike : {ι : Type} → Wider ι → ι → ι → Prop}
    (embed : {ι : Type} → Effect ι → Wider ι)
    (asks : ∀ {ι : Type} (effect : Effect ι), fair effect → asked (embed effect))
    (reads : ∀ {ι : Type} (effect : Effect ι) first second, alike (embed effect) first second →
      agrees effect first second)
    {first : Program Effect α} {second : Program Effect β}
    (pair : Paired fair agrees middle first second) :
    Paired asked alike middle (first.lift embed) (second.lift embed) := by
  induction pair with
  | done ends => exact .done ends
  | perform fits _ ih => exact .perform (asks _ fits) fun a b agree => ih a b (reads _ a b agree)
  | choose _ ih => exact .choose ih
  | halt => exact .halt

theorem paired_interruptible {handler first : Program Effect α} {other second : Program Effect β}
    (drops : Paired fair agrees middle handler other) (pair : Paired fair agrees middle first second) :
    Paired fair agrees middle (interruptible handler first) (interruptible other second) := by
  induction pair with
  | done ends => exact .done ends
  | perform asks _ ih =>
      refine .choose fun pick => ?_
      by_cases now : pick = 0
      · simpa only [now, if_true] using drops
      · simpa only [now, if_false] using .perform asks ih
  | choose _ ih => exact .choose ih
  | halt => exact .choose fun _ => drops

/-- A run of the first, in states that the second's can follow, is matched by one of
the second. -/
theorem ends_paired {handles : {ι : Type} → Effect ι → σ → ι → σ → Prop} {rely : σ → σ → Prop}
    {follows : {ι : Type} → Effect ι → τ → ι → τ → Prop} {waits : τ → τ → Prop}
    (related : σ → τ → Prop)
    (step : ∀ {ι : Type} (effect : Effect ι) state shadow answer after, fair effect →
      related state shadow →
      handles effect state answer after →
        ∃ other next, follows effect shadow other next ∧ agrees effect answer other ∧ related after next)
    (moved : ∀ state shadow later, related state shadow → rely state later →
      ∃ next, waits shadow next ∧ related later next)
    {first : Program Effect α} {second : Program Effect β} (pair : Paired fair agrees middle first second)
    {value : α} {state last : σ} {shadow : τ} (starts : related state shadow)
    (ends : first.Ends handles rely state value last) :
    ∃ other final, second.Ends follows waits shadow other final ∧ middle value other ∧
      related last final := by
  induction pair generalizing state shadow with
  | done same =>
      obtain ⟨rfl, passed⟩ := ends
      obtain ⟨final, waited, reached⟩ := moved state shadow last starts passed
      exact ⟨_, final, ⟨rfl, waited⟩, same, reached⟩
  | @perform ι effect next other asks _ ih =>
      obtain ⟨later, answer, after, passed, handled, rest⟩ := ends
      obtain ⟨beside, waited, between⟩ := moved state shadow later starts passed
      obtain ⟨found, followed, follows, agree, reached⟩ :=
        step effect later beside answer after asks between handled
      obtain ⟨result, final, ran, same, ended⟩ := ih answer found agree reached rest
      exact ⟨result, final, ⟨beside, found, followed, waited, follows, ran⟩, same, ended⟩
  | choose _ ih =>
      obtain ⟨pick, rest⟩ := ends
      obtain ⟨result, final, ran, same, ended⟩ := ih pick starts rest
      exact ⟨result, final, ⟨pick, ran⟩, same, ended⟩
  | halt => exact ends.elim

end Paired

/-! Tasks that may fail: they fail together, with the same error. -/

def Agree (good : ε → Prop) (same : α → β → Prop) : Except ε α → Except ε β → Prop
  | .ok first, .ok second => same first second
  | .error first, .error second => first = second ∧ good first
  | _, _ => False

theorem agree_weaken {good : ε → Prop} {same weaker : α → β → Prop}
    (implies : ∀ a b, same a b → weaker a b)
    {first : Except ε α} {second : Except ε β} (agree : Agree good same first second) :
    Agree good weaker first second := by
  cases first with
  | error error =>
      cases second with
      | error mistake => exact agree
      | ok value => exact agree.elim
  | ok value =>
      cases second with
      | error mistake => exact agree.elim
      | ok found => exact implies value found agree

theorem agree_equal {good : ε → Prop} {known : α → Prop} {first second : Except ε α}
    (agree : Agree good (fun a b => a = b ∧ known a) first second) : first = second := by
  cases first with
  | error error =>
      cases second with
      | error mistake => exact congrArg Except.error agree.1
      | ok value => exact agree.elim
  | ok value =>
      cases second with
      | error mistake => exact agree.elim
      | ok found => exact congrArg Except.ok agree.1

theorem agree_bind {good : ε → Prop} {same : α → β → Prop} {last : γ → δ → Prop}
    {first : Except ε α} {second : Except ε β} {rest : α → Except ε γ} {other : β → Except ε δ}
    (agree : Agree good same first second)
    (goes : ∀ a b, same a b → Agree good last (rest a) (other b)) : Agree good last (first >>= rest)
      (second >>= other) := by
  cases first with
  | error error =>
      cases second with
      | error mistake => exact agree
      | ok value => exact agree.elim
  | ok value =>
      cases second with
      | error mistake => exact agree.elim
      | ok found => exact goes value found agree

section Tasks

variable (fair : {ι : Type} → Effect ι → Prop) (agrees : {ι : Type} → Effect ι → ι → ι → Prop)
  (good : ε → Prop)

def PairedTask (same : α → β → Prop) (first : ExceptT ε (Program Effect) α)
    (second : ExceptT ε (Program Effect) β) : Prop :=
  Paired fair agrees (Agree good same) first.run second.run

variable {fair agrees good} {same : α → β → Prop} {last : γ → δ → Prop}

theorem paired_pure {first : α} {second : β} (ends : same first second) :
    PairedTask fair agrees good same (pure first) (pure second) :=
  .done ends

theorem paired_throw {error : ε} (known : good error) :
    PairedTask fair agrees good same (throw error : ExceptT ε (Program Effect) α) (throw error) :=
  .done ⟨rfl, known⟩

theorem paired_then {first : ExceptT ε (Program Effect) α} {second : ExceptT ε (Program Effect) β}
    {rest : α → ExceptT ε (Program Effect) γ} {other : β → ExceptT ε (Program Effect) δ}
    (pair : PairedTask fair agrees good same first second)
    (goes : ∀ a b, same a b → PairedTask fair agrees good last (rest a) (other b)) :
    PairedTask fair agrees good last (first >>= rest) (second >>= other) := by
  refine paired_bind pair ?_
  rintro (error | a) (mistake | b) agree
  · exact .done agree
  · exact agree.elim
  · exact agree.elim
  · exact goes a b agree

/-- What both found is one value. -/
theorem paired_same {first : ExceptT ε (Program Effect) α} {second : ExceptT ε (Program Effect) α}
    {known : α → Prop} {rest : α → ExceptT ε (Program Effect) γ}
    {other : α → ExceptT ε (Program Effect) δ}
    (pair : PairedTask fair agrees good (fun a b => a = b ∧ known a) first second)
    (goes : ∀ a, known a → PairedTask fair agrees good last (rest a) (other a)) :
    PairedTask fair agrees good last (first >>= rest) (second >>= other) := by
  refine paired_then pair ?_
  rintro a _ ⟨rfl, holds⟩
  exact goes a holds

end Tasks

end Hashring.Program
