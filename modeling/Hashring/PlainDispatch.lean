import Hashring.PlainCommands
import Hashring.PrivateTasks

/-! Command dispatch on stores that show the same: a command goes the same way on
both, up to the keyspace, which no private store reaches. -/
namespace Hashring

open Program

namespace Regime

variable (regime : Regime)

def FairCommand {γ : Type} : CommandEffect γ → Prop
  | .store effect => regime.Fair effect
  | .keys _ _ | .scan _ _ _ _ | .keyCount | .randomKey | .uptime | .instanceId | .extension _ _ _ => True

def AgreesCommand {γ : Type} : CommandEffect γ → γ → γ → Prop
  | .store effect, first, second => regime.Agrees effect first second
  | .keys _ _, first, second => first = second
  | .scan _ _ _ _, first, second => first = second
  | .keyCount, first, second => first = second
  | .randomKey, first, second => first = second
  | .uptime, first, second => first = second
  | .instanceId, first, second => first = second
  | .extension _ _ _, first, second => first = second

/-- Both runs of a program come to one result. -/
def Settles {α : Type} (program : Program CommandEffect α) : Prop :=
  Paired (fun effect => regime.FairCommand effect) (fun effect => regime.AgreesCommand effect) Eq
    program program

variable {regime} {α β : Type}

theorem settles_done (value : α) : regime.Settles (.done value) := .done rfl

theorem settles_then {program : Program CommandEffect α} {rest : α → Program CommandEffect β}
    (first : regime.Settles program)
    (second : ∀ value, regime.Settles (rest value)) : regime.Settles (program >>= rest) := by
  refine paired_bind first ?_
  rintro value _ rfl
  exact second value

theorem settles_call {effect : CommandEffect α} (fair : regime.FairCommand effect)
    (equal : ∀ first second, regime.AgreesCommand effect first second → first = second) :
    regime.Settles (.call effect) :=
  .perform fair fun first second agree => .done (equal first second agree)

theorem settles_asked {effect : CommandEffect α} (fair : regime.FairCommand effect)
    (equal : ∀ first second, regime.AgreesCommand effect first second → first = second) :
    regime.Settles (Command.ask effect).run :=
  settles_then (settles_call fair equal) fun value => settles_done (Except.ok value : Except RedisError α)

theorem settles_bind {task : Command α} {rest : α → Command β} (first : regime.Settles task.run)
    (second : ∀ value, regime.Settles (rest value).run) : regime.Settles (task >>= rest).run := by
  refine settles_then first ?_
  rintro (error | value)
  · exact settles_done _
  · exact second value

theorem settles_handler {handler : Handler Reply} (answers : regime.Answers handler) :
    regime.Settles (Command.handled handler).run := by
  have lifted : Paired (fun effect => regime.FairCommand effect)
      (fun effect => regime.AgreesCommand effect)
      (Agree RedisError.Plain fun first second => first = second ∧ first.framed = true)
      (handler.run.lift CommandEffect.store) (handler.run.lift CommandEffect.store) :=
    paired_lift CommandEffect.store (fun _ fair => fair) (fun _ _ _ agree => agree) answers
  exact paired_weaken lifted fun _ _ => agree_equal

variable {dispatcher : Dispatcher}

theorem settles_info (args : Args) : regime.Settles (dispatcher.info args).run := by
  have uptime : regime.Settles (Command.ask .uptime).run := settles_asked trivial fun _ _ agree => agree
  have instanceId : regime.Settles (Command.ask .instanceId).run :=
    settles_asked trivial fun _ _ agree => agree
  unfold Dispatcher.info
  simp only
  split
  · exact settles_done _
  · refine settles_bind uptime fun seconds => ?_
    split
    · exact settles_bind (settles_bind instanceId fun id => settles_done _) fun server => settles_done _
    · exact settles_done _

theorem settles_local (command : CommandInfo) (connection : Connection) (args : Args) :
    regime.Settles (dispatcher.localCommand command connection args) := by
  unfold Dispatcher.localCommand
  iterate 9
    split
    · exact settles_done _
  split
  · exact settles_then (settles_info args) fun _ => settles_done _
  · split <;> exact settles_done _

theorem settles_timed {limited : Bool} {command : CommandInfo} {connection : Connection}
    {task : Command Reply}
    (settles : regime.Settles task.run) :
    regime.Settles (Dispatcher.timed limited command connection task) := by
  refine settles_then ?_ fun _ => settles_done _
  split
  · exact settles
  · exact paired_interruptible (settles_done _) settles

end Regime

namespace Dispatcher

variable {dispatcher : Dispatcher}

theorem command_listed {name : String} {command : CommandInfo}
    (found : dispatcher.command name = some command)
    (own : (dispatcher.extension.any fun item => item.name = command.name) = false) :
    command ∈ commandTable ∧ eqIgnoreAsciiCase command.name name = true := by
  rcases Option.or_eq_some_iff.mp found with extended | ⟨-, listed⟩
  · have member : command ∈ dispatcher.extension := List.mem_of_find?_eq_some extended
    have listed : (dispatcher.extension.any fun item => item.name = command.name) = true :=
      List.any_eq_true.mpr ⟨command, member, decide_eq_true rfl⟩
    exact absurd (listed.symm.trans own) (by simp)
  · have found : commandTable.find? (fun info => eqIgnoreAsciiCase info.name name) = some command :=
      listed
    exact ⟨List.mem_of_find?_eq_some found, by simpa using List.find?_some found⟩

theorem listed_one_line : ∀ command ∈ commandTable, oneLine command.name = true := by decide +kernel

theorem listed_keyspace : ∀ command ∈ commandTable,
    command.name ∈ ["keys", "scan", "dbsize", "randomkey"] ↔ command.keyspace = true := by decide +kernel

theorem settles_cluster {regime : Regime} {command : CommandInfo} {args : Args}
    (listed : command ∈ commandTable) (keyed : command.keyspace = false)
    (named : args.name = command.name) :
    regime.Settles (dispatcher.cluster command.name args).run := by
  have one : oneLine args.name = true := named ▸ listed_one_line command listed
  have outside : command.name ∉ ["keys", "scan", "dbsize", "randomkey"] := fun member => by
    simp [(listed_keyspace command listed).mp member] at keyed
  unfold cluster
  cases found : dispatcher.handler command.name args with
  | some handler => exact Regime.settles_handler (handler_answers one found)
  | none =>
      simp only [List.mem_cons, not_or] at outside
      simp only [if_neg outside.1, if_neg outside.2.1, if_neg outside.2.2.1, if_neg outside.2.2.2.1]
      exact Regime.settles_done _

/-- Whatever a client sends. -/
theorem settles_privately {regime : Regime} (connection : Connection) (args : List Bytes) :
    regime.Settles (dispatcher.executeWithStore true connection args) := by
  cases args with
  | nil => exact Regime.settles_done _
  | cons first rest =>
      simp only [executeWithStore]
      split
      · exact Regime.settles_done _
      · rename_i command found
        split
        · exact Regime.settles_done _
        · split
          · exact Regime.settles_done _
          · split
            · exact Regime.settles_done _
            · split
              · exact Regime.settles_timed (Regime.settles_call trivial fun _ _ agree => agree)
              · rename_i own
                obtain ⟨listed, -⟩ := command_listed found (by simpa using own)
                split
                · exact Regime.settles_done _
                · rename_i keyed
                  split
                  · exact Regime.settles_local command connection _
                  · exact Regime.settles_timed (settles_cluster listed (by simpa using keyed) rfl)

/-- What a command does with a private store, it does without one where the deadline
does not pass, unless it is over the keyspace. -/
theorem executes_directly {σ : Type} {handles : {γ : Type} → CommandEffect γ → σ → γ → σ → Prop}
    {rely : σ → σ → Prop} {connection : Connection} {first : Bytes} {rest : List Bytes}
    {result : Response × Connection} {state last : σ}
    (keyed : ∀ command, dispatcher.command (dispatcher.runtime.keyword first) = some command →
      (dispatcher.extension.any fun item => item.name = command.name) = false → command.keyspace = false)
    (ends : (dispatcher.executeWithStore true connection (first :: rest)).Ends handles rely state
      result last) :
    (dispatcher.execute connection (first :: rest)).Ends handles rely state result last := by
  simp only [execute, executeWithStore] at ends ⊢
  cases found : dispatcher.command (dispatcher.runtime.keyword first) with
  | none =>
      rw [found] at ends
      exact ends
  | some command =>
      rw [found] at ends
      simp only at ends ⊢
      by_cases arity : ¬command.declined ∧ ¬command.accepts (first :: rest).length
      · rw [if_pos arity] at ends ⊢
        exact ends
      · rw [if_neg arity] at ends ⊢
        by_cases locked : dispatcher.requiresAuth ∧ ¬connection.authenticated ∧ ¬command.preAuth
        · rw [if_pos locked] at ends ⊢
          exact ends
        · rw [if_neg locked] at ends ⊢
          by_cases declined : command.declined = true
          · rw [if_pos declined] at ends ⊢
            exact ends
          · rw [if_neg declined] at ends ⊢
            by_cases own : (dispatcher.extension.any fun item => item.name = command.name) = true
            · rw [if_pos own] at ends ⊢
              exact ends
            · rw [if_neg own] at ends ⊢
              have plain := keyed command found (by simpa using own)
              simp only [plain, Bool.false_eq_true, and_false, if_false] at ends ⊢
              by_cases away : ¬command.reachesCluster
              · rw [if_pos away] at ends ⊢
                exact ends
              · rw [if_neg away] at ends ⊢
                exact ends_uninterrupted ends

end Dispatcher
end Hashring
