import Mathlib.Data.List.Perm.Basic
import Hashring.TaskRecord
import Hashring.Transition

/-! `try_map_bounded` (crates/hashring-coordinator/src/migration_helpers.rs): the loop
that keeps a bounded number of operations in flight, starts the next one as another
completes, and after a failure only waits for those it has started. An operation is
named by its item; it runs from the moment it is pushed until its result is taken. -/
namespace Hashring

variable {ι β ε : Type}

/-- The variables of the loop: what the iterator still has, the operations that were
started and have not completed, and what was collected. -/
structure BoundedMap (ι β ε : Type) where
  items : List ι
  inFlight : List ι
  values : List β
  firstError : Option ε

/-- What `in_flight.next()` gives. -/
structure Completion (ι β ε : Type) where
  item : ι
  result : Except ε β

namespace BoundedMap

def start (items : List ι) (concurrency : Nat) : BoundedMap ι β ε where
  items := items.drop concurrency
  inFlight := items.take concurrency
  values := []
  firstError := none

def complete (loop : BoundedMap ι β ε) (place : Nat) (result : Except ε β) : BoundedMap ι β ε :=
  let others := loop.inFlight.eraseIdx place
  match result, loop.firstError, loop.items with
  | .ok value, none, item :: rest =>
      { loop with items := rest, inFlight := others ++ [item], values := loop.values ++ [value] }
  | .ok value, _, _ => { loop with inFlight := others, values := loop.values ++ [value] }
  | .error error, none, _ => { loop with inFlight := others, firstError := some error }
  | .error _, some _, _ => { loop with inFlight := others }

def result (loop : BoundedMap ι β ε) : Option (Except ε (List β)) :=
  match loop.inFlight, loop.firstError with
  | [], some error => some (.error error)
  | [], none => some (.ok loop.values)
  | _ :: _, _ => none

def Step (before : BoundedMap ι β ε) (done : Completion ι β ε) (after : BoundedMap ι β ε) : Prop :=
  ∃ place, before.inFlight[place]? = some done.item ∧ after = before.complete place done.result

end BoundedMap

def Completion.value (done : Completion ι β ε) : Option β := done.result.toOption

def Completion.error (done : Completion ι β ε) : Option ε :=
  match done.result with
  | .error error => some error
  | .ok _ => none

structure Drains (items : List ι) (concurrency : Nat) (log : List (Completion ι β ε))
    (loop : BoundedMap ι β ε) :
    Prop where
  bounded : loop.inFlight.length ≤ concurrency
  started : ∃ started, started ++ loop.items = items ∧ started.Perm (log.map (·.item) ++ loop.inFlight)
  full : loop.firstError = none → loop.items ≠ [] → loop.inFlight.length = concurrency
  values : loop.values = log.filterMap Completion.value
  error : loop.firstError = (log.filterMap Completion.error).head?

theorem BoundedMap.complete_cases (loop : BoundedMap ι β ε) (place : Nat) (result : Except ε β) :
    (∃ value item rest, result = .ok value ∧ loop.firstError = none ∧ loop.items = item :: rest ∧
      loop.complete place result = { loop with
        items := rest, inFlight := loop.inFlight.eraseIdx place ++ [item], values :=
          loop.values ++ [value] }) ∨
    (∃ value, result = .ok value ∧ (loop.firstError = none → loop.items = []) ∧
      loop.complete place result = { loop with
        inFlight := loop.inFlight.eraseIdx place, values := loop.values ++ [value] }) ∨
    ∃ error, result = .error error ∧
      loop.complete place result = { loop with
        inFlight := loop.inFlight.eraseIdx place, firstError := some (loop.firstError.getD error) } := by
  obtain ⟨items, inFlight, values, firstError⟩ := loop
  cases result with
  | ok value =>
      cases firstError with
      | none =>
          cases items with
          | nil => exact .inr (.inl ⟨value, rfl, fun _ => rfl, rfl⟩)
          | cons item rest => exact .inl ⟨value, item, rest, rfl, rfl, rfl, rfl⟩
      | some error => exact .inr (.inl ⟨value, rfl, fun none => absurd none (by simp), rfl⟩)
  | error error => cases firstError <;> exact .inr (.inr ⟨error, rfl, rfl⟩)

namespace Drains

variable {items : List ι} {concurrency : Nat} {log : List (Completion ι β ε)}
  {before after : BoundedMap ι β ε}

theorem start (items : List ι) (concurrency : Nat) :
    Drains items concurrency [] (BoundedMap.start items concurrency : BoundedMap ι β ε) where
  bounded := List.length_take_le _ _
  started := ⟨items.take concurrency, List.take_append_drop concurrency items, .refl _⟩
  full _ more := by
    have long : concurrency < items.length := by simpa [BoundedMap.start] using more
    exact List.length_take_of_le (Nat.le_of_lt long)
  values := rfl
  error := rfl

theorem step {done : Completion ι β ε} (drains : Drains items concurrency log before)
    (taken : before.Step done after) :
    Drains items concurrency (log ++ [done]) after := by
  obtain ⟨place, running, rfl⟩ := taken
  obtain ⟨started, whole, shuffled⟩ := drains.started
  obtain ⟨inside, here⟩ := List.getElem?_eq_some_iff.mp running
  have shorter : (before.inFlight.eraseIdx place).length = before.inFlight.length - 1 := by
    rw [List.length_eraseIdx, if_pos inside]
  have bounded := drains.bounded
  -- The operation moves from those in flight to those that completed.
  have moved : (log.map (·.item) ++ before.inFlight).Perm
      ((log ++ [done]).map (·.item) ++ before.inFlight.eraseIdx place) := by
    have taken := (List.getElem_cons_eraseIdx_perm inside).symm
    rw [here] at taken
    rw [List.map_append, List.append_assoc]
    exact taken.append_left _
  have values : log.filterMap Completion.value = before.values := drains.values.symm
  have error : (log.filterMap Completion.error).head? = before.firstError := drains.error.symm
  rcases before.complete_cases place done.result with
    ⟨value, item, rest, ended, unfailed, more, next⟩ | ⟨value, ended, last, next⟩ | ⟨failure, ended, next⟩
  · rw [next]
    refine ⟨?_, ⟨started ++ [item], ?_, ?_⟩, ?_, ?_, ?_⟩
    · simp only [List.length_append, List.length_singleton]
      omega
    · rw [← whole, more, List.append_assoc]
      rfl
    · rw [← List.append_assoc]
      exact (shuffled.trans moved).append_right [item]
    · intro _ _
      have full := drains.full unfailed (by simp [more])
      simp only [List.length_append, List.length_singleton]
      omega
    · simp [List.filterMap_append, values, Completion.value, ended, Except.toOption]
    · simp [List.filterMap_append, Completion.error, ended, error]
  · rw [next]
    refine ⟨?_, ⟨started, whole, shuffled.trans moved⟩, ?_, ?_, ?_⟩
    · simp only
      omega
    · intro unfailed more
      exact absurd (last unfailed) more
    · simp [List.filterMap_append, values, Completion.value, ended, Except.toOption]
    · simp [List.filterMap_append, Completion.error, ended, error]
  · rw [next]
    refine ⟨?_, ⟨started, whole, shuffled.trans moved⟩, ?_, ?_, ?_⟩
    · simp only
      omega
    · intro unfailed
      exact absurd unfailed (by simp)
    · simp [List.filterMap_append, values, Completion.value, ended, Except.toOption]
    · simp only [List.filterMap_append, List.head?_append, error, List.filterMap_cons,
        Completion.error, ended,
        List.filterMap_nil, List.head?_cons]
      cases before.firstError <;> rfl

theorem run {more : List (Completion ι β ε)} (drains : Drains items concurrency log before)
    (taken : Transition.Run BoundedMap.Step before more after) :
    Drains items concurrency (log ++ more) after := by
  induction taken generalizing log with
  | refl => simpa using drains
  | next step _ ih => simpa using ih (drains.step step)

end Drains

/-- After a failure the loop starts nothing and keeps the failure. -/
theorem BoundedMap.error_step {before after : BoundedMap ι β ε} {done : Completion ι β ε}
    (taken : Step before done after)
    (failed : before.firstError ≠ none) : after.firstError ≠ none ∧ after.items = before.items := by
  obtain ⟨place, -, rfl⟩ := taken
  rcases before.complete_cases place done.result with
    ⟨_, _, _, _, unfailed, _⟩ | ⟨_, _, _, next⟩ | ⟨_, _, next⟩
  · exact absurd unfailed failed
  · rw [next]
    exact ⟨failed, rfl⟩
  · rw [next]
    exact ⟨by simp, rfl⟩

theorem BoundedMap.items_after_error {before after : BoundedMap ι β ε} {more : List (Completion ι β ε)}
    (taken : Transition.Run Step before more after) (failed : before.firstError ≠ none) :
    after.items = before.items := by
  induction taken with
  | refl => rfl
  | next step _ ih =>
      obtain ⟨still, same⟩ := error_step step failed
      exact (ih still).trans same

theorem BoundedMap.result_ok (loop : BoundedMap ι β ε) (values : List β) :
    loop.result = some (.ok values) ↔ loop.inFlight = [] ∧ loop.firstError = none ∧
      loop.values = values := by
  obtain ⟨items, inFlight, collected, firstError⟩ := loop
  cases inFlight <;> cases firstError <;> simp [result]

theorem BoundedMap.result_error (loop : BoundedMap ι β ε) (error : ε) :
    loop.result = some (.error error) ↔ loop.inFlight = [] ∧ loop.firstError = some error := by
  obtain ⟨items, inFlight, collected, firstError⟩ := loop
  cases inFlight <;> cases firstError <;> simp [result]

theorem Completion.all_ok {log : List (Completion ι β ε)} {values : List β} :
    log.map (·.result) = values.map .ok ↔
      (log.filterMap Completion.error).head? = none ∧ log.filterMap Completion.value = values := by
  induction log generalizing values with
  | nil => simp [eq_comm]
  | cons done rest ih =>
      obtain ⟨item, result⟩ := done
      cases result with
      | error error => cases values <;> simp [Completion.error]
      | ok value =>
          cases values with
          | nil => simp [Completion.value, Except.toOption]
          | cons first others =>
              simp only [List.map_cons, List.cons.injEq, Except.ok.injEq, ih, List.filterMap_cons,
                Completion.error,
                Completion.value, Except.toOption]
              tauto

namespace Drains

variable {items : List ι} {concurrency : Nat} {log : List (Completion ι β ε)} {loop : BoundedMap ι β ε}

theorem ok_iff (drains : Drains items concurrency log loop) (positive : 1 ≤ concurrency)
    (values : List β) :
    loop.result = some (.ok values) ↔
      (log.map (·.item)).Perm items ∧ log.map (·.result) = values.map .ok := by
  obtain ⟨started, whole, shuffled⟩ := drains.started
  rw [loop.result_ok, Completion.all_ok, ← drains.error, ← drains.values]
  constructor
  · rintro ⟨idle, unfailed, collected⟩
    refine ⟨?_, unfailed, collected⟩
    -- With items left and no failure the loop would be full, and it is empty.
    have none : loop.items = [] := by
      by_contra more
      have full := drains.full unfailed more
      rw [idle, List.length_nil] at full
      omega
    rw [none, List.append_nil] at whole
    rw [idle, List.append_nil] at shuffled
    exact (whole ▸ shuffled).symm
  · rintro ⟨all, unfailed, collected⟩
    refine ⟨?_, unfailed, collected⟩
    have completed := all.length_eq
    have counted := shuffled.length_eq
    rw [← whole, List.length_append, counted, List.length_append] at completed
    exact List.eq_nil_of_length_eq_zero (by omega)

theorem error_iff (drains : Drains items concurrency log loop) (error : ε) :
    loop.result = some (.error error) ↔
      loop.inFlight = [] ∧ (log.filterMap Completion.error).head? = some error := by
  rw [loop.result_error, drains.error]

end Drains

/-- Bounded parallel work: at most `concurrency` operations run, none is started
after a failure was seen, the loop ends only when all it started have completed, it
succeeds when every item was started and succeeded, with one result for each, and it
fails with the first error it saw. -/
theorem bounded_work_drains (items : List ι) (concurrency : Nat) (positive : 1 ≤ concurrency)
    (early late : List (Completion ι β ε)) (middle loop : BoundedMap ι β ε)
    (first : Transition.Run BoundedMap.Step (BoundedMap.start items concurrency) early middle)
    (second : Transition.Run BoundedMap.Step middle late loop) :
    loop.inFlight.length ≤ concurrency ∧
    (∃ started, started ++ loop.items = items ∧
      started.Perm ((early ++ late).map (·.item) ++ loop.inFlight)) ∧
    ((∃ failed ∈ early, failed.error ≠ none) → loop.items = middle.items) ∧
    (loop.result ≠ none → ∃ started, started ++ loop.items = items ∧
      started.Perm ((early ++ late).map (·.item))) ∧
    (∀ values, loop.result = some (.ok values) ↔
      ((early ++ late).map (·.item)).Perm items ∧ (early ++ late).map (·.result) = values.map .ok) ∧
    ∀ error, loop.result = some (.error error) ↔
      loop.inFlight = [] ∧ ((early ++ late).filterMap Completion.error).head? = some error := by
  have reached := (Drains.start items concurrency).run first
  have drains := reached.run second
  rw [List.nil_append] at reached drains
  refine ⟨drains.bounded, drains.started, ?_, ?_, drains.ok_iff positive, drains.error_iff⟩
  · rintro ⟨failed, member, error⟩
    apply BoundedMap.items_after_error second
    rw [reached.error]
    intro none
    obtain ⟨seen, shown⟩ := Option.ne_none_iff_exists'.mp error
    have listed := List.mem_filterMap.mpr ⟨failed, member, shown⟩
    rw [List.head?_eq_none_iff.mp none] at listed
    exact absurd listed List.not_mem_nil
  · intro ended
    obtain ⟨started, whole, shuffled⟩ := drains.started
    have idle : loop.inFlight = [] := by
      cases running : loop.inFlight with
      | nil => rfl
      | cons item others => exact absurd (by simp [BoundedMap.result, running]) ended
    rw [idle, List.append_nil] at shuffled
    exact ⟨started, whole, shuffled⟩

/-- Two of three operations run; the first fails, its sibling is still waited for. -/
theorem bounded_work_drains_sibling :
    (((BoundedMap.start [0, 1, 2] 2 : BoundedMap Nat Unit String).complete 0
      (.error "range failed")).complete 0
      (.ok ())).result = some (.error "range failed") := by
  have drained := bounded_work_drains [0, 1, 2] 2 (by decide) [⟨0, .error "range failed"⟩] [⟨1, .ok ()⟩]
    ((BoundedMap.start [0, 1, 2] 2 : BoundedMap Nat Unit String).complete 0 (.error "range failed")) _
    (Transition.run_single ⟨0, rfl, rfl⟩) (Transition.run_single ⟨0, rfl, rfl⟩)
  exact (drained.2.2.2.2.2 "range failed").mpr ⟨rfl, rfl⟩

/-! The tasks of the coordinator run the same loop: a finished run of `tryMapBounded`
is a run of it. -/
section Tasks

variable {Effect : Type → Type 1} {σ : Type} {handles : {γ : Type} → Effect γ → σ → γ → σ → Prop}
  {rely : σ → σ → Prop}

theorem drain_returns {operation : ι → Program Effect (Except ε β)} {fuel : Nat} {loop : BoundedMap ι β ε}
    (idle : loop.inFlight.length = 0) {state last : σ} {result : Except ε (List β)}
    (ends : (Program.drain operation fuel [] loop.items loop.values loop.firstError).Ends handles
      rely state result last) :
    loop.result = some result := by
  obtain ⟨items, inFlight, values, firstError⟩ := loop
  obtain rfl : inFlight = [] := List.eq_nil_of_length_eq_zero idle
  cases fuel <;> cases firstError <;> simpa [BoundedMap.result] using ends.1.symm

theorem drain_runs {operation : ι → Program Effect (Except ε β)} {fuel : Nat}
    {running : List (Program Effect (Except ε β))}
    {loop : BoundedMap ι β ε} (placed : loop.inFlight.length = running.length) {state last : σ}
    {result : Except ε (List β)}
    (ends : (Program.drain operation fuel running loop.items loop.values loop.firstError).Ends
      handles rely state result last) :
    ∃ log ended, Transition.Run BoundedMap.Step loop log ended ∧ ended.result = some result := by
  induction fuel generalizing running loop state with
  | zero =>
      cases running with
      | nil => exact ⟨[], loop, .refl _, drain_returns placed ends⟩
      | cons => exact ends.elim
  | succ fuel ih =>
      cases running with
      | nil => exact ⟨[], loop, .refl _, drain_returns placed ends⟩
      | cons first others =>
          obtain ⟨pick, ends⟩ := ends
          generalize held : first :: others = running at *
          have nonempty : 0 < running.length := by simp [← held]
          generalize turned : pick % running.length = turn at *
          have inside : turn < running.length := turned ▸ Nat.mod_lt _ nonempty
          have named := List.getElem?_eq_getElem (placed ▸ inside : turn < loop.inFlight.length)
          have shorter : (running.eraseIdx turn).length = (loop.inFlight.eraseIdx turn).length := by
            rw [List.length_eraseIdx, List.length_eraseIdx, placed]
          -- A result is one turn of the loop; any other step of a task leaves the loop where it is.
          have taken : ∀ (outcome : Except ε β) (next : List (Program Effect (Except ε β))),
              (loop.complete turn outcome).inFlight.length = next.length →
              (Program.drain operation fuel next (loop.complete turn outcome).items
                (loop.complete turn outcome).values
                (loop.complete turn outcome).firstError).Ends handles rely state result last →
              ∃ log ended, Transition.Run BoundedMap.Step loop log ended ∧
                  ended.result = some result := by
            intro outcome next same rest
            obtain ⟨log, ended, run, returned⟩ := ih same rest
            exact ⟨⟨_, outcome⟩ :: log, ended, .next ⟨turn, named, rfl⟩ run, returned⟩
          have again : ∀ (next : Program Effect (Except ε β)) (later : σ),
              (Program.drain operation fuel (running.set turn next) loop.items loop.values
                  loop.firstError).Ends handles rely
                later result last →
              ∃ log ended, Transition.Run BoundedMap.Step loop log ended ∧ ended.result = some result :=
            fun _ _ rest => ih (by simpa using placed) rest
          dsimp only at ends
          rw [turned, List.getElem?_eq_getElem inside] at ends
          cases task : running[turn] with
          | done outcome =>
              rw [task] at ends
              obtain ⟨items, inFlight, values, failure⟩ := loop
              cases outcome with
              | ok value =>
                  cases failure with
                  | some error => cases items <;> exact taken (.ok value) (running.eraseIdx turn) shorter.symm ends
                  | none =>
                      cases items with
                      | nil => exact taken (.ok value) (running.eraseIdx turn) shorter.symm ends
                      | cons item rest =>
                          refine taken (.ok value) (running.eraseIdx turn ++ [operation item]) ?_ ends
                          simpa [BoundedMap.complete] using shorter.symm
              | error error =>
                  cases failure <;> exact taken (.error error) (running.eraseIdx turn) shorter.symm ends
          | perform effect next =>
              rw [task] at ends
              obtain ⟨later, answer, after, passed, handled, rest⟩ := ends
              exact again (next answer) after rest
          | choose next =>
              rw [task] at ends
              obtain ⟨inner, rest⟩ := ends
              exact again (next inner) state rest
          | halt =>
              rw [task] at ends
              exact ih placed ends

theorem try_map_bounded_runs {items : List ι} {concurrency : Nat}
    {operation : ι → ExceptT ε (Program Effect) β} {state last : σ}
    {result : Except ε (List β)}
    (ends : (Program.tryMapBounded items concurrency operation).run.Ends handles rely state result last) :
    ∃ log ended, Transition.Run BoundedMap.Step (BoundedMap.start items concurrency) log ended ∧
      ended.result = some result := by
  obtain ⟨fuel, ends⟩ := ends
  exact drain_runs (by simp [BoundedMap.start]) ends

end Tasks

end Hashring
