import Hashring.ClientRetry

/-! The budget of an experimental Lua script and the hook that watches it
(crates/hashring-redis-lua-experimental/src/script/mod.rs). A run is the list of
instants at which the script's coroutine executes its instructions: the error a
hook raises ends the script that does not catch it, and one that does goes on
executing. -/
namespace Hashring

/-- `CHECK_INTERVAL`. -/
def checkInterval : UInt64 := 1000

structure Limits where
  maxSteps : UInt64 := 10000000
  timeout : Nat := 5 * 1000 * nanosPerMilli

inductive VmState where
  | continue
  | yield
  deriving DecidableEq, Repr

/-- `left` is the atomic counter; instants are in nanoseconds. -/
structure Budget where
  left : UInt64
  timeout : Nat
  until_ : Nat

namespace Budget

def new (limits : Limits) (now : Nat) : Budget where
  left := limits.maxSteps
  timeout := limits.timeout
  until_ := now + limits.timeout

/-- `fetch_sub` wraps, and what it returns is the counter before. -/
def check (budget : Budget) (now : Nat) : Budget × Except String VmState :=
  let spent := budget.left
  let budget := { budget with left := budget.left - checkInterval }
  if spent ≤ checkInterval then
    (budget, .error "this script exceeded its maximum number of steps")
  else if budget.until_ ≤ now then
    (budget, .error (s!"this script was stopped after {budget.timeout / nanosPerMilli}ms, which is longer than the " ++
      "deadline its command was given"))
  else (budget, .ok .continue)

end Budget

/-- One firing of the hook: the counter it found, the counter it left, and what it
answered. -/
structure Firing where
  found : UInt64
  left : UInt64
  answer : Except String VmState

def Firing.Refused (firing : Firing) : Prop := ∃ message, firing.answer = .error message

/-- The script's coroutine. The virtual machine counts the instructions since
the hook last fired. -/
structure Watched where
  budget : Budget
  sinceHook : Nat := 0

namespace Watched

def start (limits : Limits) (now : Nat) : Watched where
  budget := .new limits now

/-- One instruction at `now`, with the hook on every `CHECK_INTERVAL`th. -/
def execute (thread : Watched) (now : Nat) : Watched × Option Firing :=
  if thread.sinceHook + 1 = checkInterval.toNat then
    let (budget, answer) := thread.budget.check now
    ({ budget }, some ⟨thread.budget.left, budget.left, answer⟩)
  else ({ thread with sinceHook := thread.sinceHook + 1 }, none)

def after (thread : Watched) (ticks : List Nat) : Watched :=
  ticks.foldl (fun thread now => (thread.execute now).1) thread

/-- What the hook did at each instruction. -/
def run (thread : Watched) : List Nat → List (Option Firing)
  | [] => []
  | now :: rest => (thread.execute now).2 :: (thread.execute now).1.run rest

end Watched

/-- How often the hook has fired once the instruction at `place` is done. -/
def fired (history : List (Option Firing)) (place : Nat) : Nat :=
  (history.take (place + 1)).countP Option.isSome

def RefusedAt (history : List (Option Firing)) (place : Nat) : Prop :=
  ∃ firing, history[place]? = some (some firing) ∧ firing.Refused

/-- From the firing on that uses up the limit, every one is refused and leaves
nothing on the counter, and refusals are at most one interval apart. -/
structure StaysSpent (limits : Limits) (history : List (Option Firing)) : Prop where
  refused : ∀ place firing, history[place]? = some (some firing) →
    limits.maxSteps.toNat ≤ fired history place * checkInterval.toNat → firing.Refused
  counter : ∀ place firing, history[place]? = some (some firing) →
    limits.maxSteps.toNat ≤ fired history place * checkInterval.toNat → firing.left = 0
  interval : ∀ first next, first < next → RefusedAt history first → RefusedAt history next →
    limits.maxSteps.toNat ≤ fired history first * checkInterval.toNat →
    (∀ place, first < place → place < next → ¬ RefusedAt history place) →
      next ≤ first + checkInterval.toNat

theorem check_interval_nat : checkInterval.toNat = 1000 := rfl

namespace Budget

@[simp] theorem check_left (budget : Budget) (now : Nat) :
    (budget.check now).1.left = budget.left - checkInterval := by
  unfold check
  dsimp only
  split
  · rfl
  · split <;> rfl

@[simp] theorem check_until (budget : Budget) (now : Nat) :
    (budget.check now).1.until_ = budget.until_ := by
  unfold check
  dsimp only
  split
  · rfl
  · split <;> rfl

theorem check_refused_iff (budget : Budget) (now : Nat) :
    (∃ message, (budget.check now).2 = .error message) ↔ budget.left ≤ checkInterval ∨
      budget.until_ ≤ now := by
  unfold check
  dsimp only
  split
  · rename_i low
    exact iff_of_true ⟨_, rfl⟩ (.inl low)
  · rename_i high
    split
    · rename_i late
      exact iff_of_true ⟨_, rfl⟩ (.inr late)
    · rename_i early
      exact iff_of_false (by simp) (by simp [high, early])

end Budget

namespace Watched

theorem run_get (thread : Watched) (ticks : List Nat) (place : Nat) :
    (thread.run ticks)[place]? = ticks[place]?.map fun now =>
      ((thread.after (ticks.take place)).execute now).2 := by
  induction ticks generalizing thread place with
  | nil => rfl
  | cons tick rest ih =>
      cases place with
      | zero => rfl
      | succ place =>
          simp only [run, List.getElem?_cons_succ, List.take_succ_cons]
          exact ih _ place

theorem run_take (thread : Watched) (ticks : List Nat) (count : Nat) :
    (thread.run ticks).take count = thread.run (ticks.take count) := by
  induction ticks generalizing thread count with
  | nil => simp [run]
  | cons tick rest ih =>
      cases count with
      | zero => rfl
      | succ count =>
          simp only [run, List.take_succ_cons]
          rw [ih]

theorem run_length (thread : Watched) (ticks : List Nat) : (thread.run ticks).length = ticks.length := by
  induction ticks generalizing thread with
  | nil => rfl
  | cons tick rest ih => simp [run, ih]

/-- The coroutine after some instructions of a run: the counter goes down by one
interval at each firing, modulo its width. -/
structure Ran (limits : Limits) (started executed : Nat) (thread : Watched) : Prop where
  sinceHook : thread.sinceHook = executed % 1000
  left : (thread.budget.left.toNat : Int) = (limits.maxSteps.toNat - 1000 * (executed / 1000 : Nat))
    % 2 ^ 64
  until_ : thread.budget.until_ = started + limits.timeout

theorem start_ran (limits : Limits) (started : Nat) : Ran limits started 0 (start limits started) where
  sinceHook := rfl
  left := by
    have bound := limits.maxSteps.toNat_lt
    change ((limits.maxSteps.toNat : Nat) : Int) = _
    omega
  until_ := rfl

theorem fetch_sub_left {left : UInt64} {rest : Int} (held : (left.toNat : Int) = rest % 2 ^ 64) :
    ((left - checkInterval).toNat : Int) = (rest - 1000) % 2 ^ 64 := by
  rw [UInt64.toNat_sub, check_interval_nat]
  omega

theorem Ran.execute {limits : Limits} {started executed : Nat} {thread : Watched}
    (ran : Ran limits started executed thread)
    (now : Nat) : Ran limits started (executed + 1) (thread.execute now).1 := by
  have since := ran.sinceHook
  unfold Watched.execute
  rw [check_interval_nat]
  -- The hook fires at every thousandth instruction and takes a thousand steps off.
  split
  · rename_i fires
    refine ⟨?_, ?_, ?_⟩
    · change 0 = _
      omega
    · change ((thread.budget.check now).1.left.toNat : Int) = _
      rw [Budget.check_left, fetch_sub_left ran.left]
      have next : (executed + 1) / 1000 = executed / 1000 + 1 := by omega
      rw [next]
      congr 1
      omega
    · exact (Budget.check_until _ _).trans ran.until_
  · rename_i quiet
    refine ⟨?_, ?_, ran.until_⟩
    · change thread.sinceHook + 1 = _
      omega
    · have same : (executed + 1) / 1000 = executed / 1000 := by omega
      rw [same]
      exact ran.left

theorem Ran.after {limits : Limits} {started executed : Nat} {thread : Watched}
    (ran : Ran limits started executed thread)
    (ticks : List Nat) : Ran limits started (executed + ticks.length) (thread.after ticks) := by
  induction ticks generalizing executed thread with
  | nil => exact ran
  | cons tick rest ih =>
      have reached := ih (ran.execute tick)
      rw [List.length_cons, Nat.add_comm rest.length, ← Nat.add_assoc]
      exact reached

theorem fires_count {limits : Limits} {started executed : Nat} {thread : Watched}
    (ran : Ran limits started executed thread)
    (ticks : List Nat) : (thread.run ticks).countP Option.isSome = (executed + ticks.length) / 1000
      - executed / 1000 := by
  induction ticks generalizing executed thread with
  | nil => simp [run]
  | cons tick rest ih =>
      have since := ran.sinceHook
      rw [run, List.countP_cons, ih (ran.execute tick), List.length_cons]
      unfold Watched.execute
      rw [check_interval_nat]
      split
      · simp only [Option.isSome_some, if_true]
        omega
      · simp only [Option.isSome_none, Bool.false_eq_true, if_false]
        omega

variable {limits : Limits} {started : Nat} {ticks : List Nat} {place : Nat}

theorem run_place {entry : Option Firing}
    (found : ((start limits started).run ticks)[place]? = some entry) :
    ∃ now, ticks[place]? = some now ∧ place < ticks.length ∧
      entry = (((start limits started).after (ticks.take place)).execute now).2 ∧
      Ran limits started place ((start limits started).after (ticks.take place)) := by
  rw [run_get, Option.map_eq_some_iff] at found
  obtain ⟨now, tick, same⟩ := found
  have inside : place < ticks.length := (List.getElem?_eq_some_iff.mp tick).1
  have ran := (start_ran limits started).after (ticks.take place)
  rw [List.length_take, min_eq_left (by omega), Nat.zero_add] at ran
  exact ⟨now, tick, inside, same.symm, ran⟩

theorem run_fired (inside : place < ticks.length) :
    fired ((start limits started).run ticks) place = (place + 1) / 1000 := by
  unfold fired
  rw [run_take, fires_count (start_ran limits started), List.length_take]
  omega

theorem run_firing {firing : Firing}
    (found : ((start limits started).run ticks)[place]? = some (some firing)) :
    ∃ now, ticks[place]? = some now ∧ place < ticks.length ∧ (place + 1) % 1000 = 0 ∧
      (firing.found.toNat : Int) = (limits.maxSteps.toNat - 1000 * (place / 1000 : Nat)) % 2 ^ 64 ∧
      firing.left = firing.found - checkInterval ∧
      (firing.Refused ↔ firing.found ≤ checkInterval ∨ started + limits.timeout ≤ now) := by
  obtain ⟨now, tick, inside, same, ran⟩ := run_place found
  have since := ran.sinceHook
  unfold Watched.execute at same
  rw [check_interval_nat] at same
  split at same
  · rename_i fires
    injection same with same
    subst same
    refine ⟨now, tick, inside, by omega, ran.left, Budget.check_left _ now, ?_⟩
    rw [← ran.until_]
    exact Budget.check_refused_iff _ now
  · exact absurd same (by simp)

variable (limits started) in
theorem fires_at (inside : place < ticks.length) (due : (place + 1) % 1000 = 0) :
    ∃ firing, ((start limits started).run ticks)[place]? = some (some firing) := by
  have held : place < ((start limits started).run ticks).length := by rwa [run_length]
  obtain ⟨now, _, _, same, ran⟩ := run_place (List.getElem?_eq_getElem held)
  have since := ran.sinceHook
  unfold Watched.execute at same
  rw [check_interval_nat, if_pos (by omega)] at same
  exact ⟨_, (List.getElem?_eq_getElem held).trans (congrArg some same)⟩

/-- What a firing leaves, modulo the counter's width. -/
theorem firing_left {firing : Firing}
    (found : ((start limits started).run ticks)[place]? = some (some firing)) :
    (firing.left.toNat : Int) = (limits.maxSteps.toNat - 1000 * ((place + 1) / 1000 : Nat)) % 2 ^ 64 := by
  obtain ⟨_, _, _, due, before, left, _⟩ := run_firing found
  have next : (place + 1) / 1000 = place / 1000 + 1 := by omega
  rw [left, fetch_sub_left before, next]
  congr 1
  omega

theorem last_found {firing : Firing}
    (found : ((start limits started).run ticks)[place]? = some (some firing))
    (within : (place + 1) / 1000 * 1000 = limits.maxSteps.toNat) : firing.found ≤ checkInterval := by
  obtain ⟨_, _, _, due, before, _, _⟩ := run_firing found
  have bound := limits.maxSteps.toNat_lt
  rw [UInt64.le_iff_toNat_le, check_interval_nat]
  omega

theorem wrapped_left {firing : Firing}
    (found : ((start limits started).run ticks)[place]? = some (some firing))
    (beyond : (place + 1) / 1000 = limits.maxSteps.toNat / 1000 + 1) : firing.left ≠ 0 := by
  have left := firing_left found
  intro none
  rw [none, beyond] at left
  have zero : ((0 : UInt64).toNat : Int) = 0 := rfl
  omega

theorem wrapped_found {firing : Firing}
    (found : ((start limits started).run ticks)[place]? = some (some firing))
    (wrapped : place / 1000 = limits.maxSteps.toNat / 1000 + 1) : ¬ firing.found ≤ checkInterval := by
  obtain ⟨_, _, _, due, before, _, _⟩ := run_firing found
  rw [UInt64.le_iff_toNat_le, check_interval_nat]
  omega

end Watched

/-- The spent budget stays spent in exactly the runs whose hook never takes the
counter below zero. -/
theorem spent_budget_stays_spent_iff (limits : Limits) (started : Nat) (ticks : List Nat) :
    StaysSpent limits ((Watched.start limits started).run ticks) ↔
      ticks.length / checkInterval.toNat ≤ limits.maxSteps.toNat / checkInterval.toNat := by
  rw [check_interval_nat]
  constructor
  · intro stays
    by_contra many
    have inside : 1000 * (limits.maxSteps.toNat / 1000) + 999 < ticks.length := by omega
    obtain ⟨firing, found⟩ := Watched.fires_at limits started inside (by omega)
    apply Watched.wrapped_left found (by omega)
    apply stays.counter _ _ found
    rw [Watched.run_fired inside, check_interval_nat]
    omega
  · intro few
    -- a firing that is not before the limit is the one that just uses it up
    have last : ∀ place firing, ((Watched.start limits started).run ticks)[place]? = some (some firing) →
        limits.maxSteps.toNat ≤ fired ((Watched.start limits started).run ticks) place *
          checkInterval.toNat →
        (place + 1) / 1000 * 1000 = limits.maxSteps.toNat := by
      intro place firing found spent
      obtain ⟨_, _, inside, due, _, _, _⟩ := Watched.run_firing found
      rw [Watched.run_fired inside, check_interval_nat] at spent
      have within : (place + 1) / 1000 ≤ ticks.length / 1000 := Nat.div_le_div_right inside
      omega
    refine ⟨?_, ?_, ?_⟩
    · intro place firing found spent
      obtain ⟨_, _, _, _, _, _, answered⟩ := Watched.run_firing found
      exact answered.mpr (.inl (Watched.last_found found (last place firing found spent)))
    · intro place firing found spent
      have left := Watched.firing_left found
      have whole := last place firing found spent
      apply UInt64.toNat_inj.mp
      have zero : (0 : UInt64).toNat = 0 := rfl
      omega
    · intro first next before ⟨_, foundFirst, _⟩ ⟨_, foundNext, _⟩ spent _
      have whole := last first _ foundFirst spent
      obtain ⟨_, _, insideNext, dueNext, _, _, _⟩ := Watched.run_firing foundNext
      obtain ⟨_, _, _, dueFirst, _, _, _⟩ := Watched.run_firing foundFirst
      have within : (next + 1) / 1000 ≤ ticks.length / 1000 := Nat.div_le_div_right insideNext
      omega

/-- A script under the default limits that goes on for two more intervals within
its first instant: the second of them passes. -/
theorem caught_refusal_passes_again :
    ¬ StaysSpent {} ((Watched.start {} 0).run (List.replicate 10002000 0)) := by
  intro stays
  have inside : 10001999 < (List.replicate 10002000 0).length := by rw [List.length_replicate]; decide
  obtain ⟨firing, found⟩ := Watched.fires_at {} 0 inside rfl
  have refused : firing.Refused := by
    apply stays.refused _ _ found
    rw [Watched.run_fired inside]
    decide
  obtain ⟨now, tick, _, _, _, _, answered⟩ := Watched.run_firing found
  have start : now = 0 := List.eq_of_mem_replicate (List.mem_of_getElem? tick)
  rcases answered.mp refused with low | late
  · exact Watched.wrapped_found found rfl low
  · rw [start] at late
    exact absurd late (by decide)

end Hashring
