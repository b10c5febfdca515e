import Mathlib.Order.Lattice
import Mathlib.Data.List.Basic
import Hashring.Transition

/-! Requests that are coalesced. A request raises the level that is asked for, counts
itself and starts a server unless one is running; the server attempts until nothing was
counted since it last looked, lowers the flag, and looks once more. The flag, the
level and the count are separate cells, and every access to one of them is a step. The
count wraps at `modulus`. -/
namespace Hashring.Coalescing

variable {Level : Type}

inductive Event (Level : Type) where
  | silent
  | triggered (task : Nat) (level : Level)
  | returned (task : Nat)
  | attempted (level : Level)
  deriving DecidableEq

/-- Where a task is: outside, in a request (`raise` to `spawn`), or serving. -/
inductive Role (Level : Type) where
  | outside
  | raise (level : Level)
  | count (level : Level)
  | claim (level : Level)
  | spawn (level : Level)
  | load
  | ask (handled : Nat)
  | serve (handled : Nat)
  | compare (handled : Nat)
  | lower (newest : Nat)
  | check (newest : Nat)
  | restart
  deriving DecidableEq

structure Shared (Level : Type) where
  running : Bool
  level : Level
  generation : Nat

/-- What an access of a task does: the task and the cells after it, and a new task. -/
structure Outcome (Level : Type) where
  event : Event Level := .silent
  next : Role Level
  shared : Shared Level
  spawned : List (Role Level) := []

/-- Tasks keep their place in the list. -/
structure Machine (Level : Type) where
  shared : Shared Level
  roles : List (Role Level)

namespace Role

variable [LinearOrder Level]

def turn (modulus place : Nat) (shared : Shared Level) : Role Level → Outcome Level
  | outside => { next := outside, shared }
  | raise level => { next := count level, shared := { shared with level := max shared.level level } }
  | count level =>
      { event := .triggered place level, next := claim level
        shared := { shared with generation := (shared.generation + 1) % modulus } }
  | claim level =>
      if shared.running then { event := .returned place, next := outside, shared }
      else { next := spawn level, shared := { shared with running := true } }
  | spawn _ => { event := .returned place, next := outside, shared, spawned := [load] }
  -- The count is read before the level, so the level covers every request in the count.
  | load => { next := ask shared.generation, shared }
  | ask handled => { event := .attempted shared.level, next := serve handled, shared }
  | serve handled => { next := compare handled, shared }
  | compare handled =>
      { next := if handled < shared.generation then load else lower shared.generation, shared }
  | lower newest => { next := check newest, shared := { shared with running := false } }
  -- A request between the two looks found the flag up.
  | check newest => { next := if newest < shared.generation then restart else outside, shared }
  | restart =>
      if shared.running then { next := outside, shared }
      else { next := load, shared := { shared with running := true } }

/-- The task is answerable for the flag. -/
def holds : Role Level → Bool
  | spawn _ | load | ask _ | serve _ | compare _ | lower _ => true
  | _ => false

/-- A server that has lowered the flag and will try to raise it again. -/
def Restarts (generation : Nat) : Role Level → Prop
  | check newest => newest < generation
  | restart => True
  | _ => False

def Starts : Role Level → Prop
  | outside | raise _ => True
  | _ => False

end Role

namespace Machine

variable [LinearOrder Level]

inductive Step (modulus : Nat) : Machine Level → Event Level → Machine Level → Prop where
  | begin {machine : Machine Level} {added : List (Role Level)} (starts : ∀ role ∈ added, role.Starts) :
      Step modulus machine .silent { machine with roles := machine.roles ++ added }
  | turn {machine : Machine Level} {place : Nat} {role : Role Level} {outcome : Outcome Level}
      (found : machine.roles[place]? = some role)
        (turned : role.turn modulus place machine.shared = outcome) :
      Step modulus machine outcome.event ⟨outcome.shared, machine.roles.set place outcome.next ++
        outcome.spawned⟩

def Idle (machine : Machine Level) : Prop :=
  machine.shared.running = false ∧ ∀ role ∈ machine.roles, ¬role.Restarts machine.shared.generation

end Machine

/-! What the events so far say. -/
section History

def Event.isTriggered : Event Level → Bool
  | .triggered _ _ => true
  | _ => false

def triggers (history : List (Event Level)) : Nat := history.countP Event.isTriggered

theorem triggers_append (history : List (Event Level)) (event : Event Level) :
    triggers (history ++ [event]) = triggers history + if event.isTriggered then 1 else 0 := by
  simp [triggers]

theorem split_append {history early late : List (Event Level)} {event new : Event Level}
    (split : history ++ [new] = early ++ event :: late) :
    (early = history ∧ event = new ∧ late = []) ∨ ∃ before, late = before ++ [new] ∧
      history = early ++ event :: before := by
  -- The later part is empty when the new event is the one divided at.
  rcases List.eq_nil_or_concat late with rfl | ⟨before, last, rfl⟩
  · obtain ⟨rfl, same⟩ := List.append_inj' split rfl
    exact .inl ⟨rfl, (List.cons.inj same).1.symm, rfl⟩
  · right
    rw [List.concat_eq_append] at split ⊢
    rw [← List.cons_append, ← List.append_assoc] at split
    obtain ⟨same, lastSame⟩ := List.append_inj' split rfl
    rw [(List.cons.inj lastSame).1]
    exact ⟨before, rfl, same⟩

variable [LinearOrder Level]

def Attempted (level : Level) (late : List (Event Level)) : Prop := ∃ asked, level ≤ asked ∧
    .attempted asked ∈ late

def Covered (history : List (Event Level)) (handled : Nat) : Prop :=
  ∀ early late task level, history = early ++ .triggered task level :: late → triggers early <
    handled → Attempted level late

def Answered (history : List (Event Level)) : Prop :=
  ∀ early late task level, history = early ++ .triggered task level :: late →
    .returned task ∈ late → Attempted level late

theorem Attempted.append {level : Level} {late : List (Event Level)} (attempted : Attempted level late)
    (event : Event Level) : Attempted level (late ++ [event]) := by
  obtain ⟨asked, above, made⟩ := attempted
  exact ⟨asked, above, List.mem_append_left _ made⟩

theorem Covered.append {history : List (Event Level)} {handled : Nat} (covered : Covered history handled)
    (counted : handled ≤ triggers history) (event : Event Level) :
    Covered (history ++ [event]) handled := by
  intro early late task level split earlier
  rcases split_append split with ⟨rfl, -, -⟩ | ⟨before, rfl, same⟩
  · exact absurd earlier (Nat.not_lt.mpr counted)
  · exact (covered early before task level same earlier).append event

theorem Covered.fewer {history : List (Event Level)} {handled fewer : Nat}
    (covered : Covered history handled)
    (le : fewer ≤ handled) : Covered history fewer :=
  fun early late task level split earlier => covered early late task level split (earlier.trans_le le)

theorem covered_attempt {history : List (Event Level)} {asked : Level} (handled : Nat)
    (raised : ∀ task level, .triggered task level ∈ history → level ≤ asked) :
    Covered (history ++ [.attempted asked]) handled := by
  intro early late task level split _
  rcases split_append split with ⟨-, impossible, -⟩ | ⟨before, rfl, rfl⟩
  · cases impossible
  · exact ⟨asked, raised task level (by simp), by simp⟩

theorem Answered.append {history : List (Event Level)} (answered : Answered history) {event : Event Level}
    (goes : ∀ task, event ≠ .returned task) : Answered (history ++ [event]) := by
  intro early late task level split ended
  rcases split_append split with ⟨-, -, rfl⟩ | ⟨before, rfl, same⟩
  · exact absurd ended List.not_mem_nil
  · rcases List.mem_append.mp ended with here | last
    · exact (answered early before task level same here).append event
    · exact absurd (List.mem_singleton.mp last).symm (goes task)

theorem Covered.answered {history : List (Event Level)} {handled : Nat}
    (covered : Covered history handled)
    (all : triggers history ≤ handled) : Answered history := by
  intro early late task level split _
  apply covered early late task level split
  have counted : triggers history = triggers early + (triggers late + 1) := by
    rw [split, triggers, List.countP_append, List.countP_cons_of_pos rfl]
    rfl
  omega

end History

/-! The invariant. -/
section Invariant

theorem Role.Restarts.later {role : Role Level} {generation newer : Nat} (le : generation ≤ newer)
    (restarts : role.Restarts generation) : role.Restarts newer := by
  cases role with
  | check newest => exact lt_of_lt_of_le restarts le
  | restart => trivial
  | _ => exact restarts.elim

/-- Of the tasks before an access, all but the one that made it are there after it. -/
theorem mem_set_or {roles : List (Role Level)} {place : Nat} {role next other : Role Level}
    (found : roles[place]? = some role)
    (member : other ∈ roles) : other = role ∨ other ∈ roles.set place next := by
  obtain ⟨index, at_⟩ := List.mem_iff_getElem?.mp member
  by_cases same : place = index
  · subst same
    exact .inl (Option.some.inj (at_.symm.trans found))
  · right
    apply List.mem_iff_getElem?.mpr
    exact ⟨index, by rw [List.getElem?_set_ne same, at_]⟩

theorem held_set {roles : List (Role Level)} {place : Nat} {role : Role Level}
    (found : roles[place]? = some role) (next : Role Level) (spawned : List (Role Level)) :
    (roles.set place next ++ spawned).countP Role.holds + (if role.holds then 1 else 0) =
      roles.countP Role.holds + (if next.holds then 1 else 0) + spawned.countP Role.holds := by
  obtain ⟨bound, same⟩ := List.getElem?_eq_some_iff.mp found
  have positive : (if role.holds then 1 else 0) ≤ roles.countP Role.holds := by
    split
    · rename_i holds
      exact List.one_le_countP_iff.mpr ⟨role, List.mem_of_getElem? found, holds⟩
    · exact Nat.zero_le _
  rw [List.countP_append, List.countP_set bound, same]
  omega

variable [LinearOrder Level]

/-- What a task's own variables have to do with the events so far. -/
def Role.Known (history : List (Event Level)) (level : Level) : Role Level → Prop
  | .count own | .claim own | .spawn own => own ≤ level
  | .ask handled => handled ≤ triggers history
  | .serve handled | .compare handled | .lower handled | .check handled =>
      handled ≤ triggers history ∧ Covered history handled
  | _ => True

structure Invariant (modulus : Nat) (history : List (Event Level)) (machine : Machine Level) : Prop where
  held : machine.roles.countP Role.holds = if machine.shared.running then 1 else 0
  generation : machine.shared.generation = triggers history % modulus
  raised : ∀ task level, .triggered task level ∈ history → level ≤ machine.shared.level
  known : ∀ role ∈ machine.roles, role.Known history machine.shared.level
  /-- Before the count wraps, an idle machine owes no attempt. -/
  answered : triggers history < modulus → machine.Idle → Answered history

variable {modulus : Nat} {history : List (Event Level)} {machine : Machine Level}

theorem Role.Known.later {role : Role Level} {level raised : Level}
    (known : role.Known history level) (le : level ≤ raised)
    (event : Event Level) : role.Known (history ++ [event]) raised := by
  have more : triggers history ≤ triggers (history ++ [event]) := by
    rw [triggers_append]
    exact Nat.le_add_right _ _
  cases role with
  | count own | claim own | spawn own => exact le_trans known le
  | ask handled => exact le_trans known more
  | serve handled | compare handled | lower handled | check handled =>
      exact ⟨known.1.trans more, known.2.append known.1 event⟩
  | outside | raise _ | load | restart => trivial

/-! What one access of a task does to each part of it. -/

variable {place : Nat} {role : Role Level} {shared : Shared Level} {outcome : Outcome Level}

theorem turn_holds (turned : role.turn modulus place shared = outcome)
    (answers : role.holds → shared.running) :
    (if outcome.shared.running then 1 else 0) + (if role.holds then 1 else 0) =
      (if shared.running then 1 else 0) + (if outcome.next.holds then 1 else 0) +
        outcome.spawned.countP Role.holds := by
  subst turned
  cases role with
  | claim level | restart => cases up : shared.running <;> simp [Role.turn, Role.holds, up]
  | compare handled | check handled => by_cases newer : handled <
      shared.generation <;> simp [Role.turn, Role.holds, newer]
  | lower newest => simp [Role.turn, Role.holds, answers rfl]
  | outside | raise _ | count _ | spawn _ | load | ask _ | serve _ => rfl

theorem turn_generation (turned : role.turn modulus place shared = outcome) :
    outcome.shared.generation =
      if outcome.event.isTriggered then (shared.generation + 1) % modulus else shared.generation := by
  subst turned
  cases role with
  | claim level | restart => cases up : shared.running <;> simp [Role.turn, Event.isTriggered, up]
  | _ => rfl

theorem turn_level (turned : role.turn modulus place shared = outcome) :
    shared.level ≤ outcome.shared.level := by
  subst turned
  cases role with
  | raise level => exact le_max_left _ _
  | claim level | restart => cases up : shared.running <;> simp [Role.turn, up]
  | _ => exact le_rfl

theorem turn_raised (turned : role.turn modulus place shared = outcome)
    (known : role.Known history shared.level) {task : Nat}
    {level : Level} (made : outcome.event = .triggered task level) : level ≤ shared.level := by
  subst turned
  cases role with
  | count own =>
      cases made
      exact known
  | claim own | restart => cases up : shared.running <;> simp [Role.turn, up] at made
  | _ => cases made

theorem turn_spawned (turned : role.turn modulus place shared = outcome) {other : Role Level}
    (new : other ∈ outcome.spawned) :
    other = .load := by
  subst turned
  cases role with
  | spawn level => exact List.mem_singleton.mp new
  | claim level | restart => cases up : shared.running <;> simp [Role.turn, up] at new
  | _ => exact absurd new List.not_mem_nil

theorem turn_known (turned : role.turn modulus place shared = outcome)
    (known : role.Known history shared.level)
    (generation : shared.generation = triggers history % modulus)
    (raised : ∀ task level, .triggered task level ∈ history → level ≤ shared.level) :
    outcome.next.Known (history ++ [outcome.event]) outcome.shared.level := by
  subst turned
  have seen : shared.generation ≤ triggers history := generation ▸ Nat.mod_le _ _
  have more : ∀ event, triggers history ≤ triggers (history ++ [event]) := by
    intro event
    rw [triggers_append]
    exact Nat.le_add_right _ _
  cases role with
  | outside | spawn level => trivial
  | raise level => exact le_max_right _ _
  | count level => exact known
  | claim level =>
      cases up : shared.running with
      | true =>
          simp only [Role.turn, up]
          trivial
      | false =>
          simp only [Role.turn, up]
          exact known
  | load => exact seen.trans (more _)
  | ask handled => exact ⟨known.trans (more _), covered_attempt handled raised⟩
  | serve handled => exact ⟨known.1.trans (more _), known.2.append known.1 _⟩
  | compare handled =>
      simp only [Role.turn]
      split
      · trivial
      · -- The generation it lowers at is no later than the one it has handled.
        rename_i same
        exact ⟨seen.trans (more _), (known.2.fewer (Nat.not_lt.mp same)).append seen _⟩
  | lower newest => exact ⟨known.1.trans (more _), known.2.append known.1 _⟩
  | check newest =>
      simp only [Role.turn]
      split <;> trivial
  | restart => cases up : shared.running <;> simp [Role.turn, up, Role.Known]

/-- The flag is down after an access that lowers it, or that found it down and leaves
a restart to come as it was. -/
theorem turn_idle (turned : role.turn modulus place shared = outcome)
    (answers : role.holds → shared.running) (down : outcome.shared.running = false) :
    (∃ newest, role = .lower newest) ∨ shared.running = false ∧ (∀ task, outcome.event ≠ .returned task) ∧
      (role.Restarts shared.generation → ∀ generation, outcome.next.Restarts generation) := by
  subst turned
  cases role with
  | lower newest => exact .inl ⟨newest, rfl⟩
  | outside | raise _ | count _ =>
      exact .inr ⟨down, fun _ made => (by cases made), fun impossible => impossible.elim⟩
  | spawn _ | load | ask _ | serve _ | compare _ => exact absurd ((answers rfl).symm.trans down) (by simp)
  | claim _ | restart => cases up : shared.running <;> simp [Role.turn, up] at down
  | check newest =>
      refine .inr ⟨down, fun _ made => (by cases made), fun (newer : newest < shared.generation) _ => ?_⟩
      simp only [Role.turn, if_pos newer]
      trivial

namespace Invariant

theorem running_of_holds (invariant : Invariant modulus history machine) (member : role ∈ machine.roles)
    (holds : role.holds = true) : machine.shared.running = true := by
  by_contra down
  have one : 1 ≤ machine.roles.countP Role.holds := List.one_le_countP_iff.mpr ⟨role, member, holds⟩
  rw [invariant.held, if_neg down] at one
  omega

theorem turn_answered (invariant : Invariant modulus history machine)
    (found : machine.roles[place]? = some role)
    (turned : role.turn modulus place machine.shared = outcome)
    (below : triggers (history ++ [outcome.event]) < modulus)
    (idle : Machine.Idle ⟨outcome.shared, machine.roles.set place outcome.next ++ outcome.spawned⟩) :
    Answered (history ++ [outcome.event]) := by
  have member : role ∈ machine.roles := List.mem_of_getElem? found
  have counted := triggers_append history outcome.event
  have belowBefore : triggers history < modulus := by omega
  have generation : machine.shared.generation = triggers history := by
    rw [invariant.generation, Nat.mod_eq_of_lt belowBefore]
  have placed : outcome.next ∈ machine.roles.set place outcome.next ++ outcome.spawned := by
    obtain ⟨bound, -⟩ := List.getElem?_eq_some_iff.mp found
    exact List.mem_append_left _ (List.mem_set bound _)
  rcases turn_idle turned (invariant.running_of_holds member) idle.1 with ⟨newest, rfl⟩ |
    ⟨down, goes, restarts⟩
  · -- The server that lowers the flag has handled every trigger, or it will restart.
    subst turned
    obtain ⟨-, covered⟩ := (invariant.known _ member).later le_rfl .silent
    have last : ¬newest < machine.shared.generation := idle.2 _ placed
    apply covered.answered
    rw [triggers_append, ← generation]
    simpa [Event.isTriggered] using last
  · -- Otherwise the machine was idle before, or a server about to restart is still there.
    refine (invariant.answered belowBefore ⟨down, ?_⟩).append goes
    intro other among soon
    have newer : machine.shared.generation ≤ outcome.shared.generation := by
      rw [turn_generation turned]
      split
      · rename_i made
        rw [if_pos made] at counted
        rw [Nat.mod_eq_of_lt (by omega)]
        exact Nat.le_succ _
      · exact le_rfl
    rcases mem_set_or found among with rfl | kept
    · exact idle.2 _ placed (restarts soon _)
    · exact idle.2 _ (List.mem_append_left _ kept) (soon.later newer)

theorem turn (invariant : Invariant modulus history machine) (found : machine.roles[place]? = some role)
    (turned : role.turn modulus place machine.shared = outcome) :
    Invariant modulus (history ++ [outcome.event])
      ⟨outcome.shared, machine.roles.set place outcome.next ++ outcome.spawned⟩ where
  held := by
    have moved := held_set found outcome.next outcome.spawned
    have flag := turn_holds turned (invariant.running_of_holds (List.mem_of_getElem? found))
    rw [invariant.held] at moved
    simp only
    omega
  generation := by
    rw [turn_generation turned, triggers_append, invariant.generation]
    split
    · exact Nat.mod_add_mod _ _ _
    · rfl
  raised task level made := by
    rcases List.mem_append.mp made with earlier | now
    · exact (invariant.raised task level earlier).trans (turn_level turned)
    · exact (turn_raised turned (invariant.known _ (List.mem_of_getElem? found))
        (List.mem_singleton.mp now).symm).trans
        (turn_level turned)
  known other member := by
    rcases List.mem_append.mp member with listed | new
    · rcases List.mem_or_eq_of_mem_set listed with kept | rfl
      · exact (invariant.known other kept).later (turn_level turned) _
      · exact turn_known turned (invariant.known _ (List.mem_of_getElem? found))
          invariant.generation invariant.raised
    · obtain rfl := turn_spawned turned new
      trivial
  answered := invariant.turn_answered found turned

theorem begin {added : List (Role Level)} (invariant : Invariant modulus history machine)
    (starts : ∀ role ∈ added, role.Starts) :
    Invariant modulus (history ++ [.silent]) { machine with roles := machine.roles ++ added } := by
  have new : ∀ role ∈ added, role.holds = false ∧
      role.Known (history ++ [.silent]) machine.shared.level := by
    intro role listed
    cases role with
    | outside | raise _ => exact ⟨rfl, trivial⟩
    | _ => exact (starts _ listed).elim
  constructor
  case held =>
    have none : added.countP Role.holds = 0 := List.countP_eq_zero.mpr fun role listed =>
        by simp [(new role listed).1]
    simpa [none] using invariant.held
  case generation => simpa [triggers_append, Event.isTriggered] using invariant.generation
  case raised =>
    intro task level made
    exact invariant.raised task level (by simpa using made)
  case known =>
    intro other member
    rcases List.mem_append.mp member with listed | last
    · exact (invariant.known other listed).later le_rfl _
    · exact (new other last).2
  case answered =>
    intro below idle
    rw [triggers_append] at below
    exact (invariant.answered (by omega)
      ⟨idle.1, fun other listed => idle.2 other (List.mem_append_left _ listed)⟩).append
      fun _ made => by cases made

theorem step {event : Event Level} {after : Machine Level} (invariant : Invariant modulus history machine)
    (step : machine.Step modulus event after) : Invariant modulus (history ++ [event]) after := by
  cases step with
  | begin starts => exact invariant.begin starts
  | turn found turned => exact invariant.turn found turned

theorem run {more : List (Event Level)} {after : Machine Level}
    (invariant : Invariant modulus history machine)
    (taken : Transition.Run (Machine.Step modulus) machine more after) :
    Invariant modulus (history ++ more) after := by
  induction taken generalizing history with
  | refl => rwa [List.append_nil]
  | next step _ ih =>
      rw [List.append_cons]
      exact ih (invariant.step step)

/-- Nothing has been asked for, and no task takes part. -/
theorem fresh {first : Machine Level} (down : first.shared.running = false)
    (zero : first.shared.generation = 0)
    (outside : ∀ role ∈ first.roles, role = .outside) : Invariant modulus [] first where
  held := by
    rw [down, if_neg Bool.false_ne_true]
    exact List.countP_eq_zero.mpr fun role listed => by simp [outside role listed, Role.holds]
  generation := by rw [zero, triggers, List.countP_nil, Nat.zero_mod]
  raised _ _ made := absurd made List.not_mem_nil
  known role listed := by
    rw [outside role listed]
    trivial
  answered _ _ early late task level split := absurd split.symm (by simp)

end Invariant

end Invariant

end Hashring.Coalescing
