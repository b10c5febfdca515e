import Hashring.FanOutTasks

/-! Commands over several keys equal their arguments taken one after another. -/
namespace Hashring

open Program

/-! The commands end. -/

section Ending

open KeyShelf

theorem KeyShelf.undisturbed_refl (shelf : KeyShelf) : Undisturbed shelf shelf := ⟨rfl, fun _ => rfl⟩

theorem KeyShelf.undisturbed_trans (first second third : KeyShelf) (early : Undisturbed first second)
    (late : Undisturbed second third) : Undisturbed first third :=
  ⟨late.1.trans early.1, fun key => (late.2 key).trans (early.2 key)⟩

/-- A part of an operation can run from one state to another. -/
abbrev CanEnd {α : Type} (task : StoreTask α) (shelf : KeyShelf) (value : α) (after : KeyShelf) : Prop :=
  task.run.Ends (fun call shelf => KeyShelf.Answers shelf call) Undisturbed shelf (.ok value) after

variable {shelf after : KeyShelf} {α β : Type}

theorem asks {call : ClientCall α} {answer : α} (answered : shelf.Answers call answer after) :
    CanEnd (ask call) shelf answer after :=
  ⟨shelf, answer, after, undisturbed_refl shelf, answered, rfl, undisturbed_refl after⟩

theorem client_ends (shelf : KeyShelf) : CanEnd sharedClient shelf () shelf :=
  ends_then undisturbed_trans (asks ⟨rfl, rfl⟩) ⟨rfl, undisturbed_refl shelf⟩

theorem read_ends (key : Bytes) (shelf : KeyShelf) :
    CanEnd (readWith key) shelf (shelf.world.live key) shelf := by
  cases found : shelf.world.live key with
  | none =>
      have answered : shelf.Answers (.get key)
          (.error (.operation ⟨.notFound, "", false, .knownNotApplied⟩)) shelf := by
        refine ⟨?_, rfl⟩
        rw [found]
        exact ⟨_, rfl, rfl⟩
      exact ends_then undisturbed_trans (asks answered) ⟨rfl, undisturbed_refl shelf⟩
  | some record =>
      have answered : shelf.Answers (.get key)
          (.ok ⟨record.value, record.version, 0, record.deadline⟩) shelf := by
        refine ⟨?_, rfl⟩
        rw [found]
        exact ⟨0, rfl⟩
      exact ends_then undisturbed_trans (asks answered) ⟨rfl, undisturbed_refl shelf⟩

theorem put_ends (key value : Bytes) (shelf : KeyShelf) :
    ∃ after, CanEnd (KeyEffect.put key value .clear).cluster shelf () after ∧
      after.locked = shelf.locked := by
  let made := shelf.world.store key (some ⟨value, none, ⟨0, 0, ""⟩⟩)
  have answered : shelf.Answers (.putWithExpiry key value .clear) (.ok ⟨⟨0, 0, ""⟩, 0⟩)
      { shelf with world := made } :=
    ⟨_, made, rfl, ⟨fun _ absent => absurd absent (by simp), _, rfl⟩, rfl⟩
  refine ⟨{ shelf with world := made }, ?_, rfl⟩
  refine ends_then undisturbed_trans (client_ends shelf) ?_
  refine ends_then undisturbed_trans
    (ends_then undisturbed_trans (asks answered) ⟨rfl, undisturbed_refl _⟩) ?_
  exact ⟨rfl, undisturbed_refl _⟩

theorem delete_round_ends (key : Bytes) (shelf : KeyShelf) :
    ∃ count after, CanEnd (updateRound key deleteOne ()) shelf (.inr count) after ∧
      after.locked = shelf.locked := by
  cases found : shelf.world.live key with
  | none =>
      refine ⟨0, shelf, ?_, rfl⟩
      refine ends_then undisturbed_trans (found ▸ read_ends key shelf) ?_
      exact ends_then undisturbed_trans (asks ⟨rfl, rfl⟩) ⟨rfl, undisturbed_refl shelf⟩
  | some record =>
      -- The version just read is still there, so the condition holds.
      let made := shelf.world.store key none
      have answered : shelf.Answers (.deleteIf key (expectedFor (some record)))
          (.ok (some ⟨0, record.version⟩))
          { shelf with world := made } :=
        .inl ⟨_, made, rfl, ⟨⟨record, found, rfl⟩, rfl⟩, rfl⟩
      refine ⟨1, { shelf with world := made }, ?_, rfl⟩
      refine ends_then undisturbed_trans (found ▸ read_ends key shelf) ?_
      refine ends_then undisturbed_trans (asks ⟨rfl, rfl⟩) ?_
      refine ends_then undisturbed_trans
        (ends_then undisturbed_trans (asks answered) ⟨rfl, undisturbed_refl _⟩) ?_
      exact ⟨rfl, undisturbed_refl _⟩

theorem delete_ends (key : Bytes) {shelf : KeyShelf} (unlocked : shelf.locked = []) :
    ∃ count after, CanEnd (KeyEffect.update key deleteOne).cluster shelf count after ∧
      after.locked = [] := by
  let locked : KeyShelf := { shelf with locked := stripeOf key :: shelf.locked }
  have free : stripeOf key ∉ shelf.locked := by simp [unlocked]
  obtain ⟨count, after, ran, same⟩ := delete_round_ends key locked
  let released : KeyShelf := { after with locked := after.locked.erase (stripeOf key) }
  have body : CanEnd (sharedClient >>= fun _ => tryLoop (updateRound key deleteOne) ()) locked count
      after :=
    ends_then undisturbed_trans (client_ends locked)
      (ends_loop undisturbed_trans (undisturbed_refl after) ran)
  have takes : shelf.Answers (.lock (stripeOf key)) () locked := ⟨free, rfl⟩
  have releases : after.Answers (.unlock (stripeOf key)) () released := rfl
  refine ⟨count, released, ?_, ?_⟩
  · refine ends_then undisturbed_trans (asks takes) ?_
    have tried : CanEnd (attempt (sharedClient >>= fun _ => tryLoop (updateRound key deleteOne) ()))
        locked (.ok count) after :=
      ends_bind undisturbed_trans body ⟨rfl, undisturbed_refl after⟩
    refine ends_then undisturbed_trans tried ?_
    exact ends_then undisturbed_trans (asks releases) ⟨rfl, undisturbed_refl released⟩
  · simp [released, same, locked, unlocked]

theorem fan_out_can_end {effects : List (KeyEffect (Except RedisError α))}
    {settle : List (Except RedisError α) → Except RedisError (List α)} {reply : List α → Reply}
    (each : ∀ effect ∈ effects, ∀ shelf : KeyShelf, shelf.locked = [] →
      ∃ value after, CanEnd effect.cluster shelf value after ∧ after.locked = [])
        (unlocked : shelf.locked = []) :
    ∃ result last, ((fanOut effects settle reply).run.interpret fun effect => effect.cluster).Ends
      LabelledAnswers Undisturbed
      shelf result last := by
  have turns : ∀ (tasks : List (Program (Labelled ClientCall) (Except RedisError α))),
      (∀ task ∈ tasks, ∀ shelf : KeyShelf, shelf.locked = [] →
        ∃ value after, task.Ends LabelledAnswers Undisturbed shelf value after ∧ after.locked = []) →
      ∀ shelf : KeyShelf, shelf.locked = [] → ∃ values last,
          InTurn LabelledAnswers Undisturbed tasks shelf values last := by
    intro tasks
    induction tasks with
    | nil => exact fun _ shelf _ => ⟨[], shelf, rfl, undisturbed_refl shelf⟩
    | cons task rest ih =>
        intro able shelf unlocked
        obtain ⟨value, middle, ran, left⟩ := able task List.mem_cons_self shelf unlocked
        obtain ⟨values, last, others⟩ :=
          ih (fun task member => able task (List.mem_cons_of_mem _ member)) middle left
        exact ⟨value :: values, last, value, middle, values, ran, others, rfl⟩
  have able : ∀ task ∈ (effects.map fun effect => effect.cluster).mapIdx labelled, ∀ shelf :
      KeyShelf, shelf.locked = [] →
      ∃ value after, task.Ends LabelledAnswers Undisturbed shelf value after ∧ after.locked = [] := by
    intro task member shelf unlocked
    obtain ⟨index, found⟩ := List.mem_iff_getElem?.mp member
    simp only [List.getElem?_mapIdx, List.getElem?_map, Option.map_map, Option.map_eq_some_iff] at found
    obtain ⟨effect, listed, rfl⟩ := found
    obtain ⟨value, after, ran, left⟩ := each effect (List.mem_of_getElem? listed) shelf unlocked
    exact ⟨.ok value, after, ends_lift ran, left⟩
  -- The tasks one after another are one of the interleavings.
  obtain ⟨results, last, turned⟩ := turns _ able shelf unlocked
  obtain ⟨fuel, gathered⟩ := gather_in_turn undisturbed_trans turned
  rw [fan_out_interpret]
  exact ⟨_, last, ends_bind undisturbed_trans ⟨fuel, gathered⟩ ⟨rfl, undisturbed_refl last⟩⟩

end Ending

/-! The commands, whole. -/

namespace FanOut

variable {args : Args} {start last : KeyShelf} {result : Except RedisError Reply}

theorem mget_shape (args : Args) : Strings.mget args = fanOut (args.rest.map .read) (·.mapM id)
    fun values => .array (values.map fun current => bulkOrNil (valueOf current)) := rfl

theorem exists_shape (args : Args) : Hashring.exists_ args = fanOut (args.rest.map .read) (·.mapM id)
    fun found => .integer (found.filter Option.isSome).length := rfl

theorem delete_shape (args : Args) : delete args = fanOut (args.rest.map fun key => .update key deleteOne)
    partialWriteOutcome fun removed => .integer removed.sum := rfl

theorem mset_shape {pairs : List (Bytes × Bytes)} (parsed : Strings.chunks args.rest = some pairs) :
    Strings.mset args = fanOut ((Strings.latest pairs).map fun pair => .put pair.1 pair.2 .clear)
      partialWriteOutcome
      fun _ => .status := by
  have accepted : Strings.pairs args = .ok (Strings.latest pairs) := by rw [Strings.pairs, parsed]
  rw [Strings.mset, accepted]
  rfl

theorem mset_refused (odd : Strings.chunks args.rest = none) :
    Strings.mset args = throw (.wrongArity args.name) := by
  have refused : Strings.pairs args = .error (.wrongArity args.name) := by rw [Strings.pairs, odd]
  rw [Strings.mset, refused]
  rfl

theorem reads_in_order (keys : List Bytes) (shelf : KeyShelf) :
    oneByOne readOne keys shelf.shows = (keys.map fun key => valueOf (shelf.world.live key),
      shelf.shows) := by
  rw [read_in_order]
  congr 1
  refine List.map_congr_left fun key _ => ?_
  rw [KeyShelf.shows, Option.map_map]
  rfl

theorem shows_unchanged (same : last.world.live = start.world.live) : last.shows = start.shows := by
  funext key
  simp only [KeyShelf.shows, same]

theorem mget_in_order (runs : mget.Runs args start result last) :
    (result, last.shows) = mget.inOrder args start.shows := by
  obtain ⟨final, ran, shown⟩ := runs_view runs
  rw [handler, mget_shape] at ran
  obtain ⟨rfl, same⟩ := read_values settled_each ran
  have kept := shows_unchanged (shown.symm.trans same)
  simp only [inOrder, reads_in_order, kept, List.map_map, Function.comp_def]

theorem exists_in_order (runs : exists_.Runs args start result last) :
    (result, last.shows) = exists_.inOrder args start.shows := by
  obtain ⟨final, ran, shown⟩ := runs_view runs
  rw [handler, exists_shape] at ran
  obtain ⟨rfl, same⟩ := read_values settled_each ran
  have kept := shows_unchanged (shown.symm.trans same)
  have count : ((args.rest.map start.world.live).filter Option.isSome).length =
      ((args.rest.map fun key => valueOf (start.world.live key)).filter Option.isSome).length := by
    simp [List.filter_map, Function.comp_def, valueOf]
  simp only [inOrder, reads_in_order, kept, count]

theorem del_in_order (runs : del.Runs args start result last) :
    (result, last.shows) = del.inOrder args start.shows := by
  obtain ⟨final, ran, shown⟩ := runs_view runs
  rw [handler, delete_shape] at ran
  obtain ⟨rfl, left⟩ := remove_values rfl ran
  obtain ⟨counted, gone⟩ := remove_in_order args.rest start.shows
  have there : (fun key => (start.shows key).isSome) = fun key => (start.world.live key).isSome := by
    funext key
    simp [KeyShelf.shows]
  rw [there] at counted
  have shows : last.shows = (oneByOne removeOne args.rest start.shows).2 := by
    funext key
    rw [gone key, KeyShelf.shows, ← shown, left key]
    split
    · rfl
    · rfl
  simp only [inOrder, counted, shows]

theorem mset_in_order (runs : mset.Runs args start result last) :
    (result, last.shows) = mset.inOrder args start.shows := by
  cases parsed : Strings.chunks args.rest with
  | none =>
      rw [Runs, handler, mset_refused parsed] at runs
      obtain ⟨rfl, -, same⟩ := runs
      simp only [inOrder, parsed, shows_unchanged (funext same)]
  | some pairs =>
      obtain ⟨final, ran, shown⟩ := runs_view runs
      rw [handler, mset_shape parsed] at ran
      obtain ⟨rfl, outside, written⟩ := write_values (latest_distinct pairs) ran
      obtain ⟨latest, kept⟩ := set_in_order pairs start.shows
      have shows : last.shows = (oneByOne setOne pairs start.shows).2 := by
        funext key
        rw [KeyShelf.shows, ← shown]
        -- Only the latest pairs were written, and each of them to its own key.
        by_cases named : key ∈ (Strings.latest pairs).map Prod.fst
        · obtain ⟨pair, member, rfl⟩ := List.mem_map.mp named
          obtain ⟨version, found⟩ := written pair member
          rw [found, latest pair member]
          rfl
        · rw [outside key named, kept key named]
          rfl
      simp only [inOrder, parsed, shows]

/-- However the operations on the keys are interleaved, the reply and the final
contents are those of the arguments taken in order. -/
theorem runs_in_order (command : FanOut) (runs : command.Runs args start result last) :
    (result, last.shows) = command.inOrder args start.shows := by
  cases command with
  | mset => exact mset_in_order runs
  | del => exact del_in_order runs
  | unlink => exact del_in_order runs
  | mget => exact mget_in_order runs
  | exists_ => exact exists_in_order runs
  | touch => exact exists_in_order runs

theorem can_run (command : FanOut) (args : Args) (unlocked : start.locked = []) :
    ∃ result last, command.Runs args start result last := by
  have reads : ∀ effect ∈ args.rest.map KeyEffect.read, ∀ shelf : KeyShelf, shelf.locked = [] →
      ∃ value after, CanEnd effect.cluster shelf value after ∧ after.locked = [] := by
    intro effect member shelf free
    obtain ⟨key, -, rfl⟩ := List.mem_map.mp member
    exact ⟨_, shelf, ends_then KeyShelf.undisturbed_trans (client_ends shelf) (read_ends key shelf), free⟩
  have deletes : ∀ effect ∈ args.rest.map fun key => KeyEffect.update key deleteOne, ∀ shelf :
      KeyShelf, shelf.locked = [] →
      ∃ value after, CanEnd effect.cluster shelf value after ∧ after.locked = [] := by
    intro effect member shelf free
    obtain ⟨key, -, rfl⟩ := List.mem_map.mp member
    exact delete_ends key free
  have writes : ∀ pairs : List (Bytes × Bytes), ∀ effect ∈ pairs.map fun pair =>
      KeyEffect.put pair.1 pair.2 .clear,
      ∀ shelf : KeyShelf, shelf.locked = [] → ∃ value after,
          CanEnd effect.cluster shelf value after ∧ after.locked = [] := by
    intro pairs effect member shelf free
    obtain ⟨pair, -, rfl⟩ := List.mem_map.mp member
    obtain ⟨after, ran, same⟩ := put_ends pair.1 pair.2 shelf
    exact ⟨(), after, ran, same.trans free⟩
  cases command with
  | mset =>
      cases parsed : Strings.chunks args.rest with
      | none =>
          refine ⟨.error (.wrongArity args.name), start, ?_⟩
          rw [Runs, handler, mset_refused parsed]
          exact ⟨rfl, KeyShelf.undisturbed_refl start⟩
      | some pairs =>
          obtain ⟨result, last, ran⟩ := fan_out_can_end (writes (Strings.latest pairs)) unlocked
          refine ⟨result, last, ?_⟩
          rw [Runs, handler, mset_shape parsed]
          exact ran
  | del => exact fan_out_can_end deletes unlocked
  | unlink => exact fan_out_can_end deletes unlocked
  | mget => exact fan_out_can_end reads unlocked
  | exists_ => exact fan_out_can_end reads unlocked
  | touch => exact fan_out_can_end reads unlocked

theorem latest_last {before after : List (Bytes × Bytes)} {key value : Bytes}
    (last : key ∉ after.map Prod.fst) :
    (key, value) ∈ Strings.latest (before ++ (key, value) :: after) := by
  induction before with
  | nil =>
      have fresh : (after.any fun later => later.1 = key) = false := by
        rw [List.any_eq_false]
        intro later member same
        exact last (List.mem_map.mpr ⟨later, member, of_decide_eq_true same⟩)
      simp [Strings.latest, fresh]
  | cons pair rest ih =>
      rw [List.cons_append, Strings.latest]
      split
      · exact ih
      · exact List.mem_cons_of_mem _ ih

end FanOut

/-- A command over several keys equals its arguments taken in order, and it ends. A
key that `MSET` names again takes its last value; `DEL` counts a key once. -/
theorem fan_out_in_order (command : FanOut) (args : Args) (start : KeyShelf) :
    (∀ result last, command.Runs args start result last →
      (result, last.shows) = command.inOrder args start.shows) ∧
      (start.locked = [] → ∃ result last, command.Runs args start result last) ∧
      (∀ before key value after, Strings.chunks args.rest = some (before ++ (key, value) :: after) →
        key ∉ after.map Prod.fst → ∀ result last, FanOut.mset.Runs args start result last →
          last.shows key = some (value, none)) ∧
      ∀ result last, FanOut.del.Runs args start result last →
        result = .ok (.integer (presentKeys args.rest fun key => (start.shows key).isSome).card) := by
  refine ⟨fun _ _ => command.runs_in_order, command.can_run args, ?_, ?_⟩
  · intro before key value after parsed final result last runs
    have shows := congrArg Prod.snd (FanOut.mset_in_order runs)
    simp only [FanOut.inOrder, parsed] at shows
    rw [shows]
    exact (set_in_order _ start.shows).1 (key, value) (FanOut.latest_last final)
  · intro result last runs
    have replied := congrArg Prod.fst (FanOut.del_in_order runs)
    simp only [FanOut.inOrder, (remove_in_order args.rest start.shows).1] at replied
    exact replied

namespace RepeatedKey

def key : Bytes := [byte 97]

def record : Current := ⟨[byte 48], none, ⟨1, 1, "node-a"⟩⟩

def shelf : KeyShelf := ⟨⟨fun asked => if asked = key then some record else none, 0, []⟩, []⟩

def pairs : Args := ⟨"mset", [key, [byte 49], key, [byte 50]]⟩

def keys : Args := ⟨"del", [key, key]⟩

end RepeatedKey

open RepeatedKey in
theorem fan_out_repeated_key :
    (∃ last, FanOut.del.Runs keys shelf (.ok (.integer 1)) last ∧ last.shows key = none) ∧
      ∃ last, FanOut.mset.Runs pairs shelf (.ok .status) last ∧
        last.shows key = some ([byte 50], none) := by
  obtain ⟨deleted, deletes, -, counts⟩ := fan_out_in_order .del keys shelf
  obtain ⟨set_, sets, lasts, -⟩ := fan_out_in_order .mset pairs shelf
  constructor
  · obtain ⟨result, last, runs⟩ := deletes rfl
    have gone : last.shows key = none := congrFun (congrArg Prod.snd (deleted result last runs)) key
    have counted : result = .ok (.integer 1) := counts result last runs
    exact ⟨last, counted ▸ runs, gone⟩
  · obtain ⟨result, last, runs⟩ := sets rfl
    have replied : result = .ok .status := congrArg Prod.fst (set_ result last runs)
    have shows := lasts [(key, [byte 49])] key [byte 50] [] rfl List.not_mem_nil result last runs
    exact ⟨last, replied ▸ runs, shows⟩

end Hashring
