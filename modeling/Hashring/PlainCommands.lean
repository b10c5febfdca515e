import Hashring.PlainHandlers

/-! The store's commands, one by one: each does the same on stores that show the
same, and answers in replies that read back. -/
namespace Hashring

open Handler Regime

variable {regime : Regime} {args : Args}

namespace Strings

theorem get_answers : regime.Answers (get args) := by
  refine comes_bind (comes_next args) fun ⟨key, _⟩ _ => ?_
  exact answers_shown key bulkOrNil bulk_or_nil_framed

theorem strlen_answers : regime.Answers (strlen args) := by
  refine comes_bind (comes_next args) fun ⟨key, _⟩ _ => ?_
  exact answers_shown key (fun value => .integer ((value.getD []).length)) fun _ => rfl

theorem getrange_answers (named : oneLine args.name = true) : regime.Answers (getrange args) := by
  refine comes_bind (comes_next args) fun ⟨key, rest⟩ kept => ?_
  refine comes_bind (comes_next_integer (kept ▸ named)) fun ⟨start, later⟩ also => ?_
  refine comes_bind (comes_next_integer (also ▸ kept ▸ named)) fun ⟨stop, _⟩ _ => ?_
  exact answers_shown key (fun value => .ofBytes (sliceRange (value.getD []) start stop)) fun _ => rfl

theorem getdel_answers : regime.Answers (getdel args) :=
  comes_bind (comes_next args) fun ⟨key, _⟩ _ => comes_update getdel_plain key

theorem getex_options_come (runtime : Runtime) {name : String} (named : oneLine name = true) :
    ∀ (change : Option (Option Nat)) (words : List Bytes),
      regime.Comes (fun _ => True) (getexOptions runtime name change words)
  | change, [] => comes_pure trivial
  | change, word :: rest => by
      unfold getexOptions
      split
      · exact comes_throw (by decide)
      · split
        · exact comes_throw (by decide)
        · refine comes_bind (comes_integer named) fun amount _ => ?_
          refine comes_bind comes_now fun now _ => ?_
          refine comes_bind (comes_checked (positive_deadline_error (by decide))) fun deadline _ => ?_
          exact getex_options_come runtime named _ _
        · split
          · exact getex_options_come runtime named _ _
          · exact comes_throw (by decide)

theorem getex_answers (runtime : Runtime) (named : oneLine args.name = true) :
    regime.Answers (getex runtime args) := by
  refine comes_bind (comes_next args) fun ⟨key, rest⟩ kept => ?_
  refine comes_bind (getex_options_come runtime (kept ▸ named) none _) fun change _ => ?_
  exact comes_update (getex_plain change) key

theorem set_options_come (runtime : Runtime) {name : String} (named : oneLine name = true) :
    ∀ (options : SetOptions) (ttlGiven : Bool) (words : List Bytes),
      regime.Comes (fun _ => True) (SetOptions.parse runtime name options ttlGiven words)
  | options, ttlGiven, [] => comes_pure trivial
  | options, ttlGiven, word :: rest => by
      unfold SetOptions.parse
      simp only
      split
      · split
        · exact comes_throw (by decide)
        · exact set_options_come runtime named _ _ rest
      · split
        · split
          · exact comes_throw (by decide)
          · exact set_options_come runtime named _ _ rest
        · split
          · exact set_options_come runtime named _ _ rest
          · split
            · split
              · exact comes_throw (by decide)
              · exact set_options_come runtime named _ _ rest
            · split
              · exact comes_throw (by decide)
              · exact comes_throw (by decide)
              · refine comes_bind (comes_integer named) fun amount _ => ?_
                refine comes_bind comes_now fun now _ => ?_
                refine comes_bind (comes_checked (positive_deadline_error (by decide)))
                  fun deadline _ => ?_
                split
                · exact comes_throw (by decide)
                · exact set_options_come runtime named _ _ _

theorem set_answers (runtime : Runtime) (named : oneLine args.name = true) :
    regime.Answers (set runtime args) := by
  refine comes_bind (comes_next args) fun ⟨key, rest⟩ kept => ?_
  refine comes_bind (comes_next rest) fun ⟨value, later⟩ also => ?_
  refine comes_bind (set_options_come runtime (also ▸ kept ▸ named) {} false _) fun options _ => ?_
  split
  · exact comes_bind (comes_put key value _) fun _ _ => comes_pure (by decide)
  · exact comes_update (set_plain options value) key

theorem set_with_ttl_answers (named : oneLine args.name = true) (unit : TimeUnit) :
    regime.Answers (setWithTtl args unit) := by
  refine comes_bind (comes_next args) fun ⟨key, rest⟩ kept => ?_
  refine comes_bind (comes_next_integer (kept ▸ named)) fun ⟨amount, later⟩ also => ?_
  refine comes_bind (comes_next later) fun ⟨value, last⟩ again => ?_
  refine comes_bind comes_now fun now _ => ?_
  have plainName : oneLine last.name = true := again ▸ also ▸ kept ▸ named
  refine comes_bind (comes_checked (positive_deadline_error plainName)) fun deadline _ => ?_
  exact comes_bind (comes_put key value _) fun _ _ => comes_pure (by decide)

theorem setnx_answers : regime.Answers (setnx args) := by
  refine comes_bind (comes_next args) fun ⟨key, rest⟩ _ => ?_
  exact comes_bind (comes_next rest) fun ⟨value, _⟩ _ => comes_update (setnx_plain value) key

theorem getset_answers : regime.Answers (getset args) := by
  refine comes_bind (comes_next args) fun ⟨key, rest⟩ _ => ?_
  exact comes_bind (comes_next rest) fun ⟨value, _⟩ _ => comes_update (getset_plain value) key

theorem setrange_answers (named : oneLine args.name = true) (maxValue : Nat) :
    regime.Answers (setrange args maxValue) := by
  refine comes_bind (comes_next args) fun ⟨key, rest⟩ kept => ?_
  refine comes_bind (comes_next_integer (kept ▸ named)) fun ⟨offset, later⟩ _ => ?_
  refine comes_bind (comes_next later) fun ⟨patch, _⟩ _ => ?_
  simp only
  split
  · exact comes_throw (by decide)
  · split
    · exact answers_shown key (fun value => .integer ((value.getD []).length)) fun _ => rfl
    · split
      · exact comes_throw (by decide)
      · exact comes_update (setrange_plain offset.toNat patch) key

theorem append_answers (maxValue : Nat) : regime.Answers (append args maxValue) := by
  refine comes_bind (comes_next args) fun ⟨key, rest⟩ _ => ?_
  exact comes_bind (comes_next rest) fun ⟨suffix, _⟩ _ => comes_update (append_plain maxValue suffix) key

theorem incr_amount_error (named : oneLine args.name = true) (error : RedisError)
    (failed : incrAmount args = .error error) :
    error.Plain := by
  unfold incrAmount at failed
  cases read : args.nextInteger with
  | error found =>
      rw [read] at failed
      exact Except.error.inj failed ▸ (next_integer_cases named).1 found read
  | ok found =>
      rw [read] at failed
      simp only [bind, Except.bind] at failed
      split at failed
      · split at failed
        · obtain rfl := Except.error.inj failed
          decide
        · exact absurd failed (by simp [pure, Except.pure])
      · exact absurd failed (by simp [pure, Except.pure])

theorem incr_by_answers (named : oneLine args.name = true) (step : Option Int) :
    regime.Answers (incrBy args step) := by
  refine comes_bind (comes_next args) fun ⟨key, rest⟩ kept => ?_
  cases step with
  | some step =>
      have given : regime.Comes (fun _ => True) (pure step) := comes_pure trivial
      exact comes_bind given fun delta _ => comes_update (incr_plain delta) key
  | none => exact comes_bind (comes_checked (incr_amount_error (kept ▸ named))) fun delta _ =>
      comes_update (incr_plain delta) key

theorem incrbyfloat_answers (runtime : Runtime) : regime.Answers (incrbyfloat runtime args) := by
  refine comes_bind (comes_next args) fun ⟨key, rest⟩ _ => ?_
  refine comes_bind (comes_next rest) fun ⟨amount, _⟩ _ => ?_
  have float : ∀ error, runtime.float amount = .error error → error.Plain := by
    intro error failed
    unfold Runtime.float at failed
    split at failed
    · exact absurd failed (by simp)
    · obtain rfl := Except.error.inj failed
      decide
  exact comes_bind (comes_checked float) fun delta _ => comes_update (incrbyfloat_plain runtime delta) key

theorem framed_items_map {α : Type} (reply : α → Reply)
    (framed : ∀ item, (reply item).framed = true) (items : List α) :
    Reply.framedItems (items.map reply) = true := by
  induction items with
  | nil => rfl
  | cons item rest ih =>
      rw [List.map_cons, Reply.framedItems, framed, ih]
      rfl

theorem mget_answers : regime.Answers (mget args) := by
  refine Program.paired_then (handled_reads args.rest) fun firsts seconds related => ?_
  have same : firsts.map (fun current => bulkOrNil (valueOf current)) = seconds.map fun current =>
      bulkOrNil (valueOf current) := by
    induction related with
    | nil => rfl
    | cons head _ ih => rw [List.map_cons, List.map_cons, value_of_related head, ih]
  rw [same]
  exact comes_pure (framed_items_map _ (fun current => bulk_or_nil_framed _) seconds)

theorem pairs_error (named : oneLine args.name = true) (error : RedisError)
    (failed : pairs args = .error error) :
    error.Plain := by
  unfold pairs at failed
  split at failed
  · obtain rfl := Except.error.inj failed
    have code : oneLine "ERR" = true := by decide
    refine ⟨code, ?_⟩
    show oneLine ("wrong number of arguments for '" ++ args.name ++ "' command") = true
    simp only [one_line_append, named]
    decide
  · exact absurd failed (by simp)

theorem mset_answers (named : oneLine args.name = true) : regime.Answers (mset args) := by
  refine comes_bind (comes_checked (pairs_error named)) fun pairs _ => ?_
  refine comes_bind (comes_each_write ?_ ?_) fun _ _ => comes_pure (by decide)
  · intro effect member
    obtain ⟨pair, -, rfl⟩ := List.mem_map.mp member
    trivial
  · intro effect member first second agree
    obtain ⟨pair, -, rfl⟩ := List.mem_map.mp member
    exact agree

theorem msetnx_answers (named : oneLine args.name = true) : regime.Answers (msetnx args) := by
  refine comes_bind (comes_checked (pairs_error named)) fun pairs _ => ?_
  split
  · exact comes_bind (comes_put_if_absent _ _) fun created _ => comes_pure (by split <;> rfl)
  · exact comes_throw (by decide +kernel)

end Strings

theorem delete_answers : regime.Answers (delete args) := by
  refine comes_bind (comes_each_write ?_ ?_) fun removed _ => comes_pure rfl
  · intro effect member
    obtain ⟨key, -, rfl⟩ := List.mem_map.mp member
    exact plain_fair delete_one_plain key
  · intro effect member first second agree
    obtain ⟨key, -, rfl⟩ := List.mem_map.mp member
    exact Program.agree_weaken (fun _ _ same => same.1) agree

theorem exists_answers : regime.Answers (exists_ args) := by
  refine Program.paired_then (handled_reads args.rest) fun firsts seconds related => ?_
  have same : (firsts.filter Option.isSome).length = (seconds.filter Option.isSome).length := by
    induction related with
    | nil => rfl
    | cons head _ ih =>
        rw [List.filter_cons, List.filter_cons, present_related head]
        split
        · rw [List.length_cons, List.length_cons, ih]
        · exact ih
  rw [same]
  exact comes_pure rfl

theorem key_type_answers : regime.Answers (keyType args) := by
  refine comes_bind (comes_next args) fun ⟨key, _⟩ _ => ?_
  refine Program.paired_then (handled_read key) fun first second related => ?_
  cases related with
  | none => exact comes_pure (by decide)
  | some same => exact comes_pure (by decide)

theorem rename_source_answers (source : Bytes) (current : Current) (onlyIfAbsent : Bool) :
    regime.Answers (renameSource source current onlyIfAbsent) := by
  refine comes_bind (comes_direct trivial fun _ _ agree => agree) fun deleted _ => ?_
  cases deleted with
  | some output => exact comes_pure (by cases onlyIfAbsent <;> decide)
  | none => exact comes_throw (by decide +kernel)

theorem rename_answers (onlyIfAbsent : Bool) : regime.Answers (rename args onlyIfAbsent) := by
  refine comes_bind (comes_next args) fun ⟨source, rest⟩ _ => ?_
  refine comes_bind (comes_next rest) fun ⟨destination, _⟩ _ => ?_
  refine Program.paired_then (handled_read source) fun first second related => ?_
  cases related with
  | none => exact comes_throw (by decide)
  | @some first second same =>
      simp only [renameFound]
      split
      · exact comes_pure (by cases onlyIfAbsent <;> decide)
      · refine Program.paired_then handled_client fun _ _ direct => ?_
        obtain rfl := regime.exact direct first second same
        split
        · refine comes_bind (comes_direct trivial fun _ _ agree => agree) fun put _ => ?_
          cases put with
          | none => exact comes_pure rfl
          | some output => exact rename_source_answers source first onlyIfAbsent
        · exact comes_bind (comes_put _ _ _) fun _ _ => rename_source_answers source first onlyIfAbsent

theorem guard_error (runtime : Runtime) (error : RedisError)
    (failed : ExpiryGuard.parse runtime args = .error error) :
    error.Plain := by
  have word : error = .syntaxError := by
    unfold ExpiryGuard.parse at failed
    simp only [bind, Except.bind] at failed
    split at failed
    case h_6 => exact (Except.error.inj failed).symm
    -- A guard was read, so only what follows it is refused.
    all_goals
      split at failed
      · exact absurd failed (by simp [pure, Except.pure])
      · exact (Except.error.inj failed).symm
  subst word
  decide

theorem expire_answers (runtime : Runtime) (named : oneLine args.name = true) (form : TtlForm) :
    regime.Answers (expire runtime args form) := by
  refine comes_bind (comes_next args) fun ⟨key, rest⟩ kept => ?_
  refine comes_bind (comes_next_integer (kept ▸ named)) fun ⟨amount, later⟩ also => ?_
  refine comes_bind (comes_checked (guard_error runtime)) fun guard _ => ?_
  refine comes_bind comes_now fun now _ => ?_
  split
  · exact comes_throw (invalid_expire_time_plain (also ▸ kept ▸ named))
  · exact comes_update (expire_plain guard _) key

theorem persist_answers : regime.Answers (persist args) :=
  comes_bind (comes_next args) fun ⟨key, _⟩ _ => comes_update persist_plain key

theorem ttl_answers (unit : TimeUnit) : regime.Answers (ttl args unit) := by
  refine comes_bind (comes_next args) fun ⟨key, _⟩ _ => ?_
  refine Program.paired_then (handled_read key) fun first second related => ?_
  cases related with
  | none => exact comes_pure rfl
  | @some first second same =>
      simp only [(regime.shown _ _ same).2]
      split
      · exact comes_pure rfl
      · exact comes_bind comes_now fun now _ => comes_pure rfl

theorem handler_answers {dispatcher : Dispatcher} {name : String} {handler : Handler Reply}
    (named : oneLine args.name = true)
    (found : dispatcher.handler name args = some handler) : regime.Answers handler := by
  unfold Dispatcher.handler at found
  simp only at found
  split at found
  · exact Option.some.inj found ▸ Strings.get_answers
  · exact Option.some.inj found ▸ Strings.getdel_answers
  · exact Option.some.inj found ▸ Strings.getex_answers _ named
  · exact Option.some.inj found ▸ Strings.getrange_answers named
  · exact Option.some.inj found ▸ Strings.set_answers _ named
  · exact Option.some.inj found ▸ Strings.set_with_ttl_answers named _
  · exact Option.some.inj found ▸ Strings.set_with_ttl_answers named _
  · exact Option.some.inj found ▸ Strings.setnx_answers
  · exact Option.some.inj found ▸ Strings.setrange_answers named _
  · exact Option.some.inj found ▸ Strings.mset_answers named
  · exact Option.some.inj found ▸ Strings.msetnx_answers named
  · exact Option.some.inj found ▸ Strings.mget_answers
  · exact Option.some.inj found ▸ Strings.getset_answers
  · exact Option.some.inj found ▸ Strings.append_answers _
  · exact Option.some.inj found ▸ Strings.strlen_answers
  · exact Option.some.inj found ▸ Strings.incr_by_answers named _
  · exact Option.some.inj found ▸ Strings.incr_by_answers named _
  · exact Option.some.inj found ▸ Strings.incr_by_answers named _
  · exact Option.some.inj found ▸ Strings.incr_by_answers named _
  · exact Option.some.inj found ▸ Strings.incrbyfloat_answers _
  · exact Option.some.inj found ▸ delete_answers
  · exact Option.some.inj found ▸ delete_answers
  · exact Option.some.inj found ▸ exists_answers
  · exact Option.some.inj found ▸ exists_answers
  · exact Option.some.inj found ▸ key_type_answers
  · exact Option.some.inj found ▸ rename_answers _
  · exact Option.some.inj found ▸ rename_answers _
  · exact Option.some.inj found ▸ expire_answers _ named _
  · exact Option.some.inj found ▸ expire_answers _ named _
  · exact Option.some.inj found ▸ expire_answers _ named _
  · exact Option.some.inj found ▸ expire_answers _ named _
  · exact Option.some.inj found ▸ persist_answers
  · exact Option.some.inj found ▸ ttl_answers _
  · exact Option.some.inj found ▸ ttl_answers _
  · exact absurd found (by simp)

end Hashring
