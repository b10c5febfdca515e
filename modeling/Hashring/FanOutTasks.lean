import Hashring.FanOut
import Mathlib.Data.Finset.Card
import Mathlib.Data.Fintype.Card

/-! What the operations of a command come to: values read, pairs written and keys
removed, whatever the order of their calls. -/
namespace Hashring

open Program

/-! Reading. -/

theorem read_values {keys : List Bytes}
    {settle : List (Except RedisError (Option Current)) → Except RedisError (List (Option Current))}
    {reply : List (Option Current) → Reply}
    (settles : ∀ values, settle (values.map .ok) = .ok values) {start last : View}
    {result : Except RedisError Reply} (ends : ((fanOut (keys.map .read) settle reply).run.interpret
      fun effect => effect.cluster).Ends View.LabelledActs View.Same start result last) :
    result = .ok (reply (keys.map start.live)) ∧ last.live = start.live := by
  have operates : ∀ index (effect : KeyEffect (Except RedisError (Option Current))),
      (keys.map KeyEffect.read)[index]? = some effect →
      Operates index (fun view => view.live = start.live) (fun _ _ => True) (fun _ _ => True)
        (fun _ => True) effect.cluster
        (fun current _ => ∀ key, keys[index]? = some key → current = start.live key) := by
    intro index effect found
    rw [List.getElem?_map, Option.map_eq_some_iff] at found
    obtain ⟨key, listed, rfl⟩ := found
    -- Nothing is written, so the view is the one from the start at every read.
    have unmoved : Stable (fun view : View => view.live = start.live) (fun _ _ => True) fun _ => True :=
      fun _ _ _ _ known => known
    have connected : Operates index (fun view => view.live = start.live) (fun _ _ => True)
        (fun _ _ => True) (fun _ => True)
        sharedClient fun _ _ => True :=
      operates_client (fun _ => trivial) (fun _ => trivial) unmoved
    refine attempts_bind (fun _ => trivial) never_stable connected fun _ => ?_
    refine operates_read (fun _ => trivial) (fun _ => trivial) unmoved (fun _ _ _ _ _ known => known) ?_
    intro view same _ other named
    rw [listed] at named
    rw [Option.some.inj named, show view.live = start.live from same]
  have begins : ∀ index : Nat, (fun (_ : Nat) (_ : View) => True) index start := fun _ => trivial
  obtain ⟨values, count, rfl, same, each⟩ :=
    fan_out_ends settles (fun _ _ => trivial) (fun _ _ _ _ _ _ => trivial)
    (fun _ _ _ _ _ _ => trivial) operates rfl begins ends
  refine ⟨?_, same⟩
  have found : values = keys.map start.live := by
    apply List.ext_getElem
    · simpa using count
    · intro index inside listed
      rw [List.getElem_map]
      exact each index _ (List.getElem?_eq_getElem inside) _
        (List.getElem?_eq_getElem (by simpa using listed))
  rw [found]

theorem read_in_order (keys : List Bytes) (contents : Contents) :
    oneByOne readOne keys contents = (keys.map fun key => (contents key).map Prod.fst, contents) := by
  induction keys with
  | nil => rfl
  | cons key rest ih => simp only [oneByOne, readOne, ih, List.map_cons]

/-! Writing pairs. -/

theorem latest_keys (pairs : List (Bytes × Bytes)) (key : Bytes) :
    key ∈ (Strings.latest pairs).map Prod.fst ↔ key ∈ pairs.map Prod.fst := by
  induction pairs with
  | nil => rfl
  | cons pair rest ih =>
      rw [Strings.latest]
      split
      · rename_i again
        obtain ⟨later, member, same⟩ := List.any_eq_true.mp again
        have repeated : pair.1 ∈ rest.map Prod.fst :=
          List.mem_map.mpr ⟨later, member, of_decide_eq_true same⟩
        rw [ih, List.map_cons, List.mem_cons]
        exact ⟨.inr, fun named => named.elim (fun same => same ▸ repeated) id⟩
      · rw [List.map_cons, List.map_cons, List.mem_cons, List.mem_cons, ih]

/-- No two of the writes are to one key. -/
theorem latest_distinct (pairs : List (Bytes × Bytes)) : ((Strings.latest pairs).map Prod.fst).Nodup := by
  induction pairs with
  | nil => exact List.nodup_nil
  | cons pair rest ih =>
      rw [Strings.latest]
      split
      · exact ih
      · rename_i fresh
        rw [List.map_cons, List.nodup_cons]
        refine ⟨fun repeated => fresh ?_, ih⟩
        obtain ⟨later, member, same⟩ := List.mem_map.mp ((latest_keys rest pair.1).mp repeated)
        exact List.any_eq_true.mpr ⟨later, member, decide_eq_true same⟩

theorem set_in_order (pairs : List (Bytes × Bytes)) (contents : Contents) :
    (∀ pair ∈ Strings.latest pairs, (oneByOne setOne pairs contents).2 pair.1 = some (pair.2, none)) ∧
      ∀ key, key ∉ (Strings.latest pairs).map Prod.fst → (oneByOne setOne pairs contents).2 key =
        contents key := by
  induction pairs generalizing contents with
  | nil => exact ⟨fun _ member => absurd member List.not_mem_nil, fun _ _ => rfl⟩
  | cons pair rest ih =>
      obtain ⟨written, kept⟩ := ih (setOne pair contents).2
      rw [Strings.latest]
      split
      -- A later pair of the same key overwrites this one.
      · rename_i again
        refine ⟨written, fun key absent => (kept key absent).trans ?_⟩
        have other : key ≠ pair.1 := by
          rintro rfl
          obtain ⟨later, member, same⟩ := List.any_eq_true.mp again
          exact absent ((latest_keys rest pair.1).mpr
            (List.mem_map.mpr ⟨later, member, of_decide_eq_true same⟩))
        exact Function.update_of_ne other _ _
      · rename_i fresh
        -- No later pair has this key, so its value stays.
        have last : pair.1 ∉ (Strings.latest rest).map Prod.fst := by
          intro repeated
          obtain ⟨later, member, same⟩ := List.mem_map.mp ((latest_keys rest pair.1).mp repeated)
          exact fresh (List.any_eq_true.mpr ⟨later, member, decide_eq_true same⟩)
        constructor
        · intro found member
          rcases List.mem_cons.mp member with rfl | member
          · exact (kept found.1 last).trans (Function.update_self ..)
          · exact written found member
        · intro key absent
          rw [List.map_cons, List.mem_cons, not_or] at absent
          exact (kept key absent.2).trans (Function.update_of_ne absent.1 _ _)

section Pairs

variable (pairs : List (Bytes × Bytes)) (start : View)

def OnlyWrites (view : View) : Prop := ∀ key, key ∉ pairs.map Prod.fst → view.live key = start.live key

/-- The others leave the task's key alone. -/
def OwnKey (index : Nat) (view later : View) : Prop :=
  ∀ pair, pairs[index]? = some pair → later.live pair.1 = view.live pair.1

/-- The task leaves every other key alone. -/
def OtherKeys (index : Nat) (view later : View) : Prop :=
  ∀ key, (∀ pair, pairs[index]? = some pair → key ≠ pair.1) → later.live key = view.live key

def Written (index : Nat) (view : View) : Prop :=
  ∀ pair, pairs[index]? = some pair → ∃ version, view.live pair.1 = some ⟨pair.2, none, version⟩

variable {pairs start}

theorem written_lasts (index : Nat) : Stable (OnlyWrites pairs start) (OwnKey pairs index)
    (Written pairs index) := by
  intro view later same _ written pair listed
  obtain ⟨version, found⟩ := written pair listed
  exact ⟨version, (same pair listed).trans found⟩

theorem put_asked {index : Nat} {pair : Bytes × Bytes} (listed : pairs[index]? = some pair) :
    Operates index (OnlyWrites pairs start) (OwnKey pairs index) (OtherKeys pairs index) (fun _ => True)
      (ask (.putWithExpiry pair.1 pair.2 .clear))
      fun answer view => (∃ output, answer = .ok output) ∧ Written pairs index view := by
  refine attempts_lift (fun _ _ _ _ known => known) ?_ ?_
  · rintro answer view later passed holds ⟨ended, written⟩
    exact ⟨ended, written_lasts index view later passed holds written⟩
  · intro view holds _ answer after acted
    obtain ⟨ended, version, rfl⟩ := acted rfl
    refine ⟨fun key absent => ?_, fun key other => ?_, ended, fun found same => ?_⟩
    · have other : key ≠ pair.1 :=
        fun same => absent (same ▸ List.mem_map_of_mem (List.mem_of_getElem? listed))
      exact (Function.update_of_ne other _ _).trans (holds key absent)
    · exact Function.update_of_ne (other pair listed) _ _
    · obtain rfl := Option.some.inj (listed.symm.trans same)
      exact ⟨version, Function.update_self ..⟩

theorem put_operates {index : Nat} {pair : Bytes × Bytes} (listed : pairs[index]? = some pair) :
    Operates index (OnlyWrites pairs start) (OwnKey pairs index) (OtherKeys pairs index) (fun _ => True)
      (KeyEffect.put pair.1 pair.2 .clear).cluster fun _ => Written pairs index := by
  have reflexive : ∀ view, OwnKey pairs index view view := fun _ _ _ => rfl
  have still : ∀ view, OtherKeys pairs index view view := fun _ _ _ => rfl
  have free : Stable (OnlyWrites pairs start) (OwnKey pairs index) fun _ => True :=
    fun _ _ _ _ known => known
  have put : Operates index (OnlyWrites pairs start) (OwnKey pairs index) (OtherKeys pairs index)
      (fun _ => True)
      (askOrFail (.putWithExpiry pair.1 pair.2 .clear)) fun _ => Written pairs index := by
    refine attempts_bind reflexive never_stable (put_asked listed) ?_
    rintro (error | output)
    · exact fun _ _ known => absurd known.1.choose_spec (by simp)
    · refine attempts_pure ?_ fun _ _ known => known.2
      rintro view later passed holds ⟨ended, written⟩
      exact ⟨ended, written_lasts index view later passed holds written⟩
  refine attempts_bind reflexive never_stable (operates_client reflexive still free) fun _ => ?_
  refine attempts_bind reflexive never_stable put fun _ => ?_
  exact attempts_pure (written_lasts index) fun _ _ known => known

theorem write_values (distinct : (pairs.map Prod.fst).Nodup) {last : View}
    {result : Except RedisError Reply}
    (ends : ((fanOut (pairs.map fun pair => .put pair.1 pair.2 .clear) partialWriteOutcome fun _ =>
      .status).run.interpret
      fun effect => effect.cluster).Ends View.LabelledActs View.Same start result last) :
    result = .ok .status ∧ OnlyWrites pairs start last ∧
      ∀ pair ∈ pairs, ∃ version, last.live pair.1 = some ⟨pair.2, none, version⟩ := by
  have transitive : ∀ index first second third, OwnKey pairs index first second →
      OwnKey pairs index second third →
      OwnKey pairs index first third :=
    fun _ _ _ _ early late pair listed => (late pair listed).trans (early pair listed)
  have siblings : ∀ index other view later, index ≠ other → OtherKeys pairs index view later →
      OwnKey pairs other view later := by
    intro index other view later apart kept pair listed
    -- Two tasks with one key would be two entries of a list without repetitions.
    refine kept pair.1 fun own found same => apart ?_
    have here : (pairs.map Prod.fst)[index]? = some pair.1 := by rw [List.getElem?_map, found, same]; rfl
    have there : (pairs.map Prod.fst)[other]? = some pair.1 := by rw [List.getElem?_map, listed]; rfl
    exact (List.getElem?_inj (List.getElem?_eq_some_iff.mp here).1 distinct).mp (here.trans there.symm)
  have operates : ∀ index (effect : KeyEffect (Except RedisError Unit)),
      (pairs.map fun pair => KeyEffect.put pair.1 pair.2 .clear)[index]? = some effect →
      Operates index (OnlyWrites pairs start) (OwnKey pairs index) (OtherKeys pairs index)
        (fun _ => True) effect.cluster
        fun _ => Written pairs index := by
    intro index effect found
    rw [List.getElem?_map, Option.map_eq_some_iff] at found
    obtain ⟨pair, listed, rfl⟩ := found
    exact put_operates listed
  have begins : ∀ index : Nat, (fun (_ : Nat) (_ : View) => True) index start := fun _ => trivial
  obtain ⟨values, count, same, holds, each⟩ :=
    fan_out_ends settled_writes (fun _ _ _ _ => rfl) transitive siblings operates
    (fun _ _ => rfl) begins ends
  refine ⟨same, holds, fun pair member => ?_⟩
  obtain ⟨index, inside, listed⟩ := List.mem_iff_getElem.mp member
  have ran : index < values.length := by simpa [count] using inside
  exact each index _ (List.getElem?_eq_getElem ran) pair (listed ▸ List.getElem?_eq_getElem inside)

end Pairs

/-! Removing keys. -/

section Removals

variable (keys : List Bytes) (start : View)

def Accounted (view : View) : Prop := ∀ key, (view.remover key = none ∧ view.live key = start.live key) ∨
  ∃ index, view.remover key = some index ∧ keys[index]? = some key ∧ (start.live key).isSome ∧
    view.live key = none

/-- The others remove keys and take nothing back; what a task removed is known. -/
structure Dwindles (index : Nat) (view later : View) : Prop where
  credited : ∀ key other, view.remover key = some other → later.remover key = some other
  gone : ∀ key, view.live key = none → later.live key = none
  own : ∀ key, later.remover key = some index → view.remover key = some index

def RemovesOwn (index : Nat) (view later : View) : Prop :=
  later = view ∨ ∃ key, keys[index]? = some key ∧ view.remover key = none ∧ later = view.removed key index

abbrev Uncredited (index : Nat) (key : Bytes) (view : View) : Prop := view.remover key ≠ some index

/-- A part of the task, among its siblings. -/
abbrev Removes {α : Type} (index : Nat) (pre : View → Prop) (task : StoreTask α)
    (post : α → View → Prop) : Prop :=
  Operates index (Accounted keys start) (Dwindles index) (RemovesOwn keys index) pre task post

def Counted (index : Nat) (key : Bytes) (count : Nat) (view : View) : Prop :=
  (count = 1 ∧ view.remover key = some index) ∨
    (count = 0 ∧ view.remover key ≠ some index ∧ view.live key = none)

variable {keys start}

theorem dwindles_refl (index : Nat) (view : View) : Dwindles index view view :=
  ⟨fun _ _ => id, fun _ => id, fun _ => id⟩

theorem dwindles_sibling {index other : Nat} {view later : View} (apart : index ≠ other)
    (removes : RemovesOwn keys index view later) : Dwindles other view later := by
  rcases removes with rfl | ⟨key, -, fresh, rfl⟩
  · exact dwindles_refl other later
  · refine ⟨fun found remover credited => ?_, fun found gone => ?_, fun found credited => ?_⟩
    · have distinct : found ≠ key := by
        rintro rfl
        exact absurd (fresh.symm.trans credited) (by simp)
      rwa [View.removed_remover, if_neg distinct]
    · rw [View.removed_live]
      split
      · rfl
      · exact gone
    · rw [View.removed_remover] at credited
      split at credited
      · exact absurd (Option.some.inj credited) apart
      · exact credited

theorem uncredited_lasts (index : Nat) (key : Bytes) :
    Stable (Accounted keys start) (Dwindles index) (Uncredited index key) :=
  fun _ _ dwindles _ uncredited credited => uncredited (dwindles.own key credited)

theorem counted_lasts (index : Nat) (key : Bytes) (count : Nat) :
    Stable (Accounted keys start) (Dwindles index) (Counted index key count) := by
  rintro view later dwindles - (⟨rfl, credited⟩ | ⟨rfl, uncredited, gone⟩)
  · exact .inl ⟨rfl, dwindles.credited key index credited⟩
  · exact .inr ⟨rfl, fun credited => uncredited (dwindles.own key credited), dwindles.gone key gone⟩

theorem delete_asked {index : Nat} {key : Bytes} (listed : keys[index]? = some key) (current : Current) :
    Removes keys start index (Uncredited index key)
      (ask (.deleteIf key (expectedFor (some current)))) fun answer view =>
        (∃ output, answer = .ok (some output) ∧ view.remover key = some index) ∨
          (answer = .ok none ∧ view.remover key ≠ some index) := by
  refine attempts_lift (uncredited_lasts index key) ?_ ?_
  · rintro answer view later dwindles - (⟨output, same, credited⟩ | ⟨same, uncredited⟩)
    · exact .inl ⟨output, same, dwindles.credited key index credited⟩
    · exact .inr ⟨same, fun credited => uncredited (dwindles.own key credited)⟩
  · rintro view holds uncredited answer after (⟨output, same, ⟨record, found, -⟩, rfl⟩ | ⟨same, rfl⟩)
    · -- The record was there, so no task had removed it, and it is the one from the start.
      have shown : view.remover key = none ∧ view.live key = start.live key := by
        rcases holds key with kept | ⟨other, -, -, -, gone⟩
        · exact kept
        · exact absurd (found.symm.trans gone) (by simp)
      refine ⟨fun other => ?_, .inr ⟨key, listed, shown.1, rfl⟩,
        .inl ⟨output, same, Function.update_self ..⟩⟩
      by_cases own : other = key
      · subst own
        refine .inr ⟨index, Function.update_self .., listed, ?_, Function.update_self ..⟩
        rw [← shown.2, found]
        rfl
      · rw [View.removed_remover, View.removed_live, if_neg own, if_neg own]
        exact holds other
    · exact ⟨holds, .inl rfl, .inr ⟨same, uncredited⟩⟩

theorem delete_or_fail {index : Nat} {key : Bytes} (listed : keys[index]? = some key)
    (current : Current) :
    Removes keys start index (Uncredited index key)
      (askOrFail (.deleteIf key (expectedFor (some current)))) fun applied view =>
        if applied.isSome then Counted index key 1 view else view.remover key ≠ some index := by
  refine attempts_bind (dwindles_refl index) never_stable (delete_asked listed current) ?_
  rintro (error | applied)
  · rintro view - (⟨_, same, -⟩ | ⟨same, -⟩)
    · exact absurd same (by simp)
    · exact absurd same (by simp)
  · refine attempts_pure ?_ ?_
    · rintro view later dwindles - (⟨output, same, credited⟩ | ⟨same, uncredited⟩)
      · exact .inl ⟨output, same, dwindles.credited key index credited⟩
      · exact .inr ⟨same, fun credited => uncredited (dwindles.own key credited)⟩
    · rintro view - (⟨output, same, credited⟩ | ⟨same, uncredited⟩)
      · rw [Except.ok.inj same]
        exact .inl ⟨rfl, credited⟩
      · rw [Except.ok.inj same]
        exact uncredited

theorem delete_round {index : Nat} {key : Bytes} (listed : keys[index]? = some key) :
    Removes keys start index (Uncredited index key)
      (updateRound key deleteOne ()) (Sum.elim (fun _ => Uncredited index key) (Counted index key)) := by
  have still : ∀ view, RemovesOwn keys index view view := fun _ => .inl rfl
  let found : Option Current → View → Prop := fun current view =>
    view.remover key ≠ some index ∧ (current = none → view.live key = none)
  have lasting : ∀ current, Stable (Accounted keys start) (Dwindles index) (found current) := by
    rintro current view later dwindles holds ⟨uncredited, gone⟩
    exact ⟨uncredited_lasts index key view later dwindles holds uncredited, fun absent =>
      dwindles.gone key (gone absent)⟩
  have read : Removes keys start index
      (Uncredited index key) (readWith key) found :=
    operates_read (dwindles_refl index) still (uncredited_lasts index key) lasting
      fun view _ uncredited => ⟨uncredited, id⟩
  refine attempts_bind (dwindles_refl index) never_stable read fun current => ?_
  have timed : Removes keys start index (found current) (ask .now) fun _ => found current :=
    operates_silent still (lasting current) fun _ _ _ => id
  refine attempts_bind (dwindles_refl index) never_stable timed fun now => ?_
  -- A key that was not there stays away; a key that was there is deleted unless
  -- a sibling was faster, and the next turn finds it gone.
  cases current with
  | none =>
      refine attempts_pure (lasting none) ?_
      rintro view - ⟨uncredited, gone⟩
      exact .inr ⟨rfl, uncredited, gone rfl⟩
  | some current =>
      have tried : Removes keys start index (found (some current))
          (askOrFail (.deleteIf key (expectedFor (some current)))) fun applied view =>
            if applied.isSome then Counted index key 1 view else view.remover key ≠ some index :=
        attempts_weaken (delete_or_fail listed current) (fun _ _ known => known.1) (fun _ _ _ => id)
          fun _ _ => id
      refine attempts_bind (dwindles_refl index) never_stable tried fun applied => ?_
      cases applied with
      | none => exact attempts_pure (uncredited_lasts index key) fun _ _ uncredited => uncredited
      | some output => exact attempts_pure (counted_lasts index key 1) fun _ _ counted => counted

theorem delete_operates {index : Nat} {key : Bytes} (listed : keys[index]? = some key) :
    Removes keys start index (Uncredited index key)
      (KeyEffect.update key deleteOne).cluster (Counted index key) := by
  have still : ∀ view, RemovesOwn keys index view view := fun _ => .inl rfl
  have rounds : Removes keys start index
      (Uncredited index key) (tryLoop (updateRound key deleteOne) ()) (Counted index key) := by
    have going : ∀ _ : Unit, Stable (Accounted keys start) (Dwindles index) (Uncredited index key) :=
      fun _ => uncredited_lasts index key
    exact attempts_loop (dwindles_refl index) going (counted_lasts index key) never_stable fun _ =>
      delete_round listed
  refine operates_under_lock (dwindles_refl index) still (uncredited_lasts index key)
    (counted_lasts index key) ?_
  have connected : Removes keys start index (Uncredited index key) sharedClient fun _ =>
      Uncredited index key :=
    operates_client (dwindles_refl index) still (uncredited_lasts index key)
  exact attempts_bind (dwindles_refl index) never_stable connected fun _ => rounds

/-- The keys a command names that are there, each once. -/
def presentKeys (keys : List Bytes) (present : Bytes → Bool) : Finset Bytes :=
  keys.toFinset.filter fun key => present key

theorem sum_of_indicators {ι : Type} (chosen : ι → Bool) (items : List ι) :
    (items.map fun item => if chosen item then 1 else 0).sum = (items.filter chosen).length := by
  induction items with
  | nil => rfl
  | cons item rest ih =>
      rw [List.map_cons, List.sum_cons, ih, List.filter_cons]
      split
      · rw [List.length_cons, Nat.add_comm]
      · exact Nat.zero_add _

theorem credits_counted {values : List Nat} {remover : Bytes → Option Nat} {present : Bytes → Bool}
    (count : values.length = keys.length)
    (each : ∀ index value key, values[index]? = some value → keys[index]? = some key →
      value = if remover key = some index then 1 else 0)
    (credited : ∀ key index, remover key = some index → keys[index]? = some key ∧ present key = true)
    (all : ∀ key ∈ keys, present key = true → ∃ index, remover key = some index) :
    values.sum = (presentKeys keys present).card := by
  let chosen : Bytes × Nat → Bool := fun entry => remover entry.1 = some entry.2
  have indicators : values = keys.zipIdx.map fun entry => if chosen entry then 1 else 0 := by
    apply List.ext_getElem
    · simpa using count
    · intro index inside listed
      have bound : index < keys.length := count ▸ inside
      have named : keys[index]? = some keys[index] := List.getElem?_eq_getElem bound
      simpa [chosen] using each index _ _ (List.getElem?_eq_getElem inside) named
  -- A key names one remover, so no two chosen tasks have the same key.
  have distinct : ((keys.zipIdx.filter chosen).map Prod.fst).Nodup := by
    have entries : keys.zipIdx.Nodup := by
      refine List.Nodup.of_map Prod.snd ?_
      rw [List.zipIdx_map_snd]
      exact List.nodup_range'
    refine List.Nodup.map_on ?_ (entries.filter chosen)
    rintro ⟨key, first⟩ one ⟨other, second⟩ two rfl
    have here : remover key = some first := by simpa [chosen] using (List.mem_filter.mp one).2
    have there : remover key = some second := by simpa [chosen] using (List.mem_filter.mp two).2
    rw [Option.some.inj (here.symm.trans there)]
  have same : ((keys.zipIdx.filter chosen).map Prod.fst).toFinset = presentKeys keys present := by
    ext key
    rw [List.mem_toFinset, presentKeys, Finset.mem_filter, List.mem_toFinset]
    constructor
    · intro member
      obtain ⟨⟨found, index⟩, kept, rfl⟩ := List.mem_map.mp member
      have own : remover found = some index := by simpa [chosen] using (List.mem_filter.mp kept).2
      obtain ⟨listed, there⟩ := credited found index own
      exact ⟨List.mem_of_getElem? listed, there⟩
    · rintro ⟨member, there⟩
      obtain ⟨index, own⟩ := all key member there
      refine List.mem_map.mpr ⟨(key, index), List.mem_filter.mpr ⟨?_, by simpa [chosen] using own⟩, rfl⟩
      exact List.mem_zipIdx_iff_getElem?.mpr (credited key index own).1
  rw [indicators, sum_of_indicators, ← same, List.toFinset_card_of_nodup distinct, List.length_map]

theorem remove_in_order (keys : List Bytes) (contents : Contents) :
    (oneByOne removeOne keys contents).1.sum = (presentKeys keys fun key => (contents key).isSome).card ∧
      ∀ key, (oneByOne removeOne keys contents).2 key = if key ∈ keys then none else contents key := by
  induction keys generalizing contents with
  | nil => exact ⟨rfl, fun _ => rfl⟩
  | cons key rest ih =>
      obtain ⟨counted, left⟩ := ih (removeOne key contents).2
      have whole : oneByOne removeOne (key :: rest) contents =
          ((removeOne key contents).1 :: (oneByOne removeOne rest (removeOne key contents).2).1,
            (oneByOne removeOne rest (removeOne key contents).2).2) := rfl
      rw [whole]
      simp only [List.sum_cons, counted, left]
      by_cases there : (contents key).isSome = true
      · have step : removeOne key contents = (1, Function.update contents key none) := if_pos there
        simp only [step]
        constructor
        -- The key is counted here and is gone for the rest of the list.
        · have others : presentKeys (key :: rest) (fun key => (contents key).isSome) =
              insert key (presentKeys rest fun other =>
                  (Function.update contents key none other).isSome) := by
            ext other
            by_cases same : other = key
            · simp [presentKeys, same, there]
            · simp [presentKeys, same]
          have fresh : key ∉ presentKeys rest fun other =>
              (Function.update contents key none other).isSome := by
            simp [presentKeys]
          rw [others, Finset.card_insert_of_notMem fresh, Nat.add_comm]
        · intro other
          by_cases same : other = key
          · simp [same]
          · simp [same]
      · have step : removeOne key contents = (0, contents) := if_neg there
        simp only [step]
        constructor
        · have others : presentKeys (key :: rest) (fun key => (contents key).isSome) =
              presentKeys rest fun other => (contents other).isSome := by
            ext other
            by_cases same : other = key
            · simp [presentKeys, same, there]
            · simp [presentKeys, same]
          rw [others, Nat.zero_add]
        · intro other
          by_cases same : other = key
          · subst same
            have gone : contents other = none := by simpa using there
            simp [gone]
          · simp [same]

theorem remove_values (fresh : start.remover = fun _ => none) {last : View}
    {result : Except RedisError Reply}
    (ends : ((fanOut (keys.map fun key => .update key deleteOne) partialWriteOutcome
      fun removed => .integer removed.sum).run.interpret fun effect =>
        effect.cluster).Ends View.LabelledActs View.Same start
        result last) :
    result = .ok (.integer (presentKeys keys fun key => (start.live key).isSome).card) ∧
      ∀ key, last.live key = if key ∈ keys then none else start.live key := by
  have transitive : ∀ index first second third, Dwindles index first second →
      Dwindles index second third →
      Dwindles index first third := by
    intro index first second third early late
    exact ⟨fun key other credited => late.credited key other (early.credited key other credited),
      fun key gone => late.gone key (early.gone key gone), fun key credited =>
        early.own key (late.own key credited)⟩
  have operates : ∀ index (effect : KeyEffect (Except RedisError Nat)),
      (keys.map fun key => KeyEffect.update key deleteOne)[index]? = some effect →
      Removes keys start index
        (fun view => ∀ key, keys[index]? = some key → view.remover key ≠ some index) effect.cluster
        fun count view => ∀ key, keys[index]? = some key → Counted index key count view := by
    intro index effect found
    rw [List.getElem?_map, Option.map_eq_some_iff] at found
    obtain ⟨key, listed, rfl⟩ := found
    refine attempts_weaken (delete_operates listed) (fun _ _ known => known key listed) ?_ fun _ _ => id
    intro count view _ counted other same
    exact Option.some.inj (listed.symm.trans same) ▸ counted
  have begun : Accounted keys start start := fun key => .inl ⟨congrFun fresh key, rfl⟩
  have uncredited : ∀ index key, keys[index]? = some key → start.remover key ≠ some index := by
    intro index key _ credited
    exact absurd ((congrFun fresh key).symm.trans credited) (by simp)
  obtain ⟨values, count, rfl, holds, each⟩ := fan_out_ends settled_writes dwindles_refl transitive
    (fun _ _ _ _ apart => dwindles_sibling apart) operates begun uncredited ends
  rw [List.length_map] at count
  -- Every task ends with its key gone, whoever removed it.
  have gone : ∀ key ∈ keys, last.live key = none := by
    intro key member
    obtain ⟨index, inside, listed⟩ := List.mem_iff_getElem.mp member
    have ran : index < values.length := count ▸ inside
    rcases each index _ (List.getElem?_eq_getElem ran) key (listed ▸ List.getElem?_eq_getElem inside) with
      ⟨-, credited⟩ | ⟨-, -, absent⟩
    · rcases holds key with ⟨none_, -⟩ | ⟨_, -, -, -, absent⟩
      · exact absurd (none_.symm.trans credited) (by simp)
      · exact absent
    · exact absent
  constructor
  · have counted : values.sum = (presentKeys keys fun key => (start.live key).isSome).card := by
      apply credits_counted count
      · intro index value key found listed
        rcases each index value found key listed with ⟨rfl, credited⟩ | ⟨rfl, uncredited, -⟩
        · rw [if_pos credited]
        · rw [if_neg uncredited]
      · intro key index credited
        rcases holds key with ⟨none_, -⟩ | ⟨other, own, listed, there, -⟩
        · exact absurd (none_.symm.trans credited) (by simp)
        · obtain rfl := Option.some.inj (own.symm.trans credited)
          exact ⟨listed, there⟩
      · intro key member there
        rcases holds key with ⟨-, same⟩ | ⟨index, own, -⟩
        · rw [← same, gone key member] at there
          exact absurd there (by simp)
        · exact ⟨index, own⟩
    rw [counted]
  · intro key
    by_cases member : key ∈ keys
    · rw [if_pos member, gone key member]
    · rw [if_neg member]
      rcases holds key with ⟨-, same⟩ | ⟨index, -, listed, -⟩
      · exact same
      · exact absurd (List.mem_of_getElem? listed) member

end Removals

end Hashring
