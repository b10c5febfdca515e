import Hashring.RenameCopy
import Hashring.TaskRuns

/-! Commands that name several keys (`each` and `each_write`,
crates/hashring-redis/src/commands/store.rs): one operation for each key, all of
them side by side, against the arguments taken one after another. The limit on how
many run at once only takes interleavings away. -/
namespace Hashring

open Program

inductive FanOut where
  | mset
  | del
  | unlink
  | mget
  | exists_
  | touch
  deriving DecidableEq

def FanOut.handler : FanOut → Args → Handler Reply
  | mset => Strings.mset
  | del | unlink => delete
  | mget => Strings.mget
  | exists_ | touch => Hashring.exists_

/-! The arguments one after another. -/

/-- The value and the deadline of every key. -/
abbrev Contents := Bytes → Option (Bytes × Option Nat)

def oneByOne {ι ρ : Type} (step : ι → Contents → ρ × Contents) : List ι → Contents → List ρ × Contents
  | [], contents => ([], contents)
  | item :: rest, contents =>
      let (reply, next) := step item contents
      let (replies, last) := oneByOne step rest next
      (reply :: replies, last)

def setOne (pair : Bytes × Bytes) (contents : Contents) : Unit × Contents :=
  ((), Function.update contents pair.1 (some (pair.2, none)))

def removeOne (key : Bytes) (contents : Contents) : Nat × Contents :=
  if (contents key).isSome then (1, Function.update contents key none) else (0, contents)

def readOne (key : Bytes) (contents : Contents) : Option Bytes × Contents :=
  ((contents key).map Prod.fst, contents)

/-- The command as if each argument were processed before the next is looked at. -/
def FanOut.inOrder (command : FanOut) (args : Args) (contents : Contents) :
    Except RedisError Reply × Contents :=
  match command with
  | mset =>
      match Strings.chunks args.rest with
      | none => (.error (.wrongArity args.name), contents)
      | some pairs => (.ok .status, (oneByOne setOne pairs contents).2)
  | del | unlink =>
      let (removed, last) := oneByOne removeOne args.rest contents
      (.ok (.integer removed.sum), last)
  | mget =>
      let (values, last) := oneByOne readOne args.rest contents
      (.ok (.array (values.map bulkOrNil)), last)
  | exists_ | touch =>
      let (values, last) := oneByOne readOne args.rest contents
      (.ok (.integer (values.filter Option.isSome).length), last)

/-! The same command at the gateway. -/

/-- What the gateway's calls meet: the records at their owners and the stripes that
are locked. -/
structure KeyShelf where
  world : World
  locked : List Nat

namespace KeyShelf

def shows (shelf : KeyShelf) : Contents :=
  fun key => (shelf.world.live key).map fun record => (record.value, record.deadline)

/-- What a read of a key in this state is answered. -/
def Reads : Option Current → Except ClientError GetOutput → Prop
  | some record, answer => ∃ topologyEpoch, answer = .ok
      { value := record.value, version := record.version, topologyEpoch, expiresAtUnixMillis := record.deadline }
  | none, answer => ∃ failure, answer = .error (.operation failure) ∧ failure.code = .notFound

/-- The owner makes a write whose condition holds, and says so. -/
def Decides {α : Type} (shelf : KeyShelf) (key : Bytes) (expected : Expect) (asked : AskedWrite)
    (answer : Except ClientError (Option α)) (after : KeyShelf) : Prop :=
  (∃ output made, answer = .ok (some output) ∧ shelf.world.Makes asked made ∧
    after = { shelf with world := made }) ∨
    (answer = .ok none ∧ ¬shelf.world.Meets key expected ∧ after = shelf)

def Answers (shelf : KeyShelf) : {γ : Type} → ClientCall γ → γ → KeyShelf → Prop
  | _, .now, answer, after => answer = shelf.world.now ∧ after = shelf
  | _, .connect, answer, after => answer = .ok () ∧ after = shelf
  | _, .lock stripe, _, after => stripe ∉ shelf.locked ∧
      after = { shelf with locked := stripe :: shelf.locked }
  | _, .unlock stripe, _, after => after = { shelf with locked := shelf.locked.erase stripe }
  | _, .get key, answer, after => Reads (shelf.world.live key) answer ∧ after = shelf
  | _, .putWithExpiry key value expiry, answer, after => ∃ output made, answer = .ok output ∧
      shelf.world.Makes (.put key value expiry none) made ∧ after = { shelf with world := made }
  | _, .putIf key value expiry expected, answer, after =>
      shelf.Decides key expected (.put key value expiry (some expected)) answer after
  | _, .setExpiryIf key deadline expected, answer, after =>
      shelf.Decides key expected (.expire key deadline expected) answer after
  | _, .deleteIf key expected, answer, after => shelf.Decides key expected (.delete key expected)
      answer after

def LabelledAnswers {γ : Type} : Labelled ClientCall γ → KeyShelf → γ → KeyShelf → Prop
  | .mk _ call, shelf, answer, after => shelf.Answers call answer after

/-- Between two calls of the command nobody else changes what a key shows, and no
deadline passes that would. -/
def Undisturbed (shelf later : KeyShelf) : Prop :=
  later.locked = shelf.locked ∧ ∀ key, later.world.live key = shelf.world.live key

end KeyShelf

/-- The command can end with this result in this state; its calls may be made in any
order that each key's own operation allows. -/
def FanOut.Runs (command : FanOut) (args : Args) (start : KeyShelf) (result : Except RedisError Reply)
    (last : KeyShelf) : Prop :=
  ((command.handler args).run.interpret fun effect => effect.cluster).Ends KeyShelf.LabelledAnswers
    KeyShelf.Undisturbed
    start result last

/-! What the operations see of it, with the task that removed a key. -/

structure View where
  live : Bytes → Option Current
  remover : Bytes → Option Nat

namespace View

def meets (view : View) (key : Bytes) : Expect → Prop
  | .absent => view.live key = none
  | .version version => ∃ record, view.live key = some record ∧ record.version = version

def removed (view : View) (key : Bytes) (label : Nat) : View :=
  { live := Function.update view.live key none, remover := Function.update view.remover key (some label) }

theorem removed_live (view : View) (key other : Bytes) (label : Nat) :
    (view.removed key label).live other = if other = key then none else view.live other :=
  Function.update_apply ..

theorem removed_remover (view : View) (key other : Bytes) (label : Nat) :
    (view.removed key label).remover other = if other = key then some label else view.remover other :=
  Function.update_apply ..

/-- The calls these commands make. -/
def Acts (label : Nat) : {γ : Type} → ClientCall γ → View → γ → View → Prop
  | _, .now, view, _, after | _, .lock _, view, _, after | _, .unlock _, view, _, after => after = view
  | _, .connect, view, answer, after => answer = .ok () ∧ after = view
  | _, .get key, view, answer, after => KeyShelf.Reads (view.live key) answer ∧ after = view
  | _, .putWithExpiry key value expiry, view, answer, after => expiry = .clear →
      (∃ output, answer = .ok output) ∧
      ∃ version, after = { view with live := Function.update view.live key (some ⟨value, none, version⟩) }
  | _, .deleteIf key expected, view, answer, after =>
      (∃ output, answer = .ok (some output) ∧ view.meets key expected ∧ after = view.removed key label) ∨
        (answer = .ok none ∧ after = view)
  | _, .putIf _ _ _ _, _, _, _ | _, .setExpiryIf _ _ _, _, _, _ => True

def LabelledActs {γ : Type} : Labelled ClientCall γ → View → γ → View → Prop
  | .mk label call, view, answer, after => Acts label call view answer after

/-- Nobody but the command's own operations moves. -/
def Same (view later : View) : Prop := later = view

def Of (shelf : KeyShelf) (view : View) : Prop := view.live = shelf.world.live

end View

namespace World

theorem live_store (world : World) (key : Bytes) (record : Option Current) :
    (world.store key record).live =
      Function.update world.live key
        (record.filter fun record => record.deadline.all (world.now < ·)) := by
  funext other
  by_cases same : other = key
  · subst same
    simp only [live, store, if_true, Function.update_self]
    rfl
  · simp only [live, store, same, if_false, Function.update_of_ne, ne_eq, not_false_eq_true]
    rfl

end World

theorem view_follows {γ : Type} (call : ClientCall γ) (label : Nat) {shelf after : KeyShelf}
    {view : View} {answer : γ} (related : View.Of shelf view)
    (answered : shelf.Answers call answer after) :
    ∃ next, View.Acts label call view answer next ∧ View.Of after next := by
  cases call with
  | now =>
      obtain ⟨-, rfl⟩ := answered
      exact ⟨view, rfl, related⟩
  | connect =>
      obtain ⟨same, rfl⟩ := answered
      exact ⟨view, ⟨same, rfl⟩, related⟩
  | lock stripe =>
      obtain ⟨-, rfl⟩ := answered
      exact ⟨view, rfl, related⟩
  | unlock stripe =>
      obtain rfl := answered
      exact ⟨view, rfl, related⟩
  | get key =>
      obtain ⟨read, rfl⟩ := answered
      refine ⟨view, ⟨?_, rfl⟩, related⟩
      rw [show view.live key = after.world.live key from congrFun related key]
      exact read
  | putWithExpiry key value expiry =>
      -- Without a deadline the new record is shown whatever the clock says.
      obtain ⟨output, made, same, ⟨-, version, rfl⟩, rfl⟩ := answered
      refine ⟨⟨(shelf.world.store key _).live, view.remover⟩, fun clear =>
        ⟨⟨output, same⟩, version, ?_⟩, rfl⟩
      rw [World.live_store, show view.live = shelf.world.live from related]
      subst clear
      rfl
  | putIf key value expiry expected => exact ⟨⟨after.world.live, view.remover⟩, trivial, rfl⟩
  | setExpiryIf key deadline expected => exact ⟨⟨after.world.live, view.remover⟩, trivial, rfl⟩
  | deleteIf key expected =>
      rcases answered with ⟨output, made, same, ⟨condition, rfl⟩, rfl⟩ | ⟨same, -, rfl⟩
      -- The view also notes whose delete was applied.
      · refine ⟨view.removed key label, .inl ⟨output, same, ?_, rfl⟩, ?_⟩
        · rw [World.Meets.eq_def] at condition
          rw [View.meets.eq_def, show view.live = shelf.world.live from related]
          exact condition
        · rw [View.Of, World.live_store, View.removed, show view.live = shelf.world.live from related]
          rfl
      · exact ⟨view, .inr ⟨same, rfl⟩, related⟩

theorem runs_view {program : Program (Labelled ClientCall) (Except RedisError Reply)}
    {start last : KeyShelf} {result : Except RedisError Reply}
    (ends : program.Ends KeyShelf.LabelledAnswers KeyShelf.Undisturbed start result last) :
    ∃ final : View, program.Ends View.LabelledActs View.Same
      ⟨start.world.live, fun _ => none⟩ result final ∧ final.live = last.world.live := by
  refine ends_simulated View.Of ?_ ?_ rfl ends
  · rintro γ ⟨label, call⟩ state shadow answer after related answered
    exact view_follows call label related answered
  · rintro state shadow later related ⟨-, same⟩
    refine ⟨shadow, rfl, ?_⟩
    rw [View.Of, show shadow.live = state.world.live from related]
    funext key
    exact (same key).symm

/-! One key's operation among the others. -/
section Operations

variable {α : Type} {label : Nat} {inv : View → Prop} {rely keeps : View → View → Prop}
  {pre : View → Prop}

/-- The operation does not fail, and leads from `pre` to `post`. -/
abbrev Operates (label : Nat) (inv : View → Prop) (rely keeps : View → View → Prop)
    (pre : View → Prop) (task : StoreTask α)
    (post : α → View → Prop) : Prop :=
  Attempts (fun call => View.Acts label call) inv rely keeps pre task post fun _ => False

theorem never_stable : Stable inv rely fun _ : View => False := fun _ _ _ _ => id

variable (reflexive : ∀ view, rely view view) (still : ∀ view, keeps view view)

include still in
theorem operates_silent {call : ClientCall α} (stable : Stable inv rely pre)
    (silent : ∀ view answer after, View.Acts label call view answer after → after = view) :
    Operates label inv rely keeps pre (ask call) fun _ => pre := by
  refine attempts_lift stable (fun _ => stable) ?_
  intro view holds known answer after acted
  obtain rfl := silent view answer after acted
  exact ⟨holds, still _, known⟩

include reflexive still in
theorem operates_client (stable : Stable inv rely pre) :
    Operates label inv rely keeps pre sharedClient fun _ => pre := by
  have asked : Operates label inv rely keeps pre (ask .connect) fun answer view => pre view ∧
      answer = .ok () := by
    refine attempts_lift stable ?_ ?_
    · intro answer view later passed holds known
      exact ⟨stable view later passed holds known.1, known.2⟩
    · rintro view holds known answer after ⟨rfl, rfl⟩
      exact ⟨holds, still _, known, rfl⟩
  refine attempts_bind reflexive never_stable asked ?_
  rintro (error | _)
  · exact fun _ _ known => absurd known.2 (by simp)
  · refine attempts_pure ?_ fun _ _ known => known.1
    intro view later passed holds known
    exact ⟨stable view later passed holds known.1, rfl⟩

include reflexive still in
theorem operates_read {key : Bytes} {found : Option Current → View → Prop} (stable : Stable inv rely pre)
    (lasting : ∀ current, Stable inv rely (found current))
    (reads : ∀ view, inv view → pre view → found (view.live key) view) :
    Operates label inv rely keeps pre (readWith key) found := by
  have asked : Operates label inv rely keeps pre (ask (.get key)) fun answer view =>
      ∃ current, KeyShelf.Reads current answer ∧ found current view := by
    refine attempts_lift stable ?_ ?_
    · rintro answer view later passed holds ⟨current, read, known⟩
      exact ⟨current, read, lasting current view later passed holds known⟩
    · rintro view holds known answer after ⟨read, rfl⟩
      exact ⟨holds, still _, after.live key, read, reads after holds known⟩
  refine attempts_bind reflexive never_stable asked fun answer => ?_
  -- Every answer that is not a failure names one state of the key.
  have kept : ∀ (expected : Option Current),
      (∀ current, KeyShelf.Reads current answer → current = expected) →
      Operates label inv rely keeps (fun view => ∃ current, KeyShelf.Reads current answer ∧
        found current view)
        (pure expected) found := by
    intro expected same
    refine attempts_pure ?_ ?_
    · rintro view later passed holds ⟨current, read, known⟩
      exact ⟨current, read, lasting current view later passed holds known⟩
    · rintro view - ⟨current, read, known⟩
      exact same current read ▸ known
  cases answer with
  | ok output =>
      apply kept
      rintro (_ | current) read
      · exact absurd read.choose_spec.1 (by simp)
      · obtain ⟨epoch, same⟩ := read
        rw [Except.ok.inj same]
  | error error =>
      cases error with
      | operation failure =>
          simp only
          split
          · apply kept
            rintro (_ | current) read
            · rfl
            · exact absurd read.choose_spec (by simp)
          · rename_i other
            rintro view - ⟨_ | current, read, -⟩
            · obtain ⟨told, same, missing⟩ := read
              obtain rfl := ClientError.operation.inj (Except.error.inj same)
              exact absurd missing other
            · exact absurd read.choose_spec (by simp)
      | _ =>
          rintro view - ⟨_ | current, read, -⟩
          · exact absurd read.choose_spec.1 (by simp)
          · exact absurd read.choose_spec (by simp)

include reflexive still in
theorem operates_under_lock {key : Bytes} {body : StoreTask α} {post : α → View → Prop}
    (stable : Stable inv rely pre) (lasting : ∀ value, Stable inv rely (post value))
    (operates : Operates label inv rely keeps pre body post) :
    Operates label inv rely keeps pre (underKeyLock key body) post := by
  let ended : Except RedisError α → View → Prop := fun result view => ∃ value, result = .ok value ∧
      post value view
  have lasts : ∀ result, Stable inv rely (ended result) := by
    rintro result view later passed holds ⟨value, same, reached⟩
    exact ⟨value, same, lasting value view later passed holds reached⟩
  have locked : Operates label inv rely keeps pre (ask (.lock (stripeOf key))) fun _ => pre :=
    operates_silent still stable fun _ _ _ => id
  have tried : Operates label inv rely keeps pre (attempt body) ended := by
    refine attempts_attempt reflexive lasts (attempts_weaken operates ?_ ?_ ?_)
    · exact fun _ _ known => known
    · exact fun value _ _ reached => ⟨value, rfl, reached⟩
    · exact fun _ _ impossible => impossible.elim
  refine attempts_bind reflexive never_stable locked fun _ => ?_
  refine attempts_bind reflexive never_stable tried fun result => ?_
  -- The lock is released on both ways out; no operation here takes the other.
  have unlocked : Operates label inv rely keeps (ended result) (ask (.unlock (stripeOf key)))
      fun _ => ended result :=
    operates_silent still (lasts result) fun _ _ _ => id
  refine attempts_bind reflexive never_stable unlocked fun _ => ?_
  cases result with
  | error error => exact fun _ _ known => absurd known.choose_spec.1 (by simp)
  | ok value =>
      refine attempts_pure (lasts (.ok value)) ?_
      rintro view - ⟨found, same, reached⟩
      exact Except.ok.inj same ▸ reached

end Operations

/-! All the operations of a command. -/

section Pool

variable {α : Type} {effects : List (KeyEffect (Except RedisError α))}
  {settle : List (Except RedisError α) → Except RedisError (List α)} {reply : List α → Reply}

/-- The shape these commands share. -/
def fanOut (effects : List (KeyEffect (Except RedisError α)))
    (settle : List (Except RedisError α) → Except RedisError (List α)) (reply : List α → Reply) :
    Handler Reply := do
  let results ← ExceptT.lift (Program.call (.all effects))
  let values ← Handler.checked (settle results)
  return reply values

theorem fan_out_interpret : ((fanOut effects settle reply).run.interpret fun effect => effect.cluster) =
    gatherAll (effects.map fun effect => effect.cluster) >>= fun results =>
      done ((settle results).map reply) := by
  refine congrArg (gatherAll (effects.map fun effect => effect.cluster) >>= ·) (funext fun results => ?_)
  change ((Handler.checked (settle results) >>= fun values =>
    pure (reply values) : Handler Reply).run.interpret
    fun effect => effect.cluster) = _
  cases settle results with
  | error error => rfl
  | ok values => rfl

theorem settled_each (values : List α) : (values.map Except.ok : List (Except RedisError α)).mapM
    id = .ok values := by
  induction values with
  | nil => rfl
  | cons value rest ih =>
      rw [List.map_cons, List.mapM_cons, ih]
      rfl

theorem settled_writes (values : List α) : partialWriteOutcome (values.map Except.ok) = .ok values := by
  have clear : (values.map Except.ok).filterMap failureOf = ([] : List RedisError) := by
    simp [List.filterMap_map, failureOf, Function.comp_def]
  have same : (values.map (Except.ok : α → Except RedisError α)).filterMap Except.toOption = values := by
    simp [List.filterMap_map, Except.toOption, Function.comp_def]
  rw [partialWriteOutcome, clear, same]

theorem all_succeeded {results : List (Except RedisError α)} {good : Nat → α → Prop}
    (each : ∀ index result, results[index]? = some result → ∃ value, result = .ok value ∧
      good index value) :
    ∃ values : List α, results = values.map .ok ∧ ∀ index value, values[index]? = some value →
      good index value := by
  induction results generalizing good with
  | nil => exact ⟨[], rfl, fun _ _ found => absurd found (by simp)⟩
  | cons result rest ih =>
      obtain ⟨value, rfl, holds⟩ := each 0 result rfl
      obtain ⟨values, rfl, others⟩ := ih fun index result found => each (index + 1) result found
      refine ⟨value :: values, rfl, ?_⟩
      rintro (_ | index) found listed
      · exact Option.some.inj listed ▸ holds
      · exact others index found listed

theorem fan_out_ends (settles : ∀ values, settle (values.map .ok) = .ok values) {inv : View → Prop}
    {relies guarantees : Nat → View → View → Prop} {begins : Nat → View → Prop}
    {good : Nat → α → View → Prop} (reflexive : ∀ index view, relies index view view)
    (transitive : ∀ index first second third, relies index first second → relies index second third →
      relies index first third)
    (siblings : ∀ index other view later, index ≠ other → guarantees index view later →
      relies other view later)
    (operates : ∀ index effect, effects[index]? = some effect →
      Operates index inv (relies index) (guarantees index) (begins index) effect.cluster (good index))
    {start last : View} {result : Except RedisError Reply} (holds : inv start)
    (starts : ∀ index, begins index start)
    (ends : ((fanOut effects settle reply).run.interpret fun effect => effect.cluster).Ends
      View.LabelledActs
      View.Same start result last) :
    ∃ values, values.length = effects.length ∧ result = .ok (reply values) ∧ inv last ∧
      ∀ index value, values[index]? = some value → good index value last := by
  have tasks : ∀ index (task : Program (Labelled ClientCall) (Except RedisError α)),
      ((effects.map fun effect => effect.cluster).mapIdx labelled)[index]? = some task →
      task.Safe View.LabelledActs inv (relies index) (guarantees index)
        (fun result later => ∃ value, result = .ok value ∧ good index value later) start := by
    intro index task listed
    simp only [List.getElem?_mapIdx, List.getElem?_map, Option.map_map, Option.map_eq_some_iff] at listed
    obtain ⟨effect, found, rfl⟩ := listed
    refine safe_lift (safe_consequence ?_ (operates index effect found start holds (starts index)))
    rintro (error | value) later - reached
    · exact (reached.2 error rfl).elim
    · exact ⟨value, rfl, reached.1 value rfl⟩
  -- A step of one task is within what each of the others relies on.
  have pooled : (gatherAll (effects.map fun effect => effect.cluster)).Safe View.LabelledActs inv
      View.Same (fun _ _ => True) (fun results later => inv later ∧ results.length = effects.length ∧
        ∀ index result, results[index]? = some result → ∃ value, result = .ok value ∧
            good index value later) start := by
    intro fuel
    have outside : ∀ index view later, View.Same view later → relies index view later := by
      rintro index view later rfl
      exact reflexive index later
    have turns := gather_safe relies guarantees
      (fun index (result : Except RedisError α) later => ∃ value, result = .ok value ∧
        good index value later)
      (fun index _ _ _ => transitive index _ _ _)
      (fun index other view later distinct _ => siblings index other view later distinct) outside
        (fun _ _ _ _ => (trivial : (fun (_ _ : View) => True) _ _)) fuel tasks
    refine safe_consequence ?_ turns
    intro results later holdsLater reached
    exact ⟨holdsLater, by simpa using reached.1, reached.2⟩
  rw [fan_out_interpret] at ends
  have kept : ∀ view later, View.Same view later → inv view → inv later :=
    fun _ _ same known => same ▸ known
  have alone : ∀ view, View.Same view view := fun _ => rfl
  have whole : (gatherAll (effects.map fun effect => effect.cluster) >>=
      fun results => done ((settle results).map reply)).Safe View.LabelledActs inv View.Same
        (fun _ _ => True)
        (fun result later => ∃ values, values.length = effects.length ∧
          result = .ok (reply values) ∧ inv later ∧
          ∀ index value, values[index]? = some value → good index value later) start := by
    refine safe_bind alone (safe_consequence ?_ pooled)
    rintro results later - ⟨holdsLater, count, each⟩ final rfl -
    obtain ⟨values, rfl, reached⟩ := all_succeeded each
    exact ⟨values, by simpa using count, by rw [settles]; rfl, holdsLater, reached⟩
  exact ends_safe kept ends holds whole

end Pool

end Hashring
