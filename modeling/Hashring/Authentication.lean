import Hashring.Dispatcher
import Hashring.TaskRecord
import Mathlib.Data.List.ReduceOption

/-! What a client can do without the password. Every argument of a command is a
piece of the bytes the client sent, and only the four commands of the handshake run
before the connection has authenticated. -/
namespace Hashring

namespace Resp

theorem slice_infix (buffer : Bytes) (start stop : Nat) : slice buffer start stop <:+: buffer :=
  ((List.take_prefix _ _).isInfix).trans (List.drop_suffix _ _).isInfix

theorem split_pieces (p : Byte → Bool) (bytes : Bytes) :
    (∀ first, (bytes.splitOnP p).head? = some first → first <+: bytes) ∧
      ∀ piece ∈ bytes.splitOnP p, piece <:+: bytes := by
  induction bytes with
  | nil => simp [List.splitOnP_nil]
  | cons next bytes ih =>
      have shifted : ∀ piece ∈ bytes.splitOnP p, piece <:+: next :: bytes := fun piece listed =>
        (ih.2 piece listed).trans (List.suffix_cons next bytes).isInfix
      rw [List.splitOnP_cons_eq_if_modifyHead]
      split
      · refine ⟨fun first same => ?_, fun piece listed => ?_⟩
        · obtain rfl := Option.some.inj same
          exact List.nil_prefix
        · rcases List.mem_cons.mp listed with rfl | later
          · exact List.nil_infix
          · exact shifted piece later
      · cases pieces : bytes.splitOnP p with
        | nil => exact absurd pieces (List.splitOnP_ne_nil p bytes)
        | cons head tail =>
            have longer : next :: head <+: next :: bytes :=
              (List.prefix_cons_inj next).mpr (ih.1 head (by rw [pieces]; rfl))
            rw [List.modifyHead_cons]
            refine ⟨fun first same => ?_, fun piece listed => ?_⟩
            · obtain rfl := Option.some.inj same
              exact longer
            · rcases List.mem_cons.mp listed with rfl | later
              · exact longer.isInfix
              · exact shifted piece (pieces ▸ List.mem_cons_of_mem _ later)

theorem words_inside {line word : Bytes} (listed : word ∈ words line) : word <:+: line :=
  (split_pieces isAsciiWhitespace line).2 word (List.mem_of_mem_filter listed)

theorem parse_arguments_infix {limits : Limits} {buffer : Bytes} {args : List Bytes} {length : Nat}
    (count cursor : Nat) (read : List Bytes) (pieces : ∀ argument ∈ read, argument <:+: buffer)
    (taken : parseArguments limits buffer count cursor read = .taken args length) :
    ∀ argument ∈ args, argument <:+: buffer := by
  induction count generalizing cursor read with
  | zero =>
      obtain ⟨rfl, _⟩ := Frame.taken.inj taken
      exact pieces
  | succ count ih =>
      rw [parseArguments] at taken
      split at taken
      · exact absurd taken (by simp)
      · exact absurd taken (by simp)
      · split at taken
        · exact absurd taken (by simp)
        · split at taken
          · exact absurd taken (by simp)
          · split at taken
            · exact absurd taken (by simp)
            · apply ih _ _ _ taken
              intro argument listed
              rcases List.mem_append.mp listed with old | new
              · exact pieces argument old
              · exact List.mem_singleton.mp new ▸ slice_infix _ _ _

theorem parse_inside {limits : Limits} {buffer : Bytes} {args : List Bytes} {length : Nat}
    (taken : parse limits buffer = .taken args length) : ∀ argument ∈ args, argument <:+: buffer := by
  unfold parse at taken
  split at taken
  · exact absurd taken (by simp)
  · split at taken
    · split at taken
      · obtain ⟨rfl, _⟩ := Frame.taken.inj taken
        exact fun argument listed => absurd listed List.not_mem_nil
      · exact absurd taken (by simp)
    · split at taken
      · unfold parseMultibulk at taken
        split at taken
        · exact absurd taken (by simp)
        · exact absurd taken (by simp)
        · split at taken
          · exact absurd taken (by simp)
          · exact parse_arguments_infix _ _ _ (fun _ listed => absurd listed List.not_mem_nil) taken
      · unfold parseInline at taken
        split at taken
        · split at taken
          · exact absurd taken (by simp)
          · exact absurd taken (by simp)
        · rename_i stop _
          simp only at taken
          split at taken
          · exact absurd taken (by simp)
          · split at taken
            · exact absurd taken (by simp)
            · obtain ⟨rfl, _⟩ := Frame.taken.inj taken
              exact fun argument listed => (words_inside listed).trans
                (List.take_prefix stop buffer).isInfix

end Resp

namespace Dispatcher

variable {dispatcher : Dispatcher} {password : String}

/-- What a client that has not authenticated may be told. -/
def Handshake (dispatcher : Dispatcher) : Reply → Prop
  | .error _ => True
  | reply => reply = .status ∨ reply = .simple "RESET" ∨ ∃ connection : Connection,
      reply = connection.greeting dispatcher.version

structure Outside (dispatcher : Dispatcher) (outcome : Response × Connection) : Prop where
  authenticated : outcome.2.authenticated = false
  told : ∀ reply, outcome.1.reply = .ok reply → dispatcher.Handshake reply

theorem Outside.failed {connection : Connection} (unknown : connection.authenticated = false)
    (error : RedisError) :
    dispatcher.Outside (.failed error, connection) :=
  ⟨unknown, fun _ same => absurd same (by simp [Response.failed])⟩

theorem outside_settled {connection : Connection} (unknown : connection.authenticated = false)
    {result : Except RedisError (Reply × Connection)}
    (each : ∀ reply next, result = .ok (reply, next) → next.authenticated = false ∧
      dispatcher.Handshake reply) :
    dispatcher.Outside (settled connection result) := by
  cases result with
  | error error => exact .failed unknown error
  | ok found =>
      obtain ⟨next, told⟩ := each found.1 found.2 rfl
      exact ⟨next, fun reply same => Except.ok.inj same ▸ told⟩

theorem check_credentials_refused (set : dispatcher.password = some password) {user : Option Bytes}
    {offered : Bytes}
    (wrong : offered ≠ utf8 password) : dispatcher.checkCredentials user offered = .error .wrongPass := by
  simp only [checkCredentials, set]
  rw [if_neg fun both => wrong both.2.symm]

/-- The password `HELLO` offers is one of its arguments. -/
theorem hello_options_listed (runtime : Runtime) {nameAfter : Option Bytes} {user offered : Bytes}
    (credentials : Option (Bytes × Bytes)) (name : Option Bytes) (rest : List Bytes)
    (read : helloOptions runtime credentials name rest = .ok (some (user, offered), nameAfter)) :
    credentials = some (user, offered) ∨ offered ∈ rest := by
  -- Along the recursion of the options: two arguments for AUTH, one for SETNAME.
  fun_induction helloOptions runtime credentials name rest with
  | case1 credentials name => exact .inl (Prod.ext_iff.mp (Except.ok.inj read)).1
  | case2 credentials name word named first second rest ih =>
      rcases ih read with known | later
      · obtain rfl := (Prod.ext_iff.mp (Option.some.inj known)).2
        exact .inr (by simp)
      · exact .inr (List.mem_cons_of_mem _ (List.mem_cons_of_mem _ (List.mem_cons_of_mem _ later)))
  | case3 => exact absurd read (by simp)
  | case4 credentials name word other named first rest ih =>
      rcases ih read with known | later
      · exact .inl known
      · exact .inr (List.mem_cons_of_mem _ (List.mem_cons_of_mem _ later))
  | case5 => exact absurd read (by simp)
  | case6 => exact absurd read (by simp)

theorem hello_protocol_rest {current protocol : Protocol} {rest later : List Bytes}
    (read : helloProtocol current rest = .ok (protocol, later)) : later <:+ rest := by
  unfold helloProtocol at read
  split at read
  · obtain ⟨_, rfl⟩ := Prod.mk.inj (Except.ok.inj read)
    exact List.suffix_refl _
  · split at read
    · obtain ⟨_, rfl⟩ := Prod.mk.inj (Except.ok.inj read)
      exact List.suffix_refl _
    · split at read
      · obtain ⟨_, rfl⟩ := Prod.mk.inj (Except.ok.inj read)
        exact List.suffix_cons _ _
      · split at read
        · obtain ⟨_, rfl⟩ := Prod.mk.inj (Except.ok.inj read)
          exact List.suffix_cons _ _
        · exact absurd read (by simp)

theorem hello_outside (set : dispatcher.password = some password) {connection : Connection} {args : Args}
    (unknown : connection.authenticated = false) (unsent : utf8 password ∉ args.rest) :
    dispatcher.Outside (settled connection (dispatcher.hello connection args)) := by
  apply outside_settled unknown
  intro reply next answered
  unfold hello at answered
  obtain ⟨⟨protocol, rest⟩, versioned, answered⟩ := bind_ok_iff.mp answered
  obtain ⟨⟨credentials, name⟩, read, answered⟩ := bind_ok_iff.mp answered
  cases credentials with
  | some pair =>
      have wrong : pair.2 ≠ utf8 password := by
        intro sent
        rcases hello_options_listed dispatcher.runtime none none rest read with known | listed
        · exact absurd known (by simp)
        · exact unsent (sent ▸ (hello_protocol_rest versioned).subset listed)
      simp only [check_credentials_refused set wrong] at answered
      exact absurd answered (by simp [bind, Except.bind])
  | none =>
      obtain ⟨rfl, rfl⟩ := Prod.ext_iff.mp (Except.ok.inj answered)
      exact ⟨unknown, .inr (.inr ⟨_, rfl⟩)⟩

theorem auth_outside (set : dispatcher.password = some password) {connection : Connection} {args : Args}
    (unknown : connection.authenticated = false) (unsent : utf8 password ∉ args.rest) :
    dispatcher.Outside (settled connection (dispatcher.auth connection args)) := by
  apply outside_settled unknown
  intro reply next answered
  unfold auth at answered
  obtain ⟨⟨first, more⟩, taken, answered⟩ := bind_ok_iff.mp answered
  have listed : first ∈ args.rest ∧ more.rest <:+ args.rest := by
    unfold Args.nextRequired at taken
    split at taken
    · exact absurd taken (by simp)
    · rename_i rest given
      obtain ⟨rfl, rfl⟩ := Prod.mk.inj (Except.ok.inj taken)
      rw [given]
      exact ⟨List.mem_cons_self, List.suffix_cons _ _⟩
  cases given : more.rest with
  | nil =>
      have wrong : first ≠ utf8 password := fun sent => unsent (sent ▸ listed.1)
      simp only [Args.nextOptional, given, check_credentials_refused set wrong] at answered
      obtain ⟨_, _, answered⟩ := bind_ok_iff.mp answered
      exact absurd answered (by simp [bind, Except.bind])
  | cons offered rest =>
      have wrong : offered ≠ utf8 password := fun sent =>
        unsent (sent ▸ listed.2.subset (given ▸ List.mem_cons_self))
      simp only [Args.nextOptional, given, check_credentials_refused set wrong] at answered
      obtain ⟨_, _, answered⟩ := bind_ok_iff.mp answered
      exact absurd answered (by simp [bind, Except.bind])

theorem reset_outside (set : dispatcher.password = some password) {connection : Connection} {args : Args}
    (unknown : connection.authenticated = false) :
    dispatcher.Outside (settled connection (dispatcher.reset connection args)) := by
  apply outside_settled unknown
  intro reply next answered
  obtain ⟨_, _, answered⟩ := bind_ok_iff.mp answered
  obtain ⟨rfl, rfl⟩ := Prod.mk.inj (Except.ok.inj answered)
  exact ⟨by simp [set], .inr (.inl rfl)⟩

theorem pre_auth_table : ∀ info ∈ commandTable, info.preAuth = true →
    info.reachesCluster = false ∧ (info.name = "hello" ∨ info.name = "auth" ∨ info.name = "reset" ∨
      info.name = "quit") := by
  decide

/-- Without the password a command is over at once: it asks nothing of the world
outside, and its connection stays where it was. -/
theorem execute_outside (set : dispatcher.password = some password)
    (guarded : ∀ info ∈ dispatcher.extension, info.preAuth = false) {connection : Connection}
    {args : List Bytes} (unknown : connection.authenticated = false) (unsent : utf8 password ∉ args) :
    ∃ outcome, dispatcher.execute connection args = .done outcome ∧ dispatcher.Outside outcome := by
  unfold execute executeWithStore
  split
  · exact ⟨_, rfl, .failed unknown _⟩
  · rename_i first rest
    have unsent_rest : utf8 password ∉ rest := fun sent => unsent (List.mem_cons_of_mem _ sent)
    simp only
    split
    · exact ⟨_, rfl, .failed unknown _⟩
    · rename_i command named
      split
      · exact ⟨_, rfl, .failed unknown _⟩
      · split
        · exact ⟨_, rfl, .failed unknown _⟩
        · rename_i admitted
          have open_ : command.preAuth = true := by
            simpa [requiresAuth, set, unknown] using admitted
          -- The extension has no such command, so this is one of the built-in four.
          have unregistered : CommandInfo.find dispatcher.extension
              (dispatcher.runtime.keyword first) = none := by
            cases registered : CommandInfo.find dispatcher.extension
              (dispatcher.runtime.keyword first) with
            | none => rfl
            | some info =>
                rw [Dispatcher.command, registered, Option.some_or] at named
                obtain rfl := Option.some.inj named
                exact absurd open_ (by simp [guarded _ (List.mem_of_find?_eq_some registered)])
          rw [Dispatcher.command, unregistered, Option.none_or, lookupCommand, CommandInfo.find] at named
          obtain ⟨unreached, handshake⟩ := pre_auth_table command (List.mem_of_find?_eq_some named) open_
          have same := List.find?_some named
          have foreign : (dispatcher.extension.any fun item => item.name = command.name) = false := by
            rw [List.any_eq_false]
            intro item listed equal
            have missed := List.find?_eq_none.mp unregistered item listed
            rw [of_decide_eq_true equal] at missed
            exact missed same
          split
          · exact ⟨_, rfl, .failed unknown _⟩
          · simp only [foreign, Bool.false_eq_true, if_false, unreached, not_false_eq_true, if_true,
              false_and]
            unfold localCommand
            rcases handshake with name | name | name | name
            · simp only [name]
              exact ⟨_, rfl, hello_outside set unknown unsent_rest⟩
            · simp only [name]
              exact ⟨_, rfl, auth_outside set unknown unsent_rest⟩
            · simp only [name]
              exact ⟨_, rfl, reset_outside set unknown⟩
            · simp only [name]
              refine ⟨_, rfl, ⟨unknown, fun reply same => ?_⟩⟩
              obtain rfl := Except.ok.inj same
              exact .inl rfl

end Dispatcher

def Response.told (response : Response) : Reply :=
  match response.reply with
  | .ok reply => reply
  | .error error => error.toReply

namespace Service

variable {ω : Type}

/-- The service of a dispatcher: each command ends as its program can end when every
effect is answered from the world outside. -/
structure RunsBy (service : Service ω) (dispatcher : Dispatcher)
    (handles : {γ : Type} → CommandEffect γ → ω → γ → ω → Prop) : Prop where
  requiresAuth : service.requiresAuth = dispatcher.requiresAuth
  limits : service.limits = dispatcher.limits
  execute : ∀ outside connection args, (dispatcher.execute connection args).Ends handles (· = ·) outside
    ((service.execute outside connection args).1, (service.execute outside connection args).2.1)
    (service.execute outside connection args).2.2

structure StillOutside (dispatcher : Dispatcher) (outside : ω) (session : Session ω) : Prop where
  untouched : session.outside = outside
  authenticated : session.connection.authenticated = false
  told : ∀ entry ∈ session.written.reduceOption, dispatcher.Handshake entry.2

theorem visible_authenticated (connection : Connection) (reply : Reply) :
    (visible connection reply).2.authenticated = connection.authenticated := by
  unfold visible
  split
  all_goals rfl

theorem visible_reply {connection : Connection} {reply shown : Reply}
    (seen : (visible connection reply).1 = some shown) : shown = reply := by
  unfold visible at seen
  split at seen
  · exact (Option.some.inj seen).symm
  · exact absurd seen (by simp)
  · exact absurd seen (by simp)

theorem settle_authenticated (connection : Connection) (response : Response) :
    (settle connection response).2.2.authenticated = connection.authenticated := by
  cases effect : response.effect with
  | none => simp only [settle, effect, visible_authenticated]
  | close => simp only [settle, effect, visible_authenticated]
  | replyMode mode =>
      simp only [settle, effect]
      split
      · rfl
      · rfl

theorem settle_reply {connection : Connection} {response : Response} {reply : Reply}
    (shown : (settle connection response).1 = some reply) : reply = response.told := by
  cases effect : response.effect with
  | none =>
      simp only [settle, effect] at shown
      exact visible_reply shown
  | close =>
      simp only [settle, effect] at shown
      exact visible_reply shown
  | replyMode mode =>
      simp only [settle, effect] at shown
      split at shown
      · exact (Option.some.inj shown).symm
      · exact absurd shown (by simp)

theorem answer_outside {dispatcher : Dispatcher} {password : String} {service : Service ω}
    {handles : {γ : Type} → CommandEffect γ → ω → γ → ω → Prop}
    (set : dispatcher.password = some password)
    (guarded : ∀ info ∈ dispatcher.extension, info.preAuth = false)
    (runs : service.RunsBy dispatcher handles) {outside : ω} {session : Session ω}
    {args : List Bytes} (still : StillOutside dispatcher outside session)
    (unsent : utf8 password ∉ args) :
    StillOutside dispatcher outside (service.answer session args).1 := by
  unfold answer
  split
  · exact still
  · obtain ⟨outcome, program, kept⟩ := dispatcher.execute_outside set guarded still.authenticated unsent
    have ended := runs.execute session.outside session.connection args
    rw [program] at ended
    obtain ⟨same, unmoved⟩ := ended
    subst same
    refine ⟨unmoved.symm.trans still.untouched, ?_, ?_⟩
    · exact (settle_authenticated _ _).trans kept.authenticated
    · intro entry listed
      rw [List.reduceOption_mem_iff, List.mem_append, List.mem_singleton] at listed
      rcases listed with old | new
      · exact still.told entry (List.reduceOption_mem_iff.mpr old)
      · obtain ⟨reply, shown, rfl⟩ := Option.map_eq_some_iff.mp new.symm
        obtain rfl := settle_reply shown
        cases replied : (service.execute session.outside session.connection args).1.reply with
        | ok told =>
            simp only [Response.told, replied]
            exact kept.told told replied
        | error error =>
            simp only [Response.told, replied]
            trivial

/-- A client that never sends the password, whatever else it sends and however its
bytes are cut, reaches nothing: the world outside its connection is untouched, the
connection never authenticates, and it is told nothing but errors, `OK`, `RESET`
and the greeting of `HELLO`. -/
theorem password_guards_cluster (dispatcher : Dispatcher) (password : String)
    (set : dispatcher.password = some password)
    (guarded : ∀ info ∈ dispatcher.extension, info.preAuth = false) (service : Service ω)
    (handles : {γ : Type} → CommandEffect γ → ω → γ → ω → Prop)
    (runs : service.RunsBy dispatcher handles) (outside : ω) (id : Nat) (reads : List Bytes)
    (unsent : ¬utf8 password <:+: reads.flatten) :
    StillOutside dispatcher outside
      (service.serveConnection (service.opened outside id) reads).state := by
  refine FrameReader.serve_invariant ?_ (List.suffix_refl reads.flatten) ?_
  · intro session buffer args length inside still parsed
    apply answer_outside set guarded runs still
    intro sent
    exact unsent ((Resp.parse_inside parsed _ sent).trans inside)
  · refine ⟨rfl, ?_, fun entry listed => absurd listed (by simp [opened, List.reduceOption_nil])⟩
    simp [opened, runs.requiresAuth, Dispatcher.requiresAuth, set]

end Service

/-! A gateway whose cluster never answers. -/

namespace SampleGateway

/-- A capital and its small letter. -/
theorem lower_shifted {c : Char} (high : c.val.toNat ≤ 90) :
    (c.val + ('a'.val - 'A'.val)).toNat = c.val.toNat + 32 := by
  rw [UInt32.toNat_add]
  exact Nat.mod_eq_of_lt (by
    show c.val.toNat + 32 < _
    omega)

theorem lower_break {c : Char} (broken : isBreak c.toLower = true) : isBreak c = true := by
  unfold Char.toLower at broken
  split at broken
  · rename_i upper
    exfalso
    rw [isBreak, Bool.or_eq_true, decide_eq_true_eq, decide_eq_true_eq] at broken
    have shifted := lower_shifted upper.2
    have low : c.val.toNat + 32 = 13 ∨ c.val.toNat + 32 = 10 := by
      rcases broken with same | same
      · exact .inl (shifted.symm.trans (congrArg (fun c : Char => c.val.toNat) same))
      · exact .inr (shifted.symm.trans (congrArg (fun c : Char => c.val.toNat) same))
    omega
  · exact broken

def runtime : Runtime where
  lowercase text := String.ofList (text.toList.map Char.toLower)
  lowercase_one_line text whole := by
    rw [oneLine, String.toList_ofList, List.all_map, List.all_eq_true]
    intro c listed
    have plain := List.all_eq_true.mp whole c listed
    cases broken : isBreak c.toLower with
    | false => simp [broken]
    | true => simp [lower_break broken] at plain
  Float := Unit
  parseFloat _ := none
  zero := ()
  add _ _ := none
  formatNumber _ := "0"

def dispatcher : Dispatcher :=
  { runtime, password := some "secret", version := "0.1.0", operatingSystem := "linux", processId := 1 }

def unreachable : RedisError := ⟨"TRYAGAIN", "cluster is unavailable", false⟩

def keyAnswer : {γ : Type} → KeyEffect γ → γ
  | _, .read _ => .error unreachable
  | _, .put _ _ _ => .error unreachable
  | _, .putIfAbsent _ _ => .error unreachable
  | _, .update _ _ => .error unreachable

def storeAnswer : {γ : Type} → StoreEffect γ → γ
  | _, .now => 0
  | _, .one effect => keyAnswer effect
  | _, .all effects => effects.map fun effect => keyAnswer effect
  | _, .client => .error unreachable
  | _, .putIf _ _ _ _ => .error .missingVersion
  | _, .deleteIf _ _ => .error .missingVersion

def answer : {γ : Type} → CommandEffect γ → γ
  | _, .store effect => storeAnswer effect
  | _, .keys _ _ => (.error .missingVersion, false)
  | _, .scan _ _ _ _ => (.error .missingVersion, false)
  | _, .keyCount => .error .missingVersion
  | _, .randomKey => .error .missingVersion
  | _, .uptime => 0
  | _, .instanceId => 0
  | _, .extension _ _ _ => .error unreachable

def serve {γ : Type} (effect : CommandEffect γ) (calls : Nat) : γ × Nat := (answer effect, calls + 1)

theorem timed_ends (command : CommandInfo) (connection : Connection) (task : Command Reply)
    (calls : Nat) :
    ((Dispatcher.timed false command connection task).execute serve
      (fun _ => 0) calls).isSome = true := by
  unfold Dispatcher.timed
  rw [if_neg Bool.false_ne_true]
  generalize task.run = program
  induction program with
  | done value => rfl
  | perform effect next ih => rfl
  | choose next ih => exact ih 0
  | halt => rfl

theorem done_ends (outcome : Response × Connection) (calls : Nat) :
    ((Program.done outcome).execute serve (fun _ => 0) calls).isSome = true := rfl

theorem info_ends (args : Args) (connection : Connection) (calls : Nat) :
    (((dispatcher.info args).run.andThen fun result =>
      .done (Dispatcher.answered connection result)).execute serve
      (fun _ => 0) calls).isSome = true := by
  unfold Dispatcher.info
  simp only
  by_cases more : (args.nextKeyword dispatcher.runtime).2.rest = []
  · rw [if_neg (by simp [more])]
    by_cases named : ((args.nextKeyword dispatcher.runtime).1.all (· = "server")) = true
    · simp only [named, if_true]
      rfl
    · simp only [named, Bool.false_eq_true, if_false]
      rfl
  · rw [if_pos more]
    rfl

theorem local_ends (command : CommandInfo) (connection : Connection) (args : Args) (calls : Nat) :
    ((dispatcher.localCommand command connection args).execute serve
      (fun _ => 0) calls).isSome = true := by
  unfold Dispatcher.localCommand
  by_cases info : command.name = "info"
  · simp only [info]
    exact info_ends args connection calls
  · rw [if_neg info]
    split_ifs <;> exact done_ends _ _

theorem execute_ends (connection : Connection) (args : List Bytes) (calls : Nat) :
    ((dispatcher.execute connection args).execute serve (fun _ => 0) calls).isSome = true := by
  unfold Dispatcher.execute Dispatcher.executeWithStore
  split
  · rfl
  · simp only
    split
    · rfl
    · split
      · rfl
      · split
        · rfl
        · split
          · rfl
          · split
            · exact timed_ends _ _ _ _
            · split
              · rfl
              · split
                · exact local_ends _ _ _ _
                · exact timed_ends _ _ _ _

def service : Service Nat where
  limits := dispatcher.limits
  requiresAuth := dispatcher.requiresAuth
  execute calls connection args :=
    let ((response, next), after) :=
      ((dispatcher.execute connection args).execute serve (fun _ => 0) calls).get
      (execute_ends connection args calls)
    (response, next, after)

theorem service_runs : service.RunsBy dispatcher fun effect before found after => (found, after) =
    serve effect before where
  requiresAuth := rfl
  limits := rfl
  execute calls connection args := by
    have served : ∀ {γ : Type} (effect : CommandEffect γ) (calls : Nat),
        ((serve effect calls).1, (serve effect calls).2) = serve effect calls := fun _ _ => rfl
    apply Program.execute_ends (fun _ => rfl) served
    exact (Option.some_get _).symm

/-- `GET k` and nothing else. -/
def request : Bytes := utf8 "*2\r\n$3\r\nGET\r\n$1\r\nk\r\n"

end SampleGateway

/-- The gateway asks the cluster nothing for a client that does not know the password. -/
theorem Service.password_guards_cluster_get :
    Service.StillOutside SampleGateway.dispatcher 0
      (SampleGateway.service.serveConnection (SampleGateway.service.opened 0 1)
        [SampleGateway.request]).state :=
  Service.password_guards_cluster SampleGateway.dispatcher "secret" rfl
    (fun _ listed => absurd listed List.not_mem_nil)
    SampleGateway.service _ SampleGateway.service_runs 0 1 [SampleGateway.request] (by decide)

end Hashring
