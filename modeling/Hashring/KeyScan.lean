import Hashring.KeyspaceRuns
import Hashring.TopologyPlan

/-! A scan against nodes that change in any way between its pages: topologies are
installed, leases run out, keys are written and expire. What is asked of them is
only that their indices hold and that the keys of interest stay live wherever
they are owned. -/
namespace Hashring

open Program

section Scan

variable (hashing : Hashing) (seed : Nat) (lasting : Bytes → Prop)

structure SteadyNode (node : DataNode) : Prop where
  indexed : node.process.state.RecordsIndexed hashing
  sized : NodeState.RingSized node.process.state.topology
  /-- Every topology of a cluster hashes alike. -/
  seeded : node.process.state.topology.hashSeed = seed
  live : ∀ key, lasting key → node.Owns (keyToken hashing key seed) →
    node.process.state.isLive node.unixMillis key = true

def Steady (nodes : DataNodes) : Prop := ∀ endpoint node, nodes endpoint = some node →
    SteadyNode hashing seed lasting node

def SteadyRun (state : KeyspaceState) : Prop := Steady hashing seed lasting state.nodes

/-! One page. -/

/-- The keys cover the tokens from `low` up to `high`: those kept of the lasting
ones, and none twice. -/
structure Sweeps (keep : Bytes → Bool) (low high : Token) (keys : List Bytes) : Prop where
  once : keys.Nodup
  inside : ∀ key ∈ keys, low ≤ keyToken hashing key seed ∧ keyToken hashing key seed < high
  all : ∀ key, lasting key → keep key = true → low ≤ keyToken hashing key seed →
    keyToken hashing key seed < high → key ∈ keys

variable {hashing seed lasting} {keep : Bytes → Bool}

theorem Sweeps.empty (position : Token) : Sweeps hashing seed lasting keep position position [] where
  once := List.nodup_nil
  inside _ member := absurd member List.not_mem_nil
  all _ _ _ low high := absurd (high.trans_le low) (lt_irrefl _)

theorem Sweeps.append {low middle high : Token} {keys more : List Bytes}
    (early : Sweeps hashing seed lasting keep low middle keys)
    (late : Sweeps hashing seed lasting keep middle high more)
    (rises : low ≤ middle) (climbs : middle ≤ high) :
    Sweeps hashing seed lasting keep low high (keys ++ more) where
  once := by
    refine List.nodup_append.mpr ⟨early.once, late.once, ?_⟩
    rintro key found _ again rfl
    exact absurd ((early.inside key found).2.trans_le (late.inside key again).1) (lt_irrefl _)
  inside key member := by
    rcases List.mem_append.mp member with found | found
    · exact ⟨(early.inside key found).1, (early.inside key found).2.trans_le climbs⟩
    · exact ⟨rises.trans (late.inside key found).1, (late.inside key found).2⟩
  all key lasts kept above below := by
    by_cases first : keyToken hashing key seed < middle
    · exact List.mem_append_left _ (early.all key lasts kept above first)
    · exact List.mem_append_right _ (late.all key lasts kept (not_lt.mp first) below)

theorem steady_listed_nodup {node : DataNode} (steady : SteadyNode hashing seed lasting node)
    (low high : Token) :
    (node.process.state.listed node.config.nodeId node.unixMillis low high).Nodup :=
  NodeState.listed_nodup _ _ steady.indexed low high

theorem mem_steady_listed {node : DataNode} (steady : SteadyNode hashing seed lasting node)
    {low high : Token} {key : Bytes} :
    key ∈ node.process.state.listed node.config.nodeId node.unixMillis low high ↔
      low ≤ keyToken hashing key seed ∧ keyToken hashing key seed < high ∧
      node.process.state.topology.ownerId (keyToken hashing key seed) = some node.config.nodeId ∧
      node.process.state.isLive node.unixMillis key = true := by
  have token : node.process.state.tokenOf hashing key = keyToken hashing key seed := by
    rw [NodeState.tokenOf, TopologySnapshot.keyToken, steady.seeded]
  rw [NodeState.mem_listed _ _ steady.indexed, token]

theorem stretch_moves {node : DataNode} (sized : NodeState.RingSized node.process.state.topology)
    {request : ListKeysRequest} (inside : request.startToken ≤ tokenMax)
    (owns : node.Owns request.startToken) :
    request.startToken < (listingOf node.process.state.topology.epoch
      (node.process.state.ownedKeysPage node.config.nodeId node.unixMillis request.limits
        request.startToken)).stop ∧
    ((listingOf node.process.state.topology.epoch
      (node.process.state.ownedKeysPage node.config.nodeId node.unixMillis request.limits
        request.startToken)).done = false →
      (listingOf node.process.state.topology.epoch
        (node.process.state.ownedKeysPage node.config.nodeId node.unixMillis request.limits
          request.startToken)).nextToken ≤
          tokenMax) := by
  have covers := node.process.state.page_from_covers node.config.nodeId node.unixMillis
    request.limits sized {}
    request.startToken inside rfl
  have moves := node.process.state.page_from_moves node.config.nodeId node.unixMillis request.limits
    sized {}
    inside rfl (limits_open request) fun _ => owns_owner_id owns
  rw [listing_stop]
  refine ⟨moves, fun more => ?_⟩
  cases next : (node.process.state.ownedKeysPage node.config.nodeId node.unixMillis request.limits
    request.startToken).next with
  | none => exact absurd more (by simp [listingOf, next])
  | some token =>
      rw [listingOf, next]
      exact covers.within token next

theorem stretch_sweeps {node : DataNode} (steady : SteadyNode hashing seed lasting node)
    {request : ListKeysRequest}
    (stretch : request.oneStretch = true) (whole : request.countOnly = false)
    (inside : request.startToken ≤ tokenMax)
    {response : ListKeysResponse}
    (answered : answerListing node.config node.process.state node.now node.unixMillis request =
      .ok response)
    (clear : response.error = none) :
    request.startToken < response.stop ∧ (response.done = false → response.nextToken ≤ tokenMax) ∧
      Sweeps hashing seed lasting keep request.startToken response.stop (response.keys.filter keep) := by
  obtain ⟨accepted, rfl⟩ := answer_listing_page answered clear
  have owns : node.Owns request.startToken := by
    rw [refuseListing, if_pos stretch] at accepted
    exact accepted
  have covers := node.process.state.page_from_covers node.config.nodeId node.unixMillis
    request.limits steady.sized {}
    request.startToken inside rfl
  obtain ⟨moves, bounded⟩ := stretch_moves steady.sized inside owns
  refine ⟨moves, bounded, ?_⟩
  · rw [listing_stop]
    have keys : (node.process.state.ownedKeysPage node.config.nodeId node.unixMillis request.limits
        request.startToken).keys =
        node.process.state.listed node.config.nodeId node.unixMillis request.startToken
          (node.process.state.ownedKeysPage node.config.nodeId node.unixMillis request.limits
              request.startToken).stop := by
      have plain : request.limits.countOnly = false := whole
      have shown := covers.keys
      rw [plain] at shown
      exact shown
    rw [listingOf, keys]
    refine ⟨(steady_listed_nodup steady _ _).filter _, fun key member => ?_,
      fun key lasts kept low high => ?_⟩
    · obtain ⟨low, high, -⟩ := (mem_steady_listed steady).mp (List.mem_of_mem_filter member)
      exact ⟨low, high⟩
    · have own := covers.stretch stretch _ low high
      have live := steady.live key lasts (owns_of_owner_id owns own)
      exact List.mem_filter.mpr ⟨(mem_steady_listed steady).mpr ⟨low, high, own, live⟩, kept⟩

/-! One call. -/

theorem keep_within_eq {maxBytes keptBytes total : Nat} {kept keys result : List Bytes}
    (within : keepWithin keep maxBytes keptBytes kept keys = .ok (result, total)) :
    result = kept ++ keys.filter keep := by
  induction keys generalizing keptBytes kept with
  | nil =>
      obtain ⟨rfl, -⟩ := Prod.mk.inj (Except.ok.inj within)
      simp
  | cons key rest ih =>
      rw [keepWithin] at within
      by_cases chosen : keep key = true
      · simp only [chosen, if_true] at within
        split at within
        · exact absurd within (by simp)
        · rw [ih within]
          simp [chosen]
      · simp only [chosen, Bool.false_eq_true, if_false] at within
        rw [ih within]
        simp [chosen]

theorem keep_within_error {maxBytes keptBytes : Nat} {kept keys : List Bytes} {error : ClientError}
    (large : keepWithin keep maxBytes keptBytes kept keys = .error error) :
    error = sizeFailure s!"the matching keys exceed {maxBytes} bytes" := by
  induction keys generalizing keptBytes kept with
  | nil => exact absurd large (by simp [keepWithin])
  | cons key rest ih =>
      rw [keepWithin] at large
      by_cases chosen : keep key = true
      · simp only [chosen, if_true] at large
        split at large
        · exact (Except.error.inj large).symm
        · exact ih large
      · simp only [chosen, Bool.false_eq_true, if_false] at large
        exact ih large

variable (hashing seed lasting)

/-- What one call of a scan has covered. -/
structure ScanGoing (keep : Bytes → Bool) (count : Nat) (cursor : Token) (progress : ScanProgress) :
    Prop where
  sweeps : Sweeps hashing seed lasting keep cursor progress.position progress.keys
  reaches : cursor ≤ progress.position
  within : progress.position ≤ tokenMax
  moves : 0 < progress.pages → cursor < progress.position
  unseen : progress.pages = 0 → progress.seen < count

/-- What a call returns: the keys up to the cursor it hands out, or to the end. -/
def ScanResult (keep : Bytes → Bool) (cursor : Token) : List Bytes × Option Token → Prop
  | (keys, none) => Sweeps hashing seed lasting keep cursor (tokenMax + 1) keys
  | (keys, some next) => cursor < next ∧ next ≤ tokenMax ∧
      Sweeps hashing seed lasting keep cursor next keys

variable {hashing seed lasting}

theorem finds_scan_round (client : HashringClient) (count : Nat) (keep : Bytes → Bool)
    (maxBytes : Nat) (deadline : Instant) {cursor : Token} {progress : ScanProgress}
    (going : ScanGoing hashing seed lasting keep count cursor progress) :
    Finds hashing (SteadyRun hashing seed lasting)
      (client.scanRound count keep maxBytes deadline progress) fun result =>
      (∀ again, result = .inl again → ScanGoing hashing seed lasting keep count cursor again) ∧
      ∀ last, result = .inr last → ScanResult hashing seed lasting keep cursor last := by
  unfold HashringClient.scanRound
  split
  · refine returns_bind (finds_anything _) fun ⟨epoch, endpoint⟩ _ => ?_
    let request : ListKeysRequest :=
      { topologyEpoch := epoch
        startToken := progress.position
        maxKeys := min (count - progress.seen) u32Max
        maxBytes := keyBytesPerPage
        oneStretch := true }
    have paged : Finds hashing (SteadyRun hashing seed lasting)
        (client.listPage endpoint request deadline) fun response =>
        progress.position < response.stop ∧ (response.done = false → response.nextToken ≤ tokenMax) ∧
          Sweeps hashing seed lasting keep progress.position response.stop
              (response.keys.filter keep) := by
      refine finds_page client endpoint deadline _
        fun state node response steady found answered clear => ?_
      exact stretch_sweeps (steady endpoint node found) rfl rfl going.within answered clear
    refine returns_bind (finds_result paged) fun result reached => ?_
    cases result with
    | error failure =>
        cases failure with
        | failed error => exact returns_throw
        | retry error =>
            refine returns_bind (finds_anything _) fun attempt _ =>
              returns_pure ⟨fun again same => ?_, fun _ same => absurd same (by simp)⟩
            obtain rfl := Sum.inl.inj same
            exact ⟨going.sweeps, going.reaches, going.within, going.moves, going.unseen⟩
        | connect =>
            refine returns_bind (finds_anything _) fun attempt _ =>
              returns_pure ⟨fun again same => ?_, fun _ same => absurd same (by simp)⟩
            obtain rfl := Sum.inl.inj same
            exact ⟨going.sweeps, going.reaches, going.within, going.moves, going.unseen⟩
    | ok page =>
        obtain ⟨moves, bounded, sweeps⟩ := reached page rfl
        simp only
        split
        · exact returns_throw
        · rename_i keys keptBytes within
          have gathered := going.sweeps.append sweeps going.reaches moves.le
          rw [← keep_within_eq within] at gathered
          by_cases done : page.done = true
          · rw [if_pos done]
            rw [ListKeysResponse.stop, if_pos done] at gathered
            exact returns_pure ⟨fun _ same => absurd same (by simp), fun last same =>
              Sum.inr.inj same ▸ gathered⟩
          · rw [if_neg done]
            rw [ListKeysResponse.stop, if_neg done] at gathered moves
            refine returns_pure ⟨fun again same => ?_, fun _ same => absurd same (by simp)⟩
            obtain rfl := Sum.inl.inj same
            exact ⟨gathered, going.reaches.trans moves.le, bounded (by simpa using done),
              fun _ => going.reaches.trans_lt moves, fun none_ => absurd none_ (by simp)⟩
  · rename_i stopped
    refine returns_pure ⟨fun _ same => absurd same (by simp), fun last same => ?_⟩
    obtain rfl := Sum.inr.inj same
    -- The first turn never stops here, so a page has been read.
    have paged : 0 < progress.pages := by
      by_contra none_
      have first : progress.pages = 0 := by omega
      exact stopped ⟨by rw [first]; decide, going.unseen first⟩
    exact ⟨going.moves paged, going.within, going.sweeps⟩

theorem finds_scan (client : HashringClient) {cursor : Token} (inside : cursor ≤ tokenMax)
    (count : Nat) (keep : Bytes → Bool) (maxBytes : Nat) :
    Finds hashing (SteadyRun hashing seed lasting) (client.scan cursor count keep maxBytes)
      (ScanResult hashing seed lasting keep cursor) := by
  refine returns_bind (finds_anything _) fun now _ => ?_
  have start : ScanGoing hashing seed lasting keep (max count 1) cursor { position := cursor } :=
    ⟨Sweeps.empty cursor, le_rfl, inside, fun paged => absurd paged (by simp), fun _ => by simp⟩
  exact returns_loop start fun progress going => finds_scan_round client (max count 1) keep maxBytes
    _ going

/-! The whole iteration. -/

variable (hashing seed lasting)

/-- The calls of one iteration so far: the cursors of those that were answered, the
keys they returned, and the cursor to go on from. Each may be made through a
client of its own; one that fails is made again at the same cursor. -/
inductive Iteration (keep : Bytes → Bool) : KeyspaceState → List Token → List Bytes → Option Token → Prop
  | start {state : KeyspaceState} (steady : SteadyRun hashing seed lasting state) :
  Iteration keep state [] [] (some 0)
  | answered {state later : KeyspaceState} {cursors : List Token} {keys found : List Bytes}
      {cursor : Token} {next : Option Token}
      (client : HashringClient) (count maxBytes : Nat)
        (sofar : Iteration keep state cursors keys (some cursor))
      (ends : (client.scan cursor count keep maxBytes).run.Ends
        (fun effect => effect.Handled hashing (SteadyRun hashing seed lasting))
        (Drifts (SteadyRun hashing seed lasting)) state (.ok (found, next)) later) :
      Iteration keep later (cursors ++ [cursor]) (keys ++ found) next
  | failed {state later : KeyspaceState} {cursors : List Token} {keys : List Bytes} {cursor : Token}
      {error : ClientError}
      (client : HashringClient) (count maxBytes : Nat)
        (sofar : Iteration keep state cursors keys (some cursor))
      (ends : (client.scan cursor count keep maxBytes).run.Ends
        (fun effect => effect.Handled hashing (SteadyRun hashing seed lasting))
        (Drifts (SteadyRun hashing seed lasting)) state (.error error) later) :
          Iteration keep later cursors keys (some cursor)

/-- What an iteration has covered when it stands at `position`. -/
structure Covered (keep : Bytes → Bool) (cursors : List Token) (keys : List Bytes)
    (position : Token) : Prop where
  sweeps : Sweeps hashing seed lasting keep 0 position keys
  rising : (cursors ++ [position]).Pairwise (· < ·)

variable {hashing seed lasting}

theorem steady_ends {β : Type} {program : Program KeyspaceEffect β} {state later : KeyspaceState}
    {value : β}
    (ends : program.Ends (fun effect => effect.Handled hashing (SteadyRun hashing seed lasting))
      (Drifts (SteadyRun hashing seed lasting))
      state value later) :
    SteadyRun hashing seed lasting later := by
  induction program generalizing state with
  | done result => exact ends.2
  | perform effect next ih =>
      obtain ⟨_, answer, _, _, _, rest⟩ := ends
      exact ih answer rest
  | choose next ih =>
      obtain ⟨pick, rest⟩ := ends
      exact ih pick rest
  | halt => exact ends.elim

theorem iteration_covered {state : KeyspaceState} {cursors : List Token} {keys : List Bytes}
    {next : Option Token} (iteration : Iteration hashing seed lasting keep state cursors keys next) :
    SteadyRun hashing seed lasting state ∧ Covered hashing seed lasting keep cursors keys
      (next.getD (tokenMax + 1)) ∧
      ∀ cursor, next = some cursor → cursor ≤ tokenMax := by
  induction iteration with
  | start steady =>
      refine ⟨steady, ⟨Sweeps.empty 0, by simp⟩, fun cursor same => ?_⟩
      exact Option.some.inj same ▸ Nat.zero_le _
  | @answered state later cursors keys found cursor next client count maxBytes sofar ends ih =>
      obtain ⟨steady, covered, bounded⟩ := ih
      have result := ends_finds (finds_scan client (bounded cursor rfl) count keep maxBytes) steady ends
      have climbs : cursor < next.getD (tokenMax + 1) ∧
          Sweeps hashing seed lasting keep cursor (next.getD (tokenMax + 1)) found := by
        cases next with
        | none => exact ⟨Nat.lt_succ_of_le (bounded cursor rfl), result⟩
        | some next => exact ⟨result.1, result.2.2⟩
      refine ⟨steady_ends ends, ⟨covered.sweeps.append climbs.2 (Nat.zero_le _) climbs.1.le, ?_⟩, ?_⟩
      · refine List.pairwise_append.mpr ⟨covered.rising, List.pairwise_singleton _ _, ?_⟩
        intro earlier member later_ last
        obtain rfl := List.mem_singleton.mp last
        rcases List.mem_append.mp member with old | here
        · have below := (List.pairwise_append.mp covered.rising).2.2 earlier old cursor (by simp)
          exact below.trans climbs.1
        · exact List.mem_singleton.mp here ▸ climbs.1
      · rintro _ rfl
        exact result.2.1
  | failed client count maxBytes sofar ends ih => exact ⟨steady_ends ends, ih.2⟩

theorem rising_length {tokens : List Token} {bound : Token} (rising : tokens.Pairwise (· < ·))
    (below : ∀ token ∈ tokens, token < bound) : tokens.length ≤ bound := by
  have once : tokens.Nodup := rising.imp fun less => less.ne
  have inside : tokens ⊆ List.range bound := fun token member => List.mem_range.mpr (below token member)
  simpa using (List.subperm_of_subset once inside).length_le

end Scan

/-! Calls end while the nodes answer. -/
section Answering

variable (hashing : Hashing) (client : HashringClient)

/-- A moment without failures: the clock stays within the timeout, the client
reaches every endpoint, and the nodes answer. -/
def KeyspaceEffect.Undisturbed (began : Instant) {γ : Type} :
    KeyspaceEffect γ → KeyspaceState → γ → KeyspaceState → Prop
  | .client .now, state, answer, after => began ≤ answer ∧
    answer < began + client.operationTimeout ∧ after = state
  | .client (.shared access), state, answer, after =>
      answer = (access state.inner).1 ∧ after = { state with inner := (access state.inner).2 }
  | .client (.connect _ _), state, answer, after => answer = some (.ok ()) ∧ after = state
  | .client _, state, _, after | .acquirePage, state, _, after | .releasePage, state, _, after
  | .spend _, state, _, after => after = state
  | .listKeys endpoint request _, state, answer, after => after.inner = state.inner ∧
      ∃ response, answer = some response ∧
        Listed hashing state.nodes endpoint request response after.nodes

structure Routed (topology : TopologySnapshot) (nodes : DataNodes) (token : Token) (owner : Member)
    (node : DataNode) : Prop where
  routed : topology.ownerForToken token = .ok owner
  valid : client.endpointError owner.endpoint = none
  found : nodes owner.endpoint = some node
  owns : node.Owns token
  current : topology.epoch ≤ node.process.state.topology.epoch
  sized : NodeState.RingSized node.process.state.topology

structure Answers (topology : TopologySnapshot) (state : KeyspaceState) : Prop where
  cached : state.inner.topology = topology
  routes : ∀ token, token ≤ tokenMax → ∃ owner node, Routed client topology state.nodes token owner node

/-- A part of a call, and how it ends. -/
abbrev Ending (began : Instant) {ε β : Type} (task : ExceptT ε (Program KeyspaceEffect) β)
    (state : KeyspaceState)
    (post : Except ε β → KeyspaceState → Prop) : Prop :=
  task.run.Finishes (fun effect => effect.Undisturbed hashing client began) state post

abbrev ClientEnding (began : Instant) {β : Type} (task : ClientTask β) (state : KeyspaceState)
    (post : Except ClientError β → KeyspaceState → Prop) : Prop :=
  task.run.Finishes (fun effect => (KeyspaceEffect.client effect).Undisturbed hashing client began)
    state post

variable {hashing client} {began : Instant} {topology : TopologySnapshot} {state : KeyspaceState}

theorem ending_topology (answers : Answers client topology state) :
    ClientEnding hashing client began cachedTopology state
    fun result after => ∃ value, result = .ok value ∧ value = topology ∧ after = state := by
  rintro answer after ⟨rfl, rfl⟩
  exact ⟨_, rfl, answers.cached, rfl⟩

theorem ending_route (answers : Answers client topology state) {token : Token} {owner : Member}
    {node : DataNode} (route : Routed client topology state.nodes token owner node) :
    ClientEnding hashing client began (HashringClient.ownerRoute token) state fun result after =>
      ∃ value, result = .ok value ∧ value = (topology.epoch, owner.endpoint) ∧ after = state := by
  refine finishes_after (ending_topology answers) ?_
  rintro _ _ ⟨rfl, rfl⟩
  simp only [route.routed]
  exact ⟨_, rfl, rfl, rfl⟩

theorem ending_remaining {deadline : Instant} (late : began + client.operationTimeout ≤ deadline) :
    ClientEnding hashing client began (remaining deadline false) state fun result after =>
      ∃ available, result = .ok available ∧ after = state := by
  have clock : ClientEnding hashing client began (request .now) state fun result after =>
      ∃ now, result = .ok now ∧ now < deadline ∧ after = state := by
    rintro now after ⟨-, early, rfl⟩
    exact ⟨now, rfl, early.trans_le late, rfl⟩
  refine finishes_after clock ?_
  rintro now _ ⟨before, rfl⟩
  rw [if_pos before]
  exact ⟨_, rfl, rfl⟩

/-- The channel is there, and nothing else has changed. -/
theorem ending_connect {deadline : Instant} (late : began + client.operationTimeout ≤ deadline)
    {endpoint : String} (valid : client.endpointError endpoint = none) :
    ClientEnding hashing client began (client.dataNodeClient endpoint deadline) state fun result after =>
      result = .ok () ∧ after.inner.topology = state.inner.topology ∧ after.nodes = state.nodes := by
  have channel : ClientEnding hashing client began
      (request (.shared fun inner => (inner.channels.contains endpoint, inner)))
      state fun result after => ∃ known, result = .ok known ∧ after = state := by
    rintro known after ⟨rfl, rfl⟩
    exact ⟨_, rfl, rfl⟩
  refine finishes_after channel ?_
  rintro known _ rfl
  cases known with
  | true => exact ⟨rfl, rfl, rfl⟩
  | false =>
      simp only [Bool.false_eq_true, if_false, valid]
      refine finishes_after (ending_remaining late) ?_
      rintro available ready rfl
      have connected : ClientEnding hashing client began (request (.connect endpoint available))
          ready fun result after =>
          ∃ answer, result = .ok answer ∧ answer = some (.ok ()) ∧ after = ready := by
        rintro answer after ⟨rfl, rfl⟩
        exact ⟨_, rfl, rfl, rfl⟩
      refine finishes_after connected ?_
      rintro _ _ ⟨rfl, rfl⟩ added after ⟨rfl, rfl⟩
      exact ⟨rfl, rfl, rfl⟩

theorem ending_reach {deadline : Instant} (late : began + client.operationTimeout ≤ deadline)
    {endpoint : String} (valid : client.endpointError endpoint = none) :
    Ending hashing client began (reachOwner client endpoint deadline) state fun result after =>
      ∃ value, result = .ok value ∧ after.inner.topology = state.inner.topology ∧
          after.nodes = state.nodes := by
  refine finishes_bind (finishes_bind
    (finishes_lift (finishes_consequence ?_ (ending_connect late valid))))
  rintro _ after ⟨rfl, kept⟩
  exact ⟨(), rfl, kept⟩

theorem ending_during {deadline : Instant} (late : began + client.operationTimeout ≤ deadline) :
    Ending hashing client began (duringPage (remaining deadline false)) state fun result after =>
      ∃ value, result = .ok value ∧ after = state := by
  refine finishes_bind (finishes_bind (finishes_lift (finishes_consequence ?_ (ending_remaining late))))
  rintro _ after ⟨available, rfl, rfl⟩
  exact ⟨available, rfl, rfl⟩

theorem ending_page {deadline : Instant} (late : began + client.operationTimeout ≤ deadline)
    (answers : Answers client topology state) {owner : Member} {node : DataNode}
    {request : ListKeysRequest} (stretch : request.oneStretch = true)
    (inside : request.startToken ≤ tokenMax) (epoch : request.topologyEpoch = topology.epoch)
    (route : Routed client topology state.nodes request.startToken owner node) :
    Ending hashing client began (client.listPage owner.endpoint request deadline) state
      fun result after =>
      ∃ page, result = .ok page ∧ Answers client topology after ∧
          (page.done = false → page.nextToken ≤ tokenMax) := by
  refine finishes_after (ending_reach late route.valid) ?_
  rintro _ reached ⟨cached, same⟩
  refine finishes_after (ending_during late) ?_
  rintro available _ rfl answer after ⟨inner, response, rfl, other, fetched, found, answered, nodes⟩
  rw [same, route.found] at found
  obtain rfl := Option.some.inj found
  -- The node is not behind the client, so it answers as it is.
  have settled : node.listKeys hashing fetched request =
      (node, answerListing node.config node.process.state node.now node.unixMillis request) := by
    have current : request.topologyEpoch ≤ node.process.state.topology.epoch := epoch ▸ route.current
    simp only [DataNode.listKeys, refreshIfNewer, if_pos current]
  have accepted : refuseListing node.config node.process.state node.now request = .ok none := by
    rw [refuseListing, if_pos stretch]
    exact route.owns
  rw [settled, answerListing, accepted] at answered
  obtain rfl := answered
  refine ⟨_, rfl, ⟨?_, ?_⟩, (stretch_moves route.sized inside route.owns).2⟩
  · rw [inner, cached]
    exact answers.cached
  · have unmoved : after.nodes = state.nodes := by
      rw [nodes, settled]
      funext endpoint
      by_cases here : endpoint = owner.endpoint
      · rw [if_pos here, here, route.found]
      · rw [if_neg here, same]
    rw [unmoved]
    exact answers.routes

theorem ending_scan (answers : Answers client topology state) {cursor : Token}
    (inside : cursor ≤ tokenMax) (count : Nat) (keep : Bytes → Bool) (maxBytes : Nat) :
    Ending hashing client began (client.scan cursor count keep maxBytes) state fun result _ =>
      (∃ page, result = .ok page) ∨
          result = .error (sizeFailure s!"the matching keys exceed {maxBytes} bytes") := by
  have clock : Ending hashing client began (asClient (request .now)) state fun result after =>
      ∃ now, result = .ok now ∧ began ≤ now ∧ after = state := by
    rintro now after ⟨begun, -, rfl⟩
    exact ⟨now, rfl, begun, rfl⟩
  refine finishes_after clock ?_
  rintro now ready ⟨begun, rfl⟩
  have late : began + client.operationTimeout ≤ now + client.operationTimeout :=
    Nat.add_le_add_right begun _
  -- Each round uses up one of the pages a call may read.
  refine finishes_loop (fun progress state => Answers client topology state ∧ progress.position ≤
    tokenMax)
    (fun progress => scanPagesPerCall - progress.pages) ⟨answers, inside⟩ ?_
  rintro progress state ⟨answers, within⟩
  unfold HashringClient.scanRound
  split
  · rename_i more
    obtain ⟨owner, node, route⟩ := answers.routes progress.position within
    have routed : Ending hashing client began
        (asClient (HashringClient.ownerRoute progress.position)) state
        fun result after => ∃ value, result = .ok value ∧ value = (topology.epoch, owner.endpoint) ∧
          after = state :=
      finishes_lift (ending_route answers route)
    refine finishes_after routed ?_
    rintro _ same ⟨rfl, rfl⟩
    let request : ListKeysRequest :=
      { topologyEpoch := topology.epoch
        startToken := progress.position
        maxKeys := min (max count 1 - progress.seen) u32Max
        maxBytes := keyBytesPerPage
        oneStretch := true }
    have paged : Ending hashing client began
        (ExceptT.lift (client.listPage owner.endpoint request
          (now + client.operationTimeout)).run : KeyspaceTask _) same
        fun result after => ∃ answer, result = .ok answer ∧ ∃ page, answer = .ok page ∧
          Answers client topology after ∧
          (page.done = false → page.nextToken ≤ tokenMax) := by
      refine finishes_bind (finishes_consequence ?_ (ending_page late answers rfl within rfl route))
      rintro _ after ⟨page, rfl, reached⟩
      exact ⟨_, rfl, page, rfl, reached⟩
    refine finishes_after paged ?_
    rintro _ after ⟨page, rfl, still, bounded⟩
    simp only
    split
    · rename_i error large
      exact .inr (congrArg Except.error (keep_within_error large))
    · by_cases done : page.done = true
      · rw [if_pos done]
        exact .inl ⟨_, rfl⟩
      · rw [if_neg done]
        exact ⟨⟨still, bounded (by simpa using done)⟩, Nat.sub_lt_sub_left more.1 (Nat.lt_succ_self _)⟩
  · exact .inl ⟨_, rfl⟩

end Answering

namespace ScanSample

/-- Tokens below 100, two keys apart from each other by their first bytes. -/
def hashing : Hashing where
  xxh3 bytes _ := ((bytes.take 40).map (·.val)).sum * 31 % 100
  blake3 bytes := bytes

def first : String := "http://127.0.0.1:5001"

def second : String := "http://127.0.0.1:5002"

def alone : TopologySnapshot := JoinSample.topology 1 [⟨"a", first⟩] [⟨57, "a"⟩]

/-- The second node has the tokens from 58 to 88. -/
def joined : TopologySnapshot := JoinSample.topology 2 [⟨"a", first⟩, ⟨"b", second⟩]
    [⟨57, "a"⟩, ⟨88, "b"⟩]

def record : Record where
  value := [byte 2]
  version := ⟨1, 1, "a"⟩
  deleted := false
  expiresAtUnixMillis := none
  deadlineNonzero := by decide
  tombstoneEmpty := by decide

def holding (topology : TopologySnapshot) (keys : List Bytes) : NodeState :=
  keys.foldl (fun state key => state.insertRecord hashing key record)
    { topology, lease := some ⟨topology.epoch, 1000⟩ }

def node (nodeId : String) (topology : TopologySnapshot) (keys : List Bytes) : DataNode where
  config := { nodeId, processInstanceId := nodeId ++ "-1" }
  process := { state := holding topology keys }
  now := 0
  unixMillis := 0

def cluster (one two : DataNode) : DataNodes := fun endpoint =>
  if endpoint = first then some one else if endpoint = second then some two else none

/-- Two of the keys are at one token, behind the last point of the ring. -/
def keys : List Bytes := [[byte 4], [byte 1], [byte 5], [byte 2], [byte 6], [byte 1, byte 2], [byte 3]]

def before : DataNodes := cluster (node "a" alone keys) (node "b" alone [])

/-- The first node still has what it gave away. -/
def after : DataNodes := cluster (node "a" joined keys) (node "b" joined [[byte 2], [byte 6]])

def client : HashringClient where
  hashing := hashing
  statusText _ := ""
  endpointError _ := none
  operationTimeout := 1000000000000
  receiptRetention := 1000

def inner : ClientInner where
  topology := alone
  channels := []
  refreshLocked := false
  refreshGeneration := 0
  backgroundMinimumEpoch := 0
  backgroundTriggerGeneration := 0
  retries := 0
  retryReasons _ := 0

def serveClient : {γ : Type} → ClientEffect γ → ClientInner → γ × ClientInner
  | _, .now, inner => (0, inner)
  | _, .random, inner => (0, inner)
  | _, .sleep _, inner => ((), inner)
  | _, .shared access, inner => access inner
  | _, .lockRefresh _, inner => (true, inner)
  | _, .fetchTopology _, inner => (some (.ok joined), inner)
  | _, .connect _ _, inner => (some (.ok ()), inner)
  | _, .put _ _ _, inner => (none, inner)
  | _, .delete _ _ _, inner => (none, inner)

/-- What the nodes answer without looking for a newer topology. -/
def ask (nodes : DataNodes) (endpoint : String) (request : ListKeysRequest) :
    Option (Except Status ListKeysResponse) :=
  (nodes endpoint).map fun node => (node.listKeys hashing (.error "unreachable") request).2

def serve (answers : String → ListKeysRequest → Option (Except Status ListKeysResponse)) :
    {γ : Type} → KeyspaceEffect γ → KeyspaceState → γ × KeyspaceState
  | _, .client effect, state =>
      let answer := serveClient effect state.inner
      (answer.1, { state with inner := answer.2 })
  | _, .listKeys endpoint request _, state => (answers endpoint request, state)
  | _, .acquirePage, state => ((), state)
  | _, .releasePage, state => ((), state)
  | _, .spend _, state => (0, state)

/-- One call of a client that has the first topology. -/
def scanned (nodes : DataNodes) (cursor count maxBytes : Nat) :
    Option (Except ClientError (List Bytes × Option Token) × KeyspaceState) :=
  (client.scan cursor count (fun _ => true) maxBytes).run.execute
    (fun effect => serve (ask nodes) effect) (fun _ => 9) ⟨inner, nodes⟩

theorem holding_indexed (topology : TopologySnapshot)
    (keys : List Bytes) : (holding topology keys).RecordsIndexed hashing := by
  have fold (state : NodeState) (indexed : state.RecordsIndexed hashing) :
      (keys.foldl (fun state key => state.insertRecord hashing key record) state).RecordsIndexed
          hashing := by
    induction keys generalizing state with
    | nil => exact indexed
    | cons key rest ih => exact ih _ (state.insert_record_indexed hashing key record indexed)
  refine fold _ fun token key => ?_
  simp

theorem holding_topology (topology : TopologySnapshot)
    (keys : List Bytes) : (holding topology keys).topology = topology := by
  have fold (state : NodeState) :
      (keys.foldl (fun state key => state.insertRecord hashing key record) state).topology =
          state.topology := by
    induction keys generalizing state with
    | nil => rfl
    | cons key rest ih =>
        obtain ⟨_, _, inserted, _⟩ := NodeState.insert_record_frame hashing state key record
        rw [List.foldl_cons, ih, inserted]
  exact fold _

theorem steady_node {nodeId : String} {topology : TopologySnapshot} {held : List Bytes}
    (sized : NodeState.RingSized topology)
    (seeded : topology.hashSeed = 7)
    (live : ∀ key ∈ keys, topology.ownerId (keyToken hashing key 7) = some nodeId →
      (holding topology held).isLive 0 key = true) :
    SteadyNode hashing 7 (· ∈ keys) (node nodeId topology held) where
  indexed := holding_indexed topology held
  sized := (holding_topology topology held).symm ▸ sized
  seeded := (congrArg _ (holding_topology topology held)).trans seeded
  live key lasts owns := live key lasts (holding_topology topology held ▸ owns_owner_id owns)

theorem steady_cluster {one two : DataNode} {lasting : Bytes → Prop}
    (early : SteadyNode hashing 7 lasting one)
    (late : SteadyNode hashing 7 lasting two) : Steady hashing 7 lasting (cluster one two) := by
  intro endpoint node found
  unfold cluster at found
  split at found
  · exact Option.some.inj found ▸ early
  · split at found
    · exact Option.some.inj found ▸ late
    · exact absurd found (by simp)

theorem steady_before : Steady hashing 7 (· ∈ keys) before :=
  steady_cluster (steady_node ⟨by decide, by decide⟩ rfl (by decide +kernel))
    (steady_node ⟨by decide, by decide⟩ rfl (by decide +kernel))

theorem steady_after : Steady hashing 7 (· ∈ keys) after :=
  steady_cluster (steady_node ⟨by decide, by decide⟩ rfl (by decide +kernel))
    (steady_node ⟨by decide, by decide⟩ rfl (by decide +kernel))

theorem unmoved (node : DataNode) (request : ListKeysRequest) :
    (node.listKeys hashing (.error "unreachable") request).1 = node := by
  unfold DataNode.listKeys refreshIfNewer
  by_cases current : request.topologyEpoch ≤ node.process.state.topology.epoch
  · rw [if_pos current]
  · rw [if_neg current]

theorem serve_client (answers : String → ListKeysRequest → Option (Except Status ListKeysResponse))
    {γ : Type}
    (effect : ClientEffect γ) (state : KeyspaceState) : (KeyspaceEffect.client effect).Served
      hashing state
      (serve answers (.client effect) state).1 (serve answers (.client effect) state).2 := by
  cases effect with
  | shared access => exact ⟨rfl, rfl⟩
  | _ => rfl

/-- A run against nodes that stand still. -/
theorem served {nodes : DataNodes}
    {answers : String → ListKeysRequest → Option (Except Status ListKeysResponse)}
    (honest : ∀ endpoint request, answers endpoint request = ask nodes endpoint request) {γ : Type}
    (effect : KeyspaceEffect γ) (state : KeyspaceState) (unchanged : state.nodes = nodes) :
    effect.Served hashing state (serve answers effect state).1 (serve answers effect state).2 ∧
      (serve answers effect state).2.nodes = nodes := by
  cases effect with
  | client effect => exact ⟨serve_client answers effect state, unchanged⟩
  | acquirePage => exact ⟨rfl, unchanged⟩
  | releasePage => exact ⟨rfl, unchanged⟩
  | spend cost => exact ⟨rfl, unchanged⟩
  | listKeys endpoint request timeout =>
      refine ⟨⟨rfl, ?_⟩, unchanged⟩
      cases found : nodes endpoint with
      | none =>
          have lost : answers endpoint request = none := by rw [honest, ask, found, Option.map_none]
          exact .inr ⟨fun response => by simp [serve, lost], .inl rfl⟩
      | some node =>
          have answered : answers endpoint request =
              some (node.listKeys hashing (.error "unreachable") request).2 := by
            rw [honest, ask, found, Option.map_some]
          refine .inl ⟨_, answered, node, .error "unreachable", unchanged ▸ found, rfl, ?_⟩
          funext other
          by_cases here : other = endpoint
          · rw [if_pos here, here, unmoved]
            exact unchanged ▸ found
          · rw [if_neg here]
            rfl

/-- A call may start wherever the nodes have come to. -/
theorem ends_anywhere {β : Type} {holds : KeyspaceState → Prop} {program : Program KeyspaceEffect β}
    {state later : KeyspaceState} {value : β}
    (ends : program.Ends (fun effect => effect.Handled hashing holds) (Drifts holds) state value later)
    (other : KeyspaceState) : program.Ends (fun effect => effect.Handled hashing holds)
      (Drifts holds) other value later := by
  induction program with
  | done result => exact ends
  | perform effect next _ => exact ends
  | choose next ih =>
      obtain ⟨pick, rest⟩ := ends
      exact ⟨pick, ih pick rest⟩
  | halt => exact ends

theorem scanned_ends {nodes : DataNodes} (steady : Steady hashing 7 (· ∈ keys) nodes)
    (cursor count maxBytes : Nat) (result : Except ClientError (List Bytes × Option Token))
    (ran : (scanned nodes cursor count maxBytes).map (·.1) = some result) (state : KeyspaceState) :
    ∃ later, (client.scan cursor count (fun _ => true) maxBytes).run.Ends
      (fun effect => effect.Handled hashing (SteadyRun hashing 7 (· ∈ keys)))
      (Drifts (SteadyRun hashing 7 (· ∈ keys)))
      state result later := by
  obtain ⟨⟨_, later⟩, executed, rfl⟩ := Option.map_eq_some_iff.mp ran
  have kept (state : KeyspaceState) (unchanged : state.nodes = nodes) :
      SteadyRun hashing 7 (· ∈ keys) state := by
    rw [SteadyRun, unchanged]
    exact steady
  have handled {γ : Type} (effect : KeyspaceEffect γ) (state : KeyspaceState)
      (unchanged : state.nodes = nodes) :
      effect.Handled hashing (SteadyRun hashing 7 (· ∈ keys)) state (serve (ask nodes) effect state).1
        (serve (ask nodes) effect state).2 ∧ (serve (ask nodes) effect state).2.nodes = nodes := by
    obtain ⟨served, still⟩ := served (fun _ _ => rfl) effect state unchanged
    exact ⟨⟨served, kept _ still⟩, still⟩
  exact ⟨later, ends_anywhere (execute_ends_within kept handled rfl executed) state⟩

end ScanSample

end Hashring
