import Hashring.KeyScan

/-! Whole walks against nodes that change in any way between its pages. The owners
are paged side by side, each at the epoch the attempt began with, so that a page
is used only from a node that has this epoch's topology and a lease in it. -/
namespace Hashring

open Program

structure UsedPage where
  node : DataNode
  start : Token
  response : ListKeysResponse

/-- The keys the page stands for, also when it only counts them. -/
def UsedPage.listed (page : UsedPage) : List Bytes :=
  page.node.process.state.listed page.node.config.nodeId page.node.unixMillis page.start
    page.response.stop

section Walk

variable (hashing : Hashing) (topology : TopologySnapshot) (lasting : Bytes → Prop)

structure WalkedNode (node : DataNode) : Prop where
  indexed : node.process.state.RecordsIndexed hashing
  /-- An epoch has one topology. -/
  agreed : node.process.state.topology.epoch = topology.epoch → node.process.state.topology = topology
  live : ∀ key, lasting key → node.process.state.topology = topology →
    node.Owns (topology.keyToken hashing key) →
    node.process.state.isLive node.unixMillis key = true

structure WalkedRun (state : KeyspaceState) : Prop where
  nodes : ∀ endpoint node, state.nodes endpoint = some node → WalkedNode hashing topology lasting node
  /-- A member is what answers at its endpoint. -/
  named : ∀ member ∈ topology.members, ∀ node, state.nodes member.endpoint = some node →
    node.config.nodeId = member.nodeId

structure UsedPage.Answered (holds : KeyspaceState → Prop) (page : UsedPage) : Prop where
  met : ∃ state endpoint, holds state ∧ state.nodes endpoint = some page.node
  current : page.node.process.state.topology = topology
  epoch : page.response.currentEpoch = topology.epoch
  count : page.response.count = page.listed.length
  owns : ∀ key ∈ page.listed, page.node.Owns (topology.keyToken hashing key)

/-- The keys one member has to list. -/
def OwnedLasting (nodeId : String) (key : Bytes) : Prop :=
  lasting key ∧ topology.ownerId (topology.keyToken hashing key) = some nodeId

/-- What the pages of one member have covered when they stand at `position`. -/
structure OwnerCovered (holds : KeyspaceState → Prop) (nodeId : String) (pages : List UsedPage)
    (position : Token) : Prop where
  answered : ∀ page ∈ pages, page.Answered hashing topology holds
  sweeps : Sweeps hashing topology.hashSeed (OwnedLasting hashing topology lasting nodeId)
    (fun _ => true) 0 position
    (pages.flatMap UsedPage.listed)
  owned : ∀ key ∈ pages.flatMap UsedPage.listed, topology.ownerId (topology.keyToken hashing key) =
    some nodeId

variable {hashing topology lasting}

/-! One page. -/

theorem sound_sized (wide : ∀ bytes seed, hashing.xxh3 bytes seed ≤ tokenMax)
    (sound : topology.Sound hashing) :
    NodeState.RingSized topology := by
  refine ⟨sound.assignments_ne_nil, fun assignment member => ?_⟩
  rw [sound.canonical.assignments, canonicalAssignments, List.mem_mergeSort, List.mem_flatMap] at member
  obtain ⟨_, -, built⟩ := member
  obtain ⟨_, -, rfl⟩ := List.mem_map.mp built
  exact wide _ _

theorem accepted_epoch {node : DataNode} {request : ListKeysRequest} (whole : request.oneStretch = false)
    (accepted : refuseListing node.config node.process.state node.now request = .ok none) :
    node.process.state.topology.epoch = request.topologyEpoch ∧
      (node.process.state.topology.assignments.any (·.nodeId = node.config.nodeId) = true →
        leaseError node.process.state node.now = none) := by
  unfold refuseListing at accepted
  rw [if_neg (by simp [whole])] at accepted
  split at accepted
  · exact absurd accepted (by simp)
  · rename_i reached
    split at accepted
    · exact absurd accepted (by simp)
    · rename_i current
      refine ⟨le_antisymm (not_lt.mp current) (not_lt.mp reached), fun any => ?_⟩
      rw [if_pos any] at accepted
      exact Except.ok.inj accepted

theorem accepted_owns {node : DataNode} (sound : node.process.state.topology.Sound hashing)
    {request : ListKeysRequest} (whole : request.oneStretch = false)
    (accepted : refuseListing node.config node.process.state node.now request = .ok none)
    {token : Token} (owned : node.process.state.topology.ownerId token = some node.config.nodeId) :
    node.Owns token := by
  obtain ⟨owner, listed, routed, -⟩ := sound.owner_for_token token
  have named : owner.nodeId = node.config.nodeId :=
    Option.some.inj ((TopologySnapshot.owner_for_token_owner_id routed).symm.trans owned)
  obtain ⟨assignment, present, same⟩ :=
    (sound.mem_assignments owner.nodeId).mpr (List.mem_map_of_mem listed)
  have any : node.process.state.topology.assignments.any (·.nodeId = node.config.nodeId) = true :=
    List.any_eq_true.mpr ⟨assignment, present, by simpa using same.trans named⟩
  rw [DataNode.Owns, ownerError, routed]
  exact (if_pos named).trans (congrArg Except.ok ((accepted_epoch whole accepted).2 any))

theorem walk_page {holds : KeyspaceState → Prop} (wide : ∀ bytes seed, hashing.xxh3 bytes seed ≤ tokenMax)
    (sound : topology.Sound hashing) {state : KeyspaceState} {endpoint : String} {node : DataNode}
    (holding : holds state) (found : state.nodes endpoint = some node)
    (walked : WalkedNode hashing topology lasting node) {countOnly : Bool} {position : Token}
    (inside : position ≤ tokenMax) {response : ListKeysResponse}
    (answered : answerListing node.config node.process.state node.now node.unixMillis
      (.ofWalk topology.epoch countOnly position) = .ok response) (clear : response.error = none)
      {pages : List UsedPage}
    (covered : OwnerCovered hashing topology lasting holds node.config.nodeId pages position) :
    OwnerCovered hashing topology lasting holds node.config.nodeId
      (pages ++ [⟨node, position, response⟩]) response.stop ∧
      response.keys = NodeState.shown countOnly (UsedPage.mk node position response).listed ∧
      response.count = (UsedPage.mk node position response).listed.length ∧
      (response.done = false → response.nextToken ≤ tokenMax) := by
  obtain ⟨accepted, shape⟩ := answer_listing_page answered clear
  -- The node is at the walk's epoch, so its topology is the walk's.
  have same := walked.agreed (accepted_epoch rfl accepted).1
  have sized : NodeState.RingSized node.process.state.topology := same.symm ▸ sound_sized wide sound
  have steady : SteadyNode hashing topology.hashSeed
      (OwnedLasting hashing topology lasting node.config.nodeId) node :=
    ⟨walked.indexed, sized, congrArg _ same, fun key lasts => walked.live key lasts.1 same⟩
  have covers : node.process.state.Covers node.config.nodeId node.unixMillis _ position {}
      (node.process.state.ownedKeysPage node.config.nodeId node.unixMillis _ position) :=
    node.process.state.page_from_covers node.config.nodeId node.unixMillis
      (ListKeysRequest.ofWalk topology.epoch countOnly position).limits sized {} position inside rfl
  change response = listingOf node.process.state.topology.epoch
    (node.process.state.ownedKeysPage node.config.nodeId
    node.unixMillis (ListKeysRequest.ofWalk topology.epoch countOnly position).limits position) at shape
  generalize node.process.state.ownedKeysPage node.config.nodeId node.unixMillis
    (ListKeysRequest.ofWalk topology.epoch countOnly position).limits position = page at covers shape
  have stop : response.stop = page.stop := shape ▸ listing_stop _ page
  have lists : (UsedPage.mk node position response).listed =
      node.process.state.listed node.config.nodeId node.unixMillis position page.stop := by
    rw [UsedPage.listed, stop]
  have counted : response.count = (UsedPage.mk node position response).listed.length := by
    rw [lists, shape]
    exact covers.count.trans (Nat.zero_add _)
  have owned : ∀ key ∈ (UsedPage.mk node position response).listed,
      topology.ownerId (topology.keyToken hashing key) = some node.config.nodeId := by
    intro key member
    rw [lists] at member
    exact same ▸ ((mem_steady_listed steady).mp member).2.2.1
  refine ⟨⟨?_, ?_, ?_⟩, ?_, counted, fun more => ?_⟩
  · intro used member
    rcases List.mem_append.mp member with early | last
    · exact covered.answered used early
    · obtain rfl := List.mem_singleton.mp last
      refine ⟨⟨state, endpoint, holding, found⟩, same, ?_, counted, fun key member => ?_⟩
      · rw [shape, ← same]
        rfl
      · exact accepted_owns (same.symm ▸ sound) rfl accepted (same.symm ▸ owned key member)
  · rw [List.flatMap_append, List.flatMap_singleton, lists, stop]
    refine covered.sweeps.append ⟨steady_listed_nodup steady _ _, fun key member => ?_,
      fun key lasts _ low high => ?_⟩
      (Nat.zero_le _) covers.reaches
    · obtain ⟨low, high, -⟩ := (mem_steady_listed steady).mp member
      exact ⟨low, high⟩
    · have owns : node.Owns (topology.keyToken hashing key) :=
        accepted_owns (same.symm ▸ sound) rfl accepted (same.symm ▸ lasts.2)
      exact (mem_steady_listed steady).mpr
        ⟨low, high, same.symm ▸ lasts.2, walked.live key lasts.1 same owns⟩
  · rw [List.flatMap_append, List.flatMap_singleton]
    intro key member
    rcases List.mem_append.mp member with early | last
    · exact covered.owned key early
    · exact owned key last
  · rw [lists, shape]
    exact covers.keys
  · rw [shape] at more ⊢
    cases next : page.next with
    | none => exact absurd more (by simp [listingOf, next])
    | some token =>
        rw [listingOf, next]
        exact covers.within token next

/-! One owner. -/

theorem shown_filter_append (countOnly : Bool) (keep : Bytes → Bool) (keys more : List Bytes) :
    (NodeState.shown countOnly keys).filter keep ++ (NodeState.shown countOnly more).filter keep =
      (NodeState.shown countOnly (keys ++ more)).filter keep := by
  rw [← List.filter_append, NodeState.shown_append]

theorem finds_shared {holds : KeyspaceState → Prop} (keep : Bytes → Bool) (maxBytes : Nat)
    (kept keys : List Bytes) :
    Finds hashing holds (keepShared keep maxBytes kept keys) (· = kept ++ keys.filter keep) := by
  induction keys generalizing kept with
  | nil => exact returns_pure (by simp)
  | cons key rest ih =>
      rw [keepShared]
      by_cases chosen : keep key = true
      · rw [if_pos chosen]
        refine returns_bind (finds_anything _) fun total _ => ?_
        split
        · exact returns_throw
        · have more := ih (kept ++ [key])
          rwa [List.append_assoc, List.singleton_append, ← List.filter_cons_of_pos chosen] at more
      · rw [if_neg chosen, List.filter_cons_of_neg chosen]
        exact ih kept

variable (hashing topology lasting) in
structure Gathered (holds : KeyspaceState → Prop) (nodeId : String) (countOnly : Bool)
    (keep : Bytes → Bool) (position : Token)
    (pages : List UsedPage) (part : List Bytes × Nat) : Prop where
  covered : OwnerCovered hashing topology lasting holds nodeId pages position
  keys : part.1 = (NodeState.shown countOnly (pages.flatMap UsedPage.listed)).filter keep
  count : part.2 = (pages.flatMap UsedPage.listed).length

theorem finds_owner (wide : ∀ bytes seed, hashing.xxh3 bytes seed ≤ tokenMax)
    (sound : topology.Sound hashing) {holds : KeyspaceState → Prop}
    (walked : ∀ state, holds state → WalkedRun hashing topology lasting state)
    (client : HashringClient) (countOnly : Bool) (keep : Bytes → Bool) (maxBytes : Nat)
    {member : Member} (listed : member ∈ topology.members) (deadline : Instant) :
    Finds hashing holds (client.walkOwner countOnly keep maxBytes member.endpoint topology.epoch
      deadline) fun part =>
      ∃ pages, Gathered hashing topology lasting holds member.nodeId countOnly keep
          (tokenMax + 1) pages part := by
  -- The loop is entered below the last token, with the pages so far gathered up to it.
  let going (progress : OwnerProgress) : Prop := progress.startToken ≤ tokenMax ∧ ∃ pages,
    Gathered hashing topology lasting holds member.nodeId countOnly keep progress.startToken pages
      (progress.keys, progress.count)
  have start : going {} := by
    refine ⟨Nat.zero_le _, [], ⟨fun _ member => absurd member List.not_mem_nil, Sweeps.empty 0,
      fun _ member => absurd member List.not_mem_nil⟩, ?_, rfl⟩
    cases countOnly <;> rfl
  refine returns_loop start fun progress ⟨inside, pages, gathered⟩ => ?_
  refine returns_bind (finds_anything _) fun _ _ => ?_
  have paged : Finds hashing holds
      (client.listPage member.endpoint (.ofWalk topology.epoch countOnly progress.startToken)
      deadline)
      fun response => (response.done = false → response.nextToken ≤ tokenMax) ∧ ∃ pages,
        Gathered hashing topology lasting holds member.nodeId countOnly keep response.stop pages
          (progress.keys ++ response.keys.filter keep, progress.count + response.count) := by
    refine finds_page client member.endpoint deadline _
      fun state node response holding found answered clear => ?_
    have named := (walked state holding).named member listed node found
    have covered := gathered.covered
    rw [← named] at covered
    obtain ⟨covered, keys, count, bounded⟩ :=
      walk_page wide sound holding found ((walked state holding).nodes _ node found)
      inside answered clear covered
    refine ⟨bounded, _, named ▸ covered, ?_, ?_⟩
    · rw [List.flatMap_append, List.flatMap_singleton, ← shown_filter_append, ← keys]
      exact congrArg (· ++ _) gathered.keys
    · rw [List.flatMap_append, List.flatMap_singleton, List.length_append, ← count]
      exact congrArg (· + _) gathered.count
  refine returns_bind paged fun response ⟨bounded, further, grown⟩ => ?_
  refine returns_bind (finds_shared keep maxBytes progress.keys response.keys) fun keys gatheredKeys => ?_
  refine returns_bind (finds_anything _) fun _ _ => ?_
  rw [← gatheredKeys] at grown
  -- The last page closes the circle; any other hands its token to the next round.
  by_cases done : response.done = true
  · rw [if_pos done]
    rw [ListKeysResponse.stop, if_pos done] at grown
    exact returns_pure ⟨fun _ same => absurd same (by simp), fun last same =>
      Sum.inr.inj same ▸ ⟨further, grown⟩⟩
  · rw [if_neg done]
    rw [ListKeysResponse.stop, if_neg done] at grown
    refine returns_pure ⟨fun again same => ?_, fun _ same => absurd same (by simp)⟩
    obtain rfl := Sum.inl.inj same
    exact ⟨bounded (by simpa using done), further, grown⟩

/-! All owners. -/

variable (hashing topology lasting) in
/-- What a finished walk returns: what its pages list, each key once and the lasting
ones all. -/
structure WalkExact (holds : KeyspaceState → Prop) (countOnly : Bool) (keep : Bytes → Bool)
    (pages : List UsedPage)
    (result : List Bytes × Nat) : Prop where
  answered : ∀ page ∈ pages, page.Answered hashing topology holds
  once : (pages.flatMap UsedPage.listed).Nodup
  all : ∀ key, lasting key → key ∈ pages.flatMap UsedPage.listed
  keys : result.1 = (NodeState.shown countOnly (pages.flatMap UsedPage.listed)).filter keep
  count : result.2 = (pages.flatMap UsedPage.listed).length

theorem parts_joined (wide : ∀ bytes seed, hashing.xxh3 bytes seed ≤ tokenMax)
    {holds : KeyspaceState → Prop} {countOnly : Bool} {keep : Bytes → Bool} {owners : List Member}
    {parts : List (List Bytes × Nat)} (distinct : (owners.map (·.nodeId)).Nodup)
    (each : List.Forall₂ (fun (member : Member) part => ∃ pages,
      Gathered hashing topology lasting holds member.nodeId countOnly keep
        (tokenMax + 1) pages part) owners parts) :
    ∃ pages, WalkExact hashing topology
        (fun key => lasting key ∧ ∃ member ∈ owners,
          topology.ownerId (topology.keyToken hashing key) = some member.nodeId)
        holds countOnly keep pages (parts.flatMap (·.1), (parts.map (·.2)).sum) ∧
      ∀ key ∈ pages.flatMap UsedPage.listed, ∃ member ∈ owners,
        topology.ownerId (topology.keyToken hashing key) = some member.nodeId := by
  induction each with
  | nil =>
      refine ⟨[], ⟨fun _ member => absurd member List.not_mem_nil, List.nodup_nil, ?_, ?_, rfl⟩,
        fun _ member => absurd member List.not_mem_nil⟩
      · rintro key ⟨-, member, listed, -⟩
        exact absurd listed List.not_mem_nil
      · cases countOnly <;> rfl
  | @cons member part owners parts gathered _ ih =>
      obtain ⟨fresh, distinct⟩ := List.nodup_cons.mp distinct
      obtain ⟨pages, gathered⟩ := gathered
      obtain ⟨others, exact_, owned⟩ := ih distinct
      refine ⟨pages ++ others, ⟨?_, ?_, ?_, ?_, ?_⟩, ?_⟩
      · intro page listed
        rcases List.mem_append.mp listed with first | later
        · exact gathered.covered.answered page first
        · exact exact_.answered page later
      · rw [List.flatMap_append]
        refine List.nodup_append.mpr ⟨gathered.covered.sweeps.once, exact_.once, ?_⟩
        rintro key first _ later rfl
        -- A key of this part and of a later one would have two owners.
        obtain ⟨other, listed, named⟩ := owned key later
        have same := Option.some.inj ((gathered.covered.owned key first).symm.trans named)
        exact fresh (List.mem_map.mpr ⟨other, listed, same.symm⟩)
      · rintro key ⟨lasts, other, listed, named⟩
        rw [List.flatMap_append]
        rcases List.mem_cons.mp listed with rfl | later
        · exact List.mem_append_left _ (gathered.covered.sweeps.all key ⟨lasts, named⟩ rfl (Nat.zero_le _)
            (Nat.lt_succ_of_le (wide _ _)))
        · exact List.mem_append_right _ (exact_.all key ⟨lasts, other, later, named⟩)
      · rw [List.flatMap_append, List.flatMap_cons, gathered.keys, ← shown_filter_append]
        exact congrArg (_ ++ ·) exact_.keys
      · rw [List.flatMap_append, List.length_append, List.map_cons, List.sum_cons, gathered.count]
        exact congrArg (_ + ·) exact_.count
      · intro key listed
        rw [List.flatMap_append] at listed
        rcases List.mem_append.mp listed with first | later
        · exact ⟨member, by simp, gathered.covered.owned key first⟩
        · obtain ⟨other, present, named⟩ := owned key later
          exact ⟨other, by simp [present], named⟩

theorem finds_owners (wide : ∀ bytes seed, hashing.xxh3 bytes seed ≤ tokenMax)
    (sound : topology.Sound hashing) {holds : KeyspaceState → Prop}
    (walked : ∀ state, holds state → WalkedRun hashing topology lasting state)
    (client : HashringClient) (countOnly : Bool) (keep : Bytes → Bool) (maxBytes : Nat)
    (deadline : Instant) (attempt : Nat) :
    Finds hashing holds (client.walkOwners countOnly keep maxBytes deadline attempt topology)
      fun result =>
      ∀ last, result = .inr last → ∃ pages, WalkExact hashing topology lasting holds countOnly keep
          pages last := by
  let owners := topology.members.filter fun member => topology.assignments.any (·.nodeId = member.nodeId)
  have joined : Finds hashing holds (tryJoinAll ((ownerEndpoints topology).map fun endpoint =>
      client.walkOwner countOnly keep maxBytes endpoint topology.epoch deadline)) fun parts =>
        List.Forall₂ (fun (member : Member) part => ∃ pages,
          Gathered hashing topology lasting holds member.nodeId countOnly keep
              (tokenMax + 1) pages part) owners parts := by
    have each : ∀ (index : Nat) task, ((ownerEndpoints topology).map fun endpoint =>
        client.walkOwner countOnly keep maxBytes endpoint topology.epoch deadline)[index]? = some task →
        Finds hashing holds task fun part => ∀ member : Member, owners[index]? = some member → ∃ pages,
          Gathered hashing topology lasting holds member.nodeId countOnly keep
              (tokenMax + 1) pages part := by
      intro index task found
      rw [ownerEndpoints, List.map_map, List.getElem?_map] at found
      obtain ⟨member, present, rfl⟩ := Option.map_eq_some_iff.mp found
      have listed : member ∈ topology.members := List.mem_of_mem_filter (List.mem_of_getElem? present)
      refine returns_weaken (finds_owner wide sound walked client countOnly keep maxBytes listed
        deadline) ?_
      intro part gathered other same
      exact Option.some.inj (present.symm.trans same) ▸ gathered
    refine returns_weaken (returns_join each) fun parts ⟨count, good⟩ => ?_
    refine List.forall₂_iff_get.mpr ⟨by simpa [ownerEndpoints, owners] using count.symm,
      fun index below inside => ?_⟩
    exact good index _ (List.getElem?_eq_getElem inside) _ (List.getElem?_eq_getElem below)
  refine returns_bind (finds_result joined) fun result reached => ?_
  split
  · rename_i parts
    refine returns_pure fun last same => ?_
    obtain rfl := Sum.inr.inj same
    have distinct : (owners.map (·.nodeId)).Nodup := sound.distinct.sublist (List.filter_sublist.map _)
    obtain ⟨pages, found, -⟩ := parts_joined wide distinct (reached parts rfl)
    refine ⟨pages, found.answered, found.once, fun key lasts => found.all key ⟨lasts, ?_⟩,
      found.keys, found.count⟩
    -- The key's owner is a member with an assignment, so it was walked.
    obtain ⟨owner, listed, routed, -⟩ := sound.owner_for_token (topology.keyToken hashing key)
    obtain ⟨assignment, present, named⟩ :=
      (sound.mem_assignments owner.nodeId).mpr (List.mem_map_of_mem listed)
    have owning : topology.assignments.any (·.nodeId = owner.nodeId) = true :=
      List.any_eq_true.mpr ⟨assignment, present, by simpa using named⟩
    exact ⟨owner, List.mem_filter.mpr ⟨listed, owning⟩, TopologySnapshot.owner_for_token_owner_id routed⟩
  · exact returns_throw
  · exact returns_bind (finds_anything _) fun _ _ => returns_pure fun _ same => absurd same (by simp)

/-! Attempts. -/

variable (hashing) in
structure FinalAttempt (client : HashringClient) (countOnly : Bool) (keep : Bytes → Bool) (maxBytes : Nat)
    (passed attempt : List KeyspaceState) (topology : TopologySnapshot)
    (result : List Bytes × Nat) : Prop where
  last : ∃ before, passed = before ++ attempt
  round : ∃ deadline number state later,
    (client.walkRound countOnly keep maxBytes deadline number).run.Ran
    (fun effect => effect.Served hashing) state attempt (.ok (.inr result)) later
  read : attempt.head?.map (·.inner.topology) = some topology

theorem round_exact (wide : ∀ bytes seed, hashing.xxh3 bytes seed ≤ tokenMax)
    {client : HashringClient} {countOnly : Bool} {keep : Bytes → Bool} {maxBytes : Nat}
    {deadline : Instant} {number : Nat} {state later : KeyspaceState} {attempt : List KeyspaceState}
    {result : List Bytes × Nat}
    (ran : (client.walkRound countOnly keep maxBytes deadline number).run.Ran
      (fun effect => effect.Served hashing) state attempt
      (.ok (.inr result)) later) :
    ∃ topology, attempt.head?.map (·.inner.topology) = some topology ∧
      (topology.Sound hashing → ∀ lasting, (∀ seen ∈ attempt, WalkedRun hashing topology lasting seen) →
        ∃ pages, WalkExact hashing topology lasting (· ∈ attempt) countOnly keep pages result) := by
  obtain ⟨topology, middle, early, late, read, walked, rfl⟩ := ran_then ran
  obtain ⟨seen, answer, after, rest, ⟨rfl, rfl⟩, ⟨same, rfl, rfl⟩, rfl⟩ := read
  obtain rfl := Except.ok.inj same
  refine ⟨seen.inner.topology, rfl, fun sound lasting all => ?_⟩
  have ends : (client.walkOwners countOnly keep maxBytes deadline number seen.inner.topology).run.Ends
      (fun effect => effect.Handled hashing (· ∈ [seen, seen] ++ late))
        (Drifts (· ∈ [seen, seen] ++ late)) seen
      (.ok (.inr result)) later :=
    ran_ends walked (by simp) fun state member => List.mem_append_right _ member
  exact ends_finds (finds_owners wide sound all client countOnly keep maxBytes deadline number)
    (by simp) ends result rfl

theorem walk_attempt (wide : ∀ bytes seed, hashing.xxh3 bytes seed ≤ tokenMax)
    {client : HashringClient} {countOnly : Bool}
    {keep : Bytes → Bool} {maxBytes : Nat} {state later : KeyspaceState}
    {passed : List KeyspaceState} {result : List Bytes × Nat}
    (ran : (client.walk countOnly keep maxBytes).run.Ran (fun effect => effect.Served hashing) state
      passed (.ok result) later) :
    ∃ attempt topology, FinalAttempt hashing client countOnly keep maxBytes passed attempt topology
      result ∧
      (topology.Sound hashing → ∀ lasting, (∀ seen ∈ attempt, WalkedRun hashing topology lasting seen) →
        ∃ pages, WalkExact hashing topology lasting (· ∈ attempt) countOnly keep pages result) := by
  obtain ⟨now, middle, early, late, -, looped, rfl⟩ := ran_then ran
  obtain ⟨number, begun, before, attempt, round, rfl⟩ := ran_loop looped
  obtain ⟨topology, read, pages⟩ := round_exact wide round
  exact ⟨attempt, topology, ⟨⟨early ++ before, by simp⟩, ⟨_, number, begun, later, round⟩, read⟩, pages⟩

end Walk

/-- A walk that succeeds is exact for the topology its final attempt was made at:
its pages are of one epoch, each from the owner of what it lists, no key is listed
twice, and every key that stayed live at its owner is listed. -/
theorem whole_walk_exact (hashing : Hashing)
    (wide : ∀ bytes seed, hashing.xxh3 bytes seed ≤ tokenMax) (client : HashringClient)
    (state later : KeyspaceState) (passed : List KeyspaceState) :
    (∀ keep maxBytes keys,
      (client.keys keep maxBytes).run.Ran (fun effect => effect.Served hashing) state passed
        (.ok keys) later →
      ∃ attempt topology count, FinalAttempt hashing client false keep maxBytes passed attempt
        topology (keys, count) ∧
        ∀ digestOf, topology.validate hashing digestOf = .ok () →
        ∀ lasting, (∀ seen ∈ attempt, WalkedRun hashing topology lasting seen) →
          ∃ pages : List UsedPage, (∀ page ∈ pages, page.Answered hashing topology (· ∈ attempt)) ∧
            keys = (pages.flatMap UsedPage.listed).filter keep ∧ keys.Nodup ∧
            ∀ key, lasting key → keep key = true → keys.count key = 1) ∧
    (∀ count, client.keyCount.run.Ran (fun effect => effect.Served hashing) state passed
      (.ok count) later →
      ∃ attempt topology gathered, FinalAttempt hashing client true (fun _ => true) 0 passed attempt
        topology (gathered, count) ∧
        ∀ digestOf, topology.validate hashing digestOf = .ok () →
        ∀ lasting, (∀ seen ∈ attempt, WalkedRun hashing topology lasting seen) →
          ∃ pages : List UsedPage, (∀ page ∈ pages, page.Answered hashing topology (· ∈ attempt)) ∧
            count = (pages.flatMap UsedPage.listed).length ∧ (pages.flatMap UsedPage.listed).Nodup ∧
            ∀ key, lasting key → (pages.flatMap UsedPage.listed).count key = 1) := by
  constructor
  · intro keep maxBytes keys ran
    obtain ⟨⟨found, count⟩, middle, early, late, walked, ⟨same, rfl, rfl⟩, rfl⟩ := ran_then ran
    obtain rfl : keys = found := Except.ok.inj same
    obtain ⟨attempt, topology, final, exact_⟩ := walk_attempt wide walked
    refine ⟨attempt, topology, count, by simpa using final, fun digestOf valid lasting all => ?_⟩
    obtain ⟨pages, walk⟩ := exact_ (TopologySnapshot.validate_sound valid) lasting all
    have listed : keys = (pages.flatMap UsedPage.listed).filter keep := walk.keys
    -- Filtered or not, no key was listed twice.
    have once : keys.Nodup := listed ▸ walk.once.filter keep
    refine ⟨pages, walk.answered, listed, once, fun key lasts kept => ?_⟩
    exact List.count_eq_one_of_mem once (listed ▸ List.mem_filter.mpr ⟨walk.all key lasts, kept⟩)
  · intro count ran
    obtain ⟨⟨gathered, counted⟩, middle, early, late, walked, ⟨same, rfl, rfl⟩, rfl⟩ := ran_then ran
    obtain rfl : count = counted := Except.ok.inj same
    obtain ⟨attempt, topology, final, exact_⟩ := walk_attempt wide walked
    refine ⟨attempt, topology, gathered, by simpa using final, fun digestOf valid lasting all => ?_⟩
    obtain ⟨pages, walk⟩ := exact_ (TopologySnapshot.validate_sound valid) lasting all
    refine ⟨pages, walk.answered, walk.count, walk.once, fun key lasts => ?_⟩
    exact List.count_eq_one_of_mem walk.once (walk.all key lasts)

namespace ScanSample

/-- A key that fills a page of a walk. -/
def long : Bytes := List.replicate (2 ^ 20) (byte 1)

/-- What the first node has besides the long key; it no longer owns one of them. -/
def others : List Bytes := [[byte 5], [byte 2], [byte 1, byte 2], [byte 3]]

def walkNodes : DataNodes := cluster (node "a" joined (others ++ [long]))
    (node "b" joined [[byte 2], [byte 6]])

def stored : NodeState := holding joined (others ++ [long])

def firstPage : ListKeysResponse := { keys := [long], count := 1, nextToken := 55, currentEpoch := 2 }

def answers (endpoint : String) (request : ListKeysRequest) : Option (Except Status ListKeysResponse) :=
  if endpoint = first ∧ request = .ofWalk 2 false 0 then some (.ok firstPage) else ask walkNodes
    endpoint request

theorem long_stored : stored.records.lookup long = some record := by
  rw [stored, holding, List.foldl_append, List.foldl_cons, List.foldl_nil,
    NodeState.lookup_insert_record, if_pos rfl]

theorem long_alone : stored.recordsByToken.valuesAt 40 = [long] := by
  have one : (stored.recordsByToken.valuesAt 40).length = 1 := by decide +kernel
  have placed : 40 = stored.tokenOf hashing long := by decide +kernel
  have present : long ∈ stored.records := AList.lookup_isSome.mp (by rw [long_stored]; rfl)
  have entry := (TokenIndex.mem_entries _ 40 long).mpr
      ((holding_indexed joined (others ++ [long]) 40 long).mpr ⟨placed, present⟩)
  obtain ⟨only, listed⟩ := List.length_eq_one_iff.mp one
  have member : long ∈ stored.recordsByToken.valuesAt 40 :=
    List.mem_map.mpr ⟨(40, long), List.mem_filter.mpr ⟨entry, by simp⟩, rfl⟩
  rw [listed] at member ⊢
  rw [List.mem_singleton.mp member]

theorem long_page : stored.ownedKeysPage "a" 0 (ListKeysRequest.ofWalk 2 false 0).limits 0 =
    { keys := [long], count := 1, next := some 55 } := by
  have segment : stored.topology.segmentAt 0 = some (57, "a") := by decide +kernel
  have tokens : stored.recordsByToken.tokensIn 0 57 = [40, 55] := by decide +kernel
  have live : stored.isLive 0 long = true := by
    rw [NodeState.isLive, long_stored]
    rfl
  have taken : stored.takeSegment "a" 0 (ListKeysRequest.ofWalk 2 false 0).limits { examined := 1 }
      0 57 "a" = ({ examined := 2, bytes := 2 ^ 20, page := { keys := [long], count := 1 } },
          some 55) := by
    have length : long.length = 2 ^ 20 := List.length_replicate
    have open_ : (ListKeysRequest.ofWalk 2 false 0).limits.reached { examined := 1 } = false :=
      by decide +kernel
    have full : (ListKeysRequest.ofWalk 2 false 0).limits.reached
        { examined := 2, bytes := 2 ^ 20, page := { keys := [long], count := 1 } } = true :=
          by decide +kernel
    have plain : (ListKeysRequest.ofWalk 2 false 0).limits.countOnly = false := rfl
    rw [NodeState.takeSegment, if_pos rfl, tokens, NodeState.takeTokens, long_alone,
      if_neg (by simp [open_])]
    simp only [List.foldl_cons, List.foldl_nil, NodeState.examine, live, length, plain,
      Bool.false_eq_true, if_false, if_true,
      Nat.zero_add, List.nil_append, Nat.reduceAdd]
    rw [NodeState.takeTokens, if_pos full]
  rw [NodeState.ownedKeysPage, NodeState.pageFrom]
  split
  · rename_i none_
    exact absurd (segment.symm.trans none_) (by simp)
  · rename_i segmentEnd owner found
    obtain ⟨rfl, rfl⟩ : 57 = segmentEnd ∧ "a" = owner := by simpa [segment] using found
    simp only [taken, Nat.zero_add, ne_eq, not_true_eq_false, false_and, if_false]

theorem honest (endpoint : String) (request : ListKeysRequest) :
    answers endpoint request = ask walkNodes endpoint request := by
  unfold answers
  split
  · rename_i here
    obtain ⟨rfl, rfl⟩ := here
    have accepted : refuseListing (node "a" joined (others ++ [long])).config stored 0
        (.ofWalk 2 false 0) = .ok none := by decide +kernel
    have epoch : stored.topology.epoch = 2 := congrArg _ (holding_topology _ _)
    have current : (ListKeysRequest.ofWalk 2 false 0).topologyEpoch ≤
        (node "a" joined (others ++ [long])).process.state.topology.epoch := epoch.ge
    have settled : ((node "a" joined (others ++ [long])).listKeys hashing (.error "unreachable")
        (.ofWalk 2 false 0)).2 =
        answerListing (node "a" joined (others ++ [long])).config stored 0 0 (.ofWalk 2 false 0) := by
      simp only [DataNode.listKeys, refreshIfNewer]
      rw [if_pos current]
      rfl
    have page : answerListing (node "a" joined (others ++ [long])).config stored 0 0
        (.ofWalk 2 false 0) = .ok firstPage := by
      rw [answerListing, accepted]
      show Except.ok (listingOf _ (stored.ownedKeysPage "a" 0 _ 0)) = _
      rw [long_page, epoch]
      rfl
    exact (congrArg some (settled.trans page)).symm
  · rfl

def walked : Option (List KeyspaceState × Except ClientError (List Bytes) × KeyspaceState) :=
  (client.keys (fun _ => true) 1000).run.trace (fun effect => serve answers effect)
    ((List.range 200).map (200 + ·))
    ⟨inner, walkNodes⟩

theorem walk_listed : walked.map
    (fun run => (run.1.all fun seen => seen.inner.topology = alone ∨ seen.inner.topology = joined,
    run.2.1.map fun keys => keys.map List.head?)) =
    some (true, .ok [some (byte 1), some (byte 5), some (byte 1), some (byte 3), some (byte 2),
      some (byte 6)]) := by
  decide +kernel

theorem joined_valid : joined.validate hashing (fun _ => "") = .ok () :=
  JoinSample.topology_valid _ _ _ _ (by decide) (by decide +kernel) (by decide) rfl

theorem alone_valid : alone.validate hashing (fun _ => "") = .ok () :=
  JoinSample.topology_valid _ _ _ _ (by decide) (by decide +kernel) (by decide) rfl

/-- The keys that are live throughout, each at its owner. -/
def lasting : List Bytes := long :: [[byte 5], [byte 1, byte 2], [byte 3], [byte 2], [byte 6]]

theorem walk_nodes_found {endpoint : String} {found : DataNode}
    (present : walkNodes endpoint = some found) :
    (endpoint = first ∧ found = node "a" joined (others ++ [long])) ∨
      (endpoint = second ∧ found = node "b" joined [[byte 2], [byte 6]]) := by
  unfold walkNodes cluster at present
  split at present
  · exact .inl ⟨by assumption, (Option.some.inj present).symm⟩
  · split at present
    · exact .inr ⟨by assumption, (Option.some.inj present).symm⟩
    · exact absurd present (by simp)

theorem first_live (key : Bytes) (lasts : key ∈ lasting)
    (owned : joined.ownerId (joined.keyToken hashing key) = some "a") :
    stored.isLive 0 key = true := by
  rcases List.mem_cons.mp lasts with rfl | short
  · rw [NodeState.isLive, long_stored]
    rfl
  · revert key
    decide +kernel

theorem second_live (key : Bytes) (lasts : key ∈ lasting)
    (owned : joined.ownerId (joined.keyToken hashing key) = some "b") :
    (holding joined [[byte 2], [byte 6]]).isLive 0 key = true := by
  rcases List.mem_cons.mp lasts with rfl | short
  · exact absurd owned (by decide +kernel)
  · revert key
    decide +kernel

theorem walked_node {topology : TopologySnapshot} (either : topology = alone ∨ topology = joined)
    {nodeId : String}
    {held : List Bytes} (live : ∀ key ∈ lasting, joined.ownerId (joined.keyToken hashing key) =
      some nodeId →
      (holding joined held).isLive 0 key = true) : WalkedNode hashing topology (· ∈ lasting)
        (node nodeId joined held) where
  indexed := holding_indexed joined held
  agreed same := by
    rcases either with rfl | rfl
    · exact absurd ((congrArg _ (holding_topology joined held)).symm.trans same) (by decide)
    · exact holding_topology joined held
  live key lasts same owns := by
    obtain rfl : joined = topology := (holding_topology joined held).symm.trans same
    exact live key lasts (holding_topology joined held ▸ owns_owner_id owns)

theorem walked_run {topology : TopologySnapshot} (either : topology = alone ∨ topology = joined)
    {state : KeyspaceState}
    (unchanged : state.nodes = walkNodes) : WalkedRun hashing topology (· ∈ lasting) state := by
  refine ⟨fun endpoint found present => ?_, fun member listed found present => ?_⟩
  · rw [unchanged] at present
    rcases walk_nodes_found present with ⟨-, rfl⟩ | ⟨-, rfl⟩
    · exact walked_node either first_live
    · exact walked_node either second_live
  · rw [unchanged] at present
    have members : member ∈ joined.members := by
      rcases either with rfl | rfl
      · exact List.mem_cons.mpr (.inl (List.mem_singleton.mp listed))
      · exact listed
    have named : ∀ member ∈ joined.members,
        (member.endpoint = first → "a" = member.nodeId) ∧
          (member.endpoint = second → "b" = member.nodeId) := by decide
    rcases walk_nodes_found present with ⟨here, rfl⟩ | ⟨here, rfl⟩
    · exact (named member members).1 here
    · exact (named member members).2 here

/-- A walk that begins with a topology that is out of date, and starts over. Its final
attempt reads two pages from one owner and one from the other. -/
theorem walk_exact_two_owners : ∃ passed later keys, (client.keys (fun _ => true) 1000).run.Ran
      (fun effect => effect.Served hashing) ⟨inner, walkNodes⟩ passed (.ok keys) later ∧
    keys.map List.head? = [some (byte 1), some (byte 5), some (byte 1), some (byte 3),
      some (byte 2), some (byte 6)] ∧
    (∃ pages : List UsedPage, keys = (pages.flatMap UsedPage.listed).filter (fun _ => true) ∧
      ∀ page ∈ pages, page.node.process.state.topology = joined) ∧
    ∀ key ∈ lasting, keys.count key = 1 := by
  have wide : ∀ bytes seed, hashing.xxh3 bytes seed ≤ tokenMax :=
    fun _ _ => (Nat.mod_lt _ (by decide : 0 < 100)).le.trans (by decide)
  obtain ⟨⟨passed, result, later⟩, traced, same⟩ := Option.map_eq_some_iff.mp walk_listed
  obtain ⟨read, ended⟩ := Prod.mk.inj same
  obtain ⟨keys, rfl, heads⟩ : ∃ keys, result = .ok keys ∧ keys.map List.head? = _ := by
    cases result with
    | error error => exact absurd ended (by simp [Except.map])
    | ok keys => exact ⟨keys, rfl, Except.ok.inj ended⟩
  obtain ⟨ran, unchanged⟩ := trace_ran (fun effect state => served honest effect state) rfl traced
  obtain ⟨attempt, topology, count, final, exact_⟩ :=
    (whole_walk_exact hashing wide client ⟨inner, walkNodes⟩ later passed).1 _ 1000 keys ran
  obtain ⟨start, rfl⟩ := final.last
  obtain ⟨seen, head, cached⟩ := Option.map_eq_some_iff.mp final.read
  have inside : seen ∈ start ++ attempt := List.mem_append_right _ (List.mem_of_head? head)
  have either : topology = alone ∨ topology = joined :=
    cached ▸ of_decide_eq_true (List.all_eq_true.mp read seen inside)
  have valid : topology.validate hashing (fun _ => "") = .ok () := by
    rcases either with rfl | rfl
    · exact alone_valid
    · exact joined_valid
  obtain ⟨pages, answered, listed, -, once⟩ := exact_ _ valid (· ∈ lasting)
    fun seen member => walked_run either (unchanged seen (List.mem_append_right _ member))
  refine ⟨_, later, keys, ran, heads, ⟨pages, listed, fun page used => ?_⟩, fun key lasts =>
    once key lasts rfl⟩
  obtain ⟨state, endpoint, met, found⟩ := (answered page used).met
  rw [unchanged state (List.mem_append_right _ met)] at found
  rcases walk_nodes_found found with ⟨-, here⟩ | ⟨-, here⟩
  · rw [here]
    exact holding_topology _ _
  · rw [here]
    exact holding_topology _ _

end ScanSample

end Hashring
