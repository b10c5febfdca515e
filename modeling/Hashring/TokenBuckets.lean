import Hashring.StoreSections
import Hashring.KeyPages

/-! How many keys a token holds on a node. `put` refuses a new key at a full token;
a tombstone of an absent key, a replication entry and a committed range are stored
without that test. -/
namespace Hashring

theorem TokenIndex.len_at_values {α : Type} [LinearOrder α] (index : TokenIndex α) (token : Token) :
    index.lenAt token = (index.valuesAt token).length := by
  simp only [TokenIndex.lenAt, TokenIndex.valuesAt, TokenIndex.entries, List.length_map, List.filter_map,
    List.countP_eq_length_filter]
  rfl

theorem TokenIndex.mem_values_at {α : Type} [LinearOrder α] (index : TokenIndex α) (token : Token)
    (value : α) :
    value ∈ index.valuesAt token ↔ toLex (token, value) ∈ index := by
  rw [← TokenIndex.mem_entries]
  constructor
  · intro member
    obtain ⟨⟨place, other⟩, listed, rfl⟩ := List.mem_map.mp member
    obtain ⟨stored, here⟩ := List.mem_filter.mp listed
    obtain rfl := of_decide_eq_true here
    exact stored
  · intro stored
    exact List.mem_map.mpr ⟨_, List.mem_filter.mpr ⟨stored, decide_eq_true rfl⟩, rfl⟩

theorem TokenIndex.values_at_nodup {α : Type} [LinearOrder α] (index : TokenIndex α) (token : Token) :
    (index.valuesAt token).Nodup := by
  have entries : index.entries.Nodup := index.sorted.nodup.map ofLex.injective
  refine List.Nodup.map_on ?_ (entries.filter _)
  intro left leftMember right rightMember same
  have here := of_decide_eq_true (List.mem_filter.mp leftMember).2
  have there := of_decide_eq_true (List.mem_filter.mp rightMember).2
  exact Prod.ext (here.trans there.symm) same

namespace NodeState

variable (hashing : Hashing)

def TokensBounded (state : NodeState) : Prop := ∀ token, state.recordsByToken.lenAt token ≤
    maxKeysPerToken

def newAt (state : NodeState) (keys : List Bytes) (token : Token) : List Bytes :=
  keys.dedup.filter fun key => key ∉ state.records ∧ state.tokenOf hashing key = token

/-- The test that `put` makes: the key is stored, or its token has room. -/
def RoomFor (state : NodeState) (key : Bytes) : Prop :=
  key ∈ state.records ∨ state.recordsByToken.lenAt (state.tokenOf hashing key) < maxKeysPerToken

def HasRoom (state : NodeState) (keys : List Bytes) : Prop :=
  ∀ token, state.recordsByToken.lenAt token + (state.newAt hashing keys token).length ≤ maxKeysPerToken

variable {hashing}

theorem mem_bucket {state : NodeState} (indexed : RecordsIndexed hashing state) (token : Token)
    (key : Bytes) :
    key ∈ state.recordsByToken.valuesAt token ↔ token = state.tokenOf hashing key ∧
      key ∈ state.records := by
  rw [TokenIndex.mem_values_at]
  exact indexed token key

theorem bounded_of_room {before after : NodeState} {keys : List Bytes}
    (room : before.HasRoom hashing keys) (indexed : RecordsIndexed hashing before)
    (still : RecordsIndexed hashing after)
    (seed : after.topology.hashSeed = before.topology.hashSeed)
    (within : ∀ key, key ∈ after.records → key ∈ before.records ∨ key ∈ keys) : after.TokensBounded := by
  intro token
  have tokens : ∀ key, after.tokenOf hashing key = before.tokenOf hashing key := by
    intro key
    simp only [tokenOf, TopologySnapshot.keyToken, seed]
  have subset : after.recordsByToken.valuesAt token ⊆
      before.recordsByToken.valuesAt token ++ before.newAt hashing keys token := by
    intro key member
    obtain ⟨here, stored⟩ := (mem_bucket still token key).mp member
    rw [tokens key] at here
    by_cases old : key ∈ before.records
    · exact List.mem_append_left _ ((mem_bucket indexed token key).mpr ⟨here, old⟩)
    · have added := (within key stored).resolve_left old
      exact List.mem_append_right _
        (List.mem_filter.mpr ⟨List.mem_dedup.mpr added, decide_eq_true ⟨old, here.symm⟩⟩)
  have counted := (List.subperm_of_subset (after.recordsByToken.values_at_nodup token) subset).length_le
  rw [List.length_append, ← TokenIndex.len_at_values, ← TokenIndex.len_at_values] at counted
  exact counted.trans (room token)

theorem room_of_bounded {state : NodeState} {key : Bytes} (bounded : state.TokensBounded)
    (room : state.RoomFor hashing key) : state.HasRoom hashing [key] := by
  intro token
  have full := bounded token
  by_cases fresh : key ∉ state.records ∧ state.tokenOf hashing key = token
  · have free := room.resolve_left fresh.1
    rw [fresh.2] at free
    simpa [newAt, fresh] using Nat.succ_le_of_lt free
  · simpa [newAt, fresh] using full

theorem room_nil {state : NodeState} (bounded : state.TokensBounded) : state.HasRoom hashing [] :=
  fun token => bounded token

end NodeState

def NodeEvent.brought : NodeEvent → List Bytes
  | .commit _ request _ => [request.key]
  | event => event.entries.map (·.key)

/-- Every stored key was stored before, or is one of these. -/
def KeysWithin (keys : List Bytes) (before after : NodeState) : Prop :=
  ∀ key, key ∈ after.records → key ∈ before.records ∨ key ∈ keys

namespace KeysWithin

variable {hashing : Hashing} {config : NodeConfig} {keys : List Bytes} {before after : NodeState}

theorem of_eq (same : after.records = before.records) : KeysWithin keys before after := by
  intro key stored
  rw [same] at stored
  exact .inl stored

theorem trans {first second third : NodeState} (early : KeysWithin keys first second)
    (late : KeysWithin keys second third) :
    KeysWithin keys first third := by
  intro key stored
  rcases late key stored with held | new
  · exact early key held
  · exact .inr new

theorem of_lookups (found : ∀ key record, after.records.lookup key = some record →
    (∃ old, before.records.lookup key = some old) ∨ key ∈ keys) : KeysWithin keys before after := by
  intro key stored
  obtain ⟨record, held⟩ := (FiniteMap.mem_iff_lookup _ _).mp stored
  rw [FiniteMap.mem_iff_lookup]
  exact found key record held

theorem apply_record {key : Bytes} (listed : key ∈ keys) (state : NodeState) (record : Record) :
    KeysWithin keys state (state.applyRecord hashing key record) := by
  apply of_lookups
  intro probe other found
  rw [NodeState.lookup_apply_record] at found
  split at found
  · rename_i here
    exact .inr (here.1 ▸ listed)
  · exact .inl ⟨other, found⟩

theorem remove_keys (removed : List (Token × Bytes)) (state : NodeState) :
    KeysWithin keys state (removed.foldl (fun state entry => state.removeRecordAt entry.1 entry.2)
      state) := by
  apply of_lookups
  intro probe record found
  rw [(remove_keys_fold removed state).2] at found
  split at found
  · exact absurd found (by simp)
  · exact .inl ⟨record, found⟩

theorem remove_source (key : RangeKey) (state : NodeState) :
    KeysWithin keys state (state.removeSource key) := by
  apply of_eq
  unfold NodeState.removeSource
  split <;> rfl

theorem write {clock : Clock} {request : WriteRequest} {ready : Readiness} {plan : WritePlan}
    {entries : List PreparedReplication} {prepared : NodeState} (listed : request.key ∈ keys)
    (stored : StoredWrite hashing config clock before after request ready plan entries prepared) :
    KeysWithin keys before after := by
  have key : plan.key = request.key := by
    cases stored.planned with
    | put key => exact key
    | delete key => exact key
  obtain ⟨_, _, numbered⟩ := prepare_frame _ _ _ _ stored.fanned
  have records := (store_write_effect hashing clock prepared plan
    (plan.record (WritePlan.version config before)) ready.token
    ready.followers entries).records
  rw [← stored.result, numbered] at records
  apply of_lookups
  intro probe record found
  rw [records probe] at found
  split at found
  · rename_i here
    rw [here.1, key]
    exact .inr listed
  · exact .inl ⟨record, found⟩

theorem range {operation : RangeOperation}
    (uncommitted : ∀ clock key, operation ≠ .commitDestination clock key)
    (step : RangeSection hashing config before operation after) : KeysWithin keys before after := by
  cases step with
  | kept same => exact of_eq same.records
  | refused clock key => exact absurd rfl (uncommitted clock key)
  | committed clock key => exact absurd rfl (uncommitted clock key)
  | source | paused | destination | batch | receipts | activated => exact of_eq rfl
  | cleaned key source => exact (remove_keys _ before).trans (remove_source key _)
  | aborted key => exact (remove_source key before).trans (of_eq rfl)
  | cleared epoch =>
      have released := remove_sources_rule (fun state => (of_eq rfl : KeysWithin keys state state))
        trans remove_source
        (before.sources.keys.filter fun key => NodeState.isRepairId key.changeId) before
      exact released.trans (of_eq rfl)

end KeysWithin

theorem handle_keys (hashing : Hashing) (config : NodeConfig) (process : NodeProcess) (event : NodeEvent)
    (uncommitted : ∀ clock key, event ≠ .range (.commitDestination clock key)) :
    KeysWithin event.brought process.state (process.handle hashing config event).state := by
  refine handle_rule (?_ : StoreRule hashing config process.state event (KeysWithin event.brought))
  exact {
    refl := fun _ => .of_eq rfl
    trans := KeysWithin.trans
    stores := fun _ _ same => .of_eq same.records
    purge := fun now before => by
      obtain ⟨_, _, _, _, _, _, _, _, _, only⟩ := purge_expired_only hashing before now
      exact .of_eq (by rw [only])
    write := fun clock request ready same after plan entries prepared stored => by
      subst same
      exact .write List.mem_cons_self stored
    acks := by
      intro id version before
      obtain ⟨_, _, frame⟩ := complete_required_acks_frame before id version
      exact .of_eq (by rw [frame])
    entry := by
      intro clock entry delivered before record _ _
      have listed : entry.key ∈ event.brought := by
        cases event with
        | replicate | replicateBatch => exact List.mem_map_of_mem delivered
        | commit | finishAcks | checkpoint | range | sweep | install | refresh | renewed |
            pausePolicy | resumePolicy | collect
          | send | answered => exact absurd delivered (by simp [NodeEvent.entries])
      exact (KeysWithin.apply_record listed before record).trans
        (.of_eq (accept_entry_records hashing clock before entry record))
    range := fun operation same after step =>
      .range (fun clock key other => uncommitted clock key (same.trans (by rw [other]))) step
    sweep := fun _ _ _ entry before _ _ => .of_lookups fun key record found =>
      .inl ⟨record, (sweep_entry_swept hashing before entry).subset key record found⟩
    release := KeysWithin.remove_source
    unprepare := fun _ _ _ => .of_eq rfl
    adopt := by
      intro topology _ _ before _
      unfold NodeState.setTopology
      split <;> exact .of_eq rfl }

section Moves

variable {hashing : Hashing} {config : NodeConfig}

def DestinationMigration.Inside (hashing : Hashing) (hashSeed : Nat)
    (destination : DestinationMigration) : Prop :=
  ∀ key, key ∈ destination.records → destination.range.contains (keyToken hashing key hashSeed) = true

theorem stage_record_keys {records staged : FiniteMap Bytes Record} {sent : MigrationRecord}
    (accepted : stageRecord records sent = .ok staged) (key : Bytes) (stored : key ∈ staged) :
    key ∈ records ∨ key = sent.key := by
  unfold stageRecord at accepted
  split at accepted
  · exact absurd accepted (by simp)
  · split at accepted
    · exact absurd accepted (by simp)
    · rw [← Except.ok.inj accepted] at stored
      unfold applyInternalRecord at stored
      split at stored
      · exact ((AList.mem_insert _).mp stored).symm
      · split at stored
        · exact ((AList.mem_insert _).mp stored).symm
        · exact .inl stored

theorem inside_closed (topology : TopologySnapshot) :
    StagingClosed hashing config topology (DestinationMigration.Inside hashing topology.hashSeed) where
  purge destination now inside := inside
  receipt destination staged record now inside accepted := by
    obtain ⟨_, _, rfl⟩ := stage_dedup_frame _ _ _ _ _ _ accepted
    exact inside
  record destination sent records inside here accepted := by
    intro key stored
    rcases stage_record_keys accepted key stored with old | rfl
    · exact inside key old
    · exact here
  advance destination inside := inside

def DestinationMigration.stagedAt (hashing : Hashing) (topology : TopologySnapshot)
    (destination : DestinationMigration)
    (token : Token) : List Bytes :=
  destination.records.keys.filter fun key => topology.keyToken hashing key = token

theorem commit_range_bounded {state : NodeState} {clock : Clock} {key : RangeKey}
    {destination : DestinationMigration} (bounded : state.TokensBounded)
    (indexed : NodeState.RecordsIndexed hashing state)
    (still : NodeState.RecordsIndexed hashing (commitRange hashing clock state key destination))
    (inside : destination.Inside hashing state.topology.hashSeed)
    (fits : ∀ token, (destination.stagedAt hashing state.topology token).length ≤ maxKeysPerToken) :
    (commitRange hashing clock state key destination).TokensBounded := by
  have topology := commit_range_topology hashing clock state key destination
  have lookups := commit_range_lookup hashing clock state key destination indexed inside
  intro token
  rw [TokenIndex.len_at_values]
  have nodup := (commitRange hashing clock state key destination).recordsByToken.values_at_nodup token
  have placed : ∀ probe, probe ∈ (commitRange hashing clock state key
      destination).recordsByToken.valuesAt token →
      token = state.tokenOf hashing probe ∧ ∃ record,
        (commitRange hashing clock state key destination).records.lookup probe =
        some record := by
    intro probe member
    obtain ⟨here, stored⟩ := (NodeState.mem_bucket still token probe).mp member
    rw [NodeState.tokenOf, topology] at here
    exact ⟨here, (FiniteMap.mem_iff_lookup _ _).mp stored⟩
  by_cases covered : destination.range.contains token = true
  · refine le_trans (List.subperm_of_subset nodup ?_).length_le (fits token)
    intro probe member
    obtain ⟨here, record, found⟩ := placed probe member
    rw [lookups probe, ← here, if_pos covered] at found
    have staged : probe ∈ destination.records := (FiniteMap.mem_iff_lookup _ _).mpr ⟨record, found⟩
    exact List.mem_filter.mpr ⟨AList.mem_keys.mp staged, decide_eq_true here.symm⟩
  · refine le_trans (List.subperm_of_subset nodup ?_).length_le
      (le_of_eq_of_le (state.recordsByToken.len_at_values token).symm
      (bounded token))
    intro probe member
    obtain ⟨here, record, found⟩ := placed probe member
    rw [lookups probe, ← here, if_neg covered] at found
    exact (NodeState.mem_bucket indexed token probe).mpr
      ⟨here, (FiniteMap.mem_iff_lookup _ _).mpr ⟨record, found⟩⟩

end Moves

section Pages

def keyBytes (keys : List Bytes) : Nat := (keys.map List.length).sum

structure Overshoots (limits : PageLimits) (page : KeyPage) : Prop where
  keys : page.keys = [] ∨ ∃ early late, page.keys = early ++ late ∧ late.length ≤ maxKeysPerToken ∧
    early.length < limits.maxKeys ∧ keyBytes early < limits.maxBytes
  count : page.count = 0 ∨ page.count < limits.maxKeys + maxKeysPerToken

/-- What the loop knows of the page so far. -/
structure Paging.Counted (limits : PageLimits) (paging : Paging) : Prop where
  bytes : paging.bytes = keyBytes paging.page.keys
  count : paging.page.keys.length ≤ paging.page.count
  page : Overshoots limits paging.page

variable {state : NodeState} {unixMillis : Nat} {limits : PageLimits}

theorem examine_bytes (countOnly : Bool) (keys : List Bytes) (paging : Paging)
    (bytes : paging.bytes = keyBytes paging.page.keys) :
    (keys.foldl (state.examine unixMillis countOnly) paging).bytes =
      keyBytes (keys.foldl (state.examine unixMillis countOnly) paging).page.keys := by
  induction keys generalizing paging with
  | nil => exact bytes
  | cons key rest ih =>
      apply ih
      unfold NodeState.examine
      simp only
      split
      · cases countOnly with
        | true => exact bytes
        | false => simp [keyBytes, bytes]
      · exact bytes

theorem bucket_counted (bounded : state.TokensBounded) {paging : Paging} (counted : paging.Counted limits)
    (under : limits.reached paging = false) (token : Token) :
    ((state.recordsByToken.valuesAt token).foldl (state.examine unixMillis limits.countOnly)
      paging).Counted limits := by
  have grows := state.bucket_grows unixMillis limits.countOnly (state.recordsByToken.valuesAt token)
      paging
  have few : ((state.recordsByToken.valuesAt token).filter (state.isLive unixMillis)).length ≤
      maxKeysPerToken := by
    refine le_trans (List.length_filter_le _ _) ?_
    rw [← TokenIndex.len_at_values]
    exact bounded token
  have shown : (NodeState.shown limits.countOnly ((state.recordsByToken.valuesAt token).filter
      (state.isLive unixMillis))).length ≤
          ((state.recordsByToken.valuesAt token).filter (state.isLive unixMillis)).length := by
    unfold NodeState.shown
    split
    · exact Nat.zero_le _
    · exact le_refl _
  simp only [PageLimits.reached, Bool.or_eq_false_iff, decide_eq_false_iff_not, not_le] at under
  obtain ⟨⟨_, keysLeft⟩, bytesLeft⟩ := under
  refine ⟨examine_bytes limits.countOnly _ paging counted.bytes, ?_, ?_, ?_⟩
  · rw [grows.keys, grows.count, List.length_append]
    exact Nat.add_le_add counted.count shown
  · refine .inr ⟨paging.page.keys, _, grows.keys, le_trans shown few,
      lt_of_le_of_lt counted.count keysLeft, ?_⟩
    rw [← counted.bytes]
    exact bytesLeft
  · rw [grows.count]
    exact .inr (Nat.add_lt_add_of_lt_of_le keysLeft few)

theorem take_tokens_counted (bounded : state.TokensBounded) (tokens : List Token) {paging : Paging}
    (counted : paging.Counted limits) : (state.takeTokens unixMillis limits paging tokens).1.Counted
      limits := by
  induction tokens generalizing paging with
  | nil => exact counted
  | cons token rest ih =>
      unfold NodeState.takeTokens
      split
      · exact counted
      · rename_i under
        exact ih (bucket_counted bounded counted (Bool.not_eq_true _ ▸ under) token)

theorem page_from_overshoots (bounded : state.TokensBounded) (nodeId : String) (paging : Paging)
    (position : Token)
    (counted : paging.Counted limits) :
    Overshoots limits (state.pageFrom nodeId unixMillis limits paging position) := by
  have next : ∀ (page : KeyPage) (stop : Option Token), Overshoots limits page →
      Overshoots limits { page with next := stop } :=
    fun _ _ within => ⟨within.keys, within.count⟩
  have taken : ∀ (paging : Paging) (segmentEnd : Token) (owner : String) (position : Token),
      paging.Counted limits →
      (state.takeSegment nodeId unixMillis limits { paging with examined := paging.examined + 1 }
        position segmentEnd
        owner).1.Counted limits := by
    intro paging segmentEnd owner position counted
    have examined : ({ paging with examined := paging.examined + 1 } : Paging).Counted limits :=
      ⟨counted.bytes, counted.count, counted.page⟩
    unfold NodeState.takeSegment
    split
    · exact take_tokens_counted bounded _ examined
    · exact examined
  fun_induction NodeState.pageFrom state nodeId unixMillis limits paging position with
  | case1 => exact counted.page
  | case2 => exact next _ _ counted.page
  | case3 paging position segmentEnd owner _ _ _ stopped token took =>
      have within := taken paging segmentEnd owner position counted
      rw [took] at within
      exact next _ _ within.page
  | case4 paging position segmentEnd owner _ _ _ stopped took =>
      have within := taken paging segmentEnd owner position counted
      rw [took] at within
      exact within.page
  | case5 paging position segmentEnd owner _ _ _ stopped took =>
      have within := taken paging segmentEnd owner position counted
      rw [took] at within
      exact next _ _ within.page
  | case6 paging position segmentEnd owner _ _ _ stopped took _ _ ih =>
      have within := taken paging segmentEnd owner position counted
      rw [took] at within
      exact ih within

end Pages

section Runs

variable {hashing : Hashing} {config : NodeConfig}

/-- What the node does not test itself: a tombstone or a replicated record has room
at its key's token, a range to commit has staged no more keys at a token than it may
hold, and the ring keeps its hash seed. -/
def NodeEvent.Fits (hashing : Hashing) (state : NodeState) : NodeEvent → Prop
  | .commit _ (.delete request) _ => state.RoomFor hashing request.key
  | .replicate _ entry => state.RoomFor hashing entry.key
  | .replicateBatch _ entries => state.HasRoom hashing (entries.map (·.key))
  | .range (.commitDestination _ key) => ∀ destination, state.destinations.lookup key = some destination →
      ∀ token, (destination.stagedAt hashing state.topology token).length ≤ maxKeysPerToken
  | .install topology => topology.hashSeed = state.topology.hashSeed
  | .refresh topology => topology.hashSeed = state.topology.hashSeed
  | _ => True

/-- The bound with what carries it from step to step. -/
structure BucketsHeld (hashing : Hashing) (state : NodeState) : Prop where
  indexed : NodeIndexed hashing state
  bounded : state.TokensBounded
  staged : state.Destinations (DestinationMigration.Inside hashing state.topology.hashSeed)

theorem NodeEvent.Fits.seed {process : NodeProcess} {event : NodeEvent}
    (fits : event.Fits hashing process.state) (config : NodeConfig) :
    (process.handle hashing config event).state.topology.hashSeed = process.state.topology.hashSeed := by
  rcases handle_topology hashing config process event with kept | ⟨topology, offered, _, taken⟩
  · rw [kept]
  · rw [taken]
    cases event with
    | install other | refresh other =>
        rw [← Option.some.inj offered]
        exact fits
    | commit | finishAcks | replicate | replicateBatch | checkpoint | range | sweep | renewed |
        pausePolicy | resumePolicy
      | collect | send | answered => exact absurd offered (by simp [NodeEvent.offered])

/-- A put has tested the room itself. -/
theorem commit_bounded {process : NodeProcess} {clock : Clock} {request : WriteRequest}
    {ready : Readiness} (held : BucketsHeld hashing process.state)
    (fits : NodeEvent.Fits hashing process.state (.commit clock request ready)) :
    (process.handle hashing config (.commit clock request ready)).state.TokensBounded := by
  have purged := purge_expired_only hashing process.state clock.now
  have sameRecords : (purgeExpiredDedup hashing process.state clock.now).records =
      process.state.records := by
    obtain ⟨_, _, _, _, _, _, _, _, _, only⟩ := purged
    rw [only]
  have sameIndex : (purgeExpiredDedup hashing process.state clock.now).recordsByToken =
      process.state.recordsByToken := by
    obtain ⟨_, _, _, _, _, _, _, _, _, only⟩ := purged
    rw [only]
  have still := (NodeIndexed.handle held.indexed config (.commit clock request ready)).records
  have seed := fits.seed config
  have within := handle_keys hashing config process (.commit clock request ready) (by simp)
  rcases commit_request_sections hashing config clock process request ready with
    same | same | ⟨plan, entries, prepared, stored⟩
  · intro token
    rw [show (process.handle hashing config (.commit clock request ready)).state.recordsByToken = _
      from same.recordsByToken]
    exact held.bounded token
  · intro token
    rw [show (process.handle hashing config (.commit clock request ready)).state.recordsByToken = _
      from same.recordsByToken,
      sameIndex]
    exact held.bounded token
  · refine NodeState.bounded_of_room ?_ held.indexed.records still seed within
    cases stored.planned with
    | delete => exact NodeState.room_of_bounded held.bounded fits
    | put _ _ _ _ _ room =>
        rw [sameRecords, sameIndex, NodeState.tokenOf, purged.topology] at room
        exact NodeState.room_of_bounded held.bounded room

theorem BucketsHeld.handle {process : NodeProcess} {event : NodeEvent}
    (held : BucketsHeld hashing process.state)
    (fits : event.Fits hashing process.state) :
    BucketsHeld hashing (process.handle hashing config event).state := by
  have seed := fits.seed config
  have indexed := NodeIndexed.handle held.indexed config event
  refine ⟨indexed, ?_, ?_⟩
  · by_cases committing : ∃ clock key, event = .range (.commitDestination clock key)
    · obtain ⟨clock, key, rfl⟩ := committing
      -- A committed range brings its records in whatever the buckets hold.
      have step := perform_sections hashing config process.state (.commitDestination clock key)
      have unmoved : ∀ state : NodeState, state.recordsByToken = process.state.recordsByToken →
          state.TokensBounded := by
        intro state same token
        rw [same]
        exact held.bounded token
      have still := indexed.records
      generalize moved : (process.handle hashing config
        (.range (.commitDestination clock key))).state = after at still ⊢
      rw [show (RangeOperation.perform hashing config process.state
        (.commitDestination clock key)).1 = after from moved] at step
      cases step with
      | kept same => exact unmoved _ same.recordsByToken
      | refused =>
          obtain ⟨_, _, _, _, _, _, _, _, _, only⟩ := purge_expired_only hashing process.state clock.later
          exact unmoved _ (by rw [only])
      | committed _ _ destination found =>
          exact commit_range_bounded held.bounded held.indexed.records still
            (held.staged key destination found)
            (fits destination found)
    · by_cases writing : ∃ clock request ready, event = .commit clock request ready
      · obtain ⟨clock, request, ready, rfl⟩ := writing
        exact commit_bounded held fits
      · have within := handle_keys hashing config process event fun clock key same =>
            committing ⟨clock, key, same⟩
        refine NodeState.bounded_of_room ?_ held.indexed.records indexed.records seed within
        cases event with
        | commit clock request ready => exact absurd ⟨clock, request, ready, rfl⟩ writing
        | replicate => exact NodeState.room_of_bounded held.bounded fits
        | replicateBatch => exact fits
        | finishAcks | checkpoint | range | sweep | install | refresh | renewed | pausePolicy |
            resumePolicy | collect | send
          | answered => exact NodeState.room_nil held.bounded
  · rw [seed]
    exact handle_destinations event (inside_closed process.state.topology)
      (fun range key stored => absurd stored (AList.notMem_empty key)) (fun _ _ _ inside => inside)
        held.staged

def FittingStep (hashing : Hashing) (config : NodeConfig) (before : NodeProcess) (event : NodeEvent)
    (after : NodeProcess) :
    Prop :=
  event.Fits hashing before.state ∧ NodeProcess.Step hashing config before event after

end Runs

/-- From a fresh process, through any run of events that fit, no token ever holds more
keys than it may, and a page of keys passes its budgets by the keys of one token at
most. -/
theorem token_buckets_bounded (hashing : Hashing) (config : NodeConfig)
    (topology : TopologySnapshot) (events : List NodeEvent) (process : NodeProcess)
    (run : Transition.Run (FittingStep hashing config) { state := { topology } } events process) :
    (∀ token, process.state.recordsByToken.lenAt token ≤ maxKeysPerToken) ∧
      ∀ nodeId unixMillis limits start,
        Overshoots limits (process.state.ownedKeysPage nodeId unixMillis limits start) := by
  have held : BucketsHeld hashing process.state := by
    refine Transition.run_invariant (fun _ => True)
      (fun process => BucketsHeld hashing process.state) ?_ run
      (fun _ _ => trivial) ⟨NodeIndexed.fresh topology, fun token => Nat.zero_le _, fun _ _ found =>
        absurd found (by simp)⟩
    rintro before event after _ held ⟨fits, sources, reordered, rfl⟩
    have shuffled : BucketsHeld hashing { before.state with sources } := by
      refine ⟨held.indexed.same ⟨rfl, rfl, rfl, rfl, ?_, fun _ => rfl, rfl⟩, held.bounded, held.staged⟩
      intro key
      rw [show sources.lookup key = before.state.sources.lookup key from AList.perm_lookup reordered]
    have same : event.Fits hashing { before.state with sources } := by
      cases event with
      | commit clock request ready => cases request <;> exact fits
      | range operation => cases operation <;> exact fits
      | finishAcks | replicate | replicateBatch | checkpoint | sweep | install | refresh | renewed |
          pausePolicy | resumePolicy
        | collect | send | answered => exact fits
    exact BucketsHeld.handle shuffled same
  refine ⟨held.bounded, fun nodeId unixMillis limits start => ?_⟩
  exact page_from_overshoots held.bounded nodeId {} start ⟨rfl, le_refl _, .inl rfl, .inl rfl⟩

namespace BucketSample

def config : NodeConfig := { nodeId := "a", processInstanceId := "a-1" }

def delete (name : Nat) : NodeEvent :=
  .commit (Sample.clock 10)
    (.delete { key := [byte name], topologyEpoch := 1, requestId := toString name, precondition := none })
    ⟨5, 7, 1, ["b"]⟩

/-- A lease, and deletes of absent keys that all hash to one token. -/
def deletes (count : Nat) : List NodeEvent :=
  .renewed 1 0 { topologyEpoch := 1, leaseDurationMillis := 1000, admittedFollowers := [("b", "b-1")] } ::
    (List.range count).map delete

def after (count : Nat) : NodeProcess :=
  (deletes count).foldl (NodeProcess.handle Sample.hashing config)
    { state := { topology := Sample.topology } }

end BucketSample

/-- Sixteen of those deletes fit. -/
theorem token_buckets_sixteen_deletes :
    ∃ events process, Transition.Run (FittingStep Sample.hashing BucketSample.config)
      { state := { topology := Sample.topology } }
        events process ∧ process.state.recordsByToken.lenAt 5 = maxKeysPerToken ∧
      ∀ token, process.state.recordsByToken.lenAt token ≤ maxKeysPerToken := by
  have run : Transition.Run (FittingStep Sample.hashing BucketSample.config)
      { state := { topology := Sample.topology } }
      (BucketSample.deletes 16) (BucketSample.after 16) := by
    refine Transition.permitted_run (fun process event => event.Fits Sample.hashing process.state) _
      (fun process event fits => ⟨fits, NodeProcess.step_handle _ _ process event⟩) _ _ ?_
    simp [Transition.Permits, BucketSample.deletes, List.range, List.range.loop, NodeEvent.Fits,
      NodeState.RoomFor, BucketSample.delete]
    decide +kernel
  exact ⟨_, _, run, by decide +kernel, (token_buckets_bounded _ _ _ _ _ run).1⟩

/-- Seventeen deletes of absent keys leave seventeen tombstones at one token. -/
theorem deletes_overfill_token :
    ∃ events process, Transition.Run (NodeProcess.Step Sample.hashing BucketSample.config)
        { state := { topology := Sample.topology } } events process ∧
      ¬∀ token, process.state.recordsByToken.lenAt token ≤ maxKeysPerToken := by
  refine ⟨BucketSample.deletes 17, BucketSample.after 17, ?_, ?_⟩
  · exact NodeProcess.run_handle _ _ _ _
  · intro bounded
    have full := bounded 5
    revert full
    decide +kernel

end Hashring
