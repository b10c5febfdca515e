import Hashring.PageWalk
import Hashring.TokenBuckets

/-! What the readers of a node make of a record: `get`, `list_keys` and the
conditions of a write each look at the deadline themselves
(crates/hashring-node/src/rpc.rs, keyspace.rs). -/
namespace Hashring

def Record.Present (record : Record) (unixMillis : Nat) : Prop :=
  record.deleted = false ∧ ∀ deadline, record.expiresAtUnixMillis = some deadline → unixMillis < deadline

def NodeState.Shows (state : NodeState) (unixMillis : Nat) (key : Bytes) (record : Record) : Prop :=
  state.records.lookup key = some record ∧ record.Present unixMillis

def Condition.Met (shows : Record → Prop) : Condition → Prop
  | .always => True
  | .absent => ∀ record, ¬shows record
  | .version expected => ∃ record, shows record ∧ record.version = expected

structure GetRequest where
  key : Bytes
  topologyEpoch : Nat
  requestId : String
  deriving DecidableEq

structure GetResponse where
  value : Bytes := []
  version : Option RecordVersion := none
  currentEpoch : Nat := 0
  error : Option OperationError := none
  expiresAtUnixMillis : Option Nat := none
  deriving DecidableEq

/-- The answer to a key without a record to show. -/
def GetResponse.missing (epoch : Nat) : GetResponse where
  currentEpoch := epoch
  error := some { operationError .notFound "key not found" false with currentEpoch := epoch }

def GetResponse.found (epoch : Nat) (record : Record) : GetResponse where
  value := record.value
  version := some record.version
  currentEpoch := epoch
  expiresAtUnixMillis := record.expiresAtUnixMillis

/-- `get`, whose key is checked before it looks for a newer topology and takes the
read lock. -/
def getRecord (hashing : Hashing) (config : NodeConfig) (state : NodeState) (now : Instant)
    (unixMillis : Nat)
    (request : GetRequest) : Except Status GetResponse :=
  match validateKey config request.key with
  | some error => .ok { error := some error }
  | none =>
      match ownerError config state (state.tokenOf hashing request.key) now with
      | .error status => .error status
      | .ok (some error) => .ok { currentEpoch := error.currentEpoch, error := some error }
      | .ok none =>
          match (state.records.lookup request.key).filter fun record =>
            !record.deleted && !record.isExpired unixMillis with
          | none => .ok (.missing state.topology.epoch)
          | some record => .ok (.found state.topology.epoch record)

theorem present_iff (record : Record) (unixMillis : Nat) :
    (!record.deleted && !record.isExpired unixMillis) = true ↔ record.Present unixMillis := by
  unfold Record.Present Record.isExpired
  cases record.expiresAtUnixMillis with
  | none => simp
  | some deadline => simp

theorem live_record_iff (state : NodeState) (key : Bytes) (unixMillis : Nat) (record : Record) :
    liveRecord state key unixMillis = some record ↔ state.Shows unixMillis key record := by
  rw [liveRecord, Option.filter_eq_some_iff, present_iff]
  rfl

theorem live_record_none (state : NodeState) (key : Bytes) (unixMillis : Nat) :
    liveRecord state key unixMillis = none ↔ ∀ record, ¬state.Shows unixMillis key record := by
  rw [Option.eq_none_iff_forall_ne_some]
  exact forall_congr' fun record => not_congr (live_record_iff state key unixMillis record)

theorem is_live_iff (state : NodeState) (key : Bytes) (unixMillis : Nat) :
    state.isLive unixMillis key = true ↔ ∃ record, state.Shows unixMillis key record := by
  rw [NodeState.isLive, Option.any_eq_true]
  exact exists_congr fun record => and_congr Iff.rfl (present_iff record unixMillis)

theorem condition_holds_iff (condition : Condition) (state : NodeState) (key : Bytes) (unixMillis : Nat) :
    condition.holds (liveRecord state key unixMillis) = true ↔
      condition.Met (state.Shows unixMillis key) := by
  cases condition with
  | always => simp [Condition.holds, Condition.Met]
  | absent =>
      rw [Condition.holds, Option.isNone_iff_eq_none]
      exact live_record_none state key unixMillis
  | version expected =>
      rw [Condition.holds, Option.any_eq_true]
      exact exists_congr fun record => and_congr (live_record_iff state key unixMillis record)
        decide_eq_true_iff

structure ReachesCondition (hashing : Hashing) (config : NodeConfig) (clock : Clock) (state : NodeState)
    (request : WriteRequest) (ready : Readiness) (shape : MutationShape) : Prop where
  valid : request.validate config = .ok shape
  owned : ownerError config state ready.token clock.now = .ok none
  epoch : state.topology.epoch = ready.epoch
  seed : state.topology.hashSeed = ready.tokenSeed
  fresh : (purgeExpiredDedup hashing state clock.now).dedup.lookup request.requestId = none

structure ReadsPresent (hashing : Hashing) (config : NodeConfig) (process : NodeProcess) : Prop where
  get : ∀ request now unixMillis, validateKey config request.key = none →
    ownerError config process.state (process.state.tokenOf hashing request.key) now = .ok none →
      (∀ record, process.state.Shows unixMillis request.key record →
        getRecord hashing config process.state now unixMillis request =
          .ok (.found process.state.topology.epoch record)) ∧
      ((∀ record, ¬process.state.Shows unixMillis request.key record) →
        getRecord hashing config process.state now unixMillis request =
          .ok (.missing process.state.topology.epoch))
  listed : (∀ assignment ∈ process.state.topology.assignments, assignment.token ≤ tokenMax) →
    ∀ request now unixMillis response, request.startToken ≤ tokenMax →
      answerListing config process.state now unixMillis request = .ok response → response.error = none →
        ∃ keys : List Bytes, keys.Nodup ∧ response.count = keys.length ∧
          (request.countOnly = false → response.keys = keys) ∧
          ∀ key, key ∈ keys ↔ request.startToken ≤ process.state.tokenOf hashing key ∧
            process.state.tokenOf hashing key < response.stop ∧
            process.state.topology.ownerId (process.state.tokenOf hashing key) = some config.nodeId ∧
            ∃ record, process.state.Shows unixMillis key record
  conditions : ∀ clock request ready shape, ReachesCondition hashing config clock process.state
    request ready shape →
    ((commitRequest hashing config clock process request ready).2 =
        .respond { currentEpoch := process.state.topology.epoch, conditionFailed := true } ↔
      ¬shape.condition.Met (process.state.Shows clock.unixMillis request.key))
  expiryOnly : ∀ clock put ready shape, ReachesCondition hashing config clock process.state
    (.put put) ready shape →
    put.preserveValue = true → shape.condition.Met (process.state.Shows clock.unixMillis put.key) →
    process.state.RoomFor hashing put.key →
      ((commitRequest hashing config clock process (.put put) ready).2 =
          .respond { currentEpoch := process.state.topology.epoch, keyMissing := true } ↔
        ∀ record, ¬process.state.Shows clock.unixMillis put.key record)

section Reads

variable {hashing : Hashing} {config : NodeConfig}

theorem get_record_shows (state : NodeState) (request : GetRequest) (now : Instant) (unixMillis : Nat)
    (valid : validateKey config request.key = none)
    (owned : ownerError config state (state.tokenOf hashing request.key) now = .ok none) :
    getRecord hashing config state now unixMillis request =
      .ok ((liveRecord state request.key unixMillis).elim (.missing state.topology.epoch)
        (.found state.topology.epoch)) := by
  rw [getRecord, valid]
  simp only
  rw [owned]
  simp only
  rw [← liveRecord]
  cases liveRecord state request.key unixMillis with
  | none => rfl
  | some record => rfl

theorem answer_listing_lists {state : NodeState} (indexed : state.RecordsIndexed hashing)
    (sized : ∀ assignment ∈ state.topology.assignments, assignment.token ≤ tokenMax)
    {request : ListKeysRequest} {now : Instant} {unixMillis : Nat} {response : ListKeysResponse}
    (inside : request.startToken ≤ tokenMax)
    (answered : answerListing config state now unixMillis request = .ok response)
    (clear : response.error = none) :
    let keys := state.listed config.nodeId unixMillis request.startToken response.stop
    keys.Nodup ∧ response.count = keys.length ∧ (request.countOnly = false → response.keys = keys) := by
  obtain ⟨_, rfl⟩ := answer_listing_page answered clear
  simp only [listing_stop]
  refine ⟨NodeState.listed_nodup _ _ indexed _ _, ?_⟩
  by_cases unassigned : state.topology.assignments = []
  · rw [NodeState.owned_keys_page_unassigned config.nodeId unixMillis request.limits unassigned,
      NodeState.listed_unassigned config.nodeId unixMillis unassigned]
    exact ⟨rfl, fun _ => rfl⟩
  · have covers : state.Covers config.nodeId unixMillis request.limits request.startToken {}
        (state.ownedKeysPage config.nodeId unixMillis request.limits request.startToken) :=
      state.page_from_covers config.nodeId unixMillis request.limits ⟨unassigned, sized⟩
        {} request.startToken inside rfl
    have counted := covers.count
    rw [Nat.zero_add] at counted
    refine ⟨counted, fun whole => ?_⟩
    have plain : request.limits.countOnly = false := whole
    have shown := covers.keys
    rw [plain] at shown
    exact shown

/-- What a plan ends with tells neither of a failed condition nor of a missing key. -/
theorem commit_plan_answers (clock : Clock) (process : NodeProcess) (plan : WritePlan) (ready : Readiness)
    (response : WriteResponse) (clear : response.error = none) :
    (commitPlan hashing config clock process plan ready).2 ≠ .respond response := by
  have cases := commit_plan_cases hashing config clock process plan ready
  generalize commitPlan hashing config clock process plan ready = result at cases
  cases cases with
  | refused answer error failed =>
      rintro same
      obtain rfl := WriteOutcome.respond.inj same
      exact absurd (clear.symm.trans failed) (by simp)
  | rolledBack _ _ _ _ _ _ _ _ answer error failed =>
      rintro same
      obtain rfl := WriteOutcome.respond.inj same
      exact absurd (clear.symm.trans failed) (by simp)
  | stored => exact fun same => absurd same (by simp)

theorem receipt_checks_pass {clock : Clock} {process : NodeProcess} {request : WriteRequest}
    {ready : Readiness} {shape : MutationShape}
    (reaches : ReachesCondition hashing config clock process.state request ready shape)
    (requestId : String) (named : request.requestId = requestId) (fingerprint : Bytes)
    (deleted : Bool) (commit : NodeProcess → NodeProcess × WriteOutcome) :
    withReceiptChecks hashing config clock process requestId fingerprint deleted ready commit =
      commit { process with state := purgeExpiredDedup hashing process.state clock.now } := by
  have current : ¬(process.state.topology.epoch ≠ ready.epoch ∨ process.state.topology.hashSeed ≠
      ready.tokenSeed) := by
    rw [not_or, not_not, not_not]
    exact ⟨reaches.epoch, reaches.seed⟩
  unfold withReceiptChecks
  simp only
  rw [reaches.owned]
  simp only
  rw [if_neg current, ← named, reaches.fresh]

/-- Dropping receipts changes nothing a reader is shown. -/
theorem purge_live_record (state : NodeState) (now : Instant) (key : Bytes) (unixMillis : Nat) :
    liveRecord (purgeExpiredDedup hashing state now) key unixMillis =
      liveRecord state key unixMillis := by
  obtain ⟨_, _, _, _, _, _, _, _, _, purged⟩ := purge_expired_only hashing state now
  rw [purged]
  rfl

variable (hashing) in
theorem purge_reads (state : NodeState) (now : Instant) :
    (purgeExpiredDedup hashing state now).records = state.records ∧
      (purgeExpiredDedup hashing state now).recordsByToken = state.recordsByToken ∧
      (purgeExpiredDedup hashing state now).topology = state.topology := by
  obtain ⟨_, _, _, _, _, _, _, _, _, purged⟩ := purge_expired_only hashing state now
  rw [purged]
  exact ⟨rfl, rfl, rfl⟩

theorem commit_condition {clock : Clock} {process : NodeProcess} {request : WriteRequest}
    {ready : Readiness} {shape : MutationShape}
    (reaches : ReachesCondition hashing config clock process.state request ready shape) :
    (commitRequest hashing config clock process request ready).2 =
        .respond { currentEpoch := process.state.topology.epoch, conditionFailed := true } ↔
      ¬shape.condition.Met (process.state.Shows clock.unixMillis request.key) := by
  rw [← condition_holds_iff, Bool.not_eq_true, commitRequest, reaches.valid]
  have planned : ∀ plan, (commitPlan hashing config clock
      { process with state := purgeExpiredDedup hashing process.state clock.now } plan ready).2 ≠
        .respond { currentEpoch := process.state.topology.epoch, conditionFailed := true } := fun plan =>
    commit_plan_answers clock _ plan ready _ rfl
  cases request with
  | put put =>
      simp only [putCommit, WriteRequest.key]
      rw [receipt_checks_pass reaches put.requestId rfl]
      simp only [purge_live_record, (purge_reads hashing process.state clock.now).2.2]
      split
      · rename_i failed
        simp [failed]
      · rename_i met
        refine iff_of_false ?_ met
        -- No later answer of a put has this flag.
        split
        · simp
        · split
          · simp
          · exact planned _
          · exact planned _
  | delete delete =>
      simp only [deleteCommit, WriteRequest.key]
      rw [receipt_checks_pass reaches delete.requestId rfl]
      simp only [purge_live_record, (purge_reads hashing process.state clock.now).2.2]
      split
      · rename_i failed
        simp [failed]
      · rename_i met
        exact iff_of_false (planned _) met

theorem commit_expiry_only {clock : Clock} {process : NodeProcess} {put : PutRequest} {ready : Readiness}
    {shape : MutationShape}
    (reaches : ReachesCondition hashing config clock process.state (.put put) ready shape)
    (keeps : put.preserveValue = true)
    (met : shape.condition.Met (process.state.Shows clock.unixMillis put.key))
    (room : process.state.RoomFor hashing put.key) :
    (commitRequest hashing config clock process (.put put) ready).2 =
        .respond { currentEpoch := process.state.topology.epoch, keyMissing := true } ↔
      ∀ record, ¬process.state.Shows clock.unixMillis put.key record := by
  obtain ⟨records, byToken, topology⟩ := purge_reads hashing process.state clock.now
  have holds := (condition_holds_iff _ _ _ _).mpr met
  have roomy : ¬(put.key ∉ (purgeExpiredDedup hashing process.state clock.now).records ∧ maxKeysPerToken ≤
      (purgeExpiredDedup hashing process.state clock.now).recordsByToken.lenAt
        ((purgeExpiredDedup hashing process.state clock.now).tokenOf hashing put.key)) := by
    rw [not_and_or, not_not, not_le, NodeState.tokenOf, records, byToken, topology]
    exact room
  have valid : (WriteRequest.put put).validate config = .ok shape := reaches.valid
  rw [← live_record_none, commitRequest, valid]
  simp only [putCommit]
  rw [receipt_checks_pass reaches put.requestId rfl]
  simp only [purge_live_record]
  rw [if_neg (by simp [holds]), if_neg roomy, keeps, topology]
  cases live : liveRecord process.state put.key clock.unixMillis with
  | none => simp
  | some kept =>
      refine iff_of_false ?_ (by simp)
      exact commit_plan_answers clock _ _ ready _ rfl

theorem reads_present {process : NodeProcess} (indexed : process.state.RecordsIndexed hashing) :
    ReadsPresent hashing config process where
  get request now unixMillis valid owned := by
    rw [get_record_shows process.state request now unixMillis valid owned]
    constructor
    · intro record shows
      rw [(live_record_iff _ _ _ _).mpr shows]
      rfl
    · intro missing
      rw [(live_record_none _ _ _).mpr missing]
      rfl
  listed sized request now unixMillis response inside answered clear := by
    refine ⟨_, (answer_listing_lists indexed sized inside answered clear).1,
      (answer_listing_lists indexed sized inside answered clear).2.1,
      (answer_listing_lists indexed sized inside answered clear).2.2, fun key => ?_⟩
    rw [NodeState.mem_listed config.nodeId unixMillis indexed, is_live_iff]
  conditions _ _ _ _ reaches := commit_condition reaches
  expiryOnly _ _ _ _ reaches keeps met room := commit_expiry_only reaches keeps met room

/-- A put that names no deadline stores the one of a record a reader is shown, or
none. The other records stay as they were. -/
theorem kept_deadline_shown (clock : Clock) (process : NodeProcess) (put : PutRequest) (ready : Readiness)
    (silent : put.expiresAtUnixMillis = none) (plain : put.preserveValue = false) (key : Bytes)
    (record : Record)
    (stored : (commitRequest hashing config clock process (.put put) ready).1.state.records.lookup
      key = some record) :
    process.state.records.lookup key = some record ∨
      key = put.key ∧ ∀ deadline, record.expiresAtUnixMillis = some deadline →
        ∃ old, process.state.Shows clock.unixMillis put.key old ∧ old.expiresAtUnixMillis =
          some deadline := by
  have purged := (purge_reads hashing process.state clock.now).1
  rcases commit_request_sections hashing config clock process (.put put) ready with
    same | same | ⟨plan, entries, prepared, written⟩
  · rw [same.records] at stored
    exact .inl stored
  · rw [same.records, purged] at stored
    exact .inl stored
  · rcases written.record_origin key record stored with before | ⟨here, made⟩
    · rw [purged] at before
      exact .inl before
    · cases written.planned with
      | put named _ _ _ _ _ content =>
          rcases content with ⟨keeps, _⟩ | ⟨_, _, deadlines⟩
          · exact absurd (plain.symm.trans keeps) (by simp)
          · refine .inr ⟨here.trans named, fun deadline kept => ?_⟩
            rw [silent, Option.orElse_none, purge_live_record] at deadlines
            rw [made, WritePlan.record, Record.stored, deadlines] at kept
            -- Storing may drop a deadline but never makes one up.
            obtain ⟨old, live, same⟩ := Option.bind_eq_some_iff.mp (Option.filter_eq_some_iff.mp kept).1
            exact ⟨old, (live_record_iff _ _ _ _).mp live, same⟩

end Reads

end Hashring
