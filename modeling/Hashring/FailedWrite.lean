import Hashring.TopologyInstall

/-! A whole `put` or `delete` of crates/hashring-node/src/rpc.rs, from the
request to its answer, with whatever else the node does while the request holds
no lock. A request that is answered without an effect has left no trace of
itself beyond the topology refresh it may have asked for. -/
namespace Hashring

def WriteRequest.topologyEpoch : WriteRequest → Nat
  | .put request => request.topologyEpoch
  | .delete request => request.topologyEpoch

/-- `refresh_if_newer`; `fetched` is the coordinator's answer to
`fetch_topology`. -/
def refreshIfNewer (hashing : Hashing) (process : NodeProcess) (requestEpoch : Nat)
    (fetched : Except String TopologySnapshot) : NodeProcess × Except Status Unit :=
  if requestEpoch ≤ process.state.topology.epoch then (process, .ok ())
  else
    match fetched with
    | .error message => (process, .error ⟨.unavailable, message⟩)
    | .ok topology => (refreshTopology hashing process topology, .ok ())

/-- Where a request gives up the node's lock. -/
inductive WriteStage where
  | refreshed
  | lookedUp
  | ready
  | committed
  deriving DecidableEq

/-- What a request meets on its way: the clock readings, the coordinator's
answers, how its acknowledgement wait ended, and what the rest of the node does
while the request holds no lock. -/
structure WriteEnvironment where
  fetched : Except String TopologySnapshot
  lookupAt : Instant
  readyAt : Nat
  status : Option ReplicaStatusResponse
  clock : Clock
  reached : Bool
  finishedAt : Instant
  others : WriteStage → NodeProcess → NodeProcess

/-- A handled request. `sections` are its sections under the write lock, each
with the process it found and the process it left. -/
structure WriteRun where
  refreshed : NodeProcess
  sections : List (NodeProcess × NodeProcess)
  process : NodeProcess
  answer : Except Status WriteResponse

/-- The end of a request whose last section decided `outcome`: an answer at
once, or `wait_required_acks` and its own section. -/
def endWrite (env : WriteEnvironment) (requestId : String) (refreshed : NodeProcess)
    (sections : List (NodeProcess × NodeProcess)) (process : NodeProcess) (outcome : WriteOutcome) :
    WriteRun :=
  match outcome with
  | .respond response => ⟨refreshed, sections, process, .ok response⟩
  | .fail status => ⟨refreshed, sections, process, .error status⟩
  | .awaitAcks version epoch required =>
      let waited := env.others .committed process
      let (state, error) := finishRequiredAcks env.finishedAt waited.state env.reached epoch
          requestId version required
      let final := { waited with state }
      ⟨refreshed, sections ++ [(waited, final)], final, .ok (ackedResponse version epoch error)⟩

section

variable (hashing : Hashing) (config : NodeConfig)

/-- The rest of a request once its topology is not older than it asks for. -/
def lookupAndCommit (env : WriteEnvironment) (refreshed : NodeProcess) (request : WriteRequest) :
    WriteRun :=
  let found := env.others .refreshed refreshed
  match lookupRequest hashing config env.lookupAt found.state request with
  | .ended outcome => endWrite env request.requestId refreshed [] found outcome
  | .proceed token tokenSeed =>
      let checked := env.others .lookedUp found
      match readyFollowers config env.readyAt checked.state token env.status with
      | .error error => ⟨refreshed, [], checked, .ok (refusedWith error)⟩
      | .ok (epoch, followers) =>
          let locked := env.others .ready checked
          let (process, outcome) := commitRequest hashing config env.clock locked request
            { token, tokenSeed, epoch, followers }
          endWrite env request.requestId refreshed [(locked, process)] process outcome

/-- `put` or `delete`. Validation comes before the refresh. -/
def handleWrite (env : WriteEnvironment) (process : NodeProcess) (request : WriteRequest) : WriteRun :=
  match request.validate config with
  | .error error => ⟨process, [], process, .ok (refusedWith error)⟩
  | .ok _ =>
      match refreshIfNewer hashing process request.topologyEpoch env.fetched with
      | (process, .error status) => ⟨process, [], process, .error status⟩
      | (refreshed, .ok _) => lookupAndCommit hashing config env refreshed request

end

/-- An answer that tells the caller the write did not happen: a transport
status, an error without an unknown outcome, a failed condition or a missing key. -/
def WriteFailed : Except Status WriteResponse → Prop
  | .error _ => True
  | .ok response => (∃ error, response.error = some error ∧ error.unknownWriteOutcome = false) ∨
      response.conditionFailed = true ∨ response.keyMissing = true

instance (answer : Except Status WriteResponse) : Decidable (WriteFailed answer) :=
  match answer with
  | .error _ => isTrue trivial
  | .ok response =>
      decidable_of_iff ((response.error.any fun error => !error.unknownWriteOutcome) = true ∨
        response.conditionFailed = true ∨ response.keyMissing = true) (by
          simp only [WriteFailed, Option.any_eq_true, Bool.not_eq_true'])

/-- The records, sequences and receipts of a node, which not even a topology
refresh touches. A receipt counts while it is unexpired. -/
structure SameContents (now : Instant) (before after : NodeState) : Prop where
  records : after.records = before.records
  sequence : after.nextSequence = before.nextSequence
  receipts : ∀ id entry, now < entry.expiresAt →
    (after.dedup.lookup id = some entry ↔ before.dedup.lookup id = some entry)

/-- A section that left no trace. A stream without an entry stands at zero, so
an entry of zero, which no operation stores, may be dropped; a refused
reservation may have opened an empty queue. -/
structure NoTrace (now : Instant) (before after : NodeProcess) : Prop where
  topology : after.state.topology = before.state.topology
  contents : SameContents now before.state after.state
  recordsByToken : after.state.recordsByToken = before.state.recordsByToken
  recordExpirations : after.state.recordExpirations = before.state.recordExpirations
  streamHeads : ∀ key, after.state.streamHead key = before.state.streamHead key
  streamSequences : ∀ key, before.state.ownerStreamSequences.lookup key ≠ some 0 →
    after.state.ownerStreamSequences.lookup key = before.state.ownerStreamSequences.lookup key
  sources : after.state.sources = before.state.sources
  journalBytes : after.state.journalBytesTotal = before.state.journalBytesTotal
  unacked : after.state.ownerStreamUnacked = before.state.ownerStreamUnacked
  queues : ∀ key, after.dispatch.taskAt key = before.dispatch.taskAt key

namespace NoTrace

theorem refl (now : Instant) (process : NodeProcess) : NoTrace now process process where
  topology := rfl
  contents := ⟨rfl, rfl, fun _ _ _ => Iff.rfl⟩
  recordsByToken := rfl
  recordExpirations := rfl
  streamHeads := fun _ => rfl
  streamSequences := fun _ _ => rfl
  sources := rfl
  journalBytes := rfl
  unacked := rfl
  queues := fun _ => rfl

end NoTrace

theorem purge_no_trace (hashing : Hashing) (now : Instant) (process : NodeProcess) :
    NoTrace now process { process with state := purgeExpiredDedup hashing process.state now } := by
  have live : ∀ id entry, now < entry.expiresAt →
      ((purgeExpiredDedup hashing process.state now).dedup.lookup id = some entry ↔
        process.state.dedup.lookup id = some entry) := by
    intro id entry unexpired
    constructor
    · exact purge_lookup_some hashing process.state now id entry
    · intro found
      exact purge_keeps_live hashing process.state now id entry found unexpired
  obtain ⟨_, _, _, _, _, _, _, _, _, purged⟩ := purge_expired_only hashing process.state now
  rw [purged] at live ⊢
  exact { NoTrace.refl now process with contents := ⟨rfl, rfl, live⟩ }

/-- Two sequence tables with the same heads agree on every stream that had a
sequence or still has none. -/
theorem sequences_restored {before after : FiniteMap StreamKey Nat} (key : StreamKey)
    (heads : (after.lookup key).getD 0 = (before.lookup key).getD 0)
    (idle : after.lookup key = some 0 → before.lookup key = some 0)
    (positive : before.lookup key ≠ some 0) :
    after.lookup key = before.lookup key := by
  cases restored : after.lookup key with
  | none =>
      cases held : before.lookup key with
      | none => rfl
      | some sequence =>
          rw [restored, held] at heads
          have zero : 0 = sequence := heads
          exact absurd (zero ▸ held) positive
  | some sequence =>
      cases held : before.lookup key with
      | none =>
          rw [restored, held] at heads
          have zero : sequence = 0 := heads
          exact absurd (idle (zero ▸ restored)) positive
      | some earlier =>
          rw [restored, held] at heads
          exact congrArg some heads

/-- The write-lock section of a request leaves no trace unless it goes on to
wait for acknowledgements. -/
theorem commit_request_no_trace (hashing : Hashing) (config : NodeConfig) (clock : Clock)
    (process : NodeProcess) (request : WriteRequest) (ready : Readiness) :
    NoTrace clock.now process (commitRequest hashing config clock process request ready).1 ∨
      ∃ version epoch required,
        (commitRequest hashing config clock process request ready).2 =
          .awaitAcks version epoch required := by
  have unchanged := NoTrace.refl clock.now process
  have purged := purge_no_trace hashing clock.now process
  have cases := commit_request_cases hashing config clock process request ready
  generalize commitRequest hashing config clock process request ready = result at cases
  cases cases with
  | invalid | unroutable | notOwner | moved => exact .inl unchanged
  | answered | declined => exact .inl purged
  | planned _ _ plan _ _ _ _ _ _ _ _ ended =>
      cases ended with
      | refused => exact .inl purged
      | stored => exact .inr ⟨_, _, _, rfl⟩
      | rolledBack _ sequences entries dispatch reserved restored idle =>
          obtain ⟨_, tasks, _⟩ := ReplicationDispatcher.reserve_spec config entries process.dispatch
          rw [reserved] at tasks
          have heads := fun key => (restored key).trans (purged.streamHeads key)
          left
          exact {
            topology := purged.topology
            contents := ⟨purged.contents.records, purged.contents.sequence, purged.contents.receipts⟩
            recordsByToken := purged.recordsByToken
            recordExpirations := purged.recordExpirations
            streamHeads := heads
            streamSequences := fun key positive => by
              have sequenced := purged.streamSequences key positive
              exact sequences_restored key (heads key) (fun zero => sequenced ▸ idle key zero) positive
            sources := purged.sources
            journalBytes := purged.journalBytes
            unacked := purged.unacked
            queues := tasks }

theorem finish_required_acks_error (now : Instant) (state : NodeState) (reached : Bool) (epoch : Nat)
    (mutationId : String) (version : RecordVersion) (required : List RequiredAck) :
    (finishRequiredAcks now state reached epoch mutationId version required).2 = none ∨
      (finishRequiredAcks now state reached epoch mutationId version required).2 =
        some (outcomeUnknown epoch) := by
  unfold finishRequiredAcks
  split
  · split
    · exact .inl rfl
    · exact .inr rfl
  · split
    · exact .inr rfl
    · split
      · exact .inl rfl
      · exact .inr rfl

theorem end_write_failed (env : WriteEnvironment) (requestId : String) (refreshed : NodeProcess)
    (sections : List (NodeProcess × NodeProcess)) (process : NodeProcess) (outcome : WriteOutcome)
    (failed : WriteFailed (endWrite env requestId refreshed sections process outcome).answer) :
    (∀ version epoch required, outcome ≠ .awaitAcks version epoch required) ∧
      (endWrite env requestId refreshed sections process outcome).sections = sections ∧
      (endWrite env requestId refreshed sections process outcome).process = process := by
  cases outcome with
  | respond response => exact ⟨fun _ _ _ => by simp, rfl, rfl⟩
  | fail status => exact ⟨fun _ _ _ => by simp, rfl, rfl⟩
  | awaitAcks version epoch required =>
      simp only [endWrite, WriteFailed, ackedResponse] at failed
      rcases finish_required_acks_error env.finishedAt (env.others .committed process).state
        env.reached epoch
        requestId version required with acked | unknown
      · rw [acked] at failed
        simp at failed
      · rw [unknown] at failed
        simp [outcomeUnknown] at failed

theorem end_write_refreshed (env : WriteEnvironment) (requestId : String) (refreshed : NodeProcess)
    (sections : List (NodeProcess × NodeProcess)) (process : NodeProcess) (outcome : WriteOutcome) :
    (endWrite env requestId refreshed sections process outcome).refreshed = refreshed := by
  cases outcome with
  | respond => rfl
  | fail => rfl
  | awaitAcks => rfl

namespace SameContents

theorem refl (now : Instant) (state : NodeState) : SameContents now state state :=
  ⟨rfl, rfl, fun _ _ _ => Iff.rfl⟩

theorem trans {now : Instant} {first second third : NodeState} (early : SameContents now first second)
    (late : SameContents now second third) : SameContents now first third :=
  ⟨late.records.trans early.records, late.sequence.trans early.sequence, fun id entry unexpired =>
    (late.receipts id entry unexpired).trans (early.receipts id entry unexpired)⟩

end SameContents

theorem remove_sources_contents (now : Instant) (keys : List RangeKey) (state : NodeState) :
    SameContents now state (keys.foldl NodeState.removeSource state) := by
  induction keys generalizing state with
  | nil => exact SameContents.refl now state
  | cons key rest ih =>
      have removed : SameContents now state (state.removeSource key) := by
        unfold NodeState.removeSource
        split
        · exact SameContents.refl now state
        · exact ⟨rfl, rfl, fun _ _ _ => Iff.rfl⟩
      exact removed.trans (ih _)

theorem clear_repairs_contents (now : Instant) (state : NodeState) :
    SameContents now state state.clearReplicaRepairStaging := by
  have cleared := remove_sources_contents now
    (state.sources.keys.filter fun key => NodeState.isRepairId key.changeId) state
  exact ⟨cleared.records, cleared.sequence, cleared.receipts⟩

theorem prune_acks_contents (now : Instant) (state : NodeState) :
    SameContents now state (pruneAckProgress state) := by
  obtain ⟨⟨_, _, _, _, _, _, _, _, _, pruned⟩, sameDedup, _⟩ := prune_ack_progress_only state
  constructor
  · rw [pruned]
  · rw [pruned]
  · intro id entry _
    rw [sameDedup]

theorem set_topology_contents (hashing : Hashing) (now : Instant) (state : NodeState)
    (topology : TopologySnapshot) :
    SameContents now state (state.setTopology hashing topology) := by
  unfold NodeState.setTopology
  split
  · exact ⟨rfl, rfl, fun _ _ _ => Iff.rfl⟩
  · exact ⟨rfl, rfl, fun _ _ _ => Iff.rfl⟩

theorem adopt_topology_contents (hashing : Hashing) (now : Instant) (process : NodeProcess)
    (topology : TopologySnapshot) :
    SameContents now process.state (adoptTopology hashing process topology).state := by
  have unleased : SameContents now process.state
      (if topology.epoch ≠ process.state.topology.epoch then
        NodeState.clearReplicaRepairStaging { process.state with lease := none, admittedFollowers := ∅ }
      else process.state) := by
    split
    · have cleared := clear_repairs_contents now
          { process.state with lease := none, admittedFollowers := ∅ }
      exact ⟨cleared.records, cleared.sequence, cleared.receipts⟩
    · exact SameContents.refl now _
  have installed := unleased.trans (set_topology_contents hashing now _ topology)
  refine SameContents.trans ?_ (prune_acks_contents now _)
  exact ⟨installed.records, installed.sequence, installed.receipts⟩

theorem refresh_if_newer_cases (hashing : Hashing) (process : NodeProcess) (requestEpoch : Nat)
    (fetched : Except String TopologySnapshot) :
    (refreshIfNewer hashing process requestEpoch fetched).1 = process ∨
      process.state.topology.epoch < requestEpoch ∧ ∃ topology, fetched = .ok topology ∧
        (refreshIfNewer hashing process requestEpoch fetched).1 = refreshTopology hashing process
          topology := by
  unfold refreshIfNewer
  split
  · exact .inl rfl
  · rename_i newer
    cases fetched with
    | error => exact .inl rfl
    | ok topology => exact .inr ⟨not_le.mp newer, topology, rfl, rfl⟩

theorem refresh_topology_contents (hashing : Hashing) (now : Instant) (process : NodeProcess)
    (topology : TopologySnapshot) :
    SameContents now process.state (refreshTopology hashing process topology).state := by
  unfold refreshTopology
  split
  · exact adopt_topology_contents hashing now process topology
  · exact SameContents.refl now _

theorem lookup_and_commit_no_trace (hashing : Hashing) (config : NodeConfig) (env : WriteEnvironment)
    (refreshed : NodeProcess) (request : WriteRequest)
    (failed : WriteFailed (lookupAndCommit hashing config env refreshed request).answer) :
    (lookupAndCommit hashing config env refreshed request).refreshed = refreshed ∧
      (∀ step ∈ (lookupAndCommit hashing config env refreshed request).sections,
        NoTrace env.clock.now step.1 step.2) ∧
      ((∀ stage process, env.others stage process = process) →
        NoTrace env.clock.now refreshed
          (lookupAndCommit hashing config env refreshed request).process) := by
  unfold lookupAndCommit at failed ⊢
  simp only at failed ⊢
  -- The lookup may answer by itself, the followers may not be ready, or the section is reached.
  split at failed
  · obtain ⟨_, sections, process⟩ := end_write_failed _ _ _ _ _ _ failed
    refine ⟨end_write_refreshed _ _ _ _ _ _, ?_, ?_⟩
    · rw [sections]
      intro step member
      exact absurd member (by simp)
    · intro alone
      rw [process, alone]
      exact NoTrace.refl _ _
  · rename_i token tokenSeed proceeded
    split at failed
    · refine ⟨rfl, fun step member => absurd member (by simp), ?_⟩
      intro alone
      rw [alone, alone]
      exact NoTrace.refl _ _
    · rename_i epoch followers ready
      obtain ⟨decided, sections, process⟩ := end_write_failed _ _ _ _ _ _ failed
      have committed := commit_request_no_trace hashing config env.clock
        (env.others .ready (env.others .lookedUp (env.others .refreshed refreshed))) request
        { token, tokenSeed, epoch, followers }
      have kept := committed.resolve_right fun ⟨version, waited, required, awaits⟩ =>
        decided version waited required awaits
      refine ⟨end_write_refreshed _ _ _ _ _ _, ?_, ?_⟩
      · rw [sections]
        intro step member
        rw [List.mem_singleton.mp member]
        exact kept
      · intro alone
        rw [process]
        rw [alone .refreshed, alone .lookedUp, alone .ready] at kept ⊢
        exact kept

/-- A write that is answered as failed leaves no trace. Each section it took
under the write lock gives the node back as it found it, so with nothing else
running the whole request does. Before them, a request that names a newer epoch
than the node's refreshes the topology; that refresh is the one `refresh_topology`
makes at any time, and keeps records, sequence and receipts. -/
theorem failed_write_no_trace (hashing : Hashing) (config : NodeConfig) (env : WriteEnvironment)
    (process : NodeProcess) (request : WriteRequest)
    (failed : WriteFailed (handleWrite hashing config env process request).answer) :
    (∀ step ∈ (handleWrite hashing config env process request).sections,
      NoTrace env.clock.now step.1 step.2) ∧
      ((∀ stage other, env.others stage other = other) →
        NoTrace env.clock.now (handleWrite hashing config env process request).refreshed
          (handleWrite hashing config env process request).process) ∧
      ((handleWrite hashing config env process request).refreshed = process ∨
        process.state.topology.epoch < request.topologyEpoch ∧ ∃ topology, env.fetched = .ok topology ∧
          (handleWrite hashing config env process request).refreshed =
            refreshTopology hashing process topology) ∧
      SameContents env.clock.now process.state
        (handleWrite hashing config env process request).refreshed.state := by
  have untouched : ∀ step ∈ ([] : List (NodeProcess × NodeProcess)),
      NoTrace env.clock.now step.1 step.2 :=
    fun step member => absurd member (by simp)
  unfold handleWrite at failed ⊢
  cases valid : request.validate config with
  | error error => exact ⟨untouched, fun _ => NoTrace.refl _ _, .inl rfl, SameContents.refl _ _⟩
  | ok shape =>
      have refresh := refresh_if_newer_cases hashing process request.topologyEpoch env.fetched
      simp only [valid] at failed ⊢
      generalize refreshIfNewer hashing process request.topologyEpoch env.fetched = answer
        at failed refresh ⊢
      obtain ⟨refreshed, result⟩ := answer
      have contents : SameContents env.clock.now process.state refreshed.state := by
        rcases refresh with rfl | ⟨_, topology, _, rfl⟩
        · exact SameContents.refl _ _
        · exact refresh_topology_contents hashing _ process topology
      cases result with
      | error status => exact ⟨untouched, fun _ => NoTrace.refl _ _, refresh, contents⟩
      | ok _ =>
          obtain ⟨same, sections, alone⟩ :=
            lookup_and_commit_no_trace hashing config env refreshed request failed
          simp only [same]
          exact ⟨sections, alone, refresh, contents⟩

namespace FailedWrite

def sampleProcess : NodeProcess where
  state :=
    { topology := Sample.topology
      lease := some ⟨1, 1000⟩
      admittedFollowers := (∅ : FiniteMap String String).insert "b" "b-1"
      ownerStreamSequences := (∅ : FiniteMap StreamKey Nat).insert ⟨1, "b"⟩ 3 }
  dispatch := { failedStreams := [⟨1, "a", "b"⟩] }

def sampleConfig : NodeConfig := { nodeId := "a", processInstanceId := "a-1" }

def samplePut (topologyEpoch : Nat) : WriteRequest :=
  .put { key := [byte 107], value := [byte 1], topologyEpoch, requestId := "m", expiresAtUnixMillis := none
         preserveValue := false, precondition := none }

/-- Nothing else runs, and the coordinator has published epoch 2. -/
def sampleEnvironment : WriteEnvironment where
  fetched := .ok { Sample.topology with epoch := 2 }
  lookupAt := 10
  readyAt := 0
  status := none
  clock := Sample.clock 10
  reached := false
  finishedAt := 10
  others _ process := process

end FailedWrite

/-- The failed stream refuses the reservation after the sequence was assigned. -/
theorem failed_write_no_trace_sample :
    ∃ run, handleWrite Sample.hashing FailedWrite.sampleConfig FailedWrite.sampleEnvironment
        FailedWrite.sampleProcess (FailedWrite.samplePut 1) = run ∧
      run.answer = .ok { currentEpoch := 1, error := some (replicationBackpressureError 1) } ∧
      NoTrace 10 run.refreshed run.process := by
  have refused : (handleWrite Sample.hashing FailedWrite.sampleConfig FailedWrite.sampleEnvironment
      FailedWrite.sampleProcess (FailedWrite.samplePut 1)).answer =
        .ok { currentEpoch := 1, error := some (replicationBackpressureError 1) } := by
    decide +kernel
  refine ⟨_, rfl, refused, ?_⟩
  exact (failed_write_no_trace Sample.hashing FailedWrite.sampleConfig FailedWrite.sampleEnvironment
    FailedWrite.sampleProcess (FailedWrite.samplePut 1) (by rw [refused]; decide)).2.1 fun _ _ => rfl

/-- A request of a newer epoch is refused for want of a lease, after the
refresh it asked for has dropped the node's stream sequences. -/
theorem refreshing_write_leaves_trace :
    ¬∀ (hashing : Hashing) (config : NodeConfig) (env : WriteEnvironment) (process : NodeProcess)
        (request : WriteRequest),
      WriteFailed (handleWrite hashing config env process request).answer →
      (∀ stage other, env.others stage other = other) →
      NoTrace env.clock.now process (handleWrite hashing config env process request).process := by
  intro claimed
  have kept := (claimed Sample.hashing FailedWrite.sampleConfig FailedWrite.sampleEnvironment
    FailedWrite.sampleProcess (FailedWrite.samplePut 2) (by decide +kernel)
      (fun _ _ => rfl)).streamHeads ⟨1, "b"⟩
  have before : FailedWrite.sampleProcess.state.streamHead ⟨1, "b"⟩ = 3 := by decide +kernel
  have after : (handleWrite Sample.hashing FailedWrite.sampleConfig FailedWrite.sampleEnvironment
      FailedWrite.sampleProcess (FailedWrite.samplePut 2)).process.state.streamHead ⟨1, "b"⟩ = 0 := by
    decide +kernel
  rw [before, after] at kept
  exact absurd kept (by decide)

end Hashring
