import Hashring.AtMostOnce
import Hashring.AtomicUpdates
import Hashring.ExpirySweep
import Hashring.OwnVersions
import Hashring.RecordsMoved
import Hashring.WriteSections

/-! The owner of a key as the cluster's clients see it: whatever else its process
does, the records it shows and stores under the key are those of one history. -/
namespace Hashring

/-- The record as a reader knows it. -/
def Record.seen (record : Record) : Current :=
  { value := record.value, deadline := record.expiresAtUnixMillis, version := record.version }

/-- A tombstone is nothing to a reader. -/
def Record.content (record : Record) : Option Current := if record.deleted then none else some record.seen

def NodeState.content (state : NodeState) (key : Bytes) : Option Current :=
  (state.records.lookup key).bind Record.content

theorem alive_seen (record : Record) (unixMillis : Nat) :
    record.seen.alive unixMillis = !record.isExpired unixMillis := by
  unfold Current.alive Record.seen Record.isExpired
  cases record.expiresAtUnixMillis with
  | none => rfl
  | some deadline => simp [← decide_not]

/-- What the owner's own checks look at is what a reader would be shown. -/
theorem shown_content (state : NodeState) (key : Bytes) (unixMillis : Nat) :
    shownAt unixMillis (state.content key) = (liveRecord state key unixMillis).map Record.seen := by
  unfold NodeState.content liveRecord shownAt
  cases state.records.lookup key with
  | none => rfl
  | some record =>
      unfold Record.content
      cases removed : record.deleted with
      | true => simp [removed, Option.filter]
      | false =>
          simp only [Bool.false_eq_true, if_false, Option.bind_some, Option.filter, alive_seen,
            removed, Bool.not_false,
            Bool.true_and]
          cases record.isExpired unixMillis <;> simp

/-- The condition of a mutation, as the client wrote it. -/
def Condition.expected : Condition → Option Expect
  | .always => none
  | .absent => some .absent
  | .version expected => some (.version expected)

def Expiry.ofWire : Option Nat → Expiry
  | none => .keep
  | some unixMillis => .atMillis unixMillis

/-- The write a mutation comes to where this is shown; one without a condition
holds on whatever that is. -/
def MutationShape.asked (shape : MutationShape) (key : Bytes) (shown : Option Current) : AskedWrite :=
  if shape.deleted then .delete key (shape.condition.expected.getD (expectedFor shown))
  else if shape.preserveValue then
    .expire key shape.expiresAtUnixMillis (shape.condition.expected.getD (expectedFor shown))
  else .put key shape.value (Expiry.ofWire shape.expiresAtUnixMillis) shape.condition.expected

theorem asked_key (shape : MutationShape) (key : Bytes)
    (shown : Option Current) : (shape.asked key shown).key = key := by
  unfold MutationShape.asked
  split
  · rfl
  · split <;> rfl

theorem condition_met {condition : Condition} {live : Option Record}
    (holds : condition.holds live = true) :
    ∀ expected ∈ condition.expected, expected.Met (live.map Record.seen) := by
  rintro expected listed
  cases condition with
  | always => exact absurd listed (by simp [Condition.expected])
  | absent =>
      obtain rfl := Option.some.inj listed
      cases live with
      | none => rfl
      | some record => exact absurd holds (by simp [Condition.holds])
  | version version =>
      obtain rfl := Option.some.inj listed
      cases live with
      | none => exact absurd holds (by simp [Condition.holds])
      | some record => exact ⟨record.seen, rfl, by simpa [Condition.holds, Record.seen] using holds⟩

theorem asked_met {shape : MutationShape} {key : Bytes} {live : Option Record}
    (holds : shape.condition.holds live = true) :
    (shape.asked key (live.map Record.seen)).Met (live.map Record.seen) := by
  have either : (shape.condition.expected.getD (expectedFor (live.map Record.seen))).Met
      (live.map Record.seen) := by
    cases given : shape.condition.expected with
    | none => exact expected_for_met _
    | some expected => exact condition_met holds expected given
  unfold MutationShape.asked
  split
  · exact either
  · split
    · exact either
    · exact condition_met holds

inductive Fills (shape : MutationShape) (live : Option Record) (plan : WritePlan) : Prop
  | delete (removes : shape.deleted = true) (tombstone : plan.deleted = true)
  | keep (kept : Record) (stays : shape.deleted = false) (keeps : shape.preserveValue = true)
      (found : live = some kept)
      (value : plan.value = kept.value) (deadline : plan.expiresAtUnixMillis = shape.expiresAtUnixMillis)
      (stored : plan.deleted = false)
  | put (stays : shape.deleted = false) (plain : shape.preserveValue = false)
      (value : plan.value = shape.value)
      (deadline : plan.expiresAtUnixMillis = shape.expiresAtUnixMillis.orElse fun _ =>
        live.bind (·.expiresAtUnixMillis))
      (stored : plan.deleted = false)

theorem of_wire_leaves (wire : Option Nat) (live : Option Record) :
    (Expiry.ofWire wire).leaves (live.map Record.seen) =
      storedDeadline (wire.orElse fun _ => live.bind (·.expiresAtUnixMillis)) := by
  cases wire with
  | some unixMillis => exact (Change.expiry_of_leaves (some unixMillis) (live.map Record.seen))
  | none =>
      cases live with
      | none => rfl
      | some record =>
          change record.expiresAtUnixMillis = storedDeadline record.expiresAtUnixMillis
          exact (stored_deadline_record record).symm

theorem asked_stores {shape : MutationShape} {key : Bytes} {live : Option Record} {plan : WritePlan}
    {version : RecordVersion} (fills : Fills shape live plan) :
    (shape.asked key (live.map Record.seen)).stores (live.map Record.seen) version =
      some (plan.record version).content := by
  unfold MutationShape.asked
  cases fills with
  | delete removes tombstone => simp [removes, AskedWrite.stores, WritePlan.record, Record.stored,
      Record.content, tombstone]
  | keep kept stays keeps found value deadline stored =>
      simp [stays, keeps, found, AskedWrite.stores, WritePlan.record, Record.stored, Record.content,
        Record.seen, stored, value,
        deadline, Change.expiry_of_leaves]
  | put stays plain value deadline stored =>
      simp [stays, plain, AskedWrite.stores, WritePlan.record, Record.stored, Record.content,
        Record.seen, stored, value,
        deadline, of_wire_leaves]

/-- The section of a request that was validated as this mutation: it is refused,
ends with its expired receipts dropped, or goes on with a plan for the mutation. -/
theorem commit_request_shaped {hashing : Hashing} {config : NodeConfig} {clock : Clock}
    {process : NodeProcess} {request : WriteRequest} {ready : Readiness}
    (section_ : NodeProcess → Prop) (refused : section_ process)
    (purged : section_ { process with state := purgeExpiredDedup hashing process.state clock.now })
    (planned : ∀ (shape : MutationShape) (plan : WritePlan), request.validate config = .ok shape →
      plan.key = request.key →
      shape.condition.holds (liveRecord (purgeExpiredDedup hashing process.state clock.now)
        request.key clock.unixMillis) = true →
      Fills shape (liveRecord (purgeExpiredDedup hashing process.state clock.now) request.key
        clock.unixMillis) plan →
      section_ (commitPlan hashing config clock
        { process with state := purgeExpiredDedup hashing process.state clock.now } plan ready).1) :
    section_ (commitRequest hashing config clock process request ready).1 := by
  unfold commitRequest
  cases valid : request.validate config with
  | error error => exact refused
  | ok shape =>
      cases request with
      | put put =>
          obtain ⟨condition, -, rfl⟩ := AtMostOnce.mapped_condition (AtMostOnce.or_else_reject_ok
            (AtMostOnce.or_else_reject_ok
              (AtMostOnce.or_else_reject_ok (AtMostOnce.or_else_reject_ok valid))))
          refine receipt_checks_sections section_ refused purged fun _ _ _ _ => ?_
          simp only
          split
          · exact purged
          · rename_i holds
            have met := Bool.eq_true_of_not_eq_false holds
            split
            · exact purged
            · split
              · exact purged
              · rename_i kept keeps live
                refine planned _ _ valid rfl met (.keep kept ?_ ?_ live rfl rfl rfl)
                all_goals simp [putShape, keeps, MutationShape.withCondition, MutationShape.expiryOnly]
              · rename_i plain
                refine planned _ _ valid rfl met (.put ?_ ?_ ?_ ?_ rfl)
                all_goals simp [putShape, plain, MutationShape.withCondition, MutationShape.ofValue,
                  WriteRequest.key]
      | delete delete =>
          obtain ⟨condition, -, rfl⟩ := AtMostOnce.mapped_condition
            (AtMostOnce.or_else_reject_ok (AtMostOnce.or_else_reject_ok valid))
          refine receipt_checks_sections section_ refused purged fun _ _ _ _ => ?_
          simp only
          split
          · exact purged
          · rename_i holds
            exact planned _ _ valid rfl (Bool.eq_true_of_not_eq_false holds) (.delete rfl rfl)

/-! What a section does to the record of one key. -/

structure Stores (hashing : Hashing) (config : NodeConfig) (unixMillis : Nat)
    (before after : NodeState) (request : WriteRequest)
    (shape : MutationShape) (plan : WritePlan) : Prop where
  valid : request.validate config = .ok shape
  key : plan.key = request.key
  holds : shape.condition.holds (liveRecord before request.key unixMillis) = true
  fills : Fills shape (liveRecord before request.key unixMillis) plan
  records : ∀ probe, after.records.lookup probe =
    if probe = plan.key ∧ (plan.deleted = true → ∀ current, before.records.lookup plan.key =
      some current →
        current.version < WritePlan.version config before)
    then some (plan.record (WritePlan.version config before)) else before.records.lookup probe
  sequence : after.nextSequence = before.nextSequence + 1
  topology : after.topology = before.topology

structure Untouched (before after : NodeState) : Prop where
  records : after.records = before.records
  sequence : after.nextSequence = before.nextSequence
  topology : after.topology = before.topology

theorem untouched_purged (hashing : Hashing) (state : NodeState) (now : Instant) :
    Untouched state (purgeExpiredDedup hashing state now) := by
  obtain ⟨_, _, _, _, _, _, _, _, _, purged⟩ := purge_expired_only hashing state now
  rw [purged]
  exact ⟨rfl, rfl, rfl⟩

theorem commit_request_stores (hashing : Hashing) (config : NodeConfig) (clock : Clock)
    (process : NodeProcess) (request : WriteRequest) (ready : Readiness) :
    Untouched process.state (commitRequest hashing config clock process request ready).1.state ∨
      ∃ shape plan, Stores hashing config clock.unixMillis process.state
        (commitRequest hashing config clock process request ready).1.state request shape plan := by
  have purged := untouched_purged hashing process.state clock.now
  refine commit_request_shaped (fun after => Untouched process.state after.state ∨
    ∃ shape plan, Stores hashing config clock.unixMillis process.state after.state request shape plan)
    (.inl ⟨rfl, rfl, rfl⟩) (.inl purged) ?_
  intro shape plan valid key holds fills
  have live : liveRecord (purgeExpiredDedup hashing process.state clock.now) request.key
      clock.unixMillis =
      liveRecord process.state request.key clock.unixMillis := by
    unfold liveRecord
    rw [purged.records]
  have version : WritePlan.version config (purgeExpiredDedup hashing process.state clock.now) =
      WritePlan.version config process.state := by
    unfold WritePlan.version
    rw [purged.topology, purged.sequence]
  rw [live] at holds fills
  rcases commit_plan_sections hashing config clock
    { process with state := purgeExpiredDedup hashing process.state clock.now } plan ready with
    kept | ⟨-, -, -, prepared, entries, fanned, stored⟩
  · exact .inl ⟨kept.records.trans purged.records, kept.sequence.trans purged.sequence,
      kept.topology.trans purged.topology⟩
  · refine .inr ⟨shape, plan, valid, key, holds, fills, ?_, ?_, ?_⟩
    all_goals
      obtain ⟨_, _, numbered⟩ := prepare_frame _ _ _ _ fanned
      have effect := store_write_effect hashing clock prepared plan
        (plan.record (WritePlan.version config (purgeExpiredDedup hashing process.state clock.now)))
        ready.token ready.followers entries
    · intro probe
      rw [stored, effect.records, numbered, version, purged.records]
      rfl
    · obtain ⟨_, _, _, _, _, _, _, _, _, _, _, written⟩ := effect.frame
      rw [stored, written]
      exact congrArg (· + 1) purged.sequence
    · obtain ⟨_, _, _, _, _, _, _, _, _, _, _, written⟩ := effect.frame
      rw [stored, written, numbered]
      exact purged.topology

/-! Runs of the owner. -/

/-- What the answer to a read says of the key. -/
def GetResponse.shown : Except Status GetResponse → Option (Option Current)
  | .error _ => none
  | .ok response =>
      match response.error with
      | none => response.version.map fun version =>
          some { value := response.value, deadline := response.expiresAtUnixMillis, version }
      | some error => if error.code = .notFound then some none else none

inductive OwnerStep where
  | commit (label : Nat) (clock : Clock) (request : WriteRequest) (ready : Readiness)
  | read (label : Nat) (now : Instant) (unixMillis : Nat) (request : GetRequest)
  | sweep (unixMillis limit : Nat)
  | other (event : NodeEvent)

/-- A process, the last reading of its clock, and what its clients were shown and
had stored under the key. -/
structure Owner where
  process : NodeProcess
  unixMillis : Nat
  history : List KeyEvent := []

/-- What an owner does beside its own writes and sweeps, none of it a commit of a range
that covers the key or has a copy of it staged. -/
def NodeEvent.Elsewhere (hashing : Hashing) (key : Bytes) (state : NodeState) : NodeEvent → Prop
  | .commit .. | .sweep .. => False
  | .range (.commitDestination _ moved) => ∀ destination, state.destinations.lookup moved =
      some destination →
      destination.range.contains (state.tokenOf hashing key) = false ∧ key ∉ destination.records
  | _ => True

structure StillOwns (key : Bytes) (before after : NodeState) : Prop where
  record : after.records.lookup key = before.records.lookup key
  sequence : before.nextSequence ≤ after.nextSequence
  epoch : before.topology.epoch ≤ after.topology.epoch

namespace Owner

def written (key : Bytes) (label unixMillis : Nat) (request : WriteRequest)
    (before after : NodeState) : List KeyEvent :=
  if request.key = key ∧ before.nextSequence < after.nextSequence then
    [⟨label, key, unixMillis, shownAt unixMillis (before.content key), some (after.content key)⟩]
  else []

def told (key : Bytes) (label unixMillis : Nat) (request : GetRequest)
    (answer : Except Status GetResponse) : List KeyEvent :=
  if request.key = key then
    match GetResponse.shown answer with
    | some shown => [⟨label, key, unixMillis, shown, none⟩]
    | none => []
  else []

inductive Step (hashing : Hashing) (config : NodeConfig) (key : Bytes) (owner : Owner) :
    OwnerStep → Owner → Prop
  | commit {after : NodeProcess} (label : Nat) (clock : Clock) (request : WriteRequest)
    (ready : Readiness)
      (later : owner.unixMillis ≤ clock.unixMillis)
      (taken : NodeProcess.Step hashing config owner.process (.commit clock request ready) after) :
      Step hashing config key owner (.commit label clock request ready)
        ⟨after, clock.unixMillis,
          owner.history ++ written key label clock.unixMillis request owner.process.state after.state⟩
  | read (label : Nat) (now : Instant) (unixMillis : Nat) (request : GetRequest)
      (later : owner.unixMillis ≤ unixMillis) :
      Step hashing config key owner (.read label now unixMillis request)
        ⟨owner.process, unixMillis, owner.history ++
          told key label unixMillis request
            (getRecord hashing config owner.process.state now unixMillis request)⟩
  | sweep {after : NodeProcess} (unixMillis limit : Nat) (later : owner.unixMillis ≤ unixMillis)
      (taken : NodeProcess.Step hashing config owner.process (.sweep unixMillis limit) after) :
      Step hashing config key owner (.sweep unixMillis limit) ⟨after, unixMillis, owner.history⟩
  | other {after : NodeProcess} (event : NodeEvent)
      (taken : NodeProcess.Step hashing config owner.process event after)
      (owns : Owns config owner.process.state.topology (owner.process.state.tokenOf hashing key))
      (elsewhere : event.Elsewhere hashing key owner.process.state) :
      Step hashing config key owner (.other event) { owner with process := after }

end Owner

def NodeState.Leads (config : NodeConfig) (key : Bytes) (state : NodeState) : Prop :=
  ∀ record, state.records.lookup key = some record → record.version < WritePlan.version config state

namespace Cluster

def holding (key : Bytes) (content : Option Current) (now : Nat) : Cluster where
  records other := if other = key then content else none
  now
  issued := content.toList
  history := []
  stray := []

def Serves (cluster after : Cluster) : Prop :=
  cluster.Moves after ∨ ∃ (label : Nat) (γ : Type) (call : ClientCall γ) (answer : γ),
    Answers label call cluster answer after

theorem holding_sound (key : Bytes) (content : Option Current) (now : Nat) :
    (holding key content now).Sound (holding key content now).records where
  once := by cases content <;> simp [holding]
  issued other record found := by
    simp only [holding] at found ⊢
    split at found
    · exact Option.mem_toList.mpr found
    · exact absurd found (by simp)
  consistent := ⟨fun earlier event later split => absurd split (by simp [holding]), List.Pairwise.nil⟩
  current _ := rfl
  past event member := absurd member List.not_mem_nil

theorem serves_sound {initial : Bytes → Option Current} {cluster after : Cluster}
    (sound : cluster.Sound initial)
    (served : Relation.ReflTransGen Serves cluster after) : after.Sound initial := by
  induction served with
  | refl => exact sound
  | tail _ step ih =>
      rcases step with moves | ⟨_, _, _, _, answers⟩
      · exact sound_moves ih moves
      · exact sound_answers ih answers

theorem makes_serves {cluster after : Cluster} {label : Nat} {asked : AskedWrite}
    (makes : cluster.Makes label asked after) :
    cluster.Serves after := by
  have version : RecordVersion := ⟨0, 0, ""⟩
  cases asked with
  | put key value expiry expected =>
      cases expected with
      | none => exact .inr ⟨label, _, .putWithExpiry key value expiry, .ok ⟨version, 0⟩, makes⟩
      | some expected => exact .inr ⟨label, _, .putIf key value expiry expected,
          .ok (some ⟨version, 0⟩), makes⟩
  | expire key deadline expected => exact .inr ⟨label, _, .setExpiryIf key deadline expected,
      .ok (some ⟨version, 0⟩), makes⟩
  | delete key expected => exact .inr ⟨label, _, .deleteIf key expected, .ok (some ⟨0, version⟩), makes⟩

end Cluster

/-! The owner follows the cluster. -/

/-- What the owner stores and has shown is what the cluster does, and its next
version is new. -/
structure Owner.Follows (config : NodeConfig) (key : Bytes) (owner : Owner) (cluster : Cluster) :
    Prop where
  stored : cluster.records key = owner.process.state.content key
  now : cluster.now = owner.unixMillis
  history : cluster.history = owner.history
  leads : owner.process.state.Leads config key
  issued : ∀ record ∈ cluster.issued, record.version < WritePlan.version config owner.process.state

theorem version_grows {config : NodeConfig} {before after : NodeState}
    (sequence : before.nextSequence ≤ after.nextSequence)
    (epoch : before.topology.epoch ≤ after.topology.epoch) {version : RecordVersion}
    (below : version < WritePlan.version config before) : version < WritePlan.version config after := by
  rw [RecordVersion.lt_iff] at below ⊢
  simp only [WritePlan.version] at below ⊢
  rcases below with older | ⟨same, earlier | ⟨equal, name⟩⟩
  · exact .inl (older.trans_le epoch)
  · rcases epoch.lt_or_eq with newer | unchanged
    · exact .inl (same ▸ newer)
    · exact .inr ⟨same.trans unchanged, .inl (by omega)⟩
  · rcases epoch.lt_or_eq with newer | unchanged
    · exact .inl (same ▸ newer)
    · rcases sequence.lt_or_eq with more | still
      · exact .inr ⟨same.trans unchanged, .inl (by omega)⟩
      · exact .inr ⟨same.trans unchanged, .inr ⟨by omega, name⟩⟩

theorem still_owns_content {key : Bytes} {before after : NodeState} (owns : StillOwns key before after) :
    after.content key = before.content key := by
  unfold NodeState.content
  rw [owns.record]

theorem still_owns_leads {config : NodeConfig} {key : Bytes} {before after : NodeState}
    (owns : StillOwns key before after)
    (leads : before.Leads config key) : after.Leads config key := by
  intro record found
  rw [owns.record] at found
  exact version_grows owns.sequence owns.epoch (leads record found)

/-! What ownership keeps away from a key. -/
section Keeps

variable {hashing : Hashing} {config : NodeConfig} {key : Bytes} {state after : NodeState}

theorem remove_keys_elsewhere (keys : List (Token × Bytes)) (elsewhere : key ∉ keys.map Prod.snd) :
    (keys.foldl (fun state entry => state.removeRecordAt entry.1 entry.2) state).records.lookup key =
      state.records.lookup key := by
  rw [(remove_keys_fold keys state).2, if_neg elsewhere]

theorem apply_records_elsewhere (entries : List (Sigma fun _ : Bytes => Record)) (state : NodeState)
    (elsewhere : ∀ entry ∈ entries, entry.1 ≠ key) :
    (entries.foldl (fun state entry => state.applyRecord hashing entry.1 entry.2)
      state).records.lookup key =
      state.records.lookup key := by
  induction entries generalizing state with
  | nil => rfl
  | cons entry rest ih =>
      rw [List.foldl_cons, ih _ fun other listed => elsewhere other (List.mem_cons_of_mem _ listed),
        NodeState.lookup_apply_record, if_neg]
      exact fun here => elsewhere entry List.mem_cons_self here.1.symm

theorem owned_not_dropped (indexed : NodeState.RecordsIndexed hashing state)
    (owns : Owns config state.topology (state.tokenOf hashing key)) (range : RangeSpec) :
    key ∉ (droppedKeys config state range).map Prod.snd := by
  intro listed
  obtain ⟨⟨token, probe⟩, member, rfl⟩ := List.mem_map.mp listed
  obtain ⟨present, dropped⟩ := List.mem_filter.mp member
  obtain ⟨rfl, -⟩ := (indexed token probe).mp ((TokenIndex.mem_inRange _ _ _ _).mp present).1
  obtain ⟨owner, routed, named⟩ := owns
  split at dropped
  · rename_i replicas placed
    have first := TopologySnapshot.replica_node_ids_head placed
    rw [TopologySnapshot.owner_for_token_owner_id routed, named] at first
    have holds : config.nodeId ∈ replicas := List.mem_of_head? first
    simp [holds] at dropped
  · exact absurd dropped (by simp)

theorem commit_range_elsewhere (indexed : NodeState.RecordsIndexed hashing state) (clock : Clock)
    (range : RangeKey) (destination : DestinationMigration)
    (outside : destination.range.contains (state.tokenOf hashing key) = false)
    (unstaged : key ∉ destination.records) :
    (commitRange hashing clock state range destination).records.lookup key =
      state.records.lookup key := by
  obtain ⟨_, _, _, _, _, _, _, _, _, purged⟩ := purge_expired_only hashing state clock.later
  obtain ⟨_, _, _, _, _, adopted⟩ := adopt_receipts_only hashing (destination.liveDedup clock.now).entries
    (replaceRange hashing (purgeExpiredDedup hashing state clock.later) destination.range
      destination.records)
  simp only [commitRange, NodeState.withDestination, adopted]
  unfold replaceRange
  rw [apply_records_elsewhere, remove_keys_elsewhere, purged]
  · intro listed
    obtain ⟨⟨token, probe⟩, member, rfl⟩ := List.mem_map.mp listed
    obtain ⟨present, inside⟩ := (TokenIndex.mem_inRange _ _ _ _).mp member
    rw [purged] at present
    obtain ⟨rfl, -⟩ := (indexed token probe).mp present
    exact absurd (outside.symm.trans inside) (by simp)
  · rintro entry listed rfl
    exact unstaged ((FiniteMap.mem_iff_lookup _ _).mpr
      ⟨entry.2, (FiniteMap.lookup_some_iff _ _ _).mpr listed⟩)

theorem range_elsewhere {operation : RangeOperation}
    (step : RangeSection hashing config state operation after)
    (indexed : NodeState.RecordsIndexed hashing state)
    (owns : Owns config state.topology (state.tokenOf hashing key))
    (elsewhere : NodeEvent.Elsewhere hashing key state (.range operation)) :
    after.records.lookup key = state.records.lookup key := by
  cases step with
  | kept same => rw [same.records]
  | refused clock =>
      obtain ⟨_, _, _, _, _, _, _, _, _, only⟩ := purge_expired_only hashing state clock.later
      rw [only]
  | source | paused | destination | batch | receipts | activated => rfl
  | committed clock range destination found =>
      obtain ⟨outside, unstaged⟩ := elsewhere destination found
      exact commit_range_elsewhere indexed clock range destination outside unstaged
  | cleaned range source =>
      rw [remove_source_records]
      exact remove_keys_elsewhere _ (owned_not_dropped indexed owns source.range)
  | aborted range => exact congrArg (AList.lookup key) (remove_source_records state range)
  | cleared => exact congrArg (AList.lookup key) (remove_sources_records _ state)

/-- While a node owns the key, its other events leave the record alone: entries of
others are refused at its token, and a cleanup passes it over. -/
theorem owned_record_stays {process : NodeProcess} {event : NodeEvent}
    (indexed : NodeIndexed hashing process.state)
    (owns : Owns config process.state.topology (process.state.tokenOf hashing key))
    (elsewhere : event.Elsewhere hashing key process.state) :
    (process.handle hashing config event).state.records.lookup key =
      process.state.records.lookup key := by
  have rule : StoreRule hashing config process.state event
      (fun before after => after.records.lookup key = before.records.lookup key) := {
    refl := fun _ => rfl
    trans := fun early late => late.trans early
    stores := fun _ _ same => by rw [same.records]
    purge := fun now before => by
      obtain ⟨_, _, _, _, _, _, _, _, _, only⟩ := purge_expired_only hashing before now
      rw [only]
    write := by
      rintro clock request ready rfl
      exact elsewhere.elim
    acks := by
      intro id version before
      obtain ⟨_, _, frame⟩ := complete_required_acks_frame before id version
      rw [frame]
    entry := by
      intro clock entry _ before record same admitted
      -- An accepted entry comes from the owner of its token, which this node is not.
      have foreign := (entry_checked admitted.checked).foreign
      rw [accept_entry_records]
      refine (NodeState.lookup_apply_record hashing before entry.key key record).trans
        (if_neg fun here => foreign ?_)
      rw [← here.1, NodeState.tokenOf, same]
      exact owns
    range := by
      rintro operation rfl after step
      exact range_elsewhere step indexed.records owns elsewhere
    sweep := by
      rintro unixMillis limit rfl
      exact elsewhere.elim
    release := fun range before => congrArg (AList.lookup key) (remove_source_records before range)
    unprepare := fun _ _ _ => rfl
    adopt := by
      intro topology _ _ before _
      unfold NodeState.setTopology
      split <;> rfl }
  exact handle_rule rule

theorem owned_stays {before after : NodeProcess} {event : NodeEvent}
    (indexed : NodeIndexed hashing before.state)
    (owns : Owns config before.state.topology (before.state.tokenOf hashing key))
    (elsewhere : event.Elsewhere hashing key before.state)
    (taken : NodeProcess.Step hashing config before event after) :
    StillOwns key before.state after.state := by
  obtain ⟨sources, reordered, rfl⟩ := taken
  have shuffled : NodeIndexed hashing { before.state with sources } := indexed.reorder reordered
  have kept : event.Elsewhere hashing key { before.state with sources } := by
    cases event with
    | range operation => cases operation <;> exact elsewhere
    | commit | finishAcks | replicate | replicateBatch | checkpoint | sweep | install | refresh |
        renewed | pausePolicy
      | resumePolicy | collect | send | answered => exact elsewhere
  let current : NodeProcess := { before with state := { before.state with sources } }
  have record : (current.handle hashing config event).state.records.lookup key =
      before.state.records.lookup key :=
    owned_record_stays shuffled owns kept
  refine ⟨record, handle_sequence hashing config current event, ?_⟩
  rcases handle_topology hashing config current event with same | ⟨topology, _, newer, installed⟩
  · exact (congrArg TopologySnapshot.epoch same).ge
  · exact newer.trans (congrArg TopologySnapshot.epoch installed).ge

end Keeps

namespace Owner

variable {hashing : Hashing} {config : NodeConfig} {key : Bytes} {owner : Owner} {cluster : Cluster}

theorem follows_owns {after : NodeProcess} (follows : owner.Follows config key cluster)
    (owns : StillOwns key owner.process.state after.state) :
    ({ owner with process := after } : Owner).Follows config key cluster where
  stored := follows.stored.trans (still_owns_content owns).symm
  now := follows.now
  history := follows.history
  leads := still_owns_leads owns follows.leads
  issued record listed := version_grows owns.sequence owns.epoch (follows.issued record listed)

theorem follows_reordered (follows : owner.Follows config key cluster)
    (sources : FiniteMap RangeKey SourceMigration) :
    ({ owner with process := { owner.process with state := { owner.process.state with sources } } }
      : Owner).Follows config key
      cluster :=
  ⟨follows.stored, follows.now, follows.history, follows.leads, follows.issued⟩

theorem follows_pass {unixMillis : Nat} (follows : owner.Follows config key cluster)
    (later : owner.unixMillis ≤ unixMillis) :
    cluster.Moves { cluster with now := unixMillis } ∧
      ({ owner with unixMillis } : Owner).Follows config key { cluster with now := unixMillis } :=
  ⟨.pass unixMillis (follows.now ▸ later), follows.stored, rfl, follows.history, follows.leads,
    follows.issued⟩

theorem follows_stores (label : Nat) {after : NodeProcess} {request : WriteRequest}
    {shape : MutationShape} {plan : WritePlan}
    (follows : owner.Follows config key cluster) (here : request.key = key)
    (stores : Stores hashing config owner.unixMillis owner.process.state after.state request shape plan) :
    ∃ next, cluster.Makes label (shape.asked key (cluster.shown key)) next ∧
      (⟨after, owner.unixMillis, owner.history ++
        written key label owner.unixMillis request owner.process.state after.state⟩ :
        Owner).Follows config key next := by
  have shown : cluster.shown key = (liveRecord owner.process.state request.key owner.unixMillis).map
      Record.seen := by
    rw [Cluster.shown, follows.stored, follows.now, here]
    exact shown_content _ _ _
  have found : after.state.records.lookup key =
      some (plan.record (WritePlan.version config owner.process.state)) := by
    rw [stores.records, if_pos]
    exact ⟨by rw [stores.key, here], fun _ current there => follows.leads current
      (by rw [← here, ← stores.key]; exact there)⟩
  have content : after.state.content key =
      (plan.record (WritePlan.version config owner.process.state)).content := by
    rw [NodeState.content, found]
    rfl
  -- A write takes a sequence, which is how it shows in the history.
  have grown : owner.process.state.nextSequence < after.state.nextSequence := by
    rw [stores.sequence]
    exact Nat.lt_succ_self _
  have next : WritePlan.version config owner.process.state < WritePlan.version config after.state := by
    rw [RecordVersion.lt_iff]
    simp only [WritePlan.version, stores.topology]
    exact .inr ⟨trivial, .inl (by omega)⟩
  refine ⟨cluster.storing label key (after.state.content key),
    ⟨?_, WritePlan.version config owner.process.state,
    after.state.content key, ?_, fun record listed same => ?_, by rw [asked_key]⟩, ?_⟩
  · rw [asked_key, shown]
    exact asked_met stores.holds
  · rw [asked_key, shown, content]
    exact asked_stores stores.fills
  · -- Every version issued so far is below the one this write takes.
    exact absurd (follows.issued record listed) (by rw [same]; exact lt_irrefl _)
  · refine ⟨by simp [Cluster.storing], follows.now, ?_, ?_, ?_⟩
    · simp only [Cluster.storing, written, here, grown, and_self, if_true, follows.history,
        follows.now, Cluster.shown,
        follows.stored]
    · intro record stored
      obtain rfl := Option.some.inj (found.symm.trans stored)
      exact next
    · intro record listed
      rcases List.mem_append.mp listed with old | new
      · exact (follows.issued record old).trans next
      · have held := Option.mem_toList.mp new
        rw [content, Record.content] at held
        split at held
        · exact absurd held (by simp)
        · obtain rfl := Option.some.inj held
          exact next

theorem get_shown (hashing : Hashing) (config : NodeConfig) (state : NodeState) (now : Instant)
    (unixMillis : Nat) (request : GetRequest) :
    GetResponse.shown (getRecord hashing config state now unixMillis request) = none ∨
      GetResponse.shown (getRecord hashing config state now unixMillis request) =
        some (shownAt unixMillis (state.content request.key)) := by
  unfold getRecord
  cases invalid : validateKey config request.key with
  | some error =>
      -- A refusal of the key is never the code of a missing record.
      refine .inl ?_
      have refused : error.code ≠ .notFound := by
        unfold validateKey at invalid
        split at invalid
        · rw [← Option.some.inj invalid]
          decide
        · split at invalid
          · rw [← Option.some.inj invalid]
            simp [operationError]
          · exact absurd invalid (by simp)
      simp [GetResponse.shown, refused]
  | none =>
      rcases owned : ownerError config state (state.tokenOf hashing request.key) now
        with status | _ | error
      · exact .inl rfl
      · refine .inr ?_
        have same := shown_content state request.key unixMillis
        unfold liveRecord at same
        simp only
        cases live : (state.records.lookup request.key).filter fun record =>
          !record.deleted && !record.isExpired unixMillis with
        | none =>
            rw [same, live]
            rfl
        | some record =>
            rw [same, live]
            rfl
      · refine .inl ?_
        have refused : error.code ≠ .notFound := by
          unfold ownerError at owned
          split at owned
          · exact absurd owned (by simp)
          · split at owned
            · have lapsed := Except.ok.inj owned
              unfold leaseError at lapsed
              split at lapsed
              · rw [← Option.some.inj lapsed]
                simp [operationError]
              · exact absurd lapsed (by simp)
            · rw [← Option.some.inj (Except.ok.inj owned)]
              simp
        simp [GetResponse.shown, refused]

theorem follows_commit {after : NodeProcess} {label : Nat} {clock : Clock} {request : WriteRequest}
    {ready : Readiness} (follows : owner.Follows config key cluster)
    (later : owner.unixMillis ≤ clock.unixMillis)
    (taken : NodeProcess.Step hashing config owner.process (.commit clock request ready) after) :
    ∃ next, Relation.ReflTransGen Cluster.Serves cluster next ∧
      (⟨after, clock.unixMillis, owner.history ++
        written key label clock.unixMillis request owner.process.state after.state⟩ :
        Owner).Follows config key next := by
  obtain ⟨sources, -, rfl⟩ := taken
  obtain ⟨passes, follows⟩ := follows_pass follows later
  have elapsed : Relation.ReflTransGen Cluster.Serves cluster
      { cluster with now := clock.unixMillis } := .single (.inl passes)
  have follows := follows_reordered follows sources
  -- The write-lock section runs on the records the process had.
  rcases commit_request_stores hashing config clock
    { owner.process with state := { owner.process.state with sources } }
    request ready with untouched | ⟨shape, plan, stores⟩
  · refine ⟨_, elapsed, ?_⟩
    have silent : written key label clock.unixMillis request owner.process.state
        (commitRequest hashing config clock
          { owner.process with state := { owner.process.state with sources } } request
          ready).1.state = [] := by
      unfold written
      rw [untouched.sequence]
      exact if_neg fun stored => absurd stored.2 (lt_irrefl _)
    have owns : StillOwns key { owner.process.state with sources } (commitRequest hashing config clock
        { owner.process with state := { owner.process.state with sources } } request ready).1.state :=
      ⟨by rw [untouched.records], untouched.sequence.ge, by rw [untouched.topology]⟩
    have reached := follows_owns follows owns
    exact ⟨reached.stored, reached.now,
      by rw [reached.history, NodeProcess.handle, silent, List.append_nil], reached.leads,
      reached.issued⟩
  · by_cases here : request.key = key
    · obtain ⟨next, makes, reached⟩ := follows_stores label follows here stores
      exact ⟨next, elapsed.tail (Cluster.makes_serves makes), reached⟩
    · refine ⟨_, elapsed, ?_⟩
      have owns : StillOwns key { owner.process.state with sources } (commitRequest hashing config clock
          { owner.process with state := { owner.process.state with sources } } request
              ready).1.state := by
        refine ⟨?_, by rw [stores.sequence]; exact Nat.le_succ _, by rw [stores.topology]⟩
        rw [stores.records, if_neg]
        rintro ⟨same, -⟩
        exact here (stores.key.symm.trans same.symm)
      have reached := follows_owns follows owns
      exact ⟨reached.stored, reached.now,
        by rw [reached.history, written, if_neg fun stored => here stored.1, List.append_nil],
        reached.leads, reached.issued⟩

theorem follows_read {label : Nat} {now : Instant} {unixMillis : Nat} {request : GetRequest}
    (follows : owner.Follows config key cluster) (later : owner.unixMillis ≤ unixMillis) :
    ∃ next, Relation.ReflTransGen Cluster.Serves cluster next ∧
      (⟨owner.process, unixMillis, owner.history ++
        told key label unixMillis request
          (getRecord hashing config owner.process.state now unixMillis request)⟩ :
        Owner).Follows config key next := by
  obtain ⟨passes, reached⟩ := follows_pass follows later
  have elapsed : Relation.ReflTransGen Cluster.Serves cluster { cluster with now := unixMillis } :=
    .single (.inl passes)
  have silent : told key label unixMillis request
      (getRecord hashing config owner.process.state now unixMillis request) = [] →
      (⟨owner.process, unixMillis, owner.history ++
        told key label unixMillis request
          (getRecord hashing config owner.process.state now unixMillis request)⟩ :
        Owner).Follows config key { cluster with now := unixMillis } := by
    intro nothing
    rw [nothing, List.append_nil]
    exact reached
  by_cases here : request.key = key
  · subst here
    rcases get_shown hashing config owner.process.state now unixMillis request with refused | answered
    · exact ⟨_, elapsed, silent (by rw [told, if_pos rfl, refused])⟩
    · have shown : ({ cluster with now := unixMillis } : Cluster).shown request.key =
          shownAt unixMillis (owner.process.state.content request.key) := by
        rw [Cluster.shown, reached.stored]
      refine ⟨({ cluster with now := unixMillis } : Cluster).showing label request.key,
        elapsed.tail (.inr ?_), ?_⟩
      · cases found : ({ cluster with now := unixMillis } : Cluster).shown request.key with
        | none => exact ⟨label, _, .get request.key, .error Cluster.missingKey, found, rfl⟩
        | some record =>
            exact ⟨label, _, .get request.key,
              .ok ⟨record.value, record.version, 0, record.deadline⟩, found, rfl⟩
      · refine ⟨reached.stored, rfl, ?_, reached.leads, reached.issued⟩
        rw [told, if_pos rfl, answered, ← shown, ← reached.history]
        rfl
  · exact ⟨_, elapsed, silent (by rw [told, if_neg here])⟩

/-- Records that are removed were past their deadline, or no reader saw them. -/
theorem follows_swept {after : NodeState} (follows : owner.Follows config key cluster)
    (swept : SweepExact hashing owner.unixMillis owner.process.state after)
    (sequence : after.nextSequence = owner.process.state.nextSequence)
    (topology : after.topology = owner.process.state.topology) :
    ∃ next, Relation.ReflTransGen Cluster.Serves cluster next ∧
      ({ owner with process := { owner.process with state := after } } : Owner).Follows config key
        next := by
  have owns : after.records.lookup key = owner.process.state.records.lookup key →
      StillOwns key owner.process.state after := fun same => ⟨same, sequence.ge, by rw [topology]⟩
  cases found : owner.process.state.records.lookup key with
  | none =>
      have gone : after.records.lookup key = none := by
        cases back : after.records.lookup key with
        | none => rfl
        | some record => exact absurd (found.symm.trans (swept.kept key record back)) (by simp)
      exact ⟨cluster, .refl, follows_owns follows (owns (gone.trans found.symm))⟩
  | some record =>
      rcases swept.removed key record found with still | ⟨gone, ⟨deadline, due, passed⟩, -⟩
      · exact ⟨cluster, .refl, follows_owns follows (owns (still.trans found.symm))⟩
      · have empty : after.content key = none := by
          rw [NodeState.content, gone]
          rfl
        have leads : after.Leads config key := fun other there => absurd (gone.symm.trans there) (by simp)
        have issued : ∀ record ∈ cluster.issued, record.version < WritePlan.version config after :=
          fun record listed =>
          version_grows sequence.ge (by rw [topology]) (follows.issued record listed)
        have stored := follows.stored
        rw [NodeState.content, found, Option.bind_some, Record.content] at stored
        split at stored
        · exact ⟨cluster, .refl, stored.trans empty.symm, follows.now, follows.history, leads, issued⟩
        · have overdue : record.seen.alive cluster.now = false := by
            rw [alive_seen, follows.now, Record.isExpired, due]
            simpa using passed
          refine ⟨_, .single (.inl (.sweep stored overdue)), ?_⟩
          exact ⟨by simp [empty], follows.now, follows.history, leads, issued⟩

theorem follows_sweep {after : NodeProcess} {unixMillis limit : Nat}
    (follows : owner.Follows config key cluster) (later : owner.unixMillis ≤ unixMillis)
    (indexed : NodeIndexed hashing owner.process.state)
    (taken : NodeProcess.Step hashing config owner.process (.sweep unixMillis limit) after) :
    ∃ next, Relation.ReflTransGen Cluster.Serves cluster next ∧
      (⟨after, unixMillis, owner.history⟩ : Owner).Follows config key next := by
  obtain ⟨sources, reordered, rfl⟩ := taken
  obtain ⟨passes, follows⟩ := follows_pass follows later
  have swept : SweepExact hashing unixMillis { owner.process.state with sources }
      (sweepExpiredRecords hashing unixMillis limit { owner.process.state with sources }).1 :=
    SweepExact.sweep limit (indexed.reorder reordered)
  obtain ⟨⟨_, _, _, _, only⟩, -⟩ :=
    (sweep_swept hashing unixMillis limit { owner.process.state with sources }).only
  have sequence : (sweepExpiredRecords hashing unixMillis limit
      { owner.process.state with sources }).1.nextSequence =
      owner.process.state.nextSequence := by rw [only]
  have topology : (sweepExpiredRecords hashing unixMillis limit
      { owner.process.state with sources }).1.topology =
      owner.process.state.topology := by rw [only]
  obtain ⟨next, served, reached⟩ :=
    follows_swept (follows_reordered follows sources) swept sequence topology
  exact ⟨next, .head (.inl passes) served, reached⟩

/-- The process that has the key: its indices are sound and its clients saw what
the cluster's did. -/
theorem follows_step {step : OwnerStep} {after : Owner} (follows : owner.Follows config key cluster)
    (indexed : NodeIndexed hashing owner.process.state)
    (taken : Step hashing config key owner step after) :
    NodeIndexed hashing after.process.state ∧
      ∃ next, Relation.ReflTransGen Cluster.Serves cluster next ∧ after.Follows config key next := by
  cases taken with
  | commit label clock request ready later taken =>
      exact ⟨indexed.step taken, follows_commit follows later taken⟩
  | read label now unixMillis request later => exact ⟨indexed, follows_read follows later⟩
  | sweep unixMillis limit later taken =>
      exact ⟨indexed.step taken, follows_sweep follows later indexed taken⟩
  | other event taken owns elsewhere =>
      exact ⟨indexed.step taken, cluster, .refl,
        follows_owns follows (owned_stays indexed owns elsewhere taken)⟩

theorem reached_leads {process : NodeProcess} (reached : ReachedNode hashing config process)
    (owns : Owns config process.state.topology (process.state.tokenOf hashing key)) :
    process.state.Leads config key :=
  fun record found => (VersionsAssigned.reached reached).below key record found owns

end Owner

/-! An owner that took its range over from another: a read, a stray copy of the key,
a write, a range that leaves, and a read. -/
namespace OwnerSample

open RangeMove

def key : Bytes := [byte 107]

/-- A copy of a write that "b" made when it was the owner. -/
def stray : ReplicationEntry where
  topologyEpoch := 0
  ownerNodeId := "b"
  streamSequence := 1
  key
  value := [byte 1]
  deleted := false
  version := some ⟨0, 1, "b"⟩
  mutationId := "w"
  requestFingerprint := sampleFingerprint
  expiresAtUnixMillis := none

def copied : NodeProcess :=
  sampleSource.handle Sample.hashing sampleSourceConfig (.replicate (Sample.clock 8) stray)

def wrote : NodeProcess :=
  copied.handle Sample.hashing sampleSourceConfig
    (.commit (Sample.clock 10) (samplePut (byte 107) "n") ⟨5, 7, 1, ["b"]⟩)

def leaving : NodeProcess :=
  wrote.handle Sample.hashing sampleSourceConfig (.range (.prepareSource (some sampleRange)))

def read : GetRequest := { key, topologyEpoch := 1, requestId := "r" }

def steps : List OwnerStep :=
  [.read 4 5 0 read, .other (.replicate (Sample.clock 8) stray),
    .commit 3 (Sample.clock 10) (samplePut (byte 107) "n") ⟨5, 7, 1, ["b"]⟩,
    .other (.range (.prepareSource (some sampleRange))), .read 4 20 0 read]

def last : Owner where
  process := leaving
  unixMillis := 0
  history := Owner.told key 4 0 read
    (getRecord Sample.hashing sampleSourceConfig sampleSource.state 5 0 read) ++
    Owner.written key 3 0 (samplePut (byte 107) "n") copied.state wrote.state ++
    Owner.told key 4 0 read (getRecord Sample.hashing sampleSourceConfig leaving.state 20 0 read)

theorem owns_installed {state : NodeState} (installed : state.topology = Sample.topology) :
    Owns sampleSourceConfig state.topology (state.tokenOf Sample.hashing key) := by
  rw [NodeState.tokenOf, installed]
  exact ⟨⟨"a", "http://127.0.0.1:5001"⟩, rfl, rfl⟩

theorem run : Transition.Run (Owner.Step Sample.hashing sampleSourceConfig key)
    ⟨sampleSource, 0, []⟩ steps last := by
  refine .next (.read 4 5 0 read le_rfl) ?_
  refine .next (.other _ ⟨sampleSource.state.sources, .refl _, rfl⟩
    (owns_installed (by decide +kernel)) trivial) ?_
  refine .next (.commit 3 (Sample.clock 10) _ _ (Nat.zero_le _) ⟨copied.state.sources, .refl _, rfl⟩) ?_
  refine .next (.other _ ⟨wrote.state.sources, .refl _, rfl⟩ (owns_installed (by decide +kernel))
    trivial) ?_
  exact .next (.read 4 20 0 read le_rfl) (.refl _)

end OwnerSample

end Hashring
