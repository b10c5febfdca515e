import Hashring.StoreSections

/-! Where the records of a node come from. A record that is stored after an event was
stored before it, or was planned by a write, delivered by a follower entry, or staged
for the range that a commit takes over. -/
namespace Hashring

def NodeState.Holds (state : NodeState) (kind : Nat → Bytes → Record → Prop) : Prop :=
  ∀ key record, state.records.lookup key = some record → kind state.nextSequence key record

variable {hashing : Hashing} {config : NodeConfig}

theorem stage_record_origin {records staged : FiniteMap Bytes Record} {sent : MigrationRecord}
    (accepted : stageRecord records sent = .ok staged) {key : Bytes} {record : Record}
    (found : staged.lookup key = some record) :
    records.lookup key = some record ∨ key = sent.key ∧ ∃ version carried, sent.version = some version ∧
      record = Record.stored sent.value version sent.deleted sent.expiresAtUnixMillis carried := by
  unfold stageRecord at accepted
  split at accepted
  · exact absurd accepted (by simp)
  · split at accepted
    · exact absurd accepted (by simp)
    · rename_i version given carried
      have inserted : (records.insert sent.key (Record.stored sent.value version sent.deleted
          sent.expiresAtUnixMillis carried)).lookup key = some record →
            records.lookup key = some record ∨ key = sent.key ∧ ∃ version carried,
              sent.version = some version ∧
              record = Record.stored sent.value version sent.deleted sent.expiresAtUnixMillis
                  carried := by
        intro stored
        rw [FiniteMap.lookup_insert_if] at stored
        split at stored
        · rename_i here
          exact .inr ⟨here, version, carried, given, (Option.some.inj stored).symm⟩
        · exact .inl stored
      rw [← Except.ok.inj accepted] at found
      unfold applyInternalRecord at found
      split at found
      · exact inserted found
      · split at found
        · exact inserted found
        · exact .inl found

theorem remove_source_records (state : NodeState)
    (key : RangeKey) : (state.removeSource key).records = state.records := by
  unfold NodeState.removeSource
  split <;> rfl

theorem remove_sources_records (keys : List RangeKey) (state : NodeState) :
    (keys.foldl NodeState.removeSource state).records = state.records := by
  induction keys generalizing state with
  | nil => rfl
  | cons key rest ih => exact (ih _).trans (remove_source_records state key)

theorem remove_source_sequence (state : NodeState) (key : RangeKey) :
    (state.removeSource key).nextSequence = state.nextSequence := by
  unfold NodeState.removeSource
  split <;> rfl

section Kinds

variable {kind : Nat → Bytes → Record → Prop}

theorem same_held {before after : NodeState} (start : before.Holds kind)
    (records : after.records = before.records)
    (sequence : after.nextSequence = before.nextSequence) : after.Holds kind := by
  intro key record found
  rw [records] at found
  rw [sequence]
  exact start key record found

theorem apply_record_held {state : NodeState} (start : state.Holds kind) {key : Bytes} {record : Record}
    (offered : kind state.nextSequence key record) : (state.applyRecord hashing key record).Holds
      kind := by
  intro probe found stored
  rw [NodeState.OnlyRecords.nextSequence (NodeState.apply_record_only hashing state key record)]
  rw [NodeState.lookup_apply_record] at stored
  split at stored
  · rename_i here
    rw [here.1]
    exact Option.some.inj stored ▸ offered
  · exact start probe found stored

theorem apply_records_held {entries : List (Sigma fun _ : Bytes => Record)} {state : NodeState}
    (offered : ∀ entry ∈ entries, kind state.nextSequence entry.1 entry.2) (start : state.Holds kind) :
    (entries.foldl (fun state entry => state.applyRecord hashing entry.1 entry.2) state).Holds kind := by
  induction entries generalizing state with
  | nil => exact start
  | cons entry rest ih =>
      refine ih (fun other listed => ?_) (apply_record_held start (offered entry List.mem_cons_self))
      rw [NodeState.OnlyRecords.nextSequence (NodeState.apply_record_only hashing state entry.1 entry.2)]
      exact offered other (List.mem_cons_of_mem _ listed)

theorem remove_keys_held (keys : List (Token × Bytes)) {state : NodeState} (start : state.Holds kind) :
    (keys.foldl (fun state entry => state.removeRecordAt entry.1 entry.2) state).Holds kind := by
  obtain ⟨only, lookups⟩ := remove_keys_fold keys state
  intro probe found stored
  rw [NodeState.OnlyRecords.nextSequence only]
  rw [lookups] at stored
  split at stored
  · exact absurd stored (by simp)
  · exact start probe found stored

theorem purge_held {state : NodeState} (start : state.Holds kind) (now : Instant) :
    (purgeExpiredDedup hashing state now).Holds kind := by
  obtain ⟨_, _, _, _, _, _, _, _, _, only⟩ := purge_expired_only hashing state now
  exact same_held start (by rw [only]) (by rw [only])

theorem remove_source_held {state : NodeState} (start : state.Holds kind) (key : RangeKey) :
    (state.removeSource key).Holds kind :=
  same_held start (remove_source_records state key) (remove_source_sequence state key)

/-- What a migration RPC stores was stored or staged before. -/
theorem range_held {before after : NodeState} {operation : RangeOperation}
    (step : RangeSection hashing config before operation after)
    (staged : before.Destinations fun destination =>
      ∀ key record, destination.records.lookup key = some record → kind before.nextSequence key record)
    (start : before.Holds kind) : after.Holds kind := by
  cases step with
  | kept same => exact same_held start same.records same.sequence
  | refused clock => exact purge_held start clock.later
  | source | paused | destination | batch | receipts | activated => exact same_held start rfl rfl
  | committed clock key destination found =>
      have purged : (purgeExpiredDedup hashing before clock.later).Holds kind :=
        purge_held start clock.later
      have sequence : (purgeExpiredDedup hashing before clock.later).nextSequence = before.nextSequence :=
        (purge_expired_only hashing before clock.later).nextSequence
      generalize cleared : purgeExpiredDedup hashing before clock.later = current at purged sequence
      have removed := remove_keys_held (current.recordKeysInRange destination.range) purged
      have replaced : (replaceRange hashing current destination.range destination.records).Holds
          kind := by
        refine apply_records_held (fun entry listed => ?_) removed
        rw [NodeState.OnlyRecords.nextSequence
          (remove_keys_fold (current.recordKeysInRange destination.range) current).1, sequence]
        exact staged key destination found entry.1 entry.2 ((FiniteMap.lookup_some_iff _ _ _).mpr listed)
      obtain ⟨_, _, _, _, _, adopted⟩ :=
        adopt_receipts_only hashing (destination.liveDedup clock.now).entries
        (replaceRange hashing current destination.range destination.records)
      refine same_held replaced ?_ ?_
      all_goals simp only [commitRange, NodeState.withDestination, cleared, adopted]
  | cleaned key source =>
      exact remove_source_held (remove_keys_held (droppedKeys config before source.range) start) key
  | aborted key =>
      have released : (before.removeSource key).Holds kind := remove_source_held start key
      exact same_held released rfl rfl
  | cleared epoch =>
      refine same_held start (remove_sources_records _ before) ?_
      exact RangeSection.sequence (.cleared epoch : RangeSection hashing config before _ _)

/-- An event stores records of the kind when those it plans, receives and finds
staged are. -/
theorem handle_held (kind : Nat → Bytes → Record → Prop) {process : NodeProcess} {event : NodeEvent}
    (grows : ∀ sequence key record, kind sequence key record → kind (sequence + 1) key record)
    (planned : ∀ unixMillis state plan request, Planned hashing unixMillis state plan request →
      state.topology = process.state.topology →
        kind (state.nextSequence + 1) plan.key (plan.record (WritePlan.version config state)))
    (received : ∀ entry ∈ event.entries, ∀ state record, state.topology = process.state.topology →
      checkReplicationEntry hashing config state entry = .ok record →
        kind state.nextSequence entry.key record)
    (staged : process.state.Destinations fun destination =>
      ∀ key record, destination.records.lookup key = some record →
        kind process.state.nextSequence key record)
    (start : process.state.Holds kind) : (process.handle hashing config event).state.Holds kind := by
  have rule : StoreRule hashing config process.state event
      (fun before after => before.Holds kind → after.Holds kind) := {
    refl := fun _ => id
    trans := fun early late held => late (early held)
    stores := fun _ _ same held => same_held held same.records same.sequence
    purge := fun now before held => purge_held held now
    -- A commit stores at most its own record, which bears the version given out next.
    write := by
      intro clock request ready _ after plan entries prepared stored held key record found
      rw [stored.sequence]
      rcases stored.record_origin key record found with old | ⟨rfl, rfl⟩
      · exact grows _ key record (held key record old)
      · exact planned _ _ _ _ stored.planned (purge_expired_only hashing process.state clock.now).topology
    acks := by
      intro id version before held
      obtain ⟨_, _, frame⟩ := complete_required_acks_frame before id version
      rw [frame]
      exact same_held held rfl rfl
    -- The record of an accepted entry is the one its checks admitted.
    entry := by
      intro clock entry delivered before record same admitted held
      have stored : (before.applyRecord hashing entry.key record).Holds kind :=
        apply_record_held held (received entry delivered before record same admitted.checked)
      obtain ⟨_, _, _, _, _, _, _, _, _, _, filed⟩ := accept_entry_only hashing clock before entry record
      rw [filed]
      exact same_held stored rfl rfl
    range := fun _ _ _ step held => range_held step staged held
    sweep := by
      intro _ _ _ entry before _ _ held key record found
      have swept := sweep_entry_swept hashing before entry
      rw [NodeState.OnlyRecords.nextSequence swept.only]
      exact held key record (swept.subset key record found)
    release := fun key before held => remove_source_held held key
    unprepare := fun _ _ _ held => same_held held rfl rfl
    adopt := by
      intro topology _ _ before _ held
      unfold NodeState.setTopology
      split <;> exact same_held held rfl rfl }
  exact handle_rule rule start

end Kinds

theorem handle_sequence (hashing : Hashing) (config : NodeConfig) (process : NodeProcess)
    (event : NodeEvent) :
    process.state.nextSequence ≤ (process.handle hashing config event).state.nextSequence := by
  have rule : StoreRule hashing config process.state event
      (fun before after => before.nextSequence ≤ after.nextSequence) := {
    refl := fun _ => le_refl _
    trans := le_trans
    stores := fun _ _ same => same.sequence.ge
    purge := fun now before => (purge_expired_only hashing before now).nextSequence.ge
    write := fun _ _ _ _ after _ _ _ stored => by
      rw [stored.sequence]
      exact Nat.le_succ _
    acks := fun id version before => (complete_required_acks_only before id version).nextSequence.ge
    entry := by
      intro clock entry _ before record _ _
      obtain ⟨_, filed⟩ := accept_entry_only hashing clock before entry record
      rw [filed.nextSequence]
      exact (NodeState.OnlyRecords.nextSequence
        (NodeState.apply_record_only hashing before entry.key record)).ge
    range := fun _ _ _ step => step.sequence.ge
    sweep := fun _ _ _ entry before _ _ =>
      (NodeState.OnlyRecords.nextSequence (sweep_entry_swept hashing before entry).only).ge
    release := fun key before => (remove_source_sequence before key).ge
    unprepare := fun _ _ _ => le_refl _
    adopt := by
      intro topology _ _ before _
      unfold NodeState.setTopology
      split <;> exact le_refl _ }
  exact handle_rule rule

end Hashring
