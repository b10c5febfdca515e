import Hashring.StoreSections
import Hashring.ReceiptStaging
import Mathlib.Algebra.Order.BigOperators.Group.List

/-! The byte account of the deduplication receipts. Receipts are charged at a
write, a follower entry and a commit of a moved range, and released by the purge
and by completed acknowledgements; the account is the sum of what is retained. -/
namespace Hashring

/-- What the acknowledgements a receipt still waits for are charged. -/
def pendingAckBytes (required : List RequiredAck) : Nat :=
  (required.map fun ack => requiredAckEntryBytes ack.nodeId.utf8ByteSize).sum

/-- A receipt's base cost and the cost of its pending acknowledgements. -/
def receiptBytes (id : String) (entry : DedupEntry) : Nat :=
  dedupRetainedBytes id entry.key.length entry.version.ownerNodeId.utf8ByteSize +
    pendingAckBytes entry.requiredAcks

/-- The account of the receipts agrees with each of them. -/
structure ReceiptsCharged (state : NodeState) : Prop where
  total : state.dedupBytes = FiniteMap.total (·.retainedBytes) state.dedup
  each : ∀ id entry, state.dedup.lookup id = some entry → entry.retainedBytes = receiptBytes id entry

namespace ReceiptsCharged

variable (hashing : Hashing) {before after : NodeState}

theorem same (charged : ReceiptsCharged before) (dedup : after.dedup = before.dedup)
    (dedupBytes : after.dedupBytes = before.dedupBytes) : ReceiptsCharged after := by
  constructor
  · rw [dedup, dedupBytes]
    exact charged.total
  · rw [dedup]
    exact charged.each

/-- What a receipt retains is part of the account, and its pending
acknowledgements part of what it retains. -/
theorem covers (charged : ReceiptsCharged before) {id : String} {entry : DedupEntry}
    (found : before.dedup.lookup id = some entry) :
    entry.retainedBytes ≤ before.dedupBytes ∧ pendingAckBytes entry.requiredAcks ≤
      entry.retainedBytes := by
  constructor
  · rw [charged.total]
    exact FiniteMap.weigh_le_total found
  · rw [charged.each id entry found]
    exact Nat.le_add_left _ _

theorem drop_expired (charged : ReceiptsCharged before) (now : Instant) (id : String) :
    ReceiptsCharged (dropExpiredReceipt hashing now before id) ∧
      (dropExpiredReceipt hashing now before id).dedupBytes ≤ before.dedupBytes := by
  unfold dropExpiredReceipt
  split
  · exact ⟨charged, le_refl _⟩
  · rename_i entry found
    split
    · refine ⟨⟨?_, ?_⟩, Nat.sub_le _ _⟩
      · have erased : FiniteMap.total (·.retainedBytes) (before.dedup.erase id) +
            entry.retainedBytes = _ :=
          FiniteMap.total_erase found
        have total := charged.total
        simp only
        omega
      · intro probe other kept
        rw [FiniteMap.lookup_erase_if] at kept
        split at kept
        · exact absurd kept (by simp)
        · exact charged.each probe other kept
    · exact ⟨charged, le_refl _⟩

/-- However far a purge has come. -/
theorem drop_all (charged : ReceiptsCharged before) (now : Instant) (popped : List String) :
    ReceiptsCharged (popped.foldl (dropExpiredReceipt hashing now) before) ∧
      (popped.foldl (dropExpiredReceipt hashing now) before).dedupBytes ≤ before.dedupBytes := by
  induction popped generalizing before with
  | nil => exact ⟨charged, le_refl _⟩
  | cons id rest ih =>
      obtain ⟨dropped, less⟩ := charged.drop_expired hashing now id
      obtain ⟨later, lower⟩ := ih dropped
      exact ⟨later, lower.trans less⟩

theorem purge (charged : ReceiptsCharged before) (now : Instant) :
    ReceiptsCharged (purgeExpiredDedup hashing before now) ∧
      (purgeExpiredDedup hashing before now).dedupBytes ≤ before.dedupBytes := by
  have start : ReceiptsCharged
      { before with dedupExpirations := before.dedupExpirations.later (receiptDue now) } :=
    charged.same rfl rfl
  obtain ⟨dropped, less⟩ := start.drop_all hashing now
    ((before.dedupExpirations.due (receiptDue now)).map fun entry => (ofLex entry).2)
  rw [List.foldl_map] at dropped less
  unfold purgeExpiredDedup
  simp only
  split
  · have pruned : ∀ state, (pruneAckProgress state).dedup = state.dedup ∧
        (pruneAckProgress state).dedupBytes = state.dedupBytes := by
      intro state
      unfold pruneAckProgress
      simp only
      split <;> exact ⟨rfl, rfl⟩
    exact ⟨dropped.same (pruned _).1 (pruned _).2, le_of_eq_of_le (pruned _).2 less⟩
  · exact ⟨dropped, less⟩

theorem insert (charged : ReceiptsCharged before) (id : String) (key fingerprint : Bytes)
    (version : RecordVersion) (deleted : Bool) (expiresAt : Instant) :
    ReceiptsCharged (insertDedupUntil hashing before id key fingerprint version deleted expiresAt) ∧
      (insertDedupUntil hashing before id key fingerprint version deleted expiresAt).dedupBytes ≤
        before.dedupBytes + dedupRetainedBytes id key.length version.ownerNodeId.utf8ByteSize := by
  have each : ∀ probe entry,
      (insertDedupUntil hashing before id key fingerprint version deleted
      expiresAt).dedup.lookup probe =
      some entry → entry.retainedBytes = receiptBytes probe entry := by
    intro probe entry found
    rw [lookup_insert_dedup] at found
    split at found
    · rename_i here
      rw [← Option.some.inj found, here]
      rfl
    · exact charged.each probe entry found
  have total := charged.total
  refine ⟨⟨?_, each⟩, ?_⟩
  · unfold insertDedupUntil
    cases found : before.dedup.lookup id with
    | none =>
        simp only [NodeState.insertDedupIndex, FiniteMap.total_insert_new found]
        omega
    | some previous =>
        have erased : FiniteMap.total (·.retainedBytes) (before.dedup.erase id) +
            previous.retainedBytes = _ :=
          FiniteMap.total_erase found
        simp only [NodeState.insertDedupIndex, NodeState.removeDedupIndex, FiniteMap.total_insert]
        omega
  · unfold insertDedupUntil
    cases before.dedup.lookup id with
    | none => exact le_refl _
    | some previous => exact Nat.add_le_add_right (Nat.sub_le _ _) _

/-- The acknowledgements a write requires are charged as a list of followers
and held as a list of required acknowledgements. -/
theorem set_required (charged : ReceiptsCharged before) {id : String} {entry : DedupEntry}
    {required : List RequiredAck} {cost : Nat} (found : before.dedup.lookup id = some entry)
    (unneeded : entry.requiredAcks = [])
    (priced : cost = pendingAckBytes required) :
    ReceiptsCharged (setRequiredAcks before id required cost) := by
  constructor
  · have total := charged.total
    have changed : FiniteMap.total (·.retainedBytes)
        (setRequiredAcks before id required cost).dedup + entry.retainedBytes = _ :=
      FiniteMap.total_modify found _
    simp only [setRequiredAcks] at changed ⊢
    omega
  · intro probe other kept
    rw [set_required_acks_lookup] at kept
    obtain ⟨old, held, rfl⟩ := Option.map_eq_some_iff.mp kept
    have costs := charged.each probe old held
    split
    · rename_i here
      subst here
      obtain rfl := Option.some.inj (found.symm.trans held)
      simp only [receiptBytes, unneeded, pendingAckBytes, List.map_nil, List.sum_nil, Nat.add_zero]
        at costs ⊢
      rw [costs, priced]
      rfl
    · exact costs

theorem complete (charged : ReceiptsCharged before) (id : String) (version : RecordVersion) :
    ReceiptsCharged (completeRequiredAcks before id version) ∧
      (completeRequiredAcks before id version).dedupBytes ≤ before.dedupBytes := by
  unfold completeRequiredAcks
  split
  · exact ⟨charged, le_refl _⟩
  · rename_i entry found
    split
    · exact ⟨charged, le_refl _⟩
    · obtain ⟨retained, pending⟩ := charged.covers found
      have costs := charged.each id entry found
      refine ⟨⟨?_, ?_⟩, Nat.sub_le _ _⟩
      · have total := charged.total
        have erased : FiniteMap.total (·.retainedBytes) (before.dedup.erase id) +
            entry.retainedBytes = _ :=
          FiniteMap.total_erase found
        simp only [FiniteMap.total_insert]
        unfold pendingAckBytes at pending
        omega
      · intro probe other kept
        rw [FiniteMap.lookup_insert_if] at kept
        split at kept
        · rename_i here
          rw [← Option.some.inj kept, here]
          simp only [receiptBytes, pendingAckBytes, List.map_nil, List.sum_nil] at costs ⊢
          omega
        · exact charged.each probe other kept

theorem adopt (charged : ReceiptsCharged before) (entries : List (Sigma fun _ : String => StagedDedup))
    (named : ∀ entry ∈ entries, entry.2.record.mutationId = entry.1) :
    ReceiptsCharged (entries.foldl (fun state entry => adoptReceipt hashing state entry.1 entry.2)
      before) ∧
      (entries.foldl (fun state entry => adoptReceipt hashing state entry.1 entry.2) before).dedupBytes ≤
        before.dedupBytes + (entries.map fun entry => stagedCost before entry.2).sum := by
  induction entries generalizing before with
  | nil => exact ⟨charged, le_refl _⟩
  | cons entry rest ih =>
      have first : ReceiptsCharged (adoptReceipt hashing before entry.1 entry.2) ∧
          (adoptReceipt hashing before entry.1 entry.2).dedupBytes ≤ before.dedupBytes +
              stagedCost before entry.2 := by
        unfold adoptReceipt
        split
        · exact ⟨charged, Nat.le_add_right _ _⟩
        · rename_i free
          split
          · exact ⟨charged, Nat.le_add_right _ _⟩
          · rename_i version versioned
            obtain ⟨inserted, grown⟩ :=
              charged.insert hashing entry.1 entry.2.record.key entry.2.record.fingerprint version
              entry.2.record.deleted entry.2.expiresAt
            refine ⟨inserted, le_of_le_of_eq grown ?_⟩
            rw [stagedCost, named entry List.mem_cons_self, if_neg free, versioned]
            rfl
      -- IDs held before are still held, so nobody's cost grew.
      have cheaper : ∀ staged, stagedCost (adoptReceipt hashing before entry.1 entry.2) staged ≤
          stagedCost before staged := by
        intro staged
        unfold stagedCost
        by_cases held : staged.record.mutationId ∈ before.dedup
        · obtain ⟨receipt, found⟩ := (FiniteMap.mem_iff_lookup _ _).mp held
          have still : staged.record.mutationId ∈ (adoptReceipt hashing before entry.1
              entry.2).dedup := by
            rw [FiniteMap.mem_iff_lookup, RangeMove.adopt_receipt_lookup]
            by_cases here : staged.record.mutationId = entry.1
            · rw [← here, found]
              exact ⟨receipt, by simp⟩
            · exact ⟨receipt, by simp [here, found]⟩
          rw [if_pos still]
          exact Nat.zero_le _
        · rw [if_neg held]
          split
          · exact Nat.zero_le _
          · exact le_refl _
      obtain ⟨later, grown⟩ := ih first.1 fun other member => named other (List.mem_cons_of_mem _ member)
      refine ⟨later, le_trans grown ?_⟩
      have sums : (rest.map fun other => stagedCost (adoptReceipt hashing before entry.1 entry.2)
          other.2).sum ≤
          (rest.map fun other => stagedCost before other.2).sum :=
        List.sum_le_sum fun other _ => cheaper other.2
      have bytes := first.2
      simp only [List.map_cons, List.sum_cons]
      omega

end ReceiptsCharged

section Followers

def Readiness.Placed (topology : TopologySnapshot) (ready : Readiness) : Prop :=
  ready.followers.Sublist ((replicationFollowers topology ready.token).map Prod.fst)

theorem ready_followers_placed {config : NodeConfig} {unixMillis : Nat} {state : NodeState}
    {token : Token} {status : Option ReplicaStatusResponse} {epoch : Nat} {followers : List String}
    (tokenSeed : Nat)
    (answered : readyFollowers config unixMillis state token status = .ok (epoch, followers)) :
    epoch = state.topology.epoch ∧
      (Readiness.mk token tokenSeed epoch followers).Placed state.topology := by
  have names : ∀ replicas, state.topology.replicaNodeIdsForToken token = .ok replicas →
      (replicationFollowers state.topology token).map Prod.fst = replicas.tail := by
    intro replicas placed
    simp [replicationFollowers, placed, Function.comp_def, Except.toOption]
  unfold Readiness.Placed
  unfold readyFollowers at answered
  simp only at answered
  split at answered
  · split at answered
    · exact absurd answered (by simp)
    · rename_i replicas placed
      -- The acknowledgement policy fixes how many followers are asked for.
      split at answered
      all_goals
        split at answered
        · exact absurd answered (by simp)
        · split at answered
          · exact absurd answered (by simp)
          · split at answered
            · exact absurd answered (by simp)
            · rw [Except.ok.injEq, Prod.mk.injEq] at answered
              refine ⟨answered.1.symm, ?_⟩
              rw [names replicas placed, ← answered.2, List.drop_one]
              exact List.take_sublist _ _
  · split at answered
    · exact absurd answered (by simp)
    · cases required : requiredFollowers state.topology token status config.nodeId with
      | error error =>
          rw [required] at answered
          exact absurd answered (by simp [Except.map])
      | ok desired =>
          rw [required] at answered
          simp only [Except.map, Except.ok.injEq, Prod.mk.injEq] at answered
          refine ⟨answered.1.symm, ?_⟩
          rw [← answered.2]
          unfold requiredFollowers at required
          simp only at required
          split at required
          · exact absurd required (by simp)
          · rename_i replicas placed
            rw [names replicas placed]
            split at required
            · exact absurd required (by simp)
            · split at required
              · exact absurd required (by simp)
              · split at required
                · rw [← Except.ok.inj required]
                  exact List.nil_sublist _
                · split at required
                  · exact absurd required (by simp)
                  · split at required
                    · exact absurd required (by simp)
                    · split at required
                      · exact absurd required (by simp)
                      · rw [← Except.ok.inj required]
                        split
                        · exact List.nil_sublist _
                        · exact List.take_sublist _ _
                        · exact List.Sublist.refl _

/-- What is charged for the required followers is what their acknowledgements
give back. -/
theorem required_acks_priced {state prepared : NodeState} {write : ReplicationWrite}
    {entries : List PreparedReplication} {ready : Readiness}
    (fanned : prepareReplicationEntries state write = some (prepared, entries))
    (token : write.token = ready.token) (placed : ready.Placed state.topology) :
    requiredAckRetainedBytes ready.followers = pendingAckBytes
      (requiredAcksOf ready.followers entries) := by
  have distinct := replication_followers_distinct state.topology ready.token
  have names : entries.map (·.followerNodeId) =
      (replicationFollowers state.topology ready.token).map Prod.fst := by
    unfold prepareReplicationEntries at fanned
    simp only at fanned
    split at fanned
    · exact absurd fanned (by simp)
    · rw [Option.some.injEq, Prod.ext_iff] at fanned
      obtain ⟨rfl, rfl⟩ := fanned
      rw [(prepare_followers_spec _ _ _ (token ▸ distinct) state).1, token]
      simp [numberedFor, Function.comp_def]
  have awaited : (requiredAcksOf ready.followers entries).map (·.nodeId) =
      (entries.map (·.followerNodeId)).filter fun nodeId => ready.followers.contains nodeId := by
    simp [requiredAcksOf, List.filter_map, Function.comp_def]
  have same : ((entries.map (·.followerNodeId)).filter fun nodeId =>
      ready.followers.contains nodeId).Perm ready.followers := by
    rw [names]
    apply (List.perm_ext_iff_of_nodup (distinct.filter _) (distinct.sublist placed)).mpr
    intro nodeId
    rw [List.mem_filter, List.contains_iff_mem]
    exact ⟨fun both => both.2, fun member => ⟨placed.subset member, member⟩⟩
  calc requiredAckRetainedBytes ready.followers
      = (((requiredAcksOf ready.followers entries).map (·.nodeId)).map fun nodeId =>
          requiredAckEntryBytes nodeId.utf8ByteSize).sum := by
        rw [awaited]
        exact (same.symm.map _).sum_nat
    _ = pendingAckBytes (requiredAcksOf ready.followers entries) := by
        simp [pendingAckBytes, Function.comp_def]

end Followers

/-- The account of a node's receipts is exact and within its budget, and every
receipt waits for its expiry. Staged receipts lie under their own IDs, so that a
commit prices what it will adopt. -/
structure ReceiptsAccounted (config : NodeConfig) (state : NodeState) : Prop where
  charged : ReceiptsCharged state
  bounded : state.dedupBytes ≤ config.maxDedupBytes
  scheduled : ReceiptsScheduled state
  staged : state.Destinations RangeMove.StagedNamed

namespace ReceiptsAccounted

variable {hashing : Hashing} {config : NodeConfig} {before after : NodeState}

theorem of_same (accounted : ReceiptsAccounted config before) (dedup : after.dedup = before.dedup)
    (dedupBytes : after.dedupBytes = before.dedupBytes)
    (dedupExpirations : after.dedupExpirations = before.dedupExpirations)
    (destinations : ∀ key destination, after.destinations.lookup key = some destination →
      before.destinations.lookup key = some destination) : ReceiptsAccounted config after where
  charged := accounted.charged.same dedup dedupBytes
  bounded := dedupBytes ▸ accounted.bounded
  scheduled id entry found := by
    rw [dedup] at found
    rw [dedupExpirations]
    exact accounted.scheduled id entry found
  staged key destination found := accounted.staged key destination (destinations key destination found)

theorem of_records (accounted : ReceiptsAccounted config before)
    (only : NodeState.OnlyRecords before after) :
    ReceiptsAccounted config after := by
  obtain ⟨⟨_, _, _, _, rfl⟩, _⟩ := only
  exact accounted.of_same rfl rfl rfl fun _ _ => id

theorem purge (accounted : ReceiptsAccounted config before) (now : Instant) :
    ReceiptsAccounted config (purgeExpiredDedup hashing before now) where
  charged := (accounted.charged.purge hashing now).1
  bounded := (accounted.charged.purge hashing now).2.trans accounted.bounded
  scheduled := purge_expired_scheduled hashing before now accounted.scheduled
  staged := by
    intro key destination found
    rw [(purge_expired_only hashing before now).destinations] at found
    exact accounted.staged key destination found

theorem insert (accounted : ReceiptsAccounted config before) {id : String} {key : Bytes}
    {version : RecordVersion}
    (fingerprint : Bytes) (deleted : Bool) (expiresAt : Instant)
    (room : before.dedupBytes + dedupRetainedBytes id key.length version.ownerNodeId.utf8ByteSize ≤
      config.maxDedupBytes) :
    ReceiptsAccounted config
      (insertDedupUntil hashing before id key fingerprint version deleted expiresAt) where
  charged := (accounted.charged.insert hashing id key fingerprint version deleted expiresAt).1
  bounded := (accounted.charged.insert hashing id key fingerprint version deleted expiresAt).2.trans room
  scheduled := insert_dedup_scheduled hashing before id key fingerprint version deleted expiresAt
    accounted.scheduled
  staged := by
    intro probe destination found
    rw [(insert_dedup_only hashing before id key fingerprint version deleted
      expiresAt).receipts.destinations] at found
    exact accounted.staged probe destination found

theorem complete (accounted : ReceiptsAccounted config before) (id : String) (version : RecordVersion) :
    ReceiptsAccounted config (completeRequiredAcks before id version) where
  charged := (accounted.charged.complete id version).1
  bounded := (accounted.charged.complete id version).2.trans accounted.bounded
  scheduled := complete_required_acks_scheduled accounted.scheduled id version
  staged := by
    intro probe destination found
    rw [(complete_required_acks_only before id version).destinations] at found
    exact accounted.staged probe destination found

theorem entry (accounted : ReceiptsAccounted config before) (clock : Clock)
    {entry : ReplicationEntry} {record : Record}
    (admitted : EntryAdmitted hashing config before entry record) :
    ReceiptsAccounted config (acceptEntry hashing clock before entry record) := by
  have stored := accounted.of_records (NodeState.apply_record_only hashing before entry.key record)
  have advanced : ∀ stream, ReceiptsAccounted config
      ((before.applyRecord hashing entry.key record).setStream entry.stream stream) :=
    fun stream => stored.of_same rfl rfl rfl fun _ _ => id
  obtain ⟨⟨_, _, _, _, same⟩, _⟩ := NodeState.apply_record_only hashing before entry.key record
  refine (advanced _).insert _ _ _ ?_
  simp only [NodeState.setStream, same]
  exact admitted.room

/-- An accepted write, its required followers among those of its token. -/
theorem write (accounted : ReceiptsAccounted config before) {clock : Clock} {request : WriteRequest}
    {ready : Readiness} {plan : WritePlan} {entries : List PreparedReplication}
    {prepared : NodeState} (placed : ready.Placed before.topology)
    (stored : StoredWrite hashing config clock before after request ready plan entries prepared) :
    ReceiptsAccounted config after := by
  have priced := required_acks_priced stored.fanned rfl placed
  have room := stored.receipts
  rw [receiptCost] at room
  obtain ⟨base, same, rfl⟩ := stored.parts
  have begun : ReceiptsAccounted config base :=
    accounted.of_same same.dedup same.dedupBytes same.dedupExpirations fun _ _ found =>
      same.destinations ▸ found
  have recorded := begun.of_records
      (store_record_only hashing base plan (plan.record (WritePlan.version config before)))
  have bytes : (storeRecord hashing base plan
      (plan.record (WritePlan.version config before))).dedupBytes = before.dedupBytes := by
    obtain ⟨⟨_, _, _, _, moved⟩, _⟩ :=
      store_record_only hashing base plan (plan.record (WritePlan.version config before))
    rw [moved]
    exact same.dedupBytes
  generalize storeRecord hashing base plan (plan.record (WritePlan.version config before)) = written
    at recorded bytes
  -- The journals come between the record and the receipt.
  have journaled : ReceiptsAccounted config
      (journalState ready.token plan (plan.record (WritePlan.version config before))
      (journalGrowth before ready.token plan) written) := recorded.of_same rfl rfl rfl fun _ _ => id
  have journaledBytes : (journalState ready.token plan (plan.record (WritePlan.version config before))
      (journalGrowth before ready.token plan) written).dedupBytes = before.dedupBytes := bytes
  generalize journalState ready.token plan (plan.record (WritePlan.version config before))
    (journalGrowth before ready.token plan) written = journal at journaled journaledBytes
  have owner : (WritePlan.version config before).ownerNodeId = config.nodeId := rfl
  have filed : ReceiptsAccounted config
      (insertDedup hashing journal plan.requestId plan.key plan.fingerprint
      (WritePlan.version config before) plan.deleted clock.later) := by
    refine journaled.insert _ _ _ ?_
    rw [journaledBytes, owner]
    omega
  have filedBytes := (journaled.charged.insert hashing plan.requestId plan.key plan.fingerprint
    (WritePlan.version config before) plan.deleted
      (clock.later + journal.topology.timings.receiptRetention)).2
  have found := lookup_insert_dedup hashing journal plan.requestId plan.requestId plan.key
    plan.fingerprint
    (WritePlan.version config before) plan.deleted
      (clock.later + journal.topology.timings.receiptRetention)
  rw [if_pos rfl] at found
  exact {
    charged := filed.charged.set_required found rfl priced
    bounded := by
      rw [journaledBytes, owner] at filedBytes
      simp only [setRequiredAcks, insertDedup]
      omega
    scheduled := (set_required_acks_invariants hashing _ _ _ _).1 filed.scheduled
    staged := filed.staged }

theorem staged_closed (topology : TopologySnapshot) :
    StagingClosed hashing config topology RangeMove.StagedNamed where
  purge destination now named := RangeMove.purge_staged_named destination now named
  receipt destination staged record now named accepted :=
    (RangeMove.stage_dedup_effect destination staged record _ _ now named accepted).2.1
  record _ _ _ named _ _ := named
  advance _ named := named

theorem range (accounted : ReceiptsAccounted config before) {operation : RangeOperation}
    (step : RangeSection hashing config before operation after) : ReceiptsAccounted config after := by
  have staged : after.Destinations RangeMove.StagedNamed :=
    step.staged (staged_closed before.topology).keeps (fun _ _ => trivial)
      (fun _ _ _ found => absurd found (by simp [emptyDestination])) (fun _ _ _ named => named)
        accounted.staged
  -- Most operations leave the receipts alone.
  have kept : after.dedup = before.dedup → after.dedupBytes = before.dedupBytes →
      after.dedupExpirations = before.dedupExpirations → ReceiptsAccounted config after := by
    intro dedup dedupBytes dedupExpirations
    have charged : ReceiptsAccounted config { after with destinations := before.destinations } :=
      accounted.of_same dedup dedupBytes dedupExpirations fun _ _ => id
    exact ⟨charged.charged.same rfl rfl, charged.bounded, charged.scheduled, staged⟩
  have released : OnlyStaging before after → ReceiptsAccounted config after := by
    rintro ⟨_, _, _, _, _, _, rfl⟩
    exact kept rfl rfl rfl
  cases step with
  | kept same => exact kept same.dedup same.dedupBytes same.dedupExpirations
  | refused clock key => exact accounted.purge clock.later
  | source | paused | destination | batch | receipts | activated => exact kept rfl rfl rfl
  | committed clock key destination found pending room =>
      have named := accounted.staged key destination found
      have purged : ReceiptsAccounted config (purgeExpiredDedup hashing before clock.later) :=
        accounted.purge clock.later
      obtain ⟨⟨_, _, _, _, moved⟩, _⟩ :=
        replace_range_only hashing (purgeExpiredDedup hashing before clock.later)
        destination.range destination.records
      have replaced := purged.of_records
          (replace_range_only hashing _ destination.range destination.records)
      have listed : ∀ entry ∈ (destination.liveDedup clock.now).entries, entry.2.record.mutationId =
          entry.1 := by
        intro entry member
        have kept := (FiniteMap.lookup_some_iff _ entry.1 entry.2).mpr member
        rw [DestinationMigration.liveDedup, FiniteMap.lookup_retain] at kept
        exact named entry.1 entry.2 (Option.filter_eq_some_iff.mp kept).1
      obtain ⟨adopted, grown⟩ :=
        replaced.charged.adopt hashing (destination.liveDedup clock.now).entries listed
      have scheduled := RangeOperation.adopt_scheduled hashing
          (destination.liveDedup clock.now).entries _ replaced.scheduled
      refine ⟨adopted.same rfl rfl, le_trans grown ?_, scheduled, staged⟩
      rw [moved]
      simp only [FiniteMap.values, List.map_map] at room
      exact room
  | cleaned key source found =>
      apply released
      have dropped := (remove_keys_fold (droppedKeys config before source.range) before).1
      exact (OnlyStaging.of_records dropped).trans (OnlyStaging.remove_source _ key)
  | aborted key => exact released ((OnlyStaging.remove_source before key).with_destinations _)
  | cleared epoch => exact released ((OnlyStaging.remove_sources _ before).with_destinations _)

theorem rule {start : NodeState} {event : NodeEvent}
    (placed : ∀ clock request ready, event = .commit clock request ready →
      start.topology.epoch = ready.epoch → ready.Placed start.topology) :
    StoreRule hashing config start event fun before after => ReceiptsAccounted config before →
      ReceiptsAccounted config after where
  refl _ := id
  trans early late accounted := late (early accounted)
  stores _ _ same accounted := accounted.of_same same.dedup same.dedupBytes same.dedupExpirations
    fun _ _ found => same.destinations ▸ found
  purge now _ accounted := accounted.purge now
  write clock request ready same _ _ _ _ stored accounted := by
    have topology := (purge_expired_only hashing start clock.now).topology
    have current := stored.epoch
    rw [topology] at current
    refine accounted.write ?_ stored
    rw [topology]
    exact placed clock request ready same current
  acks id version _ accounted := accounted.complete id version
  entry clock _ _ _ _ _ admitted accounted := accounted.entry clock admitted
  range _ _ _ step accounted := accounted.range step
  sweep _ _ _ entry before _ _ accounted :=
    accounted.of_records (sweep_entry_swept hashing before entry).only
  release key before accounted := by
    obtain ⟨_, _, _, _, _, _, released⟩ := OnlyStaging.remove_source before key
    have destinations := remove_source_destinations before key
    refine accounted.of_same ?_ ?_ ?_ fun _ _ found => destinations ▸ found
    all_goals rw [released]
  unprepare _ _ subset accounted := accounted.of_same rfl rfl rfl subset
  adopt topology _ _ before _ accounted := by
    unfold NodeState.setTopology
    split <;> exact accounted.of_same rfl rfl rfl fun _ _ => id

theorem handle {process : NodeProcess} {event : NodeEvent}
    (accounted : ReceiptsAccounted config process.state)
    (placed : ∀ clock request ready, event = .commit clock request ready →
      process.state.topology.epoch = ready.epoch →
      ready.Placed process.state.topology) :
      ReceiptsAccounted config (process.handle hashing config event).state :=
  handle_rule (rule placed) accounted

end ReceiptsAccounted

/-- A node with the readiness answers its writes have taken so far. -/
structure CheckedNode where
  process : NodeProcess
  checked : List Readiness := []

inductive CheckedEvent where
  | check (unixMillis : Nat) (token : Token) (tokenSeed : Nat) (status : Option ReplicaStatusResponse)
  | node (event : NodeEvent)

namespace CheckedNode

variable (hashing : Hashing) (config : NodeConfig)

/-- A write commits with an answer that `ready_followers` gave, and the
coordinator publishes one topology for each epoch. -/
structure Admits (node : CheckedNode) (event : NodeEvent) : Prop where
  ready : ∀ clock request ready, event = .commit clock request ready → ready ∈ node.checked
  published : ∀ topology, event.offered = some topology →
    topology.epoch = node.process.state.topology.epoch →
    topology = node.process.state.topology

def Step (before : CheckedNode) (event : CheckedEvent) (after : CheckedNode) : Prop :=
  match event with
  | .check unixMillis token tokenSeed status => ∃ epoch followers,
      readyFollowers config unixMillis before.process.state token status = .ok (epoch, followers) ∧
        after = { before with checked := ⟨token, tokenSeed, epoch, followers⟩ :: before.checked }
  | .node event => before.Admits event ∧ ∃ process,
      NodeProcess.Step hashing config before.process event process ∧
      after = { before with process }

/-- The answers are of this epoch or an earlier one, and those of this epoch name
followers of this topology. -/
def Current (node : CheckedNode) : Prop :=
  ∀ ready ∈ node.checked, ready.epoch ≤ node.process.state.topology.epoch ∧
    (ready.epoch = node.process.state.topology.epoch → ready.Placed node.process.state.topology)

variable {hashing config}

theorem fresh_accounted (topology : TopologySnapshot) : ReceiptsAccounted config { topology } where
  charged := ⟨rfl, fun _ _ found => absurd found (by simp)⟩
  bounded := Nat.zero_le _
  scheduled _ _ found := absurd found (by simp)
  staged _ _ found := absurd found (by simp)

theorem Step.accounted {before after : CheckedNode} {event : CheckedEvent}
    (step : Step hashing config before event after) (current : before.Current)
    (accounted : ReceiptsAccounted config before.process.state) :
    after.Current ∧ ReceiptsAccounted config after.process.state := by
  cases event with
  | check unixMillis token tokenSeed status =>
      obtain ⟨epoch, followers, answered, rfl⟩ := step
      obtain ⟨here, placed⟩ := ready_followers_placed tokenSeed answered
      refine ⟨?_, accounted⟩
      intro ready member
      rcases List.mem_cons.mp member with rfl | earlier
      · exact ⟨le_of_eq here, fun _ => placed⟩
      · exact current ready earlier
  | node event =>
      obtain ⟨admits, _, ⟨sources, _, rfl⟩, rfl⟩ := step
      have placed : ∀ clock request ready, event = .commit clock request ready →
          before.process.state.topology.epoch = ready.epoch →
            ready.Placed before.process.state.topology :=
        fun clock request ready same epoch =>
          (current ready (admits.ready clock request ready same)).2 epoch.symm
      constructor
      · intro ready member
        obtain ⟨earlier, named⟩ := current ready member
        rcases handle_topology hashing config
          { before.process with state := { before.process.state with sources } } event with
          kept | ⟨topology, offered, newer, taken⟩
        · rw [kept]
          exact ⟨earlier, named⟩
        · rw [taken]
          refine ⟨earlier.trans newer, fun epoch => ?_⟩
          -- An answer of the new epoch is one of the old, so the epoch stayed.
          have stays : topology.epoch = before.process.state.topology.epoch :=
            le_antisymm (epoch ▸ earlier) newer
          rw [admits.published topology offered stays]
          exact named (epoch.trans stays)
      · have reordered : ReceiptsAccounted config { before.process.state with sources } :=
          accounted.of_same rfl rfl rfl fun _ _ => id
        exact ReceiptsAccounted.handle reordered placed

end CheckedNode

/-- Receipt accounting is exact. After any run of a node the account is the sum of
what its receipts retain and within the budget; each receipt retains its base cost
and the cost of the acknowledgements it still waits for; whatever part of a purge
has run, no receipt retains more than the account holds; every receipt has its
expiry in the heap; and a purge keeps exactly the receipts that expire later. -/
theorem receipt_accounting_exact (hashing : Hashing) (config : NodeConfig) (topology : TopologySnapshot)
    (events : List CheckedEvent) (node : CheckedNode)
    (run : Transition.Run (CheckedNode.Step hashing config) { process := { state := { topology } } }
      events node) :
    node.process.state.dedupBytes = (node.process.state.dedup.values.map (·.retainedBytes)).sum ∧
      node.process.state.dedupBytes ≤ config.maxDedupBytes ∧
      (∀ id entry, node.process.state.dedup.lookup id = some entry →
        entry.retainedBytes = dedupRetainedBytes id entry.key.length
          entry.version.ownerNodeId.utf8ByteSize +
          (entry.requiredAcks.map fun ack => requiredAckEntryBytes ack.nodeId.utf8ByteSize).sum ∧
        toLex (entry.expiresAt, id) ∈ node.process.state.dedupExpirations) ∧
      ∀ now, (∀ (popped : List String) (id : String) (entry : DedupEntry),
        (popped.foldl (dropExpiredReceipt hashing now) node.process.state).dedup.lookup id =
        some entry →
          entry.retainedBytes ≤ (popped.foldl (dropExpiredReceipt hashing now)
            node.process.state).dedupBytes ∧
          (entry.requiredAcks.map fun ack => requiredAckEntryBytes ack.nodeId.utf8ByteSize).sum ≤
            entry.retainedBytes) ∧
        ∀ id, (purgeExpiredDedup hashing node.process.state now).dedup.lookup id =
          (node.process.state.dedup.lookup id).filter fun entry => now < entry.expiresAt := by
  obtain ⟨_, accounted⟩ : node.Current ∧ ReceiptsAccounted config node.process.state := by
    refine Transition.run_invariant (fun _ => True)
      (fun node => node.Current ∧ ReceiptsAccounted config node.process.state) ?_ run (fun _ _ => trivial)
      ⟨fun _ member => absurd member (by simp), CheckedNode.fresh_accounted topology⟩
    rintro before event after _ ⟨current, accounted⟩ step
    exact step.accounted current accounted
  refine ⟨accounted.charged.total, accounted.bounded, ?_, ?_⟩
  · exact fun id entry found =>
      ⟨accounted.charged.each id entry found, accounted.scheduled id entry found⟩
  · intro now
    refine ⟨?_, lookup_purge_expired hashing node.process.state now accounted.scheduled⟩
    intro popped id entry found
    exact (accounted.charged.drop_all hashing now popped).1.covers found

namespace CheckedNode

def sampleConfig : NodeConfig := { nodeId := "a", processInstanceId := "a-1" }

def sampleReady : Readiness := ⟨5, 7, 1, ["b"]⟩

def samplePut (requestId : String) (key : Bytes) : WriteRequest :=
  .put { key, value := [byte 1], topologyEpoch := 1, requestId
         expiresAtUnixMillis := none, preserveValue := false, precondition := none }

def sampleVersion : RecordVersion := ⟨1, 1, "a"⟩

def play (node : CheckedNode) : CheckedEvent → CheckedNode
  | .check unixMillis token tokenSeed status =>
      match readyFollowers sampleConfig unixMillis node.process.state token status with
      | .ok (epoch, followers) =>
          { node with checked := ⟨token, tokenSeed, epoch, followers⟩ :: node.checked }
      | .error _ => node
  | .node event => { node with process := node.process.handle Sample.hashing sampleConfig event }

def playable (node : CheckedNode) : CheckedEvent → Bool
  | .check unixMillis token _ status =>
      (readyFollowers sampleConfig unixMillis node.process.state token status).toOption.isSome
  | .node (.commit _ _ ready) => ready ∈ node.checked
  | .node event => event.offered.isNone

/-- The lease is renewed and follower "b" found ready; two puts wait for it until it
reports the second. The first is completed; once its receipt has expired, and not yet
that of the second, its ID is used again under a new lease. -/
def sampleEvents : List CheckedEvent :=
  [.node (.renewed 1 0 { topologyEpoch := 1, leaseDurationMillis := 1000, admittedFollowers := [("b", "b-1")] }),
    .check 0 5 7 none,
    .node (.commit (Sample.clock 10) (samplePut "m" [byte 107]) sampleReady),
    .node (.commit (Sample.clock 20) (samplePut "n" [byte 108]) sampleReady),
    .node (.collect ⟨1, "a", "b"⟩), .node (.collect ⟨1, "a", "b"⟩), .node (.send ⟨1, "a", "b"⟩),
    .node (.answered ⟨1, "a", "b"⟩ (.ok { processInstanceId := "b-1", appliedStreamSequence := 2 })),
    .node (.finishAcks 30 true 1 "m" sampleVersion [⟨1, "b", 1⟩]),
    .node (.renewed 1 50000000000
      { topologyEpoch := 1, leaseDurationMillis := 20000, admittedFollowers := [("b", "b-1")] }),
    .node (.commit (Sample.clock 60000000010) (samplePut "m" [byte 107]) sampleReady)]

def sampleAfter (events : Nat) : CheckedNode :=
  (sampleEvents.take events).foldl play { process := { state := { topology := Sample.topology } } }

theorem play_step (node : CheckedNode) (event : CheckedEvent) (playable : node.playable event = true) :
    Step Sample.hashing sampleConfig node event (node.play event) := by
  cases event with
  | check unixMillis token tokenSeed status =>
      simp only [CheckedNode.playable] at playable
      cases answered : readyFollowers sampleConfig unixMillis node.process.state token status with
      | error refused => simp [answered, Except.toOption] at playable
      | ok answer => exact ⟨answer.1, answer.2, answered, by simp [play, answered]⟩
  | node event =>
      refine ⟨⟨?_, ?_⟩, _, NodeProcess.step_handle _ _ node.process event, rfl⟩
      · rintro clock request ready rfl
        simpa [CheckedNode.playable] using playable
      · intro topology offered _
        cases event <;> simp [CheckedNode.playable, NodeEvent.offered] at playable offered

theorem sample_run (events : Nat)
    (playable : Transition.Permits (fun node event => node.playable event = true) play
      { process := { state := { topology := Sample.topology } } } (sampleEvents.take events)) :
    Transition.Run (Step Sample.hashing sampleConfig)
      { process := { state := { topology := Sample.topology } } }
      (sampleEvents.take events) (sampleAfter events) :=
  Transition.permitted_run _ play play_step _ _ playable

end CheckedNode

/-- The first receipt gives its acknowledgement's bytes back when it is completed, and is
charged for a new one when its ID is used again; the purge at the second receipt's
expiry drops that one and keeps the first. -/
theorem receipt_accounting_reused_id :
    (∀ entry, (CheckedNode.sampleAfter 9).process.state.dedup.lookup "m" = some entry →
      entry.retainedBytes = dedupRetainedBytes "m" 1 1) ∧
    (CheckedNode.sampleAfter 9).process.state.dedupBytes =
      ((CheckedNode.sampleAfter 9).process.state.dedup.values.map (·.retainedBytes)).sum ∧
    (∃ entry, (CheckedNode.sampleAfter 11).process.state.dedup.lookup "m" = some entry ∧
      entry.retainedBytes = dedupRetainedBytes "m" 1 1 + requiredAckEntryBytes 1 ∧
      toLex (entry.expiresAt, "m") ∈ (CheckedNode.sampleAfter 11).process.state.dedupExpirations ∧
      (purgeExpiredDedup Sample.hashing (CheckedNode.sampleAfter 11).process.state
        60000000020).dedup.lookup "m" = some entry) ∧
    (purgeExpiredDedup Sample.hashing (CheckedNode.sampleAfter 11).process.state
      60000000020).dedup.lookup "n" = none := by
  obtain ⟨completedTotal, _, completedEach, _⟩ :=
    receipt_accounting_exact Sample.hashing CheckedNode.sampleConfig
    Sample.topology _ _ (CheckedNode.sample_run 9 (by decide +kernel))
  obtain ⟨_, _, each, purged⟩ := receipt_accounting_exact Sample.hashing CheckedNode.sampleConfig
    Sample.topology _ _ (CheckedNode.sample_run 11 (by decide +kernel))
  refine ⟨?_, completedTotal, ?_, ?_⟩
  · intro entry found
    have fields : ((CheckedNode.sampleAfter 9).process.state.dedup.lookup "m").map (fun entry =>
        (entry.requiredAcks, entry.key.length, entry.version.ownerNodeId.utf8ByteSize)) =
          some ([], 1, 1) := by decide +kernel
    rw [found, Option.map_some, Option.some.injEq, Prod.mk.injEq, Prod.mk.injEq] at fields
    rw [(completedEach "m" entry found).1, fields.1, fields.2.1, fields.2.2]
    rfl
  · have fields : ((CheckedNode.sampleAfter 11).process.state.dedup.lookup "m").map (fun entry =>
        (entry.requiredAcks, entry.key.length, entry.version.ownerNodeId.utf8ByteSize, entry.expiresAt)) =
          some ([⟨1, "b", 3⟩], 1, 1, 120000000010) := by decide +kernel
    obtain ⟨entry, found, fields⟩ := Option.map_eq_some_iff.mp fields
    rw [Prod.mk.injEq, Prod.mk.injEq, Prod.mk.injEq] at fields
    obtain ⟨acks, key, owner, expiry⟩ := fields
    obtain ⟨retained, waiting⟩ := each "m" entry found
    refine ⟨entry, found, ?_, waiting, ?_⟩
    · rw [retained, acks, key, owner]
      rfl
    · rw [(purged 60000000020).2 "m", found, Option.filter_some, expiry]
      rfl
  · have expired : ((CheckedNode.sampleAfter 11).process.state.dedup.lookup "n").map (·.expiresAt) =
        some 60000000020 := by
      decide +kernel
    obtain ⟨entry, found, expiry⟩ := Option.map_eq_some_iff.mp expired
    rw [(purged 60000000020).2 "n", found, Option.filter_some, expiry]
    rfl

end Hashring
