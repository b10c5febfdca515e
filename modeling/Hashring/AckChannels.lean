import Hashring.RequiredAcks

/-! The progress channels of a node's streams. A write opens the channel of each
follower it is sent to; a retained receipt that waits for a follower keeps its
channel through later epochs; the prune drops the channels nothing waits for. -/
namespace Hashring

theorem mem_live_ack_streams (dedup : FiniteMap String DedupEntry) (stream : StreamKey) :
    stream ∈ liveAckStreams dedup ↔ ∃ id entry ack, dedup.lookup id = some entry ∧
      ack ∈ entry.requiredAcks ∧
      stream = ⟨ack.epoch, ack.nodeId⟩ := by
  unfold liveAckStreams
  rw [List.mem_flatMap]
  constructor
  · rintro ⟨entry, stored, named⟩
    obtain ⟨id, found⟩ := (FiniteMap.mem_values_iff dedup entry).mp stored
    obtain ⟨ack, member, same⟩ := List.mem_map.mp named
    exact ⟨id, entry, ack, found, member, same.symm⟩
  · rintro ⟨id, entry, ack, found, member, rfl⟩
    exact ⟨entry, (FiniteMap.mem_values_iff dedup entry).mpr ⟨id, found⟩,
      List.mem_map.mpr ⟨ack, member, rfl⟩⟩

theorem mem_iff_found {κ ν : Type} [DecidableEq κ] (table : FiniteMap κ ν) (key : κ) :
    key ∈ table ↔ ∃ value, table.lookup key = some value := by
  rw [← AList.lookup_isSome, Option.isSome_iff_exists]

/-- The prune without its early exit. -/
def scanAckProgress (state : NodeState) : NodeState :=
  let live := liveAckStreams state.dedup
  { state with
    ackProgress := state.ackProgress.retain fun key _ => key.epoch = state.topology.epoch || key ∈ live
    ackProcessInstances := state.ackProcessInstances.retain fun key _ =>
      key.epoch = state.topology.epoch || key ∈ live }

theorem retain_all {κ ν : Type} [DecidableEq κ] (table : FiniteMap κ ν) (keep : κ → ν → Bool)
    (all : ∀ key ∈ table.keys, ∀ value, keep key value = true) : table.retain keep = table := by
  apply AList.ext
  apply List.filter_eq_self.mpr
  intro entry member
  exact all entry.1 (List.mem_map_of_mem member) entry.2

theorem prune_is_scan (state : NodeState) : pruneAckProgress state = scanAckProgress state := by
  unfold pruneAckProgress scanAckProgress
  simp only
  split
  · rename_i current
    rw [List.all_eq_true] at current
    rw [retain_all, retain_all]
    · intro key member value
      simpa using .inl (of_decide_eq_true (current key (List.mem_append_right _ member)))
    · intro key member value
      simpa using .inl (of_decide_eq_true (current key (List.mem_append_left _ member)))
  · rfl

/-- The streams the prune drops: of another epoch, and named by no receipt. -/
def Retired (state : NodeState) (stream : StreamKey) : Prop :=
  stream.epoch ≠ state.topology.epoch ∧ stream ∉ liveAckStreams state.dedup

instance (state : NodeState) (stream : StreamKey) : Decidable (Retired state stream) :=
  inferInstanceAs (Decidable (_ ∧ _))

theorem prune_lookup (state : NodeState) (stream : StreamKey) :
    (pruneAckProgress state).ackProgress.lookup stream =
        (if Retired state stream then none else state.ackProgress.lookup stream) ∧
      (pruneAckProgress state).ackProcessInstances.lookup stream =
        if Retired state stream then none else state.ackProcessInstances.lookup stream := by
  rw [prune_is_scan]
  simp only [scanAckProgress, FiniteMap.lookup_retain]
  by_cases retired : Retired state stream
  · simp [retired, retired.1, retired.2]
  · have kept : (decide (stream.epoch = state.topology.epoch) || decide
        (stream ∈ liveAckStreams state.dedup)) = true := by
      by_contra dropped
      rw [Bool.or_eq_true, not_or, decide_eq_true_eq, decide_eq_true_eq] at dropped
      exact retired dropped
    rw [if_neg retired, if_neg retired]
    exact ⟨filter_eq_self fun _ _ => kept, filter_eq_self fun _ _ => kept⟩

structure ChannelsKept (before after : NodeState) : Prop where
  epoch : before.topology.epoch ≤ after.topology.epoch
  opened : ∀ stream, stream ∈ after.ackProgress → stream ∈ before.ackProgress ∨
    stream.epoch = after.topology.epoch
  kept : ∀ stream, stream ∈ before.ackProgress →
    stream.epoch = after.topology.epoch ∨ stream ∈ liveAckStreams after.dedup → stream ∈ after.ackProgress
  named : ∀ stream, stream ∈ liveAckStreams after.dedup →
    stream ∈ liveAckStreams before.dedup ∨ stream ∈ after.ackProgress

structure ChannelsOpen (state : NodeState) : Prop where
  named : ∀ stream, stream ∈ liveAckStreams state.dedup → stream ∈ state.ackProgress
  past : ∀ stream, stream ∈ state.ackProgress → stream.epoch ≤ state.topology.epoch

theorem ChannelsOpen.step {before after : NodeState} (channels : ChannelsOpen before)
    (kept : ChannelsKept before after) :
    ChannelsOpen after where
  named stream live := by
    rcases kept.named stream live with earlier | here
    · exact kept.kept stream (channels.named stream earlier) (.inr live)
    · exact here
  past stream listed := by
    rcases kept.opened stream listed with old | current
    · exact (channels.past stream old).trans kept.epoch
    · exact current.le

theorem prune_channels (state : NodeState) (stream : StreamKey) :
    stream ∈ (pruneAckProgress state).ackProgress ↔ stream ∈ state.ackProgress ∧
      ¬Retired state stream := by
  rw [mem_iff_found, mem_iff_found, (prune_lookup state stream).1]
  by_cases retired : Retired state stream
  · simp [retired]
  · simp [retired]

def ChannelsHeld (before after : NodeState) : Prop :=
  ChannelsKept before after ∧ after.topology.epoch = before.topology.epoch

namespace ChannelsHeld

theorem of_progress {before after : NodeState} (topology : after.topology = before.topology)
    (progress : ∀ stream, stream ∈ after.ackProgress ↔ stream ∈ before.ackProgress)
    (named : ∀ stream, stream ∈ liveAckStreams after.dedup → stream ∈ liveAckStreams before.dedup) :
    ChannelsHeld before after := by
  refine ⟨⟨?_, ?_, ?_, ?_⟩, congrArg _ topology⟩
  · rw [topology]
  · exact fun stream listed => .inl ((progress stream).mp listed)
  · exact fun stream listed _ => (progress stream).mpr listed
  · exact fun stream live => .inl (named stream live)

theorem trans {first second third : NodeState} (early : ChannelsHeld first second)
    (late : ChannelsHeld second third) :
    ChannelsHeld first third := by
  refine ⟨⟨early.1.epoch.trans late.1.epoch, ?_, ?_, ?_⟩, late.2.trans early.2⟩
  · intro stream listed
    rcases late.1.opened stream listed with before | current
    · rcases early.1.opened stream before with first | current
      · exact .inl first
      · exact .inr (current.trans late.2.symm)
    · exact .inr current
  · intro stream listed wanted
    -- What the last state still wants, the state between wanted or it is open already.
    rcases wanted with current | live
    · exact late.1.kept stream (early.1.kept stream listed (.inl (current.trans late.2))) (.inl current)
    · rcases late.1.named stream live with before | here
      · exact late.1.kept stream (early.1.kept stream listed (.inr before)) (.inr live)
      · exact here
  · intro stream live
    rcases late.1.named stream live with before | here
    · rcases early.1.named stream before with first | opened
      · exact .inl first
      · exact .inr (late.1.kept stream opened (.inr live))
    · exact .inr here

variable (hashing : Hashing) (state : NodeState)

theorem named_mono {before after : FiniteMap String DedupEntry}
    (receipts : ∀ id entry, after.lookup id = some entry → entry.requiredAcks ≠ [] →
      before.lookup id = some entry)
    (stream : StreamKey) (live : stream ∈ liveAckStreams after) : stream ∈ liveAckStreams before := by
  rw [mem_live_ack_streams] at live ⊢
  obtain ⟨id, entry, ack, found, member, rfl⟩ := live
  exact ⟨id, entry, ack, receipts id entry found (List.ne_nil_of_mem member), member, rfl⟩

theorem prune : ChannelsHeld state (pruneAckProgress state) := by
  have same : (pruneAckProgress state).topology = state.topology ∧ (pruneAckProgress state).dedup =
      state.dedup := by
    rw [prune_is_scan]
    exact ⟨rfl, rfl⟩
  refine ⟨⟨?_, ?_, ?_, ?_⟩, congrArg _ same.1⟩
  · rw [same.1]
  · exact fun stream listed => .inl ((prune_channels state stream).mp listed).1
  · intro stream listed wanted
    rw [same.1, same.2] at wanted
    refine (prune_channels state stream).mpr ⟨listed, fun retired => ?_⟩
    rcases wanted with current | live
    · exact retired.1 current
    · exact retired.2 live
  · intro stream live
    rw [same.2] at live
    exact .inl live

theorem purge (now : Instant) : ChannelsHeld state (purgeExpiredDedup hashing state now) := by
  have receipts := (AcksQuiet.purge hashing state now).receipts
  obtain ⟨topology, progress, -⟩ := drop_expired_same_acks hashing now
    (state.dedupExpirations.due (receiptDue now))
    { state with dedupExpirations := state.dedupExpirations.later (receiptDue now) }
  unfold purgeExpiredDedup at receipts ⊢
  simp only at receipts ⊢
  generalize (state.dedupExpirations.due (receiptDue now)).foldl
    (fun state entry => dropExpiredReceipt hashing now state (ofLex entry).2)
    { state with dedupExpirations := state.dedupExpirations.later (receiptDue now) } = purged at *
  have dropped : ∀ after : NodeState, after.dedup = purged.dedup →
      (∀ id entry, after.dedup.lookup id = some entry → entry.requiredAcks ≠ [] →
        state.dedup.lookup id = some entry) →
      ChannelsHeld state purged := by
    intro after same receipts
    refine of_progress topology (fun stream => by rw [progress]) (named_mono ?_)
    rwa [← same]
  split at receipts
  · rename_i due
    rw [if_pos due]
    have flagged : ChannelsHeld (pruneAckProgress purged) { pruneAckProgress purged with
        ackProgressNeedsPrune := false, nextAckPruneAt := now + 1000 * nanosPerMilli } :=
      of_progress rfl (fun _ => Iff.rfl) fun _ live => live
    exact (dropped _ (prune_ack_progress_only purged).2.1 receipts).trans ((prune purged).trans flagged)
  · rename_i later
    rw [if_neg later]
    exact dropped purged rfl receipts

theorem insert_dedup (id : String) (key fingerprint : Bytes) (version : RecordVersion) (deleted : Bool)
    (expiresAt : Instant) :
    ChannelsHeld state (insertDedupUntil hashing state id key fingerprint version deleted expiresAt) := by
  have receipts := (AcksQuiet.insert_dedup hashing state id key fingerprint version deleted
      expiresAt).receipts
  obtain ⟨_, _, _, _, _, same⟩ :=
    insert_dedup_only hashing state id key fingerprint version deleted expiresAt
  exact of_progress (by rw [same]) (fun stream => by rw [same]) (named_mono receipts)

theorem complete (mutationId : String) (version : RecordVersion) :
    ChannelsHeld state (completeRequiredAcks state mutationId version) := by
  have receipts := (AcksQuiet.complete state mutationId version).receipts
  obtain ⟨_, _, frame⟩ := complete_required_acks_frame state mutationId version
  exact of_progress (by rw [frame]) (fun stream => by rw [frame]) (named_mono receipts)

theorem rule : AckRule hashing ChannelsHeld where
  trans := trans
  same before after same := of_progress same.topology (fun stream => by rw [same.progress])
    fun stream live => by rwa [same.dedup] at live
  purge := purge hashing
  insert := insert_dedup hashing
  complete := complete

end ChannelsHeld

theorem prepare_followers_channels (mutation : ReplicationMutation) (awaited : List String)
    (followers : List (String × String)) (state : NodeState) (stream : StreamKey) :
    stream ∈ (prepareFollowers mutation awaited state followers).1.ackProgress ↔
      stream ∈ state.ackProgress ∨ stream.epoch = state.topology.epoch ∧
        stream.nodeId ∈ followers.map Prod.fst := by
  induction followers generalizing state with
  | nil => simp [prepareFollowers]
  | cons follower rest ih =>
      obtain ⟨nodeId, endpoint⟩ := follower
      have here : stream = ⟨state.topology.epoch, nodeId⟩ ↔ stream.epoch = state.topology.epoch ∧
          stream.nodeId = nodeId := by
        cases stream
        simp
      have opened : stream ∈ (if (⟨state.topology.epoch, nodeId⟩ : StreamKey) ∈ state.ackProgress
          then state.ackProgress
          else state.ackProgress.insert ⟨state.topology.epoch, nodeId⟩ 0) ↔
          stream ∈ state.ackProgress ∨ stream = ⟨state.topology.epoch, nodeId⟩ := by
        split
        · rename_i present
          constructor
          · exact .inl
          · rintro (old | rfl)
            · exact old
            · exact present
        · rw [AList.mem_insert, or_comm]
      unfold prepareFollowers
      simp only
      rw [ih]
      simp only [opened, here, List.map_cons, List.mem_cons]
      tauto

theorem prepared_entries (mutation : ReplicationMutation) (awaited : List String)
    (followers : List (String × String)) (state : NodeState) (entry : PreparedReplication)
    (member : entry ∈ (prepareFollowers mutation awaited state followers).2) :
    entry.mutation = mutation ∧ entry.followerNodeId ∈ followers.map Prod.fst := by
  induction followers generalizing state with
  | nil => exact absurd member List.not_mem_nil
  | cons follower rest ih =>
      obtain ⟨nodeId, endpoint⟩ := follower
      unfold prepareFollowers at member
      simp only at member
      rcases List.mem_cons.mp member with rfl | later
      · exact ⟨rfl, List.mem_cons_self⟩
      · obtain ⟨same, listed⟩ := ih _ later
        exact ⟨same, List.mem_cons_of_mem _ listed⟩

theorem prepare_channels {state prepared : NodeState} {write : ReplicationWrite}
    {entries : List PreparedReplication}
    (fanned : prepareReplicationEntries state write = some (prepared, entries)) :
    ChannelsHeld state prepared ∧ ∀ entry ∈ entries, entry.ownerStream ∈ prepared.ackProgress := by
  have frame := prepare_frame state prepared write entries fanned
  unfold prepareReplicationEntries at fanned
  simp only at fanned
  split at fanned
  · exact absurd fanned (by simp)
  · obtain ⟨rfl, rfl⟩ := Prod.mk.inj (Option.some.inj fanned)
    obtain ⟨progress, sequences, same⟩ := frame
    have topology := congrArg NodeState.topology same
    have dedup := congrArg NodeState.dedup same
    have channels := prepare_followers_channels (write.mutation state.topology.epoch)
      write.ackAwaitedFollowers
      (replicationFollowers state.topology write.token) state
    refine ⟨⟨⟨(congrArg _ topology).ge, ?_, ?_, ?_⟩, congrArg _ topology⟩, ?_⟩
    · intro stream listed
      rcases (channels stream).mp listed with old | ⟨current, -⟩
      · exact .inl old
      · exact .inr (current.trans (congrArg _ topology).symm)
    · exact fun stream listed _ => (channels stream).mpr (.inl listed)
    · intro stream live
      rw [dedup] at live
      exact .inl live
    · intro entry member
      obtain ⟨mutation, listed⟩ := prepared_entries _ _ _ _ _ member
      refine (channels entry.ownerStream).mpr (.inr ⟨?_, listed⟩)
      rw [PreparedReplication.ownerStream, mutation]
      rfl

theorem stored_channels (hashing : Hashing) (clock : Clock) (prepared : NodeState)
    (plan : WritePlan) (record : Record) (token : Token) (followers : List String)
    (entries : List PreparedReplication)
    (opened : ∀ entry ∈ entries, entry.ownerStream ∈ prepared.ackProgress) :
    ChannelsHeld prepared (storeWrite hashing clock prepared plan record token followers entries) := by
  have effect := store_write_effect hashing clock prepared plan record token followers entries
  have receipts := effect.receipts
  obtain ⟨_, _, _, _, _, _, _, _, _, _, _, frame⟩ := effect.frame
  have topology := congrArg NodeState.topology frame
  have progress := congrArg NodeState.ackProgress frame
  generalize storeWrite hashing clock prepared plan record token followers entries = stored at *
  refine ⟨⟨(congrArg _ topology).ge, ?_, ?_, ?_⟩, congrArg _ topology⟩
  · intro stream listed
    rw [progress] at listed
    exact .inl listed
  · intro stream listed _
    rw [progress]
    exact listed
  · intro stream live
    obtain ⟨id, entry, ack, found, member, rfl⟩ := (mem_live_ack_streams _ _).mp live
    rw [receipts] at found
    split at found
    · obtain rfl := Option.some.inj found
      obtain ⟨sent, listed, rfl⟩ := List.mem_map.mp member
      rw [progress]
      exact .inr (opened sent (List.mem_filter.mp listed).1)
    · exact .inl ((mem_live_ack_streams _ _).mpr ⟨id, entry, ack, found, member, rfl⟩)

theorem commit_channels (hashing : Hashing) (config : NodeConfig) (clock : Clock) (process : NodeProcess)
    (request : WriteRequest) (ready : Readiness) :
    ChannelsHeld process.state (commitRequest hashing config clock process request ready).1.state := by
  apply (ChannelsHeld.rule hashing).commit
  intro process plan
  have same := (ChannelsHeld.rule hashing).refl process.state
  unfold commitPlan
  simp only
  split
  · exact same
  · split
    · exact same
    · split
      · exact same
      · split
        · exact same
        · rename_i prepared entries fanned
          obtain ⟨held, opened⟩ := prepare_channels fanned
          split
          · obtain ⟨sequences, rolled⟩ := rollback_frame entries prepared
            -- A rollback numbers the streams back and leaves the channels it found open.
            have back : ChannelsHeld prepared (rollbackReplicationSequences prepared entries) := by
              rw [rolled]
              exact (ChannelsHeld.rule hashing).same _ _ ⟨rfl, rfl, rfl, rfl⟩
            exact held.trans back
          · exact held.trans (stored_channels hashing clock prepared plan _ _ _ entries opened)

theorem adopt_channels (hashing : Hashing) (process : NodeProcess) (topology : TopologySnapshot)
    (newer : process.state.topology.epoch ≤ topology.epoch) :
    ChannelsKept process.state (adoptTopology hashing process topology).state := by
  obtain ⟨switched, adopted, installed, -, progress, dedup⟩ := adopt_acks hashing process topology
  have pruned := (ChannelsHeld.prune switched).1
  have epoch := (ChannelsHeld.prune switched).2
  rw [adopted]
  rw [installed] at epoch
  refine ⟨?_, ?_, ?_, ?_⟩
  · rw [epoch]
    exact newer
  · intro stream listed
    exact (pruned.opened stream listed).imp_left fun old => progress ▸ old
  · intro stream listed wanted
    exact pruned.kept stream (progress ▸ listed) wanted
  · intro stream live
    exact (pruned.named stream live).imp_left fun named => dedup ▸ named

theorem report_channels (state : NodeState) (stream : StreamKey) (response : ReplicateMutationsResponse) :
    ChannelsHeld state (NodeProcess.recordAck state stream response) := by
  refine ChannelsHeld.of_progress ?_ ?_ ?_
  · rfl
  · intro probe
    simp only [NodeProcess.recordAck, mem_iff_found, FiniteMap.lookup_modify, Option.map_eq_some_iff]
    constructor
    · rintro ⟨_, value, found, -⟩
      exact ⟨value, found⟩
    · rintro ⟨value, found⟩
      exact ⟨_, value, found, rfl⟩
  · exact fun _ live => live

theorem handle_channels (hashing : Hashing) (config : NodeConfig) (process : NodeProcess)
    (event : NodeEvent) :
    ChannelsKept process.state (process.handle hashing config event).state := by
  have same := ((ChannelsHeld.rule hashing).refl process.state).1
  by_cases steady : event.Quiet ∧ ¬event.Adopts
  · exact ((ChannelsHeld.rule hashing).handle config process event steady.1 steady.2).1
  · cases event with
    | commit clock request ready => exact (commit_channels hashing config clock process request ready).1
    | send key =>
        rw [NodeProcess.handle, NodeProcess.send_batch_state]
        exact same
    | answered key answer =>
        rw [NodeProcess.handle]
        rcases process.receive_answer_state key answer with kept | ⟨stream, response, -, reported⟩
        · rw [kept]
          exact same
        · rw [reported]
          exact (report_channels process.state stream response).1
    | install | refresh =>
        exact NodeProcess.handle_adopting hashing config
          (motive := fun after => ChannelsKept process.state after.state) same
          (fun topology _ newer => adopt_channels hashing process topology newer) trivial
    | _ => exact absurd ⟨trivial, id⟩ steady

/-- The order in which the sweep finds the source ranges has nothing to do with the channels. -/
theorem step_channels {hashing : Hashing} {config : NodeConfig} {before after : NodeProcess}
    {event : NodeEvent}
    (taken : NodeProcess.Step hashing config before event after) :
    ChannelsKept before.state after.state := by
  obtain ⟨sources, -, rfl⟩ := taken
  have shuffled := handle_channels hashing config
      { before with state := { before.state with sources } } event
  exact ⟨shuffled.epoch, shuffled.opened, shuffled.kept, shuffled.named⟩

namespace ChannelsOpen

variable {hashing : Hashing} {config : NodeConfig} {events : List NodeEvent} {before after : NodeProcess}

theorem run (taken : Transition.Run (NodeProcess.Step hashing config) before events after)
    (channels : ChannelsOpen before.state) : ChannelsOpen after.state :=
  Transition.run_invariant (fun _ => True) (fun process => ChannelsOpen process.state)
    (fun _ _ _ _ channels step => channels.step (step_channels step)) taken (fun _ _ => trivial) channels

theorem current_kept (taken : Transition.Run (NodeProcess.Step hashing config) before events after)
    (channels : ChannelsOpen before.state) :
    before.state.topology.epoch ≤ after.state.topology.epoch ∧
      ∀ stream, stream ∈ before.state.ackProgress → stream.epoch = after.state.topology.epoch →
        stream ∈ after.state.ackProgress := by
  induction taken with
  | refl state => exact ⟨le_rfl, fun _ listed _ => listed⟩
  | next step rest ih =>
      have kept := step_channels step
      obtain ⟨newer, later⟩ := ih (channels.step kept)
      refine ⟨kept.epoch.trans newer, fun stream listed current => ?_⟩
      have within := (channels.past stream listed).trans kept.epoch
      exact later stream (kept.kept stream listed (.inl (le_antisymm within (current ▸ newer)))) current

theorem fresh (topology : TopologySnapshot) : ChannelsOpen { topology } where
  named stream live := absurd live (by simp [liveAckStreams, FiniteMap.values])
  past stream listed := absurd listed (AList.notMem_empty stream)

end ChannelsOpen

/-- In every run of a node, a stream that a retained receipt waits on has its
progress channel, a channel of the installed epoch is never closed, and the prune
drops exactly the streams of other epochs that no receipt names, early exit or not. -/
theorem ack_channels_stay_open (hashing : Hashing) (config : NodeConfig) (topology : TopologySnapshot)
    (early late : List NodeEvent) (middle last : NodeProcess)
    (first : Transition.Run (NodeProcess.Step hashing config) { state := { topology } } early middle)
    (second : Transition.Run (NodeProcess.Step hashing config) middle late last) :
    (∀ id entry ack, last.state.dedup.lookup id = some entry → ack ∈ entry.requiredAcks →
      (⟨ack.epoch, ack.nodeId⟩ : StreamKey) ∈ last.state.ackProgress) ∧
    (∀ stream, stream ∈ middle.state.ackProgress → stream.epoch = last.state.topology.epoch →
      stream ∈ last.state.ackProgress) ∧
    ∀ state : NodeState, pruneAckProgress state = scanAckProgress state ∧ ∀ stream : StreamKey,
      (pruneAckProgress state).ackProgress.lookup stream =
          (if Retired state stream then none else state.ackProgress.lookup stream) ∧
        (pruneAckProgress state).ackProcessInstances.lookup stream =
          if Retired state stream then none else state.ackProcessInstances.lookup stream := by
  have between := ChannelsOpen.run first (.fresh topology)
  refine ⟨?_, (ChannelsOpen.current_kept second between).2, ?_⟩
  · intro id entry ack found member
    exact (ChannelsOpen.run second between).named _
      ((mem_live_ack_streams _ _).mpr ⟨id, entry, ack, found, member, rfl⟩)
  · exact fun state => ⟨prune_is_scan state, prune_lookup state⟩

namespace ChannelSample

def config : NodeConfig := { nodeId := "a", processInstanceId := "a-1" }

def put : WriteRequest :=
  .put { key := [byte 107], value := [byte 1], topologyEpoch := 1, requestId := "m"
         expiresAtUnixMillis := none, preserveValue := false, precondition := none }

def written : List NodeEvent :=
  [.renewed 1 0 { topologyEpoch := 1, leaseDurationMillis := 1000, admittedFollowers := [("b", "b-1")] },
    .commit (Sample.clock 10) put ⟨5, 7, 1, ["b"]⟩]

def installed : List NodeEvent := [.install { Sample.topology with epoch := 2 }]

def start : NodeProcess := { state := { topology := Sample.topology } }

end ChannelSample

theorem ack_channels_stay_open_sample :
    ∃ last : NodeProcess, last.state.topology.epoch = 2 ∧
      (last.state.dedup.lookup "m").any
        (fun entry => decide ((⟨1, "b", 1⟩ : RequiredAck) ∈ entry.requiredAcks)) = true ∧
      ∀ id entry ack, last.state.dedup.lookup id = some entry → ack ∈ entry.requiredAcks →
        (⟨ack.epoch, ack.nodeId⟩ : StreamKey) ∈ last.state.ackProgress := by
  have stays := ack_channels_stay_open Sample.hashing ChannelSample.config Sample.topology
    ChannelSample.written
    ChannelSample.installed _ _ (NodeProcess.run_handle _ _ ChannelSample.written ChannelSample.start)
      (NodeProcess.run_handle _ _ _ _)
  exact ⟨_, by decide +kernel, by decide +kernel, stays.1⟩

end Hashring
