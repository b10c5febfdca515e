import Hashring.Replication

/-! Safety of the follower's stream positions under every order of deliveries.
Entries may be lost, repeated, reordered and batched at will, checkpoints may
be installed in between, and so may any operation of the node that neither
writes stream positions nor installs a topology. A topology install, which
discards the positions of retired epochs, ends the life of a stream and is not
an event here. -/
namespace Hashring.FollowerStream

structure Operation where
  run : NodeState → NodeState
  streams : ∀ state, (run state).followerStreams = state.followerStreams
  topology : ∀ state, (run state).topology = state.topology

theorem Operation.positions (operation : Operation) (state : NodeState) (key : StreamKey) :
    (operation.run state).streamAt key = state.streamAt key := by
  unfold NodeState.streamAt
  rw [operation.streams]

inductive Delivery where
  | entry (clock : Clock) (entry : ReplicationEntry)
  | batch (clock : Clock) (entries : List ReplicationEntry)
  | checkpoint (request : ReplicationCheckpointRequest)
  | other (operation : Operation)

/-- What a refused or repeated entry may still do: create an empty stream
position, drop receipts that had expired by `now` and forget acknowledgement
progress of retired epochs. -/
structure Untouched (now : Instant) (before after : NodeState) : Prop where
  frame : ∃ followerStreams, OnlyReceipts { before with followerStreams } after
  positions : ∀ key, after.streamAt key = before.streamAt key
  keepsLive : ∀ id entry, before.dedup.lookup id = some entry → now < entry.expiresAt →
    after.dedup.lookup id = some entry
  addsNone : ∀ id entry, after.dedup.lookup id = some entry → before.dedup.lookup id = some entry
  keepsAcks : SameCurrentAcks before after

theorem Untouched.records {now : Instant} {before after : NodeState} (same : Untouched now before after) :
    after.records = before.records := by
  obtain ⟨_, _, _, _, _, _, _, _, _, _, rfl⟩ := same.frame
  rfl

theorem untouched_refl (now : Instant) (state : NodeState) : Untouched now state state :=
  ⟨⟨_, OnlyReceipts.refl state⟩, fun _ => rfl, fun _ _ found _ => found, fun _ _ found => found,
    fun _ _ => ⟨rfl, rfl⟩⟩

theorem untouched_init (now : Instant) (state : NodeState) (key : StreamKey) :
    Untouched now state (state.initStream key) :=
  ⟨⟨_, OnlyReceipts.refl _⟩, fun probe => NodeState.stream_at_init state key probe,
    fun _ _ found _ => found, fun _ _ found => found, fun _ _ => ⟨rfl, rfl⟩⟩

variable (hashing : Hashing) (config : NodeConfig)

theorem untouched_purge (now : Instant) (state : NodeState) (key : StreamKey) :
    Untouched now state (purgeExpiredDedup hashing (state.initStream key) now) where
  frame := ⟨_, purge_expired_only hashing (state.initStream key) now⟩
  positions probe := by
    rw [(purge_expired_only hashing (state.initStream key) now).stream_at, NodeState.stream_at_init]
  keepsLive id entry found live := purge_keeps_live hashing (state.initStream key) now id entry found live
  addsNone id entry found := purge_lookup_some hashing (state.initStream key) now id entry found
  keepsAcks := purge_keeps_current_acks hashing (state.initStream key) now

structure EntryOutcome (hashing : Hashing) (config : NodeConfig) (clock : Clock) (before : NodeState)
    (entry : ReplicationEntry) (after : NodeState) (answer : Except Status Nat) : Prop where
  recordsOnlyNext : after.records ≠ before.records →
    entry.streamSequence = (before.streamAt entry.stream).appliedSequence + 1 ∧
      answer = .ok entry.streamSequence
  refusedUntouched : ∀ status, answer = .error status → Untouched clock.now before after
  redelivery : entry.streamSequence ≤ (before.streamAt entry.stream).appliedSequence →
    Untouched clock.now before after
  gapRefused : (before.streamAt entry.stream).appliedSequence + 1 < entry.streamSequence →
    ∃ status, answer = .error status
  conflictRefused : ∀ known, entry.streamSequence ≤ (before.streamAt entry.stream).appliedSequence →
    (before.streamAt entry.stream).fingerprints.lookup entry.streamSequence = some known →
    known ≠ replicationFingerprint hashing entry → ∃ status, answer = .error status
  malformedRefused : ∀ status, checkReplicationEntry hashing config before entry = .error status →
    answer = .error status
  badFingerprintRefused : entry.streamSequence = (before.streamAt entry.stream).appliedSequence + 1 →
    entry.requestFingerprint.length ≠ 32 → ∃ status, answer = .error status
  acceptedAdvances : ∀ sequence, answer = .ok sequence →
    sequence = (after.streamAt entry.stream).appliedSequence ∧ entry.streamSequence ≤ sequence ∧
      0 < entry.streamSequence
  otherStreams : ∀ key, key ≠ entry.stream → after.streamAt key = before.streamAt key
  position : (after.streamAt entry.stream).appliedSequence =
    if answer.toBool ∧ (before.streamAt entry.stream).appliedSequence < entry.streamSequence then
      (before.streamAt entry.stream).appliedSequence + 1
    else (before.streamAt entry.stream).appliedSequence

theorem checked_positive (state : NodeState) (entry : ReplicationEntry) (record : Record)
    (checked : checkReplicationEntry hashing config state entry = .ok record) :
    0 < entry.streamSequence := by
  by_contra zero
  have none : entry.streamSequence = 0 := by omega
  simp [checkReplicationEntry, none] at checked

theorem entry_outcome (clock : Clock) (before : NodeState) (entry : ReplicationEntry) :
    EntryOutcome hashing config clock before entry
      (applyReplicationEntry hashing config clock before entry).1
      (applyReplicationEntry hashing config clock before entry).2 := by
  have cases := apply_entry_cases hashing config clock before entry
  generalize applyReplicationEntry hashing config clock before entry = result at cases
  -- A refusal, whichever check it comes from, leaves nothing to show.
  have unchanged : ∀ {after : NodeState} {status : Status}, Untouched clock.now before after →
      (∀ other, checkReplicationEntry hashing config before entry = .error other → status = other) →
      EntryOutcome hashing config clock before entry after (.error status) := by
    intro after status same agrees
    exact {
      recordsOnlyNext := fun changed => absurd same.records changed
      refusedUntouched := fun _ _ => same
      redelivery := fun _ => same
      gapRefused := fun _ => ⟨status, rfl⟩
      conflictRefused := fun _ _ _ _ => ⟨status, rfl⟩
      malformedRefused := fun other refused => by rw [agrees other refused]
      badFingerprintRefused := fun _ _ => ⟨status, rfl⟩
      acceptedAdvances := fun _ answered => nomatch answered
      otherStreams := fun key _ => same.positions key
      position := by simp [same.positions, Except.toBool] }
  cases cases with
  | malformed status refused =>
      exact unchanged (untouched_refl _ _) fun other again => Except.error.inj (refused.symm.trans again)
  | redelivered record checked old known =>
      have same := untouched_init clock.now before entry.stream
      exact {
        recordsOnlyNext := fun changed => absurd same.records changed
        refusedUntouched := fun _ _ => same
        redelivery := fun _ => same
        gapRefused := fun beyond => by omega
        conflictRefused := fun stored _ found differs => by
          rcases known with matching | ⟨_, absent⟩
          · exact absurd (Option.some.inj (found.symm.trans matching)) differs
          · exact absurd (found.symm.trans absent) (by simp)
        malformedRefused := fun _ refused => by simp [checked] at refused
        badFingerprintRefused := fun next => by omega
        acceptedAdvances := fun sequence answered => by
          obtain rfl := Except.ok.inj answered
          exact ⟨by rw [same.positions], old, checked_positive hashing config _ _ record checked⟩
        otherStreams := fun key _ => same.positions key
        position := by simp [same.positions, not_lt.mpr old] }
  | conflict record checked _ _ _ =>
      exact unchanged (untouched_init _ _ _) fun _ refused => by simp [checked] at refused
  | gap record checked _ message =>
      exact unchanged (untouched_init _ _ _) fun _ refused => by simp [checked] at refused
  | stale record checked _ _ =>
      exact unchanged (untouched_init _ _ _) fun _ refused => by simp [checked] at refused
  | refused record checked _ _ status _ =>
      exact unchanged (untouched_purge hashing _ _ _) fun _ refused => by simp [checked] at refused
  | accepted record checked next ahead sized fresh =>
      have purged := untouched_purge hashing clock.now before entry.stream
      have moved : ((acceptEntry hashing clock
          (purgeExpiredDedup hashing (before.initStream entry.stream) clock.now) entry record).streamAt
            entry.stream).appliedSequence = entry.streamSequence := by
        rw [accept_entry_stream_at]
        simp [advanceStream]
      exact {
        recordsOnlyNext := fun _ => ⟨next, rfl⟩
        refusedUntouched := fun _ answered => nomatch answered
        redelivery := fun old => by omega
        gapRefused := fun beyond => by omega
        conflictRefused := fun _ old => by omega
        malformedRefused := fun _ refused => by simp [checked] at refused
        badFingerprintRefused := fun _ wrong => absurd sized wrong
        acceptedAdvances := fun sequence answered => by
          obtain rfl := Except.ok.inj answered
          exact ⟨moved.symm, le_refl _, checked_positive hashing config _ _ record checked⟩
        otherStreams := fun key different => by
          rw [accept_entry_stream_at]
          simp [different, purged.positions]
        position := by simp [moved, next, Except.toBool] }

/-- The entries of a delivery that advance the stream position; a batch stops
at its first refused entry. -/
def advancing (hashing : Hashing) (config : NodeConfig) (clock : Clock) :
    NodeState → List ReplicationEntry → List ReplicationEntry
  | _, [] => []
  | state, entry :: rest =>
      match applyReplicationEntry hashing config clock state entry with
      | (_, .error _) => []
      | (next, .ok _) =>
          if (state.streamAt entry.stream).appliedSequence < entry.streamSequence then
            entry :: advancing hashing config clock next rest
          else advancing hashing config clock next rest

/-- The sequences climb from just above `low` to `high` without gap or repeat. -/
def Climbs (low high : Nat) (sequences : List Nat) : Prop :=
  low ≤ high ∧ sequences = List.range' (low + 1) (high - low)

theorem climbs_refl (low : Nat) : Climbs low low [] := by
  simp [Climbs]

theorem climbs_append {low middle high : Nat} {early late : List Nat} (first : Climbs low middle early)
    (second : Climbs middle high late) : Climbs low high (early ++ late) := by
  obtain ⟨lower, rfl⟩ := first
  obtain ⟨upper, rfl⟩ := second
  refine ⟨lower.trans upper, ?_⟩
  have joined := List.range'_append_1 (s := low + 1) (m := middle - low) (n := high - middle)
  have start : low + 1 + (middle - low) = middle + 1 := by omega
  have total : middle - low + (high - middle) = high - low := by omega
  rw [start, total] at joined
  exact joined

def sequencesOf (key : StreamKey) (entries : List ReplicationEntry) : List Nat :=
  (entries.filter fun entry => entry.stream = key).map (·.streamSequence)

theorem sequences_of_cons (key : StreamKey) (entry : ReplicationEntry) (rest : List ReplicationEntry) :
    sequencesOf key (entry :: rest) = sequencesOf key [entry] ++ sequencesOf key rest := by
  by_cases here : entry.stream = key
  · simp [sequencesOf, here]
  · simp [sequencesOf, here]

theorem advance_climbs (clock : Clock) (before after : NodeState) (entry : ReplicationEntry)
    (sequence : Nat)
    (accepted : applyReplicationEntry hashing config clock before entry = (after, .ok sequence))
    (key : StreamKey) :
    Climbs (before.streamAt key).appliedSequence (after.streamAt key).appliedSequence
      (if (before.streamAt entry.stream).appliedSequence < entry.streamSequence
        then sequencesOf key [entry] else []) := by
  have outcome := entry_outcome hashing config clock before entry
  rw [accepted] at outcome
  by_cases here : key = entry.stream
  · subst key
    have position := outcome.position
    have reached : sequence = (after.streamAt entry.stream).appliedSequence :=
      (outcome.acceptedAdvances sequence rfl).1
    have covers := (outcome.acceptedAdvances sequence rfl).2.1
    by_cases ahead : (before.streamAt entry.stream).appliedSequence < entry.streamSequence
    · simp only [Except.toBool, ahead, and_self, ↓reduceIte] at position
      have exact_next : entry.streamSequence = (before.streamAt entry.stream).appliedSequence + 1 :=
        by omega
      simp [Climbs, position, sequencesOf, exact_next]
    · simp only [ahead, and_false, ↓reduceIte] at position
      simp [Climbs, ahead, position]
  · have same := outcome.otherStreams key here
    simp only at same
    rw [same]
    have absent : sequencesOf key [entry] = [] := by simp [sequencesOf, Ne.symm here]
    simp only [absent, ite_self]
    exact climbs_refl _

theorem refused_climbs (clock : Clock) (before after : NodeState) (entry : ReplicationEntry)
    (status : Status)
    (refused : applyReplicationEntry hashing config clock before entry = (after, .error status))
    (key : StreamKey) :
    Climbs (before.streamAt key).appliedSequence (after.streamAt key).appliedSequence [] := by
  have outcome := entry_outcome hashing config clock before entry
  rw [refused] at outcome
  rw [(outcome.refusedUntouched status rfl).positions]
  exact climbs_refl _

theorem entries_climb (clock : Clock) (entries : List ReplicationEntry) (before : NodeState)
    (applied : Nat) (key : StreamKey) :
    Climbs (before.streamAt key).appliedSequence
      ((applyReplicationEntries hashing config clock before applied entries).1.streamAt
        key).appliedSequence
      (sequencesOf key (advancing hashing config clock before entries)) := by
  induction entries generalizing before applied with
  | nil => simp [applyReplicationEntries, advancing, sequencesOf, climbs_refl]
  | cons entry rest ih =>
      unfold applyReplicationEntries advancing
      rcases step : applyReplicationEntry hashing config clock before entry with ⟨next, status | sequence⟩
      · have climb := refused_climbs hashing config clock before next entry status step key
        by_cases counted : 0 < applied
        · simpa [counted, sequencesOf] using climb
        · simpa [counted, sequencesOf] using climb
      · have climb := climbs_append
            (advance_climbs hashing config clock before next entry sequence step key)
            (ih next sequence)
        by_cases ahead : (before.streamAt entry.stream).appliedSequence < entry.streamSequence
        · simp only [ahead, ↓reduceIte] at climb ⊢
          rw [sequences_of_cons]
          exact climb
        · simpa only [ahead, ↓reduceIte, List.nil_append] using climb

inductive AcceptedRun (hashing : Hashing) (config : NodeConfig) (clock : Clock) :
    NodeState → List ReplicationEntry → NodeState → Prop where
  | refl (state : NodeState) : AcceptedRun hashing config clock state [] state
  | next {before middle after : NodeState} {entry : ReplicationEntry} {rest : List ReplicationEntry}
      {sequence : Nat} :
      applyReplicationEntry hashing config clock before entry = (middle, .ok sequence) →
      AcceptedRun hashing config clock middle rest after →
      AcceptedRun hashing config clock before (entry :: rest) after

/-- What a batch of one stream does: a prefix is accepted, the first refused
entry stops it untouched, and the answer is the position after the prefix. -/
structure BatchOutcome (hashing : Hashing) (config : NodeConfig) (clock : Clock) (before : NodeState)
    (entries : List ReplicationEntry) (key : StreamKey) (after : NodeState)
    (answer : Except Status ReplicateMutationsResponse) : Prop where
  splits : ∃ accepted left middle, entries = accepted ++ left ∧
    AcceptedRun hashing config clock before accepted middle ∧
    (left = [] ∧ after = middle ∨
      ∃ entry tail status, left = entry :: tail ∧
        applyReplicationEntry hashing config clock middle entry = (after, .error status) ∧
        Untouched clock.now middle after ∧ (accepted = [] → answer = .error status)) ∧
    (accepted ≠ [] → answer =
      .ok ⟨config.processInstanceId, (after.streamAt key).appliedSequence⟩)

/-- The loop of a batch, from a counter that is zero or the current position. -/
theorem entries_outcome (clock : Clock) (key : StreamKey) (entries : List ReplicationEntry)
    (oneStream : ∀ entry ∈ entries, entry.stream = key) (before : NodeState) (applied : Nat)
    (tracked : 0 < applied → applied = (before.streamAt key).appliedSequence) :
    ∃ accepted left middle, entries = accepted ++ left ∧
      AcceptedRun hashing config clock before accepted middle ∧
      (left = [] ∧ (applyReplicationEntries hashing config clock before applied entries).1 = middle ∨
        ∃ entry tail status, left = entry :: tail ∧
          applyReplicationEntry hashing config clock middle entry =
            ((applyReplicationEntries hashing config clock before applied entries).1, .error status) ∧
          (accepted = [] → applied = 0 →
            (applyReplicationEntries hashing config clock before applied entries).2 = .error status)) ∧
      (accepted ≠ [] ∨ 0 < applied →
        (applyReplicationEntries hashing config clock before applied entries).2 =
          .ok (((applyReplicationEntries hashing config clock before applied entries).1.streamAt
            key).appliedSequence)) := by
  induction entries generalizing before applied with
  | nil =>
      refine ⟨[], [], before, rfl, .refl before, Or.inl ⟨rfl, rfl⟩, ?_⟩
      rintro (impossible | counted)
      · exact absurd rfl impossible
      · simp [applyReplicationEntries, ← tracked counted]
  | cons entry rest ih =>
      have here := oneStream entry List.mem_cons_self
      have outcome := entry_outcome hashing config clock before entry
      rcases step : applyReplicationEntry hashing config clock before entry with ⟨next, status | sequence⟩
      · -- The loop stops at the refusal; entries before it make the answer the position.
        rw [step] at outcome
        have same := outcome.refusedUntouched status rfl
        refine ⟨[], entry :: rest, before, rfl, .refl before,
          Or.inr ⟨entry, rest, status, rfl, ?_, ?_⟩, ?_⟩
        · by_cases counted : 0 < applied
          · simp [applyReplicationEntries, step, counted]
          · simp [applyReplicationEntries, step, counted]
        · rintro - rfl
          simp [applyReplicationEntries, step]
        · rintro (impossible | counted)
          · exact absurd rfl impossible
          · simp only [applyReplicationEntries, step, counted, ↓reduceIte, same.positions]
            rw [tracked counted]
      · -- The entry is taken, and its sequence is what a later refusal answers with.
        rw [step] at outcome
        obtain ⟨reached, covers, positive⟩ := outcome.acceptedAdvances sequence rfl
        have counted : 0 < sequence := lt_of_lt_of_le positive covers
        have follows : 0 < sequence → sequence = (next.streamAt key).appliedSequence := fun _ => by
          rw [← here]
          exact reached
        obtain ⟨accepted, left, middle, split, run, stop, answer⟩ :=
          ih (fun later member => oneStream later (List.mem_cons_of_mem _ member)) next sequence follows
        have unfolded : applyReplicationEntries hashing config clock before applied (entry :: rest) =
            applyReplicationEntries hashing config clock next sequence rest := by
          simp [applyReplicationEntries, step]
        rw [unfolded]
        refine ⟨entry :: accepted, left, middle,
          by rw [split]; rfl, .next step run, ?_, fun _ => answer (Or.inr counted)⟩
        rcases stop with whole | ⟨refusedEntry, tail, status, listed, refused, _⟩
        · exact Or.inl whole
        · exact Or.inr ⟨refusedEntry, tail, status, listed, refused, fun none => absurd none (by simp)⟩

theorem batch_outcome (clock : Clock) (before : NodeState) (first : ReplicationEntry)
    (rest : List ReplicationEntry) (oneStream : ∀ entry ∈ first :: rest, entry.stream = first.stream) :
    BatchOutcome hashing config clock before (first :: rest) first.stream
      (replicateMutations hashing config clock before (first :: rest)).1
      (replicateMutations hashing config clock before (first :: rest)).2 := by
  have headed : ((first :: rest).any fun entry => decide (entry.stream ≠ first.stream)) = false := by
    rw [List.any_eq_false]
    intro entry member
    simp [oneStream entry member]
  obtain ⟨accepted, left, middle, split, run, stop, answer⟩ :=
    entries_outcome hashing config clock first.stream (first :: rest) oneStream before 0
      (fun counted => absurd counted (lt_irrefl 0))
  unfold replicateMutations
  simp only [headed, Bool.false_eq_true, ↓reduceIte]
  refine ⟨accepted, left, middle, split, run, ?_, ?_⟩
  · rcases stop with whole | ⟨entry, tail, status, listed, refused, silent⟩
    · exact Or.inl ⟨whole.1, whole.2⟩
    · have outcome := entry_outcome hashing config clock middle entry
      rw [refused] at outcome
      refine Or.inr ⟨entry, tail, status, listed, refused, outcome.refusedUntouched status rfl,
        fun none => ?_⟩
      rw [silent none rfl]
      rfl
  · intro some
    rw [answer (Or.inl some)]
    rfl

def deliver (hashing : Hashing) (config : NodeConfig) (state : NodeState) : Delivery → NodeState
  | .entry clock entry => (applyReplicationEntry hashing config clock state entry).1
  | .batch clock entries => (replicateMutations hashing config clock state entries).1
  | .checkpoint request => (installReplicationCheckpoint config state request).1
  | .other operation => operation.run state

/-- The entries a delivery applies. -/
def appliedBy (hashing : Hashing) (config : NodeConfig) (state : NodeState) :
    Delivery → List ReplicationEntry
  | .entry clock entry => advancing hashing config clock state [entry]
  | .batch clock (first :: rest) =>
      if (first :: rest).any fun entry => decide (entry.stream ≠ first.stream) then []
      else advancing hashing config clock state (first :: rest)
  | .batch _ [] => []
  | .checkpoint _ => []
  | .other _ => []

def deliverAll (hashing : Hashing) (config : NodeConfig) : NodeState → List Delivery → NodeState
  | state, [] => state
  | state, delivery :: rest => deliverAll hashing config (deliver hashing config state delivery) rest

def appliedAll (hashing : Hashing) (config : NodeConfig) : NodeState → List Delivery →
    List ReplicationEntry
  | _, [] => []
  | state, delivery :: rest =>
      appliedBy hashing config state delivery ++ appliedAll hashing config
        (deliver hashing config state delivery) rest

def checkpointOf (key : StreamKey) : Delivery → Prop
  | .checkpoint request => (⟨request.topologyEpoch, request.ownerNodeId⟩ : StreamKey) = key
  | _ => False

theorem checkpoint_cases (state : NodeState) (request : ReplicationCheckpointRequest) :
    let key : StreamKey := ⟨request.topologyEpoch, request.ownerNodeId⟩
    let after := (installReplicationCheckpoint config state request).1
    after = state ∨ after = state.initStream key ∨
      (state.streamAt key).appliedSequence ≤ request.streamSequence ∧
        after = state.setStream key
          { state.streamAt key with
            appliedSequence := request.streamSequence, checkpointSequence :=
              request.streamSequence } := by
  unfold installReplicationCheckpoint
  simp only
  split
  · exact Or.inl rfl
  · split
    · exact Or.inl rfl
    · split
      · exact Or.inl rfl
      · split
        · exact Or.inl rfl
        · split
          · exact Or.inl rfl
          · split
            · exact Or.inr (Or.inl rfl)
            · rename_i forward
              exact Or.inr (Or.inr ⟨not_lt.mp forward, rfl⟩)

theorem checkpoint_monotone (state : NodeState) (request : ReplicationCheckpointRequest)
    (key : StreamKey) :
    (state.streamAt key).appliedSequence ≤
      ((installReplicationCheckpoint config state request).1.streamAt key).appliedSequence := by
  rcases checkpoint_cases config state request with same | same | ⟨forward, moved⟩
  · rw [same]
  · rw [same, NodeState.stream_at_init]
  · rw [moved, NodeState.stream_at_set]
    by_cases here : key = ⟨request.topologyEpoch, request.ownerNodeId⟩
    · subst key
      simpa using forward
    · simp [here]

theorem checkpoint_other_streams (state : NodeState) (request : ReplicationCheckpointRequest)
    (key : StreamKey) (elsewhere : (⟨request.topologyEpoch, request.ownerNodeId⟩ : StreamKey) ≠ key) :
    (installReplicationCheckpoint config state request).1.streamAt key = state.streamAt key := by
  rcases checkpoint_cases config state request with same | same | ⟨_, moved⟩
  · rw [same]
  · rw [same, NodeState.stream_at_init]
  · rw [moved, NodeState.stream_at_set]
    simp [Ne.symm elsewhere]

/-- One delivery that installs no checkpoint of the stream climbs by exactly
the entries it applies. -/
theorem delivery_climbs (state : NodeState) (delivery : Delivery) (key : StreamKey)
    (entriesOnly : ¬checkpointOf key delivery) :
    Climbs (state.streamAt key).appliedSequence
      ((deliver hashing config state delivery).streamAt key).appliedSequence
      (sequencesOf key (appliedBy hashing config state delivery)) := by
  match delivery with
  | .entry clock entry =>
      have climb := entries_climb hashing config clock [entry] state 0 key
      have single : (applyReplicationEntries hashing config clock state 0 [entry]).1 =
          (applyReplicationEntry hashing config clock state entry).1 := by
        rcases step : applyReplicationEntry hashing config clock state entry
          with ⟨next, status | sequence⟩
        · simp [applyReplicationEntries, step]
        · simp [applyReplicationEntries, step]
      rw [single] at climb
      exact climb
  | .batch clock [] => exact climbs_refl _
  | .batch clock (first :: rest) =>
      simp only [deliver, appliedBy, replicateMutations]
      split
      · exact climbs_refl _
      · exact entries_climb hashing config clock (first :: rest) state 0 key
  | .checkpoint request =>
      have same := checkpoint_other_streams config state request key entriesOnly
      simp only [deliver, appliedBy, same]
      exact climbs_refl _
  | .other operation =>
      simp only [deliver, appliedBy, operation.positions]
      exact climbs_refl _

theorem delivery_monotone (state : NodeState) (delivery : Delivery) (key : StreamKey) :
    (state.streamAt key).appliedSequence ≤
      ((deliver hashing config state delivery).streamAt key).appliedSequence := by
  by_cases moved : checkpointOf key delivery
  · cases delivery with
    | checkpoint request => exact checkpoint_monotone config state request key
    | _ => exact absurd moved id
  · exact (delivery_climbs hashing config state delivery key moved).1

theorem run_monotone (deliveries : List Delivery) (state : NodeState) (key : StreamKey) :
    (state.streamAt key).appliedSequence ≤
      ((deliverAll hashing config state deliveries).streamAt key).appliedSequence := by
  induction deliveries generalizing state with
  | nil => exact le_refl _
  | cons delivery rest ih => exact (delivery_monotone hashing config state delivery key).trans (ih _)

theorem sequences_of_append (key : StreamKey) (early late : List ReplicationEntry) :
    sequencesOf key (early ++ late) = sequencesOf key early ++ sequencesOf key late := by
  simp [sequencesOf]

theorem run_climbs (deliveries : List Delivery) (state : NodeState) (key : StreamKey)
    (entriesOnly : ∀ delivery ∈ deliveries, ¬checkpointOf key delivery) :
    Climbs (state.streamAt key).appliedSequence
      ((deliverAll hashing config state deliveries).streamAt key).appliedSequence
      (sequencesOf key (appliedAll hashing config state deliveries)) := by
  induction deliveries generalizing state with
  | nil => exact climbs_refl _
  | cons delivery rest ih =>
      have head := delivery_climbs hashing config state delivery key
        (entriesOnly delivery List.mem_cons_self)
      have tail := ih (deliver hashing config state delivery)
        (fun later member => entriesOnly later (List.mem_cons_of_mem _ member))
      rw [appliedAll, sequences_of_append]
      exact climbs_append head tail

/-- A checkpoint leaves the records and every other field alone. -/
theorem checkpoint_only_position (state : NodeState) (request : ReplicationCheckpointRequest) :
    ∃ followerStreams, (installReplicationCheckpoint config state request).1 =
      { state with followerStreams } := by
  rcases checkpoint_cases config state request with same | same | ⟨_, moved⟩
  · exact ⟨state.followerStreams, same⟩
  · exact ⟨_, same⟩
  · exact ⟨_, moved⟩

theorem headless_batch_refused (clock : Clock) (state : NodeState) (entries : List ReplicationEntry)
    (mixed : entries = [] ∨ ∀ key, ∃ entry ∈ entries, entry.stream ≠ key) :
    ∃ status, replicateMutations hashing config clock state entries = (state, .error status) := by
  cases entries with
  | nil => exact ⟨_, rfl⟩
  | cons first rest =>
      rcases mixed with none | mixed
      · exact absurd none (by simp)
      · have headed : ((first :: rest).any fun entry => decide (entry.stream ≠ first.stream)) = true := by
          obtain ⟨entry, member, different⟩ := mixed first.stream
          exact List.any_eq_true.mpr ⟨entry, member, by simp [different]⟩
        unfold replicateMutations
        simp only [headed, ↓reduceIte]
        exact ⟨_, rfl⟩

/-- Follower stream safety over every run of deliveries. -/
theorem follower_stream_safety (hashing : Hashing) (config : NodeConfig) (state : NodeState)
    (deliveries : List Delivery) (key : StreamKey) :
    (state.streamAt key).appliedSequence ≤
        ((deliverAll hashing config state deliveries).streamAt key).appliedSequence ∧
      ((∀ delivery ∈ deliveries, ¬checkpointOf key delivery) →
        sequencesOf key (appliedAll hashing config state deliveries) =
          List.range' ((state.streamAt key).appliedSequence + 1)
            (((deliverAll hashing config state deliveries).streamAt key).appliedSequence -
              (state.streamAt key).appliedSequence)) ∧
      (∀ clock entry, EntryOutcome hashing config clock (deliverAll hashing config state deliveries) entry
        (applyReplicationEntry hashing config clock (deliverAll hashing config state deliveries) entry).1
        (applyReplicationEntry hashing config clock (deliverAll hashing config state deliveries)
          entry).2) ∧
      (∀ clock first rest, (∀ entry ∈ first :: rest, entry.stream = first.stream) →
        BatchOutcome hashing config clock (deliverAll hashing config state deliveries)
          (first :: rest) first.stream
          (replicateMutations hashing config clock (deliverAll hashing config state deliveries)
            (first :: rest)).1
          (replicateMutations hashing config clock (deliverAll hashing config state deliveries)
            (first :: rest)).2) ∧
      (∀ clock entries, (entries = [] ∨ ∀ key, ∃ entry ∈ entries, entry.stream ≠ key) →
        ∃ status, replicateMutations hashing config clock
          (deliverAll hashing config state deliveries) entries =
          (deliverAll hashing config state deliveries, .error status)) ∧
      (∀ request, ∃ followerStreams,
        (installReplicationCheckpoint config (deliverAll hashing config state deliveries) request).1 =
          { deliverAll hashing config state deliveries with followerStreams }) :=
  ⟨run_monotone hashing config deliveries state key, fun entriesOnly =>
    (run_climbs hashing config deliveries state key entriesOnly).2,
    fun clock entry => entry_outcome hashing config clock _ entry,
    fun clock first rest oneStream => batch_outcome hashing config clock _ first rest oneStream,
    fun clock entries mixed => headless_batch_refused hashing config clock _ entries mixed,
    fun request => checkpoint_only_position config _ request⟩

section

def sampleFollower : NodeConfig := { nodeId := "b", processInstanceId := "b-1" }

def sampleEntry (sequence : Nat) (fingerprint : Bytes) : ReplicationEntry where
  topologyEpoch := 1
  ownerNodeId := "a"
  streamSequence := sequence
  key := [byte 107]
  value := [byte 118]
  deleted := false
  version := some ⟨1, sequence, "a"⟩
  mutationId := "m"
  expiresAtUnixMillis := none
  requestFingerprint := fingerprint

/-- A follower at position five, holding one receipt that expired at instant 9. -/
def sampleFollowerState : NodeState :=
  insertDedupUntil Sample.hashing
    { topology := Sample.topology
      followerStreams := AList.insert ⟨1, "a"⟩ { appliedSequence := 5, checkpointSequence := 5 } ∅ }
    "old" [byte 107] (List.replicate 32 (byte 0)) ⟨1, 1, "a"⟩ false 9

def samplePurge (now : Instant) : Operation where
  run state := purgeExpiredDedup Sample.hashing state now
  streams state := by
    obtain ⟨_, _, _, _, _, _, _, _, _, same⟩ := purge_expired_only Sample.hashing state now
    rw [same]
  topology state := by
    obtain ⟨_, _, _, _, _, _, _, _, _, same⟩ := purge_expired_only Sample.hashing state now
    rw [same]

/-- A new entry, a purge, the entry once more, a checkpoint of another stream and the
next entry. -/
def sampleDeliveries : List Delivery :=
  [.entry (Sample.clock 20) (sampleEntry 6 (List.replicate 32 (byte 0))),
    .other (samplePurge 25),
    .entry (Sample.clock 30) (sampleEntry 6 (List.replicate 32 (byte 0))),
    .checkpoint
      { topologyEpoch := 1, ownerNodeId := "c", followerNodeId := "b", streamSequence := 9
        verifiedRanges := [] },
    .batch (Sample.clock 40) [{ sampleEntry 7 (List.replicate 32 (byte 0)) with mutationId := "n" }]]

theorem follower_stream_safety_sample :
    ((deliverAll Sample.hashing sampleFollower sampleFollowerState sampleDeliveries).streamAt
      ⟨1, "a"⟩).appliedSequence = 7 ∧
      sequencesOf ⟨1, "a"⟩ (appliedAll Sample.hashing sampleFollower sampleFollowerState
        sampleDeliveries) = [6, 7] := by
  have reached : ((deliverAll Sample.hashing sampleFollower sampleFollowerState sampleDeliveries).streamAt
      ⟨1, "a"⟩).appliedSequence = 7 := by
    decide +kernel
  have started : (sampleFollowerState.streamAt ⟨1, "a"⟩).appliedSequence = 5 := by decide +kernel
  have applied := (follower_stream_safety Sample.hashing sampleFollower sampleFollowerState
      sampleDeliveries ⟨1, "a"⟩).2.1
    (by simp [sampleDeliveries, checkpointOf])
  rw [reached, started] at applied
  exact ⟨reached, applied⟩

/-- A redelivered batch reports the follower's position rather than the end of
the batch, and a malformed entry drops a receipt that had already expired. -/
theorem redelivery_reports_position :
    (replicateMutations Sample.hashing sampleFollower (Sample.clock 20) sampleFollowerState
        [sampleEntry 1 (List.replicate 32 (byte 0))]).2 = .ok ⟨"b-1", 5⟩ ∧
      (applyReplicationEntry Sample.hashing sampleFollower (Sample.clock 20) sampleFollowerState
        (sampleEntry 6 [])).2 = .error ⟨.invalidArgument, "replication entry fingerprint is invalid"⟩ ∧
      sampleFollowerState.dedup.lookup "old" ≠ none ∧
      (applyReplicationEntry Sample.hashing sampleFollower (Sample.clock 20) sampleFollowerState
        (sampleEntry 6 [])).1.dedup.lookup "old" = none := by
  decide +kernel

end

end Hashring.FollowerStream
