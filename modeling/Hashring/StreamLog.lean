import Hashring.FollowerStream
import Hashring.StreamSender

/-! What a follower knows of one owner's stream, against the log of everything
the owner ever numbered on it. The log is never stored: a queue, a batch and a
follower's position each hold a part of it. -/
namespace Hashring.StreamHealth

section

variable (hashing : Hashing) (ownerConfig followerConfig : NodeConfig) (topology : TopologySnapshot)

def followed : StreamKey := ⟨topology.epoch, ownerConfig.nodeId⟩

def dispatched : ReplicationStreamKey := ⟨topology.epoch, ownerConfig.nodeId, followerConfig.nodeId⟩

/-- An entry whose checks a follower with this topology passes, unless it finds
the value too large. -/
structure Deliverable (entry : PreparedReplication) : Prop where
  stream : entry.streamKey = dispatched ownerConfig followerConfig topology
  sized : entry.mutation.requestFingerprint.length = 32
  checked : ∀ state : NodeState, state.topology = topology →
    (∃ record, checkReplicationEntry hashing followerConfig state entry.toProto = .ok record ∧
        record.version = entry.mutation.version) ∨
      ∃ status, checkReplicationEntry hashing followerConfig state entry.toProto = .error status ∧
        status.code = .resourceExhausted

/-- Everything the owner numbered on the stream, in order; `bound` is the last
owner sequence it assigned. -/
structure Logged (log : List PreparedReplication) (bound : Nat) : Prop where
  numbered : ∀ (index : Nat) (entry : PreparedReplication), log[index]? = some entry →
    entry.streamSequence = index + 1
  deliverable : ∀ entry ∈ log, Deliverable hashing ownerConfig followerConfig topology entry
  rising : ∀ (index later : Nat) (early late : PreparedReplication), log[index]? = some early →
    log[later]? = some late → index < later →
      early.mutation.version.ownerSequence < late.mutation.version.ownerSequence
  bounded : ∀ entry ∈ log, entry.mutation.version.ownerSequence ≤ bound

/-- A stream position agrees with the log, and no entry past `limit` was
delivered to it. -/
structure InStep (log : List PreparedReplication) (bound limit : Nat)
    (stream : FollowerStreamState) : Prop where
  reached : stream.appliedSequence ≤ stream.checkpointSequence ∨ stream.appliedSequence ≤ limit
  prints : ∀ sequence known, stream.fingerprints.lookup sequence = some known →
    ∃ (index : Nat) (entry : PreparedReplication), sequence = index + 1 ∧ log[index]? = some entry ∧
      known = replicationFingerprint hashing entry.toProto
  retained : ∀ sequence, stream.checkpointSequence < sequence → sequence ≤ stream.appliedSequence →
    stream.appliedSequence < sequence + maxReplicationFingerprints → sequence ∈ stream.fingerprints
  ahead : ∀ (index : Nat) (entry : PreparedReplication), log[index]? = some entry →
    stream.appliedSequence ≤ index → stream.lastOwnerSequence < entry.mutation.version.ownerSequence
  behind : stream.lastOwnerSequence ≤ bound

structure Follows (log : List PreparedReplication) (bound limit : Nat) (state : NodeState) : Prop where
  installed : state.topology = topology
  scheduled : ReceiptsScheduled state
  position : InStep hashing log bound limit (state.streamAt (followed ownerConfig topology))

end

def Unclaimed (now : Instant) (state : NodeState) (mutationId : String) : Prop :=
  ∀ receipt, state.dedup.lookup mutationId = some receipt → receipt.expiresAt ≤ now

variable {hashing : Hashing} {ownerConfig followerConfig : NodeConfig} {topology : TopologySnapshot}
  {log : List PreparedReplication} {bound limit : Nat}

theorem Deliverable.followed {entry : PreparedReplication}
    (deliverable : Deliverable hashing ownerConfig followerConfig topology entry) :
    entry.toProto.stream = StreamHealth.followed ownerConfig topology := by
  have stream := deliverable.stream
  simp only [PreparedReplication.streamKey, dispatched, ReplicationStreamKey.mk.injEq] at stream
  simp [ReplicationEntry.stream, PreparedReplication.toProto, StreamHealth.followed, stream]

namespace Logged

theorem weaken (logged : Logged hashing ownerConfig followerConfig topology log bound) {higher : Nat}
    (le : bound ≤ higher) : Logged hashing ownerConfig followerConfig topology log higher :=
  ⟨logged.numbered, logged.deliverable, logged.rising, fun entry member =>
    (logged.bounded entry member).trans le⟩

theorem append (logged : Logged hashing ownerConfig followerConfig topology log bound)
    (entry : PreparedReplication)
    (deliverable : Deliverable hashing ownerConfig followerConfig topology entry)
    (numbered : entry.streamSequence = log.length + 1) {higher : Nat}
    (fresh : bound < entry.mutation.version.ownerSequence)
    (assigned : entry.mutation.version.ownerSequence ≤ higher) :
    Logged hashing ownerConfig followerConfig topology (log ++ [entry]) higher := by
  -- A position is one of the log or the one just added.
  have found : ∀ index other, (log ++ [entry])[index]? = some other →
      log[index]? = some other ∨ index = log.length ∧ other = entry := by
    intro index other stored
    rcases lt_or_ge index log.length with inside | outside
    · rw [List.getElem?_append_left inside] at stored
      exact Or.inl stored
    · rw [List.getElem?_append_right outside] at stored
      have bounds := List.getElem?_eq_some_iff.mp stored
      obtain ⟨small, same⟩ := bounds
      simp only [List.length_singleton] at small
      have first : index - log.length = 0 := by omega
      simp only [first, List.getElem_cons_zero] at same
      exact Or.inr ⟨by omega, same.symm⟩
  constructor
  · intro index other stored
    rcases found index other stored with old | ⟨rfl, rfl⟩
    · exact logged.numbered index other old
    · exact numbered
  · intro other member
    rcases List.mem_append.mp member with old | new
    · exact logged.deliverable other old
    · obtain rfl := List.mem_singleton.mp new
      exact deliverable
  · intro index later early late earlyStored lateStored order
    rcases found index early earlyStored with oldEarly | ⟨rfl, rfl⟩
    · rcases found later late lateStored with oldLate | ⟨rfl, rfl⟩
      · exact logged.rising index later early late oldEarly oldLate order
      · exact lt_of_le_of_lt (logged.bounded early (List.mem_of_getElem? oldEarly)) fresh
    · obtain ⟨inside, _⟩ := List.getElem?_eq_some_iff.mp lateStored
      simp only [List.length_append, List.length_singleton] at inside
      omega
  · intro other member
    rcases List.mem_append.mp member with old | new
    · exact (logged.bounded other old).trans (fresh.le.trans assigned)
    · obtain rfl := List.mem_singleton.mp new
      exact assigned

end Logged

namespace InStep

theorem weaken {stream : FollowerStreamState} (inStep : InStep hashing log bound limit stream)
    {higher further : Nat}
    (le : bound ≤ higher) (reach : limit ≤ further) : InStep hashing log higher further stream :=
  ⟨inStep.reached.imp_right fun short => short.trans reach, inStep.prints, inStep.retained, inStep.ahead,
    inStep.behind.trans le⟩

theorem append {stream : FollowerStreamState} (inStep : InStep hashing log bound limit stream)
    (entry : PreparedReplication) (fresh : bound < entry.mutation.version.ownerSequence) {higher : Nat}
    (le : bound ≤ higher) : InStep hashing (log ++ [entry]) higher limit stream := by
  refine ⟨inStep.reached, ?_, inStep.retained, ?_, inStep.behind.trans le⟩
  · intro sequence known stored
    obtain ⟨index, other, number, found, print⟩ := inStep.prints sequence known stored
    obtain ⟨inside, _⟩ := List.getElem?_eq_some_iff.mp found
    exact ⟨index, other, number, by rw [List.getElem?_append_left inside]; exact found, print⟩
  · intro index other found beyond
    rcases lt_or_ge index log.length with inside | outside
    · rw [List.getElem?_append_left inside] at found
      exact inStep.ahead index other found beyond
    · rw [List.getElem?_append_right outside] at found
      have new := List.mem_singleton.mp (List.mem_of_getElem? found)
      rw [new]
      exact lt_of_le_of_lt inStep.behind fresh

theorem checkpoint {stream : FollowerStreamState} (inStep : InStep hashing log bound limit stream)
    (sequence : Nat) (forward : stream.appliedSequence ≤ sequence) :
    InStep hashing log bound limit
      { stream with appliedSequence := sequence, checkpointSequence := sequence } := by
  refine ⟨Or.inl (le_refl _), inStep.prints, ?_, ?_, inStep.behind⟩
  · intro probe beyond within
    exact absurd (lt_of_lt_of_le beyond within) (lt_irrefl _)
  · intro index entry found beyond
    exact inStep.ahead index entry found (forward.trans beyond)

theorem advance {stream : FollowerStreamState} (inStep : InStep hashing log bound limit stream)
    (logged : Logged hashing ownerConfig followerConfig topology log bound) (entry : PreparedReplication)
    (found : log[stream.appliedSequence]? = some entry) (reach : stream.appliedSequence + 1 ≤ limit) :
    InStep hashing log bound limit
      (advanceStream stream (stream.appliedSequence + 1) entry.mutation.version.ownerSequence
        (replicationFingerprint hashing entry.toProto)) := by
  -- One fingerprint comes, and the one that leaves the window goes.
  have lookups : ∀ sequence, (advanceStream stream (stream.appliedSequence + 1)
      entry.mutation.version.ownerSequence
        (replicationFingerprint hashing entry.toProto)).fingerprints.lookup
        sequence =
      if maxReplicationFingerprints < stream.appliedSequence + 1 ∧
          sequence = stream.appliedSequence + 1 - maxReplicationFingerprints then none
      else if sequence = stream.appliedSequence + 1 then some
        (replicationFingerprint hashing entry.toProto)
      else stream.fingerprints.lookup sequence := by
    intro sequence
    unfold advanceStream
    by_cases full : maxReplicationFingerprints < stream.appliedSequence + 1
    · simp only [full, ↓reduceIte, FiniteMap.lookup_erase_if, FiniteMap.lookup_insert_if, true_and]
    · simp only [full, ↓reduceIte, FiniteMap.lookup_insert_if, false_and]
  constructor
  · exact Or.inr reach
  · intro sequence known stored
    rw [lookups] at stored
    split at stored
    · exact absurd stored (by simp)
    · split at stored
      · rename_i next
        exact ⟨stream.appliedSequence, entry, next, found, (Option.some.inj stored).symm⟩
      · exact inStep.prints sequence known stored
  · intro sequence beyond within window
    simp only [advanceStream] at beyond within window
    rw [FiniteMap.mem_iff_lookup]
    simp only [lookups]
    have kept : ¬(maxReplicationFingerprints < stream.appliedSequence + 1 ∧
        sequence = stream.appliedSequence + 1 - maxReplicationFingerprints) := by
      rintro ⟨full, oldest⟩
      omega
    rw [if_neg kept]
    by_cases next : sequence = stream.appliedSequence + 1
    · exact ⟨_, by rw [if_pos next]⟩
    · rw [if_neg next]
      exact (FiniteMap.mem_iff_lookup _ _).mp (inStep.retained sequence beyond (by omega) (by omega))
  · intro index other stored beyond
    simp only [advanceStream] at beyond ⊢
    exact logged.rising stream.appliedSequence index entry other found stored beyond
  · exact logged.bounded entry (List.mem_of_getElem? found)

end InStep

namespace Follows

theorem weaken {state : NodeState} (follows : Follows hashing ownerConfig topology log bound limit state)
    {higher further : Nat} (le : bound ≤ higher) (reach : limit ≤ further) :
    Follows hashing ownerConfig topology log higher further state :=
  ⟨follows.installed, follows.scheduled, follows.position.weaken le reach⟩

theorem of_same {before after : NodeState}
    (follows : Follows hashing ownerConfig topology log bound limit before)
    (sameTopology : after.topology = before.topology) (scheduled : ReceiptsScheduled after)
    (samePosition : after.streamAt (followed ownerConfig topology) = before.streamAt
      (followed ownerConfig topology)) :
    Follows hashing ownerConfig topology log bound limit after := by
  refine ⟨sameTopology.trans follows.installed, scheduled, ?_⟩
  rw [samePosition]
  exact follows.position

end Follows

structure EntryTaken (hashing : Hashing) (ownerConfig : NodeConfig) (topology : TopologySnapshot)
    (log : List PreparedReplication) (bound limit : Nat) (now : Instant) (index : Nat)
    (entry : PreparedReplication)
    (before after : NodeState) (answer : Except Status Nat) : Prop where
  follows : Follows hashing ownerConfig topology log bound limit after
  forward : (before.streamAt (followed ownerConfig topology)).appliedSequence ≤
    (after.streamAt (followed ownerConfig topology)).appliedSequence
  covers : ∀ sequence, answer = .ok sequence →
    index + 1 ≤ (after.streamAt (followed ownerConfig topology)).appliedSequence
  /-- A refusal that cannot be retried: the entry is next and its mutation ID is
  taken, or its fingerprint has left the window. -/
  refusal : ∀ status, answer = .error status → retryableReplicationStatus status.code = true ∨
    index = (before.streamAt (followed ownerConfig topology)).appliedSequence ∧
      ¬Unclaimed now before entry.mutation.mutationId ∨
    (before.streamAt (followed ownerConfig topology)).checkpointSequence < index + 1 ∧
      index + 1 + maxReplicationFingerprints ≤
        (before.streamAt (followed ownerConfig topology)).appliedSequence

theorem purged_claim {state : NodeState} {key : StreamKey} {now : Instant} {mutationId : String}
    (scheduled : ReceiptsScheduled state)
    (live : mutationId ∈ (purgeExpiredDedup hashing (state.initStream key) now).dedup) :
    ¬Unclaimed now state mutationId := by
  intro unclaimed
  obtain ⟨receipt, stored⟩ := (FiniteMap.mem_iff_lookup _ _).mp live
  rw [lookup_purge_expired hashing (state.initStream key) now scheduled] at stored
  obtain ⟨held, fresh⟩ := Option.filter_eq_some_iff.mp stored
  have expired := unclaimed receipt held
  exact absurd expired (not_le.mpr (by simpa using fresh))

theorem entry_taken (clock : Clock)
    (logged : Logged hashing ownerConfig followerConfig topology log bound) (index : Nat)
    (entry : PreparedReplication) (found : log[index]? = some entry) (reach : index + 1 ≤ limit)
    (state : NodeState) (follows : Follows hashing ownerConfig topology log bound limit state) :
    EntryTaken hashing ownerConfig topology log bound limit clock.now index entry state
      (applyReplicationEntry hashing followerConfig clock state entry.toProto).1
      (applyReplicationEntry hashing followerConfig clock state entry.toProto).2 := by
  have deliverable := logged.deliverable entry (List.mem_of_getElem? found)
  have number : entry.toProto.streamSequence = index + 1 := logged.numbered index entry found
  have here : entry.toProto.stream = followed ownerConfig topology := deliverable.followed
  have met : ∀ key, Follows hashing ownerConfig topology log bound limit (state.initStream key) :=
    fun key =>
    follows.of_same rfl follows.scheduled (NodeState.stream_at_init state key _)
  have same : ∀ key, (state.initStream key).streamAt (followed ownerConfig topology) =
      state.streamAt (followed ownerConfig topology) := fun key => NodeState.stream_at_init state key _
  have purge := purge_expired_only hashing (state.initStream entry.toProto.stream) clock.now
  have purged : Follows hashing ownerConfig topology log bound limit
      (purgeExpiredDedup hashing (state.initStream entry.toProto.stream) clock.now) :=
    (met _).of_same purge.topology (purge_expired_scheduled hashing _ _ follows.scheduled)
      (purge.stream_at _)
  have version : ∀ record, checkReplicationEntry hashing followerConfig state entry.toProto = .ok record →
      record.version = entry.mutation.version := by
    intro record checked
    rcases deliverable.checked state follows.installed with ⟨other, passed, same⟩ | ⟨status, failed, _⟩
    · rw [Except.ok.inj (checked.symm.trans passed)]
      exact same
    · exact absurd (checked.symm.trans failed) (by simp)
  have cases := apply_entry_cases hashing followerConfig clock state entry.toProto
  generalize applyReplicationEntry hashing followerConfig clock state entry.toProto = result at cases
  cases cases with
  | malformed status refused =>
      refine ⟨follows, le_refl _, (fun _ answered => absurd answered (by simp)), ?_⟩
      rintro _ ⟨⟩
      rcases deliverable.checked state follows.installed with ⟨_, passed, _⟩ | ⟨other, failed, code⟩
      · exact absurd (refused.symm.trans passed) (by simp)
      · rw [Except.error.inj (refused.symm.trans failed), code]
        exact Or.inl rfl
  | redelivered record checked old known =>
      refine ⟨met _, le_of_eq (by rw [same]), ?_, fun _ answered => absurd answered (by simp)⟩
      intro _ _
      rw [same, ← here, ← number]
      exact old
  | conflict record checked old differs covered =>
      refine ⟨met _, le_of_eq (by rw [same]), (fun _ answered => absurd answered (by simp)), ?_⟩
      intro _ _
      rw [here, number] at old differs covered
      -- A remembered fingerprint is the entry's own, so it must be forgotten.
      have forgotten : (state.streamAt (followed ownerConfig topology)).fingerprints.lookup
          (index + 1) = none := by
        cases remembered : (state.streamAt (followed ownerConfig topology)).fingerprints.lookup
          (index + 1) with
        | none => rfl
        | some known =>
            obtain ⟨other, logEntry, position, stored, print⟩ := follows.position.prints _ _ remembered
            obtain rfl : index = other := by omega
            obtain rfl := Option.some.inj (found.symm.trans stored)
            exact absurd (remembered.trans (congrArg some print)) differs
      have uncovered : (state.streamAt (followed ownerConfig topology)).checkpointSequence <
          index + 1 := by
        by_contra below
        exact covered (not_lt.mp below) forgotten
      refine Or.inr (Or.inr ⟨uncovered, ?_⟩)
      by_contra window
      obtain ⟨known, stored⟩ := (FiniteMap.mem_iff_lookup _ _).mp
        (follows.position.retained (index + 1) uncovered old (not_le.mp window))
      exact absurd (forgotten.symm.trans stored) (by simp)
  | gap record checked beyond message =>
      refine ⟨met _, le_of_eq (by rw [same]), (fun _ answered => absurd answered (by simp)), ?_⟩
      rintro _ ⟨⟩
      exact Or.inl rfl
  | stale record checked next late =>
      rw [here, number] at next
      rw [here, version record checked] at late
      have ahead := follows.position.ahead index entry found (by omega)
      omega
  | refused record checked next ahead status reason =>
      refine ⟨purged, ?_, (fun _ answered => absurd answered (by simp)), ?_⟩
      · rw [purge.stream_at, same]
      · rintro _ ⟨⟩
        rw [here, number] at next
        rcases reason with ⟨wrong, _⟩ | ⟨live, _⟩ | code
        · exact absurd deliverable.sized wrong
        · exact Or.inr (Or.inl ⟨by omega, purged_claim follows.scheduled live⟩)
        · rw [code]
          exact Or.inl rfl
  | accepted record checked next ahead sized fresh =>
      have next' := next
      rw [here, number] at next'
      have position : index = (state.streamAt (followed ownerConfig topology)).appliedSequence := by omega
      have moved : (acceptEntry hashing clock
          (purgeExpiredDedup hashing (state.initStream entry.toProto.stream) clock.now)
            entry.toProto record).streamAt
            (followed ownerConfig topology) =
          advanceStream (state.streamAt (followed ownerConfig topology))
            ((state.streamAt (followed ownerConfig topology)).appliedSequence + 1)
            entry.mutation.version.ownerSequence (replicationFingerprint hashing entry.toProto) := by
        rw [accept_entry_stream_at, if_pos here.symm, purge.stream_at, here, same,
          version record checked, number,
          position]
      refine ⟨⟨?_, ?_, ?_⟩, ?_, ?_, fun _ answered => absurd answered (by simp)⟩
      · rw [accept_entry_topology, purge.topology]
        exact follows.installed
      · exact accept_entry_scheduled hashing clock _ _ _ purged.scheduled
      · rw [moved]
        exact follows.position.advance logged entry (position ▸ found) (position ▸ reach)
      · rw [moved]
        simp [advanceStream]
      · intro _ _
        rw [moved, position]
        simp [advanceStream]

/-- The entries are sent copies of logged ones, none past `limit`. -/
def FromLog (log : List PreparedReplication) (limit : Nat) (entries : List ReplicationEntry) : Prop :=
  ∀ entry ∈ entries, ∃ (index : Nat) (prepared : PreparedReplication), log[index]? = some prepared ∧
    entry = prepared.toProto ∧ index + 1 ≤ limit

/-- Whenever the batch reaches the entry the follower expects next, the follower
holds no unexpired receipt for it. -/
def Spared (hashing : Hashing) (config : NodeConfig) (clock : Clock) :
    NodeState → List ReplicationEntry → Prop
  | _, [] => True
  | state, entry :: rest =>
      (entry.streamSequence = (state.streamAt entry.stream).appliedSequence + 1 →
        Unclaimed clock.now state entry.mutationId) ∧
      ∀ next sequence, applyReplicationEntry hashing config clock state entry = (next, .ok sequence) →
        Spared hashing config clock next rest

/-- An answer that leaves the stream alive. -/
def Survivable (answer : Except Status Nat) : Prop :=
  ∀ status, answer = .error status → retryableReplicationStatus status.code = true

/-- Whenever the batch reaches the entry the follower expects next, the follower
applies it or asks for a retry. -/
def TurnsSurvive (hashing : Hashing) (config : NodeConfig) (clock : Clock) :
    NodeState → List ReplicationEntry → Prop
  | _, [] => True
  | state, entry :: rest =>
      (entry.streamSequence = (state.streamAt entry.stream).appliedSequence + 1 →
        Survivable (applyReplicationEntry hashing config clock state entry).2) ∧
      ∀ next sequence, applyReplicationEntry hashing config clock state entry = (next, .ok sequence) →
        TurnsSurvive hashing config clock next rest

theorem FromLog.tail {entry : ReplicationEntry} {rest : List ReplicationEntry}
    (sent : FromLog log limit (entry :: rest)) : FromLog log limit rest :=
  fun later member => sent later (List.mem_cons_of_mem _ member)

theorem entries_taken (clock : Clock)
    (logged : Logged hashing ownerConfig followerConfig topology log bound)
    (entries : List ReplicationEntry) (sent : FromLog log limit entries) (state : NodeState)
    (applied : Nat) (follows : Follows hashing ownerConfig topology log bound limit state) :
    Follows hashing ownerConfig topology log bound limit
        (applyReplicationEntries hashing followerConfig clock state applied entries).1 ∧
      (state.streamAt (followed ownerConfig topology)).appliedSequence ≤
        ((applyReplicationEntries hashing followerConfig clock state applied entries).1.streamAt
          (followed ownerConfig topology)).appliedSequence := by
  induction entries generalizing state applied with
  | nil => exact ⟨follows, le_refl _⟩
  | cons entry rest ih =>
      obtain ⟨index, prepared, found, rfl, reach⟩ := sent entry List.mem_cons_self
      have taken := entry_taken clock logged index prepared found reach state follows
      unfold applyReplicationEntries
      rcases step : applyReplicationEntry hashing followerConfig clock state prepared.toProto with
        ⟨next, status | sequence⟩
      · rw [step] at taken
        by_cases counted : 0 < applied
        · simpa [counted] using ⟨taken.follows, taken.forward⟩
        · simpa [counted] using ⟨taken.follows, taken.forward⟩
      · rw [step] at taken
        obtain ⟨later, forward⟩ := ih sent.tail next sequence taken.follows
        exact ⟨later, taken.forward.trans forward⟩

theorem turns_survive (clock : Clock)
    (logged : Logged hashing ownerConfig followerConfig topology log bound)
    (entries : List ReplicationEntry) (sent : FromLog log limit entries) (state : NodeState)
    (follows : Follows hashing ownerConfig topology log bound limit state)
    (spared : Spared hashing followerConfig clock state entries) :
    TurnsSurvive hashing followerConfig clock state entries := by
  induction entries generalizing state with
  | nil => trivial
  | cons entry rest ih =>
      obtain ⟨index, prepared, found, rfl, reach⟩ := sent entry List.mem_cons_self
      have taken := entry_taken clock logged index prepared found reach state follows
      have here := (logged.deliverable prepared (List.mem_of_getElem? found)).followed
      have number : prepared.toProto.streamSequence = index + 1 := logged.numbered index prepared found
      constructor
      · intro next status refused
        rw [here, number] at next
        rcases taken.refusal status refused with retryable | ⟨_, claimed⟩ | ⟨_, window⟩
        · exact retryable
        · exact absurd (spared.1 (by rw [here, number]; exact next)) claimed
        · omega
      · intro next sequence accepted
        rw [accepted] at taken
        exact ih sent.tail next taken.follows (spared.2 next sequence accepted)

theorem batch_taken (clock : Clock)
    (logged : Logged hashing ownerConfig followerConfig topology log bound)
    (entries : List ReplicationEntry) (sent : FromLog log limit entries) (state : NodeState)
    (follows : Follows hashing ownerConfig topology log bound limit state) :
    Follows hashing ownerConfig topology log bound limit
        (replicateMutations hashing followerConfig clock state entries).1 ∧
      (state.streamAt (followed ownerConfig topology)).appliedSequence ≤
        ((replicateMutations hashing followerConfig clock state entries).1.streamAt
          (followed ownerConfig topology)).appliedSequence := by
  unfold replicateMutations
  split
  · exact ⟨follows, le_refl _⟩
  · split
    · exact ⟨follows, le_refl _⟩
    · exact entries_taken clock logged _ sent state 0 follows

/-- The answer to the batch the owner is waiting for: its first entry is within
reach of every position the follower can have. -/
theorem batch_answer (clock : Clock)
    (logged : Logged hashing ownerConfig followerConfig topology log bound) (index : Nat)
    (first : PreparedReplication) (found : log[index]? = some first) (rest : List ReplicationEntry)
    (sent : FromLog log limit (first.toProto :: rest))
    (near : limit ≤ index + replicationBatchMaxEntries) (state : NodeState)
    (follows : Follows hashing ownerConfig topology log bound limit state)
    (spared : Spared hashing followerConfig clock state (first.toProto :: rest)) :
    (∀ status, (replicateMutations hashing followerConfig clock state (first.toProto :: rest)).2 =
      .error status →
        retryableReplicationStatus status.code = true) ∧
      ∀ response, (replicateMutations hashing followerConfig clock state (first.toProto :: rest)).2
        = .ok response →
        response.processInstanceId = followerConfig.processInstanceId ∧
          index + 1 ≤ response.appliedStreamSequence ∧
          response.appliedStreamSequence =
            ((replicateMutations hashing followerConfig clock state (first.toProto :: rest)).1.streamAt
              (followed ownerConfig topology)).appliedSequence := by
  have streams : ∀ entry ∈ first.toProto :: rest, entry.stream = first.toProto.stream := by
    intro entry member
    obtain ⟨_, prepared, stored, rfl, _⟩ := sent entry member
    rw [(logged.deliverable prepared (List.mem_of_getElem? stored)).followed,
      (logged.deliverable first (List.mem_of_getElem? found)).followed]
  have here := (logged.deliverable first (List.mem_of_getElem? found)).followed
  have number : first.toProto.streamSequence = index + 1 := logged.numbered index first found
  obtain ⟨other, _, stored, copied, reach⟩ := sent first.toProto List.mem_cons_self
  have sameIndex : other = index := by
    have again := logged.numbered other _ stored
    have both := congrArg ReplicationEntry.streamSequence copied
    simp only [PreparedReplication.toProto] at both number
    omega
  subst other
  have taken := entry_taken clock logged index first found reach state follows
  -- The batch divides where the follower stopped; before its first entry only a refusal
  -- of that entry can stop it.
  obtain ⟨accepted, left, middle, split, run, stop, answer⟩ :=
    (FollowerStream.batch_outcome hashing followerConfig clock state first.toProto rest streams).splits
  cases accepted with
  | nil =>
      cases run
      rcases stop with ⟨empty, _⟩ | ⟨entry, tail, status, listed, refused, _, answered⟩
      · rw [empty] at split
        exact absurd split (by simp)
      · rw [listed, List.nil_append] at split
        obtain ⟨rfl, rfl⟩ := List.cons.inj split
        rw [answered rfl]
        refine ⟨?_, fun _ impossible => absurd impossible (by simp)⟩
        rintro _ ⟨⟩
        rcases taken.refusal status (by rw [refused]) with retryable | ⟨turn, claimed⟩ |
          ⟨uncovered, window⟩
        · exact retryable
        · exact absurd (spared.1 (by rw [here, number, turn])) claimed
        · have reached := follows.position.reached
          simp only [replicationBatchMaxEntries, maxReplicationFingerprints] at near window
          omega
  | cons head tail =>
      rw [answer (by simp)]
      refine ⟨(fun _ impossible => absurd impossible (by simp)), ?_⟩
      rintro _ ⟨⟩
      rw [here]
      refine ⟨rfl, ?_, rfl⟩
      obtain ⟨rfl, tailSplit⟩ := List.cons.inj split
      cases run with
      | next step _ =>
          rename_i next sequence _
          rw [step] at taken
          have covered := taken.covers sequence rfl
          have later := (entries_taken clock logged rest sent.tail next sequence taken.follows).2
          have unfolded : (replicateMutations hashing followerConfig clock state
              (first.toProto :: rest)).1 =
              (applyReplicationEntries hashing followerConfig clock next sequence rest).1 := by
            have single : ((first.toProto :: rest).any fun entry =>
                decide (entry.stream ≠ first.toProto.stream)) = false := by
              rw [List.any_eq_false]
              intro entry member
              simp [streams entry member]
            unfold replicateMutations
            simp only [single, Bool.false_eq_true, ↓reduceIte, applyReplicationEntries, step]
          rw [unfolded]
          exact covered.trans later

end Hashring.StreamHealth
