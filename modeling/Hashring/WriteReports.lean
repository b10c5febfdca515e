import Hashring.ClientRetry
import Hashring.TopologyPlan

/-! What a mutation's caller is told, against what its attempts came back with. -/
namespace Hashring

open Program

def ClientError.outcome : ClientError → Option MutationOutcome
  | .topologyRefresh _ outcome | .deadlineExceeded outcome | .rpc _ _ outcome => some outcome
  | .operation failure => some failure.outcome
  | .topology _ | .missingVersion => none

/-- One request of a call that reached the wire. -/
structure Attempt where
  answer : Answer
  /-- The write was made by this request, or will be. -/
  applied : Bool
  deriving DecidableEq

namespace Attempt

def mayHaveApplied (attempt : Attempt) : Bool :=
  match attempt.answer with
  | none => true
  | some (.error status) => statusMayHaveApplied status
  | some (.ok response) => response.error.any operationMayHaveApplied

/-- The node says it made the write. -/
def accepted (attempt : Attempt) : Bool :=
  match attempt.answer with
  | some (.ok response) => response.error.isNone && !response.conditionFailed && !response.keyMissing
  | _ => false

/-- A node that made the write says so, or leaves it open. -/
def Truthful (attempt : Attempt) : Prop := attempt.applied = true → attempt.mayHaveApplied = true ∨
    attempt.accepted = true

def unversioned (attempt : Attempt) : Bool :=
  attempt.accepted && match attempt.answer with
    | some (.ok response) => response.version.isNone
    | _ => false

end Attempt

/-- A client during one call: what its tasks share, and the attempts of this call. -/
structure ClientRun where
  inner : ClientInner
  attempts : List Attempt

namespace ClientRun

variable (hashing : Hashing) (digestOf : TopologySnapshot → String)

def Valid (run : ClientRun) : Prop := run.inner.topology.validate hashing digestOf = .ok ()

def Logged (run : ClientRun) (answer : Answer) (after : ClientRun) : Prop :=
  ∃ attempt : Attempt, attempt.answer = answer ∧ attempt.Truthful ∧
    after = { run with attempts := run.attempts ++ [attempt] }

/-- Clocks, networks and nodes answer anything; a fetched topology was validated
when it was decoded, and a delete is never answered with a missing key. -/
def Handles {γ : Type} : ClientEffect γ → ClientRun → γ → ClientRun → Prop
  | .now, run, _, after => after = run
  | .random, run, _, after => after = run
  | .sleep _, run, _, after => after = run
  | .shared access, run, answer, after =>
      answer = (access run.inner).1 ∧ after = { run with inner := (access run.inner).2 }
  | .lockRefresh _, run, answer, after =>
      if answer then run.inner.refreshLocked = false ∧
        after = { run with inner := { run.inner with refreshLocked := true } }
      else after = run
  | .fetchTopology _, run, answer, after =>
      (∀ topology, answer = some (.ok topology) → topology.validate hashing digestOf = .ok ()) ∧
        after = run
  | .connect _ _, run, _, after => after = run
  | .put _ _ _, run, answer, after => run.Logged answer after
  | .delete _ _ _, run, answer, after =>
      run.Logged answer after ∧ ∀ response, answer = some (.ok response) → response.keyMissing = false

/-- A part of the call that sends no write. -/
def Silent {α : Type} (task : ClientTask α) (good : α → Prop) (fails : ClientError → Prop) : Prop :=
  Quiet (Handles hashing digestOf) (Valid hashing digestOf) attempts task good fails

variable {hashing digestOf} {α : Type} {good : α → Prop} {fails : ClientError → Prop}

theorem silent_shared {access : ClientInner → α × ClientInner}
    (kept : ∀ inner : ClientInner, inner.topology.validate hashing digestOf = .ok () →
      (access inner).2.topology.validate hashing digestOf = .ok () ∧ good (access inner).1) :
    Silent hashing digestOf (request (.shared access)) good fails := by
  apply quiet_silent
  rintro run valid answer after ⟨rfl, rfl⟩
  exact ⟨(kept run.inner valid).1, rfl, (kept run.inner valid).2⟩

theorem silent_now : Silent hashing digestOf (request .now) (fun _ => True) fails := by
  apply quiet_silent
  rintro run valid answer after rfl
  exact ⟨valid, rfl, trivial⟩

theorem silent_random : Silent hashing digestOf (request .random) (fun _ => True) fails := by
  apply quiet_silent
  rintro run valid answer after rfl
  exact ⟨valid, rfl, trivial⟩

theorem silent_sleep (duration : Nat) : Silent hashing digestOf (request (.sleep duration))
    (fun _ => True) fails := by
  apply quiet_silent
  rintro run valid answer after rfl
  exact ⟨valid, rfl, trivial⟩

theorem silent_connect (endpoint : String) (timeout : Nat) :
    Silent hashing digestOf (request (.connect endpoint timeout)) (fun _ => True) fails := by
  apply quiet_silent
  rintro run valid answer after rfl
  exact ⟨valid, rfl, trivial⟩

theorem silent_lock_refresh (timeout : Nat) :
    Silent hashing digestOf (request (.lockRefresh timeout)) (fun _ => True) fails := by
  apply quiet_silent
  intro run valid answer after handled
  cases answer with
  | false =>
      obtain rfl : after = run := handled
      exact ⟨valid, rfl, trivial⟩
  | true =>
      obtain ⟨-, rfl⟩ : run.inner.refreshLocked = false ∧
        after = { run with inner := { run.inner with refreshLocked := true } } := handled
      exact ⟨valid, rfl, trivial⟩

theorem silent_fetch (timeout : Nat) :
    Silent hashing digestOf (request (.fetchTopology timeout))
      (fun answer => ∀ topology, answer = some (.ok topology) → topology.validate hashing digestOf =
        .ok ()) fails := by
  apply quiet_silent
  rintro run valid answer after ⟨decoded, rfl⟩
  exact ⟨valid, rfl, decoded⟩

theorem silent_cache {topology : TopologySnapshot} (valid : topology.validate hashing digestOf = .ok ()) :
    Silent hashing digestOf (request (.shared (cacheTopology topology))) (fun _ => True) fails := by
  apply silent_shared
  intro inner cached
  unfold cacheTopology
  simp only
  split
  · exact ⟨valid, trivial⟩
  · split
    · exact ⟨cached, trivial⟩
    · exact ⟨cached, trivial⟩

theorem silent_cached :
    Silent hashing digestOf cachedTopology (fun topology => topology.validate hashing digestOf =
      .ok ()) fails :=
  silent_shared fun _ cached => ⟨cached, cached⟩

/-! Every error on the way to the next attempt carries the ambiguity so far. -/

def Says (unknownWriteOutcome : Bool) (error : ClientError) : Prop :=
  error.outcome = some (.ofUnknown unknownWriteOutcome)

variable {unknownWriteOutcome : Bool}

theorem silent_remaining (deadline : Instant) :
    Silent hashing digestOf (remaining deadline unknownWriteOutcome) (fun _ => True)
      (Says unknownWriteOutcome) := by
  refine quiet_bind silent_now fun now _ => ?_
  split
  · exact quiet_pure trivial
  · exact quiet_throw rfl

theorem silent_record_retry (reason : RetryReason) : Silent hashing digestOf (recordRetry reason)
    (fun _ => True) fails :=
  silent_shared fun _ cached => ⟨cached, trivial⟩

theorem silent_retry_delay_with_hint (deadline : Instant) (attempt minimumDelay : Nat) :
    Silent hashing digestOf (retryDelayWithHint deadline attempt unknownWriteOutcome minimumDelay)
      (fun _ => True)
      (Says unknownWriteOutcome) := by
  refine quiet_bind silent_random fun jitter _ => quiet_bind (silent_remaining deadline)
    fun available _ => ?_
  split
  · exact quiet_bind (silent_sleep _) fun _ _ => quiet_throw rfl
  · exact quiet_bind (silent_sleep _) fun _ _ => quiet_pure trivial

theorem silent_retry_delay (deadline : Instant) (attempt : Nat) (reason : RetryReason) :
    Silent hashing digestOf (retryDelay deadline attempt unknownWriteOutcome reason) (fun _ => True)
      (Says unknownWriteOutcome) :=
  quiet_bind (silent_record_retry reason) fun _ _ => silent_retry_delay_with_hint deadline attempt 0

theorem silent_under_refresh_lock {deadline : Instant} {body : ClientTask α}
    (silent : Silent hashing digestOf body good (Says unknownWriteOutcome)) :
    Silent hashing digestOf (underRefreshLock deadline unknownWriteOutcome body) good
      (Says unknownWriteOutcome) := by
  refine quiet_bind (silent_remaining deadline) fun available _ =>
    quiet_bind (silent_lock_refresh available) fun locked _ => ?_
  split
  · refine quiet_bind (quiet_attempt silent) fun result ended => ?_
    have unlocked : Silent hashing digestOf
        (request (.shared fun inner : ClientInner => ((), { inner with refreshLocked := false })))
          (fun _ => True)
        (Says unknownWriteOutcome) :=
      silent_shared fun _ cached => ⟨cached, trivial⟩
    refine quiet_bind unlocked fun _ _ => ?_
    split
    · exact quiet_pure (ended.1 _ rfl)
    · exact quiet_throw (ended.2 _ rfl)
  · exact quiet_throw rfl

variable {client : HashringClient}

theorem silent_fetch_round (deadline : Instant) (minimumEpoch : Option Nat) (attempt : Nat) :
    Silent hashing digestOf (client.fetchRound deadline unknownWriteOutcome minimumEpoch attempt)
      (fun _ => True)
      (Says unknownWriteOutcome) := by
  have again : Silent hashing digestOf
      (do return .inl (← retryDelay deadline attempt unknownWriteOutcome .topologyRefresh) :
        ClientTask (Nat ⊕ TopologySnapshot)) (fun _ => True) (Says unknownWriteOutcome) :=
    quiet_bind (silent_retry_delay deadline attempt _) fun _ _ => quiet_pure trivial
  refine quiet_bind (silent_remaining deadline) fun available _ =>
    quiet_bind (silent_fetch available) fun fetched decoded => ?_
  rcases fetched with _ | error | topology
  · exact quiet_throw rfl
  · simp only
    split
    · exact again
    · exact quiet_throw rfl
  · refine quiet_bind (silent_cache (decoded topology rfl)) fun installed _ => ?_
    rcases installed with error | current
    · exact quiet_throw rfl
    · simp only
      split
      · exact quiet_pure trivial
      · exact again

theorem silent_refresh_topology_for_inner (timeout : Nat) (minimumEpoch : Option Nat) :
    Silent hashing digestOf (client.refreshTopologyForInner timeout unknownWriteOutcome
      minimumEpoch) (fun _ => True)
      (Says unknownWriteOutcome) := by
  have cached : Silent hashing digestOf cachedTopology (fun _ => True) (Says unknownWriteOutcome) :=
    quiet_weaken (fun _ _ => trivial) (fun _ => id) silent_cached
  refine quiet_bind silent_now fun now _ => quiet_bind cached fun before _ => ?_
  split
  · exact cached
  · refine silent_under_refresh_lock (quiet_bind cached fun meanwhile _ => ?_)
    split
    · exact cached
    · exact quiet_loop fun attempt => silent_fetch_round _ minimumEpoch attempt

theorem silent_refresh_topology_before (deadline : Instant) (minimumEpoch : Option Nat) :
    Silent hashing digestOf (client.refreshTopologyBefore deadline unknownWriteOutcome minimumEpoch)
      (fun _ => True)
      (Says unknownWriteOutcome) :=
  quiet_bind (silent_remaining deadline) fun available _ =>
    silent_refresh_topology_for_inner available minimumEpoch

theorem silent_generation : Silent hashing digestOf
    (request (.shared fun inner : ClientInner => (inner.refreshGeneration, inner)))
    (fun _ => True) fails :=
  silent_shared fun _ cached => ⟨cached, trivial⟩

theorem silent_refresh_after_unavailable (observedEpoch : Nat) (deadline : Instant) :
    Silent hashing digestOf (client.refreshAfterUnavailable observedEpoch deadline
      unknownWriteOutcome) (fun _ => True)
      (Says unknownWriteOutcome) := by
  refine quiet_bind silent_cached fun before _ => ?_
  split
  · exact quiet_pure trivial
  · refine quiet_bind silent_generation fun generation _ => silent_under_refresh_lock ?_
    refine quiet_bind silent_cached fun meanwhile _ => quiet_bind silent_generation fun current _ => ?_
    split
    · exact quiet_pure trivial
    · refine quiet_bind (silent_remaining deadline) fun available _ =>
        quiet_bind (silent_fetch available) fun fetched decoded => ?_
      rcases fetched with _ | error | topology
      · exact quiet_throw rfl
      · exact quiet_pure trivial
      · refine quiet_bind (silent_cache (decoded topology rfl)) fun installed _ => ?_
        rcases installed with error | current
        · exact quiet_throw rfl
        · exact quiet_pure trivial

theorem silent_data_node_client (endpoint : String) (deadline : Instant) :
    Silent hashing digestOf (client.dataNodeClient endpoint deadline) (fun _ => True)
      (fun _ => True) := by
  have anyError : ∀ error, Says false error → True := fun _ _ => trivial
  have known : Silent hashing digestOf
      (request (.shared fun inner : ClientInner => (inner.channels.contains endpoint, inner)))
        (fun _ => True) (fun _ => True) :=
    silent_shared fun _ cached => ⟨cached, trivial⟩
  refine quiet_bind known fun found _ => ?_
  split
  · exact quiet_pure trivial
  · split
    · exact quiet_throw trivial
    · refine quiet_bind (quiet_weaken (fun _ => id) anyError (silent_remaining deadline))
          fun available _ =>
        quiet_bind (silent_connect endpoint available) fun connected _ => ?_
      rcases connected with _ | error | _
      · exact quiet_throw trivial
      · exact quiet_throw trivial
      · exact silent_shared fun _ cached => ⟨cached, trivial⟩

theorem silent_retry_code (reason : RetryReason) (error : OperationError) (attemptedEpoch : Nat)
    (deadline : Instant) (attempt : Nat) :
    Silent hashing digestOf (client.retryCode reason error attemptedEpoch deadline attempt
      unknownWriteOutcome)
      (fun _ => True) (Says unknownWriteOutcome) := by
  have caughtUp : Silent hashing digestOf
      (client.refreshWhenBehind attemptedEpoch error.currentEpoch deadline unknownWriteOutcome)
        (fun _ => True)
      (Says unknownWriteOutcome) := by
    unfold HashringClient.refreshWhenBehind
    split
    · exact quiet_bind (silent_refresh_topology_before deadline _) fun _ _ => quiet_pure trivial
    · exact quiet_pure trivial
  refine quiet_bind caughtUp fun _ _ => quiet_bind (silent_record_retry reason) fun _ _ => ?_
  exact quiet_bind (silent_retry_delay_with_hint deadline attempt _) fun _ _ => quiet_pure trivial

theorem silent_handle_retryable (error : OperationError) (attemptedEpoch : Nat) (deadline : Instant)
    (attempt : Nat) :
    Silent hashing digestOf (client.handleRetryable error attemptedEpoch deadline attempt
      unknownWriteOutcome)
      (fun _ => True) (Says unknownWriteOutcome) := by
  unfold HashringClient.handleRetryable
  split
  · exact quiet_bind (silent_refresh_topology_before deadline _) fun _ _ =>
      quiet_bind (silent_retry_delay deadline attempt _) fun _ _ => quiet_pure trivial
  · exact quiet_bind (silent_refresh_after_unavailable attemptedEpoch deadline) fun _ _ =>
      quiet_bind (silent_retry_delay deadline attempt _) fun _ _ => quiet_pure trivial
  · exact silent_retry_code _ error attemptedEpoch deadline attempt
  · exact silent_retry_code _ error attemptedEpoch deadline attempt
  · exact silent_retry_code _ error attemptedEpoch deadline attempt
  · exact silent_retry_code _ error attemptedEpoch deadline attempt
  · exact silent_retry_code _ error attemptedEpoch deadline attempt
  · exact quiet_bind (silent_refresh_topology_before deadline _) fun _ _ =>
      quiet_bind (silent_retry_delay deadline attempt _) fun _ _ => quiet_pure trivial
  · exact quiet_pure trivial

/-- A key always has an owner under a validated topology. -/
theorem silent_route (key : Bytes) :
    Silent hashing digestOf (client.route key) (fun _ => True) (fun _ => False) := by
  refine quiet_bind silent_cached fun topology valid => ?_
  obtain ⟨owner, -, routed, -⟩ :=
    (TopologySnapshot.validate_sound valid).owner_for_token (topology.keyToken client.hashing key)
  rw [routed]
  exact quiet_pure trivial

/-! The attempts so far are what the loop has made of them. -/

/-- Before another attempt: no node has accepted the write yet, and the flag says
whether an attempt may have been applied. -/
structure Going (unknown : Bool) (log : List Attempt) : Prop where
  unknown : unknown = log.any Attempt.mayHaveApplied
  open_ : ∀ attempt ∈ log, attempt.accepted = false
  truthful : ∀ attempt ∈ log, attempt.Truthful

theorem going_start : Going false [] := ⟨rfl, by simp, by simp⟩

theorem Going.snoc {unknown : Bool} {log : List Attempt} (going : Going unknown log) {attempt : Attempt}
    (truthful : attempt.Truthful) (open_ : attempt.accepted = false) :
    Going (unknown || attempt.mayHaveApplied) (log ++ [attempt]) := by
  refine ⟨?_, ?_, ?_⟩
  · rw [going.unknown, List.any_append]
    simp
  · intro other member
    rcases List.mem_append.mp member with old | new
    · exact going.open_ other old
    · exact List.mem_singleton.mp new ▸ open_
  · intro other member
    rcases List.mem_append.mp member with old | new
    · exact going.truthful other old
    · exact List.mem_singleton.mp new ▸ truthful

theorem Going.untouched {log : List Attempt} (going : Going false log) :
    ∀ attempt ∈ log, attempt.applied = false := by
  intro attempt member
  by_contra applied
  rcases going.truthful attempt member (by simpa using applied) with ambiguous | accepted
  · exact absurd (going.unknown.trans (List.any_eq_true.mpr ⟨attempt, member, ambiguous⟩)) (by simp)
  · exact absurd accepted (by simp [going.open_ attempt member])

variable {ρ : Type} (rejection : ρ → Prop)

/-- The caller is told that the write was not made. -/
def ToldNotApplied : Except ClientError ρ → Prop
  | .error error => error.outcome = some .knownNotApplied
  | .ok result => rejection result

/-- The caller is told that the write was made, or may have been. -/
def ToldMayHaveApplied : Except ClientError ρ → Prop
  | .error error => error.outcome = some .mayHaveApplied
  | .ok result => ¬rejection result

/-- The report agrees with the attempts: no failure hides an ambiguous one, and
what is reported as not applied was not. -/
def Reported (log : List Attempt) (result : Except ClientError ρ) : Prop :=
  ((∃ attempt ∈ log, attempt.mayHaveApplied = true) → ToldMayHaveApplied rejection result) ∧
    (ToldNotApplied rejection result → ∀ attempt ∈ log, attempt.applied = false)

/-- An acceptance without a version came after an ambiguous attempt. -/
def Blinded (log : List Attempt) : Prop :=
  ∃ earlier last, log = earlier ++ [last] ∧ (∃ attempt ∈ earlier, attempt.mayHaveApplied = true) ∧
    last.unversioned = true

variable {rejection} {unknown : Bool} {log : List Attempt}

theorem Going.not_blinded (going : Going unknown log) : ¬Blinded log := by
  rintro ⟨earlier, last, rfl, -, unversioned⟩
  have accepted := (Bool.and_eq_true_iff.mp unversioned).1
  rw [going.open_ last (by simp)] at accepted
  exact absurd accepted (by simp)

theorem Going.report {error : ClientError} (going : Going unknown log) (carries : Says unknown error) :
    Reported rejection log (.error error) ↔ ¬Blinded log := by
  refine iff_of_true ⟨?_, ?_⟩ going.not_blinded
  · intro ambiguous
    have flagged : unknown = true := going.unknown.trans (List.any_eq_true.mpr ambiguous)
    rw [flagged] at carries
    exact carries
  · intro told
    cases unknown with
    | false => exact going.untouched
    | true => exact absurd (carries.symm.trans told) (by simp [MutationOutcome.ofUnknown])

variable (hashing digestOf rejection)

/-- What the loop needs to know of the mutation it makes. -/
structure Lawful (write : HashringClient.RecordWrite ρ) : Prop where
  sends : ∀ epoch endpoint timeout run answer after,
    Handles hashing digestOf (write.send epoch endpoint timeout) run answer after →
    run.Logged answer after ∧ ∀ response, answer = some (.ok response) →
      ((write.rejected response).isSome = (response.conditionFailed || response.keyMissing))
  rejects : ∀ response result, write.rejected response = some result → rejection result
  applies : ∀ version epoch, ¬rejection (write.applied version epoch)

variable {hashing digestOf rejection}

variable (rejection) in
/-- How a turn of the loop may end. -/
def Turned : Except ClientError (HashringClient.Progress ⊕ ρ) → List Attempt → Prop
  | .ok (.inl again), log => Going again.2 log
  | .ok (.inr result), log => Reported rejection log (.ok result) ↔ ¬Blinded log
  | .error error, log => Reported rejection log (.error error) ↔ ¬Blinded log

variable (hashing digestOf rejection) in
/-- A part of a turn, from a point where the attempts so far came to `unknown`. -/
def Turns (unknown : Bool) (turn : ClientTask (HashringClient.Progress ⊕ ρ)) : Prop :=
  Meets (Handles hashing digestOf) (Valid hashing digestOf) attempts (Going unknown) turn
    (Turned rejection)

theorem turns_after {task : ClientTask α} {rest : α → ClientTask (HashringClient.Progress ⊕ ρ)}
    (silent : Silent hashing digestOf task good (Says unknown))
    (second : ∀ value, good value → Turns hashing digestOf rejection unknown (rest value)) :
    Turns hashing digestOf rejection unknown (task >>= rest) :=
  meets_quiet_bind silent (fun _ _ going carries => going.report carries) second

theorem turns_throw {error : ClientError} (carries : Says unknown error) :
    Turns hashing digestOf rejection unknown (throw error) :=
  meets_throw fun _ going => going.report carries

theorem turns_again (attempt : Nat) :
    Turns hashing digestOf rejection unknown (pure (.inl (attempt, unknown))) :=
  meets_pure fun _ going => going

theorem turns_delayed (deadline : Instant) (attempt : Nat) (reason : RetryReason) :
    Turns hashing digestOf rejection unknown
      (do return .inl (← retryDelay deadline attempt unknown reason, unknown)) :=
  turns_after (silent_retry_delay deadline attempt reason) fun _ _ => turns_again _

theorem turns_after_status (status : Status) (epoch : Nat) (deadline : Instant)
    (progress : HashringClient.Progress)
    (same : unknown = (progress.2 || statusMayHaveApplied status)) :
    Turns hashing digestOf rejection unknown (client.afterStatus status epoch deadline progress) := by
  subst same
  unfold HashringClient.afterStatus
  simp only
  split
  · exact turns_after (silent_refresh_after_unavailable epoch deadline) fun _ _ =>
      turns_delayed deadline _ _
  · exact turns_throw rfl

theorem turns_after_error (error : OperationError) (epoch : Nat) (deadline : Instant)
    (progress : HashringClient.Progress)
    (same : unknown = (progress.2 || operationMayHaveApplied error)) :
    Turns hashing digestOf rejection unknown (client.afterError error epoch deadline progress) := by
  subst same
  refine turns_after (silent_handle_retryable error epoch deadline _) fun next _ => ?_
  cases next with
  | some attempt => exact turns_again attempt
  | none => exact turns_throw rfl

def Answered (unknown : Bool) (response : WriteResponse) (log : List Attempt) : Prop :=
  ∃ earlier attempt, log = earlier ++ [attempt] ∧ Going unknown earlier ∧ attempt.Truthful ∧
    attempt.answer = some (.ok response)

variable {write : HashringClient.RecordWrite ρ} {response : WriteResponse}

theorem blinded_snoc {earlier : List Attempt} {last : Attempt} :
    Blinded (earlier ++ [last]) ↔ (∃ attempt ∈ earlier, attempt.mayHaveApplied = true) ∧
      last.unversioned = true := by
  constructor
  · rintro ⟨before, end_, same, ambiguous, unversioned⟩
    obtain ⟨rfl, rfl⟩ := List.concat_inj.mp (by simpa using same)
    exact ⟨ambiguous, unversioned⟩
  · rintro ⟨ambiguous, unversioned⟩
    exact ⟨earlier, last, rfl, ambiguous, unversioned⟩

theorem going_refused (sound : response.error = none)
    (refused : (response.conditionFailed || response.keyMissing) = true)
    (answered : Answered unknown response log) : Going unknown log := by
  obtain ⟨earlier, attempt, rfl, going, truthful, answer⟩ := answered
  have settled : attempt.mayHaveApplied = false := by simp [Attempt.mayHaveApplied, answer, sound]
  have refusal : attempt.accepted = false := by
    simp only [Attempt.accepted, answer, sound]
    revert refused
    cases response.conditionFailed <;> cases response.keyMissing <;> simp
  have next := going.snoc truthful refusal
  rwa [settled, Bool.or_false] at next

/-- Telling the background refresh of an epoch sends no write. -/
theorem silent_note_epoch (epoch currentEpoch : Nat) :
    Silent hashing digestOf (HashringClient.noteEpoch epoch currentEpoch) (fun _ => True)
      (fun _ => False) := by
  have touched : ∀ {γ : Type} (access : ClientInner → γ × ClientInner),
      (∀ inner, (access inner).2.topology = inner.topology) →
      Silent hashing digestOf (request (.shared access)) (fun _ => True) (fun _ => False) :=
    fun access same => silent_shared fun inner cached => ⟨by rw [same]; exact cached, trivial⟩
  unfold HashringClient.noteEpoch HashringClient.triggerBackgroundRefresh
  split
  · refine quiet_bind (touched _ fun _ => rfl) fun _ _ => quiet_bind (touched _ fun _ => rfl)
      fun _ _ => ?_
    exact quiet_bind (touched _ fun _ => rfl) fun _ _ => quiet_pure trivial
  · exact quiet_pure trivial

theorem meets_after_response (lawful : Lawful hashing digestOf rejection write)
    (sound : response.error = none)
    (refusal : (write.rejected response).isSome = (response.conditionFailed || response.keyMissing))
    (epoch : Nat) (progress : HashringClient.Progress) :
    Meets (Handles hashing digestOf) (Valid hashing digestOf) attempts (Answered progress.2 response)
      (HashringClient.afterResponse write response epoch progress) (Turned rejection) := by
  refine meets_quiet_bind (silent_note_epoch epoch response.currentEpoch)
    (fun _ _ _ impossible => impossible.elim)
    fun _ _ => ?_
  cases rejected : write.rejected response with
  | some result =>
      have refused : (response.conditionFailed || response.keyMissing) = true :=
        by rw [← refusal, rejected]; rfl
      simp only
      cases flag : progress.2 with
      | true => exact meets_throw fun log answered => (going_refused sound refused answered).report rfl
      | false =>
          refine meets_pure fun log answered => ?_
          have going := going_refused sound refused answered
          refine iff_of_true ⟨?_, fun _ => going.untouched⟩ going.not_blinded
          intro ambiguous
          exact absurd (going.unknown.trans (List.any_eq_true.mpr ambiguous)) (by simp)
  | none =>
      have allowed : (response.conditionFailed || response.keyMissing) = false :=
        by rw [← refusal, rejected]; rfl
      obtain ⟨holding, present⟩ := Bool.or_eq_false_iff.mp allowed
      cases versioned : response.version with
      | some version =>
          refine meets_pure fun log answered => ?_
          obtain ⟨earlier, attempt, rfl, going, truthful, answer⟩ := answered
          refine iff_of_true ⟨fun _ => lawful.applies _ _, fun told =>
            absurd told (lawful.applies _ _)⟩ ?_
          rw [blinded_snoc]
          rintro ⟨-, unversioned⟩
          simp [Attempt.unversioned, answer, versioned] at unversioned
      | none =>
          -- A missing version is reported without an outcome; this is what blinds the caller.
          refine meets_throw fun log answered => ?_
          obtain ⟨earlier, attempt, rfl, going, truthful, answer⟩ := answered
          have settled : attempt.mayHaveApplied = false := by simp [Attempt.mayHaveApplied, answer, sound]
          have bare : attempt.unversioned = true := by
            simp [Attempt.unversioned, Attempt.accepted, answer, sound, holding, present, versioned]
          rw [Turned, blinded_snoc]
          constructor
          · rintro ⟨told, -⟩ ⟨⟨other, member, ambiguous⟩, -⟩
            exact absurd (told ⟨other, List.mem_append_left _ member, ambiguous⟩)
              (by simp [ToldMayHaveApplied, ClientError.outcome])
          · intro clear
            refine ⟨?_, fun told => absurd told (by simp [ToldNotApplied, ClientError.outcome])⟩
            rintro ⟨other, member, ambiguous⟩
            rcases List.mem_append.mp member with old | new
            · exact absurd ⟨⟨other, old, ambiguous⟩, bare⟩ clear
            · rw [List.mem_singleton.mp new, settled] at ambiguous
              exact absurd ambiguous (by simp)

theorem meets_send (lawful : Lawful hashing digestOf rejection write) (epoch : Nat)
    (endpoint : String) (timeout : Nat) :
    Meets (Handles hashing digestOf) (Valid hashing digestOf) attempts (Going unknown)
      (request (write.send epoch endpoint timeout)) fun
        | .ok answer, log => ∃ earlier attempt, log = earlier ++ [attempt] ∧ Going unknown earlier ∧
          attempt.Truthful ∧
            attempt.answer = answer ∧ ∀ response, answer = some (.ok response) →
              (write.rejected response).isSome = (response.conditionFailed || response.keyMissing)
        | .error _, _ => False := by
  apply meets_perform
  intro run valid going answer after handled
  obtain ⟨⟨attempt, same, truthful, rfl⟩, refusal⟩ := lawful.sends _ _ _ _ _ _ handled
  exact ⟨valid, run.attempts, attempt, rfl, going, truthful, same, refusal⟩

theorem turns_attempt_write (lawful : Lawful hashing digestOf rejection write) (deadline : Instant)
    (progress : HashringClient.Progress) :
    Turns hashing digestOf rejection progress.2 (client.attemptWrite write deadline progress) := by
  refine turns_after (quiet_weaken (fun _ => id) (fun _ impossible => impossible.elim)
    (silent_route write.key)) ?_
  rintro ⟨epoch, endpoint⟩ _
  refine turns_after (quiet_attempt (silent_data_node_client endpoint deadline)) fun connected _ => ?_
  have unreachable : Turns hashing digestOf rejection progress.2 (do
      client.refreshAfterUnavailable epoch deadline progress.2
      return .inl (← retryDelay deadline progress.1 progress.2 .connect, progress.2)) :=
    turns_after (silent_refresh_after_unavailable epoch deadline) fun _ _ => turns_delayed deadline _ _
  split
  · exact turns_throw rfl
  · exact unreachable
  · refine turns_after (silent_remaining deadline) fun available _ => ?_
    -- The attempt joins the record; what it came back with decides the rest.
    refine meets_bind (meets_send lawful epoch endpoint available)
      (fun _ _ impossible => impossible.elim) ?_
    rintro (_ | status | response)
    · refine meets_throw fun log sent => ?_
      obtain ⟨earlier, attempt, rfl, going, truthful, answer, -⟩ := sent
      have next := going.snoc truthful (by simp [Attempt.accepted, answer])
      have flagged : (progress.2 || attempt.mayHaveApplied) = true :=
        by simp [Attempt.mayHaveApplied, answer]
      exact (flagged ▸ next).report rfl
    · refine meets_consequence ?_ (fun _ _ => id) (turns_after_status status epoch deadline progress rfl)
      rintro log ⟨earlier, attempt, rfl, going, truthful, answer, -⟩
      have next := going.snoc truthful (by simp [Attempt.accepted, answer])
      simpa [Attempt.mayHaveApplied, answer] using next
    · cases failed : response.error with
      | some error =>
          simp only [failed]
          refine meets_consequence ?_ (fun _ _ => id)
            (turns_after_error error epoch deadline progress rfl)
          rintro log ⟨earlier, attempt, rfl, going, truthful, answer, -⟩
          have next := going.snoc truthful (by simp [Attempt.accepted, answer, failed])
          simpa [Attempt.mayHaveApplied, answer, failed] using next
      | none =>
          simp only [failed]
          intro run valid sent
          have refusal := sent.choose_spec.choose_spec.2.2.2.2 response rfl
          exact meets_after_response lawful failed refusal epoch progress run valid
            (by obtain ⟨earlier, attempt, same, going, truthful, answer, -⟩ := sent
                exact ⟨earlier, attempt, same, going, truthful, answer⟩)

theorem meets_write_record (lawful : Lawful hashing digestOf rejection write) :
    Meets (Handles hashing digestOf) (Valid hashing digestOf) attempts (· = [])
      (client.writeRecord write) fun result log =>
      Reported rejection log result ↔ ¬Blinded log := by
  have clock : Silent hashing digestOf (request .now) (fun _ => True) (fun _ => False) := silent_now
  refine meets_quiet_bind clock (fun _ _ _ impossible => impossible.elim) fun now _ => ?_
  have starts : ∀ log, log = [] → (fun (progress : HashringClient.Progress) => Going progress.2)
      (0, false) log := by
    rintro _ rfl
    exact going_start
  refine meets_loop starts fun progress => meets_consequence (fun _ => id) ?_
    (turns_attempt_write lawful _ progress)
  rintro (error | again | result) log turned
  · exact turned
  · exact turned
  · exact turned

/-- A refusal before the first attempt. -/
theorem reported_unsent {message : String} :
    Reported rejection [] (.error (sizeFailure message)) ↔ ¬Blinded [] :=
  going_start.report rfl

def PutRejected (result : HashringClient.PutResult) : Prop := result = .keyMissing ∨
    result = .conditionFailed

theorem put_lawful (key value : Bytes) (expiry : Expiry) (preserveValue : Bool)
    (precondition : Option Precondition)
    (requestId : String) : Lawful hashing digestOf PutRejected
      (HashringClient.putWrite key value expiry preserveValue precondition requestId) where
  sends epoch endpoint timeout run answer after handled := by
    refine ⟨handled, fun response _ => ?_⟩
    simp only [HashringClient.putWrite]
    cases response.conditionFailed <;> cases response.keyMissing <;> rfl
  rejects response result refused := by
    simp only [HashringClient.putWrite] at refused
    split at refused
    · exact .inr (Option.some.inj refused).symm
    · split at refused
      · exact .inl (Option.some.inj refused).symm
      · exact absurd refused (by simp)
  applies version epoch := by simp [HashringClient.putWrite, PutRejected]

theorem delete_lawful (key : Bytes) (precondition : Option Precondition) (requestId : String) :
    Lawful hashing digestOf (· = none) (HashringClient.deleteWrite key precondition requestId) where
  sends epoch endpoint timeout run answer after handled := by
    refine ⟨handled.1, fun response answered => ?_⟩
    rw [handled.2 response answered]
    simp only [HashringClient.deleteWrite]
    cases response.conditionFailed <;> rfl
  rejects response result refused := by
    simp only [HashringClient.deleteWrite] at refused
    split at refused
    · exact (Option.some.inj refused).symm
    · exact absurd refused (by simp)
  applies version epoch := by simp [HashringClient.deleteWrite]

theorem meets_validate_key_size {key : Bytes} {rest : Unit → ClientTask ρ}
    (passes : Meets (Handles hashing digestOf) (Valid hashing digestOf) attempts (· = []) (rest ())
      fun result log =>
      Reported rejection log result ↔ ¬Blinded log) :
    Meets (Handles hashing digestOf) (Valid hashing digestOf) attempts (· = [])
      (validateKeySize key >>= rest)
      fun result log => Reported rejection log result ↔ ¬Blinded log := by
  have checked : Silent hashing digestOf (validateKeySize key) (fun _ => True) fun error =>
      ∃ message, error = sizeFailure message := by
    unfold validateKeySize
    split
    · exact quiet_throw ⟨_, rfl⟩
    · exact quiet_pure trivial
  refine meets_quiet_bind checked ?_ fun _ _ => passes
  rintro _ _ rfl ⟨message, rfl⟩
  exact reported_unsent

variable (hashing digestOf) in
/-- A run of the call: other tasks of the client move between its effects, and
leave its own attempts alone. -/
def Returns {α : Type} (task : ClientTask α) (start : ClientRun) (result : Except ClientError α)
    (last : ClientRun) : Prop :=
  start.Valid hashing digestOf ∧ start.attempts = [] ∧
    task.run.Ends (Handles hashing digestOf) (Apart (Valid hashing digestOf) attempts) start result last

/-- However the attempts of a put or a delete come back, the report agrees with
them, except where an acceptance without a version follows an ambiguous attempt. -/
theorem write_report_exact (client : HashringClient) (digestOf : TopologySnapshot → String) (key : Bytes)
    (precondition : Option Precondition) (requestId : String) :
    (∀ value expiry preserveValue start result last,
      Returns client.hashing digestOf
        (client.putRecord key value expiry preserveValue precondition requestId) start result last →
        (Reported PutRejected last.attempts result ↔ ¬Blinded last.attempts)) ∧
    ∀ start result last, Returns client.hashing digestOf
      (client.deleteRecord key precondition requestId) start result last →
      (Reported (· = none) last.attempts result ↔ ¬Blinded last.attempts) := by
  constructor
  · rintro value expiry preserveValue start result last ⟨valid, fresh, ends⟩
    refine meets_ends (meets_validate_key_size ?_) valid fresh ends
    split
    · exact meets_throw fun _ unsent => unsent ▸ reported_unsent
    · exact meets_write_record (put_lawful key value expiry preserveValue precondition requestId)
  · rintro start result last ⟨valid, fresh, ends⟩
    refine meets_ends (meets_validate_key_size ?_) valid fresh ends
    exact meets_write_record (delete_lawful key precondition requestId)

end ClientRun

/-! One member, a stopped clock, an unreachable coordinator and a fixed list of
answers to the attempts of a call. -/
namespace ReportSample

def client : HashringClient where
  hashing := JoinSample.hashing
  statusText _ := ""
  endpointError _ := none
  operationTimeout := 1000000000
  receiptRetention := 1000000000

def start : ClientRun where
  inner :=
    { topology := JoinSample.alone
      channels := []
      refreshLocked := false
      refreshGeneration := 0
      backgroundMinimumEpoch := 0
      backgroundTriggerGeneration := 0
      retries := 0
      retryReasons := fun _ => 0 }
  attempts := []

/-- The node's answers in order; it makes the write unless it says otherwise. -/
def attempt (answer : Answer) : Attempt :=
  { answer, applied := (Attempt.mk answer true).mayHaveApplied || (Attempt.mk answer true).accepted }

theorem attempt_truthful (answer : Answer) : (attempt answer).Truthful := by
  intro applied
  exact Bool.or_eq_true_iff.mp applied

def serve (answers : List (Except Status WriteResponse)) {γ : Type} : ClientEffect γ → ClientRun →
    γ × ClientRun
  | .now, run => (0, run)
  | .random, run => (0, run)
  | .sleep _, run => ((), run)
  | .shared access, run => ((access run.inner).1, { run with inner := (access run.inner).2 })
  | .lockRefresh _, run =>
      if run.inner.refreshLocked then (false, run)
        else (true, { run with inner := { run.inner with refreshLocked := true } })
  | .fetchTopology _, run => (some (.error (.transport "refused")), run)
  | .connect _ _, run => (some (.ok ()), run)
  | .put _ _ _, run => (answers[run.attempts.length]?,
      { run with attempts := run.attempts ++ [attempt answers[run.attempts.length]?] })
  | .delete _ _ _, run => (none, { run with attempts := run.attempts ++ [attempt none] })

theorem serve_handles (answers : List (Except Status WriteResponse)) {γ : Type}
    (effect : ClientEffect γ) (run : ClientRun) :
    ClientRun.Handles client.hashing (fun _ => "") effect run (serve answers effect run).1
      (serve answers effect run).2 := by
  cases effect with
  | now => rfl
  | random => rfl
  | sleep => rfl
  | shared access => exact ⟨rfl, rfl⟩
  | lockRefresh timeout =>
      simp only [serve]
      split
      · exact rfl
      · rename_i unlocked
        exact ⟨by simpa using unlocked, rfl⟩
  | fetchTopology => exact ⟨fun _ same => absurd same (by simp [serve]), rfl⟩
  | connect => rfl
  | put => exact ⟨_, rfl, attempt_truthful _, rfl⟩
  | delete => exact ⟨⟨_, rfl, attempt_truthful _, rfl⟩, fun _ same => absurd same (by simp [serve])⟩

def put : ClientTask HashringClient.PutResult := client.putRecord [byte 1] [byte 2] .keep false none "id"

theorem returns_served {answers : List (Except Status WriteResponse)}
    {result : Except ClientError HashringClient.PutResult} {last : ClientRun}
    (ran : put.run.execute (serve answers) (fun _ => 3) start = some (result, last)) :
    ClientRun.Returns client.hashing (fun _ => "") put start result last :=
  ⟨JoinSample.alone_valid, rfl, Program.execute_ends Program.apart_refl (serve_handles answers) ran⟩

def unavailable : Except Status WriteResponse := .error ⟨.unavailable, "connection reset"⟩

/-- The first attempt is cut off; its retry is accepted without a version. -/
theorem missing_version_hides_ambiguity :
    ∃ last, ClientRun.Returns client.hashing (fun _ => "") put start (.error .missingVersion) last ∧
      last.attempts = [attempt (some unavailable), attempt (some (.ok {}))] ∧
      ¬ClientRun.Reported ClientRun.PutRejected last.attempts
        (.error .missingVersion : Except ClientError HashringClient.PutResult) := by
  have ran : ∃ last, put.run.execute (serve [unavailable, .ok {}]) (fun _ => 3) start =
      some (.error .missingVersion, last) ∧
      last.attempts = [attempt (some unavailable), attempt (some (.ok {}))] := ⟨_, rfl, rfl⟩
  obtain ⟨last, ran, attempts⟩ := ran
  refine ⟨last, returns_served ran, attempts, fun reported => ?_⟩
  rw [attempts] at reported
  exact absurd (reported.1 ⟨attempt (some unavailable), by simp, rfl⟩)
    (by simp [ClientRun.ToldMayHaveApplied, ClientError.outcome])

/-- The retry is refused instead: the caller learns that the first attempt may
have been applied. -/
theorem write_report_refused :
    ∃ last, ClientRun.Returns client.hashing (fun _ => "") put start (.error rejectedAfterAmbiguity)
      last ∧
      (ClientRun.Reported ClientRun.PutRejected last.attempts
        (.error rejectedAfterAmbiguity : Except ClientError HashringClient.PutResult) ↔
          ¬ClientRun.Blinded last.attempts) := by
  have ran : ∃ last, put.run.execute (serve [unavailable, .ok { conditionFailed := true }])
      (fun _ => 3) start =
      some (.error rejectedAfterAmbiguity, last) := ⟨_, rfl⟩
  obtain ⟨last, ran⟩ := ran
  have returns := returns_served ran
  exact ⟨last, returns, (ClientRun.write_report_exact client (fun _ => "") [byte 1] none "id").1
    [byte 2] .keep false start _ last returns⟩

end ReportSample

end Hashring
