import Hashring.KeyspaceClient

/-! The client's walks against data nodes that change in any way between two of its
steps: topologies are installed, leases run out, keys are written and expire. -/
namespace Hashring

open Program

def DataNode.Owns (node : DataNode) (token : Token) : Prop :=
  ownerError node.config node.process.state token node.now = .ok none

abbrev DataNodes := String → Option DataNode

variable (hashing : Hashing)

def Listed (nodes : DataNodes) (endpoint : String) (request : ListKeysRequest)
    (answer : Except Status ListKeysResponse)
    (after : DataNodes) : Prop :=
  ∃ node fetched, nodes endpoint = some node ∧ answer = (node.listKeys hashing fetched request).2 ∧
    after = fun other => if other = endpoint then some (node.listKeys hashing fetched request).1
      else nodes other

structure KeyspaceState where
  inner : ClientInner
  nodes : DataNodes

def KeyspaceEffect.Served {γ : Type} : KeyspaceEffect γ → KeyspaceState → γ → KeyspaceState → Prop
  | .listKeys endpoint request _, state, answer, after => after.inner = state.inner ∧
      ((∃ response, answer = some response ∧
        Listed hashing state.nodes endpoint request response after.nodes) ∨
        ((∀ response, answer ≠ some (.ok response)) ∧
          (after.nodes = state.nodes ∨ ∃ response,
            Listed hashing state.nodes endpoint request response after.nodes)))
  | .client (.shared access), state, answer, after =>
      answer = (access state.inner).1 ∧ after = { state with inner := (access state.inner).2 }
  | .client _, state, _, after => after.nodes = state.nodes
  | .acquirePage, state, _, after | .releasePage, state, _, after | .spend _, state, _,
      after => after = state

/-- The same in a run whose states `holds` describes. -/
def KeyspaceEffect.Handled (holds : KeyspaceState → Prop) {γ : Type} (effect : KeyspaceEffect γ)
    (state : KeyspaceState)
    (answer : γ) (after : KeyspaceState) : Prop :=
  effect.Served hashing state answer after ∧ holds after

/-- Between two steps of the client the nodes and its other calls do what they like. -/
def Drifts (holds : KeyspaceState → Prop) (_ later : KeyspaceState) : Prop := holds later

/-! What a node owns and lists. -/

theorem owns_owner_id {node : DataNode} {token : Token} (owns : node.Owns token) :
    node.process.state.topology.ownerId token = some node.config.nodeId := by
  unfold DataNode.Owns ownerError at owns
  split at owns
  · exact absurd owns (by simp)
  · rename_i owner routed
    split at owns
    · rename_i own
      rw [TopologySnapshot.owner_for_token_owner_id routed, own]
    · exact absurd owns (by simp)

theorem owner_for_token_congr {topology : TopologySnapshot} {first second : Token}
    (same : topology.ownerId first = topology.ownerId second) :
    topology.ownerForToken first = topology.ownerForToken second := by
  unfold TopologySnapshot.ownerId TopologySnapshot.ownerAssignment at same
  unfold TopologySnapshot.ownerForToken TopologySnapshot.partitionPoint
  rw [SuccessorRing.getElem?_partition_point TokenAssignment.token,
    SuccessorRing.getElem?_partition_point TokenAssignment.token]
  cases left : SuccessorRing.successor TokenAssignment.token topology.assignments first with
  | none =>
      rw [left] at same
      rw [Option.map_eq_none_iff.mp same.symm]
  | some assignment =>
      rw [left] at same
      obtain ⟨other, found, named⟩ := Option.map_eq_some_iff.mp same.symm
      rw [found]
      simp only [named]

theorem owns_of_owner_id {node : DataNode} {start token : Token} (owns : node.Owns start)
    (same : node.process.state.topology.ownerId token = some node.config.nodeId) : node.Owns token := by
  have routed := owner_for_token_congr (same.trans (owns_owner_id owns).symm)
  unfold DataNode.Owns ownerError at owns ⊢
  rw [routed]
  exact owns

theorem answer_listing_page {config : NodeConfig} {state : NodeState} {now : Instant} {unixMillis : Nat}
    {request : ListKeysRequest} {response : ListKeysResponse}
    (answered : answerListing config state now unixMillis request = .ok response)
    (clear : response.error = none) :
    refuseListing config state now request = .ok none ∧ response = listingOf state.topology.epoch
      (state.ownedKeysPage config.nodeId unixMillis request.limits request.startToken) := by
  unfold answerListing at answered
  cases refusal : refuseListing config state now request with
  | error status => exact absurd answered (by simp [refusal, bind, Except.bind])
  | ok error =>
      cases error with
      | some error =>
          rw [refusal] at answered
          obtain rfl := Except.ok.inj answered
          exact absurd clear (by simp)
      | none =>
          rw [refusal] at answered
          exact ⟨rfl, (Except.ok.inj answered).symm⟩

def ListKeysResponse.stop (response : ListKeysResponse) : Token :=
  if response.done then tokenMax + 1 else response.nextToken

theorem listing_stop (epoch : Nat) (page : KeyPage) : (listingOf epoch page).stop = page.stop := by
  unfold ListKeysResponse.stop KeyPage.stop listingOf
  cases page.next <;> rfl

theorem limits_open (request : ListKeysRequest) : request.limits.reached { examined := 1 } = false := by
  simp [PageLimits.reached, ListKeysRequest.limits, maxExaminedPerPage]

/-! Parts of a walk. -/

/-- A part of a call, by what it returns whatever the nodes do meanwhile. -/
abbrev Finds (holds : KeyspaceState → Prop) {ε β : Type}
    (task : ExceptT ε (Program KeyspaceEffect) β) (good : β → Prop) : Prop :=
  Returns (fun effect => effect.Handled hashing holds) holds (fun _ _ => True) task good

variable {hashing} {holds : KeyspaceState → Prop}

/-- Nothing is asked of a step that only keeps to the run's states. -/
theorem finds_anything {ε β : Type} (task : ExceptT ε (Program KeyspaceEffect) β) :
    Finds hashing holds task fun _ => True :=
  returns_free (fun _ _ _ _ handled => ⟨handled.2, trivial⟩) task

/-- A step whose error is looked at. -/
theorem finds_result {ε δ β : Type} {task : ExceptT ε (Program KeyspaceEffect) β} {good : β → Prop}
    (finds : Finds hashing holds task good) :
    Finds hashing holds (ExceptT.lift task.run : ExceptT δ (Program KeyspaceEffect) (Except ε β))
      fun result => ∀ value, result = .ok value → good value := by
  intro state start
  refine safe_bind (fun _ => trivial) (safe_consequence ?_ (finds state start))
  intro result _ _ reached _ _ _ found same
  exact Except.ok.inj same ▸ reached

theorem finds_page (client : HashringClient) (endpoint : String) {request : ListKeysRequest}
    (deadline : Instant) (good : ListKeysResponse → Prop)
    (answers : ∀ (state : KeyspaceState) (node : DataNode) response, holds state →
      state.nodes endpoint = some node →
      answerListing node.config node.process.state node.now node.unixMillis request = .ok response →
      response.error = none → good response) :
    Finds hashing holds (client.listPage endpoint request deadline) good := by
  refine returns_bind (finds_anything _) fun _ _ => ?_
  refine returns_bind (finds_anything _) fun available _ => ?_
  have asked : Finds hashing holds
      (ExceptT.lift (Program.call (.listKeys endpoint request available)) : PageTask _)
      fun answer => ∀ response, answer = some (.ok response) → response.error = none → good response := by
    refine returns_lift fun state _ answer after handled => ⟨handled.2, trivial, ?_⟩
    rintro response rfl clear
    rcases handled.1.2 with ⟨_, same, node, fetched, -, answered, moved⟩ | ⟨lost, -⟩
    · obtain rfl := Option.some.inj same
      -- The answer is that of the node as it is after its refresh.
      refine answers after (node.listKeys hashing fetched request).1 response handled.2
        (moved ▸ if_pos rfl) ?_ clear
      unfold DataNode.listKeys at answered ⊢
      split at answered
      · exact absurd answered (by simp)
      · exact answered.symm
    · exact absurd rfl (lost response)
  refine returns_bind asked fun answer reached => ?_
  split
  · exact returns_throw
  · split
    · exact returns_throw
    · exact returns_throw
  · rename_i response
    split
    · exact returns_throw
    · rename_i clear
      exact returns_pure (reached response rfl clear)

theorem ends_finds {β : Type} {task : KeyspaceTask β} {good : β → Prop}
    (finds : Finds hashing holds task good) {state later : KeyspaceState} (start : holds state)
    {value : β}
    (ends : task.run.Ends (fun effect => effect.Handled hashing holds) (Drifts holds) state
      (.ok value) later) : good value := by
  have kept : ∀ state later, Drifts holds state later → holds state → holds later :=
    fun _ _ drifts _ => drifts
  have relied : ∀ state later, Drifts holds state later → True := fun _ _ _ => trivial
  exact ends_safe kept ends start (safe_among relied (fun _ _ => id) (finds state start)) value rfl

end Hashring
