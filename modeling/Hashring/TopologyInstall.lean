import Hashring.OwnerWrite
import Hashring.Placement

/-! How a data node takes a topology, a lease and a write fence from the
coordinator (service.rs and rpc.rs of crates/hashring-node). `install_topology`
with `require_lease` goes on to a renewal of its own, which is the same
request and answer as a periodic one. -/
namespace Hashring

section

variable (hashing : Hashing)

/-- What `install_topology` and `refresh_topology` do with a snapshot that is
not older than the installed one. -/
def adoptTopology (process : NodeProcess) (topology : TopologySnapshot) : NodeProcess :=
  let epoch := topology.epoch
  let unleased :=
    if epoch ≠ process.state.topology.epoch then
      NodeState.clearReplicaRepairStaging { process.state with lease := none, admittedFollowers := ∅ }
    else process.state
  let installed := unleased.setTopology hashing topology
  { state := pruneAckProgress
      { installed with
        ownerStreamSequences := installed.ownerStreamSequences.retain fun key _ => key.epoch = epoch
        ownerStreamUnacked := installed.ownerStreamUnacked.retain fun key _ => key.epoch = epoch
        followerStreams := installed.followerStreams.retain fun key _ => key.epoch = epoch }
    dispatch := process.dispatch.pruneEpoch epoch }

def installTopology (process : NodeProcess) (topology : TopologySnapshot) :
    NodeProcess × Except Status Unit :=
  if topology.epoch < process.state.topology.epoch then
    (process, .error ⟨.failedPrecondition, "cannot install an older topology"⟩)
  else (adoptTopology hashing process topology, .ok ())

def refreshTopology (process : NodeProcess) (topology : TopologySnapshot) : NodeProcess :=
  if process.state.topology.epoch ≤ topology.epoch then adoptTopology hashing process topology
    else process

end

/-- The answer of a renewal sent at `sentAt` for `epoch`: the whole round trip
is discounted from the granted lifetime. -/
def receiveRenewal (state : NodeState) (epoch : Nat) (sentAt : Instant)
    (response : RenewNodeLeaseResponse) :
    NodeState :=
  if response.topologyEpoch = epoch ∧ 0 < response.leaseDurationMillis ∧ state.topology.epoch = epoch then
    { state with
      admittedFollowers := response.admittedFollowers.foldl
        (fun table entry => table.insert entry.1 entry.2) ∅
      lease := some ⟨epoch, sentAt + response.leaseDurationMillis * nanosPerMilli⟩ }
  else state

def pausePolicyWrites (state : NodeState) (request : PolicyWriteFenceRequest) :
    NodeState × Except Status Unit :=
  if request.changeId.isEmpty then (state, .error ⟨.invalidArgument, "policy change ID is empty"⟩)
  else if state.topology.epoch ≠ request.baseEpoch then
    (state, .error ⟨.failedPrecondition, "policy fence base epoch does not match installed topology"⟩)
  else if state.policyWriteFence.any fun fence => fence ≠ request then
    (state, .error ⟨.failedPrecondition, "another policy change has fenced writes"⟩)
  else ({ state with policyWriteFence := some request }, .ok ())

def resumePolicyWrites (state : NodeState) (request : PolicyWriteFenceRequest) : NodeState :=
  if state.policyWriteFence = some request then { state with policyWriteFence := none } else state

/-- What ownership of a token rests on. -/
structure SameAuthority (before after : NodeState) : Prop where
  topology : after.topology = before.topology
  lease : after.lease = before.lease
  policyWriteFence : after.policyWriteFence = before.policyWriteFence

namespace SameAuthority

theorem refl (state : NodeState) : SameAuthority state state := ⟨rfl, rfl, rfl⟩

theorem trans {first second third : NodeState} (early : SameAuthority first second)
    (late : SameAuthority second third) : SameAuthority first third :=
  ⟨late.topology.trans early.topology, late.lease.trans early.lease,
    late.policyWriteFence.trans early.policyWriteFence⟩

end SameAuthority

theorem remove_source_authority (state : NodeState) (key : RangeKey) :
    SameAuthority state (state.removeSource key) := by
  unfold NodeState.removeSource
  split
  · exact SameAuthority.refl state
  · exact ⟨rfl, rfl, rfl⟩

theorem remove_sources_authority (keys : List RangeKey) (state : NodeState) :
    SameAuthority state (keys.foldl NodeState.removeSource state) := by
  induction keys generalizing state with
  | nil => exact SameAuthority.refl state
  | cons key rest ih => exact (remove_source_authority state key).trans (ih _)

theorem clear_repairs_authority (state : NodeState) :
    SameAuthority state state.clearReplicaRepairStaging := by
  have cleared := remove_sources_authority
    (state.sources.keys.filter fun key => NodeState.isRepairId key.changeId) state
  exact ⟨cleared.topology, cleared.lease, cleared.policyWriteFence⟩

theorem set_topology_spec (hashing : Hashing) (state : NodeState) (topology : TopologySnapshot) :
    (state.setTopology hashing topology).topology = topology ∧
      (state.setTopology hashing topology).lease = state.lease ∧
      (state.setTopology hashing topology).policyWriteFence = state.policyWriteFence := by
  unfold NodeState.setTopology
  split
  · exact ⟨rfl, rfl, rfl⟩
  · exact ⟨rfl, rfl, rfl⟩

end Hashring
