import Hashring.TopologyInstall
import Hashring.RangeControl
import Hashring.StreamSender
import Hashring.Transition

/-! Everything that takes the write lock of a data node, as one machine: the
locked sections of client writes, the replication and migration RPCs, the
coordinator's control RPCs, the expiry sweep and the delivery tasks. -/
namespace Hashring

inductive NodeEvent where
  | commit (clock : Clock) (request : WriteRequest) (ready : Readiness)
  | finishAcks (now : Instant) (reached : Bool) (epoch : Nat) (mutationId : String)
      (version : RecordVersion)
      (required : List RequiredAck)
  | replicate (clock : Clock) (entry : ReplicationEntry)
  | replicateBatch (clock : Clock) (entries : List ReplicationEntry)
  | checkpoint (request : ReplicationCheckpointRequest)
  | range (operation : RangeOperation)
  | sweep (nowUnixMillis limit : Nat)
  | install (topology : TopologySnapshot)
  | refresh (topology : TopologySnapshot)
  | renewed (epoch : Nat) (sentAt : Instant) (response : RenewNodeLeaseResponse)
  | pausePolicy (request : PolicyWriteFenceRequest)
  | resumePolicy (request : PolicyWriteFenceRequest)
  | collect (key : ReplicationStreamKey)
  | send (key : ReplicationStreamKey)
  | answered (key : ReplicationStreamKey) (answer : Except Status ReplicateMutationsResponse)

def NodeEvent.Adopts : NodeEvent → Prop
  | .install _ | .refresh _ => True
  | _ => False

def NodeEvent.offered : NodeEvent → Option TopologySnapshot
  | .install topology => some topology
  | .refresh topology => some topology
  | _ => none

namespace NodeProcess

variable (hashing : Hashing) (config : NodeConfig)

def handle (process : NodeProcess) : NodeEvent → NodeProcess
  | .commit clock request ready => (commitRequest hashing config clock process request ready).1
  | .finishAcks now reached epoch mutationId version required =>
      { process with state := (finishRequiredAcks now process.state reached epoch mutationId version required).1 }
  | .replicate clock entry =>
      { process with state := (applyReplicationEntry hashing config clock process.state entry).1 }
  | .replicateBatch clock entries =>
      { process with state := (replicateMutations hashing config clock process.state entries).1 }
  | .checkpoint request =>
      { process with state := (installReplicationCheckpoint config process.state request).1 }
  | .range operation => { process with state := (operation.perform hashing config process.state).1 }
  | .sweep nowUnixMillis limit =>
      { process with state := (sweepExpiredRecords hashing nowUnixMillis limit process.state).1 }
  | .install topology => (installTopology hashing process topology).1
  | .refresh topology => refreshTopology hashing process topology
  | .renewed epoch sentAt response =>
      { process with state := receiveRenewal process.state epoch sentAt response }
  | .pausePolicy request => { process with state := (pausePolicyWrites process.state request).1 }
  | .resumePolicy request => { process with state := resumePolicyWrites process.state request }
  | .collect key => process.collectBatch key
  | .send key => (process.sendBatch key).1
  | .answered key answer => process.receiveAnswer key answer

theorem handle_adopting {motive : NodeProcess → Prop} {process : NodeProcess} {event : NodeEvent}
    (kept : motive process)
    (adopted : ∀ topology, event.offered = some topology →
      process.state.topology.epoch ≤ topology.epoch →
      motive (adoptTopology hashing process topology))
    (adopts : event.Adopts) : motive (process.handle hashing config event) := by
  cases event with
  | install topology =>
      simp only [handle, installTopology]
      split
      · exact kept
      · rename_i newer
        exact adopted topology rfl (not_lt.mp newer)
  | refresh topology =>
      simp only [handle, refreshTopology]
      split
      · rename_i newer
        exact adopted topology rfl newer
      · exact kept
  | _ => exact absurd adopts id

/-- One event. The table of source ranges is a hash map, which the sweep walks
in whatever order it has at that moment. -/
def Step (before : NodeProcess) (event : NodeEvent) (after : NodeProcess) : Prop :=
  ∃ sources : FiniteMap RangeKey SourceMigration, sources.entries.Perm before.state.sources.entries ∧
    after = handle hashing config { before with state := { before.state with sources } } event

theorem step_handle (process : NodeProcess) (event : NodeEvent) :
    Step hashing config process event (process.handle hashing config event) :=
  ⟨process.state.sources, .refl _, rfl⟩

/-- A list of events taken one after the other, with the table in the order it stands. -/
theorem run_handle (events : List NodeEvent) (process : NodeProcess) :
    Transition.Run (Step hashing config) process events (events.foldl (handle hashing config) process) :=
  Transition.total_run _ (step_handle hashing config) events process

end NodeProcess
end Hashring
