import Hashring.FiniteMap
import Hashring.VersionedMap
import Hashring.OrderedSet
import Hashring.Transition
import Hashring.SingleSchedule
import Hashring.Records
import Hashring.Encoding
import Hashring.Topology
import Hashring.SuccessorRing
import Hashring.RingArcs
import Hashring.Placement
import Hashring.PlacementLaw
import Hashring.TopologyPlan
import Hashring.Wire
import Hashring.NodeState
import Hashring.Dedup
import Hashring.Migration
import Hashring.RangeStaging
import Hashring.RangeControl
import Hashring.Replication
import Hashring.FollowerStream
import Hashring.Dispatch
import Hashring.StreamSender
import Hashring.StreamHistory
import Hashring.FairBudget
import Hashring.StreamLog
import Hashring.OwnerWrite
import Hashring.TopologyInstall
import Hashring.FailedWrite
import Hashring.NodeMachine
import Hashring.NodeIndices
import Hashring.AckSections
import Hashring.RequiredAcks
import Hashring.AckChannels
import Hashring.AtMostOnce
import Hashring.NodeStores
import Hashring.WriteSections
import Hashring.StoreSections
import Hashring.StoredRecords
import Hashring.OwnVersions
import Hashring.RangeMove
import Hashring.RecordsMoved
import Hashring.ReceiptStaging
import Hashring.ReceiptsMoved
import Hashring.StreamHealth
import Hashring.Program
import Hashring.ClusterState
import Hashring.NodeCalls
import Hashring.Removal
import Hashring.Coordinator
import Hashring.ReplicaSeeding
import Hashring.TopologyExecution
import Hashring.FailureRecovery
import Hashring.CoordinatorInvariant
import Hashring.RepairStores
import Hashring.Publication
import Hashring.CoordinatorSystem
import Hashring.QuietTasks
import Hashring.FailurePasses
import Hashring.LockHolder
import Hashring.ChangeRuns
import Hashring.CoordinatorMachine
import Hashring.CoordinatorSafety
import Hashring.FrameReader
import Hashring.RespParser
import Hashring.RespReply
import Hashring.ClientErrors
import Hashring.Gateway
import Hashring.RequestStream
import Hashring.TaskRecord
import Hashring.ClientRetry
import Hashring.WriteReports
import Hashring.TaskPool
import Hashring.CommandArgs
import Hashring.RedisStore
import Hashring.KeyCommands
import Hashring.StringCommands
import Hashring.PartialWrites
import Hashring.RenameCopy
import Hashring.KeyPages
import Hashring.KeyspaceClient
import Hashring.KeyspaceRuns
import Hashring.KeyScan
import Hashring.KeyWalk
import Hashring.PageWalk
import Hashring.ReceiptAccounts
import Hashring.JournalBudget
import Hashring.TokenBuckets
import Hashring.RangeDigest
import Hashring.IntervalTests
import Hashring.WriteLimits
import Hashring.ScriptBudget
import Hashring.Sha1
import Hashring.ScriptCache
import Hashring.StagingOrder
import Hashring.ServedSource
import Hashring.MigrationPaging
import Hashring.JournalReplay
import Hashring.StreamBatches
import Hashring.RecordReads
import Hashring.ExpirySweep
import Hashring.ExpiringRecords
import Hashring.SubstringRules
import Hashring.Fingerprints
import Hashring.Wildcards
import Hashring.Glob
import Hashring.GlobMatching
import Hashring.TopologyWire
import Hashring.RepairReconciliation
import Hashring.ActivationSeeding
import Hashring.ChangeRequests
import Hashring.TaskRuns
import Hashring.Coalescing
import Hashring.TopologyCache
import Hashring.BackgroundRefresh
import Hashring.BoundedWork
import Hashring.FanOut
import Hashring.FanOutTasks
import Hashring.FanOutOrder
import Hashring.ReplyStream
import Hashring.CommandTable
import Hashring.Dispatcher
import Hashring.Authentication
import Hashring.TaskTriples
import Hashring.ClusterHistory
import Hashring.AtomicUpdates
import Hashring.OwnerRegister
import Hashring.PrivateTasks
import Hashring.PrivateStore
import Hashring.ScriptRuns
import Hashring.AtomicScripts
import Hashring.PairedTasks
import Hashring.PlainCommands
import Hashring.PrivateRuns
import Hashring.PlainDispatch
import Hashring.ScriptsAlone
