import GpuSharing.Lib.Transition
import GpuSharing.Lib.StridedView
import GpuSharing.Lib.Packing
import GpuSharing.Lib.Dict
import GpuSharing.Lib.FileLock
import GpuSharing.Kvcached.PageAllocator
import GpuSharing.Kvcached.AllocatorThreads
import GpuSharing.Kvcached.AllocatorOutcomes
import GpuSharing.Kvcached.PagePlaces
import GpuSharing.Kvcached.PageAccounting
import GpuSharing.Kvcached.PageOwnership
import GpuSharing.Kvcached.PageMapping
import GpuSharing.Kvcached.FTensor
import GpuSharing.Kvcached.KvPool
import GpuSharing.Kvcached.PageBounds
import GpuSharing.Kvcached.PoolHistory
import GpuSharing.Kvcached.InternalPage
import GpuSharing.Kvcached.KvCacheManager
import GpuSharing.Kvcached.HeldPages
import GpuSharing.Kvcached.ManagerAlloc
import GpuSharing.Kvcached.ManagerFree
import GpuSharing.Kvcached.AllocatorCalls
import GpuSharing.Kvcached.ManagerHistory
import GpuSharing.Kvcached.BlockOwnership
import GpuSharing.Kvcached.AllocatorRuns
import GpuSharing.Kvcached.ActivationPool
import GpuSharing.Kvcached.AllocatorGil
import GpuSharing.Kvcached.DeviceMemory
import GpuSharing.Kvcached.AllocatorResize
import GpuSharing.Kvcached.ManagerSound
import GpuSharing.Kvcached.LinkedAllocator
import GpuSharing.Kvcached.MemInfoTracker
import GpuSharing.Kvcached.Group
import GpuSharing.Kvcached.LimitHistory
import GpuSharing.Kvcached.GroupSegments
import GpuSharing.Kvcached.TpIpc
import GpuSharing.Kvcached.TpBroadcast
import GpuSharing.Kvcached.BlockAccounting
import GpuSharing.Kvcached.ManagerRestore
import GpuSharing.Integration.VllmInterfaces
import GpuSharing.Integration.VllmViews
import GpuSharing.Integration.VllmCoverage
import GpuSharing.Integration.VllmBlockPool
import GpuSharing.Integration.VllmBlockHistory
import GpuSharing.Integration.VllmPrefixIndex
import GpuSharing.Integration.VllmPrefixCache
import GpuSharing.Integration.VllmBlockReferences
import GpuSharing.Integration.VllmBlockSession
import GpuSharing.Integration.SglangInterfaces
import GpuSharing.Integration.SglangMamba
import GpuSharing.WeightSharing.Registry
import GpuSharing.WeightSharing.RegistryLock
import GpuSharing.WeightSharing.RegistryFiles
import GpuSharing.WeightSharing.RegistryReady
import GpuSharing.WeightSharing.ParameterFilter
import GpuSharing.WeightSharing.Manager
import GpuSharing.WeightSharing.ImportSession
import GpuSharing.WeightSharing.SecondaryLoad
import GpuSharing.Lib.Interrupted
import GpuSharing.WeightSharing.ExportPublish
import GpuSharing.Lib.Ledger
import GpuSharing.Sardeenz.KvAdmission
import GpuSharing.Sardeenz.KvAdmissionRuns
import GpuSharing.Sardeenz.KvAdmissionBounds
import GpuSharing.Sardeenz.KvAdmissionGuarantee
import GpuSharing.Sardeenz.KvAdmissionOverlap
import GpuSharing.Lib.VersionedObject
import GpuSharing.Sardeenz.LeaseElection
import GpuSharing.Sardeenz.LeaseSteps
import GpuSharing.Sardeenz.LeaseTerms
import GpuSharing.Sardeenz.LeaseLeadership
import GpuSharing.Sardeenz.HeartbeatElection
import GpuSharing.Sardeenz.HeartbeatQuorum
import GpuSharing.Sardeenz.HeartbeatSplit
import GpuSharing.Controller.SleepManager
import GpuSharing.Controller.SleepCalls
import GpuSharing.Controller.WakeOnRequest
import GpuSharing.Lib.Matching
import GpuSharing.Sardeenz.PodScheduler
import GpuSharing.Sardeenz.PodPlacement
import GpuSharing.Sardeenz.PodReconcile
import GpuSharing.Sardeenz.ModelManager
import GpuSharing.Sardeenz.InstanceRaces
import GpuSharing.Sardeenz.LaunchWindow
import GpuSharing.Lib.KeyedFold
import GpuSharing.Sardeenz.LaunchRecovery
import GpuSharing.Sardeenz.MoveStore
import GpuSharing.Sardeenz.MoveLock
import GpuSharing.Sardeenz.ModelMover
import GpuSharing.Sardeenz.MoveSurvival
import GpuSharing.Sardeenz.MoveOrphans
import GpuSharing.Sardeenz.ClusterRouting
import GpuSharing.Sardeenz.RoutingTableSync
import GpuSharing.Sardeenz.HeartbeatOrder
import GpuSharing.Sardeenz.RequestRouting
import GpuSharing.Lib.ListUpdate
import GpuSharing.Sardeenz.RequestRelease
import GpuSharing.Sardeenz.PresetStore
import GpuSharing.Sardeenz.PresetSync
import GpuSharing.Sardeenz.PresetReplication
import GpuSharing.Lib.LatestMerge
import GpuSharing.Sardeenz.ProfileStore
import GpuSharing.Sardeenz.ProfileReconcile
import GpuSharing.Lib.Grouping
import GpuSharing.Sardeenz.LaunchOptions
import GpuSharing.Sardeenz.SavedLaunches
import GpuSharing.Sardeenz.IdleSleep
import GpuSharing.Lib.Transducer
import GpuSharing.Lib.Utf8Stream
import GpuSharing.Lib.EventStream
import GpuSharing.Sardeenz.StreamRelay
import GpuSharing.Kvcached.ManagerClear
import GpuSharing.Sardeenz.ClusterAuth
import GpuSharing.Kvcached.UnmapFailures
import GpuSharing.Kvcached.AllocedCount
import GpuSharing.Kvcached.FTensorRollback
import GpuSharing.Kvcached.PageStock
import GpuSharing.Kvcached.AllocSupply
import GpuSharing.Kvcached.PendingLimit
import GpuSharing.Kvcached.AllocFailures
import GpuSharing.Kvcached.ResizeAnswer
import GpuSharing.Kvcached.DeferredShrink
import GpuSharing.WeightSharing.OpenPaths
import GpuSharing.Kvcached.ReservedBlocks
import GpuSharing.Kvcached.BlockRanges
import GpuSharing.Integration.VllmPoolLimits
import GpuSharing.Integration.VllmPoolPromise
import GpuSharing.Lib.LastUse
import GpuSharing.Integration.VllmCacheOrder
import GpuSharing.Lib.Rotation
import GpuSharing.Sardeenz.WeightedRotation
import GpuSharing.Sardeenz.CircuitBreaker
import GpuSharing.Sardeenz.WakePolling
import GpuSharing.Sardeenz.InstanceActivation
import GpuSharing.Sardeenz.ActivationOrder
import GpuSharing.Kvcached.QuietFree
import GpuSharing.Lib.UnionFind
import GpuSharing.Sardeenz.ConflictGroups
import GpuSharing.Sardeenz.RequestMetrics
import GpuSharing.Sardeenz.ClusterMembership
import GpuSharing.Sardeenz.PodDiscovery
import GpuSharing.Sardeenz.RequestRecords
import GpuSharing.Lib.Number
import GpuSharing.Lib.TrimmedLines
import GpuSharing.Sardeenz.ProcessLog
import GpuSharing.Lib.JoinedNumbers
import GpuSharing.Sardeenz.IpcSegments
import GpuSharing.Lib.ProcessTable
import GpuSharing.Sardeenz.FailedCleanup
import GpuSharing.Lib.ArgumentParser
import GpuSharing.Sardeenz.VllmArguments
import GpuSharing.Sardeenz.VllmSanitizing
import GpuSharing.Controller.TrafficMonitor
import GpuSharing.Lib.SplitReads
import GpuSharing.Kvcached.TpSocket
import GpuSharing.Kvcached.TpListener
import GpuSharing.Lib.Windows
import GpuSharing.Sardeenz.GpuSelector
import GpuSharing.Sardeenz.BenchmarkRuns
import GpuSharing.Lib.CutLines
import GpuSharing.Lib.Json
import GpuSharing.Sardeenz.BenchmarkStream
import GpuSharing.Sardeenz.SignedRequests
import GpuSharing.Integration.SglangAllocators
import GpuSharing.Kvcached.FreshManager
import GpuSharing.Integration.SglangMambaSlots
import GpuSharing.Sardeenz.SimGpuTracker
import GpuSharing.Sardeenz.SimulatedLaunches
import GpuSharing.Lib.Multipart
import GpuSharing.Sardeenz.AudioProxy
import GpuSharing.Lib.Interpolation
import GpuSharing.Sardeenz.BenchmarkMetrics
import GpuSharing.Lib.InvertedIndex
import GpuSharing.Sardeenz.ModelStore
import GpuSharing.Lib.Numerals
