import Ramryder.FreeRuns
import Ramryder.Runs
import Ramryder.MemoryPoolSpec
import Ramryder.PoolConfig
import Ramryder.VmManagerSpec
import Ramryder.Ownership
import Ramryder.SegmentBounds
import Ramryder.Lifecycle
import Ramryder.ResourceManagerSpec
import Ramryder.RequestHistory
import Ramryder.HotplugRange
import Ramryder.PluggedMemory
import Ramryder.MemPoolTable
import Ramryder.PoolCalls
import Ramryder.Shutdown
import Ramryder.DeviceIdentity
import Ramryder.RequestOrder
import Ramryder.ClientRequests
import Ramryder.CpuSet
import Ramryder.VmReport
import Ramryder.CreateRunsSpec
import Ramryder.TierChoice
import Ramryder.MemoryRelease
import Ramryder.HotplugRecovery
import Ramryder.AttachRollback
import Ramryder.VcpuPinning
import Ramryder.CreateCleanup
import Ramryder.CreateConsistency
import Ramryder.CoreSafety
import Ramryder.AgentIndex
import Ramryder.BoundedPrint
import Ramryder.ConfigFile
import Ramryder.QmpStream
import Ramryder.ChannelBoundary
import Ramryder.PlanGrants
import Ramryder.SegmentSearch
import Ramryder.PerfCounts
import Ramryder.QemuSearch
import Ramryder.Simulation
import Ramryder.TailQueue
import Ramryder.DeviceQueue
import Ramryder.ResourceClient
import Ramryder.MonitorLoop
import Ramryder.MonitorTransparency
import Ramryder.AttachCommand
import Ramryder.RequestCalls
import Ramryder.DetachCommand
import Ramryder.DetachRuns
import Ramryder.Visitors
import Ramryder.ConcurrentAttach
import Ramryder.VmLife
