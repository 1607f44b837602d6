import WamrExt.Lib.SharedProgram
import WamrExt.Lib.Transition
import WamrExt.Lib.LockProgram
import WamrExt.Lib.HandleTable
import WamrExt.Lib.ByteMemory
import WamrExt.Lib.ByteRecord
import WamrExt.Lib.InverseMaps
import WamrExt.Lib.Descriptors
import WamrExt.Lib.FileActions
import WamrExt.Lib.LatestValue
import WamrExt.Lib.LeastScan
import WamrExt.Lib.PartialWalk
import WamrExt.Lib.ProgramCells
import WamrExt.Lib.RecordedRuns
import WamrExt.Lib.OrderedGroups
import WamrExt.Wamr.LinearMemory
import WamrExt.Syscall.Dispatch
import WamrExt.Syscall.PointerSlots
import WamrExt.Socket.PollOneOff
import WamrExt.Socket.PollContainment
import WamrExt.Socket.PollEvents
import WamrExt.Socket.PollMemory
import WamrExt.Socket.PollResults
import WamrExt.Socket.PollTimeouts
import WamrExt.Socket.PollReports
import WamrExt.Socket.PollTrueEvents
import WamrExt.Instance.Config
import WamrExt.Instance.Memory
import WamrExt.Instance.Lifecycle
import WamrExt.Instance.LoopTick
import WamrExt.Instance.TickOrder
import WamrExt.Instance.Reclaim
import WamrExt.Pthread.ThreadSpawn
import WamrExt.Pthread.SpawnFailure
import WamrExt.Pthread.Handshake
import WamrExt.Pthread.Publication
import WamrExt.Pthread.System
import WamrExt.Pthread.Cleanup
import WamrExt.Pthread.ManagerRuns
import WamrExt.Instance.MemoryLimit
import WamrExt.Instance.EnlargedLayout
import WamrExt.Instance.RepeatedStarts
import WamrExt.Pthread.ThreadIds
import WamrExt.Pthread.CleanupLoop
import WamrExt.Pthread.FinishedThreads
import WamrExt.Pthread.ExceptionSpread
import WamrExt.Instance.Callers
import WamrExt.Instance.CallsAlone
import WamrExt.Instance.CallersSafety
import WamrExt.Socket.IfAddrs
import WamrExt.Socket.MsgIOVec
import WamrExt.Socket.SockAddrBytes
import WamrExt.Socket.IfReport
import WamrExt.Socket.IfReportFill
import WamrExt.Process.SpawnArgv
import WamrExt.Socket.MsgEntries
import WamrExt.Syscall.ArrayArguments
import WamrExt.Socket.SockOpt
import WamrExt.Socket.SharedReads
import WamrExt.Socket.OptRoundTrip
import WamrExt.Base.Errno
import WamrExt.Process.ProcManager
import WamrExt.Process.ChildPipes
import WamrExt.Process.ChildTable
import WamrExt.Process.WaitPid
import WamrExt.Process.ChildReports
import WamrExt.Process.MapsInverse
import WamrExt.Process.WaitWords
import WamrExt.Process.WaitResults
import WamrExt.Syscall.Sysctl
import WamrExt.Socket.SockOpen
import WamrExt.Instance.OpenDescriptors
import WamrExt.Process.SpawnInherit
import WamrExt.Process.InheritedDescriptors
import WamrExt.Process.HostProgram
import WamrExt.Process.ActionWalk
import WamrExt.Process.Redirections
import WamrExt.Syscall.ScalarArguments
import WamrExt.Syscall.HostCalls
import WamrExt.Instance.HostCommands
import WamrExt.Instance.WasiArgs
import WamrExt.Instance.LockOrder
import WamrExt.Lib.LinkedList
import WamrExt.Process.SpawnFileActions
import WamrExt.Process.VendoredSpawn
import WamrExt.Process.SpawnAttributes
import WamrExt.App.DecimalLiteral
import WamrExt.App.ArgumentParser
import WamrExt.App.CommandLine
import WamrExt.App.MiniApp
import WamrExt.FS.RecordLocks
import WamrExt.Lib.BlockHeap
import WamrExt.Pthread.AuxStacks
import WamrExt.Lib.ScatterGather
import WamrExt.Socket.MsgTransfer
import WamrExt.Socket.SocketNames
import WamrExt.Lib.Owners
import WamrExt.Instance.ModuleLoad
import WamrExt.Instance.AllInstances
