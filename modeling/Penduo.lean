import Penduo.Library.Runs
import Penduo.Library.BackReferences
import Penduo.Library.FiniteMap
import Penduo.Library.FifoQueue
import Penduo.Library.LeakyBucket
import Penduo.Library.TerminatedStrings
import Penduo.Library.OrderedSet
import Penduo.Assertions
import Penduo.CheckedBuilds
import Penduo.Channel
import Penduo.Poller
import Penduo.PollerTable
import Penduo.PollerRuns
import Penduo.ChannelReuse
import Penduo.DisabledChannels
import Penduo.EventLoop
import Penduo.LoopSteps
import Penduo.FunctorOrder
import Penduo.WakeupPipe
import Penduo.WakeupBacklog
import Penduo.SelfWakeup
import Penduo.EventLoopThread
import Penduo.LoopDestruction
import Penduo.Buffer
import Penduo.ConnectionInput
import Penduo.Timestamp
import Penduo.TimerQueue
import Penduo.TimerLoop
import Penduo.TimerRuns
import Penduo.TimerPass
import Penduo.RunAfter
import Penduo.TimerThread
import Penduo.TimerThreadDeadlock
import Penduo.TimerThreadWait
import Penduo.TimerThreadLife
import Penduo.TimerThreadStart
import Penduo.TimerThreadStop
import Penduo.TimerfdSimulation
import Penduo.TimerfdTargets
import Penduo.TimerfdTokens
import Penduo.TimerfdDelay
import Penduo.PollReports
import Penduo.PollCompleteness
import Penduo.Lifecycle
import Penduo.TcpConnection
import Penduo.TcpServer
import Penduo.DispatchPass
import Penduo.ServerLoop
import Penduo.UserCode
import Penduo.ServerInvariant
import Penduo.ConnectionSteps
import Penduo.ServerSteps
import Penduo.ServerRuns
import Penduo.UserCalls
import Penduo.ConnectionOwnership
import Penduo.AcceptErrors
import Penduo.ChannelOwners
import Penduo.ChannelsInUse
import Penduo.OwnerInvariant
import Penduo.OwnerSteps
import Penduo.ChannelRetirement
import Penduo.Ndebug
import Penduo.ReadOutcomes
import Penduo.TerminalConditions
import Penduo.ServerStart
import Penduo.RepeatedStart
import Penduo.Library.Deadlines
import Penduo.SimulatedLoop
import Penduo.TimerService
import Penduo.SimulatedTimers
import Penduo.LoopCalls
import Penduo.LoopRefinement
import Penduo.Library.Subscriptions
import Penduo.PollerInterest
import Penduo.Library.Monitor
import Penduo.StartLoop
import Penduo.Library.Potential
import Penduo.ResponseTime
import Penduo.TimerResponse
import Penduo.Library.ByteOrder
import Penduo.InetAddress
import Penduo.AddressText
import Penduo.SocketNames
import Penduo.LoopRegistry
import Penduo.TimerThreadAwait
import Penduo.Library.Generations
import Penduo.CallbackLoop
import Penduo.TimerThreadResponse
import Penduo.Library.SideBySide
import Penduo.ServerInput
