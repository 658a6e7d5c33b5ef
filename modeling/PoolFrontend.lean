import PoolFrontend.CallbackProgram
import PoolFrontend.CallbackRuns
import PoolFrontend.CallbackTrace
import PoolFrontend.CallbackCommit
import PoolFrontend.Chunked
import PoolFrontend.MachineInt
import PoolFrontend.Json
import PoolFrontend.Config
import PoolFrontend.ConfigLoad
import PoolFrontend.Poolcore
import PoolFrontend.Server
import PoolFrontend.MainSetup
import PoolFrontend.NumericSettings
import PoolFrontend.RequestFields
import PoolFrontend.UserHandlers
import PoolFrontend.BackendHandlers
import PoolFrontend.FeePlanCodec
import PoolFrontend.Router
import PoolFrontend.Routing
import PoolFrontend.RequestIsolation
import PoolFrontend.ReplyFraming
import PoolFrontend.Endpoints
import PoolFrontend.OneAnswer
import PoolFrontend.RejectedRequests
import PoolFrontend.WriteAccess
import PoolFrontend.HistoryGrid
import PoolFrontend.UserIsolation
import PoolFrontend.CallbackActivation
import PoolFrontend.Connection
import PoolFrontend.ConnectionRuns
import PoolFrontend.ReplyLifetime
import PoolFrontend.ReadWindow
import PoolFrontend.Resumption
import PoolFrontend.Fragmentation
import PoolFrontend.IntervalGuard
import PoolFrontend.StringArguments
import PoolFrontend.ConfigOutcome
import PoolFrontend.ConfigSections
import PoolFrontend.ConfigAcceptance
import PoolFrontend.ConfigChecks
import PoolFrontend.ConfigFirstError
import PoolFrontend.StartUp
import PoolFrontend.SortedSearch
import PoolFrontend.SetupWiring
import PoolFrontend.Accessors
import PoolFrontend.ServerLookup
import PoolFrontend.ThreadPlan
import PoolFrontend.TailMove
import PoolFrontend.LuckIntervals
import PoolFrontend.AllCoins
import PoolFrontend.FeePlanGrammar
import PoolFrontend.NodeRpc
import PoolFrontend.CallbackReferences
import PoolFrontend.Lifetime
import PoolFrontend.AnswerCount
import PoolFrontend.Interleaving
import PoolFrontend.Listener
import PoolFrontend.PoolProcess
import PoolFrontend.ShutDown
import PoolFrontend.BlockExchange
import PoolFrontend.Getopt
import PoolFrontend.GetoptReading
import PoolFrontend.GetoptNames
import PoolFrontend.NodeMethods
import PoolFrontend.ReplyDecoding
import PoolFrontend.SetUpOutcome
import PoolFrontend.RecordedCalls
import PoolFrontend.SetUpCalls
import PoolFrontend.DocumentShape
import PoolFrontend.RequestShapes
import PoolFrontend.ConfigShapes
import PoolFrontend.AnswerOrder
import PoolFrontend.ClientCalls
