import AsrServe.Reasoning.Runs
import AsrServe.Reasoning.Dict
import AsrServe.Reasoning.Selection
import AsrServe.Reasoning.ByteReads
import AsrServe.Reasoning.Pcm
import AsrServe.VadEdge.Xdp
import AsrServe.VadEdge.FrameGrammar
import AsrServe.VadEdge.VadModule
import AsrServe.VadEdge.Pipeline
import AsrServe.VadEdge.Stages
import AsrServe.DynamoOrchestration.Shim
import AsrServe.DynamoOrchestration.ShimFlow
import AsrServe.DynamoOrchestration.Nixl
import AsrServe.DynamoOrchestration.Transfers
import AsrServe.DynamoOrchestration.TtlEviction
import AsrServe.DynamoOrchestration.Registry
import AsrServe.DynamoOrchestration.Router
import AsrServe.DynamoOrchestration.RouterSafety
import AsrServe.DynamoOrchestration.Worker
import AsrServe.DynamoOrchestration.WorkerLoad
import AsrServe.AgenticFactory.AgentHints
import AsrServe.AgenticFactory.Evaluator
import AsrServe.AgenticFactory.Promotion
import AsrServe.AgenticFactory.EvictionScheduler
import AsrServe.DynamoOrchestration.Retry
import AsrServe.DynamoOrchestration.InFlight
import AsrServe.DynamoOrchestration.Handover
import AsrServe.DynamoOrchestration.Shutdown
import AsrServe.DynamoOrchestration.FabricTable
import AsrServe.AgenticFactory.HintsStore
import AsrServe.AgenticFactory.HintBounds
import AsrServe.VadEdge.Loader
import AsrServe.VadEdge.PipelineRun
import AsrServe.VadEdge.VadExec
import AsrServe.VadEdge.VerdictHistory
import AsrServe.AgenticFactory.HintLog
import AsrServe.AgenticFactory.McpTools
import AsrServe.Inference.Worker
import AsrServe.AgenticFactory.EditDistance
import AsrServe.AgenticFactory.ErrorRates
import AsrServe.VadEdge.VadExact
import AsrServe.AgenticFactory.EvictionReentrancy
import AsrServe.DynamoOrchestration.TransferAccounting
import AsrServe.DynamoOrchestration.Registration
import AsrServe.DynamoOrchestration.BatchLatency
import AsrServe.Reasoning.DictLog
import AsrServe.DynamoOrchestration.RegistryLog
import AsrServe.DynamoOrchestration.Percentile
import AsrServe.AgenticFactory.JsonValue
import AsrServe.AgenticFactory.SetHint
import AsrServe.AgenticFactory.NatAgent
import AsrServe.AgenticFactory.WordsAndChars
import AsrServe.DynamoOrchestration.Headroom
import AsrServe.VadEdge.Telemetry
import AsrServe.AgenticFactory.RecentHistory
import AsrServe.Reasoning.Double
import AsrServe.Reasoning.Rounding
import AsrServe.AgenticFactory.McpServer
import AsrServe.VadEdge.Wasmtime
import AsrServe.Reasoning.Monitor
import AsrServe.AgenticFactory.HintThreads
import AsrServe.AgenticFactory.StoreThreads
import AsrServe.AgenticFactory.SchedulerThreads
import AsrServe.AgenticFactory.NatLoop
import AsrServe.AgenticFactory.NatRounds
import AsrServe.AgenticFactory.EvaluationRun
import AsrServe.VadEdge.EdgeTier
import AsrServe.DynamoOrchestration.Lifecycle
import AsrServe.Inference.Serving
import AsrServe.Inference.Headers
import AsrServe.Reasoning.JsonText
import AsrServe.Reasoning.JsonWriter
import AsrServe.AgenticFactory.HintsText
import AsrServe.Inference.ClosedLoop
import AsrServe.DynamoOrchestration.Drain
import AsrServe.AgenticFactory.EvictionLoop
import AsrServe.AgenticFactory.AgentTools
