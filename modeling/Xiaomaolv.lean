import Xiaomaolv.Lib.Batches
import Xiaomaolv.Lib.Closure
import Xiaomaolv.Lib.Coalesce
import Xiaomaolv.Lib.Decimal
import Xiaomaolv.Lib.Emitter
import Xiaomaolv.Lib.EventStream
import Xiaomaolv.Lib.FileTree
import Xiaomaolv.Lib.FixedWidth
import Xiaomaolv.Lib.Framed
import Xiaomaolv.Lib.HeadOfLine
import Xiaomaolv.Lib.Interleave
import Xiaomaolv.Lib.JsonGrammar
import Xiaomaolv.Lib.Lease
import Xiaomaolv.Lib.Linked
import Xiaomaolv.Lib.Machine
import Xiaomaolv.Lib.Memo
import Xiaomaolv.Lib.Metered
import Xiaomaolv.Lib.Packing
import Xiaomaolv.Lib.Ranking
import Xiaomaolv.Lib.Replace
import Xiaomaolv.Lib.Scanner
import Xiaomaolv.Lib.Sequential
import Xiaomaolv.Lib.Table
import Xiaomaolv.Lib.Tally
import Xiaomaolv.Lib.Toposort
import Xiaomaolv.Lib.Utf8
import Xiaomaolv.Loop.Artifacts
import Xiaomaolv.Loop.Attempts
import Xiaomaolv.Loop.Batches
import Xiaomaolv.Loop.Budget
import Xiaomaolv.Loop.Commits
import Xiaomaolv.Loop.Confirmations
import Xiaomaolv.Loop.Data
import Xiaomaolv.Loop.Dataflow
import Xiaomaolv.Loop.Dependencies
import Xiaomaolv.Loop.Domain
import Xiaomaolv.Loop.Exclusion
import Xiaomaolv.Loop.Extension
import Xiaomaolv.Loop.Finish
import Xiaomaolv.Loop.Frames
import Xiaomaolv.Loop.Gate
import Xiaomaolv.Loop.GoalLife
import Xiaomaolv.Loop.Goals
import Xiaomaolv.Loop.Handback
import Xiaomaolv.Loop.Ingestion
import Xiaomaolv.Loop.Json
import Xiaomaolv.Loop.Layers
import Xiaomaolv.Loop.Life
import Xiaomaolv.Loop.Lives
import Xiaomaolv.Loop.Normalization
import Xiaomaolv.Loop.Numbers
import Xiaomaolv.Loop.Ownership
import Xiaomaolv.Loop.Phases
import Xiaomaolv.Loop.Progress
import Xiaomaolv.Loop.Propagation
import Xiaomaolv.Loop.ProviderBudget
import Xiaomaolv.Loop.Refine
import Xiaomaolv.Loop.Replay
import Xiaomaolv.Loop.Review
import Xiaomaolv.Loop.Revisions
import Xiaomaolv.Loop.SelfTest
import Xiaomaolv.Loop.Signals
import Xiaomaolv.Loop.Store
import Xiaomaolv.Loop.Terminal
import Xiaomaolv.Loop.Txn
import Xiaomaolv.Loop.Uncertain
import Xiaomaolv.Loop.Unfinished
import Xiaomaolv.Loop.WellFormed
import Xiaomaolv.Loop.Worker
import Xiaomaolv.Swarm.CallBudget
import Xiaomaolv.Swarm.CrashRetry
import Xiaomaolv.Swarm.Delegation
import Xiaomaolv.Swarm.InputSize
import Xiaomaolv.Swarm.Nodes
import Xiaomaolv.Swarm.OutcomeSize
import Xiaomaolv.Swarm.Permits
import Xiaomaolv.Evolution.Approvals
import Xiaomaolv.Evolution.Cache
import Xiaomaolv.Evolution.Completion
import Xiaomaolv.Evolution.Cursors
import Xiaomaolv.Evolution.Data
import Xiaomaolv.Evolution.Deployments
import Xiaomaolv.Evolution.Engine
import Xiaomaolv.Evolution.Evaluation
import Xiaomaolv.Evolution.Evidence
import Xiaomaolv.Evolution.Gate
import Xiaomaolv.Evolution.Promotion
import Xiaomaolv.Evolution.Resumption
import Xiaomaolv.Evolution.Scoring
import Xiaomaolv.Evolution.Serial
import Xiaomaolv.Evolution.Store
import Xiaomaolv.Telegram.Admissions
import Xiaomaolv.Telegram.Delivery
import Xiaomaolv.Telegram.Finalize
import Xiaomaolv.Telegram.GroupGate
import Xiaomaolv.Telegram.Markdown
import Xiaomaolv.Telegram.MarkdownV2
import Xiaomaolv.Telegram.Outbound
import Xiaomaolv.Telegram.OutboundDrain
import Xiaomaolv.Telegram.OutboundGuarantees
import Xiaomaolv.Telegram.OutboundQueue
import Xiaomaolv.Telegram.Polling
import Xiaomaolv.Telegram.Rendering
import Xiaomaolv.Telegram.Scheduler
import Xiaomaolv.Telegram.SchedulerConfirmations
import Xiaomaolv.Telegram.SchedulerDrafts
import Xiaomaolv.Telegram.SchedulerOccurrences
import Xiaomaolv.Telegram.SchedulerPlans
import Xiaomaolv.Telegram.SchedulerPolicy
import Xiaomaolv.Telegram.SchedulerQuota
import Xiaomaolv.Telegram.SchedulerResumes
import Xiaomaolv.Telegram.SchedulerSystem
import Xiaomaolv.Telegram.SchedulerTracking
import Xiaomaolv.Telegram.ThinkBlocks
import Xiaomaolv.Provider.Circuits
import Xiaomaolv.Provider.ErrorBodies
import Xiaomaolv.Provider.Failover
import Xiaomaolv.Provider.Messages
import Xiaomaolv.Provider.Stream
import Xiaomaolv.Mcp.Requests
import Xiaomaolv.Mcp.Responses
import Xiaomaolv.Mcp.Sessions
import Xiaomaolv.Service.CodeMode
import Xiaomaolv.Service.CodeModeChunks
import Xiaomaolv.Service.CodeModeCircuit
import Xiaomaolv.Service.CodeModeExecutor
import Xiaomaolv.Service.CompactionCache
import Xiaomaolv.Service.Compactor
import Xiaomaolv.Service.ContextBudget
import Xiaomaolv.Service.JsonPayload
import Xiaomaolv.Service.McpLoop
import Xiaomaolv.Service.OutputExit
import Xiaomaolv.Service.ReplyFeedback
import Xiaomaolv.Service.SkillPaths
import Xiaomaolv.Service.SkillPrompt
import Xiaomaolv.Service.ToolProtocol
import Xiaomaolv.Service.ToolReplies
import Xiaomaolv.Service.TrajectoryCapture
import Xiaomaolv.Service.Turn
import Xiaomaolv.Http.ConfigSave
import Xiaomaolv.Http.EnvFile
import Xiaomaolv.Http.EventStream
import Xiaomaolv.Http.GoalSubmission
import Xiaomaolv.Http.RateLimiter
import Xiaomaolv.Memory.Merge
import Xiaomaolv.Memory.Outbox
