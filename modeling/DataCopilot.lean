import DataCopilot.Library.Transition
import DataCopilot.Library.Versioned
import DataCopilot.Sql.Guard
import DataCopilot.Sql.TableScope
import DataCopilot.Library.Dict
import DataCopilot.Sql.ColumnScope
import DataCopilot.Agent.Answering
import DataCopilot.Library.Effect
import DataCopilot.Sql.Metadata
import DataCopilot.Agent.Models
import DataCopilot.Agent.Prompts
import DataCopilot.Agent.State
import DataCopilot.Agent.Actions
import DataCopilot.Agent.Graph
import DataCopilot.Agent.Workflow
import DataCopilot.Agent.Authorisation
import DataCopilot.Agent.ApprovalGate
import DataCopilot.Agent.Replay
import DataCopilot.Platform.Job
import DataCopilot.Platform.Services
import DataCopilot.Platform.Transactions
import DataCopilot.Platform.Finality
import DataCopilot.Platform.Runs
import DataCopilot.Platform.Consistency
import DataCopilot.Agent.Pass
import DataCopilot.Platform.Joint
import DataCopilot.Platform.Decisions
import DataCopilot.Agent.StartRace
import DataCopilot.Platform.Atomicity
import DataCopilot.Platform.Attendance
import DataCopilot.Platform.Worker
import DataCopilot.Agent.Course
import DataCopilot.Agent.Provenance
import DataCopilot.Sql.QueryShape
import DataCopilot.Query.SafeQuery
import DataCopilot.Query.Answer
import DataCopilot.Query.AuditLoss
import DataCopilot.Agent.Telemetry
import DataCopilot.Agent.Noninterference
import DataCopilot.Library.UniqueIndex
import DataCopilot.Platform.Creation
import DataCopilot.Platform.Idempotency
import DataCopilot.Platform.Publication
import DataCopilot.Platform.EventStream
import DataCopilot.Platform.JobEnd
import DataCopilot.Library.Split
import DataCopilot.Library.Utf8
import DataCopilot.Web.Sse
import DataCopilot.Web.Resumption
import DataCopilot.Library.Loop
import DataCopilot.Library.Windows
import DataCopilot.Retrieval.Chunks
import DataCopilot.Retrieval.Markdown
import DataCopilot.Retrieval.Citations
import DataCopilot.Query.Executor
import DataCopilot.KnowledgeGraph.Models
import DataCopilot.KnowledgeGraph.Prompts
import DataCopilot.KnowledgeGraph.PromptBounds
import DataCopilot.KnowledgeGraph.Extraction
import DataCopilot.Platform.Publishing
import DataCopilot.Platform.Subscribers
import DataCopilot.Agent.Failing
import DataCopilot.Library.Like
import DataCopilot.Library.Paging
import DataCopilot.Platform.JobSearch
import DataCopilot.Platform.JobPages
import DataCopilot.Retrieval.Replacement
import DataCopilot.Retrieval.ReplaceSteps
import DataCopilot.Retrieval.Overtaking
import DataCopilot.Library.Revision
import DataCopilot.Retrieval.Cache
import DataCopilot.Retrieval.Retrieving
import DataCopilot.Retrieval.Transparency
import DataCopilot.Retrieval.CacheTransparency
import DataCopilot.Library.RankFusion
import DataCopilot.Retrieval.Fusion
import DataCopilot.Library.PyValue
import DataCopilot.Retrieval.Providers
import DataCopilot.Retrieval.Reranking
import DataCopilot.Retrieval.Embedding
import DataCopilot.Query.Generate
import DataCopilot.Query.RetryBudget
import DataCopilot.Query.Accounting
import DataCopilot.Agent.HiddenColumns
import DataCopilot.KnowledgeGraph.Persist
import DataCopilot.KnowledgeGraph.GraphRuns
import DataCopilot.KnowledgeGraph.Repository
import DataCopilot.Retrieval.ParseErrors
import DataCopilot.Library.Blocks
import DataCopilot.Web.Chunking
import DataCopilot.KnowledgeGraph.Truncation
import DataCopilot.KnowledgeGraph.Paths
import DataCopilot.KnowledgeGraph.SchemaImport
import DataCopilot.KnowledgeGraph.SchemaQuotes
import DataCopilot.Agent.Chronology
import DataCopilot.Library.Replays
import DataCopilot.Platform.AgentSteps
import DataCopilot.Agent.StepKeys
import DataCopilot.Library.Pattern
import DataCopilot.Platform.TraceContext
import DataCopilot.Agent.TraceIdentity
import DataCopilot.Library.Script
import DataCopilot.Query.Scripted
import DataCopilot.Evaluation.Runner
import DataCopilot.Query.Asking
import DataCopilot.Evaluation.Replay
import DataCopilot.Evaluation.GoldReplay
import DataCopilot.Library.Isolation
import DataCopilot.Retrieval.Isolation
import DataCopilot.Retrieval.Searching
import DataCopilot.Retrieval.Tenants
import DataCopilot.Library.Metering
import DataCopilot.Platform.Intelligence
import DataCopilot.Platform.Forwarding
import DataCopilot.KnowledgeGraph.StoreRefinement
import DataCopilot.KnowledgeGraph.Answer
import DataCopilot.Library.Canonical
import DataCopilot.Library.Grouping
import DataCopilot.Sql.Introspection
import DataCopilot.Sql.SchemaVersion
import DataCopilot.Library.Lease
import DataCopilot.Platform.DispatchLease
import DataCopilot.Platform.LeaseExclusion
import DataCopilot.Library.CheckInsert
import DataCopilot.Library.Decimal
import DataCopilot.Platform.DataSources
import DataCopilot.Platform.Registrations
import DataCopilot.Library.Percent
import DataCopilot.Web.Proxy
import DataCopilot.Web.ProxyPath
import DataCopilot.Library.Binary64
