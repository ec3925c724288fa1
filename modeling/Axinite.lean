import Axinite.Approval.Chain
import Axinite.Channels.ChannelHttp
import Axinite.Channels.EmitRateLimiter
import Axinite.Channels.WebhookAuthentication
import Axinite.Context.ParallelLimit
import Axinite.CostGuard.HourlyBound
import Axinite.Hooks.Registry
import Axinite.Llm.CircuitBreaker
import Axinite.Llm.ResponseCache
import Axinite.Llm.Sanitize
import Axinite.Mcp.Routing
import Axinite.Net.HostPatterns
import Axinite.Orchestrator.JobMonitor
import Axinite.Orchestrator.StoredStatus
import Axinite.Pairing.Admission
import Axinite.Routines.Cooldown
import Axinite.Routines.Limits
import Axinite.Routines.Statistics
import Axinite.Safety.SafetyLayer
import Axinite.Scheduler.Bookkeeping
import Axinite.Scheduler.TokenCap
import Axinite.Session.CallIds
import Axinite.SessionManager.Resolution
import Axinite.Skills.Attenuation
import Axinite.Skills.Bundle
import Axinite.Skills.Escape
import Axinite.Submissions.ApprovalState
import Axinite.Submissions.AtMostOnce
import Axinite.Submissions.Resume
import Axinite.Tools.HostLog
import Axinite.Tools.RateLimiter
import Axinite.Tools.ReadFile
import Axinite.Tools.ResponseBody
import Axinite.Tools.ShellPolicy
import Axinite.Worker.Signals
import Axinite.Worker.ToolPipeline
import Axinite.Workspace.Chunker
import Axinite.Workspace.Files
import Axinite.Workspace.Search
