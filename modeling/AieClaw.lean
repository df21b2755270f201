import AieClaw.CommandQueueWaiters
import AieClaw.GatewayBridge
import AieClaw.AiemasSessionFrame
import AieClaw.AiemasSessionMirror
import AieClaw.AgentRegistryRouting
import AieClaw.TranscriptStoreIntegrity
import AieClaw.FollowupQueueDelivery
import AieClaw.FollowupQueueDraining
import AieClaw.AgentRegistryIsolation
import AieClaw.JsoncFindResolves
import AieClaw.TranscriptCodec
import AieClaw.TaskRegistryRestart
import AieClaw.TaskRegistryAnnouncements
import AieClaw.TaskFlowCancelRuns
import AieClaw.CronStoreRecovery
import AieClaw.HeartbeatWakeLiveness
import AieClaw.ToolUseRepairPairing
import AieClaw.DeviceBootstrapBinding
import AieClaw.PluginStateRuns
import AieClaw.AgentSessionIsolation
import AieClaw.RouteRuns
import AieClaw.ExecApprovalsRuns
import AieClaw.ConfigMutationRuns
import AieClaw.ConfigThreeWayMerge
import AieClaw.ConfigReload
import AieClaw.SopTracker
import AieClaw.SessionHistoryQuery
import AieClaw.ApprovalCards
import AieClaw.FollowupAuthorization
import AieClaw.AuthProfileCooldowns
import AieClaw.InboundDebounceRuns
import AieClaw.SystemRunApprovalUse
import AieClaw.SpawnedToolPolicies
import AieClaw.CronTimes
import AieClaw.LoginRateLimiter
import AieClaw.FrontmatterCodec
import AieClaw.ProgressWatcher
import AieClaw.JsonlReparse
import AieClaw.WindowsQuoting
import AieClaw.AllowlistArgPatterns
import AieClaw.SystemEvents
import AieClaw.DevicePairingGrants
import AieClaw.DurableCommandApprovals
import AieClaw.RegistryHeartbeat
import AieClaw.ExecApprovalsFrames
import AieClaw.TextChunking
import AieClaw.ApprovalsFilePolicy
import AieClaw.AuthRateLimiterLooks
import AieClaw.EmbeddedAddresses
