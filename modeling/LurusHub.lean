import LurusHub.TopupAgreement
import LurusHub.RefusedRequest
import LurusHub.OutboxSafety
import LurusHub.Perception
import LurusHub.DailyQuotaSafety
import LurusHub.ClaudeStreamTerminal
import LurusHub.ClaudeStreamContent
import LurusHub.ClaudeStreamOrder
import LurusHub.GeminiStream
import LurusHub.RelayFailover
import LurusHub.BreakerProbes
import LurusHub.AuditChainVerify
import LurusHub.ConcurrencyCap
import LurusHub.TaskInvoices
import LurusHub.PlanGrantOnce
import LurusHub.TokenRevocation
import LurusHub.RedisHash
import LurusHub.ClaudeReassembly
import LurusHub.ClaudeStreamUsage
import LurusHub.ContentGuardBypass
import LurusHub.ChatToClaudeFidelity
import LurusHub.ErasureProgress
import LurusHub.GeminiToolCalls
import LurusHub.LeaderElection
import LurusHub.PricingSafety
import LurusHub.RealtimeCharge
import LurusHub.ContextTiers
import LurusHub.FreezeReturn
import LurusHub.GeminiRequest
import LurusHub.KeyDeletion
import LurusHub.KeyExhaustion
import LurusHub.PoolDeletion
import LurusHub.PoolReaper
import LurusHub.SettlementSign
import LurusHub.UsageWires
import LurusHub.BusinessRateLimit
import LurusHub.ChannelDraw
import LurusHub.ModelRateLimit
import LurusHub.PollingRotation
import LurusHub.RoutingParity
import LurusHub.WeightedRotation
import LurusHub.CooldownVisible
import LurusHub.BankCards
import LurusHub.ClaudeAnswer
import LurusHub.DegradedSpend
import LurusHub.GeminiAnswer
import LurusHub.GeminiFinish
import LurusHub.MarkdownImages
import LurusHub.NegativeIndex
import LurusHub.SpendWindows
import LurusHub.TenantAdmins
import LurusHub.BatchUpdates
import LurusHub.UsageAggregator
import LurusHub.ModelRewrite
import LurusHub.UsageReplicas
import LurusHub.RoutingFallback
import LurusHub.GeminiSchema
import LurusHub.OpenRouterSync
