import NewApi.Model.AffinityFailures
import NewApi.Model.BodyStorage
import NewApi.Model.CacheSnapshot
import NewApi.Model.ChatToResponses
import NewApi.Model.Checkin
import NewApi.Model.ClaudeProtocols
import NewApi.Model.ClaudeRequestToChat
import NewApi.Model.ClaudeStreamTotal
import NewApi.Model.ClaudeStreamUsage
import NewApi.Model.ClaudeWholeMessage
import NewApi.Model.ConfigMap
import NewApi.Model.ConversionFaithful
import NewApi.Model.DiskCache
import NewApi.Model.FreeModel
import NewApi.Model.GeminiConversion
import NewApi.Model.GroupBilling
import NewApi.Model.ItemisedFees
import NewApi.Model.KeepOrigin
import NewApi.Model.KeyAppend
import NewApi.Model.KeyPolling
import NewApi.Model.Lockstep
import NewApi.Model.MappedAttempts
import NewApi.Model.ModelRateLimit
import NewApi.Model.MoveValue
import NewApi.Model.OaiStreamRepeats
import NewApi.Model.OpenAIToGemini
import NewApi.Model.OverrideFormat
import NewApi.Model.PanicUnwind
import NewApi.Model.PollChanges
import NewApi.Model.PollSurvival
import NewApi.Model.RatioTables
import NewApi.Model.Redemption
import NewApi.Model.RedisCache
import NewApi.Model.ResponsesAgreement
import NewApi.Model.Revocation
import NewApi.Model.SsrfProtection
import NewApi.Model.StatusCodeRanges
import NewApi.Model.StreamScanner
import NewApi.Model.TaskRate
import NewApi.Model.ThinkingContent
import NewApi.Model.TokenMark
import NewApi.Model.TokenTopUp
import NewApi.Model.TopUpStatus
import NewApi.Model.Trust
import NewApi.Model.TwoFA
import NewApi.Model.UsageData
import NewApi.Model.UserCache
import NewApi.Model.VolcSession
import NewApi.Model.WeightedSelection
