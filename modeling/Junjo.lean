import Junjo.Core.Lists
import Junjo.Core.Dict
import Junjo.Core.Statements
import Junjo.Core.Run
import Junjo.Core.Prog
import Junjo.Core.Lru
import Junjo.Core.Text
import Junjo.Core.Encode
import Junjo.Core.Json
import Junjo.Core.Layers
import Junjo.Permissions.Keys
import Junjo.Permissions.Context
import Junjo.Permissions.ContextRules
import Junjo.Permissions.ShapeCorrect
import Junjo.Permissions.Resolve
import Junjo.Permissions.Precedence
import Junjo.Permissions.SourceBest
import Junjo.Permissions.ResolveCorrect
import Junjo.Permissions.Transfer
import Junjo.Permissions.Tables
import Junjo.Permissions.Loads
import Junjo.Sdk.Context
import Junjo.Sdk.ContextRules
import Junjo.Sdk.SearchCorrect
import Junjo.Sdk.InheritanceReaders
import Junjo.Sdk.InheritanceCorrect
import Junjo.Sdk.CanonicalCorrect
import Junjo.Sdk.Resolver
import Junjo.Core.Memo
import Junjo.Sdk.Candidates
import Junjo.Sdk.Matching
import Junjo.Sdk.Checker
import Junjo.Sdk.CheckerCorrect
import Junjo.Sdk.Agreement
import Junjo.Sdk.Served
import Junjo.Permissions.LoadsCorrect
import Junjo.Cache.PermissionCache
import Junjo.Cache.CacheCorrect
import Junjo.Groups.Rows
import Junjo.Permissions.CheckHandler
import Junjo.Cache.Coherence
import Junjo.Permissions.ModeSwitch
import Junjo.Permissions.ModeSwitchCorrect
import Junjo.Core.Chains
import Junjo.Core.Transactions
import Junjo.Permissions.RoleGraph
import Junjo.Permissions.RoleWrites
import Junjo.Permissions.RoleWritesCorrect
import Junjo.Groups.ParentCycle
import Junjo.Groups.ParentCycleCorrect
import Junjo.Core.Addresses
import Junjo.Webhooks.IpGuard
import Junjo.Webhooks.Delivery
import Junjo.Webhooks.DeliveryCorrect
import Junjo.Webhooks.Attempts
import Junjo.Webhooks.Failures
import Junjo.Webhooks.Worker
import Junjo.Webhooks.WorkerCorrect
import Junjo.Events.EventLog
import Junjo.Events.LogWrites
import Junjo.Events.GameFeed
import Junjo.Events.GameFeedCorrect
import Junjo.Events.GameStreamsCorrect
import Junjo.Requests.Idempotency
import Junjo.Requests.IdempotencyCorrect
import Junjo.Sdk.WriteQueue
import Junjo.Sdk.WriteQueueCorrect
import Junjo.Moderation.Store
import Junjo.Moderation.Writes
import Junjo.Moderation.WritesCorrect
import Junjo.Moderation.Reads
import Junjo.Moderation.ReadsCorrect
import Junjo.Members.Store
import Junjo.Members.Writes
import Junjo.Members.Steps
import Junjo.Members.WritesCorrect
import Junjo.Members.ImportCorrect
import Junjo.Members.Runs
import Junjo.Members.InvitationsCorrect
import Junjo.Members.BansCorrect
import Junjo.Members.Replay
import Junjo.Members.VersionsCorrect
import Junjo.Identities.People
import Junjo.Identities.MergeCorrect
import Junjo.Identities.Formats
import Junjo.Identities.Store
import Junjo.Identities.Writes
import Junjo.Identities.FormatsCorrect
import Junjo.Identities.LinksCorrect
import Junjo.Mirror.State
import Junjo.Mirror.Applier
import Junjo.Mirror.PositionCorrect
import Junjo.Mirror.Retention
import Junjo.Mirror.RetentionCorrect
import Junjo.Core.Fips180
import Junjo.Cpp.HmacSha256
import Junjo.Cpp.HmacSha256Correct
import Junjo.Core.Utf8
import Junjo.Core.Framing
import Junjo.Sdk.SseFrames
import Junjo.Sdk.SseStream
import Junjo.Cpp.SseParser
import Junjo.Sdk.SseReader
import Junjo.Sdk.SseCorrect
import Junjo.Core.IsoDate
import Junjo.Core.JsonText
import Junjo.Core.Keyset
import Junjo.Export.Store
import Junjo.Export.Records
import Junjo.Export.RecordsCorrect
import Junjo.Export.ExportGame
import Junjo.Export.ExportGameCorrect
import Junjo.Core.TokenBucket
import Junjo.Requests.RateLimit
import Junjo.Requests.RateLimitCorrect
import Junjo.Friends.Store
import Junjo.Friends.Writes
import Junjo.Friends.CapsCorrect
import Junjo.Core.SetChange
import Junjo.React.ListHook
import Junjo.React.UseMembers
import Junjo.React.UseInvitations
import Junjo.React.RollbackCorrect
import Junjo.React.MembersView
import Junjo.React.MembersCorrect
import Junjo.React.MembersRuns
import Junjo.Activity.LastActivity
import Junjo.Activity.LastActivityCorrect
import Junjo.Core.KeysetPages
import Junjo.Lists.NewestFirst
import Junjo.Lists.WalksCorrect
import Junjo.Client.SharedRequests
import Junjo.Client.PermissionCache
import Junjo.Client.Checks
import Junjo.Client.ChecksCorrect
import Junjo.Client.Origins
import Junjo.React.PermissionCache
import Junjo.React.PermissionCorrect
import Junjo.React.StreamHub
import Junjo.React.SubscriptionHub
import Junjo.React.GameEventsHub
import Junjo.React.StreamHubCorrect
import Junjo.React.HubsCorrect
import Junjo.Sdk.RoleCycle
import Junjo.Core.RowVersions
import Junjo.Friends.SetTags
import Junjo.Friends.SetTagsCorrect
import Junjo.Core.Callbacks
import Junjo.Core.IsoParse
import Junjo.Events.GroupEvents
import Junjo.Sdk.EventDecode
import Junjo.Sdk.EventDecodeCorrect
import Junjo.Sdk.Subscribe
import Junjo.Cpp.Subscription
import Junjo.Events.SubscriptionsCorrect
import Junjo.Events.GroupStreams
import Junjo.Events.GroupStreamsCorrect
import Junjo.Permissions.Inherited
import Junjo.Permissions.InheritedCorrect
import Junjo.Core.Ascii
import Junjo.Core.ConstantTime
import Junjo.Cpp.Webhooks
import Junjo.Cpp.WebhooksCorrect
import Junjo.Webhooks.Signing
import Junjo.Sdk.Webhooks
import Junjo.Webhooks.SigningCorrect
import Junjo.Core.Crc32
import Junjo.Sdk.Journal
import Junjo.Sdk.JournalCorrect
import Junjo.Sdk.JournalRuns
