import InboxServer.Infra.Table
import InboxServer.Infra.Machine
import InboxServer.Infra.Prog
import InboxServer.Domain.QueueJob
import InboxServer.Domain.JobFailure
import InboxServer.Api.Policy
import InboxServer.Api.Tables
import InboxServer.Api.SyncJob
import InboxServer.Api.Env
import InboxServer.Api.Postgres.Commands
import InboxServer.Api.Postgres.Effects
import InboxServer.Api.Postgres.Replay
import InboxServer.Api.Postgres.Inbox
import InboxServer.Api.D1.Commands
import InboxServer.Api.Backend
import InboxServer.Properties.Effects
import InboxServer.Properties.Jobs
import InboxServer.Properties.Fencing
import InboxServer.Properties.Replays
import InboxServer.Properties.Envelopes
import InboxServer.Properties.Races
import InboxServer.Properties.RateLimits
import InboxServer.Properties.FailureBudget
import InboxServer.Properties.ReplayOnce
import InboxServer.Properties.Recovery
import InboxServer.Properties.Leases
import InboxServer.Api.D1.Limits
import InboxServer.Infra.Interleave
import InboxServer.Properties.BatchOrder
import InboxServer.Properties.BucketRaces
import InboxServer.Properties.LeaseRaces
import InboxServer.Properties.FinishRaces
import InboxServer.Properties.SyncRaces
import InboxServer.Properties.ReplayRaces
import InboxServer.Properties.SyncRequests
import InboxServer.Api.Postgres.Readiness
import InboxServer.Properties.Consistency
import InboxServer.Domain.CivilDate
import InboxServer.Domain.JsonText
import InboxServer.Domain.IsoDate
import InboxServer.Api.ReplayRoutes
import InboxServer.Properties.PlannedReplays
import InboxServer.Infra.Trace
import InboxServer.Domain.DedupeKey
import InboxServer.Worker.RateLimits
import InboxServer.Worker.JobHandler
import InboxServer.Worker.ArticleArchive
import InboxServer.Properties.HandlerEffects
import InboxServer.Properties.DispatchOrder
import InboxServer.Properties.DeliverOnce
import InboxServer.Properties.ArchivePhase
import InboxServer.Api.D1.Readiness
import InboxServer.Properties.DlqReports
import InboxServer.Api.Alerts
import InboxServer.Properties.Alerts
import InboxServer.Worker.Webhook
import InboxServer.Properties.WebhookDrain
import InboxServer.Properties.HeartbeatCache
import InboxServer.Scripts.ExportLegacyState
import InboxServer.Properties.LegacyExport
import InboxServer.Scripts.MigrateSnapshot
import InboxServer.Properties.RowDigests
import InboxServer.Properties.SnapshotMigration
import InboxServer.Worker.ArticleRepository
import InboxServer.Properties.FrontMatter
import InboxServer.Properties.RateDecisions
import InboxServer.Properties.ArticleDeferrals
import InboxServer.Api.QueueProducer
import InboxServer.Infra.Packing
import InboxServer.Properties.QueueBatches
import InboxServer.Properties.SyncOrder
import InboxServer.Infra.Expand
import InboxServer.Worker.CollectorParsers
import InboxServer.Worker.HttpCollectors
import InboxServer.Properties.CollectorRuns
import InboxServer.Properties.DidaRuns
import InboxServer.Properties.TelegramRuns
import InboxServer.Properties.AlertTruth
import InboxServer.Worker.QueueProcessor
import InboxServer.Api.Postgres.QueueStore
import InboxServer.Properties.StagedWork
import InboxServer.Properties.HandlerCalls
import InboxServer.Properties.QuotaCharges
import InboxServer.Properties.Retryability
import InboxServer.Release.Plan
import InboxServer.Release.Executor
import InboxServer.Properties.ReleaseEvidence
import InboxServer.Infra.FirstSeen
import InboxServer.Worker.ScrollExtract
import InboxServer.Properties.ScrollViews
import InboxServer.Worker.ImaMirror
import InboxServer.Properties.ImaListings
import InboxServer.Infra.Attempts
import InboxServer.Properties.ImaOnce
import InboxServer.Worker.ArchiveNames
import InboxServer.Properties.ArchiveNames
import InboxServer.Properties.LinkExtraction
import InboxServer.Worker.GitRepository
import InboxServer.Properties.ArticleSaves
import InboxServer.Infra.HttpUrl
import InboxServer.Worker.OutboundProxy
import InboxServer.Properties.ConnectAuthority
import InboxServer.Worker.PagedCollectors
import InboxServer.Properties.PagedRuns
import InboxServer.Api.Service
import InboxServer.Properties.BackendsAgree
import InboxServer.Properties.Health
import InboxServer.Worker.TextConsumer
import InboxServer.Properties.TextRetries
import InboxServer.Scripts.NormalizedPredicate
import InboxServer.Properties.NormalizedPredicate
import InboxServer.Domain.JsonParse
import InboxServer.Scripts.RepairFrontMatter
import InboxServer.Properties.FrontMatterRepair
import InboxServer.Release.Rehearsal
import InboxServer.Release.LegacyPlan
import InboxServer.Release.LegacyExecutor
import InboxServer.Properties.RehearsalCleanup
import InboxServer.Properties.SecretRedaction
import InboxServer.Release.StatePlan
import InboxServer.Release.StateExecutor
import InboxServer.Properties.StateRestore
import InboxServer.Domain.JsonTree
import InboxServer.Release.ManifestParser
import InboxServer.Properties.PlanHash
import InboxServer.Infra.FileTree
import InboxServer.Scripts.ArchiveLegacyVolumes
import InboxServer.Properties.VolumeArchives
import InboxServer.Infra.Upsert
import InboxServer.Infra.Throwing
import InboxServer.Api.LegacyMigration
import InboxServer.Properties.LegacyImports
import InboxServer.Infra.Inbound
import InboxServer.Worker.Socks
import InboxServer.Properties.SocksHandshake
