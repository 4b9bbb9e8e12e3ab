import Sv2Apps.Lib.Runs
import Sv2Apps.Lib.RecentWindow
import Sv2Apps.Lib.KeyMap
import Sv2Apps.Lib.WeightedMap
import Sv2Apps.Lib.LeastElement
import Sv2Apps.Jds.TokenLedger
import Sv2Apps.Jds.TokenLifecycle
import Sv2Apps.Lib.Sha256
import Sv2Apps.Jds.DeclaredJobMatch
import Sv2Apps.Jds.CoinbaseReconstruction
import Sv2Apps.Payout
import Sv2Apps.CoinbaseOutputConstraints
import Sv2Apps.Payout.ReservedOutputs
import Sv2Apps.FallbackCoordinator
import Sv2Apps.Pool.CustomJobs
import Sv2Apps.Jds.AcceptedJobs
import Sv2Apps.Jds.RejectedDeclarations
import Sv2Apps.Jds.MerklePath
import Sv2Apps.Jds.TokenBinding
import Sv2Apps.Jds.CleanupRaces
import Sv2Apps.ChannelsSv2
import Sv2Apps.Pool.ChannelManager
import Sv2Apps.Pool.PayoutBinding
import Sv2Apps.Pool.TemplatePairing
import Sv2Apps.Jdc.ChannelManager
import Sv2Apps.Jdc.MessageLoop
import Sv2Apps.Jdc.HandlerSpecs
import Sv2Apps.Jdc.TokenDiscipline
import Sv2Apps.Jdc.CalmMessages
import Sv2Apps.Jdc.PendingOpens
import Sv2Apps.Jdc.OpenChannels
import Sv2Apps.Jdc.JobTemplates
import Sv2Apps.Jdc.ShareLedger
import Sv2Apps.Jdc.PoolChannel
import Sv2Apps.Jdc.CachedShares
import Sv2Apps.Jdc.DeclaredJobStore
import Sv2Apps.Jdc.ExtranonceLayout
import Sv2Apps.Jdc.LayoutChanges
import Sv2Apps.Jdc.LayoutRuns
import Sv2Apps.Jdc.UpstreamTargets
import Sv2Apps.Jdc.OutputsKept
import Sv2Apps.Jdc.CoinbaseOutputs
import Sv2Apps.Lib.Fallible
import Sv2Apps.Translator.Channels
import Sv2Apps.Lib.OverflowChecks
import Sv2Apps.Payout.Verification
import Sv2Apps.Translator.ReferenceChannels
import Sv2Apps.Translator.ChannelManager
import Sv2Apps.Translator.GroupMembership
import Sv2Apps.Translator.GroupReplacement
import Sv2Apps.Translator.SearchSpace
import Sv2Apps.Translator.ExtranonceLayout
import Sv2Apps.Translator.ShareReconstruction
import Sv2Apps.Translator.DownstreamLifecycle
import Sv2Apps.Translator.OpeningRace
import Sv2Apps.BitcoinCore.MirrorBounds
import Sv2Apps.BitcoinCore.DeclaredTransactions
import Sv2Apps.BitcoinCore.MissingTransactions
import Sv2Apps.BitcoinCore.StagedTransactions
import Sv2Apps.BitcoinCore.ReservedWeight
import Sv2Apps.BitcoinCore.TemplateDistribution
import Sv2Apps.BitcoinCore.TemplateTasks
import Sv2Apps.BitcoinCore.TemplateRetention
import Sv2Apps.BitcoinCore.TemplateRequests
import Sv2Apps.BitcoinCore.PublicationOrder
import Sv2Apps.BitcoinCore.TemplateCoverage
import Sv2Apps.BitcoinCore.RetainedJobs
import Sv2Apps.BitcoinCore.SolutionArchive
import Sv2Apps.BitcoinCore.JobDeclaration
import Sv2Apps.Translator.Sv1Jobs
import Sv2Apps.Translator.JobStore
import Sv2Apps.Translator.Keepalives
import Sv2Apps.Translator.Sv1Server
import Sv2Apps.Translator.MinerMaps
import Sv2Apps.Translator.VardiffTargets
import Sv2Apps.Translator.Downstream
import Sv2Apps.Translator.DifficultyAgreement
import Sv2Apps.Translator.AcceptedShares
import Sv2Apps.Translator.UserIdentities
import Sv2Apps.Translator.ChannelCloses
import Sv2Apps.Jdc.ShareCache
import Sv2Apps.Monitoring.ExportedMetrics
import Sv2Apps.Extensions.Negotiation
import Sv2Apps.Extensions.Agreement
import Sv2Apps.Extensions.Outcomes
import Sv2Apps.Extensions.WorkerNames
import Sv2Apps.Lib.Failover
import Sv2Apps.SetupConnection
import Sv2Apps.Translator.Runtime
import Sv2Apps.Jdc.Runtime
import Sv2Apps.Pool.Difficulty
import Sv2Apps.Pool.TargetHandlers
import Sv2Apps.Pool.WatchedChannels
import Sv2Apps.Pool.ToldTargets
import Sv2Apps.Lib.BlockReader
import Sv2Apps.Network.NoiseStream
import Sv2Apps.Network.ByteStream
import Sv2Apps.Network.IoTasks
import Sv2Apps.Network.FrameOrder
import Sv2Apps.Network.Teardown
import Sv2Apps.Network.Settling
import Sv2Apps.Jdc.PrevHashVisits
import Sv2Apps.Jdc.JobNumbers
