import Iptv.Lib.Machine
import Iptv.Lib.Census
import Iptv.Lib.Text
import Iptv.Lib.Interleaving
import Iptv.Lib.Heap
import Iptv.Lib.Arc
import Iptv.Manifest.LineReader
import Iptv.Manifest.LineEffects
import Iptv.Manifest.Summary
import Iptv.Manifest.SequenceNumbering
import Iptv.Manifest.PlaylistKinds
import Iptv.Manifest.UriAccounting
import Iptv.Manifest.PhysicalLines
import Iptv.Manifest.FirstOffence
import Iptv.Manifest.LayoutInvariance
import Iptv.Manifest.MediaRoundTrip
import Iptv.Manifest.MasterRoundTrip
import Iptv.Decoder.FlushDrain
import Iptv.Renderer.PresentationOrder
import Iptv.Renderer.BufferThreads
import Iptv.Renderer.BufferWakeup
import Iptv.Renderer.BoundedBuffer
import Iptv.Abr.AbrManager
import Iptv.Network.NetworkComponent
import Iptv.Player.UrlResolver
import Iptv.Player.Session
import Iptv.Player.Playable
import Iptv.Player.ServedRuns
import Iptv.Player.FastCancellation
import Iptv.Player.VodCompleteness
import Iptv.Player.GapFreeDelivery
import Iptv.Player.SequenceOrder
import Iptv.Player.AbsoluteUrls
import Iptv.Player.CurrentVariant
import Iptv.Player.PlaybackOrchestrator
import Iptv.Player.WorkerThreads
import Iptv.Player.SessionIsolation
import Iptv.Player.ThreadRefinement
import Iptv.Player.BandwidthEstimate
import Iptv.Concurrency.ConcurrentQueue
import Iptv.Concurrency.QueueWakeup
import Iptv.Concurrency.QueueLossless
import Iptv.Abr.AffordableSelection
import Iptv.Abr.BestVariant
import Iptv.Decoder.PacketDecoding
import Iptv.Decoder.MissingContext
import Iptv.Decoder.FFmpegAudioDecoder
import Iptv.Decoder.TimeBases
import Iptv.Renderer.ComparatorDomain
import Iptv.Player.UrlReferences
import Iptv.Manifest.UriBlocks
import Iptv.Manifest.OrphanUris
import Iptv.Manifest.DiscontinuityMarks
import Iptv.Manifest.StreamSettings
import Iptv.Manifest.VariantLocality
import Iptv.Abr.ConfirmedUpgrades
import Iptv.Abr.SteadyThroughput
import Iptv.Decoder.CorruptInput
import Iptv.Decoder.PacketTimestamps
import Iptv.Decoder.PlanePacking
import Iptv.Decoder.VisiblePicture
import Iptv.Network.RetryLoop
import Iptv.Network.Backoff
import Iptv.Network.HeaderCallback
import Iptv.Demux.TsDemuxer
import Iptv.Renderer.TimestampOrder
import Iptv.Decoder.VideoTimeline
import Iptv.Lib.Iterator
import Iptv.Manifest.AttributeRoundTrip
import Iptv.Manifest.AttributeViews
import Iptv.Manifest.LineIteration
import Iptv.Lib.CheckedSum
import Iptv.Main.ConsumerLoop
import Iptv.Main.FrameTotals
import Iptv.Lib.Product
import Iptv.Main.Program
import Iptv.Main.ProgramInvariant
import Iptv.Main.Shutdown
import Iptv.Main.ProgramRuns
import Iptv.Main.DecodedStreams
import Iptv.Main.Quiescence
import Iptv.Main.VodPlayback
import Iptv.Abr.Settling
import Iptv.Player.QualitySettling
import Iptv.Main.BundleIntegrity
import Iptv.Player.OriginConfinement
import Iptv.Manifest.Denotation
import Iptv.Main.SitePlayback
import Iptv.Main.StreamCompletion
