import MbmsMiddleware.PlaylistText
import MbmsMiddleware.Largest
import MbmsMiddleware.GeneratedEntries
import MbmsMiddleware.PlaylistEvolution
import MbmsMiddleware.RetrievableSegments
import MbmsMiddleware.BroadcastData
import MbmsMiddleware.ServableVariants
import MbmsMiddleware.Redelivery
import MbmsMiddleware.AnnouncementStart
import MbmsMiddleware.RestReplies
import MbmsMiddleware.ReplySnapshots
import MbmsMiddleware.SegmentDownloads
import MbmsMiddleware.ManifestAgeing
import MbmsMiddleware.MalformedPlaylists
import MbmsMiddleware.Registration
import MbmsMiddleware.PairingRuns
import MbmsMiddleware.Isolation
import MbmsMiddleware.AnnouncedOwners
import MbmsMiddleware.Truncation
import MbmsMiddleware.SizeLimit
import MbmsMiddleware.WindowCache
import MbmsMiddleware.PrimaryRoundTrip
import MbmsMiddleware.PrimaryDocuments
import MbmsMiddleware.MediaDocuments
import MbmsMiddleware.SdpRuns
import MbmsMiddleware.SdpDocuments
import MbmsMiddleware.ManifestAttributes
import MbmsMiddleware.TickReplies
import MbmsMiddleware.ManifestLookup
import MbmsMiddleware.CompressedAnnouncements
import MbmsMiddleware.PlaylistDirectory
import MbmsMiddleware.LastWrites
import MbmsMiddleware.BroadcastMethods
import MbmsMiddleware.ClassifiedDelivery
import MbmsMiddleware.SystemRuns
import MbmsMiddleware.PlainStream
import MbmsMiddleware.StreamViews
import MbmsMiddleware.ListedWindow
import MbmsMiddleware.SystemStreams
import MbmsMiddleware.Provenance
import MbmsMiddleware.ServedBytes
import MbmsMiddleware.ListedSegments
import MbmsMiddleware.SegmentLives
import MbmsMiddleware.HeldFiles
import MbmsMiddleware.StateViews
import MbmsMiddleware.BroadcastSide
import MbmsMiddleware.HandlerViews
import MbmsMiddleware.Provision
import MbmsMiddleware.SystemSides
import MbmsMiddleware.AtomicAnnouncements
import MbmsMiddleware.SystemSessions
import MbmsMiddleware.ListingOrder
import MbmsMiddleware.LocalAnnouncements
import MbmsMiddleware.SystemRequests
import MbmsMiddleware.AnsweredRequests
