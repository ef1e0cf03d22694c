import ClipboardHelper.Library.Machine
import ClipboardHelper.Library.SparseFile
import ClipboardHelper.Library.Bytes
import ClipboardHelper.Library.Transfer
import ClipboardHelper.Library.Frames
import ClipboardHelper.Library.History
import ClipboardHelper.Library.Ledger
import ClipboardHelper.Library.Segment
import ClipboardHelper.Library.Layout
import ClipboardHelper.Library.Pool
import ClipboardHelper.Library.Base128
import ClipboardHelper.Library.TextLines
import ClipboardHelper.Library.Checked
import ClipboardHelper.FileDownloadTask
import ClipboardHelper.DownloadIntegrity
import ClipboardHelper.DownloadEnds
import ClipboardHelper.DownloadRegistry
import ClipboardHelper.ProtoWire
import ClipboardHelper.WireIntegers
import ClipboardHelper.WireFields
import ClipboardHelper.DispatchCodec
import ClipboardHelper.ContentFrames
import ClipboardHelper.CodecRoundTrip
import ClipboardHelper.CanonicalVarints
import ClipboardHelper.LinuxCodec
import ClipboardHelper.DecoderAgreement
import ClipboardHelper.MessageFields
import ClipboardHelper.FileMetadataReaders
import ClipboardHelper.ReaderBounds
import ClipboardHelper.ChunkProvider
import ClipboardHelper.ChunkCorrelation
import ClipboardHelper.ChunkServing
import ClipboardHelper.ChunkSignals
import ClipboardHelper.DelayedRender
import ClipboardHelper.FrameTransport
import ClipboardHelper.SocketReader
import ClipboardHelper.SocketGreeting
import ClipboardHelper.SocketWriter
import ClipboardHelper.PipeSession
import ClipboardHelper.PasteFormats
import ClipboardHelper.UriList
import ClipboardHelper.DelayedSlot
import ClipboardHelper.WaylandClipboard
import ClipboardHelper.X11Clipboard
import ClipboardHelper.X11Echo
import ClipboardHelper.LinuxDispatch
import ClipboardHelper.WaylandDevice
import ClipboardHelper.WaylandOffers
import ClipboardHelper.WaylandChanges
import ClipboardHelper.WaylandFreshness
import ClipboardHelper.X11Freshness
import ClipboardHelper.LinuxFreshness
import ClipboardHelper.LinuxShutdown
import ClipboardHelper.SupersededWaiters
import ClipboardHelper.PipeReplies
import ClipboardHelper.TextFrames
import ClipboardHelper.MalformedFrames
import ClipboardHelper.TextLimits
import ClipboardHelper.MacPasteboard
import ClipboardHelper.CoordinatorJobs
import ClipboardHelper.CoordinatorQueue
import ClipboardHelper.TransferCancellation
import ClipboardHelper.MacRendering
import ClipboardHelper.MacDownloads
import ClipboardHelper.RenderRetries
import ClipboardHelper.SharedDownloads
import ClipboardHelper.MacPolling
import ClipboardHelper.StaWorker
import ClipboardHelper.WorkQueue
import ClipboardHelper.WorkerQueue
import ClipboardHelper.FileTables
import ClipboardHelper.OutboundObject
import ClipboardHelper.InboundObject
import ClipboardHelper.EndOfFile
import ClipboardHelper.MacChunkFrames
import ClipboardHelper.VirtualFileStream
import ClipboardHelper.StreamReentrancy
import ClipboardHelper.StreamCopy
import ClipboardHelper.FileGroupDescriptor
import ClipboardHelper.FileGroupPayload
import ClipboardHelper.VirtualDataObject
import ClipboardHelper.VirtualFileEnum
import ClipboardHelper.DibFormat
import ClipboardHelper.HdropFormat
import ClipboardHelper.DibSafety
import ClipboardHelper.DibColours
import ClipboardHelper.ProvidedData
import ClipboardHelper.AnnounceDelayed
import ClipboardHelper.ChunkCancellation
import ClipboardHelper.Library.Calls
import ClipboardHelper.ClipboardCalls
import ClipboardHelper.ClipboardReads
import ClipboardHelper.ClipboardOutcomes
import ClipboardHelper.Library.Rest
import ClipboardHelper.PipeShutdown
import ClipboardHelper.ServedDownloads
import ClipboardHelper.ClipboardRelay
import ClipboardHelper.RelaySteps
import ClipboardHelper.RelayRest
import ClipboardHelper.RelayWaits
import ClipboardHelper.RelayReports
