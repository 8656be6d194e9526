import HybridFtp.Rdt.Receiver
import HybridFtp.Lib.Machine
import HybridFtp.Lib.Network
import HybridFtp.Lib.OrderedStream
import HybridFtp.Rdt.GoBackN
import HybridFtp.Rdt.Safety
import HybridFtp.Common.TransferModeCodec
import HybridFtp.Rdt.Recovery
import HybridFtp.Rdt.SharedSocket
import HybridFtp.Rdt.MainLoop
import HybridFtp.Rdt.SingleLoss
import HybridFtp.Rdt.FlowControl
import HybridFtp.Lib.FileSystem
import HybridFtp.Lib.Resolution
import HybridFtp.Lib.Creation
import HybridFtp.Lib.StdFilesystem
import HybridFtp.Common.PathManager
import HybridFtp.Common.Sandbox
import HybridFtp.Common.CommandParser
import HybridFtp.Common.FileHandler
import HybridFtp.Common.Listing
import HybridFtp.Lib.Scan
import HybridFtp.Server.Serving
import HybridFtp.Server.ReplyDiscipline
import HybridFtp.Server.Upload
import HybridFtp.Server.Steps
import HybridFtp.Client.ClientCLI
import HybridFtp.Client.ReplySync
import HybridFtp.Server.DataChannel
import HybridFtp.Server.Renaming
import HybridFtp.Server.LoginGate
import HybridFtp.Server.WorkingDirectory
import HybridFtp.Server.FailedUpload
import HybridFtp.Server.ControlStream
import HybridFtp.Server.LineFraming
import HybridFtp.Client.Dialogue
import HybridFtp.Client.Representation
import HybridFtp.Client.Endpoint
import HybridFtp.Client.CodedTransfer
import HybridFtp.Common.UniqueName
import HybridFtp.Lib.Occupied
import HybridFtp.Server.Sharing
import HybridFtp.Server.UniqueUpload
import HybridFtp.Common.Observed
import HybridFtp.Common.ObservedListing
import HybridFtp.Server.Alike
import HybridFtp.Server.Unobservable
import HybridFtp.Lib.OnesComplement
import HybridFtp.Rdt.Checksum
import HybridFtp.Rdt.Datagrams
import HybridFtp.Rdt.Completeness
import HybridFtp.Rdt.Effort
import HybridFtp.Rdt.Silence
import HybridFtp.Rdt.Strangers
import HybridFtp.Rdt.OneSender
import HybridFtp.Lib.PrefixCode
import HybridFtp.Common.StreamGrammar
import HybridFtp.Common.EncodedSize
import HybridFtp.Common.ListingRecords
import HybridFtp.Client.StatReply
import HybridFtp.Lib.Numbers
import HybridFtp.Common.HostPort
import HybridFtp.Client.PasvReply
import HybridFtp.Client.PortArgument
import HybridFtp.Rdt.Segmentation
import HybridFtp.Rdt.StopAndWait
import HybridFtp.Client.Dispatch
import HybridFtp.Lib.CongestionWindow
import HybridFtp.Rdt.CongestionControl
import HybridFtp.Rdt.ReferenceChecksum
import HybridFtp.Common.StableParsing
import HybridFtp.Common.PathText
import HybridFtp.Common.CurrentPath
import HybridFtp.Common.NameSearch
import HybridFtp.Lib.FirstFit
import HybridFtp.Server.SessionTable
import HybridFtp.Rdt.ReliableTransfer
import HybridFtp.Lib.Contents
import HybridFtp.Server.Payload
import HybridFtp.Client.Deployment
import HybridFtp.Client.Delivery
import HybridFtp.Lib.Unwinding
import HybridFtp.Server.Bystanders
import HybridFtp.Server.Footprint
import HybridFtp.Lib.Moving
import HybridFtp.Server.Preservation
import HybridFtp.Lib.Edits
import HybridFtp.Server.StorageEdits
import HybridFtp.Rdt.Lossless
import HybridFtp.Rdt.FileTransfer
import HybridFtp.Server.Refusal
import HybridFtp.Client.ReplyStream
import HybridFtp.Rdt.Cancellation
import HybridFtp.Client.RoundTrip
import HybridFtp.Client.Conversation
