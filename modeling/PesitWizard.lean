import PesitWizard.Library.Act
import PesitWizard.Library.Attainable
import PesitWizard.Library.BigEndian
import PesitWizard.Library.Disk
import PesitWizard.Library.Ensures
import PesitWizard.Library.FilePath
import PesitWizard.Library.Fletcher
import PesitWizard.Library.Hex
import PesitWizard.Library.Incremental
import PesitWizard.Library.Inevitable
import PesitWizard.Library.Lifecycle
import PesitWizard.Library.Moves
import PesitWizard.Library.Numeral
import PesitWizard.Library.Ownership
import PesitWizard.Library.Pieces
import PesitWizard.Library.Proc
import PesitWizard.Library.Ranked
import PesitWizard.Library.Scan
import PesitWizard.Library.Search
import PesitWizard.Library.Table
import PesitWizard.Library.Template
import PesitWizard.Core.Article
import PesitWizard.Core.Atomic
import PesitWizard.Core.Blank
import PesitWizard.Core.Builder
import PesitWizard.Core.Canonical
import PesitWizard.Core.Collision
import PesitWizard.Core.Compress
import PesitWizard.Core.CompressPieces
import PesitWizard.Core.CompressSound
import PesitWizard.Core.ConnectExpress
import PesitWizard.Core.Contents
import PesitWizard.Core.Corruption
import PesitWizard.Core.Crc
import PesitWizard.Core.Cutter
import PesitWizard.Core.DecodeLoop
import PesitWizard.Core.Decompress
import PesitWizard.Core.Described
import PesitWizard.Core.Diag
import PesitWizard.Core.Ebcdic
import PesitWizard.Core.Edits
import PesitWizard.Core.Entity
import PesitWizard.Core.Fpdu
import PesitWizard.Core.FpduKind
import PesitWizard.Core.Frame
import PesitWizard.Core.Joint
import PesitWizard.Core.JointEvents
import PesitWizard.Core.JointProgress
import PesitWizard.Core.JointSound
import PesitWizard.Core.Layout
import PesitWizard.Core.Limits
import PesitWizard.Core.Lockstep
import PesitWizard.Core.Normal
import PesitWizard.Core.Num
import PesitWizard.Core.Packing
import PesitWizard.Core.Params
import PesitWizard.Core.Pi
import PesitWizard.Core.Preconnect
import PesitWizard.Core.Reassembly
import PesitWizard.Core.Records
import PesitWizard.Core.Reference
import PesitWizard.Core.Requests
import PesitWizard.Core.RoundTrip
import PesitWizard.Core.State
import PesitWizard.Core.Transmission
import PesitWizard.Core.Undetected
import PesitWizard.Core.Units
import PesitWizard.Core.WellFormed
import PesitWizard.Io.Account
import PesitWizard.Io.AckWindow
import PesitWizard.Io.ArticleLength
import PesitWizard.Io.Attempt
import PesitWizard.Io.Authorisation
import PesitWizard.Io.Calm
import PesitWizard.Io.Checkpoint
import PesitWizard.Io.CheckpointFiles
import PesitWizard.Io.Closing
import PesitWizard.Io.Commit
import PesitWizard.Io.Completion
import PesitWizard.Io.Crossing
import PesitWizard.Io.DataPath
import PesitWizard.Io.Delivery
import PesitWizard.Io.Departure
import PesitWizard.Io.Dialogue
import PesitWizard.Io.Emission
import PesitWizard.Io.Endings
import PesitWizard.Io.Engine
import PesitWizard.Io.EntitySize
import PesitWizard.Io.Fetch
import PesitWizard.Io.FileImage
import PesitWizard.Io.FileSink
import PesitWizard.Io.FileSource
import PesitWizard.Io.Flow
import PesitWizard.Io.Flush
import PesitWizard.Io.Guard
import PesitWizard.Io.Intake
import PesitWizard.Io.Interruptions
import PesitWizard.Io.Journal
import PesitWizard.Io.Link
import PesitWizard.Io.Lossless
import PesitWizard.Io.Message
import PesitWizard.Io.MessageSize
import PesitWizard.Io.Negotiation
import PesitWizard.Io.Outgoing
import PesitWizard.Io.Outlook
import PesitWizard.Io.Pace
import PesitWizard.Io.Pruning
import PesitWizard.Io.ReceiveData
import PesitWizard.Io.Recovery
import PesitWizard.Io.Requester
import PesitWizard.Io.Responder
import PesitWizard.Io.Restart
import PesitWizard.Io.Schedule
import PesitWizard.Io.SendData
import PesitWizard.Io.Session
import PesitWizard.Io.Stream
import PesitWizard.Io.Transfer
import PesitWizard.Io.TransferEvents
import PesitWizard.Io.Transport
import PesitWizard.Io.Turn
import PesitWizard.Node.AcceptLoop
import PesitWizard.Node.Advance
import PesitWizard.Node.Api
import PesitWizard.Node.Backup
import PesitWizard.Node.Bundle
import PesitWizard.Node.Cluster
import PesitWizard.Node.Configuration
import PesitWizard.Node.Destination
import PesitWizard.Node.Handler
import PesitWizard.Node.Interference
import PesitWizard.Node.Isolation
import PesitWizard.Node.Keys
import PesitWizard.Node.Leadership
import PesitWizard.Node.Listeners
import PesitWizard.Node.Manager
import PesitWizard.Node.Material
import PesitWizard.Node.Model
import PesitWizard.Node.Naming
import PesitWizard.Node.Overwrite
import PesitWizard.Node.Patterns
import PesitWizard.Node.Pki
import PesitWizard.Node.PwHandler
import PesitWizard.Node.Quota
import PesitWizard.Node.Reception
import PesitWizard.Node.RecordLength
import PesitWizard.Node.Records
import PesitWizard.Node.Replication
import PesitWizard.Node.Schedule
import PesitWizard.Node.Scheduler
import PesitWizard.Node.Serials
import PesitWizard.Node.TransferIds
import PesitWizard.App.Audit
import PesitWizard.App.Counter
import PesitWizard.App.Documents
import PesitWizard.App.Http
import PesitWizard.App.Placeholders
import PesitWizard.App.Rows
import PesitWizard.App.Store
import PesitWizard.App.Tasks
import PesitWizard.Client.Api
import PesitWizard.Client.Directory
import PesitWizard.Client.Engine
import PesitWizard.Client.Model
import PesitWizard.Client.Records
import PesitWizard.Client.Retry
import PesitWizard.Client.Sending
import PesitWizard.Pki.CertStore
