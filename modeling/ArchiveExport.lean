import ArchiveExport.Archive.Basic
import ArchiveExport.Archive.Document
import ArchiveExport.Archive.Fault
import ArchiveExport.Archive.Folder
import ArchiveExport.Archive.Grf.Cache
import ArchiveExport.Archive.Grf.File
import ArchiveExport.Archive.Grf.Store
import ArchiveExport.Archive.Grf.Table
import ArchiveExport.Bytes.Basic
import ArchiveExport.Checksum.Md5
import ArchiveExport.Checksum.Redundancy
import ArchiveExport.Command.Action
import ArchiveExport.Command.Basic
import ArchiveExport.Command.Export
import ArchiveExport.Command.History
import ArchiveExport.Command.Launcher
import ArchiveExport.Command.Listing
import ArchiveExport.Command.Options
import ArchiveExport.Command.Reach
import ArchiveExport.Console
import ArchiveExport.Data.OrderedMap
import ArchiveExport.Deflate.Code
import ArchiveExport.Deflate.Inflate
import ArchiveExport.Disk.Access
import ArchiveExport.Disk.Basic
import ArchiveExport.Disk.Digest
import ArchiveExport.Disk.Path
import ArchiveExport.Entry.Extension
import ArchiveExport.Entry.Resolution
import ArchiveExport.Environment
import ArchiveExport.Export.Codecs
import ArchiveExport.Export.Dispatch
import ArchiveExport.Export.Document
import ArchiveExport.Export.Exporter
import ArchiveExport.Export.Job
import ArchiveExport.Export.Naming
import ArchiveExport.Export.Outcome
import ArchiveExport.Export.Session
import ArchiveExport.Export.Sink
import ArchiveExport.Export.Step
import ArchiveExport.Export.Table
import ArchiveExport.Export.Tally
import ArchiveExport.Image.Basic
import ArchiveExport.Image.Format
import ArchiveExport.Image.Png
import ArchiveExport.Json.Access
import ArchiveExport.Json.Printer
import ArchiveExport.Json.Reader
import ArchiveExport.Json.Stream
import ArchiveExport.Json.Value
import ArchiveExport.Ledger.Basic
import ArchiveExport.Ledger.Storage
import ArchiveExport.Main
import ArchiveExport.Moment
import ArchiveExport.Number.Binary32
import ArchiveExport.Number.Binary64
import ArchiveExport.Proofs.Archive.Cache
import ArchiveExport.Proofs.Archive.Capacity
import ArchiveExport.Proofs.Archive.Coherence
import ArchiveExport.Proofs.Archive.Key
import ArchiveExport.Proofs.Archive.Layout
import ArchiveExport.Proofs.Archive.Listing
import ArchiveExport.Proofs.Archive.Names
import ArchiveExport.Proofs.Archive.Opened
import ArchiveExport.Proofs.Archive.Override
import ArchiveExport.Proofs.Archive.Presence
import ArchiveExport.Proofs.Archive.Readers
import ArchiveExport.Proofs.Archive.Recency
import ArchiveExport.Proofs.Archive.Rows
import ArchiveExport.Proofs.Archive.Store
import ArchiveExport.Proofs.Archive.Stored
import ArchiveExport.Proofs.Archive.Tier
import ArchiveExport.Proofs.Command.Detection
import ArchiveExport.Proofs.Command.Verification
import ArchiveExport.Proofs.Data.Alignment
import ArchiveExport.Proofs.Data.Counting
import ArchiveExport.Proofs.Data.OrderedMap
import ArchiveExport.Proofs.Deflate.Padding
import ArchiveExport.Proofs.Disk.Access
import ArchiveExport.Proofs.Disk.Folders
import ArchiveExport.Proofs.Disk.Logged
import ArchiveExport.Proofs.Disk.Merging
import ArchiveExport.Proofs.Disk.Mirror
import ArchiveExport.Proofs.Disk.Path
import ArchiveExport.Proofs.Disk.Tree
import ArchiveExport.Proofs.Disk.Writing
import ArchiveExport.Proofs.Entry.Extension
import ArchiveExport.Proofs.Entry.Literal
import ArchiveExport.Proofs.Entry.Resolution
import ArchiveExport.Proofs.Export.Books
import ArchiveExport.Proofs.Export.Bundle
import ArchiveExport.Proofs.Export.Confinement
import ArchiveExport.Proofs.Export.Conflicts
import ArchiveExport.Proofs.Export.Copy
import ArchiveExport.Proofs.Export.Deeds
import ArchiveExport.Proofs.Export.Dispatch
import ArchiveExport.Proofs.Export.Dispatched
import ArchiveExport.Proofs.Export.Document
import ArchiveExport.Proofs.Export.Escape
import ArchiveExport.Proofs.Export.Events
import ArchiveExport.Proofs.Export.Files
import ArchiveExport.Proofs.Export.Footprint
import ArchiveExport.Proofs.Export.Frames
import ArchiveExport.Proofs.Export.Interleaving
import ArchiveExport.Proofs.Export.Logged
import ArchiveExport.Proofs.Export.Paths
import ArchiveExport.Proofs.Export.Pattern
import ArchiveExport.Proofs.Export.Patterns
import ArchiveExport.Proofs.Export.Raw
import ArchiveExport.Proofs.Export.Reads
import ArchiveExport.Proofs.Export.Recorded
import ArchiveExport.Proofs.Export.Rerun
import ArchiveExport.Proofs.Export.Script
import ArchiveExport.Proofs.Export.ScriptFile
import ArchiveExport.Proofs.Export.Sharing
import ArchiveExport.Proofs.Export.Sink
import ArchiveExport.Proofs.Export.Step
import ArchiveExport.Proofs.Export.Table
import ArchiveExport.Proofs.Export.Tallied
import ArchiveExport.Proofs.Export.Text
import ArchiveExport.Proofs.Export.Writes
import ArchiveExport.Proofs.Json.Grammar
import ArchiveExport.Proofs.Json.Layout
import ArchiveExport.Proofs.Json.Numeral
import ArchiveExport.Proofs.Json.Reading
import ArchiveExport.Proofs.Json.Stream
import ArchiveExport.Proofs.Json.Text
import ArchiveExport.Proofs.Json.Validity
import ArchiveExport.Proofs.Ledger.Records
import ArchiveExport.Proofs.Ledger.Rows
import ArchiveExport.Proofs.Number.Decimal
import ArchiveExport.Proofs.Number.Rounding
import ArchiveExport.Proofs.Resource.Altitude
import ArchiveExport.Proofs.Resource.Animation
import ArchiveExport.Proofs.Resource.Documents
import ArchiveExport.Proofs.Resource.Operations
import ArchiveExport.Proofs.Resource.Palette
import ArchiveExport.Proofs.Resource.Raised
import ArchiveExport.Proofs.Resource.RaisedFrames
import ArchiveExport.Proofs.Resource.Reading
import ArchiveExport.Proofs.Resource.RunLength
import ArchiveExport.Proofs.Resource.Sequence
import ArchiveExport.Proofs.Resource.Sprite
import ArchiveExport.Proofs.Resource.SpriteImages
import ArchiveExport.Proofs.Resource.SpriteOctets
import ArchiveExport.Proofs.Resource.TornAnimation
import ArchiveExport.Proofs.Resource.World
import ArchiveExport.Proofs.Script.Glob
import ArchiveExport.Proofs.Script.Header
import ArchiveExport.Proofs.Script.Lines
import ArchiveExport.Proofs.Script.Orders
import ArchiveExport.Proofs.Script.Source
import ArchiveExport.Proofs.Settings.Loading
import ArchiveExport.Proofs.Settings.Members
import ArchiveExport.Proofs.Settings.Saving
import ArchiveExport.Proofs.Text.Blank
import ArchiveExport.Proofs.Text.EucKr
import ArchiveExport.Proofs.Text.Letters
import ArchiveExport.Proofs.Text.Lowercase
import ArchiveExport.Proofs.Text.Pieces
import ArchiveExport.Proofs.Text.Spelling
import ArchiveExport.Proofs.Text.Utf8
import ArchiveExport.Proofs.Text.WellFormed
import ArchiveExport.Proofs.Text.Wide
import ArchiveExport.Report.Message
import ArchiveExport.Report.Progress
import ArchiveExport.Report.Reporter
import ArchiveExport.Resource.Altitude
import ArchiveExport.Resource.Animation
import ArchiveExport.Resource.Document
import ArchiveExport.Resource.Format
import ArchiveExport.Resource.Layout
import ArchiveExport.Resource.LuaChunk
import ArchiveExport.Resource.Palette
import ArchiveExport.Resource.Reader
import ArchiveExport.Resource.Sprite
import ArchiveExport.Resource.Version
import ArchiveExport.Resource.World
import ArchiveExport.Script.Directive
import ArchiveExport.Script.Document
import ArchiveExport.Script.Glob
import ArchiveExport.Script.Mode
import ArchiveExport.Script.Source
import ArchiveExport.Settings.Basic
import ArchiveExport.Settings.Storage
import ArchiveExport.Settings.Value
import ArchiveExport.Text.Basic
import ArchiveExport.Text.Blank
import ArchiveExport.Text.Charset
import ArchiveExport.Text.EucKr
import ArchiveExport.Text.KsX1001Table
import ArchiveExport.Text.Lines
import ArchiveExport.Text.Lowercase
import ArchiveExport.Text.LowercaseTable
import ArchiveExport.Text.Numeral
import ArchiveExport.Text.PrintableTable
import ArchiveExport.Text.Quoted
import ArchiveExport.Text.Utf8
import ArchiveExport.Text.Wide
