import CodeView.Text.Number
import CodeView.Text.Blank
import CodeView.Text.Lossy
import CodeView.FormatError
import CodeView.Bytes
import CodeView.Cursor
import CodeView.Kind
import CodeView.Directory
import CodeView.LineTable
import CodeView.SourceModule
import CodeView.SourceModule.Read
import CodeView.ModuleInfo
import CodeView.LibraryList
import CodeView.GlobalSymbols
import CodeView.NameTable
import CodeView.FileIndex
import CodeView.Record
import CodeView.Registry
import CodeView.DebugInfo
import CodeView.Parser
import CodeView.Location
import CodeView.Resolver
import CodeView.Address
import CodeView.Image.FileKind
import CodeView.Image.Headers
import CodeView.Image.Locate
import CodeView.Executable
import CodeView.Text.Hidden
import CodeView.Text.Alphanumeric
import CodeView.Text.Cut
import CodeView.Text.Pattern
import CodeView.Text.Quoted
import CodeView.Log.Level
import CodeView.Log.Format
import CodeView.Log.Event
import CodeView.Log.Trail
import CodeView.Log.Directive
import CodeView.Log.Filter
import CodeView.CommandLine.Path
import CodeView.CommandLine.Logging
import CodeView.CommandLine.Arguments
import CodeView.CommandLine.Listing
import CodeView.CommandLine.Folder
import CodeView.CommandLine.Session
import CodeView.CommandLine.Resolve
import CodeView.Text.Pieces
import CodeView.Log.Line
import CodeView.Main
import CodeView.SourceModule.Write
import CodeView.FileIndex.Write
import CodeView.Blob
import CodeView.SourceModule.Layout
import CodeView.ModuleInfo.Layout
import CodeView.Resolver.Scan
import CodeView.Cursor.Operation
import CodeView.Proofs.Bytes
import CodeView.Proofs.Check
import CodeView.Proofs.Reading
import CodeView.Proofs.LineTable
import CodeView.Proofs.SourceModule.Plain
import CodeView.Proofs.SourceModule.Acceptance
import CodeView.Proofs.Parser.Walk
import CodeView.Proofs.DebugInfo
import CodeView.Proofs.Parser.Modes
import CodeView.Proofs.Directory
import CodeView.Proofs.Parser.Frame
import CodeView.Proofs.Parser.Accounting
import CodeView.Proofs.Parser.Damage
import CodeView.Proofs.Relocation
import CodeView.Proofs.Relocation.Decoder
import CodeView.Proofs.SourceModule.RoundTrip
import CodeView.Proofs.Text.Lossy
import CodeView.Proofs.Written
import CodeView.Proofs.LineTable.Selection
import CodeView.Proofs.Resolver.Address
import CodeView.Proofs.Resolver.Line
import CodeView.Proofs.Resolver.RoundTrip
import CodeView.Proofs.Relocation.Blob
import CodeView.Proofs.Parser.Isolation
import CodeView.Proofs.Parser.Growth
import CodeView.Proofs.Reports
import CodeView.Proofs.Defect
import CodeView.Proofs.Parser.Shortage
import CodeView.Proofs.Parser.Expansion
import CodeView.Proofs.Parser.RoundTrip
import CodeView.Proofs.Parser.WellFormed
import CodeView.Proofs.Executable
import CodeView.Proofs.Cursor.Operation
import CodeView.Proofs.Cursor.Run
import CodeView.Proofs.Reading.Taken
import CodeView.Proofs.LineTable.Scan
import CodeView.Executable.Query
import CodeView.Proofs.Executable.Translation
import CodeView.Proofs.NameTable
import CodeView.Proofs.FileIndex.RoundTrip
import CodeView.Proofs.Parser.Settings
import CodeView.Proofs.NameTable.Row
import CodeView.Proofs.NameTable.SegmentNames
import CodeView.Proofs.LibraryList
import CodeView.Proofs.ModuleInfo
import CodeView.Proofs.Text.Number
import CodeView.Proofs.Text.Blank
import CodeView.Proofs.Address
import CodeView.Proofs.Image.Locate
import CodeView.Proofs.DebugInfo.Listing
import CodeView.Proofs.CommandLine.Arguments
import CodeView.Proofs.CommandLine.Log
import CodeView.Proofs.CommandLine.Lookup
