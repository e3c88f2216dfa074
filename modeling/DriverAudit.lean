import DriverAudit.Image.Build
import DriverAudit.Main
import DriverAudit.Proofs.Imports.Thunks
import DriverAudit.Proofs.Scan.Results
import DriverAudit.Proofs.Scan.Detection
import DriverAudit.Proofs.Bytes.Beginnings
import DriverAudit.Proofs.Image.HeaderExtent
import DriverAudit.Proofs.Scan.Truncation
import DriverAudit.Proofs.Report.Tallies
import DriverAudit.Proofs.Report.Batches
import DriverAudit.Proofs.Bytes.Pieces
import DriverAudit.Proofs.Image.Placement
import DriverAudit.Proofs.Image.BuiltSection
import DriverAudit.Proofs.Image.BuiltHeaders
import DriverAudit.Proofs.Imports.BuiltTables
import DriverAudit.Proofs.Imports.RoundTrip
import DriverAudit.Proofs.Bytes.Lasting
import DriverAudit.Proofs.Image.LastingHeaders
import DriverAudit.Proofs.Scan.Growth
import DriverAudit.Proofs.Imports.Views
import DriverAudit.Proofs.Image.Shown
import DriverAudit.Proofs.Scan.Layouts
import DriverAudit.Proofs.Bytes.Overwriting
import DriverAudit.Proofs.Image.Order
import DriverAudit.Proofs.Scan.Binding
import DriverAudit.Proofs.CommandLine.Runs
import DriverAudit.Proofs.Imports.Descriptions
import DriverAudit.Proofs.Imports.Limits
import DriverAudit.Proofs.Imports.Accounts
import DriverAudit.Proofs.Json.Spellings
import DriverAudit.Proofs.Json.Compact
import DriverAudit.Proofs.Settings.Overrides
import DriverAudit.Proofs.Image.HeaderFormat
import DriverAudit.Proofs.Imports.Failures
import DriverAudit.Proofs.Imports.SectionOrder
import DriverAudit.Proofs.FixedWidth.Walk
import DriverAudit.Proofs.Imports.Notices
import DriverAudit.Proofs.Files.PathOrder
import DriverAudit.Proofs.Files.PathBytes
import DriverAudit.Proofs.Report.Ranking
import DriverAudit.Proofs.Report.Columns
import DriverAudit.Proofs.Json.Pretty
import DriverAudit.Proofs.Report.Contents
import DriverAudit.Proofs.Text.AsciiCuts
import DriverAudit.Proofs.Bytes.BoundedStrings
import DriverAudit.Proofs.Candidates.Indexes
import DriverAudit.Proofs.Bytes.Edits
import DriverAudit.Proofs.Image.Extents
import DriverAudit.Proofs.Image.InPlace
import DriverAudit.Proofs.Image.Parity
import DriverAudit.Proofs.Imports.Rounds
import DriverAudit.Proofs.Imports.Halting
