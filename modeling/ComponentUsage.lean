import ComponentUsage.App
import ComponentUsage.CommandLine.Help
import ComponentUsage.CommandLine.Options
import ComponentUsage.CommandLine.Parse
import ComponentUsage.Component.Basic
import ComponentUsage.Component.Declaration
import ComponentUsage.Component.Reading
import ComponentUsage.Component.Scan
import ComponentUsage.Component.Tag
import ComponentUsage.Crash
import ComponentUsage.Decimal.Shortest
import ComponentUsage.Decimal.Written
import ComponentUsage.Disk.Fault
import ComponentUsage.Disk.Links
import ComponentUsage.Disk.Node
import ComponentUsage.Disk.Storage
import ComponentUsage.Disk.Visit
import ComponentUsage.Disk.World
import ComponentUsage.Extraction
import ComponentUsage.Job
import ComponentUsage.Journal.Format
import ComponentUsage.Journal.LogFile
import ComponentUsage.Journal.Logging
import ComponentUsage.Journal.Record
import ComponentUsage.Json.Basic
import ComponentUsage.Json.Parser
import ComponentUsage.Json.Printer
import ComponentUsage.Machine
import ComponentUsage.Main
import ComponentUsage.Path.Basic
import ComponentUsage.Path.Display
import ComponentUsage.Path.Place
import ComponentUsage.Proofs.CommandLine.Attached
import ComponentUsage.Proofs.CommandLine.Given
import ComponentUsage.Proofs.Component.Declaration
import ComponentUsage.Proofs.Component.Tag
import ComponentUsage.Proofs.Component.Template
import ComponentUsage.Proofs.Discovery
import ComponentUsage.Proofs.Disk.Again
import ComponentUsage.Proofs.Disk.Apart
import ComponentUsage.Proofs.Disk.Courses
import ComponentUsage.Proofs.Disk.Depth
import ComponentUsage.Proofs.Disk.Entries
import ComponentUsage.Proofs.Disk.Listing
import ComponentUsage.Proofs.Disk.Making
import ComponentUsage.Proofs.Disk.Names
import ComponentUsage.Proofs.Disk.Placing
import ComponentUsage.Proofs.Disk.Saving
import ComponentUsage.Proofs.Disk.Sight
import ComponentUsage.Proofs.Disk.Sound
import ComponentUsage.Proofs.Journal.Handlers
import ComponentUsage.Proofs.Journal.Unusable
import ComponentUsage.Proofs.Json.RoundTrip
import ComponentUsage.Proofs.Path.Normal
import ComponentUsage.Proofs.Path.Parts
import ComponentUsage.Proofs.Path.Resolved
import ComponentUsage.Proofs.Path.Shown
import ComponentUsage.Proofs.Path.Within
import ComponentUsage.Proofs.Run.Again
import ComponentUsage.Proofs.Run.Agreement
import ComponentUsage.Proofs.Run.Course
import ComponentUsage.Proofs.Run.Destinations
import ComponentUsage.Proofs.Run.Dumped
import ComponentUsage.Proofs.Run.Effects
import ComponentUsage.Proofs.Run.Layers
import ComponentUsage.Proofs.Run.Naming
import ComponentUsage.Proofs.Run.Outcome
import ComponentUsage.Proofs.Run.ReadBack
import ComponentUsage.Proofs.Run.Reporting
import ComponentUsage.Proofs.Run.SourceRoot
import ComponentUsage.Proofs.Run.Views
import ComponentUsage.Proofs.Scan.Collisions
import ComponentUsage.Proofs.Scan.Elsewhere
import ComponentUsage.Proofs.Scan.Faults
import ComponentUsage.Proofs.Scan.Hosts
import ComponentUsage.Proofs.Scan.Idle
import ComponentUsage.Proofs.Scan.Linked
import ComponentUsage.Proofs.Scan.Order
import ComponentUsage.Proofs.Scan.Spots
import ComponentUsage.Proofs.Scan.Within
import ComponentUsage.Proofs.Settings.Checked
import ComponentUsage.Proofs.Settings.Extensions
import ComponentUsage.Proofs.Settings.Layered
import ComponentUsage.Proofs.Settings.Mended
import ComponentUsage.Proofs.Settings.Settled
import ComponentUsage.Proofs.Settings.Strict
import ComponentUsage.Proofs.Spelling
import ComponentUsage.Proofs.Text.Letter
import ComponentUsage.Proofs.Tree.Descent
import ComponentUsage.Proofs.Tree.Moved
import ComponentUsage.Proofs.Tree.Reach
import ComponentUsage.Proofs.Tree.Ways
import ComponentUsage.Report
import ComponentUsage.Settings.Basic
import ComponentUsage.Settings.Check
import ComponentUsage.Settings.Complaint
import ComponentUsage.Settings.Layers
import ComponentUsage.Table
import ComponentUsage.Text.Blank
import ComponentUsage.Text.Decoding
import ComponentUsage.Text.Digit
import ComponentUsage.Text.Letter
import ComponentUsage.Text.LetterTable
import ComponentUsage.Text.PrintableTable
import ComponentUsage.Text.Quoted
import ComponentUsage.Text.WordTable
import ComponentUsage.Text.Wrap
import ComponentUsage.Usage.Discovery
import ComponentUsage.Usage.Graph
import ComponentUsage.Usage.Tree
