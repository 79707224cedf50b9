import LintLedger.Program
import LintLedger.Main
import LintLedger.Proofs.Region.Layout
import LintLedger.Proofs.Region.Renewal
import LintLedger.Proofs.Listing.Texts
import LintLedger.Proofs.Text.Lines
import LintLedger.Proofs.Declaration.Extract
import LintLedger.Proofs.Collection.Harvest
import LintLedger.Proofs.Disk.Writing
import LintLedger.Proofs.Update.Twice
import LintLedger.Proofs.Program.Check
import LintLedger.Proofs.Declaration.Writing
import LintLedger.Proofs.Region.Inside
import LintLedger.Proofs.Program.Status
import LintLedger.Proofs.Update.Forecast
import LintLedger.Proofs.Program.Output
import LintLedger.Proofs.Declaration.Literal
import LintLedger.Proofs.Listing.Recount
import LintLedger.Proofs.Update.Order
import LintLedger.Proofs.Json.Reading
import LintLedger.Proofs.Program.Streams
import LintLedger.Proofs.Disk.Places
import LintLedger.Proofs.Glob.Quoted
import LintLedger.Proofs.Glob.Below
import LintLedger.Proofs.Collection.Sources
import LintLedger.Proofs.Region.Filling
import LintLedger.Proofs.Update.Altered
import LintLedger.Proofs.Disk.Walks
import LintLedger.Proofs.Settings.Above
import LintLedger.Proofs.Region.Again
import LintLedger.Proofs.Listing.Sorted
import LintLedger.Proofs.Listing.Rows
import LintLedger.Proofs.Update.Completed
import LintLedger.Proofs.Program.Failing
import LintLedger.Proofs.Listing.Registration
import LintLedger.Proofs.Update.Dropped
import LintLedger.Proofs.Listing.Arranged
import LintLedger.Proofs.Listing.Columns
import LintLedger.Proofs.Settings.Literal
import LintLedger.Proofs.Listing.Agreement
import LintLedger.Proofs.Region.LineEnds
import LintLedger.Proofs.Region.Reread
import LintLedger.Proofs.Update.Overlooked
import LintLedger.Proofs.Path.Shown
import LintLedger.Proofs.Path.Resolution
import LintLedger.Proofs.Update.Reported
import LintLedger.Proofs.Settings.Resolved
import LintLedger.Proofs.Report.Interrupted
