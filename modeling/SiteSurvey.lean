import SiteSurvey.CommandLine.OnDisk
import SiteSurvey.Main
import SiteSurvey.MemoryTree
import SiteSurvey.Proofs.Path
import SiteSurvey.Proofs.Walk.Truncation
import SiteSurvey.Proofs.Walk.Order
import SiteSurvey.Proofs.Survey.Root
import SiteSurvey.Proofs.OrderedMap
import SiteSurvey.Proofs.Survey.Findings
import SiteSurvey.Proofs.Survey.Routes
import SiteSurvey.Proofs.Survey.Models
import SiteSurvey.Proofs.Source.Comment
import SiteSurvey.Proofs.Source.Literal
import SiteSurvey.Proofs.Route.Argument
import SiteSurvey.Proofs.Source.Bracket
import SiteSurvey.Proofs.Source.Lines
import SiteSurvey.Proofs.Source.Insertion
import SiteSurvey.Proofs.Route.RoundTrip
import SiteSurvey.Proofs.Text.Word
import SiteSurvey.Proofs.Admin.Registration
import SiteSurvey.Proofs.Admin.Import
import SiteSurvey.Proofs.Admin.Written
import SiteSurvey.Proofs.Admin.RoundTrip
import SiteSurvey.Proofs.Text.Softened
import SiteSurvey.Proofs.Admin.Comments
import SiteSurvey.Proofs.Source.Balance
import SiteSurvey.Proofs.Route.Brackets
import SiteSurvey.Proofs.Survey.Diagnostics
import SiteSurvey.Proofs.CommandLine.Status
import SiteSurvey.Proofs.Survey.Scope
import SiteSurvey.Proofs.Survey.Independence
import SiteSurvey.Proofs.Survey.RouteChange
import SiteSurvey.Proofs.Survey.Unreadable
import SiteSurvey.Proofs.Survey.WellFormed
import SiteSurvey.Proofs.Report.Lossless
import SiteSurvey.Proofs.Survey.Narrowing
import SiteSurvey.Proofs.Source.Extent
import SiteSurvey.Proofs.Source.Slices
import SiteSurvey.Proofs.Source.Unmatched
import SiteSurvey.Proofs.CommandLine.Presentation
import SiteSurvey.Proofs.Json.Cursor
import SiteSurvey.Proofs.Json.StringReader
import SiteSurvey.Proofs.Config.Reader
import SiteSurvey.Proofs.Config.RoundTrip
import SiteSurvey.Proofs.CommandLine.Created
import SiteSurvey.Proofs.Source.Composition
import SiteSurvey.Proofs.Source.Assigned
import SiteSurvey.Proofs.Route.Declaration
import SiteSurvey.Proofs.Route.Tuples
import SiteSurvey.Proofs.Survey.RouteFile
import SiteSurvey.Proofs.Route.Merge
import SiteSurvey.Proofs.Route.AngleGroups
import SiteSurvey.Proofs.Source.Removal
import SiteSurvey.Proofs.Admin.ImportLines
import SiteSurvey.Proofs.Admin.SpreadImport
import SiteSurvey.Proofs.Admin.Turns
import SiteSurvey.Proofs.CommandLine.Checked
import SiteSurvey.Proofs.Config.Search
import SiteSurvey.Proofs.Json.Skip
import SiteSurvey.Proofs.Config.Object
import SiteSurvey.Proofs.Report.Alignment
import SiteSurvey.Proofs.Report.Uncolored
import SiteSurvey.Proofs.CommandLine.Arguments
import SiteSurvey.Proofs.Text.ByteOrder
import SiteSurvey.Proofs.MemoryTree
import SiteSurvey.Proofs.Inquiry.OnDisk
