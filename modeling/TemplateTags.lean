import TemplateTags.Command.FilePath
import TemplateTags.Command.FileTree
import TemplateTags.Command.Invocation
import TemplateTags.Command.Option
import TemplateTags.Command.Outcome
import TemplateTags.Command.Response
import TemplateTags.Command.Run
import TemplateTags.Command.Selection
import TemplateTags.Cycle.Event
import TemplateTags.Cycle.Plan
import TemplateTags.Cycle.Surroundings
import TemplateTags.Cycle.TagEdit
import TemplateTags.Dialect.Addon
import TemplateTags.Dialect.Basic
import TemplateTags.Dialect.Error
import TemplateTags.Dialect.Family
import TemplateTags.Dialect.Registry
import TemplateTags.Dialect.Table
import TemplateTags.Document.Buffer
import TemplateTags.Document.Edit
import TemplateTags.Json
import TemplateTags.Main
import TemplateTags.Number.Binary64
import TemplateTags.Number.Shortest
import TemplateTags.Pattern.Basic
import TemplateTags.Pattern.CharSet
import TemplateTags.Pattern.Ends
import TemplateTags.Pattern.Escape
import TemplateTags.Pattern.Graph
import TemplateTags.Pattern.Matcher
import TemplateTags.Pattern.Occurrence
import TemplateTags.Pattern.Reader
import TemplateTags.Proofs.Command.Arguments
import TemplateTags.Proofs.Command.Cycle
import TemplateTags.Proofs.Command.Files
import TemplateTags.Proofs.Command.Printed
import TemplateTags.Proofs.Command.Repeated
import TemplateTags.Proofs.Command.Selection
import TemplateTags.Proofs.Cycle.Batch
import TemplateTags.Proofs.Cycle.Context
import TemplateTags.Proofs.Cycle.Cuts
import TemplateTags.Proofs.Cycle.Discovery
import TemplateTags.Proofs.Cycle.Exact
import TemplateTags.Proofs.Cycle.Following
import TemplateTags.Proofs.Cycle.Insertions
import TemplateTags.Proofs.Cycle.Layout
import TemplateTags.Proofs.Cycle.Local
import TemplateTags.Proofs.Cycle.OneByOne
import TemplateTags.Proofs.Cycle.OwnLines
import TemplateTags.Proofs.Cycle.Planned
import TemplateTags.Proofs.Cycle.Reselected
import TemplateTags.Proofs.Cycle.RoundTrip
import TemplateTags.Proofs.Cycle.Shifting
import TemplateTags.Proofs.Cycle.Single
import TemplateTags.Proofs.Cycle.Stretch
import TemplateTags.Proofs.Dialect.Braces
import TemplateTags.Proofs.Dialect.Compilation
import TemplateTags.Proofs.Dialect.Compiled
import TemplateTags.Proofs.Dialect.Families
import TemplateTags.Proofs.Dialect.Found
import TemplateTags.Proofs.Dialect.LastWriter
import TemplateTags.Proofs.Dialect.Longest
import TemplateTags.Proofs.Dialect.Reading
import TemplateTags.Proofs.Dialect.Rotation
import TemplateTags.Proofs.Document.Checked
import TemplateTags.Proofs.Document.LineBreaks
import TemplateTags.Proofs.Document.Lines
import TemplateTags.Proofs.Document.Region
import TemplateTags.Proofs.Document.Rewriting
import TemplateTags.Proofs.Document.Rows
import TemplateTags.Proofs.Document.Simultaneous
import TemplateTags.Proofs.Pattern.Greedy
import TemplateTags.Proofs.Pattern.Grouped
import TemplateTags.Proofs.Pattern.Meaning
import TemplateTags.Proofs.Pattern.Reach
import TemplateTags.Proofs.Pattern.Search
import TemplateTags.Proofs.Pattern.Written
import TemplateTags.Proofs.Session.Alone
import TemplateTags.Proofs.Session.Atomic
import TemplateTags.Proofs.Session.Closure
import TemplateTags.Proofs.Session.LineBreaks
import TemplateTags.Proofs.Session.Runs
import TemplateTags.Proofs.Session.Settled
import TemplateTags.Proofs.Settings.Keys
import TemplateTags.Proofs.Settings.Resolution
import TemplateTags.Proofs.Text.Cut
import TemplateTags.Proofs.Text.LowerCase
import TemplateTags.Session
import TemplateTags.Settings.Basic
import TemplateTags.Settings.Layers
import TemplateTags.Settings.Path
import TemplateTags.Settings.Setting
import TemplateTags.Sorted
import TemplateTags.Text.Basic
import TemplateTags.Text.Blank
import TemplateTags.Text.CaseTable
import TemplateTags.Text.CodeRange
import TemplateTags.Text.Hidden
import TemplateTags.Text.LowerCase
import TemplateTags.Text.Number
import TemplateTags.Text.Order
import TemplateTags.Text.Quoted
import TemplateTags.Text.Span
import TemplateTags.Toml.Datetime
import TemplateTags.Toml.DatetimeText
import TemplateTags.Toml.Document
import TemplateTags.Toml.Draft
import TemplateTags.Toml.Reserved
import TemplateTags.Toml.Scalar
import TemplateTags.Toml.Section
import TemplateTags.Toml.Value
