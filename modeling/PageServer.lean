import PageServer.Abort
import PageServer.Accounts.Directory
import PageServer.Accounts.Sessions
import PageServer.Accounts.User
import PageServer.Action
import PageServer.Calendar.Date
import PageServer.Calendar.DateFormat
import PageServer.Condition.Expr
import PageServer.Condition.Token
import PageServer.Condition.Tree
import PageServer.Fault
import PageServer.Form.Entry
import PageServer.Form.Fields
import PageServer.Form.Rule
import PageServer.Html.Escape
import PageServer.Html.Page
import PageServer.Http.Framing
import PageServer.Http.Query
import PageServer.Http.Request
import PageServer.Http.Response
import PageServer.Http.Status
import PageServer.Json.Basic
import PageServer.Json.Reader
import PageServer.Number.Binary64
import PageServer.Number.Decimal
import PageServer.Number.Integer
import PageServer.Pattern.Basic
import PageServer.Pattern.CharSet
import PageServer.Pattern.Classes
import PageServer.Pattern.Reader
import PageServer.Routing.Registry
import PageServer.Routing.Reroutes
import PageServer.Routing.Route
import PageServer.Routing.Router
import PageServer.Settings.Basic
import PageServer.Site.Auth
import PageServer.Site.Basic
import PageServer.Site.Controller
import PageServer.Site.Script
import PageServer.Site.Visit
import PageServer.Template.Inclusion
import PageServer.Template.Node
import PageServer.Template.Reference
import PageServer.Template.Render
import PageServer.Template.Token
import PageServer.Template.Tree
import PageServer.Template.Value
import PageServer.Template.Variables
import PageServer.Text.Basic
import PageServer.Text.Blank
import PageServer.Text.Line
import PageServer.Text.Lower
import PageServer.Text.Printable
import PageServer.Text.Quoted
import PageServer.Text.Ranges
import PageServer.Text.Table
import PageServer.Text.Upper
import PageServer.Text.Utf8
import PageServer.Toml.Basic
import PageServer.Toml.Reader
import PageServer.Toml.Scalar
import PageServer.Views.Disk
import PageServer.Views.Recent
import PageServer.Views.SavedTree
import PageServer.Views.Store
import PageServer.Views.Template
import PageServer.Proofs.Routing.Paths
import PageServer.Proofs.Routing.Rewriting
import PageServer.Proofs.Routing.LoadCheck
import PageServer.Proofs.Action
import PageServer.Proofs.Site.Page
import PageServer.Proofs.Accounts.Sessions
import PageServer.Proofs.Site.Serving
import PageServer.Proofs.Site.Login
import PageServer.Proofs.Accounts.Directory
import PageServer.Proofs.Site.Accounts
import PageServer.Proofs.Json.Numbers
import PageServer.Proofs.Json.RoundTrip
import PageServer.Proofs.Text.Utf8
import PageServer.Proofs.Views.SavedTree
import PageServer.Proofs.Views.SavedNesting
import PageServer.Proofs.Condition.Literals
import PageServer.Proofs.Template.Steps
import PageServer.Proofs.Template.Literals
import PageServer.Proofs.Template.Loading
import PageServer.Proofs.Views.Disk
import PageServer.Proofs.Views.Looking
import PageServer.Proofs.Views.Faithful
import PageServer.Proofs.Views.Desk
import PageServer.Proofs.Views.Unchanging
import PageServer.Proofs.Views.Expiry
import PageServer.Proofs.Views.Sharing
import PageServer.Proofs.Template.SideBySide
import PageServer.Proofs.Views.Memory
import PageServer.Proofs.Views.Upkeep
import PageServer.Proofs.Views.StoredPage
import PageServer.Proofs.Views.Editing
import PageServer.Proofs.Views.Transparent
import PageServer.Proofs.Views.Names
import PageServer.Proofs.Views.Confined
import PageServer.Proofs.Views.Visits
import PageServer.Proofs.Views.Staleness
import PageServer.Proofs.Views.UpToDate
import PageServer.Proofs.Text.Cutting
import PageServer.Proofs.Template.Names
import PageServer.Proofs.Template.Tags
import PageServer.Proofs.Template.Pieces
import PageServer.Proofs.Template.Blocks
import PageServer.Proofs.Template.WriteBack
import PageServer.Proofs.Template.Trees
import PageServer.Proofs.Number.Shape
import PageServer.Proofs.Condition.Words
import PageServer.Proofs.Condition.CutShort
import PageServer.Proofs.Template.SameNames
import PageServer.Proofs.Template.Choices
import PageServer.Proofs.Condition.Grammar
import PageServer.Proofs.Condition.Printing
import PageServer.Proofs.Condition.Ordering
import PageServer.Proofs.Template.Visiting
import PageServer.Proofs.Template.Failures
import PageServer.Proofs.Template.Mentions
import PageServer.Proofs.Template.Scoping
import PageServer.Proofs.Template.RowForest
import PageServer.Proofs.Template.LoopTemplates
import PageServer.Proofs.Template.NestedLoops
import PageServer.Proofs.Http.Framing
import PageServer.Proofs.Text.Letters
import PageServer.Proofs.Text.ValidBytes
import PageServer.Proofs.Http.Header
import PageServer.Proofs.Http.BodyLength
import PageServer.Proofs.Http.Query
import PageServer.Proofs.Http.Cookies
import PageServer.Proofs.Http.Sending
import PageServer.Proofs.Routing.Registration
import PageServer.Proofs.Accounts.History
import PageServer.Proofs.Views.Faults
import PageServer.Proofs.Form.Keyed
import PageServer.Proofs.Form.Checking
import PageServer.Proofs.Form.Runs
import PageServer.Proofs.Pattern.Letters
import PageServer.Proofs.Site.Ending
import PageServer.Proofs.Site.Course
import PageServer.Proofs.Site.Answering
import PageServer.Proofs.Site.Failing
import PageServer.Proofs.Site.Registering
import PageServer.Proofs.Routing.NormalForm
import PageServer.Proofs.Routing.Addresses
import PageServer.Proofs.Routing.Splitting
import PageServer.Proofs.Template.Overwriting
import PageServer.Proofs.Views.Recency
import PageServer.Proofs.Pattern.Characters
import PageServer.Proofs.Html.Plain
import PageServer.Proofs.Site.Markup
import PageServer.Proofs.Routing.Writing
import PageServer.Proofs.Template.Setting
import PageServer.Proofs.Text.NearestLine
import PageServer.Proofs.Text.Lines
import PageServer.Proofs.Template.Refusals
import PageServer.Proofs.Template.Places
import PageServer.Proofs.Template.Recording
import PageServer.Proofs.Template.Inclusions
import PageServer.Proofs.Template.Appending
import PageServer.Proofs.Number.Order
import PageServer.Proofs.Template.Comparing
import PageServer.Proofs.Number.Nearest
import PageServer.Proofs.Condition.Comparisons
import PageServer.Proofs.Text.Tables
import PageServer.Proofs.Http.Parameters
import PageServer.Proofs.Text.Replacing
import PageServer.Proofs.Html.Escape
import PageServer.Proofs.Template.ShownLines
import PageServer.Proofs.Http.ResponseHeader
import PageServer.Proofs.Http.Responding
import PageServer.Proofs.Http.HeaderOnly
import PageServer.Proofs.Pattern.Places
import PageServer.Proofs.Pattern.Language
import PageServer.Proofs.Form.MailAddress
import PageServer.Proofs.Calendar.Written
import PageServer.Proofs.Form.Dates
import PageServer.Proofs.Form.Lengths
import PageServer.Proofs.Form.Passwords
import PageServer.Proofs.Form.RuleNames
import PageServer.Proofs.Views.Uncached
import PageServer.Proofs.Settings.DebugMode
import PageServer.Proofs.Accounts.Creating
