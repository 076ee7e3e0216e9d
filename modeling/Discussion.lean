import Discussion.Command.Arguments
import Discussion.Command.Basic
import Discussion.Command.Rows
import Discussion.Command.Run
import Discussion.Command.Style
import Discussion.Comment.Basic
import Discussion.Comment.Draft
import Discussion.Commentable.Basic
import Discussion.Commentable.Text
import Discussion.Disk.Basic
import Discussion.Disk.Fault
import Discussion.Disk.Folder
import Discussion.Disk.Path
import Discussion.Disk.Place
import Discussion.Event.Basic
import Discussion.Event.Logged
import Discussion.Fault
import Discussion.Forest.Basic
import Discussion.Forest.Growth
import Discussion.Form.Comment
import Discussion.Form.Identity
import Discussion.Form.Plan
import Discussion.Form.Settings
import Discussion.Form.Snapshot
import Discussion.Form.View
import Discussion.Form.Viewer
import Discussion.Identity
import Discussion.Instant.Basic
import Discussion.Instant.Calendar
import Discussion.Instant.Text
import Discussion.Json.Basic
import Discussion.Json.Decoder
import Discussion.Json.Reader
import Discussion.Json.Writer
import Discussion.Main
import Discussion.Order
import Discussion.Pagination
import Discussion.Plan.Basic
import Discussion.Plan.Eligibility
import Discussion.Program.Basic
import Discussion.Program.Directories
import Discussion.Program.World
import Discussion.Settings.Basic
import Discussion.Settings.File
import Discussion.Settings.Text
import Discussion.Snapshot
import Discussion.Source
import Discussion.Store.Basic
import Discussion.Text.Blank
import Discussion.Text.Combining
import Discussion.Text.Double
import Discussion.Text.Ignorable
import Discussion.Text.Numeral
import Discussion.Text.Printable
import Discussion.Text.Quoted
import Discussion.Text.Ranges
import Discussion.Text.Split
import Discussion.Text.Utf8
import Discussion.Thread.Basic
import Discussion.Thread.Roster
import Discussion.Toml.Basic
import Discussion.Toml.Document
import Discussion.Toml.Lexeme
import Discussion.Toml.Reader
import Discussion.View.Basic
import Discussion.View.Service
import Discussion.Viewer.Basic
import Discussion.Viewer.Text
import Discussion.Visibility
import Discussion.Proofs.Forest.Address
import Discussion.Proofs.Plan.Decision
import Discussion.Proofs.Plan.Rules
import Discussion.Proofs.Plan.Presence
import Discussion.Proofs.Forest.Growth
import Discussion.Proofs.Thread.Resolution
import Discussion.Proofs.Thread.Whole
import Discussion.Proofs.View.Service
import Discussion.Proofs.View.Discretion
import Discussion.Proofs.Forest.Pruning
import Discussion.Proofs.Plan.Omission
import Discussion.Proofs.Forest.Following
import Discussion.Proofs.Forest.Height
import Discussion.Proofs.Thread.Subtree
import Discussion.Proofs.Thread.Backlog
import Discussion.Proofs.Thread.Agreement
import Discussion.Proofs.Thread.Arrival
import Discussion.Proofs.Thread.Ranking
import Discussion.Proofs.View.Arrival
import Discussion.Proofs.Forest.Matching
import Discussion.Proofs.Plan.Appearance
import Discussion.Proofs.Plan.Raising
import Discussion.Proofs.Plan.Hiding
import Discussion.Proofs.Plan.Standing
import Discussion.Proofs.Plan.SigningIn
import Discussion.Proofs.Plan.Opening
import Discussion.Proofs.Plan.Roots
import Discussion.Proofs.View.Opening
import Discussion.Proofs.View.Agreement
import Discussion.Proofs.View.Paging
import Discussion.Proofs.Forest.Rearrangement
import Discussion.Proofs.View.Ordering
import Discussion.Proofs.View.Limits
import Discussion.Proofs.View.Completeness
import Discussion.Proofs.View.Changing
import Discussion.Proofs.Result
import Discussion.Proofs.Text.Numeral
import Discussion.Proofs.Text.Utf8
import Discussion.Proofs.Toml.Line
import Discussion.Proofs.Toml.Integers
import Discussion.Proofs.Json.Reading
import Discussion.Proofs.Json.Layout
import Discussion.Proofs.Instant.Calendar
import Discussion.Proofs.Instant.Text
import Discussion.Proofs.Form.Plan
import Discussion.Proofs.Form.Snapshot
import Discussion.Proofs.Disk.Path
import Discussion.Proofs.Disk.View
import Discussion.Proofs.Disk.Change
import Discussion.Proofs.Program.Running
import Discussion.Proofs.Program.Acting
import Discussion.Proofs.Program.Interleaving
import Discussion.Proofs.Program.Watching
import Discussion.Proofs.Store.Names
import Discussion.Proofs.Store.Loading
import Discussion.Proofs.Store.Saving
import Discussion.Proofs.Store.Stages
import Discussion.Proofs.Store.Overlapping
import Discussion.Proofs.Store.Opening
import Discussion.Proofs.Store.Keeping
import Discussion.Proofs.Store.Listing
import Discussion.Proofs.Store.Filing
import Discussion.Proofs.Store.History
import Discussion.Proofs.Settings.Text
import Discussion.Proofs.Settings.File
import Discussion.Proofs.Command.Arguments
import Discussion.Proofs.Command.Rendering
import Discussion.Proofs.Thread.Rebuilding
import Discussion.Proofs.Forest.Mirror
import Discussion.Proofs.Thread.Mirror
import Discussion.Proofs.Thread.Accounting
import Discussion.Proofs.Command.Scores
import Discussion.Proofs.Forest.Preorder
import Discussion.Proofs.Command.Rows
import Discussion.Proofs.Text.Blank
import Discussion.Proofs.Text.Split
import Discussion.Proofs.Text.Word
import Discussion.Proofs.Commentable.Text
import Discussion.Proofs.Viewer.Text
import Discussion.Proofs.Disk.Suffix
import Discussion.Proofs.Settings.Confinement
import Discussion.Proofs.Command.Resetting
import Discussion.Proofs.Order.Precedence
import Discussion.Proofs.Forest.Agenda
import Discussion.Proofs.Forest.Finding
import Discussion.Proofs.Plan.Finding
import Discussion.Proofs.Forest.Evaluation
import Discussion.Proofs.Plan.Walking
