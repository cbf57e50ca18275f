import Statechart.Order.SortedSet
import Statechart.Order.SortedMap
import Statechart.Text.Blank
import Statechart.Text.Letter
import Statechart.Decimal.Style
import Statechart.Decimal.Reading
import Statechart.Json.Printer
import Statechart.Json.Reader
import Statechart.Text.Split
import Statechart.Event
import Statechart.Tree.Kind
import Statechart.Guard.Basic
import Statechart.Error
import Statechart.Definition.Decode
import Statechart.Tree.Build
import Statechart.Definition.Basic
import Statechart.Value.Configuration
import Statechart.History
import Statechart.Timer
import Statechart.Session
import Statechart.View.Overlay
import Statechart.View.Routing
import Statechart.Settings.File
import Statechart.Service.Basic
import Statechart.Service.Audience
import Statechart.CommandLine.Launch
import Statechart.Main
import Statechart.Proofs.Outcome
import Statechart.Proofs.Tree.Ancestry
import Statechart.Proofs.Tree.Layout
import Statechart.Proofs.Tree.Draft
import Statechart.Proofs.Tree.Loaded
import Statechart.Proofs.Tree.Names
import Statechart.Proofs.Tree.Letters
import Statechart.Proofs.Tree.Targets
import Statechart.Proofs.Tree.Drawn
import Statechart.Proofs.Tree.Faithful
import Statechart.Proofs.Tree.Handlers
import Statechart.Proofs.Configuration.Legal
import Statechart.Proofs.Entry.Descent
import Statechart.Proofs.Entry.Growth
import Statechart.Proofs.Entry.Target
import Statechart.Proofs.Entry.Complete
import Statechart.Proofs.Entry.Restored
import Statechart.Proofs.Entry.Depth
import Statechart.Proofs.Step.Selection
import Statechart.Proofs.Step.Microstep
import Statechart.Proofs.Step.Legality
import Statechart.Proofs.Step.Frame
import Statechart.Proofs.Step.Order
import Statechart.Proofs.Value.Shown
import Statechart.Proofs.Value.Reading
import Statechart.Proofs.Value.Described
import Statechart.Proofs.Value.RoundTrip
import Statechart.Proofs.Value.Membership
import Statechart.Proofs.Step.Commute
import Statechart.Proofs.Step.Failure
import Statechart.Proofs.Step.Picks
import Statechart.Proofs.Step.Conflicts
import Statechart.Proofs.Run.Moments
import Statechart.Proofs.Run.Completion
import Statechart.Proofs.Run.States
import Statechart.Proofs.Run.Handled
import Statechart.Proofs.Run.Faults
import Statechart.Proofs.Run.Course
import Statechart.Proofs.Run.Recall
import Statechart.Proofs.Timer.Registry
import Statechart.Proofs.Timer.Names
import Statechart.Proofs.Timer.Firing
import Statechart.Proofs.Timer.Answers
import Statechart.Proofs.Run.Since
import Statechart.Proofs.Run.Chronicle
import Statechart.Proofs.Run.Loop
import Statechart.Proofs.Run.Limit
import Statechart.Proofs.Run.Rest
import Statechart.Proofs.Run.Armed
import Statechart.Proofs.Run.Ending
import Statechart.Proofs.Run.Failed
import Statechart.Proofs.Json.Reread
import Statechart.Proofs.Definition.Parts
import Statechart.Proofs.Definition.Reload
import Statechart.Proofs.Definition.Spellings
import Statechart.Proofs.Guard.Written
import Statechart.Proofs.Guard.Reading
import Statechart.Proofs.Guard.Fields
import Statechart.Proofs.View.Ids
import Statechart.Proofs.View.Holders
import Statechart.Proofs.View.Marking
import Statechart.Proofs.View.Nesting
import Statechart.Proofs.View.Highlight
import Statechart.Proofs.View.Activity
import Statechart.Proofs.View.Extraction
import Statechart.Proofs.View.Availability
import Statechart.Proofs.Service.Published
import Statechart.Proofs.Service.Calls
import Statechart.Proofs.Service.Stream
import Statechart.Proofs.Service.Waiting
import Statechart.Proofs.Timer.Schedule
import Statechart.Proofs.View.Deltas
import Statechart.Proofs.Json.Tokens
import Statechart.Proofs.Json.Extent
import Statechart.Proofs.CommandLine.Typed
