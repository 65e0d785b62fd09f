import Typeahead.Total
import Typeahead.Distinct
import Typeahead.Text.Offset
import Typeahead.Text.Sorted
import Typeahead.Text.Letter
import Typeahead.Text.Lowercase
import Typeahead.Text.Blank
import Typeahead.Text.Occurs
import Typeahead.Text.Quoted
import Typeahead.Text.Number
import Typeahead.Text.Decimal
import Typeahead.Grammar.Error
import Typeahead.Grammar.Basic
import Typeahead.Grammar.Token
import Typeahead.Grammar.Draft
import Typeahead.Grammar.Leftmost
import Typeahead.Grammar.Compile
import Typeahead.Tree.Branch
import Typeahead.Tree.Basic
import Typeahead.Tree.Layout
import Typeahead.Tree.Lookup
import Typeahead.Tree.Outline
import Typeahead.Match.Machine
import Typeahead.Match.Report
import Typeahead.Json.Token
import Typeahead.Json.Value
import Typeahead.Json.Write
import Typeahead.Suggestions
import Typeahead.Sample
import Typeahead.Shortlist
import Typeahead.Folder
import Typeahead.Settings
import Typeahead.Recall.Score
import Typeahead.Recall
import Typeahead.Tally.Window
import Typeahead.Tally
import Typeahead.Tally.Report
import Typeahead.Reader.Backend
import Typeahead.Reader
import Typeahead.Clock
import Typeahead.Debounce.Slot
import Typeahead.Debounce.Timeline
import Typeahead.Editor.Node
import Typeahead.Editor.Input
import Typeahead.Editor.Display
import Typeahead.Editor.Basic
import Typeahead.Editor.Resolve
import Typeahead.Editor.Fetch
import Typeahead.Editor.Event
import Typeahead.Editor.Source
import Typeahead.Editor.Host
import Typeahead.Console.Options
import Typeahead.Console.Command
import Typeahead.Console.Run
import Typeahead.Main
import Typeahead.Proofs.Reader
import Typeahead.Proofs.Recall
import Typeahead.Proofs.Recency
import Typeahead.Proofs.Grammar.Compile
import Typeahead.Proofs.Grammar.Nullable
import Typeahead.Proofs.Grammar.LeftRecursion
import Typeahead.Proofs.Grammar.Derivation
import Typeahead.Proofs.Grammar.Cycle
import Typeahead.Proofs.Grammar.Layout
import Typeahead.Proofs.Grammar.Draft
import Typeahead.Proofs.Grammar.Written
import Typeahead.Proofs.Match.Naive
import Typeahead.Proofs.Match.Step
import Typeahead.Proofs.Match.Refinement
import Typeahead.Proofs.Match.Progress
import Typeahead.Proofs.Match.Termination
import Typeahead.Proofs.Match.Packrat
import Typeahead.Proofs.Match.Fault
import Typeahead.Proofs.Match.Emission
import Typeahead.Proofs.Match.Extent
import Typeahead.Proofs.Editor.Effect
import Typeahead.Proofs.Editor.Course
import Typeahead.Proofs.Editor.Step
import Typeahead.Proofs.Editor.Execute
import Typeahead.Proofs.Editor.Order
import Typeahead.Proofs.Editor.Delivery
import Typeahead.Proofs.Editor.Documents
import Typeahead.Proofs.Editor.Wait
import Typeahead.Proofs.Editor.Convergence
import Typeahead.Proofs.Editor.Progress
import Typeahead.Proofs.Editor.Closing
import Typeahead.Proofs.Editor.Selection
import Typeahead.Proofs.Editor.Substitution
import Typeahead.Proofs.Editor.Target
import Typeahead.Proofs.Editor.Aim
import Typeahead.Proofs.Editor.Account
import Typeahead.Proofs.Editor.Ledger
import Typeahead.Proofs.Editor.Panel
import Typeahead.Proofs.Editor.Caret
import Typeahead.Proofs.Editor.Locked
import Typeahead.Proofs.Editor.Posture
import Typeahead.Proofs.Host.Turn
import Typeahead.Proofs.Host.Burst
import Typeahead.Proofs.Tree.Normal
import Typeahead.Proofs.Tree.Assembly
import Typeahead.Proofs.Tree.Image
import Typeahead.Proofs.Tree.Readback
import Typeahead.Proofs.Tree.Walk
import Typeahead.Proofs.Tree.Copy
import Typeahead.Proofs.Tree.Position
import Typeahead.Proofs.Tree.Descent
import Typeahead.Proofs.Match.InPlace
import Typeahead.Proofs.Sample.Grammar
import Typeahead.Proofs.Sample.Sentence
import Typeahead.Proofs.Sample.Reading
import Typeahead.Proofs.Debounce.Outlook
import Typeahead.Proofs.Debounce.Booking
import Typeahead.Proofs.Debounce.Sender
import Typeahead.Proofs.Debounce.Law
import Typeahead.Proofs.Tree.Outline
import Typeahead.Proofs.Shortlist.Order
import Typeahead.Proofs.Text.Lowercase
import Typeahead.Proofs.Shortlist.Typed
import Typeahead.Proofs.Grammar.Place
import Typeahead.Proofs.Grammar.Misspelling
import Typeahead.Proofs.Grammar.Culprit
import Typeahead.Proofs.Tally.Figures
import Typeahead.Proofs.Tally.Mean
import Typeahead.Proofs.Grammar.Sweep
import Typeahead.Proofs.Match.Consumption
