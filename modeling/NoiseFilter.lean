import NoiseFilter.CommandLine.Arguments
import NoiseFilter.CommandLine.Report
import NoiseFilter.CommandLine.Run
import NoiseFilter.Decimal.Shortest
import NoiseFilter.Engine.Badge
import NoiseFilter.Engine.Basic
import NoiseFilter.Engine.Feed
import NoiseFilter.Engine.Ratio
import NoiseFilter.Engine.Record
import NoiseFilter.Engine.Rule
import NoiseFilter.Extended.Basic
import NoiseFilter.Extended.Compile
import NoiseFilter.Extended.Scan
import NoiseFilter.Extended.Select
import NoiseFilter.Extended.TextTest
import NoiseFilter.Extended.Tidy
import NoiseFilter.Json.Decode
import NoiseFilter.Json.Printer
import NoiseFilter.Json.Reader
import NoiseFilter.Json.Value
import NoiseFilter.Main
import NoiseFilter.Markup.Builder.Basic
import NoiseFilter.Markup.Builder.Body
import NoiseFilter.Markup.Builder.Feed
import NoiseFilter.Markup.Builder.Formatting
import NoiseFilter.Markup.Builder.Head
import NoiseFilter.Markup.Builder.Table
import NoiseFilter.Markup.Cut
import NoiseFilter.Markup.DocumentType
import NoiseFilter.Markup.Entity
import NoiseFilter.Markup.Label
import NoiseFilter.Markup.Page
import NoiseFilter.Markup.Plant
import NoiseFilter.Markup.RawText
import NoiseFilter.Markup.Reference
import NoiseFilter.Markup.Token
import NoiseFilter.Pattern.Basic
import NoiseFilter.Pattern.CharSet
import NoiseFilter.Pattern.Compile
import NoiseFilter.Pattern.Form
import NoiseFilter.Pattern.PropertyName
import NoiseFilter.Pattern.Reader
import NoiseFilter.Proofs.Ascending
import NoiseFilter.Proofs.Engine.Act
import NoiseFilter.Proofs.Engine.Badge
import NoiseFilter.Proofs.Engine.Batches
import NoiseFilter.Proofs.Engine.Candidates
import NoiseFilter.Proofs.Engine.Classification
import NoiseFilter.Proofs.Engine.Confined
import NoiseFilter.Proofs.Engine.Counts
import NoiseFilter.Proofs.Engine.Explained
import NoiseFilter.Proofs.Engine.Failures
import NoiseFilter.Proofs.Engine.Flags
import NoiseFilter.Proofs.Engine.History
import NoiseFilter.Proofs.Engine.Load
import NoiseFilter.Proofs.Engine.Marks
import NoiseFilter.Proofs.Engine.ModeSwap
import NoiseFilter.Proofs.Engine.NodeActs
import NoiseFilter.Proofs.Engine.Pass
import NoiseFilter.Proofs.Engine.Ratio
import NoiseFilter.Proofs.Engine.Repeat
import NoiseFilter.Proofs.Engine.Residue
import NoiseFilter.Proofs.Engine.Run
import NoiseFilter.Proofs.Engine.Scoring
import NoiseFilter.Proofs.Engine.Settle
import NoiseFilter.Proofs.Engine.UpToDate
import NoiseFilter.Proofs.Engine.Watch
import NoiseFilter.Proofs.Extended.Append
import NoiseFilter.Proofs.Extended.Asked
import NoiseFilter.Proofs.Extended.Cursor
import NoiseFilter.Proofs.Extended.Cut
import NoiseFilter.Proofs.Extended.Escape
import NoiseFilter.Proofs.Extended.Indexed
import NoiseFilter.Proofs.Extended.Mend
import NoiseFilter.Proofs.Extended.Names
import NoiseFilter.Proofs.Extended.Orderly
import NoiseFilter.Proofs.Extended.Pair
import NoiseFilter.Proofs.Extended.Pieces
import NoiseFilter.Proofs.Extended.Recipe
import NoiseFilter.Proofs.Extended.Respaced
import NoiseFilter.Proofs.Extended.Safe
import NoiseFilter.Proofs.Extended.Scan
import NoiseFilter.Proofs.Extended.Spans
import NoiseFilter.Proofs.Extended.Stripped
import NoiseFilter.Proofs.Extended.Tidy
import NoiseFilter.Proofs.Extended.Walk
import NoiseFilter.Proofs.Json.RoundTrip
import NoiseFilter.Proofs.Markup.Plant
import NoiseFilter.Proofs.Pattern.LetterCase
import NoiseFilter.Proofs.Record.Act
import NoiseFilter.Proofs.Record.Agreement
import NoiseFilter.Proofs.Record.Blind
import NoiseFilter.Proofs.Record.Entries
import NoiseFilter.Proofs.Record.Marks
import NoiseFilter.Proofs.Record.Operation
import NoiseFilter.Proofs.Record.Pairs
import NoiseFilter.Proofs.Record.Reconcile
import NoiseFilter.Proofs.Record.RoundTrip
import NoiseFilter.Proofs.Record.Run
import NoiseFilter.Proofs.Record.Worn
import NoiseFilter.Proofs.Score.LetterCase
import NoiseFilter.Proofs.Selector.Arguments
import NoiseFilter.Proofs.Selector.Grammar
import NoiseFilter.Proofs.Selector.IgnoreCase
import NoiseFilter.Proofs.Selector.Like
import NoiseFilter.Proofs.Selector.Line
import NoiseFilter.Proofs.Selector.Lookahead
import NoiseFilter.Proofs.Selector.Printer
import NoiseFilter.Proofs.Selector.Reach
import NoiseFilter.Proofs.Selector.RoundTrip
import NoiseFilter.Proofs.Selector.Row
import NoiseFilter.Proofs.Selector.Scoped
import NoiseFilter.Proofs.Selector.Siblings
import NoiseFilter.Proofs.Selector.Spelling
import NoiseFilter.Proofs.Selector.Tests
import NoiseFilter.Proofs.Selector.Trailing
import NoiseFilter.Proofs.Selector.WellFormed
import NoiseFilter.Proofs.Settings.Calls
import NoiseFilter.Proofs.Settings.Custom
import NoiseFilter.Proofs.Settings.Fresh
import NoiseFilter.Proofs.Settings.Merge
import NoiseFilter.Proofs.Settings.Saved
import NoiseFilter.Proofs.SortedMap
import NoiseFilter.Proofs.Text.Bytes
import NoiseFilter.Proofs.Text.CaseFold
import NoiseFilter.Proofs.Text.Cased
import NoiseFilter.Proofs.Text.LowerCase
import NoiseFilter.Proofs.Text.RangeTable
import NoiseFilter.Proofs.Text.Trim
import NoiseFilter.Proofs.Text.Words
import NoiseFilter.Proofs.Tree.ChildLists
import NoiseFilter.Proofs.Tree.Document
import NoiseFilter.Proofs.Tree.Edit
import NoiseFilter.Proofs.Tree.Element
import NoiseFilter.Proofs.Tree.Frame
import NoiseFilter.Proofs.Tree.Journal
import NoiseFilter.Proofs.Tree.Lineage
import NoiseFilter.Proofs.Tree.Linked
import NoiseFilter.Proofs.Tree.Mirror
import NoiseFilter.Proofs.Tree.NamedValues
import NoiseFilter.Proofs.Tree.Order
import NoiseFilter.Proofs.Tree.Parsed
import NoiseFilter.Proofs.Tree.Place
import NoiseFilter.Proofs.Tree.Position
import NoiseFilter.Proofs.Tree.Preorder
import NoiseFilter.Proofs.Tree.Rendered
import NoiseFilter.Proofs.Tree.Settled
import NoiseFilter.Proofs.Tree.Style
import NoiseFilter.Proofs.Tree.Threads
import NoiseFilter.Proofs.Tree.Top
import NoiseFilter.Proofs.Tree.Visible
import NoiseFilter.Proofs.Tree.Write
import NoiseFilter.Score.Basic
import NoiseFilter.Score.Measure
import NoiseFilter.Selector.Attribute
import NoiseFilter.Selector.Basic
import NoiseFilter.Selector.Match
import NoiseFilter.Selector.Nth
import NoiseFilter.Selector.Reader
import NoiseFilter.Settings.Bundled
import NoiseFilter.Settings.Catalog
import NoiseFilter.Settings.Config
import NoiseFilter.Settings.Custom
import NoiseFilter.Settings.Load
import NoiseFilter.Settings.Options
import NoiseFilter.Settings.Save
import NoiseFilter.SortedMap
import NoiseFilter.Text.Ascii
import NoiseFilter.Text.Blank
import NoiseFilter.Text.CaseFold
import NoiseFilter.Text.Category
import NoiseFilter.Text.LowerCase
import NoiseFilter.Text.Property
import NoiseFilter.Text.Quoted
import NoiseFilter.Text.RangeTable
import NoiseFilter.Text.Reading
import NoiseFilter.Text.Replace
import NoiseFilter.Text.Script
import NoiseFilter.Tree.Basic
import NoiseFilter.Tree.ClassList
import NoiseFilter.Tree.Document
import NoiseFilter.Tree.Element
import NoiseFilter.Tree.Forest
import NoiseFilter.Tree.InlineStyle
import NoiseFilter.Tree.NamedValues
import NoiseFilter.Tree.Text
