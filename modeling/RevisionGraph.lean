import RevisionGraph.App.Draw
import RevisionGraph.App.Footer
import RevisionGraph.App.Help
import RevisionGraph.App.Keys
import RevisionGraph.App.Mouse
import RevisionGraph.App.State
import RevisionGraph.App.Update
import RevisionGraph.Bookmark
import RevisionGraph.Bookmark.Listing
import RevisionGraph.CheckedSet
import RevisionGraph.Cli.Json
import RevisionGraph.Cli.Options
import RevisionGraph.Cli.Program
import RevisionGraph.Command
import RevisionGraph.Config
import RevisionGraph.Effect
import RevisionGraph.Key
import RevisionGraph.Layout.Rect
import RevisionGraph.Layout.Strip
import RevisionGraph.Layout.Targets
import RevisionGraph.Layout.Viewport
import RevisionGraph.Log.Builder
import RevisionGraph.Log.Commit
import RevisionGraph.Log.Glyph
import RevisionGraph.Log.Held
import RevisionGraph.Log.Row
import RevisionGraph.Log.Stream
import RevisionGraph.Log.Summary
import RevisionGraph.Main
import RevisionGraph.Operation
import RevisionGraph.Operation.Batch
import RevisionGraph.Operation.CreateBookmark
import RevisionGraph.Operation.MoveBookmark
import RevisionGraph.Operation.NameInput
import RevisionGraph.Operation.Ranking
import RevisionGraph.Runner
import RevisionGraph.Runner.Process
import RevisionGraph.Runner.Script
import RevisionGraph.Screen.Grid
import RevisionGraph.Screen.Paint
import RevisionGraph.Screen.Render
import RevisionGraph.Screen.Wrap
import RevisionGraph.Terminal.Decoder
import RevisionGraph.Terminal.Reader
import RevisionGraph.Terminal.Segment
import RevisionGraph.Terminal.Sgr
import RevisionGraph.Terminal.Source
import RevisionGraph.Terminal.Style
import RevisionGraph.Terminal.Unstyled
import RevisionGraph.Text.Alphanumeric
import RevisionGraph.Text.Blank
import RevisionGraph.Text.CharRange
import RevisionGraph.Text.Cluster
import RevisionGraph.Text.ClusterTable
import RevisionGraph.Text.DisplayWidth
import RevisionGraph.Text.Fit
import RevisionGraph.Text.JoiningTable
import RevisionGraph.Text.Ligature
import RevisionGraph.Text.Numeral
import RevisionGraph.Text.Picture
import RevisionGraph.Text.PictureTable
import RevisionGraph.Text.Similarity
import RevisionGraph.Text.Utf8
import RevisionGraph.Text.WidthTable
import RevisionGraph.View.BookmarkPanel
import RevisionGraph.View.Decoration
import RevisionGraph.View.RevisionList
import RevisionGraph.View.RevisionListDrawing
import RevisionGraph.View.RowLines
import RevisionGraph.View.ScreenTarget
import RevisionGraph.View.Theme
import RevisionGraph.Proofs.Decoding
import RevisionGraph.Proofs.Reading
import RevisionGraph.Proofs.RowPartition
import RevisionGraph.Proofs.Batching
import RevisionGraph.Proofs.Exchange
import RevisionGraph.Proofs.Loading
import RevisionGraph.Proofs.StripCells
import RevisionGraph.Proofs.LogWindow
import RevisionGraph.Proofs.Session
import RevisionGraph.Proofs.Responses
import RevisionGraph.Proofs.Standing
import RevisionGraph.Proofs.Focus
import RevisionGraph.Proofs.Routing
import RevisionGraph.Proofs.Calls
import RevisionGraph.Proofs.Closing
import RevisionGraph.Proofs.Deeds
import RevisionGraph.Proofs.Redrawing
import RevisionGraph.Proofs.Naming
import RevisionGraph.Proofs.Answering
import RevisionGraph.Proofs.ListRuns
import RevisionGraph.Proofs.Reloading
import RevisionGraph.Proofs.Following
import RevisionGraph.Proofs.Encoding
import RevisionGraph.Proofs.Writing
import RevisionGraph.Proofs.FailedReads
import RevisionGraph.Proofs.RevisionArguments
import RevisionGraph.Proofs.Accounts
import RevisionGraph.Proofs.Joining
import RevisionGraph.Proofs.Draining
import RevisionGraph.Proofs.LoadingAhead
import RevisionGraph.Proofs.LaterBatches
import RevisionGraph.Proofs.CursorInView
import RevisionGraph.Proofs.Toggling
import RevisionGraph.Proofs.Neighbours
import RevisionGraph.Proofs.Consistency
import RevisionGraph.Proofs.RecordListing
import RevisionGraph.Proofs.Unstyling
import RevisionGraph.Proofs.PlainListing
import RevisionGraph.Proofs.LineTexts
import RevisionGraph.Proofs.SilentSequences
import RevisionGraph.Proofs.JoinedRenditions
import RevisionGraph.Proofs.LossyText
import RevisionGraph.Proofs.DumpedText
import RevisionGraph.Proofs.WritableSegments
import RevisionGraph.Proofs.RowIdentity
import RevisionGraph.Proofs.DrawnRows
import RevisionGraph.Proofs.Editing
import RevisionGraph.Proofs.Suggestions
import RevisionGraph.Proofs.DrawnCompletion
import RevisionGraph.Proofs.OptionGrammar
import RevisionGraph.Proofs.BookmarkLines
import RevisionGraph.Proofs.UnorderedEffects
import RevisionGraph.Proofs.MouseTargets
import RevisionGraph.Proofs.PaletteGrammar
import RevisionGraph.Proofs.ContinuedGutters
import RevisionGraph.Proofs.EffectEvents
import RevisionGraph.Proofs.StampedMarks
