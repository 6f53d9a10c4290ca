import TagTree.Expr.Parser
import TagTree.Style.Json
import TagTree.Element.Json
import TagTree.Restyle
import TagTree.Proofs.Text.Runs
import TagTree.Proofs.Parser.Reads
import TagTree.Proofs.Parser.Rounds
import TagTree.Proofs.Parser.Fails
import TagTree.Proofs.Parser.Records
import TagTree.Proofs.Grammar.Progress
import TagTree.Proofs.Grammar.Spelling
import TagTree.Proofs.Grammar.Tags
import TagTree.Proofs.Grammar.AttributeList
import TagTree.Proofs.Grammar.Nesting
import TagTree.Proofs.Grammar.Exactness
import TagTree.Proofs.Layout.Written
import TagTree.Proofs.Layout.Following
import TagTree.Proofs.Layout.Markup
import TagTree.Proofs.Element.Subtrees
import TagTree.Proofs.Grammar.Readable
import TagTree.Proofs.RoundTrip
import TagTree.Proofs.RestyleErrors
import TagTree.Proofs.Grammar.ValueGaps
import TagTree.Proofs.Grammar.SelfDelimiting
import TagTree.Proofs.Grammar.RootFault
import TagTree.Proofs.Grammar.Retries
import TagTree.Proofs.Expr.Ends
import TagTree.Proofs.Parser.Cursor
import TagTree.Proofs.Expr.Cursor
import TagTree.Proofs.Expr.Notes
import TagTree.Proofs.Layout.Shortest
import TagTree.Proofs.Parser.Loop
import TagTree.Proofs.Parser.Trail
import TagTree.Proofs.Parser.FirstItem
import TagTree.Proofs.Layout.Defects
import TagTree.Proofs.Layout.Levels
import TagTree.Proofs.Layout.Tags
import TagTree.Proofs.Layout.Drawing
import TagTree.Proofs.Layout.Stripped
import TagTree.Proofs.Grammar.Calls
import TagTree.Proofs.Layout.IndentBound
import TagTree.Proofs.Parser.Alternatives
import TagTree.Proofs.Json.Spelling
import TagTree.Proofs.Json.Strings
import TagTree.Proofs.Json.Reads
import TagTree.Proofs.Json.Skip
import TagTree.Proofs.Json.Typed
import TagTree.Proofs.Element.Json
import TagTree.Proofs.Style.Json
