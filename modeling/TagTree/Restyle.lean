import TagTree.Grammar
import TagTree.Layout.Pen

/-!
# Documents in another style

A document is parsed and written again in a given style. Either step may fail; a document that
does not parse is reported before anything is written. Only the second step can come to a text that
is too long.

## Main definitions

* `RestyleError`: the error of one of the two steps.
* `restyle`: a document in another style, with the log of its parsing.
-/

namespace TagTree

/-- Why a document cannot be written in another style. -/
inductive RestyleError where
  /-- It does not parse. -/
  | parse (e : ParseError)
  /-- It parses, and cannot be written. -/
  | write (e : WriteError)
deriving Repr

/-- The wording of an error. -/
def RestyleError.message : RestyleError → String
  | parse e => "Parse error: " ++ e.message
  | write e => "Format error: " ++ e.message

/-- A document in another style. -/
def restyle (s : Text) (style : Style) : Reply (Failure RestyleError) Text :=
  Reply.after [.restyleStarted style] <|
    ((Grammar.document s).mapError fun e => .reported (.parse e)).bind fun root =>
      ⟨(root.toMarkup style).mapError (.map .write), []⟩

end TagTree
