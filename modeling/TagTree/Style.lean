/-!
# Output styles

A style says how an element tree is laid out: on one line or on a line per element, how far each
level is indented, and how childless elements are spelled.

## Main definitions

* `Style`: the three choices.
* The default style: two spaces per level, pretty, self-closing.
* `Style.compact`: everything on one line.
* `Style.describe`: a style as shown in the log.
-/

namespace TagTree

/-- How an element tree is written. -/
structure Style where
  /-- Spaces per level of nesting, a word of 64 bits. -/
  indentWidth : UInt64
  /-- One element per line, children indented; otherwise nothing stands between tags. -/
  pretty : Bool
  /-- Childless elements are written as one self-closing tag instead of a tag pair. -/
  selfClose : Bool
deriving DecidableEq, Repr

namespace Style

instance : Inhabited Style := ⟨⟨2, true, true⟩⟩

/-- The default style on a single line. -/
def compact : Style :=
  { (default : Style) with pretty := false }

/-- The spelling of a truth value. -/
def boolText (b : Bool) : String :=
  if b then "true" else "false"

/-- A style as shown in the log. -/
def describe (style : Style) : String :=
  "FormatterConfig \x7b indent_spaces: " ++ toString style.indentWidth.toNat ++
    ", pretty: " ++ boolText style.pretty ++
    ", self_close_empty: " ++ boolText style.selfClose ++ " \x7d"

end Style

end TagTree
