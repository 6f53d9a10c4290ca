import TagTree.Json.Typed
import TagTree.Style

/-!
# Styles as JSON

A style is an object with the members `indent_spaces`, `pretty` and `self_close_empty`, in any
order, or an array of the three values. Whatever is missing has its default, and unknown members
are skipped.

## Main definitions

* `Style.ofJson`: reads a style.
* `Style.toJson`: writes a style, with all members and without space.
-/

namespace TagTree.Style

open Json (Reader)

/-- The members of a style read so far. -/
structure Fields where
  indentWidth : Option UInt64
  pretty : Option Bool
  selfClose : Option Bool

namespace Fields

/-- No member read yet. -/
def none : Fields :=
  ⟨.none, .none, .none⟩

/-- The style with the members read, and the defaults for the others. -/
def style (f : Fields) : Style :=
  ⟨f.indentWidth.getD (default : Style).indentWidth, f.pretty.getD (default : Style).pretty,
    f.selfClose.getD (default : Style).selfClose⟩

/-- Reads the member called `name`, after its key. -/
def read (f : Fields) (name : Text) : Reader Fields :=
  if name = "indent_spaces".toList then
    Json.field "indent_spaces" f.indentWidth Json.readNatural
      fun n => ⟨some n, f.pretty, f.selfClose⟩
  else if name = "pretty".toList then
    Json.field "pretty" f.pretty Json.readBool
      fun b => ⟨f.indentWidth, some b, f.selfClose⟩
  else if name = "self_close_empty".toList then
    Json.field "self_close_empty" f.selfClose Json.readBool
      fun b => ⟨f.indentWidth, f.pretty, some b⟩
  else Json.unknownField f

end Fields

/-- Reads the values of a style in an array, after its opening bracket. -/
def readItems : Reader Style :=
  fun s => do
    let (indentWidth, s) ← Json.defaultItem 0 Json.readNatural (default : Style).indentWidth s
    let (pretty, s) ← Json.defaultItem 1 Json.readBool (default : Style).pretty s
    let (selfClose, s) ← Json.defaultItem 2 Json.readBool (default : Style).selfClose s
    return (⟨indentWidth, pretty, selfClose⟩, s)

/-- Reads a style from a JSON text. -/
def ofJson (s : Text) : Except Json.Error Style :=
  Json.whole (Json.readStruct .style Fields.read Fields.none (fun f => .ok f.style) readItems) s

/-- The JSON text of a style. -/
def toJson (style : Style) : Text :=
  "\x7b\"indent_spaces\":".toList ++ Nat.toDigits 10 style.indentWidth.toNat ++
    ",\"pretty\":".toList ++ (boolText style.pretty).toList ++
    ",\"self_close_empty\":".toList ++ (boolText style.selfClose).toList ++ ['\x7d']

end TagTree.Style
