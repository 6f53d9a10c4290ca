import TagTree.Layout.Draft
import TagTree.Layout.Sheet
import TagTree.Style

/-!
# Pens: writing drafts in a style

A pen has a style, a sheet and a level of indentation, and follows the marks of a draft one by one.
One pen may draw any number of elements; each time it starts with a blank sheet on level zero,
whatever the drawing before it left behind.

The level is a word, and so is the number of spaces at the start of a line. Nothing guards either of
them: words wrap around. What does have an end is the sheet. A pen that finds no room stops where it
is, in the middle of the marks; the program then gives up without an error to report, which is an
outcome of its own (`Failure.overflow`).

## Main definitions

* `Failure`: an error that is reported, or an overflow.
* `Pen`, `Pen.follow`: a pen and its reaction to a mark.
* `Pen.put`: an element written where the pen stands.
* `Pen.draw`, `Pen.drawAll`: elements written from a fresh start.
* `Element.toMarkup`: the text of an element in a style.
-/

namespace TagTree

/-- Why there is no result. -/
inductive Failure (ε : Type) where
  /-- There is an error, and it is reported. -/
  | reported (e : ε)
  /-- A text would have become longer than any text can be. -/
  | overflow
deriving Repr

/-- The failure with its error transformed. -/
def Failure.map {ε δ : Type} (f : ε → δ) : Failure ε → Failure δ
  | reported e => reported (f e)
  | overflow => overflow

/-- A pen that writes in a style. -/
structure Pen where
  style : Style
  sheet : Sheet
  /-- How many levels the next line is indented, a word of 64 bits. -/
  level : UInt64
deriving DecidableEq, Repr

namespace Pen

/-- A pen that has written nothing. -/
def new (style : Style) : Pen :=
  ⟨style, .blank, 0⟩

/-- What has been written. -/
def written (pen : Pen) : Text :=
  pen.sheet.text

/-- The pen with a blank sheet, on level zero. -/
def reset (pen : Pen) : Pen :=
  ⟨pen.style, .blank, 0⟩

/-- The pen with its sheet as it is after writing, or as it was if there was no room. -/
def onto (pen : Pen) : Option Sheet → Except Pen Pen
  | some sheet => .ok ⟨pen.style, sheet, pen.level⟩
  | none => .error pen

/-- Writes a text. -/
def write (pen : Pen) (t : Text) : Except Pen Pen :=
  pen.onto (pen.sheet.write t)

/-- The number of spaces at the start of a line on a level. -/
def indentation (style : Style) (level : UInt64) : UInt64 :=
  level * style.indentWidth

/-- Writes the spaces at the start of a line. Only spaces are used for it, since a tab is not
blank. -/
def indent (pen : Pen) : Except Pen Pen :=
  pen.onto (pen.sheet.writeSpaces (indentation pen.style pen.level).toNat)

/-- Ends the line and indents the next one, if the style breaks lines at all. -/
def breakLine (pen : Pen) : Except Pen Pen :=
  if pen.style.pretty then (pen.write ['\n']).bind indent else .ok pen

/-- Follows a mark. A pen that finds no room is left as it then is. -/
def follow (pen : Pen) : Mark → Except Pen Pen
  | .text t => pen.write t
  | .stepIn => .ok ⟨pen.style, pen.sheet, pen.level + 1⟩
  | .stepOut => .ok ⟨pen.style, pen.sheet, if 0 < pen.level then pen.level - 1 else pen.level⟩
  | .lineBreak => pen.breakLine

/-- Follows marks in order, until there is no room. -/
def followAll (pen : Pen) (marks : List Mark) : Except Pen Pen :=
  marks.foldlM follow pen

/-- Writes an element where the pen stands, up to its first defect. -/
def put (pen : Pen) (e : Element) : Except (Failure WriteError) Unit × Pen :=
  let draft := e.draft pen.style.selfClose
  match pen.followAll draft.marks with
  | .error pen => (.error .overflow, pen)
  | .ok pen =>
    match draft.defect with
    | none => (.ok (), pen)
    | some defect => (.error (.reported defect), pen)

/-- Writes an element from a fresh start and hands over the text. After a failure the pen keeps what
it has written so far. -/
def draw (pen : Pen) (e : Element) : Except (Failure WriteError) Text × Pen :=
  match pen.reset.put e with
  | (.ok (), pen) => (.ok pen.written, ⟨pen.style, .blank, pen.level⟩)
  | (.error failure, pen) => (.error failure, pen)

/-- Draws elements one after the other with the same pen. -/
def drawAll (pen : Pen) : List Element → List (Except (Failure WriteError) Text)
  | [] => []
  | e :: es =>
    let (result, pen) := pen.draw e
    result :: drawAll pen es

theorem followAll_cons (pen : Pen) (m : Mark) (marks : List Mark) :
    pen.followAll (m :: marks) = (pen.follow m).bind fun pen => pen.followAll marks :=
  rfl

end Pen

/-- The text of an element in a style. -/
def Element.toMarkup (e : Element) (style : Style) : Except (Failure WriteError) Text :=
  ((Pen.new style).draw e).1

end TagTree
