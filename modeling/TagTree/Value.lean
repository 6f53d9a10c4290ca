import TagTree.Element

/-!
# Values of parser expressions

Parser expressions are put together at run time, so their values are of one type that holds
whatever a parser may give. Every value has a text, which tests and continuations look at.

## Main definitions

* `Value`: the values.
* `Value.toText`: the text of a value.
* `Value.joined`, `Value.count`, `Value.increased`, `Value.swapped`: transformations.
* `Value.isText`, `Value.hasAtLeast` and others: tests.
-/

namespace TagTree

/-- What a parser expression may give. -/
inductive Value where
  | unit
  | char (c : Char)
  | text (t : Text)
  | int (i : Int)
  | list (vs : List Value)
  | pair (a b : Value)
  | absent
  | present (v : Value)
  | element (e : Element)
deriving Repr

namespace Value

mutual

/-- The text of a value: characters and texts stand for themselves, integers for their decimal
digits, elements for their names; compound values are the texts of their parts put together. -/
def toText : Value → Text
  | unit => []
  | char c => [c]
  | text t => t
  | int i => (toString i).toList
  | list vs => toTexts vs
  | pair a b => toText a ++ toText b
  | absent => []
  | present v => toText v
  | element e => e.name

/-- The texts of some values, put together. -/
def toTexts : List Value → Text
  | [] => []
  | v :: vs => toText v ++ toTexts vs

end

/-! ### Values of parsed things -/

/-- An attribute is the pair of its name and its value. -/
def ofAttribute (a : Attribute) : Value :=
  pair (text a.name) (text a.value)

/-- A part that may be absent. -/
def ofOption : Option Value → Value
  | none => absent
  | some v => present v

/-! ### Transformations -/

/-- The text of a value, as a value. -/
def joined (v : Value) : Value :=
  text v.toText

/-- The number of items of a list, and the number of characters of any other value's text. -/
def count : Value → Value
  | list vs => int vs.length
  | v => int v.toText.length

/-- An integer plus one; other values are unchanged. -/
def increased : Value → Value
  | int i => int (i + 1)
  | v => v

/-- A pair with its sides exchanged; other values are unchanged. -/
def swapped : Value → Value
  | pair a b => pair b a
  | v => v

/-! ### Tests -/

/-- Whether the text of a value is `t`. -/
def isText (t : Text) (v : Value) : Bool :=
  v.toText == t

/-- Whether the text of a value is not `t`. -/
def isNotText (t : Text) (v : Value) : Bool :=
  v.toText != t

/-- Whether the text of a value has a character. -/
def hasText (v : Value) : Bool :=
  !v.toText.isEmpty

/-- Whether the text of a value consists of ASCII digits. -/
def isDigits (v : Value) : Bool :=
  v.toText.all Char.isDigit

/-- Whether the text of a value consists of ASCII letters. -/
def isLetters (v : Value) : Bool :=
  v.toText.all Char.isAlpha

/-- Whether a value is a list of at least `n` items. -/
def hasAtLeast (n : Nat) : Value → Bool
  | list vs => decide (n ≤ vs.length)
  | _ => false

end Value

end TagTree
