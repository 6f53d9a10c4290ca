import TagTree.Text.Quoted
import TagTree.Decimal.Shortest

/-!
# What can be wrong with a JSON text

A JSON text is read from left to right, and the first problem is reported. It is one of three
kinds: the text is not JSON at all, it ends inside a value, or it is JSON so far and does not
describe a value of the wanted type. Only the last kind has a wording here.

## Main definitions

* `Json.Error`: the three kinds.
* `Json.Mismatch`: how a value fails to be of the wanted type.
* `Json.Found`, `Json.Wanted`: what was found, and what was wanted instead.
-/

namespace TagTree.Json

/-- What was found in the text. -/
inductive Found where
  | null
  | boolean (b : Bool)
  | integer (i : Int)
  | floating (x : Float)
  | string (t : Text)
  | sequence
  | map
deriving Repr

/-- What was wanted at that place. -/
inductive Wanted where
  | natural
  | boolean
  | string
  | sequence
  | pair
  | style
  | element
deriving DecidableEq, Repr

/-- How a value fails to be of the wanted type. -/
inductive Mismatch where
  /-- A value of another type. -/
  | invalidType (found : Found) (wanted : Wanted)
  /-- An integer that the type does not hold. -/
  | invalidValue (value : Int) (wanted : Wanted)
  /-- An array with that many items, which are too few. -/
  | invalidLength (length : Nat) (wanted : Wanted)
  /-- A second member of that name. -/
  | duplicateField (name : String)
  /-- No member of that name. -/
  | missingField (name : String)
deriving Repr

/-- The first problem of a JSON text. -/
inductive Error where
  /-- The text is not JSON. -/
  | malformed
  /-- The text ends inside a value. -/
  | unfinished
  /-- A value is not of the wanted type. -/
  | mismatch (m : Mismatch)
deriving Repr

/-- The wording of what was found. -/
def Found.describe : Found → String
  | null => "null"
  | boolean b => "boolean `" ++ (if b then "true" else "false") ++ "`"
  | integer i => "integer `" ++ toString i ++ "`"
  | floating x => "floating point `" ++ Decimal.floatText x ++ "`"
  | string t => "string " ++ t.quoted
  | sequence => "sequence"
  | map => "map"

/-- The wording of what was wanted. -/
def Wanted.describe : Wanted → String
  | natural => "usize"
  | boolean => "a boolean"
  | string => "a string"
  | sequence => "a sequence"
  | pair => "a tuple of size 2"
  | style => "struct FormatterConfig"
  | element => "struct Element"

/-- The wording of what was wanted, with the number of items it has. -/
def Wanted.describeLength : Wanted → String
  | style => "struct FormatterConfig with 3 elements"
  | element => "struct Element with 3 elements"
  | wanted => wanted.describe

/-- The wording of a mismatch. -/
def Mismatch.message : Mismatch → String
  | invalidType found wanted =>
    "invalid type: " ++ found.describe ++ ", expected " ++ wanted.describe
  | invalidValue value wanted =>
    "invalid value: " ++ (Found.integer value).describe ++ ", expected " ++ wanted.describe
  | invalidLength length wanted =>
    "invalid length " ++ toString length ++ ", expected " ++ wanted.describeLength
  | duplicateField name => "duplicate field `" ++ name ++ "`"
  | missingField name => "missing field `" ++ name ++ "`"

/-- The wording of an error. -/
def Error.message : Error → String
  | malformed => "malformed JSON text"
  | unfinished => "unfinished JSON text"
  | mismatch m => m.message

end TagTree.Json
