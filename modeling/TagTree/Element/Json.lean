import TagTree.Element
import TagTree.Json.Typed

/-!
# Elements as JSON

An element is an object with the members `name`, `attributes` and `children`, in any order, or an
array of the three values; none of them may be missing. An attribute is an array of two strings.

## Main definitions

* `Element.ofJson`: reads an element.
* `Element.toJson`: writes an element, without space.
-/

namespace TagTree.Element

open Json (Reader)

/-! ### Reading -/

/-- The members of an element read so far. -/
structure Fields where
  name : Option Text
  attributes : Option (List Attribute)
  children : Option (List Element)

namespace Fields

/-- No member read yet. -/
def none : Fields :=
  ⟨.none, .none, .none⟩

/-- The element with the members read, or the first of its members that is missing. -/
def element (f : Fields) : Except Json.Error Element := do
  let name ← Json.requiredField "name" f.name
  let attributes ← Json.requiredField "attributes" f.attributes
  let children ← Json.requiredField "children" f.children
  return ⟨name, attributes, children⟩

end Fields

/-- Reads an attribute. -/
def readAttribute : Reader Attribute :=
  fun s => do
    let (a, s) ← Json.readPair s
    return (⟨a.1, a.2⟩, s)

/-- Reads the member called `name`, after its key; `child` reads the elements inside. -/
def Fields.read (child : Reader Element) (f : Fields) (name : Text) : Reader Fields :=
  if name = "name".toList then
    Json.field "name" f.name Json.readText fun t => ⟨some t, f.attributes, f.children⟩
  else if name = "attributes".toList then
    Json.field "attributes" f.attributes (Json.readList readAttribute)
      fun as => ⟨f.name, some as, f.children⟩
  else if name = "children".toList then
    Json.field "children" f.children (Json.readList child) fun cs => ⟨f.name, f.attributes, some cs⟩
  else Json.unknownField f

/-- Reads the values of an element in an array, after its opening bracket. -/
def readItems (child : Reader Element) : Reader Element :=
  fun s => do
    let (name, s) ← Json.requiredItem .element 0 Json.readText s
    let (attributes, s) ← Json.requiredItem .element 1 (Json.readList readAttribute) s
    let (children, s) ← Json.requiredItem .element 2 (Json.readList child) s
    return (⟨name, attributes, children⟩, s)

/-- Reads an element with at most `depth` levels. -/
def readWithin : (depth : Nat) → Reader Element
  | 0, _ => .error .unfinished
  | depth + 1, s =>
    Json.readStruct .element (Fields.read (readWithin depth)) Fields.none Fields.element
      (readItems (readWithin depth)) s

/-- Reads an element from a JSON text. Every level takes a character. -/
def ofJson (s : Text) : Except Json.Error Element :=
  Json.whole (readWithin (s.length + 1)) s

/-! ### Writing -/

/-- The items of an array with commas between them, in brackets. -/
def jsonArray (items : List Text) : Text :=
  '[' :: List.intercalate [','] items ++ [']']

/-- The JSON text of an attribute. -/
def attributeJson (a : Attribute) : Text :=
  jsonArray [Json.writeString a.name, Json.writeString a.value]

mutual

/-- The JSON text of an element. -/
def toJson : Element → Text
  | ⟨name, attributes, children⟩ =>
    "\x7b\"name\":".toList ++ Json.writeString name ++
      ",\"attributes\":".toList ++ jsonArray (attributes.map attributeJson) ++
      ",\"children\":".toList ++ jsonArray (toJsons children) ++ ['\x7d']

/-- The JSON texts of some elements. -/
def toJsons : List Element → List Text
  | [] => []
  | c :: cs => toJson c :: toJsons cs

end

end TagTree.Element
