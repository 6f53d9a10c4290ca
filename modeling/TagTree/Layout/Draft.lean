import TagTree.Element
import TagTree.Json.Error

/-!
# Drafts: what is to be written, mark by mark

An element is laid out by a list of marks: texts to write, steps in and out, and ends of lines. The
marks do not depend on how far a step goes or whether lines are broken at all, only on how
childless elements are spelled.

Names and values are checked on the way, each right before it is written. A tree that cannot be
written has a draft up to its first defect.

## Main definitions

* `WriteError`: the reasons why no text is written.
* `Mark`, `Draft`: the marks of a tree up to its first defect.
* `Element.draft`: the draft of an element.
* `Element.defects`: all defects of an element in document order.
-/

namespace TagTree

/-- Why no text is written. -/
inductive WriteError where
  /-- A name is empty or has a character that is not a name character. -/
  | invalidName (name : Text)
  /-- The value of an attribute has a double quote. -/
  | invalidValue (name value : Text)
  /-- The style cannot be read. -/
  | style (e : Json.Error)
deriving Repr

/-- The wording of an error. -/
def WriteError.message : WriteError → String
  | invalidName name => "Invalid name: " ++ name.quoted
  | invalidValue name value =>
    "Invalid value for attribute " ++ String.ofList name ++ ": " ++ value.quoted
  | style e => "Config error: " ++ e.message

/-- One step of laying out a tree. -/
inductive Mark where
  /-- A text to write. -/
  | text (t : Text)
  /-- The lines from here on are one level further in. -/
  | stepIn
  /-- The lines from here on are one level further out. -/
  | stepOut
  /-- The end of a line, where lines are broken. -/
  | lineBreak
deriving DecidableEq, Repr

/-- The marks of a tree up to its first defect. -/
structure Draft where
  marks : List Mark
  defect : Option WriteError
deriving Repr

namespace Draft

/-- Nothing to write. -/
def empty : Draft :=
  ⟨[], none⟩

/-- A single mark. -/
def mark (m : Mark) : Draft :=
  ⟨[m], none⟩

/-- A text to write. -/
def write (t : Text) : Draft :=
  mark (.text t)

/-- A defect. -/
def halt (e : WriteError) : Draft :=
  ⟨[], some e⟩

/-- One draft after another. After a defect nothing follows. -/
def append (a b : Draft) : Draft :=
  match a.defect with
  | none => ⟨a.marks ++ b.marks, b.defect⟩
  | some _ => a

instance : Append Draft := ⟨append⟩

theorem append_of_defect {a : Draft} {e : WriteError} (h : a.defect = some e) (b : Draft) :
    a ++ b = a := by
  obtain ⟨marks, defect⟩ := a
  subst h
  rfl

theorem append_of_sound {a : Draft} (h : a.defect = none) (b : Draft) :
    a ++ b = ⟨a.marks ++ b.marks, b.defect⟩ := by
  obtain ⟨marks, defect⟩ := a
  subst h
  rfl

/-- Of two defects the first counts. -/
theorem defect_append (a b : Draft) : (a ++ b).defect = a.defect.or b.defect := by
  cases h : a.defect with
  | none => rw [append_of_sound h, Option.none_or]
  | some e => rw [append_of_defect h, h, Option.some_or]

/-! ### The draft of an element -/

/-- A name that is about to be written. -/
def name (t : Text) : Draft :=
  if isName t then empty else halt (.invalidName t)

/-- An attribute: its name and its value are checked before it is written. -/
def nameValue (a : Attribute) : Draft :=
  name a.name ++
    (if '"' ∈ a.value then halt (.invalidValue a.name a.value) else empty) ++
    write (' ' :: a.name ++ ['=', '"'] ++ a.value ++ ['"'])

/-- The attributes of an element in order. -/
def attributes : List Attribute → Draft
  | [] => empty
  | a :: as => nameValue a ++ attributes as

/-- The end tag of the element called `name`. -/
def endTag (name : Text) : Draft :=
  write (['<', '/'] ++ name ++ ['>'])

/-- The end of an element without children, after its attributes. -/
def childless (selfClose : Bool) (name : Text) : Draft :=
  if selfClose then write ['/', '>'] else write (['>', '<', '/'] ++ name ++ ['>'])

end Draft

namespace Element

mutual

/-- The draft of an element. Every child begins a line, one level further in, and so does the end
tag after them, back on the level of the start tag. -/
def draft (selfClose : Bool) : Element → Draft
  | ⟨name, attributes, children⟩ =>
    Draft.name name ++ Draft.write ['<'] ++ Draft.write name ++ Draft.attributes attributes ++
      match children with
      | [] => Draft.childless selfClose name
      | c :: cs =>
        Draft.write ['>'] ++ Draft.mark .stepIn ++ drafts selfClose (c :: cs) ++
          Draft.mark .stepOut ++ Draft.mark .lineBreak ++ Draft.endTag name

/-- The drafts of children in order, each on a line of its own. -/
def drafts (selfClose : Bool) : List Element → Draft
  | [] => Draft.empty
  | c :: cs => Draft.mark .lineBreak ++ draft selfClose c ++ drafts selfClose cs

end

/-! ### Defects -/

/-- The defect of a name, if it has one. -/
def nameDefects (name : Text) : List WriteError :=
  if isName name then [] else [.invalidName name]

/-- The defects of an attribute: of its name, then of its value. -/
def attributeDefects (a : Attribute) : List WriteError :=
  nameDefects a.name ++ if '"' ∈ a.value then [.invalidValue a.name a.value] else []

mutual

/-- All defects of an element in document order: of its name, of its attributes, of its
children. -/
def defects : Element → List WriteError
  | ⟨name, attributes, children⟩ =>
    nameDefects name ++ attributes.flatMap attributeDefects ++ defectsAll children

/-- All defects of some elements in order. -/
def defectsAll : List Element → List WriteError
  | [] => []
  | c :: cs => defects c ++ defectsAll cs

end

end Element

end TagTree
