import TagTree.Element
import TagTree.Parser.Choice
import TagTree.Parser.Repetition

/-!
# The grammar of elements

A document is one element, with blanks around it. An element is a single empty tag, or a start tag
and an end tag of the same name with elements between them.

```text
element   = blanks (empty-tag | container) blanks
empty-tag = tag-head "/>"
container = tag-head ">" element* "</" name ">"
tag-head  = "<" name (blank blank* attribute)*
attribute = name "=" quoted
```

A name is a run of name characters and may be empty. A quoted value is any text without a double
quote, and nothing in it is markup.

Elements nest, so their rule is given for a parser of the elements inside, and is tied to itself
under a bound on the depth of nesting. Every level of nesting reads at least two characters, so
the length of the input is bound enough.

## Main definitions

* `Grammar.blanks`, `Grammar.blanks1`, `Grammar.spaced`: blanks.
* `Grammar.quoted`, `Grammar.nameValue`, `Grammar.attributes`: attributes.
* `Grammar.emptyTag`, `Grammar.startTag`, `Grammar.endTag`: tags.
* `Grammar.element`, `Grammar.container`: elements.
* `Grammar.document`: a whole document, with the records of its start and its end.
-/

namespace TagTree.Grammar

variable {α : Type}

/-! ### Blanks -/

/-- One space or newline. -/
def blank : Parser Char :=
  .filter isBlank .anyChar

/-- Any number of blanks. -/
def blanks : Parser Text :=
  .many blank

/-- One blank or more. -/
def blanks1 : Parser Text :=
  .many1 blank

/-- A parser with blanks allowed on both sides. -/
def spaced (p : Parser α) : Parser α :=
  .between (.discard blanks) p (.discard blanks)

/-! ### Attributes -/

/-- A value between double quotes. The quotes are dropped and nothing is unescaped. -/
def quoted : Parser Text :=
  .between (.literal ['"']) (.many (.filter (fun c => c != '"') .anyChar)) (.literal ['"'])

/-- A name, an equals sign and a quoted value, with nothing between them. -/
def nameValue : Parser Attribute :=
  .map (fun a => ⟨a.1, a.2⟩) (.both .nameRun (.keepRight (.literal ['=']) quoted))

/-- Any number of attributes, each after at least one blank. -/
def attributes : Parser (List Attribute) :=
  .many (.keepRight blanks1 nameValue)

/-! ### Tags -/

/-- The part that empty tags and start tags share: the name and the attributes. -/
def tagHead : Parser (Text × List Attribute) :=
  .keepRight (.literal ['<']) (.both .nameRun attributes)

/-- A tag that is a whole element. -/
def emptyTag : Parser Element :=
  .map (fun head => ⟨head.1, head.2, []⟩) (.keepLeft tagHead (.literal ['/', '>']))

/-- The tag at the start of an element, read as that element without its children. -/
def startTag : Parser Element :=
  .map (fun head => ⟨head.1, head.2, []⟩) (.keepLeft tagHead (.literal ['>']))

/-- The tag at the end of the element called `name`. -/
def endTag (name : Text) : Parser Text :=
  .filter (fun found => found == name)
    (.keepRight (.literal ['<', '/']) (.keepLeft .nameRun (.literal ['>'])))

/-! ### Elements -/

/-- A start tag, any number of elements read by `inner`, and the end tag of the same name. -/
def containerOf (inner : Parser Element) : Parser Element :=
  .bind startTag fun opened =>
    .map (fun children => opened.replaceChildren children)
      (.keepLeft (.many inner) (endTag opened.name))

/-- An element whose children are read by `inner`, with the blanks around it. -/
def elementOf (inner : Parser Element) : Parser Element :=
  spaced (.orElse emptyTag (containerOf inner))

/-- An element with at most `depth` levels of nesting. -/
def elementWithin : (depth : Nat) → Parser Element
  | 0 => .nestingExceeded
  | depth + 1 => ⟨fun s => (elementOf (elementWithin depth)).parse s⟩

/-- An element, with the blanks around it. -/
def element : Parser Element :=
  ⟨fun s => (elementWithin (s.length + 1)).parse s⟩

/-- An element that has a start tag and an end tag, without the blanks around it. -/
def container : Parser Element :=
  containerOf element

/-- A whole document: one element and nothing after it. -/
def document (s : Text) : Reply ParseError Element :=
  Reply.after [.documentStarted] <| (element.parse s).bind fun root =>
    match root.rest with
    | [] => ⟨.ok root.value, [.documentParsed root.value.name]⟩
    | c :: rest => .error (.trailing (c :: rest))

end TagTree.Grammar
