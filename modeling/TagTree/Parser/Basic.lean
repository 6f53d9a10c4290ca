import TagTree.Parser.Reply

/-!
# Parsers

A parser reads the start of a text: it either succeeds with a value and the text left after it, or
fails with a `ParseError`. It never goes back behind the start of the text it was given, and it
keeps no state. This file holds the parsers that look at characters and the combinators that run
parsers one after the other; alternatives and repetitions have files of their own.

## Main definitions

* `Parser`, `Parsed`: a parser and a successful answer.
* `Parser.anyChar`, `Parser.literal`, `Parser.nameRun`: the only parsers that look at characters.
* `Parser.succeed`, `Parser.fail`, `Parser.map`, `Parser.discard`, `Parser.filter`,
  `Parser.inContext`, `Parser.delay`: parsers made from a value or from one parser.
* `Parser.both`, `Parser.keepLeft`, `Parser.keepRight`, `Parser.between`, `Parser.bind`: parsers
  in sequence.
-/

namespace TagTree

/-- A successful answer: a value and the text left after it. -/
structure Parsed (α : Type) where
  /-- What was read. -/
  value : α
  /-- What is left. -/
  rest : Text
deriving DecidableEq, Repr

/-- A parser of values of type `α`. -/
@[ext] structure Parser (α : Type) where
  /-- Reads the start of a text. -/
  parse : Text → Reply ParseError (Parsed α)

namespace Parser

variable {α β γ : Type}

/-! ### Looking at characters -/

/-- Reads one character, whichever it is. -/
def anyChar : Parser Char :=
  ⟨fun s => match s with
    | [] => .error .endOfText
    | c :: rest => .ok ⟨c, rest⟩⟩

/-- Reads a fixed text. -/
def literal (expected : Text) : Parser Unit :=
  ⟨fun s => match expected.isPrefixOf? s with
    | some rest => .ok ⟨(), rest⟩
    | none => .error (.expected expected s)⟩

/-- Reads the longest run of name characters, which may be empty: this parser never fails. -/
def nameRun : Parser Text :=
  ⟨fun s => .ok ⟨s.takeWhile isNameChar, s.dropWhile isNameChar⟩⟩

/-! ### One parser -/

/-- Succeeds with a value and reads nothing. -/
def succeed (a : α) : Parser α :=
  ⟨fun s => .ok ⟨a, s⟩⟩

/-- Fails with a message. -/
def fail (message : String) : Parser α :=
  ⟨fun _ => .error (.failed message)⟩

/-- Transforms the value of a parser. -/
def map (f : α → β) (p : Parser α) : Parser β :=
  ⟨fun s => (p.parse s).map fun a => ⟨f a.value, a.rest⟩⟩

/-- Drops the value of a parser. -/
def discard (p : Parser α) : Parser Unit :=
  p.map fun _ => ()

/-- Fails on values that do not pass `test`; the error shows the input from before the value. -/
def filter (test : α → Bool) (p : Parser α) : Parser α :=
  ⟨fun s => (p.parse s).bind fun a => if test a.value then .ok a else .error (.rejected s)⟩

/-- Adds a note to the error of a parser. -/
def inContext (context : String) (p : Parser α) : Parser α :=
  ⟨fun s => (p.parse s).mapError (.inContext context)⟩

/-- A parser that is built when it is run. -/
def delay (build : Unit → Parser α) : Parser α :=
  ⟨fun s => (build ()).parse s⟩

/-- The parser at which a bounded recursion stops: it fails, and its record tells that the bound
was too low. -/
def nestingExceeded : Parser α :=
  ⟨fun _ => ⟨.error (.failed "nesting bound exceeded"), [.nestingExceeded]⟩⟩

/-! ### Parsers in sequence -/

/-- Runs two parsers one after the other and keeps both values. -/
def both (p : Parser α) (q : Parser β) : Parser (α × β) :=
  ⟨fun s => (p.parse s).bind fun a => (q.parse a.rest).map fun b => ⟨(a.value, b.value), b.rest⟩⟩

/-- Runs two parsers one after the other and keeps the first value. -/
def keepLeft (p : Parser α) (q : Parser β) : Parser α :=
  (p.both q).map Prod.fst

/-- Runs two parsers one after the other and keeps the second value. -/
def keepRight (p : Parser α) (q : Parser β) : Parser β :=
  (p.both q).map Prod.snd

/-- Runs `p` between two delimiters and keeps its value. -/
def between (opening : Parser Unit) (p : Parser α) (closing : Parser Unit) : Parser α :=
  ⟨fun s => (opening.parse s).bind fun a => (p.parse a.rest).bind fun b =>
    (closing.parse b.rest).map fun c => ⟨b.value, c.rest⟩⟩

/-- Runs `p` and then the parser that `next` chooses for its value. -/
def bind (p : Parser α) (next : α → Parser β) : Parser β :=
  ⟨fun s => (p.parse s).bind fun a => (next a.value).parse a.rest⟩

end Parser

end TagTree
