import TagTree.Expr.Basic
import TagTree.Grammar

/-!
# The parsers of expressions

Every expression denotes a parser of values, given the parsers of the names it refers to. The
definitions may refer to each other without end, so their parsers are given under a bound on the
depth of references: a reference at depth zero stops the run, and the log tells.

A run that ends never has the same reference open twice at the same place. There are no more places
than characters left, and one for the end of the text, and a name without a definition may be the
last to be referred to. So `defs.length * (s.length + 1) + 1` levels are enough for every run that
ends at all.

## Main definitions

* `Rule.parser`: the parser of a grammar rule, with its value as a `Value`.
* `Expr.parser`: the parser of an expression.
* `Expr.resolve`: the parsers of defined names, under a bound.
* `Expr.levels`: a bound that is high enough.
* `Expr.run`: an expression applied to a text.
-/

namespace TagTree

/-- The parser of a grammar rule. -/
def Rule.parser : Rule → Parser Value
  | anyChar => .map .char .anyChar
  | nameRun => .map .text .nameRun
  | blank => .map .char Grammar.blank
  | blanks => .map (fun cs => .list (cs.map .char)) Grammar.blanks
  | blanks1 => .map (fun cs => .list (cs.map .char)) Grammar.blanks1
  | quoted => .map .text Grammar.quoted
  | nameValue => .map .ofAttribute Grammar.nameValue
  | attributes => .map (fun as => .list (as.map .ofAttribute)) Grammar.attributes
  | emptyTag => .map .element Grammar.emptyTag
  | startTag => .map .element Grammar.startTag
  | container => .map .element Grammar.container
  | element => .map .element Grammar.element

namespace Expr

mutual

/-- The parser that an expression denotes, given the parsers of the names it refers to. -/
def parser (env : String → Parser Value) : Expr → Parser Value
  | rule r => r.parser
  | literal t => .map (fun _ => .unit) (.literal t)
  | endTag name => .map .text (Grammar.endTag name)
  | succeed v => .succeed v
  | fail message => .fail message
  | map f e => .map f (e.parser env)
  | discard e => .map (fun _ => .unit) (.discard (e.parser env))
  | both a b => .map (fun vs => .pair vs.1 vs.2) (.both (a.parser env) (b.parser env))
  | keepLeft a b => .keepLeft (a.parser env) (b.parser env)
  | keepRight a b => .keepRight (a.parser env) (b.parser env)
  | orElse a b => .orElse (a.parser env) (b.parser env)
  | firstOf es => .firstOf (parsers env es)
  | between opening e closing =>
    .between (.discard (opening.parser env)) (e.parser env) (.discard (closing.parser env))
  | spaced e => Grammar.spaced (e.parser env)
  | many e => .map .list (.many (e.parser env))
  | many1 e => .map .list (.many1 (e.parser env))
  | optional e => .map .ofOption (.optional (e.parser env))
  | filter test e => .filter test (e.parser env)
  | bind e next => .bind (e.parser env) fun v => (next v).parser env
  | inContext context e => .inContext context (e.parser env)
  | delay e => .delay fun _ => e.parser env
  | ref name => env name

/-- The parsers that the expressions of a list denote. -/
def parsers (env : String → Parser Value) : List Expr → List (Parser Value)
  | [] => []
  | e :: es => e.parser env :: parsers env es

end

/-- The parser of a defined name, with at most `depth` references open at a time. A name without
a definition fails. -/
def resolve (defs : Definitions) : (depth : Nat) → String → Parser Value
  | 0, _ => .nestingExceeded
  | depth + 1, name =>
    .delay fun _ => match defs.lookup name with
      | some e => e.parser (resolve defs depth)
      | none => .fail "undefined name"

/-- The parser of an expression, with at most `depth` references open at a time. -/
def parserWithin (defs : Definitions) (depth : Nat) (e : Expr) : Parser Value :=
  e.parser (resolve defs depth)

/-- How many references a run on the text may have open at a time: each definition at each place,
and a name without a definition. -/
def levels (defs : Definitions) (s : Text) : Nat :=
  defs.length * (s.length + 1) + 1

/-- An expression applied to a text, with the definitions it refers to. -/
def run (defs : Definitions) (e : Expr) (s : Text) : Reply ParseError (Parsed Value) :=
  (e.parserWithin defs (levels defs s)).parse s

end Expr

end TagTree
