import TagTree.Value

/-!
# Parser expressions

A parser expression says how a parser is put together: from grammar rules and fixed texts, by the
combinators, with continuations that choose an expression for a value, and with references to
named definitions, which may be recursive.

## Main definitions

* `Rule`: the grammar rules without parameters.
* `Expr`: parser expressions.
* `Definitions`: the named expressions that references stand for.
* `Expr.eraseContexts`: an expression without its context notes.
* `Expr.sameText`, `Expr.sameEndTag`, `Expr.cases`: common continuations.
-/

namespace TagTree

/-- The grammar rules without parameters. -/
inductive Rule where
  | anyChar
  | nameRun
  | blank
  | blanks
  | blanks1
  | quoted
  | nameValue
  | attributes
  | emptyTag
  | startTag
  | container
  | element
deriving DecidableEq, Repr

/-- How a parser of values is put together. -/
inductive Expr where
  /-- A grammar rule. -/
  | rule (r : Rule)
  /-- A fixed text. -/
  | literal (t : Text)
  /-- The end tag of the element of that name. -/
  | endTag (name : Text)
  /-- A value, with nothing read. -/
  | succeed (v : Value)
  /-- A failure with a message. -/
  | fail (message : String)
  /-- A transformed value. -/
  | map (f : Value → Value) (e : Expr)
  /-- A dropped value. -/
  | discard (e : Expr)
  /-- Two parts in sequence, both kept. -/
  | both (a b : Expr)
  /-- Two parts in sequence, the first kept. -/
  | keepLeft (a b : Expr)
  /-- Two parts in sequence, the second kept. -/
  | keepRight (a b : Expr)
  /-- One alternative. -/
  | orElse (a b : Expr)
  /-- A list of alternatives. -/
  | firstOf (es : List Expr)
  /-- A part between two delimiters. -/
  | between (opening e closing : Expr)
  /-- A part with blanks around it. -/
  | spaced (e : Expr)
  /-- A repetition. -/
  | many (e : Expr)
  /-- A repetition with a first item. -/
  | many1 (e : Expr)
  /-- A part that may be absent. -/
  | optional (e : Expr)
  /-- A part whose value has to pass a test. -/
  | filter (test : Value → Bool) (e : Expr)
  /-- A part and what follows it, chosen for its value. -/
  | bind (e : Expr) (next : Value → Expr)
  /-- A part whose errors get a note. -/
  | inContext (context : String) (e : Expr)
  /-- A part that is built when it is run. -/
  | delay (e : Expr)
  /-- What the definition of that name stands for. -/
  | ref (name : String)

/-- Named expressions. Of two with one name the first counts. -/
abbrev Definitions := List (String × Expr)

namespace Expr

/-! ### Continuations -/

/-- The text of a value once more, with the value as the result. -/
def sameText (v : Value) : Expr :=
  map (fun _ => v) (literal v.toText)

/-- The end tag of the element whose name is the text of a value. -/
def sameEndTag (v : Value) : Expr :=
  endTag v.toText

/-- The expression listed for the text of a value, or else `otherwise`. -/
def cases (table : List (Text × Expr)) (otherwise : Expr) (v : Value) : Expr :=
  (table.lookup v.toText).getD otherwise

/-! ### Context notes -/

mutual

/-- The expression without its context notes, also in what continuations choose. -/
def eraseContexts : Expr → Expr
  | rule r => rule r
  | literal t => literal t
  | endTag name => endTag name
  | succeed v => succeed v
  | fail message => fail message
  | map f e => map f e.eraseContexts
  | discard e => discard e.eraseContexts
  | both a b => both a.eraseContexts b.eraseContexts
  | keepLeft a b => keepLeft a.eraseContexts b.eraseContexts
  | keepRight a b => keepRight a.eraseContexts b.eraseContexts
  | orElse a b => orElse a.eraseContexts b.eraseContexts
  | firstOf es => firstOf (eraseContextsAll es)
  | between opening e closing =>
    between opening.eraseContexts e.eraseContexts closing.eraseContexts
  | spaced e => spaced e.eraseContexts
  | many e => many e.eraseContexts
  | many1 e => many1 e.eraseContexts
  | optional e => optional e.eraseContexts
  | filter test e => filter test e.eraseContexts
  | bind e next => bind e.eraseContexts fun v => (next v).eraseContexts
  | inContext _ e => e.eraseContexts
  | delay e => delay e.eraseContexts
  | ref name => ref name

/-- The expressions of a list without their context notes. -/
def eraseContextsAll : List Expr → List Expr
  | [] => []
  | e :: es => e.eraseContexts :: eraseContextsAll es

end

/-- Definitions without context notes. -/
def eraseAll (defs : Definitions) : Definitions :=
  defs.map fun d => (d.1, d.2.eraseContexts)

end Expr

end TagTree
