import TagTree.Text.Quoted

/-!
# Reasons why a parser fails

Each constructor is one cause. A cause that carries a text shows where in the document it happened:
`expected`, `rejected` and `noItem` carry the input as it was when the failing parser started, and
`trailing` carries what was left behind the root. Context notes wrap a cause without changing it.

## Main definitions

* `ParseError`: the causes.
* `ParseError.message`: the wording shown to a user.
* `ParseError.cause`: the cause beneath all context notes.
-/

namespace TagTree

/-- Why a parser failed. -/
inductive ParseError where
  /-- A fixed text was not found at the start of the input. -/
  | expected (literal found : Text)
  /-- A value was parsed from the input and then turned down by a test. -/
  | rejected (input : Text)
  /-- A character was needed and none was left. -/
  | endOfText
  /-- A repetition that needs at least one item found none. -/
  | noItem (input : Text)
  /-- There was nothing to choose from. -/
  | noChoice
  /-- A parser that always fails was reached. -/
  | failed (message : String)
  /-- A cause with a note about what was being parsed. -/
  | inContext (context : String) (inner : ParseError)
  /-- A document ended and some input was left. -/
  | trailing (remaining : Text)
deriving DecidableEq, Repr

namespace ParseError

/-- The wording of an error. Context notes stand in front of the cause, the outermost first. -/
def message : ParseError → String
  | expected literal found => "Expected " ++ literal.quoted ++ ", found " ++ found.quoted
  | rejected input => "Predicate rejected input: " ++ input.quoted
  | endOfText => "Unexpected EOF"
  | noItem input => "No match: expected at least one at " ++ input.quoted
  | noChoice => "No alternative"
  | failed message => "Fail: " ++ message
  | inContext context inner => context ++ ": " ++ inner.message
  | trailing remaining => "Trailing input: " ++ remaining.quoted

/-- The cause beneath all context notes. -/
def cause : ParseError → ParseError
  | inContext _ inner => inner.cause
  | expected literal found => .expected literal found
  | rejected input => .rejected input
  | endOfText => .endOfText
  | noItem input => .noItem input
  | noChoice => .noChoice
  | failed message => .failed message
  | trailing remaining => .trailing remaining

/-- The cause beneath the notes has no notes of its own. -/
theorem cause_cause (e : ParseError) : e.cause.cause = e.cause := by
  induction e with
  | inContext _ _ ih => exact ih
  | _ => rfl

end ParseError

end TagTree
