import TagTree.ParseError
import TagTree.Style

/-!
# The log of a run

Parsers that go on after a failure do not lose it: they record it. A log is the list of these
records in the order in which they were made, together with the marks left by the entry points.

## Main definitions

* `Event`: one record.
* `Event.level`: how serious it is.
* `Event.source`: which kind of parser made it.
* `Event.message`: its wording, for the records that are not the start of a call.
-/

namespace TagTree

/-- One record of the log. -/
inductive Event where
  /-- The first of two alternatives failed, so the second is tried. -/
  | alternativeFailed (error : ParseError)
  /-- A member of a list of alternatives failed. -/
  | choiceFailed (error : ParseError)
  /-- A repetition ended because its parser failed, after `collected` items. -/
  | repetitionStopped (error : ParseError) (collected : Nat)
  /-- A repetition ended because its parser succeeded on nothing, after `collected` items. -/
  | repetitionStalled (collected : Nat)
  /-- A repetition that needs an item failed on the first. -/
  | firstFailed (error : ParseError)
  /-- A repetition that needs an item succeeded on nothing at the first. -/
  | firstStalled
  /-- An optional part failed and was left out. -/
  | errorSuppressed (error : ParseError)
  /-- A whole document is about to be parsed. -/
  | documentStarted
  /-- A whole document was parsed; its root element has this name. -/
  | documentParsed (root : Text)
  /-- A document is about to be written anew in this style. -/
  | restyleStarted (style : Style)
  /-- A recursion went deeper than its bound. The bounds are chosen so that this record is absent
  from the log of every run that ends. -/
  | nestingExceeded
deriving DecidableEq, Repr

namespace Event

/-- How serious a record is. -/
inductive Level where
  | trace
  | debug
  | warn
  | error
deriving DecidableEq, Repr

/-- Which kind of parser, or which entry point, made a record. -/
inductive Source where
  | orElse
  | firstOf
  | many
  | many1
  | optional
  | document
  | restyle
  | recursion
deriving DecidableEq, Repr

/-- How serious a record is: a failure that was dealt with is a trace, a repetition without
progress a warning. -/
def level : Event → Level
  | alternativeFailed _ | choiceFailed _ | repetitionStopped _ _ | firstFailed _
  | errorSuppressed _ => .trace
  | repetitionStalled _ | firstStalled => .warn
  | documentStarted | documentParsed _ | restyleStarted _ => .debug
  | nestingExceeded => .error

/-- Which kind of parser made a record. -/
def source : Event → Source
  | alternativeFailed _ => .orElse
  | choiceFailed _ => .firstOf
  | repetitionStopped _ _ | repetitionStalled _ => .many
  | firstFailed _ | firstStalled => .many1
  | errorSuppressed _ => .optional
  | documentStarted | documentParsed _ => .document
  | restyleStarted _ => .restyle
  | nestingExceeded => .recursion

/-- The wording of a record. The start of a call is known by its source and has none. -/
def message : Event → Option String
  | alternativeFailed _ => some "first alternative failed, trying second"
  | choiceFailed _ => some "alternative failed"
  | repetitionStopped _ _ => some "repetition stopped"
  | repetitionStalled _ | firstStalled =>
    some "inner parser succeeded without consuming input, stopping repetition"
  | firstFailed _ => some "first application failed"
  | errorSuppressed _ => some "Optional parser suppressed an error"
  | documentParsed _ => some "document parsed"
  | nestingExceeded => some "nesting bound exceeded"
  | documentStarted | restyleStarted _ => none

/-- The parse error that a record keeps. -/
def error : Event → Option ParseError
  | alternativeFailed e | choiceFailed e | repetitionStopped e _ | firstFailed e
  | errorSuppressed e => some e
  | repetitionStalled _ | firstStalled | documentStarted | documentParsed _ | restyleStarted _
  | nestingExceeded => none

/-- The number of items that a repetition had collected. -/
def collected : Event → Option Nat
  | repetitionStopped _ n | repetitionStalled n => some n
  | alternativeFailed _ | choiceFailed _ | firstFailed _ | firstStalled | errorSuppressed _
  | documentStarted | documentParsed _ | restyleStarted _ | nestingExceeded => none

end Event

end TagTree
