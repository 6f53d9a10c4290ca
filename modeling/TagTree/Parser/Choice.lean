import TagTree.Parser.Basic

/-!
# Alternatives

Alternatives are tried in order, each from the start of the same input; the first success is
final. A failure that is followed by another attempt is recorded in the log, after what the failed
parser itself recorded.

## Main definitions

* `Parser.orElse`: one alternative to a parser; if both fail, the second error counts.
* `Parser.firstOf`: a list of alternatives; if all fail, the last error counts.
* `Parser.optional`: a parser that may be absent.
-/

namespace TagTree.Parser

variable {α : Type}

/-- Runs `p`, and if it fails, `q` on the same input. -/
def orElse (p q : Parser α) : Parser α :=
  ⟨fun s => (p.parse s).handle fun e => (q.parse s).after [.alternativeFailed e]⟩

/-- Runs the members of a list in order until one succeeds; `last` is the error so far. -/
def firstOfAfter (last : ParseError) : List (Parser α) → Text → Reply ParseError (Parsed α)
  | [], _ => .error last
  | p :: ps, s => (p.parse s).handle fun e => (firstOfAfter e ps s).after [.choiceFailed e]

/-- Runs the members of a list in order until one succeeds. -/
def firstOf (ps : List (Parser α)) : Parser α :=
  ⟨firstOfAfter .noChoice ps⟩

/-- Runs `p`; if it fails, nothing is read and there is no value. -/
def optional (p : Parser α) : Parser (Option α) :=
  ⟨fun s => match p.parse s with
    | ⟨.ok a, log⟩ => ⟨.ok ⟨some a.value, a.rest⟩, log⟩
    | ⟨.error e, log⟩ => ⟨.ok ⟨none, s⟩, log ++ [.errorSuppressed e]⟩⟩

variable {p : Parser α} {s : Text}

/-- A part that is there is read as without the choice. -/
theorem optional_of_ok {a : Parsed α} (h : (p.parse s).outcome = .ok a) :
    p.optional.parse s = ⟨.ok ⟨some a.value, a.rest⟩, (p.parse s).log⟩ := by
  simp only [optional]
  generalize p.parse s = r at h
  obtain ⟨outcome, log⟩ := r
  subst h
  rfl

/-- The error of a part that is left out goes into the log, and the text is the one from before. -/
theorem optional_of_error {e : ParseError} (h : (p.parse s).outcome = .error e) :
    p.optional.parse s = ⟨.ok ⟨none, s⟩, (p.parse s).log ++ [.errorSuppressed e]⟩ := by
  simp only [optional]
  generalize p.parse s = r at h
  obtain ⟨outcome, log⟩ := r
  subst h
  rfl

end TagTree.Parser
