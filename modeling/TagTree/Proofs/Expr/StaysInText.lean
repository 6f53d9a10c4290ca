import TagTree.Expr.Parser
import TagTree.Proofs.Parser.Cursor

/-!
# Expressions stay inside their text

Every rule of the grammar is put together from parsers that stay inside their text, and so is every
expression, whatever its functions, tests and continuations are. References are no exception: under
each bound on how many are open, a definition is an expression again.

## Main results

* `Grammar.staysInText_element`: elements.
* `Expr.parser_staysInText`: expressions, if the names that they refer to stay inside their text.
* `Expr.resolve_staysInText`: the names, under a bound on open references.
-/

namespace TagTree

/-! ### The rules of the grammar -/

namespace Grammar

open TagTree.Parser

theorem staysInText_blank : blank.StaysInText :=
  staysInText_anyChar.filter isBlank

theorem staysInText_blanks : blanks.StaysInText :=
  staysInText_blank.many

theorem staysInText_blanks1 : blanks1.StaysInText :=
  staysInText_blank.many1

theorem staysInText_spaced {α : Type} {p : Parser α} (hp : p.StaysInText) :
    (spaced p).StaysInText :=
  .between staysInText_blanks.discard hp staysInText_blanks.discard

theorem staysInText_quoted : quoted.StaysInText :=
  .between (staysInText_literal _) (staysInText_anyChar.filter _).many (staysInText_literal _)

theorem staysInText_nameValue : nameValue.StaysInText := by
  have hvalue := (staysInText_literal ['=']).keepRight staysInText_quoted
  exact (staysInText_nameRun.both hvalue).map _

theorem staysInText_attributes : attributes.StaysInText :=
  (staysInText_blanks1.keepRight staysInText_nameValue).many

theorem staysInText_tagHead : tagHead.StaysInText :=
  (staysInText_literal _).keepRight (staysInText_nameRun.both staysInText_attributes)

theorem staysInText_emptyTag : emptyTag.StaysInText :=
  (staysInText_tagHead.keepLeft (staysInText_literal _)).map _

theorem staysInText_startTag : startTag.StaysInText :=
  (staysInText_tagHead.keepLeft (staysInText_literal _)).map _

theorem staysInText_endTag (name : Text) : (endTag name).StaysInText := by
  have hname := staysInText_nameRun.keepLeft (staysInText_literal ['>'])
  exact ((staysInText_literal ['<', '/']).keepRight hname).filter _

variable {inner : Parser Element}

theorem staysInText_containerOf (h : inner.StaysInText) : (containerOf inner).StaysInText := by
  refine staysInText_startTag.bind fun opened => ?_
  exact (h.many.keepLeft (staysInText_endTag opened.name)).map _

theorem staysInText_elementOf (h : inner.StaysInText) : (elementOf inner).StaysInText :=
  staysInText_spaced (staysInText_emptyTag.orElse (staysInText_containerOf h))

theorem staysInText_elementWithin (depth : Nat) : (elementWithin depth).StaysInText := by
  induction depth with
  | zero => exact staysInText_nestingExceeded
  | succ depth ih => exact staysInText_elementOf ih

/-- Elements stay inside their text, since they do under every bound on their nesting. -/
theorem staysInText_element : element.StaysInText :=
  fun s => staysInText_elementWithin (s.length + 1) s

end Grammar

theorem Rule.parser_staysInText (r : Rule) : r.parser.StaysInText := by
  cases r with
  | anyChar => exact Parser.staysInText_anyChar.map _
  | nameRun => exact Parser.staysInText_nameRun.map _
  | blank => exact Grammar.staysInText_blank.map _
  | blanks => exact Grammar.staysInText_blanks.map fun cs => Value.list (cs.map .char)
  | blanks1 => exact Grammar.staysInText_blanks1.map fun cs => Value.list (cs.map .char)
  | quoted => exact Grammar.staysInText_quoted.map _
  | nameValue => exact Grammar.staysInText_nameValue.map _
  | attributes =>
    exact Grammar.staysInText_attributes.map fun as => Value.list (as.map .ofAttribute)
  | emptyTag => exact Grammar.staysInText_emptyTag.map _
  | startTag => exact Grammar.staysInText_startTag.map _
  | container => exact (Grammar.staysInText_containerOf Grammar.staysInText_element).map _
  | element => exact Grammar.staysInText_element.map _

/-! ### Expressions -/

namespace Expr

variable {env : String → Parser Value}

mutual

/-- **Expressions stay inside their text** if the parsers of the names they refer to do. -/
theorem parser_staysInText (h : ∀ name, (env name).StaysInText) :
    ∀ e : Expr, (e.parser env).StaysInText
  | rule r => r.parser_staysInText
  | literal t => (Parser.staysInText_literal t).map _
  | endTag name => (Grammar.staysInText_endTag name).map _
  | succeed v => Parser.staysInText_succeed v
  | fail message => Parser.staysInText_fail message
  | map f e => (parser_staysInText h e).map f
  | discard e => (parser_staysInText h e).discard.map _
  | both a b => ((parser_staysInText h a).both (parser_staysInText h b)).map _
  | keepLeft a b => (parser_staysInText h a).keepLeft (parser_staysInText h b)
  | keepRight a b => (parser_staysInText h a).keepRight (parser_staysInText h b)
  | orElse a b => (parser_staysInText h a).orElse (parser_staysInText h b)
  | firstOf es => .firstOf (parsers_staysInText h es)
  | between opening e closing =>
    .between (parser_staysInText h opening).discard (parser_staysInText h e)
      (parser_staysInText h closing).discard
  | spaced e => Grammar.staysInText_spaced (parser_staysInText h e)
  | many e => (parser_staysInText h e).many.map _
  | many1 e => (parser_staysInText h e).many1.map _
  | optional e => (parser_staysInText h e).optional.map _
  | filter test e => (parser_staysInText h e).filter test
  | bind e next => (parser_staysInText h e).bind fun v => parser_staysInText h (next v)
  | inContext context e => (parser_staysInText h e).inContext context
  | delay e => .delay (parser_staysInText h e)
  | ref name => h name

theorem parsers_staysInText (h : ∀ name, (env name).StaysInText) :
    ∀ es : List Expr, ∀ p ∈ parsers env es, p.StaysInText
  | [] => List.forall_mem_nil _
  | e :: es => List.forall_mem_cons.mpr ⟨parser_staysInText h e, parsers_staysInText h es⟩

end

theorem resolve_staysInText (defs : Definitions) (depth : Nat) (name : String) :
    (resolve defs depth name).StaysInText := by
  induction depth generalizing name with
  | zero => exact Parser.staysInText_nestingExceeded
  | succ depth ih =>
    refine Parser.StaysInText.delay ?_
    cases defs.lookup name with
    | none => exact Parser.staysInText_fail _
    | some e => exact parser_staysInText ih e

end Expr

end TagTree
