import TagTree.Proofs.Parser.Notes
import TagTree.Proofs.Expr.Ends

/-!
# Context notes are transparent

An expression without its context notes denotes the parser of the expression with the notes dropped
from its replies. This holds for the notes in alternatives, repetitions, continuations and
referenced definitions alike, since none of the rules of the grammar adds notes and no combinator
looks at them. So the expression and the expression without notes come to an end on the same texts,
with the same successes, and with errors that have the same cause.

## Main results

* `Expr.parser_eraseContexts`: the parser of an expression without notes.
* `Expr.run_eraseAll`: a run without notes, record by record.
* `Expr.ends_without_notes`: context notes are transparent.
-/

namespace TagTree

/-- Whether a bound was exceeded does not depend on notes. -/
theorem Reply.finishes_withoutNotes {α : Type} {r : Reply ParseError α} :
    r.withoutNotes.Finishes ↔ r.Finishes := by
  simp only [Finishes, withoutNotes, List.mem_map, Event.withoutNotes_eq_nestingExceeded,
    exists_eq_right]

/-! ### The rules of the grammar -/

namespace Grammar

@[simp] theorem withoutNotes_blank : blank.withoutNotes = blank := by
  simp only [blank, Parser.withoutNotes_filter, Parser.withoutNotes_anyChar]

@[simp] theorem withoutNotes_blanks : blanks.withoutNotes = blanks := by
  simp only [blanks, Parser.withoutNotes_many, withoutNotes_blank]

@[simp] theorem withoutNotes_blanks1 : blanks1.withoutNotes = blanks1 := by
  simp only [blanks1, Parser.withoutNotes_many1, withoutNotes_blank]

@[simp] theorem withoutNotes_spaced {α : Type} (p : Parser α) :
    (spaced p).withoutNotes = spaced p.withoutNotes := by
  simp only [spaced, Parser.withoutNotes_between, Parser.withoutNotes_discard, withoutNotes_blanks]

@[simp] theorem withoutNotes_quoted : quoted.withoutNotes = quoted := by
  simp [quoted]

@[simp] theorem withoutNotes_nameValue : nameValue.withoutNotes = nameValue := by
  simp [nameValue]

@[simp] theorem withoutNotes_attributes : attributes.withoutNotes = attributes := by
  simp [attributes]

@[simp] theorem withoutNotes_tagHead : tagHead.withoutNotes = tagHead := by
  simp [tagHead]

@[simp] theorem withoutNotes_emptyTag : emptyTag.withoutNotes = emptyTag := by
  simp [emptyTag]

@[simp] theorem withoutNotes_startTag : startTag.withoutNotes = startTag := by
  simp [startTag]

@[simp] theorem withoutNotes_endTag (name : Text) : (endTag name).withoutNotes = endTag name := by
  simp [endTag]

@[simp] theorem withoutNotes_containerOf (inner : Parser Element) :
    (containerOf inner).withoutNotes = containerOf inner.withoutNotes := by
  simp [containerOf]

theorem withoutNotes_elementOf (inner : Parser Element) :
    (elementOf inner).withoutNotes = elementOf inner.withoutNotes := by
  simp [elementOf]

theorem withoutNotes_elementWithin (depth : Nat) :
    (elementWithin depth).withoutNotes = elementWithin depth := by
  induction depth with
  | zero => rfl
  | succ depth ih =>
    change (elementOf (elementWithin depth)).withoutNotes = elementOf (elementWithin depth)
    rw [withoutNotes_elementOf, ih]

/-- Elements report errors without notes, since they do under every bound on their nesting. -/
@[simp] theorem withoutNotes_element : element.withoutNotes = element := by
  ext s : 2
  have hwithin := withoutNotes_elementWithin (s.length + 1)
  exact congrArg (fun p => p.parse s) hwithin

@[simp] theorem withoutNotes_container : container.withoutNotes = container := by
  simp [container]

end Grammar

@[simp] theorem Rule.parser_withoutNotes (r : Rule) : r.parser.withoutNotes = r.parser := by
  cases r <;> simp [Rule.parser]

/-! ### Expressions -/

namespace Expr

mutual

/-- **An expression without notes** denotes the parser without notes, if its references do. -/
theorem parser_eraseContexts (env : String → Parser Value) : ∀ e : Expr,
    e.eraseContexts.parser (fun name => (env name).withoutNotes) = (e.parser env).withoutNotes
  | rule r => by simp [eraseContexts, parser]
  | literal t => by simp [eraseContexts, parser]
  | endTag name => by simp [eraseContexts, parser]
  | succeed v => by simp [eraseContexts, parser]
  | fail message => by simp [eraseContexts, parser]
  | map f e => by simp [eraseContexts, parser, parser_eraseContexts env e]
  | discard e => by simp [eraseContexts, parser, parser_eraseContexts env e]
  | both a b => by
    simp [eraseContexts, parser, parser_eraseContexts env a, parser_eraseContexts env b]
  | keepLeft a b => by
    simp [eraseContexts, parser, parser_eraseContexts env a, parser_eraseContexts env b]
  | keepRight a b => by
    simp [eraseContexts, parser, parser_eraseContexts env a, parser_eraseContexts env b]
  | orElse a b => by
    simp [eraseContexts, parser, parser_eraseContexts env a, parser_eraseContexts env b]
  | firstOf es => by simp [eraseContexts, parser, parsers_eraseContextsAll env es]
  | between opening e closing => by
    simp [eraseContexts, parser, parser_eraseContexts env opening, parser_eraseContexts env e,
      parser_eraseContexts env closing]
  | spaced e => by simp [eraseContexts, parser, parser_eraseContexts env e]
  | many e => by simp [eraseContexts, parser, parser_eraseContexts env e]
  | many1 e => by simp [eraseContexts, parser, parser_eraseContexts env e]
  | optional e => by simp [eraseContexts, parser, parser_eraseContexts env e]
  | filter test e => by simp [eraseContexts, parser, parser_eraseContexts env e]
  | bind e next => by
    have hnext : ∀ v, (next v).eraseContexts.parser (fun name => (env name).withoutNotes) =
        ((next v).parser env).withoutNotes := fun v => parser_eraseContexts env (next v)
    simp [eraseContexts, parser, parser_eraseContexts env e, hnext]
  | inContext context e => by simp [eraseContexts, parser, parser_eraseContexts env e]
  | delay e => by simp [eraseContexts, parser, parser_eraseContexts env e]
  | ref name => rfl

theorem parsers_eraseContextsAll (env : String → Parser Value) : ∀ es : List Expr,
    parsers (fun name => (env name).withoutNotes) (eraseContextsAll es) =
      (parsers env es).map Parser.withoutNotes
  | [] => rfl
  | e :: es => by
    simp [eraseContextsAll, parsers, parser_eraseContexts env e, parsers_eraseContextsAll env es]

end

/-! ### Definitions -/

theorem lookup_eraseAll (defs : Definitions) (name : String) :
    (eraseAll defs).lookup name = (defs.lookup name).map eraseContexts := by
  induction defs with
  | nil => rfl
  | cons d defs ih =>
    obtain ⟨key, e⟩ := d
    simp only [eraseAll, List.map_cons, List.lookup_cons]
    split
    · rfl
    · exact ih

/-- Under every bound on open references, definitions without notes give parsers without notes. -/
theorem resolve_eraseAll (defs : Definitions) (depth : Nat) :
    resolve (eraseAll defs) depth = fun name => (resolve defs depth name).withoutNotes := by
  induction depth with
  | zero => rfl
  | succ depth ih =>
    funext name
    simp only [resolve, lookup_eraseAll, Parser.withoutNotes_delay]
    cases defs.lookup name with
    | none => rfl
    | some e => simp only [Option.map_some, ih, parser_eraseContexts]

theorem parserWithin_eraseAll (defs : Definitions) (depth : Nat) (e : Expr) :
    e.eraseContexts.parserWithin (eraseAll defs) depth =
      (e.parserWithin defs depth).withoutNotes := by
  rw [parserWithin, resolve_eraseAll, parser_eraseContexts, parserWithin]

/-- **A run without notes** is the run with the notes dropped, record by record. -/
theorem run_eraseAll (defs : Definitions) (e : Expr) (s : Text) :
    run (eraseAll defs) e.eraseContexts s = (run defs e s).withoutNotes := by
  rw [run, levels, eraseAll, List.length_map, ← eraseAll, parserWithin_eraseAll]
  rfl

/-! ### Outcomes -/

variable {defs : Definitions} {e : Expr} {s : Text}

/-- An expression without notes comes to an end where the expression does, with the cause in place
of an error. -/
theorem ends_eraseAll_iff {outcome' : Except ParseError (Parsed Value)} :
    Ends (eraseAll defs) e.eraseContexts s outcome' ↔
      ∃ outcome, Ends defs e s outcome ∧ outcome.mapError ParseError.cause = outcome' := by
  simp only [Ends, parserWithin_eraseAll]
  constructor
  · rintro ⟨depth, hfin, rfl⟩
    exact ⟨_, ⟨depth, Reply.finishes_withoutNotes.mp hfin, rfl⟩, rfl⟩
  · rintro ⟨_, ⟨depth, hfin, rfl⟩, rfl⟩
    exact ⟨depth, Reply.finishes_withoutNotes.mpr hfin, rfl⟩

/-- **Context notes are transparent.** An expression succeeds if and only if the expression without
notes does, with the same value and the same text left over. It fails if and only if the other one
does, and what the other one reports is the cause of its error and nothing else. -/
theorem ends_without_notes (defs : Definitions) (e : Expr) (s : Text) :
    (∀ v r, Ends defs e s (.ok ⟨v, r⟩) ↔
      Ends (eraseAll defs) e.eraseContexts s (.ok ⟨v, r⟩)) ∧
    (∀ y, Ends (eraseAll defs) e.eraseContexts s (.error y) ↔
      ∃ x, Ends defs e s (.error x) ∧ x.cause = y) ∧
    ∀ x, Ends defs e s (.error x) →
      ∀ y, Ends (eraseAll defs) e.eraseContexts s (.error y) ↔ y = x.cause := by
  have hcause : ∀ x, Ends defs e s (.error x) →
      Ends (eraseAll defs) e.eraseContexts s (.error x.cause) :=
    fun x hx => ends_eraseAll_iff.mpr ⟨_, hx, rfl⟩
  refine ⟨fun v r => ?_, fun y => ?_, fun x hx y => ?_⟩
  · rw [ends_eraseAll_iff]
    constructor
    · exact fun h => ⟨_, h, rfl⟩
    · rintro ⟨x | a, ha, hmap⟩
      · cases hmap
      · cases hmap
        exact ha
  · constructor
    · intro hy
      obtain ⟨x | a, hx, hmap⟩ := ends_eraseAll_iff.mp hy
      · cases hmap
        exact ⟨x, hx, rfl⟩
      · cases hmap
    · rintro ⟨x, hx, rfl⟩
      exact hcause x hx
  · constructor
    · intro hy
      exact Except.error.inj (hy.unique (hcause x hx))
    · rintro rfl
      exact hcause x hx

/-- A character, the same character again and a name in brackets, with notes on the whole and in the
continuation. -/
def entry : Expr :=
  inContext "entry" (bind (rule .anyChar) fun v =>
    inContext "name of the entry" (keepRight (literal v.toText) (ref "bracketed")))

/-- An entry without its name, whose error has notes from three places, and one with it. -/
theorem ends_without_notes_entry :
    Ends [("bracketed", bracketed)] entry "--()".toList (.error (.inContext "entry"
      (.inContext "name of the entry" (.inContext "name" (.rejected "()".toList))))) ∧
    Ends (eraseAll [("bracketed", bracketed)]) entry.eraseContexts "--()".toList
      (.error (.rejected "()".toList)) ∧
    Ends [("bracketed", bracketed)] entry "--(a)".toList (.ok ⟨.text ['a'], []⟩) ∧
    Ends (eraseAll [("bracketed", bracketed)]) entry.eraseContexts "--(a)".toList
      (.ok ⟨.text ['a'], []⟩) := by
  have herror : Ends [("bracketed", bracketed)] entry "--()".toList (.error (.inContext "entry"
      (.inContext "name of the entry" (.inContext "name" (.rejected "()".toList))))) :=
    ⟨2, by decide +kernel, by with_unfolding_all rfl⟩
  have hok : Ends [("bracketed", bracketed)] entry "--(a)".toList (.ok ⟨.text ['a'], []⟩) :=
    ⟨2, by decide +kernel, by with_unfolding_all rfl⟩
  exact ⟨herror, ((ends_without_notes _ _ _).2.2 _ herror _).mpr rfl,
    hok, ((ends_without_notes _ _ _).1 _ _).mp hok⟩

end Expr

end TagTree
