import TagTree.Restyle
import TagTree.Proofs.Grammar.Readable
import TagTree.Proofs.Layout.Markup

/-!
# Writing and reading documents

The layout of an element without defects is one of its spellings, in every style: an attribute is
written after one space, and all that a style adds between tags are blanks. The grammar is read
exactly, so a written element is read back as it was.

A document in another style is therefore a document with the same element, and since the writer
looks at the element only, all that can be known about it later depends on the element: writing
again in any style gives what the first document gives in that style.

## Main results

* `Element.spelledBy_layout`: layouts are spellings.
* `Grammar.document_toMarkup`: a written element is read back.
* `restyle_normalises`: documents in a style are canonical forms.
-/

namespace TagTree

/-! ### Layouts are spellings -/

/-- **Layouts are spellings.** Whatever the style and the level, an element without defects is laid
out as one of its spellings. -/
theorem Element.spelledBy_layout {e : Element} (he : e.defects = []) (style : Style) (level : Nat) :
    e.SpelledBy (e.layout style level) := by
  obtain ⟨hreadable, hnamed⟩ := defects_eq_nil_iff_readable_named.mp he
  exact spelledBy_layout_of_readable hreadable (.inr fun x hx => (hnamed x hx).1) level

/-- What is written in a style is a spelling. -/
theorem Element.documentSpelledBy_of_toMarkup {e : Element} {style : Style} {t : Text}
    (h : e.toMarkup style = .ok t) : e.DocumentSpelledBy t := by
  obtain ⟨he, rfl, -⟩ := toMarkup_eq_ok_iff.mp h
  exact ⟨[], e.layout style 0, [], nofun, spelledBy_layout he style 0, nofun,
    (List.append_nil _).symm⟩

/-! ### Written elements are read back -/

namespace Grammar

/-- **Round trip.** An element that can be written in some style is read back from what is
written. -/
theorem document_toMarkup (e : Element) (style : Style) (t : Text) (h : e.toMarkup style = .ok t) :
    (document t).outcome = .ok e :=
  outcome_document_eq_ok_iff.mpr (Element.documentSpelledBy_of_toMarkup h)

/-- An element with a childless one inside and an attribute whose value looks like markup, on
several lines. -/
theorem document_toMarkup_pretty :
    Element.toMarkup ⟨['a'], [⟨['k'], ['<', '/', 'a', '>', '\n', '/', '>']⟩], [⟨['b'], [], []⟩]⟩
        ⟨1, true, true⟩ =
      .ok "<a k=\"</a>\n/>\">\n <b/>\n</a>".toList ∧
    (document "<a k=\"</a>\n/>\">\n <b/>\n</a>".toList).outcome =
      .ok ⟨['a'], [⟨['k'], ['<', '/', 'a', '>', '\n', '/', '>']⟩], [⟨['b'], [], []⟩]⟩ :=
  ⟨rfl, document_toMarkup _ ⟨1, true, true⟩ _ rfl⟩

end Grammar

/-! ### Documents in another style -/

/-- A document in a style, by what the document is read as. -/
theorem outcome_restyle (s : Text) (style : Style) :
    (restyle s style).outcome = match (Grammar.document s).outcome with
      | .error x => .error (.reported (.parse x))
      | .ok e => (e.toMarkup style).mapError (.map .write) := by
  rw [restyle, Reply.outcome_after]
  cases h : (Grammar.document s).outcome with
  | error x =>
    have hmapped : ((Grammar.document s).mapError fun e =>
        Failure.reported (RestyleError.parse e)).outcome = .error (.reported (.parse x)) :=
      congrArg (Except.mapError _) h
    rw [Reply.bind_of_error hmapped]
  | ok e =>
    have hmapped : ((Grammar.document s).mapError fun e =>
        Failure.reported (RestyleError.parse e)).outcome = .ok e :=
      congrArg (Except.mapError _) h
    rw [Reply.bind_of_ok hmapped, Reply.outcome_after]

/-- A document in a style is its element as it is written in that style. -/
theorem outcome_restyle_eq_ok_iff {s t : Text} {style : Style} :
    (restyle s style).outcome = .ok t ↔
      ∃ e, (Grammar.document s).outcome = .ok e ∧ e.toMarkup style = .ok t := by
  rw [outcome_restyle]
  cases (Grammar.document s).outcome with
  | error x => simp only [reduceCtorEq, false_and, exists_false]
  | ok e =>
    simp only [Except.ok.injEq, exists_eq_left']
    cases e.toMarkup style with
    | error failure => simp only [Except.mapError, reduceCtorEq]
    | ok u => simp only [Except.mapError, Except.ok.injEq]

/-- Documents with the same element, or with the same error, come to the same in every style. -/
theorem outcome_restyle_congr {s s' : Text}
    (h : (Grammar.document s).outcome = (Grammar.document s').outcome) (style : Style) :
    (restyle s style).outcome = (restyle s' style).outcome := by
  rw [outcome_restyle, outcome_restyle, h]

/-- A document in a style has the element that it was made from. -/
theorem outcome_document_restyle {s t : Text} {style : Style}
    (h : (restyle s style).outcome = .ok t) :
    (Grammar.document t).outcome = (Grammar.document s).outcome := by
  obtain ⟨e, hs, ht⟩ := outcome_restyle_eq_ok_iff.mp h
  rw [hs, Grammar.outcome_document_eq_ok_iff]
  exact Element.documentSpelledBy_of_toMarkup ht

/-- **Documents in a style are canonical forms.** A document in a style keeps the element of the
document it was made from, so it may take its place in any style, also in the same one again. Two
documents are the same in a style exactly if they have the same element. -/
theorem restyle_normalises :
    (∀ (s t : Text) (style style' : Style), (restyle s style).outcome = .ok t →
      (Grammar.document t).outcome = (Grammar.document s).outcome ∧
        (restyle t style').outcome = (restyle s style').outcome ∧
        (restyle t style).outcome = .ok t) ∧
    ∀ (s s' t t' : Text) (style : Style), (restyle s style).outcome = .ok t →
      (restyle s' style).outcome = .ok t' →
        (t = t' ↔ (Grammar.document s).outcome = (Grammar.document s').outcome) := by
  refine ⟨fun s t style style' h => ?_, fun s s' t t' style h h' => ⟨?_, fun heq => ?_⟩⟩
  · have hdocument := outcome_document_restyle h
    exact ⟨hdocument, outcome_restyle_congr hdocument style',
      (outcome_restyle_congr hdocument style).trans h⟩
  · rintro rfl
    exact (outcome_document_restyle h).symm.trans (outcome_document_restyle h')
  · have hsame := outcome_restyle_congr heq style
    rw [h, h'] at hsame
    exact Except.ok.inj hsame

/-- Two spellings of one element, on one line. -/
theorem restyle_normalises_compact :
    (restyle "<a>\n <b x=\"/>\"></b>\n</a>\n".toList .compact).outcome =
      .ok "<a><b x=\"/>\"/></a>".toList ∧
    (restyle "<a><b  x=\"/>\"/></a>".toList .compact).outcome =
      .ok "<a><b x=\"/>\"/></a>".toList ∧
    (Grammar.document "<a>\n <b x=\"/>\"></b>\n</a>\n".toList).outcome =
      (Grammar.document "<a><b  x=\"/>\"/></a>".toList).outcome ∧
    (restyle "<a><b x=\"/>\"/></a>".toList default).outcome =
      (restyle "<a>\n <b x=\"/>\"></b>\n</a>\n".toList default).outcome := by
  let e : Element := ⟨['a'], [], [⟨['b'], [⟨['x'], ['/', '>']⟩], []⟩]⟩
  have h : (restyle "<a>\n <b x=\"/>\"></b>\n</a>\n".toList .compact).outcome =
      .ok "<a><b x=\"/>\"/></a>".toList :=
    outcome_restyle_eq_ok_iff.mpr ⟨e, by decide +kernel, rfl⟩
  have h' : (restyle "<a><b  x=\"/>\"/></a>".toList .compact).outcome =
      .ok "<a><b x=\"/>\"/></a>".toList :=
    outcome_restyle_eq_ok_iff.mpr ⟨e, by decide +kernel, rfl⟩
  have hsame := restyle_normalises.2 _ _ _ _ _ h h'
  have hagain := restyle_normalises.1 _ _ _ default h
  exact ⟨h, h', hsame.mp rfl, hagain.2.1⟩

end TagTree
