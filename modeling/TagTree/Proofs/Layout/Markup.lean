import TagTree.Proofs.Layout.IndentBound

/-!
# The text of an element in a style

Writing an element ends in one of three ways. Its text is written if it has no defects and there is
room for the text. Its first defect is reported if there is room for what is written before this
defect. Otherwise the sheet comes to its end first, and there is neither a text nor an error. Which
of the three it is depends on one text, the one up to the first defect.

## Main results

* `Pen.At.put_of_le`, `Pen.At.put_of_lt`: an element written where a pen stands.
* `Element.toMarkup_of_le`, `Element.toMarkup_of_lt`: the text of an element if there is room, and
  if there is none.
* `Element.toMarkup_eq_ok_iff`, `Element.toMarkup_eq_reported_iff`,
  `Element.toMarkup_eq_overflow_iff`: the three ways to end.
-/

namespace TagTree

open Mark (InWordsAll shownAll levelAfterAll)

variable {e : Element} {style : Style}

/-! ### Elements written where a pen stands -/

namespace Pen.At

variable {pen : Pen} {t : Text} {level : Nat}

/-- With room for all that is written before the first defect, this defect is reported, and there is
none only if the element has no defects. -/
theorem put_of_le (h : pen.At style t level)
    (hwords : InWordsAll style t.utf8Size level (e.draft style.selfClose).marks)
    (hle : Text.utf8Size (t ++ shownAll style level (e.draft style.selfClose).marks) ≤
      Text.maxSize) :
    ∃ pen', pen.put e = (match e.defects.head? with
        | none => .ok ()
        | some defect => .error (.reported defect), pen') ∧
      pen'.At style (t ++ shownAll style level (e.draft style.selfClose).marks)
        (levelAfterAll level (e.draft style.selfClose).marks) := by
  obtain ⟨pen', hpen', hat⟩ := h.followAll_of_le hwords hle
  refine ⟨pen', ?_, hat⟩
  rw [put, h.style_eq, hpen', Element.defect_draft]
  cases e.defects.head? with
  | none => rfl
  | some defect => rfl

/-- Without room for it, a pen stops before it comes to the first defect. -/
theorem put_of_lt (h : pen.At style t level)
    (hwords : InWordsAll style t.utf8Size level (e.draft style.selfClose).marks)
    (hlt : Text.maxSize <
      Text.utf8Size (t ++ shownAll style level (e.draft style.selfClose).marks)) :
    ∃ left, pen.put e = (.error .overflow, left) := by
  obtain ⟨left, hleft⟩ := h.followAll_of_lt hwords hlt
  exact ⟨left, by rw [put, h.style_eq, hleft]⟩

end Pen.At

/-! ### Elements written from a fresh start -/

namespace Element

variable {t : Text} {defect : WriteError}

/-- **The text of an element.** With room for what is written before the first defect, it is the
layout on level zero, unless there is a defect; then the first one is reported. -/
theorem toMarkup_of_le (h : (e.begun style).utf8Size ≤ Text.maxSize) :
    e.toMarkup style = match e.defects with
      | [] => .ok (e.layout style 0)
      | defect :: _ => .error (.reported defect) := by
  have hreset : (Pen.new style).reset = Pen.new style := rfl
  obtain ⟨pen', hput, hat⟩ := (Pen.At.new style).put_of_le (e.inWordsAll_draft style) h
  rw [toMarkup, Pen.draw, hreset, hput]
  cases he : e.defects with
  | nil =>
    refine congrArg Except.ok (hat.written_eq.trans ?_)
    exact begun_of_defects_eq_nil he style
  | cons defect defects => rfl

/-- Without room for what is written before the first defect there is no result. -/
theorem toMarkup_of_lt (h : Text.maxSize < (e.begun style).utf8Size) :
    e.toMarkup style = .error .overflow := by
  have hreset : (Pen.new style).reset = Pen.new style := rfl
  obtain ⟨left, hput⟩ := (Pen.At.new style).put_of_lt (e.inWordsAll_draft style) h
  rw [toMarkup, Pen.draw, hreset, hput]

theorem toMarkup_eq_ok_iff :
    e.toMarkup style = .ok t ↔
      e.defects = [] ∧ t = e.layout style 0 ∧ t.utf8Size ≤ Text.maxSize := by
  rcases Nat.lt_or_ge Text.maxSize (e.begun style).utf8Size with hlt | hle
  · rw [toMarkup_of_lt hlt]
    simp only [reduceCtorEq, false_iff]
    rintro ⟨he, rfl, hle⟩
    rw [begun_of_defects_eq_nil he] at hlt
    exact Nat.not_le_of_lt hlt hle
  · rw [toMarkup_of_le hle]
    cases he : e.defects with
    | nil =>
      rw [begun_of_defects_eq_nil he] at hle
      simp only [Except.ok.injEq, true_and]
      exact ⟨fun h => ⟨h.symm, h ▸ hle⟩, fun h => h.1.symm⟩
    | cons defect defects => simp only [reduceCtorEq, false_and]

/-- What is reported is the first defect. -/
theorem toMarkup_eq_reported_iff :
    e.toMarkup style = .error (.reported defect) ↔
      e.defects.head? = some defect ∧ (e.begun style).utf8Size ≤ Text.maxSize := by
  rcases Nat.lt_or_ge Text.maxSize (e.begun style).utf8Size with hlt | hle
  · rw [toMarkup_of_lt hlt]
    simp only [Except.error.injEq, reduceCtorEq, Nat.not_le_of_lt hlt, and_false]
  · rw [toMarkup_of_le hle]
    cases e.defects with
    | nil => simp only [reduceCtorEq, List.head?_nil, false_and]
    | cons first rest =>
      simp only [Except.error.injEq, Failure.reported.injEq, List.head?_cons, Option.some.injEq,
        hle, and_true]

theorem toMarkup_eq_overflow_iff :
    e.toMarkup style = .error .overflow ↔ Text.maxSize < (e.begun style).utf8Size := by
  refine ⟨fun h => Nat.lt_of_not_le fun hle => ?_, toMarkup_of_lt⟩
  rw [toMarkup_of_le hle] at h
  cases he : e.defects with
  | nil => simp only [he, reduceCtorEq] at h
  | cons defect defects => simp only [he, Except.error.injEq, reduceCtorEq] at h

end Element

end TagTree
