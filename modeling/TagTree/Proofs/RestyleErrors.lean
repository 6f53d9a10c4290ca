import TagTree.Proofs.RoundTrip

/-!
# Why a document cannot be restyled

A document that is rejected is rejected in every style, with the same error. A document that is
accepted has a readable element, and of all defects a readable element can only have one kind: the
name of an element or of an attribute is empty. So whether an accepted document can be written does
not depend on the style, and there is one error for all that cannot. A style comes into it only by
the room that its indentation takes: a line may be too long for a text, and what stands behind it in
the document is then neither written nor reported.

## Main results

* `Element.Readable.eq_invalidName_of_mem_defects`: the defects of readable elements.
* `Element.Readable.toMarkup_of_le`: the text of a readable element, or its only error.
* `restyle_error_kinds`: when a document can be restyled, and with which error it cannot.
-/

namespace TagTree

/-! ### Defects of readable elements -/

namespace Element

variable {e : Element} {defect : WriteError}

/-- A run of name characters is a name unless it is empty. -/
theorem eq_invalidName_of_mem_nameDefects {n : Text} (hn : IsNameRun n)
    (h : defect ∈ nameDefects n) : defect = .invalidName [] := by
  by_cases hnil : n = []
  · subst hnil
    exact List.mem_singleton.mp h
  · rw [nameDefects_eq_nil_iff.mpr (isName_iff.mpr ⟨hnil, hn⟩)] at h
    cases h

theorem eq_invalidName_of_mem_attributeDefects {a : Attribute} (hname : IsNameRun a.name)
    (hvalue : '"' ∉ a.value) (h : defect ∈ attributeDefects a) : defect = .invalidName [] := by
  rw [attributeDefects, if_neg hvalue, List.append_nil] at h
  exact eq_invalidName_of_mem_nameDefects hname h

theorem WellTagged.eq_invalidName_of_mem_ownDefects (he : e.WellTagged)
    (h : defect ∈ e.ownDefects) : defect = .invalidName [] := by
  rcases List.mem_append.mp h with hname | hattributes
  · exact eq_invalidName_of_mem_nameDefects he.name hname
  · obtain ⟨a, ha, hdefect⟩ := List.mem_flatMap.mp hattributes
    obtain ⟨hname, hvalue⟩ := he.attributes a ha
    exact eq_invalidName_of_mem_attributeDefects hname hvalue hdefect

/-- **The defects of readable elements** are empty names. -/
theorem Readable.eq_invalidName_of_mem_defects (he : e.Readable) (h : defect ∈ e.defects) :
    defect = .invalidName [] := by
  rw [defects_eq_flatMap] at h
  obtain ⟨x, hx, hdefect⟩ := List.mem_flatMap.mp h
  exact (he x hx).eq_invalidName_of_mem_ownDefects hdefect

/-- With room for what is written before the first empty name, a readable element is written if
everything in it has a name; otherwise an empty name is reported. -/
theorem Readable.toMarkup_of_le (he : e.Readable) {style : Style}
    (hle : (e.begun style).utf8Size ≤ Text.maxSize) :
    e.toMarkup style =
      if e.Named then .ok (e.layout style 0) else .error (.reported (.invalidName [])) := by
  rw [Element.toMarkup_of_le hle]
  by_cases hnamed : e.Named
  · rw [if_pos hnamed, defects_eq_nil_iff_readable_named.mpr ⟨he, hnamed⟩]
  · have hne : e.defects ≠ [] := fun hnil =>
      hnamed (defects_eq_nil_iff_readable_named.mp hnil).2
    obtain ⟨defect, defects, hdefects⟩ := List.exists_cons_of_ne_nil hne
    have hdefect : defect = .invalidName [] :=
      he.eq_invalidName_of_mem_defects (hdefects ▸ List.mem_cons_self)
    rw [if_neg hnamed, hdefects, hdefect]

end Element

/-! ### Documents in another style -/

variable {s : Text} {e : Element} {x : ParseError} {style : Style}

theorem outcome_restyle_of_error (h : (Grammar.document s).outcome = .error x) (style : Style) :
    (restyle s style).outcome = .error (.reported (.parse x)) := by
  rw [outcome_restyle, h]

/-- An accepted document is restyled as its element is written. -/
theorem outcome_restyle_of_ok (h : (Grammar.document s).outcome = .ok e) (style : Style) :
    (restyle s style).outcome = (e.toMarkup style).mapError (.map .write) := by
  rw [outcome_restyle, h]

/-- An accepted document is written if everything in it has a name, with room for what is written
before the first empty name. -/
theorem outcome_restyle_of_le (h : (Grammar.document s).outcome = .ok e)
    (hle : (e.begun style).utf8Size ≤ Text.maxSize) :
    (restyle s style).outcome =
      if e.Named then .ok (e.layout style 0)
      else .error (.reported (.write (.invalidName []))) := by
  rw [outcome_restyle_of_ok h, (Grammar.readable_of_document h).toMarkup_of_le hle]
  split <;> rfl

theorem outcome_restyle_of_lt (h : (Grammar.document s).outcome = .ok e)
    (hlt : Text.maxSize < (e.begun style).utf8Size) :
    (restyle s style).outcome = .error .overflow := by
  rw [outcome_restyle_of_ok h, Element.toMarkup_of_lt hlt]
  rfl

/-- **Why a document cannot be restyled.** A rejected document is reported with its own error. An
accepted one, in a style with room for what is written before the first empty name, can be written
if no name anywhere in it is empty, and is reported for an empty name if some name is. Without this
room restyling overflows, whether or not there are empty names. No other error of writing arises. -/
theorem restyle_error_kinds (s : Text) (style : Style) :
    (∀ x, (Grammar.document s).outcome = .error x →
      (restyle s style).outcome = .error (.reported (.parse x))) ∧
    (∀ e, (Grammar.document s).outcome = .ok e → (e.begun style).utf8Size ≤ Text.maxSize →
      ((∀ x ∈ e.subtrees, x.name ≠ [] ∧ ∀ a ∈ x.attributes, a.name ≠ []) →
        ∃ t, (restyle s style).outcome = .ok t) ∧
      ((∃ x ∈ e.subtrees, x.name = [] ∨ ∃ a ∈ x.attributes, a.name = []) →
        (restyle s style).outcome = .error (.reported (.write (.invalidName []))))) ∧
    (∀ e, (Grammar.document s).outcome = .ok e → Text.maxSize < (e.begun style).utf8Size →
      (restyle s style).outcome = .error .overflow) ∧
    ∀ defect, (restyle s style).outcome = .error (.reported (.write defect)) →
      defect = .invalidName [] := by
  refine ⟨fun x h => outcome_restyle_of_error h style, fun e h hle => ⟨?_, ?_⟩,
    fun e h hlt => outcome_restyle_of_lt h hlt, fun defect h => ?_⟩
  · intro hnamed
    exact ⟨e.layout style 0, (outcome_restyle_of_le h hle).trans (if_pos hnamed)⟩
  · intro hnameless
    have hnot : ¬ e.Named := Element.not_named_iff.mpr hnameless
    exact (outcome_restyle_of_le h hle).trans (if_neg hnot)
  · cases hdocument : (Grammar.document s).outcome with
    | error x =>
      rw [outcome_restyle_of_error hdocument] at h
      cases h
    | ok e =>
      rcases Nat.lt_or_ge Text.maxSize (e.begun style).utf8Size with hlt | hle
      · rw [outcome_restyle_of_lt hdocument hlt] at h
        cases h
      · rw [outcome_restyle_of_le hdocument hle] at h
        split at h
        · cases h
        · cases h
          rfl

/-- A document with a tag too many, one that is written, one with a nameless attribute below its
root, and one with a line for which there is no room. -/
theorem restyle_error_kinds_nameless :
    (restyle "<a/></a>".toList .compact).outcome =
      .error (.reported (.parse (.trailing "</a>".toList))) ∧
    (∃ t, (restyle "<a><b k=\"<>\"/></a>".toList .compact).outcome = .ok t) ∧
    (restyle "<a><b =\"<>\"/></a>".toList .compact).outcome =
      .error (.reported (.write (.invalidName []))) ∧
    (restyle "<a><b k=\"<>\"/></a>".toList ⟨9223372036854775807, true, true⟩).outcome =
      .error .overflow ∧
    ∀ name value, (restyle "<a><b =\"<>\"/></a>".toList .compact).outcome ≠
      .error (.reported (.write (.invalidValue name value))) := by
  have htrailing : (Grammar.document "<a/></a>".toList).outcome =
      .error (.trailing "</a>".toList) := by decide +kernel
  have hnamed : (Grammar.document "<a><b k=\"<>\"/></a>".toList).outcome =
      .ok ⟨['a'], [], [⟨['b'], [⟨['k'], ['<', '>']⟩], []⟩]⟩ := by decide +kernel
  have hnameless : (Grammar.document "<a><b =\"<>\"/></a>".toList).outcome =
      .ok ⟨['a'], [], [⟨['b'], [⟨[], ['<', '>']⟩], []⟩]⟩ := by decide +kernel
  have hlong : Text.maxSize < (Element.begun ⟨9223372036854775807, true, true⟩
      ⟨['a'], [], [⟨['b'], [⟨['k'], ['<', '>']⟩], []⟩]⟩).utf8Size :=
    Element.toMarkup_eq_overflow_iff.mp rfl
  refine ⟨(restyle_error_kinds _ .compact).1 _ htrailing,
    ((restyle_error_kinds _ .compact).2.1 _ hnamed (by decide)).1 (by decide),
    ((restyle_error_kinds _ .compact).2.1 _ hnameless (by decide)).2 (by decide),
    (restyle_error_kinds _ _).2.2.1 _ hnamed hlong, fun name value h => ?_⟩
  cases (restyle_error_kinds _ .compact).2.2.2 _ h

/-- In a style with the greatest indentation width, a document without empty names is not written,
and an empty name behind the first line of a child is not reported. -/
theorem restyle_overflows_before_empty_name :
    (Grammar.document "<a><b/></a>".toList).outcome = .ok ⟨['a'], [], [⟨['b'], [], []⟩]⟩ ∧
    (restyle "<a><b/></a>".toList ⟨18446744073709551615, true, true⟩).outcome =
      .error .overflow ∧
    (Grammar.document "<a><b/></></a>".toList).outcome =
      .ok ⟨['a'], [], [⟨['b'], [], []⟩, ⟨[], [], []⟩]⟩ ∧
    (restyle "<a><b/></></a>".toList ⟨18446744073709551615, true, true⟩).outcome =
      .error .overflow := by
  have hnamed : (Grammar.document "<a><b/></a>".toList).outcome =
      .ok ⟨['a'], [], [⟨['b'], [], []⟩]⟩ := by decide +kernel
  have hnameless : (Grammar.document "<a><b/></></a>".toList).outcome =
      .ok ⟨['a'], [], [⟨['b'], [], []⟩, ⟨[], [], []⟩]⟩ := by decide +kernel
  refine ⟨hnamed, ?_, hnameless, ?_⟩
  · rw [outcome_restyle_of_ok hnamed]
    rfl
  · rw [outcome_restyle_of_ok hnameless]
    rfl

end TagTree
