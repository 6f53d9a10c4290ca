import TagTree.Proofs.Element.Subtrees
import TagTree.Proofs.Grammar.Readable
import TagTree.Proofs.Layout.Markup

/-!
# The first defect

Writing checks as it goes. Every name is checked right before it is written, and so is every value,
so the writer comes across the defects of a tree in document order and gives up at the first one,
however much it has written by then. No choice of a style moves a check: a style decides what stands
between tags and how childless elements end, and there is nothing to check about either.

So an element is written exactly if its list of defects is empty, and otherwise the head of the list
is reported. Seen from the tree, the element that is to blame is the first one in document order
with a defect of its own.

What a style does decide is how much is written before the first defect. Nothing limits the
indentation width, so a style may ask for more spaces than a text can have, and then writing breaks
down before it comes to the defect, or to the end. With room for what stands before the first defect
the styles do not differ.

## Main results

* `isName_iff_forall_mem`: which texts are names, character by character.
* `Element.head?_defects_eq_some_iff`: the first defect and the element that is to blame.
* `toMarkup_reports_first_defect`: what is written and what is reported.
-/

namespace TagTree

/-- A name character is an ASCII letter or the hyphen. -/
theorem isNameChar_iff {c : Char} :
    isNameChar c = true ↔ ('A' ≤ c ∧ c ≤ 'Z') ∨ ('a' ≤ c ∧ c ≤ 'z') ∨ c = '-' := by
  have halpha : c.isAlpha = (c.isUpper || c.isLower) := rfl
  have hupper : c.isUpper = decide ('A' ≤ c ∧ c ≤ 'Z') := rfl
  have hlower : c.isLower = (decide ('a' ≤ c) && decide (c ≤ 'z')) := rfl
  simp only [isNameChar, halpha, hupper, hlower, Bool.or_eq_true, Bool.and_eq_true,
    decide_eq_true_eq, beq_iff_eq, or_assoc]

/-- A name is a nonempty run of ASCII letters and hyphens. -/
theorem isName_iff_forall_mem {n : Text} :
    isName n = true ↔
      n ≠ [] ∧ ∀ c ∈ n, ('A' ≤ c ∧ c ≤ 'Z') ∨ ('a' ≤ c ∧ c ≤ 'z') ∨ c = '-' := by
  simp only [Element.isName_iff, IsNameRun, isNameChar_iff]

namespace Element

variable {e : Element} {style : Style} {defect : WriteError}

/-- A name has no other defect than being an invalid one. -/
theorem nameDefects_eq_nil_or (n : Text) :
    nameDefects n = [] ∨ nameDefects n = [.invalidName n] := by
  rw [nameDefects]
  split
  · exact .inl rfl
  · exact .inr rfl

/-- **The element to blame.** The first defect of a tree is the first one of an element before
which, in document order, there are no defects. -/
theorem head?_defects_eq_some_iff :
    e.defects.head? = some defect ↔
      ∃ before x after, e.subtrees = before ++ x :: after ∧
        (∀ y ∈ before, y.ownDefects = []) ∧ x.ownDefects.head? = some defect := by
  rw [defects_eq_flatMap, List.head?_flatMap, List.findSome?_eq_some_iff]
  simp only [List.head?_eq_none_iff]
  constructor
  · rintro ⟨before, x, after, hsubtrees, hx, hbefore⟩
    exact ⟨before, x, after, hsubtrees, hbefore, hx⟩
  · rintro ⟨before, x, after, hsubtrees, hbefore, hx⟩
    exact ⟨before, x, after, hsubtrees, hx, hbefore⟩

/-- With room for it, an element is written exactly if it has no defects. -/
theorem exists_toMarkup_eq_ok_iff (h : (e.begun style).utf8Size ≤ Text.maxSize) :
    (∃ t, e.toMarkup style = .ok t) ↔ e.defects = [] := by
  simp only [toMarkup_eq_ok_iff]
  constructor
  · rintro ⟨t, he, -, -⟩
    exact he
  · intro he
    rw [begun_of_defects_eq_nil he] at h
    exact ⟨e.layout style 0, he, rfl, h⟩

end Element

/-- **Writing reports the first defect.** In every style with room for what is written before the
first defect, an element is written exactly if its list of defects is empty, and otherwise the head
of the list is reported: the first defect of the first element in document order that has one.
Without this room writing overflows, whether or not there are defects. What is written before the
first defect is the beginning of the layout, and all of it if there is no defect. A name is a defect
if it is empty or has a character other than an ASCII letter or a hyphen. -/
theorem toMarkup_reports_first_defect (e : Element) (style : Style) :
    ((e.begun style).utf8Size ≤ Text.maxSize →
      ((∃ t, e.toMarkup style = .ok t) ↔ e.defects = []) ∧
      (∀ defect, e.toMarkup style = .error (.reported defect) ↔ e.defects.head? = some defect) ∧
      e.toMarkup style ≠ .error .overflow) ∧
    (Text.maxSize < (e.begun style).utf8Size → e.toMarkup style = .error .overflow) ∧
    (e.begun style <+: e.layout style 0 ∧
      (e.defects = [] → e.begun style = e.layout style 0)) ∧
    (∀ defect, e.defects.head? = some defect ↔
      ∃ before x after, e.subtrees = before ++ x :: after ∧
        (∀ y ∈ before, y.ownDefects = []) ∧ x.ownDefects.head? = some defect) ∧
    ∀ n : Text,
      (Element.nameDefects n = [] ↔
        n ≠ [] ∧ ∀ c ∈ n, ('A' ≤ c ∧ c ≤ 'Z') ∨ ('a' ≤ c ∧ c ≤ 'z') ∨ c = '-') ∧
      (Element.nameDefects n = [] ∨ Element.nameDefects n = [.invalidName n]) := by
  refine ⟨fun hle => ⟨Element.exists_toMarkup_eq_ok_iff hle, fun defect => ?_, fun h => ?_⟩,
    fun hlt => Element.toMarkup_of_lt hlt,
    ⟨e.begun_prefix_layout style, fun he => e.begun_of_defects_eq_nil he style⟩,
    fun defect => Element.head?_defects_eq_some_iff,
    fun n => ⟨Element.nameDefects_eq_nil_iff.trans isName_iff_forall_mem,
      Element.nameDefects_eq_nil_or n⟩⟩
  · rw [Element.toMarkup_eq_reported_iff]
    exact and_iff_left hle
  · exact Nat.not_le_of_lt (Element.toMarkup_eq_overflow_iff.mp h) hle

/-- Of three defects below the root, the one of a value comes first, in a style with line breaks and
in one without. There is no style with room for more spaces than a text can have. -/
theorem toMarkup_reports_first_defect_value :
    Element.defects ⟨['a'], [], [⟨['b'], [⟨['k'], ['"']⟩, ⟨[], []⟩], []⟩, ⟨['h', '1'], [], []⟩]⟩ =
      [.invalidValue ['k'] ['"'], .invalidName [], .invalidName ['h', '1']] ∧
    Element.toMarkup ⟨['a'], [], [⟨['b'], [⟨['k'], ['"']⟩, ⟨[], []⟩], []⟩, ⟨['h', '1'], [], []⟩]⟩
      default = .error (.reported (.invalidValue ['k'] ['"'])) ∧
    Element.toMarkup ⟨['a'], [], [⟨['b'], [⟨['k'], ['"']⟩, ⟨[], []⟩], []⟩, ⟨['h', '1'], [], []⟩]⟩
      .compact = .error (.reported (.invalidValue ['k'] ['"'])) ∧
    Element.toMarkup ⟨['a'], [], [⟨['b'], [], []⟩]⟩ ⟨9223372036854775807, true, true⟩ =
      .error .overflow := by
  have hlong : Text.maxSize < (Element.begun ⟨9223372036854775807, true, true⟩
      ⟨['a'], [], [⟨['b'], [], []⟩]⟩).utf8Size := Element.toMarkup_eq_overflow_iff.mp rfl
  exact ⟨rfl, (((toMarkup_reports_first_defect _ default).1 (by decide)).2.1 _).mpr rfl,
    (((toMarkup_reports_first_defect _ .compact).1 (by decide)).2.1 _).mpr rfl,
    (toMarkup_reports_first_defect _ _).2.1 hlong⟩

/-- In a style with the greatest indentation width an element without defects is not written, and a
defect behind the first line of a child is not reported. -/
theorem toMarkup_overflows_before_first_defect :
    Element.defects ⟨['a'], [], [⟨['b'], [], []⟩]⟩ = [] ∧
    Element.toMarkup ⟨['a'], [], [⟨['b'], [], []⟩]⟩ ⟨18446744073709551615, true, true⟩ =
      .error .overflow ∧
    Element.defects ⟨['a'], [], [⟨['b'], [], []⟩, ⟨[], [], []⟩]⟩ = [.invalidName []] ∧
    Element.toMarkup ⟨['a'], [], [⟨['b'], [], []⟩, ⟨[], [], []⟩]⟩
      ⟨18446744073709551615, true, true⟩ = .error .overflow :=
  ⟨rfl, rfl, rfl, rfl⟩

end TagTree
