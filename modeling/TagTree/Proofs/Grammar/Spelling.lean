import TagTree.Element
import TagTree.Proofs.Parser.Rounds

/-!
# Spellings of elements

The texts that stand for an element, said without a parser. A tree has many spellings: blanks may
stand between attributes and around elements, and a childless element is spelled by one tag or by
two. Its names and values stand in every spelling as they are.

An element with an empty name is spelled by one tag only, since a pair of tags `<>` and `</>` is
not a spelling of anything: the second tag alone spells a childless element.

## Main definitions

* `IsBlanks`, `IsNameRun`: the texts made of blanks and those made of name characters.
* `Attribute.SpelledBy`: the spellings of an attribute, with the blanks before it.
* `Element.HeadSpelledBy`: the spellings of what empty tags and start tags share.
* `Element.SpelledBy`, `Element.DocumentSpelledBy`: the spellings of an element without and with
  blanks around it.

## Main results

* `Element.childrenSpelledBy_iff_joined`: children are spelled by documents, one after the other.
* `Element.SpelledBy.exists_cons`: a spelling starts with the character `<`.
-/

namespace TagTree

/-! ### Characters -/

/-- Any number of spaces and newlines. -/
def IsBlanks (w : Text) : Prop :=
  ∀ c ∈ w, isBlank c = true

/-- Any number of name characters. -/
def IsNameRun (n : Text) : Prop :=
  ∀ c ∈ n, isNameChar c = true

theorem isNameChar_of_isBlank {c : Char} (h : isBlank c = true) : isNameChar c = false := by
  simp only [isBlank, Bool.or_eq_true, beq_iff_eq] at h
  rcases h with rfl | rfl <;> rfl

theorem isBlanks_takeWhile (s : Text) : IsBlanks (s.takeWhile isBlank) :=
  fun _ hc => List.mem_takeWhile_imp hc

theorem IsBlanks.dropWhile_append {w : Text} (h : IsBlanks w) (s : Text) :
    (w ++ s).dropWhile isBlank = s.dropWhile isBlank :=
  List.dropWhile_append_of_pos h

theorem dropWhile_dropWhile_isBlank (s : Text) :
    (s.dropWhile isBlank).dropWhile isBlank = s.dropWhile isBlank :=
  Text.dropWhile_of_stops (Text.stops_dropWhile isBlank s)

/-! ### Attributes and tags -/

/-- The text spells the attribute: at least one blank, the name, an equals sign and the value
between double quotes, which the value must not contain. -/
def Attribute.SpelledBy (a : Attribute) (t : Text) : Prop :=
  ∃ w, w ≠ [] ∧ IsBlanks w ∧ IsNameRun a.name ∧ '"' ∉ a.value ∧
    t = w ++ a.name ++ ['=', '"'] ++ a.value ++ ['"']

theorem Attribute.SpelledBy.exists_cons {a : Attribute} {t : Text} (h : a.SpelledBy t) :
    ∃ c u, t = c :: u ∧ isBlank c = true := by
  obtain ⟨w, hne, hw, -, -, rfl⟩ := h
  obtain ⟨c, w, rfl⟩ := List.exists_cons_of_ne_nil hne
  exact ⟨c, _, rfl, hw c List.mem_cons_self⟩

theorem Attribute.SpelledBy.ne_nil {a : Attribute} {t : Text} (h : a.SpelledBy t) : t ≠ [] := by
  obtain ⟨c, u, rfl, -⟩ := h.exists_cons
  exact List.cons_ne_nil c u

namespace Element

/-- The text spells the common part of empty tags and start tags: `<`, a name that may be empty,
and the attributes. -/
def HeadSpelledBy (name : Text) (attributes : List Attribute) (t : Text) : Prop :=
  IsNameRun name ∧ ∃ u, Text.Joined Attribute.SpelledBy attributes u ∧ t = '<' :: name ++ u

/-! ### Elements -/

mutual

/-- The text spells the element, without blanks around it: as an empty tag if it is childless, or
between a start tag and an end tag if its name is not empty. -/
def SpelledBy : Element → Text → Prop
  | ⟨name, attributes, children⟩, c =>
    ∃ head, HeadSpelledBy name attributes head ∧
      (children = [] ∧ c = head ++ ['/', '>'] ∨
        name ≠ [] ∧ ∃ inner, ChildrenSpelledBy children inner ∧
          c = head ++ ['>'] ++ inner ++ ['<', '/'] ++ name ++ ['>'])

/-- The text spells the elements in order, each with blanks around it. -/
def ChildrenSpelledBy : List Element → Text → Prop
  | [], t => t = []
  | e :: es, t => ∃ w c w' u, IsBlanks w ∧ SpelledBy e c ∧ IsBlanks w' ∧
      ChildrenSpelledBy es u ∧ t = w ++ c ++ w' ++ u

end

/-- The text spells the element with blanks around it. -/
def DocumentSpelledBy (e : Element) (s : Text) : Prop :=
  ∃ w c w', IsBlanks w ∧ e.SpelledBy c ∧ IsBlanks w' ∧ s = w ++ c ++ w'

variable {name : Text} {attributes : List Attribute} {children es : List Element} {e : Element}
  {c t head inner : Text}

theorem spelledBy_emptyTag (h : HeadSpelledBy name attributes head) :
    SpelledBy ⟨name, attributes, []⟩ (head ++ ['/', '>']) := by
  rw [SpelledBy]
  exact ⟨head, h, .inl ⟨rfl, rfl⟩⟩

theorem spelledBy_container (hne : name ≠ []) (h : HeadSpelledBy name attributes head)
    (hinner : ChildrenSpelledBy children inner) :
    SpelledBy ⟨name, attributes, children⟩
      (head ++ ['>'] ++ inner ++ ['<', '/'] ++ name ++ ['>']) := by
  rw [SpelledBy]
  exact ⟨head, h, .inr ⟨hne, inner, hinner, rfl⟩⟩

/-- Children are spelled by a sequence of documents. -/
theorem childrenSpelledBy_iff_joined :
    ChildrenSpelledBy es t ↔ Text.Joined DocumentSpelledBy es t := by
  induction es generalizing t with
  | nil => rw [ChildrenSpelledBy, Text.Joined]
  | cons e es ih =>
    rw [ChildrenSpelledBy, Text.Joined]
    constructor
    · rintro ⟨w, c, w', u, hw, hc, hw', hu, rfl⟩
      exact ⟨w ++ c ++ w', u, ⟨w, c, w', hw, hc, hw', rfl⟩, ih.mp hu, rfl⟩
    · rintro ⟨d, u, ⟨w, c, w', hw, hc, hw', rfl⟩, hu, rfl⟩
      exact ⟨w, c, w', u, hw, hc, hw', ih.mpr hu, rfl⟩

/-- A spelling of an element starts with a tag. -/
theorem SpelledBy.exists_cons (h : e.SpelledBy c) : ∃ u, c = '<' :: u := by
  obtain ⟨name, attributes, children⟩ := e
  rw [SpelledBy] at h
  obtain ⟨head, ⟨-, u, -, rfl⟩, ⟨-, rfl⟩ | ⟨-, inner, -, rfl⟩⟩ := h
  · exact ⟨_, rfl⟩
  · exact ⟨_, rfl⟩

/-- A spelling of an element does not start with a blank, so it stays when blanks are dropped. -/
theorem SpelledBy.dropWhile_append (h : e.SpelledBy c) (s : Text) :
    (c ++ s).dropWhile isBlank = c ++ s := by
  obtain ⟨u, rfl⟩ := h.exists_cons
  rfl

end Element

end TagTree
