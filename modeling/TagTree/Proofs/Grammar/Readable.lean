import TagTree.Proofs.Grammar.Exactness
import TagTree.Proofs.Element.Subtrees
import TagTree.Proofs.Layout.Written

/-!
# The elements that documents have

Not every element is read from some text. What is read has names made of name characters and values
without quotes, and an element without a name has no children, since its end tag `</>` would be read
as another child. These conditions, everywhere in the tree, are all: an element that meets them has
a spelling, namely its layout in a style with empty tags.

The writer asks for more. It refuses empty names, so the elements without defects are those that are
readable and in which everything has a name. The layout of such an element is a spelling in every
style.

## Main definitions

* `Element.WellTagged`, `Element.Readable`: the conditions at one element and everywhere.
* `Element.Named`: everything in the tree has a name.

## Main results

* `Element.SpelledBy.readable`: what is spelled is readable.
* `Element.spelledBy_layout_of_readable`: what is readable is spelled by its layouts.
* `Element.defects_eq_nil_iff_readable_named`: what the writer asks for.
* `Grammar.exists_document_iff_readable`: the elements that documents have.
-/

namespace TagTree

/-! ### Readable elements -/

namespace Element

/-- The name, the attributes and the children of the element are such that its tags can be read. -/
structure WellTagged (e : Element) : Prop where
  name : IsNameRun e.name
  attributes : ∀ a ∈ e.attributes, IsNameRun a.name ∧ '"' ∉ a.value
  childless : e.name = [] → e.children = []

/-- All elements of the tree have tags that can be read. -/
def Readable (e : Element) : Prop :=
  ∀ x ∈ e.subtrees, x.WellTagged

/-- All elements and all attributes of the tree have names. -/
def Named (e : Element) : Prop :=
  ∀ x ∈ e.subtrees, x.name ≠ [] ∧ ∀ a ∈ x.attributes, a.name ≠ []

variable {e : Element}

theorem readable_iff : e.Readable ↔ e.WellTagged ∧ ∀ c ∈ e.children, c.Readable :=
  forall_mem_subtrees_iff

/-- Some element or attribute of a tree has no name unless all have. -/
theorem not_named_iff :
    ¬ e.Named ↔ ∃ x ∈ e.subtrees, x.name = [] ∨ ∃ a ∈ x.attributes, a.name = [] := by
  simp only [Named, not_forall, not_and_or, not_not, exists_prop]

theorem wellTagged_iff :
    e.WellTagged ↔ IsNameRun e.name ∧ (∀ a ∈ e.attributes, IsNameRun a.name ∧ '"' ∉ a.value) ∧
      (e.name = [] → e.children = []) :=
  ⟨fun h => ⟨h.name, h.attributes, h.childless⟩, fun h => ⟨h.1, h.2.1, h.2.2⟩⟩

-- Over the members of the text: the instance that goes through all characters does not reduce.
instance (n : Text) : Decidable (IsNameRun n) :=
  List.decidableBAll (fun c => isNameChar c = true) n

instance (e : Element) : Decidable e.WellTagged :=
  decidable_of_iff _ wellTagged_iff.symm

instance (e : Element) : Decidable e.Readable :=
  inferInstanceAs (Decidable (∀ x ∈ e.subtrees, x.WellTagged))

instance (e : Element) : Decidable e.Named :=
  inferInstanceAs (Decidable (∀ x ∈ e.subtrees, x.name ≠ [] ∧ ∀ a ∈ x.attributes, a.name ≠ []))

/-! ### Spelled elements are readable -/

variable {es : List Element} {as : List Attribute} {n t c : Text}

theorem HeadSpelledBy.attributes (h : HeadSpelledBy n as t) {a : Attribute} (ha : a ∈ as) :
    IsNameRun a.name ∧ '"' ∉ a.value := by
  obtain ⟨-, u, hu, -⟩ := h
  obtain ⟨v, w, -, -, hname, hvalue, -⟩ := hu.exists_spelling ha
  exact ⟨hname, hvalue⟩

/-- **What is spelled is readable.** -/
theorem SpelledBy.readable (h : e.SpelledBy c) : e.Readable := by
  induction e using Element.induction generalizing c with
  | node name attributes children ih =>
    rw [SpelledBy] at h
    obtain ⟨head, hhead, hrest⟩ := h
    have hattributes : ∀ a ∈ attributes, IsNameRun a.name ∧ '"' ∉ a.value :=
      fun a ha => hhead.attributes ha
    refine readable_iff.mpr ?_
    rcases hrest with ⟨rfl, -⟩ | ⟨hne, inner, hinner, -⟩
    · exact ⟨⟨hhead.1, hattributes, fun _ => rfl⟩, List.forall_mem_nil _⟩
    · refine ⟨⟨hhead.1, hattributes, fun hnil => absurd hnil hne⟩, fun d hd => ?_⟩
      obtain ⟨u, w, c, w', -, hc, -⟩ :=
        (childrenSpelledBy_iff_joined.mp hinner).exists_spelling hd
      exact ih d hd hc

end Element

/-! ### Readable elements are spelled -/

theorem isBlanks_lineBreak (style : Style) (level : Nat) : IsBlanks (style.lineBreak level) := by
  intro c hc
  by_cases hpretty : style.pretty = true
  · rw [Style.lineBreak, if_pos hpretty] at hc
    rcases List.mem_cons.mp hc with rfl | hspace
    · rfl
    · rw [List.eq_of_mem_replicate hspace]
      rfl
  · rw [Style.lineBreak, if_neg hpretty] at hc
    exact absurd hc List.not_mem_nil

theorem Attribute.spelledBy_written {a : Attribute} (hname : IsNameRun a.name)
    (hvalue : '"' ∉ a.value) : a.SpelledBy a.written :=
  ⟨[' '], List.cons_ne_nil _ _, by simp [IsBlanks, isBlank], hname, hvalue, rfl⟩

namespace Element

variable {e : Element}

/-- Blanks after the last of some children belong to it. -/
theorem childrenSpelledBy_append_blanks {es : List Element} {t w : Text} (hne : es ≠ [])
    (h : ChildrenSpelledBy es t) (hw : IsBlanks w) : ChildrenSpelledBy es (t ++ w) := by
  induction es generalizing t with
  | nil => exact absurd rfl hne
  | cons e es ih =>
    obtain ⟨w₁, c, w₂, u, hw₁, hc, hw₂, hu, rfl⟩ := h
    cases es with
    | nil =>
      obtain rfl : u = [] := hu
      have hblanks : IsBlanks (w₂ ++ w) := fun b hb =>
        (List.mem_append.mp hb).elim (hw₂ b) (hw b)
      exact ⟨w₁, c, w₂ ++ w, [], hw₁, hc, hblanks, rfl, by simp⟩
    | cons e' es =>
      exact ⟨w₁, c, w₂, u ++ w, hw₁, hc, hw₂, ih (List.cons_ne_nil _ _) hu,
        List.append_assoc ..⟩

theorem childrenSpelledBy_layouts {style : Style} {level : Nat} {es : List Element}
    (h : ∀ e ∈ es, e.SpelledBy (e.layout style level)) :
    ChildrenSpelledBy es (layouts style level es) := by
  induction es with
  | nil => rfl
  | cons e es ih =>
    exact ⟨style.lineBreak level, e.layout style level, [], layouts style level es,
      isBlanks_lineBreak style level, h e List.mem_cons_self, nofun,
      ih fun e he => h e (List.mem_cons_of_mem _ he), by rw [layouts, List.append_nil]⟩

theorem headSpelledBy_written (h : e.WellTagged) :
    HeadSpelledBy e.name e.attributes
      ('<' :: e.name ++ e.attributes.flatMap Attribute.written) :=
  ⟨h.name, _, Text.joined_flatMap fun a ha =>
    Attribute.spelledBy_written (h.attributes a ha).1 (h.attributes a ha).2, rfl⟩

/-- **What is readable is spelled by its layouts**, in every style with empty tags. A style that
closes each start tag does the same if all elements have names. -/
theorem spelledBy_layout_of_readable {style : Style} (he : e.Readable)
    (hclosed : style.selfClose = true ∨ ∀ x ∈ e.subtrees, x.name ≠ []) (level : Nat) :
    e.SpelledBy (e.layout style level) := by
  induction e using Element.induction generalizing level with
  | node name attributes children ih =>
    obtain ⟨htagged, hchildren⟩ := readable_iff.mp he
    have hhead := headSpelledBy_written htagged
    cases children with
    | nil =>
      rw [layout]
      split
      · exact spelledBy_emptyTag hhead
      · next hpair =>
        have hne : name ≠ [] := hclosed.resolve_left hpair _ (self_mem_subtrees _)
        have hspelled : SpelledBy ⟨name, attributes, []⟩ _ := spelledBy_container hne hhead rfl
        simpa only [List.append_assoc, List.nil_append, List.cons_append] using hspelled
    | cons c cs =>
      have hne : name ≠ [] := fun hnil => List.cons_ne_nil c cs (htagged.childless hnil)
      have hlines : ChildrenSpelledBy (c :: cs) (layouts style (level + 1) (c :: cs)) :=
        childrenSpelledBy_layouts fun d hd => ih d hd (hchildren d hd)
          (hclosed.imp_right fun h => (forall_mem_subtrees_iff.mp h).2 d hd) (level + 1)
      have hinner := childrenSpelledBy_append_blanks (List.cons_ne_nil c cs) hlines
        (isBlanks_lineBreak style level)
      have hpair := spelledBy_container hne hhead hinner
      simpa only [layout, List.append_assoc] using hpair

/-! ### Elements without defects -/

theorem isName_iff {n : Text} : isName n = true ↔ n ≠ [] ∧ IsNameRun n := by
  rw [isName, Bool.and_eq_true, List.all_eq_true, Bool.not_eq_true', List.isEmpty_eq_false_iff,
    IsNameRun]

theorem ownDefects_eq_nil_iff :
    e.ownDefects = [] ↔ isName e.name = true ∧
      ∀ a ∈ e.attributes, isName a.name = true ∧ '"' ∉ a.value := by
  rw [ownDefects, List.append_eq_nil_iff, nameDefects_eq_nil_iff, List.flatMap_eq_nil_iff]
  simp only [attributeDefects_eq_nil_iff]

/-- **What the writer asks for.** An element has no defects exactly if it is readable and everything
in it has a name. -/
theorem defects_eq_nil_iff_readable_named : e.defects = [] ↔ e.Readable ∧ e.Named := by
  rw [defects_eq_flatMap, List.flatMap_eq_nil_iff]
  simp only [ownDefects_eq_nil_iff, isName_iff]
  constructor
  · intro h
    refine ⟨fun x hx => ?_, fun x hx => ?_⟩
    · obtain ⟨⟨hne, hname⟩, hattributes⟩ := h x hx
      exact ⟨hname, fun a ha => ⟨(hattributes a ha).1.2, (hattributes a ha).2⟩,
        fun hnil => absurd hnil hne⟩
    · obtain ⟨⟨hne, -⟩, hattributes⟩ := h x hx
      exact ⟨hne, fun a ha => (hattributes a ha).1.1⟩
  · rintro ⟨hreadable, hnamed⟩ x hx
    obtain ⟨hname, hattributes, -⟩ := hreadable x hx
    obtain ⟨hne, hnames⟩ := hnamed x hx
    exact ⟨⟨hne, hname⟩, fun a ha => ⟨⟨hnames a ha, (hattributes a ha).1⟩, (hattributes a ha).2⟩⟩

end Element

/-! ### The elements of documents -/

namespace Grammar

variable {s : Text} {e : Element}

theorem readable_of_document (h : (document s).outcome = .ok e) : e.Readable := by
  obtain ⟨w, c, w', -, hc, -⟩ := outcome_document_eq_ok_iff.mp h
  exact hc.readable

/-- The layout of a readable element on one line is a document of it. -/
theorem document_layout_compact (he : e.Readable) :
    (document (e.layout .compact 0)).outcome = .ok e := by
  have hspelled : e.SpelledBy (e.layout .compact 0) :=
    Element.spelledBy_layout_of_readable he (.inl rfl) 0
  exact outcome_document_eq_ok_iff.mpr
    ⟨[], _, [], nofun, hspelled, nofun, (List.append_nil _).symm⟩

/-- **The elements that documents have.** An element is read from some document if and only if it is
readable: everywhere in it, names are runs of name characters, values have no double quotes, and
elements with an empty name have no children. No container at all is read with an empty name. -/
theorem exists_document_iff_readable :
    (∀ e : Element, (∃ s, (document s).outcome = .ok e) ↔ e.Readable) ∧
      ∀ (s r : Text) (e : Element), (container.parse s).outcome = .ok ⟨e, r⟩ → e.name ≠ [] := by
  refine ⟨fun e => ⟨?_, fun he => ?_⟩, fun s r e h => ne_nil_of_reads_container h⟩
  · rintro ⟨s, h⟩
    exact readable_of_document h
  · exact ⟨e.layout .compact 0, document_layout_compact he⟩

/-- An attribute and a childless element may go without a name, an element with a child may not; and
a container that was read has a name. -/
theorem exists_document_iff_readable_nameless :
    (∃ s, (document s).outcome = .ok ⟨['a'], [⟨[], ['<', '/', '>']⟩], [⟨[], [], []⟩]⟩) ∧
    (¬ ∃ s, (document s).outcome = .ok ⟨['a'], [], [⟨[], [], [⟨['b'], [], []⟩]⟩]⟩) ∧
    (container.parse "<a></></a>".toList).outcome = .ok ⟨⟨['a'], [], [⟨[], [], []⟩]⟩, []⟩ ∧
    ['a'] ≠ [] := by
  have hread : (container.parse "<a></></a>".toList).outcome =
      .ok ⟨⟨['a'], [], [⟨[], [], []⟩]⟩, []⟩ := by decide +kernel
  have hnameless := (exists_document_iff_readable.1 _).mpr
    (show Element.Readable ⟨['a'], [⟨[], ['<', '/', '>']⟩], [⟨[], [], []⟩]⟩ by decide)
  have hchild := mt (exists_document_iff_readable.1 _).mp
    (show ¬ Element.Readable ⟨['a'], [], [⟨[], [], [⟨['b'], [], []⟩]⟩]⟩ by decide)
  exact ⟨hnameless, hchild, hread, exists_document_iff_readable.2 _ _ _ hread⟩

end Grammar

end TagTree
