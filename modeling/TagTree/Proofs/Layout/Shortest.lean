import TagTree.Proofs.RoundTrip

/-!
# The compact layout is a shortest spelling

The compact style writes nothing that a spelling could do without. Every attribute needs a blank
before it, and the layout has exactly one; tags need nothing between them, and the layout has
nothing there; a childless element is spelled by one tag or by two, and the layout takes the one. So
each part of a spelling is at least as long as the same part of the layout, and therefore the whole
is. Shortest spellings are not unique, since the blank before an attribute may as well be a newline.

## Main results

* `Element.SpelledBy.length_layout_le`: no spelling is shorter than the compact layout.
* `document_compact_shortest`: no document of an element is shorter than its compact form.
-/

namespace TagTree

/-! ### Spellings, part by part -/

/-- An attribute is written with the one blank that it needs. -/
theorem Attribute.SpelledBy.length_written_le {a : Attribute} {t : Text} (h : a.SpelledBy t) :
    a.written.length ≤ t.length := by
  obtain ⟨w, hne, -, -, -, rfl⟩ := h
  have hblank : 0 < w.length := List.length_pos_iff.mpr hne
  simp only [Attribute.written, List.length_append, List.length_cons, List.length_nil]
  omega

namespace Element

variable {e : Element} {es : List Element} {name c s t head : Text} {attributes : List Attribute}

theorem HeadSpelledBy.length_written_le (h : HeadSpelledBy name attributes head) :
    ('<' :: name ++ attributes.flatMap Attribute.written).length ≤ head.length := by
  obtain ⟨-, u, hu, rfl⟩ := h
  have hattributes : (attributes.flatMap Attribute.written).length ≤ u.length :=
    hu.length_flatMap_le fun a _ t ht => ht.length_written_le
  rw [List.length_append, List.length_append]
  exact Nat.add_le_add_left hattributes _

/-! ### Spellings of elements -/

/-- Blanks around an element only make a spelling longer. -/
theorem DocumentSpelledBy.length_le {n : Nat} (h : ∀ c, e.SpelledBy c → n ≤ c.length)
    (hs : e.DocumentSpelledBy s) : n ≤ s.length := by
  obtain ⟨w, c, w', -, hc, -, rfl⟩ := hs
  have hn : n ≤ c.length := h c hc
  simp only [List.length_append]
  omega

/-- The compact style puts nothing between elements. -/
theorem layouts_compact (level : Nat) (es : List Element) :
    layouts .compact level es = es.flatMap (layout .compact level) := by
  induction es with
  | nil => rfl
  | cons e es ih =>
    rw [layouts, ih, List.flatMap_cons]
    rfl

/-- Children are spelled at no less length than they are laid out with if each of them is. -/
theorem ChildrenSpelledBy.length_layouts_le {level : Nat}
    (h : ∀ e ∈ es, ∀ c, e.SpelledBy c → (e.layout .compact level).length ≤ c.length)
    (ht : ChildrenSpelledBy es t) : (layouts .compact level es).length ≤ t.length := by
  rw [layouts_compact]
  have hjoined : Text.Joined DocumentSpelledBy es t := childrenSpelledBy_iff_joined.mp ht
  exact hjoined.length_flatMap_le fun e he s hs => hs.length_le (h e he)

/-- A childless element is written as a single tag. -/
theorem length_layout_childless (name : Text) (attributes : List Attribute) (level : Nat) :
    (layout .compact level ⟨name, attributes, []⟩).length =
      ('<' :: name ++ attributes.flatMap Attribute.written).length + 2 := by
  have hlayout : layout .compact level ⟨name, attributes, []⟩ =
      '<' :: name ++ attributes.flatMap Attribute.written ++ ['/', '>'] := rfl
  rw [hlayout, List.length_append]
  rfl

/-- A pair of tags around the children is at least as long as what is written, with equality unless
there are no children. -/
theorem length_layout_le_pair (name : Text) (attributes : List Attribute)
    (children : List Element) (level : Nat) :
    (layout .compact level ⟨name, attributes, children⟩).length ≤
      ('<' :: name ++ attributes.flatMap Attribute.written).length + 1 +
        (layouts .compact (level + 1) children).length + 2 + name.length + 1 := by
  cases children with
  | nil =>
    rw [length_layout_childless]
    omega
  | cons d ds =>
    have hbreak : Style.compact.lineBreak level = [] := rfl
    simp only [layout, hbreak, List.length_append, List.length_cons, List.length_nil]
    omega

/-- **No spelling is shorter than the compact layout.** -/
theorem SpelledBy.length_layout_le (h : e.SpelledBy c) (level : Nat) :
    (e.layout .compact level).length ≤ c.length := by
  induction e using Element.induction generalizing c level with
  | node name attributes children ih =>
    rw [SpelledBy] at h
    obtain ⟨head, hhead, ⟨rfl, hc⟩ | ⟨-, inner, hinner, hc⟩⟩ := h
    · have hlength : c.length = head.length + 2 := by rw [hc, List.length_append]; rfl
      rw [length_layout_childless, hlength]
      exact Nat.add_le_add_right hhead.length_written_le 2
    · have hlength : c.length = head.length + 1 + inner.length + 2 + name.length + 1 := by
        simp only [hc, List.length_append, List.length_cons, List.length_nil]
      have hstart := hhead.length_written_le
      have hlines : (layouts .compact (level + 1) children).length ≤ inner.length :=
        hinner.length_layouts_le fun d hd c hc => ih d hd hc (level + 1)
      have hpair := length_layout_le_pair name attributes children level
      omega

end Element

/-! ### Documents -/

namespace Grammar

variable {s : Text} {e : Element}

/-- No document of an element is shorter than its compact layout, whether or not the element can be
written. -/
theorem length_layout_le_of_document (h : (document s).outcome = .ok e) :
    (e.layout .compact 0).length ≤ s.length :=
  (outcome_document_eq_ok_iff.mp h).length_le fun _ hc => hc.length_layout_le 0

end Grammar

/-- **The compact style yields shortest documents.** What is written for an element in the compact
style is a document of it, and no document of it is shorter. A document written anew in the compact
style is therefore no longer than it was. -/
theorem document_compact_shortest :
    (∀ (e : Element) (t : Text), e.toMarkup .compact = .ok t →
      (Grammar.document t).outcome = .ok e ∧
        ∀ s, (Grammar.document s).outcome = .ok e → t.length ≤ s.length) ∧
    ∀ s t : Text, (restyle s .compact).outcome = .ok t → t.length ≤ s.length := by
  have hshortest : ∀ (e : Element) (s t : Text), e.toMarkup .compact = .ok t →
      (Grammar.document s).outcome = .ok e → t.length ≤ s.length := by
    intro e s t ht hs
    obtain ⟨-, rfl, -⟩ := Element.toMarkup_eq_ok_iff.mp ht
    exact Grammar.length_layout_le_of_document hs
  refine ⟨fun e t ht => ⟨?_, fun s => hshortest e s t ht⟩, fun s t h => ?_⟩
  · exact Grammar.outcome_document_eq_ok_iff.mpr (Element.documentSpelledBy_of_toMarkup ht)
  · obtain ⟨e, hs, ht⟩ := outcome_restyle_eq_ok_iff.mp h
    exact hshortest e s t ht hs

/-- A document with blanks and an end tag to spare, what is written for its element, and a document
written anew. -/
theorem document_compact_shortest_spare :
    Element.toMarkup ⟨['a'], [], [⟨['b'], [⟨['x'], ['/', '>']⟩], []⟩]⟩ .compact =
      .ok "<a><b x=\"/>\"/></a>".toList ∧
    (Grammar.document "<a>\n <b  x=\"/>\"></b>\n</a>\n".toList).outcome =
      .ok ⟨['a'], [], [⟨['b'], [⟨['x'], ['/', '>']⟩], []⟩]⟩ ∧
    "<a><b x=\"/>\"/></a>".toList.length ≤
      "<a>\n <b  x=\"/>\"></b>\n</a>\n".toList.length ∧
    (restyle "<c\nk=\"\"></c>".toList .compact).outcome = .ok "<c k=\"\"/>".toList ∧
    "<c k=\"\"/>".toList.length ≤ "<c\nk=\"\"></c>".toList.length := by
  have hrestyled : (restyle "<c\nk=\"\"></c>".toList .compact).outcome =
      .ok "<c k=\"\"/>".toList :=
    outcome_restyle_eq_ok_iff.mpr ⟨⟨['c'], [⟨['k'], []⟩], []⟩, by decide +kernel, rfl⟩
  have hwritten : Element.toMarkup ⟨['a'], [], [⟨['b'], [⟨['x'], ['/', '>']⟩], []⟩]⟩ .compact =
      .ok "<a><b x=\"/>\"/></a>".toList := rfl
  have hdocument : (Grammar.document "<a>\n <b  x=\"/>\"></b>\n</a>\n".toList).outcome =
      .ok ⟨['a'], [], [⟨['b'], [⟨['x'], ['/', '>']⟩], []⟩]⟩ := by decide +kernel
  have hshortest := (document_compact_shortest.1 _ _ hwritten).2 _ hdocument
  have hrestyle := document_compact_shortest.2 _ _ hrestyled
  exact ⟨hwritten, hdocument, hshortest, hrestyled, hrestyle⟩

end TagTree
