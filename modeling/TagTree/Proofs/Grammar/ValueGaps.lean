import TagTree.Proofs.Grammar.Exactness
import Mathlib.Algebra.Group.Nat.Even

/-!
# The values between quotes

A *gap* is a place where a value may stand: in a text, between two double quotes with an even number
of quotes before them (`Text.Gap`); in an element, at an attribute whose value is left open
(`Element.Gap`). Every part of a spelling has an even number of quotes, so two parts never meet
inside a gap, and a gap of the text goes down through children and attributes until it is the value
of one attribute. Hence a text with a gap spells an element with a gap, whichever value without
quotes fills both, and whether it is accepted does not depend on the value.

## Main definitions

* `Text.Gap`, `Element.Gap`: places for a value, and how they are filled.
* `Element.TracedBy`: a gap of a text that is a gap of an element.

## Main results

* `Text.Gap.append_cases`: a gap of two texts put together lies in one of them.
* `Element.SpelledBy.even_count`: spellings have an even number of quotes.
* `Element.SpelledBy.tracedBy`: a gap in a spelling of an element is a gap of the element.
* `Grammar.document_quoted_value`: what stands between quotes does not matter elsewhere.
-/

namespace TagTree

/-! ### Gaps in texts -/

theorem Text.even_count_of_notMem {t : Text} (h : '"' ∉ t) : Even (t.count '"') := by
  rw [List.count_eq_zero.mpr h]
  exact Even.zero

/-- A place for a value between two double quotes, after a text with an even number of quotes. -/
structure Text.Gap where
  before : Text
  after : Text
  /-- The place is not inside another value. -/
  even_before : Even (before.count '"')

namespace Text.Gap

variable {gap : Text.Gap} {a b v : Text}

/-- The text with a value in the gap. -/
def fill (gap : Text.Gap) (v : Text) : Text :=
  gap.before ++ '"' :: v ++ '"' :: gap.after

theorem mem_fill (gap : Text.Gap) (v : Text) : '"' ∈ gap.fill v := by
  simp [fill]

theorem count_fill (gap : Text.Gap) (hv : '"' ∉ v) :
    (gap.fill v).count '"' = gap.before.count '"' + gap.after.count '"' + 2 := by
  simp only [fill, List.count_append, List.count_cons_self, List.count_eq_zero.mpr hv]
  omega

/-- **A gap lies in one part.** Where two texts are put together, the first of them with an even
number of quotes, a gap of the whole is a gap of one of them. -/
theorem append_cases (ha : Even (a.count '"')) (hv : '"' ∉ v) (h : a ++ b = gap.fill v) :
    (∃ g : Text.Gap, a = g.fill v ∧ ∀ v', gap.fill v' = g.fill v' ++ b) ∨
      ∃ g : Text.Gap, b = g.fill v ∧ ∀ v', gap.fill v' = a ++ g.fill v' := by
  obtain ⟨before, after, hbefore⟩ := gap
  -- The first text does not end inside the gap, where it would have an odd number of quotes.
  have hodd : ∀ p, '"' ∉ p → a ≠ before ++ '"' :: p := by
    rintro p hp rfl
    rw [List.count_append, List.count_cons_self, List.count_eq_zero.mpr hp] at ha
    rw [Nat.even_iff] at ha hbefore
    omega
  change a ++ b = before ++ '"' :: v ++ '"' :: after at h
  rw [List.append_assoc] at h
  rcases List.append_eq_append_iff.mp h with ⟨p, hp, hb⟩ | ⟨p, hp, hrest⟩
  · have hpcount : Even (p.count '"') := by
      rw [hp, List.count_append] at hbefore
      exact (Nat.even_add.mp hbefore).mp ha
    subst hp
    exact .inr ⟨⟨p, after, hpcount⟩, by rw [hb, fill, List.append_assoc],
      fun v' => by simp only [fill, List.append_assoc]⟩
  · rcases List.append_eq_append_iff.mp hrest with ⟨q, hq, hafter⟩ | ⟨q, hq, hb⟩
    · cases q with
      | nil => exact absurd (by rw [hp, hq, List.append_nil]) (hodd v hv)
      | cons c q =>
        rw [List.cons_append] at hafter
        obtain ⟨rfl, rfl⟩ := List.cons.inj hafter
        exact .inl ⟨⟨before, q, hbefore⟩, by rw [hp, hq, fill, List.append_assoc],
          fun v' => by simp only [fill, List.append_assoc, List.cons_append]⟩
    · cases p with
      | nil =>
        rw [List.append_nil] at hp
        subst hp
        exact .inr ⟨⟨[], after, Even.zero⟩, by rw [hb, ← List.nil_append q, ← hq]; rfl,
          fun v' => by simp only [fill, List.append_assoc, List.nil_append]⟩
      | cons c p =>
        obtain ⟨rfl, rfl⟩ := List.cons.inj hq
        exact absurd hp (hodd p fun hmem => hv (List.mem_append_left q hmem))

/-- A gap does not begin in a text without quotes. -/
theorem of_append_left (ha : '"' ∉ a) (hv : '"' ∉ v) (h : a ++ b = gap.fill v) :
    ∃ g : Text.Gap, b = g.fill v ∧ ∀ v', gap.fill v' = a ++ g.fill v' := by
  rcases append_cases (even_count_of_notMem ha) hv h with ⟨g, rfl, -⟩ | hright
  · exact absurd (mem_fill g v) ha
  · exact hright

/-- A gap does not begin before a text without quotes and end in it. -/
theorem of_append_right (ha : Even (a.count '"')) (hb : '"' ∉ b) (hv : '"' ∉ v)
    (h : a ++ b = gap.fill v) :
    ∃ g : Text.Gap, a = g.fill v ∧ ∀ v', gap.fill v' = g.fill v' ++ b := by
  rcases append_cases ha hv h with hleft | ⟨g, rfl, -⟩
  · exact hleft
  · exact absurd (mem_fill g v) hb

end Text.Gap

/-- The first quote of a text comes at one place. -/
theorem Text.eq_of_append_quote_eq {p p' r r' : Text} (hp : '"' ∉ p) (hp' : '"' ∉ p')
    (h : p ++ '"' :: r = p' ++ '"' :: r') : p = p' ∧ r = r' := by
  have hrun : ∀ u : Text, '"' ∉ u → ∀ c ∈ u, (c != '"') = true := fun u hu c hc =>
    bne_iff_ne.mpr fun heq => hu (heq ▸ hc)
  have hstop : ∀ u : Text, Text.Stops (· != '"') ('"' :: u) := fun _ =>
    Text.stops_cons.mpr (bne_self_eq_false _)
  obtain ⟨rfl, hrest⟩ := Text.run_unique (hrun p hp) (hstop r) (hrun p' hp') (hstop r') h
  exact ⟨rfl, List.tail_eq_of_cons_eq hrest⟩

/-! ### Spellings have an even number of quotes -/

theorem IsNameRun.quote_notMem {n : Text} (h : IsNameRun n) : '"' ∉ n :=
  fun hmem => absurd (h _ hmem) (by decide)

theorem IsBlanks.quote_notMem {w : Text} (h : IsBlanks w) : '"' ∉ w :=
  fun hmem => absurd (h _ hmem) (by decide)

theorem Attribute.SpelledBy.count_quote {a : Attribute} {t : Text} (h : a.SpelledBy t) :
    t.count '"' = 2 := by
  obtain ⟨w, -, hw, hname, hvalue, rfl⟩ := h
  simp [List.count_eq_zero.mpr hw.quote_notMem, List.count_eq_zero.mpr hname.quote_notMem,
    List.count_eq_zero.mpr hvalue]

theorem Attribute.SpelledBy.even_count {a : Attribute} {t : Text} (h : a.SpelledBy t) :
    Even (t.count '"') := by
  rw [h.count_quote]
  exact ⟨1, rfl⟩

theorem Text.Joined.even_count {α : Type} {Spells : α → Text → Prop} {as : List α} {t : Text}
    (hmember : ∀ a ∈ as, ∀ t, Spells a t → Even (t.count '"')) (h : Text.Joined Spells as t) :
    Even (t.count '"') := by
  induction as generalizing t with
  | nil =>
    obtain rfl : t = [] := h
    exact Even.zero
  | cons a as ih =>
    obtain ⟨u, v, hu, hv, rfl⟩ := h
    have hfirst : Even (u.count '"') := hmember a List.mem_cons_self u hu
    have hrest : Even (v.count '"') := ih (fun b hb => hmember b (List.mem_cons_of_mem _ hb)) hv
    rw [List.count_append]
    exact hfirst.add hrest

namespace Element

theorem HeadSpelledBy.even_count {n t : Text} {as : List Attribute} (h : HeadSpelledBy n as t) :
    Even (t.count '"') := by
  obtain ⟨hn, u, hu, rfl⟩ := h
  have hattributes : Even (u.count '"') := hu.even_count fun _ _ _ ht => ht.even_count
  simpa [List.count_eq_zero.mpr hn.quote_notMem] using hattributes

theorem DocumentSpelledBy.even_count_of {e : Element} {s : Text}
    (he : ∀ c, e.SpelledBy c → Even (c.count '"')) (h : e.DocumentSpelledBy s) :
    Even (s.count '"') := by
  obtain ⟨w, c, w', hw, hc, hw', rfl⟩ := h
  rw [List.count_append, List.count_append]
  have hbefore := Text.even_count_of_notMem hw.quote_notMem
  have hafter := Text.even_count_of_notMem hw'.quote_notMem
  exact (hbefore.add (he c hc)).add hafter

/-- A spelling of an element has an even number of quotes. -/
theorem SpelledBy.even_count {e : Element} {c : Text} (h : e.SpelledBy c) :
    Even (c.count '"') := by
  induction e using Element.induction generalizing c with
  | node name attributes children ih =>
    rw [SpelledBy] at h
    obtain ⟨head, hhead, ⟨-, rfl⟩ | ⟨-, inner, hinner, rfl⟩⟩ := h
    · simpa using hhead.even_count
    · have hchildren : Even (inner.count '"') :=
        (childrenSpelledBy_iff_joined.mp hinner).even_count fun e he _ =>
          DocumentSpelledBy.even_count_of fun _ => ih e he
      have hname : '"' ∉ name := hhead.1.quote_notMem
      simpa [List.count_eq_zero.mpr hname] using hhead.even_count.add hchildren

theorem DocumentSpelledBy.even_count {e : Element} {s : Text} (h : e.DocumentSpelledBy s) :
    Even (s.count '"') :=
  h.even_count_of fun _ hc => hc.even_count

theorem ChildrenSpelledBy.even_count {es : List Element} {t : Text} (h : ChildrenSpelledBy es t) :
    Even (t.count '"') :=
  (childrenSpelledBy_iff_joined.mp h).even_count fun _ _ _ hd => hd.even_count

end Element

/-! ### Gaps in elements -/

/-- An element in which the value of one attribute is left open. -/
inductive Element.Gap where
  /-- The value of an attribute of the element itself. -/
  | here (name : Text) (before : List Attribute) (key : Text) (after : List Attribute)
      (children : List Element)
  /-- A value inside one of its children. -/
  | inside (name : Text) (attributes : List Attribute) (before : List Element)
      (gap : Element.Gap) (after : List Element)

/-- The element with a value in the gap. -/
def Element.Gap.fill : Element.Gap → Text → Element
  | here name before key after children, v => ⟨name, before ++ ⟨key, v⟩ :: after, children⟩
  | inside name attributes before gap after, v => ⟨name, attributes, before ++ gap.fill v :: after⟩

/-! ### Gaps of spellings are gaps of elements -/

/-- A gap in the spelling of an attribute is its value. -/
theorem Attribute.SpelledBy.value_of_fill {a : Attribute} {gap : Text.Gap} {v : Text}
    (hv : '"' ∉ v) (h : a.SpelledBy (gap.fill v)) :
    a.value = v ∧ ∀ v', '"' ∉ v' → (⟨a.name, v'⟩ : Attribute).SpelledBy (gap.fill v') := by
  have hcount := h.count_quote
  rw [gap.count_fill hv] at hcount
  have hbefore : '"' ∉ gap.before := List.count_eq_zero.mp (by omega)
  obtain ⟨w, hne, hw, hname, hvalue, heq⟩ := h
  have hstart : '"' ∉ w ++ a.name ++ ['='] := by
    simp [hw.quote_notMem, hname.quote_notMem]
  have hquotes : gap.before ++ '"' :: (v ++ '"' :: gap.after) =
      w ++ a.name ++ ['='] ++ '"' :: (a.value ++ '"' :: []) := by
    simpa [Text.Gap.fill] using heq
  obtain ⟨hfirst, hrest⟩ := Text.eq_of_append_quote_eq hbefore hstart hquotes
  obtain ⟨rfl, hlast⟩ := Text.eq_of_append_quote_eq hv hvalue hrest
  refine ⟨rfl, fun v' hv' => ⟨w, hne, hw, hname, hv', ?_⟩⟩
  simp [Text.Gap.fill, hfirst, hlast]

/-- A gap in a sequence of spellings is a gap in one of them, which may then be changed there. -/
theorem Text.Joined.exists_member_gap {α : Type} {Spells : α → Text → Prop} {as : List α}
    {gap : Text.Gap} {v : Text} (hmember : ∀ a ∈ as, ∀ t, Spells a t → Even (t.count '"'))
    (hv : '"' ∉ v) (h : Text.Joined Spells as (gap.fill v)) :
    ∃ before a after, ∃ g : Text.Gap, as = before ++ a :: after ∧ Spells a (g.fill v) ∧
      ∀ b v', Spells b (g.fill v') →
        Text.Joined Spells (before ++ b :: after) (gap.fill v') := by
  induction as generalizing gap with
  | nil =>
    have hmem := gap.mem_fill v
    rw [h] at hmem
    cases hmem
  | cons a as ih =>
    obtain ⟨t, u, ht, hu, heq⟩ := h
    rcases Text.Gap.append_cases (hmember a List.mem_cons_self t ht) hv heq.symm with
      ⟨g, rfl, hfill⟩ | ⟨g, rfl, hfill⟩
    · exact ⟨[], a, as, g, rfl, ht, fun b v' hb => ⟨g.fill v', u, hb, hu, hfill v'⟩⟩
    · obtain ⟨before, b, after, g', rfl, hb, hchange⟩ :=
        ih (fun c hc => hmember c (List.mem_cons_of_mem _ hc)) hu
      exact ⟨a :: before, b, after, g', rfl, hb, fun c v' hc =>
        ⟨t, g.fill v', ht, hchange c v' hc, hfill v'⟩⟩

namespace Element

variable {gap : Text.Gap} {v : Text} {e : Element}

/-- The gap of the text, with `v` in it, is a gap of the element: whichever value stands in the
first, the text spells the element with this value in the second. -/
def TracedBy (Spells : Element → Text → Prop) (gap : Text.Gap) (v : Text) (e : Element) : Prop :=
  ∃ g : Element.Gap, e = g.fill v ∧ ∀ v', '"' ∉ v' → Spells (g.fill v') (gap.fill v')

/-- A gap in the common part of empty tags and start tags is the value of an attribute. -/
theorem HeadSpelledBy.exists_gap {n : Text} {as : List Attribute} (hv : '"' ∉ v)
    (h : HeadSpelledBy n as (gap.fill v)) :
    ∃ before key after, as = before ++ ⟨key, v⟩ :: after ∧
      ∀ v', '"' ∉ v' → HeadSpelledBy n (before ++ ⟨key, v'⟩ :: after) (gap.fill v') := by
  obtain ⟨hn, u, hu, heq⟩ := h
  have hstart : '"' ∉ '<' :: n := by simp [hn.quote_notMem]
  obtain ⟨g, rfl, hfill⟩ := Text.Gap.of_append_left hstart hv heq.symm
  obtain ⟨before, ⟨key, value⟩, after, g', rfl, ha, hchange⟩ :=
    hu.exists_member_gap (fun _ _ _ ht => ht.even_count) hv
  obtain ⟨rfl, hvalue⟩ := ha.value_of_fill hv
  exact ⟨before, key, after, rfl, fun v' hv' =>
    ⟨hn, g.fill v', hchange _ v' (hvalue v' hv'), hfill v'⟩⟩

/-- Blanks around a spelling do not move its gap. -/
theorem DocumentSpelledBy.tracedBy (hv : '"' ∉ v)
    (he : ∀ gap : Text.Gap, e.SpelledBy (gap.fill v) → e.TracedBy SpelledBy gap v)
    (h : e.DocumentSpelledBy (gap.fill v)) : e.TracedBy DocumentSpelledBy gap v := by
  obtain ⟨w, c, w', hw, hc, hw', heq⟩ := h
  rw [List.append_assoc] at heq
  obtain ⟨g₁, hrest, hfill₁⟩ := Text.Gap.of_append_left hw.quote_notMem hv heq.symm
  obtain ⟨g₂, rfl, hfill₂⟩ := Text.Gap.of_append_right hc.even_count hw'.quote_notMem hv hrest
  obtain ⟨g, rfl, hspells⟩ := he g₂ hc
  refine ⟨g, rfl, fun v' hv' => ⟨w, g₂.fill v', w', hw, hspells v' hv', hw', ?_⟩⟩
  rw [hfill₁, hfill₂, List.append_assoc]

/-- A gap in the spellings of children is a gap of one child. -/
theorem ChildrenSpelledBy.exists_gap {es : List Element} (hv : '"' ∉ v)
    (he : ∀ e ∈ es, ∀ gap : Text.Gap, e.SpelledBy (gap.fill v) → e.TracedBy SpelledBy gap v)
    (h : ChildrenSpelledBy es (gap.fill v)) :
    ∃ before, ∃ g : Element.Gap, ∃ after, es = before ++ g.fill v :: after ∧
      ∀ v', '"' ∉ v' → ChildrenSpelledBy (before ++ g.fill v' :: after) (gap.fill v') := by
  simp only [childrenSpelledBy_iff_joined] at h ⊢
  obtain ⟨before, e, after, g, rfl, hdocument, hchange⟩ :=
    h.exists_member_gap (fun _ _ _ hd => hd.even_count) hv
  have hmem : e ∈ before ++ e :: after := List.mem_append_right _ List.mem_cons_self
  obtain ⟨below, rfl, hspells⟩ := hdocument.tracedBy hv (he e hmem)
  exact ⟨before, below, after, rfl, fun v' hv' => hchange _ v' (hspells v' hv')⟩

/-- **Gaps go down to attributes.** A gap in a spelling of an element is a gap of the element. -/
theorem SpelledBy.tracedBy (hv : '"' ∉ v) (h : e.SpelledBy (gap.fill v)) :
    e.TracedBy SpelledBy gap v := by
  induction e using Element.induction generalizing gap with
  | node name attributes children ih =>
    rw [SpelledBy] at h
    obtain ⟨head, hhead, ⟨rfl, heq⟩ | ⟨hne, inner, hinner, heq⟩⟩ := h
    · obtain ⟨g, rfl, hfill⟩ := Text.Gap.of_append_right hhead.even_count (by decide) hv heq.symm
      obtain ⟨before, key, after, rfl, hhead'⟩ := hhead.exists_gap hv
      refine ⟨.here name before key after [], rfl, fun v' hv' => ?_⟩
      rw [hfill]
      exact spelledBy_emptyTag (hhead' v' hv')
    · have hcut : head ++ (['>'] ++ inner) ++ (['<', '/'] ++ name ++ ['>']) = gap.fill v := by
        rw [heq]
        simp only [List.append_assoc]
      have hopened : Even ((head ++ (['>'] ++ inner)).count '"') := by
        simpa using hhead.even_count.add hinner.even_count
      have hclosing : '"' ∉ ['<', '/'] ++ name ++ ['>'] := by
        simp [hhead.1.quote_notMem]
      -- The gap is not in the end tag, so it is in the start tag or between the two.
      obtain ⟨g, hbefore, hfill⟩ := Text.Gap.of_append_right hopened hclosing hv hcut
      rcases Text.Gap.append_cases hhead.even_count hv hbefore with
        ⟨g₁, rfl, hfill₁⟩ | ⟨g₁, hbetween, hfill₁⟩
      · obtain ⟨before, key, after, rfl, hhead'⟩ := hhead.exists_gap hv
        refine ⟨.here name before key after children, rfl, fun v' hv' => ?_⟩
        have hpair := spelledBy_container hne (hhead' v' hv') hinner
        simpa only [Gap.fill, hfill, hfill₁, List.append_assoc] using hpair
      · obtain ⟨g₂, rfl, hfill₂⟩ := Text.Gap.of_append_left (by decide) hv hbetween
        obtain ⟨before, below, after, rfl, hinner'⟩ :=
          hinner.exists_gap hv fun e he _ => ih e he
        refine ⟨.inside name attributes before below after, rfl, fun v' hv' => ?_⟩
        have hpair := spelledBy_container hne hhead (hinner' v' hv')
        simpa only [Gap.fill, hfill, hfill₁, hfill₂, List.append_assoc] using hpair

end Element

/-! ### Documents -/

namespace Grammar

variable {v v' : Text} {e : Element}

/-- The gap of an accepted text is a gap of its element, whichever value stands in them. -/
theorem exists_gap_of_document (gap : Text.Gap) (hv : '"' ∉ v)
    (h : (document (gap.fill v)).outcome = .ok e) :
    ∃ g : Element.Gap, e = g.fill v ∧
      ∀ v', '"' ∉ v' → (document (gap.fill v')).outcome = .ok (g.fill v') := by
  obtain ⟨g, heq, hspells⟩ :=
    (outcome_document_eq_ok_iff.mp h).tracedBy hv fun _ => Element.SpelledBy.tracedBy hv
  exact ⟨g, heq, fun v' hv' => outcome_document_eq_ok_iff.mpr (hspells v' hv')⟩

/-- Whether a text with a gap is accepted does not depend on the value in the gap. -/
theorem accepted_fill_of_fill (gap : Text.Gap) (hv : '"' ∉ v) (hv' : '"' ∉ v')
    (h : ∃ e, (document (gap.fill v)).outcome = .ok e) :
    ∃ e, (document (gap.fill v')).outcome = .ok e := by
  obtain ⟨e, he⟩ := h
  obtain ⟨g, -, hall⟩ := exists_gap_of_document gap hv he
  exact ⟨g.fill v', hall v' hv'⟩

/-- **Values are not markup.** Let the text before a quote have an even number of quotes. Whether
the document is accepted does not depend on the text between this quote and the next one, and if it
is, this text is the value of one attribute, and nothing else in the element depends on it. -/
theorem document_quoted_value (pre post v v' : Text) (hpre : Even (pre.count '"')) (hv : '"' ∉ v)
    (hv' : '"' ∉ v') :
    ((∃ e, (document (pre ++ '"' :: v ++ '"' :: post)).outcome = .ok e) ↔
      ∃ e', (document (pre ++ '"' :: v' ++ '"' :: post)).outcome = .ok e') ∧
    ∀ e e', (document (pre ++ '"' :: v ++ '"' :: post)).outcome = .ok e →
      (document (pre ++ '"' :: v' ++ '"' :: post)).outcome = .ok e' →
        ∃ gap : Element.Gap, e = gap.fill v ∧ e' = gap.fill v' := by
  let gap : Text.Gap := ⟨pre, post, hpre⟩
  refine ⟨⟨accepted_fill_of_fill gap hv hv', accepted_fill_of_fill gap hv' hv⟩,
    fun e e' he he' => ?_⟩
  obtain ⟨g, heq, hall⟩ := exists_gap_of_document gap hv he
  have hsame : Except.ok e' = .ok (g.fill v') := he'.symm.trans (hall v' hv')
  exact ⟨g, heq, Except.ok.inj hsame⟩

/-- A value in a child, an end tag in one document and the end of an empty tag in the other. -/
theorem document_quoted_value_tags :
    (document "<a><b k=\"</b>\"/></a>".toList).outcome =
      .ok ⟨['a'], [], [⟨['b'], [⟨['k'], ['<', '/', 'b', '>']⟩], []⟩]⟩ ∧
    (document "<a><b k=\"/>\"/></a>".toList).outcome =
      .ok ⟨['a'], [], [⟨['b'], [⟨['k'], ['/', '>']⟩], []⟩]⟩ ∧
    ∃ gap : Element.Gap,
      ⟨['a'], [], [⟨['b'], [⟨['k'], ['<', '/', 'b', '>']⟩], []⟩]⟩ = gap.fill ['<', '/', 'b', '>'] ∧
      ⟨['a'], [], [⟨['b'], [⟨['k'], ['/', '>']⟩], []⟩]⟩ = gap.fill ['/', '>'] := by
  have h : (document "<a><b k=\"</b>\"/></a>".toList).outcome =
      .ok ⟨['a'], [], [⟨['b'], [⟨['k'], ['<', '/', 'b', '>']⟩], []⟩]⟩ := by decide +kernel
  have h' : (document "<a><b k=\"/>\"/></a>".toList).outcome =
      .ok ⟨['a'], [], [⟨['b'], [⟨['k'], ['/', '>']⟩], []⟩]⟩ := by decide +kernel
  exact ⟨h, h', (document_quoted_value "<a><b k=".toList "/></a>".toList ['<', '/', 'b', '>']
    ['/', '>'] (by decide) (by decide) (by decide)).2 _ _ h h'⟩

end Grammar

end TagTree
