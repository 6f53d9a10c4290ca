import TagTree.Proofs.Grammar.Tags

/-!
# The list of attributes

The attributes of a tag are read to the end of the longest list of attributes that the text starts
with. Every attribute brings the blanks before it. So an attempt that fails behind the blanks, in
the name, before the equals sign or inside the quotes, gives back its blanks along with everything
else, and what follows the list in the tag is looked for in front of them.

Where a list ends is settled by the first place at which no attribute starts, and that place does
not depend on how the text is cut: blanks are cut off in one way, since an attribute without its
blanks does not start with one, and then the equals sign and the quotes cut the rest.

## Main definitions

* `Attribute.BareSpelledBy`: the spelling of an attribute without the blanks before it.

## Main results

* `Grammar.exists_spelledBy_prefix_iff`: what has to follow blanks for an attribute to start there.
* `Grammar.reads_attributes_stays_iff`: blanks that stay behind a list of attributes.
* `Grammar.attributes_take_longest_list`: what is read, that it is the longest list, and what stays.
-/

namespace TagTree

/-! ### Attributes without their blanks -/

/-- The text spells the attribute without blanks before it. -/
def Attribute.BareSpelledBy (a : Attribute) (b : Text) : Prop :=
  IsNameRun a.name ∧ '"' ∉ a.value ∧ b = a.name ++ ['=', '"'] ++ a.value ++ ['"']

theorem Attribute.spelledBy_iff {a : Attribute} {t : Text} :
    a.SpelledBy t ↔ ∃ w b, w ≠ [] ∧ IsBlanks w ∧ a.BareSpelledBy b ∧ t = w ++ b := by
  constructor
  · rintro ⟨w, hne, hw, hn, hv, rfl⟩
    exact ⟨w, _, hne, hw, ⟨hn, hv, rfl⟩, by simp only [List.append_assoc]⟩
  · rintro ⟨w, b, hne, hw, ⟨hn, hv, rfl⟩, rfl⟩
    exact ⟨w, hne, hw, hn, hv, by simp only [List.append_assoc]⟩

namespace Grammar

open TagTree.Parser

variable {t u w : Text} {as : List Attribute}

theorem stops_isBlank_of_bareSpelledBy {a : Attribute} {b : Text} (h : a.BareSpelledBy b)
    (u : Text) : Text.Stops isBlank (b ++ u) := by
  obtain ⟨hn, -, rfl⟩ := h
  simp only [List.append_assoc, List.cons_append]
  exact stops_isBlank_nameValue hn

theorem exact_nameValue : nameValue.Exact Attribute.BareSpelledBy := by
  intro s a r
  rw [reads_nameValue]
  constructor
  · rintro ⟨hn, hv, rfl⟩
    exact ⟨_, ⟨hn, hv, rfl⟩, by simp only [List.append_assoc, List.cons_append, List.nil_append]⟩
  · rintro ⟨_, ⟨hn, hv, rfl⟩, rfl⟩
    exact ⟨hn, hv, by simp only [List.append_assoc, List.cons_append, List.nil_append]⟩

/-- At some blanks an attribute starts if there are any and, behind all of them, the text goes on
with an attribute. -/
theorem exists_spelledBy_prefix_iff (hw : IsBlanks w) (hu : Text.Stops isBlank u) :
    (∃ a t, Attribute.SpelledBy a t ∧ t <+: w ++ u) ↔
      w ≠ [] ∧ ∃ a b, Attribute.BareSpelledBy a b ∧ b <+: u := by
  constructor
  · rintro ⟨a, t, ht, m, heq⟩
    obtain ⟨w', b, hne, hw', hb, rfl⟩ := Attribute.spelledBy_iff.mp ht
    rw [List.append_assoc] at heq
    -- Neither `b` nor `u` starts with a blank, so both cuts are made behind the longest run.
    obtain ⟨rfl, rfl⟩ := Text.run_unique hw' (stops_isBlank_of_bareSpelledBy hb m) hw hu heq
    exact ⟨hne, a, b, hb, List.prefix_append b m⟩
  · rintro ⟨hne, a, b, hb, hprefix⟩
    exact ⟨a, w ++ b, Attribute.spelledBy_iff.mpr ⟨w, b, hne, hw, hb, rfl⟩,
      (List.prefix_append_right_inj w).mpr hprefix⟩

/-! ### Where a list ends -/

/-- **Blanks behind a list of attributes.** All of them stay if no attribute comes behind them, and
only then. Where there are no blanks, what follows stays even if it looks like an attribute. -/
theorem reads_attributes_stays_iff (ht : Text.Joined Attribute.SpelledBy as t) (hw : IsBlanks w)
    (hu : Text.Stops isBlank u) :
    attributes.Reads (t ++ w ++ u) as (w ++ u) ↔
      w = [] ∨ ¬ ∃ a b, Attribute.BareSpelledBy a b ∧ b <+: u := by
  have hlist : ∃ t', Text.Joined Attribute.SpelledBy as t' ∧ t ++ w ++ u = t' ++ (w ++ u) :=
    ⟨t, ht, List.append_assoc ..⟩
  rw [reads_attributes, exists_spelledBy_prefix_iff hw hu, not_and_or, not_ne_iff]
  exact and_iff_right hlist

/-- **Attributes are read as the longest list.** On every text they are read, and what is read are
the attributes whose spellings the text is put together from, one after the other, up to a rest that
no attribute starts. Every list of attributes that is spelled at the start of the text is the start
of the list that is read, so this list is the longest. What follows an attribute stays with all its
blanks, unless there are blanks and another attribute comes behind them. -/
theorem attributes_take_longest_list :
    (∀ s, ∃ as r, (attributes.parse s).outcome = .ok ⟨as, r⟩) ∧
    (∀ s as r, (attributes.parse s).outcome = .ok ⟨as, r⟩ ↔
      (∃ t, Text.Joined Attribute.SpelledBy as t ∧ s = t ++ r) ∧
        ¬ ∃ a t, Attribute.SpelledBy a t ∧ t <+: r) ∧
    ∀ as t, Text.Joined Attribute.SpelledBy as t →
      (∀ u, ∃ bs r, (attributes.parse (t ++ u)).outcome = .ok ⟨as ++ bs, r⟩ ∧ r <:+ u) ∧
      ∀ w u, IsBlanks w → Text.Stops isBlank u →
        ((attributes.parse (t ++ w ++ u)).outcome = .ok ⟨as, w ++ u⟩ ↔
          w = [] ∨ ¬ ∃ a b, Attribute.BareSpelledBy a b ∧ b <+: u) := by
  refine ⟨fun s => ⟨_, _, rfl⟩, fun s as r => reads_attributes, fun as t ht => ⟨fun u => ?_, ?_⟩⟩
  · exact exact_attribute.exists_reads_many_joined_append (fun _ _ h => h.ne_nil) ht u
  · exact fun w u hw hu => reads_attributes_stays_iff ht hw hu

/-- The blank before a name that no equals sign follows stays, and so does an attribute that no
blank comes before. -/
theorem attributes_take_longest_list_malformed :
    (attributes.parse " a=\"/>\"\n=\"\" b =\"2\"".toList).outcome =
      .ok ⟨[⟨['a'], ['/', '>']⟩, ⟨[], []⟩], " b =\"2\"".toList⟩ ∧
    (attributes.parse " a=\"/>\"b=\"2\"".toList).outcome =
      .ok ⟨[⟨['a'], ['/', '>']⟩], "b=\"2\"".toList⟩ := by
  have hblank : IsBlanks [' '] := by simp [IsBlanks, isBlank]
  have hfirst : Attribute.SpelledBy ⟨['a'], ['/', '>']⟩ " a=\"/>\"".toList :=
    ⟨[' '], by decide, hblank, by simp [IsNameRun, isNameChar], by decide, rfl⟩
  have hsecond : Attribute.SpelledBy ⟨[], []⟩ "\n=\"\"".toList :=
    ⟨['\n'], by decide, by simp [IsBlanks, isBlank], List.forall_mem_nil _, by decide, rfl⟩
  have hlist : Text.Joined Attribute.SpelledBy [⟨['a'], ['/', '>']⟩] " a=\"/>\"".toList :=
    ⟨_, [], hfirst, rfl, rfl⟩
  have hlonger : Text.Joined Attribute.SpelledBy [⟨['a'], ['/', '>']⟩, ⟨[], []⟩]
      " a=\"/>\"\n=\"\"".toList :=
    ⟨_, _, hfirst, ⟨_, [], hsecond, rfl, rfl⟩, rfl⟩
  have hrefuses : nameValue.Refuses "b =\"2\"".toList := ⟨_, rfl⟩
  have hmalformed := exact_nameValue.refuses_iff.mp hrefuses
  constructor
  · have hstays := (attributes_take_longest_list.2.2 _ _ hlonger).2 [' '] "b =\"2\"".toList
    exact (hstays hblank (Text.stops_cons.mpr rfl)).mpr (.inr hmalformed)
  · have hstays := (attributes_take_longest_list.2.2 _ _ hlist).2 [] "b=\"2\"".toList
    exact (hstays (List.forall_mem_nil _) (Text.stops_cons.mpr rfl)).mpr (.inl rfl)

end Grammar

end TagTree
