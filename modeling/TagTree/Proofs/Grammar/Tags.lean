import TagTree.Grammar
import TagTree.Proofs.Grammar.Spelling

/-!
# What the parsers of blanks, attributes and tags read

The rules of the grammar below elements, each as the relation between a text, a value and the text
left over. Blanks and names are read to the end of their run; an attribute and a tag are read from
the texts that start with a spelling of them, whatever follows, because the last character of the
spelling tells where it ends.

## Main results

* `Grammar.reads_blanks`, `Grammar.reads_discard_blanks`: blanks are read as far as they go.
* `Grammar.exact_attribute`: an attribute is read from its spellings.
* `Grammar.reads_attributes`: attributes are read as long as a spelling of one follows.
* `Grammar.reads_emptyTag`, `Grammar.reads_startTag`, `Grammar.reads_endTag`: tags.
-/

namespace TagTree.Grammar

open TagTree.Parser

variable {s r m : Text}

/-! ### Blanks -/

theorem reads_blanks {w : Text} :
    blanks.Reads s w r ↔ s = w ++ r ∧ IsBlanks w ∧ Text.Stops isBlank r :=
  reads_many_filter_anyChar

theorem reads_blanks1 {w : Text} :
    blanks1.Reads s w r ↔ w ≠ [] ∧ s = w ++ r ∧ IsBlanks w ∧ Text.Stops isBlank r :=
  reads_many1_filter_anyChar

/-- Blanks that nobody asks for are skipped. -/
theorem reads_discard_blanks {u : Unit} :
    (discard blanks).Reads s u r ↔ r = s.dropWhile isBlank := by
  simp only [reads_discard, reads_blanks, IsBlanks, ← Text.takeWhile_dropWhile_eq_iff,
    exists_eq_left']
  exact eq_comm

/-! ### Attributes -/

/-- A quoted value ends at the next quote. -/
theorem reads_quoted {v : Text} : quoted.Reads s v r ↔ '"' ∉ v ∧ s = '"' :: v ++ '"' :: r := by
  rw [quoted, reads_between]
  simp only [reads_literal, reads_many_filter_anyChar]
  constructor
  · rintro ⟨_, _, rfl, ⟨rfl, hv, -⟩, rfl⟩
    exact ⟨fun hmem => by simpa using hv _ hmem, rfl⟩
  · rintro ⟨hv, rfl⟩
    refine ⟨v ++ '"' :: r, '"' :: r, rfl, ⟨rfl, fun c hc => ?_, Text.stops_cons.mpr rfl⟩, rfl⟩
    rw [bne_iff_ne]
    exact fun heq => hv (heq ▸ hc)

theorem reads_nameValue {a : Attribute} :
    nameValue.Reads s a r ↔ IsNameRun a.name ∧ '"' ∉ a.value ∧
      s = a.name ++ ['=', '"'] ++ a.value ++ '"' :: r := by
  rw [nameValue, reads_map]
  constructor
  · rintro ⟨⟨n, v⟩, hread, rfl⟩
    obtain ⟨m, hname, hright⟩ := reads_both.mp hread
    obtain ⟨_, m', hequals, hvalue⟩ := reads_keepRight.mp hright
    obtain ⟨rfl, hn, -⟩ := reads_nameRun.mp hname
    obtain ⟨hv, rfl⟩ := reads_quoted.mp hvalue
    obtain rfl := reads_literal.mp hequals
    exact ⟨hn, hv, by simp only [List.append_assoc, List.cons_append, List.nil_append]⟩
  · rintro ⟨hn, hv, rfl⟩
    have hname : nameRun.Reads (a.name ++ ['=', '"'] ++ a.value ++ '"' :: r) a.name
        ('=' :: '"' :: a.value ++ '"' :: r) :=
      reads_nameRun.mpr ⟨by simp only [List.append_assoc, List.cons_append, List.nil_append], hn,
        Text.stops_cons.mpr rfl⟩
    have hvalue : quoted.Reads ('"' :: a.value ++ '"' :: r) a.value r :=
      reads_quoted.mpr ⟨hv, rfl⟩
    refine ⟨(a.name, a.value), reads_both.mpr ⟨_, hname, ?_⟩, rfl⟩
    exact reads_keepRight.mpr ⟨(), _, reads_literal.mpr rfl, hvalue⟩

/-- The start of an attribute's value cannot be a blank or belong to its name. -/
theorem stops_isBlank_nameValue {n u : Text} (hn : IsNameRun n) :
    Text.Stops isBlank (n ++ '=' :: u) := by
  cases n with
  | nil => exact Text.stops_cons.mpr rfl
  | cons c n =>
    refine Text.stops_cons.mpr (Bool.eq_false_iff.mpr fun hc => ?_)
    simpa [isNameChar_of_isBlank hc] using hn c List.mem_cons_self

/-- **Attributes are read from their spellings.** Nothing that follows an attribute changes what
is read. -/
theorem exact_attribute : (keepRight blanks1 nameValue).Exact Attribute.SpelledBy := by
  intro s a r
  simp only [reads_keepRight, reads_blanks1, reads_nameValue]
  constructor
  · rintro ⟨w, _, ⟨hne, rfl, hw, -⟩, hn, hv, rfl⟩
    exact ⟨_, ⟨w, hne, hw, hn, hv, rfl⟩,
      by simp only [List.append_assoc, List.cons_append, List.nil_append]⟩
  · rintro ⟨_, ⟨w, hne, hw, hn, hv, rfl⟩, rfl⟩
    refine ⟨w, a.name ++ ['=', '"'] ++ a.value ++ '"' :: r, ⟨hne, ?_, hw, ?_⟩, hn, hv, rfl⟩
    · simp only [List.append_assoc, List.cons_append, List.nil_append]
    · simp only [List.append_assoc, List.cons_append]
      exact stops_isBlank_nameValue hn

/-- Attributes are read as long as a spelling of one follows. -/
theorem reads_attributes {as : List Attribute} :
    attributes.Reads s as r ↔
      (∃ t, Text.Joined Attribute.SpelledBy as t ∧ s = t ++ r) ∧
        ¬ ∃ a t, Attribute.SpelledBy a t ∧ t <+: r :=
  exact_attribute.reads_many fun _ _ h => h.ne_nil

/-! ### Tags -/

/-- A text that no name and no attribute goes on with. -/
def EndsHead (r : Text) : Prop :=
  Text.Stops isNameChar r ∧ Text.Stops isBlank r

theorem endsHead_slash : EndsHead ('/' :: r) :=
  ⟨Text.stops_cons.mpr rfl, Text.stops_cons.mpr rfl⟩

theorem endsHead_angle : EndsHead ('>' :: r) :=
  ⟨Text.stops_cons.mpr rfl, Text.stops_cons.mpr rfl⟩

/-- Attributes do not go on with the name before them. -/
theorem stops_isNameChar_joined {as : List Attribute} {t : Text}
    (h : Text.Joined Attribute.SpelledBy as t) (hr : Text.Stops isNameChar r) :
    Text.Stops isNameChar (t ++ r) := by
  cases as with
  | nil =>
    obtain rfl : t = [] := h
    exact hr
  | cons a as =>
    obtain ⟨u, v, hu, -, rfl⟩ := h
    obtain ⟨c, u, rfl, hc⟩ := hu.exists_cons
    exact Text.stops_cons.mpr (isNameChar_of_isBlank hc)

/-- The head of a tag is read from its spellings, as far as no name and no attribute goes on. -/
theorem reads_tagHead {n : Text} {as : List Attribute} (hr : EndsHead r) :
    tagHead.Reads s (n, as) r ↔ ∃ t, Element.HeadSpelledBy n as t ∧ s = t ++ r := by
  rw [tagHead, reads_keepRight]
  simp only [reads_literal, reads_both, reads_nameRun, reads_attributes]
  constructor
  · rintro ⟨_, _, rfl, _, ⟨rfl, hn, -⟩, ⟨t, ht, rfl⟩, -⟩
    exact ⟨'<' :: n ++ t, ⟨hn, t, ht, rfl⟩,
      by simp only [List.append_assoc, List.cons_append, List.nil_append]⟩
  · rintro ⟨_, ⟨hn, t, ht, rfl⟩, rfl⟩
    have hopening : '<' :: n ++ t ++ r = ['<'] ++ (n ++ (t ++ r)) := by
      simp only [List.append_assoc, List.cons_append, List.nil_append]
    have hend : ¬ ∃ a t, Attribute.SpelledBy a t ∧ t <+: r := by
      rintro ⟨a, t, ht, u, rfl⟩
      obtain ⟨c, t, rfl, hc⟩ := ht.exists_cons
      exact absurd (Text.stops_cons.mp hr.2) (by simp [hc])
    exact ⟨(), _, hopening, _, ⟨rfl, hn, stops_isNameChar_joined ht hr.1⟩, ⟨t, ht, rfl⟩, hend⟩

/-- A text has at most one head of a tag at its start. -/
theorem headSpelledBy_unique {n n' t t' r' : Text} {as as' : List Attribute}
    (h : Element.HeadSpelledBy n as t) (h' : Element.HeadSpelledBy n' as' t')
    (heq : t ++ r = t' ++ r') (hr : EndsHead r) (hr' : EndsHead r') :
    n = n' ∧ as = as' ∧ r = r' := by
  have hread : tagHead.Reads (t ++ r) (n, as) r := (reads_tagHead hr).mpr ⟨t, h, rfl⟩
  have hread' : tagHead.Reads (t ++ r) (n', as') r' := (reads_tagHead hr').mpr ⟨t', h', heq⟩
  obtain ⟨hpair, hrest⟩ := hread.unique hread'
  exact ⟨congrArg Prod.fst hpair, congrArg Prod.snd hpair, hrest⟩

/-- A tag that ends in `closing` is read as its head and `closing`. -/
theorem reads_tag_iff_reads_tagHead {closing : Text} {e : Element} :
    (map (fun head => (⟨head.1, head.2, []⟩ : Element)) (keepLeft tagHead (literal closing))).Reads
        s e r ↔
      e.children = [] ∧ tagHead.Reads s (e.name, e.attributes) (closing ++ r) := by
  rw [reads_map]
  simp only [reads_keepLeft, reads_literal]
  constructor
  · rintro ⟨⟨n, as⟩, ⟨_, _, hhead, rfl⟩, rfl⟩
    exact ⟨rfl, hhead⟩
  · obtain ⟨n, as, cs⟩ := e
    rintro ⟨rfl, hhead⟩
    exact ⟨(n, as), ⟨(), closing ++ r, hhead, rfl⟩, rfl⟩

/-- A tag that ends in `closing` is read from a spelling of its head and `closing`. -/
theorem reads_tag {closing : Text} {e : Element} (hclosing : ∀ r, EndsHead (closing ++ r)) :
    (map (fun head => (⟨head.1, head.2, []⟩ : Element)) (keepLeft tagHead (literal closing))).Reads
        s e r ↔
      e.children = [] ∧ ∃ t, Element.HeadSpelledBy e.name e.attributes t ∧
        s = t ++ closing ++ r := by
  rw [reads_tag_iff_reads_tagHead, reads_tagHead (hclosing r)]
  simp only [List.append_assoc]

theorem reads_emptyTag {e : Element} :
    emptyTag.Reads s e r ↔
      e.children = [] ∧ ∃ t, Element.HeadSpelledBy e.name e.attributes t ∧
        s = t ++ ['/', '>'] ++ r :=
  reads_tag fun _ => endsHead_slash

theorem reads_startTag {e : Element} :
    startTag.Reads s e r ↔
      e.children = [] ∧ ∃ t, Element.HeadSpelledBy e.name e.attributes t ∧ s = t ++ ['>'] ++ r :=
  reads_tag fun _ => endsHead_angle

theorem reads_endTag {n found : Text} :
    (endTag n).Reads s found r ↔
      found = n ∧ IsNameRun n ∧ s = ['<', '/'] ++ n ++ ['>'] ++ r := by
  rw [endTag, reads_filter]
  simp only [reads_keepRight, reads_keepLeft, reads_literal, reads_nameRun, beq_iff_eq]
  constructor
  · rintro ⟨⟨_, _, rfl, _, _, ⟨rfl, hn, -⟩, rfl⟩, rfl⟩
    exact ⟨rfl, hn, by simp only [List.append_assoc]⟩
  · rintro ⟨rfl, hn, rfl⟩
    have hopening : ['<', '/'] ++ found ++ ['>'] ++ r = ['<', '/'] ++ (found ++ ['>'] ++ r) := by
      simp only [List.append_assoc]
    have hname : found ++ ['>'] ++ r = found ++ (['>'] ++ r) := List.append_assoc ..
    exact ⟨⟨(), _, hopening, (), ['>'] ++ r, ⟨hname, hn, Text.stops_cons.mpr rfl⟩, rfl⟩, rfl⟩

end TagTree.Grammar
