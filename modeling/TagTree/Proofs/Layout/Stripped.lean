import TagTree.Proofs.Grammar.Readable
import TagTree.Proofs.Layout.Tags

/-!
# Blanks between tags

A style that breaks lines differs from one that does not by the blanks that stand between tags. To
say so of the texts alone, without the elements that they were written for, a text is read from left
to right with an eye on quotes: a tag reaches from `<` to the next `>` that is not part of a value,
and a value reaches from one double quote of a tag to the next. So every character has a place, and
a blank may be taken away where it stands between tags and must stay where it stands in a value,
whatever the value looks like.

The places are in step with what was written. No name and no value of a written element has a
quote, and no name has an angle bracket; therefore reading a tag from between tags ends between tags
again, just behind its last character, and the values that are read are those of the element.

## Main definitions

* `Place`, `Text.placed`: the characters of a text with their places.
* `Text.stripped`: a text without the blanks between tags.
* `Text.InTags`: a part of a text that lies in tags.

## Main results

* `Text.stripped_stripped`: what has been stripped stays as it is.
* `Tag.inTags_text`: a tag is read as a tag.
* `Element.toMarkup_oneLine_of_pretty`: what is written on one line is what is written on many,
  stripped.
* `Element.toMarkup_oneLine_stripped`: the two texts, and where their characters stand.
-/

namespace TagTree

/-! ### Places -/

/-- Where a character of a text stands. -/
inductive Place where
  /-- Outside tags. -/
  | between
  /-- In a tag, and in none of its values. The quotes around a value belong to the tag. -/
  | tag
  /-- In a value. -/
  | value
deriving DecidableEq, Repr

namespace Place

/-- The place behind a character. -/
def next : Place → Char → Place
  | .between, c => if c = '<' then .tag else .between
  | .tag, c => if c = '"' then .value else if c = '>' then .between else .tag
  | .value, c => if c = '"' then .tag else .value

/-- The place of a character behind the place `p`. A character that leads from one place to another
is part of a tag. -/
def standing (p : Place) (c : Char) : Place :=
  if p.next c = p then p else .tag

end Place

namespace Text

/-- The characters of a text with their places, if it begins in the place `p`. -/
def placedFrom : Place → Text → List (Char × Place)
  | _, [] => []
  | p, c :: s => (c, p.standing c) :: placedFrom (p.next c) s

/-- The characters of a text with their places. -/
def placed (t : Text) : List (Char × Place) :=
  placedFrom .between t

/-- A character is kept unless it is a blank between tags. -/
def keeps (x : Char × Place) : Bool :=
  !(x.2 == .between && isBlank x.1)

/-- What is kept of a text that begins in the place `p`. -/
def strippedFrom (p : Place) (t : Text) : Text :=
  ((placedFrom p t).filter keeps).map Prod.fst

/-- A text without the blanks that stand between tags. -/
def stripped (t : Text) : Text :=
  strippedFrom .between t

/-- What stands in the values of a text that begins in the place `p`. -/
def inValuesFrom (p : Place) (t : Text) : Text :=
  ((placedFrom p t).filter fun x => x.2 = .value).map Prod.fst

/-- What stands in the values of a text. -/
def inValues (t : Text) : Text :=
  inValuesFrom .between t

variable {p q r : Place} {c : Char} {s t v w : Text}

theorem placedFrom_append (p : Place) (s t : Text) :
    placedFrom p (s ++ t) = placedFrom p s ++ placedFrom (s.foldl Place.next p) t := by
  induction s generalizing p with
  | nil => rfl
  | cons c s ih =>
    rw [List.cons_append, placedFrom, ih, List.foldl_cons, placedFrom, List.cons_append]

/-- No character is lost. -/
theorem map_fst_placedFrom (p : Place) (s : Text) : (placedFrom p s).map Prod.fst = s := by
  induction s generalizing p with
  | nil => rfl
  | cons c s ih => rw [placedFrom, List.map_cons, ih]

/-- A text that does not lead out of a place ends there. -/
theorem foldl_next_of_stays (h : ∀ c ∈ s, p.next c = p) : s.foldl Place.next p = p := by
  induction s with
  | nil => rfl
  | cons c s ih =>
    obtain ⟨hc, hs⟩ := List.forall_mem_cons.mp h
    rw [List.foldl_cons, hc, ih hs]

/-- A text that does not lead out of a place stands in it. -/
theorem placedFrom_of_stays (h : ∀ c ∈ s, p.next c = p) :
    placedFrom p s = s.map fun c => (c, p) := by
  induction s with
  | nil => rfl
  | cons c s ih =>
    obtain ⟨hc, hs⟩ := List.forall_mem_cons.mp h
    rw [placedFrom, Place.standing, if_pos hc, hc, ih hs, List.map_cons]

theorem strippedFrom_append (p : Place) (s t : Text) :
    strippedFrom p (s ++ t) = strippedFrom p s ++ strippedFrom (s.foldl Place.next p) t := by
  rw [strippedFrom, placedFrom_append, List.filter_append, List.map_append]
  rfl

theorem inValuesFrom_append (p : Place) (s t : Text) :
    inValuesFrom p (s ++ t) = inValuesFrom p s ++ inValuesFrom (s.foldl Place.next p) t := by
  rw [inValuesFrom, placedFrom_append, List.filter_append, List.map_append]
  rfl

/-! ### Stripping once -/

theorem strippedFrom_cons_of_keeps (h : keeps (c, p.standing c) = true) (s : Text) :
    strippedFrom p (c :: s) = c :: strippedFrom (p.next c) s := by
  rw [strippedFrom, placedFrom, List.filter_cons_of_pos h, List.map_cons]
  rfl

/-- What is not kept does not lead to another place. -/
theorem next_eq_of_not_keeps (h : ¬ keeps (c, p.standing c) = true) : p.next c = p := by
  by_contra hne
  refine h ?_
  rw [Place.standing, if_neg hne]
  rfl

theorem strippedFrom_cons_of_not_keeps (h : ¬ keeps (c, p.standing c) = true) (s : Text) :
    strippedFrom p (c :: s) = strippedFrom p s := by
  rw [strippedFrom, placedFrom, List.filter_cons_of_neg h, next_eq_of_not_keeps h]
  rfl

/-- Stripping keeps the places of what it keeps, so nothing is left to strip. -/
theorem strippedFrom_strippedFrom (p : Place) (t : Text) :
    strippedFrom p (strippedFrom p t) = strippedFrom p t := by
  induction t generalizing p with
  | nil => rfl
  | cons c t ih =>
    -- What is taken away does not change the place, so the rest begins where it did.
    by_cases h : keeps (c, p.standing c) = true
    · rw [strippedFrom_cons_of_keeps h, strippedFrom_cons_of_keeps h, ih]
    · rw [strippedFrom_cons_of_not_keeps h, ih]

/-- **Stripping once is enough**, for any text. -/
theorem stripped_stripped (t : Text) : t.stripped.stripped = t.stripped :=
  strippedFrom_strippedFrom .between t

/-- Stripping takes characters away and leaves the others in order. -/
theorem stripped_sublist (t : Text) : t.stripped.Sublist t := by
  have hkept : (((placedFrom .between t).filter keeps).map Prod.fst).Sublist
      ((placedFrom .between t).map Prod.fst) := List.filter_sublist.map Prod.fst
  rwa [map_fst_placedFrom] at hkept

theorem utf8Size_stripped_le (t : Text) : t.stripped.utf8Size ≤ t.utf8Size :=
  utf8Size_le_of_sublist t.stripped_sublist

/-- Blanks do not end what is between tags. -/
theorem next_of_isBlank (h : isBlank c = true) : Place.between.next c = .between := by
  have hangle : c ≠ '<' := by
    rintro rfl
    cases h
  rw [Place.next, if_neg hangle]

/-- Blanks between tags are stripped, and what follows them is still between tags. -/
theorem strippedFrom_append_of_isBlanks (hw : IsBlanks w) (s : Text) :
    strippedFrom .between (w ++ s) = strippedFrom .between s := by
  have hstays : ∀ c ∈ w, Place.between.next c = .between := fun c hc => next_of_isBlank (hw c hc)
  have hnone : strippedFrom .between w = [] := by
    rw [strippedFrom, placedFrom_of_stays hstays, List.map_eq_nil_iff, List.filter_eq_nil_iff]
    intro x hx
    obtain ⟨c, hc, rfl⟩ := List.mem_map.mp hx
    rw [keeps, hw c hc]
    exact Bool.false_ne_true
  rw [strippedFrom_append, hnone, foldl_next_of_stays hstays, List.nil_append]

/-! ### Texts in tags -/

/-- The text `s` leads from the place `p` to the place `q`, and all of it lies in tags: newlines
stand in values only, and `v` is what stands in values. -/
structure InTags (p : Place) (s : Text) (q : Place) (v : Text) : Prop where
  next : s.foldl Place.next p = q
  inside : ∀ x ∈ placedFrom p s, x.2 ≠ .between ∧ (x.1 = '\n' → x.2 = .value)
  values : inValuesFrom p s = v

namespace InTags

theorem nil (p : Place) : InTags p [] p [] :=
  ⟨rfl, nofun, rfl⟩

theorem append (hs : InTags p s q v) (ht : InTags q t r w) : InTags p (s ++ t) r (v ++ w) := by
  refine ⟨?_, fun x hx => ?_, ?_⟩
  · rw [List.foldl_append, hs.next, ht.next]
  · rw [placedFrom_append, hs.next, List.mem_append] at hx
    exact hx.elim (hs.inside x) (ht.inside x)
  · rw [inValuesFrom_append, hs.next, hs.values, ht.values]

/-- A text in tags has nothing to strip. -/
theorem strippedFrom_eq (h : InTags p s q v) : strippedFrom p s = s := by
  have hkeeps : (placedFrom p s).filter keeps = placedFrom p s := by
    refine List.filter_eq_self.mpr fun x hx => ?_
    rw [keeps, beq_eq_false_iff_ne.mpr (h.inside x hx).1]
    rfl
  rw [strippedFrom, hkeeps, map_fst_placedFrom]

/-- A character of a tag, or one with which a value begins or ends. -/
theorem of_standing (h : p.standing c = .tag) (hc : c ≠ '\n') : InTags p [c] (p.next c) [] := by
  refine ⟨rfl, fun x hx => ?_, ?_⟩
  · obtain rfl : x = (c, .tag) := by rw [← h]; exact List.mem_singleton.mp hx
    exact ⟨nofun, fun heq => absurd heq hc⟩
  · rw [inValuesFrom, placedFrom, placedFrom, h]
    rfl

/-- Characters of a tag that neither end it nor begin a value. -/
theorem of_forall (hs : ∀ c ∈ s, c ≠ '"' ∧ c ≠ '>' ∧ c ≠ '\n') : InTags .tag s .tag [] := by
  have hstays : ∀ c ∈ s, Place.tag.next c = .tag := by
    intro c hc
    rw [Place.next, if_neg (hs c hc).1, if_neg (hs c hc).2.1]
  refine ⟨foldl_next_of_stays hstays, fun x hx => ?_, ?_⟩
  · rw [placedFrom_of_stays hstays] at hx
    obtain ⟨c, hc, rfl⟩ := List.mem_map.mp hx
    exact ⟨nofun, fun hline => absurd hline (hs c hc).2.2⟩
  · rw [inValuesFrom, placedFrom_of_stays hstays, List.filter_map]
    simp [Function.comp_def]

/-- Whatever has no quotes can be a value. -/
theorem of_value (hv : '"' ∉ v) : InTags .value v .value v := by
  have hstays : ∀ c ∈ v, Place.value.next c = .value := by
    intro c hc
    rw [Place.next, if_neg (ne_of_mem_of_not_mem hc hv)]
  refine ⟨foldl_next_of_stays hstays, fun x hx => ?_, ?_⟩
  · rw [placedFrom_of_stays hstays] at hx
    obtain ⟨c, -, rfl⟩ := List.mem_map.mp hx
    exact ⟨nofun, fun _ => rfl⟩
  · rw [inValuesFrom, placedFrom_of_stays hstays, List.filter_map]
    simp [Function.comp_def]

end InTags

end Text

/-! ### Written tags -/

open Text (InTags)

theorem IsNameRun.inTags {n : Text} (h : IsNameRun n) : InTags .tag n .tag [] := by
  refine .of_forall fun c hc => ⟨?_, ?_, ?_⟩
  all_goals
    rintro rfl
    exact absurd (h _ hc) (by decide)

/-- An attribute stands in its tag with its value, and nothing ends the tag. -/
theorem Attribute.inTags_written {a : Attribute} (hname : IsNameRun a.name)
    (hvalue : '"' ∉ a.value) : InTags .tag a.written .tag a.value := by
  have hspace : InTags .tag [' '] .tag [] := .of_standing rfl (by decide)
  have hequals : InTags .tag ['='] .tag [] := .of_standing rfl (by decide)
  have hopening : InTags .tag ['"'] .value [] := .of_standing rfl (by decide)
  have hclosing : InTags .value ['"'] .tag [] := .of_standing rfl (by decide)
  have hall := (((((hspace.append hname.inTags).append hequals).append hopening).append
    (.of_value hvalue)).append hclosing)
  simpa only [Attribute.written, List.append_assoc, List.nil_append, List.append_nil,
    List.cons_append] using hall

theorem inTags_attributes {as : List Attribute}
    (h : ∀ a ∈ as, isName a.name = true ∧ '"' ∉ a.value) :
    InTags .tag (as.flatMap Attribute.written) .tag (as.flatMap Attribute.value) := by
  induction as with
  | nil => exact .nil .tag
  | cons a as ih =>
    obtain ⟨⟨hname, hvalue⟩, has⟩ := List.forall_mem_cons.mp h
    exact (Attribute.inTags_written (Element.isName_iff.mp hname).2 hvalue).append (ih has)

/-- The values of the attributes of an element. -/
def Element.values (e : Element) : Text :=
  e.attributes.flatMap Attribute.value

theorem Element.inTags_head {e : Element} (he : e.ownDefects = []) :
    InTags .between e.head .tag e.values := by
  obtain ⟨hname, hattributes⟩ := Element.ownDefects_eq_nil_iff.mp he
  have hangle : InTags .between ['<'] .tag [] := .of_standing rfl (by decide)
  exact (hangle.append (Element.isName_iff.mp hname).2.inTags).append
    (inTags_attributes hattributes)

namespace Tag

/-- The values that stand in a tag. -/
def values (tag : Tag) : Text :=
  match tag.kind with
  | .opening | .single => tag.element.values
  | .closing => []

variable {tag : Tag} {tags : List Tag}

/-- **A tag is read as a tag.** -/
theorem inTags_text (h : tag.element.ownDefects = []) :
    InTags .between tag.text .between tag.values := by
  obtain ⟨kind, e, depth⟩ := tag
  have hhead : InTags .between e.head .tag e.values := Element.inTags_head h
  have hname : IsNameRun e.name := (Element.isName_iff.mp (Element.ownDefects_eq_nil_iff.mp h).1).2
  have hopening : InTags .between ['<'] .tag [] := .of_standing rfl (by decide)
  have hslash : InTags .tag ['/'] .tag [] := .of_standing rfl (by decide)
  have hclosing : InTags .tag ['>'] .between [] := .of_standing rfl (by decide)
  cases kind with
  | opening => simpa only [text, values, List.append_nil] using hhead.append hclosing
  | single =>
    simpa only [text, values, List.append_nil, List.cons_append, List.nil_append] using
      hhead.append (hslash.append hclosing)
  | closing => exact ((hopening.append hslash).append hname.inTags).append hclosing

theorem inTags_flatMap_text (h : ∀ tag ∈ tags, tag.element.ownDefects = []) :
    InTags .between (tags.flatMap text) .between (tags.flatMap values) := by
  induction tags with
  | nil => exact .nil .between
  | cons tag tags ih =>
    obtain ⟨htag, htags⟩ := List.forall_mem_cons.mp h
    exact (inTags_text htag).append (ih htags)

/-- What stands before a tag is blank. -/
theorem isBlanks_gap (style : Style) (level : Nat) (tag : Tag) :
    IsBlanks (tag.gap style level) := by
  rw [gap]
  split
  · exact isBlanks_lineBreak style _
  · exact List.forall_mem_nil _

/-- A style that does not break lines writes nothing between tags. -/
theorem written_of_oneLine {style : Style} (h : style.pretty = false) (level : Nat) :
    written style level = text := by
  funext tag
  rw [written, gap_eq, h, if_neg (fun hbroken => Bool.false_ne_true hbroken.2), List.nil_append]

/-- Stripping takes away what stands between tags. -/
theorem stripped_flatMap_written (style : Style) (level : Nat)
    (h : ∀ tag ∈ tags, tag.element.ownDefects = []) :
    Text.stripped (tags.flatMap (written style level)) = tags.flatMap text := by
  induction tags with
  | nil => rfl
  | cons tag tags ih =>
    obtain ⟨htag, htags⟩ := List.forall_mem_cons.mp h
    have htext := inTags_text htag
    rw [List.flatMap_cons, List.flatMap_cons, written, List.append_assoc, Text.stripped,
      Text.strippedFrom_append_of_isBlanks (isBlanks_gap style level tag), Text.strippedFrom_append,
      htext.strippedFrom_eq, htext.next]
    exact congrArg (tag.text ++ ·) (ih htags)

end Tag

/-! ### Written elements -/

namespace Element

variable {e : Element}

/-- The values that stand in tags are those of the elements, in document order. -/
theorem values_tagsAt (selfClose : Bool) (depth : Nat) (e : Element) :
    (e.tagsAt selfClose depth).flatMap Tag.values = e.subtrees.flatMap values := by
  induction e using Element.induction generalizing depth with
  | node name attributes children ih =>
    rcases single_or_pair selfClose ⟨name, attributes, children⟩ with ⟨hnone, rfl⟩ | hpair
    · obtain rfl : children = [] := hnone
      rfl
    · have hchildren : (children.flatMap (tagsAt selfClose (depth + 1))).flatMap Tag.values =
          (children.flatMap subtrees).flatMap values := by
        rw [List.flatMap_assoc, List.flatMap_assoc,
          List.flatMap_congr fun c hc => ih c hc (depth + 1)]
      have hclosing : [(⟨.closing, ⟨name, attributes, children⟩, depth⟩ : Tag)].flatMap Tag.values =
          [] := rfl
      rw [tagsAt_of_pair hpair, subtrees_eq, List.flatMap_append, hclosing, List.append_nil,
        List.flatMap_cons, List.flatMap_cons, hchildren]
      rfl

/-- In an element without defects no tag has any. -/
theorem ownDefects_of_mem_tags (he : e.defects = []) (selfClose : Bool) :
    ∀ tag ∈ e.tags selfClose, tag.element.ownDefects = [] := by
  rw [defects_eq_flatMap, List.flatMap_eq_nil_iff] at he
  exact fun tag htag => he _ (element_mem_subtrees htag)

/-- On one line an element is its tags, one directly behind the other. -/
theorem layout_of_oneLine {style : Style} (h : style.pretty = false) (level : Nat) (e : Element) :
    e.layout style level = (e.tags style.selfClose).flatMap Tag.text := by
  rw [layout_eq_flatMap_tags, Tag.written_of_oneLine h]

/-- What is written on one line is what is written on many, stripped of the blanks between tags. If
there is room for many lines, there is room for the one. -/
theorem toMarkup_oneLine_of_pretty {n : UInt64} {selfClose : Bool} {t : Text}
    (h : e.toMarkup ⟨n, true, selfClose⟩ = .ok t) (m : UInt64) :
    e.toMarkup ⟨m, false, selfClose⟩ = .ok t.stripped := by
  obtain ⟨he, ht, hle⟩ := toMarkup_eq_ok_iff.mp h
  have hstripped : t.stripped = (e.tags selfClose).flatMap Tag.text := by
    rw [ht, layout_eq_flatMap_tags]
    exact Tag.stripped_flatMap_written _ 0 (ownDefects_of_mem_tags he selfClose)
  refine toMarkup_eq_ok_iff.mpr ⟨he, ?_, Nat.le_trans t.utf8Size_stripped_le hle⟩
  rw [hstripped, layout_of_oneLine rfl]

/-- What is written on one line lies in tags, with the values of the element. -/
theorem inTags_layout_of_oneLine (he : e.defects = []) {style : Style} (h : style.pretty = false) :
    InTags .between (e.layout style 0) .between (e.subtrees.flatMap values) := by
  rw [layout_of_oneLine h, ← values_tagsAt style.selfClose 0 e]
  exact Tag.inTags_flatMap_text (ownDefects_of_mem_tags he style.selfClose)

/-- **Pretty and compact text differ in blanks between tags.** If the pretty text of an element is
stripped of the blanks between its tags, it is the text on one line, for any two indentations, and
there is nothing left to strip. The text on one line has no character between tags and no newline
but in values, and what stands in its values are the values of all attributes in document order. -/
theorem toMarkup_oneLine_stripped :
    (∀ (e : Element) (n m : UInt64) (selfClose : Bool) (t : Text),
      e.toMarkup ⟨n, true, selfClose⟩ = .ok t →
        e.toMarkup ⟨m, false, selfClose⟩ = .ok t.stripped ∧ t.stripped.stripped = t.stripped) ∧
    ∀ (e : Element) (style : Style) (t : Text), style.pretty = false → e.toMarkup style = .ok t →
      (∀ x ∈ t.placed, x.2 ≠ .between ∧ (x.1 = '\n' → x.2 = .value)) ∧
        t.inValues = e.subtrees.flatMap fun x => x.attributes.flatMap Attribute.value := by
  constructor
  · intro e n m selfClose t ht
    exact ⟨toMarkup_oneLine_of_pretty ht m, t.stripped_stripped⟩
  · intro e style t hstyle ht
    obtain ⟨he, rfl, -⟩ := toMarkup_eq_ok_iff.mp ht
    have hin := inTags_layout_of_oneLine he hstyle
    exact ⟨hin.inside, hin.values⟩

/-- A value with what looks like tags, blanks and lines in it. -/
theorem toMarkup_oneLine_stripped_value :
    toMarkup ⟨['a'], [⟨['k'], "> \n <".toList⟩], [⟨['b'], [], []⟩]⟩ ⟨2, true, true⟩ =
      .ok "<a k=\"> \n <\">\n  <b/>\n</a>".toList ∧
    toMarkup ⟨['a'], [⟨['k'], "> \n <".toList⟩], [⟨['b'], [], []⟩]⟩ ⟨7, false, true⟩ =
      .ok "<a k=\"> \n <\"><b/></a>".toList ∧
    Text.stripped "<a k=\"> \n <\">\n  <b/>\n</a>".toList = "<a k=\"> \n <\"><b/></a>".toList ∧
    Text.inValues "<a k=\"> \n <\"><b/></a>".toList = "> \n <".toList := by
  have hpretty : toMarkup ⟨['a'], [⟨['k'], "> \n <".toList⟩], [⟨['b'], [], []⟩]⟩ ⟨2, true, true⟩ =
      .ok "<a k=\"> \n <\">\n  <b/>\n</a>".toList := rfl
  have hstripped : Text.stripped "<a k=\"> \n <\">\n  <b/>\n</a>".toList =
      "<a k=\"> \n <\"><b/></a>".toList := by decide
  have hline := (toMarkup_oneLine_stripped.1 _ 2 7 true _ hpretty).1
  rw [hstripped] at hline
  exact ⟨hpretty, hline, hstripped, (toMarkup_oneLine_stripped.2 _ _ _ rfl hline).2⟩

end Element

end TagTree
