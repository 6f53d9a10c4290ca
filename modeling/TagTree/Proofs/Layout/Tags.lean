import TagTree.Proofs.Element.Subtrees
import TagTree.Proofs.Layout.Markup

/-!
# Indentation is depth

A written element is a sequence of tags, and what stands between them are ends of lines with the
indentation of the next line. Where lines end can be told from each tag alone: a tag begins a line
if it is the start of an element below the root, or if it ends an element that has children. Its
indentation is the level on which the root was written and the depth of its element below the root.

A pen knows nothing about depths. It has one level, which goes up before the children of an element
and down behind them, so the tags agree with the pen because every element is left on the level on
which it was entered. The level is a word, and a pen may stand on any level to begin with. On the
highest levels it wraps around, and so does the number of spaces; elsewhere there is room for the
levels of the element, and if there is room for its text too, every number is what it should be.

## Main definitions

* `Tag`, `Element.tags`: the tags of an element in document order, each with its depth.
* `Tag.beginsLine`, `Tag.gap`: the tags that begin lines, and what stands before a tag.

## Main results

* `Element.layout_eq_flatMap_tags`: the text of an element, tag by tag.
* `Pen.put_indents_by_depth`: what a pen writes, and that it is never taken out too far.
-/

namespace TagTree

/-! ### Tags -/

/-- What a tag is to its element. -/
inductive TagKind where
  /-- The tag before the children. -/
  | opening
  /-- The only tag of an element without children. -/
  | single
  /-- The tag behind the children. -/
  | closing
deriving DecidableEq, Repr

/-- A tag of the element that lies `depth` levels below the root. -/
structure Tag where
  kind : TagKind
  element : Element
  depth : Nat
deriving Repr

/-- What opening tags and single tags share: the name and the attributes. -/
def Element.head (e : Element) : Text :=
  '<' :: e.name ++ e.attributes.flatMap Attribute.written

namespace Tag

/-- The spelling of a tag. -/
def text (tag : Tag) : Text :=
  match tag.kind with
  | .opening => tag.element.head ++ ['>']
  | .single => tag.element.head ++ ['/', '>']
  | .closing => ['<', '/'] ++ tag.element.name ++ ['>']

/-- The tags that begin a line, where lines are broken: those with which an element below the root
starts, and those that end an element with children. -/
def beginsLine (tag : Tag) : Bool :=
  match tag.kind with
  | .opening | .single => decide (0 < tag.depth)
  | .closing => !tag.element.isChildless

/-- What stands between a tag and the one before it, if the root is written on a level. -/
def gap (style : Style) (level : Nat) (tag : Tag) : Text :=
  if tag.beginsLine then style.lineBreak (level + tag.depth) else []

/-- A tag as it is written, behind the tag before it. -/
def written (style : Style) (level : Nat) (tag : Tag) : Text :=
  tag.gap style level ++ tag.text

variable {style : Style} {level depth : Nat} {e : Element}

theorem beginsLine_start {kind : TagKind} (h : kind = .opening ∨ kind = .single) :
    (⟨kind, e, depth⟩ : Tag).beginsLine = true ↔ 0 < depth := by
  rcases h with rfl | rfl <;> exact decide_eq_true_iff

theorem beginsLine_closing :
    (⟨.closing, e, depth⟩ : Tag).beginsLine = true ↔ ¬ e.children = [] := by
  rw [beginsLine, Element.isChildless, Bool.not_eq_true', List.isEmpty_eq_false_iff]

/-- What stands before a tag, from the style and the depth. -/
theorem gap_eq (style : Style) (level : Nat) (tag : Tag) :
    tag.gap style level =
      if tag.beginsLine ∧ style.pretty then
        '\n' :: List.replicate ((level + tag.depth) * style.indentWidth.toNat) ' '
      else [] := by
  rw [gap, Style.lineBreak, ite_and]

/-- An element starts on a line of its own unless it is the root. -/
theorem written_start {kind : TagKind} (h : kind = .opening ∨ kind = .single) :
    written style level ⟨kind, e, depth⟩ =
      (if 0 < depth then style.lineBreak (level + depth) else []) ++ text ⟨kind, e, depth⟩ := by
  rw [written, gap, if_congr (beginsLine_start h) rfl rfl]

/-- The tag at the end of an element stands on a line of its own unless it follows the tag at the
start. -/
theorem written_closing :
    written style level ⟨.closing, e, depth⟩ =
      (if e.children = [] then [] else style.lineBreak (level + depth)) ++
        text ⟨.closing, e, depth⟩ := by
  rw [written, gap, if_congr beginsLine_closing rfl rfl, ite_not]

end Tag

namespace Element

mutual

/-- The tags of an element at a depth, in document order. Its children are one level deeper. -/
def tagsAt (selfClose : Bool) (depth : Nat) : Element → List Tag
  | ⟨name, attributes, children⟩ =>
    if children.isEmpty && selfClose then [⟨.single, ⟨name, attributes, children⟩, depth⟩]
    else
      ⟨.opening, ⟨name, attributes, children⟩, depth⟩ ::
        tagsAllAt selfClose (depth + 1) children ++
          [⟨.closing, ⟨name, attributes, children⟩, depth⟩]

/-- The tags of elements at a depth, one after the other. -/
def tagsAllAt (selfClose : Bool) (depth : Nat) : List Element → List Tag
  | [] => []
  | c :: cs => tagsAt selfClose depth c ++ tagsAllAt selfClose depth cs

end

/-- The tags of a root element in document order. -/
def tags (selfClose : Bool) (e : Element) : List Tag :=
  e.tagsAt selfClose 0

variable {e : Element} {selfClose : Bool} {depth : Nat}

theorem tagsAllAt_eq_flatMap (selfClose : Bool) (depth : Nat) (es : List Element) :
    tagsAllAt selfClose depth es = es.flatMap (tagsAt selfClose depth) := by
  induction es with
  | nil => rfl
  | cons e es ih => rw [tagsAllAt, ih, List.flatMap_cons]

/-- A childless element has a single tag in a style with such tags. -/
theorem tagsAt_of_single (h : e.children = []) (depth : Nat) :
    e.tagsAt true depth = [⟨.single, e, depth⟩] := by
  obtain ⟨name, attributes, children⟩ := e
  obtain rfl : children = [] := h
  rfl

/-- Any other element has a pair of tags around the tags of its children. -/
theorem tagsAt_of_pair (h : e.children = [] → selfClose = false) (depth : Nat) :
    e.tagsAt selfClose depth = ⟨.opening, e, depth⟩ ::
      e.children.flatMap (tagsAt selfClose (depth + 1)) ++ [⟨.closing, e, depth⟩] := by
  obtain ⟨name, attributes, children⟩ := e
  have hpair : ¬ (children.isEmpty && selfClose) = true := by
    rw [Bool.and_eq_true_iff]
    rintro ⟨hnone, rfl⟩
    exact nomatch h (List.isEmpty_iff.mp hnone)
  rw [tagsAt, if_neg hpair, tagsAllAt_eq_flatMap]

theorem single_or_pair (selfClose : Bool) (e : Element) :
    (e.children = [] ∧ selfClose = true) ∨ (e.children = [] → selfClose = false) := by
  cases selfClose with
  | false => exact .inr fun _ => rfl
  | true =>
    by_cases h : e.children = []
    · exact .inl ⟨h, rfl⟩
    · exact .inr fun hnone => absurd hnone h

/-- The tags of a tree are tags of its elements. -/
theorem element_mem_subtrees {tag : Tag} (h : tag ∈ e.tagsAt selfClose depth) :
    tag.element ∈ e.subtrees := by
  induction e using Element.induction generalizing depth with
  | node name attributes children ih =>
    have hself := self_mem_subtrees ⟨name, attributes, children⟩
    rcases single_or_pair selfClose ⟨name, attributes, children⟩ with ⟨hnone, rfl⟩ | hpair
    · rw [tagsAt_of_single hnone, List.mem_singleton] at h
      rwa [h]
    · rw [tagsAt_of_pair hpair, List.mem_append, List.mem_cons, List.mem_singleton] at h
      rcases h with (rfl | hinside) | rfl
      · exact hself
      · obtain ⟨c, hc, htag⟩ := List.mem_flatMap.mp hinside
        rw [subtrees_eq]
        exact List.mem_cons_of_mem _ (List.mem_flatMap.mpr ⟨c, hc, ih c hc htag⟩)
      · exact hself

/-! ### The text of an element, tag by tag -/

theorem layout_of_single {style : Style} (h : e.children = []) (hclose : style.selfClose = true)
    (level : Nat) : e.layout style level = e.head ++ ['/', '>'] := by
  obtain ⟨name, attributes, children⟩ := e
  obtain rfl : children = [] := h
  rw [layout, hclose]
  rfl

theorem layout_of_pair {style : Style} (h : e.children = [] → style.selfClose = false)
    (level : Nat) :
    e.layout style level = e.head ++ ['>'] ++ layouts style (level + 1) e.children ++
      ((if e.children = [] then [] else style.lineBreak level) ++
        (['<', '/'] ++ e.name ++ ['>'])) := by
  obtain ⟨name, attributes, children⟩ := e
  cases children with
  | nil =>
    rw [layout, h rfl]
    simp [head, layouts]
  | cons c cs =>
    rw [layout]
    simp [head]

/-- Each of several elements is written on a line of its own. -/
theorem layouts_eq_flatMap (style : Style) (level : Nat) (es : List Element) :
    layouts style level es = es.flatMap fun e => style.lineBreak level ++ e.layout style level := by
  induction es with
  | nil => rfl
  | cons e es ih => rw [layouts, ih, List.flatMap_cons]

/-- An element below the root is written on a line of its own, and the root is not. -/
theorem written_tagsAt (style : Style) (level depth : Nat) (e : Element) :
    (e.tagsAt style.selfClose depth).flatMap (Tag.written style level) =
      (if 0 < depth then style.lineBreak (level + depth) else []) ++
        e.layout style (level + depth) := by
  induction e using Element.induction generalizing depth with
  | node name attributes children ih =>
    let e : Element := ⟨name, attributes, children⟩
    rcases single_or_pair style.selfClose e with ⟨hnone, hclose⟩ | hpair
    · have htags : e.tagsAt style.selfClose depth = [⟨.single, e, depth⟩] := by
        rw [hclose, tagsAt_of_single hnone]
      rw [htags, List.flatMap_singleton, Tag.written_start (.inr rfl),
        layout_of_single hnone hclose]
      rfl
    · have hlines : (children.flatMap (tagsAt style.selfClose (depth + 1))).flatMap
          (Tag.written style level) = layouts style (level + (depth + 1)) children := by
        rw [List.flatMap_assoc, layouts_eq_flatMap]
        refine List.flatMap_congr fun c hc => ?_
        rw [ih c hc, if_pos (Nat.succ_pos depth)]
      rw [tagsAt_of_pair hpair, List.cons_append, List.flatMap_cons, List.flatMap_append, hlines,
        List.flatMap_singleton, Tag.written_start (.inl rfl), Tag.written_closing,
        layout_of_pair hpair]
      simp only [Tag.text, List.append_assoc, Nat.add_assoc, e]

/-- **The text of an element, tag by tag.** -/
theorem layout_eq_flatMap_tags (style : Style) (level : Nat) (e : Element) :
    e.layout style level = (e.tags style.selfClose).flatMap (Tag.written style level) :=
  (written_tagsAt style level 0 e).symm

end Element

/-! ### What a pen writes, tag by tag -/

namespace Pen

variable {pen pen' : Pen} {m : Mark} {ms before after : List Mark} {low high : Nat} {e : Element}

theorem level_of_onto {sheet : Option Sheet} (h : pen.onto sheet = .ok pen') :
    pen'.level = pen.level := by
  cases sheet with
  | none => cases h
  | some sheet => exact Except.ok.inj h ▸ rfl

theorem level_of_breakLine (h : pen.breakLine = .ok pen') : pen'.level = pen.level := by
  rw [breakLine] at h
  split at h
  · cases hwrite : pen.write ['\n'] with
    | error left =>
      rw [hwrite] at h
      cases h
    | ok broken =>
      rw [hwrite] at h
      exact (level_of_onto h).trans (level_of_onto hwrite)
  · exact Except.ok.inj h ▸ rfl

/-- The level behind a mark, if a step in does not lead beyond the words. -/
theorem level_of_follow (hin : m = .stepIn → pen.level.toNat + 1 < 2 ^ 64)
    (h : pen.follow m = .ok pen') : pen'.level.toNat = m.levelAfter pen.level.toNat := by
  cases m with
  | text t => exact congrArg UInt64.toNat (level_of_onto h)
  | lineBreak => exact congrArg UInt64.toNat (level_of_breakLine h)
  | stepIn =>
    obtain ⟨next, hnext, hat⟩ := (At.self pen).stepIn (hin rfl)
    rw [hnext] at h
    exact Except.ok.inj h ▸ hat.level_eq
  | stepOut =>
    obtain ⟨next, hnext, hat⟩ := (At.self pen).stepOut
    rw [hnext] at h
    exact Except.ok.inj h ▸ hat.level_eq

/-- The level behind marks that keep to levels within the words, whatever they say. -/
theorem level_of_followAll (hms : Mark.StaysIn low high pen.level.toNat ms) (hhigh : high < 2 ^ 64)
    (h : pen.followAll ms = .ok pen') :
    pen'.level.toNat = Mark.levelAfterAll pen.level.toNat ms := by
  induction ms generalizing pen with
  | nil => exact Except.ok.inj h ▸ rfl
  | cons m ms ih =>
    rw [followAll_cons] at h
    cases hfirst : pen.follow m with
    | error left =>
      rw [hfirst] at h
      cases h
    | ok next =>
      have hin : m = .stepIn → pen.level.toNat + 1 < 2 ^ 64 := by
        rintro rfl
        exact Nat.lt_of_le_of_lt hms.2.level_le hhigh
      have hnext := level_of_follow hin hfirst
      rw [hfirst] at h
      refine (ih (hnext ▸ hms.2) h).trans ?_
      rw [hnext]
      rfl

/-- Where there are as many levels above a pen as an element has, its draft keeps to the words. -/
theorem staysIn_draft (pen : Pen) (e : Element) (h : pen.level.toNat + e.depth ≤ 2 ^ 64) :
    ∃ high < 2 ^ 64, Mark.StaysIn pen.level.toNat high pen.level.toNat
      (e.draft pen.style.selfClose).marks := by
  have hpos := e.depth_pos
  have hpaired : (e.draft pen.style.selfClose).Paired (e.depth - 1) :=
    e.paired_draft pen.style.selfClose (by omega)
  exact ⟨pen.level.toNat + (e.depth - 1), by omega, hpaired.stays pen.level.toNat⟩

/-- An element without defects is written as its layout on the level of the pen. -/
theorem exists_put_eq_ok (pen : Pen) (he : e.defects = [])
    (hlevels : pen.level.toNat + e.depth ≤ 2 ^ 64)
    (hle : Text.utf8Size (pen.written ++ e.layout pen.style pen.level.toNat) ≤ Text.maxSize) :
    ∃ pen', pen.put e = (.ok (), pen') ∧ pen'.style = pen.style ∧ pen'.level = pen.level ∧
      pen'.written = pen.written ++ e.layout pen.style pen.level.toNat := by
  have hdefect : (e.draft pen.style.selfClose).defect = none := by
    rw [Element.defect_draft, he, List.head?_nil]
  have hshown := (Element.leads_draft pen.style pen.level.toNat e).shown hdefect
  have hback := (Element.leads_draft pen.style pen.level.toNat e).back hdefect
  rw [← hshown] at hle ⊢
  obtain ⟨high, hhigh, hstays⟩ := pen.staysIn_draft e hlevels
  have hwords := hstays.inWordsAll hhigh (Text.utf8Size_append _ _ ▸ hle)
  obtain ⟨pen', hput, hat⟩ := (At.self pen).put_of_le hwords hle
  rw [he] at hput
  refine ⟨pen', hput, hat.style_eq, ?_, hat.written_eq⟩
  exact UInt64.toNat_inj.mp (hat.level_eq.trans hback)

/-- Where there are as many levels above a pen as an element has, the pen steps out of higher levels
only than its own. -/
theorem lt_level_of_stepOut (hlevels : pen.level.toNat + e.depth ≤ 2 ^ 64)
    (hmarks : (e.draft pen.style.selfClose).marks = before ++ .stepOut :: after)
    (hrun : pen.followAll before = .ok pen') : pen.level < pen'.level := by
  obtain ⟨high, hhigh, hstays⟩ := pen.staysIn_draft e hlevels
  rw [hmarks] at hstays
  rw [UInt64.lt_iff_toNat_lt, level_of_followAll hstays.of_append hhigh hrun]
  exact hstays.lt_of_stepOut

/-- A drawing keeps to the words without any room above it, since it comes to no level for which
there is no room on the sheet. -/
theorem level_pos_of_stepOut
    (hmarks : (e.draft pen.style.selfClose).marks = before ++ .stepOut :: after)
    (hrun : pen.reset.followAll before = .ok pen') : 0 < pen'.level := by
  have hwords : Mark.InWordsAll pen.style 0 0 (before ++ .stepOut :: after) :=
    hmarks ▸ e.inWordsAll_draft pen.style
  have hat := (At.new pen.style).of_followAll hwords.of_append hrun
  have hpaired := e.paired_draft pen.style.selfClose (Nat.le_succ e.depth)
  have hstays := hmarks ▸ hpaired.stays 0
  rw [UInt64.lt_iff_toNat_lt, hat.level_eq]
  exact hstays.lt_of_stepOut

end Pen

/-- **Indentation is depth.** Let there be as many levels above the one on which a pen stands as an
element without defects has, and room for its text. Then putting the element leaves the pen on its
level, and writes the tags of the element in document order. A tag that begins a line stands behind
one newline and a number of spaces that is given by the depth of its element and the level of the
pen, if the style breaks lines; any other tag follows the tag before it directly. No element,
whether it can be written or not, takes a pen out of the level on which it stands, so that no step
out is taken on level zero; in a drawing none ever is. -/
theorem Pen.put_indents_by_depth (pen : Pen) (e : Element) :
    (e.defects = [] → pen.level.toNat + e.depth ≤ 2 ^ 64 →
      Text.utf8Size (pen.written ++ (e.tags pen.style.selfClose).flatMap
        (Tag.written pen.style pen.level.toNat)) ≤ Text.maxSize →
      ∃ pen', pen.put e = (.ok (), pen') ∧ pen'.style = pen.style ∧ pen'.level = pen.level ∧
        pen'.written = pen.written ++ (e.tags pen.style.selfClose).flatMap
          (Tag.written pen.style pen.level.toNat)) ∧
    (∀ (style : Style) (level : Nat) (tag : Tag), tag.written style level =
      (if tag.beginsLine ∧ style.pretty then
        '\n' :: List.replicate ((level + tag.depth) * style.indentWidth.toNat) ' '
      else []) ++ tag.text) ∧
    (∀ pen' before after, pen.level.toNat + e.depth ≤ 2 ^ 64 →
      (e.draft pen.style.selfClose).marks = before ++ .stepOut :: after →
      pen.followAll before = .ok pen' → pen.level < pen'.level) ∧
    ∀ pen' before after, (e.draft pen.style.selfClose).marks = before ++ .stepOut :: after →
      pen.reset.followAll before = .ok pen' → 0 < pen'.level := by
  refine ⟨fun he hlevels hle => ?_, fun style level tag => ?_,
    fun pen' before after hlevels hmarks hrun => lt_level_of_stepOut hlevels hmarks hrun,
    fun pen' before after hmarks hrun => level_pos_of_stepOut hmarks hrun⟩
  · rw [← Element.layout_eq_flatMap_tags] at hle ⊢
    exact pen.exists_put_eq_ok he hlevels hle
  · rw [Tag.written, Tag.gap_eq]

/-- A pen that stands on level 2 behind a text, and an element with a pair of tags on each of three
levels; the step out behind the line of a child, on level 2 and in a drawing. -/
theorem Pen.put_indents_by_depth_nested :
    (∃ pen', (⟨⟨1, true, false⟩, ⟨['x'], 1, rfl, Nat.le_of_ble_eq_true rfl⟩, 2⟩ : Pen).put
        ⟨['a'], [], [⟨['b'], [], [⟨['c'], [], []⟩]⟩]⟩ = (.ok (), pen') ∧ pen'.level = 2 ∧
      pen'.written = "x<a>\n   <b>\n    <c></c>\n   </b>\n  </a>".toList) ∧
    (Element.draft false ⟨['a'], [], [⟨['b'], [], []⟩]⟩).marks =
      [.text ['<'], .text ['a'], .text ['>'], .stepIn, .lineBreak, .text ['<'], .text ['b'],
        .text "></b>".toList] ++ .stepOut :: [.lineBreak, .text "</a>".toList] ∧
    (∃ pen', (⟨⟨1, true, false⟩, .blank, 2⟩ : Pen).followAll [.text ['<'], .text ['a'], .text ['>'],
        .stepIn, .lineBreak, .text ['<'], .text ['b'], .text "></b>".toList] = .ok pen' ∧
      2 < pen'.level) ∧
    ∃ pen', (Pen.new ⟨1, true, false⟩).reset.followAll [.text ['<'], .text ['a'], .text ['>'],
        .stepIn, .lineBreak, .text ['<'], .text ['b'], .text "></b>".toList] = .ok pen' ∧
      0 < pen'.level := by
  have hmarks : (Element.draft false ⟨['a'], [], [⟨['b'], [], []⟩]⟩).marks =
      [.text ['<'], .text ['a'], .text ['>'], .stepIn, .lineBreak, .text ['<'], .text ['b'],
        .text "></b>".toList] ++ .stepOut :: [.lineBreak, .text "</a>".toList] := rfl
  obtain ⟨pen', hput, -, hlevel, hwritten⟩ := (Pen.put_indents_by_depth
    ⟨⟨1, true, false⟩, ⟨['x'], 1, rfl, Nat.le_of_ble_eq_true rfl⟩, 2⟩
    ⟨['a'], [], [⟨['b'], [], [⟨['c'], [], []⟩]⟩]⟩).1 rfl (by decide) (by decide)
  have hout := (Pen.put_indents_by_depth ⟨⟨1, true, false⟩, .blank, 2⟩
    ⟨['a'], [], [⟨['b'], [], []⟩]⟩).2.2.1 _ _ _ (by decide) hmarks rfl
  have hdrawn := (Pen.put_indents_by_depth (.new ⟨1, true, false⟩) _).2.2.2 _ _ _ hmarks rfl
  exact ⟨⟨pen', hput, hlevel, hwritten⟩, hmarks, ⟨_, rfl, hout⟩, ⟨_, rfl, hdrawn⟩⟩

/-- An element of two levels where words and sheets end. With the greatest width there is no room
for its child. On level `2 ^ 63` and with width 2 the number of spaces before its child wraps around
to two, and the one before its last tag to none. Above the greatest level is level zero, on which
the step out is lost. -/
theorem Pen.put_misindents :
    Element.defects ⟨['a'], [], [⟨['b'], [], []⟩]⟩ = [] ∧
    ((Pen.new ⟨18446744073709551615, true, true⟩).put ⟨['a'], [], [⟨['b'], [], []⟩]⟩).1 =
      .error .overflow ∧
    ((⟨⟨2, true, true⟩, .blank, 9223372036854775808⟩ : Pen).put
      ⟨['a'], [], [⟨['b'], [], []⟩]⟩).2.written = "<a>\n  <b/>\n</a>".toList ∧
    ((⟨⟨0, true, true⟩, .blank, 18446744073709551615⟩ : Pen).put
      ⟨['a'], [], [⟨['b'], [], []⟩]⟩).2.level = 0 :=
  ⟨rfl, rfl, rfl, rfl⟩

end TagTree
