import TagTree.Proofs.Layout.Following
import TagTree.Proofs.Layout.Levels
import Mathlib.Algebra.Group.Nat.Defs

/-!
# The indentation of a line fits in a word

The indentation of a line is the level of the pen times the indentation width, both words of 64
bits, and nothing guards the product. That it cannot wrap around has to do with what it is for: it
is a number of spaces, and the pen has written such numbers before. On its way to a level it has
begun a line on every level below, each further in than the one before, so that what it has written
grows with the square of the level while the next indentation only grows with the level. The sheet
runs out of room first.

The counting is closest at level 2. On levels 0 and 1 the product is no greater than the width. From
level 3 on, the indentation of the next line is at most what has been written; on level 2 it may be
twice as much, which is just enough, since a text has less than half as many bytes as there are
words.

A step in is the one moment at which a pen stands on a level without a line to show for it, so the
invariant (`Style.Backed`) does not survive this mark alone. It survives a step in together with the
end of a line behind it, and steps in stand nowhere else (`Draft.StepsOntoLines`). The level itself
cannot wrap around either, since a step in also stands behind the last character of a tag.

## Main definitions

* `Draft.StepsOntoLines`: marks in which every step in stands between the last character of a tag
  and the end of a line.
* `Style.Backed`, `Style.Due`: how much has been written by the time a level is reached, and by the
  time the first line on this level is about to begin.

## Main results

* `Element.stepsOntoLines_draft`: the drafts of elements are of this kind.
* `Style.Due.indentation_le`: the indentation of the next line and the size of the text.
* `Element.inWordsAll_draft`: drafts that are followed from a fresh start make no word wrap around.
* `Pen.indentation_lt_of_size_le`: the indentation of a line fits in a word.
-/

namespace TagTree

/-! ### Steps in and ends of lines -/

namespace Draft

/-- Every step in stands between the last character of a tag and the end of a line. -/
inductive StepsOntoLines : List Mark → Prop
  | nil : StepsOntoLines []
  | mark {m : Mark} {ms : List Mark} (hm : m ≠ .stepIn) (h : StepsOntoLines ms) :
      StepsOntoLines (m :: ms)
  | stepIn {ms : List Mark} (h : StepsOntoLines ms) :
      StepsOntoLines (.text ['>'] :: .stepIn :: .lineBreak :: ms)

variable {a b : Draft} {ms ns : List Mark}

theorem StepsOntoLines.append (hms : StepsOntoLines ms) (hns : StepsOntoLines ns) :
    StepsOntoLines (ms ++ ns) := by
  induction hms with
  | nil => exact hns
  | mark hm _ ih => exact .mark hm ih
  | stepIn _ ih => exact .stepIn ih

theorem StepsOntoLines.marks_append (ha : StepsOntoLines a.marks) (hb : StepsOntoLines b.marks) :
    StepsOntoLines (a ++ b).marks := by
  cases hdefect : a.defect with
  | some x => rwa [append_of_defect hdefect]
  | none =>
    rw [append_of_sound hdefect]
    exact ha.append hb

theorem closed_stepsOntoLines : Closed fun _ d => StepsOntoLines d.marks where
  empty _ := .nil
  halt _ _ := .nil
  write _ _ := .mark nofun .nil
  lineBreak _ := .mark nofun .nil
  append := StepsOntoLines.marks_append
  indented {_ d} hd := by
    have hin : StepsOntoLines
        (Draft.write ['>'] ++ (mark .stepIn ++ (mark .lineBreak ++ d))).marks := .stepIn hd
    rw [← append_assoc]
    exact hin.marks_append (.mark nofun .nil)

end Draft

/-- In the draft of an element, the end of a line follows every step in. -/
theorem Element.stepsOntoLines_draft (selfClose : Bool) (e : Element) :
    Draft.StepsOntoLines (e.draft selfClose).marks :=
  Draft.closed_stepsOntoLines.draft selfClose e (Nat.le_succ e.depth)

/-! ### How much has been written -/

namespace Style

variable {style : Style} {size size' level level' : Nat} {m : Mark}

/-- A text of `size` bytes on a level, with a line to show for it and for every level below. There
are as many tags as levels, and where lines are broken, the indentations of these lines, from one
width up to that of the level, add up to half of the product below. -/
structure Backed (style : Style) (size level : Nat) : Prop where
  level_le : level ≤ size
  indented : style.pretty = true →
    (level + 1) * (level * style.indentWidth.toNat) ≤ 2 * size

/-- A text of `size` bytes on a level on which a line has yet to begin, with a line to show for
every level below. -/
structure Due (style : Style) (size level : Nat) : Prop where
  level_le : level ≤ size
  indented : style.pretty = true → level * (level * style.indentWidth.toNat) ≤
    2 * size + level * style.indentWidth.toNat

theorem backed_zero (style : Style) : style.Backed 0 0 where
  level_le := Nat.le_refl 0
  indented _ := by simp only [Nat.zero_mul, Nat.mul_zero, Nat.le_refl]

/-- Another line may begin on a level with a line to show for it. -/
theorem Backed.due (h : style.Backed size level) : style.Due size level where
  level_le := h.level_le
  indented hpretty := by
    have hle := h.indented hpretty
    rw [Nat.succ_mul] at hle
    omega

theorem Backed.mono (h : style.Backed size level) (hsize : size ≤ size') (hlevel : level' ≤ level) :
    style.Backed size' level' where
  level_le := Nat.le_trans hlevel (Nat.le_trans h.level_le hsize)
  indented hpretty := by
    have hindentation : level' * style.indentWidth.toNat ≤ level * style.indentWidth.toNat :=
      Nat.mul_le_mul_right _ hlevel
    calc (level' + 1) * (level' * style.indentWidth.toNat)
        ≤ (level + 1) * (level * style.indentWidth.toNat) :=
          Nat.mul_le_mul (Nat.succ_le_succ hlevel) hindentation
      _ ≤ 2 * size := h.indented hpretty
      _ ≤ 2 * size' := Nat.mul_le_mul_left 2 hsize

/-- The line that has been due is begun. -/
theorem Due.lineBreak (h : style.Due size level) :
    style.Backed (size + (style.lineBreak level).utf8Size) level where
  level_le := Nat.le_trans h.level_le (Nat.le_add_right _ _)
  indented hpretty := by
    have hle := h.indented hpretty
    rw [utf8Size_lineBreak hpretty, Nat.succ_mul]
    omega

/-- The last character of a tag and a step in leave a level one line short. -/
theorem Backed.due_stepIn (h : style.Backed size level) : style.Due (size + 1) (level + 1) where
  level_le := Nat.succ_le_succ h.level_le
  indented hpretty := by
    have hnext : (level + 1) * ((level + 1) * style.indentWidth.toNat) =
        (level + 1) * (level * style.indentWidth.toNat) +
          (level + 1) * style.indentWidth.toNat := by
      calc (level + 1) * ((level + 1) * style.indentWidth.toNat)
          = (level + 1) * (level * style.indentWidth.toNat + style.indentWidth.toNat) :=
            congrArg ((level + 1) * ·) (Nat.succ_mul level _)
        _ = (level + 1) * (level * style.indentWidth.toNat) +
              (level + 1) * style.indentWidth.toNat := Nat.mul_add _ _ _
    have hle := h.indented hpretty
    omega

/-- All marks but a step in keep a level backed. -/
theorem Backed.follow (h : style.Backed size level) (hm : m ≠ .stepIn) :
    style.Backed (size + (m.shown style level).utf8Size) (m.levelAfter level) := by
  cases m with
  | text t => exact h.mono (Nat.le_add_right _ _) (Nat.le_refl level)
  | stepIn => exact absurd rfl hm
  | stepOut => exact h.mono (Nat.le_add_right _ _) (Nat.sub_le level 1)
  | lineBreak => exact h.due.lineBreak

/-! ### The indentation of the next line -/

/-- Above level 1, the indentation of the next line is at most twice as long as the text. -/
theorem Due.indentation_le (h : style.Due size level) (hpretty : style.pretty = true)
    (hlevel : 2 ≤ level) : level * style.indentWidth.toNat ≤ 2 * size := by
  have htwice : 2 * (level * style.indentWidth.toNat) ≤
      2 * size + level * style.indentWidth.toNat :=
    Nat.le_trans (Nat.mul_le_mul_right _ hlevel) (h.indented hpretty)
  omega

/-- A text that fits on a sheet leaves no room for an indentation that is no word. -/
theorem Due.indentation_lt (h : style.Due size level) (hpretty : style.pretty = true)
    (hsize : size ≤ Text.maxSize) : level * style.indentWidth.toNat < 2 ^ 64 := by
  have hmax : Text.maxSize = 2 ^ 63 - 1 := rfl
  rcases Nat.lt_or_ge level 2 with hlow | hhigh
  · have hwidth : style.indentWidth.toNat < 2 ^ 64 := style.indentWidth.toNat_lt
    have hone : level * style.indentWidth.toNat ≤ 1 * style.indentWidth.toNat :=
      Nat.mul_le_mul_right _ (Nat.le_of_lt_succ hlow)
    omega
  · have hle := h.indentation_le hpretty hhigh
    omega

end Style

/-! ### Drafts in words -/

/-- **Nothing wraps around.** Marks with the last character of a tag before every step in and the
end of a line behind it are in words, if they are followed from a level with lines to show for it.
-/
theorem Draft.StepsOntoLines.inWordsAll {style : Style} {size level : Nat} {ms : List Mark}
    (hms : StepsOntoLines ms) (h : style.Backed size level) (hsize : size ≤ Text.maxSize) :
    Mark.InWordsAll style size level ms := by
  induction hms generalizing size level with
  | nil => trivial
  | @mark m ms hm _ ih =>
    refine ⟨?_, fun hle => ih (h.follow hm) hle⟩
    cases m with
    | text t => trivial
    | stepIn => exact absurd rfl hm
    | stepOut => trivial
    | lineBreak => exact fun hpretty => h.due.indentation_lt hpretty hsize
  | stepIn _ ih =>
    refine ⟨trivial, fun hsize => ⟨?_, fun _ => ⟨fun hpretty => ?_, fun hle => ?_⟩⟩⟩
    · have hmax : Text.maxSize = 2 ^ 63 - 1 := rfl
      have hlevel := h.level_le
      exact (by omega : level + 1 < 2 ^ 64)
    · exact h.due_stepIn.indentation_lt hpretty hsize
    · exact ih h.due_stepIn.lineBreak hle

/-- Marks that keep to levels within the words are in words if there is room for all they say. -/
theorem Mark.StaysIn.inWordsAll {style : Style} {size low high level : Nat} {ms : List Mark}
    (h : StaysIn low high level ms) (hhigh : high < 2 ^ 64)
    (hle : size + (shownAll style level ms).utf8Size ≤ Text.maxSize) :
    InWordsAll style size level ms := by
  induction ms generalizing size level with
  | nil => trivial
  | cons m ms ih =>
    rw [shownAll, Text.utf8Size_append, ← Nat.add_assoc] at hle
    refine ⟨?_, fun _ => ih h.2 hle⟩
    cases m with
    | text t => trivial
    | stepIn => exact Nat.lt_of_le_of_lt h.2.level_le hhigh
    | stepOut => trivial
    | lineBreak =>
      intro hpretty
      have hmax : Text.maxSize = 2 ^ 63 - 1 := rfl
      rw [shown, Style.utf8Size_lineBreak hpretty] at hle
      omega

/-- **Drawings do not wrap around.** The draft of an element, with or without defects, is in words
if it is followed from a blank sheet and level zero. -/
theorem Element.inWordsAll_draft (style : Style) (e : Element) :
    Mark.InWordsAll style 0 0 (e.draft style.selfClose).marks :=
  (e.stepsOntoLines_draft style.selfClose).inWordsAll style.backed_zero (Nat.zero_le _)

namespace Pen

/-- **The indentation of a line fits in a word.** Let a pen draw an element, with or without
defects, in a style that breaks lines, whatever it has drawn before. It comes to the end of a line
if what is to be written before it has less than `2 ^ 63` bytes. Then it has written just that, its
level has not wrapped around, and the product of the level and the indentation width is less than
`2 ^ 64`, and so it is the same for words as for numbers. -/
theorem indentation_lt_of_size_le (pen : Pen) (e : Element) (before after : List Mark)
    (hpretty : pen.style.pretty = true)
    (hmarks : (e.draft pen.style.selfClose).marks = before ++ .lineBreak :: after) :
    ((∃ pen', pen.reset.followAll before = .ok pen') ↔
      (Mark.shownAll pen.style 0 before).utf8Size ≤ 2 ^ 63 - 1) ∧
    ∀ pen', pen.reset.followAll before = .ok pen' →
      pen'.written = Mark.shownAll pen.style 0 before ∧
      pen'.level.toNat = Mark.levelAfterAll 0 before ∧
      pen'.level.toNat * pen.style.indentWidth.toNat < 2 ^ 64 ∧
      (indentation pen'.style pen'.level).toNat =
        pen'.level.toNat * pen.style.indentWidth.toNat := by
  have hwords : Mark.InWordsAll pen.style 0 0 (before ++ .lineBreak :: after) :=
    hmarks ▸ e.inWordsAll_draft pen.style
  have hstart : pen.reset.At pen.style [] 0 := .new pen.style
  refine ⟨hstart.exists_followAll_iff hwords.of_append, fun pen' hrun => ?_⟩
  obtain ⟨hstyle, hwritten, hlevel⟩ := hstart.of_followAll hwords.of_append hrun
  have hfits : (0 : Nat) + (Mark.shownAll pen.style 0 before).utf8Size ≤ Text.maxSize := by
    rw [Nat.zero_add]
    exact (hstart.exists_followAll_iff hwords.of_append).mp ⟨pen', hrun⟩
  have hproduct : pen'.level.toNat * pen.style.indentWidth.toNat < 2 ^ 64 :=
    hlevel ▸ (hwords.drop hfits).1 hpretty
  refine ⟨hwritten, hlevel, hproduct, ?_⟩
  rw [indentation, hstyle, UInt64.toNat_mul]
  exact Nat.mod_eq_of_lt hproduct

/-- A pen that has been left on level 7 draws an element with a defect on level 2, and comes to the
end of the line in front of it. -/
theorem indentation_lt_of_size_le_level_two :
    (Element.draft true ⟨['a'], [], [⟨['b'], [], [⟨['1'], [], []⟩]⟩]⟩).marks =
      [.text ['<'], .text ['a'], .text ['>'], .stepIn, .lineBreak, .text ['<'], .text ['b'],
        .text ['>'], .stepIn] ++ .lineBreak :: [] ∧
    ∃ pen', (⟨⟨3, true, true⟩, .blank, 7⟩ : Pen).reset.followAll [.text ['<'], .text ['a'],
        .text ['>'], .stepIn, .lineBreak, .text ['<'], .text ['b'], .text ['>'], .stepIn] =
          .ok pen' ∧
      pen'.written = "<a>\n   <b>".toList ∧ pen'.level.toNat = 2 ∧
      pen'.level.toNat * 3 < 2 ^ 64 ∧
      (indentation pen'.style pen'.level).toNat = pen'.level.toNat * 3 := by
  have hmarks : (Element.draft true ⟨['a'], [], [⟨['b'], [], [⟨['1'], [], []⟩]⟩]⟩).marks =
      [.text ['<'], .text ['a'], .text ['>'], .stepIn, .lineBreak, .text ['<'], .text ['b'],
        .text ['>'], .stepIn] ++ .lineBreak :: [] := rfl
  obtain ⟨hroom, hrun⟩ :=
    indentation_lt_of_size_le ⟨⟨3, true, true⟩, .blank, 7⟩ _ _ _ rfl hmarks
  obtain ⟨pen', hpen'⟩ := hroom.mpr (by decide)
  exact ⟨hmarks, pen', hpen', hrun pen' hpen'⟩

end Pen

end TagTree
