import TagTree.Text

/-!
# Sheets: texts with an end to their room

A text is written piece by piece onto a sheet. A sheet has room for `Text.maxSize` bytes, and it
counts the bytes as they come, so that whether there is room for one more piece is known before
anything is done about the piece. A piece for which there is no room is not written.

Sheets with the same text are equal, and every text that fits stands on a sheet. Writing is
therefore described by the texts before and after it, and the bound appears only in the question
whether there is a sheet at all.

## Main definitions

* `Sheet`, `Sheet.text`: a sheet and what stands on it.
* `Sheet.write`, `Sheet.writeSpaces`: one more piece, and a piece given by its length only.

## Main results

* `Sheet.write_of_le`, `Sheet.write_of_lt`: writing with room and without.
* `Sheet.write_eq_some_iff`: writing described by the texts alone.
* `Sheet.writeSpaces_eq`: spaces are a piece like any other.
-/

namespace TagTree

/-- A text that is being written. -/
structure Sheet where
  /-- The text, the last character first. -/
  reversed : Text
  /-- How many bytes the text has. -/
  size : Nat
  size_eq : size = reversed.utf8Size
  size_le : size ≤ Text.maxSize
deriving DecidableEq, Repr

namespace Sheet

/-- The sheet with nothing on it. -/
def blank : Sheet :=
  ⟨[], 0, rfl, Nat.zero_le _⟩

/-- What stands on a sheet. -/
def text (sheet : Sheet) : Text :=
  sheet.reversed.reverse

theorem size_add_eq (sheet : Sheet) (t : Text) :
    sheet.size + t.utf8Size = Text.utf8Size (t.reverse ++ sheet.reversed) := by
  rw [Text.utf8Size_append, Text.utf8Size_reverse, ← sheet.size_eq, Nat.add_comm]

/-- The sheet with a text behind what stands on it, if there is room for the text. -/
def write (sheet : Sheet) (t : Text) : Option Sheet :=
  if h : sheet.size + t.utf8Size ≤ Text.maxSize then
    some ⟨t.reverse ++ sheet.reversed, sheet.size + t.utf8Size, sheet.size_add_eq t, h⟩
  else none

/-- The sheet with some spaces behind what stands on it, if there is room for them. The spaces come
into being only after they have been counted. -/
def writeSpaces (sheet : Sheet) (n : Nat) : Option Sheet :=
  if sheet.size + n ≤ Text.maxSize then sheet.write (List.replicate n ' ') else none

/-! ### Sheets and their texts -/

variable {sheet sheet' : Sheet} {t : Text}

theorem utf8Size_text (sheet : Sheet) : sheet.text.utf8Size = sheet.size := by
  rw [text, Text.utf8Size_reverse, sheet.size_eq]

/-- Whatever stands on a sheet fits. -/
theorem utf8Size_text_le (sheet : Sheet) : sheet.text.utf8Size ≤ Text.maxSize :=
  sheet.utf8Size_text ▸ sheet.size_le

theorem utf8Size_text_append (sheet : Sheet) (t : Text) :
    Text.utf8Size (sheet.text ++ t) = sheet.size + t.utf8Size := by
  rw [Text.utf8Size_append, utf8Size_text]

/-- A sheet is given by its text. -/
theorem ext_text (h : sheet.text = sheet'.text) : sheet = sheet' := by
  have hsize : sheet.size = sheet'.size := by rw [← utf8Size_text, ← utf8Size_text, h]
  have hreversed : sheet.reversed = sheet'.reversed := List.reverse_inj.mp h
  obtain ⟨reversed, size, _, _⟩ := sheet
  subst hsize hreversed
  rfl

theorem write_of_le (h : Text.utf8Size (sheet.text ++ t) ≤ Text.maxSize) :
    ∃ written, sheet.write t = some written ∧ written.text = sheet.text ++ t := by
  rw [utf8Size_text_append] at h
  refine ⟨_, dif_pos h, ?_⟩
  simp only [text, List.reverse_append, List.reverse_reverse]

theorem write_of_lt (h : Text.maxSize < Text.utf8Size (sheet.text ++ t)) :
    sheet.write t = none := by
  rw [utf8Size_text_append] at h
  exact dif_neg (Nat.not_le_of_lt h)

/-- Writing puts a text behind what stands on a sheet. -/
theorem write_eq_some_iff : sheet.write t = some sheet' ↔ sheet'.text = sheet.text ++ t := by
  constructor
  · intro h
    rcases Nat.lt_or_ge Text.maxSize (Text.utf8Size (sheet.text ++ t)) with hlt | hle
    · rw [write_of_lt hlt] at h
      cases h
    · obtain ⟨written, hwrite, htext⟩ := write_of_le hle
      rwa [← Option.some.inj (h.symm.trans hwrite)] at htext
  · intro h
    obtain ⟨written, hwrite, htext⟩ := write_of_le (h ▸ sheet'.utf8Size_text_le)
    rw [hwrite, ext_text (htext.trans h.symm)]

/-- Spaces are written as any other text. -/
theorem writeSpaces_eq (sheet : Sheet) (n : Nat) :
    sheet.writeSpaces n = sheet.write (List.replicate n ' ') := by
  rw [writeSpaces]
  split
  · rfl
  · next hle =>
    refine (write_of_lt ?_).symm
    rw [utf8Size_text_append, Text.utf8Size_replicate_space]
    exact Nat.lt_of_not_le hle

end Sheet

end TagTree
