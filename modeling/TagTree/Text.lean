/-!
# Texts and their character classes

A text is handled as the list of its characters: a parser consumes it from the front, and
everything a parser leaves over is a suffix of it. Markup distinguishes three classes of
characters, the name characters, the blanks and the double quote.

## Main definitions

* `Text`: a text as a list of characters.
* `isNameChar`, `isName`: the characters of names, and the non-empty texts made of them.
* `isBlank`: the characters allowed around elements and between attributes.
* `Text.utf8Size`, `Text.maxSize`: the number of bytes of a text, and the most that there can be.
-/

namespace TagTree

/-- A text is the list of its characters. -/
abbrev Text := List Char

/-- A name character is an ASCII letter or the hyphen. -/
def isNameChar (c : Char) : Bool :=
  c.isAlpha || c == '-'

/-- A name is a non-empty run of name characters. -/
def isName (t : Text) : Bool :=
  !t.isEmpty && t.all isNameChar

/-- A blank is a space or a newline. Tabs and carriage returns are not blank. -/
def isBlank (c : Char) : Bool :=
  c == ' ' || c == '\n'

/-- The number of bytes of a text in UTF-8. -/
def Text.utf8Size (t : Text) : Nat :=
  t.foldr (fun c size => c.utf8Size + size) 0

namespace Text

/-- The most bytes that a text in memory can have, the greatest signed word of 64 bits. -/
def maxSize : Nat :=
  1 <<< 63 - 1

theorem utf8Size_append (t u : Text) : utf8Size (t ++ u) = t.utf8Size + u.utf8Size := by
  induction t with
  | nil => exact (Nat.zero_add u.utf8Size).symm
  | cons c t ih =>
    calc utf8Size (c :: (t ++ u)) = c.utf8Size + utf8Size (t ++ u) := rfl
      _ = c.utf8Size + utf8Size t + u.utf8Size := by rw [ih, Nat.add_assoc]

theorem utf8Size_reverse (t : Text) : utf8Size t.reverse = t.utf8Size := by
  induction t with
  | nil => rfl
  | cons c t ih =>
    calc utf8Size (c :: t).reverse = utf8Size (t.reverse ++ [c]) := by rw [List.reverse_cons]
      _ = utf8Size t.reverse + c.utf8Size := utf8Size_append t.reverse [c]
      _ = utf8Size (c :: t) := by rw [ih, Nat.add_comm]; rfl

/-- A space takes one byte. -/
theorem utf8Size_replicate_space (n : Nat) : utf8Size (List.replicate n ' ') = n := by
  induction n with
  | zero => rfl
  | succ n ih =>
    have hspace : ' '.utf8Size = 1 := rfl
    calc utf8Size (List.replicate (n + 1) ' ')
        = ' '.utf8Size + utf8Size (List.replicate n ' ') := rfl
      _ = n + 1 := by rw [ih, hspace, Nat.add_comm]

/-- Taking characters away makes a text no larger. -/
theorem utf8Size_le_of_sublist {t u : Text} (h : t.Sublist u) : t.utf8Size ≤ u.utf8Size := by
  induction h with
  | slnil => exact Nat.le_refl _
  | cons c _ ih => exact Nat.le_trans ih (Nat.le_add_left _ c.utf8Size)
  | cons_cons c _ ih => exact Nat.add_le_add_left ih c.utf8Size

/-- Every character takes a byte at least. -/
theorem length_le_utf8Size (t : Text) : t.length ≤ t.utf8Size := by
  induction t with
  | nil => exact Nat.le_refl 0
  | cons c t ih =>
    have hpos : 1 ≤ c.utf8Size := c.utf8Size_pos
    calc t.length + 1 ≤ utf8Size t + c.utf8Size := Nat.add_le_add ih hpos
      _ = utf8Size (c :: t) := Nat.add_comm _ _

end Text

end TagTree
