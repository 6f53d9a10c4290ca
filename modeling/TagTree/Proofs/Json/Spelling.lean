import TagTree.Json.Scan
import TagTree.Proofs.Text.Runs

/-!
# Spellings of JSON values

The texts that are JSON, said without a reader. A value has many spellings: space may stand around
every token, and a string may be written with escapes, of which a character can have several. What
stands in brackets is a series: items with commas between them, and space anywhere in between.

Two kinds of strings are told apart. A string that spells a text (`SpellsText`) is one whose escapes
make up characters, so that surrogates come in pairs. A string whose text does not matter
(`IsString`) may have escapes with any four digits.

## Main definitions

* `Json.IsSpaces`, `Json.IsLead`, `Json.Series`: space, what stands in front of an item, and items
  in brackets.
* `Json.CharSpelledBy`, `Json.SpellsText`: the spellings of a character and of a text.
* `Json.IsString`, `Json.IsInteger`, `Json.IsNumber`: strings of any kind and numbers.
* `Json.Member`: a member of an object as it is written.
* `Json.IsValue`: the spellings of all values.

## Main results

* `Json.Series.length_le`: items are not longer than the series.
* `Json.series_intercalate`: items as they are written are a series.
-/

namespace TagTree.Json

/-! ### Space and brackets -/

/-- Any number of characters that may stand between tokens. -/
def IsSpaces (w : Text) : Prop :=
  ∀ c ∈ w, isSpace c = true

instance (w : Text) : Decidable (IsSpaces w) :=
  List.decidableBAll _ w

/-- What stands in front of an item: space, and in the middle of it a comma unless the item is the
first. -/
inductive IsLead : (first : Bool) → Text → Prop
  | first {w : Text} (hw : IsSpaces w) : IsLead true w
  | next {w w' : Text} (hw : IsSpaces w) (hw' : IsSpaces w') : IsLead false (w ++ ',' :: w')

/-- What stands in front of a closing bracket: items with what stands in front of each, and space
behind them. -/
inductive Series : (first : Bool) → List Text → Text → Prop
  | done {first : Bool} {w : Text} (hw : IsSpaces w) : Series first [] w
  | item {first : Bool} {w t u : Text} {ts : List Text} (hw : IsLead first w)
      (hts : Series false ts u) : Series first (t :: ts) (w ++ (t ++ u))

/-- The text starts with a character that is no space and does not close an array. -/
def Starts (t : Text) : Prop :=
  ∃ c u, t = c :: u ∧ isSpace c = false ∧ c ≠ ']'

variable {first : Bool} {c : Char} {t u w : Text} {ts : List Text}

theorem isSpaces_nil : IsSpaces [] :=
  fun _ h => absurd h List.not_mem_nil

theorem IsSpaces.append {w' : Text} (hw : IsSpaces w) (hw' : IsSpaces w') : IsSpaces (w ++ w') :=
  List.forall_mem_append.mpr ⟨hw, hw'⟩

/-- Space may stand in front of what stands in front of an item. -/
theorem IsLead.append_left {w' : Text} (hw : IsLead first w) (hw' : IsSpaces w') :
    IsLead first (w' ++ w) := by
  cases hw with
  | first hw => exact .first (hw'.append hw)
  | @next v v' hv hv' =>
    rw [← List.append_assoc]
    exact .next (hw'.append hv) hv'

theorem Starts.ne_nil (h : Starts t) : t ≠ [] := by
  obtain ⟨c, u, rfl, -⟩ := h
  exact List.cons_ne_nil c u

/-- Items are not longer than the series that they stand in. -/
theorem Series.length_le (h : Series first ts u) : ∀ t ∈ ts, t.length ≤ u.length := by
  induction h with
  | done _ => exact fun _ ht => absurd ht List.not_mem_nil
  | @item _ w t u _ _ _ ih =>
    have hlength : (w ++ (t ++ u)).length = w.length + (t.length + u.length) := by
      rw [List.length_append, List.length_append]
    rintro t' (_ | ⟨_, ht'⟩)
    · omega
    · have hle := ih t' ht'
      omega

/-- A series has no more items than characters, if the items are not empty. -/
theorem Series.length_items_le (h : Series first ts u) (hts : ∀ t ∈ ts, t ≠ []) :
    ts.length ≤ u.length := by
  induction h with
  | done _ => exact Nat.zero_le _
  | @item _ w t u ts _ _ ih =>
    obtain ⟨ht, hrest⟩ := List.forall_mem_cons.mp hts
    have hpos : 0 < t.length := List.length_pos_iff.mpr ht
    have hle := ih hrest
    calc ts.length + 1 ≤ t.length + u.length := by omega
      _ ≤ (w ++ (t ++ u)).length := by
        rw [List.length_append, List.length_append]
        exact Nat.le_add_left _ _

/-- Items with a comma between them and no space, behind what stands in front of the first. -/
theorem series_intercalate_cons (hw : IsLead first w) :
    Series first (t :: ts) (w ++ List.intercalate [','] (t :: ts)) := by
  induction ts generalizing first t w with
  | nil =>
    have hitem : Series first [t] (w ++ (t ++ [])) := .item hw (.done isSpaces_nil)
    rw [List.intercalate_singleton]
    rwa [List.append_nil] at hitem
  | cons t' ts ih =>
    have hcomma : IsLead false [','] := .next isSpaces_nil isSpaces_nil
    rw [List.intercalate_cons_cons, List.append_assoc]
    exact .item hw (ih hcomma)

/-- Items with a comma between them and no space are a series. -/
theorem series_intercalate (ts : List Text) : Series true ts (List.intercalate [','] ts) := by
  cases ts with
  | nil => exact .done isSpaces_nil
  | cons t ts => exact series_intercalate_cons (.first isSpaces_nil)

/-! ### Strings -/

/-- The letters of short escapes, each with the character that it stands for. -/
def escapeLetters : List (Char × Char) :=
  [('"', '"'), ('\\', '\\'), ('/', '/'), ('b', '\x08'), ('f', '\x0c'), ('n', '\n'), ('r', '\r'),
    ('t', '\t')]

/-- A hexadecimal digit of either case. -/
def IsHexDigit (d : Char) (i : Nat) : Prop :=
  i < 16 ∧ (d = Nat.digitChar i ∨ d = (Nat.digitChar i).toUpper)

/-- Four hexadecimal digits and the number that they stand for. -/
inductive IsHexQuad : Text → Nat → Prop
  | mk {a b c d : Char} {i j k l : Nat} (ha : IsHexDigit a i) (hb : IsHexDigit b j)
      (hc : IsHexDigit c k) (hd : IsHexDigit d l) :
      IsHexQuad [a, b, c, d] (((i * 16 + j) * 16 + k) * 16 + l)

/-- The spellings of a character inside a string: as it is, unless it is a quote, a backslash or a
control character; with the letter of a short escape; with its code point in four digits; or, if it
takes more than four, with a leading and a trailing surrogate. -/
inductive CharSpelledBy (c : Char) : Text → Prop
  | verbatim (hquote : c ≠ '"') (hslash : c ≠ '\\') (hcontrol : 0x20 ≤ c.toNat) :
      CharSpelledBy c [c]
  | letter {d : Char} (h : (d, c) ∈ escapeLetters) : CharSpelledBy c ['\\', d]
  | code {q : Text} (h : IsHexQuad q c.toNat) : CharSpelledBy c ('\\' :: 'u' :: q)
  | pair {q q' : Text} {m n : Nat} (hq : IsHexQuad q m) (hm : 0xd800 ≤ m ∧ m ≤ 0xdbff)
      (hq' : IsHexQuad q' n) (hn : 0xdc00 ≤ n ∧ n ≤ 0xdfff)
      (hc : c.toNat = 0x10000 + (m - 0xd800) * 0x400 + (n - 0xdc00)) :
      CharSpelledBy c ('\\' :: 'u' :: (q ++ '\\' :: 'u' :: q'))

/-- What stands between the quotes of a string that spells the text. -/
def SpellsText (t : Text) (s : Text) : Prop :=
  Text.Joined CharSpelledBy t s

/-- What stands between the quotes of a string of any kind. -/
inductive IsString : Text → Prop
  | nil : IsString []
  | verbatim {c : Char} {s : Text} (hquote : c ≠ '"') (hslash : c ≠ '\\')
      (hcontrol : 0x20 ≤ c.toNat) (hs : IsString s) : IsString (c :: s)
  | letter {d c : Char} {s : Text} (hd : (d, c) ∈ escapeLetters) (hs : IsString s) :
      IsString ('\\' :: d :: s)
  | code {q s : Text} {n : Nat} (hq : IsHexQuad q n) (hs : IsString s) :
      IsString ('\\' :: 'u' :: (q ++ s))

/-! ### Numbers -/

/-- At least one digit. -/
def IsDigits (ds : Text) : Prop :=
  ds ≠ [] ∧ ∀ c ∈ ds, c.isDigit = true

instance (ds : Text) : Decidable (IsDigits ds) :=
  @instDecidableAnd _ _ _ (List.decidableBAll _ ds)

/-- The digits of an integer: a leading zero stands alone. -/
def IsInteger (ds : Text) : Prop :=
  IsDigits ds ∧ (ds.head? = some '0' → ds = ['0'])

instance (ds : Text) : Decidable (IsInteger ds) :=
  inferInstanceAs (Decidable (IsDigits ds ∧ (ds.head? = some '0' → ds = ['0'])))

/-- The point of a number and the digits behind it, or nothing. -/
inductive IsFraction : Text → Prop
  | absent : IsFraction []
  | present {ds : Text} (hds : IsDigits ds) : IsFraction ('.' :: ds)

/-- The exponent of a number, or nothing. -/
inductive IsExponent : Text → Prop
  | absent : IsExponent []
  | present {e : Char} {sign ds : Text} (he : e = 'e' ∨ e = 'E')
      (hsign : sign = [] ∨ sign = ['-'] ∨ sign = ['+']) (hds : IsDigits ds) :
      IsExponent (e :: (sign ++ ds))

/-- A number without a minus sign. -/
inductive IsUnsigned : Text → Prop
  | mk {ds f e : Text} (hds : IsInteger ds) (hf : IsFraction f) (he : IsExponent e) :
      IsUnsigned (ds ++ (f ++ e))

/-- A number of any size and form. -/
inductive IsNumber : Text → Prop
  | unsigned {t : Text} (ht : IsUnsigned t) : IsNumber t
  | minus {t : Text} (ht : IsUnsigned t) : IsNumber ('-' :: t)

theorem IsDigits.exists_cons {ds : Text} (h : IsDigits ds) :
    ∃ d u, ds = d :: u ∧ d.isDigit = true := by
  obtain ⟨hne, hds⟩ := h
  obtain ⟨d, u, rfl⟩ := List.exists_cons_of_ne_nil hne
  exact ⟨d, u, rfl, hds d List.mem_cons_self⟩

/-! ### Values -/

/-- A member of an object as it is written: what stands between the quotes of the key, the space on
both sides of the colon, and the value. -/
structure Member where
  key : Text
  before : Text
  after : Text
  value : Text
deriving Repr

namespace Member

/-- What stands behind the key. -/
def behindKey (m : Member) : Text :=
  m.before ++ ':' :: (m.after ++ m.value)

/-- The whole member. -/
def text (m : Member) : Text :=
  '"' :: (m.key ++ '"' :: m.behindKey)

/-- The colon has nothing but space around it. -/
def IsSpaced (m : Member) : Prop :=
  IsSpaces m.before ∧ IsSpaces m.after

/-- A member without space. -/
def compact (key value : Text) : Member :=
  ⟨key, [], [], value⟩

theorem isSpaced_compact (key value : Text) : (compact key value).IsSpaced :=
  ⟨isSpaces_nil, isSpaces_nil⟩

theorem text_compact (key value : Text) :
    (compact key value).text = '"' :: (key ++ '"' :: ':' :: value) :=
  rfl

end Member

/-- The values that are words. -/
def words : List Text :=
  [['n', 'u', 'l', 'l'], ['t', 'r', 'u', 'e'], ['f', 'a', 'l', 's', 'e']]

/-- The spellings of values, of any kind and depth. -/
inductive IsValue : Text → Prop
  | word {t : Text} (ht : t ∈ words) : IsValue t
  | number {t : Text} (ht : IsNumber t) : IsValue t
  | string {s : Text} (hs : IsString s) : IsValue ('"' :: (s ++ ['"']))
  | array {ts : List Text} {u : Text} (hts : ∀ t ∈ ts, IsValue t) (hu : Series true ts u) :
      IsValue ('[' :: (u ++ [']']))
  | object {ms : List Member} {u : Text} (hspaced : ∀ m ∈ ms, m.IsSpaced)
      (hkeys : ∀ m ∈ ms, IsString m.key) (hvalues : ∀ m ∈ ms, IsValue m.value)
      (hu : Series true (ms.map Member.text) u) : IsValue ('\x7b' :: (u ++ ['\x7d']))

end TagTree.Json
