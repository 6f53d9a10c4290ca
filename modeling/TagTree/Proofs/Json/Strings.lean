import TagTree.Json.Str
import TagTree.Proofs.Json.Spelling

/-!
# Strings are read as they are spelled

A string is read character by character, and each of the spellings of a character gives this
character: what an escape stands for is settled by its letter or its digits, and a code point that
is written with four digits is no surrogate because it is that of a character. The spelling that is
written for a character is one of them, so what is written is read. A string with a surrogate that
has no other half spells no text. It is refused as a text, although it is skipped.

## Main results

* `Json.readString_of_spellsText`: a string that spells a text is read as this text.
* `Json.readString_of_isString`: a string that spells none is refused.
* `Json.skipString_of_isString`: a string of any kind is skipped.
* `Json.spellsText_flatMap_writeChar`: a text that is written is spelled.
-/

namespace TagTree.Json

variable {c d : Char} {i n : Nat} {q s t u : Text}

/-! ### Escapes -/

theorem hexValue?_of_isHexDigit (h : IsHexDigit d i) : hexValue? d = some i := by
  obtain ⟨hi, rfl | rfl⟩ := h
  · revert i
    decide
  · revert i
    decide

theorem IsHexQuad.length_eq (h : IsHexQuad q n) : q.length = 4 := by
  cases h
  rfl

theorem IsHexQuad.drop_append (h : IsHexQuad q n) (s : Text) : (q ++ s).drop 4 = s := by
  rw [← h.length_eq, List.drop_left]

theorem hexQuad_of_isHexQuad (h : IsHexQuad q n) (s : Text) : hexQuad (q ++ s) = .ok n := by
  have hlong : ¬ Text.utf8Size (q ++ s) < 4 := by
    have hbytes := Text.length_le_utf8Size (q ++ s)
    rw [List.length_append, h.length_eq] at hbytes
    omega
  cases h with
  | mk ha hb hc hd =>
    unfold hexQuad
    rw [if_neg hlong]
    simp only [List.cons_append, hexValue?_of_isHexDigit ha, hexValue?_of_isHexDigit hb,
      hexValue?_of_isHexDigit hc, hexValue?_of_isHexDigit hd]

theorem shortEscape?_of_mem (h : (d, c) ∈ escapeLetters) : shortEscape? d = some c := by
  revert h
  simp only [escapeLetters, List.mem_cons, List.not_mem_nil, or_false, Prod.mk.injEq]
  rintro (⟨rfl, rfl⟩ | ⟨rfl, rfl⟩ | ⟨rfl, rfl⟩ | ⟨rfl, rfl⟩ | ⟨rfl, rfl⟩ | ⟨rfl, rfl⟩ | ⟨rfl, rfl⟩ |
    ⟨rfl, rfl⟩) <;> rfl

theorem ne_of_mem_escapeLetters (h : (d, c) ∈ escapeLetters) : d ≠ 'u' := by
  rintro rfl
  exact nomatch shortEscape?_of_mem h

/-- The code point of a character is no surrogate. -/
theorem not_surrogate (c : Char) : isTrailing c.toNat = false ∧ isLeading c.toNat = false := by
  have hvalid : c.toNat < 0xd800 ∨ 0xdfff < c.toNat ∧ c.toNat < 0x110000 := c.valid
  simp only [isTrailing, isLeading, Bool.and_eq_false_iff, decide_eq_false_iff_not]
  omega

/-- A letter stands for one character. -/
theorem escape_letter (h : (d, c) ∈ escapeLetters) (s : Text) : escape (d :: s) = .ok (c, 1) := by
  rw [escape]
  simp only [if_neg (ne_of_mem_escapeLetters h), shortEscape?_of_mem h]
  rfl

/-- Four digits stand for the character with this code point. -/
theorem escape_code (h : IsHexQuad q c.toNat) (s : Text) :
    escape ('u' :: (q ++ s)) = .ok (c, 5) := by
  obtain ⟨htrailing, hleading⟩ := not_surrogate c
  unfold escape
  simp only [if_true, hexQuad_of_isHexQuad h, bind, Except.bind, htrailing, hleading,
    Bool.false_eq_true, if_false, Char.ofNat_toNat]
  rfl

/-- Two halves of a surrogate pair stand for one character. -/
theorem escape_pair {q' : Text} {m : Nat} (hq : IsHexQuad q m) (hm : 0xd800 ≤ m ∧ m ≤ 0xdbff)
    (hq' : IsHexQuad q' n) (hn : 0xdc00 ≤ n ∧ n ≤ 0xdfff)
    (hc : c.toNat = 0x10000 + (m - 0xd800) * 0x400 + (n - 0xdc00)) (s : Text) :
    escape ('u' :: (q ++ '\\' :: 'u' :: (q' ++ s))) = .ok (c, 11) := by
  have htrailing : isTrailing n = true := by
    simp only [isTrailing, hn.1, hn.2, decide_true, Bool.and_self]
  have hleading : isLeading m = true := by
    simp only [isLeading, hm.1, hm.2, decide_true, Bool.and_self]
  have hnot : isTrailing m = false := by
    simp only [isTrailing, Bool.and_eq_false_iff, decide_eq_false_iff_not]
    omega
  have hhalf : trailingHalf ('\\' :: 'u' :: (q' ++ s)) = .ok n := by
    unfold trailingHalf
    simp only [ne_eq, not_true_eq_false, if_false, hexQuad_of_isHexQuad hq', bind, Except.bind,
      htrailing, if_true]
  have hcode : (m - 0xd800) * 0x400 + (n - 0xdc00) + 0x10000 = c.toNat := by
    omega
  unfold escape
  simp only [if_true, hexQuad_of_isHexQuad hq, bind, Except.bind, hnot, hleading,
    Bool.false_eq_true, if_false, hq.drop_append, hhalf, hcode, Char.ofNat_toNat]
  rfl

/-! ### Reading -/

/-- An escape is read as the character that it stands for. -/
theorem readString_of_escape (h : escape (u ++ s) = .ok (c, n)) (hn : u.length = n) :
    readString ('\\' :: (u ++ s)) = (readString s).map fun p => (c :: p.1, p.2) := by
  subst hn
  rw [readString, if_neg (by decide), if_pos rfl, h]
  simp only [bind, Except.bind, List.drop_left]
  cases readString s <;> rfl

/-- A spelling of a character is read as the character. -/
theorem readString_of_charSpelledBy (h : CharSpelledBy c u) (s : Text) :
    readString (u ++ s) = (readString s).map fun p => (c :: p.1, p.2) := by
  cases h with
  | verbatim hquote hslash hcontrol =>
    rw [List.singleton_append, readString, if_neg hquote, if_neg hslash,
      if_neg (Nat.not_lt.mpr hcontrol)]
    cases readString s <;> rfl
  | @letter d hd =>
    exact readString_of_escape (u := [d]) (escape_letter hd s) rfl
  | @code q hq =>
    have hlength : ('u' :: q).length = 5 := congrArg (· + 1) hq.length_eq
    exact readString_of_escape (escape_code hq s) hlength
  | @pair q q' _ _ hq hm hq' hn hc =>
    have hescape : escape ('u' :: (q ++ '\\' :: 'u' :: q') ++ s) = .ok (c, 11) := by
      rw [List.cons_append, List.append_assoc]
      exact escape_pair hq hm hq' hn hc s
    refine readString_of_escape hescape ?_
    simp only [List.length_cons, List.length_append, hq.length_eq, hq'.length_eq]

/-- **A string is read as the text that it spells.** -/
theorem readString_of_spellsText (h : SpellsText t s) (rest : Text) :
    readString (s ++ '"' :: rest) = .ok (t, rest) := by
  induction t generalizing s with
  | nil =>
    obtain rfl : s = [] := h
    rw [List.nil_append, readString, if_pos rfl]
  | cons c t ih =>
    obtain ⟨u, v, hu, hv, rfl⟩ := h
    rw [List.append_assoc, readString_of_charSpelledBy hu, ih hv]
    rfl

/-- **A string of any kind is skipped.** -/
theorem skipString_of_isString (h : IsString s) (rest : Text) :
    skipString (s ++ '"' :: rest) = .ok ((), rest) := by
  induction h with
  | nil => rw [List.nil_append, skipString, if_pos rfl]
  | @verbatim c s hquote hslash hcontrol _ ih =>
    rw [List.cons_append, skipString, if_neg hquote, if_neg hslash,
      if_neg (Nat.not_lt.mpr hcontrol), ih]
  | @letter d c s hd _ ih =>
    have hlength : escapeLength (d :: (s ++ '"' :: rest)) = .ok 1 := by
      unfold escapeLength
      simp only [if_neg (ne_of_mem_escapeLetters hd), shortEscape?_of_mem hd, Option.isSome_some,
        if_true]
      rfl
    rw [List.cons_append, List.cons_append, skipString, if_neg (by decide), if_pos rfl, hlength]
    exact ih
  | @code q s n hq _ ih =>
    have hlength : escapeLength ('u' :: (q ++ (s ++ '"' :: rest))) = .ok 5 := by
      unfold escapeLength
      simp only [if_true, hexQuad_of_isHexQuad hq]
      rfl
    have hdrop : ('u' :: (q ++ (s ++ '"' :: rest))).drop 5 = s ++ '"' :: rest :=
      hq.drop_append (s ++ '"' :: rest)
    rw [List.cons_append, List.cons_append, List.append_assoc, skipString, if_neg (by decide),
      if_pos rfl, hlength]
    simp only [bind, Except.bind, hdrop]
    exact ih

/-! ### Strings without a text -/

/-- Every code point but the surrogates is that of a character. -/
theorem exists_toNat_eq (h : n < 0xd800 ∨ 0xdfff < n ∧ n < 0x110000) : ∃ c : Char, c.toNat = n :=
  ⟨Char.ofNatAux n h, rfl⟩

theorem IsHexQuad.lt (h : IsHexQuad q n) : n < 0x10000 := by
  cases h with
  | mk ha hb hc hd =>
    have hi := ha.1
    have hj := hb.1
    have hk := hc.1
    have hl := hd.1
    omega

/-- Four digits are the code point of a character or one half of a surrogate pair. -/
theorem IsHexQuad.cases_surrogate (h : IsHexQuad q n) :
    (∃ c : Char, c.toNat = n) ∨ isTrailing n = true ∨
      isLeading n = true ∧ isTrailing n = false := by
  have hlt := h.lt
  rcases Nat.lt_or_ge n 0xd800 with hbelow | hsurrogate
  · exact .inl (exists_toNat_eq (.inl hbelow))
  · rcases Nat.lt_or_ge 0xdfff n with habove | hle
    · exact .inl (exists_toNat_eq (.inr ⟨habove, by omega⟩))
    · simp only [isTrailing, isLeading, Bool.and_eq_true, decide_eq_true_eq, Bool.and_eq_false_iff,
        decide_eq_false_iff_not]
      omega

/-- In a string the second half of a surrogate pair is an escape with four digits. -/
theorem IsString.trailingHalf_cases (h : IsString s) (rest : Text) :
    trailingHalf (s ++ '"' :: rest) = .error .malformed ∨
      ∃ q n u, IsHexQuad q n ∧ isTrailing n = true ∧ IsString u ∧ s = '\\' :: 'u' :: (q ++ u) := by
  cases h with
  | nil => exact .inl rfl
  | verbatim _ hslash _ _ => exact .inl (if_pos hslash)
  | @letter d _ s hd _ =>
    have hu : d ≠ 'u' := ne_of_mem_escapeLetters hd
    refine .inl ?_
    simp [trailingHalf, hu]
  | @code q s n hq hs =>
    have hquad := hexQuad_of_isHexQuad hq (s ++ '"' :: rest)
    cases htrailing : isTrailing n with
    | true => exact .inr ⟨q, n, s, hq, htrailing, hs, rfl⟩
    | false =>
      refine .inl ?_
      simp [trailingHalf, hquad, htrailing, bind, Except.bind]

/-- One half of a surrogate pair is refused without the other. -/
theorem readString_of_half (hq : IsHexQuad q n)
    (h : isTrailing n = true ∨
      isLeading n = true ∧ isTrailing n = false ∧ trailingHalf s = .error .malformed) :
    readString ('\\' :: 'u' :: (q ++ s)) = .error .malformed := by
  have hescape : escape ('u' :: (q ++ s)) = .error .malformed := by
    unfold escape
    rcases h with htrailing | ⟨hleading, htrailing, hhalf⟩
    · simp [hexQuad_of_isHexQuad hq, bind, Except.bind, htrailing]
    · simp [hexQuad_of_isHexQuad hq, bind, Except.bind, htrailing, hleading, hq.drop_append, hhalf]
  rw [readString, if_neg (by decide), if_pos rfl, hescape]
  rfl

theorem CharSpelledBy.length_pos (h : CharSpelledBy c u) : 0 < u.length := by
  cases h <;> exact Nat.zero_lt_succ _

/-- **A string that spells no text is refused.** -/
theorem readString_of_isString (h : IsString s) (hno : ∀ t, ¬ SpellsText t s) (rest : Text) :
    readString (s ++ '"' :: rest) = .error .malformed := by
  -- A pair takes two of the escapes of a string, so the induction is on the length.
  induction hn : s.length using Nat.strongRecOn generalizing s with
  | ind k ih =>
    subst hn
    have hbehind : ∀ {c u v}, CharSpelledBy c u → IsString v → s = u ++ v →
        readString (s ++ '"' :: rest) = .error .malformed := by
      rintro c u v hu hv rfl
      have hshorter : v.length < (u ++ v).length := by
        rw [List.length_append]
        exact Nat.lt_add_of_pos_left hu.length_pos
      have hnone : ∀ t, ¬ SpellsText t v := fun t ht => hno (c :: t) ⟨u, v, hu, ht, rfl⟩
      rw [List.append_assoc, readString_of_charSpelledBy hu, ih v.length hshorter hv hnone rfl]
      rfl
    cases h with
    | nil => exact absurd rfl (hno [])
    | @verbatim c s hquote hslash hcontrol hs =>
      exact hbehind (.verbatim hquote hslash hcontrol) hs rfl
    | @letter d c s hd hs => exact hbehind (.letter hd) hs rfl
    | @code q s n hq hs =>
      rcases hq.cases_surrogate with ⟨c, rfl⟩ | htrailing | ⟨hleading, htrailing⟩
      · exact hbehind (.code hq) hs rfl
      · rw [List.cons_append, List.cons_append, List.append_assoc]
        exact readString_of_half hq (.inl htrailing)
      · rcases hs.trailingHalf_cases rest with hhalf | ⟨q', m, u, hq', hm, hu, rfl⟩
        · rw [List.cons_append, List.cons_append, List.append_assoc]
          exact readString_of_half hq (.inr ⟨hleading, htrailing, hhalf⟩)
        · simp only [isLeading, isTrailing, Bool.and_eq_true, decide_eq_true_eq] at hleading hm
          obtain ⟨c, hc⟩ : ∃ c : Char,
              c.toNat = 0x10000 + (n - 0xd800) * 0x400 + (m - 0xdc00) :=
            exists_toNat_eq (.inr ⟨by omega, by omega⟩)
          refine hbehind (.pair hq hleading hq' hm hc) hu ?_
          simp only [List.cons_append, List.append_assoc]

/-- The first half of a surrogate pair spells no text, and both halves spell a character. -/
example : readString ("\\ud83d\"".toList) = .error .malformed ∧
    readString ("\\ud83d\\ude00\"".toList) = .ok (['😀'], []) := by
  constructor <;> cbv

/-! ### Writing -/

/-- Control characters that have no letter are written with two digits of four. -/
theorem isHexQuad_control (h : n < 0x20) :
    IsHexQuad ['0', '0', Nat.digitChar (n / 16), Nat.digitChar (n % 16)] n := by
  have hzero : IsHexDigit '0' 0 := ⟨by decide, .inl rfl⟩
  have hhigh : IsHexDigit (Nat.digitChar (n / 16)) (n / 16) := ⟨by omega, .inl rfl⟩
  have hlow : IsHexDigit (Nat.digitChar (n % 16)) (n % 16) := ⟨by omega, .inl rfl⟩
  have hquad := IsHexQuad.mk hzero hzero hhigh hlow
  have hvalue : ((0 * 16 + 0) * 16 + n / 16) * 16 + n % 16 = n := by omega
  rwa [hvalue] at hquad

/-- What is written for a character is one of its spellings. -/
theorem charSpelledBy_writeChar (c : Char) : CharSpelledBy c (writeChar c) := by
  rw [writeChar]
  split_ifs with hquote hslash hb hf hn hr ht hcontrol
  · subst hquote
    exact .letter (by decide)
  · subst hslash
    exact .letter (by decide)
  · subst hb
    exact .letter (by decide)
  · subst hf
    exact .letter (by decide)
  · subst hn
    exact .letter (by decide)
  · subst hr
    exact .letter (by decide)
  · subst ht
    exact .letter (by decide)
  · exact .code (isHexQuad_control hcontrol)
  · exact .verbatim hquote hslash (Nat.not_lt.mp hcontrol)

/-- **A text that is written is spelled.** -/
theorem spellsText_flatMap_writeChar (t : Text) : SpellsText t (t.flatMap writeChar) :=
  Text.joined_flatMap fun c _ => charSpelledBy_writeChar c

/-- A text that is written without escapes spells itself. -/
theorem spellsText_self (h : t.flatMap writeChar = t) : SpellsText t t := by
  have hspells := spellsText_flatMap_writeChar t
  rwa [h] at hspells

end TagTree.Json
