import TagTree.Json.Typed
import TagTree.Proofs.Json.Skip
import Mathlib.Algebra.Group.Nat.Defs

/-!
# Values of a wanted type are read as they are spelled

The readers of typed values, one after the other: each reads the spellings of its values. An
integer is read digit by digit into a significand of 64 bits. As long as the digits behind make a
number that fits, the digits so far do as well, so a natural number of 64 bits is read exactly. No
other number is read as a natural one.

## Main definitions

* `Json.IsNatural`, `Json.boolWord`: the spellings of natural numbers and truth values.

## Main results

* `Json.reads_readNatural`, `Json.reads_readBool`, `Json.reads_readText`: simple values.
* `Json.readNatural_eq_ok_iff`, `Json.readNatural_of_isNumber`: what is read as a natural number,
  and the numbers that are refused.
* `Json.reads_readList`, `Json.reads_readPair`: arrays.
* `Json.reads_readStruct`: values with named fields, written as objects.
* `Json.takes_field`, `Json.takes_unknownField`: one field of them.
-/

namespace TagTree.Json

variable {α σ : Type} {t t' u s w ds rest : Text} {n k : Nat}

/-! ### Natural numbers -/

/-- The digits spell the number, without leading zeros. Minus zero and numbers with a point or an
exponent are doubles to a reader and spell no natural number. -/
def IsNatural (ds : Text) (n : Nat) : Prop :=
  IsInteger ds ∧ Nat.ofDigitChars 10 ds 0 = n

instance (ds : Text) (n : Nat) : Decidable (IsNatural ds n) :=
  inferInstanceAs (Decidable (IsInteger ds ∧ Nat.ofDigitChars 10 ds 0 = n))

/-- More digits do not make a number smaller. -/
theorem le_ofDigitChars (ds : Text) (k : Nat) : k ≤ Nat.ofDigitChars 10 ds k := by
  rw [Nat.ofDigitChars_eq_ofDigitChars_zero]
  have hpow : 1 ≤ 10 ^ ds.length := Nat.one_le_pow _ _ (by decide)
  calc k = 1 * k := (Nat.one_mul k).symm
    _ ≤ 10 ^ ds.length * k := Nat.mul_le_mul_right k hpow
    _ ≤ 10 ^ ds.length * k + Nat.ofDigitChars 10 ds 0 := Nat.le_add_right _ _

/-- Digits that make a number of 64 bits are all taken. -/
theorem absorb_eq (h : Nat.ofDigitChars 10 ds k < 2 ^ 64) :
    absorb k ds = (Nat.ofDigitChars 10 ds k, []) := by
  induction ds generalizing k with
  | nil => rw [absorb, Nat.ofDigitChars_nil]
  | cons d ds ih =>
    rw [Nat.ofDigitChars_cons] at h ⊢
    -- The number made so far is no greater than the whole one, so it fits as well.
    have hnext : 10 * k + (d.toNat - '0'.toNat) < 1 <<< 64 :=
      Nat.lt_of_le_of_lt (le_ofDigitChars ds _) h
    rw [absorb, if_pos hnext, ih h]

theorem readNumber_append (h : IsNatural ds n) (hn : n < 2 ^ 64) (hrest : EndsValue rest) :
    readNumber false (ds ++ rest) = .ok (.integer n, rest) := by
  obtain ⟨⟨hdigits, hzero⟩, rfl⟩ := h
  obtain ⟨htake, hdrop⟩ :=
    Text.takeWhile_dropWhile_eq_iff.mpr ⟨rfl, hdigits.2, hrest.stops_isDigit⟩
  have hnonempty : ds.isEmpty = false := List.isEmpty_eq_false_iff.mpr hdigits.1
  have hleading : ¬ (ds.head? = some '0' ∧ 1 < ds.length) := by
    rintro ⟨hhead, hlength⟩
    rw [hzero hhead] at hlength
    exact absurd hlength (by decide)
  have hpoint : ¬ rest.head? = some '.' := hrest.head?_ne
  unfold readNumber
  simp only [htake, hdrop, hnonempty, Bool.false_eq_true, if_false, if_neg hleading, absorb_eq hn,
    if_neg hpoint, hrest.startsExponent_eq, List.isEmpty_nil, if_true]
  rfl

/-- **Natural numbers of 64 bits are read exactly.** -/
theorem reads_readNatural {x : UInt64} (h : IsNatural ds x.toNat) : Reads readNatural ds x := by
  obtain ⟨d, v, rfl, hd⟩ := h.1.1.exists_cons
  refine reads_of_cons (isSpace_of_isDigit hd) (ne_of_isDigit hd rfl) fun {w rest} hw hrest => ?_
  have hminus : d ≠ '-' := ne_of_isDigit hd rfl
  have hnumber := readNumber_append h x.toNat_lt hrest
  have hfits : natural (.integer x.toNat) = .ok x := congrArg Except.ok (UInt64.ofNat_toNat)
  rw [List.cons_append] at hnumber
  simp only [readNatural, skipSpace_append_cons hw (isSpace_of_isDigit hd), if_neg hminus,
    if_pos hd, hnumber, bind, Except.bind, hfits]
  rfl

/-- Only zero is written with a leading zero. -/
theorem head?_toDigits_ne (hn : n ≠ 0) : (Nat.toDigits 10 n).head? ≠ some '0' := by
  induction n using Nat.strongRecOn with
  | ind n ih =>
    by_cases hlt : n < 10
    · have hdigit : ∀ m < 10, m ≠ 0 → some (Nat.digitChar m) ≠ some '0' := by decide
      rw [Nat.toDigits_of_lt_base hlt, List.head?_cons]
      exact hdigit n hlt hn
    · have hle : 10 ≤ n := Nat.le_of_not_lt hlt
      rw [Nat.toDigits_of_base_le (by decide) hle,
        List.head?_append_of_ne_nil _ Nat.toDigits_ne_nil]
      exact ih (n / 10) (by omega) (by omega)

/-- The digits that are written for a number spell it. -/
theorem isNatural_toDigits (n : Nat) : IsNatural (Nat.toDigits 10 n) n := by
  refine ⟨⟨⟨Nat.toDigits_ne_nil, fun c => Nat.isDigit_of_mem_toDigits (by decide) (by decide)⟩, ?_⟩,
    Nat.ofDigitChars_ten_toDigits⟩
  intro hhead
  obtain rfl : n = 0 := by
    by_contra hn
    exact head?_toDigits_ne hn hhead
  rfl

/-! ### Numbers that are not natural -/

theorem double_ne_integer {negative : Bool} {significand : Nat} {exponent i : Int} :
    double negative significand exponent ≠ .ok (.integer i) := by
  rw [double]
  cases scaled (Float.ofScientific significand false 0) exponent with
  | error e => exact nofun
  | ok x => exact nofun

theorem readExponent_ne_integer {negative : Bool} {significand : Nat} {exponent i : Int} :
    readExponent negative significand exponent s ≠ .ok (.integer i, rest) := by
  intro h
  unfold readExponent at h
  extract_lets down s' ds after power at h
  split at h
  · cases h
  · split at h
    · split at h <;> cases h
    · simp only [bind, Except.bind] at h
      split at h
      · cases h
      · next hdouble =>
        obtain ⟨rfl, -⟩ := Prod.mk.inj (Except.ok.inj h)
        exact double_ne_integer hdouble

theorem readFraction_ne_integer {negative : Bool} {significand : Nat} {exponent i : Int} :
    readFraction negative significand exponent s ≠ .ok (.integer i, rest) := by
  intro h
  simp only [readFraction, bind, Except.bind] at h
  split at h
  · cases h
  · split at h
    · exact readExponent_ne_integer h
    · split at h
      · cases h
      · next hdouble =>
        cases h
        exact double_ne_integer hdouble

/-- If all digits are taken, they make a number of 64 bits. -/
theorem of_absorb_eq_nil (h : absorb k ds = (n, [])) (hk : k < 2 ^ 64) :
    Nat.ofDigitChars 10 ds k = n ∧ n < 2 ^ 64 := by
  induction ds generalizing k with
  | nil =>
    cases h
    exact ⟨Nat.ofDigitChars_nil, hk⟩
  | cons d ds ih =>
    rw [absorb] at h
    split at h
    · next hnext =>
      rw [Nat.ofDigitChars_cons]
      exact ih h hnext
    · cases h

theorem endsValue_iff :
    EndsValue s ↔ Text.Stops Char.isDigit s ∧ s.head? ≠ some '.' ∧ startsExponent s = false := by
  refine ⟨fun h => ⟨h.stops_isDigit, h.head?_ne, h.startsExponent_eq⟩, ?_⟩
  rintro ⟨hdigit, hpoint, hexponent⟩ c hc
  have hd := hdigit c hc
  simp only [startsExponent, hc, Option.some_beq_some, Bool.or_eq_false_iff] at hexponent
  rw [hc] at hpoint
  have hp : c ≠ '.' := fun h => hpoint (congrArg some h)
  simp [continuesNumber, hd, hp, hexponent]

/-- Digits without a zero in front of others spell an integer. -/
theorem IsDigits.isInteger (h : IsDigits ds) (hzero : ¬ (ds.head? = some '0' ∧ 1 < ds.length)) :
    IsInteger ds := by
  refine ⟨h, fun hhead => ?_⟩
  obtain ⟨d, u, rfl, -⟩ := h.exists_cons
  obtain rfl : d = '0' := Option.some.inj hhead
  obtain rfl : u = [] := by
    refine List.eq_nil_of_length_eq_zero (Nat.eq_zero_of_not_pos fun hpos => hzero ⟨rfl, ?_⟩)
    exact Nat.succ_lt_succ hpos
  rfl

/-- A number is read as an integer if it has neither point nor exponent and its digits make a number
of 64 bits. -/
theorem of_readNumber_eq_integer {negative : Bool} {i : Int}
    (h : readNumber negative s = .ok (.integer i, rest)) :
    ∃ ds m, s = ds ++ rest ∧ IsNatural ds m ∧ EndsValue rest ∧ m < 2 ^ 64 ∧
      integer negative m = .ok (.integer i) := by
  simp only [readNumber, bind, Except.bind] at h
  split at h
  · cases h
  split at h
  · cases h
  split at h
  · exact absurd h readFraction_ne_integer
  split at h
  · exact absurd h readExponent_ne_integer
  split at h
  · next hdigits hleading hpoint hexponent hexcess =>
    split at h
    · cases h
    · next hinteger =>
      cases h
      have habsorb : absorb 0 (s.takeWhile Char.isDigit) =
          ((absorb 0 (s.takeWhile Char.isDigit)).1, []) :=
        Prod.ext rfl (List.isEmpty_iff.mp hexcess)
      obtain ⟨hvalue, hlt⟩ := of_absorb_eq_nil habsorb (by decide)
      have hall : IsDigits (s.takeWhile Char.isDigit) :=
        ⟨fun hnil => hdigits (List.isEmpty_iff.mpr hnil), fun c hc => List.mem_takeWhile_imp hc⟩
      have hends : EndsValue (s.dropWhile Char.isDigit) :=
        endsValue_iff.mpr ⟨Text.stops_dropWhile _ s, hpoint, Bool.eq_false_iff.mpr hexponent⟩
      exact ⟨_, _, List.takeWhile_append_dropWhile.symm, ⟨hall.isInteger hleading, hvalue⟩, hends,
        hlt, hinteger⟩
  · split at h
    · cases h
    · next hdouble =>
      cases h
      exact absurd hdouble double_ne_integer

/-- Only a number without a minus sign is natural: minus zero is a double. -/
theorem of_integer_eq_ofNat {negative : Bool} {m i : Nat}
    (h : integer negative m = .ok (.integer (.ofNat i))) : negative = false ∧ i = m := by
  rw [integer] at h
  split at h
  · next hpositive =>
    cases h
    exact ⟨hpositive, rfl⟩
  · split at h
    · exact absurd h double_ne_integer
    · next hm =>
      have hneg : -(m : Int) = .ofNat i := Number.integer.inj (Except.ok.inj h)
      have hi : Int.ofNat i = (i : Int) := rfl
      omega

theorem of_natural_eq_ok {m : Number} {x : UInt64} (h : natural m = .ok x) :
    ∃ i, m = .integer (.ofNat i) ∧ UInt64.ofNat i = x := by
  cases m with
  | integer i =>
    cases i with
    | ofNat i => exact ⟨i, rfl, Except.ok.inj h⟩
    | negSucc i => cases h
  | floating x => cases h

theorem of_readNumber_bind_natural {negative : Bool} {x : UInt64}
    (h : (readNumber negative s >>= fun p => natural p.1 >>= fun i => pure (i, p.2)) =
      .ok (x, rest)) :
    negative = false ∧ ∃ ds, s = ds ++ rest ∧ IsNatural ds x.toNat ∧ EndsValue rest := by
  cases hnumber : readNumber negative s with
  | error e => rw [hnumber] at h; cases h
  | ok p =>
    obtain ⟨m, u⟩ := p
    rw [hnumber] at h
    replace h : natural m >>= (fun i => pure (i, u)) = .ok (x, rest) := h
    cases hnatural : natural m with
    | error e => rw [hnatural] at h; cases h
    | ok y =>
      rw [hnatural] at h
      cases h
      obtain ⟨i, rfl, rfl⟩ := of_natural_eq_ok hnatural
      obtain ⟨ds, m, rfl, hds, hrest, hlt, hinteger⟩ := of_readNumber_eq_integer hnumber
      obtain ⟨hsign, rfl⟩ := of_integer_eq_ofNat hinteger
      refine ⟨hsign, ds, rfl, ?_, hrest⟩
      rwa [UInt64.toNat_ofNat_of_lt' hlt]

theorem mismatched_ne_ok {wanted : Wanted} {a : α} : mismatched wanted s ≠ .ok a := by
  rw [mismatched]
  cases findValue s with
  | error e => exact nofun
  | ok found => exact nofun

/-- **Natural numbers of 64 bits are read, and nothing else is.** -/
theorem readNatural_eq_ok_iff {x : UInt64} :
    readNatural s = .ok (x, rest) ↔
      ∃ w ds, s = w ++ (ds ++ rest) ∧ IsSpaces w ∧ IsNatural ds x.toNat ∧ EndsValue rest := by
  constructor
  · intro h
    have hs : s = s.takeWhile isSpace ++ skipSpace s := List.takeWhile_append_dropWhile.symm
    have hw : IsSpaces (s.takeWhile isSpace) := fun c hc => List.mem_takeWhile_imp hc
    suffices hread : ∃ ds, skipSpace s = ds ++ rest ∧ IsNatural ds x.toNat ∧ EndsValue rest by
      obtain ⟨ds, heq, hds⟩ := hread
      exact ⟨_, ds, heq ▸ hs, hw, hds⟩
    rw [readNatural] at h
    cases hskip : skipSpace s with
    | nil => simp only [hskip, reduceCtorEq] at h
    | cons c u =>
      simp only [hskip] at h
      by_cases hminus : c = '-'
      · rw [if_pos hminus] at h
        obtain ⟨hsign, -⟩ := of_readNumber_bind_natural h
        exact absurd hsign nofun
      rw [if_neg hminus] at h
      by_cases hdigit : c.isDigit
      · rw [if_pos hdigit] at h
        exact (of_readNumber_bind_natural h).2
      · rw [if_neg hdigit] at h
        exact absurd h mismatched_ne_ok
  · rintro ⟨w, ds, rfl, hw, hds, hrest⟩
    exact (reads_readNatural hds).read_eq hw hrest

/-- The digits of a natural number are a value. -/
theorem IsNatural.isValue (h : IsNatural ds n) : IsValue ds := by
  have hunsigned : IsUnsigned (ds ++ ([] ++ [])) := .mk h.1 .absent .absent
  rw [List.append_nil, List.append_nil] at hunsigned
  exact .number (.unsigned hunsigned)

/-- **Every other number is refused**: minus zero, numbers with a point or an exponent, negative
ones, and those beyond 64 bits. -/
theorem readNatural_of_isNumber (ht : IsNumber t) (hno : ∀ n < 2 ^ 64, ¬ IsNatural t n)
    (hw : IsSpaces w) (hrest : EndsValue rest) :
    ∃ e, readNatural (w ++ (t ++ rest)) = .error e := by
  cases hread : readNatural (w ++ (t ++ rest)) with
  | error e => exact ⟨e, rfl⟩
  | ok p =>
    obtain ⟨x, rest'⟩ := p
    obtain ⟨w', ds, heq, hw', hds, hrest'⟩ := readNatural_eq_ok_iff.mp hread
    -- A value that is skipped ends at one place, so the digits that were read are the number.
    have hskip := reads_skipValue (.number ht)
    have hskip' := reads_skipValue hds.isValue
    have hend : Except.ok ((), rest) = Except.ok (ε := Error) ((), rest') :=
      calc Except.ok ((), rest) = skipValue (w ++ (t ++ rest)) := (hskip.read_eq hw hrest).symm
        _ = skipValue (w' ++ (ds ++ rest')) := congrArg skipValue heq
        _ = Except.ok ((), rest') := hskip'.read_eq hw' hrest'
    obtain rfl : rest = rest' := (Prod.mk.inj (Except.ok.inj hend)).2
    have hstart : t ++ rest = ds ++ rest :=
      calc t ++ rest = skipSpace (w ++ (t ++ rest)) := (hskip.starts.skipSpace_append hw rest).symm
        _ = skipSpace (w' ++ (ds ++ rest)) := congrArg skipSpace heq
        _ = ds ++ rest := hskip'.starts.skipSpace_append hw' rest
    obtain rfl : t = ds := List.append_cancel_right hstart
    exact absurd hds (hno x.toNat x.toNat_lt)

/-- None of these spells a natural number, whatever its value. -/
example : ∀ t ∈ [['-', '0'], ['2', '.', '0'], ['1', 'e', '1']], ¬ IsInteger t := by decide

/-! ### Truth values and strings -/

/-- The word for a truth value. -/
def boolWord (b : Bool) : Text :=
  if b then ['t', 'r', 'u', 'e'] else ['f', 'a', 'l', 's', 'e']

theorem reads_readBool (b : Bool) : Reads readBool (boolWord b) b := by
  cases b with
  | true =>
    refine reads_of_cons rfl (by decide) fun {w rest} hw _ => ?_
    have hword : keyword ['r', 'u', 'e'] (['r', 'u', 'e'] ++ rest) = .ok ((), rest) :=
      keyword_append _ _
    simp only [readBool, skipSpace_append_cons hw (show isSpace 't' = false from rfl), if_true,
      hword]
    rfl
  | false =>
    refine reads_of_cons rfl (by decide) fun {w rest} hw _ => ?_
    have hword : keyword ['a', 'l', 's', 'e'] (['a', 'l', 's', 'e'] ++ rest) = .ok ((), rest) :=
      keyword_append _ _
    simp only [readBool, skipSpace_append_cons hw (show isSpace 'f' = false from rfl), if_true,
      hword]
    rfl

theorem reads_readText (h : SpellsText t s) : Reads readText ('"' :: (s ++ ['"'])) t := by
  refine reads_of_cons rfl (by decide) fun {w rest} hw _ => ?_
  simp only [readText, skipSpace_append_cons hw (show isSpace '"' = false from rfl), if_true,
    List.append_assoc]
  exact readString_of_spellsText h rest

/-! ### Arrays -/

variable {item : Reader α} {a : α} {as : List α} {ts : List Text}

theorem reads_readList (hts : List.Forall₂ (Reads item) ts as) (hu : Series true ts u) :
    Reads (readList item) ('[' :: (u ++ [']'])) as := by
  refine reads_of_cons rfl (by decide) fun {w rest} hw _ => ?_
  simp only [readList, skipSpace_append_cons hw (show isSpace '[' = false from rfl), if_true,
    List.append_assoc]
  exact items_of_series hts hu rest

theorem requiredItem_of_isLead {wanted : Wanted} {index : Nat} (hw : IsLead (index == 0) w)
    (ha : Reads item t a) (hrest : EndsValue rest) :
    requiredItem wanted index item (w ++ (t ++ rest)) = .ok (a, rest) := by
  simp only [requiredItem, nextItem_of_isLead hw ha.starts, bind, Except.bind,
    ha.read_append hrest]

theorem reads_readPair {x y : Text} (hx : Reads readText t x) (hy : Reads readText t' y)
    (hu : Series true [t, t'] u) : Reads readPair ('[' :: (u ++ [']'])) (x, y) := by
  refine reads_of_cons rfl (by decide) fun {w rest} hw _ => ?_
  cases hu with
  | @item _ v _ u _ hv hseries =>
    cases hseries with
    | @item _ v' _ u _ hv' hdone =>
      cases hdone with
      | done hu =>
        have hnext : Series false [t'] (v' ++ (t' ++ u)) := .item hv' (.done hu)
        have hclose : EndsValue (']' :: rest) := endsValue_cons rfl
        have hends := hnext.endsValue_append hclose
        rw [List.append_assoc, List.append_assoc] at hends
        have hfirst : requiredItem .pair 0 readText (v ++ (t ++ (v' ++ (t' ++ (u ++ ']' :: rest)))))
            = .ok (x, v' ++ (t' ++ (u ++ ']' :: rest))) :=
          requiredItem_of_isLead hv hx hends
        have hsecond : requiredItem .pair 1 readText (v' ++ (t' ++ (u ++ ']' :: rest)))
            = .ok (y, u ++ ']' :: rest) :=
          requiredItem_of_isLead hv' hy (hu.endsValue_append hclose)
        simp only [readPair, skipSpace_append_cons hw (show isSpace '[' = false from rfl), if_true,
          List.append_assoc, List.singleton_append, hfirst, hsecond, endArray_append hu, bind,
          Except.bind]
        rfl

/-! ### Fields -/

variable {member : σ → Text → Reader σ} {start state : σ} {finish : σ → Except Error α}
  {array : Reader α} {wanted : Wanted} {ms : List Member} {m : Member} {name : String}

/-- An opening brace decides for an object. -/
theorem readStruct_append (hw : IsSpaces w) (s : Text) :
    readStruct wanted member start finish array (w ++ '\x7b' :: s) = (do
      let (state, rest) ← members readString member start s
      return (← finish state, rest)) := by
  rw [readStruct, skipSpace_append_cons hw rfl]
  exact (if_neg (by decide)).trans (if_pos rfl)

/-- **A value with named fields** is read from an object whose members lead to it. -/
theorem reads_readStruct (hms : TakesAll readString member start ms state)
    (hfinish : finish state = .ok a) (hu : Series true (ms.map Member.text) u) :
    Reads (readStruct wanted member start finish array) ('\x7b' :: (u ++ ['\x7d'])) a := by
  refine reads_of_cons rfl (by decide) fun {w rest} hw _ => ?_
  rw [readStruct_append hw, List.append_assoc]
  simp only [List.singleton_append, members_of_series hms hu rest, bind, Except.bind, hfinish]
  rfl

/-- **A known field** is read for the first time. -/
theorem takes_field {read : Reader α} {store : α → σ}
    (hmember : member state t = field name none read store) (hkey : SpellsText t m.key)
    (hm : m.IsSpaced) (ha : Reads read m.value a) :
    Takes readString member state m (store a) := by
  refine ⟨t, readString_of_spellsText hkey, fun rest hrest => ?_⟩
  rw [hmember]
  simp only [field, hm.colon_behindKey, bind, Except.bind, ha.read_eq hm.2 hrest]
  rfl

/-- **An unknown field** changes nothing. -/
theorem takes_unknownField (hmember : member state t = unknownField state)
    (hkey : SpellsText t m.key) (hm : m.IsSpaced) (hvalue : IsValue m.value) :
    Takes readString member state m state := by
  refine ⟨t, readString_of_spellsText hkey, fun rest hrest => ?_⟩
  rw [hmember]
  simp only [unknownField, hm.colon_behindKey, bind, Except.bind,
    (reads_skipValue hvalue).read_eq hm.2 hrest]
  rfl

end TagTree.Json
