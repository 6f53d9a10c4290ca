import TagTree.Json.Skip
import TagTree.Proofs.Json.Reads
import TagTree.Proofs.Json.Strings

/-!
# Values are skipped as they are spelled

A value that is not wanted is read to its end and dropped, whatever it is. It may be nested to any
depth: the depth is bounded by the number of characters, and a spelling is longer than the spellings
inside it.

## Main results

* `Json.skipNumber_append`: numbers of all forms are skipped.
* `Json.reads_skipWithin`: values are skipped with as many levels as they have characters.
* `Json.reads_skipValue`: values are skipped.
-/

namespace TagTree.Json

variable {c : Char} {t u w ds rest : Text}

/-! ### Words -/

theorem keyword_append (word rest : Text) : keyword word (word ++ rest) = .ok ((), rest) := by
  induction word with
  | nil => rfl
  | cons c word ih =>
    rw [List.cons_append, keyword, if_pos rfl]
    exact ih

/-! ### Numbers -/

theorem EndsValue.stops_isDigit (h : EndsValue rest) : Text.Stops Char.isDigit rest := by
  intro c hc
  have hstops := h c hc
  simp only [continuesNumber, Bool.or_eq_false_iff] at hstops
  exact hstops.1.1.1

theorem EndsValue.startsExponent_eq (h : EndsValue rest) : startsExponent rest = false := by
  cases rest with
  | nil => rfl
  | cons c rest =>
    have hstops := Text.stops_cons.mp h
    simp only [continuesNumber, Bool.or_eq_false_iff, beq_eq_false_iff_ne] at hstops
    simp [startsExponent, hstops]

theorem EndsValue.head?_ne (h : EndsValue rest) : rest.head? ≠ some '.' := by
  intro hpoint
  exact absurd (h '.' hpoint) (by decide)

theorem IsDigits.skipDigits_append (hds : IsDigits ds) (h : Text.Stops Char.isDigit rest) :
    skipDigits (ds ++ rest) = .ok ((), rest) := by
  obtain ⟨d, u, rfl, hd⟩ := hds.exists_cons
  have hu : ∀ c ∈ u, c.isDigit = true := fun c hc => hds.2 c (List.mem_cons_of_mem d hc)
  have hdrop : (u ++ rest).dropWhile Char.isDigit = rest :=
    (Text.takeWhile_dropWhile_eq_iff.mpr ⟨rfl, hu, h⟩).2
  rw [List.cons_append, skipDigits]
  simp only [hd, if_true, hdrop]

/-- What may stand behind digits is no digit. -/
theorem IsExponent.stops_isDigit (h : IsExponent t) (hrest : EndsValue rest) :
    Text.Stops Char.isDigit (t ++ rest) := by
  cases h with
  | absent => exact hrest.stops_isDigit
  | present he =>
    rcases he with rfl | rfl <;> exact Text.stops_cons.mpr rfl

theorem skipExponent_append (h : IsExponent t) (hrest : EndsValue rest) :
    skipExponent (t ++ rest) = .ok ((), rest) := by
  cases h with
  | absent =>
    rw [List.nil_append, skipExponent, hrest.startsExponent_eq]
    rfl
  | @present e sign ds he hsign hds =>
    have hstart : startsExponent (e :: (sign ++ ds) ++ rest) = true := by
      rcases he with rfl | rfl <;> rfl
    have hdigits := hds.skipDigits_append hrest.stops_isDigit
    obtain ⟨d, u, rfl, hd⟩ := hds.exists_cons
    have hminus : d ≠ '-' := by
      rintro rfl
      exact absurd hd (by decide)
    have hplus : d ≠ '+' := by
      rintro rfl
      exact absurd hd (by decide)
    rw [skipExponent, if_pos hstart]
    rcases hsign with rfl | rfl | rfl
    · simpa [hminus, hplus] using hdigits
    · simpa using hdigits
    · simpa using hdigits

/-- What may stand behind the integer part of a number is no digit. -/
theorem IsFraction.stops_isDigit (h : IsFraction t) (hrest : Text.Stops Char.isDigit rest) :
    Text.Stops Char.isDigit (t ++ rest) := by
  cases h with
  | absent => exact hrest
  | present _ => exact Text.stops_cons.mpr rfl

theorem IsExponent.head?_append_ne (h : IsExponent t) (hrest : EndsValue rest) :
    (t ++ rest).head? ≠ some '.' := by
  cases h with
  | absent => exact hrest.head?_ne
  | present he =>
    rcases he with rfl | rfl <;> simp

/-- **Numbers of all forms are skipped.** -/
theorem skipNumber_append (h : IsUnsigned t) (hrest : EndsValue rest) :
    skipNumber (t ++ rest) = .ok ((), rest) := by
  cases h with
  | @mk ds f e hds hf he =>
    have hexponent := skipExponent_append he hrest
    have hstops := hf.stops_isDigit (he.stops_isDigit hrest)
    have hdigits := hds.1.skipDigits_append hstops
    have hzero : ¬ ((ds ++ (f ++ (e ++ rest))).head? = some '0' ∧
        f ++ (e ++ rest) ≠ (ds ++ (f ++ (e ++ rest))).tail) := by
      rintro ⟨hhead, htail⟩
      rw [List.head?_append_of_ne_nil _ hds.1.1] at hhead
      rw [hds.2 hhead] at htail
      exact htail rfl
    rw [List.append_assoc, List.append_assoc, skipNumber]
    simp only [hdigits, bind, Except.bind, if_neg hzero]
    cases hf with
    | absent => rw [List.nil_append, if_neg (he.head?_append_ne hrest), hexponent]
    | @present ds' hds' =>
      have hfraction := hds'.skipDigits_append (he.stops_isDigit hrest)
      rw [List.cons_append, List.head?_cons, if_pos rfl, List.tail_cons, hfraction]
      exact hexponent

/-! ### Values -/

theorem ne_of_isDigit {d x : Char} (hd : d.isDigit = true) (hx : x.isDigit = false) : d ≠ x := by
  rintro rfl
  rw [hd] at hx
  cases hx

theorem IsUnsigned.exists_cons (h : IsUnsigned t) : ∃ d u, t = d :: u ∧ d.isDigit = true := by
  cases h with
  | mk hds hf he =>
    obtain ⟨d, u, rfl, hd⟩ := hds.1.exists_cons
    exact ⟨d, _, rfl, hd⟩

theorem isSpace_of_isDigit {d : Char} (hd : d.isDigit = true) : isSpace d = false := by
  simp [isSpace, ne_of_isDigit hd]

variable {depth : Nat}

/-- Digits decide against the other kinds of values. -/
theorem reads_skipWithin_number (h : IsNumber t) : Reads (skipWithin (depth + 1)) t () := by
  cases h with
  | unsigned ht =>
    obtain ⟨d, u, rfl, hd⟩ := ht.exists_cons
    refine reads_of_cons (isSpace_of_isDigit hd) (ne_of_isDigit hd rfl) fun hw hrest => ?_
    have hnull : d ≠ 'n' := ne_of_isDigit hd rfl
    have htrue : d ≠ 't' := ne_of_isDigit hd rfl
    have hfalse : d ≠ 'f' := ne_of_isDigit hd rfl
    have hquote : d ≠ '"' := ne_of_isDigit hd rfl
    have hminus : d ≠ '-' := ne_of_isDigit hd rfl
    rw [skipWithin, skipSpace_append_cons hw (isSpace_of_isDigit hd)]
    simp only [if_neg hnull, if_neg htrue, if_neg hfalse, if_neg hquote, if_neg hminus, if_pos hd]
    exact skipNumber_append ht hrest
  | minus ht =>
    refine reads_of_cons rfl (by decide) fun hw hrest => ?_
    rw [skipWithin, skipSpace_append_cons hw rfl]
    exact skipNumber_append ht hrest

/-- The members of an object that is skipped are read for nothing but their form. -/
theorem takesAll_of_forall {σ κ : Type} {key : Reader κ} {member : σ → κ → Reader σ} {state : σ}
    {ms : List Member} (h : ∀ m ∈ ms, Takes key member state m state) :
    TakesAll key member state ms state := by
  induction ms with
  | nil => exact .nil
  | cons m ms ih =>
    exact .cons (h m List.mem_cons_self) (ih fun m' hm' => h m' (List.mem_cons_of_mem _ hm'))

theorem Member.length_value_le (m : Member) : m.value.length ≤ m.text.length := by
  simp only [text, behindKey, List.length_cons, List.length_append]
  omega

theorem reads_skipWithin_word (ht : t ∈ words) : Reads (skipWithin (depth + 1)) t () := by
  simp only [words, List.mem_cons, List.not_mem_nil, or_false] at ht
  rcases ht with rfl | rfl | rfl
  all_goals
    refine reads_of_cons rfl (by decide) fun hw _ => ?_
    rw [skipWithin, skipSpace_append_cons hw rfl]
    exact keyword_append _ _

theorem reads_skipWithin_string {s : Text} (hs : IsString s) :
    Reads (skipWithin (depth + 1)) ('"' :: (s ++ ['"'])) () :=
  reads_of_cons rfl (by decide) fun {w rest} hw _ => by
    rw [skipWithin, skipSpace_append_cons hw rfl, List.append_assoc]
    exact skipString_of_isString hs rest

theorem reads_skipWithin_array {ts : List Text} (hts : ∀ t ∈ ts, Reads (skipWithin depth) t ())
    (hu : Series true ts u) : Reads (skipWithin (depth + 1)) ('[' :: (u ++ [']'])) () := by
  have hitems : List.Forall₂ (Reads (skipWithin depth)) ts (ts.map fun _ => ()) :=
    List.forall₂_map_right_iff.mpr (List.forall₂_same.mpr hts)
  refine reads_of_cons rfl (by decide) fun {w rest} hw _ => ?_
  have hread : (items (skipWithin depth) (u ++ ']' :: rest)).map (fun p => ((), p.2)) =
      .ok ((), rest) := by
    rw [items_of_series hitems hu]
    rfl
  rw [skipWithin, skipSpace_append_cons hw rfl, List.append_assoc]
  exact hread

theorem reads_skipWithin_object {ms : List Member} (hspaced : ∀ m ∈ ms, m.IsSpaced)
    (hkeys : ∀ m ∈ ms, IsString m.key) (hvalues : ∀ m ∈ ms, Reads (skipWithin depth) m.value ())
    (hu : Series true (ms.map Member.text) u) :
    Reads (skipWithin (depth + 1)) ('\x7b' :: (u ++ ['\x7d'])) () := by
  have htakes : TakesAll skipString
      (fun _ _ s => (colon s).bind fun p => skipWithin depth p.2) () ms () := by
    refine takesAll_of_forall fun m hm => ⟨(), skipString_of_isString (hkeys m hm), ?_⟩
    intro rest hrest
    simp only [(hspaced m hm).colon_behindKey, Except.bind]
    exact (hvalues m hm).read_eq (hspaced m hm).2 hrest
  refine reads_of_cons rfl (by decide) fun {w rest} hw _ => ?_
  rw [skipWithin, skipSpace_append_cons hw rfl, List.append_assoc]
  exact members_of_series htakes hu rest

/-- **Values are skipped** with as many levels as they have characters. -/
theorem reads_skipWithin (h : IsValue t) (hdepth : t.length ≤ depth + 1) :
    Reads (skipWithin (depth + 1)) t () := by
  induction h generalizing depth with
  | word ht => exact reads_skipWithin_word ht
  | number ht => exact reads_skipWithin_number ht
  | string hs => exact reads_skipWithin_string hs
  | @array ts u hts hu ih =>
    -- The brackets take characters of their own, so one level less is enough for the items.
    rw [List.length_cons, List.length_append, List.length_singleton] at hdepth
    obtain ⟨depth, rfl⟩ : ∃ k, depth = k + 1 := ⟨depth - 1, by omega⟩
    refine reads_skipWithin_array (fun t ht => ih t ht ?_) hu
    have hle := hu.length_le t ht
    omega
  | @object ms u hspaced hkeys hvalues hu ih =>
    rw [List.length_cons, List.length_append, List.length_singleton] at hdepth
    obtain ⟨depth, rfl⟩ : ∃ k, depth = k + 1 := ⟨depth - 1, by omega⟩
    refine reads_skipWithin_object hspaced hkeys (fun m hm => ih m hm ?_) hu
    have hle := hu.length_le m.text (List.mem_map_of_mem hm)
    have hvalue := m.length_value_le
    omega

/-- **Values are skipped**, of any kind and depth. -/
theorem reads_skipValue (h : IsValue t) : Reads skipValue t () where
  starts := (reads_skipWithin h (Nat.le_succ _)).starts
  read_eq {w rest} hw hrest := by
    have hlong : t.length ≤ (w ++ (t ++ rest)).length + 1 := by
      rw [List.length_append, List.length_append]
      omega
    exact (reads_skipWithin h hlong).read_eq hw hrest

end TagTree.Json
