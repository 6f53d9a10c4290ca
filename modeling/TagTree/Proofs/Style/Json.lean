import TagTree.Layout.Draft
import TagTree.Style.Json
import TagTree.Proofs.Json.Typed

/-!
# Styles are read from all their spellings

An object that describes a style has entries: each gives the value of a field, or is unknown and
holds any value. In whatever order they stand, the reader has after each of them the values that
were given so far, since a value is stored where it belongs and an unknown member is skipped. So the
whole object is read as the values that it gives and the defaults for the others, and a field that
comes a second time is found in the state and turned down, whatever stands behind its key.

Two things look like entries and are none. A key with a single surrogate spells no text, so it is
neither the key of a field nor another one. And a number in the place of a width may be no natural
number of 64 bits. Both are turned down.

## Main definitions

* `Style.Field`: the fields, with their keys, the types of their values and their spellings.
* `Style.Entry`, `Style.given`: the entries of an object, and the values that they give.
* `Style.Spells`: the spellings of some entries.
* `Style.fieldsOf`: what has been read behind some entries.

## Main results

* `Style.takesAll_of_forall₂`: entries are read in any order.
* `Style.ofJson_of_spells`: a style is read from every spelling.
* `Style.ofJson_of_repeated`: a field that is given twice is turned down.
* `Style.ofJson_of_unspelled_key`, `Style.ofJson_of_unnatural`: so are keys that spell no text, and
  numbers that are no width.
* `Style.ofJson_spelled`: both, and what is written for a style is read as the style.
-/

namespace TagTree.Style

open Json (IsLead IsNumber IsSpaces IsString IsValue Member Reader Reads Series SpellsText Takes
  TakesAll)

/-! ### Fields -/

/-- The fields of a style. -/
inductive Field where
  | indentWidth
  | pretty
  | selfClose
deriving DecidableEq, Repr

namespace Field

/-- The key of a field. -/
def name : Field → String
  | indentWidth => "indent_spaces"
  | pretty => "pretty"
  | selfClose => "self_close_empty"

/-- Keys need no escapes. -/
theorem spellsText_name (f : Field) : SpellsText f.name.toList f.name.toList :=
  Json.spellsText_self (by cases f <;> decide +kernel)

/-- The values of a field. -/
abbrev Value : Field → Type
  | indentWidth => UInt64
  | pretty => Bool
  | selfClose => Bool

/-- The reader of a field. -/
def read : (f : Field) → Reader f.Value
  | indentWidth => Json.readNatural
  | pretty => Json.readBool
  | selfClose => Json.readBool

/-- The spellings of a value of a field. -/
def Spells : (f : Field) → f.Value → Text → Prop
  | indentWidth, n, t => Json.IsNatural t n.toNat
  | pretty, b, t => t = Json.boolWord b
  | selfClose, b, t => t = Json.boolWord b

theorem reads_of_spells {f : Field} {v : f.Value} {t : Text} (h : f.Spells v t) :
    Reads f.read t v := by
  cases f with
  | indentWidth => exact Json.reads_readNatural h
  | pretty =>
    obtain rfl : t = Json.boolWord v := h
    exact Json.reads_readBool v
  | selfClose =>
    obtain rfl : t = Json.boolWord v := h
    exact Json.reads_readBool v

end Field

namespace Fields

/-- The value of a field that has been read. -/
def get (s : Fields) : (f : Field) → Option f.Value
  | .indentWidth => s.indentWidth
  | .pretty => s.pretty
  | .selfClose => s.selfClose

/-- The members read so far with one more. -/
def set (s : Fields) : (f : Field) → f.Value → Fields
  | .indentWidth, n => ⟨some n, s.pretty, s.selfClose⟩
  | .pretty, b => ⟨s.indentWidth, some b, s.selfClose⟩
  | .selfClose, b => ⟨s.indentWidth, s.pretty, some b⟩

/-- Behind the key of a field stands its value. -/
theorem read_known (s : Fields) (f : Field) :
    s.read f.name.toList = Json.field f.name (s.get f) f.read (s.set f) := by
  cases f with
  | indentWidth => exact if_pos rfl
  | pretty => exact (if_neg (by decide)).trans (if_pos rfl)
  | selfClose => exact (if_neg (by decide)).trans ((if_neg (by decide)).trans (if_pos rfl))

/-- Every other key is unknown. -/
theorem read_unknown (s : Fields) {t : Text} (ht : ∀ f : Field, t ≠ f.name.toList) :
    s.read t = Json.unknownField s :=
  (if_neg (ht .indentWidth)).trans ((if_neg (ht .pretty)).trans (if_neg (ht .selfClose)))

end Fields

/-! ### Entries -/

/-- An entry of an object: the value of a field, or something else. -/
inductive Entry where
  | known (f : Field) (v : f.Value)
  | unknown

namespace Entry

/-- The field that an entry gives. -/
def field? : Entry → Option Field
  | known f _ => some f
  | unknown => none

/-- The value that an entry gives to a field. -/
def value? (f : Field) : Entry → Option f.Value
  | known g v => if h : g = f then some (h ▸ v) else none
  | unknown => none

/-- The spellings of an entry: the key of a field with its value, or any other key with any value.
Every key spells a text, so its surrogates come in pairs, while the strings inside the value of an
unknown entry may have single ones. A width is spelled by the digits of a natural number: `-0`,
`2.0` and `1e1` are numbers and spell none. -/
inductive SpelledBy : Entry → Member → Prop
  | known {m : Member} {f : Field} {v : f.Value} (hspaced : m.IsSpaced)
      (hkey : SpellsText f.name.toList m.key) (hvalue : f.Spells v m.value) :
      SpelledBy (known f v) m
  | unknown {m : Member} {t : Text} (hspaced : m.IsSpaced) (hkey : SpellsText t m.key)
      (ht : ∀ f : Field, t ≠ f.name.toList) (hvalue : IsValue m.value) : SpelledBy unknown m

/-- A value behind its key, without space. -/
theorem spelledBy_compact {f : Field} {v : f.Value} {t : Text} (h : f.Spells v t) :
    (known f v).SpelledBy (.compact f.name.toList t) :=
  .known (Member.isSpaced_compact _ _) f.spellsText_name h

end Entry

/-- The value that some entries give to a field. -/
def given (es : List Entry) (f : Field) : Option f.Value :=
  es.findSome? (Entry.value? f)

/-- What stands between the braces of an object with these entries. -/
def Spells (es : List Entry) (u : Text) : Prop :=
  ∃ ms, List.Forall₂ Entry.SpelledBy es ms ∧ Series true (ms.map Member.text) u

/-- The members that have been read behind some entries. -/
def fieldsOf (es : List Entry) : Fields :=
  ⟨given es .indentWidth, given es .pretty, given es .selfClose⟩

variable {es seen : List Entry} {e : Entry} {f : Field} {v : f.Value} {m : Member}
  {ms : List Member} {u w w' k lead rest : Text}

theorem get_fieldsOf (es : List Entry) (f : Field) : (fieldsOf es).get f = given es f := by
  cases f <;> rfl

theorem given_eq_none (h : f ∉ es.filterMap Entry.field?) : given es f = none := by
  refine List.findSome?_eq_none_iff.mpr fun e he => ?_
  cases e with
  | known g v =>
    have hg : g ≠ f := by
      rintro rfl
      exact h (List.mem_filterMap.mpr ⟨_, he, rfl⟩)
    exact dif_neg hg
  | unknown => rfl

theorem isSome_given (h : .known f v ∈ es) : (given es f).isSome = true := by
  rw [given, List.findSome?_isSome_iff]
  exact ⟨_, h, by simp [Entry.value?]⟩

theorem given_append_singleton (es : List Entry) (e : Entry) (f : Field) :
    given (es ++ [e]) f = (given es f).or (e.value? f) := by
  rw [given, List.findSome?_append, List.findSome?_singleton]
  rfl

/-- The value of a new field joins the others. -/
theorem fieldsOf_known (h : given es f = none) (v : f.Value) :
    fieldsOf (es ++ [.known f v]) = (fieldsOf es).set f v := by
  unfold fieldsOf
  simp only [given_append_singleton]
  cases f with
  | indentWidth => simp [h, Entry.value?, Fields.set]
  | pretty => simp [h, Entry.value?, Fields.set]
  | selfClose => simp [h, Entry.value?, Fields.set]

theorem fieldsOf_unknown (es : List Entry) : fieldsOf (es ++ [.unknown]) = fieldsOf es := by
  simp only [fieldsOf, given_append_singleton, Entry.value?, Option.or_none]

/-- One entry is read behind others that do not give its field. -/
theorem takes_of_spelledBy (h : e.SpelledBy m)
    (hnew : ∀ f, e.field? = some f → f ∉ seen.filterMap Entry.field?) :
    Takes Json.readString Fields.read (fieldsOf seen) m (fieldsOf (seen ++ [e])) := by
  cases h with
  | @known _ f v hspaced hkey hvalue =>
    have hnone : given seen f = none := given_eq_none (hnew f rfl)
    have hread := (fieldsOf seen).read_known f
    rw [get_fieldsOf, hnone] at hread
    rw [fieldsOf_known hnone]
    exact Json.takes_field hread hkey hspaced (Field.reads_of_spells hvalue)
  | @unknown _ t hspaced hkey ht hvalue =>
    rw [fieldsOf_unknown]
    exact Json.takes_unknownField ((fieldsOf seen).read_unknown ht) hkey hspaced hvalue

/-- **Entries are read in any order**, behind others that do not give their fields. -/
theorem takesAll_of_forall₂ (h : List.Forall₂ Entry.SpelledBy es ms)
    (hnodup : ((seen ++ es).filterMap Entry.field?).Nodup) :
    TakesAll Json.readString Fields.read (fieldsOf seen) ms (fieldsOf (seen ++ es)) := by
  induction h generalizing seen with
  | nil =>
    rw [List.append_nil]
    exact .nil
  | @cons e m es ms he _ ih =>
    -- The state holds the fields of `seen` only, and this entry gives none of them.
    have hnew : ∀ f, e.field? = some f → f ∉ seen.filterMap Entry.field? := by
      intro f hf hseen
      rw [List.filterMap_append, List.filterMap_cons_some hf] at hnodup
      exact (List.nodup_append.mp hnodup).2.2 f hseen f List.mem_cons_self rfl
    have hsplit : seen ++ e :: es = seen ++ [e] ++ es := by
      rw [List.append_assoc, List.singleton_append]
    rw [hsplit] at hnodup ⊢
    exact .cons (takes_of_spelledBy he hnew) (ih hnodup)

/-- From no member read, the members of an object lead to what its entries give. -/
theorem takesAll_of_spells (h : Spells es u) (hnodup : (es.filterMap Entry.field?).Nodup) :
    ∃ ms, TakesAll Json.readString Fields.read Fields.none ms (fieldsOf es) ∧
      Series true (ms.map Member.text) u ∧ ms.length = es.length := by
  obtain ⟨ms, hms, hu⟩ := h
  have htakes : TakesAll Json.readString Fields.read (fieldsOf []) ms (fieldsOf ([] ++ es)) :=
    takesAll_of_forall₂ hms hnodup
  exact ⟨ms, htakes, hu, hms.length_eq.symm⟩

/-! ### Objects -/

/-- **A style is read from every spelling**: what is given, and the defaults for the rest. -/
theorem ofJson_of_spells (h : Spells es u) (hnodup : (es.filterMap Entry.field?).Nodup)
    (hw : IsSpaces w) (hw' : IsSpaces w') :
    ofJson (w ++ ('\x7b' :: (u ++ ['\x7d']) ++ w')) = .ok (fieldsOf es).style := by
  obtain ⟨ms, htakes, hu, -⟩ := takesAll_of_spells h hnodup
  let read := Json.readStruct .style Fields.read Fields.none (fun f => .ok f.style) readItems
  have hread : Reads read ('\x7b' :: (u ++ ['\x7d'])) (fieldsOf es).style :=
    Json.reads_readStruct htakes rfl hu
  exact Json.whole_of_reads hread hw hw'

/-- What is turned down behind some entries, at a key or behind it, is the first problem. -/
theorem ofJson_of_error (h : Spells es u) (hnodup : (es.filterMap Entry.field?).Nodup)
    (hw : IsSpaces w) (hlead : IsLead es.isEmpty lead) {x : Json.Error}
    (herror : ((Json.readString rest).bind fun p => (fieldsOf es).read p.1 p.2) = .error x) :
    ofJson (w ++ '\x7b' :: (u ++ (lead ++ '"' :: rest))) = .error x := by
  obtain ⟨ms, htakes, hu, hlength⟩ := takesAll_of_spells h hnodup
  have hempty : ms.isEmpty = es.isEmpty := by
    rw [Bool.eq_iff_iff, List.isEmpty_iff_length_eq_zero, hlength, List.isEmpty_iff_length_eq_zero]
  have hmembers := Json.members_of_error htakes hu (hempty ▸ hlead) herror
  rw [ofJson, Json.whole, Json.readStruct_append hw, hmembers]
  rfl

/-- **A field that is given twice is turned down**, whatever stands behind its second key. -/
theorem ofJson_of_repeated (h : Spells es u) (hnodup : (es.filterMap Entry.field?).Nodup)
    (hmem : .known f v ∈ es) (hw : IsSpaces w) (hw' : IsSpaces w')
    (hk : SpellsText f.name.toList k) (rest : Text) :
    ofJson (w ++ '\x7b' :: (u ++ ',' :: (w' ++ '"' :: (k ++ '"' :: rest)))) =
      .error (.mismatch (.duplicateField f.name)) := by
  have hlead : IsLead es.isEmpty (',' :: w') := by
    rw [List.isEmpty_eq_false_iff.mpr (List.ne_nil_of_mem hmem)]
    exact .next Json.isSpaces_nil hw'
  obtain ⟨v', hv'⟩ := Option.isSome_iff_exists.mp (isSome_given hmem)
  refine ofJson_of_error h hnodup hw hlead ?_
  rw [Json.readString_of_spellsText hk, Except.bind, Fields.read_known, get_fieldsOf, hv']
  rfl

/-- **A key that spells no text is turned down**, as that of a known field and of an unknown one. -/
theorem ofJson_of_unspelled_key (h : Spells es u) (hnodup : (es.filterMap Entry.field?).Nodup)
    (hw : IsSpaces w) (hlead : IsLead es.isEmpty lead) (hk : IsString k)
    (hno : ∀ t, ¬ SpellsText t k) (rest : Text) :
    ofJson (w ++ '\x7b' :: (u ++ (lead ++ '"' :: (k ++ '"' :: rest)))) = .error .malformed := by
  refine ofJson_of_error h hnodup hw hlead ?_
  rw [Json.readString_of_isString hk hno]
  rfl

/-- **A number that is no natural number of 64 bits is turned down** as an indentation: minus zero,
numbers with a point or an exponent, negative numbers and numbers that are too large. -/
theorem ofJson_of_unnatural (h : Spells es u) (hnodup : (es.filterMap Entry.field?).Nodup)
    (hw : IsSpaces w) (hlead : IsLead es.isEmpty lead) (hm : m.IsSpaced)
    (hkey : SpellsText Field.indentWidth.name.toList m.key) (hvalue : IsNumber m.value)
    (hno : ∀ n < 2 ^ 64, ¬ Json.IsNatural m.value n) (hrest : Json.EndsValue rest) :
    ∃ x, ofJson (w ++ '\x7b' :: (u ++ (lead ++ (m.text ++ rest)))) = .error x := by
  have htext : m.text ++ rest = '"' :: (m.key ++ '"' :: (m.behindKey ++ rest)) := by
    simp only [Member.text, List.cons_append, List.append_assoc]
  suffices hread : ∃ x, (fieldsOf es).read Field.indentWidth.name.toList (m.behindKey ++ rest) =
      .error x by
    obtain ⟨x, hx⟩ := hread
    refine ⟨x, ?_⟩
    rw [htext]
    refine ofJson_of_error h hnodup hw hlead ?_
    rw [Json.readString_of_spellsText hkey]
    exact hx
  obtain ⟨x, hx⟩ := Json.readNatural_of_isNumber hvalue hno hm.2 hrest
  rw [Fields.read_known, get_fieldsOf]
  cases given es .indentWidth with
  | some n => exact ⟨_, rfl⟩
  | none =>
    refine ⟨x, ?_⟩
    simp only [Json.field, hm.colon_behindKey, bind, Except.bind, Field.read, hx]

/-! ### Writing -/

/-- The entries that are written for a style. -/
def entries (style : Style) : List Entry :=
  [.known .indentWidth style.indentWidth, .known .pretty style.pretty,
    .known .selfClose style.selfClose]

/-- The members that are written for a style. -/
def jsonMembers (style : Style) : List Member :=
  [.compact Field.indentWidth.name.toList (Nat.toDigits 10 style.indentWidth.toNat),
    .compact Field.pretty.name.toList (boolText style.pretty).toList,
    .compact Field.selfClose.name.toList (boolText style.selfClose).toList]

/-- A style is written as an object of its members. -/
theorem toJson_eq_intercalate (style : Style) :
    style.toJson =
      '\x7b' :: (List.intercalate [','] (style.jsonMembers.map Member.text) ++ ['\x7d']) := by
  have hindentWidth : "\x7b\"indent_spaces\":".toList =
      '\x7b' :: '"' :: (Field.indentWidth.name.toList ++ ['"', ':']) := rfl
  have hpretty : ",\"pretty\":".toList =
      ',' :: '"' :: (Field.pretty.name.toList ++ ['"', ':']) := rfl
  have hselfClose : ",\"self_close_empty\":".toList =
      ',' :: '"' :: (Field.selfClose.name.toList ++ ['"', ':']) := rfl
  unfold toJson
  rw [hindentWidth, hpretty, hselfClose]
  simp only [jsonMembers, List.map_cons, List.map_nil, Member.text_compact,
    List.intercalate_cons_cons, List.intercalate_singleton, List.nil_append, List.append_assoc,
    List.cons_append]

theorem toList_boolText (b : Bool) : (boolText b).toList = Json.boolWord b := by
  cases b <;> rfl

/-- What is written for a style spells its entries. -/
theorem spells_jsonMembers (style : Style) :
    Spells style.entries (List.intercalate [','] (style.jsonMembers.map Member.text)) := by
  refine ⟨style.jsonMembers, ?_, Json.series_intercalate _⟩
  have hpretty : Field.pretty.Spells style.pretty (boolText style.pretty).toList :=
    toList_boolText _
  have hselfClose : Field.selfClose.Spells style.selfClose (boolText style.selfClose).toList :=
    toList_boolText _
  exact .cons (Entry.spelledBy_compact (Json.isNatural_toDigits _))
    (.cons (Entry.spelledBy_compact hpretty) (.cons (Entry.spelledBy_compact hselfClose) .nil))

/-- What is written for a style is read as the style. -/
theorem ofJson_written (style : Style) : ofJson style.toJson = .ok style := by
  have hnodup : (style.entries.filterMap Entry.field?).Nodup := by
    change [Field.indentWidth, Field.pretty, Field.selfClose].Nodup
    decide
  have hstyle : (fieldsOf style.entries).style = style := rfl
  have hread := ofJson_of_spells (spells_jsonMembers style) hnodup Json.isSpaces_nil
    Json.isSpaces_nil
  rwa [List.nil_append, List.append_nil, ← toJson_eq_intercalate, hstyle] at hread

/-! ### All spellings -/

/-- **Styles are read from all their spellings.** An object that gives every field at most once,
with unknown members anywhere in between, is read as the style with the values given; what is
missing is two spaces and true. A field that is given a second time is turned down at its key,
whatever value and members follow. What is written for a style is read as the style.

The key of an unknown member has to spell a text, and a width is a natural number without sign,
point and exponent. What is neither is turned down (`ofJson_of_unspelled_key`,
`ofJson_of_unnatural`). -/
theorem ofJson_spelled :
    (∀ (es : List Entry) (u w w' : Text), Spells es u → (es.filterMap Entry.field?).Nodup →
      IsSpaces w → IsSpaces w' → ofJson (w ++ ('\x7b' :: (u ++ ['\x7d']) ++ w')) =
        .ok ⟨(given es .indentWidth).getD 2, (given es .pretty).getD true,
          (given es .selfClose).getD true⟩) ∧
    (∀ (es : List Entry) (f : Field) (v : f.Value) (u w w' k rest : Text), Spells es u →
      (es.filterMap Entry.field?).Nodup → .known f v ∈ es → IsSpaces w → IsSpaces w' →
      SpellsText f.name.toList k →
      (ofJson (w ++ '\x7b' :: (u ++ ',' :: (w' ++ '"' :: (k ++ '"' :: rest))))).mapError .style =
        .error (WriteError.style (.mismatch (.duplicateField f.name)))) ∧
    ∀ style : Style, ofJson style.toJson = .ok style := by
  refine ⟨fun es u w w' h hnodup hw hw' => ofJson_of_spells h hnodup hw hw', ?_, ofJson_written⟩
  intro es f v u w w' k rest h hnodup hmem hw hw' hk
  rw [ofJson_of_repeated h hnodup hmem hw hw' hk rest]
  rfl

/-- The widest indentation, behind an unknown member. -/
theorem spells_widest :
    Spells [.unknown, .known .pretty false, .known .indentWidth 18446744073709551615]
      "\"a\":[null], \"pretty\" : false,\"indent_spaces\":18446744073709551615".toList := by
  let a : Member := .compact "a".toList "[null]".toList
  let pretty : Member := ⟨Field.pretty.name.toList, [' '], [' '], "false".toList⟩
  let indentWidth : Member :=
    .compact Field.indentWidth.name.toList "18446744073709551615".toList
  have hnull : IsValue "null".toList := .word (by decide)
  have harray : IsValue a.value :=
    .array (List.forall_mem_singleton.mpr hnull) (Json.series_intercalate ["null".toList])
  have ha : Entry.unknown.SpelledBy a :=
    .unknown (Member.isSpaced_compact _ _) (Json.spellsText_self rfl)
      (fun f => by cases f <;> decide) harray
  have hpretty : (Entry.known .pretty false).SpelledBy pretty :=
    .known ⟨by decide, by decide⟩ (Field.spellsText_name _) rfl
  have hdigits : Json.IsNatural "18446744073709551615".toList 18446744073709551615 := by decide
  have hindentWidth : (Entry.known .indentWidth 18446744073709551615).SpelledBy indentWidth :=
    Entry.spelledBy_compact hdigits
  have hseries : Series true [a.text, pretty.text, indentWidth.text]
      ([] ++ (a.text ++ ([',', ' '] ++ (pretty.text ++ ([','] ++ (indentWidth.text ++ [])))))) :=
    .item (.first (by decide)) (.item (.next Json.isSpaces_nil (by decide))
      (.item (.next Json.isSpaces_nil (by decide)) (.done (by decide))))
  exact ⟨[a, pretty, indentWidth],
    .cons ha (.cons hpretty (.cons hindentWidth .nil)), hseries⟩

/-- It is read with the default for the field that is missing, and turned down when `pretty` comes
again. -/
theorem ofJson_spelled_widest :
    ofJson ("\x7b\"a\":[null], \"pretty\" : false," ++
      "\"indent_spaces\":18446744073709551615\x7d\n").toList =
        .ok ⟨18446744073709551615, false, true⟩ ∧
    (ofJson ("\x7b\"a\":[null], \"pretty\" : false," ++
      "\"indent_spaces\":18446744073709551615, \"pretty\":[").toList).mapError .style =
        .error (WriteError.style (.mismatch (.duplicateField "pretty"))) := by
  obtain ⟨hread, hrepeated, -⟩ := ofJson_spelled
  have hwhole := hread _ _ [] ['\n'] spells_widest (by decide) (by decide) (by decide)
  have htwice := hrepeated _ .pretty false _ [] [' '] Field.pretty.name.toList ":[".toList
    spells_widest (by decide) (List.mem_cons_of_mem _ List.mem_cons_self) (by decide) (by decide)
    (Field.spellsText_name _)
  constructor
  · refine Eq.trans (congrArg ofJson ?_) hwhole
    decide +kernel
  · refine Eq.trans (congrArg (fun s => (ofJson s).mapError WriteError.style) ?_) htwice
    decide +kernel

end TagTree.Style
