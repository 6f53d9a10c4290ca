import TagTree.Element.Json
import TagTree.Proofs.Json.Typed

/-!
# Elements survive being written as JSON

What is written for an element is an object with three members, without space. Each of its parts is
a spelling of what it was written for: names and values are strings that spell them, attributes are
pairs, and the members lead the reader of an element from no member to all three. Children are read
by the same reader with one level less, and a level takes characters, so the length of the text is
always enough.

## Main definitions

* `Element.jsonMembers`: the members that are written for an element.

## Main results

* `Element.reads_readWithin_toJson`: what is written for an element is read as the element, with as
  many levels as it has characters.
* `Element.ofJson_toJson`: the same for whole texts.
-/

namespace TagTree.Element

open Json (Member Reader Reads TakesAll)

variable {depth : Nat}

/-! ### Strings, arrays and attributes -/

theorem reads_readText_writeString (t : Text) : Reads Json.readText (Json.writeString t) t :=
  Json.reads_readText (Json.spellsText_flatMap_writeChar t)

/-- What is written for some values is read as their list. -/
theorem reads_readList_jsonArray {α : Type} {item : Reader α} {write : α → Text} {as : List α}
    (h : ∀ a ∈ as, Reads item (write a) a) :
    Reads (Json.readList item) (jsonArray (as.map write)) as :=
  Json.reads_readList (List.forall₂_map_left_iff.mpr (List.forall₂_same.mpr h))
    (Json.series_intercalate _)

theorem reads_readAttribute (a : Attribute) : Reads readAttribute (attributeJson a) a := by
  have hpair : Reads Json.readPair (attributeJson a) (a.name, a.value) :=
    Json.reads_readPair (reads_readText_writeString a.name) (reads_readText_writeString a.value)
      (Json.series_intercalate _)
  refine ⟨hpair.starts, fun {w rest} hw hrest => ?_⟩
  simp only [readAttribute, hpair.read_eq hw hrest, bind, Except.bind]
  rfl

/-! ### Members -/

/-- The members that are written for an element. -/
def jsonMembers (e : Element) : List Member :=
  [.compact "name".toList (Json.writeString e.name),
    .compact "attributes".toList (jsonArray (e.attributes.map attributeJson)),
    .compact "children".toList (jsonArray (e.children.map toJson))]

theorem toJsons_eq_map (cs : List Element) : toJsons cs = cs.map toJson := by
  induction cs with
  | nil => rw [toJsons, List.map_nil]
  | cons c cs ih => rw [toJsons, List.map_cons, ih]

/-- An element is written as an object of its members. -/
theorem toJson_eq (e : Element) :
    e.toJson = '\x7b' :: (List.intercalate [','] (e.jsonMembers.map Member.text) ++ ['\x7d']) := by
  obtain ⟨name, attributes, children⟩ := e
  have hname : "\x7b\"name\":".toList = '\x7b' :: '"' :: ("name".toList ++ ['"', ':']) := rfl
  have hattributes : ",\"attributes\":".toList =
      ',' :: '"' :: ("attributes".toList ++ ['"', ':']) := rfl
  have hchildren : ",\"children\":".toList =
      ',' :: '"' :: ("children".toList ++ ['"', ':']) := rfl
  -- The recursion goes through the list of children, so the equation is left to computation.
  have hparts : toJson ⟨name, attributes, children⟩ =
      "\x7b\"name\":".toList ++ Json.writeString name ++
        ",\"attributes\":".toList ++ jsonArray (attributes.map attributeJson) ++
        ",\"children\":".toList ++ jsonArray (toJsons children) ++ ['\x7d'] := rfl
  rw [hparts, hname, hattributes, hchildren, toJsons_eq_map]
  simp only [jsonMembers, List.map_cons, List.map_nil, Member.text_compact,
    List.intercalate_cons_cons, List.intercalate_singleton, List.nil_append, List.append_assoc,
    List.cons_append]

/-- Children are shorter than the element. -/
theorem length_toJson_lt {e c : Element} (h : c ∈ e.children) :
    c.toJson.length < e.toJson.length := by
  let items := List.intercalate [','] (e.children.map toJson)
  let m : Member := .compact "children".toList (jsonArray (e.children.map toJson))
  let members := List.intercalate [','] (e.jsonMembers.map Member.text)
  have hitem : c.toJson.length ≤ items.length :=
    (Json.series_intercalate _).length_le _ (List.mem_map_of_mem h)
  have hvalue : m.value.length ≤ m.text.length := m.length_value_le
  have hm : m ∈ e.jsonMembers := List.mem_of_getLast? rfl
  have hmember : m.text.length ≤ members.length :=
    (Json.series_intercalate _).length_le _ (List.mem_map_of_mem hm)
  have harray : m.value.length = items.length + 2 := by
    simp [m, items, Member.compact, jsonArray]
  have hobject : e.toJson.length = members.length + 2 := by
    rw [toJson_eq, List.length_cons, List.length_append, List.length_singleton]
  omega

/-- From no member read, the members of an element lead to all its parts. -/
theorem takesAll_jsonMembers (e : Element) {child : Reader Element}
    (h : ∀ c ∈ e.children, Reads child c.toJson c) :
    TakesAll Json.readString (Fields.read child) Fields.none e.jsonMembers
      ⟨e.name, e.attributes, e.children⟩ := by
  have hname : Fields.read child Fields.none "name".toList =
      Json.field "name" none Json.readText fun t => ⟨some t, none, none⟩ := if_pos rfl
  have hattributes : Fields.read child ⟨some e.name, none, none⟩ "attributes".toList =
      Json.field "attributes" none (Json.readList readAttribute)
        fun as => ⟨some e.name, some as, none⟩ := (if_neg (by decide)).trans (if_pos rfl)
  have hchildren : Fields.read child ⟨some e.name, some e.attributes, none⟩ "children".toList =
      Json.field "children" none (Json.readList child)
        fun cs => ⟨some e.name, some e.attributes, some cs⟩ :=
    (if_neg (by decide)).trans ((if_neg (by decide)).trans (if_pos rfl))
  refine .cons (Json.takes_field hname (Json.spellsText_self rfl) (Member.isSpaced_compact _ _)
    (reads_readText_writeString e.name)) ?_
  refine .cons (Json.takes_field hattributes (Json.spellsText_self rfl)
    (Member.isSpaced_compact _ _) (reads_readList_jsonArray fun a _ => reads_readAttribute a)) ?_
  exact .cons (Json.takes_field hchildren (Json.spellsText_self rfl) (Member.isSpaced_compact _ _)
    (reads_readList_jsonArray h)) .nil

/-! ### Elements -/

/-- What is written for an element is read with as many levels as it has characters. -/
theorem reads_readWithin_toJson (e : Element) (hdepth : e.toJson.length ≤ depth) :
    Reads (readWithin depth) e.toJson e := by
  induction e using Element.induction generalizing depth with
  | node name attributes children ih =>
    let e : Element := ⟨name, attributes, children⟩
    have hdepth : e.toJson.length ≤ depth := hdepth
    cases depth with
    | zero =>
      rw [toJson_eq] at hdepth
      exact absurd hdepth (Nat.not_succ_le_zero _)
    | succ depth =>
      have hchildren : ∀ c ∈ e.children, Reads (readWithin depth) c.toJson c := by
        intro c hc
        have hlt : c.toJson.length < e.toJson.length := length_toJson_lt hc
        exact ih c hc (by omega)
      rw [toJson_eq]
      exact Json.reads_readStruct (takesAll_jsonMembers e hchildren) rfl
        (Json.series_intercalate _)

/-- **What is written for an element is read as the element.** -/
theorem ofJson_toJson (e : Element) : ofJson e.toJson = .ok e := by
  have hread := reads_readWithin_toJson e (Nat.le_succ _)
  have hwhole := Json.whole_of_reads hread Json.isSpaces_nil Json.isSpaces_nil
  rwa [List.nil_append, List.append_nil] at hwhole

end TagTree.Element
