import TagTree.Layout.Draft
import TagTree.Style
import Mathlib.Data.List.Basic

/-!
# What drafts say

The text of an element, given outright by recursion on the tree (`Element.layout`): the level of a
line is an argument here and no state, and neither texts nor numbers have an end. Marks say a text
too, from any level on (`Mark.shownAll`). The draft of an element says the text of the element and
leads back to the level on which it began, except that it ends at the first defect of the element;
then it says no more than the beginning of this text (`Element.begun`).

## Main definitions

* `Style.lineBreak`: the end of a line and the indentation of the next one.
* `Attribute.written`, `Element.layout`: attributes and elements as they are written.
* `Mark.shownAll`, `Mark.levelAfterAll`: what marks say, and the level behind them.
* `Draft.Leads`: a draft that says a text between two levels, or the beginning of it.
* `Element.begun`: the text of an element up to its first defect.

## Main results

* `Element.defect_draft`: a draft ends at the first defect in document order.
* `Element.leads_draft`: what the draft of an element says, and that it keeps its level.
* `Element.begun_prefix_layout`, `Element.begun_of_defects_eq_nil`: where the text of an element
  ends.
-/

namespace TagTree

/-! ### The text of an element -/

/-- The end of a line and the indentation of the next one, in a style that breaks lines. -/
def Style.lineBreak (style : Style) (level : Nat) : Text :=
  if style.pretty then '\n' :: List.replicate (level * style.indentWidth.toNat) ' ' else []

theorem Style.lineBreak_of_pretty {style : Style} (h : style.pretty = true) (level : Nat) :
    style.lineBreak level = '\n' :: List.replicate (level * style.indentWidth.toNat) ' ' :=
  if_pos h

theorem Style.lineBreak_of_oneLine {style : Style} (h : ¬ style.pretty = true) (level : Nat) :
    style.lineBreak level = [] :=
  if_neg h

/-- The end of a line takes a byte, and the indentation of the next one a byte for each space. -/
theorem Style.utf8Size_lineBreak {style : Style} (hpretty : style.pretty = true) (level : Nat) :
    (style.lineBreak level).utf8Size = level * style.indentWidth.toNat + 1 := by
  have hnewline : '\n'.utf8Size = 1 := rfl
  calc (style.lineBreak level).utf8Size
      = '\n'.utf8Size + Text.utf8Size (List.replicate (level * style.indentWidth.toNat) ' ') := by
        rw [Style.lineBreak_of_pretty hpretty]
        rfl
    _ = level * style.indentWidth.toNat + 1 := by
        rw [hnewline, Text.utf8Size_replicate_space, Nat.add_comm]

/-- An attribute as it is written, after one space. -/
def Attribute.written (a : Attribute) : Text :=
  ' ' :: a.name ++ ['=', '"'] ++ a.value ++ ['"']

namespace Element

mutual

/-- An element as it is written on a line of the given level. -/
def layout (style : Style) (level : Nat) : Element → Text
  | ⟨name, attributes, children⟩ =>
    '<' :: name ++ attributes.flatMap Attribute.written ++
      match children with
      | [] => if style.selfClose then ['/', '>'] else ['>', '<', '/'] ++ name ++ ['>']
      | c :: cs =>
        ['>'] ++ layouts style (level + 1) (c :: cs) ++ style.lineBreak level ++
          ['<', '/'] ++ name ++ ['>']

/-- Elements as they are written one after the other, each on a line of its own. -/
def layouts (style : Style) (level : Nat) : List Element → Text
  | [] => []
  | c :: cs => style.lineBreak level ++ layout style level c ++ layouts style level cs

end

/-! ### Elements without defects -/

variable {e : Element}

theorem nameDefects_eq_nil_iff {n : Text} : nameDefects n = [] ↔ isName n = true := by
  by_cases h : isName n = true
  · rw [nameDefects, if_pos h]
    simp only [h]
  · rw [nameDefects, if_neg h]
    simp only [h, reduceCtorEq]

theorem attributeDefects_eq_nil_iff {a : Attribute} :
    attributeDefects a = [] ↔ isName a.name = true ∧ '"' ∉ a.value := by
  rw [attributeDefects, List.append_eq_nil_iff, nameDefects_eq_nil_iff]
  refine and_congr Iff.rfl ?_
  by_cases h : '"' ∈ a.value
  · rw [if_pos h]
    simp only [h, reduceCtorEq, not_true_eq_false]
  · rw [if_neg h]
    simp only [h, not_false_eq_true]

theorem defectsAll_eq_nil_iff {es : List Element} :
    defectsAll es = [] ↔ ∀ e ∈ es, e.defects = [] := by
  induction es with
  | nil => simp [defectsAll]
  | cons e es ih => rw [defectsAll, List.append_eq_nil_iff, ih, List.forall_mem_cons]

/-- An element has no defects if it has a name, all its attributes have names and values without
quotes, and its children have no defects. -/
theorem defects_eq_nil_iff :
    e.defects = [] ↔ isName e.name = true ∧
      (∀ a ∈ e.attributes, isName a.name = true ∧ '"' ∉ a.value) ∧
      ∀ c ∈ e.children, c.defects = [] := by
  obtain ⟨name, attributes, children⟩ := e
  rw [defects, List.append_eq_nil_iff, List.append_eq_nil_iff, nameDefects_eq_nil_iff,
    List.flatMap_eq_nil_iff, defectsAll_eq_nil_iff, and_assoc]
  simp only [attributeDefects_eq_nil_iff]

end Element

/-! ### The defect of a draft -/

namespace Draft

theorem defect_name (n : Text) : (name n).defect = (Element.nameDefects n).head? := by
  rw [name, Element.nameDefects]
  split <;> rfl

theorem defect_nameValue (a : Attribute) :
    (nameValue a).defect = (Element.attributeDefects a).head? := by
  rw [nameValue, Element.attributeDefects, defect_append, defect_append, defect_name,
    List.head?_append]
  split <;> simp [write, mark, empty, halt]

theorem defect_attributes (as : List Attribute) :
    (attributes as).defect = (as.flatMap Element.attributeDefects).head? := by
  induction as with
  | nil => rfl
  | cons a as ih =>
    rw [attributes, defect_append, defect_nameValue, ih, List.flatMap_cons, List.head?_append]

theorem defect_childless (selfClose : Bool) (n : Text) : (childless selfClose n).defect = none := by
  rw [childless]
  split <;> rfl

end Draft

namespace Element

/-- The draft of a list of children ends at their first defect if the drafts of its members do. -/
theorem defect_drafts {selfClose : Bool} {es : List Element}
    (h : ∀ e ∈ es, (e.draft selfClose).defect = e.defects.head?) :
    (drafts selfClose es).defect = (defectsAll es).head? := by
  induction es with
  | nil => rfl
  | cons e es ih =>
    rw [drafts, defectsAll, Draft.defect_append, Draft.defect_append, h e List.mem_cons_self,
      ih fun e he => h e (List.mem_cons_of_mem _ he), List.head?_append]
    rfl

/-- **A draft ends at the first defect.** -/
theorem defect_draft (selfClose : Bool) (e : Element) :
    (e.draft selfClose).defect = e.defects.head? := by
  induction e using Element.induction with
  | node name attributes children ih =>
    cases children with
    | nil =>
      simp only [draft, defects, defectsAll, Draft.defect_append, Draft.defect_name,
        Draft.defect_attributes, Draft.defect_childless, List.head?_append, List.append_nil]
      simp [Draft.write, Draft.mark]
    | cons c cs =>
      have hchildren := defect_drafts ih
      simp only [draft, defects, Draft.defect_append, Draft.defect_name, Draft.defect_attributes,
        hchildren, List.head?_append]
      simp [Draft.write, Draft.mark, Draft.endTag]

end Element

/-! ### What marks say -/

namespace Mark

/-- What a mark says on a level. -/
def shown (style : Style) (level : Nat) : Mark → Text
  | text t => t
  | lineBreak => style.lineBreak level
  | stepIn | stepOut => []

/-- The level behind a mark. -/
def levelAfter (level : Nat) : Mark → Nat
  | stepIn => level + 1
  | stepOut => level - 1
  | text _ | lineBreak => level

/-- What marks say one after the other, the first one on the level `level`. -/
def shownAll (style : Style) : Nat → List Mark → Text
  | _, [] => []
  | level, m :: ms => m.shown style level ++ shownAll style (m.levelAfter level) ms

/-- The level behind marks. -/
def levelAfterAll (level : Nat) (ms : List Mark) : Nat :=
  ms.foldl levelAfter level

@[simp] theorem shownAll_nil (style : Style) (level : Nat) : shownAll style level [] = [] :=
  rfl

theorem shownAll_append (style : Style) (level : Nat) (ms ns : List Mark) :
    shownAll style level (ms ++ ns) =
      shownAll style level ms ++ shownAll style (levelAfterAll level ms) ns := by
  induction ms generalizing level with
  | nil => rfl
  | cons m ms ih =>
    rw [List.cons_append, shownAll, ih, shownAll, List.append_assoc]
    rfl

theorem levelAfterAll_append (level : Nat) (ms ns : List Mark) :
    levelAfterAll level (ms ++ ns) = levelAfterAll (levelAfterAll level ms) ns :=
  List.foldl_append

/-- Only steps change the level. -/
theorem levelAfter_eq {m : Mark} (hin : m ≠ stepIn) (hout : m ≠ stepOut) (level : Nat) :
    m.levelAfter level = level := by
  cases m with
  | stepIn => exact absurd rfl hin
  | stepOut => exact absurd rfl hout
  | _ => rfl

end Mark

/-! ### What drafts say -/

namespace Draft

open Mark (shownAll levelAfterAll)

variable {a b d : Draft} {style : Style} {level level' level'' : Nat} {t u : Text}

/-- The draft says a text and leads from one level to another. If it ends at a defect, it says the
beginning of the text. -/
structure Leads (d : Draft) (style : Style) (level : Nat) (t : Text) (level' : Nat) : Prop where
  begins : shownAll style level d.marks <+: t
  shown : d.defect = none → shownAll style level d.marks = t
  back : d.defect = none → levelAfterAll level d.marks = level'

/-- A draft that ends at a defect leads wherever it does not get. -/
theorem Leads.of_defect {x : WriteError} (hdefect : d.defect = some x)
    (h : shownAll style level d.marks <+: t) : d.Leads style level t level' := by
  refine ⟨h, fun hnone => ?_, fun hnone => ?_⟩ <;> rw [hdefect] at hnone <;> cases hnone

theorem Leads.append (ha : a.Leads style level t level') (hb : b.Leads style level' u level'') :
    (a ++ b).Leads style level (t ++ u) level'' := by
  cases hdefect : a.defect with
  | some x =>
    rw [append_of_defect hdefect]
    exact .of_defect hdefect (ha.begins.trans (List.prefix_append t u))
  | none =>
    have hshown : shownAll style level (a.marks ++ b.marks) =
        t ++ shownAll style level' b.marks := by
      rw [Mark.shownAll_append, ha.shown hdefect, ha.back hdefect]
    rw [append_of_sound hdefect]
    refine ⟨?_, fun hnone => ?_, fun hnone => ?_⟩
    · rw [hshown]
      exact (List.prefix_append_right_inj t).mpr hb.begins
    · rw [hshown, hb.shown hnone]
    · rw [Mark.levelAfterAll_append, ha.back hdefect, hb.back hnone]

theorem leads_empty (style : Style) (level : Nat) : empty.Leads style level [] level :=
  ⟨List.prefix_rfl, fun _ => rfl, fun _ => rfl⟩

theorem leads_halt (x : WriteError) (t : Text) : (halt x).Leads style level t level' :=
  .of_defect rfl (List.nil_prefix)

theorem leads_mark (m : Mark) (style : Style) (level : Nat) :
    (mark m).Leads style level (m.shown style level) (m.levelAfter level) := by
  have hshown : shownAll style level [m] = m.shown style level := List.append_nil _
  exact ⟨hshown ▸ List.prefix_rfl, fun _ => hshown, fun _ => rfl⟩

theorem leads_write (t : Text) (style : Style) (level : Nat) :
    (write t).Leads style level t level :=
  leads_mark (.text t) style level

theorem leads_name (n : Text) (style : Style) (level : Nat) :
    (name n).Leads style level [] level := by
  rw [name]
  split
  · exact leads_empty style level
  · exact leads_halt _ []

theorem leads_nameValue (x : Attribute) (style : Style) (level : Nat) :
    (nameValue x).Leads style level x.written level := by
  have hvalue : (if '"' ∈ x.value then halt (.invalidValue x.name x.value) else empty).Leads style
      level [] level := by
    split
    · exact leads_halt _ []
    · exact leads_empty style level
  exact ((leads_name x.name style level).append hvalue).append (leads_write x.written style level)

theorem leads_attributes (as : List Attribute) (style : Style) (level : Nat) :
    (attributes as).Leads style level (as.flatMap Attribute.written) level := by
  induction as with
  | nil => exact leads_empty style level
  | cons x as ih =>
    rw [List.flatMap_cons]
    exact (leads_nameValue x style level).append ih

theorem leads_childless (n : Text) (style : Style) (level : Nat) :
    (childless style.selfClose n).Leads style level
      (if style.selfClose then ['/', '>'] else ['>', '<', '/'] ++ n ++ ['>']) level := by
  rw [childless]
  split <;> exact leads_write _ style level

theorem leads_endTag (n : Text) (style : Style) (level : Nat) :
    (endTag n).Leads style level (['<', '/'] ++ n ++ ['>']) level :=
  leads_write _ style level

end Draft

namespace Element

open Draft

variable {e : Element}

/-- The drafts of children say their lines if the draft of each says one. -/
theorem leads_drafts {style : Style} {level : Nat} {es : List Element}
    (h : ∀ e ∈ es, (e.draft style.selfClose).Leads style level (e.layout style level) level) :
    (drafts style.selfClose es).Leads style level (layouts style level es) level := by
  induction es with
  | nil => exact leads_empty style level
  | cons e es ih =>
    have hfirst := (leads_mark .lineBreak style level).append (h e List.mem_cons_self)
    exact hfirst.append (ih fun c hc => h c (List.mem_cons_of_mem _ hc))

/-- **What the draft of an element says.** It is the text of the element on the level on which the
draft begins, and a draft without defect leads back to this level. -/
theorem leads_draft (style : Style) (level : Nat) (e : Element) :
    (e.draft style.selfClose).Leads style level (e.layout style level) level := by
  induction e using Element.induction generalizing level with
  | node name attributes children ih =>
    have hstart : (Draft.name name ++ Draft.write ['<'] ++ Draft.write name ++
        Draft.attributes attributes).Leads style level
          ('<' :: name ++ attributes.flatMap Attribute.written) level :=
      (((leads_name name style level).append (leads_write ['<'] style level)).append
        (leads_write name style level)).append (leads_attributes attributes style level)
    cases children with
    | nil => exact hstart.append (leads_childless name style level)
    | cons c cs =>
      have hlines := leads_drafts fun e he => ih e he (level + 1)
      -- The step out takes back the step in, so that the rest is said on the first level again.
      have hinside := (((leads_write ['>'] style level).append
        (leads_mark .stepIn style level)).append hlines).append
          (leads_mark .stepOut style (level + 1))
      have hall := hstart.append ((hinside.append (leads_mark .lineBreak style level)).append
        (leads_endTag name style level))
      simpa only [draft, layout, Mark.shown, List.append_nil, List.append_assoc] using hall

/-- The text of an element up to its first defect. -/
def begun (style : Style) (e : Element) : Text :=
  Mark.shownAll style 0 (e.draft style.selfClose).marks

/-- What stands before the first defect is the beginning of the text. -/
theorem begun_prefix_layout (style : Style) (e : Element) : e.begun style <+: e.layout style 0 :=
  (leads_draft style 0 e).begins

/-- Without a defect nothing is left out. -/
theorem begun_of_defects_eq_nil (he : e.defects = []) (style : Style) :
    e.begun style = e.layout style 0 := by
  refine (leads_draft style 0 e).shown ?_
  rw [defect_draft, he, List.head?_nil]

end Element

end TagTree
