import TagTree.Layout.Draft
import Mathlib.Data.List.Basic

/-!
# The elements of a tree

What holds everywhere in a tree holds of each of its elements. `Element.subtrees` lists them in
document order, each with all that is inside it, so "everywhere" and "somewhere" are said by `∀` and
`∃` over one list, and facts about them are proved child by child. The defects of a tree are those
of its elements, in the order of this list.

## Main definitions

* `Element.subtrees`: the elements of a tree in document order.
* `Element.ownDefects`: the defects of an element that are not those of its children.

## Main results

* `Element.forall_mem_subtrees_iff`: everywhere is at the root and everywhere below.
* `Element.length_subtrees`: there are as many as the size of the tree.
* `Element.defects_eq_flatMap`: the defects of a tree, element by element.
-/

namespace TagTree.Element

mutual

/-- The elements of a tree in document order, the tree itself first. -/
def subtrees : Element → List Element
  | ⟨name, attributes, children⟩ => ⟨name, attributes, children⟩ :: subtreesAll children

/-- The elements of some trees in document order. -/
def subtreesAll : List Element → List Element
  | [] => []
  | c :: cs => subtrees c ++ subtreesAll cs

end

variable {e : Element} {es : List Element} {P : Element → Prop}

theorem subtreesAll_eq (es : List Element) : subtreesAll es = es.flatMap subtrees := by
  induction es with
  | nil => rfl
  | cons e es ih => rw [subtreesAll, ih, List.flatMap_cons]

theorem subtrees_eq (e : Element) : e.subtrees = e :: e.children.flatMap subtrees := by
  obtain ⟨name, attributes, children⟩ := e
  rw [subtrees, subtreesAll_eq]

theorem self_mem_subtrees (e : Element) : e ∈ e.subtrees := by
  rw [subtrees_eq]
  exact List.mem_cons_self

/-- What holds everywhere in a tree holds of its root and everywhere in its children. -/
theorem forall_mem_subtrees_iff :
    (∀ x ∈ e.subtrees, P x) ↔ P e ∧ ∀ c ∈ e.children, ∀ x ∈ c.subtrees, P x := by
  rw [subtrees_eq, List.forall_mem_cons]
  simp only [List.forall_mem_flatMap]

theorem length_subtreesAll (h : ∀ e ∈ es, e.subtrees.length = e.size) :
    (subtreesAll es).length = sizes es := by
  induction es with
  | nil => rfl
  | cons e es ih =>
    rw [subtreesAll, sizes, List.length_append, h e List.mem_cons_self,
      ih fun c hc => h c (List.mem_cons_of_mem _ hc)]

/-- A tree has as many elements as its size says. -/
theorem length_subtrees (e : Element) : e.subtrees.length = e.size := by
  induction e using Element.induction with
  | node name attributes children ih =>
    rw [subtrees, size, List.length_cons, length_subtreesAll ih, Nat.add_comm]

/-! ### Defects -/

/-- The defects of an element itself: of its name, then of its attributes. -/
def ownDefects (e : Element) : List WriteError :=
  nameDefects e.name ++ e.attributes.flatMap attributeDefects

theorem defectsAll_eq_flatMap (h : ∀ e ∈ es, e.defects = e.subtrees.flatMap ownDefects) :
    defectsAll es = (subtreesAll es).flatMap ownDefects := by
  induction es with
  | nil => rfl
  | cons e es ih =>
    rw [defectsAll, subtreesAll, List.flatMap_append, h e List.mem_cons_self,
      ih fun c hc => h c (List.mem_cons_of_mem _ hc)]

/-- **The defects of a tree are those of its elements**, in document order. -/
theorem defects_eq_flatMap (e : Element) : e.defects = e.subtrees.flatMap ownDefects := by
  induction e using Element.induction with
  | node name attributes children ih =>
    rw [defects, subtrees, List.flatMap_cons, defectsAll_eq_flatMap ih, ownDefects]

end TagTree.Element
