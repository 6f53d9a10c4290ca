import TagTree.Text

/-!
# Elements

An element has a name, a list of attributes and a list of child elements. Attributes keep their
order and may repeat; an element without children is childless however it was written.

## Main definitions

* `Attribute`, `Element`: the tree.
* `Element.attribute?`, `Element.childrenCalled`: looking parts up by name.
* `Element.addAttribute`, `Element.addChild`, `Element.replaceChildren`: building trees.
* `Element.size`, `Element.depth`: the number of elements of a tree and of its levels.
-/

namespace TagTree

/-- An attribute: a name and a value without its quotes. -/
structure Attribute where
  name : Text
  value : Text
deriving DecidableEq, Repr

/-- An element with its attributes and its children, in document order. -/
structure Element where
  name : Text
  attributes : List Attribute
  children : List Element
deriving Repr

namespace Element

/-! ### Equality -/

mutual

/-- Equality of elements is decided part by part. -/
def decEq : (a b : Element) → Decidable (a = b)
  | ⟨n, as, cs⟩, ⟨m, bs, ds⟩ =>
    match decEqList cs ds with
    | .isTrue hc => decidable_of_iff (n = m ∧ as = bs) (by subst hc; simp)
    | .isFalse hc => .isFalse fun h => hc (by cases h; rfl)

/-- Equality of lists of elements is decided member by member. -/
def decEqList : (cs ds : List Element) → Decidable (cs = ds)
  | [], [] => .isTrue rfl
  | [], _ :: _ => .isFalse nofun
  | _ :: _, [] => .isFalse nofun
  | c :: cs, d :: ds =>
    match decEq c d, decEqList cs ds with
    | .isTrue h, .isTrue h' => .isTrue (by rw [h, h'])
    | .isFalse h, _ => .isFalse fun heq => h (List.cons.inj heq).1
    | _, .isFalse h => .isFalse fun heq => h (List.cons.inj heq).2

end

instance : DecidableEq Element := decEq

/-! ### Induction -/

/-- **Induction on elements.** A property that an element has as soon as all its children have it
holds of every element. -/
theorem induction {motive : Element → Prop}
    (node : ∀ name attributes children, (∀ c ∈ children, motive c) →
      motive ⟨name, attributes, children⟩) (e : Element) : motive e :=
  Element.rec (motive_1 := motive) (motive_2 := fun cs => ∀ c ∈ cs, motive c)
    (fun name attributes children ih => node name attributes children ih)
    (fun _ h => absurd h List.not_mem_nil)
    (fun _ _ hc hcs _ h => (List.mem_cons.mp h).elim (fun heq => heq ▸ hc) (hcs _)) e

/-! ### Building -/

/-- An element with a name and nothing else. -/
def named (name : Text) : Element :=
  ⟨name, [], []⟩

/-- The element with one more attribute at the end. -/
def addAttribute (e : Element) (name value : Text) : Element :=
  ⟨e.name, e.attributes ++ [⟨name, value⟩], e.children⟩

/-- The element with one more child at the end. -/
def addChild (e child : Element) : Element :=
  ⟨e.name, e.attributes, e.children ++ [child]⟩

/-- The element with these children in place of its own. -/
def replaceChildren (e : Element) (children : List Element) : Element :=
  ⟨e.name, e.attributes, children⟩

/-! ### Looking up -/

/-- The value of the first attribute of that name. -/
def attribute? (e : Element) (name : Text) : Option Text :=
  (e.attributes.find? fun a => a.name == name).map Attribute.value

/-- The children of that name, in order. -/
def childrenCalled (e : Element) (name : Text) : List Element :=
  e.children.filter fun c => c.name == name

/-- Whether the element has no children. -/
def isChildless (e : Element) : Bool :=
  e.children.isEmpty

/-! ### Measures -/

mutual

/-- The number of elements in a tree. -/
def size : Element → Nat
  | ⟨_, _, children⟩ => 1 + sizes children

/-- The number of elements in a list of trees. -/
def sizes : List Element → Nat
  | [] => 0
  | c :: cs => size c + sizes cs

end

mutual

/-- The number of levels of a tree: one for a childless element. -/
def depth : Element → Nat
  | ⟨_, _, children⟩ => 1 + depths children

/-- The number of levels of the deepest of some trees. -/
def depths : List Element → Nat
  | [] => 0
  | c :: cs => max (depth c) (depths cs)

end

end Element

end TagTree
