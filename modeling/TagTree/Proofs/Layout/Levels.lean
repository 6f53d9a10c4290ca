import TagTree.Proofs.Layout.Written

/-!
# The levels of a draft

The level of a pen is a counter that does not fall below zero, so a step out on level zero would be
lost, and every line behind it would be indented too far. In the draft of an element this cannot
happen. Steps come in pairs around the lines of the children: a step out is only ever taken where a
step in has led further in than the element began, and after the last mark the level is the one on
which it began. In between, the level rises by the number of levels of the element below its root.

A defect may cut a draft short between the two steps of a pair. Then the level stays further in, and
is never further out than it began.

## Main definitions

* `Draft.Closed`: properties that drafts have as soon as their pieces have them.
* `Mark.StaysIn`: marks that keep to some levels, and take no step out on the lowest.
* `Draft.Paired`: drafts in which every step out takes back a step in.

## Main results

* `Draft.Closed.draft`: what the pieces of a draft have, the draft of an element has.
* `Draft.Paired.append`, `Draft.Paired.between_steps`: drafts put together from paired ones.
* `Element.paired_draft`: the draft of an element is paired, with or without defects.
-/

namespace TagTree

namespace Element

theorem depth_le_depths {c : Element} {cs : List Element} (h : c ∈ cs) : c.depth ≤ depths cs := by
  induction cs with
  | nil => cases h
  | cons d cs ih =>
    rcases List.mem_cons.mp h with rfl | h
    · exact Nat.le_max_left _ _
    · exact Nat.le_trans (ih h) (Nat.le_max_right _ _)

theorem depth_pos (e : Element) : 0 < e.depth := by
  obtain ⟨name, attributes, children⟩ := e
  rw [depth]
  omega

end Element

namespace Draft

theorem append_assoc (a b c : Draft) : a ++ b ++ c = a ++ (b ++ c) := by
  cases ha : a.defect with
  | some x => rw [append_of_defect ha, append_of_defect ha, append_of_defect ha]
  | none =>
    cases hb : b.defect with
    | some x =>
      have hab : (a ++ b).defect = some x := by rw [defect_append, ha, hb, Option.none_or]
      rw [append_of_defect hab, append_of_defect hb]
    | none =>
      have hab : (a ++ b).defect = none := by rw [defect_append, ha, hb, Option.none_or]
      rw [append_of_sound hab, append_of_sound hb, append_of_sound ha, append_of_sound ha,
        List.append_assoc]

/-! ### Drafts of elements, piece by piece -/

/-- A property of drafts that the pieces have and that putting them together keeps, where `n` counts
the levels that a draft goes further in. Steps only stand around the lines of children, so that a
step in comes behind the last character of a tag and next to the end of a line. -/
structure Closed (P : Nat → Draft → Prop) : Prop where
  empty (n : Nat) : P n empty
  halt (n : Nat) (x : WriteError) : P n (halt x)
  write (n : Nat) (t : Text) : P n (write t)
  lineBreak (n : Nat) : P n (mark .lineBreak)
  append {n : Nat} {a b : Draft} : P n a → P n b → P n (a ++ b)
  indented {n : Nat} {d : Draft} : P n d → P (n + 1)
    (Draft.write ['>'] ++ (mark .stepIn ++ (mark .lineBreak ++ d) ++ mark .stepOut))

namespace Closed

variable {P : Nat → Draft → Prop} {selfClose : Bool} {n : Nat}

theorem name (hP : Closed P) (n : Nat) (t : Text) : P n (Draft.name t) := by
  rw [Draft.name]
  split
  · exact hP.empty n
  · exact hP.halt n _

theorem nameValue (hP : Closed P) (n : Nat) (x : Attribute) : P n (Draft.nameValue x) := by
  have hvalue : P n (if '"' ∈ x.value then Draft.halt (.invalidValue x.name x.value)
      else Draft.empty) := by
    split
    · exact hP.halt n _
    · exact hP.empty n
  exact hP.append (hP.append (hP.name n x.name) hvalue) (hP.write n _)

theorem attributes (hP : Closed P) (n : Nat) (as : List Attribute) : P n (Draft.attributes as) := by
  induction as with
  | nil => exact hP.empty n
  | cons x as ih => exact hP.append (hP.nameValue n x) ih

theorem childless (hP : Closed P) (n : Nat) (t : Text) : P n (Draft.childless selfClose t) := by
  rw [Draft.childless]
  split <;> exact hP.write n _

theorem drafts (hP : Closed P) {es : List Element} (h : ∀ e ∈ es, P n (e.draft selfClose)) :
    P n (Element.drafts selfClose es) := by
  induction es with
  | nil => exact hP.empty n
  | cons e es ih =>
    have hfirst : P n (mark .lineBreak ++ e.draft selfClose) :=
      hP.append (hP.lineBreak n) (h e List.mem_cons_self)
    exact hP.append hfirst (ih fun c hc => h c (List.mem_cons_of_mem _ hc))

/-- **What the pieces have, the draft of an element has.** -/
theorem draft (hP : Closed P) (selfClose : Bool) (e : Element) (hn : e.depth ≤ n + 1) :
    P n (e.draft selfClose) := by
  induction e using Element.induction generalizing n with
  | node name attributes children ih =>
    have hhead : P n (Draft.name name ++ Draft.write ['<'] ++ Draft.write name ++
        Draft.attributes attributes) :=
      hP.append (hP.append (hP.append (hP.name n name) (hP.write n _)) (hP.write n _))
        (hP.attributes n attributes)
    cases children with
    | nil =>
      rw [Element.draft]
      exact hP.append hhead (hP.childless n name)
    | cons c cs =>
      have hdepths : Element.depths (c :: cs) ≤ n := by
        rw [Element.depth] at hn
        omega
      -- A child has a level of its own, so there is one below the root to go to.
      obtain ⟨m, rfl⟩ : ∃ m, n = m + 1 := by
        have hpos := c.depth_pos
        have hle := Element.depth_le_depths (List.mem_cons_self : c ∈ c :: cs)
        exact ⟨n - 1, by omega⟩
      have hchild : ∀ e ∈ c :: cs, P m (e.draft selfClose) := fun e he =>
        ih e he (Nat.le_trans (Element.depth_le_depths he) hdepths)
      have hrest : P m (Element.drafts selfClose cs) :=
        hP.drafts fun e he => hchild e (List.mem_cons_of_mem _ he)
      have hlines : P (m + 1) (Draft.write ['>'] ++
          (mark .stepIn ++ Element.drafts selfClose (c :: cs) ++ mark .stepOut)) := by
        rw [Element.drafts, append_assoc (mark .lineBreak)]
        exact hP.indented (hP.append (hchild c List.mem_cons_self) hrest)
      have hbehind : P (m + 1) (mark .lineBreak ++ Draft.endTag name) :=
        hP.append (hP.lineBreak _) (hP.write _ _)
      rw [Element.draft, append_assoc _ (mark .lineBreak), append_assoc (Draft.write ['>']),
        append_assoc (Draft.write ['>'])]
      exact hP.append hhead (hP.append hlines hbehind)

end Closed

end Draft

/-! ### Marks that keep to some levels -/

namespace Mark

/-- Followed one after the other, the first one on the level `level`, marks keep to the levels from
`low` to `high`, and no step out is taken on the lowest of them. -/
def StaysIn (low high : Nat) : Nat → List Mark → Prop
  | level, [] => low ≤ level ∧ level ≤ high
  | level, m :: ms =>
    (low ≤ level ∧ level ≤ high ∧ (m = stepOut → low < level)) ∧
      StaysIn low high (m.levelAfter level) ms

variable {low low' high high' level : Nat} {ms ns : List Mark}

theorem StaysIn.append (hms : StaysIn low high level ms)
    (hns : StaysIn low high (levelAfterAll level ms) ns) : StaysIn low high level (ms ++ ns) := by
  induction ms generalizing level with
  | nil => exact hns
  | cons m ms ih => exact ⟨hms.1, ih hms.2 hns⟩

/-- The first of some marks keep to the levels if all of them do. -/
theorem StaysIn.of_append (h : StaysIn low high level (ms ++ ns)) : StaysIn low high level ms := by
  induction ms generalizing level with
  | nil =>
    cases ns with
    | nil => exact h
    | cons m ns => exact ⟨h.1.1, h.1.2.1⟩
  | cons m ms ih => exact ⟨h.1, ih h.2⟩

theorem StaysIn.mono (hlow : low' ≤ low) (hhigh : high ≤ high') (h : StaysIn low high level ms) :
    StaysIn low' high' level ms := by
  induction ms generalizing level with
  | nil => exact ⟨Nat.le_trans hlow h.1, Nat.le_trans h.2 hhigh⟩
  | cons m ms ih =>
    obtain ⟨⟨hge, hle, hout⟩, hms⟩ := h
    exact ⟨⟨Nat.le_trans hlow hge, Nat.le_trans hle hhigh,
      fun hm => Nat.lt_of_le_of_lt hlow (hout hm)⟩, ih hms⟩

theorem StaysIn.level_le (h : StaysIn low high level ms) : level ≤ high := by
  cases ms with
  | nil => exact h.2
  | cons m ms => exact h.1.2.1

/-- A step out is taken further in than the lowest level. -/
theorem StaysIn.lt_of_stepOut {before after : List Mark}
    (h : StaysIn low high level (before ++ stepOut :: after)) :
    low < levelAfterAll level before := by
  induction before generalizing level with
  | nil => exact h.1.2.2 rfl
  | cons m before ih => exact ih h.2

end Mark

/-! ### Paired steps -/

namespace Draft

open Mark (StaysIn levelAfterAll)

variable {a b d : Draft} {n : Nat}

/-- The draft goes at most `n` levels further in than it began, every step out is taken further in
than it began, and a draft without defect leads back to where it began. -/
structure Paired (n : Nat) (d : Draft) : Prop where
  stays (level : Nat) : StaysIn level (level + n) level d.marks
  back : d.defect = none → ∀ level, levelAfterAll level d.marks = level

theorem paired_empty (n : Nat) : empty.Paired n :=
  ⟨fun level => ⟨Nat.le_refl level, Nat.le_add_right level n⟩, fun _ _ => rfl⟩

theorem paired_halt (n : Nat) (x : WriteError) : (halt x).Paired n :=
  ⟨fun level => ⟨Nat.le_refl level, Nat.le_add_right level n⟩, nofun⟩

/-- A mark that is no step. -/
theorem paired_mark {m : Mark} (hin : m ≠ .stepIn) (hout : m ≠ .stepOut) : (mark m).Paired n := by
  have hafter : ∀ level, m.levelAfter level = level := Mark.levelAfter_eq hin hout
  refine ⟨fun level => ⟨⟨Nat.le_refl level, Nat.le_add_right level n, fun h => absurd h hout⟩, ?_⟩,
    fun _ => hafter⟩
  rw [hafter]
  exact ⟨Nat.le_refl level, Nat.le_add_right level n⟩

theorem paired_write (n : Nat) (t : Text) : (write t).Paired n :=
  paired_mark nofun nofun

theorem paired_lineBreak (n : Nat) : (mark .lineBreak).Paired n :=
  paired_mark nofun nofun

/-- The second draft begins on the level on which the first one began. -/
theorem Paired.append (ha : a.Paired n) (hb : b.Paired n) : (a ++ b).Paired n := by
  cases hdefect : a.defect with
  | some x => rwa [append_of_defect hdefect]
  | none =>
    have hback := ha.back hdefect
    rw [append_of_sound hdefect]
    refine ⟨fun level => (ha.stays level).append ?_, fun hnone level => ?_⟩
    · rw [hback]
      exact hb.stays level
    · rw [Mark.levelAfterAll_append, hback, hb.back hnone]

/-- Behind a step in, a draft keeps to the levels above the one before the step. -/
theorem Paired.stays_stepIn (hd : d.Paired n) (level : Nat) :
    StaysIn level (level + (n + 1)) level (.stepIn :: d.marks) := by
  refine ⟨⟨Nat.le_refl level, Nat.le_add_right level _, nofun⟩, ?_⟩
  have hhigh : level + 1 + n = level + (n + 1) := by omega
  exact (hd.stays (level + 1)).mono (Nat.le_succ level) (Nat.le_of_eq hhigh)

/-- A step in and a step out around a draft are paired. -/
theorem Paired.between_steps (hd : d.Paired n) :
    (mark .stepIn ++ d ++ mark .stepOut).Paired (n + 1) := by
  have hin : mark .stepIn ++ d = ⟨.stepIn :: d.marks, d.defect⟩ := append_of_sound rfl d
  cases hdefect : d.defect with
  | some x =>
    have hcut : mark .stepIn ++ d ++ mark .stepOut = ⟨.stepIn :: d.marks, some x⟩ := by
      rw [hin, hdefect]
      exact append_of_defect rfl _
    rw [hcut]
    exact ⟨hd.stays_stepIn, nofun⟩
  | none =>
    have hwhole : mark .stepIn ++ d ++ mark .stepOut =
        ⟨.stepIn :: d.marks ++ [.stepOut], none⟩ := by
      rw [hin, hdefect]
      exact append_of_sound rfl _
    have hback (level : Nat) : levelAfterAll level (.stepIn :: d.marks) = level + 1 :=
      hd.back hdefect (level + 1)
    have hout (level : Nat) : StaysIn level (level + (n + 1)) (level + 1) [.stepOut] :=
      ⟨⟨Nat.le_succ level, by omega, fun _ => Nat.lt_succ_self level⟩, Nat.le_refl level, by
        exact Nat.le_add_right level (n + 1)⟩
    rw [hwhole]
    refine ⟨fun level => (hd.stays_stepIn level).append ?_, fun _ level => ?_⟩
    · rw [hback]
      exact hout level
    · rw [Mark.levelAfterAll_append, hback]
      rfl

/-- The steps of a draft are paired if those of its pieces are. -/
theorem closed_paired : Closed Paired where
  empty := paired_empty
  halt := paired_halt
  write := paired_write
  lineBreak := paired_lineBreak
  append := Paired.append
  indented {n _} hd := (paired_write _ ['>']).append ((paired_lineBreak n).append hd).between_steps

end Draft

namespace Element

/-- **Steps are paired.** In the draft of an element no step out is taken on the level on which the
element began, the level rises by the levels of the element below its root at most, and an element
without defects leads back to the level on which it began. -/
theorem paired_draft {n : Nat} (selfClose : Bool) (e : Element) (hn : e.depth ≤ n + 1) :
    (e.draft selfClose).Paired n :=
  Draft.closed_paired.draft selfClose e hn

end Element

end TagTree
