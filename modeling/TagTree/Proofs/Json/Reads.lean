import TagTree.Json.Scan
import TagTree.Proofs.Json.Spelling
import Mathlib.Data.List.Forall2

/-!
# What readers read

A reader *reads* a value from a spelling if it gives this value behind any space, whatever comes
next. Only a number has no end of its own, so the text that comes next must not go on with one.

Brackets are read item by item. Reading an item does not depend on the items behind it, so the
reader of an array needs to know of each item that it is read, and the reader of an object, of each
member, that it takes the members before it one state further.

## Main definitions

* `Json.EndsValue`: texts in front of which a value ends.
* `Json.Reads`: a reader and a spelling of a value.
* `Json.Takes`, `Json.TakesAll`: a member and some members of an object, between two states.

## Main results

* `Json.whole_of_reads`: a text that is a value.
* `Json.items_of_series`: the items of an array.
* `Json.membersWithin_of_series`, `Json.members_of_series`: the members of an object, up to any of
  them and up to the last.
-/

namespace TagTree.Json

/-! ### Ends of values -/

/-- The characters with which a number may go on. -/
def continuesNumber (c : Char) : Bool :=
  c.isDigit || c == '.' || c == 'e' || c == 'E'

/-- A value that stands before the text ends there. -/
def EndsValue (rest : Text) : Prop :=
  Text.Stops continuesNumber rest

variable {c : Char} {first : Bool} {t u w rest : Text} {ts : List Text}

theorem continuesNumber_of_isSpace (h : isSpace c = true) : continuesNumber c = false := by
  simp only [isSpace, Bool.or_eq_true, beq_iff_eq] at h
  rcases h with ((rfl | rfl) | rfl) | rfl <;> rfl

theorem endsValue_nil : EndsValue [] :=
  Text.stops_nil

theorem endsValue_cons (h : continuesNumber c = false) : EndsValue (c :: rest) :=
  Text.stops_cons.mpr h

theorem IsSpaces.endsValue_append (hw : IsSpaces w) (h : EndsValue rest) :
    EndsValue (w ++ rest) := by
  cases w with
  | nil => exact h
  | cons c w => exact endsValue_cons (continuesNumber_of_isSpace (hw c List.mem_cons_self))

/-- Behind an item there is space, a comma or the end of the series. -/
theorem Series.endsValue_append (h : Series false ts u) (hrest : EndsValue rest) :
    EndsValue (u ++ rest) := by
  cases h with
  | done hw => exact hw.endsValue_append hrest
  | @item _ w t u ts hw hts =>
    cases hw with
    | @next v v' hv hv' =>
      have hcomma : EndsValue (',' :: (v' ++ (t ++ u) ++ rest)) := endsValue_cons rfl
      have hends := hv.endsValue_append hcomma
      rwa [List.append_assoc v, List.append_assoc v]

/-- What stands in front of an item ends a value, unless there is nothing. -/
theorem IsLead.endsValue_append (hw : IsLead first w) (h : EndsValue rest) :
    EndsValue (w ++ rest) := by
  cases hw with
  | first hw => exact hw.endsValue_append h
  | @next v v' hv _ =>
    have hcomma : EndsValue (',' :: (v' ++ rest)) := endsValue_cons rfl
    rw [List.append_assoc]
    exact hv.endsValue_append hcomma

/-! ### Space -/

theorem skipSpace_append (hw : IsSpaces w) (s : Text) : skipSpace (w ++ s) = skipSpace s :=
  List.dropWhile_append_of_pos hw

theorem skipSpace_cons (hc : isSpace c = false) (s : Text) : skipSpace (c :: s) = c :: s :=
  Text.dropWhile_of_stops (Text.stops_cons.mpr hc)

theorem skipSpace_append_cons (hw : IsSpaces w) (hc : isSpace c = false) (s : Text) :
    skipSpace (w ++ c :: s) = c :: s := by
  rw [skipSpace_append hw, skipSpace_cons hc]

theorem Starts.skipSpace_append (h : Starts t) (hw : IsSpaces w) (rest : Text) :
    skipSpace (w ++ (t ++ rest)) = t ++ rest := by
  obtain ⟨c, u, rfl, hc, -⟩ := h
  exact skipSpace_append_cons hw hc (u ++ rest)

theorem colon_append (hw : IsSpaces w) (s : Text) : colon (w ++ ':' :: s) = .ok ((), s) := by
  rw [colon, skipSpace_append_cons hw rfl]
  exact if_pos rfl

/-! ### Values -/

/-- The reader reads the value `a` from its spelling `t`, behind any space and in front of any text
that ends it. -/
structure Reads {α : Type} (read : Reader α) (t : Text) (a : α) : Prop where
  starts : Starts t
  read_eq {w rest : Text} (hw : IsSpaces w) (hrest : EndsValue rest) :
    read (w ++ (t ++ rest)) = .ok (a, rest)

variable {α κ σ : Type} {read item : Reader α} {a : α} {as : List α}

theorem Reads.read_append (h : Reads read t a) (hrest : EndsValue rest) :
    read (t ++ rest) = .ok (a, rest) :=
  h.read_eq isSpaces_nil hrest

theorem reads_of_cons (hspace : isSpace c = false) (hclose : c ≠ ']')
    (h : ∀ {w rest : Text}, IsSpaces w → EndsValue rest →
      read (w ++ c :: (u ++ rest)) = .ok (a, rest)) : Reads read (c :: u) a :=
  ⟨⟨c, u, rfl, hspace, hclose⟩, h⟩

/-- **A text that is a value**, with space around it, is read as a whole. -/
theorem whole_of_reads (h : Reads read t a) {w w' : Text} (hw : IsSpaces w) (hw' : IsSpaces w') :
    whole read (w ++ (t ++ w')) = .ok a := by
  have hrest : EndsValue w' := by
    have hends := hw'.endsValue_append endsValue_nil
    rwa [List.append_nil] at hends
  have hspace : skipSpace w' = [] := List.dropWhile_eq_nil_iff.mpr hw'
  rw [whole, h.read_eq hw hrest]
  simp only [bind, Except.bind, hspace]
  rfl

/-! ### Items of arrays -/

theorem nextItem_of_isLead (hw : IsLead first w) (ht : Starts t) (rest : Text) :
    nextItem first (w ++ (t ++ rest)) = .ok (some (t ++ rest)) := by
  obtain ⟨c, u, rfl, hspace, hclose⟩ := ht
  rw [List.cons_append]
  cases hw with
  | first hw =>
    rw [nextItem, skipSpace_append_cons hw hspace]
    simp only [if_neg hclose, if_true]
  | @next v v' hv hv' =>
    rw [nextItem, List.append_assoc, List.cons_append, skipSpace_append_cons hv rfl]
    simp only [skipSpace_append_cons hv' hspace, if_neg hclose, Bool.false_eq_true, if_false,
      if_true]
    rw [if_neg (by decide)]

theorem nextItem_close (hw : IsSpaces w) (rest : Text) :
    nextItem first (w ++ ']' :: rest) = .ok none := by
  rw [nextItem, skipSpace_append_cons hw rfl]
  exact if_pos rfl

theorem endArray_append (hw : IsSpaces w) (rest : Text) :
    endArray (w ++ ']' :: rest) = .ok ((), rest) := by
  rw [endArray, skipSpace_append_cons hw rfl]
  exact if_pos rfl

/-- The items of a series are read one after the other. -/
theorem itemsWithin_of_series (hts : List.Forall₂ (Reads item) ts as) (hu : Series first ts u)
    (fuel : Nat) (rest : Text) :
    itemsWithin item (fuel + 1 + ts.length) first (u ++ ']' :: rest) = .ok (as, rest) := by
  induction hu generalizing as with
  | done hw =>
    cases hts
    rw [List.length_nil, Nat.add_zero, itemsWithin, nextItem_close hw]
    simp only [bind, Except.bind, endArray_append hw]
    rfl
  | @item first w t u ts hw hseries ih =>
    cases hts with
    | @cons _ a _ as ha has =>
      have hends : EndsValue (u ++ ']' :: rest) := hseries.endsValue_append (endsValue_cons rfl)
      rw [List.append_assoc, List.append_assoc, List.length_cons, ← Nat.add_assoc, itemsWithin,
        nextItem_of_isLead hw ha.starts]
      simp only [bind, Except.bind, ha.read_append hends, ih has]
      rfl

/-- **The items of an array** are read up to the closing bracket. -/
theorem items_of_series (hts : List.Forall₂ (Reads item) ts as) (hu : Series true ts u)
    (rest : Text) : items item (u ++ ']' :: rest) = .ok (as, rest) := by
  have hne : List.Forall₂ (fun t a => t ≠ [] ∧ Reads item t a) ts as :=
    hts.imp fun t a ha => ⟨ha.starts.ne_nil, ha⟩
  have hle : ts.length ≤ (u ++ ']' :: rest).length := by
    have hitems := hu.length_items_le ((List.forall₂_and_left _ _).mp hne).1
    rw [List.length_append]
    omega
  obtain ⟨fuel, hfuel⟩ := Nat.exists_eq_add_of_le hle
  have hbound : (u ++ ']' :: rest).length + 1 = fuel + 1 + ts.length := by omega
  rw [items, hbound, itemsWithin_of_series hts hu]

/-! ### Members of objects -/

variable {key : Reader κ} {member : σ → κ → Reader σ} {state state' : σ} {m : Member}
  {ms : List Member}

/-- From one state, the member is read with its key and leads to another state. -/
def Takes (key : Reader κ) (member : σ → κ → Reader σ) (state : σ) (m : Member) (state' : σ) :
    Prop :=
  ∃ name, (∀ rest, key (m.key ++ '"' :: rest) = .ok (name, rest)) ∧
    ∀ rest, EndsValue rest → member state name (m.behindKey ++ rest) = .ok (state', rest)

/-- From one state, the members are read in order and lead to another state. -/
inductive TakesAll (key : Reader κ) (member : σ → κ → Reader σ) : σ → List Member → σ → Prop
  | nil {state : σ} : TakesAll key member state [] state
  | cons {state state' state'' : σ} {m : Member} {ms : List Member}
      (h : Takes key member state m state') (hms : TakesAll key member state' ms state'') :
      TakesAll key member state (m :: ms) state''

/-- Behind a key comes the colon, and the value behind it. -/
theorem Member.IsSpaced.colon_behindKey (h : m.IsSpaced) (rest : Text) :
    colon (m.behindKey ++ rest) = .ok ((), m.after ++ (m.value ++ rest)) := by
  rw [behindKey, List.append_assoc, List.cons_append, List.append_assoc, colon_append h.1]

theorem nextMember_of_isLead (hw : IsLead first w) (s : Text) :
    nextMember first (w ++ '"' :: s) = .ok (some s) := by
  cases hw with
  | first hw =>
    rw [nextMember, skipSpace_append_cons hw rfl]
    rfl
  | @next v v' hv hv' =>
    rw [nextMember, List.append_assoc, List.cons_append, skipSpace_append_cons hv rfl]
    simp only [skipSpace_append_cons hv' (show isSpace '"' = false from rfl)]
    rfl

theorem nextMember_close (hw : IsSpaces w) (rest : Text) :
    nextMember first (w ++ '\x7d' :: rest) = .ok none := by
  rw [nextMember, skipSpace_append_cons hw rfl]
  exact if_pos rfl

theorem endObject_append (hw : IsSpaces w) (rest : Text) :
    endObject (w ++ '\x7d' :: rest) = .ok ((), rest) := by
  rw [endObject, skipSpace_append_cons hw rfl]
  exact if_pos rfl

/-- Reading a member goes on behind it in the next state. -/
theorem membersWithin_of_takes (h : Takes key member state m state') (hw : IsLead first w)
    (hrest : EndsValue rest) (fuel : Nat) :
    membersWithin key member (fuel + 1) first state (w ++ (m.text ++ rest)) =
      membersWithin key member fuel false state' rest := by
  obtain ⟨name, hkey, hmember⟩ := h
  have htext : m.text ++ rest = '"' :: (m.key ++ '"' :: (m.behindKey ++ rest)) := by
    simp only [Member.text, List.cons_append, List.append_assoc]
  rw [htext, membersWithin, nextMember_of_isLead hw]
  simp only [bind, Except.bind, hkey, hmember rest hrest]

/-- **Some members of an object** are read one after the other, up to the space behind them. What
follows is read in the state to which they lead, as members that are not the first unless there were
none. -/
theorem membersWithin_of_series (h : TakesAll key member state ms state')
    (hu : Series first (ms.map Member.text) u) :
    ∃ w, IsSpaces w ∧ ∀ fuel rest, EndsValue rest →
      membersWithin key member (fuel + ms.length) first state (u ++ rest) =
        membersWithin key member fuel (first && ms.isEmpty) state' (w ++ rest) := by
  induction h generalizing first u with
  | nil =>
    cases hu with
    | done hw => exact ⟨u, hw, fun fuel rest _ => by simp⟩
  | @cons _ _ _ m ms hm hms ih =>
    cases hu with
    | @item _ w _ u _ hw hseries =>
      obtain ⟨w', hw', hrun⟩ := ih hseries
      refine ⟨w', hw', fun fuel rest hrest => ?_⟩
      have hends : EndsValue (u ++ rest) := hseries.endsValue_append hrest
      have hlast : (first && (m :: ms).isEmpty) = (false && ms.isEmpty) := by
        rw [List.isEmpty_cons, Bool.and_false, Bool.false_and]
      rw [List.length_cons, ← Nat.add_assoc, List.append_assoc, List.append_assoc,
        membersWithin_of_takes hm hw hends, hrun fuel rest hrest, hlast]

/-- An object has no more members than characters. -/
theorem length_members_le (hu : Series true (ms.map Member.text) u) (rest : Text) :
    ms.length ≤ (u ++ rest).length := by
  have hne : ∀ t ∈ ms.map Member.text, t ≠ [] := by
    intro t ht
    obtain ⟨m, -, rfl⟩ := List.mem_map.mp ht
    exact List.cons_ne_nil _ _
  have hitems := hu.length_items_le hne
  rw [List.length_map] at hitems
  rw [List.length_append]
  omega

/-- **The members of an object** are read up to the closing brace. -/
theorem members_of_series (h : TakesAll key member state ms state')
    (hu : Series true (ms.map Member.text) u) (rest : Text) :
    members key member state (u ++ '\x7d' :: rest) = .ok (state', rest) := by
  obtain ⟨w, hw, hrun⟩ := membersWithin_of_series h hu
  obtain ⟨fuel, hfuel⟩ := Nat.exists_eq_add_of_le (length_members_le hu ('\x7d' :: rest))
  have hbound : (u ++ '\x7d' :: rest).length + 1 = fuel + 1 + ms.length := by omega
  rw [members, hbound, hrun (fuel + 1) _ (endsValue_cons rfl), membersWithin, nextMember_close hw]
  simp only [bind, Except.bind, endObject_append hw]
  rfl

/-- **A member that is turned down** behind other members is the first problem of an object. It may
be turned down at its key or behind it. -/
theorem members_of_error (h : TakesAll key member state ms state')
    (hu : Series true (ms.map Member.text) u) (hw : IsLead ms.isEmpty w) {s : Text} {e : Error}
    (herror : ((key s).bind fun p => member state' p.1 p.2) = .error e) :
    members key member state (u ++ (w ++ '"' :: s)) = .error e := by
  obtain ⟨w', hw', hrun⟩ := membersWithin_of_series h hu
  let tail := w ++ '"' :: s
  obtain ⟨fuel, hfuel⟩ := Nat.exists_eq_add_of_le (length_members_le hu tail)
  have hbound : (u ++ tail).length + 1 = fuel + 1 + ms.length := by omega
  have hnext := nextMember_of_isLead (hw.append_left hw') s
  rw [List.append_assoc] at hnext
  rw [members, hbound, hrun (fuel + 1) tail (hw.endsValue_append (endsValue_cons rfl)),
    Bool.true_and, membersWithin, hnext]
  simp only [bind, Except.bind] at herror ⊢
  cases hkey : key s with
  | error x =>
    rw [hkey] at herror
    exact congrArg Except.error (Except.error.inj herror)
  | ok p =>
    simp only [hkey] at herror
    simp only [herror]

end TagTree.Json
