import TagTree.Text
import Mathlib.Data.List.Basic
import Mathlib.Data.List.TakeWhile

/-!
# Runs of characters and sequences of spellings

Two ways in which a text is put together. A longest run of characters of one kind is a run that the
rest of the text does not go on with (`Text.Stops`), and a text has only one at its start. A
sequence has one spelling for each member of a list (`Text.Joined`), where a member may have many
spellings. A run is the sequence of its characters.

## Main definitions

* `Text.Stops`: a text that does not start with a character of some kind.
* `Text.Joined`: a text put together from one spelling of each member of a list.

## Main results

* `Text.takeWhile_dropWhile_eq_iff`, `Text.run_unique`: longest runs.
* `Text.joined_flatMap`: one spelling for each member gives a sequence.
* `Text.Joined.length_flatMap_le`: sequences are compared member by member.
-/

namespace TagTree.Text

/-! ### Runs of characters -/

/-- The text is empty or starts with a character that does not pass `test`. -/
def Stops (test : Char → Bool) (r : Text) : Prop :=
  ∀ c, r.head? = some c → test c = false

variable {test : Char → Bool} {s w r : Text}

theorem stops_nil : Stops test [] :=
  nofun

theorem stops_cons {c : Char} : Stops test (c :: r) ↔ test c = false :=
  ⟨fun h => h c rfl, fun h d hd => by cases hd; exact h⟩

theorem stops_dropWhile (test : Char → Bool) (s : Text) : Stops test (s.dropWhile test) := by
  intro c hc
  have h := List.head?_dropWhile_not test s
  rw [hc] at h
  simpa only [Bool.not_eq_true'] using h

theorem dropWhile_of_stops (h : Stops test r) : r.dropWhile test = r := by
  cases r with
  | nil => rfl
  | cons c r => rw [List.dropWhile_cons_of_neg (by simp [stops_cons.mp h])]

theorem takeWhile_of_stops (h : Stops test r) : r.takeWhile test = [] := by
  cases r with
  | nil => rfl
  | cons c r => rw [List.takeWhile_cons_of_neg (by simp [stops_cons.mp h])]

/-- **Longest runs.** Cutting a text after its longest run of characters is the only way to cut it
into such a run and a text that does not go on with one. -/
theorem takeWhile_dropWhile_eq_iff :
    s.takeWhile test = w ∧ s.dropWhile test = r ↔
      s = w ++ r ∧ (∀ c ∈ w, test c = true) ∧ Stops test r := by
  constructor
  · rintro ⟨rfl, rfl⟩
    exact ⟨List.takeWhile_append_dropWhile.symm, fun c hc => List.mem_takeWhile_imp hc,
      stops_dropWhile test s⟩
  · rintro ⟨rfl, hw, hr⟩
    rw [List.takeWhile_append_of_pos hw, List.dropWhile_append_of_pos hw,
      takeWhile_of_stops hr, dropWhile_of_stops hr, List.append_nil]
    exact ⟨rfl, rfl⟩

/-- A text has only one longest run at its start. -/
theorem run_unique {w' r' : Text} (hw : ∀ c ∈ w, test c = true) (hr : Stops test r)
    (hw' : ∀ c ∈ w', test c = true) (hr' : Stops test r') (h : w ++ r = w' ++ r') :
    w = w' ∧ r = r' := by
  obtain ⟨hrun, hrest⟩ := takeWhile_dropWhile_eq_iff.mpr ⟨rfl, hw, hr⟩
  obtain ⟨hrun', hrest'⟩ := takeWhile_dropWhile_eq_iff.mpr ⟨h, hw', hr'⟩
  exact ⟨hrun.symm.trans hrun', hrest.symm.trans hrest'⟩

/-! ### Sequences of spellings -/

/-- The text is put together from one spelling of each member of the list, in order. -/
def Joined {α : Type} (Spells : α → Text → Prop) : List α → Text → Prop
  | [], t => t = []
  | a :: as, t => ∃ u v, Spells a u ∧ Joined Spells as v ∧ t = u ++ v

variable {α : Type} {Spells : α → Text → Prop} {f : α → Text} {as : List α} {t : Text}

theorem joined_flatMap (h : ∀ a ∈ as, Spells a (f a)) : Joined Spells as (as.flatMap f) := by
  induction as with
  | nil => exact List.flatMap_nil
  | cons a as ih =>
    exact ⟨f a, as.flatMap f, h a List.mem_cons_self,
      ih fun b hb => h b (List.mem_cons_of_mem _ hb), List.flatMap_cons⟩

/-- In a sequence of spellings every member of the list is spelled. -/
theorem Joined.exists_spelling (h : Joined Spells as t) {a : α} (ha : a ∈ as) :
    ∃ u, Spells a u := by
  induction as generalizing t with
  | nil => cases ha
  | cons b as ih =>
    obtain ⟨u, v, hu, hv, -⟩ := h
    rcases List.mem_cons.mp ha with rfl | hmem
    · exact ⟨u, hu⟩
    · exact ih hv hmem

/-- If every spelling of a member is at least as long as what is written for it, then so is a
sequence of spellings. -/
theorem Joined.length_flatMap_le (h : ∀ a ∈ as, ∀ u, Spells a u → (f a).length ≤ u.length)
    (ht : Joined Spells as t) : (as.flatMap f).length ≤ t.length := by
  induction as generalizing t with
  | nil => exact Nat.zero_le t.length
  | cons a as ih =>
    obtain ⟨u, v, hu, hv, rfl⟩ := ht
    have hfirst : (f a).length ≤ u.length := h a List.mem_cons_self u hu
    have hrest : (as.flatMap f).length ≤ v.length :=
      ih (fun b hb => h b (List.mem_cons_of_mem _ hb)) hv
    rw [List.flatMap_cons, List.length_append, List.length_append]
    exact Nat.add_le_add hfirst hrest

/-- A run is the sequence of its characters. -/
theorem joined_characters_iff :
    Joined (fun c t => t = [c] ∧ test c = true) w t ↔ t = w ∧ ∀ c ∈ w, test c = true := by
  induction w generalizing t with
  | nil => simp [Joined]
  | cons c w ih =>
    simp only [Joined, ih, List.forall_mem_cons]
    constructor
    · rintro ⟨u, v, ⟨rfl, hc⟩, ⟨rfl, hw⟩, rfl⟩
      exact ⟨rfl, hc, hw⟩
    · rintro ⟨rfl, hc, hw⟩
      exact ⟨[c], w, ⟨rfl, hc⟩, ⟨rfl, hw⟩, rfl⟩

end TagTree.Text
