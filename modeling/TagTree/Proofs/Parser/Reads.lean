import TagTree.Parser.Choice
import TagTree.Proofs.Text.Runs

/-!
# What a parser reads and what it refuses

A parser *reads* a value from the start of a text when it succeeds with that value, and *refuses*
a text on which it fails. Both are relations between texts and values, so what a composed parser
reads can be said by what its parts read, with no mention of replies and logs. This file says so
for the parsers that look at characters, for sequences and for alternatives; repetition follows in
`TagTree.Proofs.Parser.Rounds`.

## Main definitions

* `Parser.Reads`, `Parser.Refuses`: the two outcomes of a parser as relations.

## Main results

* `Parser.Reads.unique`: a parser reads one value and leaves one text.
* `Parser.reads_literal`, `Parser.reads_nameRun`: the parsers that look at characters.
* `Parser.reads_both`, `Parser.reads_between`, `Parser.reads_bind`: parsers in sequence.
* `Parser.reads_orElse`: two alternatives.
-/

namespace TagTree

/-! ### Outcomes of composed replies -/

namespace Reply

variable {ε δ α β : Type} {r : Reply ε α}

theorem outcome_map_eq_ok {f : α → β} {b : β} :
    (r.map f).outcome = .ok b ↔ ∃ a, r.outcome = .ok a ∧ f a = b := by
  rw [outcome_map]
  cases r.outcome with
  | error e => simp only [Except.map, reduceCtorEq, false_and, exists_false]
  | ok a => simp only [Except.map, Except.ok.injEq, exists_eq_left']

theorem outcome_bind_eq_ok {next : α → Reply ε β} {b : β} :
    (r.bind next).outcome = .ok b ↔ ∃ a, r.outcome = .ok a ∧ (next a).outcome = .ok b := by
  cases h : r.outcome with
  | error e => simp only [bind_of_error h, reduceCtorEq, false_and, exists_false]
  | ok a => simp only [bind_of_ok h, outcome_after, Except.ok.injEq, exists_eq_left']

theorem outcome_handle_eq_ok {recover : ε → Reply δ α} {a : α} :
    (r.handle recover).outcome = .ok a ↔
      r.outcome = .ok a ∨ ∃ e, r.outcome = .error e ∧ (recover e).outcome = .ok a := by
  cases h : r.outcome with
  | error e =>
    simp only [handle_of_error h, outcome_after, reduceCtorEq, false_or, Except.error.injEq,
      exists_eq_left']
  | ok b =>
    simp only [handle_of_ok h, Except.ok.injEq, reduceCtorEq, false_and, exists_false, or_false]

end Reply

namespace Parser

variable {α β : Type} {p : Parser α} {q : Parser β} {s r : Text}

/-- The parser reads the value `a` from the start of `s` and leaves `r`. -/
def Reads (p : Parser α) (s : Text) (a : α) (r : Text) : Prop :=
  (p.parse s).outcome = .ok ⟨a, r⟩

instance [DecidableEq α] (a : α) : Decidable (p.Reads s a r) :=
  inferInstanceAs (Decidable ((p.parse s).outcome = .ok ⟨a, r⟩))

/-- The parser fails on `s`. -/
def Refuses (p : Parser α) (s : Text) : Prop :=
  ∃ e, (p.parse s).outcome = .error e

/-- A parser reads one value and leaves one text. -/
theorem Reads.unique {a b : α} {r' : Text} (h : p.Reads s a r) (h' : p.Reads s b r') :
    a = b ∧ r = r' := by
  have heq : (⟨a, r⟩ : Parsed α) = ⟨b, r'⟩ := Except.ok.inj (h.symm.trans h')
  exact ⟨congrArg Parsed.value heq, congrArg Parsed.rest heq⟩

theorem refuses_iff : p.Refuses s ↔ ∀ a r, ¬ p.Reads s a r := by
  rw [Refuses]
  cases h : (p.parse s).outcome with
  | error e => simp [Reads, h]
  | ok a =>
    simp only [reduceCtorEq, exists_false, false_iff]
    exact fun hn => hn a.value a.rest h

theorem not_refuses_iff : ¬ p.Refuses s ↔ ∃ a r, p.Reads s a r := by
  simp only [refuses_iff, not_forall, not_not]

/-! ### Looking at characters -/

theorem reads_anyChar {c : Char} : anyChar.Reads s c r ↔ s = c :: r := by
  cases s with
  | nil => simp [Reads, anyChar, Reply.error]
  | cons d s => simp [Reads, anyChar, Reply.ok]

theorem reads_literal {t : Text} {u : Unit} : (literal t).Reads s u r ↔ s = t ++ r := by
  rw [eq_comm, ← List.isPrefixOf?_eq_some_iff_append_eq]
  simp only [Reads, literal]
  cases t.isPrefixOf? s with
  | none => simp [Reply.error]
  | some rest => simp [Reply.ok]

/-- A run of name characters is read to its end. -/
theorem reads_nameRun {n : Text} :
    nameRun.Reads s n r ↔
      s = n ++ r ∧ (∀ c ∈ n, isNameChar c = true) ∧ Text.Stops isNameChar r := by
  rw [← Text.takeWhile_dropWhile_eq_iff, Reads, nameRun]
  simp only [Reply.ok, Except.ok.injEq, Parsed.mk.injEq]

/-! ### One parser -/

theorem reads_map {f : α → β} {b : β} : (p.map f).Reads s b r ↔ ∃ a, p.Reads s a r ∧ f a = b := by
  rw [Reads, map, Reply.outcome_map_eq_ok]
  constructor
  · rintro ⟨⟨a, m⟩, ha, heq⟩
    cases heq
    exact ⟨a, ha, rfl⟩
  · rintro ⟨a, ha, rfl⟩
    exact ⟨⟨a, r⟩, ha, rfl⟩

theorem reads_discard {u : Unit} : (p.discard).Reads s u r ↔ ∃ a, p.Reads s a r := by
  rw [discard, reads_map]
  exact exists_congr fun a => and_iff_left rfl

theorem reads_filter {test : α → Bool} {a : α} :
    (p.filter test).Reads s a r ↔ p.Reads s a r ∧ test a = true := by
  rw [Reads, filter, Reply.outcome_bind_eq_ok]
  constructor
  · rintro ⟨b, hb, hout⟩
    by_cases htest : test b.value = true
    · rw [if_pos htest] at hout
      have hsame : b = ⟨a, r⟩ := Except.ok.inj hout
      subst hsame
      exact ⟨hb, htest⟩
    · rw [if_neg htest] at hout
      cases hout
  · rintro ⟨ha, htest⟩
    refine ⟨⟨a, r⟩, ha, ?_⟩
    rw [if_pos htest]
    rfl

/-! ### Parsers in sequence -/

theorem reads_both {a : α} {b : β} :
    (p.both q).Reads s (a, b) r ↔ ∃ m, p.Reads s a m ∧ q.Reads m b r := by
  rw [Reads, both, Reply.outcome_bind_eq_ok]
  constructor
  · rintro ⟨⟨a', m⟩, ha, hmap⟩
    obtain ⟨⟨b', r'⟩, hb, heq⟩ := Reply.outcome_map_eq_ok.mp hmap
    cases heq
    exact ⟨m, ha, hb⟩
  · rintro ⟨m, ha, hb⟩
    refine ⟨⟨a, m⟩, ha, ?_⟩
    exact Reply.outcome_map_eq_ok.mpr ⟨⟨b, r⟩, hb, rfl⟩

theorem reads_keepLeft {a : α} :
    (p.keepLeft q).Reads s a r ↔ ∃ b m, p.Reads s a m ∧ q.Reads m b r := by
  rw [keepLeft, reads_map]
  constructor
  · rintro ⟨⟨a, b⟩, h, rfl⟩
    exact ⟨b, reads_both.mp h⟩
  · rintro ⟨b, h⟩
    exact ⟨(a, b), reads_both.mpr h, rfl⟩

theorem reads_keepRight {b : β} :
    (p.keepRight q).Reads s b r ↔ ∃ a m, p.Reads s a m ∧ q.Reads m b r := by
  rw [keepRight, reads_map]
  constructor
  · rintro ⟨⟨a, b⟩, h, rfl⟩
    exact ⟨a, reads_both.mp h⟩
  · rintro ⟨a, h⟩
    exact ⟨(a, b), reads_both.mpr h, rfl⟩

theorem reads_between {opening closing : Parser Unit} {a : α} :
    (between opening p closing).Reads s a r ↔
      ∃ m m', opening.Reads s () m ∧ p.Reads m a m' ∧ closing.Reads m' () r := by
  rw [Reads, between, Reply.outcome_bind_eq_ok]
  constructor
  · rintro ⟨⟨_, m⟩, hm, hrest⟩
    obtain ⟨⟨b, m'⟩, hb, hlast⟩ := Reply.outcome_bind_eq_ok.mp hrest
    obtain ⟨⟨_, r'⟩, hr, heq⟩ := Reply.outcome_map_eq_ok.mp hlast
    cases heq
    exact ⟨m, m', hm, hb, hr⟩
  · rintro ⟨m, m', hm, ha, hr⟩
    refine ⟨⟨(), m⟩, hm, Reply.outcome_bind_eq_ok.mpr ⟨⟨a, m'⟩, ha, ?_⟩⟩
    exact Reply.outcome_map_eq_ok.mpr ⟨⟨(), r⟩, hr, rfl⟩

theorem reads_bind {next : α → Parser β} {b : β} :
    (p.bind next).Reads s b r ↔ ∃ a m, p.Reads s a m ∧ (next a).Reads m b r := by
  rw [Reads, bind, Reply.outcome_bind_eq_ok]
  constructor
  · rintro ⟨⟨a, m⟩, ha, hb⟩
    exact ⟨a, m, ha, hb⟩
  · rintro ⟨a, m, ha, hb⟩
    exact ⟨⟨a, m⟩, ha, hb⟩

/-! ### Alternatives -/

/-- The second of two alternatives counts only where the first refuses. -/
theorem reads_orElse {p q : Parser α} {a : α} :
    (p.orElse q).Reads s a r ↔ p.Reads s a r ∨ p.Refuses s ∧ q.Reads s a r := by
  rw [Reads, orElse, Reply.outcome_handle_eq_ok]
  refine or_congr Iff.rfl ⟨?_, ?_⟩
  · rintro ⟨e, he, hq⟩
    exact ⟨⟨e, he⟩, hq⟩
  · rintro ⟨⟨e, he⟩, hq⟩
    exact ⟨e, he, hq⟩

end Parser

end TagTree
