import TagTree.Proofs.Parser.Rounds

/-!
# The error a parser fails with

Of the errors that arise while a parser runs, at most one is reported. This file says which: for
every combinator, `Parser.Fails` relates a text to the error by what the parts read and by the
errors they fail with, so that a report can be followed from the top of a grammar down to the place
it comes from.

Sequences report the error of the part they stop at. Of two alternatives the second reports, and
the error of the first is dropped with all that it holds. Runs of name characters and repetitions
report nothing, so whatever stops a repetition is out of sight for good.

## Main definitions

* `Parser.Fails`: the error of a parser as a relation.

## Main results

* `Parser.Fails.unique`, `Parser.Fails.not_reads`: a parser reports one error, and only where it
  reads nothing.
* `Parser.fails_both`, `Parser.fails_between`, `Parser.fails_bind`: parsers in sequence.
* `Parser.fails_orElse`: two alternatives.
* `Parser.not_fails_many`, `Parser.not_fails_nameRun`: parsers that report nothing.
-/

namespace TagTree

/-! ### Errors of composed replies -/

namespace Reply

variable {ε δ α β : Type} {r : Reply ε α}

theorem outcome_map_eq_error {f : α → β} {x : ε} :
    (r.map f).outcome = .error x ↔ r.outcome = .error x := by
  rw [outcome_map]
  cases r.outcome with
  | error e => simp only [Except.map, Except.error.injEq]
  | ok a => simp only [Except.map, reduceCtorEq]

theorem outcome_bind_eq_error {next : α → Reply ε β} {x : ε} :
    (r.bind next).outcome = .error x ↔
      r.outcome = .error x ∨ ∃ a, r.outcome = .ok a ∧ (next a).outcome = .error x := by
  cases h : r.outcome with
  | error e =>
    simp only [bind_of_error h, Except.error.injEq, reduceCtorEq, false_and, exists_false, or_false]
  | ok a =>
    simp only [bind_of_ok h, outcome_after, reduceCtorEq, Except.ok.injEq, exists_eq_left',
      false_or]

theorem outcome_handle_eq_error {recover : ε → Reply δ α} {x : δ} :
    (r.handle recover).outcome = .error x ↔
      ∃ e, r.outcome = .error e ∧ (recover e).outcome = .error x := by
  cases h : r.outcome with
  | error e => simp only [handle_of_error h, outcome_after, Except.error.injEq, exists_eq_left']
  | ok a => simp only [handle_of_ok h, reduceCtorEq, false_and, exists_false]

end Reply

namespace Parser

variable {α β : Type} {p : Parser α} {q : Parser β} {s r : Text} {x y : ParseError}

/-- The parser fails on `s` and reports `x`. -/
def Fails (p : Parser α) (s : Text) (x : ParseError) : Prop :=
  (p.parse s).outcome = .error x

/-- A parser reports one error. -/
theorem Fails.unique (h : p.Fails s x) (h' : p.Fails s y) : x = y :=
  Except.error.inj (h.symm.trans h')

/-- Where a parser reports an error, it reads nothing. -/
theorem Fails.not_reads (h : p.Fails s x) (a : α) (r : Text) : ¬ p.Reads s a r :=
  refuses_iff.mp ⟨x, h⟩ a r

theorem Reads.not_fails {a : α} (h : p.Reads s a r) (x : ParseError) : ¬ p.Fails s x :=
  fun hfails => hfails.not_reads a r h

/-! ### Looking at characters -/

theorem fails_literal {t : Text} : (literal t).Fails s x ↔ ¬ t <+: s ∧ x = .expected t s := by
  simp only [Fails, literal]
  cases h : t.isPrefixOf? s with
  | none =>
    have hprefix : ¬ t <+: s := by
      rintro ⟨rest, hrest⟩
      rw [List.isPrefixOf?_eq_some_iff_append_eq.mpr hrest] at h
      cases h
    simp only [Reply.error, Except.error.injEq, hprefix, not_false_eq_true, true_and, eq_comm]
  | some rest =>
    have hprefix : t <+: s := ⟨rest, List.isPrefixOf?_eq_some_iff_append_eq.mp h⟩
    simp only [Reply.ok, reduceCtorEq, hprefix, not_true_eq_false, false_and]

/-- A run of name characters may be empty, so reading one never fails. -/
theorem not_fails_nameRun (s : Text) (x : ParseError) : ¬ nameRun.Fails s x :=
  nofun

/-- What stops a repetition is not reported. -/
theorem not_fails_many (p : Parser α) (s : Text) (x : ParseError) : ¬ (many p).Fails s x :=
  nofun

/-! ### One parser -/

theorem fails_map {f : α → β} : (p.map f).Fails s x ↔ p.Fails s x :=
  Reply.outcome_map_eq_error

theorem fails_discard : (p.discard).Fails s x ↔ p.Fails s x :=
  fails_map

/-- What goes on after a parser fails where the parser does, or after something that it reads. -/
theorem outcome_bind_parse_eq_error {next : Parsed α → Reply ParseError β} :
    ((p.parse s).bind next).outcome = .error x ↔
      p.Fails s x ∨ ∃ a m, p.Reads s a m ∧ (next ⟨a, m⟩).outcome = .error x := by
  rw [Reply.outcome_bind_eq_error]
  refine or_congr Iff.rfl ⟨?_, ?_⟩
  · rintro ⟨⟨a, m⟩, ha, hnext⟩
    exact ⟨a, m, ha, hnext⟩
  · rintro ⟨a, m, ha, hnext⟩
    exact ⟨⟨a, m⟩, ha, hnext⟩

/-- A value that is turned down is reported by the input from before it. -/
theorem fails_filter {test : α → Bool} :
    (p.filter test).Fails s x ↔
      p.Fails s x ∨ ∃ a r, p.Reads s a r ∧ test a = false ∧ x = .rejected s := by
  rw [Fails, filter, outcome_bind_parse_eq_error]
  refine or_congr Iff.rfl (exists_congr fun a => exists_congr fun r => and_congr_right fun _ => ?_)
  cases test a <;> simp [Reply.ok, Reply.error, eq_comm]

/-! ### Parsers in sequence -/

theorem fails_both :
    (p.both q).Fails s x ↔ p.Fails s x ∨ ∃ a m, p.Reads s a m ∧ q.Fails m x := by
  rw [Fails, both, outcome_bind_parse_eq_error]
  simp only [Reply.outcome_map_eq_error]
  rfl

theorem fails_keepLeft :
    (p.keepLeft q).Fails s x ↔ p.Fails s x ∨ ∃ a m, p.Reads s a m ∧ q.Fails m x :=
  fails_map.trans fails_both

theorem fails_keepRight :
    (p.keepRight q).Fails s x ↔ p.Fails s x ∨ ∃ a m, p.Reads s a m ∧ q.Fails m x :=
  fails_map.trans fails_both

theorem fails_between {opening closing : Parser Unit} :
    (between opening p closing).Fails s x ↔
      opening.Fails s x ∨ ∃ m, opening.Reads s () m ∧
        (p.Fails m x ∨ ∃ a m', p.Reads m a m' ∧ closing.Fails m' x) := by
  rw [Fails, between, outcome_bind_parse_eq_error]
  simp only [outcome_bind_parse_eq_error, Reply.outcome_map_eq_error]
  refine or_congr Iff.rfl ⟨?_, ?_⟩
  · rintro ⟨_, m, h⟩
    exact ⟨m, h⟩
  · rintro ⟨m, h⟩
    exact ⟨(), m, h⟩

theorem fails_bind {next : α → Parser β} :
    (p.bind next).Fails s x ↔ p.Fails s x ∨ ∃ a m, p.Reads s a m ∧ (next a).Fails m x :=
  outcome_bind_parse_eq_error

/-! ### Alternatives -/

/-- Where both alternatives fail, the second reports. -/
theorem fails_orElse {p q : Parser α} :
    (p.orElse q).Fails s x ↔ p.Refuses s ∧ q.Fails s x := by
  rw [Fails, orElse, Reply.outcome_handle_eq_error]
  constructor
  · rintro ⟨e, he, hq⟩
    exact ⟨⟨e, he⟩, hq⟩
  · rintro ⟨⟨e, he⟩, hq⟩
    exact ⟨e, he, hq⟩

end Parser

end TagTree
