import TagTree.Proofs.Parser.Trail

/-!
# Repetition with a first item

There are two ways into the loop behind a repetition. `Parser.many` starts it on the whole text,
with nothing collected. `Parser.many1` runs the parser once before it, on its own account: a failure
is final and a success that reads nothing leaves nothing to repeat, and only behind a success that
reads something does the loop start, with one item collected.

The detour makes no difference but for the first failure. Where the first round reads something,
the two give the same reply, records included; where it reads nothing, both come back empty-handed
and differ in one record only; and where it fails, `Parser.many1` fails too, with an error of its
own that shows the whole text and not what the parser complained about.

## Main results

* `Parser.outcome_many1_eq_error_iff`: when it fails, and how.
* `Parser.parse_many1_of_progress`: the same reply behind a first item.
* `Parser.outcome_many1_of_reads`: the same outcome in every case but the first failure.
* `Parser.many1_agrees_with_many`: all cases together.
-/

namespace TagTree.Parser

variable {α : Type} {p : Parser α} {s r : Text} {ts : List Text} {a : α} {as : List α}
  {x : ParseError}

/-! ### The first round -/

/-- The error of the parser is replaced, whatever it was. -/
theorem outcome_many1_of_refuses (h : p.Refuses s) :
    ((many1 p).parse s).outcome = .error (.noItem s) := by
  obtain ⟨e, he⟩ := h
  rw [many1_of_error he]

/-- Behind a first round that reads something the two repetitions give the same reply, records
included. -/
theorem parse_many1_of_progress (h : p.Reads s a r) (hlt : r.length < s.length) :
    (many1 p).parse s = (many p).parse s := by
  have hgather : p.gather 0 s = (p.gather 1 r).cons a (p.parse s).log := gather_of_progress h hlt 0
  rw [many1_of_progress h hlt, parse_many, hgather]

/-- Behind a first round that reads nothing, nothing is read by either repetition. -/
theorem outcomes_of_stall (h : p.Reads s a r) (hle : s.length ≤ r.length) :
    ((many1 p).parse s).outcome = .ok ⟨[], s⟩ ∧ ((many p).parse s).outcome = .ok ⟨[], s⟩ := by
  rw [many1_of_stall h hle, parse_many, gather_of_stall h hle]
  exact ⟨rfl, rfl⟩

/-! ### All cases -/

/-- **The two repetitions read the same** unless the parser fails at once. -/
theorem outcome_many1_of_reads (h : p.Reads s a r) :
    ((many1 p).parse s).outcome = ((many p).parse s).outcome := by
  rcases Nat.lt_or_ge r.length s.length with hlt | hge
  · rw [parse_many1_of_progress h hlt]
  · obtain ⟨hmany1, hmany⟩ := outcomes_of_stall h hge
    exact hmany1.trans hmany.symm

/-- Repetition with a first item has one error, and only where the parser fails. -/
theorem outcome_many1_eq_error_iff :
    ((many1 p).parse s).outcome = .error x ↔ p.Refuses s ∧ x = .noItem s := by
  constructor
  · intro hx
    by_cases h : p.Refuses s
    · rw [outcome_many1_of_refuses h] at hx
      exact ⟨h, (Except.error.inj hx).symm⟩
    · obtain ⟨a, r, hread⟩ := not_refuses_iff.mp h
      rw [outcome_many1_of_reads hread] at hx
      cases hx
  · rintro ⟨h, rfl⟩
    exact outcome_many1_of_refuses h

/-- A trail that is not empty starts with a first round that reads something. -/
theorem Trail.exists_first (h : p.Trail s ts as r) (hne : ts ≠ []) :
    ∃ a m, p.Reads s a m ∧ m.length < s.length := by
  cases h with
  | nil => exact absurd rfl hne
  | cons hread hlt _ => exact ⟨_, _, hread, hlt⟩

/-- **Repetition with a first item agrees with repetition.** It fails exactly where the parser does,
and then shows the text that it was given, whatever the error of the parser was. Everywhere else the
two read the same: nothing if the first success reads nothing, and all rounds up to a later success
that reads nothing. Behind a first item both are the loop that starts with this item. -/
theorem many1_agrees_with_many (p : Parser α) (hp : p.LeavesSuffix) (s : Text) :
    (∀ x, ((many1 p).parse s).outcome = .error x ↔ p.Refuses s ∧ x = .noItem s) ∧
    (¬ p.Refuses s → ((many1 p).parse s).outcome = ((many p).parse s).outcome) ∧
    (∀ a, p.Reads s a s → ((many1 p).parse s).outcome = .ok ⟨[], s⟩ ∧
      ((many p).parse s).outcome = .ok ⟨[], s⟩) ∧
    (∀ ts as r b, p.Trail s ts as r → ts ≠ [] → p.Reads r b r →
      ((many1 p).parse s).outcome = .ok ⟨as, r⟩ ∧ ((many p).parse s).outcome = .ok ⟨as, r⟩) ∧
    ∀ a r, p.Reads s a r → r.length < s.length →
      ∃ g, (many1 p).parse s = g.reply ∧ (many p).parse s = g.reply ∧
        ∀ n, r.length < n → p.loop n ⟨[a], r, (p.parse s).log⟩ = .done g := by
  refine ⟨fun x => outcome_many1_eq_error_iff, fun h => ?_, fun a h => outcomes_of_stall h le_rfl,
    fun ts as r b htrail hne hstall => ?_, fun a r h hlt => ?_⟩
  · obtain ⟨a, r, hread⟩ := not_refuses_iff.mp h
    exact outcome_many1_of_reads hread
  · obtain ⟨a, m, hread, -⟩ := htrail.exists_first hne
    have hmany : (many p).Reads s as r :=
      hp.reads_many_iff.mpr ⟨ts, htrail, .inr ⟨b, hstall⟩⟩
    exact ⟨(outcome_many1_of_reads hread).trans hmany, hmany⟩
  · obtain ⟨g, hmany1, hloop⟩ := hp.loop_many1 h hlt
    exact ⟨g, hmany1, (parse_many1_of_progress h hlt).symm.trans hmany1, hloop⟩

/-- A parser that fails at once, one that reads nothing at once, and one that reads something and
then nothing. -/
theorem many1_agrees_with_many_names :
    (literal ['a']).LeavesSuffix ∧ (literal ['a']).Refuses ['b'] ∧
    ((many1 (literal ['a'])).parse ['b']).outcome = .error (.noItem ['b']) ∧
    nameRun.LeavesSuffix ∧ nameRun.Reads ['1'] [] ['1'] ∧
    ((many1 nameRun).parse ['1']).outcome = .ok ⟨[], ['1']⟩ ∧
    nameRun.Trail "ab1".toList ["ab1".toList] [['a', 'b']] ['1'] ∧
    ((many1 nameRun).parse "ab1".toList).outcome = .ok ⟨[['a', 'b']], ['1']⟩ ∧
    ((many1 nameRun).parse "ab1".toList).outcome = ((many nameRun).parse "ab1".toList).outcome := by
  have hliteral : (literal ['a']).LeavesSuffix := (staysInText_literal ['a']).leavesSuffix
  have hrefuses : (literal ['a']).Refuses ['b'] := ⟨_, rfl⟩
  have hname : nameRun.LeavesSuffix := staysInText_nameRun.leavesSuffix
  have hstall : nameRun.Reads ['1'] [] ['1'] := rfl
  have htrail : nameRun.Trail "ab1".toList ["ab1".toList] [['a', 'b']] ['1'] :=
    .cons rfl (by decide) (.nil _)
  have hreads : nameRun.Reads "ab1".toList ['a', 'b'] ['1'] := rfl
  obtain ⟨herror, -⟩ := many1_agrees_with_many (literal ['a']) hliteral ['b']
  obtain ⟨-, -, hfirst, -⟩ := many1_agrees_with_many nameRun hname ['1']
  obtain ⟨-, hagree, -, hlater, -⟩ := many1_agrees_with_many nameRun hname "ab1".toList
  have hnotRefuses : ¬ nameRun.Refuses "ab1".toList := not_refuses_iff.mpr ⟨_, _, hreads⟩
  exact ⟨hliteral, hrefuses, (herror _).mpr ⟨hrefuses, rfl⟩, hname, hstall, (hfirst _ hstall).1,
    htrail, (hlater _ _ _ _ htrail (List.cons_ne_nil _ _) hstall).1, hagree hnotRefuses⟩

end TagTree.Parser
