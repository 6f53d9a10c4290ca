import TagTree.Proofs.Parser.Loop

/-!
# The trail of a repetition

A trail leads from one text to another through the texts on which a parser is applied, each time
successfully and each time with a shorter text left over. From every text there are many trails,
since a trail may be given up anywhere; but all of them run along the same texts, and the longest
one is the one that a repetition takes. What the repetition collects along a trail are the values
of its rounds, what it records are their logs, and behind the trail it goes on as a repetition from
there.

So the repetition ends where the trail cannot be prolonged, with one record more. The record tells
how many values there are, and which of the two ends it is: a failure is kept with its error, a
success that reads nothing is a warning.

## Main definitions

* `Parser.Trail`: rounds that each read something, with the texts on which they start.
* `Parser.ClosedBy`: the last record of a repetition.

## Main results

* `Parser.Trail.gather_eq`: repetition along a trail.
* `Parser.LeavesSuffix.reads_many_iff`: repetition takes a trail that cannot be prolonged.
* `Parser.many_takes_longest_trail`: what a repetition reads, leaves over and records.
-/

namespace TagTree.Parser

variable {α : Type} {p : Parser α} {s r : Text} {ts : List Text} {as : List α}

/-! ### Trails -/

/-- The parser leads from one text to another in rounds that each read something. The rounds start
on the texts `ts` and have the values `as`. -/
inductive Trail (p : Parser α) : Text → List Text → List α → Text → Prop
  | nil (s : Text) : Trail p s [] [] s
  | cons {s m r : Text} {ts : List Text} {a : α} {as : List α} (h : p.Reads s a m)
      (hlt : m.length < s.length) (hrest : Trail p m ts as r) : Trail p s (s :: ts) (a :: as) r

/-- Every round of a trail has a value. -/
theorem Trail.length_eq (h : p.Trail s ts as r) : as.length = ts.length := by
  induction h with
  | nil => rfl
  | cons _ _ _ ih => exact congrArg (· + 1) ih

/-- **Repetition along a trail.** It collects the values of the rounds and records their logs, and
goes on from the end of the trail. -/
theorem Trail.gather_eq (h : p.Trail s ts as r) (collected : Nat) :
    p.gather collected s =
      Gathered.followedBy ⟨as, r, ts.flatMap fun t => (p.parse t).log⟩
        (p.gather (collected + as.length) r) := by
  induction h generalizing collected with
  | nil s => rfl
  | @cons s m r ts a as hread hlt _ ih =>
    have hcollected : collected + (a :: as).length = collected + 1 + as.length := by
      rw [List.length_cons]
      omega
    rw [gather_of_progress hread hlt, ih, hcollected, List.flatMap_cons]
    simp only [Gathered.cons, Gathered.followedBy, List.cons_append, List.append_assoc]

/-- Rounds leave a trail behind them. -/
theorem Rounds.exists_trail (h : p.Rounds s as r) : ∃ ts, p.Trail s ts as r := by
  induction h with
  | stop => exact ⟨[], .nil _⟩
  | more hread hlt _ ih =>
    obtain ⟨ts, htrail⟩ := ih
    exact ⟨_ :: ts, .cons hread hlt htrail⟩

/-- The rounds of a parser that leaves a suffix end where it fails or reads nothing. -/
theorem Rounds.haltsOn (h : p.Rounds s as r) (hp : p.LeavesSuffix) : p.HaltsOn r := by
  by_cases hrefuses : p.Refuses r
  · exact .inl hrefuses
  · obtain ⟨a, m, hread⟩ := not_refuses_iff.mp hrefuses
    rcases hp.eq_or_length_lt hread with rfl | hlt
    · exact .inr ⟨a, hread⟩
    · exact absurd hlt (Nat.not_lt.mpr (h.stalls a m hread))

/-! ### The end of a trail -/

/-- The record with which a repetition ends on the text `r`, after it has collected `n` items. -/
structure ClosedBy (p : Parser α) (n : Nat) (r : Text) (event : Event) : Prop where
  source : event.source = .many
  collected : event.collected = some n
  stalled : ∀ a, p.Reads r a r → event.level = .warn ∧ event.error = none
  stopped : ∀ x, (p.parse r).outcome = .error x → event.level = .trace ∧ event.error = some x

/-- Where no round reads something, nothing is collected, and one record is made. -/
theorem HaltsOn.gather_eq (h : p.HaltsOn r) (collected : Nat) :
    ∃ event, p.gather collected r = ⟨[], r, (p.parse r).log ++ [event]⟩ ∧
      p.ClosedBy collected r event := by
  rcases h with ⟨x, hx⟩ | ⟨a, ha⟩
  · refine ⟨.repetitionStopped x collected, gather_of_error hx collected, rfl, rfl, fun a ha => ?_,
      fun y hy => ?_⟩
    · exact absurd (hx.symm.trans ha) nofun
    · cases hx.symm.trans hy
      exact ⟨rfl, rfl⟩
  · refine ⟨.repetitionStalled collected, gather_of_stall ha le_rfl collected, rfl, rfl,
      fun b _ => ⟨rfl, rfl⟩, fun y hy => ?_⟩
    exact absurd (hy.symm.trans ha) nofun

/-- A repetition that has come to the end of a trail has collected its values and recorded the logs
of its rounds, the log of the vain attempt behind them and one record. -/
theorem Trail.many_eq (h : p.Trail s ts as r) (hr : p.HaltsOn r) :
    ∃ event, (many p).parse s =
        ⟨.ok ⟨as, r⟩, ((ts ++ [r]).flatMap fun t => (p.parse t).log) ++ [event]⟩ ∧
      p.ClosedBy as.length r event := by
  obtain ⟨event, hgather, hclosed⟩ := hr.gather_eq (0 + as.length)
  rw [Nat.zero_add] at hclosed
  refine ⟨event, ?_, hclosed⟩
  rw [parse_many, h.gather_eq, hgather]
  simp only [Gathered.reply, Gathered.followedBy, List.append_nil, List.flatMap_append,
    List.flatMap_singleton, List.append_assoc]

/-- What a repetition reads is a trail up to a text on which it ends. -/
theorem LeavesSuffix.reads_many_iff (hp : p.LeavesSuffix) :
    (many p).Reads s as r ↔ ∃ ts, p.Trail s ts as r ∧ p.HaltsOn r := by
  constructor
  · intro h
    have hrounds : p.Rounds s as r := reads_many.mp h
    obtain ⟨ts, htrail⟩ := hrounds.exists_trail
    exact ⟨ts, htrail, hrounds.haltsOn hp⟩
  · rintro ⟨ts, htrail, hhalts⟩
    obtain ⟨event, hmany, -⟩ := htrail.many_eq hhalts
    rw [Reads, hmany]

/-! ### The whole repetition -/

/-- **Repetition takes the longest trail.** For a parser whose successes leave a suffix of their
text, the loop behind a repetition ends, and the repetition succeeds. It reads the values of a trail
of rounds that each read something, up to a text on which the parser fails or reads nothing, and
nothing else; read again from there, it reads nothing more. Its log consists of the logs of all
applications of the parser, the last one included, and of one record that tells how it ended. -/
theorem many_takes_longest_trail (p : Parser α) (hp : p.LeavesSuffix) (s : Text) :
    (∃ as r log, (many p).parse s = ⟨.ok ⟨as, r⟩, log⟩ ∧
      ∀ n, s.length < n → p.loop n ⟨[], s, []⟩ = .done ⟨as, r, log⟩) ∧
    (∀ as r, ((many p).parse s).outcome = .ok ⟨as, r⟩ ↔
      ∃ ts, p.Trail s ts as r ∧ (p.Refuses r ∨ ∃ a, p.Reads r a r)) ∧
    ∀ ts as r, p.Trail s ts as r → (p.Refuses r ∨ ∃ a, p.Reads r a r) →
      as.length = ts.length ∧ ((many p).parse r).outcome = .ok ⟨[], r⟩ ∧
        ∃ event, ((many p).parse s).log =
            ((ts ++ [r]).flatMap fun t => (p.parse t).log) ++ [event] ∧
          p.ClosedBy as.length r event := by
  refine ⟨?_, fun as r => hp.reads_many_iff, fun ts as r htrail hr =>
    ⟨htrail.length_eq, hp.reads_many_iff.mpr ⟨[], .nil r, hr⟩, ?_⟩⟩
  · obtain ⟨g, hmany, hloop⟩ := hp.loop_many s
    exact ⟨g.values, g.rest, g.log, hmany, hloop⟩
  · obtain ⟨event, hmany, hclosed⟩ := htrail.many_eq hr
    exact ⟨event, by rw [hmany], hclosed⟩

/-- A repetition that ends with a warning, since a run of name characters may be empty, and one that
ends with a failure. -/
theorem many_takes_longest_trail_names :
    (nameRun.LeavesSuffix ∧ nameRun.Trail "ab1".toList ["ab1".toList] [['a', 'b']] ['1'] ∧
      nameRun.Reads ['1'] [] ['1'] ∧
      ((many nameRun).parse "ab1".toList).outcome = .ok ⟨[['a', 'b']], ['1']⟩ ∧
      ∃ event ∈ ((many nameRun).parse "ab1".toList).log,
        event.level = .warn ∧ event.collected = some 1) ∧
    (literal ['a']).LeavesSuffix ∧
      (literal ['a']).Trail "aab".toList ["aab".toList, "ab".toList] [(), ()] ['b'] ∧
      (literal ['a']).Refuses ['b'] ∧
      ((many (literal ['a'])).parse "aab".toList).outcome = .ok ⟨[(), ()], ['b']⟩ ∧
      ∃ event ∈ ((many (literal ['a'])).parse "aab".toList).log,
        event.level = .trace ∧ event.error = some (.expected ['a'] ['b']) := by
  constructor
  · have hp : nameRun.LeavesSuffix := staysInText_nameRun.leavesSuffix
    have htrail : nameRun.Trail "ab1".toList ["ab1".toList] [['a', 'b']] ['1'] :=
      .cons rfl (by decide) (.nil _)
    have hstall : nameRun.Reads ['1'] [] ['1'] := rfl
    obtain ⟨-, hreads, hlog⟩ := many_takes_longest_trail nameRun hp "ab1".toList
    obtain ⟨-, -, event, hevents, hclosed⟩ := hlog _ _ _ htrail (.inr ⟨_, hstall⟩)
    refine ⟨hp, htrail, hstall, (hreads _ _).mpr ⟨_, htrail, .inr ⟨_, hstall⟩⟩, event, ?_,
      (hclosed.stalled _ hstall).1, hclosed.collected⟩
    rw [hevents]
    exact List.mem_append_right _ List.mem_cons_self
  · have hp : (literal ['a']).LeavesSuffix := (staysInText_literal ['a']).leavesSuffix
    have htrail : (literal ['a']).Trail "aab".toList ["aab".toList, "ab".toList] [(), ()] ['b'] :=
      .cons rfl (by decide) (.cons rfl (by decide) (.nil _))
    have hrefuses : (literal ['a']).Refuses ['b'] := ⟨_, rfl⟩
    obtain ⟨-, hreads, hlog⟩ := many_takes_longest_trail (literal ['a']) hp "aab".toList
    obtain ⟨-, -, event, hevents, hclosed⟩ := hlog _ _ _ htrail (.inl hrefuses)
    refine ⟨hp, htrail, hrefuses, (hreads _ _).mpr ⟨_, htrail, .inl hrefuses⟩, event, ?_,
      hclosed.stopped _ rfl⟩
    rw [hevents]
    exact List.mem_append_right _ List.mem_cons_self

end TagTree.Parser
