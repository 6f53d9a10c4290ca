import TagTree.Proofs.Parser.Fails

/-!
# Derived combinators

A few combinators are written for themselves and could be put together from others. A list of
alternatives is tried in a loop that keeps the last error, and could be a nest of single
alternatives; an optional part could be an alternative that reads nothing; a part between two
delimiters could be two sequences. They differ from what they could be in the records they make and
in nothing else: on every text they read the same value, leave the same text, and report the same
error.

The loop over a list of alternatives starts with an error that is reported only if there is nothing
to try. Behind a first failure it goes on as a loop over the rest of the list does, whatever the
error was, as long as there is a rest. So a list may be cut anywhere in front of its last member,
and all ways to put brackets around its members come to the same.

## Main definitions

* `Parser.Agrees`: parsers with the same outcome on every text.
* `Parser.Nesting`: the ways to put alternatives together two at a time.

## Main results

* `Parser.agrees_firstOf_append`: a list of alternatives, cut in two.
* `Parser.Nesting.agrees_firstOf`: a list of alternatives, taken two at a time.
* `Parser.fails_firstOf_concat`: the error of a list of alternatives.
* `Parser.between_discard`: a part between two delimiters as two sequences.
* `Parser.derived_agree_with_basic`: all of them together.
-/

namespace TagTree

/-! ### Handled failures -/

namespace Reply

variable {ε δ α : Type}

/-- The outcome of a reply after which a failure is handled. -/
theorem outcome_handle (r : Reply ε α) (recover : ε → Reply δ α) :
    (r.handle recover).outcome = match r.outcome with
      | .ok a => .ok a
      | .error e => (recover e).outcome := by
  obtain ⟨outcome, log⟩ := r
  cases outcome with
  | ok a => rfl
  | error e => rfl

end Reply

namespace Parser

variable {α β γ : Type} {p p' q q' : Parser α} {s : Text} {x : ParseError}

/-! ### Parsers with the same outcomes -/

/-- On every text the two parsers read the same value and leave the same text, or fail with the same
error. -/
def Agrees (p q : Parser α) : Prop :=
  ∀ s, (p.parse s).outcome = (q.parse s).outcome

theorem Agrees.trans (h : p.Agrees q) (h' : q.Agrees q') : p.Agrees q' :=
  fun s => (h s).trans (h' s)

theorem outcome_orElse (p q : Parser α) (s : Text) :
    ((p.orElse q).parse s).outcome = match (p.parse s).outcome with
      | .ok a => .ok a
      | .error _ => (q.parse s).outcome := by
  simp only [orElse, Reply.outcome_handle, Reply.outcome_after]
  cases (p.parse s).outcome with
  | ok a => rfl
  | error e => rfl

theorem Agrees.orElse (hp : p.Agrees p') (hq : q.Agrees q') :
    (p.orElse q).Agrees (p'.orElse q') := by
  intro s
  rw [outcome_orElse, outcome_orElse, hp s, hq s]

/-! ### Lists of alternatives -/

/-- Behind the members of a list that all fail, the loop goes on with the error of the last one. -/
theorem outcome_firstOfAfter_append (last : ParseError) (ps qs : List (Parser α)) (s : Text) :
    (firstOfAfter last (ps ++ qs) s).outcome = match (firstOfAfter last ps s).outcome with
      | .ok a => .ok a
      | .error e => (firstOfAfter e qs s).outcome := by
  induction ps generalizing last with
  | nil => rfl
  | cons p ps ih =>
    simp only [List.cons_append, firstOfAfter, Reply.outcome_handle, Reply.outcome_after]
    cases (p.parse s).outcome with
    | ok a => rfl
    | error e => exact ih e

/-- The error from before a list is lost as soon as the list has a member. -/
theorem firstOfAfter_of_ne_nil {qs : List (Parser α)} (h : qs ≠ []) (e e' : ParseError) :
    firstOfAfter e qs = firstOfAfter e' qs := by
  cases qs with
  | nil => exact absurd rfl h
  | cons q qs => rfl

/-- **A list of alternatives, cut in two.** The second part must not be empty: with nothing to try
it would report just that. -/
theorem agrees_firstOf_append (ps : List (Parser α)) {qs : List (Parser α)} (h : qs ≠ []) :
    (firstOf (ps ++ qs)).Agrees ((firstOf ps).orElse (firstOf qs)) := by
  intro s
  have hloop := outcome_firstOfAfter_append .noChoice ps qs s
  rw [outcome_orElse, firstOf, hloop]
  cases hps : (firstOfAfter .noChoice ps s).outcome with
  | ok a => simp only [firstOf, hps]
  | error e => simp only [firstOf, hps, firstOfAfter_of_ne_nil h e .noChoice]

theorem agrees_firstOf_singleton (p : Parser α) : (firstOf [p]).Agrees p := by
  intro s
  simp only [firstOf, firstOfAfter, Reply.outcome_handle, Reply.outcome_after]
  cases (p.parse s).outcome with
  | ok a => rfl
  | error e => rfl

/-- Alternatives put together two at a time, with brackets in any places. -/
inductive Nesting (α : Type) where
  | single (p : Parser α)
  | pair (a b : Nesting α)

namespace Nesting

/-- The parser with all its brackets. -/
def parser : Nesting α → Parser α
  | single p => p
  | pair a b => a.parser.orElse b.parser

/-- The alternatives in order. -/
def members : Nesting α → List (Parser α)
  | single p => [p]
  | pair a b => a.members ++ b.members

theorem members_ne_nil (n : Nesting α) : n.members ≠ [] := by
  induction n with
  | single p => exact List.cons_ne_nil p []
  | pair a b iha ihb => exact List.append_ne_nil_of_left_ne_nil iha b.members

/-- **A list of alternatives, taken two at a time**, is the same wherever the brackets stand. -/
theorem agrees_firstOf (n : Nesting α) : (firstOf n.members).Agrees n.parser := by
  induction n with
  | single p => exact agrees_firstOf_singleton p
  | pair a b iha ihb =>
    have hcut : (firstOf (a.members ++ b.members)).Agrees
        ((firstOf a.members).orElse (firstOf b.members)) :=
      agrees_firstOf_append a.members b.members_ne_nil
    exact hcut.trans (iha.orElse ihb)

end Nesting

/-- The brackets may all stand at the end. -/
theorem agrees_firstOf_concat (ps : List (Parser α)) (p : Parser α) :
    (firstOf (ps ++ [p])).Agrees (ps.foldr orElse p) := by
  induction ps with
  | nil => exact agrees_firstOf_singleton p
  | cons q ps ih =>
    have hrest : ps ++ [p] ≠ [] := List.append_ne_nil_of_right_ne_nil ps (List.cons_ne_nil p [])
    have hcut : (firstOf ([q] ++ (ps ++ [p]))).Agrees
        ((firstOf [q]).orElse (firstOf (ps ++ [p]))) := agrees_firstOf_append [q] hrest
    exact hcut.trans ((agrees_firstOf_singleton q).orElse ih)

/-- Where all alternatives fail, the last one reports. -/
theorem fails_firstOf_concat {ps : List (Parser α)} :
    (firstOf (ps ++ [p])).Fails s x ↔ (∀ q ∈ ps, q.Refuses s) ∧ p.Fails s x := by
  rw [Fails, agrees_firstOf_concat ps p s]
  induction ps with
  | nil =>
    simp only [List.foldr_nil, List.not_mem_nil, false_implies, implies_true, true_and, Fails]
  | cons q ps ih =>
    rw [List.foldr_cons, List.forall_mem_cons, and_assoc, ← ih]
    exact fails_orElse

/-! ### Optional parts -/

/-- An optional part is an alternative that reads nothing. -/
theorem agrees_optional (p : Parser α) :
    p.optional.Agrees ((p.map some).orElse (.succeed none)) := by
  intro s
  simp only [outcome_orElse, map, Reply.outcome_map]
  cases hout : (p.parse s).outcome with
  | ok a =>
    rw [optional_of_ok hout]
    rfl
  | error e =>
    rw [optional_of_error hout]
    rfl

/-! ### Delimiters -/

/-- A part between two delimiters, whose values are dropped, is read by two sequences. -/
theorem between_discard (opening : Parser β) (p : Parser α) (closing : Parser γ) :
    between opening.discard p closing.discard = (opening.keepRight p).keepLeft closing := by
  ext1
  funext s
  simp only [between, keepLeft, keepRight, both, map, discard]
  rcases opening.parse s with ⟨_ | a, log⟩
  · rfl
  · simp only [Reply.map, Reply.bind, Except.map]
    rcases p.parse a.rest with ⟨_ | b, log'⟩
    · rfl
    · simp only [Reply.after, List.append_assoc]
      rcases closing.parse b.rest with ⟨_ | c, log''⟩
      · rfl
      · rfl

/-! ### All of them -/

/-- **Derived combinators agree with basic ones.** On every text, a list of alternatives has the
outcome of its two parts as alternatives, wherever it is cut in front of its last member, and so of
its members in order, taken two at a time; if all of them fail, the error is that of the last, and
with nothing to choose from it says so. An optional part has the outcome of an alternative that
reads nothing. A part between two delimiters gives the same reply as two sequences, records
included. -/
theorem derived_agree_with_basic :
    (∀ ps qs : List (Parser α), qs ≠ [] →
      (firstOf (ps ++ qs)).Agrees ((firstOf ps).orElse (firstOf qs))) ∧
    (∀ n : Nesting α, (firstOf n.members).Agrees n.parser) ∧
    (∀ (ps : List (Parser α)) (p : Parser α), (firstOf (ps ++ [p])).Agrees (ps.foldr orElse p) ∧
      ∀ s x, (firstOf (ps ++ [p])).Fails s x ↔ (∀ q ∈ ps, q.Refuses s) ∧ p.Fails s x) ∧
    (∀ s, (firstOf ([] : List (Parser α))).Fails s .noChoice) ∧
    (∀ p : Parser α, p.optional.Agrees ((p.map some).orElse (.succeed none))) ∧
    ∀ (β γ : Type) (opening : Parser β) (p : Parser α) (closing : Parser γ),
      between opening.discard p closing.discard = (opening.keepRight p).keepLeft closing :=
  ⟨fun ps _ h => agrees_firstOf_append ps h, Nesting.agrees_firstOf,
    fun ps p => ⟨agrees_firstOf_concat ps p, fun _ _ => fails_firstOf_concat⟩, fun _ => rfl,
    agrees_optional, fun _ _ => between_discard⟩

/-- Two alternatives and one more, on a text that none of them reads. -/
theorem derived_agree_with_basic_literals :
    [literal ['c']] ≠ [] ∧
    ((firstOf ([literal ['a'], literal ['b']] ++ [literal ['c']])).parse ['d']).outcome =
      .error (.expected ['c'] ['d']) ∧
    (((firstOf [literal ['a'], literal ['b']]).orElse (firstOf [literal ['c']])).parse
      ['d']).outcome = .error (.expected ['c'] ['d']) := by
  have hne : [literal ['c']] ≠ [] := List.cons_ne_nil _ _
  have hcut := derived_agree_with_basic.1 [literal ['a'], literal ['b']] [literal ['c']] hne ['d']
  exact ⟨hne, rfl, hcut.symm.trans rfl⟩

end Parser

end TagTree
