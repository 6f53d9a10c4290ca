import TagTree.Parser.Choice
import TagTree.Parser.Repetition

/-!
# Context notes in replies

Errors carry notes about what was being parsed, and so do the errors that are kept in the log. This
file drops the notes of a whole run: what is left is the cause of the error and of every error in
the log. A parser whose notes are dropped is again a parser, and dropping notes commutes with
everything that parsers are made of: no combinator looks into the errors that it forwards, records
or replaces. A parser with a note added and the parser itself are the same without their notes.

## Main definitions

* `Event.withoutNotes`, `Reply.withoutNotes`: records and replies whose errors are causes.
* `Parser.withoutNotes`: the parser whose replies have no notes.

## Main results

* `Parser.withoutNotes_inContext`: a note that is added is dropped.
* `Parser.withoutNotes_bind`, `Parser.withoutNotes_orElse`, `Parser.withoutNotes_firstOf`,
  `Parser.withoutNotes_many`, `Parser.withoutNotes_many1`: control flow does not see the notes.
-/

namespace TagTree

/-! ### Records -/

/-- The record with the cause in place of the error that it keeps. -/
def Event.withoutNotes : Event → Event
  | alternativeFailed x => .alternativeFailed x.cause
  | choiceFailed x => .choiceFailed x.cause
  | repetitionStopped x collected => .repetitionStopped x.cause collected
  | repetitionStalled collected => .repetitionStalled collected
  | firstFailed x => .firstFailed x.cause
  | firstStalled => .firstStalled
  | errorSuppressed x => .errorSuppressed x.cause
  | documentStarted => .documentStarted
  | documentParsed root => .documentParsed root
  | restyleStarted style => .restyleStarted style
  | nestingExceeded => .nestingExceeded

theorem Event.withoutNotes_eq_nestingExceeded {event : Event} :
    event.withoutNotes = .nestingExceeded ↔ event = .nestingExceeded := by
  cases event <;> simp only [withoutNotes, reduceCtorEq]

/-! ### Replies -/

namespace Reply

variable {α β : Type} {r : Reply ParseError α}

/-- The reply with the causes in place of its error and of the errors in its log. -/
def withoutNotes (r : Reply ParseError α) : Reply ParseError α :=
  ⟨r.outcome.mapError ParseError.cause, r.log.map Event.withoutNotes⟩

theorem withoutNotes_after (events : List Event) (r : Reply ParseError α) :
    (r.after events).withoutNotes = r.withoutNotes.after (events.map Event.withoutNotes) := by
  rw [withoutNotes, log_after, List.map_append]
  rfl

theorem withoutNotes_map (f : α → β) (r : Reply ParseError α) :
    (r.map f).withoutNotes = r.withoutNotes.map f := by
  obtain ⟨outcome, log⟩ := r
  cases outcome <;> rfl

/-- Notes on notes are dropped with them. -/
theorem withoutNotes_mapError_inContext (context : String) (r : Reply ParseError α) :
    (r.mapError (.inContext context)).withoutNotes = r.withoutNotes := by
  obtain ⟨outcome, log⟩ := r
  cases outcome <;> rfl

theorem withoutNotes_bind (r : Reply ParseError α) (next : α → Reply ParseError β) :
    (r.bind next).withoutNotes = r.withoutNotes.bind fun a => (next a).withoutNotes := by
  obtain ⟨outcome, log⟩ := r
  cases outcome with
  | error x => rfl
  | ok a => exact withoutNotes_after log (next a)

/-- What goes on after a failure may show the error in its log only. -/
theorem withoutNotes_handle {recover recover' : ParseError → Reply ParseError α}
    (r : Reply ParseError α) (h : ∀ x, (recover x).withoutNotes = recover' x.cause) :
    (r.handle recover).withoutNotes = r.withoutNotes.handle recover' := by
  obtain ⟨outcome, log⟩ := r
  cases outcome with
  | ok a => rfl
  | error x => exact (withoutNotes_after log (recover x)).trans (congrArg _ (h x))

end Reply

/-! ### Parsers -/

namespace Parser

variable {α β : Type} {p : Parser α} {s : Text}

/-- The parser whose replies have no notes. -/
def withoutNotes (p : Parser α) : Parser α :=
  ⟨fun s => (p.parse s).withoutNotes⟩

@[simp] theorem withoutNotes_anyChar : anyChar.withoutNotes = anyChar := by
  ext s : 2
  cases s <;> rfl

@[simp] theorem withoutNotes_literal (t : Text) : (literal t).withoutNotes = literal t := by
  ext s : 2
  simp only [withoutNotes, literal]
  cases t.isPrefixOf? s <;> rfl

@[simp] theorem withoutNotes_nameRun : nameRun.withoutNotes = nameRun := rfl

@[simp] theorem withoutNotes_succeed (a : α) : (succeed a).withoutNotes = succeed a := rfl

@[simp] theorem withoutNotes_fail (message : String) :
    (fail message : Parser α).withoutNotes = fail message := rfl

@[simp] theorem withoutNotes_nestingExceeded :
    (nestingExceeded : Parser α).withoutNotes = nestingExceeded := rfl

/-! ### One parser -/

@[simp] theorem withoutNotes_map (f : α → β) (p : Parser α) :
    (p.map f).withoutNotes = p.withoutNotes.map f := by
  ext s : 2
  exact Reply.withoutNotes_map _ (p.parse s)

@[simp] theorem withoutNotes_discard (p : Parser α) :
    p.discard.withoutNotes = p.withoutNotes.discard :=
  withoutNotes_map _ p

/-- The error of a value that is turned down has no notes. -/
@[simp] theorem withoutNotes_filter (test : α → Bool) (p : Parser α) :
    (p.filter test).withoutNotes = p.withoutNotes.filter test := by
  ext s : 2
  refine (Reply.withoutNotes_bind (p.parse s) _).trans ?_
  refine congrArg (p.withoutNotes.parse s).bind (funext fun a => ?_)
  cases test a.value <;> rfl

/-- **A note that is added is dropped.** -/
@[simp] theorem withoutNotes_inContext (context : String) (p : Parser α) :
    (p.inContext context).withoutNotes = p.withoutNotes := by
  ext s : 2
  exact Reply.withoutNotes_mapError_inContext context (p.parse s)

@[simp] theorem withoutNotes_delay (build : Unit → Parser α) :
    (delay build).withoutNotes = delay fun _ => (build ()).withoutNotes := rfl

/-! ### Parsers in sequence -/

@[simp] theorem withoutNotes_both (p : Parser α) (q : Parser β) :
    (p.both q).withoutNotes = p.withoutNotes.both q.withoutNotes := by
  ext s : 2
  refine (Reply.withoutNotes_bind (p.parse s) _).trans ?_
  exact congrArg (p.withoutNotes.parse s).bind (funext fun a => Reply.withoutNotes_map _ _)

@[simp] theorem withoutNotes_keepLeft (p : Parser α) (q : Parser β) :
    (p.keepLeft q).withoutNotes = p.withoutNotes.keepLeft q.withoutNotes := by
  rw [keepLeft, withoutNotes_map, withoutNotes_both, keepLeft]

@[simp] theorem withoutNotes_keepRight (p : Parser α) (q : Parser β) :
    (p.keepRight q).withoutNotes = p.withoutNotes.keepRight q.withoutNotes := by
  rw [keepRight, withoutNotes_map, withoutNotes_both, keepRight]

@[simp] theorem withoutNotes_bind (p : Parser α) (next : α → Parser β) :
    (p.bind next).withoutNotes = p.withoutNotes.bind fun a => (next a).withoutNotes := by
  ext s : 2
  exact Reply.withoutNotes_bind (p.parse s) _

@[simp] theorem withoutNotes_between (opening : Parser Unit) (p : Parser α)
    (closing : Parser Unit) : (between opening p closing).withoutNotes =
      between opening.withoutNotes p.withoutNotes closing.withoutNotes := by
  ext s : 2
  refine (Reply.withoutNotes_bind (opening.parse s) _).trans ?_
  refine congrArg (opening.withoutNotes.parse s).bind (funext fun a => ?_)
  refine (Reply.withoutNotes_bind (p.parse a.rest) _).trans ?_
  exact congrArg (p.withoutNotes.parse a.rest).bind (funext fun b => Reply.withoutNotes_map _ _)

/-! ### Alternatives -/

/-- The first error is recorded, and no more is done with it. -/
@[simp] theorem withoutNotes_orElse (p q : Parser α) :
    (p.orElse q).withoutNotes = p.withoutNotes.orElse q.withoutNotes := by
  ext s : 2
  exact Reply.withoutNotes_handle (p.parse s) fun x => Reply.withoutNotes_after _ (q.parse s)

theorem withoutNotes_firstOfAfter (last : ParseError) (ps : List (Parser α)) (s : Text) :
    (firstOfAfter last ps s).withoutNotes =
      firstOfAfter last.cause (ps.map withoutNotes) s := by
  induction ps generalizing last with
  | nil => rfl
  | cons p ps ih =>
    refine Reply.withoutNotes_handle (p.parse s) fun x => ?_
    rw [Reply.withoutNotes_after, ih]
    rfl

@[simp] theorem withoutNotes_firstOf (ps : List (Parser α)) :
    (firstOf ps).withoutNotes = firstOf (ps.map withoutNotes) := by
  ext s : 2
  exact withoutNotes_firstOfAfter .noChoice ps s

theorem outcome_withoutNotes_of_error {x : ParseError} (h : (p.parse s).outcome = .error x) :
    (p.withoutNotes.parse s).outcome = .error x.cause :=
  congrArg (Except.mapError ParseError.cause) h

theorem outcome_withoutNotes_of_ok {a : Parsed α} (h : (p.parse s).outcome = .ok a) :
    (p.withoutNotes.parse s).outcome = .ok a :=
  congrArg (Except.mapError ParseError.cause) h

/-- The error of a part that is left out is recorded, and no more is done with it. -/
@[simp] theorem withoutNotes_optional (p : Parser α) :
    p.optional.withoutNotes = p.withoutNotes.optional := by
  ext s : 2
  change (p.optional.parse s).withoutNotes = p.withoutNotes.optional.parse s
  cases hout : (p.parse s).outcome with
  | ok a =>
    rw [optional_of_ok hout, optional_of_ok (outcome_withoutNotes_of_ok hout)]
    rfl
  | error x =>
    rw [optional_of_error hout, optional_of_error (outcome_withoutNotes_of_error hout)]
    simp only [Reply.withoutNotes, List.map_append]
    rfl

/-! ### Repetitions -/

/-- A repetition goes the same rounds and ends for the same reason. -/
theorem gather_withoutNotes (p : Parser α) (collected : Nat) (s : Text) :
    p.withoutNotes.gather collected s = ⟨(p.gather collected s).values,
      (p.gather collected s).rest, (p.gather collected s).log.map Event.withoutNotes⟩ := by
  induction collected, s using gather_induction p with
  | stopped collected s x hout =>
    rw [gather_of_error hout, gather_of_error (outcome_withoutNotes_of_error hout)]
    simp only [List.map_append]
    rfl
  | more collected s a hout hlt ih =>
    rw [gather_of_progress hout hlt, gather_of_progress (outcome_withoutNotes_of_ok hout) hlt, ih]
    simp only [Gathered.cons, List.map_append]
    rfl
  | stalled collected s a hout hge =>
    rw [gather_of_stall hout hge, gather_of_stall (outcome_withoutNotes_of_ok hout) hge]
    simp only [List.map_append]
    rfl

@[simp] theorem withoutNotes_many (p : Parser α) :
    (many p).withoutNotes = many p.withoutNotes := by
  ext s : 2
  simp only [many, gather_withoutNotes]
  rfl

/-- The error of a repetition without a first item has no notes. -/
@[simp] theorem withoutNotes_many1 (p : Parser α) :
    (many1 p).withoutNotes = many1 p.withoutNotes := by
  ext s : 2
  change ((many1 p).parse s).withoutNotes = (many1 p.withoutNotes).parse s
  cases hout : (p.parse s).outcome with
  | error x =>
    rw [many1_of_error hout, many1_of_error (outcome_withoutNotes_of_error hout)]
    simp only [Reply.withoutNotes, List.map_append]
    rfl
  | ok a =>
    rcases Nat.lt_or_ge a.rest.length s.length with hlt | hge
    · rw [many1_of_progress hout hlt, many1_of_progress (outcome_withoutNotes_of_ok hout) hlt,
        gather_withoutNotes]
      simp only [Gathered.cons, Gathered.reply, Reply.withoutNotes, List.map_append]
      rfl
    · rw [many1_of_stall hout hge, many1_of_stall (outcome_withoutNotes_of_ok hout) hge]
      simp only [Reply.withoutNotes, List.map_append]
      rfl

end Parser

end TagTree
