import TagTree.Event

/-!
# Replies

A reply is the outcome of a computation that may fail, together with the log it wrote. Replies
compose in two ways: `bind` goes on after a success, `handle` goes on after a failure, and both
put the log of what follows after the log so far. Nothing ever leaves the log.

## Main definitions

* `Reply`: an outcome and a log.
* `Reply.bind`, `Reply.handle`: going on after a success and after a failure.
* `Reply.after`: records made before a reply.
-/

namespace TagTree

/-- The outcome of a computation and the records it made, in order. -/
@[ext] structure Reply (ε α : Type) where
  /-- A result or the reason why there is none. -/
  outcome : Except ε α
  /-- What happened on the way. -/
  log : List Event

namespace Reply

variable {ε δ α β : Type}

/-- A result, with nothing recorded. -/
def ok (a : α) : Reply ε α :=
  ⟨.ok a, []⟩

/-- A failure, with nothing recorded. -/
def error (e : ε) : Reply ε α :=
  ⟨.error e, []⟩

/-- The reply with `events` recorded before it. -/
def after (events : List Event) (r : Reply ε α) : Reply ε α :=
  ⟨r.outcome, events ++ r.log⟩

/-- The reply with its result transformed. -/
def map (f : α → β) (r : Reply ε α) : Reply ε β :=
  ⟨r.outcome.map f, r.log⟩

/-- The reply with its reason for failing transformed. -/
def mapError (f : ε → δ) (r : Reply ε α) : Reply δ α :=
  ⟨r.outcome.mapError f, r.log⟩

/-- Goes on after a success. A failure is final. -/
def bind (r : Reply ε α) (next : α → Reply ε β) : Reply ε β :=
  match r with
  | ⟨.ok a, log⟩ => (next a).after log
  | ⟨.error e, log⟩ => ⟨.error e, log⟩

/-- Goes on after a failure. A success is final. -/
def handle (r : Reply ε α) (recover : ε → Reply δ α) : Reply δ α :=
  match r with
  | ⟨.ok a, log⟩ => ⟨.ok a, log⟩
  | ⟨.error e, log⟩ => (recover e).after log

/-! ### The parts of composed replies -/

@[simp] theorem outcome_after (events : List Event) (r : Reply ε α) :
    (r.after events).outcome = r.outcome :=
  rfl

@[simp] theorem log_after (events : List Event) (r : Reply ε α) :
    (r.after events).log = events ++ r.log :=
  rfl

@[simp] theorem outcome_map (f : α → β) (r : Reply ε α) : (r.map f).outcome = r.outcome.map f :=
  rfl

@[simp] theorem log_map (f : α → β) (r : Reply ε α) : (r.map f).log = r.log :=
  rfl

theorem bind_of_ok {r : Reply ε α} {a : α} (h : r.outcome = .ok a) (next : α → Reply ε β) :
    r.bind next = (next a).after r.log := by
  obtain ⟨outcome, log⟩ := r
  subst h
  rfl

theorem bind_of_error {r : Reply ε α} {e : ε} (h : r.outcome = .error e) (next : α → Reply ε β) :
    r.bind next = ⟨.error e, r.log⟩ := by
  obtain ⟨outcome, log⟩ := r
  subst h
  rfl

theorem handle_of_ok {r : Reply ε α} {a : α} (h : r.outcome = .ok a)
    (recover : ε → Reply δ α) : r.handle recover = ⟨.ok a, r.log⟩ := by
  obtain ⟨outcome, log⟩ := r
  subst h
  rfl

theorem handle_of_error {r : Reply ε α} {e : ε} (h : r.outcome = .error e)
    (recover : ε → Reply δ α) : r.handle recover = (recover e).after r.log := by
  obtain ⟨outcome, log⟩ := r
  subst h
  rfl

end Reply

end TagTree
