import TagTree.Parser.Basic

/-!
# Repetition

A repetition applies a parser again and again, each time to what the last application left over,
and collects the values. It ends at the first failure, and also at the first success that reads
nothing, since that would repeat forever; the value of such a success is dropped. Either way the
last record of the log says why the repetition ended. As every further round starts on a shorter
text, a repetition of any parser whatever comes to an end.

## Main definitions

* `Parser.gather`: the rounds of a repetition from a given number of collected items on.
* `Parser.many`, `Parser.many1`: repetition, and repetition that needs a first item.
-/

namespace TagTree

/-- What a repetition brought together: the values, the text left over, and the log. -/
structure Gathered (α : Type) where
  /-- The values in order. -/
  values : List α
  /-- The text on which the repetition ended. -/
  rest : Text
  /-- The logs of all rounds, and why the repetition ended. -/
  log : List Event

namespace Gathered

variable {α : Type}

/-- The result with one more value in front, read by a round that wrote `log`. -/
def cons (a : α) (log : List Event) (g : Gathered α) : Gathered α :=
  ⟨a :: g.values, g.rest, log ++ g.log⟩

/-- A repetition always succeeds. -/
def reply (g : Gathered α) : Reply ParseError (Parsed (List α)) :=
  ⟨.ok ⟨g.values, g.rest⟩, g.log⟩

end Gathered

namespace Parser

variable {α : Type}

/-- The rounds of a repetition on `s`, after `collected` items. -/
def gather (p : Parser α) (collected : Nat) (s : Text) : Gathered α :=
  match p.parse s with
  | ⟨.error e, log⟩ => ⟨[], s, log ++ [.repetitionStopped e collected]⟩
  | ⟨.ok ⟨a, rest⟩, log⟩ =>
    if rest.length < s.length then (gather p (collected + 1) rest).cons a log
    else ⟨[], s, log ++ [.repetitionStalled collected]⟩
termination_by s.length

/-- Repeats `p` as long as it succeeds and reads something. It never fails. -/
def many (p : Parser α) : Parser (List α) :=
  ⟨fun s => (p.gather 0 s).reply⟩

/-- Repeats `p`, which has to succeed at first. Its own error is recorded and replaced by one that
shows the whole input. A first success that reads nothing is dropped like any later one. -/
def many1 (p : Parser α) : Parser (List α) :=
  ⟨fun s => match p.parse s with
    | ⟨.error e, log⟩ => ⟨.error (.noItem s), log ++ [.firstFailed e]⟩
    | ⟨.ok ⟨a, rest⟩, log⟩ =>
      if rest.length < s.length then ((p.gather 1 rest).cons a log).reply
      else ⟨.ok ⟨[], s⟩, log ++ [.firstStalled]⟩⟩

/-! ### The rounds one by one -/

section Rounds

variable {p : Parser α} {s : Text}

/-- A round that fails ends the repetition before it. -/
theorem gather_of_error {e : ParseError} (h : (p.parse s).outcome = .error e) (collected : Nat) :
    p.gather collected s = ⟨[], s, (p.parse s).log ++ [.repetitionStopped e collected]⟩ := by
  rw [gather]
  generalize p.parse s = r at h
  obtain ⟨outcome, log⟩ := r
  subst h
  rfl

/-- A round that reads something adds its value and goes on with what it left over. -/
theorem gather_of_progress {a : Parsed α} (h : (p.parse s).outcome = .ok a)
    (hlt : a.rest.length < s.length) (collected : Nat) :
    p.gather collected s = (p.gather (collected + 1) a.rest).cons a.value (p.parse s).log := by
  rw [gather]
  generalize p.parse s = r at h
  obtain ⟨outcome, log⟩ := r
  subst h
  exact if_pos hlt

/-- A round that reads nothing ends the repetition before it. -/
theorem gather_of_stall {a : Parsed α} (h : (p.parse s).outcome = .ok a)
    (hle : s.length ≤ a.rest.length) (collected : Nat) :
    p.gather collected s = ⟨[], s, (p.parse s).log ++ [.repetitionStalled collected]⟩ := by
  rw [gather]
  generalize p.parse s = r at h
  obtain ⟨outcome, log⟩ := r
  subst h
  exact if_neg (Nat.not_lt.mpr hle)

/-- A repetition that needs a first item fails if its first round does. -/
theorem many1_of_error {e : ParseError} (h : (p.parse s).outcome = .error e) :
    (many1 p).parse s = ⟨.error (.noItem s), (p.parse s).log ++ [.firstFailed e]⟩ := by
  simp only [many1]
  generalize p.parse s = r at h
  obtain ⟨outcome, log⟩ := r
  subst h
  rfl

/-- A first round that reads something is followed by further rounds. -/
theorem many1_of_progress {a : Parsed α} (h : (p.parse s).outcome = .ok a)
    (hlt : a.rest.length < s.length) :
    (many1 p).parse s = ((p.gather 1 a.rest).cons a.value (p.parse s).log).reply := by
  simp only [many1]
  generalize p.parse s = r at h
  obtain ⟨outcome, log⟩ := r
  subst h
  exact if_pos hlt

/-- A first round that reads nothing is dropped, and no other follows. -/
theorem many1_of_stall {a : Parsed α} (h : (p.parse s).outcome = .ok a)
    (hle : s.length ≤ a.rest.length) :
    (many1 p).parse s = ⟨.ok ⟨[], s⟩, (p.parse s).log ++ [.firstStalled]⟩ := by
  simp only [many1]
  generalize p.parse s = r at h
  obtain ⟨outcome, log⟩ := r
  subst h
  exact if_neg (Nat.not_lt.mpr hle)

end Rounds

/-- **Induction on the rounds of a repetition.** A round fails, or it reads something and is
followed by the rounds on what it left over, or it reads nothing. -/
theorem gather_induction (p : Parser α) {motive : Nat → Text → Prop}
    (stopped : ∀ collected s e, (p.parse s).outcome = .error e → motive collected s)
    (more : ∀ collected s a, (p.parse s).outcome = .ok a → a.rest.length < s.length →
      motive (collected + 1) a.rest → motive collected s)
    (stalled : ∀ collected s a, (p.parse s).outcome = .ok a → s.length ≤ a.rest.length →
      motive collected s)
    (collected : Nat) (s : Text) : motive collected s := by
  induction hn : s.length using Nat.strongRecOn generalizing s collected with
  | ind n ih =>
    cases h : (p.parse s).outcome with
    | error e => exact stopped collected s e h
    | ok a =>
      rcases Nat.lt_or_ge a.rest.length s.length with hlt | hge
      · exact more collected s a h hlt (ih a.rest.length (hn ▸ hlt) (collected + 1) a.rest rfl)
      · exact stalled collected s a h hge

end Parser

end TagTree
