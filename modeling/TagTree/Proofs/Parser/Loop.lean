import TagTree.Proofs.Parser.Cursor

/-!
# The loop behind a repetition

A repetition is a loop. It carries what has been collected from round to round, and all that it
asks of a round is whether the text that is left has another length than before: if so, the value
is added and the loop goes on with that text, and if not, or if the parser fails, it is over. Asked
no more than this, the loop need not end, since a parser might give back more text than it was
given.

A parser whose successes leave a suffix of their text cannot do so. For such a parser every round
that goes on shortens the text, and the loop is over after at most one round more than the text has
characters. What it has then is what it had at the start, followed by what `Parser.gather` brings
together from there.

## Main definitions

* `Parser.LeavesSuffix`: every success leaves a suffix of the text.
* `Parser.HaltsOn`: the texts on which a repetition ends.
* `Parser.loopRound`, `Parser.loop`: one round of the loop, and a bounded number of them.

## Main results

* `Parser.LeavesSuffix.loop_eq_done`: the loop ends, whatever was collected before it started.
* `Parser.LeavesSuffix.loop_many`, `Parser.LeavesSuffix.loop_many1`: the two repetitions.
-/

namespace TagTree

namespace Gathered

variable {α : Type}

/-- What has been gathered, with what is gathered from where it ended. -/
def followedBy (g h : Gathered α) : Gathered α :=
  ⟨g.values ++ h.values, h.rest, g.log ++ h.log⟩

theorem followedBy_assoc (g h k : Gathered α) :
    (g.followedBy h).followedBy k = g.followedBy (h.followedBy k) := by
  simp only [followedBy, List.append_assoc]

end Gathered

namespace Parser

variable {α : Type} {p : Parser α}

/-! ### Parsers that leave a suffix -/

/-- Every success of the parser leaves a suffix of the text. Nothing is asked of its failures. -/
def LeavesSuffix (p : Parser α) : Prop :=
  ∀ s a r, p.Reads s a r → r <:+ s

theorem StaysInText.leavesSuffix (hp : p.StaysInText) : p.LeavesSuffix :=
  fun s a r h => (hp s).rest ⟨a, r⟩ h

/-- A success that leaves a text of the same length has read nothing, and any other one has read
something. -/
theorem LeavesSuffix.eq_or_length_lt (hp : p.LeavesSuffix) {s r : Text} {a : α}
    (h : p.Reads s a r) : r = s ∨ r.length < s.length := by
  have hsuffix : r <:+ s := hp s a r h
  by_cases hlength : r.length = s.length
  · exact .inl (hsuffix.eq_of_length hlength)
  · exact .inr (Nat.lt_of_le_of_ne hsuffix.length_le hlength)

/-- The parser fails on the text, or it succeeds on it and reads nothing. -/
def HaltsOn (p : Parser α) (r : Text) : Prop :=
  p.Refuses r ∨ ∃ a, p.Reads r a r

/-! ### Rounds -/

/-- One round of the loop on what has been gathered so far. -/
def loopRound (p : Parser α) (g : Gathered α) : ForInStep (Gathered α) :=
  match p.parse g.rest with
  | ⟨.error e, log⟩ =>
    .done (g.followedBy ⟨[], g.rest, log ++ [.repetitionStopped e g.values.length]⟩)
  | ⟨.ok ⟨a, rest⟩, log⟩ =>
    if rest.length = g.rest.length then
      .done (g.followedBy ⟨[], g.rest, log ++ [.repetitionStalled g.values.length]⟩)
    else .yield (g.followedBy ⟨[a], rest, log⟩)

/-- The loop, left after `n` rounds if it is not over by then. -/
def loop (p : Parser α) : (n : Nat) → Gathered α → ForInStep (Gathered α)
  | 0, g => .yield g
  | n + 1, g => match p.loopRound g with
    | .yield g' => p.loop n g'
    | .done g' => .done g'

/-- What has been gathered, completed by what is still to be gathered. -/
def complete (p : Parser α) (g : Gathered α) : Gathered α :=
  g.followedBy (p.gather g.values.length g.rest)

variable {g : Gathered α} {a : α} {r : Text}

/-- A round that fails or reads nothing completes what has been gathered. -/
theorem loopRound_eq_done (h : p.HaltsOn g.rest) :
    p.loopRound g = .done (p.complete g) := by
  rw [complete, loopRound]
  rcases h with ⟨e, he⟩ | ⟨a, ha⟩
  · rw [gather_of_error he]
    generalize p.parse g.rest = reply at he
    obtain ⟨outcome, log⟩ := reply
    subst he
    rfl
  · rw [gather_of_stall ha le_rfl]
    rw [Reads] at ha
    generalize p.parse g.rest = reply at ha
    obtain ⟨outcome, log⟩ := reply
    subst ha
    exact if_pos rfl

/-- A round that reads something adds its value. -/
theorem loopRound_eq_yield (h : p.Reads g.rest a r) (hlt : r.length < g.rest.length) :
    p.loopRound g = .yield (g.followedBy ⟨[a], r, (p.parse g.rest).log⟩) := by
  rw [loopRound]
  rw [Reads] at h
  generalize p.parse g.rest = reply at h
  obtain ⟨outcome, log⟩ := reply
  subst h
  exact if_neg hlt.ne

/-- What the loop will have in the end does not change in a round that reads something. -/
theorem complete_of_progress (h : p.Reads g.rest a r) (hlt : r.length < g.rest.length) :
    p.complete (g.followedBy ⟨[a], r, (p.parse g.rest).log⟩) = p.complete g := by
  have hcollected : (g.values ++ [a]).length = g.values.length + 1 := List.length_append
  have hgather : p.gather g.values.length g.rest =
      Gathered.followedBy ⟨[a], r, (p.parse g.rest).log⟩ (p.gather (g.values.length + 1) r) :=
    gather_of_progress h hlt g.values.length
  rw [complete, complete, hgather, ← Gathered.followedBy_assoc, ← hcollected]
  rfl

/-- **One round.** It ends the loop with what has been gathered completed, or it goes on with a
shorter text and with the same to come to in the end. -/
theorem LeavesSuffix.loopRound_cases (hp : p.LeavesSuffix) (g : Gathered α) :
    p.loopRound g = .done (p.complete g) ∨
      ∃ g', p.loopRound g = .yield g' ∧ g'.rest.length < g.rest.length ∧
        p.complete g' = p.complete g := by
  cases h : (p.parse g.rest).outcome with
  | error e => exact .inl (loopRound_eq_done (.inl ⟨e, h⟩))
  | ok a =>
    rcases hp.eq_or_length_lt h with heq | hlt
    · exact .inl (loopRound_eq_done (.inr ⟨a.value, heq ▸ h⟩))
    · exact .inr ⟨_, loopRound_eq_yield h hlt, hlt, complete_of_progress h hlt⟩

/-! ### Runs of the loop -/

theorem parse_many (p : Parser α) (s : Text) : (many p).parse s = (p.gather 0 s).reply :=
  rfl

/-- **The loop ends.** Whatever has been gathered before, one round more than the text has
characters is enough to complete it. -/
theorem LeavesSuffix.loop_eq_done (hp : p.LeavesSuffix) {n : Nat} (g : Gathered α)
    (hn : g.rest.length < n) : p.loop n g = .done (p.complete g) := by
  induction n generalizing g with
  | zero => exact absurd hn (Nat.not_lt_zero _)
  | succ n ih =>
    rw [loop]
    rcases hp.loopRound_cases g with hdone | ⟨g', hyield, hlt, hcomplete⟩
    · rw [hdone]
    · have hrest : p.loop n g' = .done (p.complete g') := ih g' (by omega)
      rw [hyield, ← hcomplete]
      exact hrest

/-- Repetition is the loop from nothing. -/
theorem LeavesSuffix.loop_many (hp : p.LeavesSuffix) (s : Text) :
    ∃ g, (many p).parse s = g.reply ∧ ∀ n, s.length < n → p.loop n ⟨[], s, []⟩ = .done g :=
  ⟨p.gather 0 s, rfl, fun _ => hp.loop_eq_done ⟨[], s, []⟩⟩

/-- Repetition with a first item is the loop from its value, provided that the first round reads
something. -/
theorem LeavesSuffix.loop_many1 (hp : p.LeavesSuffix) {s : Text} (h : p.Reads s a r)
    (hlt : r.length < s.length) :
    ∃ g, (many1 p).parse s = g.reply ∧
      ∀ n, r.length < n → p.loop n ⟨[a], r, (p.parse s).log⟩ = .done g :=
  ⟨_, many1_of_progress h hlt, fun _ => hp.loop_eq_done ⟨[a], r, (p.parse s).log⟩⟩

end Parser

end TagTree
