import TagTree.Parser.Repetition
import TagTree.Proofs.Parser.Reads

/-!
# The rounds of a repetition

A repetition reads the values of a chain of rounds (`Parser.Rounds`): every round reads something
from what the round before left, and on the last text the parser refuses or reads nothing. The two
repetitions differ only in that one of them needs a first success.

A parser is *exact* for a family of spellings when it reads a value precisely from the texts that
start with a spelling of it, whatever follows. Repeating an exact parser reads the longest sequence
of spellings: no further spelling starts the text that is left. Runs of characters are the first
instance.

## Main definitions

* `Parser.Rounds`: the chain of rounds from one text to another.
* `Parser.Exact`: a parser that reads the spellings of a family and nothing else.

## Main results

* `Parser.reads_many`, `Parser.reads_many1`: repetitions read the values of their rounds.
* `Parser.Exact.reads_many`, `Parser.Exact.exists_reads_many_joined_append`: a repetition of an
  exact parser reads the longest sequence.
* `Parser.reads_many_filter_anyChar`: a repetition over characters reads the longest run.
-/

namespace TagTree

namespace Parser

variable {α : Type} {p : Parser α} {s m r : Text} {a : α} {as : List α}

/-! ### Chains of rounds -/

/-- The rounds of `p` that lead from one text to another, with their values in order. -/
inductive Rounds (p : Parser α) : Text → List α → Text → Prop
  | stop {s : Text} (h : ∀ a r, p.Reads s a r → s.length ≤ r.length) : Rounds p s [] s
  | more {s m r : Text} {a : α} {as : List α} (h : p.Reads s a m) (hlt : m.length < s.length)
      (hrest : Rounds p m as r) : Rounds p s (a :: as) r

/-- On the text where the rounds end, the parser reads nothing more. -/
theorem Rounds.stalls (h : p.Rounds s as r) : ∀ b t, p.Reads r b t → r.length ≤ t.length := by
  induction h with
  | stop h => exact h
  | more _ _ _ ih => exact ih

/-- Rounds only shorten the text. -/
theorem Rounds.length_le (h : p.Rounds s as r) : r.length ≤ s.length := by
  induction h with
  | stop => exact le_rfl
  | more _ hlt _ ih => exact ih.trans hlt.le

/-- Where the parser reads something, that is the first round. -/
theorem rounds_iff_of_reads (hread : p.Reads s a m) (hlt : m.length < s.length) :
    p.Rounds s as r ↔ ∃ bs, as = a :: bs ∧ p.Rounds m bs r := by
  constructor
  · intro h
    cases h with
    | stop hstop => exact absurd hlt (Nat.not_lt.mpr (hstop _ _ hread))
    | more hread' _ hrest =>
      obtain ⟨rfl, rfl⟩ := hread.unique hread'
      exact ⟨_, rfl, hrest⟩
  · rintro ⟨bs, rfl, hrest⟩
    exact .more hread hlt hrest

/-- The rounds from a text are determined by it. -/
theorem Rounds.unique {bs : List α} {r' : Text} (h : p.Rounds s as r) (h' : p.Rounds s bs r') :
    as = bs ∧ r = r' := by
  induction h generalizing bs r' with
  | stop hstop =>
    cases h' with
    | stop => exact ⟨rfl, rfl⟩
    | more hread hlt => exact absurd hlt (Nat.not_lt.mpr (hstop _ _ hread))
  | more hread hlt _ ih =>
    obtain ⟨cs, rfl, hrest⟩ := (rounds_iff_of_reads hread hlt).mp h'
    obtain ⟨rfl, rfl⟩ := ih hrest
    exact ⟨rfl, rfl⟩

/-- Gathering follows the rounds, however many items were collected before. -/
theorem rounds_gather (p : Parser α) (collected : Nat) (s : Text) :
    p.Rounds s (p.gather collected s).values (p.gather collected s).rest := by
  induction collected, s using gather_induction p with
  | stopped collected s e h =>
    rw [gather_of_error h]
    exact .stop fun a r hread => absurd (h.symm.trans hread) nofun
  | more collected s a h hlt ih =>
    rw [gather_of_progress h hlt]
    exact .more h hlt ih
  | stalled collected s a h hge =>
    rw [gather_of_stall h hge]
    refine .stop fun b r hread => ?_
    obtain ⟨rfl, rfl⟩ := Reads.unique hread h
    exact hge

/-- **Repetition reads its rounds.** -/
theorem reads_many : (many p).Reads s as r ↔ p.Rounds s as r := by
  constructor
  · intro h
    cases h
    exact rounds_gather p 0 s
  · intro h
    obtain ⟨rfl, rfl⟩ := h.unique (rounds_gather p 0 s)
    rfl

/-- After a first success, repetition with a first item follows the rounds. -/
theorem rounds_many1 {b : Parsed α} (h : (p.parse s).outcome = .ok b) :
    ∃ bs t, (many1 p).Reads s bs t ∧ p.Rounds s bs t := by
  rcases Nat.lt_or_ge b.rest.length s.length with hlt | hge
  · refine ⟨b.value :: (p.gather 1 b.rest).values, (p.gather 1 b.rest).rest, ?_,
      .more h hlt (rounds_gather p 1 b.rest)⟩
    rw [Reads, many1_of_progress h hlt]
    rfl
  · refine ⟨[], s, ?_, .stop fun a m hread => ?_⟩
    · rw [Reads, many1_of_stall h hge]
    · obtain ⟨rfl, rfl⟩ := Reads.unique hread h
      exact hge

/-- Repetition with a first item reads the same rounds, provided that the parser does not refuse
at once. -/
theorem reads_many1 :
    (many1 p).Reads s as r ↔ (∃ a m, p.Reads s a m) ∧ p.Rounds s as r := by
  cases h : (p.parse s).outcome with
  | error e =>
    refine iff_of_false (fun hread => ?_) ?_
    · rw [Reads, many1_of_error h] at hread
      cases hread
    · rintro ⟨⟨a, m, hread⟩, -⟩
      rw [Reads, h] at hread
      cases hread
  | ok b =>
    obtain ⟨bs, t, hread, hrounds⟩ := rounds_many1 h
    constructor
    · intro h'
      obtain ⟨rfl, rfl⟩ := h'.unique hread
      exact ⟨⟨b.value, b.rest, h⟩, hrounds⟩
    · rintro ⟨-, h'⟩
      obtain ⟨rfl, rfl⟩ := h'.unique hrounds
      exact hread

/-! ### Exact parsers -/

variable {Spells : α → Text → Prop}

/-- The parser reads a value from every text that starts with a spelling of it, and from no other
text. -/
def Exact (p : Parser α) (Spells : α → Text → Prop) : Prop :=
  ∀ s a r, p.Reads s a r ↔ ∃ t, Spells a t ∧ s = t ++ r

/-- An exact parser refuses the texts that no spelling starts. -/
theorem Exact.refuses_iff (hp : p.Exact Spells) :
    p.Refuses s ↔ ¬ ∃ a t, Spells a t ∧ t <+: s := by
  rw [Parser.refuses_iff]
  constructor
  · rintro h ⟨a, t, ht, r, rfl⟩
    exact h a r ((hp _ _ _).mpr ⟨t, ht, rfl⟩)
  · intro h a r hread
    obtain ⟨t, ht, rfl⟩ := (hp _ _ _).mp hread
    exact h ⟨a, t, ht, List.prefix_append t r⟩

/-- The rounds of an exact parser read a sequence of spellings. -/
theorem Exact.joined_of_rounds (hp : p.Exact Spells) (h : p.Rounds s as r) :
    ∃ t, Text.Joined Spells as t ∧ s = t ++ r := by
  induction h with
  | stop => exact ⟨[], rfl, rfl⟩
  | more hread _ _ ih =>
    obtain ⟨u, hu, rfl⟩ := (hp _ _ _).mp hread
    obtain ⟨v, hv, rfl⟩ := ih
    exact ⟨u ++ v, ⟨u, v, hu, hv, rfl⟩, (List.append_assoc ..).symm⟩

/-- **Rounds of an exact parser on a sequence in front of a text.** They go through the sequence,
whatever follows it, and on as they do from there. -/
theorem Exact.rounds_joined_append_iff (hp : p.Exact Spells) (hne : ∀ a t, Spells a t → t ≠ [])
    {bs : List α} {t : Text} (h : Text.Joined Spells bs t) :
    p.Rounds (t ++ s) as r ↔ ∃ cs, as = bs ++ cs ∧ p.Rounds s cs r := by
  induction bs generalizing t as with
  | nil =>
    obtain rfl : t = [] := h
    simp only [List.nil_append, exists_eq_left']
  | cons b bs ih =>
    obtain ⟨u, v, hu, hv, rfl⟩ := h
    have hread : p.Reads (u ++ v ++ s) b (v ++ s) := (hp _ _ _).mpr ⟨u, hu, List.append_assoc ..⟩
    have hlt : (v ++ s).length < (u ++ v ++ s).length := by
      have := List.length_pos_iff.mpr (hne b u hu)
      simp only [List.length_append]
      omega
    simp only [rounds_iff_of_reads hread hlt, ih hv, List.cons_append]
    constructor
    · rintro ⟨_, rfl, cs, rfl, hcs⟩
      exact ⟨cs, rfl, hcs⟩
    · rintro ⟨cs, rfl, hcs⟩
      exact ⟨bs ++ cs, rfl, cs, rfl, hcs⟩

/-- An exact parser goes through a sequence of non-empty spellings as far as no further one
follows. -/
theorem Exact.rounds_of_joined (hp : p.Exact Spells) (hne : ∀ a t, Spells a t → t ≠ [])
    (hend : ¬ ∃ a t, Spells a t ∧ t <+: r) {t : Text} (h : Text.Joined Spells as t) :
    p.Rounds (t ++ r) as r := by
  have hrefuses : p.Refuses r := hp.refuses_iff.mpr hend
  have hstop : p.Rounds r [] r :=
    .stop fun a m hread => absurd hread (Parser.refuses_iff.mp hrefuses a m)
  exact (hp.rounds_joined_append_iff hne h).mpr ⟨[], (List.append_nil as).symm, hstop⟩

/-- **Longest sequences.** A repetition of an exact parser reads the spellings that its text starts
with, and no further spelling follows them. -/
theorem Exact.reads_many (hp : p.Exact Spells) (hne : ∀ a t, Spells a t → t ≠ []) :
    (many p).Reads s as r ↔
      (∃ t, Text.Joined Spells as t ∧ s = t ++ r) ∧ ¬ ∃ a t, Spells a t ∧ t <+: r := by
  rw [Parser.reads_many]
  constructor
  · intro h
    refine ⟨hp.joined_of_rounds h, ?_⟩
    rintro ⟨a, t, ht, u, rfl⟩
    have hle := h.stalls a u ((hp _ _ _).mpr ⟨t, ht, rfl⟩)
    have hpos := List.length_pos_iff.mpr (hne a t ht)
    rw [List.length_append] at hle
    omega
  · rintro ⟨⟨t, ht, rfl⟩, hend⟩
    exact hp.rounds_of_joined hne hend ht

/-- No sequence of spellings at the start of a text goes beyond what a repetition reads: it is read
first, and what is left at the end comes from the text behind it. -/
theorem Exact.exists_reads_many_joined_append (hp : p.Exact Spells)
    (hne : ∀ a t, Spells a t → t ≠ []) {bs : List α} {t : Text} (h : Text.Joined Spells bs t)
    (s : Text) : ∃ cs r, (many p).Reads (t ++ s) (bs ++ cs) r ∧ r <:+ s := by
  have hbehind := rounds_gather p 0 s
  obtain ⟨u, -, hu⟩ := hp.joined_of_rounds hbehind
  exact ⟨_, _, Parser.reads_many.mpr ((hp.rounds_joined_append_iff hne h).mpr ⟨_, rfl, hbehind⟩),
    u, hu.symm⟩

/-! ### Runs of characters -/

theorem exact_filter_anyChar (test : Char → Bool) :
    (anyChar.filter test).Exact fun c t => t = [c] ∧ test c = true := by
  intro s c r
  rw [reads_filter, reads_anyChar]
  constructor
  · rintro ⟨rfl, hc⟩
    exact ⟨[c], ⟨rfl, hc⟩, rfl⟩
  · rintro ⟨t, ⟨rfl, hc⟩, rfl⟩
    exact ⟨rfl, hc⟩

/-- A repetition over characters reads the longest run of those that pass the test. -/
theorem reads_many_filter_anyChar {test : Char → Bool} {w : Text} :
    (many (anyChar.filter test)).Reads s w r ↔
      s = w ++ r ∧ (∀ c ∈ w, test c = true) ∧ Text.Stops test r := by
  have hne : ∀ c t, t = [c] ∧ test c = true → t ≠ [] := by
    rintro c t ⟨rfl, -⟩
    exact List.cons_ne_nil c []
  rw [(exact_filter_anyChar test).reads_many hne]
  simp only [Text.joined_characters_iff]
  constructor
  · rintro ⟨⟨t, ⟨rfl, hw⟩, rfl⟩, hend⟩
    refine ⟨rfl, hw, fun c hc => ?_⟩
    cases htest : test c with
    | false => rfl
    | true =>
      obtain ⟨u, hu⟩ := List.head?_eq_some_iff.mp hc
      exact absurd ⟨c, [c], ⟨rfl, htest⟩, u, hu.symm⟩ hend
  · rintro ⟨rfl, hw, hr⟩
    refine ⟨⟨w, ⟨rfl, hw⟩, rfl⟩, ?_⟩
    rintro ⟨c, t, ⟨rfl, hc⟩, u, rfl⟩
    exact absurd (hr c rfl) (by simp [hc])

/-- A repetition over characters that needs a first one reads the longest run, unless it is
empty. -/
theorem reads_many1_filter_anyChar {test : Char → Bool} {w : Text} :
    (many1 (anyChar.filter test)).Reads s w r ↔
      w ≠ [] ∧ s = w ++ r ∧ (∀ c ∈ w, test c = true) ∧ Text.Stops test r := by
  rw [reads_many1, ← reads_many, reads_many_filter_anyChar]
  refine and_congr_left ?_
  rintro ⟨rfl, hw, hr⟩
  constructor
  · rintro ⟨c, m, hread⟩ rfl
    rw [List.nil_append, reads_filter, reads_anyChar] at hread
    obtain ⟨rfl, hc⟩ := hread
    exact absurd (hr c rfl) (by simp [hc])
  · intro hne
    obtain ⟨c, w, rfl⟩ := List.exists_cons_of_ne_nil hne
    exact ⟨c, w ++ r, reads_filter.mpr ⟨reads_anyChar.mpr rfl, hw c List.mem_cons_self⟩⟩

end Parser

end TagTree
