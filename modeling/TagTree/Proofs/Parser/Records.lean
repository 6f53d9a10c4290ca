import TagTree.Proofs.Parser.Rounds

/-!
# What a parser records

Whatever a parser does is put together from what its parts do, and so is its log: nothing is
recorded but what the parts record and the few records that the alternatives and the repetitions
make themselves. So a property of all records is proved part by part (`Parser.Records`), where a
part in a sequence only matters on the texts that it is given.

A repetition warns when its parser succeeds and reads nothing. A parser whose successes always read
something (`Parser.Progresses`) never gives cause for that.

## Main definitions

* `Parser.Progresses`: a parser whose successes read at least one character.
* `Reply.Records`, `Parser.Records`: a property of all records.

## Main results

* `Parser.records_both`, `Parser.records_between`, `Parser.records_bind`: parsers in sequence.
* `Parser.records_orElse`: two alternatives.
* `Parser.records_many`, `Parser.records_many1`: repetitions of a parser that progresses.
-/

namespace TagTree

namespace Parser

variable {α : Type} {p : Parser α}

/-! ### Progress -/

/-- Every success of the parser reads at least one character. -/
def Progresses (p : Parser α) : Prop :=
  ∀ s a r, p.Reads s a r → r.length < s.length

/-- An exact parser progresses if no spelling is empty. -/
theorem Exact.progresses {Spells : α → Text → Prop} (hp : p.Exact Spells)
    (hne : ∀ a t, Spells a t → t ≠ []) : p.Progresses := by
  intro s a r hread
  obtain ⟨t, ht, rfl⟩ := (hp s a r).mp hread
  have hpos := List.length_pos_iff.mpr (hne a t ht)
  rw [List.length_append]
  omega

theorem progresses_filter_anyChar (test : Char → Bool) : (anyChar.filter test).Progresses := by
  refine (exact_filter_anyChar test).progresses ?_
  rintro c t ⟨rfl, -⟩
  exact List.cons_ne_nil c []

/-- The rounds of a parser that progresses end where it refuses. -/
theorem Rounds.refuses {s r : Text} {as : List α} (h : p.Rounds s as r) (hp : p.Progresses) :
    p.Refuses r := by
  refine refuses_iff.mpr fun a t hread => ?_
  exact absurd (hp r a t hread) (Nat.not_lt.mpr (h.stalls a t hread))

end Parser

/-! ### Records of replies -/

namespace Reply

variable {ε δ α β : Type} {P : Event → Prop} {r : Reply ε α}

/-- All records of the reply have the property. -/
def Records (P : Event → Prop) (r : Reply ε α) : Prop :=
  ∀ event ∈ r.log, P event

theorem Records.after {events : List Event} (h : r.Records P)
    (hevents : ∀ event ∈ events, P event) : (r.after events).Records P :=
  List.forall_mem_append.mpr ⟨hevents, h⟩

theorem Records.bind {next : α → Reply ε β} (h : r.Records P)
    (hnext : ∀ a, r.outcome = .ok a → (next a).Records P) : (r.bind next).Records P := by
  cases hout : r.outcome with
  | error e =>
    rw [bind_of_error hout]
    exact h
  | ok a =>
    rw [bind_of_ok hout]
    exact (hnext a hout).after h

theorem Records.handle {recover : ε → Reply δ α} (h : r.Records P)
    (hrecover : ∀ e, (recover e).Records P) : (r.handle recover).Records P := by
  cases hout : r.outcome with
  | error e =>
    rw [handle_of_error hout]
    exact (hrecover e).after h
  | ok a =>
    rw [handle_of_ok hout]
    exact h

end Reply

namespace Parser

variable {α β : Type} {P : Event → Prop} {p : Parser α} {q : Parser β} {s : Text}

/-- All records that the parser makes on `s` have the property. -/
def Records (P : Event → Prop) (p : Parser α) (s : Text) : Prop :=
  (p.parse s).Records P

/-! ### Looking at characters -/

theorem records_anyChar (s : Text) : anyChar.Records P s := by
  cases s with
  | nil => exact List.forall_mem_nil P
  | cons c s => exact List.forall_mem_nil P

theorem records_literal (t s : Text) : (literal t).Records P s := by
  rw [Records, literal]
  cases h : t.isPrefixOf? s with
  | none =>
    simp only [h]
    exact List.forall_mem_nil P
  | some r =>
    simp only [h]
    exact List.forall_mem_nil P

theorem records_nameRun (s : Text) : nameRun.Records P s :=
  List.forall_mem_nil P

/-! ### One parser -/

theorem records_map {f : α → β} : (p.map f).Records P s ↔ p.Records P s :=
  Iff.rfl

theorem records_filter {test : α → Bool} (hp : p.Records P s) : (p.filter test).Records P s := by
  refine Reply.Records.bind hp fun a _ => ?_
  split
  · exact List.forall_mem_nil P
  · exact List.forall_mem_nil P

/-! ### Parsers in sequence -/

theorem records_both (hp : p.Records P s) (hq : ∀ a m, p.Reads s a m → q.Records P m) :
    (p.both q).Records P s :=
  Reply.Records.bind hp fun a ha => hq a.value a.rest ha

theorem records_keepLeft (hp : p.Records P s) (hq : ∀ a m, p.Reads s a m → q.Records P m) :
    (p.keepLeft q).Records P s :=
  records_both hp hq

theorem records_keepRight (hp : p.Records P s) (hq : ∀ a m, p.Reads s a m → q.Records P m) :
    (p.keepRight q).Records P s :=
  records_both hp hq

theorem records_bind {next : α → Parser β} (hp : p.Records P s)
    (hnext : ∀ a m, p.Reads s a m → (next a).Records P m) : (p.bind next).Records P s :=
  Reply.Records.bind hp fun a ha => hnext a.value a.rest ha

theorem records_between {opening closing : Parser Unit} (hopening : opening.Records P s)
    (hp : ∀ m, opening.Reads s () m → p.Records P m)
    (hclosing : ∀ m, closing.Records P m) : (between opening p closing).Records P s := by
  refine Reply.Records.bind hopening fun a ha => ?_
  refine Reply.Records.bind (hp a.rest ha) fun b _ => ?_
  exact hclosing b.rest

/-! ### Alternatives and repetitions -/

theorem records_orElse {p q : Parser α} (hfailed : ∀ x, P (.alternativeFailed x))
    (hp : p.Records P s) (hq : q.Records P s) : (p.orElse q).Records P s := by
  refine Reply.Records.handle hp fun e => ?_
  exact Reply.Records.after hq (List.forall_mem_singleton.mpr (hfailed e))

section Repetitions

variable (hstopped : ∀ x n, P (.repetitionStopped x n)) (hprogress : p.Progresses)

include hstopped hprogress

/-- The rounds on a text apply the parser to no longer text. -/
theorem records_gather (hp : ∀ t, t.length ≤ s.length → p.Records P t) (collected : Nat) :
    ∀ event ∈ (p.gather collected s).log, P event := by
  induction collected, s using gather_induction p with
  | stopped collected s x h =>
    have hs : p.Records P s := hp s le_rfl
    rw [gather_of_error h]
    exact List.forall_mem_append.mpr ⟨hs, List.forall_mem_singleton.mpr (hstopped x collected)⟩
  | more collected s a h hlt ih =>
    have hs : p.Records P s := hp s le_rfl
    have hrest := ih fun t ht => hp t (by omega)
    rw [gather_of_progress h hlt]
    exact List.forall_mem_append.mpr ⟨hs, hrest⟩
  | stalled collected s a h hge => exact absurd (hprogress s a.value a.rest h) (Nat.not_lt.mpr hge)

theorem records_many (hp : ∀ t, t.length ≤ s.length → p.Records P t) : (many p).Records P s :=
  records_gather hstopped hprogress hp 0

theorem records_many1 (hfirst : ∀ x, P (.firstFailed x))
    (hp : ∀ t, t.length ≤ s.length → p.Records P t) : (many1 p).Records P s := by
  have hs : p.Records P s := hp s le_rfl
  rw [Records]
  cases h : (p.parse s).outcome with
  | error x =>
    rw [many1_of_error h]
    exact List.forall_mem_append.mpr ⟨hs, List.forall_mem_singleton.mpr (hfirst x)⟩
  | ok a =>
    have hlt : a.rest.length < s.length := hprogress s a.value a.rest h
    have hrest := records_gather hstopped hprogress (fun t ht => hp t (by omega)) 1 (s := a.rest)
    rw [many1_of_progress h hlt]
    exact List.forall_mem_append.mpr ⟨hs, hrest⟩

end Repetitions

end Parser

end TagTree
