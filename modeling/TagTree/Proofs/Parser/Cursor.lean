import TagTree.Parser.Choice
import TagTree.Proofs.Parser.Rounds

/-!
# Parsers stay inside their text

A parser moves a cursor through the text that it was given, and never leaves it: what a success
leaves over is a suffix of the text, and so is the place that an error shows. This file says so for
everything that parsers are made of. It does not matter which functions transform values, which
tests turn them down and which parsers are chosen for them, because none of them has the cursor in
its hands: an alternative starts again from the text that the first one was given, a repetition goes
on from what its last round left over, and a parser that gives up shows the text that it started on.

## Main definitions

* `ParseError.Shows`, `ParseError.PointsInto`: the text that an error shows.
* `Parser.StaysInText`: both outcomes of a parser stay inside the text.

## Main results

* `Parser.StaysInText.both`, `Parser.StaysInText.between`, `Parser.StaysInText.bind`: sequences.
* `Parser.StaysInText.orElse`, `Parser.StaysInText.firstOf`, `Parser.StaysInText.optional`:
  alternatives.
* `Parser.StaysInText.many`, `Parser.StaysInText.many1`: repetitions.
-/

namespace TagTree

/-! ### The texts that errors show -/

namespace ParseError

/-- The cause shows the input at which a parser gave up. -/
inductive Shows : ParseError → Text → Prop
  | expected (literal found : Text) : Shows (.expected literal found) found
  | rejected (input : Text) : Shows (.rejected input) input
  | noItem (input : Text) : Shows (.noItem input) input

variable {x : ParseError} {s m : Text}

/-- What the cause of the error shows, beneath all context notes, is a suffix of the text. -/
def PointsInto (x : ParseError) (s : Text) : Prop :=
  ∀ t, x.cause.Shows t → t <:+ s

theorem PointsInto.mono (h : x.PointsInto m) (hm : m <:+ s) : x.PointsInto s :=
  fun t ht => (h t ht).trans hm

theorem pointsInto_expected {t : Text} (hm : m <:+ s) : (expected t m).PointsInto s := by
  rintro u ⟨⟩
  exact hm

theorem pointsInto_rejected (hm : m <:+ s) : (rejected m).PointsInto s := by
  rintro u ⟨⟩
  exact hm

theorem pointsInto_endOfText (s : Text) : endOfText.PointsInto s := by
  rintro t ⟨⟩

theorem pointsInto_noChoice (s : Text) : noChoice.PointsInto s := by
  rintro t ⟨⟩

theorem pointsInto_failed (message : String) (s : Text) : (failed message).PointsInto s := by
  rintro t ⟨⟩

/-- A context note does not change what an error shows. -/
theorem pointsInto_inContext {context : String} :
    (inContext context x).PointsInto s ↔ x.PointsInto s :=
  Iff.rfl

theorem pointsInto_noItem (hm : m <:+ s) : (noItem m).PointsInto s := by
  rintro u ⟨⟩
  exact hm

end ParseError

/-! ### Replies -/

namespace Reply

variable {α β : Type} {r : Reply ParseError (Parsed α)} {s m : Text}

/-- What is left over is a suffix of the text, and an error points into the text. -/
structure Within (r : Reply ParseError (Parsed α)) (s : Text) : Prop where
  rest : ∀ a, r.outcome = .ok a → a.rest <:+ s
  error : ∀ x, r.outcome = .error x → x.PointsInto s

theorem within_ok {a : Parsed α} (h : a.rest <:+ s) (log : List Event) :
    (⟨.ok a, log⟩ : Reply ParseError (Parsed α)).Within s := by
  refine ⟨?_, nofun⟩
  rintro b ⟨⟩
  exact h

theorem within_error {x : ParseError} (h : x.PointsInto s) (log : List Event) :
    (⟨.error x, log⟩ : Reply ParseError (Parsed α)).Within s := by
  refine ⟨nofun, ?_⟩
  rintro y ⟨⟩
  exact h

theorem Within.mono (h : r.Within m) (hm : m <:+ s) : r.Within s :=
  ⟨fun a ha => (h.rest a ha).trans hm, fun x hx => (h.error x hx).mono hm⟩

theorem Within.after (h : r.Within s) (events : List Event) : (r.after events).Within s :=
  ⟨h.rest, h.error⟩

/-- What goes on after a reply inside the text only has to stay inside what is left over. -/
theorem Within.bind {next : Parsed α → Reply ParseError (Parsed β)} (h : r.Within s)
    (hnext : ∀ a, a.rest <:+ s → (next a).Within s) : (r.bind next).Within s := by
  cases hout : r.outcome with
  | error x =>
    rw [bind_of_error hout]
    exact within_error (h.error x hout) r.log
  | ok a =>
    rw [bind_of_ok hout]
    exact (hnext a (h.rest a hout)).after r.log

theorem Within.handle {recover : ParseError → Reply ParseError (Parsed α)} (h : r.Within s)
    (hrecover : ∀ x, x.PointsInto s → (recover x).Within s) : (r.handle recover).Within s := by
  cases hout : r.outcome with
  | error x =>
    rw [handle_of_error hout]
    exact (hrecover x (h.error x hout)).after r.log
  | ok a =>
    rw [handle_of_ok hout]
    exact within_ok (h.rest a hout) r.log

theorem Within.map {f : Parsed α → Parsed β} (h : r.Within s) (hf : ∀ a, (f a).rest = a.rest) :
    (r.map f).Within s := by
  obtain ⟨outcome, log⟩ := r
  cases outcome with
  | error x => exact within_error (h.error x rfl) log
  | ok a => exact within_ok (hf a ▸ h.rest a rfl) log

theorem Within.mapError {f : ParseError → ParseError} (h : r.Within s)
    (hf : ∀ x, x.PointsInto s → (f x).PointsInto s) : (r.mapError f).Within s := by
  obtain ⟨outcome, log⟩ := r
  cases outcome with
  | error x => exact within_error (hf x (h.error x rfl)) log
  | ok a => exact within_ok (h.rest a rfl) log

end Reply

/-! ### Parsers -/

namespace Parser

variable {α β : Type} {p : Parser α} {q : Parser β}

/-- The parser leaves over a suffix of its text or fails with an error that points into it. -/
def StaysInText (p : Parser α) : Prop :=
  ∀ s, (p.parse s).Within s

theorem staysInText_anyChar : anyChar.StaysInText := by
  intro s
  cases s with
  | nil => exact Reply.within_error (ParseError.pointsInto_endOfText []) []
  | cons c s => exact Reply.within_ok (List.suffix_cons c s) []

theorem staysInText_literal (t : Text) : (literal t).StaysInText := by
  intro s
  rw [literal]
  cases h : t.isPrefixOf? s with
  | none =>
    simp only [h]
    exact Reply.within_error (ParseError.pointsInto_expected List.suffix_rfl) []
  | some r =>
    have hs : t ++ r = s := List.isPrefixOf?_eq_some_iff_append_eq.mp h
    simp only [h]
    exact Reply.within_ok ⟨t, hs⟩ []

theorem staysInText_nameRun : nameRun.StaysInText := fun _ =>
  Reply.within_ok (List.dropWhile_suffix isNameChar) []

theorem staysInText_succeed (a : α) : (succeed a).StaysInText := fun _ =>
  Reply.within_ok List.suffix_rfl []

theorem staysInText_fail (message : String) : (fail message : Parser α).StaysInText := fun s =>
  Reply.within_error (ParseError.pointsInto_failed message s) []

theorem staysInText_nestingExceeded : (nestingExceeded : Parser α).StaysInText := fun s =>
  Reply.within_error (ParseError.pointsInto_failed _ s) [.nestingExceeded]

namespace StaysInText

/-! ### One parser -/

theorem map (hp : p.StaysInText) (f : α → β) : (p.map f).StaysInText := fun s =>
  (hp s).map fun _ => rfl

theorem discard (hp : p.StaysInText) : p.discard.StaysInText :=
  hp.map fun _ => ()

/-- A value that is turned down is reported with the text from before it. -/
theorem filter (hp : p.StaysInText) (test : α → Bool) : (p.filter test).StaysInText := by
  intro s
  refine (hp s).bind fun a ha => ?_
  split
  · exact Reply.within_ok ha []
  · exact Reply.within_error (ParseError.pointsInto_rejected List.suffix_rfl) []

theorem inContext (hp : p.StaysInText) (context : String) : (p.inContext context).StaysInText :=
  fun s => (hp s).mapError fun _ => ParseError.pointsInto_inContext.mpr

theorem delay {build : Unit → Parser α} (h : (build ()).StaysInText) :
    (Parser.delay build).StaysInText :=
  h

/-! ### Parsers in sequence -/

theorem both (hp : p.StaysInText) (hq : q.StaysInText) : (p.both q).StaysInText := fun s =>
  (hp s).bind fun a ha => ((hq a.rest).mono ha).map fun _ => rfl

theorem keepLeft (hp : p.StaysInText) (hq : q.StaysInText) : (p.keepLeft q).StaysInText :=
  (hp.both hq).map Prod.fst

theorem keepRight (hp : p.StaysInText) (hq : q.StaysInText) : (p.keepRight q).StaysInText :=
  (hp.both hq).map Prod.snd

theorem between {opening closing : Parser Unit} (hopening : opening.StaysInText)
    (hp : p.StaysInText) (hclosing : closing.StaysInText) :
    (between opening p closing).StaysInText := by
  intro s
  refine (hopening s).bind fun a ha => ((hp a.rest).mono ha).bind fun b hb => ?_
  exact ((hclosing b.rest).mono hb).map fun _ => rfl

theorem bind {next : α → Parser β} (hp : p.StaysInText) (hnext : ∀ a, (next a).StaysInText) :
    (p.bind next).StaysInText := fun s =>
  (hp s).bind fun a ha => (hnext a.value a.rest).mono ha

/-! ### Alternatives -/

/-- Every alternative starts from the same text. -/
theorem orElse {q : Parser α} (hp : p.StaysInText) (hq : q.StaysInText) :
    (p.orElse q).StaysInText := fun s =>
  (hp s).handle fun x _ => (hq s).after [.alternativeFailed x]

theorem firstOfAfter {ps : List (Parser α)} (h : ∀ p ∈ ps, p.StaysInText) {last : ParseError}
    {s : Text} (hlast : last.PointsInto s) : (firstOfAfter last ps s).Within s := by
  induction ps generalizing last with
  | nil => exact Reply.within_error hlast []
  | cons p ps ih =>
    refine (h p List.mem_cons_self s).handle fun x hx => ?_
    have hrest := ih (fun q hq => h q (List.mem_cons_of_mem _ hq)) hx
    exact hrest.after [.choiceFailed x]

theorem firstOf {ps : List (Parser α)} (h : ∀ p ∈ ps, p.StaysInText) :
    (firstOf ps).StaysInText := fun s =>
  firstOfAfter h (ParseError.pointsInto_noChoice s)

/-- A part that is left out leaves the whole text. -/
theorem optional (hp : p.StaysInText) : p.optional.StaysInText := by
  intro s
  cases hout : (p.parse s).outcome with
  | ok a =>
    rw [optional_of_ok hout]
    refine Reply.within_ok ?_ _
    exact (hp s).rest a hout
  | error x =>
    rw [optional_of_error hout]
    exact Reply.within_ok List.suffix_rfl _

/-! ### Repetitions -/

/-- The rounds of a parser go through suffixes of the text. -/
theorem rounds {s r : Text} {as : List α} (hp : p.StaysInText) (h : p.Rounds s as r) :
    r <:+ s := by
  induction h with
  | stop => exact List.suffix_rfl
  | more hread _ _ ih => exact ih.trans ((hp _).rest _ hread)

theorem gather (hp : p.StaysInText) (collected : Nat) (s : Text) :
    (p.gather collected s).rest <:+ s :=
  hp.rounds (rounds_gather p collected s)

theorem many (hp : p.StaysInText) : (many p).StaysInText := fun s =>
  Reply.within_ok (hp.gather 0 s) _

/-- A repetition without a first item shows the text that it was given. -/
theorem many1 (hp : p.StaysInText) : (many1 p).StaysInText := by
  intro s
  cases h : (p.parse s).outcome with
  | error x =>
    rw [many1_of_error h]
    exact Reply.within_error (ParseError.pointsInto_noItem List.suffix_rfl) _
  | ok a =>
    rcases Nat.lt_or_ge a.rest.length s.length with hlt | hge
    · rw [many1_of_progress h hlt]
      exact Reply.within_ok ((hp.gather 1 a.rest).trans ((hp s).rest a h)) _
    · rw [many1_of_stall h hge]
      exact Reply.within_ok List.suffix_rfl _

end StaysInText

end Parser

end TagTree
