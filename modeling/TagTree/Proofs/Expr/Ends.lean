import TagTree.Proofs.Expr.StaysInText
import TagTree.Proofs.Grammar.Progress
import Mathlib.Data.Finset.Prod
import Mathlib.Order.Monotone.Basic

/-!
# Expressions that come to an end

The definitions that an expression refers to may be recursive, so a run need not come to an end. An
expression *ends* on a text with an outcome when, under some bound on the number of references that
are open at a time, its run stays within the bound and has this outcome (`Expr.Ends`). A run that
stays within its bound does not notice the bound: under every higher bound it is the same, record by
record. So an expression ends with at most one outcome.

A run on a text resolves references on suffixes of the text only, and there are finitely many of
these. From one bound to the next, either a definition finishes on one more suffix, or nothing
changes from there on. So there are no more different bounds than definitions and suffixes, and
`Expr.run` ends whenever the expression does.

The rules of the grammar nest without references and end on every text.

## Main definitions

* `Reply.Finishes`: no bound was exceeded on the way to a reply.
* `Parser.ExtendedBy`: a parser that replies the same wherever the reply finishes.
* `Parser.ExtendedWithin`: the same on the suffixes of one text.
* `Expr.Ends`: the outcome with which an expression comes to an end.
* `Expr.settled`: where the references finish under a bound.
* `Expr.bracketed`: a recursive expression.

## Main results

* `Expr.parser_extendedWithin`: an expression is extended when its references are.
* `Expr.parserWithin_extendedBy`: higher bounds keep what has finished.
* `Expr.Ends.unique`: an expression ends with one outcome.
* `Expr.ends_iff_run`, `Expr.Ends.outcome_run`: an expression ends if its run stays within the
  bound, and only then.
* `Expr.ends_rule`: the rules of the grammar end.
-/

namespace TagTree

/-! ### Replies that finish -/

namespace Reply

variable {ε δ α β : Type} {r r' : Reply ε α}

/-- No bound was exceeded on the way to the reply. -/
def Finishes (r : Reply ε α) : Prop :=
  .nestingExceeded ∉ r.log

instance : Decidable r.Finishes :=
  inferInstanceAs (Decidable (_ ∉ r.log))

theorem Finishes.of_after {events : List Event} (h : (r.after events).Finishes) : r.Finishes :=
  fun hmem => h (List.mem_append_right events hmem)

theorem Finishes.of_bind {next : α → Reply ε β} (h : (r.bind next).Finishes) : r.Finishes := by
  intro hmem
  refine h ?_
  cases hout : r.outcome with
  | error e =>
    rw [bind_of_error hout]
    exact hmem
  | ok a =>
    rw [bind_of_ok hout]
    exact List.mem_append_left _ hmem

theorem Finishes.of_handle {recover : ε → Reply δ α} (h : (r.handle recover).Finishes) :
    r.Finishes := by
  intro hmem
  refine h ?_
  cases hout : r.outcome with
  | error e =>
    rw [handle_of_error hout]
    exact List.mem_append_left _ hmem
  | ok a =>
    rw [handle_of_ok hout]
    exact hmem

/-- The second reply is the first one again, provided that the first finishes. -/
def ExtendedBy (r r' : Reply ε α) : Prop :=
  r.Finishes → r' = r

theorem ExtendedBy.after (h : r.ExtendedBy r') (events : List Event) :
    (r.after events).ExtendedBy (r'.after events) :=
  fun hfin => congrArg (Reply.after events) (h hfin.of_after)

theorem ExtendedBy.map (h : r.ExtendedBy r') (f : α → β) : (r.map f).ExtendedBy (r'.map f) :=
  fun hfin => congrArg (Reply.map f) (h hfin)

theorem ExtendedBy.mapError (h : r.ExtendedBy r') (f : ε → δ) :
    (r.mapError f).ExtendedBy (r'.mapError f) :=
  fun hfin => congrArg (Reply.mapError f) (h hfin)

theorem ExtendedBy.bind {next next' : α → Reply ε β} (h : r.ExtendedBy r')
    (hnext : ∀ a, r.outcome = .ok a → (next a).ExtendedBy (next' a)) :
    (r.bind next).ExtendedBy (r'.bind next') := by
  intro hfin
  rw [h hfin.of_bind]
  cases hout : r.outcome with
  | error e => rw [bind_of_error hout, bind_of_error hout]
  | ok a =>
    rw [bind_of_ok hout] at hfin
    rw [bind_of_ok hout, bind_of_ok hout, hnext a hout hfin.of_after]

theorem ExtendedBy.handle {recover recover' : ε → Reply δ α} (h : r.ExtendedBy r')
    (hrecover : ∀ e, (recover e).ExtendedBy (recover' e)) :
    (r.handle recover).ExtendedBy (r'.handle recover') := by
  intro hfin
  rw [h hfin.of_handle]
  cases hout : r.outcome with
  | ok a => rw [handle_of_ok hout, handle_of_ok hout]
  | error e =>
    rw [handle_of_error hout] at hfin
    rw [handle_of_error hout, handle_of_error hout, hrecover e hfin.of_after]

end Reply

/-! ### Parsers that are extended -/

namespace Parser

variable {α β : Type} {p p' : Parser α} {q q' : Parser β}

/-- Wherever the reply of the first parser finishes, the second replies the same. -/
def ExtendedBy (p p' : Parser α) : Prop :=
  ∀ s, (p.parse s).ExtendedBy (p'.parse s)

/-- Wherever the reply of the first parser to a suffix of `m` finishes, the second replies the
same. -/
def ExtendedWithin (m : Text) (p p' : Parser α) : Prop :=
  ∀ s, s <:+ m → (p.parse s).ExtendedBy (p'.parse s)

namespace ExtendedBy

/-- The parser at which bounded recursions stop never finishes. -/
theorem nestingExceeded (p : Parser α) : (nestingExceeded : Parser α).ExtendedBy p :=
  fun _ hfin => absurd List.mem_cons_self hfin

theorem within (h : p.ExtendedBy p') (m : Text) : p.ExtendedWithin m p' :=
  fun s _ => h s

theorem of_within (h : ∀ m, p.ExtendedWithin m p') : p.ExtendedBy p' :=
  fun s => h s s List.suffix_rfl

end ExtendedBy

/-! A part that is run first has to stay inside its text, so that what follows it starts from a
suffix again. -/

namespace ExtendedWithin

variable {m : Text}

theorem refl (p : Parser α) : p.ExtendedWithin m p := fun _ _ _ => rfl

theorem map (h : p.ExtendedWithin m p') (f : α → β) : (p.map f).ExtendedWithin m (p'.map f) :=
  fun s hs => (h s hs).map _

theorem filter (h : p.ExtendedWithin m p') (test : α → Bool) :
    (p.filter test).ExtendedWithin m (p'.filter test) :=
  fun s hs => (h s hs).bind fun _ _ _ => rfl

theorem inContext (h : p.ExtendedWithin m p') (context : String) :
    (p.inContext context).ExtendedWithin m (p'.inContext context) :=
  fun s hs => (h s hs).mapError _

theorem both (h : p.ExtendedWithin m p') (hp : p.StaysInText) (hq : q.ExtendedWithin m q') :
    (p.both q).ExtendedWithin m (p'.both q') := by
  intro s hs
  refine (h s hs).bind fun a ha => ?_
  have hrest : a.rest <:+ m := ((hp s).rest a ha).trans hs
  exact (hq a.rest hrest).map _

theorem keepLeft (h : p.ExtendedWithin m p') (hp : p.StaysInText) (hq : q.ExtendedWithin m q') :
    (p.keepLeft q).ExtendedWithin m (p'.keepLeft q') :=
  (h.both hp hq).map Prod.fst

theorem keepRight (h : p.ExtendedWithin m p') (hp : p.StaysInText) (hq : q.ExtendedWithin m q') :
    (p.keepRight q).ExtendedWithin m (p'.keepRight q') :=
  (h.both hp hq).map Prod.snd

theorem between {opening opening' closing closing' : Parser Unit}
    (hopening : opening.ExtendedWithin m opening') (hstays : opening.StaysInText)
    (h : p.ExtendedWithin m p') (hp : p.StaysInText)
    (hclosing : closing.ExtendedWithin m closing') :
    (between opening p closing).ExtendedWithin m (between opening' p' closing') := by
  intro s hs
  refine (hopening s hs).bind fun a ha => ?_
  have hinside : a.rest <:+ m := ((hstays s).rest a ha).trans hs
  refine (h a.rest hinside).bind fun b hb => ?_
  have hend : b.rest <:+ m := ((hp a.rest).rest b hb).trans hinside
  exact (hclosing b.rest hend).map _

theorem bind {next next' : α → Parser β} (h : p.ExtendedWithin m p') (hp : p.StaysInText)
    (hnext : ∀ a, (next a).ExtendedWithin m (next' a)) :
    (p.bind next).ExtendedWithin m (p'.bind next') := by
  intro s hs
  refine (h s hs).bind fun a ha => ?_
  have hrest : a.rest <:+ m := ((hp s).rest a ha).trans hs
  exact hnext a.value a.rest hrest

/-- Every alternative starts from the same text. -/
theorem orElse {q q' : Parser α} (h : p.ExtendedWithin m p') (hq : q.ExtendedWithin m q') :
    (p.orElse q).ExtendedWithin m (p'.orElse q') :=
  fun s hs => (h s hs).handle fun _ => (hq s hs).after _

theorem firstOfAfter {ps ps' : List (Parser α)} (h : List.Forall₂ (ExtendedWithin m) ps ps')
    (last : ParseError) {s : Text} (hs : s <:+ m) :
    (firstOfAfter last ps s).ExtendedBy (firstOfAfter last ps' s) := by
  induction h generalizing last with
  | nil => exact fun _ => rfl
  | cons h _ ih => exact (h s hs).handle fun x => (ih x).after _

theorem firstOf {ps ps' : List (Parser α)} (h : List.Forall₂ (ExtendedWithin m) ps ps') :
    (firstOf ps).ExtendedWithin m (firstOf ps') :=
  fun _ hs => firstOfAfter h .noChoice hs

theorem optional (h : p.ExtendedWithin m p') : p.optional.ExtendedWithin m p'.optional := by
  intro s hs hfin
  cases hout : (p.parse s).outcome with
  | ok a =>
    rw [optional_of_ok hout] at hfin
    have hsame := h s hs hfin
    rw [optional_of_ok hout, optional_of_ok (hsame ▸ hout), hsame]
  | error x =>
    rw [optional_of_error hout] at hfin
    have hsame := h s hs fun hmem => hfin (List.mem_append_left _ hmem)
    rw [optional_of_error hout, optional_of_error (hsame ▸ hout), hsame]

theorem gather (h : p.ExtendedWithin m p') (hp : p.StaysInText) {collected : Nat} {s : Text}
    (hs : s <:+ m) (hfin : .nestingExceeded ∉ (p.gather collected s).log) :
    p'.gather collected s = p.gather collected s := by
  induction collected, s using gather_induction p with
  | stopped collected s x hout =>
    rw [gather_of_error hout] at hfin
    have hsame := h s hs fun hmem => hfin (List.mem_append_left _ hmem)
    rw [gather_of_error hout, gather_of_error (hsame ▸ hout), hsame]
  | more collected s a hout hlt ih =>
    rw [gather_of_progress hout hlt] at hfin
    have hsame := h s hs fun hmem => hfin (List.mem_append_left _ hmem)
    have hrest := ih (((hp s).rest a hout).trans hs) fun hmem =>
      hfin (List.mem_append_right _ hmem)
    rw [gather_of_progress hout hlt, gather_of_progress (hsame ▸ hout) hlt, hsame, hrest]
  | stalled collected s a hout hge =>
    rw [gather_of_stall hout hge] at hfin
    have hsame := h s hs fun hmem => hfin (List.mem_append_left _ hmem)
    rw [gather_of_stall hout hge, gather_of_stall (hsame ▸ hout) hge, hsame]

theorem many (h : p.ExtendedWithin m p') (hp : p.StaysInText) :
    (many p).ExtendedWithin m (many p') :=
  fun _ hs hfin => congrArg Gathered.reply (h.gather hp hs hfin)

theorem many1 (h : p.ExtendedWithin m p') (hp : p.StaysInText) :
    (many1 p).ExtendedWithin m (many1 p') := by
  intro s hs hfin
  cases hout : (p.parse s).outcome with
  | error x =>
    rw [many1_of_error hout] at hfin
    have hsame := h s hs fun hmem => hfin (List.mem_append_left _ hmem)
    rw [many1_of_error hout, many1_of_error (hsame ▸ hout), hsame]
  | ok a =>
    rcases Nat.lt_or_ge a.rest.length s.length with hlt | hge
    · rw [many1_of_progress hout hlt] at hfin
      have hsame := h s hs fun hmem => hfin (List.mem_append_left _ hmem)
      have hrest := h.gather hp (((hp s).rest a hout).trans hs) fun hmem =>
        hfin (List.mem_append_right _ hmem)
      rw [many1_of_progress hout hlt, many1_of_progress (hsame ▸ hout) hlt, hsame, hrest]
    · rw [many1_of_stall hout hge] at hfin
      have hsame := h s hs fun hmem => hfin (List.mem_append_left _ hmem)
      rw [many1_of_stall hout hge, many1_of_stall (hsame ▸ hout) hge, hsame]

end ExtendedWithin

end Parser

/-! ### Expressions -/

namespace Expr

variable {env env' : String → Parser Value} {defs : Definitions} {e : Expr} {s m : Text}
variable {name : String} {depth depth' : Nat} {o o' : Except ParseError (Parsed Value)}

mutual

/-- An expression is extended when the parsers of the names it refers to are. -/
theorem parser_extendedWithin (hstays : ∀ name, (env name).StaysInText)
    (h : ∀ name, (env name).ExtendedWithin m (env' name)) :
    ∀ e : Expr, (e.parser env).ExtendedWithin m (e.parser env')
  | rule _ => .refl _
  | literal _ => .refl _
  | endTag _ => .refl _
  | succeed _ => .refl _
  | fail _ => .refl _
  | map f e => (parser_extendedWithin hstays h e).map f
  | discard e => ((parser_extendedWithin hstays h e).map _).map _
  | both a b =>
    ((parser_extendedWithin hstays h a).both (parser_staysInText hstays a)
      (parser_extendedWithin hstays h b)).map _
  | keepLeft a b =>
    (parser_extendedWithin hstays h a).keepLeft (parser_staysInText hstays a)
      (parser_extendedWithin hstays h b)
  | keepRight a b =>
    (parser_extendedWithin hstays h a).keepRight (parser_staysInText hstays a)
      (parser_extendedWithin hstays h b)
  | orElse a b => (parser_extendedWithin hstays h a).orElse (parser_extendedWithin hstays h b)
  | firstOf es => .firstOf (parsers_extendedWithin hstays h es)
  | between opening e closing =>
    .between ((parser_extendedWithin hstays h opening).map _)
      (parser_staysInText hstays opening).discard (parser_extendedWithin hstays h e)
      (parser_staysInText hstays e) ((parser_extendedWithin hstays h closing).map _)
  | spaced e =>
    .between (.refl _) Grammar.staysInText_blanks.discard (parser_extendedWithin hstays h e)
      (parser_staysInText hstays e) (.refl _)
  | many e => ((parser_extendedWithin hstays h e).many (parser_staysInText hstays e)).map _
  | many1 e => ((parser_extendedWithin hstays h e).many1 (parser_staysInText hstays e)).map _
  | optional e => (parser_extendedWithin hstays h e).optional.map _
  | filter test e => (parser_extendedWithin hstays h e).filter test
  | bind e next =>
    (parser_extendedWithin hstays h e).bind (parser_staysInText hstays e) fun v =>
      parser_extendedWithin hstays h (next v)
  | inContext context e => (parser_extendedWithin hstays h e).inContext context
  | delay e => parser_extendedWithin hstays h e
  | ref name => h name

theorem parsers_extendedWithin (hstays : ∀ name, (env name).StaysInText)
    (h : ∀ name, (env name).ExtendedWithin m (env' name)) :
    ∀ es : List Expr, List.Forall₂ (Parser.ExtendedWithin m) (parsers env es) (parsers env' es)
  | [] => .nil
  | e :: es => .cons (parser_extendedWithin hstays h e) (parsers_extendedWithin hstays h es)

end

/-! ### Higher bounds -/

/-- One more open reference on either side. -/
theorem resolve_extendedWithin_succ
    (h : ∀ name, (resolve defs depth name).ExtendedWithin m (resolve defs depth' name))
    (name : String) :
    (resolve defs (depth + 1) name).ExtendedWithin m (resolve defs (depth' + 1) name) := by
  intro s hs
  simp only [resolve, Parser.delay]
  cases defs.lookup name with
  | none => exact fun _ => rfl
  | some e => exact parser_extendedWithin (resolve_staysInText defs depth) h e s hs

theorem resolve_extendedBy (defs : Definitions) (h : depth ≤ depth') (name : String) :
    (resolve defs depth name).ExtendedBy (resolve defs depth' name) := by
  induction depth generalizing depth' name with
  | zero => exact .nestingExceeded _
  | succ depth ih =>
    obtain ⟨depth', rfl⟩ := Nat.exists_eq_add_one.mpr (Nat.zero_lt_of_lt h)
    refine .of_within fun m => resolve_extendedWithin_succ (fun other => ?_) name
    exact (ih (Nat.le_of_succ_le_succ h) other).within m

/-- **Higher bounds keep what has finished.** -/
theorem parserWithin_extendedBy (defs : Definitions) (e : Expr) (h : depth ≤ depth') :
    (e.parserWithin defs depth).ExtendedBy (e.parserWithin defs depth') :=
  .of_within fun m => parser_extendedWithin (resolve_staysInText defs depth)
    (fun name => (resolve_extendedBy defs h name).within m) e

/-! ### The outcome of an expression -/

/-- The expression comes to an end on the text with this outcome: for some bound on open references,
the run stays within the bound and has the outcome. -/
def Ends (defs : Definitions) (e : Expr) (s : Text) (outcome : Except ParseError (Parsed Value)) :
    Prop :=
  ∃ depth, ((e.parserWithin defs depth).parse s).Finishes ∧
    ((e.parserWithin defs depth).parse s).outcome = outcome

/-- **An expression ends with one outcome.** -/
theorem Ends.unique (h : Ends defs e s o) (h' : Ends defs e s o') : o = o' := by
  obtain ⟨depth, hfin, rfl⟩ := h
  obtain ⟨depth', hfin', rfl⟩ := h'
  rcases Nat.le_total depth depth' with hle | hle
  · rw [parserWithin_extendedBy defs e hle s hfin]
  · rw [parserWithin_extendedBy defs e hle s hfin']

/-- A run that stays within its bound is the end of the expression. -/
theorem ends_run (h : (run defs e s).Finishes) : Ends defs e s (run defs e s).outcome :=
  ⟨_, h, rfl⟩

/-! ### The bound of a run -/

/-- Where the references finish under a bound: the defined names, each with the places in the text
at which its parser finishes. -/
def settled (defs : Definitions) (s : Text) (depth : Nat) : Finset (String × Nat) :=
  ((defs.map Prod.fst).toFinset ×ˢ Finset.range (s.length + 1)).filter fun use =>
    ((resolve defs depth use.1).parse (s.drop use.2)).Finishes

theorem mem_settled (hname : name ∈ defs.map Prod.fst) (hm : m <:+ s) :
    (name, s.length - m.length) ∈ settled defs s depth ↔
      ((resolve defs depth name).parse m).Finishes := by
  have hdrop : s.drop (s.length - m.length) = m := (List.suffix_iff_eq_drop.mp hm).symm
  have hplace : s.length - m.length < s.length + 1 :=
    Nat.lt_succ_of_le (Nat.sub_le s.length m.length)
  simp only [settled, Finset.mem_filter, Finset.mem_product, List.mem_toFinset, Finset.mem_range,
    hname, hplace, hdrop, true_and]

/-- There are no more references than definitions at each place. -/
theorem card_settled_le (defs : Definitions) (s : Text) (depth : Nat) :
    (settled defs s depth).card ≤ defs.length * (s.length + 1) := by
  have hnames : (defs.map Prod.fst).toFinset.card ≤ defs.length :=
    (List.toFinset_card_le _).trans_eq (List.length_map Prod.fst)
  calc (settled defs s depth).card
      ≤ ((defs.map Prod.fst).toFinset ×ˢ Finset.range (s.length + 1)).card :=
        Finset.card_filter_le _ _
    _ = (defs.map Prod.fst).toFinset.card * (s.length + 1) := by
        rw [Finset.card_product, Finset.card_range]
    _ ≤ defs.length * (s.length + 1) := Nat.mul_le_mul_right _ hnames

theorem settled_subset
    (h : ∀ name, (resolve defs depth name).ExtendedWithin s (resolve defs depth' name)) :
    settled defs s depth ⊆ settled defs s depth' := by
  intro use huse
  rw [settled, Finset.mem_filter] at huse ⊢
  obtain ⟨huse, hfin⟩ := huse
  refine ⟨huse, ?_⟩
  rw [h use.1 _ (List.drop_suffix use.2 s) hfin]
  exact hfin

theorem settled_mono (defs : Definitions) (s : Text) : Monotone (settled defs s) := fun _ _ h =>
  settled_subset fun name => (resolve_extendedBy defs h name).within s

/-- If no more references finish under the higher one of two bounds, the lower one replies the same.
A name without a definition finishes as soon as one reference may be open, which is why the bounds
are not zero. -/
theorem resolve_extendedWithin_of_settled (hle : depth ≤ depth')
    (h : settled defs s (depth' + 1) ⊆ settled defs s (depth + 1)) (name : String) :
    (resolve defs (depth' + 1) name).ExtendedWithin s (resolve defs (depth + 1) name) := by
  intro m hm hfin
  cases hdef : defs.lookup name with
  | none => simp only [resolve, Parser.delay, hdef]
  | some e =>
    have hname : name ∈ defs.map Prod.fst := by
      obtain ⟨before, after, rfl, -⟩ := List.lookup_eq_some_iff.mp hdef
      exact List.mem_map_of_mem (f := Prod.fst) (List.mem_append_right before List.mem_cons_self)
    have hlower : ((resolve defs (depth + 1) name).parse m).Finishes :=
      (mem_settled hname hm).mp (h ((mem_settled hname hm).mpr hfin))
    exact (resolve_extendedBy defs (Nat.succ_le_succ hle) name m hlower).symm

/-- Where one more open reference changes nothing, another one does not either. -/
theorem settled_eq_succ (h : settled defs s (depth + 1) = settled defs s (depth + 2)) :
    settled defs s (depth + 2) = settled defs s (depth + 3) := by
  have hsame := resolve_extendedWithin_of_settled (Nat.le_succ depth) h.ge
  refine (settled_mono defs s (Nat.le_succ _)).antisymm ?_
  exact settled_subset (resolve_extendedWithin_succ hsame)

/-- Above `levels` nothing changes. -/
theorem settled_eq_of_levels_le (h : levels defs s ≤ depth + 1) :
    settled defs s (depth + 1) = settled defs s (levels defs s) := by
  have hmono : Monotone fun depth => (settled defs s (depth + 1)).card := fun _ _ hle =>
    Finset.card_le_card (settled_mono defs s (Nat.succ_le_succ hle))
  have hstable : ∀ depth, (settled defs s (depth + 1)).card = (settled defs s (depth + 2)).card →
      (settled defs s (depth + 2)).card = (settled defs s (depth + 3)).card := by
    intro depth hcard
    have hsubset := settled_mono defs s (Nat.le_succ (depth + 1))
    have hstep := settled_eq_succ (Finset.eq_of_subset_of_card_le hsubset hcard.ge)
    exact congrArg Finset.card hstep
  have hcard : (settled defs s (depth + 1)).card = (settled defs s (levels defs s)).card :=
    Nat.stabilises_of_monotone hmono (fun depth => card_settled_le defs s (depth + 1)) hstable
      (Nat.le_of_succ_le_succ h)
  exact (Finset.eq_of_subset_of_card_le (settled_mono defs s h) hcard.le).symm

/-- On the suffixes of the text, `levels` is as good a bound as any other. -/
theorem resolve_extendedWithin_levels (defs : Definitions) (s : Text) (depth : Nat)
    (name : String) :
    (resolve defs depth name).ExtendedWithin s (resolve defs (levels defs s) name) := by
  rcases Nat.le_total depth (levels defs s) with hle | hle
  · exact (resolve_extendedBy defs hle name).within s
  · obtain ⟨depth, rfl⟩ := Nat.exists_eq_add_one.mpr (Nat.zero_lt_of_lt hle)
    have hsubset := (settled_eq_of_levels_le hle).subset
    exact resolve_extendedWithin_of_settled (Nat.le_of_succ_le_succ hle) hsubset name

/-- **The bound of a run is high enough.** An expression ends if its run stays within the bound, and
only then, with the outcome of the run. -/
theorem ends_iff_run : Ends defs e s o ↔ (run defs e s).Finishes ∧ (run defs e s).outcome = o := by
  constructor
  · rintro ⟨depth, hfin, rfl⟩
    have hrun : run defs e s = (e.parserWithin defs depth).parse s :=
      parser_extendedWithin (resolve_staysInText defs depth)
        (resolve_extendedWithin_levels defs s depth) e s List.suffix_rfl hfin
    rw [hrun]
    exact ⟨hfin, rfl⟩
  · rintro ⟨hfin, rfl⟩
    exact ends_run hfin

theorem Ends.outcome_run (h : Ends defs e s o) : (run defs e s).outcome = o :=
  (ends_iff_run.mp h).2

/-- A name without a definition is referred to, although there are no definitions. -/
example : Ends [] (ref "bracketed") [] (.error (.failed "undefined name")) :=
  ends_iff_run.mpr ⟨by decide +kernel, by with_unfolding_all rfl⟩

/-! ### The rules of the grammar -/

/-- No grammar rule refers to a definition, and none exceeds the bound on nested elements. -/
theorem finishes_rule (r : Rule) (s : Text) : (r.parser.parse s).Finishes := by
  have hrecords : r.parser.Records (· ≠ .nestingExceeded) s := by
    cases r with
    | anyChar => exact Parser.records_anyChar s
    | nameRun => exact Parser.records_nameRun s
    | blank => exact Parser.records_filter (Parser.records_anyChar s)
    | blanks => exact Grammar.records_blanks (fun _ _ => nofun) s
    | blanks1 => exact Grammar.records_blanks1 (fun _ _ => nofun) (fun _ => nofun) s
    | quoted => exact Grammar.records_quoted (fun _ _ => nofun) s
    | nameValue => exact Grammar.records_nameValue (fun _ _ => nofun) s
    | attributes => exact Grammar.records_attributes (fun _ _ => nofun) (fun _ => nofun) s
    | emptyTag => exact Grammar.records_emptyTag (fun _ _ => nofun) (fun _ => nofun) s
    | startTag => exact Grammar.records_startTag (fun _ _ => nofun) (fun _ => nofun) s
    | container =>
      exact Grammar.records_container (fun _ _ => nofun) (fun _ => nofun) (fun _ => nofun) s
    | element =>
      exact Grammar.records_element (fun _ _ => nofun) (fun _ => nofun) (fun _ => nofun) s
  exact fun hmem => hrecords _ hmem rfl

/-- **The rules of the grammar end** on every text, with the outcome of their parser. -/
theorem ends_rule (defs : Definitions) (r : Rule) (s : Text) :
    Ends defs (rule r) s (r.parser.parse s).outcome :=
  ⟨0, finishes_rule r s, rfl⟩

/-! ### A recursive expression -/

/-- A name with any number of brackets around it. It is recursive where `defs` defines `bracketed`
as this expression. -/
def bracketed : Expr :=
  orElse (between (literal ['(']) (ref "bracketed") (literal [')']))
    (inContext "name" (filter (Value.isNotText []) (rule .nameRun)))

/-- A name in two brackets comes to an end with three references open. -/
example : Ends [("bracketed", bracketed)] (ref "bracketed") "((a))b".toList
    (.ok ⟨.text ['a'], ['b']⟩) :=
  ⟨3, by decide +kernel, by with_unfolding_all rfl⟩

end Expr

end TagTree
