import TagTree.Proofs.Expr.Ends
import TagTree.Proofs.Parser.Loop
import Mathlib.Logic.Relation

/-!
# How deep elements are read inside elements

Reading an element may call for reading others: behind a start tag, the repetition of the children
reads an element on one text after the other. Nothing in the rule of elements says that this comes
to an end. Names, attributes and blanks may all be empty, so it is the two characters `<` and `>` of
the start tag alone that make the texts inside shorter, and they do so on every text, whether there
is an element to read or not.

The texts on which elements are read inside an element (`Grammar.Calls`) are all that the reading of
the element depends on. They are shorter by two characters than its own text, so a chain of calls
has at most half as many members as the text has characters. A bounded reading notices its bound
exactly if there is a longer chain, and therefore it does not notice any bound above the length of
the text.

## Main definitions

* `Parser.PassesOn`: what one round of a repetition passes on to the next.
* `Grammar.Calls`: the texts on which elements are read inside an element.
* `Grammar.documentOf`: a document with a given parser for its root.

## Main results

* `Grammar.Calls.length_add_two_le`: a text on which an element is read inside is shorter.
* `Grammar.elementOf_congr_of_calls`: elements depend on the elements inside.
* `Grammar.finishes_elementWithin_iff`: a bound is exceeded by longer chains of calls.
* `Grammar.element_terminates`: elements and documents are read in the end.
-/

namespace TagTree

/-! ### Replies that go on -/

namespace Reply

variable {ε δ α β : Type} {r : Reply ε α} {a : α} {e : ε}

theorem Finishes.of_bind_ok {next : α → Reply ε β} (h : (r.bind next).Finishes)
    (hout : r.outcome = .ok a) : (next a).Finishes := by
  rw [bind_of_ok hout] at h
  exact h.of_after

theorem Finishes.of_handle_error {recover : ε → Reply δ α} (h : (r.handle recover).Finishes)
    (hout : r.outcome = .error e) : (recover e).Finishes := by
  rw [handle_of_error hout] at h
  exact h.of_after

end Reply

/-! ### The texts of a repetition -/

namespace Parser

open Relation (ReflTransGen)

variable {α : Type} {p q : Parser α} {s m t : Text} {g g' : Gathered α}

/-- A round on the text `s` is not the last one and passes the text `m` on to the next round. -/
def PassesOn (p : Parser α) (s m : Text) : Prop :=
  ∃ a, p.Reads s a m ∧ m.length ≠ s.length

theorem passesOn_of_loopRound (h : p.loopRound g = .yield g') : p.PassesOn g.rest g'.rest := by
  rw [loopRound] at h
  split at h
  · cases h
  · next a rest log hparse =>
    split at h
    · cases h
    · next hne =>
      cases h
      exact ⟨a, congrArg Reply.outcome hparse, hne⟩

namespace LeavesSuffix

/-- What is passed on is shorter. -/
theorem of_passesOn (hp : p.LeavesSuffix) (h : p.PassesOn s m) :
    m <:+ s ∧ m.length < s.length := by
  obtain ⟨a, hread, hne⟩ := h
  have hsuffix := hp s a m hread
  exact ⟨hsuffix, Nat.lt_of_le_of_ne hsuffix.length_le hne⟩

theorem suffix_of_passesOn (hp : p.LeavesSuffix) (h : ReflTransGen p.PassesOn s t) : t <:+ s := by
  induction h with
  | refl => exact List.suffix_rfl
  | tail _ hlast ih => exact (hp.of_passesOn hlast).1.trans ih

end LeavesSuffix

/-- A repetition depends on the replies to the texts that its rounds come to. -/
theorem gather_congr_of_passesOn (h : ∀ t, ReflTransGen p.PassesOn s t → p.parse t = q.parse t)
    (collected : Nat) : p.gather collected s = q.gather collected s := by
  induction collected, s using gather_induction p with
  | stopped collected s e hp =>
    have hs : p.parse s = q.parse s := h s .refl
    rw [gather_of_error hp, gather_of_error (hs ▸ hp), hs]
  | more collected s a hp hlt ih =>
    have hs : p.parse s = q.parse s := h s .refl
    have hfirst : p.PassesOn s a.rest := ⟨a.value, hp, hlt.ne⟩
    have hrest := ih fun t ht => h t (.head hfirst ht)
    rw [gather_of_progress hp hlt, gather_of_progress (hs ▸ hp) hlt, hs, hrest]
  | stalled collected s a hp hge =>
    have hs : p.parse s = q.parse s := h s .refl
    rw [gather_of_stall hp hge, gather_of_stall (hs ▸ hp) hge, hs]

theorem many_congr_of_passesOn (h : ∀ t, ReflTransGen p.PassesOn s t → p.parse t = q.parse t) :
    (many p).parse s = (many q).parse s := by
  rw [parse_many, parse_many, gather_congr_of_passesOn h]

/-- A repetition records what its first round records. -/
theorem log_subset_gather (q : Parser α) (collected : Nat) (s : Text) :
    (q.parse s).log ⊆ (q.gather collected s).log := by
  cases hout : (q.parse s).outcome with
  | error e =>
    rw [gather_of_error hout]
    exact List.subset_append_left _ _
  | ok a =>
    rcases Nat.lt_or_ge a.rest.length s.length with hlt | hge
    · rw [gather_of_progress hout hlt]
      exact List.subset_append_left _ _
    · rw [gather_of_stall hout hge]
      exact List.subset_append_left _ _

/-- If a repetition finishes, then so do its rounds on the texts to which another repetition comes,
provided that this one replies the same wherever a round finishes. -/
theorem ExtendedBy.finishes_of_passesOn (hext : q.ExtendedBy p) (hp : p.LeavesSuffix)
    (h : ReflTransGen p.PassesOn s t) {collected : Nat}
    (hfin : .nestingExceeded ∉ (q.gather collected s).log) : (q.parse t).Finishes := by
  induction h using ReflTransGen.head_induction_on generalizing collected with
  | refl => exact fun hmem => hfin (log_subset_gather q collected t hmem)
  | @head s m hfirst _ ih =>
    have hs : p.parse s = q.parse s :=
      hext s fun hmem => hfin (log_subset_gather q collected s hmem)
    have hlt : m.length < s.length := (hp.of_passesOn hfirst).2
    obtain ⟨a, hread, -⟩ := hfirst
    rw [Reads, hs] at hread
    rw [gather_of_progress hread hlt] at hfin
    exact ih fun hmem => hfin (List.mem_append_right _ hmem)

end Parser

namespace Grammar

open TagTree.Parser
open Relation (ReflTransGen)

variable {s t : Text} {ts : List Text} {inner inner' : Parser Element}

/-! ### Calls -/

/-- While an element is read from the text `s`, another one is read from `t`: behind its blanks `s`
has a start tag, and the repetition of the children comes to a round on `t`. -/
def Calls (s t : Text) : Prop :=
  ∃ opened m, startTag.Reads (s.dropWhile isBlank) opened m ∧ ReflTransGen element.PassesOn m t

theorem leavesSuffix_element : element.LeavesSuffix :=
  staysInText_element.leavesSuffix

theorem Calls.suffix (h : Calls s t) : t <:+ s := by
  obtain ⟨opened, m, hopened, hrounds⟩ := h
  have hm : m <:+ s.dropWhile isBlank := staysInText_startTag.leavesSuffix _ _ _ hopened
  exact ((leavesSuffix_element.suffix_of_passesOn hrounds).trans hm).trans (List.dropWhile_suffix _)

/-- **Calls are on shorter texts.** The start tag takes two characters. -/
theorem Calls.length_add_two_le (h : Calls s t) : t.length + 2 ≤ s.length := by
  obtain ⟨opened, m, hopened, hrounds⟩ := h
  have hblanks : (s.dropWhile isBlank).length ≤ s.length := List.length_dropWhile_le isBlank s
  have htag : m.length + 2 ≤ (s.dropWhile isBlank).length := length_of_reads_startTag hopened
  have hchildren : t.length ≤ m.length :=
    (leavesSuffix_element.suffix_of_passesOn hrounds).length_le
  omega

/-- Each call of a chain takes two characters of the text. -/
theorem two_mul_length_le_of_calls (h : (s :: ts).IsChain Calls) : 2 * ts.length ≤ s.length := by
  induction ts generalizing s with
  | nil => exact Nat.zero_le _
  | cons t ts ih =>
    obtain ⟨hcall, hchain⟩ := List.isChain_cons_cons.mp h
    have hshorter : t.length + 2 ≤ s.length := hcall.length_add_two_le
    have hrest : 2 * ts.length ≤ t.length := ih hchain
    rw [List.length_cons]
    omega

/-- Elements depend on the elements inside, and on nothing else that the inner parser may do. -/
theorem elementOf_congr_of_calls (h : ∀ t, Calls s t → inner.parse t = element.parse t) :
    (elementOf inner).parse s = element.parse s := by
  rw [element_eq]
  simp only [elementOf, spaced, between]
  refine Reply.bind_congr fun skipped hskipped => ?_
  have hstart : skipped.rest = s.dropWhile isBlank := reads_discard_blanks.mp hskipped
  have hcontainer : (containerOf inner).parse skipped.rest =
      (containerOf element).parse skipped.rest := by
    refine Reply.bind_congr fun opened hopened => ?_
    have hmany : (many element).parse opened.rest = (many inner).parse opened.rest :=
      many_congr_of_passesOn fun t ht =>
        (h t ⟨opened.value, opened.rest, hstart ▸ hopened, ht⟩).symm
    simp only [map, keepLeft, both, hmany]
  simp only [orElse, hcontainer]

/-- No other parser satisfies the rule of elements with itself inside. -/
theorem eq_element_iff {p : Parser Element} : p = elementOf p ↔ p = element := by
  refine ⟨fun h => Parser.ext (funext fun s => ?_), fun h => h ▸ element_eq⟩
  induction hn : s.length using Nat.strongRecOn generalizing s with
  | ind n ih =>
    rw [h]
    exact elementOf_congr_of_calls fun t ht =>
      ih t.length (by have := ht.length_add_two_le; omega) t rfl

/-! ### Bounds that are exceeded -/

theorem elementOf_extendedBy (hinner : inner.StaysInText) (h : inner.ExtendedBy inner') :
    (elementOf inner).ExtendedBy (elementOf inner') := by
  refine .of_within fun m => ?_
  have hmany : (many inner).ExtendedWithin m (many inner') := (h.within m).many hinner
  have hcontainer : (containerOf inner).ExtendedWithin m (containerOf inner') :=
    (ExtendedWithin.refl startTag).bind staysInText_startTag fun opened =>
      (hmany.keepLeft hinner.many (.refl (endTag opened.name))).map _
  have heither : (orElse emptyTag (containerOf inner)).ExtendedWithin m
      (orElse emptyTag (containerOf inner')) := (ExtendedWithin.refl emptyTag).orElse hcontainer
  have hstays : (orElse emptyTag (containerOf inner)).StaysInText :=
    staysInText_emptyTag.orElse (staysInText_containerOf hinner)
  exact .between (.refl _) staysInText_blanks.discard heither hstays (.refl _)

/-- A bounded reading that does not exceed its bound is a reading without a bound. -/
theorem elementWithin_extendedBy (depth : Nat) : (elementWithin depth).ExtendedBy element := by
  induction depth with
  | zero => exact .nestingExceeded element
  | succ depth ih =>
    rw [element_eq]
    exact elementOf_extendedBy (staysInText_elementWithin depth) ih

theorem finishes_element (s : Text) : (element.parse s).Finishes :=
  Expr.finishes_rule .element s

/-- A call is part of the reading of the element. -/
theorem finishes_of_calls (hext : inner.ExtendedBy element)
    (hfin : ((elementOf inner).parse s).Finishes) (h : Calls s t) : (inner.parse t).Finishes := by
  obtain ⟨opened, m, hopened, hrounds⟩ := h
  have hskipped : (discard blanks).Reads s () (s.dropWhile isBlank) := reads_discard_blanks.mpr rfl
  have heither : ((orElse emptyTag (containerOf inner)).parse (s.dropWhile isBlank)).Finishes :=
    (hfin.of_bind_ok hskipped).of_bind
  obtain ⟨e, hempty⟩ := refuses_emptyTag_of_reads_startTag hopened
  have hcontainer : ((containerOf inner).parse (s.dropWhile isBlank)).Finishes :=
    (heither.of_handle_error hempty).of_after
  have hinside : (((many inner).both (endTag opened.name)).parse m).Finishes :=
    hcontainer.of_bind_ok hopened
  have hmany : ((many inner).parse m).Finishes := hinside.of_bind
  exact hext.finishes_of_passesOn leavesSuffix_element hrounds hmany

/-- The bound on the elements inside is exceeded in one of the calls or not at all. -/
theorem finishes_elementOf_iff (hext : inner.ExtendedBy element) :
    ((elementOf inner).parse s).Finishes ↔ ∀ t, Calls s t → (inner.parse t).Finishes := by
  refine ⟨fun hfin t ht => finishes_of_calls hext hfin ht, fun h => ?_⟩
  rw [elementOf_congr_of_calls fun t ht => (hext t (h t ht)).symm]
  exact finishes_element s

/-- **A bound is exceeded by longer chains of calls**, and by nothing else. -/
theorem finishes_elementWithin_iff (depth : Nat) (s : Text) :
    ((elementWithin depth).parse s).Finishes ↔
      ∀ ts, (s :: ts).IsChain Calls → (s :: ts).length ≤ depth := by
  induction depth generalizing s with
  | zero =>
    refine ⟨fun hfin => absurd List.mem_cons_self hfin, fun h => ?_⟩
    exact absurd (h [] (.singleton s)) (Nat.not_succ_le_zero 0)
  | succ depth ih =>
    rw [elementWithin_succ, finishes_elementOf_iff (elementWithin_extendedBy depth)]
    simp only [ih]
    constructor
    · intro h ts hchain
      cases ts with
      | nil => exact Nat.succ_le_succ (Nat.zero_le depth)
      | cons t ts =>
        obtain ⟨hcall, hrest⟩ := List.isChain_cons_cons.mp hchain
        exact Nat.succ_le_succ (h t hcall ts hrest)
    · intro h t hcall ts hchain
      exact Nat.le_of_succ_le_succ (h (t :: ts) (List.isChain_cons_cons.mpr ⟨hcall, hchain⟩))

/-! ### Documents -/

/-- A whole document with a given parser for its root. -/
def documentOf (p : Parser Element) (s : Text) : Reply ParseError Element :=
  Reply.after [.documentStarted] <| (p.parse s).bind fun root =>
    match root.rest with
    | [] => ⟨.ok root.value, [.documentParsed root.value.name]⟩
    | c :: rest => .error (.trailing (c :: rest))

theorem document_eq_documentOf (s : Text) : document s = documentOf element s :=
  rfl

theorem documentOf_congr (h : inner.parse s = inner'.parse s) :
    documentOf inner s = documentOf inner' s := by
  rw [documentOf, h, documentOf]

theorem finishes_document (s : Text) : (document s).Finishes := by
  intro hmem
  rcases mem_log_document hmem with hstarted | helement | ⟨n, hparsed⟩
  · cases hstarted
  · exact finishes_element s helement
  · cases hparsed

/-- **Elements and documents are read in the end.** An element inside another one is read from a
suffix of the text of the other one, shorter by at least two characters, and these are the only
elements on which the reading depends. The loop of the children goes on with shorter and shorter
suffixes, and ends after at most one round more than its text has characters. So elements lie inside
one another to a depth of no more than the length of the text and one. A bound on this depth is
exceeded if and only if elements are read inside one another to a greater depth; every bound above
the length of the text is kept, for elements and for documents, and makes no difference. Without a
bound, the rule of elements has one solution. -/
theorem element_terminates :
    (∀ s t : Text, Calls s t → t <:+ s ∧ t.length + 2 ≤ s.length) ∧
    (∀ (inner : Parser Element) (s : Text), (∀ t, Calls s t → inner.parse t = element.parse t) →
      (elementOf inner).parse s = element.parse s) ∧
    (∀ g g' : Gathered Element, element.loopRound g = .yield g' →
      g'.rest <:+ g.rest ∧ g'.rest.length < g.rest.length) ∧
    (∀ s : Text, ∃ g, (many element).parse s = g.reply ∧
      ∀ n, s.length < n → element.loop n ⟨[], s, []⟩ = .done g) ∧
    (∀ (s : Text) (ts : List Text), (s :: ts).IsChain Calls → (s :: ts).length ≤ s.length + 1) ∧
    (∀ (depth : Nat) (s : Text), ((elementWithin depth).parse s).Finishes ↔
      ∀ ts : List Text, (s :: ts).IsChain Calls → (s :: ts).length ≤ depth) ∧
    (∀ (s : Text) (depth : Nat), s.length + 1 ≤ depth →
      ((elementWithin depth).parse s).Finishes ∧
        (elementWithin depth).parse s = element.parse s ∧
        (documentOf (elementWithin depth) s).Finishes ∧
        documentOf (elementWithin depth) s = document s) ∧
    ∀ p : Parser Element, p = elementOf p ↔ p = element := by
  refine ⟨fun s t h => ⟨h.suffix, h.length_add_two_le⟩, fun inner s => elementOf_congr_of_calls,
    fun g g' h => leavesSuffix_element.of_passesOn (passesOn_of_loopRound h),
    leavesSuffix_element.loop_many, fun s ts h => ?_, finishes_elementWithin_iff,
    fun s depth hdepth => ?_, fun p => eq_element_iff⟩
  · have hchain : 2 * ts.length ≤ s.length := two_mul_length_le_of_calls h
    rw [List.length_cons]
    omega
  · have hsame : (elementWithin depth).parse s = element.parse s :=
      elementWithin_eq hdepth (Nat.lt_succ_self s.length)
    have hdocument : documentOf (elementWithin depth) s = document s :=
      (documentOf_congr hsame).trans (document_eq_documentOf s).symm
    exact ⟨hsame ▸ finishes_element s, hsame, hdocument ▸ finishes_document s, hdocument⟩

/-- A container that is not closed. Elements lie inside one another to a depth of two. -/
theorem element_terminates_unclosed :
    Calls "<a> <b/>".toList " <b/>".toList ∧ " <b/>".toList.length + 2 ≤ "<a> <b/>".toList.length ∧
    (∀ t, Calls "<a> <b/>".toList t → (elementWithin 7).parse t = element.parse t) ∧
    (elementOf (elementWithin 7)).parse "<a> <b/>".toList = element.parse "<a> <b/>".toList ∧
    (∃ g', element.loopRound ⟨[], " <b/>".toList, []⟩ = .yield g' ∧
      g'.rest.length < " <b/>".toList.length) ∧
    (∃ g, element.loop 6 ⟨[], " <b/>".toList, []⟩ = .done g) ∧
    ["<a> <b/>".toList, " <b/>".toList].IsChain Calls ∧
    ((elementWithin 2).parse "<a> <b/>".toList).Finishes ∧
    ["<a> <b/>".toList, " <b/>".toList].length ≤ 2 ∧
    "<a> <b/>".toList.length + 1 ≤ 10 ∧
    documentOf (elementWithin 10) "<a> <b/>".toList = document "<a> <b/>".toList := by
  obtain ⟨hcalls, hcongr, hround, hloop, -, hbound, hkept, -⟩ := element_terminates
  have hopened : startTag.Reads "<a> <b/>".toList ⟨['a'], [], []⟩ " <b/>".toList := by
    decide +kernel
  have hcall : Calls "<a> <b/>".toList " <b/>".toList := ⟨_, _, hopened, .refl⟩
  have hagree : ∀ t, Calls "<a> <b/>".toList t → (elementWithin 7).parse t = element.parse t := by
    intro t ht
    have hlen : t.length + 2 ≤ 8 := (hcalls _ _ ht).2
    exact elementWithin_eq (by omega) (Nat.lt_succ_self t.length)
  have hread : element.Reads " <b/>".toList ⟨['b'], [], []⟩ [] := by decide +kernel
  have hyield := loopRound_eq_yield (g := ⟨[], " <b/>".toList, []⟩) hread (by decide)
  obtain ⟨g, -, hdone⟩ := hloop " <b/>".toList
  have hchain : ["<a> <b/>".toList, " <b/>".toList].IsChain Calls :=
    List.isChain_cons_cons.mpr ⟨hcall, .singleton _⟩
  have hfin : ((elementWithin 2).parse "<a> <b/>".toList).Finishes := by decide +kernel
  have hlength : "<a> <b/>".toList.length + 1 ≤ 10 := by decide
  exact ⟨hcall, (hcalls _ _ hcall).2, hagree, hcongr _ _ hagree, ⟨_, hyield, (hround _ _ hyield).2⟩,
    ⟨g, hdone 6 (by decide)⟩, hchain, hfin, (hbound 2 _).mp hfin _ hchain, hlength,
    (hkept _ _ hlength).2.2.2⟩

end Grammar

end TagTree
