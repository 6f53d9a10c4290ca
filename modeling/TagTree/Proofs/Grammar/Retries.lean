import Mathlib.Algebra.GroupWithZero.Nat
import TagTree.Proofs.Grammar.Progress
import TagTree.Proofs.RoundTrip

/-!
# How often an element is tried again

An element is tried as an empty tag first and then, from the same place, as a container. The second
attempt is a *retry*, and it is in the log. An element inside another one is not read again when the
retry of the outer one begins, since an empty tag does not look behind its head. So retries are few,
and the tags of the text pay for them: a container pays for its own retry with its start tag, and
for the vain attempt to read one more child with its end tag, where this attempt is made. An element
that is cut short has no end tag, but it is the last thing that is tried.

In a written element the tags tell exactly how many retries there are: an empty tag costs none and
a pair of tags costs two.

## Main definitions

* `retries`: the number of retries in a log.
* `Element.tagPairs`: the number of elements that a style writes as a pair of tags.

## Main results

* `Grammar.retries_element_add_count_le`: an element that is read pays with its own tags.
* `Grammar.retries_element_le`: whatever happens, there is at most one retry more than tags.
* `Grammar.retries_element_of_layout`: the retries in a written element.
* `Grammar.document_retries`: both for documents.
-/

namespace TagTree

/-! ### Counting retries -/

/-- The number of records that tell that a second alternative was tried. -/
def retries (log : List Event) : Nat :=
  log.countP fun event => event.source == .orElse

theorem retries_append (log log' : List Event) :
    retries (log ++ log') = retries log + retries log' :=
  List.countP_append

theorem retries_eq_zero {log : List Event} (h : ∀ event ∈ log, event.source ≠ .orElse) :
    retries log = 0 := by
  rw [retries, List.countP_eq_zero]
  intro event hevent
  rw [beq_iff_eq]
  exact h event hevent

namespace Reply

variable {ε α β : Type} {r : Reply ε α}

theorem retries_bind_of_ok {a : α} (h : r.outcome = .ok a) (next : α → Reply ε β) :
    retries (r.bind next).log = retries r.log + retries (next a).log := by
  rw [bind_of_ok h, log_after, retries_append]

/-- What goes on after a reply makes no difference if it does not retry. -/
theorem retries_bind_of_next {next : α → Reply ε β} (h : ∀ a, retries (next a).log = 0) :
    retries (r.bind next).log = retries r.log := by
  cases hout : r.outcome with
  | error e => rw [bind_of_error hout]
  | ok a => rw [retries_bind_of_ok hout, h a, Nat.add_zero]

end Reply

namespace Parser

variable {α β : Type} {p q : Parser α} {s m : Text} {a : α}

theorem retries_bind_of_reads (h : p.Reads s a m) (next : α → Parser β) :
    retries ((p.bind next).parse s).log =
      retries (p.parse s).log + retries ((next a).parse m).log :=
  Reply.retries_bind_of_ok h _

theorem retries_bind_of_refuses (h : p.Refuses s) (next : α → Parser β) :
    retries ((p.bind next).parse s).log = retries (p.parse s).log := by
  obtain ⟨x, hx⟩ := h
  simp only [Parser.bind, Reply.bind_of_error hx]

theorem retries_keepLeft {c : Parser β} (h : ∀ t, retries (c.parse t).log = 0) (s : Text) :
    retries ((p.keepLeft c).parse s).log = retries (p.parse s).log := by
  simp only [keepLeft, map, both, Reply.log_map]
  exact Reply.retries_bind_of_next fun a => h a.rest

theorem retries_between {opening closing : Parser Unit} (h : opening.Reads s () m)
    (hclosing : ∀ t, retries (closing.parse t).log = 0) :
    retries ((between opening p closing).parse s).log =
      retries (opening.parse s).log + retries (p.parse m).log := by
  refine (Reply.retries_bind_of_ok h _).trans (congrArg _ ?_)
  exact Reply.retries_bind_of_next fun b => hclosing b.rest

theorem retries_orElse_of_reads (h : p.Reads s a m) :
    retries ((p.orElse q).parse s).log = retries (p.parse s).log := by
  simp only [orElse, Reply.handle_of_ok h]

/-- The second alternative is a retry. -/
theorem retries_orElse_of_refuses (h : p.Refuses s) :
    retries ((p.orElse q).parse s).log =
      retries (p.parse s).log + (1 + retries (q.parse s).log) := by
  obtain ⟨x, hx⟩ := h
  simp only [orElse, Reply.handle_of_error hx, Reply.log_after, retries_append]
  rfl

end Parser

namespace Element

/-! ### Pairs of tags -/

/-- The number of elements of a tree that a style writes as a pair of tags. -/
def tagPairs (style : Style) (e : Element) : Nat :=
  e.subtrees.countP fun x => !(style.selfClose && x.isChildless)

theorem tagPairs_eq (style : Style) (e : Element) :
    e.tagPairs style = (if style.selfClose && e.isChildless then 0 else 1) +
      (e.children.map (tagPairs style)).sum := by
  have hchildren : (e.children.flatMap subtrees).countP
      (fun x => !(style.selfClose && x.isChildless)) = (e.children.map (tagPairs style)).sum :=
    List.countP_flatMap
  rw [tagPairs, subtrees_eq, List.countP_cons, hchildren, Nat.add_comm]
  cases style.selfClose && e.isChildless <;> rfl

/-- In a style with empty tags, the elements with children are written as pairs of tags, and in the
other styles all are. -/
theorem tagPairs_eq_ite (style : Style) (e : Element) :
    e.tagPairs style =
      if style.selfClose then e.subtrees.countP fun x => !x.isChildless else e.size := by
  rw [tagPairs]
  cases style.selfClose with
  | true => simp only [Bool.true_and, if_true]
  | false =>
    rw [if_neg Bool.false_ne_true, ← length_subtrees, List.countP_eq_length]
    exact fun _ _ => rfl

/-- The end tag of a name. -/
def closing (name : Text) : Text :=
  ['<', '/'] ++ name ++ ['>']

/-- An element that is not written as an empty tag is written as a pair of tags, with blanks behind
its last child. -/
theorem layout_eq_pair (name : Text) (attributes : List Attribute) {style : Style}
    {children : List Element} (h : (style.selfClose && children.isEmpty) = false) (level : Nat) :
    ∃ w, IsBlanks w ∧ layout style level ⟨name, attributes, children⟩ =
      '<' :: name ++ attributes.flatMap Attribute.written ++ ['>'] ++
        (layouts style (level + 1) children ++ w ++ closing name) := by
  cases children with
  | nil =>
    have hpair : style.selfClose = false := by simpa using h
    refine ⟨[], nofun, ?_⟩
    simp only [layout, layouts, hpair, closing, Bool.false_eq_true, if_false, List.append_assoc,
      List.cons_append, List.nil_append]
  | cons c cs =>
    refine ⟨style.lineBreak level, isBlanks_lineBreak style level, ?_⟩
    simp only [layout, closing, List.append_assoc]

end Element

namespace Grammar

open TagTree.Parser

variable {s t m r n : Text} {e : Element} {es : List Element}

/-! ### Retries of one element -/

theorem retries_discard_blanks (s : Text) : retries ((discard blanks).parse s).log = 0 :=
  retries_eq_zero (records_blanks (fun _ _ => nofun) s)

theorem retries_emptyTag (s : Text) : retries (emptyTag.parse s).log = 0 :=
  retries_eq_zero (records_emptyTag (fun _ _ => nofun) (fun _ => nofun) s)

theorem retries_startTag (s : Text) : retries (startTag.parse s).log = 0 :=
  retries_eq_zero (records_startTag (fun _ _ => nofun) (fun _ => nofun) s)

theorem retries_endTag (n s : Text) : retries ((endTag n).parse s).log = 0 :=
  retries_eq_zero (records_endTag n s)

/-- The blanks around an element are read without a retry. -/
theorem retries_element (s : Text) :
    retries (element.parse s).log =
      retries ((orElse emptyTag container).parse (s.dropWhile isBlank)).log := by
  have hskip : (discard blanks).Reads s () (s.dropWhile isBlank) := reads_discard_blanks.mpr rfl
  rw [element_eq, elementOf, spaced, retries_between hskip retries_discard_blanks,
    retries_discard_blanks, Nat.zero_add]
  rfl

/-- An empty tag costs no retry. -/
theorem retries_element_of_reads_emptyTag (h : emptyTag.Reads (s.dropWhile isBlank) e m) :
    retries (element.parse s).log = 0 := by
  rw [retries_element, retries_orElse_of_reads h, retries_emptyTag]

/-- Where no empty tag is read, there is a retry. -/
theorem retries_element_of_refuses_emptyTag (h : emptyTag.Refuses (s.dropWhile isBlank)) :
    retries (element.parse s).log =
      1 + retries (container.parse (s.dropWhile isBlank)).log := by
  rw [retries_element, retries_orElse_of_refuses h, retries_emptyTag, Nat.zero_add]

/-- A container retries what its children do. -/
theorem retries_container_of_reads_startTag (h : startTag.Reads s e m) :
    retries (container.parse s).log = retries (element.gather 0 m).log := by
  rw [container, containerOf, retries_bind_of_reads h, retries_startTag, Nat.zero_add]
  exact retries_keepLeft (retries_endTag e.name) m

theorem retries_container_of_refuses_startTag (h : startTag.Refuses s) :
    retries (container.parse s).log = 0 := by
  rw [container, containerOf, retries_bind_of_refuses h, retries_startTag]

theorem retries_element_of_reads_startTag (h : startTag.Reads (s.dropWhile isBlank) e m) :
    retries (element.parse s).log = 1 + retries (element.gather 0 m).log := by
  rw [retries_element_of_refuses_emptyTag (refuses_emptyTag_of_reads_startTag h),
    retries_container_of_reads_startTag h]

theorem retries_element_of_refuses_startTag (h : startTag.Refuses (s.dropWhile isBlank)) :
    retries (element.parse s).log ≤ 1 := by
  cases hempty : (emptyTag.parse (s.dropWhile isBlank)).outcome with
  | error x =>
    rw [retries_element_of_refuses_emptyTag ⟨x, hempty⟩, retries_container_of_refuses_startTag h]
  | ok a =>
    rw [retries_element_of_reads_emptyTag hempty]
    exact Nat.zero_le 1

/-- An end tag is not taken for a start tag. -/
theorem refuses_startTag_slash (t : Text) : startTag.Refuses ('<' :: '/' :: t) := by
  have hhead : Element.HeadSpelledBy [] [] ['<'] := ⟨nofun, [], rfl, rfl⟩
  refine refuses_iff.mpr fun e m hread => ?_
  obtain ⟨-, u, hu, heq⟩ := reads_startTag.mp hread
  replace heq : ['<'] ++ '/' :: t = u ++ (['>'] ++ m) := heq.trans (List.append_assoc ..)
  obtain ⟨-, -, hrest⟩ := headSpelledBy_unique hhead hu heq endsHead_slash endsHead_angle
  cases hrest

/-! ### Retries of children -/

theorem retries_gather_of_reads (h : element.Reads s e m) (collected : Nat) :
    retries (element.gather collected s).log =
      retries (element.parse s).log + retries (element.gather (collected + 1) m).log := by
  have hlt : m.length < s.length := progresses_element s e m h
  rw [gather_of_progress h hlt]
  exact retries_append _ _

theorem retries_gather_of_refuses (h : element.Refuses s) (collected : Nat) :
    retries (element.gather collected s).log = retries (element.parse s).log := by
  obtain ⟨x, hx⟩ := h
  rw [gather_of_error hx, retries_append]
  rfl

/-- If elements that are read pay with their tags, so do the children that are read one after the
other. The attempt at which they end is not paid yet. -/
theorem retries_gather_add_count_le
    (h : ∀ t e r, t.length ≤ s.length → element.Reads t e r →
      retries (element.parse t).log + r.count '<' ≤ t.count '<')
    (hrounds : element.Rounds s es r) (collected : Nat) :
    retries (element.gather collected s).log + r.count '<' ≤
      s.count '<' + retries (element.parse r).log := by
  have hrefuses := hrounds.refuses progresses_element
  induction hrounds generalizing collected with
  | stop =>
    rw [retries_gather_of_refuses hrefuses, Nat.add_comm]
  | @more s m r e es hread hlt _ ih =>
    have hfirst := h s e m le_rfl hread
    have hrest := ih (fun t e r ht => h t e r (by omega)) (collected + 1) hrefuses
    rw [retries_gather_of_reads hread]
    omega

/-! ### Retries are paid for by tags -/

theorem count_dropWhile_le (s : Text) : (s.dropWhile isBlank).count '<' ≤ s.count '<' :=
  (List.dropWhile_sublist isBlank).count_le '<'

theorem count_of_reads_startTag (h : startTag.Reads s e m) : m.count '<' + 1 ≤ s.count '<' := by
  obtain ⟨-, u, ⟨-, v, -, rfl⟩, rfl⟩ := reads_startTag.mp h
  simp only [List.count_append, List.cons_append, List.count_cons_self]
  omega

theorem count_of_reads_emptyTag (h : emptyTag.Reads s e m) : m.count '<' ≤ s.count '<' := by
  obtain ⟨-, u, -, rfl⟩ := reads_emptyTag.mp h
  rw [List.count_append]
  omega

theorem count_of_reads_endTag {found : Text} (h : (endTag n).Reads s found r) :
    r.count '<' + 1 ≤ s.count '<' := by
  obtain ⟨-, -, rfl⟩ := reads_endTag.mp h
  have htag : ['<', '/'].count '<' = 1 := rfl
  rw [List.count_append, List.count_append, List.count_append, htag]
  omega

/-- **An element that is read pays with its own tags.** -/
theorem retries_element_add_count_le (h : element.Reads s e r) :
    retries (element.parse s).log + r.count '<' ≤ s.count '<' := by
  induction hn : s.length using Nat.strongRecOn generalizing s e r with
  | ind k ih =>
    have hstart := count_dropWhile_le s
    obtain ⟨m, hempty | hcontainer, rfl⟩ := reads_element.mp h
    · have htag := count_of_reads_emptyTag hempty
      have hend := count_dropWhile_le m
      rw [retries_element_of_reads_emptyTag hempty]
      omega
    · obtain ⟨u, u', hopened, hchildren, hclosed⟩ := reads_container.mp hcontainer
      have hlen := length_of_reads_startTag hopened
      have hskip := List.length_dropWhile_le isBlank s
      have hinner := retries_gather_add_count_le
        (fun t e r ht hread => ih t.length (by omega) hread rfl) hchildren 0
      have hopening := count_of_reads_startTag hopened
      have hclosing := count_of_reads_endTag hclosed
      have hend := count_dropWhile_le m
      -- The attempt to read one more child is made at the end tag, and pays with it.
      have hlast : retries (element.parse u').log ≤ 1 := by
        obtain ⟨-, -, rfl⟩ := reads_endTag.mp hclosed
        exact retries_element_of_refuses_startTag (refuses_startTag_slash _)
      rw [retries_element_of_reads_startTag hopened]
      omega

/-- **Retries are linear.** Read or not, an element has at most one retry more than there are tags
in the text. -/
theorem retries_element_le (s : Text) : retries (element.parse s).log ≤ s.count '<' + 1 := by
  induction hn : s.length using Nat.strongRecOn generalizing s with
  | ind k ih =>
    cases hopened : (startTag.parse (s.dropWhile isBlank)).outcome with
    | error x =>
      have hone := retries_element_of_refuses_startTag ⟨x, hopened⟩
      omega
    | ok a =>
      have hread : startTag.Reads (s.dropWhile isBlank) a.value a.rest := hopened
      have hstart := count_dropWhile_le s
      have hopening := count_of_reads_startTag hread
      have hlen := length_of_reads_startTag hread
      have hskip := List.length_dropWhile_le isBlank s
      have hrounds := rounds_gather element 0 a.rest
      have hinner := retries_gather_add_count_le
        (fun t e r _ h => retries_element_add_count_le h) hrounds 0
      have hlast := ih (element.gather 0 a.rest).rest.length
        (by have := hrounds.length_le; omega) _ rfl
      rw [retries_element_of_reads_startTag hread]
      omega

/-! ### Retries in written elements -/

variable {name : Text} {style : Style}

/-- At an end tag, the attempt to read one more child is retried once. -/
theorem retries_gather_closing (hne : name ≠ []) (hname : IsNameRun name)
    (hs : s.dropWhile isBlank = Element.closing name ++ m) (collected : Nat) :
    retries (element.gather collected s).log = 1 := by
  have hnone : ∀ e t, ¬ element.Reads s e t := by
    intro e t hread
    have hread' := reads_element_dropWhile.mpr hread
    rw [hs] at hread'
    exact not_reads_element_endTag hne hname e t hread'
  have hempty : emptyTag.Refuses (s.dropWhile isBlank) :=
    refuses_iff.mpr fun e t hread => hnone _ _ (reads_element.mpr ⟨t, .inl hread, rfl⟩)
  have hstart : startTag.Refuses (s.dropWhile isBlank) := hs ▸ refuses_startTag_slash _
  rw [retries_gather_of_refuses (refuses_iff.mpr hnone),
    retries_element_of_refuses_emptyTag hempty, retries_container_of_refuses_startTag hstart]

/-- If each of some written elements has two retries for each of its pairs of tags, so do all of
them in sequence, and there is one more at the end tag behind them. -/
theorem retries_gather_layouts {level : Nat} {w : Text}
    (h : ∀ e ∈ es, ∀ s m, s.dropWhile isBlank = e.layout style level ++ m →
      retries (element.parse s).log = 2 * e.tagPairs style)
    (hes : ∀ e ∈ es, e.defects = []) (hne : name ≠ []) (hname : IsNameRun name) (hw : IsBlanks w)
    (hs : s.dropWhile isBlank =
      (Element.layouts style level es ++ w ++ (Element.closing name ++ m)).dropWhile isBlank)
    (collected : Nat) :
    retries (element.gather collected s).log = 2 * (es.map (Element.tagPairs style)).sum + 1 := by
  induction es generalizing s collected with
  | nil =>
    have hend : s.dropWhile isBlank = Element.closing name ++ m := by
      rw [hs, Element.layouts, List.nil_append, hw.dropWhile_append]
      rfl
    exact retries_gather_closing hne hname hend collected
  | cons e es ih =>
    let rest := Element.layouts style level es ++ w ++ (Element.closing name ++ m)
    have hspelled := Element.spelledBy_layout (hes e List.mem_cons_self) style level
    have hstart : s.dropWhile isBlank = e.layout style level ++ rest := by
      rw [hs, Element.layouts]
      simp only [rest, List.append_assoc, (isBlanks_lineBreak style level).dropWhile_append,
        hspelled.dropWhile_append]
    have hread : element.Reads s e (rest.dropWhile isBlank) :=
      reads_of_spelledAt ⟨_, rest, hspelled, hstart, rfl⟩
    have hrest := ih (fun e he => h e (List.mem_cons_of_mem _ he))
      (fun e he => hes e (List.mem_cons_of_mem _ he)) (dropWhile_dropWhile_isBlank rest)
      (collected + 1)
    rw [retries_gather_of_reads hread, h e List.mem_cons_self s rest hstart, hrest, List.map_cons,
      List.sum_cons]
    omega

/-- **The retries in a written element.** There are two for each of its pairs of tags. -/
theorem retries_element_of_layout (he : e.defects = []) {level : Nat}
    (hs : s.dropWhile isBlank = e.layout style level ++ m) :
    retries (element.parse s).log = 2 * e.tagPairs style := by
  induction e using Element.induction generalizing s m level with
  | node name attributes children ih =>
    obtain ⟨hname, -, hchildren⟩ := Element.defects_eq_nil_iff.mp he
    obtain ⟨hne, hrun⟩ := Element.isName_iff.mp hname
    have hreadable := (Element.defects_eq_nil_iff_readable_named.mp he).1
    have hhead : Element.HeadSpelledBy name attributes
        ('<' :: name ++ attributes.flatMap Attribute.written) :=
      Element.headSpelledBy_written (Element.readable_iff.mp hreadable).1
    rw [Element.tagPairs_eq, Element.isChildless]
    cases hpair : style.selfClose && children.isEmpty with
    | true =>
      obtain ⟨hclose, hnil⟩ := Bool.and_eq_true_iff.mp hpair
      obtain rfl := List.isEmpty_iff.mp hnil
      have htag : emptyTag.Reads (s.dropWhile isBlank) ⟨name, attributes, []⟩ m := by
        refine reads_emptyTag.mpr ⟨rfl, _, hhead, ?_⟩
        rw [hs, Element.layout, if_pos hclose]
      rw [retries_element_of_reads_emptyTag htag]
      rfl
    | false =>
      obtain ⟨w, hw, hlayout⟩ := Element.layout_eq_pair name attributes hpair level
      let inner := Element.layouts style (level + 1) children ++ w ++ (Element.closing name ++ m)
      have htag : startTag.Reads (s.dropWhile isBlank) ⟨name, attributes, []⟩ inner := by
        refine reads_startTag.mpr ⟨rfl, _, hhead, ?_⟩
        rw [hs, hlayout]
        simp only [inner, List.append_assoc]
      have hinner : retries (element.gather 0 inner).log =
          2 * (children.map (Element.tagPairs style)).sum + 1 :=
        retries_gather_layouts (fun e hmem s m => ih e hmem (hchildren e hmem)) hchildren hne hrun
          hw rfl 0
      rw [retries_element_of_reads_startTag htag, hinner, if_neg Bool.false_ne_true]
      change _ = 2 * (1 + (children.map (Element.tagPairs style)).sum)
      omega

/-! ### Retries in documents -/

/-- All retries in a document are those of its element. -/
theorem retries_document (s : Text) :
    retries (document s).log = retries (element.parse s).log := by
  rw [document, Reply.log_after, retries_append]
  refine (Nat.zero_add _).trans (Reply.retries_bind_of_next fun root => ?_)
  cases root.rest with
  | nil => rfl
  | cons c r => rfl

/-- **Retries are few.** Whether a document is accepted or not, its log has at most twice as many
retries as the document has characters `<`, and one more. If it was written from an element, it has
two for each element that the style does not write as an empty tag. -/
theorem document_retries :
    (∀ s : Text, retries (document s).log ≤ 2 * s.count '<' + 1) ∧
    ∀ (e : Element) (style : Style) (t : Text), e.toMarkup style = .ok t →
      retries (document t).log =
        2 * if style.selfClose then e.subtrees.countP fun x => !x.isChildless else e.size := by
  refine ⟨fun s => ?_, fun e style t h => ?_⟩
  · have hle := retries_element_le s
    rw [retries_document]
    omega
  · obtain ⟨he, rfl, -⟩ := Element.toMarkup_eq_ok_iff.mp h
    have hstart : (e.layout style 0).dropWhile isBlank = e.layout style 0 ++ [] := by
      have hdrop := (Element.spelledBy_layout he style 0).dropWhile_append []
      rwa [List.append_nil] at hdrop ⊢
    rw [retries_document, retries_element_of_layout he hstart, Element.tagPairs_eq_ite]

/-- A document that is cut short at its third level, and an element with one child in a style that
writes empty tags as pairs. -/
theorem document_retries_cut_short :
    retries (document "<a k=\"<\"><b><c".toList).log = 3 ∧
    retries (document "<a k=\"<\"><b><c".toList).log ≤ 2 * 4 + 1 ∧
    (⟨['a'], [], [⟨['b'], [⟨['k'], ['<', '/', 'a', '>']⟩], []⟩]⟩ : Element).toMarkup
      ⟨1, true, false⟩ = .ok "<a>\n <b k=\"</a>\"></b>\n</a>".toList ∧
    retries (document "<a>\n <b k=\"</a>\"></b>\n</a>".toList).log = 2 * 2 := by
  have hcut := document_retries.1 "<a k=\"<\"><b><c".toList
  have hwritten := document_retries.2
    ⟨['a'], [], [⟨['b'], [⟨['k'], ['<', '/', 'a', '>']⟩], []⟩]⟩ ⟨1, true, false⟩ _ rfl
  exact ⟨by decide +kernel, hcut, rfl, hwritten⟩

end Grammar

end TagTree
