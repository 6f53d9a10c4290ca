import TagTree.Proofs.Grammar.Exactness

/-!
# Documents end by themselves

An accepted document tells where it ends. Whatever text is put behind it, reading goes exactly
through the document and the blanks that follow it: no name, attribute or child is read further
than before, because the last character of a spelling settles its element. The text behind the
blanks is left over, and as a document the whole is accepted only if nothing is left.

So documents need no separator. A sequence of them is cut back into its members, although the
blanks between two of them are all taken by the first, and a document whose last tag is cut off is
not a document.

## Main results

* `Grammar.reads_element_append`: reading a document in front of any text.
* `Grammar.reads_many_element_flatten`: documents one after the other.
* `Grammar.not_accepted_of_append`: no accepted document is the start of another one.
* `Grammar.document_self_delimiting`: all three together.
-/

namespace TagTree.Grammar

open TagTree.Parser

variable {s p t : Text} {e e' : Element}

/-- **A document is read in front of any text.** What is left over is that text without the blanks
at its start. -/
theorem reads_element_append (h : (document s).outcome = .ok e) (t : Text) :
    element.Reads (s ++ t) e (t.dropWhile isBlank) := by
  obtain ⟨w, c, w', hw, hc, hw', rfl⟩ := outcome_document_eq_ok_iff.mp h
  have hstart : (w ++ c ++ w' ++ t).dropWhile isBlank = c ++ (w' ++ t) := by
    simp only [List.append_assoc, hw.dropWhile_append, hc.dropWhile_append]
  have hend : (w' ++ t).dropWhile isBlank = t.dropWhile isBlank := hw'.dropWhile_append t
  exact reads_of_spelledAt ⟨c, w' ++ t, hc, hstart, hend.symm⟩

/-! ### Documents one after the other -/

/-- An empty text starts no element. -/
theorem not_reads_element_nil (e : Element) (r : Text) : ¬ element.Reads [] e r := by
  intro h
  obtain ⟨u, hu⟩ := (spelledAt_of_reads h).exists_cons
  cases hu

/-- Documents one after the other spell the list of their elements. -/
theorem childrenSpelledBy_flatten {ds : List Text} {es : List Element}
    (h : List.Forall₂ (fun d e => (document d).outcome = .ok e) ds es) :
    Element.ChildrenSpelledBy es ds.flatten := by
  rw [Element.childrenSpelledBy_iff_joined]
  induction h with
  | nil => rfl
  | cons hd _ ih => exact ⟨_, _, outcome_document_eq_ok_iff.mp hd, ih, List.flatten_cons⟩

/-- **Documents need no separator.** A repetition of elements reads a sequence of documents to its
end. -/
theorem reads_many_element_flatten {ds : List Text} {es : List Element}
    (h : List.Forall₂ (fun d e => (document d).outcome = .ok e) ds es) :
    (many element).Reads ds.flatten es [] := by
  have hrounds : element.Rounds (ds.flatten ++ []) es [] :=
    rounds_of_childrenSpelledBy (fun _ _ _ _ => reads_of_spelledAt) not_reads_element_nil
      Text.stops_nil (childrenSpelledBy_flatten h)
  rw [List.append_nil] at hrounds
  exact reads_many.mpr hrounds

/-! ### Documents that are cut off -/

/-- A document stays accepted only if nothing but blanks is put behind it. -/
theorem isBlanks_of_accepted_append (h : (document p).outcome = .ok e')
    (happend : (document (p ++ t)).outcome = .ok e) : IsBlanks t := by
  have hwhole : element.Reads (p ++ t) e [] := outcome_document_eq_ok_iff_reads.mp happend
  obtain ⟨-, hrest⟩ := (reads_element_append h t).unique hwhole
  intro c hc
  exact List.dropWhile_eq_nil_iff.mp hrest c hc

/-- A document that loses a `>` at its end is not accepted. -/
theorem not_accepted_of_append (happend : (document (p ++ t)).outcome = .ok e) (ht : '>' ∈ t)
    (e' : Element) : (document p).outcome ≠ .ok e' := by
  intro h
  have hblank : isBlank '>' = true := isBlanks_of_accepted_append h happend '>' ht
  exact absurd hblank (by decide)

/-! ### The three together -/

/-- **Documents are self-delimiting.** In front of any text, a document is read as its element, and
what is left is the text without the blanks at its start; as a document the whole is accepted if
nothing is left, and reports what is left otherwise. Documents one after the other are read as the
list of their elements. A part of a document that ends before its last `>` is not accepted. -/
theorem document_self_delimiting :
    (∀ (s t : Text) (e : Element), (document s).outcome = .ok e →
      (element.parse (s ++ t)).outcome = .ok ⟨e, t.dropWhile isBlank⟩ ∧
        (document (s ++ t)).outcome =
          if t.dropWhile isBlank = [] then .ok e
          else .error (.trailing (t.dropWhile isBlank))) ∧
    (∀ (ds : List Text) (es : List Element),
      List.Forall₂ (fun d e => (document d).outcome = .ok e) ds es →
        ((many element).parse ds.flatten).outcome = .ok ⟨es, []⟩) ∧
    ∀ (p t : Text) (e : Element), (document (p ++ t)).outcome = .ok e → '>' ∈ t →
      ∀ e', (document p).outcome ≠ .ok e' := by
  refine ⟨fun s t e h => ?_, fun ds es h => reads_many_element_flatten h,
    fun p t e happend ht => not_accepted_of_append happend ht⟩
  have hread : element.Reads (s ++ t) e (t.dropWhile isBlank) := reads_element_append h t
  exact ⟨hread, outcome_document_of_reads hread⟩

/-- A document with a `>` in a value, in front of a second document, and without its last tag. -/
theorem document_self_delimiting_siblings :
    (element.parse "<a k=\">\"><b/></a> \n<c/> ".toList).outcome =
      .ok ⟨⟨['a'], [⟨['k'], ['>']⟩], [⟨['b'], [], []⟩]⟩, "<c/> ".toList⟩ ∧
    (document "<a k=\">\"><b/></a> \n<c/> ".toList).outcome = .error (.trailing "<c/> ".toList) ∧
    ((many element).parse "<a k=\">\"><b/></a> \n<c/> ".toList).outcome =
      .ok ⟨[⟨['a'], [⟨['k'], ['>']⟩], [⟨['b'], [], []⟩]⟩, ⟨['c'], [], []⟩], []⟩ ∧
    ∀ e', (document "<a k=\">\"><b/></a".toList).outcome ≠ .ok e' := by
  have ha : (document "<a k=\">\"><b/></a>".toList).outcome =
      .ok ⟨['a'], [⟨['k'], ['>']⟩], [⟨['b'], [], []⟩]⟩ := by decide +kernel
  have hc : (document " \n<c/> ".toList).outcome = .ok ⟨['c'], [], []⟩ := by decide +kernel
  obtain ⟨hread, hdocument⟩ := document_self_delimiting.1 _ " \n<c/> ".toList _ ha
  have hmany := document_self_delimiting.2.1 _ _ (.cons ha (.cons hc .nil))
  have hcut := document_self_delimiting.2.2 "<a k=\">\"><b/></a".toList ['>'] _ ha
    List.mem_cons_self
  exact ⟨hread, hdocument, hmany, hcut⟩

end TagTree.Grammar
