import TagTree.Proofs.Parser.Fails
import TagTree.Proofs.Grammar.Exactness

/-!
# The fault of a rejected document

A document is rejected for a fault at its root: the root is not a tag, one of its two tags does not
end, its children are not followed by an end tag, the end tag has another name, or something
follows the root. A fault inside a child, an attribute, a value or some blanks ends the repetition
around it and is not reported; what is reported is the text at which the root cannot go on.

Each fault shows at one place of the text, its conditions exclude those of the others, and it
settles the whole error. The error of the empty tag, which is tried first, never counts: a root that
is no empty tag fails as a container.

## Main definitions

* `Grammar.RootFault`, `Grammar.RootFault.error`: the faults, and the error that reports each.
* `Grammar.RootHead`, `Grammar.RootChildren`: how far the root of a text is in order.
* `Grammar.RootFault.Of`: the fault of a text.

## Main results

* `Grammar.fails_element`, `Grammar.fails_container`: where the error of an element comes from.
* `Grammar.outcome_document_eq_error_iff`: a document is rejected exactly for a fault of its root.
* `Grammar.RootFault.Of.unique`: a text has at most one fault.
* `Grammar.document_fails_at_root`: which error a rejected document reports.
-/

namespace TagTree.Grammar

open TagTree.Parser

variable {s t r n : Text} {as : List Attribute} {e : Element} {x : ParseError}

/-! ### Errors of tags -/

theorem not_fails_attributes (s : Text) (x : ParseError) : ¬ attributes.Fails s x :=
  not_fails_many _ s x

theorem not_fails_discard_blanks (s : Text) (x : ParseError) : ¬ (discard blanks).Fails s x :=
  fun h => not_fails_many _ s x (fails_discard.mp h)

theorem reads_nameRun_iff :
    nameRun.Reads s n r ↔ s.takeWhile isNameChar = n ∧ s.dropWhile isNameChar = r :=
  reads_nameRun.trans Text.takeWhile_dropWhile_eq_iff.symm

/-- The head of a tag is read up to the first place where neither its name nor its attributes go
on. -/
theorem reads_tagHead_iff :
    tagHead.Reads s (n, as) r ↔ ∃ t, s = '<' :: t ∧ t.takeWhile isNameChar = n ∧
      attributes.Reads (t.dropWhile isNameChar) as r := by
  rw [tagHead, reads_keepRight]
  simp only [reads_literal, reads_both, reads_nameRun_iff]
  constructor
  · rintro ⟨_, t, rfl, m, ⟨rfl, rfl⟩, has⟩
    exact ⟨t, rfl, rfl, has⟩
  · rintro ⟨t, rfl, rfl, has⟩
    exact ⟨(), t, rfl, _, ⟨rfl, rfl⟩, has⟩

/-- The head of a tag fails at its first character only. -/
theorem fails_tagHead : tagHead.Fails s x ↔ ¬ ['<'] <+: s ∧ x = .expected ['<'] s := by
  rw [tagHead, fails_keepRight]
  simp only [fails_literal, fails_both, not_fails_nameRun, not_fails_attributes, and_false,
    exists_false, or_false]

/-- A tag that should end in `closing` fails at its start or where its head ends. -/
theorem fails_tag {f : Text × List Attribute → Element} {closing : Text} :
    (map f (keepLeft tagHead (literal closing))).Fails s x ↔
      (¬ ['<'] <+: s ∧ x = .expected ['<'] s) ∨
        ∃ n as r, tagHead.Reads s (n, as) r ∧ ¬ closing <+: r ∧ x = .expected closing r := by
  rw [fails_map, fails_keepLeft, fails_tagHead]
  simp only [fails_literal, Prod.exists]

/-- An end tag fails at its start, where its name ends, or at its start again if the name is
another one. -/
theorem fails_endTag :
    (endTag n).Fails s x ↔
      (¬ ['<', '/'] <+: s ∧ x = .expected ['<', '/'] s) ∨
        ∃ t, s = '<' :: '/' :: t ∧
          (¬ ['>'] <+: t.dropWhile isNameChar ∧ x = .expected ['>'] (t.dropWhile isNameChar) ∨
            ['>'] <+: t.dropWhile isNameChar ∧ t.takeWhile isNameChar ≠ n ∧ x = .rejected s) := by
  rw [endTag, fails_filter]
  simp only [fails_keepRight, fails_keepLeft, fails_literal, reads_keepRight, reads_keepLeft,
    reads_literal, reads_nameRun_iff, not_fails_nameRun, false_or, beq_eq_false_iff_ne]
  constructor
  · rintro ((hstart | ⟨_, t, rfl, _, _, ⟨rfl, rfl⟩, hend, rfl⟩) |
      ⟨_, r, ⟨_, t, rfl, _, _, ⟨rfl, hrest⟩, rfl⟩, hne, rfl⟩)
    · exact .inl hstart
    · exact .inr ⟨t, rfl, .inl ⟨hend, rfl⟩⟩
    · exact .inr ⟨t, rfl, .inr ⟨⟨r, hrest.symm⟩, hne, rfl⟩⟩
  · rintro (hstart | ⟨t, rfl, ⟨hend, rfl⟩ | ⟨⟨r, hrest⟩, hne, rfl⟩⟩)
    · exact .inl (.inl hstart)
    · exact .inl (.inr ⟨(), t, rfl, _, _, ⟨rfl, rfl⟩, hend, rfl⟩)
    · exact .inr ⟨_, r, ⟨(), t, rfl, (), _, ⟨rfl, hrest.symm⟩, rfl⟩, hne, rfl⟩

/-! ### Errors of elements -/

/-- A container reports its start tag or its end tag, and nothing from between them. -/
theorem fails_container :
    container.Fails s x ↔ startTag.Fails s x ∨
      ∃ opened m es r, startTag.Reads s opened m ∧ (many element).Reads m es r ∧
        (endTag opened.name).Fails r x := by
  rw [container, containerOf, fails_bind]
  simp only [fails_map, fails_keepLeft, not_fails_many, false_or, exists_and_left]

/-- An element that cannot be read reports what its container reports. -/
theorem fails_element :
    element.Fails s x ↔
      emptyTag.Refuses (s.dropWhile isBlank) ∧ container.Fails (s.dropWhile isBlank) x := by
  rw [element_eq, elementOf, spaced, fails_between]
  simp only [reads_discard_blanks, not_fails_discard_blanks, fails_orElse, and_false, exists_false,
    or_false, false_or, exists_eq_left]
  rfl

/-- A document reports the error of its element, or else what follows the element. -/
theorem outcome_document_eq_error_iff_fails :
    (document s).outcome = .error x ↔
      element.Fails s x ∨ ∃ e r, element.Reads s e r ∧ r ≠ [] ∧ x = .trailing r := by
  cases h : (element.parse s).outcome with
  | error y =>
    have hfails : element.Fails s y := h
    have hdocument : (document s).outcome = .error y := by
      rw [document, Reply.outcome_after, Reply.bind_of_error h]
    simp only [hdocument, Except.error.injEq, hfails.not_reads, false_and, exists_false, or_false]
    exact ⟨fun heq => heq ▸ hfails, fun hx => hfails.unique hx⟩
  | ok a =>
    have hread : element.Reads s a.value a.rest := h
    rw [outcome_document_of_reads hread]
    constructor
    · intro hout
      split at hout
      · cases hout
      · next hne =>
        cases hout
        exact .inr ⟨a.value, a.rest, hread, hne, rfl⟩
    · rintro (hfails | ⟨e, r, hread', hne, rfl⟩)
      · exact absurd hfails (hread.not_fails x)
      · obtain ⟨-, rfl⟩ := hread'.unique hread
        exact if_neg hne

/-! ### How far the root is in order -/

/-- After its blanks, the text starts with a tag that is called `n`, and `r` is what neither the
name nor the attributes go on with. -/
def RootHead (s n r : Text) : Prop :=
  ∃ t as, s.dropWhile isBlank = '<' :: t ∧ t.takeWhile isNameChar = n ∧
    (attributes.parse (t.dropWhile isNameChar)).outcome = .ok ⟨as, r⟩

/-- After its blanks, the text starts with a start tag that is called `n`, and `r` is what no
further child goes on with. -/
def RootChildren (s n r : Text) : Prop :=
  ∃ t es, RootHead s n ('>' :: t) ∧ ((many element).parse t).outcome = .ok ⟨es, r⟩

theorem rootHead_iff : RootHead s n r ↔ ∃ as, tagHead.Reads (s.dropWhile isBlank) (n, as) r := by
  simp only [reads_tagHead_iff]
  exact exists_comm

theorem RootHead.unique {n' r' : Text} (h : RootHead s n r) (h' : RootHead s n' r') :
    n = n' ∧ r = r' := by
  obtain ⟨as, hread⟩ := rootHead_iff.mp h
  obtain ⟨as', hread'⟩ := rootHead_iff.mp h'
  obtain ⟨hpair, hrest⟩ := hread.unique hread'
  exact ⟨congrArg Prod.fst hpair, hrest⟩

theorem RootHead.suffix (h : RootHead s n r) : r <:+ s := by
  obtain ⟨t, as, hs, -, hread⟩ := h
  obtain ⟨⟨u, -, hu⟩, -⟩ := reads_attributes.mp hread
  have hattributes : r <:+ t := (hu ▸ List.suffix_append u r).trans (List.dropWhile_suffix _)
  have htag : t <:+ s := (hs ▸ List.suffix_cons '<' t).trans (List.dropWhile_suffix _)
  exact hattributes.trans htag

theorem RootChildren.suffix (h : RootChildren s n r) : r <:+ s := by
  obtain ⟨t, es, hhead, hread⟩ := h
  obtain ⟨u, -, rfl⟩ := childrenSpelledBy_of_rounds (fun _ _ _ _ => spelledAt_of_reads)
    (reads_many.mp hread)
  exact ((List.suffix_append u r).trans (List.suffix_cons '>' _)).trans hhead.suffix

/-! ### Faults -/

/-- What is wrong with the root of a document, and the text at which it shows. -/
inductive RootFault where
  /-- No tag follows the blanks. -/
  | noTag (found : Text)
  /-- The first tag does not end after its attributes. -/
  | unclosedTag (found : Text)
  /-- The children are not followed by an end tag. -/
  | noEndTag (found : Text)
  /-- The end tag does not end after its name. -/
  | unclosedEndTag (found : Text)
  /-- The end tag has another name than the start tag. -/
  | otherEndTag (found : Text)
  /-- The root is not the end of the document. -/
  | trailing (found : Text)

namespace RootFault

/-- The error that reports a fault. -/
def error : RootFault → ParseError
  | noTag found => .expected ['<'] found
  | unclosedTag found => .expected ['>'] found
  | noEndTag found => .expected ['<', '/'] found
  | unclosedEndTag found => .expected ['>'] found
  | otherEndTag found => .rejected found
  | trailing found => .trailing found

/-- The text at which a fault shows. -/
def found : RootFault → Text
  | noTag found | unclosedTag found | noEndTag found | unclosedEndTag found | otherEndTag found
  | trailing found => found

/-- The faults of a text. Each comes with the conditions under which the root is in order up to
it. -/
inductive Of (s : Text) : RootFault → Prop
  | noTag (h : ¬ ['<'] <+: s.dropWhile isBlank) : Of s (.noTag (s.dropWhile isBlank))
  | unclosedTag {n r : Text} (h : RootHead s n r) (hempty : ¬ ['/', '>'] <+: r)
      (hstart : ¬ ['>'] <+: r) : Of s (.unclosedTag r)
  | noEndTag {n r : Text} (h : RootChildren s n r) (hend : ¬ ['<', '/'] <+: r) :
      Of s (.noEndTag r)
  | unclosedEndTag {n t : Text} (h : RootChildren s n ('<' :: '/' :: t))
      (hend : ¬ ['>'] <+: t.dropWhile isNameChar) : Of s (.unclosedEndTag (t.dropWhile isNameChar))
  | otherEndTag {n t : Text} (h : RootChildren s n ('<' :: '/' :: t))
      (hend : ['>'] <+: t.dropWhile isNameChar) (hne : t.takeWhile isNameChar ≠ n) :
      Of s (.otherEndTag ('<' :: '/' :: t))
  | trailing {e : Element} {r : Text} (h : (element.parse s).outcome = .ok ⟨e, r⟩)
      (hne : r ≠ []) : Of s (.trailing r)

variable {fault fault' : RootFault}

/-- A fault shows at a suffix of the text. -/
theorem Of.found_suffix (h : fault.Of s) : fault.found <:+ s := by
  cases h with
  | noTag => exact List.dropWhile_suffix isBlank
  | unclosedTag h => exact h.suffix
  | noEndTag h => exact h.suffix
  | unclosedEndTag h =>
    have htag := (List.suffix_cons '/' _).trans ((List.suffix_cons '<' _).trans h.suffix)
    exact (List.dropWhile_suffix isNameChar).trans htag
  | otherEndTag h => exact h.suffix
  | trailing h =>
    obtain ⟨⟨d, rfl, -⟩, -⟩ := Element.spelledAt_iff.mp (spelledAt_of_reads h)
    exact List.suffix_append d _

end RootFault

/-! ### The error of a rejected document -/

/-- Up to the end of the children, an element fails only at its end tag. -/
theorem fails_element_of_rootChildren (h : RootChildren s n r) (hend : (endTag n).Fails r x) :
    element.Fails s x := by
  obtain ⟨t, es, hhead, hmany⟩ := h
  obtain ⟨as, hread⟩ := rootHead_iff.mp hhead
  have hopened : startTag.Reads (s.dropWhile isBlank) ⟨n, as, []⟩ t :=
    reads_tag_iff_reads_tagHead.mpr ⟨rfl, hread⟩
  have hcontainer : container.Fails (s.dropWhile isBlank) x :=
    fails_container.mpr (.inr ⟨⟨n, as, []⟩, t, es, r, hopened, hmany, hend⟩)
  exact fails_element.mpr ⟨refuses_emptyTag_of_reads_startTag hopened, hcontainer⟩

/-- An element fails for one of the first five faults. -/
theorem exists_fault_of_fails_element (h : element.Fails s x) :
    ∃ fault : RootFault, fault.Of s ∧ x = fault.error := by
  obtain ⟨hempty, hcontainer⟩ := fails_element.mp h
  rcases fails_container.mp hcontainer with hstart | ⟨opened, t, es, r, hopened, hmany, hend⟩
  · rcases fails_tag.mp hstart with ⟨hno, rfl⟩ | ⟨n, as, r, hhead, hr, rfl⟩
    · exact ⟨_, .noTag hno, rfl⟩
    · have hslash : ¬ ['/', '>'] <+: r := by
        rintro ⟨u, rfl⟩
        have hread : emptyTag.Reads (s.dropWhile isBlank) ⟨n, as, []⟩ u :=
          reads_tag_iff_reads_tagHead.mpr ⟨rfl, hhead⟩
        exact refuses_iff.mp hempty _ _ hread
      exact ⟨_, .unclosedTag (rootHead_iff.mpr ⟨as, hhead⟩) hslash hr, rfl⟩
  · obtain ⟨-, hhead⟩ := reads_tag_iff_reads_tagHead.mp hopened
    have hroot : RootHead s opened.name ('>' :: t) := rootHead_iff.mpr ⟨opened.attributes, hhead⟩
    have hchildren : RootChildren s opened.name r := ⟨t, es, hroot, hmany⟩
    rcases fails_endTag.mp hend with ⟨hno, rfl⟩ | ⟨u, rfl, ⟨hno, rfl⟩ | ⟨hyes, hne, rfl⟩⟩
    · exact ⟨_, .noEndTag hchildren hno, rfl⟩
    · exact ⟨_, .unclosedEndTag hchildren hno, rfl⟩
    · exact ⟨_, .otherEndTag hchildren hyes hne, rfl⟩

namespace RootFault

variable {fault fault' : RootFault}

/-- A text with a fault is rejected with the error of the fault. -/
theorem Of.outcome_document (h : fault.Of s) : (document s).outcome = .error fault.error := by
  refine outcome_document_eq_error_iff_fails.mpr ?_
  cases h with
  | noTag h =>
    have hempty : emptyTag.Refuses (s.dropWhile isBlank) := ⟨_, fails_tag.mpr (.inl ⟨h, rfl⟩)⟩
    have hstart : startTag.Fails (s.dropWhile isBlank) (.expected ['<'] (s.dropWhile isBlank)) :=
      fails_tag.mpr (.inl ⟨h, rfl⟩)
    exact .inl (fails_element.mpr ⟨hempty, fails_container.mpr (.inl hstart)⟩)
  | @unclosedTag n r h hslash hangle =>
    obtain ⟨as, hhead⟩ := rootHead_iff.mp h
    have hempty : emptyTag.Refuses (s.dropWhile isBlank) :=
      ⟨_, fails_tag.mpr (.inr ⟨n, as, r, hhead, hslash, rfl⟩)⟩
    have hstart : startTag.Fails (s.dropWhile isBlank) (.expected ['>'] r) :=
      fails_tag.mpr (.inr ⟨n, as, r, hhead, hangle, rfl⟩)
    exact .inl (fails_element.mpr ⟨hempty, fails_container.mpr (.inl hstart)⟩)
  | noEndTag h hend =>
    exact .inl (fails_element_of_rootChildren h (fails_endTag.mpr (.inl ⟨hend, rfl⟩)))
  | @unclosedEndTag n t h hend =>
    exact .inl (fails_element_of_rootChildren h
      (fails_endTag.mpr (.inr ⟨t, rfl, .inl ⟨hend, rfl⟩⟩)))
  | @otherEndTag n t h hend hne =>
    exact .inl (fails_element_of_rootChildren h
      (fails_endTag.mpr (.inr ⟨t, rfl, .inr ⟨hend, hne, rfl⟩⟩)))
  | @trailing e r h hne => exact .inr ⟨e, r, h, hne, rfl⟩

/-- An error tells its fault, but for which of the two tags of the root is not closed. -/
theorem eq_or_unclosed_of_error_eq (h : fault.error = fault'.error) :
    fault = fault' ∨
      ∃ t, fault = .unclosedTag t ∧ fault' = .unclosedEndTag t ∨
        fault = .unclosedEndTag t ∧ fault' = .unclosedTag t := by
  cases fault <;> cases fault' <;> simp_all [error]

/-- Where the end tag is not closed, the start tag is. -/
theorem Of.not_unclosedEndTag {t t' : Text} (h : (RootFault.unclosedTag t).Of s) :
    ¬ (RootFault.unclosedEndTag t').Of s := by
  intro h'
  cases h with
  | unclosedTag hhead _ hangle =>
    cases h' with
    | unclosedEndTag hchildren =>
      obtain ⟨u, -, hhead', -⟩ := hchildren
      obtain ⟨-, rfl⟩ := hhead.unique hhead'
      exact hangle ⟨u, rfl⟩

/-- **A text has at most one fault.** -/
theorem Of.unique (h : fault.Of s) (h' : fault'.Of s) : fault = fault' := by
  have herror : fault.error = fault'.error :=
    Except.error.inj (h.outcome_document.symm.trans h'.outcome_document)
  rcases eq_or_unclosed_of_error_eq herror with heq | ⟨t, ⟨rfl, rfl⟩ | ⟨rfl, rfl⟩⟩
  · exact heq
  · exact absurd h' h.not_unclosedEndTag
  · exact absurd h h'.not_unclosedEndTag

end RootFault

/-- **Documents are rejected for a fault of their root.** The fault settles the error. -/
theorem outcome_document_eq_error_iff :
    (document s).outcome = .error x ↔ ∃ fault : RootFault, fault.Of s ∧ x = fault.error := by
  constructor
  · intro h
    rcases outcome_document_eq_error_iff_fails.mp h with hfails | ⟨e, r, hread, hne, rfl⟩
    · exact exists_fault_of_fails_element hfails
    · exact ⟨.trailing r, .trailing hread hne, rfl⟩
  · rintro ⟨fault, hfault, rfl⟩
    exact hfault.outcome_document

/-- **The error of a rejected document.** If a document is rejected, its text has exactly one of
the six faults of a root, and this fault settles the whole error. So the error is of one of three
kinds, with one of three literals where it names one, and the text it carries is a suffix of the
document. -/
theorem document_fails_at_root (s : Text) (x : ParseError) (h : (document s).outcome = .error x) :
    (∃! fault : RootFault, fault.Of s) ∧ (∀ fault : RootFault, fault.Of s → x = fault.error) ∧
      ∃ found, found <:+ s ∧
        (x = .expected ['<'] found ∨ x = .expected ['>'] found ∨ x = .expected ['<', '/'] found ∨
          x = .rejected found ∨ x = .trailing found) := by
  obtain ⟨fault, hfault, rfl⟩ := outcome_document_eq_error_iff.mp h
  refine ⟨⟨fault, hfault, fun _ hother => hother.unique hfault⟩,
    fun other hother => congrArg RootFault.error (hfault.unique hother), fault.found,
    hfault.found_suffix, ?_⟩
  cases fault <;> simp [RootFault.error, RootFault.found]

/-- End tags of other names twice, inside and outside of a value: the error is about the root, whose
end tag does not follow, and not about its child. -/
theorem document_fails_at_root_nested :
    (document "<a k=\"</b>\"> <b></c> </a>".toList).outcome =
      .error (.expected ['<', '/'] " <b></c> </a>".toList) ∧
    (∃! fault : RootFault, fault.Of "<a k=\"</b>\"> <b></c> </a>".toList) ∧
    ∀ fault : RootFault, fault.Of "<a k=\"</b>\"> <b></c> </a>".toList →
      .expected ['<', '/'] " <b></c> </a>".toList = fault.error := by
  have h : (document "<a k=\"</b>\"> <b></c> </a>".toList).outcome =
      .error (.expected ['<', '/'] " <b></c> </a>".toList) := by decide +kernel
  obtain ⟨hone, herror, -⟩ := document_fails_at_root _ _ h
  exact ⟨h, hone, herror⟩

end TagTree.Grammar
