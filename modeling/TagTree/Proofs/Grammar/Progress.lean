import TagTree.Restyle
import TagTree.Proofs.Parser.Records
import TagTree.Proofs.Grammar.Exactness

/-!
# Repetitions of the grammar do not stall

The grammar repeats four parsers: of a blank, of a character of a quoted value, of an attribute
with the blanks before it, and of an element. A name may be empty, so reading one may read nothing;
but a blank and a value have a character or two quotes, and an element has a tag. Each of the four
reads at least one character whenever it succeeds.

Therefore no repetition is ever cut short, and what is recorded about an element are failures that
were dealt with: alternatives that failed and repetitions that ended at a failure
(`Grammar.records_element`). All of them are traces. Documents add the records of their start and
end, and no warning is among them.

## Main results

* `Grammar.progresses_blank`, `Grammar.progresses_attribute`, `Grammar.progresses_element`: what is
  repeated reads something.
* `Grammar.records_element`: the records that are made while an element is read.
* `Grammar.mem_log_document`, `mem_log_restyle`: the logs of whole documents.
* `Grammar.document_never_warns`: the repetition guard never fires.
-/

namespace TagTree

namespace Grammar

open TagTree.Parser

variable {s r n : Text} {e : Element} {P : Event → Prop}

/-! ### Progress -/

theorem progresses_blank : blank.Progresses :=
  progresses_filter_anyChar isBlank

theorem progresses_attribute : (keepRight blanks1 nameValue).Progresses :=
  exact_attribute.progresses fun _ _ h => h.ne_nil

/-- An element has a tag, so reading one reads something. -/
theorem progresses_element : element.Progresses := by
  intro s e r hread
  obtain ⟨c, m, hc, hs, rfl⟩ := spelledAt_of_reads hread
  obtain ⟨u, rfl⟩ := hc.exists_cons
  have hstart := List.length_dropWhile_le isBlank s
  have hend := List.length_dropWhile_le isBlank m
  rw [hs, List.length_append, List.length_cons] at hstart
  omega

/-! ### Records of blanks, attributes and tags -/

theorem records_endTag (n s : Text) : (endTag n).Records P s := by
  refine records_filter (records_keepRight (records_literal _ s) fun _ m _ => ?_)
  exact records_keepLeft (records_nameRun m) fun _ t _ => records_literal _ t

section Tags

variable (hstopped : ∀ x n, P (.repetitionStopped x n))

include hstopped

theorem records_blanks (s : Text) : blanks.Records P s :=
  records_many hstopped progresses_blank fun t _ => records_filter (records_anyChar t)

theorem records_quoted (s : Text) : quoted.Records P s := by
  refine records_between (records_literal _ s) (fun m _ => ?_) (records_literal _)
  exact records_many hstopped (progresses_filter_anyChar _) fun t _ =>
    records_filter (records_anyChar t)

theorem records_nameValue (s : Text) : nameValue.Records P s := by
  refine records_map.mpr (records_both (records_nameRun s) fun _ m _ => ?_)
  exact records_keepRight (records_literal _ m) fun _ t _ => records_quoted hstopped t

variable (hfirst : ∀ x, P (.firstFailed x))

include hfirst

theorem records_blanks1 (s : Text) : blanks1.Records P s :=
  records_many1 hstopped progresses_blank hfirst fun t _ => records_filter (records_anyChar t)

theorem records_attributes (s : Text) : attributes.Records P s := by
  refine records_many hstopped progresses_attribute fun t _ => ?_
  exact records_keepRight (records_blanks1 hstopped hfirst t) fun _ m _ =>
    records_nameValue hstopped m

theorem records_tagHead (s : Text) : tagHead.Records P s := by
  refine records_keepRight (records_literal _ s) fun _ m _ => ?_
  exact records_both (records_nameRun m) fun _ t _ => records_attributes hstopped hfirst t

/-- A tag records no more than its head does. -/
theorem records_tag (f : Text × List Attribute → Element) (closing s : Text) :
    (map f (keepLeft tagHead (literal closing))).Records P s :=
  records_map.mpr <| records_keepLeft (records_tagHead hstopped hfirst s) fun _ m _ =>
    records_literal closing m

theorem records_emptyTag (s : Text) : emptyTag.Records P s :=
  records_tag hstopped hfirst _ _ s

theorem records_startTag (s : Text) : startTag.Records P s :=
  records_tag hstopped hfirst _ _ s

/-! ### Records of elements -/

/-- The children of a container are read from texts that are shorter than its own. -/
theorem records_containerOf {inner : Parser Element} (hprogress : inner.Progresses)
    (h : ∀ t, t.length < s.length → inner.Records P t) : (containerOf inner).Records P s := by
  refine records_bind (records_startTag hstopped hfirst s) fun opened m hopened => ?_
  have hlen := length_of_reads_startTag hopened
  refine records_map.mpr (records_keepLeft ?_ fun _ t _ => records_endTag opened.name t)
  exact records_many hstopped hprogress fun t ht => h t (by omega)

variable (hfailed : ∀ x, P (.alternativeFailed x))

include hfailed

/-- **The records of an element.** While an element is read, alternatives fail and repetitions end
at a failure, and nothing else is recorded. -/
theorem records_element (s : Text) : element.Records P s := by
  induction hn : s.length using Nat.strongRecOn generalizing s with
  | ind k ih =>
    have hblanks : ∀ t, (discard blanks).Records P t := records_blanks hstopped
    rw [Records, element_eq]
    refine records_between (hblanks s) (fun m hm => ?_) hblanks
    have hlen : m.length ≤ s.length := by
      rw [reads_discard_blanks.mp hm]
      exact List.length_dropWhile_le isBlank s
    refine records_orElse hfailed (records_emptyTag hstopped hfirst m) ?_
    exact records_containerOf hstopped hfirst progresses_element fun t ht =>
      ih t.length (by omega) t rfl

theorem records_container (s : Text) : container.Records P s :=
  records_containerOf hstopped hfirst progresses_element fun t _ =>
    records_element hstopped hfirst hfailed t

end Tags

/-- Everything that is recorded while an element is read is a trace. -/
theorem level_of_mem_log_element (s : Text) :
    ∀ event ∈ (element.parse s).log, event.level = .trace :=
  records_element (fun _ _ => rfl) (fun _ => rfl) (fun _ => rfl) s

/-! ### The logs of documents -/

/-- A document adds two records to those of its element. -/
theorem mem_log_document {event : Event} (h : event ∈ (document s).log) :
    event = .documentStarted ∨ event ∈ (element.parse s).log ∨ ∃ n, event = .documentParsed n := by
  rw [document, Reply.log_after, List.singleton_append, List.mem_cons] at h
  refine h.imp_right fun h => ?_
  cases hparse : (element.parse s).outcome with
  | error x =>
    rw [Reply.bind_of_error hparse] at h
    exact .inl h
  | ok a =>
    rw [Reply.bind_of_ok hparse, Reply.log_after, List.mem_append] at h
    refine h.imp_right fun h => ?_
    cases hrest : a.rest with
    | nil =>
      rw [hrest] at h
      exact ⟨a.value.name, List.mem_singleton.mp h⟩
    | cons c r =>
      rw [hrest] at h
      exact absurd h List.not_mem_nil

end Grammar

/-- Writing records nothing. -/
theorem log_restyle (s : Text) (style : Style) :
    (restyle s style).log = .restyleStarted style :: (Grammar.document s).log := by
  rw [restyle, Reply.log_after, List.singleton_append]
  refine congrArg _ ?_
  cases h : ((Grammar.document s).mapError fun e =>
      Failure.reported (RestyleError.parse e)).outcome with
  | error x =>
    rw [Reply.bind_of_error h]
    rfl
  | ok e =>
    rw [Reply.bind_of_ok h, Reply.log_after, List.append_nil]
    rfl

namespace Grammar

open TagTree.Parser

/-- No document is parsed with a warning. -/
theorem level_of_mem_log_document {s : Text} {event : Event} (h : event ∈ (document s).log) :
    event.level ≠ .warn := by
  rcases mem_log_document h with rfl | helement | ⟨n, rfl⟩
  · exact nofun
  · rw [level_of_mem_log_element s event helement]
    exact nofun
  · exact nofun

/-- **The repetition guard never fires.** No document is parsed or restyled with a warning, whether
it is accepted or not. All that the grammar repeats reads something whenever it succeeds: a blank, a
character of a value, an attribute and an element; a name may be read from nothing. -/
theorem document_never_warns :
    (∀ s : Text, ∀ event ∈ (document s).log, event.level ≠ .warn) ∧
    (∀ (s : Text) (style : Style), ∀ event ∈ (restyle s style).log, event.level ≠ .warn) ∧
    blank.Progresses ∧ (filter (fun c => c != '"') anyChar).Progresses ∧
    (keepRight blanks1 nameValue).Progresses ∧ element.Progresses ∧ ¬ nameRun.Progresses := by
  refine ⟨fun s event h => level_of_mem_log_document h, fun s style event h => ?_,
    progresses_blank, progresses_filter_anyChar _, progresses_attribute, progresses_element, ?_⟩
  · rw [log_restyle, List.mem_cons] at h
    rcases h with rfl | hdocument
    · exact nofun
    · exact level_of_mem_log_document hdocument
  · intro h
    exact absurd (h [] [] [] rfl) (Nat.lt_irrefl _)

/-- A document with names read from nothing, which ends inside a tag, and a record of where its
children end. -/
theorem document_never_warns_unclosed :
    .repetitionStopped (.expected ['>'] "/a".toList) 0 ∈ (document "<a =\"\"><></a".toList).log ∧
    (Event.repetitionStopped (.expected ['>'] "/a".toList) 0).level ≠ .warn ∧
    .alternativeFailed (.expected ['/', '>'] "></a".toList) ∈
      (restyle "<a =\"\"><></a".toList .compact).log ∧
    (Event.alternativeFailed (.expected ['/', '>'] "></a".toList)).level ≠ .warn ∧
    blank.Reads "\n>".toList '\n' ['>'] ∧ ['>'].length < "\n>".toList.length ∧
    (filter (fun c => c != '"') anyChar).Reads "<\"".toList '<' ['"'] ∧
    ['"'].length < "<\"".toList.length ∧
    (keepRight blanks1 nameValue).Reads " =\"\">".toList ⟨[], []⟩ ['>'] ∧
    ['>'].length < " =\"\">".toList.length ∧
    element.Reads "</>".toList ⟨[], [], []⟩ [] ∧ ([] : Text).length < "</>".toList.length := by
  have hlog : .repetitionStopped (.expected ['>'] "/a".toList) 0 ∈
      (document "<a =\"\"><></a".toList).log := by decide +kernel
  have hrestyle : .alternativeFailed (.expected ['/', '>'] "></a".toList) ∈
      (restyle "<a =\"\"><></a".toList .compact).log := by decide +kernel
  have hblank : blank.Reads "\n>".toList '\n' ['>'] := by decide +kernel
  have hchar : (filter (fun c => c != '"') anyChar).Reads "<\"".toList '<' ['"'] := by
    decide +kernel
  have hattribute : (keepRight blanks1 nameValue).Reads " =\"\">".toList ⟨[], []⟩ ['>'] := by
    decide +kernel
  have helement : element.Reads "</>".toList ⟨[], [], []⟩ [] := by decide +kernel
  obtain ⟨hdocument, hrestyled, hb, hc, ha, he, -⟩ := document_never_warns
  exact ⟨hlog, hdocument _ _ hlog, hrestyle, hrestyled _ _ _ hrestyle, hblank, hb _ _ _ hblank,
    hchar, hc _ _ _ hchar, hattribute, ha _ _ _ hattribute, helement, he _ _ _ helement⟩

end Grammar

end TagTree
