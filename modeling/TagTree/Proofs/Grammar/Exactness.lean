import TagTree.Proofs.Grammar.Nesting

/-!
# The grammar is read exactly

What is read as an element are its spellings and nothing else. Reading is greedy and never goes
back into what was read, while a text can be cut into blanks, tags and elements in several ways;
so soundness and completeness compare both with one way of cutting, `Element.SpelledAt`, in which
every element takes all blanks around it.

Soundness is by induction on the length of the text, since the parser goes down to shorter texts,
and completeness by induction on the element. Both come down to the children of a container. Its
end tag ends the rounds, since no element is read from it, with one exception: the text `</>`
is an empty tag without a name. Therefore no container has an empty name.

## Main definitions

* `Element.SpelledAt`: an element spelled at the start of a text, with all blanks around it.

## Main results

* `Grammar.reads_element_iff_spelledAt`: reading an element.
* `Grammar.outcome_document_eq_ok_iff`: a document is accepted exactly if it spells an element.
* `Grammar.ne_nil_of_reads_container`: containers have names.
* `Grammar.read_iff_spelled`: documents and elements are read exactly from their spellings.
-/

namespace TagTree

/-! ### Spellings with all blanks around them -/

namespace Element

variable {e : Element} {s m r c : Text}

/-- After its blanks, `s` starts with a spelling of the element, and after the blanks that follow
it, `r` is left. -/
def SpelledAt (e : Element) (s r : Text) : Prop :=
  ∃ c m, e.SpelledBy c ∧ s.dropWhile isBlank = c ++ m ∧ r = m.dropWhile isBlank

theorem SpelledBy.spelledAt (h : e.SpelledBy c) (m : Text) :
    e.SpelledAt (c ++ m) (m.dropWhile isBlank) :=
  ⟨c, m, h, h.dropWhile_append m, rfl⟩

/-- After its blanks, the text starts with a tag. -/
theorem SpelledAt.exists_cons (h : e.SpelledAt s r) : ∃ u, s.dropWhile isBlank = '<' :: u := by
  obtain ⟨c, m, hc, hs, -⟩ := h
  obtain ⟨u, rfl⟩ := hc.exists_cons
  exact ⟨u ++ m, hs⟩

/-- Taking all blanks is one way of taking some. -/
theorem spelledAt_iff :
    e.SpelledAt s r ↔ (∃ d, s = d ++ r ∧ e.DocumentSpelledBy d) ∧ Text.Stops isBlank r := by
  constructor
  · rintro ⟨c, m, hc, hs, rfl⟩
    refine ⟨⟨s.takeWhile isBlank ++ c ++ m.takeWhile isBlank, ?_, s.takeWhile isBlank, c,
      m.takeWhile isBlank, isBlanks_takeWhile s, hc, isBlanks_takeWhile m, rfl⟩,
      Text.stops_dropWhile isBlank m⟩
    rw [List.append_assoc _ _ (m.dropWhile isBlank), List.takeWhile_append_dropWhile,
      List.append_assoc, ← hs, List.takeWhile_append_dropWhile]
  · rintro ⟨⟨d, rfl, w, c, w', hw, hc, hw', rfl⟩, hr⟩
    refine ⟨c, w' ++ r, hc, ?_, ?_⟩
    · rw [List.append_assoc, List.append_assoc, hw.dropWhile_append, hc.dropWhile_append]
    · rw [hw'.dropWhile_append, Text.dropWhile_of_stops hr]

end Element

namespace Grammar

open TagTree.Parser

variable {s m m' r inner : Text} {e : Element} {es : List Element}

/-! ### Where the children of a container end -/

/-- The end tag of a name that is not empty starts no element. -/
theorem not_reads_element_endTag {n : Text} (hne : n ≠ []) (hn : IsNameRun n) (e : Element)
    (t : Text) : ¬ element.Reads (['<', '/'] ++ n ++ ['>'] ++ r) e t := by
  have hhead : Element.HeadSpelledBy [] [] ['<'] := ⟨nofun, [], rfl, rfl⟩
  have hrest : EndsHead ('/' :: (n ++ ['>'] ++ r)) := endsHead_slash
  intro h
  obtain ⟨u, hempty | hcontainer, -⟩ := reads_element.mp h
  · obtain ⟨-, t', ht', heq⟩ := reads_emptyTag.mp hempty
    replace heq : ['<'] ++ '/' :: (n ++ ['>'] ++ r) = t' ++ (['/', '>'] ++ u) :=
      heq.trans (List.append_assoc ..)
    obtain ⟨-, -, hclosing⟩ := headSpelledBy_unique hhead ht' heq hrest endsHead_slash
    obtain ⟨c, n, rfl⟩ := List.exists_cons_of_ne_nil hne
    cases hclosing
    exact absurd (hn '>' List.mem_cons_self) (by decide)
  · obtain ⟨m, m', hopened, -⟩ := reads_container.mp hcontainer
    obtain ⟨-, t', ht', heq⟩ := reads_startTag.mp hopened
    replace heq : ['<'] ++ '/' :: (n ++ ['>'] ++ r) = t' ++ (['>'] ++ m) :=
      heq.trans (List.append_assoc ..)
    obtain ⟨-, -, hclosing⟩ := headSpelledBy_unique hhead ht' heq hrest endsHead_angle
    cases hclosing

/-- The end tag of an empty name is read as an element. -/
theorem reads_element_namelessTag (r : Text) :
    element.Reads (['<', '/', '>'] ++ r) ⟨[], [], []⟩ (r.dropWhile isBlank) :=
  reads_element.mpr ⟨r, .inl (reads_emptyTag.mpr ⟨rfl, ['<'], ⟨nofun, [], rfl, rfl⟩, rfl⟩), rfl⟩

/-- **Containers have names.** The rounds of the children do not end before `</>`. -/
theorem ne_nil_of_reads_container (h : container.Reads s e r) : e.name ≠ [] := by
  intro hnil
  obtain ⟨m, m', -, hchildren, hend⟩ := reads_container.mp h
  obtain ⟨-, -, rfl⟩ := reads_endTag.mp hend
  rw [hnil] at hchildren
  have hle := hchildren.stalls _ _ (reads_element_namelessTag r)
  have hdrop := List.length_dropWhile_le isBlank r
  simp only [List.length_append, List.length_cons, List.length_nil] at hle
  omega

/-! ### Soundness -/

/-- If elements are read soundly from texts up to the length of `m`, so are sequences of them. -/
theorem childrenSpelledBy_of_rounds
    (h : ∀ t e r, t.length ≤ m.length → element.Reads t e r → e.SpelledAt t r)
    (hrounds : element.Rounds m es m') :
    ∃ inner, Element.ChildrenSpelledBy es inner ∧ m = inner ++ m' := by
  simp only [Element.childrenSpelledBy_iff_joined]
  induction hrounds with
  | stop => exact ⟨[], rfl, rfl⟩
  | more hread hlt _ ih =>
    obtain ⟨⟨d, rfl, hd⟩, -⟩ := Element.spelledAt_iff.mp (h _ _ _ le_rfl hread)
    obtain ⟨inner, hinner, rfl⟩ := ih fun t e r ht => h t e r (by omega)
    exact ⟨d ++ inner, ⟨d, inner, hd, hinner, rfl⟩, (List.append_assoc ..).symm⟩

/-- **Soundness.** An element that is read is spelled at the start of the text. -/
theorem spelledAt_of_reads (h : element.Reads s e r) : e.SpelledAt s r := by
  induction hn : s.length using Nat.strongRecOn generalizing s e r with
  | ind n ih =>
    obtain ⟨name, attributes, children⟩ := e
    obtain ⟨m, hempty | hcontainer, rfl⟩ := reads_element.mp h
    · obtain ⟨rfl, t, ht, heq⟩ := reads_emptyTag.mp hempty
      exact ⟨t ++ ['/', '>'], m, Element.spelledBy_emptyTag ht, heq, rfl⟩
    · have hne : name ≠ [] := ne_nil_of_reads_container hcontainer
      obtain ⟨u, u', hopened, hchildren, hend⟩ := reads_container.mp hcontainer
      have hlen := length_of_reads_startTag hopened
      have hdrop := List.length_dropWhile_le isBlank s
      obtain ⟨-, t, ht, heq⟩ := reads_startTag.mp hopened
      obtain ⟨inner, hinner, rfl⟩ := childrenSpelledBy_of_rounds
        (fun v e r hv hread => ih v.length (by omega) hread rfl) hchildren
      obtain ⟨-, -, rfl⟩ := reads_endTag.mp hend
      refine ⟨_, m, Element.spelledBy_container hne ht hinner, heq.trans ?_, rfl⟩
      simp only [List.append_assoc]

/-! ### Completeness -/

/-- Blanks in front of an element do not matter. -/
theorem reads_element_dropWhile :
    element.Reads (s.dropWhile isBlank) e r ↔ element.Reads s e r := by
  rw [reads_element, reads_element, dropWhile_dropWhile_isBlank]

/-- Behind the blanks before the first of them, the rounds go through elements that are read
wherever they are spelled, since every element takes the blanks before the next one. -/
theorem rounds_dropWhile_of_childrenSpelledBy
    (h : ∀ e ∈ es, ∀ s r, e.SpelledAt s r → element.Reads s e r) (hstop : element.Rounds r [] r)
    (hr : Text.Stops isBlank r) (hinner : Element.ChildrenSpelledBy es inner) :
    element.Rounds ((inner ++ r).dropWhile isBlank) es r := by
  induction es generalizing inner with
  | nil =>
    obtain rfl : inner = [] := hinner
    rwa [List.nil_append, Text.dropWhile_of_stops hr]
  | cons e es ih =>
    obtain ⟨w, c, w', u, hw, hc, hw', hu, rfl⟩ := hinner
    have hskip : (w ++ c ++ w' ++ u ++ r).dropWhile isBlank = c ++ (w' ++ (u ++ r)) := by
      simp only [List.append_assoc, hw.dropWhile_append, hc.dropWhile_append]
    have hread : element.Reads (c ++ (w' ++ (u ++ r))) e ((u ++ r).dropWhile isBlank) := by
      rw [← hw'.dropWhile_append (u ++ r)]
      exact h e List.mem_cons_self _ _ (hc.spelledAt _)
    have hlt : ((u ++ r).dropWhile isBlank).length < (c ++ (w' ++ (u ++ r))).length := by
      obtain ⟨c, rfl⟩ := hc.exists_cons
      have := List.length_dropWhile_le isBlank (u ++ r)
      simp only [List.length_append, List.length_cons] at this ⊢
      omega
    rw [hskip]
    exact .more hread hlt (ih (fun e he => h e (List.mem_cons_of_mem _ he)) hu)

/-- If the members of a list are read wherever they are spelled, the rounds go through a sequence
of them up to a text that starts no element. -/
theorem rounds_of_childrenSpelledBy (h : ∀ e ∈ es, ∀ s r, e.SpelledAt s r → element.Reads s e r)
    (hend : ∀ e t, ¬ element.Reads r e t) (hr : Text.Stops isBlank r)
    (hinner : Element.ChildrenSpelledBy es inner) : element.Rounds (inner ++ r) es r := by
  have hstop : element.Rounds r [] r := .stop fun e t hread => absurd hread (hend e t)
  have hskipped := rounds_dropWhile_of_childrenSpelledBy h hstop hr hinner
  cases es with
  | nil =>
    obtain rfl : inner = [] := hinner
    exact hstop
  | cons e es =>
    -- Only the first round sees the blanks.
    cases hskipped with
    | more hread hlt hrest =>
      have hle := List.length_dropWhile_le isBlank (inner ++ r)
      exact .more (reads_element_dropWhile.mp hread) (hlt.trans_le hle) hrest

/-- **Completeness.** An element is read wherever it is spelled. -/
theorem reads_of_spelledAt (h : e.SpelledAt s r) : element.Reads s e r := by
  induction e using Element.induction generalizing s r with
  | node name attributes children ih =>
    obtain ⟨c, m, hc, hs, rfl⟩ := h
    rw [Element.SpelledBy] at hc
    obtain ⟨head, hhead, ⟨rfl, rfl⟩ | ⟨hne, inner, hinner, rfl⟩⟩ := hc
    · exact reads_element.mpr ⟨m, .inl (reads_emptyTag.mpr ⟨rfl, head, hhead, hs⟩), rfl⟩
    · let closing := ['<', '/'] ++ name ++ ['>'] ++ m
      have hopened : startTag.Reads (s.dropWhile isBlank) ⟨name, attributes, []⟩
          (inner ++ closing) := by
        refine reads_startTag.mpr ⟨rfl, head, hhead, hs.trans ?_⟩
        simp only [closing, List.append_assoc]
      have hrounds : element.Rounds (inner ++ closing) children closing :=
        rounds_of_childrenSpelledBy (fun e he s r => ih e he)
          (not_reads_element_endTag hne hhead.1) (Text.stops_cons.mpr rfl) hinner
      have hclosed : (endTag name).Reads closing name m := reads_endTag.mpr ⟨rfl, hhead.1, rfl⟩
      have hcontainer : container.Reads (s.dropWhile isBlank) ⟨name, attributes, children⟩ m :=
        reads_container.mpr ⟨_, _, hopened, hrounds, hclosed⟩
      exact reads_element.mpr ⟨m, .inr hcontainer, rfl⟩

/-! ### Elements and documents -/

theorem reads_element_iff_spelledAt : element.Reads s e r ↔ e.SpelledAt s r :=
  ⟨spelledAt_of_reads, reads_of_spelledAt⟩

/-- A document is an element with nothing after it. -/
theorem outcome_document_eq_ok_iff_reads :
    (document s).outcome = .ok e ↔ element.Reads s e [] := by
  rw [document, Reply.outcome_after, Reply.outcome_bind_eq_ok]
  constructor
  · rintro ⟨⟨e', r⟩, hread, hrest⟩
    cases r with
    | nil =>
      cases hrest
      exact hread
    | cons c r => cases hrest
  · intro h
    exact ⟨⟨e, []⟩, h, rfl⟩

/-- What follows the element of a document is reported. -/
theorem outcome_document_of_reads (h : element.Reads s e r) :
    (document s).outcome = if r = [] then .ok e else .error (.trailing r) := by
  have hparse : (element.parse s).outcome = .ok ⟨e, r⟩ := h
  rw [document, Reply.outcome_after, Reply.bind_of_ok hparse, Reply.outcome_after]
  cases r with
  | nil => rfl
  | cons c r => rfl

/-- **Documents are spellings.** A text is accepted with an element exactly if it spells it. -/
theorem outcome_document_eq_ok_iff :
    (document s).outcome = .ok e ↔ e.DocumentSpelledBy s := by
  rw [outcome_document_eq_ok_iff_reads, reads_element_iff_spelledAt, Element.spelledAt_iff]
  simp only [List.append_nil, exists_eq_left', Text.stops_nil, and_true]

/-- **The grammar is read exactly.** A text is accepted as a document with an element if and only
if it is a spelling of the element with blanks around it. An element is read from the start of a
text if and only if the text starts with such a spelling and what is left does not start with a
blank. -/
theorem read_iff_spelled (s : Text) (e : Element) :
    ((document s).outcome = .ok e ↔ e.DocumentSpelledBy s) ∧
      ∀ r, (element.parse s).outcome = .ok ⟨e, r⟩ ↔
        (∃ d, s = d ++ r ∧ e.DocumentSpelledBy d) ∧
          ∀ c, r.head? = some c → isBlank c = false :=
  ⟨outcome_document_eq_ok_iff, fun _ => reads_element_iff_spelledAt.trans Element.spelledAt_iff⟩

end Grammar

end TagTree
