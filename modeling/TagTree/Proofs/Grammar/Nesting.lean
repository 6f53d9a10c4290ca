import TagTree.Proofs.Grammar.Tags

/-!
# Elements inside elements

The rule of elements is tied to itself under a bound on the depth of nesting. A start tag takes at
least two characters, so an element inside another one starts on a text that is shorter by two, and
the bound, which is the length of the text, is never reached. So the bound disappears: elements
satisfy the rule of elements with themselves inside (`Grammar.element_eq`), in every part of a
reply. What is read follows at once: an element is read past the blanks before it, as an empty tag
or as a container, and takes the blanks behind it (`Grammar.reads_element`).

## Main results

* `Grammar.elementOf_congr`: what an element is depends on shorter texts only.
* `Grammar.elementWithin_eq`: every bound above the length of the text gives the same reply.
* `Grammar.element_eq`: the recursive rule of elements.
* `Grammar.reads_element`, `Grammar.reads_container`: what is read by the rules of elements.
-/

namespace TagTree

/-! ### Parsers that agree on shorter texts -/

theorem Reply.bind_congr {ε α β : Type} {r : Reply ε α} {f g : α → Reply ε β}
    (h : ∀ a, r.outcome = .ok a → f a = g a) : r.bind f = r.bind g := by
  cases hout : r.outcome with
  | error e => rw [bind_of_error hout, bind_of_error hout]
  | ok a => rw [bind_of_ok hout, bind_of_ok hout, h a hout]

namespace Parser

variable {α : Type} {p q : Parser α} {s : Text}

/-- The rounds on a text apply the parser to no longer text. -/
theorem gather_congr (h : ∀ t, t.length ≤ s.length → p.parse t = q.parse t) (collected : Nat) :
    p.gather collected s = q.gather collected s := by
  induction collected, s using gather_induction p with
  | stopped collected s e hp =>
    have hs : p.parse s = q.parse s := h s le_rfl
    rw [gather_of_error hp, gather_of_error (hs ▸ hp), hs]
  | more collected s a hp hlt ih =>
    have hs : p.parse s = q.parse s := h s le_rfl
    have hrest := ih fun t ht => h t (by omega)
    rw [gather_of_progress hp hlt, gather_of_progress (hs ▸ hp) hlt, hs, hrest]
  | stalled collected s a hp hge =>
    have hs : p.parse s = q.parse s := h s le_rfl
    rw [gather_of_stall hp hge, gather_of_stall (hs ▸ hp) hge, hs]

theorem many_congr (h : ∀ t, t.length ≤ s.length → p.parse t = q.parse t) :
    (many p).parse s = (many q).parse s := by
  simp only [many, gather_congr h 0]

end Parser

namespace Grammar

open TagTree.Parser

variable {s m r : Text} {e : Element}

/-! ### One level of nesting -/

/-- A start tag takes at least two characters. -/
theorem length_of_reads_startTag (h : startTag.Reads s e r) : r.length + 2 ≤ s.length := by
  obtain ⟨-, t, ⟨-, u, -, rfl⟩, rfl⟩ := reads_startTag.mp h
  simp only [List.length_append, List.length_cons, List.length_nil]
  omega

variable {inner inner' : Parser Element}

theorem containerOf_congr
    (h : ∀ t, t.length + 2 ≤ s.length → inner.parse t = inner'.parse t) :
    (containerOf inner).parse s = (containerOf inner').parse s := by
  refine Reply.bind_congr fun opened hopened => ?_
  have hlen : opened.rest.length + 2 ≤ s.length := length_of_reads_startTag hopened
  have hmany : (many inner).parse opened.rest = (many inner').parse opened.rest :=
    many_congr fun t ht => h t (by omega)
  simp only [map, keepLeft, both, hmany]

/-- An element depends on its inner parser only through texts that are shorter by two. -/
theorem elementOf_congr
    (h : ∀ t, t.length + 2 ≤ s.length → inner.parse t = inner'.parse t) :
    (elementOf inner).parse s = (elementOf inner').parse s := by
  simp only [elementOf, spaced, between]
  refine Reply.bind_congr fun skipped hskipped => ?_
  have hlen : skipped.rest.length ≤ s.length := by
    rw [reads_discard_blanks.mp hskipped]
    exact List.length_dropWhile_le isBlank _
  have hinner : (containerOf inner).parse skipped.rest = (containerOf inner').parse skipped.rest :=
    containerOf_congr fun t ht => h t (by omega)
  simp only [orElse, hinner]

/-! ### Tying the rule to itself -/

theorem elementWithin_succ (depth : Nat) (s : Text) :
    (elementWithin (depth + 1)).parse s = (elementOf (elementWithin depth)).parse s :=
  rfl

/-- Bounds on the depth of nesting that exceed the length of the text all give the same reply. -/
theorem elementWithin_eq {depth depth' : Nat} (h : s.length < depth) (h' : s.length < depth') :
    (elementWithin depth).parse s = (elementWithin depth').parse s := by
  induction depth generalizing s depth' with
  | zero => exact absurd h (Nat.not_lt_zero _)
  | succ depth ih =>
    cases depth' with
    | zero => exact absurd h' (Nat.not_lt_zero _)
    | succ depth' =>
      rw [elementWithin_succ, elementWithin_succ]
      exact elementOf_congr fun t ht => ih (by omega) (by omega)

/-- **The rule of elements.** An element is an element with elements inside; no bound on their
depth is left. -/
theorem element_eq : element = elementOf element := by
  refine Parser.ext (funext fun s => ?_)
  calc element.parse s = (elementOf (elementWithin s.length)).parse s :=
        elementWithin_succ s.length s
    _ = (elementOf element).parse s := elementOf_congr fun t ht =>
        show _ = (elementWithin (t.length + 1)).parse t from
          elementWithin_eq (by omega) (Nat.lt_succ_self t.length)

/-! ### What is read -/

/-- A container is read as a start tag, the rounds of its children and the end tag of its name. -/
theorem reads_container :
    container.Reads s e r ↔
      ∃ m m', startTag.Reads s ⟨e.name, e.attributes, []⟩ m ∧ element.Rounds m e.children m' ∧
        (endTag e.name).Reads m' e.name r := by
  rw [container, containerOf, reads_bind]
  simp only [reads_map, reads_keepLeft, reads_many]
  constructor
  · rintro ⟨opened, m, hopened, children, ⟨_, m', hchildren, hend⟩, rfl⟩
    obtain ⟨rfl, -⟩ := reads_endTag.mp hend
    obtain ⟨hnone, -⟩ := reads_startTag.mp hopened
    obtain ⟨name, attributes, _⟩ := opened
    obtain rfl : _ = [] := hnone
    exact ⟨m, m', hopened, hchildren, hend⟩
  · obtain ⟨name, attributes, children⟩ := e
    rintro ⟨m, m', hopened, hchildren, hend⟩
    exact ⟨⟨name, attributes, []⟩, m, hopened, children, ⟨name, m', hchildren, hend⟩, rfl⟩

/-- Where a start tag is read, an empty tag is not. -/
theorem refuses_emptyTag_of_reads_startTag (h : startTag.Reads s e r) : emptyTag.Refuses s := by
  refine refuses_iff.mpr fun e' r' h' => ?_
  obtain ⟨-, t, ht, rfl⟩ := reads_startTag.mp h
  obtain ⟨-, t', ht', heq⟩ := reads_emptyTag.mp h'
  rw [List.append_assoc, List.append_assoc] at heq
  obtain ⟨-, -, hrest⟩ := headSpelledBy_unique ht ht' heq endsHead_angle endsHead_slash
  cases hrest

/-- **Reading an element.** Blanks on both sides are skipped, and between them stands an empty tag
or a container. -/
theorem reads_element :
    element.Reads s e r ↔
      ∃ m, (emptyTag.Reads (s.dropWhile isBlank) e m ∨ container.Reads (s.dropWhile isBlank) e m) ∧
        r = m.dropWhile isBlank := by
  rw [element_eq, elementOf, spaced, reads_between]
  simp only [reads_discard_blanks, reads_orElse, exists_and_left, exists_eq_left]
  refine exists_congr fun m => and_congr_left fun _ => or_congr Iff.rfl ?_
  refine ⟨fun h => h.2, fun h => ⟨?_, h⟩⟩
  obtain ⟨m, m', hopened, -⟩ := reads_container.mp h
  exact refuses_emptyTag_of_reads_startTag hopened

end Grammar

end TagTree
