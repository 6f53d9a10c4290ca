import TagTree.Proofs.Expr.Ends

/-!
# The cursor is always a suffix

Under every bound on open references an expression stays inside its text. So whenever it ends on a
text, what it leaves over is a suffix of the text, and if it fails, so is the input that the cause
of the error shows.

## Main results

* `Expr.ends_within`: the cursor is always a suffix.
-/

namespace TagTree.Expr

/-- **The cursor is always a suffix.** Where an expression ends with a success, a suffix of the text
is left over. Where it ends with an error, the input that the cause of the error shows is a suffix
of the text: what was found in place of a fixed text, what was parsed and then turned down, or where
a repetition found no item. -/
theorem ends_within (defs : Definitions) (e : Expr) (s : Text) :
    (∀ v r, Ends defs e s (.ok ⟨v, r⟩) → r <:+ s) ∧
    ∀ x, Ends defs e s (.error x) →
      (∀ t found, x.cause = .expected t found → found <:+ s) ∧
      (∀ input, x.cause = .rejected input → input <:+ s) ∧
      ∀ input, x.cause = .noItem input → input <:+ s := by
  have hwithin : ∀ depth, ((e.parserWithin defs depth).parse s).Within s := fun depth =>
    parser_staysInText (resolve_staysInText defs depth) e s
  refine ⟨fun v r h => ?_, fun x h => ?_⟩
  · obtain ⟨depth, -, hout⟩ := h
    exact (hwithin depth).rest _ hout
  · obtain ⟨depth, -, hout⟩ := h
    have hpoints : x.PointsInto s := (hwithin depth).error x hout
    refine ⟨fun t found hx => ?_, fun input hx => ?_, fun input hx => ?_⟩
    · exact hpoints found (hx ▸ .expected t found)
    · exact hpoints input (hx ▸ .rejected input)
    · exact hpoints input (hx ▸ .noItem input)

/-- A name in brackets with something behind it, with another text expected there, without the name,
and a character that should be repeated. -/
theorem ends_within_brackets :
    Ends [("bracketed", bracketed)] bracketed "((a))b".toList (.ok ⟨.text ['a'], ['b']⟩) ∧
    ['b'] <:+ "((a))b".toList ∧
    Ends [("bracketed", bracketed)] (keepLeft bracketed (literal ['.'])) "(a)b".toList
      (.error (.expected ['.'] ['b'])) ∧
    ['b'] <:+ "(a)b".toList ∧
    Ends [("bracketed", bracketed)] (keepRight (rule .blanks) (ref "bracketed")) " ()".toList
      (.error (.inContext "name" (.rejected "()".toList))) ∧
    "()".toList <:+ " ()".toList ∧
    Ends [] (bind (rule .anyChar) fun v => many1 (literal v.toText)) "ab".toList
      (.error (.noItem ['b'])) ∧
    ['b'] <:+ "ab".toList := by
  have hread : Ends [("bracketed", bracketed)] bracketed "((a))b".toList
      (.ok ⟨.text ['a'], ['b']⟩) := ⟨2, by decide +kernel, by with_unfolding_all rfl⟩
  have hexpected : Ends [("bracketed", bracketed)] (keepLeft bracketed (literal ['.']))
      "(a)b".toList (.error (.expected ['.'] ['b'])) :=
    ⟨1, by decide +kernel, by with_unfolding_all rfl⟩
  have hrejected : Ends [("bracketed", bracketed)] (keepRight (rule .blanks) (ref "bracketed"))
      " ()".toList (.error (.inContext "name" (.rejected "()".toList))) :=
    ⟨2, by decide +kernel, by with_unfolding_all rfl⟩
  have hnoItem : Ends [] (bind (rule .anyChar) fun v => many1 (literal v.toText)) "ab".toList
      (.error (.noItem ['b'])) := ⟨0, by decide +kernel, by with_unfolding_all rfl⟩
  exact ⟨hread, (ends_within _ _ _).1 _ _ hread,
    hexpected, ((ends_within _ _ _).2 _ hexpected).1 _ _ rfl,
    hrejected, ((ends_within _ _ _).2 _ hrejected).2.1 _ rfl,
    hnoItem, ((ends_within _ _ _).2 _ hnoItem).2.2 _ rfl⟩

end TagTree.Expr
