import TagTree.Layout.Pen

/-!
# One pen for many elements

A pen that comes upon a defect, or finds no room, stops where it is. What it has written of the
element stays with it, and so does its level, which is too high by the number of elements around the
place, because none of the steps out has been reached. A pen between two drawings may therefore be
in any state.

None of this reaches the next drawing, which starts with a blank sheet on level zero. All that a
drawing takes over is the style, and no mark changes the style. So drawing elements one after the
other, some of them with defects, yields for each of them what a new pen would have yielded.

## Main results

* `Pen.outcome_draw`: a drawing depends on the style of the pen only.
* `Pen.drawAll_eq_map_toMarkup`: what one pen yields for a sequence of elements.
-/

namespace TagTree.Pen

variable {style : Style}

/-! ### The style of a pen -/

/-- The pen that is left, whether or not there was room. -/
def leftBy : Except Pen Pen → Pen
  | .ok pen => pen
  | .error pen => pen

theorem style_leftBy_onto (pen : Pen) (sheet : Option Sheet) :
    (leftBy (pen.onto sheet)).style = pen.style := by
  cases sheet with
  | none => rfl
  | some sheet => rfl

theorem style_leftBy_bind {r : Except Pen Pen} {next : Pen → Except Pen Pen}
    (hr : (leftBy r).style = style)
    (hnext : ∀ pen : Pen, pen.style = style → (leftBy (next pen)).style = style) :
    (leftBy (r.bind next)).style = style := by
  cases r with
  | error pen => exact hr
  | ok pen => exact hnext pen hr

theorem style_leftBy_follow (pen : Pen) (m : Mark) :
    (leftBy (pen.follow m)).style = pen.style := by
  cases m with
  | text t => exact style_leftBy_onto pen _
  | stepIn => rfl
  | stepOut => rfl
  | lineBreak =>
    rw [follow, breakLine]
    split
    · refine style_leftBy_bind (style_leftBy_onto pen _) fun broken hbroken => ?_
      exact (style_leftBy_onto broken _).trans hbroken
    · rfl

/-- A pen keeps its style. -/
theorem style_leftBy_followAll (pen : Pen) (marks : List Mark) :
    (leftBy (pen.followAll marks)).style = pen.style := by
  induction marks generalizing pen with
  | nil => rfl
  | cons m marks ih =>
    rw [followAll_cons]
    exact style_leftBy_bind (style_leftBy_follow pen m) fun next hnext => (ih next).trans hnext

/-- A pen keeps its style, whether or not it comes upon a defect. -/
theorem style_put (pen : Pen) (e : Element) : (pen.put e).2.style = pen.style := by
  have hfollow := style_leftBy_followAll pen (e.draft pen.style.selfClose).marks
  rw [put]
  generalize pen.followAll (e.draft pen.style.selfClose).marks = run at hfollow ⊢
  cases run with
  | error left => exact hfollow
  | ok left =>
    cases (e.draft pen.style.selfClose).defect with
    | none => exact hfollow
    | some defect => exact hfollow

theorem style_draw (pen : Pen) (e : Element) : (pen.draw e).2.style = pen.style := by
  have hput : (pen.reset.put e).2.style = pen.style := style_put pen.reset e
  rw [draw]
  generalize pen.reset.put e = answer at hput
  obtain ⟨result, pen'⟩ := answer
  cases result with
  | ok _ => exact hput
  | error failure => exact hput

/-! ### Drawing -/

/-- What a pen has written before and the level on which it was left do not matter to a drawing. -/
theorem outcome_draw (pen : Pen) (e : Element) : (pen.draw e).1 = e.toMarkup pen.style := by
  have hreset : pen.reset = (Pen.new pen.style).reset := rfl
  rw [Element.toMarkup, draw, draw, hreset]

/-- **Drawings are independent.** Whatever state a pen is in, drawing elements one after the other
yields for each of them the text or the failure that it has by itself in the style of the pen. -/
theorem drawAll_eq_map_toMarkup (pen : Pen) (es : List Element) :
    pen.drawAll es = es.map fun e => e.toMarkup pen.style := by
  induction es generalizing pen with
  | nil => rfl
  | cons e es ih =>
    have hrest : (pen.draw e).2.drawAll es = es.map fun e => e.toMarkup pen.style := by
      rw [ih, style_draw]
    calc pen.drawAll (e :: es) = (pen.draw e).1 :: (pen.draw e).2.drawAll es := rfl
      _ = e.toMarkup pen.style :: es.map fun e => e.toMarkup pen.style := by
        rw [outcome_draw, hrest]

/-- After a defect inside an element the pen is left on level one, in the middle of a text. -/
example : ((Pen.new default).draw ⟨['a'], [], [⟨['1'], [], []⟩]⟩).2.written = "<a>\n  ".toList ∧
    ((Pen.new default).draw ⟨['a'], [], [⟨['1'], [], []⟩]⟩).2.level = 1 := by
  decide

end TagTree.Pen
