import Newmux.Logic.Bounds
import Newmux.Theorems.Anchor

/-!
# Rows read in live copy mode

Every row the mode draws or copies is a row of the grid in a run whose chunks leave
the rows of a selection on the grid, and in which no jump to the other end of a
selection goes to the row just below the view. The text of a selection is read from
the rows that count as copied and from nothing else.
-/

namespace Newmux.Live

open Newmux.Base Newmux.Tmux

namespace CopyMode

/-- Live copy mode over a pane. -/
def system (e : CopyEnv) (u : Utf8) : TSys CopyMode CopyOp where
  init d := ∃ base hidePosition scrollExit lineNumbers,
    base.Ok ∧ d = enter base hidePosition scrollExit lineNumbers
  step d op d' := (∀ s, op = .resize s → s.Ok) ∧ d.exec e u op = some d'

/-- What a step needs: output leaves the rows kept for a selection on the grid, and
a jump to the other end does not slip off the view. -/
def Safe (e : CopyEnv) (u : Utf8) (d : CopyMode) : CopyOp → Prop
  | .output ops => d.KeepsRows (d.backing.writeAll u ops)
  | .otherEnd => d.sel = true ∨ d.lineflag ≠ .none → ¬ d.Slips
  | .cursorUp | .historyTop => d.JumpsUp → ¬ d.Slips
  | .cursorDown | .historyBottom => d.JumpsDown → ¬ d.Slips
  | .copyEndOfLine np => d.startSelection.DownSafe e (np - 1)
  | .copyLine np => (d.lineStart e).startSelection.DownSafe e (np - 1)
  | _ => True

variable {e : CopyEnv} {u : Utf8} {d : CopyMode}

/-- The mode before `copy-line` and `other-end` forget what was selected by. -/
theorem InBounds.asChars (h : d.InBounds) : InBounds { d with selflag := .char } :=
  ⟨⟨⟨h.screen, h.live, h.oy⟩, h.size, h.cy, h.native, h.dragging⟩, h.sel, fun hline => by cases hline⟩

/-- One step keeps the bounds. -/
theorem InBounds.exec (h : d.InBounds) {op : CopyOp} (hok : ∀ s, op = .resize s → s.Ok)
    (hsafe : d.Safe e u op) {d' : CopyMode} (hexec : d.exec e u op = some d') : d'.InBounds := by
  cases op with
  | output ops =>
      cases hexec
      exact h.output hsafe
  | resize s =>
      cases hexec
      exact InBounds.resize (hok s rfl) d
  | scroll up m repeats now =>
      have hscrolled := h.cmdScroll (e := e) up m repeats now
      unfold CopyMode.exec at hexec
      dsimp only at hexec
      split at hexec
      · cases hexec
      · cases hexec
        rename_i heq
        rw [heq] at hscrolled
        exact hscrolled
  | wheelTimer now => exact h.wheelTimer now hexec
  | pageUp half =>
      cases hexec
      exact h.pageUp half
  | pageDown half cancel => exact h.pageDown half _ hexec
  | historyTop =>
      cases hexec
      exact h.historyTop hsafe
  | historyBottom =>
      cases hexec
      exact h.historyBottom hsafe
  | cursorUp =>
      cases hexec
      exact h.cursorUp hsafe
  | cursorDown =>
      cases hexec
      exact h.cursorDown hsafe
  | startOfLine =>
      cases hexec
      exact h.cursorStartOfLine
  | endOfLine =>
      cases hexec
      exact h.cursorEndOfLine
  | beginSelection =>
      cases hexec
      exact h.beginSelection
  | selectLine np =>
      cases hexec
      exact h.selectLine np
  | stopSelection =>
      cases hexec
      exact h.stopSelection
  | clearSelection =>
      cases hexec
      exact InBounds.clearSelection h.toOk h.size h.cy
  | rectangle on =>
      cases hexec
      exact h.rectangleSet on
  | otherEnd =>
      cases hexec
      exact h.asChars.otherEnd hsafe
  | startDrag last m =>
      cases hexec
      exact h.startDrag last m
  | dragUpdate m =>
      cases hexec
      exact h.dragUpdate m
  | dragRelease m =>
      cases hexec
      exact h.dragRelease m
  | scrollTimer =>
      cases hexec
      exact h.scrollTimer
  | moveMouse m =>
      cases hexec
      exact h.moveMouse m
  | copySelection clear =>
      cases hexec
      split
      · exact InBounds.clearSelection h.toOk h.size h.cy
      · exact h
  | copyEndOfLine np =>
      cases hexec
      exact h.restoreCursor (h.selectToEnd hsafe) (moves_selectToEnd e d np)
  | copyLine np =>
      cases hexec
      exact h.restoreCursor (h.selectWholeLine hsafe) (moves_selectWholeLine e d np)

theorem inBounds_inductive (e : CopyEnv) (u : Utf8) :
    (system e u).Inductive (Safe e u) InBounds where
  init := by
    rintro _ ⟨base, hidePosition, scrollExit, lineNumbers, hok, rfl⟩
    exact InBounds.enter hok ..
  step := by
    intro d op d' h hsafe hstep
    exact h.exec hstep.1 hsafe hstep.2

/-- The rows of a selection lie between its ends. -/
theorem InBounds.copiedRows_lt (h : d.InBounds) {y : Nat} (hy : y ∈ d.copiedRows) :
    y < d.total := by
  unfold copiedRows at hy
  split at hy
  · rename_i hlogical
    have hends := h.sel hlogical
    have hlast : y ≤ d.span.ey := by
      have := List.mem_range'_1.mp hy
      omega
    refine lt_of_le_of_lt hlast ?_
    unfold span
    split
    · exact hends.1
    · exact hends.2
  · cases hy

/-- A step copies rows of the grid it started on. -/
theorem InBounds.copies_lt (h : d.InBounds) {op : CopyOp} (hsafe : d.Safe e u op) {y : Nat}
    (hy : y ∈ d.copies e op) : y < d.total := by
  have htotal : ∀ d' : CopyMode, Moves d d' → d'.total = d.total := by
    intro d' hsame
    unfold total hsize
    rw [hsame.backing]
  cases op with
  | copySelection clear => exact h.copiedRows_lt hy
  | copyEndOfLine np =>
      rw [← htotal _ (moves_selectToEnd e d np)]
      exact (h.selectToEnd hsafe).copiedRows_lt hy
  | copyLine np =>
      rw [← htotal _ (moves_selectWholeLine e d np)]
      exact (h.selectWholeLine hsafe).copiedRows_lt hy
  | _ => cases hy

/-! ## The text that is copied -/

/-- On a whole grid a cell is read from its line alone. -/
theorem getCell_eq {gd : Grid} (hok : gd.Ok) (px py : Nat) :
    gd.getCell px py = (gd.getLine py).cell px := by
  unfold Grid.getCell
  split
  · rename_i hpast
    have hline : gd.getLine py = .zero := by
      unfold Grid.getLine
      rw [List.getD_eq_default _ _ (by rw [show gd.linedata.length = _ from hok]; exact hpast)]
    rw [hline]
    rfl
  · rfl

/-- A line is copied as another grid of the width has it in that row. -/
theorem copyLine_congr (e : CopyEnv) (d : CopyMode) {b : Screen} (hok : d.backing.grid.Ok)
    (hok' : b.grid.Ok) (hsx : b.grid.sx = d.backing.grid.sx) {row : Nat}
    (hrow : b.grid.getLine row = d.backing.grid.getLine row) (sx ex : Nat) :
    copyLine e { d with backing := b } row sx ex = copyLine e d row sx ex := by
  unfold copyLine findLength Grid.lineLength
  simp only [getCell_eq hok, getCell_eq hok', hsx, hrow]

/-- The last line of a selection is one of the rows copied. -/
theorem ey_mem_copiedRows (h : d.hasLogicalSelection = true) : d.span.ey ∈ d.copiedRows := by
  have hle : d.span.sy ≤ d.span.ey := by
    unfold span
    split <;> (dsimp only; omega)
  unfold copiedRows
  rw [if_pos h, List.mem_range'_1]
  omega

/-- `copiedRows` are all that the text of a selection is read from. -/
theorem getSelection_congr (e : CopyEnv) (d : CopyMode) {b : Screen} (hok : d.backing.grid.Ok)
    (hok' : b.grid.Ok) (hsx : b.grid.sx = d.backing.grid.sx)
    (hrows : ∀ row ∈ d.copiedRows, b.grid.getLine row = d.backing.grid.getLine row) :
    getSelection e { d with backing := b } = getSelection e d := by
  have hspan : span { d with backing := b } = d.span := rfl
  have hcopied : copiedRows { d with backing := b } = d.copiedRows := rfl
  have hcolumns : ∀ ex, columns e { d with backing := b } ex = d.columns e ex := fun _ => rfl
  by_cases hsel : d.hasLogicalSelection = true
  · have hlast := hrows _ (ey_mem_copiedRows hsel)
    have hlen : findLength { d with backing := b } d.span.ey = d.findLength d.span.ey := by
      unfold findLength Grid.lineLength
      rw [hlast, hsx]
    have htext : ∀ c : Columns,
        (d.copiedRows.flatMap fun i =>
          copyLine e { d with backing := b } i (if i = d.span.sy then c.firstsx else c.restsx)
            (if i = d.span.ey then c.lastex else c.restex)) =
        d.copiedRows.flatMap fun i =>
          copyLine e d i (if i = d.span.sy then c.firstsx else c.restsx)
            (if i = d.span.ey then c.lastex else c.restex) := by
      intro c
      exact List.flatMap_congr fun i hi => copyLine_congr e d hok hok' hsx (hrows i hi) _ _
    unfold getSelection
    simp only [hspan, hcopied, hcolumns, hlen, htext, hlast]
  · -- without a selection no row is copied, and there is no text
    have hnone : d.copiedRows = [] := if_neg hsel
    unfold getSelection
    simp only [hspan, hcopied, hnone, List.flatMap_nil, if_pos]

end CopyMode

/-- In a run whose chunks leave the rows of a selection on the grid and whose jumps
to the other end stay in the view, the view is within the history and every row
drawn or copied is one of the grid. -/
theorem rowsRead_lt_of_safe (e : CopyEnv) (u : Utf8) (d : CopyMode)
    (hreach : (CopyMode.system e u).ReachableWith (CopyMode.Safe e u) d) :
    d.oy ≤ d.hsize ∧ (∀ py < d.sy, d.row py < d.hsize + d.sy) ∧
      ∀ op, d.Safe e u op → ∀ row ∈ d.copies e op, row < d.hsize + d.sy := by
  have h := (CopyMode.inBounds_inductive e u).invariant hreach
  rw [← h.total_eq]
  exact ⟨h.oy, fun py hpy => h.row_lt hpy, fun op hsafe row hrow => h.copies_lt hsafe hrow⟩

/-! ## A drag over a line of the history -/

/-- The mouse pressed at the top left cell and moved on it. -/
def dragged (hlimit : Nat) : CopyMode :=
  (CopyMode.enter (twoBehind hlimit) false false false).startDrag plainEnv ⟨0, 0⟩ ⟨0, 0⟩

theorem dragged_reachable (Good : CopyMode → CopyOp → Prop)
    (hgood : ∀ d, Good d (.startDrag ⟨0, 0⟩ ⟨0, 0⟩)) :
    (CopyMode.system plainEnv plainUtf8).ReachableWith Good (dragged 9) := by
  refine .step (.init ⟨twoBehind 9, false, false, false, by decide, rfl⟩) (hgood _) ⟨?_, rfl⟩
  intro s hs
  cases hs

/-- A line of output leaves both rows of the drag on the grid. -/
theorem rowsRead_dragged :
    let d := (dragged 9).output plainEnv plainUtf8 [.lineFeed 8]
    d.oy ≤ d.hsize ∧ (∀ py < d.sy, d.row py < d.hsize + d.sy) ∧
      ∀ op, d.Safe plainEnv plainUtf8 op →
        ∀ row ∈ d.copies plainEnv op, row < d.hsize + d.sy := by
  apply rowsRead_lt_of_safe
  refine .step (l := .output [.lineFeed 8]) (dragged_reachable _ fun _ => trivial) ?_ ⟨?_, rfl⟩
  · show CopyMode.KeepsRows _ _
    decide
  · intro s hs
    cases hs

/-- The history is cleared under the drag, and the rows copied are still those of
before. -/
theorem stale_cleared :
    ¬ ∀ (e : CopyEnv) (u : Utf8) (d : CopyMode), (CopyMode.system e u).Reachable d →
      d.oy ≤ d.hsize ∧ (∀ py < d.sy, d.row py < d.hsize + d.sy) ∧
        ∀ op, ∀ row ∈ d.copies e op, row < d.hsize + d.sy := by
  intro h
  have hreach : (CopyMode.system plainEnv plainUtf8).Reachable
      ((dragged 9).output plainEnv plainUtf8 [.clearHistory]) := by
    refine .step (l := .output [.clearHistory]) (dragged_reachable _ fun _ => trivial) trivial
      ⟨?_, rfl⟩
    intro s hs
    cases hs
  have hcopied := (h _ _ _ hreach).2.2 (.copySelection false) 2
  revert hcopied
  decide

end Newmux.Live
