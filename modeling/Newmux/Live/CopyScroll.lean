import Newmux.Live.CopyUpdate

/-!
# Live copy mode: drawing a scroll

`window_copy_scroll_up` and `window_copy_scroll_down` shift the rows on the mode's
screen and write those that are new, with a few others; a scroll of a whole screen
writes all rows.
-/

namespace Newmux.Live

open Newmux.Tmux

/-- A row of the mode's screen: the row of the backing screen it shows, and whether
the position is written over it. -/
structure ShownRow where
  row : Nat
  position : Bool
deriving DecidableEq, Repr

/-- The rows on the mode's screen, `none` for one that is cleared. -/
abbrev Rows := Nat → Option ShownRow

/-- `screen_write_insertline` at the top of the screen. -/
def Rows.insertLine (shown : Rows) (ny : Nat) : Rows :=
  fun y => if y < ny then none else shown (y - ny)

/-- `screen_write_deleteline` at the top of a screen of `sy` rows. -/
def Rows.deleteLine (shown : Rows) (sy ny : Nat) : Rows :=
  fun y => if y + ny < sy then shown (y + ny) else none

namespace CopyMode

/-- What `window_copy_write_line` puts on row `y`. -/
def shownRow (e : CopyEnv) (d : CopyMode) (y : Nat) : ShownRow :=
  { row := d.row y, position := y == 0 && d.showsPosition e }

/-- `window_copy_write_line` on some rows. -/
def writeRows (e : CopyEnv) (d : CopyMode) (ys : List Nat) (shown : Rows) : Rows :=
  fun y => if y ∈ ys then some (d.shownRow e y) else shown y

/-- `window_copy_redraw_screen`. -/
def redrawScreen (e : CopyEnv) (d : CopyMode) (shown : Rows) : Rows :=
  d.writeRows e (List.range d.sy) shown

/-- A scroll by a screen or more is drawn as a whole, and so is every one with line
numbers that change with the view. -/
def redrawsAll (e : CopyEnv) (d : CopyMode) (ny : Nat) : Bool :=
  decide (ny ≥ d.sy) || (d.lineNumberMode e != .off && d.lineNumberMode e != .absolute)

/-- The drawing of `window_copy_scroll_up`, once the view has moved by `ny`. -/
def drawScrollUp (e : CopyEnv) (d : CopyMode) (ny : Nat) (shown : Rows) : Rows :=
  if d.redrawsAll e ny then d.redrawScreen e shown
  else
    let shown := d.writeRows e (List.range' (d.sy - ny) ny) (shown.deleteLine d.sy ny)
    let shown := if !d.hidePosition then d.writeRows e [0] shown else shown
    let shown := if !d.hidePosition ∧ d.sy > 1 then d.writeRows e [1] shown else shown
    let shown := if d.sy > 3 then d.writeRows e [d.sy - 2] shown else shown
    if d.sel ∧ d.sy > ny then d.writeRows e [d.sy - ny - 1] shown else shown

/-- The drawing of `window_copy_scroll_down`. -/
def drawScrollDown (e : CopyEnv) (d : CopyMode) (ny : Nat) (shown : Rows) : Rows :=
  if d.redrawsAll e ny then d.redrawScreen e shown
  else
    let shown := d.writeRows e (List.range ny) (shown.insertLine ny)
    if d.sel ∧ d.sy > ny then d.writeRows e [ny] shown
    -- Nuke the position.
    else if ny = 1 ∧ !d.hidePosition then d.writeRows e [1] shown
    else shown

/-- `window_copy_scroll_up` on a mode and its screen. -/
def scrollUpDrawn (e : CopyEnv) (n : Nat) (p : CopyMode × Rows) : CopyMode × Rows :=
  let d := p.1
  let ny := if d.oy < n then d.oy else n
  (d.scrollUp e n, if ny = 0 then p.2 else (d.scrollUp e n).drawScrollUp e ny p.2)

/-- `window_copy_scroll_down` on a mode and its screen. -/
def scrollDownDrawn (e : CopyEnv) (n : Nat) (p : CopyMode × Rows) : CopyMode × Rows :=
  let d := p.1
  let ny := if d.oy > d.hsize - n then usub d.hsize d.oy else n
  (d.scrollDown e n,
    if n > d.hsize ∨ ny = 0 then p.2 else (d.scrollDown e n).drawScrollDown e ny p.2)

/-- The cells of a row on the screen are those of its row of the backing screen, and
the position is over it when it is said to be. -/
theorem writeLine_shownRow (e : CopyEnv) (d : CopyMode) (y : Nat) :
    (d.writeLine e y).cells =
        paint (d.contentSx e) (d.writtenCells e (d.shownRow e y).row (d.contentSx e)) ∧
      (d.writeLine e y).position = if (d.shownRow e y).position then e.position d else [] := by
  refine ⟨rfl, ?_⟩
  unfold writeLine shownRow
  simp

end CopyMode

end Newmux.Live
