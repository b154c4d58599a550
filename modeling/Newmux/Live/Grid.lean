import Newmux.Live.Line

/-!
# Live grids

`grid.c` and `grid-view.c` over whole rows: what a pane's program does to its
screen and history. `oldest` is not in the source: it counts the lines dropped
from the front of the history so far, so that `oldest + row` names a line
however the rows shift.
-/

namespace Newmux.Live

open Newmux.Tmux

/-- `struct grid`; `history` is the flag `GRID_HISTORY`. -/
structure Grid where
  sx : Nat
  sy : Nat
  hscrolled : Nat
  hsize : Nat
  hlimit : Nat
  history : Bool
  linedata : List Line
  oldest : Nat
deriving DecidableEq, Repr

namespace Grid

/-- The line array holds exactly the history and the visible lines. -/
def Ok (gd : Grid) : Prop := gd.linedata.length = gd.hsize + gd.sy

instance (gd : Grid) : Decidable gd.Ok := inferInstanceAs (Decidable (_ = _))

/-- `grid_get_line`. -/
def getLine (gd : Grid) (py : Nat) : Line := gd.linedata.getD py .zero

/-- `grid_get_cell`. -/
def getCell (gd : Grid) (px py : Nat) : GridCell :=
  if py ≥ gd.hsize + gd.sy then gridDefaultCell else (gd.getLine py).cell px

/-- `grid_line_length`. -/
def lineLength (gd : Grid) (py : Nat) : Nat := (gd.getLine py).length gd.sx

/-- `grid_view_y`. -/
def viewY (gd : Grid) (y : Nat) : Nat := gd.hsize + y

/-- Rewrite every line by its row. -/
def mapLines (gd : Grid) (f : Nat → Line → Line) : Grid :=
  { gd with linedata := gd.linedata.mapIdx f }

/-! ## History -/

/-- `grid_trim_history`. -/
def trimHistory (gd : Grid) (ny : Nat) : Grid :=
  { gd with linedata := gd.linedata.drop ny, oldest := gd.oldest + ny }

/-- `grid_collect_history`. -/
def collectHistory (gd : Grid) (all : Bool) : Grid :=
  if gd.hsize = 0 ∨ gd.hsize < gd.hlimit then gd
  else
    let ny := if all then gd.hsize - gd.hlimit else gd.hlimit / 10
    let ny := if ny < 1 then 1 else ny
    let ny := if ny > gd.hsize then gd.hsize else ny
    { gd.trimHistory ny with
      hsize := gd.hsize - ny
      hscrolled := if gd.hscrolled > gd.hsize - ny then gd.hsize - ny else gd.hscrolled }

/-- `grid_clear_history`. -/
def clearHistory (gd : Grid) : Grid :=
  { gd.trimHistory gd.hsize with hscrolled := 0, hsize := 0 }

/-- `grid_scroll_history`. -/
def scrollHistory (gd : Grid) (bg : Nat) : Grid :=
  { gd with
    linedata := gd.linedata ++ [Line.empty gd.sx bg]
    hscrolled := gd.hscrolled + 1
    hsize := gd.hsize + 1 }

/-- `grid_scroll_history_region`: the top line of the region goes to the end of
the history, past the screen lines above it. -/
def scrollHistoryRegion (gd : Grid) (upper lower bg : Nat) : Grid :=
  let lines := gd.linedata.take gd.hsize ++ gd.getLine upper :: gd.linedata.drop gd.hsize
  { gd with
    linedata := lines.mapIdx fun yy gl =>
      if upper + 1 ≤ yy ∧ yy < lower + 1 then lines.getD (yy + 1) .zero
      else if yy = lower + 1 then Line.empty gd.sx bg
      else gl
    hscrolled := gd.hscrolled + 1
    hsize := gd.hsize + 1 }

/-! ## Clearing and moving lines -/

/-- `linedata[py - 1].flags &= ~GRID_LINE_WRAPPED`, when there is such a line. -/
def unwrapAbove (gd : Grid) (py : Nat) : Grid :=
  gd.mapLines fun yy gl => if yy + 1 = py then gl.unwrap else gl

/-- `grid_clear_lines`. -/
def clearLines (gd : Grid) (py ny bg : Nat) : Grid :=
  if ny = 0 then gd
  else if py ≥ gd.hsize + gd.sy ∨ py + ny - 1 ≥ gd.hsize + gd.sy then gd
  else
    (gd.mapLines fun yy gl =>
      if py ≤ yy ∧ yy < py + ny then Line.empty gd.sx bg else gl).unwrapAbove py

/-- `grid_clear`. -/
def clear (gd : Grid) (px py nx ny bg : Nat) : Grid :=
  if nx = 0 ∨ ny = 0 then gd
  else if px = 0 ∧ nx = gd.sx then gd.clearLines py ny bg
  else if py ≥ gd.hsize + gd.sy ∨ py + ny - 1 ≥ gd.hsize + gd.sy then gd
  else
    gd.mapLines fun yy gl =>
      if py ≤ yy ∧ yy < py + ny then gl.clear gd.sx px nx bg else gl

/-- `grid_move_lines`. -/
def moveLines (gd : Grid) (dy py ny bg : Nat) : Grid :=
  if ny = 0 ∨ py = dy then gd
  else if py ≥ gd.hsize + gd.sy ∨ py + ny - 1 ≥ gd.hsize + gd.sy ∨
      dy ≥ gd.hsize + gd.sy ∨ dy + ny - 1 ≥ gd.hsize + gd.sy then gd
  else
    -- The flag above the target goes before the lines move, the one above the
    -- source after.
    let src := gd.unwrapAbove dy
    let moved := src.mapLines fun yy gl =>
      if dy ≤ yy ∧ yy < dy + ny then src.getLine (yy - dy + py)
      else if py ≤ yy ∧ yy < py + ny then Line.empty gd.sx bg
      else gl
    if py < dy ∨ py ≥ dy + ny then moved.unwrapAbove py else moved

/-- `grid_set_cell`. -/
def setCell (gd : Grid) (px py : Nat) (gc : GridCell) : Grid :=
  if py ≥ gd.hsize + gd.sy then gd
  else gd.mapLines fun yy gl => if yy = py then gl.setCell gd.sx px gc else gl

/-- `grid_set_cells`. -/
def setCells (gd : Grid) (px py : Nat) (gc : GridCell) (s : List Nat) : Grid :=
  if py ≥ gd.hsize + gd.sy then gd
  else gd.mapLines fun yy gl => if yy = py then gl.setCells gd.sx px gc s else gl

/-- `grid_move_cells`. -/
def moveCells (gd : Grid) (dx px py nx bg : Nat) : Grid :=
  if py ≥ gd.hsize + gd.sy then gd
  else gd.mapLines fun yy gl => if yy = py then gl.moveCells gd.sx dx px nx bg else gl

/-! ## The visible screen -/

/-- `grid_view_get_cell`. -/
def viewGetCell (gd : Grid) (px py : Nat) : GridCell := gd.getCell px (gd.viewY py)

/-- `grid_view_set_cell`. -/
def viewSetCell (gd : Grid) (px py : Nat) (gc : GridCell) : Grid :=
  gd.setCell px (gd.viewY py) gc

/-- `grid_view_set_padding`. -/
def viewSetPadding (gd : Grid) (px py : Nat) : Grid := gd.viewSetCell px py gridPaddingCell

/-- `grid_view_set_cells`. -/
def viewSetCells (gd : Grid) (px py : Nat) (gc : GridCell) (s : List Nat) : Grid :=
  gd.setCells px (gd.viewY py) gc s

/-- `grid_view_clear`. -/
def viewClear (gd : Grid) (px py nx ny bg : Nat) : Grid :=
  gd.clear px (gd.viewY py) nx ny bg

/-- `grid_view_scroll_region_up`. -/
def viewScrollRegionUp (gd : Grid) (rupper rlower bg : Nat) : Grid :=
  if gd.history then
    let gd := gd.collectHistory false
    if rupper = 0 ∧ rlower = gd.sy - 1 then gd.scrollHistory bg
    else gd.scrollHistoryRegion (gd.viewY rupper) (gd.viewY rlower) bg
  else gd.moveLines (gd.viewY rupper) (gd.viewY rupper + 1) (rlower - rupper) bg

/-- `grid_view_scroll_region_down`. -/
def viewScrollRegionDown (gd : Grid) (rupper rlower bg : Nat) : Grid :=
  gd.moveLines (gd.viewY rupper + 1) (gd.viewY rupper) (rlower - rupper) bg

/-- `grid_view_insert_lines`. -/
def viewInsertLines (gd : Grid) (py ny bg : Nat) : Grid :=
  gd.moveLines (gd.viewY py + ny) (gd.viewY py) (gd.viewY gd.sy - gd.viewY py - ny) bg

/-- `grid_clear` of `ny - ny2` whole lines from `py`. When more lines were moved
than inserted the unsigned difference wraps: the bounds checks still pass, the
loop runs over nothing, and only the line above loses its wrapped flag. -/
def clearRest (gd : Grid) (py ny ny2 bg : Nat) : Grid :=
  if ny < ny2 then gd.unwrapAbove py
  else gd.clear 0 py gd.sx (ny - ny2) bg

/-- `grid_view_insert_lines_region`. -/
def viewInsertLinesRegion (gd : Grid) (rlower py ny bg : Nat) : Grid :=
  let ny2 := gd.viewY rlower + 1 - gd.viewY py - ny
  (gd.moveLines (gd.viewY rlower + 1 - ny2) (gd.viewY py) ny2 bg).clearRest
    (gd.viewY py + ny2) ny ny2 bg

/-- `grid_view_delete_lines`. -/
def viewDeleteLines (gd : Grid) (py ny bg : Nat) : Grid :=
  (gd.moveLines (gd.viewY py) (gd.viewY py + ny) (gd.viewY gd.sy - gd.viewY py - ny) bg).clear
    0 (gd.viewY gd.sy - ny) gd.sx ny bg

/-- `grid_view_delete_lines_region`. -/
def viewDeleteLinesRegion (gd : Grid) (rlower py ny bg : Nat) : Grid :=
  let ny2 := gd.viewY rlower + 1 - gd.viewY py - ny
  (gd.moveLines (gd.viewY py) (gd.viewY py + ny) ny2 bg).clearRest
    (gd.viewY py + ny2) ny ny2 bg

/-- `grid_view_insert_cells`. -/
def viewInsertCells (gd : Grid) (px py nx bg : Nat) : Grid :=
  if px ≥ gd.sx - 1 then gd.clear px (gd.viewY py) 1 1 bg
  else gd.moveCells (px + nx) px (gd.viewY py) (gd.sx - px - nx) bg

/-- `grid_view_delete_cells`. -/
def viewDeleteCells (gd : Grid) (px py nx bg : Nat) : Grid :=
  (gd.moveCells px (px + nx) (gd.viewY py) (gd.sx - px - nx) bg).clear
    (gd.sx - nx) (gd.viewY py) nx 1 bg

end Grid

end Newmux.Live
