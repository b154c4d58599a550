import Newmux.Live.CopyMode

/-!
# Live copy mode: drawing and following output

What `window_copy_write_line` draws on a row of the mode's screen, and
`window_copy_update`, which moves the view with the history after every chunk of
output and redraws as little as it can.
-/

namespace Newmux.Live

open Newmux.Tmux

/-- A row of the mode's screen as it was last drawn: the line number, its width
and whether it is the current line's; the cells behind it by column, `none` where
nothing was written; the position over the top row; the mark of a cursor that is
past the last column. -/
@[ext]
structure DrawnLine where
  number : Option (Nat × Nat × Bool)
  cells : List (Option GridCell)
  position : List Nat
  marker : Bool
deriving DecidableEq, Repr

/-- `window_copy_cell_is_blank_fill`. -/
def cellIsBlankFill (gc : GridCell) : Bool :=
  !hasFlag gc.flags gridFlagPadding && !hasFlag gc.flags gridFlagTab &&
    gc.attr == 0 && gc.data.length == 1 && gc.width == 1 && gc.data == [32]

/-- The loop of `window_copy_write_one` that leaves trailing blanks to a clearing:
the cells left, and the background to clear with once there is one. -/
def trimLoop (cell : Nat → GridCell) : Nat → Option Nat → Nat × Option Nat
  | 0, clear => (0, clear)
  | limit + 1, clear =>
      if gridCellsEqual (cell limit) gridDefaultCell then
        trimLoop cell limit (some (clear.getD 8))
      else if !cellIsBlankFill (cell limit) then (limit + 1, clear)
      else
        match clear with
        | none => trimLoop cell limit (some (cell limit).bg)
        | some bg => if (cell limit).bg ≠ bg then (limit + 1, clear) else trimLoop cell limit clear

/-- Nothing dirty. -/
def Screen.clean (s : Screen) : Screen := { s with dirtyTop := uintMax, dirtyBottom := 0 }

namespace CopyMode

/-! ## Drawing -/

/-- The columns beside the line numbers. -/
def contentSx (e : CopyEnv) (d : CopyMode) : Nat :=
  let width := d.lineNumberWidth e
  if width ≥ d.sx then 1 else if width ≠ 0 then d.sx - width else d.sx

/-- The number drawn before row `py`, and whether it is the current line's. -/
def lineNumber (e : CopyEnv) (d : CopyMode) (py : Nat) : Nat × Bool :=
  let current := py == d.cy && d.oy == 0
  let absolute := d.row py + 1
  let number :=
    match d.lineNumberMode e with
    | .default => if py < d.oy then d.oy - py else py - d.oy
    | .absolute => absolute
    | .hybrid => if current then absolute else if py > d.cy then py - d.cy else d.cy - py
    | _ => if py > d.cy then py - d.cy else d.cy - py
  (number, current)

/-- `window_copy_update_style`. -/
def updateStyle (e : CopyEnv) (d : CopyMode) (fx fy : Nat) (gc : GridCell) : GridCell :=
  let mk := e.markStyle
  let gc :=
    if d.showmark ∧ fy = d.my then
      if fx = d.mx then { gc with attr := mk.attr, fg := mk.bg, bg := mk.fg }
      else { gc with attr := mk.attr, fg := mk.fg, bg := mk.bg }
    else gc
  if d.search.mark.isNone then gc else e.searchStyle d fx fy gc

/-- The cells `window_copy_write_one` writes from row `fy` into `nx` columns, with
nothing selected, and the background it clears the rest with. -/
def writtenCells (e : CopyEnv) (d : CopyMode) (fy nx : Nat) : List GridCell × Option Nat :=
  let gd := d.backing.grid
  let styles := d.showmark || d.search.mark.isSome
  let gl := gd.getLine fy
  let (limit, clear) :=
    if !styles ∧ d.lineflag = .none ∧ !gl.wrapped then
      trimLoop (fun fx => gd.getCell fx fy) (if gl.cellsize > nx then nx else gl.cellsize)
        (if gl.cellsize < nx then some 8 else none)
    else (nx, none)
  let cells := (List.range limit).filterMap fun fx =>
    let gc := gd.getCell fx fy
    if fx + gc.width > nx ∨ hasFlag gc.flags gridFlagPadding then none
    else some (if styles then d.updateStyle e fx fy gc else gc)
  (cells, if limit < nx then some (clear.getD 8) else none)

/-- The columns the cells fill, one after the other, and the rest cleared. -/
def paint (nx : Nat) (written : List GridCell × Option Nat) : List (Option GridCell) :=
  let columns := written.1.flatMap fun gc =>
    some gc :: List.replicate (gc.width - 1) (some gridPaddingCell)
  let rest := written.2.map fun bg => { gridDefaultCell with bg }
  (columns ++ List.replicate (nx - columns.length) rest).take nx

/-- `position` in `window_copy_write_line`: whether the first row is drawn with the
position over it. -/
def showsPosition (e : CopyEnv) (d : CopyMode) : Bool :=
  decide (1 < d.sy) && !d.hidePosition && !e.positionFormat.isEmpty

/-- `window_copy_write_line`, on a screen with nothing selected. -/
def writeLine (e : CopyEnv) (d : CopyMode) (py : Nat) : DrawnLine :=
  let nx := d.contentSx e
  { number :=
      if d.lineNumberWidth e = 0 then none else some (d.lineNumberWidth e, d.lineNumber e py)
    cells := paint nx (d.writtenCells e (d.row py) nx)
    position := if py = 0 ∧ d.showsPosition e then e.position d else []
    marker := py == d.cy && decide (d.cx ≥ nx) && d.oy == 0 }

/-- `window_copy_redraw_lines` on the rows of the mode's screen: `ny` of them from
`py` on. -/
def redrawLines (e : CopyEnv) (d : CopyMode) (rows : Option (Nat × Nat))
    (shown : Nat → DrawnLine) : Nat → DrawnLine :=
  match rows with
  | none => shown
  | some (py, ny) => fun y => if py ≤ y ∧ y < py + ny then d.writeLine e y else shown y

/-! ## Following output -/

/-- The offset that `window_copy_update` gives the view, `live_hsize` being the
size the history had. -/
def followedOy (d : CopyMode) : Nat :=
  let oy :=
    if d.hsize > d.liveHsize then
      if d.oy ≠ 0 then d.oy + (d.hsize - d.liveHsize) else d.oy
    else if d.hsize < d.liveHsize then
      if d.oy > d.liveHsize - d.hsize then d.oy - (d.liveHsize - d.hsize) else 0
    else d.oy
  if oy > d.hsize then d.hsize else oy

/-- The rows to redraw of a view that is scrolled back, `oldHsize` being the size
the history had: those of the dirty rows that are visible. -/
def visibleDirty (d : CopyMode) (oldHsize : Nat) : Option (Nat × Nat) :=
  let dirtyTop := d.backing.dirtyTop
  let dirtyBottom := d.backing.dirtyBottom
  if dirtyTop = uintMax then none
  else
    let visibleTop := d.top
    let visibleBottom := visibleTop + d.sy - 1
    let absTop := d.hsize + dirtyTop
    let absBottom := d.hsize + dirtyBottom
    if absBottom ≥ visibleTop ∧ absTop ≤ visibleBottom ∧
        (dirtyBottom - dirtyTop + 1 ≤ 4 ∨ oldHsize = d.hsize) then
      let redrawTop := if absTop < visibleTop then visibleTop else absTop
      let redrawBottom := if absBottom > visibleBottom then visibleBottom else absBottom
      some (redrawTop - visibleTop, redrawBottom + 1 - redrawTop)
    -- The row of the live cursor would be next, but a view that is scrolled back
    -- shows no live cursor.
    else none

/-- Whether there are search marks to keep. -/
def searching (d : CopyMode) : Bool := d.search.mark.isSome && !d.search.timeout

/-- The cursor as `window_copy_update` leaves it: the live cursor's place when the
view is at the live screen, otherwise where it is. -/
def followedCursor (d : CopyMode) : CopyMode :=
  if d.oy = 0 then
    let cy := if d.backing.cy ≥ d.sy then d.sy - 1 else d.backing.cy
    { d with
      cx := d.backing.cx
      cy
      lastcx := d.backing.cx
      lastsx := d.findLength (d.hsize + cy) }
  else { d with cy := if d.cy > d.sy - 1 then d.sy - 1 else d.cy }

/-- `window_copy_update`: the mode after output, and the rows it redraws. -/
def update (e : CopyEnv) (d : CopyMode) : CopyMode × Option (Nat × Nat) :=
  let followed := { d with oy := d.followedOy, liveHsize := d.hsize }.followedCursor
  if followed.oy ≠ 0 ∧ !d.searching ∧ !d.sel then
    ({ followed with backing := d.backing.clean }, followed.visibleDirty d.liveHsize)
  else ((followed.refreshMarks e).updateSelection false, some (0, d.sy))

/-- A chunk of output to the pane: `window_pane_read_callback`. -/
def output (e : CopyEnv) (u : Utf8) (d : CopyMode) (ops : List WriteOp) : CopyMode :=
  ({ d with backing := d.backing.writeAll u ops }.update e).1

end CopyMode

end Newmux.Live
