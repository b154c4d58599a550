import Newmux.Live.CopyMoves

/-!
# Live copy mode: the text of a selection

`window_copy_get_selection`, the commands that copy with it, and the loops of the
selection commands with a repeat count.
-/

namespace Newmux.Live

open Newmux.Tmux

namespace CopyMode

/-! ## Text -/

/-- The bytes of one cell in `window_copy_copy_line`. -/
def copyCell (e : CopyEnv) (gc : GridCell) : List Nat :=
  if hasFlag gc.flags gridFlagPadding then []
  else
    let data := if hasFlag gc.flags gridFlagTab then [9] else gc.data
    match data with
    | [c] =>
        if hasFlag gc.attr gridAttrCharset then
          match e.acs c with
          | some s => if s.length ≤ utf8Size then s else data
          | none => data
        else data
    | _ => data

/-- `window_copy_copy_line`: columns `sx` to `ex` of row `sy`, with a newline unless
the line wraps and all of it is copied. -/
def copyLine (e : CopyEnv) (d : CopyMode) (sy sx ex : Nat) : List Nat :=
  let gd := d.backing.grid
  if sx > ex then []
  else
    let gl := gd.getLine sy
    let wrapped := gl.wrapped && decide (gl.cellsize ≤ gd.sx)
    let xx := if wrapped then gl.cellsize else d.findLength sy
    let ex := if ex > xx then xx else ex
    let sx := if sx > xx then xx else sx
    let text := (List.range' sx (ex - sx)).flatMap fun i => copyCell e (gd.getCell i sy)
    if !wrapped ∨ ex ≠ xx then text ++ [10] else text

/-- The ends of a selection in reading order. -/
structure Span where
  sx : Nat
  sy : Nat
  ex : Nat
  ey : Nat
deriving DecidableEq, Repr

/-- "Find start and end." -/
def span (d : CopyMode) : Span :=
  if d.endsely < d.sely ∨ (d.endsely = d.sely ∧ d.endselx < d.selx) then
    { sx := d.endselx, sy := d.endsely, ex := d.selx, ey := d.sely }
  else { sx := d.selx, sy := d.sely, ex := d.endselx, ey := d.endsely }

/-- The rows `window_copy_get_selection` copies. -/
def copiedRows (d : CopyMode) : List Nat :=
  if d.hasLogicalSelection then List.range' d.span.sy (d.span.ey + 1 - d.span.sy) else []

/-- The columns copied: where the first line starts and the others, where the last
line ends and the others. -/
structure Columns where
  firstsx : Nat
  restsx : Nat
  lastex : Nat
  restex : Nat
deriving DecidableEq, Repr

/-- The columns of a selection whose last line ends at `ex`; a rectangle leaves out
the cursor's column in emacs. -/
def columns (e : CopyEnv) (d : CopyMode) (ex : Nat) : Columns :=
  if d.rectflag then
    let selx := if d.cursordrag = .endsel then d.selx else d.endselx
    if selx < d.cx then
      let right := if e.vi then d.cx + 1 else d.cx
      { firstsx := selx, restsx := selx, lastex := right, restex := right }
    else { firstsx := d.cx, restsx := d.cx, lastex := selx + 1, restex := selx + 1 }
  else
    { firstsx := d.span.sx, restsx := 0
      lastex := if e.vi then ex + 1 else ex
      restex := d.sx }

/-- `window_copy_get_selection` when there is a selection. -/
def getSelection (e : CopyEnv) (d : CopyMode) : Option (List Nat) :=
  let s := d.span
  let last := d.findLength s.ey
  let c := d.columns e (if s.ex > last then last else s.ex)
  let text := d.copiedRows.flatMap fun i =>
    d.copyLine e i (if i = s.sy then c.firstsx else c.restsx)
      (if i = s.ey then c.lastex else c.restex)
  if text = [] then none
  else if (!e.vi ∨ c.lastex ≤ last) ∧
      (!(d.backing.grid.getLine s.ey).wrapped ∨ c.lastex ≠ last) then some text.dropLast
  else some text

/-! ## Commands with a repeat count -/

/-- Down a line and to its end, `n` times. -/
def downLines (e : CopyEnv) : Nat → CopyMode → CopyMode
  | 0, d => d
  | n + 1, d => downLines e n ((d.cursorDown e).cursorEndOfLine e)

/-- `window_copy_cmd_select_line`. -/
def selectLine (e : CopyEnv) (d : CopyMode) (np : Nat) : CopyMode :=
  downLines e (np - 1) (d.selectFirstLine e)

/-- What `window_copy_do_copy_end_of_line` selects. -/
def selectToEnd (e : CopyEnv) (d : CopyMode) (np : Nat) : CopyMode :=
  ((cursorDown e)^[np - 1] d.startSelection).cursorEndOfLine e

/-- What `window_copy_do_copy_line` selects. -/
def selectWholeLine (e : CopyEnv) (d : CopyMode) (np : Nat) : CopyMode :=
  ({ d with selflag := .char }.cursorStartOfLine e).selectToEnd e np

/-- The selection copied and gone, and the cursor and the view of before. -/
def restoreCursor (e : CopyEnv) (d selected : CopyMode) : CopyMode :=
  { selected.clearSelection e with cx := d.cx, cy := d.cy, oy := d.oy }

end CopyMode

end Newmux.Live
