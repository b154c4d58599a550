import Newmux.Live.CopyUpdate

/-!
# Live copy mode: moving, selecting and resizing

The cursor moves of `window-copy.c`, the pages, the selection commands, the mouse
and the resize. A selection made with the mouse is the native one; the rows of
either kind count from the oldest line of the history.
-/

namespace Newmux.Live

open Newmux.Tmux

/-- A mouse position from the top left cell of the pane. -/
structure Mouse where
  x : Int
  y : Int
deriving DecidableEq, Repr

namespace CopyMode

/-! ## The grid reader -/

/-- `grid_reader_cursor_start_of_line` over wrapped lines: the row it stops at. -/
def startOfLineRow (gd : Grid) : Nat → Nat
  | 0 => 0
  | cy + 1 => if (gd.getLine cy).wrapped then startOfLineRow gd cy else cy + 1

/-- `grid_reader_cursor_end_of_line` over wrapped lines, `n` rows above the last. -/
def endOfLineRow (gd : Grid) : Nat → Nat → Nat
  | 0, cy => cy
  | n + 1, cy => if (gd.getLine cy).wrapped then endOfLineRow gd n (cy + 1) else cy

/-! ## The cursor -/

/-- `window_copy_acquire_cursor_up`; scrolling by the cursor is scrolling the view. -/
def acquireCursorUp (e : CopyEnv) (d : CopyMode) (px py : Nat) : CopyMode :=
  let yy := d.top
  (if py < yy then ((scrollDown e · 1)^[yy - py] d).updateCursor e px 0
    else d.updateCursor e px (py - yy)).updateSelection false

/-- `window_copy_acquire_cursor_down`. -/
def acquireCursorDown (e : CopyEnv) (d : CopyMode) (px py : Nat) (noReset : Bool) : CopyMode :=
  let cy := usub (py + d.oy) d.hsize
  let yy := d.backing.sy - 1
  (if cy > yy then ((scrollUp e · 1)^[cy - yy] d).updateCursor e px yy
    else d.updateCursor e px cy).updateSelection noReset

/-- `window_copy_cursor_start_of_line`. -/
def cursorStartOfLine (e : CopyEnv) (d : CopyMode) : CopyMode :=
  d.acquireCursorUp e 0 (startOfLineRow d.backing.grid (d.row d.cy))

/-- `window_copy_cursor_end_of_line`. -/
def cursorEndOfLine (e : CopyEnv) (d : CopyMode) : CopyMode :=
  let row := d.row d.cy
  let py := endOfLineRow d.backing.grid (d.total - 1 - row) row
  let px := if d.sel ∧ d.rectflag then d.backing.sx else d.cursorLimit e py false
  d.acquireCursorDown e px py false

/-- The end of the selection the cursor goes to in `window_copy_other_end`, once
`cursordrag` is switched. -/
def otherRow (d : CopyMode) : Nat := if d.cursordrag = .endsel then d.sely else d.endsely

/-- `window_copy_other_end`. -/
def otherEnd (e : CopyEnv) (d : CopyMode) : CopyMode :=
  if !d.sel ∧ d.lineflag = .none then d
  else
    let toStart := d.cursordrag == .endsel
    let selx := if toStart then d.selx else d.endselx
    let sely := d.otherRow
    let d :=
      { d with
        lineflag :=
          match d.lineflag with
          | .leftRight => .rightLeft
          | .rightLeft => .leftRight
          | .none => .none
        cursordrag := if toStart then .sel else .endsel
        cx := selx }
    let d :=
      if sely < d.top then { d with oy := usub d.hsize sely, cy := 0 }
      else if sely > d.top + d.sy then
        { d with oy := usub (d.hsize + d.sy - 1) sely, cy := d.sy - 1 }
      else { d with cy := usub (d.cy + sely) (d.row d.cy) }
    let limit := d.cursorLimit e (d.row d.cy) d.rectflag
    { d with cx := if d.cx > limit then limit else d.cx }.updateSelection true

/-- The column kept for the next line with content. -/
def keepColumn (d : CopyMode) : CopyMode :=
  let ox := d.findLength (d.row d.cy)
  if d.cx ≠ ox then { d with lastcx := d.cx, lastsx := ox } else d

/-- Whether the cursor, kept in its column, belongs at the end of its line. -/
def pastLine (d : CopyMode) : Bool :=
  let px := d.findLength (d.row d.cy)
  (decide (d.cx ≥ d.lastsx) && d.cx != px) || decide (d.cx > px)

/-- The end of `window_copy_cursor_up` and `window_copy_cursor_down`: the cursor on
the line it came to, and at the edge of lines selected as a whole. -/
def settle (e : CopyEnv) (d : CopyMode) (norectsel : Bool) : CopyMode :=
  let d :=
    if norectsel ∧ d.pastLine then
      (d.updateCursor e (d.findLength (d.row d.cy)) d.cy).updateSelection false
    else d
  match d.lineflag with
  | .leftRight =>
      let px := if d.rectflag then d.backing.sx else d.findLength (d.row d.cy)
      (d.updateCursor e px d.cy).updateSelection false
  | .rightLeft => (d.updateCursor e 0 d.cy).updateSelection false
  | .none => d

/-- `window_copy_cursor_up`. -/
def cursorUp (e : CopyEnv) (d : CopyMode) : CopyMode :=
  let norectsel := !d.sel || !d.rectflag
  let row := d.row d.cy
  let d := if norectsel then d.keepColumn else d
  let d := if d.lineflag = .leftRight ∧ row = d.sely then d.otherEnd e else d
  let cx := if norectsel then d.lastcx else d.cx
  let d :=
    if d.cy = 0 then { d with cx }.scrollDown e 1
    else (d.updateCursor e cx (d.cy - 1)).updateSelection false
  d.settle e norectsel

/-- `window_copy_cursor_down`. -/
def cursorDown (e : CopyEnv) (d : CopyMode) : CopyMode :=
  let norectsel := !d.sel || !d.rectflag
  let row := d.row d.cy
  let d := if norectsel then d.keepColumn else d
  let d := if d.lineflag = .rightLeft ∧ row = d.endsely then d.otherEnd e else d
  let cx := if norectsel then d.lastcx else d.cx
  let d :=
    if d.cy = d.sy - 1 then { d with cx }.scrollUp e 1
    else (d.updateCursor e cx (d.cy + 1)).updateSelection false
  d.settle e norectsel

/-! ## Pages -/

/-- The rows of a page. -/
def pageRows (d : CopyMode) (half : Bool) : Nat :=
  if d.sy > 2 then if half then d.sy / 2 else d.sy - 2 else 1

/-- The cursor of a page move on the line it came to. -/
def settlePage (e : CopyEnv) (d : CopyMode) : CopyMode :=
  if (!d.sel || !d.rectflag) ∧ d.pastLine then d.cursorEndOfLine e else d

/-- `window_copy_pageup1`. -/
def pageUp (e : CopyEnv) (d : CopyMode) (half : Bool) : CopyMode :=
  let d := d.keepColumn
  let n := d.pageRows half
  let d :=
    if d.oy + n > d.hsize then
      { d with oy := d.hsize, cx := d.lastcx, cy := if d.cy < n then 0 else d.cy - n }
    else { d with oy := d.oy + n, cx := d.lastcx }
  ((d.settlePage e).refreshMarks e).updateSelection false

/-- `window_copy_pagedown1`; the mode is left at the live screen when `scroll_exit`
says so. -/
def pageDown (e : CopyEnv) (d : CopyMode) (half scrollExit : Bool) : Option CopyMode :=
  let d := d.keepColumn
  let n := d.pageRows half
  let d :=
    if d.oy < n then
      { d with
        oy := 0
        cx := d.lastcx
        cy := if d.cy + n ≥ d.backing.sy then d.backing.sy - 1 else d.cy + n }
    else { d with oy := d.oy - n, cx := d.lastcx }
  let d := d.settlePage e
  if scrollExit ∧ d.oy = 0 then none else some ((d.refreshMarks e).updateSelection false)

/-- `window_copy_cmd_history_top`. -/
def historyTop (e : CopyEnv) (d : CopyMode) : CopyMode :=
  let d := if d.lineflag = .leftRight ∧ d.row d.cy = d.sely then d.otherEnd e else d
  ({ d with cx := 0, cy := 0, oy := d.hsize }.refreshMarks e).updateSelection false

/-- `window_copy_cmd_history_bottom`. -/
def historyBottom (e : CopyEnv) (d : CopyMode) : CopyMode :=
  let d := if d.lineflag = .rightLeft ∧ d.row d.cy = d.endsely then d.otherEnd e else d
  ({ d with
      cx := d.cursorLimit e (d.hsize + (d.sy - 1)) false
      cy := d.sy - 1
      oy := 0 }.refreshMarks e).updateSelection false

/-! ## Selecting -/

/-- `window_copy_cmd_begin_selection` without a mouse event. -/
def beginSelection (d : CopyMode) : CopyMode :=
  { d with lineflag := .none, selflag := .char }.startSelection

/-- `window_copy_cmd_stop_selection`. -/
def stopSelection (d : CopyMode) : CopyMode :=
  { d with
    cursordrag := .none
    nativeSelDragging := false
    nativeSelEdge := 0
    lineflag := .none
    selflag := .char }

/-- `window_copy_cmd_select_line` up to its loop over further lines. -/
def selectFirstLine (e : CopyEnv) (d : CopyMode) : CopyMode :=
  let d :=
    { d with
      lineflag := .leftRight
      rectflag := false
      selflag := .line
      dx := d.cx
      dy := d.row d.cy }.cursorStartOfLine e
  let d :=
    { d with
      selrx := d.cx
      selry := d.row d.cy
      endselry := d.row d.cy }.startSelection.cursorEndOfLine e
  { d with
    endselry := d.row d.cy
    endselrx := d.findLength (d.row d.cy) }

/-- `window_copy_rectangle_set`, and the commands that call it. -/
def rectangleSet (e : CopyEnv) (d : CopyMode) (rectflag : Bool) : CopyMode :=
  let d := { d with lineflag := .none, rectflag }
  let px := d.cursorLimit e (d.row d.cy) d.rectflag
  (if d.cx > px then d.updateCursor e px d.cy else d).updateSelection false

/-- `window_copy_cmd_other_end`, for an odd repeat count. -/
def otherEndCommand (e : CopyEnv) (d : CopyMode) : CopyMode :=
  { d with selflag := .char }.otherEnd e

/-! ## The mouse -/

/-- `cmd_mouse_at`: the cell the mouse is on, if it is on the pane. -/
def mouseAt (d : CopyMode) (m : Mouse) : Option (Nat × Nat) :=
  if m.x < 0 ∨ m.x ≥ d.sx ∨ m.y < 0 ∨ m.y ≥ d.sy then none else some (m.x.toNat, m.y.toNat)

/-- `window_copy_move_mouse`. -/
def moveMouse (e : CopyEnv) (d : CopyMode) (m : Mouse) : CopyMode :=
  match d.mouseAt m with
  | none => d
  | some (x, y) => d.updateCursor e (d.cursorUnoffset e x) y

/-- `WINDOW_COPY_DRAG_SCROLL_MARGIN`. -/
def dragScrollMargin : Nat := 2

/-- The column `window_copy_native_drag_outside` finds. -/
def outsideX (d : CopyMode) (m : Mouse) : Nat :=
  if m.x < 0 then 0 else if m.x ≥ d.sx then d.sx - 1 else m.x.toNat

/-- `cmd_mouse_at`, and `window_copy_native_drag_outside` off the pane: the cell a
drag goes to. -/
def dragAt (d : CopyMode) (m : Mouse) : Option (Nat × Nat) :=
  match d.mouseAt m with
  | some (x, y) => some (x, y)
  | none =>
      if !d.nativeSelDragging then none
      else if m.y < 0 then some (d.outsideX m, 0)
      else if m.y ≥ d.sy then some (d.outsideX m, d.sy - 1)
      else none

/-- The end of a native drag at column `x` of the row at the edge it is at. -/
def nativeEnd (d : CopyMode) (x : Nat) : CopyMode :=
  { d with
    nativeSelEndX := x
    nativeSelEndY := d.row d.nativeSelEdgeY }.nativeSelectionSync

/-- `window_copy_drag_update`. -/
def dragUpdate (e : CopyEnv) (d : CopyMode) (m : Mouse) : CopyMode :=
  match d.dragAt m with
  | none => { d with nativeSelEdge := 0 }
  | some (x, y) =>
      let x := d.cursorUnoffset e x
      if d.nativeSelDragging then
        let d :=
          if y ≤ dragScrollMargin then
            { d with nativeSelEdge := -1, nativeSelEdgeX := x, nativeSelEdgeY := 0 }.scrollDown e 1
          else if y + dragScrollMargin ≥ d.sy - 1 then
            { d with
              nativeSelEdge := 1
              nativeSelEdgeX := x
              nativeSelEdgeY := d.sy - 1 }.scrollUp e 1
          else { d with nativeSelEdge := 0, nativeSelEdgeX := x, nativeSelEdgeY := y }
        d.nativeEnd x
      else
        let d' := (d.updateCursor e x y).updateSelection false
        if d.cy ≠ d'.cy ∨ d.cx = d'.cx then
          if y = 0 then d'.scrollDown e 1
          else if y = d.sy - 1 then d'.scrollUp e 1
          else d'
        else d'

/-- `window_copy_start_drag`, the button pressed at `last`. -/
def startDrag (e : CopyEnv) (d : CopyMode) (last m : Mouse) : CopyMode :=
  match d.mouseAt last with
  | none => d
  | some (x, y) =>
      let x := d.cursorUnoffset e x
      { d with
        sel := false
        nativeSelActive := true
        nativeSelDragging := true
        nativeSelSuppressCursor := true
        nativeSelEdge := 0
        nativeSelEdgeX := x
        nativeSelEdgeY := y
        nativeSelStartX := x
        nativeSelStartY := d.row y
        nativeSelEndX := x
        nativeSelEndY := d.row y
        cursordrag := .none
        lineflag := .none
        rectflag := false
        selflag := .char }.nativeSelectionSync.dragUpdate e m

/-- `window_copy_drag_release`. -/
def dragRelease (e : CopyEnv) (d : CopyMode) (m : Mouse) : CopyMode :=
  if d.nativeSelDragging then { d with nativeSelDragging := false, nativeSelEdge := 0 }
  else if d.lineNumberMode e ≠ .off then d.dragUpdate e m
  else d

/-- `window_copy_scroll_timer`. -/
def scrollTimer (e : CopyEnv) (d : CopyMode) : CopyMode :=
  if d.nativeSelDragging ∧ d.nativeSelEdge ≠ 0 then
    (if d.nativeSelEdge < 0 then d.scrollDown e 1 else d.scrollUp e 1).nativeEnd d.nativeSelEdgeX
  else if d.cy = 0 then d.scrollDown e 1
  else if d.cy = d.sy - 1 then d.scrollUp e 1
  else d

/-! ## Entering and resizing -/

/-- `window_copy_clear_marks`. -/
def clearMarks (d : CopyMode) : CopyMode :=
  { d with search := { d.search with mark := none, count := -1, more := false } }

/-- `window_copy_size_changed`. -/
def sizeChanged (e : CopyEnv) (d : CopyMode) : CopyMode :=
  let cleared := (d.clearSelection e).clearMarks
  let d :=
    if d.searching then { cleared with search := e.searchMarks cleared } else cleared
  { d with search := { d.search with x := d.cx, y := d.cy, o := d.oy } }

/-- `window_copy_resize`, `s` being the pane's screen in its new size. -/
def resize (e : CopyEnv) (d : CopyMode) (s : Screen) : CopyMode :=
  let oy := if d.oy > s.hsize then s.hsize else d.oy
  let d := { d with backing := s, sx := s.sx, sy := s.sy, oy, liveHsize := s.hsize }
  let d :=
    if oy = 0 then { d with cx := s.cx, cy := if s.cy ≥ s.sy then s.sy - 1 else s.cy }
    else
      { d with
        cx := if d.cx ≥ s.sx then s.sx - 1 else d.cx
        cy := if d.cy ≥ s.sy then s.sy - 1 else d.cy }
  d.sizeChanged e

end CopyMode

end Newmux.Live
