import Newmux.Live.Output

/-!
# Live copy mode

`window-copy.c` entered with `-L`: the mode scrolls over the base screen of its
own pane, which output keeps changing. This file has the mode's data, how a
selection follows the cursor and hides off the screen, and scrolling. Rows are
unsigned and count from the oldest line of the history.
-/

namespace Newmux.Live

open Newmux.Tmux

/-- Which end of the selection the cursor drags. -/
inductive CursorDrag
  | none
  | endsel
  | sel
deriving DecidableEq, Repr

inductive LineSel
  | none
  | leftRight
  | rightLeft
deriving DecidableEq, Repr

/-- What a selection grows by; no operation here selects words. -/
inductive SelFlag
  | char
  | line
deriving DecidableEq, Repr

/-- The option `copy-mode-line-numbers`. -/
inductive LineNumbers
  | off
  | default
  | absolute
  | relative
  | hybrid
deriving DecidableEq, Repr

/-- The search marks on the screen and where the last search was made. -/
structure Search where
  mark : Option (List Nat)
  count : Int
  more : Bool
  timeout : Bool
  x : Int
  y : Int
  o : Int
deriving DecidableEq, Repr

/-- The wheel engine; times are in microseconds. -/
structure Wheel where
  lastValid : Bool
  lastTime : Nat
  emitValid : Bool
  emitTime : Nat
  direction : Int
  emitCount : Nat
  pendingMilli : Nat
  timer : Option Nat
deriving DecidableEq, Repr

/-- `struct window_copy_mode_data` with `livemode` set; `sx` and `sy` are the size
of its own screen, `sel` whether that screen shows a selection. -/
structure CopyMode where
  backing : Screen
  sx : Nat
  sy : Nat
  sel : Bool
  liveHsize : Nat
  oy : Nat
  selx : Nat
  sely : Nat
  endselx : Nat
  endsely : Nat
  nativeSelActive : Bool
  nativeSelDragging : Bool
  nativeSelSuppressCursor : Bool
  nativeSelEdge : Int
  nativeSelEdgeX : Nat
  nativeSelEdgeY : Nat
  nativeSelStartX : Nat
  nativeSelStartY : Nat
  nativeSelEndX : Nat
  nativeSelEndY : Nat
  cursordrag : CursorDrag
  lineflag : LineSel
  rectflag : Bool
  scrollExit : Bool
  hidePosition : Bool
  lineNumbers : Bool
  selflag : SelFlag
  dx : Nat
  dy : Nat
  selrx : Nat
  selry : Nat
  endselrx : Nat
  endselry : Nat
  cx : Nat
  cy : Nat
  lastcx : Nat
  lastsx : Nat
  mx : Nat
  my : Nat
  showmark : Bool
  search : Search
  wheel : Wheel
deriving DecidableEq, Repr

/-- The options the mode reads (`singleLine` and the limits are those of
`newmux-scroll-mode`), and what it leaves to other files: searching the backing
screen and styling what was found, expanding the position format, and the
alternate character set. -/
structure CopyEnv where
  vi : Bool
  lineNumberMode : LineNumbers
  singleLine : Bool
  maxUp : Nat
  maxDown : Nat
  markStyle : GridCell
  searchMarks : CopyMode → Search
  searchStyle : CopyMode → Nat → Nat → GridCell → GridCell
  positionFormat : List Nat
  position : CopyMode → List Nat
  acs : Nat → Option (List Nat)

namespace CopyMode

/-- `screen_hsize(data->backing)`. -/
def hsize (d : CopyMode) : Nat := d.backing.grid.hsize

/-- The rows of the backing grid. -/
def total (d : CopyMode) : Nat := d.hsize + d.backing.grid.sy

/-- `screen_hsize(data->backing) - data->oy`, the row at the top of the view. -/
def top (d : CopyMode) : Nat := usub d.hsize d.oy

/-- `screen_hsize(data->backing) + y - data->oy`, the row shown at `y`. -/
def row (d : CopyMode) (y : Nat) : Nat := usub (d.hsize + y) d.oy

/-- `window_copy_has_logical_selection`. -/
def hasLogicalSelection (d : CopyMode) : Bool :=
  d.sel || d.nativeSelActive || d.lineflag != .none || d.cursordrag != .none

/-- `window_copy_find_length`. -/
def findLength (d : CopyMode) (py : Nat) : Nat := d.backing.grid.lineLength py

/-- `window_copy_cursor_limit`. -/
def cursorLimit (e : CopyEnv) (d : CopyMode) (py : Nat) (allowOnemore : Bool) : Nat :=
  if allowOnemore ∨ !e.vi then d.findLength py else d.findLength py - 1

/-- Recompute the search marks where there are any to keep. -/
def refreshMarks (e : CopyEnv) (d : CopyMode) : CopyMode :=
  if d.search.mark.isSome ∧ !d.search.timeout then { d with search := e.searchMarks d } else d

/-! ## Line numbers -/

/-- `window_copy_line_number_mode`. -/
def lineNumberMode (e : CopyEnv) (d : CopyMode) : LineNumbers :=
  if d.lineNumbers then e.lineNumberMode else .off

/-- The digits of a number below `10 ^ fuel`. -/
def digitsLoop : Nat → Nat → Nat
  | 0, _ => 1
  | fuel + 1, lines => if lines ≥ 10 then digitsLoop fuel (lines / 10) + 1 else 1

/-- `window_copy_line_number_width`; an unsigned number has ten digits at most. -/
def lineNumberWidth (e : CopyEnv) (d : CopyMode) : Nat :=
  if d.lineNumberMode e = .off then 0
  else
    let digits := digitsLoop 10 (d.total + 1)
    (if digits < 3 then 3 else digits) + 1

/-- `window_copy_cursor_unoffset`. -/
def cursorUnoffset (e : CopyEnv) (d : CopyMode) (vx : Nat) : Nat :=
  let width := d.lineNumberWidth e
  if width = 0 then vx
  else
    let content := if width ≥ d.sx then 1 else d.sx - width
    if vx < width then 0
    else if vx - width ≥ content then content - 1
    else vx - width

/-! ## Selections -/

/-- Where a row is relative to the view. -/
inductive RelPos
  | above
  | below
  | onScreen
deriving DecidableEq, Repr

/-- The position `window_copy_adjust_selection` gives a row. -/
def relPos (d : CopyMode) (sely : Nat) : RelPos :=
  if sely < d.top then .above
  else if sely > d.top + d.sy - 1 then .below
  else .onScreen

/-- `window_copy_selection_intersects_screen`. -/
def selectionIntersectsScreen (d : CopyMode) : Bool :=
  d.hasLogicalSelection &&
    (let start := if d.sely < d.endsely then d.sely else d.endsely
     let last := if d.sely < d.endsely then d.endsely else d.sely
     decide (last ≥ d.top) && decide (start ≤ d.top + d.sy - 1))

/-- `window_copy_synchronize_cursor_end`. -/
def synchronizeCursorEnd (d : CopyMode) (begin noReset : Bool) : CopyMode :=
  let xx := d.cx
  let yy := d.row d.cy
  let set (d : CopyMode) (begin : Bool) (xx yy : Nat) : CopyMode :=
    if begin then { d with selx := xx, sely := yy } else { d with endselx := xx, endsely := yy }
  if d.selflag = .line ∧ !noReset then
    if d.dy > yy then
      set { d with endselx := d.endselrx, endsely := d.endselry } true 0 yy
    else
      let yy := if yy < d.endselry then d.endselry else yy
      set { d with selx := d.selrx, sely := d.selry } false (d.findLength yy) yy
  else set d begin xx yy

/-- `window_copy_synchronize_cursor`. -/
def synchronizeCursor (d : CopyMode) (noReset : Bool) : CopyMode :=
  match d.cursordrag with
  | .endsel => d.synchronizeCursorEnd false noReset
  | .sel => d.synchronizeCursorEnd true noReset
  | .none => d

/-- `window_copy_set_selection`: both ends past the same edge show nothing. -/
def setSelection (d : CopyMode) (noReset : Bool) : CopyMode :=
  let d := if d.nativeSelActive then d else d.synchronizeCursor noReset
  let startrelpos := d.relPos d.sely
  let endrelpos := d.relPos d.endsely
  if startrelpos = endrelpos ∧ startrelpos ≠ .onScreen then { d with sel := false }
  else { d with sel := true }

/-- `window_copy_update_selection`. -/
def updateSelection (d : CopyMode) (noReset : Bool) : CopyMode :=
  if !d.hasLogicalSelection then d
  else if !d.selectionIntersectsScreen then { d with sel := false }
  else d.setSelection noReset

/-- `window_copy_native_selection_sync`. -/
def nativeSelectionSync (d : CopyMode) : CopyMode :=
  { d with
    selx := d.nativeSelStartX
    sely := d.nativeSelStartY
    endselx := d.nativeSelEndX
    endsely := d.nativeSelEndY }.setSelection true

/-- `window_copy_update_cursor`. -/
def updateCursor (e : CopyEnv) (d : CopyMode) (cx cy : Nat) : CopyMode :=
  let maxx := d.cursorLimit e (d.row cy) (d.sel && d.rectflag)
  { d with
    cx := if cy < d.sy ∧ cx > maxx then maxx else cx
    cy }

/-- `window_copy_start_selection`. -/
def startSelection (d : CopyMode) : CopyMode :=
  { d with
    selx := d.cx
    sely := d.row d.cy
    endselx := d.cx
    endsely := d.row d.cy
    cursordrag := .endsel }.setSelection false

/-- `window_copy_clear_selection`. -/
def clearSelection (e : CopyEnv) (d : CopyMode) : CopyMode :=
  let d :=
    { d with
      sel := false
      nativeSelActive := false
      nativeSelDragging := false
      nativeSelEdge := 0
      cursordrag := .none
      lineflag := .none
      selflag := .char }
  let px := d.cursorLimit e (d.row d.cy) d.rectflag
  if d.cx > px then d.updateCursor e px d.cy else d

/-! ## Scrolling -/

/-- `window_copy_scroll_up`: towards the live screen. -/
def scrollUp (e : CopyEnv) (d : CopyMode) (ny : Nat) : CopyMode :=
  let ny := if d.oy < ny then d.oy else ny
  if ny = 0 then d
  else ({ d with oy := d.oy - ny }.refreshMarks e).updateSelection false

/-- `window_copy_scroll_down`: into the history. -/
def scrollDown (e : CopyEnv) (d : CopyMode) (ny : Nat) : CopyMode :=
  if ny > d.hsize then d
  else
    let ny := if d.oy > d.hsize - ny then usub d.hsize d.oy else ny
    if ny = 0 then d
    else ({ d with oy := d.oy + ny }.refreshMarks e).updateSelection false

end CopyMode

end Newmux.Live
