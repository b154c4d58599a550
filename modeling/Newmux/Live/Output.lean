import Newmux.Live.Screen

/-!
# Writing cells

The rest of `screen-write.c`: characters, which may join the one before them,
overwrite part of a wide one, or wait in the collected item; and the operations
terminal output can cause, as one type.
-/

namespace Newmux.Live

open Newmux.Tmux

namespace Screen

/-! ## Combining characters -/

/-- What `screen_write_combine` decides: to write the character as any other, to
drop it, or to join it to the cell `n` columns back. -/
inductive Combined
  | write
  | discard
  | join (last : GridCell) (n : Nat) (forceWide : Bool)
deriving DecidableEq, Repr

/-- What is left of `screen_write_combine` once the cell `n` columns back is
known to take the character: whether the result fits, and its width. -/
def joined (last : GridCell) (n : Nat) (forceWide : Bool) (gc : GridCell) : Combined :=
  if last.data.length + gc.data.length > utf8Size then .write
  else
    let last' := { last with data := last.data ++ gc.data }
    if last.width = 1 ∧ forceWide then .join { last' with width := 2 } n true
    else .join last' n false

/-- The decision of `screen_write_combine`. -/
def combined (u : Utf8) (s : Screen) (gc : GridCell) : Combined :=
  let ud := gc.data
  if u.isHangulFiller ud then .discard
  else
    let zeroWidth := u.isZwj ud || u.isVs ud || gc.width == 0
    let forceWide := !u.isZwj ud && u.isVs ud && u.variationSelectorAlwaysWide
    let unjoined := if zeroWidth then Combined.discard else .write
    if ud.length < 2 ∨ s.cx = 0 then unjoined
    else
      let back := s.grid.viewGetCell (s.cx - 1) s.cy
      let n := if s.cx ≠ 1 ∧ hasFlag back.flags gridFlagPadding then 2 else 1
      let last := s.grid.viewGetCell (s.cx - n) s.cy
      if n ≠ last.width ∨ hasFlag last.flags gridFlagPadding then unjoined
      else if zeroWidth then joined last n forceWide gc
      else
        match u.hanguljamoCheckState last.data ud with
        | .notComposable => .discard
        | .choseong => .write
        | .composable => joined last n forceWide gc
        | .notHanguljamo =>
            if u.shouldCombine last.data ud ∨ u.shouldCombine ud last.data then
              joined last n true gc
            else if u.hasZwj last.data then joined last n forceWide gc
            else .write

/-- What `screen_write_combine` does to join a character: a cell forced wide gets
its padding, and the cursor one further. -/
def join (s : Screen) (last : GridCell) (n : Nat) (forceWide : Bool) : Screen :=
  if forceWide then
    (s.onGrid fun gd => (gd.viewSetCell (s.cx - 1) s.cy last).viewSetPadding s.cx s.cy).setCursor
      (some (s.cx + 1)) (some s.cy)
  else
    (s.onGrid fun gd => gd.viewSetCell (s.cx - n) s.cy last).setCursor (some s.cx) (some s.cy)

/-! ## Padding -/

/-- Blank the padding cells from column `xx` leftwards, down to the first column
that is not one, or to column 0. -/
def blankBack (y : Nat) : Nat → Grid → Grid × Nat
  | 0, gd => (gd, 0)
  | xx + 1, gd =>
      if hasFlag (gd.viewGetCell (xx + 1) y).flags gridFlagPadding then
        blankBack y xx (gd.viewSetCell (xx + 1) y gridDefaultCell)
      else (gd, xx + 1)

/-- Replace the padding cells from column `xx` rightwards, `n` of them at most. -/
def blankOn (y : Nat) (fill : GridCell) : Nat → Nat → Grid → Grid
  | 0, _, gd => gd
  | n + 1, xx, gd =>
      if hasFlag (gd.viewGetCell xx y).flags gridFlagPadding then
        blankOn y fill n (xx + 1) (gd.viewSetCell xx y fill)
      else gd

/-- `screen_write_overwrite`: the grid, and whether a cell was replaced. -/
def overwrite (s : Screen) (gc : GridCell) (width : Nat) : Grid × Bool :=
  let padding := hasFlag gc.flags gridFlagPadding
  let gd :=
    if padding then
      let back := blankBack s.cy s.cx s.grid
      back.1.viewSetCell back.2 s.cy gridDefaultCell
    else s.grid
  if width ≠ 1 ∨ gc.width ≠ 1 ∨ padding then
    let fill :=
      if hasFlag gc.flags gridFlagTab then { gc with data := [32], width := 1 }
      else gridDefaultCell
    let right := s.cx + width
    (blankOn s.cy fill (s.sx - right) right gd,
      padding || (decide (right < s.sx) &&
        hasFlag (gd.viewGetCell right s.cy).flags gridFlagPadding))
  else (gd, padding)

/-- Fill in the padding cells of a wide character. -/
def padLoop (y : Nat) : Nat → Nat → Grid → Grid
  | 0, _, gd => gd
  | n + 1, xx, gd => padLoop y n (xx + 1) (gd.viewSetPadding xx y)

/-! ## Cells -/

/-- "If no change, do not draw": the cell under the cursor holds `gc` already. -/
def unchanged (gl : Line) (px : Nat) (gc : GridCell) : Bool :=
  match gl.celldata[px]? with
  | none => gridCellsEqual gc gridDefaultCell
  | some gce =>
      !gce.extended && gc.flags == gce.cell.flags && gc.attr == gce.cell.attr &&
        gc.fg == gce.cell.fg && gc.bg == gce.cell.bg &&
        gc.fg < 256 && gc.bg < 256 &&
        gc.width == 1 && gc.data.length == 1 && gce.cell.data == gc.data

/-- `screen_write_cell` once the character fits at the cursor: replace what it
overlaps, pad it, store it and move the cursor. Nothing is selected on the base
screen of a pane. -/
def putCell (s : Screen) (gc : GridCell) (inserted : Bool) : Screen :=
  let width := gc.width
  let gl := s.grid.getLine (s.hsize + s.cy)
  let replaced :=
    if hasFlag gl.flags gridLineExtended then s.overwrite (s.grid.viewGetCell s.cx s.cy) width
    else (s.grid, false)
  let padded := padLoop s.cy (width - 1) (s.cx + 1) replaced.1
  let skip := !inserted && !replaced.2 && decide (width ≤ 1) && unchanged gl s.cx gc
  let s' :=
    if hasFlag gc.flags gridFlagSelected then
      (s.onGrid fun _ => padded.viewSetCell s.cx s.cy
        { gc with flags := dropFlag gc.flags gridFlagSelected }).markDirty s.cy 1
    else if !skip then (s.onGrid fun _ => padded.viewSetCell s.cx s.cy gc).markDirty s.cy 1
    else s.onGrid fun _ => padded
  let notWrap := if s.modeWrap then 0 else 1
  if s.cx ≤ usub (usub s.sx notWrap) width then s'.setCursor (some (s.cx + width)) none
  else s'.setCursor (some (s.sx - notWrap)) none

/-- "If this character doesn't fit, ignore it." -/
def tooWide (s : Screen) (gc : GridCell) : Bool :=
  !s.modeWrap && decide (gc.width > 1) &&
    (decide (gc.width > s.sx) || (s.cx != s.sx && decide (s.cx > s.sx - gc.width)))

/-- The cursor is past the last column the character fits at. -/
def pastEdge (s : Screen) (gc : GridCell) : Bool := decide (s.cx > usub s.sx gc.width)

/-- "Check this will fit on the current line and wrap if not." -/
def wrapFor (s : Screen) (gc : GridCell) : Screen :=
  if s.modeWrap ∧ s.pastEdge gc then (s.lineFeed true 8).setCursor (some 0) none else s

/-- "Sanity check cursor position", and on to the cell. -/
def placeCell (s : Screen) (gc : GridCell) (inserted : Bool) : Screen :=
  if s.pastEdge gc ∨ s.cy > s.sy - 1 then s else s.putCell gc inserted

/-- "If in insert mode, make space for the cells." -/
def shiftFor (s : Screen) (gc : GridCell) : Screen :=
  s.onGrid fun gd => gd.viewInsertCells s.cx s.cy gc.width 8

/-- `screen_write_cell` for a character that joins no other. -/
def writeCell (s : Screen) (gc : GridCell) : Screen :=
  if s.tooWide gc then s
  else if s.modeInsert then ((s.shiftFor gc).wrapFor gc).placeCell gc true
  else (s.wrapFor gc).placeCell gc false

/-- `screen_write_cell`. -/
def cell (u : Utf8) (s : Screen) (gc : GridCell) : Screen :=
  if hasFlag gc.flags gridFlagPadding then s
  else
    match s.combined u gc with
    | .discard => s
    | .join last n forceWide => s.join last n forceWide
    | .write => s.writeCell gc

/-! ## Collected text -/

/-- `screen_write_collect_end`. -/
def collectEnd (s : Screen) : Screen :=
  if s.item = [] then s
  else
    let back := blankBack s.cy s.cx s.grid
    let gc := back.1.viewGetCell back.2 s.cy
    let gd :=
      if back.2 ≠ s.cx ∧ (gc.width > 1 ∨ hasFlag gc.flags gridFlagPadding) then
        back.1.viewSetCell back.2 s.cy gridDefaultCell
      else back.1
    let s' :=
      ((s.onGrid fun _ => gd.viewSetCells s.cx s.cy s.itemCell s.item).markDirty s.cy 1).setCursor
        (some (s.cx + s.item.length)) none
    { s'.onGrid fun gd => blankOn s'.cy gridDefaultCell (s'.sx - s'.cx) s'.cx gd with item := [] }

/-- Whether `screen_write_collect_add` collects the character. -/
def collects (s : Screen) (gc : GridCell) : Bool :=
  gc.width == 1 && gc.data.length == 1 && decide (gc.data.headD 0 < 0x7f) &&
    !hasFlag gc.flags gridFlagTab && !hasFlag gc.attr gridAttrCharset &&
    s.modeWrap && !s.modeInsert

/-- End the collection when the line has no room for another character. -/
def collectRoom (s : Screen) : Screen :=
  if s.cx > s.sx - 1 ∨ s.item.length > s.sx - 1 - s.cx then s.collectEnd else s

/-- Wrap to the next line past the last column. -/
def collectWrap (s : Screen) : Screen :=
  if s.cx > s.sx - 1 then (s.lineFeed true 8).setCursor (some 0) none else s

/-- Append the character to the collected item. -/
def collect (s : Screen) (gc : GridCell) : Screen :=
  { s with
    itemCell := if s.item = [] then gc else s.itemCell
    item := s.item ++ [gc.data.headD 0] }

/-- `screen_write_collect_add`. -/
def collectAdd (u : Utf8) (s : Screen) (gc : GridCell) : Screen :=
  if s.collects gc then s.collectRoom.collectWrap.collect gc
  else s.collectEnd.cell u gc

end Screen

/-! ## Output -/

inductive Mode
  | insert
  | wrap
  | origin
deriving DecidableEq, Repr

/-- The operations terminal output can cause on the base screen. -/
inductive WriteOp
  | collectAdd (gc : GridCell)
  | collectEnd
  | insertCharacter (nx bg : Nat)
  | deleteCharacter (nx bg : Nat)
  | clearCharacter (nx bg : Nat)
  | insertLine (ny bg : Nat)
  | deleteLine (ny bg : Nat)
  | clearLine (bg : Nat)
  | clearEndOfLine (bg : Nat)
  | clearStartOfLine (bg : Nat)
  | clearEndOfScreen (bg : Nat)
  | clearStartOfScreen (bg : Nat)
  | clearScreen (bg : Nat)
  | clearHistory
  | lineFeed (bg : Nat)
  | reverseIndex (bg : Nat)
  | scrollUp (lines bg : Nat)
  | scrollDown (lines bg : Nat)
  | alignmentTest
  | carriageReturn
  | scrollRegion (rupper rlower : Nat)
  | cursorUp (ny : Nat)
  | cursorDown (ny : Nat)
  | cursorRight (nx : Nat)
  | cursorLeft (nx : Nat)
  | cursorMove (px py : Option Nat) (origin : Bool)
  | backspace
  | modeSet (mode : Mode)
  | modeClear (mode : Mode)
deriving DecidableEq, Repr

namespace Screen

/-- `screen_write_mode_set` and `screen_write_mode_clear`. -/
def setMode (s : Screen) (mode : Mode) (on : Bool) : Screen :=
  match mode with
  | .insert => { s with modeInsert := on }
  | .wrap => { s with modeWrap := on }
  | .origin => { s with modeOrigin := on }

/-- One operation on a screen with nothing collected, text apart. -/
def exec (u : Utf8) (s : Screen) : WriteOp → Screen
  | .collectAdd gc => s.collectAdd u gc
  | .collectEnd => s
  | .insertCharacter nx bg => s.insertCharacter nx bg
  | .deleteCharacter nx bg => s.deleteCharacter nx bg
  | .clearCharacter nx bg => s.clearCharacter nx bg
  | .insertLine ny bg => s.insertLine ny bg
  | .deleteLine ny bg => s.deleteLine ny bg
  | .clearLine bg => s.clearLine bg
  | .clearEndOfLine bg => s.clearEndOfLine bg
  | .clearStartOfLine bg => s.clearStartOfLine bg
  | .clearEndOfScreen bg => s.clearEndOfScreen bg
  | .clearStartOfScreen bg => s.clearStartOfScreen bg
  | .clearScreen bg => s.clearScreen bg
  | .clearHistory => s.clearHistory
  | .lineFeed bg => s.lineFeed false bg
  | .reverseIndex bg => s.reverseIndex bg
  | .scrollUp lines bg => s.scrollUp lines bg
  | .scrollDown lines bg => s.scrollDown lines bg
  | .alignmentTest => s.alignmentTest
  | .carriageReturn => s.carriageReturn
  | .scrollRegion rupper rlower => s.scrollRegion rupper rlower
  | .cursorUp ny => s.cursorUp ny
  | .cursorDown ny => s.cursorDown ny
  | .cursorRight nx => s.cursorRight nx
  | .cursorLeft nx => s.cursorLeft nx
  | .cursorMove px py origin => s.cursorMove px py origin
  | .backspace => s.backspace
  | .modeSet mode => s.setMode mode true
  | .modeClear mode => s.setMode mode false

/-- One operation as `input_parse` issues it: anything but text ends the
collection first. -/
def write (u : Utf8) (s : Screen) (op : WriteOp) : Screen :=
  match op with
  | .collectAdd gc => s.collectAdd u gc
  | op => s.collectEnd.exec u op

/-- A chunk of output, `input_parse_buffer` from `screen_write_start` to
`screen_write_stop`. -/
def writeAll (u : Utf8) (s : Screen) (ops : List WriteOp) : Screen :=
  (ops.foldl (write u) s).collectEnd

end Screen

end Newmux.Live
