import Newmux.Live.Grid

/-!
# Screens and what output does to them

`screen-write.c` on the base screen of a pane that is in a mode: the context has
no pane to draw on, only one to mark rows dirty for, so no operation scrolls the
screen into the history to clear it, and nothing reaches a terminal. The
collected text of the context is the screen's `item`.
-/

namespace Newmux.Live

open Newmux.Tmux

/-- `UINT_MAX`, the mark that no row is dirty. -/
def uintMax : Nat := 2 ^ 32 - 1

/-- Unsigned subtraction, which wraps. -/
def usub (a b : Nat) : Nat := if b ≤ a then a - b else a + 2 ^ 32 - b

/-- `UTF8_SIZE`. -/
def utf8Size : Nat := 32

inductive HanguljamoState
  | notHanguljamo
  | choseong
  | composable
  | notComposable
deriving DecidableEq, Repr

/-- The tests of the UTF-8 tables on the bytes of a character, and the option
that goes with them. -/
structure Utf8 where
  isHangulFiller : List Nat → Bool
  isZwj : List Nat → Bool
  isVs : List Nat → Bool
  hasZwj : List Nat → Bool
  shouldCombine : List Nat → List Nat → Bool
  hanguljamoCheckState : List Nat → List Nat → HanguljamoState
  variationSelectorAlwaysWide : Bool

/-- `struct screen` as far as output uses it, with the collected item of the
write context. -/
structure Screen where
  grid : Grid
  cx : Nat
  cy : Nat
  rupper : Nat
  rlower : Nat
  modeInsert : Bool
  modeWrap : Bool
  modeOrigin : Bool
  dirtyGeneration : Nat
  dirtyTop : Nat
  dirtyBottom : Nat
  item : List Nat
  itemCell : GridCell
deriving DecidableEq, Repr

namespace Screen

def sx (s : Screen) : Nat := s.grid.sx
def sy (s : Screen) : Nat := s.grid.sy
def hsize (s : Screen) : Nat := s.grid.hsize

/-- `screen_write_mark_dirty`. -/
def markDirty (s : Screen) (y n : Nat) : Screen :=
  if n = 0 ∨ y ≥ s.sy then s
  else
    let n := if n > s.sy - y then s.sy - y else n
    let bottom := y + n - 1
    if s.dirtyTop = uintMax then
      { s with dirtyGeneration := s.dirtyGeneration + 1, dirtyTop := y, dirtyBottom := bottom }
    else
      { s with
        dirtyTop := if y < s.dirtyTop then y else s.dirtyTop
        dirtyBottom := if bottom > s.dirtyBottom then bottom else s.dirtyBottom }

/-- `screen_write_set_cursor`; an absent coordinate is the source's -1. -/
def setCursor (s : Screen) (cx cy : Option Nat) : Screen :=
  { s with
    cx := match cx with
      | none => s.cx
      | some cx => if cx > s.sx then s.sx - 1 else cx
    cy := match cy with
      | none => s.cy
      | some cy => if cy > s.sy - 1 then s.sy - 1 else cy }

/-- Set the grid, leaving the rest. -/
def onGrid (s : Screen) (f : Grid → Grid) : Screen := { s with grid := f s.grid }

/-! ## Cursor -/

/-- `screen_write_cursorup`. -/
def cursorUp (s : Screen) (ny : Nat) : Screen :=
  let ny := if ny = 0 then 1 else ny
  let ny :=
    if s.cy < s.rupper then if ny > s.cy then s.cy else ny
    else if ny > s.cy - s.rupper then s.cy - s.rupper else ny
  let cx := if s.cx = s.sx then s.cx - 1 else s.cx
  s.setCursor (some cx) (some (s.cy - ny))

/-- `screen_write_cursordown`. -/
def cursorDown (s : Screen) (ny : Nat) : Screen :=
  let ny := if ny = 0 then 1 else ny
  let ny :=
    if s.cy > s.rlower then if ny > s.sy - 1 - s.cy then s.sy - 1 - s.cy else ny
    else if ny > s.rlower - s.cy then s.rlower - s.cy else ny
  if s.cx = s.sx then s.setCursor (some (s.cx - 1)) (some (s.cy + ny))
  else if ny = 0 then s
  else s.setCursor (some s.cx) (some (s.cy + ny))

/-- `screen_write_cursorright`; past the last column the room wraps around. -/
def cursorRight (s : Screen) (nx : Nat) : Screen :=
  let nx := if nx = 0 then 1 else nx
  let nx := if nx > usub (s.sx - 1) s.cx then usub (s.sx - 1) s.cx else nx
  if nx = 0 then s else s.setCursor (some (s.cx + nx)) (some s.cy)

/-- `screen_write_cursorleft`. -/
def cursorLeft (s : Screen) (nx : Nat) : Screen :=
  let nx := if nx = 0 then 1 else nx
  let nx := if nx > s.cx then s.cx else nx
  if nx = 0 then s else s.setCursor (some (s.cx - nx)) (some s.cy)

/-- `screen_write_backspace`. -/
def backspace (s : Screen) : Screen :=
  if s.cx = 0 then
    if s.cy = 0 then s
    else if (s.grid.getLine (s.hsize + s.cy - 1)).wrapped then
      s.setCursor (some (s.sx - 1)) (some (s.cy - 1))
    else s.setCursor (some s.cx) (some s.cy)
  else s.setCursor (some (s.cx - 1)) (some s.cy)

/-- `screen_write_cursormove`. -/
def cursorMove (s : Screen) (px py : Option Nat) (origin : Bool) : Screen :=
  let py := py.map fun py =>
    if origin ∧ s.modeOrigin then if py > s.rlower - s.rupper then s.rlower else py + s.rupper
    else py
  s.setCursor (px.map fun px => if px > s.sx - 1 then s.sx - 1 else px)
    (py.map fun py => if py > s.sy - 1 then s.sy - 1 else py)

/-- `screen_write_scrollregion`. -/
def scrollRegion (s : Screen) (rupper rlower : Nat) : Screen :=
  let rupper := if rupper > s.sy - 1 then s.sy - 1 else rupper
  let rlower := if rlower > s.sy - 1 then s.sy - 1 else rlower
  if rupper ≥ rlower then s
  else { s.setCursor (some 0) (some 0) with rupper, rlower }

/-- `screen_write_carriagereturn`. -/
def carriageReturn (s : Screen) : Screen :=
  let s := s.setCursor (some 0) none
  s.markDirty s.cy 1

/-! ## Scrolling -/

/-- `screen_write_linefeed`. -/
def lineFeed (s : Screen) (wrapped : Bool) (bg : Nat) : Screen :=
  let s :=
    if wrapped then
      s.onGrid fun gd => gd.mapLines fun yy gl => if yy = gd.viewY s.cy then gl.wrap else gl
    else s
  if s.cy = s.rlower then
    (s.onGrid fun gd => gd.viewScrollRegionUp s.rupper s.rlower bg).markDirty
      s.rupper (s.rlower + 1 - s.rupper)
  else if s.cy < s.sy - 1 then
    (s.setCursor none (some (s.cy + 1))).markDirty (s.cy + 1) 2
  else s

/-- `screen_write_reverseindex`. -/
def reverseIndex (s : Screen) (bg : Nat) : Screen :=
  if s.cy = s.rupper then
    s.onGrid fun gd => gd.viewScrollRegionDown s.rupper s.rlower bg
  else if s.cy > 0 then s.setCursor none (some (s.cy - 1))
  else s

/-- `lines` as `screen_write_scrollup` and `screen_write_scrolldown` bound it. -/
def scrollLines (s : Screen) (lines : Nat) : Nat :=
  if lines = 0 then 1
  else if lines > s.rlower - s.rupper + 1 then s.rlower - s.rupper + 1
  else lines

/-- The loop of `screen_write_scrollup`. -/
def scrollUpLoop (bg : Nat) : Nat → Screen → Screen
  | 0, s => s
  | n + 1, s =>
      scrollUpLoop bg n
        ((s.onGrid fun gd => gd.viewScrollRegionUp s.rupper s.rlower bg).markDirty
          s.rupper (s.rlower + 1 - s.rupper))

/-- `screen_write_scrollup`. -/
def scrollUp (s : Screen) (lines bg : Nat) : Screen :=
  scrollUpLoop bg (s.scrollLines lines) s

/-- The loop of `screen_write_scrolldown`. -/
def scrollDownLoop (rupper rlower bg : Nat) : Nat → Grid → Grid
  | 0, gd => gd
  | n + 1, gd => scrollDownLoop rupper rlower bg n (gd.viewScrollRegionDown rupper rlower bg)

/-- `screen_write_scrolldown`. -/
def scrollDown (s : Screen) (lines bg : Nat) : Screen :=
  (s.onGrid (scrollDownLoop s.rupper s.rlower bg (s.scrollLines lines))).markDirty
    s.rupper (s.rlower + 1 - s.rupper)

/-! ## Characters and lines -/

/-- `nx` as the character operations bound it. -/
def boundChars (s : Screen) (nx : Nat) : Nat :=
  let nx := if nx = 0 then 1 else nx
  if nx > s.sx - s.cx then s.sx - s.cx else nx

/-- `screen_write_insertcharacter`. -/
def insertCharacter (s : Screen) (nx bg : Nat) : Screen :=
  let nx := s.boundChars nx
  if nx = 0 ∨ s.cx > s.sx - 1 then s
  else (s.onGrid fun gd => gd.viewInsertCells s.cx s.cy nx bg).markDirty s.cy 1

/-- `screen_write_deletecharacter`. -/
def deleteCharacter (s : Screen) (nx bg : Nat) : Screen :=
  let nx := s.boundChars nx
  if nx = 0 ∨ s.cx > s.sx - 1 then s
  else (s.onGrid fun gd => gd.viewDeleteCells s.cx s.cy nx bg).markDirty s.cy 1

/-- `screen_write_clearcharacter`. -/
def clearCharacter (s : Screen) (nx bg : Nat) : Screen :=
  let nx := s.boundChars nx
  if nx = 0 ∨ s.cx > s.sx - 1 then s
  else s.onGrid fun gd => gd.viewClear s.cx s.cy nx 1 bg

/-- `screen_write_insertline` and `screen_write_deleteline`, which differ only in
the two grid operations: outside the scroll region the lines to the bottom of the
screen move, inside it those to the bottom of the region. -/
def moveLinesAt (outside : Grid → Nat → Nat → Nat → Grid)
    (inside : Grid → Nat → Nat → Nat → Nat → Grid) (s : Screen) (ny bg : Nat) : Screen :=
  let ny := if ny = 0 then 1 else ny
  if s.cy < s.rupper ∨ s.cy > s.rlower then
    let ny := if ny > s.sy - s.cy then s.sy - s.cy else ny
    if ny = 0 then s
    else (s.onGrid fun gd => outside gd s.cy ny bg).markDirty s.cy (s.sy - s.cy)
  else
    let ny := if ny > s.rlower + 1 - s.cy then s.rlower + 1 - s.cy else ny
    if ny = 0 then s
    else
      (s.onGrid fun gd => inside gd s.rlower s.cy ny bg).markDirty s.cy (s.rlower + 1 - s.cy)

/-- `screen_write_insertline`. -/
def insertLine (s : Screen) (ny bg : Nat) : Screen :=
  moveLinesAt Grid.viewInsertLines Grid.viewInsertLinesRegion s ny bg

/-- `screen_write_deleteline`. -/
def deleteLine (s : Screen) (ny bg : Nat) : Screen :=
  moveLinesAt Grid.viewDeleteLines Grid.viewDeleteLinesRegion s ny bg

/-! ## Clearing -/

/-- `screen_write_clearline`. -/
def clearLine (s : Screen) (bg : Nat) : Screen :=
  if (s.grid.getLine (s.hsize + s.cy)).cellsize = 0 ∧ colourDefault bg then s
  else (s.onGrid fun gd => gd.viewClear 0 s.cy s.sx 1 bg).markDirty s.cy 1

/-- `screen_write_clearendofline`. -/
def clearEndOfLine (s : Screen) (bg : Nat) : Screen :=
  if s.cx = 0 then s.clearLine bg
  else if s.cx > s.sx - 1 ∨
      (s.cx ≥ (s.grid.getLine (s.hsize + s.cy)).cellsize ∧ colourDefault bg) then s
  else (s.onGrid fun gd => gd.viewClear s.cx s.cy (s.sx - s.cx) 1 bg).markDirty s.cy 1

/-- `screen_write_clearstartofline`. -/
def clearStartOfLine (s : Screen) (bg : Nat) : Screen :=
  if s.cx ≥ s.sx - 1 then s.clearLine bg
  else (s.onGrid fun gd => gd.viewClear 0 s.cy (s.cx + 1) 1 bg).markDirty s.cy 1

/-- `screen_write_clearendofscreen`. -/
def clearEndOfScreen (s : Screen) (bg : Nat) : Screen :=
  (s.onGrid fun gd =>
    (if s.cx ≤ s.sx - 1 then gd.viewClear s.cx s.cy (s.sx - s.cx) 1 bg else gd).viewClear
      0 (s.cy + 1) s.sx (s.sy - (s.cy + 1)) bg).markDirty s.cy (s.sy - s.cy)

/-- `screen_write_clearstartofscreen`. -/
def clearStartOfScreen (s : Screen) (bg : Nat) : Screen :=
  s.onGrid fun gd =>
    (if s.cy > 0 then gd.viewClear 0 0 s.sx s.cy bg else gd).viewClear
      0 s.cy (if s.cx > s.sx - 1 then s.sx else s.cx + 1) 1 bg

/-- `screen_write_clearscreen`. -/
def clearScreen (s : Screen) (bg : Nat) : Screen :=
  s.onGrid fun gd => gd.viewClear 0 0 s.sx s.sy bg

/-- `screen_write_clearhistory`. -/
def clearHistory (s : Screen) : Screen := s.onGrid Grid.clearHistory

/-- The loops of `screen_write_alignmenttest`, column by column of a row. -/
def alignRow (gc : GridCell) (yy : Nat) : Nat → Grid → Grid
  | 0, gd => gd
  | xx + 1, gd => (alignRow gc yy xx gd).viewSetCell xx yy gc

def alignRows (gc : GridCell) (sx : Nat) : Nat → Grid → Grid
  | 0, gd => gd
  | yy + 1, gd => alignRow gc yy sx (alignRows gc sx yy gd)

/-- `screen_write_alignmenttest`. -/
def alignmentTest (s : Screen) : Screen :=
  let gc := { gridDefaultCell with data := [69] }
  { (s.onGrid (alignRows gc s.sx s.sy)).setCursor (some 0) (some 0) with
    rupper := 0
    rlower := s.sy - 1 }

end Screen

end Newmux.Live
