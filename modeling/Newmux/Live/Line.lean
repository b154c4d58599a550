import Newmux.Tmux.Grid

/-!
# Lines of a live grid

The cell and line operations of the grid a pane's program writes to. A cell
entry keeps what `Tmux.Grid` has resolved away: whether the cell is held in the
line's extended data, which never reverts and decides how it is cleared.
-/

namespace Newmux.Live

open Newmux.Tmux

/-! ## Flags -/

def gridFlagPadding : Nat := 0x4
def gridFlagSelected : Nat := 0x10
def gridFlagTab : Nat := 0x80
def gridAttrCharset : Nat := 0x80
def gridLineWrapped : Nat := 0x1
def gridLineExtended : Nat := 0x2
def colourFlagRgb : Nat := 0x02000000

/-- `flags & f`, as a condition. -/
def hasFlag (flags f : Nat) : Bool := flags &&& f != 0

/-- `flags & ~f`. -/
def dropFlag (flags f : Nat) : Nat := flags - (flags &&& f)

/-- `COLOUR_DEFAULT`. -/
def colourDefault (c : Nat) : Bool := c == 8 || c == 9

/-! ## Cell entries -/

/-- `struct grid_cell_entry`, with the entry of `extddata` it points to. -/
structure GridCellEntry where
  cell : GridCell
  extended : Bool
deriving DecidableEq, Repr

/-- `grid_padding_cell`. -/
def gridPaddingCell : GridCell :=
  { flags := gridFlagPadding, attr := 0, fg := 8, bg := 8, us := 8, link := 0, width := 0
    data := [] }

/-- `grid_need_extended_cell`. -/
def gridNeedExtendedCell (gce : GridCellEntry) (gc : GridCell) : Bool :=
  gce.extended || decide (gc.attr > 0xff) ||
    decide (gc.data.length > 1) || decide (gc.width > 1) ||
    hasFlag gc.fg colourFlagRgb || hasFlag gc.bg colourFlagRgb ||
    gc.us != 8 || gc.link != 0 || hasFlag gc.flags gridFlagTab

/-- The entry `grid_set_cell` leaves, as it reads back: `grid_extended_cell`
keeps the whole cell (a tab as its width in spaces), `grid_store_cell` one byte
of it, a padding cell's being `!`. -/
def gridStore (gce : GridCellEntry) (gc : GridCell) : GridCellEntry :=
  if gridNeedExtendedCell gce gc then
    { cell :=
        { gc with
          flags := dropFlag gc.flags gridFlagCleared
          data := if hasFlag gc.flags gridFlagTab then List.replicate gc.width 32 else gc.data }
      extended := true }
  else
    { cell :=
        { gc with
          flags := dropFlag gc.flags gridFlagCleared
          us := 8
          link := 0
          width := 1
          data := [gc.data.headD 33] }
      extended := false }

/-- `grid_clear_cell`: an entry that was extended stays so, unless its contents
were moved away, and then reads back without the cleared flag. -/
def gridClearCell (gce : GridCellEntry) (bg : Nat) (moved : Bool) : GridCellEntry :=
  let extended := (!moved && gce.extended) || (bg != 8 && hasFlag bg colourFlagRgb)
  { cell :=
      { flags := if extended then 0 else gridFlagCleared
        attr := 0, fg := 8, bg, us := 8, link := 0, width := 1, data := [32] }
    extended }

/-- The entry `xreallocarray` and `memset` leave before it is cleared. -/
def GridCellEntry.zero : GridCellEntry :=
  { cell := { flags := 0, attr := 0, fg := 0, bg := 0, us := 8, link := 0, width := 1, data := [0] }
    extended := false }

/-! ## Lines -/

/-- `struct grid_line`; `cellsize` is the length of `celldata`. -/
structure Line where
  celldata : List GridCellEntry
  cellused : Nat
  flags : Nat
deriving DecidableEq, Repr

namespace Line

/-- A line as `memset` leaves it. -/
def zero : Line := { celldata := [], cellused := 0, flags := 0 }

def cellsize (gl : Line) : Nat := gl.celldata.length

/-- The cell `grid_get_cell` reads at `px`. -/
def cell (gl : Line) (px : Nat) : GridCell :=
  match gl.celldata[px]? with
  | none => gridDefaultCell
  | some gce => gce.cell

def wrapped (gl : Line) : Bool := hasFlag gl.flags gridLineWrapped

/-- `gl->flags |= GRID_LINE_WRAPPED`. -/
def wrap (gl : Line) : Line := { gl with flags := gl.flags ||| gridLineWrapped }

/-- `gl->flags &= ~GRID_LINE_WRAPPED`. -/
def unwrap (gl : Line) : Line := { gl with flags := dropFlag gl.flags gridLineWrapped }

/-- `grid_expand_line`, in a grid `gsx` columns wide. -/
def expand (gsx : Nat) (gl : Line) (sx bg : Nat) : Line :=
  if sx ≤ gl.cellsize then gl
  else
    let sx :=
      if sx < gsx / 4 then gsx / 4
      else if sx < gsx / 2 then gsx / 2
      else if gsx > sx then gsx
      else sx
    { gl with
      celldata := gl.celldata ++
        List.replicate (sx - gl.cellsize) (gridClearCell .zero bg false) }

/-- `grid_empty_line`. -/
def empty (gsx bg : Nat) : Line :=
  if colourDefault bg then zero else zero.expand gsx gsx bg

/-- Rewrite the entries from `px` on, `nx` of them, by their column. -/
def mapCells (gl : Line) (px nx : Nat) (f : Nat → GridCellEntry → GridCellEntry) : Line :=
  { gl with
    celldata := gl.celldata.mapIdx fun xx gce => if px ≤ xx ∧ xx < px + nx then f xx gce else gce }

/-- The line's bookkeeping for cells written up to column `px`. -/
def use (gl : Line) (px : Nat) (extended : Bool) : Line :=
  { gl with
    cellused := if px > gl.cellused then px else gl.cellused
    flags := if extended then gl.flags ||| gridLineExtended else gl.flags }

/-- The entry at `px`, to decide how it is stored. -/
def entry (gl : Line) (px : Nat) : GridCellEntry := gl.celldata.getD px .zero

/-- `grid_set_cell`, on the line it writes to. -/
def setCell (gsx : Nat) (gl : Line) (px : Nat) (gc : GridCell) : Line :=
  let gl := gl.expand gsx (px + 1) 8
  (gl.use (px + 1) (gridNeedExtendedCell (gl.entry px) gc)).mapCells px 1
    fun _ gce => gridStore gce gc

/-- `grid_set_cells`. -/
def setCells (gsx : Nat) (gl : Line) (px : Nat) (gc : GridCell) (s : List Nat) : Line :=
  let gl := gl.expand gsx (px + s.length) 8
  let extended := (List.range s.length).any fun i =>
    gridNeedExtendedCell (gl.entry (px + i)) gc
  (gl.use (px + s.length) extended).mapCells px s.length
    fun xx gce => gridStore gce { gc with data := [s.getD (xx - px) 0] }

/-- The loop of `grid_clear` on one line. -/
def clear (gsx : Nat) (gl : Line) (px nx bg : Nat) : Line :=
  let sx := if gsx > gl.cellsize then gl.cellsize else gsx
  if colourDefault bg ∧ px > sx then gl
  else
    let ox := if colourDefault bg ∧ px + nx > sx then sx - px else nx
    (gl.expand gsx (px + ox) 8).mapCells px ox fun _ gce => gridClearCell gce bg false

/-- `grid_move_cells`, on the line it changes. -/
def moveCells (gsx : Nat) (gl : Line) (dx px nx bg : Nat) : Line :=
  if nx = 0 ∨ px = dx then gl
  else
    let gl := (gl.expand gsx (px + nx) 8).expand gsx (dx + nx) 8
    let moved := gl.mapCells dx nx fun xx _ => gl.entry (xx - dx + px)
    (moved.use (dx + nx) false).mapCells px nx fun xx gce =>
      if dx ≤ xx ∧ xx < dx + nx then gce else gridClearCell gce bg true

/-- The loop of `grid_line_length`. -/
def lengthLoop (gl : Line) : Nat → Nat
  | 0 => 0
  | px + 1 =>
      if hasFlag (gl.cell px).flags gridFlagPadding ∨ (gl.cell px).data ≠ [32] then px + 1
      else gl.lengthLoop px

/-- `grid_line_length`, in a grid `gsx` columns wide. -/
def length (gsx : Nat) (gl : Line) : Nat :=
  gl.lengthLoop (if gl.cellsize > gsx then gsx else gl.cellsize)

end Line

end Newmux.Live
