import Mathlib.Tactic

/-!
# Grids

The screen buffer of a pane: `hsize` lines of history above `sy` visible lines.
A line's extended cells are resolved into its cell list, so that duplicating a
line is copying a value.
-/

namespace Newmux.Tmux

/-- A cell as `grid_get_cell` delivers it. -/
structure GridCell where
  flags : Nat
  attr : Nat
  fg : Nat
  bg : Nat
  us : Nat
  link : Nat
  width : Nat
  data : List Nat
deriving DecidableEq, Repr

/-- `GRID_FLAG_CLEARED`. -/
def gridFlagCleared : Nat := 0x40

/-- `grid_default_cell`: one space in the default colours. -/
def gridDefaultCell : GridCell :=
  { flags := 0, attr := 0, fg := 8, bg := 8, us := 8, link := 0, width := 1, data := [32] }

/-- `grid_cells_look_equal`; underline colours are not compared. -/
def gridCellsLookEqual (gc1 gc2 : GridCell) : Bool :=
  gc1.fg == gc2.fg && gc1.bg == gc2.bg && gc1.attr == gc2.attr &&
    (gc1.flags - (gc1.flags &&& gridFlagCleared)) ==
      (gc2.flags - (gc2.flags &&& gridFlagCleared)) &&
    gc1.link == gc2.link

/-- `grid_cells_equal`; `data.size` is the length of the byte list. -/
def gridCellsEqual (gc1 gc2 : GridCell) : Bool :=
  gridCellsLookEqual gc1 gc2 && gc1.width == gc2.width &&
    gc1.data.length == gc2.data.length && gc1.data == gc2.data

/-- One line; `cellsize` is the length of `celldata`. -/
structure GridLine where
  celldata : List GridCell
  cellused : Nat
  flags : Nat
deriving DecidableEq, Repr

/-- A line as `xcalloc` leaves it. -/
def GridLine.empty : GridLine := { celldata := [], cellused := 0, flags := 0 }

structure Grid where
  sx : Nat
  sy : Nat
  hscrolled : Nat
  hsize : Nat
  hlimit : Nat
  linedata : List GridLine
deriving DecidableEq, Repr

namespace Grid

/-- The line array holds exactly the history and the visible lines. -/
def Ok (gd : Grid) : Prop := gd.linedata.length = gd.hsize + gd.sy

instance (gd : Grid) : Decidable gd.Ok := inferInstanceAs (Decidable (_ = _))

/-- The lines scrolled off, oldest first. -/
def history (gd : Grid) : List GridLine := gd.linedata.take gd.hsize

/-- The lines on the screen. -/
def visible (gd : Grid) : List GridLine := gd.linedata.drop gd.hsize

/-- `grid_create`. -/
def create (sx sy hlimit : Nat) : Grid :=
  { sx, sy, hscrolled := 0, hsize := 0, hlimit, linedata := List.replicate sy .empty }

/-- `grid_peek_line`. -/
def peekLine (gd : Grid) (py : Nat) : Option GridLine :=
  if py ≥ gd.hsize + gd.sy then none else gd.linedata[py]?

/-- `grid_get_cell`. -/
def getCell (gd : Grid) (px py : Nat) : GridCell :=
  match gd.peekLine py with
  | none => gridDefaultCell
  | some gl => gl.celldata.getD px gridDefaultCell

/-- `grid_trim_history`: drop the `ny` oldest lines. The zeroed tail the source
leaves behind is past the end once `hsize` is lowered. -/
def trimHistory (gd : Grid) (ny : Nat) : Grid := { gd with linedata := gd.linedata.drop ny }

/-- `grid_collect_history`. -/
def collectHistory (gd : Grid) (all : Bool) : Grid :=
  if gd.hsize = 0 ∨ gd.hsize < gd.hlimit then gd
  else
    let ny := if all then gd.hsize - gd.hlimit else gd.hlimit / 10
    let ny := if ny < 1 then 1 else ny
    let ny := if ny > gd.hsize then gd.hsize else ny
    { gd.trimHistory ny with
      hsize := gd.hsize - ny
      hscrolled := if gd.hscrolled > gd.hsize - ny then gd.hsize - ny else gd.hscrolled }

/-- `grid_clear_history`. -/
def clearHistory (gd : Grid) : Grid :=
  { gd.trimHistory gd.hsize with hscrolled := 0, hsize := 0 }

/-- The copying loop of `grid_duplicate_lines`. -/
def duplicateLoop (src : Grid) : Nat → Nat → Nat → List GridLine → List GridLine
  | 0, _, _, lines => lines
  | ny + 1, dy, sy, lines =>
      duplicateLoop src ny (dy + 1) (sy + 1) (lines.set dy (src.linedata.getD sy .empty))

/-- `grid_duplicate_lines`: copy `ny` lines from `sy` of `src` to `dy`. -/
def duplicateLines (dst : Grid) (dy : Nat) (src : Grid) (sy ny : Nat) : Grid :=
  let ny := if dy + ny > dst.hsize + dst.sy then dst.hsize + dst.sy - dy else ny
  let ny := if sy + ny > src.hsize + src.sy then src.hsize + src.sy - sy else ny
  { dst with linedata := duplicateLoop src ny dy sy dst.linedata }

/-! ## What the operations do to history and screen -/

theorem history_append_visible (gd : Grid) : gd.history ++ gd.visible = gd.linedata :=
  List.take_append_drop _ _

theorem Ok.length_history {gd : Grid} (h : gd.Ok) : gd.history.length = gd.hsize := by
  simp only [history, List.length_take]
  unfold Ok at h
  omega

theorem Ok.length_visible {gd : Grid} (h : gd.Ok) : gd.visible.length = gd.sy := by
  simp only [visible, List.length_drop]
  unfold Ok at h
  omega

@[simp] theorem history_clearHistory (gd : Grid) : gd.clearHistory.history = [] := rfl

@[simp] theorem visible_clearHistory (gd : Grid) : gd.clearHistory.visible = gd.visible := by
  simp [clearHistory, visible, trimHistory]

theorem Ok.clearHistory {gd : Grid} (h : gd.Ok) : gd.clearHistory.Ok := by
  unfold Ok at h ⊢
  simp [Grid.clearHistory, trimHistory, h]

/-- What `grid_collect_history` drops when it collects everything over the
limit: at the limit exactly, still one line. -/
def collected (gd : Grid) : Nat :=
  if gd.hsize = 0 ∨ gd.hsize < gd.hlimit then 0
  else max 1 (gd.hsize - gd.hlimit)

theorem collected_le (gd : Grid) : gd.collected ≤ gd.hsize := by
  unfold collected
  split <;> omega

/-- Collecting drops the oldest lines and leaves the screen alone. -/
theorem collectHistory_eq (gd : Grid) :
    gd.collectHistory true =
      { gd with
        linedata := gd.linedata.drop gd.collected
        hsize := gd.hsize - gd.collected
        hscrolled := if gd.collected = 0 then gd.hscrolled
          else min gd.hscrolled (gd.hsize - gd.collected) } := by
  unfold collectHistory collected
  by_cases h : gd.hsize = 0 ∨ gd.hsize < gd.hlimit
  · simp [h]
  · have h1 : (if gd.hsize - gd.hlimit < 1 then 1 else gd.hsize - gd.hlimit) =
        max 1 (gd.hsize - gd.hlimit) := by split <;> omega
    have h2 : (if max 1 (gd.hsize - gd.hlimit) > gd.hsize then gd.hsize
        else max 1 (gd.hsize - gd.hlimit)) = max 1 (gd.hsize - gd.hlimit) := by split <;> omega
    have h3 : max 1 (gd.hsize - gd.hlimit) ≠ 0 := by omega
    simp only [h, if_false, if_true, h1, h2, h3, trimHistory]
    congr 1
    split <;> omega

theorem history_collectHistory (gd : Grid) :
    (gd.collectHistory true).history = gd.history.drop gd.collected := by
  rw [collectHistory_eq]
  simp only [history]
  rw [List.drop_take]

theorem visible_collectHistory (gd : Grid) :
    (gd.collectHistory true).visible = gd.visible := by
  rw [collectHistory_eq]
  simp only [visible, List.drop_drop]
  have := gd.collected_le
  congr 1
  omega

end Grid

end Newmux.Tmux
