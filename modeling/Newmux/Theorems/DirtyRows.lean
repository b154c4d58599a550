import Newmux.Base.TSys
import Newmux.Logic.Writes

/-!
# Dirty rows

The live scrollback redraws the rows output marked dirty, so a row must not
change unmarked. Seven operations of `screen-write.c` rewrite rows without
marking them, and a run of output is covered exactly as far as they find these
rows dirty already.
-/

namespace Newmux.Live

open Newmux.Base Newmux.Tmux

/-- Every visible row whose cells differ from the row at the same position
before is dirty. -/
def DirtyComplete (s s' : Screen) : Prop :=
  ∀ y < s.sy, (∃ px < s.sx, s'.grid.viewGetCell px y ≠ s.grid.viewGetCell px y) →
    y ∈ s'.dirtyRows

instance (s s' : Screen) : Decidable (DirtyComplete s s') :=
  inferInstanceAs (Decidable (∀ y < s.sy, (∃ px < s.sx, _ ≠ _) → y ∈ s'.dirtyRows))

/-- The rows the operation rewrites without marking are dirty already. -/
def FindsDirty (u : Utf8) (s : Screen) (op : WriteOp) : Prop :=
  ∀ y ∈ s.unmarked u op, y ∈ s.dirtyRows

instance (u : Utf8) (s : Screen) (op : WriteOp) : Decidable (FindsDirty u s op) :=
  inferInstanceAs (Decidable (∀ y ∈ s.unmarked u op, y ∈ s.dirtyRows))

namespace Screen

variable {s s' : Screen} {u : Utf8}

/-- A row with the same cell entries shows the same cells. -/
theorem viewGetCell_congr {gd gd' : Grid} {y : Nat} (hsy : gd'.sy = gd.sy)
    (hcells : gd'.viewCells y = gd.viewCells y) (px : Nat) :
    gd'.viewGetCell px y = gd.viewGetCell px y := by
  have hcell : (gd'.getLine (gd'.viewY y)).cell px = (gd.getLine (gd.viewY y)).cell px := by
    unfold Line.cell
    rw [show (gd'.getLine (gd'.viewY y)).celldata = _ from hcells]
    rfl
  unfold Grid.viewGetCell Grid.getCell
  by_cases hy : y < gd.sy
  · rw [if_neg (by unfold Grid.viewY; omega), if_neg (by unfold Grid.viewY; omega)]
    exact hcell
  · rw [if_pos (by unfold Grid.viewY; omega), if_pos (by unfold Grid.viewY; omega)]

/-- What a write does not miss it marks. -/
theorem Writes.dirtyComplete (h : Writes ∅ s s') (hok : s.Ok) : DirtyComplete s s' := by
  intro y _ hdiff
  by_contra hclean
  obtain ⟨px, -, hne⟩ := hdiff
  apply hne
  apply viewGetCell_congr h.sy
  apply h.grid.cells hok.grid
  simpa using hclean

/-- One operation that finds dirty what it does not mark. -/
theorem writes_of_findsDirty (hok : s.Ok) {op : WriteOp} (h : FindsDirty u s op) :
    Writes ∅ s (s.write u op) :=
  (writes_write hok u op).covered h

theorem writes_run (hok : s.Ok) {ops : List WriteOp}
    (h : TSys.RunOk (FindsDirty u) (write u) s ops) :
    Writes ∅ s (TSys.runFrom (write u) s ops) := by
  induction ops generalizing s with
  | nil => exact .refl hok
  | cons op ops ih =>
      have hstep := writes_of_findsDirty hok h.1
      exact hstep.trans (ih hstep.ok h.2)

end Screen

/-- After any run of output each of whose operations finds dirty the rows it does
not mark, every row that changed is dirty. -/
theorem dirtyComplete_of_findsDirty (u : Utf8) (s : Screen) (hok : s.Ok) (ops : List WriteOp)
    (hrun : TSys.RunOk (FindsDirty u) (Screen.write u) s ops) :
    DirtyComplete s (TSys.runFrom (Screen.write u) s ops) :=
  (Screen.writes_run hok hrun).dirtyComplete hok

/-! ## A screen of two rows -/

/-- Tables that know no special character. -/
def plainUtf8 : Utf8 :=
  { isHangulFiller := fun _ => false
    isZwj := fun _ => false
    isVs := fun _ => false
    hasZwj := fun _ => false
    shouldCombine := fun _ _ => false
    hanguljamoCheckState := fun _ _ => .notHanguljamo
    variationSelectorAlwaysWide := false }

/-- One column and two rows, an `a` in the first, the cursor on it and nothing
dirty. -/
def twoRows : Screen :=
  { grid :=
      { sx := 1, sy := 2, hscrolled := 0, hsize := 0, hlimit := 100, history := true
        linedata := [(Line.zero.setCell 1 0 { gridDefaultCell with data := [97] }), .zero]
        oldest := 0 }
    cx := 0, cy := 0, rupper := 0, rlower := 1
    modeInsert := false, modeWrap := true, modeOrigin := false
    dirtyGeneration := 0, dirtyTop := uintMax, dirtyBottom := 0
    item := [], itemCell := gridDefaultCell }

/-- Scrolled up and then cleared, every row dirty from the scrolling. -/
theorem dirtyComplete_twoRows :
    TSys.RunOk (FindsDirty plainUtf8) (Screen.write plainUtf8) twoRows
        [.scrollUp 1 8, .clearScreen 8] ∧
      DirtyComplete twoRows
        (TSys.runFrom (Screen.write plainUtf8) twoRows [.scrollUp 1 8, .clearScreen 8]) := by
  have hrun : TSys.RunOk (FindsDirty plainUtf8) (Screen.write plainUtf8) twoRows
      [.scrollUp 1 8, .clearScreen 8] := by decide
  exact ⟨hrun, dirtyComplete_of_findsDirty _ _ (by decide) _ hrun⟩

/-- A reverse index at the top of the screen moves the `a` down a row and marks
neither row. -/
theorem reverseIndex_unmarked :
    ¬ ∀ (u : Utf8) (s : Screen), s.Ok → s.dirtyTop = uintMax → ∀ ops : List WriteOp,
      DirtyComplete s (TSys.runFrom (Screen.write u) s ops) := by
  intro h
  have hcomplete := h plainUtf8 twoRows (by decide) rfl [.reverseIndex 8]
  revert hcomplete
  decide

end Newmux.Live
