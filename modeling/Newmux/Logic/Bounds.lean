import Newmux.Base.TSys
import Newmux.Live.CopySystem
import Newmux.Logic.Follow

/-!
# The view and the selection stay on the grid

`InBounds`: the view reaches no further back than the history, the cursor is in
it, and every row a selection is made of is a row of the grid. The invariant of
the live copy mode, operation by operation.
-/

namespace Newmux.Live

open Newmux.Base Newmux.Tmux

namespace CopyMode

/-- The view is on the grid, the cursor in the view, and a native selection on the
grid. -/
structure Framed (d : CopyMode) : Prop extends Ok d where
  size : d.sy = d.backing.sy
  cy : d.cy < d.sy
  native : d.nativeSelActive = true → d.nativeSelStartY < d.total ∧ d.nativeSelEndY < d.total
  dragging : d.nativeSelDragging = true → d.nativeSelActive = true ∧ d.nativeSelEdgeY < d.sy

/-- The rows the selection goes by are rows of the grid. -/
structure Held (d : CopyMode) : Prop where
  sel : d.hasLogicalSelection = true → d.sely < d.total ∧ d.endsely < d.total
  line : d.selflag = .line → d.selry < d.total ∧ d.endselry < d.total

structure InBounds (d : CopyMode) : Prop extends Framed d, Held d

variable {e : CopyEnv} {u : Utf8} {d : CopyMode}

/-! ## Rows in view -/

theorem Framed.row_eq (h : d.Framed) (y : Nat) : d.row y = d.top + y := by
  unfold row
  rw [top_of_le h.oy, usub_of_le (by have := h.oy; omega)]
  have := h.oy
  omega

theorem Framed.total_eq (h : d.Framed) : d.total = d.hsize + d.sy := by
  rw [h.size]
  rfl

theorem Framed.row_lt (h : d.Framed) {y : Nat} (hy : y < d.sy) : d.row y < d.total := by
  have hoy := h.oy
  rw [h.row_eq, h.total_eq, top_of_le h.oy]
  omega

theorem Framed.sy_pos (h : d.Framed) : 0 < d.sy := by
  have := h.cy
  omega

theorem InBounds.rowsBelow (h : d.InBounds) (hlogical : d.hasLogicalSelection = true) :
    d.RowsBelow d.total :=
  ⟨(h.sel hlogical).1, (h.sel hlogical).2, h.row_lt h.cy, h.line⟩

/-! ## Cursor and selection -/

/-- The view moved within the history, and the cursor in the view. -/
theorem InBounds.moveView (h : d.InBounds) {oy cx cy : Nat} (hoy : oy ≤ d.hsize)
    (hcy : cy < d.sy) : InBounds { d with oy, cx, cy } :=
  ⟨⟨⟨h.screen, h.live, hoy⟩, h.size, hcy, h.native, h.dragging⟩, h.sel, h.line⟩

theorem Framed.updateCursor (h : d.Framed) (cx : Nat) {cy : Nat} (hcy : cy < d.sy) :
    (d.updateCursor e cx cy).Framed :=
  ⟨⟨h.screen, h.live, h.oy⟩, h.size, hcy, h.native, h.dragging⟩

theorem InBounds.updateCursor (h : d.InBounds) (cx : Nat) {cy : Nat} (hcy : cy < d.sy) :
    (d.updateCursor e cx cy).InBounds :=
  ⟨h.toFramed.updateCursor cx hcy, h.sel, h.line⟩

theorem Framed.updateSelection (h : d.Framed) (noReset : Bool) :
    (d.updateSelection noReset).Framed := by
  obtain ⟨sel, selx, sely, endselx, endsely, heq, -⟩ := updateSelection_eq d noReset
  rw [heq]
  exact ⟨⟨h.screen, h.live, h.oy⟩, h.size, h.cy, h.native, h.dragging⟩

theorem InBounds.updateSelection (h : d.InBounds) (noReset : Bool) :
    (d.updateSelection noReset).InBounds := by
  refine ⟨h.toFramed.updateSelection noReset, ?_⟩
  obtain ⟨sel, selx, sely, endselx, endsely, heq, hrows, hkeep⟩ := updateSelection_eq d noReset
  rw [heq]
  refine ⟨?_, h.line⟩
  intro hlogical'
  cases hlogical : d.hasLogicalSelection with
  | true => exact hrows _ (h.rowsBelow hlogical)
  | false =>
      rw [hkeep hlogical] at hlogical'
      exact absurd hlogical' (by
        show d.hasLogicalSelection ≠ true
        simp [hlogical])

/-- A selection set once its rows are on the grid. -/
theorem InBounds.setSelection (h : d.InBounds) (hlogical : d.hasLogicalSelection = true)
    (noReset : Bool) : (d.setSelection noReset).InBounds := by
  obtain ⟨sel, selx, sely, endselx, endsely, heq, hrows⟩ := setSelection_eq d noReset
  rw [heq]
  exact ⟨⟨⟨h.screen, h.live, h.oy⟩, h.size, h.cy, h.native, h.dragging⟩,
    fun _ => hrows _ (h.rowsBelow hlogical), h.line⟩

theorem Framed.refreshMarks (h : d.Framed) : (d.refreshMarks e).Framed := by
  obtain ⟨search, heq⟩ := refreshMarks_eq e d
  rw [heq]
  exact ⟨⟨h.screen, h.live, h.oy⟩, h.size, h.cy, h.native, h.dragging⟩

theorem InBounds.refreshMarks (h : d.InBounds) : (d.refreshMarks e).InBounds := by
  obtain ⟨search, heq⟩ := refreshMarks_eq e d
  rw [heq]
  exact ⟨⟨⟨h.screen, h.live, h.oy⟩, h.size, h.cy, h.native, h.dragging⟩, h.sel, h.line⟩

/-- A new selection is made of the cursor's row, whatever rows were kept before. -/
theorem Framed.startSelection (h : d.Framed)
    (hline : d.selflag = .line → d.selry < d.total ∧ d.endselry < d.total) :
    d.startSelection.InBounds := by
  have hrow := h.row_lt h.cy
  apply InBounds.setSelection
  · exact ⟨⟨⟨h.screen, h.live, h.oy⟩, h.size, h.cy, h.native, h.dragging⟩,
      fun _ => ⟨hrow, hrow⟩, hline⟩
  · simp [hasLogicalSelection]

theorem lineflag_startSelection (d : CopyMode) : d.startSelection.lineflag = d.lineflag := by
  unfold CopyMode.startSelection
  obtain ⟨sel, selx, sely, endselx, endsely, heq, -⟩ := setSelection_eq
    { d with
      selx := d.cx
      sely := d.row d.cy
      endselx := d.cx
      endsely := d.row d.cy
      cursordrag := .endsel } false
  rw [heq]

/-- Clearing the selection leaves none of its rows. -/
theorem InBounds.clearSelection (h : d.Ok) (hsize : d.sy = d.backing.sy) (hcy : d.cy < d.sy) :
    (d.clearSelection e).InBounds := by
  have hcleared : InBounds
      { d with
        sel := false
        nativeSelActive := false
        nativeSelDragging := false
        nativeSelEdge := 0
        cursordrag := .none
        lineflag := .none
        selflag := .char } := by
    refine ⟨⟨⟨h.screen, h.live, h.oy⟩, hsize, hcy, ?_, ?_⟩, ?_, ?_⟩
    · intro hactive
      cases hactive
    · intro hdragging
      cases hdragging
    · intro hlogical
      exact absurd hlogical (by simp [hasLogicalSelection])
    · intro hline
      cases hline
  unfold CopyMode.clearSelection
  dsimp only
  split
  · exact hcleared.updateCursor _ hcy
  · exact hcleared

/-! ## Scrolling -/

theorem InBounds.scrollUp (h : d.InBounds) (ny : Nat) : (d.scrollUp e ny).InBounds := by
  have hoy := h.oy
  unfold CopyMode.scrollUp
  extract_lets n
  split
  · exact h
  · apply InBounds.updateSelection
    apply InBounds.refreshMarks
    exact h.moveView ((Nat.sub_le _ _).trans hoy) h.cy

/-- The offset after scrolling into the history. -/
theorem scrollDown_oy_le (h : d.oy ≤ d.hsize) {ny : Nat} (hny : ny ≤ d.hsize) :
    d.oy + (if d.oy > d.hsize - ny then usub d.hsize d.oy else ny) ≤ d.hsize := by
  split
  · rw [usub_of_le h]
    omega
  · omega

theorem Framed.scrollDown (h : d.Framed) (ny : Nat) : (d.scrollDown e ny).Framed := by
  unfold CopyMode.scrollDown
  split
  · exact h
  · extract_lets n
    split
    · exact h
    · apply Framed.updateSelection
      apply Framed.refreshMarks
      exact ⟨⟨h.screen, h.live, scrollDown_oy_le h.oy (by omega)⟩, h.size, h.cy, h.native,
        h.dragging⟩

theorem InBounds.scrollDown (h : d.InBounds) (ny : Nat) : (d.scrollDown e ny).InBounds := by
  unfold CopyMode.scrollDown
  split
  · exact h
  · extract_lets n
    split
    · exact h
    · apply InBounds.updateSelection
      apply InBounds.refreshMarks
      exact h.moveView (scrollDown_oy_le h.oy (by omega)) h.cy

/-! ## Cursor moves -/

theorem startOfLineRow_le (gd : Grid) (cy : Nat) : startOfLineRow gd cy ≤ cy := by
  induction cy with
  | zero => exact le_rfl
  | succ cy ih =>
      unfold startOfLineRow
      split
      · omega
      · exact le_rfl

/-- A row that is not below the cursor is above the view or in it. -/
theorem Framed.acquire_lt (h : d.Framed) {py : Nat} (hpy : py ≤ d.row d.cy)
    (hge : ¬ py < d.top) : py - d.top < d.sy := by
  have hcy := h.cy
  rw [h.row_eq] at hpy
  omega

/-- Scrolling moves the view and what depends on it. -/
theorem scrollUp_eq (e : CopyEnv) (d : CopyMode) (ny : Nat) :
    ∃ oy search sel selx sely endselx endsely,
      d.scrollUp e ny = { d with oy, search, sel, selx, sely, endselx, endsely } := by
  unfold CopyMode.scrollUp
  extract_lets n
  split
  · exact ⟨_, _, _, _, _, _, _, rfl⟩
  · obtain ⟨search, sel, selx, sely, endselx, endsely, heq⟩ :=
      refreshed_eq e { d with oy := d.oy - n } false
    exact ⟨_, _, _, _, _, _, _, heq⟩

theorem scrollDown_eq (e : CopyEnv) (d : CopyMode) (ny : Nat) :
    ∃ oy search sel selx sely endselx endsely,
      d.scrollDown e ny = { d with oy, search, sel, selx, sely, endselx, endsely } := by
  unfold CopyMode.scrollDown
  split
  · exact ⟨_, _, _, _, _, _, _, rfl⟩
  · extract_lets n
    split
    · exact ⟨_, _, _, _, _, _, _, rfl⟩
    · obtain ⟨search, sel, selx, sely, endselx, endsely, heq⟩ :=
        refreshed_eq e { d with oy := d.oy + n } false
      exact ⟨_, _, _, _, _, _, _, heq⟩

theorem sy_scrollUp (e : CopyEnv) (d : CopyMode) (ny : Nat) : (d.scrollUp e ny).sy = d.sy := by
  obtain ⟨oy, search, sel, selx, sely, endselx, endsely, heq⟩ := scrollUp_eq e d ny
  rw [heq]

theorem lineflag_scrollUp (e : CopyEnv) (d : CopyMode) (ny : Nat) :
    (d.scrollUp e ny).lineflag = d.lineflag := by
  obtain ⟨oy, search, sel, selx, sely, endselx, endsely, heq⟩ := scrollUp_eq e d ny
  rw [heq]

theorem lineflag_scrollDown (e : CopyEnv) (d : CopyMode) (ny : Nat) :
    (d.scrollDown e ny).lineflag = d.lineflag := by
  obtain ⟨oy, search, sel, selx, sely, endselx, endsely, heq⟩ := scrollDown_eq e d ny
  rw [heq]

theorem lineflag_updateSelection (d : CopyMode) (noReset : Bool) :
    (d.updateSelection noReset).lineflag = d.lineflag := by
  obtain ⟨sel, selx, sely, endselx, endsely, heq, -⟩ := updateSelection_eq d noReset
  rw [heq]

theorem lineflag_acquireCursorUp (e : CopyEnv) (d : CopyMode) (px py : Nat) :
    (d.acquireCursorUp e px py).lineflag = d.lineflag := by
  unfold CopyMode.acquireCursorUp
  dsimp only
  rw [lineflag_updateSelection]
  split
  · exact Function.Iterate.rec (fun d' => d'.lineflag = d.lineflag)
      (f := (CopyMode.scrollDown e · 1)) rfl
      (fun d' hd => (lineflag_scrollDown e d' 1).trans hd) (d.top - py)
  · rfl

theorem lineflag_acquireCursorDown (e : CopyEnv) (d : CopyMode) (px py : Nat) (noReset : Bool) :
    (d.acquireCursorDown e px py noReset).lineflag = d.lineflag := by
  unfold CopyMode.acquireCursorDown
  dsimp only
  rw [lineflag_updateSelection]
  split
  · exact Function.Iterate.rec (fun d' => d'.lineflag = d.lineflag)
      (f := (CopyMode.scrollUp e · 1)) rfl
      (fun d' hd => (lineflag_scrollUp e d' 1).trans hd) _
  · rfl

theorem Framed.acquireCursorUp (h : d.Framed) (px : Nat) {py : Nat} (hpy : py ≤ d.row d.cy) :
    (d.acquireCursorUp e px py).Framed := by
  unfold CopyMode.acquireCursorUp
  dsimp only
  apply Framed.updateSelection
  split
  · have hscrolled := Function.Iterate.rec Framed (f := (CopyMode.scrollDown e · 1)) h
      (fun _ hd => hd.scrollDown 1) (d.top - py)
    exact hscrolled.updateCursor _ hscrolled.sy_pos
  · exact h.updateCursor _ (h.acquire_lt hpy (by assumption))

theorem InBounds.acquireCursorUp (h : d.InBounds) (px : Nat) {py : Nat}
    (hpy : py ≤ d.row d.cy) : (d.acquireCursorUp e px py).InBounds := by
  unfold CopyMode.acquireCursorUp
  dsimp only
  apply InBounds.updateSelection
  split
  · have hscrolled := Function.Iterate.rec InBounds (f := (CopyMode.scrollDown e · 1)) h
      (fun _ hd => hd.scrollDown 1) (d.top - py)
    exact hscrolled.updateCursor _ hscrolled.sy_pos
  · exact h.updateCursor _ (h.acquire_lt hpy (by assumption))

theorem InBounds.acquireCursorDown (h : d.InBounds) (px py : Nat) (noReset : Bool) :
    (d.acquireCursorDown e px py noReset).InBounds := by
  have hsy := h.sy_pos
  have hsize := h.size
  unfold CopyMode.acquireCursorDown
  dsimp only
  apply InBounds.updateSelection
  split
  · have hscrolled := Function.Iterate.rec (fun d' => InBounds d' ∧ d'.sy = d.sy)
      (f := (CopyMode.scrollUp e · 1)) ⟨h, rfl⟩
      (fun d' hd => ⟨hd.1.scrollUp 1, (sy_scrollUp e d' 1).trans hd.2⟩)
      (usub (py + d.oy) d.hsize - (d.backing.sy - 1))
    apply hscrolled.1.updateCursor
    rw [hscrolled.2]
    omega
  · apply h.updateCursor
    omega

theorem Framed.cursorStartOfLine (h : d.Framed) : (d.cursorStartOfLine e).Framed :=
  h.acquireCursorUp _ (startOfLineRow_le _ _)

theorem InBounds.cursorStartOfLine (h : d.InBounds) : (d.cursorStartOfLine e).InBounds :=
  h.acquireCursorUp _ (startOfLineRow_le _ _)

theorem InBounds.cursorEndOfLine (h : d.InBounds) : (d.cursorEndOfLine e).InBounds :=
  h.acquireCursorDown _ _ _

/-- The row a jump to the other end of the selection goes to is the one just below
the view, which `window_copy_other_end` takes to be in it. -/
def Slips (d : CopyMode) : Prop := d.otherRow = d.top + d.sy

instance (d : CopyMode) : Decidable d.Slips := inferInstanceAs (Decidable (_ = _))

theorem InBounds.otherEnd (h : d.InBounds)
    (hslip : d.sel = true ∨ d.lineflag ≠ .none → ¬ d.Slips) : (d.otherEnd e).InBounds := by
  unfold CopyMode.otherEnd
  split
  · exact h
  · rename_i hshown
    have hslip := hslip (by
      cases hsel : d.sel
      · exact .inr fun hnone => hshown (by simp [hsel, hnone])
      · exact .inl rfl)
    have hlogical : d.hasLogicalSelection = true := by
      unfold hasLogicalSelection
      cases hsel : d.sel <;> cases hflag : d.lineflag <;> simp_all
    have hrows := h.sel hlogical
    have hrow : d.otherRow < d.total := by
      unfold otherRow
      split
      · exact hrows.1
      · exact hrows.2
    have hoy := h.oy
    have hcy := h.cy
    have htop := top_of_le h.oy
    have hcursor := h.row_eq d.cy
    rw [h.total_eq] at hrow
    unfold Slips at hslip
    extract_lets toStart selx sely d1 d2 limit
    -- The jump leaves everything but the view and the cursor's row as it was.
    have hjump : d2.InBounds := by
      have hjumped : ∀ oy cy, oy ≤ d.hsize → cy < d.sy →
          InBounds { d1 with oy, cy } := by
        intro oy cy hoy hcy
        exact ⟨⟨⟨h.screen, h.live, hoy⟩, h.size, hcy, h.native, h.dragging⟩, fun _ => hrows, h.line⟩
      show InBounds (if sely < d1.top then _ else if sely > d1.top + d1.sy then _ else _)
      have hsame : d1.top = d.top ∧ d1.sy = d.sy ∧ d1.row d1.cy = d.row d.cy := ⟨rfl, rfl, rfl⟩
      rw [hsame.1, hsame.2.1]
      split
      · apply hjumped
        · show usub d.hsize sely ≤ d.hsize
          rw [usub_of_le (by omega)]
          omega
        · exact h.sy_pos
      · split
        · apply hjumped
          · show usub (d.hsize + d.sy - 1) sely ≤ d.hsize
            rw [usub_of_le (by omega)]
            omega
          · show d.sy - 1 < d.sy
            omega
        · apply hjumped
          · exact hoy
          · show usub (d.cy + sely) (d1.row d1.cy) < d.sy
            rw [hsame.2.2, hcursor, usub_of_le (by omega)]
            omega
    apply InBounds.updateSelection
    exact hjump.moveView hjump.oy hjump.cy

/-! ## Up, down and by pages -/

/-- The cursor leaves the first line of the selection, which switches its ends. -/
def JumpsUp (d : CopyMode) : Prop := d.lineflag = .leftRight ∧ d.row d.cy = d.sely

/-- The cursor leaves the last line of the selection. -/
def JumpsDown (d : CopyMode) : Prop := d.lineflag = .rightLeft ∧ d.row d.cy = d.endsely

instance (d : CopyMode) : Decidable d.JumpsUp := inferInstanceAs (Decidable (_ ∧ _))
instance (d : CopyMode) : Decidable d.JumpsDown := inferInstanceAs (Decidable (_ ∧ _))

theorem keepColumn_eq (d : CopyMode) :
    ∃ lastcx lastsx, d.keepColumn = { d with lastcx, lastsx } := by
  unfold keepColumn
  extract_lets ox
  split <;> exact ⟨_, _, rfl⟩

theorem InBounds.keepColumn (h : d.InBounds) : d.keepColumn.InBounds := by
  obtain ⟨lastcx, lastsx, heq⟩ := keepColumn_eq d
  rw [heq]
  exact ⟨⟨⟨h.screen, h.live, h.oy⟩, h.size, h.cy, h.native, h.dragging⟩, h.sel, h.line⟩

/-- A step of the cursor along a line. -/
theorem InBounds.moveTo (h : d.InBounds) (cx : Nat) {cy : Nat} (hcy : cy < d.sy) :
    ((d.updateCursor e cx cy).updateSelection false).InBounds :=
  (h.updateCursor cx hcy).updateSelection false

theorem InBounds.settle (h : d.InBounds) (norectsel : Bool) : (d.settle e norectsel).InBounds := by
  unfold CopyMode.settle
  extract_lets d'
  have hsettled : d'.InBounds := by
    show (if _ then _ else _ : CopyMode).InBounds
    split
    · exact h.moveTo _ h.cy
    · exact h
  split
  · exact hsettled.moveTo _ hsettled.cy
  · exact hsettled.moveTo _ hsettled.cy
  · exact hsettled

/-- What `cursor-up` and `cursor-down` do before they move. -/
theorem InBounds.beforeMove (h : d.InBounds) (norectsel : Bool) (p : Prop) [Decidable p]
    (hslip : p → ¬ d.Slips) :
    (if p then (if norectsel then d.keepColumn else d).otherEnd e
      else if norectsel then d.keepColumn else d).InBounds := by
  have hkept : (if norectsel then d.keepColumn else d).InBounds := by
    split
    · exact h.keepColumn
    · exact h
  split
  · rename_i hp
    apply hkept.otherEnd
    intro _
    split
    · obtain ⟨lastcx, lastsx, heq⟩ := keepColumn_eq d
      rw [heq]
      exact hslip hp
    · exact hslip hp
  · exact hkept

/-- The columns kept are no part of the selection. -/
theorem kept_eq (d : CopyMode) (norectsel : Bool) :
    ∃ lastcx lastsx, (if norectsel then d.keepColumn else d) = { d with lastcx, lastsx } := by
  split
  · exact keepColumn_eq d
  · exact ⟨_, _, rfl⟩

theorem InBounds.cursorUp (h : d.InBounds) (hslip : d.JumpsUp → ¬ d.Slips) :
    (d.cursorUp e).InBounds := by
  unfold CopyMode.cursorUp
  extract_lets norectsel row d1 d2 cx d3
  have hmoved : d2.InBounds := by
    apply h.beforeMove norectsel
    obtain ⟨lastcx, lastsx, heq⟩ := kept_eq d norectsel
    have heq : d1 = _ := heq
    rw [heq]
    exact hslip
  apply InBounds.settle
  show (if d2.cy = 0 then _ else _ : CopyMode).InBounds
  split
  · apply InBounds.scrollDown
    exact hmoved.moveView hmoved.oy hmoved.cy
  · have := hmoved.cy
    exact hmoved.moveTo _ (by omega)

theorem InBounds.cursorDown (h : d.InBounds) (hslip : d.JumpsDown → ¬ d.Slips) :
    (d.cursorDown e).InBounds := by
  unfold CopyMode.cursorDown
  extract_lets norectsel row d1 d2 cx d3
  have hmoved : d2.InBounds := by
    apply h.beforeMove norectsel
    obtain ⟨lastcx, lastsx, heq⟩ := kept_eq d norectsel
    have heq : d1 = _ := heq
    rw [heq]
    exact hslip
  apply InBounds.settle
  show (if d2.cy = d2.sy - 1 then _ else _ : CopyMode).InBounds
  split
  · apply InBounds.scrollUp
    exact hmoved.moveView hmoved.oy hmoved.cy
  · have := hmoved.cy
    exact hmoved.moveTo _ (by omega)

theorem InBounds.settlePage (h : d.InBounds) : (d.settlePage e).InBounds := by
  unfold CopyMode.settlePage
  split
  · exact h.cursorEndOfLine
  · exact h

theorem InBounds.pageUp (h : d.InBounds) (half : Bool) : (d.pageUp e half).InBounds := by
  unfold CopyMode.pageUp
  extract_lets kept n moved
  have hkept : kept.InBounds := h.keepColumn
  have hcy := hkept.cy
  apply InBounds.updateSelection
  apply InBounds.refreshMarks
  apply InBounds.settlePage
  show (if kept.oy + n > kept.hsize then _ else _ : CopyMode).InBounds
  split
  · apply hkept.moveView le_rfl
    split <;> omega
  · exact hkept.moveView (by omega) hcy

theorem InBounds.pageDown (h : d.InBounds) (half scrollExit : Bool) {d' : CopyMode}
    (hd : d.pageDown e half scrollExit = some d') : d'.InBounds := by
  unfold CopyMode.pageDown at hd
  extract_lets kept n moved settled at hd
  have hkept : kept.InBounds := h.keepColumn
  have hcy := hkept.cy
  have hoy := hkept.oy
  have hsize := hkept.size
  have hmoved : moved.InBounds := by
    show (if kept.oy < n then _ else _ : CopyMode).InBounds
    split
    · apply hkept.moveView (Nat.zero_le _)
      split <;> omega
    · exact hkept.moveView ((Nat.sub_le _ _).trans hoy) hcy
  split at hd
  · cases hd
  · cases hd
    exact (hmoved.settlePage.refreshMarks).updateSelection false

theorem InBounds.historyTop (h : d.InBounds) (hslip : d.JumpsUp → ¬ d.Slips) :
    (d.historyTop e).InBounds := by
  unfold CopyMode.historyTop
  extract_lets d1
  have hjumped : d1.InBounds := by
    show (if _ then _ else _ : CopyMode).InBounds
    split
    · exact h.otherEnd fun _ => hslip (by assumption)
    · exact h
  apply InBounds.updateSelection
  apply InBounds.refreshMarks
  exact hjumped.moveView le_rfl hjumped.sy_pos

theorem InBounds.historyBottom (h : d.InBounds) (hslip : d.JumpsDown → ¬ d.Slips) :
    (d.historyBottom e).InBounds := by
  unfold CopyMode.historyBottom
  extract_lets d1
  have hjumped : d1.InBounds := by
    show (if _ then _ else _ : CopyMode).InBounds
    split
    · exact h.otherEnd fun _ => hslip (by assumption)
    · exact h
  have hsy := hjumped.sy_pos
  apply InBounds.updateSelection
  apply InBounds.refreshMarks
  exact hjumped.moveView (Nat.zero_le _) (by omega)

/-! ## Selecting -/

theorem InBounds.beginSelection (h : d.InBounds) : d.beginSelection.InBounds := by
  apply Framed.startSelection
  · exact ⟨⟨h.screen, h.live, h.oy⟩, h.size, h.cy, h.native, h.dragging⟩
  · intro hline
    cases hline

theorem InBounds.stopSelection (h : d.InBounds) : d.stopSelection.InBounds := by
  refine ⟨⟨⟨h.screen, h.live, h.oy⟩, h.size, h.cy, h.native, ?_⟩, ?_, ?_⟩
  · intro hdragging
    cases hdragging
  · intro hlogical
    apply h.sel
    unfold CopyMode.stopSelection at hlogical
    unfold hasLogicalSelection at *
    simp only [Bool.or_eq_true] at hlogical ⊢
    simp at hlogical
    tauto
  · intro hline
    cases hline

theorem InBounds.rectangleSet (h : d.InBounds) (on : Bool) : (d.rectangleSet e on).InBounds := by
  unfold CopyMode.rectangleSet
  extract_lets d1 px
  have hset : d1.InBounds := by
    refine ⟨⟨⟨h.screen, h.live, h.oy⟩, h.size, h.cy, h.native, h.dragging⟩, ?_, h.line⟩
    intro hlogical
    apply h.sel
    unfold hasLogicalSelection at *
    simp only [Bool.or_eq_true] at hlogical ⊢
    rcases hlogical with ((hsel | hnative) | hflag) | hdrag
    · exact .inl (.inl (.inl hsel))
    · exact .inl (.inl (.inr hnative))
    · have hflag : (LineSel.none != LineSel.none) = true := hflag
      exact absurd hflag (by decide)
    · exact .inr hdrag
  apply InBounds.updateSelection
  split
  · exact hset.updateCursor _ h.cy
  · exact hset

/-- Selecting a line needs no selection to start from: it replaces whatever rows
were kept. -/
theorem InBounds.selectFirstLine (h : d.InBounds) :
    (d.selectFirstLine e).InBounds ∧ (d.selectFirstLine e).lineflag = .leftRight := by
  unfold CopyMode.selectFirstLine
  extract_lets started selected
  -- Until the line's own rows are set only the view is in order.
  have hstarted : started.Framed ∧ started.lineflag = .leftRight := by
    constructor
    · apply Framed.cursorStartOfLine
      exact ⟨⟨h.screen, h.live, h.oy⟩, h.size, h.cy, h.native, h.dragging⟩
    · exact lineflag_acquireCursorUp e _ _ _
  have hframed := hstarted.1
  have hrow := hframed.row_lt hframed.cy
  have hselected : selected.InBounds ∧ selected.lineflag = .leftRight := by
    constructor
    · apply InBounds.cursorEndOfLine
      apply Framed.startSelection
      · exact ⟨⟨hframed.screen, hframed.live, hframed.oy⟩, hframed.size, hframed.cy,
          hframed.native, hframed.dragging⟩
      · exact fun _ => ⟨hrow, hrow⟩
    · exact (lineflag_acquireCursorDown _ _ _ _ _).trans
        ((lineflag_startSelection _).trans hstarted.2)
  clear_value selected
  have hsel := hselected.1
  have hrow := hsel.row_lt hsel.cy
  refine ⟨⟨⟨⟨hsel.screen, hsel.live, hsel.oy⟩, hsel.size, hsel.cy, hsel.native, hsel.dragging⟩,
    hsel.sel, ?_⟩, hselected.2⟩
  intro hline
  exact ⟨(hsel.line hline).1, hrow⟩

theorem lineflag_settle (e : CopyEnv) (d : CopyMode) (norectsel : Bool) :
    (d.settle e norectsel).lineflag = d.lineflag := by
  unfold CopyMode.settle
  extract_lets d'
  have hkept : d'.lineflag = d.lineflag := by
    show (if _ then _ else _ : CopyMode).lineflag = _
    split
    · exact lineflag_updateSelection _ _
    · rfl
  split
  · exact (lineflag_updateSelection _ _).trans hkept
  · exact (lineflag_updateSelection _ _).trans hkept
  · exact hkept

/-- Lines selected left to right have nothing to switch on the way down. -/
theorem lineflag_cursorDown (h : d.lineflag = .leftRight) :
    (d.cursorDown e).lineflag = .leftRight := by
  unfold CopyMode.cursorDown
  extract_lets norectsel row d1 d2 cx d3
  obtain ⟨lastcx, lastsx, heq⟩ := kept_eq d norectsel
  have hkept : d1.lineflag = .leftRight := by
    have heq : d1 = _ := heq
    rw [heq]
    exact h
  have hstayed : d2 = d1 := if_neg (by simp [hkept])
  rw [lineflag_settle]
  show (if d2.cy = d2.sy - 1 then _ else _ : CopyMode).lineflag = _
  split
  · rw [lineflag_scrollUp, hstayed]
    exact hkept
  · rw [lineflag_updateSelection, hstayed]
    exact hkept

theorem InBounds.downLines (h : d.InBounds) (hflag : d.lineflag = .leftRight) (n : Nat) :
    (downLines e n d).InBounds := by
  induction n generalizing d with
  | zero => exact h
  | succ n ih =>
      apply ih
      · apply InBounds.cursorEndOfLine
        apply h.cursorDown
        intro hjump
        exact absurd (hflag.symm.trans hjump.1) (by decide)
      · exact (lineflag_acquireCursorDown _ _ _ _ _).trans (lineflag_cursorDown hflag)

theorem InBounds.selectLine (h : d.InBounds) (np : Nat) : (d.selectLine e np).InBounds :=
  h.selectFirstLine.1.downLines h.selectFirstLine.2 _

/-- Going down `n` lines, none of the moves makes a jump that slips. -/
def DownSafe (e : CopyEnv) (n : Nat) (d : CopyMode) : Prop :=
  ∀ k < n, ((cursorDown e)^[k] d).JumpsDown → ¬ ((cursorDown e)^[k] d).Slips

instance (e : CopyEnv) (n : Nat) (d : CopyMode) : Decidable (d.DownSafe e n) :=
  inferInstanceAs (Decidable (∀ k < n, _ → _))

theorem InBounds.iterate_cursorDown (h : d.InBounds) {n : Nat} (hsafe : d.DownSafe e n) :
    ((CopyMode.cursorDown e)^[n] d).InBounds := by
  induction n with
  | zero => exact h
  | succ n ih =>
      rw [Function.iterate_succ_apply']
      apply InBounds.cursorDown
      · exact ih fun k hk => hsafe k (by omega)
      · exact hsafe n (by omega)

theorem InBounds.selectToEnd (h : d.InBounds) {np : Nat}
    (hsafe : d.startSelection.DownSafe e (np - 1)) : (d.selectToEnd e np).InBounds :=
  ((h.toFramed.startSelection h.line).iterate_cursorDown hsafe).cursorEndOfLine

/-- Where `copy-line` starts its selection. -/
def lineStart (e : CopyEnv) (d : CopyMode) : CopyMode :=
  { d with selflag := .char }.cursorStartOfLine e

theorem InBounds.lineStart (h : d.InBounds) : (d.lineStart e).InBounds := by
  apply InBounds.cursorStartOfLine
  refine ⟨⟨⟨h.screen, h.live, h.oy⟩, h.size, h.cy, h.native, h.dragging⟩, h.sel, ?_⟩
  intro hline
  cases hline

theorem InBounds.selectWholeLine (h : d.InBounds) {np : Nat}
    (hsafe : (d.lineStart e).startSelection.DownSafe e (np - 1)) :
    (d.selectWholeLine e np).InBounds :=
  h.lineStart.selectToEnd hsafe

/-! ## What the moves leave alone -/

/-- A move: the same grid under a view of the same height, and the wheel as it was. -/
structure Moves (d d' : CopyMode) : Prop where
  backing : d'.backing = d.backing
  sy : d'.sy = d.sy
  wheel : d'.wheel = d.wheel

theorem Moves.trans {d' d'' : CopyMode} (h : Moves d d') (h' : Moves d' d'') :
    Moves d d'' :=
  ⟨h'.backing.trans h.backing, h'.sy.trans h.sy, h'.wheel.trans h.wheel⟩

theorem moves_updateSelection (d : CopyMode) (noReset : Bool) :
    Moves d (d.updateSelection noReset) := by
  obtain ⟨sel, selx, sely, endselx, endsely, heq, -⟩ := updateSelection_eq d noReset
  rw [heq]
  exact ⟨rfl, rfl, rfl⟩

theorem moves_startSelection (d : CopyMode) : Moves d d.startSelection := by
  unfold CopyMode.startSelection
  obtain ⟨sel, selx, sely, endselx, endsely, heq, -⟩ := setSelection_eq
    { d with
      selx := d.cx, sely := d.row d.cy, endselx := d.cx, endsely := d.row d.cy
      cursordrag := .endsel } false
  rw [heq]
  exact ⟨rfl, rfl, rfl⟩

theorem moves_scrollUp (e : CopyEnv) (d : CopyMode) (ny : Nat) :
    Moves d (d.scrollUp e ny) := by
  obtain ⟨oy, search, sel, selx, sely, endselx, endsely, heq⟩ := scrollUp_eq e d ny
  rw [heq]
  exact ⟨rfl, rfl, rfl⟩

theorem moves_scrollDown (e : CopyEnv) (d : CopyMode) (ny : Nat) :
    Moves d (d.scrollDown e ny) := by
  obtain ⟨oy, search, sel, selx, sely, endselx, endsely, heq⟩ := scrollDown_eq e d ny
  rw [heq]
  exact ⟨rfl, rfl, rfl⟩

theorem moves_moveTo (e : CopyEnv) (d : CopyMode) (cx cy : Nat) (noReset : Bool) :
    Moves d ((d.updateCursor e cx cy).updateSelection noReset) := by
  refine .trans ?_ (moves_updateSelection _ _)
  exact ⟨rfl, rfl, rfl⟩

theorem moves_acquireCursorUp (e : CopyEnv) (d : CopyMode) (px py : Nat) :
    Moves d (d.acquireCursorUp e px py) := by
  unfold CopyMode.acquireCursorUp
  dsimp only
  split
  · exact .trans (Function.Iterate.rec (Moves d) (f := (CopyMode.scrollDown e · 1)) ⟨rfl, rfl, rfl⟩
      (fun d' hd => hd.trans (moves_scrollDown e d' 1)) (d.top - py))
      (moves_moveTo _ _ _ _ _)
  · exact moves_moveTo _ _ _ _ _

theorem moves_acquireCursorDown (e : CopyEnv) (d : CopyMode) (px py : Nat) (noReset : Bool) :
    Moves d (d.acquireCursorDown e px py noReset) := by
  unfold CopyMode.acquireCursorDown
  dsimp only
  split
  · exact .trans (Function.Iterate.rec (Moves d) (f := (CopyMode.scrollUp e · 1)) ⟨rfl, rfl, rfl⟩
      (fun d' hd => hd.trans (moves_scrollUp e d' 1)) _)
      (moves_moveTo _ _ _ _ _)
  · exact moves_moveTo _ _ _ _ _

theorem moves_otherEnd (e : CopyEnv) (d : CopyMode) : Moves d (d.otherEnd e) := by
  unfold CopyMode.otherEnd
  split
  · exact ⟨rfl, rfl, rfl⟩
  · extract_lets toStart selx sely d1 d2 limit
    have hmoved : Moves d d2 := by
      show Moves d (if _ then _ else if _ then _ else _)
      split
      · exact ⟨rfl, rfl, rfl⟩
      · split <;> exact ⟨rfl, rfl, rfl⟩
    refine .trans ?_ (moves_updateSelection _ _)
    exact ⟨hmoved.backing, hmoved.sy, hmoved.wheel⟩

theorem moves_settle (e : CopyEnv) (d : CopyMode) (norectsel : Bool) :
    Moves d (d.settle e norectsel) := by
  unfold CopyMode.settle
  extract_lets d'
  have hkept : Moves d d' := by
    show Moves d (if _ then _ else _)
    split
    · exact moves_moveTo _ _ _ _ _
    · exact ⟨rfl, rfl, rfl⟩
  split
  · exact hkept.trans (moves_moveTo _ _ _ _ _)
  · exact hkept.trans (moves_moveTo _ _ _ _ _)
  · exact hkept

theorem moves_cursorDown (e : CopyEnv) (d : CopyMode) : Moves d (d.cursorDown e) := by
  unfold CopyMode.cursorDown
  extract_lets norectsel row d1 d2 cx d3
  obtain ⟨lastcx, lastsx, heq⟩ := kept_eq d norectsel
  have hkept : Moves d d1 := by
    have heq : d1 = _ := heq
    rw [heq]
    exact ⟨rfl, rfl, rfl⟩
  have hturned : Moves d d2 := by
    show Moves d (if _ then _ else _)
    split
    · exact hkept.trans (moves_otherEnd e d1)
    · exact hkept
  refine .trans ?_ (moves_settle _ _ _)
  show Moves d (if d2.cy = d2.sy - 1 then _ else _)
  split
  · refine .trans ?_ (moves_scrollUp _ _ _)
    exact ⟨hturned.backing, hturned.sy, hturned.wheel⟩
  · exact hturned.trans (moves_moveTo _ _ _ _ _)

theorem moves_selectToEnd (e : CopyEnv) (d : CopyMode) (np : Nat) :
    Moves d (d.selectToEnd e np) := by
  have hdown := Function.Iterate.rec (Moves d) (f := CopyMode.cursorDown e)
    (moves_startSelection d) (fun d' hd => hd.trans (moves_cursorDown e d')) (np - 1)
  exact hdown.trans (moves_acquireCursorDown _ _ _ _ _)

theorem moves_lineStart (e : CopyEnv) (d : CopyMode) : Moves d (d.lineStart e) := by
  refine .trans ?_ (moves_acquireCursorUp _ _ _ _)
  exact ⟨rfl, rfl, rfl⟩

theorem moves_selectWholeLine (e : CopyEnv) (d : CopyMode) (np : Nat) :
    Moves d (d.selectWholeLine e np) :=
  (moves_lineStart e d).trans (moves_selectToEnd e _ np)

theorem InBounds.restoreCursor (h : d.InBounds) {selected : CopyMode} (hsel : selected.InBounds)
    (hsame : Moves d selected) : (restoreCursor e d selected).InBounds := by
  have hcleared := InBounds.clearSelection (e := e) hsel.toOk hsel.size hsel.cy
  have hframe : Moves selected (selected.clearSelection e) := by
    unfold CopyMode.clearSelection
    dsimp only
    split <;> exact ⟨rfl, rfl, rfl⟩
  have hboth := hsame.trans hframe
  apply hcleared.moveView
  · unfold hsize
    rw [hboth.backing]
    exact h.oy
  · rw [hboth.sy]
    exact h.cy

/-! ## The mouse -/

theorem mouseAt_lt {m : Mouse} {x y : Nat} (h : d.mouseAt m = some (x, y)) : y < d.sy := by
  unfold mouseAt at h
  split at h
  · cases h
  · cases h
    omega

theorem InBounds.moveMouse (h : d.InBounds) (m : Mouse) : (d.moveMouse e m).InBounds := by
  unfold CopyMode.moveMouse
  split
  · exact h
  · exact h.updateCursor _ (mouseAt_lt (by assumption))

theorem dragAt_lt (hsy : 0 < d.sy) {m : Mouse} {x y : Nat} (h : d.dragAt m = some (x, y)) :
    y < d.sy := by
  unfold dragAt at h
  split at h
  · rename_i x' y' hat
    cases h
    exact mouseAt_lt hat
  · split at h
    · cases h
    · split at h
      · cases h
        exact hsy
      · split at h
        · cases h
          omega
        · cases h

/-- The native selection put in place of the other. -/
theorem InBounds.nativeSelectionSync (h : d.Framed) (hactive : d.nativeSelActive = true)
    (hline : d.selflag = .line → d.selry < d.total ∧ d.endselry < d.total) :
    d.nativeSelectionSync.InBounds := by
  apply InBounds.setSelection
  · exact ⟨⟨⟨h.screen, h.live, h.oy⟩, h.size, h.cy, h.native, h.dragging⟩,
      fun _ => h.native hactive, hline⟩
  · show (_ || d.nativeSelActive || _ || _) = true
    simp [hactive]

theorem InBounds.nativeEnd (h : d.InBounds) (hdragging : d.nativeSelDragging = true) (x : Nat) :
    (d.nativeEnd x).InBounds := by
  have hactive := (h.dragging hdragging).1
  have hedge := h.row_lt (h.dragging hdragging).2
  apply InBounds.nativeSelectionSync
  · exact ⟨⟨h.screen, h.live, h.oy⟩, h.size, h.cy, fun _ => ⟨(h.native hactive).1, hedge⟩,
      h.dragging⟩
  · exact hactive
  · exact h.line

/-- A drag at the edge it has reached. -/
theorem InBounds.withEdge (h : d.InBounds) (edge : Int) (x : Nat) {y : Nat} (hy : y < d.sy) :
    InBounds { d with nativeSelEdge := edge, nativeSelEdgeX := x, nativeSelEdgeY := y } :=
  ⟨⟨⟨h.screen, h.live, h.oy⟩, h.size, h.cy, h.native,
    fun hdragging => ⟨(h.dragging hdragging).1, hy⟩⟩, h.sel, h.line⟩

theorem nativeSelDragging_scrollUp (e : CopyEnv) (d : CopyMode) (ny : Nat) :
    (d.scrollUp e ny).nativeSelDragging = d.nativeSelDragging := by
  obtain ⟨oy, search, sel, selx, sely, endselx, endsely, heq⟩ := scrollUp_eq e d ny
  rw [heq]

theorem nativeSelDragging_scrollDown (e : CopyEnv) (d : CopyMode) (ny : Nat) :
    (d.scrollDown e ny).nativeSelDragging = d.nativeSelDragging := by
  obtain ⟨oy, search, sel, selx, sely, endselx, endsely, heq⟩ := scrollDown_eq e d ny
  rw [heq]

theorem InBounds.dragUpdate (h : d.InBounds) (m : Mouse) : (d.dragUpdate e m).InBounds := by
  have hsy := h.sy_pos
  unfold CopyMode.dragUpdate
  split
  · exact ⟨⟨⟨h.screen, h.live, h.oy⟩, h.size, h.cy, h.native, h.dragging⟩, h.sel, h.line⟩
  · rename_i x y hat
    have hy := dragAt_lt hsy hat
    dsimp only
    split
    · rename_i hdragging
      apply InBounds.nativeEnd
      · split
        · exact (h.withEdge _ _ hsy).scrollDown 1
        · split
          · exact (h.withEdge _ _ (by omega)).scrollUp 1
          · exact h.withEdge _ _ hy
      · split
        · exact (nativeSelDragging_scrollDown _ _ _).trans hdragging
        · split
          · exact (nativeSelDragging_scrollUp _ _ _).trans hdragging
          · exact hdragging
    · have hmoved := h.moveTo (e := e) (d.cursorUnoffset e x) hy
      split
      · split
        · exact hmoved.scrollDown 1
        · split
          · exact hmoved.scrollUp 1
          · exact hmoved
      · exact hmoved

theorem InBounds.startDrag (h : d.InBounds) (last m : Mouse) : (d.startDrag e last m).InBounds := by
  unfold CopyMode.startDrag
  split
  · exact h
  · rename_i x y hat
    have hy := mouseAt_lt hat
    have hrow := h.row_lt hy
    apply InBounds.dragUpdate
    apply InBounds.nativeSelectionSync
    · exact ⟨⟨h.screen, h.live, h.oy⟩, h.size, h.cy, fun _ => ⟨hrow, hrow⟩, fun _ => ⟨rfl, hy⟩⟩
    · rfl
    · intro hline
      cases hline

theorem InBounds.dragRelease (h : d.InBounds) (m : Mouse) : (d.dragRelease e m).InBounds := by
  unfold CopyMode.dragRelease
  split
  · refine ⟨⟨⟨h.screen, h.live, h.oy⟩, h.size, h.cy, h.native, ?_⟩, h.sel, h.line⟩
    intro hdragging
    cases hdragging
  · split
    · exact h.dragUpdate m
    · exact h

theorem InBounds.scrollTimer (h : d.InBounds) : (d.scrollTimer e).InBounds := by
  unfold CopyMode.scrollTimer
  split
  · rename_i hdragging
    apply InBounds.nativeEnd
    · split
      · exact h.scrollDown 1
      · exact h.scrollUp 1
    · split
      · exact (nativeSelDragging_scrollDown _ _ _).trans hdragging.1
      · exact (nativeSelDragging_scrollUp _ _ _).trans hdragging.1
  · split
    · exact h.scrollDown 1
    · split
      · exact h.scrollUp 1
      · exact h

/-! ## The wheel -/

/-- The wheel engine keeps no row. -/
theorem InBounds.withWheel (h : d.InBounds) (wheel : Wheel) : InBounds { d with wheel } :=
  ⟨⟨⟨h.screen, h.live, h.oy⟩, h.size, h.cy, h.native, h.dragging⟩, h.sel, h.line⟩

theorem InBounds.wheelPrefix (h : d.InBounds) (m : Option WheelEvent) (repeats now : Nat) :
    (d.wheelPrefix e m repeats now).2.InBounds := by
  unfold CopyMode.wheelPrefix
  split
  · exact h
  · exact h.withWheel _

theorem InBounds.cmdScroll (h : d.InBounds) (up : Bool) (m : Option WheelEvent)
    (repeats now : Nat) : (d.cmdScroll e up m repeats now).2.InBounds := by
  have hprefix := h.wheelPrefix (e := e) m repeats now
  unfold CopyMode.cmdScroll
  split
  · unfold cmdScrollUp
    extract_lets p np d'
    split
    · exact hprefix
    · split
      · exact hprefix
      · split <;> exact hprefix.scrollDown _
  · unfold cmdScrollDown
    extract_lets p d'
    split
    · exact hprefix
    · split
      · exact hprefix.scrollUp _
      · split <;> exact hprefix.scrollUp _

theorem InBounds.wheelTimer (h : d.InBounds) (now : Nat) {d' : CopyMode}
    (hd : d.wheelTimer e now = some d') : d'.InBounds := by
  unfold CopyMode.wheelTimer at hd
  extract_lets w at hd
  split at hd
  · cases hd
    exact h.withWheel _
  · split at hd
    · cases hd
      exact h.withWheel _
    · extract_lets step moved scrolled at hd
      have hscrolled : scrolled.InBounds := by
        show (if _ then _ else _ : CopyMode).InBounds
        split
        · exact (h.withWheel _).scrollUp _
        · exact (h.withWheel _).scrollDown _
      split at hd
      · cases hd
        exact h.withWheel _
      · split at hd
        · cases hd
          exact hscrolled.withWheel _
        · split at hd
          · cases hd
          · cases hd
            exact hscrolled.withWheel _

/-! ## Entering, resizing and output -/

theorem InBounds.enter {base : Screen} (hok : base.Ok) (hidePosition scrollExit lineNumbers : Bool) :
    (enter base hidePosition scrollExit lineNumbers).InBounds := by
  refine ⟨⟨⟨⟨hok.grid, hok.cy, hok.region, hok.lower, hok.size⟩, rfl, Nat.zero_le _⟩, rfl, hok.cy,
    ?_, ?_⟩, ?_, ?_⟩
  · intro hactive
    cases hactive
  · intro hdragging
    cases hdragging
  · intro hlogical
    cases hlogical
  · intro hline
    cases hline

theorem InBounds.sizeChanged (h : d.Ok) (hsize : d.sy = d.backing.sy) (hcy : d.cy < d.sy) :
    (d.sizeChanged e).InBounds := by
  have hcleared := InBounds.clearSelection (e := e) h hsize hcy
  have hsearch : ∀ {d : CopyMode} (search : Search), d.InBounds → InBounds { d with search } :=
    fun _ h => ⟨⟨⟨h.screen, h.live, h.oy⟩, h.size, h.cy, h.native, h.dragging⟩, h.sel, h.line⟩
  unfold CopyMode.sizeChanged
  dsimp only
  apply hsearch
  split
  · exact hsearch _ (hsearch _ hcleared)
  · exact hsearch _ hcleared

/-- A resize ends the selection, so only the view has to fit the pane. -/
theorem InBounds.resize {s : Screen} (hok : s.Ok) (d : CopyMode) : (d.resize e s).InBounds := by
  have hcy := hok.cy
  unfold CopyMode.resize
  extract_lets oy d1 d2
  have hoy : oy ≤ s.hsize := by
    show (if _ then _ else _) ≤ _
    split <;> omega
  show (CopyMode.sizeChanged e (if oy = 0 then _ else _)).InBounds
  split
  · apply InBounds.sizeChanged ⟨hok, rfl, hoy⟩ rfl
    show (if s.cy ≥ s.sy then s.sy - 1 else s.cy) < s.sy
    split <;> omega
  · apply InBounds.sizeChanged ⟨hok, rfl, hoy⟩ rfl
    show (if d.cy ≥ s.sy then s.sy - 1 else d.cy) < s.sy
    split <;> omega

/-- Output leaves every row that is kept for the selection on the grid. -/
def KeepsRows (d : CopyMode) (s : Screen) : Prop :=
  (d.hasLogicalSelection = true → d.sely < s.hsize + s.sy ∧ d.endsely < s.hsize + s.sy) ∧
  (d.nativeSelActive = true →
    d.nativeSelStartY < s.hsize + s.sy ∧ d.nativeSelEndY < s.hsize + s.sy) ∧
  (d.selflag = .line → d.selry < s.hsize + s.sy ∧ d.endselry < s.hsize + s.sy)

instance (d : CopyMode) (s : Screen) : Decidable (d.KeepsRows s) :=
  inferInstanceAs (Decidable ((_ → _) ∧ (_ → _) ∧ (_ → _)))

/-- Following output keeps the bounds once the view has moved with the history. -/
theorem InBounds.update (h : InBounds { d with oy := d.followedOy, liveHsize := d.hsize }) :
    (d.update e).1.InBounds := by
  have hcy : d.cy < d.sy := h.cy
  have hsy : 0 < d.sy := h.sy_pos
  have hmoved : ∀ cx cy lastcx lastsx, cy < d.sy →
      InBounds { d with
        oy := d.followedOy, liveHsize := d.hsize, cx, cy, lastcx, lastsx } := by
    intro cx cy lastcx lastsx hcy
    exact ⟨⟨⟨h.screen, h.live, h.oy⟩, h.size, hcy, h.native, h.dragging⟩, h.sel, h.line⟩
  have hfollowed : ∃ cx cy lastcx lastsx, cy < d.sy ∧
      { d with oy := d.followedOy, liveHsize := d.hsize }.followedCursor =
        { d with oy := d.followedOy, liveHsize := d.hsize, cx, cy, lastcx, lastsx } := by
    unfold followedCursor
    split
    · refine ⟨_, _, _, _, ?_, rfl⟩
      dsimp only
      split <;> omega
    · refine ⟨_, _, _, _, ?_, rfl⟩
      dsimp only
      split <;> omega
  obtain ⟨cx, cy, lastcx, lastsx, hcy, heq⟩ := hfollowed
  have hfollowed := hmoved cx cy lastcx lastsx hcy
  have hscreen := h.screen
  unfold CopyMode.update
  rw [heq]
  dsimp only
  split
  · exact ⟨⟨⟨⟨hscreen.grid, hscreen.cy, hscreen.region, hscreen.lower, hscreen.size⟩, h.live, h.oy⟩,
      h.size, hcy, h.native, h.dragging⟩, h.sel, h.line⟩
  · exact hfollowed.refreshMarks.updateSelection false

theorem InBounds.output (h : d.InBounds) {ops : List WriteOp}
    (hrows : d.KeepsRows (d.backing.writeAll u ops)) : (d.output e u ops).InBounds := by
  have hwrites := Screen.writes_writeAll h.screen u ops
  obtain ⟨hsel, hnative, hline⟩ := hrows
  apply InBounds.update
  exact ⟨⟨⟨hwrites.ok, rfl, followedOy_le _⟩, h.size.trans hwrites.sy.symm, h.cy, hnative,
    h.dragging⟩, hsel, hline⟩

end CopyMode

end Newmux.Live
