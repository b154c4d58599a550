import Newmux.Theorems.Anchor

/-!
# Redrawing what changed

While the view is scrolled back, only its dirty rows are redrawn after a chunk of
output, and none at all when the history grew and more than four rows are dirty.
The screen is right exactly when no other row looks different.
-/

namespace Newmux.Live

open Newmux.Base Newmux.Tmux

namespace CopyMode

/-- The same rows of another screen in view. -/
def onto (d : CopyMode) (s : Screen) : CopyMode :=
  { d with
    backing := s
    oy := s.hsize - d.top
    liveHsize := s.hsize
    cy := if d.cy > d.sy - 1 then d.sy - 1 else d.cy }

/-- The mode's screen shows the rows in view. -/
def Shows (e : CopyEnv) (d : CopyMode) (shown : Nat → DrawnLine) : Prop :=
  ∀ y < d.sy, shown y = d.writeLine e y

/-- The row in view at `y` is within the dirty rows, and these are few or the
history has its size still. -/
def Redrawn (d : CopyMode) (s : Screen) (y : Nat) : Prop :=
  (∃ r ∈ s.dirtyRows, d.top + y = s.hsize + r) ∧
    (s.dirtyBottom - s.dirtyTop + 1 ≤ 4 ∨ s.hsize = d.hsize)

/-- The row in view at `y` has the line number, the cells and the position text in
`d'` that it has in `d`. -/
structure LooksSame (e : CopyEnv) (d d' : CopyMode) (y : Nat) : Prop where
  width : d'.lineNumberWidth e = d.lineNumberWidth e
  number : d.lineNumberWidth e ≠ 0 → d'.lineNumber e y = d.lineNumber e y
  cells : paint (d.contentSx e) (d'.writtenCells e (d.top + y) (d.contentSx e)) =
    paint (d.contentSx e) (d.writtenCells e (d.top + y) (d.contentSx e))
  position : y = 0 → d.showsPosition e = true → e.position d' = e.position d

variable {e : CopyEnv} {d : CopyMode} {s : Screen}

theorem row_of_le (h : d.oy ≤ d.hsize) (y : Nat) : d.row y = d.top + y := by
  unfold row
  rw [top_of_le h, usub_of_le (by omega)]
  omega

/-- Two views of the same rows, neither at the live screen, draw a row alike when
it looks the same. -/
theorem writeLine_eq_iff {d' : CopyMode} (hsx : d'.sx = d.sx) (hsy : d'.sy = d.sy)
    (hposition : d'.hidePosition = d.hidePosition) (hrow : ∀ y, d'.row y = d.top + y)
    (hle : d.oy ≤ d.hsize) (hback : d.oy ≠ 0) (hback' : d'.oy ≠ 0) (y : Nat) :
    d'.writeLine e y = d.writeLine e y ↔ LooksSame e d d' y := by
  have hcontent : d'.lineNumberWidth e = d.lineNumberWidth e →
      d'.contentSx e = d.contentSx e := by
    intro hwidth
    unfold contentSx
    rw [hwidth, hsx]
  have hshows : d'.showsPosition e = d.showsPosition e := by
    unfold showsPosition
    rw [hsy, hposition]
  -- away from the live screen no row has the marker
  have hmarker : ∀ d : CopyMode, d.oy ≠ 0 → (d.writeLine e y).marker = false := by
    intro d hback
    unfold writeLine
    simp [hback]
  constructor
  · intro heq
    have hnumber := congrArg DrawnLine.number heq
    have hcells := congrArg DrawnLine.cells heq
    have htext := congrArg DrawnLine.position heq
    unfold writeLine at hnumber hcells htext
    dsimp only at hnumber hcells htext
    have hwidth : d'.lineNumberWidth e = d.lineNumberWidth e := by
      split at hnumber <;> split at hnumber <;> simp_all
    rw [hrow, row_of_le hle, hcontent hwidth] at hcells
    rw [hshows] at htext
    refine ⟨hwidth, ?_, hcells, ?_⟩
    · intro hne
      rw [hwidth, if_neg hne, if_neg hne] at hnumber
      exact (Prod.mk.inj (Option.some.inj hnumber)).2
    · rintro rfl hshown
      simpa [hshown] using htext
  · intro h
    have hnumber : (d'.writeLine e y).number = (d.writeLine e y).number := by
      unfold writeLine
      dsimp only
      rw [h.width]
      split
      · rfl
      · rw [h.number (by assumption)]
    have hcells : (d'.writeLine e y).cells = (d.writeLine e y).cells := by
      unfold writeLine
      dsimp only
      rw [hrow, row_of_le hle, hcontent h.width]
      exact h.cells
    have htext : (d'.writeLine e y).position = (d.writeLine e y).position := by
      unfold writeLine
      dsimp only
      rw [hshows]
      split
      · rename_i hshown
        exact h.position hshown.1 hshown.2
      · rfl
    have hmarked : (d'.writeLine e y).marker = (d.writeLine e y).marker := by
      rw [hmarker d' hback', hmarker d hback]
    exact DrawnLine.ext hnumber hcells htext hmarked

/-- The view after output that leaves it scrolled back, and the rows redrawn. -/
theorem update_scrolledBack (hok : d.Ok) (hback : d.oy ≠ 0) (hsel : d.sel = false)
    (hmark : d.search.mark = none) (hstill : d.top < s.hsize) :
    { d with backing := s }.update e =
      (d.onto s.clean, (d.onto s).visibleDirty d.hsize) := by
  have htop := top_of_le hok.oy
  have hoy : { d with backing := s }.followedOy = s.hsize - d.top := by
    have hfollowed := followed_top (d := { d with backing := s })
      (hok.live ▸ hok.oy : d.oy ≤ d.liveHsize) hback
    have hle := followedOy_le { d with backing := s }
    have hsize : { d with backing := s }.hsize = s.hsize := rfl
    have hlive : d.liveHsize - d.oy = d.top := by rw [hok.live, htop]
    rw [hlive, hsize] at hfollowed
    omega
  have hne : s.hsize - d.top ≠ 0 := by omega
  unfold update
  rw [hoy]
  unfold followedCursor
  dsimp only
  rw [if_neg hne, if_pos (by simp [searching, hmark, hsel, hne]), hok.live]
  rfl

/-- A view that comes to the live screen is redrawn as a whole. -/
theorem update_live (h : d.followedOy = 0) :
    (d.update e).1.sy = d.sy ∧ (d.update e).2 = some (0, d.sy) := by
  obtain ⟨cx, cy, lastcx, lastsx, hcursor⟩ :=
    followedCursor_eq { d with oy := d.followedOy, liveHsize := d.hsize }
  unfold update
  rw [hcursor, h]
  dsimp only
  rw [if_neg (by simp)]
  obtain ⟨search, sel, selx, sely, endselx, endsely, heq⟩ := refreshed_eq e
    { d with oy := 0, liveHsize := d.hsize, cx, cy, lastcx, lastsx } false
  rw [heq]
  exact ⟨rfl, rfl⟩

/-- The rows `window_copy_update` passes on are those that count as redrawn. -/
theorem mem_visibleDirty (hstill : d.top < s.hsize) {y : Nat} (hy : y < d.sy) :
    (∃ py ny, (d.onto s).visibleDirty d.hsize = some (py, ny) ∧ py ≤ y ∧ y < py + ny) ↔
      d.Redrawn s y := by
  have htop : (d.onto s).top = d.top := by
    have hsub : s.hsize - (s.hsize - d.top) = d.top := by omega
    rw [top_of_le (show s.hsize - d.top ≤ s.hsize by omega)]
    exact hsub
  -- a dirty row of the live screen, counted from the top of the view
  have hrow : (∃ r ∈ s.dirtyRows, d.top + y = s.hsize + r) ↔
      s.dirtyTop ≠ uintMax ∧ s.hsize + s.dirtyTop ≤ d.top + y ∧
        d.top + y ≤ s.hsize + s.dirtyBottom := by
    constructor
    · rintro ⟨r, ⟨hdirty, hle, hge⟩, heq⟩
      exact ⟨hdirty, by omega, by omega⟩
    · rintro ⟨hdirty, hle, hge⟩
      exact ⟨d.top + y - s.hsize, ⟨hdirty, by omega, by omega⟩, by omega⟩
  have hsize : (d.onto s).hsize = s.hsize := rfl
  have hsy : (d.onto s).sy = d.sy := rfl
  have hback : (d.onto s).backing = s := rfl
  unfold Redrawn visibleDirty
  rw [hrow, htop, hsize, hsy, hback]
  dsimp only
  split
  · simp [*]
  · split
    · rename_i hdirty hseen
      constructor
      · rintro ⟨py, ny, heq, hle, hlt⟩
        obtain ⟨rfl, rfl⟩ := Prod.mk.inj (Option.some.inj heq)
        refine ⟨⟨hdirty, ?_⟩, by omega⟩
        split_ifs at hle hlt <;> omega
      · rintro ⟨⟨-, hle, hge⟩, -⟩
        refine ⟨_, _, rfl, ?_, ?_⟩ <;> split_ifs <;> omega
    · rename_i hdirty hseen
      constructor
      · rintro ⟨py, ny, heq, -⟩
        cases heq
      · rintro ⟨⟨-, hle, hge⟩, hfew⟩
        exact absurd ⟨by omega, by omega, by omega⟩ hseen

end CopyMode

/-- After any chunk of output, the mode's screen shows what a full redraw would
draw if and only if the view is back at the live screen or every row in view that
is not redrawn looks the same as before. -/
theorem shows_output_iff (e : CopyEnv) (u : Utf8) (d : CopyMode) (hok : d.Ok) (hback : 0 < d.oy)
    (hsel : d.hasLogicalSelection = false) (hmark : d.search.mark = none)
    (shown : Nat → DrawnLine) (hshown : d.Shows e shown) (ops : List WriteOp) :
    let s := d.backing.writeAll u ops
    let after := { d with backing := s }.update e
    after.1.Shows e (after.1.redrawLines e after.2 shown) ↔
      s.hsize ≤ d.top ∨
        ∀ y < d.sy, d.Redrawn s y ∨ CopyMode.LooksSame e d (d.onto s.clean) y := by
  intro s after
  have hsel : d.sel = false := by
    unfold CopyMode.hasLogicalSelection at hsel
    simp only [Bool.or_eq_false_iff] at hsel
    exact hsel.1.1.1
  -- the view stays in the history, or the output takes it to the live screen
  by_cases hstill : d.top < s.hsize
  · have hafter : after = (d.onto s.clean, (d.onto s).visibleDirty d.hsize) :=
      CopyMode.update_scrolledBack hok (by omega) hsel hmark hstill
    have hrow : ∀ y, (d.onto s.clean).row y = d.top + y := by
      intro y
      show usub (s.hsize + y) (s.hsize - d.top) = _
      rw [CopyMode.usub_of_le (by omega)]
      omega
    have hsame : ∀ y, (d.onto s.clean).writeLine e y = d.writeLine e y ↔
        CopyMode.LooksSame e d (d.onto s.clean) y := fun y =>
      @CopyMode.writeLine_eq_iff e d (d.onto s.clean) rfl rfl rfl hrow hok.oy (by omega)
        (show s.hsize - d.top ≠ 0 by omega) y
    rw [hafter, or_iff_right (by omega)]
    apply forall₂_congr
    intro y hy
    rw [← CopyMode.mem_visibleDirty hstill hy, ← hsame y]
    -- a row that is not redrawn shows what it did before
    cases hrows : (d.onto s).visibleDirty d.hsize with
    | none =>
      show shown y = _ ↔ _
      rw [hshown y hy]
      simp [eq_comm]
    | some rows =>
      obtain ⟨py, ny⟩ := rows
      show (if py ≤ y ∧ y < py + ny then (d.onto s.clean).writeLine e y else shown y) = _ ↔ _
      by_cases hin : py ≤ y ∧ y < py + ny
      · rw [if_pos hin]
        exact iff_of_true rfl (.inl ⟨py, ny, rfl, hin⟩)
      · rw [if_neg hin, hshown y hy]
        constructor
        · intro heq
          exact .inr heq.symm
        · rintro (⟨py', ny', heq, hin'⟩ | heq)
          · cases heq
            exact absurd hin' hin
          · exact heq.symm
  · apply iff_of_true _ (.inl (by omega))
    -- at the live screen every row is redrawn
    have hfollowed : { d with backing := s }.followedOy = 0 := by
      have hmin := CopyMode.followed_top (d := { d with backing := s })
        (hok.live ▸ hok.oy : d.oy ≤ d.liveHsize) hback.ne'
      have hle := CopyMode.followedOy_le { d with backing := s }
      have hsize : { d with backing := s }.hsize = s.hsize := rfl
      have hlive : d.liveHsize - d.oy = d.top := by
        rw [hok.live, CopyMode.top_of_le hok.oy]
      rw [hlive, hsize] at hmin
      omega
    obtain ⟨hsy, hrows⟩ := CopyMode.update_live (e := e) hfollowed
    intro y hy
    have hrows : after.2 = some (0, d.sy) := hrows
    have hsy : after.1.sy = d.sy := hsy
    rw [hrows]
    show (if 0 ≤ y ∧ y < 0 + d.sy then after.1.writeLine e y else shown y) = _
    rw [if_pos ⟨Nat.zero_le _, by omega⟩]

/-! ## A screen of five rows -/

/-- Every row in view that has other cells is dirty, where it is now. -/
def CopyMode.MarksVisible (d : CopyMode) (s : Screen) : Prop :=
  ∀ y < d.sy, (s.grid.getLine (d.top + y)).celldata ≠
      (d.backing.grid.getLine (d.top + y)).celldata →
    s.hsize ≤ d.top + y ∧ d.top + y - s.hsize ∈ s.dirtyRows

instance (d : CopyMode) (s : Screen) : Decidable (d.MarksVisible s) :=
  inferInstanceAs (Decidable (∀ y < d.sy, _ → _ ∧ _))

/-- Five blank rows below a history of one line, the cursor in the first. -/
def fiveRows : Screen :=
  { grid :=
      { sx := 1, sy := 5, hscrolled := 1, hsize := 1, hlimit := 9, history := true
        linedata := [letter 97, .zero, .zero, .zero, .zero, .zero], oldest := 0 }
    cx := 0, cy := 0, rupper := 0, rlower := 4
    modeInsert := false, modeWrap := true, modeOrigin := false
    dirtyGeneration := 0, dirtyTop := uintMax, dirtyBottom := 0
    item := [], itemCell := gridDefaultCell }

/-- An `x` in the middle row, and then the same with a line scrolled into the
history after it. -/
def spinner : List WriteOp :=
  [.cursorMove (some 0) (some 2) false, .collectAdd { gridDefaultCell with data := [120] }]

def spinnerScrolled : List WriteOp :=
  spinner ++ [.cursorMove (some 0) (some 4) false, .lineFeed 8]

theorem shows_fiveRows :
    let d := viewing fiveRows 1
    let s := d.backing.writeAll plainUtf8 spinner
    let after := { d with backing := s }.update plainEnv
    after.1.Shows plainEnv (after.1.redrawLines plainEnv after.2 (d.writeLine plainEnv)) ↔
      s.hsize ≤ d.top ∨
        ∀ y < d.sy, d.Redrawn s y ∨ CopyMode.LooksSame plainEnv d (d.onto s.clean) y :=
  shows_output_iff plainEnv plainUtf8 (viewing fiveRows 1) (by decide) (by decide) rfl rfl _
    (fun _ _ => rfl) spinner

/-- Five rows are dirty and the history grew, so nothing is redrawn, the `x` in
view included. -/
theorem missed_fiveRows :
    ¬ ∀ (e : CopyEnv) (u : Utf8) (d : CopyMode), d.Ok → 0 < d.oy →
      d.hasLogicalSelection = false → d.search.mark = none →
      ∀ shown : Nat → DrawnLine, d.Shows e shown → ∀ ops : List WriteOp,
        d.MarksVisible (d.backing.writeAll u ops) →
        let after := { d with backing := d.backing.writeAll u ops }.update e
        after.1.Shows e (after.1.redrawLines e after.2 shown) := by
  intro h
  have hshows := h plainEnv plainUtf8 (viewing fiveRows 1) (by decide) (by decide) rfl rfl _
    (fun _ _ => rfl) spinnerScrolled (by decide) 3 (by decide)
  revert hshows
  decide

end Newmux.Live
