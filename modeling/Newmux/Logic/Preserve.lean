import Newmux.Base.Ends
import Newmux.Logic.History

/-!
# What preserving adds to the history

The two preserving functions as additions of blocks of lines to a history that keeps
`hlimit` lines.
-/

namespace Newmux.Logic

open Newmux.Base Newmux.Tmux Newmux.Recovery

/-! ## Equal lines -/

/-- `newmux_grid_line_equal` on two lines, over `sx` columns. -/
def lineEqual (sx : Nat) (gl1 gl2 : GridLine) : Bool :=
  gl1.cellused == gl2.cellused && gl1.flags == gl2.flags &&
    (List.range sx).all fun xx =>
      gridCellsEqual (gl1.celldata.getD xx gridDefaultCell) (gl2.celldata.getD xx gridDefaultCell)

theorem lineEqual_self (sx : Nat) (gl : GridLine) : lineEqual sx gl gl = true := by
  simp [lineEqual, gridCellsEqual, gridCellsLookEqual]

theorem gridCellsEqual_comm (gc1 gc2 : GridCell) :
    gridCellsEqual gc1 gc2 = gridCellsEqual gc2 gc1 := by
  unfold gridCellsEqual gridCellsLookEqual
  simp only [Bool.beq_comm]

/-- Lines that are equal over more columns are equal over fewer, either way round. -/
theorem lineEqual_swap {sx sx' : Nat} (h : sx ≤ sx') {gl1 gl2 : GridLine}
    (heq : lineEqual sx' gl1 gl2 = true) : lineEqual sx gl2 gl1 = true := by
  unfold lineEqual at heq ⊢
  simp only [Bool.and_eq_true, beq_iff_eq, List.all_eq_true, List.mem_range] at heq ⊢
  obtain ⟨⟨hused, hflags⟩, hcells⟩ := heq
  refine ⟨⟨hused.symm, hflags.symm⟩, fun xx hxx => ?_⟩
  rw [gridCellsEqual_comm]
  exact hcells xx (hxx.trans_le h)

theorem peekLine_of_lt {gd : Grid} (hgd : gd.Ok) {py : Nat} (hpy : py < gd.linedata.length) :
    gd.peekLine py = some gd.linedata[py] := by
  unfold Grid.Ok at hgd
  unfold Grid.peekLine
  rw [if_neg (by omega), List.getElem?_eq_getElem hpy]

theorem newmuxGridLineEqual_eq {gd1 gd2 : Grid} (h1 : gd1.Ok) (h2 : gd2.Ok) {py1 py2 : Nat}
    (hpy1 : py1 < gd1.linedata.length) (hpy2 : py2 < gd2.linedata.length) :
    newmuxGridLineEqual gd1 py1 gd2 py2 =
      lineEqual (max gd1.sx gd2.sx) gd1.linedata[py1] gd2.linedata[py2] := by
  have hcell : ∀ {gd : Grid}, gd.Ok → ∀ {py : Nat} (hpy : py < gd.linedata.length) (xx : Nat),
      gd.getCell xx py = gd.linedata[py].celldata.getD xx gridDefaultCell := by
    intro gd hgd py hpy xx
    unfold Grid.getCell
    rw [peekLine_of_lt hgd hpy]
  unfold newmuxGridLineEqual lineEqual
  rw [peekLine_of_lt h1 hpy1, peekLine_of_lt h2 hpy2]
  simp only [hcell h1 hpy1, hcell h2 hpy2]

/-- A loop over rows compares two lists line by line. -/
theorem all_range_eq_zip {r : GridLine → GridLine → Bool} {xs ys : List GridLine} {n : Nat}
    (hx : xs.length = n) (hy : ys.length = n) (f : Nat → Bool)
    (h : ∀ i, (hi : i < n) → f i = r (xs.get ⟨i, hx ▸ hi⟩) (ys.get ⟨i, hy ▸ hi⟩)) :
    (List.range n).all f = (xs.zip ys).all fun p => r p.1 p.2 := by
  rw [Bool.eq_iff_iff, List.all_eq_true, List.all_eq_true]
  constructor
  · intro hall p hp
    obtain ⟨i, hi, rfl⟩ := List.mem_iff_getElem.mp hp
    rw [List.length_zip, hx, hy, min_self] at hi
    have hrow := hall i (List.mem_range.mpr hi)
    rw [h i hi] at hrow
    rw [List.getElem_zip]
    exact hrow
  · intro hall i hi
    have hi := List.mem_range.mp hi
    rw [h i hi]
    have hrow := hall _ (List.getElem_mem (l := xs.zip ys) (n := i) (by
      rw [List.length_zip, hx, hy, min_self]
      exact hi))
    rw [List.getElem_zip] at hrow
    exact hrow

/-- The rows of a grid that a pane's history is compared with. -/
theorem all_lines_eq_endsWith {gd src : Grid} (hgd : gd.Ok) (hsrc : src.Ok) (base : Nat)
    (hsy : src.sy ≤ gd.hsize) (hbase : base + src.sy ≤ src.linedata.length) :
    (List.range src.sy).all
        (fun yy => newmuxGridLineEqual gd (gd.hsize - src.sy + yy) src (base + yy)) =
      Ends.endsWith (lineEqual (max gd.sx src.sx)) ((src.linedata.drop base).take src.sy)
        gd.history := by
  have hlen : ((src.linedata.drop base).take src.sy).length = src.sy := by
    rw [List.length_take, List.length_drop]
    omega
  have hhist := hgd.length_history
  have hdrop : (gd.history.drop (gd.hsize - src.sy)).length = src.sy := by
    rw [List.length_drop]
    omega
  unfold Ends.endsWith
  rw [hlen, hhist, decide_eq_true hsy, Bool.true_and]
  refine all_range_eq_zip hdrop hlen _ fun i hi => ?_
  unfold Grid.Ok at hgd
  rw [newmuxGridLineEqual_eq hgd hsrc (by omega) (by omega)]
  simp [Grid.history, List.getElem_drop, List.getElem_take]

/-! ## Adding lines -/

/-- A grid with another history over the same screen. -/
def withHistory (gd : Grid) (rows : List GridLine) : Grid :=
  { gd with
    linedata := rows ++ gd.visible
    hsize := rows.length
    hscrolled := min gd.hscrolled rows.length }

@[simp] theorem history_withHistory (gd : Grid) (rows : List GridLine) :
    (withHistory gd rows).history = rows := by
  simp [withHistory, Grid.history]

@[simp] theorem visible_withHistory (gd : Grid) (rows : List GridLine) :
    (withHistory gd rows).visible = gd.visible := by
  simp [withHistory, Grid.visible]

theorem withHistory_withHistory (gd : Grid) (rows rows' : List GridLine) :
    withHistory (withHistory gd rows) rows' =
      { withHistory gd rows' with hscrolled := min (min gd.hscrolled rows.length) rows'.length } := by
  have hvisible := visible_withHistory gd rows
  unfold withHistory at hvisible ⊢
  rw [hvisible]

theorem withHistory_history {gd : Grid} (hgd : gd.Ok) (hscroll : gd.hscrolled ≤ gd.hsize) :
    withHistory gd gd.history = gd := by
  unfold withHistory
  rw [gd.history_append_visible, hgd.length_history, min_eq_left hscroll]

theorem withHistory_ok {gd : Grid} (hgd : gd.Ok) (rows : List GridLine) : (withHistory gd rows).Ok := by
  show (rows ++ gd.visible).length = rows.length + gd.sy
  rw [List.length_append, hgd.length_visible]

/-- Lines added behind the history, and the oldest collected. -/
theorem collectHistory_added {gd : Grid} (hscroll : gd.hscrolled ≤ gd.hsize) (hgd : gd.Ok)
    (lines : List GridLine) :
    Grid.collectHistory
        { gd with linedata := gd.history ++ lines ++ gd.visible, hsize := gd.hsize + lines.length } true =
      withHistory gd ((gd.history ++ lines).rtake (Ends.kept gd.hlimit (gd.hsize + lines.length))) := by
  have hlen : (gd.history ++ lines).length = gd.hsize + lines.length := by
    rw [List.length_append, hgd.length_history]
  have hkept := Ends.kept_le gd.hlimit (gd.hsize + lines.length)
  have hcollected : (Grid.mk gd.sx gd.sy gd.hscrolled (gd.hsize + lines.length) gd.hlimit
      (gd.history ++ lines ++ gd.visible)).collected =
        gd.hsize + lines.length - Ends.kept gd.hlimit (gd.hsize + lines.length) := by
    unfold Grid.collected Ends.kept
    dsimp only
    split_ifs <;> omega
  rw [Grid.collectHistory_eq, hcollected]
  unfold withHistory List.rtake
  rw [List.length_drop, hlen]
  generalize hn : gd.hsize + lines.length = n at *
  have hdrop : (gd.history ++ lines ++ gd.visible).drop (n - Ends.kept gd.hlimit n) =
      (gd.history ++ lines).drop (n - Ends.kept gd.hlimit n) ++ gd.visible := by
    rw [List.drop_append_of_le_length (by omega)]
  dsimp only
  rw [hdrop]
  have hscrolled : (if n - Ends.kept gd.hlimit n = 0 then gd.hscrolled
      else min gd.hscrolled (n - (n - Ends.kept gd.hlimit n))) =
        min gd.hscrolled (n - (n - Ends.kept gd.hlimit n)) := by
    split <;> omega
  rw [hscrolled]

/-! ## Preserving -/

/-- A screen with a row at least, of a grid and maybe another that is saved. -/
structure Sound (s : Screen) : Prop where
  grid : s.grid.Ok
  rows : 0 < s.grid.sy
  scrolled : s.grid.hscrolled ≤ s.grid.hsize
  saved : ∀ saved ∈ s.savedGrid, saved.Ok ∧ 0 < saved.sy

/-- The rows under an alternate screen. -/
def savedLines (saved : Grid) : List GridLine := saved.linedata.take saved.sy

theorem length_savedLines {saved : Grid} (h : saved.Ok) : (savedLines saved).length = saved.sy := by
  unfold Grid.Ok at h
  unfold savedLines
  rw [List.length_take]
  omega

theorem Sound.withHistory {s : Screen} (h : Sound s) (rows : List GridLine) :
    Sound { s with grid := Logic.withHistory s.grid rows } :=
  ⟨withHistory_ok h.grid rows, h.rows, Nat.min_le_right .., h.saved⟩

theorem newmuxVisibleGridInHistory_eq {s : Screen} (hgd : s.grid.Ok) (hrows : 0 < s.grid.sy) :
    newmuxVisibleGridInHistory s =
      Ends.endsWith (lineEqual s.grid.sx) s.grid.visible s.grid.history := by
  unfold newmuxVisibleGridInHistory
  by_cases hfew : s.grid.hsize < s.grid.sy
  · rw [if_pos (.inr hfew)]
    unfold Ends.endsWith
    rw [hgd.length_visible, hgd.length_history, decide_eq_false (by omega), Bool.false_and]
  · rw [if_neg (by omega)]
    unfold Grid.Ok at hgd
    rw [all_lines_eq_endsWith hgd hgd s.grid.hsize (by omega) (by omega), max_self]
    unfold Grid.visible
    rw [List.take_of_length_le (by rw [List.length_drop]; omega)]

theorem newmuxAlternateSavedGridInHistory_eq {s : Screen} (h : Sound s) {saved : Grid}
    (hsaved : s.savedGrid = some saved) :
    newmuxAlternateSavedGridInHistory s =
      Ends.endsWith (lineEqual (max s.grid.sx saved.sx)) (savedLines saved) s.grid.history := by
  have hgd := h.grid
  obtain ⟨hok, hrows⟩ := h.saved saved hsaved
  unfold newmuxAlternateSavedGridInHistory
  rw [hsaved]
  dsimp only
  by_cases hfew : s.grid.hsize < saved.sy
  · rw [if_pos (.inr hfew)]
    unfold Ends.endsWith
    rw [length_savedLines hok, hgd.length_history, decide_eq_false (by omega), Bool.false_and]
  · rw [if_neg (by omega)]
    have hbase : 0 + saved.sy ≤ saved.linedata.length := by
      unfold Grid.Ok at hok
      omega
    have hall := all_lines_eq_endsWith hgd hok 0 (by omega) hbase
    simp only [Nat.zero_add, List.drop_zero] at hall
    exact hall

/-- The visible rows are added to the history unless it ends with them. -/
theorem newmuxPreserveVisibleGrid_eq {s : Screen} (hgd : s.grid.Ok) (hrows : 0 < s.grid.sy)
    (hscroll : s.grid.hscrolled ≤ s.grid.hsize) :
    newmuxPreserveVisibleGrid s =
      { s with grid := withHistory s.grid (Ends.add (lineEqual s.grid.sx) s.grid.hlimit
          s.grid.visible s.grid.history) } := by
  have hlen := hgd.length_history
  have hvisible := hgd.length_visible
  unfold newmuxPreserveVisibleGrid Ends.add
  rw [newmuxVisibleGridInHistory_eq hgd hrows]
  dsimp only
  by_cases hends : Ends.endsWith (lineEqual s.grid.sx) s.grid.visible s.grid.history = true
  · rw [if_pos (.inr hends), if_pos hends, withHistory_history hgd hscroll]
  · rw [if_neg (by rintro (h | h); exacts [by omega, hends h]), if_neg hends, hlen, hvisible]
    have hlines : (Grid.duplicateLines (Grid.create s.grid.sx s.grid.sy 0) 0 s.grid s.grid.hsize
        s.grid.sy) = { Grid.create s.grid.sx s.grid.sy 0 with linedata := s.grid.visible } := by
      unfold Grid.Ok at hgd
      simp only [Grid.duplicateLines, Grid.create, Nat.zero_add, lt_irrefl, if_false]
      rw [duplicateLoop_eq _ _ _ _ _ (by simp) (by omega)]
      simp [Grid.visible, hgd]
    rw [hlines]
    have hsnapshot : Grid.Ok { Grid.create s.grid.sx s.grid.sy 0 with linedata := s.grid.visible } := by
      show s.grid.visible.length = 0 + s.grid.sy
      omega
    rw [insertHistoryLines_eq hsnapshot _ _ hgd (by simp [Grid.create])]
    have hall : (s.grid.visible.drop 0).take s.grid.sy = s.grid.visible := by
      rw [List.drop_zero, List.take_of_length_le (by omega)]
    have hcollect := collectHistory_added hscroll hgd s.grid.visible
    rw [hvisible] at hcollect
    show { s with grid := Grid.collectHistory { s.grid with
      linedata := s.grid.history ++ (s.grid.visible.drop 0).take s.grid.sy ++ s.grid.visible
      hsize := s.grid.hsize + s.grid.sy } true } = _
    rw [hall, hcollect]

/-- And then the saved rows. -/
theorem newmuxPreserveAlternateSavedGrid_eq {s : Screen} (h : Sound s) {saved : Grid}
    (hsaved : s.savedGrid = some saved) :
    newmuxPreserveAlternateSavedGrid s =
      { s with grid := withHistory s.grid (Ends.add (lineEqual (max s.grid.sx saved.sx))
          s.grid.hlimit (savedLines saved) s.grid.history) } := by
  have hgd := h.grid
  obtain ⟨hok, hrows⟩ := h.saved saved hsaved
  unfold newmuxPreserveAlternateSavedGrid Ends.add
  rw [hsaved, newmuxAlternateSavedGridInHistory_eq h hsaved]
  dsimp only
  by_cases hends : Ends.endsWith (lineEqual (max s.grid.sx saved.sx)) (savedLines saved)
      s.grid.history = true
  · rw [if_pos hends, if_pos hends, withHistory_history hgd h.scrolled, ← hsaved]
  · rw [if_neg hends, if_neg hends, hgd.length_history, insertHistoryLines_eq hok _ _ hgd (by omega)]
    have hcollect := collectHistory_added h.scrolled hgd (savedLines saved)
    rw [length_savedLines hok] at hcollect ⊢
    rw [List.drop_zero, ← hsaved]
    exact congrArg (fun grid => { s with grid }) hcollect

end Newmux.Logic
