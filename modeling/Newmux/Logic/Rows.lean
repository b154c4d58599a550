import Newmux.Live.Output
import Mathlib.Data.List.GetD
import Mathlib.Data.Set.Function

/-!
# What a write does to the rows of a grid

`Rewrites rows gd gd'`: of the visible screen only the given rows have other
cells, and the history has lost lines at its front and gained lines at its end,
no line in between changing its cells. The relation composes, every operation of
the grid has its rows, and the rest of the live copy mode argues from it alone.
-/

namespace Newmux.Live

open Newmux.Tmux

namespace Grid

/-- The cells of the visible row `y`. -/
def viewCells (gd : Grid) (y : Nat) : List GridCellEntry := (gd.getLine (gd.viewY y)).celldata

/-- The line named `n`, counting every line the history ever held. -/
def named (gd : Grid) (n : Nat) : Line := gd.getLine (n - gd.oldest)

/-- The name the next line of the history will get. -/
def newest (gd : Grid) : Nat := gd.oldest + gd.hsize

structure Rewrites (rows : Set Nat) (gd gd' : Grid) : Prop where
  sx : gd'.sx = gd.sx
  sy : gd'.sy = gd.sy
  ok : gd.Ok → gd'.Ok
  cells : gd.Ok → Set.EqOn gd'.viewCells gd.viewCells rowsᶜ
  oldest : gd.oldest ≤ gd'.oldest
  newest : gd.newest ≤ gd'.newest
  lines : gd.Ok → ∀ n, gd'.oldest ≤ n → n < gd.newest →
    (gd'.named n).celldata = (gd.named n).celldata

variable {rows rows' : Set Nat} {gd gd' gd'' : Grid}

namespace Rewrites

theorem refl (rows : Set Nat) (gd : Grid) : Rewrites rows gd gd where
  sx := rfl
  sy := rfl
  ok := id
  cells _ := Set.eqOn_refl _ _
  oldest := le_rfl
  newest := le_rfl
  lines _ _ _ _ := rfl

theorem mono (h : Rewrites rows gd gd') (hsub : rows ⊆ rows') : Rewrites rows' gd gd' :=
  { h with cells := fun hok => (h.cells hok).mono (Set.compl_subset_compl.mpr hsub) }

theorem trans (h : Rewrites rows gd gd') (h' : Rewrites rows gd' gd'') :
    Rewrites rows gd gd'' where
  sx := h'.sx.trans h.sx
  sy := h'.sy.trans h.sy
  ok := h'.ok ∘ h.ok
  cells hok := (h'.cells (h.ok hok)).trans (h.cells hok)
  oldest := h.oldest.trans h'.oldest
  newest := h.newest.trans h'.newest
  lines := by
    intro hok n hold hnew
    rw [h'.lines (h.ok hok) n hold (hnew.trans_le h.newest)]
    exact h.lines hok n (h'.oldest.trans hold) hnew

end Rewrites

/-! ## Lines by row -/

theorem getLine_mapLines (gd : Grid) (f : Nat → Line → Line) (py : Nat) :
    (gd.mapLines f).getLine py =
      if py < gd.linedata.length then f py (gd.getLine py) else .zero := by
  unfold getLine mapLines
  by_cases h : py < gd.linedata.length <;> simp [h]

@[simp] theorem hsize_mapLines (gd : Grid) (f : Nat → Line → Line) :
    (gd.mapLines f).hsize = gd.hsize := rfl

@[simp] theorem sy_mapLines (gd : Grid) (f : Nat → Line → Line) :
    (gd.mapLines f).sy = gd.sy := rfl

@[simp] theorem viewY_mapLines (gd : Grid) (f : Nat → Line → Line) (y : Nat) :
    (gd.mapLines f).viewY y = gd.viewY y := rfl

theorem getLine_of_length_le (h : gd.linedata.length ≤ py) : gd.getLine py = .zero := by
  unfold getLine
  simp [h]

/-- A rewriting that leaves the cells of every line outside the rows alone. -/
theorem rewrites_mapLines {f : Nat → Line → Line}
    (hf : ∀ yy gl, (∀ y ∈ rows, yy ≠ gd.viewY y) → (f yy gl).celldata = gl.celldata) :
    Rewrites rows gd (gd.mapLines f) := by
  have hline : ∀ py, (∀ y ∈ rows, py ≠ gd.viewY y) →
      ((gd.mapLines f).getLine py).celldata = (gd.getLine py).celldata := by
    intro py hpy
    rw [getLine_mapLines]
    split
    · exact hf _ _ hpy
    · rw [getLine_of_length_le (by omega)]
  refine ⟨rfl, rfl, ?_, ?_, le_rfl, le_rfl, ?_⟩
  · intro hok
    unfold Ok at hok ⊢
    simpa [mapLines] using hok
  · intro _ y hy
    apply hline
    intro y' hy' heq
    have : y = y' := by unfold viewY at heq; simpa using heq
    exact hy (this ▸ hy')
  · intro _ n hold hnew
    apply hline
    intro y _ heq
    unfold viewY Grid.newest at *
    simp only [mapLines] at *
    omega

/-- Flags are no cells. -/
theorem rewrites_unwrapAbove (rows : Set Nat) (gd : Grid) (py : Nat) :
    Rewrites rows gd (gd.unwrapAbove py) := by
  apply rewrites_mapLines
  intro yy gl _
  show (if yy + 1 = py then gl.unwrap else gl).celldata = gl.celldata
  split <;> rfl

/-- Rewriting the lines from row `y` on, `ny` of them. -/
theorem rewrites_mapRows {y ny : Nat} {g : Nat → Line → Line}
    (hrows : ∀ i < ny, y + i ∈ rows) :
    Rewrites rows gd (gd.mapLines fun yy gl =>
      if gd.viewY y ≤ yy ∧ yy < gd.viewY y + ny then g yy gl else gl) := by
  apply rewrites_mapLines
  intro yy gl hyy
  rw [if_neg]
  rintro ⟨hle, hlt⟩
  apply hyy (yy - gd.hsize)
  · have := hrows (yy - gd.viewY y) (by omega)
    rwa [show y + (yy - gd.viewY y) = yy - gd.hsize by unfold viewY at *; omega] at this
  · unfold viewY at *
    omega

/-! ## Clearing and moving -/

theorem rewrites_clearLines {y ny bg : Nat} (hrows : ∀ i < ny, y + i ∈ rows) :
    Rewrites rows gd (gd.clearLines (gd.viewY y) ny bg) := by
  unfold clearLines
  split
  · exact .refl _ _
  · split
    · exact .refl _ _
    · exact (rewrites_mapRows hrows).trans (rewrites_unwrapAbove _ _ _)

theorem rewrites_clear {px y nx ny bg : Nat} (hrows : ∀ i < ny, y + i ∈ rows) :
    Rewrites rows gd (gd.clear px (gd.viewY y) nx ny bg) := by
  unfold clear
  split
  · exact .refl _ _
  · split
    · exact rewrites_clearLines hrows
    · split
      · exact .refl _ _
      · exact rewrites_mapRows hrows

theorem rewrites_viewClear {px y nx ny bg : Nat} (hrows : ∀ i < ny, y + i ∈ rows) :
    Rewrites rows gd (gd.viewClear px y nx ny bg) :=
  rewrites_clear hrows

/-- A move of lines rewrites its source and its target. -/
theorem rewrites_moveLines {d p ny bg : Nat} (hd : ∀ i < ny, d + i ∈ rows)
    (hp : ∀ i < ny, p + i ∈ rows) :
    Rewrites rows gd (gd.moveLines (gd.viewY d) (gd.viewY p) ny bg) := by
  unfold moveLines
  split
  · exact .refl _ _
  · split
    · exact .refl _ _
    · have hmove : Rewrites rows (gd.unwrapAbove (gd.viewY d))
          ((gd.unwrapAbove (gd.viewY d)).mapLines fun yy gl =>
            if gd.viewY d ≤ yy ∧ yy < gd.viewY d + ny then
              (gd.unwrapAbove (gd.viewY d)).getLine (yy - gd.viewY d + gd.viewY p)
            else if gd.viewY p ≤ yy ∧ yy < gd.viewY p + ny then
              Line.empty (gd.unwrapAbove (gd.viewY d)).sx bg
            else gl) := by
        apply rewrites_mapLines
        intro yy gl hyy
        have hout : ∀ q, (∀ i < ny, q + i ∈ rows) →
            ¬ (gd.viewY q ≤ yy ∧ yy < gd.viewY q + ny) := by
          rintro q hq ⟨hle, hlt⟩
          apply hyy (q + (yy - gd.viewY q)) (hq _ (by omega))
          show yy = gd.hsize + _
          unfold viewY at *
          omega
        rw [if_neg (hout d hd), if_neg (hout p hp)]
      have h := (rewrites_unwrapAbove rows gd (gd.viewY d)).trans hmove
      simp only []
      split
      · exact h.trans (rewrites_unwrapAbove _ _ _)
      · exact h

/-- A clearing after a rewriting that kept the rows where they were. -/
theorem Rewrites.clear (h : Rewrites rows gd gd') (hsize : gd'.hsize = gd.hsize)
    {px y nx ny bg : Nat} (hrows : ∀ i < ny, y + i ∈ rows) :
    Rewrites rows gd (gd'.clear px (gd.viewY y) nx ny bg) := by
  have hview : gd.viewY y = gd'.viewY y := by
    unfold viewY
    rw [hsize]
  rw [hview]
  exact h.trans (rewrites_clear hrows)

theorem viewY_add (gd : Grid) (y i : Nat) : gd.viewY y + i = gd.viewY (y + i) := by
  unfold viewY
  omega

theorem hsize_moveLines (gd : Grid) (dy py ny bg : Nat) :
    (gd.moveLines dy py ny bg).hsize = gd.hsize := by
  unfold moveLines unwrapAbove
  split
  · rfl
  · split
    · rfl
    · dsimp only
      split <;> rfl

theorem Rewrites.clearRest (h : Rewrites rows gd gd') (hsize : gd'.hsize = gd.hsize)
    {y ny ny2 bg : Nat} (hrows : ∀ i < ny - ny2, y + i ∈ rows) :
    Rewrites rows gd (gd'.clearRest (gd.viewY y) ny ny2 bg) := by
  unfold Grid.clearRest
  rw [show gd'.sx = gd.sx from h.sx]
  split
  · exact h.trans (rewrites_unwrapAbove _ _ _)
  · exact h.clear hsize hrows

/-! ## Cells of one row -/

theorem rewrites_mapRow {y : Nat} {g : Line → Line} (hy : y ∈ rows) :
    Rewrites rows gd (gd.mapLines fun yy gl => if yy = gd.viewY y then g gl else gl) := by
  apply rewrites_mapLines
  intro yy gl hyy
  rw [if_neg (hyy y hy)]

theorem rewrites_viewSetCell {px y : Nat} {gc : GridCell} (hy : y ∈ rows) :
    Rewrites rows gd (gd.viewSetCell px y gc) := by
  unfold viewSetCell setCell
  split
  · exact .refl _ _
  · exact rewrites_mapRow hy

theorem rewrites_viewSetCells {px y : Nat} {gc : GridCell} {s : List Nat} (hy : y ∈ rows) :
    Rewrites rows gd (gd.viewSetCells px y gc s) := by
  unfold viewSetCells setCells
  split
  · exact .refl _ _
  · exact rewrites_mapRow hy

theorem rewrites_moveCells {dx px y nx bg : Nat} (hy : y ∈ rows) :
    Rewrites rows gd (gd.moveCells dx px (gd.viewY y) nx bg) := by
  unfold moveCells
  split
  · exact .refl _ _
  · exact rewrites_mapRow hy

theorem hsize_moveCells (gd : Grid) (dx px py nx bg : Nat) :
    (gd.moveCells dx px py nx bg).hsize = gd.hsize := by
  unfold moveCells
  split <;> rfl

theorem rewrites_viewInsertCells {px y nx bg : Nat} (hy : y ∈ rows) :
    Rewrites rows gd (gd.viewInsertCells px y nx bg) := by
  unfold viewInsertCells
  split
  · apply rewrites_clear
    intro i hi
    rwa [show i = 0 by omega, Nat.add_zero]
  · exact rewrites_moveCells hy

theorem rewrites_viewDeleteCells {px y nx bg : Nat} (hy : y ∈ rows) :
    Rewrites rows gd (gd.viewDeleteCells px y nx bg) := by
  unfold viewDeleteCells
  apply Rewrites.clear
  · exact rewrites_moveCells hy
  · exact hsize_moveCells _ _ _ _ _ _
  · intro i hi
    rwa [show i = 0 by omega, Nat.add_zero]

/-! ## Lines of the screen -/

theorem rewrites_viewInsertLines {y ny bg : Nat}
    (hrows : ∀ i, y ≤ i → i < gd.sy → i ∈ rows) :
    Rewrites rows gd (gd.viewInsertLines y ny bg) := by
  unfold viewInsertLines
  rw [viewY_add]
  apply rewrites_moveLines <;> intro i hi <;> apply hrows <;> unfold viewY at hi <;> omega

theorem rewrites_viewDeleteLines {y ny bg : Nat} (hny : y + ny ≤ gd.sy)
    (hrows : ∀ i, y ≤ i → i < gd.sy → i ∈ rows) :
    Rewrites rows gd (gd.viewDeleteLines y ny bg) := by
  have hbottom : gd.viewY gd.sy - ny = gd.viewY (gd.sy - ny) := by
    unfold viewY
    omega
  unfold viewDeleteLines
  rw [viewY_add, hbottom]
  apply Rewrites.clear
  · apply rewrites_moveLines <;> intro i hi <;> apply hrows <;> unfold viewY at hi <;> omega
  · exact hsize_moveLines _ _ _ _ _
  · intro i hi
    apply hrows <;> omega

/-- The lines of a region that neither operation shifts. -/
theorem region_rest (gd : Grid) (lower y ny : Nat) :
    gd.viewY lower + 1 - gd.viewY y - ny = lower + 1 - y - ny := by
  unfold viewY
  omega

theorem rewrites_viewInsertLinesRegion {lower y ny bg : Nat} (hny : y + ny ≤ lower + 1)
    (hrows : ∀ i, y ≤ i → i ≤ lower → i ∈ rows) :
    Rewrites rows gd (gd.viewInsertLinesRegion lower y ny bg) := by
  have htarget : gd.viewY lower + 1 - (lower + 1 - y - ny) = gd.viewY (y + ny) := by
    unfold viewY
    omega
  unfold viewInsertLinesRegion
  simp only [region_rest, htarget]
  rw [viewY_add]
  apply Rewrites.clearRest
  · apply rewrites_moveLines <;> intro i hi <;> apply hrows <;> omega
  · exact hsize_moveLines _ _ _ _ _
  · intro i hi
    apply hrows <;> omega

theorem rewrites_viewDeleteLinesRegion {lower y ny bg : Nat} (hny : y + ny ≤ lower + 1)
    (hrows : ∀ i, y ≤ i → i ≤ lower → i ∈ rows) :
    Rewrites rows gd (gd.viewDeleteLinesRegion lower y ny bg) := by
  unfold viewDeleteLinesRegion
  simp only [region_rest]
  rw [viewY_add, viewY_add]
  apply Rewrites.clearRest
  · apply rewrites_moveLines <;> intro i hi <;> apply hrows <;> omega
  · exact hsize_moveLines _ _ _ _ _
  · intro i hi
    apply hrows <;> omega

theorem rewrites_viewScrollRegionDown {upper lower bg : Nat}
    (hrows : ∀ i, upper ≤ i → i ≤ lower → i ∈ rows) :
    Rewrites rows gd (gd.viewScrollRegionDown upper lower bg) := by
  unfold viewScrollRegionDown
  rw [viewY_add]
  apply rewrites_moveLines <;> intro i hi <;> apply hrows <;> omega

/-! ## The history -/

theorem getD_drop {α : Type} (l : List α) (n i : Nat) (d : α) :
    (l.drop n).getD i d = l.getD (n + i) d := by
  simp [List.getD_eq_getElem?_getD]

/-- A line its rewriting leaves alone. -/
theorem getD_mapIdx_of_eq {α : Type} {l : List α} {f : Nat → α → α} {i : Nat} (d : α)
    (h : ∀ a, f i a = a) : (l.mapIdx f).getD i d = l.getD i d := by
  rw [List.getD_eq_getElem?_getD, List.getD_eq_getElem?_getD, List.getElem?_mapIdx]
  cases l[i]? with
  | none => rfl
  | some a => simp [h]

/-- Dropping lines from the front keeps every other line's name. -/
theorem rewrites_drop {n hscrolled : Nat} (hn : n ≤ gd.hsize) :
    Rewrites rows gd
      { gd with
        linedata := gd.linedata.drop n
        oldest := gd.oldest + n
        hsize := gd.hsize - n
        hscrolled } := by
  refine ⟨rfl, rfl, ?_, ?_, ?_, ?_, ?_⟩
  · intro hok
    unfold Ok at hok ⊢
    simp only [List.length_drop]
    omega
  · intro _ y _
    show ((gd.linedata.drop n).getD (gd.hsize - n + y) .zero).celldata = _
    rw [getD_drop, show n + (gd.hsize - n + y) = gd.hsize + y by omega]
    rfl
  · exact Nat.le_add_right _ _
  · unfold Grid.newest
    dsimp only
    omega
  · intro _ m hold _
    dsimp only at hold
    show ((gd.linedata.drop n).getD (m - (gd.oldest + n)) .zero).celldata = _
    rw [getD_drop, show n + (m - (gd.oldest + n)) = m - gd.oldest by omega]
    rfl

theorem rewrites_collectHistory (rows : Set Nat) (gd : Grid) (all : Bool) :
    Rewrites rows gd (gd.collectHistory all) := by
  unfold collectHistory
  split
  · exact .refl _ _
  · apply rewrites_drop
    split_ifs <;> omega

theorem rewrites_clearHistory (rows : Set Nat) (gd : Grid) :
    Rewrites rows gd gd.clearHistory := by
  have h : Rewrites rows gd
      { gd with
        linedata := gd.linedata.drop gd.hsize
        oldest := gd.oldest + gd.hsize
        hsize := gd.hsize - gd.hsize
        hscrolled := 0 } := rewrites_drop (le_refl gd.hsize)
  rw [Nat.sub_self] at h
  exact h

/-- Scrolling the whole screen moves every row. -/
theorem rewrites_scrollHistory {bg : Nat} (hrows : ∀ i < gd.sy, i ∈ rows) :
    Rewrites rows gd (gd.scrollHistory bg) := by
  refine ⟨rfl, rfl, ?_, ?_, le_rfl, ?_, ?_⟩
  · intro hok
    unfold Ok at hok ⊢
    simp only [scrollHistory, List.length_append, List.length_singleton]
    omega
  · intro hok y hy
    have hge : gd.sy ≤ y := by
      by_contra hlt
      exact hy (hrows y (by omega))
    unfold Ok at hok
    unfold viewCells
    rw [getLine_of_length_le, getLine_of_length_le]
    · unfold viewY
      omega
    · simp only [scrollHistory, viewY, List.length_append, List.length_singleton]
      omega
  · unfold Grid.newest scrollHistory
    dsimp only
    omega
  · intro hok m hold hnew
    unfold Ok at hok
    unfold Grid.newest at hnew
    have hge : gd.oldest ≤ m := hold
    show ((gd.linedata ++ [_]).getD (m - gd.oldest) .zero).celldata = _
    rw [List.getD_append _ _ _ _ (by omega)]
    rfl

/-- The lines of `grid_scroll_history_region` before the region moves up. -/
theorem getD_spliced {l : List Line} {n : Nat} (hn : n ≤ l.length) (x : Line) (i : Nat) :
    (l.take n ++ x :: l.drop n).getD i .zero =
      if i < n then l.getD i .zero else if i = n then x else l.getD (i - 1) .zero := by
  have hlen : (l.take n).length = n := by simp [hn]
  rcases Nat.lt_trichotomy i n with hlt | rfl | hgt
  · rw [if_pos hlt, List.getD_append _ _ _ _ (by omega)]
    simp [List.getD_eq_getElem?_getD, hlt]
  · rw [if_neg (by omega), if_pos rfl, List.getD_append_right _ _ _ _ (by omega), hlen]
    simp
  · rw [if_neg (by omega), if_neg (by omega), List.getD_append_right _ _ _ _ (by omega), hlen]
    obtain ⟨k, rfl⟩ : ∃ k, i = n + 1 + k := ⟨i - n - 1, by omega⟩
    rw [show n + 1 + k - n = k + 1 by omega, List.getD_cons_succ, getD_drop,
      show n + k = n + 1 + k - 1 by omega]

/-- Scrolling a region moves its rows alone. -/
theorem rewrites_scrollHistoryRegion {upper lower bg : Nat} (hle : upper ≤ lower)
    (hrows : ∀ i, upper ≤ i → i ≤ lower → i ∈ rows) :
    Rewrites rows gd (gd.scrollHistoryRegion (gd.viewY upper) (gd.viewY lower) bg) := by
  -- A line outside the region is the spliced line at its index.
  have hline : gd.Ok → ∀ py,
      (py < gd.hsize ∨ py ≤ gd.viewY upper ∨ gd.viewY lower + 1 < py) →
      (gd.scrollHistoryRegion (gd.viewY upper) (gd.viewY lower) bg).getLine py =
        (gd.linedata.take gd.hsize ++
          gd.getLine (gd.viewY upper) :: gd.linedata.drop gd.hsize).getD py .zero := by
    intro _ py hpy
    apply getD_mapIdx_of_eq
    intro gl
    unfold viewY at *
    rw [if_neg (by omega), if_neg (by omega)]
  refine ⟨rfl, rfl, ?_, ?_, le_rfl, ?_, ?_⟩
  · intro hok
    unfold Ok at hok ⊢
    simp only [scrollHistoryRegion, List.length_mapIdx, List.length_append, List.length_cons,
      List.length_take, List.length_drop]
    omega
  · intro hok y hy
    have hout : y < upper ∨ lower < y := by
      by_contra hin
      exact hy (hrows y (by omega) (by omega))
    have hlen : gd.hsize ≤ gd.linedata.length := by
      unfold Ok at hok
      omega
    unfold viewCells
    rw [hline hok _ (by
      show gd.hsize + 1 + y < _ ∨ gd.hsize + 1 + y ≤ _ ∨ _ < gd.hsize + 1 + y
      unfold viewY
      omega)]
    show (List.getD _ (gd.hsize + 1 + y) Line.zero).celldata = _
    rw [getD_spliced hlen, if_neg (by omega), if_neg (by omega),
      show gd.hsize + 1 + y - 1 = gd.hsize + y by omega]
    rfl
  · unfold Grid.newest scrollHistoryRegion
    dsimp only
    omega
  · intro hok m hold hnew
    unfold Grid.newest at hnew
    have hge : gd.oldest ≤ m := hold
    have hlen : gd.hsize ≤ gd.linedata.length := by
      unfold Ok at hok
      omega
    have hlt : m - gd.oldest < gd.hsize := by omega
    unfold named
    show (Grid.getLine _ (m - gd.oldest)).celldata = _
    rw [hline hok _ (.inl hlt), getD_spliced hlen, if_pos hlt]
    rfl

/-- Scrolling a region of the screen up, with or without a history. -/
theorem rewrites_viewScrollRegionUp {upper lower bg : Nat} (hle : upper ≤ lower)
    (hrows : ∀ i, upper ≤ i → i ≤ lower → i ∈ rows) :
    Rewrites rows gd (gd.viewScrollRegionUp upper lower bg) := by
  unfold viewScrollRegionUp
  split
  · have hcollect := rewrites_collectHistory rows gd false
    dsimp only
    split
    · rename_i hall
      apply hcollect.trans
      apply rewrites_scrollHistory
      intro i hi
      apply hrows <;> omega
    · exact hcollect.trans (rewrites_scrollHistoryRegion hle hrows)
  · rw [viewY_add]
    apply rewrites_moveLines <;> intro i hi <;> apply hrows <;> omega

end Grid

end Newmux.Live
