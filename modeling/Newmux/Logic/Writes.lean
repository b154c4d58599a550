import Newmux.Logic.Marks

/-!
# What each operation marks

One lemma for each operation of `screen-write.c`. Seven of them rewrite rows
they do not mark; `unmarked` lists these rows, and `writes_write` says that there
are no others.
-/

namespace Newmux.Live

open Newmux.Tmux

namespace Screen

variable {s : Screen} {u : Utf8}

/-! ## Scrolling -/

/-- The rows of the scroll region, in the form markings want them. -/
theorem region_sub (hok : s.Ok) {i : Nat} (hlo : s.rupper ≤ i) (hhi : i ≤ s.rlower) :
    i ∈ {i | s.rupper ≤ i ∧ i < s.rupper + (s.rlower + 1 - s.rupper) ∧ i < s.sy} := by
  have hlower := hok.lower
  exact ⟨hlo, by omega, by omega⟩

theorem writes_scrollRegionUp (hok : s.Ok) (bg : Nat) :
    Writes ∅ s
      ((s.onGrid fun gd => gd.viewScrollRegionUp s.rupper s.rlower bg).markDirty
        s.rupper (s.rlower + 1 - s.rupper)) := by
  apply writes_onGrid_markDirty hok
  apply Grid.rewrites_viewScrollRegionUp hok.region
  intro i hlo hhi
  exact region_sub hok hlo hhi

/-- The wrapped flag of the cursor's line is no cell. -/
theorem writes_wrap (hok : s.Ok) :
    Writes ∅ s
      (s.onGrid fun gd => gd.mapLines fun yy gl => if yy = gd.viewY s.cy then gl.wrap else gl) := by
  apply writes_onGrid hok
  apply Grid.rewrites_mapLines
  intro yy gl _
  split <;> rfl

theorem writes_lineFeed (hok : s.Ok) (wrapped : Bool) (bg : Nat) :
    Writes ∅ s (s.lineFeed wrapped bg) := by
  have hfeed : ∀ t : Screen, t.Ok →
      Writes ∅ t
        (if t.cy = t.rlower then
          (t.onGrid fun gd => gd.viewScrollRegionUp t.rupper t.rlower bg).markDirty
            t.rupper (t.rlower + 1 - t.rupper)
        else if t.cy < t.sy - 1 then
          (t.setCursor none (some (t.cy + 1))).markDirty (t.cy + 1) 2
        else t) := by
    intro t ht
    split
    · exact writes_scrollRegionUp ht bg
    · split
      · exact (writes_setCursor ht _ _).trans (writes_markDirty (ht.setCursor _ _) _ _)
      · exact .refl ht
  cases wrapped with
  | false => exact hfeed s hok
  | true => exact (writes_wrap hok).trans (hfeed _ (writes_wrap hok).ok)

/-- A line feed at the bottom of the region marks the cursor's row. -/
theorem mem_dirtyRows_lineFeed (hok : s.Ok) (hcy : s.cy = s.rlower) (wrapped : Bool)
    (bg : Nat) : s.cy ∈ (s.lineFeed wrapped bg).dirtyRows := by
  have hfeed : ∀ t : Screen, t.Ok → t.cy = t.rlower →
      t.cy ∈ ((t.onGrid fun gd => gd.viewScrollRegionUp t.rupper t.rlower bg).markDirty
        t.rupper (t.rlower + 1 - t.rupper)).dirtyRows := by
    intro t ht htcy
    have hrewrites : Grid.Rewrites Set.univ t.grid
        (t.grid.viewScrollRegionUp t.rupper t.rlower bg) :=
      Grid.rewrites_viewScrollRegionUp ht.region fun _ _ _ => trivial
    have hregion := ht.region
    exact mem_dirtyRows_markDirty (ht.onGrid hrewrites)
      (.inr ⟨by omega, by omega, (ht.onGrid hrewrites).cy⟩)
  unfold lineFeed
  cases wrapped with
  | false =>
      simp only [Bool.false_eq_true, if_false, if_pos hcy]
      exact hfeed s hok hcy
  | true =>
      dsimp only
      rw [if_pos rfl, if_pos (show (s.onGrid _).cy = (s.onGrid _).rlower from hcy)]
      exact hfeed _ (writes_wrap hok).ok hcy

theorem writes_scrollUpLoop (bg : Nat) :
    ∀ (n : Nat) (s : Screen), s.Ok → Writes ∅ s (scrollUpLoop bg n s) := by
  intro n
  induction n with
  | zero => exact fun _ hok => .refl hok
  | succ n ih =>
      intro s hok
      have hstep := writes_scrollRegionUp hok bg
      exact hstep.trans (ih _ hstep.ok)

theorem writes_scrollUp (hok : s.Ok) (lines bg : Nat) : Writes ∅ s (s.scrollUp lines bg) :=
  writes_scrollUpLoop _ _ _ hok

theorem rewrites_scrollDownLoop {rows : Set Nat} {upper lower : Nat} (bg : Nat)
    (hrows : ∀ i, upper ≤ i → i ≤ lower → i ∈ rows) :
    ∀ (n : Nat) (gd : Grid), Grid.Rewrites rows gd (scrollDownLoop upper lower bg n gd) := by
  intro n
  induction n with
  | zero => exact fun _ => .refl _ _
  | succ n ih => exact fun gd => (Grid.rewrites_viewScrollRegionDown hrows).trans (ih _)

theorem writes_scrollDown (hok : s.Ok) (lines bg : Nat) :
    Writes ∅ s (s.scrollDown lines bg) := by
  apply writes_onGrid_markDirty hok
  apply rewrites_scrollDownLoop
  intro i hlo hhi
  exact region_sub hok hlo hhi

/-! ## Characters -/

theorem writes_insertCharacter (hok : s.Ok) (nx bg : Nat) :
    Writes ∅ s (s.insertCharacter nx bg) := by
  unfold insertCharacter
  extract_lets
  split
  · exact .refl hok
  · exact writes_row hok (Grid.rewrites_viewInsertCells rfl)

theorem writes_deleteCharacter (hok : s.Ok) (nx bg : Nat) :
    Writes ∅ s (s.deleteCharacter nx bg) := by
  unfold deleteCharacter
  extract_lets
  split
  · exact .refl hok
  · exact writes_row hok (Grid.rewrites_viewDeleteCells rfl)

/-- The row `screen_write_clearcharacter` clears in, if it does, unmarked. -/
def eraseUnmarked (s : Screen) (nx : Nat) : List Nat :=
  if s.boundChars nx = 0 ∨ s.cx > s.sx - 1 then [] else [s.cy]

theorem writes_clearCharacter (hok : s.Ok) (nx bg : Nat) :
    Writes {y | y ∈ s.eraseUnmarked nx} s (s.clearCharacter nx bg) := by
  unfold clearCharacter eraseUnmarked
  extract_lets n
  by_cases hnone : n = 0 ∨ s.cx > s.sx - 1
  · rw [if_pos hnone, if_pos hnone]
    exact .refl hok
  · rw [if_neg hnone, if_neg hnone]
    exact writes_onGrid hok (Grid.rewrites_viewClear (row_add (List.mem_singleton_self _)))

/-! ## Lines -/

theorem writes_moveLinesAt (hok : s.Ok) {outside : Grid → Nat → Nat → Nat → Grid}
    {inside : Grid → Nat → Nat → Nat → Nat → Grid} (ny bg : Nat)
    (houtside : ∀ (rows : Set Nat) (gd : Grid) (y n : Nat), y + n ≤ gd.sy →
      (∀ i, y ≤ i → i < gd.sy → i ∈ rows) → Grid.Rewrites rows gd (outside gd y n bg))
    (hinside : ∀ (rows : Set Nat) (gd : Grid) (lower y n : Nat), y + n ≤ lower + 1 →
      (∀ i, y ≤ i → i ≤ lower → i ∈ rows) → Grid.Rewrites rows gd (inside gd lower y n bg)) :
    Writes ∅ s (moveLinesAt outside inside s ny bg) := by
  have hcy := hok.cy
  have hlower := hok.lower
  unfold moveLinesAt
  extract_lets ny m n
  split
  · have hn : s.cy + m ≤ s.sy := by
      show s.cy + (if ny > s.sy - s.cy then s.sy - s.cy else ny) ≤ s.sy
      split <;> omega
    split
    · exact .refl hok
    · apply writes_onGrid_markDirty hok
      apply houtside _ _ _ _ hn
      intro i hlo hhi
      exact ⟨hlo, by show i < s.cy + (s.grid.sy - s.cy); omega, hhi⟩
  · rename_i hin
    have hn : s.cy + n ≤ s.rlower + 1 := by
      show s.cy + (if ny > s.rlower + 1 - s.cy then s.rlower + 1 - s.cy else ny) ≤ s.rlower + 1
      split <;> omega
    split
    · exact .refl hok
    · apply writes_onGrid_markDirty hok
      apply hinside _ _ _ _ _ hn
      intro i hlo hhi
      exact ⟨hlo, by omega, by omega⟩

theorem writes_insertLine (hok : s.Ok) (ny bg : Nat) : Writes ∅ s (s.insertLine ny bg) :=
  writes_moveLinesAt hok ny bg (fun _ _ _ _ _ h => Grid.rewrites_viewInsertLines h)
    fun _ _ _ _ _ hn h => Grid.rewrites_viewInsertLinesRegion hn h

theorem writes_deleteLine (hok : s.Ok) (ny bg : Nat) : Writes ∅ s (s.deleteLine ny bg) :=
  writes_moveLinesAt hok ny bg (fun _ _ _ _ hn h => Grid.rewrites_viewDeleteLines hn h)
    fun _ _ _ _ _ hn h => Grid.rewrites_viewDeleteLinesRegion hn h

/-! ## Clearing -/

theorem writes_clearLine (hok : s.Ok) (bg : Nat) : Writes ∅ s (s.clearLine bg) := by
  unfold clearLine
  split
  · exact .refl hok
  · exact writes_row hok (Grid.rewrites_viewClear (row_add rfl))

theorem writes_clearEndOfLine (hok : s.Ok) (bg : Nat) : Writes ∅ s (s.clearEndOfLine bg) := by
  unfold clearEndOfLine
  split
  · exact writes_clearLine hok bg
  · split
    · exact .refl hok
    · exact writes_row hok (Grid.rewrites_viewClear (row_add rfl))

theorem writes_clearStartOfLine (hok : s.Ok) (bg : Nat) :
    Writes ∅ s (s.clearStartOfLine bg) := by
  unfold clearStartOfLine
  split
  · exact writes_clearLine hok bg
  · exact writes_row hok (Grid.rewrites_viewClear (row_add rfl))

theorem writes_clearEndOfScreen (hok : s.Ok) (bg : Nat) :
    Writes ∅ s (s.clearEndOfScreen bg) := by
  have hcy := hok.cy
  apply writes_onGrid_markDirty hok
  have hfirst : Grid.Rewrites {i | s.cy ≤ i ∧ i < s.cy + (s.sy - s.cy) ∧ i < s.sy} s.grid
      (if s.cx ≤ s.sx - 1 then s.grid.viewClear s.cx s.cy (s.sx - s.cx) 1 bg else s.grid) := by
    split
    · exact Grid.rewrites_viewClear (row_add ⟨le_rfl, by omega, hcy⟩)
    · exact .refl _ _
  apply hfirst.trans
  apply Grid.rewrites_viewClear
  intro i hi
  exact ⟨by omega, by omega, by omega⟩

theorem writes_clearStartOfScreen (hok : s.Ok) (bg : Nat) :
    Writes {i | i ≤ s.cy} s (s.clearStartOfScreen bg) := by
  apply writes_onGrid hok
  have habove : Grid.Rewrites {i | i ≤ s.cy} s.grid
      (if s.cy > 0 then s.grid.viewClear 0 0 s.sx s.cy bg else s.grid) := by
    split
    · apply Grid.rewrites_viewClear
      intro i hi
      show 0 + i ≤ s.cy
      omega
    · exact .refl _ _
  exact habove.trans (Grid.rewrites_viewClear (row_add (show s.cy ≤ s.cy from le_rfl)))

theorem writes_clearScreen (hok : s.Ok) (bg : Nat) :
    Writes {i | i < s.sy} s (s.clearScreen bg) := by
  apply writes_onGrid hok
  apply Grid.rewrites_viewClear
  intro i hi
  show 0 + i < s.sy
  omega

theorem writes_clearHistory (hok : s.Ok) : Writes ∅ s s.clearHistory :=
  writes_onGrid hok (Grid.rewrites_clearHistory _ _)

theorem rewrites_alignRow {rows : Set Nat} (gc : GridCell) {y : Nat} (hy : y ∈ rows)
    (gd : Grid) : ∀ n, Grid.Rewrites rows gd (alignRow gc y n gd) := by
  intro n
  induction n with
  | zero => exact .refl _ _
  | succ n ih => exact ih.trans (Grid.rewrites_viewSetCell hy)

theorem rewrites_alignRows {rows : Set Nat} (gc : GridCell) (sx : Nat) (gd : Grid) :
    ∀ n, (∀ i < n, i ∈ rows) → Grid.Rewrites rows gd (alignRows gc sx n gd) := by
  intro n
  induction n with
  | zero => exact fun _ => .refl _ _
  | succ n ih =>
      intro hrows
      exact (ih fun i hi => hrows i (by omega)).trans (rewrites_alignRow gc (hrows n (by omega)) _ _)

theorem writes_alignmentTest (hok : s.Ok) : Writes {i | i < s.sy} s s.alignmentTest := by
  have halign : Grid.Rewrites {i | i < s.sy} s.grid _ :=
    rewrites_alignRows { gridDefaultCell with data := [69] } s.sx s.grid s.sy fun i hi => hi
  have hrows := writes_onGrid hok halign
  have hcursor := hrows.setCursor (some 0) (some 0)
  have hlower : s.sy - 1 < s.alignmentTest.sy := by
    have hcy := hok.cy
    rw [show s.alignmentTest.sy = s.sy from hcursor.sy]
    omega
  exact
    { ok := ⟨hcursor.ok.grid, hcursor.ok.cy, Nat.zero_le _, hlower, hcursor.ok.size⟩
      dirty := hcursor.dirty
      grid := hcursor.grid }

/-! ## Cells -/

theorem rewrites_blankBack {rows : Set Nat} {y : Nat} (hy : y ∈ rows) :
    ∀ (xx : Nat) (gd : Grid), Grid.Rewrites rows gd (blankBack y xx gd).1 := by
  intro xx
  induction xx with
  | zero => exact fun _ => .refl _ _
  | succ xx ih =>
      intro gd
      unfold blankBack
      split
      · exact (Grid.rewrites_viewSetCell hy).trans (ih _)
      · exact .refl _ _

theorem rewrites_blankOn {rows : Set Nat} {y : Nat} (hy : y ∈ rows) (fill : GridCell) :
    ∀ (n xx : Nat) (gd : Grid), Grid.Rewrites rows gd (blankOn y fill n xx gd) := by
  intro n
  induction n with
  | zero => exact fun _ _ => .refl _ _
  | succ n ih =>
      intro xx gd
      unfold blankOn
      split
      · exact (Grid.rewrites_viewSetCell hy).trans (ih _ _)
      · exact .refl _ _

theorem rewrites_padLoop {rows : Set Nat} {y : Nat} (hy : y ∈ rows) :
    ∀ (n xx : Nat) (gd : Grid), Grid.Rewrites rows gd (padLoop y n xx gd) := by
  intro n
  induction n with
  | zero => exact fun _ _ => .refl _ _
  | succ n ih => exact fun xx gd => (Grid.rewrites_viewSetCell hy).trans (ih _ _)

theorem rewrites_overwrite {rows : Set Nat} (hy : s.cy ∈ rows) (gc : GridCell) (width : Nat) :
    Grid.Rewrites rows s.grid (s.overwrite gc width).1 := by
  have hback : Grid.Rewrites rows s.grid
      (if hasFlag gc.flags gridFlagPadding then
        (blankBack s.cy s.cx s.grid).1.viewSetCell (blankBack s.cy s.cx s.grid).2 s.cy
          gridDefaultCell
      else s.grid) := by
    split
    · exact (rewrites_blankBack hy _ _).trans (Grid.rewrites_viewSetCell hy)
    · exact .refl _ _
  unfold overwrite
  extract_lets
  split
  · exact hback.trans (rewrites_blankOn hy _ _ _ _)
  · exact hback

/-- Nothing replaced, nothing written. -/
theorem overwrite_of_not_done {gc : GridCell} {width : Nat}
    (h : (s.overwrite gc width).2 = false) : (s.overwrite gc width).1 = s.grid := by
  unfold overwrite at h ⊢
  cases hpad : hasFlag gc.flags gridFlagPadding with
  | true =>
      simp only [hpad, if_true, or_true, Bool.true_or] at h
      exact absurd h (by simp)
  | false =>
      simp only [hpad, Bool.false_eq_true, if_false, or_false, Bool.false_or] at h ⊢
      split at h
      · rename_i hwide
        rw [if_pos hwide]
        dsimp only at h ⊢
        cases hn : s.sx - (s.cx + width) with
        | zero => rfl
        | succ n =>
            have hlt : s.cx + width < s.sx := by omega
            unfold blankOn
            rw [if_neg]
            simpa [hlt] using h
      · rename_i hnarrow
        rw [if_neg hnarrow]

/-- Storing the cell of a row with whatever else the row's grid holds. -/
theorem writes_store (hok : s.Ok) {gd : Grid} {gc : GridCell}
    (h : Grid.Rewrites {s.cy} s.grid gd) :
    Writes ∅ s ((s.onGrid fun _ => gd.viewSetCell s.cx s.cy gc).markDirty s.cy 1) :=
  writes_row hok (h.trans (Grid.rewrites_viewSetCell rfl))

theorem mem_dirtyRows_row (hok : s.Ok) {f : Grid → Grid}
    (h : Grid.Rewrites {s.cy} s.grid (f s.grid)) :
    s.cy ∈ ((s.onGrid f).markDirty s.cy 1).dirtyRows :=
  mem_dirtyRows_markDirty (hok.onGrid h) (.inr ⟨le_rfl, by omega, (hok.onGrid h).cy⟩)

/-- The end of `screen_write_cell` marks the row if it stores the cell, and it
does where cells were inserted before. -/
theorem writes_putCell (hok : s.Ok) (gc : GridCell) (inserted : Bool) :
    Writes ∅ s (s.putCell gc inserted) ∧
      (inserted = true → s.cy ∈ (s.putCell gc inserted).dirtyRows) := by
  unfold putCell
  extract_lets width gl replaced padded skip s' notWrap
  have hreplaced : Grid.Rewrites {s.cy} s.grid replaced.1 := by
    unfold replaced
    split
    · exact rewrites_overwrite (Set.mem_singleton _) _ _
    · exact .refl _ _
  have hpadded : Grid.Rewrites {s.cy} s.grid padded :=
    hreplaced.trans (rewrites_padLoop (Set.mem_singleton _) _ _ _)
  have hstore : Writes ∅ s s' ∧ (inserted = true → s.cy ∈ s'.dirtyRows) := by
    unfold s'
    split
    · exact ⟨writes_store hok hpadded, fun _ =>
        mem_dirtyRows_row hok (hpadded.trans (Grid.rewrites_viewSetCell rfl))⟩
    · split
      · exact ⟨writes_store hok hpadded, fun _ =>
          mem_dirtyRows_row hok (hpadded.trans (Grid.rewrites_viewSetCell rfl))⟩
      · rename_i hskip
        -- An unchanged cell is not stored: nothing was replaced or padded.
        have hskip' : (!inserted && !replaced.2 && decide (width ≤ 1) &&
            unchanged gl s.cx gc) = true := by simpa [skip] using hskip
        simp only [Bool.and_eq_true, Bool.not_eq_true', decide_eq_true_eq] at hskip'
        obtain ⟨⟨⟨hinserted, hdone⟩, hwidth⟩, -⟩ := hskip'
        have hgrid : replaced.1 = s.grid := by
          unfold replaced at hdone ⊢
          split
          · rename_i hext
            rw [if_pos hext] at hdone
            exact overwrite_of_not_done hdone
          · rfl
        have hsame : padded = s.grid := by
          unfold padded
          rw [show width - 1 = 0 by omega, hgrid]
          rfl
        refine ⟨?_, fun hins => absurd hins (by simp [hinserted])⟩
        rw [hsame]
        exact writes_onGrid hok (.refl _ _)
  split
  · exact ⟨hstore.1.setCursor _ _, hstore.2⟩
  · exact ⟨hstore.1.setCursor _ _, hstore.2⟩

/-- In insert mode the row is shifted before the character turns out to go to the
next row, or nowhere, and then nothing marks it. -/
def insertUnmarked (s : Screen) (gc : GridCell) : Bool :=
  s.modeInsert && !s.tooWide gc && s.pastEdge gc &&
    (!s.modeWrap || (s.cy != s.rlower && decide (s.cy < s.sy - 1)))

/-- The rows an operation rewrites without marking them. -/
def cellUnmarked (u : Utf8) (s : Screen) (gc : GridCell) : List Nat :=
  if hasFlag gc.flags gridFlagPadding then []
  else
    match s.combined u gc with
    | .discard => []
    | .join _ _ _ => [s.cy]
    | .write => if s.insertUnmarked gc then [s.cy] else []

/-- Missed rows that end up dirty are not missed. -/
theorem Writes.absorb {missed : Set Nat} {s' : Screen} (h : Writes missed s s')
    (hsub : missed ⊆ s'.dirtyRows) : Writes ∅ s s' where
  ok := h.ok
  dirty := h.dirty
  grid := h.grid.mono fun _ hy => .inl (hy.elim id fun hm => hsub hm)

theorem writes_wrapFor (hok : s.Ok) (gc : GridCell) : Writes ∅ s (s.wrapFor gc) := by
  unfold wrapFor
  split
  · exact (writes_lineFeed hok true 8).setCursor _ _
  · exact .refl hok

theorem writes_placeCell (hok : s.Ok) (gc : GridCell) (inserted : Bool) :
    Writes ∅ s (s.placeCell gc inserted) := by
  unfold placeCell
  split
  · exact .refl hok
  · exact (writes_putCell hok gc _).1

theorem mem_dirtyRows_placeCell (hok : s.Ok) {gc : GridCell} (hedge : s.pastEdge gc = false) :
    s.cy ∈ (s.placeCell gc true).dirtyRows := by
  have hcy := hok.cy
  unfold placeCell
  rw [if_neg (by rw [hedge]; simp; omega)]
  exact (writes_putCell hok gc true).2 rfl

/-- A line feed on the last row, outside the region, stays there. -/
theorem cy_lineFeed_last (hcy : s.cy ≠ s.rlower) (hlast : ¬ s.cy < s.sy - 1) (bg : Nat) :
    (s.lineFeed true bg).cy = s.cy := by
  unfold lineFeed
  simp only [if_true]
  rw [if_neg (by exact hcy), if_neg (by exact hlast)]
  rfl

/-- A wrap that keeps the cursor's row, or scrolls it, leaves it to be marked. -/
theorem mem_dirtyRows_wrapFor (hok : s.Ok) {gc : GridCell}
    (h : s.pastEdge gc = false ∨ (s.modeWrap = true ∧ (s.cy = s.rlower ∨ ¬ s.cy < s.sy - 1))) :
    s.cy ∈ ((s.wrapFor gc).placeCell gc true).dirtyRows := by
  have hwraps := writes_wrapFor hok gc
  by_cases hwrap : s.modeWrap = true ∧ s.pastEdge gc = true
  · have hstays := (h.resolve_left (by simp [hwrap.2])).2
    unfold wrapFor at hwraps ⊢
    rw [if_pos hwrap] at hwraps ⊢
    by_cases hat : s.cy = s.rlower
    · exact (writes_placeCell hwraps.ok gc true).dirty (mem_dirtyRows_lineFeed hok hat true 8)
    · have hrow := cy_lineFeed_last hat (hstays.resolve_left hat) 8
      have hedge : ((s.lineFeed true 8).setCursor (some 0) none).pastEdge gc = false := by
        simp [pastEdge, setCursor]
      have hmem := mem_dirtyRows_placeCell hwraps.ok hedge
      rwa [show ((s.lineFeed true 8).setCursor (some 0) none).cy = s.cy from hrow] at hmem
  · unfold wrapFor
    rw [if_neg hwrap]
    apply mem_dirtyRows_placeCell hok
    rcases h with hedge | ⟨hmode, -⟩
    · exact hedge
    · simpa [hmode] using hwrap

theorem writes_shiftFor (hok : s.Ok) (gc : GridCell) : Writes {s.cy} s (s.shiftFor gc) :=
  writes_onGrid hok (Grid.rewrites_viewInsertCells rfl)

theorem pastEdge_shiftFor (hok : s.Ok) (gc : GridCell) :
    (s.shiftFor gc).pastEdge gc = s.pastEdge gc := by
  have hsx := (writes_shiftFor hok gc).sx
  unfold pastEdge
  rw [hsx]
  rfl

theorem writes_writeCell (hok : s.Ok) (gc : GridCell) :
    Writes {y | y ∈ (if s.insertUnmarked gc then [s.cy] else [])} s (s.writeCell gc) := by
  generalize hmissed : {y | y ∈ (if s.insertUnmarked gc then [s.cy] else [])} = missed
  unfold writeCell
  cases hwide : s.tooWide gc with
  | true =>
      rw [if_pos rfl]
      exact .refl hok
  | false =>
      rw [if_neg (by simp)]
      cases hins : s.modeInsert with
      | false =>
          rw [if_neg (by simp)]
          have hwrap := writes_wrapFor hok gc
          exact (hwrap.trans (writes_placeCell hwrap.ok gc false)).mono (Set.empty_subset _)
      | true =>
          rw [if_pos rfl]
          have hshift := writes_shiftFor hok gc
          have hwrap := writes_wrapFor hshift.ok gc
          have hplace := hwrap.trans (writes_placeCell hwrap.ok gc true)
          have hall := hshift.trans (hplace.mono (Set.empty_subset _))
          cases hun : s.insertUnmarked gc with
          | true =>
              apply hall.mono
              intro y hy
              rw [Set.mem_singleton_iff] at hy
              rw [← hmissed]
              simp [hun, hy]
          | false =>
              apply (hall.absorb _).mono (Set.empty_subset _)
              intro y hy
              rw [Set.mem_singleton_iff] at hy
              subst hy
              apply mem_dirtyRows_wrapFor (s := s.shiftFor gc) hshift.ok
              rw [pastEdge_shiftFor hok, show (s.shiftFor gc).sy = s.sy from hshift.sy]
              show s.pastEdge gc = false ∨
                (s.modeWrap = true ∧ (s.cy = s.rlower ∨ ¬ s.cy < s.sy - 1))
              unfold insertUnmarked at hun
              rw [hins, hwide] at hun
              cases hedge : s.pastEdge gc <;> cases hmode : s.modeWrap <;>
                simp [hedge, hmode] at hun ⊢
              tauto

theorem writes_join (hok : s.Ok) (last : GridCell) (n : Nat) (forceWide : Bool) :
    Writes {s.cy} s (s.join last n forceWide) := by
  unfold join
  split
  · exact (writes_onGrid hok
      ((Grid.rewrites_viewSetCell (Set.mem_singleton _)).trans
        (Grid.rewrites_viewSetCell (Set.mem_singleton _)))).setCursor _ _
  · exact (writes_onGrid hok
      (Grid.rewrites_viewSetCell (Set.mem_singleton _))).setCursor _ _

theorem writes_cell (hok : s.Ok) (u : Utf8) (gc : GridCell) :
    Writes {y | y ∈ s.cellUnmarked u gc} s (s.cell u gc) := by
  unfold cell cellUnmarked
  split
  · exact .refl hok
  · cases s.combined u gc with
    | discard => exact .refl hok
    | join last n forceWide =>
        apply (writes_join hok last n forceWide).mono
        intro y hy
        rw [Set.mem_singleton_iff] at hy
        simp [hy]
    | write => exact writes_writeCell hok gc

/-! ## Collected text -/

theorem writes_item (hok : s.Ok) (item : List Nat) (itemCell : GridCell) :
    Writes ∅ s { s with item, itemCell } :=
  writes_of_grid_eq ⟨hok.grid, hok.cy, hok.region, hok.lower, hok.size⟩ rfl rfl rfl

theorem writes_collectEnd (hok : s.Ok) : Writes ∅ s s.collectEnd := by
  unfold collectEnd
  split
  · exact .refl hok
  extract_lets back gc gd s'
  have hgd : Grid.Rewrites {s.cy} s.grid gd := by
    unfold gd
    split
    · exact (rewrites_blankBack (Set.mem_singleton _) _ _).trans
        (Grid.rewrites_viewSetCell (Set.mem_singleton _))
    · exact rewrites_blankBack (Set.mem_singleton _) _ _
  have hitem : Grid.Rewrites {s.cy} gd (gd.viewSetCells s.cx s.cy s.itemCell s.item) :=
    Grid.rewrites_viewSetCells (Set.mem_singleton _)
  have hset := hgd.trans hitem
  have hs' : Writes ∅ s s' := (writes_row hok hset).setCursor _ _
  have hcy : s'.cy = s.cy := cy_markDirty _ _ _
  have hmem : s.cy ∈ s'.dirtyRows := mem_dirtyRows_row hok hset
  have hafter : Writes {s'.cy} s'
      (s'.onGrid fun gd => blankOn s'.cy gridDefaultCell (s'.sx - s'.cx) s'.cx gd) :=
    writes_onGrid hs'.ok (rewrites_blankOn (Set.mem_singleton _) _ _ _ _)
  have hcovered := hafter.covered (by
    intro y hy
    rw [Set.mem_singleton_iff] at hy
    rw [hy, hcy]
    exact hmem)
  exact (hs'.trans hcovered).trans (writes_item hcovered.ok _ _)

/-- The rows `screen_write_collect_add` rewrites without marking them. -/
def addUnmarked (u : Utf8) (s : Screen) (gc : GridCell) : List Nat :=
  if s.collects gc then [] else s.collectEnd.cellUnmarked u gc

theorem writes_collectRoom (hok : s.Ok) : Writes ∅ s s.collectRoom := by
  unfold collectRoom
  split
  · exact writes_collectEnd hok
  · exact .refl hok

theorem writes_collectWrap (hok : s.Ok) : Writes ∅ s s.collectWrap := by
  unfold collectWrap
  split
  · exact (writes_lineFeed hok true 8).setCursor _ _
  · exact .refl hok

theorem writes_collectAdd (hok : s.Ok) (u : Utf8) (gc : GridCell) :
    Writes {y | y ∈ s.addUnmarked u gc} s (s.collectAdd u gc) := by
  unfold collectAdd addUnmarked
  split
  · have hroom := writes_collectRoom hok
    have hwrap := writes_collectWrap hroom.ok
    exact ((hroom.trans hwrap).trans (writes_item hwrap.ok _ _)).mono (Set.empty_subset _)
  · have hend := writes_collectEnd hok
    exact (hend.mono (Set.empty_subset _)).trans (writes_cell hend.ok u gc)

/-! ## Every operation -/

/-- The rows `screen_write_reverseindex` rewrites without marking them. -/
def indexUnmarked (s : Screen) : List Nat :=
  if s.cy = s.rupper then List.range' s.rupper (s.rlower + 1 - s.rupper) else []

/-- The rows an operation rewrites without marking them, on a screen with nothing
collected: no row for all but seven of the operations. -/
def execUnmarked (u : Utf8) (s : Screen) : WriteOp → List Nat
  | .collectAdd gc => s.addUnmarked u gc
  | .clearCharacter nx _ => s.eraseUnmarked nx
  | .clearStartOfScreen _ => List.range (s.cy + 1)
  | .clearScreen _ => List.range s.sy
  | .alignmentTest => List.range s.sy
  | .reverseIndex _ => s.indexUnmarked
  | _ => []

theorem writes_reverseIndex (hok : s.Ok) (bg : Nat) :
    Writes {y | y ∈ s.indexUnmarked} s (s.reverseIndex bg) := by
  have hregion := hok.region
  unfold reverseIndex indexUnmarked
  by_cases hcy : s.cy = s.rupper
  · simp only [if_pos hcy]
    apply writes_onGrid hok
    apply Grid.rewrites_viewScrollRegionDown
    intro i hlo hhi
    show i ∈ List.range' s.rupper (s.rlower + 1 - s.rupper)
    rw [List.mem_range'_1]
    omega
  · simp only [if_neg hcy]
    split
    · exact writes_setCursor hok _ _
    · exact .refl hok

theorem writes_exec (hok : s.Ok) (u : Utf8) (op : WriteOp) :
    Writes {y | y ∈ s.execUnmarked u op} s (s.exec u op) := by
  have marked : ∀ {t : Screen}, Writes ∅ s t → Writes {y | y ∈ ([] : List Nat)} s t :=
    fun h => h.mono (Set.empty_subset _)
  cases op with
  | collectAdd gc => exact writes_collectAdd hok u gc
  | collectEnd => exact .refl hok
  | insertCharacter nx bg => exact marked (writes_insertCharacter hok nx bg)
  | deleteCharacter nx bg => exact marked (writes_deleteCharacter hok nx bg)
  | clearCharacter nx bg => exact writes_clearCharacter hok nx bg
  | insertLine ny bg => exact marked (writes_insertLine hok ny bg)
  | deleteLine ny bg => exact marked (writes_deleteLine hok ny bg)
  | clearLine bg => exact marked (writes_clearLine hok bg)
  | clearEndOfLine bg => exact marked (writes_clearEndOfLine hok bg)
  | clearStartOfLine bg => exact marked (writes_clearStartOfLine hok bg)
  | clearEndOfScreen bg => exact marked (writes_clearEndOfScreen hok bg)
  | clearStartOfScreen bg =>
      apply (writes_clearStartOfScreen hok bg).mono
      intro y hy
      exact List.mem_range.mpr (Nat.lt_succ_of_le hy)
  | clearScreen bg =>
      apply (writes_clearScreen hok bg).mono
      intro y hy
      exact List.mem_range.mpr hy
  | clearHistory => exact marked (writes_clearHistory hok)
  | lineFeed bg => exact marked (writes_lineFeed hok false bg)
  | reverseIndex bg => exact writes_reverseIndex hok bg
  | scrollUp lines bg => exact marked (writes_scrollUp hok lines bg)
  | scrollDown lines bg => exact marked (writes_scrollDown hok lines bg)
  | alignmentTest =>
      apply (writes_alignmentTest hok).mono
      intro y hy
      exact List.mem_range.mpr hy
  | carriageReturn => exact writes_carriageReturn hok
  | scrollRegion rupper rlower => exact writes_scrollRegion hok rupper rlower
  | cursorUp ny => exact writes_cursorUp hok ny
  | cursorDown ny => exact writes_cursorDown hok ny
  | cursorRight nx => exact writes_cursorRight hok nx
  | cursorLeft nx => exact writes_cursorLeft hok nx
  | cursorMove px py origin => exact writes_cursorMove hok px py origin
  | backspace => exact writes_backspace hok
  | modeSet mode => exact writes_setMode hok mode true
  | modeClear mode => exact writes_setMode hok mode false

/-- The rows an operation rewrites without marking them. -/
def unmarked (u : Utf8) (s : Screen) (op : WriteOp) : List Nat :=
  match op with
  | .collectAdd gc => s.addUnmarked u gc
  | op => s.collectEnd.execUnmarked u op

theorem writes_write (hok : s.Ok) (u : Utf8) (op : WriteOp) :
    Writes {y | y ∈ s.unmarked u op} s (s.write u op) := by
  have hend := writes_collectEnd hok
  have hexec : Writes {y | y ∈ s.collectEnd.execUnmarked u op} s (s.collectEnd.exec u op) :=
    (hend.mono (Set.empty_subset _)).trans (writes_exec hend.ok u op)
  cases op with
  | collectAdd gc => exact writes_collectAdd hok u gc
  | _ => exact hexec

end Screen

end Newmux.Live
