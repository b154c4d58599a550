import Newmux.Logic.Rows

/-!
# Which rows a write marks

`Writes missed s s'`: the screen stays well formed, rows once dirty stay dirty,
and whatever row has other cells is dirty now or among the `missed` ones. Every
operation of `screen-write.c` is of this form; `missed` is empty for those that
mark all they rewrite.
-/

namespace Newmux.Live

open Newmux.Tmux

namespace Screen

/-- A screen whose cursor and scroll region are on it. -/
structure Ok (s : Screen) : Prop where
  grid : s.grid.Ok
  cy : s.cy < s.sy
  region : s.rupper ≤ s.rlower
  lower : s.rlower < s.sy
  size : s.sy ≤ uintMax

instance (s : Screen) : Decidable s.Ok :=
  decidable_of_iff (s.grid.Ok ∧ s.cy < s.sy ∧ s.rupper ≤ s.rlower ∧ s.rlower < s.sy ∧
      s.sy ≤ uintMax)
    ⟨fun ⟨h1, h2, h3, h4, h5⟩ => ⟨h1, h2, h3, h4, h5⟩,
      fun h => ⟨h.grid, h.cy, h.region, h.lower, h.size⟩⟩

/-- The rows within `dirty_top` and `dirty_bottom`, none when nothing is dirty. -/
def dirtyRows (s : Screen) : Set Nat :=
  {y | s.dirtyTop ≠ uintMax ∧ s.dirtyTop ≤ y ∧ y ≤ s.dirtyBottom}

instance (s : Screen) (y : Nat) : Decidable (y ∈ s.dirtyRows) :=
  inferInstanceAs (Decidable (s.dirtyTop ≠ uintMax ∧ s.dirtyTop ≤ y ∧ y ≤ s.dirtyBottom))

structure Writes (missed : Set Nat) (s s' : Screen) : Prop where
  ok : s'.Ok
  dirty : s.dirtyRows ⊆ s'.dirtyRows
  grid : Grid.Rewrites (s'.dirtyRows ∪ missed) s.grid s'.grid

variable {missed missed' : Set Nat} {s s' s'' : Screen} {u : Utf8}

namespace Writes

theorem refl (hok : s.Ok) : Writes missed s s :=
  ⟨hok, subset_rfl, .refl _ _⟩

theorem trans (h : Writes missed s s') (h' : Writes missed s' s'') : Writes missed s s'' where
  ok := h'.ok
  dirty := h.dirty.trans h'.dirty
  grid := (h.grid.mono (Set.union_subset_union_left _ h'.dirty)).trans h'.grid

theorem mono (h : Writes missed s s') (hsub : missed ⊆ missed') : Writes missed' s s' :=
  { h with grid := h.grid.mono (Set.union_subset_union_right _ hsub) }

theorem sx (h : Writes missed s s') : s'.sx = s.sx := h.grid.sx

theorem sy (h : Writes missed s s') : s'.sy = s.sy := h.grid.sy

/-- Missed rows that were dirty before are not missed. -/
theorem covered (h : Writes missed s s') (hsub : missed ⊆ s.dirtyRows) : Writes ∅ s s' where
  ok := h.ok
  dirty := h.dirty
  grid := h.grid.mono fun _ hy => .inl (hy.elim id fun hm => h.dirty (hsub hm))

end Writes

/-! ## Marking -/

@[simp] theorem grid_markDirty (s : Screen) (y n : Nat) : (s.markDirty y n).grid = s.grid := by
  unfold markDirty
  split
  · rfl
  · dsimp only
    split <;> rfl

@[simp] theorem cy_markDirty (s : Screen) (y n : Nat) : (s.markDirty y n).cy = s.cy := by
  unfold markDirty
  split
  · rfl
  · dsimp only
    split <;> rfl

@[simp] theorem rupper_markDirty (s : Screen) (y n : Nat) :
    (s.markDirty y n).rupper = s.rupper := by
  unfold markDirty
  split
  · rfl
  · dsimp only
    split <;> rfl

@[simp] theorem rlower_markDirty (s : Screen) (y n : Nat) :
    (s.markDirty y n).rlower = s.rlower := by
  unfold markDirty
  split
  · rfl
  · dsimp only
    split <;> rfl

theorem Ok.markDirty (hok : s.Ok) (y n : Nat) : (s.markDirty y n).Ok := by
  have hgrid := grid_markDirty s y n
  have hsy : (s.markDirty y n).sy = s.sy := congrArg Grid.sy hgrid
  refine ⟨hgrid ▸ hok.grid, ?_, ?_, ?_, ?_⟩
  · rw [cy_markDirty, hsy]
    exact hok.cy
  · rw [rupper_markDirty, rlower_markDirty]
    exact hok.region
  · rw [rlower_markDirty, hsy]
    exact hok.lower
  · rw [hsy]
    exact hok.size

/-- After a marking the rows marked are dirty, and those that were. -/
theorem mem_dirtyRows_markDirty (hok : s.Ok) {y n i : Nat}
    (h : i ∈ s.dirtyRows ∨ (y ≤ i ∧ i < y + n ∧ i < s.sy)) :
    i ∈ (s.markDirty y n).dirtyRows := by
  have hsize := hok.size
  unfold markDirty
  by_cases hskip : n = 0 ∨ y ≥ s.sy
  · rw [if_pos hskip]
    rcases h with h | ⟨hy, hn, hi⟩
    · exact h
    · omega
  · rw [if_neg hskip]
    dsimp only
    unfold dirtyRows at h ⊢
    simp only [Set.mem_ofPred_eq] at h ⊢
    split
    · rename_i hnone
      rcases h with ⟨hdirty, -⟩ | ⟨hy, hn, hi⟩
      · exact absurd hnone hdirty
      · dsimp only
        refine ⟨?_, hy, ?_⟩
        · omega
        · split <;> omega
    · rename_i hsome
      dsimp only
      rcases h with ⟨-, htop, hbottom⟩ | ⟨hy, hn, hi⟩
      · refine ⟨?_, ?_, ?_⟩ <;> split_ifs <;> omega
      · refine ⟨?_, ?_, ?_⟩ <;> split_ifs <;> omega

/-! ## The shapes of an operation -/

theorem Ok.onGrid {f : Grid → Grid} {rows : Set Nat} (hok : s.Ok)
    (h : Grid.Rewrites rows s.grid (f s.grid)) : (s.onGrid f).Ok where
  grid := h.ok hok.grid
  cy := hok.cy.trans_eq h.sy.symm
  region := hok.region
  lower := hok.lower.trans_eq h.sy.symm
  size := h.sy.trans_le hok.size

/-- Writing rows without marking them. -/
theorem writes_onGrid {f : Grid → Grid} (hok : s.Ok)
    (h : Grid.Rewrites missed s.grid (f s.grid)) : Writes missed s (s.onGrid f) where
  ok := hok.onGrid h
  dirty := subset_rfl
  grid := h.mono Set.subset_union_right

/-- Writing rows and marking them. -/
theorem writes_onGrid_markDirty {f : Grid → Grid} {y n : Nat} (hok : s.Ok)
    (h : Grid.Rewrites {i | y ≤ i ∧ i < y + n ∧ i < s.sy} s.grid (f s.grid)) :
    Writes ∅ s ((s.onGrid f).markDirty y n) := by
  have hok' := hok.onGrid h
  have hsy : (s.onGrid f).sy = s.sy := h.sy
  refine ⟨hok'.markDirty y n, ?_, ?_⟩
  · intro i hi
    exact mem_dirtyRows_markDirty hok' (.inl hi)
  · rw [grid_markDirty]
    apply h.mono
    intro i hi
    apply Set.mem_union_left
    apply mem_dirtyRows_markDirty hok'
    rw [hsy]
    exact .inr hi

/-- Writing the cursor's row and marking it. -/
theorem writes_row {f : Grid → Grid} (hok : s.Ok)
    (h : Grid.Rewrites {s.cy} s.grid (f s.grid)) :
    Writes ∅ s ((s.onGrid f).markDirty s.cy 1) := by
  apply writes_onGrid_markDirty hok
  apply h.mono
  intro i hi
  have hcy := hok.cy
  rw [Set.mem_singleton_iff] at hi
  subst hi
  exact ⟨le_rfl, by omega, hcy⟩

theorem writes_markDirty (hok : s.Ok) (y n : Nat) : Writes missed s (s.markDirty y n) where
  ok := hok.markDirty y n
  dirty _ hi := mem_dirtyRows_markDirty hok (.inl hi)
  grid := by
    rw [grid_markDirty]
    exact .refl _ _

/-- Moving the cursor, the region and the modes writes nothing. -/
theorem writes_of_grid_eq (hok : s'.Ok) (hgrid : s'.grid = s.grid)
    (htop : s'.dirtyTop = s.dirtyTop) (hbottom : s'.dirtyBottom = s.dirtyBottom) :
    Writes missed s s' where
  ok := hok
  dirty := by
    unfold dirtyRows
    rw [htop, hbottom]
  grid := by
    rw [hgrid]
    exact .refl _ _

theorem Ok.setCursor (hok : s.Ok) (cx cy : Option Nat) : (s.setCursor cx cy).Ok where
  grid := hok.grid
  cy := by
    have h := hok.cy
    cases cy with
    | none => exact h
    | some cy =>
        show (if cy > s.sy - 1 then s.sy - 1 else cy) < s.sy
        split <;> omega
  region := hok.region
  lower := hok.lower
  size := hok.size

theorem writes_setCursor (hok : s.Ok) (cx cy : Option Nat) :
    Writes missed s (s.setCursor cx cy) :=
  writes_of_grid_eq (hok.setCursor cx cy) rfl rfl rfl

theorem Writes.setCursor (h : Writes missed s s') (cx cy : Option Nat) :
    Writes missed s (s'.setCursor cx cy) :=
  h.trans (writes_setCursor h.ok cx cy)

/-- The rows of one line, in the form clearings want them. -/
theorem row_add {rows : Set Nat} {y : Nat} (hy : y ∈ rows) : ∀ i < 1, y + i ∈ rows := by
  intro i hi
  rwa [show i = 0 by omega, Nat.add_zero]

/-! ## Cursor operations -/

theorem writes_cursorUp (hok : s.Ok) (ny : Nat) : Writes missed s (s.cursorUp ny) := by
  unfold cursorUp
  extract_lets
  exact writes_setCursor hok _ _

theorem writes_cursorDown (hok : s.Ok) (ny : Nat) : Writes missed s (s.cursorDown ny) := by
  unfold cursorDown
  extract_lets
  split
  · exact writes_setCursor hok _ _
  · split
    · exact .refl hok
    · exact writes_setCursor hok _ _

theorem writes_cursorRight (hok : s.Ok) (nx : Nat) : Writes missed s (s.cursorRight nx) := by
  unfold cursorRight
  extract_lets
  split
  · exact .refl hok
  · exact writes_setCursor hok _ _

theorem writes_cursorLeft (hok : s.Ok) (nx : Nat) : Writes missed s (s.cursorLeft nx) := by
  unfold cursorLeft
  extract_lets
  split
  · exact .refl hok
  · exact writes_setCursor hok _ _

theorem writes_backspace (hok : s.Ok) : Writes missed s s.backspace := by
  unfold backspace
  split
  · split
    · exact .refl hok
    · split <;> exact writes_setCursor hok _ _
  · exact writes_setCursor hok _ _

theorem writes_cursorMove (hok : s.Ok) (px py : Option Nat) (origin : Bool) :
    Writes missed s (s.cursorMove px py origin) :=
  writes_setCursor hok _ _

theorem writes_setMode (hok : s.Ok) (mode : Mode) (on : Bool) :
    Writes missed s (s.setMode mode on) := by
  cases mode <;>
    exact writes_of_grid_eq ⟨hok.grid, hok.cy, hok.region, hok.lower, hok.size⟩ rfl rfl rfl

theorem writes_scrollRegion (hok : s.Ok) (rupper rlower : Nat) :
    Writes missed s (s.scrollRegion rupper rlower) := by
  have hcy := hok.cy
  unfold scrollRegion
  dsimp only
  generalize hu : (if rupper > s.sy - 1 then s.sy - 1 else rupper) = upper
  generalize hl : (if rlower > s.sy - 1 then s.sy - 1 else rlower) = lower
  split
  · exact .refl hok
  · have hcursor := hok.setCursor (some 0) (some 0)
    have hlower : lower < s.sy := by
      rw [← hl]
      split <;> omega
    exact writes_of_grid_eq ⟨hok.grid, hcursor.cy, by dsimp only; omega, hlower, hok.size⟩
      rfl rfl rfl

theorem writes_carriageReturn (hok : s.Ok) : Writes missed s s.carriageReturn :=
  (writes_setCursor hok _ _).trans (writes_markDirty (hok.setCursor _ _) _ _)

end Screen

end Newmux.Live
