import Newmux.Logic.History

/-!
# History across a window restore

The snapshots exist so that the resize around a re-attach costs a pane none of
its scrollback. The comparison that decides whether to put a snapshot back
reads the snapshot grid's `hsize`, which is always zero, so an emptied history
stays empty and every other history is replaced, also an untouched or a grown
one.
-/

namespace Newmux.Theorems

open Newmux.Base Newmux.Tmux Newmux.Recovery Newmux.Logic

/-- What the restore owes a pane whose grid was `gd` before the re-attach and is
`gd'` after it: a history that still begins with the old lines is left alone;
otherwise the old lines come back, less the oldest beyond the limit. -/
def HistoryKept (gd gd' gd'' : Grid) : Prop :=
  (gd.history <+: gd'.history → gd'' = gd') ∧
    (¬ gd.history <+: gd'.history →
      gd''.history = gd.history.drop (gd.hsize - gd'.hlimit) ∧ gd''.visible = gd'.visible)

/-- The grids the restore handles as it should. An untouched history survives
below its limit with no scroll offset, and a damaged one unless it is empty or
its snapshot fills the limit exactly. -/
def HistoryRestorable (gd gd' : Grid) : Prop :=
  gd.hsize = 0 ∨
    (gd.history <+: gd'.history ∧ gd'.hsize = gd.hsize ∧ gd.hsize < gd'.hlimit ∧
      gd'.hscrolled = 0) ∨
    (¬ gd.history <+: gd'.history ∧
      (gd'.hsize = 0 ∧ gd'.hlimit = 0 ∨ gd'.hsize ≠ 0 ∧ gd.hsize ≠ gd'.hlimit))

private theorem collected_putBack {gd gd' : Grid} (hgd : gd.Ok) (hpos : 0 < gd.hsize) :
    (putBack gd.history gd').collected =
      if gd.hsize < gd'.hlimit then 0 else max 1 (gd.hsize - gd'.hlimit) := by
  have hne : gd.hsize ≠ 0 := hpos.ne'
  simp [Grid.collected, putBack, hgd.length_history, hne]

private theorem history_putBack {gd gd' : Grid} :
    (putBack gd.history gd').history = gd.history := by
  simp [putBack, Grid.history]

private theorem visible_putBack {gd gd' : Grid} :
    (putBack gd.history gd').visible = gd'.visible := by
  simp [putBack, Grid.visible]

/-- An untouched history comes out as it went in only below the limit. -/
private theorem putBack_eq_iff {gd gd' : Grid} (hgd : gd.Ok) (hgd' : gd'.Ok)
    (hpos : 0 < gd.hsize) (hpre : gd.history <+: gd'.history) :
    (putBack gd.history gd').collectHistory true = gd' ↔
      gd'.hsize = gd.hsize ∧ gd.hsize < gd'.hlimit ∧ gd'.hscrolled = 0 := by
  have hlen := hgd.length_history
  have hlen' := hgd'.length_history
  have hle : gd.hsize ≤ gd'.hsize := by
    have := hpre.length_le
    omega
  have hsize : ((putBack gd.history gd').collectHistory true).hsize =
      gd.hsize - (putBack gd.history gd').collected := by
    rw [Grid.collectHistory_eq]
    simp [putBack, hlen]
  have hcol : (putBack gd.history gd').collected = _ := collected_putBack hgd hpos
  constructor
  · intro h
    rw [h, hcol] at hsize
    by_cases hlim : gd.hsize < gd'.hlimit
    · rw [if_pos hlim] at hsize hcol
      refine ⟨by omega, hlim, ?_⟩
      rw [← h, Grid.collectHistory_eq]
      simp [putBack]
    · rw [if_neg hlim] at hsize
      omega
  · rintro ⟨heq, hlim, hscroll⟩
    rw [if_pos hlim] at hcol
    have hhist : gd.history = gd'.history := hpre.eq_of_length (by omega)
    rw [Grid.collectHistory_eq, hcol]
    simp only [List.drop_zero, Nat.sub_zero, if_true]
    simp only [putBack, hlen]
    rw [hhist, gd'.history_append_visible, ← heq]
    cases gd'
    simp_all

/-- A damaged history comes back right unless its snapshot fills the limit. -/
private theorem putBack_history_iff {gd gd' : Grid} (hgd : gd.Ok) (hpos : 0 < gd.hsize) :
    ((putBack gd.history gd').collectHistory true).history =
        gd.history.drop (gd.hsize - gd'.hlimit) ↔ gd.hsize ≠ gd'.hlimit := by
  have hlen := hgd.length_history
  rw [Grid.history_collectHistory, history_putBack, collected_putBack hgd hpos]
  constructor
  · intro h heq
    have := congrArg List.length h
    simp only [List.length_drop, hlen, heq, lt_irrefl, if_false] at this
    omega
  · intro hne
    congr 1
    split <;> omega

/-- The property of the restored grid, for a pane that has a history. -/
private theorem historyKept_restoreGrid_iff {wp : Pane} {snapshot : HistorySnapshot}
    (hgd : wp.base.grid.Ok) (hsnap : historySnapshot wp = some snapshot) {gd' : Grid}
    (hgd' : gd'.Ok) :
    HistoryKept wp.base.grid gd' (restoreGrid snapshot gd') ↔
      HistoryRestorable wp.base.grid gd' := by
  obtain ⟨-, -, hpos, -⟩ := historySnapshot_some hgd hsnap
  have hlen := hgd.length_history
  have hlen' := hgd'.length_history
  rw [restoreGrid_eq hgd hsnap hgd']
  by_cases hpre : wp.base.grid.history <+: gd'.history
  · -- the old lines are still there: the grid must not change at all
    have hne : gd'.hsize ≠ 0 := by
      have := hpre.length_le
      omega
    simp only [HistoryKept, HistoryRestorable, hpre, hne, if_false, not_true, false_imp_iff,
      and_true, true_imp_iff, false_and, or_false, true_and, hpos.ne', false_or]
    exact putBack_eq_iff hgd hgd' hpos hpre
  · have hkept : ∀ gd'', HistoryKept wp.base.grid gd' gd'' ↔
        gd''.history = wp.base.grid.history.drop (wp.base.grid.hsize - gd'.hlimit) ∧
          gd''.visible = gd'.visible :=
      fun _ => ⟨fun h => h.2 hpre, fun h => ⟨fun hp => absurd hp hpre, fun _ => h⟩⟩
    have hcond : HistoryRestorable wp.base.grid gd' ↔
        gd'.hsize = 0 ∧ gd'.hlimit = 0 ∨ gd'.hsize ≠ 0 ∧ wp.base.grid.hsize ≠ gd'.hlimit := by
      simp [HistoryRestorable, hpre, hpos.ne']
    rw [hkept, hcond]
    by_cases hz : gd'.hsize = 0
    · -- emptied: nothing is put back, which is right only when the limit keeps nothing
      have hnil : gd'.history = [] := List.eq_nil_of_length_eq_zero (by omega)
      rw [if_pos hz, hnil, eq_comm, List.drop_eq_nil_iff, hlen]
      simp only [hz, and_true, true_and, ne_eq, not_true, false_and, or_false]
      omega
    · rw [if_neg hz, putBack_history_iff hgd hpos, Grid.visible_collectHistory, visible_putBack]
      simp [hz]

/-- **When a pane's history survives a window restore.** For every pane of the
window and whatever the re-attach made of its grid in between, the grid the
pane ends with is the one it is owed exactly for the restorable grids. -/
theorem history_restore_kept_iff {sv sv' : Server} {w : Window} (hnd : w.panes.Nodup)
    {wp wp' : Pane} (hmem : wp.id ∈ w.panes)
    (hwp : windowPaneFindById sv wp.id = some wp)
    (hwp' : windowPaneFindById sv' wp.id = some wp')
    (hgd : wp.base.grid.Ok) (hgd' : wp'.base.grid.Ok) :
    ∃ wp'', windowPaneFindById
        (newmuxHistorySnapshotsRestoreIfShrunk sv' (newmuxHistorySnapshotsTake sv w)) wp.id =
          some wp'' ∧
      (HistoryKept wp.base.grid wp'.base.grid wp''.base.grid ↔
        HistoryRestorable wp.base.grid wp'.base.grid) := by
  refine ⟨_, restore_take_find hnd hmem hwp hwp', ?_⟩
  unfold restoredGrid
  cases hsnap : historySnapshot wp with
  | none =>
      have hz : wp.base.grid.hsize = 0 := historySnapshot_none.mp hsnap
      have hnil : wp.base.grid.history = [] :=
        List.eq_nil_of_length_eq_zero (by rw [hgd.length_history, hz])
      simp [HistoryKept, HistoryRestorable, hz, hnil]
  | some snapshot => exact historyKept_restoreGrid_iff hgd hsnap hgd'

/-! ## A pane whose window comes back one line smaller -/

/-- A line holding one character. -/
def lineOf (c : Nat) : GridLine :=
  { celldata := [{ gridDefaultCell with data := [c] }], cellused := 1, flags := 0 }

/-- A one-column grid of the given history and screen. -/
def gridOf (history visible : List Nat) (hscrolled : Nat) : Grid :=
  { sx := 1, sy := visible.length, hscrolled, hsize := history.length, hlimit := 2000,
    linedata := (history ++ visible).map lineOf }

/-- A pane with that grid. -/
def paneOf (gd : Grid) : Pane :=
  { id := 0, window := 0, sx := gd.sx, sy := gd.sy, xoff := 0, yoff := 0, fd := some 5,
    modes := [], argv := [], shell := none, osName := none, dirtyOption := none,
    base := ⟨gd, none⟩, historyProtected := false, scrollbarWidth := 1, scrollbarPad := 0 }

/-- The window of that pane. -/
def windowOf (gd : Grid) : Window :=
  { id := 0, name := "", panes := [0], lastPanes := [], active := some 0,
    layoutRoot := some (.pane ⟨gd.sx, gd.sy, 0, 0⟩ (some 0)), savedLayoutRoot := none,
    zoomed := false, sx := gd.sx, sy := gd.sy, options := ⟨0, .off, .off, .right⟩ }

/-- A server with that window, linked into one session. -/
def serverOf (gd : Grid) : Server :=
  { sessions := [⟨0, "newmux", some 0, [], [⟨0, 0, 0⟩], ⟨0, false⟩⟩], groups := [],
    windows := [windowOf gd], panes := [paneOf gd], nextSessionId := 1, nextWindowId := 1,
    nextPaneId := 1, nextPtr := 1, globalSOptions := ⟨0, false⟩, globalWOptions := ⟨0, .off, .off, .right⟩ }

/-- One line of history over two screen lines. -/
def beforeResize : Grid := gridOf [97] [98, 99] 0

/-- The same pane one line lower: the top screen line has moved into the
history. -/
def afterResize : Grid := gridOf [97, 98] [99] 1

/-- The condition at those grids, with every hypothesis met. -/
theorem history_restore_kept_iff_at_resize :
    ∃ wp'', windowPaneFindById
        (newmuxHistorySnapshotsRestoreIfShrunk (serverOf afterResize)
          (newmuxHistorySnapshotsTake (serverOf beforeResize) (windowOf beforeResize))) 0 =
          some wp'' ∧
      (HistoryKept beforeResize afterResize wp''.base.grid ↔
        HistoryRestorable beforeResize afterResize) :=
  @history_restore_kept_iff (serverOf beforeResize) (serverOf afterResize)
    (windowOf beforeResize) (by decide) (paneOf beforeResize) (paneOf afterResize)
    (by decide) (by rfl) (by rfl) (by decide) (by decide)

/-- A smaller window pushed a screen line into the history, and the restore
drops it: the history is not the one the pane is owed. -/
theorem history_restore_drops_line :
    ¬ ∀ (sv sv' : Server) (w : Window) (wp wp' wp'' : Pane), w.panes.Nodup → wp.id ∈ w.panes →
      windowPaneFindById sv wp.id = some wp → windowPaneFindById sv' wp.id = some wp' →
      wp.base.grid.Ok → wp'.base.grid.Ok →
      windowPaneFindById
          (newmuxHistorySnapshotsRestoreIfShrunk sv' (newmuxHistorySnapshotsTake sv w)) wp.id =
        some wp'' →
      HistoryKept wp.base.grid wp'.base.grid wp''.base.grid := by
  intro h
  have hkept := h (serverOf beforeResize) (serverOf afterResize) (windowOf beforeResize)
    (paneOf beforeResize) (paneOf afterResize) (paneOf (gridOf [97] [99] 0))
    (by decide) (by decide) (by rfl) (by rfl) (by decide) (by decide) (by decide)
  have hpre : beforeResize.history <+: afterResize.history := by decide
  have hsame : gridOf [97] [99] 0 = afterResize := hkept.1 hpre
  exact absurd hsame (by decide)

end Newmux.Theorems
