import Newmux.Recovery.History

/-!
# What the history operations compute

Closed forms of the copying loops: inserting the lines of a snapshot puts them
between the history and the screen, and a snapshot's own lines are the history
it was taken from.
-/

namespace Newmux.Logic

open Newmux.Base Newmux.Tmux Newmux.Recovery

/-! ## Copying lines -/

private theorem getD_eq_getElem {lines : List GridLine} {y : Nat} (h : y < lines.length) :
    lines.getD y .empty = lines[y] := by
  rw [List.getD_eq_getElem?_getD, List.getElem?_eq_getElem h]
  rfl

/-- The copying loop overwrites `ny` lines at `dy` with those at `sy`. -/
theorem duplicateLoop_eq (src : Grid) (ny dy sy : Nat) (lines : List GridLine)
    (hd : dy + ny ≤ lines.length) (hs : sy + ny ≤ src.linedata.length) :
    Grid.duplicateLoop src ny dy sy lines =
      lines.take dy ++ (src.linedata.drop sy).take ny ++ lines.drop (dy + ny) := by
  induction ny generalizing dy sy lines with
  | zero => simp [Grid.duplicateLoop]
  | succ ny ih =>
      have hlt : sy < src.linedata.length := by omega
      have hline : src.linedata.getD sy .empty = src.linedata[sy] := getD_eq_getElem hlt
      have hstep : (src.linedata.drop sy).take (ny + 1) =
          src.linedata[sy] :: (src.linedata.drop (sy + 1)).take ny := by
        rw [List.drop_eq_getElem_cons (by omega), List.take_succ_cons]
      have htake : (lines.set dy src.linedata[sy]).take (dy + 1) =
          lines.take dy ++ [src.linedata[sy]] := by
        rw [List.take_add_one, List.take_set_of_le (le_refl dy)]
        simp [show dy < lines.length by omega]
      unfold Grid.duplicateLoop
      rw [hline, ih (dy + 1) (sy + 1) _ (by simpa using by omega) (by omega), htake, hstep,
        List.drop_set_of_lt (by omega)]
      simp only [List.append_assoc, List.cons_append, List.nil_append]
      rw [show dy + 1 + ny = dy + (ny + 1) by omega]

/-- A line added to the history is the last history line. -/
theorem insertHistoryLine_eq {gd src : Grid} (hgd : gd.Ok) (hsrc : src.Ok) {y : Nat}
    (hy : y < src.hsize + src.sy) :
    newmuxGridInsertHistoryLine gd src y =
      { gd with
        linedata := gd.history ++ src.linedata.getD y .empty :: gd.visible
        hsize := gd.hsize + 1 } := by
  unfold Grid.Ok at hgd hsrc
  have hvis : (gd.linedata.drop gd.hsize).take gd.sy = gd.visible :=
    List.take_of_length_le (by simp [hgd])
  have hlen : gd.history.length = gd.hsize := by simp [Grid.history, hgd]
  have hlen' : (gd.history ++ GridLine.empty :: gd.visible).length = gd.hsize + 1 + gd.sy := by
    simp [Grid.history, Grid.visible, hgd]
    omega
  have hget : (src.linedata.drop y).take 1 = [src.linedata.getD y .empty] := by
    rw [List.drop_eq_getElem_cons (by omega), List.take_succ_cons, List.take_zero,
      getD_eq_getElem (by omega)]
  have hdrop : (gd.history ++ GridLine.empty :: gd.visible).drop (gd.hsize + 1) =
      gd.visible := by
    rw [List.drop_append, List.drop_of_length_le (by omega), hlen]
    simp
  have hloop : Grid.duplicateLoop src 1 gd.hsize y
      (gd.history ++ GridLine.empty :: gd.visible) =
        gd.history ++ src.linedata.getD y .empty :: gd.visible := by
    rw [duplicateLoop_eq src 1 gd.hsize y _ (by omega) (by omega), hget, hdrop,
      List.take_left' hlen]
    simp
  have hn : ¬ gd.hsize + 1 > gd.hsize + 1 + gd.sy := by omega
  have hm : ¬ y + 1 > src.hsize + src.sy := by omega
  simp only [newmuxGridInsertHistoryLine, Grid.duplicateLines, Nat.add_sub_cancel, hvis, hn, hm,
    if_false]
  exact congrArg (fun lines => { gd with linedata := lines, hsize := gd.hsize + 1 }) hloop

/-- The insertion loop appends the lines it is given to the history. -/
theorem insertHistoryLines_eq {src : Grid} (hsrc : src.Ok) (n y : Nat) {gd : Grid}
    (hgd : gd.Ok) (hy : y + n ≤ src.hsize + src.sy) :
    insertHistoryLines src y n gd =
      { gd with
        linedata := gd.history ++ (src.linedata.drop y).take n ++ gd.visible
        hsize := gd.hsize + n } := by
  induction n generalizing y gd with
  | zero => simp [insertHistoryLines, gd.history_append_visible]
  | succ n ih =>
      have hlen : gd.history.length = gd.hsize := hgd.length_history
      have hline : (src.linedata.drop y).take (n + 1) =
          src.linedata.getD y .empty :: (src.linedata.drop (y + 1)).take n := by
        unfold Grid.Ok at hsrc
        rw [List.drop_eq_getElem_cons (by omega), List.take_succ_cons,
          getD_eq_getElem (by omega)]
      unfold insertHistoryLines
      rw [insertHistoryLine_eq hgd hsrc (by omega)]
      rw [ih (y + 1) _ (by omega)]
      · -- the line is the last one of the history now
        have hh : Grid.history { gd with
            linedata := gd.history ++ src.linedata.getD y .empty :: gd.visible
            hsize := gd.hsize + 1 } = gd.history ++ [src.linedata.getD y .empty] := by
          simp only [Grid.history] at hlen ⊢
          rw [List.take_append, hlen]
          simp
        have hv : Grid.visible { gd with
            linedata := gd.history ++ src.linedata.getD y .empty :: gd.visible
            hsize := gd.hsize + 1 } = gd.visible := by
          change (gd.history ++ src.linedata.getD y .empty :: gd.visible).drop (gd.hsize + 1) = _
          rw [List.drop_append, List.drop_of_length_le (by omega), hlen]
          simp
        rw [hh, hv, hline]
        simp only [List.append_assoc, List.cons_append, List.nil_append]
        rw [show gd.hsize + 1 + n = gd.hsize + (n + 1) by omega]
      · have := hgd.length_visible
        unfold Grid.Ok
        simp [hlen, this]
        omega

/-! ## Snapshots -/

/-- A snapshot's visible lines are the history it was taken from. -/
theorem historySnapshot_some {wp : Pane} {snapshot : HistorySnapshot}
    (hgd : wp.base.grid.Ok) (h : historySnapshot wp = some snapshot) :
    snapshot.paneId = wp.id ∧ snapshot.hsize = wp.base.grid.hsize ∧
      0 < wp.base.grid.hsize ∧ snapshot.grid.Ok ∧ snapshot.grid.hsize = 0 ∧
      snapshot.grid.sy = wp.base.grid.hsize ∧
      snapshot.grid.linedata = wp.base.grid.history := by
  unfold historySnapshot at h
  by_cases hz : wp.base.grid.hsize = 0
  · simp [hz] at h
  · simp only [hz, if_false, Option.some.injEq] at h
    subst h
    have hlen := hgd.length_history
    have hle : wp.base.grid.hsize ≤ wp.base.grid.linedata.length := by
      unfold Grid.Ok at hgd
      omega
    have hlines : (Grid.duplicateLines (Grid.create wp.base.grid.sx wp.base.grid.hsize 0) 0
        wp.base.grid 0 wp.base.grid.hsize).linedata = wp.base.grid.history := by
      simp only [Grid.duplicateLines, Grid.create, Nat.zero_add, lt_irrefl, gt_iff_lt, if_false]
      rw [if_neg (by omega), duplicateLoop_eq _ _ _ _ _ (by simp) (by omega)]
      simp [Grid.history]
    refine ⟨rfl, rfl, Nat.pos_of_ne_zero hz, ?_, rfl, rfl, hlines⟩
    unfold Grid.Ok
    rw [hlines, hlen]
    simp [Grid.duplicateLines, Grid.create]

theorem historySnapshot_paneId {wp : Pane} {snapshot : HistorySnapshot}
    (h : historySnapshot wp = some snapshot) : snapshot.paneId = wp.id := by
  unfold historySnapshot at h
  by_cases hz : wp.base.grid.hsize = 0
  · simp [hz] at h
  · simp only [hz, if_false, Option.some.injEq] at h
    rw [← h]

/-- A pane without history has no snapshot, and only such a pane. -/
theorem historySnapshot_none {wp : Pane} :
    historySnapshot wp = none ↔ wp.base.grid.hsize = 0 := by
  unfold historySnapshot
  by_cases hz : wp.base.grid.hsize = 0 <;> simp [hz]

/-- What the restore makes of a grid whose history is not empty: the snapshot's
lines over the screen, trimmed as by `grid_collect_history`. -/
def putBack (lines : List GridLine) (gd : Grid) : Grid :=
  { gd with linedata := lines ++ gd.visible, hscrolled := 0, hsize := lines.length }

/-- A snapshot's grid has no history of its own, so the comparison comes down to
whether the pane's history is empty: if it is, nothing is restored, and if it is
not, it is replaced. -/
theorem restoreGrid_eq {wp : Pane} {snapshot : HistorySnapshot} (hgd : wp.base.grid.Ok)
    (h : historySnapshot wp = some snapshot) {gd : Grid} (hgd' : gd.Ok) :
    restoreGrid snapshot gd =
      if gd.hsize = 0 then gd
      else (putBack wp.base.grid.history gd).collectHistory true := by
  obtain ⟨-, hsize, -, hok, hzero, hsy, hlines⟩ := historySnapshot_some hgd h
  have hlen := hgd.length_history
  unfold restoreGrid newmuxGridHistoryMatchesSnapshot
  rw [if_pos hzero]
  by_cases hz : gd.hsize = 0
  · simp [hz]
  · have hz' : (gd.hsize == 0) = false := by simpa using hz
    simp only [hz', hz, if_false, Bool.false_eq_true]
    rw [insertHistoryLines_eq hok _ _ hgd'.clearHistory (by omega), hlines, hsize]
    congr 1
    simp only [Grid.history_clearHistory, Grid.visible_clearHistory, List.drop_zero,
      List.nil_append]
    rw [List.take_of_length_le (by omega)]
    simp [putBack, Grid.clearHistory, Grid.trimHistory, hlen]

theorem restore_find_ne {sv : Server} {snapshots : List HistorySnapshot} {p : Nat}
    (hp : p ∉ snapshots.map HistorySnapshot.paneId) :
    windowPaneFindById (newmuxHistorySnapshotsRestoreIfShrunk sv snapshots) p =
      windowPaneFindById sv p := by
  induction snapshots generalizing sv with
  | nil => rfl
  | cons snapshot snapshots ih =>
      simp only [List.map_cons, List.mem_cons, not_or] at hp
      unfold newmuxHistorySnapshotsRestoreIfShrunk
      rw [ih hp.2]
      cases hf : windowPaneFindById sv snapshot.paneId with
      | none => rfl
      | some wp =>
          rw [windowPaneFindById_setPane, if_neg]
          simpa [windowPaneFindById_id hf] using hp.1

/-- Each pane's grid is restored from its own snapshot, and only from it. -/
theorem restore_find {sv : Server} {snapshots : List HistorySnapshot}
    (hnd : (snapshots.map HistorySnapshot.paneId).Nodup) {snapshot : HistorySnapshot}
    (hmem : snapshot ∈ snapshots) {wp : Pane}
    (hwp : windowPaneFindById sv snapshot.paneId = some wp) :
    windowPaneFindById (newmuxHistorySnapshotsRestoreIfShrunk sv snapshots) snapshot.paneId =
      some { wp with base := { wp.base with grid := restoreGrid snapshot wp.base.grid } } := by
  induction snapshots generalizing sv with
  | nil => exact absurd hmem List.not_mem_nil
  | cons x snapshots ih =>
      obtain ⟨hx, hnd⟩ := List.nodup_cons.mp hnd
      unfold newmuxHistorySnapshotsRestoreIfShrunk
      rcases List.mem_cons.mp hmem with rfl | hmem
      · rw [restore_find_ne hx, hwp, windowPaneFindById_setPane,
          if_pos (windowPaneFindById_id hwp).symm, hwp]
        rfl
      · have hne : snapshot.paneId ≠ x.paneId := by
          rintro he
          exact hx (he ▸ List.mem_map_of_mem hmem)
        refine ih hnd hmem ?_
        cases hf : windowPaneFindById sv x.paneId with
        | none => exact hwp
        | some wq =>
            rw [windowPaneFindById_setPane, if_neg]
            · exact hwp
            · simpa [windowPaneFindById_id hf] using hne

/-- The snapshots of a window's panes carry distinct pane ids. -/
theorem snapshotsTake_nodup {sv : Server} {w : Window} (hnd : w.panes.Nodup) :
    ((newmuxHistorySnapshotsTake sv w).map HistorySnapshot.paneId).Nodup := by
  have hsub : ((newmuxHistorySnapshotsTake sv w).map HistorySnapshot.paneId).Sublist w.panes := by
    unfold newmuxHistorySnapshotsTake
    generalize w.panes = panes
    induction panes with
    | nil => exact List.Sublist.slnil
    | cons p panes ih =>
        cases hs : (windowPaneFindById sv p).bind historySnapshot with
        | none =>
            simp only [List.filterMap_cons, hs]
            exact ih.cons p
        | some snapshot =>
            simp only [List.filterMap_cons, hs, List.map_cons]
            obtain ⟨wp, hwp, hsnap⟩ := Option.bind_eq_some_iff.mp hs
            rw [historySnapshot_paneId hsnap, windowPaneFindById_id hwp]
            exact ih.cons_cons p
  exact hsub.nodup hnd

/-- The grid a pane ends with when it has `gd` at the end of the re-attach. -/
def restoredGrid (wp : Pane) (gd : Grid) : Grid :=
  match historySnapshot wp with
  | none => gd
  | some snapshot => restoreGrid snapshot gd

/-- Around any change of the server in between, the snapshots restore each pane
of the window from the history it had when they were taken. -/
theorem restore_take_find {sv sv' : Server} {w : Window} (hnd : w.panes.Nodup)
    {wp wp' : Pane} (hmem : wp.id ∈ w.panes)
    (hwp : windowPaneFindById sv wp.id = some wp)
    (hwp' : windowPaneFindById sv' wp.id = some wp') :
    windowPaneFindById
        (newmuxHistorySnapshotsRestoreIfShrunk sv' (newmuxHistorySnapshotsTake sv w)) wp.id =
      some { wp' with base := { wp'.base with grid := restoredGrid wp wp'.base.grid } } := by
  unfold restoredGrid
  cases hsnap : historySnapshot wp with
  | none =>
      rw [restore_find_ne, hwp']
      intro hin
      obtain ⟨snapshot, hsn, hid⟩ := List.mem_map.mp hin
      obtain ⟨p, -, hp⟩ := List.mem_filterMap.mp hsn
      obtain ⟨wq, hwq, hq⟩ := Option.bind_eq_some_iff.mp hp
      have hpid : p = wp.id := by
        rw [← windowPaneFindById_id hwq, ← historySnapshot_paneId hq, hid]
      rw [hpid, hwp] at hwq
      cases hwq
      rw [hsnap] at hq
      cases hq
  | some snapshot =>
      have hid := historySnapshot_paneId hsnap
      have hin : snapshot ∈ newmuxHistorySnapshotsTake sv w :=
        List.mem_filterMap.mpr ⟨wp.id, hmem, by rw [hwp]; exact hsnap⟩
      rw [← hid]
      exact restore_find (snapshotsTake_nodup hnd) hin (by rw [hid]; exact hwp')

end Newmux.Logic
