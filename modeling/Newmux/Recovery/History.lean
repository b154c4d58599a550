import Newmux.Tmux.Window

/-!
# Pane history

A recovered pane must come back with its scrollback. Before a pane is parked
its visible lines (and the lines saved under an alternate screen) are pushed
into the history; around the re-attach of a window the histories of its panes
are snapshotted and put back if the resize took lines away.
-/

namespace Newmux.Recovery

open Newmux.Base Newmux.Tmux

/-- `newmux_grid_line_equal`. -/
def newmuxGridLineEqual (gd1 : Grid) (py1 : Nat) (gd2 : Grid) (py2 : Nat) : Bool :=
  match gd1.peekLine py1, gd2.peekLine py2 with
  | some gl1, some gl2 =>
      gl1.cellused == gl2.cellused && gl1.flags == gl2.flags &&
        (List.range (max gd1.sx gd2.sx)).all
          (fun xx => gridCellsEqual (gd1.getCell xx py1) (gd2.getCell xx py2))
  | _, _ => false

/-- `newmux_alternate_saved_grid_in_history`. -/
def newmuxAlternateSavedGridInHistory (s : Screen) : Bool :=
  match s.savedGrid with
  | none => false
  | some saved =>
      if saved.sy = 0 ∨ s.grid.hsize < saved.sy then false
      else (List.range saved.sy).all
        (fun yy => newmuxGridLineEqual s.grid (s.grid.hsize - saved.sy + yy) saved yy)

/-- `newmux_visible_grid_in_history`. -/
def newmuxVisibleGridInHistory (s : Screen) : Bool :=
  if s.grid.sy = 0 ∨ s.grid.hsize < s.grid.sy then false
  else (List.range s.grid.sy).all
    (fun yy => newmuxGridLineEqual s.grid (s.grid.hsize - s.grid.sy + yy)
      s.grid (s.grid.hsize + yy))

/-- `newmux_grid_insert_history_line`: one more history line, a copy of line
`srcY` of `src`. -/
def newmuxGridInsertHistoryLine (gd src : Grid) (srcY : Nat) : Grid :=
  let gd :=
    { gd with
      linedata := gd.linedata.take gd.hsize ++ GridLine.empty :: (gd.linedata.drop gd.hsize).take gd.sy
      hsize := gd.hsize + 1 }
  gd.duplicateLines (gd.hsize - 1) src srcY 1

/-- The `for` loops that insert lines `yy` up to `yy + n` of `src`. -/
def insertHistoryLines (src : Grid) : Nat → Nat → Grid → Grid
  | _, 0, gd => gd
  | yy, n + 1, gd => insertHistoryLines src (yy + 1) n (newmuxGridInsertHistoryLine gd src yy)

/-- `newmux_preserve_visible_grid`. -/
def newmuxPreserveVisibleGrid (s : Screen) : Screen :=
  let gd := s.grid
  if gd.sy = 0 ∨ newmuxVisibleGridInHistory s then s
  else
    let snapshot := (Grid.create gd.sx gd.sy 0).duplicateLines 0 gd gd.hsize gd.sy
    { s with grid := (insertHistoryLines snapshot 0 snapshot.sy gd).collectHistory true }

/-- `newmux_preserve_alternate_saved_grid`. -/
def newmuxPreserveAlternateSavedGrid (s : Screen) : Screen :=
  match s.savedGrid with
  | none => s
  | some saved =>
      if newmuxAlternateSavedGridInHistory s then s
      else { s with grid := (insertHistoryLines saved 0 saved.sy s.grid).collectHistory true }

/-- `newmux_preserve_pane_history`. -/
def newmuxPreservePaneHistory (wp : Pane) : Pane :=
  { wp with base := newmuxPreserveAlternateSavedGrid (newmuxPreserveVisibleGrid wp.base) }

/-! ## Snapshots around a window restore -/

/-- `struct newmux_pane_history_snapshot`. -/
structure HistorySnapshot where
  paneId : Nat
  hsize : Nat
  grid : Grid
deriving DecidableEq, Repr

/-- The snapshot of one pane; a pane without history has none. -/
def historySnapshot (wp : Pane) : Option HistorySnapshot :=
  let gd := wp.base.grid
  if gd.hsize = 0 then none
  else some
    { paneId := wp.id, hsize := gd.hsize,
      grid := (Grid.create gd.sx gd.hsize 0).duplicateLines 0 gd 0 gd.hsize }

/-- `newmux_history_snapshots_take`. -/
def newmuxHistorySnapshotsTake (sv : Server) (w : Window) : List HistorySnapshot :=
  w.panes.filterMap fun wp => (windowPaneFindById sv wp).bind historySnapshot

/-- `newmux_grid_history_matches_snapshot`. The snapshot keeps the history as
the visible lines of a grid, whose own `hsize` is what is read here. -/
def newmuxGridHistoryMatchesSnapshot (gd snapshot : Grid) : Bool :=
  if snapshot.hsize = 0 then gd.hsize == 0
  else if gd.hsize ≠ snapshot.hsize then false
  else (List.range snapshot.hsize).all (fun yy => newmuxGridLineEqual gd yy snapshot yy)

/-- What `newmux_history_snapshots_restore_if_shrunk` does to a pane's grid. -/
def restoreGrid (snapshot : HistorySnapshot) (gd : Grid) : Grid :=
  if newmuxGridHistoryMatchesSnapshot gd snapshot.grid then gd
  else (insertHistoryLines snapshot.grid 0 snapshot.hsize gd.clearHistory).collectHistory true

/-- `newmux_history_snapshots_restore_if_shrunk`. -/
def newmuxHistorySnapshotsRestoreIfShrunk (sv : Server) : List HistorySnapshot → Server
  | [] => sv
  | snapshot :: snapshots =>
      newmuxHistorySnapshotsRestoreIfShrunk
        (match windowPaneFindById sv snapshot.paneId with
          | none => sv
          | some wp =>
              sv.setPane { wp with base := { wp.base with
                grid := restoreGrid snapshot wp.base.grid } })
        snapshots

/-- `newmux_protect_pane_history_on_next_clear`. -/
def newmuxProtectPaneHistoryOnNextClear (sv : Server) (wp : Nat) : Server :=
  { sv with panes := Table.modify sv.panes wp (fun p => { p with historyProtected := true }) }

/-- `newmux_protect_window_history_on_next_clear`. -/
def newmuxProtectWindowHistoryOnNextClear (sv : Server) (w : Nat) : Server :=
  match windowFindById sv w with
  | none => sv
  | some win => win.panes.foldl newmuxProtectPaneHistoryOnNextClear sv

end Newmux.Recovery
