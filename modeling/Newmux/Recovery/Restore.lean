import Newmux.Recovery.Attach

/-!
# Restoring closed items

A closed pane goes back into the window it came from, at its old place in the
pane list, and the layout saved with it is parsed back over the window. A
closed window is linked again beside its old neighbours.
-/

namespace Newmux.Recovery

open Newmux.Base Newmux.Tmux

/-- `TAILQ_INSERT_TAIL(&w->panes, wp, entry)`. Behind a stale tail pointer the pane
is not reached from the head, and what came after a pointer into the list is cut off. -/
def insertTail (w : Window) (wp : Nat) : Window :=
  match w.staleTail with
  | none => { w with panes := w.panes ++ [wp] }
  | some p =>
      if p ∈ w.panes then
        { w with panes := w.panes.takeWhile (· != p) ++ [p, wp], staleTail := none }
      else { w with staleTail := some wp }

/-- `newmux_insert_pane_at_index`. -/
def newmuxInsertPaneAtIndex (w : Window) (wp idx : Nat) : Window :=
  match windowPaneAtIndex w idx with
  | some _ => { w with panes := w.panes.insertIdx (idx - w.options.paneBaseIndex) wp }
  | none => insertTail w wp

/-- `newmux_select_pane_index`. -/
def newmuxSelectPaneIndex (sv : Server) (w idx : Nat) : Server :=
  match (windowFindById sv w).bind (fun win => windowPaneAtIndex win idx) with
  | none => sv
  | some wp => windowSetActivePane sv w wp

/-- `newmux_restore_destination_session`; `target` is the command's target
session, if it has one. -/
def newmuxRestoreDestinationSession (sv : Server) (target : Option Nat) (item : ClosedItem) :
    Option Session :=
  let fallback := (target.bind (sessionFindById sv)).filter
    (fun s => s.name != newmuxRecoverySession)
  match sessionFindById sv item.sessionId with
  | some s => some s
  | none =>
      if "newmux-tab-".toList.isPrefixOf item.sessionName.toList then
        (sessionFind sv "newmux").or fallback
      else fallback

/-- `session_select` in a session of the server. -/
def serverSessionSelect (sv : Server) (s : Nat) (idx : Nat) : Server :=
  match sessionFindById sv s with
  | none => sv
  | some ses => sv.setSession (sessionSelect ses idx).2

/-- What `newmux_restore_live_pane` needs to find before it changes anything:
the destination session, the winlink of the destination window in it, and the
recovery window. -/
def findLivePane (sv : Server) (target : Option Nat) (item : ClosedItem) :
    Except String (Session × Winlink × Window) :=
  match newmuxRestoreDestinationSession sv target item with
  | none => .error "newmux restore failed: original session missing"
  | some dstS =>
      match (windowFindById sv item.windowId).bind
          (fun w => winlinkFindByWindow dstS.windows w.id) with
      | none => .error "newmux restore failed: original window missing"
      | some dstWl =>
          match sessionFindById sv item.recoverySessionId,
              windowFindById sv item.recoveryWindowId, windowPaneFindById sv item.paneId with
          | some recoveryS, some recoveryW, some _ =>
              match winlinkFindByWindow recoveryS.windows recoveryW.id with
              | none => .error "newmux restore failed: recovery window missing"
              | some _ => .ok (dstS, dstWl, recoveryW)
          | _, _, _ => .error "newmux restore failed: live pane missing"

/-- Take the pane out of the recovery window: its cell closed, then lost, then off
its list, `panes`, which is another window's after a restore that has failed. -/
def takeParkedPane (sv : Server) (panes : List Nat) (recoveryW wp : Nat) : Server :=
  unlistPane (losePane (layoutClosePane sv wp) recoveryW panes wp) recoveryW wp

/-- Put the pane into the destination window, at its old index. -/
def insertPane (sv : Server) (dstW wp idx : Nat) : Server :=
  let sv := { sv with panes := Table.modify sv.panes wp (fun p => { p with window := dstW }) }
  match windowFindById sv dstW with
  | none => sv
  | some win => sv.setWindow (newmuxInsertPaneAtIndex win wp idx)

/-- Move the pane from the recovery window into the destination window. -/
def movePaneBack (sv : Server) (item : ClosedItem) (dstW recoveryW : Nat) : Server :=
  insertPane (takeParkedPane (windowUnzoom (windowUnzoom sv dstW) recoveryW)
    (paneList sv item.paneId) recoveryW item.paneId) dstW item.paneId item.paneIndex

/-- The end of `newmux_restore_live_pane`, once the layout is in place. -/
def finishPaneRestore (sv : Server) (item : ClosedItem) (dstS : Nat) (dstWl : Winlink)
    (recoveryW : Nat) : Server :=
  let sv := newmuxSelectPaneIndex sv dstWl.window item.activePaneIndex
  let sv := newmuxProtectPaneHistoryOnNextClear sv item.paneId
  let sv := serverSessionSelect sv dstS dstWl.idx
  match windowFindById sv recoveryW with
  | none => sv
  | some win => if windowCountPanes win = 0 then serverKillWindow sv recoveryW true else sv

/-- `newmux_restore_live_pane`. The layout is parsed after the pane has moved,
and a layout that does not fit is an error there. -/
def newmuxRestoreLivePane (sv : Server) (target : Option Nat) (item : ClosedItem) :
    Server × Except String Unit :=
  match findLivePane sv target item with
  | .error cause => (sv, .error cause)
  | .ok (dstS, dstWl, recoveryW) =>
      let sv := movePaneBack sv item dstWl.window recoveryW.id
      match item.windowLayout with
      | none => (finishPaneRestore sv item dstS.id dstWl recoveryW.id, .ok ())
      | some layout =>
          match layoutParse sv dstWl.window layout with
          | (sv, .error cause) => (sv, .error s!"newmux restore layout failed: {cause}")
          | (sv, .ok _) => (finishPaneRestore sv item dstS.id dstWl recoveryW.id, .ok ())

/-- What `newmux_restore_live_window` needs to find: the destination session,
the recovery session with the window's winlink in it, and the window. -/
def findLiveWindow (sv : Server) (target : Option Nat) (item : ClosedItem) :
    Except String (Session × Session × Winlink × Window) :=
  match newmuxRestoreDestinationSession sv target item with
  | none => .error "newmux restore failed: original session missing"
  | some dstS =>
      match sessionFindById sv item.recoverySessionId, windowFindById sv item.windowId with
      | some recoveryS, some w =>
          match winlinkFindByWindow recoveryS.windows w.id with
          | none => .error "newmux restore failed: recovery window missing"
          | some recoveryWl => .ok (dstS, recoveryS, recoveryWl, w)
      | _, _ => .error "newmux restore failed: live window missing"

/-- `newmux_restore_live_window`. -/
def newmuxRestoreLiveWindow (sv : Server) (target : Option Nat) (item : ClosedItem) :
    Server × Except String Unit :=
  match findLiveWindow sv target item with
  | .error cause => (sv, .error cause)
  | .ok (dstS, recoveryS, recoveryWl, w) =>
      let snapshots := newmuxHistorySnapshotsTake sv w
      match newmuxSessionAttachAtSavedPosition sv dstS w.id item with
      | (sv, .error cause) => (sv, .error cause)
      | (sv, .ok dstWl) =>
          let sv := serverUnlinkWindow sv recoveryS.id recoveryWl
          let sv := serverSessionSelect sv dstS.id dstWl.idx
          let sv := newmuxHistorySnapshotsRestoreIfShrunk sv snapshots
          (newmuxProtectWindowHistoryOnNextClear sv w.id, .ok ())

/-- `newmux_restore_closed_item`. -/
def newmuxRestoreClosedItem (sv : Server) (target : Option Nat) (item : ClosedItem) :
    Server × Except String Unit :=
  match item.type with
  | .pane => newmuxRestoreLivePane sv target item
  | .window => newmuxRestoreLiveWindow sv target item
  | .session => (sv, .error "newmux restore failed: unsupported item type")

end Newmux.Recovery
