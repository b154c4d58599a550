import Newmux.Recovery.Item

/-!
# Attaching and detaching without notifications

Moving a window between a session and the recovery session, and finding the
place a restored window goes back to: after its old left neighbour, before its
old right neighbour, or at its old ordinal.
-/

namespace Newmux.Recovery

open Newmux.Base Newmux.Tmux

/-- `newmux_session_detach_silent` up to the `winlink_remove`: move to the next
window, or else the previous one. -/
def detachSilentReady (ses : Session) (wl : Winlink) : Session :=
  let ses :=
    if ses.curw = some wl.ptr then
      match (winlinkNext ses.windows wl.ptr).or (winlinkPrevious ses.windows wl.ptr) with
      | some next => (sessionSetCurrent ses (some next)).2
      | none => { ses with curw := none }
    else ses
  { ses with lastw := ses.lastw.filter (· != wl.ptr) }

/-- `newmux_session_detach_silent`; true when the session is left empty. -/
def newmuxSessionDetachSilent (sv : Server) (s : Nat) (wl : Winlink) : Server × Bool :=
  match sessionFindById sv s with
  | none => (sv, true)
  | some ses =>
      let sv := sessionGroupSynchronizeFrom (sessionUnlink sv (detachSilentReady ses wl) wl) s
      (sv, sessionEmpty sv s)

/-- `newmux_session_attach_silent`. -/
def newmuxSessionAttachSilent (sv : Server) (s w : Nat) (idx : Int) :
    Server × Except String Winlink :=
  match sessionFindById sv s with
  | none => (sv, .error "no session")
  | some ses =>
      match winlinkAdd ses.windows idx sv.nextPtr w with
      | none => (sv, .error s!"index in use: {idx}")
      | some (wl, windows) =>
          let ses := { ses with windows }
          let ses := if ses.curw = none then (sessionSetCurrent ses (some wl)).2 else ses
          let sv := { sv.setSession ses with nextPtr := sv.nextPtr + 1 }
          (sessionGroupSynchronizeFrom sv s, .ok wl)

/-- `winlink_shuffle_up` in a session of the server: the freed index. -/
def sessionShuffleUp (sv : Server) (s : Session) (wl : Winlink) (before : Bool) :
    Option (Nat × Server) :=
  (winlinkShuffleUp s.windows wl before).map fun r => (r.1, sv.setSession { s with windows := r.2 })

/-- Make room at (or after) a winlink and attach there; `cause` is the error
when there is no room. -/
def attachBeside (sv : Server) (s : Session) (w : Nat) (wl : Winlink) (before : Bool)
    (cause : String) : Server × Except String Winlink :=
  match sessionShuffleUp sv s wl before with
  | none => (sv, .error cause)
  | some (idx, sv) => newmuxSessionAttachSilent sv s.id w idx

/-- `newmux_session_attach_at_original_index`. -/
def newmuxSessionAttachAtOriginalIndex (sv : Server) (s : Session) (w : Nat) (idx : Int) :
    Server × Except String Winlink :=
  if idx < 0 then newmuxSessionAttachSilent sv s.id w (-1)
  else
    match winlinkFindByIndex s.windows idx.toNat with
    | none => newmuxSessionAttachSilent sv s.id w idx
    | some wl => attachBeside sv s w wl true s!"index in use: {idx}"

/-- The winlink of a saved neighbour, if that window is still there and still
linked into the session. -/
def neighbourLink (sv : Server) (s : Session) (id : Int) : Option Winlink :=
  if id < 0 then none
  else (windowFindById sv id.toNat).bind fun w => winlinkFindByWindow s.windows w.id

/-- `newmux_session_attach_at_saved_position`. -/
def newmuxSessionAttachAtSavedPosition (sv : Server) (s : Session) (w : Nat)
    (item : ClosedItem) : Server × Except String Winlink :=
  match neighbourLink sv s item.leftWindowId with
  | some wl =>
      attachBeside sv s w wl false s!"index in use after window: @{item.leftWindowId}"
  | none =>
      match neighbourLink sv s item.rightWindowId with
      | some wl =>
          attachBeside sv s w wl true s!"index in use before window: @{item.rightWindowId}"
      | none =>
          if item.windowPosition ≥ 0 then
            match newmuxWinlinkAtPosition s item.windowPosition.toNat with
            | none => newmuxSessionAttachSilent sv s.id w (-1)
            | some wl =>
                attachBeside sv s w wl true s!"index in use at position: {item.windowPosition}"
          else newmuxSessionAttachAtOriginalIndex sv s w item.windowIndex

/-! ## Moving panes and windows to and from the recovery session -/

/-- `newmux_recovery_session_get`. -/
def newmuxRecoverySessionGet (sv : Server) : Server × Nat :=
  match sessionFind sv newmuxRecoverySession with
  | some s => (sv, s.id)
  | none => sessionCreate sv newmuxRecoverySession

/-- Push the panes' screens into their histories, in a window that is about to
be parked. -/
def preserveHistories (sv : Server) (panes : List Nat) : Server :=
  { sv with
    panes := sv.panes.map fun wp =>
      if panes.contains wp.id then newmuxPreservePaneHistory wp else wp }

/-- `newmux_break_live_window`. -/
def newmuxBreakLiveWindow (sv : Server) (item : ClosedItem) (srcS : Nat) (srcWl : Winlink) :
    Server × Except String ClosedItem :=
  let (sv, dstS) := newmuxRecoverySessionGet sv
  let sv := windowUnzoom sv srcWl.window
  let sv := preserveHistories sv (((windowFindById sv srcWl.window).map Window.panes).getD [])
  match newmuxSessionAttachSilent sv dstS srcWl.window (-1) with
  | (sv, .error cause) => (sv, .error cause)
  | (sv, .ok _) =>
      let item := { item with recoverySessionId := dstS, recoveryWindowId := srcWl.window }
      match newmuxSessionDetachSilent sv srcS srcWl with
      | (sv, true) => (sv, .error "newmux recovery failed: source session became empty")
      | (sv, false) => (sv, .ok item)

/-- What `TAILQ_REMOVE(&w->panes, wp, entry)` makes of a window. The pane comes off
the list it is on, whichever that is; if it was the last there, the tail pointer set
back is that of `w`, and the one of another window stays behind the pane. -/
def unlistedWindow (w wp : Nat) (win : Window) : Window :=
  { win with
    panes := win.panes.filter (· != wp)
    staleTail :=
      if win.panes.getLast? = some wp then
        if win.id = w then none else win.staleTail.or (some wp)
      else win.staleTail }

/-- `TAILQ_REMOVE(&w->panes, wp, entry)`. What becomes of the tail pointer of `w`
when the pane was the last of another list is not followed: only parked windows
come to that, and nothing is inserted into those. -/
def unlistPane (sv : Server) (w wp : Nat) : Server :=
  { sv with windows := sv.windows.map (unlistedWindow w wp) }

/-- The list a pane is on. -/
def paneList (sv : Server) (wp : Nat) : List Nat :=
  ((sv.windows.find? (fun w => w.panes.contains wp)).map Window.panes).getD []

/-- `window_lost_pane` in a window of the server; `panes` is the list the pane is
taken from. -/
def losePane (sv : Server) (w : Nat) (panes : List Nat) (wp : Nat) : Server :=
  match windowFindById sv w with
  | none => sv
  | some win => sv.setWindow (windowLostPane win panes wp)

/-- Take the pane out of its window: off the list, then lost (it still knows its
old neighbours), then its cell closed. -/
def takePane (sv : Server) (w wp : Nat) : Server :=
  let panes := ((windowFindById sv w).map Window.panes).getD []
  layoutClosePane (losePane (unlistPane sv w wp) w panes wp) wp

/-- Put the pane into a new window of its own, of the pane's size. -/
def housePane (sv : Server) (wp sequence : Nat) : Server × Nat :=
  let size := ((windowPaneFindById sv wp).map fun p => (p.sx, p.sy)).getD (0, 0)
  let dstW := sv.nextWindowId
  let sv := (windowCreate sv size.1 size.2).1
  let sv := { sv with
    panes := Table.modify sv.panes wp (fun p => { p with window := dstW })
    windows := Table.modify sv.windows dstW fun win =>
      { win with panes := [wp], active := some wp, name := s!"newmux-recovery-{sequence}" } }
  (layoutInit sv dstW wp, dstW)

/-- The part of `newmux_break_live_pane` before the attach. -/
def breakPane (sv : Server) (w wp sequence : Nat) : Server × Nat :=
  housePane (takePane (preserveHistories (windowUnzoom sv w) [wp]) w wp) wp sequence

/-- `newmux_break_live_pane`. -/
def newmuxBreakLivePane (sv : Server) (item : ClosedItem) (srcWl : Winlink) (wp : Nat) :
    Server × Except String ClosedItem :=
  let (sv, dstS) := newmuxRecoverySessionGet sv
  let (sv, dstW) := breakPane sv srcWl.window wp item.sequence
  match sessionAttach sv dstS dstW (-1) with
  | (sv, .error cause) => (sv, .error cause)
  | (sv, .ok dstWl) =>
      let sv := match sessionFindById sv dstS with
        | none => sv
        | some s => if s.curw = none then sv.setSession (sessionSelect s dstWl.idx).2 else sv
      (sv, .ok { item with recoverySessionId := dstS, recoveryWindowId := dstW })

end Newmux.Recovery
