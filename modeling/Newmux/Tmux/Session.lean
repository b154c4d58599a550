import Newmux.Tmux.Server

/-!
# Sessions

`session.c` and the part of `server-fn.c` that moves windows between sessions.
What touches one session only is a function on `Session`; what reaches the
session's group, the window table or other sessions is a function on `Server`.
The return codes are the source's: `0` moved, `1` nothing to do, `-1` no such
window.
-/

namespace Newmux.Tmux

open Newmux.Base

/-! ## One session -/

/-- The current winlink. -/
def Session.curLink (s : Session) : Option Winlink := s.curw.bind (winlinkAt s.windows)

/-- `session_set_current`. -/
def sessionSetCurrent (s : Session) (wl : Option Winlink) : Int × Session :=
  match wl with
  | none => (-1, s)
  | some wl =>
      if s.curw = some wl.ptr then (1, s)
      else
        let lastw := s.lastw.filter (· != wl.ptr)
        let lastw := match s.curw with
          | none => lastw
          | some cur => cur :: lastw.filter (· != cur)
        (0, { s with lastw, curw := some wl.ptr })

/-- `session_select`. -/
def sessionSelect (s : Session) (idx : Nat) : Int × Session :=
  sessionSetCurrent s (winlinkFindByIndex s.windows idx)

/-- `session_last`. -/
def sessionLast (s : Session) : Int × Session :=
  match s.lastw.head? with
  | none => (-1, s)
  | some p => if s.curw = some p then (1, s) else sessionSetCurrent s (winlinkAt s.windows p)

/-- `session_next`, without alerts. -/
def sessionNext (s : Session) : Int × Session :=
  match s.curw with
  | none => (-1, s)
  | some cur => sessionSetCurrent s ((winlinkNext s.windows cur).or s.windows.head?)

/-- `session_previous`, without alerts. -/
def sessionPrevious (s : Session) : Int × Session :=
  match s.curw with
  | none => (-1, s)
  | some cur => sessionSetCurrent s ((winlinkPrevious s.windows cur).or s.windows.getLast?)

/-- The `session_last(s) != 0 && session_previous(s, 0) != 0` chain that moves a
session off its current window. -/
def sessionLeaveCurrent (s : Session) : Session :=
  let (r, s) := sessionLast s
  if r = 0 then s
  else
    let (r, s) := sessionPrevious s
    if r = 0 then s else (sessionNext s).2

/-- `winlink_add` of every window of the target into an empty tree, in order. -/
def relink : Nat → Winlinks → Winlinks
  | _, [] => []
  | ptr, wl :: ww => { wl with ptr } :: relink (ptr + 1) ww

/-- The pure part of `session_group_synchronize1`: `s` after it has been rebuilt
from `target`, with the new winlinks at addresses from `ptr`. -/
def synchronizeLinks (target s : Session) (ptr : Nat) : Session :=
  let s := match s.curLink with
    | some cur =>
        if (winlinkFindByIndex target.windows cur.idx).isNone then sessionLeaveCurrent s else s
    | none => s
  let windows := relink ptr target.windows
  -- a winlink of the old tree is found again in the new one by its index
  let again (wl : Winlink) : Option Nat := (winlinkFindByIndex windows wl.idx).map Winlink.ptr
  let curw := match s.curw with
    | some _ => s.curLink.bind again
    | none => target.curLink.bind again
  let lastw := s.lastw.filterMap (fun p => (winlinkAt s.windows p).bind again)
  { s with windows, curw, lastw }

/-- The renumbering loop of `session_renumber_windows`. -/
def renumber : Nat → Nat → Winlinks → Winlinks
  | _, _, [] => []
  | ptr, idx, wl :: ww => { wl with ptr, idx } :: renumber (ptr + 1) (idx + 1) ww

/-- `session_renumber_windows`, with the new winlinks at addresses from `ptr`. -/
def sessionRenumberWindows (s : Session) (ptr : Nat) : Session :=
  let windows := renumber ptr s.options.baseIndex s.windows
  -- the winlink that takes the current one's place is at the same position
  let newCurwIdx := match s.curw with
    | none => 0
    | some cur => ((s.windows.zip windows).find? (fun p => p.1.ptr == cur)).elim 0 (·.2.idx)
  let lastw := s.lastw.filterMap fun p =>
    (winlinkAt s.windows p).bind fun wl =>
      (winlinkFindByWindow windows wl.window).map Winlink.ptr
  { s with windows, lastw, curw := (winlinkFindByIndex windows newCurwIdx).map Winlink.ptr }

/-! ## Session groups -/

/-- `session_group_contains`. -/
def sessionGroupContains (sv : Server) (s : Nat) : Option (List Nat) :=
  sv.groups.find? (fun sg => sg.contains s)

/-- `session_group_remove`. -/
def sessionGroupRemove (sv : Server) (s : Nat) : Server :=
  { sv with groups := (sv.groups.map (fun sg => sg.filter (· != s))).filter (fun sg => !sg.isEmpty) }

/-- `session_group_synchronize1`. -/
def sessionGroupSynchronize1 (sv : Server) (target s : Nat) : Server :=
  match sessionFindById sv target, sessionFindById sv s with
  | some t, some m =>
      if t.windows.isEmpty then sv
      else
        let sv := sv.setSession (synchronizeLinks t m sv.nextPtr)
        let sv := { sv with nextPtr := sv.nextPtr + t.windows.length }
        m.windows.foldl (fun sv wl => windowRemoveRef sv wl.window) sv
  | _, _ => sv

/-- `session_group_synchronize_from`. -/
def sessionGroupSynchronizeFrom (sv : Server) (target : Nat) : Server :=
  match sessionGroupContains sv target with
  | none => sv
  | some sg => (sg.filter (· != target)).foldl (fun sv s => sessionGroupSynchronize1 sv target s) sv

/-! ## Creating and destroying sessions, attaching and detaching windows -/

/-- `session_create` with a name. -/
def sessionCreate (sv : Server) (name : String) : Server × Nat :=
  let s : Session :=
    { id := sv.nextSessionId, name, curw := none, lastw := [], windows := [],
      options := sv.globalSOptions }
  ({ sv with
      sessions := sv.sessions.orderedInsert (fun a b => a.name ≤ b.name) s
      nextSessionId := sv.nextSessionId + 1 }, s.id)

/-- `session_destroy`; a session without a current window is left alone. -/
def sessionDestroy (sv : Server) (s : Nat) : Server :=
  match sessionFindById sv s with
  | none => sv
  | some ses =>
      if ses.curw = none then sv
      else
        let sv := sessionGroupRemove { sv with sessions := Table.remove sv.sessions s } s
        ses.windows.foldl (fun sv wl => windowRemoveRef sv wl.window) sv

/-- `server_destroy_session_group`. -/
def serverDestroySessionGroup (sv : Server) (s : Nat) : Server :=
  match sessionGroupContains sv s with
  | none => sessionDestroy sv s
  | some sg => sg.foldl sessionDestroy sv

/-- `winlink_remove`. -/
def sessionUnlink (sv : Server) (s : Session) (wl : Winlink) : Server :=
  windowRemoveRef (sv.setSession { s with windows := winlinkRemove s.windows wl.ptr }) wl.window

/-- `session_attach`. -/
def sessionAttach (sv : Server) (s w : Nat) (idx : Int) : Server × Except String Winlink :=
  match sessionFindById sv s with
  | none => (sv, .error "no session")
  | some ses =>
      match winlinkAdd ses.windows idx sv.nextPtr w with
      | none => (sv, .error s!"index in use: {idx}")
      | some (wl, windows) =>
          let sv := { sv.setSession { ses with windows } with nextPtr := sv.nextPtr + 1 }
          (sessionGroupSynchronizeFrom sv s, .ok wl)

/-- The session has no windows left. -/
def sessionEmpty (sv : Server) (s : Nat) : Bool :=
  match sessionFindById sv s with
  | none => true
  | some ses => ses.windows.isEmpty

/-- `session_detach` up to the `winlink_remove`: move off the window, and take
it off the last-window stack. -/
def detachReady (ses : Session) (wl : Winlink) : Session :=
  let ses := if ses.curw = some wl.ptr then sessionLeaveCurrent ses else ses
  { ses with lastw := ses.lastw.filter (· != wl.ptr) }

/-- `session_detach`; true when the session is left empty. -/
def sessionDetach (sv : Server) (s : Nat) (wl : Winlink) : Server × Bool :=
  match sessionFindById sv s with
  | none => (sv, true)
  | some ses =>
      let sv := sessionGroupSynchronizeFrom (sessionUnlink sv (detachReady ses wl) wl) s
      (sv, sessionEmpty sv s)

/-- `server_unlink_window`. -/
def serverUnlinkWindow (sv : Server) (s : Nat) (wl : Winlink) : Server :=
  let (sv, empty) := sessionDetach sv s wl
  if empty then serverDestroySessionGroup sv s else sv

/-- `session_renumber_windows` in a session of the server. -/
def renumberMember (sv : Server) (m : Nat) : Server :=
  match sessionFindById sv m with
  | none => sv
  | some mem =>
      { sv.setSession (sessionRenumberWindows mem sv.nextPtr) with
        nextPtr := sv.nextPtr + mem.windows.length }

/-- `server_renumber_session`: by the option of `s`, for its whole group. -/
def serverRenumberSession (sv : Server) (s : Nat) : Server :=
  match sessionFindById sv s with
  | none => sv
  | some ses =>
      if ses.options.renumberWindows then
        ((sessionGroupContains sv s).getD [s]).foldl renumberMember sv
      else sv

end Newmux.Tmux
