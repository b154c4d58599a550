import Newmux.Recovery.Commands

/-!
# Creating a window

`newmux-create-window` makes room in the primary session and spawns a detached
window there. Whether the pane's process starts, and what the new pane looks
like, is the environment's answer.
-/

namespace Newmux.Recovery

open Newmux.Base Newmux.Tmux

/-- The environment's part in a spawn: the size of the window, and the pane
(its id, window and place are set by the spawn) or the error. -/
structure Spawn where
  sx : Nat
  sy : Nat
  pane : Except String Pane

/-- `spawn_window` with `SPAWN_DETACHED` and no window to respawn. -/
def spawnWindow (sv : Server) (s : Session) (idx : Int) (spawn : Spawn) :
    Server × Except String Winlink :=
  if idx ≠ -1 ∧ (winlinkFindByIndex s.windows idx.toNat).isSome then
    (sv, .error s!"index {idx} in use")
  else
    let idx := if idx = -1 then -1 - (s.options.baseIndex : Int) else idx
    match winlinkAdd s.windows idx sv.nextPtr sv.nextWindowId with
    | none => (sv, .error s!"couldn't add window {idx}")
    | some (wl, windows) =>
        match spawn.pane with
        | .error cause =>
            ({ sv with
                nextWindowId := sv.nextWindowId + 1
                nextPaneId := sv.nextPaneId + 1
                nextPtr := sv.nextPtr + 1 }, .error cause)
        | .ok wp =>
            let id := sv.nextPaneId
            let (sv, w) := windowCreate sv spawn.sx spawn.sy
            let s := { s with windows, curw := s.curw.or (some wl.ptr) }
            let sv := { sv.setSession s with
              nextPtr := sv.nextPtr + 1
              nextPaneId := id + 1
              panes := { wp with id, window := w, sx := spawn.sx, sy := spawn.sy, xoff := 0, yoff := 0 } ::
                sv.panes
              windows := Table.modify sv.windows w fun win =>
                { win with panes := [id], active := some id } }
            (sessionGroupSynchronizeFrom (layoutInit sv w id) s.id, .ok wl)

/-- Where `newmux-create-window` inserts: `-i` counts tabs, otherwise after the
target (in another session: after the current window). A failed shuffle and no
position both mean the next free index. -/
def insertionLink (s : Session) (position : Option Nat) (target : Target) :
    Option (Winlink × Bool) :=
  match position with
  | some position => (newmuxWinlinkAtPosition s position).map (·, true)
  | none =>
      if target.session = s.id then some (target.wl, false) else s.curLink.map (·, false)

/-- Free the insertion index: the session with its links shuffled, and the
index, `-1` for none. -/
def makeRoom (sv : Server) (s : Session) (at? : Option (Winlink × Bool)) : Server × Session × Int :=
  match at? with
  | none => (sv, s, -1)
  | some (wl, before) =>
      match winlinkShuffleUp s.windows wl before with
      | none => (sv, s, -1)
      | some (idx, windows) => (sv.setSession { s with windows }, { s with windows }, idx)

/-- `cmd_newmux_create_window_exec`; `primary` is the `-s` argument and
`position` the `-i` argument. -/
def cmdNewmuxCreateWindowExec (σ : State) (primary position : Option String) (print : Bool)
    (target : Target) (spawn : Spawn) : State × CmdResult :=
  match newmuxPrimarySessionFromArgs σ.server primary target.session with
  | .error cause => (σ, .fail [cause])
  | .ok s =>
      match position.map (fun value => (value, strtonum value 0 intMax)) with
      | some (value, none) => (σ, .fail [s!"invalid target index: {value}"])
      | some (_, some n) => create s (some n.toNat)
      | none => create s none
where
  create (s : Session) (position : Option Nat) : State × CmdResult :=
    let (sv, s, idx) := makeRoom σ.server s (insertionLink s position target)
    match spawnWindow sv s idx spawn with
    | (server, .error cause) =>
        ({ σ with server }, .fail [s!"newmux create window failed: {cause}"])
    | (server, .ok wl) =>
        let s := (sessionFindById server s.id).getD s
        ({ σ with server },
          .ok (if print then [newmuxPrintWindowResult "create" s wl none] else []))

end Newmux.Recovery
