import Newmux.Base.Strtoll
import Newmux.Recovery.Restore

/-!
# The commands

The `exec` functions of the recovery commands. A command's target has been
resolved by the command queue to a session, a winlink in it and a pane of that
winlink's window; what it prints and the errors it reports are collected in the
result.
-/

namespace Newmux.Recovery

open Newmux.Base Newmux.Tmux

/-- `enum cmd_retval`. -/
inductive CmdRetval where
  | normal
  | error
deriving DecidableEq, Repr

/-- A command's return value, its `cmdq_print` and its `cmdq_error` output. -/
structure CmdResult where
  retval : CmdRetval
  prints : List String
  errors : List String
deriving DecidableEq, Repr

def CmdResult.ok (prints : List String) : CmdResult := ⟨.normal, prints, []⟩

def CmdResult.fail (errors : List String) : CmdResult := ⟨.error, [], errors⟩

/-- A resolved target. -/
structure Target where
  session : Nat
  wl : Winlink
  wp : Option Nat
deriving DecidableEq, Repr

/-- `newmux_primary_session_from_args`. -/
def newmuxPrimarySessionFromArgs (sv : Server) (name : Option String) (fallback : Nat) :
    Except String Session :=
  match name.filter (· != "") with
  | none =>
      match sessionFindById sv fallback with
      | some s => .ok s
      | none => .error "no session"
  | some name =>
      match sessionFind sv name with
      | some s => .ok s
      | none => .error s!"newmux session missing: {name}"

/-! ## Fresh and dirty windows -/

/-- `newmux_pane_current_command_is_shell`. -/
def newmuxPaneCurrentCommandIsShell (wp : Pane) : Bool :=
  let cmd := (wp.osName.filter (· != "")).getD (String.intercalate " " wp.argv)
  let cmd := if cmd = "" then wp.shell.getD "" else cmd
  -- what follows the last slash, without a login shell's dash
  let base := (cmd.toList.reverse.takeWhile (· != '/')).reverse
  let base := if base.head? = some '-' then base.tail else base
  ["zsh", "bash", "fish", "sh"].any (fun shell => shell.toList == base)

/-- `newmux_pane_looks_fresh`. -/
def newmuxPaneLooksFresh (wp : Pane) : Bool :=
  let gd := wp.base.grid
  let used := (List.range gd.sy).countP fun yy =>
    match gd.peekLine (gd.hsize + yy) with
    | some gl => gl.cellused != 0
    | none => false
  wp.fd.isSome && wp.modes.isEmpty && wp.argv.length == 0 &&
    newmuxPaneCurrentCommandIsShell wp && wp.base.savedGrid.isNone && gd.hsize == 0 &&
    decide (used ≤ 1)

/-- `newmux_window_looks_fresh`. -/
def newmuxWindowLooksFresh (sv : Server) (w : Window) : Bool :=
  windowCountPanes w == 1 &&
    match w.panes.head?.bind (windowPaneFindById sv) with
    | none => false
    | some wp => newmuxPaneLooksFresh wp

/-- `newmux_pane_is_dirty`. -/
def newmuxPaneIsDirty (wp : Pane) : Bool :=
  match wp.dirtyOption with
  | none => false
  | some value => value != "" && value != "0"

/-- `newmux_window_is_dirty`. -/
def newmuxWindowIsDirty (sv : Server) (w : Window) : Bool :=
  w.panes.any fun wp =>
    match windowPaneFindById sv wp with
    | none => false
    | some wp => newmuxPaneIsDirty wp

/-- The winlink has no neighbour on either side. -/
def lastTab (s : Session) (wl : Winlink) : Bool :=
  (winlinkNext s.windows wl.ptr).isNone && (winlinkPrevious s.windows wl.ptr).isNone

/-! ## Deleting -/

/-- Park an item and push it, the end of the soft deletes: an item whose break
failed is freed. -/
def pushBroken (σ : State) (broken : Server × Except String ClosedItem) :
    State × Except String ClosedItem :=
  match broken with
  | (server, .error cause) => ({ σ with server }, .error cause)
  | (server, .ok item) => (newmuxStackPush { σ with server } item, .ok item)

/-- `cmd_newmux_soft_delete_pane_exec`. -/
def cmdNewmuxSoftDeletePaneExec (σ : State) (target : Target) : State × CmdResult :=
  match target.wp, sessionFindById σ.server target.session,
      windowFindById σ.server target.wl.window with
  | some wp, some s, some w =>
      if windowCountPanes w = 1 then
        (σ, .fail ["newmux live pane recovery does not delete the last pane yet"])
      else
        let (item, σ) := newmuxItemFromPane σ s target.wl w wp
        match pushBroken σ (newmuxBreakLivePane σ.server item target.wl wp) with
        | (σ, .error cause) => (σ, .fail [cause])
        | (σ, .ok _) => (σ, .ok [])
  | _, _, _ => (σ, .fail [])

/-- `cmd_newmux_soft_delete_window_exec`. -/
def cmdNewmuxSoftDeleteWindowExec (σ : State) (target : Target) : State × CmdResult :=
  match sessionFindById σ.server target.session, windowFindById σ.server target.wl.window with
  | some s, some w =>
      if lastTab s target.wl then
        (σ, .fail ["newmux live tab recovery does not delete the last tab yet"])
      else if newmuxWindowLooksFresh σ.server w then
        ({ σ with server := serverKillWindow σ.server w.id true }, .ok [])
      else
        let (item, σ) := newmuxItemFromWindow σ s target.wl w
        match pushBroken σ (newmuxBreakLiveWindow σ.server item s.id target.wl) with
        | (σ, .error cause) => (σ, .fail [cause])
        | (σ, .ok _) => (σ, .ok [])
  | _, _ => (σ, .fail [])

/-- The line a soft `newmux-delete-window -P` prints. -/
def softDeleteLine (item : ClosedItem) : String :=
  s!"ok=1 action=delete kind=window mode=soft soft=1 sequence={item.sequence} " ++
    s!"window=@{item.windowId} window_id=@{item.windowId} window_index={item.windowIndex} " ++
    s!"target_index={item.windowPosition} {newmuxWindowOrderString item} live=1"

/-- The session and winlink `newmux-delete-window` works on: the primary
session's, or the target's when the primary does not link the window. -/
def deleteLink (sv : Server) (primary : Session) (target : Target) : Option (Session × Winlink) :=
  match winlinkFindByWindow primary.windows target.wl.window with
  | some wl => some (primary, wl)
  | none => (sessionFindById sv target.session).map fun s => (s, target.wl)

/-- `cmd_newmux_delete_window_exec`; `primary` is the `-s` argument. -/
def cmdNewmuxDeleteWindowExec (σ : State) (primary : Option String) (print : Bool)
    (target : Target) : State × CmdResult :=
  match newmuxPrimarySessionFromArgs σ.server primary target.session with
  | .error cause => (σ, .fail [cause])
  | .ok s =>
      match deleteLink σ.server s target, windowFindById σ.server target.wl.window with
      | some (s, wl), some w =>
          if lastTab s wl then
            (σ, .fail ["newmux live tab recovery does not delete the last tab yet"])
          else if !newmuxWindowIsDirty σ.server w then
            ({ σ with server := serverKillWindow σ.server w.id true },
              .ok (if print then [newmuxPrintWindowResult "delete" s wl (some "mode=hard soft=0")]
                else []))
          else
            let (item, σ) := newmuxItemFromWindow σ s wl w
            match pushBroken σ (newmuxBreakLiveWindow σ.server item s.id wl) with
            | (σ, .error cause) => (σ, .fail [cause])
            | (σ, .ok item) => (σ, .ok (if print then [softDeleteLine item] else []))
      | _, _ => (σ, .fail [])

/-! ## Reopening, reserving, claiming and releasing -/

/-- Restore an item that is off the stacks; one that can not be restored goes
back to the head of the closed stack. -/
def restoreOrPushBack (σ : State) (target : Option Nat) (item : ClosedItem) (print : Bool) :
    State × CmdResult :=
  match newmuxRestoreClosedItem σ.server target item with
  | (server, .error cause) => (newmuxStackPush { σ with server } item, .fail [cause])
  | (server, .ok _) =>
      ({ σ with server },
        .ok (if print then [newmuxPrintClosedItem server item false] else []))

/-- `cmd_newmux_reopen_latest_closed_exec`. -/
def cmdNewmuxReopenLatestClosedExec (σ : State) (target : Option Nat) (print : Bool) :
    State × CmdResult :=
  match newmuxStackPop σ with
  | none =>
      (σ, .ok (if print then ["ok=1 action=restore restored=0 reason=empty_stack"] else []))
  | some (item, σ) => restoreOrPushBack σ target item print

/-- `cmd_newmux_reserve_latest_closed_exec`. -/
def cmdNewmuxReserveLatestClosedExec (σ : State) (print : Bool) : State × CmdResult :=
  match newmuxStackPop σ with
  | none => (σ, .ok [])
  | some (item, σ) =>
      (newmuxReservedPush σ item,
        .ok (if print then [newmuxPrintClosedItem σ.server item true] else []))

/-- The `-S` argument of claim and release. -/
def reservedSequence (value : Option String) : Except String Nat :=
  match value with
  | none => .error "missing reserved sequence"
  | some value =>
      match strtonum value 1 4294967295 with
      | none => .error s!"invalid reserved sequence: {value}"
      | some n => .ok n.toNat

/-- `cmd_newmux_claim_reserved_closed_exec`. -/
def cmdNewmuxClaimReservedClosedExec (σ : State) (value : Option String)
    (target : Option Nat) (print : Bool) : State × CmdResult :=
  match reservedSequence value with
  | .error cause => (σ, .fail [cause])
  | .ok sequence =>
      match newmuxReservedPopBySequence σ sequence with
      | none => (σ, .ok [])
      | some (item, σ) => restoreOrPushBack σ target item print

/-- `cmd_newmux_release_reserved_closed_exec`. -/
def cmdNewmuxReleaseReservedClosedExec (σ : State) (value : Option String) (print : Bool) :
    State × CmdResult :=
  match reservedSequence value with
  | .error cause => (σ, .fail [cause])
  | .ok sequence =>
      match newmuxReservedPopBySequence σ sequence with
      | none =>
          (σ, .ok (if print then
            [s!"ok=1 action=release released=0 reason=missing sequence={sequence}"] else []))
      | some (item, σ) =>
          (newmuxStackPush σ item,
            .ok (if print then [s!"ok=1 action=release released=1 sequence={sequence}"] else []))

/-- The line of one item in the listing. -/
def recentlyClosedLine (item : ClosedItem) : String :=
  let kind := newmuxClosedTypeString item.type
  let place := s!"session={item.sessionName} window={item.windowName}"
  match item.type with
  | .pane => s!"{item.sequence} {kind} {place} pane=%{item.paneId} live=1"
  | _ => s!"{item.sequence} {kind} {place} live=1"

/-- `cmd_newmux_list_recently_closed_exec`. -/
def cmdNewmuxListRecentlyClosedExec (σ : State) : State × CmdResult :=
  (σ, .ok (σ.closedStack.map recentlyClosedLine))

/-- `cmd_newmux_clear_recently_closed_exec`. -/
def cmdNewmuxClearRecentlyClosedExec (σ : State) : State × CmdResult :=
  (newmuxRecoveryClear σ, .ok [])

end Newmux.Recovery
