import Newmux.Base.Table
import Newmux.Tmux.Winlink
import Newmux.Tmux.Grid
import Newmux.Tmux.LayoutCustom

/-!
# The server

The three global trees of the server (sessions, windows, panes) as tables, and
the session groups. Ids are handed out by counters and never reused. Windows
refer to their panes, winlinks to their windows and panes back to their window
by id; a pane's layout cell is the leaf of its window's tree that carries its
id, so that the two can not disagree.
-/

namespace Newmux.Tmux

open Newmux.Base

/-- `pane-scrollbars`. -/
inductive PaneScrollbars where
  | off
  | modal
  | always
deriving DecidableEq, Repr

/-- `pane-scrollbars-position`. -/
inductive ScrollbarsPosition where
  | right
  | left
deriving DecidableEq, Repr

/-- The mode at the head of a pane's mode list; any but copy and view mode
counts as none for the scrollbar. -/
inductive PaneMode where
  | copy
  | view
  | other
deriving DecidableEq, Repr

structure Screen where
  grid : Grid
  savedGrid : Option Grid
deriving DecidableEq, Repr

structure Pane where
  id : Nat
  window : Nat
  sx : Nat
  sy : Nat
  xoff : Nat
  yoff : Nat
  /-- `none` is a closed descriptor, `-1`. -/
  fd : Option Nat
  modes : List PaneMode
  argv : List String
  shell : Option String
  /-- What `osdep_get_name` reports for the foreground process. -/
  osName : Option String
  /-- The pane's own `@newmux-dirty` option, when it is set to a string. -/
  dirtyOption : Option String
  base : Screen
  /-- `PANE_NEWMUX_HISTORY_PROTECTED`. -/
  historyProtected : Bool
  scrollbarWidth : Int
  scrollbarPad : Int
deriving DecidableEq, Repr

structure WindowOptions where
  paneBaseIndex : Nat
  paneBorderStatus : PaneStatus
  paneScrollbars : PaneScrollbars
  paneScrollbarsPosition : ScrollbarsPosition
deriving DecidableEq, Repr

structure Window where
  id : Nat
  name : String
  panes : List Nat
  lastPanes : List Nat
  active : Option Nat
  layoutRoot : Option LayoutCell
  savedLayoutRoot : Option LayoutCell
  zoomed : Bool
  sx : Nat
  sy : Nat
  options : WindowOptions
  /-- Where `panes.tqh_last` points when that is not the end of the list: behind
  this pane. -/
  staleTail : Option Nat := none
deriving Repr

structure SessionOptions where
  baseIndex : Nat
  renumberWindows : Bool
deriving DecidableEq, Repr

structure Session where
  id : Nat
  name : String
  /-- The current winlink, by address. -/
  curw : Option Nat
  /-- The last-window stack, by address. -/
  lastw : List Nat
  windows : Winlinks
  options : SessionOptions
deriving DecidableEq, Repr

instance : Keyed Pane := ⟨Pane.id⟩
instance : Keyed Window := ⟨Window.id⟩
instance : Keyed Session := ⟨Session.id⟩

structure Server where
  /-- In `RB_FOREACH` order, by name. -/
  sessions : List Session
  /-- The members of each session group. -/
  groups : List (List Nat)
  windows : List Window
  panes : List Pane
  nextSessionId : Nat
  nextWindowId : Nat
  nextPaneId : Nat
  /-- The next winlink address. -/
  nextPtr : Nat
  globalSOptions : SessionOptions
  globalWOptions : WindowOptions
deriving Repr

/-! ## Lookups and updates -/

/-- `session_find`. -/
def sessionFind (sv : Server) (name : String) : Option Session :=
  sv.sessions.find? (fun s => s.name == name)

/-- `session_find_by_id`. -/
def sessionFindById (sv : Server) (id : Nat) : Option Session := Table.find sv.sessions id

/-- `window_find_by_id`. -/
def windowFindById (sv : Server) (id : Nat) : Option Window := Table.find sv.windows id

/-- `window_pane_find_by_id`. -/
def windowPaneFindById (sv : Server) (id : Nat) : Option Pane := Table.find sv.panes id

namespace Server

/-- Write a session back. -/
def setSession (sv : Server) (s : Session) : Server :=
  { sv with sessions := Table.modify sv.sessions s.id (fun _ => s) }

/-- Write a window back. -/
def setWindow (sv : Server) (w : Window) : Server :=
  { sv with windows := Table.modify sv.windows w.id (fun _ => w) }

/-- Write a pane back. -/
def setPane (sv : Server) (wp : Pane) : Server :=
  { sv with panes := Table.modify sv.panes wp.id (fun _ => wp) }

/-- Some session links the window: its reference count is not zero. -/
def linked (sv : Server) (w : Nat) : Bool :=
  sv.sessions.any (fun s => s.windows.any (fun wl => wl.window == w))

end Server

/-- `window_destroy`, with the window's panes. -/
def windowDestroy (sv : Server) (w : Nat) : Server :=
  match windowFindById sv w with
  | none => sv
  | some win =>
      { sv with
        windows := Table.remove sv.windows w
        panes := sv.panes.filter (fun wp => !win.panes.contains wp.id) }

/-- `window_remove_ref`, after a winlink to the window is gone. -/
def windowRemoveRef (sv : Server) (w : Nat) : Server :=
  if sv.linked w then sv else windowDestroy sv w

/-! ## Lookups after updates -/

theorem sessionFindById_setSession (sv : Server) (s : Session) (id : Nat) :
    sessionFindById (sv.setSession s) id =
      if id = s.id then (sessionFindById sv id).map (fun _ => s) else sessionFindById sv id :=
  Table.find_modify _ _ _ (fun _ _ => rfl)

theorem windowFindById_setWindow (sv : Server) (w : Window) (id : Nat) :
    windowFindById (sv.setWindow w) id =
      if id = w.id then (windowFindById sv id).map (fun _ => w) else windowFindById sv id :=
  Table.find_modify _ _ _ (fun _ _ => rfl)

theorem windowPaneFindById_setPane (sv : Server) (wp : Pane) (id : Nat) :
    windowPaneFindById (sv.setPane wp) id =
      if id = wp.id then (windowPaneFindById sv id).map (fun _ => wp)
      else windowPaneFindById sv id :=
  Table.find_modify _ _ _ (fun _ _ => rfl)

theorem sessionFindById_id {sv : Server} {id : Nat} {s : Session}
    (h : sessionFindById sv id = some s) : s.id = id := Table.find_some_key h

theorem windowFindById_id {sv : Server} {id : Nat} {w : Window}
    (h : windowFindById sv id = some w) : w.id = id := Table.find_some_key h

theorem windowPaneFindById_id {sv : Server} {id : Nat} {wp : Pane}
    (h : windowPaneFindById sv id = some wp) : wp.id = id := Table.find_some_key h

end Newmux.Tmux
