import Newmux.Live.Output
import Newmux.Tmux.Server

/-!
# Output of a pane in and out of modes

`input_parse_buffer` gives the write context the pane only when no mode is open.
Three operations ask for it: two ways to clear the whole screen scroll it into
the history first, if the pane's options say so, and clearing the history spares
a protected one once.
-/

namespace Newmux.Live

open Newmux.Tmux

namespace Grid

/-- The last used line of the screen, counted from one. -/
def lastUsed (gd : Grid) : Nat :=
  (List.range gd.sy).foldl (fun last yy =>
    if (gd.getLine (gd.viewY yy)).cellused ≠ 0 then yy + 1 else last) 0

/-- The loop of `grid_view_clear_history`. -/
def scrollUsed (bg : Nat) : Nat → Grid → Grid
  | 0, gd => gd
  | n + 1, gd => scrollUsed bg n ((gd.collectHistory false).scrollHistory bg)

/-- `grid_view_clear_history`. -/
def viewClearHistory (gd : Grid) (bg : Nat) : Grid :=
  let last := gd.lastUsed
  if last = 0 then gd.viewClear 0 0 gd.sx gd.sy bg
  else
    let gd := scrollUsed bg last gd
    { (if last < gd.sy then gd.viewClear 0 0 gd.sx (gd.sy - last) bg else gd) with
      hscrolled := 0 }

end Grid

/-- `struct window_pane` as far as its output uses it. -/
structure OutputPane where
  base : Screen
  /-- `PANE_NEWMUX_HISTORY_PROTECTED`. -/
  historyProtected : Bool
  modes : List PaneMode
  /-- `scroll-on-clear`. -/
  scrollOnClear : Bool
deriving DecidableEq, Repr

namespace OutputPane

/-- The write context has the pane: no mode is open. -/
def onPane (wp : OutputPane) : Bool := wp.modes.isEmpty

/-- Set the base screen, leaving the rest. -/
def onBase (wp : OutputPane) (f : Screen → Screen) : OutputPane := { wp with base := f wp.base }

/-- The clear of a whole screen scrolls it into the history. -/
def scrollsOnClear (wp : OutputPane) (ctx : Bool) : Bool :=
  wp.base.grid.history && ctx && wp.scrollOnClear

/-- `screen_write_clearhistory`; `ctx` is whether the context has the pane. -/
def clearHistory (wp : OutputPane) (ctx : Bool) : OutputPane :=
  if ctx && wp.historyProtected then { wp with historyProtected := false }
  else wp.onBase Screen.clearHistory

/-- `screen_write_clearscreen`. -/
def clearScreen (wp : OutputPane) (ctx : Bool) (bg : Nat) : OutputPane :=
  if wp.scrollsOnClear ctx then wp.onBase fun s => s.onGrid fun gd => gd.viewClearHistory bg
  else wp.onBase fun s => s.clearScreen bg

/-- `screen_write_clearendofscreen`. -/
def clearEndOfScreen (wp : OutputPane) (ctx : Bool) (bg : Nat) : OutputPane :=
  if wp.base.cx = 0 ∧ wp.base.cy = 0 ∧ wp.scrollsOnClear ctx then
    wp.onBase fun s => (s.onGrid fun gd => gd.viewClearHistory bg).markDirty 0 s.sy
  else wp.onBase fun s => s.clearEndOfScreen bg

/-- One operation with nothing collected, text apart. -/
def exec (u : Utf8) (wp : OutputPane) (ctx : Bool) : WriteOp → OutputPane
  | .clearHistory => wp.clearHistory ctx
  | .clearScreen bg => wp.clearScreen ctx bg
  | .clearEndOfScreen bg => wp.clearEndOfScreen ctx bg
  | op => wp.onBase fun s => s.exec u op

/-- One operation as `input_parse` issues it. -/
def write (u : Utf8) (wp : OutputPane) (ctx : Bool) (op : WriteOp) : OutputPane :=
  match op with
  | .collectAdd gc => wp.onBase fun s => s.collectAdd u gc
  | op => (wp.onBase Screen.collectEnd).exec u ctx op

/-- `input_parse_buffer`. -/
def inputParseBuffer (u : Utf8) (wp : OutputPane) (ops : List WriteOp) : OutputPane :=
  (ops.foldl (fun wp' op => wp'.write u wp.onPane op) wp).onBase Screen.collectEnd

end OutputPane

/-- What happens to a pane: it prints, a mode opens or closes, it is restored, or
something else changes its screen (a resize, a delete that keeps its screen in
the history, the other screen). -/
inductive PaneEvent
  | output (ops : List WriteOp)
  | modes (modes : List PaneMode)
  | restore (base : Screen)
  | screen (base : Screen)

/-- Run one event. Both restores end in `newmux_protect_pane_history_on_next_clear`,
after they may have put the history back. -/
def OutputPane.run (u : Utf8) (wp : OutputPane) : PaneEvent → OutputPane
  | .output ops => wp.inputParseBuffer u ops
  | .modes modes => { wp with modes }
  | .restore base => { wp with base, historyProtected := true }
  | .screen base => { wp with base }

end Newmux.Live
