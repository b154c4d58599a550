import Newmux.Live.Wheel

/-!
# Live copy mode: the steps

Entering with `copy-mode -L`, and what can then happen to the mode: output, resizes,
the wheel and its timer, the mouse, and the commands that scroll, move by lines and
pages, select and copy. Moves along a line, by words, to a match or to a mark are not
among the steps. A command with a repeat count is as many steps.
-/

namespace Newmux.Live

open Newmux.Tmux

/-- `window_copy_init` with `-L`; the other flags are those of `copy-mode`. -/
def CopyMode.enter (base : Screen) (hidePosition scrollExit lineNumbers : Bool) : CopyMode :=
  { backing := base.clean, sx := base.sx, sy := base.sy, sel := false
    liveHsize := base.hsize, oy := 0
    selx := 0, sely := 0, endselx := 0, endsely := 0
    nativeSelActive := false, nativeSelDragging := false, nativeSelSuppressCursor := false
    nativeSelEdge := 0, nativeSelEdgeX := 0, nativeSelEdgeY := 0
    nativeSelStartX := 0, nativeSelStartY := 0, nativeSelEndX := 0, nativeSelEndY := 0
    cursordrag := .none, lineflag := .none, rectflag := false
    scrollExit, hidePosition, lineNumbers
    selflag := .char, dx := 0, dy := 0, selrx := 0, selry := 0, endselrx := 0, endselry := 0
    cx := base.cx, cy := base.cy, lastcx := 0, lastsx := 0
    mx := base.cx, my := base.hsize + base.cy, showmark := false
    search :=
      { mark := none, count := 0, more := false, timeout := false, x := -1, y := -1, o := -1 }
    wheel :=
      { lastValid := false, lastTime := 0, emitValid := false, emitTime := 0
        direction := 0, emitCount := 0, pendingMilli := 0, timer := none } }

inductive CopyOp
  | output (ops : List WriteOp)
  | resize (s : Screen)
  | scroll (up : Bool) (m : Option WheelEvent) (repeats now : Nat)
  | wheelTimer (now : Nat)
  | pageUp (half : Bool)
  | pageDown (half cancel : Bool)
  | historyTop
  | historyBottom
  | cursorUp
  | cursorDown
  | startOfLine
  | endOfLine
  | beginSelection
  | selectLine (np : Nat)
  | stopSelection
  | clearSelection
  | rectangle (on : Bool)
  | otherEnd
  | startDrag (last m : Mouse)
  | dragUpdate (m : Mouse)
  | dragRelease (m : Mouse)
  | scrollTimer
  | moveMouse (m : Mouse)
  | copySelection (clear : Bool)
  | copyEndOfLine (np : Nat)
  | copyLine (np : Nat)

namespace CopyMode

/-- One step; `none` when it leaves the mode. -/
def exec (e : CopyEnv) (u : Utf8) (d : CopyMode) : CopyOp → Option CopyMode
  | .output ops => some (d.output e u ops)
  | .resize s => some (d.resize e s)
  | .scroll up m repeats now =>
      match d.cmdScroll e up m repeats now with
      | (.cancel, _) => none
      | (_, d') => some d'
  | .wheelTimer now => d.wheelTimer e now
  | .pageUp half => some (d.pageUp e half)
  | .pageDown half cancel => d.pageDown e half (cancel || d.scrollExit)
  | .historyTop => some (d.historyTop e)
  | .historyBottom => some (d.historyBottom e)
  | .cursorUp => some (d.cursorUp e)
  | .cursorDown => some (d.cursorDown e)
  | .startOfLine => some (d.cursorStartOfLine e)
  | .endOfLine => some (d.cursorEndOfLine e)
  | .beginSelection => some d.beginSelection
  | .selectLine np => some (d.selectLine e np)
  | .stopSelection => some d.stopSelection
  | .clearSelection => some (d.clearSelection e)
  | .rectangle on => some (d.rectangleSet e on)
  | .otherEnd => some (d.otherEndCommand e)
  | .startDrag last m => some (d.startDrag e last m)
  | .dragUpdate m => some (d.dragUpdate e m)
  | .dragRelease m => some (d.dragRelease e m)
  | .scrollTimer => some (d.scrollTimer e)
  | .moveMouse m => some (d.moveMouse e m)
  | .copySelection clear => some (if clear then d.clearSelection e else d)
  | .copyEndOfLine np => some (restoreCursor e d (d.selectToEnd e np))
  | .copyLine np => some (restoreCursor e d (d.selectWholeLine e np))

/-- The rows a step copies from. -/
def copies (e : CopyEnv) (d : CopyMode) : CopyOp → List Nat
  | .copySelection _ => d.copiedRows
  | .copyEndOfLine np => (d.selectToEnd e np).copiedRows
  | .copyLine np => (d.selectWholeLine e np).copiedRows
  | _ => []

end CopyMode

end Newmux.Live
