import Newmux.Base.TSys
import Newmux.Logic.Follow
import Newmux.Theorems.DirtyRows

/-!
# The anchored view

"Keep the same historical rows on screen": the line at the top of a view that is
scrolled back stays at the top while output comes in. The view is moved by how
much the history grew, so it drifts by every line a trim drops.
-/

namespace Newmux.Live

open Newmux.Base Newmux.Tmux

namespace CopyMode

/-- The line at the top of the view. -/
def topLine (d : CopyMode) : Line := d.backing.grid.getLine d.top

/-- The name of the line at the top of the view, however the rows shift. -/
def topName (d : CopyMode) : Nat := d.backing.grid.oldest + d.top

/-- The chunk leaves no history, or drops no line of it, or the view is at its
oldest line already; and at the live screen, the chunk scrolls nothing into it. -/
def KeepsAnchor (u : Utf8) (d : CopyMode) (ops : List WriteOp) : Prop :=
  let gd := (d.backing.writeAll u ops).grid
  gd.hsize = 0 ∨
    if d.oy = 0 then gd.newest = d.backing.grid.newest
    else gd.oldest = d.backing.grid.oldest ∨ d.oy = d.hsize

instance (u : Utf8) (d : CopyMode) (ops : List WriteOp) : Decidable (d.KeepsAnchor u ops) :=
  inferInstanceAs (Decidable (_ ∨ ite _ _ _))

variable {e : CopyEnv} {u : Utf8} {d : CopyMode}

/-- For one chunk, the condition is exactly that the view keeps its top line, or
the oldest that is left. -/
theorem topName_output_iff (hok : d.Ok) (ops : List WriteOp) :
    (d.output e u ops).topName =
        max d.topName (d.output e u ops).backing.grid.oldest ↔ d.KeepsAnchor u ops := by
  have hrewrites := (Screen.writes_writeAll hok.screen u ops).grid
  have hold := hrewrites.oldest
  have hnew := hrewrites.newest
  have hoy := hok.oy
  unfold topName KeepsAnchor
  rw [hok.top_output, output_grid, top_of_le hok.oy]
  unfold Grid.newest hsize Screen.hsize at *
  dsimp only
  split <;> omega

/-- A line of the history keeps its cells as long as it is there. -/
theorem topLine_output {d' : CopyMode} (hok : d.Ok) (hback : 0 < d.oy)
    (hrewrites : Grid.Rewrites Set.univ d.backing.grid d'.backing.grid)
    (htop : d'.topName = max d.topName d'.backing.grid.oldest)
    (hthere : d'.backing.grid.oldest ≤ d.topName) :
    d'.topLine.celldata = d.topLine.celldata := by
  have hname : ∀ d : CopyMode, d.topLine = d.backing.grid.named d.topName := by
    intro d
    unfold topLine topName Grid.named
    rw [Nat.add_sub_cancel_left]
  have hoy := hok.oy
  rw [hname, hname, htop, max_eq_left hthere]
  apply hrewrites.lines hok.screen.grid _ hthere
  unfold topName Grid.newest
  rw [top_of_le hok.oy]
  unfold hsize at *
  omega

/-- What a run of chunks keeps: the invariant, and the top of the view. -/
theorem anchored_run (hok : d.Ok) {chunks : List (List WriteOp)}
    (hrun : TSys.RunOk (KeepsAnchor u) (output e u) d chunks) :
    let d' := TSys.runFrom (output e u) d chunks
    Grid.Rewrites Set.univ d.backing.grid d'.backing.grid ∧
      d'.topName = max d.topName d'.backing.grid.oldest := by
  induction chunks generalizing d with
  | nil =>
      refine ⟨.refl _ _, ?_⟩
      unfold topName
      rw [TSys.runFrom_nil]
      omega
  | cons ops chunks ih =>
      have hstep := (topName_output_iff (e := e) hok ops).mpr hrun.1
      obtain ⟨hrewrites, htop⟩ := ih (hok.output ops e u) hrun.2
      refine ⟨(rewrites_output hok ops e u).trans hrewrites, ?_⟩
      have hold := hrewrites.oldest
      rw [TSys.runFrom_cons, htop, hstep]
      omega

end CopyMode

/-- In a run of chunks none of which drops lines of the history under a view that
is not at its oldest line, the line at the top of the view stays there, with its
cells, as long as it exists; after that the oldest line left is at the top. -/
theorem anchored_of_keepsAnchor (e : CopyEnv) (u : Utf8) (d : CopyMode) (hok : d.Ok)
    (hback : 0 < d.oy) (chunks : List (List WriteOp))
    (hrun : TSys.RunOk (CopyMode.KeepsAnchor u) (CopyMode.output e u) d chunks) :
    let d' := TSys.runFrom (CopyMode.output e u) d chunks
    d'.topName = max d.topName d'.backing.grid.oldest ∧
      (d'.backing.grid.oldest ≤ d.topName → d'.topLine.celldata = d.topLine.celldata) := by
  obtain ⟨hrewrites, htop⟩ := CopyMode.anchored_run hok hrun
  exact ⟨htop, CopyMode.topLine_output hok hback hrewrites htop⟩

/-! ## A history of two lines -/

/-- Emacs keys, no line numbers, and nothing to find, to style or to expand. -/
def plainEnv : CopyEnv :=
  { vi := false
    lineNumberMode := .off
    singleLine := false
    maxUp := 1000
    maxDown := 640
    markStyle := gridDefaultCell
    searchMarks := fun d => d.search
    searchStyle := fun _ _ _ gc => gc
    positionFormat := []
    position := fun _ => []
    acs := fun _ => none }

/-- A line of one letter. -/
def letter (c : Nat) : Line := Line.zero.setCell 1 0 { gridDefaultCell with data := [c] }

/-- One row, below a history of `a` and `b` that may hold `hlimit` lines. -/
def twoBehind (hlimit : Nat) : Screen :=
  { grid :=
      { sx := 1, sy := 1, hscrolled := 2, hsize := 2, hlimit, history := true
        linedata := [letter 97, letter 98, letter 99], oldest := 0 }
    cx := 0, cy := 0, rupper := 0, rlower := 0
    modeInsert := false, modeWrap := true, modeOrigin := false
    dirtyGeneration := 0, dirtyTop := uintMax, dirtyBottom := 0
    item := [], itemCell := gridDefaultCell }

/-- The mode over a screen, scrolled back by `oy` lines and otherwise as entered. -/
def viewing (backing : Screen) (oy : Nat) : CopyMode :=
  { backing, sx := backing.sx, sy := backing.sy, sel := false
    liveHsize := backing.hsize, oy
    selx := 0, sely := 0, endselx := 0, endsely := 0
    nativeSelActive := false, nativeSelDragging := false, nativeSelSuppressCursor := false
    nativeSelEdge := 0, nativeSelEdgeX := 0, nativeSelEdgeY := 0
    nativeSelStartX := 0, nativeSelStartY := 0, nativeSelEndX := 0, nativeSelEndY := 0
    cursordrag := .none, lineflag := .none, rectflag := false
    scrollExit := false, hidePosition := false, lineNumbers := false
    selflag := .char, dx := 0, dy := 0, selrx := 0, selry := 0, endselrx := 0, endselry := 0
    cx := backing.cx, cy := backing.cy, lastcx := 0, lastsx := 0
    mx := 0, my := 0, showmark := false
    search :=
      { mark := none, count := -1, more := false, timeout := false, x := -1, y := -1, o := -1 }
    wheel :=
      { lastValid := false, lastTime := 0, emitValid := false, emitTime := 0
        direction := 0, emitCount := 0, pendingMilli := 0, timer := none } }

/-- Two lines into a history with room for them: the view stays at `b`. -/
theorem anchored_twoBehind :
    TSys.RunOk (CopyMode.KeepsAnchor plainUtf8) (CopyMode.output plainEnv plainUtf8)
        (viewing (twoBehind 9) 1) [[.lineFeed 8], [.lineFeed 8]] ∧
      (let d' := TSys.runFrom (CopyMode.output plainEnv plainUtf8) (viewing (twoBehind 9) 1)
          [[.lineFeed 8], [.lineFeed 8]]
       d'.topName = max (viewing (twoBehind 9) 1).topName d'.backing.grid.oldest ∧
        (d'.backing.grid.oldest ≤ (viewing (twoBehind 9) 1).topName →
          d'.topLine.celldata = (viewing (twoBehind 9) 1).topLine.celldata)) := by
  have hrun : TSys.RunOk (CopyMode.KeepsAnchor plainUtf8) (CopyMode.output plainEnv plainUtf8)
      (viewing (twoBehind 9) 1) [[.lineFeed 8], [.lineFeed 8]] := by decide
  exact ⟨hrun, anchored_of_keepsAnchor _ _ _ (by decide) (by decide) _ hrun⟩

/-- A line into a full history drops `a`; the view at `b`, which is still there,
moves on to `c`. -/
theorem drifts_full :
    ¬ ∀ (e : CopyEnv) (u : Utf8) (d : CopyMode), d.Ok → 0 < d.oy →
      ∀ chunks : List (List WriteOp),
        (TSys.runFrom (CopyMode.output e u) d chunks).topName =
          max d.topName (TSys.runFrom (CopyMode.output e u) d chunks).backing.grid.oldest := by
  intro h
  have hanchored := h plainEnv plainUtf8 (viewing (twoBehind 2) 1) (by decide) (by decide)
    [[.lineFeed 8]]
  revert hanchored
  decide

end Newmux.Live
