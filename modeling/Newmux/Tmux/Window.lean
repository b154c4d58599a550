import Newmux.Tmux.Session

/-!
# Windows and panes

The functions of `window.c` and `layout.c` that change a window together with
its panes, and `server_kill_window`.
-/

namespace Newmux.Tmux

open Newmux.Base LayoutCell

/-! ## Pane lists -/

/-- `TAILQ_PREV`. -/
def paneBefore (panes : List Nat) (wp : Nat) : Option Nat :=
  (panes.takeWhile (· != wp)).getLast?

/-- `TAILQ_NEXT`. -/
def paneAfter (panes : List Nat) (wp : Nat) : Option Nat :=
  (panes.dropWhile (· != wp)).tail.head?

/-- `window_pane_at_index`. -/
def windowPaneAtIndex (w : Window) (idx : Nat) : Option Nat :=
  if idx < w.options.paneBaseIndex then none else w.panes[idx - w.options.paneBaseIndex]?

/-- `window_pane_index`, of a pane of this window. -/
def windowPaneIndex (w : Window) (wp : Nat) : Option Nat :=
  (w.panes.idxOf? wp).map (· + w.options.paneBaseIndex)

/-- `window_count_panes`. -/
def windowCountPanes (w : Window) : Nat := w.panes.length

/-- `window_lost_pane`. The pane's neighbours are those it has in `panes`, the
list it is being taken from. -/
def windowLostPane (w : Window) (panes : List Nat) (wp : Nat) : Window :=
  let lastPanes := w.lastPanes.filter (· != wp)
  if w.active = some wp then
    let active := lastPanes.head?.or ((paneBefore panes wp).or (paneAfter panes wp))
    { w with active, lastPanes := lastPanes.filter (fun p => some p != active) }
  else { w with lastPanes }

/-! ## Sizes -/

/-- `window_pane_mode` is a mode the scrollbar is shown for. -/
def windowPaneInMode (wp : Pane) : Bool :=
  match wp.modes.head? with
  | some .copy | some .view => true
  | _ => false

/-- `window_pane_show_scrollbar`. -/
def windowPaneShowScrollbar (wp : Pane) (sbOption : PaneScrollbars) : Bool :=
  wp.base.savedGrid.isNone &&
    match sbOption with
    | .always => true
    | .modal => windowPaneInMode wp
    | .off => false

/-- The room a scrollbar takes from a pane, as an offset and a width, in the
source's unsigned arithmetic. -/
def scrollbarRoom (wp : Pane) (position : ScrollbarsPosition) (xoff sx : Nat) : Nat × Nat :=
  let sbW := max 1 wp.scrollbarWidth
  let sbPad := max 0 wp.scrollbarPad
  let rest := (((sx : Int) - sbW - sbPad) % 4294967296).toNat
  match position with
  | .left =>
      if (sx : Int) - sbW < 1 then (xoff + sx - 1, 1)
      else ((xoff + sbW + sbPad).toNat, rest)
  | .right => if (sx : Int) - sbW - sbPad < 1 then (xoff, 1) else (xoff, rest)

/-- One round of `layout_fix_panes`: a pane takes its cell's place, less the
status line and the scrollbar. A pane without a cell is left alone. -/
def layoutFixPane (w : Window) (wp : Pane) : Pane :=
  match w.layoutRoot with
  | none => wp
  | some root =>
      match root.pathTo wp.id with
      | none => wp
      | some path =>
          match root.get? path with
          | none => wp
          | some lc =>
              let border := layoutAddHorizontalBorder root path w.options.paneBorderStatus
              let g := lc.geom
              let yoff := if border ∧ w.options.paneBorderStatus = .top then g.yoff + 1 else g.yoff
              let sy := if border then g.sy - 1 else g.sy
              let (xoff, sx) :=
                if windowPaneShowScrollbar wp w.options.paneScrollbars then
                  scrollbarRoom wp w.options.paneScrollbarsPosition g.xoff g.sx
                else (g.xoff, g.sx)
              { wp with xoff, yoff, sx, sy }

/-- `layout_fix_panes`. -/
def layoutFixPanes (sv : Server) (w : Nat) : Server :=
  match windowFindById sv w with
  | none => sv
  | some win =>
      { sv with
        panes := sv.panes.map fun wp =>
          if win.panes.contains wp.id then layoutFixPane win wp else wp }

/-! ## Changing a window -/

/-- `window_create`; the options come from the global ones. -/
def windowCreate (sv : Server) (sx sy : Nat) : Server × Nat :=
  let w : Window :=
    { id := sv.nextWindowId, name := "", panes := [], lastPanes := [], active := none,
      layoutRoot := none, savedLayoutRoot := none, zoomed := false, sx, sy,
      options := sv.globalWOptions }
  ({ sv with windows := w :: sv.windows, nextWindowId := sv.nextWindowId + 1 }, w.id)

/-- `layout_init`. -/
def layoutInit (sv : Server) (w wp : Nat) : Server :=
  match windowFindById sv w with
  | none => sv
  | some win =>
      let root := LayoutCell.pane ⟨win.sx, win.sy, 0, 0⟩ (some wp)
      layoutFixPanes (sv.setWindow { win with layoutRoot := some root }) w

/-- `window_unzoom`, also as `server_unzoom_window`. -/
def windowUnzoom (sv : Server) (w : Nat) : Server :=
  match windowFindById sv w with
  | none => sv
  | some win =>
      if win.zoomed then
        layoutFixPanes (sv.setWindow
          { win with zoomed := false, layoutRoot := win.savedLayoutRoot, savedLayoutRoot := none }) w
      else sv

/-- `window_set_active_pane`. -/
def windowSetActivePane (sv : Server) (w wp : Nat) : Server :=
  match windowFindById sv w with
  | none => sv
  | some win =>
      if win.active = some wp then sv
      else
        let sv := windowUnzoom sv w
        match windowFindById sv w with
        | none => sv
        | some win =>
            let lastPanes := win.lastPanes.filter (· != wp)
            let lastPanes := match win.active with
              | none => lastPanes
              | some lastwp => lastwp :: lastPanes.filter (· != lastwp)
            sv.setWindow { win with lastPanes, active := some wp }

/-- `layout_close_pane`. A pane without a cell has nothing to close. -/
def layoutClosePane (sv : Server) (wp : Nat) : Server :=
  match windowPaneFindById sv wp with
  | none => sv
  | some src =>
      match windowFindById sv src.window with
      | none => sv
      | some win =>
          match win.layoutRoot with
          | none => sv
          | some root =>
              match root.pathTo wp with
              | none => sv
              | some path =>
                  let root := (layoutDestroyCell root path).map layoutFixOffsets
                  layoutFixPanes (sv.setWindow { win with layoutRoot := root }) win.id

/-- `layout_parse`: install the layout the text describes, and hand the window's
panes out to its cells. -/
def layoutParse (sv : Server) (w : Nat) (layout : List Char) : Server × Except String Unit :=
  match windowFindById sv w with
  | none => (sv, .error "no window")
  | some win =>
      match layoutRead (windowCountPanes win) layout with
      | .error cause => (sv, .error cause)
      | .ok (lc, size) =>
          let (sx, sy) := size.getD (win.sx, win.sy)
          let root := layoutFixOffsets (layoutAssign win.panes lc).1
          (layoutFixPanes (sv.setWindow { win with sx, sy, layoutRoot := some root }) w, .ok ())

/-! ## Killing a window -/

/-- The `while` of `server_kill_window` in one session: detach every winlink to
the window, and destroy the session if that empties it. -/
def killLoop (w : Nat) : Nat → Server → Nat → Server
  | 0, sv, _ => sv
  | fuel + 1, sv, s =>
      match (sessionFindById sv s).bind (fun ses => winlinkFindByWindow ses.windows w) with
      | none => sv
      | some wl =>
          let (sv, empty) := sessionDetach sv s wl
          if empty then serverDestroySessionGroup sv s else killLoop w fuel sv s

/-- One round of the `RB_FOREACH` of `server_kill_window`. -/
def killIn (w : Nat) (renumber : Bool) (sv : Server) (s : Nat) : Server :=
  match sessionFindById sv s with
  | none => sv
  | some ses =>
      if ses.windows.any (fun wl => wl.window == w) then
        let sv := killLoop w ses.windows.length (windowUnzoom sv w) s
        if renumber then serverRenumberSession sv s else sv
      else sv

/-- `server_kill_window`. -/
def serverKillWindow (sv : Server) (w : Nat) (renumber : Bool) : Server :=
  (sv.sessions.map Session.id).foldl (killIn w renumber) sv

end Newmux.Tmux
