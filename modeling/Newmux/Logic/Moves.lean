import Mathlib.Data.List.TakeWhile
import Newmux.Logic.Cells
import Newmux.Logic.Panes

/-!
# Moving a pane, window by window

The record every window is left with when a pane moves out of one window and
into another, and the window each pane then belongs to.
-/

namespace Newmux.Logic

open Newmux.Base Newmux.Tmux Newmux.Recovery LayoutCell

/-! ## One window -/

/-- `window_unzoom` on the window's record. -/
def unzoomWindow (win : Window) : Window :=
  if win.zoomed then
    { win with zoomed := false, layoutRoot := win.savedLayoutRoot, savedLayoutRoot := none }
  else win

/-- `layout_close_pane` on the window's record. -/
def closedWindow (wp : Nat) (win : Window) : Window :=
  match win.layoutRoot with
  | none => win
  | some root => { win with layoutRoot := closedRoot wp root }

/-- A window that does not list the pane is as it was. -/
theorem unlistedWindow_of_notMem {w wp : Nat} {win : Window} (h : wp ∉ win.panes) :
    unlistedWindow w wp win = win := by
  have hfilter : win.panes.filter (· != wp) = win.panes := by
    rw [List.filter_eq_self]
    intro p hp
    have : p ≠ wp := fun he => h (he ▸ hp)
    simpa using this
  have hlast : win.panes.getLast? ≠ some wp := fun he => h (List.mem_of_mem_getLast? he)
  unfold unlistedWindow
  rw [hfilter, if_neg hlast]

theorem unzoomWindow_id (win : Window) : (unzoomWindow win).id = win.id := by
  unfold unzoomWindow
  split <;> rfl

theorem unzoomWindow_panes (win : Window) : (unzoomWindow win).panes = win.panes := by
  unfold unzoomWindow
  split <;> rfl

theorem unzoomWindow_active (win : Window) : (unzoomWindow win).active = win.active := by
  unfold unzoomWindow
  split <;> rfl

theorem unzoomWindow_zoomed (win : Window) : (unzoomWindow win).zoomed = false := by
  unfold unzoomWindow
  cases h : win.zoomed <;> simp [h]

theorem unzoomWindow_of_not {win : Window} (h : win.zoomed = false) : unzoomWindow win = win := by
  unfold unzoomWindow
  simp [h]

@[simp] theorem unzoomWindow_idem (win : Window) :
    unzoomWindow (unzoomWindow win) = unzoomWindow win :=
  unzoomWindow_of_not (unzoomWindow_zoomed win)

theorem closedWindow_fields (wp : Nat) (win : Window) :
    (closedWindow wp win).id = win.id ∧ (closedWindow wp win).panes = win.panes ∧
      (closedWindow wp win).active = win.active ∧
      (closedWindow wp win).zoomed = win.zoomed ∧
      (closedWindow wp win).layoutRoot = win.layoutRoot.bind (closedRoot wp) := by
  unfold closedWindow
  cases h : win.layoutRoot with
  | none => exact ⟨rfl, rfl, rfl, rfl, h⟩
  | some root => exact ⟨rfl, rfl, rfl, rfl, rfl⟩

theorem windowLostPane_fields (win : Window) (panes : List Nat) (wp : Nat) :
    (windowLostPane win panes wp).id = win.id ∧ (windowLostPane win panes wp).panes = win.panes ∧
      (windowLostPane win panes wp).layoutRoot = win.layoutRoot ∧
      (windowLostPane win panes wp).zoomed = win.zoomed := by
  unfold windowLostPane
  simp only
  split <;> exact ⟨rfl, rfl, rfl, rfl⟩

/-- The same list of panes, with the same tail pointer. -/
structure SameList (win win' : Window) : Prop where
  id : win.id = win'.id
  panes : win.panes = win'.panes
  options : win.options = win'.options
  tail : win.staleTail = win'.staleTail

theorem SameList.refl (win : Window) : SameList win win := ⟨rfl, rfl, rfl, rfl⟩

theorem SameList.trans {win win' win'' : Window} (h : SameList win win') (h' : SameList win' win'') :
    SameList win win'' :=
  ⟨h.id.trans h'.id, h.panes.trans h'.panes, h.options.trans h'.options, h.tail.trans h'.tail⟩

theorem unzoomWindow_list (win : Window) : SameList (unzoomWindow win) win := by
  unfold unzoomWindow
  split <;> exact ⟨rfl, rfl, rfl, rfl⟩

theorem closedWindow_list (wp : Nat) (win : Window) : SameList (closedWindow wp win) win := by
  unfold closedWindow
  split <;> exact ⟨rfl, rfl, rfl, rfl⟩

theorem windowLostPane_list (win : Window) (panes : List Nat) (wp : Nat) :
    SameList (windowLostPane win panes wp) win := by
  unfold windowLostPane
  simp only
  split <;> exact ⟨rfl, rfl, rfl, rfl⟩

theorem SameList.unlisted {win win' : Window} (h : SameList win win') (w wp : Nat) :
    SameList (unlistedWindow w wp win) (unlistedWindow w wp win') := by
  refine ⟨h.id, ?_, h.options, ?_⟩
  · simp only [unlistedWindow, h.panes]
  · simp only [unlistedWindow, h.panes, h.id, h.tail]

theorem SameList.inserted {win win' : Window} (h : SameList win win') (wp idx : Nat) :
    SameList (newmuxInsertPaneAtIndex win wp idx) (newmuxInsertPaneAtIndex win' wp idx) := by
  have hat : windowPaneAtIndex win idx = windowPaneAtIndex win' idx := by
    simp only [windowPaneAtIndex, h.options, h.panes]
  unfold newmuxInsertPaneAtIndex
  rw [hat]
  cases windowPaneAtIndex win' idx with
  | some at? =>
      refine ⟨h.id, ?_, h.options, h.tail⟩
      simp only [h.panes, h.options]
  | none =>
      simp only [insertTail, h.tail, h.panes]
      cases win'.staleTail with
      | none => exact ⟨h.id, rfl, h.options, rfl⟩
      | some p =>
          simp only
          split <;> exact ⟨h.id, rfl, h.options, rfl⟩

/-! ## Lookups of windows -/

theorem windowUnzoom_record (sv : Server) (w x : Nat) :
    windowFindById (windowUnzoom sv w) x =
      if x = w then (windowFindById sv x).map unzoomWindow else windowFindById sv x := by
  by_cases hx : x = w
  · subst hx
    rw [if_pos rfl]
    unfold windowUnzoom
    cases hw : windowFindById sv x with
    | none => simp [hw]
    | some win =>
        have hid := windowFindById_id hw
        simp only [Option.map_some]
        unfold unzoomWindow
        cases hz : win.zoomed with
        | false => simpa [hz] using hw
        | true =>
            simp only [if_true]
            rw [layoutFixPanes_find, windowFindById_setWindow]
            simp only [hid]
            simp [hw]
  · rw [if_neg hx, windowUnzoom_find sv hx]

theorem layoutClosePane_record {sv : Server} {wp : Nat} {src : Pane}
    (hsrc : windowPaneFindById sv wp = some src) (x : Nat) :
    windowFindById (layoutClosePane sv wp) x =
      if x = src.window then (windowFindById sv x).map (closedWindow wp)
      else windowFindById sv x := by
  unfold layoutClosePane
  simp only [hsrc]
  cases hw : windowFindById sv src.window with
  | none =>
      by_cases hx : x = src.window
      · simp [hx, hw]
      · simp [hx]
  | some win =>
      have hid := windowFindById_id hw
      cases hroot : win.layoutRoot with
      | none =>
          have hself : closedWindow wp win = win := by simp [closedWindow, hroot]
          by_cases hx : x = src.window
          · simp [hx, hw, hroot, hself]
          · simp [hx, hroot]
      | some root =>
          cases hpath : root.pathTo wp with
          | none =>
              have hself : closedWindow wp win = win := by
                simp only [closedWindow, hroot, closedRoot, hpath]
                rw [← hroot]
              by_cases hx : x = src.window
              · simp [hx, hw, hroot, hself, hpath]
              · simp [hx, hroot, hpath]
          | some path =>
              have hclosed : closedWindow wp win = { win with
                  layoutRoot := (layoutDestroyCell root path).map layoutFixOffsets } := by
                simp only [closedWindow, hroot, closedRoot, hpath]
              simp only [hroot, hpath]
              rw [layoutFixPanes_find, windowFindById_setWindow, ← hclosed]
              by_cases hx : x = src.window
              · subst hx
                simp [hw, hid, (closedWindow_fields wp win).1]
              · have hx' : x ≠ (closedWindow wp win).id := by
                  rw [(closedWindow_fields wp win).1, hid]
                  exact hx
                rw [if_neg hx', if_neg hx]

theorem losePane_record (sv : Server) (w : Nat) (panes : List Nat) (wp x : Nat) :
    windowFindById (losePane sv w panes wp) x =
      if x = w then (windowFindById sv x).map (fun win => windowLostPane win panes wp)
      else windowFindById sv x := by
  unfold losePane
  cases hw : windowFindById sv w with
  | none =>
      by_cases hx : x = w
      · simp [hx, hw]
      · simp [hx]
  | some win =>
      have hid := windowFindById_id hw
      simp only
      rw [windowFindById_setWindow, (windowLostPane_fields win panes wp).1, hid]
      by_cases hx : x = w
      · simp [hx, hw]
      · simp [hx]

theorem insertPane_record (sv : Server) (dstW wp idx x : Nat) :
    windowFindById (insertPane sv dstW wp idx) x =
      if x = dstW then
        (windowFindById sv x).map (fun win => newmuxInsertPaneAtIndex win wp idx)
      else windowFindById sv x := by
  unfold insertPane
  simp only
  have hsame : ∀ y, windowFindById { sv with
      panes := Table.modify sv.panes wp (fun p => { p with window := dstW }) } y =
      windowFindById sv y := fun _ => rfl
  rw [hsame]
  cases hw : windowFindById sv dstW with
  | none =>
      by_cases hx : x = dstW
      · simp [hx, hw, hsame]
      · simp [hx, hsame]
  | some win =>
      have hid := windowFindById_id hw
      simp only
      rw [windowFindById_setWindow, (insertPaneAtIndex_fields win wp idx).1, hid, hsame]
      by_cases hx : x = dstW
      · simp [hx, hw]
      · simp [hx]

/-- `window_set_active_pane` on the window's record. -/
def activated (wp : Nat) (win : Window) : Window :=
  if win.active = some wp then win
  else
    let w := unzoomWindow win
    let lastPanes := w.lastPanes.filter (· != wp)
    let lastPanes := match w.active with
      | none => lastPanes
      | some lastwp => lastwp :: lastPanes.filter (· != lastwp)
    { w with lastPanes, active := some wp }

theorem activated_fields (wp : Nat) (win : Window) :
    (activated wp win).id = win.id ∧ (activated wp win).panes = win.panes ∧
      (activated wp win).active = some wp ∧
      (win.zoomed = false → (activated wp win).layoutRoot = win.layoutRoot ∧
        (activated wp win).zoomed = false) := by
  unfold activated
  by_cases h : win.active = some wp
  · rw [if_pos h]
    exact ⟨rfl, rfl, h, fun hz => ⟨rfl, hz⟩⟩
  · rw [if_neg h]
    refine ⟨unzoomWindow_id win, unzoomWindow_panes win, rfl, fun hz => ?_⟩
    rw [unzoomWindow_of_not hz]
    exact ⟨rfl, hz⟩

theorem windowSetActivePane_record (sv : Server) (w wp x : Nat) :
    windowFindById (windowSetActivePane sv w wp) x =
      if x = w then (windowFindById sv x).map (activated wp) else windowFindById sv x := by
  unfold windowSetActivePane
  cases hw : windowFindById sv w with
  | none =>
      by_cases hx : x = w
      · simp [hx, hw]
      · simp [hx]
  | some win =>
      have hid := windowFindById_id hw
      by_cases hact : win.active = some wp
      · have hself : activated wp win = win := by simp [activated, hact]
        by_cases hx : x = w
        · simp [hx, hw, hact, hself]
        · simp [hx, hact]
      · have hun : windowFindById (windowUnzoom sv w) w = some (unzoomWindow win) := by
          rw [windowUnzoom_record, if_pos rfl, hw]
          rfl
        simp only [hact, if_false, hun]
        rw [windowFindById_setWindow]
        simp only [unzoomWindow_id, hid]
        by_cases hx : x = w
        · rw [if_pos hx, if_pos hx, hx, hun, hw]
          simp only [Option.map_some, activated, hact, if_false]
          have hw' : (unzoomWindow win).id = w := (unzoomWindow_id win).trans hid
          exact hw' ▸ rfl
        · rw [if_neg hx, if_neg hx, windowUnzoom_find sv hx]

/-- `newmux_select_pane_index` on the window's record. -/
def selectedWindow (idx : Nat) (win : Window) : Window :=
  match windowPaneAtIndex win idx with
  | none => win
  | some wp => activated wp win

theorem selectedWindow_fields (idx : Nat) (win : Window) :
    (selectedWindow idx win).panes = win.panes ∧
      (win.zoomed = false → (selectedWindow idx win).layoutRoot = win.layoutRoot) := by
  unfold selectedWindow
  split
  · exact ⟨rfl, fun _ => rfl⟩
  · next wp _ =>
      obtain ⟨-, hp, -, hz⟩ := activated_fields wp win
      exact ⟨hp, fun h => (hz h).1⟩

theorem selectedWindow_list (idx : Nat) (win : Window) :
    SameList (selectedWindow idx win) win := by
  unfold selectedWindow activated
  split
  · exact .refl win
  · split
    · exact .refl win
    · obtain ⟨hid, hpanes, hoptions, htail⟩ := unzoomWindow_list win
      exact ⟨hid, hpanes, hoptions, htail⟩

theorem newmuxSelectPaneIndex_record (sv : Server) (w idx x : Nat) :
    windowFindById (newmuxSelectPaneIndex sv w idx) x =
      if x = w then (windowFindById sv x).map (selectedWindow idx) else windowFindById sv x := by
  unfold newmuxSelectPaneIndex
  cases hw : windowFindById sv w with
  | none =>
      by_cases hx : x = w
      · simp [hx, hw]
      · simp [hx]
  | some win =>
      simp only [Option.bind_some]
      cases hat : windowPaneAtIndex win idx with
      | none =>
          by_cases hx : x = w
          · simp [hx, hw, selectedWindow, hat]
          · simp [hx]
      | some wp =>
          simp only
          rw [windowSetActivePane_record]
          by_cases hx : x = w
          · simp [hx, hw, selectedWindow, hat]
          · simp [hx]

/-- `layout_parse` on the window's record, once the text has been read. -/
def laidWindow (lc : LayoutCell) (size : Option (Nat × Nat)) (win : Window) : Window :=
  { win with
    sx := (size.getD (win.sx, win.sy)).1
    sy := (size.getD (win.sx, win.sy)).2
    layoutRoot := some (layoutFixOffsets (layoutAssign win.panes lc).1) }

theorem layoutParse_record {sv : Server} {w : Nat} {win : Window} {layout : List Char}
    {lc : LayoutCell} {size : Option (Nat × Nat)} (hw : windowFindById sv w = some win)
    (hread : layoutRead win.panes.length layout = .ok (lc, size)) (x : Nat) :
    windowFindById (layoutParse sv w layout).1 x =
      if x = w then (windowFindById sv x).map (laidWindow lc size) else windowFindById sv x := by
  have hid := windowFindById_id hw
  unfold layoutParse
  simp only [hw, windowCountPanes, hread]
  rw [layoutFixPanes_find, windowFindById_setWindow]
  simp only [hid]
  by_cases hx : x = w
  · simp [hx, hw, hid, laidWindow]
  · simp [hx]

/-! ## The window a pane belongs to -/

/-- The window a pane belongs to. -/
def ownerOf (sv : Server) (p : Nat) : Option Nat := (windowPaneFindById sv p).map Pane.window

theorem layoutFixPane_owner (w : Window) (wp : Pane) :
    (layoutFixPane w wp).id = wp.id ∧ (layoutFixPane w wp).window = wp.window := by
  unfold layoutFixPane
  split
  · exact ⟨rfl, rfl⟩
  · split
    · exact ⟨rfl, rfl⟩
    · split <;> exact ⟨rfl, rfl⟩

/-- What `layout_fix_panes` does to a pane. -/
theorem layoutFixPanes_pane (sv : Server) (w p : Nat) :
    windowPaneFindById (layoutFixPanes sv w) p =
      match windowFindById sv w with
      | none => windowPaneFindById sv p
      | some win => (windowPaneFindById sv p).map fun wp =>
          if win.panes.contains wp.id then layoutFixPane win wp else wp := by
  unfold layoutFixPanes
  cases windowFindById sv w with
  | none => rfl
  | some win =>
      refine Table.find_map sv.panes p fun wp => ?_
      split
      · exact (layoutFixPane_owner win wp).1
      · rfl

theorem layoutFixPanes_owner (sv : Server) (w p : Nat) :
    ownerOf (layoutFixPanes sv w) p = ownerOf sv p := by
  unfold ownerOf
  rw [layoutFixPanes_pane]
  cases windowFindById sv w with
  | none => rfl
  | some win =>
      simp only [Option.map_map]
      congr 1
      funext wp
      simp only [Function.comp]
      split
      · exact (layoutFixPane_owner win wp).2
      · rfl

theorem ownerOf_panes {sv sv' : Server} (h : sv'.panes = sv.panes) (p : Nat) :
    ownerOf sv' p = ownerOf sv p := by
  unfold ownerOf windowPaneFindById
  rw [h]

theorem layoutParse_owner (sv : Server) (w : Nat) (layout : List Char) (p : Nat) :
    ownerOf (layoutParse sv w layout).1 p = ownerOf sv p := by
  unfold layoutParse
  split
  · rfl
  · split
    · rfl
    · exact layoutFixPanes_owner _ w p

theorem windowUnzoom_owner (sv : Server) (w p : Nat) :
    ownerOf (windowUnzoom sv w) p = ownerOf sv p := by
  unfold windowUnzoom
  split
  · rfl
  · split
    · exact layoutFixPanes_owner _ w p
    · rfl

theorem layoutClosePane_owner (sv : Server) (wp p : Nat) :
    ownerOf (layoutClosePane sv wp) p = ownerOf sv p := by
  unfold layoutClosePane
  repeat' split
  all_goals first
    | rfl
    | exact layoutFixPanes_owner _ _ p

theorem takeParkedPane_owner (sv : Server) (panes : List Nat) (recoveryW wp p : Nat) :
    ownerOf (takeParkedPane sv panes recoveryW wp) p = ownerOf sv p := by
  unfold takeParkedPane
  have hlose : ∀ (sv : Server) (panes : List Nat),
      (losePane sv recoveryW panes wp).panes = sv.panes := by
    intro sv panes
    unfold losePane
    split <;> rfl
  rw [← layoutClosePane_owner sv wp p]
  exact ownerOf_panes (hlose _ _) p

theorem insertPane_owner (sv : Server) (dstW wp idx p : Nat) :
    ownerOf (insertPane sv dstW wp idx) p =
      if p = wp then (ownerOf sv p).map (fun _ => dstW) else ownerOf sv p := by
  have hpanes : (insertPane sv dstW wp idx).panes =
      Table.modify sv.panes wp (fun q => { q with window := dstW }) := by
    unfold insertPane
    simp only
    split <;> rfl
  have hfind : windowPaneFindById (insertPane sv dstW wp idx) p =
      if p = wp then (windowPaneFindById sv p).map (fun q => { q with window := dstW })
      else windowPaneFindById sv p := by
    unfold windowPaneFindById
    rw [hpanes]
    exact Table.find_modify sv.panes wp p fun _ h => h
  unfold ownerOf
  rw [hfind]
  split
  · rw [Option.map_map, Option.map_map]
    rfl
  · rfl

/-! ## Moving a pane back -/

/-- A window's record after a pane of `src`, which stands between `panes`, has
moved back into `dstW`. -/
def movedBack (panes : List Nat) (item : ClosedItem) (src dstW recoveryW : Nat) (win : Window) :
    Window :=
  let w := if win.id = dstW ∨ win.id = recoveryW then unzoomWindow win else win
  let w := if win.id = src then closedWindow item.paneId w else w
  let w := if win.id = recoveryW then windowLostPane w panes item.paneId else w
  let w := unlistedWindow recoveryW item.paneId w
  if win.id = dstW then newmuxInsertPaneAtIndex w item.paneId item.paneIndex else w

theorem movePaneBack_record {sv : Server} {item : ClosedItem} {src : Pane}
    (hsrc : windowPaneFindById sv item.paneId = some src) (dstW recoveryW x : Nat) :
    windowFindById (movePaneBack sv item dstW recoveryW) x =
      (windowFindById sv x).map
        (movedBack (paneList sv item.paneId) item src.window dstW recoveryW) := by
  have hunzoom : windowFindById (windowUnzoom (windowUnzoom sv dstW) recoveryW) x =
      (windowFindById sv x).map fun win =>
        if win.id = dstW ∨ win.id = recoveryW then unzoomWindow win else win := by
    rw [windowUnzoom_record, windowUnzoom_record]
    cases hw : windowFindById sv x with
    | none => simp
    | some win =>
        have hid := windowFindById_id hw
        simp only [Option.map_some, hid]
        split_ifs <;> simp_all
  obtain ⟨src', hsrc', howner⟩ : ∃ src', windowPaneFindById
      (windowUnzoom (windowUnzoom sv dstW) recoveryW) item.paneId = some src' ∧
      src'.window = src.window := by
    have h : ownerOf (windowUnzoom (windowUnzoom sv dstW) recoveryW) item.paneId =
        some src.window := by
      rw [windowUnzoom_owner, windowUnzoom_owner, ownerOf, hsrc]
      rfl
    exact Option.map_eq_some_iff.mp h
  unfold movePaneBack takeParkedPane
  rw [insertPane_record, unlistPane_record, losePane_record, layoutClosePane_record hsrc',
    howner, hunzoom]
  cases hw : windowFindById sv x with
  | none => simp
  | some win =>
      have hid := windowFindById_id hw
      simp only [Option.map_some, movedBack, hid]
      split_ifs <;> simp_all

/-- The window a pane is put back into, as far as its list goes. -/
def listedBack (item : ClosedItem) (recoveryW : Nat) (win : Window) : Window :=
  newmuxInsertPaneAtIndex (unlistedWindow recoveryW item.paneId win) item.paneId item.paneIndex

theorem movedBack_list (panes : List Nat) (item : ClosedItem) (src recoveryW : Nat)
    (win : Window) :
    SameList (movedBack panes item src win.id recoveryW win) (listedBack item recoveryW win) := by
  unfold movedBack listedBack
  simp only [true_or, if_true]
  refine (SameList.unlisted ?_ recoveryW item.paneId).inserted item.paneId item.paneIndex
  have hclosed : SameList (if win.id = src then closedWindow item.paneId (unzoomWindow win)
      else unzoomWindow win) win := by
    split
    · exact (closedWindow_list _ _).trans (unzoomWindow_list win)
    · exact unzoomWindow_list win
  split
  · exact (windowLostPane_list _ _ _).trans hclosed
  · exact hclosed

/-- The list of the window the pane is put back into. -/
theorem movePaneBack_list {sv : Server} {item : ClosedItem} {dstW recoveryW : Nat} {win : Window}
    (hwin : windowFindById sv dstW = some win)
    (hsrc : ∃ src, windowPaneFindById sv item.paneId = some src) :
    panesOf (movePaneBack sv item dstW recoveryW) dstW =
      some (listedBack item recoveryW win).panes := by
  obtain ⟨src, hsrc⟩ := hsrc
  have hid := windowFindById_id hwin
  subst hid
  rw [panesOf, movePaneBack_record hsrc, hwin, Option.map_some, Option.map_some,
    (movedBack_list _ item src.window recoveryW win).panes]

/-- A pane that is not on the list of a window joins it, if the tail pointer is in
place. -/
theorem listedBack_perm {item : ClosedItem} {recoveryW : Nat} {win : Window}
    (htail : win.staleTail = none) (hnot : item.paneId ∉ win.panes) :
    (listedBack item recoveryW win).panes.Perm (item.paneId :: win.panes) := by
  have hself := unlistedWindow_of_notMem (w := recoveryW) hnot
  unfold listedBack
  rw [hself]
  exact (insertPaneAtIndex_perm htail item.paneId item.paneIndex).1

/-- The tail pointer is that of the last pane. -/
def TailInPlace (w : Window) : Prop := ∀ p ∈ w.staleTail, w.panes.getLast? = some p

/-- The pane is put where the head of the list reaches it and nothing is cut off:
before another one, or behind a tail pointer that is in place. -/
def Reached (item : ClosedItem) (recoveryW : Nat) (win : Window) : Prop :=
  let w := unlistedWindow recoveryW item.paneId win
  (windowPaneAtIndex w item.paneIndex).isSome ∨ TailInPlace w

private theorem notMem_of_nodup_last {A : List Nat} {p : Nat} (h : (A ++ [p]).Nodup) :
    ∀ x ∈ A, (x != p) = true := by
  intro x hx
  have hne : x ≠ p := by
    rintro rfl
    exact (List.nodup_append.mp h).2.2 x hx x List.mem_cons_self rfl
  simpa using hne

theorem insertTail_perm {w : Window} (hnodup : w.panes.Nodup) (h : TailInPlace w) (wp : Nat) :
    (insertTail w wp).panes.Perm (wp :: w.panes) := by
  unfold insertTail
  cases htail : w.staleTail with
  | none => exact List.perm_append_singleton wp w.panes
  | some p =>
      obtain ⟨A, hA⟩ := List.getLast?_eq_some_iff.mp (h p htail)
      have hbefore := notMem_of_nodup_last (hA ▸ hnodup)
      have hcut : w.panes.takeWhile (· != p) = A := by
        rw [hA, List.takeWhile_append_of_pos hbefore]
        simp
      have hin : p ∈ w.panes := by simp [hA]
      have hlist : A ++ [p, wp] = w.panes ++ [wp] := by simp [hA]
      simp only [if_pos hin, hcut, hlist]
      exact List.perm_append_singleton wp w.panes

/-- Behind a tail pointer that is not in place, a pane is lost. -/
theorem insertTail_lost {w : Window} (hnodup : w.panes.Nodup) (h : ¬ TailInPlace w) {wp : Nat}
    (hnot : wp ∉ w.panes) : ∃ p, (p = wp ∨ p ∈ w.panes) ∧ p ∉ (insertTail w wp).panes := by
  simp only [TailInPlace, not_forall] at h
  obtain ⟨q, hq, hlast⟩ := h
  have htail : w.staleTail = some q := hq
  by_cases hin : q ∈ w.panes
  · -- the pane that stands last is cut off
    obtain ⟨x, hx⟩ : ∃ x, w.panes.getLast? = some x :=
      Option.ne_none_iff_exists'.mp fun he =>
        List.ne_nil_of_mem hin (List.getLast?_eq_none_iff.mp he)
    have hmem : x ∈ w.panes := List.mem_of_mem_getLast? hx
    have hxq : x ≠ q := fun he => hlast (he ▸ hx)
    refine ⟨x, .inr hmem, ?_⟩
    simp only [insertTail, htail, if_pos hin, List.mem_append, List.mem_cons,
      List.not_mem_nil, or_false, not_or]
    refine ⟨fun hcut => ?_, hxq, fun he => hnot (he ▸ hmem)⟩
    obtain ⟨A, hA⟩ := List.getLast?_eq_some_iff.mp hx
    have hqA : q ∈ A := by
      rw [hA] at hin
      simpa [hxq.symm] using hin
    rw [hA, List.takeWhile_append, if_neg] at hcut
    · have hxA := (List.takeWhile_sublist _).subset hcut
      exact absurd (notMem_of_nodup_last (hA ▸ hnodup) x hxA) (by simp)
    · intro hlength
      have hall : A.takeWhile (· != q) = A :=
        (List.takeWhile_prefix (· != q)).eq_of_length hlength
      have hne := List.takeWhile_eq_self_iff.mp hall q hqA
      simp at hne
  · refine ⟨wp, .inl rfl, ?_⟩
    simp only [insertTail, htail, if_neg hin]
    exact hnot

private theorem unlisted_nodup (recoveryW wp : Nat) {win : Window} (h : win.panes.Nodup) :
    (unlistedWindow recoveryW wp win).panes.Nodup ∧
      wp ∉ (unlistedWindow recoveryW wp win).panes := by
  refine ⟨h.filter _, fun hin => ?_⟩
  simpa using (List.mem_filter.mp hin).2

/-- **A pane that is reached** joins the others. -/
theorem Reached.perm {item : ClosedItem} {recoveryW : Nat} {win : Window}
    (h : Reached item recoveryW win) (hnodup : win.panes.Nodup) :
    (listedBack item recoveryW win).panes.Perm
      (item.paneId :: win.panes.filter (· != item.paneId)) := by
  have hnodup' := (unlisted_nodup recoveryW item.paneId hnodup).1
  change (newmuxInsertPaneAtIndex (unlistedWindow recoveryW item.paneId win) item.paneId
    item.paneIndex).panes.Perm (item.paneId :: (unlistedWindow recoveryW item.paneId win).panes)
  unfold newmuxInsertPaneAtIndex
  cases hat : windowPaneAtIndex (unlistedWindow recoveryW item.paneId win) item.paneIndex with
  | some p =>
      unfold windowPaneAtIndex at hat
      split at hat
      · cases hat
      · have hlt := (List.getElem?_eq_some_iff.mp hat).1
        exact List.perm_insertIdx item.paneId _ hlt.le
  | none =>
      rcases h with hsome | htail
      · rw [hat] at hsome
        cases hsome
      · exact insertTail_perm hnodup' htail item.paneId

/-- If it is not reached, it or another pane of the list is lost. -/
theorem lost_of_not_reached {item : ClosedItem} {recoveryW : Nat} {win : Window}
    (h : ¬ Reached item recoveryW win) (hnodup : win.panes.Nodup) :
    ∃ p, (p = item.paneId ∨ p ∈ win.panes) ∧ p ∉ (listedBack item recoveryW win).panes := by
  obtain ⟨hnodup', hnot⟩ := unlisted_nodup recoveryW item.paneId hnodup
  simp only [Reached, not_or, Option.not_isSome_iff_eq_none] at h
  obtain ⟨hat, htail⟩ := h
  obtain ⟨p, hp, hlost⟩ := insertTail_lost hnodup' htail hnot
  refine ⟨p, hp.imp_right fun hin => (List.mem_filter.mp hin).1, ?_⟩
  unfold listedBack newmuxInsertPaneAtIndex
  rw [hat]
  exact hlost

theorem movePaneBack_owner (sv : Server) (item : ClosedItem) (dstW recoveryW p : Nat) :
    ownerOf (movePaneBack sv item dstW recoveryW) p =
      if p = item.paneId then (ownerOf sv p).map (fun _ => dstW) else ownerOf sv p := by
  unfold movePaneBack
  rw [insertPane_owner, takeParkedPane_owner, windowUnzoom_owner, windowUnzoom_owner]

end Newmux.Logic
