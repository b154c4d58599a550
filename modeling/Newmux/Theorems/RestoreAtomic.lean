import Newmux.Logic.Homes
import Newmux.Logic.Ordinal
import Newmux.Logic.Tabs

/-!
# Failed restores

A restore that fails on a lookup, or for want of a free index, has changed
nothing. A pane restore whose layout does not fit fails after the pane has
moved, and one without a layout succeeds with a pane that has no cell. A second
attempt takes the pane off the wrong list, and can lose it.
-/

namespace Newmux.Theorems

open Newmux.Base Newmux.Tmux Newmux.Recovery Newmux.Logic

/-- The same winlinks, pane lists, layout trees, active panes and owners. -/
structure SameShape (sv sv' : Server) : Prop where
  winlinks : ∀ id, (sessionFindById sv' id).map Session.windows =
    (sessionFindById sv id).map Session.windows
  panes : ∀ w, panesOf sv' w = panesOf sv w
  layout : ∀ w, (windowFindById sv' w).map Window.layoutRoot =
    (windowFindById sv w).map Window.layoutRoot
  active : ∀ w, (windowFindById sv' w).map Window.active =
    (windowFindById sv w).map Window.active
  owner : ∀ p, ownerOf sv' p = ownerOf sv p

theorem SameShape.refl (sv : Server) : SameShape sv sv :=
  ⟨fun _ => rfl, fun _ => rfl, fun _ => rfl, fun _ => rfl, fun _ => rfl⟩

/-- Every pane of the window, on its list or belonging to it, has exactly one cell in
its layout tree. -/
def OneCellEach (sv : Server) (w : Window) : Prop :=
  ∀ p, p ∈ w.panes ∨ ownerOf sv p = some w.id → (rootPanes w.layoutRoot).count (some p) = 1

/-- A failed restore changes nothing, and after a successful one every pane of the
destination window has one cell. -/
structure RestoreAtomic (sv : Server) (target : Option Nat) (item : ClosedItem) : Prop where
  failed : ∀ sv' cause, newmuxRestoreClosedItem sv target item = (sv', .error cause) →
    SameShape sv sv'
  done : ∀ sv', newmuxRestoreClosedItem sv target item = (sv', .ok ()) →
    ∃ w', windowFindById sv' item.windowId = some w' ∧ OneCellEach sv' w'

theorem restoreAtomic_error {sv sv' : Server} {target : Option Nat} {item : ClosedItem}
    {cause : String} (h : newmuxRestoreClosedItem sv target item = (sv', .error cause)) :
    RestoreAtomic sv target item ↔ SameShape sv sv' := by
  refine ⟨fun ha => ha.failed sv' cause h, fun hs => ⟨fun _ _ h' => ?_, fun _ h' => ?_⟩⟩ <;>
    rw [h] at h' <;> cases h'
  exact hs

theorem restoreAtomic_ok {sv sv' : Server} {target : Option Nat} {item : ClosedItem}
    (h : newmuxRestoreClosedItem sv target item = (sv', .ok ())) :
    RestoreAtomic sv target item ↔
      ∃ w', windowFindById sv' item.windowId = some w' ∧ OneCellEach sv' w' := by
  refine ⟨fun ha => ha.done sv' h, fun hs => ⟨fun _ _ h' => ?_, fun _ h' => ?_⟩⟩ <;>
    rw [h] at h' <;> cases h'
  exact hs

/-- The pane already stands where it would be moved to: in the destination
window's list at its index, without a cell to close, nothing to unzoom, and it
is not active in the recovery window. -/
structure Settled (sv : Server) (item : ClosedItem) (dstW recoveryW : Nat) : Prop where
  owner : ownerOf sv item.paneId = some dstW
  listed : ∀ win, windowFindById sv dstW = some win →
    (listedBack item recoveryW win).panes = win.panes
  elsewhere : ∀ w panes, w ≠ dstW → panesOf sv w = some panes → item.paneId ∉ panes
  dstLayout : ∀ win, windowFindById sv dstW = some win →
    (closedWindow item.paneId (unzoomWindow win)).layoutRoot = win.layoutRoot
  recoveryLayout : ∀ win, windowFindById sv recoveryW = some win →
    (unzoomWindow win).layoutRoot = win.layoutRoot
  active : ∀ win, windowFindById sv recoveryW = some win → win.active ≠ some item.paneId

/-- What it takes for a pane whose layout fits to be back with a cell, and every other
pane of the window with it: there is a layout, the pane is reached from the head of
the list, and so are the others. -/
structure Fitting (sv : Server) (item : ClosedItem) (dstW recoveryW : Nat) : Prop where
  layout : item.windowLayout ≠ none
  reached : ∀ win, windowFindById sv dstW = some win → Reached item recoveryW win
  listed : ∀ win p, windowFindById sv dstW = some win → ownerOf sv p = some dstW →
    p ≠ item.paneId → p ∈ win.panes

/-- What a restore needs beyond its lookups. Of a pane: a saved layout that fits the
window once the pane is back in its list, or else a pane that is already in place. Of
a window with a free index: that its own panes have a cell each. -/
def RestoreSafe (sv : Server) (target : Option Nat) (item : ClosedItem) : Prop :=
  match item.type with
  | .pane => ∀ dstS dstWl recoveryW,
      findLivePane sv target item = .ok (dstS, dstWl, recoveryW) →
        if layoutFits sv item dstWl.window then Fitting sv item dstWl.window recoveryW.id
        else Settled sv item dstWl.window recoveryW.id
  | .window => ∀ dstS recoveryS recoveryWl w,
      findLiveWindow sv target item = .ok (dstS, recoveryS, recoveryWl, w) →
        ((savedPlace sv dstS item).link dstS.windows sv.nextPtr w.id).isSome → OneCellEach sv w
  | .session => True

/-- The window the item is parked in. -/
def parkedWindow (item : ClosedItem) : Nat :=
  match item.type with
  | .pane => item.recoveryWindowId
  | _ => item.windowId

/-- Pane lists have no repetitions, a listed pane belongs to the window, and a
window's layout, unzoomed, has at most one cell for a pane, and only for listed
panes. -/
structure WindowsOk (sv : Server) : Prop where
  nodup : ∀ win ∈ sv.windows, win.panes.Nodup
  owner : ∀ w win p, windowFindById sv w = some win → p ∈ win.panes → ownerOf sv p = some w
  cells : ∀ w win p, windowFindById sv w = some win →
    some p ∈ rootPanes (unzoomWindow win).layoutRoot → p ∈ win.panes
  once : ∀ w win p, windowFindById sv w = some win →
    (rootPanes (unzoomWindow win).layoutRoot).count (some p) ≤ 1

theorem WindowsOk.of_forall {sv : Server}
    (h : ∀ win ∈ sv.windows, win.panes.Nodup ∧ (∀ p ∈ win.panes, ownerOf sv p = some win.id) ∧
      (rootPanes (unzoomWindow win).layoutRoot).Nodup ∧
        ∀ q ∈ rootPanes (unzoomWindow win).layoutRoot, ∀ p ∈ q, p ∈ win.panes) :
    WindowsOk sv := by
  refine ⟨fun win hw => (h win hw).1, fun w win p hw hp => ?_, fun w win p hw hp => ?_,
    fun w win p hw => ?_⟩
  · have howner := (h win (Table.find_some_mem hw)).2.1 p hp
    rwa [windowFindById_id hw] at howner
  · exact (h win (Table.find_some_mem hw)).2.2.2 (some p) hp p rfl
  · exact List.nodup_iff_count_le_one.mp (h win (Table.find_some_mem hw)).2.2.1 (some p)

/-! ## A layout that does not fit -/

private theorem filter_eq_self_iff {l : List Nat} {p : Nat} :
    l.filter (· != p) = l ↔ p ∉ l := by
  rw [List.filter_eq_self]
  constructor
  · intro h hin
    simpa using h p hin
  · intro h x hx
    have hne : x ≠ p := fun he => h (he ▸ hx)
    simpa using hne

/-- A pane is active in a window only until it is lost there. -/
private theorem lostPane_active_iff {win : Window} {panes : List Nat} {p : Nat}
    (h : panes.Nodup) :
    (windowLostPane win panes p).active = win.active ↔ win.active ≠ some p := by
  unfold windowLostPane
  simp only
  by_cases hact : win.active = some p
  · simp only [hact, if_true, ne_eq, not_true, iff_false]
    have hhead : (win.lastPanes.filter (· != p)).head? ≠ some p := by
      intro he
      have := List.mem_of_mem_head? he
      simp at this
    have hbefore : paneBefore panes p ≠ some p := by
      intro he
      have hmem := List.mem_of_mem_getLast? he
      simpa using List.mem_takeWhile_imp hmem
    have hafter : paneAfter panes p ≠ some p := by
      intro he
      have hmem := List.mem_of_mem_head? he
      have hdrop := h.sublist (List.dropWhile_sublist (· != p))
      cases hrest : panes.dropWhile (· != p) with
      | nil => simp [hrest] at hmem
      | cons x rest =>
          have hx : x = p := by
            have := List.head?_dropWhile_not (· != p) panes
            rw [hrest] at this
            simpa using this
          rw [hrest, hx] at hdrop
          rw [hrest, List.tail_cons] at hmem
          exact (List.nodup_cons.mp hdrop).1 hmem
    cases h1 : (win.lastPanes.filter (· != p)).head? with
    | some x => simpa [h1] using hhead
    | none =>
        cases h2 : paneBefore panes p with
        | some x => simpa [h2] using hbefore
        | none => simpa using hafter
  · simp [hact]

theorem paneList_nodup {sv : Server} (hwok : WindowsOk sv) (wp : Nat) :
    (paneList sv wp).Nodup := by
  unfold paneList
  cases h : sv.windows.find? (fun w => w.panes.contains wp) with
  | none => exact List.nodup_nil
  | some win => exact hwok.nodup win (List.mem_of_find?_eq_some h)

/-- The destination window's record once the pane has moved: unzoomed, and without the
cell that the pane may have had there. -/
private theorem movedBack_home {panes : List Nat} {item : ClosedItem} {srcW dstW recoveryW : Nat}
    {win : Window} (hid : win.id = dstW) (hne : dstW ≠ recoveryW) :
    (movedBack panes item srcW dstW recoveryW win).zoomed = false ∧
      (movedBack panes item srcW dstW recoveryW win).active = win.active ∧
      (movedBack panes item srcW dstW recoveryW win).layoutRoot =
        (if dstW = srcW then closedWindow item.paneId (unzoomWindow win)
          else unzoomWindow win).layoutRoot := by
  have hmoved : movedBack panes item srcW dstW recoveryW win = newmuxInsertPaneAtIndex
      (unlistedWindow recoveryW item.paneId
        (if dstW = srcW then closedWindow item.paneId (unzoomWindow win) else unzoomWindow win))
        item.paneId item.paneIndex := by
    simp [movedBack, hid, hne]
  obtain ⟨-, hlay, hact, hzoom⟩ := insertPaneAtIndex_fields (unlistedWindow recoveryW item.paneId
    (if dstW = srcW then closedWindow item.paneId (unzoomWindow win) else unzoomWindow win))
      item.paneId item.paneIndex
  obtain ⟨-, -, hclosedAct, hclosedZoom, -⟩ := closedWindow_fields item.paneId (unzoomWindow win)
  rw [hmoved]
  refine ⟨hzoom.trans ?_, hact.trans ?_, hlay⟩ <;> simp only [unlistedWindow] <;> split
  · rw [hclosedZoom, unzoomWindow_zoomed]
  · exact unzoomWindow_zoomed win
  · rw [hclosedAct, unzoomWindow_active]
  · exact unzoomWindow_active win

/-- The records after the pane has moved, when it already belonged to the
destination. -/
private theorem movedBack_dst {panes : List Nat} {item : ClosedItem} {dstW recoveryW : Nat}
    {win : Window} (hid : win.id = dstW) (hne : dstW ≠ recoveryW) :
    (movedBack panes item dstW dstW recoveryW win).panes =
        (listedBack item recoveryW win).panes ∧
      (movedBack panes item dstW dstW recoveryW win).layoutRoot =
        (closedWindow item.paneId (unzoomWindow win)).layoutRoot ∧
      (movedBack panes item dstW dstW recoveryW win).active = win.active := by
  have hlist := movedBack_list panes item dstW recoveryW win
  rw [hid] at hlist
  obtain ⟨-, hact, hlay⟩ := @movedBack_home panes item dstW dstW recoveryW win hid hne
  rw [if_pos rfl] at hlay
  exact ⟨hlist.panes, hlay, hact⟩

private theorem movedBack_recovery {panes : List Nat} {item : ClosedItem} {dstW recoveryW : Nat}
    {win : Window} (hid : win.id = recoveryW) (hne : dstW ≠ recoveryW) :
    (movedBack panes item dstW dstW recoveryW win).panes =
        win.panes.filter (· != item.paneId) ∧
      (movedBack panes item dstW dstW recoveryW win).layoutRoot =
        (unzoomWindow win).layoutRoot ∧
      (movedBack panes item dstW dstW recoveryW win).active =
        (windowLostPane (unzoomWindow win) panes item.paneId).active := by
  have hmoved : movedBack panes item dstW dstW recoveryW win =
      unlistedWindow recoveryW item.paneId
        (windowLostPane (unzoomWindow win) panes item.paneId) := by
    simp [movedBack, hid, hne.symm]
  obtain ⟨-, hp, hl, -⟩ := windowLostPane_fields (unzoomWindow win) panes item.paneId
  rw [hmoved]
  refine ⟨?_, hl, rfl⟩
  simp only [unlistedWindow]
  rw [hp, unzoomWindow_panes]

private theorem movedBack_other {panes : List Nat} {item : ClosedItem} {dstW recoveryW : Nat}
    {win : Window} (hd : win.id ≠ dstW) (hr : win.id ≠ recoveryW) :
    movedBack panes item dstW dstW recoveryW win = unlistedWindow recoveryW item.paneId win := by
  simp [movedBack, hd, hr]

private theorem unzoomed_lostPane_active_iff {sv : Server} (hwok : WindowsOk sv) (wp : Nat)
    (win : Window) : (windowLostPane (unzoomWindow win) (paneList sv wp) wp).active = win.active ↔
      win.active ≠ some wp := by
  have hiff : (windowLostPane (unzoomWindow win) (paneList sv wp) wp).active =
      (unzoomWindow win).active ↔ (unzoomWindow win).active ≠ some wp :=
    lostPane_active_iff (paneList_nodup hwok wp)
  rwa [unzoomWindow_active] at hiff

/-- A part of a window's record is as it was, or is not. -/
private theorem movePaneBack_part_iff {sv : Server} {item : ClosedItem} {src : Pane}
    {dstW recoveryW : Nat} (hsrc : windowPaneFindById sv item.paneId = some src) {β : Type}
    (f : Window → β) {w : Nat} {win : Window} (hw : windowFindById sv w = some win) :
    (windowFindById (movePaneBack sv item dstW recoveryW) w).map f =
        (windowFindById sv w).map f ↔
      f (movedBack (paneList sv item.paneId) item src.window dstW recoveryW win) = f win := by
  rw [movePaneBack_record hsrc, hw]
  simp

private theorem settled_of_sameShape {sv : Server} (hwok : WindowsOk sv) {item : ClosedItem}
    {src : Pane} {dstW recoveryW : Nat} (hsrc : windowPaneFindById sv item.paneId = some src)
    (hne : dstW ≠ recoveryW) (h : SameShape sv (movePaneBack sv item dstW recoveryW)) :
    Settled sv item dstW recoveryW := by
  have hsrcOwner : ownerOf sv item.paneId = some src.window := by
    rw [ownerOf, hsrc]
    rfl
  have hwindow : src.window = dstW := by
    have howner := h.owner item.paneId
    rw [movePaneBack_owner, if_pos rfl, hsrcOwner] at howner
    exact (Option.some.inj howner).symm
  have hpart : ∀ {β : Type} (f : Window → β) {w : Nat} {win : Window},
      windowFindById sv w = some win →
        (windowFindById (movePaneBack sv item dstW recoveryW) w).map f =
          (windowFindById sv w).map f →
            f (movedBack (paneList sv item.paneId) item dstW dstW recoveryW win) = f win := by
    intro β f w win hw hsame
    have hkept := (movePaneBack_part_iff hsrc f hw).mp hsame
    rwa [hwindow] at hkept
  refine ⟨hwindow ▸ hsrcOwner, fun win hwin => ?_, fun w panes hw hp => ?_, fun win hwin => ?_,
    fun win hwin => ?_, fun win hwin => ?_⟩
  · have hsame := hpart Window.panes hwin (h.panes dstW)
    rwa [(movedBack_dst (windowFindById_id hwin) hne).1] at hsame
  · obtain ⟨win, hwin, rfl⟩ := panesOf_eq_some.mp hp
    have hid := windowFindById_id hwin
    have hsame := hpart Window.panes hwin (h.panes w)
    rw [← filter_eq_self_iff]
    by_cases hr : win.id = recoveryW
    · rw [(movedBack_recovery hr hne).1] at hsame
      exact hsame
    · rw [movedBack_other (hid.symm ▸ hw) hr] at hsame
      exact hsame
  · have hsame := hpart Window.layoutRoot hwin (h.layout dstW)
    rwa [(movedBack_dst (windowFindById_id hwin) hne).2.1] at hsame
  · have hsame := hpart Window.layoutRoot hwin (h.layout recoveryW)
    rwa [(movedBack_recovery (windowFindById_id hwin) hne).2.1] at hsame
  · have hsame := hpart Window.active hwin (h.active recoveryW)
    rw [(movedBack_recovery (windowFindById_id hwin) hne).2.2] at hsame
    exact (unzoomed_lostPane_active_iff hwok item.paneId win).mp hsame

/-- A part of every window's record is as it was, when it is in the two windows the pane
moves between and does not depend on the pane in the others. -/
private theorem movePaneBack_part {sv : Server} {item : ClosedItem} {src : Pane}
    {dstW recoveryW : Nat} (hsrc : windowPaneFindById sv item.paneId = some src)
    (hwindow : src.window = dstW) {β : Type} (f : Window → β)
    (hdst : ∀ win, windowFindById sv dstW = some win →
      f (movedBack (paneList sv item.paneId) item dstW dstW recoveryW win) = f win)
    (hrecovery : ∀ win, windowFindById sv recoveryW = some win →
      f (movedBack (paneList sv item.paneId) item dstW dstW recoveryW win) = f win)
    (hother : ∀ w win, w ≠ dstW → windowFindById sv w = some win →
      f (unlistedWindow recoveryW item.paneId win) = f win) (w : Nat) :
    (windowFindById (movePaneBack sv item dstW recoveryW) w).map f =
      (windowFindById sv w).map f := by
  cases hw : windowFindById sv w with
  | none => rw [movePaneBack_record hsrc, hw]; rfl
  | some win =>
      have hid := windowFindById_id hw
      rw [← hw]
      refine (movePaneBack_part_iff hsrc f hw).mpr ?_
      rw [hwindow]
      by_cases hwd : w = dstW
      · exact hdst win (hwd ▸ hw)
      · by_cases hwr : w = recoveryW
        · exact hrecovery win (hwr ▸ hw)
        · rw [movedBack_other (hid.symm ▸ hwd) (hid.symm ▸ hwr)]
          exact hother w win hwd hw

private theorem sameShape_of_settled {sv : Server} (hwok : WindowsOk sv) {item : ClosedItem}
    {src : Pane} {dstW recoveryW : Nat} (hsrc : windowPaneFindById sv item.paneId = some src)
    (hne : dstW ≠ recoveryW) (h : Settled sv item dstW recoveryW) :
    SameShape sv (movePaneBack sv item dstW recoveryW) := by
  have hwindow : src.window = dstW := by
    have howner := h.owner
    rw [ownerOf, hsrc] at howner
    exact Option.some.inj howner
  have hnot : ∀ w win, w ≠ dstW → windowFindById sv w = some win →
      win.panes.filter (· != item.paneId) = win.panes := fun w win hw hwin =>
    filter_eq_self_iff.mpr (h.elsewhere w _ hw (panesOf_eq_some.mpr ⟨win, hwin, rfl⟩))
  refine ⟨fun id => ?_, movePaneBack_part hsrc hwindow Window.panes ?_ ?_ hnot,
    movePaneBack_part hsrc hwindow Window.layoutRoot ?_ ?_ fun _ _ _ _ => rfl,
    movePaneBack_part hsrc hwindow Window.active ?_ ?_ fun _ _ _ _ => rfl, fun p => ?_⟩
  · rw [(movePaneBack_kept sv item dstW recoveryW).find]
  · intro win hwin
    rw [(movedBack_dst (windowFindById_id hwin) hne).1]
    exact h.listed win hwin
  · intro win hwin
    rw [(movedBack_recovery (windowFindById_id hwin) hne).1]
    exact hnot recoveryW win hne.symm hwin
  · intro win hwin
    rw [(movedBack_dst (windowFindById_id hwin) hne).2.1]
    exact h.dstLayout win hwin
  · intro win hwin
    rw [(movedBack_recovery (windowFindById_id hwin) hne).2.1]
    exact h.recoveryLayout win hwin
  · exact fun win hwin => (movedBack_dst (windowFindById_id hwin) hne).2.2
  · intro win hwin
    rw [(movedBack_recovery (windowFindById_id hwin) hne).2.2]
    exact (unzoomed_lostPane_active_iff hwok item.paneId win).mpr (h.active win hwin)
  · rw [movePaneBack_owner]
    by_cases hp : p = item.paneId
    · rw [if_pos hp, hp, h.owner]
      rfl
    · rw [if_neg hp]

/-- **When a misfit changes nothing**: the pane was already in place. -/
theorem movePaneBack_shape_iff {sv : Server} (hwok : WindowsOk sv) {item : ClosedItem}
    {src : Pane} {dstW recoveryW : Nat} (hsrc : windowPaneFindById sv item.paneId = some src)
    (hne : dstW ≠ recoveryW) :
    SameShape sv (movePaneBack sv item dstW recoveryW) ↔ Settled sv item dstW recoveryW :=
  ⟨settled_of_sameShape hwok hsrc hne, sameShape_of_settled hwok hsrc hne⟩

/-! ## A pane that is back -/

/-- The panes of each window there still is are those it had. -/
structure OwnersKept (sv₀ sv : Server) : Prop where
  listed : ∀ x win p, windowFindById sv x = some win → p ∈ win.panes → ownerOf sv p = some x
  owner : ∀ x win p, windowFindById sv x = some win →
    (ownerOf sv p = some x ↔ ownerOf sv₀ p = some x)

/-- A window that is destroyed takes its own panes with it and no others. -/
theorem ownersKept_stable (sv₀ : Server) : Stable (OwnersKept sv₀) := by
  refine ⟨?_, ?_, ?_⟩
  · intro sv sv' hsame h
    have hfind : ∀ x, windowFindById sv' x = windowFindById sv x := by
      intro x
      unfold windowFindById
      rw [hsame.windows]
    refine ⟨fun x win p hx hp => ?_, fun x win p hx => ?_⟩ <;> rw [hfind] at hx <;>
      rw [hsame.owner]
    · exact h.listed x win p hx hp
    · exact h.owner x win p hx
  · intro sv w h
    have hfind : ∀ x win, windowFindById (windowDestroy sv w) x = some win →
        x ≠ w ∧ windowFindById sv x = some win := by
      intro x win hx
      rw [windowDestroy_find] at hx
      split at hx
      · cases hx
      · next hne => exact ⟨hne, hx⟩
    have howner : ∀ x win p, windowFindById (windowDestroy sv w) x = some win →
        (ownerOf (windowDestroy sv w) p = some x ↔ ownerOf sv p = some x) := by
      intro x win p hx
      obtain ⟨hne, hx⟩ := hfind x win hx
      -- a pane of another window is not on the list of the one that goes
      by_cases hout : ∀ win', windowFindById sv w = some win' → p ∉ win'.panes
      · rw [windowDestroy_owner hout]
      · simp only [not_forall, not_not] at hout
        obtain ⟨win', hw, hp⟩ := hout
        have hother : ownerOf sv p ≠ some x := by
          rw [h.listed w win' p hw hp]
          exact fun he => hne (Option.some.inj he).symm
        refine iff_of_false (fun he => ?_) hother
        unfold windowDestroy ownerOf windowPaneFindById at he
        rw [hw] at he
        obtain ⟨wp, hwp, -⟩ := Option.map_eq_some_iff.mp he
        have hmem := (List.mem_filter.mp (Table.find_some_mem hwp)).2
        have hid : wp.id = p := Table.find_some_key hwp
        simp [hid, hp] at hmem
    refine ⟨fun x win p hx hp => ?_, fun x win p hx => ?_⟩
    · exact (howner x win p hx).mpr (h.listed x win p (hfind x win hx).2 hp)
    · exact (howner x win p hx).trans (h.owner x win p (hfind x win hx).2)
  · intro sv w h
    have hfind : ∀ x win', windowFindById (windowUnzoom sv w) x = some win' →
        ∃ win, windowFindById sv x = some win ∧ win'.panes = win.panes := by
      intro x win' hx
      rw [windowUnzoom_record] at hx
      split at hx
      · obtain ⟨win, hw, rfl⟩ := Option.map_eq_some_iff.mp hx
        exact ⟨win, hw, unzoomWindow_panes win⟩
      · exact ⟨win', hx, rfl⟩
    refine ⟨fun x win' p hx hp => ?_, fun x win' p hx => ?_⟩ <;>
      obtain ⟨win, hw, hpanes⟩ := hfind x win' hx <;> rw [windowUnzoom_owner]
    · exact h.listed x win p hw (hpanes ▸ hp)
    · exact h.owner x win p hw

theorem listedBack_subset {item : ClosedItem} {recoveryW : Nat} {win : Window} {p : Nat}
    (h : p ∈ (listedBack item recoveryW win).panes) : p = item.paneId ∨ p ∈ win.panes := by
  have hfilter : ∀ {q : Nat}, q ∈ (unlistedWindow recoveryW item.paneId win).panes →
      q ∈ win.panes := fun hq => (List.mem_filter.mp hq).1
  unfold listedBack newmuxInsertPaneAtIndex at h
  split at h
  · next hat =>
      unfold windowPaneAtIndex at hat
      split at hat
      · cases hat
      · have hlt := (List.getElem?_eq_some_iff.mp hat).1
        exact ((List.mem_insertIdx hlt.le).mp h).imp_right hfilter
  · unfold insertTail at h
    split at h
    · rcases List.mem_append.mp h with h | h
      · exact .inr (hfilter h)
      · exact .inl (List.mem_singleton.mp h)
    · next q _ =>
        split at h
        · next hq =>
            rcases List.mem_append.mp h with h | h
            · exact .inr (hfilter ((List.takeWhile_sublist _).subset h))
            · rcases List.mem_cons.mp h with rfl | h
              · exact .inr (hfilter hq)
              · exact .inl (List.mem_singleton.mp h)
        · exact .inr (hfilter h)

/-- Moving the pane back gives the destination that pane. -/
theorem movePaneBack_listed {sv : Server} (hwok : WindowsOk sv) {item : ClosedItem} {src : Pane}
    {dstW recoveryW : Nat} (hsrc : windowPaneFindById sv item.paneId = some src) {x : Nat}
    {win' : Window} (hx : windowFindById (movePaneBack sv item dstW recoveryW) x = some win')
    {p : Nat} (hp : p ∈ win'.panes) :
    ownerOf (movePaneBack sv item dstW recoveryW) p = some x := by
  have hpane : ownerOf sv item.paneId = some src.window := by
    rw [ownerOf, hsrc]
    rfl
  rw [movePaneBack_record hsrc] at hx
  obtain ⟨win, hw, rfl⟩ := Option.map_eq_some_iff.mp hx
  have hid := windowFindById_id hw
  rw [movePaneBack_owner]
  by_cases hxd : x = dstW
  · rw [hxd] at hid hw
    have hlist := movedBack_list (paneList sv item.paneId) item src.window recoveryW win
    rw [hid] at hlist
    rw [hlist.panes] at hp
    split
    · next he => rw [he, hpane, hxd]; rfl
    · next hne =>
        rw [hxd]
        exact hwok.owner dstW win p hw ((listedBack_subset hp).resolve_left hne)
  · have hpanes : panesOf (movePaneBack sv item dstW recoveryW) x =
        some (win.panes.filter (· != item.paneId)) := by
      rw [movePaneBack_panes hxd, panesOf, hw]
      rfl
    rw [panesOf, movePaneBack_record hsrc, hw, Option.map_some, Option.map_some] at hpanes
    rw [Option.some.inj hpanes] at hp
    obtain ⟨hin, hne⟩ := List.mem_filter.mp hp
    rw [if_neg (by simpa using hne)]
    exact hwok.owner x win p hw hin

/-- Once the pane is back, the destination window has that pane besides its own. -/
theorem paneBack_owner {sv : Server} (hwok : WindowsOk sv) {item : ClosedItem} {dstS : Session}
    {dstWl : Winlink} {recoveryW : Window} {src : Pane}
    (hsrc : windowPaneFindById sv item.paneId = some src) {w' : Window}
    (hw' : windowFindById (paneBack sv item dstS dstWl recoveryW) dstWl.window = some w')
    (p : Nat) : ownerOf (paneBack sv item dstS dstWl recoveryW) p = some dstWl.window ↔
      p = item.paneId ∨ ownerOf sv p = some dstWl.window := by
  have hmoved : ∀ x win' p, windowFindById (newmuxSelectPaneIndex (laidOut
      (movePaneBack sv item dstWl.window recoveryW.id) dstWl.window item.windowLayout)
        dstWl.window item.activePaneIndex) x = some win' → p ∈ win'.panes →
          ownerOf (movePaneBack sv item dstWl.window recoveryW.id) p = some x := by
    intro x win' p hx hp
    have hpanes : panesOf (movePaneBack sv item dstWl.window recoveryW.id) x =
        some win'.panes := by
      rw [← laidOut_panes _ dstWl.window item.windowLayout,
        ← newmuxSelectPaneIndex_panes _ dstWl.window item.activePaneIndex]
      exact panesOf_eq_some.mpr ⟨win', hx, rfl⟩
    obtain ⟨win, hw, hsame⟩ := panesOf_eq_some.mp hpanes
    exact movePaneBack_listed hwok hsrc hw (hsame ▸ hp)
  have hselected : OwnersKept (movePaneBack sv item dstWl.window recoveryW.id)
      (newmuxSelectPaneIndex (laidOut (movePaneBack sv item dstWl.window recoveryW.id)
        dstWl.window item.windowLayout) dstWl.window item.activePaneIndex) := by
    refine ⟨fun x win' p hx hp => ?_, fun x win' p _ => ?_⟩ <;>
      rw [newmuxSelectPaneIndex_owner, laidOut_owner]
    exact hmoved x win' p hx hp
  have hkept := (ownersKept_stable _).finishPaneRestore item dstS.id dstWl recoveryW.id hselected
  refine (hkept.owner dstWl.window w' p hw').trans ?_
  rw [movePaneBack_owner]
  split
  · next he =>
      rw [he, ownerOf, hsrc]
      simp
  · next hne => simp [hne]

/-- The destination window's record when its layout has been put in place. -/
theorem laidOut_window {sv : Server} {item : ClosedItem} {dstW recoveryW : Nat} {src : Pane}
    {win : Window} (hsrc : windowPaneFindById sv item.paneId = some src)
    (hwin : windowFindById sv dstW = some win) (hrec : recoveryW = item.recoveryWindowId)
    (hfit : layoutFits sv item dstW = true) :
    ∃ w₁, w₁ = movedBack (paneList sv item.paneId) item src.window dstW recoveryW win ∧
      w₁.panes = (listedBack item recoveryW win).panes ∧
      (item.windowLayout = none → windowFindById
        (laidOut (movePaneBack sv item dstW recoveryW) dstW item.windowLayout) dstW = some w₁) ∧
      (∀ layout, item.windowLayout = some layout → ∃ lc size,
        lc.layoutCountCells = w₁.panes.length ∧ windowFindById
          (laidOut (movePaneBack sv item dstW recoveryW) dstW item.windowLayout) dstW =
            some (laidWindow lc size w₁)) := by
  have hrecord := movePaneBack_record hsrc dstW recoveryW dstW
  rw [hwin, Option.map_some] at hrecord
  have hlist := movedBack_list (paneList sv item.paneId) item src.window recoveryW win
  rw [windowFindById_id hwin] at hlist
  refine ⟨_, rfl, hlist.panes, fun hl => ?_, fun layout hl => ?_⟩
  · rw [hl]
    exact hrecord
  · have hread : (layoutRead (movedBack (paneList sv item.paneId) item src.window dstW recoveryW
        win).panes.length layout).toBool = true := by
      simp only [layoutFits, hl, hwin, ← hrec, ← hlist.panes] at hfit
      exact hfit
    cases hres : layoutRead (movedBack (paneList sv item.paneId) item src.window dstW recoveryW
        win).panes.length layout with
    | error cause => simp [hres, Except.toBool] at hread
    | ok r =>
        obtain ⟨lc, size⟩ := r
        refine ⟨lc, size, layoutRead_count hres, ?_⟩
        rw [hl]
        have h := layoutParse_record hrecord hres dstW
        rw [if_pos rfl, hrecord] at h
        exact h

/-- Killing the emptied recovery window leaves the destination window as it is. -/
theorem paneBack_window {sv : Server} {target : Option Nat} {item : ClosedItem}
    {dstS : Session} {dstWl : Winlink} {recoveryW : Window} (hok : TreesOk sv)
    (h : findLivePane sv target item = .ok (dstS, dstWl, recoveryW))
    (hparked : ¬ LinksGroup sv recoveryW.id dstS.id) {w₂ : Window}
    (hw₂ : windowFindById (laidOut (movePaneBack sv item dstWl.window recoveryW.id) dstWl.window
      item.windowLayout) dstWl.window = some w₂) :
    windowFindById (paneBack sv item dstS dstWl recoveryW) dstWl.window =
      some (selectedWindow item.activePaneIndex w₂) := by
  obtain ⟨hdst, hlink, -⟩ := findLivePane_ok h
  have hdstS := destination_find hok.unique hdst
  obtain ⟨hmem, -⟩ := findByWindow_some hlink
  unfold paneBack
  generalize hlaid : laidOut (movePaneBack sv item dstWl.window recoveryW.id) dstWl.window
    item.windowLayout = sv₂ at hw₂ ⊢
  have hkept : SessionsKept sv sv₂ :=
    hlaid ▸ (movePaneBack_kept _ _ _ _).trans (laidOut_kept _ _ _)
  have hselected : windowFindById (paneSelected sv₂ item dstS.id dstWl) dstWl.window =
      some (selectedWindow item.activePaneIndex w₂) := by
    have hsession : ∀ (sv : Server) (s idx x : Nat),
        windowFindById (serverSessionSelect sv s idx) x = windowFindById sv x := by
      intro sv s idx x
      unfold serverSessionSelect
      split <;> rfl
    unfold paneSelected
    rw [hsession]
    change windowFindById (newmuxSelectPaneIndex sv₂ dstWl.window item.activePaneIndex) _ = _
    rw [newmuxSelectPaneIndex_record, if_pos rfl, hw₂]
    rfl
  -- an empty recovery window is killed; the destination is linked, so that it stays
  rw [finishPaneRestore_eq]
  split
  · have hok₂ := hkept.treesOk hok
    have hrun : Shrink (fun _ => True) (fun _ => True) sv (paneSelected sv₂ item dstS.id dstWl) :=
      (Shrink.of_kept hkept).trans (paneSelected_shrink _ _ _ trivial)
    have hok₃ := Shrink.treesOk hrun hok
    have hkill := killWindow_shrink hok₃ recoveryW.id true
    have hout : ¬ LinksGroup (paneSelected sv₂ item dstS.id dstWl) recoveryW.id dstS.id :=
      fun hl => hparked (Shrink.linksGroup hrun hok hl)
    have hdst₃ : ∃ s, sessionFindById (paneSelected sv₂ item dstS.id dstWl) dstS.id = some s ∧
        dstWl.window ∈ Session.order s := by
      have hkept' : SessionsKept sv (newmuxProtectPaneHistoryOnNextClear
          (newmuxSelectPaneIndex sv₂ dstWl.window item.activePaneIndex) item.paneId) :=
        hkept.trans ((newmuxSelectPaneIndex_kept _ _ _).trans (protectPane_kept _ _))
      refine ⟨(sessionSelect dstS dstWl.idx).2, ?_, ?_⟩
      · unfold paneSelected
        rw [serverSessionSelect_find, if_pos rfl, hkept'.find, hdstS]
        rfl
      · unfold Session.order
        rw [(sessionSelect_same dstS dstWl.idx).windows]
        exact List.mem_map_of_mem hmem
    obtain ⟨s, hs, hin⟩ := hdst₃
    have hne : dstWl.window ≠ recoveryW.id := fun he =>
      hout ⟨dstS.id, s, hs, he ▸ hin, .refl _ _⟩
    have hlinked : (serverKillWindow (paneSelected sv₂ item dstS.id dstWl) recoveryW.id
        true).linked dstWl.window = true := by
      refine (linked_iff (Shrink.treesOk hkill hok₃).unique).mpr ⟨dstS.id, s, ?_, hin⟩
      rw [Shrink.frame hkill hout]
      exact hs
    rw [(Shrink.windows hkill hok₃).survive _ hne hlinked]
    exact hselected
  · exact hselected

/-- The pane has no cell in the window it is moved into: the one it may have had there
has been closed. -/
private theorem movedBack_uncelled {sv : Server} (hwok : WindowsOk sv) {item : ClosedItem}
    {src : Pane} (hsrc : windowPaneFindById sv item.paneId = some src) {panes : List Nat}
    {dstW recoveryW : Nat} {win : Window} (hwin : windowFindById sv dstW = some win)
    (hne : dstW ≠ recoveryW) : some item.paneId ∉
      rootPanes (movedBack panes item src.window dstW recoveryW win).layoutRoot := by
  rw [(movedBack_home (windowFindById_id hwin) hne).2.2]
  split
  · rw [(closedWindow_fields _ _).2.2.2.2]
    have honce := hwok.once _ win item.paneId hwin
    cases hroot : (unzoomWindow win).layoutRoot with
    | none => simp [rootPanes]
    | some root =>
        rw [hroot] at honce
        rw [Option.bind_some, closedRoot_panes]
        intro hin
        have hpos := List.count_pos_iff.mpr hin
        rw [List.count_erase_self] at hpos
        simp only [rootPanes, Option.map_some, Option.getD_some] at honce
        omega
  · next hother =>
      intro hin
      have hlisted := hwok.cells _ win item.paneId hwin hin
      have howner := hwok.owner _ win item.paneId hwin hlisted
      rw [ownerOf, hsrc] at howner
      exact hother (Option.some.inj howner).symm

/-- The pane is not parked in the window it goes back to. -/
theorem findLivePane_apart {sv : Server} {target : Option Nat} {item : ClosedItem}
    {dstS : Session} {dstWl : Winlink} {recoveryW : Window} (hok : TreesOk sv)
    (h : findLivePane sv target item = .ok (dstS, dstWl, recoveryW))
    (hparked : ¬ LinksGroup sv recoveryW.id dstS.id) : dstWl.window ≠ recoveryW.id := by
  obtain ⟨hdst, hlink, -⟩ := findLivePane_ok h
  intro he
  exact hparked ⟨dstS.id, dstS, destination_find hok.unique hdst,
    he ▸ List.mem_map_of_mem (findByWindow_some hlink).1, .refl _ _⟩

/-- A pane restore with a fitting layout gives every pane that is reached its cell. -/
private theorem laidOut_oneCellEach_iff {sv : Server} {target : Option Nat} {item : ClosedItem}
    {dstS : Session} {dstWl : Winlink} {recoveryW : Window} (hok : TreesOk sv)
    (hwok : WindowsOk sv) (h : findLivePane sv target item = .ok (dstS, dstWl, recoveryW))
    (hparked : ¬ LinksGroup sv recoveryW.id dstS.id)
    (hfit : layoutFits sv item dstWl.window = true) {layout : List Char}
    (hl : item.windowLayout = some layout) :
    (∃ w', windowFindById (paneBack sv item dstS dstWl recoveryW) dstWl.window = some w' ∧
      OneCellEach (paneBack sv item dstS dstWl recoveryW) w') ↔
        Fitting sv item dstWl.window recoveryW.id := by
  obtain ⟨-, -, hdst, ⟨win, hwin⟩, hrec, -, src, hsrc⟩ := findLivePane_ok h
  rw [← hdst] at hwin
  obtain ⟨w₁, hw₁, hlist, -, hsome⟩ := laidOut_window hsrc hwin (windowFindById_id hrec) hfit
  obtain ⟨lc, size, hcount, hlaid⟩ := hsome layout hl
  have hzoomed : w₁.zoomed = false :=
    hw₁ ▸ (movedBack_home (windowFindById_id hwin) (findLivePane_apart hok h hparked)).1
  have hnodup := hwok.nodup win (Table.find_some_mem hwin)
  have hback := paneBack_window hok h hparked hlaid
  have howner := paneBack_owner hwok hsrc hback
  have hbackId := windowFindById_id hback
  obtain ⟨hp, hroot⟩ := selectedWindow_fields item.activePaneIndex (laidWindow lc size w₁)
  have hpanes : rootPanes (selectedWindow item.activePaneIndex
      (laidWindow lc size w₁)).layoutRoot = w₁.panes.map some := by
    rw [hroot hzoomed]
    simp only [laidWindow, rootPanes, Option.map_some, Option.getD_some]
    rw [layoutFixOffsets_panes, layoutAssign_panes hcount]
  constructor
  · rintro ⟨w', hw', heach⟩
    rw [hback] at hw'
    obtain rfl := Option.some.inj hw'
    -- a pane of the window is on the list the layout was handed out to
    have hin : ∀ p, p = item.paneId ∨ ownerOf sv p = some dstWl.window →
        p ∈ (listedBack item recoveryW.id win).panes := by
      intro p hp'
      have hone := heach p (.inr (hbackId.symm ▸ (howner p).mpr hp'))
      rw [hpanes] at hone
      have hmem := List.count_pos_iff.mp (hone ▸ Nat.one_pos)
      rw [← hlist]
      simpa using hmem
    refine ⟨by simp [hl], fun v hv => ?_, fun v p hv hp' hpne => ?_⟩ <;>
      obtain rfl := Option.some.inj (hwin.symm.trans hv)
    · by_contra hlost
      obtain ⟨p, hp', hout⟩ := lost_of_not_reached hlost hnodup
      exact hout (hin p (hp'.imp_right fun hlisted =>
        hwok.owner dstWl.window win p hwin hlisted))
    · exact (listedBack_subset (hin p (.inr hp'))).resolve_left hpne
  · rintro ⟨-, hreached, hlisted⟩
    have hperm := (hreached win hwin).perm hnodup
    have hnodup₁ : w₁.panes.Nodup := by
      rw [hlist, hperm.nodup_iff]
      refine List.nodup_cons.mpr ⟨fun hin => ?_, hnodup.filter _⟩
      simpa using (List.mem_filter.mp hin).2
    refine ⟨_, hback, fun p hp' => ?_⟩
    rw [hpanes]
    refine List.count_eq_one_of_mem (hnodup₁.map (Option.some_injective _))
      (List.mem_map_of_mem ?_)
    rcases hp' with hp' | hp'
    · exact hp ▸ hp'
    · rw [hbackId] at hp'
      rw [hlist, hperm.mem_iff]
      rcases (howner p).mp hp' with rfl | hown
      · exact List.mem_cons_self
      · by_cases he : p = item.paneId
        · exact he ▸ List.mem_cons_self
        · exact List.mem_cons_of_mem _
            (List.mem_filter.mpr ⟨hlisted win p hwin hown he, by simpa using he⟩)

/-- Without a layout the restored pane has no cell. -/
private theorem noLayout_not_oneCellEach {sv : Server} {target : Option Nat} {item : ClosedItem}
    {dstS : Session} {dstWl : Winlink} {recoveryW : Window} (hok : TreesOk sv)
    (hwok : WindowsOk sv) (h : findLivePane sv target item = .ok (dstS, dstWl, recoveryW))
    (hparked : ¬ LinksGroup sv recoveryW.id dstS.id)
    (hfit : layoutFits sv item dstWl.window = true) (hl : item.windowLayout = none) :
    ¬ ∃ w', windowFindById (paneBack sv item dstS dstWl recoveryW) dstWl.window = some w' ∧
      OneCellEach (paneBack sv item dstS dstWl recoveryW) w' := by
  obtain ⟨-, -, hdst, ⟨win, hwin⟩, hrec, -, src, hsrc⟩ := findLivePane_ok h
  rw [← hdst] at hwin
  obtain ⟨w₁, hw₁, -, hnone, -⟩ := laidOut_window hsrc hwin (windowFindById_id hrec) hfit
  have hne := findLivePane_apart hok h hparked
  have hzoomed : w₁.zoomed = false := hw₁ ▸ (movedBack_home (windowFindById_id hwin) hne).1
  rintro ⟨w', hw', heach⟩
  have hback := paneBack_window hok h hparked (hnone hl)
  have howner := (paneBack_owner hwok hsrc hback item.paneId).mpr (.inl rfl)
  have hbackId := windowFindById_id hback
  rw [hback] at hw'
  obtain rfl := Option.some.inj hw'
  obtain ⟨-, hroot⟩ := selectedWindow_fields item.activePaneIndex w₁
  have hone := heach item.paneId (.inr (hbackId.symm ▸ howner))
  rw [hroot hzoomed, List.count_eq_zero_of_not_mem
    (hw₁ ▸ movedBack_uncelled hwok hsrc hwin hne)] at hone
  cases hone

/-! ## A window that is back -/

/-- A restored window stays linked, and its record is the one that was parked. -/
theorem windowBack_find {sv : Server} {target : Option Nat} {item : ClosedItem}
    {dstS recoveryS : Session} {recoveryWl wl : Winlink} {w : Window} {wwl : Winlinks}
    (hok : TreesOk sv) (h : findLiveWindow sv target item = .ok (dstS, recoveryS, recoveryWl, w))
    (hlink : (savedPlace sv dstS item).link dstS.windows sv.nextPtr w.id = some (wl, wwl))
    (hparked : ¬ LinksGroup sv w.id dstS.id) :
    windowFindById (windowBack sv dstS recoveryS recoveryWl w wl wwl) w.id = some w := by
  obtain ⟨hdst, hrecS, hrecWl, hw, hwid⟩ := findLiveWindow_ok h
  rw [← hwid] at hw hrecWl
  have hdstS := destination_find hok.unique hdst
  obtain ⟨last, hroom⟩ := Place.link_spec (hok.tree _ _ hdstS).sorted hlink
  obtain ⟨hid, hname, -, hlinks⟩ := linkedSession_fields dstS wl wwl
  have hok₁ : TreesOk (linkedServer sv dstS wl wwl) :=
    relinked_treesOk hok hdstS hid hname (hlinks.symm ▸ hroom)
  have hsync : Shrink (fun _ => True) (fun _ => False) (linkedServer sv dstS wl wwl)
      (attached sv dstS wl wwl) := syncFrom_shrink fun _ _ => trivial
  have hok₂ := Shrink.treesOk hsync hok₁
  -- the session it is unlinked from is not of the destination's group
  have hapart : ¬ InGroup (attached sv dstS wl wwl) recoveryS.id dstS.id := by
    intro hg
    obtain ⟨hmem, hlw⟩ := findByWindow_some hrecWl
    have hid' := sessionFindById_id hrecS
    exact hparked ⟨item.recoverySessionId, recoveryS, hrecS,
      hlw ▸ List.mem_map_of_mem hmem, hid' ▸ Shrink.inGroup hsync hg⟩
  have hunlink : Shrink (InGroup (attached sv dstS wl wwl) recoveryS.id) (fun _ => False)
      (attached sv dstS wl wwl)
      (serverUnlinkWindow (attached sv dstS wl wwl) recoveryS.id recoveryWl) :=
    unlinkWindow_shrink recoveryWl fun _ hj => hj
  have hselect : Shrink (fun _ => True) (fun _ => False)
      (serverUnlinkWindow (attached sv dstS wl wwl) recoveryS.id recoveryWl)
      (serverSessionSelect (serverUnlinkWindow (attached sv dstS wl wwl) recoveryS.id recoveryWl)
        dstS.id wl.idx) := sessionSelect_shrink wl.idx trivial
  have hrun := hsync.trans ((hunlink.mono fun _ _ => trivial).trans hselect)
  obtain ⟨s', hs', hw'⟩ := attached_self hok hdstS hroom
  have hlinked : (serverSessionSelect (serverUnlinkWindow (attached sv dstS wl wwl) recoveryS.id
      recoveryWl) dstS.id wl.idx).linked w.id = true := by
    refine (linked_iff (Shrink.treesOk hrun hok₁).unique).mpr
      ⟨dstS.id, (sessionSelect s' wl.idx).2, ?_, ?_⟩
    · rw [serverSessionSelect_find, if_pos rfl, Shrink.frame hunlink hapart, hs']
      rfl
    · unfold Session.order
      rw [(sessionSelect_same s' wl.idx).windows, hw', hroom.tree, ← hroom.window]
      exact List.mem_map_of_mem (mem_rbInsert.mpr (.inl rfl))
  have hfind := (Shrink.windows hrun hok₁).survive w.id (fun h => h) hlinked
  have hwindows : (windowBack sv dstS recoveryS recoveryWl w wl wwl).windows =
      (serverSessionSelect (serverUnlinkWindow (attached sv dstS wl wwl) recoveryS.id
        recoveryWl) dstS.id wl.idx).windows := by
    unfold windowBack
    rw [protectWindow_windows, restoreIfShrunk_windows]
  unfold windowFindById at hfind ⊢
  rw [hwindows, hfind]
  exact hw

/-- A restored window has the panes and the cells it had. -/
private theorem windowBack_oneCellEach {sv : Server} {target : Option Nat} {item : ClosedItem}
    {dstS recoveryS : Session} {recoveryWl wl : Winlink} {w : Window} {wwl : Winlinks}
    (hok : TreesOk sv) (hwok : WindowsOk sv)
    (h : findLiveWindow sv target item = .ok (dstS, recoveryS, recoveryWl, w))
    (hlink : (savedPlace sv dstS item).link dstS.windows sv.nextPtr w.id = some (wl, wwl))
    (hparked : ¬ LinksGroup sv w.id dstS.id) :
    (∃ w', windowFindById (windowBack sv dstS recoveryS recoveryWl w wl wwl) item.windowId =
      some w' ∧ OneCellEach (windowBack sv dstS recoveryS recoveryWl w wl wwl) w') ↔
        OneCellEach sv w := by
  obtain ⟨-, -, -, -, hwid⟩ := findLiveWindow_ok h
  have hfind := windowBack_find hok h hlink hparked
  have hstart : OwnersKept sv sv := ⟨hwok.owner, fun _ _ _ _ => Iff.rfl⟩
  have hkept := (ownersKept_stable sv).windowBack dstS recoveryS recoveryWl w wl wwl hstart
  have howner : ∀ p, ownerOf (windowBack sv dstS recoveryS recoveryWl w wl wwl) p = some w.id ↔
      ownerOf sv p = some w.id := fun p => hkept.owner w.id w p hfind
  rw [← hwid]
  constructor
  · rintro ⟨w', hw', heach⟩ p hp
    rw [hfind] at hw'
    obtain rfl := Option.some.inj hw'
    exact heach p (hp.imp_right (howner p).mpr)
  · exact fun heach => ⟨w, hfind, fun p hp => heach p (hp.imp_right (howner p).mp)⟩

/-! ## Both -/

/-- What is needed of a pane that is found. -/
private theorem restoreSafe_pane {sv : Server} {target : Option Nat} {item : ClosedItem}
    {dstS : Session} {dstWl : Winlink} {recoveryW : Window} (htype : item.type = .pane)
    (h : findLivePane sv target item = .ok (dstS, dstWl, recoveryW)) :
    RestoreSafe sv target item ↔
      if layoutFits sv item dstWl.window then Fitting sv item dstWl.window recoveryW.id
      else Settled sv item dstWl.window recoveryW.id := by
  unfold RestoreSafe
  rw [htype]
  refine ⟨fun hsafe => hsafe dstS dstWl recoveryW h, fun hsafe dstS' dstWl' recoveryW' h' => ?_⟩
  rw [h] at h'
  cases h'
  exact hsafe

/-- What is needed of a window that is found. -/
private theorem restoreSafe_window {sv : Server} {target : Option Nat} {item : ClosedItem}
    {dstS recoveryS : Session} {recoveryWl : Winlink} {w : Window} (htype : item.type = .window)
    (h : findLiveWindow sv target item = .ok (dstS, recoveryS, recoveryWl, w)) :
    RestoreSafe sv target item ↔
      (((savedPlace sv dstS item).link dstS.windows sv.nextPtr w.id).isSome →
        OneCellEach sv w) := by
  unfold RestoreSafe
  rw [htype]
  refine ⟨fun hsafe => hsafe dstS recoveryS recoveryWl w h,
    fun hsafe dstS' recoveryS' recoveryWl' w' h' => ?_⟩
  rw [h] at h'
  cases h'
  exact hsafe

private theorem paneRestore_atomic_iff {sv : Server} {target : Option Nat} {item : ClosedItem}
    (hok : TreesOk sv) (hwok : WindowsOk sv) (htype : item.type = .pane)
    (hparked : ∀ dstS, newmuxRestoreDestinationSession sv target item = some dstS →
      ¬ LinksGroup sv item.recoveryWindowId dstS.id) :
    RestoreAtomic sv target item ↔ RestoreSafe sv target item := by
  have hout := restoreLivePane_outcome sv target item
  have hres : newmuxRestoreClosedItem sv target item = newmuxRestoreLivePane sv target item := by
    unfold newmuxRestoreClosedItem
    rw [htype]
  rw [← hres] at hout
  have hapart : ∀ {dstS : Session} {dstWl : Winlink} {recoveryW : Window},
      findLivePane sv target item = .ok (dstS, dstWl, recoveryW) →
        ¬ LinksGroup sv recoveryW.id dstS.id := by
    intro dstS dstWl recoveryW h
    obtain ⟨hdst, -, -, -, hrec, -⟩ := findLivePane_ok h
    rw [windowFindById_id hrec]
    exact hparked dstS hdst
  generalize hr : newmuxRestoreClosedItem sv target item = r at hout
  cases hout with
  | missing cause h =>
      rw [restoreAtomic_error hr]
      refine iff_of_true (.refl sv) ?_
      unfold RestoreSafe
      rw [htype]
      intro dstS dstWl recoveryW h'
      rw [h] at h'
      cases h'
  | misfit cause dstS dstWl recoveryW h hfit =>
      obtain ⟨-, -, -, -, -, -, src, hsrc⟩ := findLivePane_ok h
      rw [restoreAtomic_error hr, restoreSafe_pane htype h, if_neg (by simp [hfit])]
      exact movePaneBack_shape_iff hwok hsrc (findLivePane_apart hok h (hapart h))
  | back dstS dstWl recoveryW h hfit =>
      obtain ⟨-, -, hw, -⟩ := findLivePane_ok h
      rw [restoreAtomic_ok hr, ← hw, restoreSafe_pane htype h, if_pos hfit]
      cases hl : item.windowLayout with
      | some layout => exact laidOut_oneCellEach_iff hok hwok h (hapart h) hfit hl
      | none =>
          exact iff_of_false (noLayout_not_oneCellEach hok hwok h (hapart h) hfit hl)
            fun hfitting => hfitting.layout hl

private theorem windowRestore_atomic_iff {sv : Server} {target : Option Nat} {item : ClosedItem}
    (hok : TreesOk sv) (hwok : WindowsOk sv) (htype : item.type = .window)
    (hparked : ∀ dstS, newmuxRestoreDestinationSession sv target item = some dstS →
      ¬ LinksGroup sv item.windowId dstS.id) :
    RestoreAtomic sv target item ↔ RestoreSafe sv target item := by
  have hout := restoreLiveWindow_outcome hok target item
  have hres : newmuxRestoreClosedItem sv target item = newmuxRestoreLiveWindow sv target item := by
    unfold newmuxRestoreClosedItem
    rw [htype]
  rw [← hres] at hout
  generalize hr : newmuxRestoreClosedItem sv target item = r at hout
  cases hout with
  | missing cause h =>
      rw [restoreAtomic_error hr]
      refine iff_of_true (.refl sv) ?_
      unfold RestoreSafe
      rw [htype]
      intro dstS recoveryS recoveryWl w h'
      rw [h] at h'
      cases h'
  | noRoom cause dstS recoveryS recoveryWl w h hlink =>
      rw [restoreAtomic_error hr, restoreSafe_window htype h, hlink]
      exact iff_of_true (.refl sv) fun hsome => (by cases hsome)
  | back dstS recoveryS recoveryWl w wl wwl h hlink =>
      obtain ⟨hdst, -, -, -, hwid⟩ := findLiveWindow_ok h
      rw [restoreAtomic_ok hr, restoreSafe_window htype h, hlink,
        windowBack_oneCellEach hok hwok h hlink (hwid.symm ▸ hparked dstS hdst)]
      exact ⟨fun heach _ => heach, fun heach => heach rfl⟩

/-- **When a restore is all or nothing.** A pane restore is when its saved layout fits
the window and every pane of it can be reached, or, should the layout not fit, when
the pane already stands in its place. A window restore is when the window's panes
have their cells, or it fails. -/
theorem restore_atomic_iff {sv : Server} {target : Option Nat} {item : ClosedItem}
    (hok : TreesOk sv) (hwok : WindowsOk sv)
    (hparked : ∀ dstS, newmuxRestoreDestinationSession sv target item = some dstS →
      ¬ LinksGroup sv (parkedWindow item) dstS.id) :
    RestoreAtomic sv target item ↔ RestoreSafe sv target item := by
  unfold parkedWindow at hparked
  cases htype : item.type with
  | pane =>
      rw [htype] at hparked
      exact paneRestore_atomic_iff hok hwok htype hparked
  | window =>
      rw [htype] at hparked
      exact windowRestore_atomic_iff hok hwok htype hparked
  | session =>
      have hres : newmuxRestoreClosedItem sv target item =
          (sv, .error "newmux restore failed: unsupported item type") := by
        unfold newmuxRestoreClosedItem
        rw [htype]
      unfold RestoreSafe
      rw [htype, restoreAtomic_error hres]
      exact iff_of_true (.refl sv) trivial

/-! ## A layout saved for fewer panes -/

/-- Two panes of a split tab are closed, and the one closed first is restored
first. -/
def claimOutOfOrder : List Event :=
  [.softDeletePane (splitPane 1), .softDeletePane (splitPane 2), .reserveLatestClosed false,
    .reopenLatestClosed none false]

/-- The state in which the other one is claimed. -/
def beforeClaim : State := TSys.runFrom exec splitState claimOutOfOrder

/-- The item it claims. -/
def reservedPane : ClosedItem :=
  (beforeClaim.reservedStack.head?).getD
    (newmuxItemFromWindow splitState (tabSession 1) ⟨0, 0, 0⟩ splitWindow).1

theorem beforeClaim_treesOk : TreesOk beforeClaim.server := by
  have hrun : TSys.RunOk (fun σ l => True ∧ l.Valid σ.server) exec splitState claimOutOfOrder := by
    decide +kernel
  exact reachable_treesOk (fun _ h => h)
    (recovery_run (.init ⟨splitState_fresh, splitServer_treesOk⟩) hrun)

theorem beforeClaim_windowsOk : WindowsOk beforeClaim.server :=
  .of_forall (by decide +kernel)

theorem beforeClaim_parked (dstS : Session)
    (h : newmuxRestoreDestinationSession beforeClaim.server none reservedPane = some dstS) :
    ¬ LinksGroup beforeClaim.server (parkedWindow reservedPane) dstS.id := by
  have hid : (newmuxRestoreDestinationSession beforeClaim.server none reservedPane).map
      Session.id = some 0 := by decide +kernel
  rw [h, Option.map_some, Option.some.injEq] at hid
  have hgroups : beforeClaim.server.groups = [] := by decide +kernel
  have hsessions : ∀ s ∈ beforeClaim.server.sessions,
      parkedWindow reservedPane ∈ Session.order s → s.id ≠ 0 := by decide +kernel
  rintro ⟨i, s, hs, hw, hg⟩
  rcases hg with he | ⟨sg, hsg, -⟩
  · exact hsessions s (Table.find_some_mem hs) hw (by rw [sessionFindById_id hs, ← he, hid])
  · exact absurd (hgroups ▸ hsg) List.not_mem_nil

theorem restore_atomic_before_claim :
    RestoreAtomic beforeClaim.server none reservedPane ↔
      RestoreSafe beforeClaim.server none reservedPane :=
  restore_atomic_iff beforeClaim_treesOk beforeClaim_windowsOk beforeClaim_parked

/-- The claim fails after the pane has moved into the tab. -/
theorem restore_moves_pane_and_fails :
    ¬ ∀ (sv : Server) (target : Option Nat) (item : ClosedItem), TreesOk sv → WindowsOk sv →
      (∀ dstS, newmuxRestoreDestinationSession sv target item = some dstS →
        ¬ LinksGroup sv (parkedWindow item) dstS.id) → RestoreAtomic sv target item := by
  intro h
  have hatomic := h beforeClaim.server none reservedPane beforeClaim_treesOk
    beforeClaim_windowsOk beforeClaim_parked
  have hfails : (newmuxRestoreClosedItem beforeClaim.server none reservedPane).2.toBool =
      false := by decide +kernel
  have hmoved : ownerOf (newmuxRestoreClosedItem beforeClaim.server none reservedPane).1 2 ≠
      ownerOf beforeClaim.server 2 := by decide +kernel
  cases hr : newmuxRestoreClosedItem beforeClaim.server none reservedPane with
  | mk sv' result =>
      rw [hr] at hfails hmoved
      cases result with
      | error cause => exact hmoved ((hatomic.failed sv' cause hr).owner 2)
      | ok _ => cases hfails

end Newmux.Theorems
