import Newmux.Logic.Attach
import Newmux.Logic.Moves

/-!
# When a restore succeeds

Whether `newmux_restore_closed_item` will succeed can be read off the server
before the call: the lookups it starts with, and then that there is room for
the window, or that the saved layout fits the window with the pane back in it.
-/

namespace Newmux.Logic

open Newmux.Base Newmux.Tmux Newmux.Recovery

/-- The saved layout, if there is one, can be installed over the destination
window once the pane is back in it. -/
def layoutFits (sv : Server) (item : ClosedItem) (dstW : Nat) : Bool :=
  match item.windowLayout with
  | none => true
  | some layout =>
      match windowFindById sv dstW with
      | none => false
      | some win =>
          (layoutRead (listedBack item item.recoveryWindowId win).panes.length layout).toBool

/-- The item can be restored. -/
def restorable (sv : Server) (target : Option Nat) (item : ClosedItem) : Bool :=
  match item.type with
  | .pane =>
      match findLivePane sv target item with
      | .error _ => false
      | .ok (_, dstWl, _) => layoutFits sv item dstWl.window
  | .window =>
      match findLiveWindow sv target item with
      | .error _ => false
      | .ok (dstS, _, _, w) =>
          ((savedPlace sv dstS item).link dstS.windows sv.nextPtr w.id).isSome
  | .session => false

/-- A pane item of which everything is found, but whose saved layout does not fit. -/
def misfit (sv : Server) (target : Option Nat) (item : ClosedItem) : Bool :=
  match item.type with
  | .pane =>
      match findLivePane sv target item with
      | .error _ => false
      | .ok (_, dstWl, _) => !layoutFits sv item dstWl.window
  | _ => false

/-- An item for which a lookup fails, or there is no free index. -/
def dead (sv : Server) (target : Option Nat) (item : ClosedItem) : Bool :=
  match item.type with
  | .pane => !(findLivePane sv target item).toBool
  | .window =>
      match findLiveWindow sv target item with
      | .error _ => true
      | .ok (dstS, _, _, w) =>
          ((savedPlace sv dstS item).link dstS.windows sv.nextPtr w.id).isNone
  | .session => true

theorem dead_of_not {sv : Server} {target : Option Nat} {item : ClosedItem}
    (h : restorable sv target item = false) (hfit : misfit sv target item = false) :
    dead sv target item = true := by
  unfold restorable at h
  unfold misfit at hfit
  unfold dead
  cases htype : item.type with
  | pane =>
      simp only [htype] at h hfit ⊢
      cases hfind : findLivePane sv target item with
      | error cause => rfl
      | ok found =>
          simp only [hfind] at h hfit
          rw [h] at hfit
          cases hfit
  | window =>
      simp only [htype] at h ⊢
      cases hfind : findLiveWindow sv target item with
      | error cause => rfl
      | ok found =>
          simp only [hfind] at h ⊢
          simpa using h
  | session => rfl

/-! ## Panes -/

/-- The server once the saved layout is installed. -/
def laidOut (sv : Server) (w : Nat) (layout : Option (List Char)) : Server :=
  match layout with
  | none => sv
  | some layout => (layoutParse sv w layout).1

theorem laidOut_panes (sv : Server) (w : Nat) (layout : Option (List Char)) :
    PanesKept sv (laidOut sv w layout) := by
  unfold laidOut
  split
  · exact .refl sv
  · exact layoutParse_panes sv w _

theorem laidOut_owner (sv : Server) (w : Nat) (layout : Option (List Char)) (p : Nat) :
    ownerOf (laidOut sv w layout) p = ownerOf sv p := by
  unfold laidOut
  split
  · rfl
  · exact layoutParse_owner sv w _ p

/-- The server after a pane has been restored. -/
def paneBack (sv : Server) (item : ClosedItem) (dstS : Session) (dstWl : Winlink)
    (recoveryW : Window) : Server :=
  finishPaneRestore
    (laidOut (movePaneBack sv item dstWl.window recoveryW.id) dstWl.window item.windowLayout)
    item dstS.id dstWl recoveryW.id

/-- How a pane restore ends: a lookup fails, the layout does not fit (and the
pane has moved), or the pane is back. -/
inductive PaneOutcome (sv : Server) (target : Option Nat) (item : ClosedItem) :
    Server × Except String Unit → Prop
  | missing (cause : String) (h : findLivePane sv target item = .error cause) :
      PaneOutcome sv target item (sv, .error cause)
  | misfit (cause : String) (dstS : Session) (dstWl : Winlink) (recoveryW : Window)
      (h : findLivePane sv target item = .ok (dstS, dstWl, recoveryW))
      (hfit : layoutFits sv item dstWl.window = false) :
      PaneOutcome sv target item
        (movePaneBack sv item dstWl.window recoveryW.id, .error cause)
  | back (dstS : Session) (dstWl : Winlink) (recoveryW : Window)
      (h : findLivePane sv target item = .ok (dstS, dstWl, recoveryW))
      (hfit : layoutFits sv item dstWl.window = true) :
      PaneOutcome sv target item (paneBack sv item dstS dstWl recoveryW, .ok ())

/-- `layout_parse` succeeds when the text reads for the number of panes, and
changes nothing otherwise. -/
theorem layoutParse_cases (sv : Server) (w : Nat) (layout : List Char) :
    (∃ panes, panesOf sv w = some panes ∧ (layoutRead panes.length layout).toBool = true ∧
        (layoutParse sv w layout).2 = .ok ()) ∨
      (∃ cause, layoutParse sv w layout = (sv, .error cause)) ∧
        ∀ panes, panesOf sv w = some panes → (layoutRead panes.length layout).toBool = false := by
  unfold layoutParse panesOf
  cases windowFindById sv w with
  | none => exact .inr ⟨⟨_, rfl⟩, fun panes hp => by cases hp⟩
  | some win =>
      simp only [Option.map_some, windowCountPanes]
      cases hread : layoutRead win.panes.length layout with
      | error cause =>
          refine .inr ⟨⟨cause, rfl⟩, fun panes hp => ?_⟩
          cases hp
          rw [hread]
          rfl
      | ok r =>
          refine .inl ⟨_, rfl, ?_, rfl⟩
          rw [hread]
          rfl

/-- The destination window is where the lookups found it. -/
theorem findLivePane_ok {sv : Server} {target : Option Nat} {item : ClosedItem}
    {dstS : Session} {dstWl : Winlink} {recoveryW : Window}
    (h : findLivePane sv target item = .ok (dstS, dstWl, recoveryW)) :
    newmuxRestoreDestinationSession sv target item = some dstS ∧
      winlinkFindByWindow dstS.windows item.windowId = some dstWl ∧
      dstWl.window = item.windowId ∧
      (∃ w, windowFindById sv item.windowId = some w) ∧
      windowFindById sv item.recoveryWindowId = some recoveryW ∧
      (∃ recoveryS recoveryWl, sessionFindById sv item.recoverySessionId = some recoveryS ∧
        winlinkFindByWindow recoveryS.windows item.recoveryWindowId = some recoveryWl) ∧
      ∃ wp, windowPaneFindById sv item.paneId = some wp := by
  unfold findLivePane at h
  split at h
  · cases h
  · next s hdst =>
      split at h
      · cases h
      · next wl hwl =>
          split at h
          · next rs rw wp hrs hrw hwp =>
              split at h
              · cases h
              · next rwl hrwl =>
                  cases h
                  rw [Option.bind_eq_some_iff] at hwl
                  obtain ⟨w, hw, hwl⟩ := hwl
                  rw [windowFindById_id hw] at hwl
                  rw [windowFindById_id hrw] at hrwl
                  exact ⟨hdst, hwl, (findByWindow_some hwl).2, ⟨w, hw⟩, hrw,
                    ⟨rs, rwl, hrs, hrwl⟩, ⟨wp, hwp⟩⟩
          · cases h

theorem restoreLivePane_outcome (sv : Server) (target : Option Nat) (item : ClosedItem) :
    PaneOutcome sv target item (newmuxRestoreLivePane sv target item) := by
  unfold newmuxRestoreLivePane
  cases h : findLivePane sv target item with
  | error cause => exact .missing cause h
  | ok found =>
      obtain ⟨dstS, dstWl, recoveryW⟩ := found
      obtain ⟨-, -, hdst, ⟨dstW, hdstW⟩, hrec, -, hsrc⟩ := findLivePane_ok h
      rw [← hdst] at hdstW
      have hpanes' := @movePaneBack_list sv item dstWl.window recoveryW.id dstW hdstW hsrc
      simp only
      cases hl : item.windowLayout with
      | none =>
          have hback : paneBack sv item dstS dstWl recoveryW = finishPaneRestore
              (movePaneBack sv item dstWl.window recoveryW.id) item dstS.id dstWl
              recoveryW.id := by
            unfold paneBack laidOut
            rw [hl]
          simp only
          rw [← hback]
          exact .back dstS dstWl recoveryW h (by simp [layoutFits, hl])
      | some layout =>
          have hfits : layoutFits sv item dstWl.window =
              (layoutRead (listedBack item recoveryW.id dstW).panes.length layout).toBool := by
            simp only [layoutFits, hl, hdstW, windowFindById_id hrec]
          rcases layoutParse_cases (movePaneBack sv item dstWl.window recoveryW.id)
            dstWl.window layout with ⟨p, hp, hread, hok⟩ | ⟨⟨cause, herr⟩, hread⟩
          · rw [hpanes'] at hp
            cases hp
            have hback : paneBack sv item dstS dstWl recoveryW = finishPaneRestore
                (layoutParse (movePaneBack sv item dstWl.window recoveryW.id) dstWl.window
                  layout).1 item dstS.id dstWl recoveryW.id := by
              unfold paneBack laidOut
              rw [hl]
            have hsplit : layoutParse (movePaneBack sv item dstWl.window recoveryW.id)
                dstWl.window layout = ((layoutParse (movePaneBack sv item dstWl.window
                  recoveryW.id) dstWl.window layout).1, .ok ()) := Prod.ext rfl hok
            simp only
            rw [hsplit]
            simp only
            rw [← hback]
            exact .back dstS dstWl recoveryW h (hfits.trans hread)
          · simp only
            rw [herr]
            exact .misfit _ dstS dstWl recoveryW h (hfits.trans (hread _ hpanes'))

/-! ## Windows -/

/-- The destination session is a session of the server. -/
theorem destination_find {sv : Server} (hu : Table.Unique sv.sessions) {target : Option Nat}
    {item : ClosedItem} {dstS : Session}
    (h : newmuxRestoreDestinationSession sv target item = some dstS) :
    sessionFindById sv dstS.id = some dstS := by
  have hid : ∀ {id : Nat} {s : Session}, sessionFindById sv id = some s →
      sessionFindById sv s.id = some s := by
    intro id s hs
    rw [sessionFindById_id hs]
    exact hs
  have hfallback : ∀ {s : Session}, (target.bind (sessionFindById sv)).filter
      (fun s => s.name != newmuxRecoverySession) = some s → sessionFindById sv s.id = some s := by
    intro s hs
    obtain ⟨hs, -⟩ := Option.filter_eq_some_iff.mp hs
    obtain ⟨id, -, hs⟩ := Option.bind_eq_some_iff.mp hs
    exact hid hs
  unfold newmuxRestoreDestinationSession at h
  simp only at h
  split at h
  · next s hs =>
      cases h
      exact hid hs
  · split at h
    · rcases Option.or_eq_some_iff.mp h with hs | ⟨-, hs⟩
      · exact Table.find_of_mem hu (List.mem_of_find?_eq_some hs)
      · exact hfallback hs
    · exact hfallback h

theorem findLiveWindow_ok {sv : Server} {target : Option Nat} {item : ClosedItem}
    {dstS recoveryS : Session} {recoveryWl : Winlink} {w : Window}
    (h : findLiveWindow sv target item = .ok (dstS, recoveryS, recoveryWl, w)) :
    newmuxRestoreDestinationSession sv target item = some dstS ∧
      sessionFindById sv item.recoverySessionId = some recoveryS ∧
      winlinkFindByWindow recoveryS.windows item.windowId = some recoveryWl ∧
      windowFindById sv item.windowId = some w ∧ w.id = item.windowId := by
  unfold findLiveWindow at h
  split at h
  · cases h
  · next s hdst =>
      split at h
      · next rs win hrs hw =>
          split at h
          · cases h
          · next rwl hrwl =>
              cases h
              have hid := windowFindById_id hw
              rw [hid] at hrwl
              exact ⟨hdst, hrs, hrwl, hw, hid⟩
      · cases h

/-- The server after a window has been restored. -/
def windowBack (sv : Server) (dstS recoveryS : Session) (recoveryWl : Winlink) (w : Window)
    (wl : Winlink) (wwl : Winlinks) : Server :=
  newmuxProtectWindowHistoryOnNextClear
    (newmuxHistorySnapshotsRestoreIfShrunk
      (serverSessionSelect
        (serverUnlinkWindow (attached sv dstS wl wwl) recoveryS.id recoveryWl) dstS.id wl.idx)
      (newmuxHistorySnapshotsTake sv w)) w.id

/-- How a window restore ends: a lookup fails or there is no room, and nothing
has changed, or the window is back. -/
inductive WindowOutcome (sv : Server) (target : Option Nat) (item : ClosedItem) :
    Server × Except String Unit → Prop
  | missing (cause : String) (h : findLiveWindow sv target item = .error cause) :
      WindowOutcome sv target item (sv, .error cause)
  | noRoom (cause : String) (dstS recoveryS : Session) (recoveryWl : Winlink) (w : Window)
      (h : findLiveWindow sv target item = .ok (dstS, recoveryS, recoveryWl, w))
      (hlink : (savedPlace sv dstS item).link dstS.windows sv.nextPtr w.id = none) :
      WindowOutcome sv target item (sv, .error cause)
  | back (dstS recoveryS : Session) (recoveryWl : Winlink) (w : Window) (wl : Winlink)
      (wwl : Winlinks)
      (h : findLiveWindow sv target item = .ok (dstS, recoveryS, recoveryWl, w))
      (hlink : (savedPlace sv dstS item).link dstS.windows sv.nextPtr w.id = some (wl, wwl)) :
      WindowOutcome sv target item (windowBack sv dstS recoveryS recoveryWl w wl wwl, .ok ())

theorem restoreLiveWindow_outcome {sv : Server} (hok : TreesOk sv) (target : Option Nat)
    (item : ClosedItem) :
    WindowOutcome sv target item (newmuxRestoreLiveWindow sv target item) := by
  unfold newmuxRestoreLiveWindow
  cases h : findLiveWindow sv target item with
  | error cause => exact .missing cause h
  | ok found =>
      obtain ⟨dstS, recoveryS, recoveryWl, w⟩ := found
      have hdst := destination_find hok.unique (findLiveWindow_ok h).1
      have hsorted := (hok.tree _ _ hdst).sorted
      have hout := attachAtSavedPosition_outcome hdst hsorted w.id item
      simp only
      cases hres : newmuxSessionAttachAtSavedPosition sv dstS w.id item with
      | mk server result =>
          rw [hres] at hout
          cases hout with
          | ok wl wwl hlink => exact .back dstS recoveryS recoveryWl w wl wwl h hlink
          | error cause hlink => exact .noRoom cause dstS recoveryS recoveryWl w h hlink

/-! ## Both -/

/-- **A restore succeeds exactly when the item is restorable.** -/
theorem restoreClosedItem_ok_iff {sv : Server} (hok : TreesOk sv) (target : Option Nat)
    (item : ClosedItem) :
    (newmuxRestoreClosedItem sv target item).2 = .ok () ↔ restorable sv target item = true := by
  unfold newmuxRestoreClosedItem restorable
  cases item.type with
  | pane =>
      have hout := restoreLivePane_outcome sv target item
      simp only
      generalize newmuxRestoreLivePane sv target item = r at hout ⊢
      cases hout with
      | missing cause h => simp [h]
      | misfit cause dstS dstWl recoveryW h hfit => simp [h, hfit]
      | back dstS dstWl recoveryW h hfit => simp [h, hfit]
  | window =>
      have hout := restoreLiveWindow_outcome hok target item
      simp only
      generalize newmuxRestoreLiveWindow sv target item = r at hout ⊢
      cases hout with
      | missing cause h => simp [h]
      | noRoom cause dstS recoveryS recoveryWl w h hlink => simp [h, hlink]
      | back dstS recoveryS recoveryWl w wl wwl h hlink => simp [h, hlink]
  | session => simp

/-- **A dead item** is an error, and its restore changes nothing. -/
theorem restoreClosedItem_dead {sv : Server} (hok : TreesOk sv) {target : Option Nat}
    {item : ClosedItem} (h : dead sv target item = true) :
    ∃ cause, newmuxRestoreClosedItem sv target item = (sv, .error cause) := by
  unfold newmuxRestoreClosedItem
  unfold dead at h
  cases htype : item.type with
  | pane =>
      have hout := restoreLivePane_outcome sv target item
      simp only [htype] at h ⊢
      generalize newmuxRestoreLivePane sv target item = r at hout ⊢
      cases hout with
      | missing cause hfind => exact ⟨cause, rfl⟩
      | misfit cause dstS dstWl recoveryW hfind hfit =>
          rw [hfind] at h
          cases h
      | back dstS dstWl recoveryW hfind hfit =>
          rw [hfind] at h
          cases h
  | window =>
      have hout := restoreLiveWindow_outcome hok target item
      simp only [htype] at h ⊢
      generalize newmuxRestoreLiveWindow sv target item = r at hout ⊢
      cases hout with
      | missing cause hfind => exact ⟨cause, rfl⟩
      | noRoom cause dstS recoveryS recoveryWl w hfind hlink => exact ⟨cause, rfl⟩
      | back dstS recoveryS recoveryWl w wl wwl hfind hlink => simp [hfind, hlink] at h
  | session => exact ⟨_, rfl⟩

end Newmux.Logic
