import Newmux.Logic.Moves
import Newmux.Logic.Runs

/-!
# Invariants of windows and panes

A property of the windows, of which pane belongs to which, and of the next window
id says nothing about sessions. If destroying a window and unzooming one keep it,
then so does everything the server does to sessions: attaching and detaching,
copying a tree inside a group, renumbering, destroying, killing a window, and what
a restore does to the panes' histories.
-/

namespace Newmux.Logic

open Newmux.Base Newmux.Tmux Newmux.Recovery

/-- The same windows, owned panes and next window id. -/
structure SameWindows (sv sv' : Server) : Prop where
  windows : sv'.windows = sv.windows
  owner : ∀ p, ownerOf sv' p = ownerOf sv p
  next : sv'.nextWindowId = sv.nextWindowId

/-- `I` is about windows and owners only, and survives destroying and unzooming. -/
structure Stable (I : Server → Prop) : Prop where
  congr : ∀ {sv sv' : Server}, SameWindows sv sv' → I sv → I sv'
  destroy : ∀ {sv : Server} (w : Nat), I sv → I (windowDestroy sv w)
  unzoom : ∀ {sv : Server} (w : Nat), I sv → I (windowUnzoom sv w)

/-- Nothing but sessions, groups and addresses has changed. -/
theorem SameWindows.of_panes {sv sv' : Server} (hw : sv'.windows = sv.windows)
    (hp : sv'.panes = sv.panes) (hn : sv'.nextWindowId = sv.nextWindowId) :
    SameWindows sv sv' := ⟨hw, ownerOf_panes hp, hn⟩

/-- Every pane is changed without being given away. -/
theorem SameWindows.of_map (sv : Server) {f : Pane → Pane}
    (hf : ∀ wp, (f wp).id = wp.id ∧ (f wp).window = wp.window) :
    SameWindows sv { sv with panes := sv.panes.map f } := by
  refine ⟨rfl, fun p => ?_, rfl⟩
  unfold ownerOf windowPaneFindById
  rw [Table.find_map sv.panes p fun wp => (hf wp).1, Option.map_map]
  congr 1
  exact funext fun wp => (hf wp).2

theorem SameWindows.of_modify (sv : Server) (k : Nat) {f : Pane → Pane}
    (hf : ∀ wp, (f wp).id = wp.id ∧ (f wp).window = wp.window) :
    SameWindows sv { sv with panes := Table.modify sv.panes k f } := by
  refine ⟨rfl, fun p => ?_, rfl⟩
  unfold ownerOf windowPaneFindById
  rw [Table.find_modify sv.panes k p fun wp _ => (hf wp).1.trans ‹_›]
  split
  · rw [Option.map_map]
    congr 1
    exact funext fun wp => (hf wp).2
  · rfl

/-- What every step keeps, a sequence of steps keeps. -/
theorem foldl_keeps {α : Type} {I : Server → Prop} {f : Server → α → Server}
    (hf : ∀ sv a, I sv → I (f sv a)) (l : List α) {sv : Server} (h : I sv) :
    I (l.foldl f sv) := by
  induction l generalizing sv with
  | nil => exact h
  | cons a l ih => exact ih (hf sv a h)

namespace Stable

variable {I : Server → Prop} (hI : Stable I) {sv : Server}

include hI

/-- A change of sessions, groups and addresses. -/
theorem sessions {sv' : Server} (h : I sv) (hw : sv'.windows = sv.windows)
    (hp : sv'.panes = sv.panes) (hn : sv'.nextWindowId = sv.nextWindowId) : I sv' :=
  hI.congr (.of_panes hw hp hn) h

theorem setSession (s : Session) (h : I sv) : I (sv.setSession s) := hI.sessions h rfl rfl rfl

/-! ## Sessions -/

theorem removeRef (w : Nat) (h : I sv) : I (windowRemoveRef sv w) := by
  unfold windowRemoveRef
  split
  · exact h
  · exact hI.destroy w h

theorem removeRefs (wwl : Winlinks) (h : I sv) :
    I (wwl.foldl (fun sv wl => windowRemoveRef sv wl.window) sv) :=
  foldl_keeps (I := I) (fun _ wl h => hI.removeRef wl.window h) wwl h

theorem sync1 (t s : Nat) (h : I sv) : I (sessionGroupSynchronize1 sv t s) := by
  unfold sessionGroupSynchronize1
  split
  · next target mem _ _ =>
      split
      · exact h
      · exact hI.removeRefs mem.windows (hI.sessions h rfl rfl rfl)
  · exact h

theorem syncFrom (t : Nat) (h : I sv) : I (sessionGroupSynchronizeFrom sv t) := by
  unfold sessionGroupSynchronizeFrom
  split
  · exact h
  · exact foldl_keeps (fun _ m h => hI.sync1 t m h) _ h

theorem unlink (s : Session) (wl : Winlink) (h : I sv) : I (sessionUnlink sv s wl) :=
  hI.removeRef wl.window (hI.setSession _ h)

theorem detach (s : Nat) (wl : Winlink) (h : I sv) : I (sessionDetach sv s wl).1 := by
  unfold sessionDetach
  split
  · exact h
  · exact hI.syncFrom s (hI.unlink _ wl h)

theorem detachSilent (s : Nat) (wl : Winlink) (h : I sv) :
    I (newmuxSessionDetachSilent sv s wl).1 := by
  unfold newmuxSessionDetachSilent
  split
  · exact h
  · exact hI.syncFrom s (hI.unlink _ wl h)

theorem sessionDestroy (s : Nat) (h : I sv) : I (sessionDestroy sv s) := by
  unfold Newmux.Tmux.sessionDestroy
  split
  · exact h
  · next ses _ =>
      split
      · exact h
      · exact hI.removeRefs ses.windows (hI.sessions h rfl rfl rfl)

theorem destroyGroup (s : Nat) (h : I sv) : I (serverDestroySessionGroup sv s) := by
  unfold serverDestroySessionGroup
  split
  · exact hI.sessionDestroy s h
  · exact foldl_keeps (fun _ m h => hI.sessionDestroy m h) _ h

theorem unlinkWindow (s : Nat) (wl : Winlink) (h : I sv) : I (serverUnlinkWindow sv s wl) := by
  have hdetach := hI.detach s wl h
  unfold serverUnlinkWindow
  cases hd : sessionDetach sv s wl with
  | mk sv' empty =>
      rw [hd] at hdetach
      simp only
      split
      · exact hI.destroyGroup s hdetach
      · exact hdetach

theorem renumberMember (m : Nat) (h : I sv) : I (renumberMember sv m) := by
  unfold Newmux.Tmux.renumberMember
  split
  · exact h
  · exact hI.sessions h rfl rfl rfl

theorem renumberSession (s : Nat) (h : I sv) : I (serverRenumberSession sv s) := by
  unfold serverRenumberSession
  split
  · exact h
  · split
    · exact foldl_keeps (fun _ m h => hI.renumberMember m h) _ h
    · exact h

theorem killLoop (w fuel s : Nat) (h : I sv) : I (killLoop w fuel sv s) := by
  induction fuel generalizing sv with
  | zero => exact h
  | succ fuel ih =>
      unfold Newmux.Tmux.killLoop
      split
      · exact h
      · next wl _ =>
          have hdetach := hI.detach s wl h
          cases hd : sessionDetach sv s wl with
          | mk sv' empty =>
              rw [hd] at hdetach
              simp only
              split
              · exact hI.destroyGroup s hdetach
              · exact ih hdetach

theorem killIn (w : Nat) (renumber : Bool) (s : Nat) (h : I sv) : I (killIn w renumber sv s) := by
  unfold Newmux.Tmux.killIn
  split
  · exact h
  · next ses _ =>
      split
      · have hloop := hI.killLoop w ses.windows.length s (hI.unzoom w h)
        simp only
        split
        · exact hI.renumberSession s hloop
        · exact hloop
      · exact h

/-- Killing a window. -/
theorem killWindow (w : Nat) (renumber : Bool) (h : I sv) : I (serverKillWindow sv w renumber) := by
  unfold serverKillWindow
  exact foldl_keeps (fun _ s h => hI.killIn w renumber s h) _ h

theorem sessionAttach (s w : Nat) (idx : Int) (h : I sv) : I (sessionAttach sv s w idx).1 := by
  unfold Newmux.Tmux.sessionAttach
  split
  · exact h
  · split
    · exact h
    · exact hI.syncFrom s (hI.sessions h rfl rfl rfl)

theorem attachSilent (s w : Nat) (idx : Int) (h : I sv) :
    I (newmuxSessionAttachSilent sv s w idx).1 := by
  unfold newmuxSessionAttachSilent
  split
  · exact h
  · split
    · exact h
    · exact hI.syncFrom s (hI.sessions h rfl rfl rfl)

theorem attached (s : Session) (wl : Winlink) (wwl : Winlinks) (h : I sv) :
    I (attached sv s wl wwl) :=
  hI.syncFrom s.id (hI.sessions h rfl rfl rfl)

theorem sessionSelect (s idx : Nat) (h : I sv) : I (serverSessionSelect sv s idx) := by
  unfold serverSessionSelect
  split
  · exact h
  · exact hI.setSession _ h

theorem recoverySessionGet (h : I sv) : I (newmuxRecoverySessionGet sv).1 := by
  unfold newmuxRecoverySessionGet
  split
  · exact h
  · exact hI.sessions h rfl rfl rfl

theorem recoveryClear {σ : State} (h : I σ.server) : I (newmuxRecoveryClear σ).server := by
  unfold newmuxRecoveryClear newmuxStackClear
  simp only
  split
  · exact h
  · exact hI.sessionDestroy _ h

/-! ## Histories -/

theorem preserve (panes : List Nat) (h : I sv) : I (preserveHistories sv panes) := by
  refine hI.congr (.of_map sv fun wp => ?_) h
  split <;> exact ⟨rfl, rfl⟩

theorem output (wp : Nat) (content : PaneContent) (h : I sv) : I (paneOutput sv wp content) :=
  hI.congr (.of_modify sv wp fun _ => ⟨rfl, rfl⟩) h

theorem protectPane (wp : Nat) (h : I sv) : I (newmuxProtectPaneHistoryOnNextClear sv wp) :=
  hI.congr (.of_modify sv wp fun _ => ⟨rfl, rfl⟩) h

theorem protectWindow (w : Nat) (h : I sv) : I (newmuxProtectWindowHistoryOnNextClear sv w) := by
  unfold newmuxProtectWindowHistoryOnNextClear
  split
  · exact h
  · exact foldl_keeps (fun _ wp h => hI.protectPane wp h) _ h

theorem restoreIfShrunk (snapshots : List HistorySnapshot) (h : I sv) :
    I (newmuxHistorySnapshotsRestoreIfShrunk sv snapshots) := by
  induction snapshots generalizing sv with
  | nil => exact h
  | cons snapshot snapshots ih =>
      unfold newmuxHistorySnapshotsRestoreIfShrunk
      refine ih ?_
      split
      · exact h
      · next wp hwp =>
          -- the pane is written back with another grid
          have hid := windowPaneFindById_id hwp
          have hsame : ∀ wp' : Pane, wp'.id = wp.id → wp'.window = wp.window →
              SameWindows sv (sv.setPane wp') := by
            intro wp' hid' hwindow
            refine ⟨rfl, fun p => ?_, rfl⟩
            unfold ownerOf
            rw [windowPaneFindById_setPane]
            split
            · next hp =>
                rw [hp, hid', hid, hwp, Option.map_some, Option.map_some, Option.map_some, hwindow]
            · rfl
          exact hI.congr (hsame _ rfl rfl) h

/-! ## Windows -/

theorem breakLiveWindow (item : ClosedItem) (s : Nat) (wl : Winlink) (h : I sv) :
    I (newmuxBreakLiveWindow sv item s wl).1 := by
  have hready := hI.preserve (((windowFindById (windowUnzoom (newmuxRecoverySessionGet sv).1
    wl.window) wl.window).map Window.panes).getD []) (hI.unzoom wl.window (hI.recoverySessionGet h))
  have hattach := hI.attachSilent (newmuxRecoverySessionGet sv).2 wl.window (-1) hready
  simp only [newmuxBreakLiveWindow]
  split
  · next heq =>
      rw [heq] at hattach
      exact hattach
  · next heq =>
      rw [heq] at hattach
      have hdetach := hI.detachSilent s wl hattach
      split <;> next heq' => rw [heq'] at hdetach; exact hdetach

/-- Once a pane has its new window, only sessions change. -/
theorem breakLivePane (item : ClosedItem) (wl : Winlink) (wp : Nat)
    (h : I (breakPane (newmuxRecoverySessionGet sv).1 wl.window wp item.sequence).1) :
    I (newmuxBreakLivePane sv item wl wp).1 := by
  simp only [newmuxBreakLivePane]
  generalize breakPane (newmuxRecoverySessionGet sv).1 wl.window wp item.sequence = r at h ⊢
  have hattach := hI.sessionAttach (newmuxRecoverySessionGet sv).2 r.2 (-1) h
  split
  · next heq =>
      rw [heq] at hattach
      exact hattach
  · next heq =>
      rw [heq] at hattach
      simp only
      split
      · exact hattach
      · split
        · exact hI.setSession _ hattach
        · exact hattach

/-- Once the pane to select is selected, only sessions and the emptied window
change. -/
theorem finishPaneRestore (item : ClosedItem) (dstS : Nat) (dstWl : Winlink) (recoveryW : Nat)
    (h : I (newmuxSelectPaneIndex sv dstWl.window item.activePaneIndex)) :
    I (finishPaneRestore sv item dstS dstWl recoveryW) := by
  have hselected := hI.sessionSelect dstS dstWl.idx (hI.protectPane item.paneId h)
  rw [finishPaneRestore_eq]
  split
  · exact hI.killWindow _ _ hselected
  · exact hselected

theorem windowBack (dstS recoveryS : Session) (recoveryWl : Winlink) (w : Window) (wl : Winlink)
    (wwl : Winlinks) (h : I sv) : I (windowBack sv dstS recoveryS recoveryWl w wl wwl) :=
  hI.protectWindow w.id (hI.restoreIfShrunk _ (hI.sessionSelect dstS.id wl.idx
    (hI.unlinkWindow recoveryS.id recoveryWl (hI.attached dstS wl wwl h))))

end Stable

end Newmux.Logic
