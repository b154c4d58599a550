import Newmux.Recovery.System

/-!
# Frames of the window operations

The operations on windows and panes leave the session tree alone, and all but
the two that list or unlist a pane leave every window's pane list alone.
-/

namespace Newmux.Logic

open Newmux.Base Newmux.Tmux Newmux.Recovery

/-! ## Sessions are untouched -/

/-- Nothing about sessions, groups or winlinks has changed. -/
structure SessionsKept (sv sv' : Server) : Prop where
  sessions : sv'.sessions = sv.sessions
  groups : sv'.groups = sv.groups
  nextSessionId : sv'.nextSessionId = sv.nextSessionId
  nextPtr : sv'.nextPtr = sv.nextPtr
  nextWindowId : sv.nextWindowId ≤ sv'.nextWindowId
  globalSOptions : sv'.globalSOptions = sv.globalSOptions

theorem SessionsKept.refl (sv : Server) : SessionsKept sv sv :=
  ⟨rfl, rfl, rfl, rfl, le_rfl, rfl⟩

theorem SessionsKept.trans {sv sv' sv'' : Server} (h : SessionsKept sv sv')
    (h' : SessionsKept sv' sv'') : SessionsKept sv sv'' :=
  ⟨h'.sessions.trans h.sessions, h'.groups.trans h.groups,
    h'.nextSessionId.trans h.nextSessionId, h'.nextPtr.trans h.nextPtr,
    h.nextWindowId.trans h'.nextWindowId, h'.globalSOptions.trans h.globalSOptions⟩

theorem SessionsKept.find {sv sv' : Server} (h : SessionsKept sv sv') (id : Nat) :
    sessionFindById sv' id = sessionFindById sv id := by
  unfold sessionFindById
  rw [h.sessions]

theorem SessionsKept.linked {sv sv' : Server} (h : SessionsKept sv sv') (w : Nat) :
    sv'.linked w = sv.linked w := by
  unfold Server.linked
  rw [h.sessions]

/-- The windows outside `W` that are still linked are as they were, and no
window outside `W` is new or changed. -/
structure WindowsKept (W : Nat → Prop) (sv sv' : Server) : Prop where
  survive : ∀ w, ¬ W w → sv'.linked w = true → windowFindById sv' w = windowFindById sv w
  back : ∀ w win, ¬ W w → windowFindById sv' w = some win → windowFindById sv w = some win

theorem WindowsKept.of_windows {W : Nat → Prop} {sv sv' : Server}
    (h : sv'.windows = sv.windows) : WindowsKept W sv sv' := by
  have hfind : ∀ w, windowFindById sv' w = windowFindById sv w := fun w => by
    simp only [windowFindById, h]
  exact ⟨fun w _ _ => hfind w, fun w win _ hw => (hfind w) ▸ hw⟩

theorem layoutFixPanes_kept (sv : Server) (w : Nat) : SessionsKept sv (layoutFixPanes sv w) := by
  unfold layoutFixPanes
  split <;> exact ⟨rfl, rfl, rfl, rfl, le_rfl, rfl⟩

theorem setWindow_kept (sv : Server) (w : Window) : SessionsKept sv (sv.setWindow w) :=
  ⟨rfl, rfl, rfl, rfl, le_rfl, rfl⟩

theorem windowUnzoom_kept (sv : Server) (w : Nat) : SessionsKept sv (windowUnzoom sv w) := by
  unfold windowUnzoom
  split
  · exact .refl sv
  · split
    · exact (setWindow_kept sv _).trans (layoutFixPanes_kept _ w)
    · exact .refl sv

theorem layoutFixPanes_find (sv : Server) (w x : Nat) :
    windowFindById (layoutFixPanes sv w) x = windowFindById sv x := by
  unfold layoutFixPanes
  split <;> rfl

/-- Unzooming changes one window. -/
theorem windowUnzoom_find (sv : Server) {w x : Nat} (hne : x ≠ w) :
    windowFindById (windowUnzoom sv w) x = windowFindById sv x := by
  unfold windowUnzoom
  split
  · rfl
  · next win hw =>
      split
      · rw [layoutFixPanes_find, windowFindById_setWindow, if_neg]
        rw [windowFindById_id hw]
        exact hne
      · rfl

theorem windowUnzoom_windows {W : Nat → Prop} (sv : Server) {w : Nat} (hW : W w) :
    WindowsKept W sv (windowUnzoom sv w) := by
  have hfind : ∀ x, ¬ W x → windowFindById (windowUnzoom sv w) x = windowFindById sv x :=
    fun x hx => windowUnzoom_find sv (fun he => hx (he ▸ hW))
  exact ⟨fun x hx _ => hfind x hx, fun x win hx h => (hfind x hx) ▸ h⟩

theorem layoutInit_kept (sv : Server) (w wp : Nat) : SessionsKept sv (layoutInit sv w wp) := by
  unfold layoutInit
  split
  · exact .refl sv
  · exact (setWindow_kept sv _).trans (layoutFixPanes_kept _ w)

theorem layoutClosePane_kept (sv : Server) (wp : Nat) :
    SessionsKept sv (layoutClosePane sv wp) := by
  unfold layoutClosePane
  repeat' split
  all_goals first
    | exact .refl sv
    | exact (setWindow_kept sv _).trans (layoutFixPanes_kept _ _)

theorem windowSetActivePane_kept (sv : Server) (w wp : Nat) :
    SessionsKept sv (windowSetActivePane sv w wp) := by
  unfold windowSetActivePane
  split
  · exact .refl sv
  · split
    · exact .refl sv
    · simp only
      split
      · exact windowUnzoom_kept sv w
      · exact (windowUnzoom_kept sv w).trans (setWindow_kept _ _)

theorem newmuxSelectPaneIndex_kept (sv : Server) (w idx : Nat) :
    SessionsKept sv (newmuxSelectPaneIndex sv w idx) := by
  unfold newmuxSelectPaneIndex
  split
  · exact .refl sv
  · exact windowSetActivePane_kept sv w _

theorem layoutParse_kept (sv : Server) (w : Nat) (layout : List Char) :
    SessionsKept sv (layoutParse sv w layout).1 := by
  unfold layoutParse
  split
  · exact .refl sv
  · split
    · exact .refl sv
    · exact (setWindow_kept sv _).trans (layoutFixPanes_kept _ w)

/-- A change of the pane table alone. -/
theorem panes_kept (sv : Server) (panes : List Pane) : SessionsKept sv { sv with panes } :=
  ⟨rfl, rfl, rfl, rfl, le_rfl, rfl⟩

/-- A change of the window table alone. -/
theorem windows_kept (sv : Server) (windows : List Window) :
    SessionsKept sv { sv with windows } :=
  ⟨rfl, rfl, rfl, rfl, le_rfl, rfl⟩

theorem windowDestroy_kept (sv : Server) (w : Nat) : SessionsKept sv (windowDestroy sv w) := by
  unfold windowDestroy
  split <;> exact ⟨rfl, rfl, rfl, rfl, le_rfl, rfl⟩

theorem windowRemoveRef_kept (sv : Server) (w : Nat) :
    SessionsKept sv (windowRemoveRef sv w) := by
  unfold windowRemoveRef
  split
  · exact .refl sv
  · exact windowDestroy_kept sv w

theorem windowDestroy_find (sv : Server) (w x : Nat) :
    windowFindById (windowDestroy sv w) x = if x = w then none else windowFindById sv x := by
  unfold windowDestroy
  split
  · next h =>
      split
      · next he => rw [he, h]
      · rfl
  · exact Table.find_remove sv.windows w x

theorem windowRemoveRef_windows (W : Nat → Prop) (sv : Server) (w : Nat) :
    WindowsKept W sv (windowRemoveRef sv w) := by
  unfold windowRemoveRef
  split
  · exact .of_windows rfl
  · next hunlinked =>
      refine ⟨fun x _ hx => ?_, fun x win _ hx => ?_⟩
      · rw [(windowDestroy_kept sv w).linked] at hx
        rw [windowDestroy_find, if_neg]
        rintro rfl
        exact hunlinked hx
      · rw [windowDestroy_find] at hx
        split at hx
        · cases hx
        · exact hx

/-- Dropping the references of a list of winlinks. -/
theorem removeRefs_kept (wwl : Winlinks) (sv : Server) :
    SessionsKept sv (wwl.foldl (fun sv wl => windowRemoveRef sv wl.window) sv) := by
  induction wwl generalizing sv with
  | nil => exact .refl sv
  | cons wl wwl ih => exact (windowRemoveRef_kept sv wl.window).trans (ih _)

/-! ## Moving panes -/

theorem preserveHistories_kept (sv : Server) (panes : List Nat) :
    SessionsKept sv (preserveHistories sv panes) := panes_kept sv _

theorem unlistPane_kept (sv : Server) (w wp : Nat) : SessionsKept sv (unlistPane sv w wp) :=
  windows_kept sv _

theorem losePane_kept (sv : Server) (w : Nat) (panes : List Nat) (wp : Nat) :
    SessionsKept sv (losePane sv w panes wp) := by
  unfold losePane
  split
  · exact .refl sv
  · exact setWindow_kept sv _

theorem takePane_kept (sv : Server) (w wp : Nat) : SessionsKept sv (takePane sv w wp) :=
  ((unlistPane_kept sv w wp).trans (losePane_kept _ w _ wp)).trans (layoutClosePane_kept _ wp)

theorem housePane_kept (sv : Server) (wp sequence : Nat) :
    SessionsKept sv (housePane sv wp sequence).1 := by
  unfold housePane
  refine SessionsKept.trans ?_ (layoutInit_kept _ _ _)
  exact ⟨rfl, rfl, rfl, rfl, Nat.le_succ _, rfl⟩

theorem breakPane_kept (sv : Server) (w wp sequence : Nat) :
    SessionsKept sv (breakPane sv w wp sequence).1 :=
  (((windowUnzoom_kept sv w).trans (preserveHistories_kept _ _)).trans
    (takePane_kept _ w wp)).trans (housePane_kept _ wp sequence)

theorem takeParkedPane_kept (sv : Server) (panes : List Nat) (recoveryW wp : Nat) :
    SessionsKept sv (takeParkedPane sv panes recoveryW wp) :=
  ((layoutClosePane_kept sv wp).trans (losePane_kept _ _ _ wp)).trans (unlistPane_kept _ _ wp)

theorem insertPane_kept (sv : Server) (dstW wp idx : Nat) :
    SessionsKept sv (insertPane sv dstW wp idx) := by
  unfold insertPane
  simp only
  split
  · exact panes_kept sv _
  · exact ⟨rfl, rfl, rfl, rfl, le_rfl, rfl⟩

theorem movePaneBack_kept (sv : Server) (item : ClosedItem) (dstW recoveryW : Nat) :
    SessionsKept sv (movePaneBack sv item dstW recoveryW) :=
  (((windowUnzoom_kept sv dstW).trans (windowUnzoom_kept _ recoveryW)).trans
    (takeParkedPane_kept _ _ recoveryW _)).trans (insertPane_kept _ _ _ _)

theorem restoreIfShrunk_kept (sv : Server) (snapshots : List HistorySnapshot) :
    SessionsKept sv (newmuxHistorySnapshotsRestoreIfShrunk sv snapshots) := by
  induction snapshots generalizing sv with
  | nil => exact .refl sv
  | cons snapshot snapshots ih =>
      unfold newmuxHistorySnapshotsRestoreIfShrunk
      refine SessionsKept.trans ?_ (ih _)
      split
      · exact .refl sv
      · exact panes_kept sv _

theorem restoreIfShrunk_windows (sv : Server) (snapshots : List HistorySnapshot) :
    (newmuxHistorySnapshotsRestoreIfShrunk sv snapshots).windows = sv.windows := by
  induction snapshots generalizing sv with
  | nil => rfl
  | cons snapshot snapshots ih =>
      unfold newmuxHistorySnapshotsRestoreIfShrunk
      rw [ih]
      split <;> rfl

theorem protectPane_kept (sv : Server) (wp : Nat) :
    SessionsKept sv (newmuxProtectPaneHistoryOnNextClear sv wp) := panes_kept sv _

theorem protectPanes_kept (panes : List Nat) (sv : Server) :
    SessionsKept sv (panes.foldl newmuxProtectPaneHistoryOnNextClear sv) := by
  induction panes generalizing sv with
  | nil => exact .refl sv
  | cons wp panes ih => exact (protectPane_kept sv wp).trans (ih _)

theorem protectWindow_kept (sv : Server) (w : Nat) :
    SessionsKept sv (newmuxProtectWindowHistoryOnNextClear sv w) := by
  unfold newmuxProtectWindowHistoryOnNextClear
  split
  · exact .refl sv
  · exact protectPanes_kept _ sv

theorem protectWindow_windows (sv : Server) (w : Nat) :
    (newmuxProtectWindowHistoryOnNextClear sv w).windows = sv.windows := by
  have hpanes : ∀ (panes : List Nat) (sv : Server),
      (panes.foldl newmuxProtectPaneHistoryOnNextClear sv).windows = sv.windows := by
    intro panes
    induction panes with
    | nil => intro sv; rfl
    | cons wp panes ih => intro sv; exact ih _
  unfold newmuxProtectWindowHistoryOnNextClear
  split
  · rfl
  · exact hpanes _ sv

theorem paneOutput_kept (sv : Server) (wp : Nat) (content : PaneContent) :
    SessionsKept sv (paneOutput sv wp content) := panes_kept sv _

end Newmux.Logic
