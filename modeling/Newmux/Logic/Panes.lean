import Newmux.Logic.Windows

/-!
# Pane lists

Which operations leave every window's pane list alone, and what moving a pane
between windows does to the lists.
-/

namespace Newmux.Logic

open Newmux.Base Newmux.Tmux Newmux.Recovery

/-- A window's pane list. -/
def panesOf (sv : Server) (w : Nat) : Option (List Nat) :=
  (windowFindById sv w).map Window.panes

theorem panesOf_eq_some {sv : Server} {w : Nat} {panes : List Nat} :
    panesOf sv w = some panes ↔ ∃ win, windowFindById sv w = some win ∧ win.panes = panes :=
  Option.map_eq_some_iff

/-- The same windows exist, with the same panes. -/
def PanesKept (sv sv' : Server) : Prop := ∀ w, panesOf sv' w = panesOf sv w

theorem PanesKept.refl (sv : Server) : PanesKept sv sv := fun _ => rfl

theorem PanesKept.trans {sv sv' sv'' : Server} (h : PanesKept sv sv') (h' : PanesKept sv' sv'') :
    PanesKept sv sv'' := fun w => (h' w).trans (h w)

/-- The window table is untouched. -/
theorem panesKept_of_windows {sv sv' : Server} (h : sv'.windows = sv.windows) :
    PanesKept sv sv' := by
  intro w
  simp only [panesOf, windowFindById, h]

/-- A window is written back with the panes it has. -/
theorem setWindow_panes {sv : Server} {win win' : Window}
    (hw : windowFindById sv win.id = some win) (hid : win'.id = win.id)
    (hp : win'.panes = win.panes) : PanesKept sv (sv.setWindow win') := by
  intro w
  unfold panesOf
  rw [windowFindById_setWindow, hid]
  by_cases h : w = win.id
  · subst h
    rw [if_pos rfl, hw]
    simp [hp]
  · rw [if_neg h]

theorem layoutFixPanes_panes (sv : Server) (w : Nat) : PanesKept sv (layoutFixPanes sv w) := by
  unfold layoutFixPanes
  split
  · exact .refl sv
  · exact panesKept_of_windows rfl

/-- A window is given another layout. -/
theorem relaid_panes {sv : Server} {win win' : Window}
    (hw : windowFindById sv win.id = some win) (hid : win'.id = win.id)
    (hp : win'.panes = win.panes) : PanesKept sv (layoutFixPanes (sv.setWindow win') win.id) :=
  (setWindow_panes hw hid hp).trans (layoutFixPanes_panes _ _)

theorem windowUnzoom_panes (sv : Server) (w : Nat) : PanesKept sv (windowUnzoom sv w) := by
  unfold windowUnzoom
  split
  · exact .refl sv
  · next win hw =>
      have hid := windowFindById_id hw
      subst hid
      split
      · refine relaid_panes hw ?_ ?_ <;> rfl
      · exact .refl sv

theorem layoutClosePane_panes (sv : Server) (wp : Nat) :
    PanesKept sv (layoutClosePane sv wp) := by
  unfold layoutClosePane
  split
  · exact .refl sv
  · split
    · exact .refl sv
    · next win hw =>
        have hid := windowFindById_id hw
        rw [← hid] at hw
        split
        · exact .refl sv
        · split
          · exact .refl sv
          · refine relaid_panes hw ?_ ?_ <;> rfl

theorem windowLostPane_panes (w : Window) (panes : List Nat) (wp : Nat) :
    (windowLostPane w panes wp).panes = w.panes ∧ (windowLostPane w panes wp).id = w.id := by
  unfold windowLostPane
  simp only
  split <;> exact ⟨rfl, rfl⟩

theorem losePane_panes (sv : Server) (w : Nat) (panes : List Nat) (wp : Nat) :
    PanesKept sv (losePane sv w panes wp) := by
  unfold losePane
  split
  · exact .refl sv
  · next win hw =>
      have hid := windowFindById_id hw
      subst hid
      obtain ⟨hp, hi⟩ := windowLostPane_panes win panes wp
      exact setWindow_panes hw hi hp

theorem windowSetActivePane_panes (sv : Server) (w wp : Nat) :
    PanesKept sv (windowSetActivePane sv w wp) := by
  unfold windowSetActivePane
  split
  · exact .refl sv
  · split
    · exact .refl sv
    · have hun := windowUnzoom_panes sv w
      simp only
      split
      · exact hun
      · next win hw =>
          have hid := windowFindById_id hw
          subst hid
          refine hun.trans (setWindow_panes hw ?_ ?_) <;> rfl

theorem newmuxSelectPaneIndex_panes (sv : Server) (w idx : Nat) :
    PanesKept sv (newmuxSelectPaneIndex sv w idx) := by
  unfold newmuxSelectPaneIndex
  split
  · exact .refl sv
  · exact windowSetActivePane_panes sv w _

theorem layoutParse_panes (sv : Server) (w : Nat) (layout : List Char) :
    PanesKept sv (layoutParse sv w layout).1 := by
  unfold layoutParse
  split
  · exact .refl sv
  · next win hw =>
      have hid := windowFindById_id hw
      subst hid
      split
      · exact .refl sv
      · refine relaid_panes hw ?_ ?_ <;> rfl

/-! ## Moving a pane -/

/-- Taken off whatever list it is on. -/
theorem unlistPane_record (sv : Server) (w wp x : Nat) :
    windowFindById (unlistPane sv w wp) x = (windowFindById sv x).map (unlistedWindow w wp) :=
  Table.find_map sv.windows x (f := unlistedWindow w wp) (fun _ => rfl)

theorem unlistPane_panes (sv : Server) (w wp x : Nat) :
    panesOf (unlistPane sv w wp) x = (panesOf sv x).map (fun panes => panes.filter (· != wp)) := by
  unfold panesOf
  rw [unlistPane_record]
  cases windowFindById sv x <;> rfl

theorem takeParkedPane_panes (sv : Server) (panes : List Nat) (recoveryW wp w : Nat) :
    panesOf (takeParkedPane sv panes recoveryW wp) w =
      (panesOf sv w).map (fun panes => panes.filter (· != wp)) := by
  simp only [takeParkedPane]
  rw [unlistPane_panes, losePane_panes, layoutClosePane_panes]

theorem takePane_panes (sv : Server) (w wp x : Nat) :
    panesOf (takePane sv w wp) x =
      (panesOf sv x).map (fun panes => panes.filter (· != wp)) := by
  simp only [takePane]
  rw [layoutClosePane_panes, losePane_panes, unlistPane_panes]

/-- The server with a pane's new window, before the window has a layout. -/
private def housed (sv : Server) (wp sequence : Nat) (sx sy : Nat) : Server :=
  { (windowCreate sv sx sy).1 with
    panes := Table.modify (windowCreate sv sx sy).1.panes wp
      (fun p => { p with window := sv.nextWindowId })
    windows := Table.modify (windowCreate sv sx sy).1.windows sv.nextWindowId fun win =>
      { win with panes := [wp], active := some wp, name := s!"newmux-recovery-{sequence}" } }

private theorem housed_panes (sv : Server) (wp sequence sx sy x : Nat) :
    panesOf (housed sv wp sequence sx sy) x =
      if x = sv.nextWindowId then some [wp] else panesOf sv x := by
  unfold panesOf windowFindById housed
  simp only
  rw [Table.find_modify]
  swap
  · exact fun _ h => h
  obtain ⟨win, hid, hwindows⟩ : ∃ win : Window, win.id = sv.nextWindowId ∧
      (windowCreate sv sx sy).1.windows = win :: sv.windows := ⟨_, rfl, rfl⟩
  have hkey : key win = sv.nextWindowId := hid
  rw [hwindows, Table.find_cons]
  by_cases hx : x = sv.nextWindowId
  · rw [if_pos hx, if_pos (hkey.trans hx.symm), if_pos hx]
    rfl
  · rw [if_neg hx, if_neg (fun he => hx (he.symm.trans hkey)), if_neg hx]

/-- A pane is housed in a new window of its own. -/
theorem housePane_panes (sv : Server) (wp sequence : Nat) :
    (housePane sv wp sequence).2 = sv.nextWindowId ∧
      sv.nextWindowId < (housePane sv wp sequence).1.nextWindowId ∧
      panesOf (housePane sv wp sequence).1 sv.nextWindowId = some [wp] ∧
      ∀ x, x ≠ sv.nextWindowId → panesOf (housePane sv wp sequence).1 x = panesOf sv x := by
  obtain ⟨sx, sy, hhoused⟩ : ∃ sx sy, (housePane sv wp sequence).1 =
      layoutInit (housed sv wp sequence sx sy) sv.nextWindowId wp := ⟨_, _, rfl⟩
  have hinit : PanesKept (housed sv wp sequence sx sy)
      (layoutInit (housed sv wp sequence sx sy) sv.nextWindowId wp) := by
    unfold layoutInit
    split
    · exact .refl _
    · next win hw =>
        have hid := windowFindById_id hw
        rw [← hid] at hw ⊢
        refine relaid_panes hw ?_ ?_ <;> rfl
  rw [hhoused]
  refine ⟨rfl, ?_, ?_, fun x hx => ?_⟩
  · have hnext : (housed sv wp sequence sx sy).nextWindowId = sv.nextWindowId + 1 := rfl
    have hle := (layoutInit_kept (housed sv wp sequence sx sy) sv.nextWindowId wp).nextWindowId
    omega
  · rw [hinit, housed_panes, if_pos rfl]
  · rw [hinit, housed_panes, if_neg hx]

/-- A broken pane is in a new window, and on no other list. -/
theorem breakPane_panes (sv : Server) (w wp sequence : Nat) :
    sv.nextWindowId ≤ (breakPane sv w wp sequence).2 ∧
      (breakPane sv w wp sequence).2 < (breakPane sv w wp sequence).1.nextWindowId ∧
      panesOf (breakPane sv w wp sequence).1 (breakPane sv w wp sequence).2 = some [wp] ∧
      ∀ x, x ≠ (breakPane sv w wp sequence).2 →
        panesOf (breakPane sv w wp sequence).1 x =
          (panesOf sv x).map (fun panes => panes.filter (· != wp)) := by
  unfold breakPane
  have hready : PanesKept sv (preserveHistories (windowUnzoom sv w) [wp]) :=
    (windowUnzoom_panes sv w).trans (panesKept_of_windows rfl)
  have hkept : SessionsKept sv (takePane (preserveHistories (windowUnzoom sv w) [wp]) w wp) :=
    ((windowUnzoom_kept sv w).trans (preserveHistories_kept _ _)).trans (takePane_kept _ w wp)
  obtain ⟨hid, hlt, hnew, hold⟩ :=
    housePane_panes (takePane (preserveHistories (windowUnzoom sv w) [wp]) w wp) wp sequence
  rw [hid]
  refine ⟨hkept.nextWindowId, hlt, hnew, fun x hx => ?_⟩
  rw [hold x hx, takePane_panes, hready]

theorem insertTail_fields (w : Window) (wp : Nat) :
    (insertTail w wp).id = w.id ∧ (insertTail w wp).layoutRoot = w.layoutRoot ∧
      (insertTail w wp).active = w.active ∧ (insertTail w wp).zoomed = w.zoomed := by
  unfold insertTail
  split
  · exact ⟨rfl, rfl, rfl, rfl⟩
  · split <;> exact ⟨rfl, rfl, rfl, rfl⟩

theorem insertPaneAtIndex_fields (win : Window) (wp idx : Nat) :
    (newmuxInsertPaneAtIndex win wp idx).id = win.id ∧
      (newmuxInsertPaneAtIndex win wp idx).layoutRoot = win.layoutRoot ∧
      (newmuxInsertPaneAtIndex win wp idx).active = win.active ∧
      (newmuxInsertPaneAtIndex win wp idx).zoomed = win.zoomed := by
  unfold newmuxInsertPaneAtIndex
  split
  · exact ⟨rfl, rfl, rfl, rfl⟩
  · exact insertTail_fields win wp

/-- With its tail pointer in place, the list takes the pane in somewhere. -/
theorem insertPaneAtIndex_perm {w : Window} (h : w.staleTail = none) (wp idx : Nat) :
    (newmuxInsertPaneAtIndex w wp idx).panes.Perm (wp :: w.panes) ∧
      (newmuxInsertPaneAtIndex w wp idx).staleTail = none := by
  unfold newmuxInsertPaneAtIndex
  split
  · next hat =>
      refine ⟨?_, h⟩
      unfold windowPaneAtIndex at hat
      split at hat
      · cases hat
      · have hlt := (List.getElem?_eq_some_iff.mp hat).1
        exact List.perm_insertIdx wp w.panes hlt.le
  · simp only [insertTail, h]
    exact ⟨List.perm_append_singleton wp w.panes, trivial⟩

theorem insertPane_panes {sv : Server} {dstW wp idx w : Nat} (hne : w ≠ dstW) :
    panesOf (insertPane sv dstW wp idx) w = panesOf sv w := by
  unfold insertPane
  simp only
  cases hw : windowFindById { sv with
      panes := Table.modify sv.panes wp (fun p => { p with window := dstW }) } dstW with
  | none => rfl
  | some win =>
      have hid := windowFindById_id hw
      simp only
      unfold panesOf
      rw [windowFindById_setWindow, (insertPaneAtIndex_fields win wp idx).1, hid, if_neg hne]
      rfl

/-- The restored pane is on no list but the destination's. -/
theorem movePaneBack_panes {sv : Server} {item : ClosedItem} {dstW recoveryW w : Nat}
    (hne : w ≠ dstW) : panesOf (movePaneBack sv item dstW recoveryW) w =
      (panesOf sv w).map (fun panes => panes.filter (· != item.paneId)) := by
  unfold movePaneBack
  rw [insertPane_panes hne, takeParkedPane_panes, windowUnzoom_panes, windowUnzoom_panes]

end Newmux.Logic
