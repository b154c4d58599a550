import Newmux.Logic.Homes
import Newmux.Logic.ParkIn
import Newmux.Logic.ParkOut

/-!
# Parked panes

A parked pane is alone in its recovery window. Closing another pane, or restoring
another item, takes nothing from that window: what is moved is listed elsewhere.
-/

namespace Newmux.Logic

open Newmux.Base Newmux.Tmux Newmux.Recovery

/-- No window has other panes than before. -/
def PanesFrom (sv₀ sv : Server) : Prop :=
  ∀ x panes, panesOf sv x = some panes → panesOf sv₀ x = some panes

theorem PanesFrom.of_kept {sv sv' : Server} (h : PanesKept sv sv') : PanesFrom sv sv' :=
  fun x _ hx => (h x).symm.trans hx

theorem panesFrom_stable (sv₀ : Server) : Stable (PanesFrom sv₀) := by
  refine ⟨?_, ?_, ?_⟩
  · intro sv sv' hsame h x panes hx
    exact h x panes ((panesKept_of_windows hsame.windows x).symm.trans hx)
  · intro sv w h x panes hx
    refine h x panes ?_
    unfold panesOf at hx ⊢
    rw [windowDestroy_find] at hx
    split at hx
    · cases hx
    · exact hx
  · intro sv w h x panes hx
    exact h x panes ((windowUnzoom_panes sv w x).symm.trans hx)

/-- A parked pane's recovery window lists it and nothing else. -/
def Alone (sv : Server) (item : ClosedItem) : Prop :=
  item.type = .pane → panesOf sv item.recoveryWindowId = some [item.paneId]

/-- The recovery window of a parked item still lists what it listed. -/
def Untouched (sv sv' : Server) (item : ClosedItem) : Prop :=
  ∀ panes, panesOf sv' item.recoveryWindowId = some panes →
    panesOf sv item.recoveryWindowId = some panes

theorem Alone.untouched {sv sv' : Server} {item : ClosedItem} (h : Alone sv item)
    (hst : Stored sv' item) (hsame : Untouched sv sv' item) : Alone sv' item := by
  intro htype
  obtain ⟨panes, hpanes, -⟩ := hst.panes
  have hold := hsame panes hpanes
  rw [h htype] at hold
  rw [hpanes, hold]

/-- A pane listed by one window is not listed by another. -/
theorem Housed.notListed {sv : Server} (h : Housed sv) {x y p : Nat} {win : Window}
    (hx : windowFindById sv x = some win) (hp : p ∈ win.panes) (hne : y ≠ x) {panes : List Nat}
    (hy : panesOf sv y = some panes) : p ∉ panes := by
  intro hin
  obtain ⟨win', hw', rfl⟩ := panesOf_eq_some.mp hy
  exact hne (h.unique hw' hx hin hp)

/-- Taking a pane that it does not list leaves a list as it is. -/
theorem filter_notListed {panes : List Nat} {p : Nat} (h : p ∉ panes) :
    panes.filter (· != p) = panes := by
  rw [List.filter_eq_self]
  intro q hq
  have hne : q ≠ p := fun he => h (he ▸ hq)
  simpa using hne

/-! ## Closing a pane -/

theorem breakLivePane_window {sv sv' : Server} {item item' : ClosedItem} {wl : Winlink} {wp : Nat}
    (h : newmuxBreakLivePane sv item wl wp = (sv', .ok item')) :
    item'.recoveryWindowId =
      (breakPane (newmuxRecoverySessionGet sv).1 wl.window wp item.sequence).2 := by
  simp only [newmuxBreakLivePane] at h
  split at h
  · cases h
  · cases h
    rfl

theorem recoverySessionGet_same (sv : Server) : SameWindows sv (newmuxRecoverySessionGet sv).1 := by
  unfold newmuxRecoverySessionGet
  split <;> exact .of_panes rfl rfl rfl

/-- **Closing a pane** takes nothing from the parked windows, and the item's own
window lists the pane. -/
theorem breakLivePane_alone {sv : Server} {items : List ClosedItem} (hp : Parks sv items)
    (hh : Housed sv) {s : Session} (hs : sessionFindById sv s.id = some s)
    (hname : s.name ≠ newmuxRecoverySession) {wl : Winlink} (hwl : wl ∈ s.windows) {win : Window}
    (hw : windowFindById sv wl.window = some win) {wp : Nat} (hwp : wp ∈ win.panes)
    (item : ClosedItem) :
    (∀ x ∈ items, Untouched sv (newmuxBreakLivePane sv item wl wp).1 x) ∧
      ∀ item', (newmuxBreakLivePane sv item wl wp).2 = .ok item' → ∀ panes,
        panesOf (newmuxBreakLivePane sv item wl wp).1 item'.recoveryWindowId = some panes →
          panes = [wp] := by
  have hfrom : PanesFrom (breakPane (newmuxRecoverySessionGet sv).1 wl.window wp item.sequence).1
      (newmuxBreakLivePane sv item wl wp).1 :=
    (panesFrom_stable _).breakLivePane item wl wp fun _ _ h => h
  obtain ⟨hge, -, hnew, hold⟩ :=
    breakPane_panes (newmuxRecoverySessionGet sv).1 wl.window wp item.sequence
  have hget := recoverySessionGet_same sv
  refine ⟨fun x hx panes hpanes => ?_, fun item' hitem panes hpanes => ?_⟩
  · -- a parked window is not the new one, nor the one the pane is taken from
    obtain ⟨R, hR, -, hmem⟩ := hp.mem hx
    have hlt := hp.ok.created _ R _ hR.find hmem
    rw [← hget.next] at hlt
    have hkept := hfrom _ _ hpanes
    rw [hold _ (hlt.trans_le hge).ne, panesKept_of_windows hget.windows] at hkept
    obtain ⟨before, hbefore, rfl⟩ := Option.map_eq_some_iff.mp hkept
    have hne : x.recoveryWindowId ≠ wl.window := by
      intro he
      exact hp.separate R hR s.id s hs (hR.ne hs hname) _ hmem (he ▸ List.mem_map_of_mem hwl)
    rw [filter_notListed (hh.notListed hw hwp hne hbefore)]
    exact hbefore
  · have hwindow := breakLivePane_window (Prod.ext rfl hitem)
    rw [hwindow] at hpanes
    have hkept := hfrom _ _ hpanes
    rw [hnew] at hkept
    exact (Option.some.inj hkept).symm

/-! ## Restoring an item -/

/-- A pane that is put back has a saved layout, and it has room for the pane. -/
def PaneFits (sv : Server) (target : Option Nat) (item : ClosedItem) : Prop :=
  item.type = .pane → ∀ found ∈ (findLivePane sv target item).toOption,
    item.windowLayout.isSome = true ∧ layoutFits sv item found.2.1.window = true

instance (sv : Server) (target : Option Nat) (item : ClosedItem) :
    Decidable (PaneFits sv target item) :=
  inferInstanceAs (Decidable (item.type = .pane → ∀ found ∈ (findLivePane sv target item).toOption,
    item.windowLayout.isSome = true ∧ layoutFits sv item found.2.1.window = true))

/-- A pane does not go back into a parked window. -/
theorem Parks.destination_apart {sv : Server} {items : List ClosedItem} (hp : Parks sv items)
    {item : ClosedItem} (hi : item ∈ items) {target : Option Nat} {dstS : Session}
    {dstWl : Winlink} {recoveryW : Window}
    (h : findLivePane sv target item = .ok (dstS, dstWl, recoveryW)) :
    ∀ x ∈ items, dstWl.window ≠ x.recoveryWindowId := by
  intro x hx he
  obtain ⟨hdst, hwl, -⟩ := findLivePane_ok h
  have hname := (hp.stored item hi).destination hp.ok.trees hdst
  have hdstf := destination_find hp.ok.trees.unique hdst
  obtain ⟨R, hR, -, hmem⟩ := hp.mem hx
  exact hp.separate R hR _ dstS hdstf (hR.ne hdstf hname) _ hmem
    (he ▸ List.mem_map_of_mem (findByWindow_some hwl).1)

/-- **Restoring an item** whose layout fits takes nothing from the other parked
windows, and nothing at all if it fails. -/
theorem restoreClosedItem_alone {sv : Server} {item : ClosedItem} {items : List ClosedItem}
    (hp : Parks sv (item :: items)) (hh : Housed sv) (halone : Alone sv item) {target : Option Nat}
    (hfits : PaneFits sv target item) :
    Housed (newmuxRestoreClosedItem sv target item).1 ∧
      (∀ cause, (newmuxRestoreClosedItem sv target item).2 = .error cause →
        (newmuxRestoreClosedItem sv target item).1 = sv) ∧
      ∀ x ∈ items, Untouched sv (newmuxRestoreClosedItem sv target item).1 x := by
  unfold newmuxRestoreClosedItem
  cases htype : item.type with
  | pane =>
      have hout := restoreLivePane_outcome sv target item
      simp only
      generalize newmuxRestoreLivePane sv target item = r at hout ⊢
      cases hout with
      | missing => exact ⟨hh, fun _ _ => rfl, fun _ _ _ h => h⟩
      | misfit cause dstS dstWl recoveryW h hfit =>
          have hfound := (hfits htype _ (by rw [h]; rfl)).2
          rw [hfit] at hfound
          cases hfound
      | back dstS dstWl recoveryW h hfit =>
          obtain ⟨-, -, hdst, ⟨dstW, hdstW⟩, hrec, -, -⟩ := findLivePane_ok h
          have hrid : recoveryW.id = item.recoveryWindowId := windowFindById_id hrec
          have hapart := hp.destination_apart List.mem_cons_self h
          obtain ⟨text, htext⟩ := Option.isSome_iff_exists.mp (hfits htype _ (by rw [h]; rfl)).1
          have hhome : AtHome sv item dstWl.window recoveryW.id := by
            refine ⟨?_, ?_⟩
            · rw [hrid]
              exact halone htype
            · rw [hrid]
              exact hapart item List.mem_cons_self
          have hlaid := hh.laidBack hhome (hdst.symm ▸ hdstW) htext hfit
          refine ⟨housed_stable.finishPaneRestore item dstS.id dstWl recoveryW.id
            (hlaid.select dstWl.window item.activePaneIndex), fun _ h => (by cases h), ?_⟩
          intro x hx panes hpanes
          -- nothing else is taken from a window after the pane has moved
          have hfrom : PanesFrom (laidOut (movePaneBack sv item dstWl.window recoveryW.id)
              dstWl.window item.windowLayout) (paneBack sv item dstS dstWl recoveryW) :=
            (panesFrom_stable _).finishPaneRestore item dstS.id dstWl recoveryW.id
              (.of_kept (newmuxSelectPaneIndex_panes _ dstWl.window item.activePaneIndex))
          have hmoved := hfrom _ _ hpanes
          rw [laidOut_panes, movePaneBack_panes (hapart x (List.mem_cons_of_mem _ hx)).symm]
            at hmoved
          obtain ⟨before, hbefore, rfl⟩ := Option.map_eq_some_iff.mp hmoved
          obtain ⟨home, hhomeW, hhomePanes⟩ := panesOf_eq_some.mp (halone htype)
          have hin : item.paneId ∈ home.panes := hhomePanes ▸ List.mem_singleton_self _
          have hne : x.recoveryWindowId ≠ item.recoveryWindowId := by
            intro he
            have hnodup := hp.order.nodup_iff.mp hp.nodup
            rw [List.map_cons, List.nodup_cons] at hnodup
            exact hnodup.1 (he ▸ List.mem_map_of_mem hx)
          rw [filter_notListed (hh.notListed hhomeW hin hne hbefore)]
          exact hbefore
  | window =>
      have hout := restoreLiveWindow_outcome hp.ok.trees target item
      simp only
      generalize newmuxRestoreLiveWindow sv target item = r at hout ⊢
      cases hout with
      | missing => exact ⟨hh, fun _ _ => rfl, fun _ _ _ h => h⟩
      | noRoom => exact ⟨hh, fun _ _ => rfl, fun _ _ _ h => h⟩
      | back dstS recoveryS recoveryWl w wl wwl hfind hlink =>
          refine ⟨housed_stable.windowBack dstS recoveryS recoveryWl w wl wwl hh,
            fun _ h => (by cases h), fun x _ => ?_⟩
          exact (panesFrom_stable sv).windowBack dstS recoveryS recoveryWl w wl wwl
            (fun _ _ h => h) _
  | session => exact ⟨hh, fun _ _ => rfl, fun _ _ _ h => h⟩

end Newmux.Logic
