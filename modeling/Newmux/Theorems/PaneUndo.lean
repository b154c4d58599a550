import Newmux.Theorems.ClosedItems

/-!
# A pane that is closed and reopened

From a state that looks like the one its close has left, a closed pane comes back to
its place in the window it was taken from, under the layout it had there.
-/

namespace Newmux.Theorems

open Newmux.Base Newmux.Tmux Newmux.Recovery Newmux.Logic

/-! ## Closing it -/

/-- What the close of a pane has done, and what its item says. -/
structure PaneClosed (σ σ' : State) (item : ClosedItem) (s w : Nat) (win : Window) (wp : Nat) :
    Prop where
  park : (BarMove.park item.recoveryWindowId).Step (barsOf σ.server) (barsOf σ'.server)
  windows : ∀ x, σ.server.linked x = true → windowFindById σ'.server x =
    if x = w then (windowFindById σ.server x).map (without wp) else windowFindById σ.server x
  type : item.type = .pane
  session : item.sessionId = s
  window : item.windowId = w
  pane : item.paneId = wp
  index : item.paneIndex = (windowPaneIndex win wp).getD 0
  layout : item.windowLayout = newmuxDumpWindowLayout win
  active : item.activePaneIndex =
    (win.active.bind (windowPaneIndex win)).getD ((windowPaneIndex win wp).getD 0)

theorem pane_closed {σ σ' : State} {item : ClosedItem} (h : Tidy σ) {s : Session} {wl : Winlink}
    {w : Window} (hdel : Deletable σ s wl w) {wp : Nat} (hwp : wp ∈ w.panes)
    (hp : Parked σ σ' (newmuxBreakLivePane σ.server (newmuxItemFromPane σ s wl w wp).1 wl wp) item) :
    PaneClosed σ σ' item s.id wl.window w wp := by
  have hparks := h.house.park.parks
  have hsame := breakLivePane_same hp.broken
  have hpark := (breakLivePane_moves hparks hdel.session hdel.name wl wp rfl rfl rfl).2 _ _ hp.broken
  have hwindows := (breakLivePane_windows hparks h.house.housed hdel.window hwp
    (newmuxItemFromPane σ s wl w wp).1).1
  rw [hp.broken] at hwindows
  have hwid := windowFindById_id hdel.window
  refine ⟨hpark, hwindows, ?_, ?_, ?_, ?_, ?_, ?_, ?_⟩ <;> rw [hsame]
  · rfl
  · rfl
  · exact hwid
  · rfl
  · rfl
  · rfl
  · rfl

/-- The windows of before are still linked, and none is the pane's new window. -/
theorem PaneClosed.kept {σ σ' : State} {item : ClosedItem} {s w : Nat} {win : Window} {wp : Nat}
    (hc : PaneClosed σ σ' item s w win wp) (h : Tidy σ) (h' : Tidy σ') {x : Nat}
    (hx : σ.server.linked x = true) :
    σ'.server.linked x = true ∧ x ≠ item.recoveryWindowId := by
  have hshown := (linked_bars h.house.park.parks.ok.trees).mp hx
  refine ⟨(linked_bars h'.house.park.parks.ok.trees).mpr (hshown.park hc.park), ?_⟩
  rintro rfl
  rcases hshown with ⟨j, l, hj, hl⟩ | hl
  · exact hc.park.1 j l hj hl
  · exact hc.park.2.1 hl

/-! ## Reopening it -/

/-- **A pane comes back**: into a state that looks like the one its close has left. -/
theorem pane_reopened {σ σ' τ : State} {item : ClosedItem} (h : Tidy σ) (h' : Tidy σ')
    {s : Session} {wl : Winlink} {w : Window} (hdel : Deletable σ s wl w) {wp : Nat}
    (hwp : wp ∈ w.panes)
    (hp : Parked σ σ' (newmuxBreakLivePane σ.server (newmuxItemFromPane σ s wl w wp).1 wl wp) item)
    (hlayout : item.windowLayout.isSome = true) (hτ : Tidy τ) (hundone : Undone σ' τ)
    (target : Option Nat) (print : Bool) :
    Undone σ (exec τ (.reopenLatestClosed target print)) ∧
      Tidy (exec τ (.reopenLatestClosed target print)) := by
  have hc := pane_closed h hdel hwp hp
  have htrees := h.house.park.parks.ok.trees
  have htrees' := h'.house.park.parks.ok.trees
  have hparks := hτ.house.park.parks
  have htreesτ := hparks.ok.trees
  have hclosed : τ.closedStack = item :: σ.closedStack := hundone.closed.trans hp.closed
  rw [hclosed] at hparks
  have hwid : w.id = wl.window := windowFindById_id hdel.window
  obtain ⟨text, htext⟩ := Option.isSome_iff_exists.mp hlayout
  -- the window it is put back into
  have hnodup := h.house.housed.nodup wl.window w hdel.window
  have hin : wl.window ∈ Session.order s := List.mem_map_of_mem hdel.linked
  have hself : σ.server.linked wl.window = true :=
    (linked_iff htrees.unique).mpr ⟨s.id, s, hdel.session, hin⟩
  have hordered : Ordered w := by
    obtain ⟨win, hwin, hordered⟩ := h.furnished wl.window hself
    rw [hdel.window] at hwin
    exact Option.some.inj hwin ▸ hordered
  obtain ⟨v, hv, hvface⟩ : ∃ v, windowFindById τ.server wl.window = some v ∧
      face v = face (without wp w) := by
    refine hundone.window (hc.kept h h' hself).1 ?_
    rw [hc.windows _ hself, if_pos rfl, hdel.window, Option.map_some]
  -- what is found
  obtain ⟨s₁, hs₁, -, hs₁order⟩ : ∃ s₁, sessionFindById τ.server s.id = some s₁ ∧
      s₁.name ≠ newmuxRecoverySession ∧ Session.order s₁ = Session.order s := by
    refine bar_some.mp ?_
    rw [hundone.bars, hc.park.2.2.1]
    exact bar_some.mpr ⟨s, hdel.session, hdel.name, rfl⟩
  have halone : Alone τ.server item := hτ.house.alone item (by simp [heldItems, hclosed])
  obtain ⟨dstWl, recoveryW, src, hfind, hdstW, hrid, hsrc, hsrcW⟩ :=
    findLivePane_found hparks hτ.house.housed halone hc.type (hc.session ▸ hs₁) target
      (hc.window ▸ hv) (by rw [hc.window, hs₁order]; exact hin)
  -- the trip of the window
  have htail := h.house.housed.tail wl.window w hdel.window
  obtain ⟨hpanes, lc, asked, hread, hback⟩ := pane_trip hordered hnodup htail
    (h.laid.windows _ _ hdel.window) hwp (hc.layout ▸ htext) hvface
    (hwid ▸ (hc.kept h h' hself).2) (paneList τ.server item.paneId) hc.pane hc.index
    (hc.active ▸ activeIndex_at hordered hnodup _)
  have hdst : dstWl.window = w.id := hdstW.trans (hc.window.trans hwid.symm)
  have hfit : layoutFits τ.server item dstWl.window = true := by
    rw [hdst]
    exact layoutFits_trip hnodup htail hwp hvface (hwid ▸ hv) hc.pane htext hread
  have htake := paneBack_moves hparks hc.type hfind hfit
  rw [hundone.bars] at htake
  have hres : newmuxRestoreClosedItem τ.server target item =
      (paneBack τ.server item s₁ dstWl recoveryW, .ok ()) := by
    unfold newmuxRestoreClosedItem
    simp only [hc.type]
    exact restoreLivePane_back hfind hfit
  obtain ⟨hserver, hstack, hreserved⟩ := reopen_ok hclosed hres print
  have hbars := Bars.park_take hc.park htake
  have htidy : Tidy (exec τ (.reopenLatestClosed target print)) := by
    refine hτ.reopen hclosed print fun _ found hfound => ?_
    rw [hfind] at hfound
    obtain rfl := Option.some.inj hfound
    exact ⟨hlayout, hfit⟩
  have htrees'' := htidy.house.park.parks.ok.trees
  rw [hserver] at htrees''
  refine ⟨⟨?_, fun y hy => ?_, hstack, ?_⟩, htidy⟩
  · rw [hserver, hbars]
  · -- the windows of before, one by one
    obtain ⟨hlinked, hapart⟩ := hc.kept h h' hy
    have hstays : (paneBack τ.server item s₁ dstWl recoveryW).linked y = true :=
      (linked_bars htrees'').mpr (hbars ▸ (linked_bars htrees).mp hy)
    have hread' : layoutRead (movedBack (paneList τ.server item.paneId) item src.window
        dstWl.window recoveryW.id v).panes.length text = .ok (lc, asked) := by
      rw [hsrcW, hdst, hrid, hpanes]
      exact hread
    rw [hserver, paneBack_record htreesτ hsrc (hdst.trans hwid ▸ hv) htext hread' hstays
      (hrid ▸ hapart), hsrcW, hdst, hrid, hwid]
    by_cases hyw : y = wl.window
    · rw [hyw, hv, hdel.window, Option.map_some, if_pos rfl, Option.map_some, Option.map_some, ← hwid,
        hback]
    · obtain ⟨win, hwin, -⟩ := h.furnished y hy
      have hsame : windowFindById σ'.server y = some win := by
        rw [hc.windows y hy, if_neg hyw, hwin]
      obtain ⟨v', hv', hface⟩ := hundone.window hlinked hsame
      have hid := windowFindById_id hv'
      have hnot : item.paneId ∉ v'.panes := by
        rw [← face_panes v', hface, face_panes, hc.pane]
        exact h.house.housed.notListed hdel.window hwp hyw (by rw [panesOf, hwin, Option.map_some])
      rw [hv', hwin, Option.map_some, if_neg hyw, Option.map_some, Option.map_some,
        movedBack_elsewhere (hid ▸ hapart) (hid ▸ hyw) (hid ▸ hapart) hnot, hface]
  · rw [hreserved, hundone.reserved, hp.reserved]

end Newmux.Theorems
