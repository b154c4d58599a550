import Newmux.Logic.TabTrip
import Newmux.Theorems.ClosedItems

/-!
# A tab that is closed and reopened

From a state that looks like the one its close has left, a closed tab comes back to
the place it had, on the bar of every session of the group.
-/

namespace Newmux.Theorems

open Newmux.Base Newmux.Tmux Newmux.Recovery Newmux.Logic

/-! ## Closing it -/

theorem tab_closed {σ σ' : State} {item : ClosedItem} (h : Tidy σ) {s : Session} {wl : Winlink}
    {w : Window} (hdel : Deletable σ s wl w) (hlast : lastTab s wl = false)
    (hp : Parked σ σ' (newmuxBreakLiveWindow σ.server (newmuxItemFromWindow σ s wl w).1 s.id wl)
      item) :
    (BarMove.close wl.window).Step (barsOf σ.server) (barsOf σ'.server) ∧
      UnzoomedOnly σ.server σ'.server ∧ item.type = .window ∧ item.sessionId = s.id ∧
      item.windowId = wl.window ∧
      item.leftWindowId = neighbourId (winlinkPrevious s.windows wl.ptr) ∧
      item.rightWindowId = neighbourId (winlinkNext s.windows wl.ptr) := by
  have hparks := h.house.park.parks
  have hwid := windowFindById_id hdel.window
  have hitem := breakLiveWindow_same hp.broken
  have hunzoomed := breakLiveWindow_unzoomed hparks h.linked hdel.session hdel.name hlast
    (newmuxItemFromWindow σ s wl w).1
  rw [hp.broken] at hunzoomed
  refine ⟨(breakLiveWindow_moves hparks h.linked hdel.session hdel.name hdel.linked hlast
    hdel.window rfl hwid rfl).2 _ _ hp.broken, hunzoomed, ?_⟩
  rw [hitem]
  exact ⟨rfl, rfl, hwid, rfl, rfl⟩

/-! ## Reopening it -/

/-- **A tab comes back**: from a state that looks like the one its close has left. -/
theorem tab_reopened {σ σ' τ : State} {item : ClosedItem} (h : Tidy σ) (h' : Tidy σ')
    {s : Session} {wl : Winlink} {w : Window} (hdel : Deletable σ s wl w)
    (hlast : lastTab s wl = false)
    (hp : Parked σ σ' (newmuxBreakLiveWindow σ.server (newmuxItemFromWindow σ s wl w).1 s.id wl)
      item) (hτ : Tidy τ) (hundone : Undone σ' τ) {target : Option Nat} {print : Bool}
    (hroom : Reopens τ (.reopenLatestClosed target print)) :
    Undone σ (exec τ (.reopenLatestClosed target print)) ∧
      Tidy (exec τ (.reopenLatestClosed target print)) := by
  obtain ⟨hclose, hunzoomed, htype, hsession, hwindow, hleft, hright⟩ := tab_closed h hdel hlast hp
  have htrees := h.house.park.parks.ok.trees
  have htrees' := h'.house.park.parks.ok.trees
  have hparks := hτ.house.park.parks
  have htreesτ := hparks.ok.trees
  have hclosed : τ.closedStack = item :: σ.closedStack := hundone.closed.trans hp.closed
  rw [hclosed] at hparks
  -- every window of before is there, with its face
  have hlinked : ∀ x, σ.server.linked x = true → σ'.server.linked x = true := fun x hx =>
    (linked_bars htrees').mpr (((linked_bars htrees).mp hx).close hclose)
  have hface : ∀ x, σ.server.linked x = true →
      (windowFindById τ.server x).map face = (windowFindById σ.server x).map face := fun x hx =>
    (hundone.windows x (hlinked x hx)).trans (hunzoomed.face (hlinked x hx))
  have hthere : ∀ x, σ.server.linked x = true → ∃ v, windowFindById τ.server x = some v := by
    intro x hx
    obtain ⟨win, hwin, -⟩ := h.furnished x hx
    have := hface x hx
    rw [hwin, Option.map_some] at this
    obtain ⟨v, hv, -⟩ := Option.map_eq_some_iff.mp this
    exact ⟨v, hv⟩
  -- the session has the tabs that were left
  obtain ⟨A, B, hAB⟩ := List.append_of_mem hdel.linked
  have horder : Session.order s = A.map Winlink.window ++ wl.window :: B.map Winlink.window := by
    unfold Session.order
    rw [hAB, List.map_append, List.map_cons]
  have hbar : (barsOf σ.server).bar s.id =
      some (A.map Winlink.window ++ wl.window :: B.map Winlink.window) :=
    bar_some.mpr ⟨s, hdel.session, hdel.name, horder⟩
  have hbarsOk := barsOf_ok h.house.park.parks h.linked
  obtain ⟨s₁, hs₁, hs₁name, hs₁order⟩ :=
    bar_some.mp (hundone.bars.symm ▸ hbarsOk.closed_bar hbar hclose)
  have hs₁id : s₁.id = s.id := sessionFindById_id hs₁
  have htree₁ := htreesτ.tree _ s₁ hs₁
  -- the window is found, and its place
  have hself : σ.server.linked wl.window = true :=
    (linked_iff htrees.unique).mpr ⟨s.id, s, hdel.session, List.mem_map_of_mem hdel.linked⟩
  obtain ⟨v, hv⟩ := hthere wl.window hself
  obtain ⟨R, rwl, hfind⟩ := findLiveWindow_found hparks htype (hsession ▸ hs₁) target (hwindow ▸ hv)
  have hon : ∀ x ∈ Session.order s₁, σ.server.linked x = true := by
    intro x hx
    refine (linked_iff htrees.unique).mpr ⟨s.id, s, hdel.session, ?_⟩
    rw [horder]
    rw [hs₁order] at hx
    simp only [List.mem_append, List.mem_cons] at hx ⊢
    tauto
  obtain ⟨x, before, hplace, hx, hbelow⟩ := savedPlace_beside hAB
    (htrees.tree _ s hdel.session).ptrs hlast htree₁.sorted (hτ.linked.sessions.once _ s₁ hs₁)
    hs₁order (fun y hy => hthere y (hon y hy)) hleft hright
  obtain ⟨wl', wwl, hlink⟩ := beside_link_some htree₁.sorted hx before
    (fun y hy => hroom s₁ (Table.find_some_mem hs₁) y hy) τ.server.nextPtr v.id
  have hidx := beside_idx htree₁.sorted hlink
  rw [← hplace] at hlink
  obtain ⟨last, hmade⟩ := Place.link_spec htree₁.sorted hlink
  obtain ⟨A', B', hsplit, hlength, hinsert⟩ :=
    windowBack_moves hparks hτ.linked htype hfind hlink
  rw [hidx, hbelow] at hlength
  obtain ⟨rfl, rfl⟩ := List.append_inj (hsplit.symm.trans hs₁order)
    (hlength.trans (List.length_map _).symm)
  rw [windowFindById_id hv, hundone.bars] at hinsert
  have hres : newmuxRestoreClosedItem τ.server target item =
      (windowBack τ.server s₁ R rwl v wl' wwl, .ok ()) := by
    unfold newmuxRestoreClosedItem
    simp only [htype]
    exact restoreLiveWindow_back htreesτ hfind hlink
  obtain ⟨hserver, hstack, hreserved⟩ := reopen_ok hclosed hres print
  have hbars := hbarsOk.close_insert hbar hclose hinsert
  have htidy : Tidy (exec τ (.reopenLatestClosed target print)) :=
    hτ.reopen hclosed print fun hpane => by
      rw [htype] at hpane
      cases hpane
  have htrees'' := htidy.house.park.parks.ok.trees
  rw [hserver] at htrees''
  have hunzoomed' : UnzoomedOnly τ.server (windowBack τ.server s₁ R rwl v wl' wwl) :=
    windowBack_unzoomed htreesτ (hs₁id ▸ hs₁) hmade
  have hshown : ∀ y, (windowBack τ.server s₁ R rwl v wl' wwl).linked y = true ↔
      σ.server.linked y = true := fun y => by
    rw [linked_bars htrees'', linked_bars htrees, hbars]
  refine ⟨⟨?_, fun y hy => ?_, hstack, ?_⟩, htidy⟩
  · rw [hserver, hbars]
  · rw [hserver, ← hface y hy]
    exact hunzoomed'.face ((hshown y).mpr hy)
  · rw [hreserved, hundone.reserved, hp.reserved]

end Newmux.Theorems
