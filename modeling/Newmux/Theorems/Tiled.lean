import Newmux.Logic.LayoutUint
import Newmux.Logic.ParkedPanes
import Newmux.Theorems.Parked

/-!
# The panes tile their windows

In every run each window's layout tree tiles it. As long as every pane that is put
back finds a saved layout with room for it, the tree's cells are the window's panes,
one each, and a parked pane stays alone in its recovery window.
-/

namespace Newmux.Theorems

open Newmux.Base Newmux.Tmux Newmux.Recovery Newmux.Logic LayoutCell

/-- A server whose windows are laid out. -/
structure LaidServer (sv : Server) : Prop where
  trees : TreesOk sv
  laid : AllLaid [] sv

theorem stateLaid_inductive : (recoverySystem LaidServer).Inductive (fun _ _ => True)
    fun σ => TreesOk σ.server ∧ StateLaid σ where
  init := by
    rintro σ ⟨hfresh, hsv⟩
    refine ⟨hsv.trees, ?_⟩
    unfold StateLaid
    rw [heldItems_fresh hfresh]
    exact hsv.laid
  step := by
    rintro σ l _ ⟨hok, hlaid⟩ - ⟨hv, rfl⟩
    exact ⟨exec_treesOk hok hv, hlaid.exec hok hv⟩

/-- **Every layout tiles its window, whatever is closed and restored**: in every
run each tree of each window is consistent and covers the window exactly, and each
item that carries a layout carries the dump of a consistent tree of its window's
size. -/
theorem layouts_tile {σ : State} (hreach : (recoverySystem LaidServer).Reachable σ) :
    (∀ w win, windowFindById σ.server w = some win →
      ∀ lc, lc ∈ win.layoutRoot ∨ lc ∈ win.savedLayoutRoot →
        Consistent lc ∧ Tiles (leaves lc) win.sx win.sy) ∧
      ∀ item ∈ heldItems σ, ∀ text ∈ item.windowLayout,
        ∃ root, layoutDump root = some text ∧ ∀ lc ∈ root, Consistent lc ∧
          ∀ win, windowFindById σ.server item.windowId = some win → size lc = (win.sx, win.sy) := by
  obtain ⟨-, hlaid⟩ := stateLaid_inductive.invariant hreach
  refine ⟨fun w win hw lc hlc => ?_, fun item hitem => (hlaid.items item hitem).dump⟩
  have hwin := hlaid.windows w win hw
  rcases hlc with hlc | hlc
  · exact ⟨(hwin.root lc hlc).consistent, (hwin.root lc hlc).tiles⟩
  · exact ⟨(hwin.saved lc hlc).consistent, (hwin.saved lc hlc).tiles⟩

/-- **A saved layout is read as the source reads it**: the layout of a closed item whose
window is no larger than a `u_int` can tell is the same text to `layout_parse` with 32-bit
sizes and without a bound. -/
theorem saved_layout_read {σ : State} (hreach : (recoverySystem LaidServer).Reachable σ)
    {item : ClosedItem} (hitem : item ∈ heldItems σ) {text : List Char}
    (htext : text ∈ item.windowLayout) {win : Window}
    (hwin : windowFindById σ.server item.windowId = some win) (hsx : win.sx < 2 ^ 31)
    (hsy : win.sy < 2 ^ 31) (npanes : Nat) :
    layoutReadUint npanes text = layoutRead npanes text := by
  obtain ⟨-, hlaid⟩ := stateLaid_inductive.invariant hreach
  obtain ⟨root, hdump, hroot⟩ := (hlaid.items item hitem).dump text htext
  refine layoutReadUint_eq (noWrap_layoutDump hdump (fun lc hlc => ?_) npanes)
  obtain ⟨hcons, hsize⟩ := hroot lc hlc
  obtain ⟨hx, hy⟩ := Prod.mk.inj (hsize win hwin)
  exact ⟨hcons, hx ▸ hsx, hy ▸ hsy⟩

theorem splitServer_find {x : Nat} {win : Window} (h : windowFindById splitServer x = some win) :
    win = splitWindow ∧ x = 0 := by
  have hwin : win = splitWindow := List.mem_singleton.mp (Table.find_some_mem h)
  have hid := windowFindById_id h
  exact ⟨hwin, by rw [← hid, hwin]; rfl⟩

theorem splitWindow_laid : WindowLaid splitWindow := by
  refine ⟨fun lc hlc => ?_, fun lc hlc => absurd hlc (Option.not_mem_none lc), fun _ => rfl⟩
  obtain rfl := Option.mem_some.mp hlc
  exact ⟨by decide, rfl, rfl⟩

theorem splitServer_laid : LaidServer splitServer := by
  refine ⟨splitServer_treesOk, fun x win hx => ?_, fun x win hx => ?_, fun _ h =>
    absurd h List.not_mem_nil⟩
  · rw [(splitServer_find hx).1]
    exact splitWindow_laid
  · rw [(splitServer_find hx).2]
    exact Nat.one_pos

/-- Two panes of a split tab are closed, and come back in the other order. -/
def closeTwoPanes : List Event :=
  [.softDeletePane (splitPane 1), .softDeletePane (splitPane 2), .reserveLatestClosed false,
    .reopenLatestClosed none false, .claimReservedClosed (some "2") none false]

theorem layouts_tile_closeTwoPanes :
    (∀ w win, windowFindById (TSys.runFrom exec splitState closeTwoPanes).server w = some win →
      ∀ lc, lc ∈ win.layoutRoot ∨ lc ∈ win.savedLayoutRoot →
        Consistent lc ∧ Tiles (leaves lc) win.sx win.sy) ∧
      ∀ item ∈ heldItems (TSys.runFrom exec splitState closeTwoPanes),
        ∀ text ∈ item.windowLayout, ∃ root, layoutDump root = some text ∧ ∀ lc ∈ root,
          Consistent lc ∧ ∀ win, windowFindById
            (TSys.runFrom exec splitState closeTwoPanes).server item.windowId = some win →
              size lc = (win.sx, win.sy) :=
  layouts_tile (recovery_run (.init ⟨splitState_fresh, splitServer_laid⟩) (by decide +kernel))

/-! ## Panes and cells -/

/-- The item a step restores, and the destination the command names. -/
def restoredItem (σ : State) : Event → Option (Option Nat × ClosedItem)
  | .reopenLatestClosed target _ => σ.closedStack.head?.map (target, ·)
  | .claimReservedClosed value target _ => (reservedItem σ value).map (target, ·)
  | _ => none

/-- There is room on the closed stack, and a pane that is put back fits. -/
def RoomAndFit (σ : State) (l : Event) : Prop :=
  RoomToPark σ l ∧ ∀ r ∈ restoredItem σ l, PaneFits σ.server r.1 r.2

instance (σ : State) (l : Event) : Decidable (RoomAndFit σ l) :=
  inferInstanceAs (Decidable (RoomToPark σ l ∧ ∀ r ∈ restoredItem σ l, PaneFits σ.server r.1 r.2))

/-- Every pane has its cell, and every parked pane its recovery window. -/
structure HouseInv (σ : State) : Prop where
  park : ParkInv σ
  housed : Housed σ.server
  alone : ∀ item ∈ heldItems σ, Alone σ.server item

/-- A step that only takes panes away, and whose items were held before. -/
theorem HouseInv.taken {σ σ' : State} (h : HouseInv σ) (hpark : ParkInv σ')
    (hhoused : Housed σ'.server) (hfrom : PanesFrom σ.server σ'.server)
    (hheld : ∀ item ∈ heldItems σ', item ∈ heldItems σ) : HouseInv σ' := by
  refine ⟨hpark, hhoused, fun item hitem => ?_⟩
  exact (h.alone item (hheld item hitem)).untouched (hpark.parks.stored item hitem)
    fun panes hpanes => hfrom _ panes hpanes

theorem HouseInv.parkWindow {σ : State} (h : HouseInv σ) {s : Session} {wl : Winlink} {w : Window}
    (hpark : ParkInv (parked σ
      (newmuxBreakLiveWindow σ.server (newmuxItemFromWindow σ s wl w).1 s.id wl))) :
    HouseInv (parked σ
      (newmuxBreakLiveWindow σ.server (newmuxItemFromWindow σ s wl w).1 s.id wl)) := by
  have hhoused := housed_stable.breakLiveWindow (newmuxItemFromWindow σ s wl w).1 s.id wl h.housed
  have hfrom := (panesFrom_stable σ.server).breakLiveWindow (newmuxItemFromWindow σ s wl w).1 s.id wl
    fun _ _ h => h
  refine ⟨hpark, by rw [parked_server]; exact hhoused, fun item hitem => ?_⟩
  rcases heldItems_parked σ _ item hitem with hold | ⟨sv', hbroken⟩
  · refine (h.alone item hold).untouched (hpark.parks.stored item hitem) fun panes hpanes => ?_
    rw [parked_server] at hpanes
    exact hfrom _ panes hpanes
  · intro htype
    rw [breakLiveWindow_same hbroken] at htype
    cases htype

theorem HouseInv.parkPane {σ : State} (h : HouseInv σ) {s : Session} {wl : Winlink} {w : Window}
    (hdel : Deletable σ s wl w) {wp : Nat} (hwp : wp ∈ w.panes)
    (hpark : ParkInv (parked σ
      (newmuxBreakLivePane σ.server (newmuxItemFromPane σ s wl w wp).1 wl wp))) :
    HouseInv (parked σ
      (newmuxBreakLivePane σ.server (newmuxItemFromPane σ s wl w wp).1 wl wp)) := by
  obtain ⟨hold, hnew⟩ := breakLivePane_alone h.park.parks h.housed hdel.session hdel.name hdel.linked
    hdel.window hwp (newmuxItemFromPane σ s wl w wp).1
  have hhoused := h.housed.breakLivePane (newmuxItemFromPane σ s wl w wp).1 hdel.window hwp
  refine ⟨hpark, by rw [parked_server]; exact hhoused, fun item hitem => ?_⟩
  rcases heldItems_parked σ _ item hitem with hheld | ⟨sv', hbroken⟩
  · refine (h.alone item hheld).untouched (hpark.parks.stored item hitem) ?_
    rw [parked_server]
    exact hold item hheld
  · intro htype
    obtain ⟨panes, hpanes, -⟩ := (hpark.parks.stored item hitem).panes
    have hpane : item.paneId = wp := by
      rw [breakLivePane_same hbroken]
      rfl
    rw [hpanes]
    rw [parked_server] at hpanes
    rw [hnew item (by rw [hbroken]) panes hpanes, hpane]

/-- A restore, of an item that has been taken off the stacks. -/
theorem HouseInv.restored {σ σ₁ : State} (h : HouseInv σ) {item : ClosedItem}
    (hserver : σ₁.server = σ.server) (hheld : Held σ₁ item)
    (hsub : item :: heldItems σ₁ ⊆ heldItems σ) {target : Option Nat}
    (hfits : PaneFits σ.server target item) (print : Bool)
    (hpark : ParkInv (restoreOrPushBack σ₁ target item print).1) :
    HouseInv (restoreOrPushBack σ₁ target item print).1 := by
  obtain ⟨hhoused, hfail, hothers⟩ := restoreClosedItem_alone hheld.parks
    (hserver ▸ h.housed) (hserver ▸ h.alone item (hsub List.mem_cons_self)) (hserver ▸ hfits)
  refine ⟨hpark, by rw [restoreOrPushBack_server]; exact hhoused, fun x hx => ?_⟩
  have hst := hpark.parks.stored x hx
  rw [restoreOrPushBack_server] at hst ⊢
  rcases restoreOrPushBack_effect σ₁ target item print with ⟨sv', hres, hσ⟩ | ⟨sv', cause, hres, hσ⟩
  · rw [hσ] at hx
    have hx₁ : x ∈ heldItems σ₁ := hx
    exact Alone.untouched (hserver ▸ h.alone x (hsub (List.mem_cons_of_mem _ hx₁))) hst
      (hothers x hx₁)
  · -- a failed restore has changed nothing
    rw [hσ] at hx
    rw [hfail cause (by rw [hres]), hserver]
    exact h.alone x (hsub (heldItems_push { σ₁ with server := sv' } item hx))

/-- **Every step** with room and a fitting layout keeps panes and cells together. -/
theorem HouseInv.step {σ : State} (h : HouseInv σ) {l : Event} (hv : l.Valid σ.server)
    (hgood : RoomAndFit σ l) : HouseInv (exec σ l) := by
  have hpark := h.park.step hv hgood.1
  have hout := exec_outcome h.park.parks.ok.trees.unique hv
  generalize exec σ l = σ' at hout hpark ⊢
  cases hout with
  | idle => exact h
  | kill _ s wl w hdel hlast =>
      exact h.taken hpark (housed_stable.killWindow _ _ h.housed)
        ((panesFrom_stable _).killWindow _ _ fun _ _ h => h) fun _ hx => hx
  | parkWindow _ s wl w hdel hlast hparks hwindow => exact h.parkWindow hpark
  | parkPane _ s wl w wp hdel hwp hcount hparks => exact h.parkPane hdel hwp hpark
  | reserve print item σ₁ hpop =>
      have hserver : (newmuxReservedPush σ₁ item).server = σ.server := by
        rw [← pop_server hpop]
        rfl
      refine h.taken hpark (hserver.symm ▸ h.housed) (hserver.symm ▸ fun _ _ h => h) fun x hx => ?_
      refine heldItems_pop hpop ?_
      unfold heldItems newmuxReservedPush at hx
      simp only [List.mem_append, List.mem_singleton] at hx
      unfold heldItems
      simp only [List.mem_cons, List.mem_append]
      tauto
  | reopen target print item σ₁ hpop =>
      have hhead : (target, item) ∈ restoredItem σ (.reopenLatestClosed target print) := by
        simp [restoredItem, (pop_some hpop).1]
      exact h.restored (pop_server hpop) (h.park.pop hpop).1 (heldItems_pop hpop)
        (hgood.2 _ hhead) print hpark
  | claim value target print item n σ₁ hitem hpop =>
      have hhead : (target, item) ∈ restoredItem σ (.claimReservedClosed value target print) := by
        simp [restoredItem, hitem]
      exact h.restored (reservedPop_server hpop) (h.park.reservedPop hpop).1
        (heldItems_reservedPop hpop) (hgood.2 _ hhead) print hpark
  | release value print item n σ₁ hitem hpop =>
      have hserver : (newmuxStackPush σ₁ item).server = σ.server := by
        rw [push_server, reservedPop_server hpop]
      refine h.taken hpark (hserver.symm ▸ h.housed) (hserver.symm ▸ fun _ _ h => h) fun x hx => ?_
      exact heldItems_reservedPop hpop (heldItems_push σ₁ item hx)
  | clear =>
      exact h.taken hpark (housed_stable.recoveryClear h.housed)
        ((panesFrom_stable _).recoveryClear fun _ _ h => h) fun x hx => absurd hx List.not_mem_nil
  | output wp content =>
      exact h.taken hpark (housed_stable.output wp content h.housed)
        ((panesFrom_stable _).output wp content fun _ _ h => h) fun _ hx => hx

/-- A server with nothing parked and every pane in its cell. -/
structure HousedServer (sv : Server) : Prop where
  idle : NothingParked sv
  laid : AllLaid [] sv
  housed : Housed sv

theorem houseInv_inductive : (recoverySystem HousedServer).Inductive RoomAndFit
    fun σ => HouseInv σ ∧ StateLaid σ where
  init := by
    rintro σ ⟨hfresh, hsv⟩
    have hheld := heldItems_fresh hfresh
    refine ⟨⟨parkInv_inductive.init σ ⟨hfresh, hsv.idle⟩, hsv.housed, fun item hitem => ?_⟩, ?_⟩
    · rw [hheld] at hitem
      exact absurd hitem List.not_mem_nil
    · unfold StateLaid
      rw [hheld]
      exact hsv.laid
  step := by
    rintro σ l _ ⟨h, hlaid⟩ hgood ⟨hv, rfl⟩
    exact ⟨h.step hv hgood, hlaid.exec h.park.parks.ok.trees hv⟩

theorem splitServer_nothingParked : NothingParked splitServer := by
  refine ⟨splitServer_treesOk, fun id s w hs hw => ?_, fun _ ⟨_, hsg, _⟩ =>
    absurd hsg List.not_mem_nil, rfl⟩
  exact tabServer_created 1 id s w hs hw

theorem splitServer_housed : Housed splitServer := by
  refine ⟨fun x win p hx hp => ?_, fun x win hx => ?_, fun x win hx => ?_, fun x win hx => ?_,
    fun x win hx => ?_⟩ <;> obtain ⟨rfl, rfl⟩ := splitServer_find hx
  · revert p
    decide
  · decide
  · exact List.Perm.refl _
  · decide
  · decide

/-- Two panes of a split tab are closed, and come back. -/
def reopenTwoPanes : List Event :=
  [.softDeletePane (splitPane 1), .softDeletePane (splitPane 2), .reserveLatestClosed false,
    .releaseReservedClosed (some "2") false, .reopenLatestClosed none false,
    .reopenLatestClosed none false]

end Newmux.Theorems
