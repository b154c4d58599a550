import Newmux.Theorems.Furnished

/-!
# Closed items

The closes that put something on the closed stack, and the reopens that take it off:
what each of them has done to the state, and when a state looks like another.
-/

namespace Newmux.Theorems

open Newmux.Base Newmux.Tmux Newmux.Recovery Newmux.Logic

/-- A close that puts something on the closed stack; of a pane, its layout too. -/
def Closes (σ : State) (l : Event) : Prop :=
  l.Valid σ.server ∧ parks σ l = true ∧
    (exec σ l).closedStack.length = σ.closedStack.length + 1 ∧
    ∀ item ∈ (exec σ l).closedStack.head?, item.type = .pane → item.windowLayout.isSome = true

instance (σ : State) (l : Event) : Decidable (Closes σ l) :=
  inferInstanceAs (Decidable (_ ∧ parks σ l = true ∧ _ ∧
    ∀ item ∈ (exec σ l).closedStack.head?, item.type = .pane → item.windowLayout.isSome = true))

/-- A reopen while no index comes near `INT_MAX`. -/
def Reopens (σ : State) : Event → Prop
  | .reopenLatestClosed _ _ => ∀ s ∈ σ.server.sessions, ∀ x ∈ s.windows, x.idx + 1 < intMax
  | _ => False

instance (σ : State) : (l : Event) → Decidable (Reopens σ l)
  | .reopenLatestClosed _ _ =>
      inferInstanceAs (Decidable (∀ s ∈ σ.server.sessions, ∀ x ∈ s.windows, x.idx + 1 < intMax))
  | .softDeletePane _ => .isFalse id
  | .softDeleteWindow _ => .isFalse id
  | .deleteWindow _ _ _ => .isFalse id
  | .reserveLatestClosed _ => .isFalse id
  | .claimReservedClosed _ _ _ => .isFalse id
  | .releaseReservedClosed _ _ => .isFalse id
  | .clearRecentlyClosed => .isFalse id
  | .output _ _ => .isFalse id

/-- The state `τ` looks like `σ`. -/
structure Undone (σ τ : State) : Prop where
  bars : barsOf τ.server = barsOf σ.server
  windows : ∀ w, σ.server.linked w = true →
    (windowFindById τ.server w).map face = (windowFindById σ.server w).map face
  closed : τ.closedStack = σ.closedStack
  reserved : τ.reservedStack = σ.reservedStack

theorem Undone.refl (σ : State) : Undone σ σ := ⟨rfl, fun _ _ => rfl, rfl, rfl⟩

theorem Undone.linked {σ τ : State} (h : Undone σ τ) (hσ : TreesOk σ.server)
    (hτ : TreesOk τ.server) (w : Nat) : τ.server.linked w = σ.server.linked w := by
  rw [Bool.eq_iff_iff, linked_bars hτ, linked_bars hσ, h.bars]

/-- A state that looks like one whose windows are there has them too. -/
theorem Undone.window {σ τ : State} (h : Undone σ τ) {w : Nat} (hw : σ.server.linked w = true)
    {win : Window} (hwin : windowFindById σ.server w = some win) :
    ∃ v, windowFindById τ.server w = some v ∧ face v = face win := by
  have hface := h.windows w hw
  rw [hwin, Option.map_some] at hface
  exact Option.map_eq_some_iff.mp hface

/-! ## Closing -/

/-- What a close that puts an item on the stack has done. -/
structure Parked (σ σ' : State) (broken : Server × Except String ClosedItem)
    (item : ClosedItem) : Prop where
  broken : broken = (σ'.server, .ok item)
  closed : σ'.closedStack = item :: σ.closedStack
  reserved : σ'.reservedStack = σ.reservedStack
  room : σ.closedCount < newmuxRecoveryMaxItems

theorem parked_grows {σ : State} (h : StackOk σ) {broken : Server × Except String ClosedItem}
    (hlen : (parked σ broken).closedStack.length = σ.closedStack.length + 1) :
    ∃ item, Parked σ (parked σ broken) broken item := by
  obtain ⟨sv, cause | item⟩ := broken
  · exact absurd hlen (by simp [parked, pushBroken])
  · have hstack : StackOk { σ with server := sv, closedNextSequence := nextSequence σ } :=
      ⟨h.count, h.bound⟩
    have hpush := (push_closedStack hstack item).1
    have htake : (parked σ (sv, .ok item)).closedStack =
        (item :: σ.closedStack).take newmuxRecoveryMaxItems := hpush
    rw [htake, List.length_take, List.length_cons] at hlen
    refine ⟨item, rfl, ?_, rfl, ?_⟩
    · rw [htake, List.take_of_length_le]
      rw [List.length_cons]
      omega
    · rw [h.count]
      omega

/-- A tab or a pane is closed. -/
inductive Closed (σ σ' : State) (item : ClosedItem) : Prop
  | tab (s : Session) (wl : Winlink) (w : Window) (h : Deletable σ s wl w)
      (hlast : lastTab s wl = false)
      (hp : Parked σ σ' (newmuxBreakLiveWindow σ.server (newmuxItemFromWindow σ s wl w).1 s.id wl)
        item)
  | pane (s : Session) (wl : Winlink) (w : Window) (wp : Nat) (h : Deletable σ s wl w)
      (hwp : wp ∈ w.panes) (hcount : windowCountPanes w ≠ 1)
      (hp : Parked σ σ' (newmuxBreakLivePane σ.server (newmuxItemFromPane σ s wl w wp).1 wl wp)
        item)
      (hlayout : item.windowLayout.isSome = true)

theorem closes_closed {σ : State} (h : Tidy σ) {l : Event} (hc : Closes σ l) :
    ∃ item, Closed σ (exec σ l) item ∧ (exec σ l).closedStack = item :: σ.closedStack ∧
      (exec σ l).reservedStack = σ.reservedStack := by
  obtain ⟨hv, hparks, hlen, hlayout⟩ := hc
  have hstack := h.house.park.stack
  have hout := exec_outcome h.house.park.parks.ok.trees.unique hv
  generalize exec σ l = σ' at hout hlen hlayout ⊢
  cases hout with
  | idle _ hidle => simp [hidle] at hparks
  | kill _ s wl w hdel hlast hidle => simp [hidle] at hparks
  | parkWindow _ s wl w hdel hlast =>
      obtain ⟨item, hp⟩ := parked_grows hstack hlen
      exact ⟨item, .tab s wl w hdel hlast hp, hp.closed, hp.reserved⟩
  | parkPane _ s wl w wp hdel hwp hcount =>
      obtain ⟨item, hp⟩ := parked_grows hstack hlen
      refine ⟨item, .pane s wl w wp hdel hwp hcount hp (hlayout item ?_ ?_), hp.closed, hp.reserved⟩
      · rw [hp.closed]
        rfl
      · rw [breakLivePane_same hp.broken]
        rfl
  | reserve => cases hparks
  | reopen => cases hparks
  | claim => cases hparks
  | release => cases hparks
  | clear => cases hparks
  | output => cases hparks

theorem Closes.tidy {σ : State} (h : Tidy σ) {l : Event} (hc : Closes σ l) :
    Tidy (exec σ l) := by
  obtain ⟨item, hclosed, -⟩ := closes_closed h hc
  have hroom : σ.closedCount < newmuxRecoveryMaxItems := by
    cases hclosed with
    | tab s wl w hdel hlast hp => exact hp.room
    | pane s wl w wp hdel hwp hcount hp => exact hp.room
  refine h.step hc.1 ⟨⟨fun _ => hroom, fun _ w _ => h.linked.ownWindow w⟩, fun r hr => ?_⟩
  have hparks := hc.2.1
  cases l with
  | reopenLatestClosed target print => cases hparks
  | claimReservedClosed value target print => cases hparks
  | _ => exact absurd hr (Option.not_mem_none r)

/-! ## Reopening -/

/-- A reopen of the item at the head that succeeds. -/
theorem reopen_ok {τ : State} {item : ClosedItem} {rest : List ClosedItem}
    (hclosed : τ.closedStack = item :: rest) {target : Option Nat} {sv' : Server}
    (hres : newmuxRestoreClosedItem τ.server target item = (sv', .ok ())) (print : Bool) :
    (exec τ (.reopenLatestClosed target print)).server = sv' ∧
      (exec τ (.reopenLatestClosed target print)).closedStack = rest ∧
      (exec τ (.reopenLatestClosed target print)).reservedStack = τ.reservedStack := by
  have hexec : exec τ (.reopenLatestClosed target print) =
      (restoreOrPushBack { τ with closedStack := rest, closedCount := τ.closedCount - 1 } target item
        print).1 := by
    show (cmdNewmuxReopenLatestClosedExec τ target print).1 = _
    unfold cmdNewmuxReopenLatestClosedExec newmuxStackPop
    rw [hclosed]
  rw [hexec]
  rcases restoreOrPushBack_effect { τ with closedStack := rest, closedCount := τ.closedCount - 1 }
    target item print with ⟨server, hok, heq⟩ | ⟨server, cause, herr, -⟩
  · have hserver : newmuxRestoreClosedItem τ.server target item = (server, .ok ()) := hok
    rw [hres] at hserver
    rw [heq, (Prod.mk.inj hserver).1]
    exact ⟨rfl, rfl, rfl⟩
  · have hserver : newmuxRestoreClosedItem τ.server target item = (server, .error cause) := herr
    rw [hres] at hserver
    cases (Prod.mk.inj hserver).2

theorem Tidy.reopen {τ : State} (h : Tidy τ) {item : ClosedItem} {rest : List ClosedItem}
    (hclosed : τ.closedStack = item :: rest) {target : Option Nat} (print : Bool)
    (hfits : PaneFits τ.server target item) :
    Tidy (exec τ (.reopenLatestClosed target print)) := by
  refine h.step trivial ⟨⟨fun hroom => ?_, fun hparks => ?_⟩, fun r hr => ?_⟩
  · rcases hroom with hparks | hback
    · cases hparks
    · cases hback
  · cases hparks
  · simp only [restoredItem, hclosed, List.head?_cons, Option.map_some, Option.mem_def,
      Option.some.injEq] at hr
    rw [← hr]
    exact hfits

end Newmux.Theorems
