import Newmux.Logic.ParkIn
import Newmux.Logic.ParkOut
import Newmux.Logic.Tabs

/-!
# No parked window is lost

The windows of the recovery session are those of the closed and the reserved
items, one each, as long as the closed stack never holds more than its limit.
The item that a full stack evicts is freed, and its window stays parked with no
item left that could restore it.
-/

namespace Newmux.Theorems

open Newmux.Base Newmux.Tmux Newmux.Recovery Newmux.Logic

/-- The recovery session links exactly the windows of the closed and reserved
items, each once, and they are alive. -/
structure ParkedExactly (σ : State) : Prop where
  items : (recoveryOrder σ.server).Perm
    ((σ.closedStack ++ σ.reservedStack).map ClosedItem.recoveryWindowId)
  once : (recoveryOrder σ.server).Nodup
  alive : ∀ w ∈ recoveryOrder σ.server, ∃ win, windowFindById σ.server w = some win

/-- A server on which nothing is parked. -/
structure NothingParked (sv : Server) : Prop where
  trees : TreesOk sv
  created : Created sv
  groupIds : ∀ j, Grouped sv j → j < sv.nextSessionId
  noRecovery : sessionFind sv newmuxRecoverySession = none

/-- A step that puts an item on the closed stack finds room there, and a tab it
closes is linked once, by one session group. -/
def RoomToPark (σ : State) (l : Event) : Prop :=
  (parks σ l = true ∨ (putsBack σ l).isSome = true → σ.closedCount < newmuxRecoveryMaxItems) ∧
    (parks σ l = true → ∀ w ∈ deletedWindow l, OwnWindow σ.server w)

instance (σ : State) (l : Event) : Decidable (RoomToPark σ l) :=
  inferInstanceAs (Decidable ((_ → σ.closedCount < newmuxRecoveryMaxItems) ∧
    (parks σ l = true → ∀ w ∈ deletedWindow l, OwnWindow σ.server w)))

/-- What carries the windows along a run. -/
structure ParkInv (σ : State) : Prop where
  stack : StackOk σ
  parks : Parks σ.server (σ.closedStack ++ σ.reservedStack)

theorem ParkInv.parkedExactly {σ : State} (h : ParkInv σ) : ParkedExactly σ := by
  refine ⟨h.parks.order, h.parks.nodup, fun w hw => ?_⟩
  obtain ⟨item, hi, rfl⟩ := List.mem_map.mp (h.parks.order.mem_iff.mp hw)
  obtain ⟨panes, hp, -⟩ := (h.parks.stored item hi).panes
  obtain ⟨win, hwin, -⟩ := panesOf_eq_some.mp hp
  exact ⟨win, hwin⟩

/-! ## The steps -/

/-- Parking pushes the new item, below the limit. -/
theorem ParkInv.parked {σ : State} (h : ParkInv σ) (hroom : σ.closedCount < newmuxRecoveryMaxItems)
    {broken : Server × Except String ClosedItem}
    (hb : Broken (σ.closedStack ++ σ.reservedStack) broken) : ParkInv (parked σ broken) := by
  cases hb with
  | error sv cause hp => exact ⟨⟨h.stack.count, h.stack.bound⟩, hp⟩
  | ok sv item hp =>
      let σ' : State := { σ with server := sv, closedNextSequence := nextSequence σ }
      have hstack : StackOk σ' := ⟨h.stack.count, h.stack.bound⟩
      have hclosed := push_closedStack_of_lt hstack item hroom
      refine ⟨hstack.push item, ?_⟩
      change Parks sv ((newmuxStackPush σ' item).closedStack ++ σ.reservedStack)
      rw [hclosed]
      exact hp

/-- An item that is off the stacks, and whose window is still parked. -/
structure Held (σ : State) (item : ClosedItem) : Prop where
  stack : StackOk σ
  parks : Parks σ.server (item :: (σ.closedStack ++ σ.reservedStack))

theorem ParkInv.pop {σ σ₁ : State} {item : ClosedItem} (h : ParkInv σ)
    (hpop : newmuxStackPop σ = some (item, σ₁)) :
    Held σ₁ item ∧ σ₁.closedCount < newmuxRecoveryMaxItems := by
  obtain ⟨hstack, hσ₁⟩ := pop_some hpop
  have hreserved : σ₁.reservedStack = σ.reservedStack := by rw [hσ₁]
  refine ⟨⟨h.stack.pop hpop, ?_⟩, ?_⟩
  · have hp := h.parks
    rw [hstack, ← hreserved] at hp
    rw [pop_server hpop]
    exact hp
  · have hcount := (h.stack.pop hpop).count
    have hbound := h.stack.bound
    rw [hstack, List.length_cons] at hbound
    omega

theorem ParkInv.reservedPop {σ σ₁ : State} {n : Nat} {item : ClosedItem} (h : ParkInv σ)
    (hpop : newmuxReservedPopBySequence σ n = some (item, σ₁)) :
    Held σ₁ item ∧ σ₁.closedCount = σ.closedCount := by
  obtain ⟨-, hperm, hσ₁⟩ := reservedPop_some hpop
  have hclosed : σ₁.closedStack = σ.closedStack := by rw [hσ₁]
  have hcount : σ₁.closedCount = σ.closedCount := by rw [hσ₁]
  refine ⟨⟨⟨?_, ?_⟩, ?_⟩, hcount⟩
  · rw [hcount, hclosed]
    exact h.stack.count
  · rw [hclosed]
    exact h.stack.bound
  · rw [reservedPop_server hpop, hclosed]
    exact h.parks.perm ((hperm.append_left _).trans List.perm_middle)

/-- A held item goes back onto the closed stack, below the limit. -/
theorem Held.push {σ : State} {item : ClosedItem} (h : Held σ item)
    (hroom : σ.closedCount < newmuxRecoveryMaxItems) : ParkInv (newmuxStackPush σ item) := by
  refine ⟨h.stack.push item, ?_⟩
  rw [push_closedStack_of_lt h.stack item hroom]
  exact h.parks

/-- A held item is restored or goes back onto the closed stack. -/
theorem Held.restoreOrPushBack {σ : State} {item : ClosedItem} (h : Held σ item)
    (target : Option Nat) (print : Bool)
    (hroom : restorable σ.server target item = false →
      σ.closedCount < newmuxRecoveryMaxItems) :
    ParkInv (restoreOrPushBack σ target item print).1 := by
  have htried := restoreClosedItem_tried h.parks target
  rcases restoreOrPushBack_effect σ target item print with
    ⟨server, hres, heq⟩ | ⟨server, cause, hres, heq⟩ <;> rw [hres] at htried <;> rw [heq]
  · cases htried with
    | ok _ hp => exact ⟨⟨h.stack.count, h.stack.bound⟩, hp⟩
  · have hfail : restorable σ.server target item = false := by
      have hiff := restoreClosedItem_ok_iff h.parks.ok.trees target item
      rw [hres] at hiff
      simpa using hiff
    cases htried with
    | error _ _ hp =>
        have hheld : Held { σ with server } item := ⟨⟨h.stack.count, h.stack.bound⟩, hp⟩
        exact hheld.push (hroom hfail)

/-- Clearing destroys the recovery session with its windows. -/
theorem ParkInv.clear {σ : State} (h : ParkInv σ) : ParkInv (newmuxRecoveryClear σ) := by
  have hempty : ∀ sv, Parks sv [] → ParkInv (newmuxStackClear { σ with server := sv }) :=
    fun sv hp => ⟨⟨rfl, Nat.zero_le _⟩, hp⟩
  unfold newmuxRecoveryClear
  cases hf : sessionFind σ.server newmuxRecoverySession with
  | none =>
      refine hempty σ.server ⟨h.parks.ok, h.parks.separate, ?_, fun _ hi =>
        absurd hi List.not_mem_nil⟩
      rw [recoveryOrder, hf]
      exact List.Perm.refl _
  | some R =>
      obtain ⟨hRfind, hRname⟩ := (sessionFind_some h.parks.ok.trees).mp hf
      have hR : IsRecovery σ.server R := ⟨hRfind, hRname⟩
      refine hempty (sessionDestroy σ.server R.id) ?_
      by_cases hcur : R.curw = none
      · have hsame : sessionDestroy σ.server R.id = σ.server := by
          simp only [sessionDestroy, hRfind, hcur, if_true]
        rw [hsame]
        refine ⟨h.parks.ok, h.parks.separate, ?_, fun _ hi => absurd hi List.not_mem_nil⟩
        rw [hR.order h.parks.ok.trees, Session.order, (h.parks.ok.lot R hR).current.empty hcur]
        exact List.Perm.refl _
      · have hrun : Shrink (fun _ => True) (fun _ => True) σ.server
            (sessionDestroy σ.server R.id) := sessionDestroy_shrink trivial
        have hnone : ∀ R', ¬ IsRecovery (sessionDestroy σ.server R.id) R' := by
          intro R' hR'
          have hfind := hR'.find
          rw [sessionDestroy_find hRfind hcur] at hfind
          split at hfind
          · cases hfind
          · next hne =>
              exact hne (congrArg Session.id
                (IsRecovery.unique h.parks.ok.trees ⟨hfind, hR'.name⟩ hR))
        obtain ⟨hok, horder⟩ := h.parks.ok.vanish hrun hnone
        refine ⟨hok, fun R' hR' => absurd hR' (hnone R'), ?_, fun _ hi =>
          absurd hi List.not_mem_nil⟩
        rw [horder]
        exact List.Perm.refl _

theorem ParkInv.step {σ : State} (h : ParkInv σ) {l : Event} (hv : l.Valid σ.server)
    (hgood : RoomToPark σ l) : ParkInv (exec σ l) := by
  have hout := exec_outcome h.parks.ok.trees.unique hv
  generalize exec σ l = σ' at hout ⊢
  cases hout with
  | idle => exact h
  | kill _ s wl w hdel hlast =>
      exact ⟨⟨h.stack.count, h.stack.bound⟩,
        h.parks.kill hdel.session hdel.name (List.mem_map_of_mem hdel.linked)⟩
  | parkWindow _ s wl w hdel hlast hparks hwindow =>
      have hown := hgood.2 hparks wl.window hwindow
      have hwid := windowFindById_id hdel.window
      exact h.parked (hgood.1 (.inl hparks)) (breakLiveWindow_broken h.parks hdel.session
        hdel.name hdel.linked hlast hown hdel.window rfl hwid rfl)
  | parkPane _ s wl w wp hdel hwp hcount hparks =>
      exact h.parked (hgood.1 (.inl hparks))
        (breakLivePane_broken h.parks hdel.session hdel.name wl wp rfl rfl rfl)
  | reserve print item σ₁ hpop =>
      obtain ⟨hheld, -⟩ := h.pop hpop
      refine ⟨⟨hheld.stack.count, hheld.stack.bound⟩, hheld.parks.perm ?_⟩
      change List.Perm _ (σ₁.closedStack ++ (σ₁.reservedStack ++ [item]))
      rw [← List.append_assoc]
      exact (List.perm_append_singleton item _).symm
  | reopen target print item σ₁ hpop =>
      obtain ⟨hheld, hlt⟩ := h.pop hpop
      exact hheld.restoreOrPushBack target print fun _ => hlt
  | claim value target print item n σ₁ hitem hpop =>
      obtain ⟨hheld, hcount⟩ := h.reservedPop hpop
      refine hheld.restoreOrPushBack target print fun hfail => ?_
      rw [reservedPop_server hpop] at hfail
      rw [hcount]
      exact hgood.1 (.inr (by simp [putsBack, hitem, hfail]))
  | release value print item n σ₁ hitem hpop =>
      obtain ⟨hheld, hcount⟩ := h.reservedPop hpop
      refine hheld.push ?_
      rw [hcount]
      exact hgood.1 (.inr (by simp [putsBack, hitem]))
  | clear => exact h.clear
  | output wp content =>
      exact ⟨⟨h.stack.count, h.stack.bound⟩, h.parks.kept (paneOutput_kept _ _ _)
        (.of_eq fun w _ => panesKept_of_windows rfl w)⟩

theorem NothingParked.parks {sv : Server} (h : NothingParked sv) : Parks sv [] := by
  have hnone : ∀ R, ¬ IsRecovery sv R := by
    intro R hR
    have hf := (sessionFind_some h.trees).mpr ⟨hR.find, hR.name⟩
    rw [h.noRecovery] at hf
    cases hf
  refine ⟨⟨h.trees, h.created, h.groupIds, fun R hR => absurd hR (hnone R)⟩,
    fun R hR => absurd hR (hnone R), ?_, fun _ hi => absurd hi List.not_mem_nil⟩
  rw [recoveryOrder_none h.trees hnone]
  exact List.Perm.refl _

theorem parkInv_inductive : (recoverySystem NothingParked).Inductive RoomToPark ParkInv where
  init := by
    rintro σ ⟨hfresh, hsv⟩
    have hp := hsv.parks
    refine ⟨⟨?_, ?_⟩, ?_⟩
    · rw [hfresh.closedCount, hfresh.closedStack]
      rfl
    · rw [hfresh.closedStack]
      exact Nat.zero_le _
    · rw [hfresh.closedStack, hfresh.reservedStack]
      exact hp
  step := by
    rintro σ l _ h hgood ⟨hv, rfl⟩
    exact h.step hv hgood

/-- **Every parked window has its item and every item its window**, in every run
that never pushes onto a full closed stack. -/
theorem parked_exactly_of_room {σ : State}
    (hreach : (recoverySystem NothingParked).ReachableWith RoomToPark σ) : ParkedExactly σ :=
  (parkInv_inductive.invariant hreach).parkedExactly

theorem tabServer_nothingParked (n : Nat) : NothingParked (tabServer n) :=
  ⟨tabServer_treesOk n, tabServer_created n, fun _ ⟨_, hsg, _⟩ => absurd hsg List.not_mem_nil, rfl⟩

/-- A tab is closed, reserved, released and reopened. -/
theorem parked_exactly_after_release : ParkedExactly (TSys.runFrom exec (tabState 3)
    [.softDeleteWindow (tab 0), .reserveLatestClosed false, .softDeleteWindow (tab 1),
      .releaseReservedClosed (some "1") false, .reopenLatestClosed none false]) :=
  parked_exactly_of_room (recovery_run
    (.init ⟨tabState_fresh 3, tabServer_nothingParked 3⟩) (by decide +kernel))

/-- Thirty-three tabs are closed, one after the other. -/
def closeThirtyThree : List Event := (List.range 33).map fun i => .softDeleteWindow (tab i)

/-- The first tab's item is evicted by the last, and its window stays parked. -/
theorem parked_window_leaks :
    ¬ ∀ σ, (recoverySystem NothingParked).Reachable σ → ParkedExactly σ := by
  intro h
  have hrun : TSys.RunOk (fun σ l => True ∧ l.Valid σ.server) exec (tabState 34)
      closeThirtyThree := by decide +kernel
  have hreach : (recoverySystem NothingParked).Reachable
      (TSys.runFrom exec (tabState 34) closeThirtyThree) :=
    recovery_run (.init ⟨tabState_fresh 34, tabServer_nothingParked 34⟩) hrun
  have hlength := (h _ hreach).items.length_eq
  exact absurd hlength (by decide +kernel)

end Newmux.Theorems
