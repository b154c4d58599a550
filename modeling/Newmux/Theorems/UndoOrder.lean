import Newmux.Logic.Tabs

/-!
# Undo order

The closed stack is in deletion order, newest first, as long as what comes back
onto it from the reserved list is newer than what is there. Releasing an older
item, or a failed claim of one, puts it above newer ones. The listing of closed items
is in the order of the stack.
-/

namespace Newmux.Theorems

open Newmux.Base Newmux.Tmux Newmux.Recovery Newmux.Logic

/-- Newest first. -/
def Descending (stack : List ClosedItem) : Prop :=
  stack.Pairwise (fun newer older => older.sequence < newer.sequence)

/-- The closed stack is in deletion order, so that the next item to be reopened
or reserved is the last one deleted. -/
def UndoOrder (σ : State) : Prop :=
  Descending σ.closedStack ∧
    ∀ item σ₁, newmuxStackPop σ = some (item, σ₁) →
      ∀ older ∈ σ₁.closedStack, older.sequence < item.sequence

/-- Newer than everything on the closed stack. -/
def NewerThanClosed (σ : State) (item : ClosedItem) : Prop :=
  ∀ x ∈ σ.closedStack, x.sequence < item.sequence

/-- The step does not wrap the sequence counter, and a reserved item it puts
back is newer than what is on the closed stack. -/
def InOrder (σ : State) (l : Event) : Prop :=
  (parks σ l = true → σ.closedNextSequence + 1 < 4294967296) ∧
    ∀ item ∈ putsBack σ l, NewerThanClosed σ item

/-- What carries the order along a run: no item is newer than the counter. -/
structure UndoInv (σ : State) : Prop where
  trees : TreesOk σ.server
  stack : StackOk σ
  descending : Descending σ.closedStack
  bounded : ∀ item, item ∈ σ.closedStack ∨ item ∈ σ.reservedStack →
    item.sequence ≤ σ.closedNextSequence

/-! ## The steps -/

/-- A push of an item newer than the stack and not above the counter. -/
theorem UndoInv.push {σ : State} (h : UndoInv σ) {item : ClosedItem}
    (hnewer : NewerThanClosed σ item) (hle : item.sequence ≤ σ.closedNextSequence) :
    UndoInv (newmuxStackPush σ item) := by
  refine ⟨h.trees, h.stack.push item, ?_, ?_⟩
  · have hcons : Descending (item :: σ.closedStack) :=
      List.pairwise_cons.mpr ⟨hnewer, h.descending⟩
    rw [(push_closedStack h.stack item).1]
    exact List.Pairwise.sublist (List.take_sublist _ _) hcons
  · rintro x (hx | hx)
    · rcases mem_push h.stack hx with rfl | hx
      · exact hle
      · exact h.bounded x (.inl hx)
    · exact h.bounded x (.inr hx)

/-- Another server beside the stacks. -/
theorem UndoInv.withServer {σ : State} (h : UndoInv σ) {server : Server}
    (hok : TreesOk server) : UndoInv { σ with server } :=
  ⟨hok, ⟨h.stack.count, h.stack.bound⟩, h.descending, h.bounded⟩

theorem UndoInv.pop {σ σ₁ : State} {item : ClosedItem} (h : UndoInv σ)
    (hpop : newmuxStackPop σ = some (item, σ₁)) :
    UndoInv σ₁ ∧ NewerThanClosed σ₁ item ∧ item.sequence ≤ σ₁.closedNextSequence := by
  obtain ⟨hstack, hσ₁⟩ := pop_some hpop
  have hdesc := h.descending
  rw [Descending, hstack, List.pairwise_cons] at hdesc
  have hreserved : σ₁.reservedStack = σ.reservedStack := by rw [hσ₁]
  have hcounter : σ₁.closedNextSequence = σ.closedNextSequence := by rw [hσ₁]
  refine ⟨⟨pop_server hpop ▸ h.trees, h.stack.pop hpop, hdesc.2, ?_⟩, hdesc.1, ?_⟩
  · intro x hx
    rw [hreserved] at hx
    rw [hcounter]
    exact h.bounded x (hx.imp_left fun hx => hstack ▸ List.mem_cons_of_mem _ hx)
  · rw [hcounter]
    exact h.bounded item (.inl (hstack ▸ List.mem_cons_self))

theorem UndoInv.reservedPop {σ σ₁ : State} {n : Nat} {item : ClosedItem} (h : UndoInv σ)
    (hpop : newmuxReservedPopBySequence σ n = some (item, σ₁)) :
    UndoInv σ₁ ∧ σ₁.closedStack = σ.closedStack ∧ item.sequence ≤ σ₁.closedNextSequence := by
  obtain ⟨-, hperm, hσ₁⟩ := reservedPop_some hpop
  have hclosed : σ₁.closedStack = σ.closedStack := by rw [hσ₁]
  have hcount : σ₁.closedCount = σ.closedCount := by rw [hσ₁]
  have hcounter : σ₁.closedNextSequence = σ.closedNextSequence := by rw [hσ₁]
  refine ⟨⟨reservedPop_server hpop ▸ h.trees, ⟨?_, ?_⟩, hclosed ▸ h.descending, ?_⟩, hclosed, ?_⟩
  · rw [hcount, hclosed]
    exact h.stack.count
  · rw [hclosed]
    exact h.stack.bound
  · intro x hx
    rw [hclosed] at hx
    rw [hcounter]
    exact h.bounded x (hx.imp_right fun hx => hperm.mem_iff.mpr (List.mem_cons_of_mem _ hx))
  · rw [hcounter]
    exact h.bounded item (.inr (hperm.mem_iff.mpr List.mem_cons_self))

/-- A restore attempt: an item that fails goes back above older ones. -/
theorem UndoInv.restoreOrPushBack {σ : State} (h : UndoInv σ) (target : Option Nat)
    (item : ClosedItem) (print : Bool)
    (hnewer : restorable σ.server target item = false → NewerThanClosed σ item)
    (hle : item.sequence ≤ σ.closedNextSequence) :
    UndoInv (restoreOrPushBack σ target item print).1 := by
  have htrees := restoreClosedItem_treesOk h.trees target item
  rcases restoreOrPushBack_effect σ target item print with
    ⟨server, hres, heq⟩ | ⟨server, cause, hres, heq⟩ <;> rw [hres] at htrees <;> rw [heq]
  · exact h.withServer htrees
  · have hfail : restorable σ.server target item = false := by
      have hiff := restoreClosedItem_ok_iff h.trees target item
      rw [hres] at hiff
      simpa using hiff
    exact (h.withServer htrees).push (hnewer hfail) hle

/-- Parking pushes an item that carries the next number. -/
theorem UndoInv.parked {σ : State} (h : UndoInv σ) (hcounter : σ.closedNextSequence + 1 < 4294967296)
    (item : ClosedItem) (hitem : item.sequence = nextSequence σ)
    (broken : Server × Except String ClosedItem) (htrees : TreesOk broken.1)
    (hbroken : ∀ sv' item', broken = (sv', .ok item') → item'.sequence = item.sequence) :
    UndoInv (parked σ broken) := by
  have hnext : nextSequence σ = σ.closedNextSequence + 1 := Nat.mod_eq_of_lt hcounter
  obtain ⟨server, result⟩ := broken
  have hmid : UndoInv { σ with server, closedNextSequence := nextSequence σ } := by
    refine ⟨htrees, ⟨h.stack.count, h.stack.bound⟩, h.descending, fun x hx => ?_⟩
    have := h.bounded x hx
    change x.sequence ≤ nextSequence σ
    omega
  cases result with
  | error cause => exact hmid
  | ok item' =>
      have hseq : item'.sequence = nextSequence σ := (hbroken server item' rfl).trans hitem
      refine hmid.push (fun x hx => ?_) hseq.le
      have := h.bounded x (.inl hx)
      omega

theorem UndoInv.step {σ : State} (h : UndoInv σ) {l : Event} (hv : l.Valid σ.server)
    (hgood : InOrder σ l) : UndoInv (exec σ l) := by
  have hout := exec_outcome h.trees.unique hv
  generalize exec σ l = σ' at hout ⊢
  cases hout with
  | idle => exact h
  | kill => exact h.withServer (Shrink.treesOk (killWindow_shrink h.trees _ _) h.trees)
  | parkWindow _ s wl w hdel hlast hparks hwindow =>
      exact h.parked (hgood.1 hparks) _ rfl _ (breakLiveWindow_treesOk h.trees _ _ _)
        fun _ _ => breakLiveWindow_item
  | parkPane _ s wl w wp hdel hwp hcount hparks =>
      exact h.parked (hgood.1 hparks) _ rfl _ (breakLivePane_treesOk h.trees _ _ _)
        fun _ _ => breakLivePane_item
  | reserve print item σ₁ hpop =>
      obtain ⟨h₁, -, hle⟩ := h.pop hpop
      -- the item keeps its number, which was given out before
      refine ⟨h₁.trees, ⟨h₁.stack.count, h₁.stack.bound⟩, h₁.descending, ?_⟩
      rintro x (hx | hx)
      · exact h₁.bounded x (.inl hx)
      · rcases List.mem_append.mp hx with hx | hx
        · exact h₁.bounded x (.inr hx)
        · rw [List.mem_singleton.mp hx]
          exact hle
  | reopen target print item σ₁ hpop =>
      obtain ⟨h₁, hnewer, hle⟩ := h.pop hpop
      exact h₁.restoreOrPushBack target item print (fun _ => hnewer) hle
  | claim value target print item n σ₁ hitem hpop =>
      obtain ⟨h₁, hclosed, hle⟩ := h.reservedPop hpop
      refine h₁.restoreOrPushBack target item print (fun hfail => ?_) hle
      rw [reservedPop_server hpop] at hfail
      have hnewer := hgood.2 item (by simp [putsBack, hitem, hfail])
      unfold NewerThanClosed at hnewer ⊢
      rw [hclosed]
      exact hnewer
  | release value print item n σ₁ hitem hpop =>
      obtain ⟨h₁, hclosed, hle⟩ := h.reservedPop hpop
      have hnewer := hgood.2 item hitem
      refine h₁.push ?_ hle
      unfold NewerThanClosed at hnewer ⊢
      rw [hclosed]
      exact hnewer
  | clear =>
      refine ⟨recoveryClear_treesOk h.trees, ⟨rfl, Nat.zero_le _⟩, List.Pairwise.nil, ?_⟩
      rintro x (hx | hx) <;> exact absurd hx List.not_mem_nil
  | output wp content => exact h.withServer ((paneOutput_kept _ _ _).treesOk h.trees)

theorem undoInv_inductive : (recoverySystem TreesOk).Inductive InOrder UndoInv where
  init := by
    rintro σ ⟨hfresh, hok⟩
    refine ⟨hok, ⟨?_, ?_⟩, ?_, ?_⟩
    · rw [hfresh.closedCount, hfresh.closedStack]
      rfl
    · rw [hfresh.closedStack]
      exact Nat.zero_le _
    · rw [hfresh.closedStack]
      exact List.Pairwise.nil
    · rintro x (hx | hx)
      · exact absurd (hfresh.closedStack ▸ hx) List.not_mem_nil
      · exact absurd (hfresh.reservedStack ▸ hx) List.not_mem_nil
  step := by
    rintro σ l _ h hgood ⟨hv, rfl⟩
    exact h.step hv hgood

/-- **Undo is last in, first out** in every run that puts items back in order. -/
theorem undo_order_of_inOrder {σ : State}
    (hreach : (recoverySystem TreesOk).ReachableWith InOrder σ) : UndoOrder σ := by
  have h := undoInv_inductive.invariant hreach
  exact ⟨h.descending, fun item σ₁ hpop => (h.pop hpop).2.1⟩

/-- In such a run the listing of closed items is newest first, and its first line is
of the item that the next reopen or reserve takes. -/
theorem listRecentlyClosed_newest_first {σ : State}
    (hreach : (recoverySystem TreesOk).ReachableWith InOrder σ) :
    ∃ items, (cmdNewmuxListRecentlyClosedExec σ).2.prints = items.map recentlyClosedLine ∧
      Descending items ∧
        ∀ item σ₁, newmuxStackPop σ = some (item, σ₁) → items.head? = some item := by
  have h := undoInv_inductive.invariant hreach
  refine ⟨σ.closedStack, rfl, h.descending, fun item σ₁ hpop => ?_⟩
  rw [(pop_some hpop).1]
  rfl

instance (σ : State) (l : Event) : Decidable (InOrder σ l) :=
  inferInstanceAs (Decidable (_ ∧ ∀ item ∈ putsBack σ l, ∀ x ∈ σ.closedStack, _))

instance (stack : List ClosedItem) : Decidable (Descending stack) :=
  inferInstanceAs (Decidable (stack.Pairwise _))

/-- Two tabs are closed, both are reserved, and the older one is released first. -/
def releaseOlderFirst : List Event :=
  [.softDeleteWindow (tab 0), .softDeleteWindow (tab 1), .reserveLatestClosed false,
    .reserveLatestClosed false, .releaseReservedClosed (some "1") false,
    .releaseReservedClosed (some "2") false]

theorem undo_order_older_first : UndoOrder (TSys.runFrom exec (tabState 3) releaseOlderFirst) :=
  undo_order_of_inOrder (recovery_run (.init ⟨tabState_fresh 3, tabServer_treesOk 3⟩)
    (by decide +kernel))

/-- Two tabs are closed, both are reserved, and the newer one is released first. -/
def releaseNewerFirst : List Event :=
  [.softDeleteWindow (tab 0), .softDeleteWindow (tab 1), .reserveLatestClosed false,
    .reserveLatestClosed false, .releaseReservedClosed (some "2") false,
    .releaseReservedClosed (some "1") false]

/-- The older tab is then on top of the newer one. -/
theorem undo_order_broken :
    ¬ ∀ σ, (recoverySystem TreesOk).Reachable σ → UndoOrder σ := by
  intro h
  have hreach : (recoverySystem TreesOk).Reachable
      (TSys.runFrom exec (tabState 3) releaseNewerFirst) :=
    recovery_run (.init ⟨tabState_fresh 3, tabServer_treesOk 3⟩) (by decide +kernel)
  exact absurd (h _ hreach).1 (by decide +kernel)

end Newmux.Theorems
