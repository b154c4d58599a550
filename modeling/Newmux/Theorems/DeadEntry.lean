import Newmux.Logic.Tabs

/-!
# Dead entries

A reopen that does not find what the item at the head of the closed stack needs, or
no free index for it, puts the item back and changes nothing. Repeated reopens
therefore restore the items above the first dead one, and stop at it: nothing is
lost, and nothing below it is reached.
-/

namespace Newmux.Theorems

open Newmux.Base Newmux.Tmux Newmux.Recovery Newmux.Logic

/-- `n` invocations of `newmux-reopen-latest-closed`. -/
def reopens (target : Option Nat) (n : Nat) (σ : State) : State :=
  TSys.runFrom exec σ (List.replicate n (.reopenLatestClosed target false))

/-- The layout of the item a reopen tries fits, if the reopen gets that far. -/
def HeadFits (target : Option Nat) (σ : State) : Prop :=
  ∀ item ∈ σ.closedStack.head?, misfit σ.server target item = false

instance (target : Option Nat) (σ : State) : Decidable (HeadFits target σ) :=
  inferInstanceAs (Decidable (∀ item ∈ σ.closedStack.head?, misfit σ.server target item = false))

/-- One reopen: an empty stack stays empty, an item that can be restored is
taken off, a dead one leaves everything as it is. -/
inductive Reopened (target : Option Nat) (σ : State) : State → Prop
  | empty (h : σ.closedStack = []) : Reopened target σ σ
  | restored (item : ClosedItem) (σ' : State) (h : σ.closedStack = item :: σ'.closedStack)
      (hrest : restorable σ.server target item = true)
      (hok : newmuxRestoreClosedItem σ.server target item = (σ'.server, .ok ()))
      (hreserved : σ'.reservedStack = σ.reservedStack) (hstack : StackOk σ') :
      Reopened target σ σ'
  | dead (item : ClosedItem) (rest : List ClosedItem) (h : σ.closedStack = item :: rest)
      (hdead : dead σ.server target item = true) : Reopened target σ σ

theorem reopen_cases {σ : State} (hok : TreesOk σ.server) (hst : StackOk σ)
    {target : Option Nat} (hfits : HeadFits target σ) :
    Reopened target σ (exec σ (.reopenLatestClosed target false)) := by
  simp only [exec, cmdNewmuxReopenLatestClosedExec]
  cases hpop : newmuxStackPop σ with
  | none => exact .empty (pop_none.mp hpop)
  | some r =>
      obtain ⟨item, σ₁⟩ := r
      obtain ⟨hstack, hσ₁⟩ := pop_some hpop
      have hserver := pop_server hpop
      have hst₁ := hst.pop hpop
      simp only
      rcases restoreOrPushBack_effect σ₁ target item false with
        ⟨server, hres, heq⟩ | ⟨server, cause, hres, heq⟩ <;> rw [hserver] at hres <;> rw [heq]
      · have hrest : restorable σ.server target item = true := by
          rw [← restoreClosedItem_ok_iff hok, hres]
        refine .restored item { σ₁ with server } hstack hrest hres ?_ ⟨hst₁.count, hst₁.bound⟩
        rw [hσ₁]
      · have hnot : restorable σ.server target item = false := by
          have hiff := restoreClosedItem_ok_iff hok target item
          rw [hres] at hiff
          simpa using hiff
        have hdead := dead_of_not hnot (hfits item (by rw [hstack]; rfl))
        -- the item is back at the head, over a server the restore has not touched
        obtain ⟨cause', hres'⟩ := restoreClosedItem_dead hok hdead
        obtain rfl : server = σ.server := congrArg Prod.fst (hres.symm.trans hres')
        rw [push_pop hst hpop σ.server]
        exact .dead item _ hstack hdead

/-- A dead head stops every further reopen. -/
theorem reopens_blocked {target : Option Nat} {σ : State} (hok : TreesOk σ.server)
    (hst : StackOk σ) {item : ClosedItem} {rest : List ClosedItem}
    (h : σ.closedStack = item :: rest) (hdead : dead σ.server target item = true) (n : Nat) :
    reopens target n σ = σ := by
  have hstep : exec σ (.reopenLatestClosed target false) = σ := by
    obtain ⟨cause, hres⟩ := restoreClosedItem_dead hok hdead
    simp only [exec, cmdNewmuxReopenLatestClosedExec]
    cases hpop : newmuxStackPop σ with
    | none => rfl
    | some r =>
        obtain ⟨item', σ₁⟩ := r
        obtain ⟨hstack, -⟩ := pop_some hpop
        obtain rfl : item' = item := by
          rw [h] at hstack
          exact (List.cons.inj hstack).1.symm
        simp only [restoreOrPushBack, pop_server hpop, hres]
        exact push_pop hst hpop σ.server
  induction n with
  | zero => rfl
  | succ n ih =>
      show reopens target n (exec σ (.reopenLatestClosed target false)) = σ
      rw [hstep]
      exact ih

/-- What `n` reopens have done: restored the `k` items at the head, each at its
turn, and no more than that only because the stack was empty or the next item
was dead, which stays at the head of an unchanged state. -/
structure RestoredDownTo (target : Option Nat) (σ : State) (n k : Nat) : Prop where
  le : k ≤ n
  stack : (reopens target n σ).closedStack = σ.closedStack.drop k
  reserved : (reopens target n σ).reservedStack = σ.reservedStack
  restored : ∀ i < k, ∃ item server, σ.closedStack[i]? = some item ∧
    restorable (reopens target i σ).server target item = true ∧
      newmuxRestoreClosedItem (reopens target i σ).server target item = (server, .ok ()) ∧
        (reopens target (i + 1) σ).server = server
  blocked : k < n → ∀ item, σ.closedStack[k]? = some item →
    dead (reopens target k σ).server target item = true ∧
      ∀ j, k ≤ j → reopens target j σ = reopens target k σ

/-- **Reopens restore down to the first dead item**, which blocks the rest. -/
theorem reopens_restore_down_to_dead {σ : State} (hok : TreesOk σ.server) (hst : StackOk σ)
    (target : Option Nat) (n : Nat) (hfits : ∀ i < n, HeadFits target (reopens target i σ)) :
    ∃ k, RestoredDownTo target σ n k := by
  induction n generalizing σ with
  | zero =>
      refine ⟨0, le_rfl, rfl, rfl, fun i hi => absurd hi (Nat.not_lt_zero i),
        fun h => absurd h (Nat.lt_irrefl 0)⟩
  | succ n ih =>
      have hcases := reopen_cases hok hst (hfits 0 (Nat.succ_pos n))
      have hok' := exec_treesOk hok (l := .reopenLatestClosed target false) trivial
      have hstep : ∀ m, reopens target (m + 1) σ =
          reopens target m (exec σ (.reopenLatestClosed target false)) := fun _ => rfl
      have hfits' : ∀ i < n, HeadFits target
          (reopens target i (exec σ (.reopenLatestClosed target false))) := fun i hi =>
        hfits (i + 1) (Nat.succ_lt_succ hi)
      generalize exec σ (.reopenLatestClosed target false) = σ' at hcases hok' hstep hfits'
      cases hcases with
      | empty hnil =>
          obtain ⟨k, h⟩ := ih hok hst hfits'
          refine ⟨0, Nat.zero_le _, ?_, (congrArg State.reservedStack (hstep n)).trans h.reserved,
            fun i hi => absurd hi (Nat.not_lt_zero i), fun _ item hitem => ?_⟩
          · rw [hstep, h.stack, hnil]
            simp
          · simp [hnil] at hitem
      | restored item σ' h hrest hres hreserved hst' =>
          -- the rest of the run starts one item further down
          obtain ⟨k, hk⟩ := ih hok' hst' hfits'
          refine ⟨k + 1, Nat.succ_le_succ hk.le, ?_, ?_, ?_, ?_⟩
          · rw [hstep, hk.stack, h, List.drop_succ_cons]
          · rw [hstep, hk.reserved, hreserved]
          · intro i hi
            cases i with
            | zero => exact ⟨item, σ'.server, by rw [h]; rfl, hrest, hres, by rw [hstep]; rfl⟩
            | succ i =>
                obtain ⟨x, server, hx, hxr, hxs, hserver⟩ := hk.restored i (by omega)
                refine ⟨x, server, by rw [h]; exact hx, ?_, ?_, ?_⟩
                · rw [hstep]; exact hxr
                · rw [hstep]; exact hxs
                · rw [hstep]; exact hserver
          · intro hlt x hx
            rw [h, List.getElem?_cons_succ] at hx
            obtain ⟨hdead, hsame⟩ := hk.blocked (by omega) x hx
            rw [hstep]
            refine ⟨hdead, fun j hj => ?_⟩
            obtain ⟨j, rfl⟩ : ∃ m, j = m + 1 := ⟨j - 1, by omega⟩
            rw [hstep]
            exact hsame j (by omega)
      | dead item rest h hdead =>
          -- back at the head, it is what every further reopen meets
          have hsame := reopens_blocked hok hst h hdead
          refine ⟨0, Nat.zero_le _, ?_, ?_, fun i hi => absurd hi (Nat.not_lt_zero i), ?_⟩
          · rw [hsame, List.drop_zero]
          · rw [hsame]
          · intro _ x hx
            obtain rfl : x = item := by
              rw [h] at hx
              exact (Option.some.inj hx).symm
            exact ⟨hdead, fun j _ => hsame j⟩

/-! ## A dead tab above a live one -/

/-- Two tabs are closed and the program in the second one exits. -/
def deadAboveLive : State :=
  let σ := TSys.runFrom exec (tabState 3) [.softDeleteWindow (tab 0), .softDeleteWindow (tab 1)]
  { σ with server := serverKillWindow σ.server 1 true }

theorem deadAboveLive_treesOk : TreesOk deadAboveLive.server := by
  have hreach : (recoverySystem TreesOk).Reachable (TSys.runFrom exec (tabState 3)
      [.softDeleteWindow (tab 0), .softDeleteWindow (tab 1)]) :=
    recovery_run (.init ⟨tabState_fresh 3, tabServer_treesOk 3⟩) (by decide +kernel)
  have hok := reachable_treesOk (fun _ h => h) hreach
  exact Shrink.treesOk (killWindow_shrink hok 1 true) hok

theorem deadAboveLive_stackOk : StackOk deadAboveLive := by
  constructor <;> decide +kernel

/-- Two reopens of a dead tab above a live one. -/
theorem reopens_dead_above_live : ∃ k, RestoredDownTo none deadAboveLive 2 k :=
  reopens_restore_down_to_dead deadAboveLive_treesOk deadAboveLive_stackOk none 2
    (by decide +kernel)

/-- The live tab below the dead one can be restored at any time, and no number
of reopens restores it. -/
theorem reopens_stop_at_dead :
    ¬ ∀ (σ : State) (target : Option Nat), TreesOk σ.server → StackOk σ →
      ∀ item ∈ σ.closedStack,
        (∀ i ≤ σ.closedStack.length,
          restorable (reopens target i σ).server target item = true) →
        item ∉ (reopens target σ.closedStack.length σ).closedStack := by
  intro h
  have hstack : ∃ dead live, deadAboveLive.closedStack = [dead, live] ∧
      (∀ i ≤ 2, restorable (reopens none i deadAboveLive).server none live = true) ∧
      live ∈ (reopens none 2 deadAboveLive).closedStack := by
    refine ⟨deadAboveLive.closedStack[0], deadAboveLive.closedStack[1], ?_, ?_, ?_⟩ <;>
      decide +kernel
  obtain ⟨dead, live, hst, hlive, hstill⟩ := hstack
  have hlen : deadAboveLive.closedStack.length = 2 := by rw [hst]; rfl
  refine h deadAboveLive none deadAboveLive_treesOk deadAboveLive_stackOk live
    (by rw [hst]; simp) ?_ ?_
  · rw [hlen]
    exact hlive
  · rw [hlen]
    exact hstill

end Newmux.Theorems
