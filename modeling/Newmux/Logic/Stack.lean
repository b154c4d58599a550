import Newmux.Recovery.System

/-!
# The stacks

What the commands do to the closed and reserved stacks, one lemma for each kind
of command, whatever they do to the server beside it.
-/

namespace Newmux.Logic

open Newmux.Base Newmux.Tmux Newmux.Recovery

/-! ## Push and pop -/

/-- The eviction loop keeps the newest items up to the limit. -/
theorem evictLoop_eq (fuel : Nat) (stack : List ClosedItem)
    (hfuel : stack.length ≤ fuel + newmuxRecoveryMaxItems) :
    evictLoop fuel stack stack.length =
      (stack.take newmuxRecoveryMaxItems, min stack.length newmuxRecoveryMaxItems) := by
  induction fuel generalizing stack with
  | zero =>
      rw [Nat.zero_add] at hfuel
      rw [List.take_of_length_le hfuel, Nat.min_eq_left hfuel]
      rfl
  | succ fuel ih =>
      unfold evictLoop
      split
      · next hgt =>
          have hlen : stack.dropLast.length = stack.length - 1 := List.length_dropLast
          have hmin : min (stack.length - 1) newmuxRecoveryMaxItems =
              min stack.length newmuxRecoveryMaxItems := by omega
          rw [← hlen, ih _ (by omega), hlen, hmin, List.dropLast_eq_take, List.take_take,
            Nat.min_eq_left (by omega)]
      · next hle =>
          rw [List.take_of_length_le (by omega), Nat.min_eq_left (by omega)]

/-- The count is the length of the closed stack, which is within the limit. -/
structure StackOk (σ : State) : Prop where
  count : σ.closedCount = σ.closedStack.length
  bound : σ.closedStack.length ≤ newmuxRecoveryMaxItems

@[simp] theorem push_server (σ : State) (item : ClosedItem) :
    (newmuxStackPush σ item).server = σ.server := rfl

@[simp] theorem push_closedNextSequence (σ : State) (item : ClosedItem) :
    (newmuxStackPush σ item).closedNextSequence = σ.closedNextSequence := rfl

/-- A push puts the item at the head and drops what is over the limit. -/
theorem push_closedStack {σ : State} (hok : StackOk σ) (item : ClosedItem) :
    (newmuxStackPush σ item).closedStack =
        (item :: σ.closedStack).take newmuxRecoveryMaxItems ∧
      (newmuxStackPush σ item).closedCount =
        min (σ.closedStack.length + 1) newmuxRecoveryMaxItems := by
  have hloop := evictLoop_eq (σ.closedCount + 1) (item :: σ.closedStack) (by
    simp only [List.length_cons, hok.count]
    omega)
  simp only [List.length_cons] at hloop
  simp only [newmuxStackPush, hok.count] at hloop ⊢
  rw [hloop]
  exact ⟨rfl, rfl⟩

/-- Below the limit nothing is dropped. -/
theorem push_closedStack_of_lt {σ : State} (hok : StackOk σ) (item : ClosedItem)
    (hlt : σ.closedCount < newmuxRecoveryMaxItems) :
    (newmuxStackPush σ item).closedStack = item :: σ.closedStack := by
  rw [(push_closedStack hok item).1, List.take_of_length_le]
  simp only [List.length_cons]
  have := hok.count
  omega

theorem StackOk.push {σ : State} (hok : StackOk σ) (item : ClosedItem) :
    StackOk (newmuxStackPush σ item) := by
  obtain ⟨hstack, hcount⟩ := push_closedStack hok item
  constructor
  · rw [hstack, hcount]
    simp only [List.length_take, List.length_cons]
    omega
  · rw [hstack]
    simp

theorem mem_push {σ : State} (hok : StackOk σ) {item x : ClosedItem}
    (h : x ∈ (newmuxStackPush σ item).closedStack) : x = item ∨ x ∈ σ.closedStack := by
  rw [(push_closedStack hok item).1] at h
  exact List.mem_cons.mp (List.mem_of_mem_take h)

/-- A pop takes the head. -/
theorem pop_some {σ σ₁ : State} {item : ClosedItem} (h : newmuxStackPop σ = some (item, σ₁)) :
    σ.closedStack = item :: σ₁.closedStack ∧
      σ₁ = { σ with closedStack := σ₁.closedStack, closedCount := σ.closedCount - 1 } := by
  unfold newmuxStackPop at h
  cases hs : σ.closedStack with
  | nil => simp [hs] at h
  | cons x rest =>
      simp only [hs, Option.some.injEq, Prod.mk.injEq] at h
      obtain ⟨rfl, rfl⟩ := h
      exact ⟨rfl, rfl⟩

theorem pop_none {σ : State} : newmuxStackPop σ = none ↔ σ.closedStack = [] := by
  unfold newmuxStackPop
  cases σ.closedStack <;> simp

theorem StackOk.pop {σ σ₁ : State} {item : ClosedItem} (hok : StackOk σ)
    (h : newmuxStackPop σ = some (item, σ₁)) : StackOk σ₁ := by
  obtain ⟨hstack, hσ⟩ := pop_some h
  have hcount := hok.count
  have hbound := hok.bound
  rw [hstack, List.length_cons] at hcount hbound
  have hc : σ₁.closedCount = σ.closedCount - 1 := by rw [hσ]
  exact ⟨by omega, by omega⟩

/-- A popped item is at the head of the stack again once it is pushed back. -/
theorem push_pop {σ σ₁ : State} {item : ClosedItem} (hok : StackOk σ)
    (h : newmuxStackPop σ = some (item, σ₁)) (server : Server) :
    newmuxStackPush { σ₁ with server } item = { σ with server } := by
  obtain ⟨hstack, hσ⟩ := pop_some h
  have hok₁ : StackOk { σ₁ with server } := ⟨(hok.pop h).count, (hok.pop h).bound⟩
  have hcount := hok.count
  have hbound := hok.bound
  rw [hstack, List.length_cons] at hcount hbound
  obtain ⟨hs, hc⟩ := push_closedStack hok₁ item
  have hs' : (newmuxStackPush { σ₁ with server } item).closedStack = σ.closedStack := by
    rw [hs, hstack, List.take_of_length_le (by simpa using hbound)]
  have hc' : (newmuxStackPush { σ₁ with server } item).closedCount = σ.closedCount := by
    rw [hc, hcount]
    exact Nat.min_eq_left hbound
  have hr : σ₁.reservedStack = σ.reservedStack := by rw [hσ]
  have hn : σ₁.closedNextSequence = σ.closedNextSequence := by rw [hσ]
  have hre : newmuxStackPush { σ₁ with server } item =
      { server, closedStack := (newmuxStackPush { σ₁ with server } item).closedStack,
        reservedStack := σ₁.reservedStack, closedNextSequence := σ₁.closedNextSequence,
        closedCount := (newmuxStackPush { σ₁ with server } item).closedCount } := rfl
  rw [hre, hs', hc', hr, hn]

/-- A claim or release takes the first reserved item of its sequence. -/
theorem reservedPop_some {σ σ₁ : State} {n : Nat} {item : ClosedItem}
    (h : newmuxReservedPopBySequence σ n = some (item, σ₁)) :
    item.sequence = n ∧ σ.reservedStack.Perm (item :: σ₁.reservedStack) ∧
      σ₁ = { σ with reservedStack := σ₁.reservedStack } := by
  unfold newmuxReservedPopBySequence at h
  cases hf : σ.reservedStack.find? (fun item => item.sequence == n) with
  | none => simp [hf] at h
  | some x =>
      simp only [hf, Option.some.injEq, Prod.mk.injEq] at h
      obtain ⟨rfl, rfl⟩ := h
      refine ⟨by simpa using List.find?_some hf, ?_, rfl⟩
      obtain ⟨hx, as, bs, hsplit, has⟩ := List.find?_eq_some_iff_append.mp hf
      simp only
      have herase : (x :: bs).eraseP (fun item => item.sequence == n) = bs :=
        List.eraseP_cons_of_pos hx
      rw [hsplit, List.eraseP_append_right _ (by simpa using has), herase]
      exact List.perm_middle

/-! ## The commands -/

theorem breakLiveWindow_item {sv sv' : Server} {item item' : ClosedItem} {s : Nat}
    {wl : Winlink} (h : newmuxBreakLiveWindow sv item s wl = (sv', .ok item')) :
    item'.sequence = item.sequence := by
  simp only [newmuxBreakLiveWindow] at h
  split at h
  · cases h
  · split at h
    · cases h
    · cases h
      rfl

theorem breakLivePane_item {sv sv' : Server} {item item' : ClosedItem} {wl : Winlink}
    {wp : Nat} (h : newmuxBreakLivePane sv item wl wp = (sv', .ok item')) :
    item'.sequence = item.sequence := by
  simp only [newmuxBreakLivePane] at h
  split at h
  · cases h
  · cases h
    rfl

/-- A restore of an item that is off the stacks: gone, or back at the head. -/
theorem restoreOrPushBack_effect (σ : State) (target : Option Nat) (item : ClosedItem)
    (print : Bool) :
    (∃ server, newmuxRestoreClosedItem σ.server target item = (server, .ok ()) ∧
        (restoreOrPushBack σ target item print).1 = { σ with server }) ∨
      ∃ server cause, newmuxRestoreClosedItem σ.server target item = (server, .error cause) ∧
        (restoreOrPushBack σ target item print).1 = newmuxStackPush { σ with server } item := by
  unfold restoreOrPushBack
  cases h : newmuxRestoreClosedItem σ.server target item with
  | mk server result =>
      cases result with
      | error cause => exact .inr ⟨server, cause, rfl, rfl⟩
      | ok _ => exact .inl ⟨server, rfl, rfl⟩

end Newmux.Logic
