import Newmux.Logic.Stack

/-!
# Numbers handed to other programs

A reserve prints the number of an item, and a claim or a release reads it back.
What the commands do to the stacks when the number is that of the one reserved
item that carries it.
-/

namespace Newmux.Logic

open Newmux.Base Newmux.Tmux Newmux.Recovery

/-! ## Printing and reading a number -/

theorem toList_toString (n : Nat) : (toString n).toList = Nat.toDigits 10 n := by
  simp [toString, Nat.repr]

/-- A printed number in range is read back. -/
theorem strtonum_toString {n : Nat} (hpos : 0 < n) (hlt : n < 4294967296) :
    strtonum (toString n) 1 4294967295 = some (n : Int) := by
  have hdigits := Decimal.digits_toDigits n
  have hvalue : Decimal.value (toString n).toList = n := by
    rw [toList_toString, Decimal.value_of_digits hdigits, Nat.ofDigitChars_ten_toDigits]
  have hlong : IsLong (toString n).toList := by
    refine ⟨?_, ?_⟩
    · rw [toList_toString]
      exact Decimal.isNumeral_of_digits Nat.toDigits_ne_nil hdigits
    · rw [hvalue]
      unfold llongMin llongMax
      omega
  rw [strtonum_of_isLong hlong (by omega) (by omega), hvalue]

theorem reservedSequence_toString {n : Nat} (hpos : 0 < n) (hlt : n < 4294967296) :
    reservedSequence (some (toString n)) = .ok n := by
  unfold reservedSequence
  simp only [strtonum_toString hpos hlt, Int.toNat_natCast]

/-! ## The one reserved item of a number -/

/-- The reserved items that carry a number. -/
def carriers (σ : State) (n : Nat) : List ClosedItem :=
  σ.reservedStack.filter (fun item => item.sequence == n)

theorem find_carriers (σ : State) (n : Nat) :
    σ.reservedStack.find? (fun item => item.sequence == n) = (carriers σ n).head? :=
  List.head?_filter.symm

theorem filter_eraseP {α : Type} (p : α → Bool) (l : List α) :
    (l.eraseP p).filter p = (l.filter p).tail := by
  induction l with
  | nil => rfl
  | cons x l ih =>
      cases hx : p x with
      | true => simp [hx]
      | false => simpa [hx] using ih

/-- A pop by number takes the first carrier. -/
theorem reservedPop_carriers {σ : State} {n : Nat} {item : ClosedItem} {rest : List ClosedItem}
    (h : carriers σ n = item :: rest) :
    ∃ σ₁, newmuxReservedPopBySequence σ n = some (item, σ₁) ∧ carriers σ₁ n = rest ∧
      σ₁ = { σ with reservedStack := σ₁.reservedStack } := by
  unfold newmuxReservedPopBySequence
  rw [find_carriers, h]
  refine ⟨_, rfl, ?_, rfl⟩
  unfold carriers at h ⊢
  rw [filter_eraseP, h]
  rfl

theorem reservedPop_none {σ : State} {n : Nat} (h : carriers σ n = []) :
    newmuxReservedPopBySequence σ n = none := by
  unfold newmuxReservedPopBySequence
  rw [find_carriers, h]
  rfl

/-- Reserving the head makes it the only carrier of its number. -/
theorem reserve_carriers {σ : State} {item : ClosedItem} (print : Bool)
    (hhead : σ.closedStack.head? = some item)
    (hfresh : ∀ x ∈ σ.reservedStack, x.sequence ≠ item.sequence) :
    carriers (cmdNewmuxReserveLatestClosedExec σ print).1 item.sequence = [item] := by
  obtain ⟨rest, hstack⟩ := List.head?_eq_some_iff.mp hhead
  have hnone : σ.reservedStack.filter (fun x => x.sequence == item.sequence) = [] := by
    rw [List.filter_eq_nil_iff]
    intro x hx
    simpa using hfresh x hx
  simp [cmdNewmuxReserveLatestClosedExec, newmuxStackPop, hstack, newmuxReservedPush, carriers,
    hnone]

theorem reserve_stackOk {σ : State} (hok : StackOk σ) (print : Bool) :
    StackOk (cmdNewmuxReserveLatestClosedExec σ print).1 := by
  unfold cmdNewmuxReserveLatestClosedExec
  cases hpop : newmuxStackPop σ with
  | none => exact hok
  | some r => exact ⟨(hok.pop hpop).count, (hok.pop hpop).bound⟩

/-- A claim of the one carrier restores it, or puts it at the head of the closed
stack. -/
theorem claim_carrier {σ : State} (hok : StackOk σ) {item : ClosedItem}
    (hpos : 0 < item.sequence) (hlt : item.sequence < 4294967296)
    (h : carriers σ item.sequence = [item]) (target : Option Nat) :
    ∃ σ' result, cmdNewmuxClaimReservedClosedExec σ (some (toString item.sequence)) target true =
        (σ', result) ∧ StackOk σ' ∧ carriers σ' item.sequence = [] ∧
      (result.prints ≠ [] ∨ result.prints = [] ∧ σ'.closedStack.head? = some item) := by
  obtain ⟨σ₁, hpop, hrest, hσ₁⟩ := reservedPop_carriers h
  have hok₁ : StackOk σ₁ := by
    rw [hσ₁]
    exact ⟨hok.count, hok.bound⟩
  unfold cmdNewmuxClaimReservedClosedExec
  simp only [reservedSequence_toString hpos hlt, hpop]
  unfold restoreOrPushBack
  cases newmuxRestoreClosedItem σ₁.server target item with
  | mk server result =>
      cases result with
      | ok _ =>
          exact ⟨_, _, rfl, ⟨hok₁.count, hok₁.bound⟩, hrest, .inl (List.cons_ne_nil _ _)⟩
      | error cause =>
          have hok₂ : StackOk { σ₁ with server } := ⟨hok₁.count, hok₁.bound⟩
          refine ⟨_, _, rfl, hok₂.push item, hrest, .inr ⟨rfl, ?_⟩⟩
          rw [(push_closedStack hok₂ item).1]
          rfl

/-- A release of the one carrier puts it at the head of the closed stack. -/
theorem release_carrier {σ : State} (hok : StackOk σ) {item : ClosedItem}
    (hpos : 0 < item.sequence) (hlt : item.sequence < 4294967296)
    (h : carriers σ item.sequence = [item]) :
    ∃ σ' result, cmdNewmuxReleaseReservedClosedExec σ (some (toString item.sequence)) true =
        (σ', result) ∧ StackOk σ' ∧ carriers σ' item.sequence = [] ∧
      σ'.closedStack.head? = some item := by
  obtain ⟨σ₁, hpop, hrest, hσ₁⟩ := reservedPop_carriers h
  have hok₁ : StackOk σ₁ := by
    rw [hσ₁]
    exact ⟨hok.count, hok.bound⟩
  unfold cmdNewmuxReleaseReservedClosedExec
  simp only [reservedSequence_toString hpos hlt, hpop]
  refine ⟨_, _, rfl, hok₁.push item, hrest, ?_⟩
  rw [(push_closedStack hok₁ item).1]
  rfl

/-- A release without a carrier changes nothing. -/
theorem release_none {σ : State} {n : Nat} (hpos : 0 < n) (hlt : n < 4294967296)
    (h : carriers σ n = []) :
    (cmdNewmuxReleaseReservedClosedExec σ (some (toString n)) true).1 = σ := by
  unfold cmdNewmuxReleaseReservedClosedExec
  simp only [reservedSequence_toString hpos hlt, reservedPop_none h]

/-- A delete leaves the reserved items alone, and puts an item on the closed
stack only when it succeeds. -/
theorem deleteWindow_stacks {σ : State} (hok : StackOk σ) (primary : Option String) (print : Bool)
    (target : Target) :
    ∃ σ' result, cmdNewmuxDeleteWindowExec σ primary print target = (σ', result) ∧
      StackOk σ' ∧ σ'.reservedStack = σ.reservedStack ∧
      (σ'.closedStack = σ.closedStack ∨ result.retval = .normal ∧
        ∃ item, σ'.closedStack = (item :: σ.closedStack).take newmuxRecoveryMaxItems) := by
  have hsame : ∀ (server : Server) (n : Nat) (result : CmdResult),
      ∃ σ' r, (({ σ with server, closedNextSequence := n }, result) : State × CmdResult) = (σ', r) ∧
        StackOk σ' ∧ σ'.reservedStack = σ.reservedStack ∧
        (σ'.closedStack = σ.closedStack ∨ r.retval = .normal ∧
          ∃ item, σ'.closedStack = (item :: σ.closedStack).take newmuxRecoveryMaxItems) :=
    fun server n result => ⟨_, _, rfl, ⟨hok.count, hok.bound⟩, rfl, .inl rfl⟩
  have hkept := hsame σ.server σ.closedNextSequence
  unfold cmdNewmuxDeleteWindowExec
  split
  · exact hkept _
  · split
    · split
      · exact hkept _
      · split
        · exact hsame _ σ.closedNextSequence _
        · simp only [newmuxItemFromWindow]
          generalize newmuxBreakLiveWindow _ _ _ _ = broken
          obtain ⟨server, result⟩ := broken
          cases result with
          | error cause => exact hsame _ _ _
          | ok item =>
              have hok' : StackOk { σ with server, closedNextSequence := nextSequence σ } :=
                ⟨hok.count, hok.bound⟩
              exact ⟨_, _, rfl, hok'.push item, rfl, .inr ⟨rfl, item,
                (push_closedStack hok' item).1⟩⟩
    · exact hkept _

end Newmux.Logic
