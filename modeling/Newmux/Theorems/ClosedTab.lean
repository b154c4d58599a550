import Newmux.App.CloseTab

/-!
# Closing a tab deletes its own window

The close action tries the window it knows for the tab, and after it the window
whose tmux index is the tab's place in the tab bar. The two numberings differ as
soon as tmux indexes have a gap, so the second is another tab's window.
-/

namespace Newmux.Theorems

open Newmux.App

/-- Every delete the close action issues is for the closed tab's window. -/
def DeletesOwnWindow (tabs : List NativeTab) (i : Fin tabs.length) (listing : Listing)
    (deletes : Nat → Nat → Bool) : Prop :=
  ∀ w ∈ (closeTab tabs i listing deletes).deletes, (tabs.get i).window = some w

/-- The window known for the tab is deleted at the first try. -/
def KnownIsDeleted (tab : NativeTab) (deletes : Nat → Nat → Bool) : Prop :=
  ∃ w, newmuxKnownWindowId tab.controller tab.files = some w ∧ deletes 0 w = true

/-- If a window has the tab's place as its tmux index, it is the tab's own. -/
def IndexIsOwn (tab : NativeTab) (listing : Listing) (nativeIndex : Nat) : Prop :=
  ∀ w, newmuxWindowIdFromNativeIndex listing nativeIndex = some w → tab.window = some w

/-- Without a success at the first try, every candidate is tried. -/
theorem tryCandidates_two (deletes : Nat → Nat → Bool) (a b : Nat) :
    (tryCandidates deletes 0 [a, b]).1 = if deletes 0 a then [a] else [a, b] := by
  unfold tryCandidates
  cases deletes 0 a with
  | true => rfl
  | false => cases h : deletes 1 b <;> simp [tryCandidates, h]

theorem tryCandidates_one (deletes : Nat → Nat → Bool) (a : Nat) :
    (tryCandidates deletes 0 [a]).1 = [a] := by
  unfold tryCandidates
  cases deletes 0 a <;> simp [tryCandidates]

/-- The windows that a close deletes, or tries to. -/
theorem closeTab_deletes (tabs : List NativeTab) (i : Fin tabs.length) (listing : Listing)
    (deletes : Nat → Nat → Bool) : (closeTab tabs i listing deletes).deletes =
      if tabs.length ≤ 1 then []
      else
        match newmuxKnownWindowId (tabs.get i).controller (tabs.get i).files,
            newmuxWindowIdFromNativeIndex listing i with
        | some a, some b => if deletes 0 a then [a] else [a, b]
        | some a, none => [a]
        | none, some b => [b]
        | none, none => [] := by
  unfold closeTab newmuxCloseTab
  by_cases hlen : tabs.length ≤ 1
  · rw [if_pos hlen, if_pos hlen]
  · rw [if_neg hlen, if_neg hlen]
    simp only [closeCandidates, Option.bind_some]
    cases newmuxKnownWindowId (tabs.get i).controller (tabs.get i).files with
    | none =>
        cases newmuxWindowIdFromNativeIndex listing i with
        | none => rfl
        | some b => exact tryCandidates_one deletes b
    | some a =>
        cases newmuxWindowIdFromNativeIndex listing i with
        | none => exact tryCandidates_one deletes a
        | some b => exact tryCandidates_two deletes a b

/-- **Closing a tab deletes only its own window** exactly when it is the last
visible one, its known window goes at the first try, or no other window has its
place as tmux index. -/
theorem deletes_own_window_iff (tabs : List NativeTab) (i : Fin tabs.length) (listing : Listing)
    (deletes : Nat → Nat → Bool) :
    DeletesOwnWindow tabs i listing deletes ↔
      tabs.length ≤ 1 ∨ KnownIsDeleted (tabs.get i) deletes ∨ IndexIsOwn (tabs.get i) listing i := by
  unfold DeletesOwnWindow
  rw [closeTab_deletes]
  by_cases hlen : tabs.length ≤ 1
  · simp [hlen]
  · rw [if_neg hlen]
    unfold KnownIsDeleted IndexIsOwn
    cases hknown : newmuxKnownWindowId (tabs.get i).controller (tabs.get i).files with
    | none =>
        cases hindex : newmuxWindowIdFromNativeIndex listing i with
        | none => simp
        | some b => simp [hlen]
    | some a =>
        have hown : (tabs.get i).window = some a := (tabs.get i).known hknown
        cases hindex : newmuxWindowIdFromNativeIndex listing i with
        | none => simp [hown, -List.get_eq_getElem]
        | some b => cases hdel : deletes 0 a <;> simp [hlen, hown, hdel, -List.get_eq_getElem]

/-! ## A pending tab over a gap -/

/-- A tab that shows window `w`. -/
def boundTab (w : Nat) : NativeTab where
  controller := ⟨some w, false⟩
  files := .none
  window := some w
  bound := fun _ h => h
  written := fun _ h => by cases h

/-- A tab whose start script has not made a window yet. -/
def pendingTab : NativeTab where
  controller := ⟨none, true⟩
  files := .none
  window := none
  bound := fun _ h => h
  written := fun _ h => h

/-- Tabs of windows `@0` and `@2` at tmux indexes 0 and 2, after the window
between them was deleted, and a pending tab at place 2. Closing the pending tab
deletes `@2`. -/
theorem closing_pending_deletes_other :
    ¬ ∀ (tabs : List NativeTab) (i : Fin tabs.length) (listing : Listing)
      (deletes : Nat → Nat → Bool), DeletesOwnWindow tabs i listing deletes := by
  intro h
  have hown := h [boundTab 0, boundTab 2, pendingTab] ⟨2, by decide⟩ [(0, 0), (2, 2)]
    fun _ _ => true
  have hdel : (2 : Nat) ∈ (closeTab [boundTab 0, boundTab 2, pendingTab] ⟨2, by decide⟩
      [(0, 0), (2, 2)] fun _ _ => true).deletes := by decide
  have hnone : (none : Option Nat) = some 2 := hown 2 hdel
  cases hnone

end Newmux.Theorems
