import Newmux.Theorems.PaneUndo
import Newmux.Theorems.TabUndo

/-!
# Undo

Tabs and panes are closed and reopened in any order, while the programs in them go on
printing. When every close has been undone by a reopen, the tab bars, the windows and
the stacks are as they were before the first.
-/

namespace Newmux.Theorems

open Newmux.Base Newmux.Tmux Newmux.Recovery Newmux.Logic

/-- A program prints to its pane. -/
def Prints : State → Event → Prop
  | _, .output _ _ => True
  | _, _ => False

instance : (σ : State) → (l : Event) → Decidable (Prints σ l)
  | _, .output _ _ => .isTrue trivial
  | _, .softDeletePane _ => .isFalse id
  | _, .softDeleteWindow _ => .isFalse id
  | _, .deleteWindow _ _ _ => .isFalse id
  | _, .reserveLatestClosed _ => .isFalse id
  | _, .claimReservedClosed _ _ _ => .isFalse id
  | _, .releaseReservedClosed _ _ => .isFalse id
  | _, .reopenLatestClosed _ _ => .isFalse id
  | _, .clearRecentlyClosed => .isFalse id

theorem Undone.trans {σ τ υ : State} (hσ : Tidy σ) (hτ : Tidy τ) (h : Undone σ τ)
    (h' : Undone τ υ) : Undone σ υ := by
  refine ⟨h'.bars.trans h.bars, fun w hw => ?_, h'.closed.trans h.closed,
    h'.reserved.trans h.reserved⟩
  have hlinked := h.linked hσ.house.park.parks.ok.trees hτ.house.park.parks.ok.trees w
  exact (h'.windows w (hlinked.trans hw)).trans (h.windows w hw)

/-- Printing changes no tab, no window and no stack. -/
theorem prints_rest {σ : State} (h : Tidy σ) {l : Event} (hl : Prints σ l) :
    Undone σ (exec σ l) ∧ Tidy (exec σ l) := by
  cases l with
  | output wp content =>
      refine ⟨⟨rfl, fun w _ => rfl, rfl, rfl⟩, h.step trivial ⟨⟨fun hroom => ?_, fun hparks => ?_⟩,
        fun r hr => ?_⟩⟩
      · rcases hroom with hparks | hback
        · cases hparks
        · cases hback
      · cases hparks
      · cases hr
  | _ => exact absurd hl id

/-- **A reopen undoes the last close**, from any state that looks like the one the close
has left. -/
theorem reopen_undoes {σ τ : State} (h : Tidy σ) {l : Event} (hc : Closes σ l) (hτ : Tidy τ)
    (hundone : Undone (exec σ l) τ) {r : Event} (hr : Reopens τ r) :
    Undone σ (exec τ r) ∧ Tidy (exec τ r) := by
  have h' := hc.tidy h
  obtain ⟨item, hclosed, -⟩ := closes_closed h hc
  cases r with
  | reopenLatestClosed target print =>
      cases hclosed with
      | tab s wl w hdel hlast hp => exact tab_reopened h h' hdel hlast hp hτ hundone hr
      | pane s wl w wp hdel hwp hcount hp hlayout =>
          exact pane_reopened h h' hdel hwp hp hlayout hτ hundone target print
  | _ => exact absurd hr id

theorem reopens_undo_closes : TSys.Undoes Closes Reopens Prints exec Tidy Undone where
  refl := Undone.refl
  trans := Undone.trans
  keep _ _ h hc := hc.tidy h
  undo _ _ _ _ h hc hτ hundone hr := reopen_undoes h hc hτ hundone hr
  rest _ _ h hl := prints_rest h hl

/-- A pane is closed and then its tab, another program prints, the tab comes back, a
second pane is closed, and both panes come back. -/
def closeAndReopen : List Event :=
  [.softDeletePane (splitPane 1), .softDeleteWindow (tab 0),
    .output 3 ⟨[], none, none, ⟨Grid.create 80 24 2000, none⟩, false⟩,
    .reopenLatestClosed none false, .softDeletePane ⟨0, ⟨12, 1, 0⟩, some 2⟩,
    .reopenLatestClosed (some 0) false, .reopenLatestClosed none false]

end Newmux.Theorems
