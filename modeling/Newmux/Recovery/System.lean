import Newmux.Base.TSys
import Newmux.Recovery.Create

/-!
# Runs of the recovery commands

The recovery commands as a transition system over the server and the recovery
stacks. Between commands the programs in the panes may print, set the dirty
option and change mode, but no process exits. The command queue resolves a
target before a command runs, so a target names a session, one of its winlinks
and a pane of that winlink's window, and no run targets the recovery session.
-/

namespace Newmux.Recovery

open Newmux.Base Newmux.Tmux

/-- What a pane's program can change. -/
structure PaneContent where
  modes : List PaneMode
  osName : Option String
  dirtyOption : Option String
  base : Screen
  historyProtected : Bool

/-- The steps of a run. -/
inductive Event where
  | softDeletePane (target : Target)
  | softDeleteWindow (target : Target)
  | deleteWindow (primary : Option String) (print : Bool) (target : Target)
  | reserveLatestClosed (print : Bool)
  | claimReservedClosed (value : Option String) (target : Option Nat) (print : Bool)
  | releaseReservedClosed (value : Option String) (print : Bool)
  | reopenLatestClosed (target : Option Nat) (print : Bool)
  | clearRecentlyClosed
  | output (wp : Nat) (content : PaneContent)

/-- A pane whose program has printed. -/
def paneOutput (sv : Server) (wp : Nat) (content : PaneContent) : Server :=
  { sv with
    panes := Table.modify sv.panes wp fun p =>
      { p with
        modes := content.modes, osName := content.osName, dirtyOption := content.dirtyOption,
        base := content.base, historyProtected := content.historyProtected } }

/-- Run one event. -/
def exec (σ : State) : Event → State
  | .softDeletePane target => (cmdNewmuxSoftDeletePaneExec σ target).1
  | .softDeleteWindow target => (cmdNewmuxSoftDeleteWindowExec σ target).1
  | .deleteWindow primary print target => (cmdNewmuxDeleteWindowExec σ primary print target).1
  | .reserveLatestClosed print => (cmdNewmuxReserveLatestClosedExec σ print).1
  | .claimReservedClosed value target print =>
      (cmdNewmuxClaimReservedClosedExec σ value target print).1
  | .releaseReservedClosed value print => (cmdNewmuxReleaseReservedClosedExec σ value print).1
  | .reopenLatestClosed target print => (cmdNewmuxReopenLatestClosedExec σ target print).1
  | .clearRecentlyClosed => (cmdNewmuxClearRecentlyClosedExec σ).1
  | .output wp content => { σ with server := paneOutput σ.server wp content }

/-- A target as the command queue resolves it, outside the recovery session. -/
def Target.Valid (sv : Server) (target : Target) : Prop :=
  ∃ s ∈ sessionFindById sv target.session, s.name ≠ newmuxRecoverySession ∧
    target.wl ∈ s.windows ∧ ∃ w ∈ windowFindById sv target.wl.window,
      ∀ wp ∈ target.wp, wp ∈ w.panes

instance (sv : Server) (target : Target) : Decidable (target.Valid sv) :=
  inferInstanceAs (Decidable (∃ s ∈ sessionFindById sv target.session, _ ∧ _ ∧
    ∃ w ∈ windowFindById sv target.wl.window, ∀ wp ∈ target.wp, wp ∈ w.panes))

/-- The events that can happen in a state. -/
def Event.Valid (sv : Server) : Event → Prop
  | .softDeletePane target => target.Valid sv
  | .softDeleteWindow target => target.Valid sv
  | .deleteWindow primary _ target => target.Valid sv ∧ primary ≠ some newmuxRecoverySession
  | _ => True

instance (sv : Server) : (l : Event) → Decidable (l.Valid sv)
  | .softDeletePane target => inferInstanceAs (Decidable (target.Valid sv))
  | .softDeleteWindow target => inferInstanceAs (Decidable (target.Valid sv))
  | .deleteWindow _ _ target => inferInstanceAs (Decidable (target.Valid sv ∧ _))
  | .reserveLatestClosed _ => .isTrue trivial
  | .claimReservedClosed _ _ _ => .isTrue trivial
  | .releaseReservedClosed _ _ => .isTrue trivial
  | .reopenLatestClosed _ _ => .isTrue trivial
  | .clearRecentlyClosed => .isTrue trivial
  | .output _ _ => .isTrue trivial

/-- Nothing has been closed yet. -/
structure Fresh (σ : State) : Prop where
  closedStack : σ.closedStack = []
  reservedStack : σ.reservedStack = []
  closedCount : σ.closedCount = 0
  closedNextSequence : σ.closedNextSequence = 0

/-- The runs from the states `Init` over which nothing has been closed. -/
def recoverySystem (Init : Server → Prop) : TSys State Event where
  init σ := Fresh σ ∧ Init σ.server
  step σ l σ' := l.Valid σ.server ∧ σ' = exec σ l

/-- A list of valid events that satisfy the condition runs. -/
theorem recovery_run {Init : Server → Prop} {Good : State → Event → Prop} {σ : State}
    (hσ : (recoverySystem Init).ReachableWith Good σ) {ls : List Event}
    (hrun : TSys.RunOk (fun σ l => Good σ l ∧ l.Valid σ.server) exec σ ls) :
    (recoverySystem Init).ReachableWith Good (TSys.runFrom exec σ ls) := by
  have hstep : ∀ (σ : State) (l : Event), l.Valid σ.server →
      (recoverySystem Init).step σ l (exec σ l) := fun _ _ h => ⟨h, rfl⟩
  exact TSys.reachableWith_run hstep hσ hrun

end Newmux.Recovery
