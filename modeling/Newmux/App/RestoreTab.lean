import Newmux.App.PendingTab
import Newmux.Recovery.System

/-!
# A pending restore tab

The restore action reserves the item at the head of the closed stack, opens a
tab for it and hands its number to the tab's start script through the
`.sequence` file; the script claims the number, or releases it. The tmux
commands are the server's own, the file accesses are single steps, and the
application may close the tab at any time.
-/

namespace Newmux.App

open Newmux.Base Newmux.Tmux Newmux.Recovery

/-- Where the restore action is. -/
inductive RestoreAction where
  | idle
  /-- The reserve has answered; the main thread is still to act on it. -/
  | answered (item : Option ClosedItem)
  /-- The tab is posted, the `.sequence` file is still to be written. -/
  | posted (sequence : String)
  | finished
deriving DecidableEq, Repr

/-- Where the start script is. -/
inductive RestoreScript where
  | notStarted
  /-- At the head of `wait_for_pending_restore_sequence`. -/
  | waiting
  /-- The `.sequence` file is there. -/
  | reading
  /-- A number is read; the `.cancelled` file is still to be looked for. -/
  | numbered (sequence : String)
  /-- No number is read; the `.cancelled` file is still to be looked for. -/
  | unnumbered
  | claiming (sequence : String)
  | releasing (sequence : String)
  | writing (windowId : Nat)
  | attaching (windowId : Nat)
  /-- It has ended; `gaveUp` without having read a number. -/
  | finished (gaveUp : Bool)
deriving DecidableEq, Repr

/-- The server, the application and the start script. -/
structure RestoreRun where
  tmux : State
  /-- `NEWMUX_SESSION`. -/
  primary : String
  action : RestoreAction
  script : RestoreScript
  tab : PendingTab
  /-- The item that was reserved, and whether a claim has restored it. -/
  item : Option ClosedItem
  restored : Bool

inductive RestoreStep where
  | reserve
  /-- The main thread acts on the answer; `opened` is whether `ghosttyNewTab`
  makes a tab. -/
  | openTab (opened : Bool)
  | writeSequence
  | lookSequence
  | readSequence
  | lookCancelled
  | timeout
  /-- `newmux-claim-reserved-closed`, with the primary session as target if it
  is found. -/
  | claim (target : Option Nat)
  | release
  | writeWindow
  | attach
  | app (l : TabStep)
  | listWindows
  /-- A `newmux-delete-window` of the close action; without a target its window
  is not found. -/
  | deleteCandidate (target : Option Target)

/-- `validate_restore_sequence`. -/
def validateRestoreSequence (sequence : String) : Bool :=
  !sequence.toList.isEmpty && sequence.toList.all Char.isDigit

/-- `list-windows -t` of the primary session. -/
def listWindows (sv : Server) (primary : String) : Listing :=
  match sessionFind sv primary with
  | none => []
  | some s => s.windows.map fun wl => ((wl.idx : Int), wl.window)

/-- `claim_reserved_restore_window_id`: the state after the claim, and the
window that it prints when it restored one. -/
def claimReservedRestoreWindowId (tmux : State) (sequence : String) (target : Option Nat) :
    State × Option Nat :=
  let item : Option ClosedItem := match reservedSequence (some sequence) with
    | .error _ => none
    | .ok n => tmux.reservedStack.find? (fun item => item.sequence == n)
  let (tmux, result) := cmdNewmuxClaimReservedClosedExec tmux (some sequence) target true
  match result.prints, item with
  | _ :: _, some item => (tmux, if item.type = .window then some item.windowId else none)
  | _, _ => (tmux, none)

/-- One step of the run. -/
def restoreStep (a : RestoreRun) : RestoreStep → Option RestoreRun
  | .reserve =>
      if a.action = .idle then
        let item := a.tmux.closedStack.head?
        some { a with
          tmux := (cmdNewmuxReserveLatestClosedExec a.tmux true).1
          action := .answered item, item }
      else none
  | .openTab opened =>
      match a.action with
      | .answered (some item) =>
          if item.type = .window then
            some { a with
              action := .posted (toString item.sequence)
              script := if opened then .waiting else .notStarted }
          else some { a with action := .finished }
      | .answered none => some { a with action := .finished }
      | _ => none
  | .writeSequence =>
      match a.action with
      | .posted sequence =>
          some { a with
            action := .finished
            tab := { a.tab with files := { a.tab.files with sequence := some sequence } } }
      | _ => none
  | .lookSequence =>
      if a.script = .waiting then
        some { a with
          script := if a.tab.files.sequence.isSome then .reading else .unnumbered }
      else none
  | .readSequence =>
      if a.script = .reading then
        some { a with
          script :=
            match a.tab.files.sequence.filter validateRestoreSequence with
            | some sequence => .numbered sequence
            | none => .unnumbered }
      else none
  | .lookCancelled =>
      match a.script with
      | .numbered sequence =>
          some { a with
            script := if a.tab.files.cancelled then .releasing sequence else .claiming sequence }
      | .unnumbered =>
          some { a with script := if a.tab.files.cancelled then .finished true else .waiting }
      | _ => none
  | .timeout => if a.script = .waiting then some { a with script := .finished true } else none
  | .claim target =>
      match a.script with
      | .claiming sequence =>
          let (tmux, windowId) := claimReservedRestoreWindowId a.tmux sequence target
          some { a with
            tmux
            script := match windowId with
              | some windowId => .writing windowId
              | none => .releasing sequence
            restored := windowId.isSome }
      | _ => none
  | .release =>
      match a.script with
      | .releasing sequence =>
          some { a with
            tmux := (cmdNewmuxReleaseReservedClosedExec a.tmux (some sequence) true).1
            script := .finished false }
      | _ => none
  | .writeWindow =>
      match a.script with
      | .writing windowId =>
          some { a with
            script := .attaching windowId
            tab := { a.tab with files := { a.tab.files with window := some windowId } } }
      | _ => none
  | .attach =>
      match a.script with
      | .attaching _ => some { a with script := .finished false }
      | _ => none
  | .app l =>
      -- the main thread is busy until the action has written the `.sequence` file
      if a.script = .notStarted ∨ (l.onMainThread = true ∧ a.action ≠ .finished) then none
      else (tabStep a.tab l).map fun tab => { a with tab }
  | .listWindows =>
      (closerListed a.tab (listWindows a.tmux.server a.primary)).map fun tab => { a with tab }
  | .deleteCandidate target =>
      match a.tab.closer.candidate, target with
      | none, _ => none
      | some _, none => (closerTried a.tab false).map fun tab => { a with tab }
      | some w, some target =>
          if target.wl.window = w then
            let (tmux, result) := cmdNewmuxDeleteWindowExec a.tmux (some a.primary) true target
            (closerTried a.tab (result.retval == .normal)).map fun tab => { a with tmux, tab }
          else none

/-- A restore is about to run, over any server: the numbers of the closed items
are in range, and the one at the head is not that of a reserved item. -/
structure RestoreStart (a : RestoreRun) : Prop where
  action : a.action = .idle
  script : a.script = .notStarted
  tab : a.tab = .opened
  item : a.item = none
  restored : a.restored = false
  count : a.tmux.closedCount = a.tmux.closedStack.length
  bound : a.tmux.closedStack.length ≤ newmuxRecoveryMaxItems
  number : ∀ item ∈ a.tmux.closedStack.head?, 0 < item.sequence ∧ item.sequence < 4294967296 ∧
    ∀ x ∈ a.tmux.reservedStack, x.sequence ≠ item.sequence

/-- Every interleaving of the restore action, the close action, the cleanup and
the start script. -/
def restoreSystem : TSys RestoreRun RestoreStep where
  init := RestoreStart
  step a l a' := restoreStep a l = some a'

end Newmux.App
