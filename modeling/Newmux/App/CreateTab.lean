import Newmux.App.PendingTab

/-!
# A pending create tab

The start script of a new tab creates the tab's tmux window and attaches to it,
while the application waits for the `.window` file, removes the token's files,
and may close the tab. Each file access and each tmux command is one step; what
a tmux command answers, and the windows it leaves in the primary session, are
the server's part.
-/

namespace Newmux.App

open Newmux.Base

/-- Where the start script is. -/
inductive CreateScript where
  /-- Before the first `pending_attach_cancelled`. -/
  | checking
  | creating
  /-- Before the create without a target. -/
  | retrying
  /-- The window is created, before the second `pending_attach_cancelled`. -/
  | created (windowId : Nat)
  | deleting (windowId : Nat)
  | writing (windowId : Nat)
  | attaching (windowId : Nat)
  | finished (attached : Option Nat)
deriving DecidableEq, Repr

/-- The start script, the application and the primary session's windows. -/
structure CreateRun where
  script : CreateScript
  /-- `NEWMUX_CREATE_TARGET_WINDOW` is set. -/
  hasTarget : Bool
  windows : Listing
  tab : PendingTab
  /-- The window the script's create has made. -/
  made : Option Nat
deriving DecidableEq, Repr

inductive CreateStep where
  /-- `pending_attach_cancelled`, the first or the second. -/
  | check
  /-- `newmux-create-window`: the window it prints and the windows then. -/
  | create (result : Option Nat) (windows : Listing)
  /-- The script's `newmux-delete-window`. -/
  | deleteCreated (deleted : Bool) (windows : Listing)
  | writeWindow
  | attach
  | app (l : TabStep)
  /-- The close action's `list-windows`. -/
  | listWindows
  /-- A `newmux-delete-window` of the close action. -/
  | deleteCandidate (deleted : Bool) (windows : Listing)
deriving DecidableEq, Repr

/-- A command has added the new window `w`, and may have moved others. -/
def Added (before after : Listing) (w : Nat) : Prop :=
  w ∉ before.ids ∧ after.ids.Perm (w :: before.ids)

/-- A delete of `w` has removed it, or was refused. -/
def Deleted (before after : Listing) (w : Nat) (deleted : Bool) : Prop :=
  after.ids.Perm (if deleted then before.ids.filter (· != w) else before.ids)

instance (before after : Listing) (w : Nat) : Decidable (Added before after w) :=
  inferInstanceAs (Decidable (_ ∧ List.Perm _ _))

instance (before after : Listing) (w : Nat) (deleted : Bool) :
    Decidable (Deleted before after w deleted) :=
  inferInstanceAs (Decidable (List.Perm _ _))

/-- One step of either party. -/
def createStep (a : CreateRun) : CreateStep → Option CreateRun
  | .check =>
      match a.script with
      | .checking =>
          some { a with script := if a.tab.files.cancelled then .finished none else .creating }
      | .created w =>
          some { a with script := if a.tab.files.cancelled then .deleting w else .writing w }
      | _ => none
  | .create (some w) windows =>
      if (a.script = .creating ∨ a.script = .retrying) ∧ Added a.windows windows w then
        some { a with script := .created w, windows, made := some w }
      else none
  | .create none _ =>
      if a.script = .creating then
        some { a with script := if a.hasTarget then .retrying else .finished none }
      else if a.script = .retrying then some { a with script := .finished none }
      else none
  | .deleteCreated deleted windows =>
      match a.script with
      | .deleting w =>
          if Deleted a.windows windows w deleted then
            some { a with script := .finished none, windows }
          else none
      | _ => none
  | .writeWindow =>
      match a.script with
      | .writing w =>
          some { a with
            script := .attaching w
            tab := { a.tab with files := { a.tab.files with window := some w } } }
      | _ => none
  | .attach =>
      match a.script with
      | .attaching w =>
          -- `select-window` fails when the window is gone
          some { a with script := .finished (if w ∈ a.windows.ids then some w else none) }
      | _ => none
  | .app l => (tabStep a.tab l).map fun tab => { a with tab }
  | .listWindows => (closerListed a.tab a.windows).map fun tab => { a with tab }
  | .deleteCandidate deleted windows =>
      match a.tab.closer.candidate with
      | some w =>
          if Deleted a.windows windows w deleted then
            (closerTried a.tab deleted).map fun tab => { a with windows, tab }
          else none
      | none => none

/-- A tab whose start script is about to run, over any windows. -/
def CreateRun.start (hasTarget : Bool) (windows : Listing) : CreateRun where
  script := .checking
  hasTarget := hasTarget
  windows := windows
  tab := .opened
  made := none

/-- Every interleaving of the two. -/
def createSystem : TSys CreateRun CreateStep where
  init a := ∃ hasTarget windows, a = .start hasTarget windows
  step a l a' := createStep a l = some a'

end Newmux.App
