import Newmux.Base.TSys

/-!
# Native tabs and closing one

The application's side of a tab: the controller of a native tab, the files
through which it hears from the tab's start script, and the choice of the tmux
window that closing the tab deletes. Window ids are the numbers after the `@`.
-/

namespace Newmux.App

open Newmux.Base

/-- `list-windows` of the primary session: index and id, in index order. -/
abbrev Listing := List (Int × Nat)

/-- The ids of the listed windows. -/
def Listing.ids (listing : Listing) : List Nat := listing.map Prod.snd

/-- The files of a token in the pending directory. -/
structure PendingFiles where
  window : Option Nat
  sequence : Option String
  cancelled : Bool
deriving DecidableEq, Repr

/-- One of the three files. -/
inductive PendingFile where
  | window
  | sequence
  | cancelled
deriving DecidableEq, Repr

def PendingFiles.none : PendingFiles := ⟨.none, .none, false⟩

def PendingFiles.remove (files : PendingFiles) : PendingFile → PendingFiles
  | .window => { files with window := .none }
  | .sequence => { files with sequence := .none }
  | .cancelled => { files with cancelled := false }

/-- `cleanupNewmuxPendingFiles` removes the files in this order. -/
def cleanupNewmuxPendingFiles : List PendingFile := [.window, .sequence, .cancelled]

/-- What a `TerminalController` knows of its window: `newmuxWindowId`, and
whether the token and directory of a pending window are set. -/
structure Controller where
  newmuxWindowId : Option Nat
  newmuxPendingWindowToken : Bool
deriving DecidableEq, Repr

/-- `resolvedNewmuxPendingWindowId`. -/
def resolvedNewmuxPendingWindowId (controller : Controller) (files : PendingFiles) : Option Nat :=
  if controller.newmuxPendingWindowToken then files.window else none

/-- `newmuxKnownWindowId`. -/
def newmuxKnownWindowId (controller : Controller) (files : PendingFiles) : Option Nat :=
  match controller.newmuxWindowId with
  | some windowId => some windowId
  | none => resolvedNewmuxPendingWindowId controller files

/-- `newmuxWindowIdFromNativeIndex`: the window whose tmux index is the tab's
place in the tab bar. -/
def newmuxWindowIdFromNativeIndex (listing : Listing) (targetIndex : Nat) : Option Nat :=
  (listing.find? (fun window => window.1 == (targetIndex : Int))).map Prod.snd

/-- The candidates of `newmuxCloseTab`, in the order it tries them. -/
def closeCandidates (listing : Listing) (windowId : Option Nat) (nativeIndex : Option Nat) :
    List Nat :=
  windowId.toList ++ (nativeIndex.bind (newmuxWindowIdFromNativeIndex listing)).toList

/-! ## The close action on its own -/

/-- What the close action has done besides closing the tab. -/
structure CloseResult where
  /-- The targets of its `newmux-delete-window` commands. -/
  deletes : List Nat
  /-- It wrote the `.cancelled` file. -/
  cancels : Bool
deriving DecidableEq, Repr

/-- The `for` over the candidates: `deletes n w` is whether the `n`th command,
a delete of `w`, succeeds. -/
def tryCandidates (deletes : Nat → Nat → Bool) : Nat → List Nat → List Nat × Bool
  | _, [] => ([], false)
  | n, candidate :: rest =>
      if deletes n candidate then ([candidate], true)
      else
        let (tried, deleted) := tryCandidates deletes (n + 1) rest
        (candidate :: tried, deleted)

/-- `newmuxCloseTab` of the tab at `nativeIndex` among `visibleTabs`. -/
def newmuxCloseTab (controller : Controller) (files : PendingFiles) (nativeIndex visibleTabs : Nat)
    (listing : Listing) (deletes : Nat → Nat → Bool) : CloseResult :=
  if visibleTabs ≤ 1 then ⟨[], false⟩
  else
    match closeCandidates listing (newmuxKnownWindowId controller files) (some nativeIndex) with
    | [] => ⟨[], controller.newmuxPendingWindowToken⟩
    | candidates =>
        let (tried, deleted) := tryCandidates deletes 0 candidates
        ⟨tried, !deleted && controller.newmuxPendingWindowToken⟩

/-- A native tab. Its window is the one it shows or, while it is pending, the
one its start script has made; what the application knows of it is right. -/
structure NativeTab where
  controller : Controller
  files : PendingFiles
  window : Option Nat
  bound : ∀ w, controller.newmuxWindowId = some w → window = some w
  written : ∀ w, files.window = some w → window = some w

/-- A known window is the tab's own. -/
theorem NativeTab.known (tab : NativeTab) {w : Nat}
    (h : newmuxKnownWindowId tab.controller tab.files = some w) : tab.window = some w := by
  unfold newmuxKnownWindowId at h
  cases hid : tab.controller.newmuxWindowId with
  | some v =>
      rw [hid] at h
      cases h
      exact tab.bound w hid
  | none =>
      rw [hid] at h
      simp only [resolvedNewmuxPendingWindowId] at h
      split at h
      · exact tab.written w h
      · cases h

/-- Closing the tab at place `i` of the tab bar. -/
def closeTab (tabs : List NativeTab) (i : Fin tabs.length) (listing : Listing)
    (deletes : Nat → Nat → Bool) : CloseResult :=
  newmuxCloseTab tabs[i].controller tabs[i].files i tabs.length listing deletes

end Newmux.App
