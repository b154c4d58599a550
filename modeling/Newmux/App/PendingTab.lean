import Newmux.App.CloseTab

/-!
# A pending tab in the application

A tab whose window its start script is still to make: the application polls for
the `.window` file, removes the token's files, and may close the tab. Each file
access is one step, and so is each tmux command, whose answer is the server's.
-/

namespace Newmux.App

open Newmux.Base

/-- Where the close action is. -/
inductive Closer where
  | idle
  /-- The tab is closed, before `list-windows`. -/
  | listing (windowId : Option Nat) (nativeIndex : Nat) (pendingToken : Bool)
  | deleting (candidates : List Nat) (pendingToken : Bool)
  | cancelling
  | finished
deriving DecidableEq, Repr

structure PendingTab where
  files : PendingFiles
  tabOpen : Bool
  controller : Controller
  /-- `bindNewmuxPendingWindow` is still polling. -/
  polling : Bool
  /-- The block it has queued on the main thread. -/
  bindQueued : Option Nat
  /-- The files its cleanup is still to remove. -/
  cleanup : List PendingFile
  closer : Closer
deriving DecidableEq, Repr

/-- A tab that has just been opened for a token. -/
def PendingTab.opened : PendingTab where
  files := .none
  tabOpen := true
  controller := ⟨none, true⟩
  polling := true
  bindQueued := none
  cleanup := []
  closer := .idle

/-- The steps of the application that no tmux command answers. -/
inductive TabStep where
  /-- A poll that finds the `.window` file, and the end of the polls. -/
  | poll
  | deadline
  | bind
  | cleanup
  /-- `newmuxCloseTab` on the main thread; `held` is a tab that `onCloseTab`
  does not close yet. -/
  | close (nativeIndex : Option Nat) (visibleTabs : Nat) (held : Bool)
  | cancelTab
deriving DecidableEq, Repr

/-- The step runs on the application's main thread. -/
def TabStep.onMainThread : TabStep → Bool
  | .bind | .close _ _ _ => true
  | _ => false

/-- The candidates left to try; with none left a pending tab is cancelled. -/
def closerTries (candidates : List Nat) (pendingToken : Bool) : Closer :=
  match candidates with
  | [] => if pendingToken then .cancelling else .finished
  | candidates => .deleting candidates pendingToken

/-- The close action once the tab is closed. -/
def closerStarts (tab : PendingTab) (nativeIndex : Option Nat) (visibleTabs : Nat) : Closer :=
  let windowId := newmuxKnownWindowId tab.controller tab.files
  let pendingToken := tab.controller.newmuxPendingWindowToken
  if visibleTabs ≤ 1 then .finished
  else
    match nativeIndex with
    | some nativeIndex => .listing windowId nativeIndex pendingToken
    | none => closerTries windowId.toList pendingToken

def tabStep (tab : PendingTab) : TabStep → Option PendingTab
  | .poll =>
      match tab.polling, tab.files.window with
      | true, some w =>
          some { tab with
            polling := false, bindQueued := some w, cleanup := cleanupNewmuxPendingFiles }
      | _, _ => none
  | .deadline =>
      if tab.polling then some { tab with polling := false, cleanup := cleanupNewmuxPendingFiles }
      else none
  | .bind =>
      tab.bindQueued.map fun w => { tab with controller := ⟨some w, false⟩, bindQueued := none }
  | .cleanup =>
      match tab.cleanup with
      | file :: rest => some { tab with files := tab.files.remove file, cleanup := rest }
      | [] => none
  | .close nativeIndex visibleTabs held =>
      if tab.closer = .idle then
        some { tab with tabOpen := held, closer := closerStarts tab nativeIndex visibleTabs }
      else none
  | .cancelTab =>
      if tab.closer = .cancelling then
        some { tab with closer := .finished, files := { tab.files with cancelled := true } }
      else none

/-- `list-windows` has answered. -/
def closerListed (tab : PendingTab) (windows : Listing) : Option PendingTab :=
  match tab.closer with
  | .listing windowId nativeIndex pendingToken =>
      some { tab with
        closer := closerTries (closeCandidates windows windowId (some nativeIndex)) pendingToken }
  | _ => none

/-- The window the close action deletes next. -/
def Closer.candidate : Closer → Option Nat
  | .deleting candidates _ => candidates.head?
  | _ => none

/-- A `newmux-delete-window` of the close action has answered. -/
def closerTried (tab : PendingTab) (deleted : Bool) : Option PendingTab :=
  match tab.closer with
  | .deleting (_ :: rest) pendingToken =>
      some { tab with closer := if deleted then .finished else closerTries rest pendingToken }
  | _ => none

/-! ## What the steps leave alone -/

/-- No step of the application writes the `.sequence` file. -/
theorem tabStep_sequence {tab tab' : PendingTab} {l : TabStep} (h : tabStep tab l = some tab')
    {sequence : String} (hs : tab'.files.sequence = some sequence) :
    tab.files.sequence = some sequence := by
  cases l with
  | poll =>
      simp only [tabStep] at h
      split at h
      · cases h
        exact hs
      · cases h
  | deadline =>
      simp only [tabStep] at h
      split at h
      · cases h
        exact hs
      · cases h
  | bind =>
      simp only [tabStep, Option.map_eq_some_iff] at h
      obtain ⟨w, -, rfl⟩ := h
      exact hs
  | cleanup =>
      simp only [tabStep] at h
      split at h
      · next file rest _ =>
          cases h
          cases file with
          | window => exact hs
          | sequence => cases hs
          | cancelled => exact hs
      · cases h
  | close nativeIndex visibleTabs held =>
      simp only [tabStep] at h
      split at h
      · cases h
        exact hs
      · cases h
  | cancelTab =>
      simp only [tabStep] at h
      split at h
      · cases h
        exact hs
      · cases h

/-- A close action that has finished stays so. -/
theorem tabStep_finished {tab tab' : PendingTab} {l : TabStep} (h : tabStep tab l = some tab')
    (hfin : tab.closer = .finished) : tab'.closer = .finished := by
  cases l with
  | poll =>
      simp only [tabStep] at h
      split at h
      · cases h
        exact hfin
      · cases h
  | deadline =>
      simp only [tabStep] at h
      split at h
      · cases h
        exact hfin
      · cases h
  | bind =>
      simp only [tabStep, Option.map_eq_some_iff] at h
      obtain ⟨w, -, rfl⟩ := h
      exact hfin
  | cleanup =>
      simp only [tabStep] at h
      split at h
      · cases h
        exact hfin
      · cases h
  | close nativeIndex visibleTabs held => simp [tabStep, hfin] at h
  | cancelTab => simp [tabStep, hfin] at h

/-- Only the main thread starts a close action. -/
theorem tabStep_idle {tab tab' : PendingTab} {l : TabStep} (h : tabStep tab l = some tab')
    (hidle : tab.closer = .idle) (hthread : l.onMainThread = false) : tab'.closer = .idle := by
  cases l with
  | poll =>
      simp only [tabStep] at h
      split at h
      · cases h
        exact hidle
      · cases h
  | deadline =>
      simp only [tabStep] at h
      split at h
      · cases h
        exact hidle
      · cases h
  | cleanup =>
      simp only [tabStep] at h
      split at h
      · cases h
        exact hidle
      · cases h
  | cancelTab => simp [tabStep, hidle] at h
  | bind | close => cases hthread

/-! ## What a close action without a token knows -/

/-- A controller without a token knows its window, and so does a close action
that found no token. -/
structure PendingTab.Knows (tab : PendingTab) : Prop where
  bound : tab.controller.newmuxPendingWindowToken = false → tab.controller.newmuxWindowId ≠ none
  listing : ∀ windowId nativeIndex, tab.closer = .listing windowId nativeIndex false →
    windowId ≠ none

/-- The files and the polling do not matter to it. -/
theorem PendingTab.Knows.congr {tab tab' : PendingTab} (h : tab.Knows)
    (hcontroller : tab'.controller = tab.controller) (hcloser : tab'.closer = tab.closer) :
    tab'.Knows :=
  ⟨hcontroller ▸ h.bound, hcloser ▸ h.listing⟩

/-- If the next delete is refused too, the close action can not cancel the tab,
since it is bound. -/
def Closer.lastResort : Closer → Bool
  | .deleting [_] pendingToken => !pendingToken
  | _ => false

/-- The close action ends without a cancellation only for a bound tab. -/
theorem closerTries_finished {candidates : List Nat} {pendingToken : Bool}
    (h : closerTries candidates pendingToken = .finished) :
    candidates = [] ∧ pendingToken = false := by
  unfold closerTries at h
  cases candidates with
  | nil => cases pendingToken <;> simp_all
  | cons w rest => cases h

theorem closerTries_busy (candidates : List Nat) (pendingToken : Bool) :
    closerTries candidates pendingToken ≠ .idle ∧
      ∀ windowId nativeIndex pending,
        closerTries candidates pendingToken ≠ .listing windowId nativeIndex pending := by
  unfold closerTries
  cases candidates with
  | nil => cases pendingToken <;> simp
  | cons w rest => simp

theorem PendingTab.Knows.known {tab : PendingTab} (h : tab.Knows)
    (hp : tab.controller.newmuxPendingWindowToken = false) :
    newmuxKnownWindowId tab.controller tab.files ≠ none := by
  have hbound := h.bound hp
  unfold newmuxKnownWindowId
  cases hid : tab.controller.newmuxWindowId with
  | none => exact absurd hid hbound
  | some w => simp

/-- With another tab visible, the close action goes on. -/
theorem closerStarts_busy {tab : PendingTab} (h : tab.Knows) (nativeIndex : Option Nat)
    {visibleTabs : Nat} (hvisible : 1 < visibleTabs) :
    closerStarts tab nativeIndex visibleTabs ≠ .idle ∧
      closerStarts tab nativeIndex visibleTabs ≠ .finished ∧
      ∀ windowId index, closerStarts tab nativeIndex visibleTabs = .listing windowId index false →
        windowId ≠ none := by
  simp only [closerStarts, if_neg (Nat.not_le.mpr hvisible)]
  cases nativeIndex with
  | some nativeIndex =>
      refine ⟨Closer.noConfusion, Closer.noConfusion, fun windowId index hc => ?_⟩
      simp only [Closer.listing.injEq] at hc
      obtain ⟨rfl, -, hp⟩ := hc
      exact h.known hp
  | none =>
      simp only
      have hbusy := closerTries_busy (newmuxKnownWindowId tab.controller tab.files).toList
        tab.controller.newmuxPendingWindowToken
      refine ⟨hbusy.1, fun hc => ?_, fun windowId index hc => absurd hc (hbusy.2 _ _ _)⟩
      obtain ⟨hnil, hp⟩ := closerTries_finished hc
      have := h.known hp
      simp_all

/-- The windows are listed, and there is one to delete or a tab to cancel. -/
theorem closerListed_busy {tab tab' : PendingTab} (h : tab.Knows) {windows : Listing}
    (hstep : closerListed tab windows = some tab') :
    tab' = { tab with closer := tab'.closer } ∧ tab'.Knows ∧ tab'.closer ≠ .idle ∧
      tab'.closer ≠ .finished := by
  unfold closerListed at hstep
  split at hstep
  · next windowId nativeIndex pendingToken hc =>
      cases hstep
      have hbusy := closerTries_busy (closeCandidates windows windowId (some nativeIndex))
        pendingToken
      refine ⟨rfl, ⟨h.bound, fun _ _ hc => absurd hc (hbusy.2 _ _ _)⟩, hbusy.1, fun hfin => ?_⟩
      obtain ⟨hnil, rfl⟩ := closerTries_finished hfin
      have hne := h.listing _ _ hc
      unfold closeCandidates at hnil
      have htoList := (List.append_eq_nil_iff.mp hnil).1
      simp_all
  · cases hstep

/-- A delete that was refused is not the last thing the close action does,
unless it was its last resort. -/
theorem closerTried_busy {tab tab' : PendingTab} (h : tab.Knows) {deleted : Bool}
    (hstep : closerTried tab deleted = some tab') :
    tab' = { tab with closer := tab'.closer } ∧ tab'.Knows ∧ tab'.closer ≠ .idle ∧
      (tab'.closer = .finished → deleted = true ∨ tab.closer.lastResort = true) := by
  unfold closerTried at hstep
  split at hstep
  · next w rest pendingToken hc =>
      cases hstep
      have hbusy := closerTries_busy rest pendingToken
      cases deleted with
      | true =>
          exact ⟨rfl, ⟨h.bound, fun _ _ hc => (by cases hc)⟩, Closer.noConfusion, fun _ => .inl rfl⟩
      | false =>
          refine ⟨rfl, ⟨h.bound, fun _ _ hc => absurd hc (hbusy.2 _ _ _)⟩, hbusy.1,
            fun hfin => .inr ?_⟩
          obtain ⟨rfl, rfl⟩ := closerTries_finished hfin
          rw [hc]
          rfl
  · cases hstep

end Newmux.App
