import Newmux.App.CreateTab

/-!
# Ghost windows

A window that a pending tab's start script has created must not outlive the tab.
The script looks for the `.cancelled` file twice and never after its second
look, so a cancellation that is written later, or removed earlier, leaves the
window in the primary session with no tab. The application in turn looks for the
`.window` file for eight seconds, and a window that is written down later is one no
tab is ever bound to.
-/

namespace Newmux.Theorems

open Newmux.Base Newmux.App

/-- The tab is bound to the window, or its bind is queued on the main thread, or the
poll has the file to find. -/
def BoundTo (tab : PendingTab) (w : Nat) : Prop :=
  tab.controller.newmuxWindowId = some w ∨ tab.bindQueued = some w ∨
    (tab.polling = true ∧ tab.files.window = some w)

/-- When the script and the close action have finished, the tab is open and bound to
the created window, to which the script has attached, or the window is gone. -/
def NoGhost (a : CreateRun) : Prop :=
  ∀ r, a.script = .finished r → a.tab.closer = .idle ∨ a.tab.closer = .finished →
    ∀ w, a.made = some w →
      (a.tab.tabOpen = true ∧ r = some w ∧ BoundTo a.tab w) ∨ w ∉ a.windows.ids

/-- The script is still to look for the `.cancelled` file. -/
def looksAgain : CreateScript → Bool
  | .checking | .creating | .retrying | .created _ => true
  | _ => false

/-- The script ends, or has ended, without a window to attach to. -/
def givesUp : CreateScript → Bool
  | .deleting _ | .finished none => true
  | _ => false

/-- The steps that keep the two parties together: the closed tab is not the last
visible one, a delete by the close action hits the tab's own window, a bound
tab's deletes are not all refused, the `.cancelled` file is written while the
script is still to look for it (or has ended without a window) and removed when
it is not, the script's own delete is not refused, and the poll for the `.window`
file does not run out while the tab is open and the file may still be written. -/
def Coordinated (a : CreateRun) : CreateStep → Prop
  | .app (.close _ visibleTabs _) => 1 < visibleTabs
  | .app .cancelTab => looksAgain a.script = true ∨ a.script = .finished none
  | .app .cleanup => a.tab.cleanup.head? = some .cancelled → looksAgain a.script = false
  | .app .deadline => a.tab.closer ≠ .idle ∨ givesUp a.script = true
  | .deleteCandidate deleted _ =>
      if deleted = true then a.tab.closer.candidate = a.made else a.tab.closer.lastResort = false
  | .deleteCreated deleted _ => deleted = true
  | _ => True

instance (a : CreateRun) : (l : CreateStep) → Decidable (Coordinated a l)
  | .app (.close _ visibleTabs _) => inferInstanceAs (Decidable (1 < visibleTabs))
  | .app .cancelTab => inferInstanceAs (Decidable (_ ∨ _))
  | .app .cleanup => inferInstanceAs (Decidable (_ → _))
  | .app .deadline => inferInstanceAs (Decidable (_ ∨ _))
  | .deleteCandidate _ _ => inferInstanceAs (Decidable (ite _ _ _))
  | .deleteCreated deleted _ => inferInstanceAs (Decidable (deleted = true))
  | .check | .create _ _ | .writeWindow | .attach | .listWindows | .app .poll | .app .bind =>
      .isTrue trivial

/-! ## The invariant -/

/-- The script has not created a window. -/
def beforeCreate : CreateScript → Bool
  | .checking | .creating | .retrying => true
  | _ => false

/-- The window the script works on. -/
def scriptWindow : CreateScript → Option Nat
  | .created w | .deleting w | .writing w | .attaching w => some w
  | .finished attached => attached
  | _ => none

/-- The script has looked and found the tab cancelled. -/
def deletes : CreateScript → Bool
  | .deleting _ => true
  | _ => false

/-- No window that the script has created is left. -/
def Gone (a : CreateRun) : Prop := ∀ w, a.made = some w → w ∉ a.windows.ids

/-- What carries the window along a coordinated run: once the close action has
finished, either the script will see the cancellation or the window is gone. -/
structure GhostInv (a : CreateRun) : Prop where
  before : beforeCreate a.script = true → a.made = none
  window : ∀ w, scriptWindow a.script = some w → a.made = some w
  idle : a.tab.closer = .idle → a.tab.tabOpen = true ∧ a.tab.files.cancelled = false ∧
    deletes a.script = false
  ended : a.script = .finished none → Gone a
  closed : a.tab.closer = .finished →
    (a.tab.files.cancelled = true ∧ looksAgain a.script = true) ∨ deletes a.script = true ∨
      (beforeCreate a.script = false ∧ Gone a)
  knows : a.tab.Knows

/-- The `.window` file is still to be written. -/
def willWrite : CreateScript → Bool
  | .checking | .creating | .retrying | .created _ | .writing _ => true
  | _ => false

/-- The window whose `.window` file has been written. -/
def writtenWindow : CreateScript → Option Nat
  | .attaching w => some w
  | .finished attached => attached
  | _ => none

theorem givesUp_ends {s : CreateScript} (h : givesUp s = true) :
    willWrite s = false ∧ writtenWindow s = none := by
  cases s with
  | deleting w => exact ⟨rfl, rfl⟩
  | finished attached =>
      cases attached with
      | none => exact ⟨rfl, rfl⟩
      | some w => cases h
  | checking | creating | retrying | created | writing | attaching => cases h

/-- What carries the binding along a coordinated run: while the tab is open, the poll
goes on until the file is written, and then the binding is on its way. -/
structure BindInv (a : CreateRun) : Prop where
  file : ∀ w, a.tab.files.window = some w → a.made = some w ∧ willWrite a.script = false
  queued : ∀ w, a.tab.bindQueued = some w → a.made = some w
  clean : a.tab.polling = true → a.tab.cleanup = []
  polls : a.tab.closer = .idle → willWrite a.script = true → a.tab.polling = true
  bound : a.tab.closer = .idle → ∀ w, writtenWindow a.script = some w → BoundTo a.tab w

theorem GhostInv.noGhost {a : CreateRun} (h : GhostInv a) (hb : BindInv a) : NoGhost a := by
  intro r hr hcloser w hw
  rcases hcloser with hidle | hfinished
  · cases r with
    | none => exact .inr (h.ended hr w hw)
    | some v =>
        have hv := h.window v (by rw [hr]; rfl)
        obtain rfl : v = w := Option.some.inj (hv.symm.trans hw)
        exact .inl ⟨(h.idle hidle).1, rfl, hb.bound hidle v (by rw [hr]; rfl)⟩
  · rcases h.closed hfinished with ⟨-, hlooks⟩ | hdeletes | ⟨-, hgone⟩
    · rw [hr] at hlooks
      cases hlooks
    · rw [hr] at hdeletes
      cases hdeletes
    · exact .inr (hgone w hw)

/-- What is gone stays gone while nothing is created. -/
theorem Gone.deleted {a : CreateRun} (h : Gone a) {windows : Listing} {v : Nat} {deleted : Bool}
    (hdel : Deleted a.windows windows v deleted) {w : Nat} (hw : a.made = some w) :
    w ∉ windows.ids := by
  intro hin
  have hin' := hdel.mem_iff.mp hin
  refine h w hw ?_
  split at hin'
  · exact (List.mem_filter.mp hin').1
  · exact hin'

/-- A delete that succeeds leaves no link of its target. -/
theorem deleted_gone {before after : Listing} {w : Nat} (h : Deleted before after w true) :
    w ∉ after.ids := by
  intro hin
  have hin' := h.mem_iff.mp hin
  rw [if_pos rfl] at hin'
  simpa using (List.mem_filter.mp hin').2

theorem not_deletes {s : CreateScript} (h : beforeCreate s = true) : deletes s = false := by
  cases s <;> first | rfl | cases h

/-- The step is the start script's. -/
def ofScript : CreateStep → Bool
  | .app _ | .listWindows | .deleteCandidate _ _ => false
  | _ => true

/-- What a step of the start script does. -/
inductive ScriptStep (a : CreateRun) : CreateStep → CreateRun → Prop
  | stops (hs : a.script = .checking) (hc : a.tab.files.cancelled = true) :
      ScriptStep a .check { a with script := .finished none }
  | goesOn (hs : a.script = .checking) (hc : a.tab.files.cancelled = false) :
      ScriptStep a .check { a with script := .creating }
  | takesBack (w : Nat) (hs : a.script = .created w) (hc : a.tab.files.cancelled = true) :
      ScriptStep a .check { a with script := .deleting w }
  | keeps (w : Nat) (hs : a.script = .created w) (hc : a.tab.files.cancelled = false) :
      ScriptStep a .check { a with script := .writing w }
  | makes (w : Nat) (windows : Listing) (hs : a.script = .creating ∨ a.script = .retrying) :
      ScriptStep a (.create (some w) windows)
        { a with script := .created w, windows, made := some w }
  | retries (windows : Listing) (hs : a.script = .creating) :
      ScriptStep a (.create none windows) { a with script := .retrying }
  | fails (windows : Listing) (hs : a.script = .creating ∨ a.script = .retrying) :
      ScriptStep a (.create none windows) { a with script := .finished none }
  | deletes (w : Nat) (deleted : Bool) (windows : Listing) (hs : a.script = .deleting w)
      (hdel : Deleted a.windows windows w deleted) :
      ScriptStep a (.deleteCreated deleted windows) { a with script := .finished none, windows }
  | writes (w : Nat) (hs : a.script = .writing w) :
      ScriptStep a .writeWindow { a with
        script := .attaching w
        tab := { a.tab with files := { a.tab.files with window := some w } } }
  | attaches (w : Nat) (hs : a.script = .attaching w) :
      ScriptStep a .attach { a with
        script := .finished (if w ∈ a.windows.ids then some w else none) }

theorem scriptStep_of_createStep {a a' : CreateRun} {l : CreateStep} (hscript : ofScript l = true)
    (hstep : createStep a l = some a') : ScriptStep a l a' := by
  cases l with
  | check =>
      simp only [createStep] at hstep
      split at hstep
      · next hs =>
          cases hstep
          cases hc : a.tab.files.cancelled with
          | true => exact .stops hs hc
          | false => exact .goesOn hs hc
      · next w hs =>
          cases hstep
          cases hc : a.tab.files.cancelled with
          | true => exact .takesBack w hs hc
          | false => exact .keeps w hs hc
      · cases hstep
  | create result windows =>
      cases result with
      | some w =>
          simp only [createStep] at hstep
          split at hstep
          · next hcond =>
              cases hstep
              exact .makes w windows hcond.1
          · cases hstep
      | none =>
          simp only [createStep] at hstep
          split at hstep
          · next hs =>
              cases hstep
              split
              · exact .retries windows hs
              · exact .fails windows (.inl hs)
          · split at hstep
            · next hs =>
                cases hstep
                exact .fails windows (.inr hs)
            · cases hstep
  | deleteCreated deleted windows =>
      simp only [createStep] at hstep
      split at hstep
      · next w hs =>
          split at hstep
          · next hdel =>
              cases hstep
              exact .deletes w deleted windows hs hdel
          · cases hstep
      · cases hstep
  | writeWindow =>
      simp only [createStep] at hstep
      split at hstep
      · next w hs =>
          cases hstep
          exact .writes w hs
      · cases hstep
  | attach =>
      simp only [createStep] at hstep
      split at hstep
      · next w hs =>
          cases hstep
          exact .attaches w hs
      · cases hstep
  | app | listWindows | deleteCandidate => cases hscript

/-- While it tries to create a window, the script has none. -/
theorem beforeCreate_creating {s : CreateScript} (h : s = .creating ∨ s = .retrying) :
    beforeCreate s = true := by
  rcases h with rfl | rfl <;> rfl

theorem GhostInv.gone_before {a : CreateRun} (h : GhostInv a)
    (hbefore : beforeCreate a.script = true) : Gone a := by
  intro w hw
  rw [h.before hbefore] at hw
  cases hw

/-- A tab that is closed before the create is cancelled. -/
theorem GhostInv.cancelled_before {a : CreateRun} (h : GhostInv a)
    (hbefore : beforeCreate a.script = true) (hfin : a.tab.closer = .finished) :
    a.tab.files.cancelled = true := by
  rcases h.closed hfin with ⟨hcancelled, -⟩ | hdeletes | ⟨hafter, -⟩
  · exact hcancelled
  · rw [not_deletes hbefore] at hdeletes
    cases hdeletes
  · rw [hbefore] at hafter
    cases hafter

/-- Of a closed tab that the script is not to take back, the window is gone. -/
theorem GhostInv.gone_after {a : CreateRun} (h : GhostInv a)
    (hsees : ¬ (a.tab.files.cancelled = true ∧ looksAgain a.script = true))
    (hkeeps : deletes a.script = false) (hfin : a.tab.closer = .finished) : Gone a := by
  rcases h.closed hfin with hlooks | hdeletes | ⟨-, hgone⟩
  · exact absurd hlooks hsees
  · rw [hkeeps] at hdeletes
    cases hdeletes
  · exact hgone

/-- The script goes on, and nothing else changes. -/
theorem GhostInv.advance {a : CreateRun} (h : GhostInv a) {s : CreateScript}
    (hbefore : beforeCreate s = true → beforeCreate a.script = true)
    (hwindow : ∀ w, scriptWindow s = some w → a.made = some w)
    (hidle : a.tab.closer = .idle → deletes s = false)
    (hended : s = .finished none → Gone a)
    (hclosed : a.tab.closer = .finished →
      (a.tab.files.cancelled = true ∧ looksAgain s = true) ∨ deletes s = true ∨
        (beforeCreate s = false ∧ Gone a)) : GhostInv { a with script := s } :=
  ⟨fun hb => h.before (hbefore hb), hwindow,
    fun hi => ⟨(h.idle hi).1, (h.idle hi).2.1, hidle hi⟩, hended, hclosed, h.knows⟩

/-- The script stops before it has made a window. -/
theorem GhostInv.stop {a : CreateRun} (h : GhostInv a) (hbefore : beforeCreate a.script = true) :
    GhostInv { a with script := .finished none } := by
  have hgone := h.gone_before hbefore
  exact h.advance (fun hb => (by cases hb)) (fun w hw => (by cases hw)) (fun _ => rfl)
    (fun _ => hgone) fun _ => .inr (.inr ⟨rfl, hgone⟩)

/-- The script's steps. -/
theorem GhostInv.script {a a' : CreateRun} (h : GhostInv a) {l : CreateStep}
    (hgood : Coordinated a l) (hscript : ofScript l = true) (hstep : createStep a l = some a') :
    GhostInv a' := by
  cases scriptStep_of_createStep hscript hstep with
  | stops hs _ => exact h.stop (by rw [hs]; rfl)
  | goesOn hs hc =>
      have hbefore : beforeCreate a.script = true := by rw [hs]; rfl
      refine h.advance (fun _ => hbefore) (fun w hw => (by cases hw)) (fun _ => rfl)
        (fun hf => (by cases hf)) fun hfin => ?_
      rw [h.cancelled_before hbefore hfin] at hc
      cases hc
  | takesBack w hs hc =>
      have hmade := h.window w (by rw [hs]; rfl)
      refine h.advance (fun hb => (by cases hb)) (fun v hv => (by cases hv; exact hmade))
        (fun hidle => ?_) (fun hf => (by cases hf)) fun _ => .inr (.inl rfl)
      -- the file of an open tab is not there
      rw [(h.idle hidle).2.1] at hc
      cases hc
  | keeps w hs hc =>
      have hmade := h.window w (by rw [hs]; rfl)
      refine h.advance (fun hb => (by cases hb)) (fun v hv => (by cases hv; exact hmade))
        (fun _ => rfl) (fun hf => (by cases hf)) fun hfin => .inr (.inr ⟨rfl, ?_⟩)
      refine h.gone_after ?_ (by rw [hs]; rfl) hfin
      rw [hc]
      exact fun hlooks => Bool.false_ne_true hlooks.1
  | makes w windows hs =>
      have hcancelled := h.cancelled_before (beforeCreate_creating hs)
      exact ⟨fun hb => (by cases hb), fun v hv => (by cases hv; rfl),
        fun hidle => ⟨(h.idle hidle).1, (h.idle hidle).2.1, rfl⟩, fun hf => (by cases hf),
        fun hfin => .inl ⟨hcancelled hfin, rfl⟩, h.knows⟩
  | retries windows hs =>
      have hbefore := beforeCreate_creating (.inl hs)
      exact h.advance (fun _ => hbefore) (fun w hw => (by cases hw)) (fun _ => rfl)
        (fun hf => (by cases hf)) fun hfin => .inl ⟨h.cancelled_before hbefore hfin, rfl⟩
  | fails windows hs => exact h.stop (beforeCreate_creating hs)
  | deletes w deleted windows hs hdel =>
      have hdeleted : deleted = true := hgood
      subst hdeleted
      have hmade := h.window w (by rw [hs]; rfl)
      have hgone : ∀ v, a.made = some v → v ∉ windows.ids := by
        intro v hv
        obtain rfl : w = v := Option.some.inj (hmade.symm.trans hv)
        exact deleted_gone hdel
      exact ⟨fun hb => (by cases hb), fun v hv => (by cases hv),
        fun hidle => ⟨(h.idle hidle).1, (h.idle hidle).2.1, rfl⟩, fun _ => hgone,
        fun _ => .inr (.inr ⟨rfl, hgone⟩), h.knows⟩
  | writes w hs =>
      have hmade := h.window w (by rw [hs]; rfl)
      have hgone := h.gone_after (by rw [hs]; exact fun hlooks => Bool.false_ne_true hlooks.2)
        (by rw [hs]; rfl)
      exact ⟨fun hb => (by cases hb), fun v hv => (by cases hv; exact hmade),
        fun hidle => ⟨(h.idle hidle).1, (h.idle hidle).2.1, rfl⟩, fun hf => (by cases hf),
        fun hfin => .inr (.inr ⟨rfl, hgone hfin⟩), h.knows.congr rfl rfl⟩
  | attaches w hs =>
      have hmade := h.window w (by rw [hs]; rfl)
      have hgone := h.gone_after (by rw [hs]; exact fun hlooks => Bool.false_ne_true hlooks.2)
        (by rw [hs]; rfl)
      refine h.advance (fun hb => (by cases hb)) (fun v hv => ?_) (fun _ => rfl) (fun hf => ?_)
        fun hfin => .inr (.inr ⟨rfl, hgone hfin⟩)
      · simp only [scriptWindow] at hv
        split at hv
        · cases hv
          exact hmade
        · cases hv
      · -- it attaches to nothing when the window is gone
        intro v hv
        obtain rfl : w = v := Option.some.inj (hmade.symm.trans hv)
        simp only [CreateScript.finished.injEq] at hf
        split at hf
        · cases hf
        · next hnot => exact hnot

/-- The application's steps leave the script and its window alone. -/
theorem GhostInv.tabStep {a : CreateRun} (h : GhostInv a) {l : TabStep} {tab' : PendingTab}
    (hgood : Coordinated a (.app l)) (hstep : tabStep a.tab l = some tab') :
    GhostInv { a with tab := tab' } := by
  cases l with
  | poll =>
      simp only [App.tabStep] at hstep
      split at hstep
      · cases hstep
        exact ⟨h.before, h.window, h.idle, h.ended, h.closed, h.knows.congr rfl rfl⟩
      · cases hstep
  | deadline =>
      simp only [App.tabStep] at hstep
      split at hstep
      · cases hstep
        exact ⟨h.before, h.window, h.idle, h.ended, h.closed, h.knows.congr rfl rfl⟩
      · cases hstep
  | bind =>
      simp only [App.tabStep, Option.map_eq_some_iff] at hstep
      obtain ⟨w, -, rfl⟩ := hstep
      exact ⟨h.before, h.window, h.idle, h.ended, h.closed,
        ⟨fun _ => Option.some_ne_none w, h.knows.listing⟩⟩
  | cleanup =>
      simp only [App.tabStep] at hstep
      split at hstep
      · next file rest hclean =>
          cases hstep
          cases file with
          | window => exact ⟨h.before, h.window, h.idle, h.ended, h.closed, h.knows.congr rfl rfl⟩
          | sequence =>
              exact ⟨h.before, h.window, h.idle, h.ended, h.closed, h.knows.congr rfl rfl⟩
          | cancelled =>
              -- the script has looked for the file before it is removed
              have hlooks : looksAgain a.script = false := hgood (by rw [hclean]; rfl)
              refine ⟨h.before, h.window, fun hidle => ⟨(h.idle hidle).1, rfl, (h.idle hidle).2.2⟩,
                h.ended, fun hfin => ?_, h.knows.congr rfl rfl⟩
              rcases h.closed hfin with ⟨-, hl⟩ | hrest
              · rw [hlooks] at hl
                cases hl
              · exact .inr hrest
      · cases hstep
  | close nativeIndex visibleTabs held =>
      simp only [App.tabStep] at hstep
      split at hstep
      · cases hstep
        obtain ⟨hidle, hfinished, hlisting⟩ := closerStarts_busy h.knows nativeIndex hgood
        exact ⟨h.before, h.window, fun hc => absurd hc hidle, h.ended,
          fun hc => absurd hc hfinished, ⟨h.knows.bound, hlisting⟩⟩
      · cases hstep
  | cancelTab =>
      simp only [App.tabStep] at hstep
      split at hstep
      · cases hstep
        refine ⟨h.before, h.window, fun hc => (by cases hc), h.ended, fun _ => ?_,
          ⟨h.knows.bound, fun _ _ hc => (by cases hc)⟩⟩
        rcases hgood with hlooks | hended
        · exact .inl ⟨rfl, hlooks⟩
        · exact .inr (.inr ⟨by rw [hended]; rfl, h.ended hended⟩)
      · cases hstep

theorem GhostInv.app {a a' : CreateRun} (h : GhostInv a) {l : CreateStep}
    (hgood : Coordinated a l) (happ : ofScript l = false) (hstep : createStep a l = some a') :
    GhostInv a' := by
  cases l with
  | app l =>
      simp only [createStep, Option.map_eq_some_iff] at hstep
      obtain ⟨tab', htab, rfl⟩ := hstep
      exact h.tabStep hgood htab
  | listWindows =>
      simp only [createStep, Option.map_eq_some_iff] at hstep
      obtain ⟨tab', htab, rfl⟩ := hstep
      obtain ⟨htab', hknows, hidle, hfinished⟩ := closerListed_busy h.knows htab
      exact ⟨h.before, h.window, fun hc => absurd hc hidle, h.ended,
        fun hc => absurd hc hfinished, hknows⟩
  | deleteCandidate deleted windows =>
      simp only [createStep] at hstep
      split at hstep
      · next w hc =>
          split at hstep
          · next hdel =>
              simp only [Option.map_eq_some_iff] at hstep
              obtain ⟨tab', htab, rfl⟩ := hstep
              obtain ⟨htab', hknows, hidle, hfinished⟩ := closerTried_busy h.knows htab
              refine ⟨h.before, h.window, fun hc => absurd hc hidle,
                fun hs v hv => (h.ended hs).deleted hdel hv, fun hfin => ?_, hknows⟩
              -- the close action ends here, so it has deleted the script's window
              have hdeleted : deleted = true := by
                rcases hfinished hfin with hd | hlast
                · exact hd
                · cases deleted with
                  | true => rfl
                  | false =>
                      have : a.tab.closer.lastResort = false := by
                        simpa [Coordinated] using hgood
                      rw [hlast] at this
                      cases this
              subst hdeleted
              have hown : a.tab.closer.candidate = a.made := by simpa [Coordinated] using hgood
              rw [hc] at hown
              refine .inr (.inr ⟨?_, fun v hv => ?_⟩)
              · cases hb : beforeCreate a.script with
                | false => rfl
                | true =>
                    rw [h.before hb] at hown
                    cases hown
              · have hv' : a.made = some v := hv
                rw [← hown] at hv'
                cases hv'
                exact deleted_gone hdel
          · cases hstep
      · cases hstep
  | check | create | deleteCreated | writeWindow | attach => cases happ

/-! ## The binding -/

/-- Before the script writes the file, there is none. -/
theorem BindInv.noFile {a : CreateRun} (hb : BindInv a) (h : willWrite a.script = true) (w : Nat) :
    a.tab.files.window ≠ some w := by
  intro hw
  rw [(hb.file w hw).2] at h
  cases h

/-- The script goes on before it has written the file. -/
theorem BindInv.goesOn {a : CreateRun} (hb : BindInv a) (h : willWrite a.script = true)
    {s : CreateScript} (hs : writtenWindow s = none) {made : Option Nat}
    (hqueued : ∀ w, a.tab.bindQueued = some w → made = some w) (windows : Listing) :
    BindInv { a with script := s, windows, made } :=
  ⟨fun w hw => absurd hw (hb.noFile h w), hqueued, hb.clean, fun hidle _ => hb.polls hidle h,
    fun _ w hw => by
      have hw' : writtenWindow s = some w := hw
      rw [hs] at hw'
      cases hw'⟩

/-- The script's steps do not touch the tab, but for the file it writes. -/
theorem BindInv.script {a a' : CreateRun} (hb : BindInv a) (h : GhostInv a) {l : CreateStep}
    (hscript : ofScript l = true) (hstep : createStep a l = some a') : BindInv a' := by
  have hcreating : a.script = .creating ∨ a.script = .retrying → willWrite a.script = true := by
    rintro (hs | hs) <;> rw [hs] <;> rfl
  cases scriptStep_of_createStep hscript hstep with
  | stops hs _ => exact hb.goesOn (by rw [hs]; rfl) rfl hb.queued a.windows
  | goesOn hs _ => exact hb.goesOn (by rw [hs]; rfl) rfl hb.queued a.windows
  | takesBack w hs _ => exact hb.goesOn (by rw [hs]; rfl) rfl hb.queued a.windows
  | keeps w hs _ => exact hb.goesOn (by rw [hs]; rfl) rfl hb.queued a.windows
  | makes v windows hs =>
      refine hb.goesOn (hcreating hs) rfl (fun w hw => ?_) windows
      -- no bind is queued for a window that is still to be made
      exact absurd (hb.queued w hw) (by rw [h.before (beforeCreate_creating hs)]; simp)
  | retries windows hs => exact hb.goesOn (hcreating (.inl hs)) rfl hb.queued a.windows
  | fails windows hs => exact hb.goesOn (hcreating hs) rfl hb.queued a.windows
  | deletes w deleted windows _ _ =>
      exact ⟨fun w hw => ⟨(hb.file w hw).1, rfl⟩, hb.queued, hb.clean, fun _ hu => (by cases hu),
        fun _ w hw => (by cases hw)⟩
  | writes v hs =>
      have hmade := h.window v (by rw [hs]; rfl)
      refine ⟨fun w hw => ⟨?_, rfl⟩, hb.queued, hb.clean, fun _ hu => (by cases hu),
        fun hidle w hw => ?_⟩
      · have hfile : some v = some w := hw
        exact hfile ▸ hmade
      · -- the poll is still to find the file
        have hfile : some v = some w := hw
        exact .inr (.inr ⟨hb.polls hidle (by rw [hs]; rfl), hfile⟩)
  | attaches v hs =>
      refine ⟨fun w hw => ⟨(hb.file w hw).1, rfl⟩, hb.queued, hb.clean, fun _ hu => (by cases hu),
        fun hidle w hw => hb.bound hidle w ?_⟩
      rw [hs]
      simp only [writtenWindow] at hw ⊢
      split at hw
      · exact hw
      · cases hw

/-- The poll finds the file of the window the script has made, and the bind follows. -/
theorem BindInv.tabStep {a : CreateRun} (hb : BindInv a) (h : GhostInv a) {l : TabStep}
    {tab' : PendingTab} (hgood : Coordinated a (.app l)) (hstep : tabStep a.tab l = some tab') :
    BindInv { a with tab := tab' } := by
  have hmade : ∀ w, writtenWindow a.script = some w → a.made = some w := fun w hw =>
    h.window w (by cases hs : a.script <;> rw [hs] at hw <;> first | exact hw | cases hw)
  cases l with
  | poll =>
      simp only [App.tabStep] at hstep
      split at hstep
      · next v _ hfile =>
          cases hstep
          obtain ⟨hv, hwritten⟩ := hb.file v hfile
          refine ⟨hb.file, fun w hw => ?_, fun hp => (by cases hp), fun _ hu => ?_,
            fun _ w hw => .inr (.inl ?_)⟩
          · have hqueued : some v = some w := hw
            exact hqueued ▸ hv
          · have hu' : willWrite a.script = true := hu
            rw [hwritten] at hu'
            cases hu'
          · exact hv.symm.trans (hmade w hw)
      · cases hstep
  | deadline =>
      simp only [App.tabStep] at hstep
      split at hstep
      · cases hstep
        -- the poll runs out when nothing is to be written any more
        have hgives : a.tab.closer = .idle → givesUp a.script = true := fun hidle =>
          hgood.resolve_left fun hcloser => hcloser hidle
        refine ⟨hb.file, hb.queued, fun hp => (by cases hp), fun hidle hu => ?_,
          fun hidle w hw => ?_⟩
        · rw [(givesUp_ends (hgives hidle)).1] at hu
          cases hu
        · rw [(givesUp_ends (hgives hidle)).2] at hw
          cases hw
      · cases hstep
  | bind =>
      simp only [App.tabStep, Option.map_eq_some_iff] at hstep
      obtain ⟨v, hqueued, rfl⟩ := hstep
      have hv := hb.queued v hqueued
      refine ⟨hb.file, fun w hw => (by cases hw), hb.clean, hb.polls, fun _ w hw => .inl ?_⟩
      exact hv.symm.trans (hmade w hw)
  | cleanup =>
      simp only [App.tabStep] at hstep
      split at hstep
      · next file rest hclean =>
          cases hstep
          -- the files are removed when the poll has ended
          have hpolling : a.tab.polling ≠ true := by
            intro hp
            rw [hb.clean hp] at hclean
            cases hclean
          refine ⟨fun w hw => ?_, hb.queued, fun hp => absurd hp hpolling, hb.polls,
            fun hidle w hw => ?_⟩
          · refine hb.file w ?_
            cases file with
            | window => cases hw
            | sequence => exact hw
            | cancelled => exact hw
          · rcases hb.bound hidle w hw with hbound | hqueued | ⟨hp, -⟩
            · exact .inl hbound
            · exact .inr (.inl hqueued)
            · exact absurd hp hpolling
      · cases hstep
  | close nativeIndex visibleTabs held =>
      simp only [App.tabStep] at hstep
      split at hstep
      · cases hstep
        obtain ⟨hidle, -, -⟩ := closerStarts_busy h.knows nativeIndex hgood
        exact ⟨hb.file, hb.queued, hb.clean, fun hc => absurd hc hidle,
          fun hc => absurd hc hidle⟩
      · cases hstep
  | cancelTab =>
      simp only [App.tabStep] at hstep
      split at hstep
      · cases hstep
        exact ⟨hb.file, hb.queued, hb.clean, fun hc => (by cases hc), fun hc => (by cases hc)⟩
      · cases hstep

/-- The close action gives the tab up. -/
theorem BindInv.closing {a : CreateRun} (hb : BindInv a) {tab' : PendingTab}
    (htab : tab' = { a.tab with closer := tab'.closer }) (hidle : tab'.closer ≠ .idle)
    (windows : Listing) : BindInv { a with windows, tab := tab' } := by
  rw [htab]
  exact ⟨hb.file, hb.queued, hb.clean, fun hc => absurd hc hidle, fun hc => absurd hc hidle⟩

theorem BindInv.app {a a' : CreateRun} (hb : BindInv a) (h : GhostInv a) {l : CreateStep}
    (hgood : Coordinated a l) (happ : ofScript l = false) (hstep : createStep a l = some a') :
    BindInv a' := by
  cases l with
  | app l =>
      simp only [createStep, Option.map_eq_some_iff] at hstep
      obtain ⟨tab', htab, rfl⟩ := hstep
      exact hb.tabStep h hgood htab
  | listWindows =>
      simp only [createStep, Option.map_eq_some_iff] at hstep
      obtain ⟨tab', htab, rfl⟩ := hstep
      obtain ⟨htab', -, hidle, -⟩ := closerListed_busy h.knows htab
      exact hb.closing htab' hidle a.windows
  | deleteCandidate deleted windows =>
      simp only [createStep] at hstep
      split at hstep
      · split at hstep
        · simp only [Option.map_eq_some_iff] at hstep
          obtain ⟨tab', htab, rfl⟩ := hstep
          obtain ⟨htab', -, hidle, -⟩ := closerTried_busy h.knows htab
          exact hb.closing htab' hidle windows
        · cases hstep
      · cases hstep
  | check | create | deleteCreated | writeWindow | attach => cases happ

theorem ghostInv_inductive :
    createSystem.Inductive Coordinated (fun a => GhostInv a ∧ BindInv a) where
  init := by
    rintro _ ⟨hasTarget, windows, rfl⟩
    refine ⟨⟨fun _ => rfl, fun w hw => (by cases hw), fun _ => ⟨rfl, rfl, rfl⟩,
      fun hs => (by cases hs), fun hc => (by cases hc), ⟨fun hp => (by cases hp),
        fun _ _ hc => (by cases hc)⟩⟩, ?_⟩
    exact ⟨fun w hw => (by cases hw), fun w hw => (by cases hw), fun _ => rfl, fun _ _ => rfl,
      fun _ w hw => (by cases hw)⟩
  step := by
    rintro a l a' ⟨h, hb⟩ hgood hstep
    cases hl : ofScript l with
    | true => exact ⟨h.script hgood hl hstep, hb.script h hl hstep⟩
    | false => exact ⟨h.app hgood hl hstep, hb.app h hgood hl hstep⟩

/-- **No ghost window** is left by a coordinated run. -/
theorem no_ghost_of_coordinated {a : CreateRun}
    (hreach : createSystem.ReachableWith Coordinated a) : NoGhost a :=
  have hinv := ghostInv_inductive.invariant hreach
  hinv.1.noGhost hinv.2

/-! ## A tab closed between the second look and the file -/

/-- The primary session has windows `@0` and `@1` at indexes 0 and 5. -/
def twoTabs : CreateRun := .start false [(0, 0), (5, 1)]

theorem twoTabs_reachable {Good : CreateRun → CreateStep → Prop} :
    createSystem.ReachableWith Good twoTabs :=
  .init ⟨false, [(0, 0), (5, 1)], rfl⟩

/-- The tab is closed while the script creates its window. -/
def closedWhileCreating : List CreateStep :=
  [.check, .app (.close (some 2) 3 false), .listWindows, .app .cancelTab,
    .create (some 2) [(0, 0), (1, 2), (5, 1)], .check, .deleteCreated true [(0, 0), (5, 1)]]

/-- The tab stays open and is bound. -/
def boundWhileAttaching : List CreateStep :=
  [.check, .create (some 2) [(0, 0), (1, 2), (5, 1)], .check, .writeWindow, .app .poll, .attach,
    .app .bind, .app .cleanup]

theorem no_ghost_closed_while_creating :
    (∃ a, (a.script = .finished none ∧ a.tab.closer = .finished ∧ a.made = some 2) ∧ NoGhost a) ∧
      ∃ a, (a.script = .finished (some 2) ∧ a.tab.controller.newmuxWindowId = some 2 ∧
        a.made = some 2) ∧ NoGhost a := by
  have hclosed : TSys.RunTo Coordinated createStep
      (fun a => a.script = .finished none ∧ a.tab.closer = .finished ∧ a.made = some 2) twoTabs
      closedWhileCreating := by decide +kernel
  have hbound : TSys.RunTo Coordinated createStep
      (fun a => a.script = .finished (some 2) ∧ a.tab.controller.newmuxWindowId = some 2 ∧
        a.made = some 2) twoTabs boundWhileAttaching := by decide +kernel
  obtain ⟨a, hreach, ha⟩ := TSys.reachableWith_runTo (fun _ _ _ h => h) twoTabs_reachable hclosed
  obtain ⟨b, hreach', hb⟩ := TSys.reachableWith_runTo (fun _ _ _ h => h) twoTabs_reachable hbound
  exact ⟨⟨a, ha, no_ghost_of_coordinated hreach⟩, b, hb, no_ghost_of_coordinated hreach'⟩

/-- The tab is closed after the script has looked for the second time and before
it writes the `.window` file. -/
def closedBeforeFile : List CreateStep :=
  [.check, .create (some 2) [(0, 0), (1, 2), (5, 1)], .check,
    .app (.close (some 2) 3 false), .listWindows, .app .cancelTab, .writeWindow, .attach]

/-- Both have finished, the tab is closed, and its window is still there. -/
theorem ghost_closed_before_file : ¬ ∀ a, createSystem.Reachable a → NoGhost a := by
  intro h
  have hrun : TSys.RunTo (fun _ _ => True) createStep
      (fun a => a.script = .finished (some 2) ∧ a.tab.closer = .finished ∧ a.made = some 2 ∧
        a.tab.tabOpen = false ∧ 2 ∈ a.windows.ids) twoTabs closedBeforeFile := by decide +kernel
  obtain ⟨a, hreach, hscript, hcloser, hmade, hclosed, halive⟩ :=
    TSys.reachableWith_runTo (fun _ _ _ h => h) twoTabs_reachable hrun
  rcases h a hreach _ hscript (.inr hcloser) 2 hmade with ⟨hopen, -⟩ | hgone
  · rw [hclosed] at hopen
    cases hopen
  · exact hgone halive

end Newmux.Theorems
