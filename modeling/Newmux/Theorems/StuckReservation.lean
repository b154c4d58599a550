import Newmux.App.RestoreTab
import Newmux.Logic.Numbers
import Newmux.Logic.Tabs

/-!
# Stuck reservations

A reserved item must end up in a session or back on the closed stack. Only the
start script releases a number, so an item is stuck in the reserved list as soon
as no start script ever reads its number: the application drops items that are
not windows, and a script that gives up before it has read the `.sequence` file
does not know what to release.
-/

namespace Newmux.Theorems

open Newmux.Base Newmux.Tmux Newmux.Recovery Newmux.Logic Newmux.App

/-- When all have finished, the reserved item is out of the reserved list, and
it has been restored or is on the closed stack. -/
def NotStuck (a : RestoreRun) : Prop :=
  a.action = .finished → a.script = .notStarted ∨ (∃ gaveUp, a.script = .finished gaveUp) →
    a.tab.closer = .idle ∨ a.tab.closer = .finished → ∀ item, a.item = some item →
      item ∉ a.tmux.reservedStack ∧ (a.restored = true ∨ item ∈ a.tmux.closedStack)

/-- The steps after which a start script reads the number: the reserved item is
a window and a tab opens for it, and the script neither runs into its limit nor
finds the tab cancelled before it has read the number. -/
def NumberRead (a : RestoreRun) : RestoreStep → Prop
  | .openTab opened => ∀ item, a.action = .answered (some item) →
      item.type = .window ∧ opened = true
  | .timeout => False
  | .lookCancelled => a.script = .unnumbered → a.tab.files.cancelled = false
  | _ => True

/-! ## The invariant -/

/-- The item has left the reserved list; the close action has put at most one
item above it, and only as the last thing it did. -/
structure Freed (tmux : State) (restored : Bool) (closer : Closer) (item : ClosedItem) :
    Prop where
  free : carriers tmux item.sequence = []
  back : restored = true ∨ ∃ k ≤ 1, tmux.closedStack[k]? = some item ∧
    (closer ≠ .finished → k = 0)

theorem Freed.notReserved {tmux : State} {restored : Bool} {closer : Closer}
    {item : ClosedItem} (h : Freed tmux restored closer item) : item ∉ tmux.reservedStack := by
  intro hin
  have hmem : item ∈ carriers tmux item.sequence := List.mem_filter.mpr ⟨hin, beq_self_eq_true _⟩
  rw [h.free] at hmem
  exact List.not_mem_nil hmem

/-- Where the item is, by what the start script is doing. -/
def Phase (action : RestoreAction) (tmux : State) (restored : Bool) (closer : Closer)
    (item : ClosedItem) : RestoreScript → Prop
  | .notStarted => action = .answered (some item) ∧ carriers tmux item.sequence = [item]
  | .waiting | .reading | .unnumbered =>
      item.type = .window ∧ carriers tmux item.sequence = [item]
  | .numbered sequence | .claiming sequence =>
      sequence = toString item.sequence ∧ item.type = .window ∧
        carriers tmux item.sequence = [item]
  | .releasing sequence =>
      sequence = toString item.sequence ∧
        (carriers tmux item.sequence = [item] ∨ Freed tmux restored closer item)
  | .writing _ | .attaching _ | .finished _ => Freed tmux restored closer item

/-- The number is that of the reserved item. -/
def NumberOf (item : Option ClosedItem) (sequence : String) : Prop :=
  ∃ x, item = some x ∧ sequence = toString x.sequence

structure RestoreInv (a : RestoreRun) : Prop where
  stack : StackOk a.tmux
  idle : a.action = .idle → a.item = none ∧ ∀ item ∈ a.tmux.closedStack.head?,
    0 < item.sequence ∧ item.sequence < 4294967296 ∧
      ∀ x ∈ a.tmux.reservedStack, x.sequence ≠ item.sequence
  answered : ∀ r, a.action = .answered r → a.item = r ∧ a.script = .notStarted
  posted : ∀ sequence, a.action = .posted sequence → NumberOf a.item sequence
  file : ∀ sequence, a.tab.files.sequence = some sequence → NumberOf a.item sequence
  closer : a.tab.closer ≠ .idle → a.action = .finished
  unused : a.item = none → a.script = .notStarted
  range : ∀ item, a.item = some item → 0 < item.sequence ∧ item.sequence < 4294967296
  phase : ∀ item, a.item = some item →
    Phase a.action a.tmux a.restored a.tab.closer item a.script

theorem RestoreInv.notStuck {a : RestoreRun} (h : RestoreInv a) : NotStuck a := by
  intro haction hscript _ item hitem
  have hphase := h.phase item hitem
  rcases hscript with hs | ⟨gaveUp, hs⟩ <;> rw [hs] at hphase
  · have := hphase.1
    rw [haction] at this
    cases this
  · refine ⟨Freed.notReserved hphase, hphase.back.imp_right ?_⟩
    rintro ⟨k, -, hk, -⟩
    exact List.mem_of_getElem? hk

/-- The item a started script is about. -/
theorem RestoreInv.started {a : RestoreRun} (h : RestoreInv a) (hs : a.script ≠ .notStarted) :
    ∃ item, a.item = some item ∧ (0 < item.sequence ∧ item.sequence < 4294967296) ∧
      Phase a.action a.tmux a.restored a.tab.closer item a.script := by
  cases hitem : a.item with
  | none => exact absurd (h.unused hitem) hs
  | some item => exact ⟨item, rfl, h.range item hitem, h.phase item hitem⟩

/-- A started script, the server and the tab move on. -/
theorem RestoreInv.move {a : RestoreRun} (h : RestoreInv a) {tmux : State}
    {script : RestoreScript} {tab : PendingTab} {restored : Bool}
    (hs : a.script ≠ .notStarted) (hstack : StackOk tmux) (hcloser : tab.closer = a.tab.closer)
    (hfile : tab.files.sequence = a.tab.files.sequence ∨ tab.files.sequence = none)
    (hphase : ∀ item, a.item = some item → Phase a.action tmux restored tab.closer item script) :
    RestoreInv { a with tmux, script, tab, restored } := by
  refine ⟨hstack, fun hidle => ?_, fun r hr => absurd (h.answered r hr).2 hs, h.posted,
    fun sequence hf => ?_, fun hc => h.closer (hcloser ▸ hc),
    fun hnone => absurd (h.unused hnone) hs, h.range, hphase⟩
  · exact absurd (h.unused (h.idle hidle).1) hs
  · rcases hfile with he | he
    · exact h.file sequence (he ▸ hf)
    · change tab.files.sequence = some sequence at hf
      rw [he] at hf
      cases hf

/-! ## The steps of the script -/

/-- The script looks for the number. -/
theorem RestoreInv.look {a a' : RestoreRun} (h : RestoreInv a) {l : RestoreStep}
    (hl : l = .lookSequence ∨ l = .readSequence ∨ l = .lookCancelled) (hgood : NumberRead a l)
    (hstep : restoreStep a l = some a') : RestoreInv a' := by
  rcases hl with rfl | rfl | rfl <;> simp only [restoreStep] at hstep
  · split at hstep
    · next hs =>
        cases hstep
        refine h.move (by rw [hs]; exact RestoreScript.noConfusion) h.stack rfl (.inl rfl)
          fun item hitem => ?_
        have hphase := h.phase item hitem
        rw [hs] at hphase
        split <;> exact hphase
    · cases hstep
  · split at hstep
    · next hs =>
        cases hstep
        refine h.move (by rw [hs]; exact RestoreScript.noConfusion) h.stack rfl (.inl rfl)
          fun item hitem => ?_
        have hphase := h.phase item hitem
        rw [hs] at hphase
        split
        · next sequence hfile =>
            obtain ⟨hfile, -⟩ := Option.filter_eq_some_iff.mp hfile
            obtain ⟨item', hitem', hseq⟩ := h.file sequence hfile
            rw [hitem] at hitem'
            cases hitem'
            exact ⟨hseq, hphase.1, hphase.2⟩
        · exact hphase
    · cases hstep
  · split at hstep
    · next sequence hs =>
        cases hstep
        refine h.move (by rw [hs]; exact RestoreScript.noConfusion) h.stack rfl (.inl rfl)
          fun item hitem => ?_
        have hphase := h.phase item hitem
        rw [hs] at hphase
        split
        · exact ⟨hphase.1, .inl hphase.2.2⟩
        · exact hphase
    · next hs =>
        cases hstep
        have hopen : a.tab.files.cancelled = false := hgood hs
        rw [hopen]
        refine h.move (by rw [hs]; exact RestoreScript.noConfusion)
          h.stack rfl (.inl rfl) fun item hitem => ?_
        have hphase := h.phase item hitem
        rw [hs] at hphase
        exact hphase
    · cases hstep

/-- The number the script holds is claimed. -/
theorem RestoreInv.claim {a a' : RestoreRun} (h : RestoreInv a) {target : Option Nat}
    (hstep : restoreStep a (.claim target) = some a') : RestoreInv a' := by
  simp only [restoreStep] at hstep
  split at hstep
  · next sequence hs =>
      cases hstep
      have hused : a.script ≠ .notStarted := by
        rw [hs]
        exact RestoreScript.noConfusion
      obtain ⟨item, hitem, ⟨hpos, hlt⟩, hphase⟩ := h.started hused
      rw [hs] at hphase
      obtain ⟨rfl, hwindow, hcarrier⟩ := hphase
      obtain ⟨σ', result, hclaim, hstack, hfree, hout⟩ :=
        claim_carrier h.stack hpos hlt hcarrier target
      have hanswer : claimReservedRestoreWindowId a.tmux (toString item.sequence) target =
          (σ', if result.prints = [] then none else some item.windowId) := by
        unfold claimReservedRestoreWindowId
        simp only [reservedSequence_toString hpos hlt, find_carriers, hcarrier, hclaim,
          List.head?_cons]
        cases result.prints with
        | nil => rfl
        | cons line lines => simp [hwindow]
      rw [hanswer]
      rcases hout with hprints | ⟨hprints, hhead⟩
      · simp only [if_neg hprints]
        refine h.move hused hstack rfl (.inl rfl) fun item' hitem' => ?_
        rw [hitem] at hitem'
        cases hitem'
        exact ⟨hfree, .inl rfl⟩
      · simp only [if_pos hprints]
        refine h.move hused hstack rfl (.inl rfl) fun item' hitem' => ?_
        rw [hitem] at hitem'
        cases hitem'
        refine ⟨rfl, .inr ⟨hfree, .inr ⟨0, Nat.zero_le 1, ?_, fun _ => rfl⟩⟩⟩
        rw [← List.head?_eq_getElem?]
        exact hhead
  · cases hstep

/-- The number the script holds is released. -/
theorem RestoreInv.release {a a' : RestoreRun} (h : RestoreInv a)
    (hstep : restoreStep a .release = some a') : RestoreInv a' := by
  simp only [restoreStep] at hstep
  split at hstep
  · next sequence hs =>
      cases hstep
      have hused : a.script ≠ .notStarted := by
        rw [hs]
        exact RestoreScript.noConfusion
      obtain ⟨item, hitem, ⟨hpos, hlt⟩, hphase⟩ := h.started hused
      rw [hs] at hphase
      obtain ⟨rfl, hwhere⟩ := hphase
      have hdone : StackOk (cmdNewmuxReleaseReservedClosedExec a.tmux
            (some (toString item.sequence)) true).1 ∧
          Freed (cmdNewmuxReleaseReservedClosedExec a.tmux
            (some (toString item.sequence)) true).1 a.restored a.tab.closer item := by
        rcases hwhere with hcarrier | hfreed
        · obtain ⟨σ', result, hrelease, hstack, hfree, hhead⟩ :=
            release_carrier h.stack hpos hlt hcarrier
          rw [hrelease]
          refine ⟨hstack, hfree, .inr ⟨0, Nat.zero_le 1, ?_, fun _ => rfl⟩⟩
          rw [← List.head?_eq_getElem?]
          exact hhead
        · rw [release_none hpos hlt hfreed.free]
          exact ⟨h.stack, hfreed⟩
      refine h.move hused hdone.1 rfl (.inl rfl) fun item' hitem' => ?_
      rw [hitem] at hitem'
      cases hitem'
      exact hdone.2
  · cases hstep

/-- The script's last steps. -/
theorem RestoreInv.attach {a a' : RestoreRun} (h : RestoreInv a) {l : RestoreStep}
    (hl : l = .writeWindow ∨ l = .attach) (hstep : restoreStep a l = some a') :
    RestoreInv a' := by
  rcases hl with rfl | rfl <;> simp only [restoreStep] at hstep <;> split at hstep
  · next w hs =>
      cases hstep
      refine h.move (by rw [hs]; exact RestoreScript.noConfusion)
        h.stack rfl (.inl rfl) fun item hitem => ?_
      have hphase := h.phase item hitem
      rw [hs] at hphase
      exact hphase
  · cases hstep
  · next w hs =>
      cases hstep
      refine h.move (by rw [hs]; exact RestoreScript.noConfusion)
        h.stack rfl (.inl rfl) fun item hitem => ?_
      have hphase := h.phase item hitem
      rw [hs] at hphase
      exact hphase
  · cases hstep

/-! ## The steps of the application -/

/-- The restore action's steps. -/
theorem RestoreInv.action {a a' : RestoreRun} (h : RestoreInv a) {l : RestoreStep}
    (hl : l = .reserve ∨ (∃ opened, l = .openTab opened) ∨ l = .writeSequence)
    (hgood : NumberRead a l) (hstep : restoreStep a l = some a') : RestoreInv a' := by
  rcases hl with rfl | ⟨opened, rfl⟩ | rfl <;> simp only [restoreStep] at hstep
  · split at hstep
    · next hidle =>
        cases hstep
        obtain ⟨hnone, hnumber⟩ := h.idle hidle
        have hscript := h.unused hnone
        -- the head of the closed stack is the item from here on
        refine ⟨reserve_stackOk h.stack true, fun hc => (by cases hc),
          fun r hr => (by cases hr; exact ⟨rfl, hscript⟩), fun _ hp => (by cases hp),
          fun sequence hf => ?_, fun hc => ?_, fun _ => hscript, fun item hitem => ?_,
          fun item hitem => ?_⟩
        · obtain ⟨item, hitem, -⟩ := h.file sequence hf
          rw [hnone] at hitem
          cases hitem
        · have := h.closer hc
          rw [hidle] at this
          cases this
        · exact ⟨(hnumber item hitem).1, (hnumber item hitem).2.1⟩
        · have hhead : a.tmux.closedStack.head? = some item := hitem
          rw [hscript]
          exact ⟨congrArg _ hhead, reserve_carriers true hhead (hnumber item hitem).2.2⟩
    · cases hstep
  · split at hstep
    · next item haction =>
        obtain ⟨hitem, hscript⟩ := h.answered _ haction
        obtain ⟨hwindow, rfl⟩ := hgood item haction
        rw [if_pos hwindow] at hstep
        cases hstep
        have hphase := h.phase item hitem
        rw [hscript] at hphase
        refine ⟨h.stack, fun hc => (by cases hc), fun r hr => (by cases hr),
          fun sequence hp => (by cases hp; exact ⟨item, hitem, rfl⟩), h.file, fun hc => ?_,
          fun hnone => ?_, h.range, fun item' hitem' => ?_⟩
        · have := h.closer hc
          rw [haction] at this
          cases this
        · rw [hitem] at hnone
          cases hnone
        · rw [hitem] at hitem'
          cases hitem'
          exact ⟨hwindow, hphase.2⟩
    · next haction =>
        cases hstep
        obtain ⟨hitem, hscript⟩ := h.answered _ haction
        refine ⟨h.stack, fun hc => (by cases hc), fun r hr => (by cases hr),
          fun _ hp => (by cases hp), h.file, fun _ => rfl, h.unused, h.range, fun item hi => ?_⟩
        rw [hitem] at hi
        cases hi
    · cases hstep
  · split at hstep
    · next sequence haction =>
        cases hstep
        refine ⟨h.stack, fun hc => (by cases hc), fun r hr => (by cases hr),
          fun _ hp => (by cases hp), fun s hf => (by cases hf; exact h.posted sequence haction),
          fun _ => rfl, h.unused, h.range, fun item hitem => ?_⟩
        have hphase := h.phase item hitem
        generalize a.script = script at hphase ⊢
        cases script with
        | notStarted =>
            rw [haction] at hphase
            cases hphase.1
        | _ => exact hphase
    · cases hstep

/-- The item stays where it is while the tab changes. -/
theorem Phase.tab {action : RestoreAction} {tmux : State} {restored : Bool} {closer closer' : Closer}
    {item : ClosedItem} {script : RestoreScript}
    (h : Phase action tmux restored closer item script)
    (hfin : closer = .finished → closer' = .finished) :
    Phase action tmux restored closer' item script := by
  have hfreed : Freed tmux restored closer item → Freed tmux restored closer' item := by
    intro hf
    refine ⟨hf.free, hf.back.imp_right ?_⟩
    rintro ⟨k, hk, hget, hzero⟩
    exact ⟨k, hk, hget, fun hc => hzero fun he => hc (hfin he)⟩
  cases script with
  | releasing sequence => exact ⟨h.1, h.2.imp_right hfreed⟩
  | writing | attaching | finished => exact hfreed h
  | _ => exact h

/-- The tab changes beside the server and the script. -/
theorem RestoreInv.withTab {a : RestoreRun} (h : RestoreInv a) {tab : PendingTab}
    (hfile : ∀ sequence, tab.files.sequence = some sequence →
      a.tab.files.sequence = some sequence)
    (hcloser : tab.closer ≠ .idle → a.action = .finished)
    (hfin : a.tab.closer = .finished → tab.closer = .finished) :
    RestoreInv { a with tab } :=
  ⟨h.stack, h.idle, h.answered, h.posted, fun sequence hf => h.file sequence (hfile sequence hf),
    hcloser, h.unused, h.range, fun item hitem => (h.phase item hitem).tab hfin⟩

theorem RestoreInv.app {a a' : RestoreRun} (h : RestoreInv a) {l : TabStep}
    (hstep : restoreStep a (.app l) = some a') : RestoreInv a' := by
  simp only [restoreStep] at hstep
  split at hstep
  · cases hstep
  · next hguard =>
      simp only [Option.map_eq_some_iff] at hstep
      obtain ⟨tab, htab, rfl⟩ := hstep
      refine h.withTab (fun sequence hs => tabStep_sequence htab hs) (fun hc => ?_)
        (tabStep_finished htab)
      -- the close action has been running, or the main thread has just started it
      by_contra hbusy
      have hidle : a.tab.closer = .idle := by
        by_contra hne
        exact hbusy (h.closer hne)
      have hthread : l.onMainThread = false := by
        cases hm : l.onMainThread with
        | false => rfl
        | true => exact absurd (.inr ⟨hm, hbusy⟩) hguard
      exact hc (tabStep_idle htab hidle hthread)

theorem RestoreInv.listWindows {a a' : RestoreRun} (h : RestoreInv a)
    (hstep : restoreStep a .listWindows = some a') : RestoreInv a' := by
  simp only [restoreStep, Option.map_eq_some_iff] at hstep
  obtain ⟨tab, htab, rfl⟩ := hstep
  unfold closerListed at htab
  split at htab
  · next windowId nativeIndex pendingToken hc =>
      cases htab
      have hfinished := h.closer (by rw [hc]; exact Closer.noConfusion)
      exact h.withTab (fun _ hs => hs) (fun _ => hfinished) (fun hf => (by rw [hc] at hf; cases hf))
  · cases htab

/-- A delete of the close action has answered; with nothing deleted, nothing has
changed. -/
theorem RestoreInv.tried {a : RestoreRun} (h : RestoreInv a) {deleted : Bool} {tab : PendingTab}
    (htab : closerTried a.tab deleted = some tab) {tmux : State} (hstack : StackOk tmux)
    (hreserved : tmux.reservedStack = a.tmux.reservedStack)
    (hclosed : tmux.closedStack = a.tmux.closedStack ∨ deleted = true ∧
      ∃ item, tmux.closedStack = (item :: a.tmux.closedStack).take newmuxRecoveryMaxItems) :
    RestoreInv { a with tmux, tab } := by
  unfold closerTried at htab
  split at htab
  · next w rest pendingToken hc =>
      cases htab
      have hfinished := h.closer (by rw [hc]; exact Closer.noConfusion)
      have hcarriers : ∀ n, carriers tmux n = carriers a.tmux n := fun n => by
        unfold carriers
        rw [hreserved]
      have hfreed : ∀ item, Freed a.tmux a.restored a.tab.closer item →
          Freed tmux a.restored (if deleted then .finished else closerTries rest pendingToken)
            item := by
        intro item hf
        refine ⟨hcarriers _ ▸ hf.free, hf.back.imp_right ?_⟩
        rintro ⟨k, -, hget, hzero⟩
        have hk : k = 0 := hzero (by rw [hc]; exact Closer.noConfusion)
        subst hk
        rcases hclosed with he | ⟨rfl, x, he⟩
        · exact ⟨0, Nat.zero_le 1, by rw [he]; exact hget, fun _ => rfl⟩
        · refine ⟨1, le_refl 1, ?_, fun hne => absurd rfl hne⟩
          rw [he, List.getElem?_take_of_lt (by decide)]
          exact hget
      refine ⟨hstack, fun hidle => ?_, h.answered, h.posted, h.file, fun _ => hfinished, h.unused,
        h.range, fun item hitem => ?_⟩
      · rw [hfinished] at hidle
        cases hidle
      · have hphase := h.phase item hitem
        generalize a.script = script at hphase
        cases script with
        | releasing sequence =>
            refine ⟨hphase.1, hphase.2.imp (fun hcar => ?_) (hfreed item)⟩
            rw [hcarriers]
            exact hcar
        | writing | attaching | finished => exact hfreed item hphase
        | notStarted => exact ⟨hphase.1, (hcarriers _).trans hphase.2⟩
        | waiting | reading | unnumbered => exact ⟨hphase.1, (hcarriers _).trans hphase.2⟩
        | numbered | claiming =>
            exact ⟨hphase.1, hphase.2.1, (hcarriers _).trans hphase.2.2⟩
  · cases htab

theorem RestoreInv.deleteCandidate {a a' : RestoreRun} (h : RestoreInv a)
    {target : Option Target} (hstep : restoreStep a (.deleteCandidate target) = some a') :
    RestoreInv a' := by
  simp only [restoreStep] at hstep
  split at hstep
  · cases hstep
  · simp only [Option.map_eq_some_iff] at hstep
    obtain ⟨tab, htab, rfl⟩ := hstep
    exact h.tried htab h.stack rfl (.inl rfl)
  · next w target _ =>
      split at hstep
      · obtain ⟨σ', result, hdel, hstack, hreserved, hclosed⟩ :=
          deleteWindow_stacks h.stack (some a.primary) true target
        rw [hdel] at hstep
        simp only [Option.map_eq_some_iff] at hstep
        obtain ⟨tab, htab, rfl⟩ := hstep
        exact h.tried htab hstack hreserved (hclosed.imp_right fun hn => ⟨by rw [hn.1]; rfl, hn.2⟩)
      · cases hstep

/-! ## Runs -/

theorem restoreInv_inductive : restoreSystem.Inductive NumberRead RestoreInv where
  init := by
    intro a h
    refine ⟨⟨h.count, h.bound⟩, fun _ => ⟨h.item, h.number⟩, fun r hr => ?_, fun s hs => ?_,
      fun s hs => ?_, fun hc => ?_, fun _ => h.script, fun item hitem => ?_, fun item hitem => ?_⟩
    · rw [h.action] at hr
      cases hr
    · rw [h.action] at hs
      cases hs
    · rw [h.tab] at hs
      cases hs
    · rw [h.tab] at hc
      exact absurd rfl hc
    · rw [h.item] at hitem
      cases hitem
    · rw [h.item] at hitem
      cases hitem
  step := by
    intro a l a' h hgood hstep
    cases l with
    | reserve => exact h.action (.inl rfl) hgood hstep
    | openTab opened => exact h.action (.inr (.inl ⟨opened, rfl⟩)) hgood hstep
    | writeSequence => exact h.action (.inr (.inr rfl)) hgood hstep
    | lookSequence => exact h.look (.inl rfl) hgood hstep
    | readSequence => exact h.look (.inr (.inl rfl)) hgood hstep
    | lookCancelled => exact h.look (.inr (.inr rfl)) hgood hstep
    | timeout => exact absurd hgood id
    | claim target => exact h.claim hstep
    | release => exact h.release hstep
    | writeWindow => exact h.attach (.inl rfl) hstep
    | attach => exact h.attach (.inr rfl) hstep
    | app l => exact h.app hstep
    | listWindows => exact h.listWindows hstep
    | deleteCandidate target => exact h.deleteCandidate hstep

/-- **No reservation is stuck** after a run in which the number was read. -/
theorem not_stuck_of_numberRead {a : RestoreRun}
    (hreach : restoreSystem.ReachableWith NumberRead a) : NotStuck a :=
  (restoreInv_inductive.invariant hreach).notStuck

/-! ## A closed tab and a closed pane -/

/-- A restore over what has been closed. -/
def restoreOver (tmux : State) : RestoreRun where
  tmux := tmux
  primary := "newmux"
  action := .idle
  script := .notStarted
  tab := .opened
  item := none
  restored := false

/-- One of three tabs has been closed. -/
def closedTab : State := exec (tabState 3) (.softDeleteWindow (tab 0))

/-- One of three panes has been closed. -/
def closedPane : State := exec splitState (.softDeletePane (splitPane 0))

theorem restoreOver_start {tmux : State} (hcount : tmux.closedCount = tmux.closedStack.length)
    (hbound : tmux.closedStack.length ≤ newmuxRecoveryMaxItems)
    (hnumber : ∀ item ∈ tmux.closedStack.head?, 0 < item.sequence ∧ item.sequence < 4294967296 ∧
      ∀ x ∈ tmux.reservedStack, x.sequence ≠ item.sequence) : RestoreStart (restoreOver tmux) :=
  ⟨rfl, rfl, rfl, rfl, rfl, hcount, hbound, hnumber⟩

instance (a : RestoreRun) : (l : RestoreStep) → Decidable (NumberRead a l)
  | .openTab opened =>
      match h : a.action with
      | .answered (some item) =>
          decidable_of_iff (item.type = .window ∧ opened = true) (by simp [NumberRead, h])
      | .answered none => .isTrue (by simp [NumberRead, h])
      | .idle => .isTrue (by simp [NumberRead, h])
      | .posted _ => .isTrue (by simp [NumberRead, h])
      | .finished => .isTrue (by simp [NumberRead, h])
  | .timeout => .isFalse id
  | .lookCancelled => inferInstanceAs (Decidable (_ → _))
  | .reserve | .writeSequence | .lookSequence | .readSequence | .claim _ | .release
  | .writeWindow | .attach | .app _ | .listWindows | .deleteCandidate _ => .isTrue trivial

/-- The tab comes back. -/
theorem not_stuck_closed_tab : ∃ a, a.restored = true ∧ NotStuck a := by
  have hstart : RestoreStart (restoreOver closedTab) := by
    refine restoreOver_start ?_ ?_ ?_ <;> decide +kernel
  have hrun : TSys.RunTo NumberRead restoreStep (fun a => a.restored = true)
      (restoreOver closedTab) [.reserve, .openTab true, .writeSequence, .lookSequence,
        .readSequence, .lookCancelled, .claim (some 0), .writeWindow, .attach] := by
    decide +kernel
  have hinit : restoreSystem.ReachableWith NumberRead (restoreOver closedTab) := .init hstart
  obtain ⟨a, hreach, ha⟩ := TSys.reachableWith_runTo (fun _ _ _ h => h) hinit hrun
  exact ⟨a, ha, not_stuck_of_numberRead hreach⟩

/-- The pane stays reserved. -/
theorem reserved_pane_stuck : ¬ ∀ a, restoreSystem.Reachable a → NotStuck a := by
  intro h
  have hstart : RestoreStart (restoreOver closedPane) := by
    refine restoreOver_start ?_ ?_ ?_ <;> decide +kernel
  have hrun : TSys.RunTo (fun _ _ => True) restoreStep
      (fun a => a.action = .finished ∧ a.script = .notStarted ∧ a.tab.closer = .idle ∧
        ∃ item ∈ a.item, item ∈ a.tmux.reservedStack)
      (restoreOver closedPane) [.reserve, .openTab true] := by
    decide +kernel
  have hinit : restoreSystem.Reachable (restoreOver closedPane) := .init hstart
  obtain ⟨a, hreach, haction, hscript, hcloser, item, hitem, hin⟩ :=
    TSys.reachableWith_runTo (fun _ _ _ h => h) hinit hrun
  exact (h a hreach haction (.inl hscript) (.inl hcloser) item hitem).1 hin

end Newmux.Theorems
