import Newmux.Logic.Mirror
import Newmux.Logic.Tabs

/-!
# The mirror and the closed stack

What `read_lifo_items` lists is what the native stack holds as long as the
stack never loses a window behind the mirror's back, numbers are not used
again, windows come back to the stack in the order of the file, and deletes
land in the order in which the windows were closed.
-/

namespace Newmux.Theorems

open Newmux.Base Newmux.Tmux Newmux.Recovery Newmux.Runtime Newmux.Logic

/-- The windows of the native closed stack, oldest first. -/
def recoverable (σ : State) : List Entry := (σ.closedStack.filterMap windowEntry).reverse

/-- What `stack` and the dashboard list. -/
def listed (files : StackFiles) : List Entry := (readLifoItems files false).map lineEntry

def MirrorRefines (μ : Mirror) : Prop := listed μ.files = recoverable μ.native

/-! ## The condition -/

/-- The numbers the mirror knows or is about to hear of. -/
def usedNumbers (μ : Mirror) : List Int :=
  μ.files.lifo.map LifoItem.sequence ++ readRestoredSequences μ.files.restored ++
    μ.pending.filterMap MirrorCall.number

/-- An item is closed under a number that is on neither stack; the number of a
window is positive and new to the mirror. -/
def NewNumber (μ : Mirror) (l : Event) : Prop :=
  parks μ.native l = true →
    nextSequence μ.native ∉
        (μ.native.closedStack ++ μ.native.reservedStack).map ClosedItem.sequence ∧
      (deletedWindow l ≠ none →
        0 < nextSequence μ.native ∧ (nextSequence μ.native : Int) ∉ usedNumbers μ)

/-- A full stack that is pushed onto does not drop a window. -/
def EvictsNoWindow (σ : State) (l : Event) : Prop :=
  parks σ l = true ∨ (putsBack σ l).isSome = true →
    σ.closedStack.length = newmuxRecoveryMaxItems →
      ∀ x ∈ σ.closedStack.getLast?, x.type ≠ .window

/-- A window is put back on top of windows that are earlier in the file. -/
def BackInOrder (μ : Mirror) (l : Event) : Prop :=
  ∀ item ∈ putsBack μ.native l, item.type = .window →
    ∀ x ∈ μ.native.closedStack, x.type = .window →
      ¬ [((item.sequence : Int), item.windowId), ((x.sequence : Int), x.windowId)].Sublist
        (μ.files.lifo.map lineEntry)

/-- The stacks are cleared only while no window is on them. -/
def ClearsNoWindow (σ : State) : Event → Prop
  | .clearRecentlyClosed => ∀ item ∈ σ.closedStack ++ σ.reservedStack, item.type ≠ .window
  | _ => True

/-- The step keeps the mirror with the stack. -/
def KeepsMirror (μ : Mirror) : MirrorEvent → Prop
  | .native l _ =>
      NewNumber μ l ∧ EvictsNoWindow μ.native l ∧ BackInOrder μ l ∧ ClearsNoWindow μ.native l
  | .land i => ∀ call ∈ μ.pending[i]?, ∀ e ∈ deleteEntry call,
      ∀ x ∈ closedAfter μ.native.closedStack e, x ∉ μ.files.lifo.map lineEntry

/-- What carries the mirror along a run. -/
structure MirrorInv (μ : Mirror) : Prop where
  trees : TreesOk μ.native.server
  stack : StackOk μ.native
  mirrors : Mirrors μ.native.closedStack μ.native.reservedStack μ.files μ.pending

/-! ## The deletes -/

/-- Parking a window keeps what its item says. -/
theorem breakLiveWindow_closed {sv sv' : Server} {item item' : ClosedItem} {s : Nat}
    {wl : Winlink} (h : newmuxBreakLiveWindow sv item s wl = (sv', .ok item')) :
    item'.type = item.type ∧ item'.sequence = item.sequence := by
  refine ⟨?_, breakLiveWindow_item h⟩
  simp only [newmuxBreakLiveWindow] at h
  split at h
  · cases h
  · split at h
    · cases h
    · cases h
      rfl

theorem breakLivePane_closed {sv sv' : Server} {item item' : ClosedItem} {wl : Winlink}
    {wp : Nat} (h : newmuxBreakLivePane sv item wl wp = (sv', .ok item')) :
    item'.type = item.type ∧ item'.sequence = item.sequence := by
  refine ⟨?_, breakLivePane_item h⟩
  simp only [newmuxBreakLivePane] at h
  split at h
  · cases h
  · cases h
    rfl

/-- A delete that gets as far as parking its window prints the item if that
succeeds. -/
theorem deleteWindow_parks {σ : State} {primary : Option String} {target : Target}
    (hparks : parks σ (.deleteWindow primary true target) = true) :
    ∃ s wl w,
      exec σ (.deleteWindow primary true target) = parked σ
        (newmuxBreakLiveWindow σ.server (newmuxItemFromWindow σ s wl w).1 s.id wl) ∧
      deletedItem σ primary target =
        match (newmuxBreakLiveWindow σ.server (newmuxItemFromWindow σ s wl w).1 s.id wl).2 with
        | .error _ => none
        | .ok _ => (exec σ (.deleteWindow primary true target)).closedStack.head? := by
  have hparks' := hparks
  simp only [parks] at hparks'
  cases hs₀ : newmuxPrimarySessionFromArgs σ.server primary target.session with
  | error cause => simp [hs₀] at hparks'
  | ok s₀ =>
      cases hlink : deleteLink σ.server s₀ target with
      | none => simp [hs₀, hlink] at hparks'
      | some r =>
          obtain ⟨s, wl⟩ := r
          cases hw : windowFindById σ.server target.wl.window with
          | none => simp [hs₀, hlink, hw] at hparks'
          | some w =>
              simp only [hs₀, hlink, hw, Bool.and_eq_true, Bool.not_eq_true'] at hparks'
              refine ⟨s, wl, w, ?_⟩
              simp only [deletedItem, hparks, exec, cmdNewmuxDeleteWindowExec, hs₀, hlink, hw,
                hparks'.1, hparks'.2, parked, newmuxItemFromWindow, Bool.not_true,
                Bool.false_eq_true, if_false]
              generalize newmuxBreakLiveWindow σ.server _ s.id wl = broken
              obtain ⟨server, result⟩ := broken
              cases result with
              | error cause => exact ⟨rfl, rfl⟩
              | ok item => exact ⟨rfl, rfl⟩

theorem deletedItem_none {σ : State} {primary : Option String} {target : Target}
    (h : parks σ (.deleteWindow primary true target) = false) :
    deletedItem σ primary target = none := by
  simp [deletedItem, h]

/-! ## The steps -/

/-- The stacks are as before and no call is due. -/
theorem MirrorInv.keep {μ : Mirror} (h : MirrorInv μ) {σ : State} (htrees : TreesOk σ.server)
    (hclosed : σ.closedStack = μ.native.closedStack)
    (hreserved : σ.reservedStack = μ.native.reservedStack)
    (hcount : σ.closedCount = μ.native.closedCount) :
    MirrorInv { μ with native := σ, pending := μ.pending ++ [] } := by
  refine ⟨htrees, ⟨?_, ?_⟩, ?_⟩
  · rw [hcount, hclosed]
    exact h.stack.count
  · rw [hclosed]
    exact h.stack.bound
  · rw [List.append_nil]
    show Mirrors σ.closedStack σ.reservedStack μ.files μ.pending
    rw [hclosed, hreserved]
    exact h.mirrors

/-- A push onto stacks whose books are right with the item on top. -/
theorem MirrorInv.pushed {σ : State} {files : StackFiles} {pending : List MirrorCall}
    {item : ClosedItem} (htrees : TreesOk σ.server) (hstack : StackOk σ)
    (h : Mirrors (item :: σ.closedStack) σ.reservedStack files pending)
    (hevict : σ.closedStack.length = newmuxRecoveryMaxItems →
      ∀ x ∈ σ.closedStack.getLast?, x.type ≠ .window) :
    MirrorInv ⟨newmuxStackPush σ item, files, pending⟩ := by
  refine ⟨htrees, hstack.push item, ?_⟩
  show Mirrors (newmuxStackPush σ item).closedStack σ.reservedStack files pending
  rw [(push_closedStack hstack item).1]
  exact h.trim hstack.bound hevict

/-- A window is deleted with its call on the way, or could not be parked. -/
theorem MirrorInv.deleteWindow {μ : Mirror} (h : MirrorInv μ) {primary : Option String}
    {target : Target} {caller : Caller}
    (hv : (Event.deleteWindow primary true target).Valid μ.native.server)
    (hnew : NewNumber μ (.deleteWindow primary true target))
    (hevict : EvictsNoWindow μ.native (.deleteWindow primary true target)) :
    MirrorInv (μ.exec (.native (.deleteWindow primary true target) caller)) := by
  have htrees := exec_treesOk h.trees hv
  cases hparks : parks μ.native (.deleteWindow primary true target) with
  | false =>
      have hcall : mirrorCall μ.native caller (.deleteWindow primary true target) = none := by
        simp only [mirrorCall, deletedItem_none hparks, Option.map_none]
      have hout := exec_outcome h.trees.unique hv
      simp only [Mirror.exec, hcall, Option.toList_none]
      generalize exec μ.native (.deleteWindow primary true target) = σ at hout htrees ⊢
      cases hout with
      | idle => exact h.keep htrees rfl rfl rfl
      | kill => exact h.keep htrees rfl rfl rfl
      | parkWindow _ _ _ _ _ _ hparks' => rw [hparks] at hparks'; cases hparks'
      | parkPane _ _ _ _ _ _ _ _ hparks' => rw [hparks] at hparks'; cases hparks'
  | true =>
      obtain ⟨hunused, hwindow⟩ := hnew hparks
      obtain ⟨hpos, hmirror⟩ := hwindow (by simp [deletedWindow])
      obtain ⟨s, wl, w, hexec, hitem⟩ := deleteWindow_parks hparks
      simp only [Mirror.exec, mirrorCall, hitem]
      rw [hexec] at htrees ⊢
      cases hbroken : newmuxBreakLiveWindow μ.native.server
          (newmuxItemFromWindow μ.native s wl w).1 s.id wl with
      | mk server result =>
          rw [hbroken] at htrees
          cases result with
          | error cause => exact h.keep htrees rfl rfl rfl
          | ok item =>
              obtain ⟨htype, hseq⟩ := breakLiveWindow_closed hbroken
              have hseq : item.sequence = nextSequence μ.native := hseq
              let σ₁ : State :=
                { μ.native with closedNextSequence := nextSequence μ.native, server }
              have hok₁ : StackOk σ₁ := ⟨h.stack.count, h.stack.bound⟩
              have hpushed : parked μ.native (server, .ok item) = newmuxStackPush σ₁ item := rfl
              have hhead : (newmuxStackPush σ₁ item).closedStack.head? = some item := by
                rw [(push_closedStack hok₁ item).1]
                rfl
              simp only [hpushed, hhead, Option.map_some, Option.toList_some]
              refine MirrorInv.pushed (σ := σ₁) htrees hok₁ ?_ (hevict (.inl hparks))
              exact h.mirrors.pushWindow htype (hseq ▸ hpos) (hseq ▸ hunused) (hseq ▸ hmirror)
                caller

/-- A pane is deleted: the mirror does not hear of it. -/
theorem MirrorInv.softDeletePane {μ : Mirror} (h : MirrorInv μ) {target : Target}
    {caller : Caller} (hv : (Event.softDeletePane target).Valid μ.native.server)
    (hnew : NewNumber μ (.softDeletePane target))
    (hevict : EvictsNoWindow μ.native (.softDeletePane target)) :
    MirrorInv (μ.exec (.native (.softDeletePane target) caller)) := by
  have htrees := exec_treesOk h.trees hv
  have hout := exec_outcome h.trees.unique hv
  simp only [Mirror.exec, mirrorCall, Option.toList_none]
  generalize exec μ.native (.softDeletePane target) = σ at hout htrees ⊢
  cases hout with
  | idle => exact h.keep htrees rfl rfl rfl
  | kill => exact h.keep htrees rfl rfl rfl
  | parkWindow _ _ _ _ _ _ _ hwindow => cases hwindow
  | parkPane _ s wl w wp _ _ _ hparks =>
      cases hbroken : newmuxBreakLivePane μ.native.server
          (newmuxItemFromPane μ.native s wl w wp).1 wl wp with
      | mk server result =>
          rw [hbroken] at htrees
          cases result with
          | error cause => exact h.keep htrees rfl rfl rfl
          | ok item =>
              obtain ⟨htype, hseq⟩ := breakLivePane_closed hbroken
              have hseq : item.sequence = nextSequence μ.native := hseq
              have hother : item.type ≠ .window := by
                rw [htype]
                exact fun he => ClosedType.noConfusion he
              rw [List.append_nil]
              refine MirrorInv.pushed htrees ⟨h.stack.count, h.stack.bound⟩ ?_
                (hevict (.inl hparks))
              exact h.mirrors.pushOther hother (hseq ▸ (hnew hparks).1)

/-- The newest item is restored, or stays where it is. -/
theorem MirrorInv.reopen {μ : Mirror} (h : MirrorInv μ) {target : Option Nat} {print : Bool}
    {caller : Caller} :
    MirrorInv (μ.exec (.native (.reopenLatestClosed target print) caller)) := by
  simp only [Mirror.exec, exec, cmdNewmuxReopenLatestClosedExec, mirrorCall]
  cases hpop : newmuxStackPop μ.native with
  | none => exact h.keep h.trees rfl rfl rfl
  | some r =>
      obtain ⟨item, σ₁⟩ := r
      have htrees := restoreClosedItem_treesOk (pop_server hpop ▸ h.trees : TreesOk σ₁.server)
        target item
      have hstack₁ := h.stack.pop hpop
      obtain ⟨hclosed, hσ₁⟩ := pop_some hpop
      have hreserved : σ₁.reservedStack = μ.native.reservedStack := by rw [hσ₁]
      have hmirrors := h.mirrors
      rw [hclosed, ← hreserved] at hmirrors
      simp only [restoreOrPushBack, Option.bind_some, reopenCall]
      cases hres : newmuxRestoreClosedItem σ₁.server target item with
      | mk server result =>
          rw [hres] at htrees
          cases result with
          | error cause =>
              -- the item is back on top of the stack, as it was
              simp only [Option.toList_none, push_pop h.stack hpop server]
              exact h.keep htrees rfl rfl rfl
          | ok _ =>
              refine ⟨htrees, ⟨hstack₁.count, hstack₁.bound⟩, ?_⟩
              have hreopen : Mirrors σ₁.closedStack σ₁.reservedStack μ.files
                  (μ.pending ++ [.restore (.restoreLatest (reopenFields item))]) :=
                hmirrors.reopen (restoreLatest_writes item) rfl
              exact hreopen

/-- A reserved item is restored, or goes back on top of the closed stack. -/
theorem MirrorInv.claim {μ : Mirror} (h : MirrorInv μ) {value : Option String}
    {target : Option Nat} {print : Bool} {caller : Caller}
    (hevict : EvictsNoWindow μ.native (.claimReservedClosed value target print))
    (hback : BackInOrder μ (.claimReservedClosed value target print)) :
    MirrorInv (μ.exec (.native (.claimReservedClosed value target print) caller)) := by
  simp only [Mirror.exec, exec, cmdNewmuxClaimReservedClosedExec, mirrorCall]
  cases hn : reservedSequence value with
  | error cause => exact h.keep h.trees rfl rfl rfl
  | ok n =>
      simp only
      cases hpop : newmuxReservedPopBySequence μ.native n with
      | none => exact h.keep h.trees rfl rfl rfl
      | some r =>
          obtain ⟨item, σ₁⟩ := r
          have hserver := reservedPop_server hpop
          have htrees := restoreClosedItem_treesOk (hserver ▸ h.trees : TreesOk σ₁.server)
            target item
          obtain ⟨-, hperm, hσ₁⟩ := reservedPop_some hpop
          have hclosed : σ₁.closedStack = μ.native.closedStack := by rw [hσ₁]
          have hcount : σ₁.closedCount = μ.native.closedCount := by rw [hσ₁]
          have hstack₁ : StackOk σ₁ := by
            refine ⟨?_, ?_⟩
            · rw [hcount, hclosed]
              exact h.stack.count
            · rw [hclosed]
              exact h.stack.bound
          simp only [restoreOrPushBack, Option.bind_some, claimCall]
          cases hres : newmuxRestoreClosedItem σ₁.server target item with
          | mk server result =>
              rw [hres] at htrees
              cases result with
              | error cause =>
                  -- the item goes back, and the application is told nothing
                  have hfail : restorable μ.native.server target item = false := by
                    have hiff := restoreClosedItem_ok_iff h.trees target item
                    rw [← hserver, hres] at hiff
                    simpa [hserver] using hiff
                  have hputs : putsBack μ.native (.claimReservedClosed value target print) =
                      some item := by
                    simp only [putsBack, reservedPop_item hn hpop, Option.filter_some, hfail,
                      Bool.not_false, if_true]
                  rw [Option.toList_none, List.append_nil]
                  refine MirrorInv.pushed (σ := { σ₁ with server }) htrees
                    ⟨hstack₁.count, hstack₁.bound⟩ ?_ ?_
                  · show Mirrors (item :: σ₁.closedStack) σ₁.reservedStack μ.files μ.pending
                    rw [hclosed]
                    exact h.mirrors.putBack hperm (hback item hputs)
                  · show σ₁.closedStack.length = newmuxRecoveryMaxItems → _
                    rw [hclosed]
                    exact hevict (.inr (by rw [hputs]; rfl))
              | ok _ =>
                  refine ⟨htrees, ⟨hstack₁.count, hstack₁.bound⟩, ?_⟩
                  show Mirrors σ₁.closedStack σ₁.reservedStack μ.files _
                  rw [hclosed]
                  -- only the restore of a window is passed on
                  by_cases htype : item.type = .window
                  · simp only [if_pos htype]
                    have hclaim : Mirrors μ.native.closedStack σ₁.reservedStack μ.files
                        (μ.pending ++ [.restore (.mirrorNativeRestore item.sequence)]) :=
                      h.mirrors.claim hperm rfl rfl
                    exact hclaim
                  · simp only [if_neg htype, Option.toList_none, List.append_nil]
                    exact h.mirrors.dropOther hperm htype

/-- A reserved item is released. -/
theorem MirrorInv.release {μ : Mirror} (h : MirrorInv μ) {value : Option String} {print : Bool}
    {caller : Caller} (hevict : EvictsNoWindow μ.native (.releaseReservedClosed value print))
    (hback : BackInOrder μ (.releaseReservedClosed value print)) :
    MirrorInv (μ.exec (.native (.releaseReservedClosed value print) caller)) := by
  simp only [Mirror.exec, exec, cmdNewmuxReleaseReservedClosedExec, mirrorCall]
  cases hn : reservedSequence value with
  | error cause => exact h.keep h.trees rfl rfl rfl
  | ok n =>
      simp only
      cases hpop : newmuxReservedPopBySequence μ.native n with
      | none => exact h.keep h.trees rfl rfl rfl
      | some r =>
          obtain ⟨item, σ₁⟩ := r
          obtain ⟨-, hperm, hσ₁⟩ := reservedPop_some hpop
          have hclosed : σ₁.closedStack = μ.native.closedStack := by rw [hσ₁]
          have hcount : σ₁.closedCount = μ.native.closedCount := by rw [hσ₁]
          have hputs : putsBack μ.native (.releaseReservedClosed value print) = some item :=
            reservedPop_item hn hpop
          rw [Option.toList_none, List.append_nil]
          refine MirrorInv.pushed (reservedPop_server hpop ▸ h.trees) ⟨?_, ?_⟩ ?_ ?_
          · rw [hcount, hclosed]
            exact h.stack.count
          · rw [hclosed]
            exact h.stack.bound
          · rw [hclosed]
            exact h.mirrors.putBack hperm (hback item hputs)
          · rw [hclosed]
            exact hevict (.inr (by rw [hputs]; rfl))

theorem MirrorInv.native {μ : Mirror} (h : MirrorInv μ) {l : Event} {caller : Caller}
    (hv : l.Valid μ.native.server) (hmirrored : Mirrored l)
    (hgood : KeepsMirror μ (.native l caller)) : MirrorInv (μ.exec (.native l caller)) := by
  obtain ⟨hnew, hevict, hback, hclears⟩ := hgood
  cases l with
  | softDeletePane target => exact h.softDeletePane hv hnew hevict
  | softDeleteWindow target => exact absurd hmirrored id
  | deleteWindow primary print target =>
      obtain rfl : print = true := hmirrored
      exact h.deleteWindow hv hnew hevict
  | reserveLatestClosed print =>
      simp only [Mirror.exec, exec, cmdNewmuxReserveLatestClosedExec, mirrorCall]
      cases hpop : newmuxStackPop μ.native with
      | none => exact h.keep h.trees rfl rfl rfl
      | some r =>
          obtain ⟨item, σ₁⟩ := r
          have hstack₁ := h.stack.pop hpop
          obtain ⟨hclosed, hσ₁⟩ := pop_some hpop
          have hreserved : σ₁.reservedStack = μ.native.reservedStack := by rw [hσ₁]
          have hmirrors := h.mirrors
          rw [hclosed, ← hreserved] at hmirrors
          rw [Option.toList_none, List.append_nil]
          exact ⟨pop_server hpop ▸ h.trees, ⟨hstack₁.count, hstack₁.bound⟩, hmirrors.reserve⟩
  | claimReservedClosed value target print => exact h.claim hevict hback
  | releaseReservedClosed value print => exact h.release hevict hback
  | reopenLatestClosed target print => exact h.reopen
  | clearRecentlyClosed =>
      simp only [Mirror.exec, mirrorCall, Option.toList_none, List.append_nil]
      exact ⟨recoveryClear_treesOk h.trees, ⟨rfl, Nat.zero_le _⟩, h.mirrors.clear hclears⟩
  | output wp content => exact h.keep (exec_treesOk h.trees hv) rfl rfl rfl

theorem MirrorInv.land {μ : Mirror} (h : MirrorInv μ) {i : Nat}
    (hgood : KeepsMirror μ (.land i)) : MirrorInv (μ.exec (.land i)) := by
  simp only [Mirror.exec]
  cases hcall : μ.pending[i]? with
  | none => exact h
  | some call =>
      obtain ⟨hi, hget⟩ := List.getElem?_eq_some_iff.mp hcall
      have hperm : μ.pending.Perm (call :: μ.pending.eraseIdx i) := by
        rw [← hget]
        exact (List.getElem_cons_eraseIdx_perm hi).symm
      refine ⟨h.trees, h.stack, ?_⟩
      cases call with
      | delete line => exact h.mirrors.landDelete hperm (hgood _ hcall _ rfl)
      | restore call => exact h.mirrors.landRestore hperm

theorem mirrorInv_inductive : (mirrorSystem TreesOk).Inductive KeepsMirror MirrorInv where
  init := by
    rintro ⟨σ, files, pending⟩ ⟨⟨hfresh, hfiles, hpending⟩, hok⟩
    obtain rfl : files = ⟨[], none⟩ := hfiles
    obtain rfl : pending = [] := hpending
    obtain ⟨server, closed, reserved, next, count⟩ := σ
    obtain ⟨rfl, rfl, rfl, rfl⟩ := hfresh
    refine ⟨hok, ⟨rfl, Nat.zero_le _⟩, ⟨List.nodup_nil, ?_, ?_⟩⟩
    · exact ⟨List.nodup_nil, List.nodup_nil, fun a ha => absurd ha List.not_mem_nil,
        fun a ha => absurd ha List.not_mem_nil, fun a ha => absurd ha List.not_mem_nil,
        List.Sublist.refl _⟩
    · exact fun call hcall => absurd hcall List.not_mem_nil
  step := by
    rintro μ l _ h hgood ⟨hv, rfl⟩
    cases l with
    | native l caller => exact h.native hv.1 hv.2 hgood
    | land i => exact h.land hgood

/-- **The mirror refines the native stack**: with every call landed and no
restore half way, it lists the windows of the closed stack, oldest first. -/
theorem mirror_refines {μ : Mirror} (hreach : (mirrorSystem TreesOk).ReachableWith KeepsMirror μ)
    (hlanded : μ.pending = [])
    (hreserved : ∀ item ∈ μ.native.reservedStack, item.type ≠ .window) : MirrorRefines μ := by
  have h := (mirrorInv_inductive.invariant hreach).mirrors
  rw [hlanded] at h
  exact h.shown hreserved

instance (σ : State) : (l : Event) → Decidable (ClearsNoWindow σ l)
  | .clearRecentlyClosed => inferInstanceAs (Decidable (∀ item ∈ σ.closedStack ++ σ.reservedStack,
      item.type ≠ .window))
  | .softDeletePane _ => .isTrue trivial
  | .softDeleteWindow _ => .isTrue trivial
  | .deleteWindow _ _ _ => .isTrue trivial
  | .reserveLatestClosed _ => .isTrue trivial
  | .claimReservedClosed _ _ _ => .isTrue trivial
  | .releaseReservedClosed _ _ => .isTrue trivial
  | .reopenLatestClosed _ _ => .isTrue trivial
  | .output _ _ => .isTrue trivial

instance (μ : Mirror) (l : Event) : Decidable (NewNumber μ l) :=
  inferInstanceAs (Decidable (_ → _ ∧ (_ → _ ∧ _)))

instance (σ : State) (l : Event) : Decidable (EvictsNoWindow σ l) :=
  inferInstanceAs (Decidable (_ → _ → ∀ x ∈ σ.closedStack.getLast?, x.type ≠ .window))

instance (μ : Mirror) (l : Event) : Decidable (BackInOrder μ l) :=
  inferInstanceAs (Decidable (∀ item ∈ putsBack μ.native l, _ →
    ∀ x ∈ μ.native.closedStack, _ → ¬ List.Sublist _ _))

instance (μ : Mirror) : (l : MirrorEvent) → Decidable (KeepsMirror μ l)
  | .native l _ => inferInstanceAs (Decidable (NewNumber μ l ∧ EvictsNoWindow μ.native l ∧
      BackInOrder μ l ∧ ClearsNoWindow μ.native l))
  | .land i => inferInstanceAs (Decidable (∀ call ∈ μ.pending[i]?, ∀ e ∈ deleteEntry call,
      ∀ x ∈ closedAfter μ.native.closedStack e, x ∉ μ.files.lifo.map lineEntry))

/-- The tabs' server with an empty runtime directory. -/
def tabMirror (n : Nat) : Mirror := ⟨tabState n, ⟨[], none⟩, []⟩

theorem tabMirror_fresh (n : Nat) : (tabMirror n).Fresh := ⟨tabState_fresh n, rfl, rfl⟩

/-- The application closes tab `i`. -/
def closeTab (i : Nat) : MirrorEvent :=
  .native (.deleteWindow none true (tab i)) ⟨"newmux", true⟩

/-- Two tabs are closed, and the second is restored before its delete lands. -/
def restoreBeforeLanding : List MirrorEvent :=
  [closeTab 0, closeTab 1, .native (.reopenLatestClosed none true) ⟨"newmux", false⟩,
    .land 2, .land 0, .land 0]

theorem mirror_restoreBeforeLanding :
    MirrorRefines (TSys.runFrom Mirror.exec (tabMirror 3) restoreBeforeLanding) :=
  mirror_refines
    (mirror_run (.init ⟨tabMirror_fresh 3, tabServer_treesOk 3⟩) (by decide +kernel))
    (by decide +kernel) (by decide +kernel)

/-- A tab is closed, its delete lands, and the stacks are cleared. -/
def clearAfterLanding : List MirrorEvent :=
  [closeTab 0, .land 0, .native .clearRecentlyClosed ⟨"newmux", false⟩]

/-- The mirror goes on listing the tab. -/
theorem mirror_cleared :
    ¬ ∀ μ, (mirrorSystem TreesOk).Reachable μ → μ.pending = [] → μ.native.reservedStack = [] →
      MirrorRefines μ := by
  intro h
  have hreach : (mirrorSystem TreesOk).Reachable
      (TSys.runFrom Mirror.exec (tabMirror 3) clearAfterLanding) :=
    mirror_run (.init ⟨tabMirror_fresh 3, tabServer_treesOk 3⟩) (by decide +kernel)
  exact absurd (h _ hreach (by decide +kernel) (by decide +kernel)) (by
    unfold MirrorRefines
    decide +kernel)

end Newmux.Theorems
