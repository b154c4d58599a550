import Newmux.Logic.Stack

/-!
# What a command can do

One inversion lemma for all commands: from a valid target, a command does
nothing, kills a window, parks a window or a pane, moves an item between the
stacks, tries a restore, or clears. Every invariant of a run is proved from
these cases.
-/

namespace Newmux.Logic

open Newmux.Base Newmux.Tmux Newmux.Recovery

/-- The command passes its guards and will try to park a window or pane. -/
def parks (σ : State) : Event → Bool
  | .softDeletePane target =>
      match target.wp, sessionFindById σ.server target.session,
          windowFindById σ.server target.wl.window with
      | some _, some _, some w => windowCountPanes w != 1
      | _, _, _ => false
  | .softDeleteWindow target =>
      match sessionFindById σ.server target.session,
          windowFindById σ.server target.wl.window with
      | some s, some w => !lastTab s target.wl && !newmuxWindowLooksFresh σ.server w
      | _, _ => false
  | .deleteWindow primary _ target =>
      match newmuxPrimarySessionFromArgs σ.server primary target.session with
      | .error _ => false
      | .ok s =>
          match deleteLink σ.server s target, windowFindById σ.server target.wl.window with
          | some (s, wl), some w => !lastTab s wl && newmuxWindowIsDirty σ.server w
          | _, _ => false
  | _ => false

/-- The window that a delete of a window is about. -/
def deletedWindow : Event → Option Nat
  | .softDeleteWindow target => some target.wl.window
  | .deleteWindow _ _ target => some target.wl.window
  | _ => none

/-- The reserved item a claim or release names. -/
def reservedItem (σ : State) (value : Option String) : Option ClosedItem :=
  match reservedSequence value with
  | .error _ => none
  | .ok n => σ.reservedStack.find? (fun item => item.sequence == n)

/-- A window as a delete finds it: linked into a session that is not the
recovery session. -/
structure Deletable (σ : State) (s : Session) (wl : Winlink) (w : Window) : Prop where
  session : sessionFindById σ.server s.id = some s
  name : s.name ≠ newmuxRecoverySession
  linked : wl ∈ s.windows
  window : windowFindById σ.server wl.window = some w

/-- The state after an item with the next sequence number has been parked, or
could not be. -/
def parked (σ : State) (broken : Server × Except String ClosedItem) : State :=
  (pushBroken { σ with closedNextSequence := nextSequence σ } broken).1

/-- What a command can do. -/
inductive Outcome (σ : State) : Event → State → Prop
  | idle (l : Event) (hidle : parks σ l = false) : Outcome σ l σ
  | kill (l : Event) (s : Session) (wl : Winlink) (w : Window) (h : Deletable σ s wl w)
      (hlast : lastTab s wl = false) (hidle : parks σ l = false) :
      Outcome σ l { σ with server := serverKillWindow σ.server wl.window true }
  | parkWindow (l : Event) (s : Session) (wl : Winlink) (w : Window) (h : Deletable σ s wl w)
      (hlast : lastTab s wl = false) (hparks : parks σ l = true)
      (hwindow : deletedWindow l = some wl.window) :
      Outcome σ l (parked σ
        (newmuxBreakLiveWindow σ.server (newmuxItemFromWindow σ s wl w).1 s.id wl))
  | parkPane (l : Event) (s : Session) (wl : Winlink) (w : Window) (wp : Nat)
      (h : Deletable σ s wl w) (hwp : wp ∈ w.panes) (hcount : windowCountPanes w ≠ 1)
      (hparks : parks σ l = true) :
      Outcome σ l (parked σ
        (newmuxBreakLivePane σ.server (newmuxItemFromPane σ s wl w wp).1 wl wp))
  | reserve (print : Bool) (item : ClosedItem) (σ₁ : State)
      (h : newmuxStackPop σ = some (item, σ₁)) :
      Outcome σ (.reserveLatestClosed print) (newmuxReservedPush σ₁ item)
  | reopen (target : Option Nat) (print : Bool) (item : ClosedItem) (σ₁ : State)
      (h : newmuxStackPop σ = some (item, σ₁)) :
      Outcome σ (.reopenLatestClosed target print) (restoreOrPushBack σ₁ target item print).1
  | claim (value : Option String) (target : Option Nat) (print : Bool) (item : ClosedItem)
      (n : Nat) (σ₁ : State) (hitem : reservedItem σ value = some item)
      (h : newmuxReservedPopBySequence σ n = some (item, σ₁)) :
      Outcome σ (.claimReservedClosed value target print)
        (restoreOrPushBack σ₁ target item print).1
  | release (value : Option String) (print : Bool) (item : ClosedItem) (n : Nat) (σ₁ : State)
      (hitem : reservedItem σ value = some item)
      (h : newmuxReservedPopBySequence σ n = some (item, σ₁)) :
      Outcome σ (.releaseReservedClosed value print) (newmuxStackPush σ₁ item)
  | clear : Outcome σ .clearRecentlyClosed (newmuxRecoveryClear σ)
  | output (wp : Nat) (content : PaneContent) :
      Outcome σ (.output wp content) { σ with server := paneOutput σ.server wp content }

/-! ## The deletes -/

theorem softDeletePane_outcome {σ : State} {target : Target} (hv : target.Valid σ.server) :
    Outcome σ (.softDeletePane target) (exec σ (.softDeletePane target)) := by
  obtain ⟨s, hs, hname, hwl, w, hw, hpanes⟩ := hv
  rw [Option.mem_def] at hs hw
  have hid := sessionFindById_id hs
  simp only [exec, cmdNewmuxSoftDeletePaneExec, hs, hw]
  cases hwp : target.wp with
  | none => exact .idle _ (by simp [parks, hwp])
  | some wp =>
      simp only
      by_cases hcount : windowCountPanes w = 1
      · rw [if_pos hcount]
        exact .idle _ (by simp [parks, hwp, hs, hw, hcount])
      · rw [if_neg hcount]
        have hparks : parks σ (.softDeletePane target) = true := by
          simp [parks, hwp, hs, hw, hcount]
        have h : Outcome σ (.softDeletePane target) _ :=
          .parkPane _ s target.wl w wp ⟨hid.symm ▸ hs, hname, hwl, hw⟩ (hpanes wp hwp) hcount
            hparks
        simp only [parked, newmuxItemFromPane] at h ⊢
        split <;> next heq => rw [heq] at h; exact h

theorem softDeleteWindow_outcome {σ : State} {target : Target} (hv : target.Valid σ.server) :
    Outcome σ (.softDeleteWindow target) (exec σ (.softDeleteWindow target)) := by
  obtain ⟨s, hs, hname, hwl, w, hw, -⟩ := hv
  rw [Option.mem_def] at hs hw
  have hid := sessionFindById_id hs
  have hwid := windowFindById_id hw
  have hdel : Deletable σ s target.wl w := ⟨hid.symm ▸ hs, hname, hwl, hw⟩
  simp only [exec, cmdNewmuxSoftDeleteWindowExec, hs, hw]
  cases hlast : lastTab s target.wl with
  | true => exact .idle _ (by simp [parks, hs, hw, hlast])
  | false =>
      simp only [Bool.false_eq_true, if_false]
      cases hfresh : newmuxWindowLooksFresh σ.server w with
      | true =>
          simp only [if_true, hwid]
          exact .kill _ s target.wl w hdel hlast (by simp [parks, hs, hw, hfresh])
      | false =>
          have hparks : parks σ (.softDeleteWindow target) = true := by
            simp [parks, hs, hw, hlast, hfresh]
          have h : Outcome σ (.softDeleteWindow target) _ :=
            .parkWindow _ s target.wl w hdel hlast hparks rfl
          simp only [parked, newmuxItemFromWindow] at h
          simp only [Bool.false_eq_true, if_false, newmuxItemFromWindow]
          split <;> next heq => rw [heq] at h; exact h

/-- The session and winlink a delete works on are those of a window outside the
recovery session. -/
theorem deleteLink_deletable {σ : State} {primary : Option String} {print : Bool}
    {target : Target} (hv : (Event.deleteWindow primary print target).Valid σ.server)
    (hu : Table.Unique σ.server.sessions) {s₀ s : Session} {wl : Winlink} {w : Window}
    (hs₀ : newmuxPrimarySessionFromArgs σ.server primary target.session = .ok s₀)
    (hlink : deleteLink σ.server s₀ target = some (s, wl))
    (hw : windowFindById σ.server target.wl.window = some w) :
    Deletable σ s wl w ∧ wl.window = target.wl.window := by
  obtain ⟨⟨st, hst, hname, hwl, -⟩, hprimary⟩ := hv
  rw [Option.mem_def] at hst
  have hstid := sessionFindById_id hst
  have hs₀' : sessionFindById σ.server s₀.id = some s₀ ∧ s₀.name ≠ newmuxRecoverySession := by
    unfold newmuxPrimarySessionFromArgs at hs₀
    split at hs₀
    · rw [hst] at hs₀
      cases hs₀
      exact ⟨hstid.symm ▸ hst, hname⟩
    · next name hp =>
        obtain ⟨hp, -⟩ := Option.filter_eq_some_iff.mp hp
        split at hs₀
        · next s hs =>
            cases hs₀
            have hsn : s₀.name = name := by simpa using List.find?_some hs
            refine ⟨Table.find_of_mem hu (List.mem_of_find?_eq_some hs), ?_⟩
            rw [hsn]
            exact fun he => hprimary (he ▸ hp)
        · cases hs₀
  unfold deleteLink at hlink
  split at hlink
  · next x hx =>
      cases hlink
      obtain ⟨hmem, hxw⟩ := findByWindow_some hx
      exact ⟨⟨hs₀'.1, hs₀'.2, hmem, hxw.symm ▸ hw⟩, hxw⟩
  · rw [hst] at hlink
    cases hlink
    exact ⟨⟨hstid.symm ▸ hst, hname, hwl, hw⟩, rfl⟩

theorem deleteWindow_outcome {σ : State} {primary : Option String} {print : Bool}
    {target : Target} (hv : (Event.deleteWindow primary print target).Valid σ.server)
    (hu : Table.Unique σ.server.sessions) :
    Outcome σ (.deleteWindow primary print target)
      (exec σ (.deleteWindow primary print target)) := by
  simp only [exec, cmdNewmuxDeleteWindowExec]
  cases hs₀ : newmuxPrimarySessionFromArgs σ.server primary target.session with
  | error cause => exact .idle _ (by simp [parks, hs₀])
  | ok s₀ =>
      simp only
      cases hlink : deleteLink σ.server s₀ target with
      | none => exact .idle _ (by simp [parks, hs₀, hlink])
      | some r =>
          obtain ⟨s, wl⟩ := r
          cases hw : windowFindById σ.server target.wl.window with
          | none => exact .idle _ (by simp [parks, hs₀, hlink, hw])
          | some w =>
              obtain ⟨hdel, hwlw⟩ := deleteLink_deletable hv hu hs₀ hlink hw
              have hwid := windowFindById_id hdel.window
              simp only
              cases hlast : lastTab s wl with
              | true => exact .idle _ (by simp [parks, hs₀, hlink, hw, hlast])
              | false =>
                  simp only [Bool.false_eq_true, if_false]
                  cases hdirty : newmuxWindowIsDirty σ.server w with
                  | false =>
                      simp only [Bool.not_false, if_true, hwid]
                      exact .kill _ s wl w hdel hlast (by simp [parks, hs₀, hlink, hw, hdirty])
                  | true =>
                      have hparks : parks σ (.deleteWindow primary print target) = true := by
                        simp [parks, hs₀, hlink, hw, hlast, hdirty]
                      have h : Outcome σ (.deleteWindow primary print target) _ :=
                        .parkWindow _ s wl w hdel hlast hparks (congrArg some hwlw.symm)
                      simp only [parked, newmuxItemFromWindow] at h
                      simp only [Bool.not_true, Bool.false_eq_true, if_false,
                        newmuxItemFromWindow]
                      split <;> next heq => rw [heq] at h; exact h

/-! ## The rest -/

/-- What a claim or release pops is the item it names. -/
theorem reservedPop_item {σ σ₁ : State} {value : Option String} {n : Nat} {item : ClosedItem}
    (hn : reservedSequence value = .ok n)
    (h : newmuxReservedPopBySequence σ n = some (item, σ₁)) :
    reservedItem σ value = some item := by
  unfold newmuxReservedPopBySequence at h
  unfold reservedItem
  rw [hn]
  simp only
  cases hf : σ.reservedStack.find? (fun item => item.sequence == n) with
  | none => simp [hf] at h
  | some x =>
      simp only [hf, Option.some.injEq, Prod.mk.injEq] at h
      rw [h.1]

/-- **What a command can do**, from a valid target. -/
theorem exec_outcome {σ : State} (hu : Table.Unique σ.server.sessions) {l : Event}
    (hv : l.Valid σ.server) : Outcome σ l (exec σ l) := by
  cases l with
  | softDeletePane target => exact softDeletePane_outcome hv
  | softDeleteWindow target => exact softDeleteWindow_outcome hv
  | deleteWindow primary print target => exact deleteWindow_outcome hv hu
  | reserveLatestClosed print =>
      simp only [exec, cmdNewmuxReserveLatestClosedExec]
      cases h : newmuxStackPop σ with
      | none => exact .idle _ rfl
      | some r => exact .reserve print r.1 r.2 h
  | claimReservedClosed value target print =>
      simp only [exec, cmdNewmuxClaimReservedClosedExec]
      cases hn : reservedSequence value with
      | error cause => exact .idle _ rfl
      | ok n =>
          simp only
          cases h : newmuxReservedPopBySequence σ n with
          | none => exact .idle _ rfl
          | some r => exact .claim value target print r.1 n r.2 (reservedPop_item hn h) h
  | releaseReservedClosed value print =>
      simp only [exec, cmdNewmuxReleaseReservedClosedExec]
      cases hn : reservedSequence value with
      | error cause => exact .idle _ rfl
      | ok n =>
          simp only
          cases h : newmuxReservedPopBySequence σ n with
          | none => exact .idle _ rfl
          | some r => exact .release value print r.1 n r.2 (reservedPop_item hn h) h
  | reopenLatestClosed target print =>
      simp only [exec, cmdNewmuxReopenLatestClosedExec]
      cases h : newmuxStackPop σ with
      | none => exact .idle _ rfl
      | some r => exact .reopen target print r.1 r.2 h
  | clearRecentlyClosed => exact .clear
  | output wp content => exact .output wp content

end Newmux.Logic
