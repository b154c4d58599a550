import Newmux.Logic.Housing
import Newmux.Theorems.NewWindow

/-!
# Every run of the commands

The recovery commands, creates and selections, in any order. As long as no spawn
fails in a session of a group, the sessions keep their shape, and no closed item
ever loses its window, whatever the closed stack has evicted on the way.
-/

namespace Newmux.Theorems

open Newmux.Base Newmux.Tmux Newmux.Recovery Newmux.Logic

/-- What happens to the sessions: a recovery command, a new window, a selection. -/
inductive Action where
  | recovery (l : Event)
  | createWindow (primary position : Option String) (print : Bool) (target : Target)
      (spawn : Spawn)
  | selectWindow (s idx : Nat)

def act (σ : State) : Action → State
  | .recovery l => exec σ l
  | .createWindow primary position print target spawn =>
      (cmdNewmuxCreateWindowExec σ primary position print target spawn).1
  | .selectWindow s idx => { σ with server := serverSessionSelect σ.server s idx }

/-- The actions that can happen, none of them in the recovery session. -/
def Action.Valid (sv : Server) : Action → Prop
  | .recovery l => l.Valid sv
  | .createWindow primary _ _ target _ =>
      target.Valid sv ∧ primary ≠ some newmuxRecoverySession
  | .selectWindow s _ => ∃ ses ∈ sessionFindById sv s, ses.name ≠ newmuxRecoverySession

instance (sv : Server) : (a : Action) → Decidable (a.Valid sv)
  | .recovery l => inferInstanceAs (Decidable (l.Valid sv))
  | .createWindow _ _ _ target _ => inferInstanceAs (Decidable (target.Valid sv ∧ _))
  | .selectWindow s _ => inferInstanceAs (Decidable (∃ ses ∈ sessionFindById sv s, _))

/-- A spawn that fails is for a session that is in no group. -/
def spawnFits (σ : State) : Action → Bool
  | .createWindow primary _ _ target spawn =>
      spawn.pane.toBool ||
        match newmuxPrimarySessionFromArgs σ.server primary target.session with
        | .error _ => true
        | .ok s => (sessionGroupContains σ.server s.id).isNone
  | _ => true

/-- The runs from a server with sessions as they should be and nothing parked. -/
def commandSystem : TSys State Action where
  init σ := Fresh σ ∧ NothingParked σ.server ∧ Linked σ.server
  step σ a σ' := a.Valid σ.server ∧ σ' = act σ a

/-- What carries the sessions along a run: the parked windows are those of the
items held, and of items that are gone. -/
structure RunInv (σ : State) : Prop where
  stack : StackOk σ
  parks : ∃ gone, Parks σ.server (heldItems σ ++ gone)
  linked : Linked σ.server

/-- An item that is off the stacks; its window is parked like those of the others. -/
structure Taken (σ : State) (item : ClosedItem) : Prop where
  stack : StackOk σ
  parks : ∃ gone, Parks σ.server (item :: heldItems σ ++ gone)
  linked : Linked σ.server

/-! ## The stacks -/

theorem evicted_perm {α : Type} (xs ys zs : List α) (n : Nat) :
    (xs ++ ys ++ zs).Perm (xs.take n ++ ys ++ (xs.drop n ++ zs)) := by
  conv_lhs => rw [← List.take_append_drop n xs]
  simp only [List.append_assoc]
  refine List.Perm.append_left _ ?_
  rw [← List.append_assoc, ← List.append_assoc]
  exact List.perm_append_comm.append_right _

/-- A push frees the items over the limit, and their windows stay parked. -/
theorem Taken.push {σ : State} {item : ClosedItem} (h : Taken σ item) :
    RunInv (newmuxStackPush σ item) := by
  obtain ⟨gone, hp⟩ := h.parks
  refine ⟨h.stack.push item,
    ⟨(item :: σ.closedStack).drop newmuxRecoveryMaxItems ++ gone, hp.perm ?_⟩, h.linked⟩
  have hheld : heldItems (newmuxStackPush σ item) =
      (item :: σ.closedStack).take newmuxRecoveryMaxItems ++ σ.reservedStack := by
    unfold heldItems
    rw [(push_closedStack h.stack item).1]
    rfl
  rw [hheld]
  exact evicted_perm (item :: σ.closedStack) σ.reservedStack gone newmuxRecoveryMaxItems

theorem RunInv.pop {σ σ₁ : State} {item : ClosedItem} (h : RunInv σ)
    (hpop : newmuxStackPop σ = some (item, σ₁)) : Taken σ₁ item := by
  obtain ⟨gone, hp⟩ := h.parks
  obtain ⟨hstack, hσ₁⟩ := pop_some hpop
  have hreserved : σ₁.reservedStack = σ.reservedStack := by rw [hσ₁]
  have hheld : heldItems σ = item :: heldItems σ₁ := by
    unfold heldItems
    rw [hstack, hreserved]
    rfl
  refine ⟨h.stack.pop hpop, ⟨gone, ?_⟩, pop_server hpop ▸ h.linked⟩
  rw [pop_server hpop, ← hheld]
  exact hp

theorem RunInv.reservedPop {σ σ₁ : State} {n : Nat} {item : ClosedItem} (h : RunInv σ)
    (hpop : newmuxReservedPopBySequence σ n = some (item, σ₁)) : Taken σ₁ item := by
  obtain ⟨gone, hp⟩ := h.parks
  obtain ⟨-, hperm, hσ₁⟩ := reservedPop_some hpop
  have hclosed : σ₁.closedStack = σ.closedStack := by rw [hσ₁]
  have hcount : σ₁.closedCount = σ.closedCount := by rw [hσ₁]
  refine ⟨⟨?_, ?_⟩, ⟨gone, ?_⟩, reservedPop_server hpop ▸ h.linked⟩
  · rw [hcount, hclosed]
    exact h.stack.count
  · rw [hclosed]
    exact h.stack.bound
  · rw [reservedPop_server hpop]
    refine hp.perm (List.Perm.append_right gone ?_)
    unfold heldItems
    rw [hclosed]
    exact (hperm.append_left _).trans List.perm_middle

/-! ## The steps -/

theorem RunInv.parked {σ : State} (h : RunInv σ) {broken : Server × Except String ClosedItem}
    (hb : ∀ items, Parks σ.server items → Broken items broken) (hl : Linked broken.1) :
    RunInv (parked σ broken) := by
  obtain ⟨gone, hp⟩ := h.parks
  have hb := hb _ hp
  cases hb with
  | error sv cause hp' => exact ⟨⟨h.stack.count, h.stack.bound⟩, ⟨gone, hp'⟩, hl⟩
  | ok sv item hp' =>
      have htaken : Taken { σ with server := sv, closedNextSequence := nextSequence σ } item :=
        ⟨⟨h.stack.count, h.stack.bound⟩, ⟨gone, hp'⟩, hl⟩
      exact htaken.push

theorem Taken.restoreOrPushBack {σ : State} {item : ClosedItem} (h : Taken σ item)
    (target : Option Nat) (print : Bool) :
    RunInv (restoreOrPushBack σ target item print).1 := by
  obtain ⟨gone, hp⟩ := h.parks
  have htried := restoreClosedItem_tried hp target
  have hlinked := restoreClosedItem_linked hp h.linked target
  rcases restoreOrPushBack_effect σ target item print with
    ⟨server, hres, heq⟩ | ⟨server, cause, hres, heq⟩ <;> rw [hres] at htried hlinked <;> rw [heq]
  · cases htried with
    | ok _ hp' => exact ⟨⟨h.stack.count, h.stack.bound⟩, ⟨gone, hp'⟩, hlinked⟩
  · cases htried with
    | error _ _ hp' =>
        have htaken : Taken { σ with server } item :=
          ⟨⟨h.stack.count, h.stack.bound⟩, ⟨gone, hp'⟩, hlinked⟩
        exact htaken.push

/-- Clearing leaves nothing parked. -/
theorem RunInv.clear {σ : State} (h : RunInv σ) : RunInv (newmuxRecoveryClear σ) := by
  obtain ⟨gone, hp⟩ := h.parks
  -- the stacks as they are do not matter to a clear
  have hall : ParkInv { σ with
      closedStack := [], closedCount := 0, reservedStack := heldItems σ ++ gone } :=
    ⟨⟨rfl, Nat.zero_le _⟩, hp⟩
  have hclear := hall.clear
  refine ⟨hclear.stack, ⟨[], ?_⟩, h.linked.recoveryClear⟩
  rw [List.append_nil]
  exact hclear.parks

theorem RunInv.exec {σ : State} (h : RunInv σ) {l : Event} (hv : l.Valid σ.server) :
    RunInv (exec σ l) := by
  obtain ⟨gone, hp⟩ := h.parks
  have hout := exec_outcome hp.ok.trees.unique hv
  generalize Newmux.Recovery.exec σ l = σ' at hout ⊢
  cases hout with
  | idle => exact h
  | kill _ s wl w hdel hlast =>
      exact ⟨⟨h.stack.count, h.stack.bound⟩,
        ⟨gone, hp.kill hdel.session hdel.name (List.mem_map_of_mem hdel.linked)⟩,
        h.linked.killWindow wl.window⟩
  | parkWindow _ s wl w hdel hlast hparks hwindow =>
      have hwid := windowFindById_id hdel.window
      exact h.parked (fun items hi => breakLiveWindow_broken hi hdel.session hdel.name hdel.linked
          hlast (h.linked.ownWindow wl.window) hdel.window rfl hwid rfl)
        (breakLiveWindow_linked hp h.linked hdel.session hdel.name hdel.linked hlast hdel.window
          rfl hwid rfl)
  | parkPane _ s wl w wp hdel hwp hcount hparks =>
      exact h.parked (fun items hi => breakLivePane_broken hi hdel.session hdel.name wl wp rfl rfl
          rfl)
        (breakLivePane_linked hp h.linked hdel.session hdel.name wl wp rfl rfl rfl)
  | reserve print item σ₁ hpop =>
      have htaken := h.pop hpop
      obtain ⟨gone, hp⟩ := htaken.parks
      refine ⟨⟨htaken.stack.count, htaken.stack.bound⟩, ⟨gone, hp.perm ?_⟩, htaken.linked⟩
      refine List.Perm.append_right gone ?_
      change List.Perm _ (σ₁.closedStack ++ (σ₁.reservedStack ++ [item]))
      rw [← List.append_assoc]
      exact (List.perm_append_singleton item _).symm
  | reopen target print item σ₁ hpop => exact (h.pop hpop).restoreOrPushBack target print
  | claim value target print item n σ₁ hitem hpop =>
      exact (h.reservedPop hpop).restoreOrPushBack target print
  | release value print item n σ₁ hitem hpop => exact (h.reservedPop hpop).push
  | clear => exact h.clear
  | output wp content =>
      exact ⟨⟨h.stack.count, h.stack.bound⟩, ⟨gone, hp.kept (paneOutput_kept _ _ _)
        (.of_eq fun w _ => panesKept_of_windows rfl w)⟩, h.linked.kept (paneOutput_kept _ _ _)⟩

/-- The session a create works on is not the recovery session. -/
theorem primary_name {sv : Server} {primary : Option String} {target : Target} {s : Session}
    (hv : target.Valid sv) (hprimary : primary ≠ some newmuxRecoverySession)
    (h : newmuxPrimarySessionFromArgs sv primary target.session = .ok s) :
    s.name ≠ newmuxRecoverySession := by
  obtain ⟨st, hst, hname, -⟩ := hv
  unfold newmuxPrimarySessionFromArgs at h
  split at h
  · rw [Option.mem_def.mp hst] at h
    cases h
    exact hname
  · next name hp =>
      obtain ⟨hp, -⟩ := Option.filter_eq_some_iff.mp hp
      split at h
      · next ses hs =>
          cases h
          have hsn : s.name = name := by simpa using List.find?_some hs
          rw [hsn]
          exact fun he => hprimary (he ▸ hp)
      · cases h

theorem RunInv.createWindow {σ : State} (h : RunInv σ) {primary position : Option String}
    {print : Bool} {target : Target} {spawn : Spawn}
    (hv : (Action.createWindow primary position print target spawn).Valid σ.server)
    (hfits : spawnFits σ (.createWindow primary position print target spawn) = true) :
    RunInv (cmdNewmuxCreateWindowExec σ primary position print target spawn).1 := by
  obtain ⟨gone, hp⟩ := h.parks
  obtain ⟨htarget, hprimary⟩ := hv
  cases hs : newmuxPrimarySessionFromArgs σ.server primary target.session with
  | error cause =>
      simp only [cmdNewmuxCreateWindowExec, hs]
      exact h
  | ok s =>
      have hfound := primary_found hp.ok.trees.unique hs
      have hname := primary_name htarget hprimary hs
      have hcreate : ∀ position,
          RunInv (cmdNewmuxCreateWindowExec.create σ print target spawn s position).1 := by
        intro position
        obtain ⟨sv', heq, heffect⟩ := create_effect hp.ok.trees hfound
          (h.linked.sessions.selection _ s hfound) position print target spawn
        rw [heq]
        refine ⟨⟨h.stack.count, h.stack.bound⟩, ⟨gone, heffect.parks hp hfound hname⟩,
          heffect.linked h.linked hp.ok.created hfound fun cause hcause => ?_⟩
        rintro ⟨sg, hsg, hin⟩
        have hnone : sessionGroupContains σ.server s.id = none := by
          simpa [spawnFits, hcause, hs, Except.toBool] using hfits
        have hnot := List.find?_eq_none.mp hnone sg hsg
        simp [hin] at hnot
      simp only [cmdNewmuxCreateWindowExec, hs]
      split
      · exact h
      · exact hcreate _
      · exact hcreate none

theorem RunInv.selectWindow {σ : State} (h : RunInv σ) {s : Nat}
    (hv : ∃ ses ∈ sessionFindById σ.server s, ses.name ≠ newmuxRecoverySession) (idx : Nat) :
    RunInv { σ with server := serverSessionSelect σ.server s idx } := by
  obtain ⟨gone, hp⟩ := h.parks
  obtain ⟨ses, hs, hname⟩ := hv
  obtain rfl := sessionFindById_id (Option.mem_def.mp hs)
  have hrun : Shrink (· = ses.id) (fun _ => False) σ.server
      (serverSessionSelect σ.server ses.id idx) := sessionSelect_shrink idx rfl
  exact ⟨⟨h.stack.count, h.stack.bound⟩,
    ⟨gone, hp.elsewhere hrun (fun R hR he => hR.ne hs hname he.symm) fun _ _ hn => hn⟩,
    h.linked.select ses.id idx⟩

theorem runInv_inductive :
    commandSystem.Inductive (fun σ a => spawnFits σ a = true) RunInv where
  init := by
    rintro σ ⟨hfresh, hidle, hlinked⟩
    have hpark := parkInv_inductive.init σ ⟨hfresh, hidle⟩
    refine ⟨hpark.stack, ⟨[], ?_⟩, hlinked⟩
    rw [List.append_nil]
    exact hpark.parks
  step := by
    rintro σ a _ h hfits ⟨hv, rfl⟩
    cases a with
    | recovery l => exact h.exec hv
    | createWindow primary position print target spawn => exact h.createWindow hv hfits
    | selectWindow s idx => exact h.selectWindow hv idx

/-- **No closed item loses its window**: in every such run, whatever has been evicted,
each item held has a window of its own, which exists, and which the recovery session
links and no other session does. -/
theorem held_windows_parked {σ : State}
    (hreach : commandSystem.ReachableWith (fun σ a => spawnFits σ a = true) σ) :
    ((heldItems σ).map ClosedItem.recoveryWindowId).Nodup ∧
      ∀ item ∈ heldItems σ,
        (∃ win, windowFindById σ.server item.recoveryWindowId = some win) ∧
          ∀ j s, sessionFindById σ.server j = some s →
            (item.recoveryWindowId ∈ Session.order s ↔ s.name = newmuxRecoverySession) := by
  obtain ⟨-, ⟨gone, hp⟩, -⟩ := runInv_inductive.invariant hreach
  constructor
  · have hnodup := hp.order.nodup_iff.mp hp.nodup
    rw [List.map_append] at hnodup
    exact (List.nodup_append.mp hnodup).1
  · intro item hitem
    have hmem := List.mem_append_left gone hitem
    obtain ⟨panes, hpanes, -⟩ := (hp.stored item hmem).panes
    obtain ⟨win, hwin, -⟩ := panesOf_eq_some.mp hpanes
    obtain ⟨R, hR, -, hin⟩ := hp.mem hmem
    refine ⟨⟨win, hwin⟩, fun j s hs => ⟨fun hw => ?_, fun hname => ?_⟩⟩
    · by_contra hname
      obtain rfl := sessionFindById_id hs
      exact hp.separate R hR s.id s hs (hR.ne hs hname) _ hin hw
    · obtain rfl := sessionFindById_id hs
      rw [IsRecovery.unique hp.ok.trees ⟨hs, hname⟩ hR]
      exact hin

/-! ## Two sessions of three tabs -/

/-- A second session on the tabs, on the last one. -/
def secondSession : Session :=
  { id := 1, name := "newmux-tab-1", curw := some 5, lastw := [3],
    windows := [⟨3, 0, 0⟩, ⟨4, 1, 1⟩, ⟨5, 2, 2⟩], options := ⟨0, false⟩ }

def groupServer : Server :=
  { tabServer 3 with
    sessions := [tabSession 3, secondSession], groups := [[0, 1]], nextSessionId := 2,
    nextPtr := 6 }

def groupState : State := { tabState 3 with server := groupServer }

theorem groupServer_find {j : Nat} {s : Session} (h : sessionFindById groupServer j = some s) :
    s = tabSession 3 ∨ s = secondSession := by
  have hmem : s ∈ [tabSession 3, secondSession] := Table.find_some_mem h
  simpa using hmem

theorem groupServer_treesOk : TreesOk groupServer := by
  refine ⟨show List.Nodup _ by decide, by decide, by decide, fun j s hs => ?_,
    ⟨by decide, by decide⟩⟩
  rcases groupServer_find hs with rfl | rfl
  · exact ⟨by decide, by decide, by decide⟩
  · exact ⟨by decide, by decide, by decide⟩

theorem groupServer_nothingParked : NothingParked groupServer := by
  refine ⟨groupServer_treesOk, fun j s w hs => ?_, fun j => ?_, rfl⟩
  · rcases groupServer_find hs with rfl | rfl <;> revert w <;> decide
  · rintro ⟨sg, hsg, hj⟩
    obtain rfl : sg = [0, 1] := List.mem_singleton.mp hsg
    revert j
    decide

theorem groupServer_linked : Linked groupServer := by
  have hid : ∀ {j : Nat} {s : Session}, sessionFindById groupServer j = some s → j = 0 ∨ j = 1 := by
    intro j s hs
    rw [← sessionFindById_id hs]
    rcases groupServer_find hs with rfl | rfl
    · exact .inl rfl
    · exact .inr rfl
  refine ⟨⟨groupServer_treesOk, fun j s hs => ?_, fun j s hs => ?_, fun j s hs _ => ?_,
    fun i j a b _ ha hb => ?_⟩, fun j s _ hs => ?_, fun i j si sj w _ _ hi hj _ _ => ?_⟩
  · rcases groupServer_find hs with rfl | rfl
    · exact ⟨⟨by simp [tabSession], by simp [tabSession]⟩, by simp [tabSession],
        by simp [tabSession], by simp [tabSession]⟩
    · exact ⟨⟨by simp [secondSession], by simp [secondSession]⟩, by simp [secondSession],
        by simp [secondSession], by simp [secondSession]⟩
  · rcases groupServer_find hs with rfl | rfl <;> decide
  · rcases groupServer_find hs with rfl | rfl <;> decide
  · rcases groupServer_find ha with rfl | rfl <;> rcases groupServer_find hb with rfl | rfl <;>
      exact ⟨rfl, rfl⟩
  · rcases groupServer_find hs with rfl | rfl <;> decide
  · exact .inr ⟨[0, 1], List.mem_singleton_self _, by rcases hid hi with rfl | rfl <;> decide,
      by rcases hid hj with rfl | rfl <;> decide⟩

/-- A tab is closed, one is opened between the others, another is selected, and the
closed one comes back. -/
def closeOpenReopen : List Action :=
  [.recovery (.softDeleteWindow (tab 1)),
    .createWindow none (some "1") true (tab 0) ⟨80, 24, .ok (tabPane 0)⟩, .selectWindow 0 2,
    .recovery (.reopenLatestClosed none false), .recovery (.deleteWindow none false (tab 0))]

theorem closeOpenReopen_reachable : commandSystem.ReachableWith (fun σ a => spawnFits σ a = true)
    (TSys.runFrom act groupState closeOpenReopen) := by
  have hstep : ∀ (σ : State) (a : Action), a.Valid σ.server →
      commandSystem.step σ a (act σ a) := fun _ _ hv => ⟨hv, rfl⟩
  refine TSys.reachableWith_run hstep (.init ⟨⟨rfl, rfl, rfl, rfl⟩, groupServer_nothingParked,
    groupServer_linked⟩) ?_
  decide +kernel

theorem held_after_closeOpenReopen :
    ((heldItems (TSys.runFrom act groupState closeOpenReopen)).map
        ClosedItem.recoveryWindowId).Nodup ∧
      ∀ item ∈ heldItems (TSys.runFrom act groupState closeOpenReopen),
        (∃ win, windowFindById (TSys.runFrom act groupState closeOpenReopen).server
          item.recoveryWindowId = some win) ∧
        ∀ j s, sessionFindById (TSys.runFrom act groupState closeOpenReopen).server j = some s →
          (item.recoveryWindowId ∈ Session.order s ↔ s.name = newmuxRecoverySession) :=
  held_windows_parked closeOpenReopen_reachable

end Newmux.Theorems
