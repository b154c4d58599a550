import Newmux.Logic.Recovery

/-!
# Parked windows and their items

Every item on the stacks has its window in the recovery session, and every
window there belongs to one item. The deletes and restores keep this: parking
adds an item and its window, a restore takes both away, and a restore that
fails leaves both.
-/

namespace Newmux.Logic

open Newmux.Base Newmux.Tmux Newmux.Recovery

/-- An item whose window is parked. A pane's recovery window lists no other
pane. -/
structure Stored (sv : Server) (item : ClosedItem) : Prop where
  kind : item.type ≠ .session
  lot : ∀ R, IsRecovery sv R → R.id = item.recoverySessionId
  origin : item.sessionId ≠ item.recoverySessionId
  window : item.type = .window → item.recoveryWindowId = item.windowId
  panes : ∃ panes, panesOf sv item.recoveryWindowId = some panes ∧
    (item.type = .pane → ∀ p ∈ panes, p = item.paneId)

/-- The recovery session holds the windows of the items, and nothing else. -/
structure Parks (sv : Server) (items : List ClosedItem) : Prop where
  ok : RecoveryOk sv
  separate : Separate sv
  order : (recoveryOrder sv).Perm (items.map ClosedItem.recoveryWindowId)
  stored : ∀ item ∈ items, Stored sv item

theorem Parks.perm {sv : Server} {items items' : List ClosedItem} (h : Parks sv items)
    (hp : items.Perm items') : Parks sv items' :=
  ⟨h.ok, h.separate, h.order.trans (hp.map _), fun item hi => h.stored item (hp.mem_iff.mpr hi)⟩

theorem Parks.nodup {sv : Server} {items : List ClosedItem} (h : Parks sv items) :
    (recoveryOrder sv).Nodup := by
  by_cases hex : ∃ R, IsRecovery sv R
  · obtain ⟨R, hR⟩ := hex
    rw [hR.order h.ok.trees]
    exact (h.ok.lot R hR).once
  · rw [recoveryOrder_none h.ok.trees fun R hR => hex ⟨R, hR⟩]
    exact List.nodup_nil

/-- An item's window is in the recovery session. -/
theorem Parks.mem {sv : Server} {items : List ClosedItem} (h : Parks sv items)
    {item : ClosedItem} (hi : item ∈ items) :
    ∃ R, IsRecovery sv R ∧ R.id = item.recoverySessionId ∧
      item.recoveryWindowId ∈ Session.order R := by
  have hmem : item.recoveryWindowId ∈ recoveryOrder sv :=
    h.order.mem_iff.mpr (List.mem_map_of_mem hi)
  obtain ⟨R, hR, hw⟩ := (mem_recoveryOrder h.ok.trees).mp hmem
  exact ⟨R, hR, (h.stored item hi).lot R hR, hw⟩

/-- A restore does not go to the recovery session. -/
theorem Stored.destination {sv : Server} (hok : TreesOk sv) {item : ClosedItem}
    (h : Stored sv item) {target : Option Nat} {dstS : Session}
    (hdst : newmuxRestoreDestinationSession sv target item = some dstS) :
    dstS.name ≠ newmuxRecoverySession := by
  have hfallback : ∀ {s : Session}, (target.bind (sessionFindById sv)).filter
      (fun s => s.name != newmuxRecoverySession) = some s → s.name ≠ newmuxRecoverySession := by
    intro s hs
    simpa using (Option.filter_eq_some_iff.mp hs).2
  unfold newmuxRestoreDestinationSession at hdst
  simp only at hdst
  split at hdst
  · next s hs =>
      cases hdst
      intro hname
      have hid := sessionFindById_id hs
      exact h.origin (hid.symm.trans (h.lot dstS ⟨hid.symm ▸ hs, hname⟩))
  · split at hdst
    · rcases Option.or_eq_some_iff.mp hdst with hs | ⟨-, hs⟩
      · rw [((sessionFind_some hok).mp hs).2]
        decide
      · exact hfallback hs
    · exact hfallback hdst

/-! ## Frames -/

/-- The windows in `ws` still exist, with no new panes. -/
def PanesWithin (sv sv' : Server) (ws : List Nat) : Prop :=
  ∀ w ∈ ws, ∀ panes, panesOf sv w = some panes →
    ∃ panes', panesOf sv' w = some panes' ∧ ∀ p ∈ panes', p ∈ panes

theorem PanesWithin.of_eq {sv sv' : Server} {ws : List Nat}
    (h : ∀ w ∈ ws, panesOf sv' w = panesOf sv w) : PanesWithin sv sv' ws :=
  fun w hw panes hp => ⟨panes, (h w hw).trans hp, fun _ h => h⟩

theorem Stored.frame {sv sv' : Server} {item : ClosedItem} (h : Stored sv item)
    (hlot : SameLot sv sv') (hpanes : PanesWithin sv sv' [item.recoveryWindowId]) :
    Stored sv' item := by
  refine ⟨h.kind, fun R' hR' => ?_, h.origin, h.window, ?_⟩
  · obtain ⟨R, hR, hid⟩ := hlot R' hR'
    exact hid.trans (h.lot R hR)
  · obtain ⟨panes, hp, hall⟩ := h.panes
    obtain ⟨panes', hp', hsub⟩ := hpanes _ List.mem_cons_self panes hp
    exact ⟨panes', hp', fun ht p hm => hall ht p (hsub p hm)⟩

theorem sameLot_of_iff {sv sv' : Server} (h : ∀ R, IsRecovery sv' R ↔ IsRecovery sv R) :
    SameLot sv sv' := fun R hR => ⟨R, (h R).mp hR, rfl⟩

/-- A change of windows and panes alone. -/
theorem Parks.kept {sv sv' : Server} {items : List ClosedItem} (h : Parks sv items)
    (hkept : SessionsKept sv sv') (hpanes : PanesWithin sv sv' (recoveryOrder sv)) :
    Parks sv' items := by
  obtain ⟨hok, hiff⟩ := h.ok.kept hkept
  have horder := recoveryOrder_congr h.ok.trees hok.trees hiff
  refine ⟨hok, ?_, horder ▸ h.order, fun item hi => ?_⟩
  · exact h.separate.shrink h.ok (Shrink.of_kept (T := fun _ => False) hkept) fun _ _ hn => hn
  · refine (h.stored item hi).frame (sameLot_of_iff hiff) fun w hw => hpanes w ?_
    rw [List.mem_singleton.mp hw]
    exact h.order.mem_iff.mpr (List.mem_map_of_mem hi)

/-- A window that stays in the recovery session keeps its record. -/
theorem WindowsKept.parked {W : Nat → Prop} {sv sv' : Server} (h : WindowsKept W sv sv')
    (hok' : RecoveryOk sv') {w : Nat} (hw : w ∈ recoveryOrder sv') (hW : ¬ W w) :
    windowFindById sv' w = windowFindById sv w := by
  obtain ⟨R, hR, hw⟩ := (mem_recoveryOrder hok'.trees).mp hw
  exact h.survive w hW ((linked_iff hok'.trees.unique).mpr ⟨R.id, R, hR.find, hw⟩)

/-- Steps on other sessions and other windows. -/
theorem Parks.elsewhere {T W : Nat → Prop} {sv sv' : Server} {items : List ClosedItem}
    (h : Parks sv items) (hrun : Shrink T W sv sv') (hT : ∀ R, IsRecovery sv R → ¬ T R.id)
    (hW : ∀ w ∈ recoveryOrder sv, ¬ W w) : Parks sv' items := by
  obtain ⟨hok, hiff⟩ := h.ok.shrink hrun hT
  have horder := recoveryOrder_congr h.ok.trees hok.trees hiff
  refine ⟨hok, h.separate.shrink h.ok hrun hT, horder ▸ h.order, fun item hi => ?_⟩
  have hmem : item.recoveryWindowId ∈ recoveryOrder sv :=
    h.order.mem_iff.mpr (List.mem_map_of_mem hi)
  refine (h.stored item hi).frame (sameLot_of_iff hiff) (.of_eq fun w hw => ?_)
  rw [List.mem_singleton.mp hw]
  unfold panesOf
  rw [(Shrink.windows hrun h.ok.trees).parked hok (horder ▸ hmem) (hW _ hmem)]

/-- Killing a window that is not parked. -/
theorem Parks.kill {sv : Server} {items : List ClosedItem} (h : Parks sv items) {j : Nat}
    {s : Session} (hs : sessionFindById sv j = some s) (hname : s.name ≠ newmuxRecoverySession)
    {w : Nat} (hw : w ∈ Session.order s) : Parks (serverKillWindow sv w true) items := by
  have hid := sessionFindById_id hs
  have hout : ∀ R, IsRecovery sv R → w ∉ Session.order R := by
    intro R hR hwR
    refine h.separate R hR j s hs (fun hj => hname ?_) w hwR hw
    have hR' := hR.find
    rw [← hj, hs] at hR'
    cases hR'
    exact hR.name
  refine h.elsewhere (killWindow_shrink h.ok.trees w true) ?_ ?_
  · rintro R hR ⟨i, s', hs', hw', hg⟩
    have hi := alone_inGroup (h.ok.lot R hR).alone hg
    rw [hi, hR.find] at hs'
    cases hs'
    exact hout R hR hw'
  · rintro x hx rfl
    obtain ⟨R, hR, hx⟩ := (mem_recoveryOrder h.ok.trees).mp hx
    exact hout R hR hx

/-! ## The recovery session is there -/

/-- `newmux_recovery_session_get` finds the recovery session or creates an
empty one. -/
theorem recoverySessionGet_cases {sv : Server} (hok : TreesOk sv) :
    (∃ R, IsRecovery sv R ∧ newmuxRecoverySessionGet sv = (sv, R.id)) ∨
      ((∀ R, ¬ IsRecovery sv R) ∧
        newmuxRecoverySessionGet sv = sessionCreate sv newmuxRecoverySession) := by
  unfold newmuxRecoverySessionGet
  cases hf : sessionFind sv newmuxRecoverySession with
  | some R =>
      obtain ⟨hR, hname⟩ := (sessionFind_some hok).mp hf
      exact .inl ⟨R, ⟨hR, hname⟩, rfl⟩
  | none =>
      refine .inr ⟨fun R hR => ?_, rfl⟩
      rw [(sessionFind_some hok).mpr ⟨hR.find, hR.name⟩] at hf
      cases hf

/-- What `newmux_recovery_session_get` leaves: the recovery session at the id it
returns, the other sessions and all windows as they were. -/
structure LotReady (sv sv' : Server) (r : Nat) (R : Session) : Prop where
  recovery : IsRecovery sv' R
  id : R.id = r
  find : ∀ j s, sessionFindById sv j = some s → sessionFindById sv' j = some s
  back : ∀ j s, sessionFindById sv' j = some s → s.windows ≠ [] →
    sessionFindById sv j = some s
  groups : sv'.groups = sv.groups
  windows : sv'.windows = sv.windows

theorem Parks.get {sv : Server} {items : List ClosedItem} (h : Parks sv items) :
    Parks (newmuxRecoverySessionGet sv).1 items ∧
      ∃ R, LotReady sv (newmuxRecoverySessionGet sv).1 (newmuxRecoverySessionGet sv).2 R := by
  rcases recoverySessionGet_cases h.ok.trees with ⟨R, hR, heq⟩ | ⟨hnone, heq⟩
  · rw [heq]
    exact ⟨h, R, hR, rfl, fun _ _ hs => hs, fun _ _ hs _ => hs, rfl, rfl⟩
  · -- without a recovery session nothing is parked
    have hnil : items = [] := by
      have horder := h.order
      rw [recoveryOrder_none h.ok.trees hnone] at horder
      simpa using horder.symm.eq_nil
    obtain ⟨R, hid, hname, hw, hcur, -, -, hfind⟩ :=
      create_find h.ok.trees newmuxRecoverySession
    have hsnone : sessionFind sv newmuxRecoverySession = none := by
      cases hf : sessionFind sv newmuxRecoverySession with
      | none => rfl
      | some R =>
          obtain ⟨hR, hname⟩ := (sessionFind_some h.ok.trees).mp hf
          exact absurd ⟨hR, hname⟩ (hnone R)
    have htrees := create_treesOk h.ok.trees hsnone
    have hnew : sv.nextSessionId = (sessionCreate sv newmuxRecoverySession).2 := rfl
    have hR : IsRecovery (sessionCreate sv newmuxRecoverySession).1 R :=
      ⟨by rw [hfind, if_pos hid], hname⟩
    have hold : ∀ j s, sessionFindById sv j = some s → j ≠ sv.nextSessionId := by
      intro j s hs he
      have hlt := h.ok.trees.ids s (Table.find_some_mem hs)
      rw [sessionFindById_id hs] at hlt
      omega
    have horder : Session.order R = [] := by simp [Session.order, hw]
    have hempty : recoveryOrder (sessionCreate sv newmuxRecoverySession).1 = [] := by
      rw [hR.order htrees, horder]
    rw [heq]
    refine ⟨⟨⟨htrees, ?_, ?_, ?_⟩, ?_, ?_, ?_⟩, R, hR, hid.trans hnew, ?_, ?_, rfl, rfl⟩
    · intro j s w hs hws
      rw [hfind] at hs
      split at hs
      · cases hs
        rw [horder] at hws
        exact absurd hws List.not_mem_nil
      · exact h.ok.created j s w hs hws
    · intro j hj
      exact Nat.lt_succ_of_lt (h.ok.groupIds j hj)
    · intro R' hR'
      rw [hR'.unique htrees hR]
      refine ⟨fun hg => ?_, ⟨fun p hp => ?_, fun _ => hw⟩, horder ▸ List.nodup_nil⟩
      · exact absurd (h.ok.groupIds _ hg) (by omega)
      · rw [hcur] at hp
        cases hp
    · intro R' hR' j s _ _ w hw'
      rw [hR'.unique htrees hR, horder] at hw'
      exact absurd hw' List.not_mem_nil
    · rw [hempty, hnil]
      exact List.Perm.refl _
    · intro item hi
      rw [hnil] at hi
      exact absurd hi List.not_mem_nil
    · intro j s hs
      rw [hfind, if_neg (hold j s hs)]
      exact hs
    · intro j s hs hne
      rw [hfind] at hs
      split at hs
      · cases hs
        exact absurd hw hne
      · exact hs

end Newmux.Logic
