import Newmux.Logic.Parking

/-!
# Parking

The two breaks of a soft delete put one window into the recovery session: a
closed tab's own window, or a new one around a closed pane.
-/

namespace Newmux.Logic

open Newmux.Base Newmux.Tmux Newmux.Recovery

/-! ## One more window in the recovery session -/

theorem linkedSession_current {s : Session} (hcur : CurrentOk s) {n w last : Nat} {wl : Winlink}
    {wwl : Winlinks} (hroom : RoomMade s.windows n w wl wwl last) :
    CurrentOk (linkedSession s wl wwl) := by
  have hptr : ∀ p, p = wl.ptr ∨ p ∈ s.windows.map Winlink.ptr → p ∈ wwl.map Winlink.ptr :=
    fun p hp => hroom.ptr_perm.mem_iff.mpr (List.mem_cons.mpr hp)
  unfold linkedSession
  simp only
  by_cases hnone : s.curw = none
  · have hset : (sessionSetCurrent { s with windows := wwl } (some wl)).2.curw = some wl.ptr :=
      (sessionSetCurrent_of_ne (by simp [hnone])).2
    have hsame := sessionSetCurrent_same { s with windows := wwl } (some wl)
    rw [if_pos hnone]
    refine ⟨fun p hp => ?_, fun h => ?_⟩
    · rw [hset] at hp
      cases hp
      rw [hsame.windows]
      exact hptr _ (.inl rfl)
    · rw [hset] at h
      cases h
  · rw [if_neg hnone]
    exact ⟨fun p hp => hptr p (.inr (hcur.member p hp)), fun h => absurd h hnone⟩

/-- A session in no group has none to synchronize when it attaches a window. -/
theorem attachedAlone {sv : Server} {s : Session} (halone : ¬ Grouped sv s.id) (wl : Winlink)
    (wwl : Winlinks) : attached sv s wl wwl = linkedServer sv s wl wwl :=
  syncFrom_alone halone

/-- The window `w` has gone into the recovery session: `R` has become `R'`, and
what the other sessions link they linked before. -/
structure WentIn (sv sv' : Server) (R R' : Session) (w : Nat) : Prop where
  find : sessionFindById sv' R.id = some R'
  id : R'.id = R.id
  name : R'.name = R.name
  current : CurrentOk R'
  order : (Session.order R').Perm (w :: Session.order R)
  others : ∀ j s, j ≠ R.id → sessionFindById sv' j = some s → ∀ x ∈ Session.order s,
    x ≠ w ∧ ∃ i s₀, i ≠ R.id ∧ sessionFindById sv i = some s₀ ∧ x ∈ Session.order s₀
  trees : TreesOk sv'
  groupIds : ∀ j, Grouped sv' j → Grouped sv j
  nextSessionId : sv.nextSessionId ≤ sv'.nextSessionId
  created : Created sv'

/-- An item for the window that went in joins the items that were there. -/
theorem WentIn.parks {sv sv' : Server} {items : List ClosedItem} {R R' : Session} {w : Nat}
    (h : WentIn sv sv' R R' w) (hp : Parks sv items) (hR : IsRecovery sv R)
    (hout : w ∉ Session.order R)
    (hpanes : PanesWithin sv sv' (recoveryOrder sv)) {item : ClosedItem}
    (hw : item.recoveryWindowId = w) (hkind : item.type ≠ .session)
    (hlot : item.recoverySessionId = R.id) (horigin : item.sessionId ≠ R.id)
    (hwindow : item.type = .window → item.windowId = w)
    (hitem : ∃ panes, panesOf sv' w = some panes ∧
      (item.type = .pane → ∀ p ∈ panes, p = item.paneId)) : Parks sv' (item :: items) := by
  have hlotOk := hp.ok.lot R hR
  have hR' : IsRecovery sv' R' := ⟨h.id.symm ▸ h.find, h.name.trans hR.name⟩
  have horder : recoveryOrder sv' = Session.order R' := hR'.order h.trees
  have horder₀ : recoveryOrder sv = Session.order R := hR.order hp.ok.trees
  have hsame : SameLot sv sv' := fun x hx =>
    ⟨R, hR, (hx.unique h.trees hR') ▸ h.id⟩
  refine ⟨⟨h.trees, h.created, fun j hj => ?_, fun x hx => ?_⟩, ?_, ?_, ?_⟩
  · exact (hp.ok.groupIds j (h.groupIds j hj)).trans_le h.nextSessionId
  · rw [hx.unique h.trees hR']
    refine ⟨fun hg => hlotOk.alone (h.id ▸ h.groupIds _ hg), h.current, ?_⟩
    rw [h.order.nodup_iff, List.nodup_cons]
    exact ⟨hout, hlotOk.once⟩
  · intro x hx j s hs hj v hv hvs
    rw [hx.unique h.trees hR'] at hv hj
    rw [h.id] at hj
    obtain ⟨hvw, i, s₀, hi, hs₀, hvs₀⟩ := h.others j s hj hs v hvs
    have hvR := (List.mem_cons.mp (h.order.mem_iff.mp hv)).resolve_left hvw
    exact hp.separate R hR i s₀ hs₀ hi v hvR hvs₀
  · rw [horder, List.map_cons, hw]
    exact h.order.trans ((horder₀ ▸ hp.order).cons w)
  · intro x hx
    rcases List.mem_cons.mp hx with rfl | hx
    · refine ⟨hkind, fun y hy => ?_, hlot ▸ horigin, fun ht => hw.trans (hwindow ht).symm, ?_⟩
      · rw [hy.unique h.trees hR', h.id, hlot]
      · rw [hw]
        exact hitem
    · refine (hp.stored x hx).frame hsame fun v hv => hpanes v ?_
      rw [List.mem_singleton.mp hv]
      exact hp.order.mem_iff.mpr (List.mem_map_of_mem hx)

/-- What a break leaves: the items it found, and the new one if it succeeded. -/
inductive Broken (items : List ClosedItem) : Server × Except String ClosedItem → Prop
  | error (sv : Server) (cause : String) (h : Parks sv items) : Broken items (sv, .error cause)
  | ok (sv : Server) (item : ClosedItem) (h : Parks sv (item :: items)) :
      Broken items (sv, .ok item)

/-! ## A closed tab -/

/-- A session that is not on its last tab has another winlink. -/
theorem lastTab_false {s : Session} (hptrs : (s.windows.map Winlink.ptr).Nodup) {wl : Winlink}
    (h : lastTab s wl = false) : ∃ x ∈ s.windows, x.ptr ≠ wl.ptr := by
  unfold lastTab at h
  cases hnext : winlinkNext s.windows wl.ptr with
  | some x =>
      obtain ⟨hx, hne⟩ := winlinkNext_some hptrs hnext
      exact ⟨x, hx, hne⟩
  | none =>
      cases hprev : winlinkPrevious s.windows wl.ptr with
      | some x =>
          obtain ⟨hx, hne⟩ := winlinkPrevious_some hprev
          exact ⟨x, hx, hne⟩
      | none => simp [hnext, hprev] at h

/-- The window is linked at most once in a session, and only in one group. -/
def OwnWindow (sv : Server) (w : Nat) : Prop :=
  (∀ s ∈ sv.sessions, ∀ x ∈ s.windows, ∀ y ∈ s.windows, x.window = w → y.window = w → x = y) ∧
    ∀ s ∈ sv.sessions, ∀ s' ∈ sv.sessions, w ∈ Session.order s → w ∈ Session.order s' →
      InGroup sv s.id s'.id

instance (sv : Server) (i j : Nat) : Decidable (InGroup sv i j) :=
  inferInstanceAs (Decidable (j = i ∨ ∃ sg ∈ sv.groups, i ∈ sg ∧ j ∈ sg))

instance (sv : Server) (w : Nat) : Decidable (OwnWindow sv w) :=
  inferInstanceAs (Decidable ((∀ s ∈ sv.sessions, ∀ x ∈ s.windows, ∀ y ∈ s.windows,
    x.window = w → y.window = w → x = y) ∧ ∀ s ∈ sv.sessions, ∀ s' ∈ sv.sessions,
      w ∈ Session.order s → w ∈ Session.order s' → InGroup sv s.id s'.id))

/-- The session without the winlink, as `newmux_session_detach_silent` leaves it. -/
def detached (s : Session) (wl : Winlink) : Session :=
  { detachSilentReady s wl with windows := winlinkRemove s.windows wl.ptr }

/-- What a lookup sees after a silent detach: the group follows the session. -/
theorem detachSilent_spec {sv : Server} (hok : TreesOk sv) {s : Session}
    (hs : sessionFindById sv s.id = some s) {wl : Winlink}
    (hne : winlinkRemove s.windows wl.ptr ≠ []) :
    (newmuxSessionDetachSilent sv s.id wl).2 = false ∧
      sessionFindById (newmuxSessionDetachSilent sv s.id wl).1 s.id = some (detached s wl) ∧
      ∀ j m, InGroup sv s.id j →
        sessionFindById (newmuxSessionDetachSilent sv s.id wl).1 j = some m →
          Session.order m = Session.order (detached s wl) := by
  obtain ⟨hid, hname, hopt, hw⟩ := detachSilentReady_fields s wl
  have hgroups := sessionUnlink_groups sv (detachSilentReady s wl) wl
  have hrun : Shrink (fun _ => True) (fun _ => True) sv
      (sessionUnlink sv (detachSilentReady s wl) wl) :=
    sessionUnlink_shrink trivial hs hid hname hopt hw wl
  have htrees := Shrink.treesOk hrun hok
  have hdid : (detached s wl).id = s.id := hid
  have hself : sessionFindById (sessionUnlink sv (detachSilentReady s wl) wl) s.id =
      some (detached s wl) := by
    unfold sessionUnlink
    rw [(windowRemoveRef_kept _ _).find, hw]
    exact (sessionFindById_set hdid hs).trans (if_pos rfl)
  have hafter : sessionFindById (newmuxSessionDetachSilent sv s.id wl).1 s.id =
      some (detached s wl) := by
    unfold newmuxSessionDetachSilent
    simp only [hs]
    have hfind := (syncFrom_find htrees (hdid.symm ▸ hself) hne s.id).2 (.inl hdid.symm)
    rw [hdid] at hfind
    rw [hfind, hself]
  refine ⟨?_, hafter, ?_⟩
  · have hempty : (newmuxSessionDetachSilent sv s.id wl).2 =
        sessionEmpty (newmuxSessionDetachSilent sv s.id wl).1 s.id := by
      unfold newmuxSessionDetachSilent
      simp only [hs]
    rw [hempty, sessionEmpty, hafter]
    simpa [detached] using hne
  · intro j m hg hm
    have hg' : InGroup (sessionUnlink sv (detachSilentReady s wl) wl) (detached s wl).id j := by
      simpa only [InGroup, hgroups, hdid] using hg
    refine syncFrom_order htrees (hdid.symm ▸ hself) hne hg' ?_
    unfold newmuxSessionDetachSilent at hm
    simp only [hs] at hm
    rw [hdid]
    exact hm

/-- The recovery session attaches the window and the tab's own session detaches
it. -/
theorem attachDetach_wentIn {sv : Server} (hok : RecoveryOk sv) {R : Session}
    (hR : IsRecovery sv R) {s : Session}
    (hs : sessionFindById sv s.id = some s) (hname : s.name ≠ newmuxRecoverySession)
    {wl : Winlink} (hwl : wl ∈ s.windows) (hlast : lastTab s wl = false)
    (hown : OwnWindow sv wl.window) {link : Winlink} {wwl : Winlinks}
    (hadd : winlinkAdd R.windows (-1) sv.nextPtr wl.window = some (link, wwl)) :
    (newmuxSessionDetachSilent (attached sv R link wwl) s.id wl).2 = false ∧
      WentIn sv (newmuxSessionDetachSilent (attached sv R link wwl) s.id wl).1 R
        (linkedSession R link wwl) wl.window := by
  have hlot := hok.lot R hR
  have hne := hR.ne hs hname
  have hroom := roomMade_of_add hadd
  have htree := hok.trees.tree _ s hs
  obtain ⟨x, hx, hxne⟩ := lastTab_false htree.ptrs hlast
  have hremove : winlinkRemove s.windows wl.ptr ≠ [] :=
    List.ne_nil_of_mem (mem_winlinkRemove.mpr ⟨hx, hxne⟩)
  have htreesA := attached_treesOk hok.trees hR.find hroom
  rw [attachedAlone hlot.alone] at htreesA ⊢
  have hatt := linkedServer_find hR.find link wwl
  have hsA : sessionFindById (linkedServer sv R link wwl) s.id = some s := by
    rw [hatt, if_neg hne]
    exact hs
  obtain ⟨hfalse, -, hmembers⟩ := detachSilent_spec htreesA hsA hremove
  have hrun : Shrink (InGroup (linkedServer sv R link wwl) s.id) (fun _ => False)
      (linkedServer sv R link wwl)
      (newmuxSessionDetachSilent (linkedServer sv R link wwl) s.id wl).1 :=
    detachSilent_shrink wl fun _ h => h
  have houtR : ¬ InGroup (linkedServer sv R link wwl) s.id R.id := fun hg =>
    hne (alone_inGroup hlot.alone hg)
  obtain ⟨hid, hlname, -, hlw⟩ := linkedSession_fields R link wwl
  have horder : (Session.order (linkedSession R link wwl)).Perm
      (wl.window :: Session.order R) := by
    unfold Session.order
    rw [hlw]
    exact hroom.order_perm
  have hcreated : Created (linkedServer sv R link wwl) := by
    intro j m v hm hv
    rw [hatt] at hm
    split at hm
    · cases hm
      rcases List.mem_cons.mp (horder.mem_iff.mp hv) with rfl | hv
      · exact hok.created _ s _ hs (List.mem_map_of_mem hwl)
      · exact hok.created _ R _ hR.find hv
    · exact hok.created j m v hm hv
  -- the tab's own session no longer links the window, and its group follows it
  have hgone : wl.window ∉ Session.order (detached s wl) := by
    intro hin
    obtain ⟨y, hy, hyw⟩ := List.mem_map.mp hin
    obtain ⟨hys, hyne⟩ := mem_winlinkRemove.mp hy
    exact hyne (congrArg Winlink.ptr (hown.1 s (Table.find_some_mem hs) y hys wl hwl hyw rfl))
  refine ⟨hfalse, ⟨?_, hid, hlname, linkedSession_current hlot.current hroom, horder, ?_,
    Shrink.treesOk hrun htreesA, fun j hj => Shrink.grouped hrun hj,
    (Shrink.counters hrun).1.ge, Shrink.created hrun htreesA hcreated⟩⟩
  · rw [Shrink.frame hrun houtR, hatt, if_pos rfl]
  · intro j m hj hm v hv
    constructor
    · rintro rfl
      by_cases hg : InGroup (linkedServer sv R link wwl) s.id j
      · exact hgone (hmembers j m hg hm ▸ hv)
      · have hframe := Shrink.frame hrun hg
        rw [hm, hatt, if_neg hj] at hframe
        have hsv : InGroup sv s.id m.id := hown.2 s (Table.find_some_mem hs) m
          (Table.find_some_mem hframe.symm) (List.mem_map_of_mem hwl) hv
        rw [sessionFindById_id hframe.symm] at hsv
        exact hg hsv
    · obtain ⟨i, m₀, hm₀, hg, hv₀⟩ := Shrink.linked_before hrun htreesA hm hv
      have hi : i ≠ R.id := fun he => hj (alone_inGroup hlot.alone (he ▸ hg.symm))
      rw [hatt, if_neg hi] at hm₀
      exact ⟨i, m₀, hi, hm₀, hv₀⟩

/-- Creating the recovery session links no window. -/
theorem OwnWindow.ready {sv sv' : Server} {r : Nat} {R : Session} (h : LotReady sv sv' r R)
    (hu : Table.Unique sv'.sessions) {w : Nat} (hown : OwnWindow sv w) : OwnWindow sv' w := by
  have hback : ∀ s ∈ sv'.sessions, s.windows ≠ [] → s ∈ sv.sessions := fun s hs hne =>
    Table.find_some_mem (h.back s.id s (Table.find_of_mem hu hs) hne)
  have hnil : ∀ s : Session, w ∈ Session.order s → s.windows ≠ [] := by
    intro s hs he
    simp [Session.order, he] at hs
  constructor
  · intro s hs x hx
    exact hown.1 s (hback s hs (List.ne_nil_of_mem hx)) x hx
  · intro s hs s' hs' hw hw'
    have hg := hown.2 s (hback s hs (hnil s hw)) s' (hback s' hs' (hnil s' hw')) hw hw'
    simpa only [InGroup, h.groups] using hg

/-- **A closed tab** is parked, or the break fails and parks nothing. -/
theorem breakLiveWindow_broken {sv : Server} {items : List ClosedItem} (hp : Parks sv items)
    {s : Session} (hs : sessionFindById sv s.id = some s) (hname : s.name ≠ newmuxRecoverySession)
    {wl : Winlink} (hwl : wl ∈ s.windows) (hlast : lastTab s wl = false)
    (hown : OwnWindow sv wl.window) {win : Window}
    (hwin : windowFindById sv wl.window = some win) {item : ClosedItem}
    (htype : item.type = .window) (hwindow : item.windowId = wl.window)
    (hsession : item.sessionId = s.id) :
    Broken items (newmuxBreakLiveWindow sv item s.id wl) := by
  obtain ⟨hp₁, R, hready⟩ := hp.get
  simp only [newmuxBreakLiveWindow]
  generalize newmuxRecoverySessionGet sv = got at hp₁ hready ⊢
  obtain ⟨sv₁, r⟩ := got
  simp only at hp₁ hready ⊢
  generalize hpanes : ((windowFindById (windowUnzoom sv₁ wl.window) wl.window).map
    Window.panes).getD [] = ps
  -- unzooming and preserving the histories leave the sessions and pane lists alone
  have hkept : SessionsKept sv₁ (preserveHistories (windowUnzoom sv₁ wl.window) ps) :=
    (windowUnzoom_kept sv₁ wl.window).trans (preserveHistories_kept _ ps)
  have hpk : PanesKept sv₁ (preserveHistories (windowUnzoom sv₁ wl.window) ps) :=
    (windowUnzoom_panes sv₁ wl.window).trans (panesKept_of_windows rfl)
  have hp₂ := hp₁.kept hkept (.of_eq fun w _ => hpk w)
  obtain ⟨hok₂, hiff⟩ := hp₁.ok.kept hkept
  have hR₂ := (hiff R).mpr hready.recovery
  have hown₂ : OwnWindow (preserveHistories (windowUnzoom sv₁ wl.window) ps) wl.window := by
    have := hown.ready hready hp₁.ok.trees.unique
    simpa only [OwnWindow, InGroup, hkept.sessions, hkept.groups] using this
  have hs₂ : sessionFindById (preserveHistories (windowUnzoom sv₁ wl.window) ps) s.id = some s :=
    (hkept.find s.id).trans (hready.find _ _ hs)
  have hwin₂ : panesOf (preserveHistories (windowUnzoom sv₁ wl.window) ps) wl.window =
      some win.panes := by
    rw [hpk, panesOf]
    have hsame : windowFindById sv₁ wl.window = windowFindById sv wl.window := by
      unfold windowFindById
      rw [hready.windows]
    rw [hsame, hwin]
    rfl
  generalize preserveHistories (windowUnzoom sv₁ wl.window) ps = sv₂ at hp₂ hok₂ hR₂ hown₂ hs₂ hwin₂ ⊢
  -- the window is linked in the recovery session, then unlinked from its own
  have hout := attachSilent_outcome hR₂.find wl.window (-1)
  rw [hready.id] at hout
  generalize newmuxSessionAttachSilent sv₂ r wl.window (-1) = att at hout ⊢
  cases hout with
  | error cause h => exact .error _ _ hp₂
  | ok link wwl h =>
      obtain ⟨hfalse, hin⟩ := attachDetach_wentIn hok₂ hR₂ hs₂ hname hwl hlast hown₂ h
      have hne := hR₂.ne hs₂ hname
      -- being linked in another session, it was not parked yet
      have hwR : wl.window ∉ Session.order R := fun hw =>
        hp₂.separate R hR₂ s.id s hs₂ hne _ hw (List.mem_map_of_mem hwl)
      have hwk : WindowsKept (fun _ => False) sv₂
          (newmuxSessionDetachSilent (attached sv₂ R link wwl) s.id wl).1 := by
        have hrun : Shrink (fun _ => True) (fun _ => False) (linkedServer sv₂ R link wwl)
            (newmuxSessionDetachSilent (attached sv₂ R link wwl) s.id wl).1 := by
          rw [attachedAlone (hok₂.lot R hR₂).alone]
          exact detachSilent_shrink wl fun _ _ => trivial
        have htrees : TreesOk (linkedServer sv₂ R link wwl) := by
          rw [← attachedAlone (hok₂.lot R hR₂).alone]
          exact attached_treesOk hok₂.trees hR₂.find (roomMade_of_add h)
        have hk := Shrink.windows hrun htrees
        exact ⟨hk.survive, hk.back⟩
      have hlinked : ∀ w ∈ Session.order (linkedSession R link wwl), panesOf
          (newmuxSessionDetachSilent (attached sv₂ R link wwl) s.id wl).1 w = panesOf sv₂ w := by
        intro w hw
        unfold panesOf
        rw [hwk.survive w (fun h => h) ((linked_iff hin.trees.unique).mpr ⟨_, _, hin.find, hw⟩)]
      have hall := hin.order
      cases hdet : newmuxSessionDetachSilent (attached sv₂ R link wwl) s.id wl with
      | mk sv₄ empty =>
          rw [hdet] at hfalse hin hlinked
          simp only at hfalse hin hlinked
          subst hfalse
          simp only [hdet]
          refine .ok _ _ (hin.parks hp₂ hR₂ hwR ?_ rfl ?_ ?_ ?_ ?_ ?_)
          · refine .of_eq fun w hw => hlinked w (hall.mem_iff.mpr (List.mem_cons_of_mem _ ?_))
            exact hR₂.order hok₂.trees ▸ hw
          · rw [htype]
            decide
          · exact hready.id.symm
          · rw [hsession]
            exact hne
          · exact fun _ => hwindow
          · refine ⟨win.panes, ?_, fun ht => ?_⟩
            · rw [hlinked _ (hall.mem_iff.mpr List.mem_cons_self), hwin₂]
            · rw [htype] at ht
              cases ht

/-! ## A closed pane -/

/-- `newmux_break_live_pane` attaches the pane's new window to the recovery
session and makes it current in an empty one. -/
theorem breakLivePane_eq {sv : Server} {item : ClosedItem} {wl : Winlink} {wp r : Nat}
    {sv₁ sv₂ : Server} {dstW : Nat} {R : Session} (hget : newmuxRecoverySessionGet sv = (sv₁, r))
    (hbreak : breakPane sv₁ wl.window wp item.sequence = (sv₂, dstW)) (hok : TreesOk sv₂)
    (hR : IsRecovery sv₂ R) (hid : R.id = r) (halone : ¬ Grouped sv₂ R.id) :
    (∃ cause, newmuxBreakLivePane sv item wl wp = (sv₂, .error cause)) ∨
      ∃ link wwl, winlinkAdd R.windows (-1) sv₂.nextPtr dstW = some (link, wwl) ∧
        newmuxBreakLivePane sv item wl wp = (linkedServer sv₂ R link wwl,
          .ok { item with recoverySessionId := r, recoveryWindowId := dstW }) := by
  subst hid
  cases hadd : winlinkAdd R.windows (-1) sv₂.nextPtr dstW with
  | none =>
      refine .inl ⟨s!"index in use: {(-1 : Int)}", ?_⟩
      simp only [newmuxBreakLivePane, hget, hbreak, sessionAttach, hR.find, hadd]
  | some added =>
      obtain ⟨link, wwl⟩ := added
      refine .inr ⟨link, wwl, rfl, ?_⟩
      have hid : ({ R with windows := wwl } : Session).id = R.id := rfl
      have halone' : ¬ Grouped { sv₂.setSession { R with windows := wwl } with
          nextPtr := sv₂.nextPtr + 1 } R.id := halone
      have hfind : sessionFindById { sv₂.setSession { R with windows := wwl } with
          nextPtr := sv₂.nextPtr + 1 } R.id = some { R with windows := wwl } :=
        (sessionFindById_set hid hR.find).trans (if_pos rfl)
      have hlink : winlinkFindByIndex wwl link.idx = some link := by
        have htree := (roomMade_of_add hadd).treeOk (hok.tree _ R hR.find)
        refine htree.sorted.findByIndex ?_
        obtain ⟨-, -, -, hwwl, -⟩ := winlinkAdd_some hadd
        exact hwwl ▸ mem_rbInsert.mpr (.inl rfl)
      simp only [newmuxBreakLivePane, hget, hbreak, sessionAttach, hR.find, hadd,
        syncFrom_alone halone', hfind]
      by_cases hnone : R.curw = none
      · have hset := setSession_setSession sv₂
          (sessionSelect_same { R with windows := wwl } link.idx).id.symm
        simp only [Server.setSession] at hset
        simp only [hnone, if_true, linkedServer, linkedSession, Server.setSession, sessionSelect,
          hlink] at hset ⊢
        rw [Server.mk.injEq] at hset
        rw [hset.1]
      · simp only [if_neg hnone, linkedServer, linkedSession]

/-- **A closed pane** is parked in a window of its own, or the break fails and
parks nothing. -/
theorem breakLivePane_broken {sv : Server} {items : List ClosedItem} (hp : Parks sv items)
    {s : Session} (hs : sessionFindById sv s.id = some s) (hname : s.name ≠ newmuxRecoverySession)
    (wl : Winlink) (wp : Nat) {item : ClosedItem} (htype : item.type = .pane)
    (hpane : item.paneId = wp) (hsession : item.sessionId = s.id) :
    Broken items (newmuxBreakLivePane sv item wl wp) := by
  obtain ⟨hp₁, R, hready⟩ := hp.get
  cases hget : newmuxRecoverySessionGet sv with
  | mk sv₁ r =>
  rw [hget] at hp₁ hready
  simp only at hp₁ hready
  have hkept := breakPane_kept sv₁ wl.window wp item.sequence
  obtain ⟨hge, hlt, hnew, hold⟩ := breakPane_panes sv₁ wl.window wp item.sequence
  -- a window that is linked has been created before the pane's new window
  have hne : ∀ j m x, sessionFindById sv₁ j = some m → x ∈ Session.order m →
      x ≠ (breakPane sv₁ wl.window wp item.sequence).2 := by
    intro j m x hm hx
    have := hp₁.ok.created j m x hm hx
    omega
  have hwithin : PanesWithin sv₁ (breakPane sv₁ wl.window wp item.sequence).1
      (recoveryOrder sv₁) := by
    intro x hx panes hpx
    obtain ⟨R', hR', hx⟩ := (mem_recoveryOrder hp₁.ok.trees).mp hx
    rw [hold x (hne _ R' x hR'.find hx), hpx]
    exact ⟨_, rfl, fun p hpm => List.mem_of_mem_filter hpm⟩
  have hp₂ := hp₁.kept hkept hwithin
  obtain ⟨hok₂, hiff⟩ := hp₁.ok.kept hkept
  have hR₂ := (hiff R).mpr hready.recovery
  have hlot := hok₂.lot R hR₂
  have hs₂ : sessionFindById (breakPane sv₁ wl.window wp item.sequence).1 s.id = some s :=
    (hkept.find s.id).trans (hready.find _ _ hs)
  have hfindne : ∀ j m x,
      sessionFindById (breakPane sv₁ wl.window wp item.sequence).1 j = some m →
      x ∈ Session.order m → x ≠ (breakPane sv₁ wl.window wp item.sequence).2 :=
    fun j m x hm hx => hne j m x ((hkept.find j).symm.trans hm) hx
  cases hbreak : breakPane sv₁ wl.window wp item.sequence with
  | mk sv₂ dstW =>
  rw [hbreak] at hlt hnew hp₂ hok₂ hR₂ hlot hs₂ hfindne
  simp only at hlt hnew hp₂ hok₂ hR₂ hlot hs₂ hfindne
  have hsne := hR₂.ne hs₂ hname
  -- the new window is linked in the recovery session, or there is no index for it
  rcases breakLivePane_eq hget hbreak hok₂.trees hR₂ hready.id hlot.alone with
    ⟨cause, heq⟩ | ⟨link, wwl, hadd, heq⟩
  · rw [heq]
    exact .error _ _ hp₂
  · rw [heq]
    have hroom := roomMade_of_add hadd
    have hatt := linkedServer_find hR₂.find link wwl
    obtain ⟨hid, hlname, -, hlw⟩ := linkedSession_fields R link wwl
    have htrees : TreesOk (linkedServer sv₂ R link wwl) := by
      rw [← attachedAlone hlot.alone]
      exact attached_treesOk hok₂.trees hR₂.find hroom
    have horder : (Session.order (linkedSession R link wwl)).Perm (dstW :: Session.order R) := by
      unfold Session.order
      rw [hlw]
      exact hroom.order_perm
    have hin : WentIn sv₂ (linkedServer sv₂ R link wwl) R (linkedSession R link wwl) dstW := by
      refine ⟨by rw [hatt, if_pos rfl], hid, hlname, linkedSession_current hlot.current hroom,
        horder, ?_, htrees, fun _ hj => hj, le_rfl, ?_⟩
      · intro j m hj hm v hv
        rw [hatt, if_neg hj] at hm
        exact ⟨hfindne j m v hm hv, j, m, hj, hm, hv⟩
      · intro j m v hm hv
        rw [hatt] at hm
        split at hm
        · cases hm
          rcases List.mem_cons.mp (horder.mem_iff.mp hv) with rfl | hv
          · exact hlt
          · exact hok₂.created _ R _ hR₂.find hv
        · exact hok₂.created j m v hm hv
    refine .ok _ _ (hin.parks hp₂ hR₂ (fun hw => hfindne _ R _ hR₂.find hw rfl)
      (.of_eq fun _ _ => rfl) rfl ?_ hready.id.symm ?_ ?_ ⟨[wp], hnew, ?_⟩)
    · rw [htype]
      decide
    · rw [hsession]
      exact hsne
    · intro ht
      rw [htype] at ht
      cases ht
    · intro _ p hpm
      rw [List.mem_singleton.mp hpm, hpane]

end Newmux.Logic
