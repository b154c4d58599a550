import Newmux.Logic.Parking

/-!
# Restoring a parked item

A restore takes the item's window out of the recovery session; one that fails
leaves every parked window where it was.
-/

namespace Newmux.Logic

open Newmux.Base Newmux.Tmux Newmux.Recovery

/-- What a restore attempt leaves: the other items, and this one if it failed. -/
inductive Tried (item : ClosedItem) (items : List ClosedItem) :
    Server × Except String Unit → Prop
  | error (sv : Server) (cause : String) (h : Parks sv (item :: items)) :
      Tried item items (sv, .error cause)
  | ok (sv : Server) (h : Parks sv items) : Tried item items (sv, .ok ())

/-- The item's window has left the recovery session. -/
theorem Parks.leave {sv sv' : Server} {item : ClosedItem} {items : List ClosedItem}
    (hp : Parks sv (item :: items)) (hok : RecoveryOk sv') (hsep : Separate sv')
    (hlot : SameLot sv sv')
    (hperm : (recoveryOrder sv).Perm (item.recoveryWindowId :: recoveryOrder sv'))
    (hpanes : PanesWithin sv sv' (recoveryOrder sv')) : Parks sv' items := by
  have horder : (recoveryOrder sv').Perm (items.map ClosedItem.recoveryWindowId) :=
    (hperm.symm.trans hp.order).cons_inv
  refine ⟨hok, hsep, horder, fun x hx => ?_⟩
  refine (hp.stored x (List.mem_cons_of_mem _ hx)).frame hlot fun w hw => hpanes w ?_
  rw [List.mem_singleton.mp hw]
  exact horder.mem_iff.mpr (List.mem_map_of_mem hx)

theorem SameLot.trans {sv sv' sv'' : Server} (h : SameLot sv sv') (h' : SameLot sv' sv'') :
    SameLot sv sv'' := by
  intro R'' hR''
  obtain ⟨R', hR', hid'⟩ := h' R'' hR''
  obtain ⟨R, hR, hid⟩ := h R' hR'
  exact ⟨R, hR, hid'.trans hid⟩

/-! ## Windows -/

/-- Another session links one more window. -/
theorem RecoveryOk.linkedServer {sv : Server} (h : RecoveryOk sv) {s : Session}
    (hs : sessionFindById sv s.id = some s) (hname : s.name ≠ newmuxRecoverySession)
    {w last : Nat} {wl : Winlink} {wwl : Winlinks}
    (hroom : RoomMade s.windows sv.nextPtr w wl wwl last) (hw : w < sv.nextWindowId) :
    RecoveryOk (linkedServer sv s wl wwl) ∧
      ∀ R, IsRecovery (Logic.linkedServer sv s wl wwl) R ↔ IsRecovery sv R := by
  obtain ⟨hid, hlname, -, hlw⟩ := linkedSession_fields s wl wwl
  have hfind := linkedServer_find hs wl wwl
  have htrees : TreesOk (Logic.linkedServer sv s wl wwl) :=
    relinked_treesOk h.trees hs hid hlname (hlw.symm ▸ hroom)
  have hiff : ∀ R, IsRecovery (Logic.linkedServer sv s wl wwl) R ↔ IsRecovery sv R := by
    intro R
    constructor
    · intro hR
      have hf := hR.find
      rw [hfind] at hf
      split at hf
      · cases hf
        exact absurd (hlname.symm.trans hR.name) hname
      · exact ⟨hf, hR.name⟩
    · intro hR
      refine ⟨?_, hR.name⟩
      rw [hfind, if_neg (hR.ne hs hname).symm]
      exact hR.find
  refine ⟨⟨htrees, ?_, h.groupIds, fun R hR => ?_⟩, hiff⟩
  · intro j m v hm hv
    rcases linkedServer_linked hs hroom hm hv with rfl | ⟨m₀, hm₀, hv₀⟩
    · exact hw
    · exact h.created j m₀ v hm₀ hv₀
  · have hlot := h.lot R ((hiff R).mp hR)
    exact ⟨hlot.alone, hlot.current, hlot.once⟩

theorem restoreLiveWindow_tried {sv : Server} {item : ClosedItem} {items : List ClosedItem}
    (hp : Parks sv (item :: items)) (target : Option Nat) (htype : item.type = .window) :
    Tried item items (newmuxRestoreLiveWindow sv target item) := by
  have hout := restoreLiveWindow_outcome hp.ok.trees target item
  generalize newmuxRestoreLiveWindow sv target item = r at hout ⊢
  cases hout with
  | missing cause h => exact .error _ _ hp
  | noRoom cause dstS recoveryS recoveryWl w h hlink => exact .error _ _ hp
  | back dstS recoveryS recoveryWl w wl wwl h hlink =>
      have hst := hp.stored item List.mem_cons_self
      obtain ⟨hdst, hrecS, hrecWl, hw, hwid⟩ := findLiveWindow_ok h
      obtain ⟨R, hR, hRid, hmem⟩ := hp.mem List.mem_cons_self
      have hRS : recoveryS = R := by
        have hfind := hR.find
        rw [hRid, hrecS] at hfind
        exact Option.some.inj hfind
      subst hRS
      obtain ⟨hwlR, hwlw⟩ := findByWindow_some hrecWl
      have hrec : item.recoveryWindowId = item.windowId := hst.window htype
      have hname := hst.destination hp.ok.trees hdst
      have hdstf := destination_find hp.ok.trees.unique hdst
      have hne := hR.ne hdstf hname
      have hlot := hp.ok.lot recoveryS hR
      obtain ⟨last, hroom⟩ := Place.link_spec (hp.ok.trees.tree _ _ hdstf).sorted hlink
      have hwlt : w.id < sv.nextWindowId := by
        rw [hwid, ← hrec]
        exact hp.ok.created _ _ _ hR.find hmem
      obtain ⟨hok₀, hiff₀⟩ := hp.ok.linkedServer hdstf hname hroom hwlt
      -- the destination's group is given the window
      have hsync : Shrink (InGroup (linkedServer sv dstS wl wwl) dstS.id) (fun _ => False)
          (linkedServer sv dstS wl wwl) (attached sv dstS wl wwl) :=
        syncFrom_shrink fun _ hj => hj
      have hT : ∀ R', IsRecovery (linkedServer sv dstS wl wwl) R' →
          ¬ InGroup (linkedServer sv dstS wl wwl) dstS.id R'.id := by
        intro R' hR' hg
        rw [((hiff₀ R').mp hR').unique hp.ok.trees hR] at hg
        exact hne (alone_inGroup hlot.alone hg)
      obtain ⟨hok₁, hiff₁⟩ := hok₀.shrink hsync hT
      have hR₁ := (hiff₁ recoveryS).mpr ((hiff₀ recoveryS).mpr hR)
      -- the recovery session unlinks it
      obtain ⟨hok₂, hlot₂, hperm₂⟩ := hok₁.unlink hR₁ hwlR
      have hunlink : Shrink (fun _ => True) (fun _ => False) (attached sv dstS wl wwl)
          (serverUnlinkWindow (attached sv dstS wl wwl) recoveryS.id recoveryWl) :=
        unlinkWindow_shrink recoveryWl fun _ _ => trivial
      rw [hR₁.order hok₁.trees, ← hR.order hp.ok.trees, hwlw, ← hrec] at hperm₂
      have hsame₂ : SameLot sv
          (serverUnlinkWindow (attached sv dstS wl wwl) recoveryS.id recoveryWl) := by
        intro R' hR'
        obtain ⟨x, hx, hid⟩ := hlot₂ R' hR'
        exact ⟨x, (hiff₀ x).mp ((hiff₁ x).mp hx), hid⟩
      have hsep₂ : Separate
          (serverUnlinkWindow (attached sv dstS wl wwl) recoveryS.id recoveryWl) := by
        intro R' hR' j s hs hj x hx hxs
        obtain ⟨y, hy, hid⟩ := hsame₂ R' hR'
        rw [hy.unique hp.ok.trees hR] at hid
        rw [hid] at hj
        obtain ⟨i, s₁, hi, hs₁, hxs₁⟩ := hok₁.linked_outside hunlink hR₁ hs hj hxs
        obtain ⟨i', s₀, hi', hs₀, hxs₀⟩ :=
          hok₀.linked_outside hsync ((hiff₀ recoveryS).mpr hR) hs₁ hi hxs₁
        rw [← hR'.order hok₂.trees] at hx
        have hxR : x ∈ Session.order recoveryS :=
          hR.order hp.ok.trees ▸ hperm₂.mem_iff.mpr (List.mem_cons_of_mem _ hx)
        rcases linkedServer_linked hdstf hroom hs₀ hxs₀ with rfl | ⟨m₀, hm₀, hxm⟩
        · have hnd := hperm₂.nodup_iff.mp hp.nodup
          rw [List.nodup_cons, hrec, ← hwid] at hnd
          exact hnd.1 hx
        · exact hp.separate _ hR i' m₀ hm₀ hi' x hxR hxm
      -- selecting the window and rewriting histories touch no link
      have hselect : Shrink (· = dstS.id) (fun _ => False)
          (serverUnlinkWindow (attached sv dstS wl wwl) recoveryS.id recoveryWl)
          (serverSessionSelect
            (serverUnlinkWindow (attached sv dstS wl wwl) recoveryS.id recoveryWl)
            dstS.id wl.idx) := sessionSelect_shrink wl.idx rfl
      have hT₃ : ∀ R', IsRecovery
          (serverUnlinkWindow (attached sv dstS wl wwl) recoveryS.id recoveryWl) R' →
          ¬ R'.id = dstS.id := by
        intro R' hR' he
        obtain ⟨y, hy, hid⟩ := hsame₂ R' hR'
        rw [hy.unique hp.ok.trees hR] at hid
        exact hne (he.symm.trans hid)
      obtain ⟨hok₃, hiff₃⟩ := hok₂.shrink hselect hT₃
      have hsep₃ := hsep₂.shrink hok₂ hselect hT₃
      have horder₃ := recoveryOrder_congr hok₂.trees hok₃.trees hiff₃
      have hwindows := Shrink.windows ((hsync.mono fun _ _ => trivial).trans
        (hunlink.trans (hselect.mono fun _ _ => trivial))) hok₀.trees
      have hp₃ : Parks (serverSessionSelect
          (serverUnlinkWindow (attached sv dstS wl wwl) recoveryS.id recoveryWl)
          dstS.id wl.idx) items := by
        refine hp.leave hok₃ hsep₃ (hsame₂.trans (sameLot_of_iff hiff₃)) (horder₃ ▸ hperm₂)
          (.of_eq fun x hx => ?_)
        unfold panesOf
        rw [hwindows.parked hok₃ hx fun h => h]
        rfl
      refine .ok _ (hp₃.kept ((restoreIfShrunk_kept _ _).trans (protectWindow_kept _ _)) ?_)
      refine .of_eq fun x _ => panesKept_of_windows ?_ x
      rw [windowBack, protectWindow_windows, restoreIfShrunk_windows]

/-! ## Panes -/

theorem paneSelected_kept (sv : Server) (item : ClosedItem) (dstWl : Winlink) :
    SessionsKept sv (newmuxProtectPaneHistoryOnNextClear
      (newmuxSelectPaneIndex sv dstWl.window item.activePaneIndex) item.paneId) :=
  (newmuxSelectPaneIndex_kept sv dstWl.window item.activePaneIndex).trans (protectPane_kept _ _)

theorem serverSessionSelect_windows (sv : Server) (s idx : Nat) :
    (serverSessionSelect sv s idx).windows = sv.windows := by
  unfold serverSessionSelect
  split <;> rfl

theorem paneSelected_panes (sv : Server) (item : ClosedItem) (dstS : Nat) (dstWl : Winlink) :
    PanesKept sv (paneSelected sv item dstS dstWl) :=
  ((newmuxSelectPaneIndex_panes sv dstWl.window item.activePaneIndex).trans
    (panesKept_of_windows rfl)).trans
    (panesKept_of_windows (serverSessionSelect_windows _ _ _))

theorem restoreLivePane_tried {sv : Server} {item : ClosedItem} {items : List ClosedItem}
    (hp : Parks sv (item :: items)) (target : Option Nat) (htype : item.type = .pane) :
    Tried item items (newmuxRestoreLivePane sv target item) := by
  have hst := hp.stored item List.mem_cons_self
  -- the destination window is not parked
  have hdstW : ∀ {dstS : Session} {dstWl : Winlink} {recoveryW : Window},
      findLivePane sv target item = .ok (dstS, dstWl, recoveryW) →
        dstWl.window ∉ recoveryOrder sv := by
    intro dstS dstWl recoveryW h hin
    obtain ⟨hdst, hwl, -⟩ := findLivePane_ok h
    have hname := hst.destination hp.ok.trees hdst
    have hdstf := destination_find hp.ok.trees.unique hdst
    obtain ⟨R, hR, hw⟩ := (mem_recoveryOrder hp.ok.trees).mp hin
    exact hp.separate R hR _ dstS hdstf (hR.ne hdstf hname) _ hw
      (List.mem_map_of_mem (findByWindow_some hwl).1)
  have hmoved : ∀ {dstS : Session} {dstWl : Winlink} {recoveryW : Window},
      findLivePane sv target item = .ok (dstS, dstWl, recoveryW) →
        ∀ w ∈ recoveryOrder sv, panesOf (movePaneBack sv item dstWl.window recoveryW.id) w =
          (panesOf sv w).map (fun panes => panes.filter (· != item.paneId)) := by
    intro dstS dstWl recoveryW h w hw
    exact movePaneBack_panes fun he => hdstW h (he ▸ hw)
  have hwithin : ∀ {dstS : Session} {dstWl : Winlink} {recoveryW : Window},
      findLivePane sv target item = .ok (dstS, dstWl, recoveryW) →
        PanesWithin sv (movePaneBack sv item dstWl.window recoveryW.id) (recoveryOrder sv) := by
    intro dstS dstWl recoveryW h w hw panes hpw
    rw [hmoved h w hw, hpw]
    exact ⟨_, rfl, fun p hpm => List.mem_of_mem_filter hpm⟩
  have hout := restoreLivePane_outcome sv target item
  generalize newmuxRestoreLivePane sv target item = r at hout ⊢
  cases hout with
  | missing cause h => exact .error _ _ hp
  | misfit cause dstS dstWl recoveryW h hfit =>
      exact .error _ _ (hp.kept (movePaneBack_kept sv item _ _) (hwithin h))
  | back dstS dstWl recoveryW h hfit =>
      obtain ⟨hdst, -, -, -, hrecW, -, -⟩ := findLivePane_ok h
      have hrid : recoveryW.id = item.recoveryWindowId := windowFindById_id hrecW
      have hname := hst.destination hp.ok.trees hdst
      have hdstf := destination_find hp.ok.trees.unique hdst
      obtain ⟨R, hR, hRid, hmem⟩ := hp.mem List.mem_cons_self
      have hin : item.recoveryWindowId ∈ recoveryOrder sv :=
        (mem_recoveryOrder hp.ok.trees).mpr ⟨R, hR, hmem⟩
      have hmove := hp.kept (movePaneBack_kept sv item dstWl.window recoveryW.id) (hwithin h)
      generalize hsv₁ : movePaneBack sv item dstWl.window recoveryW.id = sv₁ at hmove
      have hlaid := hmove.kept (laidOut_kept sv₁ dstWl.window item.windowLayout)
        (.of_eq fun w _ => laidOut_panes _ _ _ w)
      -- the recovery window is left without panes
      have hempty : panesOf (laidOut sv₁ dstWl.window item.windowLayout)
          item.recoveryWindowId = some [] := by
        obtain ⟨panes, hpanes, hall⟩ := hst.panes
        rw [laidOut_panes, ← hsv₁, hmoved h _ hin, hpanes]
        have hnil : panes.filter (· != item.paneId) = [] :=
          List.filter_eq_nil_iff.mpr fun p hpm => by simp [hall htype p hpm]
        rw [Option.map_some, hnil]
      have hkept₂ : SessionsKept sv (laidOut sv₁ dstWl.window item.windowLayout) := by
        rw [← hsv₁]
        exact (movePaneBack_kept sv item dstWl.window recoveryW.id).trans (laidOut_kept _ _ _)
      have hR₂ := ((hp.ok.kept hkept₂).2 R).mpr hR
      unfold paneBack
      rw [hsv₁]
      generalize laidOut sv₁ dstWl.window item.windowLayout = sv₂ at hlaid hempty hkept₂ hR₂ ⊢
      have hsel := hlaid.kept (paneSelected_kept sv₂ item dstWl)
        (.of_eq fun w _ => ((newmuxSelectPaneIndex_panes sv₂ dstWl.window
          item.activePaneIndex).trans (panesKept_of_windows rfl)) w)
      have hR₃ := ((hlaid.ok.kept (paneSelected_kept sv₂ item dstWl)).2 R).mpr hR₂
      have hne := hR.ne hdstf hname
      have hrun : Shrink (· = dstS.id) (fun _ => False) _ (paneSelected sv₂ item dstS.id dstWl) :=
        sessionSelect_shrink dstWl.idx rfl
      have hT : ∀ R', IsRecovery (newmuxProtectPaneHistoryOnNextClear (newmuxSelectPaneIndex sv₂
          dstWl.window item.activePaneIndex) item.paneId) R' → ¬ R'.id = dstS.id := by
        intro R' hR' he
        rw [hR'.unique hsel.ok.trees hR₃] at he
        exact hne he.symm
      have hp₄ := hsel.elsewhere hrun hT fun _ _ hf => hf
      have hR₄ := ((hsel.ok.shrink hrun hT).2 R).mpr hR₃
      have hempty₄ : panesOf (paneSelected sv₂ item dstS.id dstWl) item.recoveryWindowId =
          some [] := by
        rw [paneSelected_panes, hempty]
      rw [finishPaneRestore_eq, hrid, if_pos hempty₄]
      generalize paneSelected sv₂ item dstS.id dstWl = sv₄ at hp₄ hR₄ ⊢
      obtain ⟨hok₅, hlot₅, hperm₅⟩ := hp₄.ok.kill hp₄.separate hR₄ hmem
      have hkill := killWindow_shrink hp₄.ok.trees item.recoveryWindowId true
      refine .ok _ (hp₄.leave hok₅ ?_ hlot₅ hperm₅ (.of_eq fun w hw => ?_))
      · exact hp₄.separate.sameLot hp₄.ok hok₅ hkill hlot₅ fun w hw =>
          hperm₅.mem_iff.mpr (List.mem_cons_of_mem _ hw)
      · have hnd := hperm₅.nodup_iff.mp hp₄.nodup
        rw [List.nodup_cons] at hnd
        unfold panesOf
        rw [(Shrink.windows hkill hp₄.ok.trees).parked hok₅ hw fun he => hnd.1 (he ▸ hw)]

/-- **A restore attempt** takes the item's window out of the recovery session, or
fails and leaves every parked window there. -/
theorem restoreClosedItem_tried {sv : Server} {item : ClosedItem} {items : List ClosedItem}
    (hp : Parks sv (item :: items)) (target : Option Nat) :
    Tried item items (newmuxRestoreClosedItem sv target item) := by
  unfold newmuxRestoreClosedItem
  cases htype : item.type with
  | pane => exact restoreLivePane_tried hp target htype
  | window => exact restoreLiveWindow_tried hp target htype
  | session => exact absurd htype (hp.stored item List.mem_cons_self).kind

end Newmux.Logic
