import Newmux.Logic.Housing
import Newmux.Theorems.Parked
import Newmux.Theorems.Sessions

/-!
# Sessions and parked windows in every run

The sessions keep their shape over every run of the recovery commands, of creates
and of selections, with no bound on what is closed. A window is linked by one
session group, and once in each of its sessions; an item's window stays parked
until its item is restored or the stacks are cleared.
-/

namespace Newmux.Theorems

open Newmux.Base Newmux.Tmux Newmux.Recovery Newmux.Logic

/-- The sessions are as they should be, and each window is linked by one group. -/
structure Linked (sv : Server) : Prop where
  sessions : SessionsOk sv
  links : LinksOn (fun _ => True) sv

/-- The same of all sessions but the recovery session `r`. -/
structure Apart (sv : Server) (r : Nat) : Prop where
  sessions : SessionsOk sv
  lot : ∀ s, sessionFindById sv r = some s → s.name = newmuxRecoverySession
  links : LinksOn (· ≠ r) sv

theorem Linked.ownWindow {sv : Server} (h : Linked sv) (w : Nat) : OwnWindow sv w := by
  have hfind : ∀ s ∈ sv.sessions, sessionFindById sv s.id = some s := fun s hs =>
    Table.find_of_mem h.sessions.trees.unique hs
  constructor
  · intro s hs x hx y hy hxw hyw
    exact window_inj (h.sessions.once _ s (hfind s hs)) hx hy (hxw.trans hyw.symm)
  · intro s hs s' hs' hw hw'
    exact h.links.shared _ _ s s' w trivial trivial (hfind s hs) (hfind s' hs') hw hw'

/-- A parked window that no other session links is linked by the recovery session
alone. -/
theorem Apart.linked {sv : Server} {r : Nat} (h : Apart sv r) (hsep : Separate sv) :
    Linked sv := by
  have hlot : ∀ s, sessionFindById sv r = some s → IsRecovery sv s := fun s hs =>
    ⟨(sessionFindById_id hs).symm ▸ hs, h.lot s hs⟩
  refine ⟨h.sessions, fun j s _ hs => h.sessions.once j s hs, ?_⟩
  intro i j si sj w _ _ hi hj hwi hwj
  by_cases hij : i = j
  · exact hij ▸ .refl sv i
  · by_cases hir : i = r
    · subst hir
      have hR := hlot si hi
      exact absurd hwj (hsep si hR j sj hj (fun he => hij (sessionFindById_id hi ▸ he.symm)) w hwi)
    · by_cases hjr : j = r
      · subst hjr
        have hR := hlot sj hj
        exact absurd hwi (hsep sj hR i si hi (fun he => hij (he.trans (sessionFindById_id hj))) w hwj)
      · exact h.links.shared i j si sj w hir hjr hi hj hwi hwj

/-! ## Steps that link no window anew -/

theorem Linked.shrink {T W : Nat → Prop} {sv sv' : Server} (h : Linked sv) (hrun : Shrink T W sv sv')
    (hsessions : SessionsOk sv') : Linked sv' :=
  ⟨hsessions, Shrink.linksOn hrun h.sessions.trees (fun _ _ _ h => h) h.links⟩

theorem Apart.shrink {T W : Nat → Prop} {sv sv' : Server} {r : Nat} (h : Apart sv r)
    (halone : ¬ Grouped sv r) (hrun : Shrink T W sv sv') (hsessions : SessionsOk sv') :
    Apart sv' r := by
  refine ⟨hsessions, fun s hs => ?_, Shrink.linksOn hrun h.sessions.trees (fun i j hg hi hj => ?_)
    h.links⟩
  · obtain ⟨s₀, hs₀, hname⟩ := Shrink.name hrun h.sessions.trees hs
    exact hname.trans (h.lot s₀ hs₀)
  · subst hj
    exact hi (alone_inGroup halone hg)

theorem Linked.kept {sv sv' : Server} (h : Linked sv) (hkept : SessionsKept sv sv') : Linked sv' :=
  h.shrink (Shrink.of_kept (T := fun _ => True) hkept) (h.sessions.kept hkept)

theorem Linked.killWindow {sv : Server} (h : Linked sv) (w : Nat) :
    Linked (serverKillWindow sv w true) :=
  h.shrink (killWindow_shrink h.sessions.trees w true) (h.sessions.killWindow w true)

theorem Linked.select {sv : Server} (h : Linked sv) (s idx : Nat) :
    Linked (serverSessionSelect sv s idx) :=
  h.shrink (sessionSelect_shrink (T := fun _ => True) (W := fun _ => True) idx trivial)
    (h.sessions.select s idx)

/-- Clearing destroys the recovery session, or does nothing to an empty one. -/
theorem Linked.recoveryClear {σ : State} (h : Linked σ.server) :
    Linked (newmuxRecoveryClear σ).server := by
  unfold newmuxRecoveryClear newmuxStackClear
  simp only
  cases hf : sessionFind σ.server newmuxRecoverySession with
  | none => exact h
  | some R =>
      obtain ⟨hR, -⟩ := (sessionFind_some h.sessions.trees).mp hf
      show Linked (sessionDestroy σ.server R.id)
      have hrun : Shrink (fun _ => True) (fun _ => True) σ.server
          (sessionDestroy σ.server R.id) := sessionDestroy_shrink trivial
      refine h.shrink hrun (h.sessions.fewer (Shrink.treesOk hrun h.sessions.trees)
        (fun j s hs => ?_) fun i j hg => Shrink.inGroup hrun hg)
      by_cases hcur : R.curw = none
      · have hsame : sessionDestroy σ.server R.id = σ.server := by
          simp only [sessionDestroy, hR, hcur, if_true]
        rwa [hsame] at hs
      · rw [sessionDestroy_find hR hcur] at hs
        split at hs
        · cases hs
        · exact hs

/-! ## The recovery session -/

/-- A session that is created links nothing and is in no group. -/
theorem Linked.create {sv : Server} (h : Linked sv)
    (hgroups : ∀ j, Grouped sv j → j < sv.nextSessionId)
    (hnone : sessionFind sv newmuxRecoverySession = none) :
    Linked (sessionCreate sv newmuxRecoverySession).1 := by
  have htrees := create_treesOk h.sessions.trees hnone
  -- it is the new session or one that was there
  have hfind : ∀ j s, sessionFindById (sessionCreate sv newmuxRecoverySession).1 j = some s →
      (j = sv.nextSessionId ∧ s.name = newmuxRecoverySession ∧ s.windows = [] ∧ s.lastw = [] ∧
        s.curw = none) ∨ sessionFindById sv j = some s := by
    intro j s hs
    have hmem : s ∈ sv.sessions.orderedInsert (fun a b => a.name ≤ b.name)
        { id := sv.nextSessionId, name := newmuxRecoverySession, curw := none, lastw := [],
          windows := [], options := sv.globalSOptions } := Table.find_some_mem hs
    rcases (List.mem_orderedInsert _).mp hmem with rfl | hmem
    · exact .inl ⟨(sessionFindById_id hs).symm, rfl, rfl, rfl, rfl⟩
    · exact .inr (sessionFindById_id hs ▸ Table.find_of_mem h.sessions.trees.unique hmem)
  have horder : ∀ {s : Session}, s.windows = [] → Session.order s = [] := by
    intro s hw
    rw [Session.order, hw, List.map_nil]
  have hsame : ∀ {i j : Nat}, InGroup sv i j → i ≠ j → i < sv.nextSessionId ∧ j < sv.nextSessionId := by
    rintro i j (he | ⟨sg, hsg, hi, hj⟩) hne
    · exact absurd he.symm hne
    · exact ⟨hgroups i ⟨sg, hsg, hi⟩, hgroups j ⟨sg, hsg, hj⟩⟩
  refine ⟨⟨htrees, fun j s hs => ?_, fun j s hs => ?_, fun j s hs hname => ?_,
    fun i j a b hg ha hb => ?_⟩, fun j s _ hs => ?_, fun i j si sj w _ _ hi hj hwi hwj => ?_⟩
  · rcases hfind j s hs with ⟨-, -, hw, hl, hc⟩ | hs
    · refine ⟨⟨fun p hp => ?_, fun _ => hw⟩, fun p hp => ?_, ?_, fun p hp => ?_⟩
      · rw [hc] at hp
        cases hp
      · rw [hl] at hp
        exact absurd hp List.not_mem_nil
      · rw [hl]
        exact List.nodup_nil
      · rw [hc] at hp
        cases hp
    · exact h.sessions.selection j s hs
  · rcases hfind j s hs with ⟨-, -, hw, -⟩ | hs
    · rw [horder hw]
      exact List.nodup_nil
    · exact h.sessions.once j s hs
  · rcases hfind j s hs with ⟨-, hn, -⟩ | hs
    · exact absurd hn hname
    · exact h.sessions.linked j s hs hname
  · by_cases hij : i = j
    · subst hij
      rw [ha] at hb
      obtain rfl := Option.some.inj hb
      exact ⟨rfl, rfl⟩
    · obtain ⟨hi, hj⟩ := hsame hg hij
      rcases hfind i a ha with ⟨he, -⟩ | ha
      · omega
      · rcases hfind j b hb with ⟨he, -⟩ | hb
        · omega
        · exact h.sessions.maps i j a b hg ha hb
  · rcases hfind j s hs with ⟨-, -, hw, -⟩ | hs
    · rw [horder hw]
      exact List.nodup_nil
    · exact h.links.once j s trivial hs
  · rcases hfind i si hi with ⟨-, -, hw, -⟩ | hi
    · rw [horder hw] at hwi
      exact absurd hwi List.not_mem_nil
    · rcases hfind j sj hj with ⟨-, -, hw, -⟩ | hj
      · rw [horder hw] at hwj
        exact absurd hwj List.not_mem_nil
      · exact h.links.shared i j si sj w trivial trivial hi hj hwi hwj

theorem Linked.get {sv : Server} (h : Linked sv)
    (hgroups : ∀ j, Grouped sv j → j < sv.nextSessionId) :
    Linked (newmuxRecoverySessionGet sv).1 := by
  unfold newmuxRecoverySessionGet
  cases hf : sessionFind sv newmuxRecoverySession with
  | some R => exact h
  | none => exact h.create hgroups hf

/-! ## Attaching -/

/-- Nothing in an attach to a session `s` shows in the sessions out of its group. -/
theorem linkedServer_apart {sv : Server} {R : Session} (h : Linked sv) (hR : IsRecovery sv R)
    (halone : ¬ Grouped sv R.id) {w last : Nat} {wl : Winlink} {wwl : Winlinks}
    (hroom : RoomMade R.windows sv.nextPtr w wl wwl last) (hout : w ∉ Session.order R) :
    Apart (linkedServer sv R wl wwl) R.id := by
  have hfind := linkedServer_find hR.find wl wwl
  have hsessions := h.sessions.attached hR.find hroom hout
  rw [attachedAlone halone] at hsessions
  refine ⟨hsessions, fun s hs => ?_, fun j s hj hs => ?_, fun i j si sj w hi hj hsi hsj hwi hwj => ?_⟩
  · rw [hfind, if_pos rfl] at hs
    obtain rfl := Option.some.inj hs
    exact (linkedSession_fields R wl wwl).2.1.trans hR.name
  · rw [hfind, if_neg hj] at hs
    exact h.links.once j s trivial hs
  · rw [hfind, if_neg hi] at hsi
    rw [hfind, if_neg hj] at hsj
    exact h.links.shared i j si sj w trivial trivial hsi hsj hwi hwj

/-- A session is given a window that no session in `P` links. -/
theorem linkedServer_linksOn {P : Nat → Prop} {sv : Server} (h : LinksOn P sv) {s : Session}
    (hs : sessionFindById sv s.id = some s) {w last : Nat} {wl : Winlink} {wwl : Winlinks}
    (hroom : RoomMade s.windows sv.nextPtr w wl wwl last)
    (hout : ∀ j m, P j → sessionFindById sv j = some m → w ∉ Session.order m) :
    LinksOn P (linkedServer sv s wl wwl) := by
  have hfind := linkedServer_find hs wl wwl
  refine ⟨fun j m hj hm => ?_, fun i j si sj x hi hj hsi hsj hxi hxj => ?_⟩
  · rw [hfind] at hm
    split at hm
    · next he =>
        obtain rfl := Option.some.inj hm
        have hself : P s.id := he ▸ hj
        unfold Session.order
        rw [(linkedSession_fields s wl wwl).2.2.2, hroom.order_perm.nodup_iff, List.nodup_cons]
        exact ⟨hout _ s hself hs, h.once _ s hself hs⟩
    · exact h.once j m hj hm
  · rcases linkedServer_linked hs hroom hsi hxi with rfl | ⟨mi, hmi, hxmi⟩
    · -- only the session itself links the window now
      have hself : ∀ k m, P k → sessionFindById (linkedServer sv s wl wwl) k = some m →
          x ∈ Session.order m → k = s.id := by
        intro k m hk hm hxm
        by_contra hks
        rw [hfind, if_neg hks] at hm
        exact hout k m hk hm hxm
      rw [hself i si hi hsi hxi, hself j sj hj hsj hxj]
      exact .refl _ _
    · rcases linkedServer_linked hs hroom hsj hxj with rfl | ⟨mj, hmj, hxmj⟩
      · exact absurd hxmi (hout i mi hi hmi)
      · exact h.shared i j mi mj x hi hj hmi hmj hxmi hxmj

/-- A window that only the recovery session links comes back into a session. -/
theorem attached_apart {sv : Server} (h : Linked sv) {R : Session} (hR : IsRecovery sv R)
    (halone : ¬ Grouped sv R.id) {s : Session} (hs : sessionFindById sv s.id = some s)
    (hne : s.id ≠ R.id) {w last : Nat} {wl : Winlink} {wwl : Winlinks}
    (hroom : RoomMade s.windows sv.nextPtr w wl wwl last)
    (hout : ∀ j m, j ≠ R.id → sessionFindById sv j = some m → w ∉ Session.order m) :
    Apart (attached sv s wl wwl) R.id := by
  obtain ⟨hid, hname, hopt, hw⟩ := linkedSession_fields s wl wwl
  have htrees : TreesOk (linkedServer sv s wl wwl) :=
    relinked_treesOk h.sessions.trees hs hid hname (hw.symm ▸ hroom)
  have hrun : Shrink (fun _ => True) (fun _ => True) (linkedServer sv s wl wwl)
      (attached sv s wl wwl) := syncFrom_shrink fun _ _ => trivial
  have hlinks : LinksOn (· ≠ R.id) (linkedServer sv s wl wwl) := by
    refine linkedServer_linksOn ⟨fun j m _ hm => h.links.once j m trivial hm, ?_⟩ hs hroom hout
    intro i j si sj x _ _
    exact h.links.shared i j si sj x trivial trivial
  refine ⟨h.sessions.attached hs hroom (hout _ s hne hs), fun m hm => ?_,
    Shrink.linksOn hrun htrees (fun i j hg hi hj => ?_) hlinks⟩
  · obtain ⟨m₀, hm₀, hmname⟩ := Shrink.name hrun htrees hm
    rw [linkedServer_find hs, if_neg hne.symm, hR.find] at hm₀
    obtain rfl := Option.some.inj hm₀
    exact hmname.trans hR.name
  · subst hj
    exact hi (alone_inGroup halone hg)

/-! ## Closing -/

/-- The server on which a tab is moved: there is a recovery session, the tab's window
is unzoomed, and the sessions are as they were. -/
structure ReadyToPark (sv sv₂ : Server) (items : List ClosedItem) (R : Session) : Prop where
  parks : Parks sv₂ items
  linked : Linked sv₂
  recovery : IsRecovery sv₂ R
  find : ∀ j s, sessionFindById sv j = some s → sessionFindById sv₂ j = some s
  back : ∀ j s, j ≠ R.id → sessionFindById sv₂ j = some s → sessionFindById sv j = some s
  unzoomed : ∀ w, (windowFindById sv₂ w).map unzoomWindow = (windowFindById sv w).map unzoomWindow

/-- How the break of a tab ends: there is no index for it in the recovery session, or
it is linked there and unlinked from its own. -/
theorem breakLiveWindow_outcome {sv : Server} {items : List ClosedItem} (hp : Parks sv items)
    (h : Linked sv) {s : Session} (hs : sessionFindById sv s.id = some s)
    (hname : s.name ≠ newmuxRecoverySession) {wl : Winlink} (hlast : lastTab s wl = false)
    (item : ClosedItem) :
    ∃ sv₂ R, ReadyToPark sv sv₂ items R ∧
      ((∃ cause, newmuxBreakLiveWindow sv item s.id wl = (sv₂, .error cause)) ∨
        ∃ link wwl, RoomMade R.windows sv₂.nextPtr wl.window link wwl link.idx ∧
          newmuxBreakLiveWindow sv item s.id wl =
            ((newmuxSessionDetachSilent (linkedServer sv₂ R link wwl) s.id wl).1,
              .ok { item with recoverySessionId := R.id, recoveryWindowId := wl.window })) := by
  have hget := h.get hp.ok.groupIds
  obtain ⟨hp₁, R, hready⟩ := hp.get
  -- no session has come but the recovery session
  have hback : ∀ j m, j ≠ R.id → sessionFindById (newmuxRecoverySessionGet sv).1 j = some m →
      sessionFindById sv j = some m := by
    intro j m hj hm
    rcases recoverySessionGet_cases hp.ok.trees with ⟨R', hR', heq⟩ | ⟨-, heq⟩
    · rwa [heq] at hm
    · obtain ⟨R', hid, -, -, -, -, -, hfind⟩ :=
        create_find hp.ok.trees newmuxRecoverySession
      have hRid : R.id = sv.nextSessionId := by
        rw [hready.id, heq]
        rfl
      rwa [heq, hfind, if_neg (hRid ▸ hj)] at hm
  simp only [newmuxBreakLiveWindow]
  generalize newmuxRecoverySessionGet sv = got at hget hp₁ hready hback ⊢
  obtain ⟨sv₁, r⟩ := got
  simp only at hget hp₁ hready hback ⊢
  generalize ((windowFindById (windowUnzoom sv₁ wl.window) wl.window).map
    Window.panes).getD [] = ps
  have hkept : SessionsKept sv₁ (preserveHistories (windowUnzoom sv₁ wl.window) ps) :=
    (windowUnzoom_kept sv₁ wl.window).trans (preserveHistories_kept _ ps)
  have h₂ := hget.kept hkept
  have hpk : PanesKept sv₁ (preserveHistories (windowUnzoom sv₁ wl.window) ps) :=
    (windowUnzoom_panes sv₁ wl.window).trans (panesKept_of_windows rfl)
  have hp₂ := hp₁.kept hkept (.of_eq fun w _ => hpk w)
  have hR₂ := ((hp₁.ok.kept hkept).2 R).mpr hready.recovery
  have hfind₂ := hkept.find
  have hunzoomed : ∀ w, (windowFindById (preserveHistories (windowUnzoom sv₁ wl.window) ps) w).map
      unzoomWindow = (windowFindById sv w).map unzoomWindow := by
    intro w
    unfold windowFindById
    rw [(preserveHistories_same _ ps).windows, ← hready.windows]
    show (windowFindById (windowUnzoom sv₁ wl.window) w).map unzoomWindow =
      (windowFindById sv₁ w).map unzoomWindow
    rw [windowUnzoom_record]
    split
    · rw [Option.map_map]
      exact congrArg (Option.map · _) (funext unzoomWindow_idem)
    · rfl
  generalize preserveHistories (windowUnzoom sv₁ wl.window) ps = sv₂ at h₂ hp₂ hR₂ hfind₂ hunzoomed ⊢
  refine ⟨sv₂, R, ⟨hp₂, h₂, hR₂, fun j m hm => (hfind₂ j).trans (hready.find j m hm),
    fun j m hj hm => hback j m hj (hfind₂ j ▸ hm), hunzoomed⟩, ?_⟩
  have hs₂ : sessionFindById sv₂ s.id = some s := (hfind₂ s.id).trans (hready.find _ _ hs)
  have hout := attachSilent_outcome hR₂.find wl.window (-1)
  rw [hready.id] at hout
  generalize newmuxSessionAttachSilent sv₂ r wl.window (-1) = att at hout ⊢
  cases hout with
  | error cause hadd => exact .inl ⟨cause, rfl⟩
  | ok link wwl hadd =>
      have halone := (hp₂.ok.lot R hR₂).alone
      have hne := hR₂.ne hs₂ hname
      have hlinked : sessionFindById (linkedServer sv₂ R link wwl) s.id = some s := by
        rw [linkedServer_find hR₂.find, if_neg hne]
        exact hs₂
      -- another tab is left, so the session it goes from is not emptied
      obtain ⟨x, hx, hxne⟩ := lastTab_false (h.sessions.trees.tree _ s hs).ptrs hlast
      have htrees := attached_treesOk hp₂.ok.trees hR₂.find (roomMade_of_add hadd)
      rw [attachedAlone halone] at htrees ⊢
      have hspec := (detachSilent_spec htrees hlinked
        (List.ne_nil_of_mem (mem_winlinkRemove.mpr ⟨hx, hxne⟩))).1
      refine .inr ⟨link, wwl, roomMade_of_add hadd, ?_⟩
      cases hdet : newmuxSessionDetachSilent (linkedServer sv₂ R link wwl) s.id wl with
      | mk sv₄ empty =>
          rw [hdet] at hspec
          simp only at hspec
          subst hspec
          simp only [hdet, hready.id]

/-- **A closed tab** leaves its group and comes into the recovery session. -/
theorem breakLiveWindow_linked {sv : Server} {items : List ClosedItem} (hp : Parks sv items)
    (h : Linked sv) {s : Session} (hs : sessionFindById sv s.id = some s)
    (hname : s.name ≠ newmuxRecoverySession) {wl : Winlink} (hwl : wl ∈ s.windows)
    (hlast : lastTab s wl = false) {win : Window}
    (hwin : windowFindById sv wl.window = some win) {item : ClosedItem}
    (htype : item.type = .window) (hwindow : item.windowId = wl.window)
    (hsession : item.sessionId = s.id) :
    Linked (newmuxBreakLiveWindow sv item s.id wl).1 := by
  have hbroken := breakLiveWindow_broken hp hs hname hwl hlast (h.ownWindow wl.window) hwin htype
    hwindow hsession
  obtain ⟨sv₂, R, hready, ⟨cause, heq⟩ | ⟨link, wwl, hroom, heq⟩⟩ :=
    breakLiveWindow_outcome hp h hs hname hlast item
  · rw [heq]
    exact hready.linked
  · rw [heq] at hbroken ⊢
    have hR := hready.recovery
    have hs₂ := hready.find _ _ hs
    have hne := hR.ne hs₂ hname
    have halone := (hready.parks.ok.lot R hR).alone
    have hwR : wl.window ∉ Session.order R := fun hw =>
      hready.parks.separate R hR s.id s hs₂ hne _ hw (List.mem_map_of_mem hwl)
    have hapart := linkedServer_apart hready.linked hR halone hroom hwR
    have hlinked : sessionFindById (linkedServer sv₂ R link wwl) s.id = some s := by
      rw [linkedServer_find hR.find, if_neg hne]
      exact hs₂
    obtain ⟨x, hx, hxne⟩ := lastTab_false (h.sessions.trees.tree _ s hs).ptrs hlast
    have hremove : winlinkRemove s.windows wl.ptr ≠ [] :=
      List.ne_nil_of_mem (mem_winlinkRemove.mpr ⟨hx, hxne⟩)
    have hdetached := hapart.shrink halone (detachSilent_shrink (T := fun _ => True)
      (W := fun _ => True) wl fun _ _ => trivial)
      (hapart.sessions.detachSilent hlinked hwl hremove)
    cases hbroken with
    | ok _ _ hp' => exact hdetached.linked hp'.separate

/-- **A closed pane** comes into the recovery session, in a window of its own. -/
theorem breakLivePane_linked {sv : Server} {items : List ClosedItem} (hp : Parks sv items)
    (h : Linked sv) {s : Session} (hs : sessionFindById sv s.id = some s)
    (hname : s.name ≠ newmuxRecoverySession) (wl : Winlink) (wp : Nat) {item : ClosedItem}
    (htype : item.type = .pane) (hpane : item.paneId = wp) (hsession : item.sessionId = s.id) :
    Linked (newmuxBreakLivePane sv item wl wp).1 := by
  have hbroken := breakLivePane_broken hp hs hname wl wp htype hpane hsession
  have hget := h.get hp.ok.groupIds
  obtain ⟨hp₁, R, hready⟩ := hp.get
  cases hgot : newmuxRecoverySessionGet sv with
  | mk sv₁ r =>
  rw [hgot] at hget hp₁ hready
  simp only at hget hp₁ hready
  have hkept := breakPane_kept sv₁ wl.window wp item.sequence
  have hge := (breakPane_panes sv₁ wl.window wp item.sequence).1
  have h₂ := hget.kept hkept
  obtain ⟨hok₂, hiff⟩ := hp₁.ok.kept hkept
  have hR₂ := (hiff R).mpr hready.recovery
  have hwR : (breakPane sv₁ wl.window wp item.sequence).2 ∉ Session.order R := by
    intro hin
    have hlt := hp₁.ok.created _ R _ hready.recovery.find hin
    omega
  cases hbreak : breakPane sv₁ wl.window wp item.sequence with
  | mk sv₂ dstW =>
  rw [hbreak] at h₂ hok₂ hR₂ hwR
  simp only at h₂ hok₂ hR₂ hwR
  have halone := (hok₂.lot R hR₂).alone
  rcases breakLivePane_eq hgot hbreak hok₂.trees hR₂ hready.id halone with
    ⟨cause, heq⟩ | ⟨link, wwl, hadd, heq⟩
  · rw [heq]
    exact h₂
  · rw [heq] at hbroken ⊢
    cases hbroken with
    | ok _ _ hp₃ =>
        exact (linkedServer_apart h₂ hR₂ halone (roomMade_of_add hadd) hwR).linked hp₃.separate

/-! ## Restoring -/

theorem restoreLiveWindow_linked {sv : Server} {item : ClosedItem} {items : List ClosedItem}
    (hp : Parks sv (item :: items)) (h : Linked sv) (target : Option Nat)
    (htype : item.type = .window) : Linked (newmuxRestoreLiveWindow sv target item).1 := by
  have htried := restoreLiveWindow_tried hp target htype
  have hout := restoreLiveWindow_outcome hp.ok.trees target item
  generalize newmuxRestoreLiveWindow sv target item = r at htried hout ⊢
  cases hout with
  | missing cause hfind => exact h
  | noRoom cause dstS recoveryS recoveryWl w hfind hlink => exact h
  | back dstS recoveryS recoveryWl w wl wwl hfind hlink =>
      have hst := hp.stored item List.mem_cons_self
      obtain ⟨hdst, hrecS, hrecWl, hw, hwid⟩ := findLiveWindow_ok hfind
      obtain ⟨R, hR, hRid, hmem⟩ := hp.mem List.mem_cons_self
      have hRS : recoveryS = R := by
        have hfindR := hR.find
        rw [hRid, hrecS] at hfindR
        exact Option.some.inj hfindR
      subst hRS
      obtain ⟨hwlR, hwlw⟩ := findByWindow_some hrecWl
      have hdstf := destination_find hp.ok.trees.unique hdst
      have hne := hR.ne hdstf (hst.destination hp.ok.trees hdst)
      have halone := (hp.ok.lot recoveryS hR).alone
      obtain ⟨last, hroom⟩ := Place.link_spec (hp.ok.trees.tree _ _ hdstf).sorted hlink
      have hout : ∀ j m, j ≠ recoveryS.id → sessionFindById sv j = some m →
          w.id ∉ Session.order m := by
        intro j m hj hm
        refine hp.separate recoveryS hR j m hm hj w.id ?_
        rw [hwid, ← hst.window htype]
        exact hmem
      have hapart := attached_apart h hR halone hdstf hne hroom hout
      -- the recovery session is out of the destination's group
      have hatt : sessionFindById (attached sv dstS wl wwl) recoveryS.id = some recoveryS := by
        have hsync : Shrink (InGroup (linkedServer sv dstS wl wwl) dstS.id) (fun _ => False)
            (linkedServer sv dstS wl wwl) (attached sv dstS wl wwl) :=
          syncFrom_shrink fun _ hj => hj
        rw [Shrink.frame hsync fun hg => hne (alone_inGroup halone hg),
          linkedServer_find hdstf, if_neg hne.symm]
        exact hR.find
      have hrun : Shrink (fun _ => True) (fun _ => True) (attached sv dstS wl wwl)
          (windowBack sv dstS recoveryS recoveryWl w wl wwl) :=
        ((unlinkWindow_shrink recoveryWl fun _ _ => trivial).trans
          (sessionSelect_shrink wl.idx trivial)).trans
          (Shrink.of_kept ((restoreIfShrunk_kept _ _).trans (protectWindow_kept _ _)))
      have halone' : ¬ Grouped (attached sv dstS wl wwl) recoveryS.id := by
        intro hg
        have hsync : Shrink (fun _ => True) (fun _ => True) (linkedServer sv dstS wl wwl)
            (attached sv dstS wl wwl) := syncFrom_shrink fun _ _ => trivial
        exact halone (Shrink.grouped hsync hg)
      have hsessions : SessionsOk (windowBack sv dstS recoveryS recoveryWl w wl wwl) :=
        ((hapart.sessions.unlinkWindow hatt hwlR).select dstS.id wl.idx).kept
          ((restoreIfShrunk_kept _ _).trans (protectWindow_kept _ _))
      cases htried with
      | ok _ hp' => exact (hapart.shrink halone' hrun hsessions).linked hp'.separate

theorem restoreLivePane_linked {sv : Server} (h : Linked sv) (target : Option Nat)
    (item : ClosedItem) : Linked (newmuxRestoreLivePane sv target item).1 := by
  have hout := restoreLivePane_outcome sv target item
  generalize newmuxRestoreLivePane sv target item = r at hout ⊢
  cases hout with
  | missing cause hfind => exact h
  | misfit cause dstS dstWl recoveryW hfind hfit =>
      exact h.kept (movePaneBack_kept sv item dstWl.window recoveryW.id)
  | back dstS dstWl recoveryW hfind hfit =>
      have hlaid := (h.kept (movePaneBack_kept sv item dstWl.window recoveryW.id)).kept
        (laidOut_kept _ dstWl.window item.windowLayout)
      unfold paneBack
      rw [finishPaneRestore_eq]
      have hselected := (hlaid.kept (paneSelected_kept _ item dstWl)).select dstS.id dstWl.idx
      split
      · exact hselected.killWindow recoveryW.id
      · exact hselected

theorem restoreClosedItem_linked {sv : Server} {item : ClosedItem} {items : List ClosedItem}
    (hp : Parks sv (item :: items)) (h : Linked sv) (target : Option Nat) :
    Linked (newmuxRestoreClosedItem sv target item).1 := by
  unfold newmuxRestoreClosedItem
  cases htype : item.type with
  | pane => exact restoreLivePane_linked h target item
  | window => exact restoreLiveWindow_linked hp h target htype
  | session => exact h

end Newmux.Theorems
