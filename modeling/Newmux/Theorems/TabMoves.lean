import Newmux.Theorems.TabBars

/-!
# Every command is a move of the tab bars

The commands, creates and selections refine the tab bars: seen from the bars, each
of them is one move, on the bar of every session of the group at once.
-/

namespace Newmux.Theorems

open Newmux.Base Newmux.Tmux Newmux.Recovery Newmux.Logic

/-! ## The bars of the sessions -/

/-- The recovery session has no bar. -/
theorem bar_recovery {sv : Server} {j : Nat}
    (h : ∀ s, sessionFindById sv j = some s → s.name = newmuxRecoverySession) :
    (barsOf sv).bar j = none := by
  cases hj : (barsOf sv).bar j with
  | none => rfl
  | some l =>
      obtain ⟨s, hs, hname, -⟩ := bar_some.mp hj
      exact absurd (h s hs) hname

theorem bar_map {sv sv' : Server} {j : Nat} {f : List Nat → List Nat}
    (h : tabsOf sv' j = (tabsOf sv j).map fun p => (p.1, f p.2)) :
    (barsOf sv').bar j = ((barsOf sv).bar j).map f := by
  show (tabsOf sv' j).bind _ = ((tabsOf sv j).bind _).map f
  rw [h]
  cases tabsOf sv j with
  | none => rfl
  | some p =>
      rw [Option.map_some, Option.bind_some, Option.bind_some]
      split <;> rfl

theorem bar_congr {sv sv' : Server} {j : Nat} (h : tabsOf sv' j = tabsOf sv j) :
    (barsOf sv').bar j = (barsOf sv).bar j := by
  show (tabsOf sv' j).bind _ = (tabsOf sv j).bind _
  rw [h]

theorem bar_erased {sv sv' : Server} {j w : Nat}
    (h : tabsOf sv' j = (tabsOf sv j).map fun p => (p.1, p.2.erase w)) :
    (barsOf sv').bar j = (barsOf sv).erased w j := by
  rw [bar_map (f := fun l => l.erase w) h]
  unfold Bars.erased
  congr!

theorem bars_kept {sv sv' : Server} (h : SessionsKept sv sv') :
    (barsOf sv').bar = (barsOf sv).bar :=
  funext fun j => bar_congr (tabsOf_kept h j)

theorem bars_select (sv : Server) (s idx : Nat) :
    (barsOf (serverSessionSelect sv s idx)).bar = (barsOf sv).bar :=
  funext fun j => bar_congr (tabsOf_select sv s idx j)

/-- The recovery session does not show. -/
theorem bars_but {sv sv' : Server} {r : Nat}
    (hr : ∀ s, sessionFindById sv r = some s → s.name = newmuxRecoverySession)
    (hr' : ∀ s, sessionFindById sv' r = some s → s.name = newmuxRecoverySession)
    (hrest : ∀ j, j ≠ r → sessionFindById sv' j = sessionFindById sv j) :
    (barsOf sv').bar = (barsOf sv).bar := by
  funext j
  by_cases hj : j = r
  · subst hj
    rw [bar_recovery hr, bar_recovery hr']
  · refine bar_congr ?_
    unfold tabsOf
    rw [hrest j hj]

theorem bars_frame {W : Nat → Prop} {sv sv' : Server} {r : Nat} (hok : TreesOk sv)
    (hr : ∀ s, sessionFindById sv r = some s → s.name = newmuxRecoverySession)
    (hrun : Shrink (· = r) W sv sv') : (barsOf sv').bar = (barsOf sv).bar := by
  refine bars_but hr (fun s hs => ?_) fun j hj => Shrink.frame hrun hj
  obtain ⟨s₀, hs₀, hname⟩ := Shrink.name hrun hok hs
  exact hname.trans (hr s₀ hs₀)

/-- A recovery session that has just been created does not show. -/
theorem bars_get {sv : Server} (hok : TreesOk sv) :
    (barsOf (newmuxRecoverySessionGet sv).1).bar = (barsOf sv).bar ∧
      (newmuxRecoverySessionGet sv).1.nextWindowId = sv.nextWindowId := by
  rcases recoverySessionGet_cases hok with ⟨R, -, heq⟩ | ⟨-, heq⟩ <;> rw [heq]
  · exact ⟨rfl, rfl⟩
  · obtain ⟨R, -, hname, -, -, -, -, hfind⟩ := create_find hok newmuxRecoverySession
    refine ⟨@bars_but sv _ sv.nextSessionId (fun s hs => ?_) (fun s hs => ?_) fun j hj => ?_, rfl⟩
    · have hlt := hok.ids s (Table.find_some_mem hs)
      rw [sessionFindById_id hs] at hlt
      exact absurd hlt (lt_irrefl _)
    · rw [hfind, if_pos rfl] at hs
      exact Option.some.inj hs ▸ hname
    · rw [hfind, if_neg hj]

/-- The lot holds the windows of the parked items. -/
theorem lot_parks {sv : Server} {items : List ClosedItem} (hp : Parks sv items) :
    (barsOf sv).lot = {w | w ∈ items.map ClosedItem.recoveryWindowId} :=
  Set.ext fun _ => hp.order.mem_iff

theorem lot_same {sv sv' : Server} {items : List ClosedItem} (hp : Parks sv items)
    (hp' : Parks sv' items) : (barsOf sv').lot = (barsOf sv).lot := by
  rw [lot_parks hp, lot_parks hp']

theorem lot_more {sv sv' : Server} {item : ClosedItem} {items : List ClosedItem}
    (hp : Parks sv items) (hp' : Parks sv' (item :: items)) :
    (barsOf sv').lot = Insert.insert item.recoveryWindowId (barsOf sv).lot := by
  rw [lot_parks hp, lot_parks hp', List.map_cons]
  exact Set.ext fun w => List.mem_cons

theorem lot_less {sv sv' : Server} {item : ClosedItem} {items : List ClosedItem}
    (hp : Parks sv (item :: items)) (hp' : Parks sv' items) :
    (barsOf sv').lot = (barsOf sv).lot \ {item.recoveryWindowId} := by
  have hnodup := hp.order.nodup_iff.mp hp.nodup
  rw [List.map_cons, List.nodup_cons] at hnodup
  rw [lot_parks hp, lot_parks hp', List.map_cons]
  refine Set.ext fun w => ⟨fun hw => ⟨List.mem_cons_of_mem _ hw, fun he => ?_⟩, fun hw => ?_⟩
  · rw [Set.mem_singleton_iff.mp he] at hw
    exact hnodup.1 hw
  · exact (List.mem_cons.mp hw.1).resolve_left hw.2

/-- A parked window is on no bar. -/
theorem hidden_of_lot {sv : Server} {items : List ClosedItem} (hp : Parks sv items) {w : Nat}
    (hw : w ∈ recoveryOrder sv) : (barsOf sv).Hidden w := by
  intro j l hj hin
  obtain ⟨s, hs, hname, rfl⟩ := bar_some.mp hj
  obtain ⟨R, hR, hwR⟩ := (mem_recoveryOrder hp.ok.trees).mp hw
  obtain rfl := sessionFindById_id hs
  exact hp.separate R hR s.id s hs (hR.ne hs hname) w hwR hin

/-- A window that is not there yet is on no bar and is not parked. -/
theorem fresh_hidden {sv : Server} {items : List ClosedItem} (hp : Parks sv items) {w : Nat}
    (hw : sv.nextWindowId ≤ w) : (barsOf sv).Hidden w ∧ w ∉ (barsOf sv).lot := by
  constructor
  · intro j l hj hin
    obtain ⟨s, hs, -, rfl⟩ := bar_some.mp hj
    have := hp.ok.created j s w hs hin
    omega
  · intro hin
    obtain ⟨R, hR, hwR⟩ := (mem_recoveryOrder hp.ok.trees).mp hin
    have := hp.ok.created _ R w hR.find hwR
    omega

theorem barsOf_ok {sv : Server} {items : List ClosedItem} (hp : Parks sv items) (h : Linked sv) :
    (barsOf sv).Ok := by
  refine ⟨fun j l hj => ?_, fun j l hj => ?_, fun i j l l' w hi hj hw hw' => ?_,
    fun w hw => hidden_of_lot hp hw⟩
  · obtain ⟨s, hs, hname, rfl⟩ := bar_some.mp hj
    intro hnil
    exact h.sessions.linked j s hs hname (List.map_eq_nil_iff.mp hnil)
  · obtain ⟨s, hs, -, rfl⟩ := bar_some.mp hj
    exact h.sessions.once j s hs
  · obtain ⟨s, hs, -, rfl⟩ := bar_some.mp hi
    obtain ⟨t, ht, -, rfl⟩ := bar_some.mp hj
    have hg := h.links.shared i j s t w trivial trivial hs ht hw hw'
    rw [order_indexMap s, (h.sessions.maps i j s t hg hs ht).1, ← order_indexMap]

/-- A session is in the group of another exactly when it shows the same tabs. -/
theorem inGroup_iff_order {sv : Server} (h : Linked sv) {i j : Nat} {s t : Session}
    (hs : sessionFindById sv i = some s) (hname : s.name ≠ newmuxRecoverySession)
    (ht : sessionFindById sv j = some t) :
    InGroup sv i j ↔ Session.order t = Session.order s := by
  constructor
  · intro hg
    rw [order_indexMap t, ← (h.sessions.maps i j s t hg hs ht).1, ← order_indexMap]
  · intro heq
    obtain ⟨x, hx⟩ := List.exists_mem_of_ne_nil _ (h.sessions.linked i s hs hname)
    have hw : x.window ∈ Session.order s := List.mem_map_of_mem hx
    exact h.links.shared i j s t x.window trivial trivial hs ht hw (heq ▸ hw)

/-! ## Killing -/

theorem lastTab_order {s : Session} {w : Nat} (honce : (Session.order s).Nodup)
    (hptrs : (s.windows.map Winlink.ptr).Nodup) {wl : Winlink} (hwl : wl ∈ s.windows)
    (hw : wl.window = w) (hlast : lastTab s wl = false) : Session.order s ≠ [w] := by
  obtain ⟨x, hx, hne⟩ := lastTab_false hptrs hlast
  intro heq
  have hxw : x.window ∈ Session.order s := List.mem_map_of_mem hx
  rw [heq, List.mem_singleton, ← hw] at hxw
  exact hne (congrArg Winlink.ptr (window_inj honce hx hwl hxw))

/-- A tab that is not the last of its session is the only one of no session. -/
theorem not_alone {sv : Server} (h : Linked sv) {s : Session}
    (hs : sessionFindById sv s.id = some s) {wl : Winlink} (hwl : wl ∈ s.windows)
    (hlast : lastTab s wl = false) (j : Nat) (t : Session)
    (ht : sessionFindById sv j = some t) : Session.order t ≠ [wl.window] := by
  have hself := lastTab_order (h.sessions.once _ s hs) (h.sessions.trees.tree _ s hs).ptrs hwl rfl
    hlast
  have hw : wl.window ∈ Session.order s := List.mem_map_of_mem hwl
  intro heq
  have hwt : wl.window ∈ Session.order t := heq ▸ List.mem_singleton_self _
  have hg := h.links.shared s.id j s t _ trivial trivial hs ht hw hwt
  refine hself ?_
  rw [order_indexMap s, (h.sessions.maps s.id j s t hg hs ht).1, ← order_indexMap, heq]

theorem kill_move {sv : Server} {items : List ClosedItem} (hp : Parks sv items) (h : Linked sv)
    {s : Session} (hs : sessionFindById sv s.id = some s) (hname : s.name ≠ newmuxRecoverySession)
    {wl : Winlink} (hwl : wl ∈ s.windows) (hlast : lastTab s wl = false) :
    (BarMove.kill wl.window).Step (barsOf sv) (barsOf (serverKillWindow sv wl.window true)) := by
  have hw : wl.window ∈ Session.order s := List.mem_map_of_mem hwl
  have halone := not_alone h hs hwl hlast
  refine ⟨⟨s.id, _, bar_some.mpr ⟨s, hs, hname, rfl⟩, hw⟩, fun j hj => ?_, funext fun j => ?_,
    lot_same hp (hp.kill hs hname hw)⟩
  · obtain ⟨t, ht, -, heq⟩ := bar_some.mp hj
    exact halone j t ht heq
  · exact bar_erased (tabsOf_killed h halone true j)

/-! ## A tab comes in -/

/-- A tab that comes into a session comes into the bars of its group. -/
theorem bars_attached {sv sv₁ : Server} {items : List ClosedItem} (hp : Parks sv items)
    (h : Linked sv) {s : Session} (hs : sessionFindById sv s.id = some s)
    (hname : s.name ≠ newmuxRecoverySession) {w last : Nat} {wl : Winlink} {wwl : Winlinks}
    (hroom : RoomMade s.windows sv.nextPtr w wl wwl last)
    (hkept : SessionsKept (linkedServer sv s wl wwl) sv₁) :
    ∃ A B, Session.order s = A ++ B ∧ A.length = below s.windows wl.idx ∧
      (barsOf (sessionGroupSynchronizeFrom sv₁ s.id)).bar = (barsOf sv).inserted A w B := by
  classical
  obtain ⟨A, B, hsplit, hlength, htabs⟩ := tabsOf_attached h hs hroom hkept
  refine ⟨A, B, hsplit, hlength, funext fun j => ?_⟩
  unfold Bars.inserted
  cases ht : sessionFindById sv j with
  | none =>
      have hnone : tabsOf sv j = none := by rw [tabsOf, ht, Option.map_none]
      have hbar : (barsOf sv).bar j = none := bar_recovery fun t h' => by simp [ht] at h'
      rw [hbar, if_neg (by simp)]
      have hgone := htabs j
      rw [hnone, Option.map_none, ite_self] at hgone
      show (tabsOf _ j).bind _ = none
      rw [hgone, Option.bind_none]
  | some t =>
      obtain rfl := sessionFindById_id ht
      by_cases htname : t.name = newmuxRecoverySession
      · -- the recovery session is in no group
        have hR : IsRecovery sv t := ⟨ht, htname⟩
        have hout : ¬ InGroup sv s.id t.id := fun hg =>
          hR.ne hs hname (alone_inGroup (hp.ok.lot t hR).alone hg)
        have hsame := htabs t.id
        rw [if_neg hout] at hsame
        have hbar : (barsOf sv).bar t.id = none := bar_recovery fun t' h' => by
          rw [ht] at h'
          exact Option.some.inj h' ▸ htname
        rw [bar_congr hsame, hbar, if_neg (by simp)]
      · have hbar : (barsOf sv).bar t.id = some (Session.order t) :=
          bar_some.mpr ⟨t, ht, htname, rfl⟩
        have hiff := inGroup_iff_order h hs hname ht
        rw [hsplit] at hiff
        have hmove := htabs t.id
        by_cases hg : InGroup sv s.id t.id
        · rw [if_pos hg] at hmove
          rw [bar_map (f := fun _ => A ++ w :: B) hmove, hbar, hiff.mp hg, if_pos rfl,
            Option.map_some]
        · rw [if_neg hg] at hmove
          rw [bar_congr hmove, hbar, if_neg fun he => hg (hiff.mpr (Option.some.inj he))]

theorem insert_move {sv sv₁ sv' : Server} {items : List ClosedItem} (hp : Parks sv items)
    (h : Linked sv) {s : Session} (hs : sessionFindById sv s.id = some s)
    (hname : s.name ≠ newmuxRecoverySession) {w last : Nat} {wl : Winlink} {wwl : Winlinks}
    (hroom : RoomMade s.windows sv.nextPtr w wl wwl last)
    (hkept : SessionsKept (linkedServer sv s wl wwl) sv₁) (hhidden : (barsOf sv).Hidden w)
    (hbar : (barsOf sv').bar = (barsOf (sessionGroupSynchronizeFrom sv₁ s.id)).bar)
    (hlot : (barsOf sv').lot = (barsOf sv).lot \ {w}) :
    ∃ A B, Session.order s = A ++ B ∧ A.length = below s.windows wl.idx ∧
      (BarMove.insert w A B).Step (barsOf sv) (barsOf sv') := by
  obtain ⟨A, B, hsplit, hlength, hattached⟩ := bars_attached hp h hs hname hroom hkept
  exact ⟨A, B, hsplit, hlength, ⟨s.id, bar_some.mpr ⟨s, hs, hname, hsplit⟩⟩, hhidden,
    hbar.trans hattached, hlot⟩

theorem create_move {sv sv' : Server} {items : List ClosedItem} (hp : Parks sv items)
    (h : Linked sv) {s : Session} (hs : sessionFindById sv s.id = some s)
    (hname : s.name ≠ newmuxRecoverySession) {spawn : Spawn} (he : CreateEffect sv s spawn sv') :
    ∃ m : BarMove Nat, m.Step (barsOf sv) (barsOf sv') := by
  have hlot := lot_same hp (he.parks hp hs hname)
  have hcounted : ∀ {sv sv' : Server}, Counted sv sv' → (barsOf sv').bar = (barsOf sv).bar := by
    intro sv sv' hc
    refine funext fun j => bar_congr ?_
    unfold tabsOf
    rw [hc.find]
  cases he with
  | opened ho =>
      obtain ⟨wl, wwl, last, sv₁, hroom, hkept, -, rfl⟩ := ho
      have hp₀ : Parks (idTaken sv) items :=
        hp.kept (idTaken_kept sv) (.of_eq fun w _ => panesKept_of_windows rfl w)
      obtain ⟨hhidden, hout⟩ := fresh_hidden hp (le_refl sv.nextWindowId)
      obtain ⟨A, B, -, -, hstep⟩ := @insert_move (idTaken sv) sv₁ _ items hp₀
        (h.kept (idTaken_kept sv)) s hs hname sv.nextWindowId last wl wwl hroom hkept hhidden rfl
        (hlot.trans (Set.sdiff_singleton_eq_self hout).symm)
      exact ⟨.insert sv.nextWindowId A B, hstep⟩
  | counted hc => exact ⟨.rest, hcounted hc, hlot⟩
  | shuffled cause wl before idx mid hspawn hshuffle hc =>
      have horder : Session.order { s with windows := mid } = Session.order s :=
        order_shuffle (h.sessions.trees.tree _ s hs).sorted hshuffle
      exact ⟨.rest, (hcounted hc).trans (funext fun j => bar_congr
        (@tabsOf_set sv s { s with windows := mid } hs rfl rfl horder j)), hlot⟩

theorem restoreLiveWindow_back {sv : Server} (hok : TreesOk sv) {target : Option Nat}
    {item : ClosedItem} {dstS recoveryS : Session} {recoveryWl : Winlink} {w : Window}
    {wl : Winlink} {wwl : Winlinks}
    (hfind : findLiveWindow sv target item = .ok (dstS, recoveryS, recoveryWl, w))
    (hlink : (savedPlace sv dstS item).link dstS.windows sv.nextPtr w.id = some (wl, wwl)) :
    newmuxRestoreLiveWindow sv target item =
      (windowBack sv dstS recoveryS recoveryWl w wl wwl, .ok ()) := by
  have hout := restoreLiveWindow_outcome hok target item
  generalize newmuxRestoreLiveWindow sv target item = r at hout ⊢
  cases hout with
  | missing cause h =>
      rw [hfind] at h
      cases h
  | noRoom cause _ _ _ _ h hl =>
      rw [hfind] at h
      cases h
      rw [hlink] at hl
      cases hl
  | back _ _ _ _ _ _ h hl =>
      rw [hfind] at h
      cases h
      rw [hlink] at hl
      cases hl
      rfl

/-- **A window that comes back** comes out of the lot, into the bars of the group of
its destination. -/
theorem windowBack_moves {sv : Server} {item : ClosedItem} {items : List ClosedItem}
    (hp : Parks sv (item :: items)) (h : Linked sv) {target : Option Nat}
    (htype : item.type = .window) {dstS recoveryS : Session} {recoveryWl : Winlink} {w : Window}
    {wl : Winlink} {wwl : Winlinks}
    (hfind : findLiveWindow sv target item = .ok (dstS, recoveryS, recoveryWl, w))
    (hlink : (savedPlace sv dstS item).link dstS.windows sv.nextPtr w.id = some (wl, wwl)) :
    ∃ A B, Session.order dstS = A ++ B ∧ A.length = below dstS.windows wl.idx ∧
      (BarMove.insert w.id A B).Step (barsOf sv)
        (barsOf (windowBack sv dstS recoveryS recoveryWl w wl wwl)) := by
  have hst := hp.stored item List.mem_cons_self
  obtain ⟨hdst, hrecS, hrecWl, hw, hwid⟩ := findLiveWindow_ok hfind
  obtain ⟨R, hR, hRid, hmem⟩ := hp.mem List.mem_cons_self
  have hRS : recoveryS = R := by
    have hfindR := hR.find
    rw [hRid, hrecS] at hfindR
    exact Option.some.inj hfindR
  subst hRS
  have hdstf := destination_find hp.ok.trees.unique hdst
  have hname := hst.destination hp.ok.trees hdst
  have hne := hR.ne hdstf hname
  have halone := (hp.ok.lot recoveryS hR).alone
  obtain ⟨last, hroom⟩ := Place.link_spec (hp.ok.trees.tree _ _ hdstf).sorted hlink
  have hrec : w.id = item.recoveryWindowId := hwid.trans (hst.window htype).symm
  -- what follows the attach shows in no bar
  have hrun : Shrink (fun _ => True) (fun _ => True) (linkedServer sv dstS wl wwl)
      (attached sv dstS wl wwl) := syncFrom_shrink fun _ _ => trivial
  have htrees : TreesOk (attached sv dstS wl wwl) := by
    obtain ⟨hid, hlname, -, hlw⟩ := linkedSession_fields dstS wl wwl
    exact Shrink.treesOk hrun (relinked_treesOk hp.ok.trees hdstf hid hlname (hlw.symm ▸ hroom))
  have hatt : sessionFindById (attached sv dstS wl wwl) recoveryS.id = some recoveryS := by
    have hsync : Shrink (InGroup (linkedServer sv dstS wl wwl) dstS.id) (fun _ => False)
        (linkedServer sv dstS wl wwl) (attached sv dstS wl wwl) :=
      syncFrom_shrink fun _ hj => hj
    rw [Shrink.frame hsync fun hg => hne (alone_inGroup halone hg),
      linkedServer_find hdstf, if_neg hne.symm]
    exact hR.find
  have hunlink : Shrink (· = recoveryS.id) (fun _ => True) (attached sv dstS wl wwl)
      (serverUnlinkWindow (attached sv dstS wl wwl) recoveryS.id recoveryWl) := by
    refine unlinkWindow_shrink recoveryWl fun j hg => ?_
    have hg' : InGroup (linkedServer sv dstS wl wwl) recoveryS.id j := Shrink.inGroup hrun hg
    exact alone_inGroup halone hg'.symm
  have hbars : (barsOf (windowBack sv dstS recoveryS recoveryWl w wl wwl)).bar =
      (barsOf (attached sv dstS wl wwl)).bar := by
    unfold windowBack
    rw [bars_kept ((restoreIfShrunk_kept _ _).trans (protectWindow_kept _ _)), bars_select]
    refine bars_frame htrees (fun s hs => ?_) hunlink
    rw [hatt] at hs
    exact Option.some.inj hs ▸ hR.name
  have hin : w.id ∈ recoveryOrder sv := by
    rw [hrec]
    exact (mem_recoveryOrder hp.ok.trees).mpr ⟨recoveryS, hR, hmem⟩
  have htried := restoreLiveWindow_tried hp target htype
  rw [restoreLiveWindow_back hp.ok.trees hfind hlink] at htried
  refine insert_move hp h hdstf hname hroom (.refl _) (hidden_of_lot hp hin) hbars ?_
  rw [hrec]
  cases htried with
  | ok _ hp' => exact lot_less hp hp'

theorem restoreLiveWindow_move {sv : Server} {item : ClosedItem} {items : List ClosedItem}
    (hp : Parks sv (item :: items)) (h : Linked sv) (target : Option Nat)
    (htype : item.type = .window) :
    ∃ m : BarMove Nat, m.Step (barsOf sv) (barsOf (newmuxRestoreLiveWindow sv target item).1) := by
  have hout := restoreLiveWindow_outcome hp.ok.trees target item
  generalize newmuxRestoreLiveWindow sv target item = r at hout ⊢
  cases hout with
  | missing cause hfind => exact ⟨.rest, rfl, rfl⟩
  | noRoom cause dstS recoveryS recoveryWl w hfind hlink => exact ⟨.rest, rfl, rfl⟩
  | back dstS recoveryS recoveryWl w wl wwl hfind hlink =>
      obtain ⟨A, B, -, -, hstep⟩ := windowBack_moves hp h htype hfind hlink
      exact ⟨.insert w.id A B, hstep⟩

/-- Only the recovery session links a parked window. -/
theorem lot_linksGroup {sv : Server} {items : List ClosedItem} (hp : Parks sv items) {R : Session}
    (hR : IsRecovery sv R) {w : Nat} (hw : w ∈ Session.order R) {j : Nat}
    (hl : LinksGroup sv w j) : j = R.id := by
  obtain ⟨i, s, hs, hws, hg⟩ := hl
  have hi : i = R.id := by
    by_contra hi
    exact hp.separate R hR i s hs hi w hw hws
  subst hi
  exact alone_inGroup (hp.ok.lot R hR).alone hg.symm

theorem restoreLivePane_back {sv : Server} {target : Option Nat} {item : ClosedItem}
    {dstS : Session} {dstWl : Winlink} {recoveryW : Window}
    (hfind : findLivePane sv target item = .ok (dstS, dstWl, recoveryW))
    (hfit : layoutFits sv item dstWl.window = true) :
    newmuxRestoreLivePane sv target item = (paneBack sv item dstS dstWl recoveryW, .ok ()) := by
  have hout := restoreLivePane_outcome sv target item
  generalize newmuxRestoreLivePane sv target item = r at hout ⊢
  cases hout with
  | missing cause h =>
      rw [hfind] at h
      cases h
  | misfit cause _ _ _ h hf =>
      rw [hfind] at h
      cases h
      rw [hfit] at hf
      cases hf
  | back _ _ _ h hf =>
      rw [hfind] at h
      cases h
      rfl

/-- **A pane that comes back** comes out of the lot. -/
theorem paneBack_moves {sv : Server} {item : ClosedItem} {items : List ClosedItem}
    (hp : Parks sv (item :: items)) {target : Option Nat} (htype : item.type = .pane)
    {dstS : Session} {dstWl : Winlink} {recoveryW : Window}
    (hfind : findLivePane sv target item = .ok (dstS, dstWl, recoveryW))
    (hfit : layoutFits sv item dstWl.window = true) :
    (BarMove.take item.recoveryWindowId).Step (barsOf sv)
      (barsOf (paneBack sv item dstS dstWl recoveryW)) := by
  obtain ⟨R, hR, hRid, hmem⟩ := hp.mem List.mem_cons_self
  obtain ⟨-, -, -, -, hrecW, -, -⟩ := findLivePane_ok hfind
  have hrid : recoveryW.id = item.recoveryWindowId := windowFindById_id hrecW
  have hin : item.recoveryWindowId ∈ (barsOf sv).lot :=
    (mem_recoveryOrder hp.ok.trees).mpr ⟨R, hR, hmem⟩
  have hkept : SessionsKept sv (newmuxProtectPaneHistoryOnNextClear (newmuxSelectPaneIndex
      (laidOut (movePaneBack sv item dstWl.window recoveryW.id) dstWl.window
        item.windowLayout) dstWl.window item.activePaneIndex) item.paneId) :=
    ((movePaneBack_kept sv item dstWl.window recoveryW.id).trans (laidOut_kept _ _ _)).trans
      (paneSelected_kept _ item dstWl)
  rw [hrid] at hkept
  have hbars : (barsOf (paneBack sv item dstS dstWl recoveryW)).bar = (barsOf sv).bar := by
    unfold paneBack
    rw [finishPaneRestore_eq, hrid]
    have hselected := (bars_select _ dstS.id dstWl.idx).trans (bars_kept hkept)
    split
    · have hrun : Shrink (fun _ => True) (fun _ => True) sv (paneSelected _ item dstS.id dstWl) :=
        (Shrink.of_kept hkept).trans (sessionSelect_shrink dstWl.idx trivial)
      have htrees := Shrink.treesOk hrun hp.ok.trees
      have hkill := (killWindow_shrink htrees item.recoveryWindowId true).mono fun j hj =>
        lot_linksGroup hp hR hmem (Shrink.linksGroup hrun hp.ok.trees hj)
      refine (bars_frame htrees (fun s hs => ?_) hkill).trans hselected
      obtain ⟨s₀, hs₀, hsname⟩ := Shrink.name hrun hp.ok.trees hs
      rw [hR.find] at hs₀
      obtain rfl := Option.some.inj hs₀
      exact hsname.trans hR.name
    · exact hselected
  have htried := restoreLivePane_tried hp target htype
  rw [restoreLivePane_back hfind hfit] at htried
  cases htried with
  | ok _ hp' => exact ⟨hin, hbars, lot_less hp hp'⟩

theorem restoreLivePane_move {sv : Server} {item : ClosedItem} {items : List ClosedItem}
    (hp : Parks sv (item :: items)) (target : Option Nat) (htype : item.type = .pane) :
    ∃ m : BarMove Nat, m.Step (barsOf sv) (barsOf (newmuxRestoreLivePane sv target item).1) := by
  have htried := restoreLivePane_tried hp target htype
  have hout := restoreLivePane_outcome sv target item
  generalize newmuxRestoreLivePane sv target item = r at htried hout ⊢
  cases hout with
  | missing cause hfind => exact ⟨.rest, rfl, rfl⟩
  | misfit cause dstS dstWl recoveryW hfind hfit =>
      cases htried with
      | error _ _ hp' =>
          exact ⟨.rest, bars_kept (movePaneBack_kept sv item dstWl.window recoveryW.id),
            lot_same hp hp'⟩
  | back dstS dstWl recoveryW hfind hfit =>
      exact ⟨.take item.recoveryWindowId, paneBack_moves hp htype hfind hfit⟩

theorem restoreClosedItem_move {sv : Server} {item : ClosedItem} {items : List ClosedItem}
    (hp : Parks sv (item :: items)) (h : Linked sv) (target : Option Nat) :
    ∃ m : BarMove Nat, m.Step (barsOf sv) (barsOf (newmuxRestoreClosedItem sv target item).1) := by
  unfold newmuxRestoreClosedItem
  cases htype : item.type with
  | pane => exact restoreLivePane_move hp target htype
  | window => exact restoreLiveWindow_move hp h target htype
  | session => exact absurd htype (hp.stored item List.mem_cons_self).kind

/-! ## A tab goes out -/

/-- **A closed tab** goes out of the bars of its group, into the lot. -/
theorem breakLiveWindow_moves {sv : Server} {items : List ClosedItem} (hp : Parks sv items)
    (h : Linked sv) {s : Session} (hs : sessionFindById sv s.id = some s)
    (hname : s.name ≠ newmuxRecoverySession) {wl : Winlink} (hwl : wl ∈ s.windows)
    (hlast : lastTab s wl = false) {win : Window}
    (hwin : windowFindById sv wl.window = some win) {item : ClosedItem}
    (htype : item.type = .window) (hwindow : item.windowId = wl.window)
    (hsession : item.sessionId = s.id) :
    (∀ sv' cause, newmuxBreakLiveWindow sv item s.id wl = (sv', .error cause) →
        BarMove.rest.Step (barsOf sv) (barsOf sv')) ∧
      ∀ sv' item', newmuxBreakLiveWindow sv item s.id wl = (sv', .ok item') →
        (BarMove.close wl.window).Step (barsOf sv) (barsOf sv') := by
  have hbroken := breakLiveWindow_broken hp hs hname hwl hlast (h.ownWindow wl.window) hwin htype
    hwindow hsession
  obtain ⟨sv₂, R, hready, hout⟩ := breakLiveWindow_outcome hp h hs hname hlast item
  have hR := hready.recovery
  have hrecovery : ∀ t, sessionFindById sv₂ R.id = some t → t.name = newmuxRecoverySession := by
    intro t ht
    rw [hR.find] at ht
    exact Option.some.inj ht ▸ hR.name
  have hbars₂ : (barsOf sv₂).bar = (barsOf sv).bar :=
    bars_but (fun t ht => hrecovery t (hready.find _ t ht)) hrecovery fun j hj =>
      Option.ext fun t => ⟨hready.back j t hj, hready.find j t⟩
  -- a break that fails moves nothing
  rcases hout with ⟨cause, heq⟩ | ⟨link, wwl, hroom, heq⟩
  · rw [heq] at hbroken ⊢
    refine ⟨fun sv' cause h => ?_, fun sv' item' h => (by cases h)⟩
    cases h
    cases hbroken with
    | error _ _ hp' => exact ⟨hbars₂, lot_same hp hp'⟩
  · rw [heq] at hbroken ⊢
    have hs₂ := hready.find _ _ hs
    have hne := hR.ne hs₂ hname
    have halone := (hready.parks.ok.lot R hR).alone
    have hwR : wl.window ∉ Session.order R := fun hw =>
      hready.parks.separate R hR s.id s hs₂ hne _ hw (List.mem_map_of_mem hwl)
    have hapart := linkedServer_apart hready.linked hR halone hroom hwR
    have hfind := linkedServer_find hR.find link wwl
    have hlinked : sessionFindById (linkedServer sv₂ R link wwl) s.id = some s := by
      rw [hfind, if_neg hne]
      exact hs₂
    have hnot := not_alone h hs hwl hlast
    have hremove : winlinkRemove s.windows wl.ptr ≠ [] := by
      obtain ⟨x, hx, hxne⟩ := lastTab_false (h.sessions.trees.tree _ s hs).ptrs hlast
      exact List.ne_nil_of_mem (mem_winlinkRemove.mpr ⟨hx, hxne⟩)
    have hw : wl.window ∈ Session.order s := List.mem_map_of_mem hwl
    have hbars : (barsOf (newmuxSessionDetachSilent (linkedServer sv₂ R link wwl) s.id wl).1).bar =
        (barsOf sv).erased wl.window := by
      have hbarsL : (barsOf (linkedServer sv₂ R link wwl)).bar = (barsOf sv).bar :=
        (bars_but hrecovery hapart.lot fun j hj => by rw [hfind, if_neg hj]).trans hbars₂
      have herased : (barsOf sv).erased wl.window =
          (barsOf (linkedServer sv₂ R link wwl)).erased wl.window := by
        unfold Bars.erased
        rw [hbarsL]
      rw [herased]
      funext j
      -- the recovery session has no bar, before or after
      by_cases hj : j = R.id
      · subst hj
        have hrun : Shrink (fun _ => True) (fun _ => True) (linkedServer sv₂ R link wwl)
            (newmuxSessionDetachSilent (linkedServer sv₂ R link wwl) s.id wl).1 :=
          detachSilent_shrink wl fun _ _ => trivial
        unfold Bars.erased
        rw [bar_recovery hapart.lot, Option.map_none]
        refine bar_recovery fun t ht => ?_
        obtain ⟨t₀, ht₀, htname⟩ := Shrink.name hrun hapart.sessions.trees ht
        exact htname.trans (hapart.lot t₀ ht₀)
      · obtain ⟨hid, hsname, hopt, hw'⟩ := detachSilentReady_fields s wl
        refine bar_erased ?_
        unfold newmuxSessionDetachSilent
        simp only [hlinked]
        exact tabsOf_unlinked hapart.sessions hlinked hid hsname hopt hw' hwl hremove
          fun m hm hwm => hapart.links.shared s.id j s m _ hne hj hlinked hm hw hwm
    refine ⟨fun sv' cause h => (by cases h), fun sv' item' h => ?_⟩
    cases h
    cases hbroken with
    | ok _ _ hp' =>
        refine ⟨⟨s.id, _, bar_some.mpr ⟨s, hs, hname, rfl⟩, hw⟩, fun j hj => ?_,
          hbars, lot_more hp hp'⟩
        obtain ⟨t, ht, -, horder⟩ := bar_some.mp hj
        exact hnot j t ht horder

theorem breakLiveWindow_move {sv : Server} {items : List ClosedItem} (hp : Parks sv items)
    (h : Linked sv) {s : Session} (hs : sessionFindById sv s.id = some s)
    (hname : s.name ≠ newmuxRecoverySession) {wl : Winlink} (hwl : wl ∈ s.windows)
    (hlast : lastTab s wl = false) {win : Window}
    (hwin : windowFindById sv wl.window = some win) {item : ClosedItem}
    (htype : item.type = .window) (hwindow : item.windowId = wl.window)
    (hsession : item.sessionId = s.id) :
    ∃ m : BarMove Nat, m.Step (barsOf sv) (barsOf (newmuxBreakLiveWindow sv item s.id wl).1) := by
  obtain ⟨hfailed, hclosed⟩ := breakLiveWindow_moves hp h hs hname hwl hlast hwin htype hwindow
    hsession
  generalize newmuxBreakLiveWindow sv item s.id wl = r at hfailed hclosed ⊢
  obtain ⟨sv', cause | item'⟩ := r
  · exact ⟨.rest, hfailed sv' cause rfl⟩
  · exact ⟨.close wl.window, hclosed sv' item' rfl⟩

/-- A closed pane goes into the lot, in a window that was not there before. -/
theorem breakLivePane_moves {sv : Server} {items : List ClosedItem} (hp : Parks sv items)
    {s : Session} (hs : sessionFindById sv s.id = some s)
    (hname : s.name ≠ newmuxRecoverySession) (wl : Winlink) (wp : Nat) {item : ClosedItem}
    (htype : item.type = .pane) (hpane : item.paneId = wp) (hsession : item.sessionId = s.id) :
    (∀ sv' cause, newmuxBreakLivePane sv item wl wp = (sv', .error cause) →
        BarMove.rest.Step (barsOf sv) (barsOf sv')) ∧
      ∀ sv' item', newmuxBreakLivePane sv item wl wp = (sv', .ok item') →
        (BarMove.park item'.recoveryWindowId).Step (barsOf sv) (barsOf sv') := by
  have hbroken := breakLivePane_broken hp hs hname wl wp htype hpane hsession
  obtain ⟨hp₁, R, hready⟩ := hp.get
  obtain ⟨hbars₁, hnext⟩ := bars_get hp.ok.trees
  cases hgot : newmuxRecoverySessionGet sv with
  | mk sv₁ r =>
  rw [hgot] at hp₁ hready hbars₁ hnext
  simp only at hp₁ hready hbars₁ hnext
  have hkept := breakPane_kept sv₁ wl.window wp item.sequence
  have hge := (breakPane_panes sv₁ wl.window wp item.sequence).1
  obtain ⟨hok₂, hiff⟩ := hp₁.ok.kept hkept
  have hR₂ := (hiff R).mpr hready.recovery
  have hbars₂ := (bars_kept hkept).trans hbars₁
  cases hbreak : breakPane sv₁ wl.window wp item.sequence with
  | mk sv₂ dstW =>
  rw [hbreak] at hge hok₂ hR₂ hbars₂
  simp only at hge hok₂ hR₂ hbars₂
  have hrecovery : ∀ t, sessionFindById sv₂ R.id = some t → t.name = newmuxRecoverySession := by
    intro t ht
    rw [hR₂.find] at ht
    exact Option.some.inj ht ▸ hR₂.name
  have halone := (hok₂.lot R hR₂).alone
  rcases breakLivePane_eq hgot hbreak hok₂.trees hR₂ hready.id halone with
    ⟨cause, heq⟩ | ⟨link, wwl, hadd, heq⟩
  · rw [heq] at hbroken ⊢
    refine ⟨fun sv' cause h => ?_, fun sv' item' h => (by cases h)⟩
    cases h
    cases hbroken with
    | error _ _ hp' => exact ⟨hbars₂, lot_same hp hp'⟩
  · rw [heq] at hbroken ⊢
    have hfind := linkedServer_find hR₂.find link wwl
    have hbars₃ : (barsOf (linkedServer sv₂ R link wwl)).bar = (barsOf sv).bar := by
      refine (bars_but hrecovery (fun t ht => ?_) fun j hj => ?_).trans hbars₂
      · rw [hfind, if_pos rfl] at ht
        rw [← Option.some.inj ht]
        exact (linkedSession_fields R link wwl).2.1.trans hR₂.name
      · rw [hfind, if_neg hj]
    obtain ⟨hhidden, hout⟩ := fresh_hidden hp (hnext ▸ hge)
    refine ⟨fun sv' cause h => (by cases h), fun sv' item' h => ?_⟩
    cases h
    cases hbroken with
    | ok _ _ hp' => exact ⟨hhidden, hout, hbars₃, lot_more hp hp'⟩

theorem breakLivePane_move {sv : Server} {items : List ClosedItem} (hp : Parks sv items)
    {s : Session} (hs : sessionFindById sv s.id = some s)
    (hname : s.name ≠ newmuxRecoverySession) (wl : Winlink) (wp : Nat) {item : ClosedItem}
    (htype : item.type = .pane) (hpane : item.paneId = wp) (hsession : item.sessionId = s.id) :
    ∃ m : BarMove Nat, m.Step (barsOf sv) (barsOf (newmuxBreakLivePane sv item wl wp).1) := by
  obtain ⟨hfailed, hparked⟩ := breakLivePane_moves hp hs hname wl wp htype hpane hsession
  generalize newmuxBreakLivePane sv item wl wp = r at hfailed hparked ⊢
  obtain ⟨sv', cause | item'⟩ := r
  · exact ⟨.rest, hfailed sv' cause rfl⟩
  · exact ⟨.park item'.recoveryWindowId, hparked sv' item' rfl⟩

/-! ## Every step -/

theorem Taken.restore_move {σ σ₁ : State} {item : ClosedItem} (h : Taken σ₁ item)
    (hserver : σ₁.server = σ.server) (target : Option Nat) (print : Bool) :
    ∃ m : BarMove Nat, m.Step (barsOf σ.server)
      (barsOf (Newmux.Recovery.restoreOrPushBack σ₁ target item print).1.server) := by
  obtain ⟨gone, hp⟩ := h.parks
  rw [restoreOrPushBack_server, ← hserver]
  exact restoreClosedItem_move hp h.linked target

/-- Clearing empties the lot. -/
theorem RunInv.clear_move {σ : State} (h : RunInv σ) :
    BarMove.clear.Step (barsOf σ.server) (barsOf (newmuxRecoveryClear σ).server) := by
  obtain ⟨gone, hp⟩ := h.parks
  have hall : ParkInv { σ with
      closedStack := [], closedCount := 0, reservedStack := heldItems σ ++ gone } :=
    ⟨⟨rfl, Nat.zero_le _⟩, hp⟩
  have hheld : ∀ σ : State,
      (newmuxRecoveryClear σ).closedStack ++ (newmuxRecoveryClear σ).reservedStack = [] := by
    intro σ
    unfold newmuxRecoveryClear
    split <;> rfl
  have hcleared := hall.clear.parks
  rw [hheld] at hcleared
  have hparks : Parks (newmuxRecoveryClear σ).server [] := hcleared
  refine ⟨?_, by rw [lot_parks hparks]; exact Set.ext fun w => by simp⟩
  unfold newmuxRecoveryClear newmuxStackClear
  simp only
  cases hf : sessionFind σ.server newmuxRecoverySession with
  | none => rfl
  | some R =>
      obtain ⟨hR, hname⟩ := (sessionFind_some hp.ok.trees).mp hf
      have hrecovery : ∀ t, sessionFindById σ.server R.id = some t →
          t.name = newmuxRecoverySession := by
        intro t ht
        rw [hR] at ht
        exact Option.some.inj ht ▸ hname
      show (barsOf (sessionDestroy σ.server R.id)).bar = _
      have hrun : Shrink (· = R.id) (fun _ => True) σ.server (sessionDestroy σ.server R.id) :=
        sessionDestroy_shrink rfl
      exact bars_frame hp.ok.trees hrecovery hrun

theorem RunInv.exec_move {σ : State} (h : RunInv σ) {l : Event} (hv : l.Valid σ.server) :
    ∃ m : BarMove Nat,
      m.Step (barsOf σ.server) (barsOf (Newmux.Recovery.exec σ l).server) := by
  obtain ⟨gone, hp⟩ := h.parks
  have hout := exec_outcome hp.ok.trees.unique hv
  generalize Newmux.Recovery.exec σ l = σ' at hout ⊢
  cases hout with
  | idle => exact ⟨.rest, rfl, rfl⟩
  | kill _ s wl w hdel hlast =>
      exact ⟨.kill wl.window, kill_move hp h.linked hdel.session hdel.name hdel.linked hlast⟩
  | parkWindow _ s wl w hdel hlast hparks hwindow =>
      rw [parked_server]
      exact breakLiveWindow_move hp h.linked hdel.session hdel.name hdel.linked hlast hdel.window
        rfl (windowFindById_id hdel.window) rfl
  | parkPane _ s wl w wp hdel hwp hcount hparks =>
      rw [parked_server]
      exact breakLivePane_move hp hdel.session hdel.name wl wp rfl rfl rfl
  | reserve print item σ₁ hpop =>
      rw [show (newmuxReservedPush σ₁ item).server = σ₁.server from rfl, pop_server hpop]
      exact ⟨.rest, rfl, rfl⟩
  | reopen target print item σ₁ hpop =>
      exact (h.pop hpop).restore_move (pop_server hpop) target print
  | claim value target print item n σ₁ hitem hpop =>
      exact (h.reservedPop hpop).restore_move (reservedPop_server hpop) target print
  | release value print item n σ₁ hitem hpop =>
      rw [show (newmuxStackPush σ₁ item).server = σ₁.server from rfl, reservedPop_server hpop]
      exact ⟨.rest, rfl, rfl⟩
  | clear => exact ⟨.clear, h.clear_move⟩
  | output wp content =>
      have hkept := paneOutput_kept σ.server wp content
      exact ⟨.rest, bars_kept hkept,
        lot_same hp (hp.kept hkept (.of_eq fun w _ => panesKept_of_windows rfl w))⟩

theorem RunInv.create_move {σ : State} (h : RunInv σ) {primary position : Option String}
    {print : Bool} {target : Target} {spawn : Spawn}
    (hv : (Action.createWindow primary position print target spawn).Valid σ.server) :
    ∃ m : BarMove Nat, m.Step (barsOf σ.server)
      (barsOf (cmdNewmuxCreateWindowExec σ primary position print target spawn).1.server) := by
  obtain ⟨gone, hp⟩ := h.parks
  obtain ⟨htarget, hprimary⟩ := hv
  cases hs : newmuxPrimarySessionFromArgs σ.server primary target.session with
  | error cause =>
      simp only [cmdNewmuxCreateWindowExec, hs]
      exact ⟨.rest, rfl, rfl⟩
  | ok s =>
      have hfound := primary_found hp.ok.trees.unique hs
      have hname := primary_name htarget hprimary hs
      have hcreate : ∀ position, ∃ m : BarMove Nat, m.Step (barsOf σ.server)
          (barsOf (cmdNewmuxCreateWindowExec.create σ print target spawn s position).1.server) := by
        intro position
        obtain ⟨sv', heq, heffect⟩ := create_effect hp.ok.trees hfound
          (h.linked.sessions.selection _ s hfound) position print target spawn
        rw [heq]
        exact Newmux.Theorems.create_move hp h.linked hfound hname heffect
      simp only [cmdNewmuxCreateWindowExec, hs]
      split
      · exact ⟨.rest, rfl, rfl⟩
      · exact hcreate _
      · exact hcreate none

/-- Every action is one move of the tab bars. -/
theorem RunInv.act_move {σ : State} (h : RunInv σ) {a : Action} (hv : a.Valid σ.server) :
    ∃ m : BarMove Nat, m.Step (barsOf σ.server) (barsOf (act σ a).server) := by
  cases a with
  | recovery l => exact h.exec_move hv
  | createWindow primary position print target spawn => exact h.create_move hv
  | selectWindow s idx =>
      obtain ⟨gone, hp⟩ := h.parks
      obtain ⟨ses, hs, hname⟩ := hv
      obtain rfl := sessionFindById_id (Option.mem_def.mp hs)
      have hrun : Shrink (· = ses.id) (fun _ => False) σ.server
          (serverSessionSelect σ.server ses.id idx) := sessionSelect_shrink idx rfl
      exact ⟨.rest, bars_select σ.server ses.id idx, lot_same hp
        (hp.elsewhere hrun (fun R hR he => hR.ne hs hname he.symm) fun _ _ hn => hn)⟩

/-- The commands refine the tab bars. -/
theorem commands_refine_bars : commandSystem.Refines (barSystem Nat Nat)
    (fun σ a => spawnFits σ a = true) RunInv (fun σ => barsOf σ.server) where
  init := by
    rintro σ ⟨hfresh, hidle, hlinked⟩
    have hp := hidle.parks
    refine ⟨barsOf_ok hp hlinked, ?_⟩
    rw [lot_parks hp]
    exact Set.ext fun w => by simp
  step := by
    rintro σ a _ h - ⟨hv, rfl⟩
    exact h.act_move hv

/-- What holds of the bars in every run of the moves holds of the commands' bars: none
is empty or shows a tab twice, two that show one tab are the same, and no tab that is
put aside is shown. -/
theorem bars_ok_of_run {σ : State}
    (hreach : commandSystem.ReachableWith (fun σ a => spawnFits σ a = true) σ) :
    (barsOf σ.server).Ok :=
  (bars_inductive Nat Nat).invariant (commands_refine_bars.reachable runInv_inductive hreach)

/-- **Every action is one move of the tab bars**, in every state a run reaches whose
creates in grouped sessions spawn, and the bars reached are those of a run of the
moves. So no session is ever lost, and the sessions of one group are given and lose the
same tabs, in the same places. -/
theorem action_moves_bars {σ : State}
    (hreach : commandSystem.ReachableWith (fun σ a => spawnFits σ a = true) σ) :
    (barSystem Nat Nat).Reachable (barsOf σ.server) ∧
      ∀ a : Action, a.Valid σ.server →
        (∃ m : BarMove Nat, m.Step (barsOf σ.server) (barsOf (act σ a).server)) ∧
          ∀ j, ((barsOf (act σ a).server).bar j).isSome = ((barsOf σ.server).bar j).isSome := by
  refine ⟨commands_refine_bars.reachable runInv_inductive hreach, fun a hv => ?_⟩
  obtain ⟨m, hm⟩ := (runInv_inductive.invariant hreach).act_move hv
  exact ⟨⟨m, hm⟩, hm.sessions⟩

theorem action_moves_bars_closeOpenReopen :
    (barSystem Nat Nat).Reachable (barsOf (TSys.runFrom act groupState closeOpenReopen).server) ∧
      ∀ a : Action, a.Valid (TSys.runFrom act groupState closeOpenReopen).server →
        (∃ m : BarMove Nat,
          m.Step (barsOf (TSys.runFrom act groupState closeOpenReopen).server)
            (barsOf (act (TSys.runFrom act groupState closeOpenReopen) a).server)) ∧
          ∀ j, ((barsOf (act (TSys.runFrom act groupState closeOpenReopen) a).server).bar j).isSome =
            ((barsOf (TSys.runFrom act groupState closeOpenReopen).server).bar j).isSome :=
  action_moves_bars closeOpenReopen_reachable

end Newmux.Theorems
