import Newmux.Logic.Create
import Newmux.Theorems.Linked

/-!
# A new window among the sessions

`newmux-create-window` links a new window in one session and its group follows.
A spawn that fails has already shuffled the session's indexes, and the group is
not told; that is harmless for a session that is in no group.
-/

namespace Newmux.Theorems

open Newmux.Base Newmux.Tmux Newmux.Recovery Newmux.Logic

/-- Counters have moved on, and nothing else has happened. -/
structure Counted (sv sv' : Server) : Prop where
  sessions : sv'.sessions = sv.sessions
  groups : sv'.groups = sv.groups
  windows : sv'.windows = sv.windows
  nextSessionId : sv'.nextSessionId = sv.nextSessionId
  nextPtr : sv.nextPtr ≤ sv'.nextPtr
  nextWindowId : sv.nextWindowId ≤ sv'.nextWindowId

theorem Counted.find {sv sv' : Server} (h : Counted sv sv') (j : Nat) :
    sessionFindById sv' j = sessionFindById sv j := by
  unfold sessionFindById
  rw [h.sessions]

theorem Counted.treesOk {sv sv' : Server} (h : Counted sv sv') (hok : TreesOk sv) :
    TreesOk sv' := by
  refine ⟨h.sessions ▸ hok.unique, h.sessions ▸ hok.names, ?_, fun j s hs => ?_, ?_⟩
  · rw [h.sessions, h.nextSessionId]
    exact hok.ids
  · rw [h.find] at hs
    exact (hok.tree j s hs).mono h.nextPtr
  · refine ⟨?_, ?_⟩ <;> rw [h.groups]
    · exact hok.groups.nodup
    · exact hok.groups.disjoint

theorem Counted.linked {sv sv' : Server} (h : Counted sv sv') (hl : Linked sv) : Linked sv' := by
  have hgroup : ∀ i j, InGroup sv' i j ↔ InGroup sv i j := by
    intro i j
    simp only [InGroup, h.groups]
  refine ⟨hl.sessions.fewer (h.treesOk hl.sessions.trees) (fun j s hs => h.find j ▸ hs)
    fun i j hg => (hgroup i j).mp hg, fun j s _ hs => hl.links.once j s trivial (h.find j ▸ hs), ?_⟩
  intro i j si sj w _ _ hi hj hwi hwj
  exact (hgroup i j).mpr (hl.links.shared i j si sj w trivial trivial (h.find i ▸ hi)
    (h.find j ▸ hj) hwi hwj)

theorem Counted.parks {sv sv' : Server} (h : Counted sv sv') {items : List ClosedItem}
    (hp : Parks sv items) : Parks sv' items := by
  have htrees := h.treesOk hp.ok.trees
  have hiff : ∀ R, IsRecovery sv' R ↔ IsRecovery sv R := fun R =>
    ⟨fun hR => ⟨h.find _ ▸ hR.find, hR.name⟩, fun hR => ⟨(h.find _).trans hR.find, hR.name⟩⟩
  have hgrouped : ∀ j, Grouped sv' j ↔ Grouped sv j := by
    intro j
    simp only [Grouped, h.groups]
  have horder := recoveryOrder_congr hp.ok.trees htrees hiff
  refine ⟨⟨htrees, fun j s w hs hw => ?_, fun j hj => ?_, fun R hR => ?_⟩,
    fun R hR j s hs => ?_, horder ▸ hp.order, fun item hi => ?_⟩
  · exact (hp.ok.created j s w (h.find j ▸ hs) hw).trans_le h.nextWindowId
  · rw [h.nextSessionId]
    exact hp.ok.groupIds j ((hgrouped j).mp hj)
  · have hlot := hp.ok.lot R ((hiff R).mp hR)
    exact ⟨fun hg => hlot.alone ((hgrouped _).mp hg), hlot.current, hlot.once⟩
  · exact hp.separate R ((hiff R).mp hR) j s (h.find j ▸ hs)
  · exact (hp.stored item hi).frame (sameLot_of_iff hiff)
      (.of_eq fun w _ => panesKept_of_windows h.windows w)

/-! ## What a create does -/

/-- The server once the new window's id is taken. -/
def idTaken (sv : Server) : Server := { sv with nextWindowId := sv.nextWindowId + 1 }

/-- A new window was linked in the session `s`, and the group of `s` followed. -/
def Opened (sv sv' : Server) (s : Session) : Prop :=
  ∃ wl wwl last sv₁, RoomMade s.windows sv.nextPtr sv.nextWindowId wl wwl last ∧
    SessionsKept (linkedServer (idTaken sv) s wl wwl) sv₁ ∧
    (∀ x, x ≠ sv.nextWindowId → panesOf sv₁ x = panesOf sv x) ∧
    sv' = sessionGroupSynchronizeFrom sv₁ s.id

/-- What a create does in the session `s`. -/
inductive CreateEffect (sv : Server) (s : Session) (spawn : Spawn) (sv' : Server) : Prop
  | opened (h : Opened sv sv' s)
  | counted (h : Counted sv sv')
  | shuffled (cause : String) (wl : Winlink) (before : Bool) (idx : Nat) (mid : Winlinks)
      (hspawn : spawn.pane = .error cause)
      (hshuffle : winlinkShuffleUp s.windows wl before = some (idx, mid))
      (h : Counted (sv.setSession { s with windows := mid }) sv')

/-- A window that was created with a pane in it, and laid out. -/
theorem newWindow_panes (sv : Server) (sx sy : Nat) (pane : Pane) (nextPtr nextPaneId : Nat)
    (sessions : List Session) (id x : Nat) (hx : x ≠ sv.nextWindowId) :
    panesOf (layoutInit { (windowCreate sv sx sy).1 with
      sessions, nextPtr, nextPaneId, panes := pane :: (windowCreate sv sx sy).1.panes,
      windows := Table.modify (windowCreate sv sx sy).1.windows sv.nextWindowId fun win =>
        { win with panes := [id], active := some id } } sv.nextWindowId id) x = panesOf sv x := by
  have hinit : ∀ sv₀ : Server, PanesKept sv₀ (layoutInit sv₀ sv.nextWindowId id) := by
    intro sv₀
    unfold layoutInit
    split
    · exact .refl _
    · next win hw =>
        have hid := windowFindById_id hw
        rw [← hid] at hw ⊢
        refine relaid_panes hw ?_ ?_ <;> rfl
  rw [hinit]
  obtain ⟨win, hid, hwindows⟩ : ∃ win : Window, win.id = sv.nextWindowId ∧
      (windowCreate sv sx sy).1.windows = win :: sv.windows := ⟨_, rfl, rfl⟩
  have hkey : key win = sv.nextWindowId := hid
  unfold panesOf windowFindById
  simp only
  rw [Table.find_modify]
  swap
  · exact fun _ h => h
  rw [if_neg hx, hwindows, Table.find_cons, if_neg fun he => hx (he.symm.trans hkey)]

/-- An empty session that is pointed at its first winlink. -/
theorem spawned_eq {s : Session} (h : SelectionOk s) (wl : Winlink) (wwl : Winlinks) :
    ({ s with windows := wwl, curw := s.curw.or (some wl.ptr) } : Session) =
      linkedSession s wl wwl := by
  unfold linkedSession sessionSetCurrent
  cases hc : s.curw with
  | some p => simp
  | none =>
      have hstack : s.lastw = [] := by
        refine List.eq_nil_iff_forall_not_mem.mpr fun p hp => ?_
        have hown := h.own p hp
        rw [h.current.empty hc] at hown
        exact absurd hown List.not_mem_nil
      simp [hstack]

theorem linkedServer_shuffled (sv : Server) (s : Session) (mid : Winlinks) (wl : Winlink)
    (wwl : Winlinks) :
    linkedServer (idTaken (sv.setSession { s with windows := mid })) { s with windows := mid } wl wwl =
      linkedServer (idTaken sv) s wl wwl := by
  have hsame : linkedSession { s with windows := mid } wl wwl = linkedSession s wl wwl := rfl
  have hid : ({ s with windows := mid } : Session).id = (linkedSession s wl wwl).id :=
    (linkedSession_fields s wl wwl).1.symm
  have hset := setSession_setSession (idTaken sv) hid
  unfold linkedServer
  rw [hsame]
  change ({ ((idTaken sv).setSession { s with windows := mid }).setSession
    (linkedSession s wl wwl) with nextPtr := sv.nextPtr + 1 } : Server) = _
  rw [hset]
  rfl

/-- What a spawn does, at an index that has been made free or at the next free one. -/
theorem spawnWindow_effect {sv : Server} {s : Session} (hsel : SelectionOk s) (idx : Int)
    (spawn : Spawn) :
    match spawnWindow sv s idx spawn with
    | (sv', .error _) => Counted sv sv' ∧
        ((idx = -1 ∨ ∀ x ∈ s.windows, x.idx ≠ idx.toNat) → 0 ≤ idx →
          ∃ cause, spawn.pane = .error cause)
    | (sv', .ok wl) => ∃ wwl sv₁,
        winlinkAdd s.windows (spawnIndex s idx) sv.nextPtr sv.nextWindowId = some (wl, wwl) ∧
        SessionsKept (linkedServer (idTaken sv) s wl wwl) sv₁ ∧
        (∀ x, x ≠ sv.nextWindowId → panesOf sv₁ x = panesOf sv x) ∧
        sv' = sessionGroupSynchronizeFrom sv₁ s.id := by
  have hcounted : Counted sv sv := ⟨rfl, rfl, rfl, rfl, le_rfl, le_rfl⟩
  unfold spawnWindow
  by_cases hused : idx ≠ -1 ∧ (winlinkFindByIndex s.windows idx.toNat).isSome
  · rw [if_pos hused]
    refine ⟨hcounted, fun hfree _ => ?_⟩
    obtain ⟨x, hx, hxidx⟩ := findByIndex_isSome.mp hused.2
    exact absurd hxidx ((hfree.resolve_left hused.1) x hx)
  · rw [if_neg hused]
    unfold spawnIndex
    dsimp only
    cases hadd : winlinkAdd s.windows (if idx = -1 then -1 - (s.options.baseIndex : Int) else idx)
        sv.nextPtr sv.nextWindowId with
    | none =>
        refine ⟨hcounted, fun hfree hle => ?_⟩
        have hne : idx ≠ -1 := by omega
        obtain ⟨n, rfl⟩ := Int.eq_ofNat_of_zero_le hle
        have hunused : ∀ x ∈ s.windows, x.idx ≠ n := hfree.resolve_left hne
        rw [if_neg hne, winlinkAdd_of_free _ _ hunused] at hadd
        cases hadd
    | some r =>
        obtain ⟨wl, wwl⟩ := r
        cases hpane : spawn.pane with
        | error cause =>
            exact ⟨⟨rfl, rfl, rfl, rfl, Nat.le_succ _, Nat.le_succ _⟩, fun _ _ => ⟨cause, rfl⟩⟩
        | ok wp =>
            simp only
            refine ⟨wwl, _, rfl, .trans ?_ (layoutInit_kept _ _ _), fun x hx => ?_, rfl⟩
            · rw [spawned_eq hsel wl wwl]
              exact ⟨rfl, rfl, rfl, rfl, le_rfl, rfl⟩
            · exact newWindow_panes sv spawn.sx spawn.sy _ _ _ _ _ x hx

/-- A session points at the winlinks it pointed at when their indexes are shuffled. -/
theorem shuffled_selection {s : Session} (h : SelectionOk s) (hsorted : Sorted s.windows)
    {wl : Winlink} {before : Bool} {idx : Nat} {mid : Winlinks}
    (hshuffle : winlinkShuffleUp s.windows wl before = some (idx, mid)) :
    SelectionOk { s with windows := mid } := by
  obtain ⟨-, last, -, -, -, -, rfl⟩ := winlinkShuffleUp_spec hsorted hshuffle
  have hptr : (s.windows.map (Winlink.bump idx last)).map Winlink.ptr =
      s.windows.map Winlink.ptr := by
    rw [List.map_map]
    exact List.map_congr_left fun y _ => Winlink.bump_ptr idx last y
  refine ⟨⟨fun p hp => ?_, fun hc => ?_⟩, fun p hp => ?_, h.once, h.other⟩
  · rw [hptr]
    exact h.current.member p hp
  · simp [h.current.empty hc]
  · rw [hptr]
    exact h.own p hp

theorem create_effect {σ : State} (hok : TreesOk σ.server) {s : Session}
    (hs : sessionFindById σ.server s.id = some s) (hsel : SelectionOk s) (position : Option Nat)
    (print : Bool) (target : Target) (spawn : Spawn) :
    ∃ sv', (cmdNewmuxCreateWindowExec.create σ print target spawn s position).1 =
        { σ with server := sv' } ∧ CreateEffect σ.server s spawn sv' := by
  have hsorted := (hok.tree _ s hs).sorted
  unfold cmdNewmuxCreateWindowExec.create
  rcases makeRoom_cases s (insertionLink s position target) with
    ⟨-, hroom⟩ | ⟨x, before, idx, mid, -, hshuffle, -, hroom⟩
  · simp only [hroom]
    have hspawn := @spawnWindow_effect σ.server s hsel (-1) spawn
    generalize spawnWindow σ.server s (-1) spawn = r at hspawn ⊢
    obtain ⟨sv', cause | wl⟩ := r
    · exact ⟨sv', rfl, .counted hspawn.1⟩
    · obtain ⟨wwl, sv₁, hadd, hkept, hpanes, hsync⟩ := hspawn
      exact ⟨sv', rfl, .opened ⟨wl, wwl, wl.idx, sv₁, roomMade_of_add hadd, hkept, hpanes, hsync⟩⟩
  · simp only [hroom]
    have hmid := shuffled_selection hsel hsorted hshuffle
    have hspawn := @spawnWindow_effect (σ.server.setSession { s with windows := mid }) _ hmid idx
      spawn
    generalize spawnWindow (σ.server.setSession { s with windows := mid })
      { s with windows := mid } idx spawn = r at hspawn ⊢
    obtain ⟨sv', cause | wl⟩ := r
    · obtain ⟨hcounted, hfailed⟩ := hspawn
      obtain ⟨-, last, hle, -, hfree, -, rfl⟩ := winlinkShuffleUp_spec hsorted hshuffle
      obtain ⟨cause, hpane⟩ := hfailed (.inr (bump_frees hle hfree)) (by omega)
      exact ⟨sv', rfl, .shuffled cause x before idx _ hpane hshuffle hcounted⟩
    · obtain ⟨wwl, sv₁, hadd, hkept, hpanes, hsync⟩ := hspawn
      rw [linkedServer_shuffled] at hkept
      have hidx : spawnIndex { s with windows := mid } idx = idx := if_neg (by omega)
      rw [hidx] at hadd
      have hlink : (Place.beside x before).link s.windows σ.server.nextPtr σ.server.nextWindowId =
          some (wl, wwl) := by
        simp only [Place.link, hshuffle, Option.bind_some]
        exact hadd
      obtain ⟨last, hmade⟩ := Place.link_spec hsorted hlink
      exact ⟨sv', rfl, .opened ⟨wl, wwl, last, sv₁, hmade, hkept, hpanes, hsync⟩⟩

/-! ## What a create keeps -/

theorem idTaken_kept (sv : Server) : SessionsKept sv (idTaken sv) :=
  ⟨rfl, rfl, rfl, rfl, Nat.le_succ _, rfl⟩

theorem Opened.linked {sv sv' : Server} {s : Session} (ho : Opened sv sv' s) (h : Linked sv)
    (hcreated : Created sv) (hs : sessionFindById sv s.id = some s) : Linked sv' := by
  obtain ⟨wl, wwl, last, sv₁, hroom, hkept, -, rfl⟩ := ho
  have hfresh : ∀ j m, sessionFindById sv j = some m → sv.nextWindowId ∉ Session.order m :=
    fun j m hm hin => absurd (hcreated j m _ hm hin) (lt_irrefl _)
  have hready : SessionsOk (idTaken sv) := h.sessions.kept (idTaken_kept sv)
  obtain ⟨hid, hname, -, hw⟩ := linkedSession_fields s wl wwl
  have htrees : TreesOk (linkedServer (idTaken sv) s wl wwl) :=
    relinked_treesOk hready.trees hs hid hname (hw.symm ▸ hroom)
  have hlinks : LinksOn (fun _ => True) (linkedServer (idTaken sv) s wl wwl) :=
    linkedServer_linksOn (h.kept (idTaken_kept sv)).links hs hroom fun j m _ hm => hfresh j m hm
  have hrun : Shrink (fun _ => True) (fun _ => True) (linkedServer (idTaken sv) s wl wwl)
      (sessionGroupSynchronizeFrom sv₁ s.id) :=
    (Shrink.of_kept hkept).trans (syncFrom_shrink fun _ _ => trivial)
  exact ⟨hready.attachedKept hs hroom (hfresh _ s hs) hkept,
    Shrink.linksOn hrun htrees (fun _ _ _ h => h) hlinks⟩

/-- The recovery session is out of the way of a new window. -/
theorem Opened.parks {sv sv' : Server} {s : Session} (ho : Opened sv sv' s)
    {items : List ClosedItem} (hp : Parks sv items) (hs : sessionFindById sv s.id = some s)
    (hname : s.name ≠ newmuxRecoverySession) : Parks sv' items := by
  obtain ⟨wl, wwl, last, sv₁, hroom, hkept, hpanes, rfl⟩ := ho
  have hp₀ : Parks (idTaken sv) items :=
    hp.kept (idTaken_kept sv) (.of_eq fun w _ => panesKept_of_windows rfl w)
  obtain ⟨hok₁, hiff₁⟩ := hp₀.ok.linkedServer hs hname hroom (Nat.lt_succ_self sv.nextWindowId)
  obtain ⟨hok₂, hiff₂⟩ := hok₁.kept hkept
  have hsync : Shrink (InGroup sv₁ s.id) (fun _ => False) sv₁
      (sessionGroupSynchronizeFrom sv₁ s.id) := syncFrom_shrink fun _ hj => hj
  have hT : ∀ R, IsRecovery sv₁ R → ¬ InGroup sv₁ s.id R.id := by
    intro R hR hg
    have hR₀ := (hiff₁ R).mp ((hiff₂ R).mp hR)
    exact hR₀.ne hs hname (alone_inGroup (hok₂.lot R hR).alone hg)
  obtain ⟨hok₃, hiff₃⟩ := hok₂.shrink hsync hT
  have hiff : ∀ R, IsRecovery (sessionGroupSynchronizeFrom sv₁ s.id) R ↔ IsRecovery sv R := by
    intro R
    rw [hiff₃, hiff₂, hiff₁]
    exact (hp.ok.kept (idTaken_kept sv)).2 R
  have horder := recoveryOrder_congr hp.ok.trees hok₃.trees hiff
  have hnew : sv.nextWindowId ∉ recoveryOrder sv := by
    intro hin
    obtain ⟨R, hR, hw⟩ := (mem_recoveryOrder hp.ok.trees).mp hin
    exact absurd (hp.ok.created _ R _ hR.find hw) (lt_irrefl _)
  refine ⟨hok₃, fun R hR j m hm hj x hx hxm => ?_, horder ▸ hp.order, fun item hi => ?_⟩
  · have hR₀ := (hiff R).mp hR
    obtain ⟨i, m₁, hi, hm₁, hxm₁⟩ := hok₂.linked_outside hsync ((hiff₃ R).mp hR) hm hj hxm
    rw [hkept.find] at hm₁
    rcases linkedServer_linked hs hroom hm₁ hxm₁ with rfl | ⟨m₀, hm₀, hxm₀⟩
    · exact hnew ((mem_recoveryOrder hp.ok.trees).mpr ⟨R, hR₀, hx⟩)
    · exact hp.separate R hR₀ i m₀ hm₀ hi x hx hxm₀
  · have hmem : item.recoveryWindowId ∈ recoveryOrder sv :=
      hp.order.mem_iff.mpr (List.mem_map_of_mem hi)
    refine (hp.stored item hi).frame (sameLot_of_iff hiff) (.of_eq fun w hw => ?_)
    rw [List.mem_singleton.mp hw]
    rw [← hpanes _ fun he => hnew (he ▸ hmem)]
    unfold panesOf
    rw [(Shrink.windows hsync hok₂.trees).parked hok₃ (horder ▸ hmem) fun h => h]

/-- A failed spawn shuffles the indexes of a session that is in no group. -/
theorem SessionsOk.shuffle {sv : Server} (h : SessionsOk sv) {s : Session}
    (hs : sessionFindById sv s.id = some s) (halone : ¬ Grouped sv s.id) {wl : Winlink}
    {before : Bool} {idx : Nat} {mid : Winlinks}
    (hshuffle : winlinkShuffleUp s.windows wl before = some (idx, mid)) :
    SessionsOk (sv.setSession { s with windows := mid }) := by
  have hsorted := (h.trees.tree _ s hs).sorted
  have hid : ({ s with windows := mid } : Session).id = s.id := rfl
  have hfind : ∀ j, sessionFindById (sv.setSession { s with windows := mid }) j =
      if j = s.id then some { s with windows := mid } else sessionFindById sv j := fun j =>
    sessionFindById_set hid hs
  have horder : Session.order { s with windows := mid } = Session.order s :=
    order_shuffle hsorted hshuffle
  -- being in no group, the session has no other one to follow it
  have hother : ∀ i j, InGroup sv i j → i ≠ j → i ≠ s.id ∧ j ≠ s.id := by
    rintro i j (he | ⟨sg, hsg, hi, hj⟩) hne
    · exact absurd he.symm hne
    · exact ⟨fun he => halone ⟨sg, hsg, he ▸ hi⟩, fun he => halone ⟨sg, hsg, he ▸ hj⟩⟩
  have hsel := h.selection _ s hs
  refine ⟨(ShrinkStep.shuffle (T := fun _ => True) (W := fun _ => True) trivial hs
    hshuffle).treesOk h.trees, fun j m hm => ?_, fun j m hm => ?_, fun j m hm hname => ?_,
    fun i j a b hg ha hb => ?_⟩
  · rw [hfind] at hm
    split at hm
    · obtain rfl := Option.some.inj hm
      exact shuffled_selection hsel hsorted hshuffle
    · exact h.selection j m hm
  · rw [hfind] at hm
    split at hm
    · obtain rfl := Option.some.inj hm
      rw [horder]
      exact h.once _ s hs
    · exact h.once j m hm
  · rw [hfind] at hm
    split at hm
    · obtain rfl := Option.some.inj hm
      intro hnil
      have hlen := congrArg List.length horder
      simp only [Session.order, List.length_map] at hlen
      have hnil' : mid = [] := hnil
      rw [hnil', List.length_nil] at hlen
      exact h.linked _ s hs hname (List.length_eq_zero_iff.mp hlen.symm)
    · exact h.linked j m hm hname
  · by_cases hij : i = j
    · subst hij
      rw [ha] at hb
      obtain rfl := Option.some.inj hb
      exact ⟨rfl, rfl⟩
    · obtain ⟨hi, hj⟩ := hother i j hg hij
      rw [hfind, if_neg hi] at ha
      rw [hfind, if_neg hj] at hb
      exact h.maps i j a b hg ha hb

/-- **A create keeps the sessions**, unless its spawn fails in a session that is in
a group. -/
theorem CreateEffect.linked {sv sv' : Server} {s : Session} {spawn : Spawn}
    (he : CreateEffect sv s spawn sv') (h : Linked sv) (hcreated : Created sv)
    (hs : sessionFindById sv s.id = some s)
    (hfits : ∀ cause, spawn.pane = .error cause → ¬ Grouped sv s.id) : Linked sv' := by
  cases he with
  | opened ho => exact ho.linked h hcreated hs
  | counted hc => exact hc.linked h
  | shuffled cause wl before idx mid hspawn hshuffle hc =>
      exact hc.linked (h.shrink (.single (ShrinkStep.shuffle (T := fun _ => True)
        (W := fun _ => True) trivial hs hshuffle))
        (h.sessions.shuffle hs (hfits cause hspawn) hshuffle))

theorem CreateEffect.parks {sv sv' : Server} {s : Session} {spawn : Spawn}
    (he : CreateEffect sv s spawn sv') {items : List ClosedItem} (hp : Parks sv items)
    (hs : sessionFindById sv s.id = some s) (hname : s.name ≠ newmuxRecoverySession) :
    Parks sv' items := by
  cases he with
  | opened ho => exact ho.parks hp hs hname
  | counted hc => exact hc.parks hp
  | shuffled cause wl before idx mid hspawn hshuffle hc =>
      have hrun : Shrink (· = s.id) (fun _ => False) sv
          (sv.setSession { s with windows := mid }) := .single (.shuffle rfl hs hshuffle)
      exact hc.parks (hp.elsewhere hrun (fun R hR he => hR.ne hs hname he.symm) fun _ _ h => h)

end Newmux.Theorems
