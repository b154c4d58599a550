import Newmux.Theorems.SilentMoves

/-!
# Sessions in every run

Whatever is closed, reserved and restored, a session that is not the recovery
session links a window, points at its own winlinks, links no window twice, and has
the indexes of the other sessions of its group. A window is linked by the sessions
of one group, or by the recovery session alone.
-/

namespace Newmux.Theorems

open Newmux.Base Newmux.Tmux Newmux.Recovery Newmux.Logic

/-- The sessions are as they should be. -/
structure SessionsOk (sv : Server) : Prop where
  trees : TreesOk sv
  selection : ∀ j s, sessionFindById sv j = some s → SelectionOk s
  once : ∀ j s, sessionFindById sv j = some s → (Session.order s).Nodup
  linked : ∀ j s, sessionFindById sv j = some s → s.name ≠ newmuxRecoverySession → s.windows ≠ []
  maps : ∀ i j a b, InGroup sv i j → sessionFindById sv i = some a →
    sessionFindById sv j = some b →
      indexMap a = indexMap b ∧ a.options.baseIndex = b.options.baseIndex

theorem order_indexMap (s : Session) : Session.order s = (indexMap s).map Prod.snd := by
  unfold Session.order indexMap
  rw [List.map_map]
  rfl

/-- Sessions have gone, and nothing has happened to the others. -/
theorem SessionsOk.fewer {sv sv' : Server} (h : SessionsOk sv) (hok : TreesOk sv')
    (hfind : ∀ j s, sessionFindById sv' j = some s → sessionFindById sv j = some s)
    (hgroup : ∀ i j, InGroup sv' i j → InGroup sv i j) : SessionsOk sv' where
  trees := hok
  selection j s hs := h.selection j s (hfind j s hs)
  once j s hs := h.once j s (hfind j s hs)
  linked j s hs := h.linked j s (hfind j s hs)
  maps i j a b hg ha hb := h.maps i j a b (hgroup i j hg) (hfind i a ha) (hfind j b hb)

theorem SessionsOk.kept {sv sv' : Server} (h : SessionsOk sv) (hkept : SessionsKept sv sv') :
    SessionsOk sv' := by
  refine h.fewer (hkept.treesOk h.trees) (fun j s hs => ?_) fun i j hg => ?_
  · rw [← hkept.find]
    exact hs
  · simpa only [InGroup, hkept.groups] using hg

/-- One session moves among its windows. -/
theorem SessionsOk.move {sv : Server} (h : SessionsOk sv) {s s' : Session}
    (hs : sessionFindById sv s.id = some s) (hsame : SameTree s s') (hsel : SelectionOk s') :
    SessionsOk (sv.setSession s') := by
  have hmap : indexMap s' = indexMap s := by
    unfold indexMap
    rw [hsame.windows]
  -- every session has the map it had
  have hold : ∀ j m, sessionFindById (sv.setSession s') j = some m → SelectionOk m ∧
      ∃ a, sessionFindById sv j = some a ∧ m.name = a.name ∧ m.options = a.options ∧
        indexMap m = indexMap a := by
    intro j m hm
    rw [sessionFindById_set hsame.id hs] at hm
    split at hm
    · next hj =>
        obtain rfl := Option.some.inj hm
        exact ⟨hsel, s, hj ▸ hs, hsame.name, hsame.options, hmap⟩
    · exact ⟨h.selection j m hm, m, hm, rfl, rfl, rfl⟩
  refine ⟨(ShrinkStep.move (T := fun _ => True) (W := fun _ => True) trivial hs hsame).treesOk
    h.trees, fun j m hm => (hold j m hm).1, fun j m hm => ?_, fun j m hm hname => ?_,
    fun i j a b hg ha hb => ?_⟩
  · obtain ⟨-, a, ha, -, -, hmap⟩ := hold j m hm
    rw [order_indexMap, hmap, ← order_indexMap]
    exact h.once j a ha
  · obtain ⟨-, a, ha, hname', -, hmap⟩ := hold j m hm
    intro hnil
    rw [indexMap_nil.mpr hnil] at hmap
    exact h.linked j a ha (hname' ▸ hname) (indexMap_nil.mp hmap.symm)
  · obtain ⟨-, a', ha', -, hopt, hmap⟩ := hold i a ha
    obtain ⟨-, b', hb', -, hopt', hmap'⟩ := hold j b hb
    rw [hmap, hmap', hopt, hopt']
    exact h.maps i j a' b' hg ha' hb'

/-! ## A session and its group -/

theorem syncFrom_groups (sv : Server) (t : Nat) :
    (sessionGroupSynchronizeFrom sv t).groups = sv.groups := by
  unfold sessionGroupSynchronizeFrom
  cases sessionGroupContains sv t with
  | none => rfl
  | some sg =>
      simp only
      generalize sg.filter (· != t) = ms
      induction ms generalizing sv with
      | nil => rfl
      | cons m ms ih => rw [List.foldl_cons, ih, sync1_groups]

/-- **A session is written back and its group follows**, if it has the windows the
others are on. -/
theorem SessionsOk.follow {sv sv₁ : Server} (h : SessionsOk sv) {s s₁ : Session}
    (hs : sessionFindById sv s.id = some s) (hid : s₁.id = s.id) (hname : s₁.name = s.name)
    (hopt : s₁.options = s.options) (hsel : SelectionOk s₁) (honce : (Session.order s₁).Nodup)
    (hne : s₁.windows ≠ []) (hok : TreesOk sv₁) (hgroups : sv₁.groups = sv.groups)
    (hfind : ∀ j, sessionFindById sv₁ j = if j = s.id then some s₁ else sessionFindById sv j)
    (hcovers : ∀ m, indexMap m = indexMap s → Sorted m.windows → Covers s₁ m) :
    SessionsOk (sessionGroupSynchronizeFrom sv₁ s.id) := by
  have hin : ∀ i j, InGroup sv₁ i j ↔ InGroup sv i j := by
    intro i j
    simp only [InGroup, hgroups]
  have hself : sessionFindById sv₁ s₁.id = some s₁ := by rw [hfind, if_pos hid]
  have hok' : TreesOk (sessionGroupSynchronizeFrom sv₁ s.id) :=
    Shrink.treesOk (syncFrom_shrink (T := fun _ => True) (W := fun _ => True) fun _ _ => trivial) hok
  have hgroup : ∀ i j, InGroup (sessionGroupSynchronizeFrom sv₁ s.id) i j ↔ InGroup sv i j := by
    intro i j
    simp only [InGroup, syncFrom_groups, hgroups]
  -- a member has the new map, and the others are as they were
  have hall : ∀ j m, sessionFindById (sessionGroupSynchronizeFrom sv₁ s.id) j = some m →
      ∃ a, sessionFindById sv j = some a ∧ m.name = a.name ∧ m.options = a.options ∧
        (InGroup sv s.id j ∧ SelectionOk m ∧ indexMap m = indexMap s₁ ∨
          ¬ InGroup sv s.id j ∧ m = a) := by
    intro j m hm
    rw [← hid] at hm
    obtain ⟨hother, hkeep⟩ := syncFrom_find hok hself hne j
    by_cases hg : InGroup sv s.id j
    · by_cases hj : j = s.id
      · rw [hkeep (.inl (hj.trans hid.symm)), hfind, if_pos hj] at hm
        obtain rfl := Option.some.inj hm
        exact ⟨s, hj ▸ hs, hname, hopt, .inl ⟨hg, hsel, rfl⟩⟩
      · obtain ⟨ptr, -, hmember⟩ := hother (fun he => hj (he.trans hid))
          ((hin _ _).mpr (hid.symm ▸ hg))
        rw [hmember, hfind, if_neg hj, Option.map_eq_some_iff] at hm
        obtain ⟨a, ha, rfl⟩ := hm
        obtain ⟨-, haname, haopt, -⟩ := synchronizeLinks_id s₁ a ptr
        have htree := h.trees.tree j a ha
        refine ⟨a, ha, haname, haopt, .inl ⟨hg, ?_, synchronizeLinks_indexMap s₁ a ptr⟩⟩
        exact synchronizeLinks_selection hsel (hok.tree _ _ hself) hne (h.selection j a ha) htree
          (hcovers a (h.maps s.id j s a hg hs ha).1.symm htree.sorted) ptr
    · have hj : j ≠ s.id := fun he => hg (he ▸ .refl sv s.id)
      rw [hkeep (.inr fun hg' => hg (hid ▸ (hin _ _).mp hg')), hfind, if_neg hj] at hm
      exact ⟨m, hm, rfl, rfl, .inr ⟨hg, rfl⟩⟩
  refine ⟨hok', fun j m hm => ?_, fun j m hm => ?_, fun j m hm hlive => ?_,
    fun i j a b hg ha hb => ?_⟩
  · obtain ⟨a, ha, -, -, ⟨-, hselm, -⟩ | ⟨-, rfl⟩⟩ := hall j m hm
    · exact hselm
    · exact h.selection j m ha
  · obtain ⟨a, ha, -, -, ⟨-, -, hmap⟩ | ⟨-, rfl⟩⟩ := hall j m hm
    · rw [order_indexMap, hmap, ← order_indexMap]
      exact honce
    · exact h.once j m ha
  · obtain ⟨a, ha, hmname, -, ⟨-, -, hmap⟩ | ⟨-, rfl⟩⟩ := hall j m hm
    · intro hnil
      rw [indexMap_nil.mpr hnil] at hmap
      exact hne (indexMap_nil.mp hmap.symm)
    · exact h.linked j m ha hlive
  · obtain ⟨a', ha', -, haopt, ha⟩ := hall i a ha
    obtain ⟨b', hb', -, hbopt, hb⟩ := hall j b hb
    have hold := (hgroup i j).mp hg
    have hmaps := h.maps i j a' b' hold ha' hb'
    rw [haopt, hbopt]
    rcases ha with ⟨hgi, -, hamap⟩ | ⟨hgi, rfl⟩
    · rcases hb with ⟨-, -, hbmap⟩ | ⟨hgj, -⟩
      · exact ⟨hamap.trans hbmap.symm, hmaps.2⟩
      · exact absurd (h.trees.groups.trans hgi hold) hgj
    · rcases hb with ⟨hgj, -, -⟩ | ⟨-, rfl⟩
      · exact absurd (h.trees.groups.trans hgj hold.symm) hgi
      · exact hmaps

/-! ## Attaching -/

/-- Every index that was in use is in use once room has been made. -/
theorem roomMade_covers {wwl wwl' : Winlinks} {ptr w last : Nat} {wl : Winlink}
    (h : RoomMade wwl ptr w wl wwl' last) {x : Winlink} (hx : x ∈ wwl) :
    ∃ y ∈ wwl', y.idx = x.idx := by
  have hbumped : ∀ y ∈ wwl, y.bump wl.idx last ∈ wwl' := fun y hy => by
    rw [h.tree]
    exact mem_rbInsert.mpr (.inr (List.mem_map_of_mem hy))
  by_cases hlow : wl.idx ≤ x.idx ∧ x.idx < last
  · by_cases hat : x.idx = wl.idx
    · refine ⟨wl, ?_, hat.symm⟩
      rw [h.tree]
      exact mem_rbInsert.mpr (.inl rfl)
    · -- the window before it in the block has moved up to its index
      obtain ⟨y, hy, hyidx⟩ := h.block (x.idx - 1) (by omega) (by omega)
      refine ⟨_, hbumped y hy, ?_⟩
      rw [Winlink.bump_idx, if_pos (by omega)]
      omega
  · refine ⟨_, hbumped x hx, ?_⟩
    rw [Winlink.bump_idx, if_neg hlow]

/-- A session that has been given a window. -/
theorem linkedSession_selection_of_room {s : Session} (h : SelectionOk s) {ptr w last : Nat}
    {wl : Winlink} {wwl : Winlinks} (hroom : RoomMade s.windows ptr w wl wwl last) :
    SelectionOk (linkedSession s wl wwl) := by
  have hcurrent := linkedSession_current h.current hroom
  have hgrow : ∀ p ∈ s.windows.map Winlink.ptr, p ∈ wwl.map Winlink.ptr := fun p hp =>
    hroom.ptr_perm.mem_iff.mpr (List.mem_cons_of_mem _ hp)
  cases hc : s.curw with
  | none =>
      have hstack : s.lastw = [] := by
        refine List.eq_nil_iff_forall_not_mem.mpr fun p hp => ?_
        have hown := h.own p hp
        rw [h.current.empty hc] at hown
        exact absurd hown List.not_mem_nil
      have hnil : (linkedSession s wl wwl).lastw = [] := by
        simp [linkedSession, hc, sessionSetCurrent, hstack]
      refine ⟨hcurrent, fun p hp => ?_, ?_, fun p _ hin => ?_⟩
      · rw [hnil] at hp
        exact absurd hp List.not_mem_nil
      · rw [hnil]
        exact List.nodup_nil
      · rw [hnil] at hin
        exact absurd hin List.not_mem_nil
  | some cur =>
      have hsame : linkedSession s wl wwl = { s with windows := wwl } := by
        simp [linkedSession, hc]
      rw [hsame] at hcurrent ⊢
      exact ⟨hcurrent, fun p hp => hgrow p (h.own p hp), h.once, h.other⟩

/-- **A window comes into a session** that does not link it yet, and its group
follows. -/
theorem SessionsOk.attachedKept {sv sv₁ : Server} (h : SessionsOk sv) {s : Session}
    (hs : sessionFindById sv s.id = some s) {w last : Nat} {wl : Winlink} {wwl : Winlinks}
    (hroom : RoomMade s.windows sv.nextPtr w wl wwl last) (hout : w ∉ Session.order s)
    (hkept : SessionsKept (linkedServer sv s wl wwl) sv₁) :
    SessionsOk (sessionGroupSynchronizeFrom sv₁ s.id) := by
  obtain ⟨hid, hname, hopt, hw⟩ := linkedSession_fields s wl wwl
  have hne : (linkedSession s wl wwl).windows ≠ [] := by
    rw [hw, hroom.tree]
    exact List.ne_nil_of_mem (mem_rbInsert.mpr (.inl rfl))
  have htrees : TreesOk (linkedServer sv s wl wwl) :=
    relinked_treesOk h.trees hs hid hname (hw.symm ▸ hroom)
  refine h.follow hs hid hname hopt (linkedSession_selection_of_room (h.selection _ s hs) hroom) ?_
    hne (hkept.treesOk htrees) hkept.groups
    (fun j => (hkept.find j).trans (linkedServer_find hs wl wwl j)) fun m hm _ => .inl fun x hx => ?_
  · unfold Session.order
    rw [hw, hroom.order_perm.nodup_iff, List.nodup_cons]
    exact ⟨hout, h.once _ s hs⟩
  · obtain ⟨y, hy, hyidx⟩ := idx_mem_of_indexMap hm hx
    obtain ⟨z, hz, hzidx⟩ := roomMade_covers hroom hy
    exact ⟨z, hw.symm ▸ hz, hzidx.trans hyidx⟩

theorem SessionsOk.attached {sv : Server} (h : SessionsOk sv) {s : Session}
    (hs : sessionFindById sv s.id = some s) {w last : Nat} {wl : Winlink} {wwl : Winlinks}
    (hroom : RoomMade s.windows sv.nextPtr w wl wwl last) (hout : w ∉ Session.order s) :
    SessionsOk (attached sv s wl wwl) :=
  h.attachedKept hs hroom hout (.refl _)

/-! ## Detaching -/

/-- The sessions once a winlink is out of its tree. -/
theorem unlink_find {sv : Server} {s s₁ : Session} (hs : sessionFindById sv s.id = some s)
    (hid : s₁.id = s.id) (hw : s₁.windows = s.windows) (wl : Winlink) (j : Nat) :
    sessionFindById (sessionUnlink sv s₁ wl) j =
      if j = s.id then some { s₁ with windows := winlinkRemove s.windows wl.ptr }
      else sessionFindById sv j := by
  unfold sessionUnlink
  rw [(windowRemoveRef_kept _ _).find, hw]
  exact sessionFindById_set hid hs

theorem winlinkRemove_sublist (wwl : Winlinks) (ptr : Nat) :
    (winlinkRemove wwl ptr).Sublist wwl := List.filter_sublist

/-- **A window leaves a session** that has another one. -/
theorem SessionsOk.unlink {sv : Server} (h : SessionsOk sv) {s s₁ : Session}
    (hs : sessionFindById sv s.id = some s) (hid : s₁.id = s.id) (hname : s₁.name = s.name)
    (hopt : s₁.options = s.options) (hw : s₁.windows = s.windows) {wl : Winlink}
    (hwl : wl ∈ s.windows)
    (hsel : SelectionOk { s₁ with windows := winlinkRemove s.windows wl.ptr })
    (hne : winlinkRemove s.windows wl.ptr ≠ []) :
    SessionsOk (sessionGroupSynchronizeFrom (sessionUnlink sv s₁ wl) s.id) := by
  have htree := h.trees.tree _ s hs
  have hid' : ({ s₁ with windows := winlinkRemove s.windows wl.ptr } : Session).id = s.id := hid
  refine h.follow hs hid' hname hopt hsel ?_ hne ?_ (sessionUnlink_groups sv s₁ wl)
    (unlink_find hs hid hw wl) fun m hm hsorted => ?_
  · have hsub := (winlinkRemove_sublist s.windows wl.ptr).map Winlink.window
    exact hsub.nodup (h.once _ s hs)
  · exact Shrink.treesOk (sessionUnlink_shrink (T := fun _ => True) (W := fun _ => True) trivial hs
      hid hname hopt hw wl) h.trees
  · exact covers_detached htree hsorted hm hwl hne

/-- The group of a session is destroyed whole. -/
theorem destroyAll_find (sg : List Nat) : ∀ {sv : Server},
    (∀ j ∈ sg, ∀ s, sessionFindById sv j = some s → s.curw ≠ none) → ∀ j,
      sessionFindById (sg.foldl sessionDestroy sv) j =
        if j ∈ sg then none else sessionFindById sv j := by
  induction sg with
  | nil => exact fun _ j => (if_neg List.not_mem_nil).symm
  | cons i sg ih =>
      intro sv hcur j
      have hone : ∀ j, sessionFindById (sessionDestroy sv i) j =
          if j = i then none else sessionFindById sv j := by
        intro j
        cases hi : sessionFindById sv i with
        | none =>
            have hsame : sessionDestroy sv i = sv := by
              unfold sessionDestroy
              rw [hi]
            rw [hsame]
            split
            · next he => rw [he, hi]
            · rfl
        | some s =>
            obtain rfl := sessionFindById_id hi
            exact sessionDestroy_find hi (hcur s.id List.mem_cons_self s hi) j
      rw [List.foldl_cons, ih fun k hk s hs => ?_, hone]
      · by_cases hj : j = i
        · simp [hj]
        · simp [hj]
      · rw [hone] at hs
        split at hs
        · cases hs
        · exact hcur k (List.mem_cons_of_mem _ hk) s hs

theorem destroyGroup_find {sv : Server} (hok : GroupsOk sv) {s : Nat}
    (hcur : ∀ j, InGroup sv s j → ∀ m, sessionFindById sv j = some m → m.curw ≠ none) (j : Nat)
    (m : Session) (hm : sessionFindById (serverDestroySessionGroup sv s) j = some m) :
    ¬ InGroup sv s j ∧ sessionFindById sv j = some m := by
  unfold serverDestroySessionGroup at hm
  cases hc : sessionGroupContains sv s with
  | none =>
      rw [hc] at hm
      have hone := destroyAll_find [s] (fun k hk m hm => by
        rw [List.mem_singleton.mp hk] at hm
        exact hcur s (.refl sv s) m hm) j
      rw [List.foldl_cons, List.foldl_nil] at hone
      simp only [hone, List.mem_singleton] at hm
      split at hm
      · cases hm
      · next hj =>
          refine ⟨fun hg => ?_, hm⟩
          rcases hg with he | ⟨sg, hsg, hs, -⟩
          · exact hj he
          · have hnot := List.find?_eq_none.mp hc sg hsg
            simp [hs] at hnot
  | some sg =>
      obtain ⟨hsg, hs⟩ := groupContains_some hc
      rw [hc] at hm
      simp only at hm
      rw [destroyAll_find sg fun k hk m hm => hcur k (.inr ⟨sg, hsg, hs, hk⟩) m hm] at hm
      split at hm
      · cases hm
      · next hj =>
          refine ⟨fun hg => hj ?_, hm⟩
          rcases hg with rfl | ⟨sg', hsg', hs', hj'⟩
          · exact hs
          · rw [hok.disjoint sg hsg sg' hsg' s hs hs']
            exact hj'

/-- **The last window leaves a session**, and its group is destroyed. -/
theorem SessionsOk.emptied {sv : Server} (h : SessionsOk sv) {s s₁ : Session}
    (hs : sessionFindById sv s.id = some s) (hid : s₁.id = s.id) (hname : s₁.name = s.name)
    (hopt : s₁.options = s.options) (hw : s₁.windows = s.windows) {wl : Winlink}
    (hwl : wl ∈ s.windows) (hcur : s₁.curw ≠ none) (hempty : winlinkRemove s.windows wl.ptr = []) :
    SessionsOk (serverDestroySessionGroup
      (sessionGroupSynchronizeFrom (sessionUnlink sv s₁ wl) s.id) s.id) := by
  have hfind := unlink_find hs hid hw wl
  have hself : sessionFindById (sessionUnlink sv s₁ wl)
      ({ s₁ with windows := winlinkRemove s.windows wl.ptr } : Session).id =
        some { s₁ with windows := winlinkRemove s.windows wl.ptr } := by
    rw [hfind]
    exact if_pos hid
  have hsync := syncFrom_empty hself hempty
  rw [show ({ s₁ with windows := winlinkRemove s.windows wl.ptr } : Session).id = s.id from hid]
    at hsync
  rw [hsync]
  have hrun : Shrink (fun _ => True) (fun _ => True) sv (sessionUnlink sv s₁ wl) :=
    sessionUnlink_shrink trivial hs hid hname hopt hw wl
  have hdestroy : Shrink (fun _ => True) (fun _ => True) (sessionUnlink sv s₁ wl)
      (serverDestroySessionGroup (sessionUnlink sv s₁ wl) s.id) :=
    destroyGroup_shrink fun _ _ => trivial
  have hin : ∀ i j, InGroup (sessionUnlink sv s₁ wl) i j ↔ InGroup sv i j := by
    intro i j
    simp only [InGroup, sessionUnlink_groups]
  have hgone := destroyGroup_find (Shrink.treesOk hrun h.trees).groups (s := s.id)
    fun j hg m hm => ?_
  · refine h.fewer (Shrink.treesOk (hrun.trans hdestroy) h.trees) (fun j m hm => ?_)
      fun i j hg => Shrink.inGroup (hrun.trans hdestroy) hg
    obtain ⟨hg, hm⟩ := hgone j m hm
    rw [hfind, if_neg fun he : j = s.id => hg (he ▸ .refl _ _)] at hm
    exact hm
  · -- the others still have the window, and a current one
    rw [hfind] at hm
    split at hm
    · obtain rfl := Option.some.inj hm
      exact hcur
    · intro hnone
      have hmap := (h.maps s.id j s m ((hin _ _).mp hg) hs hm).1
      have hnil := (h.selection j m hm).current.empty hnone
      rw [← indexMap_nil, ← hmap, indexMap_nil] at hnil
      exact absurd hwl (hnil ▸ List.not_mem_nil)

/-- What `session_detach` leaves of a session with another window. -/
theorem unlinked_selection {s : Session} (h : SelectionOk s)
    (hptrs : (s.windows.map Winlink.ptr).Nodup) {wl : Winlink}
    (hne : winlinkRemove s.windows wl.ptr ≠ []) : SelectionOk (unlinked s wl) := by
  unfold unlinked detachReady
  by_cases hcur : s.curw = some wl.ptr
  · simp only [if_pos hcur]
    obtain ⟨x, hx⟩ := List.exists_mem_of_ne_nil _ hne
    obtain ⟨hxs, hxne⟩ := mem_winlinkRemove.mp hx
    obtain ⟨y, -, hyne, hcurw⟩ := sessionLeaveCurrent_leaves hptrs hcur hxs hxne
    have hleft : (sessionLeaveCurrent s).curw ≠ some wl.ptr := by
      rw [hcurw]
      exact fun he => hyne (Option.some.inj he)
    have hremove := (sessionLeaveCurrent_selection h hptrs).remove hleft
    rw [(sessionLeaveCurrent_same s).windows] at hremove
    exact hremove
  · simp only [if_neg hcur]
    exact h.remove hcur

/-- The session itself, once its group follows it. -/
theorem unlinkSync_self {sv : Server} (hok : TreesOk sv) {s s₁ : Session}
    (hs : sessionFindById sv s.id = some s) (hid : s₁.id = s.id) (hname : s₁.name = s.name)
    (hopt : s₁.options = s.options) (hw : s₁.windows = s.windows) (wl : Winlink) :
    sessionFindById (sessionGroupSynchronizeFrom (sessionUnlink sv s₁ wl) s.id) s.id =
      some { s₁ with windows := winlinkRemove s.windows wl.ptr } := by
  have hfind := unlink_find hs hid hw wl s.id
  rw [if_pos rfl] at hfind
  have hid' : ({ s₁ with windows := winlinkRemove s.windows wl.ptr } : Session).id = s.id := hid
  generalize ({ s₁ with windows := winlinkRemove s.windows wl.ptr } : Session) = s₂ at hfind hid' ⊢
  rw [← hid'] at hfind ⊢
  by_cases hne : s₂.windows = []
  · rw [syncFrom_empty hfind hne]
    exact hfind
  · have htrees : TreesOk (sessionUnlink sv s₁ wl) :=
      Shrink.treesOk (sessionUnlink_shrink (T := fun _ => True) (W := fun _ => True) trivial hs hid
        hname hopt hw wl) hok
    rw [(syncFrom_find htrees hfind hne s₂.id).2 (.inl rfl)]
    exact hfind

/-- **`session_detach`**, with the group destroyed if that empties the session. -/
theorem SessionsOk.detach {sv : Server} (h : SessionsOk sv) {s : Session}
    (hs : sessionFindById sv s.id = some s) {wl : Winlink} (hwl : wl ∈ s.windows) :
    ((sessionDetach sv s.id wl).2 = false → SessionsOk (sessionDetach sv s.id wl).1) ∧
      ((sessionDetach sv s.id wl).2 = true →
        SessionsOk (serverDestroySessionGroup (sessionDetach sv s.id wl).1 s.id)) := by
  have hready := detachReady_same s wl
  have hself := unlinkSync_self h.trees hs hready.id hready.name hready.options hready.windows wl
  have htree := h.trees.tree _ s hs
  have hselection := h.selection _ s hs
  have hdetach : sessionDetach sv s.id wl =
      (sessionGroupSynchronizeFrom (sessionUnlink sv (detachReady s wl) wl) s.id,
        (winlinkRemove s.windows wl.ptr).isEmpty) := by
    unfold sessionDetach sessionEmpty
    simp only [hs, hself]
  rw [hdetach]
  simp only [List.isEmpty_eq_false_iff, List.isEmpty_iff]
  refine ⟨fun hne => ?_, fun hempty => ?_⟩
  · exact h.unlink hs hready.id hready.name hready.options hready.windows hwl
      (unlinked_selection hselection htree.ptrs hne) hne
  · refine h.emptied hs hready.id hready.name hready.options hready.windows hwl (fun hnone => ?_)
      hempty
    exact absurd (hselection.current.empty (hready.curw hnone)) (List.ne_nil_of_mem hwl)

theorem SessionsOk.unlinkWindow {sv : Server} (h : SessionsOk sv) {s : Session}
    (hs : sessionFindById sv s.id = some s) {wl : Winlink} (hwl : wl ∈ s.windows) :
    SessionsOk (serverUnlinkWindow sv s.id wl) := by
  obtain ⟨hleft, hempty⟩ := h.detach hs hwl
  unfold serverUnlinkWindow
  cases hdetach : sessionDetach sv s.id wl with
  | mk sv' empty =>
      rw [hdetach] at hleft hempty
      cases empty with
      | false => exact hleft rfl
      | true => exact hempty rfl

/-- The silent detach, of one of several windows. -/
theorem SessionsOk.detachSilent {sv : Server} (h : SessionsOk sv) {s : Session}
    (hs : sessionFindById sv s.id = some s) {wl : Winlink} (hwl : wl ∈ s.windows)
    (hne : winlinkRemove s.windows wl.ptr ≠ []) :
    SessionsOk (newmuxSessionDetachSilent sv s.id wl).1 := by
  obtain ⟨hid, hname, hopt, hw⟩ := detachSilentReady_fields s wl
  unfold newmuxSessionDetachSilent
  simp only [hs]
  exact h.unlink hs hid hname hopt hw hwl
    (detached_selection (h.selection _ s hs) (h.trees.tree _ s hs).ptrs hwl) hne

/-! ## Renumbering -/

theorem renumber_zip {ptr idx : Nat} {wwl : Winlinks} {p : Winlink × Winlink}
    (hp : p ∈ wwl.zip (renumber ptr idx wwl)) :
    p.2.window = p.1.window ∧ p.1 ∈ wwl ∧ p.2 ∈ renumber ptr idx wwl := by
  refine ⟨?_, List.of_mem_zip hp⟩
  induction wwl generalizing ptr idx with
  | nil => exact absurd hp List.not_mem_nil
  | cons wl wwl ih =>
      rw [renumber, List.zip_cons_cons] at hp
      rcases List.mem_cons.mp hp with rfl | hp
      · rfl
      · exact ih hp

/-- The new winlink of a window, found by the window's id. -/
def renumbered (s : Session) (ptr p : Nat) : Option Nat :=
  (winlinkAt s.windows p).bind fun wl =>
    (winlinkFindByWindow (renumber ptr s.options.baseIndex s.windows) wl.window).map Winlink.ptr

/-- A window that the session links once is found again, and no other is. -/
theorem renumbered_some {s : Session} {ptr p r : Nat} (h : renumbered s ptr p = some r) :
    ∃ x ∈ s.windows, x.ptr = p ∧ ∃ y ∈ renumber ptr s.options.baseIndex s.windows,
      y.ptr = r ∧ y.window = x.window := by
  unfold renumbered at h
  obtain ⟨x, hx, hy⟩ := Option.bind_eq_some_iff.mp h
  obtain ⟨y, hfind, rfl⟩ := Option.map_eq_some_iff.mp hy
  obtain ⟨hmem, hptr⟩ := winlinkAt_some hx
  obtain ⟨hymem, hwindow⟩ := findByWindow_some hfind
  exact ⟨x, hmem, hptr, y, hymem, rfl, hwindow⟩

theorem window_inj {s : Session} (honce : (Session.order s).Nodup) {x y : Winlink}
    (hx : x ∈ s.windows) (hy : y ∈ s.windows) (h : x.window = y.window) : x = y :=
  List.inj_on_of_nodup_map honce hx hy h

theorem renumbered_inj {s : Session} (honce : (Session.order s).Nodup) {ptr p q r : Nat}
    (hp : renumbered s ptr p = some r) (hq : renumbered s ptr q = some r) : p = q := by
  obtain ⟨x, hx, rfl, x', hx', hxptr, hxw⟩ := renumbered_some hp
  obtain ⟨y, hy, rfl, y', hy', hyptr, hyw⟩ := renumbered_some hq
  have hptrs := (TreeOk.renumber s.windows ptr s.options.baseIndex).ptrs
  have hsame : x' = y' := List.inj_on_of_nodup_map hptrs hx' hy' (hxptr.trans hyptr.symm)
  have hwindow : x.window = y.window := by rw [← hxw, hsame, hyw]
  rw [window_inj honce hx hy hwindow]

/-- **A renumbered session** points at its new winlinks as it did at the old ones. -/
theorem renumber_selection {s : Session} (h : SelectionOk s) (honce : (Session.order s).Nodup)
    (ptr : Nat) :
    SelectionOk (sessionRenumberWindows s ptr) := by
  have htree := TreeOk.renumber s.windows ptr s.options.baseIndex
  have hstack : (sessionRenumberWindows s ptr).lastw = s.lastw.filterMap (renumbered s ptr) := rfl
  refine ⟨renumber_current h.current ptr, fun p hp => ?_, ?_, fun p hp hin => ?_⟩
  · rw [hstack, List.mem_filterMap] at hp
    obtain ⟨q, -, hq⟩ := hp
    obtain ⟨-, -, -, y, hy, rfl, -⟩ := renumbered_some hq
    exact List.mem_map_of_mem hy
  · rw [hstack]
    exact h.once.filterMap fun p q r hp hq => renumbered_inj honce hp hq
  · -- the new current winlink is of the old one's window
    rw [hstack, List.mem_filterMap] at hin
    obtain ⟨q, hq, hqp⟩ := hin
    obtain ⟨x, hx, rfl, y, hy, hyp, hyw⟩ := renumbered_some hqp
    cases hc : s.curw with
    | none =>
        have hown := h.own _ hq
        rw [h.current.empty hc] at hown
        exact absurd hown List.not_mem_nil
    | some cur =>
        obtain ⟨c, hcmem, hcptr⟩ := List.mem_map.mp (h.current.member cur hc)
        cases hfound : (s.windows.zip (renumber ptr s.options.baseIndex s.windows)).find?
            (fun p => p.1.ptr == cur) with
        | none =>
            have hfst : (s.windows.zip (renumber ptr s.options.baseIndex s.windows)).map Prod.fst =
                s.windows := List.map_fst_zip (by simp)
            rw [← hfst] at hcmem
            obtain ⟨pair, hpair, rfl⟩ := List.mem_map.mp hcmem
            have hnot := List.find?_eq_none.mp hfound pair hpair
            exact absurd hcptr (by simpa using hnot)
        | some pair =>
            obtain ⟨hwindow, hfst, hsnd⟩ := renumber_zip (List.mem_of_find?_eq_some hfound)
            have hpair : pair.1.ptr = cur := by simpa using List.find?_some hfound
            have hcurw : (sessionRenumberWindows s ptr).curw = some pair.2.ptr := by
              simp only [sessionRenumberWindows, hc, hfound, Option.elim_some,
                htree.sorted.findByIndex hsnd, Option.map_some]
            have hsame : y = pair.2 := by
              refine List.inj_on_of_nodup_map htree.ptrs hy hsnd ?_
              rw [hyp]
              exact Option.some.inj (hp.symm.trans hcurw)
            have hold : x = pair.1 := window_inj honce hx hfst (by rw [← hyw, hsame, hwindow])
            refine h.other cur hc ?_
            rw [← hpair, ← hold]
            exact hq

theorem renumber_indexMap (ptr idx : Nat) (wwl : Winlinks) :
    (renumber ptr idx wwl).map (fun wl => (wl.idx, wl.window)) =
      (List.range' idx wwl.length).zip (wwl.map Winlink.window) := by
  induction wwl generalizing ptr idx with
  | nil => rfl
  | cons wl wwl ih =>
      rw [renumber, List.map_cons, ih, List.length_cons, List.range'_succ, List.map_cons,
        List.zip_cons_cons]

/-- Sessions with one order and one base have one map once they are renumbered. -/
theorem renumbered_maps {a b : Session} (hmap : indexMap a = indexMap b)
    (hbase : a.options.baseIndex = b.options.baseIndex) (p q : Nat) :
    indexMap (sessionRenumberWindows a p) = indexMap (sessionRenumberWindows b q) := by
  have horder : a.windows.map Winlink.window = b.windows.map Winlink.window := by
    have h := congrArg (List.map Prod.snd) hmap
    rwa [← order_indexMap, ← order_indexMap] at h
  have hlength : a.windows.length = b.windows.length := by
    simpa using congrArg List.length horder
  unfold indexMap sessionRenumberWindows
  simp only [renumber_indexMap, hlength, horder, hbase]

theorem renumberMember_find (sv : Server) (m j : Nat) :
    sessionFindById (renumberMember sv m) j =
      if j = m then (sessionFindById sv j).map fun s => sessionRenumberWindows s sv.nextPtr
      else sessionFindById sv j := by
  unfold renumberMember
  cases hm : sessionFindById sv m with
  | none =>
      simp only
      split
      · next hj => rw [hj, hm, Option.map_none]
      · rfl
  | some mem =>
      have hid := sessionFindById_id hm
      subst hid
      have hid : (sessionRenumberWindows mem sv.nextPtr).id = mem.id := rfl
      simp only
      change sessionFindById (sv.setSession _) j = _
      rw [sessionFindById_set hid hm]
      split
      · next hj => rw [hj, hm, Option.map_some]
      · rfl

theorem renumberAll_find (ms : List Nat) : ∀ {sv : Server}, ms.Nodup → ∀ j, ∃ ptr,
    sessionFindById (ms.foldl renumberMember sv) j =
      if j ∈ ms then (sessionFindById sv j).map fun s => sessionRenumberWindows s ptr
      else sessionFindById sv j := by
  induction ms with
  | nil => exact fun _ j => ⟨0, (if_neg List.not_mem_nil).symm⟩
  | cons m ms ih =>
      intro sv hnd j
      rw [List.nodup_cons] at hnd
      obtain ⟨ptr, hrest⟩ := @ih (renumberMember sv m) hnd.2 j
      rw [List.foldl_cons, hrest, renumberMember_find]
      by_cases hj : j = m
      · refine ⟨sv.nextPtr, ?_⟩
        rw [if_neg (hj ▸ hnd.1), if_pos hj, if_pos (hj ▸ List.mem_cons_self)]
      · refine ⟨ptr, ?_⟩
        simp [hj]

/-- **Renumbering a session and its group.** -/
theorem SessionsOk.renumber {sv : Server} (h : SessionsOk sv) (s : Nat) :
    SessionsOk (serverRenumberSession sv s) := by
  have hrun : Shrink (fun _ => True) (fun _ => True) sv (serverRenumberSession sv s) :=
    renumberSession_shrink fun _ _ => trivial
  have htrees := Shrink.treesOk hrun h.trees
  have hgroup : ∀ i j, InGroup (serverRenumberSession sv s) i j → InGroup sv i j :=
    fun i j hg => Shrink.inGroup hrun hg
  revert htrees hgroup
  unfold serverRenumberSession
  cases hs : sessionFindById sv s with
  | none => exact fun _ _ => h
  | some ses =>
      simp only
      split
      · intro htrees hgroup
        -- the members of the group, or the session alone
        obtain ⟨ms, hms, hnd, hin⟩ : ∃ ms, (sessionGroupContains sv s).getD [s] = ms ∧ ms.Nodup ∧
            ∀ i j, InGroup sv i j → (i ∈ ms ↔ j ∈ ms) := by
          refine ⟨_, rfl, ?_, fun i j hg => ?_⟩
          · cases hc : sessionGroupContains sv s with
            | none => exact List.nodup_singleton s
            | some sg => exact h.trees.groups.nodup sg (groupContains_some hc).1
          · cases hc : sessionGroupContains sv s with
            | none =>
                have hnone : ∀ sg ∈ sv.groups, s ∉ sg := fun sg hsg hin => by
                  have := List.find?_eq_none.mp hc sg hsg
                  simp [hin] at this
                rcases hg with rfl | ⟨sg, hsg, hi, hj⟩
                · exact Iff.rfl
                · simp only [Option.getD_none, List.mem_singleton]
                  exact iff_of_false (fun he => hnone sg hsg (he ▸ hi))
                    fun he => hnone sg hsg (he ▸ hj)
            | some sg =>
                obtain ⟨hsg, -⟩ := groupContains_some hc
                rcases hg with rfl | ⟨sg', hsg', hi, hj⟩
                · exact Iff.rfl
                · simp only [Option.getD_some]
                  constructor
                  · intro hin
                    rw [h.trees.groups.disjoint sg hsg sg' hsg' i hin hi]
                    exact hj
                  · intro hin
                    rw [h.trees.groups.disjoint sg hsg sg' hsg' j hin hj]
                    exact hi
        rw [hms] at htrees hgroup ⊢
        have hall : ∀ j m, sessionFindById (ms.foldl renumberMember sv) j = some m →
            ∃ a, sessionFindById sv j = some a ∧
              ((∃ ptr, j ∈ ms ∧ m = sessionRenumberWindows a ptr) ∨ j ∉ ms ∧ m = a) := by
          intro j m hm
          obtain ⟨ptr, hfind⟩ := @renumberAll_find ms sv hnd j
          rw [hfind] at hm
          split at hm
          · next hj =>
              obtain ⟨a, ha, rfl⟩ := Option.map_eq_some_iff.mp hm
              exact ⟨a, ha, .inl ⟨ptr, hj, rfl⟩⟩
          · next hj => exact ⟨m, hm, .inr ⟨hj, rfl⟩⟩
        refine ⟨htrees, fun j m hm => ?_, fun j m hm => ?_, fun j m hm hname => ?_,
          fun i j a b hg ha hb => ?_⟩
        · obtain ⟨a, ha, ⟨ptr, -, rfl⟩ | ⟨-, rfl⟩⟩ := hall j m hm
          · exact renumber_selection (h.selection j a ha) (h.once j a ha) ptr
          · exact h.selection j m ha
        · obtain ⟨a, ha, ⟨ptr, -, rfl⟩ | ⟨-, rfl⟩⟩ := hall j m hm
          · change ((Newmux.Tmux.renumber ptr a.options.baseIndex a.windows).map
              Winlink.window).Nodup
            rw [renumber_windows]
            exact h.once j a ha
          · exact h.once j m ha
        · obtain ⟨a, ha, ⟨ptr, -, rfl⟩ | ⟨-, rfl⟩⟩ := hall j m hm
          · have hne := h.linked j a ha hname
            intro hnil
            have hlength : (Newmux.Tmux.renumber ptr a.options.baseIndex a.windows).length = 0 :=
              congrArg List.length hnil
            rw [renumber_length] at hlength
            exact hne (List.length_eq_zero_iff.mp hlength)
          · exact h.linked j m ha hname
        · have hold := hgroup i j hg
          obtain ⟨a', ha', hi⟩ := hall i a ha
          obtain ⟨b', hb', hj⟩ := hall j b hb
          obtain ⟨hmap, hbase⟩ := h.maps i j a' b' hold ha' hb'
          rcases hi with ⟨p, hi, rfl⟩ | ⟨hi, rfl⟩ <;> rcases hj with ⟨q, hj, rfl⟩ | ⟨hj, rfl⟩
          · exact ⟨renumbered_maps hmap hbase p q, hbase⟩
          · exact absurd ((hin i j hold).mp hi) hj
          · exact absurd ((hin i j hold).mpr hj) hi
          · exact ⟨hmap, hbase⟩
      · exact fun _ _ => h

/-! ## Killing and selecting -/

/-- The detaches of a kill, of every winlink to the window. -/
theorem SessionsOk.killLoop (w : Nat) : ∀ (fuel : Nat) {sv : Server}, SessionsOk sv → ∀ s : Nat,
    SessionsOk (Newmux.Tmux.killLoop w fuel sv s) := by
  intro fuel
  induction fuel with
  | zero => exact fun h _ => h
  | succ fuel ih =>
      intro sv h s
      unfold Newmux.Tmux.killLoop
      cases hs : sessionFindById sv s with
      | none => exact h
      | some ses =>
          obtain rfl := sessionFindById_id hs
          simp only [Option.bind_some]
          cases hwl : winlinkFindByWindow ses.windows w with
          | none => exact h
          | some wl =>
              obtain ⟨hleft, hempty⟩ := h.detach hs (findByWindow_some hwl).1
              simp only
              cases hdetach : sessionDetach sv ses.id wl with
              | mk sv' empty =>
                  rw [hdetach] at hleft hempty
                  cases empty with
                  | false => exact ih (hleft rfl) ses.id
                  | true => exact hempty rfl

theorem SessionsOk.killIn {sv : Server} (h : SessionsOk sv) (w : Nat) (renumber : Bool)
    (s : Nat) : SessionsOk (Newmux.Tmux.killIn w renumber sv s) := by
  unfold Newmux.Tmux.killIn
  cases hs : sessionFindById sv s with
  | none => exact h
  | some ses =>
      simp only
      split
      · have hloop := (h.kept (windowUnzoom_kept sv w)).killLoop w ses.windows.length s
        split
        · exact hloop.renumber s
        · exact hloop
      · exact h

/-- **Killing a window**, in every session that links it. -/
theorem SessionsOk.killWindow {sv : Server} (h : SessionsOk sv) (w : Nat) (renumber : Bool) :
    SessionsOk (serverKillWindow sv w renumber) := by
  unfold serverKillWindow
  generalize sv.sessions.map Session.id = ids
  induction ids generalizing sv with
  | nil => exact h
  | cons s ids ih => exact ih (h.killIn w renumber s)

theorem SessionsOk.select {sv : Server} (h : SessionsOk sv) (s idx : Nat) :
    SessionsOk (serverSessionSelect sv s idx) := by
  unfold serverSessionSelect
  cases hs : sessionFindById sv s with
  | none => exact h
  | some ses =>
      obtain rfl := sessionFindById_id hs
      exact h.move hs (sessionSelect_same ses idx)
        (sessionSetCurrent_selection_of (h.selection _ ses hs) fun wl hwl =>
          (findByIndex_some hwl).1)

end Newmux.Theorems
