import Newmux.Base.TSys
import Newmux.Logic.Selection
import Newmux.Logic.Tabs

/-!
# Silent detaches and attaches

Windows go into a session and out of it without notifications, and the other
members of its group are rebuilt after each. A member that has windows then has
a current window and a stack of its own, and the map of the session. A session
that has lost its last window is not followed by its group any more: it is about
to be destroyed.
-/

namespace Newmux.Theorems

open Newmux.Base Newmux.Tmux Newmux.Recovery Newmux.Logic

/-! ## Runs -/

inductive SilentMove where
  | detach (wl : Winlink)
  | attach (w : Nat) (idx : Int)

/-- A session of the group of `s`. -/
structure Member (s : Nat) (sv : Server) (j : Nat) (m : Session) : Prop where
  group : InGroup sv s j
  find : sessionFindById sv j = some m

/-- Detaches of the winlinks of a session and attaches of windows to it; at first
every member points at its own winlinks, and all have one map. -/
def silentMoves (s : Nat) : TSys Server SilentMove where
  init sv := TreesOk sv ∧ (∀ j m, Member s sv j m → SelectionOk m) ∧
    ∀ i a j b, Member s sv i a → Member s sv j b → indexMap a = indexMap b
  step sv l sv' := match l with
    | .detach wl => (∃ ses, sessionFindById sv s = some ses ∧ wl ∈ ses.windows) ∧
        sv' = (newmuxSessionDetachSilent sv s wl).1
    | .attach w idx => sv' = (newmuxSessionAttachSilent sv s w idx).1

theorem detach_step {s : Nat} {sv : Server} {ses : Session} {wl : Winlink}
    (hs : sessionFindById sv s = some ses) (hwl : wl ∈ ses.windows) :
    (silentMoves s).step sv (.detach wl) (newmuxSessionDetachSilent sv s wl).1 :=
  ⟨⟨ses, hs, hwl⟩, rfl⟩

theorem attach_step (s : Nat) (sv : Server) (w : Nat) (idx : Int) :
    (silentMoves s).step sv (.attach w idx) (newmuxSessionAttachSilent sv s w idx).1 := rfl

/-- The index an attach asks for in an empty session. -/
def askedIndex (idx : Int) : Nat := if idx < 0 then (-idx - 1).toNat else idx.toNat

/-- A window that comes into a session that is empty, and has a group that is not,
comes to an index the others have. -/
def FollowsGroup (s : Nat) (sv : Server) : SilentMove → Prop
  | .detach _ => True
  | .attach _ idx => ∀ ses, sessionFindById sv s = some ses → ses.windows = [] →
      ∀ j m, Member s sv j m → m.windows ≠ [] → ∃ x ∈ m.windows, x.idx = askedIndex idx

/-- What every member is to keep. -/
structure GroupOk (s : Nat) (sv : Server) : Prop where
  selection : ∀ j m, Member s sv j m → m.windows ≠ [] → SelectionOk m
  same : ∀ i a j b, Member s sv i a → Member s sv j b → indexMap a = indexMap b

/-- What the members that still have windows keep. -/
structure LiveGroupOk (s : Nat) (sv : Server) : Prop where
  selection : ∀ j m, Member s sv j m → m.windows ≠ [] → SelectionOk m
  same : ∀ i a j b, Member s sv i a → Member s sv j b → a.windows ≠ [] → b.windows ≠ [] →
    indexMap a = indexMap b

/-! ## One synchronization -/

/-- An empty session is not followed. -/
theorem syncFrom_empty {sv : Server} {t : Session} (ht : sessionFindById sv t.id = some t)
    (hempty : t.windows = []) : sessionGroupSynchronizeFrom sv t.id = sv := by
  have hone : ∀ m, sessionGroupSynchronize1 sv t.id m = sv := by
    intro m
    unfold sessionGroupSynchronize1
    rw [ht]
    cases sessionFindById sv m with
    | none => rfl
    | some a => simp [hempty]
  unfold sessionGroupSynchronizeFrom
  cases sessionGroupContains sv t.id with
  | none => rfl
  | some sg =>
      simp only
      generalize sg.filter (· != t.id) = ms
      induction ms with
      | nil => rfl
      | cons m ms ih => rw [List.foldl_cons, hone, ih]

/-- The members follow a session that covers them. -/
theorem follow_selection {sv : Server} (hok : TreesOk sv) {t : Session}
    (ht : sessionFindById sv t.id = some t) (hne : t.windows ≠ []) (hsel : SelectionOk t)
    (hmembers : ∀ j m, j ≠ t.id → Member t.id sv j m → SelectionOk m ∧ Covers t m)
    {j : Nat} {m : Session} (hg : InGroup sv t.id j)
    (hm : sessionFindById (sessionGroupSynchronizeFrom sv t.id) j = some m) :
    SelectionOk m ∧ indexMap m = indexMap t := by
  obtain ⟨hother, hself⟩ := syncFrom_find hok ht hne j
  by_cases hj : j = t.id
  · rw [hself (.inl hj), hj, ht] at hm
    obtain rfl := Option.some.inj hm
    exact ⟨hsel, rfl⟩
  · obtain ⟨ptr, -, hfind⟩ := hother hj hg
    rw [hfind, Option.map_eq_some_iff] at hm
    obtain ⟨a, ha, rfl⟩ := hm
    obtain ⟨hasel, hcovers⟩ := hmembers j a hj ⟨hg, ha⟩
    exact ⟨synchronizeLinks_selection hsel (hok.tree _ _ ht) hne hasel (hok.tree _ _ ha) hcovers
      ptr, synchronizeLinks_indexMap t a ptr⟩

/-! ## The invariant -/

/-- The members other than `s` have one map; `s` has it too, or it is empty, and
they have no more than the window it lost. -/
structure InStep (s : Nat) (sv : Server) : Prop where
  trees : TreesOk sv
  selection : ∀ j m, Member s sv j m → SelectionOk m
  maps : ∃ M, (∀ j m, j ≠ s → Member s sv j m → indexMap m = M) ∧
    ∀ ses, sessionFindById sv s = some ses →
      indexMap ses = M ∨ ses.windows = [] ∧ M.length ≤ 1

theorem InStep.liveGroupOk {s : Nat} {sv : Server} (h : InStep s sv) : LiveGroupOk s sv := by
  obtain ⟨M, hothers, hself⟩ := h.maps
  have hmap : ∀ j m, Member s sv j m → m.windows ≠ [] → indexMap m = M := by
    intro j m hm hne
    by_cases hj : j = s
    · rcases hself m (hj ▸ hm.find) with hM | ⟨hempty, -⟩
      · exact hM
      · exact absurd hempty hne
    · exact hothers j m hj hm
  exact ⟨fun j m hm _ => h.selection j m hm, fun i a j b ha hb hane hbne =>
    (hmap i a ha hane).trans (hmap j b hb hbne).symm⟩

/-! ## A detach -/

/-- A member with the map of a session covers it less one window, if that is not
the only one. -/
theorem covers_detached {s m : Session} {n : Nat} (hs : TreeOk n s.windows)
    (hm : Sorted m.windows) (hmap : indexMap m = indexMap s) {wl : Winlink} (hwl : wl ∈ s.windows)
    (hne : (detached s wl).windows ≠ []) : Covers (detached s wl) m := by
  obtain ⟨lost, hlost, hlostIdx⟩ := idx_mem_of_indexMap hmap.symm hwl
  have hwindows : (detached s wl).windows = winlinkRemove s.windows wl.ptr := rfl
  refine .inr ⟨lost, hlost, ?_, fun x hx hxlost => ?_⟩
  · obtain ⟨y, hy⟩ := List.exists_mem_of_ne_nil _ hne
    obtain ⟨hys, hyptr⟩ := mem_winlinkRemove.mp (hwindows ▸ hy)
    obtain ⟨x, hx, hxidx⟩ := idx_mem_of_indexMap hmap.symm hys
    refine ⟨x, hx, fun heq => hyptr ?_⟩
    have hidx : y.idx = wl.idx := by rw [← hxidx, heq, hlostIdx]
    rw [hs.sorted.eq_of_idx hys hwl hidx]
  · obtain ⟨y, hy, hyidx⟩ := idx_mem_of_indexMap hmap hx
    refine ⟨y, ?_, hyidx⟩
    rw [hwindows]
    refine mem_winlinkRemove.mpr ⟨hy, fun heq => hxlost ?_⟩
    have hsame : y = wl := List.inj_on_of_nodup_map hs.ptrs hy hwl heq
    exact hm.eq_of_idx hx hlost (by rw [← hyidx, hsame, hlostIdx])

/-- The sessions once the winlink is out of its tree. -/
theorem detachSilent_find {sv : Server} {s : Session} (hs : sessionFindById sv s.id = some s)
    (wl : Winlink) (j : Nat) :
    sessionFindById (sessionUnlink sv (detachSilentReady s wl) wl) j =
      if j = s.id then some (detached s wl) else sessionFindById sv j := by
  obtain ⟨hid, -, -, hw⟩ := detachSilentReady_fields s wl
  have hdid : (detached s wl).id = s.id := hid
  unfold sessionUnlink
  rw [(windowRemoveRef_kept _ _).find, hw]
  exact sessionFindById_set hdid hs

/-- **One detach** keeps the group in step, or empties the session. -/
theorem InStep.detach {sv : Server} {s : Session} (h : InStep s.id sv)
    (hs : sessionFindById sv s.id = some s) {wl : Winlink} (hwl : wl ∈ s.windows) :
    InStep s.id (newmuxSessionDetachSilent sv s.id wl).1 := by
  obtain ⟨hid, hname, hopt, hw⟩ := detachSilentReady_fields s wl
  obtain ⟨M, hothers, hself⟩ := h.maps
  have hM : indexMap s = M := (hself s hs).resolve_right fun hempty =>
    absurd hwl (hempty.1 ▸ List.not_mem_nil)
  have htree := h.trees.tree _ s hs
  have hselection := h.selection s.id s ⟨.refl sv s.id, hs⟩
  have hdetached := detached_selection hselection htree.ptrs hwl
  have hdid : (detached s wl).id = s.id := hid
  have hfind := detachSilent_find hs wl
  have hunlinked : sessionFindById (sessionUnlink sv (detachSilentReady s wl) wl)
      (detached s wl).id = some (detached s wl) := by
    rw [hfind, if_pos hdid]
  have htrees := Shrink.treesOk (sessionUnlink_shrink (T := fun _ => True) (W := fun _ => True)
    trivial hs hid hname hopt hw wl) h.trees
  have hgroups := sessionUnlink_groups sv (detachSilentReady s wl) wl
  have hdetach : (newmuxSessionDetachSilent sv s.id wl).1 =
      sessionGroupSynchronizeFrom (sessionUnlink sv (detachSilentReady s wl) wl)
        (detached s wl).id := by
    unfold newmuxSessionDetachSilent
    simp only [hs, hdid]
  have hmember : ∀ j m, j ≠ s.id →
      Member s.id (sessionUnlink sv (detachSilentReady s wl) wl) j m → Member s.id sv j m := by
    intro j m hj hm
    refine ⟨by simpa only [InGroup, hgroups] using hm.group, ?_⟩
    rw [← hm.find, hfind, if_neg hj]
  by_cases hempty : (detached s wl).windows = []
  · -- the group does not follow
    rw [hdetach, syncFrom_empty hunlinked hempty]
    have hfound : ∀ ses, sessionFindById (sessionUnlink sv (detachSilentReady s wl) wl) s.id =
        some ses → ses = detached s wl := by
      intro ses hses
      rw [hfind, if_pos rfl] at hses
      exact (Option.some.inj hses).symm
    refine ⟨htrees, fun j m hm => ?_, M, fun j m hj hm => hothers j m hj (hmember j m hj hm),
      fun ses hses => .inr ⟨?_, ?_⟩⟩
    · by_cases hj : j = s.id
      · rw [hfound m (hj ▸ hm.find)]
        exact hdetached
      · exact h.selection j m (hmember j m hj hm)
    · rw [hfound ses hses]
      exact hempty
    · have hperm := winlinkRemove_perm htree.ptrs hwl
      rw [show winlinkRemove s.windows wl.ptr = [] from hempty] at hperm
      rw [← hM, indexMap, List.length_map, hperm.length_eq]
      exact le_rfl
  · -- the group follows
    have hrun : Shrink (fun _ => True) (fun _ => True) sv
        (newmuxSessionDetachSilent sv s.id wl).1 := detachSilent_shrink wl fun _ _ => trivial
    have hfollow : ∀ j m, Member s.id (newmuxSessionDetachSilent sv s.id wl).1 j m →
        SelectionOk m ∧ indexMap m = indexMap (detached s wl) := by
      intro j m hm
      have hg : InGroup (sessionUnlink sv (detachSilentReady s wl) wl) (detached s wl).id j := by
        simpa only [InGroup, hgroups, hdid] using Shrink.inGroup hrun hm.group
      refine follow_selection htrees hunlinked hempty hdetached (fun i a hi ha => ?_) hg
        (hdetach ▸ hm.find)
      have ha' : Member s.id sv i a := hmember i a (hdid ▸ hi) (hdid ▸ ha)
      exact ⟨h.selection i a ha', covers_detached htree (h.trees.tree _ a ha'.find).sorted
        ((hothers i a (hdid ▸ hi) ha').trans hM.symm) hwl hempty⟩
    exact ⟨Shrink.treesOk hrun h.trees, fun j m hm => (hfollow j m hm).1, indexMap (detached s wl),
      fun j m _ hm => (hfollow j m hm).2,
      fun ses hses => .inl (hfollow s.id ses ⟨.refl _ _, hses⟩).2⟩

/-! ## An attach -/

/-- In an empty session the index that is asked for is free. -/
theorem winlinkAdd_nil {idx : Int} {ptr w : Nat} {wl : Winlink} {wwl : Winlinks}
    (h : winlinkAdd [] idx ptr w = some (wl, wwl)) : wl.idx = askedIndex idx := by
  have hnext : ∀ i, winlinkNextIndex [] i = some i := fun i => rfl
  unfold winlinkAdd at h
  unfold askedIndex
  split at h
  · next hneg =>
    rw [hnext] at h
    simp only [Option.some.injEq, Prod.mk.injEq] at h
    rw [if_pos hneg, ← h.1]
  · next hpos =>
    simp only [winlinkFindByIndex, List.find?_nil, Option.isSome_none, Bool.false_eq_true,
      if_false, Option.some.injEq, Prod.mk.injEq] at h
    rw [if_neg hpos, ← h.1]

/-- A member of the group is covered by the session with its new window. -/
theorem covers_linked {sv : Server} {s m : Session} {M : List (Nat × Nat)}
    (hself : indexMap s = M ∨ s.windows = [] ∧ M.length ≤ 1) (hm : indexMap m = M)
    {w : Nat} {idx : Int} {wl : Winlink} {wwl : Winlinks}
    (hadd : winlinkAdd s.windows idx sv.nextPtr w = some (wl, wwl))
    (hfollows : s.windows = [] → m.windows ≠ [] → ∃ x ∈ m.windows, x.idx = askedIndex idx) :
    Covers (linkedSession s wl wwl) m := by
  obtain ⟨-, -, -, htree, -⟩ := winlinkAdd_some hadd
  refine .inl fun x hx => ?_
  rw [(linkedSession_fields s wl wwl).2.2.2, htree]
  rcases hself with hsame | ⟨hempty, hone⟩
  · obtain ⟨y, hy, hyidx⟩ := idx_mem_of_indexMap (hm.trans hsame.symm) hx
    exact ⟨y, mem_rbInsert.mpr (.inr hy), hyidx⟩
  · obtain ⟨x', hx', hidx⟩ := hfollows hempty (List.ne_nil_of_mem hx)
    have hlength : m.windows.length ≤ 1 := by
      rw [← hm, indexMap, List.length_map] at hone
      exact hone
    have hsame : x = x' := by
      obtain ⟨a, ha⟩ := List.length_eq_one_iff.mp
        (le_antisymm hlength (List.length_pos_of_mem hx))
      rw [ha, List.mem_singleton] at hx hx'
      rw [hx, hx']
    refine ⟨wl, mem_rbInsert.mpr (.inl rfl), ?_⟩
    rw [hempty] at hadd
    rw [winlinkAdd_nil hadd, hsame, hidx]

/-- **One attach** keeps the group in step, if the group can follow. -/
theorem InStep.attach {sv : Server} {s : Session} (h : InStep s.id sv)
    (hs : sessionFindById sv s.id = some s) {w : Nat} {idx : Int}
    (hfollows : FollowsGroup s.id sv (.attach w idx)) :
    InStep s.id (newmuxSessionAttachSilent sv s.id w idx).1 := by
  obtain ⟨M, hothers, hself⟩ := h.maps
  have hselection := h.selection s.id s ⟨.refl sv s.id, hs⟩
  have htrees' := attachSilent_treesOk h.trees s.id w idx
  have hout := attachSilent_outcome hs w idx
  generalize newmuxSessionAttachSilent sv s.id w idx = r at hout htrees' ⊢
  cases hout with
  | error cause hnone => exact h
  | ok wl wwl hadd =>
      have hadd' : winlinkAdd s.windows idx sv.nextPtr w = some (wl, wwl) := hadd
      obtain ⟨-, -, -, htree, -⟩ := winlinkAdd_some hadd'
      have hroom := roomMade_of_add hadd'
      obtain ⟨hid, hname, -, hw⟩ := linkedSession_fields s wl wwl
      have hfind := linkedServer_find hs wl wwl
      have hlinkedTrees : TreesOk (linkedServer sv s wl wwl) :=
        relinked_treesOk h.trees hs hid hname (hw.symm ▸ hroom)
      have hlinked := linkedSession_selection hselection
        (htree ▸ mem_rbInsert.mpr (.inl rfl) : wl ∈ wwl)
        fun x hx => htree ▸ mem_rbInsert.mpr (.inr hx)
      have hne : (linkedSession s wl wwl).windows ≠ [] := by
        rw [hw, htree]
        exact List.ne_nil_of_mem (mem_rbInsert.mpr (.inl rfl))
      have hself' : sessionFindById (linkedServer sv s wl wwl) (linkedSession s wl wwl).id =
          some (linkedSession s wl wwl) := by
        rw [hfind, if_pos hid]
      have hattached : attached sv s wl wwl =
          sessionGroupSynchronizeFrom (linkedServer sv s wl wwl) (linkedSession s wl wwl).id := by
        rw [hid]
        rfl
      have hrun : Shrink (fun _ => True) (fun _ => True) (linkedServer sv s wl wwl)
          (attached sv s wl wwl) := syncFrom_shrink fun _ _ => trivial
      -- the other members are rebuilt from the session
      have hfollow : ∀ j m, Member s.id (attached sv s wl wwl) j m →
          SelectionOk m ∧ indexMap m = indexMap (linkedSession s wl wwl) := by
        intro j m hm
        have hg : InGroup (linkedServer sv s wl wwl) (linkedSession s wl wwl).id j :=
          hid.symm ▸ Shrink.inGroup hrun hm.group
        refine follow_selection hlinkedTrees hself' hne hlinked (fun i a hi ha => ?_) hg
          (hattached ▸ hm.find)
        rw [hid] at hi ha
        have ha' : Member s.id sv i a := ⟨ha.group, by rw [← ha.find, hfind, if_neg hi]⟩
        exact ⟨h.selection i a ha', covers_linked (hself s hs) (hothers i a hi ha') hadd'
          fun hempty hane => hfollows s hs hempty i a ha' hane⟩
      exact ⟨htrees', fun j m hm => (hfollow j m hm).1, indexMap (linkedSession s wl wwl),
        fun j m _ hm => (hfollow j m hm).2,
        fun ses hses => .inl (hfollow s.id ses ⟨.refl _ _, hses⟩).2⟩

/-! ## A run -/

theorem inStep_inductive (s : Nat) :
    (silentMoves s).Inductive (FollowsGroup s) (InStep s) where
  init sv := by
    rintro ⟨htrees, hselection, hsame⟩
    refine ⟨htrees, hselection, ?_⟩
    by_cases hex : ∃ i a, Member s sv i a
    · obtain ⟨i, a, ha⟩ := hex
      exact ⟨indexMap a, fun j m _ hm => hsame j m i a hm ha,
        fun ses hs => .inl (hsame s ses i a ⟨.refl _ _, hs⟩ ha)⟩
    · exact ⟨[], fun j m _ hm => absurd ⟨j, m, hm⟩ hex,
        fun ses hs => absurd ⟨s, ses, .refl _ _, hs⟩ hex⟩
  step sv l sv' h hfollows hstep := by
    cases l with
    | detach wl =>
        obtain ⟨⟨ses, hs, hwl⟩, rfl⟩ := hstep
        obtain rfl := sessionFindById_id hs
        exact h.detach hs hwl
    | attach w idx =>
        obtain rfl : sv' = (newmuxSessionAttachSilent sv s w idx).1 := hstep
        cases hs : sessionFindById sv s with
        | none =>
            have hnone : (newmuxSessionAttachSilent sv s w idx).1 = sv := by
              unfold newmuxSessionAttachSilent
              rw [hs]
            rw [hnone]
            exact h
        | some ses =>
            obtain rfl := sessionFindById_id hs
            exact h.attach hs hfollows

/-- **A run of silent detaches and attaches**: every member of the group that has
windows points at its own, and all of these have one map, as long as no window
comes to an emptied session at an index the others do not have. -/
theorem silentMoves_keep_group (s : Nat) {sv : Server}
    (hreach : (silentMoves s).ReachableWith (FollowsGroup s) sv) : LiveGroupOk s sv :=
  ((inStep_inductive s).invariant hreach).liveGroupOk

/-! ## Two sessions of one window -/

/-- A second session in the group of the tabs' one. -/
def pairSession : Session :=
  { id := 1, name := "newmux-tab", curw := some 1, lastw := [], windows := [⟨1, 0, 0⟩],
    options := ⟨0, false⟩ }

def pairServer : Server :=
  { tabServer 1 with
    sessions := [tabSession 1, pairSession], groups := [[0, 1]], nextSessionId := 2, nextPtr := 2 }

theorem pairServer_find {j : Nat} {m : Session} (h : sessionFindById pairServer j = some m) :
    m = tabSession 1 ∨ m = pairSession := by
  have hmem : m ∈ [tabSession 1, pairSession] := Table.find_some_mem h
  simpa using hmem

theorem pairServer_treesOk : TreesOk pairServer := by
  refine ⟨show List.Nodup _ by decide, by decide, by decide, fun j m hm => ?_,
    ⟨by decide, by decide⟩⟩
  rcases pairServer_find hm with rfl | rfl
  · exact ⟨by decide, by decide, by decide⟩
  · exact ⟨by decide, by decide, by decide⟩

theorem pairServer_init : (silentMoves 0).init pairServer := by
  refine ⟨pairServer_treesOk, fun j m hm => ?_, fun i a j b ha hb => ?_⟩
  · rcases pairServer_find hm.find with rfl | rfl
    · exact ⟨⟨by simp [tabSession], by simp [tabSession]⟩, by simp [tabSession], by simp [tabSession],
        by simp [tabSession]⟩
    · exact ⟨⟨by simp [pairSession], by simp [pairSession]⟩, by simp [pairSession],
        by simp [pairSession], by simp [pairSession]⟩
  · rcases pairServer_find ha.find with rfl | rfl <;>
      rcases pairServer_find hb.find with rfl | rfl <;> rfl

/-- The session attaches a second window and detaches its first. -/
theorem pair_keeps_group :
    LiveGroupOk 0 (newmuxSessionDetachSilent (newmuxSessionAttachSilent pairServer 0 0 3).1 0
      ⟨0, 0, 0⟩).1 := by
  have hfollows : FollowsGroup 0 pairServer (.attach 0 3) := by
    intro ses hs hempty
    have hses : ses = tabSession 1 := (Option.some.inj hs).symm
    rw [hses] at hempty
    exact absurd hempty (by decide)
  have hattach := TSys.ReachableWith.step (.init pairServer_init) hfollows
    (attach_step 0 pairServer 0 3)
  obtain ⟨ses, hs, hwl⟩ : ∃ ses, sessionFindById (newmuxSessionAttachSilent pairServer 0 0 3).1 0 =
      some ses ∧ ⟨0, 0, 0⟩ ∈ ses.windows := ⟨_, rfl, by decide⟩
  have hdetach : FollowsGroup 0 (newmuxSessionAttachSilent pairServer 0 0 3).1
      (.detach ⟨0, 0, 0⟩) := trivial
  exact silentMoves_keep_group 0 (.step hattach hdetach (detach_step hs hwl))

/-- The session detaches its only window: its map is empty, the other's is not.
When it attaches one at another index, the other is left without a current
window. -/
theorem emptied_session_strands_group :
    (∃ sv a b, (silentMoves 0).Reachable sv ∧ Member 0 sv 0 a ∧ Member 0 sv 1 b ∧
      indexMap a ≠ indexMap b) ∧
      (∃ sv m, (silentMoves 0).Reachable sv ∧ Member 0 sv 1 m ∧ m.windows ≠ [] ∧
        m.curw = none) ∧
      ¬ ∀ s sv, (silentMoves s).Reachable sv → GroupOk s sv := by
  have hwl : (⟨0, 0, 0⟩ : Winlink) ∈ (tabSession 1).windows := by decide
  have hdetach : (silentMoves 0).Reachable (newmuxSessionDetachSilent pairServer 0 ⟨0, 0, 0⟩).1 :=
    .step (.init pairServer_init) trivial (detach_step rfl hwl)
  have hattach : (silentMoves 0).Reachable (newmuxSessionAttachSilent
      (newmuxSessionDetachSilent pairServer 0 ⟨0, 0, 0⟩).1 0 0 3).1 :=
    .step hdetach trivial (attach_step 0 _ 0 3)
  refine ⟨⟨_, _, _, hdetach, ⟨by decide, rfl⟩, ⟨by decide, rfl⟩, by decide⟩,
    ⟨_, _, hattach, ⟨by decide, rfl⟩, by decide, by decide⟩, fun h => ?_⟩
  have hsame := (h 0 _ hdetach).same 0 _ 1 _ ⟨by decide, rfl⟩ ⟨by decide, rfl⟩
  exact absurd hsame (by decide)

end Newmux.Theorems
