import Newmux.Base.Bars
import Newmux.Theorems.EveryRun

/-!
# The sessions as tab bars

Seen from the tab bars, every command is one move: a delete takes its tab off the
bar of every session of the group and puts it aside, a restore and a create put one
in, at one place in every bar of the group, and nothing else moves.
-/

namespace Newmux.Theorems

open Newmux.Base Newmux.Tmux Newmux.Recovery Newmux.Logic

/-- A session's name and the windows it links, in order. -/
def tabsOf (sv : Server) (j : Nat) : Option (String × List Nat) :=
  (sessionFindById sv j).map fun s => (s.name, Session.order s)

/-- The bars of the sessions, and the windows of the recovery session. -/
def barsOf (sv : Server) : Bars Nat Nat where
  bar j := (tabsOf sv j).bind fun p => if p.1 = newmuxRecoverySession then none else some p.2
  lot := {w | w ∈ recoveryOrder sv}

theorem tabsOf_some {sv : Server} {j : Nat} {s : Session} (hs : sessionFindById sv j = some s) :
    tabsOf sv j = some (s.name, Session.order s) := by
  unfold tabsOf
  rw [hs, Option.map_some]

theorem bar_some {sv : Server} {j : Nat} {l : List Nat} :
    (barsOf sv).bar j = some l ↔ ∃ s, sessionFindById sv j = some s ∧
      s.name ≠ newmuxRecoverySession ∧ Session.order s = l := by
  show (tabsOf sv j).bind _ = some l ↔ _
  unfold tabsOf
  cases hs : sessionFindById sv j with
  | none => simp
  | some s => simp

/-! ## What leaves the tabs alone -/

theorem tabsOf_kept {sv sv' : Server} (h : SessionsKept sv sv') (j : Nat) :
    tabsOf sv' j = tabsOf sv j := by
  unfold tabsOf
  rw [h.find]

theorem tabsOf_set {sv : Server} {s s' : Session} (hs : sessionFindById sv s.id = some s)
    (hid : s'.id = s.id) (hname : s'.name = s.name) (horder : Session.order s' = Session.order s)
    (j : Nat) : tabsOf (sv.setSession s') j = tabsOf sv j := by
  unfold tabsOf
  rw [sessionFindById_set hid hs]
  split
  · next hj => rw [hj, hs, Option.map_some, Option.map_some, hname, horder]
  · rfl

theorem tabsOf_select (sv : Server) (s idx j : Nat) :
    tabsOf (serverSessionSelect sv s idx) j = tabsOf sv j := by
  unfold serverSessionSelect
  cases hs : sessionFindById sv s with
  | none => rfl
  | some ses =>
      obtain rfl := sessionFindById_id hs
      have hsame := sessionSelect_same ses idx
      refine tabsOf_set hs hsame.id hsame.name ?_ j
      unfold Session.order
      rw [hsame.windows]

theorem tabsOf_renumberAll (ms : List Nat) (sv : Server) (j : Nat) :
    tabsOf (ms.foldl renumberMember sv) j = tabsOf sv j := by
  induction ms generalizing sv with
  | nil => rfl
  | cons m ms ih =>
      rw [List.foldl_cons, ih]
      unfold tabsOf
      rw [renumberMember_find]
      split
      · cases sessionFindById sv j with
        | none => rfl
        | some s =>
            simp only [Option.map_some, Session.order]
            rw [show (sessionRenumberWindows s sv.nextPtr).windows =
              renumber sv.nextPtr s.options.baseIndex s.windows from rfl, renumber_windows]
            rfl
      · rfl

theorem tabsOf_renumber (sv : Server) (s j : Nat) :
    tabsOf (serverRenumberSession sv s) j = tabsOf sv j := by
  unfold serverRenumberSession
  split
  · rfl
  · split
    · exact tabsOf_renumberAll _ sv j
    · rfl

/-! ## A group that follows one of its sessions -/

theorem tabsOf_sync {sv : Server} (hok : TreesOk sv) {s : Session}
    (hs : sessionFindById sv s.id = some s) (hne : s.windows ≠ []) (j : Nat)
    [Decidable (InGroup sv s.id j)] :
    tabsOf (sessionGroupSynchronizeFrom sv s.id) j =
      if InGroup sv s.id j then (tabsOf sv j).map fun p => (p.1, Session.order s)
      else tabsOf sv j := by
  obtain ⟨hother, hkeep⟩ := syncFrom_find hok hs hne j
  by_cases hj : j = s.id
  · subst hj
    rw [if_pos (.refl sv s.id), tabsOf_some hs]
    unfold tabsOf
    rw [hkeep (.inl rfl), hs, Option.map_some, Option.map_some]
  · split
    · next hg =>
        obtain ⟨ptr, -, hmember⟩ := hother hj hg
        unfold tabsOf
        rw [hmember]
        cases hm : sessionFindById sv j with
        | none => rfl
        | some m =>
            obtain ⟨-, hname, -, -⟩ := synchronizeLinks_id s m ptr
            simp only [Option.map_some]
            rw [order_indexMap (synchronizeLinks s m ptr), synchronizeLinks_indexMap, hname,
              ← order_indexMap]
    · next hg =>
        unfold tabsOf
        rw [hkeep (.inr hg)]

/-! ## A tab less -/

/-- The order of a session without a winlink to a window it links once. -/
theorem order_remove {n : Nat} {wwl : Winlinks} (hok : TreeOk n wwl)
    (honce : (wwl.map Winlink.window).Nodup) {wl : Winlink} (hwl : wl ∈ wwl) :
    (winlinkRemove wwl wl.ptr).map Winlink.window = (wwl.map Winlink.window).erase wl.window := by
  rw [honce.erase_eq_filter, List.filter_map]
  refine congrArg _ (List.filter_congr fun x hx => ?_)
  have hiff : x.ptr = wl.ptr ↔ x.window = wl.window := by
    constructor
    · intro h
      rw [List.inj_on_of_nodup_map hok.ptrs hx hwl h]
    · intro h
      rw [List.inj_on_of_nodup_map honce hx hwl h]
  by_cases h : x.ptr = wl.ptr
  · simp [h, hiff.mp h]
  · have h' : ¬ x.window = wl.window := fun he => h (hiff.mpr he)
    show (x.ptr != wl.ptr) = (x.window != wl.window)
    rw [bne_iff_ne.mpr h, bne_iff_ne.mpr h']

/-- **A tab leaves a session and its group**, of which the session keeps another.
The session at `j` links the tab only if it is in the group. -/
theorem tabsOf_unlinked {sv : Server} (h : SessionsOk sv) {s s₁ : Session}
    (hs : sessionFindById sv s.id = some s) (hid : s₁.id = s.id) (hname : s₁.name = s.name)
    (hopt : s₁.options = s.options) (hw : s₁.windows = s.windows) {wl : Winlink}
    (hwl : wl ∈ s.windows) (hne : winlinkRemove s.windows wl.ptr ≠ []) {j : Nat}
    (hshared : ∀ m, sessionFindById sv j = some m → wl.window ∈ Session.order m →
      InGroup sv s.id j) :
    tabsOf (sessionGroupSynchronizeFrom (sessionUnlink sv s₁ wl) s.id) j =
      (tabsOf sv j).map fun p => (p.1, p.2.erase wl.window) := by
  classical
  have hfind := unlink_find hs hid hw wl
  have htrees : TreesOk (sessionUnlink sv s₁ wl) :=
    Shrink.treesOk (sessionUnlink_shrink (T := fun _ => True) (W := fun _ => True) trivial hs hid
      hname hopt hw wl) h.trees
  have hremove := order_remove (h.trees.tree _ s hs) (h.once _ s hs) hwl
  have hself := hfind s.id
  rw [if_pos rfl] at hself
  have hid' : ({ s₁ with windows := winlinkRemove s.windows wl.ptr } : Session).id = s.id := hid
  have hname' : ({ s₁ with windows := winlinkRemove s.windows wl.ptr } : Session).name = s.name :=
    hname
  have horder : Session.order { s₁ with windows := winlinkRemove s.windows wl.ptr } =
      (Session.order s).erase wl.window := hremove
  have hne' : ({ s₁ with windows := winlinkRemove s.windows wl.ptr } : Session).windows ≠ [] := hne
  generalize ({ s₁ with windows := winlinkRemove s.windows wl.ptr } : Session) = s₂
    at hfind hid' hself horder hname' hne'
  rw [← hid'] at hself ⊢
  have hin : InGroup (sessionUnlink sv s₁ wl) s₂.id j ↔ InGroup sv s.id j := by
    simp only [InGroup, sessionUnlink_groups, hid']
  -- the session itself has a tab less, and no other session is touched yet
  have hnow : tabsOf (sessionUnlink sv s₁ wl) j =
      if j = s.id then some (s.name, (Session.order s).erase wl.window) else tabsOf sv j := by
    unfold tabsOf
    rw [hfind]
    split
    · rw [Option.map_some, hname', horder]
    · rfl
  rw [tabsOf_sync htrees hself hne', hnow, horder]
  by_cases hj : j = s.id
  · subst hj
    rw [if_pos rfl, if_pos (hin.mpr (.refl sv s.id)), tabsOf_some hs, Option.map_some,
      Option.map_some]
  · rw [if_neg hj]
    cases hm : sessionFindById sv j with
    | none => simp [tabsOf, hm]
    | some m =>
        rw [tabsOf_some hm]
        split
        · next hg =>
            have hmap := (h.maps s.id j s m (hin.mp hg) hs hm).1
            rw [Option.map_some, Option.map_some, order_indexMap s, hmap, ← order_indexMap]
        · next hg =>
            have hnot : wl.window ∉ Session.order m := fun hwm => hg (hin.mpr (hshared m hm hwm))
            rw [Option.map_some, List.erase_of_not_mem hnot]

/-- The tabs once a window has been killed in a session that links it. -/
theorem tabsOf_killIn {sv : Server} (h : Linked sv) {s : Session}
    (hs : sessionFindById sv s.id = some s) {w : Nat} (hw : w ∈ Session.order s)
    (hlast : Session.order s ≠ [w]) (renumber : Bool) (j : Nat) :
    tabsOf (killIn w renumber sv s.id) j = (tabsOf sv j).map fun p => (p.1, p.2.erase w) := by
  obtain ⟨x, hx, hxw⟩ := List.mem_map.mp hw
  have hkept := windowUnzoom_kept sv w
  have h₁ := h.kept hkept
  have hs₁ : sessionFindById (windowUnzoom sv w) s.id = some s := (hkept.find s.id).trans hs
  have hnow := tabsOf_kept hkept j
  have hany : s.windows.any (fun wl => wl.window == w) = true :=
    List.any_eq_true.mpr ⟨x, hx, by simpa using hxw⟩
  obtain ⟨wl, hwl⟩ : ∃ wl, winlinkFindByWindow s.windows w = some wl := by
    cases hf : winlinkFindByWindow s.windows w with
    | some wl => exact ⟨wl, rfl⟩
    | none => exact absurd hxw (findByWindow_none.mp hf x hx)
  obtain ⟨hmem, hwlw⟩ := findByWindow_some hwl
  obtain ⟨n, hn⟩ : ∃ n, s.windows.length = n + 1 :=
    Nat.exists_eq_succ_of_ne_zero fun h0 => by
      rw [List.length_eq_zero_iff.mp h0] at hx
      exact absurd hx List.not_mem_nil
  unfold killIn
  rw [hs]
  simp only [hany, if_true]
  rw [hn]
  generalize windowUnzoom sv w = sv₁ at h₁ hs₁ hnow ⊢
  -- one detach, and no winlink to the window is left
  have hready := detachReady_same s wl
  have hself := unlinkSync_self h₁.sessions.trees hs₁ hready.id hready.name hready.options
    hready.windows wl
  have hremove := order_remove (h₁.sessions.trees.tree _ s hs₁) (h₁.sessions.once _ s hs₁) hmem
  rw [hwlw] at hremove
  have hne : winlinkRemove s.windows wl.ptr ≠ [] := by
    intro hnil
    rw [hnil, List.map_nil] at hremove
    rcases List.erase_eq_nil_iff.mp hremove.symm with he | he
    · exact List.ne_nil_of_mem hw he
    · exact hlast he
  have hdetach : sessionDetach sv₁ s.id wl =
      (sessionGroupSynchronizeFrom (sessionUnlink sv₁ (detachReady s wl) wl) s.id, false) := by
    unfold sessionDetach sessionEmpty
    simp only [hs₁, hself, List.isEmpty_eq_false_iff.mpr hne]
  have hstop : killLoop w n (sessionGroupSynchronizeFrom (sessionUnlink sv₁ (detachReady s wl) wl)
      s.id) s.id = sessionGroupSynchronizeFrom (sessionUnlink sv₁ (detachReady s wl) wl) s.id := by
    cases n with
    | zero => rfl
    | succ n =>
        have hgone : winlinkFindByWindow (winlinkRemove s.windows wl.ptr) w = none := by
          refine findByWindow_none.mpr fun y hy hyw => ?_
          have hin : w ∈ (winlinkRemove s.windows wl.ptr).map Winlink.window :=
            List.mem_map.mpr ⟨y, hy, hyw⟩
          rw [hremove] at hin
          exact ((h.sessions.once _ s hs).mem_erase_iff.mp hin).1 rfl
        unfold killLoop
        simp only [hself, Option.bind_some, hgone]
  have hloop : killLoop w (n + 1) sv₁ s.id =
      sessionGroupSynchronizeFrom (sessionUnlink sv₁ (detachReady s wl) wl) s.id := by
    unfold killLoop
    simp only [hs₁, Option.bind_some, hwl, hdetach, Bool.false_eq_true, if_false, hstop]
  have htabs := tabsOf_unlinked (j := j) h₁.sessions hs₁ hready.id hready.name hready.options
    hready.windows hmem hne fun m hm hwm =>
      h₁.links.shared s.id j s m _ trivial trivial hs₁ hm (List.mem_map_of_mem hmem) hwm
  rw [hwlw, hnow] at htabs
  rw [hloop]
  split
  · rw [tabsOf_renumber]
    exact htabs
  · exact htabs

/-- **The tabs once a window has been killed** that is no session's only one. -/
theorem tabsOf_killed {sv : Server} (h : Linked sv) {w : Nat}
    (hlast : ∀ j s, sessionFindById sv j = some s → Session.order s ≠ [w]) (renumber : Bool)
    (j : Nat) : tabsOf (serverKillWindow sv w renumber) j =
      (tabsOf sv j).map fun p => (p.1, p.2.erase w) := by
  unfold serverKillWindow
  -- every session that links the window is still to come
  have hids : ∀ i s, sessionFindById sv i = some s → w ∈ Session.order s →
      i ∈ sv.sessions.map Session.id := fun i s hi _ =>
    sessionFindById_id hi ▸ List.mem_map_of_mem (Table.find_some_mem hi)
  generalize sv.sessions.map Session.id = ids at hids
  induction ids with
  | nil =>
      cases hm : sessionFindById sv j with
      | none => simp [tabsOf, hm]
      | some m =>
          have hnot : w ∉ Session.order m := fun hw => List.not_mem_nil (hids j m hm hw)
          rw [List.foldl_nil, tabsOf_some hm, Option.map_some, List.erase_of_not_mem hnot]
  | cons i ids ih =>
      rw [List.foldl_cons]
      by_cases hin : ∃ s, sessionFindById sv i = some s ∧ w ∈ Session.order s
      · obtain ⟨s, hs, hw⟩ := hin
        obtain rfl := sessionFindById_id hs
        have hone := tabsOf_killIn h hs hw (hlast _ s hs) renumber
        rw [killAll_unlinked renumber ids fun k _ m hm hwm => ?_, hone]
        have hk := hone k
        rw [tabsOf_some hm] at hk
        obtain ⟨p, hp, heq⟩ := Option.map_eq_some_iff.mp hk.symm
        obtain ⟨m₀, hm₀, hpm⟩ := Option.map_eq_some_iff.mp hp
        have herase : Session.order m = (Session.order m₀).erase w := by
          rw [← (Prod.mk.inj heq).2, ← hpm]
        rw [herase] at hwm
        exact ((h.sessions.once k m₀ hm₀).mem_erase_iff.mp hwm).1 rfl
      · have hstep : killIn w renumber sv i = sv :=
          killAll_unlinked renumber [i] fun k hk s hs hw => hin ⟨s, List.mem_singleton.mp hk ▸ hs, hw⟩
        rw [hstep]
        refine ih fun k s hk hw => (List.mem_cons.mp (hids k s hk hw)).resolve_left ?_
        rintro rfl
        exact hin ⟨s, hk, hw⟩

/-! ## A tab more -/

/-- **A tab comes into a session and its group**, at one place. -/
theorem tabsOf_attached {sv sv₁ : Server} (h : Linked sv) {s : Session}
    (hs : sessionFindById sv s.id = some s) {w last : Nat} {wl : Winlink} {wwl : Winlinks}
    (hroom : RoomMade s.windows sv.nextPtr w wl wwl last)
    (hkept : SessionsKept (linkedServer sv s wl wwl) sv₁) :
    ∃ A B, Session.order s = A ++ B ∧ A.length = below s.windows wl.idx ∧
      ∀ j [Decidable (InGroup sv s.id j)], tabsOf (sessionGroupSynchronizeFrom sv₁ s.id) j =
        if InGroup sv s.id j then (tabsOf sv j).map fun p => (p.1, A ++ w :: B)
        else tabsOf sv j := by
  obtain ⟨A, B, hwindows, hwwl, hbelow⟩ := hroom.split (h.sessions.trees.tree _ s hs).sorted
  obtain ⟨hid, hname, -, hw⟩ := linkedSession_fields s wl wwl
  have htrees : TreesOk (linkedServer sv s wl wwl) :=
    relinked_treesOk h.sessions.trees hs hid hname (hw.symm ▸ hroom)
  have hfind := linkedServer_find hs wl wwl
  have horder : Session.order (linkedSession s wl wwl) =
      A.map Winlink.window ++ w :: B.map Winlink.window := by
    unfold Session.order
    rw [hw, hwwl, List.map_append, List.map_cons, hroom.window, List.map_map]
    refine congrArg (A.map Winlink.window ++ w :: ·) (List.map_congr_left fun x _ => ?_)
    exact Winlink.bump_window wl.idx last x
  have hne : (linkedSession s wl wwl).windows ≠ [] := by
    rw [hw, hwwl]
    simp
  refine ⟨A.map Winlink.window, B.map Winlink.window, ?_,
    (List.length_map Winlink.window).trans hbelow.symm, fun j _ => ?_⟩
  · unfold Session.order
    rw [hwindows, List.map_append]
  have hself : sessionFindById sv₁ (linkedSession s wl wwl).id = some (linkedSession s wl wwl) := by
    rw [hid, hkept.find, hfind, if_pos rfl]
  classical
  have hin : InGroup sv₁ (linkedSession s wl wwl).id j ↔ InGroup sv s.id j := by
    simp only [InGroup, hid, hkept.groups]
    exact Iff.rfl
  -- the group takes the list of the session over
  have hsync := tabsOf_sync (hkept.treesOk htrees) hself hne j
  rw [hid] at hsync hin
  rw [hsync, tabsOf_kept hkept, horder]
  have hnow : (tabsOf (linkedServer sv s wl wwl) j).map Prod.fst = (tabsOf sv j).map Prod.fst ∧
      (j ≠ s.id → tabsOf (linkedServer sv s wl wwl) j = tabsOf sv j) := by
    unfold tabsOf
    rw [hfind]
    split
    · next hj =>
        rw [hj, hs]
        exact ⟨by simp [hname], fun hjs => absurd rfl hjs⟩
    · exact ⟨rfl, fun _ => rfl⟩
  by_cases hg : InGroup sv s.id j
  · rw [if_pos (hin.mpr hg), if_pos hg]
    have hpair : ∀ (t t' : Option (String × List Nat)), t.map Prod.fst = t'.map Prod.fst →
        t.map (fun p => (p.1, A.map Winlink.window ++ w :: B.map Winlink.window)) =
          t'.map fun p => (p.1, A.map Winlink.window ++ w :: B.map Winlink.window) := by
      intro t t' ht
      have := congrArg (Option.map fun n => (n, A.map Winlink.window ++ w :: B.map Winlink.window)) ht
      rwa [Option.map_map, Option.map_map] at this
    exact hpair _ _ hnow.1
  · rw [if_neg fun hg' => hg (hin.mp hg'), if_neg hg]
    exact hnow.2 fun hj => hg (hj ▸ .refl sv s.id)

end Newmux.Theorems
