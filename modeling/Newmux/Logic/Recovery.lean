import Newmux.Logic.Current
import Newmux.Logic.Runs
import Newmux.Logic.Sync

/-!
# The recovery session

The session the parked windows live in: it is in no group, it shares no window
with another session, and when its last window leaves it is destroyed. What the
server operations do to it, and that what happens to the other sessions does
not reach it.
-/

namespace Newmux.Logic

open Newmux.Base Newmux.Tmux Newmux.Recovery

/-! ## The session -/

/-- `R` is the recovery session. -/
structure IsRecovery (sv : Server) (R : Session) : Prop where
  find : sessionFindById sv R.id = some R
  name : R.name = newmuxRecoverySession

/-- The windows linked into the recovery session, in index order. -/
def recoveryOrder (sv : Server) : List Nat :=
  ((sessionFind sv newmuxRecoverySession).map Session.order).getD []

/-- `session_find` looks up the session of that name. -/
theorem sessionFind_some {sv : Server} (hok : TreesOk sv) {name : String} {s : Session} :
    sessionFind sv name = some s ↔ sessionFindById sv s.id = some s ∧ s.name = name := by
  constructor
  · intro h
    exact ⟨Table.find_of_mem hok.unique (List.mem_of_find?_eq_some h),
      by simpa using List.find?_some h⟩
  · rintro ⟨hs, rfl⟩
    have hmem : s ∈ sv.sessions := Table.find_some_mem hs
    cases hf : sessionFind sv s.name with
    | none => simpa using List.find?_eq_none.mp hf s hmem
    | some x =>
        have hx : x ∈ sv.sessions := List.mem_of_find?_eq_some hf
        have hname : x.name = s.name := by simpa using List.find?_some hf
        rw [List.inj_on_of_nodup_map hok.names hx hmem hname]

theorem IsRecovery.unique {sv : Server} (hok : TreesOk sv) {R R' : Session}
    (h : IsRecovery sv R) (h' : IsRecovery sv R') : R = R' := by
  have hf := (sessionFind_some hok).mpr ⟨h.find, h.name⟩
  rw [(sessionFind_some hok).mpr ⟨h'.find, h'.name⟩] at hf
  exact (Option.some.inj hf).symm

/-- A session under another name has another id. -/
theorem IsRecovery.ne {sv : Server} {R s : Session} (hR : IsRecovery sv R)
    (hs : sessionFindById sv s.id = some s) (hname : s.name ≠ newmuxRecoverySession) :
    s.id ≠ R.id := by
  intro he
  have hfind := hR.find
  rw [← he, hs] at hfind
  cases hfind
  exact hname hR.name

theorem IsRecovery.order {sv : Server} (hok : TreesOk sv) {R : Session} (h : IsRecovery sv R) :
    recoveryOrder sv = Session.order R := by
  unfold recoveryOrder
  rw [(sessionFind_some hok).mpr ⟨h.find, h.name⟩]
  rfl

theorem recoveryOrder_none {sv : Server} (hok : TreesOk sv) (h : ∀ R, ¬ IsRecovery sv R) :
    recoveryOrder sv = [] := by
  unfold recoveryOrder
  cases hf : sessionFind sv newmuxRecoverySession with
  | none => rfl
  | some R => exact absurd ⟨((sessionFind_some hok).mp hf).1, ((sessionFind_some hok).mp hf).2⟩ (h R)

theorem mem_recoveryOrder {sv : Server} (hok : TreesOk sv) {w : Nat} :
    w ∈ recoveryOrder sv ↔ ∃ R, IsRecovery sv R ∧ w ∈ Session.order R := by
  constructor
  · intro hw
    by_cases hex : ∃ R, IsRecovery sv R
    · obtain ⟨R, hR⟩ := hex
      exact ⟨R, hR, hR.order hok ▸ hw⟩
    · rw [recoveryOrder_none hok fun R hR => hex ⟨R, hR⟩] at hw
      exact absurd hw List.not_mem_nil
  · rintro ⟨R, hR, hw⟩
    exact hR.order hok ▸ hw

/-- The recovery session stands alone, keeps a current window and links no
window twice. -/
structure LotOk (sv : Server) (R : Session) : Prop where
  alone : ¬ Grouped sv R.id
  current : CurrentOk R
  once : (Session.order R).Nodup

/-- The server the recovery commands work on is well formed. -/
structure RecoveryOk (sv : Server) : Prop where
  trees : TreesOk sv
  created : Created sv
  groupIds : ∀ j, Grouped sv j → j < sv.nextSessionId
  lot : ∀ R, IsRecovery sv R → LotOk sv R

/-- No other session links a window of the recovery session. -/
def Separate (sv : Server) : Prop :=
  ∀ R, IsRecovery sv R → ∀ j s, sessionFindById sv j = some s → j ≠ R.id →
    ∀ w ∈ Session.order R, w ∉ Session.order s

/-- A session in no group is in the group of no other. -/
theorem alone_inGroup {sv : Server} {r j : Nat} (h : ¬ Grouped sv r) (hg : InGroup sv j r) :
    j = r := by
  rcases hg with rfl | ⟨sg, hsg, -, hr⟩
  · rfl
  · exact absurd ⟨sg, hsg, hr⟩ h

/-! ## What happens elsewhere -/

/-- Steps that do not touch the recovery session leave it as it is. -/
theorem RecoveryOk.shrink {T W : Nat → Prop} {sv sv' : Server} (h : RecoveryOk sv)
    (hrun : Shrink T W sv sv') (hT : ∀ R, IsRecovery sv R → ¬ T R.id) :
    RecoveryOk sv' ∧ ∀ R, IsRecovery sv' R ↔ IsRecovery sv R := by
  have htrees := Shrink.treesOk hrun h.trees
  have hiff : ∀ R, IsRecovery sv' R ↔ IsRecovery sv R := by
    intro R
    constructor
    · intro hR
      obtain ⟨s, hs, hname⟩ := Shrink.name hrun h.trees hR.find
      have hsid := sessionFindById_id hs
      have hold : IsRecovery sv s := ⟨hsid.symm ▸ hs, hname.symm.trans hR.name⟩
      have hframe := Shrink.frame hrun (hT s hold)
      rw [hsid, hs, hR.find] at hframe
      cases hframe
      exact hold
    · intro hR
      exact ⟨(Shrink.frame hrun (hT R hR)).trans hR.find, hR.name⟩
  refine ⟨⟨htrees, Shrink.created hrun h.trees h.created, ?_, ?_⟩, hiff⟩
  · intro j hj
    rw [(Shrink.counters hrun).1]
    exact h.groupIds j (Shrink.grouped hrun hj)
  · intro R hR
    have hlot := h.lot R ((hiff R).mp hR)
    exact ⟨fun hg => hlot.alone (Shrink.grouped hrun hg), hlot.current, hlot.once⟩

/-- A window linked outside the recovery session after such steps was linked
outside it before. -/
theorem RecoveryOk.linked_outside {T W : Nat → Prop} {sv sv' : Server} (h : RecoveryOk sv)
    (hrun : Shrink T W sv sv') {R : Session} (hR : IsRecovery sv R) {j : Nat} {s : Session}
    (hs : sessionFindById sv' j = some s) (hj : j ≠ R.id) {w : Nat} (hw : w ∈ Session.order s) :
    ∃ i s₀, i ≠ R.id ∧ sessionFindById sv i = some s₀ ∧ w ∈ Session.order s₀ := by
  obtain ⟨i, s₀, hs₀, hg, hw₀⟩ := Shrink.linked_before hrun h.trees hs hw
  exact ⟨i, s₀, fun hi => hj (alone_inGroup (h.lot R hR).alone (hi ▸ hg.symm)), hs₀, hw₀⟩

theorem Separate.shrink {T W : Nat → Prop} {sv sv' : Server} (hsep : Separate sv)
    (h : RecoveryOk sv) (hrun : Shrink T W sv sv') (hT : ∀ R, IsRecovery sv R → ¬ T R.id) :
    Separate sv' := by
  intro R hR' j s hs hj w hw hws
  have hR := ((h.shrink hrun hT).2 R).mp hR'
  obtain ⟨i, s₀, hi, hs₀, hws₀⟩ := h.linked_outside hrun hR hs hj hws
  exact hsep R hR i s₀ hs₀ hi w hw hws₀

/-- A change of windows and panes alone. -/
theorem RecoveryOk.kept {sv sv' : Server} (h : RecoveryOk sv) (hkept : SessionsKept sv sv') :
    RecoveryOk sv' ∧ ∀ R, IsRecovery sv' R ↔ IsRecovery sv R :=
  h.shrink (Shrink.of_kept (T := fun _ => False) hkept) fun _ _ hn => hn

theorem recoveryOrder_congr {sv sv' : Server} (hok : TreesOk sv) (hok' : TreesOk sv')
    (h : ∀ R, IsRecovery sv' R ↔ IsRecovery sv R) : recoveryOrder sv' = recoveryOrder sv := by
  by_cases hex : ∃ R, IsRecovery sv R
  · obtain ⟨R, hR⟩ := hex
    rw [hR.order hok, ((h R).mpr hR).order hok']
  · rw [recoveryOrder_none hok fun R hR => hex ⟨R, hR⟩,
      recoveryOrder_none hok' fun R hR => hex ⟨R, (h R).mp hR⟩]

/-! ## Unlinking a parked window -/

/-- Without its recovery session the server is still well formed. -/
theorem RecoveryOk.vanish {T W : Nat → Prop} {sv sv' : Server} (h : RecoveryOk sv)
    (hrun : Shrink T W sv sv') (hnone : ∀ R, ¬ IsRecovery sv' R) :
    RecoveryOk sv' ∧ recoveryOrder sv' = [] := by
  have htrees := Shrink.treesOk hrun h.trees
  refine ⟨⟨htrees, Shrink.created hrun h.trees h.created, fun j hj => ?_,
    fun R hR => absurd hR (hnone R)⟩, recoveryOrder_none htrees hnone⟩
  rw [(Shrink.counters hrun).1]
  exact h.groupIds j (Shrink.grouped hrun hj)

/-- The recovery session `R` has become `R'`, the other sessions are as they
were. -/
theorem RecoveryOk.replace {T W : Nat → Prop} {sv sv' : Server} (h : RecoveryOk sv)
    (hrun : Shrink T W sv sv') {R R' : Session} (hR : IsRecovery sv R) (hid : R'.id = R.id)
    (hname : R'.name = R.name)
    (hfind : ∀ j, sessionFindById sv' j = if j = R.id then some R' else sessionFindById sv j)
    (hcur : CurrentOk R') (horder : (Session.order R').Sublist (Session.order R)) :
    RecoveryOk sv' ∧ IsRecovery sv' R' := by
  have htrees := Shrink.treesOk hrun h.trees
  have hlot := h.lot R hR
  have hR' : IsRecovery sv' R' := ⟨by rw [hid, hfind, if_pos rfl], hname.trans hR.name⟩
  refine ⟨⟨htrees, Shrink.created hrun h.trees h.created, ?_, ?_⟩, hR'⟩
  · intro j hj
    rw [(Shrink.counters hrun).1]
    exact h.groupIds j (Shrink.grouped hrun hj)
  · intro R'' hR''
    rw [hR''.unique htrees hR']
    exact ⟨fun hg => hlot.alone (hid ▸ Shrink.grouped hrun hg), hcur, horder.nodup hlot.once⟩

theorem sessionDestroy_find {sv : Server} {s : Session} (hs : sessionFindById sv s.id = some s)
    (hcur : s.curw ≠ none) (j : Nat) :
    sessionFindById (sessionDestroy sv s.id) j =
      if j = s.id then none else sessionFindById sv j := by
  simp only [sessionDestroy, hs, if_neg hcur]
  rw [removeRefs_find]
  exact Table.find_remove sv.sessions s.id j

/-- What a lookup sees after a session in no group is destroyed. -/
theorem destroyAlone_find {sv : Server} {s : Session} (hs : sessionFindById sv s.id = some s)
    (halone : ¬ Grouped sv s.id) (hcur : s.curw ≠ none) (j : Nat) :
    sessionFindById (serverDestroySessionGroup sv s.id) j =
      if j = s.id then none else sessionFindById sv j := by
  have hcontains : sessionGroupContains sv s.id = none := by
    cases hc : sessionGroupContains sv s.id with
    | none => rfl
    | some sg => exact absurd ⟨sg, groupContains_some hc⟩ halone
  simp only [serverDestroySessionGroup, hcontains]
  exact sessionDestroy_find hs hcur j

/-- What a lookup sees after a session in no group detaches a window. -/
theorem detachAlone {sv : Server} {s : Session} (hs : sessionFindById sv s.id = some s)
    (halone : ¬ Grouped sv s.id) (wl : Winlink) :
    (∀ j, sessionFindById (sessionDetach sv s.id wl).1 j =
        if j = s.id then some (unlinked s wl) else sessionFindById sv j) ∧
      ((sessionDetach sv s.id wl).2 = true ↔ winlinkRemove s.windows wl.ptr = []) ∧
      (sessionDetach sv s.id wl).1.groups = sv.groups := by
  have hready := detachReady_same s wl
  have hgroups := sessionUnlink_groups sv (detachReady s wl) wl
  have hfind : ∀ i, sessionFindById (sessionUnlink sv (detachReady s wl) wl) i =
      if i = s.id then some (unlinked s wl) else sessionFindById sv i := by
    intro i
    unfold sessionUnlink
    rw [(windowRemoveRef_kept _ _).find, hready.windows]
    exact sessionFindById_set hready.id hs
  have halone' : ¬ Grouped (sessionUnlink sv (detachReady s wl) wl) s.id := by
    simpa only [Grouped, hgroups] using halone
  unfold sessionDetach
  simp only [hs, syncFrom_alone halone']
  refine ⟨hfind, ?_, hgroups⟩
  have hwindows : (unlinked s wl).windows = winlinkRemove s.windows wl.ptr := rfl
  simp [sessionEmpty, hfind, hwindows]

/-- What a lookup sees after a session in no group unlinks a window: without
windows the session is destroyed. -/
theorem unlinkAlone_find {sv : Server} {s : Session}
    (hs : sessionFindById sv s.id = some s) (halone : ¬ Grouped sv s.id) (hcur : CurrentOk s)
    {wl : Winlink} (hwl : wl ∈ s.windows) (j : Nat) :
    sessionFindById (serverUnlinkWindow sv s.id wl) j =
      if j = s.id then
        if winlinkRemove s.windows wl.ptr = [] then none else some (unlinked s wl)
      else sessionFindById sv j := by
  obtain ⟨hfind, hempty, hgroups⟩ := detachAlone hs halone wl
  unfold serverUnlinkWindow
  simp only [hempty]
  by_cases hnil : winlinkRemove s.windows wl.ptr = []
  · have hid : (unlinked s wl).id = s.id := (unlinked_fields s wl).1
    have hself : sessionFindById (sessionDetach sv s.id wl).1 (unlinked s wl).id =
        some (unlinked s wl) := by rw [hid, hfind, if_pos rfl]
    have halone' : ¬ Grouped (sessionDetach sv s.id wl).1 (unlinked s wl).id := by
      simpa only [Grouped, hgroups, hid] using halone
    have hsome : (unlinked s wl).curw ≠ none := fun hnone =>
      List.ne_nil_of_mem hwl (hcur.empty ((detachReady_same s wl).curw hnone))
    have hdestroy := destroyAlone_find hself halone' hsome j
    rw [hid, hfind] at hdestroy
    rw [if_pos hnil, if_pos hnil, hdestroy]
    by_cases hj : j = s.id
    · rw [if_pos hj, if_pos hj]
    · rw [if_neg hj, if_neg hj, if_neg hj]
  · rw [if_neg hnil, if_neg hnil, hfind]

/-- A recovery session keeps its id. -/
def SameLot (sv sv' : Server) : Prop :=
  ∀ R', IsRecovery sv' R' → ∃ R, IsRecovery sv R ∧ R'.id = R.id

theorem Separate.sameLot {T W : Nat → Prop} {sv sv' : Server} (hsep : Separate sv)
    (h : RecoveryOk sv) (hok' : RecoveryOk sv') (hrun : Shrink T W sv sv') (hlot : SameLot sv sv')
    (hsub : ∀ w ∈ recoveryOrder sv', w ∈ recoveryOrder sv) : Separate sv' := by
  intro R' hR' j s hs hj w hw hws
  obtain ⟨R, hR, hid⟩ := hlot R' hR'
  obtain ⟨i, s₀, hi, hs₀, hws₀⟩ := h.linked_outside hrun hR hs (hid ▸ hj) hws
  rw [← hR'.order hok'.trees] at hw
  exact hsep R hR i s₀ hs₀ hi w (hR.order h.trees ▸ hsub w hw) hws₀

/-- **Unlinking a parked window** takes it out of the recovery session and
changes nothing else. -/
theorem RecoveryOk.unlink {sv : Server} (h : RecoveryOk sv) {R : Session} (hR : IsRecovery sv R)
    {wl : Winlink} (hwl : wl ∈ R.windows) :
    RecoveryOk (serverUnlinkWindow sv R.id wl) ∧ SameLot sv (serverUnlinkWindow sv R.id wl) ∧
      (recoveryOrder sv).Perm (wl.window :: recoveryOrder (serverUnlinkWindow sv R.id wl)) := by
  have hlot := h.lot R hR
  have hptrs := (h.trees.tree _ R hR.find).ptrs
  have hfind := unlinkAlone_find hR.find hlot.alone hlot.current hwl
  have hperm := unlinked_order hptrs hwl
  have hrun : Shrink (fun _ => True) (fun _ => True) sv (serverUnlinkWindow sv R.id wl) :=
    unlinkWindow_shrink wl fun _ _ => trivial
  have hback : ∀ R', IsRecovery (serverUnlinkWindow sv R.id wl) R' → R'.id = R.id := by
    intro R' hR'
    by_contra hne
    have hold := hR'.find
    rw [hfind, if_neg hne] at hold
    exact hne (congrArg Session.id (IsRecovery.unique h.trees ⟨hold, hR'.name⟩ hR))
  rw [hR.order h.trees]
  by_cases hnil : winlinkRemove R.windows wl.ptr = []
  · have hnone : ∀ R', ¬ IsRecovery (serverUnlinkWindow sv R.id wl) R' := by
      intro R' hR'
      have hf := hR'.find
      rw [hfind, if_pos (hback R' hR'), if_pos hnil] at hf
      cases hf
    obtain ⟨hok, horder⟩ := h.vanish hrun hnone
    refine ⟨hok, fun R' hR' => absurd hR' (hnone R'), ?_⟩
    have hempty : Session.order (unlinked R wl) = [] := by
      change (winlinkRemove R.windows wl.ptr).map Winlink.window = []
      rw [hnil]
      rfl
    rw [horder, ← hempty]
    exact hperm
  · obtain ⟨hid, hname, -⟩ := unlinked_fields R wl
    obtain ⟨hok, hR'⟩ := h.replace hrun hR hid hname
      (fun j => by rw [hfind, if_neg hnil]) (unlinked_current hptrs hlot.current hnil)
      (List.filter_sublist.map _)
    refine ⟨hok, fun R' hR' => ⟨R, hR, hback R' hR'⟩, ?_⟩
    rw [hR'.order hok.trees]
    exact hperm

/-! ## Killing a parked window -/

/-- The kill loop of a session that links the window once. -/
theorem killLoop_once {sv : Server} (h : RecoveryOk sv) {R : Session} (hR : IsRecovery sv R)
    {wl : Winlink} (hwl : winlinkFindByWindow R.windows wl.window = some wl) (fuel : Nat) :
    killLoop wl.window (fuel + 1) sv R.id = serverUnlinkWindow sv R.id wl := by
  have hlot := h.lot R hR
  have hmem := (findByWindow_some hwl).1
  obtain ⟨hfind, -, -⟩ := detachAlone hR.find hlot.alone wl
  have hgone : (sessionFindById (sessionDetach sv R.id wl).1 R.id).bind
      (fun ses => winlinkFindByWindow ses.windows wl.window) = none := by
    rw [hfind, if_pos rfl, Option.bind_some, findByWindow_none]
    intro x hx hxw
    have hperm := unlinked_order (h.trees.tree _ R hR.find).ptrs hmem
    have hnd := hperm.nodup_iff.mp hlot.once
    rw [List.nodup_cons] at hnd
    exact hnd.1 (hxw ▸ List.mem_map_of_mem hx)
  have hstop : killLoop wl.window fuel (sessionDetach sv R.id wl).1 R.id =
      (sessionDetach sv R.id wl).1 := by
    cases fuel with
    | zero => rfl
    | succ fuel => simp only [killLoop, hgone]
  unfold killLoop serverUnlinkWindow
  simp only [hR.find, Option.bind_some, hwl, hstop]

/-- A session that does not link the window is left alone by a kill. -/
theorem killAll_unlinked {w : Nat} (renumber : Bool) (ids : List Nat) {sv : Server}
    (h : ∀ j ∈ ids, ∀ s, sessionFindById sv j = some s → w ∉ Session.order s) :
    ids.foldl (killIn w renumber) sv = sv := by
  induction ids with
  | nil => rfl
  | cons j ids ih =>
      have hstep : killIn w renumber sv j = sv := by
        unfold killIn
        split
        · rfl
        · next s hs =>
            rw [if_neg]
            intro hany
            obtain ⟨wl, hwl, he⟩ := List.any_eq_true.mp hany
            exact h j List.mem_cons_self s hs (List.mem_map.mpr ⟨wl, hwl, by simpa using he⟩)
      rw [List.foldl_cons, hstep]
      exact ih fun i hi => h i (List.mem_cons_of_mem _ hi)

/-- Killing a parked window happens in the recovery session alone. -/
theorem killWindow_recovery {sv : Server} (h : RecoveryOk sv) (hsep : Separate sv) {R : Session}
    (hR : IsRecovery sv R) {w : Nat} (hw : w ∈ Session.order R) (renumber : Bool) :
    serverKillWindow sv w renumber = killIn w renumber sv R.id := by
  have hlot := h.lot R hR
  have hmem : R.id ∈ sv.sessions.map Session.id :=
    List.mem_map_of_mem (Table.find_some_mem hR.find)
  obtain ⟨as, bs, hids⟩ := List.append_of_mem hmem
  have hnd : (sv.sessions.map Session.id).Nodup := h.trees.unique
  rw [hids, List.nodup_middle, List.nodup_cons, List.mem_append, not_or] at hnd
  have hother : ∀ j, j ≠ R.id → ∀ s, sessionFindById sv j = some s → w ∉ Session.order s :=
    fun j hj s hs => hsep R hR j s hs hj w hw
  have hframe : ∀ j, j ≠ R.id →
      sessionFindById (killIn w renumber sv R.id) j = sessionFindById sv j := by
    intro j hj
    have hrun : Shrink (· = R.id) (· = w) sv (killIn w renumber sv R.id) :=
      killIn_shrink (W := (· = w)) rfl renumber fun _ _ _ i hi =>
        alone_inGroup hlot.alone hi.symm
    exact Shrink.frame hrun hj
  unfold serverKillWindow
  rw [hids, List.foldl_append, List.foldl_cons,
    killAll_unlinked renumber as fun j hj => hother j fun he => hnd.1.1 (he ▸ hj),
    killAll_unlinked renumber bs fun j hj s hs => ?_]
  have hj' : j ≠ R.id := fun he => hnd.1.2 (he ▸ hj)
  exact hother j hj' s (hframe j hj' ▸ hs)

/-- Renumbering the recovery session keeps its windows in order. -/
theorem RecoveryOk.renumber {sv : Server} (h : RecoveryOk sv) {R : Session}
    (hR : IsRecovery sv R) :
    RecoveryOk (serverRenumberSession sv R.id) ∧ SameLot sv (serverRenumberSession sv R.id) ∧
      recoveryOrder (serverRenumberSession sv R.id) = recoveryOrder sv := by
  have hlot := h.lot R hR
  have hcontains : sessionGroupContains sv R.id = none := by
    cases hc : sessionGroupContains sv R.id with
    | none => rfl
    | some sg => exact absurd ⟨sg, groupContains_some hc⟩ hlot.alone
  by_cases hopt : R.options.renumberWindows
  · have hrun : Shrink (fun _ => True) (fun _ => True) sv (serverRenumberSession sv R.id) :=
      renumberSession_shrink fun _ _ => trivial
    have hid : (sessionRenumberWindows R sv.nextPtr).id = R.id := rfl
    have horder : Session.order (sessionRenumberWindows R sv.nextPtr) = Session.order R :=
      renumber_windows _ _ _
    have hfind : ∀ j, sessionFindById (serverRenumberSession sv R.id) j =
        if j = R.id then some (sessionRenumberWindows R sv.nextPtr) else sessionFindById sv j := by
      intro j
      simp only [serverRenumberSession, hR.find, if_pos hopt, hcontains, Option.getD_none,
        List.foldl_cons, List.foldl_nil, renumberMember]
      exact sessionFindById_set hid hR.find
    obtain ⟨hok, hR'⟩ := h.replace hrun hR hid rfl hfind (renumber_current hlot.current _)
      (horder ▸ List.Sublist.refl _)
    refine ⟨hok, fun R'' hR'' => ⟨R, hR, (hR''.unique hok.trees hR') ▸ hid⟩, ?_⟩
    rw [hR'.order hok.trees, hR.order h.trees, horder]
  · have hsame : serverRenumberSession sv R.id = sv := by
      simp only [serverRenumberSession, hR.find, if_neg hopt]
    rw [hsame]
    exact ⟨h, fun R' hR' => ⟨R', hR', rfl⟩, rfl⟩

/-- **Killing a parked window** takes it out of the recovery session and changes
no other session. -/
theorem RecoveryOk.kill {sv : Server} (h : RecoveryOk sv) (hsep : Separate sv) {R : Session}
    (hR : IsRecovery sv R) {w : Nat} (hw : w ∈ Session.order R) :
    RecoveryOk (serverKillWindow sv w true) ∧ SameLot sv (serverKillWindow sv w true) ∧
      (recoveryOrder sv).Perm (w :: recoveryOrder (serverKillWindow sv w true)) := by
  have hkept := windowUnzoom_kept sv w
  obtain ⟨hok₁, hiff₁⟩ := h.kept hkept
  have hR₁ := (hiff₁ R).mpr hR
  have horder₁ := recoveryOrder_congr h.trees hok₁.trees hiff₁
  obtain ⟨wl, hwl⟩ : ∃ wl, winlinkFindByWindow R.windows w = some wl := by
    obtain ⟨x, hx, hxw⟩ := List.mem_map.mp hw
    cases hf : winlinkFindByWindow R.windows w with
    | none => exact absurd hxw (findByWindow_none.mp hf x hx)
    | some wl => exact ⟨wl, rfl⟩
  obtain ⟨hmem, rfl⟩ := findByWindow_some hwl
  obtain ⟨hok₂, hlot₂, hperm₂⟩ := hok₁.unlink hR₁ hmem
  have hany : R.windows.any (fun x => x.window == wl.window) = true :=
    List.any_eq_true.mpr ⟨wl, hmem, by simp⟩
  have hfuel : R.windows.length = R.windows.length - 1 + 1 := by
    have := List.length_pos_of_mem hmem
    omega
  have hlot₂' : SameLot sv (serverUnlinkWindow (windowUnzoom sv wl.window) R.id wl) := by
    intro R' hR'
    obtain ⟨x, hx, hid⟩ := hlot₂ R' hR'
    exact ⟨x, (hiff₁ x).mp hx, hid⟩
  -- one round of the loop takes the only link there is
  have hkill : serverKillWindow sv wl.window true =
      serverRenumberSession (serverUnlinkWindow (windowUnzoom sv wl.window) R.id wl) R.id := by
    rw [killWindow_recovery h hsep hR hw true]
    simp only [killIn, hR.find, hany, if_true]
    rw [hfuel, killLoop_once hok₁ hR₁ hwl]
  rw [horder₁] at hperm₂
  rw [hkill]
  cases hf : sessionFindById (serverUnlinkWindow (windowUnzoom sv wl.window) R.id wl) R.id with
  | none =>
      -- the session was emptied by it
      have hsame : serverRenumberSession
          (serverUnlinkWindow (windowUnzoom sv wl.window) R.id wl) R.id =
          serverUnlinkWindow (windowUnzoom sv wl.window) R.id wl := by
        simp only [serverRenumberSession, hf]
      rw [hsame]
      exact ⟨hok₂, hlot₂', hperm₂⟩
  | some R₂ =>
      have hrun : Shrink (fun _ => True) (fun _ => True) (windowUnzoom sv wl.window)
          (serverUnlinkWindow (windowUnzoom sv wl.window) R.id wl) :=
        unlinkWindow_shrink wl fun _ _ => trivial
      have hid := sessionFindById_id hf
      obtain ⟨s, hs, hname⟩ := Shrink.name hrun hok₁.trees hf
      rw [hR₁.find] at hs
      cases hs
      have hR₂ : IsRecovery (serverUnlinkWindow (windowUnzoom sv wl.window) R.id wl) R₂ :=
        ⟨hid.symm ▸ hf, hname.trans hR.name⟩
      obtain ⟨hok₃, hlot₃, horder₃⟩ := hok₂.renumber hR₂
      rw [hid] at hok₃ hlot₃ horder₃
      refine ⟨hok₃, fun R' hR' => ?_, horder₃ ▸ hperm₂⟩
      obtain ⟨x, hx, hxid⟩ := hlot₃ R' hR'
      obtain ⟨y, hy, hyid⟩ := hlot₂' x hx
      exact ⟨y, hy, hxid.trans hyid⟩

end Newmux.Logic
