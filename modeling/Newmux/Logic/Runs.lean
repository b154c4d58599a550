import Newmux.Logic.Restore
import Newmux.Logic.Steps

/-!
# The session table over runs

`TreesOk` holds in every state of every run: the steps that link a window anew
(creating the recovery session, attaching) keep it as well as the ones that do
not.
-/

namespace Newmux.Logic

open Newmux.Base Newmux.Tmux Newmux.Recovery

theorem SessionsKept.treesOk {sv sv' : Server} (h : SessionsKept sv sv') (hok : TreesOk sv) :
    TreesOk sv' :=
  Shrink.treesOk (T := fun _ => True) (Shrink.of_kept h) hok

/-- The reserved item that a release, or a claim that will fail, puts back on the
closed stack. -/
def putsBack (σ : State) : Event → Option ClosedItem
  | .releaseReservedClosed value _ => reservedItem σ value
  | .claimReservedClosed value target _ =>
      (reservedItem σ value).filter fun item => !restorable σ.server target item
  | _ => none

/-! ## Creating the recovery session -/

private theorem create_perm (sv : Server) (name : String) :
    ∃ s : Session, s.id = sv.nextSessionId ∧ s.name = name ∧ s.windows = [] ∧ s.curw = none ∧
      s.options = sv.globalSOptions ∧ (sessionCreate sv name).1.sessions.Perm (s :: sv.sessions) :=
  ⟨_, rfl, rfl, rfl, rfl, rfl, List.perm_orderedInsert _ _ _⟩

/-- A session is created under an id and a name that are not in use. -/
theorem create_find {sv : Server} (hok : TreesOk sv) (name : String) :
    ∃ s : Session, s.id = sv.nextSessionId ∧ s.name = name ∧ s.windows = [] ∧ s.curw = none ∧
      s.options = sv.globalSOptions ∧ Table.Unique (sessionCreate sv name).1.sessions ∧
      ∀ j, sessionFindById (sessionCreate sv name).1 j =
        if j = sv.nextSessionId then some s else sessionFindById sv j := by
  obtain ⟨s, hid, hname, hw, hcur, hopt, hperm⟩ := create_perm sv name
  have hu : Table.Unique (sessionCreate sv name).1.sessions := by
    unfold Table.Unique
    rw [(hperm.map key).nodup_iff, List.map_cons, List.nodup_cons]
    refine ⟨fun hin => ?_, hok.unique⟩
    obtain ⟨x, hx, hxk⟩ := List.mem_map.mp hin
    have hlt := hok.ids x hx
    have hxid : x.id = s.id := hxk
    omega
  refine ⟨s, hid, hname, hw, hcur, hopt, hu, fun j => ?_⟩
  ext x
  have hmem : ∀ y : Session, y ∈ (sessionCreate sv name).1.sessions ↔ y = s ∨ y ∈ sv.sessions :=
    fun y => hperm.mem_iff.trans List.mem_cons
  have hiff : sessionFindById (sessionCreate sv name).1 j = some x ↔
      (x = s ∨ x ∈ sv.sessions) ∧ x.id = j := by
    rw [← hmem]
    exact Table.find_eq_some_iff hu
  rw [hiff]
  have hold : sessionFindById sv j = some x ↔ x ∈ sv.sessions ∧ x.id = j :=
    Table.find_eq_some_iff hok.unique
  by_cases hj : j = sv.nextSessionId
  · subst hj
    rw [if_pos rfl, Option.some.injEq]
    constructor
    · rintro ⟨rfl | hx, hxid⟩
      · rfl
      · exact absurd hxid (hok.ids x hx).ne
    · rintro rfl
      exact ⟨.inl rfl, hid⟩
  · rw [if_neg hj, hold]
    constructor
    · rintro ⟨rfl | hx, hxid⟩
      · exact absurd (hxid.symm.trans hid) hj
      · exact ⟨hx, hxid⟩
    · exact fun h => ⟨.inr h.1, h.2⟩

theorem create_treesOk {sv : Server} (hok : TreesOk sv) {name : String}
    (hnone : sessionFind sv name = none) : TreesOk (sessionCreate sv name).1 := by
  obtain ⟨s, hid, hname, hw, -, -, hperm⟩ := create_perm sv name
  obtain ⟨s', hid', -, hw', -, -, hu, hfind⟩ := create_find hok name
  refine ⟨hu, ?_, ?_, ?_, ⟨hok.groups.nodup, hok.groups.disjoint⟩⟩
  · rw [(hperm.map Session.name).nodup_iff, List.map_cons, List.nodup_cons]
    refine ⟨fun hin => ?_, hok.names⟩
    obtain ⟨x, hx, hxn⟩ := List.mem_map.mp hin
    have := List.find?_eq_none.mp hnone x hx
    rw [hname] at hxn
    simp [hxn] at this
  · intro x hx
    have hnext : (sessionCreate sv name).1.nextSessionId = sv.nextSessionId + 1 := rfl
    rcases List.mem_cons.mp (hperm.mem_iff.mp hx) with rfl | hx
    · omega
    · have := hok.ids x hx
      omega
  · intro j x hx
    rw [hfind] at hx
    split at hx
    · cases hx
      rw [hw']
      exact .nil _
    · exact hok.tree j x hx

theorem recoverySessionGet_treesOk {sv : Server} (hok : TreesOk sv) :
    TreesOk (newmuxRecoverySessionGet sv).1 := by
  unfold newmuxRecoverySessionGet
  split
  · exact hok
  · next h => exact create_treesOk hok h

/-! ## Attaching -/

/-- A session's tree is given one more winlink. -/
theorem relinked_treesOk {sv : Server} (hok : TreesOk sv) {s s₁ : Session}
    (hs : sessionFindById sv s.id = some s) (hid : s₁.id = s.id) (hname : s₁.name = s.name)
    {w last : Nat} {wl : Winlink} (hroom : RoomMade s.windows sv.nextPtr w wl s₁.windows last) :
    TreesOk { sv.setSession s₁ with nextPtr := sv.nextPtr + 1 } := by
  have hnames := set_names hok.unique hs hid hname
  have htree := hroom.treeOk (hok.tree _ s hs)
  refine ⟨?_, ?_, ?_, ?_, ⟨hok.groups.nodup, hok.groups.disjoint⟩⟩
  · exact Table.unique_modify _ (fun _ _ => rfl) hok.unique
  · have h := congrArg (List.map Prod.snd) hnames
    simp only [List.map_map, Function.comp_def] at h
    change ((sv.setSession s₁).sessions.map Session.name).Nodup
    rw [h]
    exact hok.names
  · intro x hx
    have hmem := List.mem_map_of_mem (f := fun s : Session => (s.id, s.name)) hx
    change _ ∈ (sv.setSession s₁).sessions.map _ at hmem
    rw [hnames] at hmem
    obtain ⟨y, hy, hyx⟩ := List.mem_map.mp hmem
    rw [← (Prod.mk.inj hyx).1]
    exact hok.ids y hy
  · intro j x hx
    exact set_tree (Nat.le_succ _) hok hs hid htree hx

theorem attached_treesOk {sv : Server} (hok : TreesOk sv) {s : Session}
    (hs : sessionFindById sv s.id = some s) {w last : Nat} {wl : Winlink} {wwl : Winlinks}
    (hroom : RoomMade s.windows sv.nextPtr w wl wwl last) : TreesOk (attached sv s wl wwl) := by
  obtain ⟨hid, hname, -, hw⟩ := linkedSession_fields s wl wwl
  have hlinked : TreesOk (linkedServer sv s wl wwl) :=
    relinked_treesOk hok hs hid hname (hw.symm ▸ hroom)
  exact Shrink.treesOk (T := fun _ => True) (W := fun _ => True) (syncFrom_shrink fun _ _ => trivial) hlinked

theorem attachSilent_treesOk {sv : Server} (hok : TreesOk sv) (s w : Nat) (idx : Int) :
    TreesOk (newmuxSessionAttachSilent sv s w idx).1 := by
  cases hs : sessionFindById sv s with
  | none =>
      unfold newmuxSessionAttachSilent
      rw [hs]
      exact hok
  | some ses =>
      have hid := sessionFindById_id hs
      subst hid
      have hout := attachSilent_outcome hs w idx
      generalize newmuxSessionAttachSilent sv ses.id w idx = r at hout ⊢
      cases hout with
      | ok wl wwl h => exact attached_treesOk hok hs (roomMade_of_add h)
      | error cause h => exact hok

theorem sessionAttach_treesOk {sv : Server} (hok : TreesOk sv) (s w : Nat) (idx : Int) :
    TreesOk (sessionAttach sv s w idx).1 := by
  unfold sessionAttach
  split
  · exact hok
  · next ses hs =>
      have hid := sessionFindById_id hs
      subst hid
      split
      · exact hok
      · next wl wwl hadd =>
          have hlinked : TreesOk { sv.setSession { ses with windows := wwl } with
              nextPtr := sv.nextPtr + 1 } := by
            refine relinked_treesOk hok hs ?_ ?_ (roomMade_of_add hadd) <;> rfl
          exact Shrink.treesOk (T := fun _ => True) (W := fun _ => True) (syncFrom_shrink fun _ _ => trivial) hlinked

/-! ## The commands -/

theorem breakLiveWindow_treesOk {sv : Server} (hok : TreesOk sv) (item : ClosedItem) (s : Nat)
    (wl : Winlink) : TreesOk (newmuxBreakLiveWindow sv item s wl).1 := by
  have hready : TreesOk (preserveHistories
      (windowUnzoom (newmuxRecoverySessionGet sv).1 wl.window)
      (((windowFindById (windowUnzoom (newmuxRecoverySessionGet sv).1 wl.window)
        wl.window).map Window.panes).getD [])) :=
    ((windowUnzoom_kept _ _).trans (preserveHistories_kept _ _)).treesOk
      (recoverySessionGet_treesOk hok)
  have hattach := attachSilent_treesOk hready (newmuxRecoverySessionGet sv).2 wl.window (-1)
  simp only [newmuxBreakLiveWindow]
  split
  · next heq =>
      rw [heq] at hattach
      exact hattach
  · next heq =>
      rw [heq] at hattach
      have hdetach := Shrink.treesOk (detachSilent_shrink (T := fun _ => True)
        (W := fun _ => True) (s := s) wl
        fun _ _ => trivial) hattach
      split <;> next heq' => rw [heq'] at hdetach; exact hdetach

theorem breakLivePane_treesOk {sv : Server} (hok : TreesOk sv) (item : ClosedItem)
    (wl : Winlink) (wp : Nat) : TreesOk (newmuxBreakLivePane sv item wl wp).1 := by
  have hready := (breakPane_kept (newmuxRecoverySessionGet sv).1 wl.window wp
    item.sequence).treesOk (recoverySessionGet_treesOk hok)
  have hattach := sessionAttach_treesOk hready (newmuxRecoverySessionGet sv).2
    (breakPane (newmuxRecoverySessionGet sv).1 wl.window wp item.sequence).2 (-1)
  simp only [newmuxBreakLivePane]
  split
  · next heq =>
      rw [heq] at hattach
      exact hattach
  · next sv' link heq =>
      rw [heq] at hattach
      simp only
      split
      · exact hattach
      · next ses hs =>
          split
          · have hid := sessionFindById_id hs
            have hmove : ShrinkStep (fun _ => True) (fun _ => True) sv'
                (sv'.setSession (sessionSelect ses link.idx).2) :=
              .move trivial (hid.symm ▸ hs) (sessionSelect_same ses link.idx)
            exact hmove.treesOk hattach
          · exact hattach

/-- Selecting the restored pane and its window. -/
def paneSelected (sv : Server) (item : ClosedItem) (dstS : Nat) (dstWl : Winlink) : Server :=
  serverSessionSelect (newmuxProtectPaneHistoryOnNextClear
    (newmuxSelectPaneIndex sv dstWl.window item.activePaneIndex) item.paneId) dstS dstWl.idx

/-- The recovery window is killed if no pane is left in it. -/
theorem finishPaneRestore_eq (sv : Server) (item : ClosedItem) (dstS : Nat) (dstWl : Winlink)
    (recoveryW : Nat) : finishPaneRestore sv item dstS dstWl recoveryW =
      if panesOf (paneSelected sv item dstS dstWl) recoveryW = some [] then
        serverKillWindow (paneSelected sv item dstS dstWl) recoveryW true
      else paneSelected sv item dstS dstWl := by
  unfold finishPaneRestore panesOf paneSelected
  simp only
  cases windowFindById _ recoveryW with
  | none => rfl
  | some win => simp [windowCountPanes]

theorem paneSelected_shrink {T : Nat → Prop} (sv : Server) (item : ClosedItem) {dstS : Nat}
    (dstWl : Winlink) (hdst : T dstS) :
    Shrink T (fun _ => True) sv (paneSelected sv item dstS dstWl) :=
  (Shrink.of_kept ((newmuxSelectPaneIndex_kept sv dstWl.window item.activePaneIndex).trans
    (protectPane_kept _ item.paneId))).trans (sessionSelect_shrink dstWl.idx hdst)

theorem finishPaneRestore_treesOk {sv : Server} (hok : TreesOk sv) (item : ClosedItem)
    (dstS : Nat) (dstWl : Winlink) (recoveryW : Nat) :
    TreesOk (finishPaneRestore sv item dstS dstWl recoveryW) := by
  have hrun : Shrink (fun _ => True) (fun _ => True) sv (paneSelected sv item dstS dstWl) :=
    paneSelected_shrink sv item dstWl trivial
  have hsel := Shrink.treesOk hrun hok
  rw [finishPaneRestore_eq]
  split
  · exact Shrink.treesOk (killWindow_shrink hsel _ _) hsel
  · exact hsel

theorem laidOut_kept (sv : Server) (w : Nat) (layout : Option (List Char)) :
    SessionsKept sv (laidOut sv w layout) := by
  unfold laidOut
  split
  · exact .refl sv
  · exact layoutParse_kept sv w _

theorem restoreClosedItem_treesOk {sv : Server} (hok : TreesOk sv) (target : Option Nat)
    (item : ClosedItem) : TreesOk (newmuxRestoreClosedItem sv target item).1 := by
  unfold newmuxRestoreClosedItem
  cases item.type with
  | pane =>
      have hout := restoreLivePane_outcome sv target item
      simp only
      generalize newmuxRestoreLivePane sv target item = r at hout ⊢
      cases hout with
      | missing => exact hok
      | misfit cause dstS dstWl recoveryW h hfit => exact (movePaneBack_kept _ _ _ _).treesOk hok
      | back dstS dstWl recoveryW h hfit =>
          have hlaid := ((movePaneBack_kept sv item dstWl.window recoveryW.id).trans
            (laidOut_kept _ dstWl.window item.windowLayout)).treesOk hok
          exact finishPaneRestore_treesOk hlaid item dstS.id dstWl recoveryW.id
  | window =>
      have hout := restoreLiveWindow_outcome hok target item
      simp only
      generalize newmuxRestoreLiveWindow sv target item = r at hout ⊢
      cases hout with
      | missing => exact hok
      | noRoom => exact hok
      | back dstS recoveryS recoveryWl w wl wwl h hlink =>
          have hdst := destination_find hok.unique (findLiveWindow_ok h).1
          obtain ⟨last, hroom⟩ := Place.link_spec (hok.tree _ _ hdst).sorted hlink
          have hatt := attached_treesOk hok hdst hroom
          have hrun : Shrink (fun _ => True) (fun _ => True) (attached sv dstS wl wwl)
              (windowBack sv dstS recoveryS recoveryWl w wl wwl) :=
            ((unlinkWindow_shrink recoveryWl fun _ _ => trivial).trans
              (sessionSelect_shrink wl.idx trivial)).trans
              (Shrink.of_kept ((restoreIfShrunk_kept _ _).trans (protectWindow_kept _ _)))
          exact Shrink.treesOk hrun hatt
  | session => exact hok

theorem parked_server (σ : State) (broken : Server × Except String ClosedItem) :
    (parked σ broken).server = broken.1 := by
  obtain ⟨server, result⟩ := broken
  cases result <;> rfl

theorem restoreOrPushBack_server (σ : State) (target : Option Nat) (item : ClosedItem)
    (print : Bool) : (restoreOrPushBack σ target item print).1.server =
      (newmuxRestoreClosedItem σ.server target item).1 := by
  unfold restoreOrPushBack
  cases newmuxRestoreClosedItem σ.server target item with
  | mk server result => cases result <;> rfl

theorem pop_server {σ σ₁ : State} {item : ClosedItem} (h : newmuxStackPop σ = some (item, σ₁)) :
    σ₁.server = σ.server := by
  rw [(pop_some h).2]

theorem reservedPop_server {σ σ₁ : State} {n : Nat} {item : ClosedItem}
    (h : newmuxReservedPopBySequence σ n = some (item, σ₁)) : σ₁.server = σ.server := by
  rw [(reservedPop_some h).2.2]

theorem recoveryClear_treesOk {σ : State} (hok : TreesOk σ.server) :
    TreesOk (newmuxRecoveryClear σ).server := by
  unfold newmuxRecoveryClear newmuxStackClear
  simp only
  split
  · exact hok
  · exact Shrink.treesOk (sessionDestroy_shrink (T := fun _ => True) (W := fun _ => True) trivial) hok

/-- Every command keeps the session table well formed. -/
theorem exec_treesOk {σ : State} (hok : TreesOk σ.server) {l : Event} (hv : l.Valid σ.server) :
    TreesOk (exec σ l).server := by
  have hout := exec_outcome hok.unique hv
  generalize exec σ l = σ' at hout ⊢
  cases hout with
  | idle => exact hok
  | kill => exact Shrink.treesOk (killWindow_shrink hok _ _) hok
  | parkWindow =>
      rw [parked_server]
      exact breakLiveWindow_treesOk hok _ _ _
  | parkPane =>
      rw [parked_server]
      exact breakLivePane_treesOk hok _ _ _
  | reserve print item σ₁ h =>
      have hserver : (newmuxReservedPush σ₁ item).server = σ₁.server := rfl
      rw [hserver, pop_server h]
      exact hok
  | reopen target print item σ₁ h =>
      rw [restoreOrPushBack_server, pop_server h]
      exact restoreClosedItem_treesOk hok target item
  | claim value target print item n σ₁ hitem h =>
      rw [restoreOrPushBack_server, reservedPop_server h]
      exact restoreClosedItem_treesOk hok target item
  | release value print item n σ₁ hitem h =>
      rw [push_server, reservedPop_server h]
      exact hok
  | clear => exact recoveryClear_treesOk hok
  | output wp content => exact (paneOutput_kept _ _ _).treesOk hok

/-- Every state of every run has a well-formed session table. -/
theorem reachable_treesOk {Init : Server → Prop} (hinit : ∀ sv, Init sv → TreesOk sv)
    {Good : State → Event → Prop} {σ : State}
    (h : (recoverySystem Init).ReachableWith Good σ) : TreesOk σ.server := by
  have hind : (recoverySystem Init).Inductive Good (fun σ => TreesOk σ.server) := by
    refine ⟨fun σ h => hinit _ h.2, ?_⟩
    rintro σ l _ hok - ⟨hv, rfl⟩
    exact exec_treesOk hok hv
  exact hind.invariant h

end Newmux.Logic
