import Newmux.Logic.Shrink

/-!
# The server operations as sequences of primitive steps

Each operation that detaches, destroys, renumbers or synchronizes is a
`Shrink` touching only the group of the session it is called on; killing a
window touches only the groups that link it.
-/

namespace Newmux.Logic

open Newmux.Base Newmux.Tmux Newmux.Recovery

/-! ## Runs of primitive steps -/

namespace Shrink

variable {T W : Nat → Prop} {sv sv' : Server}

theorem inGroup (h : Shrink T W sv sv') {i j : Nat} (hg : InGroup sv' i j) : InGroup sv i j := by
  induction h with
  | refl => exact hg
  | tail _ hstep ih => exact ih (hstep.inGroup hg)

theorem frame (h : Shrink T W sv sv') {j : Nat} (hj : ¬ T j) :
    sessionFindById sv' j = sessionFindById sv j := by
  induction h with
  | refl => rfl
  | tail _ hstep ih => exact (hstep.frame hj).trans ih

theorem treesOk (h : Shrink T W sv sv') (hok : TreesOk sv) : TreesOk sv' := by
  induction h with
  | refl => exact hok
  | tail _ hstep ih => exact hstep.treesOk ih

theorem linksOn {P : Nat → Prop} (h : Shrink T W sv sv') (hok : TreesOk sv)
    (hP : ∀ i j, InGroup sv i j → P i → P j) (hl : LinksOn P sv) : LinksOn P sv' := by
  induction h with
  | refl => exact hl
  | tail hrun hstep ih =>
      exact hstep.linksOn (Shrink.treesOk hrun hok)
        (fun i j hg => hP i j (Shrink.inGroup hrun hg)) ih

theorem created (h : Shrink T W sv sv') (hok : TreesOk sv) (hc : Created sv) : Created sv' := by
  induction h with
  | refl => exact hc
  | tail hrun hstep ih => exact hstep.created (Shrink.treesOk hrun hok) ih

theorem grouped (h : Shrink T W sv sv') {j : Nat} (hg : Grouped sv' j) : Grouped sv j := by
  induction h with
  | refl => exact hg
  | tail _ hstep ih => exact ih (hstep.grouped hg)

theorem counters (h : Shrink T W sv sv') :
    sv'.nextSessionId = sv.nextSessionId ∧ sv.nextPtr ≤ sv'.nextPtr ∧
      sv.nextWindowId ≤ sv'.nextWindowId := by
  induction h with
  | refl => exact ⟨rfl, le_rfl, le_rfl⟩
  | tail _ hstep ih =>
      obtain ⟨h1, h2, h3⟩ := hstep.counters
      exact ⟨h1.trans ih.1, ih.2.1.trans h2, ih.2.2.trans h3⟩

/-- A session after the run was there before, under the same name. -/
theorem name (h : Shrink T W sv sv') (hok : TreesOk sv) {j : Nat} {s' : Session}
    (hj : sessionFindById sv' j = some s') :
    ∃ s, sessionFindById sv j = some s ∧ s'.name = s.name := by
  induction h generalizing s' with
  | refl => exact ⟨s', hj, rfl⟩
  | tail hrun hstep ih =>
      have hok' := Shrink.treesOk hrun hok
      obtain ⟨s, hs, hname, -⟩ := hstep.find_some (fun id s hs => (hok'.tree id s hs).sorted) hj
      obtain ⟨s₀, hs₀, hname₀⟩ := ih hs
      exact ⟨s₀, hs₀, hname.trans hname₀⟩

/-- A window linked after the run was linked before, in the same group. -/
theorem linked_before (h : Shrink T W sv sv') (hok : TreesOk sv) {j : Nat} {s' : Session}
    (hj : sessionFindById sv' j = some s') {w : Nat} (hw : w ∈ Session.order s') :
    ∃ i s, sessionFindById sv i = some s ∧ InGroup sv i j ∧ w ∈ Session.order s := by
  induction h generalizing j s' with
  | refl => exact ⟨j, s', hj, .refl sv j, hw⟩
  | tail hrun hstep ih =>
      obtain ⟨i, s, hs, hg, hws⟩ := hstep.linked_before (Shrink.treesOk hrun hok) hj hw
      obtain ⟨i₀, s₀, hs₀, hg₀, hws₀⟩ := ih hs hws
      exact ⟨i₀, s₀, hs₀, hok.groups.trans hg₀ (Shrink.inGroup hrun hg), hws₀⟩

/-- The windows that are still linked survive, and none is new or changed. -/
theorem windows (h : Shrink T W sv sv') (hok : TreesOk sv) : WindowsKept W sv sv' := by
  induction h with
  | refl => exact .of_windows rfl
  | tail hrun hstep ih =>
      have hok' := Shrink.treesOk hrun hok
      have hstep' := hstep.windows
      refine ⟨fun w hw hl => ?_, fun w win hw hfind => ih.back w win hw (hstep'.back w win hw hfind)⟩
      have hmid := hstep.linked hok' hl
      rw [hstep'.survive w hw hl, ih.survive w hw hmid]

theorem mono {T' : Nat → Prop} (h : Shrink T W sv sv') (hsub : ∀ j, T j → T' j) :
    Shrink T' W sv sv' := by
  induction h with
  | refl => exact .refl
  | tail _ hstep ih =>
      refine ih.tail ?_
      cases hstep with
      | kept h hw => exact .kept h hw
      | move hT hs h => exact .move (hsub _ hT) hs h
      | unlink hT hs hid hname hopt hw => exact .unlink (hsub _ hT) hs hid hname hopt hw
      | sync hT ht hm hg => exact .sync (hsub _ hT) ht hm hg
      | shuffle hT hs h => exact .shuffle (hsub _ hT) hs h
      | renumber hT hs => exact .renumber (hsub _ hT) hs
      | destroy hT => exact .destroy (hsub _ hT)

end Shrink

/-! ## Synchronizing -/

theorem removeRef_step {T W : Nat → Prop} (sv : Server) (w : Nat) :
    ShrinkStep T W sv (windowRemoveRef sv w) :=
  .kept (windowRemoveRef_kept sv w) (windowRemoveRef_windows W sv w)

theorem removeRefs_shrink {T W : Nat → Prop} (wwl : Winlinks) (sv : Server) :
    Shrink T W sv (wwl.foldl (fun sv wl => windowRemoveRef sv wl.window) sv) := by
  induction wwl generalizing sv with
  | nil => exact .refl
  | cons wl wwl ih => exact (Relation.ReflTransGen.single (removeRef_step sv wl.window)).trans (ih _)

theorem sync1_shrink {T W : Nat → Prop} {sv : Server} {t m : Nat} (hT : T m)
    (hg : InGroup sv t m) : Shrink T W sv (sessionGroupSynchronize1 sv t m) := by
  unfold sessionGroupSynchronize1
  split
  · next tt mm ht hm =>
      split
      · exact .refl
      · have htid := sessionFindById_id ht
        have hmid := sessionFindById_id hm
        have hsync : ShrinkStep T W sv _ :=
          .sync (hmid ▸ hT) (htid.symm ▸ ht) (hmid.symm ▸ hm) (htid.symm ▸ hmid.symm ▸ hg)
        exact (Relation.ReflTransGen.single hsync).trans (removeRefs_shrink mm.windows _)
  · exact .refl

theorem sync1_groups (sv : Server) (t m : Nat) :
    (sessionGroupSynchronize1 sv t m).groups = sv.groups := by
  unfold sessionGroupSynchronize1
  split
  · split
    · rfl
    · exact (removeRefs_kept _ _).groups
  · rfl

theorem syncAll_shrink {T W : Nat → Prop} {t : Nat} (ms : List Nat) {sv : Server}
    (hT : ∀ m ∈ ms, T m) (hg : ∀ m ∈ ms, InGroup sv t m) :
    Shrink T W sv (ms.foldl (fun sv m => sessionGroupSynchronize1 sv t m) sv) := by
  induction ms generalizing sv with
  | nil => exact .refl
  | cons m ms ih =>
      have hstep := sync1_shrink (W := W) (hT m List.mem_cons_self) (hg m List.mem_cons_self)
      refine hstep.trans (ih (fun x hx => hT x (List.mem_cons_of_mem _ hx)) fun x hx => ?_)
      have := hg x (List.mem_cons_of_mem _ hx)
      simpa only [InGroup, sync1_groups] using this

theorem syncFrom_shrink {T W : Nat → Prop} {sv : Server} {s : Nat}
    (hT : ∀ j, InGroup sv s j → T j) : Shrink T W sv (sessionGroupSynchronizeFrom sv s) := by
  unfold sessionGroupSynchronizeFrom
  split
  · exact .refl
  · next sg hsg =>
      have hin : ∀ m ∈ sg.filter (· != s), InGroup sv s m := fun m hm =>
        inGroup_of_contains hsg (List.mem_of_mem_filter hm)
      exact syncAll_shrink _ (fun m hm => hT m (hin m hm)) hin

/-! ## Detaching and destroying -/

theorem sessionUnlink_shrink {T W : Nat → Prop} {sv : Server} {s s₁ : Session} (hT : T s.id)
    (hs : sessionFindById sv s.id = some s) (hid : s₁.id = s.id) (hname : s₁.name = s.name)
    (hopt : s₁.options = s.options) (hw : s₁.windows = s.windows) (wl : Winlink) :
    Shrink T W sv (sessionUnlink sv s₁ wl) := by
  unfold sessionUnlink
  have hstep : ShrinkStep T W sv
      (sv.setSession { s₁ with windows := winlinkRemove s₁.windows wl.ptr }) :=
    .unlink hT hs hid hname hopt (by rw [hw])
  exact (Relation.ReflTransGen.single hstep).tail (removeRef_step _ _)

theorem sessionUnlink_groups (sv : Server) (s : Session) (wl : Winlink) :
    (sessionUnlink sv s wl).groups = sv.groups :=
  (windowRemoveRef_kept _ _).groups

theorem unlinkSync_shrink {T W : Nat → Prop} {sv : Server} {s s₁ : Session}
    (hT : ∀ j, InGroup sv s.id j → T j) (hs : sessionFindById sv s.id = some s)
    (hid : s₁.id = s.id) (hname : s₁.name = s.name) (hopt : s₁.options = s.options)
    (hw : s₁.windows = s.windows) (wl : Winlink) :
    Shrink T W sv (sessionGroupSynchronizeFrom (sessionUnlink sv s₁ wl) s.id) := by
  refine (sessionUnlink_shrink (hT _ (.refl sv _)) hs hid hname hopt hw wl).trans
    (syncFrom_shrink fun j hj => hT j ?_)
  simpa only [InGroup, sessionUnlink_groups] using hj

/-- What the detaches do before they unlink: another current window, another
last-window stack. -/
theorem detachReady_same (ses : Session) (wl : Winlink) : SameTree ses (detachReady ses wl) := by
  unfold detachReady
  have hleave := sessionLeaveCurrent_same ses
  by_cases hc : ses.curw = some wl.ptr
  · simp only [hc, if_true]
    exact ⟨hleave.id, hleave.name, hleave.windows, hleave.options,
      fun h => hc ▸ hleave.curw h⟩
  · simp only [hc, if_false]
    exact ⟨rfl, rfl, rfl, rfl, fun h => h⟩

theorem detachSilentReady_fields (ses : Session) (wl : Winlink) :
    (detachSilentReady ses wl).id = ses.id ∧ (detachSilentReady ses wl).name = ses.name ∧
      (detachSilentReady ses wl).options = ses.options ∧
      (detachSilentReady ses wl).windows = ses.windows := by
  unfold detachSilentReady
  simp only
  split
  · split
    · next next _ =>
        have h := sessionSetCurrent_same ses (some next)
        exact ⟨h.id, h.name, h.options, h.windows⟩
    · exact ⟨rfl, rfl, rfl, rfl⟩
  · exact ⟨rfl, rfl, rfl, rfl⟩

theorem sessionDetach_shrink {T W : Nat → Prop} {sv : Server} {s : Nat} (wl : Winlink)
    (hT : ∀ j, InGroup sv s j → T j) : Shrink T W sv (sessionDetach sv s wl).1 := by
  unfold sessionDetach
  split
  · exact .refl
  · next ses hs =>
      have hid := sessionFindById_id hs
      subst hid
      have h := detachReady_same ses wl
      exact unlinkSync_shrink hT hs h.id h.name h.options h.windows wl

theorem detachSilent_shrink {T W : Nat → Prop} {sv : Server} {s : Nat} (wl : Winlink)
    (hT : ∀ j, InGroup sv s j → T j) : Shrink T W sv (newmuxSessionDetachSilent sv s wl).1 := by
  unfold newmuxSessionDetachSilent
  split
  · exact .refl
  · next ses hs =>
      have hid := sessionFindById_id hs
      subst hid
      obtain ⟨hid, hname, hopt, hw⟩ := detachSilentReady_fields ses wl
      exact unlinkSync_shrink hT hs hid hname hopt hw wl

theorem sessionDestroy_shrink {T W : Nat → Prop} {sv : Server} {s : Nat} (hT : T s) :
    Shrink T W sv (sessionDestroy sv s) := by
  unfold sessionDestroy
  split
  · exact .refl
  · split
    · exact .refl
    · exact (Relation.ReflTransGen.single (.destroy hT)).trans (removeRefs_shrink _ _)

theorem destroyAll_shrink {T W : Nat → Prop} (sg : List Nat) {sv : Server} (hT : ∀ j ∈ sg, T j) :
    Shrink T W sv (sg.foldl sessionDestroy sv) := by
  induction sg generalizing sv with
  | nil => exact .refl
  | cons s sg ih =>
      exact (sessionDestroy_shrink (hT s List.mem_cons_self)).trans
        (ih fun j hj => hT j (List.mem_cons_of_mem _ hj))

theorem destroyGroup_shrink {T W : Nat → Prop} {sv : Server} {s : Nat}
    (hT : ∀ j, InGroup sv s j → T j) : Shrink T W sv (serverDestroySessionGroup sv s) := by
  unfold serverDestroySessionGroup
  split
  · exact sessionDestroy_shrink (hT s (.refl sv s))
  · next sg hsg => exact destroyAll_shrink sg fun j hj => hT j (inGroup_of_contains hsg hj)

theorem unlinkWindow_shrink {T W : Nat → Prop} {sv : Server} {s : Nat} (wl : Winlink)
    (hT : ∀ j, InGroup sv s j → T j) : Shrink T W sv (serverUnlinkWindow sv s wl) := by
  unfold serverUnlinkWindow
  have hdet := sessionDetach_shrink (T := T) (W := W) wl hT
  simp only
  split
  · exact hdet.trans (destroyGroup_shrink fun j hj => hT j (Shrink.inGroup hdet hj))
  · exact hdet

/-! ## Renumbering and killing -/

theorem renumberMember_shrink {T W : Nat → Prop} {sv : Server} {m : Nat} (hT : T m) :
    Shrink T W sv (renumberMember sv m) := by
  unfold renumberMember
  split
  · exact .refl
  · next mem hm =>
      have hid := sessionFindById_id hm
      exact .single (.renumber (hid.symm ▸ hT) (hid.symm ▸ hm))

theorem renumberAll_shrink {T W : Nat → Prop} (ms : List Nat) {sv : Server}
    (hT : ∀ j ∈ ms, T j) : Shrink T W sv (ms.foldl renumberMember sv) := by
  induction ms generalizing sv with
  | nil => exact .refl
  | cons m ms ih =>
      exact (renumberMember_shrink (hT m List.mem_cons_self)).trans
        (ih fun j hj => hT j (List.mem_cons_of_mem _ hj))

theorem renumberSession_shrink {T W : Nat → Prop} {sv : Server} {s : Nat}
    (hT : ∀ j, InGroup sv s j → T j) : Shrink T W sv (serverRenumberSession sv s) := by
  unfold serverRenumberSession
  split
  · exact .refl
  · split
    · refine renumberAll_shrink _ fun j hj => hT j ?_
      cases hg : sessionGroupContains sv s with
      | none =>
          rw [hg] at hj
          simp only [Option.getD_none, List.mem_singleton] at hj
          exact hj ▸ .refl sv s
      | some sg =>
          rw [hg] at hj
          exact inGroup_of_contains hg hj
    · exact .refl

theorem killLoop_shrink {T W : Nat → Prop} (w : Nat) (fuel : Nat) {sv : Server} {s : Nat}
    (hT : ∀ j, InGroup sv s j → T j) : Shrink T W sv (killLoop w fuel sv s) := by
  induction fuel generalizing sv with
  | zero => exact .refl
  | succ fuel ih =>
      unfold killLoop
      split
      · exact .refl
      · next wl _ =>
          have hdet := sessionDetach_shrink (T := T) (W := W) wl hT
          have hT' : ∀ j, InGroup (sessionDetach sv s wl).1 s j → T j :=
            fun j hj => hT j (Shrink.inGroup hdet hj)
          simp only
          split
          · exact hdet.trans (destroyGroup_shrink hT')
          · exact hdet.trans (ih hT')

theorem killIn_shrink {T W : Nat → Prop} {w : Nat} (hW : W w) (renumber : Bool) {sv : Server}
    {s : Nat} (hT : ∀ ses, sessionFindById sv s = some ses → w ∈ Session.order ses →
      ∀ j, InGroup sv s j → T j) : Shrink T W sv (killIn w renumber sv s) := by
  unfold killIn
  split
  · exact .refl
  · next ses hs =>
      split
      · next hany =>
          have hw : w ∈ Session.order ses := by
            obtain ⟨wl, hwl, he⟩ := List.any_eq_true.mp hany
            exact List.mem_map.mpr ⟨wl, hwl, by simpa using he⟩
          have hT := hT ses hs hw
          have hun : Shrink T W sv (windowUnzoom sv w) :=
            .single (.kept (windowUnzoom_kept sv w) (windowUnzoom_windows sv hW))
          have hkill := hun.trans (killLoop_shrink w ses.windows.length
            fun j hj => hT j (Shrink.inGroup hun hj))
          simp only
          split
          · exact hkill.trans
              (renumberSession_shrink fun j hj => hT j (Shrink.inGroup hkill hj))
          · exact hkill
      · exact .refl

/-- The sessions a kill of `w` can touch: the groups that link it. -/
def LinksGroup (sv : Server) (w j : Nat) : Prop :=
  ∃ i s, sessionFindById sv i = some s ∧ w ∈ Session.order s ∧ InGroup sv i j

/-- A group that links the window after a run linked it before. -/
theorem Shrink.linksGroup {T W : Nat → Prop} {sv sv' : Server} (h : Shrink T W sv sv')
    (hok : TreesOk sv) {w j : Nat} (hl : LinksGroup sv' w j) : LinksGroup sv w j := by
  obtain ⟨i, s, hs, hw, hg⟩ := hl
  obtain ⟨i₀, s₀, hs₀, hg₀, hw₀⟩ := Shrink.linked_before h hok hs hw
  exact ⟨i₀, s₀, hs₀, hw₀, hok.groups.trans hg₀ (Shrink.inGroup h hg)⟩

/-- Killing a window touches only the groups that link it, and no other window. -/
theorem killWindow_shrink {sv : Server} (hok : TreesOk sv) (w : Nat) (renumber : Bool) :
    Shrink (LinksGroup sv w) (· = w) sv (serverKillWindow sv w renumber) := by
  unfold serverKillWindow
  generalize sv.sessions.map Session.id = ids
  suffices h : ∀ sv', Shrink (LinksGroup sv w) (· = w) sv sv' →
      Shrink (LinksGroup sv w) (· = w) sv (ids.foldl (killIn w renumber) sv') from h sv .refl
  induction ids with
  | nil => exact fun sv' h => h
  | cons s ids ih =>
      intro sv' hrun
      exact ih _ (hrun.trans (killIn_shrink (W := (· = w)) rfl renumber fun ses hs hw j hj =>
        Shrink.linksGroup hrun hok ⟨s, ses, hs, hw, hj⟩))

theorem serverSessionSelect_find (sv : Server) (s idx j : Nat) :
    sessionFindById (serverSessionSelect sv s idx) j =
      if j = s then (sessionFindById sv j).map (fun ses => (sessionSelect ses idx).2)
      else sessionFindById sv j := by
  unfold serverSessionSelect
  cases hs : sessionFindById sv s with
  | none =>
      by_cases hj : j = s
      · simp [hj, hs]
      · simp [hj]
  | some ses =>
      have hid := sessionFindById_id hs
      simp only
      rw [sessionFindById_setSession, (sessionSelect_same ses idx).id, hid]
      by_cases hj : j = s
      · simp [hj, hs]
      · simp [hj]

theorem sessionSelect_shrink {T W : Nat → Prop} {sv : Server} {s : Nat} (idx : Nat) (hT : T s) :
    Shrink T W sv (serverSessionSelect sv s idx) := by
  unfold serverSessionSelect
  split
  · exact .refl
  · next ses hs =>
      have hid := sessionFindById_id hs
      exact .single (.move (hid ▸ hT) (hid.symm ▸ hs) (sessionSelect_same ses idx))

end Newmux.Logic
