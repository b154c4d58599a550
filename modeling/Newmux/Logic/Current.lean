import Newmux.Logic.ServerOps
import Mathlib.Data.List.TakeWhile

/-!
# Current windows

The current window of a session is one of its winlinks: leaving it goes to
another one as long as there is another, so that a session keeps a current
window when one of its windows is unlinked.
-/

namespace Newmux.Logic

open Newmux.Base Newmux.Tmux Newmux.Recovery

/-! ## Current windows -/

/-- The current window is one of the session's; only an empty session has none. -/
structure CurrentOk (s : Session) : Prop where
  member : ∀ p, s.curw = some p → p ∈ s.windows.map Winlink.ptr
  empty : s.curw = none → s.windows = []

theorem sessionSetCurrent_of_ne {s : Session} {wl : Winlink} (hne : s.curw ≠ some wl.ptr) :
    (sessionSetCurrent s (some wl)).1 = 0 ∧
      (sessionSetCurrent s (some wl)).2.curw = some wl.ptr := by
  simp [sessionSetCurrent, hne]

theorem winlinkPrevious_some {wwl : Winlinks} {ptr : Nat} {x : Winlink}
    (h : winlinkPrevious wwl ptr = some x) : x ∈ wwl ∧ x.ptr ≠ ptr := by
  have hx := List.mem_of_getLast? h
  exact ⟨List.takeWhile_subset _ hx, by simpa using List.mem_takeWhile_imp hx⟩

theorem winlinkNext_some {wwl : Winlinks} (hptrs : (wwl.map Winlink.ptr).Nodup) {ptr : Nat}
    {x : Winlink} (h : winlinkNext wwl ptr = some x) : x ∈ wwl ∧ x.ptr ≠ ptr := by
  unfold winlinkNext at h
  cases hd : wwl.dropWhile (fun wl => wl.ptr != ptr) with
  | nil => simp [hd] at h
  | cons a rest =>
      rw [hd] at h
      have hsub : (a :: rest).Sublist wwl := hd ▸ List.dropWhile_sublist _
      have hx : x ∈ rest := List.mem_of_head? h
      refine ⟨hsub.subset (List.mem_cons_of_mem _ hx), fun he => ?_⟩
      have ha : a.ptr = ptr := by
        have := List.head?_dropWhile_not (fun wl : Winlink => wl.ptr != ptr) wwl
        simpa [hd] using this
      have hnd := hptrs.sublist (hsub.map Winlink.ptr)
      rw [List.map_cons, List.nodup_cons] at hnd
      exact hnd.1 (ha.trans he.symm ▸ List.mem_map_of_mem hx)

/-- Going to the previous window leaves the current one, if there is another. -/
theorem sessionPrevious_leaves {s : Session} (hptrs : (s.windows.map Winlink.ptr).Nodup)
    {cur : Nat} (hcur : s.curw = some cur) {x : Winlink} (hx : x ∈ s.windows)
    (hne : x.ptr ≠ cur) :
    (sessionPrevious s).1 = 0 ∧ ∃ y ∈ s.windows, y.ptr ≠ cur ∧
      (sessionPrevious s).2.curw = some y.ptr := by
  have htarget : ∃ y ∈ s.windows, y.ptr ≠ cur ∧
      (winlinkPrevious s.windows cur).or s.windows.getLast? = some y := by
    cases hprev : winlinkPrevious s.windows cur with
    | some y =>
        obtain ⟨hy, hyne⟩ := winlinkPrevious_some hprev
        exact ⟨y, hy, hyne, rfl⟩
    | none =>
        rw [Option.none_or]
        unfold winlinkPrevious at hprev
        rw [List.getLast?_eq_none_iff] at hprev
        cases hw : s.windows with
        | nil => exact absurd (hw ▸ hx) List.not_mem_nil
        | cons a rest =>
            rw [hw] at hprev hx hptrs
            -- the tree starts with the current window, so its last one is another
            have ha : a.ptr = cur := by
              by_contra hna
              simp [hna] at hprev
            have hx' : x ∈ rest := (List.mem_cons.mp hx).resolve_left fun he => hne (he ▸ ha)
            obtain ⟨y, hy⟩ : ∃ y, rest.getLast? = some y :=
              Option.ne_none_iff_exists'.mp fun hnil =>
                absurd hx' ((List.getLast?_eq_none_iff.mp hnil) ▸ List.not_mem_nil)
            have hyrest : y ∈ rest := List.mem_of_getLast? hy
            refine ⟨y, List.mem_cons_of_mem _ hyrest, fun hye => ?_, ?_⟩
            · rw [List.map_cons, List.nodup_cons] at hptrs
              exact hptrs.1 (ha.trans hye.symm ▸ List.mem_map_of_mem hyrest)
            · rw [List.getLast?_cons, hy]
              rfl
  obtain ⟨y, hy, hyne, htarget⟩ := htarget
  have hset : (sessionSetCurrent s (some y)).1 = 0 ∧
      (sessionSetCurrent s (some y)).2.curw = some y.ptr :=
    sessionSetCurrent_of_ne fun he => hyne (Option.some.inj (hcur ▸ he)).symm
  simp only [sessionPrevious, hcur, htarget]
  exact ⟨hset.1, y, hy, hyne, hset.2⟩

/-- **Leaving the current window** goes to another one, if there is one. -/
theorem sessionLeaveCurrent_leaves {s : Session} (hptrs : (s.windows.map Winlink.ptr).Nodup)
    {cur : Nat} (hcur : s.curw = some cur) {x : Winlink} (hx : x ∈ s.windows)
    (hne : x.ptr ≠ cur) :
    ∃ y ∈ s.windows, y.ptr ≠ cur ∧ (sessionLeaveCurrent s).curw = some y.ptr := by
  obtain ⟨hzero, hprev⟩ := sessionPrevious_leaves hptrs hcur hx hne
  have hback : ∀ {r : Int}, r ≠ 0 → sessionLast s = (r, s) →
      ∃ y ∈ s.windows, y.ptr ≠ cur ∧ (sessionLeaveCurrent s).curw = some y.ptr := by
    intro r hr hlast
    simp only [sessionLeaveCurrent, hlast, if_neg hr, if_pos hzero]
    exact hprev
  cases hhead : s.lastw.head? with
  | none =>
      have hlast : sessionLast s = (-1, s) := by
        unfold sessionLast
        rw [hhead]
      exact hback (by decide) hlast
  | some p =>
      have hlast : sessionLast s = if s.curw = some p then (1, s) else
          sessionSetCurrent s (winlinkAt s.windows p) := by
        unfold sessionLast
        rw [hhead]
      by_cases hp : s.curw = some p
      · rw [if_pos hp] at hlast
        exact hback (by decide) hlast
      · rw [if_neg hp] at hlast
        cases hat : winlinkAt s.windows p with
        | none =>
            rw [hat] at hlast
            exact hback (by decide) hlast
        | some y =>
            obtain ⟨hy, hyp⟩ := winlinkAt_some hat
            have hset : (sessionSetCurrent s (some y)).1 = 0 ∧
                (sessionSetCurrent s (some y)).2.curw = some y.ptr :=
              sessionSetCurrent_of_ne (hyp.symm ▸ hp)
            rw [hat] at hlast
            simp only [sessionLeaveCurrent, hlast, if_pos hset.1]
            exact ⟨y, hy, fun he => hp (by rw [hcur, ← hyp, he]), hset.2⟩

/-! ## Removing a winlink -/

/-- A session after `winlink_remove`, in `session_detach`. -/
def unlinked (s : Session) (wl : Winlink) : Session :=
  { detachReady s wl with windows := winlinkRemove s.windows wl.ptr }

theorem unlinked_fields (s : Session) (wl : Winlink) :
    (unlinked s wl).id = s.id ∧ (unlinked s wl).name = s.name ∧
      (unlinked s wl).options = s.options :=
  have h := detachReady_same s wl
  ⟨h.id, h.name, h.options⟩

/-- One node less. -/
theorem winlinkRemove_perm {wwl : Winlinks} (hptrs : (wwl.map Winlink.ptr).Nodup)
    {wl : Winlink} (hwl : wl ∈ wwl) : wwl.Perm (wl :: winlinkRemove wwl wl.ptr) := by
  induction wwl with
  | nil => exact absurd hwl List.not_mem_nil
  | cons x xs ih =>
      rw [List.map_cons, List.nodup_cons] at hptrs
      rcases List.mem_cons.mp hwl with rfl | hmem
      · have hkeep : winlinkRemove xs wl.ptr = xs := by
          refine List.filter_eq_self.mpr fun y hy => ?_
          have hne : y.ptr ≠ wl.ptr := fun he => hptrs.1 (he ▸ List.mem_map_of_mem hy)
          simpa using hne
        have hdrop : winlinkRemove (wl :: xs) wl.ptr = winlinkRemove xs wl.ptr := by
          simp [winlinkRemove]
        rw [hdrop, hkeep]
      · have hne : x.ptr ≠ wl.ptr := fun he => hptrs.1 (he ▸ List.mem_map_of_mem hmem)
        have hkeep : winlinkRemove (x :: xs) wl.ptr = x :: winlinkRemove xs wl.ptr := by
          simp [winlinkRemove, hne]
        rw [hkeep]
        exact ((ih hptrs.2 hmem).cons x).trans (List.Perm.swap ..)

theorem mem_winlinkRemove {wwl : Winlinks} {ptr : Nat} {x : Winlink} :
    x ∈ winlinkRemove wwl ptr ↔ x ∈ wwl ∧ x.ptr ≠ ptr := by
  simp [winlinkRemove]

theorem unlinked_order {s : Session} (hptrs : (s.windows.map Winlink.ptr).Nodup) {wl : Winlink}
    (hwl : wl ∈ s.windows) :
    (Session.order s).Perm (wl.window :: Session.order (unlinked s wl)) :=
  (winlinkRemove_perm hptrs hwl).map Winlink.window

/-- A session that is left with a window is left with a current window. -/
theorem unlinked_current {s : Session} (hptrs : (s.windows.map Winlink.ptr).Nodup)
    (hcur : CurrentOk s) {wl : Winlink} (hne : winlinkRemove s.windows wl.ptr ≠ []) :
    CurrentOk (unlinked s wl) := by
  obtain ⟨x, hx⟩ := List.exists_mem_of_ne_nil _ hne
  obtain ⟨hxs, hxne⟩ := mem_winlinkRemove.mp hx
  have hmem : ∀ y ∈ s.windows, y.ptr ≠ wl.ptr →
      y.ptr ∈ (unlinked s wl).windows.map Winlink.ptr := fun y hy hyne =>
    List.mem_map_of_mem (mem_winlinkRemove.mpr ⟨hy, hyne⟩)
  by_cases hc : s.curw = some wl.ptr
  · obtain ⟨y, hy, hyne, hcurw⟩ := sessionLeaveCurrent_leaves hptrs hc hxs hxne
    have hu : (unlinked s wl).curw = some y.ptr := by
      simp only [unlinked, detachReady, if_pos hc]
      exact hcurw
    refine ⟨fun p hp => ?_, fun hnone => ?_⟩
    · rw [hu] at hp
      cases hp
      exact hmem y hy hyne
    · rw [hu] at hnone
      cases hnone
  · have hu : (unlinked s wl).curw = s.curw := by
      simp only [unlinked, detachReady, if_neg hc]
    refine ⟨fun p hp => ?_, fun hnone => ?_⟩
    · rw [hu] at hp
      obtain ⟨y, hy, hyp⟩ := List.mem_map.mp (hcur.member p hp)
      refine hyp ▸ hmem y hy fun he => hc ?_
      rw [hp, ← hyp, he]
    · rw [hu] at hnone
      exact absurd (hcur.empty hnone) (List.ne_nil_of_mem hxs)

/-! ## Renumbering -/

@[simp] theorem renumber_length (ptr idx : Nat) (ww : Winlinks) :
    (renumber ptr idx ww).length = ww.length := by
  induction ww generalizing ptr idx with
  | nil => rfl
  | cons wl ww ih => simp [renumber, ih]

/-- The current window keeps its place in a renumbered tree. -/
theorem renumber_current {s : Session} (hcur : CurrentOk s) (ptr : Nat) :
    CurrentOk (sessionRenumberWindows s ptr) := by
  have hcurw : ∀ idx, (sessionRenumberWindows s ptr).curw =
      (winlinkFindByIndex (sessionRenumberWindows s ptr).windows idx).map Winlink.ptr →
      (∃ x ∈ (sessionRenumberWindows s ptr).windows, x.idx = idx) ∨ s.windows = [] →
      CurrentOk (sessionRenumberWindows s ptr) := by
    intro idx hc hidx
    refine ⟨fun p hp => ?_, fun hnone => ?_⟩
    · rw [hc, Option.map_eq_some_iff] at hp
      obtain ⟨x, hx, rfl⟩ := hp
      exact List.mem_map_of_mem (findByIndex_some hx).1
    · rcases hidx with hex | hnil
      · obtain ⟨x, hx⟩ := Option.isSome_iff_exists.mp (findByIndex_isSome.mpr hex)
        rw [hc, hx] at hnone
        cases hnone
      · simp [sessionRenumberWindows, hnil, renumber]
  cases hc : s.curw with
  | none => exact hcurw 0 (by simp [sessionRenumberWindows, hc]) (.inr (hcur.empty hc))
  | some cur =>
      obtain ⟨x, hx, hxp⟩ := List.mem_map.mp (hcur.member cur hc)
      have hfst : (s.windows.zip (renumber ptr s.options.baseIndex s.windows)).map Prod.fst =
          s.windows := List.map_fst_zip (by simp)
      rw [← hfst] at hx
      obtain ⟨pair, hpair, rfl⟩ := List.mem_map.mp hx
      have hsome : ((s.windows.zip (renumber ptr s.options.baseIndex s.windows)).find?
          (fun p => p.1.ptr == cur)).isSome := List.find?_isSome.mpr ⟨pair, hpair, by simpa using hxp⟩
      obtain ⟨found, hfound⟩ := Option.isSome_iff_exists.mp hsome
      have hmem := (List.of_mem_zip (List.mem_of_find?_eq_some hfound)).2
      exact hcurw found.2.idx (by simp [sessionRenumberWindows, hc, hfound])
        (.inl ⟨found.2, hmem, rfl⟩)

end Newmux.Logic
