import Newmux.Logic.ServerOps

/-!
# Synchronizing a group

`session_group_synchronize_from` leaves the session it starts from alone and
rebuilds every other member from it, once.
-/

namespace Newmux.Logic

open Newmux.Base Newmux.Tmux Newmux.Recovery

theorem removeRefs_find (wwl : Winlinks) (sv : Server) (j : Nat) :
    sessionFindById (wwl.foldl (fun sv wl => windowRemoveRef sv wl.window) sv) j =
      sessionFindById sv j := (removeRefs_kept wwl sv).find j

/-- One member is rebuilt. -/
theorem sync1_find {sv : Server} {t : Session} (ht : sessionFindById sv t.id = some t)
    (hne : t.windows ≠ []) (m j : Nat) :
    sessionFindById (sessionGroupSynchronize1 sv t.id m) j =
      if j = m then (sessionFindById sv j).map (fun s => synchronizeLinks t s sv.nextPtr)
      else sessionFindById sv j := by
  unfold sessionGroupSynchronize1
  rw [ht]
  cases hm : sessionFindById sv m with
  | none =>
      by_cases hj : j = m
      · simp [hj, hm]
      · simp [hj]
  | some s =>
      have hid := sessionFindById_id hm
      have hempty : t.windows.isEmpty = false := by simpa using hne
      simp only [hempty, Bool.false_eq_true, if_false]
      rw [removeRefs_find]
      change sessionFindById (sv.setSession (synchronizeLinks t s sv.nextPtr)) j = _
      rw [sessionFindById_setSession, (synchronizeLinks_id t s sv.nextPtr).1, hid]
      by_cases hj : j = m
      · simp [hj, hm]
      · simp [hj]

theorem sync1_nextPtr (sv : Server) (t m : Nat) :
    sv.nextPtr ≤ (sessionGroupSynchronize1 sv t m).nextPtr := by
  unfold sessionGroupSynchronize1
  split
  · split
    · exact le_rfl
    · rw [(removeRefs_kept _ _).nextPtr]
      exact Nat.le_add_right _ _
  · exact le_rfl

/-- The members are rebuilt one after another, each with new addresses. -/
theorem syncAll_find {t : Session} (hne : t.windows ≠ []) (ms : List Nat) :
    ∀ {sv : Server}, sessionFindById sv t.id = some t → ms.Nodup → t.id ∉ ms → ∀ j,
      ∃ ptr, sv.nextPtr ≤ ptr ∧
        sessionFindById (ms.foldl (fun sv m => sessionGroupSynchronize1 sv t.id m) sv) j =
          if j ∈ ms then (sessionFindById sv j).map (fun s => synchronizeLinks t s ptr)
          else sessionFindById sv j := by
  induction ms with
  | nil => exact fun _ _ _ j => ⟨_, le_rfl, by simp⟩
  | cons m ms ih =>
      intro sv ht hnd hnot j
      rw [List.nodup_cons] at hnd
      rw [List.mem_cons, not_or] at hnot
      have hstep := sync1_find ht hne m
      have ht' : sessionFindById (sessionGroupSynchronize1 sv t.id m) t.id = some t := by
        rw [hstep, if_neg hnot.1, ht]
      obtain ⟨ptr, hptr, hrest⟩ := ih ht' hnd.2 hnot.2 j
      rw [List.foldl_cons, hrest]
      by_cases hj : j = m
      · refine ⟨sv.nextPtr, le_rfl, ?_⟩
        rw [if_neg (hj ▸ hnd.1), hstep, if_pos hj, if_pos (hj ▸ List.mem_cons_self)]
      · refine ⟨ptr, (sync1_nextPtr sv t.id m).trans hptr, ?_⟩
        rw [hstep, if_neg hj]
        simp [hj]

/-- A session in no group is alone with itself. -/
theorem syncFrom_alone {sv : Server} {s : Nat} (h : ¬ Grouped sv s) :
    sessionGroupSynchronizeFrom sv s = sv := by
  unfold sessionGroupSynchronizeFrom
  cases hc : sessionGroupContains sv s with
  | none => rfl
  | some sg => exact absurd ⟨sg, groupContains_some hc⟩ h

/-- **Synchronizing from a session** rebuilds the other members of its group
from it, and changes no other session. -/
theorem syncFrom_find {sv : Server} (hok : TreesOk sv) {t : Session}
    (ht : sessionFindById sv t.id = some t) (hne : t.windows ≠ []) (j : Nat) :
    (j ≠ t.id → InGroup sv t.id j → ∃ ptr, sv.nextPtr ≤ ptr ∧
        sessionFindById (sessionGroupSynchronizeFrom sv t.id) j =
          (sessionFindById sv j).map (fun s => synchronizeLinks t s ptr)) ∧
      (j = t.id ∨ ¬ InGroup sv t.id j →
        sessionFindById (sessionGroupSynchronizeFrom sv t.id) j = sessionFindById sv j) := by
  unfold sessionGroupSynchronizeFrom
  cases hc : sessionGroupContains sv t.id with
  | none =>
      refine ⟨fun hj hg => ?_, fun _ => rfl⟩
      rcases hg with rfl | ⟨sg, hsg, hts, -⟩
      · exact absurd rfl hj
      · have := List.find?_eq_none.mp hc sg hsg
        simp [hts] at this
  | some sg =>
      obtain ⟨hsg, hts⟩ := groupContains_some hc
      have hnd : (sg.filter (· != t.id)).Nodup := (hok.groups.nodup sg hsg).sublist
        List.filter_sublist
      have hmem : ∀ x, x ∈ sg.filter (· != t.id) ↔ x ∈ sg ∧ x ≠ t.id := fun x => by
        simp [List.mem_filter]
      -- the loop comes to each other member once
      obtain ⟨ptr, hptr, hfind⟩ := syncAll_find hne (sg.filter (· != t.id)) ht hnd
        (fun h => ((hmem _).mp h).2 rfl) j
      simp only
      rw [hfind]
      constructor
      · intro hj hg
        refine ⟨ptr, hptr, ?_⟩
        rw [if_pos]
        rcases hg with rfl | ⟨sg', hsg', hts', hjs⟩
        · exact absurd rfl hj
        · rw [← hok.groups.disjoint sg hsg sg' hsg' t.id hts hts'] at hjs
          exact (hmem j).mpr ⟨hjs, hj⟩
      · intro h
        rw [if_neg]
        rw [hmem]
        rintro ⟨hjs, hj⟩
        rcases h with he | hg
        · exact hj he
        · exact hg (.inr ⟨sg, hsg, hts, hjs⟩)

/-- Every member then links the same windows in the same order. -/
theorem syncFrom_order {sv : Server} (hok : TreesOk sv) {t : Session}
    (ht : sessionFindById sv t.id = some t) (hne : t.windows ≠ []) {j : Nat} {s : Session}
    (hg : InGroup sv t.id j)
    (hj : sessionFindById (sessionGroupSynchronizeFrom sv t.id) j = some s) :
    Session.order s = Session.order t := by
  obtain ⟨hmember, hself⟩ := syncFrom_find hok ht hne j
  by_cases he : j = t.id
  · rw [hself (.inl he), he, ht] at hj
    cases hj
    rfl
  · obtain ⟨ptr, -, hfind⟩ := hmember he hg
    rw [hfind, Option.map_eq_some_iff] at hj
    obtain ⟨m, -, rfl⟩ := hj
    unfold Session.order
    rw [(synchronizeLinks_id t m ptr).2.2.2, relink_windows]

end Newmux.Logic
