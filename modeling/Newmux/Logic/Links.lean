import Newmux.Logic.Windows

/-!
# What the session operations do to the winlinks

One session first (which operations only move the current window, and what a
rebuilt or renumbered tree looks like), then the group: synchronizing from a
session gives every other member a copy of its tree and touches nothing else.
-/

namespace Newmux.Logic

open Newmux.Base Newmux.Tmux Newmux.Recovery

/-! ## One session -/

/-- Same session, same tree: only the current window and the last-window stack
may differ. -/
structure SameTree (s s' : Session) : Prop where
  id : s'.id = s.id
  name : s'.name = s.name
  windows : s'.windows = s.windows
  options : s'.options = s.options
  curw : s'.curw = none → s.curw = none

theorem SameTree.refl (s : Session) : SameTree s s := ⟨rfl, rfl, rfl, rfl, fun h => h⟩

theorem SameTree.trans {s s' s'' : Session} (h : SameTree s s') (h' : SameTree s' s'') :
    SameTree s s'' :=
  ⟨h'.id.trans h.id, h'.name.trans h.name, h'.windows.trans h.windows,
    h'.options.trans h.options, fun hc => h.curw (h'.curw hc)⟩

theorem sessionSetCurrent_same (s : Session) (wl : Option Winlink) :
    SameTree s (sessionSetCurrent s wl).2 := by
  unfold sessionSetCurrent
  cases wl with
  | none => exact .refl s
  | some wl =>
      simp only
      split
      · exact .refl s
      · exact ⟨rfl, rfl, rfl, rfl, fun h => by simp at h⟩

theorem sessionSelect_same (s : Session) (idx : Nat) : SameTree s (sessionSelect s idx).2 :=
  sessionSetCurrent_same s _

theorem sessionLast_same (s : Session) : SameTree s (sessionLast s).2 := by
  unfold sessionLast
  split
  · exact .refl s
  · split
    · exact .refl s
    · exact sessionSetCurrent_same s _

theorem sessionNext_same (s : Session) : SameTree s (sessionNext s).2 := by
  unfold sessionNext
  split
  · exact .refl s
  · exact sessionSetCurrent_same s _

theorem sessionPrevious_same (s : Session) : SameTree s (sessionPrevious s).2 := by
  unfold sessionPrevious
  split
  · exact .refl s
  · exact sessionSetCurrent_same s _

theorem sessionLeaveCurrent_same (s : Session) : SameTree s (sessionLeaveCurrent s) := by
  unfold sessionLeaveCurrent
  have hlast := sessionLast_same s
  have hprev := sessionPrevious_same (sessionLast s).2
  simp only
  split
  · exact hlast
  · split
    · exact hlast.trans hprev
    · exact (hlast.trans hprev).trans (sessionNext_same _)

/-! ## Rebuilt trees -/

@[simp] theorem relink_windows (ptr : Nat) (ww : Winlinks) :
    (relink ptr ww).map Winlink.window = ww.map Winlink.window := by
  induction ww generalizing ptr with
  | nil => rfl
  | cons wl ww ih => simp [relink, ih]

@[simp] theorem relink_idx (ptr : Nat) (ww : Winlinks) :
    (relink ptr ww).map Winlink.idx = ww.map Winlink.idx := by
  induction ww generalizing ptr with
  | nil => rfl
  | cons wl ww ih => simp [relink, ih]

/-- Fresh addresses, in order. -/
theorem relink_ptr (ptr : Nat) (ww : Winlinks) :
    (relink ptr ww).map Winlink.ptr = List.range' ptr ww.length := by
  induction ww generalizing ptr with
  | nil => rfl
  | cons wl ww ih => simp [relink, ih, List.range'_succ]

@[simp] theorem renumber_windows (ptr idx : Nat) (ww : Winlinks) :
    (renumber ptr idx ww).map Winlink.window = ww.map Winlink.window := by
  induction ww generalizing ptr idx with
  | nil => rfl
  | cons wl ww ih => simp [renumber, ih]

theorem renumber_ptr (ptr idx : Nat) (ww : Winlinks) :
    (renumber ptr idx ww).map Winlink.ptr = List.range' ptr ww.length := by
  induction ww generalizing ptr idx with
  | nil => rfl
  | cons wl ww ih => simp [renumber, ih, List.range'_succ]

theorem renumber_idx (ptr idx : Nat) (ww : Winlinks) :
    (renumber ptr idx ww).map Winlink.idx = List.range' idx ww.length := by
  induction ww generalizing ptr idx with
  | nil => rfl
  | cons wl ww ih => simp [renumber, ih, List.range'_succ]

/-- A tree: indices ascend, addresses are distinct and below the next one. -/
structure TreeOk (nextPtr : Nat) (wwl : Winlinks) : Prop where
  sorted : Sorted wwl
  ptrs : (wwl.map Winlink.ptr).Nodup
  fresh : ∀ wl ∈ wwl, wl.ptr < nextPtr

theorem TreeOk.mono {n n' : Nat} {wwl : Winlinks} (h : TreeOk n wwl) (hle : n ≤ n') :
    TreeOk n' wwl :=
  ⟨h.sorted, h.ptrs, fun wl hwl => (h.fresh wl hwl).trans_le hle⟩

theorem TreeOk.nil (n : Nat) : TreeOk n [] :=
  ⟨List.Pairwise.nil, List.nodup_nil, fun _ h => absurd h List.not_mem_nil⟩

private theorem sorted_iff (wwl : Winlinks) : Sorted wwl ↔ (wwl.map Winlink.idx).Pairwise (· < ·) :=
  List.pairwise_map.symm

private theorem fresh_of_range {ptr n : Nat} {wwl : Winlinks}
    (h : wwl.map Winlink.ptr = List.range' ptr n) : ∀ wl ∈ wwl, wl.ptr < ptr + n := by
  intro wl hwl
  have hmem : wl.ptr ∈ List.range' ptr n := h ▸ List.mem_map_of_mem hwl
  have := List.mem_range'_1.mp hmem
  omega

theorem TreeOk.relink {n : Nat} {wwl : Winlinks} (h : TreeOk n wwl) (ptr : Nat) :
    TreeOk (ptr + wwl.length) (relink ptr wwl) := by
  have hptr := relink_ptr ptr wwl
  refine ⟨?_, ?_, fresh_of_range hptr⟩
  · rw [sorted_iff, relink_idx]
    exact (sorted_iff wwl).mp h.sorted
  · rw [hptr]
    exact List.nodup_range'

theorem TreeOk.renumber (wwl : Winlinks) (ptr idx : Nat) :
    TreeOk (ptr + wwl.length) (renumber ptr idx wwl) := by
  have hptr := renumber_ptr ptr idx wwl
  refine ⟨?_, ?_, fresh_of_range hptr⟩
  · rw [sorted_iff, renumber_idx]
    exact List.pairwise_lt_range'
  · rw [hptr]
    exact List.nodup_range'

theorem TreeOk.remove {n : Nat} {wwl : Winlinks} (h : TreeOk n wwl) (ptr : Nat) :
    TreeOk n (winlinkRemove wwl ptr) :=
  ⟨h.sorted.sublist List.filter_sublist, h.ptrs.sublist (List.filter_sublist.map _),
    fun wl hwl => h.fresh wl (List.mem_of_mem_filter hwl)⟩

theorem TreeOk.shuffle {n : Nat} {wwl wwl' : Winlinks} (h : TreeOk n wwl) {wl : Winlink}
    {before : Bool} {idx : Nat} (hs : winlinkShuffleUp wwl wl before = some (idx, wwl')) :
    TreeOk n wwl' := by
  obtain ⟨-, last, -, -, hfree, -, rfl⟩ := winlinkShuffleUp_spec h.sorted hs
  refine ⟨h.sorted.map_bump hfree, ?_, ?_⟩
  · rw [List.map_map]
    have : Winlink.ptr ∘ Winlink.bump idx last = Winlink.ptr :=
      funext fun wl => Winlink.bump_ptr idx last wl
    rw [this]
    exact h.ptrs
  · intro wl hwl
    obtain ⟨x, hx, rfl⟩ := List.mem_map.mp hwl
    rw [Winlink.bump_ptr]
    exact h.fresh x hx

/-! ## Adding a winlink -/

private theorem nextIndexLoop_free {wwl : Winlinks} {idx fuel i j : Nat}
    (h : nextIndexLoop wwl idx fuel i = some j) : ∀ wl ∈ wwl, wl.idx ≠ j := by
  induction fuel generalizing i with
  | zero => cases h
  | succ fuel ih =>
      unfold nextIndexLoop at h
      split at h
      · next hfree =>
          cases h
          exact findByIndex_none.mp (by simpa using hfree)
      · generalize (if i = intMax then 0 else i + 1) = next at h
        by_cases hn : next = idx
        · simp [hn] at h
        · exact ih (by simpa [hn] using h)

/-- `winlink_add` inserts one node at a free index. -/
theorem winlinkAdd_some {wwl wwl' : Winlinks} {idx : Int} {ptr w : Nat} {wl : Winlink}
    (h : winlinkAdd wwl idx ptr w = some (wl, wwl')) :
    wl.ptr = ptr ∧ wl.window = w ∧ (∀ x ∈ wwl, x.idx ≠ wl.idx) ∧ wwl' = rbInsert wl wwl ∧
      (0 ≤ idx → wl.idx = idx.toNat) := by
  unfold winlinkAdd at h
  split at h
  · next hneg =>
      cases hn : winlinkNextIndex wwl (-idx - 1).toNat with
      | none =>
          rw [hn] at h
          cases h
      | some i =>
          simp only [hn, Option.some.injEq, Prod.mk.injEq] at h
          obtain ⟨rfl, rfl⟩ := h
          exact ⟨rfl, rfl, nextIndexLoop_free hn, rfl, fun h => absurd h (by omega)⟩
  · split at h
    · cases h
    · next hfree =>
        simp only [Option.some.injEq, Prod.mk.injEq] at h
        obtain ⟨rfl, rfl⟩ := h
        exact ⟨rfl, rfl, findByIndex_none.mp (by simpa using hfree), rfl, fun _ => rfl⟩

/-- At a free index it can not fail. -/
theorem winlinkAdd_of_free {wwl : Winlinks} {idx : Nat} (ptr w : Nat)
    (hfree : ∀ x ∈ wwl, x.idx ≠ idx) :
    winlinkAdd wwl idx ptr w = some (⟨ptr, idx, w⟩, rbInsert ⟨ptr, idx, w⟩ wwl) := by
  unfold winlinkAdd
  have hnone : winlinkFindByIndex wwl idx = none := findByIndex_none.mpr hfree
  simp [hnone]

theorem TreeOk.insert {n : Nat} {wwl : Winlinks} (h : TreeOk n wwl) {wl : Winlink}
    (hptr : wl.ptr = n) (hfree : ∀ x ∈ wwl, x.idx ≠ wl.idx) :
    TreeOk (n + 1) (rbInsert wl wwl) := by
  refine ⟨h.sorted.rbInsert hfree, ?_, ?_⟩
  · have hperm : (rbInsert wl wwl).Perm (wl :: wwl) := List.perm_orderedInsert _ _ _
    rw [(hperm.map Winlink.ptr).nodup_iff, List.map_cons, List.nodup_cons]
    refine ⟨fun hin => ?_, h.ptrs⟩
    obtain ⟨x, hx, hxp⟩ := List.mem_map.mp hin
    have := h.fresh x hx
    omega
  · intro x hx
    rcases mem_rbInsert.mp hx with rfl | hx
    · omega
    · have := h.fresh x hx
      omega

end Newmux.Logic
