import Newmux.Logic.ParkIn

/-!
# Current windows and last-window stacks

A session points at its own winlinks only: its current window is one of them,
and the last-window stack has others, each at most once. Moving to another
window keeps that, and so does rebuilding the session from a member of its group
that has all its windows, but one that is not the only one.
-/

namespace Newmux.Logic

open Newmux.Base Newmux.Tmux Newmux.Recovery

/-! ## One session -/

/-- The current window and the stack are made of the session's own winlinks, each
at most once. -/
structure SelectionOk (s : Session) : Prop where
  current : CurrentOk s
  own : ∀ p ∈ s.lastw, p ∈ s.windows.map Winlink.ptr
  once : s.lastw.Nodup
  other : ∀ p, s.curw = some p → p ∉ s.lastw

theorem SelectionOk.curLink {s : Session} (h : SelectionOk s) (hne : s.windows ≠ []) :
    ∃ cur ∈ s.windows, s.curw = some cur.ptr ∧ s.curLink = some cur := by
  cases hc : s.curw with
  | none => exact absurd (h.current.empty hc) hne
  | some p =>
      cases hat : winlinkAt s.windows p with
      | none =>
          obtain ⟨x, hx, hxp⟩ := List.mem_map.mp (h.current.member p hc)
          have hnot := List.find?_eq_none.mp hat x hx
          exact absurd hxp (by simpa using hnot)
      | some cur =>
          obtain ⟨hmem, hptr⟩ := winlinkAt_some hat
          refine ⟨cur, hmem, by rw [hptr], ?_⟩
          unfold Session.curLink
          rw [hc]
          exact hat

/-- Only the current window and the stack are moved. -/
theorem sessionSetCurrent_selection {s : Session} (h : SelectionOk s) {wl : Winlink}
    (hwl : wl ∈ s.windows) : SelectionOk (sessionSetCurrent s (some wl)).2 := by
  unfold sessionSetCurrent
  by_cases hcur : s.curw = some wl.ptr
  · simp only [if_pos hcur]
    exact h
  · simp only [if_neg hcur]
    have hptr : wl.ptr ∈ s.windows.map Winlink.ptr := List.mem_map_of_mem hwl
    have hkept : ∀ p ∈ s.lastw.filter (· != wl.ptr), p ∈ s.lastw ∧ p ≠ wl.ptr := fun p hp => by
      simpa using hp
    refine ⟨⟨fun p hp => ?_, fun hnone => ?_⟩, fun p hp => ?_, ?_, fun p hp hin => ?_⟩
    · obtain rfl := Option.some.inj hp
      exact hptr
    · exact absurd hnone (by simp)
    · cases hc : s.curw with
      | none =>
          rw [hc] at hp
          exact h.own p (hkept p hp).1
      | some cur =>
          rw [hc] at hp
          rcases List.mem_cons.mp hp with rfl | hp
          · exact h.current.member p hc
          · exact h.own p (hkept p (List.mem_of_mem_filter hp)).1
    · cases hc : s.curw with
      | none => exact h.once.filter _
      | some cur =>
          rw [List.nodup_cons]
          exact ⟨by simp, (h.once.filter _).filter _⟩
    · obtain rfl := Option.some.inj hp
      cases hc : s.curw with
      | none =>
          rw [hc] at hin
          exact (hkept _ hin).2 rfl
      | some cur =>
          rw [hc] at hin
          rcases List.mem_cons.mp hin with heq | hin
          · exact hcur (hc.trans (congrArg some heq.symm))
          · exact (hkept _ (List.mem_of_mem_filter hin)).2 rfl

theorem sessionSetCurrent_selection_of {s : Session} (h : SelectionOk s) {target : Option Winlink}
    (htarget : ∀ wl, target = some wl → wl ∈ s.windows) :
    SelectionOk (sessionSetCurrent s target).2 := by
  cases target with
  | none => exact h
  | some wl => exact sessionSetCurrent_selection h (htarget wl rfl)

theorem sessionLast_selection {s : Session} (h : SelectionOk s) :
    SelectionOk (sessionLast s).2 := by
  unfold sessionLast
  split
  · exact h
  · split
    · exact h
    · exact sessionSetCurrent_selection_of h fun wl hwl => (winlinkAt_some hwl).1

theorem sessionPrevious_selection {s : Session} (h : SelectionOk s) :
    SelectionOk (sessionPrevious s).2 := by
  unfold sessionPrevious
  split
  · exact h
  · next cur hcur =>
    refine sessionSetCurrent_selection_of h fun wl hwl => ?_
    rcases Option.or_eq_some_iff.mp hwl with hprev | ⟨-, hlast⟩
    · exact (winlinkPrevious_some hprev).1
    · exact List.mem_of_getLast? hlast

theorem sessionNext_selection {s : Session} (h : SelectionOk s)
    (hptrs : (s.windows.map Winlink.ptr).Nodup) : SelectionOk (sessionNext s).2 := by
  unfold sessionNext
  split
  · exact h
  · next cur hcur =>
    refine sessionSetCurrent_selection_of h fun wl hwl => ?_
    rcases Option.or_eq_some_iff.mp hwl with hnext | ⟨-, hfirst⟩
    · exact (winlinkNext_some hptrs hnext).1
    · exact List.mem_of_head? hfirst

/-- Moving off the current window. -/
theorem sessionLeaveCurrent_selection {s : Session} (h : SelectionOk s)
    (hptrs : (s.windows.map Winlink.ptr).Nodup) : SelectionOk (sessionLeaveCurrent s) := by
  have hlast := sessionLast_selection h
  have hprev := sessionPrevious_selection hlast
  have hsame := (sessionLast_same s).trans (sessionPrevious_same (sessionLast s).2)
  unfold sessionLeaveCurrent
  simp only
  split
  · exact hlast
  · split
    · exact hprev
    · refine sessionNext_selection hprev ?_
      rw [hsame.windows]
      exact hptrs

/-! ## The index-to-window map -/

/-- Which window is at which index. -/
def indexMap (s : Session) : List (Nat × Nat) := s.windows.map fun wl => (wl.idx, wl.window)

theorem indexMap_idx (s : Session) : (indexMap s).map Prod.fst = s.windows.map Winlink.idx := by
  simp [indexMap]

theorem indexMap_nil {s : Session} : indexMap s = [] ↔ s.windows = [] := List.map_eq_nil_iff

theorem relink_indexMap (ptr : Nat) (ww : Winlinks) :
    (relink ptr ww).map (fun wl => (wl.idx, wl.window)) =
      ww.map fun wl => (wl.idx, wl.window) := by
  induction ww generalizing ptr with
  | nil => rfl
  | cons wl ww ih => simp [relink, ih]

theorem synchronizeLinks_indexMap (t s : Session) (ptr : Nat) :
    indexMap (synchronizeLinks t s ptr) = indexMap t := by
  unfold indexMap
  rw [(synchronizeLinks_id t s ptr).2.2.2, relink_indexMap]

/-- Sessions with one map use the same indices. -/
theorem idx_mem_of_indexMap {s t : Session} (h : indexMap s = indexMap t) {wl : Winlink}
    (hwl : wl ∈ s.windows) : ∃ x ∈ t.windows, x.idx = wl.idx := by
  have hmem : wl.idx ∈ t.windows.map Winlink.idx := by
    rw [← indexMap_idx, ← h, indexMap_idx]
    exact List.mem_map_of_mem hwl
  exact List.mem_map.mp hmem

/-! ## Rebuilding a member -/

/-- At most one of the session's indices is missing in the target, and then there
is another. -/
def Covers (target s : Session) : Prop :=
  (∀ x ∈ s.windows, ∃ y ∈ target.windows, y.idx = x.idx) ∨
    ∃ lost ∈ s.windows, (∃ x ∈ s.windows, x ≠ lost) ∧
      ∀ x ∈ s.windows, x ≠ lost → ∃ y ∈ target.windows, y.idx = x.idx

/-- The session before it is rebuilt: off a window that has vanished. -/
def offVanished (target s : Session) : Session :=
  match s.curLink with
  | some cur =>
      if (winlinkFindByIndex target.windows cur.idx).isNone then sessionLeaveCurrent s else s
  | none => s

/-- A winlink of one tree is found again in another by its index. -/
def findAgain (wwl ww : Winlinks) (p : Nat) : Option Nat :=
  (winlinkAt wwl p).bind fun wl => (winlinkFindByIndex ww wl.idx).map Winlink.ptr

theorem offVanished_same (target s : Session) : SameTree s (offVanished target s) := by
  unfold offVanished
  split
  · split
    · exact sessionLeaveCurrent_same s
    · exact .refl s
  · exact .refl s

theorem offVanished_selection {target s : Session} (h : SelectionOk s)
    (hptrs : (s.windows.map Winlink.ptr).Nodup) : SelectionOk (offVanished target s) := by
  unfold offVanished
  split
  · split
    · exact sessionLeaveCurrent_selection h hptrs
    · exact h
  · exact h

/-- Its current window has not vanished. -/
theorem offVanished_found {target s : Session} (h : SelectionOk s)
    (hptrs : (s.windows.map Winlink.ptr).Nodup) (hcovers : Covers target s)
    (hne : s.windows ≠ []) :
    ∃ cur ∈ s.windows, (offVanished target s).curw = some cur.ptr ∧
      ∃ y ∈ target.windows, y.idx = cur.idx := by
  obtain ⟨cur, hmem, hcurw, hlink⟩ := h.curLink hne
  unfold offVanished
  rw [hlink]
  simp only
  by_cases hfound : ∃ y ∈ target.windows, y.idx = cur.idx
  · have hsome := findByIndex_isSome.mpr hfound
    rw [if_neg fun hnone => ?_]
    · exact ⟨cur, hmem, hcurw, hfound⟩
    · rw [Option.isNone_iff_eq_none] at hnone
      rw [hnone] at hsome
      exact absurd hsome (by simp)
  · have hnone : (winlinkFindByIndex target.windows cur.idx).isNone = true := by
      rw [← Option.not_isSome, Bool.not_eq_true']
      exact Bool.eq_false_iff.mpr fun hsome => hfound (findByIndex_isSome.mp hsome)
    rw [if_pos hnone]
    rcases hcovers with hall | ⟨lost, hlost, ⟨x, hx, hxlost⟩, hrest⟩
    · exact absurd (hall cur hmem) hfound
    · have hcur : cur = lost := by
        by_contra hdiff
        exact hfound (hrest cur hmem hdiff)
      have hptr : x.ptr ≠ cur.ptr := fun heq =>
        hxlost ((List.inj_on_of_nodup_map hptrs hx hmem heq).trans hcur)
      obtain ⟨y, hy, hyptr, hycurw⟩ := sessionLeaveCurrent_leaves hptrs hcurw hx hptr
      have hylost : y ≠ lost := fun heq => hyptr (heq ▸ hcur ▸ rfl)
      exact ⟨y, hy, hycurw, hrest y hy hylost⟩

theorem winlinkAt_mem {wwl : Winlinks} (hptrs : (wwl.map Winlink.ptr).Nodup) {x : Winlink}
    (hx : x ∈ wwl) : winlinkAt wwl x.ptr = some x := by
  cases hat : winlinkAt wwl x.ptr with
  | none =>
      have hnot := List.find?_eq_none.mp hat x hx
      exact absurd hnot (by simp)
  | some y =>
      obtain ⟨hy, hptr⟩ := winlinkAt_some hat
      rw [List.inj_on_of_nodup_map hptrs hy hx hptr]

/-- Two winlinks of a tree are not found again as one. -/
theorem findAgain_inj {wwl ww : Winlinks} (hwwl : Sorted wwl)
    (hww : (ww.map Winlink.ptr).Nodup) {p q r : Nat} (hp : findAgain wwl ww p = some r)
    (hq : findAgain wwl ww q = some r) : p = q := by
  unfold findAgain at hp hq
  rw [Option.bind_eq_some_iff] at hp hq
  obtain ⟨x, hx, hxr⟩ := hp
  obtain ⟨y, hy, hyr⟩ := hq
  rw [Option.map_eq_some_iff] at hxr hyr
  obtain ⟨x', hx', hxptr⟩ := hxr
  obtain ⟨y', hy', hyptr⟩ := hyr
  have hsame : x' = y' := List.inj_on_of_nodup_map hww (findByIndex_some hx').1
    (findByIndex_some hy').1 (hxptr.trans hyptr.symm)
  have hidx : x.idx = y.idx := by
    rw [← (findByIndex_some hx').2, hsame, (findByIndex_some hy').2]
  rw [← (winlinkAt_some hx).2, ← (winlinkAt_some hy).2,
    hwwl.eq_of_idx (winlinkAt_some hx).1 (winlinkAt_some hy).1 hidx]

theorem findAgain_mem {wwl ww : Winlinks} {p r : Nat} (h : findAgain wwl ww p = some r) :
    r ∈ ww.map Winlink.ptr := by
  unfold findAgain at h
  rw [Option.bind_eq_some_iff] at h
  obtain ⟨x, -, hxr⟩ := h
  rw [Option.map_eq_some_iff] at hxr
  obtain ⟨x', hx', rfl⟩ := hxr
  exact List.mem_map_of_mem (findByIndex_some hx').1

/-- The fields of a rebuilt session. -/
theorem synchronizeLinks_fields (t s : Session) (ptr : Nat) :
    (synchronizeLinks t s ptr).windows = relink ptr t.windows ∧
      (synchronizeLinks t s ptr).lastw =
        (offVanished t s).lastw.filterMap (findAgain s.windows (relink ptr t.windows)) ∧
      (synchronizeLinks t s ptr).curw = match (offVanished t s).curw with
        | some p => findAgain s.windows (relink ptr t.windows) p
        | none => t.curLink.bind fun wl =>
            (winlinkFindByIndex (relink ptr t.windows) wl.idx).map Winlink.ptr := by
  have hwindows := (offVanished_same t s).windows
  refine ⟨rfl, ?_, ?_⟩
  · rw [← hwindows]
    rfl
  · rw [← hwindows]
    have hcurw : (synchronizeLinks t s ptr).curw = match (offVanished t s).curw with
        | some _ => (offVanished t s).curLink.bind fun wl =>
            (winlinkFindByIndex (relink ptr t.windows) wl.idx).map Winlink.ptr
        | none => t.curLink.bind fun wl =>
            (winlinkFindByIndex (relink ptr t.windows) wl.idx).map Winlink.ptr := rfl
    rw [hcurw]
    cases hc : (offVanished t s).curw with
    | none => rfl
    | some p =>
        simp only [Session.curLink, hc, Option.bind_some]
        rfl

/-- An index of the target is found in the copy of its tree. -/
theorem relink_found {ww : Winlinks} {i : Nat} (h : ∃ y ∈ ww, y.idx = i) (ptr : Nat) :
    ∃ z, winlinkFindByIndex (relink ptr ww) i = some z := by
  obtain ⟨y, hy, rfl⟩ := h
  have hmem : y.idx ∈ (relink ptr ww).map Winlink.idx := by
    rw [relink_idx]
    exact List.mem_map_of_mem hy
  exact Option.isSome_iff_exists.mp (findByIndex_isSome.mpr (List.mem_map.mp hmem))

/-- A winlink whose index is in the target is found again. -/
theorem findAgain_found {wwl ww : Winlinks} (hptrs : (wwl.map Winlink.ptr).Nodup) {x : Winlink}
    (hx : x ∈ wwl) (h : ∃ y ∈ ww, y.idx = x.idx) (ptr : Nat) :
    ∃ r, findAgain wwl (relink ptr ww) x.ptr = some r := by
  obtain ⟨z, hz⟩ := relink_found h ptr
  refine ⟨z.ptr, ?_⟩
  unfold findAgain
  rw [winlinkAt_mem hptrs hx, Option.bind_some, hz, Option.map_some]

/-- The current window of a rebuilt session: its own one again, or the target's. -/
theorem synchronizeLinks_curw {t s : Session} (ht : SelectionOk t) (htne : t.windows ≠ [])
    (hww : ∀ ptr, ((relink ptr t.windows).map Winlink.ptr).Nodup) (hs : SelectionOk s) {n : Nat}
    (hstree : TreeOk n s.windows) (hcovers : Covers t s) (ptr : Nat) :
    ∃ r ∈ (relink ptr t.windows).map Winlink.ptr, (synchronizeLinks t s ptr).curw = some r ∧
      ∀ q ∈ (offVanished t s).lastw, findAgain s.windows (relink ptr t.windows) q = some r →
        (offVanished t s).curw = some q ∨ s.windows = [] := by
  obtain ⟨-, -, hcurw⟩ := synchronizeLinks_fields t s ptr
  by_cases hempty : s.windows = []
  · have hnone : (offVanished t s).curw = none := by
      cases hc : (offVanished t s).curw with
      | none => rfl
      | some p =>
          have hmem := (offVanished_selection hs hstree.ptrs).current.member p hc
          rw [(offVanished_same t s).windows, hempty] at hmem
          exact absurd hmem List.not_mem_nil
    obtain ⟨cur, hcur, -, hlink⟩ := ht.curLink htne
    obtain ⟨z, hz⟩ := relink_found ⟨cur, hcur, rfl⟩ ptr
    rw [hnone, hlink] at hcurw
    simp only [Option.bind_some, hz, Option.map_some] at hcurw
    exact ⟨z.ptr, List.mem_map_of_mem (findByIndex_some hz).1, hcurw, fun _ _ _ => .inr hempty⟩
  · obtain ⟨cur, hcur, hoff, hfound⟩ := offVanished_found hs hstree.ptrs hcovers hempty
    obtain ⟨r, hr⟩ := findAgain_found hstree.ptrs hcur hfound ptr
    rw [hoff] at hcurw
    refine ⟨r, findAgain_mem hr, hcurw.trans hr, fun q _ hq => .inl ?_⟩
    rw [hoff, findAgain_inj hstree.sorted (hww ptr) hr hq]

/-- **A rebuilt session** points at its new winlinks as it did at the old ones. -/
theorem synchronizeLinks_selection {t s : Session} {n n' : Nat} (ht : SelectionOk t)
    (htree : TreeOk n t.windows) (htne : t.windows ≠ []) (hs : SelectionOk s)
    (hstree : TreeOk n' s.windows) (hcovers : Covers t s) (ptr : Nat) :
    SelectionOk (synchronizeLinks t s ptr) := by
  obtain ⟨hwindows, hlastw, -⟩ := synchronizeLinks_fields t s ptr
  have hoff : SelectionOk (offVanished t s) := offVanished_selection hs hstree.ptrs
  have hsame := (offVanished_same t s).windows
  have hww : ((relink ptr t.windows).map Winlink.ptr).Nodup := (htree.relink ptr).ptrs
  have hstack : ∀ p ∈ (synchronizeLinks t s ptr).lastw, ∃ q ∈ (offVanished t s).lastw,
      findAgain s.windows (relink ptr t.windows) q = some p := fun p hp => by
    rw [hlastw, List.mem_filterMap] at hp
    exact hp
  obtain ⟨r, hr, hcurw, hnot⟩ := synchronizeLinks_curw ht htne
    (fun ptr => (htree.relink ptr).ptrs) hs hstree hcovers ptr
  refine ⟨⟨fun p hp => ?_, fun hnone => ?_⟩, fun p hp => ?_, ?_, fun p hp hin => ?_⟩
  · obtain rfl := Option.some.inj (hcurw.symm.trans hp)
    rw [hwindows]
    exact hr
  · exact absurd (hcurw.symm.trans hnone) (by simp)
  · obtain ⟨q, -, hq⟩ := hstack p hp
    rw [hwindows]
    exact findAgain_mem hq
  · rw [hlastw]
    exact hoff.once.filterMap fun a b c ha hb => findAgain_inj hstree.sorted hww ha hb
  · obtain rfl := Option.some.inj (hcurw.symm.trans hp)
    obtain ⟨q, hq, hqr⟩ := hstack r hin
    rcases hnot q hq hqr with hcur | hnil
    · exact hoff.other q hcur hq
    · have hown := hoff.own q hq
      rw [hsame, hnil] at hown
      exact absurd hown List.not_mem_nil

/-! ## Detaching and attaching -/

/-- A winlink that is not the current one can go. -/
theorem SelectionOk.remove {s : Session} (h : SelectionOk s) {wl : Winlink}
    (hcur : s.curw ≠ some wl.ptr) :
    SelectionOk { s with
      lastw := s.lastw.filter (· != wl.ptr)
      windows := winlinkRemove s.windows wl.ptr } := by
  have hleft : ∀ p ∈ s.windows.map Winlink.ptr, p ≠ wl.ptr →
      p ∈ (winlinkRemove s.windows wl.ptr).map Winlink.ptr := by
    intro p hp hne
    obtain ⟨x, hx, rfl⟩ := List.mem_map.mp hp
    exact List.mem_map_of_mem (mem_winlinkRemove.mpr ⟨hx, hne⟩)
  refine ⟨⟨fun p hp => ?_, fun hnone => ?_⟩, fun p hp => ?_, h.once.filter _, fun p hp hin => ?_⟩
  · exact hleft p (h.current.member p hp) fun heq => hcur (heq ▸ hp)
  · show winlinkRemove s.windows wl.ptr = []
    rw [h.current.empty hnone]
    rfl
  · obtain ⟨hin, hne⟩ := List.mem_filter.mp hp
    exact hleft p (h.own p hin) (by simpa using hne)
  · exact h.other p hp (List.mem_of_mem_filter hin)

/-- A window with no neighbour is the only one. -/
theorem only_of_no_neighbour {wwl : Winlinks} {wl : Winlink} (hwl : wl ∈ wwl)
    (hnext : winlinkNext wwl wl.ptr = none) (hprev : winlinkPrevious wwl wl.ptr = none) :
    wwl = [wl] := by
  have hbefore : wwl.takeWhile (fun x => x.ptr != wl.ptr) = [] := by
    unfold winlinkPrevious at hprev
    exact List.getLast?_eq_none_iff.mp hprev
  have hall : wwl.dropWhile (fun x => x.ptr != wl.ptr) = wwl := by
    have happend := List.takeWhile_append_dropWhile (p := fun x : Winlink => x.ptr != wl.ptr)
      (l := wwl)
    rwa [hbefore, List.nil_append] at happend
  unfold winlinkNext at hnext
  rw [hall] at hnext
  cases wwl with
  | nil => exact absurd hwl List.not_mem_nil
  | cons x xs =>
      obtain rfl := List.head?_eq_none_iff.mp hnext
      rw [List.mem_singleton.mp hwl]

/-- A silent detach moves to a neighbour, if there is one. -/
theorem detached_selection {s : Session} (h : SelectionOk s)
    (hptrs : (s.windows.map Winlink.ptr).Nodup) {wl : Winlink} (hwl : wl ∈ s.windows) :
    SelectionOk (detached s wl) := by
  unfold detached detachSilentReady
  by_cases hcur : s.curw = some wl.ptr
  · simp only [if_pos hcur]
    cases hnext : (winlinkNext s.windows wl.ptr).or (winlinkPrevious s.windows wl.ptr) with
    | some next =>
        have hmem : next ∈ s.windows ∧ next.ptr ≠ wl.ptr := by
          rcases Option.or_eq_some_iff.mp hnext with hsome | ⟨-, hsome⟩
          · exact winlinkNext_some hptrs hsome
          · exact winlinkPrevious_some hsome
        have hne : s.curw ≠ some next.ptr := fun heq =>
          hmem.2 (Option.some.inj (hcur.symm.trans heq)).symm
        have hmoved := (sessionSetCurrent_of_ne hne).2
        have hsame := (sessionSetCurrent_same s (some next)).windows
        have hother : (sessionSetCurrent s (some next)).2.curw ≠ some wl.ptr :=
          hmoved ▸ fun heq => hmem.2 (Option.some.inj heq)
        have hremove := (sessionSetCurrent_selection h hmem.1).remove hother
        rw [hsame] at hremove
        exact hremove
    | none =>
        rw [Option.or_eq_none_iff] at hnext
        have honly := only_of_no_neighbour hwl hnext.1 hnext.2
        have hremoved : winlinkRemove s.windows wl.ptr = [] := by
          rw [honly]
          simp [winlinkRemove]
        have hstack : s.lastw.filter (· != wl.ptr) = [] := by
          refine List.filter_eq_nil_iff.mpr fun p hp => ?_
          have hown := h.own p hp
          rw [honly] at hown
          simpa using hown
        simp only [hremoved, hstack]
        exact ⟨⟨fun p hp => absurd hp (by simp), fun _ => rfl⟩, fun p hp => absurd hp (by simp),
          List.nodup_nil, fun p hp => absurd hp (by simp)⟩
  · simp only [if_neg hcur]
    exact h.remove hcur

/-- The new winlink is the current window of a session that had none. -/
theorem linkedSession_selection {s : Session} (h : SelectionOk s) {wl : Winlink} {wwl : Winlinks}
    (hwl : wl ∈ wwl) (hkept : ∀ x ∈ s.windows, x ∈ wwl) :
    SelectionOk (linkedSession s wl wwl) := by
  unfold linkedSession
  simp only
  cases hc : s.curw with
  | none =>
      have hstack : s.lastw = [] := by
        refine List.eq_nil_iff_forall_not_mem.mpr fun p hp => ?_
        have hown := h.own p hp
        rw [h.current.empty hc] at hown
        exact absurd hown List.not_mem_nil
      rw [if_pos rfl]
      unfold sessionSetCurrent
      simp only [hstack]
      refine ⟨⟨fun p hp => ?_, fun hnone => ?_⟩, fun p hp => ?_, ?_, fun p _ hin => ?_⟩
      · obtain rfl := Option.some.inj hp
        exact List.mem_map_of_mem hwl
      · exact absurd hnone (by simp)
      · exact absurd hp (by simp)
      · exact List.nodup_nil
      · exact absurd hin (by simp)
  | some cur =>
      have hgrow : ∀ p ∈ s.windows.map Winlink.ptr, p ∈ wwl.map Winlink.ptr := by
        intro p hp
        obtain ⟨x, hx, rfl⟩ := List.mem_map.mp hp
        exact List.mem_map_of_mem (hkept x hx)
      rw [if_neg (by simp)]
      refine ⟨⟨fun p hp => ?_, fun hnone => ?_⟩, fun p hp => ?_, h.once, fun p hp hin => ?_⟩
      · exact hgrow p (h.current.member p (hc.trans hp))
      · exact absurd hnone (by simp)
      · exact hgrow p (h.own p hp)
      · exact h.other p (hc.trans hp) hin

end Newmux.Logic
