import Mathlib.Data.List.Perm.Subperm
import Mathlib.Tactic

/-!
# A list and its journal

Entries join a list at its end and leave it from anywhere. A journal that
can only grow is to show the same list: an entry is queued for the journal as
it joins, and when it leaves its number is hidden. What the journal shows, the
entries whose numbers are not hidden, is the list again once nothing is queued,
provided that numbers are not used twice and that entries are written down in
the order in which they stand.
-/

namespace Newmux.Base

/-- The list, the entries set aside that may come back to it, those queued for
the journal, the journal, and the hidden numbers. -/
structure Books (α κ : Type) where
  live : List α
  aside : List α
  queued : List α
  journal : List α
  hidden : Set κ

namespace Books

variable {α κ : Type} [DecidableEq α]

/-- The journal can still come to show the list. `num` is an entry's number. -/
structure Ok (num : α → κ) (b : Books α κ) : Prop where
  nums : ((b.live ++ b.aside).map num).Nodup
  written : ((b.journal ++ b.queued).map num).Nodup
  kept : ∀ a ∈ b.live ++ b.aside, a ∈ b.journal ++ b.queued
  visible : ∀ a ∈ b.live ++ b.aside, num a ∉ b.hidden
  gone : ∀ a ∈ b.journal ++ b.queued, num a ∈ b.hidden ∨ a ∈ b.live ++ b.aside
  order : (b.journal.filter (· ∈ b.live)).Sublist b.live

variable {num : α → κ} {b : Books α κ}

/-- In a list without repetitions, a sublist is what it selects. -/
theorem filter_mem_sublist {l l' : List α} (hl : l.Nodup) (h : l'.Sublist l) :
    l.filter (· ∈ l') = l' := by
  induction h with
  | slnil => rfl
  | @cons l₁ l₂ a hsub ih =>
      obtain ⟨ha, hl⟩ := List.nodup_cons.mp hl
      have hnot : a ∉ l₁ := fun hmem => ha (hsub.subset hmem)
      rw [List.filter_cons_of_neg (by simpa using hnot), ih hl]
  | @cons_cons l₁ l₂ a hsub ih =>
      obtain ⟨ha, hl⟩ := List.nodup_cons.mp hl
      rw [List.filter_cons_of_pos (by simp)]
      congr 1
      refine (List.filter_congr fun x hx => ?_).trans (ih hl)
      have hne : x ≠ a := fun he => ha (he ▸ hx)
      simp [hne]

theorem Ok.live_nodup (h : b.Ok num) : b.live.Nodup :=
  (List.Nodup.of_map num h.nums).of_append_left

/-- The order of the journal is the order of every part of the list. -/
theorem Ok.order_of_sublist (h : b.Ok num) {live : List α} (hsub : live.Sublist b.live) :
    (b.journal.filter (· ∈ live)).Sublist live := by
  have hpart := h.order.filter (· ∈ live)
  rw [filter_mem_sublist h.live_nodup hsub, List.filter_filter] at hpart
  refine (List.filter_congr fun a _ => ?_).symm ▸ hpart
  by_cases ha : a ∈ live
  · simp [ha, hsub.subset ha]
  · simp [ha]

/-- **The journal shows the list**, once nothing is queued or set aside. -/
theorem Ok.shown (h : b.Ok num) (hqueued : b.queued = []) (haside : b.aside = [])
    {p : α → Bool} (hp : ∀ a ∈ b.journal, p a = true ↔ num a ∉ b.hidden) :
    b.journal.filter p = b.live := by
  have hkept := h.kept
  have hgone := h.gone
  have hvisible := h.visible
  simp only [hqueued, haside, List.append_nil] at hkept hgone hvisible
  have hfilter : b.journal.filter p = b.journal.filter (· ∈ b.live) := by
    refine List.filter_congr fun a ha => Bool.eq_iff_iff.mpr ?_
    rw [hp a ha, decide_eq_true_eq]
    exact ⟨(hgone a ha).resolve_left, hvisible a⟩
  rw [hfilter]
  refine h.order.eq_of_length_le (List.subperm_of_subset h.live_nodup fun a ha => ?_).length_le
  exact List.mem_filter.mpr ⟨hkept a ha, by simpa using ha⟩

/-! ## What keeps the books -/

/-- An entry with a new number joins. -/
theorem Ok.push (h : b.Ok num) {a : α} (hnew : num a ∉ (b.journal ++ b.queued).map num)
    (hvisible : num a ∉ b.hidden) :
    Ok num { b with live := b.live ++ [a], queued := b.queued ++ [a] } := by
  have hmem : ∀ x, x ∈ b.live ++ [a] ++ b.aside ↔ x ∈ b.live ++ b.aside ∨ x = a := by
    intro x
    simp only [List.mem_append, List.mem_singleton]
    tauto
  have hunknown : a ∉ b.journal ++ b.queued := fun hin => hnew (List.mem_map_of_mem hin)
  constructor
  · have hperm : (b.live ++ [a] ++ b.aside).Perm (a :: (b.live ++ b.aside)) := by
      rw [List.append_assoc]
      exact List.perm_middle
    rw [(hperm.map num).nodup_iff, List.map_cons, List.nodup_cons]
    refine ⟨fun hin => ?_, h.nums⟩
    obtain ⟨x, hx, hxa⟩ := List.mem_map.mp hin
    exact hnew (hxa ▸ List.mem_map_of_mem (h.kept x hx))
  · rw [← List.append_assoc, List.map_append, List.nodup_append]
    refine ⟨h.written, List.nodup_singleton _, ?_⟩
    rintro x hx y hy rfl
    rw [List.map_cons, List.map_nil, List.mem_singleton] at hy
    exact hnew (hy ▸ hx)
  · intro x hx
    rw [← List.append_assoc, List.mem_append, List.mem_singleton]
    exact ((hmem x).mp hx).imp_left (h.kept x)
  · intro x hx
    rcases (hmem x).mp hx with hx | rfl
    · exact h.visible x hx
    · exact hvisible
  · intro x hx
    rw [← List.append_assoc, List.mem_append, List.mem_singleton] at hx
    rw [hmem]
    rcases hx with hx | rfl
    · exact (h.gone x hx).imp_right .inl
    · exact .inr (.inr rfl)
  · have hjournal : b.journal.filter (· ∈ b.live ++ [a]) = b.journal.filter (· ∈ b.live) := by
      refine List.filter_congr fun x hx => ?_
      have hne : x ≠ a := fun he => hunknown (List.mem_append_left _ (he ▸ hx))
      simp [hne]
    rw [hjournal]
    exact h.order.trans (List.sublist_append_left _ _)

/-- What is on the list and what is set aside change places. -/
theorem Ok.rearrange (h : b.Ok num) {live aside : List α}
    (hperm : (live ++ aside).Perm (b.live ++ b.aside))
    (horder : (b.journal.filter (· ∈ live)).Sublist live) :
    Ok num { b with live, aside } := by
  constructor
  · exact (hperm.map num).nodup_iff.mpr h.nums
  · exact h.written
  · intro a ha
    exact h.kept a (hperm.mem_iff.mp ha)
  · intro a ha
    exact h.visible a (hperm.mem_iff.mp ha)
  · intro a ha
    exact (h.gone a ha).imp_right hperm.mem_iff.mpr
  · exact horder

/-- The order in which entries are queued does not matter. -/
theorem Ok.requeue (h : b.Ok num) {queued : List α} (hperm : b.queued.Perm queued) :
    Ok num { b with queued } := by
  have hall : (b.journal ++ queued).Perm (b.journal ++ b.queued) :=
    hperm.symm.append_left b.journal
  constructor
  · exact h.nums
  · exact (hall.map num).nodup_iff.mpr h.written
  · intro a ha
    exact hall.mem_iff.mpr (h.kept a ha)
  · exact h.visible
  · intro a ha
    exact h.gone a (hall.mem_iff.mp ha)
  · exact h.order

/-- An entry that comes back joins at the end again: nothing on the list may
have been written down after it. -/
theorem Ok.putBack (h : b.Ok num) {a : α} {aside : List α}
    (hperm : b.aside.Perm (a :: aside)) (hlast : ∀ x ∈ b.live, ¬ [a, x].Sublist b.journal) :
    Ok num { b with live := b.live ++ [a], aside } := by
  refine h.rearrange ?_ ?_
  · rw [List.append_assoc]
    exact (hperm.symm.append_left b.live)
  · -- written down before, it is the last one of the list in the journal too
    by_cases ha : a ∈ b.journal
    · obtain ⟨before, after, hsplit⟩ := List.append_of_mem ha
      have hjournal : b.journal.Nodup :=
        (List.Nodup.of_map num h.written).of_append_left
      have hafter : ∀ x ∈ after, x ∉ b.live := by
        intro x hx hlive
        refine hlast x hlive ?_
        rw [hsplit]
        have htail : [a, x].Sublist (a :: after) :=
          (List.singleton_sublist.mpr hx).cons_cons a
        exact htail.trans (List.sublist_append_right _ _)
      have hnot : a ∉ before ∧ a ∉ after := by
        rw [hsplit, List.nodup_middle, List.nodup_cons, List.mem_append] at hjournal
        exact not_or.mp hjournal.1
      have hbefore : before.filter (· ∈ b.live ++ [a]) = before.filter (· ∈ b.live) := by
        refine List.filter_congr fun x hx => ?_
        have hne : x ≠ a := fun he => hnot.1 (he ▸ hx)
        simp [hne]
      have hnone : after.filter (· ∈ b.live ++ [a]) = [] := by
        refine List.filter_eq_nil_iff.mpr fun x hx => ?_
        have hne : x ≠ a := fun he => hnot.2 (he ▸ hx)
        simp [hne, hafter x hx]
      have horder : (before.filter (· ∈ b.live)).Sublist b.live := by
        refine List.Sublist.trans (List.Sublist.filter _ ?_) h.order
        rw [hsplit]
        exact List.sublist_append_left _ _
      rw [hsplit, List.filter_append, List.filter_cons_of_pos (by simp), hbefore, hnone]
      exact horder.append (List.Sublist.refl [a])
    · have hjournal : b.journal.filter (· ∈ b.live ++ [a]) = b.journal.filter (· ∈ b.live) := by
        refine List.filter_congr fun x hx => ?_
        have hne : x ≠ a := fun he => ha (he ▸ hx)
        simp [hne]
      rw [hjournal]
      exact h.order.trans (List.sublist_append_left _ _)

/-- A number is hidden, and the entries that carry it leave. -/
theorem Ok.hide [DecidableEq κ] (h : b.Ok num) (n : κ) :
    Ok num { b with
      live := b.live.filter (num · ≠ n)
      aside := b.aside.filter (num · ≠ n)
      hidden := {k | k ∈ b.hidden ∨ k = n} } := by
  have hmem : ∀ x, x ∈ b.live.filter (num · ≠ n) ++ b.aside.filter (num · ≠ n) ↔
      x ∈ b.live ++ b.aside ∧ num x ≠ n := by
    intro x
    simp [List.mem_append, List.mem_filter, or_and_right]
  constructor
  · rw [← List.filter_append]
    exact h.nums.sublist (List.filter_sublist.map num)
  · exact h.written
  · intro x hx
    exact h.kept x ((hmem x).mp hx).1
  · rintro x hx (hhidden | hn)
    · exact h.visible x ((hmem x).mp hx).1 hhidden
    · exact ((hmem x).mp hx).2 hn
  · intro x hx
    by_cases hn : num x = n
    · exact .inl (.inr hn)
    · exact (h.gone x hx).imp .inl fun hin => (hmem x).mpr ⟨hin, hn⟩
  · exact h.order_of_sublist List.filter_sublist

/-- A queued entry is written down: nothing that stands after it on the list
may have been written down before. -/
theorem Ok.write (h : b.Ok num) {a : α} {queued : List α} (hperm : b.queued.Perm (a :: queued))
    (hfirst : ∀ before after, b.live = before ++ a :: after → ∀ x ∈ after, x ∉ b.journal) :
    Ok num { b with queued, journal := b.journal ++ [a] } := by
  have hall : (b.journal ++ [a] ++ queued).Perm (b.journal ++ b.queued) := by
    rw [List.append_assoc]
    exact hperm.symm.append_left b.journal
  have hunwritten : a ∉ b.journal := by
    have hnodup : (b.journal ++ b.queued).Nodup := List.Nodup.of_map num h.written
    exact fun hin => List.disjoint_of_nodup_append hnodup hin
      (hperm.mem_iff.mpr List.mem_cons_self)
  constructor
  · exact h.nums
  · exact (hall.map num).nodup_iff.mpr h.written
  · intro x hx
    exact hall.mem_iff.mpr (h.kept x hx)
  · exact h.visible
  · intro x hx
    exact h.gone x (hall.mem_iff.mp hx)
  · -- still on the list, it stands behind all that has been written down
    rw [List.filter_append]
    by_cases ha : a ∈ b.live
    · obtain ⟨before, after, hsplit⟩ := List.append_of_mem ha
      have hbefore : (b.journal.filter (· ∈ before)).Sublist before := by
        refine h.order_of_sublist ?_
        rw [hsplit]
        exact List.sublist_append_left _ _
      have hjournal : b.journal.filter (· ∈ b.live) = b.journal.filter (· ∈ before) := by
        refine List.filter_congr fun x hx => ?_
        have hne : x ≠ a := fun he => hunwritten (he ▸ hx)
        have hafter : x ∉ after := fun hin => hfirst before after hsplit x hin hx
        simp [hsplit, hne, hafter]
      have hsingle : [a].filter (· ∈ b.live) = [a] := by simp [ha]
      rw [hjournal, hsingle]
      have hsub : (b.journal.filter (· ∈ before) ++ [a]).Sublist (before ++ [a]) :=
        hbefore.append (List.Sublist.refl [a])
      refine hsub.trans ?_
      have hlive : b.live = before ++ [a] ++ after := by
        rw [hsplit, List.append_assoc]
        rfl
      rw [hlive]
      exact List.sublist_append_left _ _
    · have hnone : [a].filter (· ∈ b.live) = [] := by simp [ha]
      rw [hnone, List.append_nil]
      exact h.order

end Books

end Newmux.Base
