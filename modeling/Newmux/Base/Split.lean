import Mathlib.Data.List.TakeWhile
import Mathlib.Tactic

/-!
# Separated fields

A text split at a separator: what is in front of the first one, and what the fields
of a beginning are.
-/

namespace Newmux.Base.Split

variable {α : Type} {sep : α}

/-- Some fields and a beginning of the next are a beginning of them all. -/
theorem intercalate_prefix (done : List (List α)) {u x : List α} (hu : u <+: x)
    (rest : List (List α)) :
    [sep].intercalate (done ++ [u]) <+: [sep].intercalate (done ++ x :: rest) := by
  induction done with
  | nil =>
      rw [List.nil_append, List.nil_append, List.intercalate_singleton]
      cases rest with
      | nil => rwa [List.intercalate_singleton]
      | cons y rest =>
          rw [List.intercalate_cons_cons, List.append_assoc]
          exact hu.trans (List.prefix_append _ _)
  | cons y done ih =>
      rw [List.cons_append, List.cons_append, List.intercalate_cons_of_ne_nil (by simp),
        List.intercalate_cons_of_ne_nil (by simp)]
      exact (List.prefix_append_right_inj _).mpr ih

variable [DecidableEq α]

/-- The text up to the first separator, and from it on. -/
theorem takeWhile_append_sep {u : List α} (hu : sep ∉ u) (rest : List α) :
    (u ++ sep :: rest).takeWhile (· ≠ sep) = u ∧
      (u ++ sep :: rest).dropWhile (· ≠ sep) = sep :: rest := by
  have hall : ∀ x ∈ u, decide (x ≠ sep) = true := by
    intro x hx
    rw [decide_eq_true_eq]
    rintro rfl
    exact hu hx
  constructor
  · rw [List.takeWhile_append_of_pos hall, List.takeWhile_cons_of_neg (by simp), List.append_nil]
  · rw [List.dropWhile_append_of_pos hall, List.dropWhile_cons_of_neg (by simp)]

theorem takeWhile_of_notMem {t : List α} (ht : sep ∉ t) :
    t.takeWhile (· ≠ sep) = t ∧ t.dropWhile (· ≠ sep) = [] := by
  have hall : ∀ x ∈ t, decide (x ≠ sep) = true := by
    intro x hx
    rw [decide_eq_true_eq]
    rintro rfl
    exact ht hx
  exact ⟨List.takeWhile_eq_self_iff.mpr hall, List.dropWhile_eq_nil_iff.mpr hall⟩

theorem notMem_takeWhile (t : List α) : sep ∉ t.takeWhile (· ≠ sep) := by
  intro hmem
  have := List.mem_takeWhile_imp hmem
  simp at this

/-- Splitting is taking the first field and splitting what follows it. -/
theorem splitOn_eq (t : List α) :
    t.splitOn sep = t.takeWhile (· ≠ sep) ::
      match t.dropWhile (· ≠ sep) with
      | [] => []
      | _ :: rest => rest.splitOn sep := by
  by_cases ht : sep ∈ t
  · obtain ⟨u, rest, rfl, hu⟩ := List.eq_append_cons_of_mem ht
    rw [(takeWhile_append_sep hu rest).1, (takeWhile_append_sep hu rest).2,
      List.splitOn_append_cons_self_of_not_mem hu]
  · rw [(takeWhile_of_notMem ht).1, (takeWhile_of_notMem ht).2, List.splitOn_eq_singleton ht]

/-- A beginning of fields in a row is some of them whole and a beginning of the
next. -/
theorem splitOn_of_prefix {fs : List (List α)} (hne : fs ≠ []) (hfs : ∀ f ∈ fs, sep ∉ f)
    {t : List α} (ht : t <+: [sep].intercalate fs) :
    ∃ done x rest u, fs = done ++ x :: rest ∧ u <+: x ∧ t.splitOn sep = done ++ [u] := by
  induction fs generalizing t with
  | nil => exact absurd rfl hne
  | cons x fs ih =>
      have hx : sep ∉ x := hfs x (by simp)
      have hbegun : t <+: x → ∃ done y rest u,
          x :: fs = done ++ y :: rest ∧ u <+: y ∧ t.splitOn sep = done ++ [u] := by
        intro htx
        refine ⟨[], x, fs, t, rfl, htx, ?_⟩
        exact List.splitOn_eq_singleton fun hmem => hx (htx.mem hmem)
      cases fs with
      | nil =>
          rw [List.intercalate_singleton] at ht
          exact hbegun ht
      | cons y fs =>
          rw [List.intercalate_cons_cons, List.append_assoc] at ht
          obtain ⟨s, hs⟩ := ht
          rcases List.append_eq_append_iff.mp hs with ⟨a, rfl, -⟩ | ⟨c, rfl, hc⟩
          · exact hbegun (List.prefix_append _ _)
          · cases c with
            | nil => exact hbegun (by simp)
            | cons c₀ c =>
                obtain ⟨rfl, hc⟩ := List.cons.inj hc
                obtain ⟨done, z, rest, u, heq, hu, hsplit⟩ :=
                  ih (by simp) (fun f hf => hfs f (by simp [hf])) ⟨s, (List.cons.inj hc.symm).2⟩
                refine ⟨x :: done, z, rest, u, by rw [heq]; rfl, hu, ?_⟩
                rw [List.splitOn_append_cons_self_of_not_mem hx, hsplit]
                rfl

end Newmux.Base.Split
