import Mathlib.Data.List.Nodup
import Mathlib.Tactic

/-!
# Keyed tables

A table is a list of records, each carrying its own key (an id that is never
reused). Lookup returns the first record with the key, `modify` rewrites the
record in place and `remove` drops it. The lemmas say what a lookup sees after
each operation, so that proofs about programs over tables never unfold the
lists.
-/

namespace Newmux.Base

/-- Records that carry their own key. -/
class Keyed (α : Type) where
  key : α → Nat

export Keyed (key)

namespace Table

variable {α : Type} [Keyed α]

/-- The record with key `k`. -/
def find (t : List α) (k : Nat) : Option α := t.find? (fun a => key a == k)

/-- Rewrite the record with key `k`. -/
def modify (t : List α) (k : Nat) (f : α → α) : List α :=
  t.map (fun a => if key a = k then f a else a)

/-- Drop the record with key `k`. -/
def remove (t : List α) (k : Nat) : List α := t.filter (fun a => key a ≠ k)

/-- Keys are pairwise distinct. -/
def Unique (t : List α) : Prop := (t.map key).Nodup

@[simp] theorem find_nil (k : Nat) : find ([] : List α) k = none := rfl

theorem find_cons (a : α) (t : List α) (k : Nat) :
    find (a :: t) k = if key a = k then some a else find t k := by
  unfold find
  by_cases h : key a = k <;> simp [h]

theorem find_some_mem {t : List α} {k : Nat} {a : α} (h : find t k = some a) : a ∈ t :=
  List.mem_of_find?_eq_some h

theorem find_some_key {t : List α} {k : Nat} {a : α} (h : find t k = some a) :
    key a = k := by
  simpa using List.find?_some h

/-- Under unique keys a member is what its key looks up. -/
theorem find_of_mem {t : List α} (hu : Unique t) {a : α} (h : a ∈ t) :
    find t (key a) = some a := by
  induction t with
  | nil => exact absurd h List.not_mem_nil
  | cons b t ih =>
      simp only [Unique, List.map_cons, List.nodup_cons] at hu
      rw [find_cons]
      rcases List.mem_cons.mp h with rfl | hmem
      · simp
      · have hne : key b ≠ key a := fun he => hu.1 (he ▸ List.mem_map_of_mem hmem)
        rw [if_neg hne]
        exact ih hu.2 hmem

theorem find_eq_some_iff {t : List α} (hu : Unique t) {k : Nat} {a : α} :
    find t k = some a ↔ a ∈ t ∧ key a = k := by
  constructor
  · intro h; exact ⟨find_some_mem h, find_some_key h⟩
  · rintro ⟨hmem, rfl⟩; exact find_of_mem hu hmem

theorem map_key_modify (t : List α) (k : Nat) {f : α → α}
    (hf : ∀ a, key a = k → key (f a) = k) : (modify t k f).map key = t.map key := by
  simp only [modify, List.map_map]
  refine List.map_congr_left ?_
  intro a _
  simp only [Function.comp]
  split
  · next h => rw [hf a h, h]
  · rfl

theorem unique_modify {t : List α} (k : Nat) {f : α → α}
    (hf : ∀ a, key a = k → key (f a) = k) (hu : Unique t) : Unique (modify t k f) := by
  unfold Unique
  rw [map_key_modify t k hf]
  exact hu

/-- What a lookup sees after an in-place rewrite. -/
theorem find_modify (t : List α) (k j : Nat) {f : α → α}
    (hf : ∀ a, key a = k → key (f a) = k) :
    find (modify t k f) j = if j = k then (find t j).map f else find t j := by
  induction t with
  | nil => simp [modify, find]
  | cons a t ih =>
      have hcons : modify (a :: t) k f = (if key a = k then f a else a) :: modify t k f := rfl
      rw [hcons, find_cons, find_cons, ih]
      by_cases hk : key a = k
      · rw [if_pos hk, hf a hk]
        by_cases hj : k = j
        · simp [hk, hj]
        · have : key a ≠ j := fun he => hj (hk.symm.trans he)
          simp [hj, this]
      · rw [if_neg hk]
        by_cases hj : key a = j
        · have hjk : j ≠ k := fun he => hk (hj.trans he)
          simp [hj, hjk]
        · simp [hj]

/-- What a lookup sees after a removal. -/
theorem find_remove (t : List α) (k j : Nat) :
    find (remove t k) j = if j = k then none else find t j := by
  induction t with
  | nil => simp [remove]
  | cons a t ih =>
      by_cases hk : key a = k
      · have hdrop : remove (a :: t) k = remove t k := by simp [remove, hk]
        rw [hdrop, ih, find_cons]
        by_cases hj : j = k
        · simp [hj]
        · have : key a ≠ j := fun he => hj (he.symm.trans hk)
          simp [hj, this]
      · have hkeep : remove (a :: t) k = a :: remove t k := by simp [remove, hk]
        rw [hkeep, find_cons, find_cons, ih]
        by_cases hj : key a = j
        · have : j ≠ k := fun he => hk (hj.trans he)
          simp [hj, this]
        · simp [hj]

/-- What a lookup sees after every record is rewritten. -/
theorem find_map (t : List α) (k : Nat) {f : α → α} (hf : ∀ a, key (f a) = key a) :
    find (t.map f) k = (find t k).map f := by
  have hcomp : (fun a => key a == k) ∘ f = fun a => key a == k :=
    funext fun a => by simp [hf]
  rw [find, find, List.find?_map, hcomp]

end Table

end Newmux.Base
