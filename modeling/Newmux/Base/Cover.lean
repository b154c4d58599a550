import Mathlib.Tactic

/-!
# Covering exactly once

A list of regions over a type of points covers a whole exactly once when every
point of the whole is in one of the regions, no point is in two, and no region
goes beyond the whole. Covers compose: the whole can be cut in two, and each
region of a cover can be covered in turn. Rectangles on the grid of naturals are
the regions a layout is made of; they can be cut along either side.
-/

namespace Newmux.Base

variable {P : Type*}

/-- Every point of `whole` is in exactly one of the regions, and every other
point in none. -/
def CoverOnce (regions : List (P → Bool)) (whole : P → Bool) : Prop :=
  ∀ p, regions.countP (fun r => r p) = (whole p).toNat

namespace CoverOnce

theorem singleton (r : P → Bool) : CoverOnce [r] r := by
  intro p
  cases h : r p <;> simp [h]

/-- Covers of the two sides of a cut. -/
theorem append {rs ss : List (P → Bool)} {a b whole : P → Bool} (hrs : CoverOnce rs a)
    (hss : CoverOnce ss b) (hcut : ∀ p, (whole p).toNat = (a p).toNat + (b p).toNat) :
    CoverOnce (rs ++ ss) whole := by
  intro p
  rw [List.countP_append, hrs p, hss p, hcut p]

/-- Each region of a cover is covered in turn. -/
theorem flatMap {ι : Type*} {cells : List ι} {parts : ι → List (P → Bool)}
    {region : ι → P → Bool} {whole : P → Bool}
    (hparts : ∀ c ∈ cells, CoverOnce (parts c) (region c))
    (hcells : CoverOnce (cells.map region) whole) : CoverOnce (cells.flatMap parts) whole := by
  intro p
  rw [← hcells p]
  clear hcells
  induction cells with
  | nil => rfl
  | cons c cells ih =>
      have hc := hparts c List.mem_cons_self p
      have hrest := ih fun x hx => hparts x (List.mem_cons_of_mem _ hx)
      rw [List.flatMap_cons, List.countP_append, hc, hrest, List.map_cons, List.countP_cons]
      cases region c p <;> simp [Nat.add_comm]

/-- Two regions of a cover have no point in common. -/
theorem pairwise {rs : List (P → Bool)} {whole : P → Bool} (h : CoverOnce rs whole) :
    rs.Pairwise fun a b => ∀ p, ¬ (a p = true ∧ b p = true) := by
  rw [List.pairwise_iff_getElem]
  rintro i j hi hj hij p ⟨ha, hb⟩
  have hle : rs.countP (fun r => r p) ≤ 1 := by
    rw [h p]
    exact Bool.toNat_le _
  have hsub : [rs[i], rs[j]].Sublist rs := by
    have hdrop : [rs[j]].Sublist (rs.drop (i + 1)) := by
      rw [List.singleton_sublist]
      exact List.mem_drop_iff_getElem.mpr ⟨j - (i + 1), by omega, by simp only [Nat.add_sub_cancel' hij]⟩
    have := (hdrop.cons_cons rs[i])
    rw [← List.drop_eq_getElem_cons hi] at this
    exact this.trans (List.drop_sublist i rs)
  have htwo : [rs[i], rs[j]].countP (fun r => r p) = 2 := by simp [ha, hb]
  have := hsub.countP_le (p := fun r : P → Bool => r p)
  omega

/-- No region reaches beyond the whole. -/
theorem subset {rs : List (P → Bool)} {whole : P → Bool} (h : CoverOnce rs whole)
    {r : P → Bool} (hr : r ∈ rs) {p : P} (hp : r p = true) : whole p = true := by
  have hpos : 0 < rs.countP fun r => r p := List.countP_pos_iff.mpr ⟨r, hr, hp⟩
  rw [h p] at hpos
  cases hw : whole p with
  | true => rfl
  | false => simp [hw] at hpos

end CoverOnce

/-! ## Rectangles -/

/-- A rectangle of the grid, by its corner, width and height. -/
@[ext] structure Rect where
  x : Nat
  y : Nat
  w : Nat
  h : Nat
deriving DecidableEq, Repr

namespace Rect

/-- The points of a rectangle. -/
def region (r : Rect) (p : Nat × Nat) : Bool :=
  decide (r.x ≤ p.1 ∧ p.1 < r.x + r.w ∧ r.y ≤ p.2 ∧ p.2 < r.y + r.h)

theorem region_iff {r : Rect} {p : Nat × Nat} :
    r.region p = true ↔ r.x ≤ p.1 ∧ p.1 < r.x + r.w ∧ r.y ≤ p.2 ∧ p.2 < r.y + r.h := by
  unfold region
  rw [decide_eq_true_iff]

/-- One rectangle is to one side of the other. -/
def Apart (a b : Rect) : Prop :=
  a.x + a.w ≤ b.x ∨ b.x + b.w ≤ a.x ∨ a.y + a.h ≤ b.y ∨ b.y + b.h ≤ a.y

/-- Rectangles that share no point and are not empty are apart. -/
theorem apart_of_disjoint {a b : Rect} (ha : 0 < a.w ∧ 0 < a.h) (hb : 0 < b.w ∧ 0 < b.h)
    (h : ∀ p, ¬ (a.region p = true ∧ b.region p = true)) : a.Apart b := by
  unfold Apart
  by_contra hcon
  refine h (max a.x b.x, max a.y b.y) ⟨region_iff.mpr ?_, region_iff.mpr ?_⟩ <;>
  · simp only
    omega

/-- A cut across the width. -/
theorem cut_w (x y w w' h : Nat) (p : Nat × Nat) :
    ((region ⟨x, y, w + w', h⟩ p).toNat) =
      (region ⟨x, y, w, h⟩ p).toNat + (region ⟨x + w, y, w', h⟩ p).toNat := by
  unfold region
  by_cases h₁ : x ≤ p.1 ∧ p.1 < x + w ∧ y ≤ p.2 ∧ p.2 < y + h <;>
  by_cases h₂ : x + w ≤ p.1 ∧ p.1 < x + w + w' ∧ y ≤ p.2 ∧ p.2 < y + h
  · omega
  · have h₃ : x ≤ p.1 ∧ p.1 < x + (w + w') ∧ y ≤ p.2 ∧ p.2 < y + h := by omega
    simp [h₁, h₃]
  · have h₃ : x ≤ p.1 ∧ p.1 < x + (w + w') ∧ y ≤ p.2 ∧ p.2 < y + h := by omega
    simp [h₂, h₃]
  · have h₃ : ¬ (x ≤ p.1 ∧ p.1 < x + (w + w') ∧ y ≤ p.2 ∧ p.2 < y + h) := by omega
    simp [h₁, h₂, h₃]

/-- The same rectangle with its sides exchanged. -/
def swap (r : Rect) : Rect := ⟨r.y, r.x, r.h, r.w⟩

theorem region_swap (r : Rect) (p : Nat × Nat) : r.swap.region p = r.region p.swap := by
  unfold region swap
  simp only [Prod.fst_swap, Prod.snd_swap, decide_eq_decide]
  omega

/-- A cut across the height. -/
theorem cut_h (x y w h h' : Nat) (p : Nat × Nat) :
    ((region ⟨x, y, w, h + h'⟩ p).toNat) =
      (region ⟨x, y, w, h⟩ p).toNat + (region ⟨x, y + h, w, h'⟩ p).toNat := by
  have hcut := cut_w y x h h' w p.swap
  rw [← region_swap, ← region_swap, ← region_swap] at hcut
  exact hcut

end Rect

end Newmux.Base
