import Newmux.Base.Cover
import Newmux.Logic.Cells

/-!
# Consistent layout trees

A layout tree is consistent when every node has at least two children that fill
it: across the node's direction each is as large as the node, and along it their
sizes, with a border after each, add up to the node's. `layout_check` tests the
sizes. Growing a cell, closing one and placing the cells at their offsets keep a
tree consistent, and closing a cell keeps the size of the whole.
-/

namespace Newmux.Logic

open Newmux.Base Newmux.Tmux LayoutCell

/-- A cell's width and height. -/
def size (lc : LayoutCell) : Nat × Nat := (lc.geom.sx, lc.geom.sy)

/-- Sizes that agree along and across a direction are the same. -/
theorem size_eq_iff {lc lc' : LayoutCell} (t : LayoutType) :
    size lc = size lc' ↔
      lc.geom.along t = lc'.geom.along t ∧ lc.geom.across t = lc'.geom.across t := by
  unfold size
  cases t
  · exact Prod.mk_inj
  · rw [Prod.mk_inj, and_comm]
    rfl

/-- Every node has at least two children, and they fill it. -/
inductive Consistent : LayoutCell → Prop
  | pane (g wp) : Consistent (.pane g wp)
  | split {t g cells} : 2 ≤ cells.length → (∀ c ∈ cells, Consistent c) →
      (∀ c ∈ cells, c.geom.across t = g.across t) →
      (cells.map fun c => c.geom.along t + 1).sum = g.along t + 1 →
      Consistent (.split t g cells)

mutual
/-- The nodes have at least two children. -/
def branching : LayoutCell → Bool
  | .pane _ _ => true
  | .split _ _ cells => decide (2 ≤ cells.length) && branchingList cells
def branchingList : List LayoutCell → Bool
  | [] => true
  | lc :: cells => branching lc && branchingList cells
end

theorem branchingList_iff {cells : List LayoutCell} :
    branchingList cells = true ↔ ∀ c ∈ cells, branching c = true := by
  induction cells with
  | nil => simp [branchingList]
  | cons lc cells ih => simp [branchingList, ih]

theorem layoutCheckList_iff {t : LayoutType} {g : Geom} {cells : List LayoutCell} :
    layoutCheckList t g cells = true ↔
      ∀ c ∈ cells, c.geom.across t = g.across t ∧ layoutCheck c = true := by
  induction cells with
  | nil => simp [layoutCheckList]
  | cons lc cells ih => simp [layoutCheckList, ih]

/-- `layout_check` accepts exactly the consistent trees among those whose nodes
branch. -/
theorem consistent_iff {lc : LayoutCell} :
    Consistent lc ↔ layoutCheck lc = true ∧ branching lc = true := by
  induction lc using LayoutCell.induct with
  | pane g wp => exact ⟨fun _ => ⟨rfl, rfl⟩, fun _ => .pane g wp⟩
  | split t g cells ih =>
      simp only [layoutCheck, branching, Bool.and_eq_true, decide_eq_true_eq,
        layoutCheckList_iff, branchingList_iff]
      constructor
      · rintro (- | ⟨hlen, hcells, hacross, hsum⟩)
        exact ⟨⟨fun c hc => ⟨hacross c hc, ((ih c hc).mp (hcells c hc)).1⟩, hsum⟩, hlen,
          fun c hc => ((ih c hc).mp (hcells c hc)).2⟩
      · rintro ⟨⟨hcheck, hsum⟩, hlen, hbranch⟩
        exact .split hlen (fun c hc => (ih c hc).mpr ⟨(hcheck c hc).2, hbranch c hc⟩)
          (fun c hc => (hcheck c hc).1) hsum

instance (lc : LayoutCell) : Decidable (Consistent lc) :=
  decidable_of_iff' _ consistent_iff

theorem Consistent.check {lc : LayoutCell} (h : Consistent lc) : layoutCheck lc = true :=
  (consistent_iff.mp h).1

theorem Consistent.child {t : LayoutType} {g : Geom} {cells : List LayoutCell}
    (h : Consistent (.split t g cells)) {c : LayoutCell} (hc : c ∈ cells) : Consistent c := by
  cases h with
  | split _ hcells _ _ => exact hcells c hc

/-! ## Growing a cell -/

@[simp] theorem Geom.along_grow_self (g : Geom) (n : Nat) (t : LayoutType) :
    (g.grow n t).along t = g.along t + n := by
  cases t <;> rfl

@[simp] theorem Geom.across_grow_self (g : Geom) (n : Nat) (t : LayoutType) :
    (g.grow n t).across t = g.across t := by
  cases t <;> rfl

theorem Geom.along_grow_of_ne {t type : LayoutType} (h : t ≠ type) (g : Geom) (n : Nat) :
    (g.grow n type).along t = g.along t := by
  cases t <;> cases type <;> first | exact absurd rfl h | rfl

theorem Geom.across_grow_of_ne {t type : LayoutType} (h : t ≠ type) (g : Geom) (n : Nat) :
    (g.grow n type).across t = g.across t + n := by
  cases t <;> cases type <;> first | exact absurd rfl h | rfl

theorem layoutResizeAdjust_geom (fuel : Nat) (type : LayoutType) (change : Nat)
    (lc : LayoutCell) : (layoutResizeAdjust fuel type change lc).geom = lc.geom.grow change type := by
  cases lc with
  | pane g wp => cases fuel <;> rfl
  | split t g cells =>
      cases fuel with
      | zero => rfl
      | succ fuel =>
          simp only [layoutResizeAdjust]
          split <;> rfl

/-- What the adjustment keeps, a round keeps. -/
theorem adjustPass_all {adjust : LayoutCell → LayoutCell} {Q : LayoutCell → Prop}
    (hQ : ∀ lc, Q lc → Q (adjust lc)) (change : Nat) {cells : List LayoutCell}
    (h : ∀ lc ∈ cells, Q lc) : ∀ lc ∈ (adjustPass adjust change cells).1, Q lc := by
  induction cells generalizing change with
  | nil => cases change <;> exact h
  | cons lc cells ih =>
      cases change with
      | zero => exact h
      | succ change =>
          simp only [adjustPass]
          intro x hx
          rcases List.mem_cons.mp hx with rfl | hx
          · exact hQ lc (h lc List.mem_cons_self)
          · exact ih change (fun y hy => h y (List.mem_cons_of_mem _ hy)) x hx

theorem adjustPass_length (adjust : LayoutCell → LayoutCell) (change : Nat)
    (cells : List LayoutCell) : (adjustPass adjust change cells).1.length = cells.length := by
  induction cells generalizing change with
  | nil => cases change <;> rfl
  | cons lc cells ih =>
      cases change with
      | zero => rfl
      | succ change => simp only [adjustPass, List.length_cons, ih]

/-- A round hands out one each: what is left is what was not given. -/
theorem adjustPass_sum {adjust : LayoutCell → LayoutCell} {f : LayoutCell → Nat}
    (hf : ∀ lc, f (adjust lc) = f lc + 1) (change : Nat) (cells : List LayoutCell) :
    ((adjustPass adjust change cells).1.map f).sum + (adjustPass adjust change cells).2 =
      (cells.map f).sum + change := by
  induction cells generalizing change with
  | nil => cases change <;> rfl
  | cons lc cells ih =>
      cases change with
      | zero => rfl
      | succ change =>
          have := ih change
          simp only [adjustPass, List.map_cons, List.sum_cons, hf]
          omega

/-- A round over some cells gives something away. -/
theorem adjustPass_left (adjust : LayoutCell → LayoutCell) (change : Nat) (lc : LayoutCell)
    (cells : List LayoutCell) : (adjustPass adjust (change + 1) (lc :: cells)).2 ≤ change := by
  simp only [adjustPass]
  induction cells generalizing change with
  | nil => cases change <;> exact le_rfl
  | cons lc cells ih =>
      cases change with
      | zero => exact le_rfl
      | succ change =>
          simp only [adjustPass]
          exact (ih change).trans (Nat.le_succ _)

theorem adjustLoop_all {adjust : LayoutCell → LayoutCell} {Q : LayoutCell → Prop}
    (hQ : ∀ lc, Q lc → Q (adjust lc)) (fuel change : Nat) {cells : List LayoutCell}
    (h : ∀ lc ∈ cells, Q lc) : ∀ lc ∈ adjustLoop adjust fuel change cells, Q lc := by
  induction fuel generalizing change cells with
  | zero => exact h
  | succ fuel ih =>
      cases change with
      | zero => exact h
      | succ change => exact ih _ (adjustPass_all hQ _ h)

theorem adjustLoop_length (adjust : LayoutCell → LayoutCell) (fuel change : Nat)
    (cells : List LayoutCell) : (adjustLoop adjust fuel change cells).length = cells.length := by
  induction fuel generalizing change cells with
  | zero => rfl
  | succ fuel ih =>
      cases change with
      | zero => rfl
      | succ change =>
          simp only [adjustLoop]
          rw [ih, adjustPass_length]

/-- The loop hands out the whole change. -/
theorem adjustLoop_sum {adjust : LayoutCell → LayoutCell} {f : LayoutCell → Nat}
    (hf : ∀ lc, f (adjust lc) = f lc + 1) {fuel change : Nat} (hfuel : change ≤ fuel)
    {cells : List LayoutCell} (hne : cells ≠ []) :
    ((adjustLoop adjust fuel change cells).map f).sum = (cells.map f).sum + change := by
  induction fuel generalizing change cells with
  | zero =>
      obtain rfl : change = 0 := by omega
      rfl
  | succ fuel ih =>
      cases change with
      | zero => rfl
      | succ change =>
          obtain ⟨lc, cells, rfl⟩ := List.exists_cons_of_ne_nil hne
          have hsum := adjustPass_sum hf (change + 1) (lc :: cells)
          have hleft := adjustPass_left adjust change lc cells
          have hlen := adjustPass_length adjust (change + 1) (lc :: cells)
          have hne' : (adjustPass adjust (change + 1) (lc :: cells)).1 ≠ [] :=
            List.ne_nil_of_length_pos (by rw [hlen]; exact Nat.succ_pos _)
          simp only [adjustLoop]
          rw [ih (by omega) hne']
          omega

theorem depthList_le {cells : List LayoutCell} {n : Nat} :
    depthList cells ≤ n ↔ ∀ c ∈ cells, c.depth ≤ n := by
  induction cells with
  | nil => simp [depthList]
  | cons lc cells ih => simp [depthList, ih]

/-- Growing does not make a tree deeper. -/
theorem layoutResizeAdjust_depth {n : Nat} (fuel : Nat) (type : LayoutType) (change : Nat)
    {lc : LayoutCell} (h : lc.depth ≤ n) : (layoutResizeAdjust fuel type change lc).depth ≤ n := by
  induction fuel generalizing n change lc with
  | zero => cases lc <;> exact h
  | succ fuel ih =>
      cases lc with
      | pane g wp => exact h
      | split t g cells =>
          obtain ⟨n, rfl⟩ : ∃ m, n = m + 1 := ⟨n - 1, by rw [depth] at h; omega⟩
          have hcells : ∀ c ∈ cells, c.depth ≤ n := by
            rw [depth] at h
            exact depthList_le.mp (by omega)
          simp only [layoutResizeAdjust]
          split
          · rw [depth, Nat.add_le_add_iff_right, depthList_le]
            intro c hc
            obtain ⟨x, hx, rfl⟩ := List.mem_map.mp hc
            exact ih change (hcells x hx)
          · rw [depth, Nat.add_le_add_iff_right, depthList_le]
            exact adjustLoop_all (Q := fun c => c.depth ≤ n) (fun lc hlc => ih 1 hlc) change change hcells

/-- **Growing a cell** keeps it consistent. -/
theorem Consistent.resize {lc : LayoutCell} (h : Consistent lc) {fuel : Nat}
    (hfuel : lc.depth ≤ fuel) (type : LayoutType) (change : Nat) :
    Consistent (layoutResizeAdjust fuel type change lc) := by
  induction fuel generalizing change lc with
  | zero =>
      cases h with
      | pane g wp => exact .pane _ wp
      | split _ _ _ _ =>
          rw [depth] at hfuel
          omega
  | succ fuel ih =>
      cases h with
      | pane g wp => exact .pane _ wp
      | @split t g cells hlen hcells hacross hsum =>
          have hdepth : ∀ c ∈ cells, c.depth ≤ fuel := by
            rw [depth] at hfuel
            exact depthList_le.mp (by omega)
          simp only [layoutResizeAdjust]
          split
          · next hne =>
              -- every child grows across the node
              refine .split (by rw [List.length_map]; exact hlen) ?_ ?_ ?_
              · intro c hc
                obtain ⟨x, hx, rfl⟩ := List.mem_map.mp hc
                exact ih (hcells x hx) (hdepth x hx) change
              · intro c hc
                obtain ⟨x, hx, rfl⟩ := List.mem_map.mp hc
                rw [layoutResizeAdjust_geom, Geom.across_grow_of_ne hne,
                  Geom.across_grow_of_ne hne, hacross x hx]
              · rw [Geom.along_grow_of_ne hne, ← hsum, List.map_map]
                refine congrArg List.sum (List.map_congr_left fun c _ => ?_)
                simp only [Function.comp_apply, layoutResizeAdjust_geom, Geom.along_grow_of_ne hne]
          · next heq =>
              -- the children take turns growing along the node
              obtain rfl : t = type := not_not.mp heq
              have hne : cells ≠ [] := List.ne_nil_of_length_pos (by omega)
              refine .split (by rw [adjustLoop_length]; exact hlen) ?_ ?_ ?_
              · have hkeep : ∀ lc, Consistent lc ∧ lc.depth ≤ fuel →
                    Consistent (layoutResizeAdjust fuel t 1 lc) ∧
                      (layoutResizeAdjust fuel t 1 lc).depth ≤ fuel :=
                  fun lc h => ⟨ih h.1 h.2 1, layoutResizeAdjust_depth fuel t 1 h.2⟩
                exact fun c hc => (adjustLoop_all hkeep change change
                  (fun x hx => ⟨hcells x hx, hdepth x hx⟩) c hc).1
              · have hkeep : ∀ lc : LayoutCell, lc.geom.across t = g.across t →
                    (layoutResizeAdjust fuel t 1 lc).geom.across t = g.across t := by
                  intro lc h
                  rw [layoutResizeAdjust_geom, Geom.across_grow_self, h]
                rw [Geom.across_grow_self]
                exact adjustLoop_all hkeep change change hacross
              · have hone : ∀ lc : LayoutCell,
                    (layoutResizeAdjust fuel t 1 lc).geom.along t + 1 = lc.geom.along t + 1 + 1 := by
                  intro lc
                  rw [layoutResizeAdjust_geom, Geom.along_grow_self]
                rw [adjustLoop_sum hone le_rfl hne, hsum, Geom.along_grow_self]
                omega

/-! ## Closing a cell -/

theorem sum_modify {α : Type} {l : List α} {j : Nat} (hj : j < l.length) {f : α → α}
    {w : α → Nat} {d : Nat} (hw : w (f (l.get ⟨j, hj⟩)) = w (l.get ⟨j, hj⟩) + d) :
    ((l.modify j f).map w).sum = (l.map w).sum + d := by
  induction l generalizing j with
  | nil => exact absurd hj (Nat.not_lt_zero _)
  | cons x l ih =>
      cases j with
      | zero =>
          have hx : w (f x) = w x + d := hw
          simp only [List.modify_zero_cons, List.map_cons, List.sum_cons, hx]
          omega
      | succ j =>
          have := ih (Nat.lt_of_succ_lt_succ hj) hw
          simp only [List.modify_succ_cons, List.map_cons, List.sum_cons, this]
          omega

theorem sum_eraseIdx {α : Type} {l : List α} {i : Nat} (hi : i < l.length) (w : α → Nat) :
    w (l.get ⟨i, hi⟩) + ((l.eraseIdx i).map w).sum = (l.map w).sum := by
  have hperm := (List.getElem_cons_eraseIdx_perm hi).map w
  rw [List.map_cons] at hperm
  rw [← hperm.sum_eq, List.sum_cons]
  rfl

/-- The node without child `i`, whose space `other` has taken. -/
theorem closed_cells {t : LayoutType} {g : Geom} {cells : List LayoutCell}
    (h : Consistent (.split t g cells)) {i : Nat} (hi : i < cells.length) (other : Nat)
    (hother : other < cells.length) (hne : other ≠ i) {lc : LayoutCell} (hlc : cells[i]? = some lc)
    {left : List LayoutCell}
    (hleft : left = (cells.modify other fun lcother =>
      layoutResizeAdjust lcother.depth t (lc.geom.along t + 1) lcother).eraseIdx i) :
    left.length + 1 = cells.length ∧ (∀ c ∈ left, Consistent c) ∧
      (∀ c ∈ left, c.geom.across t = g.across t) ∧
      (left.map fun c => c.geom.along t + 1).sum = g.along t + 1 := by
  cases h with
  | split hlen hcells hacross hsum =>
      have hget : cells.get ⟨i, hi⟩ = lc := by
        rw [List.getElem?_eq_getElem hi] at hlc
        exact Option.some.inj hlc
      -- what is left are the other children, one of them grown
      have hmem : ∀ c ∈ left, c ∈ cells ∨ ∃ x ∈ cells,
          c = layoutResizeAdjust x.depth t (lc.geom.along t + 1) x := by
        intro c hc
        rw [hleft] at hc
        obtain ⟨j, hj, rfl⟩ := List.mem_iff_getElem.mp (List.mem_of_mem_eraseIdx hc)
        rw [List.length_modify] at hj
        rw [List.getElem_modify]
        split
        · exact .inr ⟨_, List.getElem_mem hj, rfl⟩
        · exact .inl (List.getElem_mem hj)
      refine ⟨?_, ?_, ?_, ?_⟩
      · rw [hleft, List.length_eraseIdx_of_lt (by rw [List.length_modify]; exact hi),
          List.length_modify]
        omega
      · intro c hc
        rcases hmem c hc with hc | ⟨x, hx, rfl⟩
        · exact hcells c hc
        · exact (hcells x hx).resize le_rfl t _
      · intro c hc
        rcases hmem c hc with hc | ⟨x, hx, rfl⟩
        · exact hacross c hc
        · rw [layoutResizeAdjust_geom, Geom.across_grow_self, hacross x hx]
      · have hi' : i < (cells.modify other fun lcother =>
            layoutResizeAdjust lcother.depth t (lc.geom.along t + 1) lcother).length := by
          rw [List.length_modify]
          exact hi
        have hsame : (cells.modify other fun lcother =>
            layoutResizeAdjust lcother.depth t (lc.geom.along t + 1) lcother).get ⟨i, hi'⟩ = lc := by
          rw [List.get_eq_getElem, List.getElem_modify, if_neg hne]
          exact hget
        -- what the closed child and its border took up, the other one has gained
        have herase := sum_eraseIdx hi' fun c => c.geom.along t + 1
        have hgrown := sum_modify (l := cells) hother (w := fun c => c.geom.along t + 1)
          (f := fun lcother => layoutResizeAdjust lcother.depth t (lc.geom.along t + 1) lcother)
          (d := lc.geom.along t + 1) (by
            simp only [layoutResizeAdjust_geom, Geom.along_grow_self]
            omega)
        rw [hsame, ← hleft] at herase
        omega

/-- **Closing a child** leaves a consistent tree of the same size. -/
theorem Consistent.closeChild {t : LayoutType} {g : Geom} {cells : List LayoutCell}
    (h : Consistent (.split t g cells)) (i : Nat) :
    Consistent (closeChild t g cells i) ∧
      size (closeChild t g cells i) = size (.split t g cells) := by
  unfold LayoutCell.closeChild
  split
  · exact ⟨h, rfl⟩
  · next lc hlc =>
      have hi : i < cells.length := (List.getElem?_eq_some_iff.mp hlc).1
      have hlen : 2 ≤ cells.length := by
        cases h with
        | split hlen _ _ _ => exact hlen
      obtain ⟨hlength, hcells, hacross, hsum⟩ := closed_cells h hi
        (if i = 0 then 1 else i - 1) (by split <;> omega) (by split <;> omega) hlc rfl
      simp only
      split
      · next last hlast =>
          -- a single child takes the place of the node
          rw [hlast] at hcells hacross hsum
          refine ⟨hcells last (List.mem_singleton_self _), (size_eq_iff t).mpr ⟨?_, ?_⟩⟩
          · rw [List.map_singleton, List.sum_singleton] at hsum
            exact Nat.add_right_cancel hsum
          · exact hacross last (List.mem_singleton_self _)
      · next hnot =>
          refine ⟨.split ?_ hcells hacross hsum, rfl⟩
          generalize List.eraseIdx _ _ = left at hlength hnot
          rcases left with _ | ⟨x, _ | ⟨y, left⟩⟩
          · rw [List.length_nil] at hlength
            omega
          · exact absurd rfl (hnot x)
          · simp

/-- A child is replaced by a consistent one of its size. -/
theorem Consistent.replace {t : LayoutType} {g : Geom} {pre : List LayoutCell} {c c' : LayoutCell}
    {post : List LayoutCell} (h : Consistent (.split t g (pre ++ c :: post)))
    (hc' : Consistent c') (hsize : size c' = size c) :
    Consistent (.split t g (pre ++ c' :: post)) := by
  obtain ⟨halong, hacross'⟩ := (size_eq_iff t).mp hsize
  cases h with
  | split hlen hcells hacross hsum =>
      refine .split (by simpa using hlen) ?_ ?_ ?_
      · intro x hx
        rcases List.mem_append.mp hx with hx | hx
        · exact hcells x (List.mem_append_left _ hx)
        · rcases List.mem_cons.mp hx with rfl | hx
          · exact hc'
          · exact hcells x (List.mem_append_right _ (List.mem_cons_of_mem _ hx))
      · intro x hx
        rcases List.mem_append.mp hx with hx | hx
        · exact hacross x (List.mem_append_left _ hx)
        · rcases List.mem_cons.mp hx with rfl | hx
          · rw [hacross']
            exact hacross c (by simp)
          · exact hacross x (List.mem_append_right _ (List.mem_cons_of_mem _ hx))
      · rw [← hsum]
        simp only [List.map_append, List.map_cons, halong]

theorem destroyAt_ge (cells : List LayoutCell) {i : Nat} (hi : cells.length ≤ i) (p : List Nat) :
    destroyBelow.destroyAt cells i p = cells := by
  induction cells generalizing i with
  | nil => rfl
  | cons c cells ih =>
      cases i with
      | zero => exact absurd hi (Nat.not_succ_le_zero _)
      | succ i =>
          rw [destroyBelow.destroyAt, ih (Nat.le_of_succ_le_succ hi)]

/-- **Closing the cell at a path** leaves a consistent tree of the same size. -/
theorem Consistent.destroyBelow {lc : LayoutCell} (h : Consistent lc) (path : List Nat) :
    Consistent (destroyBelow lc path) ∧ size (destroyBelow lc path) = size lc := by
  induction lc using LayoutCell.induct generalizing path with
  | pane g wp => exact ⟨h, rfl⟩
  | split t g cells ih =>
      rcases path with _ | ⟨i, _ | ⟨j, p⟩⟩
      · exact ⟨h, rfl⟩
      · exact h.closeChild i
      · rw [LayoutCell.destroyBelow]
        by_cases hi : i < cells.length
        · obtain ⟨pre, c, post, rfl, rfl⟩ : ∃ pre c post, cells = pre ++ c :: post ∧
              pre.length = i := by
            refine ⟨cells.take i, cells[i], cells.drop (i + 1), ?_, ?_⟩
            · rw [← List.drop_eq_getElem_cons hi, List.take_append_drop]
            · rw [List.length_take]
              omega
          have hmem : c ∈ pre ++ c :: post := by simp
          obtain ⟨hc', hsize⟩ := ih c hmem (h.child hmem) (j :: p)
          rw [destroyAt_append]
          exact ⟨h.replace hc' hsize, rfl⟩
        · rw [destroyAt_ge cells (by omega)]
          exact ⟨h, rfl⟩

/-! ## Placing the cells -/

/-- The children, one after the other from an offset. -/
def placeAlong (t : LayoutType) (xoff yoff : Nat) (lc : LayoutCell) : Nat × Nat :=
  match t with
  | .leftRight => (xoff + lc.geom.sx + 1, yoff)
  | .topBottom => (xoff, yoff + lc.geom.sy + 1)

theorem layoutFixOffsetsList_cons (t : LayoutType) (xoff yoff : Nat) (lc : LayoutCell)
    (cells : List LayoutCell) : layoutFixOffsetsList t xoff yoff (lc :: cells) =
      lc.layoutFixOffsets1 xoff yoff ::
        layoutFixOffsetsList t (placeAlong t xoff yoff lc).1 (placeAlong t xoff yoff lc).2 cells := by
  cases t <;> rfl

@[simp] theorem layoutFixOffsets1_geom (xoff yoff : Nat) (lc : LayoutCell) :
    (lc.layoutFixOffsets1 xoff yoff).geom = lc.geom.at xoff yoff := by
  cases lc <;> rfl

@[simp] theorem Geom.along_at (g : Geom) (xoff yoff : Nat) (t : LayoutType) :
    (g.at xoff yoff).along t = g.along t := by
  cases t <;> rfl

@[simp] theorem Geom.across_at (g : Geom) (xoff yoff : Nat) (t : LayoutType) :
    (g.at xoff yoff).across t = g.across t := by
  cases t <;> rfl

theorem layoutFixOffsets1_size (xoff yoff : Nat) (lc : LayoutCell) :
    size (lc.layoutFixOffsets1 xoff yoff) = size lc := by
  unfold size
  rw [layoutFixOffsets1_geom]
  rfl

/-- What each child has, wherever it is placed. -/
theorem layoutFixOffsetsList_map {β : Type} {f : LayoutCell → β} (t : LayoutType)
    (xoff yoff : Nat) {cells : List LayoutCell}
    (hf : ∀ c ∈ cells, ∀ x y, f (c.layoutFixOffsets1 x y) = f c) :
    (layoutFixOffsetsList t xoff yoff cells).map f = cells.map f := by
  induction cells generalizing xoff yoff with
  | nil => rfl
  | cons c cells ih =>
      rw [layoutFixOffsetsList_cons, List.map_cons, List.map_cons, hf c List.mem_cons_self,
        ih _ _ fun x hx => hf x (List.mem_cons_of_mem _ hx)]

theorem layoutFixOffsetsList_mem {t : LayoutType} {xoff yoff : Nat} {cells : List LayoutCell}
    {c : LayoutCell} (h : c ∈ layoutFixOffsetsList t xoff yoff cells) :
    ∃ x ∈ cells, ∃ a b, c = x.layoutFixOffsets1 a b := by
  induction cells generalizing xoff yoff with
  | nil => exact absurd h List.not_mem_nil
  | cons x cells ih =>
      rw [layoutFixOffsetsList_cons] at h
      rcases List.mem_cons.mp h with rfl | h
      · exact ⟨x, List.mem_cons_self, _, _, rfl⟩
      · obtain ⟨y, hy, a, b, rfl⟩ := ih h
        exact ⟨y, List.mem_cons_of_mem _ hy, a, b, rfl⟩

/-- **Placing the cells** keeps a tree consistent. -/
theorem Consistent.fixOffsets1 {lc : LayoutCell} (h : Consistent lc) (xoff yoff : Nat) :
    Consistent (lc.layoutFixOffsets1 xoff yoff) := by
  induction lc using LayoutCell.induct generalizing xoff yoff with
  | pane g wp => exact .pane _ wp
  | split t g cells ih =>
      cases h with
      | split hlen hcells hacross hsum =>
          rw [layoutFixOffsets1]
          have hlength : (layoutFixOffsetsList t xoff yoff cells).length = cells.length := by
            have hmap : (layoutFixOffsetsList t xoff yoff cells).map (fun _ => ()) =
                cells.map fun _ => () := layoutFixOffsetsList_map t xoff yoff fun _ _ _ _ => rfl
            simpa using congrArg List.length hmap
          refine .split (by rw [hlength]; exact hlen) ?_ ?_ ?_
          · intro c hc
            obtain ⟨x, hx, a, b, rfl⟩ := layoutFixOffsetsList_mem hc
            exact ih x hx (hcells x hx) a b
          · intro c hc
            obtain ⟨x, hx, a, b, rfl⟩ := layoutFixOffsetsList_mem hc
            rw [layoutFixOffsets1_geom, Geom.across_at, Geom.across_at, hacross x hx]
          · rw [layoutFixOffsetsList_map t xoff yoff (fun c _ x y => by
              rw [layoutFixOffsets1_geom, Geom.along_at]), hsum, Geom.along_at]

/-- Placing the cells again forgets where they were. -/
theorem layoutFixOffsets1_twice (lc : LayoutCell) (xoff yoff a b : Nat) :
    (lc.layoutFixOffsets1 a b).layoutFixOffsets1 xoff yoff = lc.layoutFixOffsets1 xoff yoff := by
  induction lc using LayoutCell.induct generalizing xoff yoff a b with
  | pane g wp => rfl
  | split t g cells ih =>
      have hlist : ∀ (cells : List LayoutCell) xoff yoff a b,
          (∀ c ∈ cells, ∀ xoff yoff a b, (c.layoutFixOffsets1 a b).layoutFixOffsets1 xoff yoff =
            c.layoutFixOffsets1 xoff yoff) →
          layoutFixOffsetsList t xoff yoff (layoutFixOffsetsList t a b cells) =
            layoutFixOffsetsList t xoff yoff cells := by
        intro cells
        induction cells with
        | nil => intro _ _ _ _ _; rfl
        | cons c cells ihl =>
            intro xoff yoff a b h
            have hplace : placeAlong t xoff yoff (c.layoutFixOffsets1 a b) =
                placeAlong t xoff yoff c := by
              unfold placeAlong
              rw [layoutFixOffsets1_geom]
              rfl
            rw [layoutFixOffsetsList_cons, layoutFixOffsetsList_cons, layoutFixOffsetsList_cons,
              h c List.mem_cons_self, hplace,
              ihl _ _ _ _ fun x hx => h x (List.mem_cons_of_mem _ hx)]
      rw [layoutFixOffsets1, layoutFixOffsets1, layoutFixOffsets1, hlist cells xoff yoff a b ih]
      rfl

/-! ## Tiling -/

/-- The rectangle of a cell with the border to its right and below. -/
def rect (g : Geom) : Rect := ⟨g.xoff, g.yoff, g.sx + 1, g.sy + 1⟩

mutual
/-- The places of the panes, in tree order. -/
def leaves : LayoutCell → List Geom
  | .pane g _ => [g]
  | .split _ _ cells => leavesList cells
def leavesList : List LayoutCell → List Geom
  | [] => []
  | lc :: cells => leaves lc ++ leavesList cells
end

theorem leavesList_eq (cells : List LayoutCell) : leavesList cells = cells.flatMap leaves := by
  induction cells with
  | nil => rfl
  | cons lc cells ih => rw [leavesList, ih, List.flatMap_cons]

/-- A rectangle by its corner and its sizes along and across a direction. -/
def strip (t : LayoutType) (xoff yoff along across : Nat) : Rect :=
  match t with
  | .leftRight => ⟨xoff, yoff, along, across⟩
  | .topBottom => ⟨xoff, yoff, across, along⟩

theorem rect_at (t : LayoutType) (g : Geom) (xoff yoff : Nat) :
    rect (g.at xoff yoff) = strip t xoff yoff (g.along t + 1) (g.across t + 1) := by
  cases t <;> rfl

/-- Children of one size across, placed one after the other, cover a strip. -/
theorem placed_coverOnce (t : LayoutType) (across : Nat) {cells : List LayoutCell}
    (h : ∀ c ∈ cells, c.geom.across t = across) (xoff yoff : Nat) :
    CoverOnce ((layoutFixOffsetsList t xoff yoff cells).map fun c => (rect c.geom).region)
      (strip t xoff yoff (cells.map fun c => c.geom.along t + 1).sum (across + 1)).region := by
  induction cells generalizing xoff yoff with
  | nil =>
      intro p
      have hempty : (strip t xoff yoff 0 (across + 1)).region p = false := by
        rw [Bool.eq_false_iff, ne_eq, Rect.region_iff]
        cases t <;> simp only [strip] <;> omega
      rw [List.map_nil, List.sum_nil, hempty]
      rfl
  | cons c cells ih =>
      have hrest := ih (fun x hx => h x (List.mem_cons_of_mem _ hx))
        (placeAlong t xoff yoff c).1 (placeAlong t xoff yoff c).2
      have hfirst := CoverOnce.singleton (rect (c.geom.at xoff yoff)).region
      rw [rect_at t, h c List.mem_cons_self] at hfirst
      rw [layoutFixOffsetsList_cons, List.map_cons, layoutFixOffsets1_geom, rect_at t,
        h c List.mem_cons_self, List.map_cons, List.sum_cons]
      refine hfirst.append hrest fun p => ?_
      cases t
      · exact Rect.cut_w ..
      · exact Rect.cut_h ..

/-- **The panes of a checked tree tile it**: once the cells are placed, every
point of the whole is in exactly one pane's cell, counting the border to the
right of and below a cell with it. -/
theorem check_coverOnce {lc : LayoutCell} (h : layoutCheck lc = true) (xoff yoff : Nat) :
    CoverOnce ((leaves (lc.layoutFixOffsets1 xoff yoff)).map fun g => (rect g).region)
      (rect (lc.geom.at xoff yoff)).region := by
  induction lc using LayoutCell.induct generalizing xoff yoff with
  | pane g wp => exact CoverOnce.singleton _
  | split t g cells ih =>
      rw [layoutCheck, Bool.and_eq_true, decide_eq_true_iff, layoutCheckList_iff] at h
      obtain ⟨hcells, hsum⟩ := h
      have hplaced := placed_coverOnce t (g.across t) (fun c hc => (hcells c hc).1) xoff yoff
      rw [hsum, ← rect_at t] at hplaced
      rw [layoutFixOffsets1, leaves, leavesList_eq, List.map_flatMap]
      refine CoverOnce.flatMap ?_ hplaced
      intro c hc
      obtain ⟨x, hx, a, b, rfl⟩ := layoutFixOffsetsList_mem hc
      rw [layoutFixOffsets1_geom]
      exact ih x hx (hcells x hx).2 a b

/-- The places tile a window: they cover it exactly once with their borders, lie
to one side of each other, and end within it. -/
structure Tiles (places : List Geom) (sx sy : Nat) : Prop where
  cover : CoverOnce (places.map fun g => (rect g).region) (rect ⟨sx, sy, 0, 0⟩).region
  apart : places.Pairwise fun a b => (rect a).Apart (rect b)
  inside : ∀ g ∈ places, g.xoff + g.sx ≤ sx ∧ g.yoff + g.sy ≤ sy

theorem tiles_of_cover {places : List Geom} {sx sy : Nat}
    (h : CoverOnce (places.map fun g => (rect g).region) (rect ⟨sx, sy, 0, 0⟩).region) :
    Tiles places sx sy := by
  refine ⟨h, ?_, ?_⟩
  · refine (List.pairwise_map.mp h.pairwise).imp fun {a b} hab => ?_
    exact Rect.apart_of_disjoint ⟨Nat.succ_pos _, Nat.succ_pos _⟩ ⟨Nat.succ_pos _, Nat.succ_pos _⟩ hab
  · intro g hg
    -- the far corner of a place is a point of the window
    have hcorner := h.subset (List.mem_map_of_mem hg) (p := (g.xoff + g.sx, g.yoff + g.sy))
      (Rect.region_iff.mpr (by simp only [rect]; omega))
    have := Rect.region_iff.mp hcorner
    simp only [rect] at this
    omega

/-- A checked tree that starts at the origin is tiled by its panes. -/
theorem check_tiles {lc : LayoutCell} (h : layoutCheck lc = true) :
    Tiles (leaves (layoutFixOffsets lc)) (size lc).1 (size lc).2 :=
  tiles_of_cover (check_coverOnce h 0 0)

/-! ## Closing from the bottom right -/

theorem layoutFindBottomrightList_eq (pre : List LayoutCell) (c : LayoutCell) (k : Nat) :
    layoutFindBottomrightList (pre ++ [c]) k = (k + pre.length) :: c.layoutFindBottomright := by
  induction pre generalizing k with
  | nil => rfl
  | cons x pre ih =>
      rcases pre with _ | ⟨y, pre⟩
      · rfl
      · have := ih (k + 1)
        rw [List.cons_append, List.cons_append, layoutFindBottomrightList, ← List.cons_append, this,
          List.length_cons, List.length_cons, List.length_cons]
        congr 1
        omega

theorem Consistent.panes_ne_nil {lc : LayoutCell} (h : Consistent lc) : lc.panes ≠ [] := by
  induction lc using LayoutCell.induct with
  | pane g wp => exact List.cons_ne_nil _ _
  | split t g cells ih =>
      cases h with
      | split hlen hcells _ _ =>
          obtain ⟨c, cells, rfl⟩ := List.exists_cons_of_ne_nil
            (List.ne_nil_of_length_pos (show 0 < cells.length by omega))
          rw [panes, panesList]
          exact List.append_ne_nil_of_left_ne_nil
            (ih c List.mem_cons_self (hcells c List.mem_cons_self)) _

theorem Consistent.bottomright_ne_nil {t : LayoutType} {g : Geom} {cells : List LayoutCell}
    (h : Consistent (.split t g cells)) : layoutFindBottomright (.split t g cells) ≠ [] := by
  cases h with
  | split hlen _ _ _ =>
      have hne : cells ≠ [] := List.ne_nil_of_length_pos (by omega)
      rw [layoutFindBottomright, ← List.dropLast_append_getLast hne, layoutFindBottomrightList_eq]
      exact List.cons_ne_nil _ _

/-- The bottom-right cell is the last one. -/
theorem Consistent.bottomright_panes {lc : LayoutCell} (h : Consistent lc)
    (hne : lc.layoutFindBottomright ≠ []) :
    (LayoutCell.destroyBelow lc lc.layoutFindBottomright).panes = lc.panes.dropLast := by
  induction lc using LayoutCell.induct with
  | pane g wp => exact absurd rfl hne
  | split t g cells ih =>
      cases h with
      | split hlen hcells _ _ =>
          obtain ⟨pre, c, rfl⟩ : ∃ pre c, cells = pre ++ [c] :=
            ⟨_, _, (List.dropLast_append_getLast
              (List.ne_nil_of_length_pos (show 0 < cells.length by omega))).symm⟩
          have hmem : c ∈ pre ++ [c] := by simp
          have hpanes : (LayoutCell.split t g (pre ++ [c])).panes =
              pre.flatMap panes ++ c.panes := by
            rw [panes, panesList_eq, List.flatMap_append, List.flatMap_singleton]
          rw [layoutFindBottomright, layoutFindBottomrightList_eq, Nat.zero_add, hpanes]
          by_cases hc : c.layoutFindBottomright = []
          · cases c with
            | pane gc wp =>
                have hlt : pre.length < (pre ++ [LayoutCell.pane gc wp]).length := by simp
                rw [hc, LayoutCell.destroyBelow, closeChild_panes t g _ hlt,
                  List.eraseIdx_append_of_length_le le_rfl, Nat.sub_self, List.eraseIdx_zero,
                  List.tail_cons, List.append_nil, panes, List.dropLast_concat]
            | split tc gc cellsc => exact absurd hc (hcells _ hmem).bottomright_ne_nil
          · have hdrop := ih c hmem (hcells c hmem) hc
            obtain ⟨j, p, hjp⟩ := List.exists_cons_of_ne_nil hc
            rw [hjp] at hdrop ⊢
            rw [LayoutCell.destroyBelow, destroyAt_append, panes, panesList_eq,
              List.flatMap_append, List.flatMap_singleton, hdrop,
              List.dropLast_append_of_ne_nil (hcells c hmem).panes_ne_nil]

/-- **Cutting a tree down to fewer panes**: possible for any number from one up
to its own. It keeps the first panes, and the tree stays consistent and of its
size. -/
theorem Consistent.closeBottomright {lc : LayoutCell} (h : Consistent lc) {npanes : Nat}
    (hpos : 0 < npanes) (hle : npanes ≤ lc.layoutCountCells) (fuel : Nat)
    (hfuel : lc.layoutCountCells ≤ npanes + fuel) :
    ∃ lc', closeBottomright npanes fuel lc = .ok lc' ∧ Consistent lc' ∧ size lc' = size lc ∧
      lc'.panes = lc.panes.take npanes := by
  induction fuel generalizing lc with
  | zero =>
      have heq : npanes = lc.layoutCountCells := by omega
      refine ⟨lc, ?_, h, rfl, ?_⟩
      · unfold Newmux.Tmux.closeBottomright
        simp [heq]
      · rw [heq, ← panes_length, List.take_length]
  | succ fuel ih =>
      unfold Newmux.Tmux.closeBottomright
      simp only [not_lt.mpr hle, if_false]
      by_cases heq : npanes = lc.layoutCountCells
      · refine ⟨lc, if_pos heq, h, rfl, ?_⟩
        rw [heq, ← panes_length, List.take_length]
      · rw [if_neg heq]
        cases lc with
        | pane g wp =>
            rw [layoutCountCells] at heq hle
            omega
        | split t g cells =>
            -- the bottom-right cell is the last one of the panes
            have hne := h.bottomright_ne_nil
            have hdrop := h.bottomright_panes hne
            obtain ⟨i, p, hip⟩ := List.exists_cons_of_ne_nil hne
            obtain ⟨hcons, hsize⟩ := h.destroyBelow (i :: p)
            rw [hip] at hdrop ⊢
            have hcount : (LayoutCell.destroyBelow (.split t g cells) (i :: p)).layoutCountCells + 1 =
                (LayoutCell.split t g cells).layoutCountCells := by
              rw [← panes_length, ← panes_length, hdrop, List.length_dropLast]
              have := List.length_pos_iff.mpr h.panes_ne_nil
              omega
            obtain ⟨lc', hok, hcons', hsize', htake⟩ := ih hcons (by omega) (by omega)
            refine ⟨lc', hok, hcons', hsize'.trans hsize, ?_⟩
            rw [htake, hdrop, List.dropLast_eq_take, List.take_take, panes_length]
            congr 1
            omega

/-- Nothing is left to close once one pane is left, so no tree is cut down to none. -/
theorem Consistent.closeBottomright_zero {lc : LayoutCell} (h : Consistent lc) (fuel : Nat)
    (lc' : LayoutCell) : Newmux.Tmux.closeBottomright 0 fuel lc ≠ .ok lc' := by
  have hcount : ∀ {lc : LayoutCell}, Consistent lc → lc.layoutCountCells ≠ 0 := by
    intro lc h
    rw [← panes_length]
    exact (List.length_pos_iff.mpr h.panes_ne_nil).ne'
  induction fuel generalizing lc with
  | zero =>
      unfold Newmux.Tmux.closeBottomright
      simp [(hcount h).symm]
  | succ fuel ih =>
      unfold Newmux.Tmux.closeBottomright
      simp only [gt_iff_lt, Nat.not_lt_zero, if_false, if_neg (hcount h).symm]
      cases lc with
      | pane g wp => exact fun he => by cases he
      | split t g cells =>
          obtain ⟨i, p, hip⟩ := List.exists_cons_of_ne_nil h.bottomright_ne_nil
          rw [hip]
          exact ih (h.destroyBelow (i :: p)).1

end Newmux.Logic
