import Newmux.Tmux.Window

/-!
# The panes in a layout tree

What each operation on layout cells does to the list of panes in the leaves:
resizing and placing keep it, closing a pane's cell takes that pane out, and
assigning fills it with a window's panes in order.
-/

namespace Newmux.Logic

open Newmux.Tmux LayoutCell

/-! ## Lists of cells -/

theorem panesList_eq (cells : List LayoutCell) : panesList cells = cells.flatMap panes := by
  induction cells with
  | nil => rfl
  | cons lc cells ih => rw [panesList, ih, List.flatMap_cons]

theorem layoutCountCellsList_eq (cells : List LayoutCell) :
    layoutCountCellsList cells = (cells.map layoutCountCells).sum := by
  induction cells with
  | nil => rfl
  | cons lc cells ih => rw [layoutCountCellsList, ih, List.map_cons, List.sum_cons]

/-- A cell for each leaf. -/
theorem panes_length (lc : LayoutCell) : lc.panes.length = lc.layoutCountCells := by
  induction lc using LayoutCell.induct with
  | pane g wp => rfl
  | split t g cells ih =>
      rw [panes, layoutCountCells, panesList_eq, layoutCountCellsList_eq, List.length_flatMap]
      exact congrArg List.sum (List.map_congr_left ih)

/-! ## Sizes and offsets -/

theorem adjustPass_map {β : Type} {adjust : LayoutCell → LayoutCell} {f : LayoutCell → β}
    (change : Nat) (cells : List LayoutCell) (h : ∀ lc ∈ cells, f (adjust lc) = f lc) :
    (adjustPass adjust change cells).1.map f = cells.map f := by
  induction cells generalizing change with
  | nil => cases change <;> rfl
  | cons lc cells ih =>
      cases change with
      | zero => rfl
      | succ change =>
          simp only [adjustPass, List.map_cons]
          rw [h lc List.mem_cons_self, ih change fun x hx => h x (List.mem_cons_of_mem _ hx)]

theorem layoutResizeAdjust_panes (fuel : Nat) (type : LayoutType) (change : Nat)
    (lc : LayoutCell) : (layoutResizeAdjust fuel type change lc).panes = lc.panes := by
  induction fuel generalizing change lc with
  | zero => cases lc <;> rfl
  | succ fuel ih =>
      cases lc with
      | pane g wp => rfl
      | split t g cells =>
          simp only [layoutResizeAdjust]
          split
          · simp only [panes, panesList_eq, List.flatMap_map]
            exact congrArg (List.flatMap · cells) (funext fun lc => ih change lc)
          · have hloop : ∀ n m (cells : List LayoutCell),
                (adjustLoop (layoutResizeAdjust fuel type 1) n m cells).flatMap panes =
                  cells.flatMap panes := by
              intro n
              induction n with
              | zero => intro m cells; rfl
              | succ n ihn =>
                  intro m cells
                  cases m with
                  | zero => rfl
                  | succ m =>
                      simp only [adjustLoop]
                      rw [ihn, List.flatMap_def, List.flatMap_def,
                        adjustPass_map (m + 1) cells fun lc _ => ih 1 lc]
            simp only [panes, panesList_eq]
            exact hloop change change cells

theorem layoutFixOffsets1_panes (lc : LayoutCell) (xoff yoff : Nat) :
    (lc.layoutFixOffsets1 xoff yoff).panes = lc.panes := by
  induction lc using LayoutCell.induct generalizing xoff yoff with
  | pane g wp => rfl
  | split t g cells ih =>
      have hlist : ∀ (cells : List LayoutCell) xoff yoff,
          (∀ c ∈ cells, ∀ xoff yoff, (c.layoutFixOffsets1 xoff yoff).panes = c.panes) →
          panesList (layoutFixOffsetsList t xoff yoff cells) = panesList cells := by
        intro cells
        induction cells with
        | nil => intro _ _ _; rfl
        | cons lc cells ihl =>
            intro xoff yoff h
            have hrest := fun x y => ihl x y fun c hc => h c (List.mem_cons_of_mem _ hc)
            cases t <;>
              simp only [layoutFixOffsetsList, panesList, h lc List.mem_cons_self, hrest]
      exact hlist cells xoff yoff ih

theorem layoutFixOffsets_panes (root : LayoutCell) : root.layoutFixOffsets.panes = root.panes :=
  layoutFixOffsets1_panes root 0 0

/-! ## Closing a cell -/

theorem map_panes_modify (cells : List LayoutCell) (i : Nat) {f : LayoutCell → LayoutCell}
    (h : ∀ lc, (f lc).panes = lc.panes) : (cells.modify i f).map panes = cells.map panes := by
  refine List.ext_getElem? fun j => ?_
  rw [List.getElem?_map, List.getElem?_map, List.getElem?_modify]
  cases cells[j]? with
  | none => rfl
  | some lc => by_cases hij : i = j <;> simp [hij, h]

/-- The other children keep their panes, also when one of them takes the place
of the node. -/
theorem closeChild_panes (t : LayoutType) (g : Geom) (cells : List LayoutCell) {i : Nat}
    (hi : i < cells.length) :
    (closeChild t g cells i).panes = (cells.eraseIdx i).flatMap panes := by
  unfold closeChild
  rw [List.getElem?_eq_getElem hi]
  simp only
  generalize hgrown : cells.modify (if i = 0 then 1 else i - 1) (fun lcother =>
    layoutResizeAdjust lcother.depth t (cells[i].geom.along t + 1) lcother) = grown
  have hmap : grown.map panes = cells.map panes := by
    rw [← hgrown]
    exact map_panes_modify cells _ fun lc => layoutResizeAdjust_panes _ _ _ lc
  have herase : (grown.eraseIdx i).flatMap panes = (cells.eraseIdx i).flatMap panes := by
    rw [List.flatMap_def, List.flatMap_def, ← List.eraseIdx_map, ← List.eraseIdx_map, hmap]
  rw [← herase]
  split
  · next last hl => rw [hl, List.flatMap_cons, List.flatMap_nil, List.append_nil]
  · rw [panes, panesList_eq]

theorem pathToList_some {wp : Nat} {cells : List LayoutCell} {k : Nat} {path : List Nat}
    (h : pathToList wp cells k = some path) :
    ∃ pre c post p, cells = pre ++ c :: post ∧ (∀ x ∈ pre, x.pathTo wp = none) ∧
      c.pathTo wp = some p ∧ path = (k + pre.length) :: p := by
  induction cells generalizing k with
  | nil => cases h
  | cons lc cells ih =>
      unfold pathToList at h
      split at h
      · next p hp =>
          cases h
          exact ⟨[], lc, cells, p, rfl, fun _ hx => absurd hx List.not_mem_nil, hp, rfl⟩
      · next hp =>
          obtain ⟨pre, c, post, p, rfl, hpre, hc, rfl⟩ := ih h
          refine ⟨lc :: pre, c, post, p, rfl, ?_, hc, ?_⟩
          · intro x hx
            rcases List.mem_cons.mp hx with rfl | hx
            · exact hp
            · exact hpre x hx
          · rw [List.length_cons, Nat.add_right_comm, Nat.add_assoc]

theorem pathToList_none {wp : Nat} {cells : List LayoutCell} {k : Nat} :
    pathToList wp cells k = none ↔ ∀ c ∈ cells, c.pathTo wp = none := by
  induction cells generalizing k with
  | nil => simp [pathToList]
  | cons lc cells ih =>
      unfold pathToList
      cases h : lc.pathTo wp with
      | none => simp [h, ih]
      | some p => simp [h]

/-- A pane without a cell is in no leaf. -/
theorem pathTo_none {wp : Nat} {lc : LayoutCell} :
    lc.pathTo wp = none ↔ some wp ∉ lc.panes := by
  induction lc using LayoutCell.induct with
  | pane g wp' =>
      rw [pathTo, panes, List.mem_singleton]
      by_cases h : wp' = some wp
      · simp [h]
      · simp [h, Ne.symm h]
  | split t g cells ih =>
      rw [pathTo, pathToList_none, panes, panesList_eq, List.mem_flatMap]
      constructor
      · rintro h ⟨c, hc, hin⟩
        exact (ih c hc).mp (h c hc) hin
      · exact fun h c hc => (ih c hc).mpr fun hin => h ⟨c, hc, hin⟩

theorem pathTo_nil {wp : Nat} {lc : LayoutCell} (h : lc.pathTo wp = some []) :
    lc.panes = [some wp] := by
  cases lc with
  | pane g wp' =>
      rw [pathTo] at h
      split at h
      · next he => rw [he, panes]
      · cases h
  | split t g cells =>
      rw [pathTo] at h
      obtain ⟨pre, c, post, p, -, -, -, hp⟩ := pathToList_some h
      cases hp

theorem destroyAt_append (pre : List LayoutCell) (c : LayoutCell) (post : List LayoutCell)
    (p : List Nat) : destroyBelow.destroyAt (pre ++ c :: post) pre.length p =
      pre ++ destroyBelow c p :: post := by
  induction pre with
  | nil => rfl
  | cons x pre ih =>
      rw [List.cons_append, List.length_cons, destroyBelow.destroyAt, ih, List.cons_append]

/-- **Closing a pane's cell** takes that pane, and no other, out of the tree. -/
theorem destroyBelow_panes {wp : Nat} {lc : LayoutCell} {path : List Nat}
    (h : lc.pathTo wp = some path) (hne : path ≠ []) :
    (destroyBelow lc path).panes = lc.panes.erase (some wp) := by
  induction lc using LayoutCell.induct generalizing path with
  | pane g wp' =>
      rw [pathTo] at h
      split at h
      · cases h
        exact absurd rfl hne
      · cases h
  | split t g cells ih =>
      rw [pathTo] at h
      obtain ⟨pre, c, post, p, rfl, hpre, hc, rfl⟩ := pathToList_some h
      rw [Nat.zero_add]
      have hnot : some wp ∉ pre.flatMap panes := by
        rw [List.mem_flatMap]
        rintro ⟨x, hx, hin⟩
        exact pathTo_none.mp (hpre x hx) hin
      have hpanes : (LayoutCell.split t g (pre ++ c :: post)).panes =
          pre.flatMap panes ++ (c.panes ++ post.flatMap panes) := by
        rw [panes, panesList_eq, List.flatMap_append, List.flatMap_cons]
      rw [hpanes, List.erase_append_right _ hnot]
      -- the cell is this child, or is below it
      cases p with
      | nil =>
          have hlt : pre.length < (pre ++ c :: post).length := by simp
          rw [destroyBelow, closeChild_panes t g _ hlt, pathTo_nil hc, List.singleton_append,
            List.erase_cons_head, List.eraseIdx_append_of_length_le le_rfl, Nat.sub_self,
            List.eraseIdx_cons_zero, List.flatMap_append]
      | cons j q =>
          have hin : some wp ∈ c.panes := by
            by_contra hout
            rw [pathTo_none.mpr hout] at hc
            cases hc
          have hmem : c ∈ pre ++ c :: post := by simp
          rw [destroyBelow, destroyAt_append, panes, panesList_eq, List.flatMap_append,
            List.flatMap_cons, ih c hmem hc (by simp), List.erase_append_left _ hin]

/-- The panes in a window's tree. -/
def rootPanes (root : Option LayoutCell) : List (Option Nat) := (root.map panes).getD []

/-- A layout with the cell of a pane closed. -/
def closedRoot (wp : Nat) (root : LayoutCell) : Option LayoutCell :=
  match root.pathTo wp with
  | none => some root
  | some path => (layoutDestroyCell root path).map layoutFixOffsets

theorem closedRoot_panes (wp : Nat) (root : LayoutCell) :
    rootPanes (closedRoot wp root) = root.panes.erase (some wp) := by
  unfold closedRoot
  cases h : root.pathTo wp with
  | none => exact (List.erase_of_not_mem (pathTo_none.mp h)).symm
  | some path =>
      cases path with
      | nil =>
          rw [pathTo_nil h]
          simp [layoutDestroyCell, rootPanes]
      | cons i p =>
          simp only [layoutDestroyCell, Option.map_some, rootPanes, Option.getD_some]
          rw [layoutFixOffsets_panes, destroyBelow_panes h (by simp)]

/-! ## Assigning panes -/

theorem layoutAssign_eq (lc : LayoutCell) : ∀ wps : List Nat, lc.layoutCountCells ≤ wps.length →
    (layoutAssign wps lc).1.panes = (wps.take lc.layoutCountCells).map some ∧
      (layoutAssign wps lc).2 = wps.drop lc.layoutCountCells := by
  induction lc using LayoutCell.induct with
  | pane g wp =>
      intro wps hle
      cases wps with
      | nil => simp [layoutCountCells] at hle
      | cons x wps => exact ⟨rfl, rfl⟩
  | split t g cells ih =>
      -- the children in turn, each from where the one before it left off
      have hlist : ∀ (cells : List LayoutCell) (wps : List Nat),
          (∀ c ∈ cells, ∀ wps : List Nat, c.layoutCountCells ≤ wps.length →
            (layoutAssign wps c).1.panes = (wps.take c.layoutCountCells).map some ∧
              (layoutAssign wps c).2 = wps.drop c.layoutCountCells) →
          layoutCountCellsList cells ≤ wps.length →
          panesList (layoutAssignList wps cells).1 =
              (wps.take (layoutCountCellsList cells)).map some ∧
            (layoutAssignList wps cells).2 = wps.drop (layoutCountCellsList cells) := by
        intro cells
        induction cells with
        | nil => intro wps _ _; exact ⟨rfl, rfl⟩
        | cons lc cells ihl =>
            intro wps h hle
            rw [layoutCountCellsList] at hle
            obtain ⟨hp, hr⟩ := h lc List.mem_cons_self wps (by omega)
            obtain ⟨hps, hrs⟩ := ihl (wps.drop lc.layoutCountCells)
              (fun c hc => h c (List.mem_cons_of_mem _ hc)) (by rw [List.length_drop]; omega)
            simp only [layoutAssignList, panesList, layoutCountCellsList, hr]
            rw [hp, hps, hrs, ← List.map_append, ← List.take_add, List.drop_drop]
            exact ⟨rfl, rfl⟩
      intro wps hle
      exact hlist cells wps ih hle

/-- As many cells as panes: the leaves are the panes, in order. -/
theorem layoutAssign_panes {lc : LayoutCell} {wps : List Nat}
    (h : lc.layoutCountCells = wps.length) : (layoutAssign wps lc).1.panes = wps.map some := by
  rw [(layoutAssign_eq lc wps h.le).1, h, List.take_length]

/-! ## Reading a layout -/

theorem closeBottomright_count {npanes fuel : Nat} {lc lc' : LayoutCell}
    (h : closeBottomright npanes fuel lc = .ok lc') : lc'.layoutCountCells = npanes := by
  induction fuel generalizing lc with
  | zero =>
      unfold closeBottomright at h
      simp only at h
      split at h
      · cases h
      · split at h
        · next heq =>
            cases h
            exact heq.symm
        · cases h
  | succ fuel ih =>
      unfold closeBottomright at h
      simp only at h
      split at h
      · cases h
      · split at h
        · next heq =>
            cases h
            exact heq.symm
        · cases hd : layoutDestroyCell lc lc.layoutFindBottomright with
          | none => simp [hd] at h
          | some lc₁ =>
              rw [hd] at h
              exact ih h

theorem correctTop_count (lc : LayoutCell) :
    (correctTop lc).1.layoutCountCells = lc.layoutCountCells := by
  cases lc <;> rfl

/-- The tree that is read has a leaf for each pane. -/
theorem layoutRead_count {npanes : Nat} {layout : List Char} {lc : LayoutCell}
    {size : Option (Nat × Nat)} (h : layoutRead npanes layout = .ok (lc, size)) :
    lc.layoutCountCells = npanes := by
  unfold layoutRead at h
  split at h
  · cases h
  · split at h
    · cases h
    · split at h
      · cases h
      · split at h
        · next lc₀ _ =>
            cases hclose : closeBottomright npanes lc₀.layoutCountCells lc₀ with
            | error cause => rw [hclose] at h; cases h
            | ok lc₁ =>
                rw [hclose] at h
                change (if layoutCheck (correctTop lc₁).1 then
                  Except.ok ((correctTop lc₁).1, (correctTop lc₁).2)
                  else Except.error _) = Except.ok (lc, size) at h
                split at h
                · cases h
                  rw [correctTop_count, closeBottomright_count hclose]
                · cases h
        · cases h

end Newmux.Logic
