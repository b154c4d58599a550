import Newmux.Logic.LayoutText

/-!
# Layout text in 32 bits

Where no size and no sum is out of range, a layout is read with `u_int` sizes as it is
with unbounded ones. The dump of a tree whose own size is in range is such a text.
-/

namespace Newmux.Logic

open Newmux.Base Newmux.Tmux LayoutCell

/-- The sizes of the cells and the sums of the nodes are in range. -/
inductive FitsUint : LayoutCell → Prop
  | pane {g wp} : g.sx < 2 ^ 31 → g.sy < 2 ^ 31 → FitsUint (.pane g wp)
  | split {t g cells} : g.sx < 2 ^ 31 → g.sy < 2 ^ 31 → cells ≠ [] → (∀ c ∈ cells, FitsUint c) →
      (cells.map fun c => c.geom.along t + 1).sum < 2 ^ 32 → FitsUint (.split t g cells)

/-- No size or sum of `layout_parse` is out of range, in the tree that is read and in
the one left when there are as many cells as panes. -/
def NoWrap (npanes : Nat) (layout : List Char) : Prop :=
  ∀ csum text lc, parseHeader layout = some (csum, text) →
    layoutConstruct (2 * text.length + 1) text = some (lc, []) →
      FitsUint lc ∧
        ∀ lc', closeBottomright npanes lc.layoutCountCells lc = .ok lc' → FitsUint lc'

variable {lc : LayoutCell} {t : LayoutType} {g : Geom} {cells : List LayoutCell} {n npanes : Nat}
  {layout : List Char}

/-! ## Sizes -/

theorem uint_of_lt (h : n < 2 ^ 32) : uint n = n := Nat.mod_eq_of_lt h

theorem scanUint_of_lt (h : n < 2 ^ 31) : scanUint n = n := by
  unfold scanUint
  rw [min_eq_left (by omega), uint_of_lt (by omega)]

theorem FitsUint.geom_lt (h : FitsUint lc) : lc.geom.sx < 2 ^ 31 ∧ lc.geom.sy < 2 ^ 31 := by
  cases h with
  | pane hx hy => exact ⟨hx, hy⟩
  | split hx hy _ _ _ => exact ⟨hx, hy⟩

theorem FitsUint.across_lt (h : FitsUint lc) (t : LayoutType) : lc.geom.across t < 2 ^ 31 := by
  cases t
  · exact h.geom_lt.2
  · exact h.geom_lt.1

theorem mapSizesList_eq (f : Nat → Nat) (cells : List LayoutCell) :
    mapSizesList f cells = cells.map (mapSizes f) := by
  induction cells with
  | nil => rfl
  | cons lc cells ih => rw [mapSizesList, ih, List.map_cons]

/-- Sizes in range are left as they are. -/
theorem FitsUint.mapSizes_eq (h : FitsUint lc) {f : Nat → Nat} (hf : ∀ n < 2 ^ 31, f n = n) :
    mapSizes f lc = lc := by
  induction h with
  | pane hx hy => rw [mapSizes, hf _ hx, hf _ hy]
  | split hx hy _ _ _ ih =>
      have hcells : ∀ cells : List LayoutCell, (∀ c ∈ cells, mapSizes f c = c) →
          mapSizesList f cells = cells := by
        intro cells hall
        rw [mapSizesList_eq]
        exact List.map_congr_left hall |>.trans (List.map_id' cells)
      rw [mapSizes, hf _ hx, hf _ hy, hcells _ ih]

/-! ## Checking -/

theorem layoutCheckUintList_iff :
    layoutCheckUintList t g cells = true ↔
      ∀ c ∈ cells, c.geom.across t = g.across t ∧ layoutCheckUint c = true := by
  induction cells with
  | nil => simp [layoutCheckUintList]
  | cons lc cells ih => simp [layoutCheckUintList, ih]

/-- A node is checked in 32 bits as without a bound, when its children are and its sums
are in range. -/
theorem layoutCheckUint_split (hcells : ∀ c ∈ cells, layoutCheckUint c = layoutCheck c)
    (hsum : (cells.map fun c => c.geom.along t + 1).sum < 2 ^ 32) (hg : g.along t + 1 < 2 ^ 32) :
    layoutCheckUint (.split t g cells) = layoutCheck (.split t g cells) := by
  have hlist : layoutCheckUintList t g cells = layoutCheckList t g cells := by
    rw [Bool.eq_iff_iff, layoutCheckUintList_iff, layoutCheckList_iff]
    exact forall₂_congr fun c hc => by rw [hcells c hc]
  rw [layoutCheckUint, layoutCheck, hlist, uint_of_lt hsum, uint_of_lt hg]

theorem FitsUint.check_eq (h : FitsUint lc) : layoutCheckUint lc = layoutCheck lc := by
  induction h with
  | pane _ _ => rfl
  | @split t g cells hx hy _ _ hsum ih =>
      refine layoutCheckUint_split ih hsum ?_
      cases t
      · exact (show g.sx + 1 < 2 ^ 32 by omega)
      · exact (show g.sy + 1 < 2 ^ 32 by omega)

/-! ## The top cell -/

theorem topSize_bounds (hne : cells ≠ []) (hcells : ∀ c ∈ cells, FitsUint c)
    (hsum : (cells.map fun c => c.geom.along t + 1).sum < 2 ^ 32) :
    (0 < (topSize t cells).1 ∧ (topSize t cells).1 < 2 ^ 32) ∧
      0 < (topSize t cells).2 ∧ (topSize t cells).2 < 2 ^ 32 := by
  have hpos : 0 < (cells.map fun c => c.geom.along t + 1).sum := by
    obtain ⟨c, rest, rfl⟩ := List.exists_cons_of_ne_nil hne
    rw [List.map_cons, List.sum_cons]
    omega
  have hlast := (hcells _ (List.getLast_mem hne)).across_lt t
  have hacross : (cells.getLast hne).geom.across t + 1 < 2 ^ 32 := by omega
  have hsome : cells.getLast? = some (cells.getLast hne) := List.getLast?_eq_some_getLast hne
  unfold topSize
  rw [hsome]
  cases t
  · exact ⟨⟨hpos, hsum⟩, Nat.succ_pos _, hacross⟩
  · exact ⟨⟨Nat.succ_pos _, hacross⟩, hpos, hsum⟩

/-- The top cell is corrected alike, and what is installed is checked alike. -/
theorem FitsUint.correctTop_eq (h : FitsUint lc) :
    correctTopUint lc = correctTop lc ∧
      layoutCheckUint (correctTop lc).1 = layoutCheck (correctTop lc).1 := by
  cases h with
  | pane hx hy => exact ⟨rfl, rfl⟩
  | @split t g cells hx hy hne hcells hsum =>
      obtain ⟨⟨hx0, hx32⟩, hy0, hy32⟩ := topSize_bounds hne hcells hsum
      have hpred : ∀ n, 0 < n → n < 2 ^ 32 → uint (n + (2 ^ 32 - 1)) = n - 1 := by
        intro n hn hlt
        unfold uint
        omega
      refine ⟨?_, ?_⟩
      · simp only [correctTopUint, correctTop]
        rw [uint_of_lt hx32, uint_of_lt hy32, hpred _ hx0 hx32, hpred _ hy0 hy32]
      · simp only [correctTop]
        refine layoutCheckUint_split (fun c hc => (hcells c hc).check_eq) hsum ?_
        split
        · cases t
          · exact (show (topSize .leftRight cells).1 - 1 + 1 < 2 ^ 32 by omega)
          · exact (show (topSize .topBottom cells).2 - 1 + 1 < 2 ^ 32 by omega)
        · cases t
          · exact (show g.sx + 1 < 2 ^ 32 by omega)
          · exact (show g.sy + 1 < 2 ^ 32 by omega)

/-! ## Reading -/

/-- **Where nothing wraps**, a layout is read as with unbounded sizes. -/
theorem layoutReadUint_eq (h : NoWrap npanes layout) :
    layoutReadUint npanes layout = layoutRead npanes layout := by
  unfold layoutReadUint layoutRead
  cases hheader : parseHeader layout with
  | none => rfl
  | some p =>
      obtain ⟨csum, text⟩ := p
      dsimp only
      split
      · rfl
      · split
        · rfl
        · cases hread : layoutConstruct (2 * text.length + 1) text with
          | none => rfl
          | some p =>
              obtain ⟨lc, rest⟩ := p
              cases rest with
              | cons c rest => rfl
              | nil =>
                  obtain ⟨hfits, hclosed⟩ := h csum text lc hheader hread
                  dsimp only
                  rw [hfits.mapSizes_eq fun n hn => scanUint_of_lt hn]
                  cases hclose : closeBottomright npanes lc.layoutCountCells lc with
                  | error cause => simp only [bind, Except.bind]
                  | ok lc' =>
                      have hfits' := hclosed lc' hclose
                      obtain ⟨htop, hcheck⟩ := hfits'.correctTop_eq
                      have hcut : mapSizes uint lc' = lc' :=
                        hfits'.mapSizes_eq fun n hn => uint_of_lt (by omega)
                      simp only [bind, Except.bind, hcut, htop]
                      cases hcorrect : correctTop lc' with
                      | mk lc₂ asked =>
                          rw [hcorrect] at hcheck
                          have hcheck : layoutCheckUint lc₂ = layoutCheck lc₂ := hcheck
                          simp only [hcheck]

/-! ## Dumps -/

/-- The cells of a consistent tree are in range when the whole is. -/
theorem Consistent.fitsUint (h : Consistent lc) (hx : lc.geom.sx < 2 ^ 31)
    (hy : lc.geom.sy < 2 ^ 31) : FitsUint lc := by
  induction h with
  | pane g wp => exact .pane hx hy
  | @split t g cells hlen _ hacross hsum ih =>
      have halong : g.along t < 2 ^ 31 := by
        cases t
        · exact hx
        · exact hy
      have hothers : g.across t < 2 ^ 31 := by
        cases t
        · exact hy
        · exact hx
      refine .split hx hy (List.ne_nil_of_length_pos (by omega)) (fun c hc => ?_) (by omega)
      have hle : c.geom.along t + 1 ≤ (cells.map fun c => c.geom.along t + 1).sum :=
        List.le_sum_of_mem (List.mem_map_of_mem hc)
      have hsame := hacross c hc
      cases t
      · exact ih c hc (show c.geom.along .leftRight < 2 ^ 31 by omega)
          (show c.geom.across .leftRight < 2 ^ 31 by omega)
      · exact ih c hc (show c.geom.across .topBottom < 2 ^ 31 by omega)
          (show c.geom.along .topBottom < 2 ^ 31 by omega)

/-- **A dump of a tree whose size is in range** is read without a wrap, for any number
of panes. -/
theorem noWrap_dumpText (h : Consistent lc) (hx : lc.geom.sx < 2 ^ 31) (hy : lc.geom.sy < 2 ^ 31)
    (npanes : Nat) : NoWrap npanes (dumpText lc) := by
  have hconstruct := layoutConstruct_text h (2 * (layoutText lc).length + 1) (by omega) .done
  rw [List.append_nil] at hconstruct
  intro csum text lc₁ hheader hread
  unfold dumpText at hheader
  rw [parseHeader_hex4 (layoutChecksum_lt _)] at hheader
  cases hheader
  rw [hconstruct] at hread
  cases hread
  have hsize : ∀ lc', size lc' = size (withoutPanes lc) →
      lc'.geom.sx < 2 ^ 31 ∧ lc'.geom.sy < 2 ^ 31 := by
    intro lc' hsame
    rw [withoutPanes_size] at hsame
    obtain ⟨hsx, hsy⟩ := Prod.mk.inj hsame
    exact ⟨hsx ▸ hx, hsy ▸ hy⟩
  have hread := hsize _ rfl
  refine ⟨h.withoutPanes.fitsUint hread.1 hread.2, fun lc' hclose => ?_⟩
  have hcount := closeBottomright_count hclose
  by_cases hzero : npanes = 0
  · subst hzero
    exact absurd hclose (h.withoutPanes.closeBottomright_zero _ lc')
  · by_cases hle : npanes ≤ (withoutPanes lc).layoutCountCells
    · obtain ⟨lc₂, hclose₂, hcons, hsame, -⟩ := h.withoutPanes.closeBottomright
        (Nat.pos_of_ne_zero hzero) hle (withoutPanes lc).layoutCountCells (by omega)
      obtain rfl := Except.ok.inj (hclose.symm.trans hclose₂)
      exact hcons.fitsUint (hsize _ hsame).1 (hsize _ hsame).2
    · unfold closeBottomright at hclose
      simp only [gt_iff_lt, not_le.mp hle, if_true] at hclose
      cases hclose

/-- So is the dump of a window's layout, and of a window without one. -/
theorem noWrap_layoutDump {root : Option LayoutCell} {text : List Char}
    (hdump : layoutDump root = some text)
    (h : ∀ lc ∈ root, Consistent lc ∧ lc.geom.sx < 2 ^ 31 ∧ lc.geom.sy < 2 ^ 31) (npanes : Nat) :
    NoWrap npanes text := by
  cases root with
  | none =>
      -- nothing stands behind the checksum, and no cell is read
      obtain rfl : hex4 (layoutChecksum []) ++ [','] = text := Option.some.inj hdump
      intro csum text lc hheader hread
      rw [parseHeader_hex4 (layoutChecksum_lt [])] at hheader
      cases hheader
      cases hread
  | some lc =>
      obtain ⟨hcons, hx, hy⟩ := h lc rfl
      rw [layoutDump_eq] at hdump
      split at hdump
      · obtain rfl := Option.some.inj hdump
        exact noWrap_dumpText hcons hx hy npanes
      · cases hdump

end Newmux.Logic
