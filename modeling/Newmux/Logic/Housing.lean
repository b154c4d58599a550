import Newmux.Logic.LayoutText
import Newmux.Logic.Stable

/-!
# Windows and their layouts

What every command keeps about windows: each layout tree is consistent, as large
as its window and placed from its corner, and a closed pane's item carries the
dump of such a tree. While every restored pane's layout fits, a window's tree has
one cell for each pane of its list and none else.
-/

namespace Newmux.Logic

open Newmux.Base Newmux.Tmux Newmux.Recovery LayoutCell

/-! ## One window -/

/-- A tree laid over a window. -/
structure Laid (win : Window) (lc : LayoutCell) : Prop where
  consistent : Consistent lc
  size : size lc = (win.sx, win.sy)
  placed : layoutFixOffsets lc = lc

/-- The window's trees are laid over it, and a second one is there only in a
zoomed window. -/
structure WindowLaid (win : Window) : Prop where
  root : ∀ lc ∈ win.layoutRoot, Laid win lc
  saved : ∀ lc ∈ win.savedLayoutRoot, Laid win lc
  unzoomed : win.zoomed = false → win.savedLayoutRoot = none

/-- The window keeps its size, and stays laid out. -/
structure Relaid (win win' : Window) : Prop where
  sx : win'.sx = win.sx
  sy : win'.sy = win.sy
  laid : WindowLaid win → WindowLaid win'

theorem Relaid.refl (win : Window) : Relaid win win := ⟨rfl, rfl, fun h => h⟩

theorem Relaid.trans {win win' win'' : Window} (h : Relaid win win') (h' : Relaid win' win'') :
    Relaid win win'' := ⟨h'.sx.trans h.sx, h'.sy.trans h.sy, fun hw => h'.laid (h.laid hw)⟩

theorem Laid.of_size {win win' : Window} {lc : LayoutCell} (h : Laid win lc)
    (hsx : win'.sx = win.sx) (hsy : win'.sy = win.sy) : Laid win' lc :=
  ⟨h.consistent, by rw [h.size, hsx, hsy], h.placed⟩

/-- A consistent tree of the right size, once placed. -/
theorem laid_of_size {win : Window} {lc : LayoutCell} (h : Consistent lc)
    (hsize : size lc = (win.sx, win.sy)) : Laid win (layoutFixOffsets lc) :=
  ⟨h.fixOffsets1 0 0, (layoutFixOffsets1_size 0 0 lc).trans hsize,
    layoutFixOffsets1_twice lc 0 0 0 0⟩

theorem Laid.tiles {win : Window} {lc : LayoutCell} (h : Laid win lc) :
    Tiles (leaves lc) win.sx win.sy := by
  have htiles := check_tiles h.consistent.check
  have hplaced := h.placed
  rw [hplaced, h.size] at htiles
  exact htiles

/-- Neither the trees nor the size nor the zoom has changed. -/
theorem Relaid.of_same {win win' : Window} (hsx : win'.sx = win.sx) (hsy : win'.sy = win.sy)
    (hroot : win'.layoutRoot = win.layoutRoot)
    (hsaved : win'.savedLayoutRoot = win.savedLayoutRoot) (hzoomed : win'.zoomed = win.zoomed) :
    Relaid win win' := by
  refine ⟨hsx, hsy, fun h => ⟨fun lc hlc => ?_, fun lc hlc => ?_, fun hz => ?_⟩⟩
  · exact (h.root lc (hroot ▸ hlc)).of_size hsx hsy
  · exact (h.saved lc (hsaved ▸ hlc)).of_size hsx hsy
  · rw [hsaved]
    exact h.unzoomed (hzoomed ▸ hz)

theorem unzoomWindow_relaid (win : Window) : Relaid win (unzoomWindow win) := by
  unfold unzoomWindow
  split
  · exact ⟨rfl, rfl, fun h => ⟨fun lc hlc => (h.saved lc hlc).of_size rfl rfl,
      fun lc hlc => absurd hlc (Option.not_mem_none lc), fun _ => rfl⟩⟩
  · exact .refl win

/-- **Closing a pane's cell** leaves the window laid out. -/
theorem closedWindow_relaid (wp : Nat) (win : Window) : Relaid win (closedWindow wp win) := by
  unfold closedWindow
  split
  · exact .refl win
  · next root hroot =>
      refine ⟨rfl, rfl, fun h => ⟨fun lc hlc => ?_, fun lc hlc => (h.saved lc hlc).of_size rfl rfl,
        h.unzoomed⟩⟩
      have hlaid := h.root root hroot
      unfold closedRoot at hlc
      split at hlc
      · obtain rfl := Option.mem_some.mp hlc
        exact hlaid.of_size rfl rfl
      · next path _ =>
          cases path with
          | nil => exact absurd hlc (Option.not_mem_none lc)
          | cons i p =>
              obtain rfl := Option.mem_some.mp hlc
              obtain ⟨hcons, hsize⟩ := hlaid.consistent.destroyBelow (i :: p)
              exact laid_of_size hcons (hsize.trans hlaid.size)

theorem windowLostPane_relaid (win : Window) (panes : List Nat) (wp : Nat) :
    Relaid win (windowLostPane win panes wp) := by
  unfold windowLostPane
  simp only
  split <;> exact .of_same rfl rfl rfl rfl rfl

theorem unlistedWindow_relaid (w wp : Nat) (win : Window) :
    Relaid win (unlistedWindow w wp win) :=
  .of_same rfl rfl rfl rfl rfl

theorem insertPaneAtIndex_relaid (win : Window) (wp idx : Nat) :
    Relaid win (newmuxInsertPaneAtIndex win wp idx) := by
  unfold newmuxInsertPaneAtIndex
  split
  · exact .of_same rfl rfl rfl rfl rfl
  · unfold insertTail
    repeat' split
    all_goals exact .of_same rfl rfl rfl rfl rfl

theorem activated_relaid (wp : Nat) (win : Window) : Relaid win (activated wp win) := by
  unfold activated
  split
  · exact .refl win
  · exact (unzoomWindow_relaid win).trans (.of_same rfl rfl rfl rfl rfl)

theorem selectedWindow_relaid (idx : Nat) (win : Window) : Relaid win (selectedWindow idx win) := by
  unfold selectedWindow
  split
  · exact .refl win
  · exact activated_relaid _ win

theorem movedBack_relaid (panes : List Nat) (item : ClosedItem) (src dstW recoveryW : Nat)
    (win : Window) : Relaid win (movedBack panes item src dstW recoveryW win) := by
  unfold movedBack
  simp only
  have h₁ : Relaid win (if win.id = dstW ∨ win.id = recoveryW then unzoomWindow win else win) := by
    split
    · exact unzoomWindow_relaid win
    · exact .refl win
  generalize (if win.id = dstW ∨ win.id = recoveryW then unzoomWindow win else win) = w₁ at h₁ ⊢
  have h₂ : Relaid win (if win.id = src then closedWindow item.paneId w₁ else w₁) := by
    split
    · exact h₁.trans (closedWindow_relaid _ w₁)
    · exact h₁
  generalize (if win.id = src then closedWindow item.paneId w₁ else w₁) = w₂ at h₂ ⊢
  have h₃ : Relaid win
      (if win.id = recoveryW then windowLostPane w₂ panes item.paneId else w₂) := by
    split
    · exact h₂.trans (windowLostPane_relaid w₂ _ _)
    · exact h₂
  generalize (if win.id = recoveryW then windowLostPane w₂ panes item.paneId else w₂) = w₃
    at h₃ ⊢
  have h₄ := h₃.trans (unlistedWindow_relaid recoveryW item.paneId w₃)
  split
  · exact h₄.trans (insertPaneAtIndex_relaid _ _ _)
  · exact h₄

/-- **Parsing a dump** over a window of the dumped size leaves it laid out. -/
theorem laidWindow_relaid {win : Window} {root : Option LayoutCell} {text : List Char}
    (hdump : layoutDump root = some text)
    (hroot : ∀ lc ∈ root, Consistent lc ∧ size lc = (win.sx, win.sy))
    {lc : LayoutCell} {asked : Option (Nat × Nat)}
    (hread : layoutRead win.panes.length text = .ok (lc, asked)) :
    Relaid win (laidWindow lc asked win) := by
  cases root with
  | none =>
      -- a window without a layout dumps as the empty layout, which needs no pane
      obtain rfl : hex4 (layoutChecksum []) ++ [','] = text := Option.some.inj hdump
      rw [layoutRead, parseHeader_hex4 (layoutChecksum_lt [])] at hread
      simp at hread
  | some lc₀ =>
      obtain ⟨hcons, hsize⟩ := hroot lc₀ rfl
      obtain rfl : dumpText lc₀ = text := by
        rw [layoutDump_eq] at hdump
        split at hdump
        · exact Option.some.inj hdump
        · cases hdump
      have hpos : 0 < win.panes.length := by
        refine Nat.pos_of_ne_zero fun hzero => ?_
        rw [hzero] at hread
        exact layoutRead_none hcons _ hread
      by_cases hle : win.panes.length ≤ lc₀.layoutCountCells
      · obtain ⟨lc', hread', hcons', hsize'⟩ := layoutRead_fewer hcons hpos hle
        obtain ⟨rfl, rfl⟩ := Prod.mk.inj (Except.ok.inj (hread'.symm.trans hread))
        have hasked : (askedSize lc').getD (win.sx, win.sy) = (win.sx, win.sy) := by
          cases hask : askedSize lc' with
          | none => rfl
          | some s => exact (askedSize_eq hask).trans (hsize'.trans hsize)
        refine ⟨congrArg Prod.fst hasked, congrArg Prod.snd hasked, fun h => ?_⟩
        refine ⟨fun lc hlc => ?_, fun lc hlc => ?_, h.unzoomed⟩
        · obtain rfl := Option.mem_some.mp hlc
          refine laid_of_size (hcons'.assign _) ?_
          rw [layoutAssign_size, hsize', hsize]
          exact hasked.symm
        · exact (h.saved lc hlc).of_size (congrArg Prod.fst hasked) (congrArg Prod.snd hasked)
      · rw [layoutRead_more hcons (not_le.mp hle)] at hread
        cases hread

/-! ## A broken pane, window by window -/

/-- A window's record after a pane that belongs to `src` has been taken out of
window `w`. -/
def takenFrom (wp : Nat) (src : Option Nat) (w : Nat) (win : Window) : Window :=
  let v := if win.id = w then unzoomWindow win else win
  let v := unlistedWindow w wp v
  let v := if win.id = w then windowLostPane v win.panes wp else v
  if some win.id = src then closedWindow wp v else v

/-- The new window of a broken pane. -/
def houseWindow (sv : Server) (wp sequence sx sy : Nat) : Window :=
  { id := sv.nextWindowId, name := s!"newmux-recovery-{sequence}", panes := [wp], lastPanes := [],
    active := some wp, layoutRoot := some (.pane ⟨sx, sy, 0, 0⟩ (some wp)),
    savedLayoutRoot := none, zoomed := false, sx, sy, options := sv.globalWOptions }

theorem preserveHistories_same (sv : Server) (panes : List Nat) :
    SameWindows sv (preserveHistories sv panes) :=
  .of_map sv fun wp => by split <;> exact ⟨rfl, rfl⟩

/-- `layout_close_pane` closes a cell in the window the pane belongs to. -/
theorem layoutClosePane_owned (sv : Server) (wp x : Nat) :
    windowFindById (layoutClosePane sv wp) x = (windowFindById sv x).map fun win =>
      if some win.id = ownerOf sv wp then closedWindow wp win else win := by
  cases hsrc : windowPaneFindById sv wp with
  | none =>
      have howner : ownerOf sv wp = none := by
        rw [ownerOf, hsrc]
        rfl
      have hkeep : layoutClosePane sv wp = sv := by
        unfold layoutClosePane
        simp only [hsrc]
      rw [hkeep, howner]
      cases windowFindById sv x <;> rfl
  | some src =>
      have howner : ownerOf sv wp = some src.window := by
        rw [ownerOf, hsrc]
        rfl
      rw [layoutClosePane_record hsrc, howner]
      cases hw : windowFindById sv x with
      | none => simp
      | some win =>
          simp only [windowFindById_id hw, Option.map_some, Option.some.injEq]
          split <;> rfl

/-- The windows that were there, once the pane is taken out of `w`. -/
theorem takePane_record (sv : Server) (w wp x : Nat) :
    windowFindById (takePane (preserveHistories (windowUnzoom sv w) [wp]) w wp) x =
      (windowFindById sv x).map (takenFrom wp (ownerOf sv wp) w) := by
  generalize hready : preserveHistories (windowUnzoom sv w) [wp] = sv₁
  have hsame := preserveHistories_same (windowUnzoom sv w) [wp]
  rw [hready] at hsame
  have hfind : ∀ y, windowFindById sv₁ y =
      if y = w then (windowFindById sv y).map unzoomWindow else windowFindById sv y := by
    intro y
    rw [← windowUnzoom_record]
    unfold windowFindById
    rw [hsame.windows]
  unfold takePane
  simp only
  generalize hlist : ((windowFindById sv₁ w).map Window.panes).getD [] = panes
  have howner : ownerOf (losePane (unlistPane sv₁ w wp) w panes wp) wp = ownerOf sv wp := by
    have hpanes : (losePane (unlistPane sv₁ w wp) w panes wp).panes = sv₁.panes := by
      unfold losePane
      split <;> rfl
    rw [ownerOf_panes hpanes, hsame.owner, windowUnzoom_owner]
  rw [layoutClosePane_owned, howner, losePane_record, unlistPane_record, hfind]
  cases hw : windowFindById sv x with
  | none => simp
  | some win =>
      have hid := windowFindById_id hw
      have hpanes : x = w → panes = win.panes := by
        rintro rfl
        rw [← hlist, hfind, if_pos rfl, hw]
        exact unzoomWindow_panes win
      have hlost : ∀ v : Window, (windowLostPane v panes wp).id = v.id :=
        fun v => (windowLostPane_fields v panes wp).1
      simp only [Option.map_some, takenFrom, hid]
      split_ifs <;> simp_all [unlistedWindow, unzoomWindow_id]

theorem takenFrom_relaid (wp : Nat) (src : Option Nat) (w : Nat) (win : Window) :
    Relaid win (takenFrom wp src w win) := by
  unfold takenFrom
  simp only
  have h₁ : Relaid win (unlistedWindow w wp (if win.id = w then unzoomWindow win else win)) := by
    refine Relaid.trans ?_ (unlistedWindow_relaid w wp _)
    split
    · exact unzoomWindow_relaid win
    · exact .refl win
  generalize unlistedWindow w wp (if win.id = w then unzoomWindow win else win) = w₁ at h₁ ⊢
  have h₂ : Relaid win (if win.id = w then windowLostPane w₁ win.panes wp else w₁) := by
    split
    · exact h₁.trans (windowLostPane_relaid w₁ _ _)
    · exact h₁
  generalize (if win.id = w then windowLostPane w₁ win.panes wp else w₁) = w₂ at h₂ ⊢
  split
  · exact h₂.trans (closedWindow_relaid wp w₂)
  · exact h₂

/-- A pane is housed in a new window of its size; the other windows are as they
were. -/
theorem housePane_record (sv : Server) (wp sequence : Nat) : ∃ sx sy, ∀ x,
    windowFindById (housePane sv wp sequence).1 x =
      if x = sv.nextWindowId then some (houseWindow sv wp sequence sx sy)
      else windowFindById sv x := by
  obtain ⟨sx, sy, hsize⟩ : ∃ sx sy,
      ((windowPaneFindById sv wp).map fun p => (p.sx, p.sy)).getD (0, 0) = (sx, sy) := ⟨_, _, rfl⟩
  refine ⟨sx, sy, fun x => ?_⟩
  unfold housePane
  simp only [hsize]
  generalize hhouse : ({ (windowCreate sv sx sy).1 with
      panes := Table.modify (windowCreate sv sx sy).1.panes wp
        (fun p => { p with window := sv.nextWindowId })
      windows := Table.modify (windowCreate sv sx sy).1.windows sv.nextWindowId fun win =>
        { win with panes := [wp], active := some wp, name := s!"newmux-recovery-{sequence}" } } :
      Server) = sv₁
  have hfind : ∀ y, windowFindById sv₁ y =
      if y = sv.nextWindowId then
        some { houseWindow sv wp sequence sx sy with layoutRoot := none }
      else windowFindById sv y := by
    intro y
    rw [← hhouse]
    unfold windowFindById
    rw [Table.find_modify]
    swap
    · exact fun _ h => h
    obtain ⟨win, hwin, hwindows⟩ : ∃ win : Window,
        win = { houseWindow sv wp sequence sx sy with
          layoutRoot := none, panes := [], active := none, name := "" } ∧
        (windowCreate sv sx sy).1.windows = win :: sv.windows := ⟨_, rfl, rfl⟩
    have hkey : key win = sv.nextWindowId := by
      rw [hwin]
      rfl
    rw [hwindows, Table.find_cons]
    by_cases hy : y = sv.nextWindowId
    · rw [if_pos hy, if_pos (hkey.trans hy.symm), if_pos hy, hwin]
      rfl
    · rw [if_neg hy, if_neg (fun he => hy (he.symm.trans hkey)), if_neg hy]
  have hnew : windowFindById sv₁ sv.nextWindowId =
      some { houseWindow sv wp sequence sx sy with layoutRoot := none } := by
    rw [hfind, if_pos rfl]
  unfold layoutInit
  rw [hnew]
  simp only
  rw [layoutFixPanes_find, windowFindById_setWindow]
  by_cases hx : x = sv.nextWindowId
  · rw [hx, hnew]
    simp [houseWindow]
  · rw [hfind, if_neg hx, if_neg hx, if_neg]
    exact hx

/-! ## Every window laid out -/

/-- The item's layout is the dump of a consistent tree as large as its window. -/
structure ItemLaid (sv : Server) (item : ClosedItem) : Prop where
  below : item.windowId < sv.nextWindowId
  dump : ∀ text ∈ item.windowLayout, ∃ root, layoutDump root = some text ∧ ∀ lc ∈ root,
    Consistent lc ∧
      ∀ win, windowFindById sv item.windowId = some win → size lc = (win.sx, win.sy)

/-- Every window is laid out, and every item's layout is the dump of such a
layout. -/
structure AllLaid (items : List ClosedItem) (sv : Server) : Prop where
  windows : ∀ x win, windowFindById sv x = some win → WindowLaid win
  below : ∀ x win, windowFindById sv x = some win → x < sv.nextWindowId
  items : ∀ item ∈ items, ItemLaid sv item

/-- Every window was there before, of the same size, and is still laid out. -/
theorem AllLaid.relaid {items : List ClosedItem} {sv sv' : Server} (h : AllLaid items sv)
    (hnext : sv.nextWindowId ≤ sv'.nextWindowId)
    (hwin : ∀ x win', windowFindById sv' x = some win' →
      ∃ win, windowFindById sv x = some win ∧ Relaid win win') : AllLaid items sv' := by
  refine ⟨fun x win' hx => ?_, fun x win' hx => ?_, fun item hitem => ⟨?_, fun text htext => ?_⟩⟩
  · obtain ⟨win, hw, hrelaid⟩ := hwin x win' hx
    exact hrelaid.laid (h.windows x win hw)
  · obtain ⟨win, hw, -⟩ := hwin x win' hx
    exact (h.below x win hw).trans_le hnext
  · exact (h.items item hitem).below.trans_le hnext
  · obtain ⟨root, hdump, hroot⟩ := (h.items item hitem).dump text htext
    refine ⟨root, hdump, fun lc hlc => ⟨(hroot lc hlc).1, fun win' hx => ?_⟩⟩
    obtain ⟨win, hw, hrelaid⟩ := hwin _ win' hx
    rw [(hroot lc hlc).2 win hw, hrelaid.sx, hrelaid.sy]

/-- A change of some windows' records. -/
theorem AllLaid.map {items : List ClosedItem} {sv sv' : Server} (h : AllLaid items sv)
    (hnext : sv.nextWindowId ≤ sv'.nextWindowId) {f : Nat → Window → Window}
    (hf : ∀ x win, Relaid win (f x win))
    (hfind : ∀ x, windowFindById sv' x = (windowFindById sv x).map (f x)) : AllLaid items sv' := by
  refine h.relaid hnext fun x win' hx => ?_
  rw [hfind] at hx
  obtain ⟨win, hw, rfl⟩ := Option.map_eq_some_iff.mp hx
  exact ⟨win, hw, hf x win⟩

theorem map_if {P : Prop} [Decidable P] (o : Option Window) (f : Window → Window) :
    (if P then o.map f else o) = o.map fun win => if P then f win else win := by
  split
  · rfl
  · exact Option.map_id'.symm

theorem allLaid_stable (items : List ClosedItem) : Stable (AllLaid items) := by
  refine ⟨?_, ?_, ?_⟩
  · intro sv sv' hsame h
    refine h.relaid hsame.next.ge fun x win' hx => ⟨win', ?_, .refl win'⟩
    unfold windowFindById at hx ⊢
    rwa [hsame.windows] at hx
  · intro sv w h
    refine h.relaid (windowDestroy_kept sv w).nextWindowId fun x win' hx => ⟨win', ?_, .refl win'⟩
    rw [windowDestroy_find] at hx
    split at hx
    · cases hx
    · exact hx
  · intro sv w h
    refine h.map (windowUnzoom_kept sv w).nextWindowId
      (f := fun x win => if x = w then unzoomWindow win else win) (fun x win => ?_) fun x => ?_
    · split
      · exact unzoomWindow_relaid win
      · exact .refl win
    · rw [windowUnzoom_record, map_if]

/-- Breaking a pane out of its window. -/
theorem AllLaid.breakPane {items : List ClosedItem} {sv : Server} (h : AllLaid items sv)
    (w wp sequence : Nat) : AllLaid items (breakPane sv w wp sequence).1 := by
  have htaken : AllLaid items (takePane (preserveHistories (windowUnzoom sv w) [wp]) w wp) :=
    h.map (((windowUnzoom_kept sv w).trans (preserveHistories_kept _ _)).trans
      (takePane_kept _ w wp)).nextWindowId (f := fun _ => takenFrom wp (ownerOf sv wp) w)
      (fun _ win => takenFrom_relaid wp (ownerOf sv wp) w win) (takePane_record sv w wp)
  unfold Recovery.breakPane
  generalize takePane (preserveHistories (windowUnzoom sv w) [wp]) w wp = sv₁ at htaken ⊢
  obtain ⟨sx, sy, hfind⟩ := housePane_record sv₁ wp sequence
  obtain ⟨-, hlt, -, -⟩ := housePane_panes sv₁ wp sequence
  refine ⟨fun x win hx => ?_, fun x win hx => ?_, fun item hitem => ⟨?_, fun text htext => ?_⟩⟩
  · rw [hfind] at hx
    split at hx
    · obtain rfl := Option.some.inj hx
      refine ⟨fun lc hlc => ?_, fun lc hlc => absurd hlc (Option.not_mem_none lc), fun _ => rfl⟩
      obtain rfl := Option.mem_some.mp hlc
      exact ⟨.pane _ _, rfl, rfl⟩
    · exact htaken.windows x win hx
  · rw [hfind] at hx
    split at hx
    · next he =>
        rw [he]
        exact hlt
    · exact (htaken.below x win hx).trans hlt
  · exact (htaken.items item hitem).below.trans hlt
  · obtain ⟨root, hdump, hroot⟩ := (htaken.items item hitem).dump text htext
    refine ⟨root, hdump, fun lc hlc => ⟨(hroot lc hlc).1, fun win hx => ?_⟩⟩
    rw [hfind, if_neg (htaken.items item hitem).below.ne] at hx
    exact (hroot lc hlc).2 win hx

/-- The item a delete makes of a window that is laid out. -/
theorem AllLaid.dumped {items : List ClosedItem} {sv : Server} (h : AllLaid items sv)
    {w : Window} {x : Nat} (hw : windowFindById sv x = some w) {item : ClosedItem}
    (hid : item.windowId = x) (hlayout : item.windowLayout = newmuxDumpWindowLayout w) :
    ItemLaid sv item := by
  have hlaid := h.windows x w hw
  refine ⟨by rw [hid]; exact h.below x w hw, fun text htext => ?_⟩
  rw [hlayout, newmuxDumpWindowLayout] at htext
  have hsame : ∀ win, windowFindById sv item.windowId = some win → win = w := by
    intro win hwin
    rw [hid, hw] at hwin
    exact (Option.some.inj hwin).symm
  cases hsaved : w.savedLayoutRoot with
  | some root =>
      rw [hsaved] at htext
      refine ⟨some root, htext, fun lc hlc => ?_⟩
      obtain rfl := Option.mem_some.mp hlc
      have hl := hlaid.saved root hsaved
      exact ⟨hl.consistent, fun win hwin => by rw [hl.size, hsame win hwin]⟩
  | none =>
      rw [hsaved] at htext
      refine ⟨w.layoutRoot, htext, fun lc hlc => ?_⟩
      have hl := hlaid.root lc hlc
      exact ⟨hl.consistent, fun win hwin => by rw [hl.size, hsame win hwin]⟩

/-- Moving a pane back into its window. -/
theorem AllLaid.movePaneBack {items : List ClosedItem} {sv : Server} (h : AllLaid items sv)
    {item : ClosedItem} {src : Pane} (hsrc : windowPaneFindById sv item.paneId = some src)
    (dstW recoveryW : Nat) : AllLaid items (movePaneBack sv item dstW recoveryW) :=
  h.map (movePaneBack_kept sv item dstW recoveryW).nextWindowId
    (f := fun _ => movedBack (paneList sv item.paneId) item src.window dstW recoveryW)
    (fun _ win => movedBack_relaid _ item src.window dstW recoveryW win)
    (movePaneBack_record hsrc _ _)

/-- Parsing an item's layout over its window. -/
theorem AllLaid.laidOut {items : List ClosedItem} {sv : Server} (h : AllLaid items sv)
    {item : ClosedItem} (hitem : item ∈ items) {win : Window}
    (hwin : windowFindById sv item.windowId = some win) :
    AllLaid items (laidOut sv item.windowId item.windowLayout) := by
  unfold Logic.laidOut
  split
  · exact h
  · next text htext =>
      obtain ⟨root, hdump, hroot⟩ := (h.items item hitem).dump text htext
      cases hread : layoutRead win.panes.length text with
      | error cause =>
          have hparse : (layoutParse sv item.windowId text).1 = sv := by
            unfold layoutParse
            simp only [hwin, windowCountPanes, hread]
          rw [hparse]
          exact h
      | ok r =>
          obtain ⟨lc, asked⟩ := r
          have hrelaid := laidWindow_relaid hdump
            (fun lc hlc => ⟨(hroot lc hlc).1, (hroot lc hlc).2 win hwin⟩) hread
          refine h.relaid (layoutParse_kept sv _ text).nextWindowId fun x win' hx => ?_
          rw [layoutParse_record hwin hread] at hx
          split at hx
          · next he =>
              subst he
              rw [hwin] at hx
              exact ⟨win, hwin, Option.some.inj hx ▸ hrelaid⟩
          · exact ⟨win', hx, .refl win'⟩

theorem AllLaid.subset {items items' : List ClosedItem} {sv : Server} (h : AllLaid items sv)
    (hsub : items' ⊆ items) : AllLaid items' sv :=
  ⟨h.windows, h.below, fun item hitem => h.items item (hsub hitem)⟩

theorem AllLaid.breakLivePane {items : List ClosedItem} {sv : Server} (h : AllLaid items sv)
    (item : ClosedItem) (wl : Winlink) (wp : Nat) :
    AllLaid items (newmuxBreakLivePane sv item wl wp).1 := by
  have hstable := allLaid_stable items
  exact hstable.breakLivePane item wl wp
    ((hstable.recoverySessionGet h).breakPane wl.window wp item.sequence)

/-- **Restoring an item** whose layout is a dump of its window. -/
theorem AllLaid.restore {items : List ClosedItem} {sv : Server} (h : AllLaid items sv)
    (hok : TreesOk sv) (target : Option Nat) {item : ClosedItem} (hitem : item ∈ items) :
    AllLaid items (newmuxRestoreClosedItem sv target item).1 := by
  have hstable := allLaid_stable items
  unfold newmuxRestoreClosedItem
  cases item.type with
  | pane =>
      have hout := restoreLivePane_outcome sv target item
      simp only
      generalize newmuxRestoreLivePane sv target item = r at hout ⊢
      cases hout with
      | missing => exact h
      | misfit cause dstS dstWl recoveryW hfind hfit =>
          obtain ⟨-, -, -, -, -, -, ⟨src, hsrc⟩⟩ := findLivePane_ok hfind
          exact h.movePaneBack hsrc _ _
      | back dstS dstWl recoveryW hfind hfit =>
          obtain ⟨-, -, hdst, ⟨dstW, hdstW⟩, -, -, ⟨src, hsrc⟩⟩ := findLivePane_ok hfind
          have hmoved := h.movePaneBack hsrc dstWl.window recoveryW.id
          have hback := movePaneBack_record hsrc dstWl.window recoveryW.id item.windowId
          rw [hdstW, Option.map_some] at hback
          have hlaid := hmoved.laidOut hitem hback
          rw [← hdst] at hlaid
          refine hstable.finishPaneRestore item dstS.id dstWl recoveryW.id ?_
          refine hlaid.map (newmuxSelectPaneIndex_kept _ _ _).nextWindowId
            (f := fun x win => if x = dstWl.window then selectedWindow item.activePaneIndex win
              else win) (fun x win => ?_) fun x => ?_
          · split
            · exact selectedWindow_relaid _ win
            · exact .refl win
          · rw [newmuxSelectPaneIndex_record, map_if]
  | window =>
      have hout := restoreLiveWindow_outcome hok target item
      simp only
      generalize newmuxRestoreLiveWindow sv target item = r at hout ⊢
      cases hout with
      | missing => exact h
      | noRoom => exact h
      | back dstS recoveryS recoveryWl w wl wwl hfind hlink =>
          exact hstable.windowBack dstS recoveryS recoveryWl w wl wwl h
  | session => exact h

/-! ## Runs -/

/-- The items a state holds. -/
def heldItems (σ : State) : List ClosedItem := σ.closedStack ++ σ.reservedStack

theorem heldItems_fresh {σ : State} (h : Fresh σ) : heldItems σ = [] := by
  unfold heldItems
  rw [h.closedStack, h.reservedStack]
  rfl

theorem evictLoop_subset (fuel : Nat) (stack : List ClosedItem) (count : Nat) :
    (evictLoop fuel stack count).1 ⊆ stack := by
  induction fuel generalizing stack count with
  | zero => exact List.Subset.refl _
  | succ fuel ih =>
      unfold evictLoop
      split
      · exact List.Subset.trans (ih _ _) (List.dropLast_subset stack)
      · exact List.Subset.refl _

/-- A push adds one item at most. -/
theorem heldItems_push (σ : State) (item : ClosedItem) :
    heldItems (newmuxStackPush σ item) ⊆ item :: heldItems σ := by
  have hpush : (newmuxStackPush σ item).closedStack ⊆ item :: σ.closedStack :=
    evictLoop_subset (σ.closedCount + 1) (item :: σ.closedStack) (σ.closedCount + 1)
  intro x hx
  rcases List.mem_append.mp hx with hx | hx
  · rcases List.mem_cons.mp (hpush hx) with rfl | hx
    · exact List.mem_cons_self
    · exact List.mem_cons_of_mem _ (List.mem_append_left _ hx)
  · exact List.mem_cons_of_mem _ (List.mem_append_right _ hx)

theorem heldItems_pop {σ σ₁ : State} {item : ClosedItem} (h : newmuxStackPop σ = some (item, σ₁)) :
    item :: heldItems σ₁ ⊆ heldItems σ := by
  obtain ⟨hstack, hσ⟩ := pop_some h
  have hreserved : σ₁.reservedStack = σ.reservedStack := by rw [hσ]
  unfold heldItems
  rw [hstack, hreserved]
  exact List.Subset.refl _

theorem heldItems_reservedPop {σ σ₁ : State} {n : Nat} {item : ClosedItem}
    (h : newmuxReservedPopBySequence σ n = some (item, σ₁)) :
    item :: heldItems σ₁ ⊆ heldItems σ := by
  obtain ⟨-, hperm, hσ⟩ := reservedPop_some h
  have hclosed : σ₁.closedStack = σ.closedStack := by rw [hσ]
  unfold heldItems
  rw [hclosed]
  intro x hx
  rcases List.mem_cons.mp hx with rfl | hx
  · exact List.mem_append_right _ (hperm.mem_iff.mpr List.mem_cons_self)
  · rcases List.mem_append.mp hx with hx | hx
    · exact List.mem_append_left _ hx
    · exact List.mem_append_right _ (hperm.mem_iff.mpr (List.mem_cons_of_mem _ hx))

/-- Parking fills in where the item is parked, and nothing else. -/
theorem breakLiveWindow_same {sv sv' : Server} {item item' : ClosedItem} {s : Nat}
    {wl : Winlink} (h : newmuxBreakLiveWindow sv item s wl = (sv', .ok item')) :
    item' = { item with
      recoverySessionId := item'.recoverySessionId, recoveryWindowId := item'.recoveryWindowId } := by
  simp only [newmuxBreakLiveWindow] at h
  split at h
  · cases h
  · split at h
    · cases h
    · cases h
      rfl

theorem breakLivePane_same {sv sv' : Server} {item item' : ClosedItem} {wl : Winlink}
    {wp : Nat} (h : newmuxBreakLivePane sv item wl wp = (sv', .ok item')) :
    item' = { item with
      recoverySessionId := item'.recoverySessionId, recoveryWindowId := item'.recoveryWindowId } := by
  simp only [newmuxBreakLivePane] at h
  split at h
  · cases h
  · cases h
    rfl

/-- The items held once an item has been parked, or could not be. -/
theorem heldItems_parked (σ : State) (broken : Server × Except String ClosedItem) :
    ∀ x ∈ heldItems (parked σ broken), x ∈ heldItems σ ∨ ∃ sv', broken = (sv', .ok x) := by
  obtain ⟨sv', result⟩ := broken
  cases result with
  | error cause => exact fun x hx => .inl hx
  | ok item =>
      intro x hx
      rcases List.mem_cons.mp (heldItems_push _ item hx) with rfl | hx
      · exact .inr ⟨sv', rfl⟩
      · exact .inl hx

theorem ItemLaid.congr {sv : Server} {item item' : ClosedItem} (h : ItemLaid sv item)
    (hid : item'.windowId = item.windowId) (hlayout : item'.windowLayout = item.windowLayout) :
    ItemLaid sv item' :=
  ⟨by rw [hid]; exact h.below, fun text htext => by
    rw [hid]
    exact h.dump text (hlayout ▸ htext)⟩

theorem AllLaid.cons {items : List ClosedItem} {sv : Server} {item : ClosedItem}
    (h : AllLaid items sv) (hitem : ItemLaid sv item) : AllLaid (item :: items) sv :=
  ⟨h.windows, h.below, List.forall_mem_cons.mpr ⟨hitem, h.items⟩⟩

/-- The state is laid out: its windows, and the layouts its items carry. -/
def StateLaid (σ : State) : Prop := AllLaid (heldItems σ) σ.server

/-- An item is parked: the server still lays out the item it was made from. -/
theorem StateLaid.parked {σ : State} {item : ClosedItem}
    {broken : Server × Except String ClosedItem} (h : AllLaid (item :: heldItems σ) broken.1)
    (hsame : ∀ sv' item', broken = (sv', .ok item') → item'.windowId = item.windowId ∧
      item'.windowLayout = item.windowLayout) : StateLaid (parked σ broken) := by
  unfold StateLaid
  rw [parked_server]
  refine ⟨h.windows, h.below, fun x hx => ?_⟩
  rcases heldItems_parked σ broken x hx with hx | ⟨sv', hbroken⟩
  · exact h.items x (List.mem_cons_of_mem _ hx)
  · obtain ⟨hid, hlayout⟩ := hsame sv' x hbroken
    exact (h.items item List.mem_cons_self).congr hid hlayout

/-- A restore leaves the state laid out, whether it succeeds or not. -/
theorem StateLaid.restore {σ : State} {item : ClosedItem} (h : AllLaid (item :: heldItems σ) σ.server)
    (hok : TreesOk σ.server) (target : Option Nat) (print : Bool) :
    StateLaid (restoreOrPushBack σ target item print).1 := by
  have hrestored := h.restore hok target List.mem_cons_self
  unfold StateLaid
  rw [restoreOrPushBack_server]
  rcases restoreOrPushBack_effect σ target item print with ⟨sv', hres, hσ⟩ | ⟨sv', cause, hres, hσ⟩
  · rw [hσ]
    exact hrestored.subset (List.subset_cons_self _ _)
  · rw [hσ]
    exact hrestored.subset (heldItems_push { σ with server := sv' } item)

/-- **Every command** leaves the state laid out. -/
theorem StateLaid.exec {σ : State} (h : StateLaid σ) (hok : TreesOk σ.server) {l : Event}
    (hv : l.Valid σ.server) : StateLaid (exec σ l) := by
  have hstable := allLaid_stable (heldItems σ)
  have hout := exec_outcome hok.unique hv
  generalize Recovery.exec σ l = σ' at hout ⊢
  cases hout with
  | idle => exact h
  | kill => exact hstable.killWindow _ _ h
  | parkWindow l s wl w hdel hlast hparks hwindow =>
      have hitem : ItemLaid σ.server (newmuxItemFromWindow σ s wl w).1 :=
        h.dumped hdel.window (windowFindById_id hdel.window) rfl
      have hbreak := (allLaid_stable _).breakLiveWindow (newmuxItemFromWindow σ s wl w).1 s.id wl
        (h.cons hitem)
      refine StateLaid.parked hbreak fun sv' item' hbroken => ?_
      rw [breakLiveWindow_same hbroken]
      exact ⟨rfl, rfl⟩
  | parkPane l s wl w wp hdel hwp hcount hparks =>
      have hitem : ItemLaid σ.server (newmuxItemFromPane σ s wl w wp).1 :=
        h.dumped hdel.window (windowFindById_id hdel.window) rfl
      have hbreak := (h.cons hitem).breakLivePane (newmuxItemFromPane σ s wl w wp).1 wl wp
      refine StateLaid.parked hbreak fun sv' item' hbroken => ?_
      rw [breakLivePane_same hbroken]
      exact ⟨rfl, rfl⟩
  | reserve print item σ₁ hpop =>
      have hheld : heldItems (newmuxReservedPush σ₁ item) ⊆ item :: heldItems σ₁ := by
        intro x hx
        unfold heldItems newmuxReservedPush at hx
        simp only [List.mem_append, List.mem_singleton] at hx
        unfold heldItems
        simp only [List.mem_cons, List.mem_append]
        tauto
      have hserver : (newmuxReservedPush σ₁ item).server = σ.server := by
        rw [← pop_server hpop]
        rfl
      unfold StateLaid
      rw [hserver]
      exact AllLaid.subset h (List.Subset.trans hheld (heldItems_pop hpop))
  | reopen target print item σ₁ hpop =>
      refine StateLaid.restore ?_ (by rw [pop_server hpop]; exact hok) target print
      rw [pop_server hpop]
      exact AllLaid.subset h (heldItems_pop hpop)
  | claim value target print item n σ₁ hitem hpop =>
      refine StateLaid.restore ?_ (by rw [reservedPop_server hpop]; exact hok) target print
      rw [reservedPop_server hpop]
      exact AllLaid.subset h (heldItems_reservedPop hpop)
  | release value print item n σ₁ hitem hpop =>
      unfold StateLaid
      rw [push_server, reservedPop_server hpop]
      exact AllLaid.subset h (List.Subset.trans (heldItems_push σ₁ item) (heldItems_reservedPop hpop))
  | clear => exact (hstable.recoveryClear h).subset (List.nil_subset _)
  | output wp content => exact hstable.output wp content h

end Newmux.Logic
