import Newmux.Logic.ParkedPanes
import Newmux.Logic.LayoutText
import Newmux.Logic.Ordinal

/-!
# A pane out of its window and back

What a closed pane's item says about its window is enough to put the window back as
it was: the pane's index, the dump of the layout and the index of the pane in use.
-/

namespace Newmux.Logic

open Newmux.Base Newmux.Tmux Newmux.Recovery LayoutCell

/-- A window without its zoom and the order its panes were last used in. -/
def face (win : Window) : Window := { unzoomWindow win with lastPanes := [] }

/-- The cells of the layout are in the order of the list, and the pane in use and
those used before it are listed. -/
structure Ordered (win : Window) : Prop where
  cells : rootPanes (unzoomWindow win).layoutRoot = win.panes.map some
  active : ∃ a, win.active = some a ∧ a ∈ win.panes
  last : ∀ p ∈ win.lastPanes, p ∈ win.panes

theorem face_unzoom (win : Window) : face (unzoomWindow win) = face win := by
  unfold face
  rw [unzoomWindow_idem]

theorem face_id (win : Window) : (face win).id = win.id := unzoomWindow_id win

theorem face_panes (win : Window) : (face win).panes = win.panes := unzoomWindow_panes win

theorem face_tail (win : Window) : (face win).staleTail = win.staleTail :=
  (unzoomWindow_list win).tail

/-- Windows of one face list the same panes over the same layout. -/
theorem unzoomWindow_face {v win : Window} (h : face v = face win) :
    unzoomWindow v = { unzoomWindow win with lastPanes := (unzoomWindow v).lastPanes } := by
  unfold face at h
  have hpart : { unzoomWindow v with lastPanes := (unzoomWindow v).lastPanes } =
      ({ unzoomWindow win with lastPanes := (unzoomWindow v).lastPanes } : Window) := by
    have := congrArg (fun x : Window => { x with lastPanes := (unzoomWindow v).lastPanes }) h
    exact this
  exact hpart

theorem unzoomWindow_lastPanes (win : Window) : (unzoomWindow win).lastPanes = win.lastPanes := by
  unfold unzoomWindow
  split <;> rfl

/-- A window keeps its order when it is zoomed or unzoomed. -/
theorem Ordered.of_unzoomed {v win : Window} (h : Ordered win)
    (heq : unzoomWindow v = unzoomWindow win) : Ordered v := by
  have hpanes : v.panes = win.panes := by rw [← unzoomWindow_panes v, heq, unzoomWindow_panes]
  have hactive : v.active = win.active := by
    rw [← unzoomWindow_active v, heq, unzoomWindow_active]
  have hlast : v.lastPanes = win.lastPanes := by
    rw [← unzoomWindow_lastPanes v, heq, unzoomWindow_lastPanes]
  refine ⟨?_, ?_, ?_⟩
  · rw [heq, hpanes]
    exact h.cells
  · rw [hactive, hpanes]
    exact h.active
  · rw [hlast, hpanes]
    exact h.last

/-! ## The pane list -/

theorem filter_around {A B : List Nat} {wp : Nat} (h : (A ++ wp :: B).Nodup) :
    (A ++ wp :: B).filter (· != wp) = A ++ B := by
  rw [List.nodup_middle, List.nodup_cons, List.mem_append, not_or] at h
  have hkeep : ∀ l : List Nat, wp ∉ l → l.filter (· != wp) = l := by
    intro l hl
    rw [List.filter_eq_self]
    intro p hp
    have hne : p ≠ wp := fun he => hl (he ▸ hp)
    simpa using hne
  rw [List.filter_append, List.filter_cons_of_neg (by simp), hkeep A h.1.1, hkeep B h.1.2]

theorem idxOf?_around {A B : List Nat} {wp : Nat} (h : (A ++ wp :: B).Nodup) :
    (A ++ wp :: B).idxOf? wp = some A.length := by
  rw [List.nodup_middle, List.nodup_cons, List.mem_append, not_or] at h
  rw [List.idxOf?_eq_some_iff]
  refine ⟨by simp, by simp, fun j hj => ?_⟩
  rw [List.getElem_append_left hj]
  exact fun he => h.1.1 (he ▸ List.getElem_mem hj)

theorem paneBefore_around {A B : List Nat} {wp : Nat} (h : (A ++ wp :: B).Nodup) :
    paneBefore (A ++ wp :: B) wp = A.getLast? := by
  rw [List.nodup_middle, List.nodup_cons, List.mem_append, not_or] at h
  have hkeep : ∀ p ∈ A, (p != wp) = true := fun p hp => by
    have hne : p ≠ wp := fun he => h.1.1 (he ▸ hp)
    simpa using hne
  unfold paneBefore
  rw [List.takeWhile_append_of_pos hkeep, List.takeWhile_cons_of_neg (by simp), List.append_nil]

theorem paneAfter_around {A B : List Nat} {wp : Nat} (h : (A ++ wp :: B).Nodup) :
    paneAfter (A ++ wp :: B) wp = B.head? := by
  rw [List.nodup_middle, List.nodup_cons, List.mem_append, not_or] at h
  have hkeep : ∀ p ∈ A, (p != wp) = true := fun p hp => by
    have hne : p ≠ wp := fun he => h.1.1 (he ▸ hp)
    simpa using hne
  unfold paneAfter
  rw [List.dropWhile_append_of_pos hkeep, List.dropWhile_cons_of_neg (by simp), List.tail_cons]

/-- A pane that is put in where it was. -/
theorem insertPane_around {w : Window} {A B : List Nat} (wp : Nat) (hp : w.panes = A ++ B)
    (htail : w.staleTail = none) :
    newmuxInsertPaneAtIndex w wp (A.length + w.options.paneBaseIndex) =
      { w with panes := A ++ wp :: B } := by
  have hat : windowPaneAtIndex w (A.length + w.options.paneBaseIndex) = B.head? := by
    unfold windowPaneAtIndex
    rw [if_neg (by omega), Nat.add_sub_cancel, hp, List.getElem?_append_right (le_refl _),
      Nat.sub_self, List.head?_eq_getElem?]
  unfold newmuxInsertPaneAtIndex
  rw [hat]
  cases B with
  | nil =>
      simp only [List.head?_nil, insertTail, htail]
      rw [hp, List.append_nil]
  | cons b B =>
      simp only [List.head?_cons]
      rw [Nat.add_sub_cancel, hp, insertIdx_append_length]

/-! ## Taking the pane out -/

/-- A window that one of its panes is taken out of. -/
def without (wp : Nat) (win : Window) : Window :=
  closedWindow wp (windowLostPane (unlistedWindow win.id wp (unzoomWindow win)) win.panes wp)

theorem takenFrom_self (wp : Nat) (win : Window) :
    takenFrom wp (some win.id) win.id win = without wp win := by
  simp [takenFrom, without]

/-- The other windows do not list the pane. -/
theorem takenFrom_other {wp w : Nat} {win : Window} (hid : win.id ≠ w) (hp : wp ∉ win.panes) :
    takenFrom wp (some w) w win = win := by
  simp [takenFrom, hid, unlistedWindow_of_notMem hp]

theorem unzoomWindow_fields (win : Window) :
    (unzoomWindow win).id = win.id ∧ (unzoomWindow win).name = win.name ∧
      (unzoomWindow win).panes = win.panes ∧ (unzoomWindow win).zoomed = false ∧
      (unzoomWindow win).sx = win.sx ∧ (unzoomWindow win).sy = win.sy ∧
      (unzoomWindow win).options = win.options := by
  refine ⟨unzoomWindow_id win, ?_, unzoomWindow_panes win, unzoomWindow_zoomed win, ?_, ?_, ?_⟩ <;>
  · unfold unzoomWindow
    split <;> rfl

theorem without_fields (wp : Nat) (win : Window) :
    (without wp win).id = win.id ∧ (without wp win).name = win.name ∧
      (without wp win).panes = win.panes.filter (· != wp) ∧
      (without wp win).layoutRoot = (unzoomWindow win).layoutRoot.bind (closedRoot wp) ∧
      (without wp win).savedLayoutRoot = (unzoomWindow win).savedLayoutRoot ∧
      (without wp win).zoomed = false ∧ (without wp win).sx = win.sx ∧
      (without wp win).sy = win.sy ∧ (without wp win).options = win.options := by
  have hlost : ∀ v : Window, ∃ active last,
      windowLostPane v win.panes wp = { v with active, lastPanes := last } := by
    intro v
    unfold windowLostPane
    simp only
    split
    · exact ⟨_, _, rfl⟩
    · exact ⟨v.active, _, rfl⟩
  obtain ⟨active, last, heq⟩ := hlost (unlistedWindow win.id wp (unzoomWindow win))
  obtain ⟨hid, hname, hpanes, hz, hsx, hsy, hopt⟩ := unzoomWindow_fields win
  unfold without
  rw [heq]
  generalize unzoomWindow win = u at hid hname hpanes hz hsx hsy hopt
  unfold closedWindow unlistedWindow
  dsimp only
  cases hroot : u.layoutRoot with
  | none =>
      exact ⟨hid, hname, congrArg _ hpanes, rfl, rfl, hz, hsx, hsy, hopt⟩
  | some root => exact ⟨hid, hname, congrArg _ hpanes, rfl, rfl, hz, hsx, hsy, hopt⟩

theorem without_tail (wp : Nat) {win : Window} (h : win.staleTail = none) :
    (without wp win).staleTail = none := by
  unfold without
  rw [(closedWindow_list wp _).tail, (windowLostPane_list _ _ wp).tail]
  exact unlistedWindow_tail ((unzoomWindow_list win).tail.trans h) (unzoomWindow_id win)

/-- The pane that takes over is still listed. -/
theorem without_active {wp : Nat} {win : Window} (h : Ordered win) (hnodup : win.panes.Nodup)
    (hwp : wp ∈ win.panes) (hcount : win.panes.length ≠ 1) :
    (∃ a, (without wp win).active = some a ∧ a ∈ (without wp win).panes) ∧
      ∀ p ∈ (without wp win).lastPanes, p ∈ (without wp win).panes := by
  obtain ⟨-, -, hpanes, -⟩ := without_fields wp win
  obtain ⟨A, B, hAB⟩ := List.append_of_mem hwp
  have haround := hnodup
  rw [hAB] at haround
  rw [hpanes, hAB, filter_around haround]
  obtain ⟨a, ha, hin⟩ := h.active
  -- what stays of the panes that were used before
  have hlast : ∀ p ∈ win.lastPanes.filter (· != wp), p ∈ A ++ B := by
    intro p hp
    obtain ⟨hp, hne⟩ := List.mem_filter.mp hp
    rw [← filter_around haround, List.mem_filter, ← hAB]
    exact ⟨h.last p hp, hne⟩
  have hfields : (without wp win).active =
      (windowLostPane (unlistedWindow win.id wp (unzoomWindow win)) win.panes wp).active ∧
      (without wp win).lastPanes =
        (windowLostPane (unlistedWindow win.id wp (unzoomWindow win)) win.panes wp).lastPanes := by
    unfold without closedWindow
    split <;> exact ⟨rfl, rfl⟩
  have hused : (unlistedWindow win.id wp (unzoomWindow win)).lastPanes = win.lastPanes ∧
      (unlistedWindow win.id wp (unzoomWindow win)).active = win.active := by
    unfold unlistedWindow unzoomWindow
    split <;> exact ⟨rfl, rfl⟩
  rw [hfields.1, hfields.2]
  unfold windowLostPane
  simp only [hused.1, hused.2, ha, Option.some.injEq]
  by_cases haw : a = wp
  · simp only [haw, if_true]
    have hnext : ∃ b, (win.lastPanes.filter (· != wp)).head?.or
        ((paneBefore win.panes wp).or (paneAfter win.panes wp)) = some b ∧ b ∈ A ++ B := by
      cases hhead : (win.lastPanes.filter (· != wp)).head? with
      | some b => exact ⟨b, rfl, hlast b (List.mem_of_mem_head? hhead)⟩
      | none =>
          rw [hAB] at hcount ⊢
          rw [paneBefore_around haround, paneAfter_around haround, Option.none_or]
          cases hbefore : A.getLast? with
          | some b => exact ⟨b, rfl, List.mem_append_left B (List.mem_of_getLast? hbefore)⟩
          | none =>
              cases B with
              | cons b B => exact ⟨b, rfl, by simp⟩
              | nil =>
                  rw [List.getLast?_eq_none_iff.mp hbefore] at hcount
                  exact absurd rfl hcount
    exact ⟨hnext, fun p hp => hlast p (List.mem_of_mem_filter hp)⟩
  · simp only [haw, if_false]
    refine ⟨⟨a, rfl, ?_⟩, hlast⟩
    rw [← filter_around haround, List.mem_filter, ← hAB]
    exact ⟨hin, by simpa using haw⟩

/-- Taking a pane out keeps the cells in order. -/
theorem Ordered.without {wp : Nat} {win : Window} (h : Ordered win) (hnodup : win.panes.Nodup)
    (hwp : wp ∈ win.panes) (hcount : win.panes.length ≠ 1) : Ordered (without wp win) := by
  obtain ⟨hactive, hlast⟩ := without_active h hnodup hwp hcount
  obtain ⟨-, -, hpanes, hroot, -, hz, -⟩ := without_fields wp win
  refine ⟨?_, hactive, hlast⟩
  rw [unzoomWindow_of_not hz, hroot, hpanes, ← hnodup.erase_eq_filter,
    List.map_erase (Option.some_injective Nat), ← h.cells]
  cases (unzoomWindow win).layoutRoot with
  | none => rfl
  | some root => exact closedRoot_panes wp root

/-- A pane's new window has its cell in order. -/
theorem houseWindow_ordered (sv : Server) (wp sequence sx sy : Nat) :
    Ordered (houseWindow sv wp sequence sx sy) :=
  ⟨rfl, ⟨wp, rfl, List.mem_singleton_self wp⟩, fun _ hp => absurd hp List.not_mem_nil⟩

/-- **Breaking a pane out**: its window is without it, the others are as they were,
and the new one has only the pane. -/
theorem breakPane_record {sv : Server} (h : Housed sv) {w wp : Nat} {win : Window}
    (hw : windowFindById sv w = some win) (hwp : wp ∈ win.panes) (sequence : Nat) :
    (∀ x, x < sv.nextWindowId → windowFindById (breakPane sv w wp sequence).1 x =
        if x = w then (windowFindById sv x).map (Logic.without wp) else windowFindById sv x) ∧
      ∃ house, windowFindById (breakPane sv w wp sequence).1 (breakPane sv w wp sequence).2 =
        some house ∧ Ordered house := by
  have hkept : SessionsKept sv (takePane (preserveHistories (windowUnzoom sv w) [wp]) w wp) :=
    ((windowUnzoom_kept sv w).trans (preserveHistories_kept _ _)).trans (takePane_kept _ w wp)
  have hrecord := takePane_record sv w wp
  unfold Recovery.breakPane
  generalize takePane (preserveHistories (windowUnzoom sv w) [wp]) w wp = sv₁ at hkept hrecord ⊢
  have hid : (housePane sv₁ wp sequence).2 = sv₁.nextWindowId := rfl
  obtain ⟨sx, sy, hhouse⟩ := housePane_record sv₁ wp sequence
  refine ⟨fun x hx => ?_, ?_⟩
  · rw [hhouse, if_neg (hx.trans_le hkept.nextWindowId).ne, hrecord, h.owner w win wp hw hwp]
    cases hxw : windowFindById sv x with
    | none => simp
    | some v =>
        obtain rfl := windowFindById_id hxw
        obtain rfl := windowFindById_id hw
        rw [Option.map_some]
        split
        · next he => rw [← he, takenFrom_self, Option.map_some]
        · next hne =>
            have hlist : panesOf sv v.id = some v.panes := by rw [panesOf, hxw, Option.map_some]
            rw [takenFrom_other hne (h.notListed hw hwp hne hlist)]
  · rw [hid, hhouse, if_pos rfl]
    exact ⟨_, rfl, houseWindow_ordered sv₁ wp sequence sx sy⟩

/-! ## Putting it back -/

/-- The windows that a pane neither leaves nor comes into stay as they were. -/
theorem movedBack_elsewhere {panes : List Nat} {item : ClosedItem} {src dstW recoveryW : Nat}
    {win : Window} (hsrc : win.id ≠ src) (hdst : win.id ≠ dstW) (hrec : win.id ≠ recoveryW)
    (hp : item.paneId ∉ win.panes) : movedBack panes item src dstW recoveryW win = win := by
  simp [movedBack, hsrc, hdst, hrec, unlistedWindow_of_notMem hp]

/-- **A pane that is put back**, window by window. -/
theorem paneBack_record {sv : Server} (hok : TreesOk sv) {item : ClosedItem} {src : Pane}
    (hsrc : windowPaneFindById sv item.paneId = some src) {dstS : Session} {dstWl : Winlink}
    {recoveryW v : Window} (hv : windowFindById sv dstWl.window = some v) {text : List Char}
    (htext : item.windowLayout = some text) {lc : LayoutCell} {asked : Option (Nat × Nat)}
    (hread : layoutRead (movedBack (paneList sv item.paneId) item src.window dstWl.window
      recoveryW.id v).panes.length text = .ok (lc, asked)) {x : Nat} (hx : (paneBack sv item dstS dstWl recoveryW).linked x = true)
    (hne : x ≠ recoveryW.id) :
    windowFindById (paneBack sv item dstS dstWl recoveryW) x = (windowFindById sv x).map fun win =>
      if x = dstWl.window then selectedWindow item.activePaneIndex
        (laidWindow lc asked
          (movedBack (paneList sv item.paneId) item src.window dstWl.window recoveryW.id win))
      else movedBack (paneList sv item.paneId) item src.window dstWl.window recoveryW.id win := by
  have hmoved := movePaneBack_record hsrc dstWl.window recoveryW.id
  have hdst : windowFindById (movePaneBack sv item dstWl.window recoveryW.id) dstWl.window =
      some (movedBack (paneList sv item.paneId) item src.window dstWl.window recoveryW.id v) := by
    rw [hmoved, hv, Option.map_some]
  have hrun : Shrink (fun _ => True) (fun _ => True) sv (paneSelected (laidOut (movePaneBack sv item
      dstWl.window recoveryW.id) dstWl.window item.windowLayout) item dstS.id dstWl) :=
    (Shrink.of_kept ((movePaneBack_kept sv item dstWl.window recoveryW.id).trans
      (laidOut_kept _ _ _))).trans (paneSelected_shrink _ item dstWl trivial)
  have htrees := Shrink.treesOk hrun hok
  have hsame : ∀ sv' : Server, windowFindById (paneSelected sv' item dstS.id dstWl) x =
      windowFindById (newmuxSelectPaneIndex sv' dstWl.window item.activePaneIndex) x := by
    intro sv'
    unfold paneSelected serverSessionSelect
    split <;> rfl
  have hselected : windowFindById (paneSelected (laidOut (movePaneBack sv item dstWl.window
      recoveryW.id) dstWl.window item.windowLayout) item dstS.id dstWl) x =
        (windowFindById sv x).map fun win =>
          if x = dstWl.window then selectedWindow item.activePaneIndex
            (laidWindow lc asked
              (movedBack (paneList sv item.paneId) item src.window dstWl.window recoveryW.id win))
          else movedBack (paneList sv item.paneId) item src.window dstWl.window recoveryW.id win := by
    rw [hsame, newmuxSelectPaneIndex_record, htext]
    unfold laidOut
    simp only
    rw [layoutParse_record hdst hread, hmoved]
    split
    · rw [Option.map_map, Option.map_map]
      rfl
    · rfl
  rw [← hselected]
  unfold paneBack at hx ⊢
  rw [finishPaneRestore_eq] at hx ⊢
  split at hx
  · next hempty =>
      rw [if_pos hempty]
      exact (Shrink.windows (killWindow_shrink htrees recoveryW.id true) htrees).survive x hne hx
  · next hfull => rw [if_neg hfull]

/-- The layout that a delete dumps, and what the dump reads as for the same panes. -/
theorem dumped_reads {win : Window} (h : Ordered win) (hlaid : WindowLaid win) {text : List Char}
    (hdump : newmuxDumpWindowLayout win = some text) :
    ∃ root, (unzoomWindow win).layoutRoot = some root ∧ Laid win root ∧
      layoutRead win.panes.length text = .ok (withoutPanes root, askedSize root) ∧
      layoutAssign win.panes (withoutPanes root) = (root, []) := by
  obtain ⟨a, -, hin⟩ := h.active
  obtain ⟨root, hroot⟩ : ∃ root, (unzoomWindow win).layoutRoot = some root := by
    cases hr : (unzoomWindow win).layoutRoot with
    | some root => exact ⟨root, rfl⟩
    | none =>
        have hcells := h.cells
        rw [hr] at hcells
        have hnil : win.panes = [] := List.map_eq_nil_iff.mp hcells.symm
        rw [hnil] at hin
        exact absurd hin List.not_mem_nil
  have hcells : root.panes = win.panes.map some := by
    have := h.cells
    rwa [hroot] at this
  have hrelaid := unzoomWindow_relaid win
  have hlaid' : Laid win root :=
    ((hrelaid.laid hlaid).root root hroot).of_size hrelaid.sx.symm hrelaid.sy.symm
  have hcount : win.panes.length = root.layoutCountCells := by
    rw [← panes_length, hcells, List.length_map]
  have hdump' : layoutDump (some root) = some text := by
    unfold newmuxDumpWindowLayout at hdump
    unfold unzoomWindow at hroot
    cases hz : win.zoomed with
    | true =>
        simp only [hz, if_true] at hroot
        rwa [hroot] at hdump
    | false =>
        simp only [hz, Bool.false_eq_true, if_false] at hroot
        rwa [hlaid.unzoomed hz, hroot] at hdump
  have htext : dumpText root = text := by
    rw [layoutDump_eq] at hdump'
    split at hdump'
    · exact Option.some.inj hdump'
    · cases hdump'
  refine ⟨root, hroot, hlaid', ?_, ?_⟩
  · rw [hcount, ← htext]
    exact layoutRead_same hlaid'.consistent
  · have hassign := layoutAssign_withoutPanes hcells []
    rwa [List.append_nil] at hassign

/-- A listed pane's index finds it. -/
theorem windowPaneIndex_around {win : Window} {A B : List Nat} {wp : Nat}
    (hAB : win.panes = A ++ wp :: B) (hnodup : win.panes.Nodup) :
    windowPaneIndex win wp = some (A.length + win.options.paneBaseIndex) := by
  rw [hAB] at hnodup
  unfold windowPaneIndex
  rw [hAB, idxOf?_around hnodup, Option.map_some]

/-- The index of the pane in use finds it. -/
theorem activeIndex_at {win : Window} (h : Ordered win) (hnodup : win.panes.Nodup) (n : Nat) :
    windowPaneAtIndex win ((win.active.bind (windowPaneIndex win)).getD n) = win.active := by
  obtain ⟨a, ha, hin⟩ := h.active
  obtain ⟨A, B, hAB⟩ := List.append_of_mem hin
  rw [ha, Option.bind_some, windowPaneIndex_around hAB hnodup, Option.getD_some]
  unfold windowPaneAtIndex
  rw [if_neg (by omega), Nat.add_sub_cancel, hAB, List.getElem?_append_right (le_refl _),
    Nat.sub_self, List.getElem?_cons_zero]

/-- Selecting the pane that was in use gives the window its face back. -/
theorem selected_face {win : Window} {idx a : Nat} (hat : windowPaneAtIndex win idx = some a)
    (ha : win.active = some a) (hz : win.zoomed = false) (active : Option Nat) (last : List Nat) :
    face (selectedWindow idx { win with active, lastPanes := last }) = face win := by
  have hat' : windowPaneAtIndex { win with active, lastPanes := last } idx = some a := hat
  have hface : ∀ last, face { win with active := some a, lastPanes := last } = face win := by
    intro last
    have hz' : ({ win with active := some a, lastPanes := last } : Window).zoomed = false := hz
    unfold face
    rw [unzoomWindow_of_not hz', unzoomWindow_of_not hz, ← ha]
  unfold selectedWindow
  rw [hat']
  simp only
  unfold activated
  split
  · next hact =>
      have hact' : active = some a := hact
      rw [hact']
      exact hface last
  · have hz' : ({ win with active, lastPanes := last } : Window).zoomed = false := hz
    rw [unzoomWindow_of_not hz']
    exact hface _

/-- **A pane that was taken out and is put back**: with what the item says, its
window has its face back. -/
theorem pane_trip {win v : Window} (h : Ordered win) (hnodup : win.panes.Nodup)
    (htail : win.staleTail = none) (hlaid : WindowLaid win) {wp : Nat} (hwp : wp ∈ win.panes)
    {text : List Char} (hdump : newmuxDumpWindowLayout win = some text)
    (hface : face v = face (without wp win)) {recoveryW : Nat} (hne : win.id ≠ recoveryW)
    (panes : List Nat) {item : ClosedItem} (hpane : item.paneId = wp)
    (hindex : item.paneIndex = (windowPaneIndex win wp).getD 0)
    (hactive : windowPaneAtIndex win item.activePaneIndex = win.active) :
    (movedBack panes item recoveryW win.id recoveryW v).panes = win.panes ∧
      ∃ lc asked, layoutRead win.panes.length text = .ok (lc, asked) ∧
        face (selectedWindow item.activePaneIndex
          (laidWindow lc asked (movedBack panes item recoveryW win.id recoveryW v))) = face win := by
  subst hpane
  obtain ⟨root, hroot, hlaidRoot, hread, hassign⟩ := dumped_reads h hlaid hdump
  obtain ⟨a, ha, -⟩ := h.active
  obtain ⟨A, B, hAB⟩ := List.append_of_mem hwp
  have haround := hnodup
  rw [hAB] at haround
  have hid : v.id = win.id := by
    rw [← face_id v, hface, face_id, (without_fields item.paneId win).1]
  obtain ⟨hwid, hname, hpanes, -, hsaved, hzoomed, hsx, hsy, hopt⟩ :=
    without_fields item.paneId win
  obtain ⟨huid, huname, hupanes, huz, husx, husy, huopt⟩ := unzoomWindow_fields win
  -- the window as it is when the pane comes back
  have hready := unzoomWindow_face hface
  rw [unzoomWindow_of_not hzoomed] at hready
  have hlist : (unzoomWindow v).panes = A ++ B := by
    rw [hready]
    show (without item.paneId win).panes = A ++ B
    rw [hpanes, hAB, filter_around haround]
  have hnot : item.paneId ∉ (unzoomWindow v).panes := by
    rw [List.nodup_middle, List.nodup_cons] at haround
    rw [hlist]
    exact haround.1
  have hmoved : movedBack panes item recoveryW win.id recoveryW v =
      newmuxInsertPaneAtIndex (unzoomWindow v) item.paneId item.paneIndex := by
    simp [movedBack, hid, hne, unlistedWindow_of_notMem hnot]
  have hvtail : (unzoomWindow v).staleTail = none := by
    rw [(unzoomWindow_list v).tail, ← face_tail v, hface, face_tail]
    exact without_tail item.paneId htail
  have hbase : (unzoomWindow v).options = win.options := by
    rw [hready]
    exact hopt
  have hidx : item.paneIndex = A.length + (unzoomWindow v).options.paneBaseIndex := by
    rw [hindex, windowPaneIndex_around hAB hnodup, Option.getD_some, hbase]
  have hinserted := insertPane_around item.paneId hlist hvtail
  rw [← hidx, ← hmoved] at hinserted
  refine ⟨by rw [hinserted, hAB], withoutPanes root, askedSize root, hread, ?_⟩
  -- only what the pane in use was, and before, is not yet as it was
  have hlaidBack : laidWindow (withoutPanes root) (askedSize root)
      (movedBack panes item recoveryW win.id recoveryW v) =
        { unzoomWindow win with
          active := (unzoomWindow v).active, lastPanes := (unzoomWindow v).lastPanes } := by
    have hsize : (askedSize root).getD (win.sx, win.sy) = (win.sx, win.sy) := by
      cases hask : askedSize root with
      | none => rfl
      | some asked => exact (askedSize_eq hask).trans hlaidRoot.size
    have hfixed : layoutFixOffsets (layoutAssign win.panes (withoutPanes root)).1 = root := by
      rw [hassign]
      exact hlaidRoot.placed
    rw [hinserted, hready]
    unfold laidWindow
    simp only [hsx, hsy, hsize]
    rw [← hAB, hfixed, Window.mk.injEq]
    exact ⟨hwid.trans huid.symm, hname.trans huname.symm, hupanes.symm, rfl, rfl, hroot.symm,
      hsaved, hzoomed.trans huz.symm, husx.symm, husy.symm, hopt.trans huopt.symm,
      (without_tail item.paneId htail).trans ((unzoomWindow_list win).tail.trans htail).symm⟩
  rw [hlaidBack]
  have hat : windowPaneAtIndex (unzoomWindow win) item.activePaneIndex = some a := by
    rw [← ha, ← hactive]
    unfold windowPaneAtIndex
    rw [hupanes, huopt]
  rw [selected_face hat ((unzoomWindow_active win).trans ha) huz, face_unzoom]

/-- Selecting a pane keeps the cells in order. -/
theorem Ordered.select {win : Window} (h : Ordered win) (idx : Nat) :
    Ordered (selectedWindow idx win) := by
  unfold selectedWindow
  split
  · exact h
  · next wp hat =>
      have hwp : wp ∈ win.panes := by
        unfold windowPaneAtIndex at hat
        split at hat
        · cases hat
        · exact List.mem_of_getElem? hat
      unfold activated
      split
      · exact h
      · have hcells : rootPanes (unzoomWindow (unzoomWindow win)).layoutRoot =
            win.panes.map some := by
          rw [unzoomWindow_idem]
          exact h.cells
        rw [unzoomWindow_of_not (unzoomWindow_zoomed win)] at hcells
        have hz : (unzoomWindow win).zoomed = false := unzoomWindow_zoomed win
        refine ⟨?_, ⟨wp, rfl, ?_⟩, fun p hp => ?_⟩
        · rw [unzoomWindow_of_not (by exact hz)]
          show rootPanes (unzoomWindow win).layoutRoot = (unzoomWindow win).panes.map some
          rw [hcells, unzoomWindow_panes]
        · show wp ∈ (unzoomWindow win).panes
          rwa [unzoomWindow_panes]
        · show p ∈ (unzoomWindow win).panes
          simp only [unzoomWindow_lastPanes, unzoomWindow_active] at hp
          rw [unzoomWindow_panes]
          obtain ⟨a, ha, hin⟩ := h.active
          rw [ha] at hp
          rcases List.mem_cons.mp hp with rfl | hp
          · exact hin
          · exact h.last p (List.mem_of_mem_filter (List.mem_of_mem_filter hp))

/-- A pane that comes back under a layout that reads leaves the cells in order. -/
theorem Ordered.back {v : Window} (h : Ordered v) (htail : v.staleTail = none)
    {panes : List Nat} {item : ClosedItem} {recoveryW : Nat} (hne : v.id ≠ recoveryW)
    (hnot : item.paneId ∉ v.panes) {text : List Char} {lc : LayoutCell}
    {asked : Option (Nat × Nat)}
    (hread : layoutRead (movedBack panes item recoveryW v.id recoveryW v).panes.length text =
      .ok (lc, asked)) (idx : Nat) :
    Ordered (selectedWindow idx
      (laidWindow lc asked (movedBack panes item recoveryW v.id recoveryW v))) := by
  -- the pane was not on this list and had no cell here
  have hmoved : movedBack panes item recoveryW v.id recoveryW v =
      newmuxInsertPaneAtIndex (unzoomWindow v) item.paneId item.paneIndex := by
    have hnot' : item.paneId ∉ (unzoomWindow v).panes := by rwa [unzoomWindow_panes]
    simp [movedBack, hne, unlistedWindow_of_notMem hnot']
  rw [hmoved] at hread ⊢
  have htail' : (unzoomWindow v).staleTail = none := (unzoomWindow_list v).tail.trans htail
  obtain ⟨hperm, -⟩ := insertPaneAtIndex_perm htail' item.paneId item.paneIndex
  obtain ⟨-, -, hactive, hzoomed⟩ :=
    insertPaneAtIndex_fields (unzoomWindow v) item.paneId item.paneIndex
  have hlast : (newmuxInsertPaneAtIndex (unzoomWindow v) item.paneId item.paneIndex).lastPanes =
      v.lastPanes := by
    unfold newmuxInsertPaneAtIndex
    split
    · exact unzoomWindow_lastPanes v
    · simp only [insertTail, htail']
      exact unzoomWindow_lastPanes v
  generalize newmuxInsertPaneAtIndex (unzoomWindow v) item.paneId item.paneIndex = u at *
  have hmem : ∀ p ∈ v.panes, p ∈ u.panes := by
    intro p hp
    rw [← unzoomWindow_panes v] at hp
    exact hperm.mem_iff.mpr (List.mem_cons_of_mem _ hp)
  refine Ordered.select ⟨?_, ?_, fun p hp => ?_⟩ idx
  · have hz : (laidWindow lc asked u).zoomed = false := hzoomed.trans (unzoomWindow_zoomed v)
    rw [unzoomWindow_of_not hz]
    show (layoutFixOffsets (layoutAssign u.panes lc).1).panes = u.panes.map some
    rw [layoutFixOffsets_panes, layoutAssign_panes (layoutRead_count hread)]
  · obtain ⟨a, ha, hin⟩ := h.active
    exact ⟨a, hactive.trans ((unzoomWindow_active v).trans ha), hmem a hin⟩
  · have hp' : p ∈ v.lastPanes := hlast ▸ hp
    exact hmem p (h.last p hp')

/-- The layout fits once the pane is back. -/
theorem layoutFits_trip {sv : Server} {win v : Window} (hnodup : win.panes.Nodup)
    (htail : win.staleTail = none) {wp : Nat} (hwp : wp ∈ win.panes)
    (hface : face v = face (without wp win)) (hv : windowFindById sv win.id = some v)
    {item : ClosedItem} (hpane : item.paneId = wp) {text : List Char}
    (htext : item.windowLayout = some text) {lc : LayoutCell} {asked : Option (Nat × Nat)}
    (hread : layoutRead win.panes.length text = .ok (lc, asked)) :
    layoutFits sv item win.id = true := by
  subst hpane
  have hpanes : v.panes = win.panes.filter (· != item.paneId) := by
    rw [← face_panes v, hface, face_panes, (without_fields item.paneId win).2.2.1]
  have hnot : item.paneId ∉ v.panes := by
    rw [hpanes]
    intro hin
    simpa using List.of_mem_filter hin
  have hvtail : v.staleTail = none := by
    rw [← face_tail v, hface, face_tail]
    exact without_tail item.paneId htail
  have hcount : (listedBack item item.recoveryWindowId v).panes.length = win.panes.length := by
    rw [(listedBack_perm hvtail hnot).length_eq, hpanes, ← hnodup.erase_eq_filter,
      List.length_cons, List.length_erase_of_mem hwp]
    have := List.length_pos_of_mem hwp
    omega
  unfold layoutFits
  simp only [htext, hv, hcount, hread]
  rfl

/-! ## Finding it -/

/-- A closed pane is found alone in its recovery window, and its window is found in the
session. -/
theorem findLivePane_found {τ : Server} {item : ClosedItem} {items : List ClosedItem}
    (hp : Parks τ (item :: items)) (hh : Housed τ) (halone : Alone τ item)
    (htype : item.type = .pane) {s₁ : Session}
    (hs₁ : sessionFindById τ item.sessionId = some s₁) (target : Option Nat) {v : Window}
    (hv : windowFindById τ item.windowId = some v) (hin : item.windowId ∈ Session.order s₁) :
    ∃ dstWl recoveryW src, findLivePane τ target item = .ok (s₁, dstWl, recoveryW) ∧
      dstWl.window = item.windowId ∧ recoveryW.id = item.recoveryWindowId ∧
      windowPaneFindById τ item.paneId = some src ∧ src.window = item.recoveryWindowId := by
  obtain ⟨R, hR, hRid, hmem⟩ := hp.mem List.mem_cons_self
  obtain ⟨recoveryW, hrecW, hpanes⟩ := panesOf_eq_some.mp (halone htype)
  have hrid := windowFindById_id hrecW
  obtain ⟨src, hsrc, hsrcW⟩ := Option.map_eq_some_iff.mp
    (hh.owner _ recoveryW item.paneId hrecW (hpanes ▸ List.mem_singleton_self _))
  have hlink : ∀ {s : Session} {w : Nat}, w ∈ Session.order s →
      ∃ wl, winlinkFindByWindow s.windows w = some wl := by
    intro s w hw
    obtain ⟨x, hx, hxw⟩ := List.mem_map.mp hw
    cases hfind : winlinkFindByWindow s.windows w with
    | none => exact absurd hxw (findByWindow_none.mp hfind x hx)
    | some wl => exact ⟨wl, rfl⟩
  obtain ⟨dstWl, hdstWl⟩ := hlink hin
  obtain ⟨recoveryWl, hrecWl⟩ := hlink hmem
  have hdst : newmuxRestoreDestinationSession τ target item = some s₁ := by
    unfold newmuxRestoreDestinationSession
    simp only [hs₁]
  have hfindR : sessionFindById τ item.recoverySessionId = some R := hRid ▸ hR.find
  refine ⟨dstWl, recoveryW, src, ?_, (findByWindow_some hdstWl).2, hrid, hsrc, hsrcW⟩
  unfold findLivePane
  simp only [hdst, hv, Option.bind_some, windowFindById_id hv, hdstWl, hfindR, hrecW, hsrc, hrid,
    hrecWl]

end Newmux.Logic
