import Newmux.Logic.Housing

/-!
# Panes and their cells

Every listed pane belongs to the window that lists it, and the window's layout,
unzoomed, has one cell for it. Moving a pane takes it out of one list and one
tree and puts it into another of each.
-/

namespace Newmux.Logic

open Newmux.Base Newmux.Tmux Newmux.Recovery LayoutCell

/-- The cells of a window's layout, unzoomed, are its panes'. -/
def FullyLaid (win : Window) : Prop :=
  (rootPanes (unzoomWindow win).layoutRoot).Perm (win.panes.map some)

/-- Every pane is listed once, by the window it belongs to, and has its cell
there; the lists end where their tail pointers are. -/
structure Housed (sv : Server) : Prop where
  owner : ∀ x win p, windowFindById sv x = some win → p ∈ win.panes → ownerOf sv p = some x
  nodup : ∀ x win, windowFindById sv x = some win → win.panes.Nodup
  full : ∀ x win, windowFindById sv x = some win → FullyLaid win
  below : ∀ x win, windowFindById sv x = some win → x < sv.nextWindowId
  tail : ∀ x win, windowFindById sv x = some win → win.staleTail = none

theorem unzoomWindow_full {win : Window} (h : FullyLaid win) : FullyLaid (unzoomWindow win) := by
  unfold FullyLaid at h ⊢
  rw [unzoomWindow_idem, unzoomWindow_panes]
  exact h

/-- A pane listed by two windows is listed by one. -/
theorem Housed.unique {sv : Server} (h : Housed sv) {x y : Nat} {win win' : Window} {p : Nat}
    (hx : windowFindById sv x = some win) (hy : windowFindById sv y = some win')
    (hp : p ∈ win.panes) (hp' : p ∈ win'.panes) : x = y := by
  have howner := h.owner x win p hx hp
  rw [h.owner y win' p hy hp'] at howner
  exact (Option.some.inj howner).symm

theorem windowDestroy_owner {sv : Server} {w p : Nat}
    (h : ∀ win, windowFindById sv w = some win → p ∉ win.panes) :
    ownerOf (windowDestroy sv w) p = ownerOf sv p := by
  unfold windowDestroy
  cases hw : windowFindById sv w with
  | none => rfl
  | some win =>
      have hp := h win hw
      simp only
      unfold ownerOf windowPaneFindById Table.find
      rw [List.find?_filter]
      congr 1
      refine List.find?_congr fun wp _ => ?_
      by_cases hkey : key wp = p
      · have hid : wp.id = p := hkey
        simp [hkey, hid, hp]
      · simp [hkey]

theorem housed_stable : Stable Housed := by
  refine ⟨?_, ?_, ?_⟩
  · intro sv sv' hsame h
    have hfind : ∀ x, windowFindById sv' x = windowFindById sv x := by
      intro x
      unfold windowFindById
      rw [hsame.windows]
    refine ⟨fun x win p hx hp => ?_, fun x win hx => ?_, fun x win hx => ?_, fun x win hx => ?_,
      fun x win hx => ?_⟩ <;> rw [hfind] at hx
    · rw [hsame.owner]
      exact h.owner x win p hx hp
    · exact h.nodup x win hx
    · exact h.full x win hx
    · rw [hsame.next]
      exact h.below x win hx
    · exact h.tail x win hx
  · intro sv w h
    -- a window that is destroyed takes no pane of another one with it
    have hfind : ∀ x win, windowFindById (windowDestroy sv w) x = some win →
        x ≠ w ∧ windowFindById sv x = some win := by
      intro x win hx
      rw [windowDestroy_find] at hx
      split at hx
      · cases hx
      · next hne => exact ⟨hne, hx⟩
    refine ⟨fun x win p hx hp => ?_, fun x win hx => ?_, fun x win hx => ?_, fun x win hx => ?_,
      fun x win hx => ?_⟩ <;> obtain ⟨hne, hx⟩ := hfind x win hx
    · rw [windowDestroy_owner fun win' hw hp' => hne (h.unique hx hw hp hp')]
      exact h.owner x win p hx hp
    · exact h.nodup x win hx
    · exact h.full x win hx
    · exact (h.below x win hx).trans_le (windowDestroy_kept sv w).nextWindowId
    · exact h.tail x win hx
  · intro sv w h
    -- unzooming puts the layout of the same list back
    have hfind : ∀ x win', windowFindById (windowUnzoom sv w) x = some win' →
        ∃ win, windowFindById sv x = some win ∧ SameList win' win ∧
          (FullyLaid win → FullyLaid win') := by
      intro x win' hx
      rw [windowUnzoom_record] at hx
      split at hx
      · obtain ⟨win, hw, rfl⟩ := Option.map_eq_some_iff.mp hx
        exact ⟨win, hw, unzoomWindow_list win, unzoomWindow_full⟩
      · exact ⟨win', hx, .refl win', fun h => h⟩
    refine ⟨fun x win' p hx hp => ?_, fun x win' hx => ?_, fun x win' hx => ?_, fun x win' hx => ?_,
      fun x win' hx => ?_⟩ <;> obtain ⟨win, hw, hlist, hfull⟩ := hfind x win' hx
    · rw [windowUnzoom_owner]
      exact h.owner x win p hw (hlist.panes ▸ hp)
    · rw [hlist.panes]
      exact h.nodup x win hw
    · exact hfull (h.full x win hw)
    · exact (h.below x win hw).trans_le (windowUnzoom_kept sv w).nextWindowId
    · exact hlist.tail.trans (h.tail x win hw)

/-! ## Taking a pane out -/

/-- The record of a window whose listed pane is taken out: off the list, and its
cell closed. -/
theorem closed_full {win v : Window} {wp : Nat} (h : FullyLaid win) (hnodup : win.panes.Nodup)
    (hroot : v.layoutRoot = (unzoomWindow win).layoutRoot) (hzoomed : v.zoomed = false)
    (hpanes : v.panes = win.panes.filter (· != wp)) : FullyLaid (closedWindow wp v) := by
  obtain ⟨-, hp, -, hz, hr⟩ := closedWindow_fields wp v
  unfold FullyLaid at h ⊢
  rw [unzoomWindow_of_not (hz.trans hzoomed), hr, hroot, hp, hpanes]
  have herase : rootPanes ((unzoomWindow win).layoutRoot.bind (closedRoot wp)) =
      (rootPanes (unzoomWindow win).layoutRoot).erase (some wp) := by
    cases (unzoomWindow win).layoutRoot with
    | none => rfl
    | some root => exact closedRoot_panes wp root
  have hfilter : (win.panes.filter (· != wp)).map some = (win.panes.map some).erase (some wp) := by
    rw [← hnodup.erase_eq_filter, List.map_erase (Option.some_injective Nat)]
  rw [herase, hfilter]
  exact h.erase (some wp)

theorem unlistPane_owner (sv : Server) (w wp p : Nat) :
    ownerOf (unlistPane sv w wp) p = ownerOf sv p := ownerOf_panes rfl p

/-- A pane that is taken off the list of its own window leaves the tail pointer
where the list ends. -/
theorem unlistedWindow_tail {w wp : Nat} {win : Window} (h : win.staleTail = none)
    (hown : win.id = w) : (unlistedWindow w wp win).staleTail = none := by
  simp only [unlistedWindow, hown, h, if_true, ite_self]

theorem takePane_owner (sv : Server) (w wp p : Nat) :
    ownerOf (takePane sv w wp) p = ownerOf sv p := by
  have hlose : ∀ (sv : Server) (panes : List Nat), (losePane sv w panes wp).panes = sv.panes := by
    intro sv panes
    unfold losePane
    split <;> rfl
  unfold takePane
  simp only
  rw [layoutClosePane_owner, ownerOf_panes (hlose _ _), unlistPane_owner]

/-- **Taking a listed pane out of its window.** The pane itself is then listed
nowhere. -/
theorem Housed.takePane {sv : Server} (h : Housed sv) {w wp : Nat} {win : Window}
    (hw : windowFindById sv w = some win) (hwp : wp ∈ win.panes) :
    Housed (takePane (preserveHistories (windowUnzoom sv w) [wp]) w wp) ∧
      ∀ x win', windowFindById
        (Recovery.takePane (preserveHistories (windowUnzoom sv w) [wp]) w wp) x = some win' →
          wp ∉ win'.panes := by
  have howner := h.owner w win wp hw hwp
  have hown : ∀ p, ownerOf
      (Recovery.takePane (preserveHistories (windowUnzoom sv w) [wp]) w wp) p = ownerOf sv p := by
    intro p
    rw [takePane_owner, (preserveHistories_same _ _).owner, windowUnzoom_owner]
  -- what each window has become
  have hfind : ∀ x win', windowFindById
      (Recovery.takePane (preserveHistories (windowUnzoom sv w) [wp]) w wp) x = some win' →
        ∃ win, windowFindById sv x = some win ∧ win'.panes = win.panes.filter (· != wp) ∧
          FullyLaid win' ∧ win'.staleTail = none := by
    intro x win' hx
    rw [takePane_record, howner] at hx
    obtain ⟨v, hv, rfl⟩ := Option.map_eq_some_iff.mp hx
    have hid := windowFindById_id hv
    refine ⟨v, hv, ?_⟩
    unfold takenFrom
    simp only [Option.some.injEq]
    by_cases hxw : v.id = w
    · have hlost := windowLostPane_fields (unlistedWindow w wp (unzoomWindow v)) v.panes wp
      simp only [hxw, if_true]
      have hpanes : (windowLostPane (unlistedWindow w wp (unzoomWindow v)) v.panes wp).panes =
          v.panes.filter (· != wp) := by
        rw [hlost.2.1]
        unfold unlistedWindow
        rw [unzoomWindow_panes]
      refine ⟨by rw [(closedWindow_fields wp _).2.1, hpanes], ?_, ?_⟩
      · refine closed_full (h.full x v hv) (h.nodup x v hv) ?_ ?_ hpanes
        · rw [hlost.2.2.1]
          rfl
        · rw [hlost.2.2.2]
          exact unzoomWindow_zoomed v
      · rw [(closedWindow_list wp _).tail, (windowLostPane_list _ _ _).tail]
        exact unlistedWindow_tail ((unzoomWindow_list v).tail.trans (h.tail x v hv))
          ((unzoomWindow_id v).trans hxw)
    · have hnot : wp ∉ v.panes := fun hin => hxw (hid.trans (h.unique hv hw hin hwp))
      simp only [if_neg hxw]
      refine ⟨rfl, ?_⟩
      rw [unlistedWindow_of_notMem hnot]
      exact ⟨h.full x v hv, h.tail x v hv⟩
  refine ⟨⟨fun x win' p hx hp => ?_, fun x win' hx => ?_, fun x win' hx => ?_, fun x win' hx => ?_,
    fun x win' hx => ?_⟩, fun x win' hx => ?_⟩ <;>
    obtain ⟨v, hv, hpanes, hfull, htail⟩ := hfind x win' hx
  · rw [hown]
    rw [hpanes] at hp
    exact h.owner x v p hv (List.mem_of_mem_filter hp)
  · rw [hpanes]
    exact (h.nodup x v hv).filter _
  · exact hfull
  · exact (h.below x v hv).trans_le (((windowUnzoom_kept sv w).trans
      (preserveHistories_kept _ _)).trans (takePane_kept _ w wp)).nextWindowId
  · exact htail
  · rw [hpanes]
    intro hin
    simpa using List.of_mem_filter hin

/-! ## A new home -/

theorem housePane_owner (sv : Server) (wp sequence p : Nat) :
    ownerOf (housePane sv wp sequence).1 p =
      if p = wp then (ownerOf sv p).map fun _ => sv.nextWindowId else ownerOf sv p := by
  have hfind : ∀ (sv' : Server), sv'.panes = Table.modify sv.panes wp
      (fun p => { p with window := sv.nextWindowId }) → ownerOf sv' p =
        if p = wp then (ownerOf sv p).map fun _ => sv.nextWindowId else ownerOf sv p := by
    intro sv' hpanes
    unfold ownerOf windowPaneFindById
    rw [hpanes, Table.find_modify]
    · split
      · rw [Option.map_map, Option.map_map]
        rfl
      · rfl
    · exact fun _ h => h
  unfold housePane layoutInit
  simp only
  split
  · exact hfind _ rfl
  · rw [layoutFixPanes_owner]
    exact hfind _ rfl

/-- **Housing a pane that is listed nowhere.** -/
theorem Housed.housePane {sv : Server} (h : Housed sv) {wp src : Nat} (sequence : Nat)
    (hsrc : ownerOf sv wp = some src)
    (hnowhere : ∀ x win, windowFindById sv x = some win → wp ∉ win.panes) :
    Housed (housePane sv wp sequence).1 := by
  obtain ⟨sx, sy, hfind⟩ := housePane_record sv wp sequence
  obtain ⟨-, hlt, -, -⟩ := housePane_panes sv wp sequence
  refine ⟨fun x win p hx hp => ?_, fun x win hx => ?_, fun x win hx => ?_, fun x win hx => ?_,
    fun x win hx => ?_⟩ <;> rw [hfind] at hx <;> split at hx
  · next he =>
      obtain rfl := Option.some.inj hx
      obtain rfl := List.mem_singleton.mp hp
      rw [housePane_owner, if_pos rfl, hsrc, he]
      rfl
  · have hne : p ≠ wp := fun he => hnowhere x win hx (he ▸ hp)
    rw [housePane_owner, if_neg hne]
    exact h.owner x win p hx hp
  · obtain rfl := Option.some.inj hx
    exact List.nodup_singleton wp
  · exact h.nodup x win hx
  · obtain rfl := Option.some.inj hx
    exact List.Perm.refl _
  · exact h.full x win hx
  · next he =>
      rw [he]
      exact hlt
  · exact (h.below x win hx).trans hlt
  · obtain rfl := Option.some.inj hx
    rfl
  · exact h.tail x win hx

/-- **Breaking a listed pane out of its window.** -/
theorem Housed.breakPane {sv : Server} (h : Housed sv) {w wp : Nat} (sequence : Nat) {win : Window}
    (hw : windowFindById sv w = some win) (hwp : wp ∈ win.panes) :
    Housed (breakPane sv w wp sequence).1 := by
  obtain ⟨htaken, hnowhere⟩ := h.takePane hw hwp
  have hsrc : ownerOf (Recovery.takePane (preserveHistories (windowUnzoom sv w) [wp]) w wp) wp =
      some w := by
    rw [takePane_owner, (preserveHistories_same _ _).owner, windowUnzoom_owner]
    exact h.owner w win wp hw hwp
  exact htaken.housePane sequence hsrc hnowhere

theorem Housed.breakLivePane {sv : Server} (h : Housed sv) (item : ClosedItem) {wl : Winlink}
    {wp : Nat} {win : Window} (hw : windowFindById sv wl.window = some win) (hwp : wp ∈ win.panes) :
    Housed (newmuxBreakLivePane sv item wl wp).1 := by
  have hw' : windowFindById (newmuxRecoverySessionGet sv).1 wl.window = some win := by
    unfold newmuxRecoverySessionGet
    split <;> exact hw
  exact housed_stable.breakLivePane item wl wp
    ((housed_stable.recoverySessionGet h).breakPane item.sequence hw' hwp)

/-! ## Moving back -/

/-- The panes a parsed layout has cells for, in order. -/
theorem laidWindow_full {win : Window} {lc : LayoutCell} {asked : Option (Nat × Nat)}
    {text : List Char} (hread : layoutRead win.panes.length text = .ok (lc, asked))
    (hzoomed : win.zoomed = false) : FullyLaid (laidWindow lc asked win) := by
  unfold FullyLaid
  have hz : (laidWindow lc asked win).zoomed = false := hzoomed
  rw [unzoomWindow_of_not hz]
  have hroot : rootPanes (laidWindow lc asked win).layoutRoot = win.panes.map some := by
    change (layoutFixOffsets (layoutAssign win.panes lc).1).panes = _
    rw [layoutFixOffsets_panes, layoutAssign_panes (layoutRead_count hread)]
  rw [hroot]
  exact List.Perm.refl _

/-- The item's pane is alone in its recovery window, which is not the window it
goes back to. -/
structure AtHome (sv : Server) (item : ClosedItem) (dstW recoveryW : Nat) : Prop where
  listed : panesOf sv recoveryW = some [item.paneId]
  apart : dstW ≠ recoveryW

/-- Every window once a pane has moved back: only the destination lists it, and
the others have all their cells. -/
theorem movePaneBack_full {sv : Server} (h : Housed sv) {item : ClosedItem} {dstW recoveryW : Nat}
    (hhome : AtHome sv item dstW recoveryW) {x : Nat} {win' : Window}
    (hx : windowFindById (movePaneBack sv item dstW recoveryW) x = some win') :
    ∃ win, windowFindById sv x = some win ∧
      (x ≠ dstW → win'.panes = win.panes.filter (· != item.paneId) ∧ FullyLaid win' ∧
        win'.staleTail = none) ∧
      (x = dstW → SameList win' (listedBack item recoveryW win) ∧ win'.zoomed = false) := by
  obtain ⟨home, hhomeW, hhomePanes⟩ := panesOf_eq_some.mp hhome.listed
  have hin : item.paneId ∈ home.panes := by
    rw [hhomePanes]
    exact List.mem_singleton_self _
  have howner := h.owner recoveryW home item.paneId hhomeW hin
  obtain ⟨src, hsrc, hsrcW⟩ := Option.map_eq_some_iff.mp howner
  rw [movePaneBack_record hsrc, hsrcW] at hx
  obtain ⟨win, hw, rfl⟩ := Option.map_eq_some_iff.mp hx
  have hid := windowFindById_id hw
  refine ⟨win, hw, fun hne => ?_, fun he => ?_⟩
  · have hne' : ¬ win.id = dstW := fun he => hne (hid.symm.trans he)
    unfold movedBack
    simp only [hne', false_or, if_false]
    by_cases hrec : win.id = recoveryW
    · obtain rfl : win = home := by
        rw [← hid, hrec, hhomeW] at hw
        exact (Option.some.inj hw).symm
      simp only [hrec, if_true]
      have hclosed := closedWindow_fields item.paneId (unzoomWindow win)
      generalize paneList sv item.paneId = panes
      have hlost := windowLostPane_fields (closedWindow item.paneId (unzoomWindow win)) panes
        item.paneId
      have hfull := closed_full (v := { unzoomWindow win with
          panes := win.panes.filter (· != item.paneId) }) (h.full x win hw) (h.nodup x win hw) rfl
        (unzoomWindow_zoomed win) rfl
      have hlist : (unlistedWindow recoveryW item.paneId (windowLostPane
          (closedWindow item.paneId (unzoomWindow win)) panes item.paneId)).panes =
            win.panes.filter (· != item.paneId) := by
        change List.filter _ (windowLostPane _ _ _).panes = _
        rw [hlost.2.1, hclosed.2.1, unzoomWindow_panes]
      have htail : (unlistedWindow recoveryW item.paneId (windowLostPane
          (closedWindow item.paneId (unzoomWindow win)) panes item.paneId)).staleTail = none := by
        refine unlistedWindow_tail ?_ (hlost.1.trans (hclosed.1.trans
          ((unzoomWindow_id win).trans hrec)))
        rw [(windowLostPane_list _ _ _).tail, (closedWindow_list _ _).tail,
          (unzoomWindow_list win).tail]
        exact h.tail x win hw
      refine ⟨hlist, ?_, htail⟩
      -- closing before or after the pane is off the list is the same
      unfold FullyLaid at hfull ⊢
      have hz : (unlistedWindow recoveryW item.paneId (windowLostPane
          (closedWindow item.paneId (unzoomWindow win)) panes item.paneId)).zoomed = false := by
        change (windowLostPane _ _ _).zoomed = false
        rw [hlost.2.2.2, hclosed.2.2.2.1, unzoomWindow_zoomed]
      have hr : (unlistedWindow recoveryW item.paneId (windowLostPane
          (closedWindow item.paneId (unzoomWindow win)) panes item.paneId)).layoutRoot =
            (unzoomWindow win).layoutRoot.bind (closedRoot item.paneId) := by
        change (windowLostPane _ _ _).layoutRoot = _
        rw [hlost.2.2.1, hclosed.2.2.2.2]
      have hclosed' := closedWindow_fields item.paneId { unzoomWindow win with
          panes := win.panes.filter (· != item.paneId) }
      rw [unzoomWindow_of_not (hclosed'.2.2.2.1.trans (unzoomWindow_zoomed win)),
        hclosed'.2.2.2.2, hclosed'.2.1] at hfull
      rw [unzoomWindow_of_not hz, hr, hlist]
      exact hfull
    · simp only [hrec, if_false]
      have hnot : item.paneId ∉ win.panes := fun hin' =>
        hrec (hid.trans (h.unique hw hhomeW hin' hin))
      refine ⟨rfl, ?_⟩
      rw [unlistedWindow_of_notMem hnot]
      exact ⟨h.full x win hw, h.tail x win hw⟩
  · have hdst : win.id = dstW := hid.trans he
    refine ⟨hdst ▸ movedBack_list _ item recoveryW recoveryW win, ?_⟩
    unfold movedBack
    simp only [hdst, true_or, if_true, if_neg hhome.apart]
    obtain ⟨-, -, -, hz⟩ := insertPaneAtIndex_fields
      (unlistedWindow recoveryW item.paneId (unzoomWindow win)) item.paneId item.paneIndex
    exact hz.trans (unzoomWindow_zoomed win)

/-- **Moving a pane back under a layout that fits.** -/
theorem Housed.laidBack {sv : Server} (h : Housed sv) {item : ClosedItem} {dstW recoveryW : Nat}
    (hhome : AtHome sv item dstW recoveryW) {dst : Window}
    (hdst : windowFindById sv dstW = some dst) {text : List Char}
    (htext : item.windowLayout = some text) (hfit : layoutFits sv item dstW = true) :
    Housed (laidOut (movePaneBack sv item dstW recoveryW) dstW item.windowLayout) := by
  obtain ⟨home, hhomeW, hhomePanes⟩ := panesOf_eq_some.mp hhome.listed
  have hin : item.paneId ∈ home.panes := by
    rw [hhomePanes]
    exact List.mem_singleton_self _
  have hpane := h.owner recoveryW home item.paneId hhomeW hin
  have hnot : item.paneId ∉ dst.panes := fun hin' =>
    hhome.apart (h.unique hdst hhomeW hin' hin)
  have hlisted : ∀ r, listedBack item r dst =
      newmuxInsertPaneAtIndex dst item.paneId item.paneIndex := fun r => by
    rw [listedBack, unlistedWindow_of_notMem hnot]
  have hinserted := insertPaneAtIndex_perm (h.tail dstW dst hdst) item.paneId item.paneIndex
  obtain ⟨src, hsrc, hsrcW⟩ := Option.map_eq_some_iff.mp hpane
  obtain ⟨dst', hdst', hlist⟩ : ∃ dst',
      windowFindById (movePaneBack sv item dstW recoveryW) dstW = some dst' ∧
        SameList dst' (newmuxInsertPaneAtIndex dst item.paneId item.paneIndex) := by
    refine ⟨_, by rw [movePaneBack_record hsrc, hdst, Option.map_some], ?_⟩
    have hid := windowFindById_id hdst
    have hmoved := movedBack_list (paneList sv item.paneId) item src.window recoveryW dst
    rwa [hid, hlisted] at hmoved
  have hperm : dst'.panes.Perm (item.paneId :: dst.panes) := hlist.panes ▸ hinserted.1
  -- the layout reads for the panes the window has once the pane is back
  obtain ⟨lc, asked, hread⟩ : ∃ lc asked, layoutRead dst'.panes.length text = .ok (lc, asked) := by
    unfold layoutFits at hfit
    simp only [htext, hdst, hlisted, ← hlist.panes] at hfit
    cases hr : layoutRead dst'.panes.length text with
    | error cause =>
        rw [hr] at hfit
        cases hfit
    | ok r => exact ⟨r.1, r.2, rfl⟩
  rw [htext]
  unfold laidOut
  simp only
  have howner : ∀ p, ownerOf (layoutParse (movePaneBack sv item dstW recoveryW) dstW text).1 p =
      if p = item.paneId then (ownerOf sv p).map fun _ => dstW else ownerOf sv p := by
    intro p
    rw [layoutParse_owner, movePaneBack_owner]
  -- every window, with the one it was
  have hfind : ∀ x win', windowFindById
      (layoutParse (movePaneBack sv item dstW recoveryW) dstW text).1 x = some win' →
        ∃ win, windowFindById sv x = some win ∧ FullyLaid win' ∧ win'.staleTail = none ∧
          (x ≠ dstW → win'.panes = win.panes.filter (· != item.paneId)) ∧
          (x = dstW → win'.panes.Perm (item.paneId :: win.panes)) := by
    intro x win' hx
    rw [layoutParse_record hdst' hread] at hx
    split at hx
    · next he =>
        subst he
        rw [hdst'] at hx
        obtain rfl := Option.some.inj hx
        obtain ⟨win, hw, -, hd⟩ := movePaneBack_full h hhome hdst'
        rw [hdst] at hw
        obtain rfl := Option.some.inj hw
        exact ⟨dst, hdst, laidWindow_full hread (hd rfl).2, hlist.tail.trans hinserted.2,
          fun hne => absurd rfl hne, fun _ => hperm⟩
    · next hne =>
        obtain ⟨win, hw, ho, -⟩ := movePaneBack_full h hhome hx
        obtain ⟨hpanes, hfull, htail⟩ := ho hne
        exact ⟨win, hw, hfull, htail, fun _ => hpanes, fun he => absurd he hne⟩
  refine ⟨fun x win' p hx hp => ?_, fun x win' hx => ?_, fun x win' hx => ?_, fun x win' hx => ?_,
    fun x win' hx => ?_⟩ <;> obtain ⟨win, hw, hfull, htail, hother, hhere⟩ := hfind x win' hx
  · rw [howner]
    by_cases hxd : x = dstW
    · rcases List.mem_cons.mp ((hhere hxd).mem_iff.mp hp) with rfl | hp
      · rw [if_pos rfl, hpane, hxd]
        rfl
      · subst hxd
        rw [hdst] at hw
        obtain rfl := Option.some.inj hw
        rw [if_neg fun he : p = item.paneId => hnot (he ▸ hp)]
        exact h.owner x dst p hdst hp
    · rw [hother hxd] at hp
      obtain ⟨hp, hne⟩ := List.mem_filter.mp hp
      rw [if_neg (by simpa using hne)]
      exact h.owner x win p hw hp
  · by_cases hxd : x = dstW
    · subst hxd
      rw [hdst] at hw
      obtain rfl := Option.some.inj hw
      rw [(hhere rfl).nodup_iff, List.nodup_cons]
      exact ⟨hnot, h.nodup x dst hdst⟩
    · rw [hother hxd]
      exact (h.nodup x win hw).filter _
  · exact hfull
  · exact (h.below x win hw).trans_le ((movePaneBack_kept sv item dstW recoveryW).trans
      (layoutParse_kept _ dstW text)).nextWindowId
  · exact htail

theorem windowSetActivePane_owner (sv : Server) (w wp p : Nat) :
    ownerOf (windowSetActivePane sv w wp) p = ownerOf sv p := by
  unfold windowSetActivePane
  cases windowFindById sv w with
  | none => rfl
  | some win =>
      simp only
      split
      · rfl
      · split
        · exact windowUnzoom_owner sv w p
        · exact (ownerOf_panes rfl p).trans (windowUnzoom_owner sv w p)

theorem newmuxSelectPaneIndex_owner (sv : Server) (w idx p : Nat) :
    ownerOf (newmuxSelectPaneIndex sv w idx) p = ownerOf sv p := by
  unfold newmuxSelectPaneIndex
  split
  · rfl
  · exact windowSetActivePane_owner sv w _ p

/-- Selecting a pane moves none. -/
theorem Housed.select {sv : Server} (h : Housed sv) (w idx : Nat) :
    Housed (newmuxSelectPaneIndex sv w idx) := by
  have hactivated : ∀ (win : Window) (wp : Nat), FullyLaid win → FullyLaid (activated wp win) := by
    intro win wp hfull
    unfold activated
    split
    · exact hfull
    · have hunzoomed := unzoomWindow_full hfull
      unfold FullyLaid at hunzoomed ⊢
      rw [unzoomWindow_idem] at hunzoomed
      have hz : (unzoomWindow win).zoomed = false := unzoomWindow_zoomed win
      rwa [unzoomWindow_of_not (by exact hz)]
  have hfind : ∀ x win', windowFindById (newmuxSelectPaneIndex sv w idx) x = some win' →
      ∃ win, windowFindById sv x = some win ∧ SameList win' win ∧
        (FullyLaid win → FullyLaid win') := by
    intro x win' hx
    rw [newmuxSelectPaneIndex_record] at hx
    split at hx
    · obtain ⟨win, hw, rfl⟩ := Option.map_eq_some_iff.mp hx
      refine ⟨win, hw, selectedWindow_list idx win, fun hfull => ?_⟩
      unfold selectedWindow
      split
      · exact hfull
      · exact hactivated win _ hfull
    · exact ⟨win', hx, .refl win', fun h => h⟩
  refine ⟨fun x win' p hx hp => ?_, fun x win' hx => ?_, fun x win' hx => ?_, fun x win' hx => ?_,
    fun x win' hx => ?_⟩ <;> obtain ⟨win, hw, hlist, hfull⟩ := hfind x win' hx
  · rw [newmuxSelectPaneIndex_owner]
    exact h.owner x win p hw (hlist.panes ▸ hp)
  · rw [hlist.panes]
    exact h.nodup x win hw
  · exact hfull (h.full x win hw)
  · exact (h.below x win hw).trans_le (newmuxSelectPaneIndex_kept sv w idx).nextWindowId
  · exact hlist.tail.trans (h.tail x win hw)

end Newmux.Logic
