import Newmux.Logic.Preserve
import Newmux.Theorems.HistoryRestore

/-!
# Preserving once and twice

What preserving the visible rows makes of a history, and when a second pass over a
pane leaves its grid alone. Each of the two checks looks for its own rows at the end
of the history, where on an alternate screen the other has just put different ones.
-/

namespace Newmux.Theorems

open Newmux.Base Newmux.Tmux Newmux.Recovery Newmux.Logic

/-! ## The history after the visible rows -/

/-- Rows that are not at the end of the history yet are put there. Of the history and
these the last `hlimit` are kept, but when they are exactly `hlimit` the oldest is
collected. -/
theorem preserveVisible_history (s : Screen) (hgd : s.grid.Ok) (hrows : 0 < s.grid.sy)
    (hscroll : s.grid.hscrolled ≤ s.grid.hsize) (hnew : newmuxVisibleGridInHistory s = false) :
    let gd := s.grid
    let gd' := (newmuxPreserveVisibleGrid s).grid
    gd'.visible = gd.visible ∧
      gd'.history = (gd.history ++ gd.visible).rtake
        (if gd.hsize + gd.sy = gd.hlimit then gd.hlimit - 1 else gd.hlimit) ∧
      gd'.hscrolled ≤ gd'.hsize := by
  intro gd gd'
  have hgd : gd.Ok := hgd
  have hgd' : gd' = withHistory gd (Ends.add (lineEqual gd.sx) gd.hlimit gd.visible gd.history) :=
    congrArg Screen.grid (newmuxPreserveVisibleGrid_eq hgd hrows hscroll)
  rw [newmuxVisibleGridInHistory_eq hgd hrows] at hnew
  have hlen : (gd.history ++ gd.visible).length = gd.hsize + gd.sy := by
    rw [List.length_append, hgd.length_history, hgd.length_visible]
  rw [hgd', visible_withHistory, history_withHistory]
  refine ⟨rfl, ?_, Nat.min_le_right ..⟩
  unfold Ends.add
  rw [if_neg (by rw [hnew]; decide), hgd.length_history, hgd.length_visible]
  unfold Ends.kept List.rtake
  rw [hlen]
  congr 1
  split_ifs <;> omega

/-- One line of history, two on the screen. -/
theorem preserveVisible_history_small :
    let gd := gridOf [97] [98, 99] 0
    let gd' := (newmuxPreserveVisibleGrid ⟨gd, none⟩).grid
    gd'.visible = gd.visible ∧
      gd'.history = (gd.history ++ gd.visible).rtake
        (if gd.hsize + gd.sy = gd.hlimit then gd.hlimit - 1 else gd.hlimit) ∧
      gd'.hscrolled ≤ gd'.hsize :=
  preserveVisible_history ⟨gridOf [97] [98, 99] 0, none⟩ (by decide) (by decide) (by decide)
    (by decide)

/-- With room for three lines and three to keep, two are. -/
theorem preserveVisible_drops_line :
    ¬ ∀ s : Screen, s.grid.Ok → 0 < s.grid.sy → s.grid.hscrolled ≤ s.grid.hsize →
      newmuxVisibleGridInHistory s = false →
      let gd := s.grid
      let gd' := (newmuxPreserveVisibleGrid s).grid
      gd'.visible = gd.visible ∧
        gd'.history = (gd.history ++ gd.visible).rtake gd.hlimit ∧
        gd'.hscrolled ≤ gd'.hsize := by
  intro h
  have hkept := (h ⟨{ gridOf [97] [98, 99] 0 with hlimit := 3 }, none⟩ (by decide) (by decide)
    (by decide) (by decide)).2.1
  revert hkept
  decide

/-! ## A second pass -/

/-- When a second pass leaves a screen as the first did. On a normal screen only an
empty history that the screen just fills is in the way; on an alternate one it depends
on which of the visible and the saved rows the history ends with. -/
def PreservedOnce (s : Screen) : Prop :=
  match s.savedGrid with
  | none => s.grid.hsize ≠ 0 ∨ s.grid.hlimit ≠ s.grid.sy ∨ s.grid.sy < 2
  | some saved =>
      Ends.Once (lineEqual s.grid.sx) (lineEqual (max s.grid.sx saved.sx)) s.grid.hlimit
        s.grid.visible (savedLines saved) s.grid.history

/-- What a pass over an alternate screen leaves in the history. -/
def passedRows (gd saved : Grid) (rows : List GridLine) : List GridLine :=
  Ends.add (lineEqual (max gd.sx saved.sx)) gd.hlimit (savedLines saved)
    (Ends.add (lineEqual gd.sx) gd.hlimit gd.visible rows)

theorem visible_ne_nil {s : Screen} (h : Sound s) : s.grid.visible ≠ [] := by
  intro hnil
  have hlen := h.grid.length_visible
  rw [hnil] at hlen
  exact absurd hlen.symm h.rows.ne'

theorem savedLines_ne_nil {s : Screen} (h : Sound s) {saved : Grid}
    (hsaved : s.savedGrid = some saved) : savedLines saved ≠ [] := by
  obtain ⟨hok, hrows⟩ := h.saved saved hsaved
  intro hnil
  have hlen := length_savedLines hok
  rw [hnil] at hlen
  exact absurd hlen.symm hrows.ne'

/-- A pass over a screen, as blocks added to its history. -/
theorem preserve_eq {s : Screen} (h : Sound s) {saved : Grid} (hsaved : s.savedGrid = some saved) :
    ∃ rows, newmuxPreserveAlternateSavedGrid (newmuxPreserveVisibleGrid s) =
        { s with grid := withHistory (withHistory s.grid rows) (passedRows s.grid saved s.grid.history) } ∧
      rows = Ends.add (lineEqual s.grid.sx) s.grid.hlimit s.grid.visible s.grid.history := by
  refine ⟨_, ?_, rfl⟩
  rw [newmuxPreserveVisibleGrid_eq h.grid h.rows h.scrolled]
  generalize hrows : Ends.add (lineEqual s.grid.sx) s.grid.hlimit s.grid.visible s.grid.history = rows
  rw [newmuxPreserveAlternateSavedGrid_eq (h.withHistory rows) hsaved, history_withHistory]
  unfold passedRows
  rw [hrows]
  rfl

/-- A normal screen is left as it is when its history is. -/
theorem preserveVisible_self_iff {s : Screen} (h : Sound s) :
    newmuxPreserveVisibleGrid s = s ↔
      Ends.add (lineEqual s.grid.sx) s.grid.hlimit s.grid.visible s.grid.history = s.grid.history := by
  rw [newmuxPreserveVisibleGrid_eq h.grid h.rows h.scrolled]
  constructor
  · intro heq
    have hhistory := congrArg (fun s => s.grid.history) heq
    dsimp only at hhistory
    rwa [history_withHistory] at hhistory
  · intro heq
    rw [heq, withHistory_history h.grid h.scrolled]

/-- And so is an alternate one. -/
theorem preserve_self_iff {s : Screen} (h : Sound s) {saved : Grid}
    (hsaved : s.savedGrid = some saved) :
    newmuxPreserveAlternateSavedGrid (newmuxPreserveVisibleGrid s) = s ↔
      passedRows s.grid saved s.grid.history = s.grid.history := by
  obtain ⟨rows, hpass, hrows⟩ := preserve_eq h hsaved
  rw [hpass]
  constructor
  · intro heq
    have hhistory := congrArg (fun s => s.grid.history) heq
    dsimp only at hhistory
    rwa [history_withHistory] at hhistory
  · intro heq
    have hle := Ends.length_le_add (visible_ne_nil h) heq
    have hscroll := h.scrolled
    rw [← hrows, h.grid.length_history] at hle
    have hgrid : withHistory (withHistory s.grid rows) s.grid.history = s.grid := by
      rw [withHistory_withHistory, withHistory_history h.grid hscroll, h.grid.length_history,
        min_eq_left (by omega : s.grid.hscrolled ≤ rows.length), min_eq_left hscroll]
    rw [heq, hgrid]

/-- A second pass gives the same pane as the first exactly when `PreservedOnce`. -/
theorem preserve_twice_iff (wp : Pane) (h : Sound wp.base) :
    newmuxPreservePaneHistory (newmuxPreservePaneHistory wp) = newmuxPreservePaneHistory wp ↔
      PreservedOnce wp.base := by
  have hbase : newmuxPreservePaneHistory (newmuxPreservePaneHistory wp) = newmuxPreservePaneHistory wp ↔
      newmuxPreserveAlternateSavedGrid (newmuxPreserveVisibleGrid
        (newmuxPreservePaneHistory wp).base) = (newmuxPreservePaneHistory wp).base := by
    constructor
    · exact congrArg Pane.base
    · intro heq
      exact congrArg (fun base => { wp with base }) heq
  rw [hbase]
  generalize hs : wp.base = s at h ⊢
  have hpane : (newmuxPreservePaneHistory wp).base =
      newmuxPreserveAlternateSavedGrid (newmuxPreserveVisibleGrid s) := by
    rw [← hs]
    rfl
  rw [hpane]
  unfold PreservedOnce
  cases hsaved : s.savedGrid with
  | none =>
      -- without a saved grid a pass adds one block to the history
      have hskip : ∀ {s : Screen}, s.savedGrid = none → newmuxPreserveAlternateSavedGrid s = s := by
        intro s hnone
        unfold newmuxPreserveAlternateSavedGrid
        rw [hnone]
      have hvisible := newmuxPreserveVisibleGrid_eq h.grid h.rows h.scrolled
      generalize hrows : Ends.add (lineEqual s.grid.sx) s.grid.hlimit s.grid.visible
        s.grid.history = rows at hvisible
      have hsound := h.withHistory rows
      rw [hvisible, hskip (s := { s with grid := withHistory s.grid rows }) hsaved]
      generalize hs' : ({ s with grid := withHistory s.grid rows } : Screen) = s' at hsound ⊢
      have hnone' : (newmuxPreserveVisibleGrid s').savedGrid = none := by
        rw [newmuxPreserveVisibleGrid_eq hsound.grid hsound.rows hsound.scrolled, ← hs']
        exact hsaved
      rw [hskip hnone', preserveVisible_self_iff hsound, ← hs']
      dsimp only
      rw [history_withHistory, visible_withHistory]
      show Ends.add (lineEqual s.grid.sx) s.grid.hlimit s.grid.visible rows = rows ↔ _
      rw [← hrows, Ends.add_self_eq_iff (lineEqual_self _) (visible_ne_nil h)]
      have hempty : s.grid.history ≠ [] ↔ s.grid.hsize ≠ 0 := by
        rw [← h.grid.length_history, ne_eq, ne_eq, List.length_eq_zero_iff]
      rw [hempty, h.grid.length_visible]
  | some saved =>
      -- with one it adds two
      obtain ⟨rows, hpass, -⟩ := preserve_eq h hsaved
      have hsound := (h.withHistory rows).withHistory (passedRows s.grid saved s.grid.history)
      rw [hpass, preserve_self_iff hsound hsaved]
      dsimp only
      rw [history_withHistory]
      have hsame : passedRows (withHistory (withHistory s.grid rows)
          (passedRows s.grid saved s.grid.history)) saved = passedRows s.grid saved := by
        unfold passedRows
        rw [visible_withHistory, visible_withHistory]
        rfl
      rw [hsame]
      exact Ends.twice_iff (lineEqual_self _) (lineEqual_self _)
        (fun gl1 gl2 => lineEqual_swap (le_max_left s.grid.sx saved.sx)) (visible_ne_nil h)
        (savedLines_ne_nil h hsaved)

/-- A pane with one row of history, on an alternate screen with one row. -/
def alternatePane (c saved : Nat) : Pane :=
  { paneOf (gridOf [97] [c] 0) with
    base := ⟨gridOf [97] [c] 0, some (gridOf [] [saved] 0)⟩ }

theorem alternatePane_sound (c saved : Nat) : Sound (alternatePane c saved).base := by
  refine ⟨rfl, Nat.one_pos, Nat.zero_le _, ?_⟩
  rintro _ ⟨⟩
  exact ⟨rfl, Nat.one_pos⟩

/-- The same row on both screens. -/
theorem preserve_twice_iff_at_blank :
    newmuxPreservePaneHistory (newmuxPreservePaneHistory (alternatePane 32 32)) =
        newmuxPreservePaneHistory (alternatePane 32 32) ↔
      PreservedOnce (alternatePane 32 32).base :=
  preserve_twice_iff (alternatePane 32 32) (alternatePane_sound 32 32)

/-- With other rows on the alternate screen than under it, each pass adds both again. -/
theorem preserve_twice_grows :
    ¬ ∀ wp : Pane, Sound wp.base →
      newmuxPreservePaneHistory (newmuxPreservePaneHistory wp) = newmuxPreservePaneHistory wp := by
  intro h
  have hagain := congrArg (fun wp => wp.base.grid.hsize) (h _ (alternatePane_sound 98 99))
  revert hagain
  decide

end Newmux.Theorems
