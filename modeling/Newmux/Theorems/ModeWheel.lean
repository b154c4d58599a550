import Newmux.Theorems.Viewport
import Newmux.Theorems.WheelAccount

/-!
# The wheel of the mode

The engine's account is that of the mode itself: output, resizes, the mouse and the
commands that move, select and copy leave the engine alone, and what a wheel event or
the timer does to it is a step of the account. So in every run of the mode what is
pending has its timer.
-/

namespace Newmux.Live

open Newmux.Base Newmux.Tmux

namespace CopyMode

variable {e : CopyEnv} {u : Utf8} {d d' : CopyMode}

/-! ## Moves -/

theorem Moves.refl (d : CopyMode) : Moves d d := ⟨rfl, rfl, rfl⟩

theorem moves_refreshMarks (e : CopyEnv) (d : CopyMode) : Moves d (d.refreshMarks e) := by
  unfold refreshMarks
  split <;> exact ⟨rfl, rfl, rfl⟩

theorem moves_keepColumn (d : CopyMode) : Moves d d.keepColumn := by
  obtain ⟨lastcx, lastsx, heq⟩ := keepColumn_eq d
  rw [heq]
  exact ⟨rfl, rfl, rfl⟩

/-- The end of a page move, of `history-top` and of `history-bottom`. -/
theorem moves_refreshed (e : CopyEnv) (d : CopyMode) (noReset : Bool) :
    Moves d ((d.refreshMarks e).updateSelection noReset) :=
  (moves_refreshMarks e d).trans (moves_updateSelection _ _)

theorem moves_settlePage (e : CopyEnv) (d : CopyMode) : Moves d (d.settlePage e) := by
  unfold settlePage
  split
  · exact moves_acquireCursorDown _ _ _ _ _
  · exact .refl d

theorem moves_pageUp (e : CopyEnv) (d : CopyMode) (half : Bool) : Moves d (d.pageUp e half) := by
  unfold pageUp
  extract_lets kept n moved
  have hmoved : Moves kept moved := by
    show Moves kept (if _ then _ else _)
    split <;> exact ⟨rfl, rfl, rfl⟩
  exact (((moves_keepColumn d).trans hmoved).trans (moves_settlePage e moved)).trans
    (moves_refreshed e _ _)

theorem moves_pageDown {half scrollExit : Bool} (h : d.pageDown e half scrollExit = some d') :
    Moves d d' := by
  unfold pageDown at h
  extract_lets kept n moved settled at h
  have hmoved : Moves kept moved := by
    show Moves kept (if _ then _ else _)
    split <;> exact ⟨rfl, rfl, rfl⟩
  split at h
  · cases h
  · cases h
    exact (((moves_keepColumn d).trans hmoved).trans (moves_settlePage e moved)).trans
      (moves_refreshed e _ _)

/-- A command that first switches the ends of the selection when it leaves its line. -/
theorem moves_beforeMove (e : CopyEnv) (d : CopyMode) (p : Prop) [Decidable p] :
    Moves d (if p then d.otherEnd e else d) := by
  split
  · exact moves_otherEnd e d
  · exact .refl d

theorem moves_historyTop (e : CopyEnv) (d : CopyMode) : Moves d (d.historyTop e) := by
  unfold historyTop
  extract_lets d1
  have hturned : Moves d d1 := moves_beforeMove e d _
  refine .trans ?_ (moves_refreshed e _ _)
  exact ⟨hturned.backing, hturned.sy, hturned.wheel⟩

theorem moves_historyBottom (e : CopyEnv) (d : CopyMode) : Moves d (d.historyBottom e) := by
  unfold historyBottom
  extract_lets d1
  have hturned : Moves d d1 := moves_beforeMove e d _
  refine .trans ?_ (moves_refreshed e _ _)
  exact ⟨hturned.backing, hturned.sy, hturned.wheel⟩

theorem moves_cursorUp (e : CopyEnv) (d : CopyMode) : Moves d (d.cursorUp e) := by
  unfold cursorUp
  extract_lets norectsel row d1 d2 cx d3
  have hkept : Moves d d1 := by
    show Moves d (if _ then _ else _)
    split
    · exact moves_keepColumn d
    · exact .refl d
  have hturned : Moves d d2 := hkept.trans (moves_beforeMove e d1 _)
  refine .trans ?_ (moves_settle _ _ _)
  show Moves d (if d2.cy = 0 then _ else _)
  split
  · refine .trans ?_ (moves_scrollDown _ _ _)
    exact ⟨hturned.backing, hturned.sy, hturned.wheel⟩
  · exact hturned.trans (moves_moveTo _ _ _ _ _)

/-! ## Selecting -/

theorem moves_setSelection (d : CopyMode) (noReset : Bool) : Moves d (d.setSelection noReset) := by
  obtain ⟨sel, selx, sely, endselx, endsely, heq, -⟩ := setSelection_eq d noReset
  rw [heq]
  exact ⟨rfl, rfl, rfl⟩

theorem moves_clearSelection (e : CopyEnv) (d : CopyMode) : Moves d (d.clearSelection e) := by
  unfold clearSelection
  dsimp only
  split <;> exact ⟨rfl, rfl, rfl⟩

theorem moves_beginSelection (d : CopyMode) : Moves d d.beginSelection := by
  refine .trans ?_ (moves_startSelection _)
  exact ⟨rfl, rfl, rfl⟩

theorem moves_selectFirstLine (e : CopyEnv) (d : CopyMode) : Moves d (d.selectFirstLine e) := by
  unfold selectFirstLine
  extract_lets d1 d2
  have hstart : Moves d d1 := by
    refine .trans ?_ (moves_acquireCursorUp _ _ _ _)
    exact ⟨rfl, rfl, rfl⟩
  have hend : Moves d1 d2 := by
    refine .trans (.trans ?_ (moves_startSelection _)) (moves_acquireCursorDown _ _ _ _ _)
    exact ⟨rfl, rfl, rfl⟩
  have hboth := hstart.trans hend
  exact ⟨hboth.backing, hboth.sy, hboth.wheel⟩

theorem moves_downLines (e : CopyEnv) (n : Nat) (d : CopyMode) : Moves d (downLines e n d) := by
  induction n generalizing d with
  | zero => exact .refl d
  | succ n ih =>
      exact ((moves_cursorDown e d).trans (moves_acquireCursorDown _ _ _ _ _)).trans (ih _)

theorem moves_selectLine (e : CopyEnv) (d : CopyMode) (np : Nat) : Moves d (d.selectLine e np) :=
  (moves_selectFirstLine e d).trans (moves_downLines e _ _)

theorem moves_rectangleSet (e : CopyEnv) (d : CopyMode) (rectflag : Bool) :
    Moves d (d.rectangleSet e rectflag) := by
  unfold rectangleSet
  extract_lets d1 px
  refine .trans ?_ (moves_updateSelection _ _)
  split <;> exact ⟨rfl, rfl, rfl⟩

theorem moves_otherEndCommand (e : CopyEnv) (d : CopyMode) : Moves d (d.otherEndCommand e) := by
  refine .trans ?_ (moves_otherEnd _ _)
  exact ⟨rfl, rfl, rfl⟩

theorem moves_restoreCursor {selected : CopyMode} (h : Moves d selected) :
    Moves d (restoreCursor e d selected) := by
  have hcleared := h.trans (moves_clearSelection e selected)
  exact ⟨hcleared.backing, hcleared.sy, hcleared.wheel⟩

/-! ## The mouse -/

theorem moves_moveMouse (e : CopyEnv) (d : CopyMode) (m : Mouse) : Moves d (d.moveMouse e m) := by
  unfold moveMouse
  split <;> exact ⟨rfl, rfl, rfl⟩

theorem moves_nativeSelectionSync (d : CopyMode) : Moves d d.nativeSelectionSync := by
  refine .trans ?_ (moves_setSelection _ _)
  exact ⟨rfl, rfl, rfl⟩

theorem moves_nativeEnd (d : CopyMode) (x : Nat) : Moves d (d.nativeEnd x) := by
  refine .trans ?_ (moves_nativeSelectionSync _)
  exact ⟨rfl, rfl, rfl⟩

/-- A drag in the margin scrolls. -/
theorem moves_dragUpdate (e : CopyEnv) (d : CopyMode) (m : Mouse) : Moves d (d.dragUpdate e m) := by
  unfold dragUpdate
  split
  · exact ⟨rfl, rfl, rfl⟩
  · rename_i x y hat
    extract_lets x' d1 d2
    split
    · refine .trans ?_ (moves_nativeEnd _ _)
      show Moves d (if _ then _ else if _ then _ else _)
      split
      · refine .trans ?_ (moves_scrollDown _ _ _)
        exact ⟨rfl, rfl, rfl⟩
      · split
        · refine .trans ?_ (moves_scrollUp _ _ _)
          exact ⟨rfl, rfl, rfl⟩
        · exact ⟨rfl, rfl, rfl⟩
    · have hmoved : Moves d d2 := moves_moveTo _ _ _ _ _
      split
      · split
        · exact hmoved.trans (moves_scrollDown _ _ _)
        · split
          · exact hmoved.trans (moves_scrollUp _ _ _)
          · exact hmoved
      · exact hmoved

theorem moves_startDrag (e : CopyEnv) (d : CopyMode) (last m : Mouse) :
    Moves d (d.startDrag e last m) := by
  unfold startDrag
  split
  · exact .refl d
  · extract_lets x'
    refine .trans (.trans ?_ (moves_nativeSelectionSync _)) (moves_dragUpdate _ _ _)
    exact ⟨rfl, rfl, rfl⟩

theorem moves_dragRelease (e : CopyEnv) (d : CopyMode) (m : Mouse) :
    Moves d (d.dragRelease e m) := by
  unfold dragRelease
  split
  · exact ⟨rfl, rfl, rfl⟩
  · split
    · exact moves_dragUpdate e d m
    · exact .refl d

theorem moves_scrollTimer (e : CopyEnv) (d : CopyMode) : Moves d (d.scrollTimer e) := by
  unfold scrollTimer
  split
  · refine .trans ?_ (moves_nativeEnd _ _)
    split
    · exact moves_scrollDown _ _ _
    · exact moves_scrollUp _ _ _
  · split
    · exact moves_scrollDown _ _ _
    · split
      · exact moves_scrollUp _ _ _
      · exact .refl d

/-! ## Output and resizes -/

theorem wheel_output (e : CopyEnv) (u : Utf8) (d : CopyMode) (ops : List WriteOp) :
    (d.output e u ops).wheel = d.wheel := by
  have hcursor : ∀ d : CopyMode, d.followedCursor.wheel = d.wheel := by
    intro d
    unfold followedCursor
    split <;> rfl
  unfold output update
  extract_lets followed
  split
  · exact hcursor _
  · exact (moves_refreshed e _ _).wheel.trans (hcursor _)

theorem wheel_resize (e : CopyEnv) (d : CopyMode) (s : Screen) :
    (d.resize e s).wheel = d.wheel := by
  have hchanged : ∀ d : CopyMode, (d.sizeChanged e).wheel = d.wheel := by
    intro d
    unfold sizeChanged
    extract_lets cleared d1
    show d1.wheel = d.wheel
    have hcleared : cleared.wheel = d.wheel := (moves_clearSelection e d).wheel
    show (if _ then _ else _ : CopyMode).wheel = d.wheel
    split
    · exact hcleared
    · exact hcleared
  unfold resize
  extract_lets oy d1 d2
  refine (hchanged d2).trans ?_
  show (if _ then _ else _ : CopyMode).wheel = d.wheel
  split <;> rfl

/-! ## Steps -/

/-- The step of the engine that a step of the mode makes, if it makes one. -/
def wheelStep (d : CopyMode) : CopyOp → WheelOp → Prop
  | .scroll _ (some m) _ now, op => op = .event d.sel m now
  | .wheelTimer now, op => ∃ moved, op = .timer d.sel moved now
  | _, _ => False

/-- With the smooth engine a step of the mode is a step of its wheel, or leaves the
wheel alone. -/
theorem exec_wheel (hsmooth : e.singleLine = false) {op : CopyOp}
    (hexec : d.exec e u op = some d') :
    d'.wheel = d.wheel ∨ ∃ wop, d.wheelStep op wop ∧ d'.wheel = (d.wheel.exec wop).2 := by
  cases op with
  | output ops =>
      cases hexec
      exact .inl (wheel_output e u d ops)
  | resize s =>
      cases hexec
      exact .inl (wheel_resize e d s)
  | scroll up m repeats now =>
      unfold CopyMode.exec at hexec
      dsimp only at hexec
      split at hexec
      · cases hexec
      · cases hexec
        rename_i heq
        cases m with
        | none =>
            have hnone := wheel_cmdScroll e d up none repeats now
            rw [heq] at hnone
            exact .inl hnone
        | some m =>
            refine .inr ⟨_, rfl, ?_⟩
            have hevent := cmdScroll_wheel (d := d) hsmooth up m repeats now
            rw [heq] at hevent
            exact hevent
  | wheelTimer now =>
      obtain ⟨moved, hwheel⟩ := wheelTimer_wheel hexec
      exact .inr ⟨_, ⟨moved, rfl⟩, hwheel⟩
  | pageUp half =>
      cases hexec
      exact .inl (moves_pageUp e d half).wheel
  | pageDown half cancel => exact .inl (moves_pageDown hexec).wheel
  | historyTop =>
      cases hexec
      exact .inl (moves_historyTop e d).wheel
  | historyBottom =>
      cases hexec
      exact .inl (moves_historyBottom e d).wheel
  | cursorUp =>
      cases hexec
      exact .inl (moves_cursorUp e d).wheel
  | cursorDown =>
      cases hexec
      exact .inl (moves_cursorDown e d).wheel
  | startOfLine =>
      cases hexec
      exact .inl (moves_acquireCursorUp _ _ _ _).wheel
  | endOfLine =>
      cases hexec
      exact .inl (moves_acquireCursorDown _ _ _ _ _).wheel
  | beginSelection =>
      cases hexec
      exact .inl (moves_beginSelection d).wheel
  | selectLine np =>
      cases hexec
      exact .inl (moves_selectLine e d np).wheel
  | stopSelection =>
      cases hexec
      exact .inl rfl
  | clearSelection =>
      cases hexec
      exact .inl (moves_clearSelection e d).wheel
  | rectangle on =>
      cases hexec
      exact .inl (moves_rectangleSet e d on).wheel
  | otherEnd =>
      cases hexec
      exact .inl (moves_otherEndCommand e d).wheel
  | startDrag last m =>
      cases hexec
      exact .inl (moves_startDrag e d last m).wheel
  | dragUpdate m =>
      cases hexec
      exact .inl (moves_dragUpdate e d m).wheel
  | dragRelease m =>
      cases hexec
      exact .inl (moves_dragRelease e d m).wheel
  | scrollTimer =>
      cases hexec
      exact .inl (moves_scrollTimer e d).wheel
  | moveMouse m =>
      cases hexec
      exact .inl (moves_moveMouse e d m).wheel
  | copySelection clear =>
      cases hexec
      refine .inl ?_
      split
      · exact (moves_clearSelection e d).wheel
      · rfl
  | copyEndOfLine np =>
      cases hexec
      exact .inl (moves_restoreCursor (moves_selectToEnd e d np)).wheel
  | copyLine np =>
      cases hexec
      exact .inl (moves_restoreCursor (moves_selectWholeLine e d np)).wheel

/-! ## Runs -/

/-- The timer fires when it is set. -/
def FiresSet (d : CopyMode) : CopyOp → Prop
  | .wheelTimer _ => d.wheel.timer.isSome = true
  | _ => True

/-- The mode on top of its pane, with the engine of the account. -/
def SameWheel (d : CopyMode) (a : Account) : Prop := a.covered = false ∧ a.wheel = d.wheel

/-- A step of the account on top of the pane is one of the engine. -/
theorem SameWheel.exec {a : Account} (h : SameWheel d a) {wop : WheelOp}
    (hwheel : d'.wheel = (d.wheel.exec wop).2) : SameWheel d' (a.exec (.wheel wop)) := by
  have hrecord : a.exec (.wheel wop) = a.record wop := by
    cases wop with
    | event sel m now => exact if_neg (by simp [h.1])
    | timer sel moved now => exact if_neg (by simp [h.1])
  rw [hrecord]
  refine ⟨(a.record_covered wop).trans h.1, (a.record_wheel wop).trans ?_⟩
  rw [h.2, hwheel]

/-- A run of the mode with the smooth engine is a run of its account. -/
theorem mode_simulates_account (u : Utf8) (hsmooth : e.singleLine = false) :
    (system e u).Simulates Account.system FiresSet Account.KeepsTimer SameWheel where
  init := by
    rintro _ ⟨base, hidePosition, scrollExit, lineNumbers, -, rfl⟩
    exact ⟨Account.initial, rfl, rfl, rfl⟩
  step := by
    rintro d op d' a h hfires ⟨-, hexec⟩
    obtain hsame | ⟨wop, hstep, hwheel⟩ := exec_wheel hsmooth hexec
    · exact .inl ⟨h.1, h.2.trans hsame.symm⟩
    · refine .inr ⟨.wheel wop, _, ?_, ⟨?_, rfl⟩, h.exec hwheel⟩
      · cases wop with
        | event sel m now => trivial
        | timer sel moved now => exact h.1
      · rintro sel moved now hop
        cases hop
        cases op with
        | wheelTimer now' =>
            rw [h.2]
            exact hfires
        | scroll up m repeats now' =>
            cases m with
            | none => cases hstep
            | some m => cases hstep
        | _ => cases hstep

/-- **What is pending has its timer** in every run of the mode with the smooth engine,
whatever is selected, printed or resized in between, and it never wraps. -/
theorem pending_has_timer (hsmooth : e.singleLine = false)
    (hreach : (system e u).ReachableWith FiresSet d) :
    d.wheel.pendingMilli ≤ uintMax ∧
      (1000 ≤ d.wheel.pendingMilli → d.wheel.timer.isSome = true) := by
  obtain ⟨a, ha, -, hwheel⟩ := (mode_simulates_account u hsmooth).reachable hreach
  have hbalanced := Account.balanced_inductive.invariant ha
  rw [← hwheel]
  exact ⟨hbalanced.bound, hbalanced.armed⟩

end CopyMode

end Newmux.Live
