import Newmux.Live.CopyUpdate
import Newmux.Logic.Writes

/-!
# The view after output

`window_copy_update` sees only the size the history had and the size it has. What
it makes of the two, by row and by name of line, and the parts of the mode that
following output leaves alone.
-/

namespace Newmux.Live

open Newmux.Tmux

namespace Screen

variable {s : Screen}

theorem writes_foldl (hok : s.Ok) (u : Utf8) (ops : List WriteOp) :
    Writes Set.univ s (ops.foldl (write u) s) := by
  induction ops generalizing s with
  | nil => exact .refl hok
  | cons op ops ih =>
      have hstep := (writes_write hok u op).mono (Set.subset_univ _)
      exact hstep.trans (ih hstep.ok)

/-- A chunk of output, whatever rows it misses to mark. -/
theorem writes_writeAll (hok : s.Ok) (u : Utf8) (ops : List WriteOp) :
    Writes Set.univ s (s.writeAll u ops) := by
  have hops := writes_foldl hok u ops
  exact hops.trans ((writes_collectEnd hops.ok).mono (Set.subset_univ _))

end Screen

namespace CopyMode

variable {e : CopyEnv} {u : Utf8} {d : CopyMode}

/-! ## What stays -/

/-- The rows a selection is made of are rows of a grid of `t` rows: those of its
ends, of the cursor, and of the line it grows by. -/
structure RowsBelow (d : CopyMode) (t : Nat) : Prop where
  sely : d.sely < t
  endsely : d.endsely < t
  cursor : d.row d.cy < t
  line : d.selflag = .line → d.selry < t ∧ d.endselry < t

/-- Only the ends of the selection, and these stay on the grid. -/
theorem synchronizeCursorEnd_eq (d : CopyMode) (begin noReset : Bool) :
    ∃ selx sely endselx endsely,
      d.synchronizeCursorEnd begin noReset = { d with selx, sely, endselx, endsely } ∧
        ∀ t, d.RowsBelow t → sely < t ∧ endsely < t := by
  unfold synchronizeCursorEnd
  extract_lets xx yy set yy'
  split
  · rename_i hline
    split
    · refine ⟨_, _, _, _, rfl, ?_⟩
      intro t h
      exact ⟨h.cursor, (h.line hline.1).2⟩
    · refine ⟨_, _, _, _, rfl, ?_⟩
      intro t h
      have hrows := h.line hline.1
      refine ⟨hrows.1, ?_⟩
      show (if yy < d.endselry then d.endselry else yy) < t
      split
      · exact hrows.2
      · exact h.cursor
  · cases begin
    · exact ⟨_, _, _, _, rfl, fun t h => ⟨h.sely, h.cursor⟩⟩
    · exact ⟨_, _, _, _, rfl, fun t h => ⟨h.cursor, h.endsely⟩⟩

/-- Only the ends of the selection and whether it shows. -/
theorem setSelection_eq (d : CopyMode) (noReset : Bool) :
    ∃ sel selx sely endselx endsely,
      d.setSelection noReset = { d with sel, selx, sely, endselx, endsely } ∧
        ∀ t, d.RowsBelow t → sely < t ∧ endsely < t := by
  have hsync : ∃ selx sely endselx endsely,
      (if d.nativeSelActive then d else d.synchronizeCursor noReset) =
          { d with selx, sely, endselx, endsely } ∧
        ∀ t, d.RowsBelow t → sely < t ∧ endsely < t := by
    split
    · exact ⟨_, _, _, _, rfl, fun t h => ⟨h.sely, h.endsely⟩⟩
    · unfold synchronizeCursor
      split
      · exact synchronizeCursorEnd_eq d _ _
      · exact synchronizeCursorEnd_eq d _ _
      · exact ⟨_, _, _, _, rfl, fun t h => ⟨h.sely, h.endsely⟩⟩
  obtain ⟨selx, sely, endselx, endsely, heq, hrows⟩ := hsync
  unfold setSelection
  rw [heq]
  dsimp only
  split
  · exact ⟨_, _, _, _, _, rfl, hrows⟩
  · exact ⟨_, _, _, _, _, rfl, hrows⟩

theorem updateSelection_eq (d : CopyMode) (noReset : Bool) :
    ∃ sel selx sely endselx endsely,
      d.updateSelection noReset = { d with sel, selx, sely, endselx, endsely } ∧
        (∀ t, d.RowsBelow t → sely < t ∧ endsely < t) ∧
        (d.hasLogicalSelection = false → sel = d.sel) := by
  unfold updateSelection
  split
  · exact ⟨_, _, _, _, _, rfl, fun t h => ⟨h.sely, h.endsely⟩, fun _ => rfl⟩
  · rename_i hlogical
    have hlogical : ¬ d.hasLogicalSelection = false := by simpa using hlogical
    split
    · exact ⟨_, _, _, _, _, rfl, fun t h => ⟨h.sely, h.endsely⟩, fun h => absurd h hlogical⟩
    · obtain ⟨sel, selx, sely, endselx, endsely, heq, hrows⟩ := setSelection_eq d noReset
      exact ⟨sel, selx, sely, endselx, endsely, heq, hrows, fun h => absurd h hlogical⟩

theorem refreshMarks_eq (e : CopyEnv) (d : CopyMode) :
    ∃ search, d.refreshMarks e = { d with search } := by
  unfold refreshMarks
  split <;> exact ⟨_, rfl⟩

theorem followedCursor_eq (d : CopyMode) :
    ∃ cx cy lastcx lastsx, d.followedCursor = { d with cx, cy, lastcx, lastsx } := by
  unfold followedCursor
  split <;> exact ⟨_, _, _, _, rfl⟩

/-- After a refresh of the marks and of the selection. -/
theorem refreshed_eq (e : CopyEnv) (d : CopyMode) (noReset : Bool) :
    ∃ search sel selx sely endselx endsely,
      (d.refreshMarks e).updateSelection noReset =
        { d with search, sel, selx, sely, endselx, endsely } := by
  obtain ⟨search, hmarks⟩ := refreshMarks_eq e d
  obtain ⟨sel, selx, sely, endselx, endsely, hsel, -⟩ :=
    updateSelection_eq { d with search } noReset
  exact ⟨search, sel, selx, sely, endselx, endsely, by rw [hmarks, hsel]⟩

/-! ## The view -/

/-- A mode between two events: its view reaches no further back than the
history, whose size it knows. -/
structure Ok (d : CopyMode) : Prop where
  screen : d.backing.Ok
  live : d.liveHsize = d.hsize
  oy : d.oy ≤ d.hsize

instance (d : CopyMode) : Decidable d.Ok :=
  decidable_of_iff (d.backing.Ok ∧ d.liveHsize = d.hsize ∧ d.oy ≤ d.hsize)
    ⟨fun ⟨h1, h2, h3⟩ => ⟨h1, h2, h3⟩, fun h => ⟨h.screen, h.live, h.oy⟩⟩

theorem usub_of_le {a b : Nat} (h : b ≤ a) : usub a b = a - b := if_pos h

theorem top_of_le (h : d.oy ≤ d.hsize) : d.top = d.hsize - d.oy := usub_of_le h

theorem followedOy_le (d : CopyMode) : d.followedOy ≤ d.hsize := by
  unfold followedOy
  dsimp only
  split_ifs <;> omega

/-- A view at the live screen stays there. -/
theorem followedOy_zero (h : d.oy = 0) : d.followedOy = 0 := by
  unfold followedOy
  dsimp only
  split_ifs <;> omega

/-- The top of a view that is scrolled back stays the row it was, as far as the
history still has it. -/
theorem followed_top (h : d.oy ≤ d.liveHsize) (hback : d.oy ≠ 0) :
    d.hsize - d.followedOy = min (d.liveHsize - d.oy) d.hsize := by
  unfold followedOy
  dsimp only
  split_ifs <;> omega

/-- The view after `window_copy_update`; the grid is as output left it. -/
theorem update_view (e : CopyEnv) (d : CopyMode) :
    (d.update e).1.oy = d.followedOy ∧ (d.update e).1.liveHsize = d.hsize ∧
      (d.update e).1.backing.grid = d.backing.grid ∧
      (d.backing.Ok → (d.update e).1.backing.Ok) := by
  obtain ⟨cx, cy, lastcx, lastsx, hcursor⟩ :=
    followedCursor_eq { d with oy := d.followedOy, liveHsize := d.hsize }
  unfold update
  rw [hcursor]
  dsimp only
  split
  · exact ⟨rfl, rfl, rfl, fun hok => ⟨hok.grid, hok.cy, hok.region, hok.lower, hok.size⟩⟩
  · obtain ⟨search, sel, selx, sely, endselx, endsely, heq⟩ := refreshed_eq e
      { d with oy := d.followedOy, liveHsize := d.hsize, cx, cy, lastcx, lastsx } false
    rw [heq]
    exact ⟨rfl, rfl, rfl, id⟩

section Output

variable (hok : d.Ok) (ops : List WriteOp)

theorem output_grid (e : CopyEnv) (u : Utf8) (d : CopyMode) (ops : List WriteOp) :
    (d.output e u ops).backing.grid = (d.backing.writeAll u ops).grid :=
  (update_view e { d with backing := d.backing.writeAll u ops }).2.2.1

include hok

theorem Ok.output (e : CopyEnv) (u : Utf8) : (d.output e u ops).Ok := by
  obtain ⟨hoy, hlive, hgrid, hscreen⟩ :=
    update_view e { d with backing := d.backing.writeAll u ops }
  refine ⟨hscreen (Screen.writes_writeAll hok.screen u ops).ok, ?_, ?_⟩
  · show (update e _).1.liveHsize = (update e _).1.backing.grid.hsize
    rw [hlive, hgrid]
    rfl
  · show (update e _).1.oy ≤ (update e _).1.backing.grid.hsize
    rw [hoy, hgrid]
    exact followedOy_le _

/-- Output keeps the row at the top of a view that is scrolled back, as far as the
history has it, and a view at the live screen there. -/
theorem Ok.top_output (e : CopyEnv) (u : Utf8) :
    (d.output e u ops).top =
      if d.oy = 0 then (d.backing.writeAll u ops).hsize
      else min d.top (d.backing.writeAll u ops).hsize := by
  have hview := (update_view e { d with backing := d.backing.writeAll u ops }).1
  have hsize : (d.output e u ops).hsize = (d.backing.writeAll u ops).hsize :=
    congrArg Grid.hsize (output_grid e u d ops)
  rw [top_of_le (hok.output ops e u).oy, top_of_le hok.oy, hsize]
  show (d.backing.writeAll u ops).hsize - (update e _).1.oy = _
  rw [hview]
  split
  · rename_i hback
    rw [followedOy_zero (d := { d with backing := d.backing.writeAll u ops }) hback]
    rfl
  · rename_i hback
    rw [← hok.live]
    apply followed_top (d := { d with backing := d.backing.writeAll u ops }) _ hback
    rw [hok.live]
    exact hok.oy

theorem rewrites_output (e : CopyEnv) (u : Utf8) :
    Grid.Rewrites Set.univ d.backing.grid (d.output e u ops).backing.grid := by
  rw [output_grid]
  exact (Screen.writes_writeAll hok.screen u ops).grid.mono (Set.subset_univ _)

end Output

end CopyMode

end Newmux.Live
