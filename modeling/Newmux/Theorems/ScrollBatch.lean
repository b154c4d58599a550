import Newmux.Live.CopyScroll
import Newmux.Theorems.Anchor

/-!
# Scrolling by many lines and by one

A scroll by `n` moves the view as `n` scrolls by one do unless there are more lines
than the whole history. The rows on the screen can differ in one place: a row that
was there before, next to the new ones, which a single step rewrites.
-/

namespace Newmux.Live

open Newmux.Tmux

namespace CopyMode

theorem ite_eq_ite_iff' {p q : Prop} [Decidable p] [Decidable q] {α : Type} (a b : α) :
    (if p then a else b) = (if q then a else b) ↔ (p ↔ q) ∨ b = a := by
  by_cases hp : p <;> by_cases hq : q <;> simp [hp, hq, eq_comm]

theorem eq_or_iff {a b : Bool} {p : Prop} [Decidable p] :
    a = (decide p || b) ↔ (a = true ↔ p ∨ b = true) := by
  by_cases hp : p <;> cases a <;> cases b <;> simp [hp]

/-- Whether a selection shows once the view is at `oy`. -/
def selectedAt (d : CopyMode) (oy : Nat) : Bool := ({ d with oy }.updateSelection false).sel

/-- `d'` is `d` with its view at `oy`. -/
structure ViewAt (d d' : CopyMode) (oy : Nat) : Prop where
  backing : d'.backing = d.backing
  sy : d'.sy = d.sy
  hidePosition : d'.hidePosition = d.hidePosition
  lineNumbers : d'.lineNumbers = d.lineNumbers
  oy : d'.oy = oy

variable {e : CopyEnv} {d d' d'' : CopyMode} {shown : Rows} {n k oy y : Nat}

theorem ViewAt.refl (d : CopyMode) : ViewAt d d d.oy := ⟨rfl, rfl, rfl, rfl, rfl⟩

theorem ViewAt.trans {oy' : Nat} (h : ViewAt d d' oy) (h' : ViewAt d' d'' oy') : ViewAt d d'' oy' :=
  ⟨h'.backing.trans h.backing, h'.sy.trans h.sy, h'.hidePosition.trans h.hidePosition,
    h'.lineNumbers.trans h.lineNumbers, h'.oy⟩

theorem ViewAt.hsize (h : ViewAt d d' oy) : d'.hsize = d.hsize := by
  unfold CopyMode.hsize
  rw [h.backing]

theorem ViewAt.shownRow (h : ViewAt d d' oy) (e : CopyEnv) (y : Nat) :
    d'.shownRow e y = { d with oy }.shownRow e y := by
  unfold CopyMode.shownRow CopyMode.row CopyMode.showsPosition
  rw [h.hsize, h.oy, h.sy, h.hidePosition]
  rfl

theorem ViewAt.redrawsAll (h : ViewAt d d' oy) (e : CopyEnv) (ny : Nat) :
    d'.redrawsAll e ny = d.redrawsAll e ny := by
  unfold CopyMode.redrawsAll CopyMode.lineNumberMode
  rw [h.sy, h.lineNumbers]

/-- A selection shows unless both its ends are past one edge. -/
theorem setSelection_sel (d : CopyMode) (noReset : Bool) :
    (d.setSelection noReset).sel =
      let synced := if d.nativeSelActive then d else d.synchronizeCursor noReset
      !decide (synced.relPos synced.sely = synced.relPos synced.endsely ∧
        synced.relPos synced.sely ≠ .onScreen) := by
  unfold setSelection
  extract_lets synced startrelpos endrelpos
  by_cases hedge : startrelpos = endrelpos ∧ startrelpos ≠ .onScreen
  · rw [if_pos hedge, decide_eq_true hedge]
    rfl
  · rw [if_neg hedge, decide_eq_false hedge]
    rfl

theorem updateSelection_sel (d : CopyMode) (noReset : Bool) :
    (d.updateSelection noReset).sel =
      if !d.hasLogicalSelection then d.sel
      else if !d.selectionIntersectsScreen then false
      else (d.setSelection noReset).sel := by
  unfold updateSelection
  split_ifs <;> rfl

/-- The end the cursor drags does not depend on the search marks. -/
theorem synchronizeCursor_search (d : CopyMode) (search : Search) (noReset : Bool) :
    { d with search }.synchronizeCursor noReset =
      { d.synchronizeCursor noReset with search } := by
  have hend : ∀ begin, { d with search }.synchronizeCursorEnd begin noReset =
      { d.synchronizeCursorEnd begin noReset with search } := by
    intro begin
    have hrow : { d with search }.row d.cy = d.row d.cy := rfl
    unfold synchronizeCursorEnd
    dsimp only
    rw [hrow]
    cases begin <;> split_ifs <;> rfl
  have hdrag : d.cursordrag = .none ∨ d.cursordrag = .endsel ∨ d.cursordrag = .sel := by
    cases d.cursordrag <;> simp
  rcases hdrag with hdrag | hdrag | hdrag
  · have hstay : ∀ c : CopyMode, c.cursordrag = .none → c.synchronizeCursor noReset = c := by
      intro c hc
      unfold synchronizeCursor
      rw [hc]
    rw [hstay d hdrag]
    exact hstay { d with search } hdrag
  · have hmove : ∀ c : CopyMode, c.cursordrag = .endsel →
        c.synchronizeCursor noReset = c.synchronizeCursorEnd false noReset := by
      intro c hc
      unfold synchronizeCursor
      rw [hc]
    rw [hmove d hdrag]
    exact (hmove { d with search } hdrag).trans (hend false)
  · have hmove : ∀ c : CopyMode, c.cursordrag = .sel →
        c.synchronizeCursor noReset = c.synchronizeCursorEnd true noReset := by
      intro c hc
      unfold synchronizeCursor
      rw [hc]
    rw [hmove d hdrag]
    exact (hmove { d with search } hdrag).trans (hend true)

/-- The search marks do not show a selection or hide it. -/
theorem updateSelection_sel_search (d : CopyMode) (search : Search) :
    ({ d with search }.updateSelection false).sel = (d.updateSelection false).sel := by
  have hset : ({ d with search }.setSelection false).sel = (d.setSelection false).sel := by
    rw [setSelection_sel, setSelection_sel, synchronizeCursor_search]
    dsimp only
    cases d.nativeSelActive <;> rfl
  rw [updateSelection_sel, updateSelection_sel, hset]
  rfl

/-- The view moved, and what follows it. -/
theorem moved_spec (e : CopyEnv) (d : CopyMode) (oy : Nat) :
    ViewAt d (({ d with oy }.refreshMarks e).updateSelection false) oy ∧
      (({ d with oy }.refreshMarks e).updateSelection false).sel = d.selectedAt oy := by
  constructor
  · obtain ⟨search, sel, selx, sely, endselx, endsely, heq⟩ := refreshed_eq e { d with oy } false
    rw [heq]
    exact ⟨rfl, rfl, rfl, rfl, rfl⟩
  · obtain ⟨search, heq⟩ := refreshMarks_eq e { d with oy }
    rw [heq]
    exact updateSelection_sel_search _ search

/-! ## Into the history -/

theorem scrollDownDrawn_stays (hoy : d.oy ≤ d.hsize) (h : n > d.hsize ∨ min n (d.hsize - d.oy) = 0)
    (shown : Rows) : scrollDownDrawn e n (d, shown) = (d, shown) := by
  have hny : n > d.hsize ∨ (if d.oy > d.hsize - n then usub d.hsize d.oy else n) = 0 := by
    rw [usub_of_le hoy]
    split <;> omega
  unfold scrollDownDrawn scrollDown
  dsimp only
  rw [if_pos hny]
  by_cases hmany : n > d.hsize
  · rw [if_pos hmany]
  · rw [if_neg hmany, if_pos (hny.resolve_left hmany)]

theorem scrollDownDrawn_moves (hoy : d.oy ≤ d.hsize) (hn : n ≤ d.hsize)
    (hk : min n (d.hsize - d.oy) = k) (hpos : 0 < k) (shown : Rows) :
    ∃ d', ViewAt d d' (d.oy + k) ∧ d'.sel = d.selectedAt (d.oy + k) ∧
      scrollDownDrawn e n (d, shown) = (d', d'.drawScrollDown e k shown) := by
  have hny : (if d.oy > d.hsize - n then usub d.hsize d.oy else n) = k := by
    rw [usub_of_le hoy]
    split <;> omega
  obtain ⟨hview, hsel⟩ := moved_spec e d (d.oy + k)
  refine ⟨_, hview, hsel, ?_⟩
  unfold scrollDownDrawn scrollDown
  dsimp only
  rw [hny, if_neg (by omega), if_neg (by omega), if_neg (by omega)]

/-- The rows after a scroll into the history: the new ones, and the one below them
when a selection shows or the position was over it. -/
theorem drawScrollDown_row (d : CopyMode) (shown : Rows) (hy : y < d.sy) :
    d.drawScrollDown e k shown y =
      if d.redrawsAll e k = true ∨ y < k ∨ (y = k ∧ (d.sel = true ∨ k = 1 ∧ d.hidePosition = false))
      then some (d.shownRow e y) else shown (y - k) := by
  unfold drawScrollDown
  by_cases hall : d.redrawsAll e k = true
  · rw [if_pos hall, if_pos (.inl hall)]
    exact if_pos (List.mem_range.mpr hy)
  · rw [if_neg hall]
    have hrest : d.writeRows e (List.range k) (shown.insertLine k) y =
        if y < k then some (d.shownRow e y) else shown (y - k) := by
      unfold writeRows Rows.insertLine
      simp only [List.mem_range]
      split_ifs <;> rfl
    have hadded : ∀ r, d.writeRows e [r] (d.writeRows e (List.range k) (shown.insertLine k)) y =
        if y < k ∨ y = r then some (d.shownRow e y) else shown (y - k) := by
      intro r
      show (if y ∈ [r] then _ else d.writeRows e (List.range k) (shown.insertLine k) y) = _
      rw [hrest]
      simp only [List.mem_singleton]
      split_ifs <;> first | rfl | omega
    by_cases hsel : d.sel = true ∧ d.sy > k
    · rw [if_pos hsel, hadded]
      simp [hall, hsel.1]
    · have hsel' : y = k → d.sel = false := by
        rintro rfl
        simpa [hy] using hsel
      rw [if_neg hsel]
      by_cases hnuke : k = 1 ∧ (!d.hidePosition) = true
      · rw [if_pos hnuke, hadded]
        obtain ⟨rfl, hshown⟩ := hnuke
        simp [hall, show d.hidePosition = false by simpa using hshown]
      · rw [if_neg hnuke, hrest]
        have hkept : ¬ (y = k ∧ (d.sel = true ∨ k = 1 ∧ d.hidePosition = false)) := by
          rintro ⟨hyk, hsel | hone⟩
          · simp [hsel' hyk] at hsel
          · exact hnuke (by simpa using hone)
        simp [hall, hkept]

/-- Row `y` of the view at `oy`. -/
def rowAt (e : CopyEnv) (d : CopyMode) (oy y : Nat) : ShownRow := { d with oy }.shownRow e y

theorem rowAt_eq (e : CopyEnv) (d : CopyMode) (oy y : Nat) :
    d.rowAt e oy y = ⟨usub (d.hsize + y) oy, y == 0 && d.showsPosition e⟩ := rfl

theorem showsPosition_of_hidden (e : CopyEnv) (h : d.hidePosition = true) :
    d.showsPosition e = false := by
  unfold showsPosition
  simp [h]

/-- A row keeps its place on the screen as the view moves, and the position is over the
first only. -/
theorem rowAt_add (h : oy + k ≤ d.hsize) (hplain : y ≠ 0 ∨ d.hidePosition = true ∨ k = 0) :
    d.rowAt e (oy + k) (y + k) = d.rowAt e oy y := by
  have hrow : usub (d.hsize + (y + k)) (oy + k) = usub (d.hsize + y) oy := by
    rw [usub_of_le (by omega), usub_of_le (by omega)]
    omega
  have hposition : ((y + k == 0) && d.showsPosition e) = ((y == 0) && d.showsPosition e) := by
    obtain hy | hhide | rfl := hplain
    · rw [beq_false_of_ne hy, beq_false_of_ne (show y + k ≠ 0 by omega)]
    · rw [showsPosition_of_hidden e hhide, Bool.and_false, Bool.and_false]
    · rfl
  rw [rowAt_eq, rowAt_eq, hrow, hposition]

/-- A row away from the top, by its row of the backing screen. -/
theorem rowAt_plain (hy : y ≠ 0) : d.rowAt e oy y = ⟨usub (d.hsize + y) oy, false⟩ := by
  rw [rowAt_eq, beq_false_of_ne hy, Bool.false_and]

/-- The rows after scrolling by one `j` times into the history. -/
def rowsDown (e : CopyEnv) (d : CopyMode) (shown : Rows) (j y : Nat) : Option ShownRow :=
  if j ≠ 0 ∧ d.redrawsAll e 1 = true ∨ y < j then some (d.rowAt e (d.oy + j) y)
  else if y = j ∧ j ≠ 0 ∧ (d.selectedAt (d.oy + 1) = true ∨ d.hidePosition = false) then
    some ⟨d.row 0, false⟩
  else shown (y - j)

/-- One more step. -/
theorem rowsDown_succ (hoy : d.oy + k + 1 ≤ d.hsize) (hview : ViewAt d d' (d.oy + k + 1))
    (hfirst : k = 0 → d'.sel = d.selectedAt (d.oy + 1)) {rows : Rows}
    (hrows : ∀ y < d.sy, rows y = d.rowsDown e shown k y) (hy : y < d.sy) :
    d'.drawScrollDown e 1 rows y = d.rowsDown e shown (k + 1) y := by
  have hshown : ∀ y, d'.shownRow e y = d.rowAt e (d.oy + k + 1) y := hview.shownRow e
  rw [drawScrollDown_row d' rows (hview.sy ▸ hy), hview.redrawsAll, hview.hidePosition, hshown]
  unfold rowsDown
  by_cases hall : d.redrawsAll e 1 = true
  · rw [if_pos (.inl hall), if_pos (.inl ⟨by omega, hall⟩)]
    rfl
  · cases y with
    | zero =>
        rw [if_pos (by omega), if_pos (by omega)]
        rfl
    | succ y =>
        have hrow : rows y = if y < k then some (d.rowAt e (d.oy + k) y)
            else if y = k ∧ k ≠ 0 ∧ (d.selectedAt (d.oy + 1) = true ∨ d.hidePosition = false) then
              some ⟨d.row 0, false⟩
            else shown (y - k) := by
          rw [hrows y (by omega)]
          unfold rowsDown
          simp [hall]
        have hleft : (if d.redrawsAll e 1 = true ∨ y + 1 < 1 ∨
            (y + 1 = 1 ∧ (d'.sel = true ∨ 1 = 1 ∧ d.hidePosition = false)) then
            some (d.rowAt e (d.oy + k + 1) (y + 1)) else rows (y + 1 - 1)) =
            if y = 0 ∧ (d'.sel = true ∨ d.hidePosition = false) then
              some (d.rowAt e (d.oy + k + 1) (y + 1)) else rows y := by
          simp [hall]
        have hright : (if k + 1 ≠ 0 ∧ d.redrawsAll e 1 = true ∨ y + 1 < k + 1 then
            some (d.rowAt e (d.oy + (k + 1)) (y + 1))
            else if y + 1 = k + 1 ∧ k + 1 ≠ 0 ∧
              (d.selectedAt (d.oy + 1) = true ∨ d.hidePosition = false) then some ⟨d.row 0, false⟩
            else shown (y + 1 - (k + 1))) =
            if y < k then some (d.rowAt e (d.oy + k + 1) (y + 1))
            else if y = k ∧ (d.selectedAt (d.oy + 1) = true ∨ d.hidePosition = false) then
              some ⟨d.row 0, false⟩
            else shown (y - k) := by
          simp [hall, Nat.add_assoc]
        rw [hleft, hright, hrow]
        -- above, at and below the row that was first on the screen
        obtain hnew | hnext | hold := lt_trichotomy y k
        · rw [if_pos hnew, if_pos hnew]
          split
          · rfl
          · rename_i hkept
            have hplain : y ≠ 0 ∨ d.hidePosition = true ∨ 1 = 0 := by
              by_cases hy0 : y = 0
              · refine .inr (.inl ?_)
                by_contra hshow
                exact hkept ⟨hy0, .inr (by simpa using hshow)⟩
              · exact .inl hy0
            exact congrArg some (rowAt_add (by omega) hplain).symm
        · subst hnext
          simp only [lt_irrefl, if_false, true_and]
          by_cases hy0 : y = 0
          · subst hy0
            rw [hfirst rfl]
            have hrow0 : d.rowAt e (d.oy + 0 + 1) (0 + 1) = ⟨d.row 0, false⟩ := by
              rw [rowAt_plain (by omega)]
              unfold CopyMode.row
              rw [usub_of_le (by omega), usub_of_le (by omega)]
              exact congrArg (ShownRow.mk · false) (by omega)
            rw [hrow0]
            simp
          · simp [hy0]
        · simp only [show ¬ y < k by omega, show y ≠ k by omega, show y ≠ 0 by omega, if_false,
            false_and]

theorem rowsDown_zero (shown : Rows) (y : Nat) : d.rowsDown e shown 0 y = shown y := by
  unfold rowsDown
  simp

/-- Steps by one, as long as there is history. -/
theorem iterate_down (hoy : d.oy ≤ d.hsize) (shown : Rows) (hk : k ≤ d.hsize - d.oy) :
    ∃ d' rows, (scrollDownDrawn e 1)^[k] (d, shown) = (d', rows) ∧ ViewAt d d' (d.oy + k) ∧
      (k = 0 → d' = d) ∧ ∀ y < d.sy, rows y = d.rowsDown e shown k y := by
  induction k with
  | zero => exact ⟨d, shown, rfl, .refl d, fun _ => rfl, fun y _ => (rowsDown_zero shown y).symm⟩
  | succ k ih =>
      obtain ⟨d', rows, heq, hview, hstart, hrows⟩ := ih (by omega)
      have hoy' := hview.oy
      have hsize := hview.hsize
      obtain ⟨d'', hview', hsel, hstep⟩ := scrollDownDrawn_moves (e := e) (n := 1) (k := 1)
        (show d'.oy ≤ d'.hsize by omega) (by omega) (by omega) (by omega) rows
      rw [hoy'] at hview' hsel
      refine ⟨d'', d''.drawScrollDown e 1 rows, ?_, hview.trans hview', by omega, fun y hy => ?_⟩
      · rw [Function.iterate_succ_apply', heq, hstep]
      · refine rowsDown_succ (by omega) (hview.trans hview') ?_ hrows hy
        rintro rfl
        rw [hsel, hstart rfl]

/-- Further steps do nothing. -/
theorem iterate_down_min (hoy : d.oy ≤ d.hsize) (shown : Rows) (n : Nat) :
    (scrollDownDrawn e 1)^[n] (d, shown) =
      (scrollDownDrawn e 1)^[min n (d.hsize - d.oy)] (d, shown) := by
  obtain hn | hn := le_total n (d.hsize - d.oy)
  · rw [min_eq_left hn]
  · rw [min_eq_right hn]
    obtain ⟨d', rows, heq, hview, -, -⟩ := iterate_down (e := e) hoy shown le_rfl
    have hend : d'.oy = d'.hsize := by
      rw [hview.oy, hview.hsize]
      omega
    have hfixed : scrollDownDrawn e 1 (d', rows) = (d', rows) :=
      scrollDownDrawn_stays hend.le (.inr (by omega)) rows
    rw [← Nat.sub_add_cancel hn, Function.iterate_add_apply, heq]
    exact Function.iterate_fixed hfixed _

/-- When a scroll into the history by `n` is as `n` by one. -/
def DownAgrees (e : CopyEnv) (d : CopyMode) (n : Nat) (shown : Rows) : Prop :=
  let k := min n (d.hsize - d.oy)
  (n ≤ d.hsize ∨ d.oy = d.hsize) ∧
    (k ≤ 1 ∨ d.redrawsAll e k = true ∨
      d.selectedAt (d.oy + k) = (d.selectedAt (d.oy + 1) || !d.hidePosition) ∨
      shown 0 = some ⟨d.row 0, false⟩)

theorem redrawsAll_mono {j : Nat} (h : j ≤ k) (hall : d.redrawsAll e j = true) :
    d.redrawsAll e k = true := by
  unfold redrawsAll at hall ⊢
  simp at hall ⊢
  obtain hsize | hnumbers := hall
  · exact .inl (hsize.trans h)
  · exact .inr hnumbers

/-- The rows of one scroll by `k ≥ 2` and those of `k` scrolls by one. -/
theorem rows_down_iff (hoy : d.oy ≤ d.hsize) (hk : k ≤ d.hsize - d.oy) (htwo : 2 ≤ k)
    (hview : ViewAt d d' (d.oy + k)) (hsel : d'.sel = d.selectedAt (d.oy + k)) (shown : Rows) :
    (∀ y < d.sy, d'.drawScrollDown e k shown y = d.rowsDown e shown k y) ↔
      d.redrawsAll e k = true ∨
        d.selectedAt (d.oy + k) = (d.selectedAt (d.oy + 1) || !d.hidePosition) ∨
        shown 0 = some ⟨d.row 0, false⟩ := by
  -- one scroll draws the new rows, and the old first row only under a selection
  have hbatch : ∀ y < d.sy, d'.drawScrollDown e k shown y =
      if d.redrawsAll e k = true ∨ y < k ∨ (y = k ∧ d.selectedAt (d.oy + k) = true) then
        some (d.rowAt e (d.oy + k) y)
      else shown (y - k) := by
    intro y hy
    rw [drawScrollDown_row d' shown (hview.sy ▸ hy), hview.redrawsAll, hsel, hview.shownRow]
    simp only [show k ≠ 1 by omega, false_and, or_false]
    rfl
  have hlast : d.rowAt e (d.oy + k) k = ⟨d.row 0, false⟩ := by
    rw [rowAt_plain (by omega)]
    unfold CopyMode.row
    rw [usub_of_le (by omega), usub_of_le (by omega)]
    exact congrArg (ShownRow.mk · false) (by omega)
  by_cases hall : d.redrawsAll e k = true
  · apply iff_of_true _ (.inl hall)
    intro y hy
    rw [hbatch y hy, if_pos (.inl hall)]
    unfold rowsDown
    by_cases hone : d.redrawsAll e 1 = true
    · rw [if_pos (.inl ⟨by omega, hone⟩)]
    · have hsy : d.sy ≤ k := by
        unfold redrawsAll at hall hone
        simp at hall hone
        obtain hsize | ⟨hoff, habsolute⟩ := hall
        · exact hsize
        · exact absurd (hone.2 hoff) habsolute
      rw [if_pos (.inr (by omega))]
  · have hone : ¬ d.redrawsAll e 1 = true := fun h => hall (redrawsAll_mono (by omega) h)
    have hsy : k < d.sy := by
      unfold redrawsAll at hall
      simp at hall
      exact hall.1
    -- the two differ at most in the row that was first on the screen
    have hrow : d'.drawScrollDown e k shown k = d.rowsDown e shown k k ↔
        d.selectedAt (d.oy + k) = (d.selectedAt (d.oy + 1) || !d.hidePosition) ∨
          shown 0 = some ⟨d.row 0, false⟩ := by
      rw [hbatch k hsy]
      unfold rowsDown
      simp only [hall, hone, lt_irrefl, false_or, true_and, Nat.sub_self, show k ≠ 0 by omega,
        ne_eq, not_false_eq_true, hlast, Bool.false_eq_true, and_false, if_false]
      rw [ite_eq_ite_iff']
      cases d.selectedAt (d.oy + k) <;> cases d.selectedAt (d.oy + 1) <;>
        cases d.hidePosition <;> simp
    rw [or_iff_right hall]
    constructor
    · intro heq
      exact hrow.mp (heq k hsy)
    · intro hagree y hy
      obtain hnew | rfl | hold := lt_trichotomy y k
      · rw [hbatch y hy, if_pos (.inr (.inl hnew))]
        exact (if_pos (.inr hnew)).symm
      · exact hrow.mpr hagree
      · rw [hbatch y hy, if_neg (by simp [hall]; omega)]
        unfold rowsDown
        rw [if_neg (by simp [hone]; omega), if_neg (by omega)]

/-- A scroll into the history against single steps. -/
theorem scrollDown_iff (hoy : d.oy ≤ d.hsize) (n : Nat) (shown : Rows) :
    ((d.scrollDown e n).oy = min (d.oy + n) d.hsize ∧
        ∀ y < d.sy, (scrollDownDrawn e n (d, shown)).2 y =
          ((scrollDownDrawn e 1)^[n] (d, shown)).2 y) ↔
      d.DownAgrees e n shown := by
  obtain ⟨d', rows, heq, hview, hstart, hrows⟩ :=
    iterate_down (e := e) hoy shown (min_le_right n (d.hsize - d.oy))
  have hmode : d.scrollDown e n = (scrollDownDrawn e n (d, shown)).1 := rfl
  rw [iterate_down_min hoy, heq, hmode]
  unfold DownAgrees
  dsimp only
  generalize hk : min n (d.hsize - d.oy) = k at *
  -- a scroll by more than the history has stays where it is, single ones do not
  by_cases hmany : n ≤ d.hsize
  · have hcan : n ≤ d.hsize ∨ d.oy = d.hsize := .inl hmany
    rw [and_iff_right hcan]
    by_cases hstay : k = 0
    · subst hstay
      rw [scrollDownDrawn_stays hoy (.inr hk)]
      apply iff_of_true _ (.inl (Nat.zero_le _))
      refine ⟨by dsimp only; omega, fun y hy => ?_⟩
      rw [hrows y hy]
      exact (rowsDown_zero shown y).symm
    · obtain ⟨d'', hview', hsel, hstep⟩ :=
        scrollDownDrawn_moves (e := e) hoy hmany hk (by omega) shown
      rw [hstep]
      dsimp only
      have hmoved : d''.oy = min (d.oy + n) d.hsize := by
        rw [hview'.oy]
        omega
      rw [and_iff_right hmoved]
      have hsame : (∀ y < d.sy, d''.drawScrollDown e k shown y = rows y) ↔
          ∀ y < d.sy, d''.drawScrollDown e k shown y = d.rowsDown e shown k y :=
        forall₂_congr fun y hy => by rw [hrows y hy]
      rw [hsame]
      by_cases hone : k = 1
      · subst hone
        apply iff_of_true _ (.inl le_rfl)
        intro y hy
        exact rowsDown_succ (k := 0) (by omega) hview' (fun _ => hsel)
          (fun y _ => (rowsDown_zero shown y).symm) hy
      · rw [rows_down_iff hoy (by omega) (by omega) hview' hsel shown,
          or_iff_right (show ¬ k ≤ 1 by omega)]
  · rw [scrollDownDrawn_stays hoy (.inl (by omega))]
    dsimp only
    constructor
    · rintro ⟨hmoved, -⟩
      exact ⟨.inr (by omega), .inl (by omega)⟩
    · rintro ⟨hend, -⟩
      have hend := hend.resolve_left hmany
      have hk0 : k = 0 := by omega
      subst hk0
      refine ⟨by omega, fun y hy => ?_⟩
      rw [hrows y hy]
      exact (rowsDown_zero shown y).symm

/-! ## Towards the live screen -/

theorem scrollUpDrawn_stays (h : min n d.oy = 0) (shown : Rows) :
    scrollUpDrawn e n (d, shown) = (d, shown) := by
  have hny : (if d.oy < n then d.oy else n) = 0 := by
    split <;> omega
  unfold scrollUpDrawn scrollUp
  dsimp only
  rw [if_pos hny, if_pos hny]

theorem scrollUpDrawn_moves (hk : min n d.oy = k) (hpos : 0 < k) (shown : Rows) :
    ∃ d', ViewAt d d' (d.oy - k) ∧ d'.sel = d.selectedAt (d.oy - k) ∧
      scrollUpDrawn e n (d, shown) = (d', d'.drawScrollUp e k shown) := by
  have hny : (if d.oy < n then d.oy else n) = k := by
    split <;> omega
  obtain ⟨hview, hsel⟩ := moved_spec e d (d.oy - k)
  refine ⟨_, hview, hsel, ?_⟩
  unfold scrollUpDrawn scrollUp
  dsimp only
  rw [hny, if_neg (by omega), if_neg (by omega)]

/-- The rows after a scroll towards the live screen: the new ones, the first two when
the position shows, the last but one, and the one above the new ones when a selection
shows. -/
theorem drawScrollUp_row (d : CopyMode) (shown : Rows) (hy : y < d.sy) :
    d.drawScrollUp e k shown y =
      if d.redrawsAll e k = true ∨ d.sy ≤ y + k ∨ (d.hidePosition = false ∧ y ≤ 1) ∨
          (3 < d.sy ∧ y + 2 = d.sy) ∨ (d.sel = true ∧ y + k + 1 = d.sy)
      then some (d.shownRow e y) else shown (y + k) := by
  unfold drawScrollUp
  by_cases hall : d.redrawsAll e k = true
  · rw [if_pos hall, if_pos (.inl hall)]
    exact if_pos (List.mem_range.mpr hy)
  · rw [if_neg hall]
    have hsy : k < d.sy := by
      unfold redrawsAll at hall
      simp at hall
      exact hall.1
    -- to redraw one row more changes no other
    have hadded : ∀ (c : Prop) [Decidable c] (r : Nat) (rows : Rows),
        (if c then d.writeRows e [r] rows else rows) y =
          if c ∧ y = r then some (d.shownRow e y) else rows y := by
      intro c _ r rows
      by_cases hc : c
      · rw [if_pos hc]
        simp [writeRows, hc]
      · rw [if_neg hc, if_neg (fun h => hc h.1)]
    have hrest : d.writeRows e (List.range' (d.sy - k) k) (shown.deleteLine d.sy k) y =
        if d.sy ≤ y + k then some (d.shownRow e y) else shown (y + k) := by
      unfold writeRows Rows.deleteLine
      simp only [List.mem_range'_1]
      split_ifs <;> first | rfl | omega
    rw [hadded, hadded, hadded, hadded, hrest]
    have hone : ((!d.hidePosition) = true ∧ d.sy > 1) ∧ y = 1 ↔
        (d.hidePosition = false ∧ y = 1) := by
      simp
      omega
    have hfirst : (!d.hidePosition) = true ∧ y = 0 ↔ d.hidePosition = false ∧ y = 0 := by
      simp
    have hnear : d.sy > 3 ∧ y = d.sy - 2 ↔ 3 < d.sy ∧ y + 2 = d.sy := by
      omega
    have hselected : (d.sel = true ∧ d.sy > k) ∧ y = d.sy - k - 1 ↔
        d.sel = true ∧ y + k + 1 = d.sy := by
      constructor
      · rintro ⟨⟨hsel, -⟩, hyk⟩
        exact ⟨hsel, by omega⟩
      · rintro ⟨hsel, hyk⟩
        exact ⟨⟨hsel, hsy⟩, by omega⟩
    simp only [hone, hfirst, hnear, hselected, hall, false_or, Bool.false_eq_true]
    split_ifs <;> first | rfl | grind

/-- The rows after scrolling by one `j` times towards the live screen. -/
def rowsUp (e : CopyEnv) (d : CopyMode) (shown : Rows) (j y : Nat) : Option ShownRow :=
  if j ≠ 0 ∧ (d.redrawsAll e 1 = true ∨ d.sy ≤ y + j ∨ (d.hidePosition = false ∧ y ≤ 1)) then
    some (d.rowAt e (d.oy - j) y)
  else if y + j + 1 = d.sy ∧ j ≠ 0 ∧ (3 < d.sy ∨ d.selectedAt (d.oy - 1) = true) then
    some ⟨d.row (d.sy - 1), false⟩
  else shown (y + j)

theorem rowsUp_zero (shown : Rows) (y : Nat) : d.rowsUp e shown 0 y = shown y := by
  unfold rowsUp
  simp

/-- A row that was there before, once it is next to the new ones. -/
theorem rowAt_last (hoy : d.oy ≤ d.hsize) (hk : k ≤ d.oy) (hlast : y + k + 1 = d.sy)
    (hplain : ¬ (d.hidePosition = false ∧ y ≤ 1)) :
    d.rowAt e (d.oy - k) y = ⟨d.row (d.sy - 1), false⟩ := by
  have hrow : usub (d.hsize + y) (d.oy - k) = d.row (d.sy - 1) := by
    unfold CopyMode.row
    rw [usub_of_le (by omega), usub_of_le (by omega)]
    omega
  have hposition : ((y == 0) && d.showsPosition e) = false := by
    cases hhide : d.hidePosition with
    | true => rw [showsPosition_of_hidden e hhide, Bool.and_false]
    | false => rw [beq_false_of_ne (fun hy0 => hplain ⟨hhide, by omega⟩), Bool.false_and]
  rw [rowAt_eq, hrow, hposition]

theorem rowsUp_succ (hoy : d.oy ≤ d.hsize) (hk : k + 1 ≤ d.oy) (hview : ViewAt d d' (d.oy - (k + 1)))
    (hfirst : k = 0 → d'.sel = d.selectedAt (d.oy - 1)) {rows : Rows}
    (hrows : ∀ y < d.sy, rows y = d.rowsUp e shown k y) (hy : y < d.sy) :
    d'.drawScrollUp e 1 rows y = d.rowsUp e shown (k + 1) y := by
  have hshown : ∀ y, d'.shownRow e y = d.rowAt e (d.oy - (k + 1)) y := hview.shownRow e
  rw [drawScrollUp_row d' rows (hview.sy ▸ hy), hview.redrawsAll, hview.hidePosition, hview.sy, hshown]
  by_cases hall : d.redrawsAll e 1 = true
  · unfold rowsUp
    rw [if_pos (.inl hall), if_pos ⟨by omega, .inl hall⟩]
  · by_cases hnew : d.sy ≤ y + 1 ∨ (d.hidePosition = false ∧ y ≤ 1)
    · unfold rowsUp
      obtain hlast | htop := hnew
      · rw [if_pos (.inr (.inl hlast)), if_pos ⟨by omega, .inr (.inl (by omega))⟩]
      · rw [if_pos (.inr (.inr (.inl htop))), if_pos ⟨by omega, .inr (.inr htop)⟩]
    · have hplain : ¬ (d.hidePosition = false ∧ y ≤ 1) := fun h => hnew (.inr h)
      -- what stood one row below before this scroll
      have hrow : rows (y + 1) =
          if k ≠ 0 ∧ d.sy ≤ y + 1 + k then some (d.rowAt e (d.oy - k) (y + 1))
          else if y + 1 + k + 1 = d.sy ∧ k ≠ 0 ∧ (3 < d.sy ∨ d.selectedAt (d.oy - 1) = true) then
            some ⟨d.row (d.sy - 1), false⟩
          else shown (y + 1 + k) := by
        rw [hrows (y + 1) (by omega)]
        unfold rowsUp
        have htop : ¬ (d.hidePosition = false ∧ y + 1 ≤ 1) := fun h => hplain ⟨h.1, by omega⟩
        simp only [hall, htop, Bool.false_eq_true, false_or, or_false]
      have hleft : (if d.redrawsAll e 1 = true ∨ d.sy ≤ y + 1 ∨ (d.hidePosition = false ∧ y ≤ 1) ∨
          (3 < d.sy ∧ y + 2 = d.sy) ∨ (d'.sel = true ∧ y + 1 + 1 = d.sy) then
          some (d.rowAt e (d.oy - (k + 1)) y) else rows (y + 1)) =
          if y + 2 = d.sy ∧ (3 < d.sy ∨ d'.sel = true) then some (d.rowAt e (d.oy - (k + 1)) y)
          else rows (y + 1) := by
        congr 1
        grind
      have hright : d.rowsUp e shown (k + 1) y =
          if d.sy ≤ y + (k + 1) then some (d.rowAt e (d.oy - (k + 1)) y)
          else if y + (k + 1) + 1 = d.sy ∧ (3 < d.sy ∨ d.selectedAt (d.oy - 1) = true) then
            some ⟨d.row (d.sy - 1), false⟩
          else shown (y + (k + 1)) := by
        unfold rowsUp
        simp [hall, hplain]
      have hkeeps : d.sy ≤ y + 1 + k → d.rowAt e (d.oy - k) (y + 1) = d.rowAt e (d.oy - (k + 1)) y := by
        intro _
        have hmoved : d.rowAt e (d.oy - (k + 1) + 1) (y + 1) = d.rowAt e (d.oy - (k + 1)) y :=
            rowAt_add (by omega) (by
          by_cases hy0 : y = 0
          · refine .inr (.inl ?_)
            by_contra hshow
            exact hplain ⟨by simpa using hshow, by omega⟩
          · exact .inl hy0)
        rw [show d.oy - (k + 1) + 1 = d.oy - k by omega] at hmoved
        exact hmoved
      rw [hleft, hright]
      -- only the first scroll finds the old last row still on the screen
      by_cases hstart : k = 0
      · subst hstart
        have hold : rows (y + 1) = shown (y + 1) := by simpa using hrow
        rw [hfirst rfl, hold, if_neg (show ¬ d.sy ≤ y + (0 + 1) by omega)]
        by_cases hnext : y + 2 = d.sy
        · rw [rowAt_last hoy hk (by omega) hplain]
        · rw [if_neg (fun h => hnext h.1), if_neg (fun h => hnext (by omega))]
      · rw [hrow]
        by_cases hnew : d.sy ≤ y + 1 + k
        · have hnew' : k ≠ 0 ∧ d.sy ≤ y + 1 + k := ⟨hstart, hnew⟩
          rw [if_pos (show d.sy ≤ y + (k + 1) by omega), if_pos hnew', hkeeps hnew]
          split <;> rfl
        · rw [if_neg (show ¬ (y + 2 = d.sy ∧ _) by omega), if_neg (fun h => hnew h.2),
            if_neg (show ¬ d.sy ≤ y + (k + 1) by omega)]
          simp only [hstart, ne_eq, not_false_eq_true, true_and,
            show y + 1 + k = y + (k + 1) by omega]

/-- Steps by one, as long as the view is scrolled back. -/
theorem iterate_up (hoy : d.oy ≤ d.hsize) (shown : Rows) (hk : k ≤ d.oy) :
    ∃ d' rows, (scrollUpDrawn e 1)^[k] (d, shown) = (d', rows) ∧ ViewAt d d' (d.oy - k) ∧
      (k = 0 → d' = d) ∧ ∀ y < d.sy, rows y = d.rowsUp e shown k y := by
  induction k with
  | zero => exact ⟨d, shown, rfl, .refl d, fun _ => rfl, fun y _ => (rowsUp_zero shown y).symm⟩
  | succ k ih =>
      obtain ⟨d', rows, heq, hview, hstart, hrows⟩ := ih (by omega)
      have hoy' := hview.oy
      obtain ⟨d'', hview', hsel, hstep⟩ := scrollUpDrawn_moves (e := e) (d := d') (n := 1) (k := 1)
        (by omega) (by omega) rows
      rw [show d'.oy - 1 = d.oy - (k + 1) by omega] at hview' hsel
      refine ⟨d'', d''.drawScrollUp e 1 rows, ?_, hview.trans hview', by omega, fun y hy => ?_⟩
      · rw [Function.iterate_succ_apply', heq, hstep]
      · refine rowsUp_succ hoy hk (hview.trans hview') ?_ hrows hy
        rintro rfl
        rw [hsel, hstart rfl]

theorem iterate_up_min (hoy : d.oy ≤ d.hsize) (shown : Rows) (n : Nat) :
    (scrollUpDrawn e 1)^[n] (d, shown) = (scrollUpDrawn e 1)^[min n d.oy] (d, shown) := by
  obtain hn | hn := le_total n d.oy
  · rw [min_eq_left hn]
  · rw [min_eq_right hn]
    obtain ⟨d', rows, heq, hview, -, -⟩ := iterate_up (e := e) hoy shown le_rfl
    have hend : d'.oy = 0 := by
      rw [hview.oy]
      omega
    have hfixed : scrollUpDrawn e 1 (d', rows) = (d', rows) :=
      scrollUpDrawn_stays (by omega) rows
    rw [← Nat.sub_add_cancel hn, Function.iterate_add_apply, heq]
    exact Function.iterate_fixed hfixed _

/-- When a scroll towards the live screen by `n` is as `n` by one. -/
def UpAgrees (e : CopyEnv) (d : CopyMode) (n : Nat) (shown : Rows) : Prop :=
  let k := min n d.oy
  k ≤ 1 ∨ d.redrawsAll e k = true ∨ (d.hidePosition = false ∧ d.sy ≤ k + 2) ∨
    d.selectedAt (d.oy - k) = (decide (3 < d.sy) || d.selectedAt (d.oy - 1)) ∨
    shown (d.sy - 1) = some ⟨d.row (d.sy - 1), false⟩

theorem rows_up_iff (hoy : d.oy ≤ d.hsize) (hk : k ≤ d.oy) (htwo : 2 ≤ k)
    (hview : ViewAt d d' (d.oy - k)) (hsel : d'.sel = d.selectedAt (d.oy - k)) (shown : Rows) :
    (∀ y < d.sy, d'.drawScrollUp e k shown y = d.rowsUp e shown k y) ↔
      d.redrawsAll e k = true ∨ (d.hidePosition = false ∧ d.sy ≤ k + 2) ∨
        d.selectedAt (d.oy - k) = (decide (3 < d.sy) || d.selectedAt (d.oy - 1)) ∨
        shown (d.sy - 1) = some ⟨d.row (d.sy - 1), false⟩ := by
  -- one scroll draws the new rows, and a row that the flag or the selection changes
  have hbatch : ∀ y < d.sy, d'.drawScrollUp e k shown y =
      if d.redrawsAll e k = true ∨ d.sy ≤ y + k ∨ (d.hidePosition = false ∧ y ≤ 1) ∨
          (d.selectedAt (d.oy - k) = true ∧ y + k + 1 = d.sy) then
        some (d.rowAt e (d.oy - k) y)
      else shown (y + k) := by
    intro y hy
    rw [drawScrollUp_row d' shown (hview.sy ▸ hy), hview.redrawsAll, hview.hidePosition, hview.sy,
      hsel, hview.shownRow]
    congr 1
    apply propext
    constructor
    · rintro (h | h | h | h | h)
      · exact .inl h
      · exact .inr (.inl h)
      · exact .inr (.inr (.inl h))
      · exact .inr (.inl (by omega))
      · exact .inr (.inr (.inr h))
    · rintro (h | h | h | h)
      · exact .inl h
      · exact .inr (.inl h)
      · exact .inr (.inr (.inl h))
      · exact .inr (.inr (.inr (.inr h)))
  by_cases hall : d.redrawsAll e k = true
  · apply iff_of_true _ (.inl hall)
    intro y hy
    rw [hbatch y hy, if_pos (.inl hall)]
    unfold rowsUp
    by_cases hone : d.redrawsAll e 1 = true
    · rw [if_pos ⟨by omega, .inl hone⟩]
    · have hsy : d.sy ≤ k := by
        unfold redrawsAll at hall hone
        simp at hall hone
        obtain hsize | ⟨hoff, habsolute⟩ := hall
        · exact hsize
        · exact absurd (hone.2 hoff) habsolute
      rw [if_pos ⟨by omega, .inr (.inl (by omega))⟩]
  · have hone : ¬ d.redrawsAll e 1 = true := fun h => hall (redrawsAll_mono (by omega) h)
    have hsy : k < d.sy := by
      unfold redrawsAll at hall
      simp at hall
      exact hall.1
    -- of the single scrolls each leaves what the one before it drew
    have hsingle : ∀ y, d.rowsUp e shown k y =
        if d.sy ≤ y + k ∨ (d.hidePosition = false ∧ y ≤ 1) then some (d.rowAt e (d.oy - k) y)
        else if y + k + 1 = d.sy ∧ (3 < d.sy ∨ d.selectedAt (d.oy - 1) = true) then
          some ⟨d.row (d.sy - 1), false⟩
        else shown (y + k) := by
      intro y
      unfold rowsUp
      simp [hone, show k ≠ 0 by omega]
    -- the two differ at most in the row that was last on the screen
    have hlast : ∀ y, y + k + 1 = d.sy → ¬ (d.hidePosition = false ∧ y ≤ 1) →
        (d'.drawScrollUp e k shown y = d.rowsUp e shown k y ↔
          d.selectedAt (d.oy - k) = (decide (3 < d.sy) || d.selectedAt (d.oy - 1)) ∨
            shown (d.sy - 1) = some ⟨d.row (d.sy - 1), false⟩) := by
      intro y hlast hplain
      have hold : ¬ d.sy ≤ y + k := by omega
      rw [hbatch y (by omega), hsingle, rowAt_last hoy hk hlast hplain, show d.sy - 1 = y + k by omega]
      simp only [hall, hold, hplain, hlast, false_or, and_true, true_and, if_false,
        Bool.false_eq_true]
      rw [ite_eq_ite_iff', eq_or_iff]
    rw [or_iff_right hall]
    constructor
    · intro heq
      by_cases htop : d.hidePosition = false ∧ d.sy ≤ k + 2
      · exact .inl htop
      · have hplain : ¬ (d.hidePosition = false ∧ d.sy - 1 - k ≤ 1) :=
          fun h => htop ⟨h.1, by omega⟩
        exact .inr ((hlast _ (by omega) hplain).mp (heq _ (by omega)))
    · intro hagree y hy
      by_cases hplain : d.hidePosition = false ∧ y ≤ 1
      · rw [hbatch y hy, hsingle, if_pos (.inr (.inr (.inl hplain))), if_pos (.inr hplain)]
      · by_cases hrow : y + k + 1 = d.sy
        · refine (hlast y hrow hplain).mpr (hagree.resolve_left fun htop => ?_)
          exact hplain ⟨htop.1, by omega⟩
        · rw [hbatch y hy, hsingle]
          simp only [hall, hplain, hrow, false_or, and_false, false_and, or_false, if_false,
            Bool.false_eq_true]

/-- A scroll towards the live screen against single steps. -/
theorem scrollUp_iff (hoy : d.oy ≤ d.hsize) (n : Nat) (shown : Rows) :
    ((d.scrollUp e n).oy = d.oy - min d.oy n ∧
        ∀ y < d.sy, (scrollUpDrawn e n (d, shown)).2 y = ((scrollUpDrawn e 1)^[n] (d, shown)).2 y) ↔
      d.UpAgrees e n shown := by
  obtain ⟨d', rows, heq, hview, hstart, hrows⟩ :=
    iterate_up (e := e) hoy shown (min_le_right n d.oy)
  have hmode : d.scrollUp e n = (scrollUpDrawn e n (d, shown)).1 := rfl
  rw [iterate_up_min hoy, heq, hmode]
  unfold UpAgrees
  dsimp only
  generalize hk : min n d.oy = k at *
  by_cases hstay : k = 0
  · subst hstay
    rw [scrollUpDrawn_stays hk]
    apply iff_of_true _ (.inl (Nat.zero_le _))
    refine ⟨by dsimp only; omega, fun y hy => ?_⟩
    rw [hrows y hy]
    exact (rowsUp_zero shown y).symm
  · obtain ⟨d'', hview', hsel, hstep⟩ := scrollUpDrawn_moves (e := e) hk (by omega) shown
    rw [hstep]
    dsimp only
    have hmoved : d''.oy = d.oy - min d.oy n := by
      rw [hview'.oy]
      omega
    rw [and_iff_right hmoved]
    have hsame : (∀ y < d.sy, d''.drawScrollUp e k shown y = rows y) ↔
        ∀ y < d.sy, d''.drawScrollUp e k shown y = d.rowsUp e shown k y :=
      forall₂_congr fun y hy => by rw [hrows y hy]
    rw [hsame]
    by_cases hone : k = 1
    · subst hone
      apply iff_of_true _ (.inl le_rfl)
      intro y hy
      exact rowsUp_succ (k := 0) hoy (by omega) hview' (fun _ => hsel)
        (fun y _ => (rowsUp_zero shown y).symm) hy
    · rw [rows_up_iff hoy (by omega) (by omega) hview' hsel shown, or_iff_right (show ¬ k ≤ 1 by omega)]

end CopyMode

open CopyMode

/-- A scroll by `n` moves the view as far as there are lines, and leaves on the screen
what `n` scrolls by one leave there, exactly when `DownAgrees` and `UpAgrees`. -/
theorem scroll_batch_iff (e : CopyEnv) (d : CopyMode) (n : Nat) (shown : Rows)
    (hoy : d.oy ≤ d.hsize) :
    (((d.scrollDown e n).oy = min (d.oy + n) d.hsize ∧
        ∀ y < d.sy, (scrollDownDrawn e n (d, shown)).2 y =
          ((scrollDownDrawn e 1)^[n] (d, shown)).2 y) ↔
      d.DownAgrees e n shown) ∧
    (((d.scrollUp e n).oy = d.oy - min d.oy n ∧
        ∀ y < d.sy, (scrollUpDrawn e n (d, shown)).2 y =
          ((scrollUpDrawn e 1)^[n] (d, shown)).2 y) ↔
      d.UpAgrees e n shown) :=
  ⟨scrollDown_iff hoy n shown, scrollUp_iff hoy n shown⟩

/-- Two lines at once, over all the history there is. -/
theorem scroll_batch_twoBehind :
    let d := viewing (twoBehind 9) 0
    let shown : Rows := fun y => some (d.shownRow plainEnv y)
    (((d.scrollDown plainEnv 2).oy = min (d.oy + 2) d.hsize ∧
        ∀ y < d.sy, (scrollDownDrawn plainEnv 2 (d, shown)).2 y =
          ((scrollDownDrawn plainEnv 1)^[2] (d, shown)).2 y) ↔
      d.DownAgrees plainEnv 2 shown) ∧
    (((d.scrollUp plainEnv 2).oy = d.oy - min d.oy 2 ∧
        ∀ y < d.sy, (scrollUpDrawn plainEnv 2 (d, shown)).2 y =
          ((scrollUpDrawn plainEnv 1)^[2] (d, shown)).2 y) ↔
      d.UpAgrees plainEnv 2 shown) :=
  scroll_batch_iff plainEnv (viewing (twoBehind 9) 0) 2 _ (by decide)

/-- Three lines at once over a history of two: nothing is scrolled. -/
theorem stuck_twoBehind :
    ¬ ∀ (e : CopyEnv) (d : CopyMode) (n : Nat), d.Ok →
      let shown : Rows := fun y => some (d.shownRow e y)
      ((d.scrollDown e n).oy = min (d.oy + n) d.hsize ∧
        ∀ y < d.sy, (scrollDownDrawn e n (d, shown)).2 y =
          ((scrollDownDrawn e 1)^[n] (d, shown)).2 y) ∧
      (d.scrollUp e n).oy = d.oy - min d.oy n ∧
        ∀ y < d.sy, (scrollUpDrawn e n (d, shown)).2 y =
          ((scrollUpDrawn e 1)^[n] (d, shown)).2 y := by
  intro h
  have hmoved := (h plainEnv (viewing (twoBehind 9) 0) 3 (by decide)).1.1
  revert hmoved
  decide

end Newmux.Live
