import Newmux.Base.TSys
import Newmux.Live.PaneOutput
import Newmux.Theorems.Anchor

/-!
# Protection of restored history

A restore protects the pane's history from the next request to clear it, which
the shell's prompt tends to make. Whether the history is protected is asked only
while no mode is open: a clear that comes while the user looks at the history in
copy mode goes through, and leaves the protection to spare a later one.
-/

namespace Newmux.Live

open Newmux.Base Newmux.Tmux

/-! ## What is collected is on the screen -/

namespace Grid

/-- The lines of the history. -/
def historyLines (gd : Grid) : List Line := gd.linedata.take gd.hsize

/-- The same history. -/
def SameHistory (gd gd' : Grid) : Prop :=
  gd'.hsize = gd.hsize ∧ gd'.historyLines = gd.historyLines

theorem SameHistory.refl (gd : Grid) : SameHistory gd gd := ⟨rfl, rfl⟩

theorem SameHistory.trans {gd gd' gd'' : Grid} (h : SameHistory gd gd')
    (h' : SameHistory gd' gd'') : SameHistory gd gd'' :=
  ⟨h'.1.trans h.1, h'.2.trans h.2⟩

/-- Rewriting lines of the screen. -/
theorem sameHistory_mapLines {gd : Grid} {f : Nat → Line → Line}
    (hf : ∀ yy gl, yy < gd.hsize → f yy gl = gl) : SameHistory gd (gd.mapLines f) := by
  refine ⟨rfl, ?_⟩
  show (gd.linedata.mapIdx f).take gd.hsize = gd.linedata.take gd.hsize
  apply List.ext_getElem?
  intro i
  rw [List.getElem?_take, List.getElem?_take]
  split
  · next hi =>
      rw [List.getElem?_mapIdx]
      cases gd.linedata[i]? with
      | none => rfl
      | some gl => exact congrArg some (hf i gl hi)
  · rfl

theorem sameHistory_viewSetCell (gd : Grid) (px y : Nat) (gc : GridCell) :
    SameHistory gd (gd.viewSetCell px y gc) := by
  unfold viewSetCell setCell
  split
  · exact .refl gd
  · refine sameHistory_mapLines fun yy gl hyy => if_neg ?_
    unfold viewY
    omega

theorem sameHistory_viewSetCells (gd : Grid) (px y : Nat) (gc : GridCell) (s : List Nat) :
    SameHistory gd (gd.viewSetCells px y gc s) := by
  unfold viewSetCells setCells
  split
  · exact .refl gd
  · refine sameHistory_mapLines fun yy gl hyy => if_neg ?_
    unfold viewY
    omega

end Grid

namespace Screen

theorem sameHistory_blankBack (y xx : Nat) (gd : Grid) :
    Grid.SameHistory gd (blankBack y xx gd).1 := by
  induction xx generalizing gd with
  | zero => exact .refl gd
  | succ xx ih =>
      unfold blankBack
      split
      · exact (gd.sameHistory_viewSetCell _ _ _).trans (ih _)
      · exact .refl gd

theorem sameHistory_blankOn (y : Nat) (fill : GridCell) (n xx : Nat) (gd : Grid) :
    Grid.SameHistory gd (blankOn y fill n xx gd) := by
  induction n generalizing xx gd with
  | zero => exact .refl gd
  | succ n ih =>
      unfold blankOn
      split
      · exact (gd.sameHistory_viewSetCell _ _ _).trans (ih _ _)
      · exact .refl gd

/-- The collected text goes to the cursor's line. -/
theorem sameHistory_collectEnd (s : Screen) : Grid.SameHistory s.grid s.collectEnd.grid := by
  unfold collectEnd
  split
  · exact .refl _
  extract_lets back gc gd s'
  have hgd : Grid.SameHistory s.grid gd := by
    unfold gd
    split
    · exact (sameHistory_blankBack _ _ _).trans (Grid.sameHistory_viewSetCell _ _ _ _)
    · exact sameHistory_blankBack _ _ _
  have hs' : Grid.SameHistory s.grid s'.grid := by
    show Grid.SameHistory s.grid
      ((s.onGrid fun _ => gd.viewSetCells s.cx s.cy s.itemCell s.item).markDirty s.cy 1).grid
    rw [grid_markDirty]
    exact hgd.trans (Grid.sameHistory_viewSetCells _ _ _ _ _)
  exact hs'.trans (sameHistory_blankOn _ _ _ _ _)

end Screen

/-! ## The law -/

namespace OutputPane

variable {u : Utf8}

/-- The pane's history. -/
def history (wp : OutputPane) : List Line := wp.base.grid.historyLines

/-- What the protection promises of one operation; `due` is whether no request to
clear the history has come since the last restore. -/
def OpLawful (u : Utf8) (wp : OutputPane) (ctx due : Bool) (op : WriteOp) : Prop :=
  if op = .clearHistory then
    (wp.write u ctx op).historyProtected = false ∧
      if due then (wp.write u ctx op).history = wp.history else (wp.write u ctx op).history = []
  else (wp.write u ctx op).historyProtected = wp.historyProtected

/-- Every operation of a chunk does what the protection promises. -/
def ChunkLawful (u : Utf8) (ctx : Bool) : OutputPane → Bool → List WriteOp → Prop
  | _, _, [] => True
  | wp, due, op :: ops =>
      wp.OpLawful u ctx due op ∧
        ChunkLawful u ctx (wp.write u ctx op) (due && op != .clearHistory) ops

end OutputPane

/-- A pane, and whether its protection is due. -/
structure Restored where
  wp : OutputPane
  due : Bool

namespace Restored

variable {u : Utf8}

/-- Run one event and keep account of the protection. -/
def run (u : Utf8) (r : Restored) (l : PaneEvent) : Restored :=
  { wp := r.wp.run u l
    due := match l with
      | .output ops => r.due && !ops.contains .clearHistory
      | .restore _ => true
      | _ => r.due }

/-- A pane that has just been restored. -/
def start (wp : OutputPane) : Restored := ⟨{ wp with historyProtected := true }, true⟩

/-- What the protection promises of one event. -/
def Lawful (u : Utf8) (r : Restored) : PaneEvent → Prop
  | .output ops => OutputPane.ChunkLawful u r.wp.onPane r.wp r.due ops
  | _ => True

/-- A request to clear a protected history does not come while a mode is open. -/
def ClearSeen (r : Restored) : PaneEvent → Prop
  | .output ops => r.wp.historyProtected = true → .clearHistory ∈ ops → r.wp.modes = []
  | _ => True

end Restored

namespace OutputPane

variable {u : Utf8}

/-! ## One operation -/

theorem write_other {wp : OutputPane} {ctx : Bool} {op : WriteOp} (hop : op ≠ .clearHistory) :
    (wp.write u ctx op).historyProtected = wp.historyProtected := by
  unfold write
  cases op with
  | clearHistory => exact absurd rfl hop
  | clearScreen bg =>
      show (clearScreen _ ctx bg).historyProtected = _
      unfold clearScreen
      split <;> rfl
  | clearEndOfScreen bg =>
      show (clearEndOfScreen _ ctx bg).historyProtected = _
      unfold clearEndOfScreen
      split <;> rfl
  | _ => rfl

theorem write_clearHistory (wp : OutputPane) (ctx : Bool) :
    wp.write u ctx .clearHistory = (wp.onBase Screen.collectEnd).clearHistory ctx := rfl

/-- A request that sees the protection spares the history and uses it up. -/
theorem clear_spared {wp : OutputPane} (hprot : wp.historyProtected = true) :
    (wp.write u true .clearHistory).historyProtected = false ∧
      (wp.write u true .clearHistory).history = wp.history := by
  have hwrite : wp.write u true .clearHistory =
      { wp.onBase Screen.collectEnd with historyProtected := false } := by
    rw [write_clearHistory]
    exact if_pos (by simpa [onBase] using hprot)
  rw [hwrite]
  exact ⟨rfl, (Screen.sameHistory_collectEnd wp.base).2⟩

/-- One that does not see it clears the history and leaves the protection. -/
theorem clear_unspared (wp : OutputPane) (ctx : Bool)
    (hnot : (ctx && wp.historyProtected) = false) :
    (wp.write u ctx .clearHistory).historyProtected = wp.historyProtected ∧
      (wp.write u ctx .clearHistory).history = [] := by
  have hwrite : wp.write u ctx .clearHistory =
      (wp.onBase Screen.collectEnd).onBase Screen.clearHistory := by
    rw [write_clearHistory]
    exact if_neg (by simpa [onBase] using hnot)
  rw [hwrite]
  exact ⟨rfl, rfl⟩

/-- While the flag says whether the protection is due, an operation is lawful
exactly when it is no unseen request to clear a protected history. -/
theorem opLawful_iff {wp : OutputPane} {ctx : Bool} {op : WriteOp} :
    wp.OpLawful u ctx wp.historyProtected op ↔
      (wp.historyProtected = true → op = .clearHistory → ctx = true) := by
  unfold OpLawful
  by_cases hop : op = .clearHistory
  · subst hop
    rw [if_pos rfl]
    cases hprot : wp.historyProtected with
    | false =>
        obtain ⟨hflag, hcleared⟩ := clear_unspared (u := u) wp ctx (by simp [hprot])
        refine iff_of_true ⟨hflag.trans hprot, ?_⟩ (fun h => by cases h)
        rw [if_neg (by decide)]
        exact hcleared
    | true =>
        cases ctx with
        | true =>
            obtain ⟨hflag, hspared⟩ := clear_spared (u := u) hprot
            refine iff_of_true ⟨hflag, ?_⟩ (fun _ _ => rfl)
            rw [if_pos rfl]
            exact hspared
        | false =>
            obtain ⟨hflag, -⟩ := clear_unspared (u := u) wp false rfl
            refine iff_of_false (fun h => ?_) (fun h => by cases h rfl rfl)
            rw [hflag, hprot] at h
            cases h.1
  · rw [if_neg hop]
    exact iff_of_true (write_other hop) fun _ h => absurd h hop

/-- The flag says whether the protection is due after a lawful operation too. -/
theorem write_due {wp : OutputPane} {ctx : Bool} {op : WriteOp}
    (hseen : wp.historyProtected = true → op = .clearHistory → ctx = true) :
    (wp.write u ctx op).historyProtected = (wp.historyProtected && op != .clearHistory) := by
  by_cases hop : op = .clearHistory
  · subst hop
    cases hprot : wp.historyProtected with
    | false =>
        rw [(clear_unspared (u := u) wp ctx (by simp [hprot])).1, hprot]
        rfl
    | true =>
        rw [hseen hprot rfl, (clear_spared (u := u) hprot).1]
        rfl
  · rw [write_other hop]
    simp [hop]

/-! ## A chunk -/

/-- A chunk is lawful exactly when it does not ask to clear a protected history
behind a mode. -/
theorem chunkLawful_iff (ctx : Bool) (ops : List WriteOp) (wp : OutputPane) :
    ChunkLawful u ctx wp wp.historyProtected ops ↔
      (wp.historyProtected = true → .clearHistory ∈ ops → ctx = true) := by
  induction ops generalizing wp with
  | nil => exact iff_of_true trivial fun _ h => absurd h List.not_mem_nil
  | cons op ops ih =>
      unfold ChunkLawful
      rw [opLawful_iff]
      constructor
      · rintro ⟨hseen, hrest⟩ hprot hmem
        by_cases hop : op = .clearHistory
        · exact hseen hprot hop
        · rw [← write_due (u := u) hseen, ih] at hrest
          have hkept : (wp.write u ctx op).historyProtected = true := (write_other hop).trans hprot
          exact hrest hkept ((List.mem_cons.mp hmem).resolve_left fun h => hop h.symm)
      · intro hall
        have hseen : wp.historyProtected = true → op = .clearHistory → ctx = true :=
          fun hprot hop => hall hprot (hop ▸ List.mem_cons_self)
        refine ⟨hseen, ?_⟩
        rw [← write_due (u := u) hseen, ih]
        intro hprot hmem
        rw [write_due hseen, Bool.and_eq_true] at hprot
        exact hall hprot.1 (List.mem_cons_of_mem _ hmem)

/-- What is left of the protection after a chunk. -/
theorem chunk_due (ctx : Bool) (ops : List WriteOp) (wp : OutputPane)
    (hall : wp.historyProtected = true → .clearHistory ∈ ops → ctx = true) :
    (ops.foldl (fun wp op => wp.write u ctx op) wp).historyProtected =
      (wp.historyProtected && !ops.contains .clearHistory) := by
  induction ops generalizing wp with
  | nil => simp
  | cons op ops ih =>
      have hseen : wp.historyProtected = true → op = .clearHistory → ctx = true :=
        fun hprot hop => hall hprot (hop ▸ List.mem_cons_self)
      have hflag := write_due (u := u) hseen
      rw [List.foldl_cons, ih, hflag, List.contains_cons]
      · by_cases hop : op = .clearHistory
        · simp [hop]
        · have hne : (WriteOp.clearHistory == op) = false := by simpa using Ne.symm hop
          have hother : (op != WriteOp.clearHistory) = true := by simpa using hop
          simp [hne, hother]
      · intro hprot hmem
        rw [hflag, Bool.and_eq_true] at hprot
        exact hall hprot.1 (List.mem_cons_of_mem _ hmem)

end OutputPane

/-! ## Runs -/

namespace Restored

variable {u : Utf8}

theorem lawful_iff {r : Restored} (hdue : r.due = r.wp.historyProtected) (l : PaneEvent) :
    r.Lawful u l ↔ r.ClearSeen l := by
  cases l with
  | output ops =>
      show OutputPane.ChunkLawful u r.wp.onPane r.wp r.due ops ↔ _
      rw [hdue, OutputPane.chunkLawful_iff]
      unfold OutputPane.onPane
      simp only [List.isEmpty_iff]
      exact Iff.rfl
  | _ => exact Iff.rfl

/-- The flag says whether the protection is due, as long as no request is missed. -/
theorem run_due {r : Restored} (hdue : r.due = r.wp.historyProtected) {l : PaneEvent}
    (hseen : r.ClearSeen l) : (r.run u l).due = (r.run u l).wp.historyProtected := by
  cases l with
  | output ops =>
      have hctx : r.wp.historyProtected = true → .clearHistory ∈ ops → r.wp.onPane = true := by
        intro hprot hmem
        unfold OutputPane.onPane
        rw [hseen hprot hmem]
        rfl
      show (r.due && !ops.contains .clearHistory) = _
      rw [hdue]
      exact (OutputPane.chunk_due r.wp.onPane ops r.wp hctx).symm
  | restore base => rfl
  | modes modes => exact hdue
  | screen base => exact hdue

/-- **Restored history is protected exactly once** in exactly the runs in which no
request to clear a protected history comes while a mode is open. -/
theorem protected_once_iff (u : Utf8) (wp : OutputPane) (ls : List PaneEvent) :
    TSys.RunOk (Lawful u) (run u) (start wp) ls ↔ TSys.RunOk ClearSeen (run u) (start wp) ls := by
  have hstart : (start wp).due = (start wp).wp.historyProtected := rfl
  constructor
  · intro h
    refine TSys.RunOk.imp (I := fun r => r.due = r.wp.historyProtected) ?_ hstart h
    intro r l hdue hlawful
    have hseen := (lawful_iff hdue l).mp hlawful
    exact ⟨hseen, run_due hdue hseen⟩
  · intro h
    refine TSys.RunOk.imp (I := fun r => r.due = r.wp.historyProtected) ?_ hstart h
    intro r l hdue hseen
    exact ⟨(lawful_iff hdue l).mpr hseen, run_due hdue hseen⟩

/-- A pane with two lines in its history, looked at in copy mode. -/
def lookedAt : OutputPane :=
  { base := twoBehind 100, historyProtected := false, modes := [.copy], scrollOnClear := true }

/-- **A clear behind copy mode** takes the history, and the protection stays for a
later one. -/
theorem cleared_behind_mode :
    (start lookedAt).wp.history.length = 2 ∧
      ((start lookedAt).run plainUtf8 (.output [.clearHistory])).wp.history = [] ∧
      ((start lookedAt).run plainUtf8 (.output [.clearHistory])).wp.historyProtected = true ∧
      ¬ TSys.RunOk (Lawful plainUtf8) (run plainUtf8) (start lookedAt)
        [.output [.clearHistory]] := by
  refine ⟨by decide, by decide, by decide, ?_⟩
  rintro ⟨⟨hlawful, -⟩, -⟩
  unfold OutputPane.OpLawful at hlawful
  rw [if_pos rfl] at hlawful
  exact absurd hlawful.1 (by decide)

end Restored

end Newmux.Live
