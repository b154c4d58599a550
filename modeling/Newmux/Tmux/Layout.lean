import Mathlib.Tactic

/-!
# Layout cells

A window's tiled panes are the leaves of a tree of cells. Closing a cell gives
its space to a neighbour (`layout_resize_adjust`) and folds a node left with
one child into that child. A cell is reached by its path of child positions
from the root. Floating cells are not modelled: the recovery commands make none, and
only a layout text with a part in angle brackets does. Sizes are numbers without a
bound; those of the source are 32 bits wide.
-/

namespace Newmux.Tmux

/-- The two kinds of node. -/
inductive LayoutType where
  | leftRight
  | topBottom
deriving DecidableEq, Repr

/-- A cell's size and offset. -/
structure Geom where
  sx : Nat
  sy : Nat
  xoff : Nat
  yoff : Nat
deriving DecidableEq, Repr

inductive LayoutCell where
  | pane (g : Geom) (wp : Option Nat)
  | split (type : LayoutType) (g : Geom) (cells : List LayoutCell)
deriving Repr

/-- Size along a direction. -/
def Geom.along (g : Geom) : LayoutType → Nat
  | .leftRight => g.sx
  | .topBottom => g.sy

/-- Size across a direction. -/
def Geom.across (g : Geom) : LayoutType → Nat
  | .leftRight => g.sy
  | .topBottom => g.sx

/-- Add to the size along a direction. -/
def Geom.grow (g : Geom) (change : Nat) : LayoutType → Geom
  | .leftRight => { g with sx := g.sx + change }
  | .topBottom => { g with sy := g.sy + change }

/-- `layout_set_size`, offsets only. -/
def Geom.at (g : Geom) (xoff yoff : Nat) : Geom := { g with xoff, yoff }

namespace LayoutCell

mutual
/-- Induction with a hypothesis for every child. -/
theorem induct {P : LayoutCell → Prop} (pane : ∀ g wp, P (.pane g wp))
    (split : ∀ t g cells, (∀ c ∈ cells, P c) → P (.split t g cells)) : ∀ lc, P lc
  | .pane g wp => pane g wp
  | .split t g cells => split t g cells (inductList pane split cells)
theorem inductList {P : LayoutCell → Prop} (pane : ∀ g wp, P (.pane g wp))
    (split : ∀ t g cells, (∀ c ∈ cells, P c) → P (.split t g cells)) :
    ∀ cells : List LayoutCell, ∀ c ∈ cells, P c
  | [], _, h => absurd h List.not_mem_nil
  | c :: cells, _, h => (List.mem_cons.mp h).elim (fun e => e ▸ induct pane split c)
      (fun h => inductList pane split cells _ h)
end

def geom : LayoutCell → Geom
  | .pane g _ => g
  | .split _ g _ => g

mutual
/-- The panes in the leaves, in tree order. -/
def panes : LayoutCell → List (Option Nat)
  | .pane _ wp => [wp]
  | .split _ _ cells => panesList cells
def panesList : List LayoutCell → List (Option Nat)
  | [] => []
  | lc :: cells => lc.panes ++ panesList cells
end

mutual
/-- `layout_count_cells`. -/
def layoutCountCells : LayoutCell → Nat
  | .pane _ _ => 1
  | .split _ _ cells => layoutCountCellsList cells
def layoutCountCellsList : List LayoutCell → Nat
  | [] => 0
  | lc :: cells => lc.layoutCountCells + layoutCountCellsList cells
end

mutual
/-- Nodes on the longest path to a leaf. -/
def depth : LayoutCell → Nat
  | .pane _ _ => 0
  | .split _ _ cells => depthList cells + 1
def depthList : List LayoutCell → Nat
  | [] => 0
  | lc :: cells => max lc.depth (depthList cells)
end

mutual
/-- `layout_find_bottomright`, as a path. -/
def layoutFindBottomright : LayoutCell → List Nat
  | .pane _ _ => []
  | .split _ _ cells => layoutFindBottomrightList cells 0
def layoutFindBottomrightList : List LayoutCell → Nat → List Nat
  | [], _ => []
  | [lc], i => i :: lc.layoutFindBottomright
  | _ :: lc :: cells, i => layoutFindBottomrightList (lc :: cells) (i + 1)
end

mutual
/-- The path to the cell of a pane, `wp->layout_cell`. -/
def pathTo (wp : Nat) : LayoutCell → Option (List Nat)
  | .pane _ wp' => if wp' = some wp then some [] else none
  | .split _ _ cells => pathToList wp cells 0
def pathToList (wp : Nat) : List LayoutCell → Nat → Option (List Nat)
  | [], _ => none
  | lc :: cells, i =>
      match lc.pathTo wp with
      | some p => some (i :: p)
      | none => pathToList wp cells (i + 1)
end

/-- The cell at a path. -/
def get? : LayoutCell → List Nat → Option LayoutCell
  | lc, [] => some lc
  | .pane _ _, _ :: _ => none
  | .split _ _ cells, i :: p =>
      match cells[i]? with
      | none => none
      | some lc => lc.get? p

/-! ## Growing and closing cells -/

/-- The `TAILQ_FOREACH` of `layout_resize_adjust`: one more for each child while
there is change left. -/
def adjustPass (adjust : LayoutCell → LayoutCell) :
    Nat → List LayoutCell → List LayoutCell × Nat
  | change, [] => ([], change)
  | 0, cells => (cells, 0)
  | change + 1, lc :: cells =>
      let (cells, left) := adjustPass adjust change cells
      (adjust lc :: cells, left)

/-- The `while (change != 0)` around it. -/
def adjustLoop (adjust : LayoutCell → LayoutCell) :
    Nat → Nat → List LayoutCell → List LayoutCell
  | 0, _, cells => cells
  | _ + 1, 0, cells => cells
  | fuel + 1, change, cells =>
      let (cells, left) := adjustPass adjust change cells
      adjustLoop adjust fuel left cells

/-- `layout_resize_adjust` for a positive change; `fuel` is the cell's depth. -/
def layoutResizeAdjust : Nat → LayoutType → Nat → LayoutCell → LayoutCell
  | _, type, change, .pane g wp => .pane (g.grow change type) wp
  | 0, type, change, .split t g cells => .split t (g.grow change type) cells
  | fuel + 1, type, change, .split t g cells =>
      if t ≠ type then
        .split t (g.grow change type) (cells.map (layoutResizeAdjust fuel type change))
      else
        .split t (g.grow change type)
          (adjustLoop (layoutResizeAdjust fuel type 1) change change cells)

/-- The part of `layout_destroy_cell` at the parent: merge the space of child
`i` into the previous (for the first: the next) child, unlink it, and replace
the parent by its child if only one is left. -/
def closeChild (t : LayoutType) (g : Geom) (cells : List LayoutCell) (i : Nat) : LayoutCell :=
  match cells[i]? with
  | none => .split t g cells
  | some lc =>
      let other := if i = 0 then 1 else i - 1
      let grown := cells.modify other
        (fun lcother => layoutResizeAdjust lcother.depth t (lc.geom.along t + 1) lcother)
      match grown.eraseIdx i with
      | [last] => last
      | cells => .split t g cells

/-- `layout_destroy_cell` of the cell at a path below the root. -/
def destroyBelow : LayoutCell → List Nat → LayoutCell
  | .pane g wp, _ => .pane g wp
  | lc, [] => lc
  | .split t g cells, [i] => closeChild t g cells i
  | .split t g cells, i :: j :: p => .split t g (destroyAt cells i (j :: p))
where
  /-- Go on in child `i`. -/
  destroyAt : List LayoutCell → Nat → List Nat → List LayoutCell
    | [], _, _ => []
    | lc :: cells, 0, p => destroyBelow lc p :: cells
    | lc :: cells, i + 1, p => lc :: destroyAt cells i p

/-- `layout_destroy_cell`: `none` once the root itself is gone. -/
def layoutDestroyCell (root : LayoutCell) (path : List Nat) : Option LayoutCell :=
  match path with
  | [] => none
  | p => some (destroyBelow root p)

mutual
/-- `layout_fix_offsets1`: place a cell at an offset and its children after one
another from there, one column or line apart. -/
def layoutFixOffsets1 (xoff yoff : Nat) : LayoutCell → LayoutCell
  | .pane g wp => .pane (g.at xoff yoff) wp
  | .split t g cells => .split t (g.at xoff yoff) (layoutFixOffsetsList t xoff yoff cells)
def layoutFixOffsetsList (t : LayoutType) (xoff yoff : Nat) :
    List LayoutCell → List LayoutCell
  | [] => []
  | lc :: cells =>
      lc.layoutFixOffsets1 xoff yoff ::
        match t with
        | .leftRight => layoutFixOffsetsList t (xoff + lc.geom.sx + 1) yoff cells
        | .topBottom => layoutFixOffsetsList t xoff (yoff + lc.geom.sy + 1) cells
end

/-- `layout_fix_offsets`. -/
def layoutFixOffsets (root : LayoutCell) : LayoutCell := root.layoutFixOffsets1 0 0

/-! ## Status lines -/

/-- `layout_cell_is_top`, for the cell at a path. -/
def layoutCellIsTop : LayoutCell → List Nat → Bool
  | _, [] => true
  | .pane _ _, _ :: _ => false
  | .split t _ cells, i :: p =>
      (t != .topBottom || i == 0) &&
        match cells[i]? with
        | none => false
        | some lc => lc.layoutCellIsTop p

/-- `layout_cell_is_bottom`, for the cell at a path. -/
def layoutCellIsBottom : LayoutCell → List Nat → Bool
  | _, [] => true
  | .pane _ _, _ :: _ => false
  | .split t _ cells, i :: p =>
      (t != .topBottom || i + 1 == cells.length) &&
        match cells[i]? with
        | none => false
        | some lc => lc.layoutCellIsBottom p

end LayoutCell

/-- The `pane-border-status` option. -/
inductive PaneStatus where
  | off
  | top
  | bottom
deriving DecidableEq, Repr

/-- `layout_add_horizontal_border`. -/
def layoutAddHorizontalBorder (root : LayoutCell) (path : List Nat) : PaneStatus → Bool
  | .off => false
  | .top => root.layoutCellIsTop path
  | .bottom => root.layoutCellIsBottom path

end Newmux.Tmux
