import Newmux.Base.Strtoll
import Newmux.Tmux.Layout

/-!
# Layout text

`layout_dump` writes a layout tree as text behind a 16-bit checksum, and
`layout_parse` reads such text back, cuts the tree down to the number of panes
at hand and checks that the sizes add up.

The reading comes with unbounded sizes, as `layoutParse` uses it, and with those of
the source, 32 bits wide; the layouts that closed items carry are read alike. A part in
angle brackets, which makes floating panes, and an empty cell, which the source
dereferences, are invalid in both.
-/

namespace Newmux.Tmux

open Newmux.Base LayoutCell

/-- `sizeof layout` in `layout_dump`. -/
def layoutBufferSize : Nat := 8192

/-- `strlcat` into the dump's buffer; `none` when it truncates. -/
def strlcat (buf text : List Char) : Option (List Char) :=
  if (buf ++ text).length ≥ layoutBufferSize then none else some (buf ++ text)

/-- `layout_checksum`, in 16-bit arithmetic. -/
def layoutChecksum (layout : List Char) : Nat :=
  layout.foldl (fun csum c => (csum / 2 + (csum % 2) * 32768 + c.toNat) % 65536) 0

/-- `%u`. -/
def decimal (n : Nat) : List Char := Nat.toDigits 10 n

/-- `%ux%u,%d,%d`, and `,%u` for a cell with a pane. -/
def cellText (g : Geom) (wp : Option Nat) : List Char :=
  decimal g.sx ++ 'x' :: decimal g.sy ++ ',' :: decimal g.xoff ++ ',' :: decimal g.yoff ++
    match wp with
    | none => []
    | some id => ',' :: decimal id

def openBracket : LayoutType → Char
  | .leftRight => '{'
  | .topBottom => '['

def closeBracket : LayoutType → Char
  | .leftRight => '}'
  | .topBottom => ']'

mutual
/-- `layout_append`. The children's last comma is overwritten by the closing
bracket. -/
def layoutAppend : LayoutCell → List Char → Option (List Char)
  | .pane g wp, buf => strlcat buf (cellText g wp)
  | .split t g cells, buf => do
      let buf ← strlcat buf (cellText g none)
      let buf ← strlcat buf [openBracket t]
      let buf ← layoutAppendList cells buf
      return buf.dropLast ++ [closeBracket t]
def layoutAppendList : List LayoutCell → List Char → Option (List Char)
  | [], buf => some buf
  | lc :: cells, buf => do
      let buf ← layoutAppend lc buf
      let buf ← strlcat buf [',']
      layoutAppendList cells buf
end

/-- `%04hx`. -/
def hex4 (n : Nat) : List Char :=
  [Nat.digitChar (n / 4096 % 16), Nat.digitChar (n / 256 % 16), Nat.digitChar (n / 16 % 16),
    Nat.digitChar (n % 16)]

/-- `layout_dump`; a window without a layout dumps as the empty layout. -/
def layoutDump (root : Option LayoutCell) : Option (List Char) := do
  let layout ← match root with
    | none => some []
    | some lc => layoutAppend lc []
  return hex4 (layoutChecksum layout) ++ ',' :: layout

/-! ## Reading -/

/-- The value of a hexadecimal digit. -/
def hexDigit (c : Char) : Option Nat :=
  if '0' ≤ c ∧ c ≤ '9' then some (c.toNat - '0'.toNat)
  else if 'a' ≤ c ∧ c ≤ 'f' then some (c.toNat - 'a'.toNat + 10)
  else if 'A' ≤ c ∧ c ≤ 'F' then some (c.toNat - 'A'.toNat + 10)
  else none

/-- The digits behind `0x`, if there are any. -/
def skipHexPrefix : List Char → List Char
  | '0' :: 'x' :: c :: t => c :: t
  | '0' :: 'X' :: c :: t => c :: t
  | t => t

/-- `%hx` on all of a text: blanks, a sign and `0x` may stand before the digits. -/
def scanHex (text : List Char) : Option Nat := do
  let (neg, t) := takeSign (text.dropWhile isSpace)
  let digits ← (skipHexPrefix t).mapM hexDigit
  let n := digits.foldl (fun n d => n * 16 + d) 0 % 65536
  if digits = [] then none else some (if neg then (65536 - n) % 65536 else n)

/-- `sscanf(layout, "%hx,%n", …)` with `n == 5`. -/
def parseHeader : List Char → Option (Nat × List Char)
  | a :: b :: c :: d :: ',' :: rest => (scanHex [a, b, c, d]).map fun csum => (csum, rest)
  | _ => none

/-- A decimal number and the text after its digits. -/
def scanNumber (layout : List Char) : Option (Nat × List Char) :=
  match layout.takeWhile Char.isDigit with
  | [] => none
  | ds => some (Nat.ofDigitChars 10 ds 0, layout.dropWhile Char.isDigit)

/-- A literal character. -/
def scanChar (c : Char) : List Char → Option (List Char)
  | [] => none
  | x :: rest => if x = c then some rest else none

/-- The pane id after a cell is skipped, unless what follows the comma is the
next cell (its number is followed by an `x`). -/
def skipPaneId : List Char → List Char
  | ',' :: rest =>
      match rest.dropWhile Char.isDigit with
      | 'x' :: _ => ',' :: rest
      | rest => rest
  | layout => layout

/-- `layout_construct_cell`: a cell's geometry and the text after it. -/
def layoutConstructCell (layout : List Char) : Option (Geom × List Char) := do
  let (sx, layout) ← scanNumber layout
  let layout ← scanChar 'x' layout
  let (sy, layout) ← scanNumber layout
  let layout ← scanChar ',' layout
  let (xoff, layout) ← scanNumber layout
  let layout ← scanChar ',' layout
  let (yoff, layout) ← scanNumber layout
  return (⟨sx, sy, xoff, yoff⟩, skipPaneId layout)

mutual
/-- `layout_construct`: the cell and, behind a bracket, its children. `fuel`
bounds the characters left. -/
def layoutConstruct : Nat → List Char → Option (LayoutCell × List Char)
  | 0, _ => none
  | fuel + 1, layout => do
      let (g, layout) ← layoutConstructCell layout
      match layout with
      | [] => return (.pane g none, layout)
      | c :: rest =>
          if c = ',' ∨ c = '}' ∨ c = ']' then return (.pane g none, layout)
          else if c = '{' then
            let (cells, rest) ← layoutConstructList fuel rest
            let rest ← scanChar '}' rest
            return (.split .leftRight g cells, rest)
          else if c = '[' then
            let (cells, rest) ← layoutConstructList fuel rest
            let rest ← scanChar ']' rest
            return (.split .topBottom g cells, rest)
          else none
/-- The `do … while (**layout == ',')` over the children. -/
def layoutConstructList : Nat → List Char → Option (List LayoutCell × List Char)
  | 0, _ => none
  | fuel + 1, layout => do
      let (lc, layout) ← layoutConstruct fuel layout
      match layout with
      | ',' :: rest =>
          let (cells, layout) ← layoutConstructList fuel rest
          return (lc :: cells, layout)
      | _ => return ([lc], layout)
end

mutual
/-- `layout_check`. -/
def layoutCheck : LayoutCell → Bool
  | .pane _ _ => true
  | .split t g cells =>
      layoutCheckList t g cells &&
        decide ((cells.map (fun c => c.geom.along t + 1)).sum = g.along t + 1)
def layoutCheckList (t : LayoutType) (g : Geom) : List LayoutCell → Bool
  | [] => true
  | lc :: cells =>
      decide (lc.geom.across t = g.across t) && layoutCheck lc && layoutCheckList t g cells
end

/-- Close the bottom-right cell until there are as many cells as panes. -/
def closeBottomright (npanes : Nat) : Nat → LayoutCell → Except String LayoutCell
  | fuel, lc =>
      let ncells := lc.layoutCountCells
      if npanes > ncells then
        .error s!"have {npanes} panes but need {ncells}"
      else if npanes = ncells then .ok lc
      else
        match fuel, layoutDestroyCell lc lc.layoutFindBottomright with
        | fuel + 1, some lc => closeBottomright npanes fuel lc
        | _, _ => .error "invalid layout"

/-- The correction of a wrong top cell size: the size of the children, each with
its border, in the order the source accumulates it. -/
def topSize (t : LayoutType) (cells : List LayoutCell) : Nat × Nat :=
  let along := (cells.map (fun c => c.geom.along t + 1)).sum
  let across := ((cells.getLast?).map (fun c => c.geom.across t + 1)).getD 0
  match t with
  | .leftRight => (along, across)
  | .topBottom => (across, along)

/-- The top cell with its size corrected, and the window size it asks for. -/
def correctTop : LayoutCell → LayoutCell × Option (Nat × Nat)
  | .pane g wp => (.pane g wp, none)
  | .split t g cells =>
      let (sx, sy) := topSize t cells
      let g := if g.sx ≠ sx ∨ g.sy ≠ sy then { g with sx := sx - 1, sy := sy - 1 } else g
      (.split t g cells, if sx ≠ 0 ∧ sy ≠ 0 then some (g.sx, g.sy) else none)

/-- `layout_parse` up to the point where it touches the window: the tree to
install for `npanes` panes, and the size to give the window. -/
def layoutRead (npanes : Nat) (layout : List Char) :
    Except String (LayoutCell × Option (Nat × Nat)) :=
  match parseHeader layout with
  | none => .error "invalid layout"
  | some (csum, layout) =>
      if csum ≠ layoutChecksum layout then .error "invalid layout"
      else if layout = [] then .error s!"have {npanes} panes but need 0"
      else
        match layoutConstruct (2 * layout.length + 1) layout with
        | some (lc, []) => do
            let lc ← closeBottomright npanes lc.layoutCountCells lc
            let (lc, size) := correctTop lc
            if layoutCheck lc then .ok (lc, size)
            else .error "size mismatch after applying layout"
        | _ => .error "invalid layout"

/-! ## In 32 bits -/

/-- A `u_int`. -/
def uint (n : Nat) : Nat := n % 2 ^ 32

/-- What `%u` stores: the end of the 64-bit range for a number past it, cut to 32 bits. -/
def scanUint (n : Nat) : Nat := uint (min n (2 ^ 64 - 1))

mutual
/-- The tree with other sizes. -/
def mapSizes (f : Nat → Nat) : LayoutCell → LayoutCell
  | .pane g wp => .pane { g with sx := f g.sx, sy := f g.sy } wp
  | .split t g cells => .split t { g with sx := f g.sx, sy := f g.sy } (mapSizesList f cells)
def mapSizesList (f : Nat → Nat) : List LayoutCell → List LayoutCell
  | [] => []
  | lc :: cells => mapSizes f lc :: mapSizesList f cells
end

mutual
/-- `layout_check`, its sums being `u_int`s. -/
def layoutCheckUint : LayoutCell → Bool
  | .pane _ _ => true
  | .split t g cells =>
      layoutCheckUintList t g cells &&
        decide (uint (cells.map (fun c => c.geom.along t + 1)).sum = uint (g.along t + 1))
def layoutCheckUintList (t : LayoutType) (g : Geom) : List LayoutCell → Bool
  | [] => true
  | lc :: cells =>
      decide (lc.geom.across t = g.across t) && layoutCheckUint lc && layoutCheckUintList t g cells
end

/-- The correction of a wrong top cell size, in `u_int`s. -/
def correctTopUint : LayoutCell → LayoutCell × Option (Nat × Nat)
  | .pane g wp => (.pane g wp, none)
  | .split t g cells =>
      let sx := uint (topSize t cells).1
      let sy := uint (topSize t cells).2
      let g :=
        if g.sx ≠ sx ∨ g.sy ≠ sy then
          { g with sx := uint (sx + (2 ^ 32 - 1)), sy := uint (sy + (2 ^ 32 - 1)) }
        else g
      (.split t g cells, if sx ≠ 0 ∧ sy ≠ 0 then some (g.sx, g.sy) else none)

/-- `layoutRead` with the sizes of the source. Closing a cell only adds sizes, so they
are cut when it is done; a cell of `2 ^ 31` columns or rows is not closed as it is there. -/
def layoutReadUint (npanes : Nat) (layout : List Char) :
    Except String (LayoutCell × Option (Nat × Nat)) :=
  match parseHeader layout with
  | none => .error "invalid layout"
  | some (csum, layout) =>
      if csum ≠ layoutChecksum layout then .error "invalid layout"
      else if layout = [] then .error s!"have {npanes} panes but need 0"
      else
        match layoutConstruct (2 * layout.length + 1) layout with
        | some (lc, []) => do
            let lc := mapSizes scanUint lc
            let lc ← closeBottomright npanes lc.layoutCountCells lc
            let (lc, size) := correctTopUint (mapSizes uint lc)
            if layoutCheckUint lc then .ok (lc, size)
            else .error "size mismatch after applying layout"
        | _ => .error "invalid layout"

/-! ## Installing -/

mutual
/-- `layout_assign`: hand the panes out to the leaves in tree order. -/
def layoutAssign : List Nat → LayoutCell → LayoutCell × List Nat
  | wps, .pane g _ => (.pane g wps.head?, wps.tail)
  | wps, .split t g cells =>
      let (cells, wps) := layoutAssignList wps cells
      (.split t g cells, wps)
def layoutAssignList : List Nat → List LayoutCell → List LayoutCell × List Nat
  | wps, [] => ([], wps)
  | wps, lc :: cells =>
      let (lc, wps) := layoutAssign wps lc
      let (cells, wps) := layoutAssignList wps cells
      (lc :: cells, wps)
end

end Newmux.Tmux
