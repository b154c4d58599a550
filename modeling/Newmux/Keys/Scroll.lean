import Newmux.Base.Strtoll
import Newmux.Live.Screen

/-!
# Scroll packets

`tty_keys_newmux_scroll`: the private sequence `CSI ? 7777 ; … ~` at the front of
a client's input, its fields, and the mouse event made of them. Bytes are
characters; a text ends at its first NUL byte, as the C functions read it.
-/

namespace Newmux.Keys

open Newmux.Base Newmux.Live

def esc : Char := Char.ofNat 27

def nul : Char := Char.ofNat 0

/-! ## Fields -/

/-- What is read at the front of the input: a key of `size` bytes, nothing of this
kind, or the beginning of one. -/
inductive Parsed (α : Type)
  | key (size : Nat) (a : α)
  | no
  | more
deriving DecidableEq, Repr

/-- What the function reads and changes of `struct tty`. -/
structure Tty where
  sy : Nat
  ypixel : Nat
  mouseLastX : Nat
  mouseLastY : Nat
  mouseLastB : Nat
deriving DecidableEq, Repr

structure Fields where
  yoffMilli : Int
  xoffMilli : Int
  ydelta : Int
  xdelta : Int
  precision : Int
  momentum : Int
  mx : Int
  my : Int
deriving DecidableEq, Repr

/-- The loop over `strchr(ptr, ';')`: no more than `n` fields, and what follows the
last of them is left. -/
def splitFields : Nat → List Char → List (List Char)
  | 0, _ => []
  | n + 1, ptr =>
      ptr.takeWhile (· ≠ ';') ::
        match ptr.dropWhile (· ≠ ';') with
        | [] => []
        | _ :: rest => splitFields n rest

/-- `nitems(fields)`. -/
def nitems : Nat := 9

/-- `sizeof tmp`. -/
def tmpSize : Nat := 160

/-- A number that takes all of its field. -/
def readField (field : List Char) : Option Int :=
  match strtoll field with
  | (n, []) => some n
  | _ => none

/-- The numbers behind `7777`, six or eight; six leave the last mouse position. -/
def fieldsOf (tty : Tty) : List Int → Option Fields
  | [yoffMilli, xoffMilli, ydelta, xdelta, precision, momentum] =>
      some { yoffMilli, xoffMilli, ydelta, xdelta, precision, momentum
             mx := tty.mouseLastX, my := tty.mouseLastY }
  | [yoffMilli, xoffMilli, ydelta, xdelta, precision, momentum, mx, my] =>
      some { yoffMilli, xoffMilli, ydelta, xdelta, precision, momentum, mx, my }
  | _ => none

/-- The packet in `tmp`, the text between `ESC [ ?` and the tilde. -/
def readPacket (tty : Tty) (tmp : List Char) : Option Fields :=
  match splitFields nitems (tmp.takeWhile (· ≠ nul)) with
  | id :: fields =>
      if id = "7777".toList then
        match (fields.mapM readField).bind (fieldsOf tty) with
        | some f => if f.ydelta = 0 ∨ f.mx < 0 ∨ f.my < 0 then none else some f
        | none => none
      else none
  | [] => none

/-- `tty_keys_newmux_scroll` up to the numbers of the packet. -/
def scrollPacket (tty : Tty) (buf : List Char) : Parsed Fields :=
  match buf with
  | [] => .no
  | c :: buf =>
      if c ≠ esc then .no
      else
        match buf with
        | [] => .more
        | c :: buf =>
            if c ≠ '[' then .no
            else
              match buf with
              | [] => .more
              | c :: buf =>
                  if c ≠ '?' then .no
                  else
                    let tmp := (buf.take (tmpSize - 3)).takeWhile (· ≠ '~')
                    if tmp.length = buf.length then .more
                    else if tmp.length = tmpSize - 3 then .no
                    else
                      match readPacket tty tmp with
                      | some f => .key (3 + tmp.length + 1) f
                      | none => .no

/-! ## The event -/

def mouseWheelUp : Nat := 64
def mouseWheelDown : Nat := 65

/-- `tty_keys_newmux_absll`. -/
def absll (n : Int) : Nat := if n < 0 then (-(n + 1)).toNat + 1 else n.toNat

/-- What the wheel moved by in thousandths of a line, in 64-bit arithmetic. -/
def scrollLinesMilli (tty : Tty) (f : Fields) : Nat :=
  let delta := absll f.ydelta * 1000 % 2 ^ 64
  let lines :=
    if f.precision ≠ 0 ∧ tty.ypixel ≠ 0 ∧ tty.sy ≠ 0 then
      let lines := absll f.yoffMilli * tty.sy % 2 ^ 64 / tty.ypixel
      if lines < delta then delta else lines
    else delta
  let lines := if lines = 0 then 1000 else lines
  if lines > uintMax then uintMax else lines

/-- What the function sets of `struct mouse_event`. -/
structure MouseEvent where
  lx : Nat
  ly : Nat
  lb : Nat
  x : Nat
  y : Nat
  b : Nat
  sgrType : Char
  sgrB : Nat
  newmuxScrollValid : Bool
  newmuxScrollLinesMilli : Nat
  newmuxScrollPrecision : Bool
  newmuxScrollMomentum : Int
deriving DecidableEq, Repr

/-- The event of a packet; coordinates and momentum are cut to 32 bits. -/
def scrollEvent (tty : Tty) (f : Fields) : MouseEvent :=
  let b := if f.ydelta > 0 then mouseWheelUp else mouseWheelDown
  { lx := tty.mouseLastX
    ly := tty.mouseLastY
    lb := tty.mouseLastB
    x := (f.mx % 2 ^ 32).toNat
    y := (f.my % 2 ^ 32).toNat
    b
    sgrType := 'M'
    sgrB := b
    newmuxScrollValid := true
    newmuxScrollLinesMilli := scrollLinesMilli tty f
    newmuxScrollPrecision := decide (f.precision ≠ 0)
    newmuxScrollMomentum := f.momentum.bmod (2 ^ 32) }

/-- `tty_keys_newmux_scroll`. -/
def newmuxScroll (tty : Tty) (buf : List Char) : Parsed (MouseEvent × Tty) :=
  match scrollPacket tty buf with
  | .key size f =>
      let m := scrollEvent tty f
      .key size (m, { tty with mouseLastX := m.x, mouseLastY := m.y, mouseLastB := m.b })
  | .no => .no
  | .more => .more

end Newmux.Keys
