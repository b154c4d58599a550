import Newmux.Base.Decimal
import Mathlib.Data.UInt

/-!
# Scroll reports

`newmuxMouseScrollReport` of the app's surface: a wheel event written as a private
sequence into the fixed buffer of a small write.
-/

namespace Newmux.App

open Newmux.Base

/-- `input.mouse.Momentum`. -/
inductive Momentum
  | none
  | began
  | stationary
  | changed
  | ended
  | cancelled
  | mayBegin
deriving DecidableEq, Repr

/-- `@intFromEnum`. -/
def Momentum.toNat : Momentum → Nat
  | .none => 0
  | .began => 1
  | .stationary => 2
  | .changed => 3
  | .ended => 4
  | .cancelled => 5
  | .mayBegin => 6

/-- `input.ScrollMods`. -/
structure ScrollMods where
  precision : Bool
  momentum : Momentum
deriving DecidableEq, Repr

/-- `terminal.point.Coordinate`. -/
structure Coordinate where
  x : UInt16
  y : UInt32
deriving DecidableEq, Repr

/-- `WriteReq.Small.Max`. -/
def smallMax : Nat := 38

/-- The text `newmuxMouseScrollReport` prints; `milli` is the rounding
`@intFromFloat(@round(off * 1000))` of an offset. -/
def scrollText {F : Type} (milli : F → Int64) (xoff yoff : F) (xdelta ydelta : Int64)
    (scrollMods : ScrollMods) (cell : Coordinate) : List Char :=
  let numbers : List Int :=
    [(milli yoff).toInt, (milli xoff).toInt, ydelta.toInt, xdelta.toInt,
      if scrollMods.precision then 1 else 0, scrollMods.momentum.toNat,
      cell.x.toNat, cell.y.toNat]
  Char.ofNat 27 :: "[?7777;".toList ++ [';'].intercalate (numbers.map Decimal.ofInt) ++ ['~']

/-- `newmuxMouseScrollReport`: what is written, nothing when it does not fit. -/
def newmuxMouseScrollReport {F : Type} (milli : F → Int64) (xoff yoff : F)
    (xdelta ydelta : Int64) (scrollMods : ScrollMods) (cell : Coordinate) :
    Option (List Char) :=
  let data := scrollText milli xoff yoff xdelta ydelta scrollMods cell
  if data.length > smallMax then none else some data

end Newmux.App
