import Newmux.Live.CopyText

/-!
# Live copy mode: the wheel

How `scroll-up` and `scroll-down` turn wheel events into lines: the smooth engine,
which gathers thousandths of lines and lets them out a frame at a time, and the
single line one. Times are in microseconds.
-/

namespace Newmux.Live

open Newmux.Tmux

/-- A wheel event as the engine reads it; `linesMilli` counts when the terminal
sent `newmux_scroll_valid`. -/
structure WheelEvent where
  up : Bool
  scrollValid : Bool
  linesMilli : Nat
  ignore : Bool
deriving DecidableEq, Repr

def wheelResetUs : Int := 120000
def wheelFrameUs : Int := 8333
def wheelSensitivityMilli : Nat := 2500

/-- `window_copy_wheel_limits`: lines per second and per tick. -/
def wheelLimits (direction : Int) : Nat × Nat := if direction = 1 then (560, 8) else (640, 8)

namespace Wheel

/-- `window_copy_wheel_reset`. -/
def reset (w : Wheel) (direction : Int) (now : Nat) (emitValid : Bool) : Wheel :=
  { w with
    timer := none
    direction
    pendingMilli := 0
    emitCount := 0
    lastTime := now
    emitTime := now
    emitValid }

/-- `window_copy_wheel_ramp_cap`. -/
def rampCap (w : Wheel) (stepCap : Nat) : Nat :=
  let ramp :=
    if w.emitCount < 3 then 1 else if w.emitCount < 7 then 2 else if w.emitCount < 12 then 4 else 8
  if stepCap > ramp then ramp else stepCap

/-- `window_copy_wheel_next_step`; over a selection one line at a time. -/
def nextStep (w : Wheel) (sel : Bool) (direction : Int) (sinceEmit : Nat) : Nat :=
  let limits := wheelLimits direction
  let cap := w.rampCap limits.2
  let cap := if sel ∧ cap > 1 then 1 else cap
  let step := (limits.1 * sinceEmit + 999999) / 1000000 % 2 ^ 32
  let step := if step < 1 then 1 else step
  let step := if step > cap then cap else step
  if step > w.pendingMilli / 1000 then w.pendingMilli / 1000 else step

/-- `window_copy_wheel_consume_step`. -/
def consumeStep (w : Wheel) (direction : Int) (step now : Nat) : Wheel :=
  let pending := w.pendingMilli - step * 1000
  let most := (wheelLimits direction).2 * 1000
  { w with
    pendingMilli := if pending > most then most else pending
    emitCount := if w.emitCount ≠ uintMax then w.emitCount + 1 else w.emitCount
    emitValid := true
    emitTime := now }

/-- The time since the last line was let out, a frame when there was none or the
clock went back; `none` within a frame. -/
def sinceEmit (w : Wheel) (now : Nat) : Option Nat :=
  if w.emitValid then
    let since := (now : Int) - w.emitTime
    if since ≥ 0 ∧ since < wheelFrameUs then none
    else if since < 0 then some wheelFrameUs.toNat
    else some since.toNat
  else some wheelFrameUs.toNat

/-- `window_copy_wheel_schedule_timer`. -/
def scheduleTimer (w : Wheel) (now : Nat) : Wheel :=
  if w.pendingMilli < 1000 then { w with timer := none }
  else if w.timer.isSome then w
  else
    let since := (now : Int) - w.emitTime
    let wait :=
      if w.emitValid ∧ since ≥ 0 ∧ since < wheelFrameUs then (wheelFrameUs - since).toNat else 1
    { w with timer := some (now + wait) }

/-- Whether an event is the first of a new gesture. -/
def restarts (w : Wheel) (direction : Int) (now : Nat) : Bool :=
  let since := (now : Int) - w.lastTime
  direction != w.direction || decide (since > wheelResetUs) || decide (since < 0)

/-- `UINT_MAX` at most. -/
def addMilli (w : Wheel) (milli : Nat) : Wheel :=
  { w with
    pendingMilli := if uintMax - w.pendingMilli > milli then w.pendingMilli + milli else uintMax }

/-- The direction of an event. -/
def directionOf (m : WheelEvent) : Int := if m.up then -1 else 1

/-- `window_copy_wheel_prefix_single_line`. -/
def prefixSingleLine (e : CopyEnv) (w : Wheel) (m : WheelEvent) (now : Nat) : Nat × Wheel :=
  let direction := directionOf m
  if m.ignore then (0, w)
  else if !w.lastValid ∨ w.restarts direction now then
    (1, { w with lastValid := true }.reset direction now true)
  else
    let w := { w with lastTime := now }
    let most := if m.up then e.maxUp else e.maxDown
    let most := if most = 0 then 1 else most
    let wait : Int := ((1000000 + most - 1) / most : Nat)
    let since := (now : Int) - w.emitTime
    if w.emitValid ∧ since ≥ 0 ∧ since < wait then (0, w)
    else (1, { w with emitValid := true, emitTime := now })

/-- The end of `window_copy_wheel_prefix_smooth`: gather the event's lines and let
out what is due. -/
def gather (w : Wheel) (sel : Bool) (m : WheelEvent) (now : Nat) : Nat × Wheel :=
  let direction := directionOf m
  let w :=
    { w with lastTime := now }.addMilli
      (if m.scrollValid then m.linesMilli else wheelSensitivityMilli)
  match w.sinceEmit now with
  | none => (0, w.scheduleTimer now)
  | some since =>
      let step := w.nextStep sel direction since
      if step = 0 then (0, w.scheduleTimer now)
      else (step, (w.consumeStep direction step now).scheduleTimer now)

/-- `window_copy_wheel_prefix_smooth`: a terminal that sends no distances gets its
first line at once. -/
def prefixSmooth (w : Wheel) (sel : Bool) (m : WheelEvent) (now : Nat) : Nat × Wheel :=
  let direction := directionOf m
  if m.ignore then (0, w)
  else if !w.lastValid ∨ w.restarts direction now then
    let w := { w with lastValid := true }.reset direction now !m.scrollValid
    if !m.scrollValid then (1, w) else w.gather sel m now
  else w.gather sel m now

end Wheel

namespace CopyMode

/-- `window_copy_wheel_prefix`: the lines to scroll. -/
def wheelPrefix (e : CopyEnv) (d : CopyMode) (m : Option WheelEvent) (repeats now : Nat) :
    Nat × CopyMode :=
  match m with
  | none => (repeats, d)
  | some m =>
      let p :=
        if e.singleLine then Wheel.prefixSingleLine e d.wheel m now
        else d.wheel.prefixSmooth d.sel m now
      (p.1, { d with wheel := p.2 })

/-- `enum window_copy_cmd_action`, as far as scrolling uses it. -/
inductive Action
  | nothing
  | noop
  | cancel
deriving DecidableEq, Repr

/-- `window_copy_cmd_scroll_down`, towards the live screen. -/
def cmdScrollDown (e : CopyEnv) (d : CopyMode) (m : Option WheelEvent) (repeats now : Nat) :
    Action × CopyMode :=
  let p := d.wheelPrefix e m repeats now
  if p.1 = 0 then (.noop, p.2)
  else
    let d' := p.2.scrollUp e p.1
    if d'.scrollExit ∧ d'.oy = 0 then (.cancel, d')
    else if d'.oy = d.oy then (.noop, d')
    else (.nothing, d')

/-- Whether an event that lets no line out still scrolls one: the first step away
from the live screen. -/
def leavesLive (d : CopyMode) (m : Option WheelEvent) : Bool :=
  match m with
  | none => false
  | some m => d.oy == 0 && m.up && !m.ignore

/-- `window_copy_cmd_scroll_up`, into the history. -/
def cmdScrollUp (e : CopyEnv) (d : CopyMode) (m : Option WheelEvent) (repeats now : Nat) :
    Action × CopyMode :=
  let p := d.wheelPrefix e m repeats now
  if d.hsize = 0 then (.noop, p.2)
  else
    let np := if p.1 = 0 ∧ p.2.leavesLive m then 1 else p.1
    if np = 0 then (.noop, p.2)
    else
      let d' := p.2.scrollDown e np
      if d'.oy = d.oy then (.noop, d') else (.nothing, d')

/-- `scroll-up` or `scroll-down`. -/
def cmdScroll (e : CopyEnv) (d : CopyMode) (up : Bool) (m : Option WheelEvent)
    (repeats now : Nat) : Action × CopyMode :=
  if up then d.cmdScrollUp e m repeats now else d.cmdScrollDown e m repeats now

/-- `window_copy_wheel_timer` once its time has come; the mode is left when it
scrolls to the live screen and `scroll_exit` says so. -/
def wheelTimer (e : CopyEnv) (d : CopyMode) (now : Nat) : Option CopyMode :=
  let w := { d.wheel with timer := none }
  if !w.lastValid ∨ w.pendingMilli < 1000 then some { d with wheel := w }
  else
    match w.sinceEmit now with
    | none => some { d with wheel := w.scheduleTimer now }
    | some since =>
        let step := w.nextStep d.sel w.direction since
        if step = 0 then some { d with wheel := w }
        else
          let moved := { d with wheel := w.consumeStep w.direction step now }
          let d' := if w.direction = 1 then moved.scrollUp e step else moved.scrollDown e step
          if d'.oy = d.oy then some { d' with wheel := { d'.wheel with pendingMilli := 0 } }
          else if d'.scrollExit ∧ w.direction = 1 ∧ d'.oy = 0 then none
          else some { d' with wheel := d'.wheel.scheduleTimer now }

end CopyMode

end Newmux.Live
