import Newmux.Live.Wheel

/-!
# Live copy mode: runs of the wheel

The wheel engine by itself: events of the smooth mode and firings of the timer, with
what the rest of the mode decides for them (whether there is a selection, whether
the view moved), and another mode that may cover the pane.
-/

namespace Newmux.Live

inductive WheelOp
  | event (sel : Bool) (m : WheelEvent) (now : Nat)
  | timer (sel moved : Bool) (now : Nat)
deriving DecidableEq, Repr

def WheelOp.now : WheelOp → Nat
  | .event _ _ now => now
  | .timer _ _ now => now

namespace Wheel

/-- The engine as a mode starts with it. -/
def initial : Wheel :=
  { lastValid := false, lastTime := 0, emitValid := false, emitTime := 0
    direction := 0, emitCount := 0, pendingMilli := 0, timer := none }

/-- `window_copy_wheel_timer` as far as the engine goes: the lines let out; `moved`
when they moved the view. -/
def fire (w : Wheel) (sel moved : Bool) (now : Nat) : Nat × Wheel :=
  let w := { w with timer := none }
  if !w.lastValid ∨ w.pendingMilli < 1000 then (0, w)
  else
    match w.sinceEmit now with
    | none => (0, w.scheduleTimer now)
    | some since =>
        let step := w.nextStep sel w.direction since
        if step = 0 then (0, w)
        else
          let w := w.consumeStep w.direction step now
          if moved then (step, w.scheduleTimer now) else (step, { w with pendingMilli := 0 })

/-- The lines let out by a step, and the engine after it. -/
def exec (w : Wheel) : WheelOp → Nat × Wheel
  | .event sel m now => w.prefixSmooth sel m now
  | .timer sel moved now => w.fire sel moved now

/-- The lines a run lets out, with their times. -/
def emissions (w : Wheel) : List WheelOp → List (Nat × Nat)
  | [] => []
  | op :: ops =>
      if (w.exec op).1 = 0 then emissions (w.exec op).2 ops
      else (op.now, (w.exec op).1) :: emissions (w.exec op).2 ops

end Wheel

end Newmux.Live
