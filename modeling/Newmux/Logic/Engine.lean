import Newmux.Live.WheelRun
import Newmux.Logic.Bounds

/-!
# The wheel engine, step by step

What gathering an event and firing the timer can do, and that the mode's own timer
and commands do to the engine what these do.
-/

namespace Newmux.Live

namespace Wheel

variable {w : Wheel} {sel moved : Bool} {m : WheelEvent} {direction : Int} {now since : Nat}

/-! ## Steps -/

/-- The most lines one step lets out. -/
def lineCap (w : Wheel) (sel : Bool) (direction : Int) : Nat :=
  let cap := w.rampCap (wheelLimits direction).2
  if sel ∧ cap > 1 then 1 else cap

theorem tick_eq (direction : Int) : (wheelLimits direction).2 = 8 := by
  unfold wheelLimits
  split <;> rfl

theorem rampCap_bounds (w : Wheel) : 1 ≤ w.rampCap 8 ∧ w.rampCap 8 ≤ 8 := by
  unfold rampCap
  dsimp only
  split_ifs <;> decide

theorem lineCap_bounds (w : Wheel) (sel : Bool) (direction : Int) :
    1 ≤ w.lineCap sel direction ∧ w.lineCap sel direction ≤ 8 := by
  have := w.rampCap_bounds
  unfold lineCap
  rw [tick_eq]
  dsimp only
  split <;> omega

/-- A step is what the rate rounds up to, within the cap and what is pending. -/
theorem nextStep_eq (w : Wheel) (sel : Bool) (direction : Int) (since : Nat) :
    w.nextStep sel direction since =
      min (min (max 1 (((wheelLimits direction).1 * since + 999999) / 1000000 % 2 ^ 32))
        (w.lineCap sel direction)) (w.pendingMilli / 1000) := by
  unfold nextStep lineCap
  dsimp only
  generalize ((wheelLimits direction).1 * since + 999999) / 1000000 % 2 ^ 32 = step
  generalize (if sel = true ∧ w.rampCap (wheelLimits direction).2 > 1 then 1
    else w.rampCap (wheelLimits direction).2) = cap
  split_ifs <;> omega

theorem nextStep_le (w : Wheel) (sel : Bool) (direction : Int) (since : Nat) :
    w.nextStep sel direction since ≤ 8 ∧
      w.nextStep sel direction since * 1000 ≤ w.pendingMilli := by
  have := w.lineCap_bounds sel direction
  rw [nextStep_eq]
  omega

theorem nextStep_pos (hpending : 1000 ≤ w.pendingMilli) : 0 < w.nextStep sel direction since := by
  have := w.lineCap_bounds sel direction
  rw [nextStep_eq]
  omega

theorem consumeStep_pending (w : Wheel) (direction : Int) (step now : Nat) :
    (w.consumeStep direction step now).pendingMilli = min (w.pendingMilli - step * 1000) 8000 := by
  unfold consumeStep
  rw [tick_eq]
  dsimp only
  split <;> omega

/-! ## The timer -/

theorem scheduleTimer_eq (w : Wheel) (now : Nat) :
    ∃ timer, w.scheduleTimer now = { w with timer } := by
  unfold scheduleTimer
  split
  · exact ⟨_, rfl⟩
  · split
    · exact ⟨_, rfl⟩
    · exact ⟨_, rfl⟩

/-- With a line pending the timer is set. -/
theorem scheduleTimer_armed (hpending : 1000 ≤ w.pendingMilli) (now : Nat) :
    (w.scheduleTimer now).timer.isSome = true := by
  unfold scheduleTimer
  rw [if_neg (by omega)]
  split
  · assumption
  · rfl

/-! ## Steps of a run -/

/-- The engine with the lines of an event. -/
def taken (w : Wheel) (m : WheelEvent) (now : Nat) : Wheel :=
  { w with lastTime := now }.addMilli
    (if m.scrollValid then m.linesMilli else wheelSensitivityMilli)

/-- What is due is let out, or nothing is. -/
theorem gather_cases (w : Wheel) (sel : Bool) (m : WheelEvent) (now : Nat) :
    w.gather sel m now = (0, (w.taken m now).scheduleTimer now) ∨
      ∃ since step, (w.taken m now).sinceEmit now = some since ∧
        step = (w.taken m now).nextStep sel (directionOf m) since ∧ step ≠ 0 ∧
        w.gather sel m now =
          (step, ((w.taken m now).consumeStep (directionOf m) step now).scheduleTimer now) := by
  unfold gather
  rw [← taken]
  dsimp only
  cases hsince : (w.taken m now).sinceEmit now with
  | none => exact .inl rfl
  | some since =>
      dsimp only
      by_cases hstep : (w.taken m now).nextStep sel (directionOf m) since = 0
      · exact .inl (if_pos hstep)
      · exact .inr ⟨since, _, rfl, rfl, hstep, if_neg hstep⟩

/-- The lines due do not depend on the timer. -/
theorem fire_eq (w : Wheel) (sel moved : Bool) (now : Nat) :
    w.fire sel moved now =
      if !w.lastValid ∨ w.pendingMilli < 1000 then (0, { w with timer := none })
      else
        match w.sinceEmit now with
        | none => (0, { w with timer := none }.scheduleTimer now)
        | some since =>
            let step := w.nextStep sel w.direction since
            if step = 0 then (0, { w with timer := none })
            else
              let w' := { w with timer := none }.consumeStep w.direction step now
              if moved then (step, w'.scheduleTimer now)
              else (step, { w' with pendingMilli := 0 }) := rfl

/-- The timer finds nothing to do, comes within a frame, or lets lines out. -/
theorem fire_cases (w : Wheel) (sel moved : Bool) (now : Nat) :
    ((w.lastValid = false ∨ w.pendingMilli < 1000) ∧
        w.fire sel moved now = (0, { w with timer := none })) ∨
      (1000 ≤ w.pendingMilli ∧
        w.fire sel moved now = (0, { w with timer := none }.scheduleTimer now)) ∨
      ∃ since step, w.lastValid = true ∧ w.sinceEmit now = some since ∧
        step = w.nextStep sel w.direction since ∧ step ≠ 0 ∧
        w.fire sel moved now = (step,
          if moved then ({ w with timer := none }.consumeStep w.direction step now).scheduleTimer now
          else { { w with timer := none }.consumeStep w.direction step now with
            pendingMilli := 0 }) := by
  rw [fire_eq]
  by_cases hidle : w.lastValid = false ∨ w.pendingMilli < 1000
  · refine .inl ⟨hidle, if_pos ?_⟩
    simpa using hidle
  · rw [if_neg (by simpa using hidle)]
    have hpending : 1000 ≤ w.pendingMilli := by omega
    cases hsince : w.sinceEmit now with
    | none => exact .inr (.inl ⟨hpending, rfl⟩)
    | some since =>
        have hstep : w.nextStep sel w.direction since ≠ 0 := (nextStep_pos hpending).ne'
        have hlast : w.lastValid = true := by
          rw [not_or, Bool.not_eq_false] at hidle
          exact hidle.1
        refine .inr (.inr ⟨since, _, hlast, rfl, rfl, hstep, ?_⟩)
        dsimp only
        rw [if_neg hstep]
        cases moved with
        | false => simp only [Bool.false_eq_true, if_false]
        | true => simp only [if_true]

/-- An event is ignored, starts a gesture or goes on with it. -/
theorem prefixSmooth_cases (w : Wheel) (sel : Bool) (m : WheelEvent) (now : Nat) :
    (m.ignore = true ∧ w.prefixSmooth sel m now = (0, w)) ∨
      (m.ignore = false ∧ (w.lastValid = false ∨ w.restarts (directionOf m) now = true) ∧
        m.scrollValid = false ∧
        w.prefixSmooth sel m now = (1, { w with lastValid := true }.reset (directionOf m) now true)) ∨
      (m.ignore = false ∧ (w.lastValid = false ∨ w.restarts (directionOf m) now = true) ∧
        m.scrollValid = true ∧
        w.prefixSmooth sel m now =
          ({ w with lastValid := true }.reset (directionOf m) now false).gather sel m now) ∨
      (m.ignore = false ∧ w.lastValid = true ∧ w.restarts (directionOf m) now = false ∧
        w.prefixSmooth sel m now = w.gather sel m now) := by
  unfold prefixSmooth
  dsimp only
  by_cases hignore : m.ignore = true
  · exact .inl ⟨hignore, if_pos hignore⟩
  · rw [if_neg hignore]
    have hignore : m.ignore = false := by simpa using hignore
    by_cases hrestart : w.lastValid = false ∨ w.restarts (directionOf m) now = true
    · rw [if_pos (by simpa using hrestart)]
      cases hvalid : m.scrollValid with
      | false => exact .inr (.inl ⟨hignore, hrestart, rfl, rfl⟩)
      | true =>
          refine .inr (.inr (.inl ⟨hignore, hrestart, rfl, ?_⟩))
          simp only [Bool.not_true, Bool.false_eq_true, if_false]
    · rw [if_neg (by simpa using hrestart)]
      rw [not_or, Bool.not_eq_false, Bool.not_eq_true] at hrestart
      exact .inr (.inr (.inr ⟨hignore, hrestart.1, hrestart.2, rfl⟩))

end Wheel

/-! ## The mode's engine -/

namespace CopyMode

variable {e : CopyEnv} {d d' : CopyMode} {now : Nat}

/-- The timer of the mode does to the engine what a firing does. -/
theorem wheelTimer_wheel (h : d.wheelTimer e now = some d') :
    ∃ moved, d'.wheel = (d.wheel.fire d.sel moved now).2 := by
  have htimer : d.wheelTimer e now =
      if !d.wheel.lastValid ∨ d.wheel.pendingMilli < 1000 then
        some { d with wheel := { d.wheel with timer := none } }
      else
        match d.wheel.sinceEmit now with
        | none => some { d with wheel := { d.wheel with timer := none }.scheduleTimer now }
        | some since =>
            let step := d.wheel.nextStep d.sel d.wheel.direction since
            if step = 0 then some { d with wheel := { d.wheel with timer := none } }
            else
              let moved := { d with
                wheel := { d.wheel with timer := none }.consumeStep d.wheel.direction step now }
              let d' := if d.wheel.direction = 1 then moved.scrollUp e step else moved.scrollDown e step
              if d'.oy = d.oy then some { d' with wheel := { d'.wheel with pendingMilli := 0 } }
              else if d'.scrollExit ∧ d.wheel.direction = 1 ∧ d'.oy = 0 then none
              else some { d' with wheel := d'.wheel.scheduleTimer now } := rfl
  rw [htimer] at h
  simp only [Wheel.fire_eq]
  by_cases hidle : (!d.wheel.lastValid) = true ∨ d.wheel.pendingMilli < 1000
  · rw [if_pos hidle] at h
    cases h
    exact ⟨true, by rw [if_pos hidle]⟩
  · rw [if_neg hidle] at h
    simp only [if_neg hidle]
    cases hsince : d.wheel.sinceEmit now with
    | none =>
        rw [hsince] at h
        cases h
        exact ⟨true, rfl⟩
    | some since =>
        rw [hsince] at h
        dsimp only at h ⊢
        generalize d.wheel.nextStep d.sel d.wheel.direction since = step at h ⊢
        by_cases hstep : step = 0
        · rw [if_pos hstep] at h
          cases h
          exact ⟨true, by rw [if_pos hstep]⟩
        · rw [if_neg hstep] at h
          simp only [if_neg hstep]
          -- the step is taken off the engine before the rows scroll
          have hwheel : ∀ moved : CopyMode,
              (if d.wheel.direction = 1 then moved.scrollUp e step
                else moved.scrollDown e step).wheel = moved.wheel := by
            intro moved
            split
            · exact (moves_scrollUp e moved step).wheel
            · exact (moves_scrollDown e moved step).wheel
          have hscrolled := hwheel { d with
            wheel := { d.wheel with timer := none }.consumeStep d.wheel.direction step now }
          revert h hscrolled
          generalize (if d.wheel.direction = 1 then _ else _ : CopyMode) = scrolled
          intro h hscrolled
          split at h
          · cases h
            exact ⟨false, by rw [hscrolled]; rfl⟩
          · split at h
            · cases h
            · cases h
              exact ⟨true, by rw [hscrolled]; rfl⟩

/-- Past the engine a scroll command only scrolls. -/
theorem wheel_cmdScroll (e : CopyEnv) (d : CopyMode) (up : Bool) (m : Option WheelEvent)
    (repeats now : Nat) :
    (d.cmdScroll e up m repeats now).2.wheel = (d.wheelPrefix e m repeats now).2.wheel := by
  unfold cmdScroll
  split
  · unfold cmdScrollUp
    dsimp only
    split
    · rfl
    · split_ifs <;> first | rfl | exact (moves_scrollDown ..).wheel
  · unfold cmdScrollDown
    dsimp only
    split_ifs <;> first | rfl | exact (moves_scrollUp ..).wheel

/-- A wheel event does to the smooth engine what the engine's own step does. -/
theorem cmdScroll_wheel (hsmooth : e.singleLine = false) (up : Bool) (m : WheelEvent)
    (repeats now : Nat) :
    (d.cmdScroll e up (some m) repeats now).2.wheel = (d.wheel.prefixSmooth d.sel m now).2 := by
  rw [wheel_cmdScroll]
  unfold wheelPrefix
  dsimp only
  rw [hsmooth]
  rfl

end CopyMode

end Newmux.Live
