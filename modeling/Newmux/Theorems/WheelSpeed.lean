import Newmux.Base.Pace
import Newmux.Base.TSys
import Newmux.Logic.Engine

/-!
# Lines per second

The engine rounds the lines of each step up, so it is within its rate in a gesture
whose steps come to whole lines, or are kept below the rate by the cap or by what is
pending.
-/

namespace Newmux.Live

open Newmux.Base

namespace Wheel

/-- A step that goes on with the gesture. -/
def Continues (w : Wheel) : WheelOp → Prop
  | .event _ m now => m.ignore = true ∨ (w.lastValid = true ∧ w.restarts (directionOf m) now = false)
  | .timer _ _ _ => True

instance (w : Wheel) : DecidablePred w.Continues := by
  intro op
  cases op <;> unfold Continues <;> infer_instance

/-- The lines of a step are not above the rate: the cap and the lines pending are not,
or the rate comes to whole lines. -/
def Whole (w : Wheel) (sel : Bool) (direction : Int) (since : Nat) : Prop :=
  min (w.lineCap sel direction) (w.pendingMilli / 1000) * 1000000 ≤
      (wheelLimits direction).1 * since ∨
    1000000 ∣ (wheelLimits direction).1 * since

/-- The same, for the lines a step of a run lets out. -/
def WholeLines (w : Wheel) : WheelOp → Prop
  | .event sel m now => m.ignore = false →
      ∀ since ∈ (w.taken m now).sinceEmit now, (w.taken m now).Whole sel (directionOf m) since
  | .timer sel _ now => w.lastValid = true →
      ∀ since ∈ w.sinceEmit now, w.Whole sel w.direction since

instance (w : Wheel) (sel : Bool) (direction : Int) (since : Nat) :
    Decidable (w.Whole sel direction since) := inferInstanceAs (Decidable (_ ∨ _))

instance (w : Wheel) : DecidablePred w.WholeLines := by
  intro op
  cases op <;> unfold WholeLines <;> infer_instance

variable {w : Wheel} {sel moved : Bool} {m : WheelEvent} {direction : Int} {now since : Nat}
  {op : WheelOp} {ops : List WheelOp}

/-! ## The time since the last lines -/

@[simp] theorem scheduleTimer_emitValid (w : Wheel) (now : Nat) :
    (w.scheduleTimer now).emitValid = w.emitValid := by
  obtain ⟨timer, heq⟩ := w.scheduleTimer_eq now
  rw [heq]

@[simp] theorem scheduleTimer_emitTime (w : Wheel) (now : Nat) :
    (w.scheduleTimer now).emitTime = w.emitTime := by
  obtain ⟨timer, heq⟩ := w.scheduleTimer_eq now
  rw [heq]

@[simp] theorem scheduleTimer_direction (w : Wheel) (now : Nat) :
    (w.scheduleTimer now).direction = w.direction := by
  obtain ⟨timer, heq⟩ := w.scheduleTimer_eq now
  rw [heq]

/-- Lines are let out a frame after the last ones, at least. -/
theorem sinceEmit_eq (hvalid : w.emitValid = true) (htime : w.emitTime ≤ now)
    (hsince : w.sinceEmit now = some since) : since = now - w.emitTime ∧ 8333 ≤ since := by
  unfold sinceEmit wheelFrameUs at hsince
  rw [if_pos hvalid] at hsince
  dsimp only at hsince
  split_ifs at hsince with hframe hback
  · omega
  · cases hsince
    omega

/-! ## One step -/

theorem rate_bounds (direction : Int) :
    560 ≤ (wheelLimits direction).1 ∧ (wheelLimits direction).1 ≤ 640 := by
  unfold wheelLimits
  split <;> decide

/-- What rounds up to at most `n` is at most `n`, and exact where it is whole. -/
theorem nextStep_within (hwhole : w.Whole sel direction since) (hframe : 8333 ≤ since) :
    1000000 * w.nextStep sel direction since ≤ (wheelLimits direction).1 * since := by
  have hline : 1000000 ≤ (wheelLimits direction).1 * since :=
    calc 1000000 ≤ 560 * 8333 := by decide
      _ ≤ (wheelLimits direction).1 * since := Nat.mul_le_mul (rate_bounds direction).1 hframe
  rw [nextStep_eq]
  unfold Whole at hwhole
  generalize (wheelLimits direction).1 * since = due at hwhole hline ⊢
  obtain hcap | ⟨lines, rfl⟩ := hwhole
  · omega
  · have hlines : (1000000 * lines + 999999) / 1000000 = lines := by omega
    have hmod : lines % 2 ^ 32 ≤ lines := Nat.mod_le ..
    rw [hlines]
    omega

/-- A step lets out a tick at most. -/
theorem exec_le (w : Wheel) (op : WheelOp) : (w.exec op).1 ≤ 8 := by
  have hgather : ∀ w : Wheel, ∀ sel m now, (w.gather sel m now).1 ≤ 8 := by
    intro w sel m now
    obtain heq | ⟨since, step, -, hstep, -, heq⟩ := gather_cases w sel m now
    · rw [heq]
      exact Nat.zero_le _
    · rw [heq, hstep]
      exact (nextStep_le ..).1
  cases op with
  | event sel m now =>
      show (w.prefixSmooth sel m now).1 ≤ 8
      obtain ⟨-, heq⟩ | ⟨-, -, -, heq⟩ | ⟨-, -, -, heq⟩ | ⟨-, -, -, heq⟩ :=
        prefixSmooth_cases w sel m now
      · rw [heq]
        exact Nat.zero_le _
      · rw [heq]
        exact show 1 ≤ 8 by decide
      · rw [heq]
        exact hgather ..
      · rw [heq]
        exact hgather ..
  | timer sel moved now =>
      show (w.fire sel moved now).1 ≤ 8
      obtain ⟨-, heq⟩ | ⟨-, heq⟩ | ⟨since, step, -, -, hstep, -, heq⟩ := fire_cases w sel moved now
      · rw [heq]
        exact Nat.zero_le _
      · rw [heq]
        exact Nat.zero_le _
      · rw [heq, hstep]
        exact (nextStep_le ..).1

theorem gather_emits (h : (w.gather sel m now).1 ≠ 0) :
    (w.gather sel m now).2.emitValid = true ∧ (w.gather sel m now).2.emitTime = now := by
  obtain heq | ⟨since, step, -, -, -, heq⟩ := gather_cases w sel m now
  · rw [heq] at h
    exact absurd rfl h
  · rw [heq]
    simp [consumeStep]

/-- After a step that lets lines out, their time is known. -/
theorem exec_emits (h : (w.exec op).1 ≠ 0) :
    (w.exec op).2.emitValid = true ∧ (w.exec op).2.emitTime = op.now := by
  cases op with
  | event sel m now =>
      revert h
      show (w.prefixSmooth sel m now).1 ≠ 0 → (w.prefixSmooth sel m now).2.emitValid = true ∧
        (w.prefixSmooth sel m now).2.emitTime = now
      obtain ⟨-, heq⟩ | ⟨-, -, -, heq⟩ | ⟨-, -, -, heq⟩ | ⟨-, -, -, heq⟩ :=
        prefixSmooth_cases w sel m now
      · rw [heq]
        intro h
        exact absurd rfl h
      · rw [heq]
        intro _
        exact ⟨rfl, rfl⟩
      · rw [heq]
        exact gather_emits
      · rw [heq]
        exact gather_emits
  | timer sel moved now =>
      revert h
      show (w.fire sel moved now).1 ≠ 0 → (w.fire sel moved now).2.emitValid = true ∧
        (w.fire sel moved now).2.emitTime = now
      obtain ⟨-, heq⟩ | ⟨-, heq⟩ | ⟨since, step, -, -, -, -, heq⟩ := fire_cases w sel moved now
      · rw [heq]
        intro h
        exact absurd rfl h
      · rw [heq]
        intro h
        exact absurd rfl h
      · rw [heq]
        intro _
        cases moved <;> simp [consumeStep]

/-- A step of a gesture that lets nothing out keeps the time of the last lines, and
every step of it the direction. -/
theorem exec_continues (hcont : w.Continues op) :
    (w.exec op).2.direction = w.direction ∧
      ((w.exec op).1 = 0 →
        (w.exec op).2.emitValid = w.emitValid ∧ (w.exec op).2.emitTime = w.emitTime) := by
  cases op with
  | event sel m now =>
      show (w.prefixSmooth sel m now).2.direction = w.direction ∧
        ((w.prefixSmooth sel m now).1 = 0 →
          (w.prefixSmooth sel m now).2.emitValid = w.emitValid ∧
            (w.prefixSmooth sel m now).2.emitTime = w.emitTime)
      have hstart : m.ignore = false →
          ¬ (w.lastValid = false ∨ w.restarts (directionOf m) now = true) := by
        intro hignore hrestart
        obtain hcont | ⟨hlast, hrestarts⟩ := hcont
        · exact absurd hcont (by simp [hignore])
        · simp [hlast, hrestarts] at hrestart
      obtain ⟨-, heq⟩ | ⟨hignore, hrestart, -⟩ | ⟨hignore, hrestart, -⟩ | ⟨-, -, -, heq⟩ :=
        prefixSmooth_cases w sel m now
      · rw [heq]
        exact ⟨rfl, fun _ => ⟨rfl, rfl⟩⟩
      · exact absurd hrestart (hstart hignore)
      · exact absurd hrestart (hstart hignore)
      · rw [heq]
        obtain heq | ⟨since, step, -, -, hstep, heq⟩ := gather_cases w sel m now
        · rw [heq]
          simp [taken, addMilli]
        · rw [heq]
          refine ⟨?_, fun h => absurd h hstep⟩
          simp [taken, addMilli, consumeStep]
  | timer sel moved now =>
      show (w.fire sel moved now).2.direction = w.direction ∧
        ((w.fire sel moved now).1 = 0 →
          (w.fire sel moved now).2.emitValid = w.emitValid ∧
            (w.fire sel moved now).2.emitTime = w.emitTime)
      obtain ⟨-, heq⟩ | ⟨-, heq⟩ | ⟨since, step, -, -, -, hstep, heq⟩ := fire_cases w sel moved now
      · rw [heq]
        exact ⟨rfl, fun _ => ⟨rfl, rfl⟩⟩
      · rw [heq]
        simp
      · rw [heq]
        refine ⟨?_, fun h => absurd h hstep⟩
        cases moved <;> simp [consumeStep]

theorem direction_of_continues (h : w.restarts (directionOf m) now = false) :
    directionOf m = w.direction := by
  unfold restarts at h
  simp at h
  exact h.1.1

/-- The lines of a step are within the rate for the time since the last ones. -/
theorem exec_within (hcont : w.Continues op) (hwhole : w.WholeLines op)
    (hvalid : w.emitValid = true) (htime : w.emitTime ≤ op.now) :
    1000000 * (w.exec op).1 ≤ (wheelLimits w.direction).1 * (op.now - w.emitTime) := by
  cases op with
  | event sel m now =>
      show 1000000 * (w.prefixSmooth sel m now).1 ≤ _
      obtain ⟨-, heq⟩ | ⟨hignore, hrestart, -⟩ | ⟨hignore, hrestart, -⟩ | ⟨hignore, -, hgoes, heq⟩ :=
        prefixSmooth_cases w sel m now
      · rw [heq]
        exact Nat.zero_le _
      · obtain hcont | ⟨hlast, hrestarts⟩ := hcont
        · simp [hcont] at hignore
        · simp [hlast, hrestarts] at hrestart
      · obtain hcont | ⟨hlast, hrestarts⟩ := hcont
        · simp [hcont] at hignore
        · simp [hlast, hrestarts] at hrestart
      · rw [heq]
        -- only an event that goes on with the gesture lets lines out
        obtain heq | ⟨since, step, hsince, hstep, -, heq⟩ := gather_cases w sel m now
        · rw [heq]
          exact Nat.zero_le _
        · obtain ⟨hnow, hframe⟩ := sinceEmit_eq (w := w.taken m now) hvalid htime hsince
          have hstep_le := nextStep_within (hwhole hignore since hsince) hframe
          rw [heq, ← direction_of_continues hgoes, hstep]
          rw [hnow] at hstep_le ⊢
          exact hstep_le
  | timer sel moved now =>
      show 1000000 * (w.fire sel moved now).1 ≤ _
      obtain ⟨-, heq⟩ | ⟨-, heq⟩ | ⟨since, step, hlast, hsince, hstep, -, heq⟩ :=
        fire_cases w sel moved now
      · rw [heq]
        exact Nat.zero_le _
      · rw [heq]
        exact Nat.zero_le _
      · obtain ⟨hnow, hframe⟩ := sinceEmit_eq hvalid htime hsince
        have hstep_le := nextStep_within (hwhole hlast since hsince) hframe
        rw [heq, hstep]
        rw [hnow] at hstep_le ⊢
        exact hstep_le

/-! ## The run -/

/-- The engine after a step. -/
def next (w : Wheel) (op : WheelOp) : Wheel := (w.exec op).2

theorem emissions_le (w : Wheel) (ops : List WheelOp) : ∀ e ∈ w.emissions ops, e.2 ≤ 8 := by
  induction ops generalizing w with
  | nil =>
      intro e he
      cases he
  | cons op ops ih =>
      intro e he
      unfold emissions at he
      split at he
      · exact ih _ e he
      · obtain rfl | he := List.mem_cons.mp he
        · exact w.exec_le op
        · exact ih _ e he

/-- From a time the last lines went out, the lines keep to the rate. -/
theorem paced (hcont : TSys.RunOk Continues next w ops) (hwhole : TSys.RunOk WholeLines next w ops)
    (hvalid : w.emitValid = true) (htimes : (w.emitTime :: ops.map WheelOp.now).Pairwise (· ≤ ·)) :
    Pace.Paced (wheelLimits w.direction).1 1000000 w.emitTime (w.emissions ops) := by
  induction ops generalizing w with
  | nil => trivial
  | cons op ops ih =>
      obtain ⟨hfirst, hcont⟩ := hcont
      obtain ⟨hwhole_first, hwhole⟩ := hwhole
      obtain ⟨hafter, hrest⟩ := List.pairwise_cons.mp htimes
      have htime : w.emitTime ≤ op.now := hafter _ (by simp)
      have hdirection := (exec_continues hfirst).1
      unfold emissions
      split
      · -- nothing goes out, and the time of the last lines stays
        rename_i hquiet
        obtain ⟨hvalid', htime'⟩ := (exec_continues hfirst).2 hquiet
        have hpaced := ih hcont hwhole (hvalid'.trans hvalid) (by
          show ((w.exec op).2.emitTime :: _).Pairwise _
          rw [htime']
          exact List.pairwise_cons.mpr
            ⟨fun t ht => hafter t (by simp [ht]), (List.pairwise_cons.mp hrest).2⟩)
        unfold next at hpaced
        rwa [hdirection, htime'] at hpaced
      · -- lines go out, and the pace goes on from here
        rename_i hemits
        obtain ⟨hvalid', htime'⟩ := exec_emits hemits
        have hpaced := ih hcont hwhole hvalid' (by
          show ((w.exec op).2.emitTime :: _).Pairwise _
          rw [htime']
          exact hrest)
        unfold next at hpaced
        rw [hdirection, htime'] at hpaced
        exact ⟨htime, exec_within hfirst hwhole_first hvalid htime, hpaced⟩

/-- After the first lines of a gesture, the rest keep to the rate. -/
theorem pacedFrom (hcont : TSys.RunOk Continues next w ops)
    (hwhole : TSys.RunOk WholeLines next w ops)
    (htimes : (ops.map WheelOp.now).Pairwise (· ≤ ·)) :
    Pace.PacedFrom (wheelLimits w.direction).1 1000000 (w.emissions ops) := by
  induction ops generalizing w with
  | nil => trivial
  | cons op ops ih =>
      have hdirection := (exec_continues hcont.1).1
      unfold emissions
      split
      · have hpaced := ih hcont.2 hwhole.2 (List.pairwise_cons.mp htimes).2
        unfold next at hpaced
        rwa [hdirection] at hpaced
      · rename_i hemits
        obtain ⟨hvalid, htime⟩ := exec_emits hemits
        have hpaced := paced hcont.2 hwhole.2 hvalid (by
          show ((w.exec op).2.emitTime :: _).Pairwise _
          rw [htime]
          exact htimes)
        unfold next at hpaced
        rw [hdirection, htime] at hpaced
        exact hpaced

end Wheel

/-- In a gesture whose steps let out whole lines, any interval gets the lines the rate
allows for it and a tick. -/
theorem within_le_of_wholeLines (w : Wheel) (op : WheelOp) (ops : List WheelOp)
    (hcont : TSys.RunOk Wheel.Continues Wheel.next (w.next op) ops)
    (htimes : ((op :: ops).map WheelOp.now).Pairwise (· ≤ ·))
    (hwhole : TSys.RunOk Wheel.WholeLines Wheel.next (w.next op) ops) (a len : Nat) :
    1000000 * Pace.within (w.emissions (op :: ops)) a (a + len) ≤
      (wheelLimits (w.next op).direction).1 * len + 1000000 * 8 := by
  refine Pace.PacedFrom.within_le ?_ (w.emissions_le (op :: ops)) a len
  unfold Wheel.emissions
  split
  · exact Wheel.pacedFrom hcont hwhole (List.pairwise_cons.mp htimes).2
  · rename_i hemits
    obtain ⟨hvalid, htime⟩ := Wheel.exec_emits hemits
    have hpaced := Wheel.paced hcont hwhole hvalid (by
      show ((w.exec op).2.emitTime :: _).Pairwise _
      rw [htime]
      exact htimes)
    unfold Wheel.next at hpaced ⊢
    rw [htime] at hpaced
    exact hpaced

/-! ## A steady flick -/

/-- Eight lines of movement each frame. -/
def flick (i : Nat) : WheelOp := .event false ⟨true, true, 8000, false⟩ (8333 * i)

/-- Up to the last step of the ramp the lines are whole. -/
theorem within_ramp :
    1000000 * Pace.within (Wheel.initial.emissions (flick 0 :: (List.range' 1 11).map flick)) 0 91663 ≤
      640 * 91663 + 1000000 * 8 :=
  within_le_of_wholeLines Wheel.initial (flick 0) ((List.range' 1 11).map flick)
    (by decide) (by decide) (by decide) 0 91663

/-- At the full ramp each frame lets out six lines where the rate is five and a third:
after four frames they are over it. -/
theorem within_flick :
    ¬ ∀ (w : Wheel) (op : WheelOp) (ops : List WheelOp),
      TSys.RunOk Wheel.Continues Wheel.next (w.next op) ops →
        ((op :: ops).map WheelOp.now).Pairwise (· ≤ ·) → ∀ a len,
          1000000 * Pace.within (w.emissions (op :: ops)) a (a + len) ≤
            (wheelLimits (w.next op).direction).1 * len + 1000000 * 8 := by
  intro h
  have hover := h Wheel.initial (flick 0) ((List.range' 1 15).map flick) (by decide) (by decide)
    (8333 * 12) (8333 * 3)
  revert hover
  decide

end Newmux.Live
