import Newmux.Base.TSys
import Newmux.Logic.Engine

/-!
# What comes in and what is let out

The account of the engine since its last reset: what events brought, what the steps let
out, what is pending. The timer gives up when it fires under another mode of the pane,
so lines are only sure to come out in a run where it does not.
-/

namespace Newmux.Live

open Newmux.Base Newmux.Tmux

/-! ## One step -/

namespace Wheel

/-- Whether an event starts the engine again. -/
def Starts (w : Wheel) (m : WheelEvent) (now : Nat) : Prop :=
  m.ignore = false ∧ (w.lastValid = false ∨ w.restarts (directionOf m) now = true)

instance (w : Wheel) (m : WheelEvent) (now : Nat) : Decidable (w.Starts m now) :=
  inferInstanceAs (Decidable (_ ∧ _))

/-- The lines, in thousandths, that a step has to let out: what is pending with what the
event brings, or the one line an event without distances starts with. -/
def available (w : Wheel) : WheelOp → Nat
  | .event _ m now =>
      if m.ignore then w.pendingMilli
      else if w.Starts m now then
        if m.scrollValid then
          (({ w with lastValid := true }.reset (directionOf m) now false).taken m now).pendingMilli
        else 1000
      else (w.taken m now).pendingMilli
  | .timer _ _ _ => w.pendingMilli

variable {w : Wheel} {sel moved : Bool} {m : WheelEvent} {now : Nat} {op : WheelOp}

theorem taken_pendingMilli (w : Wheel) (m : WheelEvent) (now : Nat) :
    (w.taken m now).pendingMilli =
      min (w.pendingMilli + if m.scrollValid then m.linesMilli else wheelSensitivityMilli) uintMax := by
  unfold taken addMilli
  dsimp only
  generalize (if m.scrollValid = true then m.linesMilli else wheelSensitivityMilli) = milli
  split <;> omega

theorem reset_pendingMilli (w : Wheel) (direction : Int) (now : Nat) (emitValid : Bool) :
    (w.reset direction now emitValid).pendingMilli = 0 := rfl

@[simp] theorem scheduleTimer_pendingMilli (w : Wheel) (now : Nat) :
    (w.scheduleTimer now).pendingMilli = w.pendingMilli := by
  obtain ⟨timer, heq⟩ := w.scheduleTimer_eq now
  rw [heq]

@[simp] theorem scheduleTimer_lastValid (w : Wheel) (now : Nat) :
    (w.scheduleTimer now).lastValid = w.lastValid := by
  obtain ⟨timer, heq⟩ := w.scheduleTimer_eq now
  rw [heq]

/-- What a step does to the account: no more is let out than there is, at most eight
lines stay pending when some are, and what is pending has its timer. -/
structure Settles (available lines : Nat) (w : Wheel) : Prop where
  balance : 1000 * lines + w.pendingMilli ≤ available
  surplus : lines ≠ 0 → w.pendingMilli ≤ 8000
  armed : 1000 ≤ w.pendingMilli → w.timer.isSome = true

theorem gather_settles (w : Wheel) (sel : Bool) (m : WheelEvent) (now : Nat) :
    Settles (w.taken m now).pendingMilli (w.gather sel m now).1 (w.gather sel m now).2 := by
  have harmed : ∀ w' : Wheel, 1000 ≤ (w'.scheduleTimer now).pendingMilli →
      (w'.scheduleTimer now).timer.isSome = true := by
    intro w' hpending
    rw [scheduleTimer_pendingMilli] at hpending
    exact scheduleTimer_armed hpending now
  obtain heq | ⟨since, step, -, hstep, -, heq⟩ := gather_cases w sel m now
  · rw [heq]
    exact ⟨by simp, fun h => absurd rfl h, harmed _⟩
  · have hle := (nextStep_le (w.taken m now) sel (directionOf m) since).2
    rw [← hstep] at hle
    rw [heq]
    refine ⟨?_, fun _ => ?_, harmed _⟩
    · simp only [scheduleTimer_pendingMilli, consumeStep_pending]
      omega
    · simp only [scheduleTimer_pendingMilli, consumeStep_pending]
      omega

theorem prefixSmooth_settles (harmed : 1000 ≤ w.pendingMilli → w.timer.isSome = true) :
    Settles (w.available (.event sel m now)) (w.prefixSmooth sel m now).1
      (w.prefixSmooth sel m now).2 := by
  show Settles (if m.ignore then w.pendingMilli
    else if w.Starts m now then
      if m.scrollValid then
        (({ w with lastValid := true }.reset (directionOf m) now false).taken m now).pendingMilli
      else 1000
    else (w.taken m now).pendingMilli) _ _
  obtain ⟨hignore, heq⟩ | ⟨hignore, hstart, hdistance, heq⟩ | ⟨hignore, hstart, hdistance, heq⟩ |
    ⟨hignore, hlast, hgoes, heq⟩ := prefixSmooth_cases w sel m now
  · rw [heq, if_pos hignore]
    exact ⟨by simp, fun h => absurd rfl h, harmed⟩
  · rw [heq, if_neg (by simp [hignore]), if_pos ⟨hignore, hstart⟩, if_neg (by simp [hdistance])]
    exact ⟨by simp [reset], by simp [reset], by simp [reset]⟩
  · rw [heq, if_neg (by simp [hignore]), if_pos ⟨hignore, hstart⟩, if_pos hdistance]
    exact gather_settles ..
  · have hgoes' : ¬ w.Starts m now := by
      rintro ⟨-, hstart⟩
      simp [hlast, hgoes] at hstart
    rw [heq, if_neg (by simp [hignore]), if_neg hgoes']
    exact gather_settles ..

theorem fire_settles (hfresh : w.lastValid = false → w.pendingMilli = 0) :
    Settles w.pendingMilli (w.fire sel moved now).1 (w.fire sel moved now).2 := by
  obtain ⟨hidle, heq⟩ | ⟨hpending, heq⟩ | ⟨since, step, -, -, hstep, -, heq⟩ :=
    fire_cases w sel moved now
  · rw [heq]
    refine ⟨by simp, fun h => absurd rfl h, fun hpending => ?_⟩
    have hpending : 1000 ≤ w.pendingMilli := hpending
    obtain hlast | hfew := hidle
    · have := hfresh hlast
      omega
    · omega
  · rw [heq]
    exact ⟨by simp, fun h => absurd rfl h,
      fun _ => scheduleTimer_armed (w := { w with timer := none }) hpending now⟩
  · have hle := (nextStep_le w sel w.direction since).2
    rw [← hstep] at hle
    rw [heq]
    cases moved with
    | false =>
        refine ⟨?_, fun _ => Nat.zero_le _, fun hpending => absurd hpending (by simp)⟩
        show 1000 * step + 0 ≤ w.pendingMilli
        omega
    | true =>
        refine ⟨?_, fun _ => ?_, fun hpending => ?_⟩
        · simp only [if_true, scheduleTimer_pendingMilli, consumeStep_pending]
          omega
        · simp only [if_true, scheduleTimer_pendingMilli, consumeStep_pending]
          omega
        · simp only [if_true, scheduleTimer_pendingMilli] at hpending
          exact scheduleTimer_armed hpending now

theorem exec_settles (harmed : 1000 ≤ w.pendingMilli → w.timer.isSome = true)
    (hfresh : w.lastValid = false → w.pendingMilli = 0) (op : WheelOp) :
    Settles (w.available op) (w.exec op).1 (w.exec op).2 := by
  cases op with
  | event sel m now => exact prefixSmooth_settles harmed
  | timer sel moved now => exact fire_settles hfresh

theorem available_le (hpending : w.pendingMilli ≤ uintMax) (op : WheelOp) :
    w.available op ≤ uintMax := by
  cases op with
  | event sel m now =>
      unfold available
      dsimp only
      split_ifs
      · exact hpending
      · rw [taken_pendingMilli]
        exact Nat.min_le_right ..
      · decide
      · rw [taken_pendingMilli]
        exact Nat.min_le_right ..
  | timer sel moved now => exact hpending

/-- Only an event makes the engine valid, and none makes it invalid. -/
theorem exec_fresh (hfresh : w.lastValid = false → w.pendingMilli = 0)
    (h : (w.exec op).2.lastValid = false) : (w.exec op).2.pendingMilli = 0 := by
  have hgather : ∀ w : Wheel, ∀ sel m now, (w.gather sel m now).2.lastValid = w.lastValid := by
    intro w sel m now
    obtain heq | ⟨since, step, -, -, -, heq⟩ := gather_cases w sel m now
    · rw [heq]
      simp [taken, addMilli]
    · rw [heq]
      simp [taken, addMilli, consumeStep]
  revert h
  cases op with
  | event sel m now =>
      show (w.prefixSmooth sel m now).2.lastValid = false → (w.prefixSmooth sel m now).2.pendingMilli = 0
      obtain ⟨-, heq⟩ | ⟨-, -, -, heq⟩ | ⟨-, -, -, heq⟩ | ⟨-, hlast, -, heq⟩ :=
        prefixSmooth_cases w sel m now
      · rw [heq]
        exact hfresh
      · rw [heq]
        intro h
        cases h
      · rw [heq, hgather]
        intro h
        cases h
      · rw [heq, hgather, hlast]
        intro h
        cases h
  | timer sel moved now =>
      show (w.fire sel moved now).2.lastValid = false → (w.fire sel moved now).2.pendingMilli = 0
      obtain ⟨-, heq⟩ | ⟨-, heq⟩ | ⟨since, step, hlast, -, -, -, heq⟩ := fire_cases w sel moved now
      · rw [heq]
        exact hfresh
      · rw [heq]
        simpa using hfresh
      · rw [heq]
        cases moved <;> simp [consumeStep, hlast]

end Wheel

/-! ## Runs -/

/-- What the mode of a pane does to the engine, and what covers the mode. -/
inductive ModeOp
  | wheel (op : WheelOp)
  | cover
  | uncover
deriving DecidableEq, Repr

/-- The engine of a mode, whether another mode is on top of it, and the account since
the last reset: the thousandths events brought, those of the line an event without
distances starts with, and the lines let out. -/
structure Account where
  wheel : Wheel
  covered : Bool
  incoming : Nat
  extra : Nat
  emitted : Nat
deriving Repr

namespace Account

def initial : Account :=
  { wheel := Wheel.initial, covered := false, incoming := 0, extra := 0, emitted := 0 }

/-- An event or a firing, with the mode on top. -/
def record (a : Account) (op : WheelOp) : Account :=
  let p := a.wheel.exec op
  match op with
  | .event _ m now =>
      let milli := if m.scrollValid then m.linesMilli else wheelSensitivityMilli
      if m.ignore then { a with wheel := p.2, emitted := a.emitted + p.1 }
      else if a.wheel.Starts m now then
        { a with
          wheel := p.2
          incoming := if m.scrollValid then milli else 0
          extra := if m.scrollValid then 0 else 1000
          emitted := p.1 }
      else { a with wheel := p.2, incoming := a.incoming + milli, emitted := a.emitted + p.1 }
  | .timer _ _ _ => { a with wheel := p.2, emitted := a.emitted + p.1 }

/-- A covered mode gets no events, and its timer returns at once. -/
def exec (a : Account) : ModeOp → Account
  | .wheel (.event sel m now) => if a.covered then a else a.record (.event sel m now)
  | .wheel (.timer sel moved now) =>
      if a.covered then { a with wheel := { a.wheel with timer := none } }
      else a.record (.timer sel moved now)
  | .cover => { a with covered := true }
  | .uncover => { a with covered := false }

/-- The timer fires when it is armed, at any time. -/
def system : TSys Account ModeOp where
  init a := a = initial
  step a op a' :=
    (∀ sel moved now, op = .wheel (.timer sel moved now) → a.wheel.timer.isSome = true) ∧
      a' = a.exec op

/-- The timer does not fire under another mode. -/
def KeepsTimer (a : Account) : ModeOp → Prop
  | .wheel (.timer _ _ _) => a.covered = false
  | _ => True

/-- The account is in order. -/
structure Balanced (a : Account) : Prop where
  balance : 1000 * a.emitted + a.wheel.pendingMilli ≤ a.incoming + a.extra
  bound : a.wheel.pendingMilli ≤ uintMax
  armed : 1000 ≤ a.wheel.pendingMilli → a.wheel.timer.isSome = true
  fresh : a.wheel.lastValid = false → a.wheel.pendingMilli = 0

variable {a : Account}

theorem record_wheel (a : Account) (op : WheelOp) : (a.record op).wheel = (a.wheel.exec op).2 := by
  cases op with
  | event sel m now =>
      unfold Account.record
      dsimp only
      split_ifs <;> rfl
  | timer sel moved now => rfl

theorem record_covered (a : Account) (op : WheelOp) : (a.record op).covered = a.covered := by
  cases op with
  | event sel m now =>
      unfold Account.record
      dsimp only
      split_ifs <;> rfl
  | timer sel moved now => rfl

theorem Balanced.record (h : a.Balanced) (op : WheelOp) : (a.record op).Balanced := by
  have hsettles := Wheel.exec_settles h.armed h.fresh op
  have hbalance := hsettles.balance
  have hwheel := record_wheel a op
  refine ⟨?_, ?_, ?_, ?_⟩
  · rw [hwheel]
    have hkept := h.balance
    cases op with
    | event sel m now =>
        unfold Account.record
        unfold Wheel.available at hbalance
        dsimp only at hbalance ⊢
        -- an event that is ignored, one that starts a gesture, one that goes on with it
        by_cases hignore : m.ignore = true
        · rw [if_pos hignore] at hbalance
          simp only [if_pos hignore]
          omega
        · rw [if_neg hignore] at hbalance
          simp only [if_neg hignore]
          by_cases hstarts : a.wheel.Starts m now
          · rw [if_pos hstarts] at hbalance
            simp only [if_pos hstarts]
            by_cases hdistance : m.scrollValid = true
            · rw [if_pos hdistance, Wheel.taken_pendingMilli, if_pos hdistance] at hbalance
              rw [Wheel.reset_pendingMilli] at hbalance
              simp only [if_pos hdistance]
              omega
            · rw [if_neg hdistance] at hbalance
              simp only [if_neg hdistance]
              omega
          · rw [if_neg hstarts, Wheel.taken_pendingMilli] at hbalance
            simp only [if_neg hstarts]
            omega
    | timer sel moved now =>
        unfold Wheel.available at hbalance
        unfold Account.record
        dsimp only at hbalance ⊢
        omega
  · rw [hwheel]
    have := Wheel.available_le h.bound op
    omega
  · rw [hwheel]
    exact hsettles.armed
  · rw [hwheel]
    exact Wheel.exec_fresh h.fresh

theorem balanced_inductive : system.Inductive KeepsTimer Balanced where
  init := by
    rintro _ rfl
    exact ⟨by decide, by decide, by decide, by decide⟩
  step := by
    rintro a op _ h hkeeps ⟨-, rfl⟩
    cases op with
    | wheel op =>
        cases op with
        | event sel m now =>
            show (if a.covered then a else a.record (.event sel m now)).Balanced
            split
            · exact h
            · exact h.record _
        | timer sel moved now =>
            show (if a.covered then { a with wheel := { a.wheel with timer := none } }
              else a.record (.timer sel moved now)).Balanced
            have hkeeps : a.covered = false := hkeeps
            rw [if_neg (by simp [hkeeps])]
            exact h.record _
    | cover => exact ⟨h.balance, h.bound, h.armed, h.fresh⟩
    | uncover => exact ⟨h.balance, h.bound, h.armed, h.fresh⟩

end Account

/-- In a run where the timer does not fire under another mode, no more lines are let out
than came in, what is pending neither wraps nor piles up, and a timer is armed for it
whenever the mode is on top. -/
theorem accounted_of_keepsTimer (a : Account)
    (hreach : Account.system.ReachableWith Account.KeepsTimer a) :
    1000 * a.emitted + a.wheel.pendingMilli ≤ a.incoming + a.extra ∧
      a.wheel.pendingMilli ≤ uintMax ∧
      (a.covered = false → 1000 ≤ a.wheel.pendingMilli → a.wheel.timer.isSome = true) ∧
      ∀ op, 1000 * (a.wheel.exec op).1 ≤ a.wheel.available op ∧
        a.wheel.available op ≤ uintMax ∧
        ((a.wheel.exec op).1 ≠ 0 → (a.wheel.exec op).2.pendingMilli ≤ 8000) := by
  have h := Account.balanced_inductive.invariant hreach
  refine ⟨h.balance, h.bound, fun _ => h.armed, fun op => ?_⟩
  have hsettles := Wheel.exec_settles h.armed h.fresh op
  exact ⟨le_trans (Nat.le_add_right _ _) hsettles.balance, Wheel.available_le h.bound op,
    hsettles.surplus⟩

/-! ## A clock over the mode -/

/-- An event of eight lines, the first of a gesture. -/
def turned : Account := Account.initial.exec (.wheel (.event false ⟨true, true, 8000, false⟩ 0))

theorem turned_reachable (Good : Account → ModeOp → Prop)
    (hgood : ∀ a op, Good a (.wheel (.event false op 0))) : Account.system.ReachableWith Good turned := by
  refine .step (.init rfl) (hgood _ _) ⟨?_, rfl⟩
  intro sel moved now hop
  cases hop

/-- Another mode over the pane, and off it again before the timer. -/
theorem accounted_covered :
    let a := (turned.exec .cover).exec .uncover
    1000 * a.emitted + a.wheel.pendingMilli ≤ a.incoming + a.extra ∧
      a.wheel.pendingMilli ≤ uintMax ∧
      (a.covered = false → 1000 ≤ a.wheel.pendingMilli → a.wheel.timer.isSome = true) ∧
      ∀ op, 1000 * (a.wheel.exec op).1 ≤ a.wheel.available op ∧
        a.wheel.available op ≤ uintMax ∧
        ((a.wheel.exec op).1 ≠ 0 → (a.wheel.exec op).2.pendingMilli ≤ 8000) := by
  apply accounted_of_keepsTimer
  have hcovered : Account.system.ReachableWith Account.KeepsTimer (turned.exec .cover) := by
    refine .step (l := ModeOp.cover) (turned_reachable _ fun _ _ => trivial) trivial ⟨?_, rfl⟩
    intro sel moved now hop
    cases hop
  refine .step (l := ModeOp.uncover) hcovered trivial ⟨?_, rfl⟩
  intro sel moved now hop
  cases hop

/-- The timer fires under the other mode: seven lines stay pending, with no timer. -/
theorem stranded_covered :
    ¬ ∀ a, Account.system.Reachable a →
      1000 * a.emitted + a.wheel.pendingMilli ≤ a.incoming + a.extra ∧
        a.wheel.pendingMilli ≤ uintMax ∧
        (a.covered = false → 1000 ≤ a.wheel.pendingMilli → a.wheel.timer.isSome = true) ∧
        ∀ op, 1000 * (a.wheel.exec op).1 ≤ a.wheel.available op ∧
          a.wheel.available op ≤ uintMax ∧
          ((a.wheel.exec op).1 ≠ 0 → (a.wheel.exec op).2.pendingMilli ≤ 8000) := by
  intro h
  have hcovered : Account.system.Reachable (turned.exec .cover) := by
    refine .step (l := ModeOp.cover) (turned_reachable _ fun _ _ => trivial) trivial ⟨?_, rfl⟩
    intro sel moved now hop
    cases hop
  have hfired : Account.system.Reachable
      ((turned.exec .cover).exec (.wheel (.timer false true 8333))) :=
    .step (l := ModeOp.wheel (.timer false true 8333)) hcovered trivial ⟨fun _ _ _ _ => by decide, rfl⟩
  have hback : Account.system.Reachable
      (((turned.exec .cover).exec (.wheel (.timer false true 8333))).exec .uncover) := by
    refine .step (l := ModeOp.uncover) hfired trivial ⟨?_, rfl⟩
    intro sel moved now hop
    cases hop
  have harmed := (h _ hback).2.2.1
  revert harmed
  decide

end Newmux.Live
