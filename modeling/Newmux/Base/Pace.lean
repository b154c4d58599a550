import Mathlib.Tactic

/-!
# Amounts at a pace

Amounts let out at times, each no more than a rate allows for the time since the one
before: over any interval they are no more than the rate allows for it and one
amount.
-/

namespace Newmux.Base.Pace

/-- The amounts let out at times from `a` to `b`, each as a pair of time and amount. -/
def within (es : List (Nat × Nat)) (a b : Nat) : Nat :=
  match es with
  | [] => 0
  | (t, n) :: es => (if a ≤ t ∧ t ≤ b then n else 0) + within es a b

/-- After time `t`, each amount is at most `rate` for `unit` of the time since the one
before it. -/
def Paced (rate unit : Nat) : Nat → List (Nat × Nat) → Prop
  | _, [] => True
  | t, (t', n) :: es => t ≤ t' ∧ unit * n ≤ rate * (t' - t) ∧ Paced rate unit t' es

/-- The same, once there is a first amount. -/
def PacedFrom (rate unit : Nat) : List (Nat × Nat) → Prop
  | [] => True
  | (t, _) :: es => Paced rate unit t es

variable {rate unit t : Nat} {es : List (Nat × Nat)}

theorem Paced.pacedFrom (h : Paced rate unit t es) : PacedFrom rate unit es := by
  cases es with
  | nil => trivial
  | cons e es => exact h.2.2

/-- Nothing is let out before the pace starts. -/
theorem Paced.within_eq_zero (h : Paced rate unit t es) {a b : Nat} (hb : b < t) :
    within es a b = 0 := by
  induction es generalizing t with
  | nil => rfl
  | cons e es ih =>
      obtain ⟨hle, -, hrest⟩ := h
      show (if a ≤ e.1 ∧ e.1 ≤ b then e.2 else 0) + within es a b = 0
      rw [if_neg (by omega), ih hrest (by omega)]

/-- Up to `b`, what the rate allows since the start. -/
theorem Paced.within_le (h : Paced rate unit t es) (a : Nat) {b : Nat} (hb : t ≤ b) :
    unit * within es a b ≤ rate * (b - t) := by
  induction es generalizing t with
  | nil => exact Nat.zero_le _
  | cons e es ih =>
      obtain ⟨hle, hpace, hrest⟩ := h
      show unit * ((if a ≤ e.1 ∧ e.1 ≤ b then e.2 else 0) + within es a b) ≤ _
      by_cases he : e.1 ≤ b
      · have hsplit : rate * (b - t) = rate * (e.1 - t) + rate * (b - e.1) := by
          rw [← Nat.mul_add]
          congr 1
          omega
        have hhead : unit * (if a ≤ e.1 ∧ e.1 ≤ b then e.2 else 0) ≤ rate * (e.1 - t) := by
          split
          · exact hpace
          · exact Nat.zero_le _
        rw [hsplit, Nat.mul_add]
        exact Nat.add_le_add hhead (ih hrest he)
      · rw [if_neg (by omega), hrest.within_eq_zero (by omega)]
        exact Nat.zero_le _

/-- Over any interval, what the rate allows for it and one amount. -/
theorem PacedFrom.within_le (h : PacedFrom rate unit es) {burst : Nat}
    (hburst : ∀ e ∈ es, e.2 ≤ burst) (a len : Nat) :
    unit * within es a (a + len) ≤ rate * len + unit * burst := by
  induction es with
  | nil => exact Nat.zero_le _
  | cons e es ih =>
      have hpaced : Paced rate unit e.1 es := h
      show unit * ((if a ≤ e.1 ∧ e.1 ≤ a + len then e.2 else 0) + within es a (a + len)) ≤ _
      by_cases hbefore : e.1 < a
      · rw [if_neg (by omega), Nat.zero_add]
        exact ih hpaced.pacedFrom fun x hx => hburst x (by simp [hx])
      · by_cases hafter : a + len < e.1
        · rw [if_neg (by omega), hpaced.within_eq_zero hafter]
          exact Nat.zero_le _
        · rw [if_pos (by omega), Nat.mul_add, Nat.add_comm]
          have hrest := hpaced.within_le a (Nat.le_of_not_lt hafter)
          have hrate : rate * (a + len - e.1) ≤ rate * len := Nat.mul_le_mul_left _ (by omega)
          have hhead : unit * e.2 ≤ unit * burst := Nat.mul_le_mul_left _ (hburst e (by simp))
          omega

end Newmux.Base.Pace
