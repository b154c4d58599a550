import Mathlib.Data.List.TakeWhile
import Newmux.Base.Decimal

/-!
# Numbers read by the C library

`strtoll` in base ten: blanks and a sign before the digits, the end of the range for
a number past it, and the text it stops at. It reads a decimal integer in range to its
end.
-/

namespace Newmux.Base

def llongMax : Int := 2 ^ 63 - 1
def llongMin : Int := -2 ^ 63

/-- `isspace`. -/
def isSpace (c : Char) : Bool := c == ' ' || (decide (9 ≤ c.toNat) && decide (c.toNat ≤ 13))

/-- The sign `strtoll` takes: whether it is a minus, and the text behind it. -/
def takeSign : List Char → Bool × List Char
  | '-' :: t => (true, t)
  | '+' :: t => (false, t)
  | t => (false, t)

/-- `strtoll(s, &endptr, 10)`: the number, at the end of the range when it is past
it, and the text at `endptr`. -/
def strtoll (s : List Char) : Int × List Char :=
  let (neg, t) := takeSign (s.dropWhile isSpace)
  let ds := t.takeWhile Char.isDigit
  if ds = [] then (0, s)
  else
    let n : Int := Nat.ofDigitChars 10 ds 0
    (max llongMin (min (if neg then -n else n) llongMax), t.dropWhile Char.isDigit)

/-- `strtonum`, for bounds inside the range of `strtoll`: all of the text is one number
between them. -/
def strtonum (value : String) (minval maxval : Int) : Option Int :=
  let (n, rest) := strtoll value.toList
  if rest = value.toList ∨ rest ≠ [] ∨ n < minval ∨ n > maxval then none else some n

/-- A decimal integer in 64-bit range. -/
def IsLong (t : List Char) : Prop :=
  Decimal.IsNumeral t ∧ llongMin ≤ Decimal.value t ∧ Decimal.value t ≤ llongMax

instance (t : List Char) : Decidable (IsLong t) := inferInstanceAs (Decidable (_ ∧ _))

/-! ## Digits -/

theorem isDigit_iff (c : Char) : c.isDigit = true ↔ 48 ≤ c.toNat ∧ c.toNat ≤ 57 := by
  unfold Char.isDigit
  rw [Bool.and_eq_true, decide_eq_true_eq, decide_eq_true_eq, ge_iff_le,
    UInt32.le_iff_toNat_le, UInt32.le_iff_toNat_le]
  rfl

theorem not_isSpace_of_digit {c : Char} (hc : c.isDigit = true) : isSpace c = false := by
  have := (isDigit_iff c).mp hc
  have hblank : c ≠ ' ' := by
    rintro rfl
    revert hc
    decide
  unfold isSpace
  rw [beq_false_of_ne hblank, Bool.false_or]
  simp only [Bool.and_eq_false_iff, decide_eq_false_iff_not]
  omega

/-- A text of digits in front of nothing that `strtoll` reads as more of it. -/
theorem takeSign_of_digits {ds : List Char} (hds : ∀ c ∈ ds, c.isDigit = true) :
    takeSign ds = (false, ds) := by
  unfold takeSign
  split
  · exact absurd (hds '-' (by simp)) (by decide)
  · exact absurd (hds '+' (by simp)) (by decide)
  · rfl

theorem takeWhile_digits {ds : List Char} (hds : ∀ c ∈ ds, c.isDigit = true) :
    ds.takeWhile Char.isDigit = ds ∧ ds.dropWhile Char.isDigit = [] :=
  ⟨List.takeWhile_eq_self_iff.mpr hds, List.dropWhile_eq_nil_iff.mpr hds⟩

/-- `strtoll` reads an integer in range to its end. -/
theorem strtoll_of_isLong {t : List Char} (h : IsLong t) : strtoll t = (Decimal.value t, []) := by
  obtain ⟨hnum, hlow, hhigh⟩ := h
  rcases hnum.cases with ⟨hne, hds⟩ | ⟨ds, rfl, hne, hds⟩
  · have hfront : t.dropWhile isSpace = t := by
      obtain ⟨c, t, rfl⟩ := List.exists_cons_of_ne_nil hne
      rw [List.dropWhile_cons_of_neg (by simp [not_isSpace_of_digit (hds c (by simp))])]
    unfold strtoll
    rw [hfront, takeSign_of_digits hds]
    dsimp only
    rw [(takeWhile_digits hds).1, (takeWhile_digits hds).2, if_neg hne]
    rw [Decimal.value_of_digits hds] at hlow hhigh ⊢
    rw [if_neg (by decide), min_eq_left hhigh, max_eq_right hlow]
  · have hfront : ('-' :: ds).dropWhile isSpace = '-' :: ds :=
      List.dropWhile_cons_of_neg (by decide)
    have hsign : takeSign ('-' :: ds) = (true, ds) := rfl
    unfold strtoll
    rw [hfront, hsign]
    dsimp only
    rw [(takeWhile_digits hds).1, (takeWhile_digits hds).2, if_neg hne, if_pos rfl]
    have hvalue : Decimal.value ('-' :: ds) = -(Nat.ofDigitChars 10 ds 0 : Int) := rfl
    rw [hvalue] at hlow hhigh ⊢
    rw [min_eq_left hhigh, max_eq_right hlow]

/-- So does `strtonum`, between the bounds. -/
theorem strtonum_of_isLong {value : String} {minval maxval : Int} (h : IsLong value.toList)
    (hlow : minval ≤ Decimal.value value.toList) (hhigh : Decimal.value value.toList ≤ maxval) :
    strtonum value minval maxval = some (Decimal.value value.toList) := by
  have hne : value.toList ≠ [] := h.1.ne_nil
  unfold strtonum
  rw [strtoll_of_isLong h]
  dsimp only
  rw [if_neg]
  rintro (hnil | hrest | hlt | hgt)
  · exact hne hnil.symm
  · exact hrest rfl
  · omega
  · omega

end Newmux.Base
