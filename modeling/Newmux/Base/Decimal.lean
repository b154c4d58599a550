import Mathlib.Tactic

/-!
# Decimal numerals

Integers in text: digits behind at most a minus sign. A numeral has a value, an
integer has a numeral, and what comes before the end of a numeral is nothing, a
sign, or a numeral between zero and the whole.
-/

namespace Newmux.Base.Decimal

/-- The text behind a minus sign. -/
def unsigned : List Char → List Char
  | '-' :: t => t
  | t => t

/-- Digits, behind at most a minus sign. -/
def IsNumeral (t : List Char) : Prop := unsigned t ≠ [] ∧ ∀ c ∈ unsigned t, c.isDigit = true

instance (t : List Char) : Decidable (IsNumeral t) :=
  @instDecidableAnd _ _ inferInstance (List.decidableBAll _ _)

def value : List Char → Int
  | '-' :: t => -(Nat.ofDigitChars 10 t 0 : Int)
  | t => Nat.ofDigitChars 10 t 0

/-- The numeral of an integer, without leading zeros. -/
def ofInt (n : Int) : List Char :=
  if n < 0 then '-' :: Nat.toDigits 10 n.natAbs else Nat.toDigits 10 n.natAbs

/-! ## Digits -/

theorem isDigit_minus : '-'.isDigit = false := by decide

theorem digits_toDigits (n : Nat) : ∀ c ∈ Nat.toDigits 10 n, c.isDigit = true :=
  fun _ hc => Nat.isDigit_of_mem_toDigits (by decide) (by decide) hc

/-- A text of digits has no sign to take off. -/
theorem unsigned_of_digits {t : List Char} (h : ∀ c ∈ t, c.isDigit = true) : unsigned t = t := by
  unfold unsigned
  split
  · have := h '-' (by simp)
    rw [isDigit_minus] at this
    cases this
  · rfl

theorem value_of_digits {t : List Char} (h : ∀ c ∈ t, c.isDigit = true) :
    value t = Nat.ofDigitChars 10 t 0 := by
  unfold value
  split
  · have := h '-' (by simp)
    rw [isDigit_minus] at this
    cases this
  · rfl

theorem isNumeral_of_digits {t : List Char} (hne : t ≠ []) (h : ∀ c ∈ t, c.isDigit = true) :
    IsNumeral t := by
  unfold IsNumeral
  rw [unsigned_of_digits h]
  exact ⟨hne, h⟩

/-- A numeral is a text of digits or one behind a sign. -/
theorem IsNumeral.cases {t : List Char} (h : IsNumeral t) :
    (t ≠ [] ∧ ∀ c ∈ t, c.isDigit = true) ∨
      ∃ ds, t = '-' :: ds ∧ ds ≠ [] ∧ ∀ c ∈ ds, c.isDigit = true := by
  unfold IsNumeral unsigned at h
  split at h
  · exact .inr ⟨_, rfl, h⟩
  · exact .inl h

theorem isNumeral_minus {ds : List Char} (hne : ds ≠ []) (h : ∀ c ∈ ds, c.isDigit = true) :
    IsNumeral ('-' :: ds) := ⟨hne, h⟩

theorem IsNumeral.ne_nil {t : List Char} (h : IsNumeral t) : t ≠ [] := by
  rcases h.cases with ⟨hne, -⟩ | ⟨ds, rfl, -, -⟩
  · exact hne
  · exact List.cons_ne_nil _ _

/-- Only a sign, and only in front, is no digit. -/
theorem IsNumeral.mem {t : List Char} (h : IsNumeral t) {c : Char} (hc : c ∈ t) :
    c = '-' ∨ c.isDigit = true := by
  rcases h.cases with ⟨-, hds⟩ | ⟨ds, rfl, -, hds⟩
  · exact .inr (hds c hc)
  · rcases List.mem_cons.mp hc with rfl | hc
    · exact .inl rfl
    · exact .inr (hds c hc)

/-! ## The numeral of an integer -/

theorem isNumeral_ofInt (n : Int) : IsNumeral (ofInt n) := by
  unfold ofInt
  split
  · exact isNumeral_minus Nat.toDigits_ne_nil (digits_toDigits _)
  · exact isNumeral_of_digits Nat.toDigits_ne_nil (digits_toDigits _)

theorem value_ofInt (n : Int) : value (ofInt n) = n := by
  unfold ofInt
  split
  · show -(Nat.ofDigitChars 10 _ 0 : Int) = n
    rw [Nat.ofDigitChars_ten_toDigits]
    omega
  · rw [value_of_digits (digits_toDigits _), Nat.ofDigitChars_ten_toDigits]
    omega

/-- A number below ten is one digit. -/
theorem length_ofInt_of_lt {n : Int} (h0 : 0 ≤ n) (h : n < 10) : (ofInt n).length = 1 := by
  unfold ofInt
  rw [if_neg (by omega), Nat.toDigits_of_lt_base (by omega)]
  rfl

/-! ## Beginnings of a numeral -/

/-- More digits make a number no smaller. -/
theorem ofDigitChars_le_append (t u : List Char) :
    Nat.ofDigitChars 10 t 0 ≤ Nat.ofDigitChars 10 (t ++ u) 0 := by
  have hpow : 0 < 10 ^ u.length := by positivity
  rw [Nat.ofDigitChars_append, Nat.ofDigitChars_eq_ofDigitChars_zero (l := u)]
  exact Nat.le_add_right_of_le (Nat.le_mul_of_pos_left _ hpow)

/-- Before its end a numeral is empty, a sign, or a numeral between zero and it. -/
theorem IsNumeral.of_append {t u : List Char} (h : IsNumeral (t ++ u)) :
    t = [] ∨ t = ['-'] ∨
      (IsNumeral t ∧ (0 ≤ value t ∧ value t ≤ value (t ++ u) ∨
        value (t ++ u) ≤ value t ∧ value t ≤ 0)) := by
  rcases h.cases with ⟨-, hds⟩ | ⟨ds, heq, -, hds⟩
  · have ht : ∀ c ∈ t, c.isDigit = true := fun c hc => hds c (by simp [hc])
    by_cases hne : t = []
    · exact .inl hne
    · refine .inr (.inr ⟨isNumeral_of_digits hne ht, .inl ?_⟩)
      rw [value_of_digits ht, value_of_digits hds]
      have := ofDigitChars_le_append t u
      omega
  · cases t with
    | nil => exact .inl rfl
    | cons c t =>
        obtain ⟨rfl, rfl⟩ := List.cons.inj heq
        by_cases hne : t = []
        · exact .inr (.inl (by rw [hne]))
        · refine .inr (.inr ⟨isNumeral_minus hne fun c hc => hds c (by simp [hc]), .inr ?_⟩)
          show -(Nat.ofDigitChars 10 (t ++ u) 0 : Int) ≤ -(Nat.ofDigitChars 10 t 0 : Int) ∧
            -(Nat.ofDigitChars 10 t 0 : Int) ≤ 0
          have := ofDigitChars_le_append t u
          omega

/-- A zero is the beginning of a number that is not. -/
theorem IsNumeral.zero_append_one {t : List Char} (h : IsNumeral t) (hzero : value t = 0) :
    IsNumeral (t ++ ['1']) ∧ (value (t ++ ['1']) = 1 ∨ value (t ++ ['1']) = -1) := by
  have hdigits : ∀ ds : List Char, (∀ c ∈ ds, c.isDigit = true) →
      ∀ c ∈ ds ++ ['1'], c.isDigit = true := by
    intro ds hds c hc
    rcases List.mem_append.mp hc with hc | hc
    · exact hds c hc
    · rw [List.mem_singleton.mp hc]
      decide
  have hone : ∀ ds : List Char, Nat.ofDigitChars 10 ds 0 = 0 →
      Nat.ofDigitChars 10 (ds ++ ['1']) 0 = 1 := by
    intro ds hds
    rw [Nat.ofDigitChars_append, hds]
    rfl
  rcases h.cases with ⟨hne, hds⟩ | ⟨ds, rfl, hne, hds⟩
  · rw [value_of_digits hds] at hzero
    refine ⟨isNumeral_of_digits (by simp) (hdigits t hds), .inl ?_⟩
    rw [value_of_digits (hdigits t hds), hone t (by exact_mod_cast hzero)]
    rfl
  · have hzero : -(Nat.ofDigitChars 10 ds 0 : Int) = 0 := hzero
    refine ⟨isNumeral_minus (by simp) (hdigits ds hds), .inr ?_⟩
    show -(Nat.ofDigitChars 10 (ds ++ ['1']) 0 : Int) = -1
    rw [hone ds (by omega)]
    rfl

end Newmux.Base.Decimal
