import Newmux.App.ScrollReport
import Newmux.Logic.Packet

/-!
# From the app to tmux

A scroll event that is written is read back. It is written when its numbers fit the
thirty-eight bytes of a small write, which leave twenty for the offsets, the deltas
and the cell.
-/

namespace Newmux.Keys

open Newmux.App Newmux.Base

variable {F : Type} {milli : F → Int64} {xoff yoff : F} {xdelta ydelta : Int64}
  {scrollMods : ScrollMods} {cell : Coordinate}

/-- The numbers of a report. -/
def reportNumbers (milli : F → Int64) (xoff yoff : F) (xdelta ydelta : Int64)
    (scrollMods : ScrollMods) (cell : Coordinate) : List Int :=
  [(milli yoff).toInt, (milli xoff).toInt, ydelta.toInt, xdelta.toInt,
    if scrollMods.precision then 1 else 0, scrollMods.momentum.toNat,
    cell.x.toNat, cell.y.toNat]

/-- The event is sent, and whatever follows it, tmux reads one key of it with the same
direction, delta, precision, momentum and cell. -/
def Survives (milli : F → Int64) (xoff yoff : F) (xdelta ydelta : Int64)
    (scrollMods : ScrollMods) (cell : Coordinate) : Prop :=
  ∃ p, newmuxMouseScrollReport milli xoff yoff xdelta ydelta scrollMods cell = some p ∧
    ∀ tty rest, ∃ f, scrollPacket tty (p ++ rest) = .key p.length f ∧
      f.ydelta = ydelta.toInt ∧
      (scrollEvent tty f).b = (if ydelta.toInt > 0 then mouseWheelUp else mouseWheelDown) ∧
      (scrollEvent tty f).newmuxScrollPrecision = scrollMods.precision ∧
      (scrollEvent tty f).newmuxScrollMomentum = scrollMods.momentum.toNat ∧
      (scrollEvent tty f).x = cell.x.toNat ∧ (scrollEvent tty f).y = cell.y.toNat

/-- The characters of the numbers that are not one digit always. -/
def numbersLength (milli : F → Int64) (xoff yoff : F) (xdelta ydelta : Int64)
    (cell : Coordinate) : Nat :=
  (Decimal.ofInt (milli yoff).toInt).length + (Decimal.ofInt (milli xoff).toInt).length +
    (Decimal.ofInt ydelta.toInt).length + (Decimal.ofInt xdelta.toInt).length +
    (Decimal.ofInt cell.x.toNat).length + (Decimal.ofInt cell.y.toNat).length

theorem momentum_lt (m : Momentum) : m.toNat < 7 := by
  cases m <;> decide

/-- What is printed is a packet. -/
theorem scrollText_eq :
    scrollText milli xoff yoff xdelta ydelta scrollMods cell =
      packet ((reportNumbers milli xoff yoff xdelta ydelta scrollMods cell).map Decimal.ofInt) :=
  rfl

theorem length_scrollText :
    (scrollText milli xoff yoff xdelta ydelta scrollMods cell).length =
      18 + numbersLength milli xoff yoff xdelta ydelta cell := by
  have hprecision : (Decimal.ofInt (if scrollMods.precision then 1 else 0)).length = 1 := by
    cases scrollMods.precision <;> decide
  have hmomentum : (Decimal.ofInt scrollMods.momentum.toNat).length = 1 := by
    have := momentum_lt scrollMods.momentum
    exact Decimal.length_ofInt_of_lt (by omega) (by omega)
  have hid : packetId.length = 4 := by decide
  rw [scrollText_eq]
  unfold packet packetText reportNumbers numbersLength
  simp only [List.map_cons, List.map_nil, List.intercalate_cons_cons, List.intercalate_singleton,
    List.length_cons, List.length_append, List.length_nil, hprecision, hmomentum, hid]
  omega

/-- The numeral of a number in range. -/
theorem isLong_ofInt {n : Int} (hlow : llongMin ≤ n) (hhigh : n ≤ llongMax) :
    IsLong (Decimal.ofInt n) := by
  refine ⟨Decimal.isNumeral_ofInt n, ?_⟩
  rw [Decimal.value_ofInt]
  exact ⟨hlow, hhigh⟩

theorem isLong_int64 (n : Int64) : IsLong (Decimal.ofInt n.toInt) := by
  have hlow := Int64.le_toInt n
  have hhigh := Int64.toInt_lt n
  exact isLong_ofInt hlow (by unfold llongMax; omega)

/-- A number below `2 ^ 32`, as a coordinate. -/
theorem fieldOk_natCast {k n : Nat} (hk : k ≠ 2) (hn : n < 2 ^ 32) :
    FieldOk k (Decimal.ofInt n) := by
  have hlow : llongMin ≤ 0 := by decide
  have hhigh : 2 ^ 32 ≤ llongMax := by decide
  refine ⟨isLong_ofInt (by omega) (by omega), fun h => absurd h hk, fun _ => ?_⟩
  rw [Decimal.value_ofInt]
  omega

theorem fieldsOk_report (hydelta : ydelta ≠ 0) :
    FieldsOk ((reportNumbers milli xoff yoff xdelta ydelta scrollMods cell).map Decimal.ofInt) := by
  refine ⟨.inr rfl, ?_⟩
  have hdelta : Decimal.value (Decimal.ofInt ydelta.toInt) ≠ 0 := by
    rw [Decimal.value_ofInt]
    intro hzero
    exact hydelta (Int64.toInt_inj.mp hzero)
  have hmomentum := momentum_lt scrollMods.momentum
  intro k hk
  have hk : k = 0 ∨ k = 1 ∨ k = 2 ∨ k = 3 ∨ k = 4 ∨ k = 5 ∨ k = 6 ∨ k = 7 := by
    simp only [reportNumbers, List.map_cons, List.map_nil, List.length_cons, List.length_nil] at hk
    omega
  rcases hk with rfl | rfl | rfl | rfl | rfl | rfl | rfl | rfl
  · exact ⟨isLong_int64 _, by simp, by simp⟩
  · exact ⟨isLong_int64 _, by simp, by simp⟩
  · exact ⟨isLong_int64 _, fun _ => hdelta, by simp⟩
  · exact ⟨isLong_int64 _, by simp, by simp⟩
  · show FieldOk 4 (Decimal.ofInt (if scrollMods.precision then 1 else 0))
    cases scrollMods.precision <;> decide
  · exact fieldOk_natCast (by simp) (by omega)
  · have := cell.x.toNat_lt
    exact fieldOk_natCast (by simp) (by omega)
  · exact fieldOk_natCast (by simp) cell.y.toNat_lt

/-- A scroll event with a vertical delta is sent and read back exactly when the
numerals of its offsets, deltas and cell are twenty characters at most. -/
theorem survives_iff {F : Type} (milli : F → Int64) (xoff yoff : F) (xdelta ydelta : Int64)
    (scrollMods : ScrollMods) (cell : Coordinate) (hydelta : ydelta ≠ 0) :
    Survives milli xoff yoff xdelta ydelta scrollMods cell ↔
      numbersLength milli xoff yoff xdelta ydelta cell ≤ 20 := by
  have hlength : (scrollText milli xoff yoff xdelta ydelta scrollMods cell).length =
      18 + numbersLength milli xoff yoff xdelta ydelta cell := length_scrollText
  unfold Survives newmuxMouseScrollReport
  dsimp only
  constructor
  · rintro ⟨p, hp, -⟩
    split at hp
    · cases hp
    · unfold smallMax at *
      omega
  · intro hfits
    rw [if_neg (by unfold smallMax; omega)]
    refine ⟨_, rfl, ?_⟩
    intro tty rest
    have hok : FieldsOk
        ((reportNumbers milli xoff yoff xdelta ydelta scrollMods cell).map Decimal.ofInt) :=
      fieldsOk_report hydelta
    have hvalues : ((reportNumbers milli xoff yoff xdelta ydelta scrollMods cell).map
        Decimal.ofInt).map Decimal.value =
          reportNumbers milli xoff yoff xdelta ydelta scrollMods cell := by
      rw [List.map_map]
      exact (List.map_congr_left fun n _ => Decimal.value_ofInt n).trans (List.map_id _)
    have hsize : (packet ((reportNumbers milli xoff yoff xdelta ydelta scrollMods cell).map
        Decimal.ofInt)).length ≤ tmpSize := by
      rw [← scrollText_eq, hlength]
      unfold tmpSize
      omega
    have hread := scrollPacket_packet tty hok hsize rest (by rw [hvalues]; rfl)
    rw [← scrollText_eq] at hread
    -- what is left is that the decoder cuts none of the numbers
    refine ⟨_, hread, rfl, rfl, ?_, ?_, ?_, ?_⟩
    · show decide ((if scrollMods.precision then 1 else 0 : Int) ≠ 0) = scrollMods.precision
      cases scrollMods.precision <;> rfl
    · have := momentum_lt scrollMods.momentum
      unfold scrollEvent
      dsimp only
      exact Int.bmod_eq_of_le (by omega) (by omega)
    · show ((cell.x.toNat : Int) % 2 ^ 32).toNat = cell.x.toNat
      have := cell.x.toNat_lt
      omega
    · show ((cell.y.toNat : Int) % 2 ^ 32).toNat = cell.y.toNat
      have := cell.y.toNat_lt
      omega

/-! ## Offsets that are whole numbers -/

/-- The rounding, on offsets that are whole numbers. -/
def wholeMilli (off : Int) : Int64 := Int64.ofInt (off * 1000)

/-- A notch of the wheel at the tenth column and fifth row. -/
theorem survives_notch :
    (1 : Int64) ≠ 0 ∧
      (Survives wholeMilli 0 1 0 1 ⟨false, .none⟩ ⟨10, 5⟩ ↔
        numbersLength wholeMilli 0 1 0 1 ⟨10, 5⟩ ≤ 20) :=
  ⟨by decide, survives_iff wholeMilli 0 1 0 1 ⟨false, .none⟩ ⟨10, 5⟩ (by decide)⟩

/-- A flick of 120 pixels down and 30 to the side on a terminal of 200 columns: the
numerals take twenty-two characters, and nothing is sent. -/
theorem lost_flick :
    ¬ ∀ (F : Type) (milli : F → Int64) (xoff yoff : F) (xdelta ydelta : Int64)
      (scrollMods : ScrollMods) (cell : Coordinate), ydelta ≠ 0 →
        Survives milli xoff yoff xdelta ydelta scrollMods cell := by
  intro h
  obtain ⟨p, hp, -⟩ := h Int wholeMilli (-30) (-120) (-3) (-7) ⟨true, .changed⟩ ⟨150, 40⟩ (by decide)
  have hnone : newmuxMouseScrollReport wholeMilli (-30) (-120) (-3) (-7) ⟨true, .changed⟩
      ⟨150, 40⟩ = none := by
    decide
  rw [hnone] at hp
  cases hp

end Newmux.Keys
