import Newmux.Logic.Packet

/-!
# Lines of a scroll packet

A precise packet carries pixels, and `ypixel` is the height of one cell; the
code also multiplies by the rows of the terminal. The lines it finds are right when
the number of lines decides, or when the factor does not show.
-/

namespace Newmux.Keys

theorem absll_eq (n : Int) : absll n = n.natAbs := by
  unfold absll
  split <;> omega

/-- The lines of a packet in thousandths, one cell being `ypixel` high. -/
def packetLines (tty : Tty) (f : Fields) : Nat :=
  if f.precision ≠ 0 then
    min Live.uintMax (max (1000 * f.ydelta.natAbs) (f.yoffMilli.natAbs / tty.ypixel))
  else min Live.uintMax (1000 * f.ydelta.natAbs)

/-- No product of the computation is cut to 64 bits. -/
def NoWrap (tty : Tty) (f : Fields) : Prop :=
  1000 * f.ydelta.natAbs < 2 ^ 64 ∧ (f.precision ≠ 0 → f.yoffMilli.natAbs * tty.sy < 2 ^ 64)

/-- The lines and the coordinates are the packet's, and nothing was cut on the way. -/
def Exact (tty : Tty) (f : Fields) : Prop :=
  NoWrap tty f ∧ (scrollEvent tty f).newmuxScrollLinesMilli = packetLines tty f ∧
    (scrollEvent tty f).x = f.mx ∧ (scrollEvent tty f).y = f.my

/-- The pixels of a precise packet over all rows: no more than its lines, as many as
over one row, or past the limit either way. -/
def RowsDoNotShow (tty : Tty) (f : Fields) : Prop :=
  f.yoffMilli.natAbs * tty.sy / tty.ypixel ≤ 1000 * f.ydelta.natAbs ∨
    f.yoffMilli.natAbs * tty.sy / tty.ypixel = f.yoffMilli.natAbs / tty.ypixel ∨
    Live.uintMax ≤ max (1000 * f.ydelta.natAbs) (f.yoffMilli.natAbs / tty.ypixel)

/-- The checks every packet has passed. -/
theorem checked_of_readPacket {tty : Tty} {text : List Char} {f : Fields}
    (h : readPacket tty text = some f) : f.ydelta ≠ 0 ∧ 0 ≤ f.mx ∧ 0 ≤ f.my := by
  unfold readPacket at h
  split at h
  · split at h
    · split at h
      · split at h
        · cases h
        · cases h
          rename_i hchecks
          omega
      · cases h
    · cases h
  · cases h

theorem checked_of_scrollPacket {tty : Tty} {buf : List Char} {size : Nat} {f : Fields}
    (h : scrollPacket tty buf = .key size f) : f.ydelta ≠ 0 ∧ 0 ≤ f.mx ∧ 0 ≤ f.my := by
  by_cases hfront : ∃ rest, buf = esc :: '[' :: '?' :: rest
  · obtain ⟨rest, rfl⟩ := hfront
    rw [scrollPacket_front] at h
    dsimp only at h
    split at h
    · split at h
      · cases h
      · cases h
    · split at h
      · split at h
        · rename_i hread
          cases h
          exact checked_of_readPacket hread
        · cases h
      · cases h
  · rw [not_exists] at hfront
    rcases scrollPacket_elsewhere tty hfront with hno | ⟨hmore, -⟩
    · rw [hno] at h
      cases h
    · rw [hmore] at h
      cases h

/-- Where nothing wraps, the lines computed. -/
theorem scrollLinesMilli_eq {tty : Tty} {f : Fields} (hydelta : f.ydelta ≠ 0)
    (hsy : 0 < tty.sy) (hypixel : 0 < tty.ypixel) (hwrap : NoWrap tty f) :
    scrollLinesMilli tty f =
      if f.precision ≠ 0 then
        min Live.uintMax (max (1000 * f.ydelta.natAbs) (f.yoffMilli.natAbs * tty.sy / tty.ypixel))
      else min Live.uintMax (1000 * f.ydelta.natAbs) := by
  obtain ⟨hdelta, hyoff⟩ := hwrap
  unfold scrollLinesMilli
  rw [absll_eq, absll_eq, mul_comm _ 1000, Nat.mod_eq_of_lt hdelta]
  dsimp only
  by_cases hprecision : f.precision ≠ 0
  · have hpixels : f.precision ≠ 0 ∧ tty.ypixel ≠ 0 ∧ tty.sy ≠ 0 :=
      ⟨hprecision, by omega, by omega⟩
    rw [Nat.mod_eq_of_lt (hyoff hprecision), if_pos hpixels, if_pos hprecision]
    generalize f.yoffMilli.natAbs * tty.sy / tty.ypixel = lines
    split <;> split <;> split <;> omega
  · have hlines : ¬ (f.precision ≠ 0 ∧ tty.ypixel ≠ 0 ∧ tty.sy ≠ 0) := fun h => hprecision h.1
    rw [if_neg hlines, if_neg hprecision]
    split <;> split <;> omega

/-- The lines and coordinates of an accepted packet are exact, with no product cut to
64 bits, if and only if the products fit, the coordinates are below `2 ^ 32`, and in a
precise packet the number of rows does not show. -/
theorem exact_iff (tty : Tty) (buf : List Char) (size : Nat) (f : Fields)
    (haccept : scrollPacket tty buf = .key size f) (hsy : 0 < tty.sy) (hypixel : 0 < tty.ypixel) :
    Exact tty f ↔ NoWrap tty f ∧ f.mx < 2 ^ 32 ∧ f.my < 2 ^ 32 ∧
      (f.precision ≠ 0 → RowsDoNotShow tty f) := by
  obtain ⟨hydelta, hmx, hmy⟩ := checked_of_scrollPacket haccept
  have hcoord : ∀ n : Int, 0 ≤ n → (((n % 2 ^ 32).toNat : Int) = n ↔ n < 2 ^ 32) := by
    intro n hn
    omega
  have hx : ((scrollEvent tty f).x : Int) = f.mx ↔ f.mx < 2 ^ 32 := hcoord _ hmx
  have hy : ((scrollEvent tty f).y : Int) = f.my ↔ f.my < 2 ^ 32 := hcoord _ hmy
  unfold Exact
  rw [hx, hy]
  have hlines : NoWrap tty f →
      (scrollLinesMilli tty f = packetLines tty f ↔ (f.precision ≠ 0 → RowsDoNotShow tty f)) := by
    intro hwrap
    rw [scrollLinesMilli_eq hydelta hsy hypixel hwrap]
    unfold packetLines RowsDoNotShow
    by_cases hprecision : f.precision ≠ 0
    · rw [if_pos hprecision, if_pos hprecision]
      have hle : f.yoffMilli.natAbs / tty.ypixel ≤ f.yoffMilli.natAbs * tty.sy / tty.ypixel :=
        Nat.div_le_div_right (Nat.le_mul_of_pos_right _ hsy)
      generalize f.yoffMilli.natAbs * tty.sy / tty.ypixel = rows at hle ⊢
      generalize f.yoffMilli.natAbs / tty.ypixel = cell at hle ⊢
      constructor
      · intro heq _
        omega
      · intro h
        have := h hprecision
        omega
    · rw [if_neg hprecision, if_neg hprecision]
      exact ⟨fun _ h => absurd h hprecision, fun _ => rfl⟩
  constructor
  · rintro ⟨hwrap, heq, hmx, hmy⟩
    exact ⟨hwrap, hmx, hmy, (hlines hwrap).mp heq⟩
  · rintro ⟨hwrap, hmx, hmy, hrows⟩
    exact ⟨hwrap, (hlines hwrap).mpr hrows, hmx, hmy⟩

/-! ## Twenty-four rows of cells sixteen pixels high -/

def smallTty : Tty := { sy := 24, ypixel := 16, mouseLastX := 0, mouseLastY := 0, mouseLastB := 0 }

/-- Forty-eight pixels, for one line. -/
def trackpad : List Char := esc :: "[?7777;48000;0;1;0;1;3;10;5~".toList

/-- One line of a wheel that is not precise. -/
def notch : List Char := esc :: "[?7777;1000;0;1;0;0;0;10;5~".toList

theorem exact_notch :
    Exact smallTty ⟨1000, 0, 1, 0, 0, 0, 10, 5⟩ ↔
      NoWrap smallTty ⟨1000, 0, 1, 0, 0, 0, 10, 5⟩ ∧ (10 : Int) < 2 ^ 32 ∧ (5 : Int) < 2 ^ 32 ∧
        ((0 : Int) ≠ 0 → RowsDoNotShow smallTty ⟨1000, 0, 1, 0, 0, 0, 10, 5⟩) :=
  exact_iff smallTty notch 28 _ (by decide) (by decide) (by decide)

/-- The forty-eight pixels are three lines, and are taken for seventy-two. -/
theorem inexact_trackpad :
    ¬ ∀ (tty : Tty) (buf : List Char) (size : Nat) (f : Fields),
      scrollPacket tty buf = .key size f → 0 < tty.sy → 0 < tty.ypixel → Exact tty f := by
  intro h
  have hexact := h smallTty trackpad 29 ⟨48000, 0, 1, 0, 1, 3, 10, 5⟩ (by decide) (by decide)
    (by decide)
  have hlines := hexact.2.1
  revert hlines
  decide

end Newmux.Keys
