import Newmux.Logic.LayoutUint

/-!
# Layout dump and parse

A closed pane's item carries its window's layout as text, and the restore parses
it over the window as it is then. Parsing a dump gives the dumped tree back when
the window has the dumped panes again, cuts it down from the bottom right when it
has fewer, and fails when it has more. Whatever text is accepted, dumped or not,
the panes tile the window, unless a size or a sum wraps.
-/

namespace Newmux.Theorems

open Newmux.Base Newmux.Tmux Newmux.Logic LayoutCell

/-- **Layout round trip**: a consistent tree is dumped exactly if its text fits
the buffer, and the dump, parsed for the dumped panes, is that tree again. -/
theorem layout_roundTrip {lc : LayoutCell} {wps : List Nat} (h : Consistent lc)
    (hpanes : lc.panes = wps.map some) :
    (layoutDump (some lc) = none ↔ layoutBufferSize ≤ (layoutText lc).length) ∧
      ∀ text ∈ layoutDump (some lc), ∃ lc', layoutRead wps.length text = .ok (lc', askedSize lc) ∧
        layoutAssign wps lc' = (lc, []) := by
  have hcount : wps.length = lc.layoutCountCells := by
    rw [← panes_length, hpanes, List.length_map]
  rw [layoutDump_eq]
  split
  · next hlt =>
      refine ⟨⟨fun h => (by cases h), fun hle => absurd hlt (not_lt.mpr hle)⟩, ?_⟩
      intro text htext
      rw [← Option.mem_some.mp htext, hcount]
      refine ⟨withoutPanes lc, layoutRead_same h, ?_⟩
      have hassign := layoutAssign_withoutPanes hpanes []
      rw [List.append_nil] at hassign
      exact hassign
  · next hge => exact ⟨⟨fun _ => not_lt.mp hge, fun _ => rfl⟩, fun _ h => absurd h (Option.not_mem_none _)⟩

/-- A window split in two, its right half split again. -/
def threePanes : LayoutCell :=
  .split .leftRight ⟨80, 24, 0, 0⟩
    [.pane ⟨40, 24, 0, 0⟩ (some 1),
      .split .topBottom ⟨39, 24, 41, 0⟩
        [.pane ⟨39, 12, 41, 0⟩ (some 2), .pane ⟨39, 11, 41, 13⟩ (some 5)]]

theorem layout_roundTrip_threePanes :
    (layoutDump (some threePanes) = none ↔
        layoutBufferSize ≤ (layoutText threePanes).length) ∧
      ∀ text ∈ layoutDump (some threePanes), ∃ lc',
        layoutRead 3 text = .ok (lc', askedSize threePanes) ∧
          layoutAssign [1, 2, 5] lc' = (threePanes, []) :=
  @layout_roundTrip threePanes [1, 2, 5] (by decide) rfl

/-- **A dump over other panes**: it is accepted for any number of panes up to the
dumped one and for no more, and the window's panes then fill, in order, a
consistent tree of the dumped size. -/
theorem layoutDump_accepted_iff {lc : LayoutCell} (h : Consistent lc) {text : List Char}
    (hdump : layoutDump (some lc) = some text) {wps : List Nat} (hne : wps ≠ []) :
    ((∃ r, layoutRead wps.length text = .ok r) ↔ wps.length ≤ lc.layoutCountCells) ∧
      ∀ r, layoutRead wps.length text = .ok r →
        (layoutAssign wps r.1).1.panes = wps.map some ∧ Consistent (layoutAssign wps r.1).1 ∧
          size (layoutAssign wps r.1).1 = size lc ∧ ∀ asked ∈ r.2, asked = size lc := by
  obtain rfl : dumpText lc = text := by
    rw [layoutDump_eq] at hdump
    split at hdump
    · exact Option.some.inj hdump
    · cases hdump
  by_cases hle : wps.length ≤ lc.layoutCountCells
  · obtain ⟨lc', hread, hcons, hsize⟩ := layoutRead_fewer h (List.length_pos_iff.mpr hne) hle
    refine ⟨⟨fun _ => hle, fun _ => ⟨_, hread⟩⟩, ?_⟩
    intro r hr
    obtain rfl : (lc', askedSize lc') = r := Except.ok.inj (hread.symm.trans hr)
    refine ⟨layoutAssign_panes (layoutRead_count hread), hcons.assign wps, ?_, ?_⟩
    · rw [layoutAssign_size, hsize]
    · intro asked hasked
      rw [askedSize_eq hasked, hsize]
  · have hrefused := layoutRead_more h (not_le.mp hle)
    refine ⟨⟨fun ⟨r, hr⟩ => ?_, fun hle' => absurd hle' hle⟩, fun r hr => ?_⟩ <;>
    · rw [hrefused] at hr
      cases hr

theorem layoutDump_accepted_iff_two :
    ((∃ r, layoutRead 2 (dumpText threePanes) = .ok r) ↔ 2 ≤ 3) ∧
      ∀ r, layoutRead 2 (dumpText threePanes) = .ok r →
        (layoutAssign [1, 5] r.1).1.panes = [some 1, some 5] ∧
          Consistent (layoutAssign [1, 5] r.1).1 ∧
          size (layoutAssign [1, 5] r.1).1 = (80, 24) ∧ ∀ asked ∈ r.2, asked = (80, 24) :=
  @layoutDump_accepted_iff threePanes (by decide) (dumpText threePanes)
    (by rw [layoutDump_eq]; exact if_pos (by decide)) [1, 5] (by decide)

/-- Two cells of which one is as wide as 32 bits can tell: their sum wraps to the width
of the window. -/
def wrappingText : List Char :=
  let layout := "80x24,0,0{4294967295x24,0,0,80x24,0,0}".toList
  hex4 (layoutChecksum layout) ++ ',' :: layout

example : (layoutReadUint 2 wrappingText).toOption.bind Prod.snd = some (80, 24) := by
  decide +kernel

end Newmux.Theorems
