import Newmux.Logic.Packet

/-!
# What is taken for a scroll packet

At the front of the input the function takes the packets of the grammar, and waits
only for more of one, exactly on the inputs that `Regular` describes. On the others it
takes numbers that are not written as the grammar has them, waits behind any
sequence that begins like a packet, or gives up on a long one.
-/

namespace Newmux.Keys

open Newmux.Base

/-- A packet is taken where there is one and for its length, and more is waited for
only in the middle of one. -/
def KeepsGrammar (tty : Tty) (buf : List Char) : Prop :=
  (∀ size, (∃ m, newmuxScroll tty buf = .key size m) ↔
    ∃ p rest, IsPacket p ∧ buf = p ++ rest ∧ size = p.length) ∧
  (newmuxScroll tty buf = .more → ∃ p rest, IsPacket p ∧ p = buf ++ rest ∧ rest ≠ [])

theorem newmuxScroll_key (tty : Tty) (buf : List Char) (size : Nat) :
    (∃ m, newmuxScroll tty buf = .key size m) ↔ ∃ f, scrollPacket tty buf = .key size f := by
  unfold newmuxScroll
  constructor
  · rintro ⟨m, hm⟩
    split at hm
    · rename_i f heq
      cases hm
      exact ⟨f, heq⟩
    · cases hm
    · cases hm
  · rintro ⟨f, hf⟩
    rw [hf]
    exact ⟨_, rfl⟩

theorem newmuxScroll_more (tty : Tty) (buf : List Char) :
    newmuxScroll tty buf = .more ↔ scrollPacket tty buf = .more := by
  unfold newmuxScroll
  cases scrollPacket tty buf with
  | key size f =>
      constructor
      · intro h
        cases h
      · intro h
        cases h
  | no =>
      constructor
      · intro h
        cases h
      · intro h
        cases h
  | more => exact ⟨fun _ => rfl, fun _ => rfl⟩

/-- Behind `ESC [ ?` a packet ends at the first tilde. -/
theorem packet_at_front (rest : List Char) (size : Nat) :
    (∃ p more, IsPacket p ∧ esc :: '[' :: '?' :: rest = p ++ more ∧ size = p.length) ↔
      (∃ fields, FieldsOk fields ∧ rest.takeWhile (· ≠ '~') = packetText fields) ∧
        (rest.takeWhile (· ≠ '~')).length ≠ rest.length ∧
        size = 3 + (rest.takeWhile (· ≠ '~')).length + 1 := by
  constructor
  · rintro ⟨_, more, ⟨fields, hok, rfl⟩, heq, rfl⟩
    have hrest : rest = packetText fields ++ '~' :: more := by
      unfold packet at heq
      simpa using heq
    have htext := Split.takeWhile_append_sep (notMem_packetText fun t ht => hok.isLong ht).1 more
    rw [hrest, htext.1]
    refine ⟨⟨fields, hok, rfl⟩, ?_, ?_⟩
    · rw [List.length_append, List.length_cons]
      omega
    · unfold packet
      simp only [List.length_cons, List.length_append, List.length_nil]
      omega
  · rintro ⟨⟨fields, hok, htext⟩, hlength, hsize⟩
    have htilde : '~' ∈ rest := by
      by_contra hnone
      rw [(Split.takeWhile_of_notMem hnone).1] at hlength
      exact hlength rfl
    obtain ⟨text, more, rfl, hnone⟩ := List.eq_append_cons_of_mem htilde
    rw [(Split.takeWhile_append_sep hnone more).1] at htext hsize
    refine ⟨packet fields, more, ⟨fields, hok, rfl⟩, ?_, ?_⟩
    · unfold packet
      rw [htext]
      simp
    · rw [hsize, htext]
      unfold packet
      simp only [List.length_cons, List.length_append, List.length_nil]
      omega

/-- Behind `ESC [ ?`, the beginning of a packet is one of its text. -/
theorem begins_packet {rest : List Char} (hrest : '~' ∉ rest) :
    (∃ p more, IsPacket p ∧ p = esc :: '[' :: '?' :: rest ++ more ∧ more ≠ []) ↔ Begun rest := by
  rw [begun_iff]
  constructor
  · rintro ⟨_, more, ⟨fields, hok, rfl⟩, heq, -⟩
    have heq : packetText fields ++ ['~'] = rest ++ more := by
      unfold packet at heq
      simpa using heq
    refine ⟨fields, hok, ?_⟩
    rcases List.append_eq_append_iff.mp heq with ⟨a, rfl, hmore⟩ | ⟨a, ha, -⟩
    · -- The tilde is not part of what is there.
      cases a with
      | nil => simp
      | cons c a =>
          obtain ⟨rfl, -⟩ := List.cons.inj hmore
          exact absurd (by simp) hrest
    · exact ⟨a, ha.symm⟩
  · rintro ⟨fields, hok, a, ha⟩
    refine ⟨packet fields, a ++ ['~'], ⟨fields, hok, rfl⟩, ?_, by simp⟩
    unfold packet
    rw [← ha]
    simp

/-- A packet of six ones. -/
theorem isPacket_ones : IsPacket (packet (List.replicate 6 ['1'])) := ⟨_, by decide, rfl⟩

theorem keepsGrammar_of_elsewhere (tty : Tty) {buf : List Char}
    (hbuf : ∀ rest, buf ≠ esc :: '[' :: '?' :: rest) : KeepsGrammar tty buf := by
  have hnone : ∀ size, ¬ ∃ p rest, IsPacket p ∧ buf = p ++ rest ∧ size = p.length := by
    rintro size ⟨_, rest, ⟨fields, -, rfl⟩, heq, -⟩
    exact hbuf _ heq
  unfold KeepsGrammar
  simp only [newmuxScroll_key, newmuxScroll_more, hnone, iff_false, not_exists]
  rcases scrollPacket_elsewhere tty hbuf with hno | ⟨hmore, hshort⟩
  · rw [hno]
    constructor
    · intro size f hf
      cases hf
    · intro hmore
      cases hmore
  · rw [hmore]
    constructor
    · intro size f hf
      cases hf
    · intro _
      rcases hshort with rfl | rfl
      · exact ⟨_, _, isPacket_ones, rfl, by simp⟩
      · exact ⟨_, _, isPacket_ones, rfl, by simp⟩

/-- On input that begins with `ESC [ ?`. -/
theorem keepsGrammar_front (tty : Tty) (rest : List Char) :
    KeepsGrammar tty (esc :: '[' :: '?' :: rest) ↔ Regular rest := by
  have hnotMem : '~' ∉ rest.takeWhile (· ≠ '~') := Split.notMem_takeWhile rest
  have hregular := readPacket_isSome tty (rest.takeWhile (· ≠ '~'))
  unfold KeepsGrammar Regular
  simp only [newmuxScroll_key, newmuxScroll_more, packet_at_front]
  rw [scrollPacket_front]
  dsimp only
  by_cases hend : (rest.takeWhile (· ≠ '~')).length = rest.length
  · -- There is no tilde: no packet, and more is waited for up to the size of the buffer.
    have hrest : '~' ∉ rest := by
      intro hmem
      obtain ⟨text, more, rfl, hnone⟩ := List.eq_append_cons_of_mem hmem
      rw [(Split.takeWhile_append_sep hnone more).1, List.length_append, List.length_cons] at hend
      omega
    rw [if_pos hend, if_pos hend, begins_packet hrest, (Split.takeWhile_of_notMem hrest).1]
    constructor
    · rintro ⟨-, hmore⟩ hshort
      exact hmore (if_pos hshort)
    · intro hbegun
      refine ⟨?_, ?_⟩
      · intro size
        constructor
        · rintro ⟨f, hf⟩
          split at hf
          · cases hf
          · cases hf
        · rintro ⟨-, hne, -⟩
          exact absurd rfl hne
      · intro hmore
        split at hmore
        · exact hbegun (by assumption)
        · cases hmore
  · rw [if_neg hend, if_neg hend]
    by_cases hshort : (rest.takeWhile (· ≠ '~')).length < tmpSize - 3
    · -- The tilde is in the buffer: what is read has to be written as a packet.
      rw [if_pos hshort, if_pos hshort, ← hregular]
      have hread : ∀ {fields}, FieldsOk fields →
          rest.takeWhile (· ≠ '~') = packetText fields →
            ∃ f, readPacket tty (rest.takeWhile (· ≠ '~')) = some f := by
        intro fields hok htext
        rw [hregular, htext]
        exact readable_packetText hok
      constructor
      · rintro ⟨hkey, -⟩ ⟨f, hf⟩
        rw [hf] at hkey
        obtain ⟨⟨fields, hok, htext⟩, -⟩ := (hkey _).mp ⟨f, rfl⟩
        rw [htext]
        exact written_packetText hok
      · intro hwritten
        refine ⟨?_, ?_⟩
        · intro size
          constructor
          · rintro ⟨f, hf⟩
            split at hf
            · rename_i g hg
              cases hf
              have hpacket := packetText_of_readable (hregular.mp ⟨_, hg⟩) (hwritten ⟨_, hg⟩)
              exact ⟨hpacket, hend, rfl⟩
            · cases hf
          · rintro ⟨⟨fields, hok, htext⟩, -, rfl⟩
            obtain ⟨f, hf⟩ := hread hok htext
            rw [hf]
            exact ⟨f, rfl⟩
        · intro hmore
          split at hmore
          · cases hmore
          · cases hmore
    · -- The tilde is past the buffer, and whatever is in front of it is not taken.
      rw [if_neg hshort, if_neg hshort]
      constructor
      · rintro ⟨hkey, -⟩ hpacket
        obtain ⟨f, hf⟩ := (hkey _).mpr ⟨hpacket, hend, rfl⟩
        cases hf
      · intro hpacket
        refine ⟨?_, ?_⟩
        · intro size
          constructor
          · rintro ⟨f, hf⟩
            cases hf
          · rintro ⟨hsome, -⟩
            exact absurd hsome hpacket
        · intro hmore
          cases hmore

/-- The function keeps to the grammar exactly on the inputs that are regular behind
`ESC [ ?`. -/
theorem keepsGrammar_iff (tty : Tty) (buf : List Char) :
    KeepsGrammar tty buf ↔ ∀ rest, buf = esc :: '[' :: '?' :: rest → Regular rest := by
  by_cases hbuf : ∃ rest, buf = esc :: '[' :: '?' :: rest
  · obtain ⟨rest, rfl⟩ := hbuf
    rw [keepsGrammar_front]
    constructor
    · intro h rest' heq
      simp only [List.cons.injEq, true_and] at heq
      rwa [← heq]
    · exact fun h => h rest rfl
  · rw [not_exists] at hbuf
    exact ⟨fun _ rest heq => absurd heq (hbuf rest), fun _ => keepsGrammar_of_elsewhere tty hbuf⟩

/-- The reply `ESC [ ? 2026 ; 2 $ y` has no tilde, and is waited behind for one. -/
theorem held_modeReport :
    ¬ ∀ (tty : Tty) (buf : List Char), KeepsGrammar tty buf := by
  intro h
  have hregular := (keepsGrammar_front ⟨0, 0, 0, 0, 0⟩ _).mp (h _ (esc :: "[?2026;2$y".toList))
  have hbegun : Begun "2026;2$y".toList := hregular (by decide)
  have hsplit : "2026;2$y".toList.splitOn ';' = ["2026".toList, "2$y".toList] := by decide
  unfold Begun at hbegun
  rw [hsplit] at hbegun
  exact absurd hbegun.1 (by decide)

end Newmux.Keys
