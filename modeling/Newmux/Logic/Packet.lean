import Newmux.Base.Split
import Newmux.Keys.Packet

/-!
# Reading scroll packets

What the splitting loop makes of a text, and which texts the packet is read from.
-/

namespace Newmux.Keys

open Newmux.Base

/-! ## Numbers -/

theorem FieldOk.reads {k : Nat} {t : List Char} (h : FieldOk k t) : Reads k t := by
  unfold Reads
  rw [strtoll_of_isLong h.1]
  exact ⟨rfl, h.2⟩

theorem fieldOk_of_reads {k : Nat} {t : List Char} (h : Reads k t) (hlong : IsLong t) :
    FieldOk k t := by
  unfold Reads at h
  rw [strtoll_of_isLong hlong] at h
  exact ⟨hlong, h.2⟩

/-- Whatever a packet is written with, it is none of what ends a field or a text. -/
theorem notMem_of_isLong {t : List Char} (h : IsLong t) :
    ';' ∉ t ∧ '~' ∉ t ∧ nul ∉ t := by
  have hneither : ∀ c : Char, c ≠ '-' → c.isDigit = false → c ∉ t := by
    intro c hsign hdigit hmem
    rcases h.1.mem hmem with rfl | hc
    · exact hsign rfl
    · rw [hdigit] at hc
      cases hc
  exact ⟨hneither _ (by decide) (by decide), hneither _ (by decide) (by decide),
    hneither _ (by decide) (by decide)⟩

/-! ## Fields -/

theorem splitFields_eq (n : Nat) (t : List Char) : splitFields n t = (t.splitOn ';').take n := by
  induction n generalizing t with
  | zero => rfl
  | succ n ih =>
      rw [Split.splitOn_eq]
      unfold splitFields
      split
      · rename_i heq
        rw [heq, List.take_succ_cons, List.take_nil]
      · rename_i heq
        rw [heq, ih, List.take_succ_cons]

theorem readField_eq (t : List Char) :
    readField t = if (strtoll t).2 = [] then some (strtoll t).1 else none := by
  unfold readField
  split
  · rename_i heq
    rw [heq, if_pos rfl]
  · rename_i hne
    rw [if_neg]
    intro hnil
    exact hne _ (Prod.ext rfl hnil)

/-- All the fields are read or none is. -/
theorem mapM_readField (fields : List (List Char)) :
    fields.mapM readField =
      if ∀ t ∈ fields, (strtoll t).2 = [] then some (fields.map fun t => (strtoll t).1)
      else none := by
  induction fields with
  | nil => rfl
  | cons t fields ih =>
      rw [List.mapM_cons, ih, readField_eq]
      by_cases ht : (strtoll t).2 = []
      · by_cases hfields : ∀ t ∈ fields, (strtoll t).2 = []
        · rw [if_pos ht, if_pos hfields, if_pos]
          · rfl
          · intro u hu
            rcases List.mem_cons.mp hu with rfl | hu
            · exact ht
            · exact hfields u hu
        · rw [if_pos ht, if_neg hfields, if_neg]
          · rfl
          · intro hall
            exact hfields fun u hu => hall u (by simp [hu])
      · have hnot : ¬ ∀ u ∈ t :: fields, (strtoll u).2 = [] :=
          fun hall => ht (hall t (by simp))
        rw [if_neg ht, if_neg hnot]
        rfl

/-- The checks on the numbers of a packet, place by place. -/
theorem fieldsOf_isSome (tty : Tty) (ns : List Int) :
    (∃ f, fieldsOf tty ns = some f ∧ ¬ (f.ydelta = 0 ∨ f.mx < 0 ∨ f.my < 0)) ↔
      (ns.length = 6 ∨ ns.length = 8) ∧
        ∀ k (hk : k < ns.length), (k = 2 → ns[k] ≠ 0) ∧ (6 ≤ k → 0 ≤ ns[k]) := by
  constructor
  · rintro ⟨f, hf, hok⟩
    unfold fieldsOf at hf
    split at hf
    · cases hf
      refine ⟨.inl rfl, ?_⟩
      intro k hk
      constructor
      · rintro rfl hzero
        exact hok (.inl hzero)
      · intro h6
        exact absurd hk (by simp only [List.length_cons, List.length_nil]; omega)
    · cases hf
      refine ⟨.inr rfl, ?_⟩
      intro k hk
      constructor
      · rintro rfl hzero
        exact hok (.inl hzero)
      · intro h6
        have hk : k = 6 ∨ k = 7 := by
          simp only [List.length_cons, List.length_nil] at hk
          omega
        rcases hk with rfl | rfl
        · by_contra hneg
          exact hok (.inr (.inl (not_le.mp hneg)))
        · by_contra hneg
          exact hok (.inr (.inr (not_le.mp hneg)))
    · cases hf
  · rintro ⟨hlength, hok⟩
    rcases hlength with h6 | h8
    · match ns, h6 with
      | [yoff, xoff, ydelta, xdelta, precision, momentum], _ =>
          refine ⟨_, rfl, ?_⟩
          rintro (hzero | hx | hy)
          · exact (hok 2 (by simp)).1 rfl hzero
          · exact absurd hx (not_lt.mpr (Int.natCast_nonneg _))
          · exact absurd hy (not_lt.mpr (Int.natCast_nonneg _))
    · match ns, h8 with
      | [yoff, xoff, ydelta, xdelta, precision, momentum, mx, my], _ =>
          refine ⟨_, rfl, ?_⟩
          rintro (hzero | hx | hy)
          · exact (hok 2 (by simp)).1 rfl hzero
          · exact absurd hx (not_lt.mpr ((hok 6 (by simp)).2 (by decide)))
          · exact absurd hy (not_lt.mpr ((hok 7 (by simp)).2 (by decide)))

/-! ## Texts -/

/-- The text is read where it has a number for every place. -/
theorem readPacket_isSome (tty : Tty) (text : List Char) :
    (∃ f, readPacket tty text = some f) ↔ Readable text := by
  unfold readPacket Readable cFields
  rw [splitFields_eq]
  cases hfields : (List.splitOn ';' (text.takeWhile (· ≠ nul))).take nitems with
  | nil => simp
  | cons id fields =>
      dsimp only [List.head?_cons, List.tail_cons]
      rw [mapM_readField]
      by_cases hid : id = "7777".toList
      · rw [if_pos hid]
        by_cases hall : ∀ t ∈ fields, (strtoll t).2 = []
        · rw [if_pos hall]
          have hnumbers := fieldsOf_isSome tty (fields.map fun t => (strtoll t).1)
          rw [Option.bind_some]
          simp only [List.length_map, List.getElem_map] at hnumbers
          constructor
          · rintro ⟨f, hf⟩
            refine ⟨congrArg some hid, ?_⟩
            split at hf
            · rename_i g hg
              split at hf
              · cases hf
              · rename_i hok
                obtain ⟨hlength, hplaces⟩ := hnumbers.mp ⟨g, hg, hok⟩
                exact ⟨hlength, fun k hk => ⟨hall _ (List.getElem_mem hk), hplaces k hk⟩⟩
            · cases hf
          · rintro ⟨-, hlength, hplaces⟩
            obtain ⟨f, hf, hok⟩ := hnumbers.mpr ⟨hlength, fun k hk => (hplaces k hk).2⟩
            refine ⟨f, ?_⟩
            rw [hf]
            dsimp only
            rw [if_neg hok]
        · rw [if_neg hall]
          constructor
          · rintro ⟨f, hf⟩
            cases hf
          · rintro ⟨-, -, hplaces⟩
            refine absurd (fun t ht => ?_) hall
            obtain ⟨k, hk, rfl⟩ := List.getElem_of_mem ht
            exact (hplaces k hk).1
      · rw [if_neg hid]
        constructor
        · rintro ⟨f, hf⟩
          cases hf
        · rintro ⟨heq, -⟩
          exact absurd (Option.some.inj heq) hid

theorem packetId_notMem : ';' ∉ packetId ∧ '~' ∉ packetId ∧ nul ∉ packetId := by decide

theorem FieldsOk.isLong {fields : List (List Char)} (h : FieldsOk fields) {t : List Char}
    (ht : t ∈ fields) : IsLong t := by
  obtain ⟨k, hk, rfl⟩ := List.getElem_of_mem ht
  exact (h.2 k hk).1

/-- The fields of a packet are the ones it is split into. -/
theorem splitOn_packetText {fields : List (List Char)} (h : ∀ t ∈ fields, IsLong t) :
    (packetText fields).splitOn ';' = packetId :: fields := by
  apply List.splitOn_intercalate
  · intro t ht
    rcases List.mem_cons.mp ht with rfl | ht
    · exact packetId_notMem.1
    · exact (notMem_of_isLong (h t ht)).1
  · exact List.cons_ne_nil _ _

theorem mem_intercalate {sep : Char} {fs : List (List Char)} {c : Char}
    (hc : c ∈ [sep].intercalate fs) : c = sep ∨ ∃ f ∈ fs, c ∈ f := by
  induction fs with
  | nil => cases hc
  | cons f fs ih =>
      cases fs with
      | nil => exact .inr ⟨f, by simp, by rwa [List.intercalate_singleton] at hc⟩
      | cons g fs =>
          rw [List.intercalate_cons_cons, List.append_assoc, List.mem_append, List.mem_append] at hc
          rcases hc with hc | hc | hc
          · exact .inr ⟨f, by simp, hc⟩
          · exact .inl (List.mem_singleton.mp hc)
          · rcases ih hc with hsep | ⟨x, hx, hcx⟩
            · exact .inl hsep
            · exact .inr ⟨x, by simp [hx], hcx⟩

theorem notMem_packetText {fields : List (List Char)} (h : ∀ t ∈ fields, IsLong t) :
    '~' ∉ packetText fields ∧ nul ∉ packetText fields := by
  have hneither : ∀ c : Char, c ≠ ';' → c ∉ packetId → (∀ t ∈ fields, c ∉ t) →
      c ∉ packetText fields := by
    intro c hsep hid hfields hmem
    rcases mem_intercalate hmem with rfl | ⟨t, ht, hct⟩
    · exact hsep rfl
    · rcases List.mem_cons.mp ht with rfl | ht
      · exact hid hct
      · exact hfields t ht hct
  exact ⟨hneither _ (by decide) packetId_notMem.2.1 fun t ht => (notMem_of_isLong (h t ht)).2.1,
    hneither _ (by decide) packetId_notMem.2.2 fun t ht => (notMem_of_isLong (h t ht)).2.2⟩

/-! ## Packets -/

theorem cFields_packetText {fields : List (List Char)} (h : FieldsOk fields) :
    cFields (packetText fields) = packetId :: fields := by
  have hlong : ∀ t ∈ fields, IsLong t := fun t ht => h.isLong ht
  have hlength := h.1
  unfold cFields
  rw [(Split.takeWhile_of_notMem (notMem_packetText hlong).2).1, splitOn_packetText hlong]
  apply List.take_of_length_le
  rw [List.length_cons]
  unfold nitems
  omega

theorem readable_packetText {fields : List (List Char)} (h : FieldsOk fields) :
    Readable (packetText fields) := by
  unfold Readable
  rw [cFields_packetText h]
  exact ⟨rfl, h.1, fun k hk => (h.2 k hk).reads⟩

theorem written_packetText {fields : List (List Char)} (h : FieldsOk fields) :
    Written (packetText fields) := by
  have hlong : ∀ t ∈ fields, IsLong t := fun t ht => h.isLong ht
  have hlength := h.1
  unfold Written
  rw [splitOn_packetText hlong]
  refine ⟨(notMem_packetText hlong).2, ?_, hlong⟩
  rw [List.length_cons]
  unfold nitems
  omega

/-- A text that is read and written as in the grammar is a packet's. -/
theorem packetText_of_readable {text : List Char} (hread : Readable text)
    (hwritten : Written text) : ∃ fields, FieldsOk fields ∧ text = packetText fields := by
  obtain ⟨hnul, hlength, hlong⟩ := hwritten
  have hfields : cFields text = text.splitOn ';' := by
    unfold cFields
    rw [(Split.takeWhile_of_notMem hnul).1, List.take_of_length_le hlength]
  obtain ⟨hid, hcount, hplaces⟩ := hread
  rw [hfields] at hid
  refine ⟨(text.splitOn ';').tail, ?_, ?_⟩
  · rw [← hfields] at hlong ⊢
    exact ⟨hcount, fun k hk => fieldOk_of_reads (hplaces k hk) (hlong _ (List.getElem_mem hk))⟩
  · unfold packetText
    rw [List.cons_head?_tail hid, List.intercalate_splitOn]

/-- What a packet reads as. -/
theorem readPacket_packetText (tty : Tty) {fields : List (List Char)} (h : FieldsOk fields) :
    readPacket tty (packetText fields) = fieldsOf tty (fields.map Decimal.value) := by
  have hnumbers : fields.map (fun t => (strtoll t).1) = fields.map Decimal.value := by
    apply List.map_congr_left
    intro t ht
    rw [strtoll_of_isLong (h.isLong ht)]
  have hall : ∀ t ∈ fields, (strtoll t).2 = [] := by
    intro t ht
    rw [strtoll_of_isLong (h.isLong ht)]
  obtain ⟨f, hf⟩ := (readPacket_isSome tty _).mpr (readable_packetText h)
  have hread := hf
  have hsplit : splitFields nitems ((packetText fields).takeWhile (· ≠ nul)) = packetId :: fields := by
    rw [splitFields_eq]
    exact cFields_packetText h
  unfold readPacket at hread
  rw [hsplit] at hread
  dsimp only at hread
  have hid : packetId = "7777".toList := rfl
  rw [if_pos hid, mapM_readField, if_pos hall, Option.bind_some, hnumbers] at hread
  rw [hf]
  split at hread
  · rename_i g hg
    split at hread
    · cases hread
    · cases hread
      rw [hg]
  · cases hread

/-! ## Beginnings of a packet -/

theorem isLong_one : IsLong ['1'] := by decide

theorem fieldOk_one (k : Nat) : FieldOk k ['1'] :=
  ⟨isLong_one, fun _ => by decide, fun _ => by decide⟩

/-- What has begun can be completed. -/
theorem FieldBegun.complete {k : Nat} {t : List Char} (h : FieldBegun k t) :
    ∃ x, t <+: x ∧ FieldOk k x := by
  rcases h with rfl | rfl | ⟨hlong, hcoord⟩
  · exact ⟨['1'], List.nil_prefix, fieldOk_one k⟩
  · by_cases hk : k = 2
    · refine ⟨['-', '1'], by decide, by decide, fun _ => by decide, ?_⟩
      omega
    · exact ⟨['-', '0'], by decide, by decide, fun h => absurd h hk, fun _ => by decide⟩
  · by_cases hzero : k = 2 ∧ Decimal.value t = 0
    · -- A zero is followed by a digit.
      obtain ⟨hnum, hone⟩ := hlong.1.zero_append_one hzero.2
      have hlow : llongMin ≤ -1 := by decide
      have hhigh : 1 ≤ llongMax := by decide
      exact ⟨t ++ ['1'], List.prefix_append _ _, ⟨hnum, by omega, by omega⟩,
        fun _ => by omega, fun hk => by omega⟩
    · exact ⟨t, List.prefix_rfl, hlong, fun hk hv => hzero ⟨hk, hv⟩, hcoord⟩

/-- A beginning of a field has begun. -/
theorem FieldOk.begun {k : Nat} {t x : List Char} (h : FieldOk k x) (ht : t <+: x) :
    FieldBegun k t := by
  obtain ⟨u, rfl⟩ := ht
  obtain ⟨⟨hnum, hlow, hhigh⟩, -, hcoord⟩ := h
  rcases hnum.of_append with rfl | rfl | ⟨htnum, hbetween⟩
  · exact .inl rfl
  · exact .inr (.inl rfl)
  · have hlow0 : llongMin ≤ 0 := by decide
    have hhigh0 : 0 ≤ llongMax := by decide
    refine .inr (.inr ⟨⟨htnum, by omega, by omega⟩, ?_⟩)
    intro hk
    have := hcoord hk
    omega

/-- A text with no tilde is the beginning of a packet's when it has begun as one. -/
theorem begun_iff {text : List Char} :
    Begun text ↔ ∃ fields, FieldsOk fields ∧ text <+: packetText fields := by
  constructor
  · intro h
    unfold Begun at h
    cases hsplit : text.splitOn ';' with
    | nil => exact absurd hsplit (List.splitOn_ne_nil _ _)
    | cons id fields =>
        rw [hsplit] at h
        dsimp only at h
        have htext : text = [';'].intercalate (id :: fields) := by
          rw [← hsplit, List.intercalate_splitOn]
        rw [htext]
        split at h
        · rename_i hnil
          rw [hnil]
          exact ⟨List.replicate 6 ['1'], by decide, Split.intercalate_prefix [] h _⟩
        · rename_i hne
          obtain ⟨rfl, hlength, hplaces⟩ := h
          obtain ⟨done, last, rfl⟩ := (List.eq_nil_or_concat fields).resolve_left hne
          rw [List.concat_eq_append] at hlength hplaces ⊢
          rw [List.length_append, List.length_singleton] at hlength
          have hlast : FieldBegun done.length last := by
            have := hplaces done.length (by simp)
            rwa [if_pos (by simp), List.getElem_append_right (le_refl _), List.getElem_singleton]
              at this
          obtain ⟨x, hx, hok⟩ := hlast.complete
          -- The fields that are missing, up to six or up to eight.
          obtain ⟨more, hmore⟩ : ∃ more, done.length + (more + 1) = 6 ∨
              done.length + (more + 1) = 8 := by
            by_cases hfew : done.length < 6
            · exact ⟨5 - done.length, by omega⟩
            · exact ⟨7 - done.length, by omega⟩
          refine ⟨done ++ x :: List.replicate more ['1'], ⟨?_, ?_⟩,
            Split.intercalate_prefix (packetId :: done) hx _⟩
          · simp only [List.length_append, List.length_cons, List.length_replicate]
            exact hmore
          · intro k hk
            rcases lt_trichotomy k done.length with hlt | rfl | hgt
            · have := hplaces k (by simp; omega)
              rw [if_neg (by simp; omega), List.getElem_append_left hlt] at this
              rwa [List.getElem_append_left hlt]
            · rw [List.getElem_append_right (le_refl _)]
              simp only [Nat.sub_self, List.getElem_cons_zero]
              exact hok
            · rw [List.getElem_append_right (by omega)]
              obtain ⟨m, hm⟩ : ∃ m, k - done.length = m + 1 := ⟨k - done.length - 1, by omega⟩
              simp only [hm, List.getElem_cons_succ, List.getElem_replicate]
              exact fieldOk_one k
  · rintro ⟨fields, hok, hprefix⟩
    have hlong : ∀ t ∈ fields, IsLong t := fun t ht => hok.isLong ht
    obtain ⟨done, x, rest, u, heq, hu, hsplit⟩ :=
      Split.splitOn_of_prefix (List.cons_ne_nil _ _) (by
        intro f hf
        rcases List.mem_cons.mp hf with rfl | hf
        · exact packetId_notMem.1
        · exact (notMem_of_isLong (hlong f hf)).1) hprefix
    unfold Begun
    cases done with
    | nil =>
        obtain ⟨rfl, -⟩ := List.cons.inj heq
        rw [hsplit]
        show if [] = [] then _ else _
        rw [if_pos rfl]
        exact hu
    | cons id done =>
        rw [List.cons_append] at heq hsplit
        obtain ⟨rfl, rfl⟩ := List.cons.inj heq
        rw [hsplit]
        show if done ++ [u] = [] then _ else _
        rw [if_neg (by simp)]
        obtain ⟨hlength, hplaces⟩ := hok
        rw [List.length_append, List.length_cons] at hlength
        refine ⟨rfl, by simp; omega, ?_⟩
        intro k hk
        rw [List.length_append, List.length_singleton] at hk ⊢
        have hplace := hplaces k (by simp; omega)
        split
        · obtain rfl : k = done.length := by omega
          rw [List.getElem_append_right (le_refl _)] at hplace ⊢
          simp only [Nat.sub_self, List.getElem_cons_zero] at hplace ⊢
          exact hplace.begun hu
        · rw [List.getElem_append_left (by omega)] at hplace ⊢
          exact hplace

/-! ## At the front of the input -/

/-- The scan for the tilde, on what stands behind `ESC [ ?`. -/
theorem scrollPacket_front (tty : Tty) (rest : List Char) :
    scrollPacket tty (esc :: '[' :: '?' :: rest) =
      (let text := rest.takeWhile (· ≠ '~')
      if text.length = rest.length then
        if rest.length ≤ tmpSize - 3 then .more else .no
      else if text.length < tmpSize - 3 then
        match readPacket tty text with
        | some f => .key (3 + text.length + 1) f
        | none => .no
      else .no) := by
  have hle := (List.takeWhile_sublist (· ≠ '~') (l := rest)).length_le
  unfold scrollPacket
  simp only [ne_eq, not_true_eq_false, if_false] at hle ⊢
  rw [← List.take_takeWhile, List.length_take]
  generalize rest.takeWhile (fun c => decide ¬c = '~') = text at hle ⊢
  by_cases hend : text.length = rest.length
  · rw [if_pos hend]
    by_cases hshort : rest.length ≤ tmpSize - 3
    · rw [if_pos (by omega), if_pos hshort]
    · rw [if_neg (by omega), if_pos (by omega), if_neg hshort]
  · rw [if_neg hend]
    by_cases hshort : text.length < tmpSize - 3
    · rw [if_neg (by omega), if_neg (by omega), List.take_of_length_le hshort.le,
        min_eq_right hshort.le]
      exact (if_pos hshort).symm
    · rw [if_neg (by omega), if_pos (by omega), if_neg hshort]

/-- A packet at the front that fits the buffer is taken whole. -/
theorem scrollPacket_packet (tty : Tty) {fields : List (List Char)} (h : FieldsOk fields)
    (hlength : (packet fields).length ≤ tmpSize) (rest : List Char) {f : Fields}
    (hf : fieldsOf tty (fields.map Decimal.value) = some f) :
    scrollPacket tty (packet fields ++ rest) = .key (packet fields).length f := by
  have htilde := (notMem_packetText fun t ht => h.isLong ht).1
  have hfront : packet fields ++ rest =
      esc :: '[' :: '?' :: (packetText fields ++ '~' :: rest) := by
    unfold packet
    simp
  have hsize : (packet fields).length = 3 + (packetText fields).length + 1 := by
    unfold packet
    simp only [List.length_cons, List.length_append, List.length_nil]
    omega
  rw [hfront, scrollPacket_front]
  dsimp only
  rw [(Split.takeWhile_append_sep htilde rest).1, if_neg, if_pos, readPacket_packetText tty h, hf,
    hsize]
  · unfold tmpSize at *
    omega
  · rw [List.length_append, List.length_cons]
    omega

/-- Off `ESC [ ?` nothing is taken, and more is waited for in the middle of it. -/
theorem scrollPacket_elsewhere (tty : Tty) {buf : List Char}
    (hbuf : ∀ rest, buf ≠ esc :: '[' :: '?' :: rest) :
    scrollPacket tty buf = .no ∨
      (scrollPacket tty buf = .more ∧ (buf = [esc] ∨ buf = [esc, '['])) := by
  unfold scrollPacket
  match buf with
  | [] => exact .inl rfl
  | c :: buf =>
      by_cases hc : c = esc
      · subst hc
        match buf with
        | [] => exact .inr ⟨rfl, .inl rfl⟩
        | c :: buf =>
            by_cases hc : c = '['
            · subst hc
              match buf with
              | [] => exact .inr ⟨rfl, .inr rfl⟩
              | c :: buf =>
                  by_cases hc : c = '?'
                  · subst hc
                    exact absurd rfl (hbuf buf)
                  · exact .inl (by simp [hc])
            · exact .inl (by simp [hc])
      · exact .inl (by simp [hc])

end Newmux.Keys
