import Mathlib.Data.List.DropRight
import Mathlib.Data.List.Forall2
import Mathlib.Tactic

/-!
# The end of a bounded list

A list grows at its end and keeps a limited number of its last elements. A block is
added unless the list ends with it already.
-/

namespace Newmux.Base.Ends

variable {α : Type} {r : α → α → Bool} {limit k n : Nat} {block rows xs ys : List α}

/-! ## Suffixes -/

theorem rtake_suffix (rows : List α) (n : Nat) : rows.rtake n <:+ rows := List.drop_suffix _ _

theorem length_rtake (h : n ≤ rows.length) : (rows.rtake n).length = n := by
  unfold List.rtake
  rw [List.length_drop]
  omega

theorem eq_rtake (h : xs <:+ ys) : xs = ys.rtake xs.length :=
  (List.suffix_of_suffix_length_le h (rtake_suffix ys _)
    (length_rtake h.length_le).ge).eq_of_length (length_rtake h.length_le).symm

/-- The last elements of an end of a list are those of the list. -/
theorem rtake_of_suffix (h : xs <:+ ys) (hk : k ≤ xs.length) : xs.rtake k = ys.rtake k := by
  have hsuffix := (rtake_suffix xs k).trans h
  have heq := eq_rtake hsuffix
  rwa [length_rtake hk] at heq

/-! ## Ending with a block -/

/-- Whether a list ends with a block, elements being compared by `r`. -/
def endsWith (r : α → α → Bool) (block rows : List α) : Bool :=
  decide (block.length ≤ rows.length) &&
    ((rows.drop (rows.length - block.length)).zip block).all fun p => r p.1 p.2

theorem endsWith_append (hr : ∀ x, r x x = true) (rows block : List α) :
    endsWith r block (rows ++ block) = true := by
  unfold endsWith
  rw [List.length_append, Nat.add_sub_cancel, List.drop_left]
  simp only [Nat.le_add_left, decide_true, Bool.true_and, List.all_eq_true]
  rintro ⟨x, y⟩ hmem
  have hxy : x = y := by
    rw [List.zip, List.zipWith_self] at hmem
    obtain ⟨z, -, hz⟩ := List.mem_map.mp hmem
    cases hz
    rfl
  exact hxy ▸ hr x

/-- An end that is long enough ends with the same blocks. -/
theorem endsWith_suffix (h : xs <:+ ys) :
    endsWith r block xs = (decide (block.length ≤ xs.length) && endsWith r block ys) := by
  obtain ⟨pre, rfl⟩ := h
  unfold endsWith
  by_cases hlen : block.length ≤ xs.length
  · have hdrop : (pre ++ xs).drop ((pre ++ xs).length - block.length) =
        xs.drop (xs.length - block.length) := by
      rw [List.length_append, Nat.add_sub_assoc hlen, List.drop_append]
      simp
    rw [hdrop]
    simp [hlen, show block.length ≤ pre.length + xs.length by omega]
  · simp [hlen]

/-- A list behind more ends with what it ends with, as far as it is long enough. -/
theorem endsWith_append_left (h : block.length ≤ ys.length) (xs : List α) :
    endsWith r block (xs ++ ys) = endsWith r block ys := by
  rw [endsWith_suffix (List.suffix_append xs ys), decide_eq_true h, Bool.true_and]

theorem length_of_endsWith (h : endsWith r block rows = true) : block.length ≤ rows.length := by
  unfold endsWith at h
  rw [Bool.and_eq_true, decide_eq_true_eq] at h
  exact h.1

/-- Ending with a block is an end that compares equal to it, element by element. -/
theorem endsWith_iff : endsWith r block rows = true ↔
    ∃ last, last <:+ rows ∧ List.Forall₂ (fun x y => r x y = true) last block := by
  constructor
  · intro h
    have hlen := length_of_endsWith h
    unfold endsWith at h
    rw [Bool.and_eq_true, List.all_eq_true] at h
    refine ⟨_, List.drop_suffix (rows.length - block.length) rows,
      List.forall₂_iff_zip.mpr ⟨?_, fun hmem => h.2 _ hmem⟩⟩
    rw [List.length_drop]
    omega
  · rintro ⟨last, hsuffix, hall⟩
    have hlen := hall.length_eq
    have hle := hsuffix.length_le
    have hlast : last = rows.drop (rows.length - block.length) := by
      rw [← hlen]
      exact eq_rtake hsuffix
    unfold endsWith
    rw [Bool.and_eq_true, decide_eq_true_eq, List.all_eq_true]
    exact ⟨by omega, fun q hq => List.forall₂_zip hall (hlast ▸ hq)⟩

/-- A block that stands at the end of another one's match is matched by its end. -/
theorem endsWith_swap {r' : α → α → Bool} {block' : List α}
    (hsub : ∀ x y, r' x y = true → r y x = true)
    (h : endsWith r' block' (rows ++ block) = true) (hle : block.length ≤ block'.length) :
    endsWith r block block' = true := by
  obtain ⟨last, hsuffix, hall⟩ := endsWith_iff.mp h
  have hlen := hall.length_eq
  have hend : block <:+ last :=
    List.suffix_of_suffix_length_le (List.suffix_append rows block) hsuffix (by omega)
  refine endsWith_iff.mpr ⟨block'.drop (last.length - block.length), List.drop_suffix .., ?_⟩
  have hdrop := List.forall₂_drop (last.length - block.length) hall
  have hblock : last.drop (last.length - block.length) = block := (eq_rtake hend).symm
  rw [hblock] at hdrop
  exact (hdrop.imp fun x y hxy => hsub x y hxy).flip

/-! ## Adding blocks -/

/-- How many of `n` elements are kept; at the limit exactly, one is dropped. -/
def kept (limit n : Nat) : Nat := if n < limit then n else min (n - 1) limit

theorem kept_le (limit n : Nat) : kept limit n ≤ n := by
  unfold kept
  split <;> omega

/-- The list with a block behind it, and its first elements dropped; as it is when it
ends with the block. -/
def add (r : α → α → Bool) (limit : Nat) (block rows : List α) : List α :=
  if endsWith r block rows then rows else (rows ++ block).rtake (kept limit (rows.length + block.length))

/-- What is missing of a block at the end of the last `n` elements of a list. -/
def missing (r : α → α → Bool) (block rows : List α) (n : Nat) : List α :=
  if block.length ≤ n ∧ endsWith r block rows = true then [] else block

/-- How many elements are kept of `n` and a block behind them. -/
def room (limit n : Nat) (block : List α) : Nat :=
  if block.length = 0 then n else kept limit (n + block.length)

theorem room_le (limit n : Nat) (block : List α) : room limit n block ≤ n + block.length := by
  have := kept_le limit (n + block.length)
  unfold room
  split <;> omega

/-- Adding a block to the last `n` elements of a list keeps the last ones of the list
with what was missing. -/
theorem add_rtake (hblock : block ≠ []) (hn : n ≤ rows.length) :
    add r limit block (rows.rtake n) =
      (rows ++ missing r block rows n).rtake (room limit n (missing r block rows n)) := by
  have hlen : (rows.rtake n).length = n := length_rtake hn
  have hpos : block.length ≠ 0 := by simpa using hblock
  unfold add missing
  rw [endsWith_suffix (rtake_suffix rows n), hlen]
  by_cases hends : block.length ≤ n ∧ endsWith r block rows = true
  · rw [if_pos hends, if_pos (by simpa using hends)]
    simp [room]
  · rw [if_neg hends, if_neg (by simpa using hends)]
    unfold room
    rw [if_neg hpos]
    refine rtake_of_suffix ?_ ?_
    · obtain ⟨pre, hpre⟩ := rtake_suffix rows n
      exact ⟨pre, by rw [← List.append_assoc, hpre]⟩
    · rw [List.length_append, hlen]
      exact kept_le ..

/-- The last `n` elements of a list stay the last of it with more behind it. -/
theorem rtake_eq_iff {added : List α} (hn : n ≤ rows.length) (hk : k ≤ n + added.length) :
    (rows ++ added).rtake k = rows.rtake n ↔ rows.rtake n <:+ rows ++ added ∧ k = n := by
  have hlen : (rows.rtake n).length = n := length_rtake hn
  constructor
  · intro h
    refine ⟨h ▸ rtake_suffix .., ?_⟩
    have := congrArg List.length h
    rwa [length_rtake (by rw [List.length_append]; omega), hlen] at this
  · rintro ⟨h, rfl⟩
    have heq := eq_rtake h
    rw [hlen] at heq
    exact heq.symm

/-- A list of which the last elements are kept, with what is missing of a block behind
it, and how many are kept then. -/
def grow (r : α → α → Bool) (limit : Nat) (block : List α) (p : List α × Nat) : List α × Nat :=
  (p.1 ++ missing r block p.1 p.2, room limit p.2 (missing r block p.1 p.2))

theorem grow_le {p : List α × Nat} (hp : p.2 ≤ p.1.length) :
    (grow r limit block p).2 ≤ (grow r limit block p).1.length := by
  have := room_le limit p.2 (missing r block p.1 p.2)
  show room limit p.2 _ ≤ (p.1 ++ _).length
  rw [List.length_append]
  omega

/-- Looking for two blocks adds nothing, or what it adds pushes the same elements out:
the list is full, and its last elements come round again. -/
def Settled (r r' : α → α → Bool) (limit : Nat) (block block' : List α) (p : List α × Nat) : Prop :=
  let added := missing r block p.1 p.2
  let added' := missing r' block' (p.1 ++ added) (room limit p.2 added)
  added ++ added' = [] ∨
    (p.1.rtake p.2 <:+ p.1 ++ added ++ added' ∧
      (p.2 = limit ∨ (p.2 + 1 = limit ∧ added.length ≤ 1 ∧ added'.length ≤ 1)))

variable {r' : α → α → Bool} {block' : List α} {p : List α × Nat}

theorem add_grow (hblock : block ≠ []) (hp : p.2 ≤ p.1.length) :
    add r limit block (p.1.rtake p.2) =
      (grow r limit block p).1.rtake (grow r limit block p).2 :=
  add_rtake hblock hp

/-- Two blocks. -/
theorem add_add_eq_iff (hblock : block ≠ []) (hblock' : block' ≠ []) (hp : p.2 ≤ p.1.length) :
    add r' limit block' (add r limit block (p.1.rtake p.2)) = p.1.rtake p.2 ↔
      Settled r r' limit block block' p := by
  rw [add_grow hblock hp, add_grow hblock' (grow_le hp)]
  unfold Settled grow
  dsimp only
  generalize missing r block p.1 p.2 = added
  generalize missing r' block' (p.1 ++ added) (room limit p.2 added) = added'
  have hroom := room_le limit p.2 added
  have hroom' := room_le limit (room limit p.2 added) added'
  rw [List.append_assoc, rtake_eq_iff hp (by rw [List.length_append]; omega)]
  have hcount : room limit (room limit p.2 added) added' = p.2 ↔
      added.length + added'.length = 0 ∨ p.2 = limit ∨
        (p.2 + 1 = limit ∧ added.length ≤ 1 ∧ added'.length ≤ 1) := by
    unfold room kept
    generalize added.length = a
    generalize added'.length = b
    split_ifs <;> omega
  rw [hcount]
  have hnil : added ++ added' = [] ↔ added.length + added'.length = 0 := by
    rw [← List.length_append, List.length_eq_zero_iff]
  rw [hnil]
  constructor
  · rintro ⟨hsuffix, hnone | hfull⟩
    · exact .inl hnone
    · exact .inr ⟨hsuffix, hfull⟩
  · rintro (hnone | ⟨hsuffix, hfull⟩)
    · refine ⟨?_, .inl hnone⟩
      rw [hnil.mpr hnone, List.append_nil]
      exact rtake_suffix ..
    · exact ⟨hsuffix, .inr hfull⟩

theorem length_add (r : α → α → Bool) (limit : Nat) (block rows : List α) :
    (add r limit block rows).length = rows.length ∨
      (add r limit block rows).length = kept limit (rows.length + block.length) := by
  unfold add
  split
  · exact .inl rfl
  · refine .inr (length_rtake ?_)
    rw [List.length_append]
    exact kept_le ..

/-- If two blocks leave the list as it is, the first of them has not cut it. -/
theorem length_le_add (hblock : block ≠ []) (h : add r' limit block' (add r limit block rows) = rows) :
    rows.length ≤ (add r limit block rows).length := by
  have hpos : 0 < block.length := List.length_pos_iff.mpr hblock
  have hfirst := length_add r limit block rows
  have hsecond := length_add r' limit block' (add r limit block rows)
  rw [h] at hsecond
  unfold kept at hfirst hsecond
  split_ifs at hfirst hsecond <;> omega

/-- One block, to a list that does not compare elements wrongly: once it has been added
nothing more is, unless the list was empty and the block is cut at the limit. -/
theorem add_self_eq_iff (hr : ∀ x, r x x = true) (hblock : block ≠ []) (rows : List α) :
    add r limit block (add r limit block rows) = add r limit block rows ↔
      rows ≠ [] ∨ limit ≠ block.length ∨ block.length < 2 := by
  have hpos : 0 < block.length := List.length_pos_iff.mpr hblock
  by_cases hends : endsWith r block rows = true
  · have hadd : add r limit block rows = rows := by
      unfold add
      rw [if_pos hends]
    have hne : rows ≠ [] := by
      rintro rfl
      simp [endsWith, hblock] at hends
    rw [hadd, hadd]
    exact iff_of_true rfl (.inl hne)
  · have hadd : add r limit block rows =
        (rows ++ block).rtake (kept limit (rows.length + block.length)) := by
      unfold add
      rw [if_neg hends]
    have hle : kept limit (rows.length + block.length) ≤ (rows ++ block).length := by
      rw [List.length_append]
      exact kept_le ..
    rw [hadd, add_rtake hblock hle]
    have hempty : rows ≠ [] ↔ rows.length ≠ 0 := by simp
    rw [hempty]
    -- the block is found behind itself, unless the limit has cut it
    by_cases hcut : block.length ≤ kept limit (rows.length + block.length)
    · have hmissing : missing r block (rows ++ block) (kept limit (rows.length + block.length)) = [] := by
        unfold missing
        rw [if_pos ⟨hcut, endsWith_append hr rows block⟩]
      rw [hmissing]
      apply iff_of_true
      · simp [room]
      · unfold kept at hcut
        split_ifs at hcut <;> omega
    · have hmissing : missing r block (rows ++ block) (kept limit (rows.length + block.length)) =
          block := by
        unfold missing
        rw [if_neg (fun h => hcut h.1)]
      have hroom := room_le limit (kept limit (rows.length + block.length)) block
      rw [hmissing, rtake_eq_iff hle (by omega)]
      have hsuffix : (rows ++ block).rtake (kept limit (rows.length + block.length)) <:+
          rows ++ block ++ block := by
        have hlast : (rows ++ block).rtake (kept limit (rows.length + block.length)) =
            block.rtake (kept limit (rows.length + block.length)) :=
          (rtake_of_suffix (List.suffix_append rows block) (by omega)).symm
        rw [hlast]
        exact (rtake_suffix block _).trans (List.suffix_append _ _)
      rw [and_iff_right hsuffix]
      unfold room kept at *
      split_ifs at * <;> omega

/-! ## Adding two blocks twice -/

/-- `n` elements are as many as are kept, whatever is added. -/
def Full (limit : Nat) (block block' : List α) (n : Nat) : Prop :=
  n = limit ∨ (n + 1 = limit ∧ block.length = 1 ∧ block'.length = 1)

/-- The second block is added alone. A second look finds the first one behind it, or
the list is full, and what is added pushes the same elements out. -/
def SecondAlone (r r' : α → α → Bool) (limit : Nat) (block block' rows : List α) : Prop :=
  (block.length ≤ limit ∧ endsWith r block (rows ++ block') = true) ∨
    (Full limit block block' (kept limit (rows.length + block'.length)) ∧
      (rows ++ block').rtake (kept limit (rows.length + block'.length)) <:+
        rows ++ block' ++ block ++
          if block'.length ≤ limit ∧ endsWith r' block' block = true then [] else block')

/-- Both are added. -/
def BothAdded (r : α → α → Bool) (limit : Nat) (block block' rows : List α) : Prop :=
  let n := kept limit (kept limit (rows.length + block.length) + block'.length)
  (block.length ≤ n ∧ endsWith r block (block ++ block') = true) ∨
    (Full limit block block' n ∧
      (rows ++ block ++ block').rtake n <:+ rows ++ block ++ block' ++ block ++ block')

/-- When adding two blocks to a list twice is the same as adding them once, by what the
list ends with: both, the first block alone, the second alone once the first has been
added, or neither. -/
def Once (r r' : α → α → Bool) (limit : Nat) (block block' rows : List α) : Prop :=
  if endsWith r block rows then
    endsWith r' block' rows = true ∨ SecondAlone r r' limit block block' rows
  else if block'.length ≤ kept limit (rows.length + block.length) ∧
      endsWith r' block' (rows ++ block) = true then
    rows ≠ [] ∨ limit ≠ block.length
  else BothAdded r limit block block' rows

/-- The first block is still found. -/
theorem settled_found {n : Nat} (h : block.length ≤ n ∧ endsWith r block rows = true)
    (hblock' : block' ≠ []) : Settled r r' limit block block' (rows, n) ↔
      (block'.length ≤ n ∧ endsWith r' block' rows = true) ∨
        (rows.rtake n <:+ rows ++ block' ∧
          (n = limit ∨ (n + 1 = limit ∧ block'.length ≤ 1))) := by
  have hadded : missing r block rows n = [] := by
    unfold missing
    rw [if_pos h]
  have hroom : room limit n ([] : List α) = n := by simp [room]
  unfold Settled
  dsimp only
  rw [hadded, hroom, List.append_nil, List.nil_append]
  unfold missing
  by_cases hfound : block'.length ≤ n ∧ endsWith r' block' rows = true
  · rw [if_pos hfound]
    exact iff_of_true (.inl rfl) (.inl hfound)
  · rw [if_neg hfound]
    simp [hblock', hfound]

/-- The first block is missing. -/
theorem settled_missing {n : Nat} (h : ¬ (block.length ≤ n ∧ endsWith r block rows = true))
    (hblock : block ≠ []) : Settled r r' limit block block' (rows, n) ↔
      rows.rtake n <:+ rows ++ block ++
          missing r' block' (rows ++ block) (kept limit (n + block.length)) ∧
        (n = limit ∨ (n + 1 = limit ∧ block.length = 1 ∧
          (missing r' block' (rows ++ block) (kept limit (n + block.length))).length ≤ 1)) := by
  have hpos : 0 < block.length := List.length_pos_iff.mpr hblock
  have hadded : missing r block rows n = block := by
    unfold missing
    rw [if_neg h]
  have hroom : room limit n block = kept limit (n + block.length) := by
    unfold room
    rw [if_neg (by omega)]
  unfold Settled
  dsimp only
  rw [hadded, hroom]
  have hone : block.length ≤ 1 ↔ block.length = 1 := by omega
  simp [hblock, hone]

/-- A full list ends as the block behind it does. -/
private theorem rtake_comes_round {n : Nat} (h : n ≤ block.length) (rows : List α) :
    (rows ++ block).rtake n <:+ rows ++ block ++ block := by
  rw [← rtake_of_suffix (List.suffix_append rows block) h]
  exact (rtake_suffix block n).trans (List.suffix_append _ _)

/-- **The second block alone** is added to a list that ends with the first. -/
theorem settled_secondAlone (hr' : ∀ x, r' x x = true)
    (hsub : ∀ x y, r' x y = true → r y x = true) (hblock : block ≠ []) (hblock' : block' ≠ [])
    (hlong : block.length ≤ rows.length) :
    Settled r r' limit block block'
        (rows ++ block', kept limit (rows.length + block'.length)) ↔
      SecondAlone r r' limit block block' rows := by
  have hpos : 0 < block.length := List.length_pos_iff.mpr hblock
  have hpos' : 0 < block'.length := List.length_pos_iff.mpr hblock'
  unfold SecondAlone
  generalize hn : kept limit (rows.length + block'.length) = n
  have hroom : block.length ≤ n ↔ block.length ≤ limit := by
    rw [← hn]
    unfold kept
    split_ifs <;> omega
  by_cases hfound : block.length ≤ n ∧ endsWith r block (rows ++ block') = true
  · rw [settled_found hfound hblock']
    refine iff_of_true ?_ (.inl ⟨hroom.mp hfound.1, hfound.2⟩)
    by_cases hcut : block'.length ≤ n
    · exact .inl ⟨hcut, endsWith_append hr' rows block'⟩
    · refine .inr ⟨rtake_comes_round (by omega) rows, .inl ?_⟩
      rw [← hn] at hcut ⊢
      unfold kept at hcut ⊢
      split_ifs at hcut ⊢ <;> omega
  · rw [settled_missing hfound hblock, hroom.symm, or_iff_right hfound]
    -- the second block is found again only if the first one ends with it
    have hsecond : n = limit ∨ (n + 1 = limit ∧ block.length = 1) →
        missing r' block' (rows ++ block' ++ block) (kept limit (n + block.length)) =
          if block'.length ≤ limit ∧ endsWith r' block' block = true then [] else block' := by
      intro hfull
      have hkept : block'.length ≤ block.length →
          (block'.length ≤ kept limit (n + block.length) ↔ block'.length ≤ limit) := by
        intro hle
        have hn' := hn
        unfold kept at hn' ⊢
        split_ifs at hn' ⊢ <;> omega
      unfold missing
      by_cases hle : block'.length ≤ block.length
      · simp only [endsWith_append_left hle, hkept hle]
      · rw [if_neg, if_neg]
        · rintro ⟨-, hends⟩
          exact hle (length_of_endsWith hends)
        · rintro ⟨hin, hends⟩
          have hswap := endsWith_swap hsub hends (by omega)
          refine hfound ⟨hroom.mpr ?_, ?_⟩
          · have := kept_le limit (n + block.length)
            unfold kept at hin
            split_ifs at hin <;> omega
          · rw [endsWith_append_left (by omega)]
            exact hswap
    constructor
    · rintro ⟨hsuffix, hlimit | ⟨hlimit, hone, hadded⟩⟩
      · rw [hsecond (.inl hlimit)] at hsuffix
        exact ⟨.inl hlimit, hsuffix⟩
      · rw [hsecond (.inr ⟨hlimit, hone⟩)] at hsuffix hadded
        refine ⟨.inr ⟨hlimit, hone, ?_⟩, hsuffix⟩
        split at hadded
        · next hends =>
            have := length_of_endsWith hends.2
            omega
        · omega
    · rintro ⟨hlimit | ⟨hlimit, hone, hone'⟩, hsuffix⟩
      · rw [hsecond (.inl hlimit)]
        exact ⟨hsuffix, .inl hlimit⟩
      · rw [hsecond (.inr ⟨hlimit, hone⟩)]
        refine ⟨hsuffix, .inr ⟨hlimit, hone, ?_⟩⟩
        split
        · exact Nat.zero_le _
        · exact hone'.le

/-- **Both blocks** are added to a list that ends with neither. -/
theorem settled_bothAdded (hr' : ∀ x, r' x x = true)
    (hsub : ∀ x y, r' x y = true → r y x = true) (hblock : block ≠ []) (hblock' : block' ≠ [])
    (hneither : ¬ (block'.length ≤ kept limit (rows.length + block.length) ∧
      endsWith r' block' (rows ++ block) = true)) :
    Settled r r' limit block block' (rows ++ block ++ block',
        kept limit (kept limit (rows.length + block.length) + block'.length)) ↔
      BothAdded r limit block block' rows := by
  have hpos : 0 < block.length := List.length_pos_iff.mpr hblock
  have hpos' : 0 < block'.length := List.length_pos_iff.mpr hblock'
  unfold BothAdded
  generalize hm : kept limit (rows.length + block.length) = m at hneither ⊢
  generalize hn : kept limit (m + block'.length) = n
  have hends : endsWith r block (rows ++ block ++ block') =
      endsWith r block (block ++ block') := by
    rw [List.append_assoc, endsWith_append_left (by rw [List.length_append]; omega)]
  by_cases hfound : block.length ≤ n ∧ endsWith r block (rows ++ block ++ block') = true
  · rw [settled_found hfound hblock']
    refine iff_of_true ?_ (.inl ⟨hfound.1, hends ▸ hfound.2⟩)
    by_cases hcut : block'.length ≤ n
    · exact .inl ⟨hcut, endsWith_append hr' _ block'⟩
    · refine .inr ⟨rtake_comes_round (by omega) _, .inl ?_⟩
      have hlong := hfound.1
      rw [← hn] at hcut hlong ⊢
      rw [← hm] at hcut hlong ⊢
      unfold kept at hcut hlong ⊢
      split_ifs at hcut hlong ⊢ <;> omega
  · rw [settled_missing hfound hblock]
    have hmissed : missing r' block' (rows ++ block ++ block' ++ block)
        (kept limit (n + block.length)) = block' := by
      unfold missing
      rw [if_neg]
      rintro ⟨hin, hagain⟩
      -- the first block then ends the second, so that it is found
      have hle : block.length ≤ block'.length := by
        by_contra hlt
        have hfirst : endsWith r' block' (rows ++ block) = true := by
          rw [endsWith_append_left (by omega)] at hagain ⊢
          exact hagain
        have hcut : ¬ block'.length ≤ m := fun h => hneither ⟨h, hfirst⟩
        rw [← hm] at hcut
        unfold kept at hcut hin
        split_ifs at hcut hin <;> omega
      have hswap := endsWith_swap hsub hagain hle
      refine hfound ⟨?_, ?_⟩
      · by_cases hsame : block'.length ≤ block.length
        · have hfirst : endsWith r' block' (rows ++ block) = true := by
            rw [endsWith_append_left hsame] at hagain ⊢
            exact hagain
          have hcut : ¬ block'.length ≤ m := fun h => hneither ⟨h, hfirst⟩
          rw [← hn] at hin ⊢
          rw [← hm] at hcut hin ⊢
          unfold kept at hcut hin ⊢
          split_ifs at hcut hin ⊢ <;> omega
        · rw [← hn] at hin ⊢
          rw [← hm] at hin ⊢
          unfold kept at hin ⊢
          split_ifs at hin ⊢ <;> omega
      · rw [endsWith_append_left hle]
        exact hswap
    have hone : block'.length ≤ 1 ↔ block'.length = 1 := by omega
    rw [hends] at hfound
    rw [hmissed, hone, or_iff_right hfound, and_comm]
    exact Iff.rfl

/-- **The first block alone** is added when the list then ends with the second too. -/
theorem settled_firstAlone (hr : ∀ x, r x x = true) (hblock : block ≠ []) (hblock' : block' ≠ [])
    (hfound' : block'.length ≤ kept limit (rows.length + block.length))
    (hends' : endsWith r' block' (rows ++ block) = true) :
    Settled r r' limit block block' (rows ++ block, kept limit (rows.length + block.length)) ↔
      rows ≠ [] ∨ limit ≠ block.length := by
  have hpos : 0 < block.length := List.length_pos_iff.mpr hblock
  have hpos' : 0 < block'.length := List.length_pos_iff.mpr hblock'
  have hempty : rows ≠ [] ↔ rows.length ≠ 0 := by simp
  rw [hempty]
  generalize hn : kept limit (rows.length + block.length) = n at hfound' ⊢
  by_cases hcut : block.length ≤ n
  · rw [settled_found ⟨hcut, endsWith_append hr rows block⟩ hblock']
    refine iff_of_true (.inl ⟨hfound', hends'⟩) ?_
    rw [← hn] at hcut
    unfold kept at hcut
    split_ifs at hcut <;> omega
  · -- what is left of the first block is pushed out by the same block
    rw [settled_missing (fun h => hcut h.1) hblock]
    have hin : block'.length ≤ kept limit (n + block.length) := by
      rw [← hn] at hfound' hcut ⊢
      unfold kept at hfound' hcut ⊢
      split_ifs at hfound' hcut ⊢ <;> omega
    have hends : endsWith r' block' (rows ++ block ++ block) = true := by
      rw [endsWith_append_left (by omega)] at hends' ⊢
      exact hends'
    have hmissing : missing r' block' (rows ++ block ++ block) (kept limit (n + block.length)) =
        [] := by
      unfold missing
      rw [if_pos ⟨hin, hends⟩]
    rw [hmissing, List.append_nil, and_iff_right (rtake_comes_round (by omega) rows)]
    rw [← hn] at hfound' hcut ⊢
    unfold kept at hfound' hcut ⊢
    split_ifs at hfound' hcut ⊢ <;> simp only [List.length_nil] <;> omega

/-- **Adding two blocks twice** is adding them once exactly when `Once`. -/
theorem twice_iff (hr : ∀ x, r x x = true) (hr' : ∀ x, r' x x = true)
    (hsub : ∀ x y, r' x y = true → r y x = true) (hblock : block ≠ []) (hblock' : block' ≠ []) :
    add r' limit block' (add r limit block
        (add r' limit block' (add r limit block rows))) =
          add r' limit block' (add r limit block rows) ↔
      Once r r' limit block block' rows := by
  have hlater : ∀ xs n, n ≤ xs.length →
      add r' limit block' (add r limit block rows) = xs.rtake n →
        (add r' limit block' (add r limit block
          (add r' limit block' (add r limit block rows))) =
            add r' limit block' (add r limit block rows) ↔
          Settled r r' limit block block' (xs, n)) := by
    intro xs n hn hfirst
    rw [hfirst]
    exact add_add_eq_iff (p := (xs, n)) hblock hblock' hn
  unfold Once
  -- the first pass adds the second block alone, the first alone, or both
  by_cases hends : endsWith r block rows = true
  · have hfirst : add r limit block rows = rows := by
      unfold add
      rw [if_pos hends]
    rw [if_pos hends]
    by_cases hends' : endsWith r' block' rows = true
    · have hsecond : add r' limit block' rows = rows := by
        unfold add
        rw [if_pos hends']
      rw [hfirst, hsecond, hfirst, hsecond]
      exact iff_of_true rfl (.inl hends')
    · have hsecond : add r' limit block' (add r limit block rows) =
          (rows ++ block').rtake (kept limit (rows.length + block'.length)) := by
        rw [hfirst]
        unfold add
        rw [if_neg hends']
      rw [hlater _ _ (by rw [List.length_append]; exact kept_le ..) hsecond,
        settled_secondAlone hr' hsub hblock hblock' (length_of_endsWith hends),
        or_iff_right hends']
  · have hle : kept limit (rows.length + block.length) ≤ (rows ++ block).length := by
      rw [List.length_append]
      exact kept_le ..
    have hfirst : add r limit block rows =
        (rows ++ block).rtake (kept limit (rows.length + block.length)) := by
      unfold add
      rw [if_neg hends]
    rw [if_neg hends]
    by_cases hboth : block'.length ≤ kept limit (rows.length + block.length) ∧
        endsWith r' block' (rows ++ block) = true
    · have hsecond : add r' limit block' (add r limit block rows) =
          (rows ++ block).rtake (kept limit (rows.length + block.length)) := by
        rw [hfirst, add_rtake hblock' hle]
        unfold missing
        rw [if_pos hboth]
        simp [room]
      rw [if_pos hboth, hlater _ _ hle hsecond,
        settled_firstAlone hr hblock hblock' hboth.1 hboth.2]
    · have hpos : block'.length ≠ 0 := by simpa using hblock'
      have hsecond : add r' limit block' (add r limit block rows) = (rows ++ block ++ block').rtake
          (kept limit (kept limit (rows.length + block.length) + block'.length)) := by
        rw [hfirst, add_rtake hblock' hle]
        unfold missing room
        rw [if_neg hboth, if_neg hpos]
      have hle' : kept limit (kept limit (rows.length + block.length) + block'.length) ≤
          (rows ++ block ++ block').length := by
        have hlen : (rows ++ block ++ block').length = (rows ++ block).length + block'.length :=
          List.length_append
        rw [hlen]
        exact (kept_le ..).trans (Nat.add_le_add_right hle _)
      rw [if_neg hboth, hlater _ _ hle' hsecond,
        settled_bothAdded hr' hsub hblock hblock' hboth]

end Newmux.Base.Ends
