import Mathlib.Data.List.Sort
import Mathlib.Tactic

/-!
# Winlinks

A session's windows are winlinks in a red-black tree ordered by index. The
model keeps the tree as its list of nodes in tree order, and each winlink
carries the address `ptr` it was allocated at: `winlink_shuffle_up` renumbers a
node without reallocating it, and the session's current window and last-window
stack refer to nodes by address.
-/

namespace Newmux.Tmux

/-- `INT_MAX`, the largest window index. -/
def intMax : Nat := 2147483647

@[ext] structure Winlink where
  ptr : Nat
  idx : Nat
  window : Nat
deriving DecidableEq, Repr

/-- The tree as the list of its nodes in `RB_FOREACH` order. -/
abbrev Winlinks := List Winlink

def winlinkFindByWindow (wwl : Winlinks) (w : Nat) : Option Winlink :=
  wwl.find? (fun wl => wl.window == w)

def winlinkFindByIndex (wwl : Winlinks) (idx : Nat) : Option Winlink :=
  wwl.find? (fun wl => wl.idx == idx)

/-- The node at an address. -/
def winlinkAt (wwl : Winlinks) (ptr : Nat) : Option Winlink :=
  wwl.find? (fun wl => wl.ptr == ptr)

/-- `RB_NEXT`. -/
def winlinkNext (wwl : Winlinks) (ptr : Nat) : Option Winlink :=
  (wwl.dropWhile (fun wl => wl.ptr != ptr)).tail.head?

/-- `RB_PREV`. -/
def winlinkPrevious (wwl : Winlinks) (ptr : Nat) : Option Winlink :=
  (wwl.takeWhile (fun wl => wl.ptr != ptr)).getLast?

/-- `RB_INSERT`. -/
def rbInsert (wl : Winlink) (wwl : Winlinks) : Winlinks :=
  wwl.orderedInsert (fun a b => a.idx ≤ b.idx) wl

/-- The `do … while (i != idx)` scan of `winlink_next_index`. -/
def nextIndexLoop (wwl : Winlinks) (idx : Nat) : Nat → Nat → Option Nat
  | 0, _ => none
  | fuel + 1, i =>
      if (winlinkFindByIndex wwl i).isNone then some i
      else
        let next := if i = intMax then 0 else i + 1
        if next = idx then none else nextIndexLoop wwl idx fuel next

/-- The first free index from `idx` upwards, wrapping at `INT_MAX`. -/
def winlinkNextIndex (wwl : Winlinks) (idx : Nat) : Option Nat :=
  nextIndexLoop wwl idx (intMax + 1) idx

/-- `winlink_add`, and the `winlink_set_window` every caller follows it with.
A negative `idx` asks for the next free index from `-idx - 1`; `none` when the
index is in use or no index is free. -/
def winlinkAdd (wwl : Winlinks) (idx : Int) (ptr w : Nat) : Option (Winlink × Winlinks) :=
  if idx < 0 then
    match winlinkNextIndex wwl (-idx - 1).toNat with
    | none => none
    | some i => some (⟨ptr, i, w⟩, rbInsert ⟨ptr, i, w⟩ wwl)
  else if (winlinkFindByIndex wwl idx.toNat).isSome then none
  else some (⟨ptr, idx.toNat, w⟩, rbInsert ⟨ptr, idx.toNat, w⟩ wwl)

/-- `RB_REMOVE` of the node at an address. -/
def winlinkRemove (wwl : Winlinks) (ptr : Nat) : Winlinks :=
  wwl.filter (fun wl => wl.ptr != ptr)

/-- `for (last = idx; last < INT_MAX; last++)` up to a free index: the fuel is
what is left of the range, so that running out of it is `last == INT_MAX`. -/
def freeIndexLoop (wwl : Winlinks) : Nat → Nat → Nat
  | 0, last => last
  | fuel + 1, last =>
      if (winlinkFindByIndex wwl last).isNone then last
      else freeIndexLoop wwl fuel (last + 1)

/-- One round of the renumbering loop: the node at index `i` moves to `i + 1`. -/
def bumpIndex (wwl : Winlinks) (i : Nat) : Winlinks :=
  match winlinkFindByIndex wwl i with
  | none => wwl
  | some wl => rbInsert { wl with idx := wl.idx + 1 } (wwl.erase wl)

/-- `for (; last > idx; last--)`: move everything from `last - 1` to `idx` up. -/
def shuffleLoop (idx : Nat) : Nat → Winlinks → Winlinks
  | 0, wwl => wwl
  | last + 1, wwl =>
      if idx < last + 1 then shuffleLoop idx last (bumpIndex wwl last) else wwl

/-- The index `winlink_shuffle_up` frees. -/
def shuffleIndex (wl : Winlink) (before : Bool) : Nat :=
  if before then wl.idx else wl.idx + 1

/-- `winlink_shuffle_up`: free the index at (or after) `wl` by moving the block
of used indices that starts there up by one. `none` is the source's `-1`. -/
def winlinkShuffleUp (wwl : Winlinks) (wl : Winlink) (before : Bool) :
    Option (Nat × Winlinks) :=
  let idx := shuffleIndex wl before
  let last := freeIndexLoop wwl (intMax - idx) idx
  if intMax ≤ last then none
  else some (idx, shuffleLoop idx last wwl)

/-! ## Lookups -/

/-- Tree order: indices ascend strictly. -/
abbrev Sorted (wwl : Winlinks) : Prop := wwl.Pairwise (fun a b => a.idx < b.idx)

theorem findByIndex_none {wwl : Winlinks} {i : Nat} :
    winlinkFindByIndex wwl i = none ↔ ∀ wl ∈ wwl, wl.idx ≠ i := by
  simp [winlinkFindByIndex, List.find?_eq_none]

theorem findByIndex_isSome {wwl : Winlinks} {i : Nat} :
    (winlinkFindByIndex wwl i).isSome ↔ ∃ wl ∈ wwl, wl.idx = i := by
  simp [winlinkFindByIndex, List.find?_isSome]

theorem findByIndex_some {wwl : Winlinks} {i : Nat} {wl : Winlink}
    (h : winlinkFindByIndex wwl i = some wl) : wl ∈ wwl ∧ wl.idx = i :=
  ⟨List.mem_of_find?_eq_some h, by simpa using List.find?_some h⟩

theorem findByWindow_some {wwl : Winlinks} {w : Nat} {wl : Winlink}
    (h : winlinkFindByWindow wwl w = some wl) : wl ∈ wwl ∧ wl.window = w :=
  ⟨List.mem_of_find?_eq_some h, by simpa using List.find?_some h⟩

theorem findByWindow_none {wwl : Winlinks} {w : Nat} :
    winlinkFindByWindow wwl w = none ↔ ∀ wl ∈ wwl, wl.window ≠ w := by
  simp [winlinkFindByWindow, List.find?_eq_none]

theorem winlinkAt_some {wwl : Winlinks} {p : Nat} {wl : Winlink}
    (h : winlinkAt wwl p = some wl) : wl ∈ wwl ∧ wl.ptr = p :=
  ⟨List.mem_of_find?_eq_some h, by simpa using List.find?_some h⟩

/-- In a tree, an index determines its node. -/
theorem Sorted.eq_of_idx {wwl : Winlinks} (hs : Sorted wwl) {a b : Winlink}
    (ha : a ∈ wwl) (hb : b ∈ wwl) (h : a.idx = b.idx) : a = b := by
  induction wwl with
  | nil => exact absurd ha List.not_mem_nil
  | cons x xs ih =>
      obtain ⟨hx, hxs⟩ := List.pairwise_cons.mp hs
      rcases List.mem_cons.mp ha with rfl | ha'
      · rcases List.mem_cons.mp hb with rfl | hb'
        · rfl
        · exact absurd h (hx b hb').ne
      · rcases List.mem_cons.mp hb with rfl | hb'
        · exact absurd h.symm (hx a ha').ne
        · exact ih hxs ha' hb'

theorem Sorted.findByIndex {wwl : Winlinks} (hs : Sorted wwl) {wl : Winlink}
    (h : wl ∈ wwl) : winlinkFindByIndex wwl wl.idx = some wl := by
  cases hf : winlinkFindByIndex wwl wl.idx with
  | none => exact absurd rfl (findByIndex_none.mp hf wl h)
  | some x =>
      obtain ⟨hx, hidx⟩ := findByIndex_some hf
      rw [hs.eq_of_idx hx h hidx]

theorem Sorted.nodup {wwl : Winlinks} (hs : Sorted wwl) : wwl.Nodup :=
  hs.imp (fun hlt heq => absurd (congrArg Winlink.idx heq) hlt.ne)

/-! ## Insertion -/

/-- Insertion puts a node between the smaller and the larger indices. -/
theorem rbInsert_split {A B : Winlinks} {wl : Winlink} (hA : ∀ a ∈ A, a.idx < wl.idx)
    (hB : ∀ b ∈ B, wl.idx ≤ b.idx) : rbInsert wl (A ++ B) = A ++ wl :: B := by
  induction A with
  | nil =>
      cases B with
      | nil => rfl
      | cons b B =>
          have : wl.idx ≤ b.idx := hB b List.mem_cons_self
          simp [rbInsert, this]
  | cons a A ih =>
      have ha : ¬ wl.idx ≤ a.idx := Nat.not_le.mpr (hA a List.mem_cons_self)
      have ih' := ih (fun x hx => hA x (List.mem_cons_of_mem _ hx))
      simp only [rbInsert] at ih'
      simp [rbInsert, ha, ih']

theorem mem_rbInsert {wl x : Winlink} {wwl : Winlinks} :
    x ∈ rbInsert wl wwl ↔ x = wl ∨ x ∈ wwl := List.mem_orderedInsert _

/-- A tree splits at any index into the nodes below it and the rest. -/
theorem Sorted.split {wwl : Winlinks} (hs : Sorted wwl) (i : Nat) :
    ∃ A B, wwl = A ++ B ∧ (∀ a ∈ A, a.idx < i) ∧ (∀ b ∈ B, i ≤ b.idx) := by
  induction wwl with
  | nil => exact ⟨[], [], rfl, by simp, by simp⟩
  | cons x xs ih =>
      obtain ⟨hx, hxs⟩ := List.pairwise_cons.mp hs
      by_cases hlt : x.idx < i
      · obtain ⟨A, B, rfl, hA, hB⟩ := ih hxs
        refine ⟨x :: A, B, rfl, ?_, hB⟩
        intro a ha
        rcases List.mem_cons.mp ha with rfl | ha
        · exact hlt
        · exact hA a ha
      · refine ⟨[], x :: xs, rfl, by simp, ?_⟩
        intro b hb
        rcases List.mem_cons.mp hb with rfl | hb
        · omega
        · have := hx b hb
          omega

/-- Inserting at a free index keeps the tree order. -/
theorem Sorted.rbInsert {wwl : Winlinks} (hs : Sorted wwl) {wl : Winlink}
    (hfree : ∀ x ∈ wwl, x.idx ≠ wl.idx) : Sorted (rbInsert wl wwl) := by
  obtain ⟨A, B, rfl, hA, hB⟩ := hs.split wl.idx
  rw [rbInsert_split hA hB]
  obtain ⟨hsA, hsB, hAB⟩ := List.pairwise_append.mp hs
  refine List.pairwise_append.mpr ⟨hsA, List.pairwise_cons.mpr ⟨?_, hsB⟩, ?_⟩
  · intro b hb
    exact lt_of_le_of_ne (hB b hb) (hfree b (List.mem_append_right _ hb)).symm
  · intro a ha b hb
    rcases List.mem_cons.mp hb with rfl | hb
    · exact hA a ha
    · exact hAB a ha b hb

/-! ## Shuffling up -/

/-- The node as `winlink_shuffle_up` leaves it when it moves the block
`[idx, last)`. -/
def Winlink.bump (idx last : Nat) (wl : Winlink) : Winlink :=
  if idx ≤ wl.idx ∧ wl.idx < last then { wl with idx := wl.idx + 1 } else wl

@[simp] theorem Winlink.bump_ptr (idx last : Nat) (wl : Winlink) :
    (wl.bump idx last).ptr = wl.ptr := by
  unfold Winlink.bump; split <;> rfl

@[simp] theorem Winlink.bump_window (idx last : Nat) (wl : Winlink) :
    (wl.bump idx last).window = wl.window := by
  unfold Winlink.bump; split <;> rfl

theorem Winlink.bump_idx (idx last : Nat) (wl : Winlink) :
    (wl.bump idx last).idx = if idx ≤ wl.idx ∧ wl.idx < last then wl.idx + 1 else wl.idx := by
  unfold Winlink.bump; split <;> rfl

/-- A bump that meets no node changes nothing. -/
theorem map_bump_eq_self {idx last : Nat} {wwl : Winlinks}
    (h : ∀ wl ∈ wwl, ¬ (idx ≤ wl.idx ∧ wl.idx < last)) :
    wwl.map (Winlink.bump idx last) = wwl := by
  conv_rhs => rw [← List.map_id wwl]
  refine List.map_congr_left fun wl hwl => ?_
  unfold Winlink.bump
  rw [if_neg (h wl hwl)]
  rfl

/-- Moving the top node of a block and then the rest moves the block. -/
theorem Winlink.bump_bump {idx last : Nat} {wl : Winlink} (hle : idx ≤ last) :
    (wl.bump last (last + 1)).bump idx last = wl.bump idx (last + 1) := by
  ext
  · simp
  · simp only [Winlink.bump_idx]
    split_ifs <;> omega
  · simp

/-- The scan stops at the first free index, or at the end of the range. -/
theorem freeIndexLoop_spec (wwl : Winlinks) (fuel last : Nat) :
    last ≤ freeIndexLoop wwl fuel last ∧ freeIndexLoop wwl fuel last ≤ last + fuel ∧
      (freeIndexLoop wwl fuel last < last + fuel →
        ∀ wl ∈ wwl, wl.idx ≠ freeIndexLoop wwl fuel last) ∧
      ∀ j, last ≤ j → j < freeIndexLoop wwl fuel last → ∃ wl ∈ wwl, wl.idx = j := by
  induction fuel generalizing last with
  | zero => exact ⟨le_rfl, le_rfl, fun h => absurd h (by simp [freeIndexLoop]), fun j h h' => by
      simp only [freeIndexLoop] at h'; omega⟩
  | succ fuel ih =>
      unfold freeIndexLoop
      split
      · next hfree =>
          refine ⟨le_rfl, by omega, fun _ => findByIndex_none.mp (by simpa using hfree), ?_⟩
          intro j hj hj'; omega
      · next hused =>
          obtain ⟨hle, hub, hfree, hblock⟩ := ih (last + 1)
          refine ⟨by omega, by omega, fun h => hfree (by omega), ?_⟩
          intro j hj hj'
          rcases Nat.eq_or_lt_of_le hj with rfl | hlt
          · exact findByIndex_isSome.mp (by
              cases hx : winlinkFindByIndex wwl last with
              | none => simp [hx] at hused
              | some _ => rfl)
          · exact hblock j hlt hj'

/-- One round of the loop renumbers the node at `i`, when `i + 1` is free. -/
theorem bumpIndex_eq {wwl : Winlinks} (hs : Sorted wwl) {i : Nat}
    (hused : ∃ wl ∈ wwl, wl.idx = i) (hfree : ∀ wl ∈ wwl, wl.idx ≠ i + 1) :
    bumpIndex wwl i = wwl.map (Winlink.bump i (i + 1)) := by
  obtain ⟨wl, hmem, rfl⟩ := hused
  obtain ⟨A, B, rfl⟩ := List.append_of_mem hmem
  obtain ⟨hsA, hsB, hAB⟩ := List.pairwise_append.mp hs
  obtain ⟨hwB, hsB⟩ := List.pairwise_cons.mp hsB
  have hA : ∀ a ∈ A, a.idx < wl.idx := fun a ha => hAB a ha wl List.mem_cons_self
  have hnotin : wl ∉ A := fun h => absurd (hA wl h) (lt_irrefl _)
  have hB : ∀ b ∈ B, wl.idx + 1 < b.idx := by
    intro b hb
    have h1 := hwB b hb
    have h2 := hfree b (List.mem_append_right _ (List.mem_cons_of_mem _ hb))
    omega
  have hfind : winlinkFindByIndex (A ++ wl :: B) wl.idx = some wl := hs.findByIndex hmem
  have herase : (A ++ wl :: B).erase wl = A ++ B := by
    rw [List.erase_append_right _ hnotin, List.erase_cons_head]
  have hmapA : A.map (Winlink.bump wl.idx (wl.idx + 1)) = A :=
    map_bump_eq_self fun a ha => by have := hA a ha; omega
  have hmapB : B.map (Winlink.bump wl.idx (wl.idx + 1)) = B :=
    map_bump_eq_self fun b hb => by have := hB b hb; omega
  have hself : wl.bump wl.idx (wl.idx + 1) = { wl with idx := wl.idx + 1 } := by
    unfold Winlink.bump
    rw [if_pos (by omega)]
  simp only [bumpIndex, hfind]
  rw [herase, rbInsert_split (fun a ha => Nat.lt_succ_of_lt (hA a ha))
    (fun b hb => (hB b hb).le)]
  rw [List.map_append, List.map_cons, hmapA, hmapB, hself]

/-- Renumbering the top node of a block keeps the tree order. -/
theorem Sorted.map_bump {wwl : Winlinks} (hs : Sorted wwl) {idx last : Nat}
    (hfree : ∀ wl ∈ wwl, wl.idx ≠ last) : Sorted (wwl.map (Winlink.bump idx last)) := by
  refine List.pairwise_map.mpr (hs.imp_of_mem ?_)
  intro a b ha hb hab
  have hfa := hfree a ha
  have hfb := hfree b hb
  rw [Winlink.bump_idx, Winlink.bump_idx]
  split <;> split <;> omega

/-- The renumbering loop moves the whole block `[idx, last)` up by one. -/
theorem shuffleLoop_eq {wwl : Winlinks} (hs : Sorted wwl) {idx last : Nat}
    (hblock : ∀ j, idx ≤ j → j < last → ∃ wl ∈ wwl, wl.idx = j)
    (hfree : ∀ wl ∈ wwl, wl.idx ≠ last) :
    shuffleLoop idx last wwl = wwl.map (Winlink.bump idx last) := by
  induction last generalizing wwl with
  | zero =>
      rw [map_bump_eq_self fun wl _ => by omega]
      rfl
  | succ last ih =>
      unfold shuffleLoop
      split
      · next hlt =>
          have hused : ∃ wl ∈ wwl, wl.idx = last := hblock last (by omega) (by omega)
          rw [bumpIndex_eq hs hused hfree]
          rw [ih (hs.map_bump hfree)]
          · rw [List.map_map]
            exact List.map_congr_left fun wl _ => Winlink.bump_bump (by omega)
          · intro j hj hj'
            obtain ⟨wl, hwl, rfl⟩ := hblock j hj (by omega)
            refine ⟨wl, List.mem_map.mpr ⟨wl, hwl, ?_⟩, rfl⟩
            unfold Winlink.bump
            rw [if_neg (by omega)]
          · intro wl hwl
            obtain ⟨x, hx, rfl⟩ := List.mem_map.mp hwl
            have := hfree x hx
            rw [Winlink.bump_idx]
            split <;> omega
      · next hge => rw [map_bump_eq_self fun wl _ => by omega]

/-- **What `winlink_shuffle_up` does.** It fails exactly when no index from
`idx` up to `INT_MAX` is free; otherwise it moves the block of used indices
starting at `idx` up by one, into the first free index. -/
theorem winlinkShuffleUp_spec {wwl : Winlinks} (hs : Sorted wwl) {wl : Winlink}
    {before : Bool} {idx : Nat} {wwl' : Winlinks}
    (h : winlinkShuffleUp wwl wl before = some (idx, wwl')) :
    idx = shuffleIndex wl before ∧
      ∃ last, idx ≤ last ∧ last < intMax ∧ (∀ x ∈ wwl, x.idx ≠ last) ∧
        (∀ j, idx ≤ j → j < last → ∃ x ∈ wwl, x.idx = j) ∧
        wwl' = wwl.map (Winlink.bump idx last) := by
  unfold winlinkShuffleUp at h
  generalize shuffleIndex wl before = start at h ⊢
  obtain ⟨hle, hub, hfree, hblock⟩ := freeIndexLoop_spec wwl (intMax - start) start
  by_cases hmax : intMax ≤ freeIndexLoop wwl (intMax - start) start
  · simp [hmax] at h
  · simp only [hmax, if_false, Option.some.injEq, Prod.mk.injEq] at h
    obtain ⟨rfl, rfl⟩ := h
    refine ⟨rfl, _, hle, by omega, hfree (by omega), hblock, ?_⟩
    exact shuffleLoop_eq hs hblock (hfree (by omega))

/-- A free index between the insertion point and `INT_MAX` is enough. -/
theorem winlinkShuffleUp_isSome {wwl : Winlinks} {wl : Winlink} {before : Bool} {j : Nat}
    (hj : shuffleIndex wl before ≤ j) (hmax : j < intMax)
    (hfree : ∀ x ∈ wwl, x.idx ≠ j) : (winlinkShuffleUp wwl wl before).isSome := by
  unfold winlinkShuffleUp
  generalize shuffleIndex wl before = start at hj ⊢
  obtain ⟨-, hub, -, hblock⟩ := freeIndexLoop_spec wwl (intMax - start) start
  by_cases hlast : intMax ≤ freeIndexLoop wwl (intMax - start) start
  · obtain ⟨x, hx, hxj⟩ := hblock j hj (by omega)
    exact absurd hxj (hfree x hx)
  · simp [hlast]

end Newmux.Tmux
