import Newmux.Logic.Runs
import Newmux.Logic.Sync

/-!
# Ordinals and indexes

The native tab bar counts tabs, and winlinks are keyed by index. A new winlink
stands behind as many others as have a lower index, whatever gaps there are, so
its ordinal is a count over the tree.
-/

namespace Newmux.Logic

open Newmux.Base Newmux.Tmux Newmux.Recovery

/-- What stays of a winlink when it is renumbered: its address and its window. -/
def slot (wl : Winlink) : Nat × Nat := (wl.ptr, wl.window)

/-- A session's winlinks in index order. -/
def slots (s : Session) : List (Nat × Nat) := s.windows.map slot

/-- How many winlinks have a lower index. -/
def below (wwl : Winlinks) (i : Nat) : Nat := wwl.countP (·.idx < i)

/-- Some index from `i` up to below `INT_MAX` is free. -/
def RoomFrom (wwl : Winlinks) (i : Nat) : Prop :=
  ∃ j, i ≤ j ∧ j < intMax ∧ ∀ x ∈ wwl, x.idx ≠ j

/-- The used indexes are zero up to some index that is still free. -/
def Packed (wwl : Winlinks) : Prop :=
  ∃ n ≤ intMax, ∀ i, (∃ x ∈ wwl, x.idx = i) ↔ i < n

/-- Where a place is, counted. -/
def Place.ordinal (wwl : Winlinks) : Place → Nat
  | .beside wl before => wwl.idxOf wl + if before then 0 else 1
  | .index _ => wwl.length

/-! ## Counting -/

@[simp] theorem slot_bump (idx last : Nat) (wl : Winlink) : slot (wl.bump idx last) = slot wl := by
  unfold slot
  rw [Winlink.bump_ptr, Winlink.bump_window]

@[simp] theorem slots_bump (idx last : Nat) (wwl : Winlinks) :
    (wwl.map (Winlink.bump idx last)).map slot = wwl.map slot := by
  rw [List.map_map]
  exact List.map_congr_left fun wl _ => slot_bump idx last wl

theorem below_append {A B : Winlinks} {i : Nat} (hA : ∀ a ∈ A, a.idx < i)
    (hB : ∀ b ∈ B, i ≤ b.idx) : below (A ++ B) i = A.length := by
  have hcountA : A.countP (·.idx < i) = A.length :=
    List.countP_eq_length.mpr fun a ha => by simpa using hA a ha
  have hcountB : B.countP (·.idx < i) = 0 :=
    List.countP_eq_zero.mpr fun b hb => by simpa using hB b hb
  unfold below
  rw [List.countP_append, hcountA, hcountB, Nat.add_zero]

/-- All are below exactly when the count is the length. -/
theorem below_eq_length {wwl : Winlinks} {i : Nat} :
    below wwl i = wwl.length ↔ ∀ x ∈ wwl, x.idx < i := by
  unfold below
  rw [List.countP_eq_length]
  simp

theorem below_le (wwl : Winlinks) (i : Nat) : below wwl i ≤ wwl.length := List.countP_le_length

/-- The winlinks around one of them. -/
theorem sorted_around {A B : Winlinks} {x : Winlink} (hs : Sorted (A ++ x :: B)) :
    (∀ a ∈ A, a.idx < x.idx) ∧ ∀ b ∈ B, x.idx < b.idx := by
  obtain ⟨-, hxB, hAB⟩ := List.pairwise_append.mp hs
  exact ⟨fun a ha => hAB a ha x List.mem_cons_self, (List.pairwise_cons.mp hxB).1⟩

theorem idxOf_around {A B : Winlinks} {x : Winlink} (hs : Sorted (A ++ x :: B)) :
    (A ++ x :: B).idxOf x = A.length := by
  have hnot : x ∉ A := fun h => absurd ((sorted_around hs).1 x h) (lt_irrefl _)
  rw [List.idxOf_append_of_notMem hnot, List.idxOf_cons_self, Nat.add_zero]

/-- In a tree a winlink's place is the count of those below it, and room after it
is one place on. -/
theorem below_shuffleIndex {wwl : Winlinks} (hs : Sorted wwl) {x : Winlink} (hx : x ∈ wwl)
    (before : Bool) :
    below wwl (shuffleIndex x before) = wwl.idxOf x + if before then 0 else 1 := by
  obtain ⟨A, B, rfl⟩ := List.append_of_mem hx
  obtain ⟨hA, hB⟩ := sorted_around hs
  rw [idxOf_around hs]
  cases before with
  | true =>
      refine below_append hA fun b hb => ?_
      rcases List.mem_cons.mp hb with rfl | hb
      · exact le_rfl
      · exact (hB b hb).le
  | false =>
      show below (A ++ x :: B) (x.idx + 1) = A.length + 1
      have happ : A ++ x :: B = (A ++ [x]) ++ B := by simp
      have hlen : (A ++ [x]).length = A.length + 1 := by simp
      rw [happ, ← hlen]
      refine below_append (fun a ha => ?_) hB
      rcases List.mem_append.mp ha with ha | ha
      · exact Nat.lt_succ_of_lt (hA a ha)
      · rw [List.mem_singleton.mp ha]
        exact Nat.lt_succ_self _

/-! ## The ordinal of a new winlink -/

theorem insertIdx_append_length {α : Type*} (A B : List α) (a : α) :
    (A ++ B).insertIdx A.length a = A ++ a :: B := by
  induction A with
  | nil => rfl
  | cons x A ih => simp [ih]

/-- The new winlink stands between those that were below its index and the rest. -/
theorem RoomMade.split {wwl wwl' : Winlinks} {ptr w last : Nat} {wl : Winlink}
    (h : RoomMade wwl ptr w wl wwl' last) (hs : Sorted wwl) :
    ∃ A B, wwl = A ++ B ∧ wwl' = A ++ wl :: B.map (Winlink.bump wl.idx last) ∧
      below wwl wl.idx = A.length := by
  obtain ⟨A, B, rfl, hA, hB⟩ := hs.split wl.idx
  have hmid : (A ++ B).map (Winlink.bump wl.idx last) = A ++ B.map (Winlink.bump wl.idx last) := by
    rw [List.map_append, map_bump_eq_self fun a ha => by have := hA a ha; omega]
  have habove : ∀ b ∈ B.map (Winlink.bump wl.idx last), wl.idx ≤ b.idx := by
    intro b hb
    obtain ⟨y, hy, rfl⟩ := List.mem_map.mp hb
    have := hB y hy
    rw [Winlink.bump_idx]
    split <;> omega
  refine ⟨A, B, rfl, ?_, below_append hA hB⟩
  rw [h.tree, hmid, rbInsert_split hA habove]

/-- **A new winlink's ordinal** is the count of the winlinks below its index. -/
theorem RoomMade.slots {wwl wwl' : Winlinks} {ptr w last : Nat} {wl : Winlink}
    (h : RoomMade wwl ptr w wl wwl' last) (hs : Sorted wwl) :
    wwl'.map slot = (wwl.map slot).insertIdx (below wwl wl.idx) (slot wl) := by
  obtain ⟨A, B, rfl, rfl, hbelow⟩ := h.split hs
  have hlen : A.length = (A.map slot).length := (List.length_map slot).symm
  rw [hbelow, List.map_append, List.map_cons, slots_bump, List.map_append, hlen,
    insertIdx_append_length]

/-- The new winlink is none of the old ones. -/
theorem RoomMade.new {wwl wwl' : Winlinks} {n w last : Nat} {wl : Winlink}
    (h : RoomMade wwl n w wl wwl' last) (hok : TreeOk n wwl) : slot wl ∉ wwl.map slot := by
  intro hin
  obtain ⟨x, hx, hxs⟩ := List.mem_map.mp hin
  have hptr : x.ptr = n := (Prod.mk.inj hxs).1.trans h.ptr
  have := hok.fresh x hx
  omega

/-- A session written back keeps its tree when its group is synchronized from it,
whatever happens to windows and panes before that. -/
theorem synced_self {sv sv' : Server} {s s₁ : Session} (hs : sessionFindById sv s.id = some s)
    (hid : s₁.id = s.id) (hne : s₁.windows ≠ [])
    (hok : TreesOk { sv.setSession s₁ with nextPtr := sv.nextPtr + 1 })
    (hkept : SessionsKept { sv.setSession s₁ with nextPtr := sv.nextPtr + 1 } sv') :
    sessionFindById (sessionGroupSynchronizeFrom sv' s.id) s.id = some s₁ := by
  have hfind : sessionFindById sv' s.id = some s₁ := by
    rw [hkept.find]
    show sessionFindById (sv.setSession s₁) s.id = some s₁
    rw [sessionFindById_set hid hs, if_pos rfl]
  rw [← hid] at hfind ⊢
  rw [(syncFrom_find (hkept.treesOk hok) hfind hne s₁.id).2 (.inl rfl), hfind]

/-- What is attached is in the session's tree. -/
theorem attached_self {sv : Server} (hok : TreesOk sv) {s : Session}
    (hs : sessionFindById sv s.id = some s) {w last : Nat} {wl : Winlink} {wwl : Winlinks}
    (hroom : RoomMade s.windows sv.nextPtr w wl wwl last) :
    ∃ s', sessionFindById (attached sv s wl wwl) s.id = some s' ∧ s'.windows = wwl := by
  obtain ⟨hid, hname, -, hw⟩ := linkedSession_fields s wl wwl
  have hne : (linkedSession s wl wwl).windows ≠ [] := by
    rw [hw, hroom.tree]
    exact List.ne_nil_of_mem (mem_rbInsert.mpr (.inl rfl))
  have hlinked := relinked_treesOk hok hs hid hname (hw.symm ▸ hroom)
  exact ⟨_, synced_self hs hid hne hlinked (.refl _), hw⟩

theorem neighbourLink_mem {sv : Server} {s : Session} {id : Int} {wl : Winlink}
    (h : neighbourLink sv s id = some wl) : wl ∈ s.windows := by
  unfold neighbourLink at h
  split at h
  · cases h
  · obtain ⟨w, -, hw⟩ := Option.bind_eq_some_iff.mp h
    exact (findByWindow_some hw).1

/-- A new element is at one place only. -/
theorem insertIdx_inj {α : Type*} {l : List α} {a : α} (ha : a ∉ l) {p q : Nat}
    (hp : p ≤ l.length) (hq : q ≤ l.length) (h : l.insertIdx p a = l.insertIdx q a) : p = q := by
  have hmem : ∀ {p q : Nat}, p ≤ l.length → l.insertIdx p a = l.insertIdx q a → ¬ p < q := by
    intro p q hp h hlt
    have hself : (l.insertIdx p a)[p]? = some a := by
      rw [List.getElem?_insertIdx_self, if_pos hp]
    rw [h, List.getElem?_insertIdx_of_lt hlt] at hself
    exact ha (List.mem_of_getElem? hself)
  have h1 := hmem hp h
  have h2 := hmem hq h.symm
  omega

/-! ## Free indexes -/

theorem winlinkShuffleUp_isSome_iff {wwl : Winlinks} (hs : Sorted wwl) {x : Winlink}
    {before : Bool} :
    (winlinkShuffleUp wwl x before).isSome ↔ RoomFrom wwl (shuffleIndex x before) := by
  constructor
  · intro h
    obtain ⟨⟨idx, mid⟩, h⟩ := Option.isSome_iff_exists.mp h
    obtain ⟨rfl, last, hle, hlt, hfree, -⟩ := winlinkShuffleUp_spec hs h
    exact ⟨last, hle, hlt, hfree⟩
  · rintro ⟨j, hj, hmax, hfree⟩
    exact winlinkShuffleUp_isSome hj hmax hfree

/-- The scan from zero stops at the first free index, and does not stop before
`INT_MAX` otherwise. -/
theorem nextIndexLoop_zero {wwl : Winlinks} (fuel : Nat) :
    ∀ {i : Nat}, i + fuel = intMax + 1 → (∀ k, k < i → ∃ x ∈ wwl, x.idx = k) →
      match nextIndexLoop wwl 0 fuel i with
      | some j => j ≤ intMax ∧ (∀ x ∈ wwl, x.idx ≠ j) ∧ ∀ k, k < j → ∃ x ∈ wwl, x.idx = k
      | none => ∀ k, k ≤ intMax → ∃ x ∈ wwl, x.idx = k := by
  induction fuel with
  | zero =>
      intro i hi hused
      show ∀ k, k ≤ intMax → ∃ x ∈ wwl, x.idx = k
      intro k hk
      exact hused k (by omega)
  | succ fuel ih =>
      intro i hi hused
      unfold nextIndexLoop
      cases hfind : winlinkFindByIndex wwl i with
      | none =>
          simp only [Option.isNone_none, if_true]
          exact ⟨by omega, findByIndex_none.mp hfind, hused⟩
      | some x =>
          have hnext : ∀ k, k < i + 1 → ∃ x ∈ wwl, x.idx = k := by
            intro k hk
            rcases Nat.lt_succ_iff_lt_or_eq.mp hk with hk | rfl
            · exact hused k hk
            · exact ⟨x, findByIndex_some hfind⟩
          simp only [Option.isNone_some, Bool.false_eq_true, if_false]
          by_cases hmax : i = intMax
          · simp only [hmax, if_true]
            intro k hk
            exact hnext k (by omega)
          · simp only [if_neg hmax, Nat.succ_ne_zero, if_false]
            exact ih (by omega) hnext

theorem winlinkNextIndex_zero (wwl : Winlinks) :
    match winlinkNextIndex wwl 0 with
    | some j => j ≤ intMax ∧ (∀ x ∈ wwl, x.idx ≠ j) ∧ ∀ k, k < j → ∃ x ∈ wwl, x.idx = k
    | none => ∀ k, k ≤ intMax → ∃ x ∈ wwl, x.idx = k :=
  nextIndexLoop_zero (intMax + 1) (Nat.zero_add _) (by simp)

/-- The first free index is above all the others exactly in a packed tree. -/
theorem packed_iff {wwl : Winlinks} :
    Packed wwl ↔ ∃ j, winlinkNextIndex wwl 0 = some j ∧ below wwl j = wwl.length := by
  have hspec := winlinkNextIndex_zero wwl
  constructor
  · rintro ⟨n, hn, hused⟩
    cases hnext : winlinkNextIndex wwl 0 with
    | none =>
        rw [hnext] at hspec
        exact absurd ((hused n).mp (hspec n hn)) (lt_irrefl n)
    | some j =>
        rw [hnext] at hspec
        obtain ⟨-, hfree, hbelow⟩ := hspec
        refine ⟨j, rfl, below_eq_length.mpr fun x hx => ?_⟩
        -- the first free index is the end of the packed block
        have hlow : x.idx < n := (hused x.idx).mp ⟨x, hx, rfl⟩
        have hend : ¬ j < n := fun hlt => by
          obtain ⟨y, hy, hyj⟩ := (hused j).mpr hlt
          exact hfree y hy hyj
        omega
  · rintro ⟨j, hnext, hlen⟩
    rw [hnext] at hspec
    obtain ⟨hj, hfree, hbelow⟩ := hspec
    refine ⟨j, hj, fun i => ⟨?_, hbelow i⟩⟩
    rintro ⟨x, hx, rfl⟩
    exact below_eq_length.mp hlen x hx

end Newmux.Logic
