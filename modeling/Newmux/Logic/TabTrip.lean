import Newmux.Logic.Ordinal
import Newmux.Logic.ParkIn

/-!
# A tab out of its bar and back

The neighbours a closed tab's item names are enough to find its place again, while
the tabs that were left are those the session has.
-/

namespace Newmux.Logic

open Newmux.Base Newmux.Tmux Newmux.Recovery

/-! ## The neighbours of a winlink -/

theorem ptr_ne_around {A B : Winlinks} {wl : Winlink}
    (h : ((A ++ wl :: B).map Winlink.ptr).Nodup) :
    (∀ x ∈ A, (x.ptr != wl.ptr) = true) ∧ ∀ x ∈ B, (x.ptr != wl.ptr) = true := by
  rw [List.map_append, List.map_cons, List.nodup_middle, List.nodup_cons, List.mem_append,
    not_or] at h
  refine ⟨fun x hx => bne_iff_ne.mpr fun he => h.1.1 ?_, fun x hx => bne_iff_ne.mpr fun he => h.1.2 ?_⟩
  · exact he ▸ List.mem_map_of_mem hx
  · exact he ▸ List.mem_map_of_mem hx

theorem winlinkPrevious_around {A B : Winlinks} {wl : Winlink}
    (h : ((A ++ wl :: B).map Winlink.ptr).Nodup) :
    winlinkPrevious (A ++ wl :: B) wl.ptr = A.getLast? := by
  unfold winlinkPrevious
  rw [List.takeWhile_append_of_pos (ptr_ne_around h).1, List.takeWhile_cons_of_neg (by simp),
    List.append_nil]

theorem winlinkNext_around {A B : Winlinks} {wl : Winlink}
    (h : ((A ++ wl :: B).map Winlink.ptr).Nodup) :
    winlinkNext (A ++ wl :: B) wl.ptr = B.head? := by
  unfold winlinkNext
  rw [List.dropWhile_append_of_pos (ptr_ne_around h).1, List.dropWhile_cons_of_neg (by simp),
    List.tail_cons]

/-! ## The place beside a neighbour -/

/-- The winlink that stands where a window stands among the session's. -/
theorem findByWindow_at {s : Session} (honce : (Session.order s).Nodup) {A B : List Nat} {w : Nat}
    (horder : Session.order s = A ++ w :: B) :
    ∃ C x D, s.windows = C ++ x :: D ∧ C.length = A.length ∧ x.window = w ∧
      winlinkFindByWindow s.windows w = some x := by
  obtain ⟨C, E, hCE, hC, hE⟩ := List.map_eq_append_iff.mp horder
  obtain ⟨x, D, rfl, hx, hD⟩ := List.map_eq_cons_iff.mp hE
  refine ⟨C, x, D, hCE, ?_, hx, ?_⟩
  · rw [← hC, List.length_map]
  · have hnot : ∀ y ∈ C, y.window ≠ w := by
      intro y hy he
      rw [horder, List.nodup_middle, List.nodup_cons, List.mem_append, not_or] at honce
      exact honce.1.1 (hC ▸ he ▸ List.mem_map_of_mem hy)
    unfold winlinkFindByWindow
    rw [hCE, List.find?_append, List.find?_eq_none.mpr fun y hy => by simpa using hnot y hy,
      Option.none_or, List.find?_cons_of_pos (by simpa using hx)]

/-- A window that is there and linked is found as a neighbour. -/
theorem neighbourLink_some {sv : Server} {s : Session} {w : Nat} {win : Window}
    (hwin : windowFindById sv w = some win) {x : Winlink}
    (hx : winlinkFindByWindow s.windows w = some x) : neighbourLink sv s (w : Int) = some x := by
  unfold neighbourLink
  rw [if_neg (by omega), Int.toNat_natCast, hwin, Option.bind_some, windowFindById_id hwin]
  exact hx

theorem neighbourLink_none (sv : Server) (s : Session) : neighbourLink sv s (-1) = none := by
  unfold neighbourLink
  rw [if_pos (by decide)]

/-- **The saved place of a closed tab** is beside a neighbour, behind as many tabs as
were before it. -/
theorem savedPlace_beside {sv : Server} {s s₁ : Session} {A B : Winlinks} {wl : Winlink}
    (hs : s.windows = A ++ wl :: B) (hptrs : (s.windows.map Winlink.ptr).Nodup)
    (hlast : lastTab s wl = false) (hsorted : Sorted s₁.windows)
    (honce : (Session.order s₁).Nodup)
    (horder : Session.order s₁ = A.map Winlink.window ++ B.map Winlink.window)
    (hwindows : ∀ w ∈ Session.order s₁, ∃ win, windowFindById sv w = some win)
    {item : ClosedItem}
    (hleft : item.leftWindowId = neighbourId (winlinkPrevious s.windows wl.ptr))
    (hright : item.rightWindowId = neighbourId (winlinkNext s.windows wl.ptr)) :
    ∃ x before, savedPlace sv s₁ item = .beside x before ∧ x ∈ s₁.windows ∧
      below s₁.windows (shuffleIndex x before) = A.length := by
  rw [hs] at hptrs hleft hright
  rw [winlinkPrevious_around hptrs] at hleft
  rw [winlinkNext_around hptrs] at hright
  unfold savedPlace
  cases hA : A.getLast? with
  | some a =>
      -- the left neighbour is still linked
      obtain ⟨A', rfl⟩ := List.getLast?_eq_some_iff.mp hA
      rw [hA] at hleft
      have hat : Session.order s₁ = A'.map Winlink.window ++ a.window :: B.map Winlink.window := by
        rw [horder, List.map_append, List.append_assoc]
        rfl
      obtain ⟨C, x, D, hCD, hlen, -, hfind⟩ := findByWindow_at honce hat
      obtain ⟨win, hwin⟩ := hwindows a.window (by rw [hat]; simp)
      have hlink : neighbourLink sv s₁ item.leftWindowId = some x := by
        rw [hleft]
        exact neighbourLink_some hwin hfind
      have hx : x ∈ s₁.windows := (findByWindow_some hfind).1
      simp only [hlink]
      refine ⟨x, false, rfl, hx, ?_⟩
      rw [below_shuffleIndex hsorted hx, hCD, idxOf_around (hCD ▸ hsorted), hlen]
      simp
  | none =>
      -- it was the first tab, so the right neighbour says where
      obtain rfl : A = [] := List.getLast?_eq_none_iff.mp hA
      have hnone : neighbourLink sv s₁ item.leftWindowId = none := by
        rw [hleft]
        exact neighbourLink_none sv s₁
      cases B with
      | nil =>
          unfold lastTab at hlast
          rw [hs, winlinkNext_around hptrs, winlinkPrevious_around hptrs] at hlast
          cases hlast
      | cons b B =>
          have hat : Session.order s₁ = [] ++ b.window :: B.map Winlink.window := horder
          obtain ⟨C, x, D, hCD, hlen, -, hfind⟩ := findByWindow_at honce hat
          obtain ⟨win, hwin⟩ := hwindows b.window (by rw [hat]; simp)
          have hlink : neighbourLink sv s₁ item.rightWindowId = some x := by
            rw [hright]
            exact neighbourLink_some hwin hfind
          have hx : x ∈ s₁.windows := (findByWindow_some hfind).1
          simp only [hnone, hlink]
          refine ⟨x, true, rfl, hx, ?_⟩
          rw [below_shuffleIndex hsorted hx, hCD, idxOf_around (hCD ▸ hsorted), hlen]
          rfl

/-- A winlink beside another takes the index that is freed there. -/
theorem beside_idx {wwl wwl' : Winlinks} (hs : Sorted wwl) {x wl : Winlink} {before : Bool}
    {ptr w : Nat} (h : (Place.beside x before).link wwl ptr w = some (wl, wwl')) :
    wl.idx = shuffleIndex x before := by
  simp only [Place.link, Option.bind_eq_some_iff] at h
  obtain ⟨⟨idx, mid⟩, hshuffle, hadd⟩ := h
  rw [← (winlinkShuffleUp_spec hs hshuffle).1]
  simpa using (winlinkAdd_some hadd).2.2.2.2 (by omega)

/-- Below `INT_MAX` there is room beside any winlink. -/
theorem beside_link_some {wwl : Winlinks} (hs : Sorted wwl) {x : Winlink} (hx : x ∈ wwl)
    (before : Bool) (hmax : ∀ y ∈ wwl, y.idx + 1 < intMax) (ptr w : Nat) :
    ∃ wl wwl', (Place.beside x before).link wwl ptr w = some (wl, wwl') := by
  obtain ⟨top, htop, hle⟩ : ∃ top ∈ wwl, ∀ y ∈ wwl, y.idx ≤ top.idx := by
    obtain ⟨top, htop⟩ := List.getLast?_isSome.mpr (List.ne_nil_of_mem hx) |>
      Option.isSome_iff_exists.mp
    obtain ⟨front, rfl⟩ := List.getLast?_eq_some_iff.mp htop
    refine ⟨top, by simp, fun y hy => ?_⟩
    rcases List.mem_append.mp hy with hy | hy
    · exact ((List.pairwise_append.mp hs).2.2 y hy top (List.mem_singleton_self _)).le
    · rw [List.mem_singleton.mp hy]
  have hroom : RoomFrom wwl (shuffleIndex x before) := by
    refine ⟨top.idx + 1, ?_, hmax top htop, fun y hy => ?_⟩
    · have := hle x hx
      unfold shuffleIndex
      split <;> omega
    · have := hle y hy
      omega
  obtain ⟨⟨idx, mid⟩, hshuffle⟩ :=
    Option.isSome_iff_exists.mp ((winlinkShuffleUp_isSome_iff hs).mpr hroom)
  exact ⟨_, _, beside_link hs ptr w hshuffle⟩

/-! ## Finding it -/

/-- A closed tab's window is found where it is parked. -/
theorem findLiveWindow_found {τ : Server} {item : ClosedItem} {items : List ClosedItem}
    (hp : Parks τ (item :: items)) (htype : item.type = .window) {s₁ : Session}
    (hs₁ : sessionFindById τ item.sessionId = some s₁) (target : Option Nat) {v : Window}
    (hv : windowFindById τ item.windowId = some v) :
    ∃ R rwl, findLiveWindow τ target item = .ok (s₁, R, rwl, v) := by
  obtain ⟨R, hR, hRid, hmem⟩ := hp.mem List.mem_cons_self
  rw [(hp.stored item List.mem_cons_self).window htype] at hmem
  have hdst : newmuxRestoreDestinationSession τ target item = some s₁ := by
    unfold newmuxRestoreDestinationSession
    simp only [hs₁]
  have hfindR : sessionFindById τ item.recoverySessionId = some R := hRid ▸ hR.find
  cases hrwl : winlinkFindByWindow R.windows v.id with
  | none =>
      obtain ⟨y, hy, hyw⟩ := List.mem_map.mp hmem
      rw [windowFindById_id hv] at hrwl
      exact absurd hyw (findByWindow_none.mp hrwl y hy)
  | some rwl =>
      refine ⟨R, rwl, ?_⟩
      unfold findLiveWindow
      simp only [hdst, hfindR, hv, hrwl]

end Newmux.Logic
