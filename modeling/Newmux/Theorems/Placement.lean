import Newmux.Logic.Ordinal
import Newmux.Logic.Tabs

/-!
# Where a restored window lands

A restored window goes after its old left neighbour, before its old right one,
before the window that has its old ordinal now, or behind the last window. All
but the last take the index that a shuffle frees; the last takes the lowest free
index, which is behind the last window only if there is no gap.
-/

namespace Newmux.Theorems

open Newmux.Base Newmux.Tmux Newmux.Recovery Newmux.Logic

/-- The window was attached, at ordinal `p` among the session's others. -/
def Placed (s : Session) (w p : Nat) (r : Server × Except String Winlink) : Prop :=
  ∃ wl s', r.2 = .ok wl ∧ wl.window = w ∧ slot wl ∉ slots s ∧
    sessionFindById r.1 s.id = some s' ∧ slots s' = (slots s).insertIdx p (slot wl)

/-- The ordinal a closed window should come back at. -/
def savedOrdinal (sv : Server) (s : Session) (item : ClosedItem) : Nat :=
  match neighbourLink sv s item.leftWindowId with
  | some wl => s.windows.idxOf wl + 1
  | none =>
      match neighbourLink sv s item.rightWindowId with
      | some wl => s.windows.idxOf wl
      | none => min item.windowPosition.toNat s.windows.length

/-- Room beside a winlink is a free index above; behind the last window it is
that there are no gaps. -/
def RoomAt (wwl : Winlinks) : Place → Prop
  | .beside wl before => RoomFrom wwl (shuffleIndex wl before)
  | .index _ => Packed wwl

/-- The saved place is beside a winlink of the session or behind the last one, at
the saved ordinal. -/
theorem savedPlace_ordinal (sv : Server) {s : Session} (hsorted : Sorted s.windows)
    {item : ClosedItem} (hpos : 0 ≤ item.windowPosition) :
    (savedPlace sv s item = .index (-1) ∨
        ∃ wl ∈ s.windows, ∃ before, savedPlace sv s item = .beside wl before) ∧
      (savedPlace sv s item).ordinal s.windows = savedOrdinal sv s item := by
  unfold savedPlace savedOrdinal
  cases hleft : neighbourLink sv s item.leftWindowId with
  | some wl => exact ⟨.inr ⟨wl, neighbourLink_mem hleft, false, rfl⟩, rfl⟩
  | none =>
      cases hright : neighbourLink sv s item.rightWindowId with
      | some wl => exact ⟨.inr ⟨wl, neighbourLink_mem hright, true, rfl⟩, rfl⟩
      | none =>
          simp only [ge_iff_le, if_pos hpos]
          unfold newmuxWinlinkAtPosition
          cases hat : s.windows[item.windowPosition.toNat]? with
          | none =>
              have hlen := List.getElem?_eq_none_iff.mp hat
              exact ⟨.inl rfl, (min_eq_right hlen).symm⟩
          | some wl =>
              obtain ⟨hlt, hget⟩ := List.getElem?_eq_some_iff.mp hat
              refine ⟨.inr ⟨wl, List.mem_of_getElem? hat, true, rfl⟩, ?_⟩
              have hidx : s.windows.idxOf wl = item.windowPosition.toNat := by
                rw [← hget]
                exact hsorted.nodup.idxOf_getElem _ hlt
              show s.windows.idxOf wl + 0 = _
              rw [hidx, Nat.add_zero, min_eq_left hlt.le]

/-- What is attached is placed exactly where the count of the winlinks below it
says. -/
theorem placed_attached {sv : Server} (hok : TreesOk sv) {s : Session}
    (hs : sessionFindById sv s.id = some s) {w last p : Nat} {wl : Winlink} {wwl : Winlinks}
    (hroom : RoomMade s.windows sv.nextPtr w wl wwl last) (hp : p ≤ s.windows.length) :
    Placed s w p (attached sv s wl wwl, .ok wl) ↔ below s.windows wl.idx = p := by
  have htree := hok.tree _ s hs
  have hnew := hroom.new htree
  have hslots := hroom.slots htree.sorted
  obtain ⟨s', hs', hw⟩ := attached_self hok hs hroom
  have hlen : (slots s).length = s.windows.length := List.length_map slot
  constructor
  · rintro ⟨wl', s'', hwl, -, -, hfind, hins⟩
    cases hwl
    rw [hs'] at hfind
    cases hfind
    have hboth : (slots s).insertIdx (below s.windows wl.idx) (slot wl) =
        (slots s).insertIdx p (slot wl) := by
      rw [← hins]
      show _ = s'.windows.map slot
      rw [hw, hslots]
      rfl
    exact insertIdx_inj hnew (hlen ▸ below_le _ _) (hlen ▸ hp) hboth
  · rintro rfl
    refine ⟨wl, s', rfl, hroom.window, hnew, hs', ?_⟩
    show s'.windows.map slot = _
    rw [hw, hslots]
    rfl

theorem not_placed_error {s : Session} {w p : Nat} {sv : Server} {cause : String} :
    ¬ Placed s w p (sv, .error cause) := by
  rintro ⟨wl, s', h, -⟩
  cases h

theorem winlinkAdd_next {wwl : Winlinks} {ptr w : Nat} :
    winlinkAdd wwl (-1) ptr w =
      (winlinkNextIndex wwl 0).map fun i => (⟨ptr, i, w⟩, rbInsert ⟨ptr, i, w⟩ wwl) := by
  have hzero : (-(-1 : Int) - 1).toNat = 0 := rfl
  unfold winlinkAdd
  rw [if_pos (by decide), hzero]
  cases winlinkNextIndex wwl 0 <;> rfl

/-- **A restored window is back in its place** exactly when there is room beside
the winlink it belongs next to or, for a window that comes last, when the indexes
in use have no gap. -/
theorem restored_in_place_iff {sv : Server} (hok : TreesOk sv) {s : Session}
    (hs : sessionFindById sv s.id = some s) (w : Nat) {item : ClosedItem}
    (hpos : 0 ≤ item.windowPosition) :
    Placed s w (savedOrdinal sv s item) (newmuxSessionAttachAtSavedPosition sv s w item) ↔
      RoomAt s.windows (savedPlace sv s item) := by
  have hsorted := (hok.tree _ s hs).sorted
  have hout := attachAtSavedPosition_outcome hs hsorted w item
  obtain ⟨hplace, hordinal⟩ := savedPlace_ordinal sv hsorted hpos
  generalize newmuxSessionAttachAtSavedPosition sv s w item = r at hout ⊢
  rw [← hordinal]
  generalize savedPlace sv s item = place at hplace hout ⊢
  rcases hplace with rfl | ⟨x, hx, before, rfl⟩
  · -- behind the last window: the lowest free index
    show _ ↔ Packed s.windows
    rw [packed_iff]
    cases hout with
    | ok wl wwl h =>
        have hroom := roomMade_of_add h
        show Placed s w s.windows.length _ ↔ _
        rw [placed_attached hok hs hroom le_rfl]
        simp only [Place.link, winlinkAdd_next, Option.map_eq_some_iff, Prod.mk.injEq] at h
        obtain ⟨j, hj, rfl, -⟩ := h
        show below s.windows j = s.windows.length ↔ _
        simp [hj]
    | error cause h =>
        simp only [Place.link, winlinkAdd_next, Option.map_eq_none_iff] at h
        simp [not_placed_error, h]
  · -- beside a winlink: the index the shuffle frees
    show _ ↔ RoomFrom s.windows (shuffleIndex x before)
    rw [← winlinkShuffleUp_isSome_iff hsorted]
    cases hout with
    | ok wl wwl h =>
        obtain ⟨last, hroom⟩ := Place.link_spec hsorted h
        simp only [Place.link, Option.bind_eq_some_iff] at h
        obtain ⟨⟨idx, mid⟩, hshuffle, hadd⟩ := h
        have hidx : wl.idx = shuffleIndex x before := by
          rw [← (winlinkShuffleUp_spec hsorted hshuffle).1]
          simpa using (winlinkAdd_some hadd).2.2.2.2 (by omega)
        have hcount := below_shuffleIndex hsorted hx before
        have hle : (Place.beside x before).ordinal s.windows ≤ s.windows.length :=
          hcount.symm.trans_le (below_le _ _)
        rw [placed_attached hok hs hroom hle, hidx, hcount, hshuffle]
        exact iff_of_true rfl rfl
    | error cause h =>
        have hnone : winlinkShuffleUp s.windows x before = none := by
          cases hshuffle : winlinkShuffleUp s.windows x before with
          | none => rfl
          | some r =>
              rw [beside_link hsorted sv.nextPtr w hshuffle] at h
              cases h
        rw [hnone]
        exact iff_of_false not_placed_error (by simp)

/-- A window that was closed at ordinal `position` and whose neighbours are gone. -/
def closedAt (position : Nat) : ClosedItem :=
  { type := .window, sequence := 1, sessionId := 0, sessionName := "newmux", windowId := 9,
    windowName := "vi", windowIndex := 0, windowPosition := position, leftWindowId := -1,
    rightWindowId := -1, windowLayout := none, paneId := 0, paneIndex := 0, activePaneIndex := 0,
    recoverySessionId := 1, recoveryWindowId := 9 }

/-- Between two tabs it comes back between them. -/
theorem restored_between :
    Placed (tabSession 2) 9 1
      (newmuxSessionAttachAtSavedPosition (tabServer 2) (tabSession 2) 9 (closedAt 1)) :=
  (restored_in_place_iff (tabServer_treesOk 2) rfl 9 (show 0 ≤ (closedAt 1).windowPosition by
    decide)).mpr ⟨2, by decide, by decide, by decide⟩

/-- **The last of three tabs comes back first**: with the indexes one and two in
use, the lowest free one is zero. -/
theorem restored_last_is_first :
    neighbourLink (tabsAt [1, 2]) (tabsAtSession [1, 2]) (closedAt 2).leftWindowId = none ∧
      neighbourLink (tabsAt [1, 2]) (tabsAtSession [1, 2]) (closedAt 2).rightWindowId = none ∧
      (tabsAtSession [1, 2]).windows.length = 2 ∧
      ¬ Placed (tabsAtSession [1, 2]) 9 (min 2 2)
        (newmuxSessionAttachAtSavedPosition (tabsAt [1, 2]) (tabsAtSession [1, 2]) 9
          (closedAt 2)) := by
  refine ⟨rfl, rfl, rfl, ?_⟩
  rintro ⟨wl, s', hwl, -, -, hfind, hins⟩
  have hret : (newmuxSessionAttachAtSavedPosition (tabsAt [1, 2]) (tabsAtSession [1, 2]) 9
      (closedAt 2)).2 = .ok ⟨2, 0, 9⟩ := rfl
  have hafter : (sessionFindById (newmuxSessionAttachAtSavedPosition (tabsAt [1, 2])
      (tabsAtSession [1, 2]) 9 (closedAt 2)).1 0).map slots =
      some [(2, 9), (0, 0), (1, 1)] := rfl
  rw [hret] at hwl
  cases hwl
  change sessionFindById _ 0 = some s' at hfind
  rw [hfind, Option.map_some] at hafter
  rw [Option.some.inj hafter] at hins
  exact absurd hins (by decide)

end Newmux.Theorems
