import Newmux.Logic.ServerOps

/-!
# Attaching a window at its saved place

Where `newmux_session_attach_at_saved_position` puts a window, and what that
does to the session's tree: a block of used indices moves up by one, and the
new winlink takes the index this frees.
-/

namespace Newmux.Logic

open Newmux.Base Newmux.Tmux Newmux.Recovery

/-- A place for a window in a session: at (or after) a winlink, or at an index. -/
inductive Place where
  | beside (wl : Winlink) (before : Bool)
  | index (idx : Int)
deriving DecidableEq, Repr

/-- The place a closed window goes back to. -/
def savedPlace (sv : Server) (s : Session) (item : ClosedItem) : Place :=
  match neighbourLink sv s item.leftWindowId with
  | some wl => .beside wl false
  | none =>
      match neighbourLink sv s item.rightWindowId with
      | some wl => .beside wl true
      | none =>
          if item.windowPosition ≥ 0 then
            match newmuxWinlinkAtPosition s item.windowPosition.toNat with
            | none => .index (-1)
            | some wl => .beside wl true
          else if item.windowIndex < 0 then .index (-1)
          else
            match winlinkFindByIndex s.windows item.windowIndex.toNat with
            | none => .index item.windowIndex
            | some wl => .beside wl true

/-- The new winlink, and the tree once room is made and the winlink is added. -/
def Place.link (wwl : Winlinks) (ptr w : Nat) : Place → Option (Winlink × Winlinks)
  | .beside wl before =>
      (winlinkShuffleUp wwl wl before).bind fun r => winlinkAdd r.2 r.1 ptr w
  | .index idx => winlinkAdd wwl idx ptr w

/-- The session with a new winlink in its tree; an empty session selects it. -/
def linkedSession (s : Session) (wl : Winlink) (wwl : Winlinks) : Session :=
  let ses := { s with windows := wwl }
  if ses.curw = none then (sessionSetCurrent ses (some wl)).2 else ses

/-- The server before the group of the session is synchronized. -/
def linkedServer (sv : Server) (s : Session) (wl : Winlink) (wwl : Winlinks) : Server :=
  { sv.setSession (linkedSession s wl wwl) with nextPtr := sv.nextPtr + 1 }

/-- The server once the window is attached. -/
def attached (sv : Server) (s : Session) (wl : Winlink) (wwl : Winlinks) : Server :=
  sessionGroupSynchronizeFrom (linkedServer sv s wl wwl) s.id

/-! ## The tree -/

/-- Room was made for a winlink of `w`: the used indices from its own up to
`last` moved up by one. -/
structure RoomMade (wwl : Winlinks) (ptr w : Nat) (wl : Winlink) (wwl' : Winlinks)
    (last : Nat) : Prop where
  ptr : wl.ptr = ptr
  window : wl.window = w
  le : wl.idx ≤ last
  free : ∀ x ∈ wwl, x.idx ≠ last
  block : ∀ j, wl.idx ≤ j → j < last → ∃ x ∈ wwl, x.idx = j
  tree : wwl' = rbInsert wl (wwl.map (Winlink.bump wl.idx last))

/-- The insertion index is free once the block has moved. -/
theorem bump_frees {wwl : Winlinks} {i last : Nat} (hle : i ≤ last)
    (hfree : ∀ x ∈ wwl, x.idx ≠ last) : ∀ x ∈ wwl.map (Winlink.bump i last), x.idx ≠ i := by
  intro x hx
  obtain ⟨y, hy, rfl⟩ := List.mem_map.mp hx
  have := hfree y hy
  rw [Winlink.bump_idx]
  split <;> omega

theorem RoomMade.freed {wwl wwl' : Winlinks} {ptr w last : Nat} {wl : Winlink}
    (h : RoomMade wwl ptr w wl wwl' last) :
    ∀ x ∈ wwl.map (Winlink.bump wl.idx last), x.idx ≠ wl.idx := bump_frees h.le h.free

theorem RoomMade.treeOk {n w last : Nat} {wwl wwl' : Winlinks} {wl : Winlink}
    (h : RoomMade wwl n w wl wwl' last) (hok : TreeOk n wwl) : TreeOk (n + 1) wwl' := by
  have hbump : TreeOk n (wwl.map (Winlink.bump wl.idx last)) := by
    refine ⟨hok.sorted.map_bump h.free, ?_, ?_⟩
    · have hcomp : Winlink.ptr ∘ Winlink.bump wl.idx last = Winlink.ptr :=
        funext fun x => Winlink.bump_ptr wl.idx last x
      rw [List.map_map, hcomp]
      exact hok.ptrs
    · intro x hx
      obtain ⟨y, hy, rfl⟩ := List.mem_map.mp hx
      rw [Winlink.bump_ptr]
      exact hok.fresh y hy
  rw [h.tree]
  exact hbump.insert h.ptr h.freed

/-- One window more. -/
theorem RoomMade.order_perm {wwl wwl' : Winlinks} {ptr w last : Nat} {wl : Winlink}
    (h : RoomMade wwl ptr w wl wwl' last) :
    (wwl'.map Winlink.window).Perm (w :: wwl.map Winlink.window) := by
  have hcomp : Winlink.window ∘ Winlink.bump wl.idx last = Winlink.window :=
    funext fun x => Winlink.bump_window wl.idx last x
  have hperm := (List.perm_orderedInsert (fun a b : Winlink => a.idx ≤ b.idx) wl
    (wwl.map (Winlink.bump wl.idx last))).map Winlink.window
  rw [List.map_cons, List.map_map, hcomp, h.window] at hperm
  rw [h.tree]
  exact hperm

/-- One node more, the others at their addresses. -/
theorem RoomMade.ptr_perm {wwl wwl' : Winlinks} {ptr w last : Nat} {wl : Winlink}
    (h : RoomMade wwl ptr w wl wwl' last) :
    (wwl'.map Winlink.ptr).Perm (wl.ptr :: wwl.map Winlink.ptr) := by
  have hcomp : Winlink.ptr ∘ Winlink.bump wl.idx last = Winlink.ptr :=
    funext fun x => Winlink.bump_ptr wl.idx last x
  have hperm := (List.perm_orderedInsert (fun a b : Winlink => a.idx ≤ b.idx) wl
    (wwl.map (Winlink.bump wl.idx last))).map Winlink.ptr
  rw [List.map_cons, List.map_map, hcomp] at hperm
  rw [h.tree]
  exact hperm

/-- A winlink added to a tree without making room. -/
theorem roomMade_of_add {wwl wwl' : Winlinks} {idx : Int} {ptr w : Nat} {wl : Winlink}
    (h : winlinkAdd wwl idx ptr w = some (wl, wwl')) : RoomMade wwl ptr w wl wwl' wl.idx := by
  obtain ⟨hptr, hw, hfree, htree, -⟩ := winlinkAdd_some h
  refine ⟨hptr, hw, le_rfl, hfree, fun j _ _ => by omega, ?_⟩
  rw [map_bump_eq_self fun x _ => by omega]
  exact htree

theorem Place.link_spec {wwl wwl' : Winlinks} (hs : Sorted wwl) {place : Place} {ptr w : Nat}
    {wl : Winlink} (h : place.link wwl ptr w = some (wl, wwl')) :
    ∃ last, RoomMade wwl ptr w wl wwl' last := by
  cases place with
  | index idx => exact ⟨wl.idx, roomMade_of_add h⟩
  | beside x before =>
      simp only [Place.link, Option.bind_eq_some_iff] at h
      obtain ⟨⟨idx, mid⟩, hshuffle, hadd⟩ := h
      obtain ⟨-, last, hle, -, hfree, hblock, hmid⟩ := winlinkShuffleUp_spec hs hshuffle
      obtain ⟨hptr, hw, -, htree, hidx⟩ := winlinkAdd_some hadd
      have hidx : wl.idx = idx := by simpa using hidx (by omega)
      rw [hmid] at htree
      subst hidx
      exact ⟨last, hptr, hw, hle, hfree, hblock, htree⟩

/-- With the indices in order, making room is all that can fail. -/
theorem beside_link {wwl : Winlinks} (hs : Sorted wwl) {x : Winlink} {before : Bool}
    {idx : Nat} {mid : Winlinks} (ptr w : Nat)
    (h : winlinkShuffleUp wwl x before = some (idx, mid)) :
    (Place.beside x before).link wwl ptr w =
      some (⟨ptr, idx, w⟩, rbInsert ⟨ptr, idx, w⟩ mid) := by
  obtain ⟨-, last, hle, -, hfree, -, rfl⟩ := winlinkShuffleUp_spec hs h
  simp only [Place.link, h, Option.bind_some]
  exact winlinkAdd_of_free ptr w (bump_frees hle hfree)

/-! ## The commands' attach functions -/

theorem linkedSession_fields (s : Session) (wl : Winlink) (wwl : Winlinks) :
    (linkedSession s wl wwl).id = s.id ∧ (linkedSession s wl wwl).name = s.name ∧
      (linkedSession s wl wwl).options = s.options ∧
      (linkedSession s wl wwl).windows = wwl := by
  unfold linkedSession
  simp only
  split
  · have h := sessionSetCurrent_same { s with windows := wwl } (some wl)
    exact ⟨h.id, h.name, h.options, h.windows⟩
  · exact ⟨rfl, rfl, rfl, rfl⟩

theorem linkedServer_find {sv : Server} {s : Session} (hs : sessionFindById sv s.id = some s)
    (wl : Winlink) (wwl : Winlinks) (j : Nat) :
    sessionFindById (linkedServer sv s wl wwl) j =
      if j = s.id then some (linkedSession s wl wwl) else sessionFindById sv j :=
  sessionFindById_set (linkedSession_fields s wl wwl).1 hs

/-- What a session links once a window is added to another or to itself. -/
theorem linkedServer_linked {sv : Server} {s : Session} (hs : sessionFindById sv s.id = some s)
    {w last : Nat} {wl : Winlink} {wwl : Winlinks}
    (hroom : RoomMade s.windows sv.nextPtr w wl wwl last) {j : Nat} {m : Session}
    (hm : sessionFindById (linkedServer sv s wl wwl) j = some m) {x : Nat}
    (hx : x ∈ Session.order m) :
    x = w ∨ ∃ m₀, sessionFindById sv j = some m₀ ∧ x ∈ Session.order m₀ := by
  rw [linkedServer_find hs] at hm
  split at hm
  · next hj =>
      cases hm
      have hmem : x ∈ w :: Session.order s := by
        refine hroom.order_perm.mem_iff.mp ?_
        rw [← (linkedSession_fields s wl wwl).2.2.2]
        exact hx
      rcases List.mem_cons.mp hmem with rfl | hx
      · exact .inl rfl
      · exact .inr ⟨s, hj ▸ hs, hx⟩
  · exact .inr ⟨m, hm, hx⟩

theorem setSession_setSession (sv : Server) {s s' : Session} (hid : s.id = s'.id) :
    (sv.setSession s).setSession s' = sv.setSession s' := by
  have hmod : Table.modify (Table.modify sv.sessions s.id fun _ => s) s'.id (fun _ => s') =
      Table.modify sv.sessions s'.id fun _ => s' := by
    simp only [Table.modify, List.map_map]
    refine List.map_congr_left fun a _ => ?_
    by_cases ha : key a = s.id
    · have hs : key s = s'.id := hid
      simp [ha, hs, hid]
    · have ha' : ¬ key a = s'.id := hid ▸ ha
      simp [ha, ha']
  simp only [Server.setSession] at hmod ⊢
  rw [hmod]

theorem attachSilent_eq {sv : Server} {s : Session} (hs : sessionFindById sv s.id = some s)
    (w : Nat) (idx : Int) :
    newmuxSessionAttachSilent sv s.id w idx =
      match winlinkAdd s.windows idx sv.nextPtr w with
      | none => (sv, .error s!"index in use: {idx}")
      | some (wl, wwl) => (attached sv s wl wwl, .ok wl) := by
  unfold newmuxSessionAttachSilent
  simp only [hs]
  cases hadd : winlinkAdd s.windows idx sv.nextPtr w with
  | none => rfl
  | some r => rfl

/-- The outcome of attaching at a place: the winlink and the server with it, or
an error and the server as it was. -/
inductive AttachOutcome (sv : Server) (s : Session) (w : Nat) (place : Place) :
    Server × Except String Winlink → Prop
  | ok (wl : Winlink) (wwl : Winlinks) (h : place.link s.windows sv.nextPtr w = some (wl, wwl)) :
      AttachOutcome sv s w place (attached sv s wl wwl, .ok wl)
  | error (cause : String) (h : place.link s.windows sv.nextPtr w = none) :
      AttachOutcome sv s w place (sv, .error cause)

theorem attachSilent_outcome {sv : Server} {s : Session}
    (hs : sessionFindById sv s.id = some s) (w : Nat) (idx : Int) :
    AttachOutcome sv s w (.index idx) (newmuxSessionAttachSilent sv s.id w idx) := by
  rw [attachSilent_eq hs]
  cases hadd : winlinkAdd s.windows idx sv.nextPtr w with
  | none => exact .error _ hadd
  | some r => exact .ok r.1 r.2 hadd

theorem attachBeside_outcome {sv : Server} {s : Session}
    (hs : sessionFindById sv s.id = some s) (hsorted : Sorted s.windows) (w : Nat)
    (x : Winlink) (before : Bool) (cause : String) :
    AttachOutcome sv s w (.beside x before) (attachBeside sv s w x before cause) := by
  unfold attachBeside sessionShuffleUp
  cases hsh : winlinkShuffleUp s.windows x before with
  | none => exact .error cause (by simp [Place.link, hsh])
  | some r =>
      obtain ⟨idx, mid⟩ := r
      simp only [Option.map_some]
      have hlink := beside_link hsorted sv.nextPtr w hsh
      obtain ⟨-, last, hle, -, hfree, -, hmid⟩ := winlinkShuffleUp_spec hsorted hsh
      have hfree' : ∀ y ∈ mid, y.idx ≠ idx := hmid ▸ bump_frees hle hfree
      have hs' : sessionFindById (sv.setSession { s with windows := mid }) s.id =
          some { s with windows := mid } := by
        rw [sessionFindById_setSession, if_pos rfl, hs]
        rfl
      have hsilent := attachSilent_eq (s := { s with windows := mid }) hs' w idx
      have hadd : winlinkAdd mid idx (sv.setSession { s with windows := mid }).nextPtr w =
          some (⟨sv.nextPtr, idx, w⟩, rbInsert ⟨sv.nextPtr, idx, w⟩ mid) :=
        winlinkAdd_of_free sv.nextPtr w hfree'
      simp only [hadd] at hsilent
      rw [hsilent]
      have hatt : attached (sv.setSession { s with windows := mid }) { s with windows := mid }
          ⟨sv.nextPtr, idx, w⟩ (rbInsert ⟨sv.nextPtr, idx, w⟩ mid) =
          attached sv s ⟨sv.nextPtr, idx, w⟩ (rbInsert ⟨sv.nextPtr, idx, w⟩ mid) := by
        have hid : ({ s with windows := mid } : Session).id =
            (linkedSession s ⟨sv.nextPtr, idx, w⟩ (rbInsert ⟨sv.nextPtr, idx, w⟩ mid)).id :=
          (linkedSession_fields s _ _).1.symm
        have hset := setSession_setSession sv hid
        unfold attached linkedServer
        change sessionGroupSynchronizeFrom
          { (sv.setSession { s with windows := mid }).setSession (linkedSession s _ _) with
            nextPtr := sv.nextPtr + 1 } s.id = _
        rw [hset]
      rw [hatt]
      exact .ok _ _ hlink

/-- **Attaching at the saved position** puts the window at its saved place, or
fails and changes nothing. -/
theorem attachAtSavedPosition_outcome {sv : Server} {s : Session}
    (hs : sessionFindById sv s.id = some s) (hsorted : Sorted s.windows) (w : Nat)
    (item : ClosedItem) :
    AttachOutcome sv s w (savedPlace sv s item)
      (newmuxSessionAttachAtSavedPosition sv s w item) := by
  unfold newmuxSessionAttachAtSavedPosition savedPlace
  cases neighbourLink sv s item.leftWindowId with
  | some wl => exact attachBeside_outcome hs hsorted w wl false _
  | none =>
      cases neighbourLink sv s item.rightWindowId with
      | some wl => exact attachBeside_outcome hs hsorted w wl true _
      | none =>
          simp only
          split
          · cases newmuxWinlinkAtPosition s item.windowPosition.toNat with
            | none => exact attachSilent_outcome hs w (-1)
            | some wl => exact attachBeside_outcome hs hsorted w wl true _
          · unfold newmuxSessionAttachAtOriginalIndex
            split
            · exact attachSilent_outcome hs w (-1)
            · cases winlinkFindByIndex s.windows item.windowIndex.toNat with
              | none => exact attachSilent_outcome hs w item.windowIndex
              | some wl => exact attachBeside_outcome hs hsorted w wl true _

end Newmux.Logic
