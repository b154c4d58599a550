import Newmux.Logic.Ordinal

/-!
# Creating a window

What `newmux-create-window` does to the sessions: it shuffles the indexes of one
session, and then either links the new window there or fails and leaves the
shuffled indexes behind.
-/

namespace Newmux.Logic

open Newmux.Base Newmux.Tmux Newmux.Recovery

/-- The session a command works on is one of the server's. -/
theorem primary_found {sv : Server} (hu : Table.Unique sv.sessions) {name : Option String}
    {fallback : Nat} {s : Session} (h : newmuxPrimarySessionFromArgs sv name fallback = .ok s) :
    sessionFindById sv s.id = some s := by
  unfold newmuxPrimarySessionFromArgs at h
  split at h
  · split at h
    · next hs =>
        cases h
        exact (sessionFindById_id hs).symm ▸ hs
    · cases h
  · split at h
    · next hs =>
        cases h
        exact Table.find_of_mem hu (List.mem_of_find?_eq_some hs)
    · cases h

/-- The index a spawn asks for when no position is free or wanted: the next free
one from `base-index`. -/
def spawnIndex (s : Session) (idx : Int) : Int :=
  if idx = -1 then -1 - (s.options.baseIndex : Int) else idx

/-- A spawn links the new window in its session's tree, or leaves the sessions
alone. -/
theorem spawnWindow_outcome {sv : Server} (hok : TreesOk sv) {s : Session}
    (hs : sessionFindById sv s.id = some s) (idx : Int) (spawn : Spawn) :
    match spawnWindow sv s idx spawn with
    | (sv', .error _) => sv'.sessions = sv.sessions
    | (sv', .ok wl) => ∃ s',
        winlinkAdd s.windows (spawnIndex s idx) sv.nextPtr sv.nextWindowId =
          some (wl, s'.windows) ∧ sessionFindById sv' s.id = some s' := by
  unfold spawnWindow
  by_cases hused : idx ≠ -1 ∧ (winlinkFindByIndex s.windows idx.toNat).isSome
  · rw [if_pos hused]
  · rw [if_neg hused]
    unfold spawnIndex
    dsimp only
    generalize (if idx = -1 then -1 - (s.options.baseIndex : Int) else idx) = i
    cases hadd : winlinkAdd s.windows i sv.nextPtr sv.nextWindowId with
    | none => exact rfl
    | some r =>
        obtain ⟨wl, wwl⟩ := r
        cases spawn.pane with
        | error cause => exact rfl
        | ok wp =>
            simp only
            -- the session with its new winlink, as it is when the group is synchronized
            let s₁ : Session := { s with windows := wwl, curw := s.curw.or (some wl.ptr) }
            have hroom : RoomMade s.windows sv.nextPtr sv.nextWindowId wl s₁.windows wl.idx :=
              roomMade_of_add hadd
            have hlinked : TreesOk { sv.setSession s₁ with nextPtr := sv.nextPtr + 1 } :=
              relinked_treesOk hok hs rfl rfl hroom
            have hne : s₁.windows ≠ [] := by
              rw [hroom.tree]
              exact List.ne_nil_of_mem (mem_rbInsert.mpr (.inl rfl))
            refine ⟨s₁, rfl, synced_self hs rfl hne hlinked (.trans ?_ (layoutInit_kept _ _ _))⟩
            exact ⟨rfl, rfl, rfl, rfl, Nat.le_succ _, rfl⟩

/-- The place of a new window: where the shuffle made room, or at the next free
index. -/
def createPlace (s : Session) (at? : Option (Winlink × Bool)) : Place :=
  match at? with
  | none => .index (spawnIndex s (-1))
  | some (wl, before) =>
      if (winlinkShuffleUp s.windows wl before).isSome then .beside wl before
      else .index (spawnIndex s (-1))

/-- Making room leaves the session alone or shuffles its indexes. -/
theorem makeRoom_cases (s : Session) (at? : Option (Winlink × Bool)) :
    (createPlace s at? = .index (spawnIndex s (-1)) ∧ ∀ sv, makeRoom sv s at? = (sv, s, -1)) ∨
      ∃ wl before idx mid, at? = some (wl, before) ∧
        winlinkShuffleUp s.windows wl before = some (idx, mid) ∧
        createPlace s at? = .beside wl before ∧ ∀ sv, makeRoom sv s at? =
          (sv.setSession { s with windows := mid }, { s with windows := mid }, (idx : Int)) := by
  cases at? with
  | none => exact .inl ⟨rfl, fun _ => rfl⟩
  | some x =>
      obtain ⟨wl, before⟩ := x
      unfold makeRoom createPlace
      cases h : winlinkShuffleUp s.windows wl before with
      | none => exact .inl ⟨by simp [h], fun _ => by simp [h]⟩
      | some r => exact .inr ⟨wl, before, r.1, r.2, rfl, h, by simp [h], fun _ => by simp [h]⟩

/-- The outcome of creating a window in a session: it is linked at its place and
the line printed is about it, or the sessions are left as making room left them. -/
inductive CreateOutcome (σ : State) (s : Session) (at? : Option (Winlink × Bool)) (print : Bool) :
    State × CmdResult → Prop
  | made (σ' : State) (wl : Winlink) (s' : Session)
      (hlink : (createPlace s at?).link s.windows σ.server.nextPtr σ.server.nextWindowId =
        some (wl, s'.windows))
      (hfind : sessionFindById σ'.server s.id = some s') :
      CreateOutcome σ s at? print
        (σ', .ok (if print then [newmuxPrintWindowResult "create" s' wl none] else []))
  | failed (σ' : State) (causes : List String)
      (h : σ'.server.sessions = (makeRoom σ.server s at?).1.sessions) :
      CreateOutcome σ s at? print (σ', .fail causes)

theorem create_outcome {σ : State} (hok : TreesOk σ.server) {s : Session}
    (hs : sessionFindById σ.server s.id = some s) (position : Option Nat) (print : Bool)
    (target : Target) (spawn : Spawn) :
    CreateOutcome σ s (insertionLink s position target) print
      (cmdNewmuxCreateWindowExec.create σ print target spawn s position) := by
  unfold cmdNewmuxCreateWindowExec.create
  generalize insertionLink s position target = at?
  rcases makeRoom_cases s at? with ⟨hplace, hroom⟩ | ⟨x, before, idx, mid, -, hsh, hplace, hroom⟩
  · simp only [hroom]
    have hspawn := spawnWindow_outcome hok hs (-1) spawn
    generalize spawnWindow σ.server s (-1) spawn = r at hspawn ⊢
    obtain ⟨sv', cause | wl⟩ := r
    · exact .failed _ _ (hspawn.trans (by rw [hroom]))
    · obtain ⟨s', hadd, hfind⟩ := hspawn
      simp only [hfind, Option.getD_some]
      exact .made _ wl s' (hplace ▸ hadd) hfind
  · simp only [hroom]
    have hok' : TreesOk (σ.server.setSession { s with windows := mid }) :=
      (ShrinkStep.shuffle (T := fun _ => True) (W := fun _ => True) trivial hs hsh).treesOk hok
    have hs' : sessionFindById (σ.server.setSession { s with windows := mid }) s.id =
        some { s with windows := mid } := by
      rw [sessionFindById_setSession, if_pos rfl, hs]
      rfl
    have hspawn := spawnWindow_outcome (s := { s with windows := mid }) hok' hs' idx spawn
    generalize spawnWindow (σ.server.setSession { s with windows := mid })
      { s with windows := mid } idx spawn = r at hspawn ⊢
    obtain ⟨sv', cause | wl⟩ := r
    · exact .failed _ _ (hspawn.trans (by rw [hroom]))
    · obtain ⟨s', hadd, hfind⟩ := hspawn
      have hidx : spawnIndex { s with windows := mid } idx = idx := if_neg (by omega)
      rw [hidx] at hadd
      have hlink : (createPlace s at?).link s.windows σ.server.nextPtr σ.server.nextWindowId =
          some (wl, s'.windows) := by
        rw [hplace]
        simp only [Place.link, hsh, Option.bind_some]
        exact hadd
      simp only [hfind, Option.getD_some]
      exact .made _ wl s' hlink hfind

end Newmux.Logic
