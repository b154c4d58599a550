import Newmux.Logic.Create
import Newmux.Logic.Tabs

/-!
# Where a new window lands

The native tab bar asks for a tab at an ordinal. The command turns it into an
index by shuffling the window that is there up; when there is none it leaves the
index to the spawn, which takes the first free one from `base-index`. The shuffle
comes before the spawn and is not taken back when the spawn fails.
-/

namespace Newmux.Theorems

open Newmux.Base Newmux.Tmux Newmux.Recovery Newmux.Logic

/-! ## A create that succeeds -/

/-- What is printed about a winlink said to be at an ordinal. -/
def windowLine (action : String) (wl : Winlink) (position : Nat) (extra : Option String) : String :=
  s!"ok=1 action={action} kind=window window=@{wl.window} window_id=@{wl.window} " ++
    s!"window_index={wl.idx} target_index={position}" ++ (extra.map (" " ++ ·)).getD ""

/-- The new window is at ordinal `p` among the others, and that is printed. -/
def CreatedAt (σ : State) (s : Session) (p : Nat) (print : Bool) (r : State × CmdResult) : Prop :=
  ∃ wl s', sessionFindById r.1.server s.id = some s' ∧ wl ∈ s'.windows ∧
    wl.window = σ.server.nextWindowId ∧ slot wl ∉ slots s ∧
    slots s' = (slots s).insertIdx p (slot wl) ∧
    r.2 = .ok (if print then [windowLine "create" wl p none] else [])

/-- A window is at the ordinal and its index can be freed; or the first free index
from `base-index` has as many windows below it as the new one should have. -/
def InsertionFits (s : Session) (p : Nat) : Prop :=
  (∃ wl, newmuxWinlinkAtPosition s p = some wl ∧ RoomFrom s.windows wl.idx) ∨
    ∃ i, winlinkNextIndex s.windows s.options.baseIndex = some i ∧
      below s.windows i = min p s.windows.length

/-- The printed ordinal of a new window is its ordinal. -/
theorem newmuxWindowPosition_new {wwl : Winlinks} {s' : Session} {ptr w last : Nat} {wl : Winlink}
    (hroom : RoomMade wwl ptr w wl s'.windows last) (hs : Sorted wwl)
    (hnew : ∀ x ∈ wwl, x.window ≠ w) :
    newmuxWindowPosition s' wl.window = below wwl wl.idx := by
  obtain ⟨A, B, rfl, hw, hbelow⟩ := hroom.split hs
  have hnone : ∀ a ∈ A, (a.window == wl.window) = false := by
    intro a ha
    rw [hroom.window]
    simpa using hnew a (List.mem_append_left _ ha)
  unfold newmuxWindowPosition
  rw [hw, hbelow, List.findIdx_append, List.findIdx_eq_length_of_false hnone, List.findIdx_cons]
  simp

/-- A linked window is created at the ordinal its index has. -/
theorem createdAt_iff {σ σ' : State} (hok : TreesOk σ.server) (hc : Created σ.server)
    {s s' : Session} (hs : sessionFindById σ.server s.id = some s) {wl : Winlink} {last p : Nat}
    (hroom : RoomMade s.windows σ.server.nextPtr σ.server.nextWindowId wl s'.windows last)
    (hfind : sessionFindById σ'.server s.id = some s') (hp : p ≤ s.windows.length)
    (print : Bool) :
    CreatedAt σ s p print
        (σ', .ok (if print then [newmuxPrintWindowResult "create" s' wl none] else [])) ↔
      below s.windows wl.idx = p := by
  have htree := hok.tree _ s hs
  have hslots := hroom.slots htree.sorted
  have hnew := hroom.new htree
  have hlen : (slots s).length = s.windows.length := List.length_map slot
  constructor
  · rintro ⟨wl', s'', hfind', -, hwindow, -, hins, -⟩
    rw [hfind] at hfind'
    cases hfind'
    -- the window is new, so the two winlinks are one
    have hslot : slot wl' = slot wl := by
      have hmem : slot wl' ∈ s'.windows.map slot := by
        have h : slot wl' ∈ (slots s).insertIdx p (slot wl') :=
          (List.mem_insertIdx (hlen ▸ hp)).mpr (.inl rfl)
        rw [← hins] at h
        exact h
      rw [hslots, List.mem_insertIdx (hlen ▸ below_le _ _)] at hmem
      refine hmem.resolve_right fun hold => ?_
      obtain ⟨x, hx, hxs⟩ := List.mem_map.mp hold
      have hxw : x.window = σ.server.nextWindowId := (Prod.mk.inj hxs).2.trans hwindow
      exact absurd (hc _ s _ hs (List.mem_map_of_mem hx)) (by omega)
    rw [hslot] at hins
    exact insertIdx_inj hnew (hlen ▸ below_le _ _) (hlen ▸ hp) (hslots.symm.trans hins)
  · rintro rfl
    have hpos := newmuxWindowPosition_new hroom htree.sorted fun x hx hxw => by
      have := hc _ s _ hs (List.mem_map_of_mem hx)
      omega
    have hmem : wl ∈ s'.windows := by
      rw [hroom.tree]
      exact mem_rbInsert.mpr (.inl rfl)
    refine ⟨wl, s', hfind, hmem, hroom.window, hnew, hslots, ?_⟩
    rw [← hpos]
    rfl

/-- The ordinal an index chosen by the create has is the one asked for exactly when
the insertion fits. -/
theorem createPlace_fits {s : Session} (hs : Sorted s.windows) {p ptr w : Nat} {wl : Winlink}
    {wwl : Winlinks} (target : Target)
    (hlink : (createPlace s (insertionLink s (some p) target)).link s.windows ptr w =
      some (wl, wwl)) :
    below s.windows wl.idx = min p s.windows.length ↔ InsertionFits s p := by
  unfold InsertionFits
  rcases makeRoom_cases s (insertionLink s (some p) target) with
    ⟨hplace, -⟩ | ⟨x, before, idx, mid, hat, hsh, hplace, -⟩
  · -- the next free index
    rw [hplace] at hlink
    have hneg : spawnIndex s (-1) < 0 := by
      unfold spawnIndex
      rw [if_pos rfl]
      omega
    have hbase : (-spawnIndex s (-1) - 1).toNat = s.options.baseIndex := by
      unfold spawnIndex
      rw [if_pos rfl]
      omega
    simp only [Place.link, winlinkAdd, if_pos hneg, hbase] at hlink
    cases hnext : winlinkNextIndex s.windows s.options.baseIndex with
    | none =>
        rw [hnext] at hlink
        cases hlink
    | some i =>
        rw [hnext] at hlink
        cases hlink
        constructor
        · intro h
          exact .inr ⟨i, rfl, h⟩
        · rintro (⟨x, hx, hfrom⟩ | ⟨i', hi, h⟩)
          · have hsome : (winlinkShuffleUp s.windows x true).isSome :=
              (winlinkShuffleUp_isSome_iff hs).mpr hfrom
            simp [createPlace, insertionLink, hx, hsome] at hplace
          · cases hi
            exact h
  · -- the index of the window that is there
    obtain ⟨x', hx', heq⟩ := Option.map_eq_some_iff.mp hat
    cases heq
    obtain ⟨hlt, hget⟩ := List.getElem?_eq_some_iff.mp hx'
    have hmem : x ∈ s.windows := List.mem_of_getElem? hx'
    rw [hplace] at hlink
    simp only [Place.link, hsh, Option.bind_some] at hlink
    have hidx : wl.idx = shuffleIndex x true := by
      rw [← (winlinkShuffleUp_spec hs hsh).1]
      simpa using (winlinkAdd_some hlink).2.2.2.2 (by omega)
    have hplaced : s.windows.idxOf x = p := by
      rw [← hget]
      exact hs.nodup.idxOf_getElem _ hlt
    have hroom' : RoomFrom s.windows (shuffleIndex x true) :=
      (winlinkShuffleUp_isSome_iff hs).mp (by rw [hsh]; rfl)
    refine iff_of_true ?_ (.inl ⟨x, hx', hroom'⟩)
    rw [hidx, below_shuffleIndex hs hmem, hplaced, min_eq_left hlt.le]
    rfl

/-- **A tab asked for at an ordinal is at that ordinal, and said to be**, exactly
when the index of the window that is there can be freed, or the first free index
from `base-index` happens to be at that ordinal. -/
theorem created_at_ordinal_iff {σ : State} (hok : TreesOk σ.server) (hc : Created σ.server)
    {primary : Option String} {value : String} {p : Int} {print : Bool} {target : Target}
    {spawn : Spawn} {s : Session}
    (hs : newmuxPrimarySessionFromArgs σ.server primary target.session = .ok s)
    (hp : strtonum value 0 intMax = some p)
    (hdone : (cmdNewmuxCreateWindowExec σ primary (some value) print target spawn).2.retval =
      .normal) :
    CreatedAt σ s (min p.toNat s.windows.length) print
        (cmdNewmuxCreateWindowExec σ primary (some value) print target spawn) ↔
      InsertionFits s p.toNat := by
  have hfound := primary_found hok.unique hs
  have hsorted := (hok.tree _ s hfound).sorted
  have hexec : cmdNewmuxCreateWindowExec σ primary (some value) print target spawn =
      cmdNewmuxCreateWindowExec.create σ print target spawn s (some p.toNat) := by
    unfold cmdNewmuxCreateWindowExec
    simp only [hs, hp, Option.map_some]
  have hout := create_outcome hok hfound (some p.toNat) print target spawn
  rw [hexec] at hdone ⊢
  generalize cmdNewmuxCreateWindowExec.create σ print target spawn s (some p.toNat) = r at hdone hout ⊢
  cases hout with
  | failed σ' causes h => cases hdone
  | made σ' wl s' hlink hfind =>
      obtain ⟨last, hroom⟩ := Place.link_spec hsorted hlink
      rw [createdAt_iff hok hc hfound hroom hfind (min_le_right _ _), createPlace_fits hsorted target hlink]

/-- A pane the environment can start. -/
def newPane : Spawn := ⟨80, 24, .ok (tabPane 0)⟩

/-- Between two tabs the new one is second. -/
theorem created_between :
    CreatedAt (tabState 2) (tabSession 2) 1 true
      (cmdNewmuxCreateWindowExec (tabState 2) none (some "1") true (tab 0) newPane) :=
  (created_at_ordinal_iff (σ := tabState 2) (tabServer_treesOk 2) (tabServer_created 2) rfl
    (p := 1) (by decide) (by decide)).mpr (.inl ⟨⟨1, 1, 1⟩, rfl, 2, by decide, by decide, by decide⟩)

/-- Tabs at the given indexes, nothing closed yet. -/
def tabsAtState (indexes : List Nat) : State :=
  { tabState 0 with server := tabsAt indexes }

/-- **The last of three tabs is the second**: with the indexes zero and two in use,
the first free one is one. -/
theorem created_last_is_second :
    (cmdNewmuxCreateWindowExec (tabsAtState [0, 2]) none (some "2") true (tab 0) newPane).2.retval =
        .normal ∧
      ¬ CreatedAt (tabsAtState [0, 2]) (tabsAtSession [0, 2]) (min 2 2) true
        (cmdNewmuxCreateWindowExec (tabsAtState [0, 2]) none (some "2") true (tab 0) newPane) := by
  refine ⟨by decide, ?_⟩
  rintro ⟨wl, s', hfind, -, -, -, hins, -⟩
  have hafter : (sessionFindById (cmdNewmuxCreateWindowExec (tabsAtState [0, 2]) none (some "2")
      true (tab 0) newPane).1.server 0).map slots = some [(0, 0), (2, 2), (1, 1)] := by decide
  change sessionFindById _ 0 = some s' at hfind
  rw [hfind, Option.map_some] at hafter
  rw [Option.some.inj hafter] at hins
  have hlast : ((slots (tabsAtSession [0, 2])).insertIdx 2 (slot wl))[1]? = some (1, 1) := rfl
  rw [show min 2 2 = 2 from rfl] at hins
  rw [← hins] at hlast
  exact absurd hlast (by decide)

/-! ## A create that fails -/

/-- The windows of a session with their indexes. -/
def indexes (s : Session) : List (Nat × Nat) := s.windows.map fun wl => (wl.window, wl.idx)

/-- In every session every window has the index it had. -/
def IndexesKept (sv sv' : Server) : Prop :=
  ∀ j m, sessionFindById sv j = some m →
    ∃ m', sessionFindById sv' j = some m' ∧ indexes m' = indexes m

/-- The session a create works on and the winlink it makes room beside, if its
arguments are good. -/
def insertion (sv : Server) (primary position : Option String) (target : Target) :
    Option (Session × Winlink × Bool) :=
  match newmuxPrimarySessionFromArgs sv primary target.session with
  | .error _ => none
  | .ok s =>
      match position.map fun value => strtonum value 0 intMax with
      | some none => none
      | some (some n) => (insertionLink s (some n.toNat) target).map fun at? => (s, at?)
      | none => (insertionLink s none target).map fun at? => (s, at?)

/-- There is nothing to shuffle: no insertion, no free index to shuffle into, or a
free index at the insertion. -/
def NothingToShuffle (sv : Server) (primary position : Option String) (target : Target) : Prop :=
  ∀ s wl before, insertion sv primary position target = some (s, wl, before) →
    RoomFrom s.windows (shuffleIndex wl before) → ∀ x ∈ s.windows, x.idx ≠ shuffleIndex wl before

theorem IndexesKept.of_sessions {sv sv' : Server} (h : sv'.sessions = sv.sessions) :
    IndexesKept sv sv' := by
  intro j m hm
  refine ⟨m, ?_, rfl⟩
  unfold sessionFindById at hm ⊢
  rw [h]
  exact hm

/-- Making room keeps the indexes exactly when there is nothing to shuffle. -/
theorem makeRoom_kept_iff {sv sv' : Server} (hok : TreesOk sv) {s : Session}
    (hs : sessionFindById sv s.id = some s) (at? : Option (Winlink × Bool))
    (h : sv'.sessions = (makeRoom sv s at?).1.sessions) :
    IndexesKept sv sv' ↔ ∀ wl before, at? = some (wl, before) →
      RoomFrom s.windows (shuffleIndex wl before) →
        ∀ x ∈ s.windows, x.idx ≠ shuffleIndex wl before := by
  have hsorted := (hok.tree _ s hs).sorted
  rcases makeRoom_cases s at? with ⟨hplace, hroom⟩ | ⟨wl, before, idx, mid, rfl, hsh, -, hroom⟩
  · rw [hroom] at h
    refine iff_of_true (.of_sessions h) ?_
    rintro wl before rfl hfrom
    have hsome := (winlinkShuffleUp_isSome_iff hsorted).mpr hfrom
    simp [createPlace, hsome] at hplace
  · rw [hroom] at h
    obtain ⟨rfl, last, hle, hlt, hfree, hblock, rfl⟩ := winlinkShuffleUp_spec hsorted hsh
    have hfind : ∀ j, sessionFindById sv' j = if j = s.id then
        some { s with windows := s.windows.map (Winlink.bump (shuffleIndex wl before) last) }
        else sessionFindById sv j := by
      intro j
      have hid : ({ s with
          windows := s.windows.map (Winlink.bump (shuffleIndex wl before) last) } : Session).id =
            s.id := rfl
      have hset := sessionFindById_set (j := j) hid hs
      rw [← hset]
      unfold sessionFindById
      rw [h]
    constructor
    · intro hkept wl' before' heq _ x hx hidx
      cases heq
      obtain ⟨m', hm', hsame⟩ := hkept s.id s hs
      rw [hfind, if_pos rfl] at hm'
      cases hm'
      -- the window at the insertion index has moved up
      have hbump := congrArg Prod.snd (List.map_inj_left.mp
        ((List.map_map ..).symm.trans hsame) x hx)
      have hlast := hfree x hx
      simp only [Function.comp_apply, Winlink.bump_idx] at hbump
      rw [if_pos (by omega)] at hbump
      omega
    · intro hnone j m hm
      rw [hfind]
      have hunused := hnone wl before rfl ⟨last, hle, hlt, hfree⟩
      have hself : s.windows.map (Winlink.bump (shuffleIndex wl before) last) = s.windows := by
        refine map_bump_eq_self fun x hx hin => ?_
        obtain ⟨y, hy, hidx⟩ := hblock (shuffleIndex wl before) le_rfl (by omega)
        exact hunused y hy hidx
      by_cases hj : j = s.id
      · rw [if_pos hj, hself]
        rw [hj, hs] at hm
        cases hm
        exact ⟨s, rfl, rfl⟩
      · rw [if_neg hj]
        exact ⟨m, hm, rfl⟩

/-- **A create that fails leaves the indexes as they were** exactly when there was
nothing to shuffle. -/
theorem failed_create_keeps_iff {σ : State} (hok : TreesOk σ.server)
    {primary position : Option String} {print : Bool} {target : Target} {spawn : Spawn}
    (hfail : (cmdNewmuxCreateWindowExec σ primary position print target spawn).2.retval = .error) :
    IndexesKept σ.server (cmdNewmuxCreateWindowExec σ primary position print target spawn).1.server ↔
      NothingToShuffle σ.server primary position target := by
  unfold NothingToShuffle insertion
  unfold cmdNewmuxCreateWindowExec at hfail ⊢
  cases hs : newmuxPrimarySessionFromArgs σ.server primary target.session with
  | error cause => exact iff_of_true (.of_sessions rfl) fun s wl before h => by simp at h
  | ok s =>
      have hfound := primary_found hok.unique hs
      -- the create itself, once its arguments are good
      have hcreate : ∀ position,
          (cmdNewmuxCreateWindowExec.create σ print target spawn s position).2.retval = .error →
          (IndexesKept σ.server
              (cmdNewmuxCreateWindowExec.create σ print target spawn s position).1.server ↔
            ∀ s' wl before,
              ((insertionLink s position target).map fun at? => (s, at?)) = some (s', wl, before) →
              RoomFrom s'.windows (shuffleIndex wl before) →
                ∀ x ∈ s'.windows, x.idx ≠ shuffleIndex wl before) := by
        intro position hfail
        have hout := create_outcome hok hfound position print target spawn
        generalize cmdNewmuxCreateWindowExec.create σ print target spawn s position = r at hfail hout ⊢
        cases hout with
        | made σ' wl s' hlink hfind => cases hfail
        | failed σ' causes h =>
            rw [makeRoom_kept_iff hok hfound _ h]
            constructor
            · intro hnone s' wl before heq
              obtain ⟨at', hat, he⟩ := Option.map_eq_some_iff.mp heq
              cases he
              exact hnone wl before hat
            · intro hnone wl before hat
              exact hnone s wl before (by rw [hat]; rfl)
      rw [hs] at hfail
      cases position with
      | none => exact hcreate none hfail
      | some value =>
          cases hp : strtonum value 0 intMax with
          | none => exact iff_of_true (.of_sessions (by simp [hp])) fun s wl before h => by simp [hp] at h
          | some p =>
              simp only [Option.map_some, hp] at hfail ⊢
              exact hcreate (some p.toNat) hfail

/-- A pane the environment can not start. -/
def brokenPane : Spawn := ⟨80, 24, .error "fork failed: Resource temporarily unavailable"⟩

/-- Behind the last tab nothing is shuffled. -/
theorem failed_behind_keeps :
    IndexesKept (tabServer 2)
      (cmdNewmuxCreateWindowExec (tabState 2) none (some "5") true (tab 0) brokenPane).1.server :=
  (failed_create_keeps_iff (σ := tabState 2) (tabServer_treesOk 2) (by decide)).mpr
    fun s wl before h => by cases h

/-- **A failed create in front of two tabs** moves both up. -/
theorem failed_in_front_shuffles :
    (cmdNewmuxCreateWindowExec (tabState 2) none (some "0") true (tab 0) brokenPane).2.retval =
        .error ∧
      ¬ IndexesKept (tabServer 2)
        (cmdNewmuxCreateWindowExec (tabState 2) none (some "0") true (tab 0) brokenPane).1.server := by
  refine ⟨by decide, fun hkept => ?_⟩
  obtain ⟨m', hm', hsame⟩ := hkept 0 (tabSession 2) rfl
  have hafter : (sessionFindById (cmdNewmuxCreateWindowExec (tabState 2) none (some "0") true
      (tab 0) brokenPane).1.server 0).map indexes = some [(0, 1), (1, 2)] := by decide
  rw [hm', Option.map_some, hsame] at hafter
  exact absurd (Option.some.inj hafter) (by decide)

end Newmux.Theorems
