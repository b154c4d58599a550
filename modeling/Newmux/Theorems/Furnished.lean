import Newmux.Logic.PaneTrip
import Newmux.Theorems.TabMoves
import Newmux.Theorems.Tiled

/-!
# Windows and their panes in every run

Whatever is closed and reopened, every window that a session links is there, and the
cells of its layout are its panes in the order of its list.
-/

namespace Newmux.Theorems

open Newmux.Base Newmux.Tmux Newmux.Recovery Newmux.Logic

/-- Every window of a session is there, with its panes in layout order. -/
def Furnished (sv : Server) : Prop :=
  ∀ w, sv.linked w = true → ∃ win, windowFindById sv w = some win ∧ Ordered win

/-- The windows that are linked are those on the bars and in the lot. -/
theorem linked_bars {sv : Server} (hok : TreesOk sv) {w : Nat} :
    sv.linked w = true ↔ (barsOf sv).Shown w := by
  rw [linked_iff hok.unique]
  constructor
  · rintro ⟨j, s, hs, hw⟩
    by_cases hname : s.name = newmuxRecoverySession
    · obtain rfl := sessionFindById_id hs
      exact .inr ((mem_recoveryOrder hok).mpr ⟨s, ⟨hs, hname⟩, hw⟩)
    · exact .inl ⟨j, _, bar_some.mpr ⟨s, hs, hname, rfl⟩, hw⟩
  · rintro (⟨j, l, hj, hw⟩ | hw)
    · obtain ⟨s, hs, -, rfl⟩ := bar_some.mp hj
      exact ⟨j, s, hs, hw⟩
    · obtain ⟨R, hR, hw⟩ := (mem_recoveryOrder hok).mp hw
      exact ⟨R.id, R, hR.find, hw⟩

/-- The windows that are still linked are as they were, unzoomed or not. -/
def UnzoomedOnly (sv sv' : Server) : Prop :=
  ∀ w, sv'.linked w = true →
    (windowFindById sv' w).map unzoomWindow = (windowFindById sv w).map unzoomWindow

theorem UnzoomedOnly.face {sv sv' : Server} (h : UnzoomedOnly sv sv') {w : Nat}
    (hw : sv'.linked w = true) : (windowFindById sv' w).map face = (windowFindById sv w).map face := by
  have hmap : ∀ o : Option Window, o.map Logic.face =
      (o.map unzoomWindow).map fun win => { win with lastPanes := [] } := fun o => by
    rw [Option.map_map]
    rfl
  rw [hmap, hmap, h w hw]

/-- A server whose windows are only unzoomed keeps them in order. -/
theorem UnzoomedOnly.furnished {sv sv' : Server} (h : UnzoomedOnly sv sv') (hf : Furnished sv)
    (hlinked : ∀ w, sv'.linked w = true → sv.linked w = true) : Furnished sv' := by
  intro w hw
  obtain ⟨win, hwin, hordered⟩ := hf w (hlinked w hw)
  have heq := h w hw
  rw [hwin, Option.map_some] at heq
  obtain ⟨v, hv, hunzoomed⟩ := Option.map_eq_some_iff.mp heq
  exact ⟨v, hv, hordered.of_unzoomed hunzoomed⟩

/-! ## Tabs -/

/-- Closing a tab unzooms its window at most. -/
theorem breakLiveWindow_unzoomed {sv : Server} {items : List ClosedItem} (hp : Parks sv items)
    (h : Linked sv) {s : Session} (hs : sessionFindById sv s.id = some s)
    (hname : s.name ≠ newmuxRecoverySession) {wl : Winlink} (hlast : lastTab s wl = false)
    (item : ClosedItem) : UnzoomedOnly sv (newmuxBreakLiveWindow sv item s.id wl).1 := by
  obtain ⟨sv₂, R, hready, ⟨cause, heq⟩ | ⟨link, wwl, hroom, heq⟩⟩ :=
    breakLiveWindow_outcome hp h hs hname hlast item
  · rw [heq]
    exact fun x _ => hready.unzoomed x
  · rw [heq]
    intro x hx
    have hR := hready.recovery
    obtain ⟨hid, hname, -, hw⟩ := linkedSession_fields R link wwl
    have htrees : TreesOk (linkedServer sv₂ R link wwl) :=
      relinked_treesOk hready.linked.sessions.trees hR.find hid hname (hw.symm ▸ hroom)
    have hrun : Shrink (fun _ => True) (fun _ => False) (linkedServer sv₂ R link wwl)
        (newmuxSessionDetachSilent (linkedServer sv₂ R link wwl) s.id wl).1 :=
      detachSilent_shrink wl fun _ _ => trivial
    rw [(Shrink.windows hrun htrees).survive x (fun h => h) hx]
    exact hready.unzoomed x

theorem linked_kept {sv sv' : Server} (h : SessionsKept sv sv') (w : Nat) :
    sv'.linked w = sv.linked w := by
  unfold Server.linked
  rw [h.sessions]

theorem windowBack_unzoomed {sv : Server} (hok : TreesOk sv) {dstS recoveryS : Session}
    (hdst : sessionFindById sv dstS.id = some dstS) {recoveryWl : Winlink} {w : Window}
    {wl : Winlink} {wwl : Winlinks} {last : Nat}
    (hroom : RoomMade dstS.windows sv.nextPtr w.id wl wwl last) :
    UnzoomedOnly sv (windowBack sv dstS recoveryS recoveryWl w wl wwl) := by
  intro x hx
  have hkept : SessionsKept _ (windowBack sv dstS recoveryS recoveryWl w wl wwl) :=
    (restoreIfShrunk_kept _ _).trans (protectWindow_kept _ _)
  rw [linked_kept hkept] at hx
  obtain ⟨hid, hname, -, hw⟩ := linkedSession_fields dstS wl wwl
  have htrees : TreesOk (linkedServer sv dstS wl wwl) :=
    relinked_treesOk hok hdst hid hname (hw.symm ▸ hroom)
  have hsync : Shrink (fun _ => True) (fun _ => False) (linkedServer sv dstS wl wwl)
      (attached sv dstS wl wwl) := syncFrom_shrink fun _ _ => trivial
  have hrun := hsync.trans ((@unlinkWindow_shrink _ _ _ recoveryS.id recoveryWl fun _ _ => trivial).trans
    (@sessionSelect_shrink _ _ _ dstS.id wl.idx trivial))
  have hfind := (Shrink.windows hrun htrees).survive x (fun h => h) hx
  have hwindows : windowFindById (windowBack sv dstS recoveryS recoveryWl w wl wwl) x =
      windowFindById (serverSessionSelect
        (serverUnlinkWindow (attached sv dstS wl wwl) recoveryS.id recoveryWl) dstS.id wl.idx) x := by
    unfold windowBack windowFindById
    rw [protectWindow_windows, restoreIfShrunk_windows]
  rw [hwindows, hfind]
  rfl


/-- Closing a tab leaves the windows in order. -/
theorem breakLiveWindow_furnished {σ : State} {items : List ClosedItem}
    (hp : Parks σ.server items) (h : Linked σ.server) (hf : Furnished σ.server) {s : Session}
    {wl : Winlink} {w : Window} (hdel : Deletable σ s wl w) (hlast : lastTab s wl = false) :
    Furnished (newmuxBreakLiveWindow σ.server (newmuxItemFromWindow σ s wl w).1 s.id wl).1 := by
  have hwid := windowFindById_id hdel.window
  have hunzoomed := breakLiveWindow_unzoomed hp h hdel.session hdel.name hlast
    (newmuxItemFromWindow σ s wl w).1
  have hbroken : Broken items
      (newmuxBreakLiveWindow σ.server (newmuxItemFromWindow σ s wl w).1 s.id wl) :=
    breakLiveWindow_broken hp hdel.session hdel.name hdel.linked hlast (h.ownWindow _) hdel.window
      rfl hwid rfl
  have hmoves := @breakLiveWindow_moves _ _ hp h s hdel.session hdel.name wl hdel.linked hlast w
    hdel.window (newmuxItemFromWindow σ s wl w).1 rfl hwid rfl
  refine hunzoomed.furnished hf fun x hx => (linked_bars hp.ok.trees).mpr ?_
  obtain ⟨hfailed, hclosed⟩ := hmoves
  generalize newmuxBreakLiveWindow σ.server (newmuxItemFromWindow σ s wl w).1 s.id wl = r
    at hfailed hclosed hbroken hx
  cases hbroken with
  | error sv' cause hp' =>
      have hrest := hfailed sv' cause rfl
      have hbars : barsOf sv' = barsOf σ.server := Bars.ext hrest.1 hrest.2
      rw [← hbars]
      exact (linked_bars hp'.ok.trees).mp hx
  | ok sv' item' hp' => exact ((linked_bars hp'.ok.trees).mp hx).of_close (hclosed sv' item' rfl)

/-! ## Panes -/

/-- **Closing a pane**, window by window: one is without it, the others are as they were,
and the pane's new window has only the pane. -/
theorem breakLivePane_windows {sv : Server} {items : List ClosedItem} (hp : Parks sv items)
    (hh : Housed sv) {wl : Winlink} {win : Window} (hw : windowFindById sv wl.window = some win)
    {wp : Nat} (hwp : wp ∈ win.panes) (item : ClosedItem) :
    (∀ x, sv.linked x = true → windowFindById (newmuxBreakLivePane sv item wl wp).1 x =
        if x = wl.window then (windowFindById sv x).map (without wp) else windowFindById sv x) ∧
      ∀ item', (newmuxBreakLivePane sv item wl wp).2 = .ok item' →
        ∃ house, windowFindById (newmuxBreakLivePane sv item wl wp).1 item'.recoveryWindowId =
          some house ∧ Ordered house := by
  obtain ⟨hp₁, R, hready⟩ := hp.get
  have hget := recoverySessionGet_same sv
  have hh₁ := housed_stable.recoverySessionGet hh
  cases hgot : newmuxRecoverySessionGet sv with
  | mk sv₁ r =>
  rw [hgot] at hp₁ hready hget hh₁
  simp only at hp₁ hready hget hh₁
  have hwindows : ∀ x, windowFindById sv₁ x = windowFindById sv x := by
    intro x
    unfold windowFindById
    rw [hget.windows]
  obtain ⟨hold, hnew⟩ := breakPane_record hh₁ ((hwindows wl.window).trans hw) hwp item.sequence
  have hkept := breakPane_kept sv₁ wl.window wp item.sequence
  obtain ⟨hok₂, hiff⟩ := hp₁.ok.kept hkept
  have hR₂ := (hiff R).mpr hready.recovery
  have halone := (hok₂.lot R hR₂).alone
  have hbelow : ∀ x, sv.linked x = true → x < sv₁.nextWindowId := by
    intro x hx
    obtain ⟨j, t, ht, hxt⟩ := (linked_iff hp.ok.trees.unique).mp hx
    rw [hget.next]
    exact hp.ok.created j t x ht hxt
  cases hbreak : breakPane sv₁ wl.window wp item.sequence with
  | mk sv₂ dstW =>
  rw [hbreak] at hold hnew hok₂ hR₂ halone
  simp only at hold hnew hok₂ hR₂ halone
  have hrecord : ∀ x, sv.linked x = true → windowFindById sv₂ x =
      if x = wl.window then (windowFindById sv x).map (without wp) else windowFindById sv x := by
    intro x hx
    rw [hold x (hbelow x hx), hwindows x]
  rcases breakLivePane_eq hgot hbreak hok₂.trees hR₂ hready.id halone with
    ⟨cause, heq⟩ | ⟨link, wwl, hadd, heq⟩
  · rw [heq]
    exact ⟨hrecord, fun item' h => (by cases h)⟩
  · rw [heq]
    refine ⟨hrecord, fun item' h => ?_⟩
    cases h
    exact hnew

theorem breakLivePane_furnished {sv : Server} {items : List ClosedItem} (hp : Parks sv items)
    (hh : Housed sv) (hf : Furnished sv) {s : Session} (hs : sessionFindById sv s.id = some s)
    (hname : s.name ≠ newmuxRecoverySession) {wl : Winlink} {win : Window}
    (hw : windowFindById sv wl.window = some win) {wp : Nat} (hwp : wp ∈ win.panes)
    (hcount : windowCountPanes win ≠ 1) {item : ClosedItem} (htype : item.type = .pane)
    (hpane : item.paneId = wp) (hsession : item.sessionId = s.id) :
    Furnished (newmuxBreakLivePane sv item wl wp).1 := by
  obtain ⟨hrecord, hhouse⟩ := breakLivePane_windows hp hh hw hwp item
  obtain ⟨hfailed, hparked⟩ := breakLivePane_moves hp hs hname wl wp htype hpane hsession
  have hbroken := breakLivePane_broken hp hs hname wl wp htype hpane hsession
  have hold : ∀ x, sv.linked x = true →
      ∃ v, windowFindById (newmuxBreakLivePane sv item wl wp).1 x = some v ∧ Ordered v := by
    intro x hx
    obtain ⟨v, hv, hordered⟩ := hf x hx
    rw [hrecord x hx, hv]
    split
    · next he =>
        subst he
        obtain rfl := Option.some.inj (hv.symm.trans hw)
        exact ⟨_, rfl, hordered.without (hh.nodup _ v hv) hwp hcount⟩
    · exact ⟨v, rfl, hordered⟩
  generalize newmuxBreakLivePane sv item wl wp = r at hhouse hfailed hparked hbroken hold ⊢
  intro x hx
  cases hbroken with
  | error sv' cause hp' =>
      have hrest := hfailed sv' cause rfl
      have hbars : barsOf sv' = barsOf sv := Bars.ext hrest.1 hrest.2
      refine hold x ((linked_bars hp.ok.trees).mpr ?_)
      rw [← hbars]
      exact (linked_bars hp'.ok.trees).mp hx
  | ok sv' item' hp' =>
      rcases ((linked_bars hp'.ok.trees).mp hx).of_park (hparked sv' item' rfl) with hshown | rfl
      · exact hold x ((linked_bars hp.ok.trees).mpr hshown)
      · exact hhouse item' rfl

/-- **A pane that comes back** leaves the windows in order. -/
theorem paneBack_furnished {sv : Server} {item : ClosedItem} {items : List ClosedItem}
    (hp : Parks sv (item :: items)) (hh : Housed sv) (hf : Furnished sv) (h : Linked sv)
    (halone : Alone sv item) (htype : item.type = .pane) {target : Option Nat} {dstS : Session}
    {dstWl : Winlink} {recoveryW : Window}
    (hfind : findLivePane sv target item = .ok (dstS, dstWl, recoveryW))
    (hlayout : item.windowLayout.isSome = true) (hfit : layoutFits sv item dstWl.window = true)
    (hp' : Parks (paneBack sv item dstS dstWl recoveryW) items) :
    Furnished (paneBack sv item dstS dstWl recoveryW) := by
  obtain ⟨hdst, hdstWl, hwindow, -, hrecW, -, -⟩ := findLivePane_ok hfind
  have hrid : recoveryW.id = item.recoveryWindowId := windowFindById_id hrecW
  have hapart : dstWl.window ≠ recoveryW.id := by
    rw [hrid]
    exact hp.destination_apart List.mem_cons_self hfind item List.mem_cons_self
  obtain ⟨text, htext⟩ := Option.isSome_iff_exists.mp hlayout
  have htake := paneBack_moves hp htype hfind hfit
  have hok := barsOf_ok hp h
  -- the pane is in its recovery window, and nowhere else
  obtain ⟨home, hhome, hpanes⟩ := panesOf_eq_some.mp (halone htype)
  have hin : item.paneId ∈ home.panes := hpanes ▸ List.mem_singleton_self _
  obtain ⟨src, hsrc, hsrcW⟩ :=
    Option.map_eq_some_iff.mp (hh.owner _ home item.paneId hhome hin)
  have hsrcW : src.window = recoveryW.id := hsrcW.trans hrid.symm
  have hnot : ∀ {x : Nat} {v : Window}, windowFindById sv x = some v → x ≠ recoveryW.id →
      item.paneId ∉ v.panes := fun {x v} hv hne =>
    hh.notListed hhome hin (hrid ▸ hne) (by rw [panesOf, hv, Option.map_some])
  -- the window it comes back to
  obtain ⟨v, hv, hordered⟩ : ∃ v, windowFindById sv dstWl.window = some v ∧ Ordered v := by
    refine hf _ ((linked_iff hp.ok.trees.unique).mpr ?_)
    exact ⟨dstS.id, dstS, destination_find hp.ok.trees.unique hdst,
      List.mem_map_of_mem (findByWindow_some hdstWl).1⟩
  have hvid := windowFindById_id hv
  obtain ⟨lc, asked, hread⟩ : ∃ lc asked, layoutRead (movedBack (paneList sv item.paneId) item
      recoveryW.id v.id recoveryW.id v).panes.length text = .ok (lc, asked) := by
    rw [(movedBack_list (paneList sv item.paneId) item recoveryW.id recoveryW.id v).panes]
    unfold layoutFits at hfit
    simp only [htext, hv, ← hrid] at hfit
    cases hr : layoutRead (listedBack item recoveryW.id v).panes.length text with
    | error cause =>
        rw [hr] at hfit
        cases hfit
    | ok r => exact ⟨r.1, r.2, rfl⟩
  intro x hx
  obtain ⟨hshown, hne⟩ := ((linked_bars hp'.ok.trees).mp hx).of_take hok htake
  rw [← hrid] at hne
  obtain ⟨w, hw, hwordered⟩ := hf x ((linked_bars hp.ok.trees).mpr hshown)
  have hwid := windowFindById_id hw
  have hread' : layoutRead (movedBack (paneList sv item.paneId) item src.window dstWl.window
      recoveryW.id v).panes.length text = .ok (lc, asked) := by
    rw [hsrcW, ← hvid]
    exact hread
  rw [paneBack_record hp.ok.trees hsrc hv htext hread' hx hne, hw, hsrcW, Option.map_some]
  refine ⟨_, rfl, ?_⟩
  by_cases hxw : x = dstWl.window
  · subst hxw
    obtain rfl : w = v := Option.some.inj (hw.symm.trans hv)
    rw [if_pos rfl, ← hwid]
    exact hordered.back (hh.tail _ w hw) (hwid ▸ hapart) (hnot hv hapart) hread
      item.activePaneIndex
  · rw [if_neg hxw, movedBack_elsewhere (hwid ▸ hne) (hwid ▸ hxw) (hwid ▸ hne) (hnot hw hne)]
    exact hwordered

/-! ## Every step -/

/-- **Restoring an item** whose layout fits leaves the windows in order. -/
theorem restore_furnished {sv : Server} {item : ClosedItem} {items : List ClosedItem}
    (hp : Parks sv (item :: items)) (hh : Housed sv) (hf : Furnished sv) (h : Linked sv)
    (halone : Alone sv item) {target : Option Nat} (hfits : PaneFits sv target item) :
    Furnished (newmuxRestoreClosedItem sv target item).1 := by
  unfold newmuxRestoreClosedItem
  cases htype : item.type with
  | pane =>
      have hout := restoreLivePane_outcome sv target item
      have htried := restoreLivePane_tried hp target htype
      simp only
      generalize newmuxRestoreLivePane sv target item = r at hout htried ⊢
      cases hout with
      | missing => exact hf
      | misfit cause dstS dstWl recoveryW hfind hfit =>
          have hfound := (hfits htype _ (by rw [hfind]; rfl)).2
          rw [hfit] at hfound
          cases hfound
      | back dstS dstWl recoveryW hfind hfit =>
          cases htried with
          | ok _ hp' =>
              exact paneBack_furnished hp hh hf h halone htype hfind
                (hfits htype _ (by rw [hfind]; rfl)).1 hfit hp'
  | window =>
      have hout := restoreLiveWindow_outcome hp.ok.trees target item
      have htried := restoreLiveWindow_tried hp target htype
      simp only
      generalize newmuxRestoreLiveWindow sv target item = r at hout htried ⊢
      cases hout with
      | missing => exact hf
      | noRoom => exact hf
      | back dstS recoveryS recoveryWl w wl wwl hfind hlink =>
          obtain ⟨A, B, -, -, hinsert⟩ := windowBack_moves hp h htype hfind hlink
          have hdst := destination_find hp.ok.trees.unique (findLiveWindow_ok hfind).1
          obtain ⟨last, hmade⟩ := Place.link_spec (hp.ok.trees.tree _ _ hdst).sorted hlink
          obtain ⟨-, -, -, -, hwid⟩ := findLiveWindow_ok hfind
          have hrec : w.id = item.recoveryWindowId :=
            hwid.trans ((hp.stored item List.mem_cons_self).window htype).symm
          cases htried with
          | ok _ hp' =>
              refine (windowBack_unzoomed hp.ok.trees hdst hmade).furnished hf fun x hx => ?_
              refine (linked_bars hp.ok.trees).mpr ?_
              rcases ((linked_bars hp'.ok.trees).mp hx).of_insert hinsert with hshown | rfl
              · exact hshown
              · obtain ⟨R, hR, -, hmem⟩ := hp.mem List.mem_cons_self
                exact .inr ((mem_recoveryOrder hp.ok.trees).mpr ⟨R, hR, hrec ▸ hmem⟩)
  | session => exact hf

/-- Killing a tab that is not the last of its session. -/
theorem killWindow_furnished {sv : Server} {items : List ClosedItem} (hp : Parks sv items)
    (h : Linked sv) (hf : Furnished sv) {s : Session} (hs : sessionFindById sv s.id = some s)
    (hname : s.name ≠ newmuxRecoverySession) {wl : Winlink} (hwl : wl ∈ s.windows)
    (hlast : lastTab s wl = false) : Furnished (serverKillWindow sv wl.window true) := by
  have hkill := kill_move hp h hs hname hwl hlast
  have hp' := hp.kill hs hname (List.mem_map_of_mem hwl)
  have hrun := killWindow_shrink hp.ok.trees wl.window true
  intro x hx
  obtain ⟨hshown, hne⟩ := ((linked_bars hp'.ok.trees).mp hx).of_kill (barsOf_ok hp h) hkill
  rw [(Shrink.windows hrun hp.ok.trees).survive x hne hx]
  exact hf x ((linked_bars hp.ok.trees).mpr hshown)

/-- Clearing destroys the parked windows and no other. -/
theorem recoveryClear_furnished {σ : State} (h : RunInv σ) (hf : Furnished σ.server) :
    Furnished (newmuxRecoveryClear σ).server := by
  have htrees := h.linked.sessions.trees
  have hclear := h.clear_move
  have htrees' := recoveryClear_treesOk htrees
  have hwindows : ∀ x, (newmuxRecoveryClear σ).server.linked x = true →
      windowFindById (newmuxRecoveryClear σ).server x = windowFindById σ.server x := by
    unfold newmuxRecoveryClear newmuxStackClear
    simp only
    cases hR : sessionFind σ.server newmuxRecoverySession with
    | none => exact fun x _ => rfl
    | some R =>
        have hrun : Shrink (fun _ => True) (fun _ => False) σ.server
            (sessionDestroy σ.server R.id) := sessionDestroy_shrink trivial
        exact fun x hx => (Shrink.windows hrun htrees).survive x (fun h => h) hx
  intro x hx
  rw [hwindows x hx]
  exact hf x ((linked_bars htrees).mpr (((linked_bars htrees').mp hx).of_clear hclear))

/-! ## Every run -/

/-- A server with nothing parked, its panes in their cells and its sessions as they
should be. -/
structure FurnishedServer (sv : Server) : Prop where
  housed : HousedServer sv
  linked : Linked sv
  furnished : Furnished sv

/-- The runs from such a server. -/
def furnishedSystem : TSys State Event := recoverySystem FurnishedServer

/-- What is known of their states. -/
structure Tidy (σ : State) : Prop where
  house : HouseInv σ
  laid : StateLaid σ
  linked : Linked σ.server
  furnished : Furnished σ.server

theorem Tidy.run {σ : State} (h : Tidy σ) : RunInv σ := by
  refine ⟨h.house.park.stack, ⟨[], ?_⟩, h.linked⟩
  rw [List.append_nil]
  exact h.house.park.parks

theorem Tidy.restored {σ σ₁ : State} (h : Tidy σ) {item : ClosedItem}
    (hserver : σ₁.server = σ.server) (hheld : Held σ₁ item) (hin : item ∈ heldItems σ)
    {target : Option Nat} (hfits : PaneFits σ.server target item) (print : Bool) :
    Furnished (restoreOrPushBack σ₁ target item print).1.server := by
  rw [restoreOrPushBack_server, hserver]
  have hp := hheld.parks
  rw [hserver] at hp
  exact restore_furnished hp h.house.housed h.furnished h.linked (h.house.alone item hin) hfits

theorem Tidy.step {σ : State} (h : Tidy σ) {l : Event} (hv : l.Valid σ.server)
    (hgood : RoomAndFit σ l) : Tidy (exec σ l) := by
  have htrees := h.house.park.parks.ok.trees
  refine ⟨h.house.step hv hgood, h.laid.exec htrees hv, (h.run.exec hv).linked, ?_⟩
  have hparks := h.house.park.parks
  have hout := exec_outcome htrees.unique hv
  generalize exec σ l = σ' at hout ⊢
  cases hout with
  | idle => exact h.furnished
  | kill _ s wl w hdel hlast =>
      exact killWindow_furnished hparks h.linked h.furnished hdel.session hdel.name hdel.linked hlast
  | parkWindow _ s wl w hdel hlast =>
      rw [parked_server]
      have hbroken := breakLiveWindow_furnished hparks h.linked h.furnished hdel hlast
      exact hbroken
  | parkPane _ s wl w wp hdel hwp hcount =>
      rw [parked_server]
      exact breakLivePane_furnished hparks h.house.housed h.furnished hdel.session hdel.name
        hdel.window hwp hcount rfl rfl rfl
  | reserve print item σ₁ hpop =>
      rw [show (newmuxReservedPush σ₁ item).server = σ₁.server from rfl, pop_server hpop]
      exact h.furnished
  | reopen target print item σ₁ hpop =>
      have hhead : (target, item) ∈ restoredItem σ (.reopenLatestClosed target print) := by
        simp [restoredItem, (pop_some hpop).1]
      exact h.restored (pop_server hpop) (h.house.park.pop hpop).1
        (heldItems_pop hpop List.mem_cons_self) (hgood.2 _ hhead) print
  | claim value target print item n σ₁ hitem hpop =>
      have hhead : (target, item) ∈ restoredItem σ (.claimReservedClosed value target print) := by
        simp [restoredItem, hitem]
      exact h.restored (reservedPop_server hpop) (h.house.park.reservedPop hpop).1
        (heldItems_reservedPop hpop List.mem_cons_self) (hgood.2 _ hhead) print
  | release value print item n σ₁ hitem hpop =>
      rw [push_server, reservedPop_server hpop]
      exact h.furnished
  | clear => exact recoveryClear_furnished h.run h.furnished
  | output wp content => exact h.furnished

theorem tidy_inductive : furnishedSystem.Inductive RoomAndFit Tidy where
  init := by
    rintro σ ⟨hfresh, hsv⟩
    obtain ⟨hhouse, hlaid⟩ := houseInv_inductive.init σ ⟨hfresh, hsv.housed⟩
    exact ⟨hhouse, hlaid, hsv.linked, hsv.furnished⟩
  step := by
    rintro σ l _ h hgood ⟨hv, rfl⟩
    exact h.step hv hgood

/-- Tab `i` of one pane, which comes after those of the split tab. -/
def mixedTab (i : Nat) : Window :=
  { tabWindow i with
    panes := [i + 2], active := some (i + 2),
    layoutRoot := some (.pane ⟨80, 24, 0, 0⟩ (some (i + 2))) }

def mixedServer : Server :=
  { groupServer with
    windows := [splitWindow, mixedTab 1, mixedTab 2]
    panes := (List.range 3).map splitTabPane ++
      [{ tabPane 3 with window := 1 }, { tabPane 4 with window := 2 }]
    nextPaneId := 5 }

def mixedState : State := { tabState 3 with server := mixedServer }

theorem mixedState_fresh : Fresh mixedState := ⟨rfl, rfl, rfl, rfl⟩

theorem mixedServer_kept : SessionsKept groupServer mixedServer :=
  ⟨rfl, rfl, rfl, rfl, le_refl _, rfl⟩

/-- What holds of the three windows holds of every window. -/
theorem mixedServer_each {P : Nat → Window → Prop} (hsplit : P 0 splitWindow)
    (hnext : P 1 (mixedTab 1)) (hlast : P 2 (mixedTab 2)) {x : Nat} {win : Window}
    (h : windowFindById mixedServer x = some win) : P x win := by
  have hid := windowFindById_id h
  have hmem : win ∈ [splitWindow, mixedTab 1, mixedTab 2] := Table.find_some_mem h
  simp only [List.mem_cons, List.not_mem_nil, or_false] at hmem
  subst hid
  rcases hmem with rfl | rfl | rfl
  · exact hsplit
  · exact hnext
  · exact hlast

theorem mixedServer_housed : Housed mixedServer where
  owner x win p hx hp := mixedServer_each
    (P := fun x win => ∀ p ∈ win.panes, ownerOf mixedServer p = some x)
    (by decide) (by decide) (by decide) hx p hp
  nodup x win hx := mixedServer_each (P := fun _ win => win.panes.Nodup)
    (by decide) (by decide) (by decide) hx
  full x win hx := mixedServer_each (P := fun _ win => FullyLaid win)
    (List.Perm.refl _) (List.Perm.refl _) (List.Perm.refl _) hx
  below x win hx := mixedServer_each (P := fun x _ => x < mixedServer.nextWindowId)
    (by decide) (by decide) (by decide) hx
  tail x win hx := mixedServer_each (P := fun _ win => win.staleTail = none)
    (by decide) (by decide) (by decide) hx

theorem mixedTab_laid (i : Nat) : WindowLaid (mixedTab i) := by
  refine ⟨fun lc hlc => ?_, fun lc hlc => absurd hlc (Option.not_mem_none lc), fun _ => rfl⟩
  obtain rfl := Option.mem_some.mp hlc
  exact ⟨.pane _ _, rfl, rfl⟩

theorem mixedTab_ordered (i : Nat) : Ordered (mixedTab i) :=
  ⟨rfl, ⟨i + 2, rfl, List.mem_singleton_self _⟩, fun _ hp => absurd hp List.not_mem_nil⟩

theorem splitWindow_ordered : Ordered splitWindow :=
  ⟨rfl, ⟨0, rfl, by decide⟩, fun _ hp => absurd hp List.not_mem_nil⟩

theorem mixedServer_furnished : FurnishedServer mixedServer := by
  have htrees : TreesOk mixedServer := mixedServer_kept.treesOk groupServer_treesOk
  refine ⟨⟨⟨htrees, fun j s w hs hw => ?_, groupServer_nothingParked.groupIds, rfl⟩,
    ⟨fun x win hx => ?_, mixedServer_housed.below, fun _ h => absurd h List.not_mem_nil⟩,
    mixedServer_housed⟩, groupServer_linked.kept mixedServer_kept, fun w hw => ?_⟩
  · exact groupServer_nothingParked.created j s w hs hw
  · exact mixedServer_each (P := fun _ win => WindowLaid win) splitWindow_laid (mixedTab_laid 1)
      (mixedTab_laid 2) hx
  · obtain ⟨j, s, hs, hin⟩ := (linked_iff htrees.unique).mp hw
    have hlt := groupServer_nothingParked.created j s w hs hin
    obtain ⟨win, hwin⟩ : ∃ win, windowFindById mixedServer w = some win := by
      have hthere : ∀ w < 3, (windowFindById mixedServer w).isSome = true := by decide
      exact Option.isSome_iff_exists.mp (hthere w hlt)
    exact ⟨win, hwin, mixedServer_each (P := fun _ win => Ordered win) splitWindow_ordered
      (mixedTab_ordered 1) (mixedTab_ordered 2) hwin⟩

/-- A pane and two tabs are closed, the last tab comes back, one is given up, and the
pane comes back. -/
def mixedRun : List Event :=
  [.softDeletePane (splitPane 1), .softDeleteWindow (tab 1), .softDeleteWindow (tab 0),
    .reopenLatestClosed none false, .reserveLatestClosed false,
    .reopenLatestClosed (some 0) false, .clearRecentlyClosed]

end Newmux.Theorems
