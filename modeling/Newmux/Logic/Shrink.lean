import Newmux.Logic.Links

/-!
# Steps that link no window anew

Everything the server does to sessions except creating one and adding a winlink
is made of a few primitive steps: moving the current window, removing a
winlink, copying a tree inside a group, renumbering, destroying. `ShrinkStep`
lists them, with the set `T` of sessions they touch and the set `W` of windows
they may change; an operation is shown once to be a sequence of them, and each
invariant is shown once to survive each.
-/

namespace Newmux.Logic

open Newmux.Base Newmux.Tmux Newmux.Recovery

/-- The windows a session links, in index order. -/
def Session.order (s : Session) : List Nat := s.windows.map Winlink.window

/-- `j` is `s` or a member of its group. -/
def InGroup (sv : Server) (s j : Nat) : Prop :=
  j = s ∨ ∃ sg ∈ sv.groups, s ∈ sg ∧ j ∈ sg

theorem InGroup.refl (sv : Server) (s : Nat) : InGroup sv s s := .inl rfl

theorem InGroup.symm {sv : Server} {s j : Nat} (h : InGroup sv s j) : InGroup sv j s := by
  rcases h with rfl | ⟨sg, hsg, hs, hj⟩
  · exact .refl sv _
  · exact .inr ⟨sg, hsg, hj, hs⟩

theorem groupContains_some {sv : Server} {s : Nat} {sg : List Nat}
    (h : sessionGroupContains sv s = some sg) : sg ∈ sv.groups ∧ s ∈ sg :=
  ⟨List.mem_of_find?_eq_some h, by simpa using List.find?_some h⟩

theorem inGroup_of_contains {sv : Server} {s j : Nat} {sg : List Nat}
    (h : sessionGroupContains sv s = some sg) (hj : j ∈ sg) : InGroup sv s j :=
  .inr ⟨sg, (groupContains_some h).1, (groupContains_some h).2, hj⟩

/-- One primitive step, touching only sessions in `T` and changing only windows in `W`. -/
inductive ShrinkStep (T W : Nat → Prop) (sv : Server) : Server → Prop
  | kept {sv' : Server} (h : SessionsKept sv sv') (hw : WindowsKept W sv sv') :
      ShrinkStep T W sv sv'
  | move {s s' : Session} (hT : T s.id) (hs : sessionFindById sv s.id = some s)
      (h : SameTree s s') : ShrinkStep T W sv (sv.setSession s')
  | unlink {s s' : Session} {ptr : Nat} (hT : T s.id) (hs : sessionFindById sv s.id = some s)
      (hid : s'.id = s.id) (hname : s'.name = s.name) (hopt : s'.options = s.options)
      (hw : s'.windows = winlinkRemove s.windows ptr) : ShrinkStep T W sv (sv.setSession s')
  | sync {t m : Session} (hT : T m.id) (ht : sessionFindById sv t.id = some t)
      (hm : sessionFindById sv m.id = some m) (hg : InGroup sv t.id m.id) :
      ShrinkStep T W sv
        { sv.setSession (synchronizeLinks t m sv.nextPtr) with
          nextPtr := sv.nextPtr + t.windows.length }
  | shuffle {s : Session} {wl : Winlink} {before : Bool} {idx : Nat} {wwl : Winlinks}
      (hT : T s.id) (hs : sessionFindById sv s.id = some s)
      (h : winlinkShuffleUp s.windows wl before = some (idx, wwl)) :
      ShrinkStep T W sv (sv.setSession { s with windows := wwl })
  | renumber {s : Session} (hT : T s.id) (hs : sessionFindById sv s.id = some s) :
      ShrinkStep T W sv
        { sv.setSession (sessionRenumberWindows s sv.nextPtr) with
          nextPtr := sv.nextPtr + s.windows.length }
  | destroy {id : Nat} (hT : T id) :
      ShrinkStep T W sv (sessionGroupRemove { sv with sessions := Table.remove sv.sessions id } id)

/-- A sequence of primitive steps. -/
abbrev Shrink (T W : Nat → Prop) : Server → Server → Prop := Relation.ReflTransGen (ShrinkStep T W)

theorem Shrink.of_kept {T : Nat → Prop} {sv sv' : Server} (h : SessionsKept sv sv') :
    Shrink T (fun _ => True) sv sv' :=
  .single (.kept h ⟨fun _ h _ => absurd trivial h, fun _ _ h _ => absurd trivial h⟩)

/-! ## What one step leaves alone -/

theorem synchronizeLinks_id (t m : Session) (ptr : Nat) :
    (synchronizeLinks t m ptr).id = m.id ∧ (synchronizeLinks t m ptr).name = m.name ∧
      (synchronizeLinks t m ptr).options = m.options ∧
      (synchronizeLinks t m ptr).windows = relink ptr t.windows := by
  have hleave := sessionLeaveCurrent_same m
  unfold synchronizeLinks
  cases m.curLink with
  | none => exact ⟨rfl, rfl, rfl, rfl⟩
  | some cur =>
      by_cases hgone : (winlinkFindByIndex t.windows cur.idx).isNone
      · simp only [hgone, if_true]
        exact ⟨hleave.id, hleave.name, hleave.options, trivial⟩
      · simp only [hgone]
        exact ⟨rfl, rfl, rfl, trivial⟩

/-- What a lookup sees after a session is written back. -/
theorem sessionFindById_set {sv : Server} {s s' : Session} {j : Nat} (hid : s'.id = s.id)
    (hs : sessionFindById sv s.id = some s) :
    sessionFindById (sv.setSession s') j = if j = s.id then some s' else sessionFindById sv j := by
  rw [sessionFindById_setSession, hid]
  split
  · next h => rw [h, hs]; rfl
  · rfl

/-- What a step can make of a session: its old tree with links removed or
renumbered, or a copy of another member's. -/
inductive Derived (sv : Server) (s s' : Session) : Prop
  | own (h : (Session.order s').Sublist (Session.order s))
  | copied (t : Session) (ht : sessionFindById sv t.id = some t) (hg : InGroup sv t.id s.id)
      (h : Session.order s' = Session.order t)

private theorem set_derived {T : Nat → Prop} {sv : Server} {s s₁ : Session} (hT : T s.id)
    (hs : sessionFindById sv s.id = some s) (hid : s₁.id = s.id) (hname : s₁.name = s.name)
    (hopt : s₁.options = s.options) (hd : Derived sv s s₁) {j : Nat} {s' : Session}
    (hj : sessionFindById (sv.setSession s₁) j = some s') :
    ∃ s, sessionFindById sv j = some s ∧ s'.name = s.name ∧ s'.options = s.options ∧
      Derived sv s s' ∧ (¬ T j → s' = s) := by
  rw [sessionFindById_set hid hs] at hj
  split at hj
  · next he =>
      cases hj
      exact ⟨s, by rw [he, hs], hname, hopt, hd, fun hn => absurd (he ▸ hT) hn⟩
  · exact ⟨s', hj, rfl, rfl, .own (List.Sublist.refl _), fun _ => rfl⟩

private theorem Derived.of_order_eq {sv : Server} {s s' : Session}
    (h : Session.order s' = Session.order s) : Derived sv s s' :=
  .own (h ▸ List.Sublist.refl _)

theorem order_shuffle {s : Session} (hs : Sorted s.windows) {wl : Winlink} {before : Bool}
    {idx : Nat} {wwl : Winlinks} (h : winlinkShuffleUp s.windows wl before = some (idx, wwl)) :
    wwl.map Winlink.window = Session.order s := by
  obtain ⟨-, last, -, -, -, -, hw⟩ := winlinkShuffleUp_spec hs h
  have hcomp : Winlink.window ∘ Winlink.bump idx last = Winlink.window :=
    funext fun wl => Winlink.bump_window idx last wl
  rw [hw, List.map_map, hcomp]
  rfl

/-- Every session after a step was there before, under the same name, and links
only what it or its group linked. -/
theorem ShrinkStep.find_some {T W : Nat → Prop} {sv sv' : Server} (h : ShrinkStep T W sv sv')
    (htrees : ∀ id s, sessionFindById sv id = some s → Sorted s.windows) {j : Nat}
    {s' : Session} (hj : sessionFindById sv' j = some s') :
    ∃ s, sessionFindById sv j = some s ∧ s'.name = s.name ∧ s'.options = s.options ∧
      Derived sv s s' ∧ (¬ T j → s' = s) := by
  cases h with
  | kept h hw =>
      rw [h.find] at hj
      exact ⟨s', hj, rfl, rfl, .own (List.Sublist.refl _), fun _ => rfl⟩
  | move hT hs h =>
      refine set_derived hT hs h.id h.name h.options (.of_order_eq ?_) hj
      unfold Session.order
      rw [h.windows]
  | unlink hT hs hid hname hopt hw =>
      refine set_derived hT hs hid hname hopt (.own ?_) hj
      unfold Session.order
      rw [hw]
      exact List.filter_sublist.map _
  | @sync t m hT ht hm hg =>
      obtain ⟨hid, hname, hopt, hw⟩ := synchronizeLinks_id t m sv.nextPtr
      refine set_derived hT hm hid hname hopt (.copied t ht hg ?_) hj
      unfold Session.order
      rw [hw, relink_windows]
  | @shuffle s wl before idx wwl hT hs h =>
      have horder : Session.order { s with windows := wwl } = Session.order s :=
        order_shuffle (htrees _ s hs) h
      refine set_derived hT hs ?_ ?_ ?_ (.of_order_eq horder) hj <;> rfl
  | @renumber s hT hs =>
      have horder : Session.order (sessionRenumberWindows s sv.nextPtr) = Session.order s :=
        renumber_windows _ _ _
      refine set_derived hT hs ?_ ?_ ?_ (.of_order_eq horder) hj <;> rfl
  | @destroy id hT =>
      change Table.find (Table.remove sv.sessions id) j = some s' at hj
      rw [Table.find_remove] at hj
      split at hj
      · cases hj
      · exact ⟨s', hj, rfl, rfl, .own (List.Sublist.refl _), fun _ => rfl⟩

/-- A session outside the touched set is still there, unchanged. -/
theorem ShrinkStep.frame {T W : Nat → Prop} {sv sv' : Server} (h : ShrinkStep T W sv sv') {j : Nat}
    (hj : ¬ T j) : sessionFindById sv' j = sessionFindById sv j := by
  have hset : ∀ {s s₁ : Session}, T s.id → sessionFindById sv s.id = some s → s₁.id = s.id →
      sessionFindById (sv.setSession s₁) j = sessionFindById sv j := by
    intro s s₁ hT hs hid
    rw [sessionFindById_set hid hs, if_neg]
    rintro rfl
    exact hj hT
  cases h with
  | kept h hw => exact h.find j
  | move hT hs h => exact hset hT hs h.id
  | unlink hT hs hid => exact hset hT hs hid
  | sync hT _ hm => exact hset hT hm (synchronizeLinks_id _ _ _).1
  | shuffle hT hs _ => exact hset hT hs rfl
  | renumber hT hs => exact hset hT hs rfl
  | @destroy id hT =>
      change Table.find (Table.remove sv.sessions id) j = Table.find sv.sessions j
      rw [Table.find_remove, if_neg]
      rintro rfl
      exact hj hT

theorem set_names {sv : Server} (hu : Table.Unique sv.sessions) {s s₁ : Session}
    (hs : sessionFindById sv s.id = some s) (hid : s₁.id = s.id) (hname : s₁.name = s.name) :
    ((sv.setSession s₁).sessions.map fun s => (s.id, s.name)) =
      sv.sessions.map fun s => (s.id, s.name) := by
  simp only [Server.setSession, Table.modify, List.map_map]
  refine List.map_congr_left fun a ha => ?_
  simp only [Function.comp]
  split
  · next he =>
      have hfind : sessionFindById sv a.id = some a := Table.find_of_mem hu ha
      have he' : a.id = s.id := he.trans hid
      rw [he', hs] at hfind
      cases hfind
      rw [hid, hname]
  · rfl

/-- Sessions only disappear. -/
theorem ShrinkStep.names {T W : Nat → Prop} {sv sv' : Server} (h : ShrinkStep T W sv sv')
    (hu : Table.Unique sv.sessions) :
    (sv'.sessions.map fun s => (s.id, s.name)).Sublist
      (sv.sessions.map fun s => (s.id, s.name)) := by
  cases h with
  | kept h => rw [h.sessions]
  | move _ hs h => rw [set_names hu hs h.id h.name]
  | unlink _ hs hid hname => rw [set_names hu hs hid hname]
  | sync _ _ hm =>
      change List.Sublist ((sv.setSession _).sessions.map _) _
      rw [set_names hu hm (synchronizeLinks_id _ _ _).1 (synchronizeLinks_id _ _ _).2.1]
  | @shuffle s _ _ _ wwl _ hs =>
      have hid : ({ s with windows := wwl } : Session).id = s.id := rfl
      rw [set_names hu hs hid rfl]
  | @renumber s _ hs =>
      have hid : (sessionRenumberWindows s sv.nextPtr).id = s.id := rfl
      change List.Sublist ((sv.setSession _).sessions.map _) _
      rw [set_names hu hs hid rfl]
  | destroy => exact List.filter_sublist.map _

/-- Groups only lose members. -/
theorem ShrinkStep.inGroup {T W : Nat → Prop} {sv sv' : Server} (h : ShrinkStep T W sv sv')
    {i j : Nat} (hg : InGroup sv' i j) : InGroup sv i j := by
  cases h with
  | kept h hw => simpa only [InGroup, h.groups] using hg
  | destroy _ =>
      rcases hg with rfl | ⟨sg, hsg, hi, hj⟩
      · exact .refl sv _
      · simp only [sessionGroupRemove, List.mem_filter, List.mem_map] at hsg
        obtain ⟨⟨sg, hsg, rfl⟩, -⟩ := hsg
        exact .inr ⟨sg, hsg, List.mem_of_mem_filter hi, List.mem_of_mem_filter hj⟩
  | _ => exact hg

/-- Members that are still there are still in one group. -/
theorem ShrinkStep.inGroup_of {T W : Nat → Prop} {sv sv' : Server} (h : ShrinkStep T W sv sv')
    {i j : Nat} {si sj : Session} (hi : sessionFindById sv' i = some si)
    (hj : sessionFindById sv' j = some sj) (hg : InGroup sv i j) : InGroup sv' i j := by
  cases h with
  | kept h hw => simpa only [InGroup, h.groups] using hg
  | @destroy id _ =>
      change Table.find (Table.remove sv.sessions id) i = some si at hi
      change Table.find (Table.remove sv.sessions id) j = some sj at hj
      rw [Table.find_remove] at hi hj
      have hi' : i ≠ id := fun he => by simp [he] at hi
      have hj' : j ≠ id := fun he => by simp [he] at hj
      rcases hg with rfl | ⟨sg, hsg, his, hjs⟩
      · exact .refl _ _
      · have hin : i ∈ sg.filter (· != id) := List.mem_filter.mpr ⟨his, by simpa using hi'⟩
        refine .inr ⟨sg.filter (· != id), ?_, hin, List.mem_filter.mpr ⟨hjs, by simpa using hj'⟩⟩
        simp only [sessionGroupRemove, List.mem_filter, List.mem_map]
        refine ⟨⟨sg, hsg, rfl⟩, ?_⟩
        cases hnil : sg.filter (· != id) with
        | nil => rw [hnil] at hin; exact absurd hin List.not_mem_nil
        | cons _ _ => rfl
  | _ => exact hg

theorem ShrinkStep.counters {T W : Nat → Prop} {sv sv' : Server} (h : ShrinkStep T W sv sv') :
    sv'.nextSessionId = sv.nextSessionId ∧ sv.nextPtr ≤ sv'.nextPtr ∧
      sv.nextWindowId ≤ sv'.nextWindowId := by
  cases h with
  | kept h hw => exact ⟨h.nextSessionId, h.nextPtr.ge, h.nextWindowId⟩
  | sync | renumber => exact ⟨rfl, Nat.le_add_right _ _, le_rfl⟩
  | _ => exact ⟨rfl, le_rfl, le_rfl⟩

/-! ## The invariants of the session table -/

/-- Groups are disjoint. -/
structure GroupsOk (sv : Server) : Prop where
  nodup : ∀ sg ∈ sv.groups, sg.Nodup
  disjoint : ∀ sg ∈ sv.groups, ∀ sg' ∈ sv.groups, ∀ j, j ∈ sg → j ∈ sg' → sg = sg'

theorem GroupsOk.trans {sv : Server} (h : GroupsOk sv) {i j k : Nat} (hij : InGroup sv i j)
    (hjk : InGroup sv j k) : InGroup sv i k := by
  rcases hij with rfl | ⟨sg, hsg, hi, hj⟩
  · exact hjk
  · rcases hjk with rfl | ⟨sg', hsg', hj', hk⟩
    · exact .inr ⟨sg, hsg, hi, hj⟩
    · rw [← h.disjoint sg hsg sg' hsg' j hj hj'] at hk
      exact .inr ⟨sg, hsg, hi, hk⟩

/-- Ids and names are unique, every session's winlinks form a tree, groups are
disjoint. -/
structure TreesOk (sv : Server) : Prop where
  unique : Table.Unique sv.sessions
  names : (sv.sessions.map Session.name).Nodup
  ids : ∀ s ∈ sv.sessions, s.id < sv.nextSessionId
  tree : ∀ id s, sessionFindById sv id = some s → TreeOk sv.nextPtr s.windows
  groups : GroupsOk sv

/-- Among the sessions in `P`, a window is linked at most once in a session, and
two sessions that link the same window are in one group. -/
structure LinksOn (P : Nat → Prop) (sv : Server) : Prop where
  once : ∀ id s, P id → sessionFindById sv id = some s → (Session.order s).Nodup
  shared : ∀ i j si sj w, P i → P j → sessionFindById sv i = some si →
    sessionFindById sv j = some sj → w ∈ Session.order si → w ∈ Session.order sj →
      InGroup sv i j

/-- Linked windows have been created. -/
def Created (sv : Server) : Prop :=
  ∀ id s w, sessionFindById sv id = some s → w ∈ Session.order s → w < sv.nextWindowId

/-- The session is a member of some group. -/
def Grouped (sv : Server) (j : Nat) : Prop := ∃ sg ∈ sv.groups, j ∈ sg

theorem set_tree {sv : Server} {n : Nat} {s s₁ : Session} (hn : sv.nextPtr ≤ n)
    (h : TreesOk sv) (hs : sessionFindById sv s.id = some s) (hid : s₁.id = s.id)
    (ht : TreeOk n s₁.windows) {j : Nat} {s' : Session}
    (hj : sessionFindById (sv.setSession s₁) j = some s') : TreeOk n s'.windows := by
  rw [sessionFindById_set hid hs] at hj
  split at hj
  · cases hj
    exact ht
  · exact (h.tree j s' hj).mono hn

theorem ShrinkStep.treesOk {T W : Nat → Prop} {sv sv' : Server} (h : ShrinkStep T W sv sv')
    (hok : TreesOk sv) : TreesOk sv' := by
  have hnames := h.names hok.unique
  obtain ⟨hsid, hptr, -⟩ := h.counters
  refine ⟨?_, ?_, ?_, ?_, ?_⟩
  · have hsub : (sv'.sessions.map Session.id).Sublist (sv.sessions.map Session.id) := by
      simpa only [List.map_map, Function.comp_def] using hnames.map Prod.fst
    exact hsub.nodup hok.unique
  · have hsub : (sv'.sessions.map Session.name).Sublist (sv.sessions.map Session.name) := by
      simpa only [List.map_map, Function.comp_def] using hnames.map Prod.snd
    exact hsub.nodup hok.names
  · intro s hs
    have hmem := hnames.subset (List.mem_map_of_mem (f := fun s => (s.id, s.name)) hs)
    obtain ⟨x, hx, hxs⟩ := List.mem_map.mp hmem
    have hid : x.id = s.id := (Prod.mk.inj hxs).1
    rw [hsid, ← hid]
    exact hok.ids x hx
  · -- each tree stays sorted, its pointers below the counter
    intro j s' hj
    cases h with
    | kept h hw =>
        rw [h.find] at hj
        exact (hok.tree j s' hj).mono hptr
    | @move s _ _ hs h =>
        exact set_tree le_rfl hok hs h.id (h.windows ▸ hok.tree _ s hs) hj
    | @unlink s _ ptr _ hs hid _ _ hw =>
        exact set_tree le_rfl hok hs hid (hw ▸ (hok.tree _ s hs).remove ptr) hj
    | @sync t m _ ht hm _ =>
        obtain ⟨hid, -, -, hw⟩ := synchronizeLinks_id t m sv.nextPtr
        exact set_tree hptr hok hm hid (hw ▸ (hok.tree _ t ht).relink _) hj
    | @shuffle s _ _ _ wwl _ hs h =>
        have hid : ({ s with windows := wwl } : Session).id = s.id := rfl
        exact set_tree le_rfl hok hs hid ((hok.tree _ s hs).shuffle h) hj
    | @renumber s _ hs =>
        have hid : (sessionRenumberWindows s sv.nextPtr).id = s.id := rfl
        exact set_tree hptr hok hs hid (TreeOk.renumber _ _ _) hj
    | @destroy id _ =>
        change Table.find (Table.remove sv.sessions id) j = some s' at hj
        rw [Table.find_remove] at hj
        split at hj
        · cases hj
        · exact hok.tree j s' hj
  · -- a group only loses sessions
    cases h with
    | kept h hw => exact ⟨by rw [h.groups]; exact hok.groups.nodup,
        by rw [h.groups]; exact hok.groups.disjoint⟩
    | destroy _ =>
        constructor
        · intro sg hsg
          simp only [sessionGroupRemove, List.mem_filter, List.mem_map] at hsg
          obtain ⟨⟨sg, hsg, rfl⟩, -⟩ := hsg
          exact (hok.groups.nodup sg hsg).sublist List.filter_sublist
        · intro sg hsg sg' hsg' j hj hj'
          simp only [sessionGroupRemove, List.mem_filter, List.mem_map] at hsg hsg'
          obtain ⟨⟨sg, hsg, rfl⟩, -⟩ := hsg
          obtain ⟨⟨sg', hsg', rfl⟩, -⟩ := hsg'
          rw [hok.groups.disjoint sg hsg sg' hsg' j (List.mem_of_mem_filter hj)
            (List.mem_of_mem_filter hj')]
    | _ => exact ⟨hok.groups.nodup, hok.groups.disjoint⟩

/-- Every window linked after a step was linked before, in the same group. -/
theorem ShrinkStep.linked_before {T W : Nat → Prop} {sv sv' : Server} (h : ShrinkStep T W sv sv')
    (hok : TreesOk sv) {j : Nat} {s' : Session} (hj : sessionFindById sv' j = some s') {w : Nat}
    (hw : w ∈ Session.order s') :
    ∃ i s, sessionFindById sv i = some s ∧ InGroup sv i j ∧ w ∈ Session.order s := by
  obtain ⟨s, hs, -, -, hder, -⟩ := h.find_some (fun id s hs => (hok.tree id s hs).sorted) hj
  have hsid : s.id = j := sessionFindById_id hs
  cases hder with
  | own hsub => exact ⟨j, s, hs, .refl sv j, hsub.subset hw⟩
  | copied t ht hg horder => exact ⟨t.id, t, ht, hsid ▸ hg, horder ▸ hw⟩

/-- A linked window, by the sessions that link it. -/
theorem linked_iff {sv : Server} (hu : Table.Unique sv.sessions) {w : Nat} :
    sv.linked w = true ↔ ∃ j s, sessionFindById sv j = some s ∧ w ∈ Session.order s := by
  simp only [Server.linked, List.any_eq_true, beq_iff_eq]
  constructor
  · rintro ⟨s, hs, wl, hwl, rfl⟩
    exact ⟨s.id, s, Table.find_of_mem hu hs, List.mem_map_of_mem hwl⟩
  · rintro ⟨j, s, hs, hw⟩
    obtain ⟨wl, hwl, rfl⟩ := List.mem_map.mp hw
    exact ⟨s, Table.find_some_mem hs, wl, hwl, rfl⟩

theorem ShrinkStep.linked {T W : Nat → Prop} {sv sv' : Server} (h : ShrinkStep T W sv sv')
    (hok : TreesOk sv) {w : Nat} (hl : sv'.linked w = true) : sv.linked w = true := by
  obtain ⟨j, s', hj, hw⟩ := (linked_iff (h.treesOk hok).unique).mp hl
  obtain ⟨i, s, hs, -, hws⟩ := h.linked_before hok hj hw
  exact (linked_iff hok.unique).mpr ⟨i, s, hs, hws⟩

theorem ShrinkStep.windows {T W : Nat → Prop} {sv sv' : Server} (h : ShrinkStep T W sv sv') :
    WindowsKept W sv sv' := by
  cases h with
  | kept h hw => exact hw
  | _ => exact .of_windows rfl

theorem ShrinkStep.linksOn {T W P : Nat → Prop} {sv sv' : Server} (h : ShrinkStep T W sv sv')
    (hok : TreesOk sv) (hP : ∀ i j, InGroup sv i j → P i → P j) (hl : LinksOn P sv) :
    LinksOn P sv' := by
  refine ⟨?_, ?_⟩
  · intro j s' hPj hj
    obtain ⟨s, hs, -, -, hder, -⟩ := h.find_some (fun id s hs => (hok.tree id s hs).sorted) hj
    cases hder with
    | own hsub => exact hsub.nodup (hl.once j s hPj hs)
    | copied t ht hg horder =>
        rw [horder]
        rw [sessionFindById_id hs] at hg
        exact hl.once _ t (hP _ _ hg.symm hPj) ht
  · intro i j si sj w hPi hPj hi hj hwi hwj
    obtain ⟨i₀, si₀, hi₀, hgi, hwi₀⟩ := h.linked_before hok hi hwi
    obtain ⟨j₀, sj₀, hj₀, hgj, hwj₀⟩ := h.linked_before hok hj hwj
    have hg₀ := hl.shared i₀ j₀ si₀ sj₀ w (hP _ _ hgi.symm hPi) (hP _ _ hgj.symm hPj) hi₀ hj₀
      hwi₀ hwj₀
    exact h.inGroup_of hi hj (hok.groups.trans (hok.groups.trans hgi.symm hg₀) hgj)

theorem ShrinkStep.created {T W : Nat → Prop} {sv sv' : Server} (h : ShrinkStep T W sv sv')
    (hok : TreesOk sv) (hc : Created sv) : Created sv' := by
  intro j s' w hj hw
  obtain ⟨i, s, hs, -, hwi⟩ := h.linked_before hok hj hw
  exact (hc i s w hs hwi).trans_le h.counters.2.2

theorem ShrinkStep.grouped {T W : Nat → Prop} {sv sv' : Server} (h : ShrinkStep T W sv sv')
    {j : Nat} (hg : Grouped sv' j) : Grouped sv j := by
  cases h with
  | kept h => simpa only [Grouped, h.groups] using hg
  | destroy _ =>
      obtain ⟨sg, hsg, hj⟩ := hg
      simp only [sessionGroupRemove, List.mem_filter, List.mem_map] at hsg
      obtain ⟨⟨sg, hsg, rfl⟩, -⟩ := hsg
      exact ⟨sg, hsg, List.mem_of_mem_filter hj⟩
  | _ => exact hg

end Newmux.Logic
