import Newmux.Logic.Runs

/-!
# A server of tabs

The server the application starts from: one session, `newmux`, with one window
of one pane for each tab. Runs from it are what the concrete witnesses and
counterexamples are about.
-/

namespace Newmux.Logic

open Newmux.Base Newmux.Tmux Newmux.Recovery

/-- Tab `i`'s pane, running an editor that has marked it dirty. -/
def tabPane (i : Nat) : Pane :=
  { id := i, window := i, sx := 80, sy := 24, xoff := 0, yoff := 0, fd := some 0, modes := [],
    argv := ["vi"], shell := none, osName := some "vi", dirtyOption := some "1",
    base := ⟨Grid.create 80 24 2000, none⟩, historyProtected := false,
    scrollbarWidth := 1, scrollbarPad := 0 }

/-- Tab `i`'s window. -/
def tabWindow (i : Nat) : Window :=
  { id := i, name := "vi", panes := [i], lastPanes := [], active := some i,
    layoutRoot := some (.pane ⟨80, 24, 0, 0⟩ (some i)), savedLayoutRoot := none, zoomed := false,
    sx := 80, sy := 24, options := ⟨0, .off, .off, .right⟩ }

/-- The `newmux` session with `n` tabs, the first one current. -/
def tabSession (n : Nat) : Session :=
  { id := 0, name := "newmux", curw := some 0, lastw := [],
    windows := (List.range n).map fun i => ⟨i, i, i⟩, options := ⟨0, false⟩ }

def tabServer (n : Nat) : Server :=
  { sessions := [tabSession n], groups := [], windows := (List.range n).map tabWindow,
    panes := (List.range n).map tabPane, nextSessionId := 1, nextWindowId := n,
    nextPaneId := n, nextPtr := n, globalSOptions := ⟨0, false⟩,
    globalWOptions := ⟨0, .off, .off, .right⟩ }

/-- Nothing has been closed yet. -/
def tabState (n : Nat) : State :=
  { server := tabServer n, closedStack := [], reservedStack := [], closedNextSequence := 0,
    closedCount := 0 }

/-- A delete's target: tab `i`, at its first index. -/
def tab (i : Nat) : Target := ⟨0, ⟨i, i, i⟩, none⟩

theorem tabState_fresh (n : Nat) : Fresh (tabState n) := ⟨rfl, rfl, rfl, rfl⟩

theorem tabServer_find {n id : Nat} {s : Session}
    (h : sessionFindById (tabServer n) id = some s) : s = tabSession n ∧ id = 0 := by
  have hmem : s ∈ [tabSession n] := Table.find_some_mem h
  have hid := sessionFindById_id h
  have hs : s = tabSession n := List.mem_singleton.mp hmem
  exact ⟨hs, by rw [← hid, hs]; rfl⟩

theorem tabSession_order (n : Nat) : Session.order (tabSession n) = List.range n := by
  simp [Session.order, tabSession, Function.comp_def]

theorem tabServer_treesOk (n : Nat) : TreesOk (tabServer n) := by
  refine ⟨List.nodup_singleton _, List.nodup_singleton _, ?_, ?_, ⟨?_, ?_⟩⟩
  · intro s hs
    rw [List.mem_singleton.mp hs]
    exact Nat.one_pos
  · intro id s h
    rw [(tabServer_find h).1]
    refine ⟨?_, ?_, ?_⟩
    · exact List.pairwise_map.mpr List.pairwise_lt_range
    · simpa [tabSession, Function.comp_def] using List.nodup_range
    · intro wl hwl
      obtain ⟨i, hi, rfl⟩ := List.mem_map.mp hwl
      exact List.mem_range.mp hi
  · intro sg hsg
    exact absurd hsg List.not_mem_nil
  · intro sg hsg
    exact absurd hsg List.not_mem_nil

theorem tabServer_created (n : Nat) : Created (tabServer n) := by
  intro id s w h hw
  rw [(tabServer_find h).1, tabSession_order] at hw
  exact List.mem_range.mp hw

/-! ## Gaps between the tabs -/

/-- The `newmux` session with tabs at the given indexes. -/
def tabsAtSession (indexes : List Nat) : Session :=
  { tabSession indexes.length with windows := indexes.zipIdx.map fun p => ⟨p.2, p.1, p.2⟩ }

def tabsAt (indexes : List Nat) : Server :=
  { tabServer indexes.length with sessions := [tabsAtSession indexes] }

/-! ## A split tab -/

/-- A tab split into three panes side by side. -/
def splitWindow : Window :=
  { tabWindow 0 with
    panes := [0, 1, 2]
    layoutRoot := some (.split .leftRight ⟨80, 24, 0, 0⟩
      [.pane ⟨26, 24, 0, 0⟩ (some 0), .pane ⟨26, 24, 27, 0⟩ (some 1),
        .pane ⟨26, 24, 54, 0⟩ (some 2)]) }

/-- The `i`th pane of the split tab. -/
def splitTabPane (i : Nat) : Pane :=
  { tabPane i with window := 0, sx := 26, xoff := 27 * i }

def splitServer : Server :=
  { tabServer 1 with
    windows := [splitWindow], panes := (List.range 3).map splitTabPane, nextPaneId := 3 }

/-- Nothing has been closed yet. -/
def splitState : State := { tabState 1 with server := splitServer }

/-- A delete's target: a pane of the split tab. -/
def splitPane (wp : Nat) : Target := ⟨0, ⟨0, 0, 0⟩, some wp⟩

theorem splitState_fresh : Fresh splitState := ⟨rfl, rfl, rfl, rfl⟩

theorem splitServer_treesOk : TreesOk splitServer :=
  have h := tabServer_treesOk 1
  ⟨h.unique, h.names, h.ids, h.tree, ⟨h.groups.nodup, h.groups.disjoint⟩⟩

end Newmux.Logic
