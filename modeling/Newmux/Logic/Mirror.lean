import Newmux.Base.Journal
import Newmux.Runtime.Mirror

/-!
# The books of the mirror

The windows on the closed stack, oldest first, are a list whose journal is
`lifo.jsonl`: the reserved windows are set aside, the deletes on their way are
queued, and the numbers that are restored, or about to be, are hidden. One
lemma for each thing a command can do to the stacks, and one for each call
that lands.
-/

namespace Newmux.Logic

open Newmux.Base Newmux.Tmux Newmux.Recovery Newmux.Runtime

/-- A window and the number under which it was closed. -/
abbrev Entry := Int × Nat

/-- What the native stack says of a window item. -/
def windowEntry (item : ClosedItem) : Option Entry :=
  if item.type = .window then some (item.sequence, item.windowId) else none

/-- What the mirror says of it. -/
def lineEntry (item : LifoItem) : Entry := (item.sequence, item.window)

def deleteEntry : MirrorCall → Option Entry
  | .delete item => some (lineEntry item)
  | .restore _ => none

/-- The number a restore on its way will hide. -/
def restoreNumber : MirrorCall → Option Int
  | .delete _ => none
  | .restore call => call.sequence

/-- The numbers that are hidden, or will be. -/
def hiddenNumbers (files : StackFiles) (pending : List MirrorCall) : Set Int :=
  {n | n ∈ readRestoredSequences files.restored ∨ n ∈ pending.filterMap restoreNumber}

def mirrorBooks (closed reserved : List ClosedItem) (files : StackFiles)
    (pending : List MirrorCall) : Books Entry Int where
  live := (closed.filterMap windowEntry).reverse
  aside := reserved.filterMap windowEntry
  queued := pending.filterMap deleteEntry
  journal := files.lifo.map lineEntry
  hidden := hiddenNumbers files pending

/-- A call that records something the files can hold. -/
def Recordable : MirrorCall → Prop
  | .delete item => 0 < item.sequence
  | .restore call => call.writes = true ∧ ∃ n, call.sequence = some n ∧ 0 ≤ n

/-- The windows closed later than the entry, as long as it is on the stack. -/
def closedAfter (closed : List ClosedItem) (e : Entry) : List Entry :=
  let entries := closed.filterMap windowEntry
  if e ∈ entries then entries.takeWhile (· ≠ e) else []

/-- The books of the stacks and the files are right. -/
structure Mirrors (closed reserved : List ClosedItem) (files : StackFiles)
    (pending : List MirrorCall) : Prop where
  numbers : ((closed ++ reserved).map ClosedItem.sequence).Nodup
  books : (mirrorBooks closed reserved files pending).Ok Prod.fst
  calls : ∀ call ∈ pending, Recordable call

/-- The entry of a window item. -/
theorem windowEntry_window {item : ClosedItem} (h : item.type = .window) :
    windowEntry item = some ((item.sequence : Int), item.windowId) := if_pos h

theorem windowEntry_other {item : ClosedItem} (h : item.type ≠ .window) :
    windowEntry item = none := if_neg h

theorem mem_windowEntries {items : List ClosedItem} {e : Entry}
    (h : e ∈ items.filterMap windowEntry) :
    ∃ item ∈ items, item.type = .window ∧ e = ((item.sequence : Int), item.windowId) := by
  obtain ⟨item, hitem, he⟩ := List.mem_filterMap.mp h
  unfold windowEntry at he
  split at he
  · next htype => exact ⟨item, hitem, htype, by cases he; rfl⟩
  · cases he

/-- Without the number of an item that is not among them, the entries of some
items are the same. -/
theorem windowEntries_filter {items : List ClosedItem} {n : Nat}
    (h : n ∉ items.map ClosedItem.sequence) :
    (items.filterMap windowEntry).filter (fun e => e.1 ≠ (n : Int)) =
      items.filterMap windowEntry := by
  refine List.filter_eq_self.mpr fun e he => ?_
  obtain ⟨item, hitem, -, rfl⟩ := mem_windowEntries he
  have hne : item.sequence ≠ n := fun hn => h (hn ▸ List.mem_map_of_mem hitem)
  simpa using hne

/-- The entry of the one item that carries the number is filtered out. -/
theorem windowEntries_filter_cons {items : List ClosedItem} {item : ClosedItem}
    (h : item.sequence ∉ items.map ClosedItem.sequence) :
    ((item :: items).filterMap windowEntry).filter (fun e => e.1 ≠ (item.sequence : Int)) =
      items.filterMap windowEntry := by
  by_cases htype : item.type = .window
  · rw [List.filterMap_cons_some (windowEntry_window htype),
      List.filter_cons_of_neg (by simp), windowEntries_filter h]
  · rw [List.filterMap_cons_none (windowEntry_other htype), windowEntries_filter h]

namespace Mirrors

variable {closed reserved : List ClosedItem} {files : StackFiles} {pending : List MirrorCall}

/-! ## What the commands do -/

/-- A pane is pushed: the mirror has nothing to show. -/
theorem pushOther (h : Mirrors closed reserved files pending) {item : ClosedItem}
    (htype : item.type ≠ .window)
    (hnew : item.sequence ∉ (closed ++ reserved).map ClosedItem.sequence) :
    Mirrors (item :: closed) reserved files pending := by
  refine ⟨List.nodup_cons.mpr ⟨hnew, h.numbers⟩, ?_, h.calls⟩
  have hbooks : mirrorBooks (item :: closed) reserved files pending =
      mirrorBooks closed reserved files pending := by
    simp only [mirrorBooks, List.filterMap_cons_none (windowEntry_other htype)]
  rw [hbooks]
  exact h.books

/-- A window is pushed and its delete is on its way. -/
theorem pushWindow (h : Mirrors closed reserved files pending) {item : ClosedItem}
    (htype : item.type = .window) (hpos : 0 < item.sequence)
    (hnew : item.sequence ∉ (closed ++ reserved).map ClosedItem.sequence)
    (hunused : (item.sequence : Int) ∉ files.lifo.map LifoItem.sequence ++
      readRestoredSequences files.restored ++ pending.filterMap MirrorCall.number)
    (caller : Caller) :
    Mirrors (item :: closed) reserved files (pending ++ [deleteCall caller item]) := by
  have hentry : deleteEntry (deleteCall caller item) =
      some ((item.sequence : Int), item.windowId) := by
    unfold deleteCall
    split <;> rfl
  have hrestore : restoreNumber (deleteCall caller item) = none := rfl
  have hqueued : (pending ++ [deleteCall caller item]).filterMap deleteEntry =
      pending.filterMap deleteEntry ++ [((item.sequence : Int), item.windowId)] := by
    rw [List.filterMap_append, List.filterMap_cons_some hentry, List.filterMap_nil]
  have hhidden : hiddenNumbers files (pending ++ [deleteCall caller item]) =
      hiddenNumbers files pending := by
    rw [hiddenNumbers, List.filterMap_append, List.filterMap_cons_none hrestore,
      List.filterMap_nil, List.append_nil, hiddenNumbers]
  simp only [List.mem_append, not_or] at hunused
  obtain ⟨⟨hlog, hrestored⟩, hpending⟩ := hunused
  -- the books gain the item and its delete, under a number that none of them has
  refine ⟨List.nodup_cons.mpr ⟨hnew, h.numbers⟩, ?_, ?_⟩
  · have hpush := h.books.push (a := ((item.sequence : Int), item.windowId)) ?_ ?_
    · have hbooks : mirrorBooks (item :: closed) reserved files
            (pending ++ [deleteCall caller item]) =
          { mirrorBooks closed reserved files pending with
            live := (mirrorBooks closed reserved files pending).live ++
              [((item.sequence : Int), item.windowId)]
            queued := (mirrorBooks closed reserved files pending).queued ++
              [((item.sequence : Int), item.windowId)] } := by
        simp only [mirrorBooks, List.filterMap_cons_some (windowEntry_window htype),
          List.reverse_cons, hqueued, hhidden]
      rw [hbooks]
      exact hpush
    · simp only [mirrorBooks, List.map_append, List.mem_append, not_or]
      constructor
      · intro hin
        obtain ⟨e, he, hn⟩ := List.mem_map.mp hin
        obtain ⟨line, hline, rfl⟩ := List.mem_map.mp he
        exact hlog (hn ▸ List.mem_map_of_mem hline)
      · intro hin
        obtain ⟨e, he, hn⟩ := List.mem_map.mp hin
        obtain ⟨call, hcall, hce⟩ := List.mem_filterMap.mp he
        refine hpending (List.mem_filterMap.mpr ⟨call, hcall, ?_⟩)
        cases call with
        | restore _ => cases hce
        | delete line =>
            cases hce
            exact congrArg some hn
    · rintro (hin | hin)
      · exact hrestored hin
      · obtain ⟨call, hcall, hn⟩ := List.mem_filterMap.mp hin
        refine hpending (List.mem_filterMap.mpr ⟨call, hcall, ?_⟩)
        cases call with
        | delete _ => cases hn
        | restore _ => exact hn
  · intro call hcall
    rcases List.mem_append.mp hcall with hcall | hcall
    · exact h.calls call hcall
    · rw [List.mem_singleton.mp hcall]
      unfold deleteCall
      split <;> exact Int.natCast_pos.mpr hpos

/-- A full stack drops an item that is not a window. -/
theorem evict {item : ClosedItem} (h : Mirrors (closed ++ [item]) reserved files pending)
    (htype : item.type ≠ .window) : Mirrors closed reserved files pending := by
  refine ⟨h.numbers.sublist (List.Sublist.map _ ?_), ?_, h.calls⟩
  · exact (List.sublist_append_left closed [item]).append (List.Sublist.refl reserved)
  · have hbooks : mirrorBooks (closed ++ [item]) reserved files pending =
        mirrorBooks closed reserved files pending := by
      simp only [mirrorBooks, List.filterMap_append,
        List.filterMap_cons_none (windowEntry_other htype), List.filterMap_nil, List.append_nil]
    rw [← hbooks]
    exact h.books

/-- The newest item is reserved. -/
theorem reserve {item : ClosedItem} (h : Mirrors (item :: closed) reserved files pending) :
    Mirrors closed (reserved ++ [item]) files pending := by
  have hperm : (closed ++ (reserved ++ [item])).Perm (item :: closed ++ reserved) := by
    rw [← List.append_assoc]
    exact List.perm_append_singleton item (closed ++ reserved)
  refine ⟨(hperm.map _).nodup_iff.mpr h.numbers, ?_, h.calls⟩
  refine h.books.rearrange ?_ (h.books.order_of_sublist ?_)
  · have hlive := List.reverse_perm (closed.filterMap windowEntry)
    have hlive' := List.reverse_perm ((item :: closed).filterMap windowEntry)
    have hall : (closed.filterMap windowEntry ++ (reserved ++ [item]).filterMap windowEntry).Perm
        ((item :: closed).filterMap windowEntry ++ reserved.filterMap windowEntry) := by
      rw [← List.filterMap_append, ← List.filterMap_append]
      exact hperm.filterMap windowEntry
    exact (hlive.append_right _).trans (hall.trans (hlive'.append_right _).symm)
  · exact ((List.sublist_cons_self item closed).filterMap windowEntry).reverse

/-- A call that hides a number joins those on their way. -/
theorem hiddenNumbers_restore {call : RestoreCall} {n : Int} (hn : call.sequence = some n) :
    hiddenNumbers files (pending ++ [.restore call]) =
      {k | k ∈ hiddenNumbers files pending ∨ k = n} := by
  ext k
  have hcall : restoreNumber (.restore call) = some n := hn
  simp only [hiddenNumbers, List.filterMap_append, List.filterMap_cons_some hcall,
    List.filterMap_nil, List.mem_append, List.mem_singleton, Set.mem_ofPred_eq]
  tauto

theorem recordable_snoc {call : RestoreCall} (h : Mirrors closed reserved files pending)
    (hwrites : call.writes = true) {n : Nat} (hn : call.sequence = some (n : Int)) :
    ∀ c ∈ pending ++ [.restore call], Recordable c := by
  intro c hc
  rcases List.mem_append.mp hc with hc | hc
  · exact h.calls c hc
  · rw [List.mem_singleton.mp hc]
    exact ⟨hwrites, n, hn, Int.natCast_nonneg n⟩

theorem queued_restore (call : RestoreCall) :
    (pending ++ [MirrorCall.restore call]).filterMap deleteEntry =
      pending.filterMap deleteEntry := by
  rw [List.filterMap_append, List.filterMap_cons_none rfl, List.filterMap_nil, List.append_nil]

/-- The newest item is restored, and the call that says so is on its way. -/
theorem reopen {item : ClosedItem} (h : Mirrors (item :: closed) reserved files pending)
    {call : RestoreCall} (hwrites : call.writes = true)
    (hn : call.sequence = some (item.sequence : Int)) :
    Mirrors closed reserved files (pending ++ [.restore call]) := by
  have hnumbers := h.numbers
  rw [List.cons_append, List.map_cons, List.nodup_cons, List.map_append, List.mem_append,
    not_or] at hnumbers
  obtain ⟨⟨hclosed, hreserved⟩, hrest⟩ := hnumbers
  refine ⟨by rwa [← List.map_append] at hrest, ?_, h.recordable_snoc hwrites hn⟩
  have hbooks : mirrorBooks closed reserved files (pending ++ [.restore call]) =
      { mirrorBooks (item :: closed) reserved files pending with
        live := (mirrorBooks (item :: closed) reserved files pending).live.filter
          (·.1 ≠ (item.sequence : Int))
        aside := (mirrorBooks (item :: closed) reserved files pending).aside.filter
          (·.1 ≠ (item.sequence : Int))
        hidden := {k | k ∈ hiddenNumbers files pending ∨ k = (item.sequence : Int)} } := by
    simp only [mirrorBooks, List.filter_reverse, windowEntries_filter_cons hclosed,
      windowEntries_filter hreserved, queued_restore, hiddenNumbers_restore hn]
  rw [hbooks]
  exact h.books.hide _

/-- The numbers of the two stacks, with a reserved item moved to the front. -/
theorem numbers_perm {item : ClosedItem} {reserved' : List ClosedItem}
    (hperm : reserved.Perm (item :: reserved')) :
    (closed ++ reserved).Perm (item :: closed ++ reserved') :=
  (hperm.append_left closed).trans List.perm_middle

/-- A reserved item becomes the front of a list that is a permutation of the
reserved ones. -/
theorem permReserved (h : Mirrors closed reserved files pending) {reserved' : List ClosedItem}
    (hperm : reserved.Perm reserved') : Mirrors closed reserved' files pending := by
  refine ⟨((hperm.append_left closed).map _).nodup_iff.mp h.numbers, ?_, h.calls⟩
  refine h.books.rearrange ?_ h.books.order
  exact ((hperm.filterMap windowEntry).symm.append_left _)

/-- A reserved window is restored, and the call that says so is on its way. -/
theorem claim (h : Mirrors closed reserved files pending) {item : ClosedItem}
    {reserved' : List ClosedItem} (hperm : reserved.Perm (item :: reserved'))
    {call : RestoreCall} (hwrites : call.writes = true)
    (hn : call.sequence = some (item.sequence : Int)) :
    Mirrors closed reserved' files (pending ++ [.restore call]) := by
  have hfront := h.permReserved hperm
  have hnumbers := (List.perm_middle.map ClosedItem.sequence).nodup_iff.mp hfront.numbers
  rw [List.map_cons, List.nodup_cons, List.map_append, List.mem_append, not_or] at hnumbers
  obtain ⟨⟨hclosed, hreserved⟩, hrest⟩ := hnumbers
  refine ⟨by rwa [← List.map_append] at hrest, ?_, h.recordable_snoc hwrites hn⟩
  have hbooks : mirrorBooks closed reserved' files (pending ++ [.restore call]) =
      { mirrorBooks closed (item :: reserved') files pending with
        live := (mirrorBooks closed (item :: reserved') files pending).live.filter
          (·.1 ≠ (item.sequence : Int))
        aside := (mirrorBooks closed (item :: reserved') files pending).aside.filter
          (·.1 ≠ (item.sequence : Int))
        hidden := {k | k ∈ hiddenNumbers files pending ∨ k = (item.sequence : Int)} } := by
    simp only [mirrorBooks, List.filter_reverse, windowEntries_filter_cons hreserved,
      windowEntries_filter hclosed, queued_restore, hiddenNumbers_restore hn]
  rw [hbooks]
  exact hfront.books.hide _

/-- A reserved item that is not a window leaves. -/
theorem dropOther (h : Mirrors closed reserved files pending) {item : ClosedItem}
    {reserved' : List ClosedItem} (hperm : reserved.Perm (item :: reserved'))
    (htype : item.type ≠ .window) : Mirrors closed reserved' files pending := by
  have hfront := h.permReserved hperm
  refine ⟨hfront.numbers.sublist (List.Sublist.map _ ?_), ?_, h.calls⟩
  · exact (List.Sublist.refl closed).append (List.sublist_cons_self item reserved')
  · have hbooks : mirrorBooks closed (item :: reserved') files pending =
        mirrorBooks closed reserved' files pending := by
      simp only [mirrorBooks, List.filterMap_cons_none (windowEntry_other htype)]
    rw [← hbooks]
    exact hfront.books

/-- A reserved item goes back on top of the closed stack. -/
theorem putBack (h : Mirrors closed reserved files pending) {item : ClosedItem}
    {reserved' : List ClosedItem} (hperm : reserved.Perm (item :: reserved'))
    (hlast : item.type = .window → ∀ x ∈ closed, x.type = .window →
      ¬ [((item.sequence : Int), item.windowId), ((x.sequence : Int), x.windowId)].Sublist
        (files.lifo.map lineEntry)) :
    Mirrors (item :: closed) reserved' files pending := by
  have hnumbers := ((numbers_perm hperm).map ClosedItem.sequence).nodup_iff.mp h.numbers
  by_cases htype : item.type = .window
  · refine ⟨hnumbers, ?_, h.calls⟩
    have hentry := windowEntry_window htype
    have haside : (reserved.filterMap windowEntry).Perm
        (((item.sequence : Int), item.windowId) :: reserved'.filterMap windowEntry) := by
      have := hperm.filterMap windowEntry
      rwa [List.filterMap_cons_some hentry] at this
    have hput := h.books.putBack haside ?_
    · have hbooks : mirrorBooks (item :: closed) reserved' files pending =
          { mirrorBooks closed reserved files pending with
            live := (mirrorBooks closed reserved files pending).live ++
              [((item.sequence : Int), item.windowId)]
            aside := reserved'.filterMap windowEntry } := by
        simp only [mirrorBooks, List.filterMap_cons_some hentry, List.reverse_cons]
      rw [hbooks]
      exact hput
    · intro e he
      obtain ⟨x, hx, hxtype, rfl⟩ := mem_windowEntries (List.mem_reverse.mp he)
      exact hlast htype x hx hxtype
  · have hdrop := h.dropOther hperm htype
    rw [List.cons_append, List.map_cons, List.nodup_cons] at hnumbers
    exact hdrop.pushOther htype hnumbers.1

/-- The stacks are cleared while no window is on them. -/
theorem clear (h : Mirrors closed reserved files pending)
    (hnone : ∀ item ∈ closed ++ reserved, item.type ≠ .window) : Mirrors [] [] files pending := by
  have hnil : ∀ items : List ClosedItem, (∀ item ∈ items, item.type ≠ .window) →
      items.filterMap windowEntry = [] := fun items hitems =>
    List.filterMap_eq_nil_iff.mpr fun item hitem => windowEntry_other (hitems item hitem)
  refine ⟨List.nodup_nil, ?_, h.calls⟩
  have hbooks : mirrorBooks [] [] files pending = mirrorBooks closed reserved files pending := by
    simp only [mirrorBooks, hnil closed fun item hi => hnone item (List.mem_append_left _ hi),
      hnil reserved fun item hi => hnone item (List.mem_append_right _ hi), List.filterMap_nil]
  rw [hbooks]
  exact h.books

/-- What a push leaves on the stack, if it drops no window. -/
theorem trim {item : ClosedItem} (h : Mirrors (item :: closed) reserved files pending)
    (hbound : closed.length ≤ newmuxRecoveryMaxItems)
    (hlast : closed.length = newmuxRecoveryMaxItems →
      ∀ x ∈ closed.getLast?, x.type ≠ .window) :
    Mirrors ((item :: closed).take newmuxRecoveryMaxItems) reserved files pending := by
  rcases hbound.lt_or_eq with hlt | hfull
  · rwa [List.take_of_length_le (by simpa using hlt)]
  · obtain ⟨rest, x, rfl⟩ : ∃ rest x, closed = rest ++ [x] := by
      rcases List.eq_nil_or_concat closed with rfl | ⟨rest, x, hx⟩
      · exact absurd hfull (by decide)
      · exact ⟨rest, x, by simpa using hx⟩
    have hlen : (item :: rest).length = newmuxRecoveryMaxItems := by simpa using hfull
    have htake : (item :: (rest ++ [x])).take newmuxRecoveryMaxItems = item :: rest := by
      rw [← List.cons_append, ← hlen, List.take_left]
    rw [htake]
    exact evict h (hlast hfull x (by simp))

/-! ## What lands -/

theorem mem_closedAfter (h : Mirrors closed reserved files pending) {e : Entry}
    {before after : List Entry}
    (hsplit : (closed.filterMap windowEntry).reverse = before ++ e :: after) {x : Entry}
    (hx : x ∈ after) : x ∈ closedAfter closed e := by
  have hnodup : (before ++ e :: after).Nodup := hsplit ▸ h.books.live_nodup
  have hentries : closed.filterMap windowEntry = after.reverse ++ e :: before.reverse := by
    rw [← List.reverse_reverse (closed.filterMap windowEntry), hsplit]
    simp
  have hafter : ∀ y ∈ after.reverse, decide (y ≠ e) = true := by
    intro y hy
    have hy : y ∈ after := List.mem_reverse.mp hy
    have hcons := (List.nodup_append.mp hnodup).2.1
    exact decide_eq_true fun he => (List.nodup_cons.mp hcons).1 (he ▸ hy)
  have hmem : e ∈ closed.filterMap windowEntry := by
    rw [hentries]
    exact List.mem_append_right _ List.mem_cons_self
  simp only [closedAfter, if_pos hmem]
  rw [hentries, List.takeWhile_append_of_pos hafter]
  exact List.mem_append_left _ (List.mem_reverse.mpr hx)

/-- A delete lands, and no window closed later is in the file. -/
theorem landDelete (h : Mirrors closed reserved files pending) {line : LifoItem}
    {pending' : List MirrorCall} (hperm : pending.Perm (.delete line :: pending'))
    (hfirst : ∀ x ∈ closedAfter closed (lineEntry line), x ∉ files.lifo.map lineEntry) :
    Mirrors closed reserved ((MirrorCall.delete line).land files) pending' := by
  have hmem : MirrorCall.delete line ∈ pending := hperm.mem_iff.mpr List.mem_cons_self
  have hqueued : (pending.filterMap deleteEntry).Perm
      (lineEntry line :: pending'.filterMap deleteEntry) := hperm.filterMap deleteEntry
  have hpos : 0 < line.sequence := h.calls _ hmem
  -- the file has no line with the number yet
  have hmissing : (readLifoItems files true).any (fun x => x.sequence == line.sequence) =
      false := by
    refine List.any_eq_false.mpr fun x hx => ?_
    have hx : x ∈ files.lifo := (List.mem_filter.mp hx).1
    have hwritten := h.books.written
    simp only [mirrorBooks, List.map_append] at hwritten
    have hdisjoint := List.disjoint_of_nodup_append hwritten
    simp only [beq_iff_eq]
    intro he
    refine hdisjoint (List.mem_map_of_mem (List.mem_map_of_mem hx)) ?_
    have hline : line.sequence ∈ (pending.filterMap deleteEntry).map Prod.fst :=
      List.mem_map_of_mem (hqueued.mem_iff.mpr List.mem_cons_self)
    show x.sequence ∈ _
    rw [he]
    exact hline
  have hland : (MirrorCall.delete line).land files =
      { files with lifo := files.lifo ++ [line] } := by
    simp only [MirrorCall.land, appendLifoItemIfMissing, if_neg (not_le.mpr hpos), hmissing,
      Bool.false_eq_true, if_false]
  have hhidden : hiddenNumbers { files with lifo := files.lifo ++ [line] } pending' =
      hiddenNumbers files pending := by
    ext k
    have hk := (hperm.filterMap restoreNumber).mem_iff (a := k)
    rw [List.filterMap_cons_none rfl] at hk
    exact or_congr_right hk.symm
  rw [hland]
  refine ⟨h.numbers, ?_, fun call hcall => h.calls call (hperm.mem_iff.mpr
    (List.mem_cons_of_mem _ hcall))⟩
  have hwrite := h.books.write hqueued fun before after hsplit x hx =>
    hfirst x (h.mem_closedAfter hsplit hx)
  have hbooks : mirrorBooks closed reserved { files with lifo := files.lifo ++ [line] } pending' =
      { mirrorBooks closed reserved files pending with
        queued := pending'.filterMap deleteEntry
        journal := (mirrorBooks closed reserved files pending).journal ++ [lineEntry line] } := by
    simp only [mirrorBooks, hhidden, List.map_append, List.map_cons, List.map_nil]
  rw [hbooks]
  exact hwrite

/-- A restore lands: the number that was to be hidden is. -/
theorem landRestore (h : Mirrors closed reserved files pending) {call : RestoreCall}
    {pending' : List MirrorCall} (hperm : pending.Perm (.restore call :: pending')) :
    Mirrors closed reserved ((MirrorCall.restore call).land files) pending' := by
  have hmem : MirrorCall.restore call ∈ pending := hperm.mem_iff.mpr List.mem_cons_self
  obtain ⟨hwrites, n, hn, hpos⟩ := h.calls _ hmem
  obtain ⟨numbers, hnumbers, hmemNumbers⟩ := restoreCall_write hwrites files.restored
  have hland : (MirrorCall.restore call).land files = { files with restored := some numbers } := by
    simp only [MirrorCall.land, hnumbers, Option.getD_some]
  have hread : ∀ k, k ∈ readRestoredSequences (some numbers) ↔
      k ∈ readRestoredSequences files.restored ∨ k = n := by
    intro k
    rw [mem_readRestored, Option.getD_some, hmemNumbers, hn, Option.some.injEq,
      @eq_comm _ n k]
    constructor
    · exact And.left
    · rintro (hk | rfl)
      · exact ⟨.inl hk, (mem_readRestored.mp hk).2⟩
      · exact ⟨.inr rfl, hpos⟩
  have hhidden : hiddenNumbers { files with restored := some numbers } pending' =
      hiddenNumbers files pending := by
    ext k
    have hcall : restoreNumber (.restore call) = some n := hn
    have hk := (hperm.filterMap restoreNumber).mem_iff (a := k)
    rw [List.filterMap_cons_some hcall, List.mem_cons] at hk
    simp only [hiddenNumbers, Set.mem_ofPred_eq, hread, hk]
    tauto
  have hqueued : (pending.filterMap deleteEntry).Perm (pending'.filterMap deleteEntry) :=
    hperm.filterMap deleteEntry
  rw [hland]
  refine ⟨h.numbers, ?_, fun c hc => h.calls c (hperm.mem_iff.mpr (List.mem_cons_of_mem _ hc))⟩
  have hbooks : mirrorBooks closed reserved { files with restored := some numbers } pending' =
      { mirrorBooks closed reserved files pending with
        queued := pending'.filterMap deleteEntry } := by
    simp only [mirrorBooks, hhidden]
  rw [hbooks]
  exact h.books.requeue hqueued

/-- **The files show the stack** once everything has landed and no window is
reserved. -/
theorem shown (h : Mirrors closed reserved files [])
    (hreserved : ∀ item ∈ reserved, item.type ≠ .window) :
    (readLifoItems files false).map lineEntry = (closed.filterMap windowEntry).reverse := by
  have haside : reserved.filterMap windowEntry = [] :=
    List.filterMap_eq_nil_iff.mpr fun item hitem => windowEntry_other (hreserved item hitem)
  have hshown := h.books.shown rfl haside
    (p := fun e => decide (e.1 ∉ readRestoredSequences files.restored)) (by
      intro e _
      rw [decide_eq_true_eq]
      simp [mirrorBooks, hiddenNumbers])
  have hread : (readLifoItems files false).map lineEntry =
      (files.lifo.map lineEntry).filter
        (fun e => decide (e.1 ∉ readRestoredSequences files.restored)) := by
    simp only [readLifoItems, Bool.or_false, List.filter_map]
    rfl
  rw [hread]
  exact hshown

end Mirrors

end Newmux.Logic
