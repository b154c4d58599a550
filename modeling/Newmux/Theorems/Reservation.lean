import Newmux.Logic.Tabs

/-!
# Reservation integrity

The application and the start script of a tab hold only the number that a
reserve printed. A ledger beside the server records the numbers that deletions
were given and the items that reserves, claims and releases have worked on.
Clearing the recently closed items starts the numbers again from one, so the
next deletion repeats a number that has been printed.
-/

namespace Newmux.Theorems

open Newmux.Base Newmux.Tmux Newmux.Recovery Newmux.Logic

/-- The server with the history of its numbers. -/
structure Ledger where
  state : State
  /-- The number of each deletion, in order. -/
  issued : List Nat
  /-- Each reserved item with the number its reserve prints. -/
  reserved : List (Nat × ClosedItem)
  /-- Each item a claim or a release took, with the number it was given. -/
  acted : List (Nat × ClosedItem)
  /-- The stacks have been cleared after a deletion. -/
  cleared : Bool

/-- What a reserve takes. -/
def reservedNow (σ : State) : Event → List (Nat × ClosedItem)
  | .reserveLatestClosed _ => (σ.closedStack.head?.map fun item => (item.sequence, item)).toList
  | _ => []

/-- What a claim or a release of a number takes. -/
def takenNow (σ : State) (value : Option String) : List (Nat × ClosedItem) :=
  match reservedSequence value with
  | .error _ => []
  | .ok n =>
      ((σ.reservedStack.find? (fun item => item.sequence == n)).map fun item => (n, item)).toList

def actedNow (σ : State) : Event → List (Nat × ClosedItem)
  | .claimReservedClosed value _ _ => takenNow σ value
  | .releaseReservedClosed value _ => takenNow σ value
  | _ => []

def isClear : Event → Bool
  | .clearRecentlyClosed => true
  | _ => false

/-- Run one event and write it down. -/
def Ledger.record (L : Ledger) (l : Event) : Ledger :=
  { state := exec L.state l
    issued := L.issued ++ if parks L.state l then [nextSequence L.state] else []
    reserved := L.reserved ++ reservedNow L.state l
    acted := L.acted ++ actedNow L.state l
    cleared := L.cleared || (isClear l && !L.issued.isEmpty) }

/-- An empty ledger. -/
def Ledger.start (σ : State) : Ledger := ⟨σ, [], [], [], false⟩

def ledgerSystem : TSys Ledger Event where
  init L := ∃ σ, Fresh σ ∧ TreesOk σ.server ∧ L = .start σ
  step L l L' := l.Valid L.state.server ∧ L' = L.record l

/-- No number is given twice, and a claim or a release of a number takes the
item, the only item, whose reserve printed that number. -/
structure Integrity (L : Ledger) : Prop where
  distinct : L.issued.Nodup
  acts : ∀ n y, (n, y) ∈ L.acted → (n, y) ∈ L.reserved ∧ ∀ x, (n, x) ∈ L.reserved → x = y

/-- Nothing is deleted after a clear that followed a deletion, and fewer than
`2 ^ 32` deletions have been numbered. -/
def NumbersLeft (L : Ledger) (l : Event) : Prop :=
  parks L.state l = true → L.cleared = false ∧ L.issued.length < 4294967296

/-! ## What a command does to the numbers -/

/-- A command moves items between the stacks, gives one deletion the next
number, or clears. -/
inductive Numbered (σ : State) (l : Event) (σ' : State) : Prop
  | moved (hparks : parks σ l = false) (hclear : isClear l = false)
      (hcounter : σ'.closedNextSequence = σ.closedNextSequence)
      (hclosed : ∀ x ∈ σ'.closedStack, x ∈ σ.closedStack ∨ x ∈ σ.reservedStack)
      (hreserved : ∀ x ∈ σ'.reservedStack, x ∈ σ.reservedStack ∨
        (x.sequence, x) ∈ reservedNow σ l)
  | deleted (hparks : parks σ l = true) (hclear : isClear l = false) (item : ClosedItem)
      (hseq : item.sequence = nextSequence σ)
      (hcounter : σ'.closedNextSequence = nextSequence σ)
      (hclosed : ∀ x ∈ σ'.closedStack, x = item ∨ x ∈ σ.closedStack)
      (hreserved : σ'.reservedStack = σ.reservedStack)
  | cleared (hparks : parks σ l = false) (hclear : isClear l = true)
      (hcounter : σ'.closedNextSequence = 0) (hclosed : σ'.closedStack = [])
      (hreserved : σ'.reservedStack = [])

/-- The stacks after a restore of an item that is off them. -/
theorem restoreOrPushBack_stacks {σ : State} (hok : StackOk σ) (target : Option Nat)
    (item : ClosedItem) (print : Bool) :
    (restoreOrPushBack σ target item print).1.closedNextSequence = σ.closedNextSequence ∧
      (restoreOrPushBack σ target item print).1.reservedStack = σ.reservedStack ∧
      StackOk (restoreOrPushBack σ target item print).1 ∧
      ∀ x ∈ (restoreOrPushBack σ target item print).1.closedStack,
        x = item ∨ x ∈ σ.closedStack := by
  rcases restoreOrPushBack_effect σ target item print with
    ⟨server, -, heq⟩ | ⟨server, cause, -, heq⟩ <;> rw [heq]
  · exact ⟨rfl, rfl, ⟨hok.count, hok.bound⟩, fun x hx => .inr hx⟩
  · have hok' : StackOk { σ with server } := ⟨hok.count, hok.bound⟩
    exact ⟨rfl, rfl, hok'.push item, fun x hx => mem_push hok' hx⟩

theorem parked_numbered {σ : State} (hok : StackOk σ) {l : Event} (hparks : parks σ l = true)
    (hclear : isClear l = false) (item : ClosedItem) (hitem : item.sequence = nextSequence σ)
    (broken : Server × Except String ClosedItem)
    (hbroken : ∀ sv' item', broken = (sv', .ok item') → item'.sequence = item.sequence) :
    StackOk (parked σ broken) ∧ Numbered σ l (parked σ broken) := by
  obtain ⟨server, result⟩ := broken
  have hok' : StackOk { σ with server, closedNextSequence := nextSequence σ } :=
    ⟨hok.count, hok.bound⟩
  cases result with
  | error cause => exact ⟨hok', .deleted hparks hclear item hitem rfl (fun _ => .inr) rfl⟩
  | ok item' =>
      have hseq : item'.sequence = nextSequence σ := (hbroken server item' rfl).trans hitem
      exact ⟨hok'.push item', .deleted hparks hclear item' hseq rfl
        (fun x hx => mem_push hok' hx) rfl⟩

theorem exec_numbered {σ : State} (htrees : TreesOk σ.server) (hok : StackOk σ) {l : Event}
    (hv : l.Valid σ.server) : StackOk (exec σ l) ∧ Numbered σ l (exec σ l) := by
  have hclears : isClear l = true → exec σ l = newmuxRecoveryClear σ := by
    cases l <;> intro h <;> first | rfl | cases h
  have hout := exec_outcome htrees.unique hv
  -- only a clear sets the counter back; every other step moves items between the stacks
  cases hc : isClear l with
  | true =>
      have hparks : parks σ l = false := by cases l <;> first | rfl | cases hc
      rw [hclears hc]
      exact ⟨⟨rfl, Nat.zero_le _⟩, .cleared hparks hc rfl rfl rfl⟩
  | false =>
      generalize exec σ l = σ' at hout ⊢
      cases hout with
      | idle _ hidle => exact ⟨hok, .moved hidle hc rfl (fun _ => .inl) (fun _ => .inl)⟩
      | kill _ s wl w h hlast hidle =>
          exact ⟨⟨hok.count, hok.bound⟩, .moved hidle hc rfl (fun _ => .inl) (fun _ => .inl)⟩
      | parkWindow _ s wl w h hlast hparks =>
          exact parked_numbered hok hparks hc _ rfl _ fun _ _ => breakLiveWindow_item
      | parkPane _ s wl w wp h hwp hcount hparks =>
          exact parked_numbered hok hparks hc _ rfl _ fun _ _ => breakLivePane_item
      | reserve print item σ₁ hpop =>
          obtain ⟨hstack, hσ₁⟩ := pop_some hpop
          have hok₁ := hok.pop hpop
          have hnow : reservedNow σ (.reserveLatestClosed print) = [(item.sequence, item)] := by
            simp [reservedNow, hstack]
          refine ⟨⟨hok₁.count, hok₁.bound⟩, .moved rfl rfl ?_ ?_ ?_⟩
          · change σ₁.closedNextSequence = _
            rw [hσ₁]
          · intro x hx
            exact .inl (hstack ▸ List.mem_cons_of_mem _ hx)
          · intro x hx
            rcases List.mem_append.mp hx with hx | hx
            · rw [hσ₁] at hx
              exact .inl hx
            · rw [hnow, List.mem_singleton.mp hx]
              exact .inr (List.mem_singleton.mpr rfl)
      | reopen target print item σ₁ hpop =>
          obtain ⟨hstack, hσ₁⟩ := pop_some hpop
          obtain ⟨hcounter, hreserved, hok', hclosed⟩ :=
            restoreOrPushBack_stacks (hok.pop hpop) target item print
          refine ⟨hok', .moved rfl rfl ?_ ?_ ?_⟩
          · rw [hcounter, hσ₁]
          · intro x hx
            rw [hstack]
            exact .inl (List.mem_cons.mpr (hclosed x hx))
          · intro x hx
            rw [hreserved, hσ₁] at hx
            exact .inl hx
      | claim value target print item n σ₁ hitem hpop =>
          obtain ⟨-, hperm, hσ₁⟩ := reservedPop_some hpop
          have hok₁ : StackOk σ₁ := by rw [hσ₁]; exact ⟨hok.count, hok.bound⟩
          obtain ⟨hcounter, hreserved, hok', hclosed⟩ :=
            restoreOrPushBack_stacks hok₁ target item print
          refine ⟨hok', .moved rfl rfl ?_ ?_ ?_⟩
          · rw [hcounter, hσ₁]
          · intro x hx
            rcases hclosed x hx with rfl | hx
            · exact .inr (hperm.mem_iff.mpr List.mem_cons_self)
            · rw [hσ₁] at hx
              exact .inl hx
          · intro x hx
            rw [hreserved] at hx
            exact .inl (hperm.mem_iff.mpr (List.mem_cons_of_mem _ hx))
      | release value print item n σ₁ hitem hpop =>
          obtain ⟨-, hperm, hσ₁⟩ := reservedPop_some hpop
          have hok₁ : StackOk σ₁ := by rw [hσ₁]; exact ⟨hok.count, hok.bound⟩
          refine ⟨hok₁.push item, .moved rfl rfl ?_ ?_ ?_⟩
          · rw [push_closedNextSequence, hσ₁]
          · intro x hx
            rcases mem_push hok₁ hx with rfl | hx
            · exact .inr (hperm.mem_iff.mpr List.mem_cons_self)
            · rw [hσ₁] at hx
              exact .inl hx
          · intro x hx
            exact .inl (hperm.mem_iff.mpr (List.mem_cons_of_mem _ hx))
      | clear => cases hc
      | output wp content =>
          exact ⟨⟨hok.count, hok.bound⟩, .moved rfl rfl rfl (fun _ => .inl) (fun _ => .inl)⟩

theorem reservedNow_mem {σ : State} {l : Event} {n : Nat} {x : ClosedItem}
    (h : (n, x) ∈ reservedNow σ l) : n = x.sequence ∧ x ∈ σ.closedStack := by
  cases l with
  | reserveLatestClosed print =>
      simp only [reservedNow, Option.mem_toList, Option.map_eq_some_iff, Prod.mk.injEq] at h
      obtain ⟨y, hy, rfl, rfl⟩ := h
      exact ⟨rfl, List.mem_of_head? hy⟩
  | _ => exact absurd h List.not_mem_nil

theorem actedNow_mem {σ : State} {l : Event} {n : Nat} {x : ClosedItem}
    (h : (n, x) ∈ actedNow σ l) : n = x.sequence ∧ x ∈ σ.reservedStack := by
  have htaken : ∀ value, (n, x) ∈ takenNow σ value →
      n = x.sequence ∧ x ∈ σ.reservedStack := by
    intro value h
    unfold takenNow at h
    split at h
    · exact absurd h List.not_mem_nil
    · next k _ =>
        simp only [Option.mem_toList, Option.map_eq_some_iff, Prod.mk.injEq] at h
        obtain ⟨y, hy, rfl, rfl⟩ := h
        have hseq := List.find?_some (p := fun item : ClosedItem => item.sequence == k) hy
        exact ⟨(beq_iff_eq.mp hseq).symm, List.mem_of_find?_eq_some hy⟩
  cases l with
  | claimReservedClosed value target print => exact htaken value h
  | releaseReservedClosed value print => exact htaken value h
  | _ => exact absurd h List.not_mem_nil

/-! ## The invariant -/

/-- The numbers of the first `k` deletions. -/
def firstNumbers (k : Nat) : List Nat := (List.range k).map fun i => (i + 1) % 4294967296

theorem firstNumbers_nodup {k : Nat} (hk : k ≤ 4294967296) : (firstNumbers k).Nodup := by
  refine List.Nodup.map_on ?_ List.nodup_range
  intro i hi j hj h
  rw [List.mem_range] at hi hj
  omega

theorem firstNumbers_succ (k : Nat) :
    firstNumbers (k + 1) = firstNumbers k ++ [(k + 1) % 4294967296] := by
  simp [firstNumbers, List.range_succ]

/-- The item is on the closed stack or has been reserved. -/
def Ledger.Known (L : Ledger) (x : ClosedItem) : Prop :=
  x ∈ L.state.closedStack ∨ (x.sequence, x) ∈ L.reserved

/-- What carries the numbers along a run: an item is known by its number. -/
structure LedgerInv (L : Ledger) : Prop where
  trees : TreesOk L.state.server
  stack : StackOk L.state
  distinct : L.issued.Nodup
  /-- Until the stacks are cleared, the counter is the number of deletions. -/
  counter : L.cleared = false → L.issued = firstNumbers L.issued.length ∧
    L.issued.length ≤ 4294967296 ∧ L.state.closedNextSequence = L.issued.length % 4294967296
  issued : ∀ x, L.Known x → x.sequence ∈ L.issued
  unique : ∀ x y, L.Known x → L.Known y → x.sequence = y.sequence → x = y
  held : ∀ x ∈ L.state.reservedStack, (x.sequence, x) ∈ L.reserved
  numbered : ∀ n x, (n, x) ∈ L.reserved → n = x.sequence
  acted : ∀ p ∈ L.acted, p ∈ L.reserved

theorem LedgerInv.start {σ : State} (hfresh : Fresh σ) (hok : TreesOk σ.server) :
    LedgerInv (.start σ) := by
  have hknown : ∀ x, ¬ (Ledger.start σ).Known x := by
    rintro x (hx | hx)
    · change x ∈ σ.closedStack at hx
      rw [hfresh.closedStack] at hx
      exact List.not_mem_nil hx
    · exact List.not_mem_nil hx
  refine ⟨hok, ⟨?_, ?_⟩, List.nodup_nil, fun _ => ⟨rfl, Nat.zero_le _, ?_⟩,
    fun x hx => absurd hx (hknown x), fun x _ hx => absurd hx (hknown x), fun x hx => ?_,
    fun _ _ h => absurd h List.not_mem_nil, fun _ h => absurd h List.not_mem_nil⟩
  · change σ.closedCount = σ.closedStack.length
    rw [hfresh.closedCount, hfresh.closedStack]
    rfl
  · change σ.closedStack.length ≤ _
    rw [hfresh.closedStack]
    exact Nat.zero_le _
  · exact hfresh.closedNextSequence
  · change x ∈ σ.reservedStack at hx
    rw [hfresh.reservedStack] at hx
    exact absurd hx List.not_mem_nil

/-- An item that is known after a command was known before it, or the command
has just numbered it. -/
theorem LedgerInv.known_before {L : Ledger} (h : LedgerInv L) {l : Event} {x : ClosedItem}
    (hclosed : ∀ x ∈ (exec L.state l).closedStack, x ∈ L.state.closedStack ∨
      x ∈ L.state.reservedStack) (hx : (L.record l).Known x) : L.Known x := by
  rcases hx with hx | hx
  · exact (hclosed x hx).imp_right (h.held x)
  · rcases List.mem_append.mp hx with hx | hx
    · exact .inr hx
    · exact .inl (reservedNow_mem hx).2

theorem LedgerInv.record_numbered {L : Ledger} (h : LedgerInv L) {l : Event} :
    ∀ n x, (n, x) ∈ (L.record l).reserved → n = x.sequence := by
  intro n x hx
  rcases List.mem_append.mp hx with hx | hx
  · exact h.numbered n x hx
  · exact (reservedNow_mem hx).1

theorem LedgerInv.record_acted {L : Ledger} (h : LedgerInv L) {l : Event} :
    ∀ p ∈ (L.record l).acted, p ∈ (L.record l).reserved := by
  rintro ⟨n, x⟩ hp
  rcases List.mem_append.mp hp with hp | hp
  · exact List.mem_append_left _ (h.acted _ hp)
  · obtain ⟨rfl, hx⟩ := actedNow_mem hp
    exact List.mem_append_left _ (h.held x hx)

theorem LedgerInv.step {L : Ledger} (h : LedgerInv L) {l : Event}
    (hv : l.Valid L.state.server) (hgood : NumbersLeft L l) : LedgerInv (L.record l) := by
  have htrees := exec_treesOk h.trees hv
  obtain ⟨hstack, hnum⟩ := exec_numbered h.trees h.stack hv
  cases hnum with
  | moved hparks hclear hcounter hclosed hreserved =>
      have hissued : (L.record l).issued = L.issued := by simp [Ledger.record, hparks]
      have hcleared : (L.record l).cleared = L.cleared := by simp [Ledger.record, hclear]
      have hknown := fun x (hx : (L.record l).Known x) => h.known_before hclosed hx
      refine ⟨htrees, hstack, hissued ▸ h.distinct, ?_, ?_, ?_, ?_, h.record_numbered,
        h.record_acted⟩
      · intro hc
        rw [hissued]
        have := h.counter (hcleared ▸ hc)
        exact ⟨this.1, this.2.1, hcounter.trans this.2.2⟩
      · intro x hx
        rw [hissued]
        exact h.issued x (hknown x hx)
      · exact fun x y hx hy => h.unique x y (hknown x hx) (hknown y hy)
      · intro x hx
        exact List.mem_append.mpr ((hreserved x hx).imp_left (h.held x))
  | deleted hparks hclear item hseq hcounter hclosed hreserved =>
      obtain ⟨hopen, hroom⟩ := hgood hparks
      obtain ⟨hfirst, -, hcount⟩ := h.counter hopen
      have hnext : nextSequence L.state = (L.issued.length + 1) % 4294967296 := by
        unfold nextSequence
        omega
      have hissued : (L.record l).issued = firstNumbers (L.issued.length + 1) := by
        rw [firstNumbers_succ, ← hfirst, ← hnext]
        simp [Ledger.record, hparks]
      have hlen : (L.record l).issued.length = L.issued.length + 1 := by
        rw [hissued]
        simp [firstNumbers]
      have hnew : nextSequence L.state ∉ L.issued := by
        have hnodup := firstNumbers_nodup (Nat.succ_le_of_lt hroom)
        rw [firstNumbers_succ, ← hfirst, ← hnext] at hnodup
        exact fun hin => (List.nodup_append.mp hnodup).2.2 _ hin _ (List.mem_singleton.mpr rfl) rfl
      have hold : ∀ n, n ∈ L.issued → n ∈ (L.record l).issued := fun n hn =>
        List.mem_append_left _ hn
      have hmem : nextSequence L.state ∈ (L.record l).issued := by
        simp [Ledger.record, hparks]
      have hnow : (L.record l).reserved = L.reserved := by
        have hnil : reservedNow L.state l = [] := by cases l <;> first | rfl | cases hparks
        simp [Ledger.record, hnil]
      have hknown : ∀ x, (L.record l).Known x → x = item ∨ L.Known x := by
        rintro x (hx | hx)
        · exact (hclosed x hx).imp_right .inl
        · exact .inr (.inr (hnow ▸ hx))
      refine ⟨htrees, hstack, hissued ▸ firstNumbers_nodup (Nat.succ_le_of_lt hroom), ?_, ?_, ?_,
        ?_, h.record_numbered, h.record_acted⟩
      · intro _
        rw [hlen]
        exact ⟨hissued, Nat.succ_le_of_lt hroom, hcounter.trans hnext⟩
      · intro x hx
        rcases hknown x hx with rfl | hx
        · exact hseq ▸ hmem
        · exact hold _ (h.issued x hx)
      · -- the new number is not that of an item that was known
        have hfar : ∀ y, L.Known y → item.sequence ≠ y.sequence := by
          intro y hy he
          exact hnew (hseq ▸ he ▸ h.issued y hy)
        intro x y hx hy he
        rcases hknown x hx with rfl | hx <;> rcases hknown y hy with rfl | hy
        · rfl
        · exact absurd he (hfar y hy)
        · exact absurd he.symm (hfar x hx)
        · exact h.unique x y hx hy he
      · intro x hx
        rw [hnow]
        change x ∈ (exec L.state l).reservedStack at hx
        rw [hreserved] at hx
        exact h.held x hx
  | cleared hparks hclear hcounter hclosed hreserved =>
      have hissued : (L.record l).issued = L.issued := by simp [Ledger.record, hparks]
      have hknown : ∀ x, (L.record l).Known x → L.Known x := by
        intro x hx
        refine h.known_before (fun x hx => ?_) hx
        rw [hclosed] at hx
        exact absurd hx List.not_mem_nil
      refine ⟨htrees, hstack, hissued ▸ h.distinct, ?_, ?_, ?_, ?_, h.record_numbered,
        h.record_acted⟩
      · -- no deletion has been numbered, or the clear is written down
        intro hc
        have hnil : L.issued = [] := by
          simp only [Ledger.record, hclear, Bool.or_eq_false_iff] at hc
          simpa using hc.2
        rw [hissued, hnil]
        exact ⟨rfl, Nat.zero_le _, hcounter⟩
      · intro x hx
        rw [hissued]
        exact h.issued x (hknown x hx)
      · exact fun x y hx hy => h.unique x y (hknown x hx) (hknown y hy)
      · intro x hx
        change x ∈ (exec L.state l).reservedStack at hx
        rw [hreserved] at hx
        exact absurd hx List.not_mem_nil

theorem ledgerInv_inductive : ledgerSystem.Inductive NumbersLeft LedgerInv where
  init := by
    rintro _ ⟨σ, hfresh, hok, rfl⟩
    exact .start hfresh hok
  step := by
    rintro L l _ h hgood ⟨hv, rfl⟩
    exact h.step hv hgood

/-- **Reservation integrity**, in every run that deletes nothing after a clear
and does not run out of numbers. -/
theorem integrity_of_numbersLeft {L : Ledger}
    (hreach : ledgerSystem.ReachableWith NumbersLeft L) : Integrity L := by
  have h := ledgerInv_inductive.invariant hreach
  refine ⟨h.distinct, fun n y hy => ?_⟩
  have hy' := h.acted _ hy
  have hyseq := h.numbered n y hy'
  refine ⟨hy', fun x hx => ?_⟩
  have hxseq := h.numbered n x hx
  exact h.unique x y (.inr (hxseq ▸ hx)) (.inr (hyseq ▸ hy')) (hxseq.symm.trans hyseq)

/-! ## A clear between a reserve and its claim -/

theorem ledger_run {Good : Ledger → Event → Prop} {L : Ledger}
    (hL : ledgerSystem.ReachableWith Good L) {ls : List Event}
    (hrun : TSys.RunOk (fun L l => Good L l ∧ l.Valid L.state.server) Ledger.record L ls) :
    ledgerSystem.ReachableWith Good (TSys.runFrom Ledger.record L ls) := by
  have hstep : ∀ (L : Ledger) (l : Event), l.Valid L.state.server →
      ledgerSystem.step L l (L.record l) := fun _ _ h => ⟨h, rfl⟩
  exact TSys.reachableWith_run hstep hL hrun

instance (L : Ledger) (l : Event) : Decidable (NumbersLeft L l) :=
  inferInstanceAs (Decidable (_ → _))

/-- Two tabs are deleted, the second is reserved and claimed. -/
def claimWithoutClear : List Event :=
  [.softDeleteWindow (tab 0), .softDeleteWindow (tab 1), .reserveLatestClosed true,
    .claimReservedClosed (some "2") none true]

theorem integrity_without_clear :
    Integrity (TSys.runFrom Ledger.record (.start (tabState 3)) claimWithoutClear) :=
  integrity_of_numbersLeft (ledger_run (.init ⟨_, tabState_fresh 3, tabServer_treesOk 3, rfl⟩)
    (by decide +kernel))

/-- The first tab is reserved for a script that is slow to claim it; the stacks
are cleared, another tab is deleted and reserved, and the slow claim arrives. -/
def claimAfterClear : List Event :=
  [.softDeleteWindow (tab 0), .reserveLatestClosed true, .clearRecentlyClosed,
    .softDeleteWindow (tab 1), .reserveLatestClosed true,
    .claimReservedClosed (some "1") none true]

/-- Both deletions were given the number one, and the claim of the first tab's
number takes the second tab. -/
theorem integrity_broken : ∃ L, ledgerSystem.Reachable L ∧ ¬ Integrity L ∧
    ∃ x y, (1, x) ∈ L.reserved ∧ x.windowId = 0 ∧ (1, y) ∈ L.acted ∧ y.windowId = 1 := by
  refine ⟨TSys.runFrom Ledger.record (.start (tabState 3)) claimAfterClear,
    ledger_run (.init ⟨_, tabState_fresh 3, tabServer_treesOk 3, rfl⟩) (by decide +kernel), ?_,
    ?_⟩
  · intro h
    have hissued : (TSys.runFrom Ledger.record (.start (tabState 3)) claimAfterClear).issued =
        [1, 1] := by
      decide +kernel
    have hdistinct := h.distinct
    rw [hissued] at hdistinct
    exact absurd hdistinct (by decide)
  · obtain ⟨hx, hy⟩ : (∃ p ∈ (TSys.runFrom Ledger.record (.start (tabState 3))
          claimAfterClear).reserved, p.1 = 1 ∧ p.2.windowId = 0) ∧
        ∃ p ∈ (TSys.runFrom Ledger.record (.start (tabState 3)) claimAfterClear).acted,
          p.1 = 1 ∧ p.2.windowId = 1 := by
      decide +kernel
    obtain ⟨⟨n, x⟩, hx, rfl, hxw⟩ := hx
    obtain ⟨⟨m, y⟩, hy, rfl, hyw⟩ := hy
    exact ⟨x, y, hx, hxw, hy, hyw⟩

end Newmux.Theorems
