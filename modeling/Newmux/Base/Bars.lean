import Mathlib.Data.List.Basic
import Mathlib.Data.Set.Insert
import Newmux.Base.TSys

/-!
# Tab bars

What sessions of windows are for: each session shows a bar of tabs, sessions that
show one tab between them show the same bar, and tabs are put aside in a lot and
taken out again. A move is on the bar of every session that shows it.
-/

namespace Newmux.Base

variable {S W : Type}

/-- The tabs of each session, in order, and the tabs put aside. -/
@[ext] structure Bars (S W : Type) where
  bar : S → Option (List W)
  lot : Set W

namespace Bars

/-- No bar shows the tab. -/
def Hidden (b : Bars S W) (w : W) : Prop := ∀ j l, b.bar j = some l → w ∉ l

open Classical in
/-- The bars without `w`. -/
noncomputable def erased (b : Bars S W) (w : W) (j : S) : Option (List W) :=
  (b.bar j).map fun l => l.erase w

open Classical in
/-- The bars with `w` put in, in those that show `A` and then `B`. -/
noncomputable def inserted (b : Bars S W) (A : List W) (w : W) (B : List W) (j : S) :
    Option (List W) :=
  if b.bar j = some (A ++ B) then some (A ++ w :: B) else b.bar j

/-- No bar is empty or shows a tab twice, two bars that show one tab are the same, and
no tab that is put aside is shown. -/
structure Ok (b : Bars S W) : Prop where
  nonempty : ∀ j l, b.bar j = some l → l ≠ []
  nodup : ∀ j l, b.bar j = some l → l.Nodup
  shared : ∀ i j l l' w, b.bar i = some l → b.bar j = some l' → w ∈ l → w ∈ l' → l = l'
  aside : ∀ w ∈ b.lot, b.Hidden w

end Bars

/-- The moves. -/
inductive BarMove (W : Type) where
  | rest
  | insert (w : W) (A B : List W)
  | close (w : W)
  | kill (w : W)
  | park (w : W)
  | take (w : W)
  | clear

/-- What a move does. A tab that is put in is a new one or comes from the lot, and
the last tab of a session is not closed. -/
def BarMove.Step (b : Bars S W) (m : BarMove W) (b' : Bars S W) : Prop :=
  match m with
  | .rest => b'.bar = b.bar ∧ b'.lot = b.lot
  | .insert w A B => (∃ j, b.bar j = some (A ++ B)) ∧ b.Hidden w ∧
      b'.bar = b.inserted A w B ∧ b'.lot = b.lot \ {w}
  | .close w => (∃ j l, b.bar j = some l ∧ w ∈ l) ∧ (∀ j, b.bar j ≠ some [w]) ∧
      b'.bar = b.erased w ∧ b'.lot = Insert.insert w b.lot
  | .kill w => (∃ j l, b.bar j = some l ∧ w ∈ l) ∧ (∀ j, b.bar j ≠ some [w]) ∧
      b'.bar = b.erased w ∧ b'.lot = b.lot
  | .park w => b.Hidden w ∧ w ∉ b.lot ∧ b'.bar = b.bar ∧ b'.lot = Insert.insert w b.lot
  | .take w => w ∈ b.lot ∧ b'.bar = b.bar ∧ b'.lot = b.lot \ {w}
  | .clear => b'.bar = b.bar ∧ b'.lot = ∅

/-- The runs of the moves, with no tab put aside at first. -/
def barSystem (S W : Type) : TSys (Bars S W) (BarMove W) where
  init b := b.Ok ∧ b.lot = ∅
  step b m b' := m.Step b b'

/-- A bar shows the tab, or it is put aside. -/
def Bars.Shown (b : Bars S W) (w : W) : Prop := (∃ j l, b.bar j = some l ∧ w ∈ l) ∨ w ∈ b.lot

/-- A tab that is closed is put aside, and the others stay where they are. -/
theorem Bars.Shown.close {b b' : Bars S W} {w x : W} (hx : b.Shown x)
    (hclose : (BarMove.close w).Step b b') : b'.Shown x := by
  classical
  obtain ⟨-, -, hbar, hlot⟩ := hclose
  unfold Bars.Shown
  rw [hbar, hlot]
  by_cases hxw : x = w
  · exact .inr (hxw ▸ Set.mem_insert w b.lot)
  · rcases hx with ⟨j, l, hj, hl⟩ | hl
    · refine .inl ⟨j, l.erase w, ?_, (List.mem_erase_of_ne hxw).mpr hl⟩
      unfold Bars.erased
      rw [hj, Option.map_some]
    · exact .inr (Set.mem_insert_of_mem w hl)

/-- Parking shows the tab that is parked, and no other. -/
theorem Bars.Shown.of_park {b b' : Bars S W} {w x : W} (hx : b'.Shown x)
    (hpark : (BarMove.park w).Step b b') : b.Shown x ∨ x = w := by
  obtain ⟨-, -, hbar, hlot⟩ := hpark
  unfold Bars.Shown at hx ⊢
  rw [hbar, hlot] at hx
  rcases hx with hx | rfl | hx
  · exact .inl (.inl hx)
  · exact .inr rfl
  · exact .inl (.inr hx)

/-- A tab that is parked leaves the others where they are. -/
theorem Bars.Shown.park {b b' : Bars S W} {w x : W} (hx : b.Shown x)
    (hpark : (BarMove.park w).Step b b') : b'.Shown x := by
  obtain ⟨-, -, hbar, hlot⟩ := hpark
  unfold Bars.Shown at hx ⊢
  rw [hbar, hlot]
  exact hx.imp_right (Set.mem_insert_of_mem w)

/-- Closing a tab shows no other. -/
theorem Bars.Shown.of_close {b b' : Bars S W} {w x : W} (hx : b'.Shown x)
    (hclose : (BarMove.close w).Step b b') : b.Shown x := by
  classical
  obtain ⟨⟨j, l, hj, hw⟩, -, hbar, hlot⟩ := hclose
  unfold Bars.Shown at hx ⊢
  rw [hbar, hlot] at hx
  rcases hx with ⟨i, l', hi, hx⟩ | rfl | hx
  · obtain ⟨l'', hl'', rfl⟩ := Option.map_eq_some_iff.mp hi
    exact .inl ⟨i, l'', hl'', List.mem_of_mem_erase hx⟩
  · exact .inl ⟨j, l, hj, hw⟩
  · exact .inr hx

/-- Only a tab that is put in or parked was not shown before. -/
theorem Bars.Shown.of_insert {b b' : Bars S W} {w x : W} {A B : List W} (hx : b'.Shown x)
    (hinsert : (BarMove.insert w A B).Step b b') : b.Shown x ∨ x = w := by
  obtain ⟨-, -, hbar, hlot⟩ := hinsert
  unfold Bars.Shown at hx ⊢
  rw [hbar, hlot] at hx
  rcases hx with ⟨j, l, hj, hx⟩ | hx
  · unfold Bars.inserted at hj
    split at hj
    · next hAB =>
        obtain rfl := Option.some.inj hj
        rw [List.mem_append, List.mem_cons] at hx
        rcases hx with hx | rfl | hx
        · exact .inl (.inl ⟨j, _, hAB, List.mem_append_left B hx⟩)
        · exact .inr rfl
        · exact .inl (.inl ⟨j, _, hAB, List.mem_append_right A hx⟩)
    · exact .inl (.inl ⟨j, l, hj, hx⟩)
  · exact .inl (.inr hx.1)

/-- A tab that is killed, and nothing else, is no longer shown. -/
theorem Bars.Shown.of_kill {b b' : Bars S W} {w x : W} (hok : b.Ok) (hx : b'.Shown x)
    (hkill : (BarMove.kill w).Step b b') : b.Shown x ∧ x ≠ w := by
  classical
  obtain ⟨⟨j, l, hj, hw⟩, -, hbar, hlot⟩ := hkill
  unfold Bars.Shown at hx ⊢
  rw [hbar, hlot] at hx
  rcases hx with ⟨i, l', hi, hx⟩ | hx
  · obtain ⟨l'', hl'', rfl⟩ := Option.map_eq_some_iff.mp hi
    refine ⟨.inl ⟨i, l'', hl'', List.mem_of_mem_erase hx⟩, ?_⟩
    rintro rfl
    exact (hok.nodup i l'' hl'').not_mem_erase hx
  · refine ⟨.inr hx, ?_⟩
    rintro rfl
    exact hok.aside x hx j l hj hw

/-- A tab that is taken out of the lot, and nothing else, is no longer shown. -/
theorem Bars.Shown.of_take {b b' : Bars S W} {w x : W} (hok : b.Ok) (hx : b'.Shown x)
    (htake : (BarMove.take w).Step b b') : b.Shown x ∧ x ≠ w := by
  obtain ⟨hin, hbar, hlot⟩ := htake
  unfold Bars.Shown at hx ⊢
  rw [hbar, hlot] at hx
  rcases hx with ⟨j, l, hj, hx⟩ | hx
  · refine ⟨.inl ⟨j, l, hj, hx⟩, ?_⟩
    rintro rfl
    exact hok.aside x hin j l hj hx
  · exact ⟨.inr hx.1, hx.2⟩

/-- Clearing shows nothing new. -/
theorem Bars.Shown.of_clear {b b' : Bars S W} {x : W} (hx : b'.Shown x)
    (hclear : (BarMove.clear : BarMove W).Step b b') : b.Shown x := by
  obtain ⟨hbar, hlot⟩ := hclear
  unfold Bars.Shown at hx ⊢
  rw [hbar, hlot] at hx
  exact .inl (hx.resolve_right (Set.notMem_empty x))

/-- Every move keeps the sessions. -/
theorem BarMove.Step.sessions {b b' : Bars S W} {m : BarMove W} (h : m.Step b b') (j : S) :
    (b'.bar j).isSome = (b.bar j).isSome := by
  have herased : ∀ w, (b.erased w j).isSome = (b.bar j).isSome := by
    intro w
    simp [Bars.erased]
  cases m with
  | rest => rw [h.1]
  | insert w A B =>
      rw [h.2.2.1]
      unfold Bars.inserted
      split
      · next hj => rw [hj]; rfl
      · rfl
  | close w => rw [h.2.2.1, herased]
  | kill w => rw [h.2.2.1, herased]
  | park w => rw [h.2.2.1]
  | take w => rw [h.2.1]
  | clear => rw [h.1]

namespace Bars

variable {b b' : Bars S W}

/-- Less is put aside, and the bars are the same. -/
theorem Ok.same (h : b.Ok) (hbar : b'.bar = b.bar) (hlot : ∀ w ∈ b'.lot, w ∈ b.lot ∨ b.Hidden w) :
    b'.Ok := by
  refine ⟨?_, ?_, ?_, fun w hw j l hj => ?_⟩
  · rw [hbar]
    exact h.nonempty
  · rw [hbar]
    exact h.nodup
  · rw [hbar]
    exact h.shared
  · rw [hbar] at hj
    rcases hlot w hw with hw | hhidden
    · exact h.aside w hw j l hj
    · exact hhidden j l hj

theorem Ok.erase (h : b.Ok) {w : W} (hlast : ∀ j, b.bar j ≠ some [w])
    (hbar : b'.bar = b.erased w) (hlot : b'.lot ⊆ Insert.insert w b.lot) : b'.Ok := by
  -- a bar comes from one that was not the tab alone; those that were the same still are
  have hfrom : ∀ j l', b'.bar j = some l' → ∃ l, b.bar j = some l ∧ l ≠ [w] ∧
      (∀ x, x ∈ l' → x ≠ w ∧ x ∈ l) ∧ l'.Nodup ∧ (l' = [] → l = [] ∨ l = [w]) ∧
      ∀ i l₂, b.bar i = some l₂ → l = l₂ → b'.bar i = some l' := by
    classical
    intro j l' hj
    rw [hbar] at hj
    obtain ⟨l, hl, rfl⟩ := Option.map_eq_some_iff.mp hj
    have hnd := h.nodup j l hl
    refine ⟨l, hl, fun he => hlast j (he ▸ hl), fun x hx => ?_, hnd.erase w, fun hnil => ?_,
      fun i l₂ hi he => ?_⟩
    · exact hnd.mem_erase_iff.mp hx
    · exact List.erase_eq_nil_iff.mp hnil
    · rw [hbar]
      unfold erased
      rw [hi, he, Option.map_some]
  refine ⟨fun j l' hj => ?_, fun j l' hj => ?_, fun i j l l' v hi hj hv hv' => ?_,
    fun v hv j l' hj hin => ?_⟩
  · obtain ⟨l, hl, hne, -, -, hnil, -⟩ := hfrom j l' hj
    intro he
    rcases hnil he with he | he
    · exact h.nonempty j l hl he
    · exact hne he
  · obtain ⟨l, -, -, -, hnd, -⟩ := hfrom j l' hj
    exact hnd
  · obtain ⟨m, hm, -, hin, -, -, hsame⟩ := hfrom i l hi
    obtain ⟨m', hm', -, hin', -⟩ := hfrom j l' hj
    have heq := h.shared i j m m' v hm hm' (hin v hv).2 (hin' v hv').2
    have := hsame j m' hm' heq
    rw [hj] at this
    exact (Option.some.inj this).symm
  · obtain ⟨l, hl, -, hmem, -⟩ := hfrom j l' hj
    obtain ⟨hne, hvl⟩ := hmem v hin
    exact h.aside v ((Set.mem_insert_iff.mp (hlot hv)).resolve_left hne) j l hl hvl

theorem Ok.insert (h : b.Ok) {w : W} {A B : List W} (hsome : ∃ j, b.bar j = some (A ++ B))
    (hhidden : b.Hidden w) (hbar : b'.bar = b.inserted A w B) (hlot : b'.lot = b.lot \ {w}) :
    b'.Ok := by
  -- a bar has got the tab, or was another one and has not
  have hcases : ∀ j l, b'.bar j = some l → b.bar j = some (A ++ B) ∧ l = A ++ w :: B ∨
      b.bar j = some l ∧ l ≠ A ++ B := by
    intro j l hj
    rw [hbar] at hj
    unfold inserted at hj
    split at hj
    · next hAB => exact .inl ⟨hAB, (Option.some.inj hj).symm⟩
    · next hne => exact .inr ⟨hj, fun he => hne (he ▸ hj)⟩
  have hmiddle : ∀ v, v ∈ A ++ w :: B ↔ v = w ∨ v ∈ A ++ B := by
    intro v
    simp only [List.mem_append, List.mem_cons]
    tauto
  obtain ⟨k, hk⟩ := hsome
  refine ⟨fun j l hj => ?_, fun j l hj => ?_, fun i j l l' v hi hj hv hv' => ?_,
    fun v hv j l hj hin => ?_⟩
  · rcases hcases j l hj with ⟨-, rfl⟩ | ⟨hl, -⟩
    · simp
    · exact h.nonempty j l hl
  · rcases hcases j l hj with ⟨hAB, rfl⟩ | ⟨hl, -⟩
    · rw [List.nodup_middle, List.nodup_cons]
      exact ⟨hhidden j _ hAB, h.nodup j _ hAB⟩
    · exact h.nodup j l hl
  · rcases hcases i l hi with ⟨hAB, rfl⟩ | ⟨hl, hne⟩ <;>
      rcases hcases j l' hj with ⟨hAB', rfl⟩ | ⟨hl', hne'⟩
    · rfl
    · rcases (hmiddle v).mp hv with rfl | hv
      · exact absurd hv' (hhidden j l' hl')
      · exact absurd (h.shared i j _ l' v hAB hl' hv hv').symm hne'
    · rcases (hmiddle v).mp hv' with rfl | hv'
      · exact absurd hv (hhidden i l hl)
      · exact absurd (h.shared i j l _ v hl hAB' hv hv') hne
    · exact h.shared i j l l' v hl hl' hv hv'
  · rw [hlot] at hv
    rcases hcases j l hj with ⟨hAB, rfl⟩ | ⟨hl, -⟩
    · rcases (hmiddle v).mp hin with rfl | hin
      · exact hv.2 rfl
      · exact h.aside v hv.1 j _ hAB hin
    · exact h.aside v hv.1 j l hl hin

/-- **Putting a tab back** where it was taken off gives the bars back. -/
theorem Ok.inserted_erased (h : b.Ok) {w : W} {A B : List W} {k : S}
    (hk : b.bar k = some (A ++ w :: B)) (hne : A ++ B ≠ []) (hbar : b'.bar = b.erased w) :
    b'.inserted A w B = b.bar := by
  classical
  have hnodup := h.nodup k _ hk
  rw [List.nodup_middle, List.nodup_cons] at hnodup
  have hbase : ∀ l, b.bar k = some l → w ∈ l → l.erase w = A ++ B := by
    intro l hl hw
    rw [hk] at hl
    rw [← Option.some.inj hl, List.erase_append_right _ fun hA => hnodup.1 (List.mem_append_left B hA),
      List.erase_cons_head]
  funext j
  unfold inserted
  rw [hbar]
  cases hj : b.bar j with
  | none =>
      have hnone : b.erased w j = none := by
        unfold erased
        rw [hj, Option.map_none]
      rw [hnone, if_neg (by simp)]
  | some l =>
      have hsome : b.erased w j = some (l.erase w) := by
        unfold erased
        rw [hj, Option.map_some]
      rw [hsome]
      by_cases hw : w ∈ l
      · have hl := h.shared j k l _ w hj hk hw (by simp)
        rw [hbase l (hl ▸ hk) hw, if_pos rfl, hl]
      · -- a bar without the tab is none of those it is put into
        rw [List.erase_of_not_mem hw]
        split
        · next he =>
            obtain ⟨v, hv⟩ := List.exists_mem_of_ne_nil _ hne
            have hvl : v ∈ l := Option.some.inj he ▸ hv
            have hvk : v ∈ A ++ w :: B := by
              rw [List.mem_append, List.mem_cons]
              rw [List.mem_append] at hv
              tauto
            have hl := h.shared j k l _ v hj hk hvl hvk
            exact absurd (by rw [hl]; simp) hw
        · rfl

/-- The bar a tab was taken off. -/
theorem Ok.closed_bar (h : b.Ok) {w : W} {A B : List W} {k : S}
    (hk : b.bar k = some (A ++ w :: B)) (hclose : (BarMove.close w).Step b b') :
    b'.bar k = some (A ++ B) := by
  classical
  have hnodup := h.nodup k _ hk
  rw [List.nodup_middle, List.nodup_cons] at hnodup
  rw [hclose.2.2.1]
  unfold erased
  rw [hk, Option.map_some,
    List.erase_append_right _ fun hA => hnodup.1 (List.mem_append_left B hA), List.erase_cons_head]

/-- **A close is undone** by the tab put back where it was. -/
theorem Ok.close_insert (h : b.Ok) {w : W} {A B : List W} {k : S}
    (hk : b.bar k = some (A ++ w :: B)) (hclose : (BarMove.close w).Step b b')
    {b'' : Bars S W} (hinsert : (BarMove.insert w A B).Step b' b'') : b'' = b := by
  obtain ⟨-, hlast, hbar, hlot⟩ := hclose
  obtain ⟨-, -, hbar', hlot'⟩ := hinsert
  have hne : A ++ B ≠ [] := by
    intro hnil
    obtain ⟨rfl, rfl⟩ := List.append_eq_nil_iff.mp hnil
    exact hlast k hk
  have hout : w ∉ b.lot := fun hw => h.aside w hw k _ hk (by simp)
  refine Bars.ext ?_ ?_
  · rw [hbar', h.inserted_erased hk hne hbar]
  · rw [hlot', hlot]
    refine Set.ext fun x => ⟨fun hx => hx.1.resolve_left hx.2, fun hx => ⟨.inr hx, fun he => ?_⟩⟩
    exact hout (Set.mem_singleton_iff.mp he ▸ hx)

/-- A tab parked and taken out again leaves the bars as they were. -/
theorem park_take {w : W} (hpark : (BarMove.park w).Step b b') {b'' : Bars S W}
    (htake : (BarMove.take w).Step b' b'') : b'' = b := by
  obtain ⟨-, hout, hbar, hlot⟩ := hpark
  obtain ⟨-, hbar', hlot'⟩ := htake
  refine Bars.ext (hbar'.trans hbar) ?_
  rw [hlot', hlot]
  refine Set.ext fun x => ⟨fun hx => hx.1.resolve_left hx.2, fun hx => ⟨.inr hx, fun he => ?_⟩⟩
  exact hout (Set.mem_singleton_iff.mp he ▸ hx)

/-- **Every move keeps the bars as they should be.** -/
theorem Ok.step (h : b.Ok) {m : BarMove W} (hm : m.Step b b') : b'.Ok := by
  cases m with
  | rest => exact h.same hm.1 fun w hw => .inl (hm.2 ▸ hw)
  | insert w A B => exact h.insert hm.1 hm.2.1 hm.2.2.1 hm.2.2.2
  | close w => exact h.erase hm.2.1 hm.2.2.1 hm.2.2.2.subset
  | kill w => exact h.erase hm.2.1 hm.2.2.1 (hm.2.2.2.subset.trans (Set.subset_insert w b.lot))
  | park w =>
      refine h.same hm.2.2.1 fun v hv => ?_
      rw [hm.2.2.2, Set.mem_insert_iff] at hv
      rcases hv with rfl | hv
      · exact .inr hm.1
      · exact .inl hv
  | take w =>
      refine h.same hm.2.1 fun v hv => .inl ?_
      rw [hm.2.2] at hv
      exact hv.1
  | clear =>
      refine h.same hm.1 fun v hv => ?_
      rw [hm.2] at hv
      exact absurd hv (Set.notMem_empty v)

end Bars

/-- Every run of the moves keeps the bars in order. -/
theorem bars_inductive (S W : Type) : (barSystem S W).Inductive (fun _ _ => True) Bars.Ok where
  init _ h := h.1
  step _ _ _ h _ hm := h.step hm

end Newmux.Base
