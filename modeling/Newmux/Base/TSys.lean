import Mathlib.Tactic

/-!
# Labelled transition systems and invariants

The vocabulary every run statement of the development is phrased in: a system
has initial states and a labelled step relation, `ReachableWith Good` collects
the states reached by runs all of whose steps satisfy the side condition
`Good` (a predicate on the state *before* the step and the step's label), and
`Inductive` packages the two obligations that carry a predicate to every such
state. `Reachable` is the unconditional case.
-/

namespace Newmux.Base

/-- A labelled transition system over states `S` and labels `L`. -/
structure TSys (S L : Type) where
  init : S → Prop
  step : S → L → S → Prop

namespace TSys

variable {S L : Type}

/-- The states reached by runs whose every step satisfies `Good`. -/
inductive ReachableWith (T : TSys S L) (Good : S → L → Prop) : S → Prop
  | init {s} : T.init s → ReachableWith T Good s
  | step {s l s'} : ReachableWith T Good s → Good s l → T.step s l s' →
      ReachableWith T Good s'

/-- The states reached by any run. -/
abbrev Reachable (T : TSys S L) : S → Prop :=
  T.ReachableWith (fun _ _ => True)

/-- `I` holds initially and along every step that satisfies `Good`. -/
structure Inductive (T : TSys S L) (Good : S → L → Prop) (I : S → Prop) : Prop where
  init : ∀ s, T.init s → I s
  step : ∀ s l s', I s → Good s l → T.step s l s' → I s'

/-- An inductive predicate holds in every state reached under the condition. -/
theorem Inductive.invariant {T : TSys S L} {Good : S → L → Prop} {I : S → Prop}
    (h : T.Inductive Good I) {s : S} (hreach : T.ReachableWith Good s) : I s := by
  induction hreach with
  | init hi => exact h.init _ hi
  | step _ hgood hstep ih => exact h.step _ _ _ ih hgood hstep

/-- Run a deterministic system along a list of labels. -/
def runFrom (exec : S → L → S) (s : S) (ls : List L) : S :=
  ls.foldl exec s

@[simp] theorem runFrom_nil (exec : S → L → S) (s : S) : runFrom exec s [] = s := rfl

@[simp] theorem runFrom_cons (exec : S → L → S) (s : S) (l : L) (ls : List L) :
    runFrom exec s (l :: ls) = runFrom exec (exec s l) ls := rfl

/-- Every step of the run satisfies the condition. -/
def RunOk (P : S → L → Prop) (exec : S → L → S) : S → List L → Prop
  | _, [] => True
  | s, l :: ls => P s l ∧ RunOk P exec (exec s l) ls

instance (P : S → L → Prop) [∀ s l, Decidable (P s l)] (exec : S → L → S) :
    (s : S) → (ls : List L) → Decidable (RunOk P exec s ls)
  | _, [] => .isTrue trivial
  | s, l :: ls =>
      have := instDecidableRunOk P exec (exec s l) ls
      inferInstanceAs (Decidable (P s l ∧ RunOk P exec (exec s l) ls))

/-- An invariant of the run turns the condition on its steps into another. -/
theorem RunOk.imp {P Q : S → L → Prop} {exec : S → L → S} {I : S → Prop}
    (hstep : ∀ s l, I s → P s l → Q s l ∧ I (exec s l)) {s : S} {ls : List L} (hI : I s)
    (h : RunOk P exec s ls) : RunOk Q exec s ls := by
  induction ls generalizing s with
  | nil => trivial
  | cons l ls ih =>
      obtain ⟨hP, hrest⟩ := h
      obtain ⟨hQ, hI'⟩ := hstep s l hI hP
      exact ⟨hQ, ih hI' hrest⟩

/-- A run of valid steps reaches its last state. -/
theorem reachableWith_run {T : TSys S L} {Good Valid : S → L → Prop} {exec : S → L → S}
    (hstep : ∀ s l, Valid s l → T.step s l (exec s l)) {s : S} {ls : List L}
    (hs : T.ReachableWith Good s) (hrun : RunOk (fun s l => Good s l ∧ Valid s l) exec s ls) :
    T.ReachableWith Good (runFrom exec s ls) := by
  induction ls generalizing s with
  | nil => exact hs
  | cons l ls ih =>
      obtain ⟨⟨hgood, hvalid⟩, hrest⟩ := hrun
      exact ih (.step hs hgood (hstep s l hvalid)) hrest

/-- Where a step keeps `I` exactly when it satisfies `P`, `I` holds all along a
run exactly when every step of it satisfies `P`. `J` is what every step keeps. -/
theorem always_iff_runOk {P : S → L → Prop} {exec : S → L → S} {I J : S → Prop}
    (hstep : ∀ s l, J s → I s → (I (exec s l) ↔ P s l)) (hkeep : ∀ s l, J s → J (exec s l))
    {s : S} (hI : I s) (hJ : J s) (ls : List L) :
    (∀ ls', ls' <+: ls → I (runFrom exec s ls')) ↔ RunOk P exec s ls := by
  induction ls generalizing s with
  | nil =>
      refine ⟨fun _ => trivial, fun _ ls' hls' => ?_⟩
      rw [List.prefix_nil.mp hls']
      exact hI
  | cons l ls ih =>
      constructor
      · intro h
        have hI' : I (exec s l) := h [l] (List.prefix_append [l] ls)
        refine ⟨(hstep s l hJ hI).mp hI', (ih hI' (hkeep s l hJ)).mp fun ls' hls' => ?_⟩
        exact h (l :: ls') (List.cons_prefix_cons.mpr ⟨rfl, hls'⟩)
      · rintro ⟨hP, hrest⟩ ls' hls'
        have hI' : I (exec s l) := (hstep s l hJ hI).mpr hP
        cases ls' with
        | nil => exact hI
        | cons l' ls' =>
            obtain ⟨rfl, htail⟩ := List.cons_prefix_cons.mp hls'
            exact (ih hI' (hkeep s l' hJ)).mpr hrest ls' htail

/-- The steps can be taken one after the other, all satisfy `P`, and the last
state satisfies `Q`. -/
def RunTo (P : S → L → Prop) (exec : S → L → Option S) (Q : S → Prop) : S → List L → Prop
  | s, [] => Q s
  | s, l :: ls => P s l ∧ ∃ s' ∈ exec s l, RunTo P exec Q s' ls

instance decidableRunTo (P : S → L → Prop) [∀ s l, Decidable (P s l)]
    (exec : S → L → Option S) (Q : S → Prop) [DecidablePred Q] :
    (s : S) → (ls : List L) → Decidable (RunTo P exec Q s ls)
  | s, [] => inferInstanceAs (Decidable (Q s))
  | s, l :: ls =>
      have := fun s' => decidableRunTo P exec Q s' ls
      inferInstanceAs (Decidable (P s l ∧ ∃ s' ∈ exec s l, RunTo P exec Q s' ls))

/-- A run whose steps can be taken reaches its last state. -/
theorem reachableWith_runTo {T : TSys S L} {Good : S → L → Prop} {exec : S → L → Option S}
    {Q : S → Prop} (hstep : ∀ s l s', exec s l = some s' → T.step s l s') {s : S} {ls : List L}
    (hs : T.ReachableWith Good s) (hrun : RunTo Good exec Q s ls) :
    ∃ s', T.ReachableWith Good s' ∧ Q s' := by
  induction ls generalizing s with
  | nil => exact ⟨s, hs, hrun⟩
  | cons l ls ih =>
      obtain ⟨hgood, s', hexec, hrest⟩ := hrun
      exact ih (.step hs hgood (hstep s l s' hexec)) hrest

/-- A run of steps `C`, of as many steps `R`, and of steps `N` in between: `n` of the
steps `C` before it are still open. -/
def Balanced (C R N : S → L → Prop) (exec : S → L → S) : Nat → S → List L → Prop
  | n, _, [] => n = 0
  | n, s, l :: ls => (C s l ∧ Balanced C R N exec (n + 1) (exec s l) ls) ∨
      (0 < n ∧ R s l ∧ Balanced C R N exec (n - 1) (exec s l) ls) ∨
      (N s l ∧ Balanced C R N exec n (exec s l) ls)

instance decidableBalanced (C R N : S → L → Prop) [∀ s l, Decidable (C s l)]
    [∀ s l, Decidable (R s l)] [∀ s l, Decidable (N s l)] (exec : S → L → S) :
    (n : Nat) → (s : S) → (ls : List L) → Decidable (Balanced C R N exec n s ls)
  | n, _, [] => inferInstanceAs (Decidable (n = 0))
  | n, s, l :: ls =>
      have := fun m => decidableBalanced C R N exec m (exec s l) ls
      inferInstanceAs (Decidable ((C s l ∧ Balanced C R N exec (n + 1) (exec s l) ls) ∨
        (0 < n ∧ R s l ∧ Balanced C R N exec (n - 1) (exec s l) ls) ∨
        (N s l ∧ Balanced C R N exec n (exec s l) ls)))

/-- Up to `E`, a step `R` undoes the last step `C`, and a step `N` does nothing. `I` is
what every one of them keeps. -/
structure Undoes (C R N : S → L → Prop) (exec : S → L → S) (I : S → Prop) (E : S → S → Prop) :
    Prop where
  refl : ∀ s, E s s
  trans : ∀ {s t u}, I s → I t → E s t → E t u → E s u
  keep : ∀ s l, I s → C s l → I (exec s l)
  undo : ∀ s l t r, I s → C s l → I t → E (exec s l) t → R t r → E s (exec t r) ∧ I (exec t r)
  rest : ∀ s l, I s → N s l → E s (exec s l) ∧ I (exec s l)

/-- `t` is reached from `s` by `n` steps `C` with only balanced runs in between. -/
private def StillOpen (C : S → L → Prop) (exec : S → L → S) (I : S → Prop) (E : S → S → Prop)
    (s : S) : Nat → S → Prop
  | 0, t => E s t
  | n + 1, t => ∃ u l, StillOpen C exec I E s n u ∧ I u ∧ C u l ∧ E (exec u l) t

/-- **A balanced run does nothing**, up to `E`. -/
theorem Undoes.balanced {C R N : S → L → Prop} {exec : S → L → S} {I : S → Prop}
    {E : S → S → Prop} (h : Undoes C R N exec I E) {s : S} (hs : I s) {ls : List L}
    (hrun : Balanced C R N exec 0 s ls) : E s (runFrom exec s ls) ∧ I (runFrom exec s ls) := by
  have hcongr : ∀ n t u, StillOpen C exec I E s n t → I t → E t u → StillOpen C exec I E s n u := by
    intro n t u ht hI hu
    cases n with
    | zero => exact h.trans hs hI ht hu
    | succ n =>
        obtain ⟨v, l, hv, hIv, hC, hE⟩ := ht
        exact ⟨v, l, hv, hIv, hC, h.trans (h.keep v l hIv hC) hI hE hu⟩
  suffices hrest : ∀ ls n t, StillOpen C exec I E s n t → I t → Balanced C R N exec n t ls →
      E s (runFrom exec t ls) ∧ I (runFrom exec t ls) from hrest ls 0 s (h.refl s) hs hrun
  intro ls
  induction ls with
  | nil =>
      rintro n t ht hI rfl
      exact ⟨ht, hI⟩
  | cons l ls ih =>
      rintro n t ht hI (⟨hC, hrun⟩ | ⟨hn, hR, hrun⟩ | ⟨hN, hrun⟩)
      · exact ih (n + 1) (exec t l) ⟨t, l, ht, hI, hC, h.refl _⟩ (h.keep t l hI hC) hrun
      · obtain ⟨m, rfl⟩ : ∃ m, n = m + 1 := ⟨n - 1, by omega⟩
        obtain ⟨u, c, hu, hIu, hC, hE⟩ := ht
        obtain ⟨hback, hI'⟩ := h.undo u c t l hIu hC hI hE hR
        exact ih m (exec t l) (hcongr m u _ hu hIu hback) hI' hrun
      · obtain ⟨hE, hI'⟩ := h.rest t l hI hN
        exact ih n (exec t l) (hcongr n t _ ht hI hE) hI' hrun

/-- Along `abs`, the runs of `T` that satisfy `Good` are runs of `U`. `J` is what is
known of the states of `T`. -/
structure Refines {A M : Type} (T : TSys S L) (U : TSys A M) (Good : S → L → Prop)
    (J : S → Prop) (abs : S → A) : Prop where
  init : ∀ s, T.init s → U.init (abs s)
  step : ∀ s l s', J s → Good s l → T.step s l s' → ∃ m, U.step (abs s) m (abs s')

theorem Refines.reachable {A M : Type} {T : TSys S L} {U : TSys A M} {Good : S → L → Prop}
    {J : S → Prop} {abs : S → A} (h : T.Refines U Good J abs) (hJ : T.Inductive Good J) {s : S}
    (hreach : T.ReachableWith Good s) : U.Reachable (abs s) := by
  induction hreach with
  | init hi => exact .init (h.init _ hi)
  | step hprev hgood hstep ih =>
      obtain ⟨m, hm⟩ := h.step _ _ _ (hJ.invariant hprev) hgood hstep
      exact .step ih trivial hm

/-- A relation the runs of `T` that satisfy `Good` keep with runs of `U` that satisfy
`Good'`: a step of `T` is one of `U`, or leaves the state of `U` where it is. -/
structure Simulates {A M : Type} (T : TSys S L) (U : TSys A M) (Good : S → L → Prop)
    (Good' : A → M → Prop) (R : S → A → Prop) : Prop where
  init : ∀ s, T.init s → ∃ a, U.init a ∧ R s a
  step : ∀ s l s' a, R s a → Good s l → T.step s l s' →
    R s' a ∨ ∃ m a', Good' a m ∧ U.step a m a' ∧ R s' a'

/-- What `T` reaches is related to something that `U` reaches. -/
theorem Simulates.reachable {A M : Type} {T : TSys S L} {U : TSys A M} {Good : S → L → Prop}
    {Good' : A → M → Prop} {R : S → A → Prop} (h : T.Simulates U Good Good' R) {s : S}
    (hreach : T.ReachableWith Good s) : ∃ a, U.ReachableWith Good' a ∧ R s a := by
  induction hreach with
  | init hi =>
      obtain ⟨a, hinit, hR⟩ := h.init _ hi
      exact ⟨a, .init hinit, hR⟩
  | step hprev hgood hstep ih =>
      obtain ⟨a, ha, hR⟩ := ih
      obtain hR' | ⟨m, a', hgood', hm, hR'⟩ := h.step _ _ _ a hR hgood hstep
      · exact ⟨a, ha, hR'⟩
      · exact ⟨a', .step ha hgood' hm, hR'⟩

end TSys

end Newmux.Base
