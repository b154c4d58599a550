import Newmux.Base.Decimal
import Newmux.Logic.LayoutTree

/-!
# Reading back a dumped layout

The text `layout_append` writes for a tree, whatever the buffer; the dump
succeeds exactly when that text fits. `layout_construct` reads it back: a cell's
text is followed by the end, by a closing bracket or by the comma before the next
cell, and the number behind a comma is a pane id unless an `x` follows it.
-/

namespace Newmux.Logic

open Newmux.Base Newmux.Tmux LayoutCell

/-! ## The text of a tree -/

/-- The pane id in a cell's text. -/
def idText : Option Nat → List Char
  | none => []
  | some id => ',' :: decimal id

theorem cellText_eq (g : Geom) (wp : Option Nat) : cellText g wp =
    decimal g.sx ++ 'x' :: (decimal g.sy ++
      ',' :: (decimal g.xoff ++ ',' :: (decimal g.yoff ++ idText wp))) := by
  cases wp <;> simp [cellText, idText]

mutual
/-- What `layout_append` appends for a cell. -/
def layoutText : LayoutCell → List Char
  | .pane g wp => cellText g wp
  | .split t g cells =>
      (cellText g none ++ openBracket t :: layoutTextList cells).dropLast ++ [closeBracket t]
def layoutTextList : List LayoutCell → List Char
  | [] => []
  | lc :: cells => layoutText lc ++ ',' :: layoutTextList cells
end

/-- Append as `strlcat` does: all of it, if that fits. -/
def fits (buf text : List Char) : Option (List Char) :=
  if (buf ++ text).length < layoutBufferSize then some (buf ++ text) else none

theorem strlcat_eq (buf text : List Char) : strlcat buf text = fits buf text := by
  unfold strlcat fits
  split <;> split <;> first | rfl | omega

/-- Two appends in a row are one. -/
theorem fits_bind (buf a b : List Char) :
    ((fits buf a).bind fun buf => fits buf b) = fits buf (a ++ b) := by
  unfold fits
  by_cases h : (buf ++ a).length < layoutBufferSize
  · rw [if_pos h, Option.bind_some, List.append_assoc]
  · have h' : ¬ (buf ++ (a ++ b)).length < layoutBufferSize := by
      simp only [List.length_append] at h ⊢
      omega
    rw [if_neg h, if_neg h', Option.bind_none]

theorem layoutText_ne_nil (lc : LayoutCell) : layoutText lc ≠ [] := by
  cases lc with
  | pane g wp =>
      rw [layoutText, cellText_eq]
      simp
  | split t g cells =>
      rw [layoutText]
      exact List.append_ne_nil_of_right_ne_nil _ (List.cons_ne_nil _ _)

/-- The closing bracket overwrites a character of the text itself. -/
theorem fits_close (buf text : List Char) (c : Char) (hne : text ≠ []) :
    ((fits buf text).map fun buf => buf.dropLast ++ [c]) = fits buf (text.dropLast ++ [c]) := by
  have hlen : (buf ++ (text.dropLast ++ [c])).length = (buf ++ text).length := by
    have := List.length_pos_iff.mpr hne
    simp only [List.length_append, List.length_dropLast, List.length_singleton]
    omega
  unfold fits
  rw [hlen]
  split
  · rw [Option.map_some, List.dropLast_append_of_ne_nil hne, List.append_assoc]
  · rfl

/-- A buffer that is not full takes nothing more. -/
theorem fits_nil {buf : List Char} (h : buf.length < layoutBufferSize) : fits buf [] = some buf := by
  unfold fits
  rw [List.append_nil, if_pos h]

theorem fits_length {buf text buf' : List Char} (h : fits buf text = some buf') :
    buf'.length < layoutBufferSize := by
  unfold fits at h
  split at h
  · next hlt =>
      rw [← Option.some.inj h]
      exact hlt
  · cases h

/-- **`layout_append`** appends a cell's text if it fits, and fails if not. -/
theorem layoutAppend_eq (lc : LayoutCell) (buf : List Char) :
    layoutAppend lc buf = fits buf (layoutText lc) := by
  induction lc using LayoutCell.induct generalizing buf with
  | pane g wp =>
      rw [layoutAppend, strlcat_eq]
      rfl
  | split t g cells ih =>
      -- the children, each with its comma, by induction on the list
      have hlist : ∀ (cells : List LayoutCell),
          (∀ c ∈ cells, ∀ buf, layoutAppend c buf = fits buf (layoutText c)) →
          ∀ buf, buf.length < layoutBufferSize →
            layoutAppendList cells buf = fits buf (layoutTextList cells) := by
        intro cells
        induction cells with
        | nil =>
            intro _ buf hbuf
            exact (fits_nil hbuf).symm
        | cons c cells ihl =>
            intro h buf hbuf
            have hrest : ∀ buf', fits buf (layoutText c ++ [',']) = some buf' →
                layoutAppendList cells buf' = fits buf' (layoutTextList cells) :=
              fun buf' hbuf' => ihl (fun x hx => h x (List.mem_cons_of_mem _ hx)) buf'
                (fits_length hbuf')
            have happend : layoutAppendList (c :: cells) buf =
                ((fits buf (layoutText c)).bind fun buf => fits buf [',']).bind
                  fun buf => layoutAppendList cells buf := by
              rw [layoutAppendList, h c List.mem_cons_self]
              simp only [strlcat_eq]
              cases fits buf (layoutText c) <;> rfl
            rw [happend, fits_bind]
            have hcongr : ((fits buf (layoutText c ++ [','])).bind
                  fun buf => layoutAppendList cells buf) =
                (fits buf (layoutText c ++ [','])).bind
                  fun buf => fits buf (layoutTextList cells) := by
              cases hb : fits buf (layoutText c ++ [',']) with
              | none => rfl
              | some buf' => exact hrest buf' hb
            rw [hcongr, fits_bind, List.append_assoc]
            rfl
      -- the last comma gives way to the closing bracket
      have happend : layoutAppend (.split t g cells) buf =
          (((fits buf (cellText g none)).bind fun buf => fits buf [openBracket t]).bind
            fun buf => layoutAppendList cells buf).map fun buf => buf.dropLast ++ [closeBracket t] := by
        rw [layoutAppend]
        simp only [strlcat_eq]
        cases fits buf (cellText g none) with
        | none => rfl
        | some buf =>
            cases hb : fits buf [openBracket t] with
            | none => simp [hb]
            | some buf' =>
                simp only [hb, Option.bind_eq_bind, Option.bind_some]
                cases layoutAppendList cells buf' <;> rfl
      have hcongr : (((fits buf (cellText g none)).bind fun buf => fits buf [openBracket t]).bind
            fun buf => layoutAppendList cells buf) =
          fits buf (cellText g none ++ openBracket t :: layoutTextList cells) := by
        rw [fits_bind]
        have := fits_bind buf (cellText g none ++ [openBracket t]) (layoutTextList cells)
        rw [List.append_assoc, List.singleton_append] at this
        rw [← this]
        cases hb : fits buf (cellText g none ++ [openBracket t]) with
        | none => rfl
        | some buf' => exact hlist cells ih buf' (fits_length hb)
      rw [happend, hcongr, fits_close _ _ _ (by simp)]
      rfl

/-- The text of a dumped tree, behind its checksum. -/
def dumpText (lc : LayoutCell) : List Char :=
  hex4 (layoutChecksum (layoutText lc)) ++ ',' :: layoutText lc

/-- **`layout_dump`** fails exactly on a text that does not fit its buffer. -/
theorem layoutDump_eq (lc : LayoutCell) : layoutDump (some lc) =
    if (layoutText lc).length < layoutBufferSize then some (dumpText lc) else none := by
  unfold layoutDump dumpText
  simp only [layoutAppend_eq]
  unfold fits
  rw [List.nil_append]
  split <;> rfl

/-! ## Scanning numbers -/

/-- The text does not go on with a digit. -/
def NoDigit (rest : List Char) : Prop := ∀ c ∈ rest.head?, c.isDigit = false

theorem noDigit_cons {c : Char} (h : c.isDigit = false) (rest : List Char) : NoDigit (c :: rest) := by
  intro x hx
  rw [← Option.mem_some.mp hx]
  exact h

theorem decimal_digits (n : Nat) : ∀ c ∈ decimal n, c.isDigit = true := Decimal.digits_toDigits n

theorem takeWhile_decimal (n : Nat) {rest : List Char} (h : NoDigit rest) :
    (decimal n ++ rest).takeWhile Char.isDigit = decimal n := by
  rw [List.takeWhile_append_of_pos (decimal_digits n)]
  cases rest with
  | nil => rw [List.takeWhile_nil, List.append_nil]
  | cons c rest =>
      rw [List.takeWhile_cons_of_neg (by rw [h c rfl]; exact Bool.false_ne_true), List.append_nil]

theorem dropWhile_decimal (n : Nat) {rest : List Char} (h : NoDigit rest) :
    (decimal n ++ rest).dropWhile Char.isDigit = rest := by
  rw [List.dropWhile_append_of_pos (decimal_digits n)]
  cases rest with
  | nil => rfl
  | cons c rest => exact List.dropWhile_cons_of_neg (by rw [h c rfl]; exact Bool.false_ne_true)

/-- A number is read up to the first character that is not a digit. -/
theorem scanNumber_decimal (n : Nat) {rest : List Char} (h : NoDigit rest) :
    scanNumber (decimal n ++ rest) = some (n, rest) := by
  have hne : decimal n ≠ [] := Nat.toDigits_ne_nil
  obtain ⟨d, ds, hd⟩ := List.exists_cons_of_ne_nil hne
  unfold scanNumber
  rw [takeWhile_decimal n h, dropWhile_decimal n h]
  rw [hd]
  simp only
  rw [← hd]
  exact congrArg (fun m => some (m, rest)) Nat.ofDigitChars_ten_toDigits

@[simp] theorem scanChar_self (c : Char) (rest : List Char) : scanChar c (c :: rest) = some rest :=
  if_pos rfl

/-! ## Reading a cell -/

/-- What can follow a cell: the end, a closing bracket, or the next cell. -/
inductive Follows : List Char → Prop
  | done : Follows []
  | close (t rest) : Follows (closeBracket t :: rest)
  | next (n rest) : Follows (',' :: (decimal n ++ 'x' :: rest))

theorem Follows.noDigit {rest : List Char} (h : Follows rest) : NoDigit rest := by
  cases h with
  | done => exact fun c hc => absurd hc (Option.not_mem_none c)
  | close t rest => cases t <;> exact noDigit_cons (by decide) rest
  | next n rest => exact noDigit_cons (by decide) _

/-- Nothing is skipped before what follows a cell. -/
theorem Follows.skip {rest : List Char} (h : Follows rest) : skipPaneId rest = rest := by
  cases h with
  | done => rfl
  | close t rest => cases t <;> rfl
  | next n rest =>
      unfold skipPaneId
      simp only
      rw [dropWhile_decimal n (noDigit_cons (by decide) rest)]
      rfl

/-- A pane id is skipped. -/
theorem Follows.skipId {rest : List Char} (h : Follows rest) (id : Nat) :
    skipPaneId (',' :: (decimal id ++ rest)) = rest := by
  unfold skipPaneId
  simp only
  rw [dropWhile_decimal id h.noDigit]
  cases h with
  | done => rfl
  | close t rest => cases t <;> rfl
  | next n rest => rfl

/-- A cell's text has its geometry in front. -/
theorem layoutConstructCell_eq (g : Geom) (wp : Option Nat) {rest : List Char}
    (h : NoDigit rest) : layoutConstructCell (cellText g wp ++ rest) =
      some (g, skipPaneId (idText wp ++ rest)) := by
  have htail : NoDigit (idText wp ++ rest) := by
    cases wp with
    | none => exact h
    | some id => exact noDigit_cons (by decide) _
  unfold layoutConstructCell
  rw [cellText_eq]
  simp only [List.append_assoc, List.cons_append]
  rw [scanNumber_decimal _ (noDigit_cons (by decide) _)]
  simp only [Option.bind_eq_bind, Option.bind_some, scanChar_self]
  rw [scanNumber_decimal _ (noDigit_cons (by decide) _)]
  simp only [Option.bind_some, scanChar_self]
  rw [scanNumber_decimal _ (noDigit_cons (by decide) _)]
  simp only [Option.bind_some, scanChar_self]
  rw [scanNumber_decimal _ htail]
  rfl

theorem constructCell_follows (g : Geom) (wp : Option Nat) {rest : List Char} (h : Follows rest) :
    layoutConstructCell (cellText g wp ++ rest) = some (g, rest) := by
  rw [layoutConstructCell_eq g wp h.noDigit]
  cases wp with
  | none => exact congrArg (fun r => some (g, r)) h.skip
  | some id => exact congrArg (fun r => some (g, r)) (h.skipId id)

theorem constructCell_open (g : Geom) (t : LayoutType) (rest : List Char) :
    layoutConstructCell (cellText g none ++ openBracket t :: rest) =
      some (g, openBracket t :: rest) := by
  have h : NoDigit (openBracket t :: rest) := by cases t <;> exact noDigit_cons (by decide) rest
  rw [layoutConstructCell_eq g none h]
  cases t <;> rfl

/-! ## Reading a tree -/

mutual
/-- A tree as it is read: the cells, without the panes. -/
def withoutPanes : LayoutCell → LayoutCell
  | .pane g _ => .pane g none
  | .split t g cells => .split t g (withoutPanesList cells)
def withoutPanesList : List LayoutCell → List LayoutCell
  | [] => []
  | lc :: cells => withoutPanes lc :: withoutPanesList cells
end

theorem withoutPanesList_eq (cells : List LayoutCell) :
    withoutPanesList cells = cells.map withoutPanes := by
  induction cells with
  | nil => rfl
  | cons lc cells ih => rw [withoutPanesList, ih, List.map_cons]

/-- A cell's text begins with a number and an `x`. -/
theorem layoutText_begins (lc : LayoutCell) : ∃ n rest, layoutText lc = decimal n ++ 'x' :: rest := by
  have hcell : ∀ g wp, ∃ rest, cellText g wp = decimal g.sx ++ 'x' :: rest :=
    fun g wp => ⟨_, cellText_eq g wp⟩
  cases lc with
  | pane g wp => exact ⟨g.sx, hcell g wp⟩
  | split t g cells =>
      obtain ⟨rest, hrest⟩ := hcell g none
      refine ⟨g.sx, rest ++ (openBracket t :: layoutTextList cells).dropLast ++ [closeBracket t], ?_⟩
      rw [layoutText, List.dropLast_append_of_ne_nil (List.cons_ne_nil _ _), hrest]
      simp

/-- The children's text without the comma after the last. -/
theorem layoutTextList_dropLast (lc : LayoutCell) (cells : List LayoutCell) :
    (layoutTextList (lc :: cells)).dropLast =
      if cells = [] then layoutText lc else layoutText lc ++ ',' :: (layoutTextList cells).dropLast := by
  rw [layoutTextList]
  cases cells with
  | nil => simp [layoutTextList]
  | cons c cells =>
      have hne : layoutTextList (c :: cells) ≠ [] := by
        rw [layoutTextList]
        exact List.append_ne_nil_of_left_ne_nil (layoutText_ne_nil c) _
      rw [List.dropLast_append_of_ne_nil (List.cons_ne_nil _ _), List.dropLast_cons_of_ne_nil hne]
      simp

theorem layoutText_split {t : LayoutType} {g : Geom} {cells : List LayoutCell} (hne : cells ≠ []) :
    layoutText (.split t g cells) =
      cellText g none ++ openBracket t :: ((layoutTextList cells).dropLast ++ [closeBracket t]) := by
  obtain ⟨c, cells, rfl⟩ := List.exists_cons_of_ne_nil hne
  have hne' : layoutTextList (c :: cells) ≠ [] := by
    rw [layoutTextList]
    exact List.append_ne_nil_of_left_ne_nil (layoutText_ne_nil c) _
  rw [layoutText, List.dropLast_append_of_ne_nil (List.cons_ne_nil _ _),
    List.dropLast_cons_of_ne_nil hne', List.append_assoc, List.cons_append]

theorem construct_leaf {fuel : Nat} {layout rest : List Char} {g : Geom}
    (h : layoutConstructCell layout = some (g, rest)) (hrest : Follows rest) :
    layoutConstruct (fuel + 1) layout = some (.pane g none, rest) := by
  unfold layoutConstruct
  rw [h]
  simp only [Option.bind_eq_bind, Option.bind_some]
  cases hrest with
  | done => rfl
  | close t rest => cases t <;> rfl
  | next n rest => rfl

theorem construct_node {fuel : Nat} {layout rest rest' : List Char} {t : LayoutType} {g : Geom}
    {cells : List LayoutCell} (h : layoutConstructCell layout = some (g, openBracket t :: rest))
    (hcells : layoutConstructList fuel rest = some (cells, closeBracket t :: rest')) :
    layoutConstruct (fuel + 1) layout = some (.split t g cells, rest') := by
  unfold layoutConstruct
  rw [h]
  cases t with
  | leftRight =>
      have hclose : layoutConstructList fuel rest = some (cells, '}' :: rest') := hcells
      simp [openBracket, hclose]
  | topBottom =>
      have hclose : layoutConstructList fuel rest = some (cells, ']' :: rest') := hcells
      simp [openBracket, hclose]

/-- **`layout_construct` reads back what `layout_append` wrote**, up to what
follows it. -/
theorem layoutConstruct_text {lc : LayoutCell} (h : Consistent lc) (fuel : Nat)
    (hfuel : (layoutText lc).length ≤ fuel) {rest : List Char} (hrest : Follows rest) :
    layoutConstruct fuel (layoutText lc ++ rest) = some (withoutPanes lc, rest) := by
  induction lc using LayoutCell.induct generalizing fuel rest with
  | pane g wp =>
      have hpos := List.length_pos_iff.mpr (layoutText_ne_nil (.pane g wp))
      obtain ⟨fuel, rfl⟩ : ∃ n, fuel = n + 1 := ⟨fuel - 1, by omega⟩
      exact construct_leaf (constructCell_follows g wp hrest) hrest
  | split t g cells ih =>
      -- the children and the bracket behind them, by induction on the list
      have hlist : ∀ (cells : List LayoutCell), cells ≠ [] →
          (∀ c ∈ cells, ∀ fuel : Nat, (layoutText c).length ≤ fuel → ∀ {rest : List Char},
            Follows rest → layoutConstruct fuel (layoutText c ++ rest) =
              some (withoutPanes c, rest)) →
          ∀ (fuel : Nat), (layoutTextList cells).length ≤ fuel → ∀ (rest : List Char),
            layoutConstructList fuel ((layoutTextList cells).dropLast ++ closeBracket t :: rest) =
              some (withoutPanesList cells, closeBracket t :: rest) := by
        intro cells
        induction cells with
        | nil => intro hne; exact absurd rfl hne
        | cons c cells ihl =>
            intro _ hc fuel hfuel rest
            rw [layoutTextList, List.length_append, List.length_cons] at hfuel
            obtain ⟨fuel, rfl⟩ : ∃ n, fuel = n + 1 := ⟨fuel - 1, by omega⟩
            rw [layoutTextList_dropLast]
            by_cases hne : cells = []
            · have hread := hc c List.mem_cons_self fuel (by omega) (.close t rest)
              rw [if_pos hne, hne]
              unfold layoutConstructList
              rw [hread]
              cases t <;> rfl
            · obtain ⟨c', cells', rfl⟩ := List.exists_cons_of_ne_nil hne
              have hrest' := ihl hne (fun x hx => hc x (List.mem_cons_of_mem _ hx)) fuel
                (by omega) rest
              -- behind the comma a cell begins, so that its width is not taken for a pane id
              obtain ⟨n, more, hmore⟩ : ∃ n more,
                  (layoutTextList (c' :: cells')).dropLast ++ closeBracket t :: rest =
                    decimal n ++ 'x' :: more := by
                obtain ⟨n, more, hmore⟩ := layoutText_begins c'
                rw [layoutTextList_dropLast]
                split
                · exact ⟨n, more ++ closeBracket t :: rest, by rw [hmore]; simp⟩
                · exact ⟨n, _, by rw [hmore, List.append_assoc, List.append_assoc]; rfl⟩
              have hread := hc c List.mem_cons_self fuel (by omega) (.next n more)
              rw [if_neg hne, List.append_assoc, List.cons_append, hmore]
              unfold layoutConstructList
              rw [hread]
              simp only [Option.bind_eq_bind, Option.bind_some]
              rw [← hmore, hrest']
              rfl
      have hne : cells ≠ [] := by
        cases h with
        | split hlen _ _ _ => exact List.ne_nil_of_length_pos (by omega)
      rw [layoutText_split hne] at hfuel ⊢
      have hlen : (layoutTextList cells).length ≤ ((layoutTextList cells).dropLast ++
          [closeBracket t]).length := by
        rw [List.length_append, List.length_dropLast, List.length_singleton]
        omega
      rw [List.length_append, List.length_cons] at hfuel
      obtain ⟨fuel, rfl⟩ : ∃ n, fuel = n + 1 := ⟨fuel - 1, by omega⟩
      have hcells := hlist cells hne (fun c hc fuel hf {rest} hr => ih c hc (h.child hc) fuel hf hr)
        fuel (by omega) rest
      rw [List.append_assoc, List.cons_append, List.append_assoc, List.singleton_append]
      exact construct_node (constructCell_open g t _) hcells

/-! ## Without the panes -/

@[simp] theorem withoutPanes_geom (lc : LayoutCell) : (withoutPanes lc).geom = lc.geom := by
  cases lc <;> rfl

theorem withoutPanes_size (lc : LayoutCell) : size (withoutPanes lc) = size lc := by
  unfold size
  rw [withoutPanes_geom]

theorem withoutPanes_count (lc : LayoutCell) :
    (withoutPanes lc).layoutCountCells = lc.layoutCountCells := by
  induction lc using LayoutCell.induct with
  | pane g wp => rfl
  | split t g cells ih =>
      rw [withoutPanes, layoutCountCells, layoutCountCells, layoutCountCellsList_eq,
        layoutCountCellsList_eq, withoutPanesList_eq, List.map_map]
      exact congrArg List.sum (List.map_congr_left ih)

theorem layoutCheck_withoutPanes (lc : LayoutCell) :
    layoutCheck (withoutPanes lc) = layoutCheck lc := by
  induction lc using LayoutCell.induct with
  | pane g wp => rfl
  | split t g cells ih =>
      have hsum : ((withoutPanesList cells).map fun c => c.geom.along t + 1) =
          cells.map fun c => c.geom.along t + 1 := by
        rw [withoutPanesList_eq, List.map_map]
        exact List.map_congr_left fun c _ => by
          simp only [Function.comp_apply, withoutPanes_geom]
      have hlist : layoutCheckList t g (withoutPanesList cells) = layoutCheckList t g cells := by
        rw [Bool.eq_iff_iff, layoutCheckList_iff, layoutCheckList_iff, withoutPanesList_eq]
        simp only [List.forall_mem_map, withoutPanes_geom]
        exact forall₂_congr fun c hc => by rw [ih c hc]
      rw [withoutPanes, layoutCheck, layoutCheck, hlist, hsum]

theorem branching_withoutPanes (lc : LayoutCell) : branching (withoutPanes lc) = branching lc := by
  induction lc using LayoutCell.induct with
  | pane g wp => rfl
  | split t g cells ih =>
      rw [withoutPanes, branching, branching, withoutPanesList_eq, List.length_map]
      refine congrArg _ ?_
      rw [Bool.eq_iff_iff, branchingList_iff, branchingList_iff]
      simp only [List.forall_mem_map]
      exact forall₂_congr fun c hc => by rw [ih c hc]

theorem consistent_withoutPanes {lc : LayoutCell} :
    Consistent (withoutPanes lc) ↔ Consistent lc := by
  rw [consistent_iff, consistent_iff, layoutCheck_withoutPanes, branching_withoutPanes]

theorem Consistent.withoutPanes {lc : LayoutCell} (h : Consistent lc) :
    Consistent (withoutPanes lc) := consistent_withoutPanes.mpr h

/-- **Handing the panes out again** in tree order gives the tree back. -/
theorem layoutAssign_withoutPanes {lc : LayoutCell} {wps : List Nat}
    (h : lc.panes = wps.map some) (more : List Nat) :
    layoutAssign (wps ++ more) (withoutPanes lc) = (lc, more) := by
  induction lc using LayoutCell.induct generalizing wps more with
  | pane g wp =>
      obtain ⟨id, rfl, rfl⟩ : ∃ id, wps = [id] ∧ wp = some id := by
        rw [panes] at h
        obtain ⟨id, wps, rfl, hid, hwps⟩ := List.map_eq_cons_iff.mp h.symm
        exact ⟨id, by rw [List.map_eq_nil_iff.mp hwps], hid.symm⟩
      rfl
  | split t g cells ih =>
      have hlist : ∀ (cells : List LayoutCell) (wps : List Nat),
          (∀ c ∈ cells, ∀ {wps : List Nat}, c.panes = wps.map some → ∀ more,
            layoutAssign (wps ++ more) (withoutPanes c) = (c, more)) →
          panesList cells = wps.map some →
          layoutAssignList (wps ++ more) (withoutPanesList cells) = (cells, more) := by
        intro cells
        induction cells with
        | nil =>
            intro wps _ hwps
            rw [List.map_eq_nil_iff.mp hwps.symm]
            rfl
        | cons c cells ihl =>
            intro wps hc hwps
            rw [panesList] at hwps
            obtain ⟨first, rest, rfl, hfirst, hrest⟩ := List.map_eq_append_iff.mp hwps.symm
            have hhead := hc c List.mem_cons_self hfirst.symm (rest ++ more)
            have htail := ihl rest (fun x hx => hc x (List.mem_cons_of_mem _ hx)) hrest.symm
            rw [withoutPanesList, List.append_assoc]
            simp only [layoutAssignList, hhead, htail]
      rw [panes] at h
      have := hlist cells wps ih h
      rw [withoutPanes]
      simp only [layoutAssign, this]

/-! ## Reading a dump -/

/-- A hexadecimal digit has a value, and is nothing that may stand before one. -/
theorem hexDigit_digitChar : ∀ d < 16, hexDigit (Nat.digitChar d) = some d ∧
    isSpace (Nat.digitChar d) = false ∧ Nat.digitChar d ≠ '-' ∧ Nat.digitChar d ≠ '+' ∧
      Nat.digitChar d ≠ 'x' ∧ Nat.digitChar d ≠ 'X' := by decide

/-- Four digits are read from the first one on. -/
theorem scanHex_digits {a b c d : Nat} (ha : a < 16) (hb : b < 16) (hc : c < 16) (hd : d < 16) :
    scanHex [Nat.digitChar a, Nat.digitChar b, Nat.digitChar c, Nat.digitChar d] =
      some (a * 4096 + b * 256 + c * 16 + d) := by
  obtain ⟨ha', hspace, hminus, hplus, -⟩ := hexDigit_digitChar a ha
  obtain ⟨hb', -, -, -, hlower, hupper⟩ := hexDigit_digitChar b hb
  have hc' := (hexDigit_digitChar c hc).1
  have hd' := (hexDigit_digitChar d hd).1
  have hfront : [Nat.digitChar a, Nat.digitChar b, Nat.digitChar c, Nat.digitChar d].dropWhile
      isSpace = [Nat.digitChar a, Nat.digitChar b, Nat.digitChar c, Nat.digitChar d] :=
    List.dropWhile_cons_of_neg (by simp [hspace])
  have hsign : ∀ t, takeSign (Nat.digitChar a :: t) = (false, Nat.digitChar a :: t) := by
    intro t
    unfold takeSign
    split
    · next heq => exact absurd (List.cons.inj heq).1 hminus
    · next heq => exact absurd (List.cons.inj heq).1 hplus
    · rfl
  have hskip : ∀ s t, skipHexPrefix (s :: Nat.digitChar b :: t) = s :: Nat.digitChar b :: t := by
    intro s t
    unfold skipHexPrefix
    split
    · next heq => exact absurd (List.cons.inj (List.cons.inj heq).2).1 hlower
    · next heq => exact absurd (List.cons.inj (List.cons.inj heq).2).1 hupper
    · rfl
  unfold scanHex
  rw [hfront, hsign]
  dsimp only
  rw [hskip]
  simp only [List.mapM_cons, List.mapM_nil, ha', hb', hc', hd', Option.bind_eq_bind,
    Option.bind_some, Option.pure_def, List.foldl_cons, List.foldl_nil, Bool.false_eq_true,
    if_false, reduceCtorEq]
  refine congrArg some ?_
  omega

theorem parseHeader_hex4 {n : Nat} (h : n < 65536) (rest : List Char) :
    parseHeader (hex4 n ++ ',' :: rest) = some (n, rest) := by
  have hlt : ∀ d, d % 16 < 16 := fun d => Nat.mod_lt d (by decide)
  unfold hex4
  simp only [List.cons_append, List.nil_append, parseHeader,
    scanHex_digits (hlt _) (hlt _) (hlt _) (hlt _), Option.map_some]
  refine congrArg (fun m => some (m, rest)) ?_
  omega

theorem layoutChecksum_lt (layout : List Char) : layoutChecksum layout < 65536 := by
  unfold layoutChecksum
  have hfold : ∀ (layout : List Char) n, n < 65536 → layout.foldl
      (fun csum c => (csum / 2 + (csum % 2) * 32768 + c.toNat) % 65536) n < 65536 := by
    intro layout
    induction layout with
    | nil => exact fun n h => h
    | cons c layout ih => exact fun n _ => ih _ (Nat.mod_lt _ (by decide))
  exact hfold layout 0 (by decide)

/-- The window size a tree asks for: its own, if it has more than one pane. -/
def askedSize : LayoutCell → Option (Nat × Nat)
  | .pane _ _ => none
  | .split _ g _ => some (g.sx, g.sy)

theorem topSize_eq {t : LayoutType} {g : Geom} {cells : List LayoutCell}
    (h : Consistent (.split t g cells)) : topSize t cells = (g.sx + 1, g.sy + 1) := by
  cases h with
  | split hlen _ hacross hsum =>
      have hne : cells ≠ [] := List.ne_nil_of_length_pos (by omega)
      have hlast := hacross _ (List.getLast_mem hne)
      unfold topSize
      rw [hsum, List.getLast?_eq_some_getLast hne]
      simp only [Option.map_some, Option.getD_some, hlast]
      cases t <;> rfl

/-- The top of a consistent tree needs no correction. -/
theorem correctTop_eq {lc : LayoutCell} (h : Consistent lc) :
    correctTop lc = (lc, askedSize lc) := by
  cases lc with
  | pane g wp => rfl
  | split t g cells =>
      simp only [correctTop, topSize_eq h]
      simp [askedSize]

/-- **A dump is read** up to where it is cut down to the number of panes. -/
theorem layoutRead_dumpText {lc : LayoutCell} (h : Consistent lc) (npanes : Nat) :
    layoutRead npanes (dumpText lc) =
      (closeBottomright npanes lc.layoutCountCells (withoutPanes lc)).bind fun lc =>
        if layoutCheck (correctTop lc).1 then .ok (correctTop lc)
        else .error "size mismatch after applying layout" := by
  have hread := layoutConstruct_text h (2 * (layoutText lc).length + 1) (by omega) .done
  rw [List.append_nil] at hread
  unfold layoutRead dumpText
  rw [parseHeader_hex4 (layoutChecksum_lt _)]
  simp only [ne_eq, not_true_eq_false, if_false, layoutText_ne_nil, hread, withoutPanes_count]
  rfl

theorem askedSize_withoutPanes (lc : LayoutCell) : askedSize (withoutPanes lc) = askedSize lc := by
  cases lc <;> rfl

theorem askedSize_eq {lc : LayoutCell} {s : Nat × Nat} (h : s ∈ askedSize lc) : s = size lc := by
  cases lc with
  | pane g wp => exact absurd h (Option.not_mem_none s)
  | split t g cells => exact (Option.mem_some.mp h).symm

/-- For as many panes as it has cells, a dump is read as the tree it is of. -/
theorem layoutRead_same {lc : LayoutCell} (h : Consistent lc) :
    layoutRead lc.layoutCountCells (dumpText lc) = .ok (withoutPanes lc, askedSize lc) := by
  have hclose : closeBottomright lc.layoutCountCells lc.layoutCountCells (withoutPanes lc) =
      .ok (withoutPanes lc) := by
    unfold closeBottomright
    simp [withoutPanes_count]
  rw [layoutRead_dumpText h, hclose]
  simp only [Except.bind, correctTop_eq h.withoutPanes, h.withoutPanes.check, if_true,
    askedSize_withoutPanes]

/-- For fewer, it is read as a consistent tree of the same size. -/
theorem layoutRead_fewer {lc : LayoutCell} (h : Consistent lc) {npanes : Nat} (hpos : 0 < npanes)
    (hle : npanes ≤ lc.layoutCountCells) :
    ∃ lc', layoutRead npanes (dumpText lc) = .ok (lc', askedSize lc') ∧ Consistent lc' ∧
      size lc' = size lc := by
  obtain ⟨lc', hclose, hcons, hsize, -⟩ := h.withoutPanes.closeBottomright hpos
    (by rw [withoutPanes_count]; exact hle) lc.layoutCountCells
    (by rw [withoutPanes_count]; omega)
  refine ⟨lc', ?_, hcons, hsize.trans (withoutPanes_size lc)⟩
  rw [layoutRead_dumpText h, hclose]
  simp only [Except.bind, correctTop_eq hcons, hcons.check, if_true]

/-- For more, it is refused. -/
theorem layoutRead_more {lc : LayoutCell} (h : Consistent lc) {npanes : Nat}
    (hlt : lc.layoutCountCells < npanes) : layoutRead npanes (dumpText lc) =
      .error s!"have {npanes} panes but need {lc.layoutCountCells}" := by
  rw [layoutRead_dumpText h]
  unfold closeBottomright
  simp only [withoutPanes_count, gt_iff_lt, hlt, if_true]
  rfl

/-- For none, too. -/
theorem layoutRead_none {lc : LayoutCell} (h : Consistent lc) (r : LayoutCell × Option (Nat × Nat)) :
    layoutRead 0 (dumpText lc) ≠ .ok r := by
  rw [layoutRead_dumpText h]
  cases hclose : closeBottomright 0 lc.layoutCountCells (withoutPanes lc) with
  | error cause => exact fun h => by cases h
  | ok lc' => exact absurd hclose (h.withoutPanes.closeBottomright_zero _ lc')

/-! ## Whatever is accepted -/

/-- An accepted tree has its top corrected and has passed `layout_check`. -/
theorem layoutRead_ok {npanes : Nat} {layout : List Char} {lc : LayoutCell}
    {asked : Option (Nat × Nat)} (h : layoutRead npanes layout = .ok (lc, asked)) :
    layoutCheck lc = true ∧ ∃ lc', correctTop lc' = (lc, asked) := by
  unfold layoutRead at h
  split at h
  · cases h
  · split at h
    · cases h
    · split at h
      · cases h
      · split at h
        · next lc₀ _ =>
            cases hclose : closeBottomright npanes lc₀.layoutCountCells lc₀ with
            | error cause => rw [hclose] at h; cases h
            | ok lc₁ =>
                rw [hclose] at h
                change (if layoutCheck (correctTop lc₁).1 then
                  Except.ok ((correctTop lc₁).1, (correctTop lc₁).2)
                  else Except.error _) = Except.ok (lc, asked) at h
                split at h
                · next hcheck =>
                    cases h
                    exact ⟨hcheck, lc₁, rfl⟩
                · cases h
        · cases h

/-- The size asked for is that of the corrected tree. -/
theorem correctTop_asked (lc : LayoutCell) :
    ∀ s ∈ (correctTop lc).2, s = size (correctTop lc).1 := by
  cases lc with
  | pane g wp => exact fun s h => absurd h (Option.not_mem_none s)
  | split t g cells =>
      intro s h
      simp only [correctTop] at h ⊢
      split at h
      · exact (Option.mem_some.mp h).symm
      · exact absurd h (Option.not_mem_none s)

mutual
/-- Handing out panes changes no cell. -/
theorem layoutAssign_geom : ∀ (wps : List Nat) (lc : LayoutCell),
    withoutPanes (layoutAssign wps lc).1 = withoutPanes lc
  | _, .pane _ _ => rfl
  | wps, .split t g cells => by
      have := layoutAssignList_geom wps cells
      simp only [layoutAssign, withoutPanes, this]
theorem layoutAssignList_geom : ∀ (wps : List Nat) (cells : List LayoutCell),
    withoutPanesList (layoutAssignList wps cells).1 = withoutPanesList cells
  | _, [] => rfl
  | wps, lc :: cells => by
      have hhead := layoutAssign_geom wps lc
      have htail := layoutAssignList_geom (layoutAssign wps lc).2 cells
      simp only [layoutAssignList, withoutPanesList, hhead, htail]
end

theorem layoutAssign_size (wps : List Nat) (lc : LayoutCell) :
    size (layoutAssign wps lc).1 = size lc := by
  rw [← withoutPanes_size, layoutAssign_geom, withoutPanes_size]

/-- Handing out panes keeps a tree consistent. -/
theorem Consistent.assign {lc : LayoutCell} (h : Consistent lc) (wps : List Nat) :
    Consistent (layoutAssign wps lc).1 := by
  rw [← consistent_withoutPanes, layoutAssign_geom]
  exact h.withoutPanes

end Newmux.Logic
