import Mathlib.Data.List.AList
import Mathlib.Data.List.Sort
import Newmux.Base.ReadReplace

/-!
# The state files of the runtime script

`newmux-runtime.py` keeps the commands entered in each pane, the closed windows
and the sequence numbers of those restored in files of its runtime directory.
Each call is a process of its own. `pane-commands.json` and
`lifo-restored.json` are read as a whole and replaced as a whole; a line is
only ever added to `lifo.jsonl`.
-/

namespace Newmux.Runtime

open Newmux.Base

/-! ## `pane-commands.json` -/

/-- What the file says of a pane; a missing field is `none` or zero. -/
structure CommandRecord where
  commandCount : Nat
  dirty : Bool
  lastCommand : Option String
  lastCommandAt : Option Nat
  markedAt : Option Nat
deriving DecidableEq, Repr

/-- The `{}` that stands for a pane without a record. -/
def CommandRecord.empty : CommandRecord := ⟨0, false, none, none, none⟩

/-- The records by pane. -/
abbrev CommandState := AList (fun _ : String => CommandRecord)

/-- `read_command_state`: no file reads as no records. -/
def readCommandState (file : Option CommandState) : CommandState := file.getD ∅

/-- `commands.get(pane, {})`. -/
def CommandState.get (commands : CommandState) (pane : String) : CommandRecord :=
  (commands.lookup pane).getD .empty

/-- What `command_entered` writes; `now` is its `time.time()`. -/
def commandEntered (pane shellCommand : String) (now : Nat) (commands : CommandState) :
    CommandState :=
  let previous := commands.get pane
  commands.insert pane
    { previous with
      commandCount := previous.commandCount + 1
      dirty := true
      lastCommand := some shellCommand
      lastCommandAt := some now }

/-- The body of the `for` of `mark_target`: a pane of the target, and the time. -/
def markRow (commands : CommandState) (row : String × Nat) : CommandState :=
  let previous := commands.get row.1
  commands.insert row.1
    { previous with
      dirty := decide (previous.commandCount > 0)
      markedAt := some row.2 }

/-- What `mark_target` writes. -/
def markTarget (rows : List (String × Nat)) (commands : CommandState) : CommandState :=
  rows.foldl markRow commands

/-- The calls that replace `pane-commands.json`. -/
inductive CommandCall where
  | command (pane shellCommand : String) (now : Nat)
  | mark (rows : List (String × Nat))
deriving DecidableEq, Repr

/-- What a call makes of the records it read. -/
def CommandCall.write : CommandCall → Option CommandState → Option (Option CommandState)
  | .command pane shellCommand now, file =>
      some (some (commandEntered pane shellCommand now (readCommandState file)))
  | .mark rows, file => some (some (markTarget rows (readCommandState file)))

/-! ## `lifo-restored.json` -/

/-- `read_restored_sequences`: the numbers written with digits alone; no file
reads as no numbers. -/
def readRestoredSequences (file : Option (List Int)) : List Int :=
  ((file.getD []).filter (fun n => decide (0 ≤ n))).dedup

/-- `write_restored_sequences`: the set is written in order. -/
def writeRestoredSequences (restored : List Int) : List Int := restored.insertionSort (· ≤ ·)

/-- The fields of the line `newmux-reopen-latest-closed -P` prints that
`restore_latest` looks at. -/
structure ReopenFields where
  restored : Option String
  window : Option String
  windowId : Option String
  sequence : Option Int
deriving DecidableEq, Repr

/-- Python's truth of a field. -/
def given (field : Option String) : Bool := field.any (· != "")

/-- `restore_latest` finds that something has been restored. -/
def ReopenFields.reopened (fields : ReopenFields) : Bool :=
  fields.restored != some "0" && (given fields.window || given fields.windowId)

/-- The calls that replace `lifo-restored.json`. -/
inductive RestoreCall where
  | mirrorNativeRestore (sequence : Int)
  | restoreLatest (fields : ReopenFields)
deriving DecidableEq, Repr

/-- The call gets as far as its `write_restored_sequences`. -/
def RestoreCall.writes : RestoreCall → Bool
  | .mirrorNativeRestore _ => true
  | .restoreLatest fields => fields.reopened

/-- The number it adds to the set. -/
def RestoreCall.sequence : RestoreCall → Option Int
  | .mirrorNativeRestore sequence => some sequence
  | .restoreLatest fields => fields.sequence

/-- What a call makes of the numbers it read. -/
def RestoreCall.write (call : RestoreCall) (file : Option (List Int)) :
    Option (Option (List Int)) :=
  let restored := readRestoredSequences file
  if call.writes then
    some (some (writeRestoredSequences (match call.sequence with
      | none => restored
      | some sequence => restored.insert sequence)))
  else none

/-! ## `lifo.jsonl` -/

/-- A line of `lifo.jsonl`, as far as the calls and the native stack share it. -/
structure LifoItem where
  sequence : Int
  kind : String
  window : Nat
  workspace : String
  originalIndex : Option Int
  leftNeighbor : Option Int
  rightNeighbor : Option Int
  mode : String
  nativeMirror : Bool
deriving DecidableEq, Repr

/-- The two files of the closed windows. -/
structure StackFiles where
  lifo : List LifoItem
  restored : Option (List Int)
deriving DecidableEq, Repr

/-- `read_lifo_items`: the lines, without those of restored numbers unless they
are asked for. -/
def readLifoItems (files : StackFiles) (includeRestored : Bool) : List LifoItem :=
  let restored := readRestoredSequences files.restored
  files.lifo.filter fun item => decide (item.sequence ∉ restored) || includeRestored

/-- `append_lifo_item_if_missing`. -/
def appendLifoItemIfMissing (files : StackFiles) (item : LifoItem) : StackFiles × Bool :=
  if item.sequence ≤ 0 then (files, false)
  else if (readLifoItems files true).any (fun existing => existing.sequence == item.sequence) then
    (files, false)
  else ({ files with lifo := files.lifo ++ [item] }, true)

/-! ## What the files hold -/

@[simp] theorem get_insert (commands : CommandState) (pane : String) (record : CommandRecord) :
    CommandState.get (commands.insert pane record) pane = record := by
  simp [CommandState.get]

theorem get_insert_ne (commands : CommandState) {pane pane' : String} (record : CommandRecord)
    (h : pane' ≠ pane) : CommandState.get (commands.insert pane record) pane' = commands.get pane' := by
  simp [CommandState.get, AList.lookup_insert_ne h]

/-- A command counts once, for its own pane. -/
theorem commandEntered_count (pane shellCommand : String) (now : Nat) (commands : CommandState)
    (pane' : String) :
    ((commandEntered pane shellCommand now commands).get pane').commandCount =
      (commands.get pane').commandCount + if pane' = pane then 1 else 0 := by
  unfold commandEntered
  by_cases h : pane' = pane
  · subst h
    simp
  · rw [get_insert_ne _ _ h, if_neg h, Nat.add_zero]

theorem markRow_count (commands : CommandState) (row : String × Nat) (pane : String) :
    ((markRow commands row).get pane).commandCount = (commands.get pane).commandCount := by
  unfold markRow
  by_cases h : pane = row.1
  · subst h
    simp
  · rw [get_insert_ne _ _ h]

/-- A mark counts nothing. -/
theorem markTarget_count (rows : List (String × Nat)) (commands : CommandState) (pane : String) :
    ((markTarget rows commands).get pane).commandCount = (commands.get pane).commandCount := by
  induction rows generalizing commands with
  | nil => rfl
  | cons row rows ih => exact (ih (markRow commands row)).trans (markRow_count commands row pane)

theorem mem_readRestored {file : Option (List Int)} {n : Int} :
    n ∈ readRestoredSequences file ↔ n ∈ file.getD [] ∧ 0 ≤ n := by
  simp [readRestoredSequences]

@[simp] theorem mem_writeRestored {restored : List Int} {n : Int} :
    n ∈ writeRestoredSequences restored ↔ n ∈ restored :=
  List.mem_insertionSort _

/-- A call writes what it read and its own number. -/
theorem restoreCall_write {call : RestoreCall} (hwrites : call.writes = true)
    (file : Option (List Int)) :
    ∃ numbers, call.write file = some (some numbers) ∧
      ∀ n, n ∈ numbers ↔ n ∈ readRestoredSequences file ∨ call.sequence = some n := by
  refine ⟨_, if_pos hwrites, fun n => ?_⟩
  rw [mem_writeRestored]
  cases call.sequence with
  | none => simp
  | some sequence =>
      rw [List.mem_insert_iff, or_comm]
      simp [eq_comm]

theorem restoreCall_write_none {call : RestoreCall} (hwrites : call.writes = false)
    (file : Option (List Int)) : call.write file = none := by
  simp [RestoreCall.write, hwrites]

end Newmux.Runtime
