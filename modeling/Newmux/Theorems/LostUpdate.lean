import Newmux.Runtime.Files

/-!
# Lost updates

Any number of runtime processes at once, each one read of a state file and
later one replace of it. Nothing is lost exactly when each process, as it
replaces the file, overwrites nothing that was not already there for it to
read. A lock around the read and the replace, as the tab session map has,
would be enough.
-/

namespace Newmux.Theorems

open Newmux.Base Newmux.Runtime

/-! ## The processes -/

/-- The two files and the processes at work on them. -/
structure RuntimeFiles where
  commands : SharedFile (Option CommandState) CommandCall
  restored : SharedFile (Option (List Int)) RestoreCall

/-- One step of one process. -/
inductive ProcessEvent where
  | commands (l : FileEvent CommandCall)
  | restored (l : FileEvent RestoreCall)

namespace RuntimeFiles

/-- The directory is empty. -/
def fresh : RuntimeFiles := ⟨.fresh none, .fresh none⟩

def exec (s : RuntimeFiles) : ProcessEvent → RuntimeFiles
  | .commands l => { s with commands := s.commands.exec CommandCall.write l }
  | .restored l => { s with restored := s.restored.exec RestoreCall.write l }

end RuntimeFiles

/-- The call is a command entered in the pane. -/
def commandFor (pane : String) : CommandCall → Bool
  | .command p _ _ => p == pane
  | .mark _ => false

/-- The number a call that is done has put into the file. -/
def recorded (call : RestoreCall) : Option Int :=
  if call.writes then call.sequence else none

/-- Every pane's count is the number of commands entered there. -/
def CommandsCounted (s : SharedFile (Option CommandState) CommandCall) : Prop :=
  ∀ pane, ((readCommandState s.file).get pane).commandCount = s.done.countP (commandFor pane)

/-- The file holds every number recorded. -/
def RestoredKept (s : SharedFile (Option (List Int)) RestoreCall) : Prop :=
  ∀ call ∈ s.done, ∀ n ∈ recorded call, n ∈ s.file.getD []

def NoLostUpdates (s : RuntimeFiles) : Prop :=
  CommandsCounted s.commands ∧ RestoredKept s.restored

/-- The counts in the file are those the process read. -/
def CountsCurrent (s : SharedFile (Option CommandState) CommandCall) :
    FileEvent CommandCall → Prop
  | .read _ _ => True
  | .replace pid => ∀ p ∈ s.reader pid, ∀ pane,
      ((readCommandState p.snapshot).get pane).commandCount =
        ((readCommandState s.file).get pane).commandCount

/-- If the process writes at all, the numbers in the file are among those it
read and its own. -/
def NumbersCurrent (s : SharedFile (Option (List Int)) RestoreCall) :
    FileEvent RestoreCall → Prop
  | .read _ _ => True
  | .replace pid => ∀ p ∈ s.reader pid, p.request.writes = true → ∀ n ∈ s.file.getD [],
      n ∈ readRestoredSequences p.snapshot ∨ p.request.sequence = some n

/-- The step overwrites nothing its process has not read. -/
def KeepsUpdates (s : RuntimeFiles) : ProcessEvent → Prop
  | .commands l => CountsCurrent s.commands l
  | .restored l => NumbersCurrent s.restored l

/-! ## `pane-commands.json` -/

/-- A replace adds the call to the counts its process read. -/
theorem count_replace {s : SharedFile (Option CommandState) CommandCall} {pid : Nat}
    {p : Reader (Option CommandState) CommandCall} (h : s.reader pid = some p) (pane : String) :
    ((readCommandState (s.exec CommandCall.write (.replace pid)).file).get pane).commandCount =
      ((readCommandState p.snapshot).get pane).commandCount +
        if commandFor pane p.request then 1 else 0 := by
  rw [SharedFile.exec_replace h]
  cases hr : p.request with
  | command q shellCommand now =>
      have hpane : (if commandFor pane (.command q shellCommand now) then 1 else 0) =
          if pane = q then 1 else 0 := by
        simp only [commandFor, beq_iff_eq, @eq_comm _ q pane]
      rw [hpane]
      exact commandEntered_count q shellCommand now (readCommandState p.snapshot) pane
  | mark rows => exact markTarget_count rows (readCommandState p.snapshot) pane

theorem commandsCounted_exec {s : SharedFile (Option CommandState) CommandCall}
    (h : CommandsCounted s) (l : FileEvent CommandCall) :
    CommandsCounted (s.exec CommandCall.write l) ↔ CountsCurrent s l := by
  cases l with
  | read pid request =>
      refine ⟨fun _ => trivial, fun _ pane => ?_⟩
      rw [SharedFile.exec_read_file, SharedFile.exec_read_done]
      exact h pane
  | replace pid =>
      cases hr : s.reader pid with
      | none =>
          rw [SharedFile.exec_replace_none hr]
          refine ⟨fun _ p hp => ?_, fun _ => h⟩
          rw [hr] at hp
          exact absurd hp (by simp)
      | some p =>
          have hdone : (s.exec CommandCall.write (.replace pid)).done = p.request :: s.done := by
            rw [SharedFile.exec_replace hr]
          -- both sides say, of each pane, that the call is counted on top of `s.done`
          have hpane : ∀ pane,
              (((readCommandState (s.exec CommandCall.write (.replace pid)).file).get
                  pane).commandCount =
                (s.exec CommandCall.write (.replace pid)).done.countP (commandFor pane)) ↔
              ((readCommandState p.snapshot).get pane).commandCount =
                ((readCommandState s.file).get pane).commandCount := by
            intro pane
            rw [count_replace hr, hdone, List.countP_cons, h pane]
            omega
          constructor
          · intro hafter q hq pane
            rw [hr, Option.mem_some_iff] at hq
            subst hq
            exact (hpane pane).mp (hafter pane)
          · intro hcurrent pane
            exact (hpane pane).mpr (hcurrent p hr pane)

/-! ## `lifo-restored.json` -/

/-- Every number in the file has been recorded. -/
def AllRecorded (done : List RestoreCall) (file : Option (List Int)) : Prop :=
  ∀ n ∈ file.getD [], ∃ call ∈ done, n ∈ recorded call

/-- The file, and what the processes have read, hold recorded numbers only. -/
def NumbersRecorded (s : SharedFile (Option (List Int)) RestoreCall) : Prop :=
  AllRecorded s.done s.file ∧ ∀ p ∈ s.readers, AllRecorded s.done p.snapshot

theorem AllRecorded.cons {done : List RestoreCall} {file : Option (List Int)}
    (h : AllRecorded done file) (call : RestoreCall) : AllRecorded (call :: done) file := by
  intro n hn
  obtain ⟨c, hc, hnc⟩ := h n hn
  exact ⟨c, List.mem_cons_of_mem _ hc, hnc⟩

/-- A call writes recorded numbers, its own among them. -/
theorem AllRecorded.write {call : RestoreCall} {done : List RestoreCall}
    {file file' : Option (List Int)} (h : AllRecorded done file)
    (hwrite : call.write file = some file') : AllRecorded (call :: done) file' := by
  cases hw : call.writes with
  | false =>
      rw [restoreCall_write_none hw] at hwrite
      cases hwrite
  | true =>
      obtain ⟨numbers, hnumbers, hmem⟩ := restoreCall_write hw file
      rw [hnumbers] at hwrite
      cases hwrite
      intro n hn
      rcases (hmem n).mp hn with hn | hn
      · exact h.cons call n (mem_readRestored.mp hn).1
      · exact ⟨call, List.mem_cons_self, by simp [recorded, hw, hn]⟩

theorem NumbersRecorded.exec {s : SharedFile (Option (List Int)) RestoreCall}
    (h : NumbersRecorded s) (l : FileEvent RestoreCall) :
    NumbersRecorded (s.exec RestoreCall.write l) := by
  refine SharedFile.snapshots_exec (P := AllRecorded) ?_ ?_ h.1 h.2 l
  · intro call done file hfile
    exact hfile.cons call
  · intro call done file file' hfile hwrite
    exact hfile.write hwrite

theorem restoredKept_exec {s : SharedFile (Option (List Int)) RestoreCall}
    (hrec : NumbersRecorded s) (h : RestoredKept s) (l : FileEvent RestoreCall) :
    RestoredKept (s.exec RestoreCall.write l) ↔ NumbersCurrent s l := by
  cases l with
  | read pid request =>
      refine ⟨fun _ => trivial, fun _ => ?_⟩
      rw [RestoredKept, SharedFile.exec_read_file, SharedFile.exec_read_done]
      exact h
  | replace pid =>
      cases hr : s.reader pid with
      | none =>
          rw [SharedFile.exec_replace_none hr]
          refine ⟨fun _ p hp => ?_, fun _ => h⟩
          rw [hr] at hp
          exact absurd hp (by simp)
      | some p =>
          rw [RestoredKept, SharedFile.exec_replace hr]
          cases hw : p.request.writes with
          | false =>
              rw [restoreCall_write_none hw]
              refine ⟨fun _ q hq hqw => ?_, fun _ call hcall n hn => ?_⟩
              · rw [hr, Option.mem_some_iff] at hq
                subst hq
                rw [hw] at hqw
                cases hqw
              · rcases List.mem_cons.mp hcall with rfl | hcall
                · simp [recorded, hw] at hn
                · exact h call hcall n hn
          | true =>
              obtain ⟨numbers, hnumbers, hmem⟩ := restoreCall_write hw p.snapshot
              rw [hnumbers]
              constructor
              · intro hafter q hq _ n hn
                rw [hr, Option.mem_some_iff] at hq
                subst hq
                -- a number in the file was recorded by a call that is done
                obtain ⟨call, hcall, hnc⟩ := hrec.1 n hn
                exact (hmem n).mp (hafter call (List.mem_cons_of_mem _ hcall) n hnc)
              · intro hcurrent call hcall n hn
                refine (hmem n).mpr ?_
                rcases List.mem_cons.mp hcall with rfl | hcall
                · right
                  simpa [recorded, hw] using hn
                · exact hcurrent p hr hw n (h call hcall n hn)

/-! ## Runs -/

theorem noLostUpdates_exec {s : RuntimeFiles} (hrec : NumbersRecorded s.restored)
    (h : NoLostUpdates s) (l : ProcessEvent) :
    NoLostUpdates (s.exec l) ↔ KeepsUpdates s l := by
  cases l with
  | commands l => exact (and_iff_left h.2).trans (commandsCounted_exec h.1 l)
  | restored l => exact (and_iff_right h.1).trans (restoredKept_exec hrec h.2 l)

/-- **No update is lost** at any time of a run exactly when no process of it
overwrites what it has not read. -/
theorem no_lost_updates_iff (ls : List ProcessEvent) :
    (∀ ls', ls' <+: ls → NoLostUpdates (TSys.runFrom RuntimeFiles.exec .fresh ls')) ↔
      TSys.RunOk KeepsUpdates RuntimeFiles.exec .fresh ls := by
  refine TSys.always_iff_runOk (J := fun s => NumbersRecorded s.restored) ?_ ?_ ?_ ?_ ls
  · intro s l hrec h
    exact noLostUpdates_exec hrec h l
  · intro s l hrec
    cases l with
    | commands l => exact hrec
    | restored l => exact hrec.exec l
  · exact ⟨fun pane => rfl, fun call hcall => absurd hcall List.not_mem_nil⟩
  · exact ⟨fun n hn => absurd hn List.not_mem_nil, fun p hp => absurd hp List.not_mem_nil⟩

/-- Two commands in one pane and two restores, all of which read before the
first of them writes. -/
def twoAtOnce : List ProcessEvent :=
  [.commands (.read 1 (.command "%1" "ls" 10)), .commands (.read 2 (.command "%1" "pwd" 11)),
    .restored (.read 3 (.mirrorNativeRestore 1)), .restored (.read 4 (.mirrorNativeRestore 2)),
    .commands (.replace 1), .commands (.replace 2), .restored (.replace 3),
    .restored (.replace 4)]

/-- One command is counted and one restore is recorded. -/
theorem twoAtOnce_lost :
    ¬ CommandsCounted (TSys.runFrom RuntimeFiles.exec .fresh twoAtOnce).commands ∧
      ¬ RestoredKept (TSys.runFrom RuntimeFiles.exec .fresh twoAtOnce).restored := by
  constructor
  · intro h
    exact absurd (h "%1") (by decide)
  · intro h
    exact absurd (h (.mirrorNativeRestore 1) (by decide) 1 (by decide)) (by decide)

/-! ## A lock would do -/

/-- Each file has a lock that its processes hold from their read to their
replace, and the numbers passed are not negative. -/
def Locked (s : RuntimeFiles) : ProcessEvent → Prop
  | .commands l => s.commands.Alone l
  | .restored l => s.restored.Alone l ∧
      match l with
      | .read _ request => ∀ n ∈ request.sequence, 0 ≤ n
      | .replace _ => True

/-- What a locked run keeps: each file is as its process read it, and the
numbers written have no sign. -/
structure LockedInv (s : RuntimeFiles) : Prop where
  commands : s.commands.Current
  restored : s.restored.Current
  numbers : ∀ n ∈ s.restored.file.getD [], 0 ≤ n
  requests : ∀ p ∈ s.restored.readers, ∀ n ∈ p.request.sequence, 0 ≤ n

theorem LockedInv.keepsUpdates {s : RuntimeFiles} (h : LockedInv s) (l : ProcessEvent) :
    KeepsUpdates s l := by
  cases l with
  | commands l =>
      cases l with
      | read pid request => trivial
      | replace pid =>
          intro p hp pane
          rw [h.commands.2 p (SharedFile.reader_mem hp)]
  | restored l =>
      cases l with
      | read pid request => trivial
      | replace pid =>
          intro p hp _ n hn
          left
          rw [h.restored.2 p (SharedFile.reader_mem hp)]
          exact mem_readRestored.mpr ⟨hn, h.numbers n hn⟩

theorem LockedInv.exec {s : RuntimeFiles} (h : LockedInv s) {l : ProcessEvent}
    (hl : Locked s l) : LockedInv (s.exec l) := by
  cases l with
  | commands l => exact ⟨h.commands.exec _ hl, h.restored, h.numbers, h.requests⟩
  | restored l =>
      have hcur := h.restored.exec RestoreCall.write hl.1
      cases l with
      | read pid request =>
          refine ⟨h.commands, hcur, ?_, ?_⟩
          · intro n hn
            exact h.numbers n (by simpa [RuntimeFiles.exec] using hn)
          · have hreq : ∀ n ∈ request.sequence, 0 ≤ n := hl.2
            intro p hp
            simp only [RuntimeFiles.exec, SharedFile.exec] at hp
            split at hp
            · exact h.requests p hp
            · rcases List.mem_cons.mp hp with rfl | hp
              · exact hreq
              · exact h.requests p hp
      | replace pid =>
          cases hr : s.restored.reader pid with
          | none =>
              have hsame : s.exec (.restored (.replace pid)) = s := by
                simp only [RuntimeFiles.exec, SharedFile.exec_replace_none hr]
              rwa [hsame]
          | some p =>
              refine ⟨h.commands, hcur, ?_, ?_⟩
              · intro n hn
                simp only [RuntimeFiles.exec, SharedFile.exec_replace hr] at hn
                -- what is written are numbers of the snapshot and of the request
                cases hw : p.request.writes with
                | false =>
                    rw [restoreCall_write_none hw] at hn
                    exact h.numbers n hn
                | true =>
                    obtain ⟨numbers, hnumbers, hmem⟩ := restoreCall_write hw p.snapshot
                    rw [hnumbers] at hn
                    rcases (hmem n).mp hn with hn | hn
                    · exact (mem_readRestored.mp hn).2
                    · exact h.requests p (SharedFile.reader_mem hr) n hn
              · intro q hq
                simp only [RuntimeFiles.exec, SharedFile.exec_replace hr] at hq
                exact h.requests q (List.mem_filter.mp hq).1

/-- Under such locks every run keeps every update. -/
theorem no_lost_updates_of_locked {ls : List ProcessEvent}
    (h : TSys.RunOk Locked RuntimeFiles.exec .fresh ls) :
    TSys.RunOk KeepsUpdates RuntimeFiles.exec .fresh ls := by
  refine TSys.RunOk.imp (I := LockedInv) (fun s l hI hl => ⟨hI.keepsUpdates l, hI.exec hl⟩) ?_ h
  exact ⟨⟨Nat.zero_le 1, fun p hp => absurd hp List.not_mem_nil⟩,
    ⟨Nat.zero_le 1, fun p hp => absurd hp List.not_mem_nil⟩,
    fun n hn => absurd hn List.not_mem_nil, fun p hp => absurd hp List.not_mem_nil⟩

end Newmux.Theorems
