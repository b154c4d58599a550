import Newmux.Base.TSys

/-!
# Processes that read a file and replace it

A file that any number of processes update, each by one atomic read and, some
time later, one atomic replace with what it made of what it read. Between the
two a process remembers what it read, however often the file is replaced
meanwhile.
-/

namespace Newmux.Base

/-- A process between its read and its replace. -/
structure Reader (V R : Type) where
  pid : Nat
  request : R
  snapshot : V

/-- The file, the processes that have read it and have yet to replace it, and
the requests that are done, the latest first. -/
structure SharedFile (V R : Type) where
  file : V
  readers : List (Reader V R)
  done : List R

/-- The two steps of a process. -/
inductive FileEvent (R : Type) where
  | read (pid : Nat) (request : R)
  | replace (pid : Nat)

namespace SharedFile

variable {V R : Type}

/-- Nobody has touched the file. -/
def fresh (file : V) : SharedFile V R := ⟨file, [], []⟩

/-- The process `pid`, if it has read the file. -/
def reader (s : SharedFile V R) (pid : Nat) : Option (Reader V R) :=
  s.readers.find? (fun p => p.pid == pid)

/-- One step of a process; `write` is what a request makes of what it read,
`none` if it leaves the file alone. -/
def exec (write : R → V → Option V) (s : SharedFile V R) : FileEvent R → SharedFile V R
  | .read pid request =>
      if (s.reader pid).isSome then s
      else { s with readers := ⟨pid, request, s.file⟩ :: s.readers }
  | .replace pid =>
      match s.reader pid with
      | none => s
      | some p =>
          { file := (write p.request p.snapshot).getD s.file
            readers := s.readers.filter (fun p => p.pid != pid)
            done := p.request :: s.done }

theorem reader_mem {s : SharedFile V R} {pid : Nat} {p : Reader V R}
    (h : s.reader pid = some p) : p ∈ s.readers :=
  List.mem_of_find?_eq_some h

/-- A replace by a process that has read the file. -/
theorem exec_replace {write : R → V → Option V} {s : SharedFile V R} {pid : Nat}
    {p : Reader V R} (h : s.reader pid = some p) :
    s.exec write (.replace pid) =
      { file := (write p.request p.snapshot).getD s.file
        readers := s.readers.filter (fun p => p.pid != pid)
        done := p.request :: s.done } := by
  simp only [exec, h]

theorem exec_replace_none {write : R → V → Option V} {s : SharedFile V R} {pid : Nat}
    (h : s.reader pid = none) : s.exec write (.replace pid) = s := by
  simp only [exec, h]

@[simp] theorem exec_read_file (write : R → V → Option V) (s : SharedFile V R) (pid : Nat)
    (request : R) : (s.exec write (.read pid request)).file = s.file := by
  simp only [exec]
  split <;> rfl

@[simp] theorem exec_read_done (write : R → V → Option V) (s : SharedFile V R) (pid : Nat)
    (request : R) : (s.exec write (.read pid request)).done = s.done := by
  simp only [exec]
  split <;> rfl

/-- A read adds at most one process, which remembers the file as it is. -/
theorem mem_readers_read {write : R → V → Option V} {s : SharedFile V R} {pid : Nat}
    {request : R} {p : Reader V R} (h : p ∈ (s.exec write (.read pid request)).readers) :
    p ∈ s.readers ∨ p.snapshot = s.file := by
  simp only [exec] at h
  split at h
  · exact .inl h
  · rcases List.mem_cons.mp h with rfl | h
    · exact .inr rfl
    · exact .inl h

/-- What holds of the file and is kept by every write holds of the file and of
all that the processes have read. `P` may speak of the requests that are done,
as long as one more of them does no harm. -/
theorem snapshots_exec {write : R → V → Option V} {P : List R → V → Prop}
    (hmono : ∀ r done v, P done v → P (r :: done) v)
    (hwrite : ∀ r done v v', P done v → write r v = some v' → P (r :: done) v')
    {s : SharedFile V R} (hfile : P s.done s.file)
    (hsnap : ∀ p ∈ s.readers, P s.done p.snapshot) (l : FileEvent R) :
    P (s.exec write l).done (s.exec write l).file ∧
      ∀ p ∈ (s.exec write l).readers, P (s.exec write l).done p.snapshot := by
  cases l with
  | read pid request =>
      rw [exec_read_file, exec_read_done]
      refine ⟨hfile, fun p hp => ?_⟩
      rcases mem_readers_read hp with hp | hp
      · exact hsnap p hp
      · exact hp ▸ hfile
  | replace pid =>
      cases hr : s.reader pid with
      | none =>
          rw [exec_replace_none hr]
          exact ⟨hfile, hsnap⟩
      | some p =>
          rw [exec_replace hr]
          refine ⟨?_, fun q hq => hmono _ _ _ (hsnap q (List.mem_filter.mp hq).1)⟩
          cases hw : write p.request p.snapshot with
          | none => exact hmono _ _ _ hfile
          | some v => exact hwrite _ _ _ _ (hsnap p (reader_mem hr)) hw

/-! ## One process at a time -/

/-- A process reads only while no other is between its read and its replace,
as under a lock. -/
def Alone (s : SharedFile V R) : FileEvent R → Prop
  | .read _ _ => s.readers = []
  | .replace _ => True

/-- At most one process is under way, and the file is as it read it. -/
def Current (s : SharedFile V R) : Prop :=
  s.readers.length ≤ 1 ∧ ∀ p ∈ s.readers, p.snapshot = s.file

theorem Current.exec {s : SharedFile V R} (h : Current s) (write : R → V → Option V)
    {l : FileEvent R} (hl : Alone s l) : Current (s.exec write l) := by
  cases l with
  | read pid request =>
      have hnil : s.readers = [] := hl
      have hexec : s.exec write (.read pid request) =
          { s with readers := [⟨pid, request, s.file⟩] } := by
        simp [SharedFile.exec, reader, hnil]
      rw [hexec]
      exact ⟨Nat.le_refl 1, fun p hp => by rw [List.mem_singleton.mp hp]⟩
  | replace pid =>
      cases hr : s.reader pid with
      | none => rwa [exec_replace_none hr]
      | some p =>
          have hlen := h.1
          have hall : s.readers = [p] := by
            obtain ⟨q, hq⟩ := List.length_eq_one_iff.mp
              (Nat.le_antisymm hlen (List.length_pos_of_mem (reader_mem hr)))
            have hp := reader_mem hr
            rw [hq] at hp
            rw [hq, List.mem_singleton.mp hp]
          have hpid : p.pid = pid := by simpa using List.find?_some hr
          have hnone : s.readers.filter (fun p => p.pid != pid) = [] := by simp [hall, hpid]
          rw [exec_replace hr, hnone]
          exact ⟨Nat.zero_le 1, fun q hq => absurd hq List.not_mem_nil⟩

end SharedFile

end Newmux.Base
