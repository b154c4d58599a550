import Mathlib.Data.List.DropRight
import Mathlib.Tactic

/-!
# Shell commands

The commands a POSIX shell function is made of, over any world they act on. A
command prints lines, leaves a status for `$?`, and may return from its function or
end its shell. A compound command has a status of its own: an `if` whose condition
fails and that has no `else` leaves zero, whatever the condition left.
-/

namespace Newmux.Base.Shell

/-- Where a shell goes on: with the next command, behind the function, or nowhere. -/
inductive Flow
  | next
  | returned
  | exited
deriving DecidableEq, Repr

/-- What a command leaves: the world, the lines it printed, its status, and where the
shell goes on. -/
structure Outcome (W : Type) where
  world : W
  out : List (List Char)
  status : Nat
  flow : Flow
deriving DecidableEq, Repr

/-- A command, from the world and `$?`. -/
abbrev Cmd (W : Type) := W → Nat → Outcome W

variable {W : Type} {α : Type}

/-! ## Simple commands -/

/-- A command that changes the world, with its status. -/
def act (f : W → W × Nat) : Cmd W := fun w _ => ⟨(f w).1, [], (f w).2, .next⟩

def test (p : W → Bool) : Cmd W := act fun w => (w, if p w then 0 else 1)

/-- `printf '%s\n'` of a line. -/
def print (line : List Char) : Cmd W := fun w _ => ⟨w, [line], 0, .next⟩

/-- `return n`. -/
def ret (n : Nat) : Cmd W := fun w _ => ⟨w, [], n, .returned⟩

/-- `return $?`. -/
def retStatus : Cmd W := fun w status => ⟨w, [], status, .returned⟩

/-! ## Compound commands -/

/-- Go on with the next command, if the shell does. -/
def Outcome.andThen (r : Outcome W) (c : Cmd W) : Outcome W :=
  if r.flow = .next then { c r.world r.status with out := r.out ++ (c r.world r.status).out }
  else r

/-- One command after the other. -/
def block : List (Cmd W) → Cmd W
  | [] => fun w status => ⟨w, [], status, .next⟩
  | c :: cs => fun w status => (c w status).andThen (block cs)

/-- `! c`. -/
def fails (c : Cmd W) : Cmd W := fun w status =>
  let r := c w status
  if r.flow = .next then { r with status := if r.status = 0 then 1 else 0 } else r

/-- `c || t`. -/
def orElse (c t : Cmd W) : Cmd W := fun w status =>
  let r := c w status
  if r.status = 0 then r else r.andThen t

/-- `if c; then t; fi`. -/
def ifThen (c t : Cmd W) : Cmd W := fun w status =>
  let r := c w status
  if r.flow = .next then if r.status = 0 then r.andThen t else { r with status := 0 } else r

/-- A call of a function: its `return` ends it and no more. -/
def call (f : Cmd W) : Cmd W := fun w status =>
  let r := f w status
  if r.flow = .returned then { r with flow := .next } else r

/-- What `$(…)` takes from the lines printed. -/
def captured (out : List (List Char)) : List Char :=
  (List.intercalate ['\n'] out).rdropWhile (· == '\n')

/-- `if x=$(f); then t; fi`; the shell that `f` runs in is one of its own. -/
def ifCapture (f : Cmd W) (t : List Char → Cmd W) : Cmd W := fun w status =>
  let r := f w status
  if r.status = 0 then t (captured r.out) r.world 0 else ⟨r.world, [], 0, .next⟩

/-- `x=$?`. -/
def withStatus (k : Nat → Cmd W) : Cmd W := fun w status => k status w 0

/-- `x=$(…)` of a command that only reads the world and does not fail. -/
def assign (f : W → α) (k : α → Cmd W) : Cmd W := fun w _ => k (f w) w 0

/-- A command with an expansion that can fail: an expansion error ends the shell. -/
def expand (f : W → Option α) (error : Nat) (k : α → Cmd W) : Cmd W := fun w _ =>
  match f w with
  | none => ⟨w, [], error, .exited⟩
  | some x => k x w 0

/-! ## Rules -/

theorem andThen_of_returned {r : Outcome W} (h : r.flow = .returned) (c : Cmd W) :
    r.andThen c = r := if_neg (by simp [h])

theorem andThen_of_next {r : Outcome W} (h : r.flow = .next) (c : Cmd W) :
    r.andThen c = { c r.world r.status with out := r.out ++ (c r.world r.status).out } :=
  if_pos h

/-- A silent command that ends makes way for the next. -/
theorem andThen_silent (w : W) (n : Nat) (c : Cmd W) :
    Outcome.andThen ⟨w, [], n, .next⟩ c = c w n := rfl

theorem andThen_printed (w : W) (line : List Char) (n : Nat) (c : Cmd W) :
    Outcome.andThen ⟨w, [line], n, .next⟩ c = { c w n with out := line :: (c w n).out } := rfl

theorem andThen_ret (w : W) (out : List (List Char)) (n : Nat) (c : Cmd W) :
    Outcome.andThen ⟨w, out, n, .returned⟩ c = ⟨w, out, n, .returned⟩ := rfl

theorem block_cons (c : Cmd W) (cs : List (Cmd W)) (w : W) (n : Nat) :
    block (c :: cs) w n = (c w n).andThen (block cs) := rfl

theorem block_nil (w : W) (n : Nat) : block [] w n = ⟨w, [], n, .next⟩ := rfl

theorem ret_apply (m : Nat) (w : W) (n : Nat) : ret m w n = ⟨w, [], m, .returned⟩ := rfl

theorem act_apply (f : W → W × Nat) (w : W) (n : Nat) :
    act f w n = ⟨(f w).1, [], (f w).2, .next⟩ := rfl

theorem print_apply (line : List Char) (w : W) (n : Nat) :
    print line w n = ⟨w, [line], 0, .next⟩ := rfl

/-- An `if` whose condition holds is its body. -/
theorem ifThen_pos {c : Cmd W} {w w' : W} {n : Nat} (t : Cmd W)
    (h : c w n = ⟨w', [], 0, .next⟩) : ifThen c t w n = t w' 0 := by
  unfold ifThen
  rw [h]
  rfl

/-- **An `if` whose condition fails** leaves the status zero. -/
theorem ifThen_neg {c : Cmd W} {w w' : W} {n m : Nat} (t : Cmd W)
    (h : c w n = ⟨w', [], m, .next⟩) (hm : m ≠ 0) : ifThen c t w n = ⟨w', [], 0, .next⟩ := by
  unfold ifThen
  rw [h]
  simp [hm]

/-- An `if` whose condition ends the shell. -/
theorem ifThen_of_exited {c : Cmd W} {w w' : W} {n m : Nat} (t : Cmd W)
    (h : c w n = ⟨w', [], m, .exited⟩) : ifThen c t w n = ⟨w', [], m, .exited⟩ := by
  unfold ifThen
  rw [h]
  rfl

theorem test_true {p : W → Bool} {w : W} (h : p w = true) (n : Nat) :
    test p w n = ⟨w, [], 0, .next⟩ := by
  unfold test
  rw [act_apply, if_pos h]

theorem test_false {p : W → Bool} {w : W} (h : p w = false) (n : Nat) :
    test p w n = ⟨w, [], 1, .next⟩ := by
  unfold test
  rw [act_apply, if_neg (by simp [h])]

/-- A guard that holds nothing back. -/
theorem guard_pass {p : W → Bool} {w : W} (t : Cmd W) (cs : List (Cmd W)) (h : p w = false)
    (n : Nat) : block (ifThen (test p) t :: cs) w n = block cs w 0 := by
  rw [block_cons, ifThen_neg t (test_false h n) (by decide), andThen_silent]

/-- A guard that returns from the function. -/
theorem guard_stop {p : W → Bool} {w : W} {t : Cmd W} (cs : List (Cmd W)) (h : p w = true)
    (ht : (t w 0).flow = .returned) (n : Nat) : block (ifThen (test p) t :: cs) w n = t w 0 := by
  rw [block_cons, ifThen_pos t (test_true h n), andThen_of_returned ht]

theorem block_print (line : List Char) (cs : List (Cmd W)) (w : W) (n : Nat) :
    block (print line :: cs) w n = { block cs w 0 with out := line :: (block cs w 0).out } := by
  rw [block_cons, print_apply, andThen_printed]

theorem block_ret (m : Nat) (cs : List (Cmd W)) (w : W) (n : Nat) :
    block (ret m :: cs) w n = ⟨w, [], m, .returned⟩ := by
  rw [block_cons, ret_apply, andThen_ret]

theorem block_act (f : W → W × Nat) (cs : List (Cmd W)) (w : W) (n : Nat) :
    block (act f :: cs) w n = block cs (f w).1 (f w).2 := by
  rw [block_cons, act_apply, andThen_silent]

/-- The last command of a block. -/
theorem block_singleton (c : Cmd W) (w : W) (n : Nat) : block [c] w n = c w n := by
  rw [block_cons]
  by_cases h : (c w n).flow = .next
  · rw [andThen_of_next h, block_nil, List.append_nil, ← h]
  · exact if_neg h

/-- `if ! c; then t; fi` on a command that succeeds. -/
theorem check_pass {c : Cmd W} {w w' : W} {n : Nat} (t : Cmd W) (cs : List (Cmd W))
    (h : c w n = ⟨w', [], 0, .next⟩) : block (ifThen (fails c) t :: cs) w n = block cs w' 0 := by
  have hfails : fails c w n = ⟨w', [], 1, .next⟩ := by
    unfold fails
    rw [h]
    rfl
  rw [block_cons, ifThen_neg t hfails (by decide), andThen_silent]

/-- `if ! c; then t; fi` on a command that fails. -/
theorem check_stop {c : Cmd W} {w w' : W} {n m : Nat} {t : Cmd W} (cs : List (Cmd W))
    (h : c w n = ⟨w', [], m, .next⟩) (hm : m ≠ 0) (ht : (t w' 0).flow = .returned) :
    block (ifThen (fails c) t :: cs) w n = t w' 0 := by
  have hfails : fails c w n = ⟨w', [], 0, .next⟩ := by
    unfold fails
    rw [h]
    simp [hm]
  rw [block_cons, ifThen_pos t hfails, andThen_of_returned ht]

/-- `test || return`. -/
theorem orElse_pass {p : W → Bool} {w : W} (t : Cmd W) (cs : List (Cmd W)) (h : p w = true)
    (n : Nat) : block (orElse (test p) t :: cs) w n = block cs w 0 := by
  have horElse : orElse (test p) t w n = ⟨w, [], 0, .next⟩ := by
    unfold orElse
    rw [test_true h]
    rfl
  rw [block_cons, horElse, andThen_silent]

theorem orElse_stop {p : W → Bool} {w : W} {t : Cmd W} (cs : List (Cmd W)) (h : p w = false)
    (ht : (t w 1).flow = .returned) (n : Nat) :
    block (orElse (test p) t :: cs) w n = t w 1 := by
  have horElse : orElse (test p) t w n = t w 1 := by
    unfold orElse
    rw [test_false h]
    rfl
  rw [block_cons, horElse, andThen_of_returned ht]

theorem assign_apply (f : W → α) (k : α → Cmd W) (w : W) (n : Nat) :
    assign f k w n = k (f w) w 0 := rfl

/-- A function that fails in the condition of an `if` has no effect on `$?`. -/
theorem ifCapture_neg {f : Cmd W} {w : W} {n : Nat} (t : List Char → Cmd W)
    (h : (f w n).status ≠ 0) : ifCapture f t w n = ⟨(f w n).world, [], 0, .next⟩ := if_neg h

theorem ifCapture_pos {f : Cmd W} {w : W} {n : Nat} (t : List Char → Cmd W)
    (h : (f w n).status = 0) :
    ifCapture f t w n = t (captured (f w n).out) (f w n).world 0 := if_pos h

/-- A line is captured as it is. -/
theorem captured_line {line : List Char} (h : '\n' ∉ line) : captured [line] = line := by
  unfold captured
  rw [List.intercalate_singleton]
  refine List.rdropWhile_eq_self_iff.mpr fun hne hlast => ?_
  exact h ((by simpa using hlast) ▸ List.getLast_mem hne)

end Newmux.Base.Shell
