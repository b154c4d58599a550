import Newmux.Base.Shell

/-!
# Claiming a restore request

`claim_restore_window_id` of the start script and the functions it calls. The
world is the files it works on: the claim lock, the queue of tickets and the
marker. What other processes do (a marker that arrives in time, a ticket that is
renamed first, the answer of the tmux command) is the environment's.
-/

namespace Newmux.App.RestoreClaim

open Newmux.Base Newmux.Base.Shell

/-! ## Text -/

/-- A nonempty text of digits. -/
def digits (text : List Char) : Bool := !text.isEmpty && text.all Char.isDigit

/-- `validate_window_id`. -/
def validateWindowId : List Char → Bool
  | '@' :: text => digits text
  | _ => false

/-- What stands before the first `=`, and what stands behind it. -/
def keyOf (text : List Char) : List Char := text.takeWhile (· != '=')

def valueOf (text : List Char) : List Char := (text.dropWhile (· != '=')).drop 1

/-- `awk -F= '$1 == name { print $2; exit }'` on a file. -/
def awkField (name : List Char) (text : List Char) : List Char :=
  match (text.splitOn '\n').find? (fun line => keyOf line == name) with
  | none => []
  | some line => keyOf (valueOf line)

/-- `restore_field`: the value of the first word `name=…`. -/
def restoreField (text name : List Char) : List Char :=
  match (text.splitOnP Char.isWhitespace).find? (fun word => !word.isEmpty && keyOf word == name) with
  | none => []
  | some word => valueOf word

/-! ## Numbers -/

/-- A number of the shell, 64 bits wide. -/
def intmax (n : Int) : Int := n.bmod (2 ^ 64)

/-- Digits in `$((…))`: octal behind a zero, where an eight or a nine is an error. -/
def arithValue : List Char → Option Int
  | '0' :: text =>
      if text.all fun c => c.isDigit && c != '8' && c != '9' then
        some (intmax (Nat.ofDigitChars 8 text 0))
      else none
  | text => some (intmax (Nat.ofDigitChars 10 text 0))

/-! ## Files and environment -/

structure Ticket where
  name : List Char
  text : List Char
deriving DecidableEq, Repr

structure Files where
  /-- The directory `RESTORE_CLAIM_DIR` is there. -/
  claimDir : Bool
  /-- The tickets in `RESTORE_QUEUE_DIR`, if there is such a directory. -/
  queue : Option (List Ticket)
  /-- The text of `RESTORE_MARKER`, if there is such a file. -/
  marker : Option (List Char)
deriving DecidableEq, Repr

structure Env where
  /-- The marker that is written while the script waits for one. -/
  arrives : Option (List Char)
  /-- The rename of a ticket succeeds: no other process has taken it. -/
  renames : Ticket → Bool
  /-- What `newmux-claim-reserved-closed` prints for a number. -/
  claims : List Char → List Char
  /-- What `date +%s` prints. -/
  now : Int
  /-- `RESTORE_MARKER_TTL_SECONDS`, if it is an integer. -/
  ttl : Option Int
  /-- The status that an error in `$((…))` ends the shell with. -/
  arithError : Nat

variable (env : Env)

/-! ## The functions of the script -/

/-- `finish_restore_claim`. -/
def finishRestoreClaim : Cmd Files := act fun w => ({ w with claimDir := false }, 0)

/-- `mkdir "$RESTORE_CLAIM_DIR"`. -/
def mkdirClaim : Cmd Files := act fun w =>
  if w.claimDir then (w, 1) else ({ w with claimDir := true }, 0)

/-- `rm -f "$RESTORE_MARKER"`. -/
def rmMarker : Cmd Files := act fun w => ({ w with marker := none }, 0)

/-- The loop over the candidates: the one whose name comes first. -/
def firstTicket (queue : List Ticket) : Option Ticket :=
  queue.foldl (fun ticket candidate =>
    match ticket with
    | none => some candidate
    | some t => if candidate.name < t.name then some candidate else some t) none

/-- `mv "$ticket" "$claim_ticket"`, which the `rm -f` of the copy follows. -/
def mvTicket (ticket : Ticket) : Cmd Files := act fun w =>
  if env.renames ticket then ({ w with queue := w.queue.map fun ts => ts.erase ticket }, 0)
  else (w, 1)

/-- `claim_next_restore_ticket_sequence`. -/
def claimNextRestoreTicketSequence : Cmd Files := block [
  orElse (test fun w => w.queue.isSome) (ret 1),
  assign (fun w => firstTicket (w.queue.getD [])) fun
    | none => ret 1
    | some ticket => block [
        ifThen (fails (mvTicket env ticket)) (ret 2),
        ifThen (test fun _ => awkField "kind".toList ticket.text != "window".toList) (ret 3),
        ifThen (test fun _ => !digits (awkField "sequence".toList ticket.text)) (ret 3),
        print (awkField "sequence".toList ticket.text),
        ret 0]]

/-- `claim_reserved_restore_window_id`; the mirror command it starts runs beside
it and prints nothing. -/
def claimReservedRestoreWindowId (sequence : List Char) : Cmd Files :=
  let result := env.claims sequence
  let windowId := restoreField result "window_id".toList
  block [
    ifThen (test fun _ => result.isEmpty) (ret 3),
    ifThen (test fun _ => restoreField result "kind".toList != "window".toList ||
      !validateWindowId windowId) (ret 3),
    print windowId,
    ret 0]

/-- `wait_for_restore_marker`. -/
def waitForRestoreMarker : Cmd Files := act fun w =>
  match env.arrives with
  | none => (w, 1)
  | some text => ({ w with marker := some text }, 0)

/-- `[ $((now - created_at)) -gt "$RESTORE_MARKER_TTL_SECONDS" ]`, which fails with
two when the limit is no integer. -/
def tooOld (made : Int) : Nat :=
  match env.ttl with
  | none => 2
  | some ttl => if intmax (env.now - made) > ttl then 0 else 1

/-- `restore_marker_is_stale`. -/
def restoreMarkerIsStale : Cmd Files := call (block [
  orElse (test fun w => w.marker.isSome) (ret 1),
  assign (fun w => awkField "created_at".toList (w.marker.getD [])) fun createdAt => block [
    ifThen (test fun _ => !digits createdAt) (ret 0),
    expand (fun _ => arithValue createdAt) env.arithError fun made =>
      act fun w => (w, tooOld env made)]])

/-- The end of `claim_restore_window_id`, on the text of the marker. -/
def claimMarker (text : List Char) : Cmd Files :=
  let kind := awkField "kind".toList text
  let sequence := awkField "sequence".toList text
  let windowId := awkField "window_id".toList text
  if kind = "window_request".toList then block [
    ifThen (test fun _ => !digits sequence) (block [finishRestoreClaim, ret 3]),
    ifCapture (claimReservedRestoreWindowId env sequence) fun requestedWindow => block [
      print requestedWindow,
      ret 0],
    withStatus fun status => block [
      finishRestoreClaim,
      ret status]]
  else if kind = "window".toList ∨ kind = [] then block [
    ifThen (test fun _ => !validateWindowId windowId) (block [finishRestoreClaim, ret 1]),
    print windowId,
    ret 0]
  else block [finishRestoreClaim, ret 1]

/-- `claim_restore_window_id` from the marker on. -/
def claimFromMarker : Cmd Files := block [
  ifThen (test fun w => w.marker.isNone)
    (ifThen (fails (waitForRestoreMarker env)) (block [finishRestoreClaim, ret 1])),
  ifThen (restoreMarkerIsStale env) (block [rmMarker, finishRestoreClaim, ret 1]),
  assign (fun w => w.marker.getD []) fun text => block [rmMarker, claimMarker env text]]

/-- `claim_restore_window_id`. -/
def claimRestoreWindowId : Cmd Files := block [
  ifThen (fails mkdirClaim) (ret 2),
  ifCapture (claimNextRestoreTicketSequence env) fun ticketSequence => block [
    call (claimReservedRestoreWindowId env ticketSequence),
    retStatus],
  withStatus fun ticketStatus => block [
    ifThen (test fun _ => ticketStatus == 2) (ret 2),
    ifThen (test fun _ => ticketStatus == 3) (block [finishRestoreClaim, ret 3]),
    claimFromMarker env]]

end Newmux.App.RestoreClaim
