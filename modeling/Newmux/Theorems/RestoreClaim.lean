import Newmux.App.RestoreClaim

/-!
# The contract of the restore claim

The status a new tab gets from `claim_restore_window_id` says whether it is to
attach a window, wait for another process, give up on a request, or start fresh.
The function reads the status of the ticket and of the claim from `$?` behind an
`if` that has no `else`, where it is always zero.
-/

namespace Newmux.App.RestoreClaim

open Newmux.Base Newmux.Base.Shell

variable {env : Env}

/-! ## Requests -/

/-- The ticket that is next in the queue. -/
def Files.nextTicket (w : Files) : Option Ticket := firstTicket (w.queue.getD [])

/-- Whether a marker says no time of its making, or one too long ago; `none` when the
shell cannot read the time. -/
def stale (env : Env) (text : List Char) : Option Bool :=
  let createdAt := awkField "created_at".toList text
  if digits createdAt then (arithValue createdAt).map (tooOld env · == 0) else some true

/-- The marker there is, or the one that arrives. -/
def Files.anyMarker (env : Env) (w : Files) : Option (List Char) := w.marker.or env.arrives

/-- It, unless it is stale. -/
def Files.freshMarker (env : Env) (w : Files) : Option (List Char) :=
  (w.anyMarker env).filter (stale env · == some false)

/-- The time of the marker is a number to the shell, if there is a marker. -/
def Files.Readable (env : Env) (w : Files) : Prop :=
  ∀ text, w.anyMarker env = some text → (stale env text).isSome = true

/-- The window that the claim of a number answers with. -/
def claimedWindow (env : Env) (sequence : List Char) : List Char :=
  restoreField (env.claims sequence) "window_id".toList

/-- The answer to the claim of a number names a window. -/
def claimable (env : Env) (sequence : List Char) : Bool :=
  !(env.claims sequence).isEmpty &&
    restoreField (env.claims sequence) "kind".toList == "window".toList &&
    validateWindowId (claimedWindow env sequence)

/-- The number that a ticket or a marker says. -/
def sequenceOf (text : List Char) : List Char := awkField "sequence".toList text

/-- A ticket asks for a window, by number. -/
def wellFormed (ticket : Ticket) : Bool :=
  awkField "kind".toList ticket.text == "window".toList && digits (sequenceOf ticket.text)

/-- A marker is a request for a window. -/
def isRequest (text : List Char) : Bool :=
  awkField "kind".toList text == "window_request".toList

/-- A marker hands over a window that is open already. -/
def handsOver (text : List Char) : Bool :=
  (awkField "kind".toList text == "window".toList || awkField "kind".toList text == []) &&
    validateWindowId (awkField "window_id".toList text)

/-- Another process holds the claim lock, or takes the ticket. -/
def Busy (env : Env) (w : Files) : Prop :=
  w.claimDir = true ∨ ∃ ticket, w.nextTicket = some ticket ∧ env.renames ticket = false

/-- There is a request, which is invalid or cannot be claimed. -/
def Refused (env : Env) (w : Files) : Prop :=
  ¬Busy env w ∧
    ((∃ ticket, w.nextTicket = some ticket ∧
        ¬(wellFormed ticket = true ∧ claimable env (sequenceOf ticket.text) = true)) ∨
      (w.nextTicket = none ∧ ∃ text, w.freshMarker env = some text ∧ isRequest text = true ∧
        ¬(digits (sequenceOf text) = true ∧ claimable env (sequenceOf text) = true)))

/-- There is no request, and no window handed over. -/
def NothingToClaim (env : Env) (w : Files) : Prop :=
  ¬Busy env w ∧ w.nextTicket = none ∧
    ∀ text, w.freshMarker env = some text → isRequest text = false ∧ handsOver text = false

/-- The lines are one, and it is a window. -/
def PrintedWindow (out : List (List Char)) : Prop :=
  ∃ windowId, out = [windowId] ∧ validateWindowId windowId = true

/-- What a caller relies on. -/
structure Contract (env : Env) (w : Files) (r : Outcome Files) : Prop where
  claimed : r.status = 0 ↔ PrintedWindow r.out
  busy : r.status = 2 ↔ Busy env w
  refused : r.status = 3 ↔ Refused env w
  nothing : r.status = 1 ↔ NothingToClaim env w
  unlocked : w.claimDir = false → r.status ≠ 0 → r.world.claimDir = false

/-! ## What the functions do -/

theorem validateWindowId_noNewline {text : List Char} (h : validateWindowId text = true) :
    '\n' ∉ text := by
  cases text with
  | nil => simp
  | cons c text =>
      intro hin
      unfold validateWindowId at h
      split at h
      · next rest heq =>
        obtain ⟨rfl, rfl⟩ := List.cons.inj heq
        unfold digits at h
        simp only [Bool.and_eq_true, List.all_eq_true] at h
        have hin' : '\n' ∈ text := by simpa using hin
        exact absurd (h.2 _ hin') (by decide)
      · exact absurd h (by simp)

theorem digits_noNewline {text : List Char} (h : digits text = true) : '\n' ∉ text := by
  intro hin
  unfold digits at h
  simp only [Bool.and_eq_true, List.all_eq_true] at h
  exact absurd (h.2 _ hin) (by decide)

/-- A claim that is answered with a window prints it. -/
theorem claimReserved_of_claimable {sequence : List Char}
    (h : claimable env sequence = true) (w : Files) (n : Nat) :
    claimReservedRestoreWindowId env sequence w n =
      ⟨w, [claimedWindow env sequence], 0, .returned⟩ := by
  unfold claimable claimedWindow at h
  simp only [Bool.and_eq_true, Bool.not_eq_true', beq_iff_eq] at h
  obtain ⟨⟨hne, hkind⟩, hvalid⟩ := h
  unfold claimReservedRestoreWindowId
  rw [guard_pass _ _ ?_, guard_pass _ _ ?_, block_print, block_ret]
  · rfl
  · rw [hkind, hvalid]
    decide
  · exact hne

/-- Any other answer leaves three, and prints nothing. -/
theorem claimReserved_of_not {sequence : List Char}
    (h : ¬claimable env sequence = true) (w : Files) (n : Nat) :
    claimReservedRestoreWindowId env sequence w n = ⟨w, [], 3, .returned⟩ := by
  unfold claimReservedRestoreWindowId
  by_cases hempty : (env.claims sequence).isEmpty = true
  · rw [guard_stop _ ?_ rfl, ret_apply]
    exact hempty
  · have hne : (env.claims sequence).isEmpty = false := by simpa using hempty
    rw [guard_pass _ _ ?_, guard_stop _ ?_ rfl, ret_apply]
    · by_contra hgood
      refine h ?_
      simp only [Bool.or_eq_true, not_or, bne_iff_ne, ne_eq, not_not, Bool.not_eq_true',
        Bool.not_eq_false] at hgood
      unfold claimable claimedWindow
      simp only [Bool.and_eq_true, Bool.not_eq_true', beq_iff_eq]
      exact ⟨⟨hne, hgood.1⟩, hgood.2⟩
    · exact hne

/-- The files without a ticket. -/
def Files.dropTicket (w : Files) (ticket : Ticket) : Files :=
  { w with queue := w.queue.map fun tickets => tickets.erase ticket }

/-- No ticket is next. -/
theorem claimNext_none {w : Files} (h : w.nextTicket = none) (n : Nat) :
    claimNextRestoreTicketSequence env w n = ⟨w, [], 1, .returned⟩ := by
  unfold claimNextRestoreTicketSequence
  cases hqueue : w.queue.isSome with
  | false =>
      rw [orElse_stop _ ?_ rfl, ret_apply]
      exact hqueue
  | true =>
      rw [orElse_pass _ _ ?_, block_singleton]
      · rw [assign_apply, show firstTicket (w.queue.getD []) = none from h]
        exact ret_apply 1 w 0
      · exact hqueue

theorem queue_isSome_of_nextTicket {w : Files} {ticket : Ticket}
    (h : w.nextTicket = some ticket) : w.queue.isSome = true := by
  cases hqueue : w.queue with
  | none =>
      unfold Files.nextTicket at h
      rw [hqueue] at h
      exact absurd h (by simp [firstTicket])
  | some queue => rfl

/-- A ticket that another process takes first. -/
theorem claimNext_taken {w : Files} {ticket : Ticket} (h : w.nextTicket = some ticket)
    (htaken : env.renames ticket = false) (n : Nat) :
    claimNextRestoreTicketSequence env w n = ⟨w, [], 2, .returned⟩ := by
  unfold claimNextRestoreTicketSequence
  rw [orElse_pass _ _ ?_, block_singleton]
  swap
  · exact queue_isSome_of_nextTicket h
  rw [assign_apply, show firstTicket (w.queue.getD []) = some ticket from h]
  have hmv : mvTicket env ticket w 0 = ⟨w, [], 1, .next⟩ := by
    unfold mvTicket
    rw [act_apply, if_neg (by simp [htaken])]
  exact check_stop _ hmv (by decide) rfl

/-- A ticket that is read: its number, if it is a good one, or three. -/
theorem claimNext_read {w : Files} {ticket : Ticket} (h : w.nextTicket = some ticket)
    (hrenames : env.renames ticket = true) (n : Nat) :
    claimNextRestoreTicketSequence env w n =
      if wellFormed ticket then ⟨w.dropTicket ticket, [sequenceOf ticket.text], 0, .returned⟩
      else ⟨w.dropTicket ticket, [], 3, .returned⟩ := by
  unfold claimNextRestoreTicketSequence
  rw [orElse_pass _ _ ?_, block_singleton]
  swap
  · exact queue_isSome_of_nextTicket h
  rw [assign_apply, show firstTicket (w.queue.getD []) = some ticket from h]
  have hmv : mvTicket env ticket w 0 = ⟨w.dropTicket ticket, [], 0, .next⟩ := by
    unfold mvTicket
    rw [act_apply, if_pos hrenames]
    rfl
  refine (check_pass _ _ hmv).trans ?_
  by_cases hkind : awkField "kind".toList ticket.text = "window".toList
  · rw [guard_pass _ _ ?_]
    swap
    · simpa using hkind
    by_cases hdigits : digits (sequenceOf ticket.text) = true
    · rw [guard_pass _ _ ?_, block_print, block_ret, if_pos ?_]
      · rfl
      · unfold wellFormed
        simp only [Bool.and_eq_true, beq_iff_eq]
        exact ⟨hkind, hdigits⟩
      · unfold sequenceOf at hdigits
        rw [hdigits]
        rfl
    · rw [guard_stop _ ?_ rfl, ret_apply, if_neg ?_]
      · unfold wellFormed
        simp only [Bool.and_eq_true, not_and]
        exact fun _ => hdigits
      · unfold sequenceOf at hdigits
        simpa using hdigits
  · rw [guard_stop _ ?_ rfl, ret_apply, if_neg ?_]
    · unfold wellFormed
      simp only [Bool.and_eq_true, beq_iff_eq, not_and]
      exact fun hkind' => absurd hkind' hkind
    · simpa using hkind

/-- Give up the lock and return. -/
theorem finish_ret (m : Nat) (w : Files) (n : Nat) :
    block [finishRestoreClaim, ret m] w n = ⟨{ w with claimDir := false }, [], m, .returned⟩ := rfl

/-- A request without a number. -/
theorem claimMarker_badSequence {text : List Char} (hkind : isRequest text = true)
    (hdigits : digits (sequenceOf text) = false) (w : Files) (n : Nat) :
    claimMarker env text w n = ⟨{ w with claimDir := false }, [], 3, .returned⟩ := by
  unfold isRequest at hkind
  unfold claimMarker
  rw [if_pos (by simpa using hkind), guard_stop _ ?_ rfl, finish_ret]
  unfold sequenceOf at hdigits
  rw [hdigits]
  rfl

/-- A request that is claimed. -/
theorem claimMarker_claimed {text : List Char} (hkind : isRequest text = true)
    (hdigits : digits (sequenceOf text) = true)
    (hclaim : claimable env (sequenceOf text) = true) (w : Files) (n : Nat) :
    claimMarker env text w n = ⟨w, [claimedWindow env (sequenceOf text)], 0, .returned⟩ := by
  have hvalid : validateWindowId (claimedWindow env (sequenceOf text)) = true := by
    unfold claimable at hclaim
    simp only [Bool.and_eq_true] at hclaim
    exact hclaim.2
  have hrun := claimReserved_of_claimable hclaim w 0
  unfold isRequest at hkind
  unfold sequenceOf at hdigits
  unfold claimMarker
  rw [if_pos (by simpa using hkind), guard_pass _ _ ?_, block_cons, ifCapture_pos _ ?_]
  · rw [show awkField "sequence".toList text = sequenceOf text from rfl, hrun,
      captured_line (validateWindowId_noNewline hvalid), block_print, block_ret]
    rfl
  · exact congrArg Outcome.status hrun
  · rw [hdigits]
    rfl

/-- **A request that cannot be claimed** is answered with zero: the status that is
returned is the one the `if` left. -/
theorem claimMarker_refused {text : List Char} (hkind : isRequest text = true)
    (hdigits : digits (sequenceOf text) = true)
    (hclaim : ¬claimable env (sequenceOf text) = true) (w : Files) (n : Nat) :
    claimMarker env text w n = ⟨{ w with claimDir := false }, [], 0, .returned⟩ := by
  have hrun := claimReserved_of_not hclaim w 0
  unfold isRequest at hkind
  unfold sequenceOf at hdigits
  unfold claimMarker
  rw [if_pos (by simpa using hkind), guard_pass _ _ ?_, block_cons, ifCapture_neg _ ?_]
  · rw [show awkField "sequence".toList text = sequenceOf text from rfl, hrun]
    rfl
  · rw [show awkField "sequence".toList text = sequenceOf text from rfl, hrun]
    show (3 : Nat) ≠ 0
    decide
  · rw [hdigits]
    rfl

/-- A marker that is no request. -/
theorem claimMarker_other {text : List Char} (hkind : isRequest text = false) (w : Files)
    (n : Nat) :
    claimMarker env text w n =
      if handsOver text then ⟨w, [awkField "window_id".toList text], 0, .returned⟩
      else ⟨{ w with claimDir := false }, [], 1, .returned⟩ := by
  unfold isRequest at hkind
  unfold claimMarker
  rw [if_neg (by simpa using hkind)]
  by_cases hwindow : awkField "kind".toList text = "window".toList ∨
      awkField "kind".toList text = []
  · rw [if_pos hwindow]
    have hhands : handsOver text = validateWindowId (awkField "window_id".toList text) := by
      have hkinds : (awkField "kind".toList text == "window".toList ||
          awkField "kind".toList text == []) = true := by
        rw [Bool.or_eq_true, beq_iff_eq, beq_iff_eq]
        exact hwindow
      unfold handsOver
      rw [hkinds, Bool.true_and]
    by_cases hvalid : validateWindowId (awkField "window_id".toList text) = true
    · rw [guard_pass _ _ ?_, block_print, block_ret, if_pos (hhands.trans hvalid)]
      rw [hvalid]
      rfl
    · rw [guard_stop _ ?_ rfl, finish_ret, if_neg (by rw [hhands]; exact hvalid)]
      simpa using hvalid
  · rw [if_neg hwindow, finish_ret, if_neg ?_]
    unfold handsOver
    rw [Bool.and_eq_true, Bool.or_eq_true, beq_iff_eq, beq_iff_eq]
    exact fun h => hwindow h.1

/-- What is done with a time that a marker says. -/
theorem checkAge_eq (createdAt : List Char) (w : Files) (n : Nat) :
    block [
        ifThen (test fun _ => !digits createdAt) (ret 0),
        expand (fun _ => arithValue createdAt) env.arithError fun made =>
          act fun w => (w, tooOld env made)] w n =
      if digits createdAt then
        match arithValue createdAt with
        | none => ⟨w, [], env.arithError, .exited⟩
        | some made => ⟨w, [], tooOld env made, .next⟩
      else ⟨w, [], 0, .returned⟩ := by
  by_cases hdigits : digits createdAt = true
  · rw [guard_pass _ _ (by rw [hdigits]; rfl), block_singleton, if_pos hdigits]
    unfold expand
    cases arithValue createdAt <;> rfl
  · rw [guard_stop _ (by simpa using hdigits) rfl, ret_apply, if_neg hdigits]

/-- The age of a marker that is there. -/
theorem restoreMarkerIsStale_eq (env : Env) {w : Files} {text : List Char}
    (h : w.marker = some text) (n : Nat) :
    match stale env text with
    | none => restoreMarkerIsStale env w n = ⟨w, [], env.arithError, .exited⟩
    | some true => restoreMarkerIsStale env w n = ⟨w, [], 0, .next⟩
    | some false => ∃ m, m ≠ 0 ∧ restoreMarkerIsStale env w n = ⟨w, [], m, .next⟩ := by
  have hmarker : w.marker.isSome = true := by rw [h]; rfl
  have hbody := orElse_pass (p := fun w : Files => w.marker.isSome) (ret 1)
    [assign (fun w : Files => awkField "created_at".toList (w.marker.getD [])) fun createdAt =>
      block [
        ifThen (test fun _ => !digits createdAt) (ret 0),
        expand (fun _ => arithValue createdAt) env.arithError fun made =>
          act fun w => (w, tooOld env made)]] hmarker n
  rw [block_singleton, assign_apply, checkAge_eq, h, Option.getD_some] at hbody
  unfold restoreMarkerIsStale call stale
  rw [hbody]
  dsimp only
  by_cases hdigits : digits (awkField "created_at".toList text) = true
  · rw [if_pos hdigits, if_pos hdigits]
    cases arithValue (awkField "created_at".toList text) with
    | none => rfl
    | some made =>
        simp only [Option.map_some]
        by_cases hold : tooOld env made = 0
        · rw [beq_iff_eq.mpr hold, hold]
          rfl
        · rw [beq_eq_false_iff_ne.mpr hold]
          exact ⟨tooOld env made, hold, rfl⟩
  · rw [if_neg hdigits, if_neg hdigits]
    rfl

/-- What is done with a marker that is there. -/
theorem readMarker_eq {w : Files} {text : List Char} (h : w.marker = some text) (n : Nat) :
    block [
        ifThen (restoreMarkerIsStale env) (block [rmMarker, finishRestoreClaim, ret 1]),
        assign (fun w => w.marker.getD []) fun text => block [rmMarker, claimMarker env text]]
      w n =
      match stale env text with
      | none => ⟨w, [], env.arithError, .exited⟩
      | some true => ⟨{ w with marker := none, claimDir := false }, [], 1, .returned⟩
      | some false => claimMarker env text { w with marker := none } 0 := by
  have hage := restoreMarkerIsStale_eq env h n
  rw [block_cons]
  cases hstale : stale env text with
  | none =>
      rw [hstale] at hage
      rw [ifThen_of_exited _ hage]
      rfl
  | some old =>
      rw [hstale] at hage
      cases old with
      | true =>
          have hage : restoreMarkerIsStale env w n = ⟨w, [], 0, .next⟩ := hage
          rw [ifThen_pos _ hage]
          rfl
      | false =>
          obtain ⟨m, hm, hage⟩ := hage
          rw [ifThen_neg _ hage hm, andThen_silent, block_singleton, assign_apply, h]
          exact (block_act _ _ _ _).trans (block_singleton _ _ _)

/-- From the marker on: none that is fresh leaves one. -/
theorem claimFromMarker_eq {w : Files} (hreadable : w.Readable env) (n : Nat) :
    claimFromMarker env w n =
      match w.freshMarker env with
      | none => ⟨{ w with marker := none, claimDir := false }, [], 1, .returned⟩
      | some text => claimMarker env text { w with marker := none } 0 := by
  unfold claimFromMarker Files.freshMarker
  unfold Files.Readable at hreadable
  unfold Files.anyMarker at hreadable ⊢
  -- the marker is there, or the function waits for one
  cases hmarker : w.marker with
  | some text =>
      rw [hmarker] at hreadable
      obtain ⟨old, hold⟩ := Option.isSome_iff_exists.mp (hreadable text rfl)
      rw [guard_pass _ _ ?_, readMarker_eq hmarker, hold]
      · cases old with
        | true => simp [Option.filter, hold]
        | false => simp [Option.filter, hold]
      · rw [hmarker]
        rfl
  | none =>
      have hnone : w.marker.isNone = true := by rw [hmarker]; rfl
      rw [block_cons, ifThen_pos _ (test_true (p := fun w : Files => w.marker.isNone) hnone n)]
      cases harrives : env.arrives with
      | none =>
          have hwait : waitForRestoreMarker env w 0 = ⟨w, [], 1, .next⟩ := by
            unfold waitForRestoreMarker
            rw [act_apply, harrives]
          have hfails : fails (waitForRestoreMarker env) w 0 = ⟨w, [], 0, .next⟩ := by
            unfold fails
            rw [hwait]
            rfl
          rw [ifThen_pos _ hfails, finish_ret, andThen_ret]
          show (⟨{ w with claimDir := false }, [], 1, .returned⟩ : Outcome Files) =
            ⟨{ w with marker := none, claimDir := false }, [], 1, .returned⟩
          rw [← hmarker]
      | some text =>
          rw [hmarker, harrives] at hreadable
          obtain ⟨old, hold⟩ := Option.isSome_iff_exists.mp (hreadable text rfl)
          have hwait : waitForRestoreMarker env w 0 =
              ⟨{ w with marker := some text }, [], 0, .next⟩ := by
            unfold waitForRestoreMarker
            rw [act_apply, harrives]
          have hfails : fails (waitForRestoreMarker env) w 0 =
              ⟨{ w with marker := some text }, [], 1, .next⟩ := by
            unfold fails
            rw [hwait]
            rfl
          rw [ifThen_neg _ hfails (by decide), andThen_silent, readMarker_eq rfl, hold]
          cases old with
          | true => simp [Option.filter, hold]
          | false => simp [Option.filter, hold]

/-- **A time the shell cannot read** ends it, with the lock still taken. -/
theorem claimFromMarker_unreadable {w : Files} (h : ¬w.Readable env) (n : Nat) :
    (claimFromMarker env w n).out = [] ∧
      (claimFromMarker env w n).world.claimDir = w.claimDir := by
  unfold Files.Readable Files.anyMarker at h
  push Not at h
  obtain ⟨text, hmarker, hnone⟩ := h
  have hstale : stale env text = none := by simpa using hnone
  unfold claimFromMarker
  cases hthere : w.marker with
  | some text' =>
      have heq : text' = text := by simpa [hthere] using hmarker
      rw [guard_pass _ _ (by rw [hthere]; rfl), readMarker_eq (hthere.trans (congrArg some heq)),
        hstale]
      exact ⟨rfl, rfl⟩
  | none =>
      have harrives : env.arrives = some text := by simpa [hthere] using hmarker
      have hnone' : w.marker.isNone = true := by rw [hthere]; rfl
      have hwait : waitForRestoreMarker env w 0 =
          ⟨{ w with marker := some text }, [], 0, .next⟩ := by
        unfold waitForRestoreMarker
        rw [act_apply, harrives]
      have hfails : fails (waitForRestoreMarker env) w 0 =
          ⟨{ w with marker := some text }, [], 1, .next⟩ := by
        unfold fails
        rw [hwait]
        rfl
      rw [block_cons, ifThen_pos _ (test_true (p := fun w : Files => w.marker.isNone) hnone' n),
        ifThen_neg _ hfails (by decide), andThen_silent, readMarker_eq rfl, hstale]
      exact ⟨rfl, rfl⟩

/-! ## The whole function -/

/-- The files with the lock taken. -/
def Files.locked (w : Files) : Files := { w with claimDir := true }

/-- The lock is held by another process. -/
theorem claim_held {w : Files} (h : w.claimDir = true) (n : Nat) :
    claimRestoreWindowId env w n = ⟨w, [], 2, .returned⟩ := by
  have hmkdir : mkdirClaim w n = ⟨w, [], 1, .next⟩ := by
    unfold mkdirClaim
    rw [act_apply, if_pos h]
  unfold claimRestoreWindowId
  exact check_stop _ hmkdir (by decide) rfl

/-- A lock that is taken: the ticket is read next. -/
theorem claim_locked {w : Files} (h : w.claimDir = false) (n : Nat) :
    claimRestoreWindowId env w n =
      block [
        ifCapture (claimNextRestoreTicketSequence env) fun ticketSequence => block [
          call (claimReservedRestoreWindowId env ticketSequence),
          retStatus],
        withStatus fun ticketStatus => block [
          ifThen (test fun _ => ticketStatus == 2) (ret 2),
          ifThen (test fun _ => ticketStatus == 3) (block [finishRestoreClaim, ret 3]),
          claimFromMarker env]] w.locked 0 := by
  have hmkdir : mkdirClaim w n = ⟨w.locked, [], 0, .next⟩ := by
    unfold mkdirClaim
    rw [act_apply, if_neg (by simp [h])]
    rfl
  unfold claimRestoreWindowId
  exact check_pass _ _ hmkdir

/-- **A ticket that gives no number** is forgotten, with its status: the marker is
read as if there had been none. -/
theorem claim_noNumber {w w' : Files} {m : Nat} (h : w.claimDir = false)
    (hnext : claimNextRestoreTicketSequence env w.locked 0 = ⟨w', [], m, .returned⟩) (hm : m ≠ 0)
    (n : Nat) : claimRestoreWindowId env w n = claimFromMarker env w' 0 := by
  rw [claim_locked h, block_cons, ifCapture_neg _ (by rw [hnext]; exact hm), hnext,
    andThen_silent, block_singleton]
  refine (guard_pass _ _ rfl 0).trans ((guard_pass _ _ rfl 0).trans ?_)
  exact block_singleton _ _ _

/-- A good ticket: its window is claimed, and the status of that returned. -/
theorem claim_number {w w' : Files} {sequence : List Char} (h : w.claimDir = false)
    (hnext : claimNextRestoreTicketSequence env w.locked 0 = ⟨w', [sequence], 0, .returned⟩)
    (hsequence : '\n' ∉ sequence) (n : Nat) :
    claimRestoreWindowId env w n =
      if claimable env sequence then ⟨w', [claimedWindow env sequence], 0, .returned⟩
      else ⟨w', [], 3, .returned⟩ := by
  rw [claim_locked h, block_cons, ifCapture_pos _ (by rw [hnext]), hnext,
    captured_line hsequence, block_cons]
  by_cases hclaim : claimable env sequence = true
  · rw [if_pos hclaim]
    unfold call
    rw [claimReserved_of_claimable hclaim]
    rfl
  · rw [if_neg hclaim]
    unfold call
    rw [claimReserved_of_not hclaim]
    rfl

/-! ## The contract -/

/-- The claim is one the function answers as it should: it does not have to say
that a ticket was taken or bad, nor that a request could not be claimed, and the shell
does not end on the time of a marker. -/
def Answered (env : Env) (w : Files) : Prop :=
  w.claimDir = true ∨
    match w.nextTicket with
    | some ticket =>
        env.renames ticket = true ∧
          if wellFormed ticket then claimable env (sequenceOf ticket.text) = true
          else ∃ text, w.freshMarker env = some text ∧ isRequest text = true ∧
            digits (sequenceOf text) = false
    | none =>
        w.Readable env ∧ ∀ text, w.freshMarker env = some text → isRequest text = true →
          digits (sequenceOf text) = true → claimable env (sequenceOf text) = true

theorem not_printedWindow_nil : ¬PrintedWindow [] := by
  rintro ⟨windowId, h, -⟩
  exact absurd h (by simp)

/-- A status other than zero, with nothing printed and the lock given up. -/
theorem Contract.of_failure {w : Files} {r : Outcome Files} (hout : r.out = [])
    (hstatus : r.status ≠ 0) (hbusy : r.status = 2 ↔ Busy env w)
    (hrefused : r.status = 3 ↔ Refused env w) (hnothing : r.status = 1 ↔ NothingToClaim env w)
    (hlock : w.claimDir = false → r.world.claimDir = false) : Contract env w r where
  claimed := by
    rw [hout]
    exact ⟨fun h => absurd h hstatus, fun h => absurd h not_printedWindow_nil⟩
  busy := hbusy
  refused := hrefused
  nothing := hnothing
  unlocked := fun h _ => hlock h

/-- A lock that is kept, with nothing printed, is none of what a caller relies on. -/
theorem not_contract_of_locked {w : Files} {r : Outcome Files} (h : w.claimDir = false)
    (hout : r.out = []) (hlock : r.world.claimDir = true) : ¬Contract env w r := by
  intro hcontract
  have hstatus : r.status ≠ 0 := by
    intro hzero
    have hprinted := hcontract.claimed.mp hzero
    rw [hout] at hprinted
    exact not_printedWindow_nil hprinted
  have hfree := hcontract.unlocked h hstatus
  rw [hlock] at hfree
  cases hfree

theorem PrintedWindow.of_line {windowId : List Char} (h : validateWindowId windowId = true) :
    PrintedWindow [windowId] := ⟨windowId, rfl, h⟩

theorem validateWindowId_of_claimable {sequence : List Char}
    (h : claimable env sequence = true) :
    validateWindowId (claimedWindow env sequence) = true := by
  unfold claimable at h
  simp only [Bool.and_eq_true] at h
  exact h.2

/-- A window that is printed, where there is no more to say. -/
theorem Contract.of_window {w w' : Files} {windowId : List Char}
    (hvalid : validateWindowId windowId = true) (hbusy : ¬Busy env w) (hrefused : ¬Refused env w)
    (hnothing : ¬NothingToClaim env w) : Contract env w ⟨w', [windowId], 0, .returned⟩ where
  claimed := ⟨fun _ => .of_line hvalid, fun _ => rfl⟩
  busy := ⟨fun h => absurd h (by simp), fun h => absurd h hbusy⟩
  refused := ⟨fun h => absurd h (by simp), fun h => absurd h hrefused⟩
  nothing := ⟨fun h => absurd h (by simp), fun h => absurd h hnothing⟩
  unlocked := fun _ h => absurd rfl h

/-- The status that the marker leaves. -/
theorem claimMarker_status (env : Env) (text : List Char) (w : Files) (n : Nat) :
    (claimMarker env text w n).status ≠ 2 ∧
      ((claimMarker env text w n).status = 3 ↔
        isRequest text = true ∧ digits (sequenceOf text) = false) := by
  cases hkind : isRequest text with
  | false =>
      rw [claimMarker_other hkind]
      split <;> simp
  | true =>
      cases hdigits : digits (sequenceOf text) with
      | false => simp [claimMarker_badSequence hkind hdigits]
      | true =>
          by_cases hclaim : claimable env (sequenceOf text) = true
          · simp [claimMarker_claimed hkind hdigits hclaim]
          · simp [claimMarker_refused hkind hdigits hclaim]

theorem claimFromMarker_status {w : Files} (hreadable : w.Readable env) (n : Nat) :
    (claimFromMarker env w n).status ≠ 2 ∧
      ((claimFromMarker env w n).status = 3 ↔
        ∃ text, w.freshMarker env = some text ∧ isRequest text = true ∧
          digits (sequenceOf text) = false) := by
  rw [claimFromMarker_eq hreadable]
  cases hfresh : w.freshMarker env with
  | none => simp
  | some text =>
      have hstatus := claimMarker_status env text { w with marker := none } 0
      obtain ⟨htwo, hthree⟩ := hstatus
      refine ⟨htwo, hthree.trans ⟨fun h => ⟨text, rfl, h⟩, ?_⟩⟩
      rintro ⟨text', heq, h⟩
      obtain rfl := Option.some.inj heq
      exact h

/-- The time of a fresh marker has been read. -/
theorem readable_of_fresh {w : Files} {text : List Char} (h : w.freshMarker env = some text) :
    w.Readable env := by
  intro text' hmarker
  obtain ⟨hsome, hfresh⟩ := Option.filter_eq_some_iff.mp h
  obtain rfl := Option.some.inj (hmarker.symm.trans hsome)
  rw [beq_iff_eq.mp hfresh]
  rfl

/-- A request that is given up with three and the lock free. -/
theorem claimFromMarker_three {w : Files} {text : List Char}
    (hfresh : w.freshMarker env = some text) (hkind : isRequest text = true)
    (hdigits : digits (sequenceOf text) = false) (n : Nat) :
    claimFromMarker env w n = ⟨{ w with marker := none, claimDir := false }, [], 3, .returned⟩ := by
  rw [claimFromMarker_eq (readable_of_fresh hfresh), hfresh]
  exact claimMarker_badSequence hkind hdigits _ _

theorem not_busy {w : Files} (h : w.claimDir = false)
    (hticket : ∀ ticket, w.nextTicket = some ticket → env.renames ticket = true) :
    ¬Busy env w := by
  rintro (hheld | ⟨ticket, hsome, htaken⟩)
  · exact absurd (h.symm.trans hheld) (by simp)
  · exact absurd ((hticket ticket hsome).symm.trans htaken) (by simp)

section Marker

variable {w : Files} {text : List Char}

/-- Without a ticket it is the marker that is refused. -/
theorem refused_marker (hbusy : ¬Busy env w) (hticket : w.nextTicket = none)
    (hfresh : w.freshMarker env = some text) :
    Refused env w ↔ isRequest text = true ∧
      ¬(digits (sequenceOf text) = true ∧ claimable env (sequenceOf text) = true) := by
  constructor
  · rintro ⟨-, ⟨ticket, hsome, -⟩ | ⟨-, text', hsome, h⟩⟩
    · exact absurd (hticket.symm.trans hsome) (by simp)
    · obtain rfl := Option.some.inj (hfresh.symm.trans hsome)
      exact h
  · exact fun h => ⟨hbusy, .inr ⟨hticket, text, hfresh, h⟩⟩

theorem nothing_marker (hbusy : ¬Busy env w) (hticket : w.nextTicket = none)
    (hfresh : w.freshMarker env = some text) :
    NothingToClaim env w ↔ isRequest text = false ∧ handsOver text = false := by
  constructor
  · rintro ⟨-, -, h⟩
    exact h text hfresh
  · refine fun h => ⟨hbusy, hticket, fun text' hsome => ?_⟩
    obtain rfl := Option.some.inj (hfresh.symm.trans hsome)
    exact h

/-- A marker that is no request is answered as it should be. -/
theorem contract_other (hbusy : ¬Busy env w) (hticket : w.nextTicket = none)
    (hfresh : w.freshMarker env = some text) (hkind : isRequest text = false) (w' : Files) :
    Contract env w (claimMarker env text w' 0) := by
  have hrefused : ¬Refused env w := by
    rw [refused_marker hbusy hticket hfresh, hkind]
    simp
  rw [claimMarker_other hkind]
  cases hhands : handsOver text with
  | true =>
      rw [if_pos rfl]
      refine .of_window ?_ hbusy hrefused ?_
      · unfold handsOver at hhands
        rw [Bool.and_eq_true] at hhands
        exact hhands.2
      · rw [nothing_marker hbusy hticket hfresh, hhands]
        simp
  | false =>
      rw [if_neg (by simp)]
      refine .of_failure rfl (by simp) ?_ ?_ ?_ fun _ => rfl
      · exact ⟨fun h => absurd h (by simp), fun h => absurd h hbusy⟩
      · exact ⟨fun h => absurd h (by simp), fun h => absurd h hrefused⟩
      · exact ⟨fun _ => (nothing_marker hbusy hticket hfresh).mpr ⟨hkind, hhands⟩, fun _ => rfl⟩

/-- A request in the marker is, unless it has a number that cannot be claimed. -/
theorem contract_request (hbusy : ¬Busy env w) (hticket : w.nextTicket = none)
    (hfresh : w.freshMarker env = some text) (hkind : isRequest text = true) (w' : Files) :
    Contract env w (claimMarker env text w' 0) ↔
      (digits (sequenceOf text) = true → claimable env (sequenceOf text) = true) := by
  have hnothing : ¬NothingToClaim env w := by
    rw [nothing_marker hbusy hticket hfresh, hkind]
    simp
  cases hdigits : digits (sequenceOf text) with
  | false =>
      have hrefused : Refused env w := by
        rw [refused_marker hbusy hticket hfresh, hdigits]
        exact ⟨hkind, by simp⟩
      rw [claimMarker_badSequence hkind hdigits]
      refine ⟨fun _ h => absurd h (by simp), fun _ => .of_failure rfl (by simp) ?_ ?_ ?_
        fun _ => rfl⟩
      · exact ⟨fun h => absurd h (by simp), fun h => absurd h hbusy⟩
      · exact ⟨fun _ => hrefused, fun _ => rfl⟩
      · exact ⟨fun h => absurd h (by simp), fun h => absurd h hnothing⟩
  | true =>
      by_cases hclaim : claimable env (sequenceOf text) = true
      · have hrefused : ¬Refused env w := by
          rw [refused_marker hbusy hticket hfresh]
          exact fun h => h.2 ⟨hdigits, hclaim⟩
        rw [claimMarker_claimed hkind hdigits hclaim]
        exact ⟨fun _ _ => hclaim, fun _ =>
          .of_window (validateWindowId_of_claimable hclaim) hbusy hrefused hnothing⟩
      · rw [claimMarker_refused hkind hdigits hclaim]
        exact ⟨fun h => absurd (h.claimed.mp rfl) not_printedWindow_nil,
          fun h => absurd (h rfl) hclaim⟩

end Marker

/-- Without a ticket the contract is one on the marker. -/
theorem contract_noTicket {w : Files} (h : w.claimDir = false) (hticket : w.nextTicket = none) :
    Contract env w (claimFromMarker env w.locked 0) ↔
      w.Readable env ∧ ∀ text, w.freshMarker env = some text → isRequest text = true →
        digits (sequenceOf text) = true → claimable env (sequenceOf text) = true := by
  have hbusy : ¬Busy env w :=
    not_busy h fun ticket hsome => absurd (hticket.symm.trans hsome) (by simp)
  by_cases hreadable : w.Readable env
  swap
  · obtain ⟨hout, hlock⟩ := claimFromMarker_unreadable (w := w.locked) hreadable 0
    exact iff_of_false (not_contract_of_locked h hout hlock) fun hand => hreadable hand.1
  rw [and_iff_right hreadable, claimFromMarker_eq (w := w.locked) hreadable,
    show w.locked.freshMarker env = w.freshMarker env from rfl]
  cases hfresh : w.freshMarker env with
  | none =>
      have hnothing : NothingToClaim env w :=
        ⟨hbusy, hticket, fun text hsome => absurd (hfresh.symm.trans hsome) (by simp)⟩
      have hrefused : ¬Refused env w := by
        rintro ⟨-, ⟨ticket, hsome, -⟩ | ⟨-, text, hsome, -⟩⟩
        · exact absurd (hticket.symm.trans hsome) (by simp)
        · exact absurd (hfresh.symm.trans hsome) (by simp)
      refine ⟨fun _ text hsome => absurd hsome (by simp), fun _ => ?_⟩
      refine .of_failure rfl (by simp) ?_ ?_ ⟨fun _ => hnothing, fun _ => rfl⟩ fun _ => rfl
      · exact ⟨fun h => absurd h (by simp), fun h => absurd h hbusy⟩
      · exact ⟨fun h => absurd h (by simp), fun h => absurd h hrefused⟩
  | some text =>
      cases hkind : isRequest text with
      | false =>
          refine ⟨fun _ text' hsome hrequest => ?_, fun _ =>
            contract_other hbusy hticket hfresh hkind _⟩
          obtain rfl := Option.some.inj hsome
          exact absurd (hkind.symm.trans hrequest) (by simp)
      | true =>
          refine (contract_request hbusy hticket hfresh hkind _).trans ⟨fun h text' hsome _ => ?_,
            fun h => h text rfl hkind⟩
          obtain rfl := Option.some.inj hsome
          exact h

/-- A bad ticket is answered as it should be only where the marker is as bad. -/
theorem contract_badTicket {w w' : Files} {ticket : Ticket} (h : w.claimDir = false)
    (hticket : w.nextTicket = some ticket) (hrenames : env.renames ticket = true)
    (hbad : ¬wellFormed ticket = true) (hfiles : w'.freshMarker env = w.freshMarker env)
    (hlocked : w'.claimDir = true) :
    Contract env w (claimFromMarker env w' 0) ↔
      ∃ text, w.freshMarker env = some text ∧ isRequest text = true ∧
        digits (sequenceOf text) = false := by
  have hbusy : ¬Busy env w := by
    refine not_busy h fun ticket' hsome => ?_
    obtain rfl := Option.some.inj (hticket.symm.trans hsome)
    exact hrenames
  have hrefused : Refused env w := ⟨hbusy, .inl ⟨ticket, hticket, fun hgood => hbad hgood.1⟩⟩
  constructor
  · intro hcontract
    have hreadable : w'.Readable env := by
      by_contra hnot
      obtain ⟨hout, hlock⟩ := claimFromMarker_unreadable hnot 0
      exact not_contract_of_locked h hout (hlock.trans hlocked) hcontract
    have hthree := (claimFromMarker_status hreadable 0).2.mp (hcontract.refused.mpr hrefused)
    rwa [hfiles] at hthree
  · rintro ⟨text, hfresh, hkind, hdigits⟩
    rw [claimFromMarker_three (hfiles.trans hfresh) hkind hdigits]
    refine .of_failure rfl (by simp) ?_ ⟨fun _ => hrefused, fun _ => rfl⟩ ?_ fun _ => rfl
    · exact ⟨fun h => absurd h (by simp), fun h => absurd h hbusy⟩
    · refine ⟨fun h => absurd h (by simp), fun hnothing => ?_⟩
      exact absurd (hticket.symm.trans hnothing.2.1) (by simp)

/-- A good ticket is, if its number can be claimed: the lock stays taken otherwise. -/
theorem contract_goodTicket {w : Files} {ticket : Ticket} (h : w.claimDir = false)
    (hticket : w.nextTicket = some ticket) (hrenames : env.renames ticket = true)
    (hgood : wellFormed ticket = true) :
    Contract env w (claimRestoreWindowId env w 0) ↔
      claimable env (sequenceOf ticket.text) = true := by
  have hbusy : ¬Busy env w := by
    refine not_busy h fun ticket' hsome => ?_
    obtain rfl := Option.some.inj (hticket.symm.trans hsome)
    exact hrenames
  have hdigits : digits (sequenceOf ticket.text) = true := by
    unfold wellFormed at hgood
    rw [Bool.and_eq_true] at hgood
    exact hgood.2
  have hnext : claimNextRestoreTicketSequence env w.locked 0 =
      ⟨w.locked.dropTicket ticket, [sequenceOf ticket.text], 0, .returned⟩ := by
    rw [claimNext_read (w := w.locked) hticket hrenames, if_pos hgood]
  rw [claim_number h hnext (digits_noNewline hdigits)]
  by_cases hclaim : claimable env (sequenceOf ticket.text) = true
  · rw [if_pos hclaim]
    refine ⟨fun _ => hclaim, fun _ =>
      .of_window (validateWindowId_of_claimable hclaim) hbusy ?_ fun hnothing => ?_⟩
    · rintro ⟨-, ⟨ticket', hsome, hbad⟩ | ⟨hnone, -⟩⟩
      · obtain rfl := Option.some.inj (hticket.symm.trans hsome)
        exact hbad ⟨hgood, hclaim⟩
      · exact absurd (hticket.symm.trans hnone) (by simp)
    · exact absurd (hticket.symm.trans hnothing.2.1) (by simp)
  · rw [if_neg hclaim]
    refine ⟨fun hcontract => ?_, fun h => absurd h hclaim⟩
    exact absurd (hcontract.unlocked h (by simp)) (by simp [Files.dropTicket, Files.locked])

/-- **The contract of the restore claim.** It is kept exactly where the function
need not tell the caller that a ticket failed or a number could not be claimed, and can
work out the age of the marker it reads. -/
theorem claimRestoreWindowId_contract_iff (env : Env) (w : Files) :
    Contract env w (claimRestoreWindowId env w 0) ↔ Answered env w := by
  unfold Answered
  cases h : w.claimDir with
  | true =>
      -- another process holds the lock
      have hbusy : Busy env w := .inl h
      refine ⟨fun _ => .inl rfl, fun _ => ?_⟩
      rw [claim_held h]
      refine .of_failure rfl (by simp) ⟨fun _ => hbusy, fun _ => rfl⟩ ?_ ?_
        fun hfree => absurd (hfree.symm.trans h) (by simp)
      · exact ⟨fun h => absurd h (by simp), fun hrefused => absurd hbusy hrefused.1⟩
      · exact ⟨fun h => absurd h (by simp), fun hnothing => absurd hbusy hnothing.1⟩
  | false =>
      rw [show (false = true) = False from by simp, false_or]
      -- no ticket, one that another process has taken, a good one or a bad one
      cases hticket : w.nextTicket with
      | none =>
          have hnext : claimNextRestoreTicketSequence env w.locked 0 = ⟨w.locked, [], 1, .returned⟩ :=
            claimNext_none (w := w.locked) hticket 0
          rw [claim_noNumber h hnext (by decide)]
          exact contract_noTicket h hticket
      | some ticket =>
          cases hrenames : env.renames ticket with
          | false =>
              have hnext : claimNextRestoreTicketSequence env w.locked 0 =
                  ⟨w.locked, [], 2, .returned⟩ := claimNext_taken (w := w.locked) hticket hrenames 0
              rw [claim_noNumber h hnext (by decide)]
              refine ⟨fun hcontract => ?_, fun hread => absurd (hrenames.symm.trans hread.1) (by simp)⟩
              by_cases hreadable : w.locked.Readable env
              · exact absurd (hcontract.busy.mpr (.inr ⟨ticket, hticket, hrenames⟩))
                  (claimFromMarker_status hreadable _).1
              · obtain ⟨hout, hlock⟩ := claimFromMarker_unreadable hreadable 0
                exact absurd hcontract (not_contract_of_locked h hout hlock)
          | true =>
              by_cases hgood : wellFormed ticket = true
              · refine (contract_goodTicket h hticket hrenames hgood).trans ?_
                simp [hgood, hrenames]
              · have hnext : claimNextRestoreTicketSequence env w.locked 0 =
                    ⟨w.locked.dropTicket ticket, [], 3, .returned⟩ := by
                  rw [claimNext_read (w := w.locked) hticket hrenames, if_neg hgood]
                have hfiles : (w.locked.dropTicket ticket).freshMarker env =
                    w.freshMarker env := rfl
                rw [claim_noNumber h hnext (by decide)]
                refine (contract_badTicket h hticket hrenames hgood hfiles rfl).trans ?_
                simp [hgood, hrenames]

/-! ## A request for a window that is gone -/

/-- No other process is there, and no number can be claimed. -/
def nothingClosed : Env where
  arrives := none
  renames := fun _ => true
  claims := fun _ => []
  now := 1751500010
  ttl := some 30
  arithError := 1

/-- A marker that asks for the window with the number seven, ten seconds old. -/
def requestMarker : Files where
  claimDir := false
  queue := none
  marker := some "kind=window_request\nsequence=7\ncreated_at=1751500000".toList

/-- The claim of a window that is gone returns zero and prints nothing. -/
theorem refused_request_succeeds :
    (claimRestoreWindowId nothingClosed requestMarker 0).status = 0 ∧
      (claimRestoreWindowId nothingClosed requestMarker 0).out = [] ∧
      ¬Contract nothingClosed requestMarker
        (claimRestoreWindowId nothingClosed requestMarker 0) := by
  have hstatus : (claimRestoreWindowId nothingClosed requestMarker 0).status = 0 := by decide
  have hout : (claimRestoreWindowId nothingClosed requestMarker 0).out = [] := by decide
  refine ⟨hstatus, hout, fun h => ?_⟩
  have hprinted := h.claimed.mp hstatus
  rw [hout] at hprinted
  exact not_printedWindow_nil hprinted

end Newmux.App.RestoreClaim
