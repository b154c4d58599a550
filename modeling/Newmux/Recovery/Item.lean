import Newmux.Recovery.History

/-!
# Closed items

What a soft delete remembers, the closed stack (newest first) and the list of
items reserved for a native tab that is still opening, and how an item is
printed.
-/

namespace Newmux.Recovery

open Newmux.Base Newmux.Tmux

/-- `NEWMUX_RECOVERY_MAX_ITEMS`. -/
def newmuxRecoveryMaxItems : Nat := 32

/-- `NEWMUX_RECOVERY_SESSION`. -/
def newmuxRecoverySession : String := "__newmux-recovery"

/-- `enum newmux_closed_type`. -/
inductive ClosedType where
  | pane
  | window
  | session
deriving DecidableEq, Repr

/-- `struct newmux_closed_item`. -/
structure ClosedItem where
  type : ClosedType
  sequence : Nat
  sessionId : Nat
  sessionName : String
  windowId : Nat
  windowName : String
  windowIndex : Int
  windowPosition : Int
  leftWindowId : Int
  rightWindowId : Int
  windowLayout : Option (List Char)
  paneId : Nat
  paneIndex : Nat
  activePaneIndex : Nat
  recoverySessionId : Nat
  recoveryWindowId : Nat
deriving DecidableEq, Repr

/-- The server and the recovery stacks beside it. -/
structure State where
  server : Server
  /-- Newest first. -/
  closedStack : List ClosedItem
  reservedStack : List ClosedItem
  closedNextSequence : Nat
  closedCount : Nat
deriving Repr

/-! ## The stacks -/

/-- The `while` of `newmux_stack_push`: drop from the tail while over the limit. -/
def evictLoop : Nat → List ClosedItem → Nat → List ClosedItem × Nat
  | 0, stack, count => (stack, count)
  | fuel + 1, stack, count =>
      if count > newmuxRecoveryMaxItems then evictLoop fuel stack.dropLast (count - 1)
      else (stack, count)

/-- `newmux_stack_push`. The evicted items are freed, and nothing else. -/
def newmuxStackPush (σ : State) (item : ClosedItem) : State :=
  let (closedStack, closedCount) :=
    evictLoop (σ.closedCount + 1) (item :: σ.closedStack) (σ.closedCount + 1)
  { σ with closedStack, closedCount }

/-- `newmux_stack_pop`. -/
def newmuxStackPop (σ : State) : Option (ClosedItem × State) :=
  match σ.closedStack with
  | [] => none
  | item :: closedStack =>
      some (item, { σ with closedStack, closedCount := σ.closedCount - 1 })

/-- `newmux_reserved_push`. -/
def newmuxReservedPush (σ : State) (item : ClosedItem) : State :=
  { σ with reservedStack := σ.reservedStack ++ [item] }

/-- `newmux_reserved_pop_by_sequence`. -/
def newmuxReservedPopBySequence (σ : State) (sequence : Nat) : Option (ClosedItem × State) :=
  match σ.reservedStack.find? (fun item => item.sequence == sequence) with
  | none => none
  | some item =>
      some (item, { σ with
        reservedStack := σ.reservedStack.eraseP (fun item => item.sequence == sequence) })

/-- `newmux_stack_clear`. -/
def newmuxStackClear (σ : State) : State :=
  { σ with closedStack := [], reservedStack := [], closedCount := 0, closedNextSequence := 0 }

/-- `newmux_recovery_clear`. -/
def newmuxRecoveryClear (σ : State) : State :=
  let server := match sessionFind σ.server newmuxRecoverySession with
    | none => σ.server
    | some s => sessionDestroy σ.server s.id
  newmuxStackClear { σ with server }

/-! ## Positions and neighbours -/

/-- `newmux_window_position`: the ordinal of the window's first winlink, or the
number of winlinks. -/
def newmuxWindowPosition (s : Session) (w : Nat) : Nat :=
  s.windows.findIdx (fun wl => wl.window == w)

/-- `newmux_winlink_at_position`. -/
def newmuxWinlinkAtPosition (s : Session) (position : Nat) : Option Winlink :=
  s.windows[position]?

/-- A neighbour's window id, `-1` for none. -/
def neighbourId (wl : Option Winlink) : Int :=
  match wl with
  | none => -1
  | some wl => wl.window

/-- `newmux_item_set_window_order`. -/
def newmuxItemSetWindowOrder (item : ClosedItem) (s : Session) (wl : Winlink) : ClosedItem :=
  { item with
    windowPosition := newmuxWindowPosition s wl.window
    leftWindowId := neighbourId (winlinkPrevious s.windows wl.ptr)
    rightWindowId := neighbourId (winlinkNext s.windows wl.ptr) }

/-- `newmux_dump_window_layout`. -/
def newmuxDumpWindowLayout (w : Window) : Option (List Char) :=
  match w.savedLayoutRoot with
  | some root => layoutDump (some root)
  | none => layoutDump w.layoutRoot

/-- The next sequence number, in 32 bits. -/
def nextSequence (σ : State) : Nat := (σ.closedNextSequence + 1) % 4294967296

/-- What `newmux_item_from_pane` and `newmux_item_from_window` have in common. -/
def itemFrom (type : ClosedType) (σ : State) (s : Session) (wl : Winlink) (w : Window) :
    ClosedItem :=
  newmuxItemSetWindowOrder
    { type, sequence := nextSequence σ, sessionId := s.id, sessionName := s.name,
      windowId := w.id, windowName := w.name, windowIndex := wl.idx,
      windowPosition := 0, leftWindowId := 0, rightWindowId := 0,
      windowLayout := newmuxDumpWindowLayout w, paneId := 0, paneIndex := 0,
      activePaneIndex := 0, recoverySessionId := 0, recoveryWindowId := 0 } s wl

/-- `newmux_item_from_pane`. -/
def newmuxItemFromPane (σ : State) (s : Session) (wl : Winlink) (w : Window) (wp : Nat) :
    ClosedItem × State :=
  let paneIndex := (windowPaneIndex w wp).getD 0
  ({ itemFrom .pane σ s wl w with
      paneId := wp, paneIndex
      activePaneIndex := (w.active.bind (windowPaneIndex w)).getD paneIndex },
    { σ with closedNextSequence := nextSequence σ })

/-- `newmux_item_from_window`. -/
def newmuxItemFromWindow (σ : State) (s : Session) (wl : Winlink) (w : Window) :
    ClosedItem × State :=
  ({ itemFrom .window σ s wl w with
      activePaneIndex := (w.active.bind (windowPaneIndex w)).getD 0 },
    { σ with closedNextSequence := nextSequence σ })

/-! ## Printing -/

/-- `newmux_window_order_string`. -/
def newmuxWindowOrderString (item : ClosedItem) : String :=
  let show1 (id : Int) : String := if id ≥ 0 then s!"@{id.toNat}" else "none"
  s!"target_position={item.windowPosition} left_window_id={show1 item.leftWindowId} " ++
    s!"right_window_id={show1 item.rightWindowId}"

/-- `newmux_closed_type_string`. -/
def newmuxClosedTypeString : ClosedType → String
  | .pane => "pane"
  | .window => "window"
  | .session => "session"

/-- The window index and ordinal `newmux_print_closed_item` shows: where the
window is linked now, or where it was when it was closed. -/
def printedPosition (sv : Server) (item : ClosedItem) : Int × Int :=
  match sessionFindById sv item.sessionId, windowFindById sv item.windowId with
  | some s, some _ =>
      match winlinkFindByWindow s.windows item.windowId with
      | some wl => (wl.idx, newmuxWindowPosition s item.windowId)
      | none => (item.windowIndex, item.windowPosition)
  | _, _ => (item.windowIndex, item.windowPosition)

/-- `newmux_print_closed_item`. -/
def newmuxPrintClosedItem (sv : Server) (item : ClosedItem) (reserved : Bool) : String :=
  let reservedField := if reserved then " reserved=1" else ""
  let restoredField := if reserved then " restored=0" else " restored=1"
  let (windowIndex, targetIndex) := printedPosition sv item
  let order := newmuxWindowOrderString item
  match item.type with
  | .pane =>
      s!"ok=1 kind=pane sequence={item.sequence} window=@{item.windowId} " ++
        s!"window_id=@{item.windowId} pane_id=%{item.paneId} window_index={windowIndex} " ++
        s!"target_index={targetIndex} {order} live=1{reservedField}{restoredField}"
  | .window =>
      s!"ok=1 kind=window sequence={item.sequence} window=@{item.windowId} " ++
        s!"window_id=@{item.windowId} window_index={windowIndex} target_index={targetIndex} " ++
        s!"{order} live=1{reservedField}{restoredField}"
  | .session =>
      s!"ok=1 kind=session sequence={item.sequence} live=1{reservedField}{restoredField}"

/-- `newmux_print_window_result`, of a linked window. -/
def newmuxPrintWindowResult (action : String) (s : Session) (wl : Winlink)
    (extra : Option String) : String :=
  s!"ok=1 action={action} kind=window window=@{wl.window} window_id=@{wl.window} " ++
    s!"window_index={wl.idx} target_index={newmuxWindowPosition s wl.window}" ++
    (extra.map (" " ++ ·)).getD ""

end Newmux.Recovery
