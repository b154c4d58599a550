import Newmux.Logic.Runs
import Newmux.Runtime.Files

/-!
# The mirror of the closed stack

The runtime script keeps its own list of the closed windows beside the native
stack. A delete or restore on the native side is followed by a call that
records it: `delete` and `restore_latest` run the native command themselves,
`mirror-native-delete` and `mirror-native-restore` are started by whoever ran
it. The calls land one at a time, in any order.
-/

namespace Newmux.Runtime

open Newmux.Base Newmux.Tmux Newmux.Recovery Newmux.Logic

/-! ## The calls -/

/-- `window_id_field`: a neighbour that is there. -/
def windowIdField (id : Int) : Option Int := if 0 ≤ id then some id else none

/-- The line of a closed window. -/
def lifoItem (workspace : String) (nativeMirror : Bool) (item : ClosedItem) : LifoItem :=
  { sequence := item.sequence, kind := "window", window := item.windowId, workspace,
    originalIndex := some item.windowPosition
    leftNeighbor := windowIdField item.leftWindowId
    rightNeighbor := windowIdField item.rightWindowId
    mode := "soft", nativeMirror }

/-- The item of `delete`. -/
def deleteItem (workspace : String) (item : ClosedItem) : LifoItem := lifoItem workspace false item

/-- The item of `mirror_native_delete`. -/
def mirrorNativeDeleteItem (workspace : String) (item : ClosedItem) : LifoItem :=
  lifoItem workspace true item

/-- The fields of the line printed for an item that has been restored. -/
def reopenFields (item : ClosedItem) : ReopenFields :=
  ⟨some "1", some s!"@{item.windowId}", some s!"@{item.windowId}", some item.sequence⟩

/-- A window's id is never the empty text, so the call goes on to write. -/
theorem restoreLatest_writes (item : ClosedItem) :
    (RestoreCall.restoreLatest (reopenFields item)).writes = true := by
  simp [RestoreCall.writes, ReopenFields.reopened, reopenFields, given]

/-- A call on its way. -/
inductive MirrorCall where
  | delete (item : LifoItem)
  | restore (call : RestoreCall)
deriving DecidableEq, Repr

/-- The number a call records. -/
def MirrorCall.number : MirrorCall → Option Int
  | .delete item => some item.sequence
  | .restore call => call.sequence

/-- The call as it lands. -/
def MirrorCall.land (files : StackFiles) : MirrorCall → StackFiles
  | .delete item => (appendLifoItemIfMissing files item).1
  | .restore call => { files with restored := (call.write files.restored).getD files.restored }

/-- Who deletes: the runtime's `delete`, or the application, which has it
mirrored. -/
structure Caller where
  workspace : String
  native : Bool
deriving DecidableEq, Repr

/-- The item a soft `newmux-delete-window -P` prints. -/
def deletedItem (σ : State) (primary : Option String) (target : Target) : Option ClosedItem :=
  let (σ', result) := cmdNewmuxDeleteWindowExec σ primary true target
  if parks σ (.deleteWindow primary true target) ∧ result.retval = .normal then
    σ'.closedStack.head?
  else none

/-- The call that follows a soft delete; a hard one has none. -/
def deleteCall (caller : Caller) (item : ClosedItem) : MirrorCall :=
  .delete (if caller.native then mirrorNativeDeleteItem caller.workspace item
    else deleteItem caller.workspace item)

/-- `restore_latest`, if its native command restores the item. -/
def reopenCall (σ : State) (target : Option Nat) (item : ClosedItem) : Option MirrorCall :=
  match (newmuxRestoreClosedItem σ.server target item).2 with
  | .error _ => none
  | .ok _ => some (.restore (.restoreLatest (reopenFields item)))

/-- The start script's call after a claim; it goes on with windows only. -/
def claimCall (σ : State) (target : Option Nat) (item : ClosedItem) : Option MirrorCall :=
  match (newmuxRestoreClosedItem σ.server target item).2 with
  | .error _ => none
  | .ok _ =>
      if item.type = .window then some (.restore (.mirrorNativeRestore item.sequence)) else none

/-- The call that a native command gives rise to. -/
def mirrorCall (σ : State) (caller : Caller) : Event → Option MirrorCall
  | .deleteWindow primary _ target => (deletedItem σ primary target).map (deleteCall caller)
  | .reopenLatestClosed target _ =>
      (newmuxStackPop σ).bind fun (item, σ₁) => reopenCall σ₁ target item
  | .claimReservedClosed value target _ =>
      match reservedSequence value with
      | .error _ => none
      | .ok sequence =>
          (newmuxReservedPopBySequence σ sequence).bind fun (item, σ₁) => claimCall σ₁ target item
  | _ => none

/-! ## The system -/

/-- The native side, the two files and the calls on their way. -/
structure Mirror where
  native : State
  files : StackFiles
  pending : List MirrorCall
deriving Repr

inductive MirrorEvent where
  | native (l : Event) (caller : Caller)
  | land (i : Nat)

namespace Mirror

def exec (μ : Mirror) : MirrorEvent → Mirror
  | .native l caller =>
      { μ with
        native := Recovery.exec μ.native l
        pending := μ.pending ++ (mirrorCall μ.native caller l).toList }
  | .land i =>
      match μ.pending[i]? with
      | none => μ
      | some call =>
          { μ with files := call.land μ.files, pending := μ.pending.eraseIdx i }

end Mirror

/-- A command whose deletes and restores are mirrored. What
`newmux-soft-delete-window` closes, and what is closed or restored without
printing it, has no call. -/
def Mirrored : Event → Prop
  | .softDeleteWindow _ => False
  | .deleteWindow _ print _ => print = true
  | .reopenLatestClosed _ print => print = true
  | .claimReservedClosed _ _ print => print = true
  | _ => True

instance : (l : Event) → Decidable (Mirrored l)
  | .softDeletePane _ => .isTrue trivial
  | .softDeleteWindow _ => .isFalse id
  | .deleteWindow _ print _ => inferInstanceAs (Decidable (print = true))
  | .reserveLatestClosed _ => .isTrue trivial
  | .claimReservedClosed _ _ print => inferInstanceAs (Decidable (print = true))
  | .releaseReservedClosed _ _ => .isTrue trivial
  | .reopenLatestClosed _ print => inferInstanceAs (Decidable (print = true))
  | .clearRecentlyClosed => .isTrue trivial
  | .output _ _ => .isTrue trivial

def MirrorEvent.Valid (μ : Mirror) : MirrorEvent → Prop
  | .native l _ => l.Valid μ.native.server ∧ Mirrored l
  | .land i => i < μ.pending.length

instance (μ : Mirror) : (l : MirrorEvent) → Decidable (l.Valid μ)
  | .native l _ => inferInstanceAs (Decidable (l.Valid μ.native.server ∧ Mirrored l))
  | .land i => inferInstanceAs (Decidable (i < μ.pending.length))

/-- Nothing has been closed or recorded yet. -/
structure Mirror.Fresh (μ : Mirror) : Prop where
  native : Recovery.Fresh μ.native
  files : μ.files = ⟨[], none⟩
  pending : μ.pending = []

/-- The runs from the servers `Init` over which nothing has been closed. -/
def mirrorSystem (Init : Server → Prop) : TSys Mirror MirrorEvent where
  init μ := μ.Fresh ∧ Init μ.native.server
  step μ l μ' := l.Valid μ ∧ μ' = μ.exec l

/-- A list of valid events that satisfy the condition runs. -/
theorem mirror_run {Init : Server → Prop} {Good : Mirror → MirrorEvent → Prop} {μ : Mirror}
    (hμ : (mirrorSystem Init).ReachableWith Good μ) {ls : List MirrorEvent}
    (hrun : TSys.RunOk (fun μ l => Good μ l ∧ l.Valid μ) Mirror.exec μ ls) :
    (mirrorSystem Init).ReachableWith Good (TSys.runFrom Mirror.exec μ ls) := by
  have hstep : ∀ (μ : Mirror) (l : MirrorEvent), l.Valid μ →
      (mirrorSystem Init).step μ l (μ.exec l) := fun _ _ h => ⟨h, rfl⟩
  exact TSys.reachableWith_run hstep hμ hrun

end Newmux.Runtime
