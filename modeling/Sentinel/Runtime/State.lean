import Mathlib.Tactic

/-! The runtime state machine of `runtime/runtime.c`. -/
namespace Sentinel

/-- `SHINKEN_RUNTIME_STATE`. -/
inductive RuntimeState where
  | uninitialized
  | active
  | teardown
  | quiescent
  | unloadBlocked
  deriving DecidableEq

/-- `SHINKEN_BLOCK_REASON`. -/
inductive BlockReason where
  | none
  | sensorCalloutBusy
  | divertCalloutBusy
  | flowContextDrain
  | injectionDrain
  | workItemDrain
  | eventThreadDrain
  | handleContextsOpen
  | bfeCallbackActive
  | bfeUnsubscribe
  | engineClose
  | rundownStuck
  | rundownUnderflow
  | workerThreadDrain
  deriving DecidableEq

/-- `g_State`, `g_BlockReason` and the causes of `g_BlockHistory`, oldest first. -/
structure Runtime where
  state : RuntimeState
  blockReason : BlockReason
  blockHistory : List BlockReason
  deriving DecidableEq

namespace Runtime

/-- The statics before `ShRuntimeInit` has run. -/
def initial : Runtime := ⟨.uninitialized, .none, []⟩

/-- The part of `ShRuntimeInit` under its test that is not a rundown. -/
def clearBlocks (r : Runtime) : Runtime := { r with blockReason := .none, blockHistory := [] }

/-- `ShRuntimeActivate` after its call of `ShRuntimeInit`. -/
def activate (r : Runtime) : Runtime :=
  if r.state = .uninitialized then { r with state := .active } else r

def isActive (r : Runtime) : Bool := r.state == .active

/-- The new runtime and what `ShRuntimeBeginTeardown` returns. -/
def beginTeardown (r : Runtime) : Runtime × Bool :=
  if r.state = .teardown then (r, true)
  else if r.state ≠ .active then (r, r.state == .uninitialized)
  else ({ r with state := .teardown }, true)

def recordBlock (r : Runtime) (why : BlockReason) : Runtime where
  state := r.state
  blockReason := if r.blockReason = .none then why else r.blockReason
  blockHistory := r.blockHistory ++ [why]

/-- `skRecordIfNone`. -/
def recordIfNone (r : Runtime) (why : BlockReason) : Runtime :=
  if r.blockReason = .none then r.recordBlock why else r

def enterUnloadBlocked (r : Runtime) (why : BlockReason) : Runtime :=
  { r.recordBlock why with state := .unloadBlocked }

/-- `ShRuntimeReportUnderflow` apart from the counter of the rundown. -/
def reportUnderflow (r : Runtime) : Runtime :=
  let r' := r.recordBlock .rundownUnderflow
  if r'.state = .teardown then r'.enterUnloadBlocked .rundownUnderflow else r'

@[simp] theorem recordBlock_state (r : Runtime) (why : BlockReason) :
    (r.recordBlock why).state = r.state := rfl

@[simp] theorem recordIfNone_state (r : Runtime) (why : BlockReason) :
    (r.recordIfNone why).state = r.state := by
  unfold recordIfNone
  split <;> rfl

@[simp] theorem beginTeardown_blockHistory (r : Runtime) :
    r.beginTeardown.1.blockHistory = r.blockHistory := by
  unfold beginTeardown
  repeat' split
  all_goals rfl

end Runtime

end Sentinel
