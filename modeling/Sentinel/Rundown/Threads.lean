import Sentinel.General.System
import Sentinel.Rundown.Word

/-! Any number of threads on one rundown; every atomic operation is one step. -/
namespace Sentinel.Rundown

open Transition

/-- Where a thread stands. `late` is a ghost: the Acquire began after some
BeginStop had returned. -/
inductive Call where
  | acquire (late : Bool)
  | acquireCas (late : Bool) (c : Long)
  | holder (late : Bool)
  | strayRelease
  | rollback
  | report
  | beginStop
  | beginStopReturn
  | drain (retries i : ℕ)
  | drained
  deriving DecidableEq

/-- The reference is held from the successful CAS to the decrement of its Release. -/
def Call.isHolder : Call → Bool
  | .holder _ => true
  | _ => false

/-- The next atomic operation of a call, on the word it finds. -/
def Call.count (c : Long) : Call → Long
  | .acquireCas _ e => if c = e then e + 1#32 else c
  | .holder _ | .strayRelease => c - 1#32
  | .rollback => c + 1#32
  | .beginStop => rundownBeginStop c
  | .acquire _ | .report | .beginStopReturn | .drain _ _ | .drained => c

/-- Where the call stands after that operation; `none` when it has returned. A
Drain that has returned `STATUS_SUCCESS` stays on record as `drained`. -/
def Call.next (c : Long) : Call → Option Call
  | .acquire l => if rundownMayAcquire c then some (.acquireCas l c) else none
  | .acquireCas l e => some (if c = e then .holder l else .acquire l)
  | .holder _ | .strayRelease => if rundownUnderflow c then some .rollback else none
  | .rollback => some .report
  | .report => none
  | .beginStop => some .beginStopReturn
  | .beginStopReturn => none
  | .drain retries i =>
    if c = stopBit then some .drained
    else if retries ≤ i then none
    else some (.drain retries (i + 1))
  | .drained => some .drained

/-- The rundown and all calls in progress. The ghosts say whether the OR of some
BeginStop has taken effect and whether some BeginStop has returned. -/
structure State where
  count : Long
  underflows : Long
  calls : Multiset Call
  stopped : Bool
  stopReturned : Bool

/-- After `ShRundownInit`. -/
def initial : State where
  count := 0#32
  underflows := 0#32
  calls := 0
  stopped := false
  stopReturned := false

inductive Action where
  | callAcquire
  | callStrayRelease
  | callBeginStop
  | callDrain (retries : ℕ)
  | run (k : Call)
  deriving DecidableEq

def State.enter (s : State) (k : Call) : State := { s with calls := k ::ₘ s.calls }

/-- `k` takes its next step while the calls `cs` stand still. -/
def State.advance (s : State) (k : Call) (cs : Multiset Call) : State where
  count := k.count s.count
  underflows := if k = .report then s.underflows + 1#32 else s.underflows
  calls := (k.next s.count).elim cs (· ::ₘ cs)
  stopped := s.stopped || decide (k = .beginStop)
  stopReturned := s.stopReturned || decide (k = .beginStopReturn)

inductive Step : State → Action → State → Prop where
  | callAcquire {s : State} : Step s .callAcquire (s.enter (.acquire s.stopReturned))
  | callStrayRelease {s : State} : Step s .callStrayRelease (s.enter .strayRelease)
  | callBeginStop {s : State} : Step s .callBeginStop (s.enter .beginStop)
  | callDrain {s : State} {retries : ℕ} :
      Step s (.callDrain retries) (s.enter (.drain retries 0))
  | run {s : State} {k : Call} (cs : Multiset Call) (h : s.calls = k ::ₘ cs) :
      Step s (.run k) (s.advance k cs)

def system : System State Action where
  init s := s = initial
  step := Step

section Fields

variable {s : State} {k : Call} {cs : Multiset Call}

@[simp] theorem enter_count : (s.enter k).count = s.count := rfl

@[simp] theorem enter_calls : (s.enter k).calls = k ::ₘ s.calls := rfl

@[simp] theorem enter_stopped : (s.enter k).stopped = s.stopped := rfl

@[simp] theorem enter_stopReturned : (s.enter k).stopReturned = s.stopReturned := rfl

@[simp] theorem advance_count : (s.advance k cs).count = k.count s.count := rfl

@[simp] theorem advance_stopped :
    (s.advance k cs).stopped = (s.stopped || decide (k = .beginStop)) := rfl

@[simp] theorem advance_stopReturned :
    (s.advance k cs).stopReturned = (s.stopReturned || decide (k = .beginStopReturn)) := rfl

theorem mem_advance {k' : Call} (h : k' ∈ (s.advance k cs).calls) :
    k.next s.count = some k' ∨ k' ∈ cs := by
  cases hn : k.next s.count <;> simp_all [State.advance]
  tauto

theorem countP_cons {p : Call → Prop} [DecidablePred p] (h : s.calls = k ::ₘ cs) :
    s.calls.countP p = cs.countP p + if p k then 1 else 0 := by
  rw [h, Multiset.countP_cons]

theorem countP_advance {p : Call → Prop} [DecidablePred p] :
    (s.advance k cs).calls.countP p =
      cs.countP p + (k.next s.count).elim 0 (fun k' => if p k' then 1 else 0) := by
  cases h : k.next s.count <;> simp [State.advance, h, Multiset.countP_cons]

end Fields

def State.holders (s : State) : ℕ := s.calls.countP (·.isHolder = true)

/-- Every Release belongs to a successful Acquire. -/
def Paired (_ : State) (a : Action) : Prop := a ≠ .callStrayRelease

end Sentinel.Rundown
