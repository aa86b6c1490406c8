import Sentinel.General.System
import Sentinel.Rundown.Word
import Sentinel.Runtime.State

/-! BFE callbacks against the thread that loads and unloads the driver. -/
namespace Sentinel.Bfe

open Transition

/-- `FWPM_SERVICE_STATE`. -/
inductive ServiceState where
  | stopped
  | startPending
  | stopPending
  | running
  deriving DecidableEq

/-- Where an invocation of `SkBfeStateChangeCallback` stands. It holds a reference from
`body` to the decrement of `release`. -/
inductive Callback where
  | acquire (service : ServiceState)
  | acquireCas (service : ServiceState) (c : Long)
  | body (service : ServiceState)
  | release
  | rollback
  | report
  deriving DecidableEq

/-- Between the successful Acquire and the Release. -/
def Callback.isInside : Callback → Bool
  | .body _ | .release => true
  | .acquire _ | .acquireCas _ _ | .rollback | .report => false

/-- What the next atomic operation of a callback leaves in the rundown word. -/
def Callback.count (c : Long) : Callback → Long
  | .acquireCas _ e => if c = e then e + 1#32 else c
  | .release => c - 1#32
  | .rollback => c + 1#32
  | .acquire _ | .body _ | .report => c

def Callback.next (c : Long) : Callback → Option Callback
  | .acquire st => if rundownMayAcquire c then some (.acquireCas st c) else none
  | .acquireCas st e => some (if c = e then .body st else .acquire st)
  | .body _ => some .release
  | .release => if rundownUnderflow c then some .rollback else none
  | .rollback => some .report
  | .report => none

/-- Where the thread of `DriverEntry`, later of `SkEvtDriverUnload`, stands. The flag of the
`init` steps tells the call of `ShRuntimeInit` in `ShRuntimeActivate` from the one before. -/
inductive Main where
  | init (activating : Bool)
  | initCount (activating : Bool)
  | initUnderflows (activating : Bool)
  | create
  | start
  | subscribe
  | install
  | activate
  | loaded
  | rollback
  | unload
  | unsubscribe
  | beginStop
  | drain (i : ℕ)
  | quiesced
  | notQuiesced (stopped : Bool)
  | failed
  deriving DecidableEq

/-- Whether `skBfeQuiesce` has set the stop bit. -/
def Main.stopped : Main → Bool
  | .drain _ | .quiesced => true
  | .notQuiesced stopped => stopped
  | .init _ | .initCount _ | .initUnderflows _ | .create | .start | .subscribe | .install
  | .activate | .loaded | .rollback | .unload | .unsubscribe | .beginStop | .failed => false

/-- `SK_LIFECYCLE_DRAIN_RETRIES`. -/
def drainRetries : ℕ := 100

/-- `ShRundownBfe`, the runtime, `g_SkDevice != NULL`, `g_SkWfpDeferred`,
`g_SkBfeChangeHandle != NULL`, whether BFE may call back, the callbacks in flight and the
one thread that loads and unloads. -/
structure State where
  count : Long
  underflows : Long
  runtime : Runtime
  device : Bool
  deferred : Bool
  handle : Bool
  subscribed : Bool
  callbacks : Multiset Callback
  main : Main

/-- The statics when `DriverEntry` is called. -/
def initial : State where
  count := 0#32
  underflows := 0#32
  runtime := .initial
  device := false
  deferred := false
  handle := false
  subscribed := false
  callbacks := 0
  main := .init false

/-- `k` takes its next step while the callbacks `cs` stand still; `ok` is what the
Install of the body returns, if it comes to one. -/
def State.runCallback (s : State) (k : Callback) (cs : Multiset Callback) (ok : Bool) :
    State where
  count := k.count s.count
  underflows := if k = .report then s.underflows + 1#32 else s.underflows
  runtime := if k = .report then s.runtime.reportUnderflow else s.runtime
  device := s.device
  deferred := if k = .body .running ∧ s.runtime.isActive ∧ s.device then !ok else s.deferred
  handle := s.handle
  subscribed := s.subscribed
  callbacks := (k.next s.count).elim cs (· ::ₘ cs)
  main := s.main

/-- The next step of the loading and unloading thread. `bfe` is what `FwpmBfeStateGet0`
returns, `ok` whether the API called in the step succeeds. -/
def State.runMain (s : State) (bfe : ServiceState) (ok : Bool) : State :=
  match s.main with
  | .init a =>
    if s.runtime.state = .uninitialized then
      { s with runtime := s.runtime.clearBlocks, main := .initCount a }
    else { s with main := if a then .activate else .create }
  | .initCount a => { s with count := 0#32, main := .initUnderflows a }
  | .initUnderflows a =>
    { s with underflows := 0#32, main := if a then .activate else .create }
  | .create => { s with main := if ok then .start else .failed }
  -- Without SK_STEP_BFE the rollback of SkLifecycleStart leaves the rundown alone.
  | .start =>
    { s with device := true, deferred := false, main := if ok then .subscribe else .failed }
  | .subscribe =>
    if ok then { s with handle := true, subscribed := true, main := .install }
    else { s with handle := false, main := .failed }
  | .install =>
    if bfe = .running then { s with main := if ok then .init true else .rollback }
    else { s with deferred := true, main := .init true }
  | .activate => { s with runtime := s.runtime.activate, main := .loaded }
  | .loaded => { s with main := .unload }
  | .rollback | .unload =>
    { s with runtime := s.runtime.beginTeardown.1, main := .unsubscribe }
  | .unsubscribe =>
    if s.handle then
      if ok then { s with handle := false, subscribed := false, main := .beginStop }
      else { s with runtime := s.runtime.recordIfNone .bfeUnsubscribe,
                    main := .notQuiesced false }
    else { s with main := .beginStop }
  | .beginStop => { s with count := rundownBeginStop s.count, main := .drain 0 }
  | .drain i =>
    if s.count = stopBit then { s with main := .quiesced }
    else if drainRetries ≤ i then
      { s with runtime := s.runtime.recordIfNone .bfeCallbackActive,
               main := .notQuiesced true }
    else { s with main := .drain (i + 1) }
  | .quiesced | .notQuiesced _ | .failed => s

inductive Action where
  | callback (service : ServiceState)
  | run (k : Callback) (ok : Bool)
  | main (bfe : ServiceState) (ok : Bool)
  | enterUnloadBlocked (why : BlockReason)
  deriving DecidableEq

inductive Step : State → Action → State → Prop where
  | callback {s : State} {service : ServiceState} (h : s.subscribed = true) :
      Step s (.callback service) { s with callbacks := .acquire service ::ₘ s.callbacks }
  | run {s : State} {k : Callback} {ok : Bool} (cs : Multiset Callback)
      (h : s.callbacks = k ::ₘ cs) : Step s (.run k ok) (s.runCallback k cs ok)
  | main {s : State} {bfe : ServiceState} {ok : Bool} :
      Step s (.main bfe ok) (s.runMain bfe ok)
  -- Any other subsystem may do this at any time.
  | enterUnloadBlocked {s : State} {why : BlockReason} :
      Step s (.enterUnloadBlocked why) { s with runtime := s.runtime.enterUnloadBlocked why }

def system : System State Action where
  init s := s = initial
  step := Step

/-- The callbacks between their successful Acquire and their Release. -/
def State.inside (s : State) : ℕ := s.callbacks.countP (·.isInside = true)

/-- The count of the second `ShRundownInit` falls on no callback's reference. -/
def ResetWhenIdle (s : State) : Action → Prop
  | .main _ _ => s.main = .initCount true → s.inside = 0
  | .callback _ | .run _ _ | .enterUnloadBlocked _ => True

end Sentinel.Bfe
