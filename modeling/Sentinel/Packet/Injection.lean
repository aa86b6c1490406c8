import Sentinel.Rundown.Threads
import Sentinel.Runtime.State
import Sentinel.Status

/-! The handles and pools of `packet/injection.c`, from `SkInjectInit` to `SkInjectDestroy`, with
any number of injections. Every atomic, every read of a global and every WFP or NDIS call is one
step. -/
namespace Sentinel.Injection

open Transition

/-- `g_InjectionHandle` (of AF_INET or AF_INET6), `g_SkNblPool` and `g_SkNbPool`. -/
inductive Resource where
  | handle (v6 : Bool)
  | nblPool
  | nbPool
  deriving DecidableEq

/-- `SK_INJECT_BUSY_RETRIES`. -/
def injectBusyRetries : ℕ := 8

/-- `SK_INJECT_DRAIN_RETRIES`. -/
def injectDrainRetries : ℕ := 100

/-- `SHINKEN_WFP_OBJECT_STATE`. -/
inductive TrackState where
  | unregistered
  | registered
  | deletePending
  | deleted
  | leaked
  deriving DecidableEq

/-- `SHINKEN_WFP_OBJECT`, as far as a handle uses it. -/
structure Track where
  state : TrackState
  busyRetries : ℕ
  lastStatus : NtStatus
  deriving DecidableEq

/-- `ShWfpObjectInit`. -/
def Track.init : Track := ⟨.unregistered, 0, statusSuccess⟩

/-- A round of `ShInjectionDestroyTracked` that calls WFP, and what it returns if it returns. -/
def Track.destroyRound (o : Track) (st : NtStatus) (attempt : ℕ) : Track × Option NtStatus :=
  if st = statusSuccess then (⟨.deleted, attempt, st⟩, some st)
  else if st ≠ statusDeviceBusy then (⟨.leaked, attempt, st⟩, some st)
  else if injectBusyRetries ≤ attempt then (⟨.leaked, attempt + 1, st⟩, some st)
  else ({ o with lastStatus := st }, none)

/-- An injection, by the contract of `injection.h`. Inside it reads the globals in any order;
`seen` are those that were not NULL when it read them last. -/
inductive Client where
  | acquire
  | acquireCas (c : Long)
  | inside (seen : Finset Resource)
  | rollback
  | report
  deriving DecidableEq

def Client.isInside : Client → Bool
  | .inside _ => true
  | .acquire | .acquireCas _ | .rollback | .report => false

/-- It goes on with the handle of its family and both pools once it has seen all three. -/
def Client.Uses (k : Client) (r : Resource) : Prop :=
  ∃ seen v6, k = .inside seen ∧ {.handle v6, .nblPool, .nbPool} ⊆ seen ∧
    (r = .handle v6 ∨ r = .nblPool ∨ r = .nbPool)

/-- What the next atomic of `ShInjectionBegin` or `ShInjectionEnd` leaves in the word. -/
def Client.count (c : Long) : Client → Long
  | .acquireCas e => if c = e then e + 1#32 else c
  | .inside _ => c - 1#32
  | .rollback => c + 1#32
  | .acquire | .report => c

def Client.next (c : Long) : Client → Option Client
  | .acquire => if rundownMayAcquire c then some (.acquireCas c) else none
  | .acquireCas e => some (if c = e then .inside ∅ else .acquire)
  | .inside _ => if rundownUnderflow c then some .rollback else none
  | .rollback => some .report
  | .report => none

/-- The statements of the failure paths of `SkInjectInit`. -/
inductive Undo where
  | release (r : Resource)
  | clear (r : Resource)
  deriving DecidableEq

/-- Where the thread of `DriverEntry`, later of the unload, stands. At `ready` the rest of
`SkLifecycleStart` is to come, at `active` the driver runs. -/
inductive Main where
  | init
  | create (v6 : Bool)
  | allocNblPool
  | allocNbPool
  | undo (us : List Undo)
  | failed
  | ready
  | resetCount
  | resetUnderflows
  | activate
  | active
  | quiesce
  | gateStop
  | drain (i : ℕ)
  | destroy (v6 : Bool) (attempt : ℕ)
  | clearHandle (v6 : Bool)
  | quiesced
  | notQuiesced
  | freePool (r : Resource)
  | clearPool (r : Resource)
  | destroyed
  deriving DecidableEq

/-- Ghosts: what exists in WFP and NDIS, whether something that does not exist was given back,
and how often the gate was stopped and a drain succeeded. -/
structure State where
  count : Long
  underflows : Long
  runtime : Runtime
  inited : Bool
  /-- The globals that are not NULL. -/
  global : Resource → Bool
  track : Bool → Track
  clients : Multiset Client
  main : Main
  live : Resource → Bool
  misused : Bool
  stops : ℕ
  drains : ℕ

/-- The statics after the first `ShRuntimeInit`. -/
def initial : State where
  count := 0#32
  underflows := 0#32
  runtime := .initial
  inited := false
  global _ := false
  track _ := .init
  clients := 0
  main := .init
  live _ := false
  misused := false
  stops := 0
  drains := 0

/-- What the calls of one step return; `ok` is whether the rest of the start goes well. -/
structure Replies where
  st : NtStatus
  alloc : Bool
  ok : Bool

namespace State

variable (s : State)

/-- A WFP or NDIS call has made the resource. -/
def made (r : Resource) : State :=
  { s with global := Function.update s.global r true, live := Function.update s.live r true }

def clear (r : Resource) : State := { s with global := Function.update s.global r false }

/-- A WFP or NDIS call takes the resource back, if it succeeds. -/
def giveBack (r : Resource) (ok : Bool) : State :=
  { s with
    live := if ok then Function.update s.live r false else s.live
    misused := s.misused || !s.live r }

/-- The handle after this one. -/
def nextHandle (v6 : Bool) : Main := if v6 then .quiesced else .destroy true 0

/-- After `ShInjectionDestroyTracked` has returned. -/
def afterDestroy (v6 : Bool) (st : NtStatus) : State :=
  if (s.track v6).state = .deleted then { s with main := .clearHandle v6 }
  else if st ≠ statusSuccess then
    { s with runtime := s.runtime.recordBlock .injectionDrain, main := .notQuiesced }
  else { s with main := nextHandle v6 }

/-- `SkInjectDestroy` frees one pool after the other. -/
def nextPool (r : Resource) : Main := if r = .nbPool then .freePool .nblPool else .destroyed

/-- A round of `ShInjectionDestroyTracked`. -/
def destroyTracked (v6 : Bool) (attempt : ℕ) (st : NtStatus) : State :=
  if attempt = 0 ∧ (s.global (.handle v6) = false ∨ (s.track v6).state = .deleted) then
    s.afterDestroy v6 statusSuccess
  else if attempt = 0 ∧ (s.track v6).state = .leaked then s.afterDestroy v6 statusDeviceBusy
  else
    let o := (s.track v6).destroyRound st attempt
    let s := { s.giveBack (.handle v6) (st == statusSuccess) with
      track := Function.update s.track v6 o.1 }
    match o.2 with
    | some st => s.afterDestroy v6 st
    | none => { s with main := .destroy v6 (attempt + 1) }

/-- The next step of the main thread. -/
def runMain (a : Replies) : State :=
  match s.main with
  | .init =>
    if s.inited then { s with main := .ready }
    else { s with inited := true, track := fun _ => .init, main := .create false }
  | .create v6 =>
    if ntSuccess a.st then
      { s.made (.handle v6) with main := if v6 then .allocNblPool else .create true }
    else { s.clear (.handle v6) with
      main := .undo (if v6 then [.release (.handle false), .clear (.handle false)] else []) }
  | .allocNblPool =>
    if a.alloc then { s.made .nblPool with main := .allocNbPool }
    else { s with main := .undo [.release (.handle true), .release (.handle false),
      .clear (.handle true), .clear (.handle false)] }
  | .allocNbPool =>
    if a.alloc then { s.made .nbPool with main := .ready }
    else { s with main := .undo [.release .nblPool, .clear .nblPool, .release (.handle true),
      .release (.handle false), .clear (.handle true), .clear (.handle false)] }
  -- The result of a destroy is not looked at here; a pool is always freed.
  | .undo (.release r :: us) =>
    { s.giveBack r (a.st == statusSuccess || r == .nblPool || r == .nbPool) with main := .undo us }
  | .undo (.clear r :: us) => { s.clear r with main := .undo us }
  | .undo [] => { s with inited := false, main := .failed }
  -- ShRuntimeActivate calls ShRuntimeInit; a rollback comes to SkInjectQuiesce at once.
  | .ready =>
    if a.ok then
      if s.runtime.state = .uninitialized then
        { s with runtime := s.runtime.clearBlocks, main := .resetCount }
      else { s with main := .activate }
    else { s with runtime := s.runtime.beginTeardown.1, main := .quiesce }
  | .resetCount => { s with count := 0#32, main := .resetUnderflows }
  | .resetUnderflows => { s with underflows := 0#32, main := .activate }
  | .activate => { s with runtime := s.runtime.activate, main := .active }
  | .active => { s with runtime := s.runtime.beginTeardown.1, main := .quiesce }
  | .quiesce => { s with main := if s.inited then .gateStop else .quiesced }
  | .gateStop =>
    { s with count := rundownBeginStop s.count, stops := s.stops + 1, main := .drain 0 }
  | .drain i =>
    if s.count = stopBit ∨ s.count = 0#32 then
      { s with drains := s.drains + 1, main := .destroy false 0 }
    else if injectDrainRetries ≤ i then
      { s with runtime := s.runtime.recordBlock .injectionDrain, main := .notQuiesced }
    else { s with main := .drain (i + 1) }
  | .destroy v6 attempt => s.destroyTracked v6 attempt a.st
  | .clearHandle v6 => { s.clear (.handle v6) with main := nextHandle v6 }
  -- Once more, or on to SkInjectDestroy.
  | .quiesced => { s with main := if a.ok then .freePool .nbPool else .quiesce }
  | .notQuiesced => { s with main := .quiesce }
  | .freePool r =>
    if s.global r then { s.giveBack r true with main := .clearPool r }
    else { s with main := nextPool r }
  | .clearPool r => { s.clear r with main := nextPool r }
  | .failed | .destroyed => s

/-- `k` takes its next step while the clients `cs` stand still. -/
def runClient (k : Client) (cs : Multiset Client) : State :=
  { s with
    count := k.count s.count
    underflows := if k = .report then s.underflows + 1#32 else s.underflows
    runtime := if k = .report then s.runtime.reportUnderflow else s.runtime
    clients := (k.next s.count).elim cs (· ::ₘ cs) }

/-- A client inside reads a global. -/
def read (seen : Finset Resource) (r : Resource) (cs : Multiset Client) : State :=
  { s with clients := .inside (if s.global r then insert r seen else seen.erase r) ::ₘ cs }

/-- The clients between their Begin and their End. -/
def inside : ℕ := s.clients.countP (·.isInside = true)

end State

inductive Action where
  | call
  | run (k : Client)
  | read (r : Resource)
  | main (a : Replies)

inductive Step : State → Action → State → Prop where
  | call {s : State} : Step s .call { s with clients := .acquire ::ₘ s.clients }
  | run {s : State} {k : Client} (cs : Multiset Client) (h : s.clients = k ::ₘ cs) :
      Step s (.run k) (s.runClient k cs)
  | read {s : State} {seen : Finset Resource} {r : Resource} (cs : Multiset Client)
      (h : s.clients = .inside seen ::ₘ cs) : Step s (.read r) (s.read seen r cs)
  | main {s : State} {a : Replies} : Step s (.main a) (s.runMain a)

def system : System State Action where
  init s := s = initial
  step := Step

/-- The count of the second `ShRuntimeInit` falls on no client's reference. -/
def ResetWhenIdle (s : State) : Action → Prop
  | .main _ => s.main = .resetCount → s.inside = 0
  | .call | .run _ | .read _ => True

end Sentinel.Injection
