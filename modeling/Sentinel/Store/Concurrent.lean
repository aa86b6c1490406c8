import Sentinel.Rules.Engine
import Sentinel.Runtime.State
import Sentinel.Rundown.Word
import Sentinel.Store.Operations

/-! The store shared by classify readers, one holder of `storeLock` at a time, and shutdown.
Every section under `g_PublishLock` or `g_RateLock`, every rundown atomic and every drain check
is one step. -/
namespace Sentinel.Concurrent

open Transition

/-- The address of a snapshot; the pool hands every one out once. -/
abbrev SnapId := ℕ

/-- `SK_RETIRE_DRAIN_RETRIES`. -/
def retireDrainRetries : ℕ := 50

/-- `SK_SHUTDOWN_DRAIN_RETRIES`. -/
def shutdownDrainRetries : ℕ := 1000

/-- What the holder of `storeLock` is about to do. -/
inductive Holder where
  | idle
  /-- `SkRetireDrain` before a publication: a round takes the drained snapshots off the list. -/
  | collect (req : Request) (id : SnapId) (round : ℕ)
  /-- The snapshots of a round still to free, and whether the round has left others. -/
  | reclaim (req : Request) (id : SnapId) (round : ℕ) (drained : List SnapId) (remaining : Bool)
  | publish (req : Request) (id : SnapId)
  /-- The store was not writable any more. -/
  | discard (id : SnapId)
  /-- The buckets to clear after a publication. -/
  | reset (ruleIds : List UInt64)
  /-- `SkRuleStoreShutdown`, from its writer section on. -/
  | detach
  | drainNext (stuck : List SnapId)
  | poll (id : SnapId) (i : ℕ) (stuck : List SnapId)
  | free (id : SnapId) (stuck : List SnapId)
  | requeue (stuck : List SnapId)

structure State where
  snap : SnapId → Snapshot
  /-- The rundown words `readers` of the snapshots. -/
  readers : SnapId → Long
  /-- The next address the pool hands out. -/
  next : SnapId
  freed : List SnapId
  current : Option SnapId
  rollbackSlot : Option SnapId
  retire : List SnapId
  inited : Bool
  closed : Bool
  runtime : RuntimeState
  holder : Holder
  /-- One entry for every reader between its Acquire and its Release. -/
  held : Multiset SnapId
  rates : RateTable
  /-- A ghost: every snapshot that has been current, newest first. -/
  published : List SnapId

/-- The rules that `SkRateResetRemoved` finds gone, in its order. -/
def removedIds (old new : List Rule) : List UInt64 :=
  (old.filter fun r => !new.any fun r' => r'.ruleId == r.ruleId).map Rule.ruleId

namespace State

/-- `SkStoreWritableNoLock`. -/
def writable (s : State) : Bool := s.inited && !s.closed && s.runtime == .active

/-- `ShRundownBeginStop` of some snapshots. -/
def beginStop (s : State) (ids : List SnapId) : SnapId → Long :=
  fun id => if id ∈ ids then rundownBeginStop (s.readers id) else s.readers id

/-- The section of `SkRuleStoreAcquire`; a reader that gets no reference sees NULL. -/
def acquire (s : State) : State :=
  match s.current with
  | none => s
  | some id =>
    if s.closed then s
    else if rundownMayAcquire (s.readers id) then
      { s with
        readers := Function.update s.readers id (s.readers id + 1#32)
        held := id ::ₘ s.held }
    else s

/-- The decrement of `SkRuleStoreRelease`. -/
def release (s : State) (id : SnapId) : State :=
  { s with
    readers := Function.update s.readers id (s.readers id - 1#32)
    held := s.held.erase id }

/-- A writer up to `SkRetireDrain`: it has copied the new rule set or has returned an error. -/
def begin (s : State) (req : Request) (arrayAlloc snapAlloc : Bool) : State :=
  if !ntSuccess req.writer.precheck then s
  else if !s.writable then s
  else match s.current with
  | none => s
  | some cur =>
    match req.writer.draft (s.snap cur) (s.rollbackSlot.map s.snap) with
    | .error _ => s
    | .ok d =>
      if !d.rules.isEmpty && !arrayAlloc then s
      else if !snapAlloc then s
      else { s with
        snap := Function.update s.snap s.next ⟨d.rules, 0, d.defaultPolicy⟩
        readers := Function.update s.readers s.next 0#32
        next := s.next + 1
        holder := .collect req s.next 0 }

/-- The section of a round of `SkRetireDrain`. -/
def collect (s : State) (req : Request) (id : SnapId) (round : ℕ) : State :=
  let drained := s.retire.filter fun i => rundownActiveCount (s.readers i) == -1#32
  let rest := s.retire.filter fun i => !(rundownActiveCount (s.readers i) == -1#32)
  { s with retire := rest, holder := .reclaim req id round drained (!rest.isEmpty) }

/-- What a publication retires: the old slot, and after a rollback the old current too. -/
def displaced (s : State) (req : Request) (old : SnapId) : List SnapId :=
  (if req.writer.consumesSlot then [old] else []) ++ s.rollbackSlot.toList

/-- The writer section of `SkPublish` and of `SkRuleStoreRollback`. -/
def publish (s : State) (req : Request) (id : SnapId) : State :=
  match s.current with
  | none => { s with holder := .discard id }
  | some old =>
    if !s.writable then { s with holder := .discard id }
    else { s with
      snap := Function.update s.snap id
        { s.snap id with version := (s.snap old).version + 1 }
      readers := s.beginStop (s.displaced req old)
      current := some id
      rollbackSlot := if req.writer.consumesSlot then none else some old
      retire := s.retire ++ s.displaced req old
      holder := .reset
        (removedIds (s.snap old).rules (s.snap id).rules ++ req.writer.resets.toList)
      published := id :: s.published }

/-- `SkRuleStoreShutdown` up to its writer section. -/
def shutdown (s : State) : State :=
  if !s.inited then s
  else if s.runtime = .unloadBlocked then s
  else { s with holder := .detach }

/-- The writer section of `SkRuleStoreShutdown`. -/
def detach (s : State) : State :=
  let ids := s.current.toList ++ s.rollbackSlot.toList
  { s with
    closed := true
    readers := s.beginStop ids
    current := none
    rollbackSlot := none
    retire := s.retire ++ ids
    holder := .drainNext [] }

/-- The head of the retire list, or the end of the loop. -/
def drainNext (s : State) (stuck : List SnapId) : State :=
  match s.retire with
  | id :: rest => { s with retire := rest, holder := .poll id 0 stuck }
  | [] =>
    if stuck = [] then { s with inited := false, holder := .idle }
    else { s with holder := .requeue stuck }

/-- A check of `ShRundownDrain`; the last one that fails blocks the unload. -/
def poll (s : State) (id : SnapId) (i : ℕ) (stuck : List SnapId) : State :=
  if s.readers id = stopBit then { s with holder := .free id stuck }
  else if shutdownDrainRetries ≤ i then
    { s with runtime := .unloadBlocked, holder := .drainNext (stuck ++ [id]) }
  else { s with holder := .poll id (i + 1) stuck }

/-- The next step of the holder. -/
def advance (s : State) : State :=
  match s.holder with
  | .idle => s
  | .collect req id round => s.collect req id round
  | .reclaim req id round (i :: is) remaining =>
    { s with freed := i :: s.freed, holder := .reclaim req id round is remaining }
  | .reclaim req id round [] remaining =>
    if remaining = false ∨ retireDrainRetries ≤ round then { s with holder := .publish req id }
    else { s with holder := .collect req id (round + 1) }
  | .publish req id => s.publish req id
  | .discard id => { s with freed := id :: s.freed, holder := .idle }
  | .reset [] => { s with holder := .idle }
  | .reset (ruleId :: ruleIds) =>
    { s with rates := ruleRateReset ruleId s.rates, holder := .reset ruleIds }
  | .detach => s.detach
  | .drainNext stuck => s.drainNext stuck
  | .poll id i stuck => s.poll id i stuck
  | .free id stuck => { s with freed := id :: s.freed, holder := .drainNext stuck }
  | .requeue stuck => { s with retire := s.retire ++ stuck, holder := .idle }

/-- After `SkRuleStoreInit`. -/
def start (runtime : RuntimeState) (rates : RateTable) : State where
  snap _ := ⟨[], 0, verdictPermit⟩
  readers _ := 0#32
  next := 1
  freed := []
  current := some 0
  rollbackSlot := none
  retire := []
  inited := true
  closed := false
  runtime := runtime
  holder := .idle
  held := 0
  rates := rates
  published := [0]

end State

inductive Action where
  | acquire
  | release (id : SnapId)
  | evaluate (id : SnapId) (tuple : ClassifyTuple) (now : UInt64)
  | call (req : Request) (arrayAlloc snapAlloc : Bool)
  | shutdown
  | advance
  /-- Anyone else changes the state of the runtime. -/
  | runtime (r : RuntimeState)

inductive Step : State → Action → State → Prop where
  | acquire {s : State} : Step s .acquire s.acquire
  | release {s : State} {id : SnapId} (h : id ∈ s.held) : Step s (.release id) (s.release id)
  | evaluate {s : State} {id : SnapId} {tuple : ClassifyTuple} {now : UInt64} {out : Verdict}
      {rates : RateTable} (h : id ∈ s.held)
      (hv : ruleVerdict (some (s.snap id)) tuple now s.rates = some (out, rates)) :
      Step s (.evaluate id tuple now) { s with rates := rates }
  | call {s : State} {req : Request} {a b : Bool} (h : s.holder = .idle) :
      Step s (.call req a b) (s.begin req a b)
  | shutdown {s : State} (h : s.holder = .idle) : Step s .shutdown s.shutdown
  | advance {s : State} : Step s .advance s.advance
  | runtime {s : State} {r : RuntimeState} : Step s (.runtime r) { s with runtime := r }

def system : System State Action where
  init s := ∃ runtime rates, s = State.start runtime rates
  step := Step

/-! ### The ways through a writer's two decisions -/

variable {s : State} {req : Request} {a b : Bool} {id : SnapId}

namespace State

/-- A writer either leaves the store alone or allocates what it has prepared. -/
theorem begin_cases (s : State) (req : Request) (a b : Bool) : s.begin req a b = s ∨
    ∃ cur d, ntSuccess req.writer.precheck = true ∧ s.writable = true ∧ s.current = some cur ∧
      req.writer.draft (s.snap cur) (s.rollbackSlot.map s.snap) = .ok d ∧
      s.begin req a b = { s with
        snap := Function.update s.snap s.next ⟨d.rules, 0, d.defaultPolicy⟩
        readers := Function.update s.readers s.next 0#32
        next := s.next + 1
        holder := .collect req s.next 0 } := by
  cases hp : ntSuccess req.writer.precheck with
  | false => exact .inl (by simp [begin, hp])
  | true =>
  cases hw : s.writable with
  | false => exact .inl (by simp [begin, hp, hw])
  | true =>
  cases hc : s.current with
  | none => exact .inl (by simp [begin, hp, hw, hc])
  | some cur =>
  cases hd : req.writer.draft (s.snap cur) (s.rollbackSlot.map s.snap) with
  | error st => exact .inl (by simp [begin, hp, hw, hc, hd])
  | ok d =>
  by_cases ha : (!d.rules.isEmpty && !a) = true
  · exact .inl (by simp only [begin, hp, hw, hc, hd, ha]; rfl)
  · cases b with
    | false => exact .inl (by simp only [begin, hp, hw, hc, hd]; split_ifs <;> simp_all)
    | true =>
      refine .inr ⟨cur, d, rfl, rfl, rfl, hd, ?_⟩
      simp [begin, hp, hw, hc, hd]
      intro h
      simp_all

/-- A publication either gives up or swaps the current snapshot. -/
theorem publish_cases (s : State) (req : Request) (id : SnapId) :
    s.publish req id = { s with holder := .discard id } ∨
    ∃ old, s.writable = true ∧ s.current = some old ∧ s.publish req id = { s with
      snap := Function.update s.snap id
        { s.snap id with version := (s.snap old).version + 1 }
      readers := s.beginStop (s.displaced req old)
      current := some id
      rollbackSlot := if req.writer.consumesSlot then none else some old
      retire := s.retire ++ s.displaced req old
      holder := .reset
        (removedIds (s.snap old).rules (s.snap id).rules ++ req.writer.resets.toList)
      published := id :: s.published } := by
  cases hc : s.current with
  | none => exact .inl (by simp [publish, hc])
  | some old =>
  cases hw : s.writable with
  | false => exact .inl (by simp [publish, hc, hw])
  | true => exact .inr ⟨old, rfl, rfl, by simp [publish, hc, hw]⟩

/-- A reader either gets nothing or one more reference to the current snapshot. -/
theorem acquire_cases (s : State) : s.acquire = s ∨
    ∃ id, s.current = some id ∧ s.closed = false ∧
      rundownMayAcquire (s.readers id) = true ∧ s.acquire = { s with
        readers := Function.update s.readers id (s.readers id + 1#32)
        held := id ::ₘ s.held } := by
  cases hc : s.current with
  | none => exact .inl (by simp [acquire, hc])
  | some id =>
  cases hcl : s.closed with
  | true => exact .inl (by simp [acquire, hc, hcl])
  | false =>
  cases hm : rundownMayAcquire (s.readers id) with
  | false => exact .inl (by simp [acquire, hc, hcl, hm])
  | true => exact .inr ⟨id, rfl, rfl, hm, by simp [acquire, hc, hcl, hm]⟩

theorem shutdown_cases (s : State) :
    s.shutdown = s ∨ s.shutdown = { s with holder := .detach } := by
  unfold shutdown
  split
  · exact .inl rfl
  · split
    · exact .inl rfl
    · exact .inr rfl

end State

end Sentinel.Concurrent
