import Mathlib.Data.Finset.Basic
import Sentinel.Runtime.Alone

/-! What the driver owns from `DriverEntry` to the end of its unload: `SkDeviceCreate` and
`SkDeviceDelete` in `driver/device.c`, and what the steps of `runtime/lifecycle.c` acquire and
release. -/
namespace Sentinel.Resources

open Transition
open Driver (StartStep Quiesce Replies)

/-- The WDF objects and the link of the control device, the snapshots of the rule store, the two
threads, the injection handles and their pools. -/
inductive Resource where
  | deviceInit
  | device
  | queue
  | link
  | snapshots
  | eventThread
  | consumer
  | injectHandles
  | injectPools
  deriving DecidableEq

/-- What is owned; whether `g_SkControlWdfDevice` and `g_SkControlWdfQueue` are set, and
`g_ControlReady`. Ghost: WDF has been given an object that is not there. -/
structure Ledger where
  owned : Finset Resource
  deviceSet : Bool
  queueSet : Bool
  ready : Bool
  misused : Bool
  deriving DecidableEq

namespace Ledger

def empty : Ledger := ⟨∅, false, false, false, false⟩

def acquire (l : Ledger) (r : Resource) : Ledger := { l with owned := insert r l.owned }

/-- A release behind a test of its own that there is something to release. -/
def release (l : Ledger) (r : Resource) : Ledger := { l with owned := l.owned.erase r }

/-- WDF is given the object. -/
def use (l : Ledger) (r : Resource) : Ledger :=
  { l with misused := l.misused || decide (r ∉ l.owned) }

/-- `SkDeviceDelete`: WDF deletes the queue and the link with the device. -/
def deviceDelete (l : Ledger) : Ledger :=
  if l.deviceSet then
    { (((l.use .device).release .queue).release .link).release .device with
      queueSet := false
      deviceSet := false }
  else l

/-- `SkControlDestroy`. -/
def controlDestroy (l : Ledger) : Ledger :=
  if l.ready then { l with ready := false }.deviceDelete else l

/-- What a start step that succeeds acquires. -/
def start (l : Ledger) : StartStep → Ledger
  | .rules => l.acquire .snapshots
  | .events => l.acquire .eventThread
  | .control => { l.acquire .consumer with ready := true }
  | .inject => (l.acquire .injectHandles).acquire .injectPools
  -- SkFlowInit allocates nothing; the subscription is the driver's.
  | .flow | .bfe => l

/-- The queue is purged once the consumer thread is gone. -/
def controlQuiesce (l : Ledger) (joined : Bool) : Ledger :=
  if joined then
    let l := l.release .consumer
    if l.queueSet then l.use .queue else l
  else l

/-- A step of a quiesce that runs. -/
def quiesce (l : Ledger) (q : Quiesce) (a : Replies) : Ledger :=
  match q with
  | .control => l.controlQuiesce a.joined
  | .events => if a.ok then l.release .eventThread else l
  | .inject => if a.ok then l.release .injectHandles else l
  | .writable | .unsubscribe | .beginStop | .drain _ | .wfp | .workItems | .running | .done => l

/-- The destroy part of `skLifecycleRollback`; `ok` is what `SkRuleStoreShutdown` returns. -/
def rollbackDestroy (l : Ledger) (steps : List StartStep) (ok : Bool) : Ledger :=
  let l := if .inject ∈ steps then l.release .injectPools else l
  if .rules ∈ steps ∧ !ok then l
  else
    let l := if .rules ∈ steps then l.release .snapshots else l
    let l := if .control ∈ steps then l.controlDestroy else l
    l.deviceDelete

/-- The parts of `SkLifecycleDestroy`. -/
def destroy (l : Ledger) : Destroy.Action → Ledger
  | .destroy .inject => l.release .injectPools
  | .shutdown true => l.release .snapshots
  | .destroy .control => l.controlDestroy
  | .destroy .device => l.deviceDelete
  | .destroy .flow | .destroy .rules | .destroy .steps | .shutdown false | .runtime _ | .check
  | .enterBlocked => l

end Ledger

/-- Where `DriverEntry` stands up to the end of `SkDeviceCreate`. -/
inductive Create where
  | driver
  | initAllocate
  | assignName
  | deviceCreate
  | queueCreate
  | symbolicLink
  | created (ok : Bool)
  deriving DecidableEq

/-- Ghost: no global has the injection handle any more that `SkInjectInit` could not destroy. -/
structure State where
  driver : Driver.State
  create : Create
  ledger : Ledger
  lost : Bool

def initial (service : Bfe.ServiceState) : State :=
  ⟨Driver.initial service, .driver, .empty, false⟩

namespace State

/-- The next call of WDF by `DriverEntry` or by `SkDeviceCreate`. -/
def runCreate (x : State) (ok : Bool) : State :=
  match x.create with
  | .driver => { x with create := if ok then .initAllocate else .created false }
  | .initAllocate =>
    if ok then { x with create := .assignName, ledger := x.ledger.acquire .deviceInit }
    else { x with create := .created false }
  | .assignName =>
    if ok then { x with create := .deviceCreate }
    else
      -- WdfDeviceInitFree
      { x with create := .created false, ledger := (x.ledger.use .deviceInit).release .deviceInit }
  | .deviceCreate =>
    if ok then
      -- From now on WDF owns the init structure.
      { x with
        create := .queueCreate
        ledger :=
          { (((x.ledger.use .deviceInit).release .deviceInit).acquire .device) with
            deviceSet := true } }
    else
      { x with create := .created false, ledger := (x.ledger.use .deviceInit).release .deviceInit }
  | .queueCreate =>
    if ok then
      { x with
        create := .symbolicLink
        ledger := { (x.ledger.use .device).acquire .queue with queueSet := true } }
    else { x with create := .created false, ledger := (x.ledger.use .device).deviceDelete }
  | .symbolicLink =>
    if ok then
      { x with create := .created true, ledger := (x.ledger.use .device).acquire .link }
    else { x with create := .created false, ledger := (x.ledger.use .device).deviceDelete }
  | .created _ => x

/-- The ledger after a step of the driver. -/
def effect (x : State) : Driver.Action → Ledger
  | .main a =>
    match x.driver.main with
    -- What a start step that fails has made so far it gives back itself, or it is lost.
    | .start s =>
      let l := if s = .control then x.ledger.use .queue else x.ledger
      if a.ok then l.start s else l
    | .quiesce rollback q _ =>
      if rollback ∧ ∃ s ∈ q.step, s ∉ x.driver.steps then x.ledger else x.ledger.quiesce q a
    | .rollbackDestroy => x.ledger.rollbackDestroy x.driver.steps a.ok
    | .init _ | .initCount _ | .create | .subscribe | .bfeState | .install | .installing _
    | .activate | .loaded | .rollback | .blockStart | .failed | .unload | .destroy _ => x.ledger
  | .destroy a => x.ledger.destroy a
  | .bfe _ | .callback _ _ | .report | .reportCheck | .reportEnter | .unload _ | .quiescentCheck
  | .quiescentEnter | .quiesced _ | .shutdownStuck | .destroyed => x.ledger

/-- A failing `SkInjectInit` clears its globals whether or not the handles could be destroyed. -/
def loses (x : State) (undone : Bool) : Driver.Action → Bool
  | .main a => x.driver.main = .start .inject && !a.ok && !undone
  | .bfe _ | .callback _ _ | .report | .reportCheck | .reportEnter | .unload _ | .quiescentCheck
  | .quiescentEnter | .quiesced _ | .destroy _ | .shutdownStuck | .destroyed => false

end State

/-- `undone` is what the destroys of injection handles in a failing `SkInjectInit` come to. -/
inductive Action where
  | create (ok : Bool)
  | driver (a : Driver.Action) (undone : Bool)

/-- `SkDeviceCreate` comes to its end before the driver goes on. -/
inductive Step : State → Action → State → Prop where
  | create {x : State} {ok : Bool} (h : x.driver.main = .create)
      (hc : ∀ b, x.create ≠ .created b) : Step x (.create ok) (x.runCreate ok)
  | driver {x : State} {a : Driver.Action} {s : Driver.State} {undone : Bool}
      (h : Driver.Step x.driver a s)
      (hc : ∀ r, a = .main r → x.driver.main = .create → x.create = .created r.ok) :
      Step x (.driver a undone) ⟨s, x.create, x.effect a, x.lost || x.loses undone a⟩

def system : System State Action where
  init x := ∃ service, x = initial service
  step := Step

variable {x y : State} {a : Action} {l : Ledger} {r : Resource} {q : Quiesce} {b ok lost : Bool}

theorem runCreate_driver (x : State) (ok : Bool) :
    (x.runCreate ok).driver = x.driver ∧ (x.runCreate ok).lost = x.lost := by
  unfold State.runCreate
  split
  all_goals first | exact ⟨rfl, rfl⟩ | (split <;> exact ⟨rfl, rfl⟩)

theorem driver_simulation : system.Simulation Driver.system State.driver where
  init := by
    rintro x ⟨service, rfl⟩
    exact ⟨service, rfl⟩
  step := by
    intro x a y _ _ h
    cases h with
    | create => exact System.exists_run_of_eq (runCreate_driver _ _).1
    | @driver a s undone hs => exact ⟨[a], .single hs⟩

/-! ### Ledgers -/

/-- The globals say what there is, and what is with the device is gone when the device is. -/
structure Ledger.Sound (l : Ledger) : Prop where
  used : l.misused = false
  device : l.deviceSet = true ↔ .device ∈ l.owned
  queue : l.queueSet = true ↔ .queue ∈ l.owned
  child : .queue ∈ l.owned ∨ .link ∈ l.owned → .device ∈ l.owned
  consumer : .consumer ∈ l.owned → .queue ∈ l.owned

/-- The threads are gone and nothing more is injected. -/
def Ledger.Quiet (l : Ledger) : Prop :=
  .consumer ∉ l.owned ∧ .eventThread ∉ l.owned ∧ .injectHandles ∉ l.owned

theorem sound_empty : Ledger.empty.Sound := ⟨rfl, by decide, by decide, by decide, by decide⟩

@[simp] theorem mem_acquire {r' : Resource} :
    r ∈ (l.acquire r').owned ↔ r = r' ∨ r ∈ l.owned := Finset.mem_insert

@[simp] theorem mem_release {r' : Resource} :
    r ∈ (l.release r').owned ↔ r ≠ r' ∧ r ∈ l.owned := Finset.mem_erase

@[simp] theorem use_owned : (l.use r).owned = l.owned := rfl

theorem use_of_mem (h : r ∈ l.owned) : l.use r = l := by
  simp [Ledger.use, h]

theorem sound_release (h : l.Sound) (hr : r ≠ .device) (hq : r ≠ .queue) :
    (l.release r).Sound where
  used := h.used
  device := by
    rw [mem_release]
    exact ⟨fun hd => ⟨hr.symm, h.device.mp hd⟩, fun hd => h.device.mpr hd.2⟩
  queue := by
    rw [mem_release]
    exact ⟨fun hs => ⟨hq.symm, h.queue.mp hs⟩, fun hs => h.queue.mpr hs.2⟩
  child hc := by
    simp only [mem_release] at hc ⊢
    exact ⟨hr.symm, h.child (hc.imp And.right And.right)⟩
  consumer hc := by
    rw [mem_release] at hc ⊢
    exact ⟨hq.symm, h.consumer hc.2⟩

/-- What is neither the device nor with it can be acquired at any time, the consumer once there is
a queue. -/
theorem sound_acquire (h : l.Sound) (hr : r ≠ .device) (hq : r ≠ .queue) (hl : r ≠ .link)
    (hc : r = .consumer → .queue ∈ l.owned) : (l.acquire r).Sound where
  used := h.used
  device := by
    rw [mem_acquire]
    exact ⟨fun hd => .inr (h.device.mp hd), fun hd => h.device.mpr (hd.resolve_left hr.symm)⟩
  queue := by
    rw [mem_acquire]
    exact ⟨fun hs => .inr (h.queue.mp hs), fun hs => h.queue.mpr (hs.resolve_left hq.symm)⟩
  child hch := by
    simp only [mem_acquire] at hch ⊢
    refine .inr (h.child ?_)
    exact hch.imp (fun hs => hs.resolve_left hq.symm) fun hs => hs.resolve_left hl.symm
  consumer hs := by
    rw [mem_acquire] at hs ⊢
    rcases hs with rfl | hs
    · exact .inr (hc rfl)
    · exact .inr (h.consumer hs)

theorem mem_deviceDelete (h : l.Sound) (hr : r ∈ l.deviceDelete.owned) :
    r ∈ l.owned ∧ r ≠ .device ∧ r ≠ .queue ∧ r ≠ .link := by
  unfold Ledger.deviceDelete at hr
  split at hr
  · simp only [mem_release, use_owned] at hr
    obtain ⟨hd, hl, hq, hr⟩ := hr
    exact ⟨hr, hd, hq, hl⟩
  · rename_i hset
    have hnone : .device ∉ l.owned := fun hd => hset (h.device.mpr hd)
    refine ⟨hr, ?_, ?_, ?_⟩
    · rintro rfl
      exact hnone hr
    · rintro rfl
      exact hnone (h.child (.inl hr))
    · rintro rfl
      exact hnone (h.child (.inr hr))

/-- The device is deleted once, and only when no consumer thread is left. -/
theorem sound_deviceDelete (h : l.Sound) (hc : .consumer ∉ l.owned) : l.deviceDelete.Sound := by
  unfold Ledger.deviceDelete
  split
  · rename_i hset
    rw [use_of_mem (h.device.mp hset)]
    refine ⟨h.used, ?_, ?_, ?_, ?_⟩
    · simp
    · simp
    · simp
    · simp [hc]
  · exact h

theorem sound_controlDestroy (h : l.Sound) (hc : .consumer ∉ l.owned) :
    l.controlDestroy.Sound := by
  unfold Ledger.controlDestroy
  split
  · exact sound_deviceDelete (l := { l with ready := false })
      ⟨h.used, h.device, h.queue, h.child, h.consumer⟩ hc
  · exact h

theorem mem_controlDestroy (h : l.Sound) (hr : r ∈ l.controlDestroy.owned) : r ∈ l.owned := by
  unfold Ledger.controlDestroy at hr
  split at hr
  · exact (mem_deviceDelete (l := { l with ready := false })
      ⟨h.used, h.device, h.queue, h.child, h.consumer⟩ hr).1
  · exact hr

/-! ### The runtime behind the unload -/

/-- The calls of the runtime lead through its states in this order. -/
def stage : RuntimeState → ℕ
  | .uninitialized => 0
  | .active => 1
  | .teardown => 2
  | .quiescent => 3
  | .unloadBlocked => 4

theorem stage_call (rt : Runtime) (c : RuntimeCall) : stage rt.state ≤ stage (rt.call c).state := by
  cases c with
  | init =>
    simp only [Runtime.call, Runtime.init]
    split <;> exact le_rfl
  | activate =>
    simp only [Runtime.call, Runtime.activate]
    split
    · rename_i hu
      rw [hu]
      exact Nat.zero_le _
    · exact le_rfl
  | beginTeardown =>
    simp only [Runtime.call, Runtime.beginTeardown]
    split
    · exact le_rfl
    split
    · exact le_rfl
    · rename_i ha
      rw [not_not.mp ha]
      exact Nat.le_succ 1
  | recordBlock => exact le_rfl
  | enterQuiescent =>
    simp only [Runtime.call, Runtime.enterQuiescent]
    split
    · rename_i ht
      rw [ht]
      exact Nat.le_succ 2
    · exact le_rfl
  | enterUnloadBlocked =>
    change _ ≤ 4
    cases rt.state <;> decide
  | reportUnderflow =>
    simp only [Runtime.call, Runtime.reportUnderflow]
    split
    · change _ ≤ 4
      cases rt.state <;> decide
    · exact le_rfl

theorem stage_leads {rt rt' : Runtime} (h : rt.Leads rt') : stage rt.state ≤ stage rt'.state := by
  obtain ⟨cs, -, hr⟩ := h
  refine hr.preserves (I := fun rt' => stage rt.state ≤ stage rt'.state) ?_ le_rfl
  rintro u c _ rfl hle
  exact hle.trans (stage_call u c)

theorem stage_activate (rt : Runtime) : 1 ≤ stage rt.activate.state := by
  unfold Runtime.activate
  split
  · exact le_rfl
  · rename_i hne
    cases hs : rt.state with
    | uninitialized => exact absurd hs hne
    | active => exact le_rfl
    | teardown | quiescent | unloadBlocked => simp [stage]

theorem stage_beginTeardown {rt : Runtime} (h : 1 ≤ stage rt.state) :
    2 ≤ stage rt.beginTeardown.1.state := by
  unfold Runtime.beginTeardown
  split
  · rename_i ht
    rw [ht]
    exact le_rfl
  split
  · rename_i ht ha
    cases hs : rt.state with
    | uninitialized =>
      rw [hs] at h
      exact absurd h (by decide)
    | active => exact absurd hs ha
    | teardown => exact absurd hs ht
    | quiescent | unloadBlocked => simp [stage]
  · exact le_rfl

theorem stage_enterQuiescent {rt : Runtime} (h : 2 ≤ stage rt.state) :
    3 ≤ stage rt.enterQuiescent.state := by
  unfold Runtime.enterQuiescent
  split
  · exact le_rfl
  · rename_i hne
    cases hs : rt.state with
    | uninitialized | active =>
      rw [hs] at h
      exact absurd h (by decide)
    | teardown => exact absurd hs hne
    | quiescent | unloadBlocked => simp [stage]

theorem stage_unloadBlocked {rt : Runtime} (h : 3 ≤ stage rt.state)
    (hd : rt.destroyAllowed = false) : rt.state = .unloadBlocked := by
  cases hs : rt.state <;> simp_all [stage, Runtime.destroyAllowed]

/-- The unload has begun. -/
def isLate : Driver.Main → Bool
  | .quiesce false _ _ | .unload | .destroy _ => true
  | .init _ | .initCount _ | .create | .start _ | .subscribe | .bfeState | .install
  | .installing _ | .activate | .loaded | .rollback | .quiesce true _ _ | .rollbackDestroy
  | .blockStart | .failed => false

/-- The unload has come past its gate. -/
def HasEnded (s : Driver.State) : Prop :=
  s.main = .unload ∧ 5 < s.unload.pc.stage ∨ ∃ pc, s.main = .destroy pc

structure Phased (s : Driver.State) : Prop where
  loaded : s.main = .loaded → 1 ≤ stage s.runtime.state
  late : isLate s.main = true → 2 ≤ stage s.runtime.state
  ended : HasEnded s → 3 ≤ stage s.runtime.state

variable {s t : Driver.State} {c : Driver.Action}

/-- A step that does not bring the main thread further. -/
theorem Phased.of_stays (h : Phased s) (hr : s.runtime.Leads t.runtime)
    (hl : t.main = .loaded → s.main = .loaded) (ht : isLate t.main = true → isLate s.main = true)
    (he : HasEnded t → HasEnded s) : Phased t where
  loaded hm := (h.loaded (hl hm)).trans (stage_leads hr)
  late hm := (h.late (ht hm)).trans (stage_leads hr)
  ended hm := (h.ended (he hm)).trans (stage_leads hr)

theorem runMain_main {a : Replies} : ((s.runMain a).main = .loaded →
      s.main = .loaded ∨ s.main = .activate) ∧
    (isLate (s.runMain a).main = true → isLate s.main = true) ∧
    ((s.runMain a).main = .unload → s.main = .unload) ∧
    ∀ pc, (s.runMain a).main = .destroy pc → s.main = .destroy pc := by
  cases hm : s.main with
  | quiesce b q ok =>
    simp only [Driver.State.runMain, hm]
    by_cases hq : b = true ∧ q = .done
    · obtain ⟨rfl, rfl⟩ := hq
      cases ok <;> simp [Driver.State.runQuiesce, Quiesce.step, isLate]
    · obtain ⟨-, q', ok', hm', -⟩ :=
        Driver.runQuiesce_quiescedTo (r := a) hm fun hb he => hq ⟨hb, he⟩
      rw [hm']
      cases b <;> simp [isLate]
  | loaded | failed | unload | destroy pc =>
    simp only [Driver.State.runMain, hm]
    simp
  | _ =>
    simp only [Driver.State.runMain, hm]
    (repeat' split) <;> simp_all [isLate]

theorem phased_unload {x : Unload.Action} {u : Unload.State} (h : Phased s)
    (hm : s.main = if x = .begin then .loaded else .unload)
    (hx : (∀ c, x ≠ .runtime c) ∧ ∀ k ok, x ≠ .returned k ok)
    (hu : Unload.Step driverCallbacks s.unload x u) :
    Phased { s with unload := u, main := Driver.afterUnload x } := by
  have hle : stage s.runtime.state ≤ stage u.runtime.state :=
    stage_leads (Driver.leads_unload hu hx.1)
  have hlate : x ≠ .begin → 2 ≤ stage u.runtime.state := by
    intro hb
    rw [if_neg hb] at hm
    exact (h.late (by rw [hm]; rfl)).trans hle
  have hended : x ≠ .begin → 5 < s.unload.pc.stage → 3 ≤ stage u.runtime.state := by
    intro hb hpc
    rw [if_neg hb] at hm
    exact (h.ended (.inl ⟨hm, hpc⟩)).trans hle
  have hback : 5 < u.pc.stage → x ≠ .begin ∧ (5 < s.unload.pc.stage ∨ x = .enterQuiescent) := by
    intro hpc
    cases hu with
    | runtime => exact absurd rfl (hx.1 _)
    | returned => exact absurd rfl (hx.2 _ _)
    | begin => exact absurd hpc (by decide : ¬ 5 < 1)
    | @call k hk =>
      refine ⟨by simp, .inl ?_⟩
      rw [hk]
      exact hpc
    | @skip k hk hg =>
      refine ⟨by simp, ?_⟩
      cases k with
      | sensorQuiesce | sensorCleanup => cases hg
      | divertQuiesce => exact absurd hpc (by decide : ¬ 5 < 3)
      | divertCleanup => exact .inl (by rw [hk]; decide)
    | gate =>
      simp only at hpc
      split at hpc <;> exact absurd hpc (by decide)
    | blockReason =>
      simp only at hpc
      split at hpc <;> exact absurd hpc (by decide)
    | recordStuck | enterBlocked => exact absurd hpc (by decide : ¬ 5 < 4)
    | enterQuiescent => exact ⟨by simp, .inr rfl⟩
    | finalCheck hk => exact ⟨by simp, .inl (by rw [hk]; decide)⟩
  have hquiescent : x = .enterQuiescent → 3 ≤ stage u.runtime.state := by
    rintro rfl
    have h2 := h.late (by rw [hm]; rfl)
    cases hu with
    | enterQuiescent =>
      exact stage_enterQuiescent h2
  refine ⟨fun hl => ?_, fun _ => ?_, fun he => ?_⟩
  · cases x with
    | call k => cases k <;> cases hl
    | _ => cases hl
  · by_cases hb : x = .begin
    · subst hb
      have h1 := h.loaded hm
      cases hu with
      | begin =>
        exact stage_beginTeardown h1
    · exact hlate hb
  · rcases he with ⟨-, hpc⟩ | ⟨pc, hpc⟩
    · obtain ⟨hb, hpc | hq⟩ := hback hpc
      · exact hended hb hpc
      · exact hquiescent hq
    · have hcall : x = .call .sensorCleanup := by
        cases x with
        | call k =>
          cases k with
          | sensorCleanup => rfl
          | sensorQuiesce | divertQuiesce | divertCleanup => cases hpc
        | _ => cases hpc
      subst hcall
      refine hended (by simp) ?_
      cases hu with
      | call hk =>
        rw [hk]
        decide

theorem phased_step (hs : Driver.system.step s c t) (h : Phased s) : Phased t := by
  have hleads := Driver.leads_step hs
  have hother : (∀ r, c ≠ .main r) → c ≠ .quiescentEnter → s.runtime.Leads t.runtime := by
    intro hc hq
    rcases hleads with hl | ⟨-, ⟨r, hr⟩, -⟩ | ⟨he, -⟩
    · exact hl
    · exact absurd hr (hc r)
    · exact absurd he hq
  have hsame : s.runtime.Leads t.runtime → t.main = s.main → t.unload.pc = s.unload.pc →
      Phased t := by
    intro hl hm hp
    refine h.of_stays hl ?_ ?_ ?_
    · rw [hm]
      exact id
    · rw [hm]
      exact id
    · unfold HasEnded
      rw [hm, hp]
      exact id
  cases hs with
  | bfe => exact hsame (.refl _) rfl rfl
  | @callback k r cs =>
    have he := (@Driver.runCallback_elsewhere s k cs r).1
    exact hsame (hother (by simp) (by simp)) he.main (by rw [he.unload])
  | report => exact hsame (hother (by simp) (by simp)) rfl rfl
  | reportCheck => exact hsame (hother (by simp) (by simp)) rfl rfl
  | reportEnter => exact hsame (hother (by simp) (by simp)) rfl rfl
  | @main r =>
    obtain ⟨hl, hlate, hun, hd⟩ := @runMain_main s r
    have hpc : (s.runMain r).main = .unload → (s.runMain r).unload.pc = s.unload.pc := by
      intro hm
      have hsm := hun hm
      simp [Driver.State.runMain, hsm]
    rcases hleads with hrt | ⟨hm, -, hact⟩ | ⟨hq, -⟩
    · refine ⟨fun hm => ?_, fun hm => ?_, fun he => ?_⟩
      · rcases hl hm with hm | hm
        · exact (h.loaded hm).trans (stage_leads hrt)
        · have hact : (s.runMain r).runtime = s.runtime.activate := by
            simp [Driver.State.runMain, hm, Driver.State.write, Driver.State.runtime]
          rw [hact]
          exact stage_activate _
      · exact (h.late (hlate hm)).trans (stage_leads hrt)
      · refine (h.ended ?_).trans (stage_leads hrt)
        rcases he with ⟨hm, hp⟩ | ⟨pc, hm⟩
        · exact .inl ⟨hun hm, hpc hm ▸ hp⟩
        · exact .inr ⟨pc, hd pc hm⟩
    · have hmain : (s.runMain r).main = .loaded := by
        simp [Driver.State.runMain, hm]
      refine ⟨fun _ => ?_, fun hm' => ?_, fun he => ?_⟩
      · rw [hact]
        exact stage_activate _
      · rw [hmain] at hm'
        cases hm'
      · rcases he with ⟨hm', -⟩ | ⟨pc, hm'⟩
        · rw [hmain] at hm'
          cases hm'
        · rw [hmain] at hm'
          cases hm'
    · cases hq
  | unload hm hx _ hu => exact phased_unload h hm hx hu
  | quiescentCheck => exact hsame (.refl _) rfl rfl
  | quiescentEnter => exact ⟨by rintro ⟨⟩, fun _ => Nat.le_succ 2, fun _ => le_rfl⟩
  | quiesced hm hu =>
    have hl := hother (by simp) (by simp)
    refine ⟨by rintro ⟨⟩, fun _ => (h.late (by rw [hm]; rfl)).trans (stage_leads hl), fun he => ?_⟩
    cases hu with
    | returned =>
      rcases he with ⟨-, hp⟩ | ⟨pc, hp⟩
      · exact absurd hp (by decide : ¬ 5 < 2)
      · cases hp
  | @destroy pc a d hm ha hb hd =>
    have hl := hother (by simp) (by simp)
    have h3 := (h.ended (.inr ⟨pc, hm⟩)).trans (stage_leads hl)
    exact ⟨by rintro ⟨⟩, fun _ => (Nat.le_succ 2).trans h3, fun _ => h3⟩
  | shutdownStuck hm =>
    have h3 := (h.ended (.inr ⟨_, hm⟩)).trans (stage_leads (hother (by simp) (by simp)))
    exact ⟨fun hm' => absurd (hm.symm.trans hm') (by simp), fun _ => (Nat.le_succ 2).trans h3,
      fun _ => h3⟩
  | destroyed hm hu =>
    have h3 := (h.ended (.inr ⟨_, hm⟩)).trans (stage_leads (hother (by simp) (by simp)))
    exact ⟨by rintro ⟨⟩, fun _ => (Nat.le_succ 2).trans h3, fun _ => h3⟩

theorem phased_reachable (h : Driver.system.Reachable s) : Phased s := by
  refine h.invariant ?_ phased_step
  rintro s ⟨service, rfl⟩
  refine ⟨by rintro ⟨⟩, by rintro ⟨⟩, fun he => ?_⟩
  rcases he with ⟨hm, -⟩ | ⟨pc, hm⟩
  · cases hm
  · cases hm

/-! ### Owning and giving back -/

/-- The start step that acquires it. -/
def Resource.step : Resource → Option StartStep
  | .snapshots => some .rules
  | .eventThread => some .events
  | .consumer => some .control
  | .injectHandles | .injectPools => some .inject
  | .deviceInit | .device | .queue | .link => none

/-- The device is there with its queue, and nothing of a start step that has not been made. -/
structure Owning (l : Ledger) (steps : List StartStep) : Prop where
  sound : l.Sound
  deviceInit : .deviceInit ∉ l.owned
  queue : .queue ∈ l.owned
  started : ∀ r s, r.step = some s → r ∈ l.owned → s ∈ steps

variable {steps : List StartStep} {st : StartStep} {a : Replies}

theorem Owning.mono (h : Owning l steps) (st : StartStep) : Owning l (st :: steps) :=
  ⟨h.sound, h.deviceInit, h.queue, fun r s hs hr => List.mem_cons_of_mem st (h.started r s hs hr)⟩

theorem Owning.acquire (h : Owning l steps) (hr : r.step = some st) (hst : st ∈ steps) :
    Owning (l.acquire r) steps where
  sound := by
    refine sound_acquire h.sound ?_ ?_ ?_ fun _ => h.queue
    · rintro rfl
      cases hr
    · rintro rfl
      cases hr
    · rintro rfl
      cases hr
  deviceInit := by
    rw [mem_acquire]
    rintro (rfl | hi)
    · cases hr
    · exact h.deviceInit hi
  queue := mem_acquire.mpr (.inr h.queue)
  started r' s hs hr' := by
    rw [mem_acquire] at hr'
    rcases hr' with rfl | hr'
    · obtain rfl := Option.some.inj (hr.symm.trans hs)
      exact hst
    · exact h.started r' s hs hr'

theorem Owning.release (h : Owning l steps) (hr : r.step = some st) :
    Owning (l.release r) steps where
  sound := by
    refine sound_release h.sound ?_ ?_
    · rintro rfl
      cases hr
    · rintro rfl
      cases hr
  deviceInit hi := h.deviceInit (mem_release.mp hi).2
  queue := by
    refine mem_release.mpr ⟨?_, h.queue⟩
    rintro rfl
    cases hr
  started r' s hs hr' := h.started r' s hs (mem_release.mp hr').2

theorem owning_start (h : Owning l steps) (st : StartStep) : Owning (l.start st) (st :: steps) := by
  have hmono := h.mono st
  cases st with
  | rules | events => exact hmono.acquire rfl (List.mem_cons_self ..)
  | control =>
    have hc : Owning (l.acquire .consumer) _ := hmono.acquire rfl (List.mem_cons_self ..)
    exact ⟨⟨hc.sound.used, hc.sound.device, hc.sound.queue, hc.sound.child, hc.sound.consumer⟩,
      hc.deviceInit, hc.queue, hc.started⟩
  | inject =>
    have hi : Owning (l.acquire .injectHandles) _ := hmono.acquire rfl (List.mem_cons_self ..)
    exact hi.acquire rfl (List.mem_cons_self ..)
  | flow | bfe => exact hmono

/-- What a step of a quiesce ends. -/
def stops : Quiesce → Option Resource
  | .control => some .consumer
  | .events => some .eventThread
  | .inject => some .injectHandles
  | .writable | .unsubscribe | .beginStop | .drain _ | .wfp | .workItems | .running | .done => none

/-- What has been ended when all steps of a quiesce so far have passed. -/
def stopped (rollback : Bool) : Quiesce → List Resource
  | .control => if rollback then [.injectHandles] else []
  | .writable | .events => if rollback then [.injectHandles, .consumer] else [.consumer]
  | .inject => if rollback then [] else [.consumer, .eventThread]
  | .unsubscribe | .beginStop | .drain _ | .wfp =>
    if rollback then [] else [.consumer, .eventThread, .injectHandles]
  | .workItems | .running | .done => [.consumer, .eventThread, .injectHandles]

/-- The reply with which the step ends what it is to end. -/
def passes (a : Replies) : Quiesce → Bool
  | .control => a.joined
  | .events | .inject => a.ok
  | .writable | .unsubscribe | .beginStop | .drain _ | .wfp | .workItems | .running | .done => true

theorem next_stopped (h : r ∈ stopped b (q.next b)) : r ∈ stopped b q ∨ stops q = some r := by
  cases q <;> cases b <;> cases r <;> simp_all [Quiesce.next, stopped, stops]

theorem quiet_of_stopped (h : ∀ r ∈ stopped b .done, r ∉ l.owned) : l.Quiet :=
  ⟨h _ (by simp [stopped]), h _ (by simp [stopped]), h _ (by simp [stopped])⟩

theorem owning_quiesce (h : Owning l steps) (q : Quiesce) (a : Replies) :
    Owning (l.quiesce q a) steps ∧ (∀ r ∈ (l.quiesce q a).owned, r ∈ l.owned) ∧
      ∀ r, stops q = some r → passes a q = true → r ∉ (l.quiesce q a).owned := by
  cases q with
  | control =>
    simp only [Ledger.quiesce, Ledger.controlQuiesce]
    cases hj : a.joined with
    | false => exact ⟨h, fun _ hr => hr, fun r _ hp => by simp [passes, hj] at hp⟩
    | true =>
      have hrel : Owning (l.release .consumer) steps := h.release rfl
      have huse : (l.release .consumer).use .queue = l.release .consumer :=
        use_of_mem hrel.queue
      simp only [huse, ite_self, if_true]
      refine ⟨hrel, fun r hr => (mem_release.mp hr).2, ?_⟩
      rintro r hs -
      cases hs
      simp
  | events =>
    simp only [Ledger.quiesce]
    cases ho : a.ok with
    | false => exact ⟨h, fun _ hr => hr, fun r _ hp => by simp [passes, ho] at hp⟩
    | true =>
      refine ⟨h.release rfl, fun r hr => (mem_release.mp hr).2, ?_⟩
      rintro r hs -
      cases hs
      simp
  | inject =>
    simp only [Ledger.quiesce]
    cases ho : a.ok with
    | false => exact ⟨h, fun _ hr => hr, fun r _ hp => by simp [passes, ho] at hp⟩
    | true =>
      refine ⟨h.release rfl, fun r hr => (mem_release.mp hr).2, ?_⟩
      rintro r hs -
      cases hs
      simp
  | writable | unsubscribe | beginStop | drain | wfp | workItems | running | done =>
    exact ⟨h, fun _ hr => hr, by simp [stops]⟩

/-- Once everything is quiet and the rest has been given back, the device is all there is. -/
theorem deviceDelete_empty (h : l.Sound) (hq : l.Quiet) (hi : .deviceInit ∉ l.owned)
    (hp : .injectPools ∉ l.owned) (hs : .snapshots ∉ l.owned) : l.deviceDelete.owned = ∅ := by
  apply Finset.eq_empty_of_forall_notMem
  intro r hr
  obtain ⟨hr, hd, hqu, hl⟩ := mem_deviceDelete h hr
  cases r with
  | deviceInit => exact hi hr
  | device => exact hd rfl
  | queue => exact hqu rfl
  | link => exact hl rfl
  | snapshots => exact hs hr
  | eventThread => exact hq.2.1 hr
  | consumer => exact hq.1 hr
  | injectHandles => exact hq.2.2 hr
  | injectPools => exact hp hr

theorem quiet_release (h : l.Quiet) (r : Resource) : (l.release r).Quiet :=
  ⟨fun hr => h.1 (mem_release.mp hr).2, fun hr => h.2.1 (mem_release.mp hr).2,
    fun hr => h.2.2 (mem_release.mp hr).2⟩

theorem quiet_controlDestroy (h : l.Sound) (hq : l.Quiet) : l.controlDestroy.Quiet :=
  ⟨fun hr => hq.1 (mem_controlDestroy h hr), fun hr => hq.2.1 (mem_controlDestroy h hr),
    fun hr => hq.2.2 (mem_controlDestroy h hr)⟩

/-- The destroy part of a rollback deletes the device once; it stops where the rule store does not
drain, else nothing is left. -/
theorem rollbackDestroy_spec (h : Owning l steps) (hq : l.Quiet) (ok : Bool) :
    (l.rollbackDestroy steps ok).Sound ∧
      (¬ (.rules ∈ steps ∧ !ok) → (l.rollbackDestroy steps ok).owned = ∅) := by
  unfold Ledger.rollbackDestroy
  have hpools : ∃ l₁ : Ledger, (if .inject ∈ steps then l.release .injectPools else l) = l₁ ∧
      Owning l₁ steps ∧ l₁.Quiet ∧ .injectPools ∉ l₁.owned := by
    by_cases hi : .inject ∈ steps
    · refine ⟨_, if_pos hi, h.release rfl, quiet_release hq _, ?_⟩
      simp
    · exact ⟨_, if_neg hi, h, hq, fun hp => hi (h.started _ _ rfl hp)⟩
  obtain ⟨l₁, he, h₁, hq₁, hp₁⟩ := hpools
  rw [he]
  dsimp only
  split
  · rename_i hstop
    exact ⟨h₁.sound, fun hn => absurd hstop hn⟩
  · have hrules : ∃ l₂ : Ledger, (if .rules ∈ steps then l₁.release .snapshots else l₁) = l₂ ∧
        Owning l₂ steps ∧ l₂.Quiet ∧ .injectPools ∉ l₂.owned ∧ .snapshots ∉ l₂.owned := by
      by_cases hr : .rules ∈ steps
      · refine ⟨_, if_pos hr, h₁.release rfl, quiet_release hq₁ _, ?_, ?_⟩
        · simp [hp₁]
        · simp
      · exact ⟨_, if_neg hr, h₁, hq₁, hp₁, fun hs => hr (h₁.started _ _ rfl hs)⟩
    obtain ⟨l₂, he₂, h₂, hq₂, hp₂, hs₂⟩ := hrules
    rw [he₂]
    have hcontrol : ∃ l₃ : Ledger, (if .control ∈ steps then l₂.controlDestroy else l₂) = l₃ ∧
        l₃.Sound ∧ ∀ r ∈ l₃.owned, r ∈ l₂.owned := by
      by_cases hc : .control ∈ steps
      · exact ⟨_, if_pos hc, sound_controlDestroy h₂.sound hq₂.1,
          fun r hr => mem_controlDestroy h₂.sound hr⟩
      · exact ⟨_, if_neg hc, h₂.sound, fun r hr => hr⟩
    obtain ⟨l₃, he₃, h₃, hle⟩ := hcontrol
    rw [he₃]
    have hq₃ : l₃.Quiet :=
      ⟨fun hr => hq₂.1 (hle _ hr), fun hr => hq₂.2.1 (hle _ hr), fun hr => hq₂.2.2 (hle _ hr)⟩
    refine ⟨sound_deviceDelete h₃ hq₃.1, fun _ => deviceDelete_empty h₃ hq₃ ?_ ?_ ?_⟩
    · exact fun hr => h₂.deviceInit (hle _ hr)
    · exact fun hr => hp₂ (hle _ hr)
    · exact fun hr => hs₂ (hle _ hr)

theorem check_stopped {passed : Bool} {rt : Runtime} {u : Driver.State} :
    (u.check b q ok passed rt).main = .quiesce b (q.next b) (passed && ok) ∧
      (u.check b q ok passed rt).steps = u.steps := by
  unfold Driver.State.check
  cases passed with
  | true => exact ⟨rfl, rfl⟩
  | false => exact ⟨rfl, rfl⟩

/-- A step of a quiesce stays where it is or goes on to the next one; `ok` stays TRUE only if it
has passed. -/
theorem runQuiesce_stopped (hm : s.main = .quiesce b q ok) (hq : b = true → q ≠ .done) :
    ∃ q' ok', (s.runQuiesce b q ok a).main = .quiesce b q' ok' ∧
      (s.runQuiesce b q ok a).steps = s.steps ∧
      (∀ r ∈ stopped b q', r ∈ stopped b q ∨ stops q = some r) ∧
      (ok' = true → ok = true ∧
        ((b = true ∧ ∃ x ∈ q.step, x ∉ s.steps) ∨ passes a q = true)) := by
  unfold Driver.State.runQuiesce
  split
  · rename_i hskip
    exact ⟨_, _, rfl, rfl, fun r hr => next_stopped hr, fun ho => ⟨ho, .inl hskip⟩⟩
  have hcheck : ∀ (passed : Bool) (rt : Runtime) (u : Driver.State), u.steps = s.steps →
      (passed = true → passes a q = true) →
      ∃ q' ok', (u.check b q ok passed rt).main = .quiesce b q' ok' ∧
        (u.check b q ok passed rt).steps = s.steps ∧
        (∀ r ∈ stopped b q', r ∈ stopped b q ∨ stops q = some r) ∧
        (ok' = true → ok = true ∧
          ((b = true ∧ ∃ x ∈ q.step, x ∉ s.steps) ∨ passes a q = true)) := by
    intro passed rt u hu hp
    obtain ⟨hmain, hsteps⟩ := @check_stopped q b ok passed rt u
    refine ⟨_, _, hmain, hsteps.trans hu, fun r hr => next_stopped hr, fun ho => ?_⟩
    rw [Bool.and_eq_true] at ho
    exact ⟨ho.2, .inr (hp ho.1)⟩
  cases q with
  | control =>
    refine hcheck _ _ s rfl fun hp => ?_
    rw [Bool.and_eq_true] at hp
    exact hp.1
  | writable | running | workItems => exact hcheck _ _ s rfl fun _ => rfl
  | events | inject => exact hcheck _ _ s rfl id
  | unsubscribe =>
    dsimp only
    split
    · split
      · exact ⟨_, _, rfl, rfl, fun r hr => .inl hr, fun ho => ⟨ho, .inr rfl⟩⟩
      · exact hcheck _ _ s rfl fun _ => rfl
    · exact ⟨_, _, rfl, rfl, fun r hr => .inl hr, fun ho => ⟨ho, .inr rfl⟩⟩
  | beginStop => exact ⟨_, _, rfl, rfl, fun r hr => .inl hr, fun ho => ⟨ho, .inr rfl⟩⟩
  | drain i =>
    dsimp only
    split
    · exact hcheck _ _ s rfl fun _ => rfl
    split
    · exact hcheck _ _ s rfl fun _ => rfl
    · exact ⟨_, _, rfl, rfl, fun r hr => .inl hr, fun ho => ⟨ho, .inr rfl⟩⟩
  | wfp => exact hcheck _ _ _ rfl fun _ => rfl
  | done =>
    cases b with
    | true => exact absurd rfl (hq rfl)
    | false => exact ⟨_, _, hm, rfl, fun r hr => .inl hr, fun ho => ⟨ho, .inr rfl⟩⟩

/-! ### The invariant -/

/-- The ledger while `SkDeviceCreate` runs. -/
def created : Create → Ledger
  | .driver | .initAllocate | .created false => .empty
  | .assignName | .deviceCreate => ⟨{.deviceInit}, false, false, false, false⟩
  | .queueCreate => ⟨{.device}, true, false, false, false⟩
  | .symbolicLink => ⟨{.queue, .device}, true, true, false, false⟩
  | .created true => ⟨{.link, .queue, .device}, true, true, false, false⟩

/-- While `ShRuntimeRunUnload` runs outside its callbacks. -/
def Unloading (s : Driver.State) (l : Ledger) : Prop :=
  match s.unload.pc with
  | .begin | .test .sensorQuiesce => Owning l s.steps
  | .test .divertQuiesce | .gate => Owning l s.steps ∧ (s.unload.sensorOk = true → l.Quiet)
  | .enterQuiescent | .test .sensorCleanup => Owning l s.steps ∧ l.Quiet
  | .test .divertCleanup | .finalCheck => s.runtime.state = .unloadBlocked ∨ l.owned = ∅
  | .returned => l.owned = ∅
  | .inside _ | .blockReason | .recordStuck | .enterBlocked | .parked => True

/-- While `SkLifecycleDestroy` runs. -/
def Destroying (s : Driver.State) (l : Ledger) : Destroy.Pc → Prop
  | .check | .destroy .inject => Owning l s.steps ∧ l.Quiet
  | .destroy .flow | .destroy .rules | .shutdown =>
    l.Quiet ∧ .deviceInit ∉ l.owned ∧ .injectPools ∉ l.owned
  | .destroy .control | .destroy .device =>
    l.Quiet ∧ .deviceInit ∉ l.owned ∧ .injectPools ∉ l.owned ∧ .snapshots ∉ l.owned
  | .destroy .steps => l.owned = ∅
  | .returned => s.runtime.state = .unloadBlocked ∨ l.owned = ∅
  | .enterBlocked => True

/-- What is owned where the main thread stands. -/
def Phase (x : State) : Prop :=
  match x.driver.main with
  | .init false | .initCount false => x.create = .driver ∧ x.ledger = .empty
  | .create => x.ledger = created x.create
  | .start _ | .subscribe | .bfeState | .install | .installing _ | .init true | .initCount true
  | .activate | .loaded | .rollback => Owning x.ledger x.driver.steps
  | .quiesce b q ok =>
    Owning x.ledger x.driver.steps ∧ (ok = true → ∀ r ∈ stopped b q, r ∉ x.ledger.owned)
  | .rollbackDestroy => Owning x.ledger x.driver.steps ∧ x.ledger.Quiet
  | .failed => x.driver.runtime.state = .unloadBlocked ∨ x.ledger.owned = ∅
  | .unload => Unloading x.driver x.ledger
  | .destroy pc => Destroying x.driver x.ledger pc
  | .blockStart => True

structure Invariant (x : State) : Prop where
  sound : x.ledger.Sound
  phase : Phase x

theorem invariant_initial (service : Bfe.ServiceState) : Invariant (initial service) :=
  ⟨sound_empty, rfl, rfl⟩

theorem sound_created (k : Create) : (created k).Sound := by
  cases k with
  | created ok =>
    cases ok with
    | true => exact ⟨rfl, by decide, by decide, by decide, by decide⟩
    | false => exact sound_empty
  | driver | initAllocate => exact sound_empty
  | assignName | deviceCreate | queueCreate | symbolicLink =>
    exact ⟨rfl, by decide, by decide, by decide, by decide⟩

/-- `SkDeviceCreate` cleans up after itself. -/
theorem runCreate_created (h : x.ledger = created x.create) (ok : Bool) :
    (x.runCreate ok).ledger = created (x.runCreate ok).create := by
  cases hc : x.create with
  | created b =>
    simp only [State.runCreate, hc]
    rw [h, hc]
  | driver | initAllocate | assignName | deviceCreate | queueCreate | symbolicLink =>
    rw [hc] at h
    cases ok with
    | true =>
      simp only [State.runCreate, hc, h, if_true]
      rfl
    | false =>
      simp only [State.runCreate, hc, h, Bool.false_eq_true, if_false]
      decide

/-- A step of another thread. -/
theorem phase_elsewhere (h : Phase x) (hm : s.main = x.driver.main)
    (hs : s.steps = x.driver.steps) (hp : s.unload.pc = x.driver.unload.pc)
    (ho : s.unload.sensorOk = x.driver.unload.sensorOk)
    (hb : x.driver.runtime.state = .unloadBlocked → s.runtime.state = .unloadBlocked) :
    Phase ⟨s, x.create, x.ledger, lost⟩ := by
  unfold Phase at h ⊢
  simp only [hm, hs]
  cases hx : x.driver.main with
  | unload =>
    simp only [hx] at h ⊢
    unfold Unloading at h ⊢
    rw [hp, hs, ho]
    cases hpc : x.driver.unload.pc with
    | test k =>
      rw [hpc] at h
      cases k with
      | divertCleanup => exact h.imp hb id
      | sensorQuiesce | divertQuiesce | sensorCleanup => exact h
    | finalCheck =>
      rw [hpc] at h
      exact h.imp hb id
    | begin | inside | gate | blockReason | recordStuck | enterBlocked | parked | enterQuiescent
    | returned =>
      rw [hpc] at h
      exact h
  | destroy pc =>
    simp only [hx] at h ⊢
    cases pc with
    | returned => exact h.imp hb id
    | check =>
      simp only [Destroying, hs] at h ⊢
      exact h
    | shutdown | enterBlocked => exact h
    | destroy p =>
      cases p with
      | inject =>
        simp only [Destroying, hs] at h ⊢
        exact h
      | flow | rules | control | device | steps => exact h
  | failed =>
    simp only [hx] at h ⊢
    exact h.imp hb id
  | init b | initCount b =>
    simp only [hx] at h ⊢
    cases b <;> exact h
  | create | start | subscribe | bfeState | install | installing | activate | loaded | rollback
  | quiesce | rollbackDestroy =>
    simp only [hx] at h ⊢
    exact h
  | blockStart => trivial

theorem install_steps (p : ℕ) (ir : InstallReplies) : (s.install p ir).steps = s.steps := by
  simp only [Driver.State.install]
  split
  · rfl
  · rfl

theorem owning_created : Owning (created (.created true)) [] where
  sound := sound_created _
  deviceInit := by decide
  queue := by decide
  started := by
    intro r st hs hr
    cases r with
    | deviceInit | device | queue | link => cases hs
    | snapshots | eventThread | consumer | injectHandles | injectPools =>
      exact absurd hr (by decide)

theorem invariant_quiesce (h : Owning x.ledger x.driver.steps)
    (hm : x.driver.main = .quiesce b q ok) (hd : b = true → q ≠ .done)
    (hstop : ok = true → ∀ r ∈ stopped b q, r ∉ x.ledger.owned) :
    Invariant ⟨x.driver.runMain a, x.create, x.effect (.main a), lost⟩ := by
  obtain ⟨q', ok', hmain, hsteps, hnext, hpass⟩ := runQuiesce_stopped (a := a) hm hd
  have hrun : x.driver.runMain a = x.driver.runQuiesce b q ok a := by
    simp only [Driver.State.runMain, hm]
  have heffect : x.effect (.main a) = if b = true ∧ ∃ y ∈ q.step, y ∉ x.driver.steps
      then x.ledger else x.ledger.quiesce q a := by
    simp only [State.effect, hm]
  rw [hrun, heffect]
  split
  · rename_i hskip
    obtain ⟨hb, y, hy, hn⟩ := hskip
    refine ⟨h.sound, ?_⟩
    simp only [Phase, hmain, hsteps]
    refine ⟨h, fun ho r hr => ?_⟩
    rcases hnext r hr with hr | hr
    · exact hstop (hpass ho).1 r hr
    · intro hro
      have hstep : r.step = some y := by
        cases q <;> cases hr <;> exact hy
      exact hn (h.started r y hstep hro)
  · rename_i hgo
    obtain ⟨hown, hle, hends⟩ := owning_quiesce h q a
    refine ⟨hown.sound, ?_⟩
    simp only [Phase, hmain, hsteps]
    refine ⟨hown, fun ho r hr => ?_⟩
    obtain ⟨hok, hskip | hp⟩ := hpass ho
    · exact absurd hskip hgo
    · rcases hnext r hr with hr | hr
      · exact fun hro => hstop hok r hr (hle r hro)
      · exact hends r hr hp

/-- The initialization owns nothing, and `SkDeviceCreate` begins with nothing. -/
theorem invariant_init (h : Invariant x)
    (hm : x.driver.main = .init b ∨ x.driver.main = .initCount b) :
    Invariant ⟨x.driver.runMain a, x.create, x.effect (.main a), lost⟩ := by
  obtain ⟨hsound, hphase⟩ := h
  unfold Phase at hphase
  have hbegun : x.create = .driver ∧ x.ledger = .empty → x.ledger = created x.create := by
    rintro ⟨hk, hl⟩
    rw [hl, hk]
    rfl
  rcases hm with hm | hm
  · rw [hm] at hphase
    simp only [State.effect, Driver.State.runMain, hm]
    cases b with
    | true => split <;> exact ⟨hsound, hphase⟩
    | false =>
      split
      · exact ⟨hsound, hphase⟩
      · exact ⟨hsound, hbegun hphase⟩
  · rw [hm] at hphase
    simp only [State.effect, Driver.State.runMain, hm]
    cases b with
    | true => exact ⟨hsound, hphase⟩
    | false => exact ⟨hsound, hbegun hphase⟩

/-- What `SkDeviceCreate` leaves is owned by the start, or is nothing. -/
theorem invariant_created (h : Invariant x) (hm : x.driver.main = .create)
    (hc : x.create = .created a.ok) :
    Invariant ⟨x.driver.runMain a, x.create, x.effect (.main a), lost⟩ := by
  obtain ⟨hsound, hphase⟩ := h
  have hcreated : x.ledger = created (.created a.ok) := by
    unfold Phase at hphase
    rw [hm] at hphase
    rw [← hc]
    exact hphase
  simp only [State.effect, Driver.State.runMain, hm]
  cases ho : a.ok with
  | true =>
    rw [ho] at hcreated
    exact ⟨hsound, show Owning x.ledger [] from hcreated ▸ owning_created⟩
  | false =>
    rw [ho] at hcreated
    exact ⟨hsound, .inr (by rw [hcreated]; rfl)⟩

theorem invariant_start {st : StartStep} (hown : Owning x.ledger x.driver.steps)
    (hm : x.driver.main = .start st) :
    Invariant ⟨x.driver.runMain a, x.create, x.effect (.main a), lost⟩ := by
  have heffect : x.effect (.main a) = if a.ok then x.ledger.start st else x.ledger := by
    simp only [State.effect, hm, use_of_mem hown.queue, ite_self]
  rw [heffect]
  simp only [Driver.State.runMain, hm]
  cases a.ok with
  | true =>
    have hnew := owning_start hown st
    cases st <;> exact ⟨hnew.sound, hnew⟩
  | false => exact ⟨hown.sound, hown⟩

theorem invariant_subscribe (hown : Owning x.ledger x.driver.steps)
    (hm : x.driver.main = .subscribe) :
    Invariant ⟨x.driver.runMain a, x.create, x.effect (.main a), lost⟩ := by
  simp only [State.effect, Driver.State.runMain, hm]
  split
  · exact ⟨hown.sound, hown.mono .bfe⟩
  · exact ⟨hown.sound, hown⟩

theorem invariant_installing {p : ℕ} (hown : Owning x.ledger x.driver.steps)
    (hm : x.driver.main = .installing p) :
    Invariant ⟨x.driver.runMain a, x.create, x.effect (.main a), lost⟩ := by
  have hown' : Owning x.ledger (x.driver.install p a.wfp).steps := by
    rw [install_steps]
    exact hown
  simp only [State.effect, Driver.State.runMain, hm]
  split
  · exact ⟨hown.sound, hown'⟩
  · exact ⟨hown.sound, hown'⟩

/-- The end of the quiesce of a rollback. -/
theorem invariant_done (hown : Owning x.ledger x.driver.steps)
    (hm : x.driver.main = .quiesce true .done ok)
    (hstop : ok = true → ∀ r ∈ stopped true .done, r ∉ x.ledger.owned) :
    Invariant ⟨x.driver.runMain a, x.create, x.effect (.main a), lost⟩ := by
  have heffect : x.effect (.main a) = x.ledger := by
    simp [State.effect, hm, Quiesce.step, Ledger.quiesce]
  have hrun : x.driver.runMain a =
      { x.driver with main := if ok then .rollbackDestroy else .blockStart } := by
    simp [Driver.State.runMain, hm, Driver.State.runQuiesce, Quiesce.step]
  rw [heffect, hrun]
  cases ok with
  | true => exact ⟨hown.sound, hown, quiet_of_stopped (hstop rfl)⟩
  | false => exact ⟨hown.sound, trivial⟩

theorem invariant_rollbackDestroy (hown : Owning x.ledger x.driver.steps) (hq : x.ledger.Quiet)
    (hm : x.driver.main = .rollbackDestroy) :
    Invariant ⟨x.driver.runMain a, x.create, x.effect (.main a), lost⟩ := by
  obtain ⟨hs, hempty⟩ := rollbackDestroy_spec hown hq a.ok
  have heffect : x.effect (.main a) = x.ledger.rollbackDestroy x.driver.steps a.ok := by
    simp only [State.effect, hm]
  rw [heffect]
  simp only [Driver.State.runMain, hm]
  split
  · exact ⟨hs, trivial⟩
  · rename_i hgo
    exact ⟨hs, .inr (hempty hgo)⟩

/-- A step of `DriverEntry`, of a rollback or of a quiesce. -/
theorem invariant_main (h : Invariant x)
    (hc : x.driver.main = .create → x.create = .created a.ok) :
    Invariant ⟨x.driver.runMain a, x.create, x.effect (.main a), lost⟩ := by
  have hphase := h.phase
  unfold Phase at hphase
  cases hm : x.driver.main with
  | init b => exact invariant_init h (.inl hm)
  | initCount b => exact invariant_init h (.inr hm)
  | create => exact invariant_created h hm (hc hm)
  | start st =>
    rw [hm] at hphase
    exact invariant_start hphase hm
  | subscribe =>
    rw [hm] at hphase
    exact invariant_subscribe hphase hm
  | installing p =>
    rw [hm] at hphase
    exact invariant_installing hphase hm
  | bfeState | install =>
    rw [hm] at hphase
    simp only [State.effect, Driver.State.runMain, hm]
    split <;> exact ⟨h.sound, hphase⟩
  | activate =>
    rw [hm] at hphase
    simp only [State.effect, Driver.State.runMain, hm]
    exact ⟨h.sound, hphase⟩
  | rollback =>
    rw [hm] at hphase
    simp only [State.effect, Driver.State.runMain, hm]
    exact ⟨h.sound, hphase, fun _ r hr => absurd hr (by simp [stopped])⟩
  | quiesce b q ok =>
    rw [hm] at hphase
    obtain ⟨hown, hstop⟩ := hphase
    by_cases hd : b = true ∧ q = .done
    · obtain ⟨rfl, rfl⟩ := hd
      exact invariant_done hown hm hstop
    · exact invariant_quiesce hown hm (fun hb hq => hd ⟨hb, hq⟩) hstop
  | rollbackDestroy =>
    rw [hm] at hphase
    exact invariant_rollbackDestroy hphase.1 hphase.2 hm
  | blockStart =>
    simp only [State.effect, Driver.State.runMain, hm]
    exact ⟨h.sound, .inl rfl⟩
  | loaded | failed | unload | destroy pc =>
    simp only [State.effect, Driver.State.runMain, hm]
    exact ⟨h.sound, h.phase⟩

theorem invariant_create (h : Invariant x) (hm : x.driver.main = .create) (ok : Bool) :
    Invariant (x.runCreate ok) := by
  have hphase : x.ledger = created x.create := by
    have := h.phase
    simp only [Phase, hm] at this
    exact this
  have hnew := runCreate_created hphase ok
  refine ⟨?_, ?_⟩
  · rw [hnew]
    exact sound_created _
  · simp only [Phase, (runCreate_driver x ok).1, hm]
    exact hnew

/-- A step of `ShRuntimeRunUnload` itself. -/
theorem phase_unload {x : State} {c : Unload.Action} {u : Unload.State} (h : Phase x)
    (hm : x.driver.main = if c = .begin then .loaded else .unload)
    (hc : (∀ rc, c ≠ .runtime rc) ∧ ∀ k ok, c ≠ .returned k ok)
    (hu : Unload.Step driverCallbacks x.driver.unload c u) :
    Phase ⟨{ x.driver with unload := u, main := Driver.afterUnload c }, x.create, x.ledger,
      lost⟩ := by
  unfold Phase at h
  have hunload : c ≠ .begin → Unloading x.driver x.ledger := by
    intro hb
    rw [if_neg hb] at hm
    rw [hm] at h
    exact h
  cases hu with
  | runtime => exact absurd rfl (hc.1 _)
  | returned => exact absurd rfl (hc.2 _ _)
  | begin =>
    rw [if_pos rfl] at hm
    rw [hm] at h
    exact h
  | @call k hpc hk =>
    have hin := hunload (by simp)
    unfold Unloading at hin
    rw [hpc] at hin
    cases k with
    | sensorQuiesce =>
      exact ⟨hin, fun _ r hr => absurd hr List.not_mem_nil⟩
    | sensorCleanup => exact hin
    | divertQuiesce | divertCleanup => cases hk
  | @skip k hpc hk =>
    have hin := hunload (by simp)
    unfold Unloading at hin
    rw [hpc] at hin
    cases k with
    | sensorQuiesce | sensorCleanup => cases hk
    | divertQuiesce | divertCleanup => exact hin
  | gate hpc =>
    have hin := hunload (by simp)
    unfold Unloading at hin
    rw [hpc] at hin
    change Unloading _ _
    simp only [Unloading]
    cases hb : x.driver.unload.blocked with
    | true => trivial
    | false =>
      have hok : x.driver.unload.sensorOk = true := by
        simp only [Unload.State.blocked, Bool.or_eq_false_iff, Bool.not_eq_false'] at hb
        exact hb.1.1
      exact ⟨hin.1, hin.2 hok⟩
  | blockReason =>
    change Unloading _ _
    by_cases hb : x.driver.unload.runtime.blockReason = .none
    · simp only [Unloading, if_pos hb]
    · simp only [Unloading, if_neg hb]
  | recordStuck | enterBlocked => trivial
  | enterQuiescent hpc =>
    have hin := hunload (by simp)
    unfold Unloading at hin
    rw [hpc] at hin
    exact hin
  | finalCheck hpc =>
    have hin := hunload (by simp)
    unfold Unloading at hin
    rw [hpc] at hin
    change Unloading _ _
    by_cases hb : x.driver.unload.runtime.state = .unloadBlocked
    · simp only [Unloading, if_pos hb]
    · simp only [Unloading, if_neg hb]
      exact hin.resolve_left hb

/-- A step of `SkLifecycleDestroy`. -/
theorem invariant_destroy {pc : Destroy.Pc} {c : Destroy.Action} {d : Destroy.State}
    (h : Invariant x) (hp : Phased x.driver) (hm : x.driver.main = .destroy pc)
    (hc : ∀ rc, c ≠ .runtime rc)
    (hb : c = .shutdown false → x.driver.runtime.state = .unloadBlocked)
    (hd : Destroy.Step ⟨x.driver.runtime, pc⟩ c d) :
    (x.ledger.destroy c).Sound ∧ Destroying
      { x.driver.write d.runtime with
        steps := if c = .destroy .steps then [] else x.driver.steps
        device := x.driver.device && c ≠ .destroy .steps
        main := .destroy d.pc } (x.ledger.destroy c) d.pc := by
  obtain ⟨hs, hphase⟩ := h
  unfold Phase at hphase
  rw [hm] at hphase
  have hin : Destroying x.driver x.ledger pc := hphase
  cases hd with
  | runtime => exact absurd rfl (hc _)
  | check hpc =>
    cases hpc
    cases ha : x.driver.runtime.destroyAllowed with
    | true => exact ⟨hs, hin⟩
    | false => exact ⟨hs, .inl (stage_unloadBlocked (hp.ended (.inr ⟨_, hm⟩)) ha)⟩
  | @destroy p hpc =>
    cases hpc
    cases p with
    | inject =>
      obtain ⟨hown, hq⟩ : Owning x.ledger x.driver.steps ∧ x.ledger.Quiet := hin
      have hrel : Owning (x.ledger.release .injectPools) x.driver.steps := hown.release rfl
      exact ⟨hrel.sound, quiet_release hq _, hrel.deviceInit, fun hr => (mem_release.mp hr).1 rfl⟩
    | flow | rules => exact ⟨hs, hin⟩
    | control =>
      obtain ⟨hq, hi, hpool, hsnap⟩ := hin
      exact ⟨sound_controlDestroy hs hq.1, quiet_controlDestroy hs hq,
        fun hr => hi (mem_controlDestroy hs hr), fun hr => hpool (mem_controlDestroy hs hr),
        fun hr => hsnap (mem_controlDestroy hs hr)⟩
    | device =>
      obtain ⟨hq, hi, hpool, hsnap⟩ := hin
      exact ⟨sound_deviceDelete hs hq.1, deviceDelete_empty hs hq hi hpool hsnap⟩
    | steps => exact ⟨hs, .inr hin⟩
  | @shutdown ok hpc =>
    cases hpc
    obtain ⟨hq, hi, hpool⟩ := hin
    cases ok with
    | true =>
      refine ⟨sound_release hs (by simp) (by simp), quiet_release hq _, ?_, ?_, ?_⟩
      · exact fun hr => hi (mem_release.mp hr).2
      · exact fun hr => hpool (mem_release.mp hr).2
      · exact fun hr => (mem_release.mp hr).1 rfl
    | false => exact ⟨hs, trivial⟩
  | enterBlocked => exact ⟨hs, .inl rfl⟩

theorem invariant_step {a : Action} (hs : Step x a y) (hp : Phased x.driver) (h : Invariant x) :
    Invariant y := by
  cases hs with
  | @create ok hm => exact invariant_create h hm ok
  | @driver c s undone hd hc =>
    have hblocked : c ≠ .quiescentEnter → x.driver.runtime.state = .unloadBlocked →
        s.runtime.state = .unloadBlocked := Driver.unloadBlocked_step hd
    cases hd with
    | bfe => exact ⟨h.sound, phase_elsewhere h.phase rfl rfl rfl rfl (hblocked (by simp))⟩
    | @callback k r cs =>
      have he := (@Driver.runCallback_elsewhere x.driver k cs r).1
      refine ⟨h.sound, phase_elsewhere h.phase he.main Driver.runCallback_steps.1 ?_ ?_
        (hblocked (by simp))⟩
      · rw [he.unload]
      · rw [he.unload]
    | report => exact ⟨h.sound, phase_elsewhere h.phase rfl rfl rfl rfl (hblocked (by simp))⟩
    | reportCheck => exact ⟨h.sound, phase_elsewhere h.phase rfl rfl rfl rfl (hblocked (by simp))⟩
    | reportEnter => exact ⟨h.sound, phase_elsewhere h.phase rfl rfl rfl rfl (hblocked (by simp))⟩
    | @main r => exact invariant_main h (hc r rfl)
    | unload hm hx _ hu => exact ⟨h.sound, phase_unload h.phase hm hx hu⟩
    | quiescentCheck =>
      exact ⟨h.sound, phase_elsewhere h.phase rfl rfl rfl rfl (hblocked (by simp))⟩
    | quiescentEnter hm hpc =>
      have hphase := h.phase
      unfold Phase at hphase
      rw [hm] at hphase
      have hin : Unloading x.driver x.ledger := hphase
      unfold Unloading at hin
      rw [hpc] at hin
      exact ⟨h.sound, hin⟩
    | @quiesced ok u hm hu =>
      have hphase := h.phase
      unfold Phase at hphase
      rw [hm] at hphase
      obtain ⟨hown, hstop⟩ : Owning x.ledger x.driver.steps ∧
        (ok = true → ∀ r ∈ stopped false .done, r ∉ x.ledger.owned) := hphase
      cases hu with
      | returned => exact ⟨h.sound, hown, fun ho => quiet_of_stopped (hstop ho)⟩
    | destroy hm hx hb hd =>
      obtain ⟨hsound, hphase⟩ := invariant_destroy h hp hm hx hb hd
      exact ⟨hsound, hphase⟩
    | shutdownStuck hm =>
      have hphase := h.phase
      unfold Phase at hphase
      rw [hm] at hphase
      refine ⟨h.sound, ?_⟩
      unfold Phase
      simp only [State.effect]
      exact hm ▸ hphase
    | destroyed hm hu =>
      have hphase := h.phase
      unfold Phase at hphase
      rw [hm] at hphase
      cases hu with
      | returned => exact ⟨h.sound, hphase⟩

theorem invariant_reachable (h : system.Reachable x) : Invariant x := by
  have hinv : system.Reachable x ∧ Invariant x := by
    refine h.invariant (I := fun x => system.Reachable x ∧ Invariant x) ?_ ?_
    · rintro x ⟨service, rfl⟩
      exact ⟨.of_init ⟨service, rfl⟩, invariant_initial service⟩
    · rintro x a y hs ⟨hx, hi⟩
      have hp : Phased x.driver := phased_reachable (driver_simulation.reachable hx)
      exact ⟨hx.step hs, invariant_step hs hp hi⟩
  exact hinv.2

/-- `DriverEntry` rolls back or has failed. -/
def isRolling : Driver.Main → Bool
  | .rollback | .quiesce true _ _ | .rollbackDestroy | .blockStart | .failed => true
  | .init _ | .initCount _ | .create | .start _ | .subscribe | .bfeState | .install
  | .installing _ | .activate | .loaded | .quiesce false _ _ | .unload | .destroy _ => false

theorem rolling_runMain {a : Replies} (h : isRolling s.main = true) :
    isRolling (s.runMain a).main = true := by
  cases hm : s.main with
  | quiesce b q ok =>
    rw [hm] at h
    cases b with
    | false => cases h
    | true =>
      by_cases hq : q = .done
      · subst hq
        cases ok <;> simp [Driver.State.runMain, hm, Driver.State.runQuiesce, Quiesce.step,
          isRolling]
      · obtain ⟨q', ok', hmain, -⟩ := runQuiesce_stopped (a := a) hm fun _ => hq
        simp only [Driver.State.runMain, hm, hmain]
        rfl
  | rollback | blockStart | failed =>
    simp only [Driver.State.runMain, hm]
    rfl
  | rollbackDestroy =>
    simp only [Driver.State.runMain, hm]
    split <;> rfl
  | init | initCount | create | start | subscribe | bfeState | install | installing | activate
  | loaded | unload | destroy =>
    rw [hm] at h
    cases h

theorem rolling_step (hs : Driver.system.step s c t) (h : isRolling s.main = true) :
    isRolling t.main = true := by
  have hnot : ∀ {m : Driver.Main}, s.main = m → isRolling m = false → False := by
    rintro m rfl hf
    exact absurd (h.symm.trans hf) (by simp)
  cases hs with
  | bfe | report | reportCheck | reportEnter | quiescentCheck => exact h
  | @callback k r cs =>
    rw [(@Driver.runCallback_elsewhere s k cs r).1.main]
    exact h
  | main => exact rolling_runMain h
  | unload hm =>
    refine (hnot hm ?_).elim
    split <;> rfl
  | quiescentEnter hm | quiesced hm | destroy hm | shutdownStuck hm | destroyed hm =>
    exact (hnot hm rfl).elim

theorem lost_reachable (h : system.Reachable x) :
    x.lost = true → isRolling x.driver.main = true := by
  refine h.invariant (I := fun x => x.lost = true → isRolling x.driver.main = true) ?_ ?_
  · rintro x ⟨service, rfl⟩ hl
    cases hl
  · rintro x a y hs hx hl
    cases hs with
    | @create ok =>
      rw [(runCreate_driver x ok).2] at hl
      rw [(runCreate_driver x ok).1]
      exact hx hl
    | @driver c s undone hd =>
      rcases Bool.or_eq_true_iff.mp hl with hold | hnew
      · exact rolling_step hd (hx hold)
      · cases hd with
        | @main r =>
          simp only [State.loses, Bool.and_eq_true, decide_eq_true_eq, Bool.not_eq_true'] at hnew
          obtain ⟨⟨hm, hok⟩, -⟩ := hnew
          simp only [Driver.State.runMain, hm, hok, Bool.false_eq_true, if_false]
          rfl
        | bfe | callback | report | reportCheck | reportEnter | unload | quiescentCheck
        | quiescentEnter | quiesced | destroy | shutdownStuck | destroyed => cases hnew

/-- On every way, a start that fails at any step, a rollback, an unload, WDF is given no object
that is gone, nothing is destroyed under a thread or an injection that still runs, and what is
over without UNLOAD_BLOCKED has left nothing behind. Only a failing `SkInjectInit` can lose a
handle. -/
theorem resources_released (h : system.Reachable x) :
    x.ledger.Sound ∧
      (x.driver.main = .rollbackDestroy ∨ x.driver.main = .destroy .shutdown ∨
        (∃ p, x.driver.main = .destroy (.destroy p)) → x.ledger.Quiet) ∧
      (x.driver.main = .failed → x.driver.runtime.state ≠ .unloadBlocked →
        x.ledger.owned = ∅) ∧
      (x.driver.main = .unload → x.driver.unload.pc = .returned →
        x.ledger.owned = ∅ ∧ x.lost = false) := by
  obtain ⟨hsound, hphase⟩ := invariant_reachable h
  refine ⟨hsound, ?_, ?_, ?_⟩
  · rintro (hm | hm | ⟨p, hm⟩)
    · simp only [Phase, hm] at hphase
      exact hphase.2
    · simp only [Phase, hm, Destroying] at hphase
      exact hphase.1
    · simp only [Phase, hm] at hphase
      cases p with
      | inject => exact hphase.2
      | flow | rules | control | device => exact hphase.1
      | steps =>
        have hempty : x.ledger.owned = ∅ := hphase
        simp [Ledger.Quiet, hempty]
  · intro hm hb
    simp only [Phase, hm] at hphase
    exact hphase.resolve_left hb
  · intro hm hpc
    simp only [Phase, hm, Unloading, hpc] at hphase
    refine ⟨hphase, ?_⟩
    cases hl : x.lost with
    | false => rfl
    | true =>
      have hroll := lost_reachable h hl
      rw [hm] at hroll
      cases hroll

/-- After a `DriverEntry` whose `WdfDeviceCreateSymbolicLink` has failed. -/
def linkFailed : State where
  driver := { Driver.initial .stopped with main := .failed }
  create := .created false
  ledger := .empty
  lost := false

theorem linkFailed_reachable : system.Reachable linkFailed := by
  refine ⟨initial .stopped, [.driver (.main Driver.repliesOk) true,
    .driver (.main Driver.repliesOk) true, .create true, .create true, .create true, .create true,
    .create true, .create false, .driver (.main { Driver.repliesOk with ok := false }) true],
    ⟨_, rfl⟩, ?_⟩
  refine .head (.driver (.main nofun) nofun) <| .head (.driver (.main nofun) nofun) <|
    .head (.create rfl nofun) <| .head (.create rfl nofun) <| .head (.create rfl nofun) <|
    .head (.create rfl nofun) <| .head (.create rfl nofun) <| .head (.create rfl nofun) <|
    .head (.driver (.main nofun) ?_) ?_
  · rintro r ⟨⟩ -
    rfl
  exact .refl

theorem resources_released_linkFailed : linkFailed.ledger.owned = ∅ :=
  (resources_released linkFailed_reachable).2.2.1 rfl (by decide)

end Sentinel.Resources
