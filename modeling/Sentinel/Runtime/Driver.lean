import Sentinel.Runtime.Bfe
import Sentinel.Runtime.Unload
import Sentinel.Wfp.Manager

/-! The driver from `DriverEntry` to `SkEvtDriverUnload`, with BFE, its callbacks and the
underflow reports of any thread. -/
namespace Sentinel.Driver

open Transition
open Bfe (ServiceState)

/-- The bits of `g_SkSteps` that something reads. -/
inductive StartStep where
  | rules
  | events
  | control
  | inject
  | flow
  | bfe
  deriving DecidableEq

/-- Where `SkBfeStateChangeCallback` stands: as in `Sentinel.Bfe`, but the Install is a call
of its own. The ghost of `installing` is the period of BFE in which it began. -/
inductive Callback where
  | bfe (k : Bfe.Callback)
  | install
  | installing (period : ℕ)
  deriving DecidableEq

/-- The steps of `SkLifecycleQuiesce`, most of which `skLifecycleRollback` shares. -/
inductive Quiesce where
  | control
  | writable
  | events
  | inject
  | unsubscribe
  | beginStop
  | drain (i : ℕ)
  | wfp
  | workItems
  | running
  | done
  deriving DecidableEq

/-- The two orders. The steps of `skBfeQuiesce` lead behind it. -/
def Quiesce.next (rollback : Bool) : Quiesce → Quiesce
  | .control => if rollback then .events else .writable
  | .writable => .events
  | .events => if rollback then .done else .inject
  | .inject => if rollback then .control else .unsubscribe
  | .unsubscribe | .beginStop | .drain _ => if rollback then .inject else .wfp
  | .wfp => if rollback then .unsubscribe else .workItems
  | .workItems => .running
  | .running | .done => .done

/-- The bit the rollback asks for. -/
def Quiesce.step : Quiesce → Option StartStep
  | .control => some .control
  | .events => some .events
  | .inject => some .inject
  | .unsubscribe => some .bfe
  | .writable | .beginStop | .drain _ | .wfp | .workItems | .running | .done => none

/-- Where the thread of `DriverEntry`, later of `SkEvtDriverUnload`, stands. At `loaded` the
first has returned and the second is to be called; at `unload` it is in the text of
`ShRuntimeRunUnload`. -/
inductive Main where
  | init (activating : Bool)
  | initCount (activating : Bool)
  | create
  | start (x : StartStep)
  | subscribe
  | bfeState
  | install
  | installing (period : ℕ)
  | activate
  | loaded
  | rollback
  | quiesce (rollback : Bool) (q : Quiesce) (ok : Bool)
  | rollbackDestroy
  | blockStart
  | failed
  | unload
  | destroy (pc : Destroy.Pc)
  deriving DecidableEq

/-- The runtime stands in `unload`, the one in `wfp` is not used. `reports` counts the
underflow reports between their RecordBlock and their test of the state, `entering` those that
have seen Teardown and are to call `ShRuntimeEnterUnloadBlocked`; `sawTeardown` says that
`ShRuntimeEnterQuiescent` has seen it. Ghosts: how often BFE has become RUNNING, the period in
which `SkLifecycleStart` has last asked for its state or begun its Install, and the periods in
which the Installs began that have succeeded and that have failed. -/
structure State where
  unload : Unload.State
  count : Long
  steps : List StartStep
  device : Bool
  handle : Bool
  subscribed : Bool
  service : ServiceState
  wfp : WfpManager
  callbacks : Multiset Callback
  reports : ℕ
  entering : ℕ
  main : Main
  sawTeardown : Bool
  period : ℕ
  seen : ℕ
  succeeded : List ℕ
  failed : List ℕ

def initial (service : ServiceState) : State where
  unload := ⟨.initial, true, true, .begin⟩
  count := 0#32
  steps := []
  device := false
  handle := false
  subscribed := false
  service := service
  wfp := .initial
  callbacks := 0
  reports := 0
  entering := 0
  main := .init false
  sawTeardown := false
  period := 0
  seen := 0
  succeeded := []
  failed := []

/-- What the calls of one step return. -/
structure Replies where
  ok : Bool
  joined : Bool
  storeOpen : Bool
  wfp : InstallReplies

namespace State

def runtime (s : State) : Runtime := s.unload.runtime

/-- The underflow reports at work. -/
def reporting (s : State) : ℕ := s.reports + s.entering

def write (s : State) (r : Runtime) : State :=
  { s with unload := { s.unload with runtime := r } }

/-- Nobody holds `installMutex`. -/
def Unlocked (s : State) : Prop :=
  (∀ p, .installing p ∉ s.callbacks) ∧ ∀ p, s.main ≠ .installing p

/-- The manager on the runtime of the driver. -/
def manager (s : State) : WfpManager := { s.wfp with runtime := s.runtime }

/-- `SkWfpManagerInstall` up to its first WFP call: what it returns at once. -/
def tryInstall (s : State) : Option Bool :=
  if s.wfp.installed then some true else if s.wfp.hasLeaked then some false else none

/-- The rest of an Install that began in the given period. -/
def install (s : State) (period : ℕ) (r : InstallReplies) : State :=
  let m := s.manager.install r
  let s := { s.write m.1.runtime with wfp := m.1 }
  if ntSuccess m.2 then { s with succeeded := period :: s.succeeded }
  else { s with failed := period :: s.failed }

/-- BFE changes its state and notifies. -/
def change (s : State) (service : ServiceState) : State :=
  { s with
    service := service
    callbacks := if s.subscribed then .bfe (.acquire service) ::ₘ s.callbacks
      else s.callbacks
    period := if service = .running then s.period + 1 else s.period }

/-- `k` takes its next step while the callbacks `cs` stand still. -/
def runCallback (s : State) (k : Callback) (cs : Multiset Callback) (r : InstallReplies) :
    State :=
  match k with
  | .bfe (.body service) =>
    if service = .running ∧ s.runtime.isActive ∧ s.device then
      { s with callbacks := .install ::ₘ cs }
    else { s with callbacks := .bfe .release ::ₘ cs }
  | .bfe .report =>
    { s.write (s.runtime.recordBlock .rundownUnderflow) with
      callbacks := cs
      reports := s.reports + 1 }
  | .bfe k =>
    { s with
      count := k.count s.count
      callbacks := (k.next s.count).elim cs (.bfe · ::ₘ cs) }
  | .install =>
    match s.tryInstall with
    | some true => { s with callbacks := .bfe .release ::ₘ cs }
    | some false =>
      { s with callbacks := .bfe .release ::ₘ cs, failed := s.period :: s.failed }
    | none => { s with callbacks := .installing s.period ::ₘ cs }
  | .installing period => { s.install period r with callbacks := .bfe .release ::ₘ cs }

/-- The end of a quiesce step that records `r` when it has not passed. -/
def check (s : State) (rollback : Bool) (q : Quiesce) (ok passed : Bool) (r : Runtime) :
    State :=
  if passed then { s with main := .quiesce rollback (q.next rollback) ok }
  else { s.write r with main := .quiesce rollback (q.next rollback) false }

/-- One step of `SkLifecycleQuiesce` or of the quiesce part of `skLifecycleRollback`. -/
def runQuiesce (s : State) (rollback : Bool) (q : Quiesce) (ok : Bool) (a : Replies) : State :=
  if rollback ∧ ∃ x ∈ q.step, x ∉ s.steps then
    { s with main := .quiesce rollback (q.next rollback) ok }
  else match q with
  | .control =>
    s.check rollback q ok (a.joined && a.ok)
      ((s.runtime.recordBlock
        (if a.joined then .handleContextsOpen else .workerThreadDrain)).recordIfNone
          .handleContextsOpen)
  | .writable =>
    s.check rollback q ok (!(a.storeOpen && s.runtime.isActive))
      (s.runtime.recordIfNone .rundownStuck)
  | .events | .running => s.check rollback q ok a.ok (s.runtime.recordIfNone .eventThreadDrain)
  | .inject =>
    s.check rollback q ok a.ok
      ((s.runtime.recordBlock .injectionDrain).recordIfNone .injectionDrain)
  | .unsubscribe =>
    if s.handle then
      if a.ok then
        { s with handle := false, subscribed := false, main := .quiesce rollback .beginStop ok }
      else s.check rollback q ok false (s.runtime.recordIfNone .bfeUnsubscribe)
    else { s with main := .quiesce rollback .beginStop ok }
  | .beginStop =>
    { s with count := rundownBeginStop s.count, main := .quiesce rollback (.drain 0) ok }
  | .drain i =>
    if s.count = stopBit then s.check rollback q ok true s.runtime
    else if Bfe.drainRetries ≤ i then
      s.check rollback q ok false (s.runtime.recordIfNone .bfeCallbackActive)
    else { s with main := .quiesce rollback (.drain (i + 1)) ok }
  | .wfp =>
    let m := s.manager.teardown a.wfp.toRemovals
    { s with wfp := m.1 }.check rollback q ok m.2 (m.1.runtime.recordIfNone .engineClose)
  | .workItems => s.check rollback q ok a.ok (s.runtime.recordIfNone .workItemDrain)
  | .done =>
    -- ShRuntimeRunUnload goes on by the step quiesced.
    if rollback then { s with main := if ok then .rollbackDestroy else .blockStart } else s

/-- The next step of `DriverEntry`, of a rollback or of a quiesce. -/
def runMain (s : State) (a : Replies) : State :=
  match s.main with
  | .init activating =>
    if s.runtime.state = .uninitialized then
      { s.write s.runtime.clearBlocks with main := .initCount activating }
    else { s with main := if activating then .activate else .create }
  | .initCount activating =>
    { s with count := 0#32, main := if activating then .activate else .create }
  | .create =>
    if a.ok then { s with steps := [], device := true, main := .start .rules }
    else { s with main := .failed }
  | .start x =>
    if a.ok then
      { s with
        steps := x :: s.steps
        main := match x with
          | .rules => .start .events
          | .events => .start .control
          | .control => .start .inject
          | .inject => .start .flow
          | .flow | .bfe => .subscribe }
    else { s with main := .rollback }
  | .subscribe =>
    if a.ok then
      { s with steps := .bfe :: s.steps, handle := true, subscribed := true, main := .bfeState }
    else { s with handle := false, main := .rollback }
  | .bfeState =>
    { s with seen := s.period, main := if s.service = .running then .install else .init true }
  | .install =>
    match s.tryInstall with
    | some true => { s with seen := s.period, main := .init true }
    | some false =>
      { s with seen := s.period, main := .rollback, failed := s.period :: s.failed }
    | none => { s with seen := s.period, main := .installing s.period }
  | .installing period =>
    { s.install period a.wfp with
      main := if ntSuccess (s.manager.install a.wfp).2 then .init true else .rollback }
  | .activate => { s.write s.runtime.activate with main := .loaded }
  | .rollback =>
    { s.write s.runtime.beginTeardown.1 with main := .quiesce true .wfp true }
  | .quiesce rollback q ok => s.runQuiesce rollback q ok a
  | .rollbackDestroy =>
    if .rules ∈ s.steps ∧ !a.ok then
      { s.write (s.runtime.enterUnloadBlocked .rundownStuck) with main := .blockStart }
    else { s with steps := [], device := false, main := .failed }
  | .blockStart =>
    { s.write (s.runtime.enterUnloadBlocked s.runtime.blockReason) with main := .failed }
  | .loaded | .failed | .unload | .destroy _ => s

end State

/-- Where a step of `ShRuntimeRunUnload` itself leads. -/
def afterUnload : Unload.Action → Main
  | .call .sensorQuiesce => .quiesce false .control true
  | .call .sensorCleanup => .destroy .check
  | .call _ | .runtime _ | .begin | .skip _ | .returned _ _ | .gate _ | .blockReason
  | .recordStuck | .enterBlocked | .enterQuiescent | .finalCheck _ => .unload

inductive Action where
  | bfe (service : ServiceState)
  | callback (k : Callback) (r : InstallReplies)
  | report
  | reportCheck
  | reportEnter
  | main (a : Replies)
  | unload (a : Unload.Action)
  | quiescentCheck
  | quiescentEnter
  | quiesced (ok : Bool)
  | destroy (a : Destroy.Action)
  | shutdownStuck
  | destroyed

inductive Step : State → Action → State → Prop where
  | bfe {s : State} {service : ServiceState} (h : s.service ≠ service) :
      Step s (.bfe service) (s.change service)
  | callback {s : State} {k : Callback} {r : InstallReplies} (cs : Multiset Callback)
      (h : s.callbacks = k ::ₘ cs) (hl : k = .install → s.Unlocked) :
      Step s (.callback k r) (s.runCallback k cs r)
  -- ShRuntimeReportUnderflow of any rundown, in three steps.
  | report {s : State} :
      Step s .report
        { s.write (s.runtime.recordBlock .rundownUnderflow) with reports := s.reports + 1 }
  | reportCheck {s : State} (h : 0 < s.reports) :
      Step s .reportCheck
        { s with
          reports := s.reports - 1
          entering := if s.runtime.state = .teardown then s.entering + 1 else s.entering }
  | reportEnter {s : State} (h : 0 < s.entering) :
      Step s .reportEnter
        { s.write (s.runtime.enterUnloadBlocked .rundownUnderflow) with
          entering := s.entering - 1 }
  | main {s : State} {a : Replies}
      (hl : s.main = .install ∨ (∃ b ok, s.main = .quiesce b .wfp ok) → s.Unlocked) :
      Step s (.main a) (s.runMain a)
  | unload {s : State} {a : Unload.Action} {u : Unload.State}
      (h : s.main = if a = .begin then .loaded else .unload)
      (ha : (∀ c, a ≠ .runtime c) ∧ ∀ k ok, a ≠ .returned k ok)
      (hq : a = .enterQuiescent → s.sawTeardown = false ∧ s.runtime.state ≠ .teardown)
      (hs : Unload.Step driverCallbacks s.unload a u) :
      Step s (.unload a) { s with unload := u, main := afterUnload a }
  -- ShRuntimeEnterQuiescent when it finds Teardown, in two steps.
  | quiescentCheck {s : State} (h : s.main = .unload) (hp : s.unload.pc = .enterQuiescent)
      (hq : s.sawTeardown = false) (ht : s.runtime.state = .teardown) :
      Step s .quiescentCheck { s with sawTeardown := true }
  | quiescentEnter {s : State} (h : s.main = .unload) (hp : s.unload.pc = .enterQuiescent)
      (hq : s.sawTeardown = true) :
      Step s .quiescentEnter
        { s with
          unload := { s.unload with
            runtime := { s.runtime with state := .quiescent }, pc := .test .sensorCleanup }
          main := .unload }
  | quiesced {s : State} {ok : Bool} {u : Unload.State} (h : s.main = .quiesce false .done ok)
      (hs : Unload.Step driverCallbacks s.unload (.returned .sensorQuiesce ok) u) :
      Step s (.quiesced ok) { s with unload := u, main := .unload }
  | destroy {s : State} {pc : Destroy.Pc} {a : Destroy.Action} {d : Destroy.State}
      (h : s.main = .destroy pc) (ha : ∀ c, a ≠ .runtime c)
      (hb : a = .shutdown false → s.runtime.state = .unloadBlocked)
      (hs : Destroy.Step ⟨s.runtime, pc⟩ a d) :
      Step s (.destroy a)
        { s.write d.runtime with
          steps := if a = .destroy .steps then [] else s.steps
          device := s.device && a ≠ .destroy .steps
          main := .destroy d.pc }
  -- Inside SkRuleStoreShutdown a snapshot does not drain.
  | shutdownStuck {s : State} (h : s.main = .destroy .shutdown) :
      Step s .shutdownStuck (s.write
        ((s.runtime.recordBlock .rundownStuck).enterUnloadBlocked .rundownStuck))
  | destroyed {s : State} {ok : Bool} {u : Unload.State} (h : s.main = .destroy .returned)
      (hs : Unload.Step driverCallbacks s.unload (.returned .sensorCleanup ok) u) :
      Step s .destroyed { s with unload := u, main := .unload }

def system : System State Action where
  init s := ∃ service, s = initial service
  step := Step

/-! ### The runtime under the driver -/

variable {s t : State} {a : Action} {k : Callback} {cs : Multiset Callback}

theorem leads_install (s : State) (p : ℕ) (r : InstallReplies) :
    s.runtime.Leads (s.install p r).runtime := by
  have hm : (s.install p r).runtime = (s.manager.install r).1.runtime := by
    simp only [State.install]
    split <;> rfl
  rw [hm]
  rcases s.manager.install_runtime with he | he <;> rw [he]
  · exact .refl _
  · exact .recordBlock _ _

theorem leads_runCallback (s : State) (k : Callback) (cs : Multiset Callback)
    (r : InstallReplies) : s.runtime.Leads (s.runCallback k cs r).runtime := by
  cases k with
  | bfe k =>
    cases k with
    | body st =>
      simp only [State.runCallback]
      split <;> exact .refl _
    | report => exact .recordBlock _ _
    | _ => exact .refl _
  | install =>
    simp only [State.runCallback]
    split <;> exact .refl _
  | installing p => exact leads_install s p r

theorem leads_check {b : Bool} {q : Quiesce} {ok passed : Bool} {r : Runtime}
    (h : s.runtime.Leads r) : s.runtime.Leads (s.check b q ok passed r).runtime := by
  unfold State.check
  split
  · exact .refl _
  · exact h

theorem leads_runQuiesce (s : State) (b : Bool) (q : Quiesce) (ok : Bool) (a : Replies) :
    s.runtime.Leads (s.runQuiesce b q ok a).runtime := by
  unfold State.runQuiesce
  split
  · exact .refl _
  cases q with
  | control => exact leads_check ((Runtime.Leads.recordBlock _ _).trans (.recordIfNone _ _))
  | inject => exact leads_check ((Runtime.Leads.recordBlock _ _).trans (.recordIfNone _ _))
  | writable => exact leads_check (.recordIfNone _ _)
  | events => exact leads_check (.recordIfNone _ _)
  | running => exact leads_check (.recordIfNone _ _)
  | workItems => exact leads_check (.recordIfNone _ _)
  | unsubscribe =>
    simp only
    repeat' split
    · exact .refl _
    · exact leads_check (.recordIfNone _ _)
    · exact .refl _
  | beginStop => exact .refl _
  | drain i =>
    simp only
    repeat' split
    · exact leads_check (.refl _)
    · exact leads_check (.recordIfNone _ _)
    · exact .refl _
  | wfp =>
    obtain ⟨why, hw⟩ := s.manager.teardown_records a.wfp.toRemovals
    have hr : s.runtime.Leads (s.manager.teardown a.wfp.toRemovals).1.runtime :=
      hw ▸ .records _ why
    exact leads_check (s := { s with wfp := (s.manager.teardown a.wfp.toRemovals).1 })
      (hr.trans (.recordIfNone _ _))
  | done =>
    simp only
    split <;> exact .refl _

theorem leads_runMain (a : Replies) (h : s.main ≠ .activate) :
    s.runtime.Leads (s.runMain a).runtime := by
  cases hm : s.main with
  | init b =>
    simp only [State.runMain, hm]
    split
    · rename_i hu
      have hc : s.runtime.call .init = s.runtime.clearBlocks := if_pos hu
      exact hc ▸ .call _ .init nofun
    · exact .refl _
  | install =>
    simp only [State.runMain, hm]
    split <;> exact .refl _
  | installing p =>
    simp only [State.runMain, hm]
    exact leads_install s p a.wfp
  | activate => exact absurd hm h
  | rollback =>
    simp only [State.runMain, hm]
    exact .call _ .beginTeardown nofun
  | quiesce b q ok =>
    simp only [State.runMain, hm]
    exact leads_runQuiesce s b q ok a
  | rollbackDestroy =>
    simp only [State.runMain, hm]
    split
    · exact .enterUnloadBlocked _ _
    · exact .refl _
  | blockStart =>
    simp only [State.runMain, hm]
    exact .enterUnloadBlocked _ _
  | _ =>
    simp only [State.runMain, hm]
    repeat' split
    all_goals exact .refl _

theorem leads_unload {u v : Unload.State} {a : Unload.Action}
    (h : Unload.Step driverCallbacks u a v) (ha : ∀ c, a ≠ .runtime c) :
    u.runtime.Leads v.runtime := by
  cases h with
  | runtime => exact absurd rfl (ha _)
  | begin => exact .call _ .beginTeardown nofun
  | recordStuck => exact .recordBlock _ _
  | enterBlocked => exact .enterUnloadBlocked _ _
  | enterQuiescent => exact .call _ .enterQuiescent nofun
  | _ => exact .refl _

theorem leads_destroy {d e : Destroy.State} {a : Destroy.Action} (h : Destroy.Step d a e)
    (ha : ∀ c, a ≠ .runtime c) : d.runtime.Leads e.runtime := by
  cases h with
  | runtime => exact absurd rfl (ha _)
  | enterBlocked => exact .enterUnloadBlocked _ _
  | _ => exact .refl _

/-- The driver writes the runtime by calls of it, but for the write of `ShRuntimeEnterQuiescent`,
and activates it in one step only. -/
theorem leads_step (h : system.step s a t) : s.runtime.Leads t.runtime ∨
    (s.main = .activate ∧ (∃ r, a = .main r) ∧ t.runtime = s.runtime.activate) ∨
    a = .quiescentEnter ∧ t.runtime.state = .quiescent := by
  cases h with
  | bfe => exact .inl (.refl _)
  | @callback k r cs => exact .inl (leads_runCallback s k cs r)
  | report => exact .inl (.recordBlock _ _)
  | reportCheck => exact .inl (.refl _)
  | reportEnter => exact .inl (.enterUnloadBlocked _ _)
  | @main r =>
    by_cases hm : s.main = .activate
    · refine .inr (.inl ⟨hm, ⟨r, rfl⟩, ?_⟩)
      simp [State.runMain, hm, State.write, State.runtime]
    · exact .inl (leads_runMain r hm)
  | unload h ha hq hs => exact .inl (leads_unload hs ha.1)
  | quiescentCheck => exact .inl (.refl _)
  | quiescentEnter => exact .inr (.inr ⟨rfl, rfl⟩)
  | quiesced h hs => exact .inl (leads_unload hs nofun)
  | destroy h ha hb hs => exact .inl (leads_destroy hs ha)
  | shutdownStuck =>
    exact .inl ((Runtime.Leads.recordBlock _ _).trans (.enterUnloadBlocked _ _))
  | destroyed h hs => exact .inl (leads_unload hs nofun)

theorem unloadBlocked_step (h : system.step s a t) (ha : a ≠ .quiescentEnter)
    (hb : s.runtime.state = .unloadBlocked) : t.runtime.state = .unloadBlocked := by
  rcases leads_step h with hl | ⟨-, -, he⟩ | ⟨hq, -⟩
  · exact hl.unloadBlocked hb
  · rw [he]
    exact Runtime.call_unloadBlocked hb .activate
  · exact absurd hq ha

/-- Only `DriverEntry` makes the runtime active. -/
theorem active_step (h : system.step s a t) (ha : ∀ r, a ≠ .main r)
    (hact : t.runtime.state = .active) : s.runtime.state = .active := by
  rcases leads_step h with hl | ⟨-, ⟨r, hr⟩, -⟩ | ⟨-, hq⟩
  · exact hl.active hact
  · exact absurd hr (ha r)
  · exact absurd (hq.symm.trans hact) (by decide)

/-! ### What the steps leave alone -/

/-- What another thread leaves alone: the main thread with its locals and what that thread
has set up. -/
structure Elsewhere (s t : State) : Prop where
  main : t.main = s.main
  unload : t.unload = { s.unload with runtime := t.runtime }
  device : t.device = s.device
  subscribed : t.subscribed = s.subscribed
  service : t.service = s.service
  period : t.period = s.period
  seen : t.seen = s.seen

theorem install_elsewhere (p : ℕ) (r : InstallReplies) :
    Elsewhere s (s.install p r) ∧ (s.install p r).reporting = s.reporting ∧
      (s.install p r).runtime = (s.manager.install r).1.runtime := by
  simp only [State.install]
  split <;> exact ⟨⟨rfl, rfl, rfl, rfl, rfl, rfl, rfl⟩, rfl, rfl⟩

theorem runCallback_elsewhere {k : Callback} {cs : Multiset Callback} {r : InstallReplies} :
    Elsewhere s (s.runCallback k cs r) ∧ s.reporting ≤ (s.runCallback k cs r).reporting := by
  cases k with
  | bfe k =>
    cases k with
    | body st =>
      simp only [State.runCallback]
      split <;> exact ⟨⟨rfl, rfl, rfl, rfl, rfl, rfl, rfl⟩, le_rfl⟩
    | report => exact ⟨⟨rfl, rfl, rfl, rfl, rfl, rfl, rfl⟩, Nat.add_le_add_right (Nat.le_succ _) _⟩
    | _ => exact ⟨⟨rfl, rfl, rfl, rfl, rfl, rfl, rfl⟩, le_rfl⟩
  | install =>
    simp only [State.runCallback]
    split <;> exact ⟨⟨rfl, rfl, rfl, rfl, rfl, rfl, rfl⟩, le_rfl⟩
  | installing p =>
    obtain ⟨he, hr, -⟩ := install_elsewhere (s := s) p r
    exact ⟨⟨he.main, he.unload, he.device, he.subscribed, he.service, he.period, he.seen⟩,
      hr.ge⟩

/-! ### The quiesce steps -/

/-- A quiesce step that writes the runtime leaves `ok` FALSE. -/
structure QuiescedTo (s t : State) (b : Bool) (ok : Bool) : Prop where
  reporting : t.reporting = s.reporting
  main : ∃ q ok', t.main = .quiesce b q ok' ∧ (ok = false → ok' = false) ∧
    (ok' = true → t.runtime = s.runtime)

theorem check_quiescedTo {u : State} {b : Bool} {q : Quiesce} {ok passed : Bool}
    {r : Runtime} (hr : u.reporting = s.reporting) (hu : u.runtime = s.runtime) :
    QuiescedTo s (u.check b q ok passed r) b ok := by
  cases passed with
  | true => exact ⟨hr, _, ok, rfl, id, fun _ => hu⟩
  | false => exact ⟨hr, _, false, rfl, fun _ => rfl, nofun⟩

theorem runQuiesce_quiescedTo {b : Bool} {q : Quiesce} {ok : Bool} {r : Replies}
    (hm : s.main = .quiesce b q ok) (hq : b = true → q ≠ .done) :
    QuiescedTo s (s.runQuiesce b q ok r) b ok := by
  have hgo : ∀ t : State, t.reporting = s.reporting → t.runtime = s.runtime →
      (∃ q, t.main = .quiesce b q ok) → QuiescedTo s t b ok := by
    rintro t hr hrt ⟨q, hm⟩
    exact ⟨hr, q, ok, hm, id, fun _ => hrt⟩
  unfold State.runQuiesce
  split
  · exact hgo _ rfl rfl ⟨_, rfl⟩
  cases q with
  | unsubscribe =>
    simp only
    repeat' split
    · exact hgo _ rfl rfl ⟨_, rfl⟩
    · exact check_quiescedTo rfl rfl
    · exact hgo _ rfl rfl ⟨_, rfl⟩
  | beginStop => exact hgo _ rfl rfl ⟨_, rfl⟩
  | drain i =>
    simp only
    repeat' split
    · exact check_quiescedTo rfl rfl
    · exact check_quiescedTo rfl rfl
    · exact hgo _ rfl rfl ⟨_, rfl⟩
  | done =>
    cases b with
    | true => exact absurd rfl (hq rfl)
    | false => exact hgo _ rfl rfl ⟨_, hm⟩
  | _ => exact check_quiescedTo rfl rfl

end Sentinel.Driver
