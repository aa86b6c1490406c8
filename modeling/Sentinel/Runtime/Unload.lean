import Sentinel.General.System
import Sentinel.Runtime.State

/-! `ShRuntimeRunUnload` and `SkLifecycleDestroy`. Between their steps any thread, and any
callback they wait for, may call the runtime. -/
namespace Sentinel

open Transition

/-- The functions of `runtime.c` that write the runtime. -/
inductive RuntimeCall where
  | init
  | activate
  | beginTeardown
  | recordBlock (why : BlockReason)
  | enterQuiescent
  | enterUnloadBlocked (why : BlockReason)
  | reportUnderflow
  deriving DecidableEq

namespace Runtime

/-- `ShRuntimeInit` without its rundowns. -/
def init (r : Runtime) : Runtime := if r.state = .uninitialized then r.clearBlocks else r

def enterQuiescent (r : Runtime) : Runtime :=
  if r.state = .teardown then { r with state := .quiescent } else r

def destroyAllowed (r : Runtime) : Bool :=
  r.state == .quiescent || r.state == .uninitialized

/-- A call is one step; `ShRuntimeActivate` is `init` and then `activate`. -/
def call (r : Runtime) : RuntimeCall → Runtime
  | .init => r.init
  | .activate => r.activate
  | .beginTeardown => r.beginTeardown.1
  | .recordBlock why => r.recordBlock why
  | .enterQuiescent => r.enterQuiescent
  | .enterUnloadBlocked why => r.enterUnloadBlocked why
  | .reportUnderflow => r.reportUnderflow

/-- Any calls in any order, from any state of the runtime. -/
def system : System Runtime RuntimeCall where
  init _ := True
  step r c r' := r' = r.call c

variable {r r' : Runtime} {cs : List RuntimeCall}

theorem call_unloadBlocked (h : r.state = .unloadBlocked) (c : RuntimeCall) :
    (r.call c).state = .unloadBlocked := by
  cases c <;> simp [call, init, activate, beginTeardown, enterQuiescent, enterUnloadBlocked,
    reportUnderflow, h]

theorem run_unloadBlocked (hr : system.Run r cs r') (h : r.state = .unloadBlocked) :
    r'.state = .unloadBlocked :=
  hr.preserves (I := fun r => r.state = .unloadBlocked)
    (by rintro r c _ rfl h; exact call_unloadBlocked h c) h

/-- Some calls but that of `activate` make `r'` of `r`. -/
def Leads (r r' : Runtime) : Prop := ∃ cs, .activate ∉ cs ∧ system.Run r cs r'

theorem call_active {c : RuntimeCall} (hc : c ≠ .activate) (h : (r.call c).state = .active) :
    r.state = .active := by
  cases c with
  | init =>
    rw [call, init] at h
    split at h <;> exact h
  | activate => exact absurd rfl hc
  | beginTeardown =>
    rw [call, beginTeardown] at h
    repeat' split at h
    all_goals first | exact h | simp at h
  | recordBlock why => exact h
  | enterQuiescent =>
    rw [call, enterQuiescent] at h
    split at h
    · simp at h
    · exact h
  | enterUnloadBlocked why => simp [call, enterUnloadBlocked] at h
  | reportUnderflow =>
    by_cases ht : r.state = .teardown
    · simp [call, reportUnderflow, enterUnloadBlocked, ht] at h
    · simpa [call, reportUnderflow, ht] using h

namespace Leads

variable {r'' : Runtime}

theorem refl (r : Runtime) : r.Leads r := ⟨[], List.not_mem_nil, .refl⟩

theorem call (r : Runtime) (c : RuntimeCall) (h : c ≠ .activate) : r.Leads (r.call c) :=
  ⟨[c], by simpa using h.symm, .single rfl⟩

theorem trans (h : r.Leads r') (h' : r'.Leads r'') : r.Leads r'' := by
  obtain ⟨cs, hc, hr⟩ := h
  obtain ⟨ds, hd, hr'⟩ := h'
  exact ⟨cs ++ ds, by simp [hc, hd], hr.append hr'⟩

theorem recordBlock (r : Runtime) (why : BlockReason) : r.Leads (r.recordBlock why) :=
  call r (.recordBlock why) nofun

theorem enterUnloadBlocked (r : Runtime) (why : BlockReason) :
    r.Leads (r.enterUnloadBlocked why) :=
  call r (.enterUnloadBlocked why) nofun

theorem recordIfNone (r : Runtime) (why : BlockReason) : r.Leads (r.recordIfNone why) := by
  unfold Runtime.recordIfNone
  split
  · exact recordBlock r why
  · exact refl r

theorem records (r : Runtime) (why : List BlockReason) :
    r.Leads (why.foldl Runtime.recordBlock r) := by
  induction why generalizing r with
  | nil => exact refl r
  | cons w why ih => exact (recordBlock r w).trans (ih _)

theorem unloadBlocked (h : r.Leads r') (hb : r.state = .unloadBlocked) :
    r'.state = .unloadBlocked := by
  obtain ⟨cs, -, hr⟩ := h
  exact run_unloadBlocked hr hb

theorem active (h : r.Leads r') (ha : r'.state = .active) : r.state = .active := by
  obtain ⟨cs, hc, hr⟩ := h
  induction hr with
  | refl => exact ha
  | head hs _ ih =>
    obtain ⟨hne, hcs⟩ := not_or.mp (mt List.mem_cons.mpr hc)
    rw [show _ = _ from hs] at ih
    exact call_active (Ne.symm hne) (ih ha hcs)

end Leads

end Runtime

/-! ### The unload gate -/

namespace Unload

/-- The arguments of `ShRuntimeRunUnload`. -/
inductive Callback where
  | sensorQuiesce
  | divertQuiesce
  | sensorCleanup
  | divertCleanup
  deriving DecidableEq

def Callback.isQuiesce : Callback → Bool
  | .sensorQuiesce | .divertQuiesce => true
  | .sensorCleanup | .divertCleanup => false

/-- Where `ShRuntimeRunUnload` stands. -/
inductive Pc where
  | begin
  | test (k : Callback)
  | inside (k : Callback)
  | gate
  | blockReason
  | recordStuck
  | enterBlocked
  | parked
  | enterQuiescent
  | finalCheck
  | returned
  deriving DecidableEq

/-- Where a callback returns to. -/
def Callback.next : Callback → Pc
  | .sensorQuiesce => .test .divertQuiesce
  | .divertQuiesce => .gate
  | .sensorCleanup => .test .divertCleanup
  | .divertCleanup => .finalCheck

structure State where
  runtime : Runtime
  sensorOk : Bool
  divertOk : Bool
  pc : Pc

def State.returnFrom (s : State) (k : Callback) (ok : Bool) : State where
  runtime := s.runtime
  sensorOk := if k = .sensorQuiesce then ok else s.sensorOk
  divertOk := if k = .divertQuiesce then ok else s.divertOk
  pc := k.next

/-- The test before the destroy phase. -/
def State.blocked (s : State) : Bool :=
  !s.sensorOk || !s.divertOk || s.runtime.state == .unloadBlocked

/-- `runtime` is a call by another thread or by the callback that runs. The two checks
show the state they have read. -/
inductive Action where
  | runtime (c : RuntimeCall)
  | begin
  | call (k : Callback)
  | skip (k : Callback)
  | returned (k : Callback) (ok : Bool)
  | gate (seen : RuntimeState)
  | blockReason
  | recordStuck
  | enterBlocked
  | enterQuiescent
  | finalCheck (seen : RuntimeState)
  deriving DecidableEq

/-- `given` says which of the callbacks are not NULL. A callback may return anything or
not return at all. -/
inductive Step (given : Callback → Bool) : State → Action → State → Prop where
  | runtime {s : State} {c : RuntimeCall} :
      Step given s (.runtime c) { s with runtime := s.runtime.call c }
  | begin {s : State} (h : s.pc = .begin) :
      Step given s .begin
        { s with runtime := s.runtime.call .beginTeardown, pc := .test .sensorQuiesce }
  | call {s : State} {k : Callback} (h : s.pc = .test k) (hk : given k = true) :
      Step given s (.call k) { s with pc := .inside k }
  | skip {s : State} {k : Callback} (h : s.pc = .test k) (hk : given k = false) :
      Step given s (.skip k) { s with pc := k.next }
  | returned {s : State} {k : Callback} {ok : Bool} (h : s.pc = .inside k) :
      Step given s (.returned k ok) (s.returnFrom k ok)
  | gate {s : State} (h : s.pc = .gate) :
      Step given s (.gate s.runtime.state)
        { s with pc := if s.blocked then .blockReason else .enterQuiescent }
  | blockReason {s : State} (h : s.pc = .blockReason) :
      Step given s .blockReason
        { s with pc := if s.runtime.blockReason = .none then .recordStuck else .enterBlocked }
  | recordStuck {s : State} (h : s.pc = .recordStuck) :
      Step given s .recordStuck
        { s with runtime := s.runtime.call (.recordBlock .rundownStuck), pc := .enterBlocked }
  -- ShRuntimeBlockUnloadForever does not return without the test hook.
  | enterBlocked {s : State} (h : s.pc = .enterBlocked) :
      Step given s .enterBlocked
        { s with runtime := s.runtime.call (.enterUnloadBlocked s.runtime.blockReason),
                 pc := .parked }
  | enterQuiescent {s : State} (h : s.pc = .enterQuiescent) :
      Step given s .enterQuiescent
        { s with runtime := s.runtime.call .enterQuiescent, pc := .test .sensorCleanup }
  | finalCheck {s : State} (h : s.pc = .finalCheck) :
      Step given s (.finalCheck s.runtime.state)
        { s with pc := if s.runtime.state = .unloadBlocked then .parked else .returned }

/-- The call of `ShRuntimeRunUnload` from any state of the runtime. -/
def system (given : Callback → Bool) : System State Action where
  init s := s.sensorOk = true ∧ s.divertOk = true ∧ s.pc = .begin
  step := Step given

variable {given : Callback → Bool} {s t : State} {a : Action} {as bs : List Action}

/-- To the runtime the unload is one more caller. -/
theorem runtime_simulation : (system given).Simulation Runtime.system State.runtime where
  init := fun _ => trivial
  step := by
    intro s a t _ _ hs
    cases hs with
    | runtime => exact ⟨_, .single rfl⟩
    | begin => exact ⟨[.beginTeardown], .single rfl⟩
    | recordStuck => exact ⟨[.recordBlock .rundownStuck], .single rfl⟩
    | enterBlocked => exact ⟨[.enterUnloadBlocked s.runtime.blockReason], .single rfl⟩
    | enterQuiescent => exact ⟨[.enterQuiescent], .single rfl⟩
    | _ => exact System.exists_run_of_eq rfl

/-- Every given quiesce has returned TRUE and then the gate has seen another state than
UNLOAD_BLOCKED. -/
def Passed (given : Callback → Bool) (as : List Action) : Prop :=
  ∃ bs cs seen, as = bs ++ .gate seen :: cs ∧ seen ≠ .unloadBlocked ∧
    ∀ k : Callback, k.isQuiesce = true → given k = true → .returned k true ∈ bs

theorem Passed.append (h : Passed given as) : Passed given (as ++ [a]) := by
  obtain ⟨bs, cs, seen, rfl, hp⟩ := h
  exact ⟨bs, cs ++ [a], seen, by simp, hp⟩

def Callback.stage : Callback → ℕ
  | .sensorQuiesce => 1
  | .divertQuiesce => 2
  | .sensorCleanup => 6
  | .divertCleanup => 7

/-- The order of the function's text. -/
def Pc.stage : Pc → ℕ
  | .begin => 0
  | .test k | .inside k => k.stage
  | .gate => 3
  | .blockReason | .recordStuck | .enterBlocked | .parked => 4
  | .enterQuiescent => 5
  | .finalCheck => 8
  | .returned => 9

/-- What the labels so far say where the function stands. -/
structure Traced (given : Callback → Bool) (as : List Action) (s : State) : Prop where
  sensor : 1 < s.pc.stage → s.sensorOk = true → given .sensorQuiesce = true →
    .returned .sensorQuiesce true ∈ as
  divert : 2 < s.pc.stage → s.divertOk = true → given .divertQuiesce = true →
    .returned .divertQuiesce true ∈ as
  passed : 4 < s.pc.stage → Passed given as

theorem traced_init (h : (system given).init s) : Traced given [] s := by
  obtain ⟨_, _, hpc⟩ := h
  constructor <;> simp [hpc, Pc.stage]

theorem Traced.append (h : Traced given as s) (hpc : t.pc.stage = s.pc.stage)
    (hs : t.sensorOk = s.sensorOk) (hd : t.divertOk = s.divertOk) :
    Traced given (as ++ [a]) t where
  sensor h1 ho hk := List.mem_append_left _ (h.sensor (hpc ▸ h1) (hs ▸ ho) hk)
  divert h1 ho hk := List.mem_append_left _ (h.divert (hpc ▸ h1) (hd ▸ ho) hk)
  passed h1 := (h.passed (hpc ▸ h1)).append

theorem traced_skip {k : Callback} (hpc : s.pc = .test k) (hk : given k = false)
    (h : Traced given as s) : Traced given (as ++ [.skip k]) { s with pc := k.next } := by
  cases k with
  | sensorQuiesce => constructor <;> simp [Callback.next, Pc.stage, Callback.stage, hk]
  | divertQuiesce =>
    refine ⟨fun _ ho hg => ?_, by simp [hk], by simp [Callback.next, Pc.stage]⟩
    exact List.mem_append_left _ (h.sensor (by simp [hpc, Pc.stage, Callback.stage]) ho hg)
  | sensorCleanup | divertCleanup =>
    refine ⟨fun _ ho hg => ?_, fun _ ho hg => ?_, fun _ => ?_⟩
    · exact List.mem_append_left _ (h.sensor (by simp [hpc, Pc.stage, Callback.stage]) ho hg)
    · exact List.mem_append_left _ (h.divert (by simp [hpc, Pc.stage, Callback.stage]) ho hg)
    · exact (h.passed (by simp [hpc, Pc.stage, Callback.stage])).append

theorem traced_returned {k : Callback} {ok : Bool} (hpc : s.pc = .inside k)
    (h : Traced given as s) :
    Traced given (as ++ [.returned k ok]) (s.returnFrom k ok) := by
  cases k with
  | sensorQuiesce =>
    constructor <;> simp +contextual [State.returnFrom, Callback.next, Pc.stage, Callback.stage]
  | divertQuiesce =>
    refine ⟨fun _ ho hg => ?_, ?_, by simp [State.returnFrom, Callback.next, Pc.stage]⟩
    · exact List.mem_append_left _ (h.sensor (by simp [hpc, Pc.stage, Callback.stage]) ho hg)
    · simp +contextual [State.returnFrom]
  | sensorCleanup | divertCleanup =>
    refine ⟨fun _ ho hg => ?_, fun _ ho hg => ?_, fun _ => ?_⟩
    · exact List.mem_append_left _ (h.sensor (by simp [hpc, Pc.stage, Callback.stage]) ho hg)
    · exact List.mem_append_left _ (h.divert (by simp [hpc, Pc.stage, Callback.stage]) ho hg)
    · exact (h.passed (by simp [hpc, Pc.stage, Callback.stage])).append

theorem traced_gate (hpc : s.pc = .gate) (h : Traced given as s) :
    Traced given (as ++ [.gate s.runtime.state])
      { s with pc := if s.blocked then .blockReason else .enterQuiescent } := by
  have hstage : s.pc.stage = 3 := by rw [hpc]; rfl
  refine ⟨fun _ ho hg => ?_, fun _ ho hg => ?_, fun h4 => ?_⟩
  · exact List.mem_append_left _ (h.sensor (by omega) ho hg)
  · exact List.mem_append_left _ (h.divert (by omega) ho hg)
  · have hb : s.blocked = false := by
      cases hb : s.blocked with
      | false => rfl
      | true => simp [hb, Pc.stage] at h4
    simp only [State.blocked, Bool.or_eq_false_iff, Bool.not_eq_false', beq_eq_false_iff_ne]
      at hb
    refine ⟨as, [], _, rfl, hb.2, ?_⟩
    intro k hq hg
    cases k with
    | sensorQuiesce => exact h.sensor (by omega) hb.1.1 hg
    | divertQuiesce => exact h.divert (by omega) hb.1.2 hg
    | sensorCleanup | divertCleanup => exact absurd hq (by decide)

theorem traced_step (hs : (system given).step s a t) (h : Traced given as s) :
    Traced given (as ++ [a]) t := by
  cases hs with
  | runtime => exact h.append rfl rfl rfl
  | begin => constructor <;> simp [Pc.stage, Callback.stage]
  | call hpc => exact h.append (by rw [hpc]; rfl) rfl rfl
  | skip hpc hk => exact traced_skip hpc hk h
  | returned hpc => exact traced_returned hpc h
  | gate hpc => exact traced_gate hpc h
  | blockReason hpc =>
    refine h.append ?_ rfl rfl
    rw [hpc]
    simp only
    split <;> rfl
  | recordStuck hpc => exact h.append (by rw [hpc]; rfl) rfl rfl
  | enterBlocked hpc => exact h.append (by rw [hpc]; rfl) rfl rfl
  | enterQuiescent hpc =>
    have h5 : s.pc.stage = 5 := by rw [hpc]; rfl
    refine ⟨fun _ ho hg => ?_, fun _ ho hg => ?_, fun _ => (h.passed (by omega)).append⟩
    · exact List.mem_append_left _ (h.sensor (by omega) ho hg)
    · exact List.mem_append_left _ (h.divert (by omega) ho hg)
  | finalCheck hpc =>
    have h8 : s.pc.stage = 8 := by rw [hpc]; rfl
    refine ⟨fun _ ho hg => ?_, fun _ ho hg => ?_, fun _ => (h.passed (by omega)).append⟩
    · exact List.mem_append_left _ (h.sensor (by omega) ho hg)
    · exact List.mem_append_left _ (h.divert (by omega) ho hg)

theorem traced_run (hi : (system given).init s) (h : (system given).Run s as t) :
    Traced given as t := by
  have ht := h.preserves_labels (fun hs hi => traced_step hs hi) (traced_init hi)
  rwa [List.nil_append] at ht

/-- The step that calls a cleanup comes after a passed gate. -/
theorem call_cleanup {k : Callback} {u : State} (hi : (system given).init s)
    (h : (system given).Run s as t) (hs : (system given).step t (.call k) u)
    (hk : k.isQuiesce = false) : Passed given as := by
  cases hs with
  | call hpc =>
    apply (traced_run hi h).passed
    rw [hpc]
    cases k <;> first | exact absurd hk (by decide) | decide

theorem unloadBlocked_run (hi : (system given).Reachable s) (hs : (system given).Run s as t)
    (h : s.runtime.state = .unloadBlocked) : t.runtime.state = .unloadBlocked := by
  obtain ⟨cs, hr⟩ := runtime_simulation.run hi hs
  exact Runtime.run_unloadBlocked hr h

/-- The final check lets the function return TRUE only if no state before it was
UNLOAD_BLOCKED, and so after no call that makes it so. -/
theorem finalCheck_returned {seen : RuntimeState} {u : State}
    (hi : (system given).init s) (h : (system given).Run s as t)
    (hs : (system given).step t (.finalCheck seen) u) (hu : u.pc = .returned) :
    (∀ bs cs v, as = bs ++ cs → (system given).Run s bs v → (system given).Run v cs t →
      v.runtime.state ≠ .unloadBlocked) ∧
      ∀ why, .runtime (.enterUnloadBlocked why) ∉ as := by
  have hne : t.runtime.state ≠ .unloadBlocked := by
    intro hb
    cases hs
    simp [hb] at hu
  have hv : ∀ bs cs v, as = bs ++ cs → (system given).Run s bs v → (system given).Run v cs t →
      v.runtime.state ≠ .unloadBlocked := by
    intro bs cs v _ hr hr' hb
    exact hne (unloadBlocked_run (.run (.of_init hi) hr) hr' hb)
  refine ⟨hv, fun why hm => ?_⟩
  obtain ⟨bs, cs, rfl⟩ := List.append_of_mem hm
  obtain ⟨v, w, hr, hst, hr'⟩ := h.split
  refine hv (bs ++ [.runtime (.enterUnloadBlocked why)]) cs w (by simp)
    (hr.append (.single hst)) hr' ?_
  cases hst
  rfl

end Unload

/-! ### The destroy phase -/

namespace Destroy

/-- What `SkLifecycleDestroy` destroys; the last clears `g_SkSteps` and `g_SkDevice`. -/
inductive Part where
  | inject
  | flow
  | rules
  | control
  | device
  | steps
  deriving DecidableEq

/-- The rule store and what comes before it. -/
def Part.upToRules : Part → Bool
  | .inject | .flow | .rules => true
  | .control | .device | .steps => false

/-- Where `SkLifecycleDestroy` stands; at `shutdown` it is inside `SkRuleStoreShutdown`. -/
inductive Pc where
  | check
  | destroy (p : Part)
  | shutdown
  | enterBlocked
  | returned
  deriving DecidableEq

def Part.next : Part → Pc
  | .inject => .destroy .flow
  | .flow => .destroy .rules
  | .rules => .shutdown
  | .control => .destroy .device
  | .device => .destroy .steps
  | .steps => .returned

structure State where
  runtime : Runtime
  pc : Pc

/-- `runtime` is a call by another thread or by `SkRuleStoreShutdown`. -/
inductive Action where
  | runtime (c : RuntimeCall)
  | check
  | destroy (p : Part)
  | shutdown (ok : Bool)
  | enterBlocked
  deriving DecidableEq

inductive Step : State → Action → State → Prop where
  | runtime {s : State} {c : RuntimeCall} :
      Step s (.runtime c) { s with runtime := s.runtime.call c }
  | check {s : State} (h : s.pc = .check) :
      Step s .check
        { s with pc := if s.runtime.destroyAllowed then .destroy .inject else .returned }
  | destroy {s : State} {p : Part} (h : s.pc = .destroy p) :
      Step s (.destroy p) { s with pc := p.next }
  | shutdown {s : State} {ok : Bool} (h : s.pc = .shutdown) :
      Step s (.shutdown ok) { s with pc := if ok then .destroy .control else .enterBlocked }
  | enterBlocked {s : State} (h : s.pc = .enterBlocked) :
      Step s .enterBlocked
        { s with runtime := s.runtime.call (.enterUnloadBlocked .rundownStuck),
                 pc := .returned }

def system : System State Action where
  init s := s.pc = .check
  step := Step

variable {s t : State} {a : Action} {as : List Action}

/-- As a cleanup it is one of the callbacks of `ShRuntimeRunUnload`. -/
theorem runtime_simulation : system.Simulation Runtime.system State.runtime where
  init := fun _ => trivial
  step := by
    intro s a t _ _ hs
    cases hs with
    | runtime => exact ⟨_, .single rfl⟩
    | enterBlocked => exact ⟨[.enterUnloadBlocked .rundownStuck], .single rfl⟩
    | _ => exact System.exists_run_of_eq rfl

/-- From here on nothing is destroyed. -/
def Halted (s : State) : Prop :=
  s.pc = .returned ∨ s.pc = .enterBlocked ∨
    s.pc = .check ∧ s.runtime.state = .unloadBlocked

theorem halted_step (hs : system.step s a t) (h : Halted s) :
    Halted t ∧ ∀ p, a ≠ .destroy p := by
  cases hs with
  | @runtime c =>
    refine ⟨?_, nofun⟩
    rcases h with h | h | ⟨h, hb⟩
    · exact .inl h
    · exact .inr (.inl h)
    · exact .inr (.inr ⟨h, Runtime.call_unloadBlocked hb c⟩)
  | check hpc =>
    refine ⟨.inl ?_, nofun⟩
    have hb : s.runtime.state = .unloadBlocked := by simpa [Halted, hpc] using h
    simp [Runtime.destroyAllowed, hb]
  | destroy hpc => simp [Halted, hpc] at h
  | shutdown hpc => simp [Halted, hpc] at h
  | enterBlocked => exact ⟨.inl rfl, nofun⟩

theorem halted_run (h : system.Run s as t) (hs : Halted s) : ∀ p, .destroy p ∉ as := by
  induction h with
  | refl => exact fun _ => List.not_mem_nil
  | head hst _ ih =>
    obtain ⟨ht, ha⟩ := halted_step hst hs
    intro p hm
    rcases List.mem_cons.mp hm with rfl | hm
    · exact ha p rfl
    · exact ih ht p hm

/-- Before the rule store has been shut down. -/
def Pc.early : Pc → Bool
  | .check | .shutdown => true
  | .destroy p => p.upToRules
  | .enterBlocked | .returned => false

/-- What has been destroyed so far. -/
structure Traced (as : List Action) (s : State) : Prop where
  early : s.pc.early = true →
    (∀ p, .destroy p ∈ as → p.upToRules = true) ∧ .shutdown false ∉ as
  stopped : .shutdown false ∈ as →
    Halted s ∧ ∀ p, .destroy p ∈ as → p.upToRules = true

theorem traced_step (hs : system.step s a t) (h : Traced as s) : Traced (as ++ [a]) t := by
  refine ⟨fun he => ?_, fun hm => ?_⟩
  · cases hs with
    | runtime => simpa using h.early he
    | check hpc => simpa using h.early (by rw [hpc]; rfl)
    | @destroy p hpc =>
      cases p with
      | inject | flow | rules =>
        obtain ⟨hp, hn⟩ := h.early (by rw [hpc]; rfl)
        refine ⟨fun p hm => ?_, by simpa using hn⟩
        rcases List.mem_append.mp hm with hm | hm
        · exact hp p hm
        · obtain rfl : p = _ := by simpa using hm
          rfl
      | control | device | steps => simp [Part.next, Pc.early, Part.upToRules] at he
    | @shutdown ok hpc => cases ok <;> simp [Pc.early, Part.upToRules] at he
    | enterBlocked => simp [Pc.early] at he
  · by_cases hm' : .shutdown false ∈ as
    · obtain ⟨hh, hp⟩ := h.stopped hm'
      obtain ⟨ht, ha⟩ := halted_step hs hh
      refine ⟨ht, fun p hd => ?_⟩
      rcases List.mem_append.mp hd with hd | hd
      · exact hp p hd
      · exact absurd (List.mem_singleton.mp hd).symm (ha p)
    · obtain rfl : a = .shutdown false := by simpa [hm', eq_comm] using hm
      cases hs with
      | shutdown hpc =>
        refine ⟨.inr (.inl rfl), fun p hd => ?_⟩
        exact (h.early (by rw [hpc]; rfl)).1 p (by simpa using hd)

theorem traced_run (h : system.Run s as t) : Traced as t := by
  have hnil : Traced [] s := by constructor <;> simp
  have ht := h.preserves_labels (fun hs hi => traced_step hs hi) hnil
  rwa [List.nil_append] at ht

end Destroy

/-- UNLOAD_BLOCKED is absorbing; a cleanup is called only behind a passed gate; the destroy
phase entered in UNLOAD_BLOCKED destroys nothing and one that the rule store stops nothing
after the rule store; TRUE is returned only if the state was never UNLOAD_BLOCKED. -/
theorem unload_gate (given : Unload.Callback → Bool) :
    (∀ (r : Runtime) c, r.state = .unloadBlocked → (r.call c).state = .unloadBlocked) ∧
      (∀ s as t k u, (Unload.system given).init s → (Unload.system given).Run s as t →
        (Unload.system given).step t (.call k) u → k.isQuiesce = false →
        Unload.Passed given as) ∧
      (∀ s as t, Destroy.system.init s → Destroy.system.Run s as t →
        (s.runtime.state = .unloadBlocked → ∀ p, .destroy p ∉ as) ∧
          (.shutdown false ∈ as → ∀ p, .destroy p ∈ as → p.upToRules = true)) ∧
      ∀ s as t seen u, (Unload.system given).init s → (Unload.system given).Run s as t →
        (Unload.system given).step t (.finalCheck seen) u → u.pc = .returned →
        (∀ bs cs v, as = bs ++ cs → (Unload.system given).Run s bs v →
          (Unload.system given).Run v cs t → v.runtime.state ≠ .unloadBlocked) ∧
          ∀ why, .runtime (.enterUnloadBlocked why) ∉ as := by
  refine ⟨fun r c h => Runtime.call_unloadBlocked h c, ?_, ?_, ?_⟩
  · intro s as t k u hi h hs hk
    exact Unload.call_cleanup hi h hs hk
  · intro s as t hi h
    refine ⟨fun hb => ?_, fun hm => ((Destroy.traced_run h).stopped hm).2⟩
    exact Destroy.halted_run h (.inr (.inr ⟨hi, hb⟩))
  · intro s as t seen u hi h hs hu
    exact Unload.finalCheck_returned hi h hs hu

/-- What `SkEvtDriverUnload` passes. -/
def driverCallbacks : Unload.Callback → Bool
  | .sensorQuiesce | .sensorCleanup => true
  | .divertQuiesce | .divertCleanup => false

def untilCleanup : List Unload.Action :=
  [.begin, .call .sensorQuiesce, .runtime (.recordBlock .rundownStuck),
    .returned .sensorQuiesce true, .skip .divertQuiesce, .gate .teardown, .enterQuiescent]

def untilFinalCheck : List Unload.Action :=
  untilCleanup ++ [.call .sensorCleanup, .returned .sensorCleanup true, .skip .divertCleanup]

/-- The unload has reached `pc` in state `st`. -/
def atUnload (st : RuntimeState) (pc : Unload.Pc) : Unload.State :=
  ⟨⟨st, .rundownStuck, [.rundownStuck]⟩, true, true, pc⟩

def beforeUnload : Unload.State := ⟨⟨.active, .none, []⟩, true, true, .begin⟩

theorem untilCleanup_run : (Unload.system driverCallbacks).Run beforeUnload untilCleanup
    (atUnload .quiescent (.test .sensorCleanup)) :=
  .head (.begin rfl) <| .head (.call rfl rfl) <| .head .runtime <| .head (.returned rfl) <|
    .head (.skip rfl rfl) <| .head (.gate rfl) <| .head (.enterQuiescent rfl) .refl

theorem untilFinalCheck_run : (Unload.system driverCallbacks).Run beforeUnload untilFinalCheck
    (atUnload .quiescent .finalCheck) :=
  untilCleanup_run.append <|
    .head (.call rfl rfl) <| .head (.returned rfl) <| .head (.skip rfl rfl) .refl

/-- The rule store stops the destroy phase. -/
def stoppedDestroy : List Destroy.Action :=
  [.check, .destroy .inject, .destroy .flow, .destroy .rules,
    .runtime (.enterUnloadBlocked .rundownStuck), .shutdown false, .enterBlocked]

theorem stoppedDestroy_run : ∃ t, Destroy.system.Run
    ⟨⟨.quiescent, .none, []⟩, .check⟩ stoppedDestroy t :=
  ⟨_, .head (.check rfl) <| .head (.destroy rfl) <| .head (.destroy rfl) <|
    .head (.destroy rfl) <| .head .runtime <| .head (.shutdown rfl) <|
    .head (.enterBlocked rfl) .refl⟩

theorem unload_gate_run : Unload.Passed driverCallbacks untilCleanup ∧
    (∀ p, .destroy p ∈ stoppedDestroy → p.upToRules = true) ∧
    ∀ why, .runtime (.enterUnloadBlocked why) ∉ untilFinalCheck := by
  obtain ⟨-, hcall, hdestroy, hfinal⟩ := unload_gate driverCallbacks
  refine ⟨?_, ?_, ?_⟩
  · exact hcall _ _ _ .sensorCleanup _ ⟨rfl, rfl, rfl⟩ untilCleanup_run (.call rfl rfl) rfl
  · obtain ⟨t, ht⟩ := stoppedDestroy_run
    exact (hdestroy ⟨_, .check⟩ _ t rfl ht).2 (by decide)
  · exact (hfinal _ _ _ _ _ ⟨rfl, rfl, rfl⟩ untilFinalCheck_run (.finalCheck rfl) rfl).2

end Sentinel
