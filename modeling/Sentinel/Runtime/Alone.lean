import Sentinel.Runtime.Deferred
import Sentinel.Runtime.Recorded
import Sentinel.Wfp.Leaks

/-! The destroy phase runs alone: BFE does not call back and no WFP object is left. -/
namespace Sentinel.Driver

open Transition

variable {s t : State} {a : Action} {k : Callback} {cs : Multiset Callback} {m : WfpManager}
  {b : Bool} {q : Quiesce} {r : Replies}

/-! ### The callbacks between Acquire and Release -/

def Callback.isInside : Callback → Bool
  | .bfe k => k.isInside
  | .install | .installing _ => true

def State.inside (s : State) : ℕ := s.callbacks.countP (·.isInside = true)

/-- A CAS compares with a word that lets the callback in, and no Release is taken for an
underflow. -/
def Callback.Fit : Callback → Prop
  | .bfe (.acquireCas _ c) => rundownMayAcquire c = true
  | .bfe .rollback | .bfe .report => False
  | .bfe (.acquire _) | .bfe (.body _) | .bfe .release | .install | .installing _ => True

/-- The rundown word counts the callbacks inside. -/
structure Counted (s : State) : Prop where
  word : ∃ stopped, s.count = rundownWord s.inside stopped
  inside_le : s.inside ≤ 2 ^ 30
  fit : ∀ k ∈ s.callbacks, k.Fit

/-- The step leaves the word and the callbacks. -/
theorem Counted.of_eq (h : Counted s) (hn : t.count = s.count)
    (hc : t.callbacks = s.callbacks) : Counted t := by
  have hi : t.inside = s.inside := by rw [State.inside, hc, State.inside]
  refine ⟨?_, hi ▸ h.inside_le, hc ▸ h.fit⟩
  rw [hn, hi]
  exact h.word

/-- A callback goes on where it stands, or comes to stand outside at its next Acquire. -/
theorem Counted.move (h : Counted s) (k' : Callback) (hk : s.callbacks = k ::ₘ cs)
    (hc : t.callbacks = k' ::ₘ cs) (hn : t.count = s.count) (hi : k'.isInside = k.isInside)
    (hf : k'.Fit) : Counted t := by
  have hin : t.inside = s.inside := by
    simp [State.inside, hc, hk, Multiset.countP_cons, hi]
  refine ⟨?_, hin ▸ h.inside_le, fun x hx => ?_⟩
  · rw [hn, hin]
    exact h.word
  · rcases Multiset.mem_cons.mp (hc ▸ hx) with rfl | hx
    · exact hf
    · exact h.fit x (hk ▸ Multiset.mem_cons_of_mem hx)

/-- A callback that is turned away. -/
theorem Counted.leave (h : Counted s) (hk : s.callbacks = k ::ₘ cs) (hc : t.callbacks = cs)
    (hn : t.count = s.count) (hi : k.isInside = false) : Counted t := by
  have hin : t.inside = s.inside := by
    simp [State.inside, hc, hk, hi]
  refine ⟨?_, hin ▸ h.inside_le, fun x hx => ?_⟩
  · rw [hn, hin]
    exact h.word
  · exact h.fit x (hk ▸ Multiset.mem_cons_of_mem (hc ▸ hx))

/-- The CAS succeeds on a word without the stop bit. -/
theorem Counted.enter {st : Bfe.ServiceState} (h : Counted s)
    (hk : s.callbacks = .bfe (.acquireCas st s.count) ::ₘ cs)
    (hc : t.callbacks = .bfe (.body st) ::ₘ cs) (hn : t.count = s.count + 1#32) :
    Counted t := by
  have hin : t.inside = s.inside + 1 := by
    simp [State.inside, hc, hk, Callback.isInside, Bfe.Callback.isInside]
  obtain ⟨stopped, hw⟩ := h.word
  have hlt : s.inside < 2 ^ 30 := by
    have hf : (Callback.bfe (.acquireCas st s.count)).Fit :=
      h.fit _ (hk.symm ▸ Multiset.mem_cons_self _ cs)
    have hm : rundownMayAcquire s.count = true := hf
    rw [hw] at hm
    exact ((rundownMayAcquire_word h.inside_le).mp hm).2
  refine ⟨⟨stopped, ?_⟩, hin ▸ hlt, fun x hx => ?_⟩
  · rw [hn, hw, hin, rundownWord_succ]
  · rcases Multiset.mem_cons.mp (hc ▸ hx) with rfl | hx
    · trivial
    · exact h.fit x (hk ▸ Multiset.mem_cons_of_mem hx)

/-- A Release finds its own reference counted. -/
theorem Counted.release (h : Counted s) (hk : s.callbacks = .bfe .release ::ₘ cs) :
    rundownUnderflow s.count = false ∧
      (t.callbacks = cs → t.count = s.count - 1#32 → Counted t) := by
  obtain ⟨stopped, hw⟩ := h.word
  have hin : s.inside = cs.countP (·.isInside = true) + 1 := by
    rw [State.inside, hk]
    exact Multiset.countP_cons_of_pos cs rfl
  have hle := h.inside_le
  rw [hin] at hw hle
  refine ⟨?_, fun hc hn => ⟨⟨stopped, ?_⟩, ?_, fun x hx => ?_⟩⟩
  · rw [hw]
    exact rundownUnderflow_word (by omega)
  · rw [hn, hw, State.inside, hc, rundownWord_pred]
  · rw [State.inside, hc]
    omega
  · exact h.fit x (hk ▸ Multiset.mem_cons_of_mem (hc ▸ hx))

theorem counted_runCallback {r : InstallReplies} (h : Counted s) (hk : s.callbacks = k ::ₘ cs) :
    Counted (s.runCallback k cs r) := by
  have hfit : k.Fit := h.fit k (hk ▸ Multiset.mem_cons_self _ _)
  cases k with
  | bfe k =>
    cases k with
    | acquire st =>
      cases hm : rundownMayAcquire s.count with
      | true =>
        exact h.move (.bfe (.acquireCas st s.count)) hk
          (by simp [State.runCallback, Bfe.Callback.next, hm]) rfl rfl hm
      | false => exact h.leave hk (by simp [State.runCallback, Bfe.Callback.next, hm]) rfl rfl
    | acquireCas st c =>
      by_cases hc : s.count = c
      · subst hc
        exact h.enter hk (by simp [State.runCallback, Bfe.Callback.next])
          (by simp [State.runCallback, Bfe.Callback.count])
      · exact h.move (.bfe (.acquire st)) hk
          (by simp [State.runCallback, Bfe.Callback.next, hc])
          (by simp [State.runCallback, Bfe.Callback.count, hc]) rfl trivial
    | body st =>
      simp only [State.runCallback]
      split
      · exact h.move _ hk rfl rfl rfl trivial
      · exact h.move _ hk rfl rfl rfl trivial
    | release =>
      obtain ⟨hu, ht⟩ := h.release hk
      exact ht (by simp [State.runCallback, Bfe.Callback.next, hu]) rfl
    | rollback => exact absurd hfit id
    | report => exact absurd hfit id
  | install =>
    simp only [State.runCallback]
    split
    · exact h.move _ hk rfl rfl rfl trivial
    · exact h.move _ hk rfl rfl rfl trivial
    · exact h.move _ hk rfl rfl rfl trivial
  | installing p =>
    refine h.move (.bfe .release) hk rfl ?_ rfl trivial
    simp only [State.runCallback, State.install]
    split <;> rfl

/-! ### The way through a quiesce -/

/-- The rundown of the callbacks has been drained, if it is to be. -/
def Quiesce.isDrained (rollback : Bool) : Quiesce → Bool
  | .wfp => !rollback
  | .control | .writable | .events | .inject => rollback
  | .unsubscribe | .beginStop | .drain _ => false
  | .workItems | .running | .done => true

/-- The Teardown is over. -/
def Quiesce.isTornDown (rollback : Bool) : Quiesce → Bool
  | .control | .writable | .events | .inject | .unsubscribe | .beginStop | .drain _ => rollback
  | .wfp => false
  | .workItems | .running | .done => true

/-- Between the unsubscription and the end of the drain. -/
def Quiesce.isStopping : Quiesce → Bool
  | .beginStop | .drain _ => true
  | .control | .writable | .events | .inject | .unsubscribe | .wfp | .workItems | .running
  | .done => false

/-- What a step of a quiesce does to the callbacks, to the subscription and to WFP. -/
structure QuiesceStep (s t : State) (b : Bool) (q : Quiesce) (ok : Bool) (r : Replies) :
    Prop where
  callbacks : t.callbacks = s.callbacks
  steps : t.steps = s.steps
  unload : t.unload.pc = s.unload.pc ∧ t.unload.sensorOk = s.unload.sensorOk
  count : t.count = s.count ∨ q = .beginStop ∧ t.count = rundownBeginStop s.count
  hooks : t.handle = s.handle ∧ t.subscribed = s.subscribed ∨
    t.handle = false ∧ t.subscribed = false
  wfp : t.wfp = if q = .wfp then (s.manager.teardown r.wfp.toRemovals).1 else s.wfp
  main : ∃ q' ok', t.main = .quiesce b q' ok' ∧
    (q'.isStopping = true → q.isStopping = true ∨ t.handle = false) ∧
    (ok' = true → ok = true ∧
      (q'.isDrained b = true → q.isDrained b = true ∨ q.isStopping = true ∧ s.count = stopBit ∨
        b = true ∧ .bfe ∉ s.steps) ∧
      (q'.isTornDown b = true → q.isTornDown b = true ∨
        q = .wfp ∧ (s.manager.teardown r.wfp.toRemovals).2 = true))

theorem next_isStopping (b : Bool) (q : Quiesce) : (q.next b).isStopping = false := by
  cases q <;> cases b <;> rfl

theorem next_isDrained (hs : q.isStopping = false) (hu : q ≠ .unsubscribe)
    (h : (q.next b).isDrained b = true) : q.isDrained b = true := by
  cases q <;> cases b <;> simp_all [Quiesce.next, Quiesce.isDrained, Quiesce.isStopping]

theorem next_isTornDown (hq : q ≠ .wfp) (h : (q.next b).isTornDown b = true) :
    q.isTornDown b = true := by
  cases q <;> cases b <;> simp_all [Quiesce.next, Quiesce.isTornDown]

theorem quiesceStep_next {u : Unload.State} {w : WfpManager} {ok ok' : Bool}
    (hu : u.pc = s.unload.pc ∧ u.sensorOk = s.unload.sensorOk)
    (hw : w = if q = .wfp then (s.manager.teardown r.wfp.toRemovals).1 else s.wfp)
    (hok : ok' = true → ok = true ∧ (q.isStopping = true → s.count = stopBit) ∧
      (q = .unsubscribe → b = true ∧ .bfe ∉ s.steps) ∧
      (q = .wfp → (s.manager.teardown r.wfp.toRemovals).2 = true)) :
    QuiesceStep s { s with unload := u, wfp := w, main := .quiesce b (q.next b) ok' } b q ok r where
  callbacks := rfl
  steps := rfl
  unload := hu
  count := .inl rfl
  hooks := .inl ⟨rfl, rfl⟩
  wfp := hw
  main := by
    refine ⟨_, _, rfl, fun h => ?_, fun ho => ?_⟩
    · rw [next_isStopping] at h
      cases h
    obtain ⟨hk, hs, hn, ht⟩ := hok ho
    refine ⟨hk, fun h => ?_, fun h => ?_⟩
    · by_cases hst : q.isStopping = true
      · exact .inr (.inl ⟨hst, hs hst⟩)
      by_cases hun : q = .unsubscribe
      · exact .inr (.inr (hn hun))
      · exact .inl (next_isDrained (by simpa using hst) hun h)
    · by_cases hwfp : q = .wfp
      · exact .inr ⟨hwfp, ht hwfp⟩
      · exact .inl (next_isTornDown hwfp h)

/-- A step that ends in a test, but for the unsubscription, the drain and the Teardown. -/
theorem quiesceStep_check {ok passed : Bool} {rt : Runtime} (hs : q.isStopping = false)
    (hu : q ≠ .unsubscribe) (hw : q ≠ .wfp) :
    QuiesceStep s (s.check b q ok passed rt) b q ok r := by
  unfold State.check
  split
  · exact quiesceStep_next (u := s.unload) (w := s.wfp) ⟨rfl, rfl⟩ (if_neg hw).symm fun ho =>
      ⟨ho, by simp [hs], fun h => absurd h hu, fun h => absurd h hw⟩
  · exact quiesceStep_next (u := _) (w := s.wfp) ⟨rfl, rfl⟩ (if_neg hw).symm nofun

theorem quiesceStep_unsubscribe {ok : Bool} :
    QuiesceStep s (s.runQuiesce b .unsubscribe ok r) b .unsubscribe ok r := by
  have hfail : ∀ rt, QuiesceStep s (s.check b .unsubscribe ok false rt) b .unsubscribe ok r :=
    fun rt => quiesceStep_next (u := _) (w := s.wfp) ⟨rfl, rfl⟩ rfl nofun
  unfold State.runQuiesce
  split
  · rename_i hskip
    obtain ⟨hb, x, hx, hn⟩ := hskip
    cases hx
    exact quiesceStep_next (u := s.unload) (w := s.wfp) ⟨rfl, rfl⟩ rfl fun ho =>
      ⟨ho, nofun, fun _ => ⟨hb, hn⟩, nofun⟩
  simp only
  split
  · split
    · exact ⟨rfl, rfl, ⟨rfl, rfl⟩, .inl rfl, .inr ⟨rfl, rfl⟩, rfl, _, _, rfl,
        fun _ => .inr rfl, fun ho => ⟨ho, nofun, fun h => .inl h⟩⟩
    · exact hfail _
  · rename_i hh
    exact ⟨rfl, rfl, ⟨rfl, rfl⟩, .inl rfl, .inl ⟨rfl, rfl⟩, rfl, _, _, rfl,
      fun _ => .inr (by simpa using hh), fun ho => ⟨ho, nofun, fun h => .inl h⟩⟩

theorem quiesceStep_drain {ok : Bool} {i : ℕ} :
    QuiesceStep s (s.runQuiesce b (.drain i) ok r) b (.drain i) ok r := by
  simp only [State.runQuiesce, Quiesce.step, Option.mem_def, reduceCtorEq, false_and,
    exists_false, and_false, if_false]
  split
  · rename_i hc
    exact quiesceStep_next (u := s.unload) (w := s.wfp) ⟨rfl, rfl⟩ rfl fun ho =>
      ⟨ho, fun _ => hc, by rintro ⟨⟩, by rintro ⟨⟩⟩
  split
  · exact quiesceStep_next (u := _) (w := s.wfp) ⟨rfl, rfl⟩ rfl (by rintro ⟨⟩)
  · exact ⟨rfl, rfl, ⟨rfl, rfl⟩, .inl rfl, .inl ⟨rfl, rfl⟩, rfl, _, _, rfl,
      fun _ => .inl rfl, fun ho => ⟨ho, by rintro ⟨⟩, fun h => .inl h⟩⟩

theorem runQuiesce_step {ok : Bool} (hm : s.main = .quiesce b q ok)
    (hq : b = true → q ≠ .done) : QuiesceStep s (s.runQuiesce b q ok r) b q ok r := by
  by_cases hu : q = .unsubscribe
  · subst hu
    exact quiesceStep_unsubscribe
  by_cases hd : ∃ i, q = .drain i
  · obtain ⟨i, rfl⟩ := hd
    exact quiesceStep_drain
  unfold State.runQuiesce
  split
  · rename_i hskip
    obtain ⟨hb, x, hx, -⟩ := hskip
    have hs : q.isStopping = false := by
      cases q <;> first | rfl | simp [Quiesce.step] at hx
    have hw : q ≠ .wfp := by
      rintro rfl
      simp [Quiesce.step] at hx
    exact quiesceStep_next (u := s.unload) (w := s.wfp) ⟨rfl, rfl⟩ (if_neg hw).symm fun ho =>
      ⟨ho, by simp [hs], fun h => absurd h hu, fun h => absurd h hw⟩
  cases q with
  | unsubscribe => exact absurd rfl hu
  | drain i => exact absurd ⟨i, rfl⟩ hd
  | beginStop =>
    exact ⟨rfl, rfl, ⟨rfl, rfl⟩, .inr ⟨rfl, rfl⟩, .inl ⟨rfl, rfl⟩, rfl, _, _, rfl,
      fun _ => .inl rfl, fun ho => ⟨ho, by rintro ⟨⟩, fun h => .inl h⟩⟩
  | wfp =>
    simp only [State.check]
    split
    · rename_i hp
      exact quiesceStep_next (u := s.unload) ⟨rfl, rfl⟩ rfl fun ho =>
        ⟨ho, by rintro ⟨⟩, (by rintro ⟨⟩), fun _ => hp⟩
    · exact quiesceStep_next (u := _) ⟨rfl, rfl⟩ rfl (by rintro ⟨⟩)
  | done =>
    cases b with
    | true => exact absurd rfl (hq rfl)
    | false =>
      exact ⟨rfl, rfl, ⟨rfl, rfl⟩, .inl rfl, .inl ⟨rfl, rfl⟩, rfl, _, _, hm,
        (by rintro ⟨⟩), fun ho => ⟨ho, fun _ => .inl rfl, fun _ => .inl rfl⟩⟩
  | _ => exact quiesceStep_check rfl (by rintro ⟨⟩) (by rintro ⟨⟩)

/-! ### Where the main thread stands -/

/-- BFE has not been asked to call back, or the rollback has nothing to unsubscribe. -/
def State.Unsubscribed (s : State) : Prop :=
  match s.main with
  | .init false | .initCount false | .create | .start _ | .subscribe => True
  | .bfeState | .install | .installing _ | .rollback | .quiesce true _ _ => .bfe ∉ s.steps
  | .init true | .initCount true | .activate | .loaded | .quiesce false _ _ | .rollbackDestroy
  | .blockStart | .failed | .unload | .destroy _ => False

/-- The runtime has not become active yet and will not any more if this is a rollback. -/
def Main.isInactive : Main → Bool
  | .init _ | .initCount _ | .create | .start _ | .subscribe | .bfeState | .install
  | .installing _ | .activate | .rollback | .quiesce true _ _ | .rollbackDestroy | .blockStart
  | .failed => true
  | .loaded | .quiesce false _ _ | .unload | .destroy _ => false

def Callback.installs : Callback → Bool
  | .install | .installing _ => true
  | .bfe _ => false

/-- Every step of the quiesce so far has passed, and `f` says that it has come far enough. -/
def State.Past (f : Bool → Quiesce → Bool) (s : State) : Prop :=
  match s.main with
  | .quiesce b q ok => ok = true ∧ f b q = true
  | .rollbackDestroy | .destroy _ => True
  | .unload => s.unload.sensorOk = true ∧ 1 < s.unload.pc.stage
  | .init _ | .initCount _ | .create | .start _ | .subscribe | .bfeState | .install
  | .installing _ | .activate | .loaded | .rollback | .blockStart | .failed => False

/-- BFE does not call back, and the callbacks under way are turned away. -/
structure Cut (s : State) : Prop where
  subscribed : s.subscribed = false
  shut : s.callbacks = 0 ∨ s.count = stopBit

theorem Cut.inside (h : Cut s) (hc : Counted s) : s.inside = 0 := by
  rcases h.shut with h0 | hs
  · rw [State.inside, h0, Multiset.countP_zero]
  · obtain ⟨stopped, hw⟩ := hc.word
    have hle := hc.inside_le
    rw [hs] at hw
    exact ((rundownWord_eq_stopBit (by omega)).mp hw.symm).2

/-- `ShRundownInit` runs while no callback is inside, and the WFP calls leave no LEAKED object
behind a closed engine. -/
def Guarded (s : State) : Action → Prop
  | .main r =>
    match s.main with
    | .initCount _ => s.inside = 0
    | .installing _ => s.manager.LeakSafe (.install r.wfp)
    | .quiesce _ .wfp _ => s.manager.LeakSafe (.teardown r.wfp.toRemovals)
    | _ => True
  | .callback (.installing _) r => s.manager.LeakSafe (.install r)
  | .callback (.bfe _) _ | .callback .install _ | .bfe _ | .report | .reportCheck
  | .reportEnter | .unload _ | .quiescentCheck | .quiescentEnter | .quiesced _ | .destroy _
  | .shutdownStuck | .destroyed => True

structure Standing (s : State) : Prop where
  setUp : SetUp s
  counted : Counted s
  leaks : s.wfp.LeakInvariant
  handle : s.handle = s.subscribed
  unsubscribed : s.Unsubscribed → s.subscribed = false ∧ s.callbacks = 0
  stopping : ∀ b q ok, s.main = .quiesce b q ok → q.isStopping = true → s.subscribed = false
  inactive : s.main.isInactive = true → ∀ k ∈ s.callbacks, k.installs = false
  passed : 4 < s.unload.pc.stage → s.unload.sensorOk = true
  cut : s.Past Quiesce.isDrained → Cut s
  removed : s.Past Quiesce.isTornDown → s.wfp.Removed

theorem standing_initial (service : Bfe.ServiceState) : Standing (initial service) where
  setUp := setUp_initial service
  counted := ⟨⟨false, rundownWord_init.symm⟩, Nat.zero_le _,
    fun k hk => absurd hk (Multiset.notMem_zero k)⟩
  leaks := WfpManager.leakInvariant_initial
  handle := rfl
  unsubscribed _ := ⟨rfl, rfl⟩
  stopping := by
    intro b q ok hm
    cases hm
  inactive _ k hk := absurd hk (Multiset.notMem_zero k)
  passed h := absurd h (Nat.not_lt_zero 4)
  cut := False.elim
  removed := False.elim

/-! ### Steps of other threads -/

/-- What is left of WFP objects does not depend on the runtime. -/
theorem removed_runtime (h : m.Removed) (rt : Runtime) :
    WfpManager.Removed { m with runtime := rt } :=
  ⟨h.engineObj, h.provider, h.sublayer, h.slots⟩

theorem leaks_runtime (h : m.LeakInvariant) (rt : Runtime) :
    WfpManager.LeakInvariant { m with runtime := rt } where
  sound := h.sound
  provider := h.provider
  sublayer := h.sublayer
  closedOverLeaked := h.closedOverLeaked
  leaked hl := ⟨(h.leaked hl).1, (h.leaked hl).2.provider, (h.leaked hl).2.sublayer,
    (h.leaked hl).2.slots⟩
  installed := h.installed
  removed hl hi := ⟨(h.removed hl hi).1, removed_runtime (h.removed hl hi).2 rt⟩

theorem past_congr {f : Bool → Quiesce → Bool} (hm : t.main = s.main)
    (hpc : t.unload.pc = s.unload.pc) (ho : t.unload.sensorOk = s.unload.sensorOk) :
    t.Past f ↔ s.Past f := by
  unfold State.Past
  rw [hm, hpc, ho]

theorem unsubscribed_congr (hm : t.main = s.main) (hs : t.steps = s.steps) :
    t.Unsubscribed ↔ s.Unsubscribed := by
  unfold State.Unsubscribed
  rw [hm, hs]

/-- No Install is made any more once the Teardown is over. -/
theorem Standing.quiet (h : Standing s) (hp : s.Past Quiesce.isTornDown) (hk : k ∈ s.callbacks) :
    k.installs = false := by
  have hcut : s.Past Quiesce.isDrained → k.installs = false := by
    intro hd
    have h0 := (h.cut hd).inside h.counted
    rw [State.inside, Multiset.countP_eq_zero] at h0
    have hki := h0 k hk
    cases k with
    | bfe => rfl
    | install => exact absurd rfl hki
    | installing => exact absurd rfl hki
  cases hm : s.main with
  | quiesce b q ok =>
    cases b with
    | true => exact h.inactive (by rw [hm]; rfl) k hk
    | false =>
      simp only [State.Past, hm] at hp hcut
      refine hcut ⟨hp.1, ?_⟩
      cases q <;> first | rfl | simp [Quiesce.isTornDown] at hp
  | rollbackDestroy => exact h.inactive (by rw [hm]; rfl) k hk
  | destroy =>
    simp only [State.Past, hm] at hcut
    exact hcut trivial
  | unload =>
    simp only [State.Past, hm] at hp hcut
    exact hcut hp
  | _ => simp [State.Past, hm] at hp

theorem cut_runCallback {r : InstallReplies} (h : Cut s) (hc : Counted s)
    (hk : s.callbacks = k ::ₘ cs) : Cut (s.runCallback k cs r) := by
  have hfit : k.Fit := hc.fit k (hk ▸ Multiset.mem_cons_self _ _)
  have hout : k.isInside ≠ true := by
    have h0 := h.inside hc
    rw [State.inside, Multiset.countP_eq_zero] at h0
    exact h0 k (hk ▸ Multiset.mem_cons_self _ _)
  refine ⟨runCallback_elsewhere.1.subscribed.trans h.subscribed, .inr ?_⟩
  have hs : s.count = stopBit := by
    rcases h.shut with h0 | hs
    · rw [h0] at hk
      exact absurd hk.symm (Multiset.cons_ne_zero)
    · exact hs
  cases k with
  | bfe k =>
    cases k with
    | acquire st => exact hs
    | acquireCas st c =>
      have hne : s.count ≠ c := by
        intro he
        have hm : rundownMayAcquire c = true := hfit
        rw [← he, hs] at hm
        cases hm
      simpa [State.runCallback, Bfe.Callback.count, hne] using hs
    | body => exact absurd rfl hout
    | release => exact absurd rfl hout
    | rollback => exact absurd hfit id
    | report => exact absurd hfit id
  | install => exact absurd rfl hout
  | installing => exact absurd rfl hout

theorem runCallback_steps {r : InstallReplies} : (s.runCallback k cs r).steps = s.steps ∧
    (s.runCallback k cs r).handle = s.handle := by
  cases k with
  | bfe k =>
    cases k with
    | body st =>
      simp only [State.runCallback]
      split <;> exact ⟨rfl, rfl⟩
    | _ => exact ⟨rfl, rfl⟩
  | install =>
    simp only [State.runCallback]
    split <;> exact ⟨rfl, rfl⟩
  | installing p =>
    simp only [State.runCallback, State.install]
    split <;> exact ⟨rfl, rfl⟩

/-- Before the runtime is active a callback does not come to an Install. -/
theorem inactive_runCallback {r : InstallReplies} (hS : SetUp s)
    (hm : s.main.isInactive = true) (hk : s.callbacks = k ::ₘ cs)
    (h : ∀ k ∈ s.callbacks, k.installs = false) :
    ∀ k' ∈ (s.runCallback k cs r).callbacks, k'.installs = false := by
  have hold : ∀ x ∈ cs, x.installs = false := fun x hx => h x (hk ▸ Multiset.mem_cons_of_mem hx)
  have hself : k.installs = false := h k (hk ▸ Multiset.mem_cons_self _ _)
  have hcons : ∀ k : Bfe.Callback, ∀ x ∈ (Callback.bfe k) ::ₘ cs, x.installs = false := by
    intro k x hx
    rcases Multiset.mem_cons.mp hx with rfl | hx
    · rfl
    · exact hold x hx
  have helim : ∀ n : Option Bfe.Callback, ∀ x ∈ n.elim cs (.bfe · ::ₘ cs),
      x.installs = false := by
    intro n
    cases n with
    | none => exact hold
    | some k => exact hcons k
  cases k with
  | bfe k =>
    cases k with
    | body st =>
      have hna : s.runtime.isActive = false := by
        by_contra ha
        have hl := hS.active (by simpa [Runtime.isActive] using ha)
        simp [hl, Main.isInactive] at hm
      simp only [State.runCallback, hna, Bool.false_eq_true, false_and, and_false, if_false]
      exact hcons _
    | report => exact hold
    | acquire st => exact helim (Bfe.Callback.next s.count (.acquire st))
    | acquireCas st c => exact helim (Bfe.Callback.next s.count (.acquireCas st c))
    | release => exact helim (Bfe.Callback.next s.count .release)
    | rollback => exact helim (Bfe.Callback.next s.count .rollback)
  | install => cases hself
  | installing => cases hself

/-- An Install that leaks nothing under its guard keeps the manager sound. -/
theorem leaks_install {p : ℕ} {r : InstallReplies} (h : s.wfp.LeakInvariant)
    (hg : s.manager.LeakSafe (.install r)) : (s.install p r).wfp.LeakInvariant := by
  have hi : (s.manager.install r).1.LeakInvariant :=
    WfpManager.install_leakInvariant (leaks_runtime h s.runtime) hg
  simp only [State.install]
  split <;> exact hi

theorem runCallback_wfp {r : InstallReplies} (h : k.installs = false) :
    (s.runCallback k cs r).wfp = s.wfp := by
  cases k with
  | bfe k =>
    cases k with
    | body st =>
      simp only [State.runCallback]
      split <;> rfl
    | _ => rfl
  | install => cases h
  | installing => cases h

theorem standing_callback {r : InstallReplies} (h : Standing s) (hS : SetUp (s.runCallback k cs r))
    (hg : Guarded s (.callback k r)) (hk : s.callbacks = k ::ₘ cs) :
    Standing (s.runCallback k cs r) := by
  have he : Elsewhere s (s.runCallback k cs r) := runCallback_elsewhere.1
  have hst : (s.runCallback k cs r).steps = s.steps := runCallback_steps.1
  have hh : (s.runCallback k cs r).handle = s.handle := runCallback_steps.2
  have hmem : k ∈ s.callbacks := hk ▸ Multiset.mem_cons_self _ _
  have hpc : (s.runCallback k cs r).unload.pc = s.unload.pc ∧
      (s.runCallback k cs r).unload.sensorOk = s.unload.sensorOk := by
    rw [he.unload]
    exact ⟨rfl, rfl⟩
  have hpast : ∀ f, (s.runCallback k cs r).Past f → s.Past f :=
    fun f => (past_congr he.main hpc.1 hpc.2).mp
  refine ⟨hS, counted_runCallback h.counted hk, ?_, ?_, fun hu => ?_, fun b q ok hm hq => ?_,
    fun hm => ?_, fun hs => ?_, fun hp => cut_runCallback (h.cut (hpast _ hp)) h.counted hk,
    fun hp => ?_⟩
  · cases k with
    | bfe k =>
      rw [runCallback_wfp (k := .bfe k) rfl]
      exact h.leaks
    | install =>
      simp only [State.runCallback]
      split <;> exact h.leaks
    | installing p => exact leaks_install h.leaks hg
  · rw [hh, he.subscribed]
    exact h.handle
  · have h0 := (h.unsubscribed ((unsubscribed_congr he.main hst).mp hu)).2
    rw [h0] at hk
    exact absurd hk.symm Multiset.cons_ne_zero
  · rw [he.subscribed]
    exact h.stopping b q ok (he.main ▸ hm) hq
  · rw [he.main] at hm
    exact inactive_runCallback h.setUp hm hk (h.inactive hm)
  · rw [hpc.2]
    exact h.passed (hpc.1 ▸ hs)
  · rw [runCallback_wfp (h.quiet (hpast _ hp) hmem)]
    exact h.removed (hpast _ hp)

/-! ### Steps of the main thread -/

/-- A step that leaves BFE, its callbacks and WFP alone and does not come past a part of the
quiesce. -/
structure Frame (s t : State) : Prop where
  count : t.count = s.count
  callbacks : t.callbacks = s.callbacks
  wfp : t.wfp = s.wfp
  handle : t.handle = s.handle
  subscribed : t.subscribed = s.subscribed
  unsubscribed : t.Unsubscribed → s.Unsubscribed
  stopping : ∀ b q ok, t.main = .quiesce b q ok → q.isStopping = false
  inactive : t.main.isInactive = true → s.main.isInactive = true
  passed : 4 < t.unload.pc.stage → t.unload.sensorOk = true
  past : ∀ f : Bool → Quiesce → Bool, f true .wfp = false → f false .control = false →
    (∀ b, f b .done = true) → t.Past f → s.Past f

theorem Standing.frame (h : Standing s) (hf : Frame s t) (hS : SetUp t) : Standing t where
  setUp := hS
  counted := h.counted.of_eq hf.count hf.callbacks
  leaks := hf.wfp ▸ h.leaks
  handle := by rw [hf.handle, hf.subscribed, h.handle]
  unsubscribed hu := by
    rw [hf.subscribed, hf.callbacks]
    exact h.unsubscribed (hf.unsubscribed hu)
  stopping b q ok hm hq := by
    rw [hf.stopping b q ok hm] at hq
    cases hq
  inactive hm := by
    rw [hf.callbacks]
    exact h.inactive (hf.inactive hm)
  passed := hf.passed
  cut hp := by
    have hc := h.cut (hf.past _ rfl rfl (fun _ => rfl) hp)
    exact ⟨hf.subscribed.trans hc.subscribed, by rw [hf.callbacks, hf.count]; exact hc.shut⟩
  removed hp := by
    rw [hf.wfp]
    exact h.removed (hf.past _ rfl rfl (fun _ => rfl) hp)

/-- The steps of `DriverEntry` before and after those that touch BFE or WFP. -/
theorem frame_runMain (h : Standing s)
    (hm : (∀ b, s.main ≠ .initCount b) ∧ s.main ≠ .subscribe ∧ (∀ p, s.main ≠ .installing p) ∧
      ∀ b q ok, s.main ≠ .quiesce b q ok) : Frame s (s.runMain r) := by
  obtain ⟨hc, hs, hi, hq⟩ := hm
  have hp := h.passed
  cases hm : s.main with
  | initCount b => exact absurd hm (hc b)
  | subscribe => exact absurd hm hs
  | installing p => exact absurd hm (hi p)
  | quiesce b q ok => exact absurd hm (hq b q ok)
  | init b =>
    cases b <;> simp only [State.runMain, hm] <;> split <;>
      refine ⟨rfl, rfl, rfl, rfl, rfl, ?_, ?_, ?_, hp, ?_⟩ <;>
      simp [State.Unsubscribed, State.Past, Main.isInactive, hm]
  | start x =>
    simp only [State.runMain, hm]
    split
    · cases x <;> refine ⟨rfl, rfl, rfl, rfl, rfl, ?_, ?_, ?_, hp, ?_⟩ <;>
        simp [State.Unsubscribed, State.Past, Main.isInactive, hm]
    · refine ⟨rfl, rfl, rfl, rfl, rfl, ?_, ?_, ?_, hp, ?_⟩ <;>
        simp [State.Unsubscribed, State.Past, Main.isInactive, hm]
  | _ =>
    simp only [State.runMain, hm]
    repeat' split
    all_goals
      refine ⟨rfl, rfl, rfl, rfl, rfl, ?_, ?_, ?_, hp, ?_⟩ <;>
        simp +contextual [State.Unsubscribed, State.Past, State.write, Main.isInactive,
          Quiesce.isStopping, hm]

theorem standing_initCount {b : Bool} (h : Standing s) (hS : SetUp (s.runMain r))
    (hm : s.main = .initCount b) (h0 : s.inside = 0) : Standing (s.runMain r) := by
  simp only [State.runMain, hm] at hS ⊢
  refine ⟨hS, ⟨⟨false, ?_⟩, h.counted.inside_le, h.counted.fit⟩, h.leaks, h.handle, fun hu => ?_,
    fun b' q ok hq => ?_, fun _ => ?_, h.passed, fun hp => ?_, fun hp => ?_⟩
  · change 0#32 = rundownWord s.inside false
    rw [h0, rundownWord_init]
  · refine h.unsubscribed ?_
    cases b <;> simp_all [State.Unsubscribed]
  · cases b <;> cases hq
  · exact h.inactive (by rw [hm]; rfl)
  · cases b <;> exact False.elim hp
  · cases b <;> exact False.elim hp

theorem standing_subscribe (h : Standing s) (hS : SetUp (s.runMain r)) (hm : s.main = .subscribe) :
    Standing (s.runMain r) := by
  have hin : ∀ k ∈ s.callbacks, k.installs = false := h.inactive (by rw [hm]; rfl)
  obtain ⟨hsub, hcb⟩ := h.unsubscribed (by simp [State.Unsubscribed, hm])
  simp only [State.runMain, hm] at hS ⊢
  split at hS <;> rename_i hok
  · simp only [hok, if_true]
    refine ⟨hS, h.counted.of_eq rfl rfl, h.leaks, rfl, fun hu => ?_, ?_, fun _ => hin,
      h.passed, False.elim, False.elim⟩
    · exact absurd List.mem_cons_self hu
    · rintro b q ok ⟨⟩
  · simp only [hok, Bool.false_eq_true, if_false]
    refine ⟨hS, h.counted.of_eq rfl rfl, h.leaks, hsub.symm, fun _ => ⟨hsub, hcb⟩, ?_,
      fun _ => hin, h.passed, False.elim, False.elim⟩
    rintro b q ok ⟨⟩

theorem standing_installing {p : ℕ} (h : Standing s) (hS : SetUp (s.runMain r))
    (hm : s.main = .installing p) (hg : s.manager.LeakSafe (.install r.wfp)) :
    Standing (s.runMain r) := by
  have hin : ∀ k ∈ s.callbacks, k.installs = false := h.inactive (by rw [hm]; rfl)
  have hl := leaks_install (p := p) h.leaks hg
  have hun := h.unsubscribed
  simp only [State.Unsubscribed, hm] at hun
  simp only [State.runMain, hm] at hS ⊢
  have hi : (s.install p r.wfp).callbacks = s.callbacks ∧
      (s.install p r.wfp).count = s.count ∧ (s.install p r.wfp).handle = s.handle ∧
      (s.install p r.wfp).subscribed = s.subscribed ∧ (s.install p r.wfp).steps = s.steps ∧
      (s.install p r.wfp).unload.pc = s.unload.pc ∧
      (s.install p r.wfp).unload.sensorOk = s.unload.sensorOk := by
    simp only [State.install]
    split <;> exact ⟨rfl, rfl, rfl, rfl, rfl, rfl, rfl⟩
  obtain ⟨hc, hn, hh, hsub, hst, hpc, ho⟩ := hi
  refine ⟨hS, h.counted.of_eq hn hc, hl, ?_, fun hu => ?_, fun b q ok hq => ?_, fun _ => ?_,
    fun h4 => ?_, fun hp => ?_, fun hp => ?_⟩
  · exact hh.trans (h.handle.trans hsub.symm)
  · change (s.install p r.wfp).subscribed = false ∧ (s.install p r.wfp).callbacks = 0
    rw [hsub, hc]
    refine hun ?_
    split at hu
    · exact False.elim hu
    · exact hst ▸ hu
  · simp only at hq
    split at hq <;> cases hq
  · exact hc.symm ▸ hin
  · exact ho.trans (h.passed (hpc ▸ h4))
  · cases hok : ntSuccess (s.manager.install r.wfp).2 <;> simp [State.Past, hok] at hp
  · cases hok : ntSuccess (s.manager.install r.wfp).2 <;> simp [State.Past, hok] at hp

theorem cut_quiesce {ok : Bool} (h : Cut s) (ht : QuiesceStep s t b q ok r) : Cut t := by
  refine ⟨?_, ?_⟩
  · rcases ht.hooks with hk | hk
    · exact hk.2.trans h.subscribed
    · exact hk.2
  · rw [ht.callbacks]
    rcases h.shut with h0 | hs
    · exact .inl h0
    right
    rcases ht.count with hn | ⟨-, hn⟩
    · exact hn.trans hs
    · rw [hn, hs]
      decide

theorem standing_quiesce {ok : Bool} (h : Standing s) (hS : SetUp t) (hm : s.main = .quiesce b q ok)
    (ht : QuiesceStep s t b q ok r)
    (hg : q = .wfp → s.manager.LeakSafe (.teardown r.wfp.toRemovals)) : Standing t := by
  obtain ⟨q', ok', hm', hstop, hok⟩ := ht.main
  have hsub : s.subscribed = false → t.subscribed = false := by
    intro hs
    rcases ht.hooks with hk | hk
    · exact hk.2.trans hs
    · exact hk.2
  have hhandle : t.handle = t.subscribed := by
    rcases ht.hooks with hk | hk
    · exact hk.1.trans (h.handle.trans hk.2.symm)
    · exact hk.1.trans hk.2.symm
  have hstep : b = true ∧ .bfe ∉ s.steps → s.subscribed = false ∧ s.callbacks = 0 := by
    rintro ⟨rfl, hn⟩
    exact h.unsubscribed (by simpa [State.Unsubscribed, hm] using hn)
  have hteardown := fun hq => WfpManager.teardown_leakInvariant (leaks_runtime h.leaks s.runtime)
    (hg hq)
  refine ⟨hS, ?_, ?_, hhandle, fun hu => ?_, fun b₁ q₁ ok₁ hq₁ hs => ?_, fun hi => ?_, ?_,
    fun hp => ?_, fun hp => ?_⟩
  · rcases ht.count with hn | ⟨-, hn⟩
    · exact h.counted.of_eq hn ht.callbacks
    · obtain ⟨stopped, hw⟩ := h.counted.word
      have hin : t.inside = s.inside := by rw [State.inside, ht.callbacks, State.inside]
      have hle := h.counted.inside_le
      refine ⟨⟨true, ?_⟩, hin ▸ hle, ht.callbacks ▸ h.counted.fit⟩
      rw [hn, hw, hin]
      exact rundownBeginStop_word (by omega)
  · rw [ht.wfp]
    split
    · exact (hteardown ‹_›).1
    · exact h.leaks
  · cases b with
    | false =>
      simp only [State.Unsubscribed, hm'] at hu
    | true =>
      simp only [State.Unsubscribed, hm'] at hu
      rw [ht.callbacks]
      obtain ⟨hs, hc⟩ := hstep ⟨rfl, ht.steps ▸ hu⟩
      exact ⟨hsub hs, hc⟩
  · rw [hm'] at hq₁
    cases hq₁
    rcases hstop hs with hq | hh
    · exact hsub (h.stopping _ _ _ hm hq)
    · exact hhandle.symm.trans hh
  · rw [ht.callbacks]
    refine h.inactive ?_
    rw [hm'] at hi
    rw [hm]
    cases b <;> exact hi
  · rw [ht.unload.1, ht.unload.2]
    exact h.passed
  · simp only [State.Past, hm'] at hp
    obtain ⟨hk, hd, -⟩ := hok hp.1
    rcases hd hp.2 with hq | ⟨hq, hc⟩ | hn
    · exact cut_quiesce (h.cut (by simp [State.Past, hm, hk, hq])) ht
    · exact cut_quiesce ⟨h.stopping _ _ _ hm hq, .inr hc⟩ ht
    · obtain ⟨hs, hc⟩ := hstep hn
      exact cut_quiesce ⟨hs, .inl hc⟩ ht
  · simp only [State.Past, hm'] at hp
    obtain ⟨hk, -, htorn⟩ := hok hp.1
    rcases htorn hp.2 with hq | ⟨hq, hpass⟩
    · have hw : q ≠ .wfp := by
        rintro rfl
        simp [Quiesce.isTornDown] at hq
      rw [ht.wfp, if_neg hw]
      exact h.removed (by simp [State.Past, hm, hk, hq])
    · rw [ht.wfp, if_pos hq]
      exact (hteardown hq).2.2 hpass

/-- The end of a rollback's quiesce. -/
theorem frame_done {ok : Bool} (h : Standing s) (hm : s.main = .quiesce true .done ok) :
    Frame s (s.runMain r) := by
  have hp := h.passed
  cases ok <;> simp only [State.runMain, hm, State.runQuiesce, Quiesce.step, Option.mem_def,
      reduceCtorEq, false_and, exists_false, and_false, if_false, if_true, Bool.false_eq_true] <;>
    refine ⟨rfl, rfl, rfl, rfl, rfl, ?_, ?_, ?_, hp, ?_⟩ <;>
    simp +contextual [State.Unsubscribed, State.Past, Main.isInactive, hm]

theorem standing_main (h : Standing s) (hS : SetUp (s.runMain r))
    (hg : Guarded s (.main r)) : Standing (s.runMain r) := by
  simp only [Guarded] at hg
  cases hm : s.main with
  | initCount b =>
    rw [hm] at hg
    exact standing_initCount h hS hm hg
  | subscribe => exact standing_subscribe h hS hm
  | installing p =>
    rw [hm] at hg
    exact standing_installing h hS hm hg
  | quiesce b q ok =>
    by_cases hq : b = true ∧ q = .done
    · obtain ⟨rfl, rfl⟩ := hq
      exact h.frame (frame_done h hm) hS
    have ht : QuiesceStep s (s.runMain r) b q ok r := by
      have hrun : s.runMain r = s.runQuiesce b q ok r := by simp only [State.runMain, hm]
      rw [hrun]
      exact runQuiesce_step hm fun hb he => hq ⟨hb, he⟩
    refine standing_quiesce h hS hm ht ?_
    rintro rfl
    rw [hm] at hg
    exact hg
  | _ => exact h.frame (frame_runMain h (by simp [hm])) hS

/-! ### Steps of the unload -/

/-- A step that leaves the place of the main thread. -/
theorem frame_same (h : Standing s) (hn : t.count = s.count) (hc : t.callbacks = s.callbacks)
    (hw : t.wfp = s.wfp) (hh : t.handle = s.handle) (hsub : t.subscribed = s.subscribed)
    (hst : t.steps = s.steps) (hm : t.main = s.main) (hpc : t.unload.pc = s.unload.pc)
    (ho : t.unload.sensorOk = s.unload.sensorOk) (hS : SetUp t) : Standing t where
  setUp := hS
  counted := h.counted.of_eq hn hc
  leaks := hw ▸ h.leaks
  handle := by rw [hh, hsub, h.handle]
  unsubscribed hu := by
    rw [hsub, hc]
    exact h.unsubscribed ((unsubscribed_congr hm hst).mp hu)
  stopping b q ok hq hs := hsub.trans (h.stopping b q ok (hm ▸ hq) hs)
  inactive hi := by
    rw [hc]
    exact h.inactive (hm ▸ hi)
  passed := by
    rw [hpc, ho]
    exact h.passed
  cut hp := by
    have hcut := h.cut ((past_congr hm hpc ho).mp hp)
    exact ⟨hsub.trans hcut.subscribed, by rw [hc, hn]; exact hcut.shut⟩
  removed hp := hw ▸ h.removed ((past_congr hm hpc ho).mp hp)

/-- What a step of the unload outside its quiesce has to show. -/
theorem frame_moved {u : Unload.State} {x : Main} (hx : x = .unload ∨ ∃ pc, x = .destroy pc)
    (hp : 4 < u.pc.stage → u.sensorOk = true)
    (hf : ∀ f : Bool → Quiesce → Bool, (∀ b, f b .done = true) →
      State.Past f { s with unload := u, main := x } → s.Past f) :
    Frame s { s with unload := u, main := x } := by
  rcases hx with rfl | ⟨pc, rfl⟩
  · exact ⟨rfl, rfl, rfl, rfl, rfl, False.elim, nofun, nofun, hp, fun f _ _ => hf f⟩
  · exact ⟨rfl, rfl, rfl, rfl, rfl, False.elim, nofun, nofun, hp, fun f _ _ => hf f⟩

theorem frame_inside {x : Unload.Action} {u : Unload.State} (hm : s.main = .unload)
    (hx : afterUnload x = .unload) (hp : 4 < u.pc.stage → u.sensorOk = true)
    (hs : 1 < s.unload.pc.stage) (ho : u.sensorOk = s.unload.sensorOk) :
    Frame s { s with unload := u, main := afterUnload x } := by
  refine frame_moved (.inl hx) hp fun f _ h => ?_
  rw [hx] at h
  simp only [State.Past, hm]
  exact ⟨ho ▸ h.1, hs⟩

theorem frame_unload {x : Unload.Action} {u : Unload.State} (h : Standing s)
    (hm : s.main = if x = .begin then .loaded else .unload)
    (hx : (∀ c, x ≠ .runtime c) ∧ ∀ k ok, x ≠ .returned k ok)
    (hu : Unload.Step driverCallbacks s.unload x u) :
    Frame s { s with unload := u, main := afterUnload x } := by
  have hp := h.passed
  have hlow : ∀ {n : ℕ} {c : Prop}, n ≤ 4 → 4 < n → c := fun hle hlt => absurd hlt hle.not_gt
  cases hu with
  | runtime => exact absurd rfl (hx.1 _)
  | returned => exact absurd rfl (hx.2 _ _)
  | begin =>
    refine frame_moved (.inl rfl) (hlow (by decide : 1 ≤ 4)) fun f _ h => ?_
    exact absurd h.2 (lt_irrefl 1)
  | @call k hpc hk =>
    cases k with
    | sensorQuiesce =>
      refine ⟨rfl, rfl, rfl, rfl, rfl, False.elim, ?_, ?_, hlow (by decide : 1 ≤ 4),
        fun f _ hc _ h => ?_⟩
      · rintro b q ok ⟨⟩
        rfl
      · rintro ⟨⟩
      · have hne : f false .control = true := h.2
        rw [hc] at hne
        cases hne
    | sensorCleanup =>
      rw [hpc] at hp
      refine frame_moved (.inr ⟨.check, rfl⟩) hp fun f _ _ => ?_
      simp only [State.Past, show s.main = .unload from hm, hpc]
      exact ⟨hp (by decide), by decide⟩
    | divertQuiesce => cases hk
    | divertCleanup => cases hk
  | @skip k hpc hk =>
    rw [hpc] at hp
    cases k with
    | sensorQuiesce => cases hk
    | sensorCleanup => cases hk
    | divertQuiesce =>
      exact frame_inside hm rfl (hlow (by decide : 3 ≤ 4)) (by rw [hpc]; decide) rfl
    | divertCleanup =>
      exact frame_inside hm rfl (fun _ => hp (by decide)) (by rw [hpc]; decide) rfl
  | gate hpc =>
    refine frame_inside hm rfl (fun h4 => ?_) (by rw [hpc]; decide) rfl
    cases hb : s.unload.blocked with
    | true => simp [hb, Unload.Pc.stage] at h4
    | false =>
      simp only [Unload.State.blocked, Bool.or_eq_false_iff, Bool.not_eq_false'] at hb
      exact hb.1.1
  | blockReason hpc =>
    refine frame_inside hm rfl (fun h4 => ?_) (by rw [hpc]; decide) rfl
    simp only at h4
    split at h4 <;> simp [Unload.Pc.stage] at h4
  | recordStuck hpc =>
    exact frame_inside hm rfl (hlow (by decide : 4 ≤ 4)) (by rw [hpc]; decide) rfl
  | enterBlocked hpc =>
    exact frame_inside hm rfl (hlow (by decide : 4 ≤ 4)) (by rw [hpc]; decide) rfl
  | enterQuiescent hpc =>
    rw [hpc] at hp
    exact frame_inside hm rfl (fun _ => hp (by decide)) (by rw [hpc]; decide) rfl
  | finalCheck hpc =>
    rw [hpc] at hp
    exact frame_inside hm rfl (fun _ => hp (by decide)) (by rw [hpc]; decide) rfl

/-- The quiesce of an unload returns. -/
theorem frame_quiesced {ok : Bool} {u : Unload.State} (hm : s.main = .quiesce false .done ok)
    (hu : Unload.Step driverCallbacks s.unload (.returned .sensorQuiesce ok) u) :
    Frame s { s with unload := u, main := .unload } := by
  cases hu with
  | returned hpc =>
    refine frame_moved (.inl rfl) (fun h => absurd h (by decide : ¬ 4 < 2)) fun f hd h => ?_
    simp only [State.Past, hm]
    exact ⟨h.1, hd false⟩

/-- The destroy phase returns. -/
theorem frame_destroyed {ok : Bool} {u : Unload.State} (h : Standing s)
    (hm : s.main = .destroy .returned)
    (hu : Unload.Step driverCallbacks s.unload (.returned .sensorCleanup ok) u) :
    Frame s { s with unload := u, main := .unload } := by
  have hp := h.passed
  cases hu with
  | returned hpc =>
    rw [hpc] at hp
    refine frame_moved (.inl rfl) (fun _ => hp (by decide)) fun f _ _ => ?_
    simp only [State.Past, hm]

/-- BFE notifies whoever has subscribed. -/
theorem standing_change (service : Bfe.ServiceState) (h : Standing s)
    (hS : SetUp (s.change service)) : Standing (s.change service) := by
  cases hsub : s.subscribed with
  | false =>
    have hc : (s.change service).callbacks = s.callbacks := by simp [State.change, hsub]
    exact frame_same h rfl hc rfl rfl rfl rfl rfl rfl rfl hS
  | true =>
    have hc : (s.change service).callbacks = .bfe (.acquire service) ::ₘ s.callbacks := by
      simp [State.change, hsub]
    have hin : (s.change service).inside = s.inside := by
      rw [State.inside, hc, Multiset.countP_cons_of_neg s.callbacks (by simp [Callback.isInside,
        Bfe.Callback.isInside]), State.inside]
    have hno : ∀ f : Bool → Quiesce → Bool, (s.change service).Past f ↔ s.Past f :=
      fun f => past_congr rfl rfl rfl
    refine ⟨hS, ⟨hin ▸ h.counted.word, hin ▸ h.counted.inside_le, fun k hk => ?_⟩, h.leaks,
      h.handle, fun hu => ?_, h.stopping, fun hm k hk => ?_, h.passed, fun hp => ?_,
      fun hp => h.removed ((hno _).mp hp)⟩
    · rcases Multiset.mem_cons.mp (hc ▸ hk) with rfl | hk
      · trivial
      · exact h.counted.fit k hk
    · have hs := (h.unsubscribed ((unsubscribed_congr rfl rfl).mp hu)).1
      simp [hsub] at hs
    · rcases Multiset.mem_cons.mp (hc ▸ hk) with rfl | hk
      · rfl
      · exact h.inactive hm k hk
    · have hs := (h.cut ((hno _).mp hp)).subscribed
      simp [hsub] at hs

theorem standing_step (hs : (system.restrict Guarded).step s a t) (h : Standing s) :
    Standing t := by
  obtain ⟨hg, hs⟩ := hs
  have hS : SetUp t := setUp_step hs h.setUp
  cases hs with
  | bfe => exact standing_change _ h hS
  | callback cs hk => exact standing_callback h hS hg hk
  | report => exact frame_same h rfl rfl rfl rfl rfl rfl rfl rfl rfl hS
  | reportCheck => exact frame_same h rfl rfl rfl rfl rfl rfl rfl rfl rfl hS
  | reportEnter => exact frame_same h rfl rfl rfl rfl rfl rfl rfl rfl rfl hS
  | main => exact standing_main h hS hg
  | unload hm hx _ hu => exact h.frame (frame_unload h hm hx hu) hS
  | quiescentCheck => exact frame_same h rfl rfl rfl rfl rfl rfl rfl rfl rfl hS
  | quiescentEnter hm hp =>
    have hpassed := h.passed
    rw [hp] at hpassed
    refine h.frame (frame_moved (.inl rfl) (fun _ => hpassed (by decide)) fun f _ h => ?_) hS
    simp only [State.Past, hm, hp]
    exact ⟨h.1, by decide⟩
  | quiesced hm hu => exact h.frame (frame_quiesced hm hu) hS
  | destroy hm =>
    refine h.frame ⟨rfl, rfl, rfl, rfl, rfl, False.elim, nofun, nofun, h.passed,
      fun f _ _ _ _ => ?_⟩ hS
    simp only [State.Past, hm]
  | shutdownStuck hm =>
    exact frame_same h rfl rfl rfl rfl rfl rfl rfl rfl rfl hS
  | destroyed hm hu => exact h.frame (frame_destroyed h hm hu) hS

theorem standing_reachable (h : (system.restrict Guarded).Reachable s) : Standing s :=
  h.invariant (by rintro s ⟨service, rfl⟩; exact standing_initial service)
    (fun hs hi => standing_step hs hi)

/-! ### Runs of the destroy phase -/

/-- The quiesce is over and does not come again. -/
def State.Over (s : State) : Prop :=
  match s.main with
  | .rollbackDestroy | .blockStart | .failed | .destroy _ => True
  | .unload => 1 < s.unload.pc.stage
  | .init _ | .initCount _ | .create | .start _ | .subscribe | .bfeState | .install
  | .installing _ | .activate | .loaded | .rollback | .quiesce _ _ _ => False

theorem over_unload {x : Unload.Action} {u : Unload.State}
    (hx : (∀ c, x ≠ .runtime c) ∧ ∀ k ok, x ≠ .returned k ok) (ho : 1 < s.unload.pc.stage)
    (hu : Unload.Step driverCallbacks s.unload x u) :
    State.Over { s with unload := u, main := afterUnload x } := by
  cases hu with
  | runtime => exact absurd rfl (hx.1 _)
  | returned => exact absurd rfl (hx.2 _ _)
  | begin hpc =>
    rw [hpc] at ho
    exact absurd ho (Nat.not_lt_zero 1)
  | @call k hpc hk =>
    rw [hpc] at ho
    cases k with
    | sensorQuiesce => exact absurd ho (lt_irrefl 1)
    | sensorCleanup => trivial
    | divertQuiesce => cases hk
    | divertCleanup => cases hk
  | @skip k =>
    change 1 < k.next.stage
    cases k <;> decide
  | gate =>
    change 1 < Unload.Pc.stage (if _ then _ else _)
    split <;> decide
  | blockReason =>
    change 1 < Unload.Pc.stage (if _ then _ else _)
    split <;> decide
  | recordStuck => exact (by decide : 1 < 4)
  | enterBlocked => exact (by decide : 1 < 4)
  | enterQuiescent => exact (by decide : 1 < 6)
  | finalCheck =>
    change 1 < Unload.Pc.stage (if _ then _ else _)
    split <;> decide

theorem over_runMain (ho : s.Over) (hc : Cut s) :
    (s.runMain r).Over ∧ Cut (s.runMain r) ∧ (s.runMain r).wfp = s.wfp := by
  cases hm : s.main with
  | rollbackDestroy =>
    simp only [State.runMain, hm]
    split <;> exact ⟨trivial, ⟨hc.subscribed, hc.shut⟩, rfl⟩
  | blockStart =>
    simp only [State.runMain, hm]
    exact ⟨trivial, ⟨hc.subscribed, hc.shut⟩, rfl⟩
  | failed | destroy | unload =>
    have he : s.runMain r = s := by simp only [State.runMain, hm]
    rw [he]
    exact ⟨ho, hc, rfl⟩
  | _ => simp [State.Over, hm] at ho

theorem over_step (hs : system.step s a t) (h : Counted s) (ho : s.Over) (hc : Cut s) :
    t.Over ∧ Cut t ∧ t.wfp = s.wfp := by
  have hcut : ∀ u : State, u.subscribed = s.subscribed → u.callbacks = s.callbacks →
      u.count = s.count → Cut u := by
    intro u hsub hcb hn
    exact ⟨hsub.trans hc.subscribed, by rw [hcb, hn]; exact hc.shut⟩
  cases hs with
  | bfe =>
    refine ⟨ho, hcut _ rfl ?_ rfl, rfl⟩
    simp [State.change, hc.subscribed]
  | @callback k r cs hk =>
    have he : Elsewhere s (s.runCallback k cs r) := runCallback_elsewhere.1
    refine ⟨?_, cut_runCallback hc h hk, runCallback_wfp ?_⟩
    · unfold State.Over
      rw [he.main, he.unload]
      exact ho
    · have h0 := hc.inside h
      rw [State.inside, Multiset.countP_eq_zero] at h0
      have hki := h0 k (hk ▸ Multiset.mem_cons_self _ _)
      cases k with
      | bfe => rfl
      | install => exact absurd rfl hki
      | installing => exact absurd rfl hki
  | report => exact ⟨ho, hcut _ rfl rfl rfl, rfl⟩
  | reportCheck => exact ⟨ho, hcut _ rfl rfl rfl, rfl⟩
  | reportEnter => exact ⟨ho, hcut _ rfl rfl rfl, rfl⟩
  | main => exact over_runMain ho hc
  | @unload x u hm hx _ hu =>
    have hx₀ : x ≠ .begin := by
      rintro rfl
      simp [State.Over, show s.main = .loaded from hm] at ho
    rw [if_neg hx₀] at hm
    simp only [State.Over, hm] at ho
    exact ⟨over_unload hx ho hu, hcut _ rfl rfl rfl, rfl⟩
  | quiescentCheck => exact ⟨ho, hcut _ rfl rfl rfl, rfl⟩
  | quiescentEnter => exact ⟨(by decide : 1 < 6), hcut _ rfl rfl rfl, rfl⟩
  | quiesced hm => simp [State.Over, hm] at ho
  | destroy => exact ⟨trivial, hcut _ rfl rfl rfl, rfl⟩
  | shutdownStuck hm =>
    refine ⟨?_, hcut _ rfl rfl rfl, rfl⟩
    simp [State.Over, State.write, hm]
  | destroyed hm hu =>
    cases hu
    exact ⟨(by decide : 1 < 7), hcut _ rfl rfl rfl, rfl⟩

theorem over_run {as : List Action} (hr : (system.restrict Guarded).Run s as t)
    (h : Standing s) (ho : s.Over) (hc : Cut s) : t.inside = 0 ∧ t.wfp = s.wfp := by
  have hrun := hr.preserves
    (I := fun u => Standing u ∧ u.Over ∧ Cut u ∧ u.wfp = s.wfp) ?_ ⟨h, ho, hc, rfl⟩
  · exact ⟨hrun.2.2.1.inside hrun.1.counted, hrun.2.2.2⟩
  · rintro u a v hs ⟨hu, ho, hc, hw⟩
    obtain ⟨ho', hc', hw'⟩ := over_step hs.2 hu.counted ho hc
    exact ⟨standing_step hs hu, ho', hc', hw'.trans hw⟩

/-- When the rules, the flow table and the device are destroyed, BFE does not call back, no
callback is between Acquire and Release, now or later, and every WFP object is removed and
stays so. -/
theorem destroy_alone (h : (system.restrict Guarded).Reachable s)
    (hm : s.main = .rollbackDestroy ∨ ∃ pc, s.main = .destroy pc) :
    s.subscribed = false ∧ s.wfp.Removed ∧
      ∀ as t, (system.restrict Guarded).Run s as t → t.inside = 0 ∧ t.wfp = s.wfp := by
  have hst := standing_reachable h
  have hpast : ∀ f, s.Past f := by
    intro f
    rcases hm with hm | ⟨pc, hm⟩ <;> simp [State.Past, hm]
  have hover : s.Over := by
    rcases hm with hm | ⟨pc, hm⟩ <;> simp [State.Over, hm]
  have hc := hst.cut (hpast _)
  exact ⟨hc.subscribed, hst.removed (hpast _), fun as t hr => over_run hr hst hover hc⟩

/-! ### A load with BFE running and its unload -/

/-- `DriverEntry` has installed the WFP objects; a callback may be under way. -/
def hooked (main : Main) (rt : RuntimeState) (pc : Unload.Pc) (cs : Multiset Callback) : State :=
  { initial .running with
    unload := ⟨⟨rt, .none, []⟩, true, true, pc⟩
    steps := [.bfe, .flow, .inject, .control, .events, .rules]
    device := true
    handle := true
    subscribed := true
    wfp := WfpManager.afterInstall
    callbacks := cs
    main := main
    succeeded := [0] }

theorem guarded_main {r : Replies} (hc : s.callbacks = 0)
    (hg : Guarded s (.main r)) (hm : ∀ p, s.main ≠ .installing p) :
    (system.restrict Guarded).step s (.main r) (s.runMain r) :=
  ⟨hg, .main fun _ => ⟨by simp [hc], hm⟩⟩

/-- The Install of `DriverEntry` is under way. -/
def hooking : State :=
  { hooked (.installing 0) .uninitialized .begin 0 with wfp := .initial, succeeded := [] }

theorem hooking_runMain :
    hooking.runMain repliesOk = hooked (.init true) .uninitialized .begin 0 := by
  have hs : ntSuccess (WfpManager.initial.install WfpManager.repliesSuccess).2 = true := by decide
  have hr : (WfpManager.initial.install WfpManager.repliesSuccess).1.runtime = .initial :=
    WfpManager.install_runtime_of_success hs
  have hi : hooking.install 0 WfpManager.repliesSuccess =
      hooked (.installing 0) .uninitialized .begin 0 := by
    simp only [State.install, show hooking.manager = .initial from rfl, hs, if_true, hr]
    rfl
  have hm : hooking.runMain repliesOk = { hooking.install 0 WfpManager.repliesSuccess with
      main := if ntSuccess (WfpManager.initial.install WfpManager.repliesSuccess).2
        then .init true else .rollback } := rfl
  rw [hm, hi, if_pos hs]
  rfl

theorem hooked_reachable :
    (system.restrict Guarded).Reachable (hooked .loaded .active .begin 0) := by
  refine ⟨initial .running, List.replicate 15 (.main repliesOk), ⟨_, rfl⟩, ?_⟩
  refine .head (guarded_main rfl trivial nofun) <| .head (guarded_main rfl rfl nofun) <|
    .head (guarded_main rfl trivial nofun) <| .head (guarded_main rfl trivial nofun) <|
    .head (guarded_main rfl trivial nofun) <| .head (guarded_main rfl trivial nofun) <|
    .head (guarded_main rfl trivial nofun) <| .head (guarded_main rfl trivial nofun) <|
    .head (guarded_main rfl trivial nofun) <| .head (guarded_main rfl trivial nofun) <|
    .head (guarded_main rfl trivial nofun) ?_
  have hg : WfpManager.LeakSafe .initial (.install WfpManager.repliesSuccess) := by
    intro _ _ _ hn
    exact absurd (by unfold InstallReplies.Succeeds; decide) hn
  have hs : (system.restrict Guarded).step hooking (.main repliesOk)
      (hooked (.init true) .uninitialized .begin 0) := by
    refine ⟨hg, ?_⟩
    rw [← hooking_runMain]
    exact .main nofun
  refine .head hs <| .head (guarded_main rfl trivial nofun) <|
    .head (guarded_main rfl rfl nofun) <| .head (guarded_main rfl trivial nofun) ?_
  exact .refl

/-- In the quiesce, after the drain. -/
def unhooking : State :=
  { hooked (.quiesce false .wfp true) .teardown (.inside .sensorQuiesce) 0 with
    count := stopBit, handle := false, subscribed := false }

def unhooked : State :=
  { unhooking with
    wfp := (unhooking.manager.teardown repliesOk.wfp.toRemovals).1
    main := .quiesce false .workItems true }

theorem unhooking_run : (system.restrict Guarded).Run (hooked .loaded .active .begin 0)
    (.unload .begin :: .unload (.call .sensorQuiesce) :: List.replicate 7 (.main repliesOk))
    unhooking := by
  refine .head ⟨trivial, .unload rfl ⟨nofun, nofun⟩ nofun (.begin rfl)⟩ <|
    .head ⟨trivial, .unload rfl ⟨nofun, nofun⟩ nofun (.call rfl rfl)⟩ <|
    .head (guarded_main rfl trivial nofun) <| .head (guarded_main rfl trivial nofun) <|
    .head (guarded_main rfl trivial nofun) <| .head (guarded_main rfl trivial nofun) <|
    .head (guarded_main rfl trivial nofun) <| .head (guarded_main rfl trivial nofun) <|
    .head (guarded_main rfl trivial nofun) ?_
  exact .refl

theorem unhooking_runMain : unhooking.runMain repliesOk = unhooked := by
  have hp : (unhooking.manager.teardown repliesOk.wfp.toRemovals).2 = true := by decide
  have hm : unhooking.runMain repliesOk =
      State.check { unhooking with wfp := (unhooking.manager.teardown repliesOk.wfp.toRemovals).1 }
        false .wfp true (unhooking.manager.teardown repliesOk.wfp.toRemovals).2
        ((unhooking.manager.teardown repliesOk.wfp.toRemovals).1.runtime.recordIfNone
          .engineClose) := rfl
  rw [hm, hp]
  rfl

theorem destroy_alone_hooked : ∃ s, s.main = .destroy .check ∧ s.wfp.Removed ∧
    ∀ as t, (system.restrict Guarded).Run s as t → t.inside = 0 ∧ t.wfp = s.wfp := by
  have hg : Guarded unhooking (.main repliesOk) := fun hl => absurd hl (by decide)
  have hs : (system.restrict Guarded).step unhooking (.main repliesOk) unhooked := by
    rw [← unhooking_runMain]
    exact guarded_main rfl hg nofun
  have hr : (system.restrict Guarded).Run unhooked [.main repliesOk, .main repliesOk,
      .quiesced true, .unload (.skip .divertQuiesce), .unload (.gate .teardown),
      .quiescentCheck, .quiescentEnter, .unload (.call .sensorCleanup)]
      { unhooked with
        unload := ⟨⟨.quiescent, .none, []⟩, true, true, .inside .sensorCleanup⟩
        main := .destroy .check
        sawTeardown := true } := by
    refine .head (guarded_main rfl trivial nofun) <| .head (guarded_main rfl trivial nofun) <|
      .head ⟨trivial, .quiesced rfl (.returned rfl)⟩ <|
      .head ⟨trivial, .unload rfl ⟨nofun, nofun⟩ nofun (.skip rfl rfl)⟩ <|
      .head ⟨trivial, .unload rfl ⟨nofun, nofun⟩ nofun (.gate rfl)⟩ <|
      .head ⟨trivial, .quiescentCheck rfl rfl rfl rfl⟩ <|
      .head ⟨trivial, .quiescentEnter rfl rfl rfl⟩ <|
      .head ⟨trivial, .unload rfl ⟨nofun, nofun⟩ nofun (.call rfl rfl)⟩ ?_
    exact .refl
  have h := ((hooked_reachable.run unhooking_run).step hs).run hr
  exact ⟨_, rfl, (destroy_alone h (.inr ⟨_, rfl⟩)).2⟩

end Sentinel.Driver
