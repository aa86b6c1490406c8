import Mathlib.Algebra.Order.Group.Multiset
import Mathlib.Data.Multiset.Range
import Sentinel.General.System

/-! The consumer thread of the manual queue and `SkControlQuiesce` in `control/ioctl.c`. -/
namespace Sentinel.Consumer

open Transition

/-- Requests are numbered in the order of their arrival. -/
abbrev Request := ℕ

/-- Where `skDequeueThreadBody` stands. -/
inductive Thread where
  | retrieve
  | retrieved (r : Request)
  | dispatch (r : Request)
  | reject (r : Request)
  | drained
  | wait
  | exited
  deriving DecidableEq

/-- The request the thread owns. -/
def Thread.held : Thread → Multiset Request
  | .retrieved r | .dispatch r | .reject r => {r}
  | .retrieve | .drained | .wait | .exited => 0

/-- The step before which `SkControlQuiesce` stands, or how it has come out. -/
inductive Quiesce where
  | closeGate
  | setStop
  | setEvent
  | join
  | joinFailed
  | purge
  | purged
  deriving DecidableEq

/-- The queue, the calls of ReadyNotify that WDF has still to make, `g_SkDequeueDoorbell`,
`g_SkDequeueStopEvent` and `g_SkDequeueStop`. Ghosts: what has been retrieved and completed
and whether the thread has seen the stop flag set. -/
structure State where
  queue : List Request
  arrivals : ℕ
  notifies : ℕ
  doorbell : Bool
  stopEvent : Bool
  stop : Bool
  thread : Thread
  quiesce : Quiesce
  retrieved : Multiset Request
  completed : Multiset Request
  purged : Multiset Request
  observed : Bool

/-- After `SkControlInit`, with `n` requests in the queue. -/
def initial (n : ℕ) : State where
  queue := List.range n
  arrivals := n
  notifies := 0
  doorbell := false
  stopEvent := false
  stop := false
  thread := .retrieve
  quiesce := .closeGate
  retrieved := 0
  completed := 0
  purged := 0
  observed := false

/-- WDF calls ReadyNotify after each transition from empty to non-empty. -/
def State.arrive (s : State) : State :=
  { s with
    queue := s.queue ++ [s.arrivals]
    arrivals := s.arrivals + 1
    notifies := if s.queue = [] then s.notifies + 1 else s.notifies }

/-- The next step of the thread when it does not wait. -/
def State.runThread (s : State) : State :=
  match s.thread with
  | .retrieve =>
    match s.queue with
    | [] => { s with thread := .drained }
    | r :: queue =>
      { s with queue := queue, retrieved := r ::ₘ s.retrieved, thread := .retrieved r }
  | .retrieved r =>
    if s.stop then { s with observed := true, thread := .reject r }
    else { s with thread := .dispatch r }
  -- SkIoctlEvtDeviceControl completes the request before it returns.
  | .dispatch r | .reject r => { s with completed := r ::ₘ s.completed, thread := .retrieve }
  | .drained =>
    if s.stop then { s with observed := true, thread := .exited } else { s with thread := .wait }
  | .wait | .exited => s

/-- WdfIoQueuePurge completes what is queued. -/
def State.purge (s : State) : State :=
  { s with queue := [], purged := s.purged + s.queue, quiesce := .purged }

inductive Action where
  | arrive
  | notify
  | thread
  | wakeDoorbell
  | wakeStop
  | timeout
  | closeGate
  | setStop
  | setEvent
  | join (ok : Bool)
  | purge
  deriving DecidableEq

/-- A wait takes one signaled event and resets it. A purged queue accepts nothing. -/
inductive Step : State → Action → State → Prop where
  | arrive {s : State} (h : s.quiesce ≠ .purged) : Step s .arrive s.arrive
  | notify {s : State} (h : 0 < s.notifies) :
      Step s .notify { s with notifies := s.notifies - 1, doorbell := true }
  | thread {s : State} : Step s .thread s.runThread
  | wakeDoorbell {s : State} (h : s.thread = .wait) (hd : s.doorbell = true) :
      Step s .wakeDoorbell { s with doorbell := false, thread := .retrieve }
  | wakeStop {s : State} (h : s.thread = .wait) (hd : s.stopEvent = true) :
      Step s .wakeStop { s with stopEvent := false, thread := .retrieve }
  | timeout {s : State} (h : s.thread = .wait) :
      Step s .timeout { s with thread := .retrieve }
  | closeGate {s : State} (h : s.quiesce = .closeGate) :
      Step s .closeGate { s with quiesce := .setStop }
  | setStop {s : State} (h : s.quiesce = .setStop) :
      Step s .setStop { s with stop := true, quiesce := .setEvent }
  | setEvent {s : State} (h : s.quiesce = .setEvent) :
      Step s .setEvent { s with stopEvent := true, quiesce := .join }
  -- A successful ThreadJoin means that the thread has exited.
  | join {s : State} {ok : Bool} (h : s.quiesce = .join) (hok : ok = true → s.thread = .exited) :
      Step s (.join ok) { s with quiesce := if ok then .purge else .joinFailed }
  | purge {s : State} (h : s.quiesce = .purge) : Step s .purge s.purge

def system : System State Action where
  init s := ∃ n, s = initial n
  step := Step

variable {s t : State} {a : Action} {as : List Action} {r : Request}

/-! ### No lost wakeup -/

/-- `SkControlQuiesce` has set the stop flag. -/
def Quiesce.stopped : Quiesce → Bool
  | .closeGate | .setStop => false
  | .setEvent | .join | .joinFailed | .purge | .purged => true

/-- A request or a stop that the thread has not yet seen is announced. -/
structure Awake (s : State) : Prop where
  queue : s.thread = .drained ∨ s.thread = .wait → s.queue ≠ [] →
    s.doorbell = true ∨ 0 < s.notifies
  stop : s.thread = .wait → s.stop = true → s.stopEvent = true ∨ s.quiesce = .setEvent
  stopped : s.stop = s.quiesce.stopped
  observed : s.observed = true → s.stop = true
  dispatch : ∀ r, s.thread = .dispatch r → s.observed = false
  joined : s.quiesce = .purge ∨ s.quiesce = .purged → s.thread = .exited

theorem awake_initial (n : ℕ) : Awake (initial n) := by
  constructor <;> simp [initial, Quiesce.stopped]

theorem awake_runThread (h : Awake s) : Awake s.runThread := by
  have hq : s.thread ≠ .exited → ¬ (s.quiesce = .purge ∨ s.quiesce = .purged) :=
    fun hne hj => hne (h.joined hj)
  have hs := h.stopped
  have ho := h.observed
  cases ht : s.thread with
  | retrieve =>
    have hj := hq (by simp [ht])
    simp only [State.runThread, ht]
    split
    · rename_i hqueue
      exact ⟨by simp [hqueue], nofun, hs, ho, nofun, fun hj' => absurd hj' hj⟩
    · exact ⟨by simp, nofun, hs, ho, nofun, fun hj' => absurd hj' hj⟩
  | retrieved r =>
    have hj := hq (by simp [ht])
    simp only [State.runThread, ht]
    split
    · rename_i hst
      exact ⟨by simp, nofun, hs, fun _ => hst, nofun, fun hj' => absurd hj' hj⟩
    · rename_i hst
      refine ⟨by simp, nofun, hs, ho, fun _ _ => ?_, fun hj' => absurd hj' hj⟩
      exact Bool.eq_false_iff.mpr fun hb => hst (ho hb)
  | dispatch r | reject r =>
    have hj := hq (by simp [ht])
    simp only [State.runThread, ht]
    exact ⟨by simp, nofun, hs, ho, nofun, fun hj' => absurd hj' hj⟩
  | drained =>
    have hj := hq (by simp [ht])
    simp only [State.runThread, ht]
    split
    · rename_i hst
      exact ⟨by simp, nofun, hs, fun _ => hst, nofun, fun _ => rfl⟩
    · rename_i hst
      exact ⟨fun _ => h.queue (.inl ht), fun _ hst' => absurd hst' hst, hs, ho, nofun,
        fun hj' => absurd hj' hj⟩
  | wait =>
    simp only [State.runThread, ht]
    exact h
  | exited =>
    simp only [State.runThread, ht]
    exact h

/-- The end of a wait. -/
theorem awake_wake {d e : Bool} (ht : s.thread = .wait) (h : Awake s) :
    Awake { s with doorbell := d, stopEvent := e, thread := .retrieve } where
  queue := by simp
  stop := nofun
  stopped := h.stopped
  observed := h.observed
  dispatch := nofun
  joined hj := by simp [h.joined hj] at ht

theorem awake_step (hs : system.step s a t) (h : Awake s) : Awake t := by
  cases hs with
  | arrive hp =>
    refine ⟨fun ht _ => ?_, h.stop, h.stopped, h.observed, h.dispatch, h.joined⟩
    by_cases hq : s.queue = []
    · exact .inr (by simp [State.arrive, hq])
    · simpa [State.arrive, hq] using h.queue ht hq
  | notify hn => exact ⟨fun _ _ => .inl rfl, h.stop, h.stopped, h.observed, h.dispatch, h.joined⟩
  | thread => exact awake_runThread h
  | wakeDoorbell ht => exact awake_wake ht h
  | wakeStop ht => exact awake_wake ht h
  | timeout ht => exact awake_wake ht h
  | closeGate hq =>
    have hst : s.stop = false := by rw [h.stopped, hq]; rfl
    exact ⟨h.queue, by simp [hst], hst, h.observed, h.dispatch, by simp⟩
  | setStop hq =>
    exact ⟨h.queue, fun _ _ => .inr rfl, rfl, fun _ => rfl, h.dispatch, by simp⟩
  | setEvent hq =>
    have hst : s.stop = true := by rw [h.stopped, hq]; rfl
    exact ⟨h.queue, fun _ _ => .inl rfl, hst, h.observed, h.dispatch, by simp⟩
  | @join ok hq hok =>
    have hst : s.stop = true := by rw [h.stopped, hq]; rfl
    refine ⟨h.queue, fun ht _ => ?_, ?_, h.observed, h.dispatch, ?_⟩
    · exact .inl ((h.stop ht hst).resolve_right (by simp [hq]))
    · cases ok <;> exact hst
    · cases ok with
      | true => exact fun _ => hok rfl
      | false => simp
  | purge hq =>
    have hst : s.stop = true := by rw [h.stopped, hq]; rfl
    have ht := h.joined (.inl hq)
    exact ⟨by simp [State.purge, ht], by simp [State.purge, ht], hst, h.observed, h.dispatch,
      fun _ => ht⟩

theorem awake_reachable (h : system.Reachable s) : Awake s :=
  h.invariant (by rintro s ⟨n, rfl⟩; exact awake_initial n) (fun hs hi => awake_step hs hi)

/-! ### Every request once -/

/-- Where the requests that have arrived are. -/
structure Accounted (s : State) : Prop where
  arrived : s.completed + s.thread.held + s.queue + s.purged = Multiset.range s.arrivals
  retrieved : s.retrieved = s.completed + s.thread.held
  purged : s.quiesce ≠ .purged → s.purged = 0
  drained : s.quiesce = .purged → s.queue = []

theorem accounted_initial (n : ℕ) : Accounted (initial n) where
  arrived := by simp [initial, Thread.held, Multiset.range]
  retrieved := rfl
  purged _ := rfl
  drained := nofun

theorem accounted_runThread (h : Accounted s) : Accounted s.runThread := by
  obtain ⟨ha, hr, hp, hd⟩ := h
  cases ht : s.thread with
  | retrieve =>
    rw [ht] at ha hr
    cases hq : s.queue with
    | nil =>
      simp only [State.runThread, ht, hq]
      exact ⟨by simpa [hq, Thread.held] using ha, hr, hp, fun _ => rfl⟩
    | cons r queue =>
      simp only [State.runThread, ht, hq]
      refine ⟨?_, ?_, hp, fun hpu => by simp [hq] at hd; exact absurd hpu hd⟩
      · rw [← ha, hq, ← Multiset.cons_coe, ← Multiset.singleton_add r queue]
        simp only [Thread.held, add_zero]
        ac_rfl
      · rw [hr, ← Multiset.singleton_add]
        simp only [Thread.held, add_zero]
        apply add_comm
  | retrieved r =>
    rw [ht] at ha hr
    simp only [State.runThread, ht]
    split <;> exact ⟨ha, hr, hp, hd⟩
  | dispatch r | reject r =>
    rw [ht] at ha hr
    simp only [State.runThread, ht]
    refine ⟨?_, ?_, hp, hd⟩
    · rw [← ha, ← Multiset.singleton_add]
      simp only [Thread.held, add_zero]
      ac_rfl
    · rw [hr, ← Multiset.singleton_add]
      simp only [Thread.held, add_zero]
      apply add_comm
  | drained =>
    rw [ht] at ha hr
    simp only [State.runThread, ht]
    split <;> exact ⟨ha, hr, hp, hd⟩
  | wait =>
    rw [ht] at ha hr
    simp only [State.runThread, ht]
    exact ⟨ht ▸ ha, ht ▸ hr, hp, hd⟩
  | exited =>
    rw [ht] at ha hr
    simp only [State.runThread, ht]
    exact ⟨ht ▸ ha, ht ▸ hr, hp, hd⟩

theorem accounted_step (hs : system.step s a t) (h : Accounted s) : Accounted t := by
  have hwake : ∀ {d e : Bool}, s.thread = .wait →
      Accounted { s with doorbell := d, stopEvent := e, thread := .retrieve } := by
    intro d e ht
    obtain ⟨ha, hr, hp, hd⟩ := h
    rw [ht] at ha hr
    exact ⟨ha, hr, hp, hd⟩
  cases hs with
  | arrive hp =>
    refine ⟨?_, h.retrieved, h.purged, fun hpu => absurd hpu hp⟩
    simp only [State.arrive]
    rw [Multiset.range_succ, ← h.arrived, ← Multiset.coe_add, Multiset.coe_singleton,
      ← Multiset.singleton_add]
    ac_rfl
  | notify => exact ⟨h.arrived, h.retrieved, h.purged, h.drained⟩
  | thread => exact accounted_runThread h
  | wakeDoorbell ht => exact hwake ht
  | wakeStop ht => exact hwake ht
  | timeout ht => exact hwake ht
  | closeGate hq =>
    exact ⟨h.arrived, h.retrieved, fun _ => h.purged (by simp [hq]), by simp⟩
  | setStop hq =>
    exact ⟨h.arrived, h.retrieved, fun _ => h.purged (by simp [hq]), by simp⟩
  | setEvent hq =>
    exact ⟨h.arrived, h.retrieved, fun _ => h.purged (by simp [hq]), by simp⟩
  | @join ok hq =>
    exact ⟨h.arrived, h.retrieved, fun _ => h.purged (by simp [hq]), by cases ok <;> simp⟩
  | purge hq =>
    refine ⟨?_, h.retrieved, fun hne => absurd rfl hne, fun _ => rfl⟩
    simp only [State.purge]
    rw [← h.arrived, Multiset.coe_nil, add_zero]
    ac_rfl

theorem accounted_reachable (h : system.Reachable s) : Accounted s :=
  h.invariant (by rintro s ⟨n, rfl⟩; exact accounted_initial n)
    (fun hs hi => accounted_step hs hi)

/-! ### What is retrieved is completed -/

/-- The steps of the thread until it has completed the request that it owns. -/
def Thread.left : Thread → ℕ
  | .retrieved _ => 2
  | .dispatch _ | .reject _ => 1
  | .retrieve | .drained | .wait | .exited => 0

/-- `r` is completed, or owned with at most `2` steps of the thread taken so far and to come. -/
def Due (r : Request) (as : List Action) (s : State) : Prop :=
  r ∈ s.completed ∨ r ∈ s.thread.held ∧ s.thread.left + as.count .thread ≤ 2

theorem due_runThread (h : Due r as s) : Due r (as ++ [.thread]) s.runThread := by
  obtain hc | ⟨ho, hle⟩ := h
  · apply Or.inl
    cases ht : s.thread <;> simp only [State.runThread, ht]
    · split <;> exact hc
    · split <;> exact hc
    · exact Multiset.mem_cons_of_mem hc
    · exact Multiset.mem_cons_of_mem hc
    · split <;> exact hc
    · exact hc
    · exact hc
  · cases ht : s.thread with
    | retrieved q =>
      rw [ht] at ho hle
      refine .inr ?_
      simp only [Thread.left] at hle
      simp only [State.runThread, ht, List.count_append, List.count_singleton_self]
      split <;> exact ⟨ho, by simp only [Thread.left]; omega⟩
    | dispatch q | reject q =>
      rw [ht] at ho
      simp only [State.runThread, ht]
      exact .inl (Multiset.mem_cons.mpr (.inl (Multiset.mem_singleton.mp ho)))
    | retrieve | drained | wait | exited => simp [ht, Thread.held] at ho

theorem due_step (hs : system.step s a t) (h : Due r as s) : Due r (as ++ [a]) t := by
  have hother : ∀ {b : Action} {u : State}, b ≠ .thread → u.completed = s.completed →
      u.thread = s.thread → Due r (as ++ [b]) u := by
    intro b u hb hc ht
    simpa [Due, hc, ht, List.count_singleton, hb] using h
  have hwake : ∀ {b : Action} {u : State}, b ≠ .thread → u.completed = s.completed →
      s.thread = .wait → Due r (as ++ [b]) u := by
    intro b u hb hc ht
    exact h.elim (fun h => .inl (hc ▸ h)) fun h => absurd h.1 (by simp [ht, Thread.held])
  cases hs with
  | thread => exact due_runThread h
  | wakeDoorbell ht | wakeStop ht | timeout ht => exact hwake (by simp) rfl ht
  | arrive | notify | closeGate | setStop | setEvent | join | purge =>
    exact hother (by simp) rfl rfl

/-- Whatever the others do, two steps of the thread complete the request that it owns. -/
theorem completed_of_run (hr : system.Run s as t) (ho : r ∈ s.thread.held)
    (hn : 2 ≤ as.count .thread) : r ∈ t.completed := by
  have hleft : s.thread.left ≤ 2 := by cases s.thread <;> simp [Thread.left]
  have hdue : Due r ([] ++ as) t := hr.preserves_labels due_step (.inr ⟨ho, by simpa⟩)
  refine hdue.resolve_right fun h => ?_
  have hle := h.2
  rw [List.nil_append] at hle
  have hzero : t.thread.left = 0 := by omega
  cases ht : t.thread <;> simp [ht, Thread.left, Thread.held] at hzero h

/-! ### The consumer -/

/-- Nothing wakes the thread any more: both events are unsignaled, no ReadyNotify is due
and the EventSet that follows the stop flag has been made. -/
def Asleep (s : State) : Prop :=
  s.thread = .wait ∧ s.doorbell = false ∧ s.stopEvent = false ∧ s.notifies = 0 ∧
    s.quiesce ≠ .setEvent

theorem Awake.not_asleep (h : Awake s) (hs : Asleep s) : s.queue = [] ∧ s.stop = false := by
  obtain ⟨ht, hd, he, hn, hq⟩ := hs
  constructor
  · by_contra hne
    have hnotify := h.queue (.inr ht) hne
    simp [hd, hn] at hnotify
  · by_contra hst
    have hevent := h.stop ht (by simpa using hst)
    simp [he, hq] at hevent

/-- The manual queue and its consumer in every reachable state. -/
structure Correct (s : State) : Prop where
  asleep : Asleep s → s.queue = [] ∧ s.stop = false
  retrieved : s.retrieved = s.completed + s.thread.held
  once : (s.completed + s.thread.held + s.purged).Nodup
  completed : ∀ as t r, system.Run s as t → r ∈ s.thread.held → 2 ≤ as.count .thread →
    r ∈ t.completed
  dispatch : ∀ r, s.thread = .dispatch r → s.observed = false
  joined : s.quiesce = .purge → s.completed + s.queue = Multiset.range s.arrivals
  purged : s.quiesce = .purged →
    s.queue = [] ∧ s.completed + s.purged = Multiset.range s.arrivals

theorem Accounted.nodup (h : Accounted s) : (s.completed + s.thread.held + s.purged).Nodup := by
  have hle : s.completed + s.thread.held + s.purged ≤ Multiset.range s.arrivals := by
    rw [← h.arrived, add_right_comm _ (s.queue : Multiset Request)]
    exact Multiset.le_add_right _ _
  exact Multiset.nodup_of_le hle (Multiset.nodup_range _)

theorem consumer_correct (h : system.Reachable s) : Correct s := by
  have hw := awake_reachable h
  have ha := accounted_reachable h
  refine ⟨hw.not_asleep, ha.retrieved, ha.nodup, fun as t r => completed_of_run, hw.dispatch,
    fun hq => ?_, fun hq => ⟨ha.drained hq, ?_⟩⟩
  · have ht := hw.joined (.inl hq)
    have hp := ha.purged (by simp [hq])
    simpa [ht, hp, Thread.held] using ha.arrived
  · have ht := hw.joined (.inr hq)
    have hd := ha.drained hq
    simpa [ht, hd, Thread.held] using ha.arrived

/-- A request is dispatched while the stop comes, another arrives after the thread has gone. -/
theorem consumer_correct_stopped :
    ∃ s, s.quiesce = .purged ∧ s.completed = {0} ∧ s.purged = {1} ∧ Correct s := by
  have hr : ∃ as s, system.Run (initial 1) as s ∧ s.quiesce = .purged ∧ s.completed = {0} ∧
      s.purged = {1} :=
    ⟨[.thread, .thread, .closeGate, .setStop, .thread, .thread, .thread, .arrive, .setEvent,
      .join true, .purge], _, .head .thread <| .head .thread <| .head (.closeGate rfl) <|
      .head (.setStop rfl) <| .head .thread <| .head .thread <| .head .thread <|
      .head (.arrive (by decide)) <| .head (.setEvent rfl) <|
      .head (.join rfl fun _ => rfl) <| .head (.purge rfl) .refl, rfl, by decide, by decide⟩
  obtain ⟨as, s, hrun, hq, hc, hp⟩ := hr
  exact ⟨s, hq, hc, hp, consumer_correct ⟨_, as, ⟨1, rfl⟩, hrun⟩⟩

end Sentinel.Consumer
