import Sentinel.Control.Consumer
import Sentinel.General.Fair

/-! Every request of the manual queue is completed, and `SkControlQuiesce` comes to an end. -/
namespace Sentinel.Consumer

open Transition

variable {s t : State} {a : Action} {r : Request} {E : Execution State Action}

/-- Who has to be treated fairly: the thread, WDF with its calls of ReadyNotify, the wait on two
events and the thread that runs `SkControlQuiesce`. -/
inductive Agent where
  | thread
  | notify
  | wake
  | quiesce
  deriving DecidableEq

/-- A wait need not time out, a join need not fail, and nobody has to begin an unload. -/
def Agent.actions : Agent → Set Action
  | .thread => {.thread}
  | .notify => {.notify}
  | .wake => {.wakeDoorbell, .wakeStop}
  | .quiesce => {.setStop, .setEvent, .join true, .purge}

/-- An execution fair to all of them. -/
structure FairRun (E : Execution State Action) : Prop where
  executes : system.Executes E
  fair : ∀ i : Agent, system.Fair i.actions E

/-! ### The thread goes only when it is told to -/

theorem stop_of_exited_step (h : system.step s a t) (hi : s.thread = .exited → s.stop = true) :
    t.thread = .exited → t.stop = true := by
  cases h with
  | thread =>
    intro ht
    cases hth : s.thread with
    | exited => simpa [State.runThread, hth] using hi hth
    | drained =>
      by_cases hst : s.stop = true
      · simp [State.runThread, hth, hst]
      · simp [State.runThread, hth, hst] at ht
    | retrieve => cases hq : s.queue <;> simp [State.runThread, hth, hq] at ht
    | retrieved r => cases hst : s.stop <;> simp [State.runThread, hth, hst] at ht
    | dispatch | reject | wait => simp [State.runThread, hth] at ht
  | wakeDoorbell | wakeStop | timeout => rintro ⟨⟩
  | setStop => exact fun _ => rfl
  | arrive | notify | closeGate | setEvent | join | purge => exact hi

theorem stop_of_exited (h : system.Reachable s) (ht : s.thread = .exited) : s.stop = true :=
  h.invariant (I := fun s => s.thread = .exited → s.stop = true)
    (by rintro s ⟨n, rfl⟩; exact nofun) (fun hs hi => stop_of_exited_step hs hi) ht

/-! ### How far a request is -/

/-- The steps of `SkControlQuiesce` to come, once the thread has gone. -/
def Quiesce.left : Quiesce → ℕ
  | .setEvent => 3
  | .join => 2
  | .purge => 1
  | .closeGate | .setStop | .joinFailed | .purged => 0

/-- The steps of the thread before it retrieves again, a ReadyNotify on its way included. -/
def State.phase (s : State) : ℕ :=
  match s.thread with
  | .drained => 3
  | .wait => if s.doorbell then 1 else 2
  | .retrieved _ => 2
  | .dispatch _ | .reject _ => 1
  | .retrieve | .exited => 0

/-- What is ahead of `r`. -/
def State.ahead (s : State) (r : Request) : ℕ :=
  if r ∈ s.thread.held then s.thread.left
  else if s.thread = .exited then s.quiesce.left
  else 3 * s.queue.idxOf r + s.phase + 4

/-- Who has to do the next step for a request. -/
def State.agent (s : State) : Agent :=
  match s.thread with
  | .wait => if s.doorbell then .wake else .notify
  | .exited => .quiesce
  | .retrieve | .retrieved _ | .dispatch _ | .reject _ | .drained => .thread

def Waiting (r : Request) (s : State) : Prop := r ∈ s.thread.held ∨ r ∈ s.queue

def Settled (r : Request) (s : State) : Prop :=
  r ∈ s.completed ∨ r ∈ s.purged ∨ s.quiesce = .joinFailed

theorem held_or_queue (h : Waiting r s) : r ∈ s.thread.held ∨ r ∉ s.thread.held ∧ r ∈ s.queue := by
  by_cases hh : r ∈ s.thread.held
  · exact .inl hh
  · exact .inr ⟨hh, h.resolve_left hh⟩

/-- The thread itself: one step less for whoever waits for it. -/
theorem waiting_thread (h : Waiting r s) (hne : s.thread ≠ .wait)
    (hnx : s.thread ≠ .exited) :
    Settled r s.runThread ∨ Waiting r s.runThread ∧ s.runThread.ahead r < s.ahead r := by
  rcases held_or_queue h with hh | ⟨hh, hq⟩
  · cases ht : s.thread with
    | retrieved q =>
      have hr : r = q := by simpa [ht, Thread.held] using hh
      refine .inr ?_
      cases hst : s.stop <;>
        simp [State.runThread, ht, hst, Waiting, State.ahead, Thread.held, Thread.left, hr]
    | dispatch q | reject q =>
      have hr : r = q := by simpa [ht, Thread.held] using hh
      exact .inl (.inl (by simp [State.runThread, ht, hr]))
    | retrieve | drained | wait | exited => simp [ht, Thread.held] at hh
  · have ha : s.ahead r = 3 * s.queue.idxOf r + s.phase + 4 := by
      rw [State.ahead, if_neg hh, if_neg hnx]
    cases ht : s.thread with
    | retrieve =>
      refine .inr ?_
      cases hqu : s.queue with
      | nil => simp [hqu] at hq
      | cons q queue =>
        by_cases hr : r = q
        · refine ⟨.inl (by simp [State.runThread, ht, hqu, Thread.held, hr]), ?_⟩
          simp [State.runThread, ht, hqu, Thread.held, hr, State.ahead, Thread.left]
        · have hmem : r ∈ queue := by simpa [hqu, hr] using hq
          refine ⟨.inr (by simpa [State.runThread, ht, hqu] using hmem), ?_⟩
          rw [ha, hqu, List.idxOf_cons_ne _ (Ne.symm hr)]
          simp [State.runThread, ht, hqu, Thread.held, hr, State.ahead, State.phase]
          omega
    | retrieved q =>
      have hr : r ≠ q := by simpa [ht, Thread.held] using hh
      refine .inr ⟨.inr ?_, ?_⟩
      · cases hst : s.stop <;> simpa [State.runThread, ht, hst] using hq
      · rw [ha]
        cases hst : s.stop <;>
          simp [State.runThread, ht, hst, State.ahead, Thread.held, hr, State.phase]
    | dispatch q | reject q =>
      refine .inr ⟨.inr (by simpa [State.runThread, ht] using hq), ?_⟩
      rw [ha]
      simp [State.runThread, ht, State.ahead, Thread.held, State.phase]
    | drained =>
      refine .inr ⟨.inr ?_, ?_⟩
      · cases hst : s.stop <;> simpa [State.runThread, ht, hst] using hq
      · rw [ha]
        cases hst : s.stop
        · have hp : (if s.doorbell = true then 1 else 2) < 3 := by split <;> omega
          simp [State.runThread, ht, hst, State.ahead, Thread.held, State.phase]
          omega
        · have hl : s.quiesce.left < 4 := by cases s.quiesce <;> simp [Quiesce.left]
          simp [State.runThread, ht, hst, State.ahead, Thread.held, State.phase]
          omega
    | wait => exact absurd ht hne
    | exited => exact absurd ht hnx

/-- Nothing that matters to `r` changes. -/
def Untouched (r : Request) (s : State) (a : Action) (t : State) : Prop :=
  Waiting r t ∧ t.ahead r = s.ahead r ∧ t.agent = s.agent ∧ a ∉ s.agent.actions

/-- The wait is over. -/
theorem waiting_wake {d e : Bool} (h : Waiting r s) (ht : s.thread = .wait) :
    Waiting r { s with doorbell := d, stopEvent := e, thread := .retrieve } ∧
      State.ahead { s with doorbell := d, stopEvent := e, thread := .retrieve } r < s.ahead r := by
  have hq : r ∈ s.queue := by simpa [Waiting, ht, Thread.held] using h
  have hp : 0 < s.phase := by
    simp only [State.phase, ht]
    split <;> omega
  refine ⟨.inr hq, ?_⟩
  simp only [State.ahead, ht, Thread.held, Multiset.notMem_zero, if_false, reduceCtorEq,
    State.phase] at hp ⊢
  omega

/-- What `SkControlQuiesce` does before the thread has gone. -/
theorem untouched_quiesce {b c : Bool} {q : Quiesce} (h : Waiting r s) (hx : s.thread ≠ .exited)
    (ha : a ∈ Agent.quiesce.actions ∨ a = .closeGate) :
    Untouched r s a { s with stop := b, stopEvent := c, quiesce := q } := by
  refine ⟨h, by simp [State.ahead, State.phase, hx], rfl, ?_⟩
  have hne : s.agent ≠ .quiesce := by
    cases ht : s.thread <;> simp [State.agent, ht]
    · cases s.doorbell <;> simp
    · exact hx ht
  rcases ha with ha | rfl
  · cases hag : s.agent <;> simp [hag, Agent.actions] at ha hne ⊢ <;> aesop
  · cases hag : s.agent <;> simp [Agent.actions]

theorem waiting_step (hs : system.step s a t) (hw : Awake s)
    (hx : s.thread = .exited → s.stop = true) (h : Waiting r s) :
    Settled r t ∨ Waiting r t ∧ t.ahead r < s.ahead r ∨ Untouched r s a t := by
  cases hs with
  | arrive =>
    refine .inr (.inr ⟨?_, ?_, rfl, ?_⟩)
    · exact h.imp_right fun hq => List.mem_append_left _ hq
    · rcases held_or_queue h with hh | ⟨hh, hq⟩
      · simp [State.ahead, State.arrive, hh]
      · have hi : s.arrive.queue.idxOf r = s.queue.idxOf r := List.idxOf_append_of_mem hq
        have hp : s.arrive.phase = s.phase := rfl
        simp only [State.ahead, hi, hp]
        rfl
    · cases s.agent <;> simp [Agent.actions]
  | notify =>
    by_cases hwait : s.thread = .wait ∧ s.doorbell = false
    · obtain ⟨ht, hd⟩ := hwait
      refine .inr (.inl ⟨h, ?_⟩)
      simp [State.ahead, ht, Thread.held, State.phase, hd]
    · refine .inr (.inr ⟨h, ?_, ?_, ?_⟩) <;> cases ht : s.thread <;>
        simp_all [State.ahead, State.phase, State.agent, Agent.actions]
  | thread =>
    by_cases hwait : s.thread = .wait
    · have he : s.runThread = s := by simp [State.runThread, hwait]
      refine .inr (.inr ⟨he.symm ▸ h, by rw [he], by rw [he], ?_⟩)
      cases hd : s.doorbell <;> simp [State.agent, hwait, hd, Agent.actions]
    by_cases hexit : s.thread = .exited
    · have he : s.runThread = s := by simp [State.runThread, hexit]
      exact .inr (.inr ⟨he.symm ▸ h, by rw [he], by rw [he], by simp [State.agent, hexit,
        Agent.actions]⟩)
    exact (waiting_thread h hwait hexit).imp_right .inl
  | wakeDoorbell ht | wakeStop ht | timeout ht => exact .inr (.inl (waiting_wake h ht))
  | closeGate hq =>
    have hnx : s.thread ≠ .exited := by
      intro ht
      have hst := hw.stopped
      rw [hx ht, hq] at hst
      cases hst
    exact .inr (.inr (untouched_quiesce h hnx (.inr rfl)))
  | setStop hq =>
    have hnx : s.thread ≠ .exited := by
      intro ht
      have hst := hw.stopped
      rw [hx ht, hq] at hst
      cases hst
    exact .inr (.inr (untouched_quiesce h hnx (.inl (by simp [Agent.actions]))))
  | setEvent hq =>
    by_cases ht : s.thread = .exited
    · refine .inr (.inl ⟨h, ?_⟩)
      simp [State.ahead, ht, Thread.held, hq, Quiesce.left]
    · exact .inr (.inr (untouched_quiesce h ht (.inl (by simp [Agent.actions]))))
  | @join ok hq hok =>
    cases ok with
    | false => exact .inl (.inr (.inr rfl))
    | true =>
      have ht := hok rfl
      refine .inr (.inl ⟨h, ?_⟩)
      simp [State.ahead, ht, Thread.held, hq, Quiesce.left]
  | purge hq =>
    have ht := hw.joined (.inl hq)
    have hr : r ∈ s.queue := by simpa [Waiting, ht, Thread.held] using h
    exact .inl (.inr (.inl (by simp [State.purge, hr])))

theorem waiting_enabled (hw : Awake s) (ha : Accounted s) (hx : s.thread = .exited → s.stop = true)
    (h : Waiting r s) (hn : ¬ Settled r s) : system.Enabled s.agent.actions s := by
  have hqueue : s.thread = .wait ∨ s.thread = .exited → s.queue ≠ [] := by
    intro ht
    have hq : r ∈ s.queue := by rcases ht with ht | ht <;> simpa [Waiting, ht, Thread.held] using h
    exact List.ne_nil_of_mem hq
  cases ht : s.thread with
  | retrieve | retrieved | dispatch | reject | drained =>
    exact ⟨.thread, by simp [State.agent, ht, Agent.actions], _, .thread⟩
  | wait =>
    cases hd : s.doorbell with
    | true =>
      exact ⟨.wakeDoorbell, by simp [State.agent, ht, hd, Agent.actions], _, .wakeDoorbell ht hd⟩
    | false =>
      have hno := hw.queue (.inr ht) (hqueue (.inl ht))
      have hno := hno.resolve_left (by simp [hd])
      exact ⟨.notify, by simp [State.agent, ht, hd, Agent.actions], _, .notify hno⟩
  | exited =>
    have hag : s.agent = .quiesce := by simp [State.agent, ht]
    have hst : s.quiesce.stopped = true := hw.stopped ▸ hx ht
    rw [hag]
    cases hq : s.quiesce with
    | closeGate | setStop => simp [hq, Quiesce.stopped] at hst
    | setEvent => exact ⟨.setEvent, by simp [Agent.actions], _, .setEvent hq⟩
    | join => exact ⟨.join true, by simp [Agent.actions], _, .join hq fun _ => ht⟩
    | joinFailed => exact absurd (.inr (.inr hq)) hn
    | purge => exact ⟨.purge, by simp [Agent.actions], _, .purge hq⟩
    | purged => exact absurd (ha.drained hq) (hqueue (.inr ht))

theorem waiting_ranking (hE : system.Executes E) (r : Request) :
    system.Ranking E Agent.actions 0 (Waiting r) (Settled r) (State.ahead · r) State.agent where
  enabled n _ hP hQ :=
    have hr := hE.reachable n
    waiting_enabled (awake_reachable hr) (accounted_reachable hr) (stop_of_exited hr) hP hQ
  step n a _ hP _ he := by
    have hr := hE.reachable n
    rcases waiting_step (hE.step n a he) (awake_reachable hr) (stop_of_exited hr) hP with
      hq | ⟨hp, hlt⟩ | ⟨hp, heq, hag, hna⟩
    · exact .inl hq
    · exact .inr ⟨hp, .inl hlt⟩
    · exact .inr ⟨hp, .inr ⟨heq, hag, hna⟩⟩

/-- Every request that has arrived is completed by the thread or by the purge, unless the join of
the thread fails. No wait has to time out for it. -/
theorem request_settled (hE : FairRun E) {m : ℕ} (hr : r < (E.state m).arrivals) :
    ∃ n, m ≤ n ∧ Settled r (E.state n) := by
  have hmem : r ∈ (E.state m).completed + (E.state m).thread.held + (E.state m).queue +
      (E.state m).purged := by
    rw [(accounted_reachable (hE.executes.reachable m)).arrived]
    exact Multiset.mem_range.mpr hr
  simp only [Multiset.mem_add, Multiset.mem_coe] at hmem
  rcases hmem with ((hc | hh) | hq) | hp
  · exact ⟨m, le_rfl, .inl hc⟩
  · exact (waiting_ranking hE.executes r).eventually hE.executes hE.fair m.zero_le (.inl hh)
  · exact (waiting_ranking hE.executes r).eventually hE.executes hE.fair m.zero_le (.inr hq)
  · exact ⟨m, le_rfl, .inr (.inl hp)⟩

/-- One request is dispatched; then the thread waits. -/
theorem request_settled_dispatched : ∃ E, FairRun E ∧ 0 < (E.state 0).arrivals ∧
    ∃ n, Settled 0 (E.state n) := by
  obtain ⟨t, hr, ht, hd, hs, hn, hq⟩ : ∃ t, system.Run (initial 1)
      [.thread, .thread, .thread, .thread, .thread] t ∧ t.thread = .wait ∧ t.doorbell = false ∧
        t.stopEvent = false ∧ t.notifies = 0 ∧ t.quiesce = .closeGate :=
    ⟨_, .head .thread <| .head .thread <| .head .thread <| .head .thread <| .head .thread .refl,
      rfl, rfl, rfl, rfl, rfl⟩
  have hloop : ∀ b ∈ [Action.thread], system.step t b t := by
    intro b hb
    rw [List.mem_singleton.mp hb]
    have he : t.runThread = t := by simp [State.runThread, ht]
    have hst : Step t .thread t.runThread := .thread
    rwa [he] at hst
  obtain ⟨E, hE, hf, h0, -⟩ := System.exists_fair (M := system) (A := Agent.actions) ⟨1, rfl⟩
    hr hloop (by
    intro i
    cases i with
    | thread => exact .inr ⟨.thread, by simp, rfl⟩
    | notify =>
      refine .inl ?_
      rintro ⟨a, ha, u, hu⟩
      obtain rfl : a = .notify := ha
      cases hu with
      | notify h => omega
    | wake =>
      refine .inl ?_
      rintro ⟨a, ha | ha, u, hu⟩
      · obtain rfl := ha
        cases hu with
        | wakeDoorbell _ h => simp [hd] at h
      · obtain rfl : a = .wakeStop := ha
        cases hu with
        | wakeStop _ h => simp [hs] at h
    | quiesce =>
      refine .inl ?_
      rintro ⟨a, ha, u, hu⟩
      cases hu <;> simp_all [Agent.actions])
  have hpos : 0 < (E.state 0).arrivals := by
    rw [h0]
    decide
  obtain ⟨n, -, hn⟩ := request_settled ⟨hE, hf⟩ hpos
  exact ⟨E, ⟨hE, hf⟩, hpos, n, hn⟩

/-! ### The end of a quiesce -/

/-- The stop event has been set. -/
def Quiesce.joining : Quiesce → Bool
  | .closeGate | .setStop | .setEvent => false
  | .join | .joinFailed | .purge | .purged => true

/-- The steps of `SkControlQuiesce` before its join. -/
def Quiesce.opening : Quiesce → ℕ
  | .setStop => 2
  | .setEvent => 1
  | .closeGate | .join | .joinFailed | .purge | .purged => 0

theorem runThread_quiesce (s : State) : s.runThread.quiesce = s.quiesce := by
  unfold State.runThread
  (repeat' split) <;> rfl

theorem joining_step (h : system.step s a t) (hj : s.quiesce.joining = true) :
    t.quiesce.joining = true := by
  cases h with
  | closeGate hq | setStop hq | setEvent hq => simp [hq, Quiesce.joining] at hj
  | @join ok => cases ok <;> rfl
  | purge => rfl
  | thread => rwa [runThread_quiesce]
  | arrive | notify | wakeDoorbell | wakeStop | timeout => exact hj

theorem opening_step (h : system.step s a t) (hq : s.quiesce ≠ .closeGate)
    (hj : s.quiesce.joining = false) : t.quiesce.joining = true ∨ t.quiesce ≠ .closeGate ∧
      (t.quiesce.opening < s.quiesce.opening ∨
        t.quiesce.opening = s.quiesce.opening ∧ a ∉ Agent.quiesce.actions) := by
  cases h with
  | closeGate hq' => exact absurd hq' hq
  | setStop hq => exact .inr ⟨nofun, .inl (by simp [hq, Quiesce.opening])⟩
  | setEvent => exact .inl rfl
  | join hq | purge hq => simp [hq, Quiesce.joining] at hj
  | thread =>
    rw [runThread_quiesce]
    exact .inr ⟨hq, .inr ⟨rfl, by simp [Agent.actions]⟩⟩
  | arrive | notify | wakeDoorbell | wakeStop | timeout =>
    exact .inr ⟨hq, .inr ⟨rfl, by simp [Agent.actions]⟩⟩

theorem opening_ranking (hE : system.Executes E) :
    system.Ranking E Agent.actions 0 (fun s => s.quiesce ≠ .closeGate)
      (fun s => s.quiesce.joining = true) (fun s => s.quiesce.opening) (fun _ => .quiesce) where
  enabled n _ hP hQ := by
    cases hq : (E.state n).quiesce with
    | closeGate => exact absurd hq hP
    | setStop => exact ⟨.setStop, by simp [Agent.actions], _, .setStop hq⟩
    | setEvent => exact ⟨.setEvent, by simp [Agent.actions], _, .setEvent hq⟩
    | join | joinFailed | purge | purged => simp [hq, Quiesce.joining] at hQ
  step n a _ hP hQ he := by
    rcases opening_step (hE.step n a he) hP (by simpa using hQ) with h | ⟨h, hlt | ⟨heq, hna⟩⟩
    · exact .inl h
    · exact .inr ⟨h, .inl hlt⟩
    · exact .inr ⟨h, .inr ⟨heq, rfl, hna⟩⟩

/-- The steps of the thread to its exit, if nothing arrives any more. -/
def State.toExit (s : State) : ℕ :=
  match s.thread with
  | .retrieved _ => 3 * s.queue.length + 4
  | .wait | .dispatch _ | .reject _ => 3 * s.queue.length + 3
  | .retrieve => 3 * s.queue.length + 2
  | .drained => 1
  | .exited => 0

def State.waker (s : State) : Agent := if s.thread = .wait then .wake else .thread

theorem toExit_thread (hst : s.stop = true) (hne : s.thread ≠ .wait) (hnx : s.thread ≠ .exited) :
    s.runThread.toExit < s.toExit := by
  cases ht : s.thread with
  | retrieve =>
    cases hq : s.queue with
    | nil => simp [State.runThread, State.toExit, ht, hq]
    | cons q queue =>
      simp [State.runThread, State.toExit, ht, hq]
      omega
  | retrieved | drained => simp [State.runThread, State.toExit, ht, hst]
  | dispatch | reject => simp [State.runThread, State.toExit, ht]
  | wait => exact absurd ht hne
  | exited => exact absurd ht hnx

theorem exit_step (h : system.step s a t) (ha : a ≠ .arrive) (hw : Awake s)
    (hj : s.quiesce.joining = true) (hx : s.thread ≠ .exited) :
    (t.thread = .exited ∨ t.quiesce = .joinFailed) ∨ t.toExit < s.toExit ∨
      t.toExit = s.toExit ∧ t.waker = s.waker ∧ a ∉ s.waker.actions := by
  have hst : s.stop = true := by
    rw [hw.stopped]
    cases hq : s.quiesce <;> simp [hq, Quiesce.joining] at hj <;> rfl
  have hwake : ∀ {d e : Bool}, s.thread = .wait →
      State.toExit { s with doorbell := d, stopEvent := e, thread := .retrieve } < s.toExit := by
    intro d e ht
    simp [State.toExit, ht]
  cases h with
  | arrive => exact absurd rfl ha
  | notify =>
    refine .inr (.inr ⟨rfl, rfl, ?_⟩)
    unfold State.waker
    split <;> simp [Agent.actions]
  | thread =>
    by_cases hwait : s.thread = .wait
    · have he : s.runThread = s := by simp [State.runThread, hwait]
      rw [he]
      exact .inr (.inr ⟨rfl, rfl, by simp [State.waker, hwait, Agent.actions]⟩)
    · exact .inr (.inl (toExit_thread hst hwait hx))
  | wakeDoorbell ht | wakeStop ht | timeout ht => exact .inr (.inl (hwake ht))
  | closeGate hq | setStop hq | setEvent hq => simp [hq, Quiesce.joining] at hj
  | @join ok hq hok =>
    cases ok with
    | true => exact absurd (hok rfl) hx
    | false => exact .inl (.inr rfl)
  | purge hq => exact absurd (hw.joined (.inl hq)) hx

theorem exit_ranking (hE : system.Executes E) {N : ℕ} (hN : ∀ n, N ≤ n → E.event n ≠ some .arrive) :
    system.Ranking E Agent.actions N (fun s => s.quiesce.joining = true)
      (fun s => s.thread = .exited ∨ s.quiesce = .joinFailed) State.toExit State.waker where
  enabled n _ hP hQ := by
    have hw := awake_reachable (hE.reachable n)
    have hst : (E.state n).stop = true := by
      rw [hw.stopped]
      cases hq : (E.state n).quiesce <;> simp [hq, Quiesce.joining] at hP <;> rfl
    by_cases ht : (E.state n).thread = .wait
    · have hev := (hw.stop ht hst).resolve_right (by
        intro hq
        simp [hq, Quiesce.joining] at hP)
      exact ⟨.wakeStop, by simp [State.waker, ht, Agent.actions], _, .wakeStop ht hev⟩
    · exact ⟨.thread, by simp [State.waker, ht, Agent.actions], _, .thread⟩
  step n a hn hP hQ he := by
    have hs := hE.step n a he
    have hw := awake_reachable (hE.reachable n)
    rcases exit_step hs (fun ha => hN n hn (ha ▸ he)) hw hP (fun h => hQ (.inl h)) with
      h | hlt | h
    · exact .inl h
    · exact .inr ⟨joining_step hs hP, .inl hlt⟩
    · exact .inr ⟨joining_step hs hP, .inr h⟩

theorem exited_step (h : system.step s a t) (hx : s.thread = .exited) : t.thread = .exited := by
  cases h with
  | thread => simp [State.runThread, hx]
  | wakeDoorbell ht | wakeStop ht | timeout ht => simp [hx] at ht
  | arrive | notify | closeGate | setStop | setEvent | join | purge => exact hx

theorem left_step (h : system.step s a t) (hx : s.thread = .exited)
    (hj : s.quiesce.joining = true) : (t.quiesce = .purged ∨ t.quiesce = .joinFailed) ∨
      t.quiesce.left < s.quiesce.left ∨
        t.quiesce.left = s.quiesce.left ∧ a ∉ Agent.quiesce.actions := by
  cases h with
  | closeGate hq | setStop hq | setEvent hq => simp [hq, Quiesce.joining] at hj
  | @join ok hq =>
    cases ok with
    | true => exact .inr (.inl (by simp [hq, Quiesce.left]))
    | false => exact .inl (.inr rfl)
  | purge => exact .inl (.inl rfl)
  | wakeDoorbell ht | wakeStop ht | timeout ht => simp [hx] at ht
  | thread =>
    rw [runThread_quiesce]
    exact .inr (.inr ⟨rfl, by simp [Agent.actions]⟩)
  | arrive | notify => exact .inr (.inr ⟨rfl, by simp [Agent.actions]⟩)

theorem left_ranking (hE : system.Executes E) : system.Ranking E Agent.actions 0
    (fun s => s.thread = .exited ∧ s.quiesce.joining = true)
    (fun s => s.quiesce = .purged ∨ s.quiesce = .joinFailed)
    (fun s => s.quiesce.left) (fun _ => .quiesce) where
  enabled n _ hP hQ := by
    cases hq : (E.state n).quiesce with
    | closeGate | setStop | setEvent => simp [hq, Quiesce.joining] at hP
    | join => exact ⟨.join true, by simp [Agent.actions], _, .join hq fun _ => hP.1⟩
    | purge => exact ⟨.purge, by simp [Agent.actions], _, .purge hq⟩
    | joinFailed => exact absurd (.inr hq) hQ
    | purged => exact absurd (.inl hq) hQ
  step n a _ hP _ he := by
    have hs := hE.step n a he
    have hP' := And.intro (exited_step hs hP.1) (joining_step hs hP.2)
    rcases left_step hs hP.1 hP.2 with h | hlt | ⟨heq, hna⟩
    · exact .inl h
    · exact .inr ⟨hP', .inl hlt⟩
    · exact .inr ⟨hP', .inr ⟨heq, rfl, hna⟩⟩

/-- Once it has closed the gate `SkControlQuiesce` comes to an end, if from some time on no
request arrives: the queue is purged, or the join of the thread has failed. -/
theorem quiesce_ends (hE : FairRun E) {N m : ℕ} (hN : ∀ n, N ≤ n → E.event n ≠ some .arrive)
    (hm : (E.state m).quiesce ≠ .closeGate) :
    ∃ n, m ≤ n ∧ ((E.state n).quiesce = .purged ∨ (E.state n).quiesce = .joinFailed) := by
  obtain ⟨k, hmk, hk⟩ := (opening_ranking hE.executes).eventually hE.executes hE.fair m.zero_le hm
  have hj : (E.state (max k N)).quiesce.joining = true :=
    hE.executes.persists (le_max_left ..) hk fun _ hs h => joining_step hs h
  obtain ⟨l, hkl, hl⟩ := (exit_ranking hE.executes hN).eventually hE.executes hE.fair
    (le_max_right ..) hj
  have hml : m ≤ l := by omega
  rcases hl with hx | hf
  · have hj' : (E.state l).quiesce.joining = true :=
      hE.executes.persists hkl hj fun _ hs h => joining_step hs h
    obtain ⟨n, hln, hn⟩ := (left_ranking hE.executes).eventually hE.executes hE.fair
      l.zero_le ⟨hx, hj'⟩
    exact ⟨n, hml.trans hln, hn⟩
  · exact ⟨l, hml, .inr hf⟩

/-- The thread finds the queue empty and exits, and the join succeeds. -/
theorem quiesce_ends_purged : ∃ E, FairRun E ∧ (∃ n, (E.state n).quiesce = .purged) := by
  obtain ⟨t, hr, ht, hn, hq⟩ : ∃ t, system.Run (initial 0)
      [.closeGate, .setStop, .setEvent, .thread, .thread, .join true, .purge] t ∧
        t.thread = .exited ∧ t.notifies = 0 ∧ t.quiesce = .purged :=
    ⟨_, .head (.closeGate rfl) <| .head (.setStop rfl) <| .head (.setEvent rfl) <|
      .head .thread <| .head .thread <| .head (.join rfl fun _ => rfl) <| .head (.purge rfl) .refl,
      rfl, rfl, rfl⟩
  have hloop : ∀ b ∈ [Action.thread], system.step t b t := by
    intro b hb
    rw [List.mem_singleton.mp hb]
    have he : t.runThread = t := by simp [State.runThread, ht]
    have hst : Step t .thread t.runThread := .thread
    rwa [he] at hst
  obtain ⟨E, hE, hf, h0, hend⟩ := System.exists_fair (M := system) (A := Agent.actions)
    ⟨0, rfl⟩ hr hloop (by
    intro i
    cases i with
    | thread => exact .inr ⟨.thread, by simp, rfl⟩
    | notify | wake | quiesce =>
      refine .inl ?_
      rintro ⟨a, ha, u, hu⟩
      cases hu <;> simp_all [Agent.actions])
  have hN : ∀ n, 7 ≤ n → E.event n ≠ some .arrive := by
    intro n hn he
    have hs := hE.step n .arrive he
    rw [hend n hn] at hs
    generalize E.state (n + 1) = u at hs
    cases hs with
    | arrive h => exact h hq
  have hm : (E.state 7).quiesce ≠ .closeGate := by
    rw [hend 7 le_rfl, hq]
    rintro ⟨⟩
  obtain ⟨n, hn, h | h⟩ := quiesce_ends ⟨hE, hf⟩ hN hm
  · exact ⟨E, ⟨hE, hf⟩, n, h⟩
  · rw [hend n hn, hq] at h
    cases h

end Sentinel.Consumer
