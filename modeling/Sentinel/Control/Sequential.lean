import Sentinel.Control.Consumer
import Sentinel.Control.Retries
import Sentinel.Control.RoundTrip

/-! The control plane at work: the consumer thread with the handlers that it runs and
`SkControlQuiesce` beside it, while classifications use the rate-limit buckets. -/
namespace Sentinel.Control

open Transition Bytes Codec TwoRuns

/-! ### The buckets do not show -/

/-- Two stores with the same rules and the same undo; the buckets may differ. -/
structure SameRules (s s' : Store) : Prop where
  current : s.current = s'.current
  rollbackSlot : s.rollbackSlot = s'.rollbackSlot

theorem SameRules.refl (s : Store) : SameRules s s := ⟨rfl, rfl⟩

theorem SameRules.trans {s s' s'' : Store} (h : SameRules s s') (h' : SameRules s' s'') :
    SameRules s s'' :=
  ⟨h.current.trans h'.current, h.rollbackSlot.trans h'.rollbackSlot⟩

theorem SameRules.symm {s s' : Store} (h : SameRules s s') : SameRules s' s :=
  ⟨h.current.symm, h.rollbackSlot.symm⟩

theorem SameRules.wellFormed {s s' : Store} (h : SameRules s s') (hs : s.WellFormed) :
    s'.WellFormed :=
  ⟨h.current ▸ hs.current, h.rollbackSlot ▸ hs.rollbackSlot⟩

/-- What a handler of the store returns. -/
def SameWrite (x y : NtStatus × Store) : Prop := x.1 = y.1 ∧ SameRules x.2 y.2

/-- The same to the caller, with the same rules after it. -/
structure SameAnswer (a a' : Reply) : Prop where
  status : a.status = a'.status
  information : a.information = a'.information
  buffers : a.buffers = a'.buffers
  store : SameRules a.store a'.store

variable {c : Call} {d : Driver} {b : Buffers} {r : Ioctl} {s s' : Store} {a a' : Reply}

theorem SameAnswer.complete (h : SameAnswer a a') : SameAnswer a.complete a'.complete :=
  ⟨h.status, h.information, h.buffers, h.store⟩

/-- A writer reads the current snapshot and the rollback slot, and no bucket. -/
theorem sameRules_run (h : SameRules s s') (w : Writer) (env : Env) :
    SameWrite (s.run w env) (s'.run w env) := by
  rw [Store.run, Store.run, h.current, h.rollbackSlot]
  split
  · exact ⟨rfl, h⟩
  split
  · exact ⟨rfl, h⟩
  split
  · exact ⟨rfl, h⟩
  split
  · exact ⟨rfl, h⟩
  split
  · exact ⟨rfl, h⟩
  split
  · exact ⟨rfl, h⟩
  · refine ⟨rfl, ?_, ?_⟩
    · simp only [Store.commit, Store.publish, h.current]
    · simp only [Store.commit, Store.publish, h.current]

theorem sameRules_refuse (h : SameRules d.store s') (st : NtStatus) (n : UInt32) :
    SameAnswer (refuse d b st n) (refuse { d with store := s' } b st n) := ⟨rfl, rfl, rfl, h⟩

theorem sameRules_fixedReply (h : SameRules d.store s') (bytes : List UInt8) :
    Related SameAnswer (fixedReply c d b bytes) (fixedReply c { d with store := s' } b bytes) := by
  rw [fixedReply, fixedReply]
  split
  · exact sameRules_refuse h _ _
  · refine Related.bind .refl ?_
    rintro b _ rfl
    refine Related.bind .refl ?_
    rintro b _ rfl
    exact ⟨rfl, rfl, rfl, h⟩

theorem sameRules_noPayload {x y : Outcome NtStatus (NtStatus × Store)}
    (h : Related SameWrite x y) :
    Related SameAnswer (noPayload d b x) (noPayload { d with store := s' } b y) := by
  refine h.bind ?_
  rintro ⟨st, s⟩ ⟨_, s'⟩ ⟨rfl, hs⟩
  exact ⟨rfl, rfl, rfl, hs⟩

theorem sameRules_enumRules (h : SameRules d.store s') :
    Related SameAnswer (cmdEnumRules c d b) (cmdEnumRules c { d with store := s' } b) := by
  rw [cmdEnumRules, cmdEnumRules]
  dsimp only
  split
  · exact sameRules_refuse h _ _
  · split
    · exact sameRules_refuse h _ _
    split
    · exact sameRules_refuse h _ _
    · refine Related.bind .refl ?_
      rintro ⟨count, overflow, b⟩ _ rfl
      dsimp only
      split
      · exact ⟨rfl, rfl, rfl, h⟩
      · refine Related.bind .refl ?_
        rintro b _ rfl
        refine Related.bind .refl ?_
        rintro b _ rfl
        refine Related.bind .refl ?_
        rintro b _ rfl
        exact ⟨rfl, rfl, rfl, h⟩

/-- `SkTelemetryFlush` reads the ring alone. -/
theorem flushRecords_store (start : UInt32) (n i cursor : ℕ) (b : Buffers) :
    flushRecords c { d with store := s' } start n i cursor b =
      flushRecords c d start n i cursor b := by
  induction n generalizing i cursor b with
  | zero => rfl
  | succ n ih =>
    simp only [flushRecords, ih]

theorem sameRules_flushEvents (h : SameRules d.store s') :
    Related SameAnswer (cmdFlushEvents c d b) (cmdFlushEvents c { d with store := s' } b) := by
  rw [cmdFlushEvents, cmdFlushEvents]
  dsimp only
  split
  · exact sameRules_refuse h _ _
  · refine Related.bind (.of_eq (flushRecords_store ..).symm) ?_
    rintro b _ rfl
    refine Related.bind .refl ?_
    rintro b _ rfl
    refine Related.bind .refl ?_
    rintro b _ rfl
    exact ⟨rfl, rfl, rfl, h⟩

theorem sameRules_addOrUpdateRule (h : SameRules d.store s') (isUpdate : Bool) :
    Related SameWrite (cmdAddOrUpdateRule c d b isUpdate)
      (cmdAddOrUpdateRule c { d with store := s' } b isUpdate) := by
  rw [cmdAddOrUpdateRule, cmdAddOrUpdateRule]
  split
  · trivial
  · exact ⟨rfl, h⟩
  split
  · exact ⟨rfl, h⟩
  · refine Related.bind .refl ?_
    rintro rule _ rfl
    exact sameRules_run h _ _

theorem sameRules_deleteRule (h : SameRules d.store s') :
    Related SameWrite (cmdDeleteRule c d b) (cmdDeleteRule c { d with store := s' } b) := by
  rw [cmdDeleteRule, cmdDeleteRule]
  split
  · exact ⟨rfl, h⟩
  · refine Related.bind .refl ?_
    rintro ruleId _ rfl
    exact sameRules_run h _ _

theorem sameRules_setDefaultPolicy (h : SameRules d.store s') :
    Related SameWrite (cmdSetDefaultPolicy c d b)
      (cmdSetDefaultPolicy c { d with store := s' } b) := by
  rw [cmdSetDefaultPolicy, cmdSetDefaultPolicy]
  split
  · exact ⟨rfl, h⟩
  · refine Related.bind .refl ?_
    rintro policy _ rfl
    split
    · exact ⟨rfl, h⟩
    · exact sameRules_run h _ _

theorem sameRules_replaceRuleset (h : SameRules s s') (payload : List UInt8) (alloc : Bool)
    (env : Env) : Related SameWrite (cmdReplaceRuleset payload alloc env s)
      (cmdReplaceRuleset payload alloc env s') := by
  rw [cmdReplaceRuleset, cmdReplaceRuleset]
  split
  · trivial
  · exact ⟨rfl, h⟩
  · exact sameRules_run h _ _

theorem sameRules_handle (h : SameRules d.store s') (command : Command) :
    Related SameAnswer (handle c d b command) (handle c { d with store := s' } b command) := by
  cases command with
  | queryCapabilities => exact sameRules_fixedReply h _
  | getRuleVersion =>
    rw [handle, handle, cmdGetRuleVersion, cmdGetRuleVersion]
    dsimp only
    split
    · exact sameRules_refuse h _ _
    split
    · exact sameRules_refuse h _ _
    · exact sameRules_fixedReply h _
  | addRule => exact sameRules_noPayload (sameRules_addOrUpdateRule h false)
  | updateRule => exact sameRules_noPayload (sameRules_addOrUpdateRule h true)
  | deleteRule => exact sameRules_noPayload (sameRules_deleteRule h)
  | enumRules => exact sameRules_enumRules h
  | replaceRuleset => exact sameRules_noPayload (sameRules_replaceRuleset h _ _ _)
  | clearRules => exact sameRules_noPayload (sameRules_run h _ _)
  | setDefaultPolicy => exact sameRules_noPayload (sameRules_setDefaultPolicy h)
  | getStats => exact sameRules_fixedReply h _
  | flushEvents => exact sameRules_flushEvents h

theorem sameRules_echoIfRoom (h : SameAnswer a a') :
    Related SameAnswer (echoIfRoom c a) (echoIfRoom c a') := by
  rw [echoIfRoom, echoIfRoom, ← h.status, ← h.information, ← h.buffers]
  split
  · refine Related.bind .refl ?_
    rintro b _ rfl
    exact ⟨rfl, rfl, rfl, h.store⟩
  · exact h

/-- `SkIoctlEvtDeviceControl` answers the same and leaves the same rules whatever the buckets. -/
theorem sameRules_evtDeviceControl (h : SameRules d.store s') :
    Related SameAnswer (evtDeviceControl r d b) (evtDeviceControl r { d with store := s' } b) := by
  have hcheck : check r { d with store := s' } b = check r d b := rfl
  rw [evtDeviceControl, evtDeviceControl, hcheck]
  split
  · trivial
  · exact (sameRules_refuse h _ _).complete
  · refine (sameRules_handle h _).bind fun a a' ha => ?_
    exact (sameRules_echoIfRoom ha).bind fun a a' ha => ha.complete

/-! ### Dispatches -/

/-- Two states that differ in the buckets, the ring and the statistics at most. -/
structure State.Alike (p p' : State) : Prop where
  store : SameRules p.store p'.store
  images : p.images = p'.images

variable {p p' t t' : State} {q : Arrival} {o : List Completion}
  {f : RateTable × Telemetry → RateTable × Telemetry}

theorem State.Alike.refl (p : State) : p.Alike p := ⟨.refl _, rfl⟩

theorem State.Alike.trans {p'' : State} (h : p.Alike p') (h' : p'.Alike p'') : p.Alike p'' :=
  ⟨h.store.trans h'.store, h.images.trans h'.images⟩

theorem State.Alike.symm (h : p.Alike p') : p'.Alike p := ⟨h.store.symm, h.images.symm⟩

theorem State.Alike.traffic (h : p.Alike p') : p.Alike (p'.traffic f) :=
  ⟨⟨h.store.current, h.store.rollbackSlot⟩, h.images⟩

theorem State.Alike.driver (h : p.Alike p') (ht : p.telemetry = p'.telemetry) :
    q.driver p' = { q.driver p with store := p'.store } := by
  have hview : p'.view = p.view := by
    simp only [Policy.view, ← h.images, ← h.store.current]
  simp only [Arrival.driver, hview, ht]

theorem State.Alike.after (h : p.Alike p') {s s' : Store} {u u' : Telemetry}
    (hs : SameRules s s') (hw : s.WellFormed) (hw' : s'.WellFormed) :
    State.Alike ⟨p.after q s hw, u⟩ ⟨p'.after q s' hw', u'⟩ := by
  have hiff : s'.current = p'.store.current ↔ s.current = p.store.current := by
    rw [hs.current, h.store.current]
  rw [Policy.after, Policy.after]
  by_cases hc : s.current = p.store.current
  · rw [dif_pos hc, dif_pos (hiff.mpr hc)]
    exact ⟨hs, h.images⟩
  · rw [dif_neg hc, dif_neg (mt hiff.mp hc)]
    exact ⟨hs, congrArg (List.map q.image) (congrArg Snapshot.rules hs.current)⟩

/-- A dispatch does not see the buckets. -/
theorem dispatch_alike (h : p.Alike p') (ht : p.telemetry = p'.telemetry)
    (hd : Dispatch p (.request q, o) t) :
    ∃ t', Dispatch p' (.request q, o) t' ∧ t.Alike t' := by
  cases hd with
  | @request _ a hw ha =>
    have hrel : Related SameAnswer (evtDeviceControl q.ioctl (q.driver p) q.buffers)
        (evtDeviceControl q.ioctl (q.driver p') q.buffers) :=
      h.driver ht ▸ sameRules_evtDeviceControl h.store
    obtain ⟨a₁, ha₁, hf⟩ := @evtDeviceControl_served (q.driver p) _ _ q.loaded
    obtain ⟨a', ha', hf'⟩ := @evtDeviceControl_served (q.driver p') _ _ q.loaded
    obtain rfl := Outcome.ok.inj (ha₁.symm.trans ha)
    rw [ha, ha'] at hrel
    have ho : a'.completions = a₁.completions := by
      rw [hf'.completions, hf.completions, Reply.output, Reply.output, hrel.status,
        hrel.information, hrel.buffers]
    have hw' : a'.store.WellFormed := hrel.store.wellFormed hw
    have hd' : Dispatch p' (.request q, a'.completions) ⟨p'.after q a'.store hw', a'.telemetry⟩ :=
      .request hw' ha'
    rw [ho] at hd'
    exact ⟨_, hd', h.after hrel.store hw hw'⟩

/-- Whatever others have done to the ring meanwhile, a dispatch has the same effect. -/
theorem dispatch_later (h : p.Alike p') (hd : Dispatch p' (.request q, o) t) :
    ∃ f t', Dispatch (p.traffic f) (.request q, o) t' ∧ t'.Alike t := by
  let f : RateTable × Telemetry → RateTable × Telemetry := fun x => (x.1, p'.telemetry)
  have halike : p'.Alike (p.traffic f) := h.symm.traffic
  obtain ⟨t', hd', ht'⟩ := dispatch_alike halike rfl hd
  exact ⟨f, t', hd', ht'.symm⟩

/-- Behind a closed gate a request changes nothing. -/
def notReady : Completion := ⟨statusDeviceNotReady, 0, []⟩

/-- The request with what the thread has read of `g_ControlGateOpen`. -/
def Arrival.withGate (q : Arrival) (gate : Bool) : Arrival := { q with gateOpen := gate }

theorem dispatch_closed (h : Dispatch p (.request (q.withGate false), o) t) :
    o = [notReady] ∧ t = p := by
  cases h with
  | @request _ a hw ha =>
    have hcheck : check q.ioctl ((q.withGate false).driver p) q.buffers =
      .error statusDeviceNotReady := if_pos (.inl rfl)
    have hrefused : evtDeviceControl q.ioctl ((q.withGate false).driver p) q.buffers =
        .ok (refuse ((q.withGate false).driver p) q.buffers statusDeviceNotReady 0).complete := by
      rw [evtDeviceControl, hcheck]
    obtain rfl := Outcome.ok.inj (hrefused.symm.trans ha)
    refine ⟨rfl, ?_⟩
    have hpolicy : p.after (q.withGate false) p.store hw = p.toPolicy := after_self _
    change (⟨p.after (q.withGate false) p.store hw, p.telemetry⟩ : State) = p
    rw [hpolicy]

/-! ### The plane -/

/-- A request that the consumer thread has done with: what it has read of the gate for it (`none`
if it has seen the stop flag first), its completions and, as a ghost, the ring and the statistics
that it has met. -/
structure Answer where
  request : Consumer.Request
  gate : Option Bool
  telemetry : Telemetry
  completions : List Completion

/-- The queue and its thread, the policy with the ring and the statistics, whether `SkControlInit`
has opened the gate and what the thread has read of the gate for the request that it dispatches.
Ghost: the requests that the thread has done with, the oldest first. -/
structure Plane where
  consumer : Consumer.State
  state : State
  opened : Bool
  gate : Option Bool
  answers : List Answer

namespace Plane

/-- `g_ControlGateOpen`. -/
def gateOpen (x : Plane) : Bool := x.opened && decide (x.consumer.quiesce = .closeGate)

/-- The thread has been created with `n` requests in the queue, the gate is still closed. -/
def start (n : ℕ) (p : State) : Plane := ⟨Consumer.initial n, p, false, none, []⟩

/-- The thread is done with the request that it owns. -/
def answer (x : Plane) (r : Consumer.Request) (g : Option Bool) (o : List Completion)
    (p : State) : Plane :=
  { x with
    consumer := x.consumer.runThread
    state := p
    gate := none
    answers := x.answers ++ [⟨r, g, x.state.telemetry, o⟩] }

inductive Action where
  | openGate
  | consumer (a : Consumer.Action)
  | checkGate
  | serve
  | reject
  | classify
  deriving DecidableEq

end Plane

/-- `contents` says what the requests bring along and meet. The queue, the waits of the thread and
`SkControlQuiesce` are those of the consumer; between the gate check of a dispatch and its end the
others go on. -/
inductive PlaneStep (contents : Consumer.Request → Arrival) : Plane → Plane.Action → Plane → Prop
  | openGate {x : Plane} (h : x.opened = false) :
      PlaneStep contents x .openGate { x with opened := true }
  | consumer {x : Plane} {a : Consumer.Action} {s : Consumer.State}
      (h : Consumer.Step x.consumer a s)
      -- SkControlQuiesce comes after SkControlInit.
      (ho : a = .closeGate → x.opened = true)
      (ht : a = .thread → ∀ r, x.consumer.thread ≠ .dispatch r ∧ x.consumer.thread ≠ .reject r) :
      PlaneStep contents x (.consumer a) { x with consumer := s }
  | checkGate {x : Plane} {r : Consumer.Request} (h : x.consumer.thread = .dispatch r)
      (hg : x.gate = none) :
      PlaneStep contents x .checkGate { x with gate := some x.gateOpen }
  | serve {x : Plane} {r : Consumer.Request} {g : Bool} {o : List Completion} {p : State}
      (h : x.consumer.thread = .dispatch r) (hg : x.gate = some g)
      (hd : Dispatch x.state (.request ((contents r).withGate g), o) p) :
      PlaneStep contents x .serve (x.answer r (some g) o p)
  | reject {x : Plane} {r : Consumer.Request} (h : x.consumer.thread = .reject r) :
      PlaneStep contents x .reject (x.answer r none [notReady] x.state)
  -- Classifications use the buckets, count and post events.
  | classify {x : Plane} {f : RateTable × Telemetry → RateTable × Telemetry} :
      PlaneStep contents x .classify { x with state := x.state.traffic f }

def plane (contents : Consumer.Request → Arrival) (p : State) : System Plane Plane.Action where
  init x := ∃ n, x = .start n p
  step := PlaneStep contents

variable {contents : Consumer.Request → Arrival} {x y z : Plane} {e : Plane.Action}
  {es : List Plane.Action}

theorem plane_simulation : (plane contents p).Simulation Consumer.system Plane.consumer where
  init := by
    rintro x ⟨n, rfl⟩
    exact ⟨n, rfl⟩
  step := by
    intro x e y _ _ h
    cases h with
    | openGate | checkGate | classify => exact System.exists_run_of_eq rfl
    | @consumer a s h => exact ⟨[a], .single h⟩
    | serve | reject => exact ⟨[.thread], .single .thread⟩

/-! ### In the order of arrival -/

/-- The request that the thread owns. -/
def owned : Consumer.Thread → List Consumer.Request
  | .retrieved r | .dispatch r | .reject r => [r]
  | .retrieve | .drained | .wait | .exited => []

/-- The dispatches among the answers, each with the gate as it has been read and after others
have brought the ring and the statistics to what it has met. -/
def dispatched (contents : Consumer.Request → Arrival) (answers : List Answer) :
    List (Event × List Completion) :=
  answers.flatMap fun a => match a.gate with
    | some g => [(.traffic fun x => (x.1, a.telemetry), []),
      (.request ((contents a.request).withGate g), a.completions)]
    | none => []

/-- The thread takes the requests as they come. -/
structure InOrder (x : Plane) : Prop where
  arrived : x.consumer.quiesce ≠ .purged → x.answers.map Answer.request ++
    (owned x.consumer.thread ++ x.consumer.queue) = List.range x.consumer.arrivals
  answered : x.answers.map Answer.request = List.range x.answers.length
  gate : x.gate ≠ none → ∃ r, x.consumer.thread = .dispatch r

theorem eq_range_of_append {l l' : List ℕ} {n : ℕ} (h : l ++ l' = List.range n) :
    l = List.range l.length := by
  have hlen : l.length ≤ n := by
    have hn := congrArg List.length h
    rw [List.length_append, List.length_range] at hn
    omega
  have htake : (l ++ l').take l.length = l := List.take_left
  rw [h, List.take_range, min_eq_left hlen] at htake
  exact htake.symm

theorem inOrder_start (n : ℕ) (p : State) : InOrder (.start n p) where
  arrived _ := rfl
  answered := rfl
  gate h := absurd rfl h

/-- No step but its own takes the thread out of a dispatch. -/
theorem dispatch_stays {s s' : Consumer.State} {a : Consumer.Action} {r : Consumer.Request}
    (h : Consumer.Step s a s') (hr : s.thread = .dispatch r) (ha : a ≠ .thread) :
    s'.thread = .dispatch r := by
  cases h with
  | thread => exact absurd rfl ha
  | wakeDoorbell ht | wakeStop ht | timeout ht =>
    rw [hr] at ht
    cases ht
  | arrive | notify | closeGate | setStop | setEvent | join | purge => exact hr

/-- The thread goes on without an answer. -/
theorem arrived_runThread {s : Consumer.State} {l : List Consumer.Request}
    (ht : ∀ r, s.thread ≠ .dispatch r ∧ s.thread ≠ .reject r)
    (h : l ++ (owned s.thread ++ s.queue) = List.range s.arrivals) :
    l ++ (owned s.runThread.thread ++ s.runThread.queue) = List.range s.runThread.arrivals := by
  cases hs : s.thread with
  | retrieve =>
    rw [hs] at h
    cases hq : s.queue with
    | nil =>
      simp only [Consumer.State.runThread, hs, hq]
      rw [← h, hq]
      rfl
    | cons r queue =>
      simp only [Consumer.State.runThread, hs, hq]
      rw [← h, hq]
      rfl
  | retrieved r =>
    rw [hs] at h
    simp only [Consumer.State.runThread, hs]
    split
    · exact h
    · exact h
  | dispatch r => exact absurd hs (ht r).1
  | reject r => exact absurd hs (ht r).2
  | drained =>
    rw [hs] at h
    simp only [Consumer.State.runThread, hs]
    split
    · exact h
    · exact h
  | wait =>
    simp only [Consumer.State.runThread, hs]
    rw [hs] at h
    exact h
  | exited =>
    simp only [Consumer.State.runThread, hs]
    rw [hs] at h
    exact h

theorem inOrder_consumer {a : Consumer.Action} {s : Consumer.State} (hi : InOrder x)
    (h : Consumer.Step x.consumer a s)
    (ht : a = .thread → ∀ r, x.consumer.thread ≠ .dispatch r ∧ x.consumer.thread ≠ .reject r) :
    InOrder { x with consumer := s } := by
  refine ⟨fun hp => ?_, hi.answered, fun hg => ?_⟩
  · cases h with
    | arrive hq =>
      have harr := hi.arrived hq
      simp only [Consumer.State.arrive]
      rw [List.range_succ, ← harr]
      simp only [List.append_assoc]
    | thread =>
      have hq : x.consumer.runThread.quiesce = x.consumer.quiesce := by
        simp only [Consumer.State.runThread]
        split
        · split <;> rfl
        · split <;> rfl
        · rfl
        · rfl
        · split <;> rfl
        · rfl
        · rfl
      exact arrived_runThread (ht rfl) (hi.arrived (hq ▸ hp))
    | wakeDoorbell hw | wakeStop hw | timeout hw =>
      have harr := hi.arrived hp
      rw [hw] at harr
      exact harr
    | notify => exact hi.arrived hp
    | closeGate hq | setStop hq | setEvent hq | join hq => exact hi.arrived (by simp [hq])
    | purge => exact absurd rfl hp
  · obtain ⟨r, hr⟩ := hi.gate hg
    refine ⟨r, dispatch_stays h hr ?_⟩
    intro ha
    exact (ht ha r).1 hr

/-- The thread answers the request that it owns. -/
theorem inOrder_answer {r : Consumer.Request} {g : Option Bool} (hi : InOrder x)
    (hw : Consumer.Awake x.consumer)
    (h : x.consumer.thread = .dispatch r ∨ x.consumer.thread = .reject r) :
    InOrder (x.answer r g o p) := by
  have hlive : x.consumer.quiesce ≠ .purged := by
    intro hq
    have hex := hw.joined (.inr hq)
    rw [hex] at h
    simp at h
  have howned : owned x.consumer.thread = [r] := by
    obtain h | h := h
    · rw [h]
      rfl
    · rw [h]
      rfl
  have hrun : x.consumer.runThread.thread = .retrieve ∧
      x.consumer.runThread.queue = x.consumer.queue ∧
      x.consumer.runThread.arrivals = x.consumer.arrivals := by
    obtain h | h := h
    · simp [Consumer.State.runThread, h]
    · simp [Consumer.State.runThread, h]
  have harr : (x.answer r g o p).answers.map Answer.request ++ x.consumer.queue =
      List.range x.consumer.arrivals := by
    rw [← hi.arrived hlive, howned, Plane.answer, List.map_append, List.append_assoc]
    rfl
  refine ⟨fun _ => ?_, ?_, fun hg => absurd rfl hg⟩
  · simp only [Plane.answer]
    rw [hrun.1, hrun.2.1, hrun.2.2]
    exact harr
  · have hrange := eq_range_of_append harr
    rw [List.length_map] at hrange
    exact hrange

theorem inOrder_step (h : (plane contents p).step x e y) (hw : Consumer.Awake x.consumer)
    (hi : InOrder x) : InOrder y := by
  cases h with
  | openGate => exact ⟨hi.arrived, hi.answered, hi.gate⟩
  | consumer hs _ ht => exact inOrder_consumer hi hs ht
  | checkGate hr => exact ⟨hi.arrived, hi.answered, fun _ => ⟨_, hr⟩⟩
  | serve hr => exact inOrder_answer hi hw (.inl hr)
  | reject hr => exact inOrder_answer hi hw (.inr hr)
  | classify => exact ⟨hi.arrived, hi.answered, hi.gate⟩

theorem awake_plane (h : (plane contents p).Reachable x) : Consumer.Awake x.consumer :=
  Consumer.awake_reachable (plane_simulation.reachable h)

/-! ### One after the other -/

/-- The policy is that of the dispatches one after the other, up to the buckets; every request is
completed once. -/
structure Executed (contents : Consumer.Request → Arrival) (p : State) (x : Plane) : Prop where
  run : ∃ t, dispatches.Run p (dispatched contents x.answers) t ∧ t.Alike x.state
  rejected : ∀ a ∈ x.answers, a.gate = none → a.completions = [notReady]
  once : ∀ a ∈ x.answers, a.completions.length = 1

theorem Executed.answer {r : Consumer.Request} {g : Option Bool} (h : Executed contents p x)
    (hr : ∃ t', dispatches.Run p (dispatched contents (x.answer r g o t).answers) t' ∧ t'.Alike t)
    (hrej : g = none → o = [notReady]) (ho : o.length = 1) :
    Executed contents p (x.answer r g o t) := by
  refine ⟨hr, fun a ha hg => ?_, fun a ha => ?_⟩
  · rcases List.mem_append.mp ha with ha | ha
    · exact h.rejected a ha hg
    · obtain rfl := List.mem_singleton.mp ha
      exact hrej hg
  · rcases List.mem_append.mp ha with ha | ha
    · exact h.once a ha
    · obtain rfl := List.mem_singleton.mp ha
      exact ho

theorem executed_step (h : (plane contents p).step x e y) (hx : Executed contents p x) :
    Executed contents p y := by
  obtain ⟨t, hr, ht⟩ := hx.run
  cases h with
  | openGate | consumer | checkGate => exact ⟨⟨t, hr, ht⟩, hx.rejected, hx.once⟩
  | @serve r g o p' hth hg hd =>
    -- The run goes on with the traffic since the last dispatch.
    let f : RateTable × Telemetry → RateTable × Telemetry := fun y => (y.1, x.state.telemetry)
    have halike : x.state.Alike (t.traffic f) := ht.symm.traffic
    obtain ⟨t', hd', ht'⟩ := dispatch_alike halike rfl hd
    refine hx.answer ⟨t', ?_, ht'.symm⟩ (by simp) (dispatch_once hd)
    have hlast : dispatched contents (x.answers ++ [⟨r, some g, x.state.telemetry, o⟩]) =
        dispatched contents x.answers ++
          [(.traffic f, []), (.request ((contents r).withGate g), o)] := by
      simp [dispatched, f]
    simp only [Plane.answer]
    rw [hlast]
    exact hr.append (.head .traffic (.single hd'))
  | @reject r hth =>
    refine hx.answer ⟨t, ?_, ht⟩ (fun _ => rfl) rfl
    have hlast : dispatched contents (x.answers ++ [⟨r, none, x.state.telemetry, [notReady]⟩]) =
        dispatched contents x.answers := by
      simp [dispatched]
    simp only [Plane.answer]
    rw [hlast]
    exact hr
  | classify => exact ⟨⟨t, hr, ht.traffic⟩, hx.rejected, hx.once⟩

/-! ### The gate closes -/

/-- The thread has found the gate open for `r` and has not completed it yet. -/
def Plane.InFlight (x : Plane) (r : Consumer.Request) : Prop :=
  x.consumer.thread = .dispatch r ∧ x.gate = some true

/-- What can come of `x` once the gate is closed: at most the request in flight has an effect. -/
structure Closed (contents : Consumer.Request → Arrival) (x y : Plane) : Prop where
  policy : x.state.Alike y.state ∨ ∃ r o f t, x.InFlight r ∧
    Dispatch (x.state.traffic f) (.request ((contents r).withGate true), o) t ∧ t.Alike y.state
  answers : ∃ l, y.answers = x.answers ++ l ∧
    ∀ a ∈ l, a.completions = [notReady] ∨ x.InFlight a.request

/-- The gate stays closed, and as long as the request is in flight nothing has changed. -/
structure Closing (contents : Consumer.Request → Arrival) (x y : Plane) : Prop where
  closed : Closed contents x y
  quiesce : y.consumer.quiesce ≠ .closeGate
  inFlight : ∀ r, y.InFlight r → x.InFlight r ∧ x.state.Alike y.state

theorem quiesce_closed {s s' : Consumer.State} {a : Consumer.Action} (h : Consumer.Step s a s')
    (hq : s.quiesce ≠ .closeGate) : s'.quiesce ≠ .closeGate := by
  cases h with
  | thread =>
    simp only [Consumer.State.runThread]
    split
    · split <;> exact hq
    · split <;> exact hq
    · exact hq
    · exact hq
    · split <;> exact hq
    · exact hq
    · exact hq
  | arrive | notify | wakeDoorbell | wakeStop | timeout => exact hq
  | @join ok =>
    cases ok with
    | true => simp
    | false => simp
  | closeGate | setStop | setEvent | purge => simp [Consumer.State.purge]

theorem Closed.answer {r : Consumer.Request} {g : Option Bool} (h : Closed contents x y)
    (hp : x.state.Alike p ∨ ∃ r o f t, x.InFlight r ∧
      Dispatch (x.state.traffic f) (.request ((contents r).withGate true), o) t ∧ t.Alike p)
    (ha : o = [notReady] ∨ x.InFlight r) : Closed contents x (y.answer r g o p) := by
  obtain ⟨l, hl, hall⟩ := h.answers
  refine ⟨hp, l ++ [⟨r, g, y.state.telemetry, o⟩], ?_, fun b hb => ?_⟩
  · simp only [Plane.answer]
    rw [hl, List.append_assoc]
  · obtain hb | hb := List.mem_append.mp hb
    · exact hall b hb
    · obtain rfl := List.mem_singleton.mp hb
      exact ha

theorem closing_step (h : (plane contents p).step y e z) (hi : InOrder y)
    (hc : Closing contents x y) : Closing contents x z := by
  have hidle : ∀ {r r' : Consumer.Request} {g : Option Bool} {o : List Completion} {p' : State},
      ¬ (y.answer r g o p').InFlight r' := by
    intro r r' g o p' hf
    cases hf.2
  cases h with
  | openGate => exact ⟨⟨hc.closed.policy, hc.closed.answers⟩, hc.quiesce, hc.inFlight⟩
  | @consumer a s hs ho ht =>
    refine ⟨⟨hc.closed.policy, hc.closed.answers⟩, quiesce_closed hs hc.quiesce, ?_⟩
    intro r hf
    have hg : y.gate = some true := hf.2
    obtain ⟨r', hr'⟩ := hi.gate (by simp [hg])
    have hstays : s.thread = .dispatch r' := dispatch_stays hs hr' fun ha => (ht ha r').1 hr'
    have heq : Consumer.Thread.dispatch r' = .dispatch r := hstays.symm.trans hf.1
    obtain rfl := Consumer.Thread.dispatch.inj heq
    exact hc.inFlight r' ⟨hr', hg⟩
  | checkGate hr hg =>
    refine ⟨⟨hc.closed.policy, hc.closed.answers⟩, hc.quiesce, ?_⟩
    intro r hf
    have hopen : y.gateOpen = true := Option.some.inj hf.2
    simp [Plane.gateOpen, hc.quiesce] at hopen
  | @serve r g o p' hr hg hd =>
    refine ⟨?_, ?_, fun r hf => absurd hf hidle⟩
    · cases g with
      | true =>
        -- The request in flight: so far nothing has changed.
        obtain ⟨hf, hp⟩ := hc.inFlight r ⟨hr, hg⟩
        obtain ⟨f, t, hd', ht⟩ := dispatch_later hp hd
        exact hc.closed.answer (.inr ⟨r, o, f, t, hf, hd', ht⟩) (.inr hf)
      | false =>
        obtain ⟨rfl, rfl⟩ := dispatch_closed hd
        exact hc.closed.answer hc.closed.policy (.inl rfl)
    · exact quiesce_closed .thread hc.quiesce
  | reject hr =>
    refine ⟨hc.closed.answer hc.closed.policy (.inl rfl), ?_, fun r hf => absurd hf hidle⟩
    exact quiesce_closed .thread hc.quiesce
  | classify =>
    refine ⟨⟨?_, hc.closed.answers⟩, hc.quiesce, ?_⟩
    · obtain hp | ⟨r, o, f, t, hf, hd, ht⟩ := hc.closed.policy
      · exact .inl hp.traffic
      · exact .inr ⟨r, o, f, t, hf, hd, ht.traffic⟩
    · intro r hf
      obtain ⟨hx, hp⟩ := hc.inFlight r hf
      exact ⟨hx, hp.traffic⟩

/-- The thread has exited: nothing changes any more. -/
structure Ended (x y : Plane) : Prop where
  thread : y.consumer.thread = .exited
  answers : y.answers = x.answers
  policy : x.state.Alike y.state

theorem ended_step (h : (plane contents p).step y e z) (hx : Ended x y) : Ended x z := by
  have hex := hx.thread
  cases h with
  | openGate | checkGate => exact ⟨hex, hx.answers, hx.policy⟩
  | @consumer a s hs =>
    refine ⟨?_, hx.answers, hx.policy⟩
    cases hs with
    | thread =>
      simp only [Consumer.State.runThread, hex]
    | wakeDoorbell ht | wakeStop ht | timeout ht =>
      rw [hex] at ht
      cases ht
    | arrive | notify | closeGate | setStop | setEvent | join | purge => exact hex
  | serve hr =>
    rw [hex] at hr
    cases hr
  | reject hr =>
    rw [hex] at hr
    cases hr
  | classify => exact ⟨hex, hx.answers, hx.policy.traffic⟩

theorem answers_step (h : (plane contents p).step x e y) : x.answers <+: y.answers := by
  cases h with
  | openGate | consumer | checkGate | classify => exact List.prefix_rfl
  | serve | reject => exact List.prefix_append _ _

/-- The requests take effect one after the other in the order of their arrival, each once and with
the answer that it gets when nothing else runs. -/
structure Sequential (contents : Consumer.Request → Arrival) (p : State) (x : Plane) : Prop where
  answered : x.answers.map Answer.request = List.range x.answers.length
  once : ∀ a ∈ x.answers, a.completions.length = 1
  rejected : ∀ a ∈ x.answers, a.gate = none → a.completions = [notReady]
  executed : ∃ t, t.Alike x.state ∧ Dispatched p
    ((dispatched contents x.answers).map Prod.fst) (dispatched contents x.answers) t
  kept : ∀ es y, (plane contents p).Run x es y → x.answers <+: y.answers
  closed : x.consumer.quiesce ≠ .closeGate →
    ∀ es y, (plane contents p).Run x es y → Closed contents x y
  joined : x.consumer.quiesce = .purge ∨ x.consumer.quiesce = .purged →
    ∀ es y, (plane contents p).Run x es y → y.answers = x.answers ∧ x.state.Alike y.state

theorem inOrder_reachable (h : (plane contents p).Reachable x) : InOrder x := by
  obtain ⟨x₀, es, ⟨n, rfl⟩, hr⟩ := h
  have hboth : ∀ {y e z}, (plane contents p).step y e z →
      (plane contents p).Reachable y ∧ InOrder y → (plane contents p).Reachable z ∧ InOrder z :=
    fun hs hi => ⟨hi.1.step hs, inOrder_step hs (awake_plane hi.1) hi.2⟩
  exact (hr.preserves hboth ⟨.of_init ⟨n, rfl⟩, inOrder_start n p⟩).2

theorem executed_reachable (h : (plane contents p).Reachable x) : Executed contents p x := by
  refine h.invariant ?_ executed_step
  rintro x ⟨n, rfl⟩
  exact ⟨⟨p, .refl, .refl p⟩, fun a ha => absurd ha List.not_mem_nil,
    fun a ha => absurd ha List.not_mem_nil⟩

theorem closed_run (h : (plane contents p).Reachable x) (hq : x.consumer.quiesce ≠ .closeGate)
    (hr : (plane contents p).Run x es y) : Closed contents x y := by
  have hstart : Closing contents x x :=
    ⟨⟨.inl (.refl _), [], (List.append_nil _).symm, fun a ha => absurd ha List.not_mem_nil⟩, hq,
      fun r hf => ⟨hf, .refl _⟩⟩
  have hboth : ∀ {y e z}, (plane contents p).step y e z →
      (plane contents p).Reachable y ∧ Closing contents x y →
      (plane contents p).Reachable z ∧ Closing contents x z :=
    fun hs hi => ⟨hi.1.step hs, closing_step hs (inOrder_reachable hi.1) hi.2⟩
  exact (hr.preserves hboth ⟨h, hstart⟩).2.closed

theorem requests_sequential (h : (plane contents p).Reachable x) : Sequential contents p x := by
  have hx := executed_reachable h
  obtain ⟨t, hr, ht⟩ := hx.run
  refine ⟨(inOrder_reachable h).answered, hx.once, hx.rejected, ⟨t, ht, dispatched_of_run hr⟩,
    ?_, ?_, ?_⟩
  · intro es y hrun
    exact hrun.preserves (I := fun y => x.answers <+: y.answers)
      (fun hs hp => hp.trans (answers_step hs)) List.prefix_rfl
  · intro hq es y hrun
    exact closed_run h hq hrun
  · intro hq es y hrun
    have hex := (awake_plane h).joined hq
    have hend := hrun.preserves (I := Ended x) ended_step ⟨hex, rfl, .refl _⟩
    exact ⟨hend.answers, hend.policy⟩

/-- `IOCTL_SHINKEN_CLEAR_RULES` through a handle with the privilege. -/
def clearRequest : Ioctl where
  ioControlCode := 0x9C40201C
  paramsCode := 0x9C40201C
  context := some true
  input := u32.encode 24 ++ u16.encode 1 ++ u16.encode 7 ++ u32.encode 0 ++ u32.encode 0 ++
    u64.encode 0
  outLen := 0
  inStatus := statusSuccess
  outStatus := statusSuccess
  outNull := false

def clearArrival : Arrival where
  ioctl := clearRequest
  buffers := ⟨clearRequest.input, none⟩
  loaded := ⟨List.prefix_rfl, Nat.zero_le _⟩
  gateOpen := true
  active := true
  env := .granted
  alloc := true
  padding _ := (.replicate 2 0, .replicate 4 0)

/-- One rule, and no event yet. -/
def pathState : State := ⟨pathPolicy, emptyDriver.toTelemetry⟩

theorem clearArrival_served : ∃ p, p.store.current.rules = [] ∧
    p.telemetry = pathState.telemetry ∧
    Dispatch pathState (.request (clearArrival.withGate true), [⟨statusSuccess, 0, []⟩]) p := by
  have hreply : ∃ a, evtDeviceControl clearRequest ((clearArrival.withGate true).driver pathState)
      ⟨clearRequest.input, none⟩ = .ok a ∧ a.completions = [⟨statusSuccess, 0, []⟩] ∧
      a.store.current.rules = [] := ⟨_, rfl, rfl, rfl⟩
  obtain ⟨a, ha, ho, hrules⟩ := hreply
  obtain ⟨a', ha', hf⟩ := @evtDeviceControl_served
    ((clearArrival.withGate true).driver pathState) _ _ clearArrival.loaded
  obtain rfl := Outcome.ok.inj (ha'.symm.trans ha)
  have hw : a'.store.WellFormed := hf.written.wellFormed pathState.wellFormed
  have hstore : (pathState.after (clearArrival.withGate true) a'.store hw).store = a'.store := by
    unfold Policy.after
    split <;> rfl
  let p : State := ⟨pathState.after (clearArrival.withGate true) a'.store hw, a'.telemetry⟩
  have hd : Dispatch pathState (.request (clearArrival.withGate true), a'.completions) p :=
    .request hw ha
  rw [ho] at hd
  exact ⟨p, (congrArg (fun s => s.current.rules) hstore).trans hrules, hf.telemetry, hd⟩

/-- The gate closes while a request is in flight that deletes the rule, another one is rejected. -/
theorem requests_sequential_inFlight : ∃ x, x.answers =
      [⟨0, some true, pathState.telemetry, [⟨statusSuccess, 0, []⟩]⟩,
        ⟨1, none, pathState.telemetry, [notReady]⟩] ∧
    x.consumer.quiesce = .setEvent ∧ x.state.store.current.rules = [] ∧
      Sequential (fun _ => clearArrival) pathState x := by
  obtain ⟨p, hp, htelemetry, hd⟩ := clearArrival_served
  have hr : ∃ es x, (plane (fun _ => clearArrival) pathState).Run (.start 1 pathState) es x ∧
      x.answers = [⟨0, some true, pathState.telemetry, [⟨statusSuccess, 0, []⟩]⟩,
        ⟨1, none, p.telemetry, [notReady]⟩] ∧
      x.consumer.quiesce = .setEvent ∧ x.state = p :=
    ⟨[.openGate, .consumer .thread, .consumer .thread, .checkGate, .consumer .closeGate, .serve,
      .consumer .arrive, .consumer .setStop, .consumer .thread, .consumer .thread, .reject], _,
      .head (.openGate rfl) <|
      .head (.consumer .thread nofun fun _ _ => ⟨nofun, nofun⟩) <|
      .head (.consumer .thread nofun fun _ _ => ⟨nofun, nofun⟩) <|
      .head (.checkGate rfl rfl) <|
      .head (.consumer (.closeGate rfl) (fun _ => rfl) nofun) <|
      .head (.serve rfl rfl hd) <|
      .head (.consumer (.arrive nofun) nofun nofun) <|
      .head (.consumer (.setStop rfl) nofun nofun) <|
      .head (.consumer .thread nofun fun _ _ => ⟨nofun, nofun⟩) <|
      .head (.consumer .thread nofun fun _ _ => ⟨nofun, nofun⟩) <|
      .head (.reject rfl) .refl, rfl, rfl, rfl⟩
  obtain ⟨es, x, hrun, ha, hq, rfl⟩ := hr
  rw [htelemetry] at ha
  exact ⟨x, ha, hq, hp, requests_sequential ⟨_, es, ⟨1, rfl⟩, hrun⟩⟩

end Sentinel.Control
