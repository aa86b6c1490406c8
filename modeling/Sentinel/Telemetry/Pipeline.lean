import Sentinel.Telemetry.Delivery
import Sentinel.Telemetry.Ring

/-! The queue with `shTelemetrySink` as its sink: what a flush shows of what has been posted. -/
namespace Sentinel.Telemetry

open Transition EventQueue RingBuffer

variable {s t : EventQueue.State} {p p' : Post} {n : Node} {rest : Multiset (Post × Node)}
  {a : EventQueue.Action} {joined : NtStatus} {r : EventRing}

/-- The valid bytes of a node; `ShEventPost` leaves `payloadSize` at 0. -/
def payload (n : Node) : List UInt8 :=
  match n.event with
  | .post _ _ => []
  | .record bytes => bytes

/-- `g_SkTelemetryQueue` and the ring of its sink. -/
structure Pipeline where
  queue : EventQueue.State
  ring : EventRing

/-- What the step of the queue does to the ring. -/
def sinkStep (q : EventQueue.State) (r : EventRing) : EventQueue.Action → EventRing
  | .threadBody =>
    match q.consumer with
    | .consume n .event => telemetrySink r (payload n)
    | .consume _ .counter | .consume _ .count | .absent | .wait | .check | .probe | .pop
    | .exited => r
  | .threadStop _ =>
    match q.stop with
    | .consume n .event => telemetrySink r (payload n)
    | .consume _ .counter | .consume _ .count | .close | .wait _ | .wake | .join | .drain | .last
    | .returned _ => r
  -- The node of shEventDropInPlace has no payload.
  | .post (.dropEvent _) _ _ => telemetrySink r []
  | .post _ _ _ | .call _ _ => r

inductive Pipeline.Step : Pipeline → EventQueue.Action → Pipeline → Prop where
  | step {x : Pipeline} {a : EventQueue.Action} {q : EventQueue.State}
      (h : EventQueue.system.step x.queue a q) : Step x a ⟨q, sinkStep x.queue x.ring a⟩

/-- `SK_TELEMETRY_CAPACITY`. -/
def telemetryCapacity : ℤ := 4096

/-- After `SkTelemetryInit`, with the thread of `SkTelemetryStart` or without. -/
def pipeline : System Pipeline EventQueue.Action where
  init x := ∃ thread, x = ⟨.start telemetryCapacity true thread, ringInit⟩
  step := Pipeline.Step

/-- The nodes in the order in which the sink has got them. -/
def delivered (q : EventQueue.State) : List Node := q.taken ++ q.hand Stage.pastEvent

/-- The records in the ring, if it had room for all. -/
def shown (q : EventQueue.State) : List (List UInt8) := records ((delivered q).map payload)

/-- The records in the order in which `ShEventPostRecord` has accepted them. -/
def accepted (q : EventQueue.State) : List (List UInt8) := records (q.enqueued.map payload)

/-! ### Steps of the queue -/

/-- The node that the step hands to the sink. -/
def handed (q : EventQueue.State) : EventQueue.Action → List Node
  | .threadBody =>
    match q.consumer with
    | .consume n .event => [n]
    | .consume _ .counter | .consume _ .count | .absent | .wait | .check | .probe | .pop
    | .exited => []
  | .threadStop _ =>
    match q.stop with
    | .consume n .event => [n]
    | .consume _ .counter | .consume _ .count | .close | .wait _ | .wake | .join | .drain | .last
    | .returned _ => []
  | .post _ _ _ | .call _ _ => []

theorem sinkStep_eq (q : EventQueue.State) (r : EventRing) (a : EventQueue.Action) :
    sinkStep q r a = ((handed q a).map payload).foldl telemetrySink r := by
  cases a with
  | threadBody =>
    simp only [sinkStep, handed]
    split <;> rfl
  | threadStop =>
    simp only [sinkStep, handed]
    split <;> rfl
  | post p =>
    cases p with
    | dropEvent => exact telemetrySink_ignored (by decide)
    | _ => rfl
  | call => rfl

theorem post_delivered_eq (alloc : Bool) : (s.post rest n alloc p).taken = s.taken ∧
    (s.post rest n alloc p).consumer = s.consumer ∧ (s.post rest n alloc p).stop = s.stop := by
  cases p <;> simp only [State.post] <;> (repeat' split) <;> exact ⟨rfl, rfl, rfl⟩

theorem delivered_threadBody (hc : Control s) :
    delivered s.threadBody = delivered s ++ handed s .threadBody := by
  cases hk : s.consumer with
  | consume n stage =>
    have hstop : s.stop.hand Stage.pastEvent = [] := hc.stop_hand (by rw [hk]; rfl) _
    cases stage <;>
      simp [delivered, State.hand, State.threadBody, handed, hk, hstop, Consumer.hand,
        Stage.pastEvent, Stage.next, State.nodeConsume, State.decrement, State.sink]
  | pop =>
    rcases s.pop_cases with ⟨-, he⟩ | ⟨n, list, -, he⟩ <;>
      simp [delivered, State.hand, State.threadBody, handed, hk, he, Consumer.hand,
        Stage.pastEvent]
  | wait =>
    cases hb : s.doorbell <;>
      simp [delivered, State.hand, State.threadBody, handed, hk, hb, Consumer.hand]
  | check =>
    cases hf : s.stopping <;>
      simp [delivered, State.hand, State.threadBody, handed, hk, hf, Consumer.hand]
  | probe =>
    by_cases hz : s.pending = 0 <;>
      simp [delivered, State.hand, State.threadBody, handed, hk, hz, Consumer.hand]
  | absent => simp [delivered, State.hand, State.threadBody, handed, hk]
  | exited => simp [delivered, State.hand, State.threadBody, handed, hk]

theorem delivered_threadStop (hc : Control s) :
    delivered (s.threadStop joined) = delivered s ++ handed s (.threadStop joined) := by
  cases hq : s.stop with
  | consume n stage =>
    have hbody : s.consumer.hand Stage.pastEvent = [] :=
      Consumer.hand_of_over (hc.alone (by rw [hq]; rfl)) _
    cases stage <;>
      simp [delivered, State.hand, State.threadStop, handed, hq, hbody, Stop.hand,
        Stage.pastEvent, Stage.next, State.nodeConsume, State.decrement, State.sink]
  | drain =>
    rcases s.pop_cases with ⟨-, he⟩ | ⟨n, list, -, he⟩ <;>
      simp [delivered, State.hand, State.threadStop, handed, hq, he, Stop.hand, Stage.pastEvent]
  | wait i =>
    have hstop : (s.threadStop joined).stop.hand Stage.pastEvent = [] := by
      simp only [State.threadStop, hq]
      repeat' split
      all_goals rfl
    simp [delivered, State.hand, hstop]
    simp [State.threadStop, handed, hq, Stop.hand]
  | wake =>
    cases hk : s.consumer <;>
      simp [delivered, State.hand, State.threadStop, handed, hq, hk, Stop.hand]
  | join =>
    by_cases hj : joined = statusSuccess <;>
      simp [delivered, State.hand, State.threadStop, handed, hq, hj, Stop.hand]
  | close => simp [delivered, State.hand, State.threadStop, handed, hq, Stop.hand]
  | last => simp [delivered, State.hand, State.threadStop, handed, hq, Stop.hand]
  | returned st => simp [delivered, State.hand, State.threadStop, handed, hq]

/-- A step hands to the sink what it adds to the delivered nodes. -/
theorem delivered_step (h : EventQueue.system.step s a t) (hc : Control s) :
    delivered t = delivered s ++ handed s a := by
  cases h with
  | call => simp [delivered, State.hand, State.call, handed]
  | @post p n alloc rest =>
    obtain ⟨ht, hk, hq⟩ := @post_delivered_eq s p n rest alloc
    simp [delivered, State.hand, handed, ht, hk, hq]
  | threadBody => exact delivered_threadBody hc
  | threadStop => exact delivered_threadStop hc

theorem enqueued_nodeConsume (stage : Stage) : (s.nodeConsume n stage).enqueued = s.enqueued := by
  cases stage <;> rfl

/-- What has been accepted keeps its place. -/
theorem enqueued_step (h : EventQueue.system.step s a t) : s.enqueued <+: t.enqueued := by
  cases h with
  | call => exact List.prefix_refl _
  | @post p n alloc rest =>
    cases p with
    | insert =>
      simp only [State.post]
      repeat' split
      · exact List.prefix_refl _
      · exact List.prefix_refl _
      · exact List.prefix_append _ _
    | _ =>
      simp only [State.post]
      repeat' split
      all_goals exact List.prefix_refl _
  | threadBody =>
    rcases s.threadBody_cases with he | ⟨-, ⟨b, k, -, -, -, -, he⟩ | ⟨n, list, -, -, he⟩ |
      ⟨n, stage, -, he⟩⟩ <;> rw [he]
    exact (enqueued_nodeConsume stage).symm ▸ List.prefix_refl _
  | threadStop joined hj =>
    rcases s.threadStop_cases hj with he | ⟨b, f, q, -, -, -, -, -, -, he⟩ |
      ⟨n, list, -, -, he⟩ | ⟨n, stage, -, he⟩ <;> rw [he]
    exact (enqueued_nodeConsume stage).symm ▸ List.prefix_refl _

/-- A node goes to the sink before any that was enqueued after it. -/
theorem delivered_within (hl : Ledger s) (hc : Control s) : delivered s <+: s.enqueued := by
  have hhand : s.hand Stage.pastEvent <+: s.hand fun _ => true := by
    cases ho : s.consumer.over with
    | true =>
      rw [State.hand, State.hand, Consumer.hand_of_over ho, Consumer.hand_of_over ho]
      cases hq : s.stop with
      | consume n stage => cases stage <;> simp [Stop.hand, Stage.pastEvent]
      | _ => exact List.prefix_refl _
    | false =>
      rw [State.hand, State.hand, hc.stop_hand ho, hc.stop_hand ho]
      cases hk : s.consumer with
      | consume n stage => cases stage <;> simp [Consumer.hand, Stage.pastEvent]
      | _ => exact List.prefix_refl _
  rw [hl.order, delivered]
  exact ((List.prefix_append_right_inj _).mpr hhand).trans (List.prefix_append _ _)

/-- A stop that has succeeded has delivered every node. -/
theorem delivered_of_stopped (hl : Ledger s) (hc : Control s)
    (hq : s.stop = .returned statusSuccess) : delivered s = s.enqueued := by
  have hk := Consumer.hand_of_over (hc.alone (by rw [hq]; rfl))
  have he := hc.emptied (by rw [hq]; rfl)
  rw [hl.order, he, delivered, State.hand, State.hand, hk, hk, hq]
  simp [Stop.hand]

/-! ### Runs of the pipeline -/

variable {x y : Pipeline} {as : List EventQueue.Action} {l l' : List Node}

theorem queue_simulation : pipeline.Simulation EventQueue.system Pipeline.queue where
  init := by
    rintro x ⟨thread, rfl⟩
    exact ⟨_, _, _, rfl⟩
  step := by
    intro x a y _ _ hs
    cases hs with
    | step h => exact ⟨_, .single h⟩

theorem ring_reachable (h : pipeline.Reachable x) :
    EventQueue.system.Reachable x.queue ∧
      x.ring = consume ((delivered x.queue).map payload) := by
  refine h.invariant (I := fun x => EventQueue.system.Reachable x.queue ∧
    x.ring = consume ((delivered x.queue).map payload)) ?_ ?_
  · rintro x ⟨thread, rfl⟩
    refine ⟨.of_init ⟨_, _, _, rfl⟩, ?_⟩
    cases thread <;> rfl
  · rintro x a y hs ⟨hr, he⟩
    cases hs with
    | step h =>
      refine ⟨hr.step h, ?_⟩
      rw [delivered_step h (books_reachable hr).1, List.map_append, consume, List.foldl_append,
        sinkStep_eq, he, consume]

theorem records_mono (h : l <+: l') : records (l.map payload) <+: records (l'.map payload) :=
  (h.map payload).filter _

theorem run_extends (h : pipeline.Run x as y) (hr : pipeline.Reachable x) :
    shown x.queue <+: shown y.queue ∧ accepted x.queue <+: accepted y.queue := by
  have hp := h.preserves (I := fun y => pipeline.Reachable y ∧
    delivered x.queue <+: delivered y.queue ∧ x.queue.enqueued <+: y.queue.enqueued) ?_
    ⟨hr, List.prefix_refl _, List.prefix_refl _⟩
  · exact ⟨records_mono hp.2.1, records_mono hp.2.2⟩
  · rintro y a z hs ⟨hy, hd, he⟩
    refine ⟨hy.step hs, ?_⟩
    cases hs with
    | step h =>
      have hc := (books_reachable (ring_reachable hy).1).1
      exact ⟨hd.trans (delivered_step h hc ▸ List.prefix_append _ _), he.trans (enqueued_step h)⟩

/-- The records a flush may show are those accepted, in the order of their acceptance, up to the
ones the consumer has not come to; a stop leaves none of these. At any time a flush returns the
newest of them. -/
theorem flush_accepted (h : pipeline.Reachable x) (out : List UInt8) (maxRecords : UInt32)
    (hroom : maxRecords.toNat * eventPayloadSize ≤ out.length) :
    shown x.queue <+: accepted x.queue ∧
    (x.queue.stop = .returned statusSuccess → shown x.queue = accepted x.queue) ∧
    (∀ as y, pipeline.Run x as y →
      shown x.queue <+: shown y.queue ∧ accepted x.queue <+: accepted y.queue) ∧
    ∃ count out', telemetryFlush x.ring (some out) maxRecords (UInt32.ofNat eventPayloadSize) =
        .ok ⟨count, some out', x.ring⟩ ∧
      count.toNat = min ((shown x.queue).length % 2 ^ 64) (min 1024 maxRecords.toNat) ∧
      ∀ i < count.toNat, ∃ bytes,
        ((shown x.queue).drop ((shown x.queue).length - count.toNat))[i]? = some bytes ∧
          bytes <+: out'.drop (i * eventPayloadSize) := by
  obtain ⟨hr, he⟩ := ring_reachable h
  obtain ⟨hc, hl⟩ := books_reachable hr
  refine ⟨records_mono (delivered_within hl hc), fun hq => ?_, fun as y hrun => run_extends hrun h,
    ?_⟩
  · rw [shown, accepted, delivered_of_stopped hl hc hq]
  · obtain ⟨hlen, -, hmax⟩ := flushLength_le ((delivered x.queue).map payload) maxRecords
    have hsize : 0 < (UInt32.ofNat eventPayloadSize).toNat ∧
        (UInt32.ofNat eventPayloadSize).toNat ≤ eventPayloadSize := by decide
    obtain ⟨count, out', hok, hcount, -, hcopied, -⟩ :=
      @telemetryFlush_ok out ((delivered x.queue).map payload) maxRecords _ hsize
        ((Nat.mul_le_mul_right _ hmax).trans hroom)
    rw [he]
    refine ⟨count, out', hok, hcount, fun i hi => ?_⟩
    have hbound : i < ((shown x.queue).drop ((shown x.queue).length - count.toNat)).length := by
      rw [List.length_drop, shown]
      omega
    have hp := List.getElem?_eq_getElem hbound
    refine ⟨_, hp, List.prefix_iff_getElem?.mpr fun c hb => ?_⟩
    have hfit := hb.trans_le (records_length hp)
    rw [List.getElem?_drop]
    have hbyte := hcopied i _ hi hp c hfit
    rw [toNat_payloadSize] at hbyte
    rw [hbyte, getElem?_overlay _ hfit, List.getElem?_eq_getElem hb, Option.some_or]

theorem pipeline_step {q : EventQueue.State} (h : pipeline.Reachable x)
    (hs : EventQueue.Step x.queue a q) : pipeline.Reachable ⟨q, sinkStep x.queue x.ring a⟩ :=
  h.step (.step hs)

/-- A record of two bytes has been posted and consumed. -/
theorem flush_accepted_one : ∃ x count out', pipeline.Reachable x ∧
    telemetryFlush x.ring (some (.replicate 80 0)) 1 80 = .ok ⟨count, some out', x.ring⟩ ∧
      count.toNat = 1 ∧ [7, 8] <+: out' := by
  have hinit : pipeline.Reachable ⟨.start telemetryCapacity true true, ringInit⟩ :=
    .of_init ⟨true, rfl⟩
  have hcall := pipeline_step hinit (.call 1 (.record [7, 8]) (by decide : 2 ≤ 80))
  have henter := pipeline_step hcall (.post true 0 rfl)
  have halloc := pipeline_step henter (.post true 0 rfl)
  have hinsert := pipeline_step halloc (.post true 0 rfl)
  have hleave := pipeline_step hinsert (.post true 0 rfl)
  have hcount := pipeline_step hleave (.post true 0 rfl)
  have hwake := pipeline_step hcount (.post true 0 rfl)
  have hwait := pipeline_step hwake .threadBody
  have hpop := pipeline_step hwait .threadBody
  have hcounter := pipeline_step hpop .threadBody
  have hevent := pipeline_step hcounter .threadBody
  obtain ⟨-, -, -, count, out', hok, hn, hbytes⟩ := flush_accepted hevent (.replicate 80 0) 1
    (by rw [List.length_replicate]; decide)
  have hone : count.toNat = 1 := hn
  obtain ⟨bytes, hb, hp⟩ := hbytes 0 (by omega)
  rw [hone] at hb
  cases hb
  exact ⟨_, count, out', hevent, hok, hone, hp⟩

end Sentinel.Telemetry
