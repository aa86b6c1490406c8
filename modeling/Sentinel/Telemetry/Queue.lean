import Sentinel.General.InFlight
import Sentinel.General.System
import Sentinel.Status

/-! The event queue of `telemetry/event_queue.c`: any number of posts, the consumer thread and
one stop. Every section under the queue lock and every atomic is one step. -/
namespace Sentinel.EventQueue

open Transition InFlight

/-- `SH_EVENT_PRODUCER_WAIT_RETRIES`. -/
def producerWaitRetries : ℕ := 100

/-- `SK_EVENT_PAYLOAD_SIZE`. -/
def eventPayloadSize : ℕ := 80

/-- What a call posts: `ShEventPost` a reference and the address of a counter or NULL,
`ShEventPostRecord` a copy of a record. -/
inductive Event where
  | post (ctx : UInt64) (counter : Option ℕ)
  | record (payload : List UInt8)
  deriving DecidableEq

/-- `SHINKEN_EVENT_NODE`; the number of the call it comes from is a ghost. -/
structure Node where
  call : ℕ
  type : UInt32
  event : Event
  deriving DecidableEq

def Node.counter (n : Node) : Option ℕ :=
  match n.event with
  | .post _ counter => counter
  | .record _ => none

def Node.isRecord (n : Node) : Bool :=
  match n.event with
  | .post _ _ => false
  | .record _ => true

/-- How a post ends. -/
inductive Outcome where
  | posted
  /-- The gate is closed. -/
  | refused
  | noNode
  /-- The recheck finds the queue stopping, or full. -/
  | stopped
  | full
  deriving DecidableEq

/-- The next step of a post. -/
inductive Post where
  | enter
  | alloc
  /-- The recheck and the enqueue. -/
  | insert
  | leave (o : Outcome)
  /-- `shEventDropInPlace`. -/
  | dropCounter (o : Outcome)
  | dropEvent (o : Outcome)
  | dropCount (o : Outcome)
  | overflowRead
  | overflowCount
  | postedCount
  | wake

/-- The next step of `shEventNodeConsume`. -/
inductive Stage where
  | counter
  | event
  | count

/-- `ShEventThreadBody`. -/
inductive Consumer where
  /-- No thread has been started. -/
  | absent
  | wait
  /-- The wait has timed out: the flag, then the length. -/
  | check
  | probe
  | pop
  | consume (n : Node) (stage : Stage)
  | exited

/-- `ShEventThreadStop`. -/
inductive Stop where
  | close
  | wait (i : ℕ)
  | wake
  | join
  /-- `ShEventDrain`. -/
  | drain
  | consume (n : Node) (stage : Stage)
  | last
  | returned (st : NtStatus)

/-- The queue. Its `LONG` and `LONG64` counters are numbers; `counters_range` says when these are
in range. -/
structure State where
  list : List Node
  pending : ℤ
  capacity : ℤ
  /-- Is there a sink? -/
  onEvent : Bool
  doorbell : Bool
  stopping : Bool
  producers : ℤ
  posted : ℕ
  consumed : ℕ
  dropped : ℕ
  overflowDropped : ℕ
  posts : Multiset (Post × Node)
  consumer : Consumer
  stop : Stop
  /-- Ghosts: every call so far, the nodes in the order of their enqueue, those consumed and those
  dropped, and what was decremented and handed to the sink. -/
  calls : Multiset Node
  enqueued : List Node
  taken : List Node
  lost : Multiset Node
  decremented : Multiset Node
  sunk : Multiset Node

/-- The first step of a drop. -/
def dropStart (n : Node) (o : Outcome) : Post :=
  if n.isRecord then .dropCount o else .dropCounter o

def afterLeave (n : Node) : Outcome → Post
  | .posted => .postedCount
  | .refused => dropStart n .refused
  | .noNode => dropStart n .noNode
  | .stopped => dropStart n .stopped
  | .full => dropStart n .full

/-- What is left to do for a drop that has been counted. -/
def afterDrop (n : Node) : Outcome → Option Post
  | .full => some (if n.isRecord then .overflowRead else .overflowCount)
  | .stopped => if n.isRecord then some .overflowRead else none
  | .posted | .refused | .noNode => none

def Stage.next : Stage → Option Stage
  | .counter => some .event
  | .event => some .count
  | .count => none

namespace State

variable (s : State) (rest : Multiset (Post × Node)) (n : Node)

/-- `SkAtSub32` on the counter of a node. -/
def decrement : State :=
  { s with decremented := if n.counter.isSome then n ::ₘ s.decremented else s.decremented }

def sink : State := { s with sunk := if s.onEvent then n ::ₘ s.sunk else s.sunk }

def call (type : UInt32) (event : Event) : State :=
  let n : Node := ⟨s.calls.card, type, event⟩
  { s with posts := (.enter, n) ::ₘ s.posts, calls := n ::ₘ s.calls }

/-- The post goes on, or returns. -/
def goOn (p : Option Post) : State := { s with posts := p.elim rest fun p => (p, n) ::ₘ rest }

/-- The next step of a post; the allocation may fail. -/
def post (alloc : Bool) : Post → State
  | .enter =>
    if s.stopping then s.goOn rest n (some (dropStart n .refused))
    else { s.goOn rest n (some .alloc) with producers := s.producers + 1 }
  | .alloc => s.goOn rest n (some (if alloc then .insert else .leave .noNode))
  | .insert =>
    if s.stopping then s.goOn rest n (some (.leave .stopped))
    else if 0 < s.capacity ∧ s.capacity ≤ s.pending then s.goOn rest n (some (.leave .full))
    else { s.goOn rest n (some (.leave .posted)) with
      list := s.list ++ [n]
      pending := s.pending + 1
      enqueued := s.enqueued ++ [n] }
  | .leave o => { s.goOn rest n (some (afterLeave n o)) with producers := s.producers - 1 }
  | .dropCounter o => (s.decrement n).goOn rest n (some (.dropEvent o))
  | .dropEvent o => (s.sink n).goOn rest n (some (.dropCount o))
  | .dropCount o => { s.goOn rest n (afterDrop n o) with
      dropped := s.dropped + 1
      lost := n ::ₘ s.lost }
  | .overflowRead => s.goOn rest n (if s.stopping then none else some .overflowCount)
  | .overflowCount => { s.goOn rest n none with overflowDropped := s.overflowDropped + 1 }
  | .postedCount => { s.goOn rest n (some .wake) with posted := s.posted + 1 }
  | .wake => { s.goOn rest n none with doorbell := true }

/-- `shEventPopLocked`. -/
def pop : Option (Node × State) :=
  match s.list with
  | [] => none
  | n :: list => some (n, { s with list := list, pending := s.pending - 1 })

/-- `shEventNodeConsume`. -/
def nodeConsume : Stage → State
  | .counter => s.decrement n
  | .event => s.sink n
  | .count => { s with consumed := s.consumed + 1, taken := s.taken ++ [n] }

/-- The next step of the consumer. -/
def threadBody : State :=
  match s.consumer with
  | .absent => s
  | .wait => { s with doorbell := false, consumer := if s.doorbell then .pop else .check }
  | .check => { s with consumer := if s.stopping then .probe else .pop }
  | .probe => { s with consumer := if s.pending = 0 then .exited else .pop }
  | .pop => s.pop.elim { s with consumer := .wait } fun p =>
      { p.2 with consumer := .consume p.1 .counter }
  | .consume n stage =>
    { s.nodeConsume n stage with consumer := stage.next.elim .pop (.consume n) }
  | .exited => s

/-- The next step of the stop; `joined` is what `ThreadJoin` returns. -/
def threadStop (joined : NtStatus) : State :=
  match s.stop with
  | .close => { s with stopping := true, stop := .wait 0 }
  | .wait i =>
    { s with stop :=
      if s.producers = 0 then .wake
      else if producerWaitRetries ≤ i then .returned statusTimeout
      else .wait (i + 1) }
  | .wake =>
    { s with
      doorbell := true
      stop := match s.consumer with
        | .absent => .drain
        | .wait | .check | .probe | .pop | .consume _ _ | .exited => .join }
  | .join => { s with stop := if joined = statusSuccess then .drain else .returned joined }
  | .drain => s.pop.elim { s with stop := .last } fun p =>
      { p.2 with stop := .consume p.1 .counter }
  | .consume n stage =>
    { s.nodeConsume n stage with stop := stage.next.elim .drain (.consume n) }
  | .last => { s with stop := .returned (if s.pending = 0 then statusSuccess else statusTimeout) }
  | .returned _ => s

/-- An initialized queue, with its thread started or not. -/
def start (capacity : ℤ) (onEvent thread : Bool) : State where
  list := []
  pending := 0
  capacity := capacity
  onEvent := onEvent
  doorbell := false
  stopping := false
  producers := 0
  posted := 0
  consumed := 0
  dropped := 0
  overflowDropped := 0
  posts := 0
  consumer := if thread then .wait else .absent
  stop := .close
  calls := 0
  enqueued := []
  taken := []
  lost := 0
  decremented := 0
  sunk := 0

end State

inductive Action where
  | call (type : UInt32) (event : Event)
  | post (p : Post) (n : Node) (alloc : Bool)
  | threadBody
  | threadStop (joined : NtStatus)

/-- The argument check of `ShEventPostRecord`. -/
def Event.Fits : Event → Prop
  | .post _ _ => True
  | .record payload => payload.length ≤ eventPayloadSize

/-- `ThreadJoin` succeeds only when the thread has exited. -/
inductive Step : State → Action → State → Prop where
  | call {s : State} (type : UInt32) (event : Event) (h : event.Fits) :
      Step s (.call type event) (s.call type event)
  | post {s : State} {p : Post} {n : Node} (alloc : Bool) (rest : Multiset (Post × Node))
      (h : s.posts = (p, n) ::ₘ rest) : Step s (.post p n alloc) (s.post rest n alloc p)
  | threadBody {s : State} : Step s .threadBody s.threadBody
  | threadStop {s : State} (joined : NtStatus)
      (h : s.stop = .join → joined = statusSuccess → s.consumer = .exited) :
      Step s (.threadStop joined) (s.threadStop joined)

def system : System State Action where
  init s := ∃ capacity onEvent thread, s = State.start capacity onEvent thread
  step := Step

/-! ### The steps of the consumer and of the stop -/

/-- The node the consumer has popped, if its consumption stands where `f` says. -/
def Consumer.hand (f : Stage → Bool) : Consumer → List Node
  | .consume n stage => if f stage then [n] else []
  | .absent | .wait | .check | .probe | .pop | .exited => []

def Stop.hand (f : Stage → Bool) : Stop → List Node
  | .consume n stage => if f stage then [n] else []
  | .close | .wait _ | .wake | .join | .drain | .last | .returned _ => []

/-- Has the thread ended, if there was one? -/
def Consumer.over : Consumer → Bool
  | .absent | .exited => true
  | .wait | .check | .probe | .pop | .consume _ _ => false

/-- Has the stop set the flag? -/
def Stop.closed : Stop → Bool
  | .close => false
  | .wait _ | .wake | .join | .drain | .consume _ _ | .last | .returned _ => true

/-- No consumer runs any more. -/
def Stop.alone : Stop → Bool
  | .drain | .consume _ _ | .last => true
  | .returned st => st == statusSuccess
  | .close | .wait _ | .wake | .join => false

/-- The drain has found the list empty. -/
def Stop.emptied : Stop → Bool
  | .last => true
  | .returned st => st == statusSuccess
  | .close | .wait _ | .wake | .join | .drain | .consume _ _ => false

namespace State

variable {s : State} {joined : NtStatus}

theorem pop_cases (s : State) : s.list = [] ∧ s.pop = none ∨
    ∃ n list, s.list = n :: list ∧
      s.pop = some (n, { s with list := list, pending := s.pending - 1 }) := by
  cases hl : s.list with
  | nil => exact .inl ⟨rfl, by simp [pop, hl]⟩
  | cons n list => exact .inr ⟨n, list, rfl, by simp [pop, hl]⟩

/-- The consumer rests, moves on with empty hands, pops a node, or goes on consuming one. -/
theorem threadBody_cases (s : State) : s.threadBody = s ∨
    s.consumer.over = false ∧
      ((∃ b k, (∀ f, s.consumer.hand f = []) ∧ (∀ f, k.hand f = []) ∧
        (k = .probe → s.stopping = true) ∧
        (k = .exited → s.consumer = .probe ∧ s.pending = 0) ∧
        s.threadBody = { s with doorbell := b, consumer := k }) ∨
      (∃ n list, s.consumer = .pop ∧ s.list = n :: list ∧ s.threadBody =
        { s with list := list, pending := s.pending - 1, consumer := .consume n .counter }) ∨
      ∃ n stage, s.consumer = .consume n stage ∧ s.threadBody =
        { s.nodeConsume n stage with consumer := stage.next.elim .pop (.consume n) }) := by
  unfold threadBody
  cases hk : s.consumer with
  | absent | exited => exact .inl rfl
  | wait =>
    cases hb : s.doorbell with
    | false => exact .inr ⟨rfl, .inl ⟨false, .check, fun _ => rfl, fun _ => rfl, nofun, nofun, rfl⟩⟩
    | true => exact .inr ⟨rfl, .inl ⟨false, .pop, fun _ => rfl, fun _ => rfl, nofun, nofun, rfl⟩⟩
  | check =>
    cases hf : s.stopping with
    | false =>
      exact .inr ⟨rfl, .inl ⟨s.doorbell, .pop, fun _ => rfl, fun _ => rfl, nofun, nofun, by simp⟩⟩
    | true =>
      exact .inr ⟨rfl, .inl ⟨s.doorbell, .probe, fun _ => rfl, fun _ => rfl, fun _ => rfl, nofun,
        by simp⟩⟩
  | probe =>
    by_cases hz : s.pending = 0
    · exact .inr ⟨rfl, .inl ⟨s.doorbell, .exited, fun _ => rfl, fun _ => rfl, nofun,
        fun _ => ⟨rfl, hz⟩, by simp [hz]⟩⟩
    · exact .inr ⟨rfl, .inl ⟨s.doorbell, .pop, fun _ => rfl, fun _ => rfl, nofun, nofun,
        by simp [hz]⟩⟩
  | pop =>
    refine .inr ⟨rfl, ?_⟩
    rcases s.pop_cases with ⟨-, he⟩ | ⟨n, list, hl, he⟩
    · exact .inl ⟨s.doorbell, .wait, fun _ => rfl, fun _ => rfl, nofun, nofun, by simp [he]⟩
    · exact .inr (.inl ⟨n, list, rfl, hl, by simp [he]⟩)
  | consume n stage => exact .inr ⟨rfl, .inr (.inr ⟨n, stage, rfl, rfl⟩)⟩

/-- The stop has returned, moves on with empty hands, pops a node, or goes on consuming one. -/
theorem threadStop_cases (s : State)
    (hj : s.stop = .join → joined = statusSuccess → s.consumer = .exited) :
    s.threadStop joined = s ∨
    (∃ b f q, (∀ f, s.stop.hand f = []) ∧ (∀ f, q.hand f = []) ∧
      (f = true ∨ f = s.stopping ∧ s.stop.closed = true) ∧ q.closed = true ∧
      (q.alone = true → s.stop.alone = true ∨ s.consumer.over = true) ∧
      (q.emptied = true → s.stop.emptied = true ∨ s.list = []) ∧
      s.threadStop joined = { s with doorbell := b, stopping := f, stop := q }) ∨
    (∃ n list, s.stop = .drain ∧ s.list = n :: list ∧ s.threadStop joined =
      { s with list := list, pending := s.pending - 1, stop := .consume n .counter }) ∨
    ∃ n stage, s.stop = .consume n stage ∧ s.threadStop joined =
      { s.nodeConsume n stage with stop := stage.next.elim .drain (.consume n) } := by
  unfold threadStop
  cases hq : s.stop with
  | returned => exact .inl rfl
  | close =>
    exact .inr (.inl ⟨s.doorbell, true, .wait 0, fun _ => rfl, fun _ => rfl, .inl rfl, rfl, nofun,
      nofun, rfl⟩)
  | wait i =>
    by_cases hz : s.producers = 0
    · exact .inr (.inl ⟨s.doorbell, s.stopping, .wake, fun _ => rfl, fun _ => rfl, .inr ⟨rfl, rfl⟩,
        rfl, nofun, nofun, by simp [hz]⟩)
    · by_cases hi : producerWaitRetries ≤ i
      · exact .inr (.inl ⟨s.doorbell, s.stopping, .returned statusTimeout, fun _ => rfl,
          fun _ => rfl, .inr ⟨rfl, rfl⟩, rfl, fun h => absurd h (by decide),
          fun h => absurd h (by decide), by simp [hz, hi]⟩)
      · exact .inr (.inl ⟨s.doorbell, s.stopping, .wait (i + 1), fun _ => rfl, fun _ => rfl,
          .inr ⟨rfl, rfl⟩, rfl, nofun, nofun, by simp [hz, hi]⟩)
  | wake =>
    cases hk : s.consumer with
    | absent =>
      exact .inr (.inl ⟨true, s.stopping, .drain, fun _ => rfl, fun _ => rfl, .inr ⟨rfl, rfl⟩, rfl,
        fun _ => .inr rfl, nofun, by simp⟩)
    | wait | check | probe | pop | consume | exited =>
      exact .inr (.inl ⟨true, s.stopping, .join, fun _ => rfl, fun _ => rfl, .inr ⟨rfl, rfl⟩, rfl,
        nofun, nofun, by simp⟩)
  | join =>
    by_cases hs : joined = statusSuccess
    · exact .inr (.inl ⟨s.doorbell, s.stopping, .drain, fun _ => rfl, fun _ => rfl,
        .inr ⟨rfl, rfl⟩, rfl, fun _ => .inr (by rw [hj hq hs]; rfl), nofun, by simp [hs]⟩)
    · exact .inr (.inl ⟨s.doorbell, s.stopping, .returned joined, fun _ => rfl, fun _ => rfl,
        .inr ⟨rfl, rfl⟩, rfl, fun h => absurd (of_decide_eq_true h) hs,
        fun h => absurd (of_decide_eq_true h) hs, by simp [hs]⟩)
  | drain =>
    rcases s.pop_cases with ⟨hl, he⟩ | ⟨n, list, hl, he⟩
    · exact .inr (.inl ⟨s.doorbell, s.stopping, .last, fun _ => rfl, fun _ => rfl,
        .inr ⟨rfl, rfl⟩, rfl, fun _ => .inl rfl, fun _ => .inr hl, by simp [he]⟩)
    · exact .inr (.inr (.inl ⟨n, list, rfl, hl, by simp [he]⟩))
  | consume n stage => exact .inr (.inr (.inr ⟨n, stage, rfl, rfl⟩))
  | last =>
    exact .inr (.inl ⟨s.doorbell, s.stopping, _, fun _ => rfl, fun _ => rfl, .inr ⟨rfl, rfl⟩, rfl,
      fun _ => .inl rfl, fun _ => .inl rfl, rfl⟩)

end State

end Sentinel.EventQueue
