import Sentinel.Control.Served

/-! Sequences of requests: what callers without the privilege cannot influence. -/
namespace Sentinel.Control

open Transition

/-- The rule store, the rate-limit table and the rules as they stand in memory. -/
structure Policy where
  store : Store
  images : List RuleImage
  wellFormed : store.WellFormed
  shown : images.map RuleImage.rule = store.current.rules

/-- The reads of the store between two requests. -/
def Policy.view (s : Policy) : View where
  images := some s.images
  version := s.store.current.version
  defaultPolicy := s.store.current.defaultPolicy
  bound := by
    intro l hl
    obtain rfl := Option.some.inj hl
    have hlen := congrArg List.length s.shown
    rw [List.length_map] at hlen
    exact hlen.trans_le s.wellFormed.current.length_le

/-- The policy with the ring and the statistics. -/
structure State extends Policy where
  telemetry : Telemetry

/-- A request with its memory and what else it meets. `padding` is what the padding of a rule
comes to hold in a new snapshot. -/
structure Arrival where
  ioctl : Ioctl
  buffers : Buffers
  loaded : ioctl.Loaded buffers
  gateOpen : Bool
  active : Bool
  env : Env
  alloc : Bool
  padding : Rule → Vector UInt8 2 × Vector UInt8 4

/-- The handle context is there and privileged. -/
def Arrival.privileged (q : Arrival) : Bool := q.ioctl.context = some true

def Arrival.driver (q : Arrival) (s : State) : Driver where
  toTelemetry := s.telemetry
  gateOpen := q.gateOpen
  active := q.active
  view _ := s.view
  store := s.store
  env := q.env
  alloc := q.alloc

def Arrival.image (q : Arrival) (r : Rule) : RuleImage := ⟨r, (q.padding r).1, (q.padding r).2⟩

/-- The policy after the request; the rules stay where they are unless a snapshot is published. -/
def Policy.after (s : Policy) (q : Arrival) (store : Store) (h : store.WellFormed) : Policy :=
  if hc : store.current = s.store.current then
    { s with store := store, wellFormed := h, shown := by rw [s.shown, hc] }
  else
    { store := store
      images := store.current.rules.map q.image
      wellFormed := h
      shown := by rw [List.map_map]; exact List.map_id _ }

/-- What other threads make of the buckets, the ring and the statistics. -/
def State.traffic (s : State) (f : RateTable × Telemetry → RateTable × Telemetry) : State where
  store := { s.store with rates := (f (s.store.rates, s.telemetry)).1 }
  images := s.images
  wellFormed := ⟨s.wellFormed.current, s.wellFormed.rollbackSlot⟩
  shown := s.shown
  telemetry := (f (s.store.rates, s.telemetry)).2

/-- A request, or the packets and the consumers of events between two requests. -/
inductive Event where
  | request (q : Arrival)
  | traffic (f : RateTable × Telemetry → RateTable × Telemetry)

/-- All but the requests without the privilege. -/
def Event.allowed : Event → Bool
  | .request q => q.privileged
  | .traffic _ => true

/-- One request, from its dispatch to its return, with all its completions. -/
inductive Dispatch : State → Event × List Completion → State → Prop where
  | request {s : State} {q : Arrival} {a : Reply} (hw : a.store.WellFormed)
      (ha : evtDeviceControl q.ioctl (q.driver s) q.buffers = .ok a) :
      Dispatch s (.request q, a.completions) ⟨s.after q a.store hw, a.telemetry⟩
  | traffic {s : State} {f : RateTable × Telemetry → RateTable × Telemetry} :
      Dispatch s (.traffic f, []) (s.traffic f)

def dispatches : System State (Event × List Completion) where
  init _ := True
  step := Dispatch

/-- One after the other, the events come to these completions and this state, and to nothing
else. -/
def Dispatched (s : State) (es : List Event) (cs : List (Event × List Completion)) (t : State) :
    Prop :=
  ∀ cs' t', dispatches.Run s cs' t' ∧ cs'.map Prod.fst = es ↔ cs' = cs ∧ t' = t

variable {s t t' : State} {q : Arrival} {e : Event} {c c' : List Completion} {es : List Event}
  {cs cs' : List (Event × List Completion)}

theorem after_self {s : Policy} (h : s.store.WellFormed) : s.after q s.store h = s := dif_pos rfl

/-- Every request is completed. -/
theorem dispatch_total (s : State) (e : Event) : ∃ c t, Dispatch s (e, c) t := by
  cases e with
  | request q =>
    obtain ⟨a, ha, hf⟩ := @evtDeviceControl_served (q.driver s) _ _ q.loaded
    exact ⟨_, _, .request (hf.written.wellFormed s.wellFormed) ha⟩
  | traffic f => exact ⟨_, _, .traffic⟩

/-- It is completed once. -/
theorem dispatch_once (h : Dispatch s (.request q, c) t) : c.length = 1 := by
  cases h with
  | @request _ a hw ha =>
    obtain ⟨a', ha', hf⟩ := @evtDeviceControl_served (q.driver s) _ _ q.loaded
    obtain rfl := Bytes.Outcome.ok.inj (ha.symm.trans ha')
    rw [hf.completions]
    rfl

theorem dispatch_unique (h : Dispatch s (e, c) t) (h' : Dispatch s (e, c') t') :
    c = c' ∧ t = t' := by
  cases h with
  | request hw ha =>
    cases h' with
    | request hw' ha' =>
      obtain rfl := Bytes.Outcome.ok.inj (ha.symm.trans ha')
      exact ⟨rfl, rfl⟩
  | traffic =>
    cases h' with
    | traffic => exact ⟨rfl, rfl⟩

/-- A request without the privilege leaves the policy, the ring and the statistics alone. -/
theorem dispatch_unprivileged (h : Dispatch s (.request q, c) t) (hq : q.privileged = false) :
    t = s := by
  have hctx : q.ioctl.context ≠ some true := of_decide_eq_false hq
  cases h with
  | @request _ a hw ha =>
    obtain ⟨a', ha', hf⟩ := @evtDeviceControl_served (q.driver s) _ _ q.loaded
    obtain rfl := Bytes.Outcome.ok.inj (ha.symm.trans ha')
    have hstore : a.store = s.store := hf.kept hctx
    have htelemetry : a.telemetry = s.telemetry := hf.telemetry
    have hpolicy : s.after q a.store hw = s.toPolicy := by
      simp only [hstore]
      exact after_self _
    rw [hpolicy, htelemetry]

theorem run_total (s : State) (es : List Event) :
    ∃ cs t, dispatches.Run s cs t ∧ cs.map Prod.fst = es := by
  induction es generalizing s with
  | nil => exact ⟨[], s, .refl, rfl⟩
  | cons e es ih =>
    obtain ⟨c, t, hd⟩ := dispatch_total s e
    obtain ⟨cs, u, hr, rfl⟩ := ih t
    exact ⟨(e, c) :: cs, u, .head hd hr, rfl⟩

theorem run_unique (h : dispatches.Run s cs t) (h' : dispatches.Run s cs' t')
    (he : cs'.map Prod.fst = cs.map Prod.fst) : cs' = cs ∧ t' = t := by
  induction h generalizing cs' with
  | refl =>
    obtain rfl := List.map_eq_nil_iff.mp he
    cases h' with
    | refl => exact ⟨rfl, rfl⟩
  | @head s u t p cs hd hr ih =>
    cases h' with
    | refl => cases he
    | @head s u' t' p' cs' hd' hr' =>
      obtain ⟨e, c⟩ := p
      obtain ⟨e', c'⟩ := p'
      obtain ⟨hq, hcs⟩ := List.cons_eq_cons.mp he
      obtain rfl : e' = e := hq
      obtain ⟨rfl, rfl⟩ := dispatch_unique hd hd'
      obtain ⟨rfl, rfl⟩ := ih hr' hcs
      exact ⟨rfl, rfl⟩

theorem dispatched_of_run (h : dispatches.Run s cs t) : Dispatched s (cs.map Prod.fst) cs t := by
  intro cs' t'
  constructor
  · rintro ⟨h', he⟩
    exact run_unique h h' he
  · rintro ⟨rfl, rfl⟩
    exact ⟨h, rfl⟩

/-- Every request of a run is completed once. -/
theorem run_once (h : dispatches.Run s cs t) (hc : (.request q, c) ∈ cs) : c.length = 1 := by
  induction h with
  | refl => cases hc
  | head hd _ ih =>
    rcases List.mem_cons.mp hc with rfl | hc
    · exact dispatch_once hd
    · exact ih hc

/-- Without the requests that lack the privilege a run is still one. -/
theorem run_filter (h : dispatches.Run s cs t) :
    dispatches.Run s (cs.filter fun p => p.1.allowed) t := by
  induction h with
  | refl => exact .refl
  | @head s u t p cs hd _ ih =>
    obtain ⟨e, c⟩ := p
    rw [List.filter_cons]
    cases he : e.allowed with
    | true => exact .head hd ih
    | false =>
      cases e with
      | request q =>
        obtain rfl := dispatch_unprivileged hd he
        exact ih
      | traffic f => cases he

/-- Every request is completed once, and deleting those whose handle context is missing or not
privileged changes neither the policy, the ring and the statistics nor the other completions. -/
theorem unprivileged_cannot_influence (s : State) (es : List Event) :
    ∃ cs t, cs.map Prod.fst = es ∧ Dispatched s es cs t ∧
      (∀ q c, (.request q, c) ∈ cs → c.length = 1) ∧
      Dispatched s (es.filter Event.allowed) (cs.filter fun p => p.1.allowed) t := by
  obtain ⟨cs, t, hr, rfl⟩ := run_total s es
  have hfilter := dispatched_of_run (run_filter hr)
  refine ⟨cs, t, rfl, dispatched_of_run hr, fun q c => run_once hr, ?_⟩
  rwa [List.filter_map]

end Sentinel.Control
