import Sentinel.Telemetry.Queue

/-! Every post is consumed or dropped once, in order, and a stop leaves nothing behind. -/
namespace Sentinel.EventQueue

open Transition InFlight

variable {s t : State} {act : Action} {as : List Action} {p : Post} {n m : Node} {alloc : Bool}
  {rest : Multiset (Post × Node)} {type : UInt32} {event : Event} {joined st : NtStatus}

namespace Post

/-- Between the gate and the decrement of `producers`. -/
def inside : Post → Node → Bool
  | .alloc, _ | .insert, _ | .leave _, _ => true
  | .enter, _ | .dropCounter _, _ | .dropEvent _, _ | .dropCount _, _ | .overflowRead, _
  | .overflowCount, _ | .postedCount, _ | .wake, _ => false

/-- The node is neither in the queue nor counted as dropped. -/
def holds : Post → Node → Bool
  | .enter, _ | .alloc, _ | .insert, _ | .dropCounter _, _ | .dropEvent _, _
  | .dropCount _, _ => true
  | .leave o, _ => o != .posted
  | .overflowRead, _ | .overflowCount, _ | .postedCount, _ | .wake, _ => false

/-- A drop that has decremented the counter, if there is one. -/
def pastCounter : Post → Node → Bool
  | .dropEvent _, n | .dropCount _, n => n.counter.isSome
  | .enter, _ | .alloc, _ | .insert, _ | .leave _, _ | .dropCounter _, _ | .overflowRead, _
  | .overflowCount, _ | .postedCount, _ | .wake, _ => false

/-- A drop that has called the sink; a dropped record does not. -/
def pastEvent : Post → Node → Bool
  | .dropCount _, n => !n.isRecord
  | .enter, _ | .alloc, _ | .insert, _ | .leave _, _ | .dropCounter _, _ | .dropEvent _, _
  | .overflowRead, _ | .overflowCount, _ | .postedCount, _ | .wake, _ => false

/-- Enqueued and not yet counted. -/
def uncounted : Post → Node → Bool
  | .leave o, _ => o == .posted
  | .postedCount, _ => true
  | .enter, _ | .alloc, _ | .insert, _ | .dropCounter _, _ | .dropEvent _, _ | .dropCount _, _
  | .overflowRead, _ | .overflowCount, _ | .wake, _ => false

/-- A step of `shEventDropInPlace` for a record. -/
def misplaced : Post → Node → Bool
  | .dropCounter _, n | .dropEvent _, n => n.isRecord
  | .enter, _ | .alloc, _ | .insert, _ | .leave _, _ | .dropCount _, _ | .overflowRead, _
  | .overflowCount, _ | .postedCount, _ | .wake, _ => false

end Post

def Stage.pastCounter : Stage → Bool
  | .counter => false
  | .event | .count => true

def Stage.pastEvent : Stage → Bool
  | .counter | .event => false
  | .count => true

def State.hand (s : State) (f : Stage → Bool) : List Node := s.consumer.hand f ++ s.stop.hand f

/-- The lengths, the gate and the way to the end. -/
structure Control (s : State) : Prop where
  pending : s.pending = s.list.length
  room : 0 < s.capacity → s.pending ≤ s.capacity
  producers : s.producers = (select Post.inside s.posts).card
  closed : s.stopping = s.stop.closed
  probe : s.consumer = .probe → s.stopping = true
  exited : s.consumer = .exited → s.stopping = true ∧ s.list = []
  alone : s.stop.alone = true → s.consumer.over = true
  emptied : s.stop.emptied = true → s.list = []

theorem control_start (capacity : ℤ) (onEvent thread : Bool) :
    Control (State.start capacity onEvent thread) where
  pending := rfl
  room h := Int.le_of_lt h
  producers := rfl
  closed := rfl
  probe h := by cases thread <;> cases h
  exited h := by cases thread <;> cases h
  alone h := by cases h
  emptied h := by cases h

theorem control_call (h : Control s) : Control (s.call type event) :=
  ⟨h.pending, h.room, by simpa [State.call, Post.inside] using h.producers, h.closed, h.probe,
    h.exited, h.alone, h.emptied⟩

/-- A post that touches neither list nor flag keeps control, if it counts as a producer before
and after or in neither. -/
theorem Control.of_posts (h : Control s) (hl : t.list = s.list) (hp : t.pending = s.pending)
    (hc : t.capacity = s.capacity) (hf : t.stopping = s.stopping) (hk : t.consumer = s.consumer)
    (hs : t.stop = s.stop)
    (hn : t.producers = (select Post.inside t.posts).card) : Control t := by
  refine ⟨?_, ?_, hn, ?_, ?_, ?_, ?_, ?_⟩
  · rw [hp, hl, h.pending]
  · rw [hp, hc]
    exact h.room
  · rw [hf, hs, h.closed]
  · rw [hf, hk]
    exact h.probe
  · rw [hf, hk, hl]
    exact h.exited
  · rw [hs, hk]
    exact h.alone
  · rw [hs, hl]
    exact h.emptied

theorem control_insert (h : Control s) (hp : s.posts = (.insert, n) ::ₘ rest) :
    Control (s.post rest n alloc .insert) := by
  have hn := h.producers
  simp only [hp, select_cons, Post.inside] at hn
  rw [State.post]
  split
  · exact h.of_posts rfl rfl rfl rfl rfl rfl (by simpa [State.goOn, Post.inside] using hn)
  rename_i hst
  have hst : s.stopping = false := by simpa using hst
  split
  · exact h.of_posts rfl rfl rfl rfl rfl rfl (by simpa [State.goOn, Post.inside] using hn)
  rename_i hfull
  have hopen : s.stop.closed = false := h.closed.symm.trans hst
  refine ⟨?_, ?_, ?_, h.closed, h.probe, ?_, h.alone, ?_⟩
  · simp [h.pending]
  · intro hcap
    have hlt : ¬ s.capacity ≤ s.pending := fun hle => hfull ⟨hcap, hle⟩
    change s.pending + 1 ≤ s.capacity
    omega
  · simpa [State.goOn, Post.inside] using hn
  · intro hx
    have hclosed := (h.exited hx).1
    rw [hst] at hclosed
    cases hclosed
  · intro he
    change s.stop.emptied = true at he
    cases hs : s.stop <;> rw [hs] at he hopen <;> first | cases he; done | cases hopen

theorem control_post (h : Control s) (hp : s.posts = (p, n) ::ₘ rest) :
    Control (s.post rest n alloc p) := by
  have hn := h.producers
  simp only [hp, select_cons] at hn
  cases p with
  | insert => exact control_insert h hp
  | enter =>
    rw [State.post]
    split
    · refine h.of_posts rfl rfl rfl rfl rfl rfl ?_
      cases hr : n.isRecord <;> simpa [State.goOn, dropStart, hr, Post.inside] using hn
    · refine h.of_posts rfl rfl rfl rfl rfl rfl ?_
      simpa [State.goOn, Post.inside] using hn
  | alloc =>
    refine h.of_posts rfl rfl rfl rfl rfl rfl ?_
    cases alloc <;> simpa [State.post, State.goOn, Post.inside] using hn
  | leave o =>
    refine h.of_posts rfl rfl rfl rfl rfl rfl ?_
    cases o <;> cases hr : n.isRecord <;>
      simp [State.post, State.goOn, afterLeave, dropStart, hr, hn, Post.inside]
  | dropCounter | dropEvent | overflowCount | postedCount | wake =>
    refine h.of_posts rfl rfl rfl rfl rfl rfl ?_
    simpa [State.post, State.goOn, State.decrement, State.sink, Post.inside] using hn
  | dropCount o =>
    refine h.of_posts rfl rfl rfl rfl rfl rfl ?_
    cases o <;> cases hr : n.isRecord <;>
      simpa [State.post, State.goOn, afterDrop, hr, Post.inside] using hn
  | overflowRead =>
    refine h.of_posts rfl rfl rfl rfl rfl rfl ?_
    cases hst : s.stopping <;> simpa [State.post, State.goOn, hst, Post.inside] using hn

theorem control_threadBody (h : Control s) : Control s.threadBody := by
  rcases s.threadBody_cases with he | ⟨ho, ⟨b, k, -, -, hp, hx, he⟩ | ⟨n, list, hk, hl, he⟩ |
    ⟨n, stage, hk, he⟩⟩ <;> rw [he]
  · exact h
  all_goals
    have hrun : s.stop.alone = true → False := by
      intro ha
      have hover := h.alone ha
      rw [ho] at hover
      cases hover
  · refine ⟨h.pending, h.room, h.producers, h.closed, hp, ?_, fun ha => (hrun ha).elim,
      h.emptied⟩
    intro hx'
    obtain ⟨hprobe, hz⟩ := hx hx'
    refine ⟨h.probe hprobe, List.length_eq_zero_iff.mp ?_⟩
    have hpend := h.pending
    change s.list.length = 0
    omega
  · have hpend := h.pending
    rw [hl, List.length_cons] at hpend
    refine ⟨?_, ?_, h.producers, h.closed, nofun, nofun, fun ha => (hrun ha).elim, ?_⟩
    · change s.pending - 1 = list.length
      omega
    · intro hcap
      have hroom := h.room hcap
      change s.pending - 1 ≤ s.capacity
      omega
    · intro hem
      have hnil := h.emptied hem
      rw [hl] at hnil
      cases hnil
  · cases stage <;>
      exact ⟨h.pending, h.room, h.producers, h.closed, nofun, nofun, fun ha => (hrun ha).elim,
        h.emptied⟩

theorem control_threadStop (h : Control s)
    (hj : s.stop = .join → joined = statusSuccess → s.consumer = .exited) :
    Control (s.threadStop joined) := by
  rcases s.threadStop_cases hj with he | ⟨b, f, q, -, -, hf, hq, ha, hem, he⟩ |
    ⟨n, list, hq, hl, he⟩ | ⟨n, stage, hq, he⟩ <;> rw [he]
  · exact h
  · have hclosed : f = true := by
      rcases hf with hf | ⟨hf, hc⟩
      · exact hf
      · rw [hf, h.closed, hc]
    refine ⟨h.pending, h.room, h.producers, hclosed.trans hq.symm, fun _ => hclosed, ?_, ?_, ?_⟩
    · exact fun hx => ⟨hclosed, (h.exited hx).2⟩
    · intro ha'
      rcases ha ha' with ha' | ho
      · exact h.alone ha'
      · exact ho
    · intro hem'
      rcases hem hem' with hem' | hl
      · exact h.emptied hem'
      · exact hl
  · have hover : s.consumer.over = true := h.alone (by rw [hq]; rfl)
    have hclosed : s.stopping = true := by rw [h.closed, hq]; rfl
    have hpend := h.pending
    rw [hl, List.length_cons] at hpend
    refine ⟨?_, ?_, h.producers, hclosed, h.probe, ?_, fun _ => hover, nofun⟩
    · change s.pending - 1 = list.length
      omega
    · intro hcap
      have hroom := h.room hcap
      change s.pending - 1 ≤ s.capacity
      omega
    · intro hx
      have hnil := (h.exited hx).2
      rw [hl] at hnil
      cases hnil
  · have hover : s.consumer.over = true := h.alone (by rw [hq]; rfl)
    have hclosed : s.stopping = true := by rw [h.closed, hq]; rfl
    cases stage <;>
      exact ⟨h.pending, h.room, h.producers, hclosed, h.probe, h.exited, fun _ => hover, nofun⟩

theorem control_step (h : Step s act t) (hs : Control s) : Control t := by
  cases h with
  | call => exact control_call hs
  | post alloc rest hp => exact control_post hs hp
  | threadBody => exact control_threadBody hs
  | threadStop joined hj => exact control_threadStop hs hj

/-! ### The books -/

/-- Every node is in one place, and what has been done for it is what its place says. -/
structure Ledger (s : State) : Prop where
  located : ∀ m, s.calls.count m = (select Post.holds s.posts).count m +
    (s.hand fun _ => true).count m + s.list.count m + s.taken.count m + s.lost.count m
  decremented : ∀ m, s.decremented.count m = if m.counter.isSome then
    (select Post.pastCounter s.posts).count m + (s.hand Stage.pastCounter).count m +
      s.taken.count m + s.lost.count m else 0
  sunk : ∀ m, s.sunk.count m = if s.onEvent then
    (select Post.pastEvent s.posts).count m + (s.hand Stage.pastEvent).count m +
      s.taken.count m + (if m.isRecord then 0 else s.lost.count m) else 0
  posted : s.posted + (select Post.uncounted s.posts).card = s.enqueued.length
  placed : select Post.misplaced s.posts = 0
  consumed : s.consumed = s.taken.length
  dropped : s.dropped = s.lost.card
  order : s.enqueued = s.taken ++ (s.hand fun _ => true) ++ s.list
  numbered : ∀ m ∈ s.calls, m.call < s.calls.card
  nodup : s.calls.Nodup

theorem ledger_start (capacity : ℤ) (onEvent thread : Bool) :
    Ledger (State.start capacity onEvent thread) where
  located m := by cases thread <;> rfl
  decremented m := by cases thread <;> simp [State.start, State.hand, Consumer.hand, Stop.hand]
  sunk m := by cases thread <;> simp [State.start, State.hand, Consumer.hand, Stop.hand]
  posted := rfl
  placed := rfl
  consumed := rfl
  dropped := rfl
  order := by cases thread <;> rfl
  numbered m h := by cases h
  nodup := Multiset.nodup_zero

theorem ledger_call (h : Ledger s) : Ledger (s.call type event) := by
  have hfresh : (⟨s.calls.card, type, event⟩ : Node) ∉ s.calls :=
    fun hm => Nat.lt_irrefl _ (h.numbered _ hm)
  refine ⟨?_, ?_, ?_, ?_, ?_, h.consumed, h.dropped, h.order, ?_, ?_⟩
  · intro m
    have hm := h.located m
    simp only [State.call, State.hand, select_cons, Post.holds, if_true, Multiset.count_cons]
      at hm ⊢
    omega
  · intro m
    have hm := h.decremented m
    simp only [State.call, State.hand, select_cons, Post.pastCounter] at hm ⊢
    exact hm
  · intro m
    have hm := h.sunk m
    simp only [State.call, State.hand, select_cons, Post.pastEvent] at hm ⊢
    exact hm
  · simpa [State.call, Post.uncounted] using h.posted
  · simpa [State.call, Post.misplaced] using h.placed
  · intro m hm
    simp only [State.call, Multiset.card_cons] at hm ⊢
    rcases Multiset.mem_cons.mp hm with rfl | hm
    · exact Nat.lt_succ_self _
    · exact Nat.lt_succ_of_lt (h.numbered m hm)
  · exact Multiset.nodup_cons.mpr ⟨hfresh, h.nodup⟩

theorem select_goOn {f : Post → Node → Bool} {q : Option Post} :
    select f (s.goOn rest n q).posts =
      if q.elim false (f · n) then n ::ₘ select f rest else select f rest := by
  cases q with
  | none => rfl
  | some q => exact select_cons

theorem counter_of_isRecord (h : n.isRecord = true) : n.counter = none := by
  rcases n with ⟨call, type, _ | _⟩
  · cases h
  · rfl

/-- A move between places that say the same. -/
theorem select_move (f : Post → Node → Bool) (hp : s.posts = (p, n) ::ₘ rest) (q : Option Post)
    (h : q.elim false (f · n) = f p n) :
    select f (s.goOn rest n q).posts = select f s.posts := by
  rw [select_goOn, h, hp, select_cons]

/-- A post that only moves on keeps the books, if its place says the same as before. -/
theorem Ledger.of_goOn (h : Ledger s) (hp : s.posts = (p, n) ::ₘ rest) (q : Option Post) (k : ℤ)
    (b : Bool) (c : ℕ) (h₁ : q.elim false (·.holds n) = p.holds n)
    (h₂ : q.elim false (·.pastCounter n) = p.pastCounter n)
    (h₃ : q.elim false (·.pastEvent n) = p.pastEvent n)
    (h₄ : q.elim false (·.uncounted n) = p.uncounted n)
    (h₅ : q.elim false (·.misplaced n) = p.misplaced n) :
    Ledger { s.goOn rest n q with producers := k, doorbell := b, overflowDropped := c } where
  located := select_move _ hp q h₁ ▸ h.located
  decremented := select_move _ hp q h₂ ▸ h.decremented
  sunk := select_move _ hp q h₃ ▸ h.sunk
  posted := select_move _ hp q h₄ ▸ h.posted
  placed := select_move _ hp q h₅ ▸ h.placed
  consumed := h.consumed
  dropped := h.dropped
  order := h.order
  numbered := h.numbered
  nodup := h.nodup

/-- The first step of a drop finds nothing done yet. -/
theorem dropStart_spec (n : Node) (o : Outcome) : (dropStart n o).holds n = true ∧
    (dropStart n o).pastCounter n = false ∧ (dropStart n o).pastEvent n = false ∧
    (dropStart n o).uncounted n = false ∧ (dropStart n o).misplaced n = false := by
  cases hr : n.isRecord with
  | false =>
    simp [dropStart, hr, Post.holds, Post.pastCounter, Post.pastEvent, Post.uncounted,
      Post.misplaced]
  | true =>
    simp [dropStart, hr, counter_of_isRecord hr, Post.holds, Post.pastCounter, Post.pastEvent,
      Post.uncounted, Post.misplaced]

/-- After a drop nothing is left of the node. -/
theorem afterDrop_spec (n : Node) (o : Outcome) : (afterDrop n o).elim false (·.holds n) = false ∧
    (afterDrop n o).elim false (·.pastCounter n) = false ∧
    (afterDrop n o).elim false (·.pastEvent n) = false ∧
    (afterDrop n o).elim false (·.uncounted n) = false ∧
    (afterDrop n o).elim false (·.misplaced n) = false := by
  cases hr : n.isRecord <;> cases o <;>
    simp [afterDrop, hr, Post.holds, Post.pastCounter, Post.pastEvent, Post.uncounted,
      Post.misplaced]

theorem count_single : [n].count m = if m = n then 1 else 0 := by
  by_cases h : m = n
  · simp [h]
  · simp [h, Ne.symm h]

/-- The node goes from the post to the list. -/
theorem Ledger.enqueue (h : Ledger s) (hp : s.posts = (.insert, n) ::ₘ rest) {k : ℤ} :
    Ledger { s.goOn rest n (some (.leave .posted)) with
      list := s.list ++ [n], pending := k, enqueued := s.enqueued ++ [n] } where
  located := by
    intro m
    have hm := h.located m
    have hold : select Post.holds s.posts = n ::ₘ select Post.holds rest := by
      rw [hp, select_cons]
      rfl
    rw [hold, Multiset.count_cons] at hm
    simp only [select_goOn, Option.elim_some, Post.holds, List.count_append, count_single]
    change s.calls.count m = (select Post.holds rest).count m + (s.hand fun _ => true).count m +
      _ + s.taken.count m + s.lost.count m
    omega
  decremented := select_move Post.pastCounter hp (some (.leave .posted)) rfl ▸ h.decremented
  sunk := select_move Post.pastEvent hp (some (.leave .posted)) rfl ▸ h.sunk
  posted := by
    have hm := h.posted
    have hold : select Post.uncounted s.posts = select Post.uncounted rest := by
      rw [hp, select_cons]
      rfl
    rw [hold] at hm
    simp only [select_goOn, Option.elim_some, Post.uncounted, List.length_append,
      List.length_singleton]
    change s.posted + (n ::ₘ select Post.uncounted rest).card = _
    rw [Multiset.card_cons]
    omega
  placed := select_move Post.misplaced hp (some (.leave .posted)) rfl ▸ h.placed
  consumed := h.consumed
  dropped := h.dropped
  order := by
    change s.enqueued ++ [n] = s.taken ++ (s.hand fun _ => true) ++ (s.list ++ [n])
    rw [h.order, ← List.append_assoc]
  numbered := h.numbered
  nodup := h.nodup

theorem ledger_insert (h : Ledger s) (hp : s.posts = (.insert, n) ::ₘ rest) :
    Ledger (s.post rest n alloc .insert) := by
  have hmove := h.of_goOn hp
  rw [State.post]
  split
  · exact hmove (some (.leave .stopped)) s.producers s.doorbell s.overflowDropped
      rfl rfl rfl rfl rfl
  split
  · exact hmove (some (.leave .full)) s.producers s.doorbell s.overflowDropped
      rfl rfl rfl rfl rfl
  · exact h.enqueue hp

theorem ledger_dropCounter {o : Outcome} (h : Ledger s)
    (hp : s.posts = (.dropCounter o, n) ::ₘ rest) :
    Ledger ((s.decrement n).goOn rest n (some (.dropEvent o))) where
  located := select_move Post.holds hp (some (.dropEvent o)) rfl ▸ h.located
  decremented := by
    intro m
    have hm := h.decremented m
    have hold : select Post.pastCounter s.posts = select Post.pastCounter rest := by
      rw [hp, select_cons]
      rfl
    rw [hold] at hm
    rw [select_goOn]
    change (if n.counter.isSome then n ::ₘ s.decremented else s.decremented).count m =
      if m.counter.isSome then
        (if n.counter.isSome then n ::ₘ select Post.pastCounter rest
          else select Post.pastCounter rest).count m + (s.hand Stage.pastCounter).count m +
          s.taken.count m + s.lost.count m else 0
    cases hc : n.counter.isSome with
    | false => exact hm
    | true =>
      simp only [if_true, Multiset.count_cons]
      by_cases hmn : m = n
      · subst hmn
        rw [if_pos hc] at hm ⊢
        simp only [if_true]
        omega
      · simp only [if_neg hmn, Nat.add_zero]
        exact hm
  sunk := select_move Post.pastEvent hp (some (.dropEvent o)) rfl ▸ h.sunk
  posted := select_move Post.uncounted hp (some (.dropEvent o)) rfl ▸ h.posted
  placed := select_move Post.misplaced hp (some (.dropEvent o)) rfl ▸ h.placed
  consumed := h.consumed
  dropped := h.dropped
  order := h.order
  numbered := h.numbered
  nodup := h.nodup

theorem ledger_dropEvent {o : Outcome} (h : Ledger s)
    (hp : s.posts = (.dropEvent o, n) ::ₘ rest) :
    Ledger ((s.sink n).goOn rest n (some (.dropCount o))) := by
  have hkind : n.isRecord = false := by
    have hz := h.placed
    rw [hp, select_cons] at hz
    cases hr : n.isRecord with
    | false => rfl
    | true => simp [Post.misplaced, hr] at hz
  have hevent : Post.pastEvent (.dropCount o) n = true := by simp [Post.pastEvent, hkind]
  refine ⟨select_move Post.holds hp (some (.dropCount o)) rfl ▸ h.located,
    select_move Post.pastCounter hp (some (.dropCount o)) rfl ▸ h.decremented, ?_,
    select_move Post.uncounted hp (some (.dropCount o)) rfl ▸ h.posted,
    select_move Post.misplaced hp (some (.dropCount o)) hkind.symm ▸ h.placed,
    h.consumed, h.dropped, h.order, h.numbered, h.nodup⟩
  intro m
  have hm := h.sunk m
  have hold : select Post.pastEvent s.posts = select Post.pastEvent rest := by
    rw [hp, select_cons]
    rfl
  rw [hold] at hm
  rw [select_goOn, Option.elim_some, if_pos hevent, Multiset.count_cons]
  change (if s.onEvent then n ::ₘ s.sunk else s.sunk).count m = if s.onEvent then
    _ + (s.hand Stage.pastEvent).count m + s.taken.count m +
      (if m.isRecord then 0 else s.lost.count m) else 0
  cases hs : s.onEvent with
  | false =>
    rw [hs] at hm
    exact hm
  | true =>
    rw [hs] at hm
    simp only [if_true, Multiset.count_cons] at hm ⊢
    omega

theorem ledger_dropCount {o : Outcome} (h : Ledger s)
    (hp : s.posts = (.dropCount o, n) ::ₘ rest) :
    Ledger { s.goOn rest n (afterDrop n o) with
      dropped := s.dropped + 1, lost := n ::ₘ s.lost } := by
  obtain ⟨h₁, h₂, h₃, h₄, h₅⟩ := afterDrop_spec n o
  refine ⟨?_, ?_, ?_, select_move Post.uncounted hp _ h₄ ▸ h.posted,
    select_move Post.misplaced hp _ h₅ ▸ h.placed, h.consumed, ?_, h.order, h.numbered, h.nodup⟩
  · intro m
    have hm := h.located m
    have hold : select Post.holds s.posts = n ::ₘ select Post.holds rest := by
      rw [hp, select_cons]
      rfl
    rw [hold, Multiset.count_cons] at hm
    rw [select_goOn, h₁, Multiset.count_cons]
    change s.calls.count m = (select Post.holds rest).count m + (s.hand fun _ => true).count m +
      s.list.count m + s.taken.count m + _
    omega
  · intro m
    have hm := h.decremented m
    rw [hp, select_cons] at hm
    rw [select_goOn, h₂, Multiset.count_cons]
    change s.decremented.count m = if m.counter.isSome then
      (select Post.pastCounter rest).count m + (s.hand Stage.pastCounter).count m +
        s.taken.count m + _ else 0
    rw [hm]
    cases hc : m.counter.isSome with
    | false => rfl
    | true =>
      by_cases hmn : m = n
      · subst hmn
        simp only [Post.pastCounter, hc, if_true, Multiset.count_cons]
        omega
      · cases hn : Post.pastCounter (.dropCount o) n <;> simp [hmn]
  · intro m
    have hm := h.sunk m
    rw [hp, select_cons] at hm
    rw [select_goOn, h₃, Multiset.count_cons]
    change s.sunk.count m = if s.onEvent then
      (select Post.pastEvent rest).count m + (s.hand Stage.pastEvent).count m +
        s.taken.count m + (if m.isRecord then 0 else _) else 0
    rw [hm]
    cases hs : s.onEvent with
    | false => rfl
    | true =>
      by_cases hmn : m = n
      · subst hmn
        cases hr : m.isRecord with
        | false =>
          simp only [Post.pastEvent, hr, Multiset.count_cons, if_true, Bool.not_false]
          simp
          omega
        | true => simp [Post.pastEvent, hr]
      · cases hn : Post.pastEvent (.dropCount o) n <;> simp [hmn]
  · change s.dropped + 1 = (n ::ₘ s.lost).card
    rw [Multiset.card_cons, h.dropped]

theorem ledger_postedCount (h : Ledger s) (hp : s.posts = (.postedCount, n) ::ₘ rest) :
    Ledger { s.goOn rest n (some .wake) with posted := s.posted + 1 } := by
  refine ⟨select_move Post.holds hp (some .wake) rfl ▸ h.located,
    select_move Post.pastCounter hp (some .wake) rfl ▸ h.decremented,
    select_move Post.pastEvent hp (some .wake) rfl ▸ h.sunk, ?_,
    select_move Post.misplaced hp (some .wake) rfl ▸ h.placed,
    h.consumed, h.dropped, h.order, h.numbered, h.nodup⟩
  have hm := h.posted
  have hold : select Post.uncounted s.posts = n ::ₘ select Post.uncounted rest := by
    rw [hp, select_cons]
    rfl
  rw [hold, Multiset.card_cons] at hm
  rw [select_goOn]
  change s.posted + 1 + (select Post.uncounted rest).card = s.enqueued.length
  omega

theorem ledger_post (h : Ledger s) (hp : s.posts = (p, n) ::ₘ rest) :
    Ledger (s.post rest n alloc p) := by
  have hmove := h.of_goOn hp
  cases p with
  | enter =>
    obtain ⟨h₁, h₂, h₃, h₄, h₅⟩ := dropStart_spec n .refused
    rw [State.post]
    split
    · exact hmove (some (dropStart n .refused)) s.producers s.doorbell s.overflowDropped
        h₁ h₂ h₃ h₄ h₅
    · exact hmove (some .alloc) (s.producers + 1) s.doorbell s.overflowDropped rfl rfl rfl rfl rfl
  | alloc =>
    cases alloc with
    | false =>
      exact hmove (some (.leave .noNode)) s.producers s.doorbell s.overflowDropped
        rfl rfl rfl rfl rfl
    | true =>
      exact hmove (some .insert) s.producers s.doorbell s.overflowDropped rfl rfl rfl rfl rfl
  | insert => exact ledger_insert h hp
  | leave o =>
    have hnext := fun q => hmove (some q) (s.producers - 1) s.doorbell s.overflowDropped
    cases o with
    | posted => exact hnext .postedCount rfl rfl rfl rfl rfl
    | refused | noNode | stopped | full =>
      obtain ⟨h₁, h₂, h₃, h₄, h₅⟩ := dropStart_spec n _
      exact hnext _ h₁ h₂ h₃ h₄ h₅
  | dropCounter o => exact ledger_dropCounter h hp
  | dropEvent o => exact ledger_dropEvent h hp
  | dropCount o => exact ledger_dropCount h hp
  | overflowRead =>
    rw [State.post]
    split
    · exact hmove none s.producers s.doorbell s.overflowDropped rfl rfl rfl rfl rfl
    · exact hmove (some .overflowCount) s.producers s.doorbell s.overflowDropped
        rfl rfl rfl rfl rfl
  | overflowCount => exact hmove none s.producers s.doorbell _ rfl rfl rfl rfl rfl
  | postedCount => exact ledger_postedCount h hp
  | wake => exact hmove none s.producers true s.overflowDropped rfl rfl rfl rfl rfl

/-- The books do not see who holds what is in hand. -/
theorem Ledger.of_hands (h : Ledger s) {k : Consumer} {q : Stop} {b f' : Bool}
    (hh : ∀ f, k.hand f ++ q.hand f = s.hand f) :
    Ledger { s with doorbell := b, stopping := f', consumer := k, stop := q } := by
  have hhand : State.hand { s with doorbell := b, stopping := f', consumer := k, stop := q } =
      s.hand := funext hh
  refine ⟨?_, ?_, ?_, h.posted, h.placed, h.consumed, h.dropped, ?_, h.numbered, h.nodup⟩
  · rw [hhand]
    exact h.located
  · rw [hhand]
    exact h.decremented
  · rw [hhand]
    exact h.sunk
  · rw [hhand]
    exact h.order

/-- The node goes from the list to an empty hand. -/
theorem Ledger.of_pop (h : Ledger s) {list : List Node} {k : Consumer} {q : Stop}
    (hl : s.list = n :: list) (hh : ∀ f, s.hand f = [])
    (hh' : ∀ f, k.hand f ++ q.hand f = if f .counter then [n] else []) :
    Ledger { s with list := list, pending := s.pending - 1, consumer := k, stop := q } := by
  have hhand : State.hand { s with
      list := list, pending := s.pending - 1, consumer := k, stop := q } =
      fun f => if f .counter then [n] else [] := funext hh'
  refine ⟨?_, ?_, ?_, h.posted, h.placed, h.consumed, h.dropped, ?_, h.numbered, h.nodup⟩
  · intro m
    have hm := h.located m
    rw [hh, hl] at hm
    rw [hhand]
    simp only [List.count_cons, List.count_nil, if_true] at hm ⊢
    omega
  · intro m
    have hm := h.decremented m
    rw [hh] at hm
    rw [hhand]
    exact hm
  · intro m
    have hm := h.sunk m
    rw [hh] at hm
    rw [hhand]
    exact hm
  · have ho := h.order
    rw [hh, hl] at ho
    rw [hhand]
    simpa using ho

/-- The counter of the node in hand is decremented. -/
theorem Ledger.of_counter (h : Ledger s) {k : Consumer} {q : Stop}
    (hh : ∀ f, s.hand f = if f .counter then [n] else [])
    (hh' : ∀ f, k.hand f ++ q.hand f = if f .event then [n] else []) :
    Ledger { s.decrement n with consumer := k, stop := q } := by
  have hhand : State.hand { s.decrement n with consumer := k, stop := q } =
      fun f => if f .event then [n] else [] := funext hh'
  refine ⟨?_, ?_, ?_, h.posted, h.placed, h.consumed, h.dropped, ?_, h.numbered, h.nodup⟩
  · intro m
    have hm := h.located m
    rw [hh] at hm
    rw [hhand]
    exact hm
  · intro m
    have hm : s.decremented.count m = if m.counter.isSome then
        (select Post.pastCounter s.posts).count m + 0 + s.taken.count m + s.lost.count m
        else 0 := by
      have hm := h.decremented m
      rw [hh] at hm
      exact hm
    rw [hhand]
    change (if n.counter.isSome then n ::ₘ s.decremented else s.decremented).count m =
      if m.counter.isSome then (select Post.pastCounter s.posts).count m + [n].count m +
        s.taken.count m + s.lost.count m else 0
    rw [count_single]
    by_cases hmn : m = n
    · subst hmn
      cases hc : m.counter.isSome with
      | false =>
        rw [hc] at hm
        exact hm
      | true =>
        rw [hc] at hm
        simp only [if_true, Multiset.count_cons_self] at hm ⊢
        omega
    · rw [if_neg hmn]
      cases n.counter.isSome with
      | false => exact hm
      | true => exact (Multiset.count_cons_of_ne hmn s.decremented).trans hm
  · intro m
    have hm := h.sunk m
    rw [hh] at hm
    rw [hhand]
    exact hm
  · have ho := h.order
    rw [hh] at ho
    rw [hhand]
    exact ho

/-- The node in hand is given to the sink. -/
theorem Ledger.of_event (h : Ledger s) {k : Consumer} {q : Stop}
    (hh : ∀ f, s.hand f = if f .event then [n] else [])
    (hh' : ∀ f, k.hand f ++ q.hand f = if f .count then [n] else []) :
    Ledger { s.sink n with consumer := k, stop := q } := by
  have hhand : State.hand { s.sink n with consumer := k, stop := q } =
      fun f => if f .count then [n] else [] := funext hh'
  refine ⟨?_, ?_, ?_, h.posted, h.placed, h.consumed, h.dropped, ?_, h.numbered, h.nodup⟩
  · intro m
    have hm := h.located m
    rw [hh] at hm
    rw [hhand]
    exact hm
  · intro m
    have hm := h.decremented m
    rw [hh] at hm
    rw [hhand]
    exact hm
  · intro m
    have hm : s.sunk.count m = if s.onEvent then
        (select Post.pastEvent s.posts).count m + 0 + s.taken.count m +
          (if m.isRecord then 0 else s.lost.count m) else 0 := by
      have hm := h.sunk m
      rw [hh] at hm
      exact hm
    rw [hhand]
    change (if s.onEvent then n ::ₘ s.sunk else s.sunk).count m = if s.onEvent then
      (select Post.pastEvent s.posts).count m + [n].count m + s.taken.count m +
        (if m.isRecord then 0 else s.lost.count m) else 0
    cases hs : s.onEvent with
    | false =>
      rw [hs] at hm
      exact hm
    | true =>
      rw [hs] at hm
      simp only [if_true, Multiset.count_cons, count_single] at hm ⊢
      omega
  · have ho := h.order
    rw [hh] at ho
    rw [hhand]
    exact ho

/-- The node in hand is counted as consumed. -/
theorem Ledger.of_count (h : Ledger s) {k : Consumer} {q : Stop}
    (hh : ∀ f, s.hand f = if f .count then [n] else [])
    (hh' : ∀ f, k.hand f ++ q.hand f = []) :
    Ledger { s.nodeConsume n .count with consumer := k, stop := q } := by
  have hhand : State.hand { s.nodeConsume n .count with consumer := k, stop := q } =
      fun _ => [] := funext hh'
  refine ⟨?_, ?_, ?_, h.posted, h.placed, ?_, h.dropped, ?_, h.numbered, h.nodup⟩
  · intro m
    have hm := h.located m
    rw [hh] at hm
    rw [hhand]
    change s.calls.count m = (select Post.holds s.posts).count m + 0 + s.list.count m +
      (s.taken ++ [n]).count m + s.lost.count m
    rw [List.count_append]
    simp only [if_true] at hm
    omega
  · intro m
    have hm := h.decremented m
    rw [hh] at hm
    rw [hhand]
    change s.decremented.count m = if m.counter.isSome then
      (select Post.pastCounter s.posts).count m + 0 + (s.taken ++ [n]).count m +
        s.lost.count m else 0
    rw [List.count_append, hm]
    simp only [Stage.pastCounter, if_true]
    congr 1
    omega
  · intro m
    have hm := h.sunk m
    rw [hh] at hm
    rw [hhand]
    change s.sunk.count m = if s.onEvent then
      (select Post.pastEvent s.posts).count m + 0 + (s.taken ++ [n]).count m +
        (if m.isRecord then 0 else s.lost.count m) else 0
    rw [List.count_append, hm]
    simp only [Stage.pastEvent, if_true]
    congr 1
    omega
  · change s.consumed + 1 = (s.taken ++ [n]).length
    rw [List.length_append, List.length_singleton, h.consumed]
  · have ho := h.order
    rw [hh] at ho
    rw [hhand]
    change s.enqueued = s.taken ++ [n] ++ [] ++ s.list
    simpa using ho

/-- What is done for the node in hand is booked. -/
theorem Ledger.of_consume (h : Ledger s) (stage : Stage) {k : Consumer} {q : Stop}
    (hh : ∀ f, s.hand f = if f stage then [n] else [])
    (hh' : ∀ f, k.hand f ++ q.hand f = stage.next.elim [] fun st => if f st then [n] else []) :
    Ledger { s.nodeConsume n stage with consumer := k, stop := q } := by
  cases stage with
  | counter => exact h.of_counter hh hh'
  | event => exact h.of_event hh hh'
  | count => exact h.of_count hh hh'

/-- With the consumer at work the stop has nothing in hand. -/
theorem Control.stop_hand (h : Control s) (ho : s.consumer.over = false) (f : Stage → Bool) :
    s.stop.hand f = [] := by
  cases hq : s.stop with
  | consume n stage =>
    have hover := h.alone (by rw [hq]; rfl)
    rw [ho] at hover
    cases hover
  | close | wait | wake | join | drain | last | returned => rfl

theorem Consumer.hand_of_over {k : Consumer} (h : k.over = true) (f : Stage → Bool) :
    k.hand f = [] := by
  cases k with
  | consume => cases h
  | absent | wait | check | probe | pop | exited => rfl

theorem ledger_threadBody (h : Ledger s) (hc : Control s) : Ledger s.threadBody := by
  rcases s.threadBody_cases with he | ⟨ho, ⟨b, k, hk, hk', -, -, he⟩ | ⟨n, list, hk, hl, he⟩ |
    ⟨n, stage, hk, he⟩⟩ <;> rw [he]
  · exact h
  all_goals have hstop := hc.stop_hand ho
  · refine h.of_hands fun f => ?_
    rw [State.hand, hk, hk']
  · refine h.of_pop hl (fun f => ?_) fun f => ?_
    · rw [State.hand, hk, hstop]
      rfl
    · rw [hstop, List.append_nil]
      rfl
  · have hs : (s.nodeConsume n stage).stop = s.stop := by cases stage <;> rfl
    have hgoal : Ledger { s.nodeConsume n stage with
        consumer := stage.next.elim .pop (.consume n), stop := s.stop } := by
      refine h.of_consume stage (fun f => ?_) fun f => ?_
      · rw [State.hand, hk, hstop, List.append_nil]
        rfl
      · rw [hstop, List.append_nil]
        cases stage <;> rfl
    rw [← hs] at hgoal
    exact hgoal

theorem ledger_threadStop (h : Ledger s) (hc : Control s)
    (hj : s.stop = .join → joined = statusSuccess → s.consumer = .exited) :
    Ledger (s.threadStop joined) := by
  rcases s.threadStop_cases hj with he | ⟨b, f, q, hq, hq', -, -, -, -, he⟩ |
    ⟨n, list, hq, hl, he⟩ | ⟨n, stage, hq, he⟩ <;> rw [he]
  · exact h
  · refine h.of_hands fun f => ?_
    rw [State.hand, hq, hq']
  · have hover := Consumer.hand_of_over (hc.alone (by rw [hq]; rfl))
    refine h.of_pop hl (fun f => ?_) fun f => ?_
    · rw [State.hand, hq, hover]
      rfl
    · rw [hover]
      rfl
  · have hover := Consumer.hand_of_over (hc.alone (by rw [hq]; rfl))
    have hs : (s.nodeConsume n stage).consumer = s.consumer := by cases stage <;> rfl
    have hgoal : Ledger { s.nodeConsume n stage with
        consumer := s.consumer, stop := stage.next.elim .drain (.consume n) } := by
      refine h.of_consume stage (fun f => ?_) fun f => ?_
      · rw [State.hand, hq, hover]
        rfl
      · rw [hover]
        cases stage <;> rfl
    rw [← hs] at hgoal
    exact hgoal

theorem ledger_step (h : Step s act t) (hc : Control s) (hs : Ledger s) : Ledger t := by
  cases h with
  | call => exact ledger_call hs
  | post alloc rest hp => exact ledger_post hs hp
  | threadBody => exact ledger_threadBody hs hc
  | threadStop joined hj => exact ledger_threadStop hs hc hj

theorem books_reachable (h : system.Reachable s) : Control s ∧ Ledger s := by
  have hinit : ∀ {s}, system.init s → Control s ∧ Ledger s := by
    rintro s ⟨capacity, onEvent, thread, rfl⟩
    exact ⟨control_start capacity onEvent thread, ledger_start capacity onEvent thread⟩
  have hstep : ∀ {s act t}, system.step s act t → Control s ∧ Ledger s →
      Control t ∧ Ledger t := by
    rintro s act t hst ⟨hc, hl⟩
    exact ⟨control_step hst hc, ledger_step hst hc hl⟩
  exact h.invariant (I := fun s => Control s ∧ Ledger s) hinit hstep

/-! ### After the stop -/

/-- Once the flag is set nothing is enqueued. -/
theorem stopping_step (h : Step s act t) (hs : s.stopping = true) : t.stopping = true ∧
    t.enqueued = s.enqueued ∧ (s.list = [] → t.list = []) := by
  cases h with
  | call => exact ⟨hs, rfl, id⟩
  | @post p n alloc rest hp =>
    cases p with
    | enter | insert | overflowRead =>
      rw [State.post, if_pos hs]
      exact ⟨hs, rfl, id⟩
    | alloc | leave | dropCounter | dropEvent | dropCount | overflowCount | postedCount | wake =>
      exact ⟨hs, rfl, id⟩
  | threadBody =>
    rcases s.threadBody_cases with he | ⟨-, ⟨b, k, -, -, -, -, he⟩ | ⟨n, list, -, hl, he⟩ |
      ⟨n, stage, -, he⟩⟩ <;> rw [he]
    · exact ⟨hs, rfl, id⟩
    · exact ⟨hs, rfl, id⟩
    · exact ⟨hs, rfl, fun hn => absurd (hl.symm.trans hn) (List.cons_ne_nil _ _)⟩
    · cases stage <;> exact ⟨hs, rfl, id⟩
  | threadStop joined hj =>
    rcases s.threadStop_cases hj with he | ⟨b, f, q, -, -, hf, -, -, -, he⟩ |
      ⟨n, list, -, hl, he⟩ | ⟨n, stage, -, he⟩ <;> rw [he]
    · exact ⟨hs, rfl, id⟩
    · refine ⟨?_, rfl, id⟩
      rcases hf with hf | ⟨hf, -⟩
      · exact hf
      · exact hf.trans hs
    · exact ⟨hs, rfl, fun hn => absurd (hl.symm.trans hn) (List.cons_ne_nil _ _)⟩
    · cases stage <;> exact ⟨hs, rfl, id⟩

theorem stopping_run (h : system.Run s as t) (hs : s.stopping = true) :
    t.enqueued = s.enqueued ∧ (s.list = [] → t.list = []) := by
  induction h with
  | refl => exact ⟨rfl, id⟩
  | head hst _ ih =>
    obtain ⟨hs', he, hl⟩ := stopping_step hst hs
    obtain ⟨he', hl'⟩ := ih hs'
    exact ⟨he'.trans he, fun hn => hl' (hl hn)⟩

/-- All posts and the stop are back, and the consumer has ended or was joined by the stop. -/
def State.Finished (s : State) : Prop :=
  s.posts = 0 ∧ (∃ st, s.stop = .returned st) ∧
    (s.consumer = .exited ∨ s.stop = .returned statusSuccess)

theorem finished_empty (hc : Control s) (h : s.Finished) :
    s.list = [] ∧ ∀ f, s.hand f = [] := by
  obtain ⟨-, ⟨st, hst⟩, hend⟩ := h
  have hstop : ∀ f, s.stop.hand f = [] := fun f => by rw [hst]; rfl
  rcases hend with hx | hok
  · refine ⟨(hc.exited hx).2, fun f => ?_⟩
    rw [State.hand, hstop, hx]
    rfl
  · have hover : s.consumer.over = true := hc.alone (by rw [hok]; rfl)
    refine ⟨hc.emptied (by rw [hok]; rfl), fun f => ?_⟩
    rw [State.hand, hstop, Consumer.hand_of_over hover]
    rfl

/-- The length counts the list within its capacity, nodes are consumed in the order of their
enqueue, a stop that succeeds leaves an empty list for good, and in the end every post has
released its counter and its reference once and is counted as consumed or as dropped. -/
theorem queue_correct (h : system.Reachable s) :
    (s.pending = s.list.length ∧ (0 < s.capacity → s.pending ≤ s.capacity)) ∧
    s.taken <+: s.enqueued ∧
    (s.stop = .returned statusSuccess → s.list = [] ∧
      ∀ as t, system.Run s as t → t.list = [] ∧ t.enqueued = s.enqueued) ∧
    (s.Finished →
      (∀ n ∈ s.calls, s.decremented.count n = (if n.counter.isSome then 1 else 0) ∧
        (n.isRecord = false → s.sunk.count n = if s.onEvent then 1 else 0)) ∧
      s.consumed = s.posted ∧ s.posted + s.dropped = s.calls.card) := by
  obtain ⟨hc, hl⟩ := books_reachable h
  refine ⟨⟨hc.pending, hc.room⟩, ?_, ?_, ?_⟩
  · rw [hl.order, List.append_assoc]
    exact List.prefix_append _ _
  · intro hok
    have hnil : s.list = [] := hc.emptied (by rw [hok]; rfl)
    have hstop : s.stopping = true := by rw [hc.closed, hok]; rfl
    refine ⟨hnil, fun as t hrun => ?_⟩
    obtain ⟨he, hl'⟩ := stopping_run hrun hstop
    exact ⟨hl' hnil, he⟩
  · intro hf
    obtain ⟨hnil, hhand⟩ := finished_empty hc hf
    have hposts := hf.1
    have hloc : ∀ m, s.calls.count m = s.taken.count m + s.lost.count m := by
      intro m
      have hm := hl.located m
      rw [hposts, hhand, hnil] at hm
      simpa using hm
    have hcalls : s.calls = s.taken + s.lost := by
      ext m
      rw [hloc m, Multiset.count_add, Multiset.coe_count]
    have hposted : s.posted = s.taken.length := by
      have hp := hl.posted
      rw [hposts, hl.order, hhand, hnil] at hp
      simpa using hp
    refine ⟨?_, hl.consumed.trans hposted.symm, ?_⟩
    · intro n hn
      have hone : s.taken.count n + s.lost.count n = 1 := by
        rw [← hloc n]
        exact Multiset.count_eq_one_of_mem hl.nodup hn
      constructor
      · have hd := hl.decremented n
        rw [hposts, hhand] at hd
        rw [hd]
        simp [hone]
      · intro hr
        have hs := hl.sunk n
        rw [hposts, hhand, hr] at hs
        rw [hs]
        simp [hone]
    · rw [hcalls, Multiset.card_add, Multiset.coe_card, hposted, hl.dropped]

/-- One reference is posted, consumed by the thread, and the queue stopped. -/
theorem delivered_reachable : ∃ s, system.Reachable s ∧ s.Finished ∧
    s.stop = .returned statusSuccess ∧ s.calls = {⟨0, 1, .post 9 (some 0)⟩} := by
  have hinit : system.Reachable (.start 4096 true true) := .of_init ⟨_, _, _, rfl⟩
  have hcall := hinit.step (.call 1 (.post 9 (some 0)) trivial)
  have henter := hcall.step (.post true 0 rfl)
  have halloc := henter.step (.post true 0 rfl)
  have hinsert := halloc.step (.post true 0 rfl)
  have hleave := hinsert.step (.post true 0 rfl)
  have hcount := hleave.step (.post true 0 rfl)
  have hwake := hcount.step (.post true 0 rfl)
  have hpop := (hwake.step .threadBody).step .threadBody
  have hconsume := ((hpop.step .threadBody).step .threadBody).step .threadBody
  have hclose := (hconsume.step .threadBody).step (.threadStop statusSuccess nofun)
  have hring := hclose.step (.threadStop statusSuccess nofun)
  have hdoor := hring.step (.threadStop statusSuccess nofun)
  have hexit := ((((hdoor.step .threadBody).step .threadBody).step .threadBody).step
    .threadBody).step .threadBody
  have hjoin := hexit.step (.threadStop statusSuccess fun _ _ => rfl)
  have hlast := (hjoin.step (.threadStop statusSuccess nofun)).step
    (.threadStop statusSuccess nofun)
  exact ⟨_, hlast, ⟨rfl, ⟨_, rfl⟩, .inl rfl⟩, rfl, rfl⟩

theorem queue_correct_delivered : ∃ s : State, s.Finished ∧ s.list = [] ∧
    s.decremented.count ⟨0, 1, .post 9 (some 0)⟩ = 1 ∧ s.posted + s.dropped = 1 := by
  obtain ⟨s, hs, hf, hok, hcalls⟩ := delivered_reachable
  obtain ⟨-, -, hstop, hend⟩ := queue_correct hs
  obtain ⟨hall, -, hcount⟩ := hend hf
  have hmem : (⟨0, 1, .post 9 (some 0)⟩ : Node) ∈ s.calls := by
    rw [hcalls]
    exact Multiset.mem_singleton_self _
  refine ⟨s, hf, (hstop hok).1, (hall _ hmem).1, ?_⟩
  rw [hcount, hcalls]
  rfl

end Sentinel.EventQueue
