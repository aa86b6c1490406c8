import Sentinel.Telemetry.Delivery

/-! The counters of the queue stay in the ranges of `LONG` and `LONG64`. -/
namespace Sentinel.EventQueue

open Transition InFlight

variable {s t : State} {act : Action} {p : Post} {n : Node} {alloc : Bool}
  {rest : Multiset (Post × Node)}

/-- A call has no more nodes at a place than there are calls. -/
theorem card_select_le (f : Post → Node → Bool) (posts : Multiset (Post × Node)) :
    (select f posts).card ≤ posts.card := by
  rw [select, Multiset.card_map]
  exact Multiset.card_le_card (Multiset.filter_le _ _)

/-- Every call is with its post, in hand, on the list, consumed or dropped. -/
theorem Ledger.calls_eq (h : Ledger s) : s.calls = select Post.holds s.posts +
    (s.hand fun _ => true : List Node) + (s.list : Multiset Node) + (s.taken : Multiset Node) +
      s.lost := by
  ext m
  simp only [Multiset.count_add, Multiset.coe_count]
  exact h.located m

theorem Ledger.card_calls (h : Ledger s) : s.calls.card = (select Post.holds s.posts).card +
    (s.hand fun _ => true).length + s.list.length + s.taken.length + s.lost.card := by
  have hcard := congrArg Multiset.card h.calls_eq
  simpa only [Multiset.card_add, Multiset.coe_card] using hcard

/-- Dropped, and about to be counted as an overflow. -/
def Post.overflows : Post → Node → Bool
  | .overflowRead, _ | .overflowCount, _ => true
  | .enter, _ | .alloc, _ | .insert, _ | .leave _, _ | .dropCounter _, _ | .dropEvent _, _
  | .dropCount _, _ | .postedCount, _ | .wake, _ => false

/-- Only dropped nodes are counted as overflows. -/
def Overflowed (s : State) : Prop :=
  s.overflowDropped + (select Post.overflows s.posts).card ≤ s.lost.card

theorem overflows_dropStart (n : Node) (o : Outcome) : (dropStart n o).overflows n = false := by
  cases hr : n.isRecord <;> simp [dropStart, hr, Post.overflows]

theorem overflows_afterLeave (n : Node) (o : Outcome) : (afterLeave n o).overflows n = false := by
  cases o with
  | posted => rfl
  | refused | noNode | stopped | full => exact overflows_dropStart n _

/-- A post that is no overflow before nor after its step. -/
theorem Overflowed.of_goOn (h : Overflowed s) (hp : s.posts = (p, n) ::ₘ rest) (q : Option Post)
    (hold : p.overflows n = false) (hnew : q.elim false (·.overflows n) = false)
    (hposts : t.posts = (s.goOn rest n q).posts) (hcount : t.overflowDropped = s.overflowDropped)
    (hlost : t.lost = s.lost) : Overflowed t := by
  have hsel := select_move Post.overflows hp q (hnew.trans hold.symm)
  rw [Overflowed, hposts, hsel, hcount, hlost]
  exact h

theorem overflowed_dropCount {o : Outcome} (h : Overflowed s)
    (hp : s.posts = (.dropCount o, n) ::ₘ rest) :
    Overflowed (s.post rest n alloc (.dropCount o)) := by
  have hold : select Post.overflows s.posts = select Post.overflows rest := by
    rw [hp, select_cons]
    rfl
  rw [Overflowed, hold] at h
  have hle : (select Post.overflows (s.goOn rest n (afterDrop n o)).posts).card ≤
      (select Post.overflows rest).card + 1 := by
    rw [select_goOn]
    split
    · rw [Multiset.card_cons]
    · exact Nat.le_succ _
  change s.overflowDropped + (select Post.overflows (s.goOn rest n (afterDrop n o)).posts).card ≤
    (n ::ₘ s.lost).card
  rw [Multiset.card_cons]
  omega

theorem overflowed_post (h : Overflowed s) (hp : s.posts = (p, n) ::ₘ rest) :
    Overflowed (s.post rest n alloc p) := by
  have hmove := fun t q => h.of_goOn (t := t) hp q
  cases p with
  | enter =>
    rw [State.post]
    split
    · exact hmove _ (some (dropStart n .refused)) rfl (overflows_dropStart n _) rfl rfl rfl
    · exact hmove _ (some .alloc) rfl rfl rfl rfl rfl
  | alloc =>
    refine hmove _ (some (if alloc then .insert else .leave .noNode)) rfl ?_ rfl rfl rfl
    cases alloc <;> rfl
  | insert =>
    rw [State.post]
    split
    · exact hmove _ (some (.leave .stopped)) rfl rfl rfl rfl rfl
    split
    · exact hmove _ (some (.leave .full)) rfl rfl rfl rfl rfl
    · exact hmove _ (some (.leave .posted)) rfl rfl rfl rfl rfl
  | leave o => exact hmove _ (some (afterLeave n o)) rfl (overflows_afterLeave n o) rfl rfl rfl
  | dropCounter o => exact hmove _ (some (.dropEvent o)) rfl rfl rfl rfl rfl
  | dropEvent o => exact hmove _ (some (.dropCount o)) rfl rfl rfl rfl rfl
  | dropCount o => exact overflowed_dropCount h hp
  | overflowRead =>
    have hold : select Post.overflows s.posts = n ::ₘ select Post.overflows rest := by
      rw [hp, select_cons]
      rfl
    rw [State.post]
    split
    · rw [Overflowed, hold, Multiset.card_cons] at h
      change s.overflowDropped + (select Post.overflows rest).card ≤ s.lost.card
      omega
    · rw [Overflowed, select_move Post.overflows hp (some .overflowCount) rfl]
      exact h
  | overflowCount =>
    have hold : select Post.overflows s.posts = n ::ₘ select Post.overflows rest := by
      rw [hp, select_cons]
      rfl
    rw [Overflowed, hold, Multiset.card_cons] at h
    change s.overflowDropped + 1 + (select Post.overflows rest).card ≤ s.lost.card
    omega
  | postedCount => exact hmove _ (some .wake) rfl rfl rfl rfl rfl
  | wake => exact hmove _ none rfl rfl rfl rfl rfl

theorem overflowed_step (h : Step s act t) (hs : Overflowed s) : Overflowed t := by
  cases h with
  | call =>
    rw [Overflowed, State.call, select_cons]
    exact hs
  | post alloc rest hp => exact overflowed_post hs hp
  | threadBody =>
    rcases s.threadBody_cases with he | ⟨-, ⟨b, k, -, -, -, -, he⟩ | ⟨n, list, -, -, he⟩ |
      ⟨n, stage, -, he⟩⟩ <;> rw [he]
    · exact hs
    · exact hs
    · exact hs
    · cases stage <;> exact hs
  | threadStop joined hj =>
    rcases s.threadStop_cases hj with he | ⟨b, f, q, -, -, -, -, -, -, he⟩ |
      ⟨n, list, -, -, he⟩ | ⟨n, stage, -, he⟩ <;> rw [he]
    · exact hs
    · exact hs
    · exact hs
    · cases stage <;> exact hs

theorem overflowed_reachable (h : system.Reachable s) : Overflowed s := by
  refine h.invariant ?_ overflowed_step
  rintro s ⟨capacity, onEvent, thread, rfl⟩
  exact Nat.zero_le _

/-- With less than `2 ^ 31` nodes on the list and posts at work, and less than `2 ^ 63` calls so
far, no counter leaves the range of its type. -/
theorem counters_range (h : system.Reachable s) (hlist : s.list.length < 2 ^ 31)
    (hposts : s.posts.card < 2 ^ 31) (hcalls : s.calls.card < 2 ^ 63) :
    (0 ≤ s.pending ∧ s.pending < 2 ^ 31) ∧ (0 ≤ s.producers ∧ s.producers < 2 ^ 31) ∧
    s.posted < 2 ^ 63 ∧ s.consumed < 2 ^ 63 ∧ s.dropped < 2 ^ 63 ∧
    s.overflowDropped < 2 ^ 63 := by
  obtain ⟨hc, hl⟩ := books_reachable h
  have hover : s.overflowDropped + _ ≤ s.lost.card := overflowed_reachable h
  have hcard := hl.card_calls
  have hpending := hc.pending
  have hproducers := hc.producers
  have hinside := card_select_le Post.inside s.posts
  have hposted := hl.posted
  have horder : s.enqueued.length = s.taken.length + (s.hand fun _ => true).length +
      s.list.length := by
    rw [hl.order, List.length_append, List.length_append]
  have hconsumed := hl.consumed
  have hdropped := hl.dropped
  omega

end Sentinel.EventQueue
