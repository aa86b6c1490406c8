import Sentinel.General.Fair
import Sentinel.Telemetry.Delivery

/-! Every post returns and is delivered or counted as dropped, and a stop comes to an end. -/
namespace Sentinel.EventQueue

open Transition InFlight

variable {s t : State} {act : Action} {p : Post} {n m : Node} {rest : Multiset (Post × Node)}
  {E : Execution State Action}

/-- Who has to be treated fairly: each call that posts and the event thread. -/
inductive Agent where
  | post (n : Node)
  | body

def Agent.actions : Agent → Set Action
  | .post n => {act | ∃ p alloc, act = .post p n alloc}
  | .body => {.threadBody}

/-- An execution fair to all of them; whether the queue is ever stopped is left open. -/
structure FairRun (E : Execution State Action) : Prop where
  executes : system.Executes E
  fair : ∀ i : Agent, system.Fair i.actions E

/-- The steps of a stop; a join need not fail. -/
def stopActions : Set Action := {.threadStop statusSuccess}

/-- A stop that has begun is treated fairly. -/
def FairStop (E : Execution State Action) : Prop :=
  ∀ m, (E.state m).stop ≠ .close → (∀ n, m ≤ n → system.Enabled stopActions (E.state n)) →
    ∃ n, m ≤ n ∧ ∃ act ∈ stopActions, E.event n = some act

/-! ### What a step leaves alone -/

theorem threadBody_posts (s : State) : s.threadBody.posts = s.posts := by
  rcases s.threadBody_cases with he | ⟨-, ⟨b, k, -, -, -, -, he⟩ | ⟨n, list, -, -, he⟩ |
    ⟨n, stage, -, he⟩⟩ <;> rw [he]
  cases stage <;> rfl

theorem threadStop_posts {joined : NtStatus}
    (hj : s.stop = .join → joined = statusSuccess → s.consumer = .exited) :
    (s.threadStop joined).posts = s.posts := by
  rcases s.threadStop_cases hj with he | ⟨b, f, q, -, -, -, -, -, -, he⟩ |
    ⟨n, list, -, -, he⟩ | ⟨n, stage, -, he⟩ <;> rw [he]
  cases stage <;> rfl

/-! ### A post returns -/

/-- The steps of a post to come, at most. -/
def Post.left : Post → ℕ
  | .enter => 9
  | .alloc => 8
  | .insert => 7
  | .leave _ => 6
  | .dropCounter _ => 5
  | .dropEvent _ => 4
  | .dropCount _ => 3
  | .overflowRead | .postedCount => 2
  | .overflowCount | .wake => 1

theorem dropStart_left (n : Node) (o : Outcome) : (dropStart n o).left ≤ 5 := by
  unfold dropStart
  split <;> simp [Post.left]

theorem afterDrop_left {o : Outcome} {q : Post} (h : afterDrop n o = some q) : q.left ≤ 2 := by
  cases hr : n.isRecord <;> cases o <;> simp [afterDrop, hr] at h <;> simp [← h, Post.left]

/-- A step of a post changes its own entry only. -/
theorem post_posts (s : State) (rest : Multiset (Post × Node)) (n : Node) (alloc : Bool)
    (p : Post) : ∃ q : Option Post, (s.post rest n alloc p).posts =
      q.elim rest (fun q => (q, n) ::ₘ rest) ∧ ∀ q', q = some q' → q'.left < p.left := by
  cases p with
  | enter =>
    rw [State.post]
    split
    · refine ⟨some (dropStart n .refused), rfl, ?_⟩
      rintro q' ⟨⟩
      exact Nat.lt_of_le_of_lt (dropStart_left n .refused) (by decide)
    · exact ⟨some .alloc, rfl, by rintro q' ⟨⟩; simp [Post.left]⟩
  | alloc =>
    refine ⟨some (if alloc then .insert else .leave .noNode), rfl, ?_⟩
    rintro q' ⟨⟩
    cases alloc <;> simp [Post.left]
  | insert =>
    rw [State.post]
    split
    · exact ⟨some (.leave .stopped), rfl, by rintro q' ⟨⟩; simp [Post.left]⟩
    split
    · exact ⟨some (.leave .full), rfl, by rintro q' ⟨⟩; simp [Post.left]⟩
    · exact ⟨some (.leave .posted), rfl, by rintro q' ⟨⟩; simp [Post.left]⟩
  | leave o =>
    refine ⟨some (afterLeave n o), rfl, ?_⟩
    rintro q' ⟨⟩
    cases o with
    | posted => simp [afterLeave, Post.left]
    | refused | noNode | stopped | full =>
      exact Nat.lt_of_le_of_lt (dropStart_left n _) (Nat.lt_succ_self 5)
  | dropCounter o => exact ⟨some (.dropEvent o), rfl, by rintro q' ⟨⟩; simp [Post.left]⟩
  | dropEvent o => exact ⟨some (.dropCount o), rfl, by rintro q' ⟨⟩; simp [Post.left]⟩
  | dropCount o =>
    exact ⟨afterDrop n o, rfl,
      fun q' hq => Nat.lt_of_le_of_lt (afterDrop_left hq) (by simp [Post.left])⟩
  | overflowRead =>
    refine ⟨if s.stopping then none else some .overflowCount, rfl, fun q' hq => ?_⟩
    cases hs : s.stopping <;> simp [hs] at hq
    simp [← hq, Post.left]
  | overflowCount | wake => exact ⟨none, rfl, by rintro _ ⟨⟩⟩
  | postedCount => exact ⟨some .wake, rfl, by rintro q' ⟨⟩; simp [Post.left]⟩

/-- The call has not returned. -/
def Posting (n : Node) (s : State) : Prop := ∃ p, (p, n) ∈ s.posts

/-- The steps to come of the call that posts `n`. -/
def State.left (s : State) (n : Node) : ℕ :=
  ((s.posts.filter (·.2 = n)).map fun x => x.1.left).sum

/-- Nothing happens to the posts, a new one comes in, or one of them takes a step. -/
theorem posts_step (h : system.step s act t) (hl : Ledger s) :
    t.posts = s.posts ∧ t.calls = s.calls ∧ (∀ n, act ∉ (Agent.post n).actions) ∨
    (∃ n, n ∉ s.calls ∧ t.calls = n ::ₘ s.calls ∧ t.posts = (.enter, n) ::ₘ s.posts ∧
      ∀ n, act ∉ (Agent.post n).actions) ∨
    ∃ p n rest q, (∀ m, act ∈ (Agent.post m).actions → m = n) ∧ t.calls = s.calls ∧
      s.posts = (p, n) ::ₘ rest ∧ t.posts = q.elim rest (fun q => (q, n) ::ₘ rest) ∧
      ∀ q', q = some q' → q'.left < p.left := by
  cases h with
  | call type event =>
    refine .inr (.inl ⟨_, fun hm => Nat.lt_irrefl _ (hl.numbered _ hm), rfl, rfl, ?_⟩)
    simp [Agent.actions]
  | @post p n alloc rest hp =>
    obtain ⟨q, hq, hlt⟩ := post_posts s rest n alloc p
    refine .inr (.inr ⟨p, n, rest, q, ?_, ?_, hp, hq, hlt⟩)
    · rintro m ⟨p', alloc', he⟩
      cases he
      rfl
    · cases p <;> simp only [State.post] <;> (repeat' split) <;> rfl
  | threadBody =>
    refine .inl ⟨threadBody_posts s, ?_, by simp [Agent.actions]⟩
    rcases s.threadBody_cases with he | ⟨-, ⟨b, k, -, -, -, -, he⟩ | ⟨n, list, -, -, he⟩ |
      ⟨n, stage, -, he⟩⟩ <;> rw [he]
    cases stage <;> rfl
  | threadStop joined hj =>
    refine .inl ⟨threadStop_posts hj, ?_, by simp [Agent.actions]⟩
    rcases s.threadStop_cases hj with he | ⟨b, f, q, -, -, -, -, -, -, he⟩ |
      ⟨n, list, -, -, he⟩ | ⟨n, stage, -, he⟩ <;> rw [he]
    cases stage <;> rfl

/-- Who posts has called. -/
def Called (s : State) : Prop := ∀ n, Posting n s → n ∈ s.calls

theorem called_step (h : system.step s act t) (hl : Ledger s) (hi : Called s) : Called t := by
  rintro n ⟨p, hp⟩
  rcases posts_step h hl with
      ⟨he, hc, -⟩ | ⟨m, -, hc, he, -⟩ | ⟨p', m, rest, q, -, hc, hs, he, -⟩ <;>
    rw [he] at hp <;> rw [hc]
  · exact hi n ⟨p, hp⟩
  · rcases Multiset.mem_cons.mp hp with hp | hp
    · cases hp
      exact Multiset.mem_cons_self _ _
    · exact Multiset.mem_cons_of_mem (hi n ⟨p, hp⟩)
  · cases q with
    | none => exact hi n ⟨p, hs ▸ Multiset.mem_cons_of_mem hp⟩
    | some q =>
      rcases Multiset.mem_cons.mp hp with hp | hp
      · cases hp
        exact hi n ⟨p', hs ▸ Multiset.mem_cons_self _ _⟩
      · exact hi n ⟨p, hs ▸ Multiset.mem_cons_of_mem hp⟩

theorem called_reachable (h : system.Reachable s) : Called s := by
  have hb : (Control s ∧ Ledger s) ∧ Called s := by
    refine h.invariant (I := fun s => (Control s ∧ Ledger s) ∧ Called s) ?_ ?_
    · intro s hs
      refine ⟨books_reachable (.of_init hs), ?_⟩
      obtain ⟨capacity, onEvent, thread, rfl⟩ := hs
      rintro n ⟨p, hp⟩
      simp [State.start] at hp
    · rintro s act t hs ⟨⟨hc, hl⟩, hi⟩
      exact ⟨⟨control_step hs hc, ledger_step hs hc hl⟩, called_step hs hl hi⟩
  exact hb.2

/-- A call that has returned does not come back. -/
theorem posting_step (h : system.step s act t) (hl : Ledger s) (hn : n ∈ s.calls)
    (hp : ¬ Posting n s) : ¬ Posting n t := by
  rintro ⟨p, hp'⟩
  rcases posts_step h hl with ⟨he, -⟩ | ⟨m, hm, -, he, -⟩ | ⟨p', m, rest, q, -, -, hs, he, -⟩ <;>
    rw [he] at hp'
  · exact hp ⟨p, hp'⟩
  · rcases Multiset.mem_cons.mp hp' with hp' | hp'
    · cases hp'
      exact hm hn
    · exact hp ⟨p, hp'⟩
  · cases q with
    | none => exact hp ⟨p, hs ▸ Multiset.mem_cons_of_mem hp'⟩
    | some q =>
      rcases Multiset.mem_cons.mp hp' with hp' | hp'
      · cases hp'
        exact hp ⟨p', hs ▸ Multiset.mem_cons_self _ _⟩
      · exact hp ⟨p, hs ▸ Multiset.mem_cons_of_mem hp'⟩

theorem left_step (h : system.step s act t) (hl : Ledger s) (hn : n ∈ s.calls) :
    t.left n < s.left n ∨ t.left n = s.left n ∧ act ∉ (Agent.post n).actions := by
  rcases posts_step h hl with
    ⟨he, -, hna⟩ | ⟨m, hm, -, he, hna⟩ | ⟨p, m, rest, q, hna, -, hs, he, hlt⟩
  · exact .inr ⟨by rw [State.left, State.left, he], hna n⟩
  · have hne : m ≠ n := fun hmn => hm (hmn ▸ hn)
    exact .inr ⟨by simp [State.left, he, hne], hna n⟩
  · by_cases hmn : m = n
    · subst hmn
      refine .inl ?_
      have hpos : 0 < p.left := by cases p <;> simp [Post.left]
      cases q with
      | none => simpa [State.left, he, hs] using hpos
      | some q => simpa [State.left, he, hs] using hlt q rfl
    · refine .inr ⟨?_, fun ha => hmn (hna n ha).symm⟩
      cases q <;> simp [State.left, he, hs, hmn]

theorem mem_calls_step (h : system.step s act t) (hl : Ledger s) (hn : n ∈ s.calls) :
    n ∈ t.calls := by
  rcases posts_step h hl with ⟨-, hc, -⟩ | ⟨m, -, hc, -⟩ | ⟨p, m, rest, q, -, hc, -⟩ <;> rw [hc]
  · exact hn
  · exact Multiset.mem_cons_of_mem hn
  · exact hn

theorem posting_ranking (hE : system.Executes E) (n : Node) :
    system.Ranking E Agent.actions 0 (fun s => n ∈ s.calls) (fun s => ¬ Posting n s)
      (fun s => s.left n) (fun _ => .post n) where
  enabled k _ _ hQ := by
    obtain ⟨p, hp⟩ := not_not.mp hQ
    obtain ⟨rest, hrest⟩ := Multiset.exists_cons_of_mem hp
    exact ⟨.post p n true, ⟨p, true, rfl⟩, _, .post true rest hrest⟩
  step k a _ hP _ he := by
    have hs := hE.step k a he
    have hl := (books_reachable (hE.reachable k)).2
    refine .inr ⟨mem_calls_step hs hl hP, ?_⟩
    rcases left_step hs hl hP with hlt | ⟨heq, hna⟩
    · exact .inl hlt
    · exact .inr ⟨heq, rfl, hna⟩

/-! ### The event thread gets to every node -/

/-- The event thread and the list: its own step, or one that may add to the end. -/
theorem list_step (h : system.step s act t) (hc : Control s) (hk : s.consumer ≠ .absent) :
    act = .threadBody ∧ t = s.threadBody ∨
      act ≠ .threadBody ∧ t.consumer = s.consumer ∧ ∃ list, t.list = s.list ++ list := by
  cases h with
  | call => exact .inr ⟨by rintro ⟨⟩, rfl, [], by simp [State.call]⟩
  | @post p n alloc rest hp =>
    refine .inr ⟨by rintro ⟨⟩, ?_⟩
    cases p with
    | insert =>
      rw [State.post]
      (repeat' split)
      · exact ⟨rfl, [], by simp [State.goOn]⟩
      · exact ⟨rfl, [], by simp [State.goOn]⟩
      · exact ⟨rfl, [n], rfl⟩
    | enter =>
      rw [State.post]
      split <;> exact ⟨rfl, [], by simp [State.goOn]⟩
    | alloc | leave | dropCounter | dropEvent | dropCount | overflowRead | overflowCount
    | postedCount | wake =>
      exact ⟨rfl, [], by simp [State.post, State.goOn, State.decrement, State.sink]⟩
  | threadBody => exact .inl ⟨rfl, rfl⟩
  | threadStop joined hj =>
    refine .inr ⟨by rintro ⟨⟩, ?_⟩
    rcases s.threadStop_cases hj with he | ⟨b, f, q, -, -, -, -, -, -, he⟩ |
      ⟨n, list, hq, hl, he⟩ | ⟨n, stage, -, he⟩ <;> rw [he]
    · exact ⟨rfl, [], by simp⟩
    · exact ⟨rfl, [], by simp⟩
    · -- The drain of the stop finds the list empty once the thread has exited.
      have hover := hc.alone (by rw [hq]; rfl)
      cases hcons : s.consumer with
      | absent => exact absurd hcons hk
      | exited => simp [(hc.exited hcons).2] at hl
      | wait | check | probe | pop | consume => simp [hcons, Consumer.over] at hover
    · cases stage <;> exact ⟨rfl, [], by simp [State.nodeConsume, State.decrement, State.sink]⟩

def Stage.left : Stage → ℕ
  | .counter => 3
  | .event => 2
  | .count => 1

/-- The steps of the event thread before it pops. -/
def Consumer.left : Consumer → ℕ
  | .wait => 3
  | .check => 2
  | .probe => 1
  | .consume _ stage => stage.left
  | .pop | .absent | .exited => 0

/-- What is ahead of `n`. -/
def State.ahead (s : State) (n : Node) : ℕ :=
  if n ∈ s.consumer.hand fun _ => true then s.consumer.left
  else 4 * s.list.idxOf n + s.consumer.left + 4

/-- `n` is in the list or in the hand of the event thread. -/
def Queued (n : Node) (s : State) : Prop :=
  s.consumer ≠ .absent ∧ (n ∈ (s.consumer.hand fun _ => true) ∨ n ∈ s.list)

theorem queued_threadBody (hc : Control s) (h : Queued n s) :
    n ∈ s.threadBody.taken ∨ Queued n s.threadBody ∧ s.threadBody.ahead n < s.ahead n := by
  obtain ⟨hk, h⟩ := h
  cases hcons : s.consumer with
  | absent => exact absurd hcons hk
  | exited => simp [hcons, Consumer.hand, (hc.exited hcons).2] at h
  | wait | check =>
    have hl : n ∈ s.list := by simpa [hcons, Consumer.hand] using h
    refine .inr ⟨⟨?_, .inr ?_⟩, ?_⟩
    · simp only [State.threadBody, hcons]
      split <;> simp
    · simpa [State.threadBody, hcons] using hl
    · simp only [State.threadBody, hcons, State.ahead]
      split <;> simp [Consumer.hand, Consumer.left]
  | probe =>
    have hl : n ∈ s.list := by simpa [hcons, Consumer.hand] using h
    have hz : s.pending ≠ 0 := by
      have := List.length_pos_of_mem hl
      rw [hc.pending]
      omega
    refine .inr ⟨⟨by simp [State.threadBody, hcons, hz], .inr ?_⟩, ?_⟩
    · simpa [State.threadBody, hcons] using hl
    · simp [State.threadBody, hcons, hz, State.ahead, Consumer.hand, Consumer.left]
  | pop =>
    have hl : n ∈ s.list := by simpa [hcons, Consumer.hand] using h
    cases hlist : s.list with
    | nil => simp [hlist] at hl
    | cons m list =>
      refine .inr ?_
      by_cases hmn : n = m
      · refine ⟨⟨by simp [State.threadBody, hcons, State.pop, hlist], .inl ?_⟩, ?_⟩
        · simp [State.threadBody, hcons, State.pop, hlist, Consumer.hand, hmn]
        · simp [State.threadBody, hcons, State.pop, hlist, Consumer.hand, hmn, State.ahead,
            Consumer.left, Stage.left]
      · have hl' : n ∈ list := by simpa [hlist, hmn] using hl
        refine ⟨⟨by simp [State.threadBody, hcons, State.pop, hlist], .inr ?_⟩, ?_⟩
        · simpa [State.threadBody, hcons, State.pop, hlist] using hl'
        · simp [State.threadBody, hcons, State.pop, hlist, Consumer.hand, hmn, State.ahead,
            Consumer.left, Stage.left, List.idxOf_cons_ne _ (Ne.symm hmn)]
          omega
  | consume m stage =>
    by_cases hmn : n = m
    · cases stage with
      | count => exact .inl (by simp [State.threadBody, hcons, State.nodeConsume, hmn])
      | counter | event =>
        refine .inr ⟨⟨by simp [State.threadBody, hcons, Stage.next], .inl ?_⟩, ?_⟩
        · simp [State.threadBody, hcons, Stage.next, Consumer.hand, hmn]
        · simp [State.threadBody, hcons, Stage.next, Consumer.hand, hmn, State.ahead,
            Consumer.left, Stage.left]
    · have hl : n ∈ s.list := by simpa [hcons, Consumer.hand, hmn] using h
      refine .inr ⟨⟨?_, .inr ?_⟩, ?_⟩
      · cases stage <;> simp [State.threadBody, hcons, Stage.next]
      · cases stage <;>
          simpa [State.threadBody, hcons, State.nodeConsume, State.decrement, State.sink] using hl
      · cases stage <;>
          simp [State.threadBody, hcons, State.nodeConsume, State.decrement, State.sink,
            Stage.next, Consumer.hand, hmn, State.ahead, Consumer.left, Stage.left]

theorem queued_ranking (hE : system.Executes E) (n : Node) :
    system.Ranking E Agent.actions 0 (Queued n) (fun s => n ∈ s.taken)
      (fun s => s.ahead n) (fun _ => .body) where
  enabled k _ _ _ := ⟨.threadBody, rfl, _, .threadBody⟩
  step k a _ hP _ he := by
    have hs := hE.step k a he
    have hc := (books_reachable (hE.reachable k)).1
    rcases list_step hs hc hP.1 with ⟨rfl, ht⟩ | ⟨ha, hk, list, hl⟩
    · rw [ht]
      exact (queued_threadBody hc hP).imp_right fun h => ⟨h.1, .inl h.2⟩
    · refine .inr ⟨⟨by rw [hk]; exact hP.1, ?_⟩, .inr ⟨?_, rfl, ha⟩⟩
      · rw [hk, hl]
        exact hP.2.imp_right fun h => List.mem_append_left _ h
      · rcases hP.2 with hh | hm
        · simp [State.ahead, hk, hh]
        · simp only [State.ahead, hk, hl, List.idxOf_append_of_mem hm]

/-- A queue with a thread: the drain of its stop finds nothing. -/
def Threaded (s : State) : Prop := s.consumer ≠ .absent ∧ ∀ f, s.stop.hand f = []

theorem threaded_step (h : system.step s act t) (hc : Control s) (hi : Threaded s) :
    Threaded t := by
  obtain ⟨hk, hh⟩ := hi
  cases h with
  | call => exact ⟨hk, hh⟩
  | @post p n alloc rest hp =>
    cases p with
    | insert | enter =>
      rw [State.post]
      (repeat' split) <;> exact ⟨hk, hh⟩
    | alloc | leave | dropCounter | dropEvent | dropCount | overflowRead | overflowCount
    | postedCount | wake => exact ⟨hk, hh⟩
  | threadBody =>
    cases hcons : s.consumer with
    | absent => exact absurd hcons hk
    | consume m stage =>
      simp only [State.threadBody, hcons]
      cases stage <;> exact ⟨by simp [Stage.next], hh⟩
    | pop =>
      simp only [State.threadBody, hcons]
      rcases s.pop_cases with ⟨-, he⟩ | ⟨m, list, -, he⟩ <;> rw [he] <;> exact ⟨by rintro ⟨⟩, hh⟩
    | wait | check | probe =>
      simp only [State.threadBody, hcons]
      refine ⟨?_, hh⟩
      dsimp only
      split <;> rintro ⟨⟩
    | exited =>
      have he : s.threadBody = s := by simp [State.threadBody, hcons]
      rw [he]
      exact ⟨hk, hh⟩
  | threadStop joined hj =>
    rcases s.threadStop_cases hj with he | ⟨b, f, q, -, hq, -, -, -, -, he⟩ |
      ⟨n, list, hq, hl, he⟩ | ⟨n, stage, hq, he⟩ <;> rw [he]
    · exact ⟨hk, hh⟩
    · exact ⟨hk, hq⟩
    · have hover := hc.alone (by rw [hq]; rfl)
      cases hcons : s.consumer with
      | absent => exact absurd hcons hk
      | exited => simp [(hc.exited hcons).2] at hl
      | wait | check | probe | pop | consume => simp [hcons, Consumer.over] at hover
    · have := hh fun _ => true
      simp [hq, Stop.hand] at this

/-- Where a node is when its post has returned. -/
theorem placed_of_returned (hl : Ledger s) (hi : Threaded s) (hn : n ∈ s.calls)
    (hp : ¬ Posting n s) : Queued n s ∨ n ∈ s.taken ∨ n ∈ s.lost := by
  have hz : (select Post.holds s.posts).count n = 0 := by
    refine Multiset.count_eq_zero.mpr fun hm => hp ?_
    obtain ⟨⟨p, m⟩, hx, rfl⟩ := Multiset.mem_map.mp hm
    exact ⟨p, (Multiset.mem_filter.mp hx).1⟩
  have hcount := hl.located n
  rw [hz, State.hand, hi.2, List.append_nil] at hcount
  have hpos : 0 < s.calls.count n := Multiset.count_pos.mpr hn
  by_cases h1 : n ∈ s.consumer.hand fun _ => true
  · exact .inl ⟨hi.1, .inl h1⟩
  by_cases h2 : n ∈ s.list
  · exact .inl ⟨hi.1, .inr h2⟩
  by_cases h3 : n ∈ s.taken
  · exact .inr (.inl h3)
  refine .inr (.inr (Multiset.count_pos.mp ?_))
  rw [List.count_eq_zero.mpr h1, List.count_eq_zero.mpr h2, List.count_eq_zero.mpr h3] at hcount
  omega

/-- With a thread every post returns, and what it posted is consumed or counted as dropped. -/
theorem post_delivered (hE : FairRun E) (h0 : (E.state 0).consumer ≠ .absent) {k : ℕ}
    (hn : n ∈ (E.state k).calls) : ∃ l, k ≤ l ∧ ¬ Posting n (E.state l) ∧
      (n ∈ (E.state l).taken ∨ n ∈ (E.state l).lost) := by
  have hbooks := fun k => books_reachable (hE.executes.reachable k)
  have hthread : ∀ k, Threaded (E.state k) := by
    intro k
    refine hE.executes.persists k.zero_le ?_
      fun hr hs h => threaded_step hs (books_reachable hr).1 h
    obtain ⟨capacity, onEvent, thread, he⟩ := hE.executes.init
    exact ⟨h0, by simp [he, State.start, Stop.hand]⟩
  obtain ⟨l, hkl, hl⟩ := (posting_ranking hE.executes n).eventually hE.executes hE.fair
    k.zero_le hn
  have hn' : n ∈ (E.state l).calls :=
    hE.executes.persists hkl hn fun hr hs h => mem_calls_step hs (books_reachable hr).2 h
  rcases placed_of_returned (hbooks l).2 (hthread l) hn' hl with hq | hd
  · obtain ⟨i, hli, hi⟩ := (queued_ranking hE.executes n).eventually hE.executes hE.fair
      l.zero_le hq
    have hret : n ∈ (E.state i).calls ∧ ¬ Posting n (E.state i) :=
      hE.executes.persists (P := fun s => n ∈ s.calls ∧ ¬ Posting n s) hli ⟨hn', hl⟩
        fun hr hs h => ⟨mem_calls_step hs (books_reachable hr).2 h.1,
          posting_step hs (books_reachable hr).2 h.1 h.2⟩
    exact ⟨i, hkl.trans hli, hret.2, .inl hi⟩
  · exact ⟨l, hkl, hl, hd⟩

/-! ### A stop returns -/

theorem threadBody_stop (s : State) : s.threadBody.stop = s.stop := by
  rcases s.threadBody_cases with he | ⟨-, ⟨b, k, -, -, -, -, he⟩ | ⟨n, list, -, -, he⟩ |
    ⟨n, stage, -, he⟩⟩ <;> rw [he]
  cases stage <;> rfl

theorem post_stop (s : State) (rest : Multiset (Post × Node)) (n : Node) (alloc : Bool)
    (p : Post) : (s.post rest n alloc p).stop = s.stop := by
  cases p <;> simp only [State.post] <;> (repeat' split) <;> rfl

theorem stop_step (h : system.step s act t) :
    (∃ joined, act = .threadStop joined ∧ t = s.threadStop joined ∧
      (s.stop = .join → joined = statusSuccess → s.consumer = .exited)) ∨
    (∀ joined, act ≠ .threadStop joined) ∧ t.stop = s.stop := by
  cases h with
  | call => exact .inr ⟨nofun, rfl⟩
  | post alloc rest hp => exact .inr ⟨nofun, post_stop _ _ _ _ _⟩
  | threadBody => exact .inr ⟨nofun, threadBody_stop s⟩
  | threadStop joined hj => exact .inl ⟨joined, rfl, rfl, hj⟩

/-- The wait for the producers is over and the thread has been woken. -/
def Stop.woken : Stop → Bool
  | .close | .wait _ | .wake => false
  | .join | .drain | .consume _ _ | .last | .returned _ => true

/-- The steps of the stop until then. -/
def Stop.waiting : Stop → ℕ
  | .wait i => producerWaitRetries - i + 2
  | .wake => 1
  | .close | .join | .drain | .consume _ _ | .last | .returned _ => 0

theorem woken_step (h : system.step s act t) (hw : s.stop.woken = true) : t.stop.woken = true := by
  rcases stop_step h with ⟨joined, -, rfl, hj⟩ | ⟨-, he⟩
  · unfold State.threadStop
    cases hq : s.stop with
    | close | wait | wake => simp [hq, Stop.woken] at hw
    | join =>
      dsimp only
      split <;> rfl
    | drain => rcases s.pop_cases with ⟨-, he⟩ | ⟨n, list, -, he⟩ <;> simp [he, Stop.woken]
    | consume n stage => cases stage <;> rfl
    | last => rfl
    | returned => rw [hq]; rfl
  · rwa [he]

theorem waiting_step (h : system.step s act t) (hc : s.stop ≠ .close) (hw : s.stop.woken = false) :
    t.stop.woken = true ∨ t.stop ≠ .close ∧ (t.stop.waiting < s.stop.waiting ∨
      t.stop.waiting = s.stop.waiting ∧ act ∉ stopActions) := by
  rcases stop_step h with ⟨joined, -, rfl, hj⟩ | ⟨hna, he⟩
  · unfold State.threadStop
    cases hq : s.stop with
    | close => exact absurd hq hc
    | wait i =>
      dsimp only
      split
      · exact .inr ⟨nofun, .inl (by simp [Stop.waiting])⟩
      split
      · exact .inl rfl
      · refine .inr ⟨nofun, .inl ?_⟩
        simp only [Stop.waiting]
        omega
    | wake =>
      refine .inl ?_
      cases s.consumer <;> rfl
    | join | drain | consume | last | returned => simp [hq, Stop.woken] at hw
  · rw [he]
    exact .inr ⟨hc, .inr ⟨rfl, fun ha => hna _ ha⟩⟩

theorem waiting_ranking (hE : system.Executes E) :
    system.Ranking E (fun _ : Unit => stopActions) 0 (fun s => s.stop ≠ .close)
      (fun s => s.stop.woken = true) (fun s => s.stop.waiting) (fun _ => ()) where
  enabled k _ _ hQ := by
    refine ⟨.threadStop statusSuccess, rfl, _, .threadStop _ fun hj => ?_⟩
    simp [hj, Stop.woken] at hQ
  step k a _ hP hQ he := by
    rcases waiting_step (hE.step k a he) hP (by simpa using hQ) with h | ⟨h, hlt | ⟨heq, hna⟩⟩
    · exact .inl h
    · exact .inr ⟨h, .inl hlt⟩
    · exact .inr ⟨h, .inr ⟨heq, rfl, hna⟩⟩

/-- Posts that have enqueued their node and have still to ring the doorbell. -/
def Post.ringing : Post → ℕ
  | .leave .posted | .postedCount | .wake => 1
  | .enter | .alloc | .insert | .leave _ | .dropCounter _ | .dropEvent _ | .dropCount _
  | .overflowRead | .overflowCount => 0

def State.rings (s : State) : ℕ := (s.posts.map fun x => x.1.ringing).sum

/-- The steps of the event thread to its exit with `k` nodes in the list, once nothing comes in. -/
def Consumer.toExit (k : ℕ) : Consumer → ℕ
  | .wait => if k = 0 then 3 else 4 * k + 7
  | .check => if k = 0 then 2 else 4 * k + 6
  | .probe => if k = 0 then 1 else 4 * k + 5
  | .pop => 4 * k + 4
  | .consume _ stage => 4 * k + 4 + stage.left
  | .absent | .exited => 0

/-- A doorbell, rung or to be rung, may cost the thread another round. -/
def State.toExit (s : State) : ℕ :=
  7 * s.rings + (if s.doorbell then 6 else 0) + s.consumer.toExit s.list.length

theorem dropStart_ringing (n : Node) (o : Outcome) : (dropStart n o).ringing = 0 := by
  unfold dropStart
  split <;> rfl

/-- Once the flag is set a post leaves the list alone and at most rings. -/
theorem post_stopping (alloc : Bool) (hst : s.stopping = true) (hp : s.posts = (p, n) ::ₘ rest) :
    (s.post rest n alloc p).list = s.list ∧ (s.post rest n alloc p).consumer = s.consumer ∧
      ((s.post rest n alloc p).rings = s.rings ∧
          (s.post rest n alloc p).doorbell = s.doorbell ∨
        (s.post rest n alloc p).rings + 1 = s.rings) := by
  have hr : s.rings = p.ringing + (rest.map fun x => x.1.ringing).sum := by
    simp [State.rings, hp]
  rw [hr]
  cases p with
  | enter =>
    refine ⟨by simp [State.post, hst, State.goOn], by simp [State.post, hst, State.goOn], .inl ?_⟩
    simp [State.post, hst, State.goOn, State.rings, Post.ringing]
    exact dropStart_ringing n .refused
  | alloc =>
    refine ⟨rfl, rfl, .inl ?_⟩
    cases alloc <;> simp [State.post, State.goOn, State.rings, Post.ringing]
  | insert =>
    refine ⟨by simp [State.post, hst, State.goOn], by simp [State.post, hst, State.goOn], .inl ?_⟩
    simp [State.post, hst, State.goOn, State.rings, Post.ringing]
  | leave o =>
    refine ⟨rfl, rfl, .inl ?_⟩
    cases o <;> simp [State.post, State.goOn, State.rings, afterLeave, Post.ringing] <;>
      exact dropStart_ringing n _
  | dropCounter o | dropEvent o =>
    refine ⟨rfl, rfl, .inl ?_⟩
    simp [State.post, State.goOn, State.decrement, State.sink, State.rings, Post.ringing]
  | dropCount o =>
    refine ⟨rfl, rfl, .inl ?_⟩
    cases hrec : n.isRecord <;> cases o <;>
      simp [State.post, State.goOn, State.rings, afterDrop, hrec, Post.ringing]
  | overflowRead =>
    refine ⟨rfl, rfl, .inl ?_⟩
    simp [State.post, State.goOn, State.rings, hst, Post.ringing]
  | overflowCount =>
    refine ⟨rfl, rfl, .inl ?_⟩
    simp [State.post, State.goOn, State.rings, Post.ringing]
  | postedCount =>
    refine ⟨rfl, rfl, .inl ?_⟩
    simp [State.post, State.goOn, State.rings, Post.ringing]
  | wake =>
    refine ⟨rfl, rfl, .inr ?_⟩
    simp [State.post, State.goOn, State.rings, Post.ringing]
    omega

theorem toExit_threadBody (hst : s.stopping = true) (hc : Control s)
    (ho : s.consumer.over = false) : s.threadBody.toExit < s.toExit := by
  have hr : s.threadBody.rings = s.rings := by rw [State.rings, State.rings, threadBody_posts]
  rw [State.toExit, State.toExit, hr]
  cases hk : s.consumer with
  | absent | exited => simp [hk, Consumer.over] at ho
  | wait =>
    by_cases hz : s.list.length = 0 <;> cases hd : s.doorbell <;>
      (simp [State.threadBody, hk, hd, Consumer.toExit, hz]; try omega)
  | check =>
    by_cases hz : s.list.length = 0 <;> simp [State.threadBody, hk, hst, Consumer.toExit, hz]
  | probe =>
    have hp := hc.pending
    by_cases hz : s.list.length = 0
    · have hpz : s.pending = 0 := by omega
      simp [State.threadBody, hk, hpz, Consumer.toExit, hz]
    · have hpz : s.pending ≠ 0 := by omega
      simp [State.threadBody, hk, hpz, Consumer.toExit, hz]
  | pop =>
    rcases s.pop_cases with ⟨hl, he⟩ | ⟨m, list, hl, he⟩
    · simp [State.threadBody, hk, he, Consumer.toExit, hl]
    · simp [State.threadBody, hk, he, Consumer.toExit, hl, Stage.left]
      omega
  | consume m stage =>
    cases stage <;> simp [State.threadBody, hk, Consumer.toExit, Stage.left, Stage.next,
      State.nodeConsume, State.decrement, State.sink]

/-- The thread has ended, or the stop has given up its join. -/
def Ended (s : State) : Prop := s.consumer.over = true ∨ ∃ st, s.stop = .returned st

theorem ended_step (h : system.step s act t) (hc : Control s) (hw : s.stop.woken = true)
    (hn : ¬ Ended s) : Ended t ∨ t.toExit < s.toExit ∨
      t.toExit = s.toExit ∧ act ∉ Agent.body.actions := by
  have ho : s.consumer.over = false := by
    by_contra ho
    exact hn (.inl (by simpa using ho))
  have hst : s.stopping = true := by
    rw [hc.closed]
    cases hq : s.stop <;> simp [hq, Stop.woken] at hw <;> rfl
  cases h with
  | @call type event =>
    have hr : (s.call type event).rings = s.rings := by
      simp [State.rings, State.call, Post.ringing]
    exact .inr (.inr ⟨by rw [State.toExit, hr]; rfl, by rintro ⟨⟩⟩)
  | @post p n alloc rest hp =>
    obtain ⟨hl, hk, ⟨hr, hd⟩ | hr⟩ := post_stopping alloc hst hp
    · exact .inr (.inr ⟨by rw [State.toExit, State.toExit, hl, hk, hr, hd], by rintro ⟨⟩⟩)
    · refine .inr (.inl ?_)
      rw [State.toExit, State.toExit, hl, hk]
      split <;> omega
  | threadBody => exact .inr (.inl (toExit_threadBody hst hc ho))
  | threadStop joined hj =>
    refine .inl (.inr ?_)
    have halone : s.stop.alone = false := by
      by_contra ha
      exact hn (.inl (hc.alone (by simpa using ha)))
    cases hq : s.stop with
    | close | wait | wake => simp [hq, Stop.woken] at hw
    | drain | consume | last => simp [hq, Stop.alone] at halone
    | returned st => exact absurd (.inr ⟨st, hq⟩) hn
    | join =>
      by_cases hs : joined = statusSuccess
      · simp [hj hq hs, Consumer.over] at ho
      · exact ⟨joined, by simp [State.threadStop, hq, hs]⟩

theorem ended_ranking (hE : system.Executes E) :
    system.Ranking E Agent.actions 0 (fun s => s.stop.woken = true) Ended State.toExit
      (fun _ => .body) where
  enabled k _ _ _ := ⟨.threadBody, rfl, _, .threadBody⟩
  step k a _ hP hQ he := by
    have hs := hE.step k a he
    have hc := (books_reachable (hE.reachable k)).1
    rcases ended_step hs hc hP hQ with h | hlt | ⟨heq, hna⟩
    · exact .inl h
    · exact .inr ⟨woken_step hs hP, .inl hlt⟩
    · exact .inr ⟨woken_step hs hP, .inr ⟨heq, rfl, hna⟩⟩

/-- The steps of the stop with `k` nodes in the list and no thread any more. -/
def Stop.toReturn (k : ℕ) : Stop → ℕ
  | .join => 4 * k + 3
  | .drain => 4 * k + 2
  | .consume _ stage => 4 * k + 2 + stage.left
  | .last => 1
  | .close | .wait _ | .wake | .returned _ => 0

/-- There is a thread to be joined. -/
def Joinable (s : State) : Prop := s.stop = .join → s.consumer ≠ .absent

theorem threadBody_absent (h : s.consumer ≠ .absent) : s.threadBody.consumer ≠ .absent := by
  cases hk : s.consumer with
  | absent => exact absurd hk h
  | consume m stage => cases stage <;> simp [State.threadBody, hk, Stage.next]
  | pop => rcases s.pop_cases with ⟨-, he⟩ | ⟨m, list, -, he⟩ <;> simp [State.threadBody, hk, he]
  | wait | check | probe =>
    simp only [State.threadBody, hk]
    split <;> nofun
  | exited => simp [State.threadBody, hk]

theorem joinable_step (h : system.step s act t) (hi : Joinable s) : Joinable t := by
  cases h with
  | call => exact hi
  | @post p n alloc rest hp =>
    cases p with
    | insert | enter =>
      rw [State.post]
      (repeat' split) <;> exact hi
    | alloc | leave | dropCounter | dropEvent | dropCount | overflowRead | overflowCount
    | postedCount | wake => exact hi
  | threadBody =>
    intro hq
    rw [threadBody_stop] at hq
    exact threadBody_absent (hi hq)
  | threadStop joined hj =>
    intro hq
    unfold State.threadStop at hq ⊢
    cases hs : s.stop with
    | wake =>
      cases hk : s.consumer <;> simp [hs, hk] at hq ⊢
    | close | wait | join | last =>
      simp only [hs] at hq ⊢
      (repeat' split at hq) <;> simp_all
    | drain =>
      rcases s.pop_cases with ⟨-, he⟩ | ⟨n, list, -, he⟩ <;> simp [hs, he] at hq
    | consume n stage => cases stage <;> simp [hs, Stage.next] at hq
    | returned => simp [hs] at hq

theorem joinable_reachable (h : system.Reachable s) : Joinable s := by
  refine h.invariant ?_ (fun hs hi => joinable_step hs hi)
  rintro s ⟨capacity, onEvent, thread, rfl⟩
  exact nofun

theorem threadBody_over (h : s.consumer.over = true) : s.threadBody = s := by
  rcases s.threadBody_cases with he | ⟨ho, -⟩
  · exact he
  · rw [h] at ho
    cases ho

theorem returning_step (h : system.step s act t) (hc : Control s) (hw : s.stop.woken = true)
    (ho : s.consumer.over = true) (hn : ∀ st, s.stop ≠ .returned st) :
    t.consumer.over = true ∧ ((∃ st, t.stop = .returned st) ∨
      t.stop.toReturn t.list.length < s.stop.toReturn s.list.length ∨
      t.stop.toReturn t.list.length = s.stop.toReturn s.list.length ∧
        act ∉ stopActions) := by
  have hst : s.stopping = true := by
    rw [hc.closed]
    cases hq : s.stop <;> simp [hq, Stop.woken] at hw <;> rfl
  cases h with
  | call => exact ⟨ho, .inr (.inr ⟨rfl, nofun⟩)⟩
  | @post p n alloc rest hp =>
    obtain ⟨hl, hk, -⟩ := post_stopping alloc hst hp
    exact ⟨by rw [hk]; exact ho, .inr (.inr ⟨by rw [hl, post_stop], nofun⟩)⟩
  | threadBody =>
    rw [threadBody_over ho]
    exact ⟨ho, .inr (.inr ⟨rfl, nofun⟩)⟩
  | threadStop joined hj =>
    have hk : (s.threadStop joined).consumer = s.consumer := by
      rcases s.threadStop_cases hj with he | ⟨b, f, q, -, -, -, -, -, -, he⟩ |
        ⟨n, list, -, -, he⟩ | ⟨n, stage, -, he⟩ <;> rw [he]
      cases stage <;> rfl
    refine ⟨by rw [hk]; exact ho, ?_⟩
    cases hq : s.stop with
    | close | wait | wake => simp [hq, Stop.woken] at hw
    | returned st => exact absurd hq (hn st)
    | join =>
      by_cases hs : joined = statusSuccess
      · exact .inr (.inl (by simp [State.threadStop, hq, hs, Stop.toReturn]))
      · exact .inl ⟨joined, by simp [State.threadStop, hq, hs]⟩
    | drain =>
      refine .inr (.inl ?_)
      rcases s.pop_cases with ⟨hl, he⟩ | ⟨m, list, hl, he⟩
      · simp [State.threadStop, hq, he, Stop.toReturn]
      · simp [State.threadStop, hq, he, Stop.toReturn, hl, Stage.left]
        omega
    | consume m stage =>
      refine .inr (.inl ?_)
      cases stage <;> simp [State.threadStop, hq, Stop.toReturn, Stage.next, Stage.left,
        State.nodeConsume, State.decrement, State.sink]
    | last => exact .inl ⟨_, by simp [State.threadStop, hq]; rfl⟩

theorem returning_ranking (hE : system.Executes E) :
    system.Ranking E (fun _ : Unit => stopActions) 0
      (fun s => s.consumer.over = true ∧ s.stop.woken = true)
      (fun s => ∃ st, s.stop = .returned st) (fun s => s.stop.toReturn s.list.length)
      (fun _ => ()) where
  enabled k _ hP hQ := by
    refine ⟨.threadStop statusSuccess, rfl, _, .threadStop _ fun hj _ => ?_⟩
    have hne := joinable_reachable (hE.reachable k) hj
    cases hk : (E.state k).consumer with
    | exited => rfl
    | absent => exact absurd hk hne
    | wait | check | probe | pop | consume => simp [hk, Consumer.over] at hP
  step k a _ hP hQ he := by
    have hs := hE.step k a he
    have hc := (books_reachable (hE.reachable k)).1
    obtain ⟨ho, h⟩ := returning_step hs hc hP.2 hP.1 (fun st h => hQ ⟨st, h⟩)
    rcases h with h | hlt | ⟨heq, hna⟩
    · exact .inl h
    · exact .inr ⟨⟨ho, woken_step hs hP.2⟩, .inl hlt⟩
    · exact .inr ⟨⟨ho, woken_step hs hP.2⟩, .inr ⟨heq, rfl, hna⟩⟩

/-- A stop that has begun is not taken back. -/
theorem begun_step (h : system.step s act t) (hc : s.stop ≠ .close) : t.stop ≠ .close := by
  by_cases hw : s.stop.woken = true
  · intro ht
    have hwoken := woken_step h hw
    rw [ht] at hwoken
    cases hwoken
  · rcases waiting_step h hc (by simpa using hw) with hwoken | ⟨ht, -⟩
    · rintro ht
      rw [ht] at hwoken
      cases hwoken
    · exact ht

theorem FairStop.fair (hE : system.Executes E) (hf : FairStop E) {k : ℕ}
    (hk : (E.state k).stop ≠ .close) : system.Fair stopActions E := by
  intro m hen
  have hbegun : (E.state (max m k)).stop ≠ .close :=
    hE.persists (P := fun s => s.stop ≠ .close) (le_max_right m k) hk fun _ hs h => begun_step hs h
  obtain ⟨n, hn, hact⟩ := hf (max m k) hbegun fun n hn => hen n ((le_max_left m k).trans hn)
  exact ⟨n, (le_max_left m k).trans hn, hact⟩

/-- A stop that has closed the gate returns, however many posts go on. -/
theorem threadStop_returns (hE : FairRun E) (hf : FairStop E) {k : ℕ}
    (hk : (E.state k).stop ≠ .close) : ∃ l, k ≤ l ∧ ∃ st, (E.state l).stop = .returned st := by
  have hstop : ∀ _ : Unit, system.Fair stopActions E := fun _ => hf.fair hE.executes hk
  obtain ⟨i, hki, hi⟩ := (waiting_ranking hE.executes).eventually hE.executes hstop k.zero_le hk
  obtain ⟨j, hij, hj⟩ := (ended_ranking hE.executes).eventually hE.executes hE.fair i.zero_le hi
  rcases hj with ho | hret
  · have hw : (E.state j).stop.woken = true :=
      hE.executes.persists hij hi fun _ hs h => woken_step hs h
    obtain ⟨l, hjl, hl⟩ := (returning_ranking hE.executes).eventually hE.executes hstop
      j.zero_le ⟨ho, hw⟩
    exact ⟨l, by omega, hl⟩
  · exact ⟨j, by omega, hret⟩

/-! ### One post, and a stop after it -/

/-- A reference with a counter. -/
def onePost : Node := ⟨0, 1, .post 9 (some 0)⟩

/-- The reference has been posted and delivered, and the thread is back at its wait. -/
def delivered : State :=
  { State.start 4096 true true with
    posted := 1
    consumed := 1
    calls := {onePost}
    enqueued := [onePost]
    taken := [onePost]
    decremented := {onePost}
    sunk := {onePost} }

theorem delivered_run : ∃ as, system.Run (.start 4096 true true) as delivered :=
  ⟨_, .head (.call 1 (.post 9 (some 0)) trivial) <| .head (.post true 0 rfl) <|
    .head (.post true 0 rfl) <| .head (.post true 0 rfl) <| .head (.post true 0 rfl) <|
    .head (.post true 0 rfl) <| .head (.post true 0 rfl) <| .head .threadBody <|
    .head .threadBody <| .head .threadBody <| .head .threadBody <| .head .threadBody <|
    .head .threadBody .refl⟩

/-- Nothing posts. -/
theorem post_disabled (h : s.posts = 0) : ¬ system.Enabled (Agent.post n).actions s := by
  rintro ⟨a, ⟨p, alloc, rfl⟩, u, hu⟩
  cases hu with
  | post alloc rest hp => simp [h] at hp

/-- A fair execution in which one reference is posted and the thread goes on waiting; the queue is
never stopped. -/
theorem exists_fairRun : ∃ E k, FairRun E ∧ (E.state 0).consumer ≠ .absent ∧
    (E.state k).calls = {onePost} := by
  obtain ⟨as, hr⟩ := delivered_run
  have hround : system.Run delivered [.threadBody, .threadBody, .threadBody] delivered :=
    .head .threadBody <| .head .threadBody <| .single .threadBody
  obtain ⟨f, hf0, hloop⟩ := hround.loop
  have hfair : ∀ i : Agent, ¬ system.Enabled i.actions (f 0) ∨
      ∃ b ∈ [Action.threadBody, .threadBody, .threadBody], b ∈ i.actions := by
    intro i
    cases i with
    | post n => exact .inl (hf0 ▸ post_disabled rfl)
    | body => exact .inr ⟨.threadBody, List.mem_cons_self .., rfl⟩
  have hinit : system.init (State.start 4096 true true) := ⟨4096, true, true, rfl⟩
  obtain ⟨E, hE, hf, h0, hend⟩ := System.exists_fair_loop hinit (hf0 ▸ hr) hloop hfair
  refine ⟨E, as.length, ⟨hE, hf⟩, ?_, ?_⟩
  · rw [h0]
    nofun
  · have hk : E.state as.length = f 0 := hend 0
    rw [hk, hf0]
    rfl

theorem post_delivered_one : ∃ E : Execution State Action, FairRun E ∧
    ∃ l, onePost ∈ (E.state l).taken ∨ onePost ∈ (E.state l).lost := by
  obtain ⟨E, k, hE, h0, hcalls⟩ := exists_fairRun
  have hn : onePost ∈ (E.state k).calls := by
    rw [hcalls]
    exact Multiset.mem_singleton_self _
  obtain ⟨l, -, -, hl⟩ := post_delivered hE h0 hn
  exact ⟨E, hE, l, hl⟩

/-- The queue is stopped after that. -/
theorem stopped_run : ∃ as t, system.Run delivered as t ∧ t.posts = 0 ∧ t.consumer = .exited ∧
    t.stop = .returned statusSuccess := by
  refine ⟨_, _, .head (.threadStop statusSuccess nofun) <|
    .head (.threadStop statusSuccess nofun) <| .head (.threadStop statusSuccess nofun) <|
    .head .threadBody <| .head .threadBody <| .head .threadBody <| .head .threadBody <|
    .head .threadBody <| .head (.threadStop statusSuccess fun _ _ => rfl) <|
    .head (.threadStop statusSuccess nofun) <| .head (.threadStop statusSuccess nofun) .refl,
    rfl, rfl, rfl⟩

theorem threadStop_returns_one : ∃ E : Execution State Action, FairRun E ∧ FairStop E ∧
    ∃ l st, (E.state l).stop = .returned st := by
  obtain ⟨as, hr⟩ := delivered_run
  obtain ⟨bs, t, hr', hp, hc, hq⟩ := stopped_run
  have hbody : t.threadBody = t := threadBody_over (by rw [hc]; rfl)
  have hstop : t.threadStop statusSuccess = t := by simp [State.threadStop, hq]
  have hloop : ∀ b ∈ [Action.threadBody, .threadStop statusSuccess], system.step t b t := by
    intro b hb
    simp only [List.mem_cons, List.not_mem_nil, or_false] at hb
    rcases hb with rfl | rfl
    · have hs : Step t .threadBody t.threadBody := .threadBody
      rwa [hbody] at hs
    · have hs : Step t (.threadStop statusSuccess) (t.threadStop statusSuccess) :=
        .threadStop _ fun hj => by simp [hq] at hj
      rwa [hstop] at hs
  let classes : Option Agent → Set Action := fun i => i.elim stopActions Agent.actions
  obtain ⟨E, hE, hf, h0, hend⟩ := System.exists_fair (M := system) (A := classes)
    ⟨4096, true, true, rfl⟩ (hr.append hr') hloop (by
      intro i
      cases i with
      | none => exact .inr ⟨.threadStop statusSuccess, by simp, rfl⟩
      | some i =>
        cases i with
        | post n => exact .inl (post_disabled hp)
        | body => exact .inr ⟨.threadBody, by simp, rfl⟩)
  have hfair : FairRun E := ⟨hE, fun i => hf (some i)⟩
  have hfairStop : FairStop E := fun m _ => hf none m
  have hbegun : (E.state (as ++ bs).length).stop ≠ .close := by
    rw [hend _ le_rfl, hq]
    nofun
  obtain ⟨l, -, hl⟩ := threadStop_returns hfair hfairStop hbegun
  exact ⟨E, hfair, hfairStop, l, hl⟩

end Sentinel.EventQueue
