import Sentinel.Telemetry.Queue

/-! The start and stop protocol of the consumer thread: any number of `ShEventThreadStart` and
`ShEventThreadStop` calls on one queue. Producers come and go as they like. -/
namespace Sentinel.EventThread

open Transition EventQueue

/-- Threads are numbered in the order of their creation. -/
abbrev ThreadId := ℕ

/-- The next step of a call. -/
inductive Call where
  | start
  | startLocked
  | create
  | startUnlock (st : NtStatus)
  | stop
  | stopLocked
  | take
  | stopUnlock (thr : Option ThreadId)
  | wait (thr : Option ThreadId) (i : ℕ)
  | wake (thr : Option ThreadId)
  | join (k : ThreadId)
  | drain
  | last
  deriving DecidableEq

structure State where
  startLock : Bool
  stopping : Bool
  threadObject : Option ThreadId
  producers : ℕ
  pending : ℕ
  /-- The number of threads created so far. -/
  created : ℕ
  exited : List ThreadId
  joined : List ThreadId
  calls : Multiset Call
  /-- Ghosts: what the calls have returned. -/
  startReturns : List NtStatus
  stopReturns : List NtStatus

namespace State

variable (s : State) (rest : Multiset Call)

def goOn (c : Call) : State := { s with calls := c ::ₘ rest }

def startReturn (st : NtStatus) : State :=
  { s with calls := rest, startReturns := st :: s.startReturns }

def stopReturn (st : NtStatus) : State :=
  { s with calls := rest, stopReturns := st :: s.stopReturns }

/-- The next step of a call. `ThreadCreate` and `ThreadJoin` return `st`. -/
def run (st : NtStatus) : Call → State
  | .start => if s.startLock then s else { s.goOn rest .startLocked with startLock := true }
  | .startLocked =>
    if s.stopping then s.goOn rest (.startUnlock statusInvalidDeviceState)
    else if s.threadObject.isSome then s.goOn rest (.startUnlock statusSuccess)
    else s.goOn rest .create
  | .create =>
    if ntSuccess st then { s.goOn rest (.startUnlock st) with
      threadObject := some s.created
      created := s.created + 1 }
    else s.goOn rest (.startUnlock st)
  | .startUnlock st => { s.startReturn rest st with startLock := false }
  | .stop => if s.startLock then s else { s.goOn rest .stopLocked with startLock := true }
  | .stopLocked => { s.goOn rest .take with stopping := true }
  | .take => { s.goOn rest (.stopUnlock s.threadObject) with threadObject := none }
  | .stopUnlock thr => { s.goOn rest (.wait thr 0) with startLock := false }
  | .wait thr i =>
    if s.producers = 0 then s.goOn rest (.wake thr)
    else if producerWaitRetries ≤ i then s.stopReturn rest statusTimeout
    else s.goOn rest (.wait thr (i + 1))
  | .wake thr => s.goOn rest (thr.elim .drain .join)
  | .join k =>
    if st = statusSuccess then { s.goOn rest .drain with joined := k :: s.joined }
    else s.stopReturn rest st
  | .drain => { s.goOn rest .last with pending := 0 }
  | .last => s.stopReturn rest (if s.pending = 0 then statusSuccess else statusTimeout)

/-- After `ShEventQueueInit`. -/
def init : State where
  startLock := false
  stopping := false
  threadObject := none
  producers := 0
  pending := 0
  created := 0
  exited := []
  joined := []
  calls := 0
  startReturns := []
  stopReturns := []

end State

inductive Action where
  | callStart
  | callStop
  | run (c : Call) (st : NtStatus)
  | producers (n : ℕ)
  | pending (n : ℕ)
  | exit (k : ThreadId)

/-- A join succeeds only on a thread that has exited. -/
inductive Step : State → Action → State → Prop where
  | callStart {s : State} : Step s .callStart { s with calls := .start ::ₘ s.calls }
  | callStop {s : State} : Step s .callStop { s with calls := .stop ::ₘ s.calls }
  | run {s : State} {c : Call} (st : NtStatus) (rest : Multiset Call) (h : s.calls = c ::ₘ rest)
      (hj : ∀ k, c = .join k → st = statusSuccess → k ∈ s.exited) :
      Step s (.run c st) (s.run rest st c)
  | producers {s : State} {n : ℕ} : Step s (.producers n) { s with producers := n }
  | pending {s : State} {n : ℕ} : Step s (.pending n) { s with pending := n }
  | exit {s : State} {k : ThreadId} (h : k < s.created) :
      Step s (.exit k) { s with exited := k :: s.exited }

def system : System State Action where
  init s := s = State.init
  step := Step

variable {s t : State} {act : Action} {as : List Action} {c : Call} {rest : Multiset Call}
  {st : NtStatus} {k : ThreadId}

/-- When a stop takes the thread object, no other stop has a thread it has not joined: every
thread is in the object or joined. -/
def HandsOver (s : State) : Action → Prop
  | .run c _ => c = .take → ∀ k < s.created, k ∈ s.joined ∨ s.threadObject = some k
  | .callStart | .callStop | .producers _ | .pending _ | .exit _ => True

/-! ### The lock -/

/-- Between the CAS on `startLock` and its release. -/
def Call.locked : Call → Bool
  | .startLocked | .create | .startUnlock _ | .stopLocked | .take | .stopUnlock _ => true
  | .start | .stop | .wait _ _ | .wake _ | .join _ | .drain | .last => false

/-- How many calls hold the lock. -/
def owners (calls : Multiset Call) : ℕ := calls.countP (·.locked = true)

theorem owners_of_locked (h : c.locked = true) : owners (c ::ₘ rest) = owners rest + 1 :=
  Multiset.countP_cons_of_pos _ h

theorem owners_of_not_locked (h : c.locked = false) : owners (c ::ₘ rest) = owners rest :=
  Multiset.countP_cons_of_neg _ (by simp [h])

/-- A stop that has set the flag. -/
def Call.past : Call → Bool
  | .take | .stopUnlock _ | .wait _ _ | .wake _ | .join _ | .drain | .last => true
  | .start | .startLocked | .create | .startUnlock _ | .stop | .stopLocked => false

/-- The lock has one owner, and a thread is only created before the flag is set. -/
structure Locked (s : State) : Prop where
  owner : owners s.calls = if s.startLock then 1 else 0
  create : .create ∈ s.calls → s.stopping = false ∧ s.threadObject = none
  past : ∀ c ∈ s.calls, c.past = true → s.stopping = true
  first : s.threadObject = none → s.stopping = false → s.created = 0
  stopped : statusSuccess ∈ s.stopReturns → s.stopping = true

theorem locked_init : Locked State.init where
  owner := rfl
  create h := absurd h (Multiset.notMem_zero _)
  past c h := absurd h (Multiset.notMem_zero c)
  first _ _ := rfl
  stopped h := absurd h List.not_mem_nil

/-- The owner of the lock is the only one between its two ends. -/
theorem Locked.alone (h : Locked s) (hc : s.calls = c ::ₘ rest) (hl : c.locked = true) :
    s.startLock = true ∧ ∀ c' ∈ rest, c'.locked = false := by
  have ho := h.owner
  rw [hc, owners_of_locked hl] at ho
  cases hs : s.startLock with
  | false => simp [hs] at ho
  | true =>
    refine ⟨rfl, fun c' hm => ?_⟩
    have hz : owners rest = 0 := by simpa [hs] using ho
    have hn := Multiset.countP_eq_zero.mp hz c' hm
    simpa using hn

/-- A move that keeps the lock. -/
theorem Locked.of_goOn (h : Locked s) (hc : s.calls = c ::ₘ rest) (q : Call)
    (hl : q.locked = c.locked) (hp : q.past = true → s.stopping = true)
    (hn : q = .create → s.stopping = false ∧ s.threadObject = none) :
    Locked (s.goOn rest q) where
  owner := by
    have ho := h.owner
    rw [hc] at ho
    change owners (q ::ₘ rest) = _
    cases hq : q.locked with
    | false => rwa [owners_of_not_locked hq, ← owners_of_not_locked (hl.symm.trans hq)]
    | true => rwa [owners_of_locked hq, ← owners_of_locked (hl.symm.trans hq)]
  create hm := by
    rcases Multiset.mem_cons.mp hm with he | hm
    · exact hn he.symm
    · exact h.create (hc ▸ Multiset.mem_cons_of_mem hm)
  past c' hm := by
    rcases Multiset.mem_cons.mp hm with rfl | hm
    · exact hp
    · exact h.past c' (hc ▸ Multiset.mem_cons_of_mem hm)
  first := h.first
  stopped := h.stopped

theorem Locked.of_return (h : Locked s) (hc : s.calls = c ::ₘ rest) (hl : c.locked = false)
    {rs rs' : List NtStatus} (hr : statusSuccess ∈ rs' → s.stopping = true) :
    Locked { s with calls := rest, startReturns := rs, stopReturns := rs' } where
  owner := by
    have ho := h.owner
    rw [hc, owners_of_not_locked hl] at ho
    exact ho
  create hm := h.create (hc ▸ Multiset.mem_cons_of_mem hm)
  past c' hm := h.past c' (hc ▸ Multiset.mem_cons_of_mem hm)
  first := h.first
  stopped := hr

/-- A call takes the lock, which is free. -/
theorem Locked.of_lock (h : Locked s) (hc : s.calls = c ::ₘ rest) (hl : c.locked = false)
    (hfree : s.startLock = false) (q : Call) (hq : q.locked = true) (hp : q.past = false)
    (hn : q ≠ .create) : Locked { s.goOn rest q with startLock := true } where
  owner := by
    have ho := h.owner
    rw [hc, owners_of_not_locked hl, hfree] at ho
    exact (owners_of_locked hq).trans (congrArg (· + 1) ho)
  create hm := by
    rcases Multiset.mem_cons.mp hm with he | hm
    · exact absurd he.symm hn
    · exact h.create (hc ▸ Multiset.mem_cons_of_mem hm)
  past c' hm hp' := by
    rcases Multiset.mem_cons.mp hm with rfl | hm
    · rw [hp] at hp'
      cases hp'
    · exact h.past c' (hc ▸ Multiset.mem_cons_of_mem hm) hp'
  first := h.first
  stopped := h.stopped

/-- A call gives the lock back. -/
theorem Locked.unlock (h : Locked s) (hc : s.calls = c ::ₘ rest) (hl : c.locked = true)
    (rs : List NtStatus) :
    Locked { s with calls := rest, startReturns := rs, startLock := false } where
  owner := by
    have ho := h.owner
    rw [hc, owners_of_locked hl, (h.alone hc hl).1] at ho
    exact Nat.succ_inj.mp ho
  create hm := h.create (hc ▸ Multiset.mem_cons_of_mem hm)
  past c' hm := h.past c' (hc ▸ Multiset.mem_cons_of_mem hm)
  first := h.first
  stopped := h.stopped

/-- While another call owns the lock no thread is being created. -/
theorem Locked.not_create (h : Locked s) (hc : s.calls = c ::ₘ rest) (hl : c.locked = true)
    {q : Call} (hq : q ≠ .create) : .create ∉ q ::ₘ rest := by
  intro hm
  rcases Multiset.mem_cons.mp hm with he | hm
  · exact hq he.symm
  · cases (h.alone hc hl).2 _ hm

theorem locked_startLocked (h : Locked s) (hc : s.calls = .startLocked ::ₘ rest) :
    Locked (s.run rest st .startLocked) := by
  rw [State.run]
  split
  · exact h.of_goOn hc _ rfl (by rintro ⟨⟩) (by rintro ⟨⟩)
  rename_i hopen
  split
  · exact h.of_goOn hc _ rfl (by rintro ⟨⟩) (by rintro ⟨⟩)
  · rename_i hnone
    refine h.of_goOn hc _ rfl (by rintro ⟨⟩) fun _ => ⟨?_, ?_⟩
    · simpa using hopen
    · simpa using hnone

theorem locked_create (h : Locked s) (hc : s.calls = .create ::ₘ rest) :
    Locked (s.run rest st .create) := by
  have hgo : Locked (s.goOn rest (.startUnlock st)) :=
    h.of_goOn hc _ rfl (by rintro ⟨⟩) (by rintro ⟨⟩)
  rw [State.run]
  split
  · have hnot : .create ∉ .startUnlock st ::ₘ rest := h.not_create hc rfl (by rintro ⟨⟩)
    exact ⟨hgo.owner, fun hm => absurd hm hnot, hgo.past, by rintro ⟨⟩, hgo.stopped⟩
  · exact hgo

theorem locked_stopLocked (h : Locked s) (hc : s.calls = .stopLocked ::ₘ rest) :
    Locked (s.run rest st .stopLocked) := by
  have ho := h.owner
  rw [hc, owners_of_locked rfl] at ho
  have hnot : .create ∉ .take ::ₘ rest := h.not_create hc rfl (by rintro ⟨⟩)
  exact ⟨(owners_of_locked rfl).trans ho, fun hm => absurd hm hnot, fun _ _ _ => rfl,
    fun _ => by rintro ⟨⟩, fun _ => rfl⟩

theorem locked_take (h : Locked s) (hc : s.calls = .take ::ₘ rest) :
    Locked (s.run rest st .take) := by
  have hstop : s.stopping = true := h.past .take (hc ▸ Multiset.mem_cons_self _ rest) rfl
  have hgo : Locked (s.goOn rest (.stopUnlock s.threadObject)) :=
    h.of_goOn hc _ rfl (fun _ => hstop) (by rintro ⟨⟩)
  have hnot : .create ∉ .stopUnlock s.threadObject ::ₘ rest :=
    h.not_create hc rfl (by rintro ⟨⟩)
  refine ⟨hgo.owner, fun hm => absurd hm hnot, hgo.past, fun _ hopen => ?_, hgo.stopped⟩
  cases hopen.symm.trans hstop

theorem locked_stopUnlock {thr : Option ThreadId} (h : Locked s)
    (hc : s.calls = .stopUnlock thr ::ₘ rest) : Locked (s.run rest st (.stopUnlock thr)) := by
  have hstop : s.stopping = true := h.past _ (hc ▸ Multiset.mem_cons_self _ rest) rfl
  have hun := h.unlock hc rfl s.startReturns
  refine ⟨(owners_of_not_locked rfl).trans hun.owner, ?_, ?_, h.first, h.stopped⟩
  · intro hm
    rcases Multiset.mem_cons.mp hm with he | hm
    · cases he
    · exact hun.create hm
  · intro c' hm
    rcases Multiset.mem_cons.mp hm with rfl | hm
    · exact fun _ => hstop
    · exact hun.past c' hm

theorem locked_run (h : Locked s) (hc : s.calls = c ::ₘ rest) : Locked (s.run rest st c) := by
  have hpast : c.past = true → s.stopping = true := h.past c (hc ▸ Multiset.mem_cons_self c rest)
  cases c with
  | start | stop =>
    rw [State.run]
    split
    · exact h
    · rename_i hfree
      exact h.of_lock hc rfl (by simpa using hfree) _ rfl rfl (by rintro ⟨⟩)
  | startLocked => exact locked_startLocked h hc
  | create => exact locked_create h hc
  | startUnlock st => exact h.unlock hc rfl _
  | stopLocked => exact locked_stopLocked h hc
  | take => exact locked_take h hc
  | stopUnlock thr => exact locked_stopUnlock h hc
  -- a stop that has given the lock back
  | wait thr i =>
    rw [State.run]
    split
    · exact h.of_goOn hc _ rfl (fun _ => hpast rfl) (by rintro ⟨⟩)
    split
    · exact h.of_return hc rfl fun _ => hpast rfl
    · exact h.of_goOn hc _ rfl (fun _ => hpast rfl) (by rintro ⟨⟩)
  | wake thr => cases thr <;> exact h.of_goOn hc _ rfl (fun _ => hpast rfl) (by rintro ⟨⟩)
  | join k =>
    rw [State.run]
    split
    · have hgo := h.of_goOn hc .drain rfl (fun _ => hpast rfl) (by rintro ⟨⟩)
      exact ⟨hgo.owner, hgo.create, hgo.past, hgo.first, hgo.stopped⟩
    · exact h.of_return hc rfl fun _ => hpast rfl
  | drain =>
    have hgo := h.of_goOn hc .last rfl (fun _ => hpast rfl) (by rintro ⟨⟩)
    exact ⟨hgo.owner, hgo.create, hgo.past, hgo.first, hgo.stopped⟩
  | last => exact h.of_return hc rfl fun _ => hpast rfl

theorem locked_call (h : Locked s) (hl : c.locked = false) (hp : c.past = false) :
    Locked { s with calls := c ::ₘ s.calls } := by
  refine ⟨?_, ?_, ?_, h.first, h.stopped⟩
  · exact (owners_of_not_locked hl).trans h.owner
  · intro hm
    rcases Multiset.mem_cons.mp hm with he | hm
    · rw [← he] at hl
      cases hl
    · exact h.create hm
  · intro c' hm hc'
    rcases Multiset.mem_cons.mp hm with rfl | hm
    · rw [hp] at hc'
      cases hc'
    · exact h.past c' hm hc'

theorem locked_step (h : Step s act t) (hs : Locked s) : Locked t := by
  cases h with
  | callStart | callStop => exact locked_call hs rfl rfl
  | run st rest hc hj => exact locked_run hs hc
  | producers | pending | exit => exact ⟨hs.owner, hs.create, hs.past, hs.first, hs.stopped⟩

theorem locked_reachable (h : system.Reachable s) : Locked s := by
  refine h.invariant ?_ locked_step
  rintro s rfl
  exact locked_init

/-- Once the flag is set no thread is created. -/
theorem created_step (h : Step s act t) (hl : Locked s) (hs : s.stopping = true) :
    t.created = s.created ∧ t.stopping = true := by
  cases h with
  | callStart | callStop | producers | pending | exit => exact ⟨rfl, hs⟩
  | run st rest hc hj =>
    rename_i c
    cases c with
    | create =>
      have hopen := (hl.create (hc ▸ Multiset.mem_cons_self _ rest)).1
      rw [hs] at hopen
      cases hopen
    | startUnlock | stopUnlock | take | wake | drain | last => exact ⟨rfl, hs⟩
    | stopLocked => exact ⟨rfl, rfl⟩
    | start | startLocked | stop | wait | join =>
      rw [State.run]
      repeat' split
      all_goals exact ⟨rfl, hs⟩

theorem created_run (h : system.Run s as t) (hl : Locked s) (hs : s.stopping = true) :
    t.created = s.created := by
  induction h with
  | refl => rfl
  | head hst _ ih =>
    obtain ⟨hc, hs'⟩ := created_step hst hl hs
    exact (ih (locked_step hst hl) hs').trans hc

/-! ### The hand-over -/

/-- The thread that a stop has taken and not yet joined. -/
def Call.thread : Call → Option (Option ThreadId)
  | .stopUnlock thr | .wait thr _ | .wake thr => some thr
  | .join k => some (some k)
  | .drain | .last => some none
  | .start | .startLocked | .create | .startUnlock _ | .stop | .stopLocked | .take => none

theorem past_of_thread {thr : Option ThreadId} (h : c.thread = some thr) : c.past = true := by
  cases c <;> first | rfl | cases h

/-- But for the one thread a stop carries, every thread has been joined. -/
structure Handed (s : State) : Prop where
  carried : ∀ c ∈ s.calls, ∀ thr, c.thread = some thr →
    ∀ k < s.created, k ∈ s.joined ∨ thr = some k
  returned : statusSuccess ∈ s.stopReturns → ∀ k < s.created, k ∈ s.joined

theorem handed_init : Handed State.init where
  carried c h := absurd h (Multiset.notMem_zero c)
  returned h := absurd h List.not_mem_nil

/-- A call that goes on carries what it carried. -/
theorem Handed.of_goOn (h : Handed s) (hc : s.calls = c ::ₘ rest) (q : Call)
    (hq : q.thread = none ∨ q.thread = c.thread) : Handed (s.goOn rest q) where
  carried c' hm thr ht := by
    rcases Multiset.mem_cons.mp hm with rfl | hm
    · rcases hq with hq | hq
      · rw [hq] at ht
        cases ht
      · exact h.carried c (hc ▸ Multiset.mem_cons_self c rest) thr (hq.symm.trans ht)
    · exact h.carried c' (hc ▸ Multiset.mem_cons_of_mem hm) thr ht
  returned := h.returned

theorem Handed.of_return (h : Handed s) (hc : s.calls = c ::ₘ rest) {rs rs' : List NtStatus}
    (hr : statusSuccess ∈ rs' → ∀ k < s.created, k ∈ s.joined) :
    Handed { s with calls := rest, startReturns := rs, stopReturns := rs' } where
  carried c' hm := h.carried c' (hc ▸ Multiset.mem_cons_of_mem hm)
  returned := hr

theorem handed_run (h : Handed s) (hl : Locked s) (hc : s.calls = c ::ₘ rest)
    (hg : HandsOver s (.run c st)) : Handed (s.run rest st c) := by
  have hmem : c ∈ s.calls := hc ▸ Multiset.mem_cons_self c rest
  have hrest : ∀ c' ∈ rest, c' ∈ s.calls := fun c' hm => hc ▸ Multiset.mem_cons_of_mem hm
  cases c with
  | start | stop =>
    rw [State.run]
    split
    · exact h
    · exact ⟨(h.of_goOn hc _ (.inl rfl)).carried, h.returned⟩
  | startLocked =>
    rw [State.run]
    repeat' split
    all_goals exact h.of_goOn hc _ (.inl rfl)
  | create =>
    obtain ⟨hopen, -⟩ := hl.create hmem
    -- no stop has come as far as the thread object yet
    have hno : ∀ c' ∈ s.calls, c'.thread = none := by
      intro c' hm
      cases ht : c'.thread with
      | none => rfl
      | some thr =>
        have hstop := hl.past c' hm (past_of_thread ht)
        rw [hopen] at hstop
        cases hstop
    rw [State.run]
    split
    · refine ⟨fun c' hm thr ht => ?_, fun hr => ?_⟩
      · rcases Multiset.mem_cons.mp hm with rfl | hm
        · cases ht
        · rw [hno c' (hrest c' hm)] at ht
          cases ht
      · have hstop := hl.stopped hr
        rw [hopen] at hstop
        cases hstop
    · exact h.of_goOn hc _ (.inl rfl)
  | startUnlock st => exact ⟨fun c' hm => h.carried c' (hrest c' hm), h.returned⟩
  | stopLocked => exact ⟨(h.of_goOn hc .take (.inl rfl)).carried, h.returned⟩
  | take =>
    refine ⟨fun c' hm thr ht => ?_, h.returned⟩
    rcases Multiset.mem_cons.mp hm with rfl | hm
    · cases ht
      exact hg rfl
    · exact h.carried c' (hrest c' hm) thr ht
  | stopUnlock thr => exact ⟨(h.of_goOn hc (.wait thr 0) (.inr rfl)).carried, h.returned⟩
  | wait thr i =>
    rw [State.run]
    split
    · exact h.of_goOn hc _ (.inr rfl)
    split
    · refine h.of_return hc fun hr => ?_
      rcases List.mem_cons.mp hr with he | hr
      · exact absurd he (by decide)
      · exact h.returned hr
    · exact h.of_goOn hc _ (.inr rfl)
  | wake thr => cases thr <;> exact h.of_goOn hc _ (.inr rfl)
  | join k =>
    have hk := h.carried _ hmem (some k) rfl
    rw [State.run]
    split
    · refine ⟨fun c' hm thr ht j hj => ?_, fun hr j hj => ?_⟩
      · rcases Multiset.mem_cons.mp hm with rfl | hm
        · left
          rcases hk j hj with hin | he
          · exact List.mem_cons_of_mem k hin
          · rw [Option.some_inj.mp he]
            exact List.mem_cons_self
        · rcases h.carried c' (hrest c' hm) thr ht j hj with hin | he
          · exact .inl (List.mem_cons_of_mem k hin)
          · exact .inr he
      · exact List.mem_cons_of_mem k (h.returned hr j hj)
    · rename_i hne
      refine h.of_return hc fun hr => ?_
      rcases List.mem_cons.mp hr with he | hr
      · exact absurd he.symm hne
      · exact h.returned hr
  | drain => exact ⟨(h.of_goOn hc .last (.inr rfl)).carried, h.returned⟩
  | last =>
    refine h.of_return hc fun _ j hj => ?_
    rcases h.carried _ hmem none rfl j hj with hin | he
    · exact hin
    · cases he

theorem handed_step (h : Step s act t) (hl : Locked s) (hg : HandsOver s act) (hs : Handed s) :
    Handed t := by
  cases h with
  | callStart | callStop =>
    refine ⟨fun c hm thr ht => ?_, hs.returned⟩
    rcases Multiset.mem_cons.mp hm with rfl | hm
    · cases ht
    · exact hs.carried c hm thr ht
  | run st rest hc hj => exact handed_run hs hl hc hg
  | producers | pending | exit => exact ⟨hs.carried, hs.returned⟩

/-- If no stop takes the thread object while another one holds a thread it has not joined, every
thread has been joined when a stop has succeeded, and none is created any more. -/
theorem stopped_joined (h : (system.restrict HandsOver).Reachable s)
    (hs : statusSuccess ∈ s.stopReturns) : (∀ k < s.created, k ∈ s.joined) ∧
    ∀ as t, system.Run s as t → t.created = s.created := by
  have hl := locked_reachable h.of_restrict
  have hinit : ∀ {s}, (system.restrict HandsOver).init s → Locked s ∧ Handed s := by
    rintro s rfl
    exact ⟨locked_init, handed_init⟩
  have hstep : ∀ {s act t}, HandsOver s act ∧ Step s act t → Locked s ∧ Handed s →
      Locked t ∧ Handed t := by
    rintro s act t ⟨hg, hst⟩ ⟨hl, hh⟩
    exact ⟨locked_step hst hl, handed_step hst hl hg hh⟩
  have hh := (h.invariant (I := fun s => Locked s ∧ Handed s) hinit hstep).2
  exact ⟨hh.returned hs, fun as t hr => created_run hr hl (hl.stopped hs)⟩

/-! ### Two stops -/

section Runs

variable {P : State → Action → Prop}

theorem reach_start (hs : (system.restrict P).Reachable s) (hP : P s .callStart) :
    (system.restrict P).Reachable { s with calls := .start ::ₘ s.calls } :=
  hs.step (a := .callStart) ⟨hP, .callStart⟩

theorem reach_stop (hs : (system.restrict P).Reachable s) (hP : P s .callStop) :
    (system.restrict P).Reachable { s with calls := .stop ::ₘ s.calls } :=
  hs.step (a := .callStop) ⟨hP, .callStop⟩

theorem reach_exit (hs : (system.restrict P).Reachable s) (hP : P s (.exit k))
    (hk : k < s.created) :
    (system.restrict P).Reachable { s with exited := k :: s.exited } :=
  hs.step (a := .exit k) ⟨hP, .exit hk⟩

theorem reach_run (hs : (system.restrict P).Reachable s) (c : Call) (rest : Multiset Call)
    (hc : s.calls = c ::ₘ rest) (hP : P s (.run c statusSuccess))
    (hj : ∀ k, c = .join k → k ∈ s.exited) :
    (system.restrict P).Reachable (s.run rest statusSuccess c) :=
  hs.step (a := .run c statusSuccess)
    ⟨hP, .run statusSuccess rest hc fun k hk _ => hj k hk⟩

end Runs

/-- A thread has been started and taken by a stop, which is about to wait for the producers. -/
def taken : State where
  startLock := true
  stopping := true
  threadObject := none
  producers := 0
  pending := 0
  created := 1
  exited := []
  joined := []
  calls := .stopUnlock (some 0) ::ₘ 0
  startReturns := [statusSuccess]
  stopReturns := []

theorem taken_reachable : (system.restrict HandsOver).Reachable taken := by
  have hinit : (system.restrict HandsOver).Reachable State.init := .of_init rfl
  have hcall := reach_start hinit (by trivial)
  have hlock := reach_run hcall .start 0 rfl nofun nofun
  have hcheck := reach_run hlock .startLocked 0 rfl nofun nofun
  have hcreate := reach_run hcheck .create 0 rfl nofun nofun
  have hunlock := reach_run hcreate (.startUnlock statusSuccess) 0 rfl nofun nofun
  have hstop := reach_stop hunlock (by trivial)
  have hlock' := reach_run hstop .stop 0 rfl nofun nofun
  have hflag := reach_run hlock' .stopLocked 0 rfl nofun nofun
  refine reach_run hflag .take 0 rfl ?_ nofun
  intro _ k hk
  right
  rw [Nat.lt_one_iff.mp hk]
  rfl

/-- While one stop joins the thread, another one finds the thread object empty and succeeds. -/
theorem second_stop : ¬ ∀ s, system.Reachable s → statusSuccess ∈ s.stopReturns →
    ∀ k < s.created, k ∈ s.joined := by
  intro h
  have hall : (system.restrict fun _ _ => True).Reachable taken :=
    System.Reachable.weaken (fun _ _ _ => trivial) taken_reachable
  have hstop := reach_stop (reach_run hall (.stopUnlock (some 0)) 0 rfl (by trivial) nofun)
    (by trivial)
  let first : Multiset Call := .wait (some 0) 0 ::ₘ 0
  have hlock := reach_run hstop .stop first rfl (by trivial) nofun
  have hflag := reach_run hlock .stopLocked first rfl (by trivial) nofun
  have htake := reach_run hflag .take first rfl (by trivial) nofun
  have hunlock := reach_run htake (.stopUnlock none) first rfl (by trivial) nofun
  have hwait := reach_run hunlock (.wait none 0) first rfl (by trivial) nofun
  have hwake := reach_run hwait (.wake none) first rfl (by trivial) nofun
  have hdrain := reach_run hwake .drain first rfl (by trivial) nofun
  have hlast := reach_run hdrain .last first rfl (by trivial) nofun
  exact absurd (h _ hlast.of_restrict List.mem_cons_self 0 Nat.zero_lt_one) List.not_mem_nil

/-- A single stop joins the thread it has taken. -/
theorem stopped_joined_taken : ∃ s : State, statusSuccess ∈ s.stopReturns ∧ s.created = 1 ∧
    ∀ k < s.created, k ∈ s.joined := by
  have hwait := reach_run taken_reachable (.stopUnlock (some 0)) 0 rfl nofun nofun
  have hwake := reach_run hwait (.wait (some 0) 0) 0 rfl nofun nofun
  have hexit := reach_exit (reach_run hwake (.wake (some 0)) 0 rfl nofun nofun) (by trivial)
    Nat.zero_lt_one
  have hjoin := reach_run hexit (.join 0) 0 rfl nofun fun k hk => by
    cases hk
    exact List.mem_cons_self
  have hdrain := reach_run hjoin .drain 0 rfl nofun nofun
  have hlast := reach_run hdrain .last 0 rfl nofun nofun
  exact ⟨_, List.mem_cons_self, rfl, (stopped_joined hlast List.mem_cons_self).1⟩

end Sentinel.EventThread
