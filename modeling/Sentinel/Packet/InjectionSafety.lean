import Sentinel.Packet.InjectionLedger
import Sentinel.Rundown.Paired

/-! No injection uses a handle or a pool that is not there. -/
namespace Sentinel.Injection

open Transition

variable {s t : State} {a : Action} {k : Client} {cs : Multiset Client} {as : List Action}
  {r : Resource} {v6 : Bool} {rep : Replies}

/-! ### The injections as users of the rundown -/

def Client.call : Client → Rundown.Call
  | .acquire => .acquire false
  | .acquireCas c => .acquireCas false c
  | .inside _ => .holder false
  | .rollback => .rollback
  | .report => .report

/-- The Drain of `SkInjectQuiesce`. -/
def Main.calls : Main → Multiset Rundown.Call
  | .drain i => {.drain injectDrainRetries i}
  | _ => 0

/-- All threads that use `g_InjectionRundown`. -/
def State.rundown (s : State) : Rundown.State where
  count := s.count
  underflows := s.underflows
  calls := s.main.calls + (s.clients.map Client.call +
    (Multiset.replicate s.drains .drained + Multiset.replicate s.stops .beginStopReturn))
  stopped := s.stops != 0
  stopReturned := false

theorem rundown_holders : s.rundown.holders = s.inside := by
  have hm : s.main.calls.countP (·.isHolder = true) = 0 := by
    refine Multiset.countP_eq_zero.mpr fun k hk => ?_
    cases h : s.main with
    | drain i =>
      rw [h] at hk
      simp [Multiset.mem_singleton.mp hk, Rundown.Call.isHolder]
    | _ => simp [h, Main.calls] at hk
  have hk : ∀ k ∈ s.clients, (k.call.isHolder = true ↔ k.isInside = true) := by
    intro k _
    cases k <;> simp [Client.call, Rundown.Call.isHolder, Client.isInside]
  have hd : (Multiset.replicate s.drains Rundown.Call.drained).countP
      (·.isHolder = true) = 0 := by
    refine Multiset.countP_eq_zero.mpr fun k hk => ?_
    simp [Multiset.eq_of_mem_replicate hk, Rundown.Call.isHolder]
  have hb : (Multiset.replicate s.stops Rundown.Call.beginStopReturn).countP
      (·.isHolder = true) = 0 := by
    refine Multiset.countP_eq_zero.mpr fun k hk => ?_
    simp [Multiset.eq_of_mem_replicate hk, Rundown.Call.isHolder]
  rw [Rundown.State.holders, State.rundown, Multiset.countP_add, Multiset.countP_add,
    Multiset.countP_add, hm, hd, hb, Multiset.countP_map, State.inside,
    Multiset.countP_eq_card_filter, Multiset.filter_congr hk, Nat.zero_add]
  rfl

theorem next_call {c : Long} :
    k.call.next c = (k.next c).map Client.call ∧ k.call.count c = k.count c := by
  cases k with
  | acquire | acquireCas e | inside seen =>
    refine ⟨?_, rfl⟩
    simp only [Client.call, Rundown.Call.next, Client.next]
    split <;> rfl
  | rollback => exact ⟨rfl, rfl⟩
  | report => exact ⟨rfl, rfl⟩

theorem rundown_runClient : (s.runClient k cs).rundown =
    s.rundown.advance k.call (s.main.calls + (cs.map Client.call +
      (Multiset.replicate s.drains .drained + Multiset.replicate s.stops .beginStopReturn))) := by
  obtain ⟨hn, hc⟩ := next_call (k := k) (c := s.count)
  have hb : k.call ≠ .beginStop := by cases k <;> simp [Client.call]
  have hr : k.call ≠ .beginStopReturn := by cases k <;> simp [Client.call]
  have hp : k.call = .report ↔ k = .report := by cases k <;> simp [Client.call]
  simp only [State.rundown, State.runClient, Rundown.State.advance, hn, hc, hb, hr, hp]
  cases k.next s.count <;> simp

/-! ### The main thread and the rundown -/

/-- Before `SkInjectQuiesce` is called. -/
def Main.loading : Main → Bool
  | .init | .create _ | .allocNblPool | .allocNbPool | .undo _ | .failed | .ready | .resetCount
  | .resetUnderflows | .activate | .active => true
  | _ => false

/-- After a Drain has succeeded. -/
def Main.drained : Main → Bool
  | .destroy _ _ | .clearHandle _ | .quiesced | .freePool _ | .clearPool _ | .destroyed => true
  | _ => false

structure State.Gated (s : State) : Prop where
  loading : s.main.loading = true → s.stops = 0
  drained : s.main.drained = true → 0 < s.drains
  track : ∀ v6, (s.track v6).state ≠ .unregistered → 0 < s.drains
  draining : s.main.calls ≠ 0 → 0 < s.stops

/-- A step that neither stops nor drains. -/
theorem State.Gated.of_eq (h : s.Gated) (hs : t.stops = s.stops) (hd : t.drains = s.drains)
    (hk : t.track = s.track) (hload : t.main.loading = true → s.main.loading = true)
    (hdrained : t.main.drained = true → s.main.drained = true) (hc : t.main.calls = 0) :
    t.Gated where
  loading hl := hs.trans (h.loading (hload hl))
  drained hl := hd ▸ h.drained (hdrained hl)
  track v6 hv := hd ▸ h.track v6 (hk ▸ hv)
  draining hn := absurd hc hn

theorem Main.drained_of_loading {m : Main} (h : m.loading = true) : m.drained = false := by
  cases m <;> first | rfl | cases h

theorem Main.calls_of_loading {m : Main} (h : m.loading = true) : m.calls = 0 := by
  cases m <;> first | rfl | cases h

/-- A step of `SkInjectInit` or of the rest of the start. -/
theorem State.Gated.of_loading (h : s.Gated) (hm : s.main.loading = true) (hs : t.stops = s.stops)
    (hd : t.drains = s.drains) (hk : t.track = s.track) (ht : t.main.loading = true) :
    t.Gated := by
  refine h.of_eq hs hd hk (fun _ => hm) (fun hdr => ?_) (Main.calls_of_loading ht)
  rw [Main.drained_of_loading ht] at hdr
  cases hdr

/-- A step after a Drain that succeeded. -/
theorem State.Gated.of_drained (h : s.Gated) (hm : s.main.drained = true)
    (hd : t.drains = s.drains) (hl : t.main.loading = false) (hc : t.main.calls = 0) :
    t.Gated where
  loading ht := by
    rw [hl] at ht
    cases ht
  drained _ := hd ▸ h.drained hm
  track _ _ := hd ▸ h.drained hm
  draining hn := absurd hc hn

theorem gated_drain {i : ℕ} (h : s.Gated) (hm : s.main = .drain i) : (s.runMain rep).Gated := by
  have hstop : 0 < s.stops := h.draining (by simp [hm, Main.calls])
  simp only [State.runMain, hm]
  split
  · have hpos : 0 < s.drains + 1 := Nat.succ_pos _
    exact ⟨by rintro ⟨⟩, fun _ => hpos, fun _ _ => hpos, fun hn => absurd rfl hn⟩
  split
  · exact h.of_eq rfl rfl rfl (by rintro ⟨⟩) (by rintro ⟨⟩) rfl
  · exact ⟨by rintro ⟨⟩, by rintro ⟨⟩, h.track, fun _ => hstop⟩

theorem gated_runMain (hl : s.Ledger) (hi : s.Gated) : (s.runMain rep).Gated := by
  have hload : s.main.loading = true → ∀ t : State, t.stops = s.stops → t.drains = s.drains →
      t.track = s.track → t.main.loading = true → t.Gated := fun hm t => hi.of_loading hm
  have hdrained : s.main.drained = true → ∀ t : State, t.drains = s.drains →
      t.main.loading = false → t.main.calls = 0 → t.Gated := fun hm t => hi.of_drained hm
  cases hm : s.main with
  | init =>
    have hf : s.inited = false := by
      rw [hl.inited, hm]
      rfl
    simp only [State.runMain, hm, hf]
    exact ⟨fun _ => hi.loading (by rw [hm]; rfl), by rintro ⟨⟩, fun _ h => absurd rfl h,
      fun hn => absurd rfl hn⟩
  | create v6 =>
    simp only [State.runMain, hm]
    split
    · cases v6 <;> exact hload (by rw [hm]; rfl) _ rfl rfl rfl rfl
    · exact hload (by rw [hm]; rfl) _ rfl rfl rfl rfl
  | allocNblPool | allocNbPool =>
    simp only [State.runMain, hm]
    split <;> exact hload (by rw [hm]; rfl) _ rfl rfl rfl rfl
  | undo us =>
    rcases us with _ | ⟨r | r, us⟩ <;> simp only [State.runMain, hm] <;>
      exact hload (by rw [hm]; rfl) _ rfl rfl rfl rfl
  | ready =>
    simp only [State.runMain, hm]
    split
    · split <;> exact hload (by rw [hm]; rfl) _ rfl rfl rfl rfl
    · exact hi.of_eq rfl rfl rfl (by rintro ⟨⟩) (by rintro ⟨⟩) rfl
  | resetCount | resetUnderflows | activate | failed =>
    simp only [State.runMain, hm]
    exact hload (by rw [hm]; rfl) _ rfl rfl rfl (by first | rfl | rw [hm]; rfl)
  | active | notQuiesced =>
    simp only [State.runMain, hm]
    exact hi.of_eq rfl rfl rfl (by rintro ⟨⟩) (by rintro ⟨⟩) rfl
  | quiesce =>
    have hin : s.inited = true := by
      rw [hl.inited, hm]
      rfl
    simp only [State.runMain, hm, hin, if_true]
    exact hi.of_eq rfl rfl rfl (by rintro ⟨⟩) (by rintro ⟨⟩) rfl
  | gateStop =>
    simp only [State.runMain, hm]
    exact ⟨by rintro ⟨⟩, by rintro ⟨⟩, hi.track, fun _ => Nat.succ_pos _⟩
  | drain i => exact gated_drain hi hm
  | destroy v6 attempt =>
    have hr := destroy_cases rep hl.table hm
    generalize s.runMain rep = t at hr
    cases hr <;> exact hdrained (by rw [hm]; rfl) _ rfl rfl rfl
  | clearHandle v6 =>
    simp only [State.runMain, hm]
    cases v6 <;> exact hdrained (by rw [hm]; rfl) _ rfl rfl rfl
  | quiesced =>
    simp only [State.runMain, hm]
    cases rep.ok <;> exact hdrained (by rw [hm]; rfl) _ rfl rfl rfl
  | freePool r =>
    simp only [State.runMain, hm, State.nextPool]
    split
    · exact hdrained (by rw [hm]; rfl) _ rfl rfl rfl
    · split <;> exact hdrained (by rw [hm]; rfl) _ rfl rfl rfl
  | clearPool r =>
    simp only [State.runMain, hm, State.nextPool]
    split <;> exact hdrained (by rw [hm]; rfl) _ rfl rfl rfl
  | destroyed =>
    simp only [State.runMain, hm]
    exact hi

theorem gated_step (h : system.step s a t) (hl : s.Ledger) (hi : s.Gated) : t.Gated := by
  cases h with
  | call | run | read => exact ⟨hi.loading, hi.drained, hi.track, hi.draining⟩
  | main => exact gated_runMain hl hi

theorem gated_reachable (h : system.Reachable s) : s.Gated := by
  have hb : s.Ledger ∧ s.Gated := by
    refine h.invariant (I := fun s => s.Ledger ∧ s.Gated) ?_
      (fun hs hi => ⟨ledger_step hs hi.1, gated_step hs hi.1 hi.2⟩)
    rintro s rfl
    exact ⟨ledger_reachable (.of_init rfl), fun _ => rfl, nofun, fun _ h => absurd rfl h,
      fun h => absurd rfl h⟩
  exact hb.2

/-- Without an injection inside and before any BeginStop the word is what `ShRundownInit` stores. -/
theorem rundown_idle (hi : Rundown.Invariant s.rundown) (h0 : s.inside = 0) (hs : s.stops = 0) :
    s.count = 0#32 := by
  have hc := hi.count_eq
  rw [rundown_holders, h0, show s.rundown.stopped = false by simp [State.rundown, hs],
    rundownWord_init] at hc
  exact hc

/-- After a BeginStop the word is never zero. -/
theorem rundown_count_ne (hi : Rundown.Invariant s.rundown) (hs : 0 < s.stops) :
    s.count ≠ 0#32 := by
  have hc := hi.count_eq
  have hl := hi.holders_le
  intro h0
  have hw := congrArg BitVec.toNat (hc.symm.trans h0)
  rw [rundownWord_toNat (by omega),
    show s.rundown.stopped = true by simp [State.rundown]; omega] at hw
  simp at hw

/-- The main thread leaves the rundown alone but for its BeginStop and its Drain. -/
theorem rundown_runMain (hl : s.Ledger) (hg : s.Gated)
    (hf : (Rundown.system.restrict Rundown.Paired).Reachable s.rundown)
    (hr : ResetWhenIdle s (.main rep)) :
    ∃ bs, (Rundown.system.restrict Rundown.Paired).Run s.rundown bs (s.runMain rep).rundown := by
  have hi := Rundown.invariant_reachable hf
  cases hm : s.main with
  | resetCount =>
    have hc := rundown_idle hi (hr hm) (hg.loading (by rw [hm]; rfl))
    refine System.exists_run_of_eq ?_
    simp [State.runMain, State.rundown, hm, hc, Main.calls]
  | resetUnderflows =>
    have hu : s.underflows = 0#32 := hi.underflows_eq
    refine System.exists_run_of_eq ?_
    simp [State.runMain, State.rundown, hm, hu, Main.calls]
  | gateStop =>
    refine ⟨[.callBeginStop, .run .beginStop, .callDrain injectDrainRetries], ?_⟩
    refine .head ⟨by simp [Rundown.Paired], .callBeginStop⟩ <|
      .head ⟨by simp [Rundown.Paired], .run s.rundown.calls rfl⟩ <|
      .head ⟨by simp [Rundown.Paired], .callDrain⟩ ?_
    have he : ((s.rundown.enter .beginStop).advance .beginStop s.rundown.calls).enter
        (.drain injectDrainRetries 0) = (s.runMain rep).rundown := by
      simp [State.runMain, State.rundown, Rundown.State.enter, Rundown.State.advance, hm,
        Main.calls, Rundown.Call.next, Rundown.Call.count, Multiset.replicate_succ]
      exact Multiset.cons_swap ..
    rw [he]
    exact .refl
  | drain i =>
    have hstop := hg.draining (by simp [hm, Main.calls])
    have hne := rundown_count_ne hi hstop
    refine ⟨[.run (.drain injectDrainRetries i)], .single ⟨by simp [Rundown.Paired], ?_⟩⟩
    have he : s.rundown.advance (.drain injectDrainRetries i) (s.clients.map Client.call +
        (Multiset.replicate s.drains .drained + Multiset.replicate s.stops .beginStopReturn)) =
          (s.runMain rep).rundown := by
      by_cases h0 : s.count = stopBit
      · simp [State.runMain, State.rundown, Rundown.State.advance, hm, h0, Main.calls,
          Rundown.Call.next, Rundown.Call.count, Multiset.replicate_succ]
      by_cases hle : injectDrainRetries ≤ i <;>
        simp [State.runMain, State.rundown, Rundown.State.advance, hm, h0, hne, hle, Main.calls,
          Rundown.Call.next, Rundown.Call.count]
    exact he ▸ .run _ (by simp [State.rundown, hm, Main.calls])
  | init =>
    have hf : s.inited = false := by simp [hl.inited, hm, Main.inited]
    exact System.exists_run_of_eq (by simp [State.runMain, State.rundown, hm, hf, Main.calls])
  | destroy v6 attempt =>
    have hr := destroy_cases rep hl.table hm
    generalize s.runMain rep = t at hr
    refine System.exists_run_of_eq ?_
    cases hr <;> simp [State.rundown, hm, Main.calls, State.giveBack]
  | undo us =>
    refine System.exists_run_of_eq ?_
    rcases us with _ | ⟨r | r, us⟩ <;>
      simp [State.runMain, State.rundown, hm, Main.calls, State.giveBack, State.clear]
  | _ =>
    refine System.exists_run_of_eq ?_
    simp only [State.runMain, hm, State.nextHandle, State.nextPool] <;> (repeat' split) <;>
      simp [State.rundown, hm, Main.calls, State.giveBack, State.clear, State.made]

theorem rundown_simulation :
    (system.restrict ResetWhenIdle).Simulation (Rundown.system.restrict Rundown.Paired)
      State.rundown where
  init := by
    rintro s rfl
    rfl
  step := by
    intro s a t hr hf ⟨hg, hs⟩
    cases hs with
    | call =>
      refine ⟨[.callAcquire], .single ⟨by rintro ⟨⟩, ?_⟩⟩
      have he : s.rundown.enter (.acquire s.rundown.stopReturned) =
          State.rundown { s with clients := .acquire ::ₘ s.clients } := by
        simp [State.rundown, Rundown.State.enter, Client.call]
      exact he ▸ .callAcquire
    | @run k cs hk =>
      refine ⟨[.run k.call], .single ⟨by rintro ⟨⟩, ?_⟩⟩
      rw [rundown_runClient]
      exact .run _ (by simp [State.rundown, hk])
    | read cs hk =>
      refine System.exists_run_of_eq ?_
      simp [State.rundown, State.read, hk, Client.call]
    | main =>
      exact rundown_runMain (ledger_reachable hr.of_restrict) (gated_reachable hr.of_restrict) hf hg

/-- After a Drain that succeeded no injection is inside, then or later. -/
theorem inside_of_drains (h : (system.restrict ResetWhenIdle).Reachable s) (hd : 0 < s.drains)
    (hr : (system.restrict ResetWhenIdle).Run s as t) : t.inside = 0 := by
  obtain ⟨bs, hbs⟩ := rundown_simulation.run h hr
  have hm : .drained ∈ s.rundown.calls := by
    simp [State.rundown, Multiset.mem_replicate]
    omega
  rw [← rundown_holders]
  exact Rundown.holders_of_drained (rundown_simulation.reachable h) hm hbs

/-! ### What an injection has seen -/

/-- The global of the NB pool is set last, after everything else exists. -/
theorem started_of_nbPool (ht : s.Table) (hg : s.global .nbPool = true) :
    s.main.started = true := by
  have hnot : ¬ s.Gone .nbPool := by
    intro h
    rw [h.1] at hg
    cases hg
  cases hm : s.main with
  | init =>
    simp only [State.Table, hm] at ht
    exact absurd (ht.2 _) hnot
  | create v6 =>
    cases v6 <;> simp only [State.Table, hm] at ht
    · exact absurd (ht.2 _) hnot
    · exact absurd ht.2.2.2.2 hnot
  | allocNblPool | allocNbPool =>
    simp only [State.Table, hm] at ht
    exact absurd ht.2.2.2 hnot
  | undo us | failed =>
    simp only [State.Table, hm] at ht
    exact absurd ht.nbPool hnot
  | _ => rfl

theorem afterDestroy_clients (st : NtStatus) : (s.afterDestroy v6 st).clients = s.clients := by
  unfold State.afterDestroy
  repeat' split
  all_goals rfl

theorem runMain_clients : (s.runMain rep).clients = s.clients := by
  unfold State.runMain State.destroyTracked
  dsimp only
  repeat' split
  all_goals first | rfl | exact afterDestroy_clients _

/-- Who has seen the NB pool came after `SkInjectInit`. -/
def Seen (s : State) : Prop :=
  ∀ seen, .inside seen ∈ s.clients → .nbPool ∈ seen → s.main.started = true

theorem seen_step (h : system.step s a t) (hl : s.Ledger) (hi : Seen s) : Seen t := by
  cases h with
  | call =>
    intro seen hk hn
    exact hi seen (by simpa using hk) hn
  | @run k cs hk =>
    intro seen hs hn
    have hcs : .inside seen ∈ cs → s.main.started = true := fun h =>
      hi seen (hk ▸ Multiset.mem_cons_of_mem h) hn
    cases hx : k.next s.count with
    | none => exact hcs (by simpa [State.runClient, hx] using hs)
    | some k' =>
      simp only [State.runClient, hx, Option.elim_some, Multiset.mem_cons] at hs
      rcases hs with rfl | hs
      · cases k <;> simp only [Client.next] at hx <;> (repeat' split at hx) <;> simp at hx
        simp [← hx] at hn
      · exact hcs hs
  | @read seen r cs hk =>
    intro seen' hs hn
    simp only [State.read, Multiset.mem_cons] at hs
    rcases hs with hs | hs
    · obtain rfl := Client.inside.inj hs
      have hold : .nbPool ∈ seen → s.main.started = true :=
        hi seen (hk ▸ Multiset.mem_cons_self _ cs)
      by_cases hg : s.global r = true
      · rcases Finset.mem_insert.mp (by simpa [hg] using hn) with rfl | hn
        · exact started_of_nbPool (s := s) hl.table hg
        · exact hold hn
      · exact hold (Finset.mem_of_mem_erase (by simpa [hg] using hn))
    · exact hi seen' (hk ▸ Multiset.mem_cons_of_mem hs) hn
  | @main rep =>
    intro seen hs hn
    rw [runMain_clients] at hs
    exact started_runMain hl (hi seen hs hn)

theorem seen_reachable (h : system.Reachable s) : Seen s := by
  have hb : s.Ledger ∧ Seen s := by
    refine h.invariant (I := fun s => s.Ledger ∧ Seen s) ?_
      (fun hs hi => ⟨ledger_step hs hi.1, seen_step hs hi.1 hi.2⟩)
    rintro s rfl
    exact ⟨ledger_reachable (.of_init rfl), by simp [Seen, initial]⟩
  exact hb.2

/-! ### A quiesce that failed says why -/

theorem recordBlock_ne_none {r : Runtime} {why : BlockReason}
    (h : why ≠ .none ∨ r.blockReason ≠ .none) : (r.recordBlock why).blockReason ≠ .none := by
  by_cases hr : r.blockReason = .none
  · simpa [Runtime.recordBlock, hr] using h
  · simp [Runtime.recordBlock, hr]

/-- The drain of the injections is on record, and there is a first cause. -/
def Recorded (r : Runtime) : Prop := .injectionDrain ∈ r.blockHistory ∧ r.blockReason ≠ .none

theorem recorded_recordBlock (r : Runtime) : Recorded (r.recordBlock .injectionDrain) :=
  ⟨List.mem_append_right _ (List.mem_singleton_self _), recordBlock_ne_none (.inl (by rintro ⟨⟩))⟩

/-- A later cause takes nothing off the record. -/
theorem Recorded.recordBlock {r : Runtime} (h : Recorded r) (why : BlockReason) :
    Recorded (r.recordBlock why) :=
  ⟨List.mem_append_left _ h.1, recordBlock_ne_none (.inr h.2)⟩

theorem Recorded.reportUnderflow {r : Runtime} (h : Recorded r) : Recorded r.reportUnderflow := by
  have hrec := h.recordBlock .rundownUnderflow
  unfold Runtime.reportUnderflow
  dsimp only
  split
  · exact hrec.recordBlock .rundownUnderflow
  · exact hrec

def Blocked (s : State) : Prop := s.main = .notQuiesced → Recorded s.runtime

/-- The main thread comes to `notQuiesced` from a Drain or from a destroy. -/
theorem notQuiesced_runMain (h : (s.runMain rep).main = .notQuiesced) :
    (∃ i, s.main = .drain i) ∨ ∃ v6 attempt, s.main = .destroy v6 attempt := by
  cases hm : s.main with
  | drain i => exact .inl ⟨i, rfl⟩
  | destroy v6 attempt => exact .inr ⟨v6, attempt, rfl⟩
  | undo us =>
    rcases us with _ | ⟨r | r, us⟩ <;> simp only [State.runMain, hm] at h <;> cases h
  | create v6 | clearHandle v6 =>
    cases v6 <;> simp only [State.runMain, hm, State.nextHandle] at h <;>
      (repeat' split at h) <;> cases h
  | failed | destroyed =>
    simp only [State.runMain, hm] at h
    cases h
  | _ =>
    simp only [State.runMain, hm, State.nextPool] at h
    (repeat' split at h) <;> cases h

theorem blocked_runMain (hl : s.Ledger) : Blocked (s.runMain rep) := by
  intro h
  rcases notQuiesced_runMain h with ⟨i, hm⟩ | ⟨v6, attempt, hm⟩
  · simp only [State.runMain, hm] at h ⊢
    split at h
    · cases h
    split at h
    · rename_i hne hle
      rw [if_neg hne, if_pos hle]
      exact recorded_recordBlock _
    · cases h
  · have hr := destroy_cases rep hl.table hm
    generalize s.runMain rep = t at h hr
    cases hr with
    | refused | leaked => exact recorded_recordBlock _
    | again | deleted | busy => cases h

theorem blocked_step (h : system.step s a t) (hl : s.Ledger) (hi : Blocked s) : Blocked t := by
  cases h with
  | call => exact hi
  | @run k cs hk =>
    intro hm
    by_cases hr : k = .report
    · simpa [State.runClient, hr] using (hi hm).reportUnderflow
    · simpa [State.runClient, hr] using hi hm
  | read => exact hi
  | main => exact blocked_runMain hl

theorem blocked_reachable (h : system.Reachable s) : Blocked s := by
  have hb : s.Ledger ∧ Blocked s := by
    refine h.invariant (I := fun s => s.Ledger ∧ Blocked s) ?_
      (fun hs hi => ⟨ledger_step hs hi.1, blocked_step hs hi.1 hi.2⟩)
    rintro s rfl
    exact ⟨ledger_reachable (.of_init rfl), by rintro ⟨⟩⟩
  exact hb.2

/-! ### Safety -/

/-- While an injection is inside, the main thread has not got past a Drain. -/
theorem drains_of_inside (h : (system.restrict ResetWhenIdle).Reachable s) (hk : k ∈ s.clients)
    (hin : k.isInside = true) : s.drains = 0 := by
  by_contra hd
  have h0 := inside_of_drains h (Nat.pos_of_ne_zero hd) .refl
  exact Multiset.countP_eq_zero.mp h0 k hk hin

theorem held_of_drains (ht : s.Table) (hg : s.Gated) (hs : s.main.started = true)
    (hd : s.drains = 0) (r : Resource) : s.Held r := by
  have hu : ∀ v6, (s.track v6).state = .unregistered := by
    intro v6
    by_contra hc
    have := hg.track v6 hc
    omega
  have hn : s.main.drained = false := by
    by_contra hc
    have := hg.drained (by simpa using hc)
    omega
  have hb : s.PoolsHeld ∧ ∀ v6, s.Tracked v6 := by
    cases hm : s.main with
    | init | create | allocNblPool | allocNbPool | undo | failed =>
      rw [hm] at hs
      cases hs
    | destroy | clearHandle | quiesced | freePool | clearPool | destroyed =>
      rw [hm] at hn
      cases hn
    | _ => simpa only [State.Table, hm] using ht
  revert r
  refine forall_resource.mpr ⟨fun v6 => ?_, hb.1.1, hb.1.2⟩
  rcases hb.2 v6 with h | h
  · exact h.2
  · have hc := h.1
    rw [hu v6] at hc
    cases hc

/-- An injection that goes on has its handle and its pools as long as it is inside. -/
theorem uses_live (h : (system.restrict ResetWhenIdle).Reachable s) (hk : k ∈ s.clients)
    (hu : k.Uses r) : s.live r = true := by
  obtain ⟨seen, v6, rfl, hsub, -⟩ := hu
  have hs := seen_reachable h.of_restrict seen hk (hsub (by simp))
  have hd := drains_of_inside h hk rfl
  exact (held_of_drains (ledger_reachable h.of_restrict).table (gated_reachable h.of_restrict)
    hs hd r).2

/-- What an injection uses is there. Once the handles may be destroyed no injection is inside
again; a quiesce that returned FALSE has recorded why. -/
theorem injection_safe (h : (system.restrict ResetWhenIdle).Reachable s) :
    (∀ k ∈ s.clients, ∀ r, k.Uses r → s.live r = true) ∧
      (s.main.drained = true →
        ∀ as t, (system.restrict ResetWhenIdle).Run s as t → t.inside = 0) ∧
      (s.main = .notQuiesced →
        .injectionDrain ∈ s.runtime.blockHistory ∧ s.runtime.blockReason ≠ .none) ∧
      s.underflows = 0#32 := by
  have hg := gated_reachable h.of_restrict
  refine ⟨fun k hk r hu => uses_live h hk hu, fun hm as t hr => ?_,
    blocked_reachable h.of_restrict, ?_⟩
  · exact inside_of_drains h (hg.drained hm) hr
  · exact (Rundown.invariant_reachable (rundown_simulation.reachable h)).underflows_eq

/-! ### One injection under way -/

/-- All calls succeed. -/
def good : Replies := ⟨statusSuccess, true, true⟩

theorem idle_reachable (rs : List Replies) :
    (system.restrict ResetWhenIdle).Reachable (rs.foldl State.runMain initial) ∧
      (rs.foldl State.runMain initial).clients = 0 := by
  induction rs using List.reverseRecOn with
  | nil => exact ⟨.of_init rfl, rfl⟩
  | append_singleton rs rep ih =>
    rw [List.foldl_append]
    refine ⟨ih.1.step (a := .main rep) ⟨fun _ => ?_, .main⟩, runMain_clients.trans ih.2⟩
    rw [State.inside, ih.2]
    rfl

/-- After `n` steps of the main thread an injection has come in and seen all it needs. -/
def entered (n : ℕ) : State :=
  { (List.replicate n good).foldl State.runMain initial with
    count := 1#32
    clients := {.inside (insert (.handle true) (insert .nblPool (insert .nbPool ∅)))} }

theorem entered_run (G : State → Action → Prop) (n : ℕ) (hn : n = 5 ∨ n = 9)
    (hG : ∀ s a, (∀ rep, a ≠ .main rep) → G s a) : (system.restrict G).Run
      ((List.replicate n good).foldl State.runMain initial)
      [.call, .run .acquire, .run (.acquireCas 0#32), .read .nbPool, .read .nblPool,
        .read (.handle true)] (entered n) := by
  rcases hn with rfl | rfl
  all_goals
    refine .head ⟨hG _ _ nofun, .call⟩ <| .head ⟨hG _ _ nofun, .run 0 rfl⟩ <|
      .head ⟨hG _ _ nofun, .run 0 rfl⟩ <| .head ⟨hG _ _ nofun, .read 0 rfl⟩ <|
      .head ⟨hG _ _ nofun, .read 0 rfl⟩ <| .head ⟨hG _ _ nofun, .read 0 rfl⟩ ?_
    exact .refl

/-- The drain of a quiesce waits for it. -/
def awaited : State := (List.replicate 4 good).foldl State.runMain (entered 9)

theorem awaited_reachable : (system.restrict ResetWhenIdle).Reachable awaited := by
  have h := (idle_reachable (List.replicate 9 good)).1.run
    (entered_run ResetWhenIdle 9 (.inr rfl) (by
      intro s a ha
      cases a with
      | main rep => exact absurd rfl (ha rep)
      | call | run | read => trivial))
  have hi : ∀ n ≤ 3, ResetWhenIdle ((List.replicate n good).foldl State.runMain (entered 9))
      (.main good) := by
    intro n hn hm
    revert hm
    interval_cases n <;> exact fun h => absurd h (by decide)
  exact (((h.step ⟨hi 0 (by simp), .main⟩).step ⟨hi 1 (by simp), .main⟩).step
    ⟨hi 2 (by simp), .main⟩).step ⟨hi 3 (by simp), .main⟩

theorem injection_safe_awaited : awaited.main = .drain 1 ∧ awaited.live (.handle true) = true ∧
    awaited.underflows = 0#32 := by
  have h := injection_safe awaited_reachable
  refine ⟨by decide, h.1 _ (Multiset.mem_singleton_self _) _ ?_, h.2.2.2⟩
  exact ⟨_, true, rfl, by decide, .inl rfl⟩

/-- Without the guard: the injection came in before `ShRuntimeActivate`. -/
def orphaned : State := (List.replicate 11 good).foldl State.runMain (entered 5)

/-- WFP has destroyed the handle that the injection goes on to use. -/
theorem orphaned_uses : system.Reachable orphaned ∧
    ∃ k ∈ orphaned.clients, k.Uses (.handle true) ∧ orphaned.live (.handle true) = false := by
  have h := ((idle_reachable (List.replicate 5 good)).1.of_restrict).run
    (entered_run (fun _ _ => True) 5 (.inl rfl) (fun _ _ _ => trivial)).of_restrict
  refine ⟨?_, _, Multiset.mem_singleton_self _, ⟨_, true, rfl, by decide, .inl rfl⟩, by decide⟩
  exact reachable_runMain h _

end Sentinel.Injection
