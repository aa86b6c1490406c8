import Sentinel.Rundown.Paired
import Sentinel.Runtime.Bfe

/-! The holder count of `ShRundownBfe` and the callbacks it stands for. -/
namespace Sentinel.Bfe

open Transition

variable {s t : State} {a : Action} {k : Callback} {cs : Multiset Callback} {as : List Action}

/-- The callback as a user of the rundown. -/
def Callback.call : Callback → Rundown.Call
  | .acquire _ => .acquire false
  | .acquireCas _ c => .acquireCas false c
  | .body _ | .release => .holder false
  | .rollback => .rollback
  | .report => .report

/-- The BeginStop and the Drain of `skBfeQuiesce`. -/
def Main.calls : Main → Multiset Rundown.Call
  | .drain i => {.drain drainRetries i, .beginStopReturn}
  | .quiesced => {.drained, .beginStopReturn}
  | .notQuiesced stopped => if stopped then {.beginStopReturn} else 0
  | .init _ | .initCount _ | .initUnderflows _ | .create | .start | .subscribe | .install
  | .activate | .loaded | .rollback | .unload | .unsubscribe | .beginStop | .failed => 0

/-- All threads that use `ShRundownBfe`. -/
def State.rundown (s : State) : Rundown.State where
  count := s.count
  underflows := s.underflows
  calls := s.callbacks.map Callback.call + s.main.calls
  stopped := s.main.stopped
  stopReturned := false

theorem calls_not_holder (m : Main) : ∀ k ∈ m.calls, ¬ k.isHolder = true := by
  intro k hk
  cases m with
  | drain i =>
    simp only [Main.calls, Multiset.insert_eq_cons, Multiset.mem_cons,
      Multiset.mem_singleton] at hk
    rcases hk with rfl | rfl <;> simp [Rundown.Call.isHolder]
  | quiesced =>
    simp only [Main.calls, Multiset.insert_eq_cons, Multiset.mem_cons,
      Multiset.mem_singleton] at hk
    rcases hk with rfl | rfl <;> simp [Rundown.Call.isHolder]
  | notQuiesced stopped =>
    cases stopped with
    | false => simp [Main.calls] at hk
    | true => simp [Multiset.mem_singleton.mp hk, Rundown.Call.isHolder]
  | _ => simp [Main.calls] at hk

theorem rundown_holders : s.rundown.holders = s.inside := by
  have hm : s.main.calls.countP (·.isHolder = true) = 0 :=
    Multiset.countP_eq_zero.mpr (calls_not_holder s.main)
  have hk : ∀ k ∈ s.callbacks, (k.call.isHolder = true ↔ k.isInside = true) := by
    intro k _
    cases k <;> simp [Callback.call, Rundown.Call.isHolder, Callback.isInside]
  rw [Rundown.State.holders, State.rundown, Multiset.countP_add, hm, Multiset.countP_map,
    State.inside, Multiset.countP_eq_card_filter, Multiset.filter_congr hk]
  rfl

/-- Before the subscription there are no callbacks. -/
def Main.early : Main → Bool
  | .init activating | .initCount activating | .initUnderflows activating => !activating
  | .create | .start | .subscribe | .failed => true
  | .install | .activate | .loaded | .rollback | .unload | .unsubscribe | .beginStop
  | .drain _ | .quiesced | .notQuiesced _ => false

def Early (s : State) : Prop := s.main.early = true → s.subscribed = false ∧ s.callbacks = 0

theorem early_step (h : system.step s a t) (hi : Early s) : Early t := by
  cases h with
  | callback hsub =>
    intro he
    simp [(hi he).1] at hsub
  | run cs hk =>
    intro he
    simp [(hi he).2] at hk
  | @main bfe ok =>
    have hc : (s.runMain bfe ok).callbacks = s.callbacks := by
      unfold State.runMain
      repeat' split
      all_goals rfl
    have he : (s.runMain bfe ok).main.early = true →
        s.main.early = true ∧ (s.runMain bfe ok).subscribed = s.subscribed := by
      cases hm : s.main with
      | init a | initUnderflows a =>
        cases a <;> simp only [State.runMain, hm] <;> (repeat' split) <;> simp_all [Main.early]
      | _ =>
        simp only [State.runMain, hm]
        (repeat' split) <;> simp_all [Main.early]
    intro h
    obtain ⟨hs, hsub⟩ := he h
    rw [hc, hsub]
    exact hi hs
  | enterUnloadBlocked => exact hi

/-- A callback under way is one call of the rundown. -/
theorem next_call {c : Long} (hk : ∀ st, k ≠ .body st) :
    k.call.next c = (k.next c).map Callback.call ∧ k.call.count c = k.count c := by
  cases k with
  | acquire st =>
    refine ⟨?_, rfl⟩
    simp only [Callback.call, Rundown.Call.next, Callback.next]
    split <;> rfl
  | acquireCas st e =>
    refine ⟨?_, rfl⟩
    simp only [Callback.call, Rundown.Call.next, Callback.next]
    split <;> rfl
  | body st => exact absurd rfl (hk st)
  | release =>
    refine ⟨?_, rfl⟩
    simp only [Callback.call, Rundown.Call.next, Callback.next]
    split <;> rfl
  | rollback => exact ⟨rfl, rfl⟩
  | report => exact ⟨rfl, rfl⟩

theorem rundown_runCallback {ok : Bool} (hk : ∀ st, k ≠ .body st) :
    (s.runCallback k cs ok).rundown =
      s.rundown.advance k.call (cs.map Callback.call + s.main.calls) := by
  obtain ⟨hn, hc⟩ := next_call (c := s.count) hk
  have hb : k.call ≠ .beginStop := by cases k <;> simp [Callback.call]
  have hr : k.call ≠ .beginStopReturn := by cases k <;> simp [Callback.call]
  have hp : k.call = .report ↔ k = .report := by cases k <;> simp [Callback.call]
  simp only [State.rundown, State.runCallback, Rundown.State.advance, hn, hc, hb, hr, hp]
  cases k.next s.count <;> simp

theorem early_reachable (h : system.Reachable s) : Early s :=
  h.invariant (by rintro s rfl; exact fun _ => ⟨rfl, rfl⟩) (fun hs hi => early_step hs hi)

/-- Without holders and before any BeginStop the word is what `ShRundownInit` stores. -/
theorem rundown_idle (hi : Rundown.Invariant s.rundown) (h0 : s.inside = 0)
    (hs : s.main.stopped = false) : s.count = 0#32 := by
  have hc := hi.count_eq
  rw [rundown_holders, h0, show s.rundown.stopped = false from hs, rundownWord_init] at hc
  exact hc

theorem inside_initCount {activating : Bool} {bfe : ServiceState} {ok : Bool}
    (h : system.Reachable s) (hm : s.main = .initCount activating)
    (hg : ResetWhenIdle s (.main bfe ok)) : s.inside = 0 := by
  cases activating with
  | true => exact hg hm
  | false =>
    have hc := (early_reachable h (by rw [hm]; rfl)).2
    rw [State.inside, hc, Multiset.countP_zero]

/-- The main thread leaves the rundown alone but for its BeginStop and its Drain. -/
theorem rundown_runMain {bfe : ServiceState} {ok : Bool}
    (hr : (system.restrict ResetWhenIdle).Reachable s)
    (hf : (Rundown.system.restrict Rundown.Paired).Reachable s.rundown)
    (hg : ResetWhenIdle s (.main bfe ok)) :
    ∃ bs, (Rundown.system.restrict Rundown.Paired).Run s.rundown bs
      (s.runMain bfe ok).rundown := by
  have hi := Rundown.invariant_reachable hf
  cases hm : s.main with
  | initCount a =>
    have h0 := inside_initCount hr.of_restrict hm hg
    have hc := rundown_idle hi h0 (by rw [hm]; rfl)
    refine System.exists_run_of_eq ?_
    simp [State.runMain, State.rundown, hm, hc, Main.calls, Main.stopped]
  | initUnderflows a =>
    have hu : s.underflows = 0#32 := hi.underflows_eq
    refine System.exists_run_of_eq ?_
    cases a <;> simp [State.runMain, State.rundown, hm, hu, Main.calls, Main.stopped]
  | beginStop =>
    refine ⟨[.callBeginStop, .run .beginStop, .callDrain drainRetries], ?_⟩
    have hc : s.rundown.calls = s.callbacks.map Callback.call := by
      simp [State.rundown, hm, Main.calls]
    refine .head ⟨by simp [Rundown.Paired], .callBeginStop⟩ <|
      .head ⟨by simp [Rundown.Paired], .run s.rundown.calls rfl⟩ <|
      .head ⟨by simp [Rundown.Paired], .callDrain⟩ ?_
    have he : ((s.rundown.enter .beginStop).advance .beginStop s.rundown.calls).enter
        (.drain drainRetries 0) = (s.runMain bfe ok).rundown := by
      simp [State.runMain, State.rundown, Rundown.State.enter, Rundown.State.advance, hm,
        Main.calls, Main.stopped, Rundown.Call.next, Rundown.Call.count]
      rw [add_comm, Multiset.singleton_add]
    rw [he]
    exact .refl
  | drain i =>
    have hc : s.rundown.calls =
        .drain drainRetries i ::ₘ (s.callbacks.map Callback.call + {.beginStopReturn}) := by
      simp [State.rundown, hm, Main.calls]
    refine ⟨[.run (.drain drainRetries i)], .single ⟨by simp [Rundown.Paired], ?_⟩⟩
    have he : s.rundown.advance (.drain drainRetries i)
        (s.callbacks.map Callback.call + {.beginStopReturn}) = (s.runMain bfe ok).rundown := by
      by_cases h0 : s.count = stopBit
      · simp [State.runMain, State.rundown, Rundown.State.advance, hm, h0, Main.calls,
          Main.stopped, Rundown.Call.next, Rundown.Call.count]
      by_cases hle : drainRetries ≤ i <;>
        simp [State.runMain, State.rundown, Rundown.State.advance, hm, h0, hle, Main.calls,
          Main.stopped, Rundown.Call.next, Rundown.Call.count]
    exact he ▸ .run _ hc
  | _ =>
    refine System.exists_run_of_eq ?_
    simp only [State.runMain, hm] <;> (repeat' split) <;>
      simp_all [State.rundown, Main.calls, Main.stopped]

theorem rundown_simulation :
    (system.restrict ResetWhenIdle).Simulation (Rundown.system.restrict Rundown.Paired)
      State.rundown where
  init := by
    rintro s rfl
    rfl
  step := by
    intro s a t hr hf ⟨hg, hs⟩
    cases hs with
    | @callback service hsub =>
      refine ⟨[.callAcquire], .single ⟨nofun, ?_⟩⟩
      have he : s.rundown.enter (.acquire s.rundown.stopReturned) =
          State.rundown { s with callbacks := .acquire service ::ₘ s.callbacks } := by
        simp [State.rundown, Rundown.State.enter, Callback.call]
      exact he ▸ .callAcquire
    | @run k ok cs hk =>
      by_cases hb : ∃ st, k = .body st
      · obtain ⟨st, rfl⟩ := hb
        refine System.exists_run_of_eq ?_
        simp [State.rundown, State.runCallback, hk, Callback.call, Callback.count,
          Callback.next]
      · refine ⟨[.run k.call], .single ⟨nofun, ?_⟩⟩
        rw [rundown_runCallback (fun st he => hb ⟨st, he⟩)]
        refine .run _ ?_
        simp [State.rundown, hk]
    | main => exact rundown_runMain hr hf hg
    | enterUnloadBlocked => exact System.exists_run_of_eq rfl

theorem report_call (h : k ∈ s.callbacks) : k.call ∈ s.rundown.calls :=
  Multiset.mem_add.mpr (.inl (Multiset.mem_map_of_mem _ h))

/-- The word counts the callbacks between Acquire and Release, no Release is taken for an
underflow, and after a quiesce that returned TRUE no callback is inside its body again. -/
theorem bfe_holder_count (h : (system.restrict ResetWhenIdle).Reachable s) :
    s.count.toNat = s.inside + (if s.main.stopped then 2 ^ 31 else 0) ∧
      (s.underflows = 0#32 ∧ .rollback ∉ s.callbacks ∧ .report ∉ s.callbacks) ∧
      (s.main = .quiesced →
        s.inside = 0 ∧ ∀ as t, (system.restrict ResetWhenIdle).Run s as t → t.inside = 0) := by
  have hf := rundown_simulation.reachable h
  have hi := Rundown.invariant_reachable hf
  have hl := hi.holders_le
  have hc := hi.count_eq
  rw [rundown_holders] at hl hc
  refine ⟨?_, ⟨hi.underflows_eq, fun hm => ?_, fun hm => ?_⟩, fun hm => ?_⟩
  · have hw := congrArg BitVec.toNat hc
    rwa [rundownWord_toNat (by omega)] at hw
  · exact hi.sound _ (report_call hm)
  · exact hi.sound _ (report_call hm)
  · have hd : .drained ∈ s.rundown.calls := by
      simp [State.rundown, hm, Main.calls]
    refine ⟨rundown_holders ▸ (hi.drained hd).2, fun as t hr => ?_⟩
    obtain ⟨bs, hbs⟩ := rundown_simulation.run h hr
    rw [← rundown_holders]
    exact Rundown.holders_of_drained hf hd hbs

/-- One callback came and went between load and unload. -/
def afterUnload : State where
  count := stopBit
  underflows := 0#32
  runtime := ⟨.teardown, .none, []⟩
  device := true
  deferred := true
  handle := false
  subscribed := false
  callbacks := 0
  main := .quiesced

theorem afterUnload_reachable : (system.restrict ResetWhenIdle).Reachable afterUnload := by
  refine ⟨initial, [.main .stopped true, .main .stopped true, .main .stopped true,
    .main .stopped true, .main .stopped true, .main .stopped true, .callback .running,
    .run (.acquire .running) true, .main .stopped true, .main .stopped true,
    .main .stopped true, .main .stopped true, .main .stopped true,
    .run (.acquireCas .running 0#32) true, .run (.body .running) false, .main .stopped true,
    .main .stopped true, .main .stopped true, .main .stopped true, .run .release true,
    .main .stopped true], rfl, ?_⟩
  refine .head ⟨nofun, .main⟩ <| .head ⟨nofun, .main⟩ <| .head ⟨nofun, .main⟩ <|
    .head ⟨nofun, .main⟩ <| .head ⟨nofun, .main⟩ <| .head ⟨nofun, .main⟩ ?_
  refine .head ⟨trivial, .callback rfl⟩ <| .head ⟨trivial, .run 0 rfl⟩ ?_
  refine .head ⟨nofun, .main⟩ <| .head ⟨nofun, .main⟩ <| .head ⟨fun _ => rfl, .main⟩ <|
    .head ⟨nofun, .main⟩ <| .head ⟨nofun, .main⟩ ?_
  refine .head ⟨trivial, .run 0 rfl⟩ <| .head ⟨trivial, .run 0 rfl⟩ ?_
  refine .head ⟨nofun, .main⟩ <| .head ⟨nofun, .main⟩ <| .head ⟨nofun, .main⟩ <|
    .head ⟨nofun, .main⟩ ?_
  refine .head ⟨trivial, .run 0 rfl⟩ <| .head ⟨nofun, .main⟩ ?_
  exact .refl

theorem bfe_holder_count_afterUnload : afterUnload.inside = 0 ∧
    ∀ as t, (system.restrict ResetWhenIdle).Run afterUnload as t → t.inside = 0 :=
  (bfe_holder_count afterUnload_reachable).2.2 rfl

/-! ### Without the guard -/

/-- The second `ShRundownInit` has stored its count under a callback's reference. -/
def orphaned : State where
  count := 0#32
  underflows := 0#32
  runtime := .initial
  device := true
  deferred := true
  handle := true
  subscribed := true
  callbacks := {.body .running}
  main := .initUnderflows true

theorem orphaned_reachable : system.Reachable orphaned := by
  refine ⟨initial, [.main .stopped true, .main .stopped true, .main .stopped true,
    .main .stopped true, .main .stopped true, .main .stopped true, .callback .running,
    .run (.acquire .running) true, .run (.acquireCas .running 0#32) true,
    .main .stopped true, .main .stopped true, .main .stopped true], rfl, ?_⟩
  refine .head .main <| .head .main <| .head .main <| .head .main <| .head .main <|
    .head .main <| .head (.callback rfl) <| .head (.run 0 rfl) <| .head (.run 0 rfl) <|
    .head .main <| .head .main <| .head .main ?_
  exact .refl

/-- The word counts none while a callback is inside, and its Release is reported. -/
theorem orphaned_underflow : system.Reachable orphaned ∧ orphaned.count = 0#32 ∧
    orphaned.inside = 1 ∧ ∃ as t, system.Run orphaned as t ∧ t.underflows = 1#32 := by
  refine ⟨orphaned_reachable, rfl, rfl, [.main .stopped true, .run (.body .running) true,
    .run .release true, .run .rollback true, .run .report true],
    { orphaned with
      underflows := 1#32
      runtime := ⟨.uninitialized, .rundownUnderflow, [.rundownUnderflow]⟩
      callbacks := 0
      main := .activate }, ?_, ?_⟩
  · exact .head .main <| .head (.run 0 rfl) <| .head (.run 0 rfl) <| .head (.run 0 rfl) <|
      .head (.run 0 rfl) .refl
  · rfl

/-- The guard is exact: the store of the second `ShRundownInit` on a word that a callback
holds leaves a word that counts none. -/
theorem count_of_not_resetWhenIdle (hs : system.step s a t) (hg : ¬ ResetWhenIdle s a) :
    t.count = 0#32 ∧ 0 < t.inside ∧ t.main.stopped = false := by
  cases hs with
  | main =>
    obtain ⟨hm, hi⟩ := Classical.not_imp.mp hg
    refine ⟨by simp [State.runMain, hm], ?_, by simp [State.runMain, hm, Main.stopped]⟩
    simpa [State.runMain, hm, State.inside] using Nat.pos_of_ne_zero hi
  | _ => exact absurd trivial hg

end Sentinel.Bfe
