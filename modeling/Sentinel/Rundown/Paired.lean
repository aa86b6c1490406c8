import Sentinel.General.RefGate
import Sentinel.Rundown.Threads

/-! Paired use of a rundown: every Release belongs to a successful Acquire. -/
namespace Sentinel.Rundown

open Transition

variable {s t : State} {a : Action} {k : Call} {cs : Multiset Call} {as : List Action}

/-- What a call may hold when all use is paired: a CAS expects a value that passed the
tests of Acquire, and no Release has met an underflow. -/
def Call.Sound : Call → Prop
  | .acquireCas _ e => e.toNat < 2 ^ 30
  | .strayRelease | .rollback | .report => False
  | .acquire _ | .holder _ | .beginStop | .beginStopReturn | .drain _ _ | .drained => True

structure Invariant (s : State) : Prop where
  count_eq : s.count = rundownWord s.holders s.stopped
  holders_le : s.holders ≤ 2 ^ 30
  sound : ∀ k ∈ s.calls, k.Sound
  underflows_eq : s.underflows = 0#32
  drained : .drained ∈ s.calls → s.stopped = true ∧ s.holders = 0

theorem holders_cons (h : s.calls = k ::ₘ cs) :
    s.holders = cs.countP (·.isHolder = true) + if k.isHolder = true then 1 else 0 :=
  countP_cons h

theorem holders_enter (hk : k.isHolder = false) : (s.enter k).holders = s.holders := by
  simp [State.holders, State.enter, hk]

theorem holders_advance : (s.advance k cs).holders =
    cs.countP (·.isHolder = true) +
      (k.next s.count).elim 0 (fun k' => if k'.isHolder = true then 1 else 0) :=
  countP_advance

theorem invariant_initial : Invariant initial := by
  constructor <;> simp [initial, State.holders, rundownWord_init]

theorem invariant_enter (hi : Invariant s) (hk : k.isHolder = false) (hs : k.Sound)
    (hd : k ≠ .drained) : Invariant (s.enter k) where
  count_eq := by rw [holders_enter hk]; exact hi.count_eq
  holders_le := by rw [holders_enter hk]; exact hi.holders_le
  sound := by
    intro k' hk'
    rcases Multiset.mem_cons.mp hk' with rfl | hk'
    · exact hs
    · exact hi.sound k' hk'
  underflows_eq := hi.underflows_eq
  drained := by
    intro h
    rw [holders_enter hk]
    rcases Multiset.mem_cons.mp h with h | h
    · exact absurd h.symm hd
    · exact hi.drained h

theorem Invariant.sound_of_mem (hi : Invariant s) (h : s.calls = k ::ₘ cs) :
    k.Sound ∧ ∀ k' ∈ cs, k'.Sound := by
  refine ⟨hi.sound k ?_, fun k' hk' => hi.sound k' ?_⟩
  · rw [h]; exact Multiset.mem_cons_self k cs
  · rw [h]; exact Multiset.mem_cons_of_mem hk'

/-- Calls that neither write the word nor take or give back a reference. -/
theorem invariant_quiet (hi : Invariant s) (h : s.calls = k ::ₘ cs)
    (hk : k.isHolder = false) (hc : k.count s.count = s.count)
    (hb : k ≠ .beginStop) (hr : k ≠ .report)
    (hn : ∀ k', k.next s.count = some k' → k'.isHolder = false ∧ k'.Sound ∧
      (k' = .drained → s.stopped = true ∧ s.holders = 0)) :
    (s.advance k cs).holders = s.holders ∧ Invariant (s.advance k cs) := by
  have hh : (s.advance k cs).holders = s.holders := by
    rw [holders_advance, holders_cons h, hk]
    cases hk' : k.next s.count with
    | none => simp
    | some k' => simp [(hn k' hk').1]
  have hs : (s.advance k cs).stopped = s.stopped := by simp [State.advance, hb]
  refine ⟨hh, ?_, ?_, ?_, ?_, ?_⟩
  · rw [hh, hs]; exact hc.trans hi.count_eq
  · rw [hh]; exact hi.holders_le
  · intro k' hk'
    rcases mem_advance hk' with hk' | hk'
    · exact (hn k' hk').2.1
    · exact (hi.sound_of_mem h).2 k' hk'
  · simp [State.advance, hr, hi.underflows_eq]
  · intro hd
    rw [hh, hs]
    rcases mem_advance hd with hd | hd
    · exact (hn _ hd).2.2 rfl
    · exact hi.drained (h ▸ Multiset.mem_cons_of_mem hd)

/-- A CAS that succeeds finds the gate open and below the ceiling. -/
theorem Invariant.open_of_cas {l : Bool} (hi : Invariant s)
    (h : s.calls = .acquireCas l s.count ::ₘ cs) :
    s.stopped = false ∧ s.holders < 2 ^ 30 := by
  have he : s.count.toNat < 2 ^ 30 := (hi.sound_of_mem h).1
  rwa [← rundownMayAcquire_iff, hi.count_eq, rundownMayAcquire_word hi.holders_le] at he

theorem invariant_cas {l : Bool} (hi : Invariant s)
    (h : s.calls = .acquireCas l s.count ::ₘ cs) :
    (s.advance (.acquireCas l s.count) cs).holders = s.holders + 1 ∧
      Invariant (s.advance (.acquireCas l s.count) cs) := by
  obtain ⟨ho, hl⟩ := hi.open_of_cas h
  have hh : (s.advance (.acquireCas l s.count) cs).holders = s.holders + 1 := by
    rw [holders_advance, holders_cons h]
    simp [Call.next, Call.isHolder]
  refine ⟨hh, ?_, ?_, ?_, ?_, ?_⟩
  · rw [hh]
    have hc : (Call.acquireCas l s.count).count s.count = s.count + 1#32 := if_pos rfl
    rw [advance_count, hc, hi.count_eq, rundownWord_succ]
    simp
  · omega
  · intro k' hk'
    rcases mem_advance hk' with hk' | hk'
    · simp [Call.next] at hk'
      simp [← hk', Call.Sound]
    · exact (hi.sound_of_mem h).2 k' hk'
  · simp [State.advance, hi.underflows_eq]
  · intro hd
    have hd' : .drained ∈ cs := by simpa [Call.next] using mem_advance hd
    have := (hi.drained (h ▸ Multiset.mem_cons_of_mem hd')).1
    simp_all

/-- A paired Release finds its own reference in the word and rolls nothing back. -/
theorem invariant_release {l : Bool} (hi : Invariant s) (h : s.calls = .holder l ::ₘ cs) :
    (s.advance (.holder l) cs).holders + 1 = s.holders ∧
      Invariant (s.advance (.holder l) cs) := by
  obtain ⟨n, hn⟩ : ∃ n, s.holders = n + 1 := ⟨_, by rw [holders_cons h]; rfl⟩
  have hl := hi.holders_le
  have hu : rundownUnderflow s.count = false := by
    rw [hi.count_eq, hn]
    exact rundownUnderflow_word (by omega)
  have hnx : (Call.holder l).next s.count = none := by simp [Call.next, hu]
  have hh : (s.advance (.holder l) cs).holders = n := by
    have := holders_cons h
    rw [holders_advance, hnx]
    simp [Call.isHolder] at this ⊢
    omega
  refine ⟨by omega, ?_, by omega, ?_, ?_, ?_⟩
  · rw [hh]
    rw [advance_count, Call.count, hi.count_eq, hn, rundownWord_pred]
    simp
  · intro k' hk'
    rcases mem_advance hk' with hk' | hk'
    · simp [hnx] at hk'
    · exact (hi.sound_of_mem h).2 k' hk'
  · simp [State.advance, hi.underflows_eq]
  · intro hd
    have hd' : .drained ∈ cs := by simpa [hnx] using mem_advance hd
    have := (hi.drained (h ▸ Multiset.mem_cons_of_mem hd')).2
    omega

theorem invariant_beginStop (hi : Invariant s) (h : s.calls = .beginStop ::ₘ cs) :
    (s.advance .beginStop cs).holders = s.holders ∧ Invariant (s.advance .beginStop cs) := by
  have hl := hi.holders_le
  have hh : (s.advance .beginStop cs).holders = s.holders := by
    rw [holders_advance, holders_cons h]
    simp [Call.next, Call.isHolder]
  refine ⟨hh, ?_, by omega, ?_, ?_, ?_⟩
  · rw [hh]
    rw [advance_count, Call.count, hi.count_eq, rundownBeginStop_word (by omega)]
    simp
  · intro k' hk'
    rcases mem_advance hk' with hk' | hk'
    · simp [Call.next] at hk'
      simp [← hk', Call.Sound]
    · exact (hi.sound_of_mem h).2 k' hk'
  · simp [State.advance, hi.underflows_eq]
  · intro hd
    have hd' : .drained ∈ cs := by simpa [Call.next] using mem_advance hd
    rw [hh]
    exact ⟨by simp [State.advance], (hi.drained (h ▸ Multiset.mem_cons_of_mem hd')).2⟩

/-- The abstract gate behind the word. -/
def gate (s : State) : RefGate.State := ⟨s.holders, s.stopped⟩

theorem gate_quiet (hh : (s.advance k cs).holders = s.holders) (hb : k ≠ .beginStop) :
    gate (s.advance k cs) = gate s := by
  simp [gate, hh, hb]

theorem gate_enter (hk : k.isHolder = false) : gate (s.enter k) = gate s := by
  simp [gate, holders_enter hk]

/-- Every call either moves the gate by one abstract step or leaves it alone. -/
theorem advance_cases (hi : Invariant s) (h : s.calls = k ::ₘ cs) :
    Invariant (s.advance k cs) ∧
      ((∃ b, RefGate.Step (gate s) b (gate (s.advance k cs))) ∨
        gate (s.advance k cs) = gate s) := by
  have hk := (hi.sound_of_mem h).1
  cases k with
  | acquire l =>
    obtain ⟨hh, hi'⟩ := invariant_quiet hi h rfl rfl nofun nofun (by
      intro k' hn
      simp only [Call.next] at hn
      split at hn <;> cases hn
      rename_i hm
      exact ⟨rfl, (rundownMayAcquire_iff _).mp hm, nofun⟩)
    exact ⟨hi', .inr (gate_quiet hh nofun)⟩
  | acquireCas l e =>
    by_cases hc : s.count = e
    · subst hc
      obtain ⟨ho, -⟩ := hi.open_of_cas h
      obtain ⟨hh, hi'⟩ := invariant_cas hi h
      refine ⟨hi', .inl ⟨.acquire, ?_⟩⟩
      have hg : gate (s.advance (.acquireCas l s.count) cs) = ⟨s.holders + 1, false⟩ := by
        simp [gate, hh, ho]
      rw [hg, gate, ho]
      exact .acquire
    · obtain ⟨hh, hi'⟩ := invariant_quiet hi h rfl (if_neg hc) nofun nofun (by
        intro k' hn
        simp only [Call.next, if_neg hc] at hn
        cases hn
        exact ⟨rfl, trivial, nofun⟩)
      exact ⟨hi', .inr (gate_quiet hh nofun)⟩
  | holder l =>
    obtain ⟨hh, hi'⟩ := invariant_release hi h
    refine ⟨hi', .inl ⟨.release, ?_⟩⟩
    have hg : gate (s.advance (.holder l) cs) =
        ⟨(s.advance (.holder l) cs).holders, s.stopped⟩ := by
      simp [gate]
    rw [hg, gate, ← hh]
    exact .release
  | strayRelease => exact hk.elim
  | rollback => exact hk.elim
  | report => exact hk.elim
  | beginStop =>
    obtain ⟨hh, hi'⟩ := invariant_beginStop hi h
    refine ⟨hi', .inl ⟨.stop, ?_⟩⟩
    have hg : gate (s.advance .beginStop cs) = ⟨s.holders, true⟩ := by
      simp [gate, hh]
    rw [hg]
    exact .stop
  | beginStopReturn =>
    obtain ⟨hh, hi'⟩ := invariant_quiet hi h rfl rfl nofun nofun nofun
    exact ⟨hi', .inr (gate_quiet hh nofun)⟩
  | drain retries i =>
    obtain ⟨hh, hi'⟩ := invariant_quiet hi h rfl rfl nofun nofun (by
      intro k' hn
      have hl := hi.holders_le
      simp only [Call.next] at hn
      split at hn
      · rename_i hc
        cases hn
        rw [hi.count_eq, rundownWord_eq_stopBit (by omega)] at hc
        exact ⟨rfl, trivial, fun _ => hc⟩
      · split at hn <;> cases hn
        exact ⟨rfl, trivial, nofun⟩)
    exact ⟨hi', .inr (gate_quiet hh nofun)⟩
  | drained =>
    obtain ⟨hh, hi'⟩ := invariant_quiet hi h rfl rfl nofun nofun (by
      intro k' hn
      cases hn
      exact ⟨rfl, trivial, fun _ => hi.drained (h ▸ Multiset.mem_cons_self _ cs)⟩)
    exact ⟨hi', .inr (gate_quiet hh nofun)⟩

theorem invariant_step (hi : Invariant s) (h : (system.restrict Paired).step s a t) :
    Invariant t := by
  obtain ⟨hp, hs⟩ := h
  cases hs with
  | callAcquire => exact invariant_enter hi rfl trivial nofun
  | callStrayRelease => exact absurd rfl hp
  | callBeginStop => exact invariant_enter hi rfl trivial nofun
  | callDrain => exact invariant_enter hi rfl trivial nofun
  | run cs h => exact (advance_cases hi h).1

theorem invariant_reachable (h : (system.restrict Paired).Reachable s) : Invariant s :=
  h.invariant (by rintro s rfl; exact invariant_initial) (fun hs hi => invariant_step hi hs)

/-- Paired use of the rundown word implements the abstract gate. -/
theorem gate_simulation : (system.restrict Paired).Simulation RefGate.system gate where
  init := by
    rintro s rfl
    simp [RefGate.system, gate, initial, State.holders]
  step := by
    intro s a t hr _ ⟨hp, hs⟩
    have hi := invariant_reachable hr
    cases hs with
    | callAcquire => exact System.exists_run_of_eq (gate_enter rfl)
    | callStrayRelease => exact absurd rfl hp
    | callBeginStop => exact System.exists_run_of_eq (gate_enter rfl)
    | callDrain => exact System.exists_run_of_eq (gate_enter rfl)
    | run cs h =>
      rcases (advance_cases hi h).2 with ⟨b, hb⟩ | he
      · exact ⟨[b], .single hb⟩
      · exact System.exists_run_of_eq he

/-- Once a Drain has seen the bare stop bit there are no holders, then or later. -/
theorem holders_of_drained (h : (system.restrict Paired).Reachable s)
    (hd : .drained ∈ s.calls) (hr : (system.restrict Paired).Run s as t) : t.holders = 0 := by
  obtain ⟨hs, h0⟩ := (invariant_reachable h).drained hd
  obtain ⟨bs, hg⟩ := gate_simulation.run h hr
  exact RefGate.drained_run hg hs h0

/-- The word counts the holders and keeps the stop bit; once that bit is set no CAS
of an Acquire succeeds, no Release meets an underflow, and a drained rundown stays empty. -/
theorem rundown_correct (h : (system.restrict Paired).Reachable s) :
    s.count.toNat = s.holders + (if s.stopped then 2 ^ 31 else 0) ∧
      (s.stopped = true → ∀ l e, .acquireCas l e ∈ s.calls → s.count ≠ e) ∧
      (s.underflows = 0#32 ∧ .rollback ∉ s.calls ∧ .report ∉ s.calls) ∧
      (.drained ∈ s.calls →
        s.holders = 0 ∧ ∀ as t, (system.restrict Paired).Run s as t → t.holders = 0) := by
  have hi := invariant_reachable h
  have hl := hi.holders_le
  refine ⟨?_, ?_, ⟨hi.underflows_eq, fun hm => hi.sound _ hm, fun hm => hi.sound _ hm⟩, ?_⟩
  · rw [hi.count_eq, rundownWord_toNat (by omega)]
  · rintro hs l e hm rfl
    obtain ⟨cs, hcs⟩ := Multiset.exists_cons_of_mem hm
    simp [(hi.open_of_cas hcs).1] at hs
  · intro hd
    exact ⟨(hi.drained hd).2, fun as t hr => holders_of_drained h hd hr⟩

/-- A Drain has seen the bare stop bit; the BeginStop before it has yet to return. -/
def lastDrained : State := ⟨stopBit, 0#32, {.drained, .beginStopReturn}, true, false⟩

theorem lastDrained_reachable : (system.restrict Paired).Reachable lastDrained := by
  refine ⟨initial, [.callAcquire, .run (.acquire false), .run (.acquireCas false 0#32),
    .callBeginStop, .run .beginStop, .run (.holder false), .callDrain 0, .run (.drain 0 0)],
    rfl, ?_⟩
  refine .head ⟨nofun, .callAcquire⟩ ?_
  refine .head ⟨nofun, .run 0 rfl⟩ ?_
  refine .head ⟨nofun, .run 0 rfl⟩ ?_
  refine .head ⟨nofun, .callBeginStop⟩ ?_
  refine .head ⟨nofun, .run {Call.holder false} rfl⟩ ?_
  refine .head ⟨nofun, .run {Call.beginStopReturn}
    (Multiset.cons_swap Call.beginStopReturn (.holder false) 0)⟩ ?_
  refine .head ⟨nofun, .callDrain⟩ ?_
  refine .head ⟨nofun, .run {Call.beginStopReturn} rfl⟩ ?_
  exact .refl

theorem rundown_correct_lastDrained : .drained ∈ lastDrained.calls ∧ lastDrained.holders = 0 ∧
    ∀ as t, (system.restrict Paired).Run lastDrained as t → t.holders = 0 := by
  have hd : .drained ∈ lastDrained.calls := by decide
  exact ⟨hd, (rundown_correct lastDrained_reachable).2.2.2 hd⟩

end Sentinel.Rundown
