import Sentinel.Rundown.Threads

/-! Releases that pair with no Acquire, and what is left of the stop bit. -/
namespace Sentinel.Rundown

open Transition

variable {s t : State} {a : Action} {k : Call} {cs : Multiset Call} {as : List Action}

/-- Underflows detected and not yet rolled back. -/
def State.pending (s : State) : ℕ := s.calls.countP (· = .rollback)

/-- The increments still to come do not carry out of the word a BeginStop leaves, and no
Release of a stopped rundown brings the word below the ceiling of Acquire. -/
def StopKept (s : State) : Action → Prop
  | .run .beginStop => (rundownBeginStop s.count).toNat + s.pending < 2 ^ 32
  | .run (.holder _) | .run .strayRelease => s.stopped = true → s.count.toNat ≠ 2 ^ 30
  | _ => True

instance (s : State) : DecidablePred (StopKept s)
  | .run .beginStop => inferInstanceAs (Decidable (_ < _))
  | .run (.holder _) | .run .strayRelease => inferInstanceAs (Decidable (_ → _))
  | .callAcquire | .callStrayRelease | .callBeginStop | .callDrain _ | .run (.acquire _)
  | .run (.acquireCas _ _) | .run .rollback | .run .report | .run .beginStopReturn
  | .run (.drain _ _) | .run .drained => isTrue trivial

/-- What a call may hold under the guard: no Acquire that began after a BeginStop had
returned gets past its first read, and every expected value has passed the tests. -/
def Call.Refused (stopped : Bool) : Call → Prop
  | .acquire l => l = true → stopped = true
  | .acquireCas l e => l = false ∧ e.toNat < 2 ^ 30
  | .holder l => l = false
  | .beginStopReturn => stopped = true
  | .strayRelease | .rollback | .report | .beginStop | .drain _ _ | .drained => True

/-- The lost decrements are paid back by the pending increments: together they keep a
stopped word above the ceiling and short of a carry. -/
structure StopInvariant (s : State) : Prop where
  returned : s.stopReturned = true → s.stopped = true
  refused : ∀ k ∈ s.calls, k.Refused s.stopped
  above : s.stopped = true → 2 ^ 30 ≤ s.count.toNat ∧ s.count.toNat + s.pending < 2 ^ 32

theorem refused_mono {b b' : Bool} (h : k.Refused b) (hb : b = true → b' = true) :
    k.Refused b' := by
  cases k with
  | acquire l => exact fun hl => hb (h hl)
  | beginStopReturn => exact hb h
  | _ => exact h

theorem pending_cons (h : s.calls = k ::ₘ cs) :
    s.pending = cs.countP (· = .rollback) + if k = .rollback then 1 else 0 :=
  countP_cons h

theorem pending_advance : (s.advance k cs).pending = cs.countP (· = .rollback) +
    (k.next s.count).elim 0 (fun k' => if k' = .rollback then 1 else 0) :=
  countP_advance

theorem pending_advance_le (h : s.calls = k ::ₘ cs) (hn : k.next s.count ≠ some .rollback) :
    (s.advance k cs).pending ≤ s.pending := by
  rw [pending_advance, pending_cons h]
  cases hk : k.next s.count with
  | none => simp
  | some k' =>
    have : k' ≠ .rollback := fun he => hn (hk.trans (congrArg some he))
    simp [this]

theorem stopInvariant_initial : StopInvariant initial := by
  constructor <;> simp [initial]

theorem stopInvariant_enter (hi : StopInvariant s) (hr : k.Refused s.stopped)
    (hk : k ≠ .rollback) : StopInvariant (s.enter k) where
  returned := hi.returned
  refused := by
    intro k' hk'
    rcases Multiset.mem_cons.mp hk' with rfl | hk'
    · exact hr
    · exact hi.refused k' hk'
  above := by
    intro hs
    have hp : (s.enter k).pending = s.pending := by simp [State.pending, hk]
    rw [hp]
    exact hi.above hs

/-- A call under the guard passes on a call under the guard. -/
theorem refused_next {k' : Call} (hi : StopInvariant s) (hk : k ∈ s.calls)
    (hn : k.next s.count = some k') : k'.Refused (s.stopped || decide (k = .beginStop)) := by
  have hr := hi.refused k hk
  cases k with
  | acquire l =>
    simp only [Call.next] at hn
    split at hn <;> cases hn
    rename_i hm
    have hc := (rundownMayAcquire_iff _).mp hm
    refine ⟨?_, hc⟩
    cases l with
    | false => rfl
    | true =>
      have := (hi.above (hr rfl)).1
      omega
  | acquireCas l e =>
    simp only [Call.next] at hn
    cases hn
    split
    · exact hr.1
    · simp [Call.Refused, hr.1]
  | holder l =>
    simp only [Call.next] at hn
    split at hn <;> cases hn
    trivial
  | strayRelease =>
    simp only [Call.next] at hn
    split at hn <;> cases hn
    trivial
  | rollback => cases hn; trivial
  | report => cases hn
  | beginStop => cases hn; simp [Call.Refused]
  | beginStopReturn => cases hn
  | drain retries i =>
    simp only [Call.next] at hn
    split at hn
    · cases hn; trivial
    · split at hn <;> cases hn
      trivial
  | drained => cases hn; trivial

/-- Under the guard the decrement of a Release leaves a stopped word above the ceiling. -/
theorem above_release (hk : k = .strayRelease ∨ ∃ l, k = .holder l)
    (hi : StopInvariant s) (h : s.calls = k ::ₘ cs) (hg : s.count.toNat ≠ 2 ^ 30)
    (hs : s.stopped = true) :
    2 ^ 30 ≤ (s.advance k cs).count.toNat ∧
      (s.advance k cs).count.toNat + (s.advance k cs).pending < 2 ^ 32 := by
  obtain ⟨hl, hu⟩ := hi.above hs
  have hc : (s.advance k cs).count = s.count - 1#32 := by
    rcases hk with rfl | ⟨l, rfl⟩ <;> rfl
  have hp : (s.advance k cs).pending ≤ s.pending + 1 := by
    rw [pending_advance, pending_cons h]
    cases k.next s.count with
    | none => simp; omega
    | some k' => simp; split <;> omega
  have hsub : (s.count - 1#32).toNat = s.count.toNat - 1 := by
    rw [BitVec.toNat_sub_of_le]
    · rfl
    · rw [BitVec.le_def, BitVec.toNat_ofNat]
      omega
  rw [hc, hsub]
  omega

theorem above_advance (hi : StopInvariant s) (h : s.calls = k ::ₘ cs)
    (hg : StopKept s (.run k)) (hs : (s.advance k cs).stopped = true) :
    2 ^ 30 ≤ (s.advance k cs).count.toNat ∧
      (s.advance k cs).count.toNat + (s.advance k cs).pending < 2 ^ 32 := by
  have hr := hi.refused k (h ▸ Multiset.mem_cons_self k cs)
  -- All but a BeginStop find the stop bit already set.
  by_cases hb : k = .beginStop
  · subst hb
    have hp : (s.advance .beginStop cs).pending = s.pending := by
      rw [pending_advance, pending_cons h]
      rfl
    rw [hp, advance_count]
    refine ⟨?_, hg⟩
    rw [Call.count, rundownBeginStop_toNat]
    split <;> omega
  have hs' : s.stopped = true := by simpa [hb] using hs
  obtain ⟨hl, hu⟩ := hi.above hs'
  have hq (hc : k.count s.count = s.count) (hn : k.next s.count ≠ some .rollback) :
      2 ^ 30 ≤ (s.advance k cs).count.toNat ∧
        (s.advance k cs).count.toNat + (s.advance k cs).pending < 2 ^ 32 := by
    have hp := pending_advance_le h hn
    rw [advance_count, hc]
    omega
  cases k with
  | acquire l => exact hq rfl (by simp only [Call.next]; split <;> simp)
  | acquireCas l e =>
    have hc : s.count ≠ e := by
      rintro rfl
      have := hr.2
      omega
    exact hq (if_neg hc) (by simp [Call.next, hc])
  | holder l => exact above_release (.inr ⟨l, rfl⟩) hi h (hg hs') hs'
  | strayRelease => exact above_release (.inl rfl) hi h (hg hs') hs'
  | rollback =>
    have hp : (s.advance .rollback cs).pending + 1 = s.pending := by
      rw [pending_advance, pending_cons h]
      rfl
    have hadd : (s.count + 1#32).toNat = s.count.toNat + 1 := by
      rw [BitVec.toNat_add, BitVec.toNat_ofNat]
      omega
    rw [advance_count, Call.count, hadd]
    omega
  | report => exact hq rfl nofun
  | beginStop => exact absurd rfl hb
  | beginStopReturn => exact hq rfl nofun
  | drain retries i =>
    refine hq rfl ?_
    simp only [Call.next]
    split
    · simp
    · split <;> simp
  | drained => exact hq rfl nofun

theorem stopInvariant_advance (hi : StopInvariant s) (h : s.calls = k ::ₘ cs)
    (hg : StopKept s (.run k)) : StopInvariant (s.advance k cs) where
  returned := by
    intro hr
    by_cases hk : k = .beginStopReturn
    · subst hk
      have hs := hi.refused _ (h ▸ Multiset.mem_cons_self _ cs)
      simp [show s.stopped = true from hs]
    · have : s.stopReturned = true := by simpa [hk] using hr
      simp [hi.returned this]
  refused := by
    intro k' hk'
    rcases mem_advance hk' with hn | hk'
    · exact refused_next hi (h ▸ Multiset.mem_cons_self k cs) hn
    · refine refused_mono (hi.refused k' (h ▸ Multiset.mem_cons_of_mem hk')) ?_
      intro hs
      simp [hs]
  above := above_advance hi h hg

theorem stopInvariant_step (hi : StopInvariant s) (h : (system.restrict StopKept).step s a t) :
    StopInvariant t := by
  obtain ⟨hg, hs⟩ := h
  cases hs with
  | callAcquire => exact stopInvariant_enter hi hi.returned nofun
  | callStrayRelease => exact stopInvariant_enter hi trivial nofun
  | callBeginStop => exact stopInvariant_enter hi trivial nofun
  | callDrain => exact stopInvariant_enter hi trivial nofun
  | run cs h => exact stopInvariant_advance hi h hg

theorem stopInvariant_reachable (h : (system.restrict StopKept).Reachable s) :
    StopInvariant s :=
  h.invariant (by rintro s rfl; exact stopInvariant_initial)
    (fun hs hi => stopInvariant_step hi hs)

/-- In runs under the guard no Acquire that starts after a BeginStop has returned
returns TRUE. -/
theorem late_acquire_refused (h : (system.restrict StopKept).Reachable s) :
    .holder true ∉ s.calls ∧ ∀ e, .acquireCas true e ∉ s.calls := by
  have hi := stopInvariant_reachable h
  refine ⟨fun hm => ?_, fun e hm => ?_⟩
  · exact absurd (hi.refused _ hm) (by simp [Call.Refused])
  · exact absurd (hi.refused _ hm).1 (by simp)

/-- A stopped word from which a stray Release has taken the last reference. -/
def strayed : State :=
  ⟨0x7FFFFFFF#32, 0#32, {.acquire true, .rollback}, true, true⟩

theorem strayed_reachable : (system.restrict StopKept).Reachable strayed := by
  refine ⟨initial, [.callAcquire, .run (.acquire false), .run (.acquireCas false 0#32),
    .callBeginStop, .run .beginStop, .run .beginStopReturn, .callStrayRelease,
    .run .strayRelease, .run (.holder false), .callAcquire], rfl, ?_⟩
  refine .head ⟨trivial, .callAcquire⟩ ?_
  refine .head ⟨trivial, .run 0 rfl⟩ ?_
  refine .head ⟨trivial, .run 0 rfl⟩ ?_
  refine .head ⟨trivial, .callBeginStop⟩ ?_
  refine .head ⟨by decide, .run {Call.holder false} rfl⟩ ?_
  refine .head ⟨trivial, .run {Call.holder false} rfl⟩ ?_
  refine .head ⟨trivial, .callStrayRelease⟩ ?_
  refine .head ⟨by decide, .run {Call.holder false} rfl⟩ ?_
  refine .head ⟨by decide, .run 0 rfl⟩ ?_
  refine .head ⟨trivial, .callAcquire⟩ ?_
  exact .refl

theorem late_acquire_refused_strayed :
    .holder true ∉ strayed.calls ∧ ∀ e, .acquireCas true e ∉ strayed.calls :=
  late_acquire_refused strayed_reachable

/-! ### Without the guard -/

/-- The OR of a BeginStop falls between the two steps of a stray Release. -/
def lateHolder : State := ⟨1#32, 0#32, {.holder true, .report}, true, true⟩

theorem lateHolder_reachable : system.Reachable lateHolder ∧ .holder true ∈ lateHolder.calls := by
  refine ⟨⟨initial, [.callStrayRelease, .run .strayRelease, .callBeginStop, .run .beginStop,
    .run .beginStopReturn, .run .rollback, .callAcquire, .run (.acquire true),
    .run (.acquireCas true 0#32)], rfl, ?_⟩, by decide⟩
  refine .head .callStrayRelease ?_
  refine .head (.run 0 rfl) ?_
  refine .head .callBeginStop ?_
  refine .head (.run {Call.rollback} rfl) ?_
  refine .head (.run {Call.rollback} rfl) ?_
  refine .head (.run 0 rfl) ?_
  refine .head .callAcquire ?_
  refine .head (.run {Call.report} rfl) ?_
  refine .head (.run {Call.report} rfl) ?_
  exact .refl

/-- An open word admits an Acquire, however late it starts. -/
theorem late_acquire_of_lt (hr : s.stopReturned = true) (hc : s.count.toNat < 2 ^ 30) :
    ∃ as t, system.Run s as t ∧ .holder true ∈ t.calls := by
  have hm := (rundownMayAcquire_iff s.count).mpr hc
  have h₁ : system.Run s [.callAcquire] (s.enter (.acquire true)) := by
    have := Step.callAcquire (s := s)
    rw [hr] at this
    exact .single this
  have h₂ : system.Run (s.enter (.acquire true)) [.run (.acquire true)]
      ((s.enter (.acquire true)).advance (.acquire true) s.calls) := .single (.run _ rfl)
  have hcs : ((s.enter (.acquire true)).advance (.acquire true) s.calls).calls =
      .acquireCas true s.count ::ₘ s.calls := by
    simp [State.advance, Call.next, hm]
  refine ⟨_, _, h₁.append (h₂.append (.single (.run _ hcs))), ?_⟩
  have hn : Call.next s.count (.acquireCas true s.count) = some (.holder true) := by
    simp [Call.next]
  simp only [State.advance, enter_count, Call.count, hn, Option.elim_some,
    Multiset.mem_cons_self]

/-- The pending increments can all land before anything else does. -/
theorem rollbacks_run (n : ℕ) (hn : n ≤ s.pending) :
    ∃ as t, system.Run s as t ∧ t.count = s.count + BitVec.ofNat 32 n ∧
      t.stopReturned = s.stopReturned := by
  induction n generalizing s with
  | zero => exact ⟨[], s, .refl, by simp, rfl⟩
  | succ n ih =>
    have hm : .rollback ∈ s.calls := by
      have := Multiset.countP_pos.mp (Nat.lt_of_lt_of_le n.succ_pos hn)
      obtain ⟨k, hk, rfl⟩ := this
      exact hk
    obtain ⟨cs, h⟩ := Multiset.exists_cons_of_mem hm
    have hp : (s.advance .rollback cs).pending + 1 = s.pending := by
      rw [pending_advance, pending_cons h]
      rfl
    obtain ⟨as, t, hr, hc, hs⟩ := ih (s := s.advance .rollback cs) (by omega)
    refine ⟨_, t, .head (.run _ h) hr, ?_, ?_⟩
    · rw [hc, advance_count, Call.count, BitVec.add_assoc, ← BitVec.ofNat_add, Nat.add_comm]
    · simp [hs]

/-- A BeginStop whose OR has taken effect has returned or is about to. -/
theorem stop_returns (h : system.Reachable s) :
    s.stopped = true → s.stopReturned = true ∨ .beginStopReturn ∈ s.calls := by
  refine h.invariant (I := fun s => s.stopped = true → s.stopReturned = true ∨
    .beginStopReturn ∈ s.calls) (by rintro s rfl; simp [initial]) ?_
  intro s a t hs hi
  have henter (k : Call) (hk : (s.enter k).stopped = true) :
      (s.enter k).stopReturned = true ∨ .beginStopReturn ∈ (s.enter k).calls := by
    rcases hi hk with hr | hm
    · exact .inl hr
    · exact .inr (Multiset.mem_cons_of_mem hm)
  cases hs with
  | callAcquire => exact henter _
  | callStrayRelease => exact henter _
  | callBeginStop => exact henter _
  | callDrain => exact henter _
  | @run k cs h =>
    intro hk
    by_cases hb : k = .beginStop
    · subst hb
      exact .inr (Multiset.mem_cons_self _ cs)
    by_cases hr : k = .beginStopReturn
    · simp [hr]
    rcases hi (by simpa [hb] using hk) with hs | hm
    · simp [hs]
    · rw [h, Multiset.mem_cons] at hm
      rcases hm with hm | hm
      · exact absurd hm.symm hr
      · right
        cases hn : k.next s.count <;> simp [State.advance, hn, hm]

theorem late_acquire_of_stopped (h : system.Reachable s) (hs : s.stopped = true)
    (hc : s.count.toNat < 2 ^ 30) : ∃ as t, system.Run s as t ∧ .holder true ∈ t.calls := by
  rcases stop_returns h hs with hr | hm
  · exact late_acquire_of_lt hr hc
  · obtain ⟨cs, hcs⟩ := Multiset.exists_cons_of_mem hm
    obtain ⟨as, t, hr, ht⟩ :=
      late_acquire_of_lt (s := s.advance .beginStopReturn cs) (by simp) hc
    exact ⟨_, t, .head (.run _ hcs) hr, ht⟩

theorem stopped_preserved (h : system.step s a t) (hs : s.stopped = true) :
    t.stopped = true := by
  cases h <;> simp [hs]

/-- The guard is exact: a step outside it can always be followed by an Acquire that
starts after the BeginStop has returned and returns TRUE. -/
theorem late_acquire_of_not_stopKept (h : (system.restrict StopKept).Reachable s)
    (hs : system.step s a t) (hg : ¬ StopKept s a) :
    ∃ as u, system.Run t as u ∧ .holder true ∈ u.calls := by
  have ht : system.Reachable t := h.of_restrict.step hs
  cases hs with
  | callAcquire => exact absurd trivial hg
  | callStrayRelease => exact absurd trivial hg
  | callBeginStop => exact absurd trivial hg
  | callDrain => exact absurd trivial hg
  | @run k cs hk =>
    have hdec (hc : (s.advance k cs).count = s.count - 1#32) (hs : s.stopped = true)
        (he : s.count.toNat = 2 ^ 30) :
        ∃ as u, system.Run (s.advance k cs) as u ∧ .holder true ∈ u.calls := by
      refine late_acquire_of_stopped ht (by simp [hs]) ?_
      rw [hc, BitVec.toNat_sub_of_le (by rw [BitVec.le_def, BitVec.toNat_ofNat]; omega),
        BitVec.toNat_ofNat]
      omega
    cases k with
    | holder l =>
      obtain ⟨hs, he⟩ := Classical.not_imp.mp hg
      exact hdec rfl hs (not_not.mp he)
    | strayRelease =>
      obtain ⟨hs, he⟩ := Classical.not_imp.mp hg
      exact hdec rfl hs (not_not.mp he)
    | beginStop =>
      have hp : (s.advance .beginStop cs).pending = s.pending := by
        rw [pending_advance, pending_cons hk]
        rfl
      have hlt := (rundownBeginStop s.count).isLt
      have hge : 2 ^ 32 ≤ (rundownBeginStop s.count).toNat + s.pending := Nat.not_lt.mp hg
      obtain ⟨as, u, hr, hc, -⟩ := rollbacks_run (s := s.advance .beginStop cs)
        (2 ^ 32 - (rundownBeginStop s.count).toNat) (by omega)
      have hu : u.stopped = true :=
        hr.preserves (I := fun s => s.stopped = true) stopped_preserved (by simp)
      have h0 : u.count.toNat < 2 ^ 30 := by
        rw [hc, advance_count, Call.count, BitVec.toNat_add, BitVec.toNat_ofNat]
        omega
      obtain ⟨bs, v, hv, hm⟩ := late_acquire_of_stopped (ht.run hr) hu h0
      exact ⟨_, v, hr.append hv, hm⟩
    | _ => exact absurd trivial hg

end Sentinel.Rundown
