import Sentinel.Store.Reclaim

/-! How many snapshots there are at a time, and that a shutdown leaves none. -/
namespace Sentinel.Concurrent

open Transition

variable {s t : State} {act : Action} {as : List Action} {req : Request} {a b : Bool}
  {id old : SnapId} {R k : ℕ}

/-- No more than `R` references are out. -/
def AtMost (R : ℕ) (s : State) (_ : Action) : Prop := s.held.card ≤ R

/-- A round of `SkRetireDrain` has been over the list since the last publication. -/
def Holder.collected : Holder → Bool
  | .reclaim _ _ _ _ _ | .publish _ _ => true
  | .idle | .collect _ _ _ | .discard _ | .reset _ | .detach | .drainNext _ | .poll _ _ _
  | .free _ _ | .requeue _ => false

/-- `SkRuleStoreShutdown` is past its writer section. -/
def Holder.draining : Holder → Bool
  | .drainNext _ | .poll _ _ _ | .free _ _ | .requeue _ => true
  | .idle | .collect _ _ _ | .reclaim _ _ _ _ _ | .publish _ _ | .discard _ | .reset _
  | .detach => false

/-- The shutdown has gone through: nothing is left to stop, free or hand out. -/
structure Over (s : State) : Prop where
  inited : s.inited = false
  holder : s.holder = .idle
  current : s.current = none
  rollbackSlot : s.rollbackSlot = none
  retire : s.retire = []

/-- A closed store publishes nothing any more. -/
structure Closing (s : State) : Prop where
  closed : s.closed = true → s.current = none ∧ s.rollbackSlot = none
  draining : s.holder.draining = true → s.closed = true
  ended : s.inited = false → Over s

/-- What waits for readers: two more than the readers, and the last two at shutdown. -/
structure Bounded (R : ℕ) (s : State) : Prop where
  stopped : s.stopped.length ≤ R + if s.closed then 4 else 2
  collected : s.holder.collected = true → s.retire.length ≤ R

/-! ### The end of the store -/

theorem over_step (h : Step s act t) (ho : Over s) :
    Over t ∧ t.next = s.next ∧ t.freed = s.freed := by
  have hw : s.writable = false := by simp [State.writable, ho.inited]
  cases h with
  | acquire => simp [State.acquire, ho.current, ho]
  | release | evaluate | runtime => exact ⟨⟨ho.1, ho.2, ho.3, ho.4, ho.5⟩, rfl, rfl⟩
  | @call req a b =>
    rcases s.begin_cases req a b with he | ⟨cur, d, -, hw', -⟩
    · rw [he]
      exact ⟨ho, rfl, rfl⟩
    · exact absurd (hw.symm.trans hw') Bool.false_ne_true
  | shutdown => simp [State.shutdown, ho.inited, ho]
  | advance => simp [State.advance, ho.holder, ho]

theorem closing_start (r : RuntimeState) (rates : RateTable) : Closing (State.start r rates) :=
  ⟨nofun, nofun, nofun⟩

theorem closing_advance (hc : Closing s) (hi : s.inited = true) : Closing s.advance := by
  unfold State.advance
  split
  case h_1 => exact hc
  case h_4 => split <;> exact ⟨hc.closed, nofun, fun hn => absurd (hi.symm.trans hn) nofun⟩
  case h_5 req id h =>
    rcases s.publish_cases req id with he | ⟨old, hw, -, he⟩ <;> rw [he]
    · exact ⟨hc.closed, nofun, fun hn => absurd (hi.symm.trans hn) nofun⟩
    · simp only [State.writable, Bool.and_eq_true, Bool.not_eq_true'] at hw
      exact ⟨fun h => absurd (hw.1.2.symm.trans h) nofun, nofun,
        fun hn => absurd (hi.symm.trans hn) nofun⟩
  case h_9 => exact ⟨fun _ => ⟨rfl, rfl⟩, fun _ => rfl, fun hn => absurd (hi.symm.trans hn) nofun⟩
  case h_10 stuck h =>
    have hcl := hc.draining (by rw [h]; rfl)
    obtain ⟨hcur, hslot⟩ := hc.closed hcl
    unfold State.drainNext
    split
    · exact ⟨hc.closed, fun _ => hcl, fun hn => absurd (hi.symm.trans hn) nofun⟩
    · rename_i hret
      split
      · exact ⟨hc.closed, nofun, fun _ => ⟨rfl, rfl, hcur, hslot, hret⟩⟩
      · exact ⟨hc.closed, fun _ => hcl, fun hn => absurd (hi.symm.trans hn) nofun⟩
  case h_11 id k stuck h =>
    have hcl := hc.draining (by rw [h]; rfl)
    unfold State.poll
    split
    · exact ⟨hc.closed, fun _ => hcl, fun hn => absurd (hi.symm.trans hn) nofun⟩
    · split <;> exact ⟨hc.closed, fun _ => hcl, fun hn => absurd (hi.symm.trans hn) nofun⟩
  case h_12 id stuck h =>
    have hcl := hc.draining (by rw [h]; rfl)
    exact ⟨hc.closed, fun _ => hcl, fun hn => absurd (hi.symm.trans hn) nofun⟩
  all_goals exact ⟨hc.closed, nofun, fun hn => absurd (hi.symm.trans hn) nofun⟩

theorem closing_step (h : Step s act t) (hc : Closing s) : Closing t := by
  cases hi : s.inited with
  | false =>
    obtain ⟨ho, -⟩ := over_step h (hc.ended hi)
    exact ⟨fun _ => ⟨ho.current, ho.rollbackSlot⟩, fun hd => by simp [ho.holder, Holder.draining]
      at hd, fun _ => ho⟩
  | true =>
    cases h with
    | acquire =>
      rcases s.acquire_cases with he | ⟨i, -, -, -, he⟩ <;> rw [he]
      · exact hc
      · exact ⟨hc.closed, hc.draining, fun hn => absurd (hi.symm.trans hn) nofun⟩
    | release | evaluate | runtime =>
      exact ⟨hc.closed, hc.draining, fun hn => absurd (hi.symm.trans hn) nofun⟩
    | @call req a b hidle =>
      rcases s.begin_cases req a b with he | ⟨cur, d, -, -, -, -, he⟩ <;> rw [he]
      · exact hc
      · exact ⟨hc.closed, nofun, fun hn => absurd (hi.symm.trans hn) nofun⟩
    | shutdown =>
      rcases s.shutdown_cases with he | he <;> rw [he]
      · exact hc
      · exact ⟨hc.closed, nofun, fun hn => absurd (hi.symm.trans hn) nofun⟩
    | advance => exact closing_advance hc hi

theorem closing_reachable (h : system.Reachable s) : Closing s := by
  refine h.invariant ?_ closing_step
  rintro s ⟨r, rates, rfl⟩
  exact closing_start r rates

/-! ### The retire list -/

/-- What a round leaves on the list, readers hold. -/
theorem collect_length (hi : Invariant s) :
    (s.collect req id k).retire.length ≤ s.held.card := by
  have hmem : ∀ i ∈ (s.collect req id k).retire, i ∈ s.retire ∧ i ∈ s.held := by
    intro i hm
    obtain ⟨hret, hdrained⟩ := List.mem_filter.mp hm
    refine ⟨hret, ?_⟩
    by_contra hn
    have hp : i ∈ s.places := by simp [State.places, State.stopped, hret]
    have hst : i ∈ s.stopped := by simp [State.stopped, hret]
    have hw := hi.word i hp
    rw [Multiset.count_eq_zero.mpr hn, decide_eq_true hst] at hw
    have hstop : s.readers i = stopBit := by
      rw [hw, rundownWord_eq_stopBit (by omega)]
      exact ⟨rfl, rfl⟩
    rw [(rundownActiveCount_eq_neg_one _).mpr hstop] at hdrained
    simp at hdrained
  have hnodup : (s.collect req id k).retire.Nodup := by
    refine List.nodup_iff_count_le_one.mpr fun i => ?_
    have hle := (List.filter_sublist (p := fun i => !(rundownActiveCount (s.readers i) == -1#32))
      (l := s.retire)).count_le i
    have hl := hi.located i
    simp only [State.places, State.stopped, List.count_append] at hl
    have hone : s.retire.count i ≤ 1 := by
      split at hl <;> omega
    exact hle.trans hone
  have hsub : ((s.collect req id k).retire : Multiset SnapId) ≤ s.held :=
    (Multiset.le_iff_subset (Multiset.coe_nodup.mpr hnodup)).mpr fun i hm => (hmem i hm).2
  exact Multiset.card_le_card hsub

theorem bounded_start (r : RuntimeState) (rates : RateTable) : Bounded R (State.start r rates) where
  stopped := by simp [State.stopped, State.start, Holder.drained, Holder.pending]
  collected h := by cases h

theorem displaced_length : (s.displaced req old).length ≤ 2 := by
  unfold State.displaced
  cases s.rollbackSlot <;> split <;> simp

theorem bounded_publish (h : s.holder = .publish req id) (hb : Bounded R s) :
    Bounded R (s.publish req id) := by
  have hret := hb.collected (by rw [h]; rfl)
  rcases s.publish_cases req id with he | ⟨old, hw, -, he⟩ <;> rw [he]
  · refine ⟨?_, by rintro ⟨⟩⟩
    have hs := hb.stopped
    simp only [State.stopped, h, Holder.drained, Holder.pending, List.length_append] at hs ⊢
    exact hs
  · have hopen : s.closed = false := by
      simp only [State.writable, Bool.and_eq_true, Bool.not_eq_true'] at hw
      exact hw.1.2
    have hd := @displaced_length s req old
    refine ⟨?_, by rintro ⟨⟩⟩
    simp only [State.stopped, Holder.drained, Holder.pending, List.length_append, List.length_nil,
      hopen, Bool.false_eq_true, if_false]
    omega

theorem bounded_advance (hi : Invariant s) (hcl : Closing s) (hc : s.held.card ≤ R)
    (hb : Bounded R s) :
    Bounded R s.advance := by
  have hs := hb.stopped
  unfold State.advance
  split
  case h_1 => exact hb
  case h_2 req id k h =>
    have hle := (@collect_length s req id k hi).trans hc
    refine ⟨?_, fun _ => hle⟩
    have hperm := (List.filter_append_perm
      (fun i => rundownActiveCount (s.readers i) == -1#32) s.retire).length_eq
    change (s.collect req id k).stopped.length ≤ R + if s.closed then 4 else 2
    simp only [State.stopped, State.collect, h, Holder.drained, Holder.pending,
      List.length_append, List.length_nil] at hs hperm ⊢
    omega
  case h_3 req id k i is rem h =>
    have hret := hb.collected (by rw [h]; rfl)
    refine ⟨?_, fun _ => hret⟩
    simp only [State.stopped, h, Holder.drained, Holder.pending, List.length_append,
      List.length_cons] at hs ⊢
    omega
  case h_4 req id k rem h =>
    have hret := hb.collected (by rw [h]; rfl)
    simp only [State.stopped, h, Holder.drained, Holder.pending, List.length_append] at hs
    split
    · exact ⟨by simpa [State.stopped, Holder.drained, Holder.pending] using hs, fun _ => hret⟩
    · exact ⟨by simpa [State.stopped, Holder.drained, Holder.pending] using hs, by rintro ⟨⟩⟩
  case h_5 req id h => exact bounded_publish h hb
  case h_9 h =>
    simp only [State.stopped, h, Holder.drained, Holder.pending, List.length_append,
      List.length_nil] at hs
    refine ⟨?_, by rintro ⟨⟩⟩
    simp only [State.stopped, State.detach, Holder.drained, Holder.pending, List.length_append,
      List.length_nil, if_true]
    cases hclosed : s.closed with
    | true =>
      obtain ⟨hcur, hslot⟩ := hcl.closed hclosed
      simp only [hcur, hslot, hclosed, if_true, Option.toList_none, List.length_nil] at hs ⊢
      omega
    | false =>
      have hcur : s.current.toList.length ≤ 1 := by cases s.current <;> simp
      have hslot : s.rollbackSlot.toList.length ≤ 1 := by cases s.rollbackSlot <;> simp
      simp only [hclosed, Bool.false_eq_true, if_false] at hs
      omega
  case h_10 stuck h =>
    simp only [State.stopped, h, Holder.drained, Holder.pending, List.length_append] at hs
    unfold State.drainNext
    split
    · rename_i i rest hret
      refine ⟨?_, by rintro ⟨⟩⟩
      simp only [hret, List.length_cons, List.length_nil] at hs
      simp only [State.stopped, Holder.drained, Holder.pending, List.length_append,
        List.length_cons, List.length_nil]
      omega
    · split
      · refine ⟨?_, by rintro ⟨⟩⟩
        simp only [State.stopped, Holder.drained, Holder.pending, List.length_append,
          List.length_nil] at hs ⊢
        omega
      · refine ⟨?_, by rintro ⟨⟩⟩
        simpa [State.stopped, Holder.drained, Holder.pending] using hs
  case h_11 id k stuck h =>
    simp only [State.stopped, h, Holder.drained, Holder.pending, List.length_append,
      List.length_cons, List.length_nil] at hs
    unfold State.poll
    split
    · refine ⟨?_, by rintro ⟨⟩⟩
      simp only [State.stopped, Holder.drained, Holder.pending, List.length_append,
        List.length_cons, List.length_nil]
      omega
    · split
      · refine ⟨?_, by rintro ⟨⟩⟩
        simp only [State.stopped, Holder.drained, Holder.pending, List.length_append,
          List.length_cons, List.length_nil]
        omega
      · refine ⟨?_, by rintro ⟨⟩⟩
        simp only [State.stopped, Holder.drained, Holder.pending, List.length_append,
          List.length_cons, List.length_nil]
        omega
  case h_12 id stuck h =>
    refine ⟨?_, by rintro ⟨⟩⟩
    simp only [State.stopped, h, Holder.drained, Holder.pending, List.length_append,
      List.length_cons, List.length_nil] at hs ⊢
    omega
  case h_13 stuck h =>
    refine ⟨?_, by rintro ⟨⟩⟩
    simp only [State.stopped, h, Holder.drained, Holder.pending, List.length_append,
      List.length_nil] at hs ⊢
    omega
  all_goals
    rename_i h
    refine ⟨?_, by rintro ⟨⟩⟩
    simpa [State.stopped, h, Holder.drained, Holder.pending] using hs

theorem bounded_step (h : (system.restrict (AtMost R)).step s act t) (hi : Invariant s)
    (hcl : Closing s) (hb : Bounded R s) : Bounded R t := by
  obtain ⟨hc, hst⟩ := h
  cases hst with
  | acquire =>
    rcases s.acquire_cases with he | ⟨i, -, -, -, he⟩ <;> rw [he]
    · exact hb
    · exact ⟨hb.stopped, hb.collected⟩
  | release | evaluate | runtime => exact ⟨hb.stopped, hb.collected⟩
  | @call req a b hidle =>
    have hs := hb.stopped
    simp only [State.stopped, hidle, Holder.drained, Holder.pending] at hs
    rcases s.begin_cases req a b with he | ⟨cur, d, -, -, -, -, he⟩ <;> rw [he]
    · exact hb
    · exact ⟨by simpa [State.stopped, Holder.drained, Holder.pending] using hs, by rintro ⟨⟩⟩
  | shutdown hidle =>
    have hs := hb.stopped
    simp only [State.stopped, hidle, Holder.drained, Holder.pending] at hs
    rcases s.shutdown_cases with he | he <;> rw [he]
    · exact hb
    · exact ⟨by simpa [State.stopped, Holder.drained, Holder.pending] using hs, by rintro ⟨⟩⟩
  | advance => exact bounded_advance hi hcl hc hb

theorem bounded_reachable (h : (system.restrict (AtMost R)).Reachable s) : Bounded R s := by
  have hinit : ∀ {s}, (system.restrict (AtMost R)).init s →
      system.Reachable s ∧ Bounded R s := by
    rintro s ⟨r, rates, rfl⟩
    exact ⟨.of_init ⟨r, rates, rfl⟩, bounded_start r rates⟩
  have hstep : ∀ {s act t}, (system.restrict (AtMost R)).step s act t →
      system.Reachable s ∧ Bounded R s → system.Reachable t ∧ Bounded R t := by
    rintro s act t hst ⟨hr, hb⟩
    exact ⟨hr.step hst.2,
      bounded_step hst (invariant_reachable hr) (closing_reachable hr) hb⟩
  exact (h.invariant (I := fun s => system.Reachable s ∧ Bounded R s) hinit hstep).2

/-! ### The snapshots there are -/

/-- The snapshots that have been allocated and not freed. -/
def State.existing (s : State) : List SnapId := (List.range s.next).filter (· ∉ s.freed)

/-- Every one of them is in its one place. -/
theorem existing_perm (hi : Invariant s) : s.existing.Perm s.places := by
  rw [List.perm_iff_count]
  intro i
  have hl := hi.located i
  rw [List.count_append] at hl
  by_cases hf : i ∈ s.freed
  · have hpos := List.count_pos_iff.mpr hf
    have hnone : i ∉ s.existing := by simp [State.existing, hf]
    rw [List.count_eq_zero.mpr hnone]
    split at hl <;> omega
  · have hzero := List.count_eq_zero.mpr hf
    have hcount : s.existing.count i = (List.range s.next).count i :=
      List.count_filter (by simpa using hf)
    rw [hcount]
    by_cases hlt : i < s.next
    · rw [List.count_eq_one_of_mem List.nodup_range (List.mem_range.mpr hlt)]
      rw [if_pos hlt] at hl
      omega
    · rw [List.count_eq_zero.mpr (fun hm => hlt (List.mem_range.mp hm))]
      rw [if_neg hlt] at hl
      omega

/-- However many rule sets are published, while no more than `R` references are out there are no
more than `R + 5` snapshots: the current one, the one in the slot, the one being built, the two that
the last publication has displaced, and those that readers hold. -/
theorem snapshots_bounded (h : (system.restrict (AtMost R)).Reachable s) :
    s.existing.length ≤ R + 5 := by
  have hi := invariant_reachable h.of_restrict
  have hb := bounded_reachable h
  have hs := hb.stopped
  rw [(existing_perm hi).length_eq, State.places]
  have hbuild : s.holder.building.length ≤ 1 := by cases s.holder <;> simp [Holder.building]
  have hcur : s.current.toList.length ≤ 1 := by cases s.current <;> simp
  have hslot : s.rollbackSlot.toList.length ≤ 1 := by cases s.rollbackSlot <;> simp
  simp only [List.length_append]
  cases hc : s.closed with
  | false =>
    simp only [hc, Bool.false_eq_true, if_false] at hs
    omega
  | true =>
    obtain ⟨hn, hn'⟩ := (closing_reachable h.of_restrict).closed hc
    simp only [hc, if_true] at hs
    simp only [hn, hn', Option.toList_none, List.length_nil]
    omega

/-- The reader and the writer of `readerInSlot` keep to one reference. -/
theorem snapshots_bounded_readerInSlot : readerInSlot.existing.length ≤ 1 + 5 := by
  have hone : ∀ {s : State} {act : Action}, s.held = {0} → AtMost 1 s act := by
    intro s act h
    rw [AtMost, h, Multiset.card_singleton]
  have hinit : (system.restrict (AtMost 1)).Reachable (.start .active rateTableEmpty) :=
    .of_init ⟨_, _, rfl⟩
  have hacquire := hinit.step ⟨Nat.zero_le 1, .acquire⟩
  have hcall : (system.restrict (AtMost 1)).Reachable
      ((State.start .active rateTableEmpty).acquire.begin .clear true true) :=
    hacquire.step ⟨hone rfl, .call rfl⟩
  exact snapshots_bounded (((hcall.step ⟨hone rfl, .advance⟩).step ⟨hone rfl, .advance⟩).step
    ⟨hone rfl, .advance⟩)

/-- A shutdown that has gone through has freed every snapshot there ever was, each once, under no
reader; and the store hands none out again. -/
theorem shutdown_frees_all (h : system.Reachable s) (hi : s.inited = false) :
    s.held = 0 ∧ (∀ id, id ∈ s.freed ↔ id < s.next) ∧ s.freed.Nodup ∧
      ∀ as t, system.Run s as t → t.held = 0 ∧ t.next = s.next ∧ t.freed = s.freed := by
  have hempty : ∀ {t : State}, system.Reachable t → Over t → t.held = 0 ∧ t.places = [] := by
    intro t hr ho
    have hp : t.places = [] := by
      simp [State.places, State.stopped, ho.current, ho.rollbackSlot, ho.retire, ho.holder,
        Holder.building, Holder.drained, Holder.pending]
    refine ⟨Multiset.eq_zero_of_forall_notMem fun i hm => ?_, hp⟩
    have hl := (invariant_reachable hr).live i hm
    simp [hp] at hl
  have ho := (closing_reachable h).ended hi
  obtain ⟨hheld, hplaces⟩ := hempty h ho
  have hcount : ∀ id, s.freed.count id = if id < s.next then 1 else 0 := by
    intro id
    have hl := (invariant_reachable h).located id
    rwa [hplaces, List.nil_append] at hl
  refine ⟨hheld, fun id => ?_, List.nodup_iff_count_le_one.mpr fun id => ?_, ?_⟩
  · rw [← List.count_pos_iff, hcount]
    split <;> simp_all
  · rw [hcount]
    split <;> omega
  · intro as t hr
    have hkeep : Over t ∧ t.next = s.next ∧ t.freed = s.freed := by
      refine hr.preserves (I := fun u => Over u ∧ u.next = s.next ∧ u.freed = s.freed) ?_
        ⟨ho, rfl, rfl⟩
      rintro u act v hst ⟨hu, hn, hf⟩
      obtain ⟨hv, hn', hf'⟩ := over_step hst hu
      exact ⟨hv, hn'.trans hn, hf'.trans hf⟩
    exact ⟨(hempty (h.run hr) hkeep.1).1, hkeep.2⟩

/-- The shutdown of the fresh store. -/
def shutDown : State :=
  (State.start .active rateTableEmpty).shutdown.advance.advance.advance.advance.advance

theorem shutdown_frees_all_shutDown : shutDown.inited = false ∧ shutDown.held = 0 ∧
    (∀ id, id ∈ shutDown.freed ↔ id < shutDown.next) := by
  have hinit : system.Reachable (.start .active rateTableEmpty) := .of_init ⟨_, _, rfl⟩
  have hshut : system.Reachable (State.start .active rateTableEmpty).shutdown :=
    hinit.step (.shutdown rfl)
  have hreach : system.Reachable shutDown :=
    ((((hshut.step .advance).step .advance).step .advance).step .advance).step .advance
  have hi : shutDown.inited = false := by decide
  obtain ⟨hheld, hfreed, -⟩ := shutdown_frees_all hreach hi
  exact ⟨hi, hheld, hfreed⟩

end Sentinel.Concurrent
