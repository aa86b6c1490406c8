import Sentinel.Store.Concurrent

/-! Where every snapshot is, from its allocation to its release to the pool. -/
namespace Sentinel.Concurrent

open Transition

variable {s t : State} {act : Action} {as : List Action} {req : Request} {a b : Bool}
  {id i : SnapId} {ids : List SnapId} {k : ℕ}

namespace Holder

/-- The snapshot a writer has built and not yet published. -/
def building : Holder → List SnapId
  | .collect _ id _ | .reclaim _ id _ _ _ | .publish _ id | .discard id => [id]
  | .idle | .reset _ | .detach | .drainNext _ | .poll _ _ _ | .free _ _ | .requeue _ => []

/-- Snapshots off the retire list that were seen drained. -/
def drained : Holder → List SnapId
  | .reclaim _ _ _ drained _ => drained
  | .free id _ => [id]
  | .idle | .collect _ _ _ | .publish _ _ | .discard _ | .reset _ | .detach | .drainNext _
  | .poll _ _ _ | .requeue _ => []

/-- Snapshots off the retire list that shutdown waits for or has given up on. -/
def pending : Holder → List SnapId
  | .poll id _ stuck => id :: stuck
  | .free _ stuck | .drainNext stuck | .requeue stuck => stuck
  | .idle | .collect _ _ _ | .reclaim _ _ _ _ _ | .publish _ _ | .discard _ | .reset _
  | .detach => []

end Holder

namespace State

/-- The snapshots no new reader can reach any more. -/
def stopped (s : State) : List SnapId := s.retire ++ s.holder.drained ++ s.holder.pending

/-- Every place a snapshot can be in. -/
def places (s : State) : List SnapId :=
  s.current.toList ++ s.rollbackSlot.toList ++ s.holder.building ++ s.stopped

end State

/-- Every snapshot allocated is in one place or was freed once, and its rundown word counts its
readers, with the stop bit just when it is retired. -/
structure Invariant (s : State) : Prop where
  located : ∀ id, (s.places ++ s.freed).count id = if id < s.next then 1 else 0
  word : ∀ id ∈ s.places,
    s.readers id = rundownWord (s.held.count id) (decide (id ∈ s.stopped))
  live : ∀ id ∈ s.held, id ∈ s.places
  ceiling : ∀ id, s.held.count id ≤ 2 ^ 30
  drained : ∀ id ∈ s.holder.drained, id ∉ s.held
  unpublished : ∀ id ∈ s.holder.building, id ∉ s.held
  opened : s.closed = false → s.current.isSome = true

namespace Invariant

theorem lt_next (hi : Invariant s) (h : id ∈ s.places) : id < s.next := by
  have hl := hi.located id
  have hc := List.count_pos_iff.mpr h
  rw [List.count_append] at hl
  split at hl
  · assumption
  · omega

theorem not_freed (hi : Invariant s) (h : id ∈ s.places) : id ∉ s.freed := by
  intro hf
  have hl := hi.located id
  have hc := List.count_pos_iff.mpr h
  have hc' := List.count_pos_iff.mpr hf
  rw [List.count_append] at hl
  split at hl <;> omega

/-- The current snapshot carries no stop bit and is not the one being built. -/
theorem current_apart (hi : Invariant s) (h : s.current = some id) :
    id ∈ s.places ∧ id ∉ s.stopped ∧ id ∉ s.holder.building := by
  have hl := hi.located id
  have hle : (s.places ++ s.freed).count id ≤ 1 := by
    rw [hl]
    split <;> omega
  simp only [State.places, h, List.count_append, Option.toList_some, List.count_singleton_self]
    at hle
  refine ⟨by simp [State.places, h], ?_, ?_⟩
  · intro hm
    have := List.count_pos_iff.mpr hm
    omega
  · intro hm
    have := List.count_pos_iff.mpr hm
    omega

theorem rollbackSlot_apart (hi : Invariant s) (h : s.rollbackSlot = some id) :
    id ∈ s.places ∧ id ∉ s.stopped := by
  have hl := hi.located id
  have hle : (s.places ++ s.freed).count id ≤ 1 := by
    rw [hl]
    split <;> omega
  simp only [State.places, h, List.count_append, Option.toList_some, List.count_singleton_self]
    at hle
  refine ⟨by simp [State.places, h], ?_⟩
  intro hm
  have := List.count_pos_iff.mpr hm
  omega

/-- Below the ceiling Acquire on the current snapshot succeeds. -/
theorem mayAcquire_current (hi : Invariant s) (h : s.current = some id) :
    rundownMayAcquire (s.readers id) = true ↔ s.held.count id < 2 ^ 30 := by
  obtain ⟨hp, hs, -⟩ := hi.current_apart h
  rw [hi.word id hp, rundownMayAcquire_word (hi.ceiling id)]
  simp [hs]

/-- The only way a snapshot counts as drained. -/
theorem unheld_of_drained (hi : Invariant s) (h : id ∈ s.places)
    (hd : s.readers id = stopBit) : id ∉ s.held := by
  have hc := hi.ceiling id
  rw [hi.word id h, rundownWord_eq_stopBit (by omega)] at hd
  exact Multiset.count_eq_zero.mp hd.2

end Invariant

/-! ### Every step keeps it -/

theorem invariant_start (r : RuntimeState) (rates : RateTable) :
    Invariant (State.start r rates) where
  located := by
    intro id
    simp only [State.places, State.stopped, State.start, Holder.building, Holder.drained,
      Holder.pending, Option.toList_some, Option.toList_none, List.append_nil]
    rw [List.count_singleton]
    rcases id with _ | id <;> simp
  word := by
    intro id _
    simp [State.start, State.stopped, Holder.drained, Holder.pending, rundownWord_init]
  live := by simp [State.start]
  ceiling := by simp [State.start]
  drained := by simp [State.start]
  unpublished := by simp [State.start]
  opened := by simp [State.start]

theorem invariant_acquire (hi : Invariant s) : Invariant s.acquire := by
  rcases s.acquire_cases with he | ⟨id, hc, hcl, hm, he⟩
  · rwa [he]
  obtain ⟨hp, hns, hnb⟩ := hi.current_apart hc
  have hlt := (hi.mayAcquire_current hc).mp hm
  rw [he]
  refine ⟨hi.located, ?_, ?_, ?_, ?_, ?_, hi.opened⟩
  · intro i hip
    by_cases h : i = id
    · subst h
      have hw := hi.word i hp
      simp only [Function.update_self, Multiset.count_cons_self]
      rw [hw, rundownWord_succ]
      rfl
    · have hw := hi.word i hip
      simp only [Function.update_of_ne h, Multiset.count_cons_of_ne h]
      exact hw
  · intro i hih
    rcases Multiset.mem_cons.mp hih with rfl | hih
    · exact hp
    · exact hi.live i hih
  · intro i
    by_cases h : i = id
    · subst h
      rw [Multiset.count_cons_self]
      omega
    · rw [Multiset.count_cons_of_ne h]
      exact hi.ceiling i
  · intro i hid hih
    rcases Multiset.mem_cons.mp hih with rfl | hih
    · exact hns (by simp [State.stopped]; exact .inr (.inl hid))
    · exact hi.drained i hid hih
  · intro i hib hih
    rcases Multiset.mem_cons.mp hih with rfl | hih
    · exact hnb hib
    · exact hi.unpublished i hib hih

/-- A reader returns its own reference: the word never underflows. -/
theorem invariant_release (hi : Invariant s) (h : id ∈ s.held) :
    rundownUnderflow (s.readers id) = false ∧ Invariant (s.release id) := by
  have hpos := Multiset.one_le_count_iff_mem.mpr h
  have hle := hi.ceiling id
  have hw := hi.word id (hi.live id h)
  obtain ⟨n, hn⟩ : ∃ n, s.held.count id = n + 1 := ⟨s.held.count id - 1, by omega⟩
  rw [hn] at hw hle
  have hsub : ∀ i, i ∈ (s.release id).held → i ∈ s.held :=
    fun i hm => Multiset.mem_of_mem_erase hm
  refine ⟨?_, hi.located, ?_, ?_, ?_, ?_, ?_, hi.opened⟩
  · rw [hw]
    exact rundownUnderflow_word (by omega)
  · intro i hip
    by_cases hie : i = id
    · subst hie
      simp only [State.release, Function.update_self, Multiset.count_erase_self, hn]
      rw [hw, rundownWord_pred]
      rfl
    · simp only [State.release, Function.update_of_ne hie, Multiset.count_erase_of_ne hie]
      exact hi.word i hip
  · exact fun i hih => hi.live i (hsub i hih)
  · exact fun i => (Multiset.count_le_of_le i (Multiset.erase_le id s.held)).trans (hi.ceiling i)
  · exact fun i hid hih => hi.drained i hid (hsub i hih)
  · exact fun i hib hih => hi.unpublished i hib (hsub i hih)

/-- Snapshots change places, some get the stop bit, and some that nobody holds are freed. -/
theorem Invariant.regroup (hi : Invariant s) (ids : List SnapId) (hh : t.held = s.held)
    (hn : t.next = s.next) (hr : t.readers = s.beginStop ids)
    (hc : ∀ i, (t.places ++ t.freed).count i = (s.places ++ s.freed).count i)
    (hf : ∀ i ∈ s.freed, i ∈ t.freed) (hf' : ∀ i ∈ t.freed, i ∈ s.freed ∨ i ∉ s.held)
    (hs : ∀ i ∈ t.places, i ∈ t.stopped ↔ i ∈ s.stopped ∨ i ∈ ids)
    (hd : ∀ i ∈ t.holder.drained, i ∉ s.held) (hb : ∀ i ∈ t.holder.building, i ∉ s.held)
    (ho : t.closed = false → t.current.isSome = true) : Invariant t := by
  have hone : ∀ i, (t.places ++ t.freed).count i ≤ 1 := by
    intro i
    rw [hc, hi.located]
    split <;> omega
  have hback : ∀ i ∈ t.places, i ∈ s.places := by
    intro i hip
    have h1 := hone i
    have hpos := List.count_pos_iff.mpr hip
    rw [List.count_append] at h1
    have hnf : i ∉ s.freed := by
      intro hif
      have := List.count_pos_iff.mpr (hf i hif)
      omega
    have hm : i ∈ s.places ++ s.freed := by
      rw [← List.count_pos_iff, ← hc i, List.count_append]
      omega
    exact (List.mem_append.mp hm).resolve_right hnf
  refine ⟨?_, ?_, ?_, ?_, ?_, ?_, ho⟩
  · intro i
    rw [hc, hi.located, hn]
  · intro i hip
    have hw := hi.word i (hback i hip)
    have hle := hi.ceiling i
    rw [hr, hh]
    unfold State.beginStop
    by_cases hm : i ∈ ids
    · rw [if_pos hm, hw, rundownBeginStop_word (by omega)]
      simp [(hs i hip).mpr (.inr hm)]
    · rw [if_neg hm, hw]
      have hiff : i ∈ t.stopped ↔ i ∈ s.stopped := by simp [hs i hip, hm]
      simp only [hiff]
  · intro i hih
    rw [hh] at hih
    have hip := hi.live i hih
    have hm : i ∈ t.places ++ t.freed := by
      rw [← List.count_pos_iff, hc i, List.count_pos_iff]
      exact List.mem_append_left _ hip
    rcases List.mem_append.mp hm with hm | hm
    · exact hm
    · rcases hf' i hm with hif | hnh
      · exact absurd hif (hi.not_freed hip)
      · exact absurd hih hnh
  · intro i
    rw [hh]
    exact hi.ceiling i
  · intro i hid
    rw [hh]
    exact hd i hid
  · intro i hib
    rw [hh]
    exact hb i hib

@[simp] theorem beginStop_nil : s.beginStop [] = s.readers := by
  funext i
  simp [State.beginStop]

/-- A snapshot the pool hands out for the first time. -/
theorem invariant_begin (hi : Invariant s) (h : s.holder = .idle) :
    Invariant (s.begin req a b) := by
  rcases s.begin_cases req a b with he | ⟨cur, d, -, -, -, -, he⟩
  · rwa [he]
  rw [he]
  have hnew : s.next ∉ s.held := fun hm => absurd (hi.lt_next (hi.live _ hm)) (lt_irrefl _)
  have hne : ∀ i ∈ s.places, i ≠ s.next := fun i hm => (hi.lt_next hm).ne
  have hplaces : ∀ i, i ∈ s.current.toList ∨ i ∈ s.rollbackSlot.toList ∨ i = s.next ∨
      i ∈ s.retire ↔ i = s.next ∨ i ∈ s.places := by
    intro i
    simp only [State.places, State.stopped, h, Holder.building, Holder.drained, Holder.pending,
      List.mem_append, List.not_mem_nil, or_false]
    tauto
  have hidle : s.stopped = s.retire := by
    simp [State.stopped, h, Holder.drained, Holder.pending]
  refine ⟨?_, ?_, ?_, hi.ceiling, ?_, ?_, hi.opened⟩
  · intro i
    have hl := hi.located i
    simp only [State.places, State.stopped, h, Holder.building, Holder.drained, Holder.pending,
      List.count_append, List.count_nil, List.count_singleton] at hl ⊢
    by_cases hin : i = s.next
    · subst hin
      simp at hl ⊢
      omega
    · have hbeq : (s.next == i) = false := beq_eq_false_iff_ne.mpr (Ne.symm hin)
      have hlt : i < s.next + 1 ↔ i < s.next :=
        Nat.lt_add_one_iff.trans ⟨fun hle => lt_of_le_of_ne hle hin, le_of_lt⟩
      rw [if_congr hlt rfl rfl, ← hl]
      simp [hbeq]
  · intro i hip
    have hip' : i = s.next ∨ i ∈ s.places := by
      rw [← hplaces]
      simpa [State.places, State.stopped, Holder.building, Holder.drained, Holder.pending,
        or_assoc] using hip
    have hst : (State.stopped { s with
        snap := Function.update s.snap s.next ⟨d.rules, 0, d.defaultPolicy⟩
        readers := Function.update s.readers s.next 0#32
        next := s.next + 1
        holder := .collect req s.next 0 }) = s.stopped := by
      simp [State.stopped, h, Holder.drained, Holder.pending]
    rw [hst]
    rcases hip' with rfl | hip'
    · have hns : s.next ∉ s.stopped := fun hm =>
        hne s.next (by simp [State.places, hm]) rfl
      simp [Multiset.count_eq_zero.mpr hnew, hns, rundownWord_init]
    · simp only [Function.update_of_ne (hne i hip')]
      exact hi.word i hip'
  · intro i hih
    have := (hplaces i).mpr (.inr (hi.live i hih))
    simpa [State.places, State.stopped, Holder.building, Holder.drained, Holder.pending,
      or_assoc] using this
  · simp [Holder.drained]
  · intro i hib
    rw [List.mem_singleton.mp hib]
    exact hnew

/-- One round of `SkRetireDrain` takes off the list just what is drained. -/
theorem invariant_collect (hi : Invariant s) (h : s.holder = .collect req id k) :
    Invariant (s.collect req id k) := by
  have hperm := List.filter_append_perm
    (fun i => rundownActiveCount (s.readers i) == -1#32) s.retire
  have hret : ∀ i ∈ s.retire, i ∈ s.places := by
    intro i hm
    simp [State.places, State.stopped, hm]
  refine hi.regroup [] rfl rfl beginStop_nil.symm ?_ (fun _ hm => hm) (fun _ => .inl) ?_ ?_ ?_
    hi.opened
  · intro i
    have hcnt := hperm.count_eq i
    simp only [State.places, State.stopped, State.collect, h, Holder.building, Holder.drained,
      Holder.pending, List.count_append, List.count_nil] at hcnt ⊢
    omega
  · intro i _
    have hm := hperm.mem_iff (a := i)
    simp only [State.stopped, State.collect, h, Holder.drained, Holder.pending,
      List.mem_append, List.not_mem_nil, or_false] at hm ⊢
    rw [← hm]
    exact or_comm
  · intro i hd
    obtain ⟨hm, hc⟩ := List.mem_filter.mp hd
    have hw := (rundownActiveCount_eq_neg_one _).mp (beq_iff_eq.mp hc)
    exact hi.unheld_of_drained (hret i hm) hw
  · intro i hb
    exact hi.unpublished i (by rw [h]; exact hb)

/-- The swap of a publication: what it displaces beyond the one slot is stopped and retired. -/
theorem invariant_publish (hi : Invariant s) (h : s.holder = .publish req id) :
    Invariant (s.publish req id) := by
  have hnew : id ∉ s.held := hi.unpublished id (by simp [h, Holder.building])
  have hnew' : ∀ i ∈ [id], i ∉ s.held := by simpa using hnew
  rcases s.publish_cases req id with he | ⟨old, hw, hc, he⟩
  · rw [he]
    refine hi.regroup [] rfl rfl beginStop_nil.symm ?_ (fun _ hm => hm) (fun _ => .inl) ?_
      (by simp [Holder.drained]) hnew' hi.opened
    · intro i
      simp [State.places, State.stopped, h, Holder.building, Holder.drained, Holder.pending]
    · intro i _
      simp [State.stopped, h, Holder.drained, Holder.pending]
  · rw [he]
    refine hi.regroup (s.displaced req old) rfl rfl rfl ?_ (fun _ hm => hm) (fun _ => .inl) ?_
      (by simp [Holder.drained]) (by simp [Holder.building]) (fun _ => rfl)
    · intro i
      cases hq : req.writer.consumesSlot <;>
        simp [State.places, State.stopped, State.displaced, h, hc, hq, Holder.building,
          Holder.drained, Holder.pending, List.count_cons] <;> omega
    · intro i _
      simp [State.stopped, h, Holder.drained, Holder.pending]

theorem invariant_detach (hi : Invariant s) (h : s.holder = .detach) : Invariant s.detach := by
  refine hi.regroup (s.current.toList ++ s.rollbackSlot.toList) rfl rfl rfl ?_
    (fun _ hm => hm) (fun _ => .inl) ?_ (by simp [State.detach, Holder.drained])
    (by simp [State.detach, Holder.building]) nofun
  · intro i
    simp [State.places, State.stopped, State.detach, h, Holder.building, Holder.drained,
      Holder.pending]
    omega
  · intro i _
    simp [State.stopped, State.detach, h, Holder.drained, Holder.pending]

/-- Steps after which every snapshot is where it was, as far as readers are concerned. -/
theorem Invariant.of_holder (hi : Invariant s) {k : Holder} {rates : RateTable}
    {r : RuntimeState} (hb : k.building = s.holder.building)
    (hd : k.drained = s.holder.drained) (hp : k.pending = s.holder.pending) :
    Invariant { s with holder := k, rates := rates, runtime := r } := by
  have hst : State.stopped { s with holder := k, rates := rates, runtime := r } = s.stopped := by
    simp [State.stopped, hd, hp]
  have hpl : State.places { s with holder := k, rates := rates, runtime := r } = s.places := by
    simp [State.places, hst, hb]
  refine ⟨?_, ?_, ?_, hi.ceiling, ?_, ?_, hi.opened⟩
  · rw [hpl]
    exact hi.located
  · rw [hpl, hst]
    exact hi.word
  · rw [hpl]
    exact hi.live
  · rw [hd]
    exact hi.drained
  · rw [hb]
    exact hi.unpublished

theorem invariant_drainNext (hi : Invariant s) {stuck : List SnapId}
    (h : s.holder = .drainNext stuck) : Invariant (s.drainNext stuck) := by
  unfold State.drainNext
  split
  · rename_i i rest hret
    refine hi.regroup [] rfl rfl beginStop_nil.symm ?_ (fun _ hm => hm) (fun _ => .inl) ?_
      (by simp [Holder.drained]) (by simp [Holder.building]) hi.opened
    · intro j
      simp [State.places, State.stopped, h, hret, Holder.building, Holder.drained,
        Holder.pending, List.count_cons]
      omega
    · intro j _
      simp [State.stopped, h, hret, Holder.drained, Holder.pending]
      tauto
  · rename_i hret
    split
    · rename_i hs
      subst hs
      refine hi.regroup [] rfl rfl beginStop_nil.symm ?_ (fun _ hm => hm) (fun _ => .inl) ?_
        (by simp [Holder.drained]) (by simp [Holder.building]) hi.opened
      · intro j
        simp [State.places, State.stopped, h, Holder.building, Holder.drained, Holder.pending]
      · intro j _
        simp [State.stopped, h, Holder.drained, Holder.pending]
    · exact hi.of_holder (by rw [h]; rfl) (by rw [h]; rfl) (by rw [h]; rfl)

theorem invariant_poll (hi : Invariant s) {stuck : List SnapId}
    (h : s.holder = .poll id k stuck) : Invariant (s.poll id k stuck) := by
  have hin : id ∈ s.places := by
    simp [State.places, State.stopped, h, Holder.pending]
  unfold State.poll
  split
  · rename_i hw
    refine hi.regroup [] rfl rfl beginStop_nil.symm ?_ (fun _ hm => hm) (fun _ => .inl) ?_ ?_
      (by simp [Holder.building]) hi.opened
    · intro j
      simp [State.places, State.stopped, h, Holder.building, Holder.drained, Holder.pending,
        List.count_cons]
    · intro j _
      simp [State.stopped, h, Holder.drained, Holder.pending]
    · intro j hj
      rw [List.mem_singleton.mp hj]
      exact hi.unheld_of_drained hin hw
  · split
    · refine hi.regroup [] rfl rfl beginStop_nil.symm ?_ (fun _ hm => hm) (fun _ => .inl) ?_
        (by simp [Holder.drained]) (by simp [Holder.building]) hi.opened
      · intro j
        simp [State.places, State.stopped, h, Holder.building, Holder.drained, Holder.pending,
          List.count_cons]
        omega
      · intro j _
        simp [State.stopped, h, Holder.drained, Holder.pending]
        tauto
    · exact hi.of_holder (by rw [h]; rfl) (by rw [h]; rfl) (by rw [h]; rfl)

/-- A snapshot nobody holds goes back to the pool. -/
theorem Invariant.free (hi : Invariant s) {k : Holder} (hu : id ∉ s.held)
    (hb : ∀ i, k.building.count i + k.drained.count i + k.pending.count i + [id].count i =
      s.holder.building.count i + s.holder.drained.count i + s.holder.pending.count i)
    (hs : ∀ i, i ≠ id → (i ∈ k.drained ++ k.pending ↔
      i ∈ s.holder.drained ++ s.holder.pending))
    (hd : ∀ i ∈ k.drained, i ∈ s.holder.drained)
    (hbu : ∀ i ∈ k.building, i ∈ s.holder.building) :
    Invariant { s with freed := id :: s.freed, holder := k } := by
  have hcount : ∀ i, (State.places { s with freed := id :: s.freed, holder := k } ++
      (id :: s.freed)).count i = (s.places ++ s.freed).count i := by
    intro i
    have := hb i
    simp only [State.places, State.stopped, List.count_append, List.count_cons,
      List.count_nil] at this ⊢
    omega
  refine hi.regroup [] rfl rfl beginStop_nil.symm hcount
    (fun _ hm => List.mem_cons_of_mem _ hm) ?_ ?_ (fun i hm => hi.drained i (hd i hm))
    (fun i hm => hi.unpublished i (hbu i hm)) hi.opened
  · intro i hm
    rcases List.mem_cons.mp hm with rfl | hm
    · exact .inr hu
    · exact .inl hm
  · intro i hip
    have hne : i ≠ id := by
      rintro rfl
      have h1 := hcount i
      rw [hi.located, List.count_append, List.count_cons_self] at h1
      have := List.count_pos_iff.mpr hip
      split at h1 <;> omega
    have hmem := hs i hne
    simp only [State.stopped, List.append_assoc, List.mem_append, List.not_mem_nil, or_false]
      at hmem ⊢
    rw [hmem]

theorem invariant_advance (hi : Invariant s) : Invariant s.advance := by
  unfold State.advance
  split
  · exact hi
  · rename_i h
    exact invariant_collect hi h
  · rename_i req id k i is rem h
    refine hi.free (hi.drained i (by simp [h, Holder.drained])) ?_ ?_ ?_ ?_
    · intro j
      simp [h, Holder.building, Holder.drained, Holder.pending, List.count_cons]
      omega
    · intro j hne
      simp [h, Holder.drained, Holder.pending, hne]
    · intro j hj
      simp only [Holder.drained] at hj
      simp [h, Holder.drained, hj]
    · intro j hj
      simpa [h, Holder.building] using hj
  · rename_i h
    split
    · exact hi.of_holder (by rw [h]; rfl) (by rw [h]; rfl) (by rw [h]; rfl)
    · exact hi.of_holder (by rw [h]; rfl) (by rw [h]; rfl) (by rw [h]; rfl)
  · rename_i h
    exact invariant_publish hi h
  · rename_i id h
    refine hi.free (hi.unpublished id (by simp [h, Holder.building])) ?_ ?_ ?_ ?_
    · intro j
      simp [h, Holder.building, Holder.drained, Holder.pending]
    · intro j _
      simp [h, Holder.drained, Holder.pending]
    · simp [Holder.drained]
    · simp [Holder.building]
  · rename_i h
    exact hi.of_holder (by rw [h]; rfl) (by rw [h]; rfl) (by rw [h]; rfl)
  · rename_i h
    exact hi.of_holder (by rw [h]; rfl) (by rw [h]; rfl) (by rw [h]; rfl)
  · rename_i h
    exact invariant_detach hi h
  · rename_i h
    exact invariant_drainNext hi h
  · rename_i h
    exact invariant_poll hi h
  · rename_i id stuck h
    refine hi.free (hi.drained id (by simp [h, Holder.drained])) ?_ ?_ ?_ ?_
    · intro j
      simp [h, Holder.building, Holder.drained, Holder.pending]
      omega
    · intro j hne
      simp [h, Holder.drained, Holder.pending, hne]
    · simp [Holder.drained]
    · simp [Holder.building]
  · rename_i stuck h
    refine hi.regroup [] rfl rfl beginStop_nil.symm ?_ (fun _ hm => hm) (fun _ => .inl) ?_
      (by simp [Holder.drained]) (by simp [Holder.building]) hi.opened
    · intro j
      simp [State.places, State.stopped, h, Holder.building, Holder.drained, Holder.pending]
    · intro j _
      simp [State.stopped, h, Holder.drained, Holder.pending]

theorem invariant_step (h : Step s act t) (hi : Invariant s) : Invariant t := by
  cases h with
  | acquire => exact invariant_acquire hi
  | release hm => exact (invariant_release hi hm).2
  | evaluate => exact hi.of_holder rfl rfl rfl
  | call hidle => exact invariant_begin hi hidle
  | shutdown hidle =>
    rcases s.shutdown_cases with he | he
    · rwa [he]
    · rw [he]
      exact hi.of_holder (by rw [hidle]; rfl) (by rw [hidle]; rfl) (by rw [hidle]; rfl)
  | advance => exact invariant_advance hi
  | runtime => exact hi.of_holder rfl rfl rfl

theorem invariant_reachable (h : system.Reachable s) : Invariant s := by
  refine h.invariant ?_ invariant_step
  rintro s ⟨r, rates, rfl⟩
  exact invariant_start r rates

/-! ### What is published stays as it is -/

/-- Allocated, and out of the hands of the writer that has built it. -/
def State.Published (s : State) (id : SnapId) : Prop := id < s.next ∧ id ∉ s.holder.building

/-- The ways in which the building of snapshots goes on in a step of the holder. -/
theorem advance_snap (hp : s.Published id) :
    s.advance.Published id ∧ s.advance.snap id = s.snap id := by
  obtain ⟨hlt, hnb⟩ := hp
  unfold State.advance
  split
  · exact ⟨⟨hlt, hnb⟩, rfl⟩
  · rename_i h
    rw [h] at hnb
    exact ⟨⟨hlt, hnb⟩, rfl⟩
  · rename_i h
    rw [h] at hnb
    exact ⟨⟨hlt, hnb⟩, rfl⟩
  · rename_i h
    rw [h] at hnb
    split <;> exact ⟨⟨hlt, hnb⟩, rfl⟩
  · rename_i req i h
    rw [h] at hnb
    rcases s.publish_cases req i with he | ⟨old, -, -, he⟩
    · rw [he]
      exact ⟨⟨hlt, hnb⟩, rfl⟩
    · rw [he]
      refine ⟨⟨hlt, by simp [Holder.building]⟩, ?_⟩
      exact Function.update_of_ne (by simpa [Holder.building] using hnb) _ _
  · exact ⟨⟨hlt, by simp [Holder.building]⟩, rfl⟩
  · exact ⟨⟨hlt, by simp [Holder.building]⟩, rfl⟩
  · exact ⟨⟨hlt, by simp [Holder.building]⟩, rfl⟩
  · exact ⟨⟨hlt, by simp [State.detach, Holder.building]⟩, rfl⟩
  · unfold State.drainNext
    split
    · exact ⟨⟨hlt, by simp [Holder.building]⟩, rfl⟩
    · split <;> exact ⟨⟨hlt, by simp [Holder.building]⟩, rfl⟩
  · unfold State.poll
    split
    · exact ⟨⟨hlt, by simp [Holder.building]⟩, rfl⟩
    · split <;> exact ⟨⟨hlt, by simp [Holder.building]⟩, rfl⟩
  · exact ⟨⟨hlt, by simp [Holder.building]⟩, rfl⟩
  · exact ⟨⟨hlt, by simp [Holder.building]⟩, rfl⟩

theorem snap_step (h : Step s act t) (hp : s.Published id) :
    t.Published id ∧ t.snap id = s.snap id := by
  cases h with
  | acquire =>
    rcases s.acquire_cases with he | ⟨i, -, -, -, he⟩ <;> rw [he] <;> exact ⟨hp, rfl⟩
  | release | evaluate | runtime => exact ⟨hp, rfl⟩
  | call =>
    rename_i req a b hidle
    rcases s.begin_cases req a b with he | ⟨cur, d, -, -, -, -, he⟩
    · rw [he]
      exact ⟨hp, rfl⟩
    · rw [he]
      have hne : id ≠ s.next := hp.1.ne
      exact ⟨⟨hp.1.trans (Nat.lt_succ_self _), by simpa [Holder.building] using hne⟩,
        Function.update_of_ne hne _ _⟩
  | shutdown =>
    rcases s.shutdown_cases with he | he
    · rw [he]
      exact ⟨hp, rfl⟩
    · rw [he]
      exact ⟨⟨hp.1, by simp [Holder.building]⟩, rfl⟩
  | advance => exact advance_snap hp

theorem snap_run (h : system.Run s as t) (hp : s.Published id) :
    t.Published id ∧ t.snap id = s.snap id := by
  induction h with
  | refl => exact ⟨hp, rfl⟩
  | head hst _ ih =>
    obtain ⟨hp', he⟩ := snap_step hst hp
    obtain ⟨hp'', he'⟩ := ih hp'
    exact ⟨hp'', he'.trans he⟩

/-! ### The contract -/

theorem Invariant.no_stopBit (hi : Invariant s)
    (h : s.current = some id ∨ s.rollbackSlot = some id) : (s.readers id).msb = false := by
  obtain ⟨hp, hs⟩ : id ∈ s.places ∧ id ∉ s.stopped := by
    rcases h with h | h
    · obtain ⟨hp, hs, -⟩ := hi.current_apart h
      exact ⟨hp, hs⟩
    · exact hi.rollbackSlot_apart h
  have hle := hi.ceiling id
  have hn : (s.readers id).toNat = s.held.count id := by
    rw [hi.word id hp, rundownWord_toNat (by omega)]
    simp [hs]
  rw [BitVec.msb_eq_false_iff_two_mul_lt, hn]
  omega

/-- No snapshot is freed under a reader or twice, every one allocated is in one place until it
is freed, the stop bit is never on the current one or the one in the slot, so that Acquire gets
its reference below the ceiling, and what is published never changes. -/
theorem reclaim_safe (h : system.Reachable s) :
    (∀ id ∈ s.held, id ∉ s.freed) ∧ s.freed.Nodup ∧
      (∀ id, (s.places ++ s.freed).count id = if id < s.next then 1 else 0) ∧
      (∀ id, s.current = some id ∨ s.rollbackSlot = some id → (s.readers id).msb = false) ∧
      (∀ id, s.current = some id →
        (rundownMayAcquire (s.readers id) = true ↔ s.held.count id < 2 ^ 30)) ∧
      ∀ as t, system.Run s as t → ∀ id, s.Published id → t.snap id = s.snap id := by
  have hi := invariant_reachable h
  refine ⟨fun id hm => hi.not_freed (hi.live id hm), ?_, hi.located,
    fun id => hi.no_stopBit, fun id => hi.mayAcquire_current,
    fun as t hr id hp => (snap_run hr hp).2⟩
  refine List.nodup_iff_count_le_one.mpr fun id => ?_
  have hl := hi.located id
  rw [List.count_append] at hl
  split at hl <;> omega

/-- A reader has taken the first snapshot and a Clear has moved it to the slot. -/
def readerInSlot : State :=
  ((((State.start .active rateTableEmpty).acquire.begin .clear true true).advance).advance).advance

theorem readerInSlot_reachable : system.Reachable readerInSlot := by
  have hinit : system.Reachable (.start .active rateTableEmpty) := .of_init ⟨_, _, rfl⟩
  have hacquire := hinit.step .acquire
  have hcall : system.Reachable ((State.start .active rateTableEmpty).acquire.begin .clear
      true true) := hacquire.step (.call rfl)
  exact ((hcall.step .advance).step .advance).step .advance

theorem reclaim_safe_readerInSlot :
    readerInSlot.current = some 1 ∧ readerInSlot.rollbackSlot = some 0 ∧
      readerInSlot.held = {0} ∧ (∀ id ∈ readerInSlot.held, id ∉ readerInSlot.freed) ∧
      (readerInSlot.readers 0).msb = false := by
  obtain ⟨hheld, -, -, hstop, -⟩ := reclaim_safe readerInSlot_reachable
  exact ⟨rfl, rfl, rfl, hheld, hstop 0 (.inr rfl)⟩

end Sentinel.Concurrent
