import Sentinel.Store.Contents

/-! The snapshots that have been current, in the order of their publication. -/
namespace Sentinel.Concurrent

open Transition

variable {s t : State} {act : Action} {as : List Action} {req : Request} {i j id old : SnapId}

/-- Addresses grow with the publications, and readers hold nothing but published snapshots. -/
structure Timeline (s : State) : Prop where
  sorted : s.published.Pairwise (· > ·)
  head : ∀ c, s.current = some c → s.published.head? = some c
  building : ∀ id ∈ s.holder.building, ∀ j ∈ s.published, j < id
  lt_next : ∀ j ∈ s.published, j < s.next
  held : ∀ i ∈ s.held, i ∈ s.published

namespace Timeline

theorem current_mem (h : Timeline s) (hc : s.current = some i) : i ∈ s.published :=
  List.mem_of_mem_head? (h.head i hc)

/-- Nothing published is newer than the current snapshot. -/
theorem le_current (h : Timeline s) (hc : s.current = some i) (hj : j ∈ s.published) : j ≤ i := by
  have hs := h.sorted
  have hh := h.head i hc
  cases hp : s.published with
  | nil =>
    rw [hp] at hj
    cases hj
  | cons k rest =>
    rw [hp] at hj hs hh
    cases hh
    rcases List.mem_cons.mp hj with rfl | hj
    · exact Nat.le_refl _
    · exact Nat.le_of_lt ((List.pairwise_cons.mp hs).1 j hj)

theorem published (h : Timeline s) (hj : j ∈ s.published) : s.Published j :=
  ⟨h.lt_next j hj, fun hb => Nat.lt_irrefl _ (h.building j hb j hj)⟩

end Timeline

/-- A snapshot under construction was so before, or has just been allocated. -/
theorem building_step (h : Step s act t) (hi : i ∈ t.holder.building) :
    i ∈ s.holder.building ∨ i = s.next := by
  cases h with
  | acquire =>
    rcases s.acquire_cases with he | ⟨c, -, -, -, he⟩ <;> rw [he] at hi <;> exact .inl hi
  | release | evaluate | runtime => exact .inl hi
  | call =>
    rename_i req a b hidle
    rcases s.begin_cases req a b with he | ⟨c, d, -, -, -, -, he⟩ <;> rw [he] at hi
    · exact .inl hi
    · exact .inr (List.mem_singleton.mp hi)
  | shutdown =>
    rcases s.shutdown_cases with he | he <;> rw [he] at hi
    · exact .inl hi
    · cases hi
  | advance =>
    left
    unfold State.advance at hi
    split at hi
    case h_1 => exact hi
    case h_2 h =>
      rw [h]
      exact hi
    case h_3 h =>
      rw [h]
      exact hi
    case h_4 h =>
      rw [h]
      split at hi <;> exact hi
    case h_5 req id h =>
      rw [h]
      rcases s.publish_cases req id with he | ⟨c, -, -, he⟩ <;> rw [he] at hi
      · exact hi
      · cases hi
    case h_10 =>
      unfold State.drainNext at hi
      split at hi
      · cases hi
      · split at hi <;> cases hi
    case h_11 =>
      unfold State.poll at hi
      split at hi
      · cases hi
      · split at hi <;> cases hi
    all_goals cases hi

/-- The holder of the lock touches no reader. -/
theorem advance_held (s : State) : s.advance.held = s.held := by
  unfold State.advance
  split
  case h_4 => split <;> rfl
  case h_5 req id h =>
    rcases s.publish_cases req id with he | ⟨old, -, -, he⟩ <;> rw [he]
  case h_10 =>
    unfold State.drainNext
    split
    · rfl
    · split <;> rfl
  case h_11 =>
    unfold State.poll
    split
    · rfl
    · split <;> rfl
  all_goals rfl

/-- A reader gets a reference to the current snapshot only. -/
theorem held_step (h : Step s act t) (hi : i ∈ t.held) : i ∈ s.held ∨ s.current = some i := by
  cases h with
  | acquire =>
    rcases s.acquire_cases with he | ⟨c, hc, -, -, he⟩ <;> rw [he] at hi
    · exact .inl hi
    · rcases Multiset.mem_cons.mp hi with rfl | hi
      · exact .inr hc
      · exact .inl hi
  | release => exact .inl (Multiset.mem_of_mem_erase hi)
  | evaluate | runtime => exact .inl hi
  | call =>
    rename_i req a b hidle
    rcases s.begin_cases req a b with he | ⟨c, d, -, -, -, -, he⟩ <;> rw [he] at hi <;>
      exact .inl hi
  | shutdown =>
    rcases s.shutdown_cases with he | he <;> rw [he] at hi <;> exact .inl hi
  | advance => exact .inl ((advance_held s) ▸ hi)

theorem timeline_start (r : RuntimeState) (rates : RateTable) :
    Timeline (State.start r rates) where
  sorted := List.pairwise_singleton _ _
  head c h := by
    cases h
    rfl
  building id h := by cases h
  lt_next j h := by
    rw [List.mem_singleton.mp h]
    exact Nat.zero_lt_one
  held i h := absurd h (Multiset.notMem_zero i)

theorem timeline_step (h : Step s act t) (hi : Invariant s) (ht : Timeline s) : Timeline t := by
  have hheld : ∀ i ∈ t.held, i ∈ s.published := by
    intro i hm
    rcases held_step h hm with hm | hc
    · exact ht.held i hm
    · exact ht.current_mem hc
  rcases step_cases h with ⟨-, req, id, old, hp⟩ | ⟨-, hd, rfl⟩ | ⟨hcur, -, hn, -, hpub⟩
  · have hb : id ∈ s.holder.building := by
      rw [hp.holder]
      exact List.mem_singleton_self id
    have hlt : id < s.next := hi.lt_next (by simp [State.places, hb])
    refine ⟨?_, ?_, ?_, ?_, ?_⟩
    · rw [hp.published]
      exact List.pairwise_cons.mpr ⟨ht.building id hb, ht.sorted⟩
    · intro c hc
      rw [hp.published, List.head?_cons]
      exact hp.current.symm.trans hc
    · intro k hk
      rw [hp.resets] at hk
      cases hk
    · intro j hj
      rw [hp.published] at hj
      rw [hp.next]
      rcases List.mem_cons.mp hj with rfl | hj
      · exact hlt
      · exact ht.lt_next j hj
    · intro i hm
      rw [hp.published]
      exact List.mem_cons_of_mem _ (hheld i hm)
  · refine ⟨ht.sorted, ?_, ?_, ht.lt_next, ht.held⟩
    · intro c hc
      cases hc
    · intro k hk
      cases hk
  · refine ⟨hpub ▸ ht.sorted, ?_, ?_, ?_, hpub ▸ hheld⟩
    · intro c hc
      rw [hpub]
      exact ht.head c (hcur.symm.trans hc)
    · intro k hk j hj
      rw [hpub] at hj
      rcases building_step h hk with hk | rfl
      · exact ht.building k hk j hj
      · exact ht.lt_next j hj
    · intro j hj
      rw [hpub] at hj
      exact (ht.lt_next j hj).trans_le hn

theorem timeline_reachable (h : system.Reachable s) : Invariant s ∧ Timeline s := by
  have hinit : ∀ {s}, system.init s → Invariant s ∧ Timeline s := by
    rintro s ⟨r, rates, rfl⟩
    exact ⟨invariant_start r rates, timeline_start r rates⟩
  have hstep : ∀ {s act t}, system.step s act t → Invariant s ∧ Timeline s →
      Invariant t ∧ Timeline t := by
    rintro s act t hst ⟨hi, ht⟩
    exact ⟨invariant_step hst hi, timeline_step hst hi ht⟩
  exact h.invariant (I := fun s => Invariant s ∧ Timeline s) hinit hstep

/-- What has been current stays on record. -/
theorem published_step (h : Step s act t) : ∃ newer, t.published = newer ++ s.published := by
  rcases step_cases h with ⟨-, req, id, old, hp⟩ | ⟨-, -, rfl⟩ | ⟨-, -, -, -, hpub⟩
  · exact ⟨[id], hp.published⟩
  · exact ⟨[], rfl⟩
  · exact ⟨[], hpub⟩

end Sentinel.Concurrent
