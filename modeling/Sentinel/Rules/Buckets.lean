import Sentinel.Rules.Engine

/-! Which rules have a bucket, through evaluations and resets. -/
namespace Sentinel

variable {rule : Rule} {now id x : UInt64} {t t' : RateTable} {b : Bool}
  {is : List (Fin rateTableSize)} {slot : Option (Fin rateTableSize)} {i j k : Fin rateTableSize}
  {snap : Snapshot} {tuple : ClassifyTuple} {out : Verdict}

namespace RateTable

/-- Some slot is in use for the id. -/
def Has (t : RateTable) (id : UInt64) : Prop := ∃ i : Fin rateTableSize, t[i].Holds id

/-- No id has two slots. -/
def Unique (t : RateTable) : Prop :=
  ∀ (id : UInt64) (i j : Fin rateTableSize), t[i].Holds id → t[j].Holds id → i = j

/-- The next evaluation for the id opens a bucket. -/
def Opens (t : RateTable) (id : UInt64) : Prop :=
  ¬ t.Has id ∧ ∃ i : Fin rateTableSize, t[i].inUse = false

instance (t : RateTable) (id : UInt64) : Decidable (t.Has id) :=
  inferInstanceAs (Decidable (∃ _, _))

theorem not_has_empty : ¬ rateTableEmpty.Has id := by
  rintro ⟨i, hi, -⟩
  rw [getElem_rateTableEmpty] at hi
  cases hi

theorem unique_empty : rateTableEmpty.Unique :=
  fun _ i _ hi _ => absurd ⟨i, hi⟩ not_has_empty

end RateTable

theorem not_holds_free : ¬ rateEntryFree.Holds id := fun h => absurd h.1 (by decide)

/-! ### An evaluation -/

/-- The search finds the id's own slot where it has one. -/
theorem rateSlot_own (h : rateSlot t id is slot = some k) :
    t[k].Holds id ∨ ∀ i ∈ is, ¬ t[i].Holds id := by
  induction is generalizing slot with
  | nil => exact .inr nofun
  | cons i is ih =>
    rw [rateSlot] at h
    by_cases hi : t[i].Holds id
    · rw [if_pos hi] at h
      cases h
      exact .inl hi
    · rw [if_neg hi] at h
      rcases ih h with hk | hn
      · exact .inl hk
      · exact .inr (List.forall_mem_cons.mpr ⟨hi, hn⟩)

/-- Where there is a free slot the search finds one. -/
theorem rateSlot_none (h : rateSlot t id is slot = none) :
    slot = none ∧ ∀ i ∈ is, t[i].inUse = true := by
  induction is generalizing slot with
  | nil => exact ⟨h, nofun⟩
  | cons i is ih =>
    rw [rateSlot] at h
    by_cases hi : t[i].Holds id
    · rw [if_pos hi] at h
      cases h
    · rw [if_neg hi] at h
      obtain ⟨hs, hall⟩ := ih h
      split at hs
      · cases hs
      · rename_i hfree
        subst hs
        exact ⟨rfl, List.forall_mem_cons.mpr ⟨by simpa using hfree, hall⟩⟩

/-- The slot found is the id's own, or free and the id has none. -/
theorem rateSlot_cases (h : rateSlot t id (List.finRange rateTableSize) none = some k) :
    t[k].Holds id ∨ t[k].inUse = false ∧ ¬ t.Has id := by
  rcases rateSlot_own h with hk | hn
  · exact .inl hk
  · right
    have hnone : ¬ t.Has id := fun ⟨i, hi⟩ => hn i (List.mem_finRange i) hi
    refine ⟨?_, hnone⟩
    cases hu : t[k].inUse with
    | false => rfl
    | true => exact absurd ⟨k, hu, rateSlot_spec (by simp) h hu⟩ hnone

/-- One slot is written, for the rule's own id. -/
theorem rateAllow_cases (h : rateAllow rule now t = some (b, t')) : t' = t ∨
    ∃ (k : Fin rateTableSize) (e : RateEntry), t' = t.set k e ∧ e.Holds rule.ruleId ∧
      (t[k].Holds rule.ruleId ∨ t[k].inUse = false ∧ ¬ t.Has rule.ruleId) := by
  unfold rateAllow at h
  split at h
  · cases h
    exact .inl rfl
  · rename_i k hk
    obtain ⟨e, he, hb⟩ := Option.map_eq_some_iff.mp h
    cases hb
    have hh := rateTake_holds (rateRefill_holds he (rateOpen_spec (rateSlot_spec (by simp) hk)))
    exact .inr ⟨k, _, rfl, hh, rateSlot_cases hk⟩

/-- An evaluation opens no bucket but that of the rule hit. -/
theorem rateAllow_has (h : rateAllow rule now t = some (b, t')) (hx : t'.Has x) :
    t.Has x ∨ x = rule.ruleId ∧ t.Opens x := by
  rcases rateAllow_cases h with rfl | ⟨k, e, rfl, he, hk⟩
  · exact .inl hx
  obtain ⟨j, hj⟩ := hx
  rw [getElem_set_slot] at hj
  split at hj
  · rw [← hj.2, he.2]
    rcases hk with hk | ⟨hfree, hn⟩
    · exact .inl ⟨k, hk⟩
    · exact .inr ⟨rfl, hn, k, hfree⟩
  · exact .inl ⟨j, hj⟩

/-- It writes the rule's own slot or, where there is none, a free one. -/
theorem rateAllow_unique (h : rateAllow rule now t = some (b, t')) (ht : t.Unique) :
    t'.Unique := by
  rcases rateAllow_cases h with rfl | ⟨k, e, rfl, he, hk⟩
  · exact ht
  have hown : ∀ j : Fin rateTableSize, j ≠ k → ¬ t[j].Holds rule.ruleId := by
    intro j hj hh
    rcases hk with hk | ⟨-, hn⟩
    · exact hj (ht _ _ _ hh hk)
    · exact hn ⟨j, hh⟩
  intro id i j hi hj
  rw [getElem_set_slot] at hi hj
  by_cases hik : k = i <;> by_cases hjk : k = j
  · exact hik.symm.trans hjk
  · rw [if_pos hik] at hi
    rw [if_neg hjk, ← hi.2, he.2] at hj
    exact absurd hj (hown j (Ne.symm hjk))
  · rw [if_pos hjk] at hj
    rw [if_neg hik, ← hj.2, he.2] at hi
    exact absurd hi (hown i (Ne.symm hik))
  · rw [if_neg hik] at hi
    rw [if_neg hjk] at hj
    exact ht id i j hi hj

theorem ruleVerdict_cases (h : ruleVerdict (some snap) tuple now t = some (out, t')) : t' = t ∨
    ∃ hit b, ruleHit (some snap) tuple = some hit ∧ hit.action = ruleActionRateLimit ∧
      rateAllow hit now t = some (b, t') := by
  unfold ruleVerdict at h
  split at h
  · rename_i hit hh
    split at h
    · rename_i ha
      obtain ⟨r, hr, he⟩ := Option.map_eq_some_iff.mp h
      cases he
      exact .inr ⟨hit, r.1, hh, ha, hr⟩
    · cases h
      exact .inl rfl
  · cases h
    exact .inl rfl

/-- The rule hit is one of the snapshot, enabled and matched. -/
theorem ruleHit_spec {hit : Rule} (h : ruleHit (some snap) tuple = some hit) :
    hit ∈ snap.rules ∧ ruleMatch hit tuple = true :=
  ⟨List.mem_of_find?_eq_some h, List.find?_some (p := fun r => ruleMatch r tuple) h⟩

theorem ruleVerdict_unique (h : ruleVerdict (some snap) tuple now t = some (out, t'))
    (ht : t.Unique) : t'.Unique := by
  rcases ruleVerdict_cases h with rfl | ⟨hit, b, -, -, hr⟩
  · exact ht
  · exact rateAllow_unique hr ht

/-- A bucket an evaluation has opened is that of the rate limit hit. -/
theorem ruleVerdict_has (h : ruleVerdict (some snap) tuple now t = some (out, t'))
    (hx : t'.Has x) : t.Has x ∨ ∃ hit, ruleHit (some snap) tuple = some hit ∧ hit.ruleId = x ∧
      hit.action = ruleActionRateLimit ∧ t.Opens x := by
  rcases ruleVerdict_cases h with rfl | ⟨hit, b, hh, ha, hr⟩
  · exact .inl hx
  · rcases rateAllow_has hr hx with ht | ⟨rfl, ho⟩
    · exact .inl ht
    · exact .inr ⟨hit, hh, rfl, ha, ho⟩

/-- The table is full and the evaluation goes by unlimited, or it takes its token from a full
bucket in a slot that was free. -/
def StartsFull (rule : Rule) (now : UInt64) (t : RateTable) : Prop :=
  (∀ i : Fin rateTableSize, t[i].inUse = true) ∧ rateAllow rule now t = some (true, t) ∨
  ∃ k : Fin rateTableSize, t[k].inUse = false ∧
    let e := rateTake ⟨rule.ruleId, rule.burst.toUInt64, now, true⟩
    rateAllow rule now t = some (e.1, t.set k e.2)

/-- Without a bucket of its own a rule starts from a full one. -/
theorem startsFull_of_not_has (h : ¬ t.Has rule.ruleId) : StartsFull rule now t := by
  cases hs : rateSlot t rule.ruleId (List.finRange rateTableSize) none with
  | none =>
    left
    exact ⟨fun i => (rateSlot_none hs).2 i (List.mem_finRange i), by simp [rateAllow, hs]⟩
  | some k =>
    right
    rcases rateSlot_cases hs with hk | ⟨hfree, -⟩
    · exact absurd ⟨k, hk⟩ h
    · refine ⟨k, hfree, ?_⟩
      have hnow : ¬ now < now := fun hlt => Nat.lt_irrefl _ (UInt64.lt_iff_toNat_lt.mp hlt)
      simp only [rateAllow, hs, rateOpen, hfree, rateRefill]
      simp [hnow]

/-! ### A reset -/

theorem ruleRateReset_cases (id : UInt64) (t : RateTable) :
    (ruleRateReset id t = t ∧ ¬ t.Has id) ∨
    ∃ k : Fin rateTableSize, t[k].Holds id ∧ ruleRateReset id t = t.set k rateEntryFree := by
  unfold ruleRateReset
  split
  · rename_i hf
    left
    refine ⟨rfl, ?_⟩
    rintro ⟨i, hi⟩
    have := List.find?_eq_none.mp hf i (List.mem_finRange i)
    exact this (decide_eq_true hi)
  · rename_i k hf
    have hk := List.find?_some hf
    exact .inr ⟨k, by simpa using hk, rfl⟩

theorem ruleRateReset_unique (h : t.Unique) : (ruleRateReset id t).Unique := by
  rcases ruleRateReset_cases id t with ⟨he, -⟩ | ⟨k, hk, he⟩
  · rwa [he]
  rw [he]
  intro y i j hi hj
  rw [getElem_set_slot] at hi hj
  split at hi
  · exact absurd hi not_holds_free
  · split at hj
    · exact absurd hj not_holds_free
    · exact h y i j hi hj

/-- A reset takes the bucket of its id and no other. -/
theorem ruleRateReset_has (h : t.Unique) :
    (ruleRateReset id t).Has x ↔ t.Has x ∧ x ≠ id := by
  rcases ruleRateReset_cases id t with ⟨he, hn⟩ | ⟨k, hk, he⟩
  · rw [he]
    refine ⟨fun hx => ⟨hx, ?_⟩, And.left⟩
    rintro rfl
    exact hn hx
  rw [he]
  constructor
  · rintro ⟨i, hi⟩
    rw [getElem_set_slot] at hi
    split at hi
    · exact absurd hi not_holds_free
    · rename_i hik
      refine ⟨⟨i, hi⟩, ?_⟩
      rintro rfl
      exact hik (h _ _ _ hk hi)
  · rintro ⟨⟨i, hi⟩, hne⟩
    refine ⟨i, ?_⟩
    rw [getElem_set_slot, if_neg]
    · exact hi
    · rintro rfl
      exact hne (hi.2.symm.trans hk.2)

end Sentinel
