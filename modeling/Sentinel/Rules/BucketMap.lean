import Sentinel.General.Slots
import Sentinel.Rules.RateBound

/-! `g_RateTable` as a finite map from the ids of rules to their buckets. -/
namespace Sentinel

open Transition Slots

/-- Token buckets under the ids of their rules. -/
abbrev RateMap := Finmap fun _ : UInt64 => RateEntry

namespace RateMap

/-- A rate limiter with room for so many buckets; without room a connection goes by unlimited. -/
def allow (rule : Rule) (now : UInt64) (m : RateMap) : Option (Bool × RateMap) :=
  match m.lookup rule.ruleId with
  | some e =>
    (rateRefill rule now e).map fun e => ((rateTake e).1, m.insert rule.ruleId (rateTake e).2)
  | none =>
    let full := rateTake ⟨rule.ruleId, rule.burst.toUInt64, now, true⟩
    if m.keys.card < rateTableSize then some (full.1, m.insert rule.ruleId full.2)
    else some (true, m)

inductive Step : RateMap → RateUse → RateMap → Prop where
  | allow {m m' : RateMap} {rule : Rule} {now : UInt64} {b : Bool}
      (h : m.allow rule now = some (b, m')) : Step m (.allow rule now b) m'
  | reset {m : RateMap} {ruleId : UInt64} : Step m (.reset ruleId) (m.erase ruleId)

def system : System RateMap RateUse where
  init m := m = ∅
  step := Step

end RateMap

/-- The rule that a call is about. -/
def RateUse.ruleId : RateUse → UInt64
  | .allow rule _ _ => rule.ruleId
  | .reset ruleId => ruleId

namespace RateTable

def slot (t : RateTable) (i : Fin rateTableSize) : Option RateEntry :=
  if t[i].inUse then some t[i] else none

/-- The slots in use under their ids. -/
def buckets (t : RateTable) : RateMap := contents RateEntry.ruleId t.slot

variable {t : RateTable} {e : RateEntry} {i k : Fin rateTableSize} {id : UInt64}

theorem slot_eq_some : t.slot i = some e ↔ t[i] = e ∧ t[i].inUse = true := by
  rw [slot]
  split
  · rename_i hi
    simp [hi]
  · rename_i hi
    simp [hi]

theorem slot_eq_none : t.slot i = none ↔ t[i].inUse = false := by
  simp [slot]

theorem slot_set :
    (t.set k e).slot = Function.update t.slot k (if e.inUse then some e else none) := by
  funext i
  rw [slot, getElem_set_slot, Function.update_apply]
  by_cases hik : i = k
  · rw [if_pos hik, if_pos hik.symm]
  · rw [if_neg hik, if_neg (Ne.symm hik), slot]

/-- A slot that holds an id, as a record under that key. -/
theorem slot_holds : (t.slot i = some e ∧ e.ruleId = id) ↔ t[i].Holds id ∧ t[i] = e := by
  rw [slot_eq_some]
  constructor
  · rintro ⟨⟨rfl, hi⟩, hid⟩
    exact ⟨⟨hi, hid⟩, rfl⟩
  · rintro ⟨⟨hi, hid⟩, rfl⟩
    exact ⟨⟨rfl, hi⟩, hid⟩

theorem Unique.slots (h : t.Unique) : Slots.Unique RateEntry.ruleId t.slot := by
  intro i j a b hi hj hab
  obtain ⟨hia, -⟩ := slot_holds.mp ⟨hi, hab⟩
  obtain ⟨hjb, -⟩ := slot_holds.mp ⟨hj, rfl⟩
  exact h b.ruleId i j hia hjb

theorem lookup_buckets (h : t.Unique) :
    t.buckets.lookup id = some e ↔ ∃ i : Fin rateTableSize, t[i].Holds id ∧ t[i] = e := by
  rw [buckets, lookup_contents h.slots]
  exact exists_congr fun _ => slot_holds

theorem lookup_buckets_eq_none (h : t.Unique) : t.buckets.lookup id = none ↔ ¬ t.Has id := by
  rw [Option.eq_none_iff_forall_ne_some]
  constructor
  · rintro hn ⟨i, hi⟩
    exact hn t[i] ((lookup_buckets h).mpr ⟨i, hi, rfl⟩)
  · intro hn e he
    obtain ⟨i, hi, -⟩ := (lookup_buckets h).mp he
    exact hn ⟨i, hi⟩

theorem card_buckets_lt (h : t.Unique) :
    t.buckets.keys.card < rateTableSize ↔ ∃ i : Fin rateTableSize, t[i].inUse = false := by
  rw [buckets, card_contents_lt h.slots]
  exact exists_congr fun _ => slot_eq_none

theorem buckets_empty : rateTableEmpty.buckets = ∅ := by
  apply Finmap.ext_lookup
  intro id
  rw [Finmap.lookup_empty, lookup_buckets_eq_none unique_empty]
  exact not_has_empty

/-- The bucket of an id, written to its own slot or, if it has none, to a free one. -/
theorem buckets_set (h : t.Unique) (he : e.Holds id)
    (hk : t[k].Holds id ∨ t[k].inUse = false ∧ ¬ t.Has id) :
    (t.set k e).buckets = t.buckets.insert id e := by
  obtain ⟨hu, rfl⟩ := he
  rw [buckets, slot_set, if_pos hu]
  apply contents_update_some h.slots
  · intro j b hj hb
    obtain ⟨hj, -⟩ := slot_holds.mp ⟨hj, hb⟩
    rcases hk with hk | ⟨-, hn⟩
    · exact h _ _ _ hj hk
    · exact absurd ⟨j, hj⟩ hn
  · intro b hb
    obtain ⟨rfl, hin⟩ := slot_eq_some.mp hb
    rcases hk with hk | ⟨hfree, -⟩
    · exact hk.2
    · exact absurd (hin.symm.trans hfree) (by decide)

theorem buckets_free (h : t.Unique) (hk : t[k].Holds id) :
    (t.set k rateEntryFree).buckets = t.buckets.erase id := by
  have hslot : t.slot k = some t[k] := slot_eq_some.mpr ⟨rfl, hk.1⟩
  have hfree : rateEntryFree.inUse = false := rfl
  rw [buckets, slot_set, hfree, if_neg Bool.false_ne_true, contents_update_none h.slots hslot, hk.2]
  rfl

end RateTable

variable {rule : Rule} {now id x : UInt64} {t t' : RateTable} {a : RateUse} {b : Bool}
  {i : Fin rateTableSize}

/-! ### One call -/

/-- `SkRateAllow` answers from the map and leaves the map that the rate limiter leaves. -/
theorem buckets_rateAllow (hu : t.Unique) (h : rateAllow rule now t = some (b, t')) :
    t.buckets.allow rule now = some (b, t'.buckets) := by
  rw [RateMap.allow]
  by_cases hhas : t.Has rule.ruleId
  · obtain ⟨k, hk⟩ := hhas
    obtain ⟨e, he, rfl, rfl⟩ := rateAllow_own hu hk h
    have hlook : t.buckets.lookup rule.ruleId = some t[k] :=
      (RateTable.lookup_buckets hu).mpr ⟨k, hk, rfl⟩
    have hholds := rateTake_holds (rateRefill_holds he hk)
    simp only [hlook, he, Option.map_some, RateTable.buckets_set hu hholds (.inl hk)]
  · have hlook := (RateTable.lookup_buckets_eq_none hu).mpr hhas
    rcases @startsFull_of_not_has rule now t hhas with ⟨hfull, hopen⟩ | ⟨k, hfree, hopen⟩
    · have hcard : ¬ t.buckets.keys.card < rateTableSize := by
        rw [RateTable.card_buckets_lt hu]
        rintro ⟨i, hi⟩
        exact absurd ((hfull i).symm.trans hi) (by decide)
      rw [h] at hopen
      cases hopen
      simp only [hlook, if_neg hcard]
    · have hcard := (RateTable.card_buckets_lt hu).mpr ⟨k, hfree⟩
      have hholds : (rateTake ⟨rule.ruleId, rule.burst.toUInt64, now, true⟩).2.Holds rule.ruleId :=
        rateTake_holds ⟨rfl, rfl⟩
      rw [h] at hopen
      cases hopen
      simp only [hlook, if_pos hcard, RateTable.buckets_set hu hholds (.inr ⟨hfree, hhas⟩)]

theorem buckets_ruleRateReset (hu : t.Unique) :
    (ruleRateReset id t).buckets = t.buckets.erase id := by
  rcases ruleRateReset_cases id t with ⟨he, hn⟩ | ⟨k, hk, he⟩
  · rw [he]
    have hlook := (RateTable.lookup_buckets_eq_none hu).mpr hn
    apply Finmap.ext_lookup
    intro x
    by_cases hx : x = id
    · rw [hx, hlook, Finmap.lookup_erase]
    · rw [Finmap.lookup_erase_ne hx]
  · rw [he, RateTable.buckets_free hu hk]

theorem buckets_step (h : RateStep t a t') (hu : t.Unique) :
    RateMap.Step t.buckets a t'.buckets := by
  cases h with
  | allow h => exact .allow (buckets_rateAllow hu h)
  | reset =>
    rw [buckets_ruleRateReset hu]
    exact .reset

/-- The table is the map at work. -/
theorem rateSystem_simulation : System.Simulation rateSystem RateMap.system RateTable.buckets where
  init := by
    rintro t rfl
    exact RateTable.buckets_empty
  step h _ hs := ⟨_, .single (buckets_step hs (unique_reachable h))⟩

/-- A call leaves the slots of other ids alone. -/
theorem rateStep_other (h : RateStep t a t') (hi : t[i].Holds x) (hx : x ≠ a.ruleId) :
    t'[i] = t[i] := by
  cases h with
  | allow h => exact rateAllow_other hi hx.symm h
  | reset => exact ruleRateReset_other hi hx.symm

/-- A call touches no entry of the map but its own. -/
theorem RateMap.Step.lookup_other {m m' : RateMap} (h : RateMap.Step m a m') (hx : x ≠ a.ruleId) :
    m'.lookup x = m.lookup x := by
  cases h with
  | allow h =>
    rw [RateMap.allow] at h
    split at h
    · obtain ⟨e, -, he⟩ := Option.map_eq_some_iff.mp h
      cases he
      exact Finmap.lookup_insert_of_ne _ hx
    · split at h
      · cases h
        exact Finmap.lookup_insert_of_ne _ hx
      · cases h
        rfl
  | reset => exact Finmap.lookup_erase_ne hx

/-- A slot comes into use for an id that has none, where there is a free one. -/
theorem rateAllow_opens (h : rateAllow rule now t = some (b, t')) :
    (∃ i : Fin rateTableSize, t[i].inUse = false ∧ t'[i].inUse = true) ↔ t.Opens rule.ruleId := by
  constructor
  · rintro ⟨i, hi, hi'⟩
    rcases rateAllow_cases h with rfl | ⟨k, e, rfl, he, hk⟩
    · exact absurd (hi.symm.trans hi') (by decide)
    · by_cases hki : k = i
      · subst hki
        rcases hk with hk | ⟨-, hn⟩
        · exact absurd (hi.symm.trans hk.1) (by decide)
        · exact ⟨hn, k, hi⟩
      · rw [getElem_set_slot, if_neg hki] at hi'
        exact absurd (hi.symm.trans hi') (by decide)
  · rintro ⟨hn, i, hi⟩
    rcases @startsFull_of_not_has rule now t hn with ⟨hfull, -⟩ | ⟨k, hk, hopen⟩
    · exact absurd ((hfull i).symm.trans hi) (by decide)
    · rw [h] at hopen
      cases hopen
      refine ⟨k, hk, ?_⟩
      rw [getElem_set_slot, if_pos rfl]
      have hholds := @rateTake_holds rule.ruleId ⟨rule.ruleId, rule.burst.toUInt64, now, true⟩
        ⟨rfl, rfl⟩
      exact hholds.1

/-- The slot that comes into use is the rule's. -/
theorem rateAllow_opened (h : rateAllow rule now t = some (b, t')) (hi : t[i].inUse = false)
    (hi' : t'[i].inUse = true) : t'[i].Holds rule.ruleId := by
  rcases rateAllow_frame h i with he | ⟨hholds, -⟩
  · rw [he, hi] at hi'
    cases hi'
  · exact hholds

/-- After a reset no slot holds the id, and no slot has come into use. -/
theorem ruleRateReset_slots (hu : t.Unique) : ¬ (ruleRateReset id t)[i].Holds id ∧
    ((ruleRateReset id t)[i].inUse = true → t[i].inUse = true) := by
  constructor
  · intro hi
    exact ((ruleRateReset_has hu).mp ⟨i, hi⟩).2 rfl
  · intro hi
    rcases ruleRateReset_cases id t with ⟨he, -⟩ | ⟨k, -, he⟩
    · rwa [he] at hi
    · rw [he, getElem_set_slot] at hi
      split at hi
      · cases hi
      · exact hi

/-! ### Every history -/

/-- In every history of calls the table is a map with room for 64 buckets: an id has one slot at
most, a call does on the map what it says and touches no bucket of another id, a slot comes into
use just when the id has none and one is free, and after a reset no slot holds the id. -/
theorem rateTable_is_map (h : rateSystem.Reachable t) :
    (∀ (id : UInt64) (i j : Fin rateTableSize), t[i].Holds id → t[j].Holds id → i = j) ∧
    t.buckets.keys.card ≤ rateTableSize ∧
    (∀ id e, t.buckets.lookup id = some e ↔ ∃ i : Fin rateTableSize, t[i].Holds id ∧ t[i] = e) ∧
    (∀ a t', RateStep t a t' → RateMap.Step t.buckets a t'.buckets ∧
      ∀ x, x ≠ a.ruleId → t'.buckets.lookup x = t.buckets.lookup x ∧
        ∀ i : Fin rateTableSize, t[i].Holds x → t'[i] = t[i]) ∧
    (∀ rule now b t', rateAllow rule now t = some (b, t') →
      ((∃ i : Fin rateTableSize, t[i].inUse = false ∧ t'[i].inUse = true) ↔
        (¬ ∃ i : Fin rateTableSize, t[i].Holds rule.ruleId) ∧
          ∃ i : Fin rateTableSize, t[i].inUse = false) ∧
      ∀ i : Fin rateTableSize, t[i].inUse = false → t'[i].inUse = true →
        t'[i].Holds rule.ruleId) ∧
    ∀ id (i : Fin rateTableSize), ¬ (ruleRateReset id t)[i].Holds id ∧
      ((ruleRateReset id t)[i].inUse = true → t[i].inUse = true) := by
  have hu := unique_reachable h
  refine ⟨hu, card_contents_le hu.slots, fun _ _ => RateTable.lookup_buckets hu, ?_, ?_, ?_⟩
  · intro a t' hs
    have hmap := buckets_step hs hu
    exact ⟨hmap, fun x hx => ⟨hmap.lookup_other hx, fun i hi => rateStep_other hs hi hx⟩⟩
  · intro rule now b t' hr
    exact ⟨rateAllow_opens hr, fun i => rateAllow_opened hr⟩
  · intro id i
    exact ruleRateReset_slots hu

/-- A rule whose slot lies behind one set free keeps its slot. -/
theorem rateTable_is_map_behind_hole :
    ¬ ∃ i : Fin rateTableSize, (rateTableEmpty.set 1 ⟨10, 0, 0, true⟩)[i].inUse = false ∧
      (rateTableEmpty.set 1 ⟨10, 0, 1, true⟩)[i].inUse = true := by
  let behind : Rule := { fastRule with ruleId := 10 }
  have hfirst : rateAllow fastRule 0 rateTableEmpty =
      some (true, rateTableEmpty.set 0 fastBucket) := by decide +kernel
  have hsecond : rateAllow behind 0 (rateTableEmpty.set 0 fastBucket) =
      some (true, (rateTableEmpty.set 0 fastBucket).set 1 ⟨10, 0, 0, true⟩) := by decide +kernel
  have hreset : ruleRateReset 9 ((rateTableEmpty.set 0 fastBucket).set 1 ⟨10, 0, 0, true⟩) =
      rateTableEmpty.set 1 ⟨10, 0, 0, true⟩ := by decide +kernel
  have hthird : rateAllow behind 1 (rateTableEmpty.set 1 ⟨10, 0, 0, true⟩) =
      some (true, rateTableEmpty.set 1 ⟨10, 0, 1, true⟩) := by decide +kernel
  have hreach : rateSystem.Reachable (rateTableEmpty.set 1 ⟨10, 0, 0, true⟩) := by
    have hrun : rateSystem.Run rateTableEmpty
        [.allow fastRule 0 true, .allow behind 0 true, .reset 9] (ruleRateReset 9 _) :=
      .head (.allow hfirst) (.head (.allow hsecond) (.single .reset))
    rw [hreset] at hrun
    exact ⟨_, _, rfl, hrun⟩
  intro hopened
  have hnone := (((rateTable_is_map hreach).2.2.2.2.1 behind 1 _ _ hthird).1.mp hopened).1
  exact hnone ⟨1, by decide⟩

end Sentinel
