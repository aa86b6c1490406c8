import Sentinel.Rules.Types

/-! The token buckets of `rules/rule_engine.c`. -/
namespace Sentinel

/-- `SK_RATE_TABLE_SIZE`. -/
abbrev rateTableSize : ℕ := 64

instance : NeZero rateTableSize := ⟨by decide⟩

/-- `SK_RATE_ENTRY`. -/
structure RateEntry where
  ruleId : UInt64
  tokens : UInt64
  lastRefillMs : UInt64
  inUse : Bool
  deriving DecidableEq

/-- A slot as `SkRuleRateReset` leaves it. -/
def rateEntryFree : RateEntry := ⟨0, 0, 0, false⟩

/-- `g_RateTable`. -/
abbrev RateTable := Vector RateEntry rateTableSize

/-- A slot is always there. -/
instance : GetElem RateTable (Fin rateTableSize) RateEntry fun _ _ => True where
  getElem t i _ := t.get i

def RateTable.set (t : RateTable) (i : Fin rateTableSize) (e : RateEntry) : RateTable :=
  Vector.set t i e i.isLt

def rateTableEmpty : RateTable := .replicate rateTableSize rateEntryFree

def RateEntry.Holds (e : RateEntry) (ruleId : UInt64) : Prop :=
  e.inUse = true ∧ e.ruleId = ruleId

instance (e : RateEntry) (ruleId : UInt64) : Decidable (e.Holds ruleId) :=
  inferInstanceAs (Decidable (_ ∧ _))

/-- The search of `SkRateAllow` from one slot on; `slot` is the first free one so far. -/
def rateSlot (t : RateTable) (ruleId : UInt64) :
    List (Fin rateTableSize) → Option (Fin rateTableSize) → Option (Fin rateTableSize)
  | [], slot => slot
  | i :: is, slot =>
    if t[i].Holds ruleId then some i
    else rateSlot t ruleId is (if !t[i].inUse && slot.isNone then some i else slot)

/-- A free slot becomes a full bucket. -/
def rateOpen (rule : Rule) (now : UInt64) (e : RateEntry) : RateEntry :=
  if e.inUse then e else ⟨rule.ruleId, rule.burst.toUInt64, now, true⟩

/-- What so many full intervals add to a bucket. -/
def rateAdd (rule : Rule) (intervals : UInt64) (e : RateEntry) : RateEntry :=
  if intervals = 0 then e
  else
    let add := intervals * rule.rateTokens.toUInt64
    { e with
      tokens := if rule.burst.toUInt64 < e.tokens + add then rule.burst.toUInt64
        else e.tokens + add
      lastRefillMs := e.lastRefillMs + intervals * rule.rateIntervalMs.toUInt64 }

/-- The refill; `none` when the division by `rateIntervalMs` faults. -/
def rateRefill (rule : Rule) (now : UInt64) (e : RateEntry) : Option RateEntry :=
  if e.lastRefillMs < now then
    if rule.rateIntervalMs = 0 then none
    else some (rateAdd rule ((now - e.lastRefillMs) / rule.rateIntervalMs.toUInt64) e)
  else some e

def rateTake (e : RateEntry) : Bool × RateEntry :=
  if 0 < e.tokens then (true, { e with tokens := e.tokens - 1 }) else (false, e)

/-- `SkRateAllow` at a time in QPC ms: within the bucket, or a full table. -/
def rateAllow (rule : Rule) (now : UInt64) (t : RateTable) : Option (Bool × RateTable) :=
  match rateSlot t rule.ruleId (List.finRange rateTableSize) none with
  | none => some (true, t)
  | some i =>
    (rateRefill rule now (rateOpen rule now t[i])).map fun e =>
      ((rateTake e).1, t.set i (rateTake e).2)

/-- `SkRuleRateReset`. -/
def ruleRateReset (ruleId : UInt64) (t : RateTable) : RateTable :=
  match (List.finRange rateTableSize).find? fun i => decide (t[i].Holds ruleId) with
  | none => t
  | some i => t.set i rateEntryFree

/-! ### What they leave alone -/

variable {rule : Rule} {now ruleId : UInt64} {t t' : RateTable} {e e' : RateEntry} {b : Bool}
  {is : List (Fin rateTableSize)} {slot : Option (Fin rateTableSize)} {i : Fin rateTableSize}

theorem getElem_set_slot (j : Fin rateTableSize) :
    (t.set i e)[j] = if i = j then e else t[j] := by
  have hset : (t.set i e)[j] = if (i : ℕ) = j then e else t[j] := Vector.getElem_set i.isLt j.isLt
  rw [hset]
  simp only [Fin.val_inj]

theorem getElem_rateTableEmpty : rateTableEmpty[i] = rateEntryFree :=
  Vector.getElem_replicate i.isLt

/-- The slot found is the id's own or a free one. -/
theorem rateSlot_spec (hs : ∀ j, slot = some j → t[j].inUse = false)
    (h : rateSlot t ruleId is slot = some i) : t[i].inUse = true → t[i].ruleId = ruleId := by
  induction is generalizing slot with
  | nil =>
    intro hu
    exact absurd ((hs i h).symm.trans hu) (by decide)
  | cons j is ih =>
    rw [rateSlot] at h
    by_cases hj : t[j].Holds ruleId
    · rw [if_pos hj] at h
      cases h
      exact fun _ => hj.2
    · rw [if_neg hj] at h
      refine ih ?_ h
      intro k hk
      split at hk
      · rename_i hfree
        cases hk
        simpa using (Bool.and_eq_true_iff.mp hfree).1
      · exact hs k hk

theorem rateOpen_spec (h : e.inUse = true → e.ruleId = rule.ruleId) :
    (rateOpen rule now e).Holds rule.ruleId := by
  unfold rateOpen
  split
  · rename_i hu
    exact ⟨hu, h hu⟩
  · exact ⟨rfl, rfl⟩

theorem rateAdd_holds {k : UInt64} (he : e.Holds ruleId) : (rateAdd rule k e).Holds ruleId := by
  unfold rateAdd
  split <;> exact he

theorem rateRefill_holds (h : rateRefill rule now e = some e') (he : e.Holds ruleId) :
    e'.Holds ruleId := by
  unfold rateRefill at h
  repeat' split at h
  · cases h
  · cases h
    exact rateAdd_holds he
  · cases h
    exact he

theorem rateTake_holds (he : e.Holds ruleId) : (rateTake e).2.Holds ruleId := by
  unfold rateTake
  split <;> exact he

theorem rateRefill_isSome (h : rule.rateIntervalMs ≠ 0) :
    (rateRefill rule now e).isSome = true := by
  unfold rateRefill
  rw [if_neg h]
  repeat' split
  all_goals rfl

/-- Without a zero interval no division faults. -/
theorem rateAllow_isSome (h : rule.rateIntervalMs ≠ 0) :
    (rateAllow rule now t).isSome = true := by
  unfold rateAllow
  split
  · rfl
  · simpa using rateRefill_isSome h

/-- `SkRateAllow` writes one slot at most, which held the rule's bucket or none and holds the
rule's bucket afterwards. -/
theorem rateAllow_frame (h : rateAllow rule now t = some (b, t')) (j : Fin rateTableSize) :
    t'[j] = t[j] ∨
      t'[j].Holds rule.ruleId ∧ (t[j].inUse = true → t[j].ruleId = rule.ruleId) := by
  unfold rateAllow at h
  split at h
  · cases h
    exact .inl rfl
  · rename_i i hi
    obtain ⟨e, he, hb⟩ := Option.map_eq_some_iff.mp h
    have hown := rateSlot_spec (by simp) hi
    have hh := rateTake_holds (rateRefill_holds he (rateOpen_spec hown))
    cases hb
    by_cases hij : i = j
    · subst hij
      right
      rw [getElem_set_slot, if_pos rfl]
      exact ⟨hh, hown⟩
    · left
      rw [getElem_set_slot, if_neg hij]

end Sentinel
