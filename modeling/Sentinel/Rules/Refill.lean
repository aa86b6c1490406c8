import Sentinel.General.TokenBucket
import Sentinel.Rules.Buckets
import Sentinel.Rules.Validate

/-! The refill of `SkRateAllow` in 64 bits against the refill over the natural numbers. -/
namespace Sentinel

open TokenBucket

/-- The numbers of a rate limit. -/
def Rule.params (rule : Rule) : Params :=
  ⟨rule.rateTokens.toNat, rule.rateIntervalMs.toNat, rule.burst.toNat⟩

/-- The numbers in a slot. -/
def RateEntry.bucket (e : RateEntry) : Bucket := ⟨e.tokens.toNat, e.lastRefillMs.toNat⟩

variable {rule : Rule} {now : UInt64} {e e' : RateEntry} {t t' : RateTable} {b : Bool} {m : ℕ}

theorem interval_pos (h : rule.rateIntervalMs ≠ 0) : 0 < rule.params.interval := by
  have hne : rule.rateIntervalMs.toNat ≠ 0 := fun hz => h (UInt32.toNat_inj.mp hz)
  exact Nat.pos_of_ne_zero hne

/-- The intervals that `SkRateAllow` counts. -/
theorem toNat_intervals (h : e.lastRefillMs < now) :
    ((now - e.lastRefillMs) / rule.rateIntervalMs.toUInt64).toNat =
      due rule.params e.bucket now.toNat := by
  have hle : e.lastRefillMs ≤ now := UInt64.le_of_lt h
  rw [UInt64.toNat_div, UInt64.toNat_sub_of_le _ _ hle, UInt32.toNat_toUInt64]
  rfl

/-- The intervals are whole ones, so the time of the refill stays behind `now`. -/
theorem toNat_last {k : UInt64} (hk : k.toNat = due rule.params e.bucket now.toNat)
    (h : e.lastRefillMs < now) :
    (e.lastRefillMs + k * rule.rateIntervalMs.toUInt64).toNat =
      (refill rule.params e.bucket now.toNat).last := by
  have hdue := @due_mul_le rule.params e.bucket now.toNat
  have hlt := now.toNat_lt
  have hlast : e.lastRefillMs.toNat < now.toNat := UInt64.lt_iff_toNat_lt.mp h
  have hbucket : e.bucket.last = e.lastRefillMs.toNat := rfl
  have hinterval : rule.params.interval = rule.rateIntervalMs.toNat := rfl
  rw [UInt64.toNat_add, UInt64.toNat_mul, UInt32.toNat_toUInt64, hk]
  rw [hinterval] at hdue
  simp only [refill, hinterval]
  rw [Nat.mod_eq_of_lt (a := due rule.params e.bucket now.toNat * _) (by omega),
    Nat.mod_eq_of_lt (by omega), hbucket]

theorem toNat_sum {k : UInt64} :
    (e.tokens + k * rule.rateTokens.toUInt64).toNat =
      (e.tokens.toNat + k.toNat * rule.rateTokens.toNat) % 2 ^ 64 := by
  rw [UInt64.toNat_add, UInt64.toNat_mul, UInt32.toNat_toUInt64, Nat.add_mod_mod]

/-- What the refill leaves: the sum is cut to 64 bits before the cap is applied, and without a
whole interval nothing is done. -/
theorem rateRefill_spec (h : rateRefill rule now e = some e') :
    e'.lastRefillMs.toNat = (refill rule.params e.bucket now.toNat).last ∧
    e'.tokens.toNat = if due rule.params e.bucket now.toNat = 0 then e.tokens.toNat
      else min rule.burst.toNat ((e.tokens.toNat +
        due rule.params e.bucket now.toNat * rule.rateTokens.toNat) % 2 ^ 64) := by
  rw [rateRefill] at h
  split at h
  · rename_i hlt
    split at h
    · cases h
    · have hk := @toNat_intervals rule now e hlt
      have hlast := toNat_last hk hlt
      cases h
      generalize (now - e.lastRefillMs) / rule.rateIntervalMs.toUInt64 = k at hk hlast
      rw [← hk]
      by_cases hz : k = 0
      · subst hz
        rw [UInt64.zero_mul, UInt64.add_zero] at hlast
        exact ⟨hlast, rfl⟩
      · have hz' : k.toNat ≠ 0 := fun h => hz (UInt64.toNat_inj.mp h)
        rw [rateAdd, if_neg hz, if_neg hz', ← toNat_sum]
        refine ⟨hlast, ?_⟩
        simp only
        rw [← UInt32.toNat_toUInt64]
        split
        · rename_i hcap
          rw [min_eq_left (UInt64.le_iff_toNat_le.mp (UInt64.le_of_lt hcap))]
        · rename_i hcap
          rw [min_eq_right (UInt64.le_iff_toNat_le.mp (UInt64.not_lt.mp hcap))]
  · rename_i hle
    have hdue : due rule.params e.bucket now.toNat = 0 := by
      have hbucket : e.bucket.last = e.lastRefillMs.toNat := rfl
      have hle' : now.toNat ≤ e.lastRefillMs.toNat := by
        rw [UInt64.lt_iff_toNat_lt] at hle
        omega
      rw [due, hbucket, Nat.sub_eq_zero_of_le hle', Nat.zero_div]
    cases h
    simp only [refill, hdue, Nat.zero_mul, Nat.add_zero, if_true]
    exact ⟨rfl, trivial⟩

/-- The refill is the one over the natural numbers and takes nothing away. -/
def RefillExact (rule : Rule) (now : UInt64) (e : RateEntry) : Prop :=
  ∃ e', rateRefill rule now e = some e' ∧ e'.bucket = refill rule.params e.bucket now.toNat ∧
    e.tokens ≤ e'.tokens

/-- The bucket is within the burst of the rule, and the sum fits 64 bits or is cut to one that
still fills the bucket. -/
def SumFits (rule : Rule) (now : UInt64) (e : RateEntry) : Prop :=
  let sum := e.tokens.toNat + due rule.params e.bucket now.toNat * rule.rateTokens.toNat
  e.tokens.toNat ≤ rule.burst.toNat ∧ (sum < 2 ^ 64 ∨ rule.burst.toNat ≤ sum % 2 ^ 64)

/-- The refill of a valid rate limit is exact just when its sum fits. -/
theorem refillExact_iff (hv : rule.Valid) (ha : rule.action = ruleActionRateLimit) (now : UInt64)
    (e : RateEntry) : RefillExact rule now e ↔ SumFits rule now e := by
  obtain ⟨e', he⟩ := Option.isSome_iff_exists.mp
    (@rateRefill_isSome rule now e (hv.rateIntervalMs_ne ha))
  obtain ⟨hlast, htokens⟩ := rateRefill_spec he
  have hbucket : e'.bucket = refill rule.params e.bucket now.toNat ↔
      e'.tokens.toNat = (refill rule.params e.bucket now.toNat).tokens := by
    rw [RateEntry.bucket, hlast]
    exact ⟨fun h => congrArg Bucket.tokens h, fun h => by rw [h]⟩
  have hexact : RefillExact rule now e ↔
      e'.tokens.toNat = (refill rule.params e.bucket now.toNat).tokens ∧
        e.tokens.toNat ≤ e'.tokens.toNat := by
    rw [← hbucket, ← UInt64.le_iff_toNat_le]
    refine ⟨fun ⟨e'', he', h⟩ => ?_, fun h => ⟨e', he, h⟩⟩
    rw [he, Option.some_inj] at he'
    rwa [he']
  rw [hexact, htokens, SumFits]
  have hT := e.tokens.toNat_lt
  have hB := rule.burst.toNat_lt
  have hcap : (refill rule.params e.bucket now.toNat).tokens = min rule.burst.toNat
      (e.tokens.toNat + due rule.params e.bucket now.toNat * rule.rateTokens.toNat) := rfl
  rw [hcap]
  generalize due rule.params e.bucket now.toNat = k
  by_cases hk : k = 0
  · rw [if_pos hk, hk, Nat.zero_mul]
    omega
  · rw [if_neg hk]
    have hle : e.tokens.toNat ≤ e.tokens.toNat + k * rule.rateTokens.toNat :=
      Nat.le_add_right _ _
    generalize e.tokens.toNat + k * rule.rateTokens.toNat = sum at hle ⊢
    constructor
    · rintro ⟨hmin, hpoorer⟩
      refine ⟨by omega, ?_⟩
      by_cases hfit : sum < 2 ^ 64
      · exact .inl hfit
      · right
        omega
    · rintro ⟨hT', hfit | hfull⟩
      · rw [Nat.mod_eq_of_lt hfit]
        omega
      · have hmod := Nat.mod_le sum (2 ^ 64)
        omega

/-- A rate limit of 2^31 tokens every millisecond. -/
def fastRule : Rule :=
  { ruleZero with
    ruleId := 9, action := ruleActionRateLimit, enabled := 1
    rateTokens := 0x80000000, rateIntervalMs := 1, burst := 1 }

/-- Its bucket after one connection at the time 0. -/
def fastBucket : RateEntry := ⟨9, 0, 0, true⟩

theorem refillExact_iff_fastRule :
    RefillExact fastRule 5 fastBucket ↔ SumFits fastRule 5 fastBucket :=
  refillExact_iff (by decide) rfl 5 fastBucket

/-- After 2^33 milliseconds without a connection the bucket is still empty. -/
theorem refill_loses_tokens : fastRule.Valid ∧ fastRule.action = ruleActionRateLimit ∧
    rateAllow fastRule 0 rateTableEmpty = some (true, rateTableEmpty.set 0 fastBucket) ∧
    fastBucket.lastRefillMs ≤ 0x200000000 ∧ ¬ RefillExact fastRule 0x200000000 fastBucket := by
  refine ⟨by decide, rfl, by decide +kernel, by decide, ?_⟩
  rintro ⟨e', he, hexact, -⟩
  have hempty : rateRefill fastRule 0x200000000 fastBucket =
      some ⟨9, 0, 0x200000000, true⟩ := by decide +kernel
  rw [hempty, Option.some_inj] at he
  subst he
  exact absurd (congrArg Bucket.tokens hexact) (by decide +kernel)

end Sentinel
