import Sentinel.Rules.Types
import Sentinel.Status

/-! `SkRuleValidate` of `rules/rule_store.c`. -/
namespace Sentinel

variable {rule : Rule} {b : UInt32}

/-- `SK_RULE_M_ALL`. -/
def ruleMAll : UInt32 :=
  ruleMFamily ||| ruleMDirection ||| ruleMProtocol ||| ruleMLocalAddr ||| ruleMRemoteAddr |||
    ruleMLocalPort ||| ruleMRemotePort ||| ruleMPid ||| ruleMAppId ||| ruleMLayer |||
    ruleMIfIndex ||| ruleMSid ||| ruleMTime

/-- The bound on a prefix: by family when it is known. -/
def rulePrefixLimit (rule : Rule) : UInt32 :=
  if rule.has ruleMFamily ∧ rule.family = afInet then 32 else 128

/-- The tests on the fields every rule has, in the order of the source. -/
def ruleBadFields (rule : Rule) : Prop :=
  rule.ruleId = 0 ∨
  rule.mask &&& ~~~ruleMAll ≠ 0 ∨
  rule.mask &&& (ruleMIfIndex ||| ruleMSid) ≠ 0 ∨
  1 < rule.enabled ∨
  ruleActionRateLimit < rule.action ∨
  rule.action = ruleActionRateLimit ∧
    (rule.rateTokens = 0 ∨ rule.rateIntervalMs = 0 ∨ rule.burst = 0) ∨
  rule.sidLength ≠ 0 ∧ (rule.sidLength < 8 ∨ 32 < rule.sidLength)

/-- The tests on the fields the mask marks as present. -/
def ruleBadConditions (rule : Rule) : Prop :=
  rule.has ruleMFamily ∧ rule.family ≠ afInet ∧ rule.family ≠ afInet6 ∨
  rule.has ruleMDirection ∧ ruleDirIn < rule.direction ∨
  rule.has ruleMLayer ∧ layerCount ≤ rule.layerId ∨
  rule.has ruleMProtocol ∧ 255 < rule.protocol ∨
  rule.has ruleMLocalAddr ∧ rulePrefixLimit rule < rule.localPrefix.toUInt32 ∨
  rule.has ruleMRemoteAddr ∧ rulePrefixLimit rule < rule.remotePrefix.toUInt32 ∨
  rule.has ruleMLocalPort ∧
    (rule.localPortMax < rule.localPortMin ∨ 65535 < rule.localPortMax) ∨
  rule.has ruleMRemotePort ∧
    (rule.remotePortMax < rule.remotePortMin ∨ 65535 < rule.remotePortMax) ∨
  rule.has ruleMTime ∧ rule.notAfter < rule.notBefore

instance (rule : Rule) : Decidable (ruleBadFields rule) := inferInstanceAs (Decidable (_ ∨ _))

instance (rule : Rule) : Decidable (ruleBadConditions rule) := inferInstanceAs (Decidable (_ ∨ _))

/-- `SkRuleValidate`: every failing test gives the same status. -/
def ruleValidate : Option Rule → NtStatus
  | none => statusInvalidParameter
  | some rule =>
    if ruleBadFields rule ∨ ruleBadConditions rule then statusInvalidParameter
    else statusSuccess

def Rule.Valid (rule : Rule) : Prop := ruleValidate (some rule) = statusSuccess

instance (rule : Rule) : Decidable rule.Valid := inferInstanceAs (Decidable (_ = _))

theorem Rule.valid_iff : rule.Valid ↔ ¬ ruleBadFields rule ∧ ¬ ruleBadConditions rule := by
  rw [Rule.Valid, ruleValidate, ← not_or]
  by_cases h : ruleBadFields rule ∨ ruleBadConditions rule
  · rw [if_pos h]
    exact iff_of_false (by decide) (not_not_intro h)
  · rw [if_neg h]
    exact iff_of_true rfl h

theorem ruleValidate_eq : ruleValidate (some rule) =
    if rule.Valid then statusSuccess else statusInvalidParameter := by
  by_cases h : ruleBadFields rule ∨ ruleBadConditions rule
  · have hv : ¬ rule.Valid := by
      rw [Rule.valid_iff, ← not_or, not_not]
      exact h
    rw [ruleValidate, if_pos h, if_neg hv]
  · rw [ruleValidate, if_neg h, if_pos (Rule.valid_iff.mpr (not_or.mp h))]

theorem ntSuccess_ruleValidate : ntSuccess (ruleValidate (some rule)) = true ↔ rule.Valid := by
  rw [Rule.Valid, ruleValidate]
  split <;> decide

theorem Rule.Valid.ruleId_ne (h : rule.Valid) : rule.ruleId ≠ 0 := by
  intro h0
  exact (Rule.valid_iff.mp h).1 (.inl h0)

/-- A valid rate limit has a nonzero divisor. -/
theorem Rule.Valid.rateIntervalMs_ne (h : rule.Valid) (ha : rule.action = ruleActionRateLimit) :
    rule.rateIntervalMs ≠ 0 := by
  intro h0
  exact (Rule.valid_iff.mp h).1 (by simp [ruleBadFields, ha, h0])

theorem Rule.Valid.burst_ne (h : rule.Valid) (ha : rule.action = ruleActionRateLimit) :
    rule.burst ≠ 0 := by
  intro h0
  exact (Rule.valid_iff.mp h).1 (by simp [ruleBadFields, ha, h0])

/-- The flag of a rule is checked for its range only. -/
theorem Rule.Valid.setEnabled (h : rule.Valid) (hb : b ≤ 1) :
    ({ rule with enabled := b } : Rule).Valid := by
  obtain ⟨hf, hc⟩ := Rule.valid_iff.mp h
  refine Rule.valid_iff.mpr ⟨?_, hc⟩
  intro hbad
  rcases hbad with h | h | h | h | h
  · exact hf (.inl h)
  · exact hf (.inr (.inl h))
  · exact hf (.inr (.inr (.inl h)))
  · exact absurd h (UInt32.not_lt.mpr hb)
  · exact hf (.inr (.inr (.inr (.inr h))))

end Sentinel
