import Sentinel.General.Ordered
import Sentinel.Rules.Types
import Mathlib.Data.Prod.Lex

/-! The verdict order of `rules/rule_store.c`. -/
namespace Sentinel

variable {a b c : Rule} {rules : List Rule}

/-- `SkActionRank`. -/
def actionRank (action : UInt32) : ℕ :=
  if action = ruleActionBlock then 3
  else if action = ruleActionRateLimit then 2
  else if action = ruleActionAudit then 1
  else 0

/-- `SkRulePrecedes`. -/
def rulePrecedes (a b : Rule) : Bool :=
  if a.priority ≠ b.priority then b.priority < a.priority
  else if actionRank a.action ≠ actionRank b.action then actionRank b.action < actionRank a.action
  else a.ruleId < b.ruleId

/-- `SkSortRules`. -/
def sortRules (rules : List Rule) : List Rule := Ordered.sort rulePrecedes rules

/-- What the order compares, the smaller key first. -/
def ruleKey (r : Rule) : ℕᵒᵈ ×ₗ ℕᵒᵈ ×ₗ ℕ :=
  toLex (OrderDual.toDual r.priority.toNat,
    toLex (OrderDual.toDual (actionRank r.action), r.ruleId.toNat))

theorem rulePrecedes_iff_key (a b : Rule) : rulePrecedes a b = true ↔ ruleKey a < ruleKey b := by
  simp only [ruleKey, Prod.Lex.toLex_lt_toLex, OrderDual.toDual_lt_toDual,
    OrderDual.toDual_inj, UInt32.toNat_inj]
  unfold rulePrecedes
  by_cases hp : a.priority = b.priority
  · by_cases hr : actionRank a.action = actionRank b.action
    · simp [hp, hr, UInt64.lt_iff_toNat_lt]
    · simp [hp, hr]
  · simp [hp, UInt32.lt_iff_toNat_lt]

theorem ruleId_of_ruleKey_eq (h : ruleKey a = ruleKey b) : a.ruleId = b.ruleId := by
  have h2 := congrArg (fun k => (ofLex (ofLex k).2).2) h
  exact UInt64.toNat_inj.mp h2

/-- Rules with distinct ids have distinct places in the order. -/
theorem nodup_ruleKey (h : (rules.map Rule.ruleId).Nodup) : (rules.map ruleKey).Nodup := by
  refine List.pairwise_map.mpr ((List.pairwise_map.mp h).imp ?_)
  intro a b hne he
  exact hne (ruleId_of_ruleKey_eq he)

theorem rulePrecedes_asymm (h : rulePrecedes a b = true) : rulePrecedes b a = false := by
  rw [rulePrecedes_iff_key] at h
  rw [← Bool.not_eq_true, rulePrecedes_iff_key]
  exact lt_asymm h

theorem sortRules_perm : (sortRules rules).Perm rules := Ordered.sort_perm

theorem sortRules_pairwise (h : (rules.map Rule.ruleId).Nodup) :
    (sortRules rules).Pairwise fun a b => rulePrecedes a b = true :=
  Ordered.sort_pairwise rulePrecedes_iff_key (nodup_ruleKey h)

theorem sortRules_of_pairwise (h : rules.Pairwise fun a b => rulePrecedes a b = true) :
    sortRules rules = rules := Ordered.sort_of_pairwise rulePrecedes_iff_key h

end Sentinel
