import Sentinel.Rules.Match
import Sentinel.Rules.Rate

/-! Evaluation of a tuple against a snapshot, `rules/rule_engine.c`. -/
namespace Sentinel

/-- `SK_RULE_STATS`. -/
structure RuleStats where
  classifyCalls : UInt64
  verdictPermit : UInt64
  verdictBlock : UInt64
  verdictAudit : UInt64
  rateLimited : UInt64
  ruleHits : UInt64
  defaultHits : UInt64
  matchNsTotal : UInt64
  matchNsMax : UInt64
  matchNsSamples : UInt64
  deriving DecidableEq

/-- What the performance counter shows at the three places where one evaluation reads it. -/
structure Clock where
  begin : UInt64
  rate : UInt64
  finish : UInt64
  freq : UInt64

/-- `SkQpcFreq`: never zero. -/
def qpcFreq (freq : UInt64) : UInt64 := if freq = 0 then 1 else freq

/-- `SkQpcMs` where `SkRateAllow` calls it. -/
def qpcMs (c : Clock) : UInt64 := c.rate * 1000 / qpcFreq c.freq

/-- `SkTicksToNs` of the duration of the evaluation. -/
def matchNs (c : Clock) : UInt64 := (c.finish - c.begin) * 1000000000 / qpcFreq c.freq

/-- The verdict by a rule that is no rate limit, or whose bucket has given this answer. -/
def hitVerdict (hit : Rule) (allowed : Bool) : Verdict :=
  let out : Verdict := ⟨verdictPermit, hit.ruleId, 0, 0, verdictReasonRuleMatch⟩
  if hit.action = ruleActionBlock then { out with action := verdictBlock, hardBlock := 1 }
  else if hit.action = ruleActionAudit then { out with action := verdictAudit }
  else if hit.action = ruleActionRateLimit then
    if allowed then { out with action := verdictAudit }
    else { out with action := verdictBlock, rateLimited := 1, hardBlock := 1 }
  else out

/-- The verdict when no rule matches or there is no snapshot. -/
def defaultVerdict (snap : Option Snapshot) : Verdict :=
  let out : Verdict := ⟨verdictPermit, 0, 0, 0,
    if snap.isSome then verdictReasonNoMatch else verdictReasonSnapshotUnavailable⟩
  let pol := snap.elim verdictPermit Snapshot.defaultPolicy
  if pol = verdictBlock then { out with action := verdictBlock, hardBlock := 1 } else out

/-- The first match in the order of the snapshot. -/
def ruleHit (snap : Option Snapshot) (tuple : ClassifyTuple) : Option Rule :=
  snap.bind fun s => s.rules.find? fun r => ruleMatch r tuple

/-- The verdict of `SkRuleEvaluate` and its effect on the buckets; `none` if it faults. -/
def ruleVerdict (snap : Option Snapshot) (tuple : ClassifyTuple) (now : UInt64)
    (t : RateTable) : Option (Verdict × RateTable) :=
  match ruleHit snap tuple with
  | some hit =>
    if hit.action = ruleActionRateLimit then
      (rateAllow hit now t).map fun r => (hitVerdict hit r.1, r.2)
    else some (hitVerdict hit true, t)
  | none => some (defaultVerdict snap, t)

/-- The counters of `SkRuleEvaluate`, by the rule hit and the verdict. -/
def ruleStatsCount (stats : RuleStats) (hit : Option Rule) (out : Verdict) (ns : UInt64) :
    RuleStats where
  classifyCalls := stats.classifyCalls + 1
  verdictPermit := stats.verdictPermit +
    if out.action = verdictBlock ∨ out.action = verdictAudit then 0 else 1
  verdictBlock := stats.verdictBlock + if out.action = verdictBlock then 1 else 0
  verdictAudit := stats.verdictAudit + if out.action = verdictAudit then 1 else 0
  rateLimited := stats.rateLimited + if out.rateLimited = 1 then 1 else 0
  ruleHits := stats.ruleHits + if hit.isSome then 1 else 0
  defaultHits := stats.defaultHits + if hit.isSome then 0 else 1
  matchNsTotal := stats.matchNsTotal + ns
  matchNsMax := if stats.matchNsMax < ns then ns else stats.matchNsMax
  matchNsSamples := stats.matchNsSamples + 1

/-- `SkRuleEvaluate`. -/
def ruleEvaluate (snap : Option Snapshot) (tuple : ClassifyTuple) (c : Clock) (t : RateTable)
    (stats : RuleStats) : Option (Verdict × RateTable × RuleStats) :=
  (ruleVerdict snap tuple (qpcMs c) t).map fun r =>
    (r.1, r.2, ruleStatsCount stats (ruleHit snap tuple) r.1 (matchNs c))

variable {snap : Snapshot} {tuple : ClassifyTuple} {now : UInt64} {c : Clock} {t : RateTable}
  {stats : RuleStats}

theorem ruleVerdict_isSome (h : ∀ r ∈ snap.rules, r.action = ruleActionRateLimit →
    r.rateIntervalMs ≠ 0) : (ruleVerdict (some snap) tuple now t).isSome = true := by
  unfold ruleVerdict
  cases hh : ruleHit (some snap) tuple with
  | none => rfl
  | some hit =>
    have hm : hit ∈ snap.rules := List.mem_of_find?_eq_some hh
    by_cases ha : hit.action = ruleActionRateLimit
    · simpa [ha] using rateAllow_isSome (h hit hm ha)
    · simp [ha]

/-- No division of an evaluation faults if the rate limits have nonzero intervals. -/
theorem ruleEvaluate_isSome (h : ∀ r ∈ snap.rules, r.action = ruleActionRateLimit →
    r.rateIntervalMs ≠ 0) : (ruleEvaluate (some snap) tuple c t stats).isSome = true := by
  rw [ruleEvaluate, Option.isSome_map]
  exact ruleVerdict_isSome h

end Sentinel
