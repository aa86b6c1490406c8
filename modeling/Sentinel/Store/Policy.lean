import Sentinel.Rules.Engine
import Sentinel.Store.WellFormed

/-! The declarative policy that evaluation of the current snapshot decides by. -/
namespace Sentinel

open Transition

variable {rule hit r r' : Rule} {rules rules' : List Rule} {tuple : ClassifyTuple}
  {policy : UInt32} {now : UInt64} {t t' t'' : RateTable} {out out' : Verdict}
  {d d' : RuleSet} {S : Set Rule} {snap snap' : Snapshot} {s s' : Store}

/-- Higher priority, then the stronger action, then the lower id. -/
def Rule.Outranks (r r' : Rule) : Prop :=
  r'.priority < r.priority ∨ r.priority = r'.priority ∧
    (actionRank r'.action < actionRank r.action ∨
      actionRank r.action = actionRank r'.action ∧ r.ruleId < r'.ruleId)

theorem rulePrecedes_iff : rulePrecedes r r' = true ↔ r.Outranks r' := by
  unfold rulePrecedes Rule.Outranks
  by_cases hp : r.priority = r'.priority
  · by_cases hr : actionRank r.action = actionRank r'.action
    · simp [hp, hr]
    · simp [hp, hr]
  · simp [hp]

/-- The matching rule of the set that outranks all others. -/
def Decides (S : Set Rule) (tuple : ClassifyTuple) (r : Rule) : Prop :=
  r ∈ S ∧ r.Matches tuple ∧ ∀ r' ∈ S, r'.Matches tuple → r' = r ∨ r.Outranks r'

/-- What the rules, as a set, and the default policy say about a tuple, and what becomes of the
buckets. -/
inductive PolicyVerdict (S : Set Rule) (policy : UInt32) (tuple : ClassifyTuple) (now : UInt64)
    (t : RateTable) : Verdict → RateTable → Prop where
  | block {r : Rule} (h : Decides S tuple r) (ha : r.action = ruleActionBlock) :
      PolicyVerdict S policy tuple now t
        ⟨verdictBlock, r.ruleId, 0, 1, verdictReasonRuleMatch⟩ t
  | audit {r : Rule} (h : Decides S tuple r) (ha : r.action = ruleActionAudit) :
      PolicyVerdict S policy tuple now t
        ⟨verdictAudit, r.ruleId, 0, 0, verdictReasonRuleMatch⟩ t
  | allow {r : Rule} (h : Decides S tuple r) (ha : r.action = ruleActionAllow) :
      PolicyVerdict S policy tuple now t
        ⟨verdictPermit, r.ruleId, 0, 0, verdictReasonRuleMatch⟩ t
  | admitted {r : Rule} {t' : RateTable} (h : Decides S tuple r)
      (ha : r.action = ruleActionRateLimit) (hb : rateAllow r now t = some (true, t')) :
      PolicyVerdict S policy tuple now t
        ⟨verdictAudit, r.ruleId, 0, 0, verdictReasonRuleMatch⟩ t'
  | overLimit {r : Rule} {t' : RateTable} (h : Decides S tuple r)
      (ha : r.action = ruleActionRateLimit) (hb : rateAllow r now t = some (false, t')) :
      PolicyVerdict S policy tuple now t
        ⟨verdictBlock, r.ruleId, 1, 1, verdictReasonRuleMatch⟩ t'
  | defaultPermit (h : ∀ r ∈ S, ¬ r.Matches tuple) (hp : policy = verdictPermit) :
      PolicyVerdict S policy tuple now t ⟨verdictPermit, 0, 0, 0, verdictReasonNoMatch⟩ t
  | defaultBlock (h : ∀ r ∈ S, ¬ r.Matches tuple) (hp : policy = verdictBlock) :
      PolicyVerdict S policy tuple now t ⟨verdictBlock, 0, 0, 1, verdictReasonNoMatch⟩ t

/-! ### The winner is unique -/

theorem Rule.Outranks.asymm (h : r.Outranks r') : ¬ r'.Outranks r := by
  rw [← rulePrecedes_iff] at h ⊢
  rw [rulePrecedes_asymm h]
  exact Bool.false_ne_true

theorem Decides.unique (h : Decides S tuple r) (h' : Decides S tuple r') : r = r' := by
  rcases h.2.2 r' h'.1 h'.2.1 with he | hlt
  · exact he.symm
  · rcases h'.2.2 r h.1 h.2.1 with he | hlt'
    · exact he
    · exact absurd hlt' hlt.asymm

/-- The first match in verdict order is the rule that decides. -/
theorem decides_iff (h : snap.WellFormed) :
    Decides {r | r ∈ snap.rules} tuple r ↔ ruleHit (some snap) tuple = some r := by
  have hfirst : ∀ {hit}, ruleHit (some snap) tuple = some hit →
      Decides {r | r ∈ snap.rules} tuple hit := by
    intro hit hh
    obtain ⟨hm, hp, hall⟩ := Ordered.find?_first h.sorted hh
    refine ⟨hm, ruleMatch_iff.mp hp, ?_⟩
    intro r' hr' hm'
    exact (hall r' hr' (ruleMatch_iff.mpr hm')).imp_right rulePrecedes_iff.mp
  constructor
  · intro hd
    cases hh : ruleHit (some snap) tuple with
    | none => exact absurd (ruleMatch_iff.mpr hd.2.1) (List.find?_eq_none.mp hh r hd.1)
    | some hit => rw [(hfirst hh).unique hd]
  · exact hfirst

theorem ruleHit_eq_none : ruleHit (some snap) tuple = none ↔
    ∀ r ∈ {r | r ∈ snap.rules}, ¬ r.Matches tuple := by
  simp only [← ruleMatch_iff]
  exact List.find?_eq_none

theorem Rule.Valid.action_cases (h : r.Valid) : r.action = ruleActionAllow ∨
    r.action = ruleActionBlock ∨ r.action = ruleActionAudit ∨
    r.action = ruleActionRateLimit := by
  have hle : r.action ≤ ruleActionRateLimit := by
    by_contra hlt
    exact (Rule.valid_iff.mp h).1 (.inr (.inr (.inr (.inr (.inl (UInt32.not_le.mp hlt))))))
  have hn : r.action.toNat ≤ 3 := UInt32.le_iff_toNat_le.mp hle
  simp only [← UInt32.toNat_inj]
  change _ = 0 ∨ _ = 1 ∨ _ = 2 ∨ _ = 3
  omega

section Verdicts

variable {b : Bool}

theorem hitVerdict_block (ha : r.action = ruleActionBlock) :
    hitVerdict r b = ⟨verdictBlock, r.ruleId, 0, 1, verdictReasonRuleMatch⟩ := by
  simp [hitVerdict, ha]

theorem hitVerdict_audit (ha : r.action = ruleActionAudit) :
    hitVerdict r b = ⟨verdictAudit, r.ruleId, 0, 0, verdictReasonRuleMatch⟩ := by
  simp [hitVerdict, ha, ruleActionAudit, ruleActionBlock]

theorem hitVerdict_allow (ha : r.action = ruleActionAllow) :
    hitVerdict r b = ⟨verdictPermit, r.ruleId, 0, 0, verdictReasonRuleMatch⟩ := by
  simp [hitVerdict, ha, ruleActionAllow, ruleActionAudit, ruleActionBlock, ruleActionRateLimit]

theorem hitVerdict_admitted (ha : r.action = ruleActionRateLimit) :
    hitVerdict r true = ⟨verdictAudit, r.ruleId, 0, 0, verdictReasonRuleMatch⟩ := by
  simp [hitVerdict, ha, ruleActionAudit, ruleActionBlock, ruleActionRateLimit]

theorem hitVerdict_overLimit (ha : r.action = ruleActionRateLimit) :
    hitVerdict r false = ⟨verdictBlock, r.ruleId, 1, 1, verdictReasonRuleMatch⟩ := by
  simp [hitVerdict, ha, ruleActionAudit, ruleActionBlock, ruleActionRateLimit]

theorem defaultVerdict_permit (hp : snap.defaultPolicy = verdictPermit) :
    defaultVerdict (some snap) = ⟨verdictPermit, 0, 0, 0, verdictReasonNoMatch⟩ := by
  simp [defaultVerdict, hp, verdictPermit, verdictBlock]

theorem defaultVerdict_block (hp : snap.defaultPolicy = verdictBlock) :
    defaultVerdict (some snap) = ⟨verdictBlock, 0, 0, 1, verdictReasonNoMatch⟩ := by
  simp [defaultVerdict, hp]

theorem ruleVerdict_none (h : ruleHit (some snap) tuple = none) :
    ruleVerdict (some snap) tuple now t = some (defaultVerdict (some snap), t) := by
  simp [ruleVerdict, h]

theorem ruleVerdict_hit (h : ruleHit (some snap) tuple = some r)
    (ha : r.action ≠ ruleActionRateLimit) :
    ruleVerdict (some snap) tuple now t = some (hitVerdict r true, t) := by
  simp [ruleVerdict, h, ha]

theorem ruleVerdict_rateLimit (h : ruleHit (some snap) tuple = some r)
    (ha : r.action = ruleActionRateLimit) :
    ruleVerdict (some snap) tuple now t =
      (rateAllow r now t).map fun p => (hitVerdict r p.1, p.2) := by
  simp [ruleVerdict, h, ha]

end Verdicts

/-- The verdict by the rule that decides. -/
theorem policyVerdict_of_decides (hv : r.Valid) (hd : Decides S tuple r) :
    (r.action ≠ ruleActionRateLimit → ∀ {policy now t},
      PolicyVerdict S policy tuple now t (hitVerdict r true) t) ∧
    (r.action = ruleActionRateLimit → ∀ {policy now t} p, rateAllow r now t = some p →
      PolicyVerdict S policy tuple now t (hitVerdict r p.1) p.2) := by
  constructor
  · intro hne policy now t
    rcases hv.action_cases with ha | ha | ha | ha
    · rw [hitVerdict_allow ha]
      exact .allow hd ha
    · rw [hitVerdict_block ha]
      exact .block hd ha
    · rw [hitVerdict_audit ha]
      exact .audit hd ha
    · exact absurd ha hne
  · intro ha policy now t p hb
    obtain ⟨admitted, t'⟩ := p
    cases admitted with
    | true =>
      rw [hitVerdict_admitted ha]
      exact .admitted hd ha hb
    | false =>
      rw [hitVerdict_overLimit ha]
      exact .overLimit hd ha hb

/-- Evaluation of a well-formed snapshot is the declarative policy. -/
theorem ruleVerdict_iff (h : snap.WellFormed) :
    ruleVerdict (some snap) tuple now t = some (out, t') ↔
      PolicyVerdict {r | r ∈ snap.rules} snap.defaultPolicy tuple now t out t' := by
  constructor
  · intro hv
    cases hh : ruleHit (some snap) tuple with
    | none =>
      have hn := ruleHit_eq_none.mp hh
      rw [ruleVerdict_none hh] at hv
      cases hv
      rcases h.policy with hp | hp
      · rw [defaultVerdict_permit hp]
        exact .defaultPermit hn hp
      · rw [defaultVerdict_block hp]
        exact .defaultBlock hn hp
    | some hit =>
      have hd := (decides_iff h).mpr hh
      have hdec := policyVerdict_of_decides (h.valid hit hd.1) hd
      by_cases ha : hit.action = ruleActionRateLimit
      · rw [ruleVerdict_rateLimit hh ha] at hv
        obtain ⟨p, hb, he⟩ := Option.map_eq_some_iff.mp hv
        cases he
        exact hdec.2 ha p hb
      · rw [ruleVerdict_hit hh ha] at hv
        cases hv
        exact hdec.1 ha
  · intro hv
    cases hv with
    | block hd ha =>
      rw [ruleVerdict_hit ((decides_iff h).mp hd) (by rw [ha]; decide), hitVerdict_block ha]
    | audit hd ha =>
      rw [ruleVerdict_hit ((decides_iff h).mp hd) (by rw [ha]; decide), hitVerdict_audit ha]
    | allow hd ha =>
      rw [ruleVerdict_hit ((decides_iff h).mp hd) (by rw [ha]; decide), hitVerdict_allow ha]
    | admitted hd ha hb =>
      rw [ruleVerdict_rateLimit ((decides_iff h).mp hd) ha, hb, ← hitVerdict_admitted ha]
      rfl
    | overLimit hd ha hb =>
      rw [ruleVerdict_rateLimit ((decides_iff h).mp hd) ha, hb, ← hitVerdict_overLimit ha]
      rfl
    | defaultPermit hn hp =>
      rw [ruleVerdict_none (ruleHit_eq_none.mpr hn), defaultVerdict_permit hp]
    | defaultBlock hn hp =>
      rw [ruleVerdict_none (ruleHit_eq_none.mpr hn), defaultVerdict_block hp]

/-- Only the slot of a RATE_LIMIT rule that decides is written. -/
theorem PolicyVerdict.frame (h : PolicyVerdict S policy tuple now t out t')
    (j : Fin rateTableSize) : t'[j] = t[j] ∨ ∃ r, Decides S tuple r ∧
      r.action = ruleActionRateLimit ∧ t'[j].Holds r.ruleId ∧
      (t[j].inUse = true → t[j].ruleId = r.ruleId) := by
  cases h with
  | admitted hd ha hb => exact (rateAllow_frame hb j).imp_right fun hj => ⟨_, hd, ha, hj⟩
  | overLimit hd ha hb => exact (rateAllow_frame hb j).imp_right fun hj => ⟨_, hd, ha, hj⟩
  | block | audit | allow | defaultPermit | defaultBlock => exact .inl rfl

/-- In every reachable store the evaluation of the current snapshot succeeds with the verdict
of the policy, which is the only one and is a matter of the set of rules and the default policy
alone, and it touches no bucket but that of the deciding RATE_LIMIT rule. -/
theorem evaluate_policy (h : Store.system.Reachable s) (tuple : ClassifyTuple) (c : Clock)
    (t : RateTable) (stats : RuleStats) : ∃ out t',
      (ruleEvaluate (some s.current) tuple c t stats).map (fun r => (r.1, r.2.1)) =
        some (out, t') ∧
      (∀ out' t'', PolicyVerdict {r | r ∈ s.current.rules} s.current.defaultPolicy tuple
        (qpcMs c) t out' t'' ↔ out' = out ∧ t'' = t') ∧
      ∀ j : Fin rateTableSize, t'[j] = t[j] ∨ ∃ r, Decides {r | r ∈ s.current.rules} tuple r ∧
        r.action = ruleActionRateLimit ∧ t'[j].Holds r.ruleId ∧
        (t[j].inUse = true → t[j].ruleId = r.ruleId) := by
  have hw : s.current.WellFormed := (Store.wellFormed_reachable h).current
  have hsome : (ruleVerdict (some s.current) tuple (qpcMs c) t).isSome = true :=
    ruleVerdict_isSome fun r hr ha => (hw.valid r hr).rateIntervalMs_ne ha
  obtain ⟨⟨out, t'⟩, hv⟩ := Option.isSome_iff_exists.mp hsome
  refine ⟨out, t', by simp [ruleEvaluate, hv], ?_, ((ruleVerdict_iff hw).mp hv).frame⟩
  intro out' t''
  rw [← ruleVerdict_iff hw, hv]
  constructor
  · intro he
    cases he
    exact ⟨rfl, rfl⟩
  · rintro ⟨rfl, rfl⟩
    rfl

theorem evaluate_policy_blockAll :
    let store := ((Store.init rateTableEmpty).run (ruleStoreAdd
      (some { ruleZero with ruleId := 5, action := ruleActionBlock, enabled := 1 })) .granted).2
    store.current.version = 1 ∧ ∃ out t',
      (ruleEvaluate (some store.current) tupleZero ⟨0, 0, 0, 1⟩ store.rates
        ⟨0, 0, 0, 0, 0, 0, 0, 0, 0, 0⟩).map (fun r => (r.1, r.2.1)) = some (out, t') ∧
      PolicyVerdict {r | r ∈ store.current.rules} store.current.defaultPolicy tupleZero 0
        store.rates out t' := by
  have hstep : Store.system.step (.init rateTableEmpty) ⟨.add (some
      { ruleZero with ruleId := 5, action := ruleActionBlock, enabled := 1 }), .granted⟩ _ := .call
  have hinit : Store.system.Reachable (.init rateTableEmpty) := .of_init ⟨_, rfl⟩
  obtain ⟨out, t', he, hp, -⟩ := evaluate_policy (hinit.step hstep) tupleZero ⟨0, 0, 0, 1⟩
    rateTableEmpty ⟨0, 0, 0, 0, 0, 0, 0, 0, 0, 0⟩
  exact ⟨by decide +kernel, out, t', he, (hp out t').mpr ⟨rfl, rfl⟩⟩

end Sentinel
