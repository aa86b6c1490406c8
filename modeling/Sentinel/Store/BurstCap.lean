import Sentinel.Rules.RateBound
import Sentinel.Store.Buckets

/-! The tokens of a slot against the burst of the rule that is evaluated. -/
namespace Sentinel

open Transition TokenBucket

variable {rule hit : Rule} {now x : UInt64} {t t' : RateTable} {b : Bool} {tuple : ClassifyTuple}
  {k : Fin rateTableSize} {p : Params}

/-- The slot of the rule has no more tokens than its burst, or an interval has gone by since its
last refill. -/
def Capped (rule : Rule) (now : UInt64) (t : RateTable) : Prop :=
  ∀ k : Fin rateTableSize, t[k].Holds rule.ruleId →
    t[k].tokens.toNat ≤ rule.burst.toNat ∨ due rule.params t[k].bucket now.toNat ≠ 0

/-- The slot of the rule has fewer tokens than its burst. -/
def BelowBurst (rule : Rule) (t : RateTable) : Prop :=
  ∀ k : Fin rateTableSize, t[k].Holds rule.ruleId → t[k].tokens.toNat < rule.burst.toNat

/-- The refill caps the tokens, and only the refill does. -/
theorem belowBurst_iff (hu : t.Unique) (hb : rule.burst ≠ 0)
    (h : rateAllow rule now t = some (b, t')) : BelowBurst rule t' ↔ Capped rule now t := by
  have hpos : 0 < rule.burst.toNat :=
    Nat.pos_of_ne_zero fun hz => hb (UInt32.toNat_inj.mp hz)
  have hu' := rateAllow_unique h hu
  have hslot : ∀ (k : Fin rateTableSize) (e : RateEntry), t' = t.set k e → e.Holds rule.ruleId →
      (BelowBurst rule t' ↔ e.tokens.toNat < rule.burst.toNat) := by
    intro k e he hh
    have hk : t'[k] = e := by rw [he, getElem_set_slot, if_pos rfl]
    constructor
    · intro hbelow
      have hlt := hbelow k (hk ▸ hh)
      rwa [hk] at hlt
    · intro hlt j hj
      have hjk : j = k := hu' _ _ _ hj (hk ▸ hh)
      rw [hjk, hk]
      exact hlt
  by_cases hk : t.Has rule.ruleId
  · obtain ⟨k, hk⟩ := hk
    obtain ⟨e, he, -, hset⟩ := rateAllow_own hu hk h
    obtain ⟨-, htokens⟩ := rateRefill_spec he
    rw [hslot k _ hset (rateTake_holds (rateRefill_holds he hk)), rateTake_tokens, htokens]
    have hcapped : Capped rule now t ↔ t[k].tokens.toNat ≤ rule.burst.toNat ∨
        due rule.params t[k].bucket now.toNat ≠ 0 := by
      refine ⟨fun hc => hc k hk, fun hc j hj => ?_⟩
      rw [hu _ _ _ hj hk]
      exact hc
    rw [hcapped]
    split <;> omega
  · refine iff_of_true ?_ fun j hj => absurd ⟨j, hj⟩ hk
    rcases @startsFull_of_not_has rule now t hk with ⟨-, hfull⟩ | ⟨k, -, hopen⟩
    · rw [h] at hfull
      cases hfull
      exact fun j hj => absurd ⟨j, hj⟩ hk
    · rw [h] at hopen
      cases hopen
      rw [hslot k _ rfl (rateTake_holds ⟨rfl, rfl⟩), rateTake_tokens]
      have hburst : rule.burst.toUInt64.toNat = rule.burst.toNat := UInt32.toNat_toUInt64 _
      simp only [hburst]
      omega

/-! ### A slot that stays -/

theorem ruleRateReset_keeps (hu : t.Unique) (hk : t[k].Holds x) {id : UInt64}
    (h : (ruleRateReset id t).Has x) : (ruleRateReset id t)[k] = t[k] :=
  ruleRateReset_other hk ((ruleRateReset_has hu).mp h).2.symm

theorem rateResetRemoved_keeps {old new : List Rule} (hu : t.Unique) (hk : t[k].Holds x)
    (h : (rateResetRemoved old new t).Has x) : (rateResetRemoved old new t)[k] = t[k] := by
  induction old generalizing t with
  | nil => rfl
  | cons r old ih =>
    have hstep : rateResetRemoved (r :: old) new t = rateResetRemoved old new
        (if new.any fun r' => r'.ruleId == r.ruleId then t else ruleRateReset r.ruleId t) := rfl
    rw [hstep] at h ⊢
    split at h
    · rename_i hin
      rw [if_pos hin]
      exact ih hu hk h
    · rename_i hout
      rw [if_neg hout]
      have hu' : (ruleRateReset r.ruleId t).Unique := ruleRateReset_unique hu
      have hhas := ((rateResetRemoved_spec old new x hu').2.mp h).1
      have hsame := ruleRateReset_keeps hu hk hhas
      rw [ih hu' (hsame ▸ hk) h, hsame]

namespace Store

variable {s u : Store} {req : Request} {env : Env} {w : Writer} {d : RuleSet} {as : List Use}

theorem run_keeps (hs : s.Buckets) (hk : s.rates[k].Holds x)
    (h : (s.run req.writer env).2.rates.Has x) :
    (s.run req.writer env).2.rates[k] = s.rates[k] := by
  rcases run_cases s req.writer env with ⟨-, he⟩ | ⟨hp, ⟨-, he⟩ | ⟨-, ⟨st, -, he⟩ |
    ⟨d, hd, ⟨-, he⟩ | ⟨-, ⟨-, he⟩ | ⟨-, he⟩⟩⟩⟩⟩
  case inr.inr.inr.inr.inr =>
    rw [he] at h ⊢
    have hspec := rateResetRemoved_spec s.current.rules d.rules x hs.unique
    have hrates : (s.commit req.writer d).rates = req.writer.resets.elim
      (rateResetRemoved s.current.rules d.rules s.rates)
      (ruleRateReset · (rateResetRemoved s.current.rules d.rules s.rates)) := rfl
    rw [hrates] at h ⊢
    cases hw : req.writer.resets with
    | none =>
      rw [hw] at h
      exact rateResetRemoved_keeps hs.unique hk h
    | some id =>
      rw [hw, Option.elim_some] at h
      have hhas := ((ruleRateReset_has hspec.1).mp h).1
      have hsame := rateResetRemoved_keeps hs.unique hk hhas
      rw [Option.elim_some, ruleRateReset_keeps hspec.1 (hsame ▸ hk) h, hsame]
  all_goals rw [he]

/-- Does the evaluation let a connection of the rule through? -/
def lets (x : UInt64) (s : Store) (tuple : ClassifyTuple) (out : Verdict) : Bool :=
  (ruleHit (some s.current) tuple).any (fun hit => hit.ruleId == x) && out.rateLimited == 0

/-- The evaluations of a run that let a connection of the rule through. -/
def allowedIn (x : UInt64) : Store → List Use → ℕ
  | _, [] => 0
  | s, .call req env :: as => allowedIn x (s.run req.writer env).2 as
  | s, .evaluate tuple now :: as =>
    match ruleVerdict (some s.current) tuple now s.rates with
    | none => 0
    | some (out, rates) => (lets x s tuple out).toNat + allowedIn x { s with rates := rates } as

/-- Every rate limit that is evaluated is capped. -/
def CappedUse (s : Store) : Use → Prop
  | .call _ _ => True
  | .evaluate tuple now => ∀ hit, ruleHit (some s.current) tuple = some hit →
      hit.action = ruleActionRateLimit → Capped hit now s.rates

/-- The rule keeps its slot and its numbers, and is not evaluated an interval after the last
refill. -/
def Within (x : UInt64) (p : Params) (s : Store) : Use → Prop
  | .call req env => (s.run req.writer env).2.rates.Has x
  | .evaluate tuple now => ∀ hit, ruleHit (some s.current) tuple = some hit → hit.ruleId = x →
      hit.action = ruleActionRateLimit ∧ hit.params = p ∧
        ∀ k : Fin rateTableSize, s.rates[k].Holds x → due p s.rates[k].bucket now.toNat = 0

theorem lets_rateLimit (ha : hit.action = ruleActionRateLimit)
    (hh : ruleHit (some s.current) tuple = some hit) :
    lets x s tuple (hitVerdict hit b) = (hit.ruleId == x && b) := by
  have hblock : ruleActionRateLimit ≠ ruleActionBlock := by decide
  have haudit : ruleActionRateLimit ≠ ruleActionAudit := by decide
  rw [lets, hh, hitVerdict, ha, if_neg hblock, if_neg haudit, if_pos rfl]
  cases b <;> rfl

/-- Without a refill a bucket gives what it has. -/
theorem evaluate_spends {out : Verdict} {rates : RateTable} (hs : s.Buckets)
    (hk : s.rates[k].Holds x) (hw : Within x p s (.evaluate tuple now))
    (hv : ruleVerdict (some s.current) tuple now s.rates = some (out, rates)) :
    rates[k].Holds x ∧
      rates[k].tokens.toNat + (lets x s tuple out).toNat = s.rates[k].tokens.toNat := by
  rw [ruleVerdict] at hv
  cases hh : ruleHit (some s.current) tuple with
  | none =>
    rw [hh] at hv
    cases hv
    have hlets : lets x s tuple (defaultVerdict (some s.current)) = false := by
      rw [lets, hh, Option.any_none, Bool.false_and]
    rw [hlets]
    exact ⟨hk, rfl⟩
  | some hit =>
    rw [hh] at hv
    dsimp only at hv
    by_cases ha : hit.action = ruleActionRateLimit
    · rw [if_pos ha] at hv
      obtain ⟨⟨b, t'⟩, hr, he⟩ := Option.map_eq_some_iff.mp hv
      cases he
      rw [lets_rateLimit ha hh]
      by_cases hx : hit.ruleId = x
      · obtain ⟨-, hparams, hdue⟩ := hw hit hh hx
        obtain ⟨e, he, rfl, rfl⟩ := rateAllow_own hs.unique (hx.symm ▸ hk) hr
        obtain ⟨-, htokens⟩ := rateRefill_spec he
        rw [hparams, if_pos (hdue k hk)] at htokens
        have htake := (rateTake_spec e).2
        have hset : (s.rates.set k (rateTake e).2)[k] = (rateTake e).2 := by
          rw [getElem_set_slot, if_pos rfl]
        rw [hset, ← htokens, beq_iff_eq.mpr hx, Bool.true_and]
        exact ⟨rateTake_holds (rateRefill_holds he hk), htake⟩
      · rw [rateAllow_other hk hx hr, beq_eq_false_iff_ne.mpr hx, Bool.false_and]
        exact ⟨hk, rfl⟩
    · rw [if_neg ha] at hv
      cases hv
      have hx : hit.ruleId ≠ x := fun hx => ha (hw hit hh hx).1
      rw [lets, hh, Option.any_some, beq_eq_false_iff_ne.mpr hx, Bool.false_and]
      exact ⟨hk, rfl⟩

/-- What a bucket lets through without a refill was in it. -/
theorem allowedIn_le (hs : s.Buckets) (hk : s.rates[k].Holds x)
    (h : (usage.restrict (Within x p)).Run s as u) :
    allowedIn x s as ≤ s.rates[k].tokens.toNat := by
  induction h with
  | refl => exact Nat.zero_le _
  | head hst _ ih =>
    obtain ⟨hw, hst⟩ := hst
    have hs' := buckets_step hst hs
    cases hst with
    | call =>
      have hsame := run_keeps hs hk hw
      have hle := ih hs' (hsame ▸ hk)
      rw [hsame] at hle
      exact hle
    | evaluate hv =>
      obtain ⟨hk', hspent⟩ := evaluate_spends hs hk hw hv
      have hle := ih hs' hk'
      rw [allowedIn, hv]
      dsimp only at hle ⊢
      omega

/-- A bucket above the burst that is not refilled may not be evaluated. -/
theorem lets_false {out : Verdict} (hk : s.rates[k].Holds x)
    (hT : ¬ s.rates[k].tokens.toNat ≤ p.burst) (hc : CappedUse s (.evaluate tuple now))
    (hw : Within x p s (.evaluate tuple now)) : lets x s tuple out = false := by
  rw [lets, Bool.and_eq_false_iff]
  left
  cases hh : ruleHit (some s.current) tuple with
  | none => rfl
  | some hit =>
    rw [Option.any_some, beq_eq_false_iff_ne]
    rintro rfl
    obtain ⟨ha, hparams, hdue⟩ := hw hit hh rfl
    rcases hc hit hh ha k hk with hle | hne
    · have hburst : hit.burst.toNat = p.burst := congrArg Params.burst hparams
      exact hT (hburst ▸ hle)
    · exact hne (hparams ▸ hdue k hk)

/-- The first evaluation of the rule in a run finds its bucket within the burst. -/
theorem allowedIn_le_burst (hs : s.Buckets) (hk : s.rates[k].Holds x)
    (h : (usage.restrict fun s a => CappedUse s a ∧ Within x p s a).Run s as u) :
    allowedIn x s as ≤ p.burst := by
  have hwithin := h.weaken fun s a hg => hg.2
  by_cases hT : s.rates[k].tokens.toNat ≤ p.burst
  · exact (allowedIn_le hs hk hwithin).trans hT
  clear hwithin
  induction h with
  | refl => exact Nat.zero_le _
  | head hst _ ih =>
    obtain ⟨⟨hc, hw⟩, hst⟩ := hst
    have hs' := buckets_step hst hs
    cases hst with
    | call =>
      have hsame := run_keeps hs hk hw
      exact ih hs' (hsame ▸ hk) (hsame ▸ hT)
    | evaluate hv =>
      obtain ⟨hk', hspent⟩ := evaluate_spends hs hk hw hv
      rw [lets_false hk hT hc hw, Bool.toNat_false, Nat.add_zero] at hspent
      have hle := ih hs' hk' (by rw [hspent]; exact hT)
      rw [allowedIn, hv]
      dsimp only at hle ⊢
      rw [lets_false hk hT hc hw, Bool.toNat_false, Nat.zero_add]
      exact hle

/-- After an evaluation the slot of the rate limit hit is below its burst just when it was within
the burst or an interval has gone by; and while all rate limits are evaluated so, no more than
the burst gets through between two refills, whatever the burst was before. -/
theorem burst_cap (h : usage.Reachable s) :
    (∀ tuple now hit b rates, ruleHit (some s.current) tuple = some hit →
      hit.action = ruleActionRateLimit → rateAllow hit now s.rates = some (b, rates) →
      (BelowBurst hit rates ↔ Capped hit now s.rates)) ∧
    ∀ x p as u, s.rates.Has x →
      (usage.restrict fun s a => CappedUse s a ∧ Within x p s a).Run s as u →
      allowedIn x s as ≤ p.burst := by
  have hb := buckets_reachable h
  refine ⟨fun tuple now hit b rates hh ha hr => ?_, fun x p as u ⟨k, hk⟩ hrun => ?_⟩
  · have hvalid := hb.wellFormed.current.valid hit (ruleHit_spec hh).1
    have hburst : hit.burst ≠ 0 := hvalid.burst_ne ha
    exact belowBurst_iff hb.unique hburst hr
  · exact allowedIn_le_burst hb hk hrun

/-- A burst of five. -/
def burstRule : Rule :=
  { ruleZero with
    ruleId := 7, action := ruleActionRateLimit, enabled := 1
    rateTokens := 1, rateIntervalMs := 1000, burst := 5 }

/-- The store with the rule, and so many tokens in its bucket. -/
def burstUsed (tokens : UInt64) : Store where
  current := ⟨[burstRule], 1, verdictPermit⟩
  rollbackSlot := some ⟨[], 0, verdictPermit⟩
  rates := rateTableEmpty.set 0 ⟨7, tokens, 5, true⟩

theorem burstUsed_reachable : usage.Reachable (burstUsed 4) := by
  let added := ((init rateTableEmpty).run (ruleStoreAdd (some burstRule)) .granted).2
  have hadd : UseStep (init rateTableEmpty) (.call (.add (some burstRule)) .granted) added := .call
  have hv : ruleVerdict (some added.current) tupleZero 5 added.rates =
      some (⟨verdictAudit, 7, 0, 0, verdictReasonRuleMatch⟩, (burstUsed 4).rates) := by
    decide +kernel
  exact ((Transition.System.Reachable.of_init rfl).step hadd).step (.evaluate hv)

theorem burstUsed_hit {tokens : UInt64} :
    ruleHit (some (burstUsed tokens).current) tupleZero = some burstRule := by
  have hmatch : ruleMatch burstRule tupleZero = true := by decide
  simp [ruleHit, burstUsed, hmatch]

theorem burstUsed_holds {tokens x : UInt64} {k : Fin rateTableSize}
    (h : (burstUsed tokens).rates[k].Holds x) :
    (burstUsed tokens).rates[k] = ⟨7, tokens, 5, true⟩ := by
  have hk : (burstUsed tokens).rates[k] =
      if (0 : Fin rateTableSize) = k then ⟨7, tokens, 5, true⟩ else rateTableEmpty[k] :=
    getElem_set_slot ..
  rw [hk] at h ⊢
  split at h
  · rename_i h0
    rw [if_pos h0]
  · exact absurd ⟨k, h⟩ RateTable.not_has_empty

/-- Four connections of one interval, with the tokens they find. -/
def burstCalls : List (UInt64 × UInt64) := [(4, 5), (3, 300), (2, 1000), (1, 1004)]

/-- An evaluation before the interval is over finds the bucket within the burst. -/
theorem burstUsed_step {tokens now : UInt64} (h : (tokens, now) ∈ burstCalls) :
    (usage.restrict fun s a => CappedUse s a ∧ Within 7 ⟨1, 1000, 5⟩ s a).step (burstUsed tokens)
      (.evaluate tupleZero now) (burstUsed (tokens - 1)) := by
  have hv : ∀ c ∈ burstCalls,
      ruleVerdict (some (burstUsed c.1).current) tupleZero c.2 (burstUsed c.1).rates =
        some (⟨verdictAudit, 7, 0, 0, verdictReasonRuleMatch⟩, (burstUsed (c.1 - 1)).rates) :=
    List.forall_iff_forall_mem.mp (by decide +kernel)
  have hfew : ∀ c ∈ burstCalls, c.1.toNat ≤ 5 ∧ (c.2.toNat - 5) / 1000 = 0 :=
    List.forall_iff_forall_mem.mp (by decide)
  have hstep : UseStep (burstUsed tokens) (.evaluate tupleZero now) (burstUsed (tokens - 1)) :=
    @UseStep.evaluate _ _ _ _ (burstUsed (tokens - 1)).rates (hv (tokens, now) h)
  refine ⟨⟨fun hit hh _ k hk => .inl ?_, fun hit hh _ => ?_⟩, hstep⟩
  · obtain rfl := Option.some.inj (burstUsed_hit.symm.trans hh)
    rw [burstUsed_holds hk]
    exact (hfew _ h).1
  · obtain rfl := Option.some.inj (burstUsed_hit.symm.trans hh)
    refine ⟨rfl, rfl, fun k hk => ?_⟩
    rw [burstUsed_holds hk]
    exact (hfew _ h).2

/-- Four connections in one interval. -/
theorem burst_cap_burstUsed :
    BelowBurst burstRule (burstUsed 3).rates ∧
      ∃ as, allowedIn 7 (burstUsed 4) as = 4 ∧ allowedIn 7 (burstUsed 4) as ≤ 5 := by
  have hcap := burst_cap burstUsed_reachable
  have hhas : (burstUsed 4).rates.Has 7 := ⟨0, rfl, rfl⟩
  constructor
  · have hallow : rateAllow burstRule 5 (burstUsed 4).rates = some (true, (burstUsed 3).rates) := by
      decide +kernel
    have hcapped : Capped burstRule 5 (burstUsed 4).rates := by
      intro k hk
      rw [burstUsed_holds hk]
      exact .inl (by decide)
    exact (hcap.1 tupleZero 5 burstRule true _ burstUsed_hit rfl hallow).mpr hcapped
  · let calls : List Use := [.evaluate tupleZero 5, .evaluate tupleZero 300,
      .evaluate tupleZero 1000, .evaluate tupleZero 1004]
    have hfour : allowedIn 7 (burstUsed 4) calls = 4 := by decide +kernel
    refine ⟨calls, hfour, ?_⟩
    exact hcap.2 7 ⟨1, 1000, 5⟩ _ (burstUsed 0) hhas <|
      .head (burstUsed_step (by decide)) <| .head (burstUsed_step (by decide)) <|
      .head (burstUsed_step (by decide)) <| .single (burstUsed_step (by decide))

/-- The rule has let one connection through, and an Update has lowered its burst to one. -/
def burstLowered : Store where
  current := ⟨[{ burstRule with burst := 1 }], 2, verdictPermit⟩
  rollbackSlot := some ⟨[burstRule], 1, verdictPermit⟩
  rates := rateTableEmpty.set 0 ⟨7, 4, 5, true⟩

theorem burstLowered_reachable : usage.Reachable burstLowered := by
  have hupdate : UseStep (burstUsed 4)
      (.call (.update (some { burstRule with burst := 1 })) .granted) burstLowered := by
    have he : burstLowered = ((burstUsed 4).run
      (ruleStoreUpdate (some { burstRule with burst := 1 })) .granted).2 := by decide +kernel
    rw [he]
    exact .call
  exact burstUsed_reachable.step hupdate

/-- The next call leaves three tokens under a burst of one. -/
theorem lowered_burst_exceeded : ¬ ∀ s, usage.Reachable s → ∀ tuple now hit b rates,
    ruleHit (some s.current) tuple = some hit → hit.action = ruleActionRateLimit →
    rateAllow hit now s.rates = some (b, rates) → BelowBurst hit rates := by
  intro h
  have hhit : ruleHit (some burstLowered.current) tupleZero =
      some { burstRule with burst := 1 } := by decide +kernel
  have hallow : rateAllow { burstRule with burst := 1 } 5 burstLowered.rates =
      some (true, rateTableEmpty.set 0 ⟨7, 3, 5, true⟩) := by decide +kernel
  have hbelow := h burstLowered burstLowered_reachable tupleZero 5 _ _ _ hhit rfl hallow
  exact absurd (hbelow 0 ⟨rfl, rfl⟩) (by decide +kernel)

end Store

end Sentinel
