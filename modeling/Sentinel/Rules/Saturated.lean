import Sentinel.Rules.RateBound

/-! What a rate limit gives for certain: it refuses only callers that have had all that is due. -/
namespace Sentinel

open Transition TokenBucket

variable {rule r : Rule} {now c : UInt64} {t t' t₀ : RateTable} {e e' : RateEntry} {b : Bool}
  {k : Fin rateTableSize} {as : List RateUse} {a : RateUse}

/-- The rate limit keeps its numbers and its slot, and no refill of it wraps around. -/
def Unwrapped (rule : Rule) (t : RateTable) : RateUse → Prop
  | .allow r now _ => r.ruleId = rule.ruleId → r.params = rule.params ∧
    ∀ k : Fin rateTableSize, t[k].Holds rule.ruleId → SumFits r now t[k]
  | .reset ruleId => ruleId ≠ rule.ruleId

theorem Unwrapped.keepsRule (h : Unwrapped rule t a) : KeepsRule rule t a := by
  cases a with
  | allow => exact fun hid => (h hid).1
  | reset => exact h

/-- A refill that does not wrap gives just what is due. -/
theorem rateRefill_exact (he : rateRefill rule now e = some e') (hf : SumFits rule now e) :
    e'.bucket = refill rule.params e.bucket now.toNat := by
  obtain ⟨hlast, htokens⟩ := rateRefill_spec he
  have hcap : (refill rule.params e.bucket now.toNat).tokens = min rule.burst.toNat
      (e.tokens.toNat + due rule.params e.bucket now.toNat * rule.rateTokens.toNat) := rfl
  obtain ⟨hle, hfits⟩ := hf
  have htok : e'.tokens.toNat = (refill rule.params e.bucket now.toNat).tokens := by
    rw [htokens, hcap]
    split
    · rename_i hz
      rw [hz, Nat.zero_mul]
      omega
    · generalize e.tokens.toNat + due rule.params e.bucket now.toNat * rule.rateTokens.toNat =
        sum at hfits ⊢
      rcases hfits with hlt | hfull
      · rw [Nat.mod_eq_of_lt hlt]
      · have hmod := Nat.mod_le sum (2 ^ 64)
        omega
  rw [RateEntry.bucket, hlast, htok]

theorem rateTake_exact (he : rateRefill rule now e = some e') (hf : SumFits rule now e) :
    ExactCall rule.params e.bucket now.toNat (rateTake e').1 (rateTake e').2.bucket := by
  have hb := rateRefill_exact he hf
  obtain ⟨hkeep, htake⟩ := rateTake_spec e'
  refine ⟨?_, ?_, ?_⟩
  · rw [← hb]
    exact congrArg UInt64.toNat hkeep
  · rw [← hb]
    exact htake
  · intro hno
    rw [← hb]
    rw [rateTake] at hno
    split at hno
    · cases hno
    · rename_i hz
      rw [UInt64.lt_iff_toNat_lt] at hz
      exact Nat.le_zero.mp (Nat.le_of_not_lt hz)

/-- A step is an exact call of the bucket or leaves it alone. -/
theorem exact_step (h : RateStep t a t') (hg : Unwrapped rule t a) (ht : Owned rule k t) :
    ExactCalls rule.params t[k].bucket (callsOf rule.ruleId [a]) t'[k].bucket := by
  have hkeep : t'[k] = t[k] → callsOf rule.ruleId [a] = [] →
      ExactCalls rule.params t[k].bucket (callsOf rule.ruleId [a]) t'[k].bucket := by
    intro he hcalls
    rw [hcalls, he]
    exact .nil
  cases h with
  | reset => exact hkeep (ruleRateReset_other ht.holds hg) rfl
  | @allow _ r now b h =>
    by_cases hr : r.ruleId = rule.ruleId
    · have hcalls : callsOf rule.ruleId [.allow r now b] = [(now.toNat, b)] := by
        simp only [callsOf, List.filterMap_cons, if_pos hr, List.filterMap_nil]
      obtain ⟨hparams, hfits⟩ := hg hr
      obtain ⟨e, he, rfl, rfl⟩ := rateAllow_own ht.unique (hr ▸ ht.holds) h
      have hcall := rateTake_exact he (hfits k ht.holds)
      have hset : (t.set k (rateTake e).2)[k] = (rateTake e).2 := by
        rw [getElem_set_slot, if_pos rfl]
      rw [hcalls, hset, ← hparams]
      exact .cons hcall .nil
    · have hcalls : callsOf rule.ruleId [.allow r now b] = [] := by
        simp only [callsOf, List.filterMap_cons, if_neg hr, List.filterMap_nil]
      exact hkeep (rateAllow_other ht.holds hr h) hcalls

/-- A run is an exact run of the bucket. -/
theorem exact_run (h : (rateSystem.restrict (Unwrapped rule)).Run t as t') (ht : Owned rule k t) :
    ExactCalls rule.params t[k].bucket (callsOf rule.ruleId as) t'[k].bucket := by
  induction h with
  | refl => exact .nil
  | head hs _ ih =>
    obtain ⟨ht', -⟩ := owned_step hs.2 hs.1.keepsRule ht
    rw [callsOf_cons]
    exact (exact_step hs.2 hs.1 ht).append (ih ht')

/-- The call that creates the bucket finds it full. -/
theorem exact_create (hu : t.Unique) (ho : t.Opens r.ruleId) (hid : r.ruleId = rule.ruleId)
    (hparams : r.params = rule.params) (h : rateAllow r now t = some (b, t')) :
    ∃ k, Owned rule k t' ∧ ExactCalls rule.params ⟨rule.params.burst, now.toNat⟩
      [(now.toNat, b)] t'[k].bucket := by
  obtain ⟨k, hown, -⟩ := owned_create hu ho hid hparams h
  obtain ⟨hn, i, hfree⟩ := ho
  rcases @startsFull_of_not_has r now t hn with ⟨hfull, -⟩ | ⟨j, -, hj⟩
  · exact absurd ((hfull i).symm.trans hfree) (by decide)
  · rw [h] at hj
    cases hj
    let e : RateEntry := ⟨r.ruleId, r.burst.toUInt64, now, true⟩
    have hset : (t.set j (rateTake e).2)[j] = (rateTake e).2 := by
      rw [getElem_set_slot, if_pos rfl]
    have hholds : (t.set j (rateTake e).2)[j].Holds rule.ruleId := by
      rw [hset]
      exact rateTake_holds ⟨rfl, hid⟩
    obtain rfl : j = k := hown.unique _ _ _ hholds hown.holds
    have he : rateRefill r now e = some e := by
      rw [rateRefill, if_neg (fun hlt => Nat.lt_irrefl _ (UInt64.lt_iff_toNat_lt.mp hlt))]
    have htokens : e.tokens.toNat = r.burst.toNat := UInt32.toNat_toUInt64 _
    have hdue : due r.params e.bucket now.toNat = 0 := by
      rw [due, RateEntry.bucket, Nat.sub_self, Nat.zero_div]
    have hfits : SumFits r now e := by
      refine ⟨htokens.le, .inl ?_⟩
      rw [hdue, Nat.zero_mul]
      exact e.tokens.toNat_lt
    have hcall := rateTake_exact he hfits
    have hbucket : e.bucket = ⟨rule.params.burst, now.toNat⟩ := by
      rw [RateEntry.bucket, htokens, ← hparams]
      rfl
    rw [hparams, hbucket] at hcall
    refine ⟨j, hown, ?_⟩
    rw [hset]
    exact .cons hcall .nil

/-- From the call at `c` that creates the bucket on, while no refill wraps around and the numbers
and the slot are kept: a call is refused only when the calls from some call on have been given a
burst and all the tokens of the intervals since, so that callers who never ask for more than that
are never refused. -/
theorem rate_served (hi : rule.rateIntervalMs ≠ 0) (ht₀ : rateSystem.Reachable t₀)
    (ho : t₀.Opens rule.ruleId) (hid : r.ruleId = rule.ruleId)
    (h : (rateSystem.restrict (Unwrapped rule)).Run t₀ (.allow r c b :: as) t) :
    (∀ front now post, callsOf rule.ruleId (.allow r c b :: as) = front ++ (now, false) :: post →
      ∃ pre call mid, front ++ [(now, false)] = pre ++ call :: mid ∧
        allowedCount (call :: mid) = rule.burst.toNat + rule.rateTokens.toNat *
          (intervals rule.params c.toNat (latest c.toNat (front ++ [(now, false)])) -
            intervals rule.params c.toNat (latest c.toNat (pre ++ [call])))) ∧
    ((∀ pre call mid post,
        callsOf rule.ruleId (.allow r c b :: as) = pre ++ call :: mid ++ post →
        (call :: mid).length ≤ rule.burst.toNat + rule.rateTokens.toNat *
          (intervals rule.params c.toNat (latest c.toNat (pre ++ call :: mid)) -
            intervals rule.params c.toNat (latest c.toNat (pre ++ [call])))) →
      ∀ call ∈ callsOf rule.ruleId (.allow r c b :: as), call.2 = true) := by
  have hp := interval_pos hi
  have hcalls : ∃ last, ExactCalls rule.params ⟨rule.params.burst, c.toNat⟩
      (callsOf rule.ruleId (.allow r c b :: as)) last := by
    cases h with
    | head hs hrun =>
      obtain ⟨hg, hs⟩ := hs
      cases hs with
      | allow hallow =>
        obtain ⟨k, hown, hfirst⟩ :=
          exact_create (unique_reachable ht₀) (hid.symm ▸ ho) hid (hg hid).1 hallow
        have hcreate : callsOf rule.ruleId [.allow r c b] = [(c.toNat, b)] := by
          simp only [callsOf, List.filterMap_cons, if_pos hid, List.filterMap_nil]
        rw [callsOf_cons, hcreate]
        exact ⟨_, hfirst.append (exact_run hrun hown)⟩
  obtain ⟨last, hcalls⟩ := hcalls
  refine ⟨?_, hcalls.conformant hp⟩
  intro front now post hsplit
  have he : front ++ (now, false) :: post = front ++ [(now, false)] ++ post := by simp
  rw [hsplit, he] at hcalls
  obtain ⟨b', hfirst, -⟩ := hcalls.split
  exact hfirst.refused hp

/-- Two connections in the first millisecond, one token. -/
theorem rate_served_fastRule : ∃ pre call mid, [(0, true), (0, false)] = pre ++ call :: mid ∧
    allowedCount (call :: mid) = fastRule.burst.toNat + fastRule.rateTokens.toNat *
      (intervals fastRule.params 0 (latest 0 [(0, true), (0, false)]) -
        intervals fastRule.params 0 (latest 0 (pre ++ [call]))) := by
  have hfirst : rateAllow fastRule 0 rateTableEmpty =
      some (true, rateTableEmpty.set 0 fastBucket) := by decide +kernel
  have hsecond : rateAllow fastRule 0 (rateTableEmpty.set 0 fastBucket) =
      some (false, rateTableEmpty.set 0 fastBucket) := by decide +kernel
  have hempty : ∀ k : Fin rateTableSize, rateTableEmpty[k].Holds fastRule.ruleId →
      SumFits fastRule 0 rateTableEmpty[k] := by
    intro k hk
    rw [getElem_rateTableEmpty] at hk
    exact absurd hk.1 (by decide)
  have hone : ∀ k : Fin rateTableSize,
      (rateTableEmpty.set 0 fastBucket)[k].Holds fastRule.ruleId →
      SumFits fastRule 0 (rateTableEmpty.set 0 fastBucket)[k] := by
    intro k hk
    rw [getElem_set_slot] at hk ⊢
    split
    · exact ⟨by decide, .inl (by decide)⟩
    · rename_i hne
      rw [if_neg hne, getElem_rateTableEmpty] at hk
      exact absurd hk.1 (by decide)
  have hrun : (rateSystem.restrict (Unwrapped fastRule)).Run rateTableEmpty
      [.allow fastRule 0 true, .allow fastRule 0 false] (rateTableEmpty.set 0 fastBucket) :=
    .head ⟨fun _ => ⟨rfl, hempty⟩, .allow hfirst⟩
      (.single ⟨fun _ => ⟨rfl, hone⟩, .allow hsecond⟩)
  exact (rate_served (by decide) (.of_init rfl) ⟨RateTable.not_has_empty, 0, rfl⟩ rfl hrun).1
    [(0, true)] 0 [] rfl

end Sentinel
