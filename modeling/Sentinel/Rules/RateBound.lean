import Sentinel.General.System
import Sentinel.Rules.Refill

/-! How many connections a rate limit lets through, whatever the times of the calls. -/
namespace Sentinel

open Transition TokenBucket

/-- What happens to `g_RateTable` under `g_RateLock`; a caller has read its time before. -/
inductive RateUse where
  | allow (rule : Rule) (now : UInt64) (allowed : Bool)
  | reset (ruleId : UInt64)

inductive RateStep : RateTable → RateUse → RateTable → Prop where
  | allow {t t' : RateTable} {rule : Rule} {now : UInt64} {b : Bool}
      (h : rateAllow rule now t = some (b, t')) : RateStep t (.allow rule now b) t'
  | reset {t : RateTable} {ruleId : UInt64} : RateStep t (.reset ruleId) (ruleRateReset ruleId t)

/-- The calls of any number of threads in the order of the lock. -/
def rateSystem : System RateTable RateUse where
  init t := t = rateTableEmpty
  step := RateStep

/-- The rate limit keeps its numbers and its slot. -/
def KeepsRule (rule : Rule) (_ : RateTable) : RateUse → Prop
  | .allow r _ _ => r.ruleId = rule.ruleId → r.params = rule.params
  | .reset ruleId => ruleId ≠ rule.ruleId

/-- The calls for one id with their times and answers. -/
def callsOf (ruleId : UInt64) (as : List RateUse) : List (ℕ × Bool) :=
  as.filterMap fun
    | .allow r now b => if r.ruleId = ruleId then some (now.toNat, b) else none
    | .reset _ => none

variable {rule r : Rule} {now c : UInt64} {t t' t₀ : RateTable} {e e' : RateEntry} {b : Bool}
  {k : Fin rateTableSize} {as : List RateUse} {a : RateUse}

/-! ### One call -/

theorem rateTake_spec (e : RateEntry) :
    (rateTake e).2.lastRefillMs = e.lastRefillMs ∧
      (rateTake e).2.tokens.toNat + (rateTake e).1.toNat = e.tokens.toNat := by
  rw [rateTake]
  split
  · rename_i hpos
    have hone : (1 : UInt64) ≤ e.tokens := by
      rw [UInt64.lt_iff_toNat_lt] at hpos
      rw [UInt64.le_iff_toNat_le]
      exact hpos
    have hsub := UInt64.toNat_sub_of_le _ _ hone
    rw [UInt64.le_iff_toNat_le] at hone
    refine ⟨rfl, ?_⟩
    simp only [Bool.toNat_true, hsub]
    exact Nat.sub_add_cancel hone
  · exact ⟨rfl, rfl⟩

theorem rateTake_tokens (e : RateEntry) : (rateTake e).2.tokens.toNat = e.tokens.toNat - 1 := by
  have hspec := (rateTake_spec e).2
  by_cases hpos : 0 < e.tokens
  · have htrue : (rateTake e).1 = true := by rw [rateTake, if_pos hpos]
    rw [htrue, Bool.toNat_true] at hspec
    omega
  · have hfalse : (rateTake e).1 = false := by rw [rateTake, if_neg hpos]
    have hzero : e.tokens.toNat = 0 := by
      rw [UInt64.lt_iff_toNat_lt] at hpos
      exact Nat.le_zero.mp (Nat.le_of_not_lt hpos)
    rw [hfalse, Bool.toNat_false] at hspec
    omega

/-- A refill that wraps gives less than what is due, never more. -/
theorem rateTake_call (he : rateRefill rule now e = some e')
    (hcap : e.tokens.toNat ≤ rule.burst.toNat) :
    Call rule.params e.bucket now.toNat (rateTake e').1 (rateTake e').2.bucket := by
  obtain ⟨hlast, htokens⟩ := rateRefill_spec he
  obtain ⟨hkeep, htake⟩ := rateTake_spec e'
  refine ⟨?_, ?_⟩
  · rw [← hlast, ← hkeep]
    rfl
  · have hsum : (rateTake e').2.bucket.tokens + (rateTake e').1.toNat = e'.tokens.toNat := htake
    have hfull : (refill rule.params e.bucket now.toNat).tokens = min rule.burst.toNat
      (e.tokens.toNat + due rule.params e.bucket now.toNat * rule.rateTokens.toNat) := rfl
    rw [hsum, htokens, hfull]
    split
    · omega
    · have hmod := Nat.mod_le (e.tokens.toNat +
        due rule.params e.bucket now.toNat * rule.rateTokens.toNat) (2 ^ 64)
      omega

theorem not_holds_of_rateSlot_none {is : List (Fin rateTableSize)}
    {slot : Option (Fin rateTableSize)} {id : UInt64} (h : rateSlot t id is slot = none) :
    ∀ i ∈ is, ¬ t[i].Holds id := by
  induction is generalizing slot with
  | nil => exact nofun
  | cons i is ih =>
    rw [rateSlot] at h
    by_cases hi : t[i].Holds id
    · rw [if_pos hi] at h
      cases h
    · rw [if_neg hi] at h
      exact List.forall_mem_cons.mpr ⟨hi, ih h⟩

/-- A rule that has a slot is answered from it. -/
theorem rateAllow_own (hu : t.Unique) (hk : t[k].Holds rule.ruleId)
    (h : rateAllow rule now t = some (b, t')) :
    ∃ e, rateRefill rule now t[k] = some e ∧ b = (rateTake e).1 ∧ t' = t.set k (rateTake e).2 := by
  rw [rateAllow] at h
  split at h
  · rename_i hs
    exact absurd hk (not_holds_of_rateSlot_none hs k (List.mem_finRange k))
  · rename_i i hi
    have hik : i = k := by
      rcases rateSlot_own hi with hown | hnone
      · exact hu _ _ _ hown hk
      · exact absurd hk (hnone k (List.mem_finRange k))
    subst hik
    have hopen : rateOpen rule now t[i] = t[i] := if_pos hk.1
    rw [hopen] at h
    obtain ⟨e, he, hb⟩ := Option.map_eq_some_iff.mp h
    cases hb
    exact ⟨e, he, rfl, rfl⟩

/-- A call for another id leaves the slot alone. -/
theorem rateAllow_other {x : UInt64} (hk : t[k].Holds x) (hr : r.ruleId ≠ x)
    (h : rateAllow r now t = some (b, t')) : t'[k] = t[k] := by
  rcases rateAllow_frame h k with he | ⟨-, hown⟩
  · exact he
  · exact absurd ((hown hk.1).symm.trans hk.2) hr

theorem ruleRateReset_other {ruleId x : UInt64} (hk : t[k].Holds x) (hr : ruleId ≠ x) :
    (ruleRateReset ruleId t)[k] = t[k] := by
  rcases ruleRateReset_cases ruleId t with ⟨he, -⟩ | ⟨j, hj, he⟩
  · rw [he]
  · rw [he, getElem_set_slot, if_neg]
    rintro rfl
    exact hr (hj.2.symm.trans hk.2)

/-! ### Runs -/

theorem unique_step (h : RateStep t a t') (ht : t.Unique) : t'.Unique := by
  cases h with
  | allow h => exact rateAllow_unique h ht
  | reset => exact ruleRateReset_unique ht

theorem unique_reachable (h : rateSystem.Reachable t) : t.Unique := by
  refine h.invariant ?_ unique_step
  rintro t rfl
  exact RateTable.unique_empty

/-- The slot of the rule, with no more tokens than its burst. -/
structure Owned (rule : Rule) (k : Fin rateTableSize) (t : RateTable) : Prop where
  unique : t.Unique
  holds : t[k].Holds rule.ruleId
  capped : t[k].tokens.toNat ≤ rule.burst.toNat

/-- A step is a call of the bucket or leaves it alone. -/
theorem owned_step (h : RateStep t a t') (hg : KeepsRule rule t a) (ht : Owned rule k t) :
    Owned rule k t' ∧ Calls rule.params t[k].bucket (callsOf rule.ruleId [a]) t'[k].bucket := by
  have hkeep : t'[k] = t[k] → callsOf rule.ruleId [a] = [] → Owned rule k t' ∧
      Calls rule.params t[k].bucket (callsOf rule.ruleId [a]) t'[k].bucket := by
    intro he hcalls
    refine ⟨⟨unique_step h ht.unique, he ▸ ht.holds, he ▸ ht.capped⟩, ?_⟩
    rw [hcalls, he]
    exact .nil
  cases h with
  | reset => exact hkeep (ruleRateReset_other ht.holds hg) rfl
  | @allow _ r now b h =>
    by_cases hr : r.ruleId = rule.ruleId
    · have hcalls : callsOf rule.ruleId [.allow r now b] = [(now.toNat, b)] := by
        simp only [callsOf, List.filterMap_cons, if_pos hr, List.filterMap_nil]
      have hparams := hg hr
      obtain ⟨e, he, rfl, rfl⟩ := rateAllow_own ht.unique (hr ▸ ht.holds) h
      have hcap : t[k].tokens.toNat ≤ r.burst.toNat := by
        have hburst : r.burst.toNat = rule.burst.toNat := congrArg Params.burst hparams
        rw [hburst]
        exact ht.capped
      have hcall := rateTake_call he hcap
      rw [hparams] at hcall
      have hset : (t.set k (rateTake e).2)[k] = (rateTake e).2 := by
        rw [getElem_set_slot, if_pos rfl]
      refine ⟨⟨rateAllow_unique h ht.unique, ?_, ?_⟩, ?_⟩
      · rw [hset]
        exact rateTake_holds (rateRefill_holds he ht.holds)
      · rw [hset]
        exact (Nat.le_add_right _ _).trans hcall.tokens_le
      · rw [hcalls, hset]
        exact .cons hcall .nil
    · have hcalls : callsOf rule.ruleId [.allow r now b] = [] := by
        simp only [callsOf, List.filterMap_cons, if_neg hr, List.filterMap_nil]
      exact hkeep (rateAllow_other ht.holds hr h) hcalls

theorem callsOf_cons : callsOf rule.ruleId (a :: as) =
    callsOf rule.ruleId [a] ++ callsOf rule.ruleId as := by
  rw [← List.singleton_append]
  exact List.filterMap_append

/-- A run is a run of the bucket. -/
theorem owned_run (h : (rateSystem.restrict (KeepsRule rule)).Run t as t') (ht : Owned rule k t) :
    Owned rule k t' ∧ Calls rule.params t[k].bucket (callsOf rule.ruleId as) t'[k].bucket := by
  induction h with
  | refl => exact ⟨ht, .nil⟩
  | head hs _ ih =>
    obtain ⟨ht', hcall⟩ := owned_step hs.2 hs.1 ht
    obtain ⟨hend, hcalls⟩ := ih ht'
    rw [callsOf_cons]
    exact ⟨hend, hcall.append hcalls⟩

/-- The call that creates the bucket finds it full. -/
theorem owned_create (hu : t.Unique) (ho : t.Opens r.ruleId) (hid : r.ruleId = rule.ruleId)
    (hparams : r.params = rule.params) (h : rateAllow r now t = some (b, t')) :
    ∃ k, Owned rule k t' ∧ Calls rule.params ⟨rule.params.burst, now.toNat⟩
      [(now.toNat, b)] t'[k].bucket := by
  obtain ⟨hn, i, hfree⟩ := ho
  have hburst : r.burst.toNat = rule.burst.toNat := congrArg Params.burst hparams
  rcases @startsFull_of_not_has r now t hn with ⟨hfull, -⟩ | ⟨k, -, hk⟩
  · exact absurd ((hfull i).symm.trans hfree) (by decide)
  · rw [h] at hk
    cases hk
    let e : RateEntry := ⟨r.ruleId, r.burst.toUInt64, now, true⟩
    have he : rateRefill r now e = some e := by
      rw [rateRefill, if_neg (fun hlt => Nat.lt_irrefl _ (UInt64.lt_iff_toNat_lt.mp hlt))]
    have hcap : e.tokens.toNat ≤ r.burst.toNat := (UInt32.toNat_toUInt64 _).le
    have hbucket : e.bucket = ⟨rule.params.burst, now.toNat⟩ := by
      have htokens : e.tokens.toNat = rule.params.burst :=
        (UInt32.toNat_toUInt64 _).trans hburst
      rw [RateEntry.bucket, htokens]
    have hcall := rateTake_call he hcap
    rw [hparams, hbucket] at hcall
    have hset : (t.set k (rateTake e).2)[k] = (rateTake e).2 := by
      rw [getElem_set_slot, if_pos rfl]
    refine ⟨k, ⟨rateAllow_unique h hu, ?_, ?_⟩, ?_⟩
    · rw [hset]
      exact rateTake_holds ⟨rfl, hid⟩
    · rw [hset]
      exact (Nat.le_add_right _ _).trans hcall.tokens_le
    · rw [hset]
      exact .cons hcall .nil

/-- From the call at `c` that creates the bucket on, any number of calls lets through a burst and
what the intervals since then bring; any run of calls among them a burst and what the intervals
between the largest times seen bring, and one more. -/
theorem rate_bound (hi : rule.rateIntervalMs ≠ 0) (ht₀ : rateSystem.Reachable t₀)
    (ho : t₀.Opens rule.ruleId) (hid : r.ruleId = rule.ruleId)
    (h : (rateSystem.restrict (KeepsRule rule)).Run t₀ (.allow r c b :: as) t) :
    (∀ pre post, callsOf rule.ruleId (.allow r c b :: as) = pre ++ post →
      allowedCount pre ≤ rule.burst.toNat +
        rule.rateTokens.toNat * ((latest c.toNat pre - c.toNat) / rule.rateIntervalMs.toNat)) ∧
    ∀ pre now allowed mid post,
      callsOf rule.ruleId (.allow r c b :: as) = pre ++ ((now, allowed) :: mid ++ post) →
      allowedCount ((now, allowed) :: mid) ≤ rule.burst.toNat + rule.rateTokens.toNat *
        ((latest c.toNat (pre ++ (now, allowed) :: mid) -
          latest c.toNat (pre ++ [(now, allowed)])) / rule.rateIntervalMs.toNat + 1) := by
  have hp := interval_pos hi
  have hcreate : callsOf rule.ruleId [.allow r c b] = [(c.toNat, b)] := by
    simp only [callsOf, List.filterMap_cons, if_pos hid, List.filterMap_nil]
  let full : Bucket := ⟨rule.params.burst, c.toNat⟩
  have hfull : Recent rule.params full c.toNat := ⟨Nat.le_refl _, Nat.lt_add_of_pos_right hp⟩
  have hcalls : ∃ last, Calls rule.params full
      (callsOf rule.ruleId (.allow r c b :: as)) last := by
    cases h with
    | head hs hrun =>
      obtain ⟨hg, hs⟩ := hs
      cases hs with
      | allow hallow =>
        obtain ⟨k, hown, hfirst⟩ :=
          owned_create (unique_reachable ht₀) (hid.symm ▸ ho) hid (hg hid) hallow
        obtain ⟨-, hrest⟩ := owned_run hrun hown
        rw [callsOf_cons, hcreate]
        exact ⟨_, hfirst.append hrest⟩
  obtain ⟨last, hcalls⟩ := hcalls
  constructor
  · intro pre post hsplit
    rw [hsplit] at hcalls
    obtain ⟨b', hpre, -⟩ := hcalls.split
    exact hpre.allowed_le hp (Nat.le_refl _) (Nat.le_refl _)
  · intro pre now allowed mid post hsplit
    rw [hsplit] at hcalls
    obtain ⟨b₁, hpre, hrest⟩ := hcalls.split
    obtain ⟨b₂, hmid, -⟩ := hrest.split
    have hbound := hmid.allowed_le_of_recent hp (hpre.recent hp hfull)
    rw [latest_append, latest_append]
    exact hbound

theorem rate_bound_fastRule : allowedCount [(0, true), (0, false)] ≤ fastRule.burst.toNat +
    fastRule.rateTokens.toNat * (0 / fastRule.rateIntervalMs.toNat) := by
  have hfirst : rateAllow fastRule 0 rateTableEmpty =
      some (true, rateTableEmpty.set 0 fastBucket) := by decide +kernel
  have hsecond : rateAllow fastRule 0 (rateTableEmpty.set 0 fastBucket) =
      some (false, rateTableEmpty.set 0 fastBucket) := by decide +kernel
  have hrun : (rateSystem.restrict (KeepsRule fastRule)).Run rateTableEmpty
      [.allow fastRule 0 true, .allow fastRule 0 false] (rateTableEmpty.set 0 fastBucket) :=
    .head ⟨fun _ => rfl, .allow hfirst⟩ (.single ⟨fun _ => rfl, .allow hsecond⟩)
  exact (rate_bound (by decide) (.of_init rfl) ⟨RateTable.not_has_empty, 0, rfl⟩ rfl hrun).1
    [(0, true), (0, false)] [] rfl

end Sentinel
