import Mathlib.Data.Fintype.Card
import Sentinel.Rules.Buckets
import Sentinel.Store.WellFormed

/-! Which rules have a bucket while evaluations and writer calls take turns. -/
namespace Sentinel

open Transition

variable {cur : Snapshot} {rb : Option Snapshot} {d : RuleSet} {req : Request} {env : Env}
  {id x : UInt64} {t : RateTable} {old new rules : List Rule} {s u : Store} {w : Writer}
  {rule : Rule}

/-- What `SkRateResetRemoved` leaves. -/
theorem rateResetRemoved_spec (old new : List Rule) (x : UInt64) (h : t.Unique) :
    (rateResetRemoved old new t).Unique ∧
    ((rateResetRemoved old new t).Has x ↔
      t.Has x ∧ (x ∈ old.map Rule.ruleId → x ∈ new.map Rule.ruleId)) := by
  unfold rateResetRemoved
  induction old generalizing t with
  | nil => simp [h]
  | cons r old ih =>
    rw [List.foldl_cons]
    split
    · rename_i hin
      obtain ⟨hu, hhas⟩ := ih h
      refine ⟨hu, hhas.trans (and_congr_right fun _ => ?_)⟩
      have hr : r.ruleId ∈ new.map Rule.ruleId := by simpa using hin
      constructor
      · intro hold hx
        rcases List.mem_cons.mp hx with rfl | hx
        · exact hr
        · exact hold hx
      · exact fun hold hx => hold (List.mem_cons_of_mem _ hx)
    · rename_i hout
      obtain ⟨hu, hhas⟩ := ih (ruleRateReset_unique h)
      refine ⟨hu, hhas.trans ?_⟩
      have hr : r.ruleId ∉ new.map Rule.ruleId := by simpa using hout
      rw [ruleRateReset_has h]
      constructor
      · rintro ⟨⟨ht, hne⟩, hold⟩
        refine ⟨ht, fun hx => ?_⟩
        rcases List.mem_cons.mp hx with rfl | hx
        · exact absurd rfl hne
        · exact hold hx
      · rintro ⟨ht, hold⟩
        refine ⟨⟨ht, ?_⟩, fun hx => hold (List.mem_cons_of_mem _ hx)⟩
        rintro rfl
        exact hr (hold List.mem_cons_self)

/-- The rule is an enabled rate limit. -/
def Rule.Limits (r : Rule) : Prop := r.enabled ≠ 0 ∧ r.action = ruleActionRateLimit

instance (r : Rule) : Decidable r.Limits := inferInstanceAs (Decidable (_ ∧ _))

/-- An enabled rate limit with the id. -/
def RateLimits (rules : List Rule) (id : UInt64) : Prop := ∃ r ∈ rules, r.ruleId = id ∧ r.Limits

namespace Request

/-- The rules that a writer puts under ids which may be there already. -/
def puts (rb : Option Snapshot) : Request → List Rule
  | .update rule => rule.toList
  | .replace rules _ => rules.rules
  | .rollback => rb.elim [] Snapshot.rules
  | .add _ | .delete _ | .setEnabled _ _ | .clear | .setDefaultPolicy _ => []

theorem puts_spec (h : rule ∈ req.puts rb) (hd : req.writer.draft cur rb = .ok d) :
    rule ∈ d.rules ∧ req.writer.resets = none := by
  cases req with
  | update rule' =>
    obtain rfl := Option.mem_toList.mp h
    simp only [Request.writer, ruleStoreUpdate] at hd
    split at hd
    · cases hd
    · rename_i i hi
      cases hd
      obtain ⟨hlt, -⟩ := ruleIndex_eq_some hi
      exact ⟨sortRules_perm.mem_iff.mpr (List.mem_set hlt _), rfl⟩
  | replace rules expectedVersion =>
    simp only [Request.writer, ruleStoreReplace] at hd
    split_ifs at hd
    cases hd
    exact ⟨sortRules_perm.mem_iff.mpr h, rfl⟩
  | rollback =>
    simp only [Request.writer, ruleStoreRollback] at hd
    cases rb with
    | none => cases hd
    | some rb =>
      cases hd
      exact ⟨h, rfl⟩
  | add | delete | setEnabled | clear | setDefaultPolicy => cases h

end Request

/-- Writing one rule leaves those with another id. -/
theorem mem_set_of_ruleId_ne {r : Rule} {i : ℕ} (hr : r ∈ rules) (hi : i < rules.length)
    (hne : rules[i].ruleId ≠ r.ruleId) : r ∈ rules.set i rule := by
  obtain ⟨j, hj, rfl⟩ := List.mem_iff_getElem.mp hr
  have hij : i ≠ j := by
    rintro rfl
    exact hne rfl
  refine List.mem_iff_getElem.mpr ⟨j, by simpa using hj, ?_⟩
  exact List.getElem_set_of_ne hij _ _

/-- A writer that puts only rate limits under the id keeps its rate limit, up to the one whose
bucket it clears. -/
theorem draft_rateLimits (hput : ∀ r ∈ req.puts rb, r.ruleId = x → r.Limits)
    (hd : req.writer.draft cur rb = .ok d) (hids : (cur.rules.map Rule.ruleId).Nodup)
    (hx : RateLimits cur.rules x) (hin : x ∈ d.rules.map Rule.ruleId) :
    req.writer.resets = some x ∨ RateLimits d.rules x := by
  obtain ⟨r, hr, hid, hlim⟩ := hx
  have hkeep : r ∈ d.rules → RateLimits d.rules x := fun h => ⟨r, h, hid, hlim⟩
  have hputs : ∀ r' ∈ req.puts rb, r'.ruleId = x → RateLimits d.rules x :=
    fun r' hr' hx' => ⟨r', (Request.puts_spec hr' hd).1, hx', hput r' hr' hx'⟩
  cases req with
  | update rule =>
    cases rule with
    | none => cases hd
    | some rule =>
      by_cases hxr : rule.ruleId = x
      · exact .inr (hputs rule (by simp [Request.puts]) hxr)
      · simp only [Request.writer, ruleStoreUpdate] at hd
        split at hd
        · cases hd
        · rename_i i hi
          cases hd
          obtain ⟨hlt, hidi⟩ := ruleIndex_eq_some hi
          refine .inr (hkeep (sortRules_perm.mem_iff.mpr ?_))
          exact mem_set_of_ruleId_ne hr hlt fun he => hxr (hidi.symm.trans (he.trans hid))
  | replace rules expectedVersion =>
    simp only [Request.writer, ruleStoreReplace] at hd
    split_ifs at hd
    cases hd
    obtain ⟨r', hr', hid'⟩ := List.mem_map.mp hin
    exact .inr (hputs r' (sortRules_perm.mem_iff.mp hr') hid')
  | rollback =>
    cases rb with
    | none => cases hd
    | some rb =>
      cases hd
      obtain ⟨r', hr', hid'⟩ := List.mem_map.mp hin
      exact .inr (hputs r' hr' hid')
  | add rule =>
    cases rule with
    | none => cases hd
    | some rule =>
      simp only [Request.writer, ruleStoreAdd] at hd
      split_ifs at hd
      cases hd
      exact .inr (hkeep (sortRules_perm.mem_iff.mpr (List.mem_append_left _ hr)))
  | delete ruleId =>
    simp only [Request.writer, ruleStoreDelete] at hd
    cases hi : ruleIndex cur.rules ruleId with
    | none => simp [hi] at hd
    | some i =>
      simp only [hi] at hd
      cases hd
      rw [← List.eraseIdx_eq_take_drop_succ] at hin hkeep ⊢
      obtain ⟨r', hr', hid'⟩ := List.mem_map.mp hin
      have hr'' : r' ∈ cur.rules := (List.eraseIdx_sublist _ _).subset hr'
      have he : r' = r := List.inj_on_of_nodup_map hids hr'' hr (hid'.trans hid.symm)
      exact .inr (hkeep (he ▸ hr'))
  | setEnabled ruleId enabled =>
    simp only [Request.writer, ruleStoreSetEnabled] at hd ⊢
    cases hi : ruleIndex cur.rules ruleId with
    | none => simp [hi] at hd
    | some i =>
      obtain ⟨hlt, hidi⟩ := ruleIndex_eq_some hi
      simp only [hi] at hd
      cases hd
      rw [modify_enabled hlt] at hkeep ⊢
      by_cases hxi : x = ruleId
      · cases enabled with
        | false => exact .inl (congrArg some hxi.symm)
        | true =>
          have he : r = cur.rules[i] :=
            List.inj_on_of_nodup_map hids hr (List.getElem_mem hlt)
              (hid.trans (hxi.trans hidi.symm))
          subst he
          have hone : (1 : UInt32) ≠ 0 := by decide
          exact .inr ⟨_, List.mem_set hlt _, hid, hone, hlim.2⟩
      · refine .inr (hkeep (mem_set_of_ruleId_ne hr hlt ?_))
        exact fun he => hxi (hid.symm.trans (he.symm.trans hidi))
  | clear =>
    cases hd
    simp at hin
  | setDefaultPolicy policy =>
    cases hd
    exact .inr (hkeep hr)

namespace Store

/-- What happens to a store and its buckets in turn. -/
inductive Use where
  | call (req : Request) (env : Env)
  | evaluate (tuple : ClassifyTuple) (now : UInt64)

inductive UseStep : Store → Use → Store → Prop where
  | call {s : Store} {req : Request} {env : Env} :
      UseStep s (.call req env) (s.run req.writer env).2
  | evaluate {s : Store} {tuple : ClassifyTuple} {now : UInt64} {out : Verdict}
      {rates : RateTable} (h : ruleVerdict (some s.current) tuple now s.rates = some (out, rates)) :
      UseStep s (.evaluate tuple now) { s with rates := rates }

/-- The sequential runs of a fresh image: no reader holds an older snapshot. -/
def usage : System Store Use where
  init s := s = init rateTableEmpty
  step := UseStep

variable {a : Use}

/-- The buckets after a publication and the clearing that follows it. -/
theorem commit_rates (h : s.rates.Unique) : (s.commit w d).rates.Unique ∧
    ((s.commit w d).rates.Has x ↔ s.rates.Has x ∧
      (x ∈ s.current.rules.map Rule.ruleId → x ∈ d.rules.map Rule.ruleId) ∧
      w.resets ≠ some x) := by
  obtain ⟨hu, hhas⟩ := rateResetRemoved_spec s.current.rules d.rules x h
  have he : (s.commit w d).rates = w.resets.elim (rateResetRemoved s.current.rules d.rules s.rates)
      (ruleRateReset · (rateResetRemoved s.current.rules d.rules s.rates)) := rfl
  cases hw : w.resets with
  | none =>
    rw [he, hw]
    refine ⟨hu, hhas.trans ?_⟩
    simp
  | some id =>
    rw [he, hw]
    refine ⟨ruleRateReset_unique hu, ?_⟩
    rw [Option.elim_some, ruleRateReset_has hu, hhas, and_assoc]
    refine and_congr_right fun _ => and_congr_right fun _ => ?_
    simp [eq_comm]

/-- No id has two slots, and every id with a slot is that of a rule of the current snapshot. -/
structure Buckets (s : Store) : Prop where
  wellFormed : s.WellFormed
  unique : s.rates.Unique
  owned : ∀ id, s.rates.Has id → id ∈ s.current.rules.map Rule.ruleId

theorem buckets_init : (init rateTableEmpty).Buckets where
  wellFormed := wellFormed_init _
  unique := RateTable.unique_empty
  owned _ h := absurd h RateTable.not_has_empty

theorem buckets_commit (h : s.Buckets) (hd : d.WellFormed) : (s.commit w d).Buckets where
  wellFormed := wellFormed_commit h.wellFormed hd
  unique := (commit_rates (x := 0) h.unique).1
  owned id hid := by
    obtain ⟨hs, hstay, -⟩ := (commit_rates h.unique).2.mp hid
    exact hstay (h.owned id hs)

theorem buckets_run (h : s.Buckets) : (s.run req.writer env).2.Buckets := by
  rcases run_cases s req.writer env with ⟨-, he⟩ | ⟨hp, ⟨-, he⟩ | ⟨-, ⟨st, -, he⟩ |
    ⟨d, hd, ⟨-, he⟩ | ⟨-, ⟨-, he⟩ | ⟨-, he⟩⟩⟩⟩⟩
  case inr.inr.inr.inr.inr =>
    rw [he]
    exact buckets_commit h (draft_wellFormed hp hd h.wellFormed.current h.wellFormed.rollbackSlot)
  all_goals
    rw [he]
    exact h

theorem buckets_step (h : UseStep s a u) (hs : s.Buckets) : u.Buckets := by
  cases h with
  | call => exact buckets_run hs
  | evaluate hv =>
    refine ⟨⟨hs.wellFormed.current, hs.wellFormed.rollbackSlot⟩,
      ruleVerdict_unique hv hs.unique, ?_⟩
    intro id hid
    rcases ruleVerdict_has hv hid with hold | ⟨r, hr, rfl, -⟩
    · exact hs.owned id hold
    · exact List.mem_map_of_mem (ruleHit_spec hr).1

theorem buckets_reachable (h : usage.Reachable s) : s.Buckets := by
  refine h.invariant ?_ buckets_step
  rintro s rfl
  exact buckets_init

/-- Disabling a rule takes its bucket. -/
theorem setEnabled_false_rates (hs : s.Buckets)
    (h : (s.run (ruleStoreSetEnabled id false) env).1 = statusSuccess) :
    ¬ (s.run (ruleStoreSetEnabled id false) env).2.rates.Has id := by
  obtain ⟨d, -, he⟩ := run_success (r := .setEnabled id false) h
  intro hid
  have hs' : (s.run (ruleStoreSetEnabled id false) env).2 =
      s.commit (ruleStoreSetEnabled id false) d := congrArg Prod.snd he
  rw [hs'] at hid
  exact ((commit_rates hs.unique).2.mp hid).2.2 rfl

/-- All checks of the call pass and the pool holds what it needs. -/
def Lands (s : Store) (req : Request) (env : Env) : Prop :=
  ntSuccess req.writer.precheck = true ∧ env.active = true ∧ env.activeAtPublish = true ∧
    ∃ d, req.writer.draft s.current s.rollbackSlot = .ok d ∧ Allocates env d

theorem run_of_lands (h : s.Lands req env) :
    ∃ d, req.writer.draft s.current s.rollbackSlot = .ok d ∧
      s.run req.writer env = (statusSuccess, s.commit req.writer d) := by
  obtain ⟨hp, ha, hq, d, hd, hal⟩ := h
  rcases run_cases s req.writer env with ⟨hp', -⟩ | ⟨-, ⟨ha', -⟩ | ⟨-, ⟨st, hd', -⟩ |
    ⟨d', hd', ⟨hal', -⟩ | ⟨-, ⟨hq', -⟩ | ⟨-, he⟩⟩⟩⟩⟩
  · exact absurd (hp.symm.trans hp') (by decide)
  · exact absurd (ha.symm.trans ha') (by decide)
  · cases hd.symm.trans hd'
  · obtain rfl := Except.ok.inj (hd.symm.trans hd')
    exact absurd hal hal'
  · exact absurd (hq.symm.trans hq') (by decide)
  · exact ⟨d', hd', he⟩

/-- A call that does not land leaves the store as it is. -/
theorem run_of_not_lands (h : ¬ s.Lands req env) : (s.run req.writer env).2 = s := by
  rcases run_cases s req.writer env with ⟨-, he⟩ | ⟨hp, ⟨-, he⟩ | ⟨ha, ⟨st, -, he⟩ |
    ⟨d, hd, ⟨-, he⟩ | ⟨hal, ⟨-, he⟩ | ⟨hq, he⟩⟩⟩⟩⟩
  case inr.inr.inr.inr.inr => exact absurd ⟨hp, ha, hq, d, hd, hal⟩ h
  all_goals rw [he]

/-- The step puts no other rule than an enabled rate limit under an id that holds a slot. -/
def KeepsLimit (x : UInt64) (s : Store) : Use → Prop
  | .call req env => s.Lands req env → s.rates.Has x →
      ∀ r ∈ req.puts s.rollbackSlot, r.ruleId = x → r.Limits
  | .evaluate _ _ => True

/-- The bucket under the id is that of an enabled rate limit of the current snapshot. -/
def Owned (x : UInt64) (s : Store) : Prop := s.rates.Has x → RateLimits s.current.rules x

theorem owned_run (hs : s.Buckets) (hx : s.Owned x) :
    (s.run req.writer env).2.Owned x ↔ KeepsLimit x s (.call req env) := by
  by_cases hl : s.Lands req env
  · obtain ⟨d, hd, he⟩ := run_of_lands hl
    have hwf : d.WellFormed :=
      draft_wellFormed hl.1 hd hs.wellFormed.current hs.wellFormed.rollbackSlot
    rw [he]
    constructor
    · rintro hu - hold r hr rfl
      obtain ⟨hin, hres⟩ := Request.puts_spec hr hd
      have hhas : (s.commit req.writer d).rates.Has r.ruleId := by
        refine (commit_rates hs.unique).2.mpr ⟨hold, fun _ => List.mem_map_of_mem hin, ?_⟩
        rw [hres]
        exact nofun
      obtain ⟨r', hr', hid, hlim⟩ := hu hhas
      obtain rfl := List.inj_on_of_nodup_map hwf.ids hr' hin hid
      exact hlim
    · intro hk hu
      obtain ⟨hold, hstay, hres⟩ := (commit_rates hs.unique).2.mp hu
      rcases draft_rateLimits (hk hl hold) hd hs.wellFormed.current.ids (hx hold)
        (hstay (hs.owned x hold)) with hr | hr
      · exact absurd hr hres
      · exact hr
  · rw [run_of_not_lands hl]
    exact iff_of_true hx fun hl' => absurd hl' hl

theorem owned_evaluate {tuple : ClassifyTuple} {now : UInt64} {out : Verdict} {rates : RateTable}
    (hv : ruleVerdict (some s.current) tuple now s.rates = some (out, rates)) (hx : s.Owned x) :
    Owned x { s with rates := rates } := by
  intro hu
  rcases ruleVerdict_has hv hu with hold | ⟨r, hr, rfl, hact, -⟩
  · exact hx hold
  · obtain ⟨hm, hmatch⟩ := ruleHit_spec hr
    exact ⟨r, hm, rfl, enabled_of_ruleMatch hmatch, hact⟩

theorem owned_step (hst : UseStep s a u) (hs : s.Buckets) (hx : s.Owned x) :
    u.Owned x ↔ KeepsLimit x s a := by
  cases hst with
  | call => exact owned_run hs hx
  | evaluate hv => exact iff_of_true (owned_evaluate hv hx) trivial

theorem owned_reachable (h : (usage.restrict (KeepsLimit x)).Reachable s) : s.Owned x := by
  have hinit : ∀ {s}, usage.init s → s.Buckets ∧ s.Owned x := by
    rintro s rfl
    exact ⟨buckets_init, fun h => absurd h RateTable.not_has_empty⟩
  have hstep : ∀ {s a u}, KeepsLimit x s a ∧ UseStep s a u → s.Buckets ∧ s.Owned x →
      u.Buckets ∧ u.Owned x := by
    rintro s a u ⟨hk, hst⟩ ⟨hs, hx⟩
    exact ⟨buckets_step hst hs, (owned_step hst hs hx).mpr hk⟩
  exact (h.invariant (I := fun s => s.Buckets ∧ s.Owned x) hinit hstep).2

/-- While the slots are those of enabled rate limits, a table of at most so many rules has room
for each of them. -/
theorem has_or_opens (hu : s.rates.Unique) (ho : ∀ x, s.Owned x)
    (hn : (s.current.rules.filter Rule.Limits).length ≤ rateTableSize)
    (hr : rule ∈ s.current.rules) (hl : rule.Limits) :
    s.rates.Has rule.ruleId ∨ s.rates.Opens rule.ruleId := by
  by_cases hhas : s.rates.Has rule.ruleId
  · exact .inl hhas
  refine .inr ⟨hhas, ?_⟩
  by_contra hfull
  have huse : ∀ i : Fin rateTableSize, s.rates[i].inUse = true := by
    intro i
    cases hi : s.rates[i].inUse with
    | true => rfl
    | false => exact absurd ⟨i, hi⟩ hfull
  let held : Finset UInt64 := Finset.univ.image fun i : Fin rateTableSize => s.rates[i].ruleId
  have hcard : held.card = rateTableSize := by
    rw [Finset.card_image_of_injective, Finset.card_univ, Fintype.card_fin]
    exact fun i j hij => hu _ i j ⟨huse i, rfl⟩ ⟨huse j, hij.symm⟩
  have hout : rule.ruleId ∉ held := by
    intro hin
    obtain ⟨i, -, hi⟩ := Finset.mem_image.mp hin
    exact hhas ⟨i, huse i, hi⟩
  have hsub : insert rule.ruleId held ⊆
      ((s.current.rules.filter Rule.Limits).map Rule.ruleId).toFinset := by
    intro id hid
    rw [List.mem_toFinset, List.mem_map]
    rcases Finset.mem_insert.mp hid with rfl | hid
    · exact ⟨rule, List.mem_filter.mpr ⟨hr, decide_eq_true hl⟩, rfl⟩
    · obtain ⟨i, -, hi⟩ := Finset.mem_image.mp hid
      obtain ⟨r, hr', hid', hlim⟩ := ho id ⟨i, huse i, hi⟩
      exact ⟨r, List.mem_filter.mpr ⟨hr', decide_eq_true hlim⟩, hid'⟩
  have hle := (Finset.card_le_card hsub).trans (List.toFinset_card_le _)
  rw [Finset.card_insert_of_notMem hout, hcard, List.length_map] at hle
  omega

/-- No id has two slots, every slot in use belongs to a rule of the current snapshot, and
disabling a rule by SetEnabled takes its slot. A step leaves a slot to an enabled rate limit just
when it puts nothing else under the id; while no step does, every slot is that of one, and the
slots do not run out for the limits of the snapshot. -/
theorem bucket_hygiene (h : usage.Reachable s) : s.rates.Unique ∧
    (∀ i : Fin rateTableSize, s.rates[i].inUse = true →
      s.rates[i].ruleId ∈ s.current.rules.map Rule.ruleId) ∧
    (∀ id env, (s.run (ruleStoreSetEnabled id false) env).1 = statusSuccess →
      ¬ (s.run (ruleStoreSetEnabled id false) env).2.rates.Has id) ∧
    (∀ x a u, s.Owned x → UseStep s a u → (u.Owned x ↔ KeepsLimit x s a)) ∧
    (∀ x, (usage.restrict (KeepsLimit x)).Reachable s → s.rates.Has x →
      RateLimits s.current.rules x) ∧
    ((usage.restrict fun s a => ∀ x, KeepsLimit x s a).Reachable s →
      (s.current.rules.filter Rule.Limits).length ≤ rateTableSize →
      ∀ r ∈ s.current.rules, r.Limits → s.rates.Has r.ruleId ∨ s.rates.Opens r.ruleId) := by
  have hb := buckets_reachable h
  refine ⟨hb.unique, ?_, fun id env => setEnabled_false_rates hb,
    fun x a u hx hst => owned_step hst hb hx, fun x => owned_reachable, ?_⟩
  · intro i hi
    exact hb.owned _ ⟨i, hi, rfl⟩
  · intro hr hn r hin hl
    have ho : ∀ x, s.Owned x := fun x => owned_reachable (hr.weaken fun _ _ hk => hk x)
    exact has_or_opens hb.unique ho hn hin hl

/-- A rule that lets one connection through a second. -/
def rateRule : Rule :=
  { ruleZero with
    ruleId := 7, action := ruleActionRateLimit, enabled := 1
    rateTokens := 1, rateIntervalMs := 1000, burst := 1 }

/-- The rule has been added to the fresh store and has let one connection through. -/
def rateUsed : Store :=
  { ((init rateTableEmpty).run (ruleStoreAdd (some rateRule)) .granted).2 with
    rates := rateTableEmpty.set 0 ⟨7, 0, 5, true⟩ }

theorem rateUsed_run : ∃ as, usage.Run (init rateTableEmpty) as rateUsed ∧
    (usage.restrict fun s a => ∀ x, KeepsLimit x s a).Run (init rateTableEmpty) as rateUsed := by
  have hcall : UseStep (init rateTableEmpty) (.call (.add (some rateRule)) .granted) _ := .call
  have hv : ruleVerdict (some rateUsed.current) tupleZero 5 rateTableEmpty =
      some (⟨verdictAudit, 7, 0, 0, verdictReasonRuleMatch⟩, rateUsed.rates) := by decide +kernel
  have heval : UseStep ((init rateTableEmpty).run (ruleStoreAdd (some rateRule)) .granted).2
      (.evaluate tupleZero 5) rateUsed := .evaluate hv
  have hadd : ∀ x, KeepsLimit x (init rateTableEmpty) (.call (.add (some rateRule)) .granted) :=
    fun _ _ _ _ hr => absurd hr List.not_mem_nil
  exact ⟨_, .head hcall (.single heval),
    .head ⟨hadd, hcall⟩ (.single ⟨fun _ => trivial, heval⟩)⟩

theorem bucket_hygiene_rateUsed : RateLimits rateUsed.current.rules 7 ∧
    (rateUsed.rates.Has 7 ∨ rateUsed.rates.Opens 7) ∧
    ¬ Owned 7
      (rateUsed.run (ruleStoreUpdate (some { rateRule with enabled := 0 })) .granted).2 := by
  obtain ⟨as, hrun, hkeep⟩ := rateUsed_run
  have hhas : rateUsed.rates.Has 7 := ⟨0, rfl, rfl⟩
  obtain ⟨-, -, -, hstep, hlimits, hroom⟩ := bucket_hygiene ⟨_, as, rfl, hrun⟩
  have hlim := hlimits 7 ⟨_, as, rfl, hkeep.weaken fun _ _ h => h 7⟩ hhas
  refine ⟨hlim, hroom ⟨_, as, rfl, hkeep⟩ (by decide +kernel) rateRule (by decide +kernel)
    (by decide), fun hown => ?_⟩
  have hlands : rateUsed.Lands (.update (some { rateRule with enabled := 0 })) .granted :=
    ⟨rfl, rfl, rfl, _, rfl, .inr rfl, rfl⟩
  have hkeeps := (hstep 7 (.call (.update (some { rateRule with enabled := 0 })) .granted) _
    (fun _ => hlim) .call).mp hown
  have hlimits := hkeeps hlands hhas { rateRule with enabled := 0 } (List.mem_singleton_self _) rfl
  exact hlimits.1 rfl

/-- Disabling a rule by an Update keeps its bucket. -/
theorem update_keeps_bucket : ¬ ∀ (s : Store) (req : Request) (env : Env),
    usage.Reachable s → (s.run req.writer env).1 = statusSuccess →
    ∀ i : Fin rateTableSize, (s.run req.writer env).2.rates[i].inUse = true →
      RateLimits (s.run req.writer env).2.current.rules
        (s.run req.writer env).2.rates[i].ruleId := by
  intro h
  obtain ⟨as, hrun, -⟩ := rateUsed_run
  obtain ⟨r, hr, -, hen, -⟩ := h rateUsed
    (.update (some { rateRule with enabled := 0 })) .granted
    ⟨_, as, rfl, hrun⟩ rfl 0 rfl
  have hall : ∀ r ∈ (rateUsed.run (ruleStoreUpdate
      (some { rateRule with enabled := 0 })) .granted).2.current.rules,
      r.enabled = 0 := by decide +kernel
  exact hen (hall r hr)

end Store

end Sentinel
