import Sentinel.General.Keyed
import Sentinel.Store.Operations

/-! What every writer keeps of the rule sets it publishes. -/
namespace Sentinel

open Transition

variable {d : RuleSet} {cur : Snapshot} {rb : Option Snapshot} {req : Request} {rule : Rule}
  {rules : List Rule} {ruleId : UInt64} {i : ℕ} {s t : Store} {a : Store.Action}
  {w : Writer} {env : Env}

/-- In verdict order, with distinct ids, within capacity, valid rules and a default policy
that permits or blocks. -/
structure RuleSet.WellFormed (d : RuleSet) : Prop where
  sorted : d.rules.Pairwise fun a b => rulePrecedes a b = true
  ids : (d.rules.map Rule.ruleId).Nodup
  length_le : d.rules.length ≤ ruleMax
  valid : ∀ r ∈ d.rules, r.Valid
  policy : d.defaultPolicy = verdictPermit ∨ d.defaultPolicy = verdictBlock

abbrev Snapshot.WellFormed (s : Snapshot) : Prop := s.ruleSet.WellFormed

theorem ruleIndex_eq_none : ruleIndex rules ruleId = none ↔ ∀ r ∈ rules, r.ruleId ≠ ruleId := by
  simp [ruleIndex, List.findIdx?_eq_none_iff]

theorem ruleIndex_eq_some (h : ruleIndex rules ruleId = some i) :
    ∃ hi : i < rules.length, rules[i].ruleId = ruleId := by
  obtain ⟨hi, hp, -⟩ := List.findIdx?_eq_some_iff_getElem.mp h
  exact ⟨hi, by simpa using hp⟩

/-- An id that is not there yet can be added. -/
theorem nodup_ruleId_add (h : (rules.map Rule.ruleId).Nodup)
    (hi : ruleIndex rules rule.ruleId = none) : ((rules ++ [rule]).map Rule.ruleId).Nodup := by
  rw [List.map_append, List.nodup_append]
  refine ⟨h, by simp, ?_⟩
  intro id hid id' hid'
  obtain ⟨r, hr, rfl⟩ := List.mem_map.mp hid
  obtain rfl := List.mem_singleton.mp hid'
  exact ruleIndex_eq_none.mp hi r hr

/-- The verdict order of a rule set is the order of its keys. -/
theorem pairwise_iff_ruleKey : (rules.Pairwise fun a b => rulePrecedes a b = true) ↔
    (rules.map ruleKey).Pairwise (· < ·) := by
  rw [List.pairwise_map]
  simp only [rulePrecedes_iff_key]

/-! ### One lemma for each writer -/

namespace RuleSet.WellFormed

/-- Sorting makes a well-formed rule set of rules with distinct ids. -/
theorem of_sortRules (hi : (rules.map Rule.ruleId).Nodup) (hl : rules.length ≤ ruleMax)
    (hv : ∀ r ∈ rules, r.Valid) {policy : UInt32}
    (hp : policy = verdictPermit ∨ policy = verdictBlock) :
    (RuleSet.mk (sortRules rules) policy).WellFormed where
  sorted := sortRules_pairwise hi
  ids := (sortRules_perm.map _).nodup_iff.mpr hi
  length_le := sortRules_perm.length_eq.trans_le hl
  valid r hr := hv r (sortRules_perm.mem_iff.mp hr)
  policy := hp

theorem of_sublist (h : d.WellFormed) (hs : rules.Sublist d.rules) :
    (RuleSet.mk rules d.defaultPolicy).WellFormed where
  sorted := h.sorted.sublist hs
  ids := h.ids.sublist (hs.map _)
  length_le := hs.length_le.trans h.length_le
  valid r hr := h.valid r (hs.subset hr)
  policy := h.policy

theorem add (h : d.WellFormed) (hr : rule.Valid) (hn : ruleIndex d.rules rule.ruleId = none)
    (hl : d.rules.length < ruleMax) :
    (RuleSet.mk (sortRules (d.rules ++ [rule])) d.defaultPolicy).WellFormed := by
  refine of_sortRules (nodup_ruleId_add h.ids hn) (by simpa using hl) ?_ h.policy
  intro r hr'
  rcases List.mem_append.mp hr' with hr' | hr'
  · exact h.valid r hr'
  · rwa [List.mem_singleton.mp hr']

theorem update (h : d.WellFormed) (hr : rule.Valid)
    (hi : ruleIndex d.rules rule.ruleId = some i) :
    (RuleSet.mk (sortRules (d.rules.set i rule)) d.defaultPolicy).WellFormed := by
  obtain ⟨hlt, hid⟩ := ruleIndex_eq_some hi
  refine of_sortRules ?_ (by simpa using h.length_le) ?_ h.policy
  · rw [Keyed.map_set hlt hid]
    exact h.ids
  · intro r hr'
    rcases List.mem_or_eq_of_mem_set hr' with hr' | rfl
    · exact h.valid r hr'
    · exact hr

theorem delete (h : d.WellFormed) :
    (RuleSet.mk (d.rules.take i ++ d.rules.drop (i + 1)) d.defaultPolicy).WellFormed := by
  refine h.of_sublist ?_
  rw [← List.eraseIdx_eq_take_drop_succ]
  exact List.eraseIdx_sublist _ _

/-- The flag is no part of the key. -/
theorem setEnabled {b : UInt32} (h : d.WellFormed) (hb : b ≤ 1) (hlt : i < d.rules.length) :
    (RuleSet.mk (d.rules.set i { d.rules[i] with enabled := b }) d.defaultPolicy).WellFormed
    where
  sorted := by
    have hk : ruleKey d.rules[i] = ruleKey { d.rules[i] with enabled := b } := rfl
    rw [pairwise_iff_ruleKey, Keyed.map_set hlt hk]
    exact pairwise_iff_ruleKey.mp h.sorted
  ids := by
    have hk : d.rules[i].ruleId = Rule.ruleId { d.rules[i] with enabled := b } := rfl
    rw [Keyed.map_set hlt hk]
    exact h.ids
  length_le := by simpa using h.length_le
  valid := by
    intro r hr
    rcases List.mem_or_eq_of_mem_set hr with hr | rfl
    · exact h.valid r hr
    · exact (h.valid _ (List.getElem_mem hlt)).setEnabled hb
  policy := h.policy

end RuleSet.WellFormed

theorem modify_enabled {b : UInt32} (hlt : i < rules.length) :
    rules.modify i (fun r => { r with enabled := b }) =
      rules.set i { rules[i] with enabled := b } := by
  rw [List.modify_eq_set_getElem?]
  simp [hlt]

/-- What the checks of a Replace establish. -/
theorem replacePrecheck_success {rules : RuleArray}
    (h : ntSuccess (replacePrecheck rules) = true) :
    rules.rules.length ≤ ruleMax ∧ (rules.rules.map Rule.ruleId).Nodup ∧
      ∀ r ∈ rules.rules, r.Valid := by
  cases rules with
  | null count => simp [RuleArray.rules]
  | array rules =>
    simp only [replacePrecheck] at h
    by_cases hmax : ruleMax < (RuleArray.array rules).count
    · rw [if_pos hmax] at h
      exact absurd h (by decide)
    rw [if_neg hmax] at h
    by_cases hbytes : replaceMaxBytes < (RuleArray.array rules).count * ruleSize
    · rw [if_pos hbytes] at h
      exact absurd h (by decide)
    rw [if_neg hbytes] at h
    cases hf : rules.find? fun r => !ntSuccess (ruleValidate (some r)) with
    | some r =>
      have hr := List.find?_some hf
      simp only [hf] at h
      simp [h] at hr
    | none =>
      simp only [hf] at h
      by_cases hids : rules.Pairwise fun a b => a.ruleId ≠ b.ruleId
      · refine ⟨Nat.not_lt.mp hmax, List.pairwise_map.mpr hids, ?_⟩
        intro r hr
        have := List.find?_eq_none.mp hf r hr
        exact ntSuccess_ruleValidate.mp (by simpa using this)
      · rw [if_neg hids] at h
        exact absurd h (by decide)

/-- What a writer prepares from well-formed snapshots is well formed. -/
theorem draft_wellFormed (hp : ntSuccess req.writer.precheck = true)
    (hd : req.writer.draft cur rb = .ok d) (hc : cur.WellFormed)
    (hr : ∀ r, rb = some r → r.WellFormed) : d.WellFormed := by
  cases req with
  | add rule =>
    cases rule with
    | none => cases hd
    | some rule =>
      simp only [Request.writer, ruleStoreAdd] at hp hd
      split_ifs at hd with hl hi
      cases hd
      exact hc.add (ntSuccess_ruleValidate.mp hp) (Option.not_isSome_iff_eq_none.mp hi)
        (Nat.not_le.mp hl)
  | update rule =>
    cases rule with
    | none => cases hd
    | some rule =>
      simp only [Request.writer, ruleStoreUpdate] at hp hd
      cases hi : ruleIndex cur.rules rule.ruleId with
      | none => simp [hi] at hd
      | some i =>
        simp only [hi] at hd
        cases hd
        exact hc.update (ntSuccess_ruleValidate.mp hp) hi
  | delete ruleId =>
    simp only [Request.writer, ruleStoreDelete] at hd
    cases hi : ruleIndex cur.rules ruleId with
    | none => simp [hi] at hd
    | some i =>
      simp only [hi] at hd
      cases hd
      exact hc.delete
  | setEnabled ruleId enabled =>
    simp only [Request.writer, ruleStoreSetEnabled] at hd
    cases hi : ruleIndex cur.rules ruleId with
    | none => simp [hi] at hd
    | some i =>
      obtain ⟨hlt, -⟩ := ruleIndex_eq_some hi
      simp only [hi] at hd
      cases hd
      rw [modify_enabled hlt]
      exact hc.setEnabled (by cases enabled <;> decide) hlt
  | replace rules expectedVersion =>
    simp only [Request.writer, ruleStoreReplace] at hp hd
    split_ifs at hd with hv
    cases hd
    obtain ⟨hl, hi, hv⟩ := replacePrecheck_success hp
    exact .of_sortRules hi hl hv hc.policy
  | clear =>
    cases hd
    exact hc.of_sublist (List.nil_sublist _)
  | rollback =>
    cases rb with
    | none => cases hd
    | some rb =>
      cases hd
      exact hr rb rfl
  | setDefaultPolicy policy =>
    simp only [Request.writer, ruleStoreSetDefaultPolicy] at hp hd
    cases hd
    refine ⟨hc.sorted, hc.ids, hc.length_le, hc.valid, ?_⟩
    by_contra hn
    rw [if_pos (not_or.mp hn)] at hp
    exact absurd hp (by decide)

/-! ### The store -/

namespace Store

structure WellFormed (s : Store) : Prop where
  current : s.current.WellFormed
  rollbackSlot : ∀ r, s.rollbackSlot = some r → r.WellFormed

theorem wellFormed_init (rates : RateTable) : (init rates).WellFormed where
  current := ⟨.nil, List.nodup_nil, Nat.zero_le _, by simp [init, Snapshot.ruleSet], .inl rfl⟩
  rollbackSlot := nofun

theorem wellFormed_commit (h : s.WellFormed) (hd : d.WellFormed) : (s.commit w d).WellFormed where
  current := hd
  rollbackSlot := by
    intro r hr
    rw [commit_rollbackSlot] at hr
    split_ifs at hr
    cases hr
    exact h.current

theorem wellFormed_run (h : s.WellFormed) : (s.run req.writer env).2.WellFormed := by
  rcases run_cases s req.writer env with ⟨-, he⟩ | ⟨hp, ⟨-, he⟩ | ⟨-, ⟨st, -, he⟩ |
    ⟨d, hd, ⟨-, he⟩ | ⟨-, ⟨-, he⟩ | ⟨-, he⟩⟩⟩⟩⟩
  case inr.inr.inr.inr.inr =>
    rw [he]
    exact wellFormed_commit h (draft_wellFormed hp hd h.current h.rollbackSlot)
  all_goals
    rw [he]
    exact h

theorem wellFormed_step (h : Step s a t) (hs : s.WellFormed) : t.WellFormed := by
  cases h with
  | call => exact wellFormed_run hs

theorem wellFormed_reachable (h : system.Reachable s) : s.WellFormed := by
  refine h.invariant ?_ wellFormed_step
  rintro s ⟨rates, rfl⟩
  exact wellFormed_init rates

end Store

end Sentinel
