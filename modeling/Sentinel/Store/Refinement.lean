import Sentinel.Store.Abstract

/-! The writers refine the abstract store. -/
namespace Sentinel

open Transition Keyed

variable {d : RuleSet} {cur : Snapshot} {rb : Option Snapshot} {req : Request} {rule : Rule}
  {rules : List Rule} {ruleId : UInt64} {i : ℕ} {s t : Store} {a : Store.Action} {env : Env}

def RuleSet.abstract (d : RuleSet) : RuleMap × UInt32 := (ruleMap d.rules, d.defaultPolicy)

def Store.abstract (s : Store) : PolicyStore where
  rules := ruleMap s.current.rules
  defaultPolicy := s.current.defaultPolicy
  version := s.current.version
  undo := s.rollbackSlot.map fun r => r.ruleSet.abstract

/-! ### The loops over the array as operations on the map -/

theorem mem_ruleMap : ruleId ∈ ruleMap rules ↔ (ruleIndex rules ruleId).isSome = true := by
  rw [mem_toMap, ← not_iff_not, Bool.not_eq_true, Option.isSome_eq_false_iff,
    Option.isNone_iff_eq_none, ruleIndex_eq_none]
  simp

theorem lookup_ruleMap (hn : (rules.map Rule.ruleId).Nodup)
    (h : ruleIndex rules ruleId = some i) :
    ∃ hi : i < rules.length, rules[i].ruleId = ruleId ∧
      (ruleMap rules).lookup ruleId = some rules[i] := by
  obtain ⟨hi, hid⟩ := ruleIndex_eq_some h
  exact ⟨hi, hid, (lookup_toMap hn).mpr ⟨List.getElem_mem hi, hid⟩⟩

theorem ruleMap_sortRules (h : (rules.map Rule.ruleId).Nodup) :
    ruleMap (sortRules rules) = ruleMap rules :=
  (toMap_perm h sortRules_perm.symm).symm

theorem ruleMap_add (h : d.WellFormed) (hi : ruleIndex d.rules rule.ruleId = none) :
    ruleMap (sortRules (d.rules ++ [rule])) = (ruleMap d.rules).insert rule.ruleId rule := by
  rw [ruleMap_sortRules (nodup_ruleId_add h.ids hi)]
  exact toMap_append h.ids (ruleIndex_eq_none.mp hi)

theorem ruleMap_update (h : d.WellFormed) (hi : ruleIndex d.rules rule.ruleId = some i) :
    ruleMap (sortRules (d.rules.set i rule)) = (ruleMap d.rules).insert rule.ruleId rule := by
  obtain ⟨hlt, hid⟩ := ruleIndex_eq_some hi
  rw [ruleMap_sortRules (by rw [map_set hlt hid]; exact h.ids)]
  exact toMap_set h.ids hlt hid

theorem ruleMap_delete (h : d.WellFormed) (hi : ruleIndex d.rules ruleId = some i) :
    ruleMap (d.rules.take i ++ d.rules.drop (i + 1)) = (ruleMap d.rules).erase ruleId := by
  obtain ⟨hlt, rfl⟩ := ruleIndex_eq_some hi
  exact toMap_remove h.ids hlt

theorem ruleMap_setEnabled {b : UInt32} (h : d.WellFormed)
    (hi : ruleIndex d.rules ruleId = some i) : ∃ r, (ruleMap d.rules).lookup ruleId = some r ∧
      ruleMap (d.rules.modify i fun r => { r with enabled := b }) =
        (ruleMap d.rules).insert ruleId { r with enabled := b } := by
  obtain ⟨hlt, rfl, hl⟩ := lookup_ruleMap h.ids hi
  refine ⟨_, hl, ?_⟩
  have hk : d.rules[i].ruleId = Rule.ruleId { d.rules[i] with enabled := b } := rfl
  rw [modify_enabled hlt]
  exact toMap_set h.ids hlt hk

/-! ### The writers -/

/-- The byte bound of a Replace never decides: 4096 rules fit. -/
theorem replacePrecheck_eq {rules : RuleArray} {v : UInt64} :
    replacePrecheck rules = (Request.replace rules v).argumentStatus := by
  have hfit : ¬ ruleMax < rules.count → ¬ replaceMaxBytes < rules.count * ruleSize := by
    simp only [ruleMax, replaceMaxBytes, ruleSize]
    omega
  by_cases hmax : ruleMax < rules.count
  · simp [replacePrecheck, Request.argumentStatus, hmax]
  cases rules with
  | null count =>
    by_cases hc : count = 0 <;>
      simp_all [replacePrecheck, Request.argumentStatus, RuleArray.count, RuleArray.rules]
  | array rules =>
    have hnull : ¬ ((RuleArray.array rules).rules = [] ∧ (RuleArray.array rules).count ≠ 0) := by
      simp [RuleArray.rules, RuleArray.count]
    have hids : (rules.Pairwise fun a b => a.ruleId ≠ b.ruleId) ↔
        (rules.map Rule.ruleId).Nodup := List.pairwise_map.symm
    simp only [replacePrecheck, Request.argumentStatus]
    rw [if_neg hmax, if_neg (hfit hmax)]
    cases hf : rules.find? fun r => !ntSuccess (ruleValidate (some r)) with
    | some r =>
      have hr : ¬ r.Valid := by
        rw [← ntSuccess_ruleValidate]
        simpa using List.find?_some hf
      have hbad : ruleMax < (RuleArray.array rules).count ∨
          ((RuleArray.array rules).rules = [] ∧ (RuleArray.array rules).count ≠ 0) ∨
          ∃ r ∈ (RuleArray.array rules).rules, ¬ r.Valid :=
        .inr (.inr ⟨r, List.mem_of_find?_eq_some hf, hr⟩)
      rw [if_pos hbad]
      change ruleValidate (some r) = statusInvalidParameter
      rw [ruleValidate_eq, if_neg hr]
    | none =>
      have hok : ¬ (ruleMax < (RuleArray.array rules).count ∨
          ((RuleArray.array rules).rules = [] ∧ (RuleArray.array rules).count ≠ 0) ∨
          ∃ r ∈ (RuleArray.array rules).rules, ¬ r.Valid) := by
        rintro (h | h | ⟨r, hr, hv⟩)
        · exact hmax h
        · exact hnull h
        · rw [← ntSuccess_ruleValidate] at hv
          exact List.find?_eq_none.mp hf r hr (by simpa using hv)
      rw [if_neg hok]
      change (if rules.Pairwise fun a b => a.ruleId ≠ b.ruleId then statusSuccess
        else statusObjectidExists) = if (rules.map Rule.ruleId).Nodup then _ else _
      exact if_congr hids rfl rfl

theorem precheck_eq : req.writer.precheck = req.argumentStatus := by
  cases req with
  | add rule | update rule =>
    cases rule with
    | none => rfl
    | some rule => exact ruleValidate_eq
  | replace rules expectedVersion => exact replacePrecheck_eq
  | setDefaultPolicy policy =>
    by_cases hp : policy = verdictPermit ∨ policy = verdictBlock
    · simp only [Request.writer, ruleStoreSetDefaultPolicy, Request.argumentStatus]
      rw [if_neg (by tauto), if_pos hp]
    · simp only [Request.writer, ruleStoreSetDefaultPolicy, Request.argumentStatus]
      rw [if_pos (by tauto), if_neg hp]
  | delete | setEnabled | clear | rollback => rfl

theorem argumentStatus_cases (req : Request) : req.argumentStatus = statusSuccess ∨
    req.argumentStatus = statusInvalidParameter ∨
    req.argumentStatus = statusObjectidExists := by
  cases req with
  | add rule | update rule =>
    cases rule with
    | none => exact .inr (.inl rfl)
    | some rule =>
      simp only [Request.argumentStatus]
      split <;> simp
  | replace rules expectedVersion =>
    simp only [Request.argumentStatus]
    split
    · simp
    · split <;> simp
  | setDefaultPolicy policy =>
    simp only [Request.argumentStatus]
    split <;> simp
  | delete | setEnabled | clear | rollback => exact .inl rfl

theorem ntSuccess_precheck :
    ntSuccess req.writer.precheck = true ↔ req.argumentStatus = statusSuccess := by
  rw [precheck_eq]
  rcases argumentStatus_cases req with h | h | h <;> rw [h] <;> decide

/-- What a writer prepares is what the abstract store asks for. -/
theorem effect_eq (hs : s.WellFormed) (hp : ntSuccess req.writer.precheck = true) :
    s.abstract.effect req =
      (req.writer.draft s.current s.rollbackSlot).map RuleSet.abstract := by
  have hc := hs.current
  have hcard : (ruleMap s.current.rules).keys.card = s.current.rules.length := card_toMap hc.ids
  let content (m : RuleMap) : Except NtStatus (RuleMap × UInt32) :=
    .ok (m, s.current.defaultPolicy)
  cases req with
  | add rule =>
    cases rule with
    | none => rfl
    | some rule =>
      simp only [PolicyStore.effect, Store.abstract, Request.writer, ruleStoreAdd, hcard,
        mem_ruleMap]
      by_cases hl : ruleMax ≤ s.current.rules.length
      · rw [if_pos hl, if_pos hl]
        rfl
      rw [if_neg hl, if_neg hl]
      cases hi : ruleIndex s.current.rules rule.ruleId with
      | some i => rfl
      | none => exact congrArg content (ruleMap_add (d := s.current.ruleSet) hc hi).symm
  | update rule =>
    cases rule with
    | none => rfl
    | some rule =>
      simp only [PolicyStore.effect, Store.abstract, Request.writer, ruleStoreUpdate,
        mem_ruleMap]
      cases hi : ruleIndex s.current.rules rule.ruleId with
      | none => rfl
      | some i => exact congrArg content (ruleMap_update (d := s.current.ruleSet) hc hi).symm
  | delete ruleId =>
    simp only [PolicyStore.effect, Store.abstract, Request.writer, ruleStoreDelete, mem_ruleMap]
    cases hi : ruleIndex s.current.rules ruleId with
    | none => rfl
    | some i => exact congrArg content (ruleMap_delete (d := s.current.ruleSet) hc hi).symm
  | setEnabled ruleId enabled =>
    simp only [PolicyStore.effect, Store.abstract, Request.writer, ruleStoreSetEnabled]
    cases hi : ruleIndex s.current.rules ruleId with
    | none =>
      have hn : (ruleMap s.current.rules).lookup ruleId = none := by
        rw [Finmap.lookup_eq_none, mem_ruleMap, hi]
        simp
      rw [hn]
      rfl
    | some i =>
      obtain ⟨r, hr, hm⟩ := ruleMap_setEnabled (d := s.current.ruleSet)
        (b := if enabled then 1 else 0) hc hi
      have hr' : (ruleMap s.current.rules).lookup ruleId = some r := hr
      rw [hr']
      exact congrArg content hm.symm
  | replace rules expectedVersion =>
    change (if expectedVersion ≠ 0 ∧ s.current.version ≠ expectedVersion then _ else _) =
      Except.map RuleSet.abstract (if expectedVersion ≠ 0 ∧ s.current.version ≠ expectedVersion
        then _ else _)
    by_cases hv : expectedVersion ≠ 0 ∧ s.current.version ≠ expectedVersion
    · rw [if_pos hv, if_pos hv]
      rfl
    · rw [if_neg hv, if_neg hv]
      obtain ⟨-, hi, -⟩ := replacePrecheck_success hp
      exact congrArg content (ruleMap_sortRules hi).symm
  | clear => rfl
  | rollback =>
    simp only [PolicyStore.effect, Store.abstract, Request.writer, ruleStoreRollback]
    cases s.rollbackSlot <;> rfl
  | setDefaultPolicy policy => rfl

theorem ruleMap_eq_empty : ruleMap rules = ∅ ↔ rules = [] := toMap_eq_empty

theorem consumesSlot_eq : req.writer.consumesSlot = req.isRollback := by
  cases req with
  | add rule | update rule => cases rule <;> rfl
  | delete | setEnabled | replace | clear | rollback | setDefaultPolicy => rfl

namespace Store

/-- A publication of the store is one of the abstract store. -/
theorem abstract_commit :
    (s.commit req.writer d).abstract = s.abstract.publish req d.abstract := by
  simp only [Store.abstract, PolicyStore.publish, commit_current, commit_rollbackSlot,
    consumesSlot_eq]
  cases req.isRollback <;> rfl

/-- The status and the content a call leaves are those of the abstract call. -/
theorem abstract_run (hs : s.WellFormed) :
    (s.run req.writer env).1 = (s.abstract.apply req env).1 ∧
      (s.run req.writer env).2.abstract = (s.abstract.apply req env).2 := by
  rcases run_cases s req.writer env with ⟨hp, he⟩ | ⟨hp, h⟩
  · have ha : req.argumentStatus ≠ statusSuccess := by
      intro ha
      rw [ntSuccess_precheck.mpr ha] at hp
      cases hp
    rw [he, PolicyStore.apply, if_pos ha, precheck_eq]
    exact ⟨rfl, rfl⟩
  have ha : ¬ req.argumentStatus ≠ statusSuccess := not_not.mpr (ntSuccess_precheck.mp hp)
  have heff := effect_eq hs hp
  rw [PolicyStore.apply, if_neg ha]
  rcases h with ⟨hact, he⟩ | ⟨hact, ⟨st, hd, he⟩ | ⟨d, hd, h⟩⟩
  · simp [he, hact]
  · rw [hd] at heff
    simp [he, hact, heff, Except.map]
  rw [hd] at heff
  have hal : (d.abstract.1 = ∅ ∨ env.arrayAlloc = true) ∧ env.snapAlloc = true ↔
      Allocates env d := by
    simp only [Allocates, RuleSet.abstract, ruleMap_eq_empty]
  rcases h with ⟨hn, he⟩ | ⟨hok, ⟨hq, he⟩ | ⟨hq, he⟩⟩
  · simp [he, hact, heff, Except.map, mt hal.mp hn]
  · simp [he, hact, heff, Except.map, hal.mpr hok, hq]
  · simp [he, hact, heff, Except.map, hal.mpr hok, hq, abstract_commit]

theorem abstract_step (h : Step s a t) (hs : s.WellFormed) :
    PolicyStore.Step s.abstract a t.abstract := by
  cases h with
  | call =>
    rw [(abstract_run hs).2]
    exact .call

/-- Every run of writer calls is one of the abstract store. -/
theorem abstract_steps {as : List Action} (h : system.Run s as t) (hs : s.WellFormed) :
    PolicyStore.system.Run s.abstract as t.abstract := by
  induction h with
  | refl => exact .refl
  | head hst _ ih => exact .head (abstract_step hst hs) (ih (wellFormed_step hst hs))

/-- A call that does not succeed leaves the store as it was. -/
theorem run_failed (h : (s.run req.writer env).1 ≠ statusSuccess) :
    (s.run req.writer env).2 = s := by
  rcases run_cases s req.writer env with ⟨-, he⟩ | ⟨-, ⟨-, he⟩ | ⟨-, ⟨st, -, he⟩ |
    ⟨d, -, ⟨-, he⟩ | ⟨-, ⟨-, he⟩ | ⟨-, he⟩⟩⟩⟩⟩
  case inr.inr.inr.inr.inr =>
    rw [he] at h
    exact absurd rfl h
  all_goals rw [he]

end Store

/-- A draft never fails with success. -/
theorem effect_error {p : PolicyStore} {st : NtStatus} (h : p.effect req = .error st) :
    st ≠ statusSuccess := by
  cases req with
  | add rule | update rule =>
    cases rule with
    | none =>
      cases h
      decide
    | some rule =>
      simp only [PolicyStore.effect] at h
      split_ifs at h <;> cases h <;> decide
  | delete | replace =>
    simp only [PolicyStore.effect] at h
    split_ifs at h
    cases h
    decide
  | setEnabled ruleId enabled =>
    simp only [PolicyStore.effect] at h
    split at h
    · cases h
      decide
    · cases h
  | rollback =>
    simp only [PolicyStore.effect] at h
    split at h
    · cases h
      decide
    · cases h
  | clear | setDefaultPolicy => cases h

/-- What a success of the abstract store changes. -/
theorem PolicyStore.apply_success {p : PolicyStore} (h : (p.apply req env).1 = statusSuccess) :
    ∃ content, p.effect req = .ok content ∧ (p.apply req env).2 = p.publish req content := by
  have hstate : statusInvalidDeviceState ≠ statusSuccess := by decide
  have hres : statusInsufficientResources ≠ statusSuccess := by decide
  by_cases ha : req.argumentStatus ≠ statusSuccess
  · rw [apply, if_pos ha] at h
    exact absurd h ha
  rw [apply, if_neg ha] at h ⊢
  cases hact : env.active with
  | false =>
    rw [hact] at h
    exact absurd h hstate
  | true =>
  rw [hact] at h
  cases heff : p.effect req with
  | error st =>
    rw [heff] at h
    exact absurd h (effect_error heff)
  | ok content =>
    simp only [heff, Bool.not_true, Bool.false_eq_true, if_false] at h ⊢
    split_ifs at h ⊢
    · exact ⟨content, rfl, rfl⟩
    · exact absurd h hstate
    · exact absurd h hres

/-- Every run of writer calls is one of the abstract store, every call returns the status the
abstract store prescribes and changes what it prescribes, and a call that fails changes
nothing, the buckets included. -/
theorem store_refines {rates : RateTable} {as : List Store.Action}
    (h : Store.system.Run (.init rates) as s) (req : Request) (env : Env) :
    PolicyStore.system.Run .start as s.abstract ∧
      (s.run req.writer env).1 = (s.abstract.apply req env).1 ∧
      (s.run req.writer env).2.abstract = (s.abstract.apply req env).2 ∧
      ((s.run req.writer env).1 = statusSuccess →
        ∃ content, s.abstract.effect req = .ok content ∧
          (s.run req.writer env).2.abstract = {
            rules := content.1
            defaultPolicy := content.2
            version := s.abstract.version + 1
            undo := if req.isRollback then none
              else some (s.abstract.rules, s.abstract.defaultPolicy) }) ∧
      ((s.run req.writer env).1 ≠ statusSuccess → (s.run req.writer env).2 = s) := by
  have hinit := Store.wellFormed_init rates
  have hs : s.WellFormed := h.preserves Store.wellFormed_step hinit
  refine ⟨Store.abstract_steps h hinit, (Store.abstract_run hs).1, (Store.abstract_run hs).2, ?_,
    Store.run_failed⟩
  intro hok
  obtain ⟨hst, hab⟩ : (s.run req.writer env).1 = (s.abstract.apply req env).1 ∧
      (s.run req.writer env).2.abstract = (s.abstract.apply req env).2 := Store.abstract_run hs
  rw [hst] at hok
  obtain ⟨content, heff, hp⟩ := PolicyStore.apply_success hok
  exact ⟨content, heff, hab.trans hp⟩

/-- `portRule` with a wider range. -/
def portRangeRule : Rule := { portRule with remotePortMin := 80 }

/-- The rule is added, widened and deleted. -/
def portCalls : List Store.Action :=
  [⟨.add (some portRule), .granted⟩, ⟨.update (some portRangeRule), .granted⟩,
    ⟨.delete 7, .granted⟩]

def portDeleted : Store :=
  portCalls.foldl (fun s act => (s.run act.request.writer act.env).2) (.init rateTableEmpty)

/-- The rollback brings the widened rule back. -/
theorem store_refines_deleted : PolicyStore.system.Run .start portCalls portDeleted.abstract ∧
    portDeleted.abstract.rules = ∅ ∧
    (portDeleted.run Request.rollback.writer .granted).1 = statusSuccess ∧
    (portDeleted.run Request.rollback.writer .granted).2.current.rules = [portRangeRule] ∧
    (portDeleted.run Request.rollback.writer .granted).2.abstract.version = 4 ∧
    (portDeleted.run Request.rollback.writer .granted).2.abstract.undo = none := by
  have hrun : Store.system.Run (.init rateTableEmpty) portCalls portDeleted :=
    .head .call (.head .call (.single .call))
  obtain ⟨habs, -, -, hok, -⟩ := store_refines hrun .rollback .granted
  have hst : (portDeleted.run Request.rollback.writer .granted).1 = statusSuccess := by
    decide +kernel
  have hversion : portDeleted.current.version = 3 := by decide +kernel
  have hnone : portDeleted.current.rules = [] := by decide +kernel
  obtain ⟨content, -, ht⟩ := hok hst
  refine ⟨habs, ?_, hst, by decide +kernel, ?_, ?_⟩
  · rw [Store.abstract, hnone]
    rfl
  · rw [ht]
    exact congrArg (· + 1) hversion
  · rw [ht]
    rfl

end Sentinel
