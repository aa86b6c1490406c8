import Sentinel.General.System
import Sentinel.Rules.Order
import Sentinel.Rules.Rate
import Sentinel.Rules.Validate

/-! The writers of `rules/rule_store.c`, each under `storeLock` from beginning to end. -/
namespace Sentinel

open Transition

/-- What a snapshot holds apart from its version. -/
structure RuleSet where
  rules : List Rule
  defaultPolicy : UInt32
  deriving DecidableEq

def Snapshot.ruleSet (s : Snapshot) : RuleSet := ⟨s.rules, s.defaultPolicy⟩

/-- The store between `SkRuleStoreInit` and `SkRuleStoreShutdown`, and `g_RateTable`. -/
structure Store where
  current : Snapshot
  rollbackSlot : Option Snapshot
  rates : RateTable
  deriving DecidableEq

/-- What a writer meets: `ShRuntimeIsActive` at its two gates and the pool. -/
structure Env where
  active : Bool
  arrayAlloc : Bool
  snapAlloc : Bool
  activeAtPublish : Bool

/-- The runtime stays Active and every allocation succeeds. -/
def Env.granted : Env := ⟨true, true, true, true⟩

/-- The `rules` and `count` arguments of `SkRuleStoreReplace`. -/
inductive RuleArray where
  | null (count : ℕ)
  | array (rules : List Rule)

def RuleArray.count : RuleArray → ℕ
  | .null count => count
  | .array rules => rules.length

def RuleArray.rules : RuleArray → List Rule
  | .null _ => []
  | .array rules => rules

/-- What sets the writers apart: the checks before `storeLock`, the rule set they prepare from
the current snapshot and the rollback slot, whether they consume the slot, and the bucket they
clear after a success. -/
structure Writer where
  precheck : NtStatus
  draft : Snapshot → Option Snapshot → Except NtStatus RuleSet
  consumesSlot : Bool := false
  resets : Option UInt64 := none

/-- The loop over `cur->rules` that looks for an id. -/
def ruleIndex (rules : List Rule) (ruleId : UInt64) : Option ℕ :=
  rules.findIdx? fun r => r.ruleId == ruleId

/-- A writer called with NULL for the rule. -/
def writerNull : Writer where
  precheck := ruleValidate none
  draft _ _ := .error (ruleValidate none)

/-- `SkRuleStoreAdd`. -/
def ruleStoreAdd : Option Rule → Writer
  | none => writerNull
  | some rule => {
      precheck := ruleValidate (some rule)
      draft := fun cur _ =>
        if ruleMax ≤ cur.rules.length then .error statusInsufficientResources
        else if (ruleIndex cur.rules rule.ruleId).isSome then .error statusObjectidExists
        else .ok ⟨sortRules (cur.rules ++ [rule]), cur.defaultPolicy⟩
      resets := some rule.ruleId }

/-- `SkRuleStoreUpdate`: the bucket stays. -/
def ruleStoreUpdate : Option Rule → Writer
  | none => writerNull
  | some rule => {
      precheck := ruleValidate (some rule)
      draft := fun cur _ =>
        match ruleIndex cur.rules rule.ruleId with
        | none => .error statusNotFound
        | some i => .ok ⟨sortRules (cur.rules.set i rule), cur.defaultPolicy⟩ }

/-- `SkRuleStoreDelete`: the order is kept, no sort. -/
def ruleStoreDelete (ruleId : UInt64) : Writer where
  precheck := statusSuccess
  draft cur _ :=
    match ruleIndex cur.rules ruleId with
    | none => .error statusNotFound
    | some i => .ok ⟨cur.rules.take i ++ cur.rules.drop (i + 1), cur.defaultPolicy⟩

/-- `SkRuleStoreSetEnabled`: the sort keys are unchanged, no sort. -/
def ruleStoreSetEnabled (ruleId : UInt64) (enabled : Bool) : Writer where
  precheck := statusSuccess
  draft cur _ :=
    match ruleIndex cur.rules ruleId with
    | none => .error statusNotFound
    | some i => .ok ⟨cur.rules.modify i fun r => { r with enabled := if enabled then 1 else 0 },
        cur.defaultPolicy⟩
  resets := if enabled then none else some ruleId

/-- The checks of `SkRuleStoreReplace` before it takes `storeLock`. -/
def replacePrecheck (rules : RuleArray) : NtStatus :=
  if ruleMax < rules.count then statusInvalidParameter
  else if replaceMaxBytes < rules.count * ruleSize then statusInvalidParameter
  else match rules with
    | .null count => if count ≠ 0 then statusInvalidParameter else statusSuccess
    | .array rules =>
      match rules.find? fun r => !ntSuccess (ruleValidate (some r)) with
      | some r => ruleValidate (some r)
      | none =>
        if rules.Pairwise fun a b => a.ruleId ≠ b.ruleId then statusSuccess
        else statusObjectidExists

/-- `SkRuleStoreReplace`; the version 0 is not compared. -/
def ruleStoreReplace (rules : RuleArray) (expectedVersion : UInt64) : Writer where
  precheck := replacePrecheck rules
  draft cur _ :=
    if expectedVersion ≠ 0 ∧ cur.version ≠ expectedVersion then .error statusRetry
    else .ok ⟨sortRules rules.rules, cur.defaultPolicy⟩

/-- `SkRuleStoreClear`. -/
def ruleStoreClear : Writer where
  precheck := statusSuccess
  draft cur _ := .ok ⟨[], cur.defaultPolicy⟩

/-- `SkRuleStoreRollback`: copies the content of the slot, already sorted. -/
def ruleStoreRollback : Writer where
  precheck := statusSuccess
  draft _ rb :=
    match rb with
    | none => .error statusNotFound
    | some rb => .ok rb.ruleSet
  consumesSlot := true

/-- `SkRuleStoreSetDefaultPolicy`. -/
def ruleStoreSetDefaultPolicy (policy : UInt32) : Writer where
  precheck := if policy ≠ verdictPermit ∧ policy ≠ verdictBlock then statusInvalidParameter
    else statusSuccess
  draft cur _ := .ok ⟨cur.rules, policy⟩

/-- A call of the writer API. -/
inductive Request where
  | add (rule : Option Rule)
  | update (rule : Option Rule)
  | delete (ruleId : UInt64)
  | setEnabled (ruleId : UInt64) (enabled : Bool)
  | replace (rules : RuleArray) (expectedVersion : UInt64)
  | clear
  | rollback
  | setDefaultPolicy (policy : UInt32)

def Request.writer : Request → Writer
  | .add rule => ruleStoreAdd rule
  | .update rule => ruleStoreUpdate rule
  | .delete ruleId => ruleStoreDelete ruleId
  | .setEnabled ruleId enabled => ruleStoreSetEnabled ruleId enabled
  | .replace rules expectedVersion => ruleStoreReplace rules expectedVersion
  | .clear => ruleStoreClear
  | .rollback => ruleStoreRollback
  | .setDefaultPolicy policy => ruleStoreSetDefaultPolicy policy

/-- `SkRateResetRemoved`. -/
def rateResetRemoved (old new : List Rule) (t : RateTable) : RateTable :=
  old.foldl (fun t r =>
    if new.any fun r' => r'.ruleId == r.ruleId then t else ruleRateReset r.ruleId t) t

namespace Store

/-- After `SkRuleStoreInit`; the buckets belong to the image and are not touched. -/
def init (rates : RateTable) : Store := ⟨⟨[], 0, verdictPermit⟩, none, rates⟩

/-- The writer section of `SkPublish` and of `SkRuleStoreRollback`, and `SkRateResetRemoved`
after it. -/
def publish (s : Store) (consumesSlot : Bool) (d : RuleSet) : Store where
  current := ⟨d.rules, s.current.version + 1, d.defaultPolicy⟩
  rollbackSlot := if consumesSlot then none else some s.current
  rates := rateResetRemoved s.current.rules d.rules s.rates

/-- A writer's publication and the bucket it clears itself. -/
def commit (s : Store) (w : Writer) (d : RuleSet) : Store :=
  let s := s.publish w.consumesSlot d
  { s with rates := w.resets.elim s.rates (ruleRateReset · s.rates) }

/-- One call from its checks to its return. An array is allocated just when there is a rule
to copy. -/
def run (s : Store) (w : Writer) (env : Env) : NtStatus × Store :=
  if !ntSuccess w.precheck then (w.precheck, s)
  else if !env.active then (statusInvalidDeviceState, s)
  else match w.draft s.current s.rollbackSlot with
    | .error st => (st, s)
    | .ok d =>
      if !d.rules.isEmpty && !env.arrayAlloc then (statusInsufficientResources, s)
      else if !env.snapAlloc then (statusInsufficientResources, s)
      else if !env.activeAtPublish then (statusInvalidDeviceState, s)
      else (statusSuccess, s.commit w d)

/-- Does the pool hold what the new snapshot needs? -/
def Allocates (env : Env) (d : RuleSet) : Prop :=
  (d.rules = [] ∨ env.arrayAlloc = true) ∧ env.snapAlloc = true

instance (env : Env) (d : RuleSet) : Decidable (Allocates env d) :=
  inferInstanceAs (Decidable (_ ∧ _))

structure Action where
  request : Request
  env : Env

inductive Step : Store → Action → Store → Prop where
  | call {s : Store} {req : Request} {env : Env} : Step s ⟨req, env⟩ (s.run req.writer env).2

/-- The runs of writer calls, which `storeLock` keeps apart. -/
def system : System Store Action where
  init s := ∃ rates, s = init rates
  step := Step

variable {s : Store} {w : Writer} {env : Env} {d : RuleSet} {b : Bool}

@[simp] theorem publish_current : (s.publish b d).current =
    ⟨d.rules, s.current.version + 1, d.defaultPolicy⟩ := rfl

@[simp] theorem publish_rollbackSlot : (s.publish b d).rollbackSlot =
    if b then none else some s.current := rfl

@[simp] theorem commit_current : (s.commit w d).current =
    ⟨d.rules, s.current.version + 1, d.defaultPolicy⟩ := rfl

@[simp] theorem commit_rollbackSlot : (s.commit w d).rollbackSlot =
    if w.consumesSlot then none else some s.current := rfl

/-- The ways through a writer call. -/
theorem run_cases (s : Store) (w : Writer) (env : Env) :
    (ntSuccess w.precheck = false ∧ s.run w env = (w.precheck, s)) ∨
    ntSuccess w.precheck = true ∧
      ((env.active = false ∧ s.run w env = (statusInvalidDeviceState, s)) ∨
      env.active = true ∧
        ((∃ st, w.draft s.current s.rollbackSlot = .error st ∧ s.run w env = (st, s)) ∨
        ∃ d, w.draft s.current s.rollbackSlot = .ok d ∧
          ((¬ Allocates env d ∧ s.run w env = (statusInsufficientResources, s)) ∨
          Allocates env d ∧
            ((env.activeAtPublish = false ∧ s.run w env = (statusInvalidDeviceState, s)) ∨
            env.activeAtPublish = true ∧ s.run w env = (statusSuccess, s.commit w d))))) := by
  cases hp : ntSuccess w.precheck with
  | false => exact .inl ⟨rfl, by simp [run, hp]⟩
  | true =>
  refine .inr ⟨rfl, ?_⟩
  cases ha : env.active with
  | false => exact .inl ⟨rfl, by simp [run, hp, ha]⟩
  | true =>
  refine .inr ⟨rfl, ?_⟩
  cases hd : w.draft s.current s.rollbackSlot with
  | error st => exact .inl ⟨st, rfl, by simp [run, hp, ha, hd]⟩
  | ok d =>
  refine .inr ⟨d, rfl, ?_⟩
  by_cases hal : Allocates env d
  · obtain ⟨harr, hsnap⟩ := hal
    have hne : (!d.rules.isEmpty && !env.arrayAlloc) = false := by
      rcases harr with h | h <;> simp [h]
    refine .inr ⟨⟨harr, hsnap⟩, ?_⟩
    cases hq : env.activeAtPublish with
    | false => exact .inl ⟨rfl, by simp [run, hp, ha, hd, hne, hsnap, hq]⟩
    | true => exact .inr ⟨rfl, by simp [run, hp, ha, hd, hne, hsnap, hq]⟩
  · refine .inl ⟨hal, ?_⟩
    by_cases harr : d.rules = [] ∨ env.arrayAlloc = true
    · have hsnap : env.snapAlloc = false := by
        cases h : env.snapAlloc with
        | false => rfl
        | true => exact absurd ⟨harr, h⟩ hal
      have hne : (!d.rules.isEmpty && !env.arrayAlloc) = false := by
        rcases harr with h | h <;> simp [h]
      simp [run, hp, ha, hd, hne, hsnap]
    · obtain ⟨hn, harr⟩ := not_or.mp harr
      have hne : (!d.rules.isEmpty && !env.arrayAlloc) = true := by simp [hn, harr]
      simp [run, hp, ha, hd, hne]

/-- What a draft fails with is an error. -/
theorem draft_error {r : Request} {cur : Snapshot} {rb : Option Snapshot} {st : NtStatus}
    (h : r.writer.draft cur rb = .error st) : ntSuccess st = false := by
  cases r with
  | add rule =>
    cases rule with
    | none =>
      cases h
      decide
    | some rule =>
      simp only [Request.writer, ruleStoreAdd] at h
      split_ifs at h <;> cases h <;> decide
  | update rule =>
    cases rule with
    | none =>
      cases h
      decide
    | some rule =>
      simp only [Request.writer, ruleStoreUpdate] at h
      split at h <;> cases h
      decide
  | delete ruleId | setEnabled ruleId enabled =>
    simp only [Request.writer, ruleStoreDelete, ruleStoreSetEnabled] at h
    split at h <;> cases h
    decide
  | replace rules expectedVersion =>
    simp only [Request.writer, ruleStoreReplace] at h
    split at h <;> cases h
    decide
  | rollback =>
    simp only [Request.writer, ruleStoreRollback] at h
    split at h <;> cases h
    decide
  | clear | setDefaultPolicy policy => cases h

/-- A successful call has committed its draft. -/
theorem run_success {r : Request} (h : (s.run r.writer env).1 = statusSuccess) :
    ∃ d, r.writer.draft s.current s.rollbackSlot = .ok d ∧
      s.run r.writer env = (statusSuccess, s.commit r.writer d) := by
  have hne : statusInvalidDeviceState ≠ statusSuccess ∧
      statusInsufficientResources ≠ statusSuccess := by decide
  rcases run_cases s r.writer env with ⟨hp, he⟩ | ⟨hp, ⟨-, he⟩ | ⟨-, ⟨st, hd, he⟩ |
    ⟨d, hd, ⟨-, he⟩ | ⟨-, ⟨-, he⟩ | ⟨-, he⟩⟩⟩⟩⟩ <;> rw [he] at h
  · have hs : ntSuccess r.writer.precheck = true := congrArg ntSuccess h
    rw [hs] at hp
    cases hp
  · exact absurd h hne.1
  · have hst : st = statusSuccess := h
    have hfail := draft_error hd
    rw [hst] at hfail
    exact absurd hfail (by decide)
  · exact absurd h hne.2
  · exact absurd h hne.1
  · exact ⟨d, hd, he⟩

end Store

end Sentinel
