import Sentinel.Store.WellFormed

/-! What the store is for: a finite map of rules with a policy, a version and one undo. -/
namespace Sentinel

open Transition Keyed

abbrev RuleMap := Finmap fun _ : UInt64 => Rule

structure PolicyStore where
  rules : RuleMap
  defaultPolicy : UInt32
  version : UInt64
  undo : Option (RuleMap × UInt32)

/-- The rules by their ids. -/
abbrev ruleMap (rules : List Rule) : RuleMap := toMap Rule.ruleId rules

namespace Request

/-- Are the arguments themselves in order? -/
def argumentStatus : Request → NtStatus
  | .add rule | .update rule =>
    match rule with
    | none => statusInvalidParameter
    | some rule => if rule.Valid then statusSuccess else statusInvalidParameter
  | .replace rules _ =>
    if ruleMax < rules.count ∨ (rules.rules = [] ∧ rules.count ≠ 0) ∨
        (∃ r ∈ rules.rules, ¬ r.Valid) then statusInvalidParameter
    else if (rules.rules.map Rule.ruleId).Nodup then statusSuccess
    else statusObjectidExists
  | .setDefaultPolicy policy =>
    if policy = verdictPermit ∨ policy = verdictBlock then statusSuccess
    else statusInvalidParameter
  | .delete _ | .setEnabled _ _ | .clear | .rollback => statusSuccess

def isRollback : Request → Bool
  | .rollback => true
  | .add _ | .update _ | .delete _ | .setEnabled _ _ | .replace _ _ | .clear
  | .setDefaultPolicy _ => false

end Request

namespace PolicyStore

variable (p : PolicyStore) (req : Request) (env : Env)

/-- The map and the policy a request asks for, or why it cannot have them. -/
def effect : Request → Except NtStatus (RuleMap × UInt32)
  | .add rule =>
    match rule with
    | none => .error statusInvalidParameter
    | some rule =>
      if ruleMax ≤ p.rules.keys.card then .error statusInsufficientResources
      else if rule.ruleId ∈ p.rules then .error statusObjectidExists
      else .ok (p.rules.insert rule.ruleId rule, p.defaultPolicy)
  | .update rule =>
    match rule with
    | none => .error statusInvalidParameter
    | some rule =>
      if rule.ruleId ∈ p.rules then .ok (p.rules.insert rule.ruleId rule, p.defaultPolicy)
      else .error statusNotFound
  | .delete ruleId =>
    if ruleId ∈ p.rules then .ok (p.rules.erase ruleId, p.defaultPolicy)
    else .error statusNotFound
  | .setEnabled ruleId enabled =>
    match p.rules.lookup ruleId with
    | none => .error statusNotFound
    | some rule => .ok (p.rules.insert ruleId { rule with enabled := if enabled then 1 else 0 },
        p.defaultPolicy)
  | .replace rules expectedVersion =>
    if expectedVersion ≠ 0 ∧ p.version ≠ expectedVersion then .error statusRetry
    else .ok (ruleMap rules.rules, p.defaultPolicy)
  | .clear => .ok (∅, p.defaultPolicy)
  | .rollback =>
    match p.undo with
    | none => .error statusNotFound
    | some undo => .ok undo
  | .setDefaultPolicy policy => .ok (p.rules, policy)

/-- The next version, with the present content as the undo of all but a rollback. -/
def publish (content : RuleMap × UInt32) : PolicyStore where
  rules := content.1
  defaultPolicy := content.2
  version := p.version + 1
  undo := if req.isRollback then none else some (p.rules, p.defaultPolicy)

/-- The status and the store after a request. -/
def apply : NtStatus × PolicyStore :=
  if req.argumentStatus ≠ statusSuccess then (req.argumentStatus, p)
  else if !env.active then (statusInvalidDeviceState, p)
  else match p.effect req with
    | .error st => (st, p)
    | .ok content =>
      if (content.1 = ∅ ∨ env.arrayAlloc) ∧ env.snapAlloc then
        if env.activeAtPublish then (statusSuccess, p.publish req content)
        else (statusInvalidDeviceState, p)
      else (statusInsufficientResources, p)

/-- After `SkRuleStoreInit`. -/
def start : PolicyStore := ⟨∅, verdictPermit, 0, none⟩

inductive Step : PolicyStore → Store.Action → PolicyStore → Prop where
  | call {p : PolicyStore} {req : Request} {env : Env} : Step p ⟨req, env⟩ (p.apply req env).2

def system : System PolicyStore Store.Action where
  init p := p = start
  step := Step

end PolicyStore

end Sentinel
