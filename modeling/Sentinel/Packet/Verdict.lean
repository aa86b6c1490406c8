import Sentinel.Packet.LiveRules
import Sentinel.Store.Contents

/-! The six classify callbacks of `packet/classify.c`: what they write and whom they call. -/
namespace Sentinel

open Transition
open Concurrent (SnapId)

/-- `SK_INJECT_TAG`. -/
def injectTag : UInt32 := 0x534B4A54

/-- `SkInjectIsSelf`. -/
def injectIsSelf (injectionContext : UInt64) : Bool :=
  (injectionContext &&& 0xFFFFFFFF).toUInt32 == injectTag

def fwpActionBlock : UInt32 := 0x1001
def fwpActionPermit : UInt32 := 0x1002
def fwpsRightActionWrite : UInt32 := 1

/-- `SK_EVT_VERDICT_AUDIT` and `SK_EVT_RATE_LIMITED`. -/
def evtVerdictAudit : UInt32 := 1
def evtRateLimited : UInt32 := 3

/-- `FWPS_CLASSIFY_OUT0`, as far as it is used. -/
structure ClassifyOut where
  actionType : UInt32
  rights : UInt32
  deriving DecidableEq

/-- The metadata with the handle that the FLOW_ESTABLISHED layers read. -/
structure FlowMetadata extends FwpsMetadata where
  flowHandle : Option UInt64

/-- `SK_EVENT_RECORD`, whose padding is zero. -/
structure EventRecord where
  timestampUtc100ns : UInt64
  ruleId : UInt64
  type : UInt32
  family : UInt32
  protocol : UInt32
  direction : UInt32
  processId : UInt32
  localPort : UInt32
  remotePort : UInt32
  localAddr : Addr
  remoteAddr : Addr

/-- A call into another component, with its answer. -/
inductive ClassifyCall where
  | acquire (snap : Option SnapId)
  | evaluate (snap : Option SnapId) (tuple : ClassifyTuple) (out : Verdict)
  | release (snap : Option SnapId)
  | post (type : UInt32) (record : EventRecord) (delivered : Bool)
  | attach (flowHandle : UInt64) (layerId runtimeId : UInt32) (attached : Bool)
  | flowRelease

/-- What a callback finds: the store at its Acquire, the buckets, counters and clocks when it
comes to them, and how the other calls end. -/
structure Surroundings where
  store : Concurrent.State
  rates : RateTable
  stats : RuleStats
  clock : Clock
  nowUtc100ns : UInt64
  delivered : Bool
  runtimeId : UInt32 → UInt32
  attached : Bool

/-- What a callback leaves. -/
structure Classified where
  out : Option ClassifyOut
  calls : List ClassifyCall
  rates : RateTable
  stats : RuleStats

namespace Surroundings

/-- The answer of `SkRuleStoreAcquire`. -/
def acquired (e : Surroundings) : Option SnapId :=
  e.store.current.filter fun id => !e.store.closed && rundownMayAcquire (e.store.readers id)

/-- `SkRuleEvaluate` on that snapshot. -/
def evaluate (e : Surroundings) (tuple : ClassifyTuple) :
    Option (Verdict × RateTable × RuleStats) :=
  ruleEvaluate (e.acquired.map e.store.snap) tuple e.clock e.rates e.stats

/-- A callback that returns without an evaluation. -/
def passed (e : Surroundings) (out : Option ClassifyOut) (calls : List ClassifyCall) :
    Classified :=
  ⟨out, calls, e.rates, e.stats⟩

end Surroundings

def ClassifyOut.canWrite (out : ClassifyOut) : Bool := out.rights &&& fwpsRightActionWrite != 0

/-- An action, final with it. -/
def ClassifyOut.write (out : ClassifyOut) (actionType : UInt32) : ClassifyOut :=
  ⟨actionType, out.rights &&& ~~~fwpsRightActionWrite⟩

/-- PERMIT, with the right to write it. -/
def ClassifyOut.permit (out : ClassifyOut) : ClassifyOut :=
  if out.canWrite then out.write fwpActionPermit else out

/-- `hardBlockAllowed` of `g_SkCalloutDefs`. -/
def calloutHardBlockAllowed : List UInt32 := [1, 1, 1, 1, 0, 0]

/-- `SkCalloutDefById` and the test of what it finds. -/
def hardBlockAllowed (layerId : UInt32) : Bool :=
  calloutHardBlockAllowed[layerId.toNat]?.elim false (· != 0)

/-- `skClassifyPostEvent`. -/
def classifyPostEvent (e : Surroundings) (type : UInt32) (ruleId : UInt64)
    (tuple : ClassifyTuple) : ClassifyCall :=
  .post type ⟨tuple.nowUtc100ns, ruleId, type, tuple.family, tuple.protocol, tuple.direction,
    tuple.processId, tuple.localPort, tuple.remotePort, tuple.localAddr, tuple.remoteAddr⟩
    e.delivered

/-- The telemetry of a verdict. -/
def verdictEvents (e : Surroundings) (verdict : Verdict) (tuple : ClassifyTuple) :
    List ClassifyCall :=
  if verdict.rateLimited ≠ 0 then [classifyPostEvent e evtRateLimited verdict.ruleId tuple]
  else if verdict.action = verdictAudit then
    [classifyPostEvent e evtVerdictAudit verdict.ruleId tuple]
  else []

/-- The gate at the end of `SkClassifyApplyVerdict`. -/
def writeVerdict (layerId : UInt32) (verdict : Verdict) (out : ClassifyOut) : ClassifyOut :=
  if !out.canWrite then out
  else if verdict.action = verdictBlock ∧ hardBlockAllowed layerId then out.write fwpActionBlock
  else out.write fwpActionPermit

/-- The calls and the results of an evaluation. -/
def Surroundings.evaluated (e : Surroundings) (tuple : ClassifyTuple)
    (r : Verdict × RateTable × RuleStats) (out : Option ClassifyOut) : Classified where
  out := out
  calls := [.acquire e.acquired, .evaluate e.acquired tuple r.1, .release e.acquired] ++
    verdictEvents e r.1 tuple
  rates := r.2.1
  stats := r.2.2

/-- `SkClassifyApplyVerdict`; `none` if the evaluation faults. -/
def classifyApplyVerdict (e : Surroundings) (layerId : UInt32) (tuple : Option ClassifyTuple)
    (out : Option ClassifyOut) : Option Classified :=
  match tuple with
  | none => some (e.passed out [])
  | some tuple => (e.evaluate tuple).map fun r =>
      e.evaluated tuple r (out.map (writeVerdict layerId r.1))

/-- A WFP classify callback, with the arguments that are read. -/
abbrev ClassifyFn := Surroundings → Option (List FwpValue) → Option FlowMetadata → UInt64 →
  Option ClassifyOut → Option Classified

/-- The tuple of an ALE classification. -/
def aleTuple (e : Surroundings) (layerId : UInt32) (inFixed : Option (List FwpValue))
    (metadata : Option FlowMetadata) : ClassifyTuple :=
  classifyBuildTuple layerId inFixed (metadata.map FlowMetadata.toFwpsMetadata) e.nowUtc100ns

/-- `skClassifyAleCommon`. -/
def classifyAleCommon (layerId : UInt32) : ClassifyFn
  | e, _, _, _, none => some (e.passed none [])
  | e, inFixed, metadata, flowContext, some out =>
    if injectIsSelf flowContext then some (e.passed (some out.permit) [])
    else classifyApplyVerdict e layerId (some (aleTuple e layerId inFixed metadata)) (some out)

/-- The calls of `skClassifyFlowCommon`. -/
def flowCalls (e : Surroundings) (layerId : UInt32) (metadata : Option FlowMetadata)
    (flowContext : UInt64) : List ClassifyCall :=
  match metadata.bind FlowMetadata.flowHandle with
  | none => []
  | some flowHandle =>
    if injectIsSelf flowContext ∨ flowHandle = 0 ∨ e.runtimeId layerId = 0 then []
    else .attach flowHandle layerId (e.runtimeId layerId) e.attached ::
      if e.attached then [.flowRelease] else []

/-- `skClassifyFlowCommon`. -/
def classifyFlowCommon (layerId : UInt32) : ClassifyFn
  | e, _, _, _, none => some (e.passed none [])
  | e, _, metadata, flowContext, some out =>
    some (e.passed (some out.permit) (flowCalls e layerId metadata flowContext))

def classifyAleAuthConnectV4 : ClassifyFn := classifyAleCommon layerAleAuthConnectV4
def classifyAleAuthConnectV6 : ClassifyFn := classifyAleCommon layerAleAuthConnectV6
def classifyAleRecvAcceptV4 : ClassifyFn := classifyAleCommon layerAleRecvAcceptV4
def classifyAleRecvAcceptV6 : ClassifyFn := classifyAleCommon layerAleRecvAcceptV6
def classifyFlowEstablishedV4 : ClassifyFn := classifyFlowCommon layerFlowEstablishedV4
def classifyFlowEstablishedV6 : ClassifyFn := classifyFlowCommon layerFlowEstablishedV6

/-- The layers and callbacks of `g_SkCalloutDefs`. -/
def classifyFns : List (UInt32 × ClassifyFn) :=
  [(layerAleAuthConnectV4, classifyAleAuthConnectV4),
    (layerAleAuthConnectV6, classifyAleAuthConnectV6),
    (layerAleRecvAcceptV4, classifyAleRecvAcceptV4),
    (layerAleRecvAcceptV6, classifyAleRecvAcceptV6),
    (layerFlowEstablishedV4, classifyFlowEstablishedV4),
    (layerFlowEstablishedV6, classifyFlowEstablishedV6)]

/-! ### What is written -/

variable {e : Surroundings} {layerId : UInt32} {inFixed : Option (List FwpValue)}
  {metadata : Option FlowMetadata} {flowContext : UInt64} {out : ClassifyOut} {r : Classified}
  {tuple : ClassifyTuple} {v : Verdict} {rates : RateTable} {stats : RuleStats} {blocks : Prop}
  {id : SnapId}

/-- The verdict-rights contract of a callback that blocks in the case `blocks`. -/
structure RightsContract (blocks : Prop) (out out' : ClassifyOut) : Prop where
  kept : out.rights &&& fwpsRightActionWrite = 0 →
    out'.actionType = out.actionType ∧ out'.rights = out.rights
  final : out.rights &&& fwpsRightActionWrite ≠ 0 →
    out'.rights = out.rights &&& ~~~fwpsRightActionWrite
  block : out.rights &&& fwpsRightActionWrite ≠ 0 →
    (out'.actionType = fwpActionBlock ↔ blocks)
  permit : out.rights &&& fwpsRightActionWrite ≠ 0 → ¬ blocks →
    out'.actionType = fwpActionPermit

theorem rightsContract_write {actionType : UInt32}
    (h : actionType = fwpActionBlock ∧ blocks ∨ actionType = fwpActionPermit ∧ ¬ blocks) :
    RightsContract blocks out (if out.canWrite then out.write actionType else out) := by
  have hcan : out.canWrite = true ↔ out.rights &&& fwpsRightActionWrite ≠ 0 := by
    rw [ClassifyOut.canWrite, bne_iff_ne]
  have hne : fwpActionPermit ≠ fwpActionBlock := by decide
  constructor
  case kept =>
    intro h0
    rw [if_neg fun h => hcan.mp h h0]
    exact ⟨rfl, rfl⟩
  case final =>
    intro h1
    rw [if_pos (hcan.mpr h1)]
    rfl
  case block =>
    intro h1
    rw [if_pos (hcan.mpr h1)]
    show actionType = fwpActionBlock ↔ blocks
    rcases h with ⟨rfl, hb⟩ | ⟨rfl, hb⟩
    · exact iff_of_true rfl hb
    · exact iff_of_false hne hb
  case permit =>
    intro h1 hb
    rw [if_pos (hcan.mpr h1)]
    rcases h with ⟨-, hb'⟩ | ⟨he, -⟩
    · exact absurd hb' hb
    · exact he

theorem rightsContract_permit (hb : ¬ blocks) : RightsContract blocks out out.permit :=
  rightsContract_write (.inr ⟨rfl, hb⟩)

theorem rightsContract_writeVerdict (hl : hardBlockAllowed layerId = true) :
    RightsContract (v.action = verdictBlock) out (writeVerdict layerId v out) := by
  have heq : writeVerdict layerId v out = if out.canWrite then
      out.write (if v.action = verdictBlock then fwpActionBlock else fwpActionPermit)
      else out := by
    unfold writeVerdict
    cases out.canWrite with
    | false => rfl
    | true =>
      by_cases hv : v.action = verdictBlock
      · simp [hv, hl]
      · simp [hv]
  rw [heq]
  refine rightsContract_write ?_
  by_cases hv : v.action = verdictBlock
  · exact .inl ⟨if_pos hv, hv⟩
  · exact .inr ⟨if_neg hv, hv⟩

/-- A callback of an ALE layer permits at once what was injected, and evaluates all else. -/
theorem classifyAleCommon_eq :
    classifyAleCommon layerId e inFixed metadata flowContext (some out) =
      if injectIsSelf flowContext then some (e.passed (some out.permit) [])
      else (e.evaluate (aleTuple e layerId inFixed metadata)).map fun r =>
        e.evaluated (aleTuple e layerId inFixed metadata) r
          (some (writeVerdict layerId r.1 out)) := rfl

/-- The layer is one of the four, the context is not the driver's own, and the verdict blocks. -/
def Blocks (e : Surroundings) (layerId : UInt32) (inFixed : Option (List FwpValue))
    (metadata : Option FlowMetadata) (flowContext : UInt64) : Prop :=
  layerId ∈ aleLayers ∧ injectIsSelf flowContext = false ∧
    ∃ r, e.evaluate (aleTuple e layerId inFixed metadata) = some r ∧ r.1.action = verdictBlock

theorem hardBlockAllowed_of_mem (h : layerId ∈ aleLayers) : hardBlockAllowed layerId = true := by
  simp only [aleLayers, List.mem_cons, List.not_mem_nil, or_false] at h
  rcases h with rfl | rfl | rfl | rfl <;> rfl

theorem classifyAleCommon_contract (hl : layerId ∈ aleLayers)
    (h : classifyAleCommon layerId e inFixed metadata flowContext (some out) = some r) :
    ∃ out', r.out = some out' ∧
      RightsContract (Blocks e layerId inFixed metadata flowContext) out out' := by
  rw [classifyAleCommon_eq] at h
  cases hself : injectIsSelf flowContext with
  | true =>
    rw [hself, if_pos rfl] at h
    cases h
    refine ⟨_, rfl, rightsContract_permit ?_⟩
    rintro ⟨-, hf, -⟩
    exact absurd (hself.symm.trans hf) (by decide)
  | false =>
    rw [hself, if_neg Bool.false_ne_true] at h
    obtain ⟨res, heval, rfl⟩ := Option.map_eq_some_iff.mp h
    have hblocks : Blocks e layerId inFixed metadata flowContext ↔ res.1.action = verdictBlock := by
      constructor
      · rintro ⟨-, -, res', heval', hb⟩
        obtain rfl := Option.some_inj.mp (heval.symm.trans heval')
        exact hb
      · intro hb
        exact ⟨hl, hself, res, heval, hb⟩
    refine ⟨_, rfl, ?_⟩
    rw [hblocks]
    exact rightsContract_writeVerdict (hardBlockAllowed_of_mem hl)

theorem classifyFlowCommon_contract (hl : layerId ∉ aleLayers)
    (h : classifyFlowCommon layerId e inFixed metadata flowContext (some out) = some r) :
    ∃ out', r.out = some out' ∧
      RightsContract (Blocks e layerId inFixed metadata flowContext) out out' := by
  cases h
  exact ⟨_, rfl, rightsContract_permit fun hb => hl hb.1⟩

/-- Every callback is one of the two bodies. -/
theorem classifyFns_cases {p : UInt32 × ClassifyFn} (hp : p ∈ classifyFns) :
    p.1 ∈ aleLayers ∧ p.2 = classifyAleCommon p.1 ∨
      p.1 ∉ aleLayers ∧ p.2 = classifyFlowCommon p.1 := by
  simp only [classifyFns, List.mem_cons, List.not_mem_nil, or_false] at hp
  rcases hp with rfl | rfl | rfl | rfl | rfl | rfl
  all_goals first
    | exact .inl ⟨by decide, rfl⟩
    | exact .inr ⟨by decide, rfl⟩

/-! ### The calls -/

/-- A call without its answer, where that is ignored. -/
def ClassifyCall.unanswered : ClassifyCall → ClassifyCall
  | .post type record _ => .post type record true
  | call => call

/-- What the store, the buckets, the counters and the telemetry see of a callback. -/
def Classified.effects (r : Classified) : List ClassifyCall × RateTable × RuleStats :=
  (r.calls.map ClassifyCall.unanswered, r.rates, r.stats)

theorem verdictEvents_unanswered {b : Bool} :
    (verdictEvents { e with delivered := b } v tuple).map ClassifyCall.unanswered =
      (verdictEvents e v tuple).map ClassifyCall.unanswered := by
  unfold verdictEvents
  split
  · rfl
  · split <;> rfl

/-- Neither the classify output nor the answer of telemetry has an effect outside, and telemetry
has none on the output. -/
theorem classifyAleCommon_effects {out' : ClassifyOut} {b : Bool} :
    (classifyAleCommon layerId { e with delivered := b } inFixed metadata flowContext
        (some out')).map Classified.effects =
      (classifyAleCommon layerId e inFixed metadata flowContext (some out)).map
        Classified.effects ∧
    (classifyAleCommon layerId { e with delivered := b } inFixed metadata flowContext
        (some out)).map Classified.out =
      (classifyAleCommon layerId e inFixed metadata flowContext (some out)).map
        Classified.out := by
  rw [classifyAleCommon_eq, classifyAleCommon_eq, classifyAleCommon_eq]
  have htuple : aleTuple { e with delivered := b } layerId inFixed metadata =
      aleTuple e layerId inFixed metadata := rfl
  have heval : ({ e with delivered := b } : Surroundings).evaluate
      (aleTuple e layerId inFixed metadata) = e.evaluate (aleTuple e layerId inFixed metadata) :=
    rfl
  rw [htuple, heval]
  cases injectIsSelf flowContext with
  | true => exact ⟨rfl, rfl⟩
  | false =>
    rw [if_neg Bool.false_ne_true, if_neg Bool.false_ne_true, if_neg Bool.false_ne_true]
    cases e.evaluate (aleTuple e layerId inFixed metadata) with
    | none => exact ⟨rfl, rfl⟩
    | some res =>
      refine ⟨?_, rfl⟩
      simp only [Option.map_some, Classified.effects, Surroundings.evaluated, List.map_append,
        verdictEvents_unanswered]
      rfl

/-- The step of the shared store that a call is. -/
def ClassifyCall.action (now : UInt64) : ClassifyCall → List Concurrent.Action
  | .acquire _ => [.acquire]
  | .evaluate (some id) tuple _ => [.evaluate id tuple now]
  | .release (some id) => [.release id]
  | _ => []

/-- The references taken, and those given back. -/
def ClassifyCall.taken : ClassifyCall → Option SnapId
  | .acquire snap => snap
  | _ => none

def ClassifyCall.returned : ClassifyCall → Option SnapId
  | .release snap => snap
  | _ => none

theorem acquire_of_none (h : e.acquired = none) : e.store.acquire = e.store := by
  rcases e.store.acquire_cases with he | ⟨id, hcur, hclosed, hmay, -⟩
  · exact he
  · rw [Surroundings.acquired, hcur, Option.filter_some, hclosed, hmay] at h
    cases h

theorem acquire_of_some (h : e.acquired = some id) : e.store.current = some id ∧
    e.store.acquire = { e.store with
      readers := Function.update e.store.readers id (e.store.readers id + 1#32)
      held := id ::ₘ e.store.held } := by
  obtain ⟨hcur, hmay⟩ := Option.filter_eq_some_iff.mp h
  simp only [Bool.and_eq_true, Bool.not_eq_true'] at hmay
  refine ⟨hcur, ?_⟩
  simp [Concurrent.State.acquire, hcur, hmay.1, hmay.2]

/-- What a reader has taken and given back is as if it had not been there. -/
theorem release_acquire (h : e.acquired = some id) :
    ({ e.store.acquire with rates := rates } : Concurrent.State).release id =
      { e.store with rates := rates } := by
  have hc : e.store.readers id + 1#32 - 1#32 = e.store.readers id := BitVec.add_sub_cancel _ _
  rw [(acquire_of_some h).2, Concurrent.State.release]
  simp [hc]

theorem evaluate_eq_some (h : e.evaluate tuple = some (v, rates, stats)) :
    ruleVerdict (e.acquired.map e.store.snap) tuple (qpcMs e.clock) e.rates = some (v, rates) := by
  obtain ⟨res, hres, he⟩ := Option.map_eq_some_iff.mp h
  cases he
  exact hres

theorem action_verdictEvents (now : UInt64) :
    (verdictEvents e v tuple).flatMap (ClassifyCall.action now) = [] := by
  unfold verdictEvents
  split
  · rfl
  · split <;> rfl

theorem taken_verdictEvents : (verdictEvents e v tuple).filterMap ClassifyCall.taken = [] := by
  unfold verdictEvents
  split
  · rfl
  · split <;> rfl

theorem returned_verdictEvents :
    (verdictEvents e v tuple).filterMap ClassifyCall.returned = [] := by
  unfold verdictEvents
  split
  · rfl
  · split <;> rfl

/-- The calls of an evaluation are steps of the store, and nothing but the buckets stays
changed. -/
theorem evaluated_run {res : Verdict × RateTable × RuleStats} {o : Option ClassifyOut}
    (hr : e.rates = e.store.rates) (h : e.evaluate tuple = some res) :
    Concurrent.system.Run e.store
      ((e.evaluated tuple res o).calls.flatMap (ClassifyCall.action (qpcMs e.clock)))
      { e.store with rates := res.2.1 } := by
  have hv := evaluate_eq_some h
  rw [hr] at hv
  simp only [Surroundings.evaluated, List.flatMap_append, action_verdictEvents, List.append_nil]
  cases ha : e.acquired with
  | none =>
    rw [ha] at hv
    have hrates : e.store.rates = res.2.1 := (Prod.mk.inj (Option.some_inj.mp hv)).2
    rw [← hrates]
    refine System.Run.single ?_
    have hstep := @Concurrent.Step.acquire e.store
    rwa [acquire_of_none ha] at hstep
  | some id =>
    rw [ha] at hv
    have hsnap : e.store.acquire.snap = e.store.snap := by rw [(acquire_of_some ha).2]
    have hrates : e.store.acquire.rates = e.store.rates := by rw [(acquire_of_some ha).2]
    have hheld : id ∈ e.store.acquire.held := by
      rw [(acquire_of_some ha).2]
      exact Multiset.mem_cons_self id _
    have hverdict : ruleVerdict (some (e.store.acquire.snap id)) tuple (qpcMs e.clock)
        e.store.acquire.rates = some (res.1, res.2.1) := by
      rw [hsnap, hrates]
      exact hv
    have hevaluate : Concurrent.Step e.store.acquire (.evaluate id tuple (qpcMs e.clock))
        { e.store.acquire with rates := res.2.1 } := .evaluate hheld hverdict
    have hrelease : Concurrent.Step { e.store.acquire with rates := res.2.1 } (.release id)
        { e.store with rates := res.2.1 } := by
      rw [← release_acquire ha]
      exact .release hheld
    exact .head .acquire (.head hevaluate (.single hrelease))

/-- A callback gives back the reference it has taken, and does so in this order. -/
structure GivesBack (e : Surroundings) (r : Classified) : Prop where
  once : r.calls.filterMap ClassifyCall.taken = e.acquired.toList ∨
    r.calls.filterMap ClassifyCall.taken = []
  paired : r.calls.filterMap ClassifyCall.returned = r.calls.filterMap ClassifyCall.taken
  run : e.rates = e.store.rates →
    Concurrent.system.Run e.store (r.calls.flatMap (ClassifyCall.action (qpcMs e.clock)))
      { e.store with rates := r.rates }

theorem givesBack_passed {o : Option ClassifyOut} {calls : List ClassifyCall}
    (htaken : calls.filterMap ClassifyCall.taken = [])
    (hreturned : calls.filterMap ClassifyCall.returned = [])
    (haction : ∀ now, calls.flatMap (ClassifyCall.action now) = []) :
    GivesBack e (e.passed o calls) where
  once := .inr htaken
  paired := hreturned.trans htaken.symm
  run hr := by
    show Concurrent.system.Run e.store (calls.flatMap _) { e.store with rates := e.rates }
    rw [haction, hr]
    exact .refl

theorem givesBack_evaluated {res : Verdict × RateTable × RuleStats} {o : Option ClassifyOut}
    (h : e.evaluate tuple = some res) : GivesBack e (e.evaluated tuple res o) := by
  have htaken : (e.evaluated tuple res o).calls.filterMap ClassifyCall.taken =
      e.acquired.toList := by
    simp only [Surroundings.evaluated, List.filterMap_append, taken_verdictEvents]
    cases e.acquired <;> rfl
  have hreturned : (e.evaluated tuple res o).calls.filterMap ClassifyCall.returned =
      e.acquired.toList := by
    simp only [Surroundings.evaluated, List.filterMap_append, returned_verdictEvents]
    cases e.acquired <;> rfl
  exact ⟨.inl htaken, hreturned.trans htaken.symm, fun hr => evaluated_run hr h⟩

theorem classifyAleCommon_givesBack {o : Option ClassifyOut}
    (h : classifyAleCommon layerId e inFixed metadata flowContext o = some r) :
    GivesBack e r := by
  cases o with
  | none =>
    cases h
    exact givesBack_passed rfl rfl fun _ => rfl
  | some out =>
    rw [classifyAleCommon_eq] at h
    split at h
    · cases h
      exact givesBack_passed rfl rfl fun _ => rfl
    · obtain ⟨res, heval, rfl⟩ := Option.map_eq_some_iff.mp h
      exact givesBack_evaluated heval

theorem classifyFlowCommon_givesBack {o : Option ClassifyOut}
    (h : classifyFlowCommon layerId e inFixed metadata flowContext o = some r) :
    GivesBack e r := by
  cases o with
  | none =>
    cases h
    exact givesBack_passed rfl rfl fun _ => rfl
  | some out =>
    cases h
    -- The flow table is no store: its calls are none of the store's steps.
    have hcalls : ∀ call ∈ flowCalls e layerId metadata flowContext,
        call.taken = none ∧ call.returned = none ∧ ∀ now, call.action now = [] := by
      intro call hmem
      unfold flowCalls at hmem
      split at hmem
      · simp at hmem
      · split at hmem
        · simp at hmem
        · rcases List.mem_cons.mp hmem with rfl | hmem
          · exact ⟨rfl, rfl, fun _ => rfl⟩
          · split at hmem
            · obtain rfl := List.mem_singleton.mp hmem
              exact ⟨rfl, rfl, fun _ => rfl⟩
            · simp at hmem
    refine givesBack_passed ?_ ?_ fun now => ?_
    · exact List.filterMap_eq_nil_iff.mpr fun call hmem => (hcalls call hmem).1
    · exact List.filterMap_eq_nil_iff.mpr fun call hmem => (hcalls call hmem).2.1
    · exact List.flatMap_eq_nil_iff.mpr fun call hmem => (hcalls call hmem).2.2 now

/-- In a reachable store no evaluation faults. -/
theorem evaluate_isSome (h : Concurrent.system.Reachable e.store) :
    (e.evaluate tuple).isSome = true := by
  rw [Surroundings.evaluate]
  cases ha : e.acquired with
  | none => rfl
  | some id =>
    obtain ⟨hi, hc⟩ := Concurrent.contents_reachable h
    have hw := hc.wellFormed id (hi.current_lt (acquire_of_some ha).1)
    exact ruleEvaluate_isSome fun rule hm => (hw.valid rule hm).rateIntervalMs_ne

theorem classifyAleCommon_isSome {o : Option ClassifyOut}
    (h : Concurrent.system.Reachable e.store) :
    (classifyAleCommon layerId e inFixed metadata flowContext o).isSome = true := by
  cases o with
  | none => rfl
  | some out =>
    rw [classifyAleCommon_eq]
    split
    · rfl
    · rw [Option.isSome_map]
      exact evaluate_isSome h

/-- Every callback keeps the verdict-rights contract and gives back what it has acquired; at the
ALE layers what it evaluates, counts and reports depends neither on the classify output nor on
the delivery of an event, nor the output on the latter; and in every reachable store it returns. -/
theorem classify_contract :
    (∀ p ∈ classifyFns, ∀ e inFixed metadata flowContext out r,
      p.2 e inFixed metadata flowContext (some out) = some r → ∃ out', r.out = some out' ∧
        RightsContract (Blocks e p.1 inFixed metadata flowContext) out out') ∧
    (∀ p ∈ classifyFns, p.1 ∈ aleLayers →
      ∀ e inFixed metadata flowContext out out' delivered,
        let left := p.2 { e with delivered := delivered } inFixed metadata flowContext
        let right := p.2 e inFixed metadata flowContext
        (left (some out')).map Classified.effects = (right (some out)).map Classified.effects ∧
          (left (some out)).map Classified.out = (right (some out)).map Classified.out) ∧
    ∀ p ∈ classifyFns, ∀ e inFixed metadata flowContext out,
      (∀ r, p.2 e inFixed metadata flowContext out = some r → GivesBack e r) ∧
      (Concurrent.system.Reachable e.store →
        (p.2 e inFixed metadata flowContext out).isSome = true) := by
  refine ⟨?_, ?_, ?_⟩
  · intro p hp e inFixed metadata flowContext out r h
    rcases classifyFns_cases hp with ⟨hl, heq⟩ | ⟨hl, heq⟩
    · rw [heq] at h
      exact classifyAleCommon_contract hl h
    · rw [heq] at h
      exact classifyFlowCommon_contract hl h
  · intro p hp hale e inFixed metadata flowContext out out' delivered
    rcases classifyFns_cases hp with ⟨-, heq⟩ | ⟨hl, -⟩
    · rw [heq]
      exact classifyAleCommon_effects
    · exact absurd hale hl
  · intro p hp e inFixed metadata flowContext out
    rcases classifyFns_cases hp with ⟨-, heq⟩ | ⟨-, heq⟩
    · rw [heq]
      exact ⟨fun r h => classifyAleCommon_givesBack h, classifyAleCommon_isSome⟩
    · rw [heq]
      refine ⟨fun r h => classifyFlowCommon_givesBack h, fun _ => ?_⟩
      cases out <;> rfl

end Sentinel
