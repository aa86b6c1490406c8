import Sentinel.General.System
import Sentinel.General.Visit
import Sentinel.Runtime.State
import Sentinel.Wfp.Objects

/-! Install, rollback and teardown of `wfp/wfp_manager.c`. -/
namespace Sentinel

open Transition Visit

/-- What the removal calls of one Install or Teardown return. -/
structure Removals where
  unregister : Layer → ℕ → NtStatus
  filterDelete : Layer → NtStatus
  calloutDelete : Layer → NtStatus
  subLayerDelete : NtStatus
  providerDelete : NtStatus
  engineClose : NtStatus

/-- A non-NULL engine handle. -/
abbrev Handle := ℕ

/-- What the WFP functions of one Install return. WFP gives no filter the id 0. -/
structure InstallReplies extends Removals where
  engineOpen : NtStatus
  handle : Handle
  transactionBegin : NtStatus
  providerAdd : NtStatus
  subLayerAdd : NtStatus
  calloutRegister : Layer → NtStatus
  calloutRuntimeId : Layer → UInt32
  calloutAdd : Layer → NtStatus
  calloutId : Layer → UInt32
  filterAdd : Layer → NtStatus
  filterId : Layer → UInt64
  filterId_ne : ∀ i, filterId i ≠ 0
  transactionCommit : NtStatus

/-- `callouts[i]` and `filters[i]`. The ghost lists the runtime ids whose registration by
this layer has succeeded and whose unregistration has not been confirmed since. -/
structure WfpSlot where
  callout : WfpObject
  filter : WfpObject
  registered : List UInt32
  deriving DecidableEq

/-- `g_WfpManager` and the runtime that records block reasons. The ghost says whether an
engine handle has been closed while some tracked object was LEAKED. -/
structure WfpManager where
  engine : Option Handle
  engineObj : WfpObject
  provider : WfpObject
  sublayer : WfpObject
  slots : Layer → WfpSlot
  installed : Bool
  runtime : Runtime
  closedOverLeaked : Bool

/-- `SK_WFP_BUSY_RETRIES`. -/
def wfpBusyRetries : ℕ := 8

namespace WfpSlot

def reset (i : Layer) (s : WfpSlot) : WfpSlot where
  callout := { WfpObject.reset (calloutDefs i).name with key := (calloutDefs i).calloutKey }
  filter := WfpObject.reset (calloutDefs i).name
  registered := s.registered

/-- One round of the layer loop of `SkWfpManagerInstall`. -/
def install (r : InstallReplies) (i : Layer) (s : WfpSlot) : WfpSlot × Option NtStatus :=
  let co := s.callout.registerCallout (r.calloutRegister i) (r.calloutRuntimeId i)
  if ntSuccess (r.calloutRegister i) then
    let registered := r.calloutRuntimeId i :: s.registered
    let co := co.addCallout (r.calloutAdd i) (r.calloutId i)
    if ntSuccess co.2 then
      let fi := s.filter.addFilter i (r.filterAdd i) (r.filterId i)
      if ntSuccess fi.2 then (⟨{ co.1 with state := .active }, fi.1, registered⟩, none)
      else (⟨co.1, fi.1, registered⟩, some fi.2)
    else (⟨co.1, s.filter, registered⟩, some co.2)
  else ({ s with callout := co }, some (r.calloutRegister i))

/-- `SkWfpObjectUnregister` on the callout of the layer. -/
def unregister (reply : ℕ → NtStatus) (s : WfpSlot) : WfpSlot :=
  let co := s.callout.unregister reply wfpBusyRetries
  { s with
    callout := co.1
    registered := if co.2 = statusSuccess ∨ co.2 = fwpECalloutNotFound
      then s.registered.filter (· ≠ s.callout.calloutRuntimeId) else s.registered }

/-- The filter's half of a round of `skWfpRollbackLocked`, and whether it leaves `clean`. -/
def rollbackFilter (r : Removals) (i : Layer) (s : WfpSlot) : WfpSlot × Bool :=
  if s.filter.isInstalled then
    let fi := (s.filter.delete (r.filterDelete i) (r.calloutDelete i)).1
    ({ s with filter := fi }, fi.state != .leaked)
  else (s, true)

/-- The callout's half: the kernel-side registration is outside the engine transaction. -/
def rollbackCallout (r : Removals) (i : Layer) (s : WfpSlot) : WfpSlot × Bool :=
  if s.callout.isInstalled then
    let s := s.unregister (r.unregister i)
    if s.callout.state = .leaked then (s, false)
    else if s.callout.calloutId ≠ 0 then
      let co := (s.callout.delete (r.filterDelete i) (r.calloutDelete i)).1
      ({ s with callout := co }, co.state != .leaked)
    else (s, true)
  else (s, true)

/-- One round of the layer loop of `skWfpRollbackLocked`. -/
def rollback (r : Removals) (i : Layer) (s : WfpSlot) : WfpSlot × Bool :=
  let fi := s.rollbackFilter r i
  let co := fi.1.rollbackCallout r i
  (co.1, fi.2 && co.2)

/-- One round of the first layer loop of `SkWfpManagerTeardown`, and the block reasons it
records. -/
def teardownUnregister (r : Removals) (i : Layer) (s : WfpSlot) :
    WfpSlot × List BlockReason :=
  if s.callout.isInstalled then
    let s := s.unregister (r.unregister i)
    (s, if s.callout.state = .leaked then [.sensorCalloutBusy] else [])
  else (s, [])

/-- The filter's half of a round of the second layer loop. -/
def teardownFilter (r : Removals) (i : Layer) (s : WfpSlot) : WfpSlot × List BlockReason :=
  if s.filter.filterId ≠ 0 then
    let fi := (s.filter.delete (r.filterDelete i) (r.calloutDelete i)).1
    ({ s with filter := fi }, if fi.state = .leaked then [.engineClose] else [])
  else (s, [])

/-- The callout's half. -/
def teardownCallout (r : Removals) (i : Layer) (s : WfpSlot) : WfpSlot × List BlockReason :=
  if s.callout.calloutId ≠ 0 ∧ s.callout.state ≠ .leaked then
    let co := (s.callout.delete (r.filterDelete i) (r.calloutDelete i)).1
    ({ s with callout := co }, if co.state = .leaked then [.engineClose] else [])
  else (s, [])

def teardownDelete (r : Removals) (i : Layer) (s : WfpSlot) : WfpSlot × List BlockReason :=
  let fi := s.teardownFilter r i
  let co := fi.1.teardownCallout r i
  (co.1, fi.2 ++ co.2)

end WfpSlot

/-- `skWfpDeleteByKey`, and whether the removal is confirmed. -/
def WfpObject.deleteByKey (o : WfpObject) (st notFound : NtStatus) : WfpObject × Bool :=
  if o.isInstalled then
    if st = statusSuccess ∨ st = notFound then
      ({ o with lastStatus := st, state := .deleted }, true)
    else ({ o with lastStatus := st, state := .leaked }, false)
  else (o, true)

namespace WfpManager

/-- The statics before the first Install. -/
def initial : WfpManager where
  engine := none
  engineObj := .reset ""
  provider := .reset ""
  sublayer := .reset ""
  slots _ := ⟨.reset "", .reset "", []⟩
  installed := false
  runtime := .initial
  closedOverLeaked := false

/-- The LEAKED guard of `SkWfpManagerInstall`. -/
def hasLeaked (m : WfpManager) : Bool :=
  m.engineObj.state == .leaked || m.provider.state == .leaked || m.sublayer.state == .leaked ||
    layers.any fun i =>
      (m.slots i).callout.state == .leaked || (m.slots i).filter.state == .leaked

def reset (m : WfpManager) : WfpManager :=
  { m with
    engine := none
    engineObj := .reset "wfpEngine"
    provider := .reset "wfpProvider"
    sublayer := .reset "wfpSublayer"
    slots := fun i => (m.slots i).reset i }

/-- `EngineClose` and its bookkeeping. -/
def closeEngine (m : WfpManager) (st : NtStatus) : WfpManager :=
  if st = statusSuccess then
    { m with
      engineObj := { m.engineObj with lastStatus := st, state := .deleted }
      engine := none
      closedOverLeaked := m.closedOverLeaked || m.hasLeaked }
  else { m with engineObj := { m.engineObj with lastStatus := st, state := .leaked } }

/-- `skWfpRollbackLocked` up to the close of the engine. -/
def rollbackSteps (m : WfpManager) (r : Removals) : WfpManager × Bool :=
  let slots := visit (WfpSlot.rollback r) layers.reverse m.slots
  let sublayer := m.sublayer.deleteByKey r.subLayerDelete fwpESublayerNotFound
  let provider := m.provider.deleteByKey r.providerDelete fwpEProviderNotFound
  ({ m with slots := slots.1, sublayer := sublayer.1, provider := provider.1 },
    slots.2.all id && sublayer.2 && provider.2)

/-- `skWfpRollbackLocked`, and whether all removals were confirmed. -/
def rollbackLocked (m : WfpManager) (r : Removals) : WfpManager × Bool :=
  let steps := m.rollbackSteps r
  if steps.1.engine.isSome then
    (steps.1.closeEngine r.engineClose, steps.2 && decide (r.engineClose = statusSuccess))
  else steps

def addProvider (m : WfpManager) (st : NtStatus) : WfpManager :=
  { m with provider := { m.provider with
      phase := .providerAdd, key := providerKey, lastStatus := st
      state := if ntSuccess st then .registered else .failed } }

def addSubLayer (m : WfpManager) (st : NtStatus) : WfpManager :=
  { m with sublayer := { m.sublayer with
      phase := .subLayerAdd, key := subLayerKey, lastStatus := st
      state := if ntSuccess st then .registered else .failed } }

/-- From the transaction's begin to its commit; the status of the first call that fails. -/
def installSteps (m : WfpManager) (r : InstallReplies) : WfpManager × Option NtStatus :=
  if ntSuccess r.transactionBegin then
    let m := m.addProvider r.providerAdd
    if ntSuccess r.providerAdd then
      let m := m.addSubLayer r.subLayerAdd
      if ntSuccess r.subLayerAdd then
        let slots := visitUntil (WfpSlot.install r) layers m.slots
        let m := { m with slots := slots.1 }
        match slots.2 with
        | some st => (m, some st)
        | none =>
          if ntSuccess r.transactionCommit then (m, none) else (m, some r.transactionCommit)
      else (m, some r.subLayerAdd)
    else (m, some r.providerAdd)
  else (m, some r.transactionBegin)

/-- `FwpmEngineOpen0` and its bookkeeping. -/
def openEngine (m : WfpManager) (r : InstallReplies) : WfpManager :=
  { m with
    engine := if ntSuccess r.engineOpen then some r.handle else none
    engineObj := { m.engineObj with
      phase := .engineOpen, lastStatus := r.engineOpen
      state := if ntSuccess r.engineOpen then .registered else .failed } }

/-- The `rollback` label of `SkWfpManagerInstall`. -/
def rollbackInstall (m : WfpManager) (r : Removals) : WfpManager :=
  let rolled := m.rollbackLocked r
  if rolled.2 then rolled.1
  else { rolled.1 with runtime := rolled.1.runtime.recordBlock .engineClose }

/-- `SkWfpManagerInstall`. -/
def install (m : WfpManager) (r : InstallReplies) : WfpManager × NtStatus :=
  if m.installed then (m, statusSuccess)
  else if m.hasLeaked then (m, statusDeviceBusy)
  else
    let m := m.reset.openEngine r
    if ntSuccess r.engineOpen then
      let steps := m.installSteps r
      match steps.2 with
      | none => ({ steps.1 with installed := true }, statusSuccess)
      | some st => (steps.1.rollbackInstall r.toRemovals, st)
    else (m, r.engineOpen)

/-- Steps 1 to 3 of `SkWfpManagerTeardown` and the block reasons they record. -/
def teardownSteps (m : WfpManager) (r : Removals) : WfpManager × List BlockReason :=
  let unregistered := visit (WfpSlot.teardownUnregister r) layers m.slots
  let deleted := visit (WfpSlot.teardownDelete r) layers unregistered.1
  let sublayer := m.sublayer.deleteByKey r.subLayerDelete fwpESublayerNotFound
  let provider := m.provider.deleteByKey r.providerDelete fwpEProviderNotFound
  let reasons := unregistered.2.flatten ++ deleted.2.flatten ++
    (if sublayer.2 then [] else [.engineClose]) ++ (if provider.2 then [] else [.engineClose])
  ({ m with
    slots := deleted.1
    sublayer := sublayer.1
    provider := provider.1
    runtime := reasons.foldl Runtime.recordBlock m.runtime }, reasons)

/-- `SkWfpManagerTeardown`. Each `ok = FALSE` of the source stands with a
`ShRuntimeRecordBlock`, so `ok` is that no reason has been recorded. -/
def teardown (m : WfpManager) (r : Removals) : WfpManager × Bool :=
  if !m.installed && m.engine.isNone then (m, true)
  else
    let steps := m.teardownSteps r
    if steps.2 = [] then
      if m.engine.isSome then
        let closed := steps.1.closeEngine r.engineClose
        if r.engineClose = statusSuccess then ({ closed with installed := false }, true)
        else ({ closed with runtime := closed.runtime.recordBlock .engineClose }, false)
      else ({ steps.1 with installed := false }, true)
    else (steps.1, false)

/-! ### What the operations do -/

section Spec

variable {m : WfpManager} {q : Removals} {st : NtStatus}

theorem layers_nodup : layers.Nodup := List.nodup_finRange 6

theorem mem_layers (i : Layer) : i ∈ layers := List.mem_finRange i

/-- A loop over all layers does each from its own start value. -/
theorem visit_layers {ω : Type} (op : Layer → WfpSlot → WfpSlot × ω) (f : Layer → WfpSlot) :
    visit op layers f = (fun i => (op i (f i)).1, layers.map fun i => (op i (f i)).2) := by
  rw [visit_eq layers_nodup]
  simp [mem_layers]

theorem visit_layers_reverse {ω : Type} (op : Layer → WfpSlot → WfpSlot × ω)
    (f : Layer → WfpSlot) : visit op layers.reverse f =
      (fun i => (op i (f i)).1, layers.reverse.map fun i => (op i (f i)).2) := by
  rw [visit_eq (List.nodup_reverse.mpr layers_nodup)]
  simp [mem_layers]

theorem hasLeaked_eq_false : m.hasLeaked = false ↔ m.engineObj.state ≠ .leaked ∧
    m.provider.state ≠ .leaked ∧ m.sublayer.state ≠ .leaked ∧
      ∀ i, (m.slots i).callout.state ≠ .leaked ∧ (m.slots i).filter.state ≠ .leaked := by
  simp [hasLeaked, mem_layers, and_assoc]

theorem rollbackSteps_eq : m.rollbackSteps q =
    ({ m with
      slots := fun i => ((m.slots i).rollback q i).1
      sublayer := (m.sublayer.deleteByKey q.subLayerDelete fwpESublayerNotFound).1
      provider := (m.provider.deleteByKey q.providerDelete fwpEProviderNotFound).1 },
    (layers.reverse.all fun i => ((m.slots i).rollback q i).2) &&
      (m.sublayer.deleteByKey q.subLayerDelete fwpESublayerNotFound).2 &&
      (m.provider.deleteByKey q.providerDelete fwpEProviderNotFound).2) := by
  simp [rollbackSteps, visit_layers_reverse, List.all_map]

theorem teardownSteps_eq : (m.teardownSteps q).1 =
    { m with
      slots := fun i => (((m.slots i).teardownUnregister q i).1.teardownDelete q i).1
      sublayer := (m.sublayer.deleteByKey q.subLayerDelete fwpESublayerNotFound).1
      provider := (m.provider.deleteByKey q.providerDelete fwpEProviderNotFound).1
      runtime := (m.teardownSteps q).2.foldl Runtime.recordBlock m.runtime } := by
  simp [teardownSteps, visit_layers]

@[simp] theorem closeEngine_slots : (m.closeEngine st).slots = m.slots := by
  unfold closeEngine
  split <;> rfl

@[simp] theorem closeEngine_installed : (m.closeEngine st).installed = m.installed := by
  unfold closeEngine
  split <;> rfl

theorem installSteps_engine {r : InstallReplies} : (m.installSteps r).1.engine = m.engine := by
  simp only [installSteps]
  repeat' split
  all_goals rfl

theorem openEngine_installSteps_engine {r : InstallReplies}
    (h : ntSuccess r.engineOpen = true) :
    ((m.openEngine r).installSteps r).1.engine = some r.handle := by
  simp [installSteps_engine, openEngine, h]

theorem rollbackInstall_eq (h : m.engine.isSome = true) : ∃ rt, m.rollbackInstall q =
    { (m.rollbackSteps q).1.closeEngine q.engineClose with runtime := rt } := by
  have he : (m.rollbackLocked q).1 = (m.rollbackSteps q).1.closeEngine q.engineClose := by
    have hs : (m.rollbackSteps q).1.engine.isSome = true := by rwa [rollbackSteps_eq]
    rw [rollbackLocked, if_pos hs]
  by_cases hc : (m.rollbackLocked q).2 = true
  · exact ⟨_, by rw [rollbackInstall, if_pos hc, he]⟩
  · exact ⟨_, by rw [rollbackInstall, if_neg hc, he]⟩

@[simp] theorem closeEngine_runtime : (m.closeEngine st).runtime = m.runtime := by
  unfold closeEngine
  split <;> rfl

theorem installSteps_runtime {r : InstallReplies} :
    (m.installSteps r).1.runtime = m.runtime := by
  simp only [installSteps]
  repeat' split
  all_goals rfl

theorem rollbackLocked_runtime : (m.rollbackLocked q).1.runtime = m.runtime := by
  rw [rollbackLocked, rollbackSteps_eq]
  simp only
  split <;> simp

/-- A rollback that cannot confirm every removal records a block reason. -/
theorem rollbackInstall_runtime : (m.rollbackInstall q).runtime =
    if (m.rollbackLocked q).2 then m.runtime else m.runtime.recordBlock .engineClose := by
  have hr : (m.rollbackLocked q).1.runtime = m.runtime := rollbackLocked_runtime
  cases h : (m.rollbackLocked q).2 <;> simp [rollbackInstall, h, hr]

/-- The ways through `SkWfpManagerTeardown`. -/
theorem teardown_cases (m : WfpManager) (q : Removals) :
    (m.installed = false ∧ m.engine = none ∧ m.teardown q = (m, true)) ∨
    (¬ (m.installed = false ∧ m.engine = none) ∧ (m.teardownSteps q).2 ≠ [] ∧
      m.teardown q = ((m.teardownSteps q).1, false)) ∨
    ((m.teardownSteps q).2 = [] ∧ m.engine.isSome = true ∧ q.engineClose = statusSuccess ∧
      m.teardown q =
        ({ (m.teardownSteps q).1.closeEngine q.engineClose with installed := false }, true)) ∨
    ((m.teardownSteps q).2 = [] ∧ m.engine.isSome = true ∧ q.engineClose ≠ statusSuccess ∧
      ∃ rt, m.teardown q =
        ({ (m.teardownSteps q).1.closeEngine q.engineClose with runtime := rt }, false)) ∨
    ((m.teardownSteps q).2 = [] ∧ m.engine = none ∧ m.installed = true ∧
      m.teardown q = ({ (m.teardownSteps q).1 with installed := false }, true)) := by
  have he : (m.teardownSteps q).1.engine = m.engine := by rw [teardownSteps_eq]
  by_cases h₀ : m.installed = false ∧ m.engine = none
  · exact .inl ⟨h₀.1, h₀.2, by rw [teardown, if_pos (by simp [h₀])]⟩
  have h₁ : ¬ (!m.installed && m.engine.isNone) = true := by
    simpa [Option.isNone_iff_eq_none] using h₀
  right
  rw [teardown, if_neg h₁]
  by_cases hr : (m.teardownSteps q).2 = []
  · right
    by_cases hs : m.engine.isSome = true
    · by_cases hc : q.engineClose = statusSuccess
      · exact .inl ⟨hr, hs, hc, by simp only [he, if_pos hr, if_pos hs, if_pos hc]⟩
      · refine .inr (.inl ⟨hr, hs, hc,
          ((m.teardownSteps q).1.closeEngine q.engineClose).runtime.recordBlock .engineClose, ?_⟩)
        simp only [he, if_pos hr, if_pos hs, if_neg hc]
    · have hn : m.engine = none := by simpa using hs
      have hi : m.installed = true := by simpa [hn] using h₀
      exact .inr (.inr ⟨hr, hn, hi, by simp only [he, if_pos hr, if_neg hs]⟩)
  · exact .inl ⟨h₀, hr, by simp only [if_neg hr]⟩

/-- The ways through `SkWfpManagerInstall`. -/
theorem install_cases (m : WfpManager) (r : InstallReplies) :
    (m.installed = true ∧ m.install r = (m, statusSuccess)) ∨
    (m.installed = false ∧ m.hasLeaked = true ∧ m.install r = (m, statusDeviceBusy)) ∨
    (m.installed = false ∧ m.hasLeaked = false ∧
      ((ntSuccess r.engineOpen = false ∧
        m.install r = (m.reset.openEngine r, r.engineOpen)) ∨
      (ntSuccess r.engineOpen = true ∧ ((m.reset.openEngine r).installSteps r).2 = none ∧
        m.install r = ({ ((m.reset.openEngine r).installSteps r).1 with installed := true },
          statusSuccess)) ∨
      ∃ st, ntSuccess r.engineOpen = true ∧
        ((m.reset.openEngine r).installSteps r).2 = some st ∧
        m.install r =
          (((m.reset.openEngine r).installSteps r).1.rollbackInstall r.toRemovals, st))) := by
  cases hi : m.installed with
  | true => exact .inl ⟨rfl, by rw [install, if_pos hi]⟩
  | false =>
    right
    cases hl : m.hasLeaked with
    | true => exact .inl ⟨rfl, rfl, by rw [install, if_neg (by simp [hi]), if_pos hl]⟩
    | false =>
      refine .inr ⟨rfl, rfl, ?_⟩
      rw [install, if_neg (by simp [hi]), if_neg (by simp [hl])]
      cases ho : ntSuccess r.engineOpen with
      | false => exact .inl ⟨rfl, by simp⟩
      | true =>
        right
        cases hs : ((m.reset.openEngine r).installSteps r).2 with
        | none => exact .inl ⟨rfl, rfl, by simp [hs]⟩
        | some st => exact .inr ⟨st, rfl, rfl, by simp [hs]⟩

theorem slotInstall_failure {r : InstallReplies} {i : Layer} {s : WfpSlot}
    (h : (s.install r i).2 = some st) : ntSuccess st = false := by
  revert h
  simp only [WfpSlot.install]
  repeat' split
  all_goals rintro ⟨⟩ <;> simp_all

theorem installSteps_failure {r : InstallReplies} (h : (m.installSteps r).2 = some st) :
    ntSuccess st = false := by
  revert h
  simp only [installSteps]
  repeat' split
  case h_1 he =>
    obtain ⟨_, k, _, _, hk, _⟩ := visitUntil_some layers_nodup he
    rintro ⟨⟩
    exact slotInstall_failure hk
  all_goals
    intro h
    simp_all

theorem install_runtime {r : InstallReplies} : (m.install r).1.runtime = m.runtime ∨
    (m.install r).1.runtime = m.runtime.recordBlock .engineClose := by
  have hs : ((m.reset.openEngine r).installSteps r).1.runtime = m.runtime :=
    installSteps_runtime
  rcases m.install_cases r with
    ⟨-, he⟩ | ⟨-, -, he⟩ | ⟨-, -, ⟨-, he⟩ | ⟨-, -, he⟩ | ⟨_, -, -, he⟩⟩
  · exact .inl (by rw [he])
  · exact .inl (by rw [he])
  · exact .inl (by rw [he]; rfl)
  · exact .inl (by rw [he]; exact hs)
  · rw [he, rollbackInstall_runtime, hs]
    split
    · exact .inl rfl
    · exact .inr rfl

/-- An Install that records a block reason fails. -/
theorem install_runtime_of_success {r : InstallReplies} (h : ntSuccess (m.install r).2 = true) :
    (m.install r).1.runtime = m.runtime := by
  rcases m.install_cases r with
    ⟨-, he⟩ | ⟨-, -, he⟩ | ⟨-, -, ⟨-, he⟩ | ⟨-, -, he⟩ | ⟨st, -, hs, he⟩⟩
  · rw [he]
  · rw [he]
  · rw [he]
    rfl
  · rw [he]
    exact installSteps_runtime
  · have hf := installSteps_failure hs
    rw [he] at h
    simp [hf] at h

theorem installSteps_installed {r : InstallReplies} :
    (m.installSteps r).1.installed = m.installed := by
  simp only [installSteps]
  repeat' split
  all_goals rfl

/-- An Install that leaves `installed` set succeeds. -/
theorem install_installed_success {r : InstallReplies} (h : (m.install r).1.installed = true) :
    ntSuccess (m.install r).2 = true := by
  rcases m.install_cases r with
    ⟨-, he⟩ | ⟨hi, -, he⟩ | ⟨hi, -, ⟨-, he⟩ | ⟨-, -, he⟩ | ⟨st, ho, -, he⟩⟩
  · rw [he]
    rfl
  · simp [he, hi] at h
  · rw [he] at h
    exact absurd (show m.installed = true from h) (by simp [hi])
  · rw [he]
    rfl
  · have hs := openEngine_installSteps_engine (m := m.reset) ho
    obtain ⟨rt, hb⟩ := rollbackInstall_eq (q := r.toRemovals)
      (m := ((m.reset.openEngine r).installSteps r).1) (by simp [hs])
    have hr : ((m.reset.openEngine r).installSteps r).1.installed = false :=
      installSteps_installed.trans hi
    rw [he, hb, rollbackSteps_eq] at h
    simp [hr] at h

/-- A Teardown does not set `installed`. -/
theorem teardown_installed (h : (m.teardown q).1.installed = true) : m.installed = true := by
  rcases m.teardown_cases q with ⟨-, -, he⟩ | ⟨-, -, he⟩ | ⟨-, -, -, he⟩ | ⟨-, -, -, _, he⟩ |
    ⟨-, -, -, he⟩ <;> rw [he] at h
  · exact h
  · rwa [teardownSteps_eq] at h
  · simp at h
  · rw [teardownSteps_eq] at h
    simpa using h
  · simp at h

theorem teardown_records (m : WfpManager) (q : Removals) :
    ∃ why : List BlockReason,
      (m.teardown q).1.runtime = why.foldl Runtime.recordBlock m.runtime := by
  simp only [teardown]
  repeat' split
  · exact ⟨[], rfl⟩
  · exact ⟨[], by simp_all [teardownSteps_eq]⟩
  · exact ⟨[.engineClose], by simp_all [teardownSteps_eq]⟩
  · exact ⟨[], by simp_all [teardownSteps_eq]⟩
  · exact ⟨(m.teardownSteps q).2, by rw [teardownSteps_eq]⟩

end Spec

inductive Action where
  | install (r : InstallReplies)
  | teardown (r : Removals)

inductive Step : WfpManager → Action → WfpManager → Prop where
  | install {m : WfpManager} {r : InstallReplies} : Step m (.install r) (m.install r).1
  | teardown {m : WfpManager} {r : Removals} : Step m (.teardown r) (m.teardown r).1

/-- The runs of Install and Teardown calls, which `installMutex` keeps apart. -/
def system : System WfpManager Action where
  init m := m = initial
  step := Step

end WfpManager

end Sentinel
