import Sentinel.Wfp.Tracking

/-! What a Teardown may answer once an object is LEAKED. -/
namespace Sentinel

open Transition Visit

variable {o o' : WfpObject} {s s' : WfpSlot} {m n : WfpManager} {r : InstallReplies}
  {q : Removals} {i j k : Layer} {st st' notFound : NtStatus} {reply : ℕ → NtStatus}
  {a : WfpManager.Action} {as : List WfpManager.Action}

/-! ### One object -/

namespace WfpObject

/-- Confirmed removed, or never installed. -/
def Settled (o : WfpObject) : Prop :=
  o.state = .uninitialized ∨ o.state = .deleted ∨ o.state = .failed

/-- Not in the middle of an operation, as between the calls. -/
def AtRest (o : WfpObject) : Prop := o.state ≠ .prepared ∧ o.state ≠ .quiescing

instance (o : WfpObject) : Decidable o.Settled := inferInstanceAs (Decidable (_ ∨ _))

theorem settled_iff :
    o.Settled ↔ o.AtRest ∧ o.isInstalled = false ∧ o.state ≠ .leaked := by
  cases h : o.state <;> simp [Settled, AtRest, isInstalled, h]

theorem not_leaked_of_isInstalled (h : o.isInstalled = true) : o.state ≠ .leaked := by
  intro hl
  simp [isInstalled, hl] at h

/-- The object after its removals: gone if they are confirmed and LEAKED if not, untouched
if it was not installed. -/
def RemovedTo (o o' : WfpObject) (confirmed : Prop) : Prop :=
  (o.isInstalled = true → confirmed → o'.state = .deleted) ∧
    (o.isInstalled = true → ¬ confirmed → o'.state = .leaked) ∧
    (o.isInstalled = false → o'.state = o.state)

namespace RemovedTo

variable {confirmed : Prop}

theorem leaked (h : o.RemovedTo o' confirmed) (hl : o.state = .leaked) : o'.state = .leaked := by
  rw [h.2.2 (by simp [isInstalled, hl]), hl]

theorem atRest (h : o.RemovedTo o' confirmed) (ho : o.AtRest) :
    o'.AtRest ∧ o'.isInstalled = false := by
  by_cases hi : o.isInstalled = true
  · by_cases hc : confirmed
    · simp [AtRest, isInstalled, h.1 hi hc]
    · simp [AtRest, isInstalled, h.2.1 hi hc]
  · have hi' : o.isInstalled = false := by simpa using hi
    have hs := h.2.2 hi'
    simp only [AtRest, isInstalled, hs] at ho hi' ⊢
    exact ⟨ho, hi'⟩

theorem leaked_iff (h : o.RemovedTo o' confirmed) :
    o'.state = .leaked ↔ o.state = .leaked ∨ o.isInstalled = true ∧ ¬ confirmed := by
  by_cases hi : o.isInstalled = true
  · have hl := not_leaked_of_isInstalled hi
    by_cases hc : confirmed
    · simp [h.1 hi hc, hl, hc]
    · simp [h.2.1 hi hc, hi, hc]
  · simp [h.2.2 (by simpa using hi), hi]

theorem settled (h : o.RemovedTo o' confirmed) (ho : o.AtRest) (hl : o'.state ≠ .leaked) :
    o'.Settled :=
  settled_iff.mpr ⟨(h.atRest ho).1, (h.atRest ho).2, hl⟩

end RemovedTo

theorem deleteByKey_removedTo :
    o.RemovedTo (o.deleteByKey st notFound).1 (st = statusSuccess ∨ st = notFound) ∧
      ((o.deleteByKey st notFound).2 = true ↔
        (o.isInstalled = true → st = statusSuccess ∨ st = notFound)) := by
  by_cases hi : o.isInstalled = true <;> by_cases hc : st = statusSuccess ∨ st = notFound <;>
    simp [RemovedTo, deleteByKey, hi, hc]

end WfpObject

/-! ### One layer -/

namespace Removals

def FilterConfirmed (q : Removals) (i : Layer) : Prop :=
  q.filterDelete i = statusSuccess ∨ q.filterDelete i = fwpEFilterNotFound

/-- The engine side of a callout is deleted only if it has an id. -/
def CalloutConfirmed (q : Removals) (i : Layer) (calloutId : UInt32) : Prop :=
  WfpObject.UnregisterConfirmed (q.unregister i) wfpBusyRetries ∧ (calloutId ≠ 0 →
    q.calloutDelete i = statusSuccess ∨ q.calloutDelete i = fwpECalloutNotFound)

end Removals

namespace WfpSlot

/-- Between the calls an object has an engine id only while it is or may still be
installed, and a filter has one just then. -/
structure Sound (s : WfpSlot) : Prop where
  callout : s.callout.AtRest
  filter : s.filter.AtRest
  callout_filterId : s.callout.filterId = 0
  calloutId : s.callout.calloutId ≠ 0 → s.callout.isInstalled = true ∨ s.callout.state = .leaked
  filterId : s.filter.filterId ≠ 0 ↔ s.filter.isInstalled = true ∨ s.filter.state = .leaked

def HasLeaked (s : WfpSlot) : Prop := s.callout.state = .leaked ∨ s.filter.state = .leaked

/-- Nothing of the layer is left in the kernel. -/
def Removed (s : WfpSlot) : Prop :=
  s.callout.Settled ∧ s.filter.Settled ∧ s.registered = []

/-- The layer after a rollback or a Teardown. -/
structure RemovedTo (s s' : WfpSlot) (q : Removals) (i : Layer) : Prop where
  callout : s.callout.RemovedTo s'.callout (q.CalloutConfirmed i s.callout.calloutId)
  filter : s.filter.RemovedTo s'.filter (q.FilterConfirmed i)
  sound : s'.Sound

theorem sound_reset : (s.reset i).Sound := by
  constructor <;> simp [reset, WfpObject.AtRest, WfpObject.reset, WfpObject.isInstalled]

theorem sound_install : ((s.reset i).install r i).1.Sound := by
  have hf := r.filterId_ne i
  by_cases h₁ : ntSuccess (r.calloutRegister i) = true <;>
    by_cases h₂ : ntSuccess (r.calloutAdd i) = true <;>
      by_cases h₃ : ntSuccess (r.filterAdd i) = true <;>
        constructor <;>
          simp [install, reset, WfpObject.reset, WfpObject.registerCallout,
            WfpObject.addCallout, WfpObject.addFilter, calloutDefById,
            WfpObject.wfpDefByCalloutKey_self, WfpObject.AtRest, WfpObject.isInstalled,
            h₁, h₂, h₃, hf]

/-- What is left to delete of a callout once its unregister has been tried. -/
theorem unregister_callout (reply : ℕ → NtStatus) (h : s.Sound)
    (ho : s.callout.isInstalled = true) :
    ∃ o : WfpObject, (s.unregister reply).callout = o ∧ (s.unregister reply).filter = s.filter ∧
      o.calloutId = s.callout.calloutId ∧ o.filterId = 0 ∧
      o.state = if WfpObject.UnregisterConfirmed reply wfpBusyRetries then .deleted
        else .leaked := by
  obtain ⟨⟨st, b, heq⟩, -⟩ := WfpObject.unregister_eq reply wfpBusyRetries ho
  refine ⟨_, rfl, rfl, ?_⟩
  simp [unregister, heq, h.callout_filterId]

/-- The engine side of an unregistered callout. -/
theorem delete_callout {o : WfpObject} (st st' : NtStatus) (hf : o.filterId = 0)
    (hl : o.state ≠ .leaked) (hc : o.calloutId ≠ 0) :
    (o.delete st st').1.filterId = 0 ∧
      (st' = statusSuccess ∨ st' = fwpECalloutNotFound →
        (o.delete st st').1.state = .deleted ∧ (o.delete st st').1.calloutId = 0) ∧
      (¬ (st' = statusSuccess ∨ st' = fwpECalloutNotFound) →
        (o.delete st st').1.state = .leaked) := by
  by_cases h : st' = statusSuccess ∨ st' = fwpECalloutNotFound <;>
    simp [WfpObject.delete, hf, hl, hc, h]

theorem rollbackCallout_removedTo (h : s.Sound) :
    s.callout.RemovedTo (s.rollbackCallout q i).1.callout
        (q.CalloutConfirmed i s.callout.calloutId) ∧
      (s.rollbackCallout q i).1.filter = s.filter ∧
      (s.rollbackCallout q i).1.callout.filterId = 0 ∧
      ((s.rollbackCallout q i).1.callout.calloutId ≠ 0 →
        (s.rollbackCallout q i).1.callout.state = .leaked) := by
  by_cases ho : s.callout.isInstalled = true
  · obtain ⟨o, hco, hfi, hid, hof, hst⟩ := unregister_callout (q.unregister i) h ho
    rw [rollbackCallout, if_pos ho]
    by_cases hu : WfpObject.UnregisterConfirmed (q.unregister i) wfpBusyRetries
    · rw [if_pos hu] at hst
      by_cases hc : s.callout.calloutId = 0
      · simp [hco, hfi, hof, hst, hid, hc, WfpObject.RemovedTo, Removals.CalloutConfirmed, ho, hu]
      · have hd := delete_callout (q.filterDelete i) (q.calloutDelete i) hof
          (by simp [hst]) (by rwa [hid])
        by_cases hk : q.calloutDelete i = statusSuccess ∨ q.calloutDelete i = fwpECalloutNotFound
        · have hk' := hd.2.1 hk
          simp [hco, hfi, hst, hid, hc, WfpObject.RemovedTo, Removals.CalloutConfirmed, ho, hu,
            hk, hk', hd.1]
        · have hk' := hd.2.2 hk
          simp [hco, hfi, hst, hid, hc, WfpObject.RemovedTo, Removals.CalloutConfirmed, ho, hu,
            hk, hk', hd.1]
    · rw [if_neg hu] at hst
      simp [hco, hfi, hof, hst, WfpObject.RemovedTo, Removals.CalloutConfirmed, ho, hu]
  · rw [rollbackCallout, if_neg ho]
    refine ⟨by simp [WfpObject.RemovedTo, ho], rfl, h.callout_filterId, fun hc => ?_⟩
    exact (h.calloutId hc).resolve_left ho

theorem delete_filter {o : WfpObject} (st st' : NtStatus) (hf : o.filterId ≠ 0)
    (hl : o.state ≠ .leaked) :
    (st = statusSuccess ∨ st = fwpEFilterNotFound →
        (o.delete st st').1.state = .deleted ∧ (o.delete st st').1.filterId = 0) ∧
      (¬ (st = statusSuccess ∨ st = fwpEFilterNotFound) →
        (o.delete st st').1.state = .leaked ∧ (o.delete st st').1.filterId ≠ 0) := by
  by_cases h : st = statusSuccess ∨ st = fwpEFilterNotFound <;>
    simp [WfpObject.delete, hf, hl, h]

theorem rollbackFilter_eq : (s.rollbackFilter q i).1 = { s with
    filter := if s.filter.isInstalled then
      (s.filter.delete (q.filterDelete i) (q.calloutDelete i)).1 else s.filter } := by
  unfold rollbackFilter
  split <;> rfl

theorem rollbackFilter_removedTo (h : s.Sound) :
    s.filter.RemovedTo (s.rollbackFilter q i).1.filter (q.FilterConfirmed i) ∧
      (s.rollbackFilter q i).1.Sound := by
  rw [rollbackFilter_eq]
  by_cases ho : s.filter.isInstalled = true
  · have hid : s.filter.filterId ≠ 0 := h.filterId.mpr (.inl ho)
    have hd := delete_filter (q.filterDelete i) (q.calloutDelete i) hid
      (WfpObject.not_leaked_of_isInstalled ho)
    simp only [if_pos ho]
    by_cases hk : q.filterDelete i = statusSuccess ∨ q.filterDelete i = fwpEFilterNotFound
    · obtain ⟨hst, hid'⟩ := hd.1 hk
      refine ⟨by simp [WfpObject.RemovedTo, Removals.FilterConfirmed, ho, hk, hst], h.callout,
        ?_, h.callout_filterId, h.calloutId, ?_⟩ <;>
        simp [WfpObject.AtRest, WfpObject.isInstalled, hst, hid']
    · obtain ⟨hst, hid'⟩ := hd.2 hk
      refine ⟨by simp [WfpObject.RemovedTo, Removals.FilterConfirmed, ho, hk, hst], h.callout,
        ?_, h.callout_filterId, h.calloutId, ?_⟩ <;>
        simp [WfpObject.AtRest, WfpObject.isInstalled, hst, hid']
  · simp only [if_neg ho]
    exact ⟨by simp [WfpObject.RemovedTo, ho], h⟩

theorem rollback_removedTo (h : s.Sound) : s.RemovedTo (s.rollback q i).1 q i := by
  obtain ⟨hfi, hs⟩ := rollbackFilter_removedTo (q := q) (i := i) h
  obtain ⟨hc, hf, hcf, hci⟩ := rollbackCallout_removedTo (q := q) (i := i) hs
  have hco : (s.rollbackFilter q i).1.callout = s.callout := by rw [rollbackFilter_eq]
  rw [hco] at hc
  rw [← hf] at hfi
  refine ⟨hc, hfi, ⟨(hc.atRest h.callout).1, (hfi.atRest h.filter).1, hcf, ?_, ?_⟩⟩
  · intro hid
    exact .inr (hci hid)
  · have hid := hs.filterId
    rwa [← hf] at hid

theorem teardownFilter_eq (h : s.filter.filterId ≠ 0 ↔
    s.filter.isInstalled = true ∨ s.filter.state = .leaked) :
    (s.teardownFilter q i).1 = (s.rollbackFilter q i).1 := by
  rw [rollbackFilter_eq]
  by_cases ho : s.filter.isInstalled = true
  · rw [teardownFilter, if_pos (h.mpr (.inl ho)), if_pos ho]
  · rw [if_neg ho]
    by_cases hl : s.filter.state = .leaked
    · rw [teardownFilter, if_pos (h.mpr (.inr hl))]
      simp [WfpObject.delete, hl]
    · rw [teardownFilter, if_neg (by simp [h, ho, hl])]

theorem teardownCallout_eq : (s.teardownCallout q i).1 =
    if s.callout.calloutId ≠ 0 ∧ s.callout.state ≠ .leaked then
      { s with callout := (s.callout.delete (q.filterDelete i) (q.calloutDelete i)).1 }
    else s := by
  unfold teardownCallout
  split <;> rfl

/-- A Teardown removes a layer just as the rollback of an Install does. -/
theorem teardown_eq_rollback (h : s.Sound) :
    ((s.teardownUnregister q i).1.teardownDelete q i).1 = (s.rollback q i).1 := by
  have hfi : (s.teardownUnregister q i).1.filter = s.filter := by
    unfold teardownUnregister
    split <;> rfl
  rw [teardownDelete, rollback, teardownFilter_eq (by rw [hfi]; exact h.filterId),
    teardownCallout_eq, rollbackFilter_eq, rollbackFilter_eq, hfi]
  by_cases ho : s.callout.isInstalled = true
  · rw [teardownUnregister, if_pos ho, rollbackCallout, if_pos ho]
    by_cases hl : (s.unregister (q.unregister i)).callout.state = .leaked
    · simp [unregister] at hl ⊢
      simp [hl]
    · by_cases hc : (s.unregister (q.unregister i)).callout.calloutId = 0
      · simp [unregister] at hl hc ⊢
        simp [hl, hc]
      · simp [unregister] at hl hc ⊢
        simp [hl, hc]
  · have hc : ¬ (s.callout.calloutId ≠ 0 ∧ s.callout.state ≠ .leaked) := by
      rintro ⟨hc, hl⟩
      exact hl ((h.calloutId hc).resolve_left ho)
    rw [teardownUnregister, if_neg ho, rollbackCallout, if_neg ho, if_neg hc]

theorem teardownUnregister_reasons : (s.teardownUnregister q i).2 = [] ↔
    ((s.teardownUnregister q i).1.callout.state = .leaked → s.callout.state = .leaked) := by
  by_cases ho : s.callout.isInstalled = true
  · have hl := WfpObject.not_leaked_of_isInstalled ho
    simp [teardownUnregister, ho, hl]
  · simp [teardownUnregister, ho]

theorem teardownFilter_reasons (h : s.filter.state = .leaked → s.filter.filterId ≠ 0) :
    (s.teardownFilter q i).2 = [] ↔ (s.teardownFilter q i).1.filter.state ≠ .leaked := by
  by_cases hid : s.filter.filterId = 0
  · have hl : s.filter.state ≠ .leaked := fun hl => h hl hid
    simp [teardownFilter, hid, hl]
  · simp [teardownFilter, hid]

theorem teardownCallout_reasons : (s.teardownCallout q i).2 = [] ↔
    ((s.teardownCallout q i).1.callout.state = .leaked → s.callout.state = .leaked) := by
  by_cases hc : s.callout.calloutId ≠ 0 ∧ s.callout.state ≠ .leaked
  · simp [teardownCallout, hc]
  · simp [teardownCallout, hc]

theorem teardownDelete_reasons (h : s.filter.state = .leaked → s.filter.filterId ≠ 0) :
    (s.teardownDelete q i).2 = [] ↔ (s.teardownDelete q i).1.filter.state ≠ .leaked ∧
      ((s.teardownDelete q i).1.callout.state = .leaked → s.callout.state = .leaked) := by
  have hf := teardownFilter_reasons (q := q) (i := i) h
  have hc := teardownCallout_reasons (s := (s.teardownFilter q i).1) (q := q) (i := i)
  have hvu : ((s.teardownFilter q i).1.teardownCallout q i).1.filter =
      (s.teardownFilter q i).1.filter := by
    rw [teardownCallout_eq]
    split <;> rfl
  rw [teardownFilter_callout.1] at hc
  rw [teardownDelete, List.append_eq_nil_iff, hf, hc, hvu]

theorem teardownDelete_leaked (hl : s.callout.state = .leaked) :
    (s.teardownDelete q i).1.callout.state = .leaked := by
  have hco := (teardownFilter_callout (s := s) (q := q) (i := i)).1
  rw [teardownDelete, teardownCallout_eq, if_neg (by simp [hco, hl]), hco, hl]

/-- A Teardown reports a LEAKED filter each time, a LEAKED callout only when it leaks. -/
theorem teardown_reasons (h : s.Sound) :
    (s.teardownUnregister q i).2 = [] ∧
        ((s.teardownUnregister q i).1.teardownDelete q i).2 = [] ↔
      (s.rollback q i).1.filter.state ≠ .leaked ∧
        ((s.rollback q i).1.callout.state = .leaked → s.callout.state = .leaked) := by
  have hfi : (s.teardownUnregister q i).1.filter = s.filter := by
    unfold teardownUnregister
    split <;> rfl
  have hid : (s.teardownUnregister q i).1.filter.state = .leaked →
      (s.teardownUnregister q i).1.filter.filterId ≠ 0 := by
    intro hl
    rw [hfi] at hl ⊢
    exact h.filterId.mpr (.inr hl)
  have hkeep := teardownDelete_leaked (s := (s.teardownUnregister q i).1) (q := q) (i := i)
  rw [← teardown_eq_rollback h, teardownUnregister_reasons, teardownDelete_reasons hid]
  constructor
  · rintro ⟨hu, hf, hc⟩
    exact ⟨hf, fun hl => hu (hc hl)⟩
  · rintro ⟨hf, hc⟩
    refine ⟨fun hl => hc (hkeep hl), hf, fun hl => ?_⟩
    have hs := hc hl
    have hni : ¬ s.callout.isInstalled = true := by simp [WfpObject.isInstalled, hs]
    rwa [teardownUnregister, if_neg hni]

/-- Which objects of a layer an Install leaves installed. -/
theorem install_installed :
    (((s.reset i).install r i).1.filter.isInstalled = true ↔ r.layerFailure i = none) ∧
    (((s.reset i).install r i).1.callout.isInstalled = true ↔
      r.layerFailure i = none ∨ r.layerFailure i = some .filterAdd) ∧
    (((s.reset i).install r i).1.callout.isInstalled = true →
      ((s.reset i).install r i).1.callout.calloutId = r.calloutId i) ∧
    ¬ ((s.reset i).install r i).1.HasLeaked := by
  by_cases h₁ : ntSuccess (r.calloutRegister i) = true <;>
    by_cases h₂ : ntSuccess (r.calloutAdd i) = true <;>
      by_cases h₃ : ntSuccess (r.filterAdd i) = true <;>
        simp [install, reset, WfpObject.reset, WfpObject.registerCallout,
          WfpObject.addCallout, WfpObject.addFilter, calloutDefById,
          WfpObject.wfpDefByCalloutKey_self, InstallReplies.layerFailure,
          InstallReplies.status, WfpObject.isInstalled, HasLeaked, h₁, h₂, h₃]

end WfpSlot

/-! ### The manager -/

namespace InstallReplies

/-- No removal that the rollback issues stays unconfirmed, and it issues one for each
registration. -/
structure RollbackConfirmed (r : InstallReplies) : Prop where
  calloutAdd : ∀ i, r.Reaches i → r.layerFailure i ≠ some .calloutAdd
  filter : ∀ i, r.Reaches i → r.layerFailure i = none → r.FilterConfirmed i
  callout : ∀ i, r.Reaches i → r.layerFailure i = none ∨ r.layerFailure i = some .filterAdd →
    r.CalloutConfirmed i (r.calloutId i)
  sublayer : ntSuccess r.transactionBegin → ntSuccess r.providerAdd → ntSuccess r.subLayerAdd →
    r.subLayerDelete = statusSuccess ∨ r.subLayerDelete = fwpESublayerNotFound
  provider : ntSuccess r.transactionBegin → ntSuccess r.providerAdd →
    r.providerDelete = statusSuccess ∨ r.providerDelete = fwpEProviderNotFound

end InstallReplies

namespace WfpManager

/-- Every tracked object is confirmed removed or was never installed, and no callout is
registered. -/
structure Removed (m : WfpManager) : Prop where
  engineObj : m.engineObj.Settled
  provider : m.provider.Settled
  sublayer : m.sublayer.Settled
  slots : ∀ i, (m.slots i).Removed

/-- A rollback closes the engine only if all its removals are confirmed, and a Teardown that
finds a LEAKED object does not get to close it. -/
def LeakSafe (m : WfpManager) : Action → Prop
  | .install r => m.installed = false → m.hasLeaked = false → ntSuccess r.engineOpen →
      ¬ r.Succeeds → r.engineClose = statusSuccess → r.RollbackConfirmed
  | .teardown q => m.hasLeaked = true → q.engineClose = statusSuccess →
      ∃ i, (m.slots i).filter.state = .leaked

/-- Nothing is left that a Teardown would try to remove. -/
structure Inert (m : WfpManager) : Prop where
  provider : m.provider.isInstalled = false
  sublayer : m.sublayer.isInstalled = false
  slots : ∀ i, (m.slots i).callout.isInstalled = false ∧ (m.slots i).filter.isInstalled = false

structure LeakInvariant (m : WfpManager) : Prop where
  sound : ∀ i, (m.slots i).Sound
  provider : m.provider.AtRest
  sublayer : m.sublayer.AtRest
  closedOverLeaked : m.closedOverLeaked = false
  leaked : m.hasLeaked = true → m.engine.isSome = true ∧ m.Inert
  installed : m.hasLeaked = false → m.installed = true → m.engine.isSome = true ∧ m.Tracked
  removed : m.hasLeaked = false → m.installed = false → m.engine = none ∧ m.Removed

/-- What the removals do to the objects; the engine they leave to the caller. -/
structure RemovedTo (m n : WfpManager) (q : Removals) : Prop where
  slots : ∀ i, (m.slots i).RemovedTo (n.slots i) q i
  sublayer : m.sublayer.RemovedTo n.sublayer
    (q.subLayerDelete = statusSuccess ∨ q.subLayerDelete = fwpESublayerNotFound)
  provider : m.provider.RemovedTo n.provider
    (q.providerDelete = statusSuccess ∨ q.providerDelete = fwpEProviderNotFound)
  tracked : m.Tracked → n.Tracked
  engine : n.engine = m.engine
  engineObj : n.engineObj = m.engineObj
  installed : n.installed = m.installed
  closedOverLeaked : n.closedOverLeaked = m.closedOverLeaked

theorem rollbackSteps_removedTo (h : ∀ i, (m.slots i).Sound) :
    m.RemovedTo (m.rollbackSteps q).1 q := by
  rw [rollbackSteps_eq]
  refine ⟨fun i => WfpSlot.rollback_removedTo (h i), WfpObject.deleteByKey_removedTo.1,
    WfpObject.deleteByKey_removedTo.1, ?_, rfl, rfl, rfl, rfl⟩
  intro ht i
  exact (WfpSlot.rollback_tracked (ht i)).1

theorem teardownSteps_removedTo (h : ∀ i, (m.slots i).Sound) :
    m.RemovedTo (m.teardownSteps q).1 q := by
  rw [teardownSteps_eq]
  refine ⟨fun i => ?_, WfpObject.deleteByKey_removedTo.1,
    WfpObject.deleteByKey_removedTo.1, ?_, rfl, rfl, rfl, rfl⟩
  · simpa only [WfpSlot.teardown_eq_rollback (h i)] using WfpSlot.rollback_removedTo (h i)
  · intro ht i
    exact (WfpSlot.teardown_tracked (ht i)).1

namespace RemovedTo

theorem sound (h : m.RemovedTo n q) (i : Layer) : (n.slots i).Sound := (h.slots i).sound

theorem leaked (h : m.RemovedTo n q) (hl : m.hasLeaked = true) : n.hasLeaked = true := by
  by_contra hn
  obtain ⟨he, hp, hs, hi⟩ := hasLeaked_eq_false.mp (by simpa using hn)
  have hm : m.hasLeaked = false := by
    refine hasLeaked_eq_false.mpr ⟨h.engineObj ▸ he, fun hl => hp (h.provider.leaked hl),
      fun hl => hs (h.sublayer.leaked hl), fun i => ?_⟩
    exact ⟨fun hl => (hi i).1 ((h.slots i).callout.leaked hl),
      fun hl => (hi i).2 ((h.slots i).filter.leaked hl)⟩
  simp [hm] at hl

theorem inert (h : m.RemovedTo n q) (hi : ∀ i, (m.slots i).Sound) (hp : m.provider.AtRest)
    (hs : m.sublayer.AtRest) : n.Inert where
  provider := (h.provider.atRest hp).2
  sublayer := (h.sublayer.atRest hs).2
  slots i := ⟨((h.slots i).callout.atRest (hi i).callout).2,
    ((h.slots i).filter.atRest (hi i).filter).2⟩

/-- Where nothing is LEAKED after the removals, everything but the engine is removed. -/
theorem removed (h : m.RemovedTo n q) (hi : ∀ i, (m.slots i).Sound) (hp : m.provider.AtRest)
    (hs : m.sublayer.AtRest) (ht : m.Tracked) (hn : n.hasLeaked = false) :
    n.provider.Settled ∧ n.sublayer.Settled ∧ ∀ i, (n.slots i).Removed := by
  obtain ⟨-, hpl, hsl, hil⟩ := hasLeaked_eq_false.mp hn
  refine ⟨h.provider.settled hp hpl, h.sublayer.settled hs hsl, fun i => ?_⟩
  have hco := (h.slots i).callout.settled (hi i).callout (hil i).1
  have hfi := (h.slots i).filter.settled (hi i).filter (hil i).2
  have hni := (WfpObject.settled_iff.mp hco).2.1
  exact ⟨hco, hfi, (h.tracked ht i).registered_eq_nil hni (hil i).1⟩

end RemovedTo

/-- A Teardown reports every LEAKED filter and every object that leaks in it. -/
theorem teardownSteps_reasons (h : ∀ i, (m.slots i).Sound) : (m.teardownSteps q).2 = [] ↔
    (∀ i, ((m.teardownSteps q).1.slots i).filter.state ≠ .leaked ∧
      (((m.teardownSteps q).1.slots i).callout.state = .leaked →
        (m.slots i).callout.state = .leaked)) ∧
    ((m.teardownSteps q).1.sublayer.state = .leaked → m.sublayer.state = .leaked) ∧
    ((m.teardownSteps q).1.provider.state = .leaked → m.provider.state = .leaked) := by
  have hslot := fun i => WfpSlot.teardown_reasons (q := q) (i := i) (h i)
  have hkey : ∀ {o : WfpObject} {st notFound : NtStatus}, (o.deleteByKey st notFound).2 = true ↔
      ((o.deleteByKey st notFound).1.state = .leaked → o.state = .leaked) := by
    intro o st notFound
    obtain ⟨hr, hok⟩ : o.RemovedTo (o.deleteByKey st notFound).1
        (st = statusSuccess ∨ st = notFound) ∧ _ := WfpObject.deleteByKey_removedTo
    rw [hok, hr.leaked_iff]
    constructor
    · rintro hk (hl | ⟨hi, hn⟩)
      exacts [hl, absurd (hk hi) hn]
    · intro hk hi
      by_contra hn
      exact WfpObject.not_leaked_of_isInstalled hi (hk (.inr ⟨hi, hn⟩))
  have hsteps : (m.teardownSteps q).2 = [] ↔
      (∀ i, ((m.slots i).teardownUnregister q i).2 = [] ∧
        (((m.slots i).teardownUnregister q i).1.teardownDelete q i).2 = []) ∧
      (m.sublayer.deleteByKey q.subLayerDelete fwpESublayerNotFound).2 = true ∧
      (m.provider.deleteByKey q.providerDelete fwpEProviderNotFound).2 = true := by
    simp [teardownSteps, visit_layers, mem_layers, forall_and, and_assoc]
  rw [hsteps, teardownSteps_eq]
  simp only [hslot, hkey, WfpSlot.teardown_eq_rollback (h _)]

/-- What an Install leaves of all but the layers. -/
theorem installSteps_keys (ho : ntSuccess r.engineOpen = true)
    (hn : n = ((m.reset.openEngine r).installSteps r).1) :
    (n.provider.AtRest ∧ n.provider.state ≠ .leaked ∧ (n.provider.isInstalled = true →
      ntSuccess r.transactionBegin ∧ ntSuccess r.providerAdd)) ∧
    (n.sublayer.AtRest ∧ n.sublayer.state ≠ .leaked ∧ (n.sublayer.isInstalled = true →
      ntSuccess r.transactionBegin ∧ ntSuccess r.providerAdd ∧ ntSuccess r.subLayerAdd)) ∧
    n.engineObj.state = .registered ∧ n.installed = m.installed ∧
    n.closedOverLeaked = m.closedOverLeaked := by
  subst hn
  simp only [installSteps]
  repeat' split
  all_goals
    simp_all [openEngine, reset, addProvider, addSubLayer, WfpObject.AtRest,
      WfpObject.isInstalled, WfpObject.reset]

/-- A slot on the way out of an Install. -/
theorem installSteps_slot (ho : ntSuccess r.engineOpen = true)
    (hn : n = ((m.reset.openEngine r).installSteps r).1)
    (hr : ∀ i, (m.slots i).registered = []) (i : Layer) :
    (n.slots i).Sound ∧ ¬ (n.slots i).HasLeaked ∧
      ((n.slots i).filter.isInstalled = true → r.Reaches i ∧ r.layerFailure i = none) ∧
      ((n.slots i).callout.isInstalled = true → r.Reaches i ∧
        (r.layerFailure i = none ∨ r.layerFailure i = some .filterAdd) ∧
        (n.slots i).callout.calloutId = r.calloutId i) ∧
      ((r.Reaches i → r.layerFailure i ≠ some .calloutAdd) → (n.slots i).Tracked) := by
  subst hn
  rw [(installSteps_spec ho hr).1]
  have ht := tracked_round (r := r) (hr i)
  by_cases h : r.Reaches i
  · simp only [if_pos h] at ht ⊢
    obtain ⟨hf, hc, hid, hl⟩ := WfpSlot.install_installed (s := m.slots i) (r := r) (i := i)
    exact ⟨WfpSlot.sound_install, hl, fun hi => ⟨h, hf.mp hi⟩,
      fun hi => ⟨h, hc.mp hi, hid hi⟩, ht⟩
  · simp only [if_neg h] at ht ⊢
    refine ⟨WfpSlot.sound_reset, ?_, ?_, ?_, ht⟩ <;>
      simp [WfpSlot.HasLeaked, WfpSlot.reset, WfpObject.reset, WfpObject.isInstalled]

theorem Removed.hasLeaked (h : m.Removed) : m.hasLeaked = false := by
  obtain ⟨he, hp, hs, hi⟩ := h
  refine hasLeaked_eq_false.mpr ⟨(WfpObject.settled_iff.mp he).2.2,
    (WfpObject.settled_iff.mp hp).2.2, (WfpObject.settled_iff.mp hs).2.2, fun i => ?_⟩
  exact ⟨(WfpObject.settled_iff.mp (hi i).1).2.2, (WfpObject.settled_iff.mp (hi i).2.1).2.2⟩

theorem leakInvariant_of_removed (hs : ∀ i, (m.slots i).Sound) (h : m.Removed)
    (he : m.engine = none) (hi : m.installed = false) (hc : m.closedOverLeaked = false) :
    LeakInvariant m where
  sound := hs
  provider := (WfpObject.settled_iff.mp h.provider).1
  sublayer := (WfpObject.settled_iff.mp h.sublayer).1
  closedOverLeaked := hc
  leaked := by
    intro hl
    simp [h.hasLeaked] at hl
  installed := by
    intro _ hi'
    simp [hi] at hi'
  removed _ _ := ⟨he, h⟩

theorem leakInvariant_of_leaked (hs : ∀ i, (m.slots i).Sound) (hp : m.provider.AtRest)
    (hsub : m.sublayer.AtRest) (hl : m.hasLeaked = true) (he : m.engine.isSome = true)
    (hin : m.Inert) (hc : m.closedOverLeaked = false) : LeakInvariant m where
  sound := hs
  provider := hp
  sublayer := hsub
  closedOverLeaked := hc
  leaked _ := ⟨he, hin⟩
  installed := by
    intro hl'
    simp [hl] at hl'
  removed := by
    intro hl'
    simp [hl] at hl'

theorem leakInvariant_initial : LeakInvariant initial := by
  refine leakInvariant_of_removed (fun i => ?_) ?_ rfl rfl rfl
  · constructor <;> simp [initial, WfpObject.AtRest, WfpObject.reset, WfpObject.isInstalled]
  · constructor <;> simp [initial, WfpSlot.Removed, WfpObject.Settled, WfpObject.reset]

theorem closeEngine_hasLeaked (h : st ≠ statusSuccess) :
    (m.closeEngine st).hasLeaked = true := by
  simp [closeEngine, hasLeaked, h]

/-- The ends of the rollback and of the Teardown: the engine is closed for good, or it is
LEAKED and its handle kept. -/
theorem closeEngine_leakInvariant (st : NtStatus) (rt : Runtime) (b : Bool) (h : m.RemovedTo n q)
    (hi : ∀ i, (m.slots i).Sound) (hp : m.provider.AtRest) (hs : m.sublayer.AtRest)
    (ht : st = statusSuccess → m.Tracked ∧ n.hasLeaked = false ∧ b = false)
    (he : m.engine.isSome = true) (hc : m.closedOverLeaked = false) :
    LeakInvariant { n.closeEngine st with runtime := rt, installed := b } ∧
      (st = statusSuccess → (n.closeEngine st).Removed) := by
  by_cases hst : st = statusSuccess
  · obtain ⟨htr, hn, rfl⟩ := ht hst
    obtain ⟨hpr, hsr, hir⟩ := h.removed hi hp hs htr hn
    rw [closeEngine, if_pos hst]
    have hrem : ∀ c, Removed { n with
        engineObj := { n.engineObj with lastStatus := st, state := .deleted }
        engine := none
        closedOverLeaked := c } := fun _ => ⟨.inr (.inl rfl), hpr, hsr, hir⟩
    refine ⟨leakInvariant_of_removed h.sound ⟨.inr (.inl rfl), hpr, hsr, hir⟩ rfl rfl ?_,
      fun _ => hrem _⟩
    simp [h.closedOverLeaked, hc, hn]
  · obtain ⟨hinp, hins, hini⟩ := h.inert hi hp hs
    rw [closeEngine, if_neg hst]
    refine ⟨leakInvariant_of_leaked h.sound (h.provider.atRest hp).1 (h.sublayer.atRest hs).1
      (by simp [hasLeaked]) (by rwa [← h.engine] at he) ⟨hinp, hins, hini⟩
      (h.closedOverLeaked.trans hc), fun h => absurd h hst⟩

theorem install_leakInvariant (hi : LeakInvariant m) (hg : LeakSafe m (.install r)) :
    LeakInvariant (m.install r).1 := by
  rcases install_cases m r with ⟨-, he⟩ | ⟨-, -, he⟩ | ⟨h, hl, hc⟩
  · rwa [he]
  · rwa [he]
  obtain ⟨-, hrem⟩ := hi.removed hl h
  have hr : ∀ i, (m.slots i).registered = [] := fun i => (hrem.slots i).2.2
  rcases hc with ⟨ho, he⟩ | ⟨ho, hs, he⟩ | ⟨st, ho, hs, he⟩
  · rw [he]
    refine leakInvariant_of_removed (fun i => WfpSlot.sound_reset) ?_ (by simp [openEngine, ho])
      h hi.closedOverLeaked
    constructor <;> simp [openEngine, reset, WfpObject.Settled, WfpObject.reset, ho,
      WfpSlot.Removed, WfpSlot.reset, hr]
  · rw [he]
    obtain ⟨⟨hpr, hpl, -⟩, ⟨hsr, hsl, -⟩, heng, -, hcl⟩ := installSteps_keys ho rfl
    have hslot := installSteps_slot ho rfl hr
    have hsome := openEngine_installSteps_engine (m := m.reset) ho
    have hsuc := (installSteps_spec ho hr).2.mp hs
    refine ⟨fun i => (hslot i).1, hpr, hsr, hcl.trans hi.closedOverLeaked, ?_, ?_, by simp⟩
    · intro hl'
      have hn : ((m.reset.openEngine r).installSteps r).1.hasLeaked = false := by
        refine hasLeaked_eq_false.mpr ⟨by simp [heng], hpl, hsl, fun i => ?_⟩
        exact ⟨fun hc => (hslot i).2.1 (.inl hc), fun hc => (hslot i).2.1 (.inr hc)⟩
      exact absurd (hn.symm.trans hl') (by decide)
    · refine fun _ _ => ⟨by simp [hsome], fun i => (hslot i).2.2.2.2 fun _ => ?_⟩
      simp [hsuc.2.2.2.2.1 i]
  · rw [he]
    have hslot := installSteps_slot ho rfl hr
    obtain ⟨⟨hpr, hpl, hpi⟩, ⟨hsr, hsl, hsi⟩, heng, hin, hcl⟩ := installSteps_keys ho rfl
    have hsome : ((m.reset.openEngine r).installSteps r).1.engine.isSome = true := by
      simp [openEngine_installSteps_engine ho]
    obtain ⟨rt, hrb⟩ := rollbackInstall_eq (q := r.toRemovals) hsome
    have hrm := rollbackSteps_removedTo (q := r.toRemovals) fun i => (hslot i).1
    have hns : ¬ r.Succeeds := by
      intro hsuc
      simp [(installSteps_spec ho hr).2.mpr hsuc] at hs
    rw [hrb]
    refine (closeEngine_leakInvariant _ _ _ hrm (fun i => (hslot i).1) hpr hsr (fun hst => ?_) hsome
      (hcl.trans hi.closedOverLeaked)).1
    have hrc := hg h hl ho hns hst
    refine ⟨fun i => (hslot i).2.2.2.2 (hrc.calloutAdd i), hasLeaked_eq_false.mpr
      ⟨by simp [hrm.engineObj, heng], ?_, ?_, fun i => ⟨?_, ?_⟩⟩,
      by rw [closeEngine_installed, hrm.installed, hin, h]⟩
    · rw [Ne, hrm.provider.leaked_iff]
      rintro (hl' | ⟨hi', hn'⟩)
      exacts [hpl hl', hn' (hrc.provider (hpi hi').1 (hpi hi').2)]
    · rw [Ne, hrm.sublayer.leaked_iff]
      rintro (hl' | ⟨hi', hn'⟩)
      exacts [hsl hl', hn' (hrc.sublayer (hsi hi').1 (hsi hi').2.1 (hsi hi').2.2)]
    · obtain ⟨-, hnl, -, hci, -⟩ := hslot i
      rw [Ne, (hrm.slots i).callout.leaked_iff]
      rintro (hl' | ⟨hi', hn'⟩)
      · exact hnl (.inl hl')
      · obtain ⟨hreach, hfail, hid⟩ := hci hi'
        exact hn' (hid ▸ hrc.callout i hreach hfail)
    · obtain ⟨-, hnl, hfi, -, -⟩ := hslot i
      rw [Ne, (hrm.slots i).filter.leaked_iff]
      rintro (hl' | ⟨hi', hn'⟩)
      · exact hnl (.inr hl')
      · exact hn' (hrc.filter i (hfi hi').1 (hfi hi').2)

/-- From a state without LEAKED objects the removals go through exactly if none leaks. -/
theorem teardownSteps_hasLeaked (h : ∀ i, (m.slots i).Sound) (hl : m.hasLeaked = false) :
    (m.teardownSteps q).2 = [] ↔ (m.teardownSteps q).1.hasLeaked = false := by
  obtain ⟨he, hp, hs, hi⟩ := hasLeaked_eq_false.mp hl
  have hrm := teardownSteps_removedTo (q := q) h
  rw [teardownSteps_reasons h, hasLeaked_eq_false, hrm.engineObj]
  constructor
  · rintro ⟨hslots, hsub, hprov⟩
    exact ⟨he, mt hprov hp, mt hsub hs, fun i => ⟨mt (hslots i).2 (hi i).1, (hslots i).1⟩⟩
  · rintro ⟨-, hprov, hsub, hslots⟩
    exact ⟨fun i => ⟨(hslots i).2, fun hc => absurd hc (hslots i).1⟩,
      fun hc => absurd hc hsub, fun hc => absurd hc hprov⟩

/-- Under the guard a Teardown keeps the invariant, answers FALSE over a LEAKED object, which
stays, and answers TRUE only when nothing is left. -/
theorem teardown_leakInvariant (hi : LeakInvariant m) (hg : LeakSafe m (.teardown q)) :
    LeakInvariant (m.teardown q).1 ∧
      (m.hasLeaked = true → (m.teardown q).1.hasLeaked = true ∧ (m.teardown q).2 = false) ∧
      ((m.teardown q).2 = true → (m.teardown q).1.Removed) := by
  have hrm := teardownSteps_removedTo (q := q) hi.sound
  have hpr := (hrm.provider.atRest hi.provider).1
  have hsr := (hrm.sublayer.atRest hi.sublayer).1
  have hcl := hrm.closedOverLeaked.trans hi.closedOverLeaked
  have hclean : m.hasLeaked = false → ¬ (m.installed = false ∧ m.engine = none) →
      m.engine.isSome = true ∧ m.Tracked := by
    intro hl hn
    cases h : m.installed with
    | true => exact hi.installed hl h
    | false => exact absurd ⟨h, (hi.removed hl h).1⟩ hn
  rcases teardown_cases m q with ⟨h, hn, he⟩ | ⟨hn, hr, he⟩ | ⟨hr, hs, hc, he⟩ |
    ⟨hr, hs, hc, rt, he⟩ | ⟨hr, hn, h, he⟩
  · rw [he]
    have hl : m.hasLeaked = false := by
      by_contra hl
      simpa [hn] using (hi.leaked (by simpa using hl)).1
    exact ⟨hi, by simp [hl], fun _ => (hi.removed hl h).2⟩
  · rw [he]
    have hl : (m.teardownSteps q).1.hasLeaked = true := by
      cases hl : m.hasLeaked with
      | true => exact hrm.leaked hl
      | false => simpa using mt (teardownSteps_hasLeaked hi.sound hl).mpr hr
    have hs : m.engine.isSome = true := by
      cases hl : m.hasLeaked with
      | true => exact (hi.leaked hl).1
      | false => exact (hclean hl hn).1
    rw [← hrm.engine] at hs
    exact ⟨leakInvariant_of_leaked hrm.sound hpr hsr hl hs
      (hrm.inert hi.sound hi.provider hi.sublayer) hcl, fun _ => ⟨hl, rfl⟩, nofun⟩
  · rw [he]
    have hl : m.hasLeaked = false := by
      by_contra hl
      obtain ⟨i, hf⟩ := hg (by simpa using hl) hc
      exact (((teardownSteps_reasons hi.sound).mp hr).1 i).1 ((hrm.slots i).filter.leaked hf)
    have ht := (hclean hl (by rintro ⟨-, hn⟩; simp [hn] at hs)).2
    have hend := closeEngine_leakInvariant q.engineClose
      ((m.teardownSteps q).1.closeEngine q.engineClose).runtime false hrm
      hi.sound hi.provider hi.sublayer
      (fun _ => ⟨ht, (teardownSteps_hasLeaked hi.sound hl).mp hr, rfl⟩) hs hi.closedOverLeaked
    obtain ⟨heng, hprov, hsub, hslots⟩ := hend.2 hc
    exact ⟨hend.1, by simp [hl], fun _ => ⟨heng, hprov, hsub, hslots⟩⟩
  · rw [he]
    have hend := closeEngine_leakInvariant q.engineClose rt
      ((m.teardownSteps q).1.closeEngine q.engineClose).installed hrm
      hi.sound hi.provider hi.sublayer (fun h => absurd h hc) hs hi.closedOverLeaked
    exact ⟨hend.1, fun _ => ⟨closeEngine_hasLeaked hc, rfl⟩, nofun⟩
  · cases hl : m.hasLeaked with
    | true => simpa [hn] using (hi.leaked hl).1
    | false => simpa [hn] using (hi.installed hl h).1

theorem leakInvariant_step (h : (system.restrict LeakSafe).step m a n) (hi : LeakInvariant m) :
    LeakInvariant n ∧ (m.hasLeaked = true → n.hasLeaked = true) := by
  obtain ⟨hg, hs⟩ := h
  cases hs with
  | @install r =>
    refine ⟨install_leakInvariant hi hg, fun hl => ?_⟩
    rcases install_cases m r with ⟨-, he⟩ | ⟨-, -, he⟩ | ⟨-, hl', -⟩
    · rwa [he]
    · rwa [he]
    · simp [hl] at hl'
  | teardown =>
    obtain ⟨ht, hl, -⟩ := teardown_leakInvariant hi hg
    exact ⟨ht, fun h => (hl h).1⟩

theorem leakInvariant_reachable (h : (system.restrict LeakSafe).Reachable m) :
    LeakInvariant m := by
  refine h.invariant (by rintro m rfl; exact leakInvariant_initial) ?_
  intro m a n hs hi
  exact (leakInvariant_step hs hi).1

/-- A LEAKED object stays one. -/
theorem leaked_run (h : (system.restrict LeakSafe).Run m as n) (hi : LeakInvariant m)
    (hl : m.hasLeaked = true) : LeakInvariant n ∧ n.hasLeaked = true := by
  refine h.preserves (I := fun m => LeakInvariant m ∧ m.hasLeaked = true) ?_ ⟨hi, hl⟩
  rintro m a n hs ⟨hi, hl⟩
  obtain ⟨hi', hl'⟩ := leakInvariant_step hs hi
  exact ⟨hi', hl' hl⟩

/-- In runs under the guard the engine has not been closed over a LEAKED object, every
Teardown after an object has become LEAKED answers FALSE, and one that answers TRUE leaves
every object removed. -/
theorem teardown_over_leaked (h : (system.restrict LeakSafe).Reachable m) :
    m.closedOverLeaked = false ∧
    (m.hasLeaked = true → ∀ as n q, (system.restrict LeakSafe).Run m as n →
      LeakSafe n (.teardown q) → (n.teardown q).2 = false) ∧
    ∀ q, LeakSafe m (.teardown q) → (m.teardown q).2 = true → (m.teardown q).1.Removed := by
  have hi := leakInvariant_reachable h
  refine ⟨hi.closedOverLeaked, fun hl as n q hr hg => ?_, fun q hg => ?_⟩
  · obtain ⟨hin, hln⟩ := leaked_run hr hi hl
    exact ((teardown_leakInvariant hin hg).2.1 hln).2
  · exact (teardown_leakInvariant hi hg).2.2

/-- The guard is exact for a Teardown: over LEAKED objects none of which is a filter it
closes the engine and answers TRUE. -/
theorem teardown_of_not_leakSafe (hi : LeakInvariant m) (hg : ¬ LeakSafe m (.teardown q)) :
    (m.teardown q).2 = true ∧ (m.teardown q).1.closedOverLeaked = true := by
  simp only [LeakSafe, Classical.not_imp, not_exists] at hg
  obtain ⟨hl, hc, hf⟩ := hg
  obtain ⟨hs, hin⟩ := hi.leaked hl
  have hrm := teardownSteps_removedTo (q := q) hi.sound
  -- None of the removals is issued, so nothing is there to be reported.
  have hr : (m.teardownSteps q).2 = [] := by
    refine (teardownSteps_reasons hi.sound).mpr
      ⟨fun i => ⟨?_, fun h => ?_⟩, fun h => ?_, fun h => ?_⟩
    · rw [(hrm.slots i).filter.2.2 (hin.slots i).2]
      exact hf i
    · rwa [(hrm.slots i).callout.2.2 (hin.slots i).1] at h
    · rwa [hrm.sublayer.2.2 hin.sublayer] at h
    · rwa [hrm.provider.2.2 hin.provider] at h
  rcases teardown_cases m q with ⟨-, hn, -⟩ | ⟨-, hn, -⟩ | ⟨-, -, -, he⟩ | ⟨-, -, hn, -⟩ |
    ⟨-, hn, -⟩
  · simp [hn] at hs
  · exact absurd hr hn
  · rw [he]
    refine ⟨rfl, ?_⟩
    simp [closeEngine, hc, hrm.leaked hl]
  · exact absurd hc hn
  · simp [hn] at hs

/-- The first layer's callout is BUSY once and then not unregistered. -/
def removalsCalloutLeaks : Removals :=
  { repliesSuccess.toRemovals with
    unregister := fun _ b => if b = 0 then statusDeviceBusy else statusUnsuccessful }

def removalsFilterLeaks : Removals :=
  { repliesSuccess.toRemovals with filterDelete := fun _ => statusUnsuccessful }

def afterInstall : WfpManager := (initial.install repliesSuccess).1

theorem afterInstall_reachable : (system.restrict LeakSafe).Reachable afterInstall := by
  refine (System.Reachable.of_init rfl).step (a := .install repliesSuccess) ⟨?_, .install⟩
  intro _ _ _ hn
  exact absurd (by unfold InstallReplies.Succeeds; decide) hn

/-- A second Teardown closes the engine over a LEAKED callout and answers TRUE. -/
theorem second_teardown_true : system.Reachable (afterInstall.teardown removalsCalloutLeaks).1 ∧
    (afterInstall.teardown removalsCalloutLeaks).1.hasLeaked = true ∧
    ((afterInstall.teardown removalsCalloutLeaks).1.teardown repliesSuccess.toRemovals).2 =
      true ∧
    ((afterInstall.teardown removalsCalloutLeaks).1.teardown
      repliesSuccess.toRemovals).1.closedOverLeaked = true :=
  ⟨afterInstall_reachable.of_restrict.step (a := .teardown removalsCalloutLeaks) .teardown,
    by decide, by decide, by decide⟩

theorem teardown_over_leaked_filter :
    (system.restrict LeakSafe).Reachable (afterInstall.teardown removalsFilterLeaks).1 ∧
      (afterInstall.teardown removalsFilterLeaks).1.hasLeaked = true ∧
      ((afterInstall.teardown removalsFilterLeaks).1.teardown repliesSuccess.toRemovals).2 =
        false := by
  have hg : LeakSafe afterInstall (.teardown removalsFilterLeaks) := by
    intro hl
    exact absurd hl (by decide)
  have hr : (system.restrict LeakSafe).Reachable (afterInstall.teardown removalsFilterLeaks).1 :=
    afterInstall_reachable.step (a := .teardown removalsFilterLeaks) ⟨hg, .teardown⟩
  have hl : (afterInstall.teardown removalsFilterLeaks).1.hasLeaked = true := by decide
  exact ⟨hr, hl, (teardown_over_leaked hr).2.1 hl [] _ _ .refl fun _ _ => ⟨0, by decide⟩⟩

end WfpManager

end Sentinel
