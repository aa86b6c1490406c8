import Sentinel.Wfp.Manager

/-! Which kernel registrations of callouts the manager keeps track of. -/
namespace Sentinel

open Transition Visit

variable {o : WfpObject} {s : WfpSlot} {m n : WfpManager} {r : InstallReplies} {q : Removals}
  {i j k : Layer} {st st' : NtStatus} {reply : ℕ → NtStatus} {a : WfpManager.Action}

/-! ### The call at which an Install fails -/

/-- The WFP calls an Install makes for one layer. -/
inductive LayerCall where
  | calloutRegister
  | calloutAdd
  | filterAdd
  deriving DecidableEq

namespace InstallReplies

def status (r : InstallReplies) (i : Layer) : LayerCall → NtStatus
  | .calloutRegister => r.calloutRegister i
  | .calloutAdd => r.calloutAdd i
  | .filterAdd => r.filterAdd i

/-- The first call for the layer that does not succeed. -/
def layerFailure (r : InstallReplies) (i : Layer) : Option LayerCall :=
  [.calloutRegister, .calloutAdd, .filterAdd].find? fun c => !ntSuccess (r.status i c)

/-- Every call before the first one for the layer succeeds. -/
def Reaches (r : InstallReplies) (i : Layer) : Prop :=
  ntSuccess r.engineOpen ∧ ntSuccess r.transactionBegin ∧ ntSuccess r.providerAdd ∧
    ntSuccess r.subLayerAdd ∧ ∀ j < i, r.layerFailure j = none

def Succeeds (r : InstallReplies) : Prop :=
  ntSuccess r.engineOpen ∧ ntSuccess r.transactionBegin ∧ ntSuccess r.providerAdd ∧
    ntSuccess r.subLayerAdd ∧ (∀ i, r.layerFailure i = none) ∧ ntSuccess r.transactionCommit

instance (r : InstallReplies) (i : Layer) : Decidable (r.Reaches i) :=
  inferInstanceAs (Decidable (_ ∧ _))

end InstallReplies

/-! ### One layer -/

/-- Every registration of the layer that may still be in the kernel has its object. -/
def WfpSlot.Tracked (s : WfpSlot) : Prop :=
  ∀ id ∈ s.registered, s.callout.calloutRuntimeId = id ∧
    (s.callout.state = .registered ∨ s.callout.state = .active ∨ s.callout.state = .leaked)

theorem WfpObject.delete_state (o : WfpObject) (st st' : NtStatus) :
    (o.delete st st').1.state = o.state ∨ (o.delete st st').1.state = .deleted ∨
      (o.delete st st').1.state = .leaked := by
  unfold WfpObject.delete
  repeat' split
  all_goals simp

theorem WfpObject.delete_not_installed (h : o.isInstalled = false) :
    (o.delete st st').1.isInstalled = false := by
  rcases o.delete_state st st' with hs | hs | hs
  · rw [WfpObject.isInstalled, hs]
    exact h
  · simp [WfpObject.isInstalled, hs]
  · simp [WfpObject.isInstalled, hs]

namespace WfpSlot

theorem tracked_of_registered_eq_nil (h : s.registered = []) : s.Tracked := by
  simp [Tracked, h]

theorem Tracked.registered_eq_nil (h : s.Tracked) (hs : s.callout.isInstalled = false)
    (hl : s.callout.state ≠ .leaked) : s.registered = [] := by
  refine List.eq_nil_iff_forall_not_mem.mpr fun id hid => ?_
  have hst := (h id hid).2
  simp_all [WfpObject.isInstalled]

/-- An unregister that is confirmed clears the layer's registrations, any other leaves the
callout LEAKED over them. -/
theorem unregister_spec (reply : ℕ → NtStatus) (h : s.Tracked)
    (ho : s.callout.isInstalled = true) :
    ∃ st b l, s.unregister reply = { s with
      callout := { s.callout with
        lastStatus := st
        busyRetries := b
        state := if WfpObject.UnregisterConfirmed reply wfpBusyRetries then .deleted
          else .leaked }
      registered := l } ∧
      (if WfpObject.UnregisterConfirmed reply wfpBusyRetries then l = []
        else l = s.registered) := by
  obtain ⟨⟨st, b, heq⟩, hst⟩ := WfpObject.unregister_eq reply wfpBusyRetries ho
  refine ⟨st, b, _, by rw [unregister, heq], ?_⟩
  simp only [hst]
  split
  · refine List.filter_eq_nil_iff.mpr fun id hid => ?_
    simp [(h id hid).1]
  · rfl

theorem unregister_tracked (reply : ℕ → NtStatus) (h : s.Tracked)
    (ho : s.callout.isInstalled = true) :
    (s.unregister reply).Tracked ∧ (s.unregister reply).callout.isInstalled = false := by
  obtain ⟨st, b, l, heq, hl⟩ := unregister_spec reply h ho
  rw [heq]
  by_cases hc : WfpObject.UnregisterConfirmed reply wfpBusyRetries
  · rw [if_pos hc] at hl
    subst hl
    refine ⟨tracked_of_registered_eq_nil rfl, by simp [WfpObject.isInstalled, hc]⟩
  · rw [if_neg hc] at hl
    subst hl
    refine ⟨fun id hid => ⟨(h id hid).1, ?_⟩, by simp [WfpObject.isInstalled, hc]⟩
    simp [hc]

/-- Deleting the engine side of a callout that is neither installed nor LEAKED. -/
theorem tracked_delete (h : s.Tracked) (ho : s.callout.isInstalled = false)
    (hl : s.callout.state ≠ .leaked) :
    ({ s with callout := (s.callout.delete st st').1 } : WfpSlot).Tracked ∧
      (s.callout.delete st st').1.isInstalled = false :=
  ⟨tracked_of_registered_eq_nil (h.registered_eq_nil ho hl), WfpObject.delete_not_installed ho⟩

theorem rollbackFilter_tracked (h : s.Tracked) : (s.rollbackFilter q i).1.Tracked := by
  unfold rollbackFilter
  split <;> exact h

theorem rollbackCallout_tracked (h : s.Tracked) : (s.rollbackCallout q i).1.Tracked ∧
    (s.rollbackCallout q i).1.callout.isInstalled = false := by
  unfold rollbackCallout
  by_cases ho : s.callout.isInstalled = true
  · obtain ⟨ht, hi⟩ := unregister_tracked (q.unregister i) h ho
    rw [if_pos ho]
    by_cases hl : (s.unregister (q.unregister i)).callout.state = .leaked
    · simpa [hl] using ⟨ht, hi⟩
    · by_cases hid : (s.unregister (q.unregister i)).callout.calloutId = 0
      · simpa [hl, hid] using ⟨ht, hi⟩
      · simpa [hl, hid] using tracked_delete ht hi hl
  · rw [if_neg ho]
    exact ⟨h, by simpa using ho⟩

theorem rollback_tracked (h : s.Tracked) :
    (s.rollback q i).1.Tracked ∧ (s.rollback q i).1.callout.isInstalled = false :=
  rollbackCallout_tracked (rollbackFilter_tracked h)

/-- The rollback passes over a callout that is not REGISTERED or ACTIVE. -/
theorem rollback_callout_of_not_installed (ho : s.callout.isInstalled = false) :
    (s.rollback q i).1.callout = s.callout ∧ (s.rollback q i).1.registered = s.registered := by
  have hf : (s.rollbackFilter q i).1.callout = s.callout ∧
      (s.rollbackFilter q i).1.registered = s.registered := by
    unfold rollbackFilter
    split <;> exact ⟨rfl, rfl⟩
  have hc : ((s.rollbackFilter q i).1.rollbackCallout q i).1 = (s.rollbackFilter q i).1 := by
    rw [rollbackCallout, if_neg (by simp [hf.1, ho])]
  rw [rollback, hc]
  exact hf

theorem teardownUnregister_tracked (h : s.Tracked) :
    (s.teardownUnregister q i).1.Tracked ∧
      (s.teardownUnregister q i).1.callout.isInstalled = false := by
  unfold teardownUnregister
  by_cases ho : s.callout.isInstalled = true
  · rw [if_pos ho]
    exact unregister_tracked _ h ho
  · rw [if_neg ho]
    exact ⟨h, by simpa using ho⟩

theorem teardownFilter_callout : (s.teardownFilter q i).1.callout = s.callout ∧
    (s.teardownFilter q i).1.registered = s.registered := by
  unfold teardownFilter
  split <;> exact ⟨rfl, rfl⟩

theorem teardownCallout_tracked (h : s.Tracked) (ho : s.callout.isInstalled = false) :
    (s.teardownCallout q i).1.Tracked ∧
      (s.teardownCallout q i).1.callout.isInstalled = false := by
  unfold teardownCallout
  split
  · rename_i hd
    exact tracked_delete h ho hd.2
  · exact ⟨h, ho⟩

theorem teardownDelete_tracked (h : s.Tracked) (ho : s.callout.isInstalled = false) :
    (s.teardownDelete q i).1.Tracked ∧
      (s.teardownDelete q i).1.callout.isInstalled = false := by
  obtain ⟨hc, hr⟩ := teardownFilter_callout (s := s) (q := q) (i := i)
  refine teardownCallout_tracked ?_ (hc ▸ ho)
  rw [Tracked, hc, hr]
  exact h

theorem teardown_tracked (h : s.Tracked) :
    ((s.teardownUnregister q i).1.teardownDelete q i).1.Tracked ∧
      ((s.teardownUnregister q i).1.teardownDelete q i).1.callout.isInstalled = false :=
  teardownDelete_tracked (teardownUnregister_tracked h).1 (teardownUnregister_tracked h).2

/-- One round of the Install loop on an object reset before it: only a failing
`FwpmCalloutAdd0` loses track of the registration just made. -/
theorem install_reset (h : s.registered = []) :
    ((s.reset i).install r i).2 = (r.layerFailure i).map (r.status i) ∧
      (((s.reset i).install r i).1.Tracked ↔ r.layerFailure i ≠ some .calloutAdd) ∧
      (r.layerFailure i = some .calloutAdd →
        ((s.reset i).install r i).1.callout.isInstalled = false) := by
  by_cases h₁ : ntSuccess (r.calloutRegister i) = true <;>
    by_cases h₂ : ntSuccess (r.calloutAdd i) = true <;>
      by_cases h₃ : ntSuccess (r.filterAdd i) = true <;>
        simp [install, reset, WfpObject.registerCallout, WfpObject.addCallout,
          WfpObject.addFilter, calloutDefById, WfpObject.wfpDefByCalloutKey_self,
          InstallReplies.layerFailure, InstallReplies.status, Tracked, WfpObject.isInstalled, h,
          h₁, h₂, h₃]

end WfpSlot

/-! ### The manager -/

namespace WfpManager

def Tracked (m : WfpManager) : Prop := ∀ i, (m.slots i).Tracked

/-- In an Install that is not turned away at its entry, `FwpmCalloutAdd0` is not the first
call to fail. -/
def CalloutAddSafe (m : WfpManager) : Action → Prop
  | .install r => m.installed = false → m.hasLeaked = false →
      ∀ i, r.Reaches i → r.layerFailure i ≠ some .calloutAdd
  | .teardown _ => True

/-- Between the calls no callout outlives the Install it belongs to. -/
structure TrackInvariant (m : WfpManager) : Prop where
  tracked : m.Tracked
  not_installed : m.installed = false → ∀ i, (m.slots i).callout.isInstalled = false

/-- The layers before the failing one and that one have been visited, in order. -/
theorem mem_pre_or_eq {pre post : List Layer} (hl : layers = pre ++ k :: post) :
    j ∈ pre ∨ j = k ↔ j ≤ k := by
  have hp : (pre ++ k :: post).Pairwise (· < ·) := hl ▸ List.pairwise_lt_finRange 6
  obtain ⟨-, hk, hlt⟩ := List.pairwise_append.mp hp
  constructor
  · rintro (hj | rfl)
    · exact (hlt j hj k List.mem_cons_self).le
    · exact le_rfl
  · intro hj
    have hm : j ∈ pre ++ k :: post := hl ▸ mem_layers j
    rcases List.mem_append.mp hm with hm | hm
    · exact .inl hm
    rcases List.mem_cons.mp hm with hm | hm
    · exact .inr hm
    · exact absurd ((List.pairwise_cons.mp hk).1 j hm) (not_lt.mpr hj)

/-- The layers an Install reaches have had their round, the others are as reset. -/
theorem installSteps_spec (ho : ntSuccess r.engineOpen = true)
    (hr : ∀ i, (m.slots i).registered = []) :
    (((m.reset.openEngine r).installSteps r).1.slots = fun i =>
      if r.Reaches i then (((m.slots i).reset i).install r i).1 else (m.slots i).reset i) ∧
    (((m.reset.openEngine r).installSteps r).2 = none ↔ r.Succeeds) := by
  by_cases h₁ : ntSuccess r.transactionBegin = true
  case neg => simp [installSteps, InstallReplies.Reaches, InstallReplies.Succeeds, h₁,
    openEngine, reset]
  by_cases h₂ : ntSuccess r.providerAdd = true
  case neg => simp [installSteps, InstallReplies.Reaches, InstallReplies.Succeeds, h₁, h₂,
    openEngine, reset, addProvider]
  by_cases h₃ : ntSuccess r.subLayerAdd = true
  case neg => simp [installSteps, InstallReplies.Reaches, InstallReplies.Succeeds, h₁, h₂, h₃,
    openEngine, reset, addProvider, addSubLayer]
  have hreach : ∀ i, r.Reaches i ↔ ∀ j < i, r.layerFailure j = none := by
    simp [InstallReplies.Reaches, ho, h₁, h₂, h₃]
  have hst : ∀ i, (((m.slots i).reset i).install r i).2 =
      (r.layerFailure i).map (r.status i) := fun i => (WfpSlot.install_reset (hr i)).1
  have hnone : ∀ i, (((m.slots i).reset i).install r i).2 = none ↔ r.layerFailure i = none := by
    simp [hst]
  let f : Layer → WfpSlot := fun i => (m.slots i).reset i
  have hs : ((m.reset.openEngine r).installSteps r).1.slots =
      (visitUntil (WfpSlot.install r) layers f).1 := by
    simp only [installSteps, h₁, h₂, h₃, if_true]
    repeat' split
    all_goals rfl
  have hres : ((m.reset.openEngine r).installSteps r).2 = none ↔
      (visitUntil (WfpSlot.install r) layers f).2 = none ∧
        ntSuccess r.transactionCommit = true := by
    have hf : ∀ n : WfpManager, n.slots = f → visitUntil (WfpSlot.install r) layers n.slots =
        visitUntil (WfpSlot.install r) layers f := fun n hn => by rw [hn]
    simp only [installSteps, h₁, h₂, h₃, if_true]
    rw [hf _ rfl]
    cases (visitUntil (WfpSlot.install r) layers f).2 with
    | some st => simp
    | none => by_cases hc : ntSuccess r.transactionCommit = true <;> simp [hc]
  rw [hs, hres]
  cases hv : (visitUntil (WfpSlot.install r) layers f).2 with
  | none =>
    obtain ⟨hok, hcell⟩ := visitUntil_none layers_nodup hv
    have hlf : ∀ i, r.layerFailure i = none := fun i => (hnone i).mp (hok i (mem_layers i))
    refine ⟨funext fun i => ?_, by simp [InstallReplies.Succeeds, ho, h₁, h₂, h₃, hlf]⟩
    rw [hcell i, if_pos (mem_layers i), if_pos ((hreach i).mpr fun j _ => hlf j)]
  | some st =>
    obtain ⟨pre, k, post, hl, hk, hpre, hcell⟩ := visitUntil_some layers_nodup hv
    have hkf : r.layerFailure k ≠ none := by
      rw [Ne, ← hnone k, show (((m.slots k).reset k).install r k).2 = some st from hk]
      simp
    have hle : ∀ j, r.Reaches j ↔ j ≤ k := by
      intro j
      rw [hreach]
      refine ⟨fun h => not_lt.mp fun hlt => hkf (h k hlt), fun hj l hlj => ?_⟩
      rcases (mem_pre_or_eq hl).mpr (hlj.le.trans hj) with hm | rfl
      · exact (hnone l).mp (hpre l hm)
      · exact absurd hlj (not_lt.mpr hj)
    refine ⟨funext fun j => ?_, ?_⟩
    · rw [hcell j]
      by_cases hj : j ≤ k
      · rw [if_pos ((mem_pre_or_eq hl).mpr hj), if_pos ((hle j).mpr hj)]
      · rw [if_neg (mt (mem_pre_or_eq hl).mp hj), if_neg (mt (hle j).mp hj)]
    · have : ¬ r.Succeeds := fun h => hkf (h.2.2.2.2.1 k)
      simp [this]

theorem trackInvariant_initial : TrackInvariant initial where
  tracked _ := WfpSlot.tracked_of_registered_eq_nil rfl
  not_installed _ _ := rfl

theorem TrackInvariant.registered_eq_nil (hi : TrackInvariant m) (h : m.installed = false)
    (hl : m.hasLeaked = false) (i : Layer) : (m.slots i).registered = [] :=
  (hi.tracked i).registered_eq_nil (hi.not_installed h i)
    ((hasLeaked_eq_false.mp hl).2.2.2 i).1

/-- A round of the Install that does not fail at `FwpmCalloutAdd0` keeps track of its
registration, and a rollback after it keeps that. -/
theorem tracked_round (hr : (m.slots i).registered = [])
    (hg : r.Reaches i → r.layerFailure i ≠ some .calloutAdd) :
    (if r.Reaches i then (((m.slots i).reset i).install r i).1
      else (m.slots i).reset i).Tracked := by
  split
  · rename_i h
    exact (WfpSlot.install_reset hr).2.1.mpr (hg h)
  · exact WfpSlot.tracked_of_registered_eq_nil hr

theorem install_tracked (hi : TrackInvariant m)
    (hg : CalloutAddSafe m (.install r)) : TrackInvariant (m.install r).1 := by
  rcases install_cases m r with ⟨-, he⟩ | ⟨-, -, he⟩ | ⟨h, hl, hc⟩
  · rwa [he]
  · rwa [he]
  have hr := hi.registered_eq_nil h hl
  have hround := fun i => tracked_round (hr i) (hg h hl i)
  rcases hc with ⟨ho, he⟩ | ⟨ho, hs, he⟩ | ⟨st, ho, hs, he⟩
  · rw [he]
    exact ⟨fun i => WfpSlot.tracked_of_registered_eq_nil (hr i), fun _ _ => rfl⟩
  · rw [he]
    refine ⟨fun i => ?_, nofun⟩
    simpa only [(installSteps_spec ho hr).1] using hround i
  · rw [he]
    have hsome : ((m.reset.openEngine r).installSteps r).1.engine.isSome = true := by
      rw [openEngine_installSteps_engine ho]
      rfl
    obtain ⟨rt, hrb⟩ := rollbackInstall_eq (q := r.toRemovals) hsome
    rw [hrb]
    refine ⟨fun i => ?_, fun _ i => ?_⟩ <;>
      simp only [closeEngine_slots, rollbackSteps_eq, (installSteps_spec ho hr).1]
    · exact (WfpSlot.rollback_tracked (hround i)).1
    · exact (WfpSlot.rollback_tracked (hround i)).2

theorem teardown_trackInvariant (hi : TrackInvariant m) : TrackInvariant (m.teardown q).1 := by
  have hslot := fun i => WfpSlot.teardown_tracked (q := q) (i := i) (hi.tracked i)
  have hsteps : ∀ i, ((m.teardownSteps q).1.slots i).Tracked ∧
      ((m.teardownSteps q).1.slots i).callout.isInstalled = false := by
    rw [teardownSteps_eq]
    exact hslot
  rcases teardown_cases m q with ⟨-, -, he⟩ | ⟨-, -, he⟩ | ⟨-, -, -, he⟩ | ⟨-, -, -, rt, he⟩ |
    ⟨-, -, -, he⟩
  · rwa [he]
  · rw [he]
    exact ⟨fun i => (hsteps i).1, fun _ i => (hsteps i).2⟩
  · rw [he]
    refine ⟨fun i => ?_, fun _ i => ?_⟩ <;> simp only [closeEngine_slots]
    exacts [(hsteps i).1, (hsteps i).2]
  · rw [he]
    refine ⟨fun i => ?_, fun _ i => ?_⟩ <;> simp only [closeEngine_slots]
    exacts [(hsteps i).1, (hsteps i).2]
  · rw [he]
    exact ⟨fun i => (hsteps i).1, fun _ i => (hsteps i).2⟩

theorem trackInvariant_reachable (h : (system.restrict CalloutAddSafe).Reachable m) :
    TrackInvariant m := by
  refine h.invariant (by rintro m rfl; exact trackInvariant_initial) ?_
  rintro m a n ⟨hg, hs⟩ hi
  cases hs with
  | install => exact install_tracked hi hg
  | teardown => exact teardown_trackInvariant hi

/-- In runs under the guard every callout that may still be registered with the kernel has
its object in state REGISTERED, ACTIVE or LEAKED. -/
theorem tracked_reachable (h : (system.restrict CalloutAddSafe).Reachable m) : m.Tracked :=
  (trackInvariant_reachable h).tracked

/-- The guard is exact: an Install outside it leaves a registration without its object. -/
theorem install_tracked_iff (hi : TrackInvariant m) :
    (m.install r).1.Tracked ↔ CalloutAddSafe m (.install r) := by
  refine ⟨fun ht h hl i hreach hfail => ?_, fun hg => (install_tracked hi hg).tracked⟩
  have hr := hi.registered_eq_nil h hl
  have ho : ntSuccess r.engineOpen = true := hreach.1
  rcases install_cases m r with ⟨h', -⟩ | ⟨-, hl', -⟩ | ⟨-, -, hc⟩
  · simp [h] at h'
  · simp [hl] at hl'
  rcases hc with ⟨ho', -⟩ | ⟨-, hs, -⟩ | ⟨st, -, -, he⟩
  · simp [ho] at ho'
  · have hsuc := (installSteps_spec ho hr).2.mp hs
    simp [hsuc.2.2.2.2.1 i] at hfail
  · have hsome : ((m.reset.openEngine r).installSteps r).1.engine.isSome = true := by
      rw [openEngine_installSteps_engine ho]
      rfl
    obtain ⟨rt, hrb⟩ := rollbackInstall_eq (q := r.toRemovals) hsome
    have hti := ht i
    rw [he, hrb] at hti
    simp only [closeEngine_slots, rollbackSteps_eq, (installSteps_spec ho hr).1,
      if_pos hreach] at hti
    obtain ⟨-, hround, hdead⟩ := WfpSlot.install_reset (r := r) (hr i)
    -- The rollback skips a FAILED callout, and with it the registration behind it.
    obtain ⟨hco, hrg⟩ := WfpSlot.rollback_callout_of_not_installed (q := r.toRemovals) (i := i)
      (hdead hfail)
    rw [WfpSlot.Tracked, hco, hrg] at hti
    exact hround.mp hti hfail

/-- Replies of an Install in which every call succeeds, and its rollback if there is one. -/
def repliesSuccess : InstallReplies where
  unregister _ _ := statusSuccess
  filterDelete _ := statusSuccess
  calloutDelete _ := statusSuccess
  subLayerDelete := statusSuccess
  providerDelete := statusSuccess
  engineClose := statusSuccess
  engineOpen := statusSuccess
  handle := 1
  transactionBegin := statusSuccess
  providerAdd := statusSuccess
  subLayerAdd := statusSuccess
  calloutRegister _ := statusSuccess
  calloutRuntimeId i := .ofNat (i.val + 1)
  calloutAdd _ := statusSuccess
  calloutId i := .ofNat (i.val + 1)
  filterAdd _ := statusSuccess
  filterId i := .ofNat (i.val + 1)
  filterId_ne := by decide
  transactionCommit := statusSuccess

/-- The first layer's `FwpmCalloutAdd0` fails after its `FwpsCalloutRegister1` succeeded. -/
def repliesCalloutAddFails : InstallReplies :=
  { repliesSuccess with calloutAdd := fun _ => statusUnsuccessful }

theorem reachable_install (r : InstallReplies) : system.Reachable (initial.install r).1 :=
  (System.Reachable.of_init rfl).step (a := .install r) .install

/-- After that Install the callout is FAILED and still registered. -/
theorem calloutAdd_untracked : ∃ m, system.Reachable m ∧ ¬ m.Tracked :=
  ⟨_, reachable_install repliesCalloutAddFails, fun h =>
    (install_tracked_iff trackInvariant_initial).mp h rfl rfl 0 (by decide) (by decide)⟩

theorem tracked_reachable_installed :
    (system.restrict CalloutAddSafe).Reachable (initial.install repliesSuccess).1 ∧
      (initial.install repliesSuccess).1.Tracked := by
  have hg : CalloutAddSafe initial (.install repliesSuccess) := by
    intro _ _ i _
    revert i
    decide
  have hr : (system.restrict CalloutAddSafe).Reachable (initial.install repliesSuccess).1 :=
    (System.Reachable.of_init rfl).step (a := .install repliesSuccess) ⟨hg, .install⟩
  exact ⟨hr, tracked_reachable hr⟩

end WfpManager

end Sentinel
