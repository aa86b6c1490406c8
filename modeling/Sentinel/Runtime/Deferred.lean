import Sentinel.Runtime.Driver
import Sentinel.Wfp.Tracking

/-! Whether an Install that `DriverEntry` has left to the BFE callback is made. -/
namespace Sentinel.Driver

open Transition

variable {s t : State} {a : Action} {k : Callback} {cs : Multiset Callback}

/-- Since BFE last became RUNNING a full Install has succeeded or one has failed. -/
def State.Tried (s : State) : Prop := s.period ∈ s.succeeded ∨ s.period ∈ s.failed

/-- A RUNNING callback that has yet to test whether the runtime is active. -/
def Callback.isUntested : Callback → Bool
  | .bfe (.acquire service) | .bfe (.acquireCas service _) | .bfe (.body service) =>
    service = .running
  | .bfe .release | .bfe .rollback | .bfe .report | .install | .installing _ => false

/-- `DriverEntry` is between its look at BFE and the end of the activation. -/
def Main.isAsked : Main → Bool
  | .installing _ | .init true | .initCount true | .activate => true
  | .init false | .initCount false | .create | .start _ | .subscribe | .bfeState | .install
  | .loaded | .rollback | .quiesce _ _ _ | .rollbackDestroy | .blockStart | .failed | .unload
  | .destroy _ => false

/-- BFE has become RUNNING since `SkLifecycleStart` looked at it, under a runtime that is yet
to be activated. -/
def State.Overlooked (s : State) : Prop := s.main.isAsked = true ∧ s.seen ≠ s.period

/-- Neither a rollback nor the unload has begun. -/
def Main.isLive : Main → Bool
  | .init _ | .initCount _ | .create | .start _ | .subscribe | .bfeState | .install
  | .installing _ | .activate | .loaded => true
  | .rollback | .quiesce _ _ _ | .rollbackDestroy | .blockStart | .failed | .unload
  | .destroy _ => false

/-- An Install that began in period `p` fails, or BFE has not become RUNNING since. -/
def State.Timely (s : State) (p : ℕ) (r : InstallReplies) : Prop :=
  s.main.isLive = true → p = s.period ∨ ntSuccess (s.manager.install r).2 = false

/-- A RUNNING callback tests the runtime after the activation, unless it is about a start of
BFE that `SkLifecycleStart` has seen, and the rundown lets it in. BFE does not become RUNNING
while `installed` is set, or in an Install that is to set it. -/
def Kept (s : State) : Action → Prop
  | .bfe service => service = .running → s.main.isLive = true → s.wfp.installed = false
  | .callback (.bfe (.acquire .running)) _ =>
    s.runtime.state = .active ∨ s.Overlooked → rundownMayAcquire s.count = true
  | .callback (.bfe (.body .running)) _ => ¬ s.Overlooked
  | .callback (.installing p) r => s.Timely p r
  | .main a => ∀ p, s.main = .installing p → s.Timely p a.wfp
  | .callback _ _ | .report | .reportCheck | .reportEnter | .unload _ | .quiescentCheck
  | .quiescentEnter | .quiesced _ | .destroy _ | .shutdownStuck | .destroyed => True

/-! ### An active runtime has been set up -/

/-- `g_SkDevice` is set. -/
def Main.isStarted : Main → Bool
  | .start _ | .subscribe | .bfeState | .install | .installing _ | .init true | .initCount true
  | .activate | .loaded => true
  | .init false | .initCount false | .create | .rollback | .quiesce _ _ _ | .rollbackDestroy
  | .blockStart | .failed | .unload | .destroy _ => false

/-- BFE calls back. -/
def Main.isSubscribed : Main → Bool
  | .bfeState | .install | .installing _ | .init true | .initCount true | .activate
  | .loaded => true
  | .init false | .initCount false | .create | .start _ | .subscribe | .rollback
  | .quiesce _ _ _ | .rollbackDestroy | .blockStart | .failed | .unload | .destroy _ => false

structure SetUp (s : State) : Prop where
  active : s.runtime.state = .active → s.main = .loaded
  device : s.main.isStarted = true → s.device = true
  subscribed : s.main.isSubscribed = true → s.subscribed = true

theorem setUp_initial (service : Bfe.ServiceState) : SetUp (initial service) where
  active := nofun
  device := nofun
  subscribed := nofun

theorem setUp_runMain {r : Replies} (h : SetUp s) :
    ((s.runMain r).main.isStarted = true → (s.runMain r).device = true) ∧
      ((s.runMain r).main.isSubscribed = true → (s.runMain r).subscribed = true) := by
  have hd := h.device
  have hs := h.subscribed
  cases hm : s.main with
  | quiesce b q ok =>
    simp only [State.runMain, hm]
    by_cases hq : b = true ∧ q = .done
    · obtain ⟨rfl, rfl⟩ := hq
      cases ok <;> simp [State.runQuiesce, Quiesce.step, Main.isStarted, Main.isSubscribed]
    · obtain ⟨-, q', ok', hm', -⟩ :=
        runQuiesce_quiescedTo (r := r) hm fun hb he => hq ⟨hb, he⟩
      rw [hm']
      simp [Main.isStarted, Main.isSubscribed]
  | installing p =>
    have hi := (install_elsewhere (s := s) p r.wfp).1
    rw [hm] at hd hs
    simp only [State.runMain, hm]
    exact ⟨fun _ => hi.device.trans (hd rfl), fun _ => hi.subscribed.trans (hs rfl)⟩
  | init b | initCount b =>
    rw [hm] at hd hs
    cases b <;> simp only [State.runMain, hm] <;> (repeat' split) <;>
      simp_all [Main.isStarted, Main.isSubscribed, State.write]
  | _ =>
    rw [hm] at hd hs
    simp only [State.runMain, hm]
    (repeat' split) <;> simp_all [Main.isStarted, Main.isSubscribed, State.write]

/-- A step of the unload leaves no active runtime. -/
theorem not_active_unload {x : Unload.Action} {u : Unload.State}
    (hm : s.main = if x = .begin then .loaded else .unload)
    (hs : Unload.Step driverCallbacks s.unload x u) (h : SetUp s)
    (hl : s.runtime.Leads u.runtime) : u.runtime.state ≠ .active := by
  intro ha
  have hload := h.active (hl.active ha)
  have hx : x = .begin := by
    by_contra hx
    simp [hm, hx] at hload
  subst hx
  cases hs with
  | begin =>
    have hst : s.unload.runtime.state = .active := hl.active ha
    simp [Runtime.call, Runtime.beginTeardown, hst] at ha

theorem afterUnload_main (x : Unload.Action) :
    (afterUnload x).isStarted = false ∧ (afterUnload x).isSubscribed = false ∧
      (afterUnload x).isAsked = false ∧ (afterUnload x).isLive = false := by
  cases x with
  | call k => cases k <;> exact ⟨rfl, rfl, rfl, rfl⟩
  | _ => exact ⟨rfl, rfl, rfl, rfl⟩

theorem setUp_step (hs : system.step s a t) (h : SetUp s) : SetUp t := by
  have hactive : (∀ r, a ≠ .main r) → t.runtime.state = .active → s.main = .loaded :=
    fun hm ha => h.active (active_step hs hm ha)
  cases hs with
  | bfe => exact ⟨h.active, h.device, h.subscribed⟩
  | @callback k r cs =>
    have he : Elsewhere s (s.runCallback k cs r) := runCallback_elsewhere.1
    refine ⟨fun ha => ?_, fun hm => ?_, fun hm => ?_⟩
    · exact he.main.trans (h.active ((leads_runCallback s k cs r).active ha))
    · exact he.device.trans (h.device (he.main ▸ hm))
    · exact he.subscribed.trans (h.subscribed (he.main ▸ hm))
  | report => exact ⟨h.active, h.device, h.subscribed⟩
  | reportCheck => exact ⟨hactive (by simp), h.device, h.subscribed⟩
  | reportEnter => exact ⟨hactive (by simp), h.device, h.subscribed⟩
  | @main r =>
    obtain ⟨hd, hsub⟩ := setUp_runMain (r := r) h
    refine ⟨fun ha => ?_, hd, hsub⟩
    by_cases hm : s.main = .activate
    · simp [State.runMain, hm]
    · have hl := h.active ((leads_runMain r hm).active ha)
      simp [State.runMain, hl]
  | @unload x u hm hx _ hu =>
    obtain ⟨hd, hsub, -⟩ := afterUnload_main x
    refine ⟨fun ha => ?_, by simp [hd], by simp [hsub]⟩
    exact absurd ha (not_active_unload hm hu h (leads_unload hu hx.1))
  | quiescentCheck => exact ⟨h.active, h.device, h.subscribed⟩
  | quiescentEnter =>
    refine ⟨by rintro ⟨⟩, ?_, ?_⟩ <;> simp [Main.isStarted, Main.isSubscribed]
  | quiesced hm =>
    refine ⟨fun ha => absurd (hactive (by simp) ha) (by simp [hm]), ?_, ?_⟩ <;>
      simp [Main.isStarted, Main.isSubscribed]
  | destroy hm =>
    refine ⟨fun ha => absurd (hactive (by simp) ha) (by simp [hm]), ?_, ?_⟩ <;>
      simp [Main.isStarted, Main.isSubscribed]
  | shutdownStuck hm =>
    refine ⟨fun ha => absurd (hactive (by simp) ha) (by simp [hm]), ?_, ?_⟩ <;>
      simp [State.write, hm, Main.isStarted, Main.isSubscribed]
  | destroyed hm =>
    refine ⟨fun ha => absurd (hactive (by simp) ha) (by simp [hm]), ?_, ?_⟩ <;>
      simp [Main.isStarted, Main.isSubscribed]

/-! ### What `installed` says -/

theorem live_runMain {r : Replies} (h : (s.runMain r).main.isLive = true) :
    s.main.isLive = true := by
  by_contra hl
  revert h
  cases hs : s.main with
  | quiesce b q ok =>
    simp only [State.runMain, hs]
    by_cases hq : b = true ∧ q = .done
    · obtain ⟨rfl, rfl⟩ := hq
      cases ok <;> simp [State.runQuiesce, Quiesce.step, Main.isLive]
    · obtain ⟨-, q', ok', hm', -⟩ :=
        runQuiesce_quiescedTo (r := r) hs fun hb he => hq ⟨hb, he⟩
      simp [hm', Main.isLive]
  | rollback | rollbackDestroy | blockStart | failed | unload | destroy pc =>
    simp only [State.runMain, hs]
    (repeat' split) <;> simp [Main.isLive]
  | _ => exact absurd (by rw [hs]; rfl) hl

theorem live_step (hs : system.step s a t) (h : t.main.isLive = true) :
    s.main.isLive = true := by
  cases hs with
  | @callback k r cs =>
    have he : Elsewhere s (s.runCallback k cs r) := runCallback_elsewhere.1
    rwa [he.main] at h
  | main => exact live_runMain h
  | @unload x => simp [afterUnload_main] at h
  | quiescentEnter => exact absurd h (by simp [Main.isLive])
  | quiesced => exact absurd h (by simp [Main.isLive])
  | destroy => exact absurd h (by simp [Main.isLive])
  | destroyed => exact absurd h (by simp [Main.isLive])
  | _ => exact h

/-- Before the unload, `installed` tells of a success since BFE last became RUNNING. -/
def Fresh (s : State) : Prop :=
  s.main.isLive = true → s.wfp.installed = true → s.period ∈ s.succeeded

theorem fresh_install {p : ℕ} {r : InstallReplies} (hg : s.Timely p r)
    (hl : s.main.isLive = true)
    (hi : (s.install p r).wfp.installed = true) :
    (s.install p r).period ∈ (s.install p r).succeeded := by
  have hm : (s.install p r).wfp = (s.manager.install r).1 := by
    simp only [State.install]
    split <;> rfl
  have hok : ntSuccess (s.manager.install r).2 = true :=
    WfpManager.install_installed_success (hm ▸ hi)
  obtain rfl : p = s.period := (hg hl).resolve_right (by simp [hok])
  simp only [State.install, if_pos hok]
  exact .head _

/-- From `s` to `t` neither BFE starts nor an Install succeeds. -/
structure Rests (s t : State) : Prop where
  installed : t.wfp.installed = true → s.wfp.installed = true
  period : t.period = s.period
  succeeded : t.succeeded = s.succeeded
  seen : t.seen = s.seen ∨ t.seen = t.period

theorem rests_check {u : State} {b : Bool} {q : Quiesce} {ok passed : Bool} {r : Runtime}
    (h : Rests s u) : Rests s (u.check b q ok passed r) := by
  unfold State.check
  split <;> exact ⟨h.installed, h.period, h.succeeded, h.seen⟩

theorem rests_runQuiesce {b : Bool} {q : Quiesce} {ok : Bool} {r : Replies} :
    Rests s (s.runQuiesce b q ok r) := by
  have hr : Rests s s := ⟨id, rfl, rfl, .inl rfl⟩
  unfold State.runQuiesce
  split
  · exact ⟨id, rfl, rfl, .inl rfl⟩
  cases q with
  | wfp => exact rests_check ⟨WfpManager.teardown_installed, rfl, rfl, .inl rfl⟩
  | unsubscribe | drain i =>
    simp only
    repeat' split
    all_goals first | exact rests_check hr | exact ⟨id, rfl, rfl, .inl rfl⟩
  | beginStop => exact ⟨id, rfl, rfl, .inl rfl⟩
  | done =>
    simp only
    split <;> exact ⟨id, rfl, rfl, .inl rfl⟩
  | _ => exact rests_check hr

theorem rests_runMain {r : Replies} (hm : ∀ p, s.main ≠ .installing p) :
    Rests s (s.runMain r) := by
  cases h : s.main with
  | installing p => exact absurd h (hm p)
  | quiesce b q ok =>
    simp only [State.runMain, h]
    exact rests_runQuiesce
  | bfeState | install =>
    simp only [State.runMain, h]
    repeat' split
    all_goals exact ⟨id, rfl, rfl, .inr rfl⟩
  | _ =>
    simp only [State.runMain, h]
    repeat' split
    all_goals exact ⟨id, rfl, rfl, .inl rfl⟩

theorem seen_step (hs : system.step s a t) (h : s.seen ≤ s.period) : t.seen ≤ t.period := by
  cases hs with
  | @bfe service =>
    simp only [State.change]
    split <;> omega
  | @callback k r cs =>
    have he : Elsewhere s (s.runCallback k cs r) := runCallback_elsewhere.1
    rwa [he.seen, he.period]
  | @main r =>
    by_cases hm : ∃ p, s.main = .installing p
    · obtain ⟨p, hm⟩ := hm
      obtain ⟨he, -, -⟩ := install_elsewhere (s := s) p r.wfp
      simp only [State.runMain, hm]
      exact he.seen.trans_le (h.trans he.period.ge)
    · have hr : Rests s (s.runMain r) := rests_runMain fun p hp => hm ⟨p, hp⟩
      have hp := hr.period
      rcases hr.seen with hs | hs <;> omega
  | _ => exact h

theorem fresh_step (hs : (system.restrict Kept).step s a t) (h : Fresh s) : Fresh t := by
  obtain ⟨hg, hs⟩ := hs
  intro ht
  have hl : s.main.isLive = true := live_step hs ht
  cases hs with
  | @bfe service =>
    intro hi
    by_cases hr : service = .running
    · have hn : s.wfp.installed = false := hg hr hl
      exact absurd (show s.wfp.installed = true from hi) (by simp [hn])
    · simpa [State.change, hr] using h hl hi
  | @callback k r cs =>
    cases k with
    | installing p => exact fresh_install hg hl
    | install =>
      simp only [State.runCallback]
      split <;> exact h hl
    | bfe k =>
      cases k with
      | body service =>
        simp only [State.runCallback]
        split <;> exact h hl
      | _ => exact h hl
  | @main r =>
    by_cases hm : ∃ p, s.main = .installing p
    · obtain ⟨p, hm⟩ := hm
      simp only [State.runMain, hm]
      exact fresh_install (hg p hm) hl
    · have hr : Rests s (s.runMain r) := rests_runMain fun p hp => hm ⟨p, hp⟩
      intro hi
      rw [hr.period, hr.succeeded]
      exact h hl (hr.installed hi)
  | _ => exact h hl

/-! ### The Install to come -/

/-- The callback is on its way to an Install that counts for the period. -/
def Callback.Promises (period : ℕ) : Callback → Prop
  | .bfe (.acquire service) | .bfe (.acquireCas service _) | .bfe (.body service) =>
    service = .running
  | .install => True
  | .installing p => p = period
  | .bfe .release | .bfe .rollback | .bfe .report => False

/-- Before the activation a RUNNING BFE has been tried, is being tried by `DriverEntry`, or
has a callback that will find the runtime active. -/
def Prepared (s : State) : Prop :=
  s.main.isAsked = true → s.service = .running →
    s.Tried ∨ s.main = .installing s.period ∨
      s.seen ≠ s.period ∧ ∃ k ∈ s.callbacks, k.isUntested = true

/-- Under an active runtime a RUNNING BFE has been tried or is about to be. -/
def Promised (s : State) : Prop :=
  s.runtime.state = .active → s.service = .running →
    s.Tried ∨ ∃ k ∈ s.callbacks, k.Promises s.period

theorem promises_of_isUntested {p : ℕ} (h : k.isUntested = true) : k.Promises p := by
  cases k with
  | bfe k => cases k <;> simp_all [Callback.isUntested, Callback.Promises]
  | install => trivial
  | installing => simp [Callback.isUntested] at h

theorem tried_install (p : ℕ) (r : InstallReplies) :
    (s.Tried → (s.install p r).Tried) ∧ (p = s.period → (s.install p r).Tried) := by
  simp only [State.install]
  split
  · exact ⟨Or.imp (.tail _) id, fun h => .inl (h ▸ .head _)⟩
  · exact ⟨Or.imp id (.tail _), fun h => .inr (h ▸ .head _)⟩

theorem mem_elim {n : Option Bfe.Callback} {k' : Callback} (h : k' ∈ cs) :
    k' ∈ n.elim cs (.bfe · ::ₘ cs) := by
  cases n with
  | none => exact h
  | some k => exact Multiset.mem_cons_of_mem h

/-- A callback leaves the attempts and the other callbacks. -/
theorem runCallback_keeps {r : InstallReplies} :
    (s.Tried → (s.runCallback k cs r).Tried) ∧
      ∀ k' ∈ cs, k' ∈ (s.runCallback k cs r).callbacks := by
  have hc : ∀ {k₁ k' : Callback}, k' ∈ cs → k' ∈ k₁ ::ₘ cs := Multiset.mem_cons_of_mem
  cases k with
  | bfe k =>
    cases k with
    | body service =>
      simp only [State.runCallback]
      split <;> exact ⟨id, fun k' => hc⟩
    | report => exact ⟨id, fun k' => id⟩
    | _ =>
      simp only [State.runCallback]
      exact ⟨id, fun k' h => mem_elim h⟩
  | install =>
    simp only [State.runCallback]
    split
    · exact ⟨id, fun k' => hc⟩
    · exact ⟨Or.imp id (.tail _), fun k' => hc⟩
    · exact ⟨id, fun k' => hc⟩
  | installing p => exact ⟨(tried_install p r).1, fun k' => hc⟩

/-- A RUNNING callback that the rundown lets in comes to its test. -/
theorem untested_callback {r : InstallReplies} (hk : k.isUntested = true)
    (ha : k = .bfe (.acquire .running) → rundownMayAcquire s.count = true)
    (hb : k ≠ .bfe (.body .running)) :
    ∃ k' ∈ (s.runCallback k cs r).callbacks, k'.isUntested = true := by
  cases k with
  | install => simp [Callback.isUntested] at hk
  | installing p => simp [Callback.isUntested] at hk
  | bfe k =>
    cases k with
    | acquire service =>
      obtain rfl : service = .running := by simpa [Callback.isUntested] using hk
      have hm := ha rfl
      refine ⟨.bfe (.acquireCas .running s.count), ?_, rfl⟩
      simp [State.runCallback, Bfe.Callback.next, hm]
    | acquireCas service c =>
      obtain rfl : service = .running := by simpa [Callback.isUntested] using hk
      by_cases hc : s.count = c
      · exact ⟨.bfe (.body .running), by simp [State.runCallback, Bfe.Callback.next, hc], rfl⟩
      · exact ⟨.bfe (.acquire .running), by simp [State.runCallback, Bfe.Callback.next, hc], rfl⟩
    | body service =>
      obtain rfl : service = .running := by simpa [Callback.isUntested] using hk
      exact absurd rfl hb
    | release => simp [Callback.isUntested] at hk
    | rollback => simp [Callback.isUntested] at hk
    | report => simp [Callback.isUntested] at hk

/-- A callback that promises an Install comes closer to it or makes it. -/
theorem promised_callback {r : InstallReplies} (hg : Kept s (.callback k r)) (h : SetUp s)
    (hf : Fresh s) (ha : s.runtime.state = .active) (hk : k.Promises s.period) :
    (s.runCallback k cs r).Tried ∨
      ∃ k' ∈ (s.runCallback k cs r).callbacks, k'.Promises s.period := by
  have htest : k.isUntested = true → k ≠ .bfe (.body .running) →
      ∃ k' ∈ (s.runCallback k cs r).callbacks, k'.Promises s.period := by
    intro hu hb
    obtain ⟨k', hk', hu'⟩ : ∃ k' ∈ (s.runCallback k cs r).callbacks, k'.isUntested = true := by
      refine untested_callback hu ?_ hb
      rintro rfl
      exact hg (.inl ha)
    exact ⟨k', hk', promises_of_isUntested hu'⟩
  cases k with
  | bfe k =>
    right
    cases k with
    | acquire service => exact htest (decide_eq_true hk) (by simp)
    | acquireCas service c => exact htest (decide_eq_true hk) (by simp)
    | body service =>
      obtain rfl : service = .running := hk
      have hd : s.device = true := h.device (by rw [h.active ha]; rfl)
      refine ⟨.install, ?_, trivial⟩
      simp [State.runCallback, Runtime.isActive, ha, hd]
    | release => exact hk.elim
    | rollback => exact hk.elim
    | report => exact hk.elim
  | install =>
    by_cases hi : s.wfp.installed = true
    · have hl : s.main.isLive = true := by rw [h.active ha]; rfl
      exact .inl (runCallback_keeps.1 (.inl (hf hl hi)))
    by_cases hl : s.wfp.hasLeaked = true
    · left
      simp [State.runCallback, State.tryInstall, hi, hl, State.Tried]
    · right
      refine ⟨.installing s.period, ?_, rfl⟩
      simp [State.runCallback, State.tryInstall, hi, hl]
  | installing p => exact .inl ((tried_install p r).2 hk)

/-- The question of `SkLifecycleStart`, its Install and the steps up to the activation. -/
theorem prepared_runMain {r : Replies} (hf : Fresh s) (h : Prepared s) :
    Prepared (s.runMain r) := by
  intro hm hb
  cases hs : s.main with
  | bfeState =>
    have hb' : s.service = .running := by
      simpa only [State.runMain, hs] using hb
    simp [State.runMain, hs, hb', Main.isAsked] at hm
  | install =>
    simp only [State.runMain, hs] at hm hb ⊢
    by_cases hi : s.wfp.installed = true
    · simp only [State.tryInstall, if_pos hi]
      exact .inl (.inl (hf (by rw [hs]; rfl) hi))
    by_cases hk : s.wfp.hasLeaked = true
    · simp [State.tryInstall, hi, hk, Main.isAsked] at hm
    · simp only [State.tryInstall, if_neg hi, if_neg hk]
      exact .inr (.inl trivial)
  | installing p =>
    simp only [State.runMain, hs] at hm hb ⊢
    obtain ⟨he, -, -⟩ := install_elsewhere (s := s) p r.wfp
    have hc : (s.install p r.wfp).callbacks = s.callbacks := by
      simp only [State.install]
      split <;> rfl
    obtain ⟨ht, hp⟩ := tried_install (s := s) p r.wfp
    rcases h (by rw [hs]; rfl) (he.service ▸ hb) with h | h | ⟨hne, k, hk, hu⟩
    · exact .inl (ht h)
    · rw [hs] at h
      exact .inl (hp (Main.installing.inj h))
    · refine .inr (.inr ⟨?_, k, hc ▸ hk, hu⟩)
      simpa [he.seen, he.period] using hne
  | init b | initCount b =>
    cases b with
    | false =>
      have hn : (s.runMain r).main.isAsked = false := by
        simp only [State.runMain, hs]
        by_cases hu : s.runtime.state = .uninitialized <;> simp [hu, Main.isAsked]
      simp [hn] at hm
    | true =>
      simp only [State.runMain, hs] at hb ⊢
      have hb' : s.service = .running := by
        revert hb
        (repeat' split) <;> exact id
      rcases h (by rw [hs]; rfl) hb' with h | h | h
      · left
        (repeat' split) <;> exact h
      · simp [hs] at h
      · right; right
        (repeat' split) <;> exact h
  | quiesce b q ok =>
    simp only [State.runMain, hs] at hm
    by_cases hq : b = true ∧ q = .done
    · obtain ⟨rfl, rfl⟩ := hq
      cases ok <;> simp [State.runQuiesce, Quiesce.step, Main.isAsked] at hm
    · obtain ⟨-, q', ok', hm', -⟩ :=
        runQuiesce_quiescedTo (r := r) hs fun hb he => hq ⟨hb, he⟩
      rw [hm'] at hm
      simp [Main.isAsked] at hm
  | _ =>
    simp only [State.runMain, hs] at hm
    revert hm
    (repeat' split) <;> simp [Main.isAsked]

theorem prepared_step (hs : (system.restrict Kept).step s a t) (hu : SetUp s) (hf : Fresh s)
    (hle : s.seen ≤ s.period) (h : Prepared s) : Prepared t := by
  obtain ⟨hg, hs⟩ := hs
  cases hs with
  | @bfe service =>
    intro hm hb
    obtain rfl : service = .running := hb
    have hsub : s.subscribed = true := by
      refine hu.subscribed ?_
      revert hm
      change s.main.isAsked = true → s.main.isSubscribed = true
      cases s.main with
      | init b | initCount b => cases b <;> simp [Main.isAsked, Main.isSubscribed]
      | _ => simp [Main.isAsked, Main.isSubscribed]
    refine .inr (.inr ⟨?_, .bfe (.acquire .running), ?_, rfl⟩)
    · simp [State.change]
      omega
    · simp [State.change, hsub]
  | @callback k r cs hk =>
    have he : Elsewhere s (s.runCallback k cs r) := runCallback_elsewhere.1
    obtain ⟨htried, hmem⟩ : (s.Tried → (s.runCallback k cs r).Tried) ∧
        ∀ k' ∈ cs, k' ∈ (s.runCallback k cs r).callbacks := runCallback_keeps
    intro hm hb
    rw [he.main] at hm ⊢
    rw [he.seen, he.period]
    rcases h hm (he.service ▸ hb) with h | h | ⟨hne, k', hk', hut⟩
    · exact .inl (htried h)
    · exact .inr (.inl h)
    · refine .inr (.inr ⟨hne, ?_⟩)
      rcases Multiset.mem_cons.mp (hk ▸ hk') with rfl | hk'
      · refine untested_callback hut ?_ ?_
        · rintro rfl
          exact hg (.inr ⟨hm, hne⟩)
        · rintro rfl
          exact hg ⟨hm, hne⟩
      · exact ⟨k', hmem k' hk', hut⟩
  | main => exact prepared_runMain hf h
  | @unload x => exact fun hm => absurd hm (by simp [afterUnload_main])
  | quiescentEnter => exact fun hm => absurd hm (by simp [Main.isAsked])
  | quiesced => exact fun hm => absurd hm (by simp [Main.isAsked])
  | destroy => exact fun hm => absurd hm (by simp [Main.isAsked])
  | destroyed => exact fun hm => absurd hm (by simp [Main.isAsked])
  | _ => exact h

theorem promised_step (hs : (system.restrict Kept).step s a t) (hu : SetUp s) (hf : Fresh s)
    (hp : Prepared s) (h : Promised s) : Promised t := by
  obtain ⟨hg, hs⟩ := hs
  intro ha hb
  -- Only the activation and the steps of callbacks and of BFE matter to an active runtime.
  have hload : (∀ r, a ≠ .main r) → s.runtime.state = .active := fun hm => active_step hs hm ha
  have hmain : ∀ {m : Main}, (∀ r, a ≠ .main r) → s.main = m → m = .loaded := by
    intro m hne hm
    exact hm.symm.trans (hu.active (hload hne))
  cases hs with
  | @bfe service =>
    have hsub : s.subscribed = true :=
      hu.subscribed (by rw [hu.active (hload (by simp))]; rfl)
    obtain rfl : service = .running := hb
    refine .inr ⟨.bfe (.acquire .running), ?_, rfl⟩
    simp [State.change, hsub]
  | @callback k r cs hk =>
    have hr : s.runtime.state = .active := hload (by simp)
    have he : Elsewhere s (s.runCallback k cs r) := runCallback_elsewhere.1
    have hb' : s.service = .running := he.service ▸ hb
    obtain ⟨htried, hmem⟩ : (s.Tried → (s.runCallback k cs r).Tried) ∧
        ∀ k' ∈ cs, k' ∈ (s.runCallback k cs r).callbacks := runCallback_keeps
    rw [he.period]
    rcases h hr hb' with ht | ⟨k', hk', hp⟩
    · exact .inl (htried ht)
    · rcases Multiset.mem_cons.mp (hk ▸ hk') with rfl | hk'
      · exact promised_callback hg hu hf hr hp
      · exact .inr ⟨k', hmem k' hk', hp⟩
  | report => exact h (hload (by simp)) hb
  | reportCheck => exact h (hload (by simp)) hb
  | reportEnter => exact h (hload (by simp)) hb
  | @main r =>
    by_cases hm : s.main = .activate
    · have he : s.runMain r = { s.write s.runtime.activate with main := .loaded } := by
        simp only [State.runMain, hm]
      rw [he] at ha hb ⊢
      rcases hp (by rw [hm]; rfl) hb with ht | hi | ⟨-, k, hk, hut⟩
      · exact .inl ht
      · simp [hm] at hi
      · exact .inr ⟨k, hk, promises_of_isUntested hut⟩
    · have hact := (leads_runMain r hm).active ha
      have hl := hu.active hact
      have he : s.runMain r = s := by simp only [State.runMain, hl]
      rw [he] at hb ⊢
      exact h hact hb
  | @unload x u hm hx _ hstep =>
    exact absurd ha (not_active_unload hm hstep hu (leads_unload hstep hx.1))
  | quiescentCheck => exact h (hload (by simp)) hb
  | quiescentEnter => cases ha
  | quiesced hm => exact absurd (hmain (by simp) hm) (by simp)
  | destroy hm => exact absurd (hmain (by simp) hm) (by simp)
  | shutdownStuck hm => exact absurd (hmain (by simp) hm) (by simp)
  | destroyed hm => exact absurd (hmain (by simp) hm) (by simp)

/-- What is known of the Install at any time. -/
structure Tracked (s : State) : Prop where
  setUp : SetUp s
  seen : s.seen ≤ s.period
  fresh : Fresh s
  prepared : Prepared s
  promised : Promised s

theorem tracked_initial (service : Bfe.ServiceState) : Tracked (initial service) where
  setUp := setUp_initial service
  seen := le_rfl
  fresh _ hi := by simp [initial, WfpManager.initial] at hi
  prepared hm := by simp [initial, Main.isAsked] at hm
  promised ha := by simp [initial, State.runtime, Runtime.initial] at ha

theorem tracked_step (hs : (system.restrict Kept).step s a t) (h : Tracked s) : Tracked t where
  setUp := setUp_step hs.2 h.setUp
  seen := seen_step hs.2 h.seen
  fresh := fresh_step hs h.fresh
  prepared := prepared_step hs h.setUp h.fresh h.seen h.prepared
  promised := promised_step hs h.setUp h.fresh h.prepared h.promised

theorem promised_reachable (h : (system.restrict Kept).Reachable s) : Promised s := by
  obtain ⟨s₀, as, ⟨service, rfl⟩, hr⟩ := h
  have hi : Tracked s := by
    refine hr.preserves (I := Tracked) ?_ (tracked_initial service)
    intro s a t hs h
    exact tracked_step hs h
  exact hi.promised

/-- An active driver at rest under a RUNNING BFE has tried to install since BFE became
RUNNING. -/
theorem deferred_install (h : (system.restrict Kept).Reachable s)
    (ha : s.runtime.state = .active) (hb : s.service = .running) (hc : s.callbacks = 0) :
    s.period ∈ s.succeeded ∨ s.period ∈ s.failed := by
  rcases promised_reachable h ha hb with ht | ⟨k, hk, -⟩
  · exact ht
  · simp [hc] at hk

/-! ### Runs -/

/-- All calls succeed. -/
def repliesAll : Replies := ⟨true, true, true, WfpManager.repliesSuccess⟩

theorem main_idle {r : Replies} (hc : s.callbacks = 0) (hm : ∀ p, s.main ≠ .installing p) :
    system.step s (.main r) (s.runMain r) :=
  .main fun _ => ⟨by simp [hc], hm⟩

theorem main_kept {r : Replies} (hc : s.callbacks = 0) (hm : ∀ p, s.main ≠ .installing p) :
    (system.restrict Kept).step s (.main r) (s.runMain r) :=
  ⟨fun p h => absurd h (hm p), main_idle hc hm⟩

/-- `DriverEntry` has deferred the Install and is in `ShRuntimeActivate`. -/
def deferring : State :=
  { initial .stopped with
    steps := [.bfe, .flow, .inject, .control, .events, .rules]
    device := true
    handle := true
    subscribed := true
    main := .init true }

theorem deferring_reachable : (system.restrict Kept).Reachable deferring := by
  refine ⟨initial .stopped, List.replicate 10 (.main repliesAll), ⟨_, rfl⟩, ?_⟩
  refine .head (main_kept rfl nofun) <| .head (main_kept rfl nofun) <|
    .head (main_kept rfl nofun) <| .head (main_kept rfl nofun) <|
    .head (main_kept rfl nofun) <| .head (main_kept rfl nofun) <|
    .head (main_kept rfl nofun) <| .head (main_kept rfl nofun) <|
    .head (main_kept rfl nofun) <| .head (main_kept rfl nofun) ?_
  exact .refl

/-- Activated before BFE is RUNNING. -/
def deferred : State :=
  { deferring with
    unload := ⟨⟨.active, .none, []⟩, true, true, .begin⟩
    main := .loaded }

theorem deferred_reachable : (system.restrict Kept).Reachable deferred := by
  have hr : (system.restrict Kept).Run deferring (List.replicate 3 (.main repliesAll))
      deferred := by
    refine .head (main_kept rfl nofun) <| .head (main_kept rfl nofun) <|
      .head (main_kept rfl nofun) ?_
    exact .refl
  exact deferring_reachable.run hr

/-- BFE starts under the active driver and calls back. -/
def started : State :=
  { deferred with
    service := .running
    callbacks := {.bfe (.acquire .running)}
    period := 1 }

/-- The callback of that start is in its Install. -/
def startedInstall : State := { started with count := 1#32, callbacks := {.installing 1} }

theorem startedInstall_run : (system.restrict Kept).Run deferred
    [.bfe .running, .callback (.bfe (.acquire .running)) repliesAll.wfp,
      .callback (.bfe (.acquireCas .running 0#32)) repliesAll.wfp,
      .callback (.bfe (.body .running)) repliesAll.wfp, .callback .install repliesAll.wfp]
    startedInstall := by
  have hu : ∀ s : State, s.callbacks = {.install} → s.main = .loaded → s.Unlocked := by
    rintro s hc hm
    exact ⟨by simp [hc], by simp [hm]⟩
  refine .head ⟨fun _ _ => rfl, .bfe nofun⟩ <|
    .head ⟨fun _ => rfl, .callback 0 rfl nofun⟩ <|
    .head ⟨trivial, .callback 0 rfl nofun⟩ <|
    .head ⟨fun h => absurd h.1 nofun, .callback 0 rfl nofun⟩ <|
    .head ⟨trivial, .callback 0 rfl fun _ => hu _ rfl rfl⟩ ?_
  exact .refl

/-- The driver after that callback. -/
def startedTried : State :=
  { startedInstall.install 1 repliesAll.wfp with count := 0#32, callbacks := 0 }

theorem startedTried_run : (system.restrict Kept).Run startedInstall
    [.callback (.installing 1) repliesAll.wfp, .callback (.bfe .release) repliesAll.wfp]
    startedTried := by
  have hc : (startedInstall.install 1 repliesAll.wfp).count = 1#32 := by
    simp only [State.install]
    split <;> rfl
  have he : State.runCallback
      { startedInstall.install 1 repliesAll.wfp with callbacks := {.bfe .release} }
      (.bfe .release) 0 repliesAll.wfp = startedTried := by
    have hn : Bfe.Callback.next 1#32 .release = none := by decide
    simp [State.runCallback, startedTried, Bfe.Callback.count, hc, hn]
  refine .head ⟨fun _ => .inl rfl, .callback 0 rfl (by simp)⟩ <|
    .head ⟨trivial, .callback 0 rfl (by simp)⟩ ?_
  exact he ▸ .refl

theorem deferred_install_started : startedTried.callbacks = 0 ∧
    (startedTried.period ∈ startedTried.succeeded ∨
      startedTried.period ∈ startedTried.failed) := by
  have hok : ntSuccess (startedInstall.manager.install repliesAll.wfp).2 = true := by decide
  have ha : startedTried.runtime.state = .active := by
    have hr := (install_elsewhere (s := startedInstall) 1 repliesAll.wfp).2.2
    change (startedInstall.install 1 repliesAll.wfp).runtime.state = .active
    rw [hr, WfpManager.install_runtime_of_success hok]
    rfl
  have hb : startedTried.service = .running :=
    (install_elsewhere (s := startedInstall) 1 repliesAll.wfp).1.service
  have hr := (deferred_reachable.run startedInstall_run).run startedTried_run
  exact ⟨rfl, deferred_install hr ha hb rfl⟩

/-- BFE becomes RUNNING after `DriverEntry` has asked for its state, and the callback finds
the runtime not yet active: nobody installs. -/
theorem deferred_install_lost : ∃ s : State, system.Reachable s ∧ s.runtime.state = .active ∧
    s.main = .loaded ∧ s.service = .running ∧ s.callbacks = 0 ∧
      ¬ (s.period ∈ s.succeeded ∨ s.period ∈ s.failed) := by
  let t : State := { deferred with service := .running, period := 1 }
  have hr : system.Run deferring [.bfe .running,
      .callback (.bfe (.acquire .running)) repliesAll.wfp,
      .callback (.bfe (.acquireCas .running 0#32)) repliesAll.wfp,
      .callback (.bfe (.body .running)) repliesAll.wfp,
      .callback (.bfe .release) repliesAll.wfp, .main repliesAll, .main repliesAll,
      .main repliesAll] t := by
    refine .head (.bfe nofun) <| .head (.callback 0 rfl nofun) <|
      .head (.callback 0 rfl nofun) <| .head (.callback 0 rfl nofun) <|
      .head (.callback 0 rfl nofun) <| .head (main_idle rfl nofun) <|
      .head (main_idle rfl nofun) <| .head (main_idle rfl nofun) ?_
    exact .refl
  refine ⟨t, deferring_reachable.of_restrict.run hr, rfl, rfl, rfl, rfl, ?_⟩
  simp [t, deferred, deferring, initial]

/-- A callback that finds `installed` set from before BFE stopped does not install. -/
theorem reinstall_skipped (hi : s.wfp.installed = true) (ha : s.runtime.state = .active)
    (hd : s.device = true) (hsub : s.subscribed = true) (hm : s.main = .loaded)
    (hc : s.callbacks = 0) (hw : s.count = 0#32) (hb : s.service = .stopped) :
    ∃ as t, system.Run s as t ∧ t.runtime.state = .active ∧ t.main = .loaded ∧
      t.service = .running ∧ t.callbacks = 0 ∧ t.period = s.period + 1 ∧
      t.succeeded = s.succeeded ∧ t.failed = s.failed := by
  have r : InstallReplies := WfpManager.repliesSuccess
  let t (n : Long) (cs : Multiset Callback) : State :=
    { s with service := .running, period := s.period + 1, count := n, callbacks := cs }
  have h₁ : system.step s (.bfe .running) (t 0#32 {.bfe (.acquire .running)}) := by
    have he : s.change .running = t 0#32 {.bfe (.acquire .running)} := by
      simp [State.change, t, hsub, hc, ← hw]
    exact he ▸ .bfe (by simp [hb])
  have h₂ : system.step (t 0#32 {.bfe (.acquire .running)})
      (.callback (.bfe (.acquire .running)) r)
      (t 0#32 {.bfe (.acquireCas .running 0#32)}) := .callback 0 rfl (by simp)
  have h₃ : system.step (t 0#32 {.bfe (.acquireCas .running 0#32)})
      (.callback (.bfe (.acquireCas .running 0#32)) r)
      (t 1#32 {.bfe (.body .running)}) := .callback 0 rfl (by simp)
  have h₄ : system.step (t 1#32 {.bfe (.body .running)})
      (.callback (.bfe (.body .running)) r)
      (t 1#32 {.install}) := by
    have he : (t 1#32 {.bfe (.body .running)}).runCallback (.bfe (.body .running)) 0 r =
        t 1#32 {.install} := by
      have ha' : (t 1#32 {.bfe (.body .running)}).runtime.isActive = true := by
        change s.runtime.isActive = true
        simpa [Runtime.isActive] using ha
      simp [State.runCallback, ha']
      simp [t, hd]
    exact he ▸ .callback 0 rfl (by simp)
  have h₅ : system.step (t 1#32 {.install}) (.callback .install r)
      (t 1#32 {.bfe .release}) := by
    have he : (t 1#32 {.install}).runCallback .install 0 r = t 1#32 {.bfe .release} := by
      simp [State.runCallback, State.tryInstall, t, hi]
    exact he ▸ .callback 0 rfl fun _ => ⟨by simp [t], by simp [t, hm]⟩
  have h₆ : system.step (t 1#32 {.bfe .release})
      (.callback (.bfe .release) r) (t 0#32 0) := by
    have he : (t 1#32 {.bfe .release}).runCallback (.bfe .release) 0 r = t 0#32 0 := by
      have hn : Bfe.Callback.next 1#32 .release = none := by decide
      simp [State.runCallback, t, Bfe.Callback.count, hn]
    exact he ▸ .callback 0 rfl (by simp)
  exact ⟨_, t 0#32 0, .head h₁ <| .head h₂ <| .head h₃ <| .head h₄ <| .head h₅ <|
    .head h₆ .refl, ha, hm, rfl, rfl, rfl, rfl, rfl⟩

end Sentinel.Driver
