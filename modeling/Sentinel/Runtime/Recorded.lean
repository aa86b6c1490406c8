import Sentinel.Runtime.Driver
import Sentinel.Wfp.Tracking

/-! Whether a recorded block reason keeps the driver loaded. -/
namespace Sentinel.Driver

open Transition

variable {s t : State} {a : Action}

/-- An Install that begins here does not end in LEAKED, or the driver stays loaded anyway. -/
def State.Installs (s : State) (r : InstallReplies) : Prop :=
  s.runtime.state = .unloadBlocked ∨ (s.manager.install r).1.runtime = s.runtime

/-- No underflow report is at work, or the driver stays loaded anyway. -/
def State.AllReported (s : State) : Prop := s.runtime.state = .unloadBlocked ∨ s.reporting = 0

/-- An underflow report tests the state in Teardown or UNLOAD_BLOCKED, none is at work when
`ShRuntimeRunUnload` makes its final check or `DriverEntry` returns an error,
`ShRuntimeEnterQuiescent` does not write over UNLOAD_BLOCKED, and no Install ends in LEAKED. -/
def Reported (s : State) : Action → Prop
  | .callback (.installing _) r => s.Installs r
  | .reportCheck => s.runtime.state = .teardown ∨ s.runtime.state = .unloadBlocked
  | .main a => (∀ p, s.main = .installing p → s.Installs a.wfp) ∧
      (s.main = .failed → s.AllReported)
  | .unload (.finalCheck _) => s.AllReported
  | .quiescentEnter => s.runtime.state ≠ .unloadBlocked
  | .bfe _ | .callback (.bfe _) _ | .callback .install _ | .report | .reportEnter | .unload _
  | .quiescentCheck | .quiesced _ | .destroy _ | .shutdownStuck | .destroyed => True

/-- The image is unloaded: `ShRuntimeRunUnload` returns TRUE, or `DriverEntry` an error. -/
def Unloads (s : State) : Action → State → Prop
  | .unload (.finalCheck _), t => t.unload.pc = .returned
  | .main _, _ => s.main = .failed ∧ s.runtime.state ≠ .unloadBlocked
  | .bfe _, _ | .callback _ _, _ | .report, _ | .reportCheck, _ | .reportEnter, _ | .unload _, _
  | .quiescentCheck, _ | .quiescentEnter, _ | .quiesced _, _ | .destroy _, _ | .shutdownStuck, _
  | .destroyed, _ => False

/-- A step of the rollback has failed. -/
def State.Unclean (s : State) : Prop := (∃ q, s.main = .quiesce true q false) ∨ s.main = .blockStart

/-- A quiesce step has failed and the gate has yet to block the unload for it. -/
def State.Refused (s : State) : Prop :=
  (∃ q, s.main = .quiesce false q false) ∨
    s.main = .unload ∧ (s.unload.pc.stage = 4 ∨
      s.unload.sensorOk = false ∧ (s.unload.pc = .test .divertQuiesce ∨ s.unload.pc = .gate))

/-- What keeps the driver loaded. -/
inductive Covered (s : State) : Prop where
  | blocked (h : s.runtime.state = .unloadBlocked)
  | report (h : 0 < s.reporting)
  | unclean (h : s.Unclean)
  | refused (h : s.Refused)

/-! ### Steps -/

theorem Elsewhere.refused (h : Elsewhere s t) (hr : s.Refused) : t.Refused := by
  have hu := h.unload
  rcases hr with ⟨q, hq⟩ | ⟨hm, hp⟩
  · exact .inl ⟨q, h.main.trans hq⟩
  · refine .inr ⟨h.main.trans hm, ?_⟩
    rw [hu]
    exact hp

theorem runMain_reporting (s : State) (r : Replies) :
    (s.runMain r).reporting = s.reporting := by
  cases hm : s.main with
  | quiesce b q ok =>
    simp only [State.runMain, hm]
    by_cases hq : b = true ∧ q = .done
    · obtain ⟨rfl, rfl⟩ := hq
      simp only [State.runQuiesce]
      repeat' split
      all_goals rfl
    · exact (runQuiesce_quiescedTo hm fun hb he => hq ⟨hb, he⟩).reporting
  | installing p =>
    simp only [State.runMain, hm]
    exact (install_elsewhere p r.wfp).2.1
  | _ =>
    simp only [State.runMain, hm]
    repeat' split
    all_goals rfl

/-- The rollback ends in UNLOAD_BLOCKED. -/
theorem runMain_unclean {r : Replies} (h : s.Unclean) :
    (s.runMain r).Unclean ∨ (s.runMain r).runtime.state = .unloadBlocked := by
  rcases h with ⟨q, hm⟩ | hm
  · left
    by_cases hq : q = .done
    · subst hq
      right
      simp [State.runMain, hm, State.runQuiesce, Quiesce.step]
    · obtain ⟨-, q', ok', hm', hf, -⟩ := runQuiesce_quiescedTo (r := r) hm fun _ => hq
      left
      refine ⟨q', ?_⟩
      simp only [State.runMain, hm]
      rw [hm', hf rfl]
  · right
    simp only [State.runMain, hm]
    rfl

theorem runMain_refused {r : Replies} (h : s.Refused) : (s.runMain r).Refused := by
  rcases h with ⟨q, hm⟩ | ⟨hm, hp⟩
  · obtain ⟨-, q', ok', hm', hf, -⟩ := runQuiesce_quiescedTo (r := r) hm nofun
    left
    refine ⟨q', ?_⟩
    simp only [State.runMain, hm]
    rw [hm', hf rfl]
  · have he : s.runMain r = s := by simp only [State.runMain, hm]
    rw [he]
    exact .inr ⟨hm, hp⟩

/-! ### Runs -/

theorem refused_unload {x : Unload.Action} {u : Unload.State}
    (h : s.main = if x = .begin then .loaded else .unload)
    (hs : Unload.Step driverCallbacks s.unload x u) (hr : s.Refused) :
    State.Refused { s with unload := u, main := afterUnload x } := by
  obtain ⟨hx, hm⟩ : x ≠ .begin ∧ s.main = .unload := by
    rcases hr with ⟨q, hq⟩ | ⟨hm, -⟩
    · rw [hq] at h
      split at h <;> simp at h
    · rw [hm] at h
      split at h
      · simp at h
      · exact ⟨‹_›, hm⟩
  replace hr : s.unload.pc.stage = 4 ∨ s.unload.sensorOk = false ∧
      (s.unload.pc = .test .divertQuiesce ∨ s.unload.pc = .gate) := by
    simpa [State.Refused, hm] using hr
  right
  cases hs with
  | runtime => exact ⟨rfl, hr⟩
  | begin => exact absurd rfl hx
  | @call k hpc hk =>
    rw [hpc] at hr
    cases k <;> simp [Unload.Pc.stage, Unload.Callback.stage, driverCallbacks] at hr hk
  | @skip k hpc hk =>
    rw [hpc] at hr
    cases k <;> simp [Unload.Pc.stage, Unload.Callback.stage, driverCallbacks] at hr hk
    exact ⟨rfl, .inr ⟨hr, .inr rfl⟩⟩
  | @returned k ok hpc =>
    rw [hpc] at hr
    cases k <;> simp [Unload.Pc.stage, Unload.Callback.stage] at hr
  | gate hpc =>
    have hf : s.unload.sensorOk = false := by simpa [hpc, Unload.Pc.stage] using hr
    exact ⟨rfl, .inl (by simp [Unload.State.blocked, hf, Unload.Pc.stage])⟩
  | blockReason =>
    refine ⟨rfl, .inl ?_⟩
    simp only
    split <;> rfl
  | recordStuck => exact ⟨rfl, .inl rfl⟩
  | enterBlocked => exact ⟨rfl, .inl rfl⟩
  | enterQuiescent hpc => simp [hpc, Unload.Pc.stage] at hr
  | finalCheck hpc => simp [hpc, Unload.Pc.stage] at hr

theorem refused_step (hs : system.step s a t) (h : s.Refused) : t.Refused := by
  have hne : ∀ pc, s.main ≠ .destroy pc := by
    intro pc hm
    simp [State.Refused, hm] at h
  cases hs with
  | bfe => exact h
  | callback => exact runCallback_elsewhere.1.refused h
  | report => exact h
  | reportCheck => exact h
  | reportEnter => exact h
  | main => exact runMain_refused h
  | unload hm _ _ hu => exact refused_unload hm hu h
  | quiescentCheck => exact h
  | quiescentEnter hm hp => simp [State.Refused, hm, hp, Unload.Pc.stage] at h
  | @quiesced ok u hm hu =>
    have hok : ok = false := by simpa [State.Refused, hm] using h
    subst hok
    cases hu with
    | returned => exact .inr ⟨rfl, .inr ⟨rfl, .inl rfl⟩⟩
  | destroy hm => exact absurd hm (hne _)
  | shutdownStuck hm => exact absurd hm (hne _)
  | destroyed hm => exact absurd hm (hne _)

theorem unclean_step (hs : system.step s a t) (h : s.Unclean) :
    t.Unclean ∨ t.runtime.state = .unloadBlocked := by
  have hne : ∀ m, (∀ q, m ≠ .quiesce true q false) → m ≠ .blockStart → s.main ≠ m := by
    rintro m hq hb rfl
    rcases h with ⟨q, h⟩ | h
    · exact hq q h
    · exact hb h
  cases hs with
  | bfe => exact .inl h
  | callback => exact .inl (by rwa [State.Unclean, runCallback_elsewhere.1.main])
  | report => exact .inl h
  | reportCheck => exact .inl h
  | reportEnter => exact .inl h
  | main => exact runMain_unclean h
  | unload hm =>
    split at hm
    · exact absurd hm (hne _ (by simp) (by simp))
    · exact absurd hm (hne _ (by simp) (by simp))
  | quiescentCheck => exact .inl h
  | quiescentEnter hm => exact absurd hm (hne _ (by simp) (by simp))
  | quiesced hm => exact absurd hm (hne _ (by simp) (by simp))
  | destroy hm => exact absurd hm (hne _ (by simp) (by simp))
  | shutdownStuck hm => exact absurd hm (hne _ (by simp) (by simp))
  | destroyed hm => exact absurd hm (hne _ (by simp) (by simp))

/-- A report goes on into UNLOAD_BLOCKED. -/
theorem covered_reportCheck (hg : Reported s .reportCheck)
    (hs : system.step s .reportCheck t) : Covered t := by
  cases hs
  rcases hg with hg | hg
  · refine .report ?_
    simp [State.reporting, hg]
  · exact .blocked hg

theorem covered_step (hs : (system.restrict Reported).step s a t) (h : Covered s) :
    Covered t := by
  obtain ⟨hg, hs⟩ := hs
  cases h with
  | blocked h =>
    have ha : a ≠ .quiescentEnter := by
      rintro rfl
      exact hg h
    exact .blocked (unloadBlocked_step hs ha h)
  | unclean h => exact (unclean_step hs h).elim .unclean .blocked
  | refused h => exact .refused (refused_step hs h)
  | report h =>
    cases hs with
    | bfe => exact .report h
    | callback => exact .report (h.trans_le runCallback_elsewhere.2)
    | report => exact .report (h.trans_le (Nat.add_le_add_right (Nat.le_succ _) _))
    | reportCheck h' => exact covered_reportCheck hg (.reportCheck h')
    | reportEnter => exact .blocked rfl
    | main => exact .report (by rwa [runMain_reporting])
    | unload => exact .report h
    | quiescentCheck => exact .report h
    | quiescentEnter => exact .report h
    | quiesced => exact .report h
    | destroy => exact .report h
    | shutdownStuck => exact .report h
    | destroyed => exact .report h

/-- The step calls `ShRuntimeRecordBlock`. -/
def Records (s t : State) : Prop :=
  s.runtime.blockHistory.length < t.runtime.blockHistory.length

theorem not_records (h : t.runtime = s.runtime) : ¬ Records s t := by
  rw [Records, h]
  exact lt_irrefl _

theorem covered_runMain {r : Replies} (hg : Reported s (.main r))
    (hr : Records s (s.runMain r)) : Covered (s.runMain r) := by
  cases hm : s.main with
  | init b =>
    simp only [State.runMain, hm] at hr
    split at hr
    · exact absurd hr (Nat.not_lt_zero _)
    · exact absurd hr (not_records rfl)
  | installing p =>
    have hrt : (s.runMain r).runtime = (s.manager.install r.wfp).1.runtime := by
      simp only [State.runMain, hm]
      exact (install_elsewhere p r.wfp).2.2
    rcases hg.1 p hm with hb | he
    · exact .blocked ((leads_runMain r (by simp [hm])).unloadBlocked hb)
    · exact absurd hr (not_records (hrt.trans he))
  | activate =>
    refine absurd hr ?_
    by_cases hu : s.unload.runtime.state = .uninitialized <;>
      simp [Records, State.runMain, hm, State.runtime, State.write, Runtime.activate, hu]
  | rollback =>
    simp [Records, State.runMain, hm, State.runtime, State.write] at hr
  | quiesce b q ok =>
    by_cases hq : b = true ∧ q = .done
    · obtain ⟨rfl, rfl⟩ := hq
      simp only [State.runMain, hm, State.runQuiesce] at hr
      repeat' split at hr
      all_goals exact absurd hr (not_records rfl)
    · simp only [State.runMain, hm] at hr ⊢
      obtain ⟨-, q', ok', hm', -, ht⟩ :=
        runQuiesce_quiescedTo (r := r) hm fun hb he => hq ⟨hb, he⟩
      cases ok' with
      | true => exact absurd hr (not_records (ht rfl))
      | false =>
        cases b with
        | true => exact .unclean (.inl ⟨q', hm'⟩)
        | false => exact .refused (.inl ⟨q', hm'⟩)
  | rollbackDestroy =>
    simp only [State.runMain, hm] at hr ⊢
    split at hr
    · rename_i hf
      rw [if_pos hf]
      exact .blocked rfl
    · exact absurd hr (not_records rfl)
  | blockStart =>
    refine .blocked ?_
    simp only [State.runMain, hm]
    rfl
  | _ =>
    simp only [State.runMain, hm] at hr
    repeat' split at hr
    all_goals exact absurd hr (not_records rfl)

theorem covered_unload {x : Unload.Action} {u : Unload.State}
    (hx : ∀ c, x ≠ .runtime c) (hs : Unload.Step driverCallbacks s.unload x u)
    (hr : Records s { s with unload := u, main := afterUnload x }) :
    Covered { s with unload := u, main := afterUnload x } := by
  cases hs with
  | runtime => exact absurd rfl (hx _)
  | recordStuck => exact .refused (.inr ⟨rfl, .inl rfl⟩)
  | enterBlocked => exact .blocked rfl
  | begin => simp [Records, State.runtime, Runtime.call] at hr
  | enterQuiescent =>
    refine absurd hr ?_
    by_cases hu : s.unload.runtime.state = .teardown <;>
      simp [Records, State.runtime, Runtime.call, Runtime.enterQuiescent, hu]
  | _ => exact absurd hr (not_records rfl)

/-- Every call of `ShRuntimeRecordBlock` is covered at once. -/
theorem covered_of_records (hs : (system.restrict Reported).step s a t) (hr : Records s t) :
    Covered t := by
  obtain ⟨hg, hs⟩ := hs
  cases hs with
  | bfe => exact absurd hr (not_records rfl)
  | @callback k r cs hk =>
    cases k with
    | bfe k =>
      cases k with
      | report => exact .report (Nat.add_pos_left (Nat.succ_pos _) _)
      | body st =>
        simp only [State.runCallback] at hr
        split at hr <;> exact absurd hr (not_records rfl)
      | _ => exact absurd hr (not_records rfl)
    | install =>
      simp only [State.runCallback] at hr
      split at hr <;> exact absurd hr (not_records rfl)
    | installing p =>
      rcases hg with hb | he
      · exact .blocked ((leads_runCallback s _ cs r).unloadBlocked hb)
      · exact absurd hr (not_records ((install_elsewhere p r).2.2.trans he))
  | report => exact .report (Nat.add_pos_left (Nat.succ_pos _) _)
  | reportCheck h => exact covered_reportCheck hg (.reportCheck h)
  | reportEnter => exact .blocked rfl
  | main => exact covered_runMain hg hr
  | unload hm hx _ hu => exact covered_unload hx.1 hu hr
  | quiescentCheck => exact absurd hr (not_records rfl)
  | quiescentEnter => exact absurd hr (lt_irrefl _)
  | quiesced hm hu =>
    cases hu
    exact absurd hr (not_records rfl)
  | destroy hm hx hb hd =>
    cases hd with
    | runtime => exact absurd rfl (hx _)
    | enterBlocked => exact .blocked rfl
    | _ => exact absurd hr (not_records rfl)
  | shutdownStuck => exact .blocked rfl
  | destroyed hm hu =>
    cases hu
    exact absurd hr (not_records rfl)

theorem Covered.not_unloads (h : Covered s) (hs : (system.restrict Reported).step s a t) :
    ¬ Unloads s a t := by
  obtain ⟨hg, hs⟩ := hs
  have hblocked : ∀ {m : Main}, s.AllReported → s.main = m → m ≠ .blockStart →
      (∀ q, m ≠ .quiesce true q false) → ¬ s.Refused → s.runtime.state = .unloadBlocked := by
    rintro m hg rfl hb hq hr
    cases h with
    | blocked h => exact h
    | report h => exact hg.resolve_right h.ne'
    | unclean h =>
      rcases h with ⟨q, h⟩ | h
      · exact absurd h (hq q)
      · exact absurd h hb
    | refused h => exact absurd h hr
  cases hs with
  | @main r =>
    rintro ⟨hm, hne⟩
    exact hne (hblocked (hg.2 hm) hm (by simp) (by simp) (by simp [State.Refused, hm]))
  | @unload x u hm hx _ hu =>
    cases hu with
    | finalCheck hpc =>
      have hm' : s.main = .unload := hm
      have hb : s.unload.runtime.state = .unloadBlocked :=
        hblocked hg hm' (by simp) (by simp) (by simp [State.Refused, hm', hpc, Unload.Pc.stage])
      simp [Unloads, hb]
    | _ => exact id
  | _ => exact id

/-- A recorded block reason keeps the image loaded: `ShRuntimeRunUnload` does not return TRUE,
nor does `DriverEntry` return an error. -/
theorem recorded_not_forgotten {u v : State} {b : Action} {as : List Action}
    (hs : (system.restrict Reported).step s a t) (hr : Records s t)
    (h : (system.restrict Reported).Run t as u) (hf : (system.restrict Reported).step u b v) :
    ¬ Unloads u b v := by
  have hc : Covered u := h.preserves (fun hs hi => covered_step hs hi) (covered_of_records hs hr)
  exact hc.not_unloads hf

/-! ### A load and an unload -/

/-- All calls succeed; BFE stays stopped, so that nothing is installed. -/
def repliesOk : Replies := ⟨true, true, true, WfpManager.repliesSuccess⟩

/-- Where `DriverEntry` installs nothing and has not failed. -/
def Main.quiet : Main → Bool
  | .installing _ | .failed => false
  | _ => true

theorem main_step {r : Replies} (hr : s.callbacks = 0) (hq : s.main.quiet = true) :
    (system.restrict Reported).step s (.main r) (s.runMain r) := by
  have hm : ∀ p, s.main ≠ .installing p := by
    intro p h
    rw [h] at hq
    cases hq
  have hf : s.main ≠ .failed := by
    intro h
    rw [h] at hq
    cases hq
  exact ⟨⟨fun p h => absurd h (hm p), fun h => absurd h hf⟩, .main fun _ => ⟨by simp [hr], hm⟩⟩

/-- Loaded, with some history of block reasons. -/
def loaded (why : BlockReason) (whys : List BlockReason) : State :=
  { initial .stopped with
    unload := ⟨⟨.active, why, whys⟩, true, true, .begin⟩
    steps := [.bfe, .flow, .inject, .control, .events, .rules]
    device := true
    handle := true
    subscribed := true
    main := .loaded }

theorem loaded_reachable : (system.restrict Reported).Reachable (loaded .none []) := by
  refine ⟨initial .stopped, List.replicate 13 (.main repliesOk), ⟨_, rfl⟩, ?_⟩
  refine .head (main_step rfl rfl) <| .head (main_step rfl rfl) <|
    .head (main_step rfl rfl) <| .head (main_step rfl rfl) <|
    .head (main_step rfl rfl) <| .head (main_step rfl rfl) <|
    .head (main_step rfl rfl) <| .head (main_step rfl rfl) <|
    .head (main_step rfl rfl) <| .head (main_step rfl rfl) <|
    .head (main_step rfl rfl) <| .head (main_step rfl rfl) <|
    .head (main_step rfl rfl) ?_
  exact .refl

/-- In the quiesce, after the BeginStop of `ShRundownBfe`. -/
def quiescing (why : BlockReason) (whys : List BlockReason) (q : Quiesce) : State :=
  { loaded why whys with
    unload := ⟨⟨.teardown, why, whys⟩, true, true, .inside .sensorQuiesce⟩
    count := stopBit
    handle := false
    subscribed := false
    main := .quiesce false q true }

/-- The Teardown has seen the runtime. -/
def quiesced (why : BlockReason) (whys : List BlockReason) : State :=
  { quiescing why whys .done with
    wfp := { WfpManager.initial with runtime := ⟨.teardown, why, whys⟩ } }

/-- `ShRuntimeEnterQuiescent` has seen Teardown. -/
def beforeQuiescent (w : WfpManager) (rt : Runtime) : State :=
  { quiesced .none [] with
    unload := ⟨rt, true, true, .enterQuiescent⟩
    wfp := w
    main := .unload
    sawTeardown := true }

/-- It has written Quiescent. -/
def afterQuiescent (w : WfpManager) (rt : Runtime) : State :=
  { beforeQuiescent w rt with
    unload := ⟨{ rt with state := .quiescent }, true, true, .test .sensorCleanup⟩ }

/-- Inside `SkRuleStoreShutdown`, after a quiesce without failures. -/
def destroying (w : WfpManager) (rt : Runtime) : State :=
  { afterQuiescent w rt with
    unload := ⟨{ rt with state := .quiescent }, true, true, .inside .sensorCleanup⟩
    main := .destroy .shutdown }

/-- Before the final check. -/
def destroyed (w : WfpManager) (rt : Runtime) : State :=
  { destroying w rt with
    unload := ⟨{ rt with state := .quiescent }, true, true, .finalCheck⟩
    steps := []
    device := false
    main := .unload }

def quiesceActions : List Action :=
  [.unload .begin, .unload (.call .sensorQuiesce)] ++ List.replicate 10 (.main repliesOk)

def checkActions : List Action :=
  [.quiesced true, .unload (.skip .divertQuiesce), .unload (.gate .teardown), .quiescentCheck]

def destroyActions : List Action :=
  [.unload (.call .sensorCleanup), .destroy .check, .destroy (.destroy .inject),
    .destroy (.destroy .flow), .destroy (.destroy .rules)]

theorem quiescing_beginStop (why : BlockReason) (whys : List BlockReason) :
    State.runMain { quiescing why whys .beginStop with count := 0#32 } repliesOk =
      quiescing why whys (.drain 0) := by
  have hc : rundownBeginStop 0#32 = stopBit := rfl
  simp [State.runMain, State.runQuiesce, quiescing, hc]

theorem quiescing_drain (why : BlockReason) (whys : List BlockReason) :
    (quiescing why whys (.drain 0)).runMain repliesOk = quiescing why whys .wfp := by
  simp [State.runMain, State.runQuiesce, quiescing, State.check, Quiesce.next]

theorem quiescing_run (why : BlockReason) (whys : List BlockReason) :
    (system.restrict Reported).Run (loaded why whys) quiesceActions (quiesced why whys) := by
  refine .head ⟨trivial, .unload rfl ⟨nofun, nofun⟩ nofun (.begin rfl)⟩ <|
    .head ⟨trivial, .unload rfl ⟨nofun, nofun⟩ nofun (.call rfl rfl)⟩ <|
    .head (main_step rfl rfl) <| .head (main_step rfl rfl) <|
    .head (main_step rfl rfl) <| .head (main_step rfl rfl) <|
    .head (main_step rfl rfl) ?_
  change (system.restrict Reported).Run
    { quiescing why whys .beginStop with count := 0#32 } _ _
  refine .head (main_step rfl rfl) ?_
  rw [quiescing_beginStop]
  refine .head (main_step rfl rfl) ?_
  rw [quiescing_drain]
  exact .head (main_step rfl rfl) <| .head (main_step rfl rfl) <|
    .head (main_step rfl rfl) .refl

theorem beforeQuiescent_run (why : BlockReason) (whys : List BlockReason) :
    (system.restrict Reported).Run (quiesced why whys) checkActions
      (beforeQuiescent (quiesced why whys).wfp ⟨.teardown, why, whys⟩) := by
  refine .head ⟨trivial, .quiesced rfl (.returned rfl)⟩ <|
    .head ⟨trivial, .unload rfl ⟨nofun, nofun⟩ nofun (.skip rfl rfl)⟩ <|
    .head ⟨trivial, .unload rfl ⟨nofun, nofun⟩ nofun (.gate rfl)⟩ <|
    .head ⟨trivial, .quiescentCheck rfl rfl rfl rfl⟩ ?_
  exact .refl

theorem afterQuiescent_step (w : WfpManager) (rt : Runtime) :
    system.step (beforeQuiescent w rt) .quiescentEnter (afterQuiescent w rt) :=
  .quiescentEnter rfl rfl rfl

theorem destroying_run (w : WfpManager) (rt : Runtime) :
    (system.restrict Reported).Run (afterQuiescent w rt) destroyActions (destroying w rt) := by
  refine .head ⟨trivial, .unload rfl ⟨nofun, nofun⟩ nofun (.call rfl rfl)⟩ ?_
  refine .head ⟨trivial, .destroy rfl nofun nofun (.check rfl)⟩ <|
    .head ⟨trivial, .destroy rfl nofun nofun (.destroy rfl)⟩ <|
    .head ⟨trivial, .destroy rfl nofun nofun (.destroy rfl)⟩ <|
    .head ⟨trivial, .destroy rfl nofun nofun (.destroy rfl)⟩ ?_
  exact .refl

/-- A snapshot that does not drain in the destroy phase keeps the driver loaded. -/
theorem recorded_not_forgotten_stuck : ∃ u v, (system.restrict Reported).Reachable u ∧
    (system.restrict Reported).step u (.unload (.finalCheck .unloadBlocked)) v ∧
    v.unload.pc ≠ .returned := by
  let w := (quiesced .none []).wfp
  let s := destroying w ⟨.teardown, .none, []⟩
  let t := s.write ((s.runtime.recordBlock .rundownStuck).enterUnloadBlocked .rundownStuck)
  have hs : (system.restrict Reported).step s .shutdownStuck t := ⟨trivial, .shutdownStuck rfl⟩
  let u : State := { t with
    unload := { t.unload with
      runtime := t.runtime.enterUnloadBlocked .rundownStuck
      pc := .finalCheck }
    main := .unload }
  have h : (system.restrict Reported).Run t [.destroy (.shutdown false), .destroy .enterBlocked,
      .destroyed, .unload (.skip .divertCleanup)] u := by
    refine .head ⟨trivial, .destroy rfl nofun (fun _ => rfl) (.shutdown rfl)⟩ <|
      .head ⟨trivial, .destroy rfl nofun nofun (.enterBlocked rfl)⟩ <|
      .head (u := u) ⟨trivial, .destroyed rfl (@Unload.Step.returned _ _ _ true rfl)⟩ <|
      .head ⟨trivial, .unload rfl ⟨nofun, nofun⟩ nofun (.skip rfl rfl)⟩ .refl
  have hf : (system.restrict Reported).step u (.unload (.finalCheck .unloadBlocked))
      { u with unload := { u.unload with pc := .parked } } :=
    ⟨.inl rfl, .unload rfl ⟨nofun, nofun⟩ nofun (.finalCheck rfl)⟩
  have hbefore : (system.restrict Reported).Reachable (beforeQuiescent w ⟨.teardown, .none, []⟩) :=
    (loaded_reachable.run (quiescing_run _ _)).run (beforeQuiescent_run _ _)
  have hr : (system.restrict Reported).Reachable s :=
    (hbefore.step ⟨by rintro ⟨⟩, afterQuiescent_step _ _⟩).run (destroying_run _ _)
  have hrec : Records s t := by
    change 0 < 2
    omega
  exact ⟨u, _, (hr.step hs).run h, hf, recorded_not_forgotten hs hrec h hf⟩

/-! ### The three ways to forget -/

/-- This step calls `ShRuntimeRecordBlock`, and later the image is unloaded. -/
def Forgets (s : State) (a : Action) : Prop :=
  ∃ t as u b v, system.step s a t ∧ Records s t ∧ system.Run t as u ∧ system.step u b v ∧
    Unloads u b v

/-- The unload comes to its end over the record of an underflow. -/
theorem forgets_of_run {as : List Action} {w : WfpManager} {rt : Runtime}
    (h : system.Run { s.write (s.runtime.recordBlock .rundownUnderflow) with
      reports := s.reports + 1 } as (afterQuiescent w rt)) : Forgets s .report := by
  have hdestroyed : system.Run (destroying w rt) [.destroy (.shutdown true),
      .destroy (.destroy .control), .destroy (.destroy .device), .destroy (.destroy .steps),
      .destroyed, .unload (.skip .divertCleanup)] (destroyed w rt) := by
    refine .head (.destroy rfl nofun nofun (.shutdown rfl)) <|
      .head (.destroy rfl nofun nofun (.destroy rfl)) <|
      .head (.destroy rfl nofun nofun (.destroy rfl)) <|
      .head (.destroy rfl nofun nofun (.destroy rfl)) ?_
    refine .head (.destroyed rfl (@Unload.Step.returned _ _ _ true rfl)) <|
      .head (.unload rfl ⟨nofun, nofun⟩ nofun (.skip rfl rfl)) .refl
  have hfinal : system.step (destroyed w rt) (.unload (.finalCheck .quiescent))
      { destroyed w rt with
        unload := ⟨{ rt with state := .quiescent }, true, true, .returned⟩ } :=
    .unload rfl ⟨nofun, nofun⟩ nofun (.finalCheck rfl)
  have hrecords : Records s { s.write (s.runtime.recordBlock .rundownUnderflow) with
      reports := s.reports + 1 } := by
    simp [Records, State.write, State.runtime, Runtime.recordBlock]
  exact ⟨_, _, _, _, _, .report, hrecords,
    h.append ((destroying_run w rt).of_restrict.append hdestroyed), hfinal, rfl⟩

/-- An underflow in the Active state is recorded, and the unload returns TRUE. -/
theorem underflow_forgotten :
    ∃ s, system.Reachable s ∧ s.runtime.state = .active ∧ Forgets s .report := by
  let why := BlockReason.rundownUnderflow
  have hcheck : system.step { loaded why [why] with reports := 1 } .reportCheck
      (loaded why [why]) := .reportCheck Nat.one_pos
  have hbefore := ((quiescing_run why [why]).append (beforeQuiescent_run why [why])).of_restrict
  exact ⟨loaded .none [], loaded_reachable.of_restrict, rfl,
    forgets_of_run (.head hcheck (hbefore.append (.single (afterQuiescent_step _ _))))⟩

/-- A report enters UNLOAD_BLOCKED when `ShRuntimeEnterQuiescent` has seen Teardown, and that
writes over it. -/
theorem blocked_forgotten :
    ∃ s, system.Reachable s ∧ s.runtime.state = .teardown ∧ Forgets s .report := by
  let why := BlockReason.rundownUnderflow
  let w := (quiesced .none []).wfp
  have hreachable : system.Reachable (beforeQuiescent w ⟨.teardown, .none, []⟩) :=
    ((loaded_reachable.run (quiescing_run _ _)).run (beforeQuiescent_run _ _)).of_restrict
  let s := beforeQuiescent w ⟨.teardown, why, [why]⟩
  have hcheck : system.step { s with reports := 1 } .reportCheck { s with entering := 1 } :=
    .reportCheck Nat.one_pos
  have henter : system.step { s with entering := 1 } .reportEnter
      (beforeQuiescent w ⟨.unloadBlocked, why, [why, why]⟩) := .reportEnter Nat.one_pos
  exact ⟨_, hreachable, rfl,
    forgets_of_run (.head hcheck (.head henter (.single (afterQuiescent_step _ _))))⟩

/-- No filter can be added, and no callout unregistered again. -/
def repliesLeaking : Replies :=
  { repliesOk with
    wfp := { WfpManager.repliesSuccess with
      filterAdd := fun _ => statusUnsuccessful
      unregister := fun _ _ => statusUnsuccessful } }

/-- `DriverEntry` in the Install of `SkLifecycleStart`. -/
def startInstalling : State :=
  { initial .running with
    steps := [.bfe, .flow, .inject, .control, .events, .rules]
    device := true
    handle := true
    subscribed := true
    main := .installing 0 }

theorem startInstalling_reachable : system.Reachable startInstalling := by
  refine ⟨initial .running, List.replicate 11 (.main repliesOk), ⟨_, rfl⟩, ?_⟩
  refine System.Run.of_restrict (G := Reported) <| .head (main_step rfl rfl) <|
    .head (main_step rfl rfl) <| .head (main_step rfl rfl) <|
    .head (main_step rfl rfl) <| .head (main_step rfl rfl) <|
    .head (main_step rfl rfl) <| .head (main_step rfl rfl) <|
    .head (main_step rfl rfl) <| .head (main_step rfl rfl) <|
    .head (main_step rfl rfl) <| .head (main_step rfl rfl) ?_
  exact .refl

/-- The rollback after it, with the engine closed over a LEAKED callout. -/
def failing (w : WfpManager) (m : Main) : State :=
  { startInstalling with
    unload := ⟨⟨.uninitialized, .engineClose, [.engineClose]⟩, true, true, .begin⟩
    wfp := w
    failed := [0]
    main := m }

/-- That rollback passes. -/
theorem failing_run {w : WfpManager} (hi : w.installed = false) (he : w.engine = none) :
    ∃ u, (system.restrict Reported).Run (failing w .rollback)
      (List.replicate 10 (.main repliesOk)) u ∧ u.main = .failed ∧
        u.runtime.state = .uninitialized := by
  let w' : WfpManager := { w with runtime := ⟨.uninitialized, .engineClose, [.engineClose]⟩ }
  let quiescing (q : Quiesce) (n : Long) : State :=
    { failing w' (.quiesce true q true) with handle := false, subscribed := false, count := n }
  have hwfp : (failing w (.quiesce true .wfp true)).runMain repliesOk =
      failing w' (.quiesce true .unsubscribe true) := by
    have ht : ∀ q, (failing w (.quiesce true .wfp true)).manager.teardown q = (w', true) := by
      intro q
      rw [WfpManager.teardown, if_pos (by simp [State.manager, failing, hi, he])]
      rfl
    change (failing w (.quiesce true .wfp true)).runQuiesce true .wfp true repliesOk = _
    rw [State.runQuiesce, if_neg (by simp [Quiesce.step])]
    simp only [ht]
    rfl
  have hstop : (quiescing .beginStop 0#32).runMain repliesOk = quiescing (.drain 0) stopBit := by
    have hc : rundownBeginStop 0#32 = stopBit := rfl
    simp [State.runMain, State.runQuiesce, quiescing, failing, Quiesce.step, hc]
  have hdrain : (quiescing (.drain 0) stopBit).runMain repliesOk = quiescing .inject stopBit := by
    simp [State.runMain, State.runQuiesce, quiescing, failing, Quiesce.step, State.check,
      Quiesce.next]
  refine ⟨{ quiescing .done stopBit with steps := [], device := false, main := .failed },
    .head (main_step rfl rfl) ?_, rfl, rfl⟩
  refine .head (t := failing w' (.quiesce true .unsubscribe true))
    (hwfp ▸ main_step rfl rfl) ?_
  refine .head (t := quiescing .beginStop 0#32) (main_step rfl rfl) ?_
  refine .head (t := quiescing (.drain 0) stopBit) (hstop ▸ main_step rfl rfl) ?_
  refine .head (t := quiescing .inject stopBit) (hdrain ▸ main_step rfl rfl) ?_
  refine .head (main_step rfl rfl) <| .head (main_step rfl rfl) <|
    .head (main_step rfl rfl) <| .head (main_step rfl rfl) <|
    .head (main_step rfl rfl) ?_
  exact .refl

/-- The Install of `SkLifecycleStart` ends in LEAKED, and `DriverEntry` returns its error. -/
theorem leak_forgotten :
    ∃ s, system.Reachable s ∧ s.main = .installing 0 ∧ Forgets s (.main repliesLeaking) := by
  let m := (startInstalling.manager.install repliesLeaking.wfp).1
  have hi : m.installed = false := by decide
  have he : m.engine = none := by decide
  have hrt : m.runtime = ⟨.uninitialized, .engineClose, [.engineClose]⟩ := by decide
  have hst : ntSuccess (startInstalling.manager.install repliesLeaking.wfp).2 = false := by decide
  have ht : startInstalling.runMain repliesLeaking = failing m .rollback := by
    change { startInstalling.install 0 repliesLeaking.wfp with
      main := if ntSuccess (startInstalling.manager.install repliesLeaking.wfp).2 then .init true
        else .rollback } = _
    simp only [State.install, hst, Bool.false_eq_true, if_false]
    change { startInstalling.write m.runtime with
      wfp := m, failed := [0], main := .rollback } = _
    rw [hrt]
    rfl
  have hstep : system.step startInstalling (.main repliesLeaking) (failing m .rollback) :=
    ht ▸ .main (by simp [startInstalling])
  obtain ⟨u, hrun, hm, hs⟩ := failing_run hi he
  have hrecords : Records startInstalling (failing m .rollback) := by
    change 0 < 1
    exact Nat.one_pos
  exact ⟨startInstalling, startInstalling_reachable, rfl, _, _, u, .main repliesOk,
    u.runMain repliesOk, hstep, hrecords, hrun.of_restrict, .main (by simp [hm]), hm, by simp [hs]⟩

theorem recorded_forgotten :
    (∃ s, system.Reachable s ∧ s.runtime.state = .active ∧ Forgets s .report) ∧
    (∃ s, system.Reachable s ∧ s.runtime.state = .teardown ∧ Forgets s .report) ∧
    ∃ s, system.Reachable s ∧ s.main = .installing 0 ∧ Forgets s (.main repliesLeaking) :=
  ⟨underflow_forgotten, blocked_forgotten, leak_forgotten⟩

end Sentinel.Driver
