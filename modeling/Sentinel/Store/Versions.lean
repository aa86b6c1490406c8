import Sentinel.Store.Contents
import Sentinel.Store.Refinement

/-! The publications of a run of the shared store, as steps of the abstract store, and what a
version tells about them. -/
namespace Sentinel.Concurrent

open Transition

variable {s t u : State} {act : Action} {as : List Action} {req : Request} {rs : List Request}
  {id old cur cur' : SnapId} {rules : RuleArray}

/-- The request of a publication about to happen. -/
def Holder.publishing : Holder → Option Request
  | .publish req _ => some req
  | .idle | .collect _ _ _ | .reclaim _ _ _ _ _ | .discard _ | .reset _ | .detach
  | .drainNext _ | .poll _ _ _ | .free _ _ | .requeue _ => none

/-- The request that a step publishes, if any. -/
def State.publication (s : State) : Action → Option Request
  | .advance => if s.writable && s.current.isSome then s.holder.publishing else none
  | .acquire | .release _ | .evaluate _ _ _ | .call _ _ _ | .shutdown | .runtime _ => none

/-- A run with the requests it publishes, in their order. -/
inductive History : State → List Request → State → Prop where
  | refl {s : State} : History s [] s
  | step {s t u : State} {act : Action} {rs : List Request} (h : Step s act t)
      (rest : History t rs u) : History s ((s.publication act).toList ++ rs) u

/-- `SkRuleStoreVersion`; the lock makes the read one step. -/
def State.version (s : State) : UInt64 := s.current.elim 0 fun id => (s.snap id).version

theorem History.run (h : History s rs t) : ∃ as, system.Run s as t := by
  induction h with
  | refl => exact ⟨[], .refl⟩
  | step hst _ ih =>
    obtain ⟨as, has⟩ := ih
    exact ⟨_, .head hst has⟩

theorem publishes_of_publication (h : Step s act t) (hp : s.publication act = some req) :
    ∃ id old, Publishes s req id old t := by
  cases h with
  | advance =>
    simp only [State.publication] at hp
    split at hp
    · rename_i hw
      rw [Bool.and_eq_true] at hw
      cases hh : s.holder with
      | publish req' id =>
        rw [hh] at hp
        cases hp
        obtain ⟨old, hold⟩ := Option.isSome_iff_exists.mp hw.2
        rcases s.publish_cases req id with he | ⟨old', hw', hc, he⟩
        · simp [State.publish, hold, hw.1] at he
        · refine ⟨id, old', ?_⟩
          rw [State.advance]
          simp only [hh]
          rw [he]
          exact ⟨hh, hw', hc, rfl, rfl, rfl, rfl, rfl, rfl, rfl, rfl⟩
      | idle | collect | reclaim | discard | reset | detach | drainNext | poll | free
      | requeue =>
        rw [hh] at hp
        cases hp
    · cases hp
  | acquire | release | evaluate | call | shutdown | runtime => cases hp

theorem Publishes.publication (h : Publishes s req id old t) :
    s.publication .advance = some req := by
  simp [State.publication, h.writable, h.displaced, h.holder, Holder.publishing]

/-! ### One publication -/

/-- The store as the writers see it. -/
def State.view (s : State) (cur : SnapId) : Store :=
  ⟨s.snap cur, s.rollbackSlot.map s.snap, s.rates⟩

/-- A publication commits the draft of its request. -/
theorem Publishes.commit (hi : Invariant s) (hc : Contents s) (h : Publishes s req id old t) :
    ∃ d, (s.view old).run req.writer .granted = (statusSuccess, (s.view old).commit req.writer d) ∧
      (t.view id).current = ((s.view old).commit req.writer d).current ∧
      (t.view id).rollbackSlot = ((s.view old).commit req.writer d).rollbackSlot := by
  obtain ⟨hlt, hpre, cur, hcur, hd⟩ := hc.prepared req id (by rw [h.holder]; rfl)
  have he : cur = old := Option.some_inj.mp (hcur.symm.trans h.displaced)
  subst he
  have hd' : req.writer.draft (s.view cur).current (s.view cur).rollbackSlot =
      .ok (s.snap id).ruleSet := hd
  refine ⟨(s.snap id).ruleSet, ?_, ?_, ?_⟩
  · simp [Store.run, hpre, Env.granted, hd']
  · simp [State.view, h.snap, Snapshot.ruleSet]
  · have hne : cur ≠ id := by
      rintro rfl
      exact (hi.current_apart hcur).2.2 (by simp [h.holder, Holder.building])
    rw [Store.commit_rollbackSlot]
    simp only [State.view, h.rollbackSlot]
    cases req.writer.consumesSlot with
    | true => rfl
    | false => exact congrArg some (by rw [h.snap, Function.update_of_ne hne])

theorem Publishes.abstract (hi : Invariant s) (hc : Contents s) (h : Publishes s req id old t) :
    PolicyStore.Step (s.view old).abstract ⟨req, .granted⟩ (t.view id).abstract := by
  obtain ⟨d, hrun, hcur, hrb⟩ := h.commit hi hc
  have hwf : (s.view old).WellFormed := by
    refine ⟨hc.wellFormed old (hi.current_lt h.displaced), ?_⟩
    intro r hr
    obtain ⟨rb, hrb, rfl⟩ := Option.map_eq_some_iff.mp hr
    exact hc.wellFormed rb (hi.rollbackSlot_lt hrb)
  have hcall : Store.Step (s.view old) ⟨req, .granted⟩ ((s.view old).run req.writer .granted).2 :=
    .call
  have hstep := Store.abstract_step hcall hwf
  rw [hrun] at hstep
  have he : (t.view id).abstract = ((s.view old).commit req.writer d).abstract := by
    simp only [Store.abstract, hcur, hrb]
  rw [he]
  exact hstep

/-! ### A whole run -/

theorem current_none_step (h : Step s act t) (hn : s.current = none) : t.current = none := by
  rcases step_cases h with ⟨-, req, id, old, hp⟩ | ⟨-, -, rfl⟩ | ⟨hcur, -⟩
  · rw [hp.displaced] at hn
    cases hn
  · rfl
  · exact hcur.trans hn

/-- Once detached, the store never has a current snapshot again. -/
theorem current_none_history (h : History s rs t) (hn : s.current = none) :
    t.current = none := by
  induction h with
  | refl => exact hn
  | step hst _ ih => exact ih (current_none_step hst hn)

/-- A step that publishes nothing leaves the store the writers see as it was. -/
theorem view_of_quiet (hi : Invariant s) (h : Step s act t) (hp : s.publication act = none)
    (hc : s.current = some cur) (hc' : t.current = some cur') :
    cur' = cur ∧ (t.view cur).current = (s.view cur).current ∧
      (t.view cur).rollbackSlot = (s.view cur).rollbackSlot := by
  rcases step_cases h with ⟨rfl, req, id, old, hpub⟩ | ⟨-, -, rfl⟩ | ⟨hcur, hrb, -, hs, -⟩
  · rw [hpub.publication] at hp
    cases hp
  · cases hc'
  · refine ⟨?_, hs cur (hi.current_lt hc), ?_⟩
    · rw [hcur, hc] at hc'
      exact (Option.some_inj.mp hc').symm
    · simp only [State.view, hrb]
      cases hr : s.rollbackSlot with
      | none => rfl
      | some rb => exact congrArg some (hs rb (hi.rollbackSlot_lt hr))

/-- The publications of a run are a run of the abstract store, one call each. -/
theorem policy_history (h : History s rs t) (hi : Invariant s) (hc : Contents s)
    (hcur : s.current = some cur) (hcur' : t.current = some cur') :
    PolicyStore.system.Run (s.view cur).abstract (rs.map fun req => ⟨req, .granted⟩)
      (t.view cur').abstract := by
  induction h generalizing cur with
  | refl =>
    rw [hcur] at hcur'
    cases hcur'
    exact .refl
  | @step s v t act rs hst rest ih =>
    have hi' := invariant_step hst hi
    have hc' := contents_step hst hi hc
    cases hv : v.current with
    | none =>
      rw [current_none_history rest hv] at hcur'
      cases hcur'
    | some mid =>
    have hrest := ih hi' hc' hv hcur'
    cases hp : s.publication act with
    | none =>
      obtain ⟨rfl, hvc, hvr⟩ := view_of_quiet hi hst hp hcur hv
      have he : (v.view mid).abstract = (s.view mid).abstract := by
        simp only [Store.abstract, hvc, hvr]
      rw [he] at hrest
      exact hrest
    | some req =>
      obtain ⟨id, old, hpub⟩ := publishes_of_publication hst hp
      have hold : old = cur := Option.some_inj.mp (hpub.displaced.symm.trans hcur)
      have hid : id = mid := Option.some_inj.mp (hpub.current.symm.trans hv)
      subst hold hid
      exact .head (hpub.abstract hi hc) hrest

/-- Every publication adds one to the version, in 64 bits. -/
theorem version_history (h : History s rs t) (hi : Invariant s) (ht : t.current.isSome = true) :
    t.version = s.version + UInt64.ofNat rs.length := by
  induction h with
  | refl => simp
  | @step s v t act rs hst rest ih =>
    have hrest := ih (invariant_step hst hi) ht
    cases hp : s.publication act with
    | none =>
      have hv : v.version = s.version := by
        rcases step_cases hst with ⟨rfl, req, id, old, hpub⟩ | ⟨-, -, rfl⟩ | ⟨hcur, -, -, hs, -⟩
        · rw [hpub.publication] at hp
          cases hp
        · rw [current_none_history rest rfl] at ht
          cases ht
        · unfold State.version
          rw [hcur]
          cases hc : s.current with
          | none => rfl
          | some cur => exact congrArg Snapshot.version (hs cur (hi.current_lt hc))
      rw [hrest, hv]
      rfl
    | some req =>
      obtain ⟨id, old, hpub⟩ := publishes_of_publication hst hp
      have hv : v.version = s.version + 1 := by
        simp [State.version, hpub.current, hpub.displaced, hpub.snap]
      rw [hrest, hv]
      simp only [Option.toList_some, List.singleton_append, List.length_cons]
      rw [Nat.add_comm rs.length 1, UInt64.ofNat_add, UInt64.add_assoc]
      rfl

/-! ### Optimistic concurrency -/

/-- A Replace that names a version is published over just that version. -/
theorem Publishes.expectedVersion {v : UInt64} (hc : Contents s)
    (h : Publishes s (.replace rules v) id old t) (hv : v ≠ 0) : s.version = v := by
  obtain ⟨-, -, cur, hcur, hd⟩ := hc.prepared _ id (by rw [h.holder]; rfl)
  simp only [Request.writer, ruleStoreReplace] at hd
  split_ifs at hd with hne
  have he : (s.snap cur).version = v := by
    by_contra hn
    exact hne ⟨hv, hn⟩
  simpa [State.version, hcur] using he

/-- A client that has read a nonzero version and has its Replace published for that version
has missed no publication, unless the 64 bits of the version have wrapped around. -/
theorem replace_after_read (hs : system.Reachable s) (hv : s.version ≠ 0) (hh : History s rs t)
    (hp : Publishes t (.replace rules s.version) id old u) : rs.length % 2 ^ 64 = 0 := by
  obtain ⟨hi, hc⟩ := contents_reachable hs
  obtain ⟨as, hrun⟩ := hh.run
  obtain ⟨-, hct⟩ := contents_reachable (hs.run hrun)
  have hver := version_history hh hi (by rw [hp.displaced]; rfl)
  rw [hp.expectedVersion hct hv] at hver
  have hz : UInt64.ofNat rs.length = 0 := by
    have := congrArg (fun v => v - s.version) hver
    simpa [UInt64.add_comm, UInt64.add_sub_cancel] using this.symm
  have hn := congrArg UInt64.toNat hz
  simpa using hn

/-- The rule blocks everything. -/
def blockAll : Rule := { ruleZero with ruleId := 5, action := ruleActionBlock, enabled := 1 }

/-- A client has added a rule to the fresh store. -/
def ruleAdded : State :=
  ((((State.start .active rateTableEmpty).begin (.add (some blockAll)) true
    true).advance).advance).advance

/-- Another client, which has read the version 0 before, is about to publish its Replace. -/
def replacing : State :=
  (((ruleAdded.advance.advance).begin (.replace (.null 0) 0) true true).advance).advance

theorem ruleAdded_history :
    History (.start .active rateTableEmpty) [.add (some blockAll)] ruleAdded := by
  have hcall : Step (.start .active rateTableEmpty) (.call (.add (some blockAll)) true true)
      ((State.start .active rateTableEmpty).begin (.add (some blockAll)) true true) := .call rfl
  exact .step hcall (.step .advance (.step .advance (.step .advance .refl)))

theorem replacing_history : History ruleAdded [] replacing := by
  have hcall : Step (ruleAdded.advance.advance) (.call (.replace (.null 0) 0) true true)
      ((ruleAdded.advance.advance).begin (.replace (.null 0) 0) true true) := .call rfl
  exact .step .advance (.step .advance (.step hcall (.step .advance (.step .advance .refl))))

theorem History.append {rs' : List Request} (h : History s rs t) (h' : History t rs' u) :
    History s (rs ++ rs') u := by
  induction h with
  | refl => exact h'
  | step hst _ ih =>
    rw [List.append_assoc]
    exact .step hst (ih h')

/-- The version 0 of a fresh store stands for an unconditional Replace: it is published over
the rule that another client has added since, and the rule is lost. -/
theorem replace_zero_overwrites : ∃ s t u id old, system.Reachable s ∧ s.current = some 0 ∧
    History s [.add (some blockAll)] t ∧ Publishes t (.replace (.null 0) s.version) id old u ∧
    blockAll ∈ (t.snap old).rules ∧ (u.snap id).rules = [] := by
  have hpub : ∃ id old, Publishes replacing (.replace (.null 0) 0) id old replacing.advance :=
    publishes_of_publication .advance rfl
  obtain ⟨id, old, hp⟩ := hpub
  have hold : old = 1 := Option.some_inj.mp (hp.displaced.symm.trans rfl)
  have hid : id = 2 := by
    have := hp.holder
    cases this
    rfl
  subst hold hid
  exact ⟨.start .active rateTableEmpty, replacing, replacing.advance, 2, 1,
    .of_init ⟨_, _, rfl⟩, rfl, ruleAdded_history.append replacing_history, hp,
    List.mem_singleton_self _, rfl⟩

/-- Without a publication in between the Replace for a version read goes through. -/
theorem replace_after_read_ruleAdded : ruleAdded.version = 1 ∧ ∃ t u id old,
    Publishes t (.replace (.null 0) ruleAdded.version) id old u ∧
    ([] : List Request).length % 2 ^ 64 = 0 := by
  have hreach : system.Reachable ruleAdded := by
    obtain ⟨as, hrun⟩ := ruleAdded_history.run
    exact System.Reachable.run (.of_init ⟨_, _, rfl⟩) hrun
  have hcall : Step (ruleAdded.advance.advance) (.call (.replace (.null 0) 1) true true)
      ((ruleAdded.advance.advance).begin (.replace (.null 0) 1) true true) := .call rfl
  have hh : History ruleAdded [] _ :=
    .step .advance (.step .advance (.step hcall (.step .advance (.step .advance .refl))))
  obtain ⟨id, old, hp⟩ : ∃ id old, Publishes
      (((ruleAdded.advance.advance).begin (.replace (.null 0) 1) true true).advance).advance
      (.replace (.null 0) ruleAdded.version) id old _ := publishes_of_publication .advance rfl
  exact ⟨rfl, _, _, id, old, hp, replace_after_read hreach (by decide +kernel) hh hp⟩

end Sentinel.Concurrent
