import Sentinel.Store.Reclaim
import Sentinel.Store.WellFormed

/-! What the snapshots of the shared store hold, and that a publication commits what its writer
has prepared. -/
namespace Sentinel.Concurrent

open Transition

variable {s t : State} {act : Action} {as : List Action} {req : Request} {a b : Bool}
  {id i : SnapId} {d : RuleSet}

/-- The request a writer is to publish, and the snapshot it has built for it. -/
def Holder.task : Holder → Option (Request × SnapId)
  | .collect req id _ | .reclaim req id _ _ _ | .publish req id => some (req, id)
  | .idle | .discard _ | .reset _ | .detach | .drainNext _ | .poll _ _ _ | .free _ _
  | .requeue _ => none

/-- The snapshot is what the request makes of the current one and the slot. -/
def State.Prepared (s : State) (req : Request) (id : SnapId) : Prop :=
  id < s.next ∧ ntSuccess req.writer.precheck = true ∧ ∃ cur, s.current = some cur ∧
    req.writer.draft (s.snap cur) (s.rollbackSlot.map s.snap) = .ok (s.snap id).ruleSet

structure Contents (s : State) : Prop where
  wellFormed : ∀ id < s.next, (s.snap id).WellFormed
  prepared : ∀ req id, s.holder.task = some (req, id) → s.Prepared req id

/-! ### The step that publishes -/

/-- The state after `id` has been published for `req` over `old`. -/
structure Publishes (s : State) (req : Request) (id old : SnapId) (t : State) : Prop where
  holder : s.holder = .publish req id
  writable : s.writable = true
  displaced : s.current = some old
  current : t.current = some id
  rollbackSlot : t.rollbackSlot = if req.writer.consumesSlot then none else some old
  snap : t.snap = Function.update s.snap id
    { s.snap id with version := (s.snap old).version + 1 }
  next : t.next = s.next
  held : t.held = s.held
  rates : t.rates = s.rates
  resets : t.holder = .reset
    (removedIds (s.snap old).rules (s.snap id).rules ++ req.writer.resets.toList)
  published : t.published = id :: s.published

/-- Only a call allocates. -/
theorem advance_next (s : State) : s.advance.next = s.next := by
  unfold State.advance
  split
  case h_4 => split <;> rfl
  case h_5 req id h =>
    rcases s.publish_cases req id with he | ⟨old, -, -, he⟩ <;> rw [he]
  case h_10 =>
    unfold State.drainNext
    split
    · rfl
    · split <;> rfl
  case h_11 =>
    unfold State.poll
    split
    · rfl
    · split <;> rfl
  all_goals rfl

/-- A step publishes, or detaches everything for good, or leaves the current snapshot, the slot
and every snapshot allocated so far as they are. -/
theorem step_cases (h : Step s act t) :
    (act = .advance ∧ ∃ req id old, Publishes s req id old t) ∨
    (act = .advance ∧ s.holder = .detach ∧ t = s.detach) ∨
    (t.current = s.current ∧ t.rollbackSlot = s.rollbackSlot ∧ s.next ≤ t.next ∧
      (∀ i < s.next, t.snap i = s.snap i) ∧ t.published = s.published) := by
  cases h with
  | acquire =>
    rcases s.acquire_cases with he | ⟨i, -, -, -, he⟩ <;> rw [he] <;>
      exact .inr (.inr ⟨rfl, rfl, le_rfl, fun _ _ => rfl, rfl⟩)
  | release | evaluate | runtime => exact .inr (.inr ⟨rfl, rfl, le_rfl, fun _ _ => rfl, rfl⟩)
  | call =>
    rename_i req a b hidle
    rcases s.begin_cases req a b with he | ⟨cur, d, -, -, -, -, he⟩
    · rw [he]
      exact .inr (.inr ⟨rfl, rfl, le_rfl, fun _ _ => rfl, rfl⟩)
    · rw [he]
      exact .inr (.inr ⟨rfl, rfl, Nat.le_succ _,
        fun i hi => Function.update_of_ne hi.ne _ _, rfl⟩)
  | shutdown =>
    rcases s.shutdown_cases with he | he <;> rw [he] <;>
      exact .inr (.inr ⟨rfl, rfl, le_rfl, fun _ _ => rfl, rfl⟩)
  | advance =>
    unfold State.advance
    split
    case h_5 req id h =>
      rcases s.publish_cases req id with he | ⟨old, hw, hc, he⟩
      · rw [he]
        exact .inr (.inr ⟨rfl, rfl, le_rfl, fun _ _ => rfl, rfl⟩)
      · rw [he]
        exact .inl ⟨rfl, req, id, old, ⟨h, hw, hc, rfl, rfl, rfl, rfl, rfl, rfl, rfl, rfl⟩⟩
    case h_9 h => exact .inr (.inl ⟨rfl, h, rfl⟩)
    case h_4 =>
      split <;> exact .inr (.inr ⟨rfl, rfl, le_rfl, fun _ _ => rfl, rfl⟩)
    case h_10 =>
      unfold State.drainNext
      split
      · exact .inr (.inr ⟨rfl, rfl, le_rfl, fun _ _ => rfl, rfl⟩)
      · split <;> exact .inr (.inr ⟨rfl, rfl, le_rfl, fun _ _ => rfl, rfl⟩)
    case h_11 =>
      unfold State.poll
      split
      · exact .inr (.inr ⟨rfl, rfl, le_rfl, fun _ _ => rfl, rfl⟩)
      · split <;> exact .inr (.inr ⟨rfl, rfl, le_rfl, fun _ _ => rfl, rfl⟩)
    all_goals exact .inr (.inr ⟨rfl, rfl, le_rfl, fun _ _ => rfl, rfl⟩)

/-- A task goes on with the same snapshot, or has just been prepared. -/
theorem task_step (h : Step s act t) (ht : t.holder.task = some (req, id)) :
    s.holder.task = some (req, id) ∨ id = s.next ∧ ∃ a b, act = .call req a b := by
  cases h with
  | acquire =>
    rcases s.acquire_cases with he | ⟨i, -, -, -, he⟩ <;> rw [he] at ht <;> exact .inl ht
  | release | evaluate | runtime => exact .inl ht
  | call =>
    rename_i req' a b hidle
    rcases s.begin_cases req' a b with he | ⟨cur, d, -, -, -, -, he⟩
    · rw [he] at ht
      exact .inl ht
    · rw [he] at ht
      cases ht
      exact .inr ⟨rfl, a, b, rfl⟩
  | shutdown =>
    rcases s.shutdown_cases with he | he
    · rw [he] at ht
      exact .inl ht
    · rw [he] at ht
      cases ht
  | advance =>
    left
    unfold State.advance at ht
    split at ht
    case h_1 => exact ht
    case h_2 h =>
      rw [h]
      exact ht
    case h_3 h =>
      rw [h]
      exact ht
    case h_4 h =>
      rw [h]
      split at ht <;> exact ht
    case h_5 req' id' h =>
      rcases s.publish_cases req' id' with he | ⟨old, -, -, he⟩ <;> rw [he] at ht <;> cases ht
    case h_10 =>
      unfold State.drainNext at ht
      split at ht
      · cases ht
      · split at ht <;> cases ht
    case h_11 =>
      unfold State.poll at ht
      split at ht
      · cases ht
      · split at ht <;> cases ht
    all_goals cases ht

/-! ### Every step keeps the contents in order -/

theorem Invariant.current_lt (hi : Invariant s) (h : s.current = some id) : id < s.next :=
  hi.lt_next (hi.current_apart h).1

theorem Invariant.rollbackSlot_lt (hi : Invariant s) (h : s.rollbackSlot = some id) :
    id < s.next := hi.lt_next (hi.rollbackSlot_apart h).1

/-- What has been prepared stays so while the current snapshot and the slot stay. -/
theorem State.Prepared.frame (hi : Invariant s) (hp : s.Prepared req id)
    (hc : t.current = s.current) (hr : t.rollbackSlot = s.rollbackSlot) (hn : s.next ≤ t.next)
    (hs : ∀ i < s.next, t.snap i = s.snap i) : t.Prepared req id := by
  obtain ⟨hlt, hpre, cur, hcur, hd⟩ := hp
  refine ⟨hlt.trans_le hn, hpre, cur, hc.trans hcur, ?_⟩
  have hslot : t.rollbackSlot.map t.snap = s.rollbackSlot.map s.snap := by
    rw [hr]
    cases hrb : s.rollbackSlot with
    | none => rfl
    | some rb => exact congrArg some (hs rb (hi.rollbackSlot_lt hrb))
  rw [hslot, hs cur (hi.current_lt hcur), hs id hlt]
  exact hd

theorem contents_start (r : RuntimeState) (rates : RateTable) :
    Contents (State.start r rates) where
  wellFormed id _ := (Store.wellFormed_init rates).current
  prepared req id h := by cases h

theorem contents_begin (hi : Invariant s) (hc : Contents s) :
    Contents (s.begin req a b) := by
  rcases s.begin_cases req a b with he | ⟨cur, d, hp, -, hcur, hd, he⟩
  · rwa [he]
  rw [he]
  have hwf : d.WellFormed := by
    refine draft_wellFormed hp hd (hc.wellFormed cur (hi.current_lt hcur)) ?_
    intro r hr
    obtain ⟨rb, hrb, rfl⟩ := Option.map_eq_some_iff.mp hr
    exact hc.wellFormed rb (hi.rollbackSlot_lt hrb)
  have hkeep : ∀ i < s.next, Function.update s.snap s.next ⟨d.rules, 0, d.defaultPolicy⟩ i =
      s.snap i := fun i hlt => Function.update_of_ne hlt.ne _ _
  refine ⟨?_, ?_⟩
  · intro i hlt
    rcases Nat.lt_succ_iff_lt_or_eq.mp hlt with hlt | rfl
    · simp only [hkeep i hlt]
      exact hc.wellFormed i hlt
    · simp only [Function.update_self]
      exact hwf
  · intro req' id' ht
    cases ht
    refine ⟨Nat.lt_succ_self _, hp, cur, hcur, ?_⟩
    have hslot : s.rollbackSlot.map (Function.update s.snap s.next ⟨d.rules, 0, d.defaultPolicy⟩) =
        s.rollbackSlot.map s.snap := by
      cases hrb : s.rollbackSlot with
      | none => rfl
      | some rb => exact congrArg some (hkeep rb (hi.rollbackSlot_lt hrb))
    simp only [hslot, hkeep cur (hi.current_lt hcur), Function.update_self]
    exact hd

theorem contents_step (h : Step s act t) (hi : Invariant s) (hc : Contents s) : Contents t := by
  by_cases hcall : ∃ req a b, act = .call req a b
  · obtain ⟨req, a, b, rfl⟩ := hcall
    cases h with
    | call => exact contents_begin hi hc
  have htask : ∀ req id, t.holder.task = some (req, id) → s.Prepared req id := by
    intro req id ht
    rcases task_step h ht with ht | ⟨-, a, b, rfl⟩
    · exact hc.prepared req id ht
    · exact absurd ⟨req, a, b, rfl⟩ hcall
  rcases step_cases h with ⟨-, req, id, old, hp⟩ | ⟨-, hd, rfl⟩ | ⟨hcur, hrb, hn, hs, -⟩
  · refine ⟨?_, ?_⟩
    · intro i hlt
      rw [hp.next] at hlt
      rw [hp.snap]
      by_cases he : i = id
      · subst he
        rw [Function.update_self]
        exact hc.wellFormed i hlt
      · rw [Function.update_of_ne he]
        exact hc.wellFormed i hlt
    · intro req' id' ht
      rw [hp.resets] at ht
      cases ht
  · exact ⟨hc.wellFormed, fun req id ht => by cases ht⟩
  · have hnext : t.next = s.next := by
      cases h with
      | call => exact absurd ⟨_, _, _, rfl⟩ hcall
      | acquire => rcases s.acquire_cases with he | ⟨i, -, -, -, he⟩ <;> rw [he]
      | release | evaluate | runtime => rfl
      | shutdown => rcases s.shutdown_cases with he | he <;> rw [he]
      | advance => exact advance_next s
    refine ⟨?_, fun req id ht => (htask req id ht).frame hi hcur hrb hn hs⟩
    intro i hlt
    rw [hnext] at hlt
    rw [hs i hlt]
    exact hc.wellFormed i hlt

theorem contents_reachable (h : system.Reachable s) : Invariant s ∧ Contents s := by
  have hinit : ∀ {s}, system.init s → Invariant s ∧ Contents s := by
    rintro s ⟨r, rates, rfl⟩
    exact ⟨invariant_start r rates, contents_start r rates⟩
  have hstep : ∀ {s act t}, system.step s act t → Invariant s ∧ Contents s →
      Invariant t ∧ Contents t := by
    rintro s act t hst ⟨hi, hc⟩
    exact ⟨invariant_step hst hi, contents_step hst hi hc⟩
  exact h.invariant (I := fun s => Invariant s ∧ Contents s) hinit hstep

/-- The current snapshot, the slot and every snapshot a reader holds are in verdict order with
distinct nonzero ids, within capacity, valid, and with a default policy that permits or blocks;
so no rate limit that decides an evaluation divides by zero. -/
theorem snapshots_wellFormed (h : system.Reachable s) :
    (∀ id, s.current = some id ∨ s.rollbackSlot = some id ∨ id ∈ s.held →
      ((s.snap id).rules.Pairwise fun a b => rulePrecedes a b = true) ∧
      ((s.snap id).rules.map Rule.ruleId).Nodup ∧ (s.snap id).rules.length ≤ ruleMax ∧
      (∀ r ∈ (s.snap id).rules, r.ruleId ≠ 0 ∧ ruleValidate (some r) = statusSuccess) ∧
      ((s.snap id).defaultPolicy = verdictPermit ∨ (s.snap id).defaultPolicy = verdictBlock)) ∧
    ∀ id ∈ s.held, ∀ (tuple : ClassifyTuple) (c : Clock) (t : RateTable) (stats : RuleStats),
      (∀ hit, ruleHit (some (s.snap id)) tuple = some hit →
        hit.action = ruleActionRateLimit → hit.rateIntervalMs ≠ 0) ∧
      (ruleEvaluate (some (s.snap id)) tuple c t stats).isSome = true := by
  obtain ⟨hi, hc⟩ := contents_reachable h
  have hheld : ∀ id ∈ s.held, (s.snap id).WellFormed :=
    fun id hm => hc.wellFormed id (hi.lt_next (hi.live id hm))
  have hdiv : ∀ id ∈ s.held, ∀ r ∈ (s.snap id).rules, r.action = ruleActionRateLimit →
      r.rateIntervalMs ≠ 0 :=
    fun id hm r hr => ((hheld id hm).valid r hr).rateIntervalMs_ne
  constructor
  · intro id hid
    have hw : (s.snap id).WellFormed := by
      rcases hid with hcur | hrb | hm
      · exact hc.wellFormed id (hi.current_lt hcur)
      · exact hc.wellFormed id (hi.rollbackSlot_lt hrb)
      · exact hheld id hm
    exact ⟨hw.sorted, hw.ids, hw.length_le,
      fun r hr => ⟨(hw.valid r hr).ruleId_ne, hw.valid r hr⟩, hw.policy⟩
  · intro id hm tuple c t stats
    exact ⟨fun hit hh => hdiv id hm hit (List.mem_of_find?_eq_some hh),
      ruleEvaluate_isSome (hdiv id hm)⟩

/-- One connection a second for what `portRule` does not block. -/
def limitRule : Rule :=
  { ruleZero with
    ruleId := 9, action := ruleActionRateLimit, enabled := 1
    rateTokens := 1, rateIntervalMs := 1000, burst := 1 }

/-- A Replace has brought in both rules. -/
def bothRules : State :=
  (((((State.start .active rateTableEmpty).begin (.replace (.array [limitRule, portRule]) 0) true
    true).advance).advance).advance).advance

/-- A reader has taken their snapshot, and a Delete has moved it to the slot. -/
def bothInSlot : State :=
  (((bothRules.acquire.begin (.delete 9) true true).advance).advance).advance

theorem bothInSlot_reachable : system.Reachable bothInSlot := by
  have hinit : system.Reachable (.start .active rateTableEmpty) := .of_init ⟨_, _, rfl⟩
  have hreplace : system.Reachable ((State.start .active rateTableEmpty).begin
      (.replace (.array [limitRule, portRule]) 0) true true) := hinit.step (.call rfl)
  have hboth : system.Reachable bothRules :=
    (((hreplace.step .advance).step .advance).step .advance).step .advance
  have hacquire : system.Reachable bothRules.acquire := hboth.step .acquire
  have hdelete : system.Reachable (bothRules.acquire.begin (.delete 9) true true) :=
    hacquire.step (.call rfl)
  exact ((hdelete.step .advance).step .advance).step .advance

theorem snapshots_wellFormed_bothInSlot :
    bothInSlot.held = {1} ∧ bothInSlot.rollbackSlot = some 1 ∧
      (bothInSlot.snap 1).rules = [portRule, limitRule] ∧
      ((bothInSlot.snap 1).rules.Pairwise fun a b => rulePrecedes a b = true) ∧
      ruleHit (some (bothInSlot.snap 1)) tupleZero = some limitRule ∧
      limitRule.rateIntervalMs ≠ 0 ∧
      (ruleEvaluate (some (bothInSlot.snap 1)) tupleZero ⟨0, 0, 0, 1⟩ rateTableEmpty
        ⟨0, 0, 0, 0, 0, 0, 0, 0, 0, 0⟩).isSome = true := by
  obtain ⟨hsnap, heval⟩ := snapshots_wellFormed bothInSlot_reachable
  have hheld : (1 : SnapId) ∈ bothInSlot.held := Multiset.mem_singleton_self 1
  have hhit : ruleHit (some (bothInSlot.snap 1)) tupleZero = some limitRule := by decide +kernel
  obtain ⟨hdiv, hsome⟩ := heval 1 hheld tupleZero ⟨0, 0, 0, 1⟩ rateTableEmpty
    ⟨0, 0, 0, 0, 0, 0, 0, 0, 0, 0⟩
  exact ⟨rfl, rfl, by decide +kernel, (hsnap 1 (.inr (.inl rfl))).1, hhit,
    hdiv limitRule hhit rfl, hsome⟩

end Sentinel.Concurrent
