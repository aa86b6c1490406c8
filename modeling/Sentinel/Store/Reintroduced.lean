import Sentinel.Store.Buckets
import Sentinel.Store.Timeline
import Sentinel.Store.Versions

/-! The bucket of a rule whose id comes back, while readers still evaluate older snapshots. -/
namespace Sentinel.Concurrent

open Transition

variable {s t u : State} {act : Action} {as : List Action} {req : Request} {i j id old : SnapId}
  {x : UInt64} {r : Rule} {now : UInt64}

/-- The ids of the rules of a snapshot. -/
def State.ids (s : State) (i : SnapId) : List UInt64 := (s.snap i).rules.map Rule.ruleId

/-- The buckets still to clear after a publication. -/
def Holder.resets : Holder → List UInt64
  | .reset ruleIds => ruleIds
  | .idle | .collect _ _ _ | .reclaim _ _ _ _ _ | .publish _ _ | .discard _ | .detach
  | .drainNext _ | .poll _ _ _ | .free _ _ | .requeue _ => []

/-- The store of an image just loaded: no bucket is in use. -/
def fresh : System State Action where
  init s := ∃ runtime, s = State.start runtime rateTableEmpty
  step := Step

/-- An evaluation that opens a bucket does so for a rule that has been there ever since its
snapshot was current, but for a removal whose clearing is still to come. -/
def Timely (s : State) : Action → Prop
  | .evaluate i tuple _ => ∀ hit, ruleHit (some (s.snap i)) tuple = some hit →
      hit.action = ruleActionRateLimit → s.rates.Opens hit.ruleId →
      ∀ j ∈ s.published, i < j → hit.ruleId ∈ s.ids j ∨
        s.current = some j ∧ hit.ruleId ∈ s.holder.resets
  | .acquire | .release _ | .call _ _ _ | .shutdown | .advance | .runtime _ => True

/-- An evaluation that decides by the rate limit with the id in this snapshot or a newer one. -/
def Evaluates (id : SnapId) (x : UInt64) (s : State) : Action → Prop
  | .evaluate i tuple _ => id ≤ i ∧ ∃ hit, ruleHit (some (s.snap i)) tuple = some hit ∧
      hit.ruleId = x ∧ hit.action = ruleActionRateLimit
  | .acquire | .release _ | .call _ _ _ | .shutdown | .advance | .runtime _ => False

/-! ### What a step does to the buckets -/

/-- The buckets and the clearing to come change by an evaluation, a clearing or a publication. -/
theorem rates_step (h : Step s act t) :
    (∃ i tuple now out, act = .evaluate i tuple now ∧ i ∈ s.held ∧
      ruleVerdict (some (s.snap i)) tuple now s.rates = some (out, t.rates) ∧
      t.holder = s.holder) ∨
    (∃ ruleId, s.holder.resets = ruleId :: t.holder.resets ∧
      t.rates = ruleRateReset ruleId s.rates) ∨
    (t.rates = s.rates ∧ (t.holder.resets = s.holder.resets ∨
      ∃ req id old, Publishes s req id old t)) := by
  cases h with
  | acquire =>
    rcases s.acquire_cases with he | ⟨c, -, -, -, he⟩ <;> rw [he] <;>
      exact .inr (.inr ⟨rfl, .inl rfl⟩)
  | release | runtime => exact .inr (.inr ⟨rfl, .inl rfl⟩)
  | evaluate hm hv => exact .inl ⟨_, _, _, _, rfl, hm, hv, rfl⟩
  | call hidle =>
    rename_i req a b
    rcases s.begin_cases req a b with he | ⟨c, d, -, -, -, -, he⟩ <;> rw [he]
    · exact .inr (.inr ⟨rfl, .inl rfl⟩)
    · exact .inr (.inr ⟨rfl, .inl (by rw [hidle]; rfl)⟩)
  | shutdown hidle =>
    rcases s.shutdown_cases with he | he <;> rw [he]
    · exact .inr (.inr ⟨rfl, .inl rfl⟩)
    · exact .inr (.inr ⟨rfl, .inl (by rw [hidle]; rfl)⟩)
  | advance =>
    unfold State.advance
    split
    case h_1 => exact .inr (.inr ⟨rfl, .inl rfl⟩)
    case h_4 h =>
      split <;> exact .inr (.inr ⟨rfl, .inl (by rw [h]; rfl)⟩)
    case h_5 req id h =>
      rcases s.publish_cases req id with he | ⟨old, hw, hc, he⟩ <;> rw [he]
      · exact .inr (.inr ⟨rfl, .inl (by rw [h]; rfl)⟩)
      · exact .inr (.inr ⟨rfl, .inr ⟨req, id, old,
          h, hw, hc, rfl, rfl, rfl, rfl, rfl, rfl, rfl, rfl⟩⟩)
    case h_8 ruleId ruleIds h =>
      exact .inr (.inl ⟨ruleId, by rw [h]; rfl, rfl⟩)
    case h_10 h =>
      unfold State.drainNext
      split
      · exact .inr (.inr ⟨rfl, .inl (by rw [h]; rfl)⟩)
      · split <;> exact .inr (.inr ⟨rfl, .inl (by rw [h]; rfl)⟩)
    case h_11 h =>
      unfold State.poll
      split
      · exact .inr (.inr ⟨rfl, .inl (by rw [h]; rfl)⟩)
      · split <;> exact .inr (.inr ⟨rfl, .inl (by rw [h]; rfl)⟩)
    all_goals
      rename_i h
      exact .inr (.inr ⟨rfl, .inl (by rw [h]; rfl)⟩)

/-- Every bucket is that of a rule of the current snapshot, or is about to be cleared. -/
structure Buckets (s : State) : Prop where
  unique : s.rates.Unique
  owned : ∀ c, s.current = some c → ∀ x, s.rates.Has x → x ∈ s.ids c ∨ x ∈ s.holder.resets

theorem buckets_start (r : RuntimeState) : Buckets (State.start r rateTableEmpty) where
  unique := RateTable.unique_empty
  owned _ _ _ h := absurd h RateTable.not_has_empty

theorem ids_step (h : Step s act t) (ht : Timeline s) (hj : j ∈ s.published) :
    t.ids j = s.ids j := by
  rw [State.ids, (snap_step h (ht.published hj)).2]
  rfl

/-- The rules that a publication takes away are to be cleared. -/
theorem Publishes.owned (h : Publishes s req id old t) (hx : x ∈ s.ids old) :
    x ∈ t.ids id ∨ x ∈ t.holder.resets := by
  obtain ⟨r, hr, rfl⟩ := List.mem_map.mp hx
  have hids : t.ids id = s.ids id := by simp [State.ids, h.snap]
  rw [hids]
  by_cases hin : r.ruleId ∈ s.ids id
  · exact .inl hin
  · right
    rw [h.resets]
    refine List.mem_append_left _ (List.mem_map_of_mem (List.mem_filter.mpr ⟨hr, ?_⟩))
    simpa [State.ids] using hin

theorem buckets_step (h : Step s act t) (hg : Timely s act) (hl : Timeline s) (hb : Buckets s) :
    Buckets t := by
  -- without a publication the current snapshot and its rules stay
  have hstay : ∀ c, t.current = some c → (∀ req id old, ¬ Publishes s req id old t) →
      s.current = some c ∧ t.ids c = s.ids c := by
    intro c hc hno
    rcases step_cases h with ⟨-, req, id, old, hp⟩ | ⟨-, -, rfl⟩ | ⟨hcur, -⟩
    · exact absurd hp (hno req id old)
    · cases hc
    · have hc' := hcur.symm.trans hc
      exact ⟨hc', ids_step h hl (hl.current_mem hc')⟩
  rcases rates_step h with ⟨i, tuple, now, out, rfl, hm, hv, hh⟩ | ⟨ruleId, hh, hr⟩ | ⟨hr, hh⟩
  · refine ⟨ruleVerdict_unique hv hb.unique, ?_⟩
    intro c hc x hx
    obtain ⟨hc', hids⟩ := hstay c hc fun req id old hp => by
      have := hp.resets
      rw [hh, hp.holder] at this
      cases this
    rw [hids, hh]
    rcases ruleVerdict_has hv hx with hx | ⟨hit, hhit, rfl, hact, ho⟩
    · exact hb.owned c hc' x hx
    · rcases Nat.lt_or_ge i c with hic | hci
      · rcases hg hit hhit hact ho c (hl.current_mem hc') hic with hin | ⟨-, hin⟩
        · exact .inl hin
        · exact .inr hin
      · have he : i = c := Nat.le_antisymm (hl.le_current hc' (hl.held i hm)) hci
        subst he
        exact .inl (List.mem_map_of_mem (ruleHit_spec hhit).1)
  · refine ⟨hr ▸ ruleRateReset_unique hb.unique, ?_⟩
    intro c hc x hx
    obtain ⟨hc', hids⟩ := hstay c hc fun req id old hp => by
      rw [hp.holder] at hh
      cases hh
    rw [hr, ruleRateReset_has hb.unique] at hx
    rw [hids]
    rcases hb.owned c hc' x hx.1 with hin | hin
    · exact .inl hin
    · rw [hh] at hin
      rcases List.mem_cons.mp hin with rfl | hin
      · exact absurd rfl hx.2
      · exact .inr hin
  · refine ⟨hr ▸ hb.unique, ?_⟩
    intro c hc x hx
    rw [hr] at hx
    by_cases hp : ∃ req id old, Publishes s req id old t
    · obtain ⟨req, id, old, hp⟩ := hp
      have hidc : id = c := Option.some_inj.mp (hp.current.symm.trans hc)
      subst hidc
      rcases hb.owned old hp.displaced x hx with hin | hin
      · exact hp.owned hin
      · rw [hp.holder] at hin
        cases hin
    · obtain ⟨hc', hids⟩ := hstay c hc fun req id old h => hp ⟨req, id, old, h⟩
      rcases hh with hh | hpub
      · rw [hids, hh]
        exact hb.owned c hc' x hx
      · exact absurd hpub hp

theorem buckets_reachable (h : (fresh.restrict Timely).Reachable s) :
    Invariant s ∧ Timeline s ∧ Buckets s := by
  have hinit : ∀ {s}, (fresh.restrict Timely).init s →
      Invariant s ∧ Timeline s ∧ Buckets s := by
    rintro s ⟨r, rfl⟩
    exact ⟨invariant_start r _, timeline_start r _, buckets_start r⟩
  have hstep : ∀ {s act t}, Timely s act ∧ Step s act t → Invariant s ∧ Timeline s ∧ Buckets s →
      Invariant t ∧ Timeline t ∧ Buckets t := by
    rintro s act t ⟨hg, hst⟩ ⟨hi, hl, hb⟩
    exact ⟨invariant_step hst hi, timeline_step hst hi hl, buckets_step hst hg hl hb⟩
  exact h.invariant (I := fun s => Invariant s ∧ Timeline s ∧ Buckets s) hinit hstep

/-! ### From a publication to the first evaluation -/

/-- An id introduced by the publication of `id` over `old` still has no bucket. -/
structure Untouched (id old : SnapId) (x : UInt64) (s : State) : Prop where
  adjacent : ∃ newer rest, s.published = newer ++ id :: old :: rest
  absent : x ∉ s.ids old
  unopened : ¬ s.rates.Has x

theorem Publishes.untouched (h : Publishes s req id old t) (hst : Step s act t) (hl : Timeline s)
    (hb : Buckets s) (hx : x ∉ s.ids old) : Untouched id old x t := by
  have hmem := hl.current_mem h.displaced
  refine ⟨?_, ?_, ?_⟩
  · obtain ⟨rest, hrest⟩ := List.head?_eq_some_iff.mp (hl.head old h.displaced)
    exact ⟨[], rest, by rw [h.published, hrest]; rfl⟩
  · rw [ids_step hst hl hmem]
    exact hx
  · intro hhas
    rw [h.rates] at hhas
    rcases hb.owned old h.displaced x hhas with hin | hin
    · exact hx hin
    · rw [h.holder] at hin
      cases hin

theorem Untouched.lt (h : Untouched id old x s) (hl : Timeline s) : old < id := by
  obtain ⟨newer, rest, hp⟩ := h.adjacent
  have hs := hl.sorted
  rw [hp] at hs
  have hs' := (List.pairwise_append.mp hs).2.1
  exact (List.pairwise_cons.mp hs').1 old List.mem_cons_self

/-- No snapshot lies between the two. -/
theorem Untouched.le (h : Untouched id old x s) (hl : Timeline s) (hi : i ∈ s.published)
    (hlt : i < id) : i ≤ old := by
  obtain ⟨newer, rest, hp⟩ := h.adjacent
  have hs := hl.sorted
  rw [hp] at hs hi
  obtain ⟨-, htail, hcross⟩ := List.pairwise_append.mp hs
  rcases List.mem_append.mp hi with hi | hi
  · exact absurd hlt (Nat.lt_asymm (hcross i hi id List.mem_cons_self))
  rcases List.mem_cons.mp hi with rfl | hi
  · exact absurd hlt (Nat.lt_irrefl _)
  rcases List.mem_cons.mp hi with rfl | hi
  · exact Nat.le_refl _
  · have hrest := (List.pairwise_cons.mp htail).2
    exact Nat.le_of_lt ((List.pairwise_cons.mp hrest).1 i hi)

theorem untouched_step (h : Step s act t) (hg : Timely s act) (he : ¬ Evaluates id x s act)
    (hl : Timeline s) (hu : Untouched id old x s) : Untouched id old x t := by
  have hmem : id ∈ s.published ∧ old ∈ s.published := by
    obtain ⟨newer, rest, hp⟩ := hu.adjacent
    rw [hp]
    simp
  refine ⟨?_, ?_, ?_⟩
  · obtain ⟨newer, hp⟩ := published_step h
    obtain ⟨newer', rest, hp'⟩ := hu.adjacent
    exact ⟨newer ++ newer', rest, by rw [hp, hp', List.append_assoc]⟩
  · rw [ids_step h hl hmem.2]
    exact hu.absent
  · intro hx
    rcases rates_step h with ⟨i, tuple, now, out, rfl, hm, hv, -⟩ | ⟨ruleId, -, hr⟩ | ⟨hr, -⟩
    · rcases ruleVerdict_has hv hx with hx | ⟨hit, hhit, rfl, hact, ho⟩
      · exact hu.unopened hx
      have hlt : i < id := Nat.lt_of_not_le fun hle => he ⟨hle, hit, hhit, rfl, hact⟩
      rcases Nat.lt_or_eq_of_le (hu.le hl (hl.held i hm) hlt) with hlt' | rfl
      · rcases hg hit hhit hact ho old hmem.2 hlt' with hin | ⟨hc, -⟩
        · exact hu.absent hin
        · exact absurd (hu.lt hl) (Nat.not_lt_of_le (hl.le_current hc hmem.1))
      · exact hu.absent (List.mem_map_of_mem (ruleHit_spec hhit).1)
    · rw [hr] at hx
      rcases ruleRateReset_cases ruleId s.rates with ⟨hn, -⟩ | ⟨k, -, hn⟩
      · rw [hn] at hx
        exact hu.unopened hx
      · rw [hn] at hx
        obtain ⟨m, hm⟩ := hx
        rw [getElem_set_slot] at hm
        split at hm
        · exact not_holds_free hm
        · exact hu.unopened ⟨m, hm⟩
    · rw [hr] at hx
      exact hu.unopened hx

theorem untouched_run (h : (fresh.restrict fun s act => Timely s act ∧ ¬ Evaluates id x s act).Run
    t as u) (hi : Invariant t) (hl : Timeline t) (hu : Untouched id old x t) :
    Untouched id old x u := by
  induction h with
  | refl => exact hu
  | head hst _ ih =>
    obtain ⟨⟨hg, he⟩, hst⟩ := hst
    exact ih (invariant_step hst hi) (timeline_step hst hi hl) (untouched_step hst hg he hl hu)

/-- If every bucket is opened in time, a rule whose id a publication has introduced starts from a
full bucket, or the table is full, whenever it is evaluated first. -/
theorem reintroduced_starts_full (hs : (fresh.restrict Timely).Reachable s)
    (hp : Publishes s req id old t) (hst : Step s act t) (hx : r.ruleId ∉ s.ids old)
    (hrun : (fresh.restrict fun s act => Timely s act ∧ ¬ Evaluates id r.ruleId s act).Run
      t as u) : StartsFull r now u.rates := by
  obtain ⟨hi, hl, hb⟩ := buckets_reachable hs
  have hu := untouched_run hrun (invariant_step hst hi) (timeline_step hst hi hl)
    (hp.untouched hst hl hb hx)
  exact startsFull_of_not_has hu.unopened

/-! ### A reader of an older snapshot -/

open Store (rateRule)

/-- A writer call up to its publication. -/
def State.ready (s : State) (req : Request) : State :=
  ((s.begin req true true).advance).advance

/-- A writer call that clears one bucket. -/
def State.called (s : State) (req : Request) : State :=
  (((s.ready req).advance).advance).advance

section Calls

variable {G : State → Action → Prop}

theorem ready_reachable (hG : ∀ s a, (∀ i tuple now, a ≠ .evaluate i tuple now) → G s a)
    (h : (fresh.restrict G).Reachable s) (hidle : s.holder = .idle) (req : Request) :
    (fresh.restrict G).Reachable (s.ready req) := by
  have hadvance : ∀ s, G s .advance := fun s => hG s _ (by rintro i tuple now ⟨⟩)
  have hcall : (fresh.restrict G).Reachable (s.begin req true true) :=
    h.step ⟨hG s _ (by rintro i tuple now ⟨⟩), .call hidle⟩
  exact (hcall.step ⟨hadvance _, .advance⟩).step ⟨hadvance _, .advance⟩

theorem called_reachable (hG : ∀ s a, (∀ i tuple now, a ≠ .evaluate i tuple now) → G s a)
    (h : (fresh.restrict G).Reachable s) (hidle : s.holder = .idle) (req : Request) :
    (fresh.restrict G).Reachable (s.called req) := by
  have hadvance : ∀ s, G s .advance := fun s => hG s _ (by rintro i tuple now ⟨⟩)
  have hready := ready_reachable hG h hidle req
  exact ((hready.step ⟨hadvance _, .advance⟩).step ⟨hadvance _, .advance⟩).step
    ⟨hadvance _, .advance⟩

end Calls

/-- A rate limit has been added and taken away again while a reader holds the snapshot that has
it. -/
def limitCleared : State :=
  (((State.start .active rateTableEmpty).called (.add (some rateRule))).acquire).called .clear

/-- The reader has evaluated the rule, and a Replace, which has freed the first snapshot, is
about to bring it back. -/
def limitReplaced : State :=
  ({ limitCleared with rates := rateTableEmpty.set 0 ⟨7, 0, 5, true⟩ }.ready
    (.replace (.array [rateRule]) 0)).advance

theorem limitReplaced_reachable : fresh.Reachable limitReplaced := by
  have hG : ∀ (s : State) (a : Action), (∀ i tuple now, a ≠ .evaluate i tuple now) → True :=
    fun _ _ _ => trivial
  have hstart : (fresh.restrict fun _ _ => True).Reachable (.start .active rateTableEmpty) :=
    .of_init ⟨_, rfl⟩
  have hadd := called_reachable hG hstart rfl (.add (some rateRule))
  have hacquire : (fresh.restrict fun _ _ => True).Reachable (State.acquire _) :=
    hadd.step ⟨trivial, .acquire⟩
  have hclear : (fresh.restrict fun _ _ => True).Reachable limitCleared :=
    called_reachable hG hacquire rfl .clear
  have hheld : (1 : SnapId) ∈ limitCleared.held := Multiset.mem_singleton_self 1
  have hv : ruleVerdict (some (limitCleared.snap 1)) tupleZero 5 limitCleared.rates =
      some (⟨verdictAudit, 7, 0, 0, verdictReasonRuleMatch⟩,
        rateTableEmpty.set 0 ⟨7, 0, 5, true⟩) := by
    decide +kernel
  have hready := ready_reachable hG (hclear.step ⟨trivial, .evaluate hheld hv⟩) rfl
    (.replace (.array [rateRule]) 0)
  exact (hready.step ⟨trivial, .advance⟩).of_restrict

/-- The reader's bucket outlives the clearing, and the rule that comes back is over its limit at
once. -/
theorem reintroduced_inherits : ¬ ∀ (s t u : State) (req : Request) (id old : SnapId)
    (act : Action) (as : List Action) (r : Rule) (now : UInt64), fresh.Reachable s →
    Step s act t → Publishes s req id old t → r ∈ (t.snap id).rules →
    r.action = ruleActionRateLimit → r.ruleId ∉ s.ids old →
    (fresh.restrict fun s act => ¬ Evaluates id r.ruleId s act).Run t as u →
    StartsFull r now u.rates := by
  intro h
  obtain ⟨id, old, hp⟩ : ∃ id old, Publishes limitReplaced (.replace (.array [rateRule]) 0)
      id old limitReplaced.advance := publishes_of_publication .advance rfl
  have hold : old = 2 := Option.some_inj.mp (hp.displaced.symm.trans rfl)
  have hid : id = 3 := by
    have := hp.holder
    cases this
    rfl
  subst hold hid
  have hfull := h limitReplaced limitReplaced.advance limitReplaced.advance _ 3 2 .advance []
    rateRule 5 limitReplaced_reachable .advance hp (List.mem_singleton_self _) rfl
    List.not_mem_nil .refl
  have hover : rateAllow rateRule 5 limitReplaced.advance.rates =
      some (false, rateTableEmpty.set 0 ⟨7, 0, 5, true⟩) := by
    decide +kernel
  rcases hfull with ⟨-, ha⟩ | ⟨k, -, ha⟩
  · rw [hover] at ha
    cases ha
  · rw [hover] at ha
    have hb : false = true := congrArg Prod.fst (Option.some_inj.mp ha)
    cases hb

/-- The rule has been added and has let a connection of a reader through. -/
def limitUsed : State :=
  { (((State.start .active rateTableEmpty).called (.add (some rateRule))).acquire) with
    rates := rateTableEmpty.set 0 ⟨7, 0, 5, true⟩ }

/-- It has been deleted, and an Add, which has freed the first snapshot, is about to bring it
back. -/
def limitAgain : State := ((limitUsed.called (.delete 7)).ready (.add (some rateRule))).advance

theorem limitAgain_reachable : (fresh.restrict Timely).Reachable limitAgain := by
  have hG : ∀ s a, (∀ i tuple now, a ≠ .evaluate i tuple now) → Timely s a := by
    intro s a ha
    cases a with
    | evaluate i tuple now => exact absurd rfl (ha i tuple now)
    | acquire | release | call | shutdown | advance | runtime => trivial
  have hstart : (fresh.restrict Timely).Reachable (.start .active rateTableEmpty) :=
    .of_init ⟨_, rfl⟩
  have hadd := called_reachable hG hstart rfl (.add (some rateRule))
  have hacquire : (fresh.restrict Timely).Reachable (State.acquire _) :=
    hadd.step ⟨by trivial, .acquire⟩
  have hv : ruleVerdict (some (limitUsed.snap 1)) tupleZero 5 rateTableEmpty =
      some (⟨verdictAudit, 7, 0, 0, verdictReasonRuleMatch⟩, limitUsed.rates) := by
    decide +kernel
  have hused : (fresh.restrict Timely).Reachable limitUsed := by
    refine hacquire.step (a := .evaluate 1 tupleZero 5)
      ⟨?_, .evaluate (Multiset.mem_singleton_self 1) hv⟩
    -- no newer snapshot has been current
    intro hit _ _ _ j hj hlt
    have hle : ∀ j ∈ ([1, 0] : List SnapId), j ≤ 1 := by decide
    exact absurd (hle j hj) (Nat.not_le.mpr hlt)
  have hdelete := called_reachable hG hused rfl (.delete 7)
  exact (ready_reachable hG hdelete rfl (.add (some rateRule))).step ⟨by trivial, .advance⟩

theorem reintroduced_starts_full_again : limitUsed.rates.Has 7 ∧
    rateRule.ruleId ∉ limitAgain.ids 2 ∧ StartsFull rateRule 6 limitAgain.advance.rates := by
  have habsent : rateRule.ruleId ∉ limitAgain.ids 2 := List.not_mem_nil
  obtain ⟨id, old, hp⟩ : ∃ id old, Publishes limitAgain (.add (some rateRule)) id old
      limitAgain.advance := publishes_of_publication .advance rfl
  have hold : old = 2 := Option.some_inj.mp (hp.displaced.symm.trans rfl)
  subst hold
  exact ⟨⟨0, rfl, rfl⟩, habsent,
    reintroduced_starts_full limitAgain_reachable hp .advance habsent .refl⟩

end Sentinel.Concurrent
