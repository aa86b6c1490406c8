import Sentinel.General.Counters
import Sentinel.General.System
import Sentinel.Rules.Engine

/-! The counters of any number of `SkRuleEvaluate` calls at a time. Every atomic addition, every
read of `matchNsMax`, every CAS on it and every section under `g_RateLock` is one step. -/
namespace Sentinel.Statistics

open Transition Counters

/-- The arguments of a call and what the performance counter will show it. -/
structure Evaluation where
  snap : Option Snapshot
  tuple : ClassifyTuple
  clock : Clock

def Evaluation.ns (e : Evaluation) : UInt64 := matchNs e.clock

/-- The next step of a call: the counter it adds to, the section of `SkRateAllow`, or the read and
the CAS of the last loop. -/
inductive Point where
  | classifyCalls
  | hits
  | rate (hit : Rule)
  | rateLimited (hit : Rule)
  | verdict (out : Verdict)
  | matchNsTotal
  | matchNsSamples
  | readMax
  | casMax (curMax : UInt64)

structure Call where
  point : Point
  eval : Evaluation

structure State where
  stats : RuleStats
  rates : RateTable
  calls : Multiset Call

namespace Call

/-- The section of `SkRateAllow` on the buckets; `none` if it faults. The other steps leave them
alone. -/
def rate (t : RateTable) : Call → Option (Bool × RateTable)
  | ⟨.rate hit, e⟩ => rateAllow hit (qpcMs e.clock) t
  | _ => some (true, t)

/-- The counters after the next step of a call. -/
def count (c : RuleStats) : Call → RuleStats
  | ⟨.classifyCalls, _⟩ => { c with classifyCalls := c.classifyCalls + 1 }
  | ⟨.hits, e⟩ =>
    if (ruleHit e.snap e.tuple).isSome then { c with ruleHits := c.ruleHits + 1 }
    else { c with defaultHits := c.defaultHits + 1 }
  | ⟨.rate _, _⟩ => c
  | ⟨.rateLimited _, _⟩ => { c with rateLimited := c.rateLimited + 1 }
  | ⟨.verdict out, _⟩ =>
    if out.action = verdictBlock then { c with verdictBlock := c.verdictBlock + 1 }
    else if out.action = verdictAudit then { c with verdictAudit := c.verdictAudit + 1 }
    else { c with verdictPermit := c.verdictPermit + 1 }
  | ⟨.matchNsTotal, e⟩ => { c with matchNsTotal := c.matchNsTotal + e.ns }
  | ⟨.matchNsSamples, _⟩ => { c with matchNsSamples := c.matchNsSamples + 1 }
  | ⟨.readMax, _⟩ => c
  | ⟨.casMax curMax, e⟩ => if c.matchNsMax = curMax then { c with matchNsMax := e.ns } else c

/-- Where the call stands after that step; `none` when it has returned. `allowed` is the answer of
the bucket. -/
def next (c : RuleStats) (allowed : Bool) : Call → Option Call
  | ⟨.classifyCalls, e⟩ => some ⟨.hits, e⟩
  | ⟨.hits, e⟩ =>
    match ruleHit e.snap e.tuple with
    | some hit =>
      if hit.action = ruleActionRateLimit then some ⟨.rate hit, e⟩
      else some ⟨.verdict (hitVerdict hit true), e⟩
    | none => some ⟨.verdict (defaultVerdict e.snap), e⟩
  | ⟨.rate hit, e⟩ =>
    if allowed then some ⟨.verdict (hitVerdict hit true), e⟩ else some ⟨.rateLimited hit, e⟩
  | ⟨.rateLimited hit, e⟩ => some ⟨.verdict (hitVerdict hit false), e⟩
  | ⟨.verdict _, e⟩ => some ⟨.matchNsTotal, e⟩
  | ⟨.matchNsTotal, e⟩ => some ⟨.matchNsSamples, e⟩
  | ⟨.matchNsSamples, e⟩ => some ⟨.readMax, e⟩
  | ⟨.readMax, e⟩ => if e.ns ≤ c.matchNsMax then none else some ⟨.casMax c.matchNsMax, e⟩
  | ⟨.casMax curMax, e⟩ => if c.matchNsMax = curMax then none else some ⟨.readMax, e⟩

end Call

inductive Action where
  | callEvaluate (e : Evaluation)
  | run (k : Call)
  /-- `SkRuleRateReset` by a writer of the store. -/
  | rateReset (ruleId : UInt64)

inductive Step : State → Action → State → Prop where
  | callEvaluate {s : State} {e : Evaluation} :
      Step s (.callEvaluate e) { s with calls := ⟨.classifyCalls, e⟩ ::ₘ s.calls }
  | run {s : State} {k : Call} {allowed : Bool} {rates : RateTable} (rest : Multiset Call)
      (hc : s.calls = k ::ₘ rest) (hr : k.rate s.rates = some (allowed, rates)) :
      Step s (.run k) ⟨k.count s.stats, rates, goOn (k.next s.stats allowed) rest⟩
  | rateReset {s : State} {ruleId : UInt64} :
      Step s (.rateReset ruleId) { s with rates := ruleRateReset ruleId s.rates }

/-- The counters before any call, but for the maximum. -/
def zeroStats (matchNsMax : UInt64) : RuleStats := ⟨0, 0, 0, 0, 0, 0, 0, 0, matchNsMax, 0⟩

/-- No call is in progress. -/
def system (matchNsMax : UInt64) : System State Action where
  init s := s.stats = zeroStats matchNsMax ∧ s.calls = 0
  step := Step

def Action.begins : Action → Option Evaluation
  | .callEvaluate e => some e
  | .run _ | .rateReset _ => none

/-- The calls of a run. -/
def begun (as : List Action) : List Evaluation := as.filterMap Action.begins

variable {m : UInt64} {s t : State} {act : Action} {as : List Action} {k : Call}
  {rest : Multiset Call} {c : RuleStats} {allowed : Bool} {e : Evaluation}

/-! ### What a call owes -/

/-- How far a call has come. -/
def Point.rank : Point → ℕ
  | .classifyCalls => 0
  | .hits => 1
  | .rate _ => 2
  | .rateLimited _ => 3
  | .verdict _ => 4
  | .matchNsTotal => 5
  | .matchNsSamples => 6
  | .readMax | .casMax _ => 7

theorem rank_le (p : Point) : p.rank ≤ 7 := by
  cases p <;> simp [Point.rank]

/-- The points at which every call adds to a counter. -/
def Counter (n : ℕ) : Prop := n = 0 ∨ n = 1 ∨ 4 ≤ n ∧ n ≤ 6

/-- One, as long as the call has not passed the counter `n`. -/
def owes (n : ℕ) (k : Call) : ℕ := if k.point.rank ≤ n then 1 else 0

/-- The time, as long as it has not been added. -/
def owesNs (k : Call) : ℕ := if k.point.rank ≤ 5 then k.eval.ns.toNat else 0

/-- One between the verdict BLOCK and its counter. -/
def owesBlock : Call → ℕ
  | ⟨.verdict out, _⟩ => if out.action = verdictBlock then 1 else 0
  | _ => 0

/-- A step of a call passes the counter that it stands at and no other. -/
theorem next_passes (k : Call) (c : RuleStats) (allowed : Bool) :
    k.next c allowed = none ∧ 6 < k.point.rank ∨ ∃ q, k.next c allowed = some ⟨q, k.eval⟩ ∧
      ∀ n, Counter n → (q.rank ≤ n ↔ k.point.rank < n) := by
  simp only [Counter]
  obtain ⟨p, e⟩ := k
  cases p with
  | classifyCalls | rateLimited | verdict | matchNsTotal | matchNsSamples =>
    exact .inr ⟨_, rfl, fun n hn => by simp only [Point.rank]; omega⟩
  | hits =>
    rw [Call.next]
    cases ruleHit e.snap e.tuple with
    | none => exact .inr ⟨_, rfl, fun n hn => by simp only [Point.rank]; omega⟩
    | some hit =>
      dsimp only
      split
      · exact .inr ⟨_, rfl, fun n hn => by simp only [Point.rank]; omega⟩
      · exact .inr ⟨_, rfl, fun n hn => by simp only [Point.rank]; omega⟩
  | rate hit =>
    rw [Call.next]
    split
    · exact .inr ⟨_, rfl, fun n hn => by simp only [Point.rank]; omega⟩
    · exact .inr ⟨_, rfl, fun n hn => by simp only [Point.rank]; omega⟩
  | readMax =>
    rw [Call.next]
    split
    · exact .inl ⟨rfl, Nat.lt_succ_self 6⟩
    · exact .inr ⟨_, rfl, fun n hn => by simp only [Point.rank]; omega⟩
  | casMax curMax =>
    rw [Call.next]
    split
    · exact .inl ⟨rfl, Nat.lt_succ_self 6⟩
    · exact .inr ⟨_, rfl, fun n hn => by simp only [Point.rank]; omega⟩

theorem owes_next {n : ℕ} (hn : Counter n) :
    owedBy (owes n) (k.next c allowed) = if k.point.rank < n then 1 else 0 := by
  obtain ⟨hnext, hrank⟩ | ⟨q, hnext, hrank⟩ := next_passes k c allowed <;> rw [hnext]
  · rw [Counter] at hn
    exact (if_neg (by omega)).symm
  · exact if_congr (hrank n hn) rfl rfl

theorem owesNs_next :
    owedBy owesNs (k.next c allowed) = if k.point.rank < 5 then k.eval.ns.toNat else 0 := by
  obtain ⟨hnext, hrank⟩ | ⟨q, hnext, hrank⟩ := next_passes k c allowed <;> rw [hnext]
  · exact (if_neg (by omega)).symm
  · exact if_congr (hrank 5 (by simp only [Counter]; omega)) rfl rfl

/-! ### What a step adds -/

theorem toNat_add_one {x : UInt64} (h : x.toNat + 1 < UInt64.size) :
    (x + 1).toNat = x.toNat + 1 := by
  rw [UInt64.toNat_add, UInt64.toNat_one]
  exact Nat.mod_eq_of_lt h

/-- The counters that a step at a point of rank `n` leaves alone. -/
structure Frame (c c' : RuleStats) (n : ℕ) : Prop where
  classifyCalls : n ≠ 0 → c'.classifyCalls = c.classifyCalls
  ruleHits : n ≠ 1 → c'.ruleHits = c.ruleHits
  defaultHits : n ≠ 1 → c'.defaultHits = c.defaultHits
  rateLimited : n ≠ 3 → c'.rateLimited = c.rateLimited
  verdictPermit : n ≠ 4 → c'.verdictPermit = c.verdictPermit
  verdictBlock : n ≠ 4 → c'.verdictBlock = c.verdictBlock
  verdictAudit : n ≠ 4 → c'.verdictAudit = c.verdictAudit
  matchNsTotal : n ≠ 5 → c'.matchNsTotal = c.matchNsTotal
  matchNsSamples : n ≠ 6 → c'.matchNsSamples = c.matchNsSamples
  matchNsMax : n ≠ 7 → c'.matchNsMax = c.matchNsMax

theorem count_frame (k : Call) (c : RuleStats) : Frame c (k.count c) k.point.rank := by
  obtain ⟨p, e⟩ := k
  cases p with
  | hits | verdict | casMax =>
    simp only [Call.count]
    split_ifs <;> constructor <;> intro hk <;> first | exact absurd rfl hk | with_reducible rfl
  | classifyCalls | rate | rateLimited | matchNsTotal | matchNsSamples | readMax =>
    rw [Call.count]
    constructor <;> intro hk <;> first | exact absurd rfl hk | with_reducible rfl

/-- A value that grows by one at `n` and stays as it is elsewhere. -/
structure GrowsAt (n : ℕ) (value : RuleStats → ℕ) : Prop where
  there : ∀ {k : Call} {c}, k.point.rank = n → value c + 1 < UInt64.size →
    value (k.count c) = value c + 1
  elsewhere : ∀ {k : Call} {c}, k.point.rank ≠ n → value (k.count c) = value c

/-- A step adds what the call owes less after it. -/
theorem GrowsAt.step {n : ℕ} {value : RuleStats → ℕ} (h : GrowsAt n value) (hn : Counter n)
    (hc : value c + owes n k < UInt64.size) :
    value (k.count c) + owedBy (owes n) (k.next c allowed) = value c + owes n k := by
  rw [owes] at hc
  rw [owes_next hn, owes]
  by_cases hrank : k.point.rank = n
  · rw [if_pos hrank.le] at hc
    rw [h.there hrank hc, if_neg hrank.not_lt, if_pos hrank.le]
  · rw [h.elsewhere hrank]
    exact congrArg _ (if_congr ⟨Nat.le_of_lt, fun hle => Nat.lt_of_le_of_ne hle hrank⟩ rfl rfl)

theorem classifyCalls_grows : GrowsAt 0 fun c => c.classifyCalls.toNat where
  there {k c} hk h := by
    obtain ⟨p, e⟩ := k
    cases p <;> cases hk
    exact toNat_add_one h
  elsewhere {k c} hk := by
    rw [(count_frame k c).classifyCalls hk]

theorem hits_grows : GrowsAt 1 fun c => c.ruleHits.toNat + c.defaultHits.toNat where
  there {k c} hk h := by
    obtain ⟨p, e⟩ := k
    cases p <;> cases hk
    simp only [Call.count]
    split
    · rw [toNat_add_one (by omega)]
      exact Nat.add_right_comm _ _ _
    · rw [toNat_add_one (by omega)]
      exact (Nat.add_assoc _ _ _).symm
  elsewhere {k c} hk := by
    rw [(count_frame k c).ruleHits hk, (count_frame k c).defaultHits hk]

theorem verdicts_grow : GrowsAt 4 fun c =>
    c.verdictPermit.toNat + c.verdictBlock.toNat + c.verdictAudit.toNat where
  there {k c} hk h := by
    obtain ⟨p, e⟩ := k
    cases p <;> cases hk
    simp only [Call.count]
    split_ifs
    · rw [toNat_add_one (by omega)]
      dsimp only
      omega
    · rw [toNat_add_one (by omega)]
      dsimp only
      omega
    · rw [toNat_add_one (by omega)]
      dsimp only
      omega
  elsewhere {k c} hk := by
    have hframe := count_frame k c
    rw [hframe.verdictPermit hk, hframe.verdictBlock hk, hframe.verdictAudit hk]

theorem matchNsSamples_grows : GrowsAt 6 fun c => c.matchNsSamples.toNat where
  there {k c} hk h := by
    obtain ⟨p, e⟩ := k
    cases p <;> cases hk
    exact toNat_add_one h
  elsewhere {k c} hk := by
    rw [(count_frame k c).matchNsSamples hk]

theorem matchNsTotal_step (h : c.matchNsTotal.toNat + owesNs k < UInt64.size) :
    (k.count c).matchNsTotal.toNat + owedBy owesNs (k.next c allowed) =
      c.matchNsTotal.toNat + owesNs k := by
  rw [owesNs] at h
  rw [owesNs_next, owesNs]
  by_cases hrank : k.point.rank = 5
  · rw [if_pos hrank.le] at h
    rw [if_neg hrank.not_lt, if_pos hrank.le]
    obtain ⟨p, e⟩ := k
    cases p <;> cases hrank
    rw [Call.count, UInt64.toNat_add, Nat.add_zero]
    exact Nat.mod_eq_of_lt h
  · rw [(count_frame k c).matchNsTotal hrank]
    exact congrArg _ (if_congr ⟨Nat.le_of_lt, fun hle => Nat.lt_of_le_of_ne hle hrank⟩ rfl rfl)

/-! ### What holds of a call -/

namespace Call

/-- A call at the limit has hit a rate limit, and one at the CAS has read a smaller maximum. -/
def Sound : Call → Prop
  | ⟨.rate hit, _⟩ | ⟨.rateLimited hit, _⟩ => hit.action = ruleActionRateLimit
  | ⟨.casMax curMax, e⟩ => curMax < e.ns
  | _ => True

theorem Sound.next {k' : Call} (h : k.Sound) (hk : k.next c allowed = some k') : k'.Sound := by
  obtain ⟨p, e⟩ := k
  cases p with
  | hits =>
    rw [Call.next] at hk
    cases hh : ruleHit e.snap e.tuple with
    | none =>
      rw [hh] at hk
      cases hk
      trivial
    | some hit =>
      rw [hh] at hk
      dsimp only at hk
      split at hk <;> cases hk
      · assumption
      · trivial
  | rate hit =>
    rw [Call.next] at hk
    split at hk <;> cases hk
    · trivial
    · exact h
  | readMax =>
    rw [Call.next] at hk
    split at hk <;> cases hk
    rename_i hle
    exact UInt64.not_le.mp hle
  | casMax curMax =>
    rw [Call.next] at hk
    split at hk <;> cases hk
    trivial
  | classifyCalls | rateLimited | verdict | matchNsTotal | matchNsSamples =>
    cases hk
    trivial

end Call

theorem owesBlock_eq_zero (hk : k.point.rank ≠ 4) : owesBlock k = 0 := by
  obtain ⟨p, e⟩ := k
  cases p with
  | verdict => exact absurd rfl hk
  | classifyCalls | hits | rate | rateLimited | matchNsTotal | matchNsSamples | readMax
  | casMax => rfl

/-- The verdict BLOCK comes with every count of `rateLimited`, if its counter does not wrap. -/
theorem rateLimited_step (hs : k.Sound)
    (h : c.verdictPermit.toNat + c.verdictBlock.toNat + c.verdictAudit.toNat + owes 4 k <
      UInt64.size) :
    (k.count c).rateLimited.toNat + c.verdictBlock.toNat + owesBlock k ≤
      c.rateLimited.toNat + (k.count c).verdictBlock.toNat +
        owedBy owesBlock (k.next c allowed) := by
  have hframe := count_frame k c
  by_cases hlimited : k.point.rank = 3
  · have hblock := hframe.verdictBlock (by omega)
    have howes := @owesBlock_eq_zero k (by omega)
    rw [hblock, howes]
    obtain ⟨p, e⟩ := k
    cases p <;> cases hlimited
    rename_i hit
    have hverdict : (hitVerdict hit false).action = verdictBlock := by
      have haction : hit.action = ruleActionRateLimit := hs
      simp [hitVerdict, haction, ruleActionRateLimit, ruleActionBlock, ruleActionAudit]
    have hadd : (c.rateLimited + 1).toNat ≤ c.rateLimited.toNat + 1 := by
      rw [UInt64.toNat_add, UInt64.toNat_one]
      exact Nat.mod_le _ _
    have howed : owedBy owesBlock (Call.next c allowed ⟨.rateLimited hit, e⟩) = 1 :=
      if_pos hverdict
    have hcount : (Call.count c ⟨.rateLimited hit, e⟩).rateLimited = c.rateLimited + 1 := by
      rw [Call.count]
    rw [howed, hcount]
    omega
  rw [hframe.rateLimited hlimited]
  by_cases hverdict : k.point.rank = 4
  · have howes : owes 4 k = 1 := if_pos hverdict.le
    rw [howes] at h
    obtain ⟨p, e⟩ := k
    cases p <;> cases hverdict
    rename_i out
    rw [owesBlock]
    by_cases hblock : out.action = verdictBlock
    · have hcount : (Call.count c ⟨.verdict out, e⟩).verdictBlock = c.verdictBlock + 1 := by
        rw [Call.count, if_pos hblock]
      rw [hcount, toNat_add_one (by omega), if_pos hblock]
      omega
    · have hcount : (Call.count c ⟨.verdict out, e⟩).verdictBlock = c.verdictBlock := by
        rw [Call.count, if_neg hblock]
        split <;> with_reducible rfl
      rw [hcount, if_neg hblock]
      omega
  · rw [hframe.verdictBlock hverdict, owesBlock_eq_zero hverdict]
    omega

/-- A call goes on and leaves the maximum alone, or returns when the maximum is not smaller than
its time. -/
theorem max_cases (hs : k.Sound) :
    (∃ q, k.next c allowed = some ⟨q, k.eval⟩ ∧ (k.count c).matchNsMax = c.matchNsMax) ∨
    k.next c allowed = none ∧
      (k.eval.ns ≤ c.matchNsMax ∧ (k.count c).matchNsMax = c.matchNsMax ∨
        c.matchNsMax ≤ k.eval.ns ∧ (k.count c).matchNsMax = k.eval.ns) := by
  by_cases hrank : k.point.rank = 7
  · obtain ⟨p, e⟩ := k
    cases p with
    | classifyCalls | hits | rate | rateLimited | verdict | matchNsTotal | matchNsSamples =>
      cases hrank
    | readMax =>
      rw [Call.next, Call.count]
      split
      · rename_i hle
        exact .inr ⟨rfl, .inl ⟨hle, rfl⟩⟩
      · exact .inl ⟨_, rfl, rfl⟩
    | casMax curMax =>
      rw [Call.next, Call.count]
      split
      · rename_i heq
        have hle : c.matchNsMax ≤ e.ns := heq ▸ UInt64.le_of_lt hs
        exact .inr ⟨rfl, .inr ⟨hle, rfl⟩⟩
      · exact .inl ⟨_, rfl, rfl⟩
  · have hmax := (count_frame k c).matchNsMax hrank
    obtain ⟨-, hlast⟩ | ⟨q, hnext, -⟩ := next_passes k c allowed
    · have hle := rank_le k.point
      omega
    · exact .inl ⟨q, hnext, hmax⟩

/-! ### One call at a time -/

theorem rateLimited_defaultVerdict (snap : Option Snapshot) :
    (defaultVerdict snap).rateLimited = 0 := by
  simp only [defaultVerdict]
  split_ifs <;> rfl

/-- Only the answer of the bucket limits the rate. -/
theorem rateLimited_hitVerdict (hit : Rule) (allowed : Bool) :
    (hitVerdict hit allowed).rateLimited =
      if hit.action = ruleActionRateLimit ∧ allowed = false then 1 else 0 := by
  simp only [hitVerdict]
  split_ifs <;> simp_all [ruleActionBlock, ruleActionAudit, ruleActionRateLimit]

/-- One step of a call, with what it comes to. -/
theorem run_head {c' : RuleStats} {rates rates' : RateTable} {calls : Multiset Call}
    {ks : List Call}
    (hr : k.rate rates = some (allowed, rates')) (hcount : k.count c = c')
    (hnext : goOn (k.next c allowed) rest = calls)
    (h : (system m).Run ⟨c', rates', calls⟩ (ks.map .run) t) :
    (system m).Run ⟨c, rates, k ::ₘ rest⟩ ((k :: ks).map .run) t := by
  subst hcount
  subst hnext
  exact .head (.run rest rfl hr) h

/-- The read and the CAS of a call that no other interrupts. -/
theorem max_alone (m : UInt64) (c : RuleStats) (rates : RateTable) (rest : Multiset Call)
    (e : Evaluation) : ∃ ks : List Call,
      (system m).Run ⟨c, rates, ⟨.readMax, e⟩ ::ₘ rest⟩ (ks.map .run)
        ⟨{ c with matchNsMax := if c.matchNsMax < e.ns then e.ns else c.matchNsMax },
          rates, rest⟩ := by
  have hread : Call.count c ⟨.readMax, e⟩ = c := by rw [Call.count]
  by_cases hle : e.ns ≤ c.matchNsMax
  · refine ⟨[⟨.readMax, e⟩],
      run_head rfl hread (by rw [Call.next, if_pos hle, goOn, Option.elim]) ?_⟩
    rw [if_neg (UInt64.not_lt.mpr hle)]
    exact .refl
  · have hcas : Call.count c ⟨.casMax c.matchNsMax, e⟩ = { c with matchNsMax := e.ns } := by
      rw [Call.count, if_pos rfl]
    refine ⟨[⟨.readMax, e⟩, ⟨.casMax c.matchNsMax, e⟩],
      run_head rfl hread (by rw [Call.next, if_neg hle, goOn, Option.elim]) ?_⟩
    rw [if_pos (UInt64.not_le.mp hle)]
    exact run_head rfl hcas (by rw [Call.next, if_pos rfl, goOn, Option.elim]) .refl

/-- The counters after the verdict of a call that no other interrupts. -/
def tailCount (c : RuleStats) (out : Verdict) (e : Evaluation) : RuleStats :=
  let c := Call.count c ⟨.verdict out, e⟩
  { c with
    matchNsTotal := c.matchNsTotal + e.ns
    matchNsMax := if c.matchNsMax < e.ns then e.ns else c.matchNsMax
    matchNsSamples := c.matchNsSamples + 1 }

theorem verdict_alone (m : UInt64) (c : RuleStats) (rates : RateTable) (rest : Multiset Call)
    (e : Evaluation) (out : Verdict) : ∃ ks : List Call,
      (system m).Run ⟨c, rates, ⟨.verdict out, e⟩ ::ₘ rest⟩ (ks.map .run)
        ⟨tailCount c out e, rates, rest⟩ := by
  rw [tailCount]
  generalize hc : Call.count c ⟨.verdict out, e⟩ = c₁
  have htotal : Call.count c₁ ⟨.matchNsTotal, e⟩ =
      { c₁ with matchNsTotal := c₁.matchNsTotal + e.ns } := by rw [Call.count]
  generalize hc₂ : { c₁ with matchNsTotal := c₁.matchNsTotal + e.ns } = c₂ at htotal
  have hsamples : Call.count c₂ ⟨.matchNsSamples, e⟩ =
      { c₂ with matchNsSamples := c₂.matchNsSamples + 1 } := by rw [Call.count]
  obtain ⟨ks, hks⟩ := max_alone m { c₂ with matchNsSamples := c₂.matchNsSamples + 1 } rates rest e
  refine ⟨⟨.verdict out, e⟩ :: ⟨.matchNsTotal, e⟩ :: ⟨.matchNsSamples, e⟩ :: ks, ?_⟩
  refine run_head rfl hc rfl (run_head rfl htotal rfl (run_head rfl hsamples rfl ?_))
  subst hc₂
  exact hks

theorem tailCount_eq (c : RuleStats) (hit : Option Rule) (out : Verdict) (e : Evaluation) :
    tailCount { c with
      classifyCalls := c.classifyCalls + 1
      rateLimited := c.rateLimited + if out.rateLimited = 1 then 1 else 0
      ruleHits := c.ruleHits + if hit.isSome then 1 else 0
      defaultHits := c.defaultHits + if hit.isSome then 0 else 1 } out e =
      ruleStatsCount c hit out e.ns := by
  rw [tailCount, Call.count, ruleStatsCount]
  generalize e.ns = n
  by_cases hblock : out.action = verdictBlock
  · have haudit : out.action ≠ verdictAudit := by
      rw [hblock]
      decide
    simp only [if_pos hblock, if_neg haudit, if_pos (Or.inl hblock), UInt64.add_zero]
  · by_cases haudit : out.action = verdictAudit
    · simp only [if_neg hblock, if_pos haudit, if_pos (Or.inr haudit), UInt64.add_zero]
    · have hneither := not_or.mpr ⟨hblock, haudit⟩
      simp only [if_neg hblock, if_neg haudit, if_neg hneither, UInt64.add_zero]

/-- No rule is hit. -/
theorem default_alone (m : UInt64) (c : RuleStats) (rates : RateTable) (rest : Multiset Call)
    (hh : ruleHit e.snap e.tuple = none) : ∃ ks : List Call,
      (system m).Run ⟨{ c with classifyCalls := c.classifyCalls + 1 }, rates, ⟨.hits, e⟩ ::ₘ rest⟩
        (ks.map .run) ⟨ruleStatsCount c none (defaultVerdict e.snap) e.ns, rates, rest⟩ := by
  let c₁ : RuleStats := { c with classifyCalls := c.classifyCalls + 1 }
  have hne : (0 : UInt32) ≠ 1 := by decide
  have hhits : Call.count c₁ ⟨.hits, e⟩ = { c₁ with defaultHits := c₁.defaultHits + 1 } := by
    rw [Call.count, hh]
    exact if_neg Bool.false_ne_true
  have hnext : Call.next c₁ true ⟨.hits, e⟩ = some ⟨.verdict (defaultVerdict e.snap), e⟩ := by
    rw [Call.next, hh]
  obtain ⟨ks, hks⟩ := verdict_alone m { c₁ with defaultHits := c₁.defaultHits + 1 } rates rest e
    (defaultVerdict e.snap)
  have htail := tailCount_eq c none (defaultVerdict e.snap) e
  rw [rateLimited_defaultVerdict] at htail
  simp only [Option.isSome_none, Bool.false_eq_true, if_false, if_neg hne, UInt64.add_zero]
    at htail
  rw [← htail]
  exact ⟨⟨.hits, e⟩ :: ks, run_head rfl hhits (by rw [hnext, goOn, Option.elim]) hks⟩

theorem hits_some {hit : Rule} (hh : ruleHit e.snap e.tuple = some hit) :
    Call.count c ⟨.hits, e⟩ = { c with ruleHits := c.ruleHits + 1 } := by
  rw [Call.count, hh]
  exact if_pos rfl

/-- A rule that is no rate limit. -/
theorem hit_alone (m : UInt64) (c : RuleStats) (rates : RateTable) (rest : Multiset Call)
    {hit : Rule} (hh : ruleHit e.snap e.tuple = some hit) (ha : hit.action ≠ ruleActionRateLimit) :
    ∃ ks : List Call,
      (system m).Run ⟨{ c with classifyCalls := c.classifyCalls + 1 }, rates, ⟨.hits, e⟩ ::ₘ rest⟩
        (ks.map .run) ⟨ruleStatsCount c (some hit) (hitVerdict hit true) e.ns, rates, rest⟩ := by
  let c₁ : RuleStats := { c with classifyCalls := c.classifyCalls + 1 }
  let c₂ : RuleStats := { c₁ with ruleHits := c₁.ruleHits + 1 }
  have hne : (0 : UInt32) ≠ 1 := by decide
  have hhits : Call.count c₁ ⟨.hits, e⟩ = c₂ := hits_some hh
  have hnext : Call.next c₁ true ⟨.hits, e⟩ = some ⟨.verdict (hitVerdict hit true), e⟩ := by
    rw [Call.next, hh]
    exact if_neg ha
  obtain ⟨ks, hks⟩ := verdict_alone m c₂ rates rest e (hitVerdict hit true)
  have htail := tailCount_eq c (some hit) (hitVerdict hit true) e
  rw [rateLimited_hitVerdict] at htail
  simp only [ha, Option.isSome_some, if_true, false_and, if_false, if_neg hne, UInt64.add_zero]
    at htail
  rw [← htail]
  exact ⟨⟨.hits, e⟩ :: ks, run_head rfl hhits (by rw [hnext, goOn, Option.elim]) hks⟩

/-- A rate limit whose bucket gives this answer. -/
theorem limit_alone (m : UInt64) (c : RuleStats) (rest : Multiset Call) {rates rates' : RateTable}
    {hit : Rule} (hh : ruleHit e.snap e.tuple = some hit) (ha : hit.action = ruleActionRateLimit)
    (hr : rateAllow hit (qpcMs e.clock) rates = some (allowed, rates')) :
    ∃ ks : List Call,
      (system m).Run ⟨{ c with classifyCalls := c.classifyCalls + 1 }, rates, ⟨.hits, e⟩ ::ₘ rest⟩
        (ks.map .run)
        ⟨ruleStatsCount c (some hit) (hitVerdict hit allowed) e.ns, rates', rest⟩ := by
  let c₁ : RuleStats := { c with classifyCalls := c.classifyCalls + 1 }
  let c₂ : RuleStats := { c₁ with ruleHits := c₁.ruleHits + 1 }
  have hne : (0 : UInt32) ≠ 1 := by decide
  have hhits : Call.count c₁ ⟨.hits, e⟩ = c₂ := hits_some hh
  have hnext : Call.next c₁ true ⟨.hits, e⟩ = some ⟨.rate hit, e⟩ := by
    rw [Call.next, hh]
    exact if_pos ha
  have hrate : Call.count c₂ ⟨.rate hit, e⟩ = c₂ := by rw [Call.count]
  have htail := tailCount_eq c (some hit) (hitVerdict hit allowed) e
  rw [rateLimited_hitVerdict] at htail
  cases allowed with
  | true =>
    obtain ⟨ks, hks⟩ := verdict_alone m c₂ rates' rest e (hitVerdict hit true)
    simp only [Option.isSome_some, if_true, Bool.true_eq_false, and_false, if_false, if_neg hne,
      UInt64.add_zero] at htail
    rw [← htail]
    exact ⟨⟨.hits, e⟩ :: ⟨.rate hit, e⟩ :: ks,
      run_head rfl hhits (by rw [hnext, goOn, Option.elim])
        (run_head hr hrate (by rw [Call.next, if_pos rfl, goOn, Option.elim]) hks)⟩
  | false =>
    let c₃ : RuleStats := { c₂ with rateLimited := c₂.rateLimited + 1 }
    have hcount : Call.count c₂ ⟨.rateLimited hit, e⟩ = c₃ := by rw [Call.count]
    have hrefused : Call.next c₂ false ⟨.rate hit, e⟩ = some ⟨.rateLimited hit, e⟩ := by
      rw [Call.next, if_neg Bool.false_ne_true]
    obtain ⟨ks, hks⟩ := verdict_alone m c₃ rates' rest e (hitVerdict hit false)
    simp only [Option.isSome_some, if_true, ha, and_self, UInt64.add_zero] at htail
    rw [← htail]
    exact ⟨⟨.hits, e⟩ :: ⟨.rate hit, e⟩ :: ⟨.rateLimited hit, e⟩ :: ks,
      run_head rfl hhits (by rw [hnext, goOn, Option.elim])
        (run_head hr hrate (by rw [hrefused, goOn, Option.elim]) (run_head rfl hcount rfl hks))⟩

/-- A call that no other interrupts does what `ruleEvaluate` says. -/
theorem evaluate_alone {out : Verdict} {rates rates' : RateTable} {stats : RuleStats}
    (h : ruleEvaluate e.snap e.tuple e.clock rates c = some (out, rates', stats)) :
    ∃ ks : List Call, (system m).Run ⟨c, rates, rest⟩ (.callEvaluate e :: ks.map .run)
      ⟨stats, rates', rest⟩ := by
  obtain ⟨⟨out, rates'⟩, hv, he⟩ := Option.map_eq_some_iff.mp h
  cases he
  let c₁ : RuleStats := { c with classifyCalls := c.classifyCalls + 1 }
  have hfirst : Call.count c ⟨.classifyCalls, e⟩ = c₁ := by rw [Call.count]
  suffices hcall : ∃ ks : List Call, (system m).Run ⟨c₁, rates, ⟨.hits, e⟩ ::ₘ rest⟩ (ks.map .run)
      ⟨ruleStatsCount c (ruleHit e.snap e.tuple) out e.ns, rates', rest⟩ by
    obtain ⟨ks, hks⟩ := hcall
    exact ⟨⟨.classifyCalls, e⟩ :: ks, .head .callEvaluate (run_head rfl hfirst rfl hks)⟩
  rw [ruleVerdict] at hv
  cases hh : ruleHit e.snap e.tuple with
  | none =>
    rw [hh] at hv
    cases hv
    exact default_alone m c rates rest hh
  | some hit =>
    rw [hh] at hv
    dsimp only at hv
    by_cases ha : hit.action = ruleActionRateLimit
    · rw [if_pos ha] at hv
      obtain ⟨⟨allowed, rates'⟩, hr, he⟩ := Option.map_eq_some_iff.mp hv
      cases he
      exact limit_alone m c rest hh ha hr
    · rw [if_neg ha] at hv
      cases hv
      exact hit_alone m c rates rest hh ha

/-! ### Runs -/

def nsSum (es : List Evaluation) : ℕ := (es.map fun e => e.ns.toNat).sum

/-- The counters are behind by what the calls in progress owe. -/
structure Tallied (es : List Evaluation) (s : State) : Prop where
  classifyCalls : Balanced (owes 0) (fun _ => 1) s.stats.classifyCalls.toNat s.calls es
  hits : Balanced (owes 1) (fun _ => 1) (s.stats.ruleHits.toNat + s.stats.defaultHits.toNat)
    s.calls es
  verdicts : Balanced (owes 4) (fun _ => 1)
    (s.stats.verdictPermit.toNat + s.stats.verdictBlock.toNat + s.stats.verdictAudit.toNat)
    s.calls es
  samples : Balanced (owes 6) (fun _ => 1) s.stats.matchNsSamples.toNat s.calls es
  total : Balanced owesNs (fun e => e.ns.toNat) s.stats.matchNsTotal.toNat s.calls es
  limited : Covered owesBlock s.stats.rateLimited.toNat s.stats.verdictBlock.toNat s.calls

/-- The maximum is behind by the times of the calls in progress. -/
structure Peaked (m : UInt64) (es : List Evaluation) (s : State) : Prop where
  sound : ∀ k ∈ s.calls, k.Sound
  max : Raised m.toNat s.stats.matchNsMax.toNat (es.map fun e => e.ns.toNat)
    (s.calls.map fun k => k.eval.ns.toNat)

theorem sum_ones (es : List Evaluation) : (es.map fun _ => 1).sum = es.length := by
  rw [List.map_const', List.sum_replicate, smul_eq_mul, mul_one]

theorem begun_append : begun (as ++ [act]) = begun as ++ act.begins.toList := by
  cases act <;> simp [begun, Action.begins]

theorem peaked_step {es : List Evaluation} (h : Step s act t) (hp : Peaked m es s) :
    Peaked m (es ++ act.begins.toList) t := by
  cases h with
  | callEvaluate =>
    constructor
    case sound =>
      intro k hk
      rcases Multiset.mem_cons.mp hk with rfl | hk
      · trivial
      · exact hp.sound k hk
    case max =>
      rw [Multiset.map_cons, Action.begins, List.map_append]
      exact hp.max.begin
  | @run k allowed rates rest hc hr =>
    rw [Action.begins, Option.toList_none, List.append_nil]
    have hk : k.Sound := hp.sound k (hc ▸ Multiset.mem_cons_self k rest)
    have hrest : ∀ k' ∈ rest, k'.Sound := fun k' hk' =>
      hp.sound k' (hc ▸ Multiset.mem_cons_of_mem hk')
    have hmax := hp.max
    rw [hc, Multiset.map_cons] at hmax
    obtain ⟨q, hnext, hkeep⟩ | ⟨hnext, hmore⟩ := @max_cases k s.stats allowed hk
    · constructor
      case sound =>
        intro k' hk'
        simp only [hnext, goOn, Option.elim] at hk'
        rcases Multiset.mem_cons.mp hk' with rfl | hk'
        · exact hk.next hnext
        · exact hrest k' hk'
      case max =>
        simp only [hnext, goOn, Option.elim, hkeep]
        rwa [Multiset.map_cons]
    · constructor
      case sound =>
        simp only [hnext, goOn, Option.elim]
        exact hrest
      case max =>
        simp only [hnext, goOn, Option.elim]
        rcases hmore with ⟨hle, heq⟩ | ⟨hle, heq⟩ <;> rw [heq]
        · exact hmax.drop (UInt64.le_iff_toNat_le.mp hle)
        · exact hmax.raise (UInt64.le_iff_toNat_le.mp hle)
  | rateReset =>
    rw [Action.begins, Option.toList_none, List.append_nil]
    exact ⟨hp.sound, hp.max⟩

/-- As long as no counter wraps. -/
theorem tallied_step {es : List Evaluation} (h : Step s act t) (hp : Peaked m es s)
    (hcalls : es.length < UInt64.size) (hns : nsSum es < UInt64.size) (ht : Tallied es s) :
    Tallied (es ++ act.begins.toList) t := by
  cases h with
  | callEvaluate =>
    exact ⟨ht.classifyCalls.begin rfl, ht.hits.begin rfl, ht.verdicts.begin rfl,
      ht.samples.begin rfl, ht.total.begin rfl, ht.limited.begin⟩
  | @run k allowed rates rest hc hr =>
    rw [Action.begins, Option.toList_none, List.append_nil]
    have hk : k.Sound := hp.sound k (hc ▸ Multiset.mem_cons_self k rest)
    obtain ⟨hcalls₀, hhits, hverdicts, hsamples, htotal, hlimited⟩ := ht
    rw [hc] at hcalls₀ hhits hverdicts hsamples htotal hlimited
    have hroom : ∀ {v n : ℕ}, Balanced (owes n) (fun _ => 1) v (k ::ₘ rest) es →
        v + owes n k < UInt64.size := by
      intro v n hb
      refine hb.le.trans_lt ?_
      rwa [sum_ones]
    constructor
    case classifyCalls =>
      exact hcalls₀.step (classifyCalls_grows.step (.inl rfl) (hroom hcalls₀))
    case hits => exact hhits.step (hits_grows.step (.inr (.inl rfl)) (hroom hhits))
    case verdicts =>
      exact hverdicts.step (verdicts_grow.step (.inr (.inr (by omega))) (hroom hverdicts))
    case samples =>
      exact hsamples.step (matchNsSamples_grows.step (.inr (.inr (by omega))) (hroom hsamples))
    case total => exact htotal.step (matchNsTotal_step (htotal.le.trans_lt hns))
    case limited => exact hlimited.step (rateLimited_step hk (hroom hverdicts))
  | rateReset =>
    rw [Action.begins, Option.toList_none, List.append_nil]
    exact ⟨ht.classifyCalls, ht.hits, ht.verdicts, ht.samples, ht.total, ht.limited⟩

theorem nsSum_append (es es' : List Evaluation) : nsSum (es ++ es') = nsSum es + nsSum es' := by
  rw [nsSum, List.map_append, List.sum_append]
  rfl

theorem tallied_run {s₀ : State} (hi : (system m).init s₀) (h : (system m).Run s₀ as s) :
    Peaked m (begun as) s ∧
      ((begun as).length < UInt64.size → nsSum (begun as) < UInt64.size →
        Tallied (begun as) s) := by
  obtain ⟨hstats, hcalls⟩ := hi
  let I : List Action → State → Prop := fun as s => Peaked m (begun as) s ∧
    ((begun as).length < UInt64.size → nsSum (begun as) < UInt64.size → Tallied (begun as) s)
  have hinit : I [] s₀ := by
    have hzero : ∀ {owed : Call → ℕ} {due : Evaluation → ℕ}, Balanced owed due 0 s₀.calls [] :=
      hcalls ▸ balanced_nil
    refine ⟨⟨fun k hk => ?_, ?_⟩, fun _ _ => ?_⟩
    · rw [hcalls] at hk
      exact absurd hk (Multiset.notMem_zero k)
    · rw [hcalls, hstats]
      exact raised_nil
    · constructor <;> rw [hstats]
      case limited => exact Nat.zero_le _
      all_goals exact hzero
  refine h.preserves_labels (I := I) ?_ hinit
  intro as s act t hst ⟨hp, ht⟩
  simp only [I, begun_append]
  refine ⟨peaked_step hst hp, fun hlen hns => ?_⟩
  rw [List.length_append] at hlen
  rw [nsSum_append] at hns
  have hlen' : (begun as).length < UInt64.size := by omega
  have hns' : nsSum (begun as) < UInt64.size := by omega
  exact tallied_step hst hp hlen' hns' (ht hlen' hns')

/-- Once every call has returned the counters add up, and the maximum is that of the times and of
what it was at first. -/
theorem stats_add_up (m : UInt64) {s₀ s : State} {as : List Action} (hi : (system m).init s₀)
    (h : (system m).Run s₀ as s) (hdone : s.calls = 0) (hcalls : (begun as).length < 2 ^ 64)
    (hns : nsSum (begun as) < 2 ^ 64) :
    s.stats.classifyCalls.toNat = (begun as).length ∧
    s.stats.ruleHits.toNat + s.stats.defaultHits.toNat = (begun as).length ∧
    s.stats.verdictPermit.toNat + s.stats.verdictBlock.toNat + s.stats.verdictAudit.toNat =
      (begun as).length ∧
    s.stats.matchNsSamples.toNat = (begun as).length ∧
    s.stats.rateLimited ≤ s.stats.verdictBlock ∧
    s.stats.matchNsTotal.toNat = nsSum (begun as) ∧
    IsGreatest {n | n = m.toNat ∨ ∃ e ∈ begun as, n = e.ns.toNat} s.stats.matchNsMax.toNat := by
  obtain ⟨hp, ht⟩ := tallied_run hi h
  obtain ⟨hcalls₀, hhits, hverdicts, hsamples, htotal, hlimited⟩ := ht hcalls hns
  have hmax := hp.max
  rw [hdone] at hcalls₀ hhits hverdicts hsamples htotal hlimited hmax
  refine ⟨?_, ?_, ?_, ?_, ?_, htotal.settled, ?_⟩
  · rw [hcalls₀.settled, sum_ones]
  · rw [hhits.settled, sum_ones]
  · rw [hverdicts.settled, sum_ones]
  · rw [hsamples.settled, sum_ones]
  · exact UInt64.le_iff_toNat_le.mpr hlimited
  · simpa only [List.mem_map, eq_comm] using hmax.isGreatest

/-- A call without a snapshot that takes nine nanoseconds. -/
def slowCall : Evaluation := ⟨none, tupleZero, ⟨0, 0, 9, 1000000000⟩⟩

/-- A connection that `portRule` blocks, in seven. -/
def blockedCall : Evaluation :=
  ⟨some ⟨[portRule], 1, verdictPermit⟩, { tupleZero with remotePort := 443 }, ⟨0, 0, 7, 1000000000⟩⟩

/-- The steps of `slowCall` before its CAS. -/
def slowSteps : List Call :=
  [⟨.classifyCalls, slowCall⟩, ⟨.hits, slowCall⟩, ⟨.verdict (defaultVerdict none), slowCall⟩,
    ⟨.matchNsTotal, slowCall⟩, ⟨.matchNsSamples, slowCall⟩, ⟨.readMax, slowCall⟩]

/-- The counters after them. -/
def slowStats : RuleStats where
  classifyCalls := 1
  verdictPermit := 1
  verdictBlock := 0
  verdictAudit := 0
  rateLimited := 0
  ruleHits := 0
  defaultHits := 1
  matchNsTotal := 9
  matchNsMax := 3
  matchNsSamples := 1

theorem slow_counts : (system 3).Run ⟨zeroStats 3, rateTableEmpty, 0⟩
    (.callEvaluate slowCall :: slowSteps.map .run)
    ⟨slowStats, rateTableEmpty, ⟨.casMax 3, slowCall⟩ ::ₘ 0⟩ := by
  exact .head .callEvaluate (.head (.run 0 rfl rfl) (.head (.run 0 rfl rfl) (.head (.run 0 rfl rfl)
    (.head (.run 0 rfl rfl) (.head (.run 0 rfl rfl) (.head (.run 0 rfl rfl) .refl))))))

/-- The maximum is no longer what it has read: `slowCall` reads it again. -/
theorem slow_retries {c : RuleStats} {rates : RateTable} (hmax : c.matchNsMax = 7) :
    ∃ ks : List Call, (system 3).Run ⟨c, rates, ⟨.casMax 3, slowCall⟩ ::ₘ 0⟩ (ks.map .run)
      ⟨{ c with matchNsMax := 9 }, rates, 0⟩ := by
  obtain ⟨ks, hks⟩ := max_alone 3 c rates 0 slowCall
  have hne : c.matchNsMax ≠ 3 := by rw [hmax]; decide
  have hcount : Call.count c ⟨.casMax 3, slowCall⟩ = c := by rw [Call.count, if_neg hne]
  have hnext : Call.next c true ⟨.casMax 3, slowCall⟩ = some ⟨.readMax, slowCall⟩ := by
    rw [Call.next, if_neg hne]
  have hraise : (if c.matchNsMax < slowCall.ns then slowCall.ns else c.matchNsMax) = 9 := by
    rw [hmax]
    rfl
  rw [hraise] at hks
  exact ⟨_ :: ks, run_head rfl hcount (by rw [hnext, goOn, Option.elim]) hks⟩

theorem begun_runs (ks : List Call) : begun (ks.map .run) = [] := by
  induction ks with
  | nil => rfl
  | cons k ks ih => exact ih

/-- The second call runs between the read and the CAS of the first. -/
theorem stats_add_up_contended : ∃ s as, (system 3).Run ⟨zeroStats 3, rateTableEmpty, 0⟩ as s ∧
    begun as = [slowCall, blockedCall] ∧
    s.stats.verdictPermit.toNat + s.stats.verdictBlock.toNat + s.stats.verdictAudit.toNat = 2 ∧
    s.stats.matchNsTotal.toNat = 16 ∧
    IsGreatest {n | n = 3 ∨ n = 9 ∨ n = 7} s.stats.matchNsMax.toNat := by
  have hcall : ruleEvaluate blockedCall.snap blockedCall.tuple blockedCall.clock rateTableEmpty
      slowStats = some (⟨verdictBlock, 7, 0, 1, verdictReasonRuleMatch⟩, rateTableEmpty,
        ⟨2, 1, 1, 0, 0, 1, 1, 16, 7, 2⟩) := by decide +kernel
  obtain ⟨ks, hks⟩ := @evaluate_alone 3 (⟨.casMax 3, slowCall⟩ ::ₘ 0) slowStats blockedCall _
    rateTableEmpty _ _ hcall
  obtain ⟨ks', hks'⟩ := @slow_retries ⟨2, 1, 1, 0, 0, 1, 1, 16, 7, 2⟩ rateTableEmpty rfl
  have hrun := slow_counts.append (hks.append hks')
  have hbegun : begun ((.callEvaluate slowCall :: slowSteps.map .run) ++
      ((.callEvaluate blockedCall :: ks.map .run) ++ ks'.map .run)) = [slowCall, blockedCall] := by
    have h₁ := begun_runs slowSteps
    have h₂ := begun_runs ks
    have h₃ := begun_runs ks'
    simp only [begun, List.filterMap_append, List.filterMap_cons, Action.begins] at h₁ h₂ h₃ ⊢
    rw [h₁, h₂, h₃]
    rfl
  have hns : nsSum [slowCall, blockedCall] = 16 := by decide
  obtain ⟨-, -, hverdicts, -, -, htotal, hmax⟩ := stats_add_up 3 ⟨rfl, rfl⟩ hrun rfl
    (by rw [hbegun]; decide) (by rw [hbegun, hns]; decide)
  rw [hbegun] at hverdicts htotal
  refine ⟨_, _, hrun, hbegun, hverdicts, htotal.trans hns, ?_⟩
  rw [hbegun] at hmax
  have htimes : {n | n = 3 ∨ n = 9 ∨ n = 7} =
      {n | n = (3 : UInt64).toNat ∨ ∃ e ∈ [slowCall, blockedCall], n = e.ns.toNat} := by
    ext n
    simp only [Set.mem_ofPred_eq, List.mem_cons, List.not_mem_nil, or_false, exists_eq_or_imp,
      exists_eq_left]
    rfl
  rwa [htimes]

end Sentinel.Statistics
