import Mathlib.Tactic

/-! A token bucket over the natural numbers, refilled in whole intervals up to a cap. -/
namespace TokenBucket

structure Params where
  rate : ℕ
  interval : ℕ
  burst : ℕ

/-- The tokens left and the time up to which the bucket has been refilled. -/
structure Bucket where
  tokens : ℕ
  last : ℕ

variable (p : Params)

/-- The whole intervals since the last refill; none for an earlier time. -/
def due (b : Bucket) (now : ℕ) : ℕ := (now - b.last) / p.interval

def refill (b : Bucket) (now : ℕ) : Bucket where
  tokens := min p.burst (b.tokens + due p b now * p.rate)
  last := b.last + due p b now * p.interval

/-- A call and its answer, when the refill gives no more than what is due. -/
structure Call (b : Bucket) (now : ℕ) (allowed : Bool) (b' : Bucket) : Prop where
  last : b'.last = (refill p b now).last
  tokens : b'.tokens + allowed.toNat ≤ (refill p b now).tokens

/-- One call after the other, at whatever times. -/
inductive Calls : Bucket → List (ℕ × Bool) → Bucket → Prop where
  | nil {b : Bucket} : Calls b [] b
  | cons {b b' b'' : Bucket} {now : ℕ} {allowed : Bool} {cs : List (ℕ × Bool)}
      (h : Call p b now allowed b') (h' : Calls b' cs b'') : Calls b ((now, allowed) :: cs) b''

/-- The number of calls allowed. -/
def allowedCount (cs : List (ℕ × Bool)) : ℕ := cs.countP fun c => c.2

/-- The largest time in `cs`, from `m` on. -/
def latest (m : ℕ) (cs : List (ℕ × Bool)) : ℕ := cs.foldl (fun m c => max m c.1) m

/-- The refill is not behind the largest time seen by an interval or more. -/
def Recent (b : Bucket) (m : ℕ) : Prop := b.last ≤ m ∧ m < b.last + p.interval

variable {p} {b b' b'' : Bucket} {now m : ℕ} {allowed : Bool} {cs pre : List (ℕ × Bool)}

@[simp] theorem allowedCount_nil : allowedCount [] = 0 := rfl

@[simp] theorem allowedCount_cons :
    allowedCount ((now, allowed) :: cs) = allowed.toNat + allowedCount cs := by
  cases allowed <;> simp [allowedCount, Nat.add_comm]

@[simp] theorem latest_nil : latest m [] = m := rfl

@[simp] theorem latest_cons : latest m ((now, allowed) :: cs) = latest (max m now) cs := rfl

theorem latest_append : latest m (pre ++ cs) = latest (latest m pre) cs := List.foldl_append

/-! ### One call -/

theorem due_mul_le : due p b now * p.interval ≤ now - b.last := Nat.div_mul_le_self _ _

theorem refill_last_le (h : b.last ≤ m) : (refill p b now).last ≤ max m now := by
  have hdue := @due_mul_le p b now
  simp only [refill]
  omega

theorem recent_refill (hp : 0 < p.interval) (h : Recent p b m) :
    Recent p (refill p b now) (max m now) := by
  refine ⟨refill_last_le h.1, ?_⟩
  have hm := h.2
  have hlt : now - b.last < due p b now * p.interval + p.interval := by
    have hdiv := Nat.div_add_mod (now - b.last) p.interval
    have hmod := Nat.mod_lt (now - b.last) hp
    rw [Nat.mul_comm] at hdiv
    simp only [due]
    omega
  simp only [refill]
  omega

theorem Call.recent (hp : 0 < p.interval) (hc : Call p b now allowed b') (h : Recent p b m) :
    Recent p b' (max m now) := by
  have hr : Recent p (refill p b now) (max m now) := recent_refill hp h
  rw [Recent, ← hc.last] at hr
  exact hr

theorem Call.tokens_le (h : Call p b now allowed b') : b'.tokens + allowed.toNat ≤ p.burst :=
  h.tokens.trans (Nat.min_le_left _ _)

/-! ### A run of calls -/

theorem Calls.append {ds : List (ℕ × Bool)} (h : Calls p b cs b') (h' : Calls p b' ds b'') :
    Calls p b (cs ++ ds) b'' := by
  induction h with
  | nil => exact h'
  | cons hc _ ih => exact .cons hc (ih h')

theorem Calls.split {ds : List (ℕ × Bool)} (h : Calls p b (cs ++ ds) b'') :
    ∃ b', Calls p b cs b' ∧ Calls p b' ds b'' := by
  induction cs generalizing b with
  | nil => exact ⟨b, .nil, h⟩
  | cons c cs ih =>
    cases h with
    | cons hc h' =>
      obtain ⟨b', hb, hds⟩ := ih h'
      exact ⟨b', .cons hc hb, hds⟩

/-- What a run of calls takes was there before or has come with its refills. -/
theorem Calls.spent (h : Calls p b cs b') : ∃ k, b'.last = b.last + k * p.interval ∧
    allowedCount cs + b'.tokens ≤ b.tokens + k * p.rate := by
  induction h with
  | nil => exact ⟨0, by omega, by simp⟩
  | @cons b b₁ b' now allowed cs hc _ ih =>
    obtain ⟨k, hlast, hcount⟩ := ih
    refine ⟨due p b now + k, ?_, ?_⟩
    · rw [hlast, hc.last, refill, Nat.add_mul, Nat.add_assoc]
    · have htokens := hc.tokens.trans (Nat.min_le_right _ _)
      rw [allowedCount_cons, Nat.add_mul]
      omega

theorem Calls.recent (hp : 0 < p.interval) (h : Calls p b cs b') (hr : Recent p b m) :
    Recent p b' (latest m cs) := by
  induction h generalizing m with
  | nil => exact hr
  | cons hc _ ih => exact ih (hc.recent hp hr)

theorem Calls.last_le (h : Calls p b cs b') (hm : b.last ≤ m) : b'.last ≤ latest m cs := by
  induction h generalizing m with
  | nil => exact hm
  | cons hc _ ih =>
    refine ih ?_
    rw [hc.last]
    exact refill_last_le hm

theorem le_latest : m ≤ latest m cs := by
  induction cs generalizing m with
  | nil => exact Nat.le_refl m
  | cons c cs ih => exact (Nat.le_max_left m c.1).trans ih

/-- The bound from the creation of the bucket on. -/
theorem Calls.allowed_le (hp : 0 < p.interval) (h : Calls p b cs b') (hb : b.tokens ≤ p.burst)
    (hm : b.last ≤ m) :
    allowedCount cs ≤ p.burst + p.rate * ((latest m cs - b.last) / p.interval) := by
  obtain ⟨k, hlast, hcount⟩ := h.spent
  have hle := h.last_le hm
  have hk : k ≤ (latest m cs - b.last) / p.interval := by
    rw [Nat.le_div_iff_mul_le hp]
    omega
  have hrate := Nat.mul_le_mul_left p.rate hk
  rw [Nat.mul_comm p.rate k] at hrate
  omega

/-- The bound on a run of calls in the middle: the first of them may find a full bucket. -/
theorem Calls.allowed_le_of_recent (hp : 0 < p.interval)
    (h : Calls p b ((now, allowed) :: cs) b') (hr : Recent p b m) :
    allowedCount ((now, allowed) :: cs) ≤
      p.burst + p.rate * ((latest (max m now) cs - max m now) / p.interval + 1) := by
  cases h with
  | @cons _ b₁ _ _ _ _ hc h =>
    obtain ⟨k, hlast, hcount⟩ := h.spent
    have hr₁ := hc.recent hp hr
    have hle := h.last_le hr₁.1
    have hm : max m now ≤ latest (max m now) cs := le_latest
    have htokens := hc.tokens_le
    have hk : k ≤ (latest (max m now) cs - max m now) / p.interval + 1 := by
      rw [← Nat.add_div_right _ hp, Nat.le_div_iff_mul_le hp]
      have hlow := hr₁.2
      omega
    have hrate := Nat.mul_le_mul_left p.rate hk
    rw [Nat.mul_comm p.rate k] at hrate
    rw [allowedCount_cons]
    omega

/-! ### Exact calls -/

/-- A call and its answer, when the refill gives what is due and a token is refused to nobody. -/
structure ExactCall (p : Params) (b : Bucket) (now : ℕ) (allowed : Bool) (b' : Bucket) :
    Prop where
  last : b'.last = (refill p b now).last
  tokens : b'.tokens + allowed.toNat = (refill p b now).tokens
  refused : allowed = false → (refill p b now).tokens = 0

inductive ExactCalls (p : Params) : Bucket → List (ℕ × Bool) → Bucket → Prop where
  | nil {b : Bucket} : ExactCalls p b [] b
  | cons {b b' b'' : Bucket} {now : ℕ} {allowed : Bool} {cs : List (ℕ × Bool)}
      (h : ExactCall p b now allowed b') (h' : ExactCalls p b' cs b'') :
      ExactCalls p b ((now, allowed) :: cs) b''

/-- The whole intervals from the creation of the bucket to a time. -/
def intervals (p : Params) (c m : ℕ) : ℕ := (m - c) / p.interval

/-- The bucket was full at one of its calls, and since then every token has been due. -/
def Drawn (p : Params) (c : ℕ) (cs : List (ℕ × Bool)) (b : Bucket) : Prop :=
  ∃ pre call mid, cs = pre ++ call :: mid ∧ b.tokens + allowedCount (call :: mid) =
    p.burst + p.rate * (intervals p c (latest c cs) - intervals p c (latest c (pre ++ [call])))

variable {c : ℕ}

theorem ExactCalls.append {ds : List (ℕ × Bool)} (h : ExactCalls p b cs b')
    (h' : ExactCalls p b' ds b'') : ExactCalls p b (cs ++ ds) b'' := by
  induction h with
  | nil => exact h'
  | cons hc _ ih => exact .cons hc (ih h')

theorem ExactCalls.split {ds : List (ℕ × Bool)} (h : ExactCalls p b (cs ++ ds) b'') :
    ∃ b', ExactCalls p b cs b' ∧ ExactCalls p b' ds b'' := by
  induction cs generalizing b with
  | nil => exact ⟨b, .nil, h⟩
  | cons c cs ih =>
    cases h with
    | cons hc h' =>
      obtain ⟨b', hb, hds⟩ := ih h'
      exact ⟨b', .cons hc hb, hds⟩

theorem allowedCount_append {ds : List (ℕ × Bool)} :
    allowedCount (cs ++ ds) = allowedCount cs + allowedCount ds := List.countP_append

theorem allowedCount_le : allowedCount cs ≤ cs.length := List.countP_le_length

theorem intervals_mono {m' : ℕ} (h : m ≤ m') : intervals p c m ≤ intervals p c m' :=
  Nat.div_le_div_right (Nat.sub_le_sub_right h c)

/-- What is due at a call are the intervals that have gone by since the calls before. -/
theorem due_eq (hp : 0 < p.interval) (hm : c ≤ m)
    (hb : b.last = c + intervals p c m * p.interval) :
    due p b now = intervals p c (max m now) - intervals p c m := by
  have hdiv := Nat.div_add_mod (m - c) p.interval
  have hmod := Nat.mod_lt (m - c) hp
  have hmul : p.interval * ((m - c) / p.interval) = intervals p c m * p.interval :=
    Nat.mul_comm _ _
  rcases Nat.le_total now m with hle | hle
  · rw [max_eq_left hle, Nat.sub_self, due, Nat.div_eq_of_lt]
    omega
  · rw [max_eq_right hle]
    have hsplit : now - c = now - b.last + intervals p c m * p.interval := by omega
    have hadd : intervals p c now = due p b now + intervals p c m := by
      rw [intervals, hsplit, Nat.add_mul_div_right _ _ hp, due]
    omega

theorem ExactCall.last_eq (hp : 0 < p.interval) (h : ExactCall p b now allowed b') (hm : c ≤ m)
    (hb : b.last = c + intervals p c m * p.interval) :
    b'.last = c + intervals p c (max m now) * p.interval := by
  have hmono := @intervals_mono p m c (max m now) (Nat.le_max_left m now)
  rw [h.last]
  simp only [refill]
  rw [due_eq hp hm hb, hb, Nat.add_assoc, ← Nat.add_mul]
  congr 2
  omega

/-- A call that finds the bucket full starts anew. -/
theorem ExactCall.drawn_full (h : ExactCall p b now allowed b')
    (hfull : p.burst ≤ b.tokens + due p b now * p.rate) :
    Drawn p c (pre ++ [(now, allowed)]) b' := by
  refine ⟨pre, (now, allowed), [], rfl, ?_⟩
  have ht := h.tokens
  simp only [refill, min_eq_left hfull] at ht
  simpa using ht

/-- Otherwise nothing of what was due is lost. -/
theorem ExactCall.drawn_step (hp : 0 < p.interval) (h : ExactCall p b now allowed b')
    (hb : b.last = c + intervals p c (latest c pre) * p.interval) (hd : Drawn p c pre b) :
    Drawn p c (pre ++ [(now, allowed)]) b' := by
  by_cases hfull : p.burst ≤ b.tokens + due p b now * p.rate
  · exact h.drawn_full hfull
  · obtain ⟨front, call, mid, rfl, hcount⟩ := hd
    have ht := h.tokens
    simp only [refill, min_eq_right (Nat.le_of_not_le hfull)] at ht
    refine ⟨front, call, mid ++ [(now, allowed)], by simp, ?_⟩
    have hdue := @due_eq p b now _ c hp le_latest hb
    have hwindow : latest c (front ++ [call]) ≤ latest c (front ++ call :: mid) := by
      have he : front ++ call :: mid = front ++ [call] ++ mid := by simp
      have ha : latest c (front ++ [call] ++ mid) = latest (latest c (front ++ [call])) mid :=
        latest_append
      rw [he, ha]
      exact le_latest
    have hlow := @intervals_mono p _ c _ hwindow
    have hend : latest c (front ++ call :: mid ++ [(now, allowed)]) =
        max (latest c (front ++ call :: mid)) now := by
      rw [latest_append, latest_cons, latest_nil]
    have hhigh := @intervals_mono p (latest c (front ++ call :: mid)) c
      (max (latest c (front ++ call :: mid)) now) (Nat.le_max_left _ _)
    have hsum : allowedCount (call :: (mid ++ [(now, allowed)])) =
        allowedCount (call :: mid) + allowed.toNat := by
      rw [← List.cons_append, allowedCount_append]
      simp
    rw [hsum, hend]
    have hrate : p.rate * (intervals p c (max (latest c (front ++ call :: mid)) now) -
        intervals p c (latest c (front ++ [call]))) =
        p.rate * (intervals p c (latest c (front ++ call :: mid)) -
          intervals p c (latest c (front ++ [call]))) + due p b now * p.rate := by
      rw [hdue, Nat.mul_comm _ p.rate, ← Nat.mul_add]
      congr 1
      omega
    omega

theorem ExactCalls.drawn (hp : 0 < p.interval) (h : ExactCalls p b cs b')
    (hb : b.last = c + intervals p c (latest c pre) * p.interval)
    (hd : Drawn p c pre b ∨ p.burst ≤ b.tokens) : Drawn p c (pre ++ cs) b' ∨ cs = [] := by
  induction h generalizing pre with
  | nil => exact .inr rfl
  | @cons b b₁ b' now allowed cs hc h ih =>
    have hfirst : Drawn p c (pre ++ [(now, allowed)]) b₁ := by
      rcases hd with hd | hfull
      · exact hc.drawn_step hp hb hd
      · exact hc.drawn_full (hfull.trans (Nat.le_add_right _ _))
    have hlast := hc.last_eq hp le_latest hb
    have hend : latest c (pre ++ [(now, allowed)]) = max (latest c pre) now := latest_append
    rw [← hend] at hlast
    rcases ih hlast (.inl hfirst) with hd | rfl
    · exact .inl (by simpa using hd)
    · cases h
      exact .inl hfirst

/-- A call is refused only when the calls from some call on have been given the burst and all that
has become due since. -/
theorem ExactCalls.refused (hp : 0 < p.interval)
    (h : ExactCalls p ⟨p.burst, c⟩ (cs ++ [(now, false)]) b') :
    ∃ pre call mid, cs ++ [(now, false)] = pre ++ call :: mid ∧
      allowedCount (call :: mid) = p.burst + p.rate *
        (intervals p c (latest c (cs ++ [(now, false)])) -
          intervals p c (latest c (pre ++ [call]))) := by
  have hstart : (⟨p.burst, c⟩ : Bucket).last = c + intervals p c (latest c []) * p.interval := by
    simp [intervals]
  have hempty : b'.tokens = 0 := by
    obtain ⟨b₁, -, hlast⟩ := h.split
    cases hlast with
    | cons hc hnil =>
      cases hnil
      have ht := hc.tokens
      rw [hc.refused rfl] at ht
      omega
  rcases h.drawn hp hstart (.inr le_rfl) with ⟨pre, call, mid, he, hcount⟩ | hnil
  · rw [List.nil_append] at he hcount
    exact ⟨pre, call, mid, he, by omega⟩
  · simp at hnil

/-- Calls that never ask for more than the burst and what has become due are all allowed. -/
theorem ExactCalls.conformant (hp : 0 < p.interval) (h : ExactCalls p ⟨p.burst, c⟩ cs b')
    (hcs : ∀ pre call mid post, cs = pre ++ call :: mid ++ post →
      (call :: mid).length ≤ p.burst + p.rate *
        (intervals p c (latest c (pre ++ call :: mid)) -
          intervals p c (latest c (pre ++ [call])))) :
    ∀ call ∈ cs, call.2 = true := by
  rintro ⟨now, allowed⟩ hmem
  by_contra hfalse
  obtain rfl : allowed = false := by simpa using hfalse
  obtain ⟨front, post, rfl⟩ := List.append_of_mem hmem
  have hfront : front ++ (now, false) :: post = front ++ [(now, false)] ++ post := by simp
  rw [hfront] at h
  obtain ⟨b₁, hfirst, -⟩ := h.split
  obtain ⟨pre, call, mid, he, hcount⟩ := hfirst.refused hp
  have hle := hcs pre call mid post (by rw [hfront, he])
  rw [← he, ← hcount] at hle
  -- The last call of the window is the one refused.
  have hlt : allowedCount (call :: mid) < (call :: mid).length := by
    refine Nat.lt_of_le_of_ne allowedCount_le fun heq => ?_
    have hall := List.countP_eq_length.mp heq
    have hlast : (now, false) ∈ call :: mid := by
      have hl := congrArg List.getLast? he
      rw [List.getLast?_append, List.getLast?_append] at hl
      simp only [List.getLast?_singleton, Option.some_or] at hl
      cases hm : (call :: mid).getLast? with
      | none => simp at hm
      | some x =>
        rw [hm, Option.some_or] at hl
        rw [Option.some_inj.mp hl]
        exact List.mem_of_getLast? hm
    exact absurd (hall _ hlast) (by simp)
  omega

end TokenBucket
