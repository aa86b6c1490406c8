import Sentinel.General.System
import Mathlib.Tactic

/-! Infinite executions of a transition system, weak fairness, and ranks that have to fall. -/
namespace Transition

/-- A sequence of states; between two of them there is an event or none. -/
structure Execution (σ α : Type*) where
  state : ℕ → σ
  event : ℕ → Option α

namespace System

variable {σ α ι W : Type*} {M : System σ α} {E : Execution σ α} {A : ι → Set α}
  {P Q : σ → Prop} {s t : σ} {as bs : List α} {a : α}

/-- Every event is a step of the system, and without an event nothing changes. -/
structure Executes (M : System σ α) (E : Execution σ α) : Prop where
  init : M.init (E.state 0)
  idle : ∀ n, E.event n = none → E.state (n + 1) = E.state n
  step : ∀ n a, E.event n = some a → M.step (E.state n) a (E.state (n + 1))

/-- Some action of the class can be taken. -/
def Enabled (M : System σ α) (B : Set α) (s : σ) : Prop := ∃ a ∈ B, ∃ t, M.step s a t

/-- Weak fairness: a class of actions that stays enabled has one taken. -/
def Fair (M : System σ α) (B : Set α) (E : Execution σ α) : Prop :=
  ∀ m, (∀ n, m ≤ n → M.Enabled B (E.state n)) → ∃ n, m ≤ n ∧ ∃ a ∈ B, E.event n = some a

theorem Executes.reachable (h : M.Executes E) (n : ℕ) : M.Reachable (E.state n) := by
  induction n with
  | zero => exact .of_init h.init
  | succ n ih =>
    cases he : E.event n with
    | none => rwa [h.idle n he]
    | some a => exact ih.step (h.step n a he)

/-- What every step keeps holds from then on. -/
theorem Executes.persists (h : M.Executes E) {m n : ℕ} (hmn : m ≤ n) (hP : P (E.state m))
    (hstep : ∀ {s a t}, M.Reachable s → M.step s a t → P s → P t) : P (E.state n) := by
  induction n, hmn using Nat.le_induction with
  | base => exact hP
  | succ n _ ih =>
    cases he : E.event n with
    | none => rwa [h.idle n he]
    | some a => exact hstep (h.reachable n) (h.step n a he) ih

/-! ### Ranks -/

/-- From `N` on and until `Q` holds every step of the execution lets the rank fall, or leaves alone
both the rank and the class of actions that is to let it fall. -/
structure Ranking [LT W] (M : System σ α) (E : Execution σ α) (A : ι → Set α) (N : ℕ)
    (P Q : σ → Prop) (rank : σ → W) (help : σ → ι) : Prop where
  enabled : ∀ n, N ≤ n → P (E.state n) → ¬ Q (E.state n) →
    M.Enabled (A (help (E.state n))) (E.state n)
  step : ∀ n a, N ≤ n → P (E.state n) → ¬ Q (E.state n) → E.event n = some a →
    Q (E.state (n + 1)) ∨ P (E.state (n + 1)) ∧
      (rank (E.state (n + 1)) < rank (E.state n) ∨
        rank (E.state (n + 1)) = rank (E.state n) ∧
          help (E.state (n + 1)) = help (E.state n) ∧ a ∉ A (help (E.state n)))

/-- A class that is to let the rank fall does so, if it is treated fairly. -/
theorem Ranking.falls [LT W] {rank : σ → W} {help : σ → ι} {N m : ℕ}
    (h : M.Ranking E A N P Q rank help) (hE : M.Executes E) (hf : ∀ i, M.Fair (A i) E)
    (hm : N ≤ m) (hP : P (E.state m)) :
    ∃ n, m ≤ n ∧ (Q (E.state n) ∨ P (E.state n) ∧ rank (E.state n) < rank (E.state m)) := by
  by_contra hno
  push Not at hno
  have hQ : ∀ n, m ≤ n → ¬ Q (E.state n) := fun n hn => (hno n hn).1
  have hstay : ∀ n, m ≤ n → P (E.state n) ∧ rank (E.state n) = rank (E.state m) ∧
      help (E.state n) = help (E.state m) := by
    intro n hn
    induction n, hn using Nat.le_induction with
    | base => exact ⟨hP, rfl, rfl⟩
    | succ n hn ih =>
      obtain ⟨hPn, hr, hh⟩ := ih
      cases he : E.event n with
      | none => rw [hE.idle n he]; exact ⟨hPn, hr, hh⟩
      | some a =>
        rcases h.step n a (hm.trans hn) hPn (hQ n hn) he with hq | ⟨hp, hlt | ⟨hr', hh', -⟩⟩
        · exact absurd hq (hQ (n + 1) (by omega))
        · exact absurd (hr ▸ hlt) ((hno (n + 1) (by omega)).2 hp)
        · exact ⟨hp, hr'.trans hr, hh'.trans hh⟩
  obtain ⟨n, hn, a, ha, he⟩ := hf (help (E.state m)) m (by
    intro n hn
    rw [← (hstay n hn).2.2]
    exact h.enabled n (hm.trans hn) (hstay n hn).1 (hQ n hn))
  obtain ⟨hPn, hr, hh⟩ := hstay n hn
  rcases h.step n a (hm.trans hn) hPn (hQ n hn) he with hq | ⟨hp, hlt | ⟨-, -, hna⟩⟩
  · exact hQ (n + 1) (by omega) hq
  · exact (hno (n + 1) (by omega)).2 hp (hr ▸ hlt)
  · exact hna (hh ▸ ha)

theorem Ranking.eventually [LT W] [WellFoundedLT W] {rank : σ → W} {help : σ → ι} {N m : ℕ}
    (h : M.Ranking E A N P Q rank help) (hE : M.Executes E) (hf : ∀ i, M.Fair (A i) E)
    (hm : N ≤ m) (hP : P (E.state m)) : ∃ n, m ≤ n ∧ Q (E.state n) := by
  induction hw : rank (E.state m) using WellFoundedLT.induction generalizing m with
  | ind w ih =>
    subst hw
    obtain ⟨n, hmn, hq | ⟨hp, hlt⟩⟩ := h.falls hE hf hm hP
    · exact ⟨n, hmn, hq⟩
    · obtain ⟨k, hnk, hk⟩ := ih _ hlt (hm.trans hmn) hp rfl
      exact ⟨k, hmn.trans hnk, hk⟩

/-! ### Fair executions exist -/

/-- The steps `bs` through the states `f`, from the first of them back to it. -/
structure Loop (M : System σ α) (bs : List α) (f : ℕ → σ) : Prop where
  step : ∀ i a, bs[i]? = some a → M.step (f i) a (f (i + 1))
  back : f bs.length = f 0
  rest : bs = [] → ∀ i, f i = f 0

theorem Loop.fixed (hb : ∀ b ∈ bs, M.step t b t) : M.Loop bs fun _ => t where
  step _ a ha := hb a (List.mem_of_getElem? ha)
  back := rfl
  rest _ _ := rfl

/-- The states of a run, and its last state from then on. -/
theorem Run.states (h : M.Run s as t) : ∃ f : ℕ → σ, f 0 = s ∧ f as.length = t ∧
    (∀ i, as.length ≤ i → f i = t) ∧ ∀ i a, as[i]? = some a → M.step (f i) a (f (i + 1)) := by
  induction h with
  | @refl s => exact ⟨fun _ => s, rfl, rfl, fun _ _ => rfl, by simp⟩
  | @head s u t a as hs _ ih =>
    obtain ⟨f, h0, hl, hrest, hstep⟩ := ih
    refine ⟨fun n => n.casesOn s f, rfl, hl, ?_, ?_⟩
    · rintro (_ | i) hi
      · cases hi
      · exact hrest i (Nat.le_of_succ_le_succ hi)
    · rintro (_ | i) b hb
      · cases hb
        change M.step s a (f 0)
        rwa [h0]
      · exact hstep i b hb

theorem Run.loop (h : M.Run t bs t) : ∃ f, f 0 = t ∧ M.Loop bs f := by
  obtain ⟨f, h0, hl, hrest, hstep⟩ := h.states
  refine ⟨f, h0, hstep, hl.trans h0.symm, ?_⟩
  rintro rfl i
  exact (hrest i (Nat.zero_le i)).trans h0.symm

/-- A run that goes round a loop for ever. -/
theorem exists_steps {f : ℕ → σ} (hr : M.Run s as (f 0)) (hl : M.Loop bs f) :
    ∃ E : Execution σ α, E.state 0 = s ∧
      (∀ n, E.event n = none → E.state (n + 1) = E.state n) ∧
      (∀ n a, E.event n = some a → M.step (E.state n) a (E.state (n + 1))) ∧
      (∀ n, E.state (as.length + n) = f (n % bs.length)) ∧
      ∀ b ∈ bs, ∀ m, ∃ n, m ≤ n ∧ E.event n = some b := by
  generalize ht : f 0 = t at hr
  induction hr with
  | @refl s =>
    refine ⟨⟨fun n => f (n % bs.length), fun n => bs[n % bs.length]?⟩, by simpa using ht,
      ?_, ?_, by simp, ?_⟩
    · intro n he
      rcases List.eq_nil_or_concat bs with rfl | ⟨_, _, hbs⟩
      · exact (hl.rest rfl _).trans (hl.rest rfl _).symm
      · have hpos : 0 < bs.length := by simp [hbs]
        exact absurd (Nat.mod_lt n hpos) (List.getElem?_eq_none_iff.mp he).not_gt
    · intro n a he
      have hlt : n % bs.length < bs.length := (List.getElem?_eq_some_iff.mp he).1
      have hs := hl.step _ a he
      by_cases hwrap : n % bs.length + 1 < bs.length
      · have hnext : (n + 1) % bs.length = n % bs.length + 1 := by
          rw [Nat.add_mod, Nat.mod_eq_of_lt (a := 1) (by omega), Nat.mod_eq_of_lt hwrap]
        dsimp only
        rwa [hnext]
      · have hlast : n % bs.length + 1 = bs.length := by omega
        have hnext : (n + 1) % bs.length = 0 := by
          rw [← Nat.mod_add_mod, hlast, Nat.mod_self]
        rw [hlast, hl.back] at hs
        dsimp only
        rwa [hnext]
    · intro b hb m
      obtain ⟨i, hi, rfl⟩ := List.getElem_of_mem hb
      refine ⟨m * bs.length + i, ?_, ?_⟩
      · have := Nat.le_mul_of_pos_right m (Nat.zero_lt_of_lt hi)
        omega
      · simp [Nat.mod_eq_of_lt hi]
  | @head s u t a as hs _ ih =>
    obtain ⟨E, h0, hidle, hstep, hend, hall⟩ := ih ht
    refine ⟨⟨fun n => n.casesOn s E.state, fun n => n.casesOn (some a) E.event⟩, rfl,
      ?_, ?_, ?_, ?_⟩
    · rintro (_ | n) he
      · cases he
      · exact hidle n he
    · rintro (_ | n) b he
      · cases he
        exact h0.symm ▸ hs
      · exact hstep n b he
    · intro n
      rw [List.length_cons, Nat.add_right_comm]
      exact hend n
    · intro b hbm m
      obtain ⟨n, hn, he⟩ := hall b hbm m
      exact ⟨n + 1, by omega, he⟩

/-- It is fair to every class that is disabled where the loop begins or has one of its steps. -/
theorem exists_fair_loop {f : ℕ → σ} (hi : M.init s) (hr : M.Run s as (f 0)) (hl : M.Loop bs f)
    (hf : ∀ i, ¬ M.Enabled (A i) (f 0) ∨ ∃ b ∈ bs, b ∈ A i) :
    ∃ E, M.Executes E ∧ (∀ i, M.Fair (A i) E) ∧ E.state 0 = s ∧
      ∀ n, E.state (as.length + n) = f (n % bs.length) := by
  obtain ⟨E, h0, hidle, hstep, hend, hall⟩ := exists_steps hr hl
  refine ⟨E, ⟨h0 ▸ hi, hidle, hstep⟩, fun i m hen => ?_, h0, hend⟩
  rcases hf i with hno | ⟨b, hbm, hbi⟩
  · rcases List.eq_nil_or_concat bs with rfl | ⟨_, _, hbs⟩
    · have he := hen (as.length + m) (by omega)
      rw [hend, hl.rest rfl] at he
      exact absurd he hno
    · have hpos : 0 < bs.length := by simp [hbs]
      have he := hen (as.length + m * bs.length)
        (le_add_left (Nat.le_mul_of_pos_right m hpos))
      rw [hend, Nat.mul_mod_left] at he
      exact absurd he hno
  · obtain ⟨n, hn, he⟩ := hall b hbm m
    exact ⟨n, hn, b, hbi, he⟩

/-- After the run the steps `bs` change nothing any more. -/
theorem exists_fair (hi : M.init s) (hr : M.Run s as t) (hb : ∀ b ∈ bs, M.step t b t)
    (hf : ∀ i, ¬ M.Enabled (A i) t ∨ ∃ b ∈ bs, b ∈ A i) :
    ∃ E, M.Executes E ∧ (∀ i, M.Fair (A i) E) ∧ E.state 0 = s ∧
      ∀ n, as.length ≤ n → E.state n = t := by
  obtain ⟨E, hE, hfair, h0, hend⟩ :=
    exists_fair_loop (f := fun _ => t) hi hr (Loop.fixed hb) hf
  refine ⟨E, hE, hfair, h0, fun n hn => ?_⟩
  obtain ⟨k, rfl⟩ := Nat.exists_eq_add_of_le hn
  exact hend k

end System

end Transition
