import Mathlib.Tactic

/-! Shared values that many calls add to or raise, each in a step of its own. -/
namespace Counters

variable {κ ε α : Type*} {owed : κ → ℕ} {due : ε → ℕ} {v v' w w' : ℕ} {calls : Multiset κ} {k : κ}
  {next : Option κ} {begun : List ε} {e : ε}

/-- The calls in progress when one has gone on to `next` or, without one, has returned. -/
def goOn (next : Option κ) (calls : Multiset κ) : Multiset κ := next.elim calls (· ::ₘ calls)

def owedBy (owed : κ → ℕ) (next : Option κ) : ℕ := next.elim 0 owed

theorem sum_goOn : ((goOn next calls).map owed).sum = owedBy owed next + (calls.map owed).sum := by
  cases next with
  | none => exact (Nat.zero_add _).symm
  | some k => exact (congrArg Multiset.sum (Multiset.map_cons _ _ _)).trans (Multiset.sum_cons _ _)

/-! ### Sums -/

/-- Every call adds its `due` to a value in the end; `owed` is what a call in progress has not
added yet. -/
def Balanced (owed : κ → ℕ) (due : ε → ℕ) (v : ℕ) (calls : Multiset κ) (begun : List ε) : Prop :=
  v + (calls.map owed).sum = (begun.map due).sum

theorem balanced_nil : Balanced owed due 0 0 [] := rfl

theorem Balanced.begin (h : Balanced owed due v calls begun) (he : owed k = due e) :
    Balanced owed due v (k ::ₘ calls) (begun ++ [e]) := by
  rw [Balanced] at h ⊢
  rw [Multiset.map_cons, Multiset.sum_cons, List.map_append, List.sum_append, List.map_singleton,
    List.sum_singleton]
  omega

/-- A call adds what it owes less from now on. -/
theorem Balanced.step (h : Balanced owed due v (k ::ₘ calls) begun)
    (he : v' + owedBy owed next = v + owed k) : Balanced owed due v' (goOn next calls) begun := by
  rw [Balanced, Multiset.map_cons, Multiset.sum_cons] at h
  rw [Balanced, sum_goOn]
  omega

/-- There is room for what a call owes. -/
theorem Balanced.le (h : Balanced owed due v (k ::ₘ calls) begun) :
    v + owed k ≤ (begun.map due).sum := by
  rw [Balanced, Multiset.map_cons, Multiset.sum_cons] at h
  omega

theorem Balanced.settled (h : Balanced owed due v 0 begun) : v = (begun.map due).sum := h

/-- A value that gets no further ahead of another than the calls in progress owe to that. -/
def Covered (owed : κ → ℕ) (v w : ℕ) (calls : Multiset κ) : Prop :=
  v ≤ w + (calls.map owed).sum

theorem Covered.begin (h : Covered owed v w calls) : Covered owed v w (k ::ₘ calls) := by
  rw [Covered] at h ⊢
  rw [Multiset.map_cons, Multiset.sum_cons]
  omega

theorem Covered.step (h : Covered owed v w (k ::ₘ calls))
    (he : v' + w + owed k ≤ v + w' + owedBy owed next) : Covered owed v' w' (goOn next calls) := by
  rw [Covered, Multiset.map_cons, Multiset.sum_cons] at h
  rw [Covered, sum_goOn]
  omega

/-! ### The maximum -/

variable [LinearOrder α] {init value x y : α} {given : List α} {pending : Multiset α}

/-- A value that has been raised to those given, but for the ones that are still pending. -/
structure Raised (init value : α) (given : List α) (pending : Multiset α) : Prop where
  lower : init ≤ value
  attained : value = init ∨ value ∈ given
  covered : ∀ x ∈ given, x ≤ value ∨ x ∈ pending
  given : ∀ x ∈ pending, x ∈ given

theorem raised_nil : Raised init init [] 0 where
  lower := le_rfl
  attained := .inl rfl
  covered _ h := absurd h List.not_mem_nil
  given x h := absurd h (Multiset.notMem_zero x)

theorem Raised.begin (h : Raised init value given pending) :
    Raised init value (given ++ [x]) (x ::ₘ pending) where
  lower := h.lower
  attained := h.attained.imp_right (List.mem_append_left _)
  covered y hy := by
    rcases List.mem_append.mp hy with hy | hy
    · exact (h.covered y hy).imp_right Multiset.mem_cons_of_mem
    · obtain rfl := List.mem_singleton.mp hy
      exact .inr (Multiset.mem_cons_self y pending)
  given y hy := by
    rcases Multiset.mem_cons.mp hy with rfl | hy
    · exact List.mem_append_right _ (List.mem_singleton_self y)
    · exact List.mem_append_left _ (h.given y hy)

/-- What is at least as large as the value replaces it. -/
theorem Raised.raise (h : Raised init value given (x ::ₘ pending)) (hle : value ≤ x) :
    Raised init x given pending where
  lower := h.lower.trans hle
  attained := .inr (h.given x (Multiset.mem_cons_self x pending))
  covered y hy := by
    rcases h.covered y hy with hv | hp
    · exact .inl (hv.trans hle)
    · rcases Multiset.mem_cons.mp hp with rfl | hp
      · exact .inl le_rfl
      · exact .inr hp
  given y hy := h.given y (Multiset.mem_cons_of_mem hy)

/-- What is not larger than the value need not be stored. -/
theorem Raised.drop (h : Raised init value given (x ::ₘ pending)) (hle : x ≤ value) :
    Raised init value given pending where
  lower := h.lower
  attained := h.attained
  covered y hy := by
    rcases h.covered y hy with hv | hp
    · exact .inl hv
    · rcases Multiset.mem_cons.mp hp with rfl | hp
      · exact .inl hle
      · exact .inr hp
  given y hy := h.given y (Multiset.mem_cons_of_mem hy)

theorem Raised.isGreatest (h : Raised init value given 0) :
    IsGreatest {y | y = init ∨ y ∈ given} value := by
  refine ⟨h.attained, ?_⟩
  rintro y (rfl | hy)
  · exact h.lower
  · exact (h.covered y hy).resolve_right (Multiset.notMem_zero y)

end Counters
