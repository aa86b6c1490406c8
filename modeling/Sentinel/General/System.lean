import Mathlib.Logic.Relation

/-! Labelled transition systems: finite runs, guarded runs, invariants and simulations. -/
namespace Transition

/-- Initial states and a labelled step relation. -/
structure System (σ α : Type*) where
  init : σ → Prop
  step : σ → α → σ → Prop

namespace System

variable {σ τ α β : Type*} {M : System σ α} {N : System τ β}
  {s t u : σ} {a : α} {as bs : List α}

/-- The labels `as` lead from the first state to the last, one step each. -/
inductive Run (M : System σ α) : σ → List α → σ → Prop where
  | refl {s : σ} : Run M s [] s
  | head {s t u : σ} {a : α} {as : List α} :
      M.step s a t → Run M t as u → Run M s (a :: as) u

def Reachable (M : System σ α) (s : σ) : Prop :=
  ∃ s₀ as, M.init s₀ ∧ M.Run s₀ as s

/-- The runs of `M` all of whose steps meet the guard `G`. -/
def restrict (M : System σ α) (G : σ → α → Prop) : System σ α where
  init := M.init
  step s a t := G s a ∧ M.step s a t

theorem Run.append (h : M.Run s as t) (h' : M.Run t bs u) : M.Run s (as ++ bs) u := by
  induction h with
  | refl => exact h'
  | head hs _ ih => exact .head hs (ih h')

theorem Run.single (h : M.step s a t) : M.Run s [a] t := .head h .refl

/-- A run with a marked step in it. -/
theorem Run.split (h : M.Run s (as ++ a :: bs) t) :
    ∃ u v, M.Run s as u ∧ M.step u a v ∧ M.Run v bs t := by
  induction as generalizing s with
  | nil =>
    cases h with
    | head hs hr => exact ⟨s, _, .refl, hs, hr⟩
  | cons b as ih =>
    cases h with
    | head hs hr =>
      obtain ⟨u, v, hu, hst, hv⟩ := ih hr
      exact ⟨u, v, .head hs hu, hst, hv⟩

theorem Reachable.of_init (h : M.init s) : M.Reachable s := ⟨s, [], h, .refl⟩

theorem Reachable.run (h : M.Reachable s) (h' : M.Run s as t) : M.Reachable t := by
  obtain ⟨s₀, bs, hi, hr⟩ := h
  exact ⟨s₀, bs ++ as, hi, hr.append h'⟩

theorem Reachable.step (h : M.Reachable s) (h' : M.step s a t) : M.Reachable t :=
  h.run (.single h')

/-- What every single step preserves, every run preserves. -/
theorem Run.preserves {I : σ → Prop} (hstep : ∀ {s a t}, M.step s a t → I s → I t)
    (h : M.Run s as t) (hs : I s) : I t := by
  induction h with
  | refl => exact hs
  | head h _ ih => exact ih (hstep h hs)

/-- As `Run.preserves`, for a property of the labels so far and of the state they lead to. -/
theorem Run.preserves_labels {I : List α → σ → Prop}
    (hstep : ∀ {as s a t}, M.step s a t → I as s → I (as ++ [a]) t) (h : M.Run s as t)
    (hs : I bs s) : I (bs ++ as) t := by
  induction h generalizing bs with
  | refl => rwa [List.append_nil]
  | @head s t u a as h _ ih =>
    have hi := ih (hstep h hs)
    rwa [List.append_assoc] at hi

theorem Reachable.invariant {I : σ → Prop} (hinit : ∀ {s}, M.init s → I s)
    (hstep : ∀ {s a t}, M.step s a t → I s → I t) (h : M.Reachable s) : I s := by
  obtain ⟨s₀, as, hi, hr⟩ := h
  exact hr.preserves hstep (hinit hi)

theorem Run.of_restrict {G : σ → α → Prop} (h : (M.restrict G).Run s as t) : M.Run s as t := by
  induction h with
  | refl => exact .refl
  | head hs _ ih => exact .head hs.2 ih

theorem Reachable.of_restrict {G : σ → α → Prop} (h : (M.restrict G).Reachable s) :
    M.Reachable s := by
  obtain ⟨s₀, as, hi, hr⟩ := h
  exact ⟨s₀, as, hi, hr.of_restrict⟩

/-- A run that meets a guard meets every weaker one. -/
theorem Run.weaken {G G' : σ → α → Prop} (hG : ∀ s a, G s a → G' s a)
    (h : (M.restrict G).Run s as t) : (M.restrict G').Run s as t := by
  induction h with
  | refl => exact .refl
  | head hst _ ih => exact .head ⟨hG _ _ hst.1, hst.2⟩ ih

theorem Reachable.weaken {G G' : σ → α → Prop} (hG : ∀ s a, G s a → G' s a)
    (h : (M.restrict G).Reachable s) : (M.restrict G').Reachable s := by
  obtain ⟨s₀, as, hi, hr⟩ := h
  exact ⟨s₀, as, hi, hr.weaken hG⟩

/-- `f` maps every step between reachable states to a run of `N`, which may be empty. -/
structure Simulation (M : System σ α) (N : System τ β) (f : σ → τ) : Prop where
  init : ∀ {s}, M.init s → N.init (f s)
  step : ∀ {s a t}, M.Reachable s → N.Reachable (f s) → M.step s a t →
    ∃ bs, N.Run (f s) bs (f t)

theorem exists_run_of_eq (h : t = s) : ∃ as, M.Run s as t := ⟨[], h ▸ .refl⟩

theorem Simulation.run_of_reachable {f : σ → τ} (h : Simulation M N f) (hr : M.Run s as t)
    (hs : M.Reachable s) (hf : N.Reachable (f s)) : ∃ bs, N.Run (f s) bs (f t) := by
  induction hr with
  | refl => exact ⟨[], .refl⟩
  | head hst _ ih =>
    obtain ⟨bs, hbs⟩ := h.step hs hf hst
    obtain ⟨cs, hcs⟩ := ih (hs.step hst) (hf.run hbs)
    exact ⟨bs ++ cs, hbs.append hcs⟩

theorem Simulation.reachable {f : σ → τ} (h : Simulation M N f) (hs : M.Reachable s) :
    N.Reachable (f s) := by
  obtain ⟨s₀, as, hi, hr⟩ := hs
  have h₀ : N.Reachable (f s₀) := .of_init (h.init hi)
  obtain ⟨bs, hbs⟩ := h.run_of_reachable hr (.of_init hi) h₀
  exact h₀.run hbs

theorem Simulation.run {f : σ → τ} (h : Simulation M N f) (hs : M.Reachable s)
    (hr : M.Run s as t) : ∃ bs, N.Run (f s) bs (f t) :=
  h.run_of_reachable hr hs (h.reachable hs)

end System

end Transition
