import Mathlib.Tactic

/-! Loops over an indexed family of cells that write only the cell they visit. -/
namespace Visit

variable {ι σ ω ε : Type*} [DecidableEq ι] {l : List ι} {s : ι → σ} {i : ι}

/-- Visits every cell of the list and collects what the visits return. -/
def visit (op : ι → σ → σ × ω) : List ι → (ι → σ) → (ι → σ) × List ω
  | [], s => (s, [])
  | i :: is, s =>
    let p := op i (s i)
    let q := visit op is (Function.update s i p.1)
    (q.1, p.2 :: q.2)

/-- Stops at the first visit that returns an error. -/
def visitUntil (op : ι → σ → σ × Option ε) : List ι → (ι → σ) → (ι → σ) × Option ε
  | [], s => (s, none)
  | i :: is, s =>
    let p := op i (s i)
    match p.2 with
    | some e => (Function.update s i p.1, some e)
    | none => visitUntil op is (Function.update s i p.1)

theorem update_of_notMem (hi : i ∉ l) (x : σ) : ∀ j ∈ l, Function.update s i x j = s j := by
  intro j hj
  refine Function.update_of_ne ?_ x s
  rintro rfl
  exact hi hj

/-- A loop without repetitions does every cell once, each from its own start value. -/
theorem visit_eq {op : ι → σ → σ × ω} (hn : l.Nodup) : visit op l s =
    (fun i => if i ∈ l then (op i (s i)).1 else s i, l.map fun i => (op i (s i)).2) := by
  induction l generalizing s with
  | nil => simp [visit]
  | cons i is ih =>
    obtain ⟨hi, his⟩ := List.nodup_cons.mp hn
    have hne := update_of_notMem hi (s := s) (op i (s i)).1
    rw [visit, ih his]
    refine Prod.ext (funext fun j => ?_) ?_
    · by_cases hj : j ∈ is
      · simp [hj, hne j hj]
      · by_cases hji : j = i
        · subst hji
          simp [hj]
        · simp [hj, hji]
    · simp only [List.map_cons, List.cons.injEq, true_and]
      exact List.map_congr_left fun j hj => by rw [hne j hj]

/-- The cells before the failing one are done, those after it are untouched. -/
theorem visitUntil_some {op : ι → σ → σ × Option ε} (hn : l.Nodup) {e : ε}
    (h : (visitUntil op l s).2 = some e) :
    ∃ pre k post, l = pre ++ k :: post ∧ (op k (s k)).2 = some e ∧
      (∀ j ∈ pre, (op j (s j)).2 = none) ∧
      ∀ j, (visitUntil op l s).1 j = if j ∈ pre ∨ j = k then (op j (s j)).1 else s j := by
  induction l generalizing s with
  | nil => simp [visitUntil] at h
  | cons i is ih =>
    obtain ⟨hi, his⟩ := List.nodup_cons.mp hn
    cases hp : (op i (s i)).2 with
    | some e' =>
      have hv : visitUntil op (i :: is) s = (Function.update s i (op i (s i)).1, some e') := by
        simp [visitUntil, hp]
      rw [hv] at h ⊢
      refine ⟨[], i, is, rfl, hp.trans h, by simp, fun j => ?_⟩
      by_cases hj : j = i
      · subst hj
        simp
      · simp [hj]
    | none =>
      have hv : visitUntil op (i :: is) s =
          visitUntil op is (Function.update s i (op i (s i)).1) := by
        simp [visitUntil, hp]
      rw [hv] at h ⊢
      obtain ⟨pre, k, post, hl, hk, hpre, hres⟩ := ih his h
      have hne := update_of_notMem hi (s := s) (op i (s i)).1
      have hkm : k ∈ is := by simp [hl]
      refine ⟨i :: pre, k, post, by simp [hl], ?_, ?_, fun j => ?_⟩
      · rwa [hne k hkm] at hk
      · intro j hj
        rcases List.mem_cons.mp hj with rfl | hj
        · exact hp
        · have := hpre j hj
          rwa [hne j (by simp [hl, hj])] at this
      · rw [hres j]
        by_cases hji : j = i
        · subst hji
          have hjp : ¬ (j ∈ pre ∨ j = k) := by
            rintro (hj | rfl)
            · exact hi (by simp [hl, hj])
            · exact hi hkm
          simp [hjp]
        · simp [hji]

theorem visitUntil_none {op : ι → σ → σ × Option ε} (hn : l.Nodup)
    (h : (visitUntil op l s).2 = none) :
    (∀ j ∈ l, (op j (s j)).2 = none) ∧
      ∀ j, (visitUntil op l s).1 j = if j ∈ l then (op j (s j)).1 else s j := by
  induction l generalizing s with
  | nil => simp [visitUntil]
  | cons i is ih =>
    obtain ⟨hi, his⟩ := List.nodup_cons.mp hn
    cases hp : (op i (s i)).2 with
    | some e' => simp [visitUntil, hp] at h
    | none =>
      have hv : visitUntil op (i :: is) s =
          visitUntil op is (Function.update s i (op i (s i)).1) := by
        simp [visitUntil, hp]
      rw [hv] at h ⊢
      obtain ⟨hok, hres⟩ := ih his h
      have hne := update_of_notMem hi (s := s) (op i (s i)).1
      refine ⟨fun j hj => ?_, fun j => ?_⟩
      · rcases List.mem_cons.mp hj with rfl | hj
        · exact hp
        · have := hok j hj
          rwa [hne j hj] at this
      · rw [hres j]
        by_cases hji : j = i
        · subst hji
          simp [hi]
        · simp [hji]

end Visit
