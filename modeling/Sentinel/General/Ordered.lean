import Mathlib.Data.List.Sort
import Mathlib.Tactic

/-! Insertion sort on an array and the scan of its result for a first match. -/
namespace Ordered

variable {α β : Type*} {before : α → α → Bool} {l l' : List α} {a b t : α}

/-- Moves `t` down past the elements it comes before. The array up to `t` is read from its
end, so the head of the list is the element next to `t`. -/
def insertDown (before : α → α → Bool) (t : α) : List α → List α
  | [] => [t]
  | x :: xs => if before t x then x :: insertDown before t xs else t :: x :: xs

/-- Takes the elements one by one into the part that is sorted already. -/
def sort (before : α → α → Bool) (l : List α) : List α :=
  (l.foldl (fun done t => insertDown before t done) []).reverse

theorem insertDown_eq : insertDown before t l = l.orderedInsert (fun t x => ¬ before t x) t := by
  induction l with
  | nil => rfl
  | cons x xs ih => by_cases h : before t x = true <;> simp [insertDown, h, ih]

theorem sort_eq : sort before l =
    (l.reverse.insertionSort fun t x => ¬ before t x).reverse := by
  have h : (fun done t => insertDown before t done) =
      fun (done : List α) t => done.orderedInsert (fun t x => ¬ before t x) t := by
    funext done t
    exact insertDown_eq
  rw [sort, h, List.insertionSort, List.foldr_reverse]

/-- Sorting only rearranges. -/
theorem sort_perm : (sort before l).Perm l := by
  rw [sort_eq]
  refine (List.reverse_perm _).trans ?_
  exact (List.perm_insertionSort _ _).trans (List.reverse_perm l)

variable [LinearOrder β] {key : α → β}

theorem sort_pairwise_le (h : ∀ a b, before a b = true ↔ key a < key b) :
    (sort before l).Pairwise fun a b => key a ≤ key b := by
  have hr : (fun t x => ¬ before t x = true) = fun t x : α => key x ≤ key t := by
    funext t x
    rw [h, not_lt]
  have : Std.Total (fun t x : α => key x ≤ key t) := ⟨fun a b => le_total (key b) (key a)⟩
  have : IsTrans α (fun t x : α => key x ≤ key t) := ⟨fun a b c hab hbc => hbc.trans hab⟩
  rw [sort_eq, List.pairwise_reverse]
  simp only [hr]
  exact List.pairwise_insertionSort _ _

/-- With distinct keys the result is in strict order. -/
theorem sort_pairwise (h : ∀ a b, before a b = true ↔ key a < key b) (hn : (l.map key).Nodup) :
    (sort before l).Pairwise fun a b => before a b = true := by
  have hn' : ((sort before l).map key).Nodup := (sort_perm.map key).nodup_iff.mpr hn
  have hne := List.pairwise_map.mp hn'
  refine ((sort_pairwise_le (l := l) h).and hne).imp ?_
  rintro a b ⟨hle, hne⟩
  exact (h a b).mpr (lt_of_le_of_ne hle hne)

/-- What is in strict order stays as it is. -/
theorem sort_of_pairwise (h : ∀ a b, before a b = true ↔ key a < key b)
    (hl : l.Pairwise fun a b => before a b = true) : sort before l = l := by
  have hr : l.reverse.Pairwise fun t x => ¬ before t x = true := by
    refine List.pairwise_reverse.mpr (hl.imp ?_)
    intro a b hab hba
    exact lt_asymm ((h a b).mp hab) ((h b a).mp hba)
  rw [sort_eq, hr.insertionSort_eq, List.reverse_reverse]

/-- In an ordered list the first match comes before all others. -/
theorem find?_first {r : α → α → Prop} {p : α → Bool} (h : l.Pairwise r)
    (hf : l.find? p = some a) : a ∈ l ∧ p a = true ∧ ∀ b ∈ l, p b = true → b = a ∨ r a b := by
  obtain ⟨hp, pre, post, rfl, hpre⟩ := List.find?_eq_some_iff_append.mp hf
  refine ⟨by simp, hp, ?_⟩
  intro b hb hpb
  rcases List.mem_append.mp hb with hb | hb
  · have := hpre b hb
    simp [hpb] at this
  · rcases List.mem_cons.mp hb with rfl | hb
    · exact .inl rfl
    · exact .inr ((List.pairwise_cons.mp (List.pairwise_append.mp h).2.1).1 b hb)

end Ordered
