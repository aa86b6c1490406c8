import Mathlib.Tactic

/-! A ring of `N` cells that is written all the way round, each write over what a cell holds. -/
namespace RingBuffer

variable {α β : Type*} {N k n i j : ℕ} {write : β → α → β} {xs ys : List α} {x : α}

/-- The cells and the position of the next write. -/
structure Cells (β : Type*) where
  cell : ℕ → β
  head : ℕ

variable {r : Cells β}

def Cells.push (N : ℕ) (write : β → α → β) (r : Cells β) (x : α) : Cells β where
  cell := Function.update r.cell r.head (write (r.cell r.head) x)
  head := (r.head + 1) % N

/-- The values at the positions `k`, `k + N`, and so on. -/
def lane (N k : ℕ) (xs : List α) : List α :=
  (xs.zipIdx.filter fun p => p.2 % N = k).map Prod.fst

@[simp] theorem lane_nil : lane N k ([] : List α) = [] := rfl

theorem lane_concat :
    lane N k (xs ++ [x]) = lane N k xs ++ if xs.length % N = k then [x] else [] := by
  rw [lane, List.zipIdx_append, List.filter_append, List.map_append, Nat.zero_add,
    List.zipIdx_singleton, List.filter_singleton]
  by_cases h : xs.length % N = k
  · simp [lane, h]
  · simp [lane, h]

theorem mem_lane : x ∈ lane N k xs ↔ ∃ j, j % N = k ∧ xs[j]? = some x := by
  simp only [lane, List.mem_map, List.mem_filter, List.mem_zipIdx_iff_getElem?, Prod.exists,
    exists_and_right, exists_eq_right, decide_eq_true_eq]
  exact exists_congr fun _ => and_comm

/-- In the last round a value is the last one of its lane. -/
theorem lane_last (hj : xs[j]? = some x) (hlast : xs.length ≤ j + N) :
    lane N (j % N) xs = lane N (j % N) (xs.take j) ++ [x] := by
  induction xs using List.reverseRecOn with
  | nil => cases hj
  | append_singleton xs y ih =>
    rw [List.length_append, List.length_singleton] at hlast
    rw [lane_concat]
    rcases Nat.lt_trichotomy j xs.length with hlt | rfl | hgt
    · -- A later value within one round is in another lane.
      have hne : xs.length % N ≠ j % N := by
        intro he
        have hdvd : N ∣ xs.length - j := (Nat.modEq_iff_dvd' hlt.le).mp he.symm
        have hle := Nat.le_of_dvd (Nat.sub_pos_of_lt hlt) hdvd
        omega
      rw [List.getElem?_append_left hlt] at hj
      rw [if_neg hne, List.append_nil, ih hj (by omega), List.take_append_of_le_length hlt.le]
    · rw [List.getElem?_concat_length] at hj
      rw [if_pos rfl, List.take_left, Option.some.inj hj]
    · rw [List.getElem?_eq_none (by simp; omega)] at hj
      cases hj

theorem head_foldl (h : r.head = 0) : (xs.foldl (Cells.push N write) r).head = xs.length % N := by
  induction xs using List.reverseRecOn with
  | nil => rw [List.foldl_nil, h, List.length_nil, Nat.zero_mod]
  | append_singleton xs y ih =>
    rw [List.foldl_concat, Cells.push, ih, Nat.mod_add_mod, List.length_append,
      List.length_singleton]

/-- A cell has been written by its lane. -/
theorem cell_foldl (h : r.head = 0) :
    (xs.foldl (Cells.push N write) r).cell k = (lane N k xs).foldl write (r.cell k) := by
  induction xs using List.reverseRecOn with
  | nil => rfl
  | append_singleton xs y ih =>
    rw [List.foldl_concat, Cells.push, head_foldl h, lane_concat]
    dsimp only
    by_cases hk : xs.length % N = k
    · subst hk
      rw [Function.update_self, ih, if_pos rfl, List.foldl_concat]
    · rw [Function.update_of_ne (Ne.symm hk), ih, if_neg hk, List.append_nil]

/-- The index of a position among the last `n`. -/
theorem index_newest (m : ℕ) (hn : n ≤ m) (hN : n ≤ N) :
    ((m % N + N - n) % N + i) % N = (m - n + i) % N := by
  have hmod : (m % N + N - n) % N = (m - n) % N := by
    have hle : n ≤ m % N + N := hN.trans (Nat.le_add_left _ _)
    have hcongr : m % N + N ≡ m [MOD N] := by
      rw [Nat.ModEq, Nat.add_mod_right, Nat.mod_mod]
    refine Nat.ModEq.add_right_cancel' n ?_
    rw [Nat.sub_add_cancel hle, Nat.sub_add_cancel hn]
    exact hcongr
  rw [hmod, Nat.mod_add_mod]

/-- What stands where the `i`-th of the last `n` values has been written: it has been written over
what the values before it in its lane have left. -/
theorem cell_newest (h : r.head = 0) (hn : n ≤ xs.length) (hN : n ≤ N)
    (hx : (xs.drop (xs.length - n))[i]? = some x) :
    let s := xs.foldl (Cells.push N write) r
    let j := xs.length - n + i
    s.cell (((s.head + N - n) % N + i) % N) =
      write ((lane N (j % N) (xs.take j)).foldl write (r.cell (j % N))) x := by
  rw [List.getElem?_drop] at hx
  dsimp only
  rw [head_foldl h, index_newest _ hn hN, cell_foldl h, lane_last hx (by omega), List.foldl_concat]

end RingBuffer
