import Sentinel.General.Keyed

/-! Tables with a fixed number of slots, some of them free, read as finite maps. -/
namespace Slots

open Keyed

variable {α κ : Type*} {n : ℕ} {key : α → κ} {t : Fin n → Option α} {i j : Fin n} {a b : α}
  {k : κ}

/-- No key has two slots. -/
def Unique (key : α → κ) (t : Fin n → Option α) : Prop :=
  ∀ i j a b, t i = some a → t j = some b → key a = key b → i = j

/-- The records in the slots, from the first slot on. -/
def used (t : Fin n → Option α) : List α := (List.finRange n).filterMap t

theorem mem_used : a ∈ used t ↔ ∃ i, t i = some a := by
  simp [used]

theorem length_used_le : (used t).length ≤ n := by
  have h := List.length_filterMap_le t (List.finRange n)
  rwa [List.length_finRange] at h

/-- Only a free slot makes the list shorter than the table. -/
theorem length_used_lt : (used t).length < n ↔ ∃ i, t i = none := by
  have hlen : (used t).length < (List.finRange n).length ↔ ∃ i ∈ List.finRange n, t i = none := by
    rw [used]
    induction List.finRange n with
    | nil => simp
    | cons i is ih =>
      have hle := List.length_filterMap_le t is
      cases hi : t i with
      | none => simp [hi, hle]
      | some a => simp [hi, ih]
  simpa using hlen

theorem nodup_used (h : Unique key t) : ((used t).map key).Nodup := by
  rw [used, List.map_filterMap]
  refine (List.nodup_finRange n).filterMap ?_
  intro i j k hi hj
  obtain ⟨a, ha, rfl⟩ := Option.map_eq_some_iff.mp hi
  obtain ⟨b, hb, he⟩ := Option.map_eq_some_iff.mp hj
  exact h i j a b ha hb he.symm

/-! ### Writing a slot -/

theorem Unique.update_some (h : Unique key t)
    (hown : ∀ j b, t j = some b → key b = key a → j = i) :
    Unique key (Function.update t i (some a)) := by
  intro j l b c hj hl he
  rw [Function.update_apply] at hj hl
  split at hj <;> split at hl
  · rename_i hji hli
    exact hji.trans hli.symm
  · rename_i hji hli
    cases hj
    exact absurd (hown l c hl he.symm) hli
  · rename_i hji hli
    cases hl
    exact absurd (hown j b hj he) hji
  · exact h j l b c hj hl he

theorem Unique.update_none (h : Unique key t) : Unique key (Function.update t i none) := by
  intro j l b c hj hl he
  rw [Function.update_apply] at hj hl
  split at hj
  · cases hj
  split at hl
  · cases hl
  exact h j l b c hj hl he

variable [DecidableEq κ]

/-- The records under their keys. -/
def contents (key : α → κ) (t : Fin n → Option α) : Finmap fun _ : κ => α := toMap key (used t)

theorem lookup_contents (h : Unique key t) :
    (contents key t).lookup k = some a ↔ ∃ i, t i = some a ∧ key a = k := by
  rw [contents, lookup_toMap (nodup_used h), mem_used, exists_and_right]

theorem card_contents (h : Unique key t) : (contents key t).keys.card = (used t).length :=
  card_toMap (nodup_used h)

theorem card_contents_le (h : Unique key t) : (contents key t).keys.card ≤ n := by
  rw [card_contents h]
  exact length_used_le

theorem card_contents_lt (h : Unique key t) :
    (contents key t).keys.card < n ↔ ∃ i, t i = none := by
  rw [card_contents h]
  exact length_used_lt

/-- A record in its own slot, or in a free one under a new key. -/
theorem contents_update_some (h : Unique key t)
    (hown : ∀ j b, t j = some b → key b = key a → j = i)
    (hold : ∀ b, t i = some b → key b = key a) :
    contents key (Function.update t i (some a)) = (contents key t).insert (key a) a := by
  have hu := h.update_some hown
  apply Finmap.ext_lookup
  intro k
  apply Option.ext
  intro b
  rw [lookup_contents hu]
  by_cases hk : k = key a
  · subst hk
    rw [Finmap.lookup_insert]
    constructor
    · rintro ⟨j, hj, he⟩
      rw [Function.update_apply] at hj
      split at hj
      · exact hj
      · rename_i hji
        exact absurd (hown j b hj he) hji
    · intro hb
      cases hb
      exact ⟨i, Function.update_self i (some a) t, rfl⟩
  · rw [Finmap.lookup_insert_of_ne _ hk, lookup_contents h]
    refine exists_congr fun j => and_congr_left fun he => ?_
    rw [Function.update_apply]
    split
    · rename_i hji
      subst hji
      constructor
      · intro hb
        cases hb
        exact absurd he.symm hk
      · intro hb
        exact absurd (he.symm.trans (hold b hb)) hk
    · exact Iff.rfl

/-- A slot set free. -/
theorem contents_update_none (h : Unique key t) (hi : t i = some a) :
    contents key (Function.update t i none) = (contents key t).erase (key a) := by
  apply Finmap.ext_lookup
  intro k
  apply Option.ext
  intro b
  rw [lookup_contents h.update_none]
  by_cases hk : k = key a
  · subst hk
    rw [Finmap.lookup_erase]
    constructor
    · rintro ⟨j, hj, he⟩
      rw [Function.update_apply] at hj
      split at hj
      · cases hj
      · rename_i hji
        exact absurd (h j i b a hj hi he) hji
    · intro hb
      cases hb
  · rw [Finmap.lookup_erase_ne hk, lookup_contents h]
    refine exists_congr fun j => and_congr_left fun he => ?_
    rw [Function.update_apply]
    split
    · rename_i hji
      subst hji
      constructor
      · intro hb
        cases hb
      · intro hb
        rw [hi] at hb
        cases hb
        exact absurd he.symm hk
    · exact Iff.rfl

end Slots
