import Mathlib.Data.Finmap
import Mathlib.Tactic

/-! Lists of records with distinct keys, read as finite maps. -/
namespace Keyed

variable {α κ : Type*} [DecidableEq κ] {key : α → κ} {l l' : List α} {a b : α} {k : κ} {i : ℕ}

/-- The records of a list under their keys. -/
def toMap (key : α → κ) (l : List α) : Finmap fun _ : κ => α :=
  (l.map fun a => (⟨key a, a⟩ : Sigma fun _ : κ => α)).toFinmap

theorem toMap_nil : toMap key ([] : List α) = ∅ := rfl

theorem toMap_cons : toMap key (a :: l) = (toMap key l).insert (key a) a := rfl

theorem lookup_toMap (h : (l.map key).Nodup) :
    (toMap key l).lookup k = some a ↔ a ∈ l ∧ key a = k := by
  induction l with
  | nil => simp [toMap_nil]
  | cons b l ih =>
    obtain ⟨hb, hl⟩ := List.nodup_cons.mp (by simpa using h : (key b :: l.map key).Nodup)
    rw [toMap_cons]
    by_cases hk : k = key b
    · subst hk
      rw [Finmap.lookup_insert]
      constructor
      · intro he
        cases he
        simp
      · rintro ⟨hm, hk⟩
        rcases List.mem_cons.mp hm with rfl | hm
        · rfl
        · exact absurd (List.mem_map.mpr ⟨a, hm, hk⟩) hb
    · rw [Finmap.lookup_insert_of_ne _ hk, ih hl]
      constructor
      · rintro ⟨hm, hk⟩
        exact ⟨List.mem_cons_of_mem b hm, hk⟩
      · rintro ⟨hm, rfl⟩
        rcases List.mem_cons.mp hm with rfl | hm
        · exact absurd rfl hk
        · exact ⟨hm, rfl⟩

theorem mem_toMap : k ∈ toMap key l ↔ ∃ a ∈ l, key a = k := by
  induction l with
  | nil =>
    rw [toMap_nil]
    simpa using Finmap.notMem_empty
  | cons b l ih =>
    rw [toMap_cons, Finmap.mem_insert, ih]
    simp [eq_comm]

theorem toMap_eq_empty : toMap key l = ∅ ↔ l = [] := by
  constructor
  · intro h
    rcases l with _ | ⟨a, l⟩
    · rfl
    · have hm : key a ∈ toMap key (a :: l) := mem_toMap.mpr ⟨a, by simp, rfl⟩
      rw [h] at hm
      exact absurd hm Finmap.notMem_empty
  · rintro rfl
    exact toMap_nil

/-- Two lists with distinct keys and the same members are the same map. -/
theorem toMap_ext (h : (l.map key).Nodup) (h' : (l'.map key).Nodup)
    (hm : ∀ a, a ∈ l ↔ a ∈ l') : toMap key l = toMap key l' := by
  apply Finmap.ext_lookup
  intro k
  apply Option.ext
  intro a
  rw [lookup_toMap h, lookup_toMap h', hm]

theorem toMap_perm (h : (l.map key).Nodup) (hp : l.Perm l') : toMap key l = toMap key l' :=
  toMap_ext h ((hp.map key).nodup_iff.mp h) fun _ => hp.mem_iff

theorem card_toMap (h : (l.map key).Nodup) : (toMap key l).keys.card = l.length := by
  have hk : (toMap key l).keys = (l.map key).toFinset := by
    ext k
    rw [Finmap.mem_keys, mem_toMap]
    simp
  rw [hk, List.toFinset_card_of_nodup h, List.length_map]

/-- A record under a new key at the end. -/
theorem toMap_append (h : (l.map key).Nodup) (hk : ∀ b ∈ l, key b ≠ key a) :
    toMap key (l ++ [a]) = (toMap key l).insert (key a) a := by
  have hp : (a :: l).Perm (l ++ [a]) := (List.perm_append_singleton a l).symm
  have hn : ((a :: l).map key).Nodup := by
    refine List.nodup_cons.mpr ⟨?_, h⟩
    intro hm
    obtain ⟨b, hb, he⟩ := List.mem_map.mp hm
    exact hk b hb he
  rw [← toMap_perm hn hp, toMap_cons]

omit [DecidableEq κ] in
theorem map_set (h : i < l.length) (hk : key l[i] = key a) :
    (l.set i a).map key = l.map key := by
  apply List.ext_getElem
  · simp
  · intro j hj hj'
    simp only [List.getElem_map, List.getElem_set]
    split
    · rename_i he
      subst he
      exact hk.symm
    · rfl

/-- A record in the place of the one with its key. -/
theorem toMap_set (h : (l.map key).Nodup) (hi : i < l.length) (hk : key l[i] = key a) :
    toMap key (l.set i a) = (toMap key l).insert (key a) a := by
  have hn : ((l.set i a).map key).Nodup := by rwa [map_set hi hk]
  apply Finmap.ext_lookup
  intro k
  by_cases hka : k = key a
  · subst hka
    rw [Finmap.lookup_insert, lookup_toMap hn]
    exact ⟨List.mem_set hi a, rfl⟩
  · rw [Finmap.lookup_insert_of_ne _ hka]
    apply Option.ext
    intro b
    rw [lookup_toMap hn, lookup_toMap h]
    refine and_congr_left fun hb => ?_
    have hne : b ≠ a ∧ b ≠ l[i] := by
      constructor <;> rintro rfl
      · exact hka hb.symm
      · exact hka (hb.symm.trans hk)
    constructor
    · intro hm
      exact (List.mem_or_eq_of_mem_set hm).resolve_right hne.1
    · intro hm
      obtain ⟨j, hj, rfl⟩ := List.getElem_of_mem hm
      have hij : i ≠ j := by
        rintro rfl
        exact hne.2 rfl
      have hs : j < (l.set i a).length := by simpa using hj
      have hget : (l.set i a)[j] = l[j] := List.getElem_set_ne hij hs
      rw [← hget]
      exact List.getElem_mem _

omit [DecidableEq κ] in
/-- The record at one place, and the others. -/
theorem perm_remove (hi : i < l.length) :
    (l[i] :: (l.take i ++ l.drop (i + 1))).Perm l := by
  have hl : l.take i ++ l[i] :: l.drop (i + 1) = l := by simp
  exact List.perm_middle.symm.trans (.of_eq hl)

omit [DecidableEq κ] in
/-- A removed record has no other under its key. -/
theorem notMem_remove (h : (l.map key).Nodup) (hi : i < l.length) :
    key l[i] ∉ (l.take i ++ l.drop (i + 1)).map key :=
  (List.nodup_cons.mp (((perm_remove hi).map key).nodup_iff.mpr h)).1

/-- The list without the record at one place. -/
theorem toMap_remove (h : (l.map key).Nodup) (hi : i < l.length) :
    toMap key (l.take i ++ l.drop (i + 1)) = (toMap key l).erase (key l[i]) := by
  have hp := perm_remove hi
  have hn := (hp.map key).nodup_iff.mpr h
  have hki := notMem_remove h hi
  apply Finmap.ext_lookup
  intro k
  by_cases hk : k = key l[i]
  · subst hk
    rw [Finmap.lookup_erase, Finmap.lookup_eq_none, mem_toMap]
    rintro ⟨b, hb, he⟩
    exact hki (he ▸ List.mem_map_of_mem hb)
  · rw [Finmap.lookup_erase_ne hk, ← toMap_perm hn hp, toMap_cons,
      Finmap.lookup_insert_of_ne _ hk]

end Keyed
