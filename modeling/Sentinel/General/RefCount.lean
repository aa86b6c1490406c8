import Mathlib.Tactic

/-! Reference counts: objects that are freed when their last reference is released. -/
namespace RefCount

variable {ι : Type*} [DecidableEq ι]

/-- The counts, and the objects freed so far. A count is an integer; `Owed.ref_range` bounds it. -/
structure Counter (ι : Type*) where
  ref : ι → ℤ
  freed : List ι

namespace Counter

def init : Counter ι := ⟨fun _ => 0, []⟩

/-- A new object with `n` references. -/
def create (k : Counter ι) (c : ι) (n : ℕ) : Counter ι :=
  { k with ref := Function.update k.ref c n }

def addRef (k : Counter ι) (c : ι) : Counter ι :=
  { k with ref := Function.update k.ref c (k.ref c + 1) }

def release (k : Counter ι) (c : ι) : Counter ι where
  ref := Function.update k.ref c (k.ref c - 1)
  freed := if k.ref c = 1 then c :: k.freed else k.freed

end Counter

variable {k : Counter ι} {known : ι → Prop} {refs : Multiset ι} {c : ι} {n : ℕ}

/-- The counts of the known objects are those of the outstanding references `refs`, and an object
is freed once if it has none. -/
structure Owed (k : Counter ι) (known : ι → Prop) (refs : Multiset ι) : Prop where
  known_of_mem : ∀ {c}, c ∈ refs → known c
  ref : ∀ {c}, known c → k.ref c = refs.count c
  freed_once : ∀ {c}, known c → c ∉ refs → k.freed.count c = 1
  not_freed : ∀ {c}, known c → c ∈ refs → c ∉ k.freed
  freed_known : ∀ {c}, c ∈ k.freed → known c

theorem owed_init : Owed (Counter.init : Counter ι) (fun _ => False) 0 where
  known_of_mem h := absurd h (Multiset.notMem_zero _)
  ref h := h.elim
  freed_once h := h.elim
  not_freed h := h.elim
  freed_known h := absurd h List.not_mem_nil

/-- The counter says whether an object has been freed. -/
theorem Owed.count_freed (h : Owed k known refs) (hc : known c) :
    k.freed.count c = if k.ref c = 0 then 1 else 0 := by
  rw [h.ref hc]
  by_cases hm : c ∈ refs
  · have hpos := Multiset.count_pos.mpr hm
    rw [if_neg (by omega), List.count_eq_zero_of_not_mem (h.not_freed hc hm)]
  · rw [Multiset.count_eq_zero_of_notMem hm, if_pos Nat.cast_zero, h.freed_once hc hm]

/-- A count is in range as long as there are fewer references than that. -/
theorem Owed.ref_range (h : Owed k known refs) (hc : known c) (hn : refs.card < n) :
    0 ≤ k.ref c ∧ k.ref c < n := by
  have hle := Multiset.count_le_card c refs
  rw [h.ref hc]
  omega

theorem Owed.congr {known' : ι → Prop} (h : Owed k known refs) (hk : ∀ c, known c ↔ known' c) :
    Owed k known' refs := by
  have he : known = known' := funext fun c => propext (hk c)
  exact he ▸ h

theorem Owed.create (h : Owed k known refs) (hc : ¬ known c) (hn : 0 < n) :
    Owed (k.create c n) (fun x => known x ∨ x = c) (Multiset.replicate n c + refs) := by
  have hne : ∀ {x}, known x → x ≠ c := fun hx he => hc (he ▸ hx)
  have hout : c ∉ refs := fun hm => hc (h.known_of_mem hm)
  refine ⟨?_, ?_, ?_, ?_, fun hx => .inl (h.freed_known hx)⟩
  · intro x hx
    rcases Multiset.mem_add.mp hx with hx | hx
    · exact .inr (Multiset.eq_of_mem_replicate hx)
    · exact .inl (h.known_of_mem hx)
  · rintro x (hx | rfl)
    · simp [Counter.create, Multiset.count_replicate, (hne hx).symm, hne hx, h.ref hx]
    · simp [Counter.create, Multiset.count_eq_zero_of_notMem hout]
  · rintro x (hx | rfl) hx'
    · exact h.freed_once hx fun hm => hx' (Multiset.mem_add.mpr (.inr hm))
    · exact absurd (Multiset.mem_add.mpr (.inl (Multiset.mem_replicate.mpr ⟨hn.ne', rfl⟩))) hx'
  · rintro x (hx | rfl) hx'
    · rcases Multiset.mem_add.mp hx' with hm | hm
      · exact absurd (Multiset.eq_of_mem_replicate hm) (hne hx)
      · exact h.not_freed hx hm
    · exact fun hf => hc (h.freed_known hf)

/-- A reference may be added to an object that has one. -/
theorem Owed.addRef (h : Owed k known refs) (hc : c ∈ refs) :
    Owed (k.addRef c) known (c ::ₘ refs) := by
  have hkeep : ∀ {x}, x ∈ c ::ₘ refs → x ∈ refs := by
    intro x hx
    rcases Multiset.mem_cons.mp hx with rfl | hx
    · exact hc
    · exact hx
  refine ⟨fun hx => h.known_of_mem (hkeep hx), ?_, ?_, ?_, h.freed_known⟩
  · intro x hx
    by_cases he : x = c
    · subst he
      simp [Counter.addRef, h.ref hx]
    · simp [Counter.addRef, he, h.ref hx]
  · exact fun hx hx' => h.freed_once hx fun hm => hx' (Multiset.mem_cons_of_mem hm)
  · exact fun hx hx' => h.not_freed hx (hkeep hx')

/-- A reference that is outstanding may be released. -/
theorem Owed.release (h : Owed k known (c ::ₘ refs)) : Owed (k.release c) known refs := by
  have hc : known c := h.known_of_mem (Multiset.mem_cons_self c refs)
  have href : k.ref c = refs.count c + 1 := by
    rw [h.ref hc, Multiset.count_cons_self]
    push_cast
    rfl
  have hfree : c ∉ k.freed := h.not_freed hc (Multiset.mem_cons_self c refs)
  refine ⟨fun hx => h.known_of_mem (Multiset.mem_cons_of_mem hx), ?_, ?_, ?_, ?_⟩
  · intro x hx
    by_cases he : x = c
    · subst he
      simp [Counter.release, href]
    · simp [Counter.release, he, h.ref hx]
  · intro x hx hx'
    by_cases he : x = c
    · subst he
      simp [Counter.release, href, Multiset.count_eq_zero_of_notMem hx',
        List.count_eq_zero_of_not_mem hfree]
    · have hone := h.freed_once hx (by simp [he, hx'])
      simp only [Counter.release]
      split
      · rwa [List.count_cons_of_ne (Ne.symm he)]
      · exact hone
  · intro x hx hx'
    have hin := h.not_freed hx (Multiset.mem_cons_of_mem hx')
    simp only [Counter.release]
    split
    · rename_i hone
      have hpos := Multiset.count_pos.mpr hx'
      rintro hm
      rcases List.mem_cons.mp hm with rfl | hm
      · omega
      · exact hin hm
    · exact hin
  · intro x hx
    simp only [Counter.release] at hx
    split at hx
    · rcases List.mem_cons.mp hx with rfl | hx
      · exact hc
      · exact h.freed_known hx
    · exact h.freed_known hx

end RefCount
