import Mathlib.Tactic

/-! Strings of bytes read as bits, the most significant bit of byte 0 first. -/
namespace Bits

variable {f g : ℕ → UInt8} {a b : UInt8} {m n k : ℕ}

/-- Bit `i` of a string. -/
def bit (f : ℕ → UInt8) (i : ℕ) : Bool := (f (i / 8)).toNat.testBit (7 - i % 8)

/-- The first `n` bits are equal. -/
def SamePrefix (n : ℕ) (f g : ℕ → UInt8) : Prop := ∀ i < n, bit f i = bit g i

theorem samePrefix_equivalence (n : ℕ) : Equivalence (SamePrefix n) where
  refl _ _ _ := rfl
  symm h i hi := (h i hi).symm
  trans h h' i hi := (h i hi).trans (h' i hi)

theorem SamePrefix.mono (h : SamePrefix n f g) (hm : m ≤ n) : SamePrefix m f g :=
  fun i hi => h i (hi.trans_le hm)

/-- The byte whose highest `k` bits are set. -/
def highMask (k : ℕ) : UInt8 := UInt8.ofNat (0xFF <<< (8 - k))

theorem testBit_highMask (hk : k ≤ 8) (j : ℕ) :
    (highMask k).toNat.testBit j = decide (8 - k ≤ j ∧ j < 8) := by
  have hones : (0xFF : ℕ) = 2 ^ 8 - 1 := rfl
  rw [highMask, UInt8.toNat_ofNat', Nat.testBit_mod_two_pow, Nat.testBit_shiftLeft, hones,
    Nat.testBit_two_pow_sub_one, Bool.eq_iff_iff]
  simp only [Bool.and_eq_true, decide_eq_true_eq]
  omega

/-- Two bytes are equal under a mask if their highest bits are. -/
theorem and_highMask_eq_iff (hk : k ≤ 8) : a &&& highMask k = b &&& highMask k ↔
    ∀ j < k, a.toNat.testBit (7 - j) = b.toNat.testBit (7 - j) := by
  rw [← UInt8.toNat_inj, UInt8.toNat_and, UInt8.toNat_and]
  constructor
  · intro h j hj
    have hbit := congrArg (Nat.testBit · (7 - j)) h
    have hin : 8 - k ≤ 7 - j ∧ 7 - j < 8 := by omega
    simpa only [Nat.testBit_and, testBit_highMask hk, hin, and_self, decide_true,
      Bool.and_true] using hbit
  · intro h
    apply Nat.eq_of_testBit_eq
    intro i
    rw [Nat.testBit_and, Nat.testBit_and, testBit_highMask hk]
    by_cases hi : 8 - k ≤ i ∧ i < 8
    · have hbit := h (7 - i) (by omega)
      rw [show 7 - (7 - i) = i by omega] at hbit
      rw [hbit]
    · rw [decide_eq_false hi, Bool.and_false, Bool.and_false]

theorem byte_eq_iff : a = b ↔ ∀ j < 8, a.toNat.testBit (7 - j) = b.toNat.testBit (7 - j) := by
  have hmask : ∀ a : UInt8, a &&& highMask 8 = a := by
    intro a
    rw [← UInt8.toNat_inj, UInt8.toNat_and]
    exact Nat.and_two_pow_sub_one_of_lt_two_pow a.toNat_lt
  rw [← and_highMask_eq_iff le_rfl, hmask, hmask]

/-- Bits in a row belong to whole bytes and to the highest bits of one more. -/
theorem samePrefix_iff : SamePrefix n f g ↔ (∀ i < n / 8, f i = g i) ∧
    f (n / 8) &&& highMask (n % 8) = g (n / 8) &&& highMask (n % 8) := by
  rw [and_highMask_eq_iff (Nat.mod_lt n (by decide)).le]
  constructor
  · intro h
    have hbit : ∀ i j, i * 8 + j < n → j < 8 →
        (f i).toNat.testBit (7 - j) = (g i).toNat.testBit (7 - j) := by
      intro i j hn hj
      have hij := h (i * 8 + j) hn
      have hdiv : (i * 8 + j) / 8 = i := by omega
      have hmod : (i * 8 + j) % 8 = j := by omega
      rwa [bit, bit, hdiv, hmod] at hij
    refine ⟨fun i hi => byte_eq_iff.mpr fun j hj => hbit i j ?_ hj, fun j hj => hbit _ j ?_ ?_⟩
    all_goals omega
  · rintro ⟨hfull, hrest⟩ i hi
    rw [bit, bit]
    by_cases hlt : i / 8 < n / 8
    · rw [hfull _ hlt]
    · have heq : i / 8 = n / 8 := by omega
      rw [heq]
      exact hrest _ (by omega)

/-- A prefix depends on the bytes it reaches into. -/
theorem SamePrefix.of_bytes (h : ∀ i, i * 8 < n → f i = g i) : SamePrefix n f g := by
  intro i hi
  rw [bit, bit, h (i / 8) (by omega)]

end Bits
