import Mathlib.Data.Multiset.Count
import Mathlib.Tactic

/-! The rundown word of `runtime/rundown.c`: a holder count under a stop bit. -/
namespace Sentinel

/-- `LONG`: 32 bits, two's complement. -/
abbrev Long := BitVec 32

/-- `SHINKEN_RUNDOWN_STOP_BIT`. -/
def stopBit : Long := 0x80000000#32

/-- The two tests of `ShRundownAcquire` on the value it has read. -/
def rundownMayAcquire (c : Long) : Bool :=
  !(c.slt 0#32) && !(BitVec.sle 0x40000000#32 c)

/-- `ShRundownBeginStop`: one atomic OR. -/
def rundownBeginStop (c : Long) : Long := c ||| stopBit

/-- The test of `ShRundownRelease` on the value before its decrement. -/
def rundownUnderflow (before : Long) : Bool :=
  before == stopBit || before == 0#32

/-- `ShRundownActiveCount`: -1 for stopped and drained. -/
def rundownActiveCount (c : Long) : Long :=
  if c = stopBit then -1#32
  else if c.slt 0#32 then c &&& ~~~stopBit
  else c

theorem stopBit_toNat : stopBit.toNat = 2 ^ 31 := by decide

theorem rundownMayAcquire_iff (c : Long) : rundownMayAcquire c = true ↔ c.toNat < 2 ^ 30 := by
  have hc := c.isLt
  simp only [rundownMayAcquire, BitVec.slt, BitVec.sle, BitVec.toInt_eq_toNat_cond]
  simp
  omega

theorem rundownBeginStop_toNat (c : Long) : (rundownBeginStop c).toNat =
    if c.toNat < 2 ^ 31 then c.toNat + 2 ^ 31 else c.toNat := by
  have hc := c.isLt
  rw [rundownBeginStop, BitVec.toNat_or, stopBit_toNat, Nat.or_comm]
  split
  · rename_i h
    have hor := Nat.two_pow_add_eq_or_of_lt h 1
    rw [Nat.mul_one] at hor
    omega
  · rename_i h
    obtain ⟨d, hd⟩ : ∃ d, c.toNat = 2 ^ 31 + d := ⟨c.toNat - 2 ^ 31, by omega⟩
    have hor := Nat.two_pow_add_eq_or_of_lt (i := 31) (b := d) (by omega) 1
    rw [Nat.mul_one] at hor
    rw [hd, hor, ← Nat.or_assoc, Nat.or_self]

/-- The low 31 bits: the holders the word counts. -/
theorem and_not_stopBit_toNat (c : Long) : (c &&& ~~~stopBit).toNat = c.toNat % 2 ^ 31 := by
  have hm : (~~~stopBit).toNat = 2 ^ 31 - 1 := by decide
  rw [BitVec.toNat_and, hm, Nat.and_two_pow_sub_one_eq_mod]

/-- The active count is -1 exactly for the word with the stop bit and nothing else. -/
theorem rundownActiveCount_eq_neg_one (c : Long) :
    rundownActiveCount c = -1#32 ↔ c = stopBit := by
  constructor
  · intro h
    by_contra hs
    have hn : (-1#32 : Long).toNat = 2 ^ 32 - 1 := by decide
    have hc := congrArg BitVec.toNat h
    rw [rundownActiveCount, if_neg hs, hn] at hc
    split at hc
    · have hm := Nat.mod_lt c.toNat (y := 2 ^ 31) (by norm_num)
      rw [and_not_stopBit_toNat] at hc
      omega
    · rename_i hneg
      simp only [BitVec.slt, BitVec.toInt_eq_toNat_cond] at hneg
      simp at hneg
      omega
  · intro h
    rw [rundownActiveCount, if_pos h]

/-! ### The word that encodes a number of holders -/

/-- `h` holders, with the stop bit or without. -/
def rundownWord (h : ℕ) (stopped : Bool) : Long :=
  BitVec.ofNat 32 h + if stopped then stopBit else 0#32

section Word

variable {h : ℕ} {b : Bool}

theorem rundownWord_toNat (hh : h < 2 ^ 31) :
    (rundownWord h b).toNat = h + if b then 2 ^ 31 else 0 := by
  unfold rundownWord
  cases b
  · rw [if_neg Bool.false_ne_true, if_neg Bool.false_ne_true, BitVec.add_zero,
      BitVec.toNat_ofNat]
    omega
  · rw [if_pos rfl, if_pos rfl, BitVec.toNat_add, BitVec.toNat_ofNat, stopBit_toNat]
    omega

theorem rundownWord_init : rundownWord 0 false = 0#32 := by decide

theorem rundownMayAcquire_word (hh : h ≤ 2 ^ 30) :
    rundownMayAcquire (rundownWord h b) = true ↔ b = false ∧ h < 2 ^ 30 := by
  rw [rundownMayAcquire_iff, rundownWord_toNat (by omega)]
  cases b
  · simp
  · simp only [if_true, Bool.true_eq_false, false_and, iff_false]
    omega

theorem rundownWord_succ : rundownWord h b + 1#32 = rundownWord (h + 1) b := by
  rw [rundownWord, rundownWord, BitVec.ofNat_add, BitVec.add_assoc, BitVec.add_assoc,
    BitVec.add_comm 1#32]

theorem rundownWord_pred : rundownWord (h + 1) b - 1#32 = rundownWord h b := by
  rw [← rundownWord_succ, BitVec.add_sub_cancel]

theorem rundownBeginStop_word (hh : h < 2 ^ 31) :
    rundownBeginStop (rundownWord h b) = rundownWord h true := by
  apply BitVec.eq_of_toNat_eq
  rw [rundownBeginStop_toNat, rundownWord_toNat hh, rundownWord_toNat hh]
  cases b <;> simp
  omega

theorem rundownWord_eq_stopBit (hh : h < 2 ^ 31) :
    rundownWord h b = stopBit ↔ b = true ∧ h = 0 := by
  rw [← BitVec.toNat_inj, rundownWord_toNat hh, stopBit_toNat]
  cases b <;> simp
  omega

/-- A Release by one of the counted holders is never taken for a double Release. -/
theorem rundownUnderflow_word (hh : h < 2 ^ 30) :
    rundownUnderflow (rundownWord (h + 1) b) = false := by
  have hs : rundownWord (h + 1) b ≠ stopBit := by
    rw [Ne, rundownWord_eq_stopBit (by omega)]
    simp
  have h0 : rundownWord (h + 1) b ≠ 0#32 := by
    rw [Ne, ← BitVec.toNat_inj, rundownWord_toNat (by omega)]
    simp
  simp [rundownUnderflow, hs, h0]

end Word

end Sentinel
