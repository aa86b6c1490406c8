import Sentinel.General.Bits
import Sentinel.General.Bytes
import Sentinel.Rules.Match

/-! `SkPkAddrMatch` of `packet/packet_helpers.c`: the bytes it reads and the bits it compares. -/
namespace Sentinel

open Bits Bytes Codec

/-- The loop over the whole bytes, from byte `i` on. -/
def wholeBytes (addr ruleAddr : List UInt8) (i : ℕ) : ℕ → Outcome Empty Bool
  | 0 => .ok true
  | n + 1 => do
    let x ← u8.read addr i
    let y ← u8.read ruleAddr i
    if x ≠ y then .ok false else wholeBytes addr ruleAddr (i + 1) n

/-- `SkPkAddrMatch` on the memory its two pointers point to. -/
def pkAddrMatchAt (addr ruleAddr : List UInt8) (bits : UInt8) (family : UInt32) :
    Outcome Empty Bool :=
  match addrWidth family with
  | none => .ok false
  | some width =>
    if width * 8 < bits.toNat then .ok false
    else if bits = 0 then .ok true
    else do
      let full := bits.toNat / 8
      let remBits := bits.toNat % 8
      if ← wholeBytes addr ruleAddr 0 full then
        if remBits = 0 then .ok true
        else
          let mask := UInt8.ofNat (0xFF <<< (8 - remBits))
          let x ← u8.read addr full
          let y ← u8.read ruleAddr full
          return x &&& mask == y &&& mask
      else .ok false

/-- The prefixes an address of the family has. -/
def PrefixFits (family : UInt32) (bits : UInt8) : Prop :=
  family = afInet ∧ bits ≤ 32 ∨ family = afInet6 ∧ bits ≤ 128

instance (family : UInt32) (bits : UInt8) : Decidable (PrefixFits family bits) :=
  inferInstanceAs (Decidable (_ ∨ _))

variable {addr ruleAddr : Addr} {mem mem' : List UInt8} {bits short : UInt8} {family : UInt32}
  {width i n : ℕ}

theorem prefixFits_iff : PrefixFits family bits ↔
    ∃ width, addrWidth family = some width ∧ bits.toNat ≤ width * 8 := by
  have h32 : bits ≤ 32 ↔ bits.toNat ≤ 4 * 8 := UInt8.le_iff_toNat_le
  have h128 : bits ≤ 128 ↔ bits.toNat ≤ 16 * 8 := UInt8.le_iff_toNat_le
  rw [PrefixFits, h32, h128, addrWidth]
  have hne : afInet6 ≠ afInet := by decide
  by_cases h4 : family = afInet
  · subst h4
    simp [hne.symm]
  · by_cases h6 : family = afInet6
    · subst h6
      simp [hne]
    · simp [h4, h6]

/-- A shorter prefix fits as well. -/
theorem PrefixFits.mono (h : PrefixFits family bits) (hs : short ≤ bits) :
    PrefixFits family short :=
  h.imp (And.imp_right (UInt8.le_trans hs)) (And.imp_right (UInt8.le_trans hs))

/-! ### The bits compared -/

theorem pkAddrMatch_eq (h : addrWidth family = some width) (hle : bits.toNat ≤ width * 8) :
    pkAddrMatch addr ruleAddr bits family = true ↔
      (∀ i < bits.toNat / 8, addr.byte i = ruleAddr.byte i) ∧
        addr.byte (bits.toNat / 8) &&& highMask (bits.toNat % 8) =
          ruleAddr.byte (bits.toNat / 8) &&& highMask (bits.toNat % 8) := by
  have hmask : highMask 0 = 0 := rfl
  simp only [pkAddrMatch, h, if_neg (Nat.not_lt.mpr hle)]
  by_cases h0 : bits = 0
  · subst h0
    simp [hmask]
  rw [if_neg h0]
  by_cases hrem : bits.toNat % 8 = 0
  · simp [hrem, hmask]
  · simp [hrem, highMask]

/-- The addresses match if the family has the prefix and its bits are equal. -/
theorem pkAddrMatch_iff : pkAddrMatch addr ruleAddr bits family = true ↔
    PrefixFits family bits ∧ SamePrefix bits.toNat addr.byte ruleAddr.byte := by
  rw [prefixFits_iff, samePrefix_iff]
  cases hw : addrWidth family with
  | none => simp [pkAddrMatch, hw]
  | some width =>
    by_cases hle : bits.toNat ≤ width * 8
    · rw [pkAddrMatch_eq hw hle]
      simp [hle]
    · simp [pkAddrMatch, hw, hle, Nat.lt_of_not_le hle]

/-! ### The bytes read -/

theorem read_u8 (h : i < mem.length) : (u8.read mem i : Outcome Empty UInt8) = .ok mem[i] := by
  have hdrop : (mem.drop i).take 1 = [mem[i]] := by
    rw [List.drop_eq_getElem_cons h]
    rfl
  rw [read_eq_ok_iff]
  refine ⟨h, hdrop.trans ?_⟩
  simp [u8, word, toLE]

theorem wholeBytes_eq (h : i + n ≤ mem.length) (h' : i + n ≤ mem'.length) :
    wholeBytes mem mem' i n =
      .ok (decide (∀ j < n, mem[i + j]?.getD 0 = mem'[i + j]?.getD 0)) := by
  induction n generalizing i with
  | zero => simp [wholeBytes]
  | succ n ih =>
    have hi : i < mem.length := by omega
    have hi' : i < mem'.length := by omega
    rw [wholeBytes, read_u8 hi, Outcome.ok_bind, read_u8 hi', Outcome.ok_bind,
      ih (by omega) (by omega)]
    have hall : (∀ j < n + 1, mem[i + j]?.getD 0 = mem'[i + j]?.getD 0) ↔
        mem[i] = mem'[i] ∧ ∀ j < n, mem[i + 1 + j]?.getD 0 = mem'[i + 1 + j]?.getD 0 := by
      rw [Nat.forall_lt_succ_left']
      simp [hi, hi', Nat.add_assoc, Nat.add_comm 1]
    by_cases he : mem[i] = mem'[i]
    · rw [if_neg (not_not.mpr he)]
      simp only [hall, he, true_and]
    · rw [if_pos he, decide_eq_false fun h => he (hall.mp h).1]

/-- The bytes an address of the family has; none if the family is unknown. -/
def familyWidth (family : UInt32) : ℕ := (addrWidth family).getD 0

theorem getElem?_take_append {rest : List UInt8} (h : width ≤ 16) (hi : i < width) :
    (addr.toList.take width ++ rest)[i]? = some (addr.byte i) := by
  have hlen : (addr.toList.take width).length = width := by
    rw [List.length_take, Vector.length_toList]
    exact min_eq_left h
  have hget : addr.toList[i]? = addr[i]? := Vector.getElem?_toList
  rw [List.getElem?_append_left (hlen.symm ▸ hi), List.getElem?_take_of_lt hi, hget, Addr.byte,
    Vector.getElem?_eq_getElem (hi.trans_le h), Option.getD_some]

theorem le_length_take_append {rest : List UInt8} (h : width ≤ 16) :
    width ≤ (addr.toList.take width ++ rest).length := by
  rw [List.length_append, List.length_take, Vector.length_toList]
  omega

theorem read_take_append {rest : List UInt8} (h : width ≤ 16) (hi : i < width) :
    (u8.read (addr.toList.take width ++ rest) i : Outcome Empty UInt8) = .ok (addr.byte i) := by
  have hlt := hi.trans_le (@le_length_take_append addr width rest h)
  have hget := @getElem?_take_append addr width i rest h hi
  rw [List.getElem?_eq_getElem hlt] at hget
  rw [read_u8 hlt, Option.some_inj.mp hget]

/-- It reads no byte behind the width of the family: the memory may end there, and what follows
does not matter. -/
theorem pkAddrMatchAt_eq (rest rest' : List UInt8) :
    pkAddrMatchAt (addr.toList.take (familyWidth family) ++ rest)
      (ruleAddr.toList.take (familyWidth family) ++ rest') bits family =
        .ok (pkAddrMatch addr ruleAddr bits family) := by
  cases hw : addrWidth family with
  | none => simp [pkAddrMatchAt, pkAddrMatch, hw]
  | some width =>
    have hmax : width ≤ 16 := by
      rw [addrWidth] at hw
      split_ifs at hw <;> cases hw <;> decide
    have hwidth : familyWidth family = width := by rw [familyWidth, hw, Option.getD_some]
    rw [hwidth]
    simp only [pkAddrMatchAt, pkAddrMatch, hw]
    by_cases hlt : width * 8 < bits.toNat
    · rw [if_pos hlt, if_pos hlt]
    rw [if_neg hlt, if_neg hlt]
    by_cases h0 : bits = 0
    · rw [if_pos h0, if_pos h0]
    rw [if_neg h0, if_neg h0]
    have hfull : bits.toNat / 8 ≤ width := by omega
    have hall : (∀ j < bits.toNat / 8,
        (addr.toList.take width ++ rest)[0 + j]?.getD 0 =
          (ruleAddr.toList.take width ++ rest')[0 + j]?.getD 0) ↔
        ∀ j < bits.toNat / 8, addr.byte j = ruleAddr.byte j := by
      refine forall₂_congr fun j hj => ?_
      have hj := hj.trans_le hfull
      rw [Nat.zero_add, getElem?_take_append hmax hj, getElem?_take_append hmax hj,
        Option.getD_some, Option.getD_some]
    have hlen := hfull.trans (@le_length_take_append addr width rest hmax)
    have hlen' := hfull.trans (@le_length_take_append ruleAddr width rest' hmax)
    rw [← Nat.zero_add (bits.toNat / 8)] at hlen hlen'
    rw [wholeBytes_eq hlen hlen', Outcome.ok_bind]
    have hrange : ((List.range (bits.toNat / 8)).all fun i => addr.byte i == ruleAddr.byte i) =
        true ↔ ∀ j < bits.toNat / 8, addr.byte j = ruleAddr.byte j := by simp
    by_cases hbytes : ∀ j < bits.toNat / 8, addr.byte j = ruleAddr.byte j
    · rw [decide_eq_true (hall.mpr hbytes), if_pos rfl]
      by_cases hrem : bits.toNat % 8 = 0
      · simp only [if_pos hrem, if_pos (hrange.mpr hbytes)]
      · have hlast : bits.toNat / 8 < width := by omega
        rw [if_neg hrem, read_take_append hmax hlast, Outcome.ok_bind,
          read_take_append hmax hlast, Outcome.ok_bind, Outcome.pure_eq]
        simp only [if_neg hrem, if_pos (hrange.mpr hbytes)]
    · rw [decide_eq_false (mt hall.mp hbytes), if_neg Bool.false_ne_true]
      simp only [if_neg (mt hrange.mp hbytes)]

/-! ### The relation -/

/-- The addresses match just when the family has the prefix and every bit of it is equal; no byte
behind the width of the family is read; at a prefix that the family has this is an equivalence,
and a match at a prefix is one at every shorter prefix. -/
theorem pkAddrMatch_spec :
    (∀ (addr ruleAddr : Addr) (bits : UInt8) (family : UInt32),
      pkAddrMatch addr ruleAddr bits family = true ↔
        (family = afInet ∧ bits ≤ 32 ∨ family = afInet6 ∧ bits ≤ 128) ∧
          ∀ i < bits.toNat, bit addr.byte i = bit ruleAddr.byte i) ∧
    (∀ (addr ruleAddr : Addr) (bits : UInt8) (family : UInt32) (rest rest' : List UInt8),
      pkAddrMatchAt (addr.toList.take (familyWidth family) ++ rest)
        (ruleAddr.toList.take (familyWidth family) ++ rest') bits family =
          .ok (pkAddrMatch addr ruleAddr bits family)) ∧
    (∀ (bits : UInt8) (family : UInt32),
      Equivalence (fun addr ruleAddr : Addr => pkAddrMatch addr ruleAddr bits family = true) ↔
        PrefixFits family bits) ∧
    ∀ (addr ruleAddr : Addr) (bits short : UInt8) (family : UInt32), short ≤ bits →
      pkAddrMatch addr ruleAddr bits family = true →
        pkAddrMatch addr ruleAddr short family = true := by
  refine ⟨fun _ _ _ _ => pkAddrMatch_iff, fun _ _ _ _ => pkAddrMatchAt_eq, ?_, ?_⟩
  · intro bits family
    constructor
    · intro h
      exact (pkAddrMatch_iff.mp (h.refl (.replicate 16 0))).1
    · intro hfits
      have hprefix := samePrefix_equivalence bits.toNat
      simp only [pkAddrMatch_iff, hfits, true_and]
      exact ⟨fun addr => hprefix.refl _, hprefix.symm, hprefix.trans⟩
  · intro addr ruleAddr bits short family hs h
    obtain ⟨hfits, hbits⟩ := pkAddrMatch_iff.mp h
    exact pkAddrMatch_iff.mpr ⟨hfits.mono hs, hbits.mono (UInt8.le_iff_toNat_le.mp hs)⟩

/-- No address matches itself at a prefix that its family does not have. -/
theorem pkAddrMatch_not_reflexive :
    ¬ Equivalence fun addr ruleAddr : Addr => pkAddrMatch addr ruleAddr 33 afInet = true := by
  intro h
  have hself : pkAddrMatch (.replicate 16 0) (.replicate 16 0) 33 afInet = false := by decide
  exact absurd (hself.symm.trans (h.refl _)) (by decide)

end Sentinel
