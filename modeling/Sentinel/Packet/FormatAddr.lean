import Sentinel.General.Text
import Sentinel.Packet.AddrMatch

/-! `SkPkFormatAddr` of `packet/packet_helpers.c`: the text of an address in a buffer. -/
namespace Sentinel

open Bytes TwoRuns Codec Text

/-- The loop of `skPkDecimalDigits`. -/
def countDigits (n v : UInt32) : UInt32 :=
  if h : 10 ≤ v then countDigits (n + 1) (v / 10) else n
termination_by v.toNat
decreasing_by
  rw [UInt32.le_iff_toNat_le] at h
  rw [UInt32.toNat_div]
  exact Nat.div_lt_self (Nat.lt_of_lt_of_le (by decide) h) (by decide)

/-- `skPkDecimalDigits`. -/
def pkDecimalDigits (v : UInt32) : UInt32 := countDigits 1 v

/-- The digits of `skPkPutDec`, the lowest first, in the room that is left in `tmp`; a digit past
its end is a fault. -/
def collectDigits : ℕ → UInt32 → Outcome Empty (List UInt8)
  | 0, v => if v = 0 then .ok [] else .fault
  | room + 1, v =>
    if v = 0 then .ok []
    else do
      let rest ← collectDigits room (v / 10)
      return ('0'.val + v % 10).toUInt8 :: rest

/-- `skPkPutDec`. -/
def pkPutDec (p : Pen) (stop : ℕ) (v : UInt32) : Outcome Empty Pen := do
  let tmp ← collectDigits 10 v
  let tmp := if tmp = [] then ['0'.toUInt8] else tmp
  p.putWhile stop .ok tmp.reverse

/-- `hex` in `skPkPutHex4`. -/
def hexDigits : List UInt8 := "0123456789abcdef".toList.map Char.toUInt8

/-- `skPkPutHex4`. -/
def pkPutHex4 (p : Pen) (stop : ℕ) (v : UInt32) : Outcome Empty Pen :=
  p.putWhile stop (fun shift => u8.read hexDigits ((v >>> shift) &&& 0xF).toNat)
    [(12 : UInt32), 8, 4, 0]

/-- The separator in front of all groups but the first; the number is `need`. -/
def putSeparator (sep : Char) (stop i : ℕ) (out : Pen × UInt32) : Outcome Empty (Pen × UInt32) :=
  if i ≠ 0 then do
    let p ← out.1.put stop sep.toUInt8
    return (p, out.2 + 1)
  else return out

/-- One turn of the loop over an IPv4 address. -/
def formatByte (addr : List UInt8) (stop : ℕ) (out : Pen × UInt32) (i : ℕ) :
    Outcome Empty (Pen × UInt32) := do
  let out ← putSeparator '.' stop i out
  let x ← u8.read addr i
  let p ← pkPutDec out.1 stop x.toUInt32
  return (p, out.2 + pkDecimalDigits x.toUInt32)

/-- One turn of the loop over an IPv6 address. -/
def formatGroup (addr : List UInt8) (stop : ℕ) (out : Pen × UInt32) (i : ℕ) :
    Outcome Empty (Pen × UInt32) := do
  let out ← putSeparator ':' stop i out
  let x ← u8.read addr i
  let y ← u8.read addr (i + 1)
  let p ← pkPutHex4 out.1 stop ((x.toUInt32 <<< 8) ||| y.toUInt32)
  return (p, out.2 + 4)

/-- `SkPkFormatAddr` up to the NUL: by the family, with `need`. -/
def formatText (addr : List UInt8) (family : UInt32) (stop : ℕ) (p : Pen) :
    Outcome Empty (Pen × UInt32) :=
  if family = afInet then (List.range' 0 4).foldlM (formatByte addr stop) (p, 0)
  else if family = afInet6 then
    -- `i` goes up by two
    (List.range' 0 8).foldlM (fun out k => formatGroup addr stop out (2 * k)) (p, 0)
  else do
    let p ← p.put stop '?'.toUInt8
    return (p, 1)

/-- `SkPkFormatAddr` with a buffer at `buf`: what it returns, and the memory afterwards. -/
def pkFormatAddr (addr : List UInt8) (family : UInt32) (mem : List UInt8) (buf : ℕ)
    (bufSize : UInt32) : Outcome Empty (UInt32 × List UInt8) :=
  if bufSize = 0 then .ok (0, mem)
  else do
    let stop := buf + bufSize.toNat - 1
    let out ← formatText addr family stop ⟨mem, buf⟩
    let mem ← out.1.store 0
    return (out.2, mem)

/-! ### The text -/

/-- A byte in decimal. -/
def byteText (addr : List UInt8) (i : ℕ) : List Char := Nat.toDigits 10 (addr.getD i 0).toNat

/-- Two bytes as four hexadecimal digits. -/
def groupText (addr : List UInt8) (i : ℕ) : List Char :=
  padded 16 4 ((addr.getD i 0).toNat * 256 + (addr.getD (i + 1) 0).toNat)

/-- The full text of an address. -/
def addrText (addr : List UInt8) (family : UInt32) : List Char :=
  if family = afInet then joined '.' (byteText addr) 4
  else if family = afInet6 then joined ':' (fun k => groupText addr (2 * k)) 8
  else ['?']

variable {addr mem : List UInt8} {text : List Char} {out : Pen × UInt32} {p : Pen} {sep : Char}
  {buf stop i k room : ℕ} {v n : UInt32} {x y : UInt8} {family bufSize : UInt32}

/-! ### Digits -/

theorem toNat_div_ten : (v / 10).toNat = v.toNat / 10 := UInt32.toNat_div v 10

theorem countDigits_eq :
    countDigits n v + 1 = n + UInt32.ofNat (Nat.toDigits 10 v.toNat).length := by
  induction hv : v.toNat using Nat.strong_induction_on generalizing n v with
  | _ m ih =>
    subst hv
    rw [countDigits]
    split
    · rename_i hten
      have hten : 10 ≤ v.toNat := UInt32.le_iff_toNat_le.mp hten
      have hlt : (v / 10).toNat < v.toNat := by
        rw [toNat_div_ten]
        omega
      rw [ih _ hlt rfl, toNat_div_ten, Nat.toDigits_of_base_le (by decide) hten,
        List.length_append, List.length_singleton, UInt32.ofNat_add, UInt32.add_assoc,
        UInt32.add_comm 1]
      rfl
    · rename_i hten
      have hten : v.toNat < 10 := by
        rw [UInt32.le_iff_toNat_le] at hten
        exact Nat.lt_of_not_le hten
      rw [Nat.toDigits_of_lt_base hten]
      rfl

/-- The digits are counted as they are written. -/
theorem pkDecimalDigits_eq :
    pkDecimalDigits v = UInt32.ofNat (Nat.toDigits 10 v.toNat).length := by
  have hcount := @countDigits_eq v 1
  rw [UInt32.add_comm 1] at hcount
  exact (UInt32.add_left_inj 1).mp hcount

theorem digitChar_val {d : ℕ} (h : d < 10) : (Nat.digitChar d).val = '0'.val + UInt32.ofNat d := by
  interval_cases d <;> rfl

/-- `tmp` holds the digits of every number that it has room for. -/
theorem collectDigits_eq (h : v.toNat < 10 ^ room) : collectDigits room v =
    .ok (if v = 0 then [] else ((Nat.toDigits 10 v.toNat).map Char.toUInt8).reverse) := by
  induction room generalizing v with
  | zero =>
    have hv : v = 0 := UInt32.toNat_inj.mp (Nat.lt_one_iff.mp h)
    rw [hv]
    rfl
  | succ room ih =>
    rw [collectDigits]
    split
    · rfl
    · rename_i hv
      have hmod : v % 10 = UInt32.ofNat (v.toNat % 10) := by
        rw [UInt32.ofNat_mod v.toNat_lt (by decide), UInt32.ofNat_toNat]
        rfl
      have hlow : ('0'.val + v % 10).toUInt8 = (Nat.digitChar (v.toNat % 10)).toUInt8 := by
        rw [hmod, ← digitChar_val (Nat.mod_lt _ (by decide))]
        rfl
      have hdiv : (v / 10).toNat < 10 ^ room := by
        rw [toNat_div_ten]
        rw [pow_succ] at h
        omega
      rw [ih hdiv, Outcome.ok_bind, Outcome.pure_eq, hlow]
      by_cases hten : v.toNat < 10
      · have hz : v / 10 = 0 := by
          apply UInt32.toNat_inj.mp
          rw [toNat_div_ten]
          exact Nat.div_eq_of_lt hten
        rw [if_pos hz, Nat.toDigits_of_lt_base hten, Nat.mod_eq_of_lt hten]
        rfl
      · have hz : v / 10 ≠ 0 := by
          intro h0
          have hnat := congrArg UInt32.toNat h0
          rw [toNat_div_ten] at hnat
          have hzero : (0 : UInt32).toNat = 0 := rfl
          omega
        rw [if_neg hz, toNat_div_ten, Nat.toDigits_of_base_le (by decide) (Nat.le_of_not_lt hten)]
        simp

/-- The digits, the highest first; one zero if there are none. -/
theorem pkPutDec_eq :
    pkPutDec p stop v = p.putWhile stop .ok ((Nat.toDigits 10 v.toNat).map Char.toUInt8) := by
  have hroom : v.toNat < 10 ^ 10 := v.toNat_lt.trans (by decide)
  rw [pkPutDec, collectDigits_eq hroom, Outcome.ok_bind]
  by_cases hv : v = 0
  · subst hv
    rfl
  · simp [hv]

theorem pkPutDec_wrote {t : List UInt8} (h : Wrote mem buf stop t p) (hend : stop < mem.length) :
    (pkPutDec p stop v).Returns
      (Wrote mem buf stop (t ++ (Nat.toDigits 10 v.toNat).map Char.toUInt8)) := by
  have hput := @Wrote.putWhile _ Empty mem t buf stop p .ok id
    ((Nat.toDigits 10 v.toNat).map Char.toUInt8) h hend (fun _ _ => rfl)
  rw [pkPutDec_eq]
  rwa [List.map_id] at hput

/-! ### Hexadecimal groups -/

theorem read_hexDigits {d : ℕ} (h : d < 16) :
    (u8.read hexDigits d : Outcome Empty UInt8) = .ok (Nat.digitChar d).toUInt8 := by
  have hlen : hexDigits.length = 16 := rfl
  have hget : ∀ d : Fin 16, hexDigits[d.val]? = some (Nat.digitChar d).toUInt8 := by decide
  have hd : hexDigits[d]? = some (Nat.digitChar d).toUInt8 := hget ⟨d, h⟩
  rw [read_u8 (hlen ▸ h)]
  rw [List.getElem?_eq_getElem (hlen ▸ h)] at hd
  rw [Option.some_inj.mp hd]

/-- Four bits of the group. -/
theorem toNat_nibble {shift : UInt32} (h : shift.toNat < 32) :
    ((v >>> shift) &&& 0xF).toNat = v.toNat / 2 ^ shift.toNat % 16 := by
  have hmask : (0xF : UInt32).toNat = 2 ^ 4 - 1 := rfl
  rw [UInt32.toNat_and, hmask, Nat.and_two_pow_sub_one_eq_mod, UInt32.toNat_shiftRight,
    Nat.mod_eq_of_lt h, Nat.shiftRight_eq_div_pow]

theorem pkPutHex4_wrote {t : List UInt8} (h : Wrote mem buf stop t p) (hend : stop < mem.length)
    (hv : v.toNat < 16 ^ 4) :
    (pkPutHex4 p stop v).Returns
      (Wrote mem buf stop (t ++ (padded 16 4 v.toNat).map Char.toUInt8)) := by
  have hread : ∀ shift ∈ [(12 : UInt32), 8, 4, 0],
      (u8.read hexDigits ((v >>> shift) &&& 0xF).toNat : Outcome Empty UInt8) =
        .ok (Nat.digitChar (v.toNat / 2 ^ shift.toNat % 16)).toUInt8 := by
    intro shift hs
    have hlt : shift.toNat < 32 := by
      simp only [List.mem_cons, List.not_mem_nil, or_false] at hs
      rcases hs with rfl | rfl | rfl | rfl <;> decide
    rw [toNat_nibble hlt, read_hexDigits (Nat.mod_lt _ (by decide))]
  have hdigits : (padded 16 4 v.toNat).map Char.toUInt8 = [(12 : UInt32), 8, 4, 0].map
      fun shift => (Nat.digitChar (v.toNat / 2 ^ shift.toNat % 16)).toUInt8 := by
    have hlast : v.toNat / 16 / 16 / 16 < 16 := by omega
    have hmod : v.toNat / 4096 % 16 = v.toNat / 4096 := Nat.mod_eq_of_lt (by omega)
    rw [padded_succ (by decide) (by decide), padded_succ (by decide) (by decide),
      padded_succ (by decide) (by decide), padded_one hlast]
    simp [Nat.div_div_eq_div_mul, hmod]
  rw [hdigits]
  exact h.putWhile hend hread

/-- Two bytes as a group, the higher first. -/
theorem toNat_group : ((x.toUInt32 <<< 8) ||| y.toUInt32).toNat = x.toNat * 256 + y.toNat := by
  have hx := x.toNat_lt
  have hshift : x.toUInt32.toNat <<< ((8 : UInt32).toNat % 32) % 2 ^ 32 = x.toNat <<< 8 := by
    have h8 : (8 : UInt32).toNat % 32 = 8 := rfl
    rw [UInt8.toNat_toUInt32, h8, Nat.shiftLeft_eq]
    exact Nat.mod_eq_of_lt (by omega)
  rw [UInt32.toNat_or, UInt32.toNat_shiftLeft, hshift, UInt8.toNat_toUInt32,
    ← Nat.shiftLeft_add_eq_or_of_lt y.toNat_lt, Nat.shiftLeft_eq]

/-! ### The loops -/

/-- The text so far stands in the buffer, as far as there is room, and all of it is counted. -/
structure Formatted (mem : List UInt8) (buf stop : ℕ) (text : List Char) (out : Pen × UInt32) :
    Prop where
  wrote : Wrote mem buf stop (text.map Char.toUInt8) out.1
  need : out.2 = UInt32.ofNat text.length

theorem Formatted.append {piece : List Char} (h : Formatted mem buf stop text out)
    (hp : Wrote mem buf stop (text.map Char.toUInt8 ++ piece.map Char.toUInt8) p) :
    Formatted mem buf stop (text ++ piece) (p, out.2 + UInt32.ofNat piece.length) := by
  constructor
  · rw [List.map_append]
    exact hp
  · rw [List.length_append, UInt32.ofNat_add, h.need]

theorem putSeparator_formatted (h : Formatted mem buf stop text out) (hend : stop < mem.length) :
    (putSeparator sep stop i out).Returns
      (Formatted mem buf stop (text ++ if i = 0 then [] else [sep])) := by
  rw [putSeparator]
  by_cases hi : i = 0
  · rw [if_neg (not_not.mpr hi), if_pos hi, List.append_nil]
    exact .of_ok h
  · rw [if_pos hi, if_neg hi]
    exact (h.wrote.put hend).bind fun p hp => .of_ok (h.append hp)

theorem getD_of_lt (hi : i < addr.length) : addr.getD i 0 = addr[i] := by
  rw [List.getD_eq_getElem?_getD, List.getElem?_eq_getElem hi, Option.getD_some]

theorem formatByte_formatted (hi : i < addr.length) (hend : stop < mem.length)
    (h : Formatted mem buf stop (joined '.' (byteText addr) i) out) :
    (formatByte addr stop out i).Returns
      (Formatted mem buf stop (joined '.' (byteText addr) (i + 1))) := by
  have hbyte : byteText addr i = Nat.toDigits 10 addr[i].toUInt32.toNat := by
    rw [byteText, getD_of_lt hi, UInt8.toNat_toUInt32]
  rw [formatByte, joined_succ, ← List.append_assoc, hbyte]
  refine (putSeparator_formatted h hend).bind fun out hout => ?_
  rw [read_u8 hi, Outcome.ok_bind, pkDecimalDigits_eq]
  exact (pkPutDec_wrote hout.wrote hend).bind fun p hp => .of_ok (hout.append hp)

theorem formatGroup_formatted (hk : 2 * k + 1 < addr.length) (hend : stop < mem.length)
    (h : Formatted mem buf stop (joined ':' (fun k => groupText addr (2 * k)) k) out) :
    (formatGroup addr stop out (2 * k)).Returns
      (Formatted mem buf stop (joined ':' (fun k => groupText addr (2 * k)) (k + 1))) := by
  have hk' : 2 * k < addr.length := by omega
  let v := (addr[2 * k].toUInt32 <<< 8) ||| addr[2 * k + 1].toUInt32
  have hgroup : groupText addr (2 * k) = padded 16 4 v.toNat := by
    rw [groupText, getD_of_lt hk', getD_of_lt hk, toNat_group]
  have hv : v.toNat < 16 ^ 4 := by
    have hx := addr[2 * k].toNat_lt
    have hy := addr[2 * k + 1].toNat_lt
    rw [toNat_group]
    omega
  have hfour : (4 : UInt32) = UInt32.ofNat (padded 16 4 v.toNat).length := by
    rw [length_padded (by decide) (by decide) hv]
    rfl
  have hsep := @putSeparator_formatted mem _ out ':' buf stop (2 * k) h hend
  simp only [Nat.mul_eq_zero, OfNat.ofNat_ne_zero, false_or] at hsep
  rw [formatGroup, joined_succ, ← List.append_assoc, hgroup]
  refine hsep.bind fun out hout => ?_
  rw [read_u8 hk', Outcome.ok_bind, read_u8 hk, Outcome.ok_bind, hfour]
  exact (pkPutHex4_wrote hout.wrote hend hv).bind fun p hp => .of_ok (hout.append hp)

/-! ### The whole -/

theorem formatText_formatted (haddr : familyWidth family ≤ addr.length) (hend : stop < mem.length) :
    (formatText addr family stop ⟨mem, buf⟩).Returns
      (Formatted mem buf stop (addrText addr family)) := by
  have hstart : Formatted mem buf stop [] (⟨mem, buf⟩, 0) := ⟨.nil, rfl⟩
  rw [formatText, addrText]
  rw [familyWidth, addrWidth] at haddr
  split_ifs at haddr ⊢
  · exact @Outcome.Returns.loop _ _ _ (formatByte addr stop)
      (fun i => Formatted mem buf stop (joined '.' (byteText addr) i)) 0 4 hstart
      fun i out _ hi hout => formatByte_formatted (hi.trans_le haddr) hend hout
  · have hlen : 16 ≤ addr.length := haddr
    exact @Outcome.Returns.loop _ _ _ (fun out k => formatGroup addr stop out (2 * k))
      (fun k => Formatted mem buf stop (joined ':' (fun k => groupText addr (2 * k)) k)) 0 8 hstart
      fun k out _ hk hout => formatGroup_formatted (by omega) hend hout
  · refine (hstart.wrote.put hend).bind fun p hp => .of_ok ?_
    exact hstart.append hp

theorem length_addrText_lt : (addrText addr family).length < 2 ^ 32 := by
  rw [addrText]
  split_ifs
  · have hbyte : ∀ i < 4, (byteText addr i).length ≤ 3 := by
      intro i _
      rw [byteText, Nat.length_toDigits_le_iff (by decide) (by decide)]
      exact (UInt8.toNat_lt _).trans (by decide)
    exact (length_joined_le hbyte).trans_lt (by decide)
  · have hgroup : ∀ k < 8, (groupText addr (2 * k)).length ≤ 4 := by
      intro k _
      have hx := (addr.getD (2 * k) 0).toNat_lt
      have hy := (addr.getD (2 * k + 1) 0).toNat_lt
      rw [groupText, length_padded (by decide) (by decide) (by omega)]
    exact (length_joined_le hgroup).trans_lt (by decide)
  · decide

theorem digitChar_ne_nul {d : ℕ} (h : d < 16) : (Nat.digitChar d).toUInt8 ≠ 0 := by
  interval_cases d <;> decide

/-- No NUL in the text. -/
theorem zero_notMem_addrText : 0 ∉ (addrText addr family).map Char.toUInt8 := by
  intro h
  obtain ⟨c, hc, h0⟩ := List.mem_map.mp h
  have hdigit : ∀ d < 16, c ≠ Nat.digitChar d := by
    rintro d hd rfl
    exact digitChar_ne_nul hd h0
  rw [addrText] at hc
  split_ifs at hc
  · rcases mem_joined hc with rfl | ⟨i, -, hc⟩
    · exact absurd h0 (by decide)
    · obtain ⟨d, hd, he⟩ := mem_toDigits (by decide) hc
      exact hdigit d (by omega) he
  · rcases mem_joined hc with rfl | ⟨k, -, hc⟩
    · exact absurd h0 (by decide)
    · obtain ⟨d, hd, he⟩ := mem_padded (by decide) hc
      exact hdigit d hd he
  · rw [List.mem_singleton.mp hc] at h0
    exact absurd h0 (by decide)

/-- The buffer gets as much of the text as there is room for, and a NUL. -/
theorem pkFormatAddr_eq (haddr : familyWidth family ≤ addr.length) (hsize : 1 ≤ bufSize)
    (hbuf : buf + bufSize.toNat ≤ mem.length) :
    pkFormatAddr addr family mem buf bufSize = .ok (UInt32.ofNat (addrText addr family).length,
      splice mem buf
        (((addrText addr family).map Char.toUInt8).take (bufSize.toNat - 1) ++ [0])) := by
  have hpos : 1 ≤ bufSize.toNat := UInt32.le_iff_toNat_le.mp hsize
  have hne : bufSize ≠ 0 := by
    rintro rfl
    exact absurd hpos (by decide)
  have hend : buf + bufSize.toNat - 1 < mem.length := by omega
  have hroom : buf + bufSize.toNat - 1 - buf = bufSize.toNat - 1 := by omega
  obtain ⟨out, hout, htext⟩ := @formatText_formatted addr mem buf _ family haddr hend
  have hstore := @Wrote.store Empty _ _ _ _ 0 _ htext.wrote hend (by omega)
  rw [hroom] at hstore
  rw [pkFormatAddr, if_neg hne]
  simp only [hout, Outcome.ok_bind, hstore, htext.need, Outcome.pure_eq]

/-- For every address of its family and every buffer that is not empty: no byte outside of the
buffer changes, the string in it is the text of the address as far as there is room, with a NUL
behind it, and what is returned is the length of the whole text; in decimal only 0 begins with a
zero. -/
theorem pkFormatAddr_spec (haddr : familyWidth family ≤ addr.length) (hsize : 1 ≤ bufSize)
    (hbuf : buf + bufSize.toNat ≤ mem.length) :
    (∃ need mem', pkFormatAddr addr family mem buf bufSize = .ok (need, mem') ∧
      mem'.length = mem.length ∧
      (∀ i, i < buf ∨ buf + bufSize.toNat ≤ i → mem'[i]? = mem[i]?) ∧
      cString mem' buf = ((addrText addr family).map Char.toUInt8).take
        (min (addrText addr family).length (bufSize.toNat - 1)) ∧
      mem'[buf + min (addrText addr family).length (bufSize.toNat - 1)]? = some 0 ∧
      need.toNat = (addrText addr family).length) ∧
    ∀ i, (byteText addr i).head? = some '0' → addr.getD i 0 = 0 := by
  let text := (addrText addr family).map Char.toUInt8
  have hpos : 1 ≤ bufSize.toNat := UInt32.le_iff_toNat_le.mp hsize
  have htake : text.take (bufSize.toNat - 1) =
      text.take (min (addrText addr family).length (bufSize.toNat - 1)) := by
    rw [min_comm, ← List.length_map Char.toUInt8]
    exact List.take_eq_take_min
  have hlen : (text.take (bufSize.toNat - 1)).length =
      min (addrText addr family).length (bufSize.toNat - 1) := by
    rw [List.length_take, List.length_map, min_comm]
  have hfit : buf + (text.take (bufSize.toNat - 1) ++ [0]).length ≤ mem.length := by
    rw [List.length_append, List.length_singleton, hlen]
    omega
  constructor
  · refine ⟨_, _, pkFormatAddr_eq haddr hsize hbuf, length_splice hfit, ?_, ?_, ?_, ?_⟩
    · intro i hi
      apply getElem?_splice_of_ne hfit
      rw [List.length_append, List.length_singleton, hlen]
      omega
    · rw [← htake]
      exact cString_splice hfit fun h0 => zero_notMem_addrText (List.mem_of_mem_take h0)
    · rw [← hlen, getElem?_splice_of_mem hfit (by omega) (by simp), Nat.add_sub_cancel_left]
      exact List.getElem?_concat_length
    · exact UInt32.toNat_ofNat_of_lt' length_addrText_lt
  · intro i hi
    exact UInt8.toNat_inj.mp (head_toDigits (by decide) hi)

/-- `10.0.255.9` in five bytes. -/
theorem pkFormatAddr_spec_truncated : ∃ need mem',
    pkFormatAddr [10, 0, 255, 9] afInet (.replicate 7 0xFF) 1 5 = .ok (need, mem') ∧
      cString mem' 1 = "10.0".toList.map Char.toUInt8 ∧ need.toNat = 10 := by
  obtain ⟨⟨need, mem', hok, -, -, hstring, -, hneed⟩, -⟩ :=
    @pkFormatAddr_spec [10, 0, 255, 9] (.replicate 7 0xFF) 1 afInet 5 (by decide) (by decide)
      (by decide)
  exact ⟨need, mem', hok, hstring, hneed⟩

end Sentinel
