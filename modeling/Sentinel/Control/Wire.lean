import Sentinel.Control.Protocol
import Sentinel.Rules.Match

/-! `skValidateWire` and `skConvertWire`: one rule on the wire. -/
namespace Sentinel

open Bytes Codec

/-- The characters of a path. -/
def readPath (buf : List UInt8) (off : ℕ) : ℕ → Outcome NtStatus (List UInt16)
  | 0 => .ok []
  | n + 1 => do
    let c ← u16.read buf off
    let cs ← readPath buf (off + 2) n
    return c :: cs

/-- `skValidateWire`: the number of bytes of the wire at `cur`. -/
def validateWire (buf : List UInt8) (cur : ℕ) (remaining : UInt32) : Outcome NtStatus UInt32 :=
  if remaining.toNat < ruleWireSize then .error statusInvalidParameter
  else do
    let pathChars ← u32.read buf (cur + pathCharsOffset)
    let pathOffset ← u32.read buf (cur + pathOffsetOffset)
    if rulePathMaxChars < pathChars then .error statusInvalidParameter
    else if pathChars = 0 then
      if pathOffset ≠ 0 then .error statusInvalidParameter
      else .ok (UInt32.ofNat ruleWireSize)
    else if pathOffset.toNat < ruleWireSize then .error statusInvalidParameter
    else if pathOffset % 2 ≠ 0 then .error statusInvalidParameter
    else
      let need : UInt64 := pathOffset.toUInt64 + pathChars.toUInt64 * 2
      if remaining.toUInt64 < need then .error statusInvalidParameter
      else .ok need.toUInt32

/-- The rule that is stored for `r` with an image path: without one the condition is dropped,
whatever the caller has put there. -/
def Rule.withPath (r : Rule) (path : List UInt16) : Rule :=
  if path = [] then { r with appId := 0, mask := r.mask &&& ~~~ruleMAppId }
  else { r with appId := ruleHashAppPath path, mask := r.mask ||| ruleMAppId }

/-- `skConvertWire`. -/
def convertWire (buf : List UInt8) (cur : ℕ) : Outcome NtStatus Rule := do
  let image ← Layout.rule.read buf cur
  let pathChars ← u32.read buf (cur + pathCharsOffset)
  if pathChars = 0 then .ok (image.rule.withPath [])
  else do
    let pathOffset ← u32.read buf (cur + pathOffsetOffset)
    let path ← readPath buf (cur + pathOffset.toNat) pathChars.toNat
    return image.rule.withPath path

variable {buf l : List UInt8} {cur off n : ℕ} {remaining wireBytes : UInt32} {st : NtStatus}
  {r : Rule} {path : List UInt16} {image : RuleImage}

/-! ### Reads stay in the buffer -/

theorem readPath_length (h : readPath buf off n = .ok path) : path.length = n := by
  induction n generalizing off path with
  | zero =>
    cases h
    rfl
  | succ n ih =>
    rw [readPath] at h
    obtain ⟨c, -, h⟩ := Outcome.bind_eq_ok.mp h
    obtain ⟨cs, hcs, h⟩ := Outcome.bind_eq_ok.mp h
    cases h
    rw [List.length_cons, ih hcs]

theorem readPath_of_le (h : off + 2 * n ≤ buf.length) : ∃ path, readPath buf off n = .ok path := by
  induction n generalizing off with
  | zero => exact ⟨[], rfl⟩
  | succ n ih =>
    have hsize : u16.size = 2 := rfl
    obtain ⟨c, hc⟩ : ∃ c, (u16.read buf off : Outcome NtStatus UInt16) = .ok c :=
      read_of_le (by omega)
    obtain ⟨cs, hcs⟩ := ih (show off + 2 + 2 * n ≤ buf.length by omega)
    exact ⟨c :: cs, by rw [readPath, hc, Outcome.ok_bind, hcs, Outcome.ok_bind]; rfl⟩

/-- The end of a path; the sum of 64 bits does not wrap. -/
theorem toNat_need {pathChars pathOffset : UInt32} (h : pathChars ≤ rulePathMaxChars) :
    (pathOffset.toUInt64 + pathChars.toUInt64 * 2).toNat =
      pathOffset.toNat + 2 * pathChars.toNat := by
  have hchars : pathChars.toNat ≤ 260 := UInt32.le_iff_toNat_le.mp h
  have hoff := pathOffset.toNat_lt
  rw [UInt64.toNat_add, UInt64.toNat_mul, UInt32.toNat_toUInt64, UInt32.toNat_toUInt64]
  have htwo : (2 : UInt64).toNat = 2 := rfl
  rw [htwo]
  omega

/-- The ways through `skValidateWire` in a buffer that holds `remaining` bytes. -/
theorem validateWire_cases (h : cur + remaining.toNat ≤ buf.length) :
    validateWire buf cur remaining = .error statusInvalidParameter ∨
    ruleWireSize ≤ remaining.toNat ∧ ∃ pathChars pathOffset,
      (u32.read buf (cur + pathCharsOffset) : Outcome NtStatus UInt32) = .ok pathChars ∧
      (u32.read buf (cur + pathOffsetOffset) : Outcome NtStatus UInt32) = .ok pathOffset ∧
      ((pathChars = 0 ∧ validateWire buf cur remaining = .ok (UInt32.ofNat ruleWireSize)) ∨
      (pathChars ≠ 0 ∧ ruleWireSize ≤ pathOffset.toNat ∧
        pathOffset.toNat + 2 * pathChars.toNat ≤ remaining.toNat ∧
        validateWire buf cur remaining =
          .ok (UInt32.ofNat (pathOffset.toNat + 2 * pathChars.toNat)))) := by
  by_cases hlen : remaining.toNat < ruleWireSize
  · exact .inl (by rw [validateWire, if_pos hlen])
  have hroom : cur + 184 ≤ buf.length := by
    simp only [ruleWireSize] at hlen
    omega
  have hchars : ∃ a, (u32.read buf (cur + pathCharsOffset) : Outcome NtStatus UInt32) = .ok a :=
    read_of_le (le_trans (Nat.add_le_add_left (by decide : 176 + 4 ≤ 184) cur) hroom)
  have hoff : ∃ a, (u32.read buf (cur + pathOffsetOffset) : Outcome NtStatus UInt32) = .ok a :=
    read_of_le (le_trans (Nat.add_le_add_left (by decide : 180 + 4 ≤ 184) cur) hroom)
  obtain ⟨pathChars, hchars⟩ := hchars
  obtain ⟨pathOffset, hoff⟩ := hoff
  have he : validateWire buf cur remaining =
      if rulePathMaxChars < pathChars then .error statusInvalidParameter
      else if pathChars = 0 then
        if pathOffset ≠ 0 then .error statusInvalidParameter
        else .ok (UInt32.ofNat ruleWireSize)
      else if pathOffset.toNat < ruleWireSize then .error statusInvalidParameter
      else if pathOffset % 2 ≠ 0 then .error statusInvalidParameter
      else if remaining.toUInt64 < pathOffset.toUInt64 + pathChars.toUInt64 * 2 then
        .error statusInvalidParameter
      else .ok (pathOffset.toUInt64 + pathChars.toUInt64 * 2).toUInt32 := by
    rw [validateWire, if_neg hlen, hchars, Outcome.ok_bind, hoff, Outcome.ok_bind]
  rw [he]
  by_cases hmax : rulePathMaxChars < pathChars
  · exact .inl (if_pos hmax)
  rw [if_neg hmax]
  by_cases hzero : pathChars = 0
  · rw [if_pos hzero]
    by_cases hnull : pathOffset ≠ 0
    · exact .inl (if_pos hnull)
    · rw [if_neg hnull]
      exact .inr ⟨Nat.le_of_not_lt hlen, pathChars, pathOffset, hchars, hoff, .inl ⟨hzero, rfl⟩⟩
  rw [if_neg hzero]
  by_cases hstart : pathOffset.toNat < ruleWireSize
  · exact .inl (if_pos hstart)
  rw [if_neg hstart]
  by_cases halign : pathOffset % 2 ≠ 0
  · exact .inl (if_pos halign)
  rw [if_neg halign]
  have hneed : (pathOffset.toUInt64 + pathChars.toUInt64 * 2).toNat =
      pathOffset.toNat + 2 * pathChars.toNat := toNat_need (UInt32.not_lt.mp hmax)
  by_cases hend : remaining.toUInt64 < pathOffset.toUInt64 + pathChars.toUInt64 * 2
  · exact .inl (if_pos hend)
  rw [if_neg hend]
  have hle : pathOffset.toNat + 2 * pathChars.toNat ≤ remaining.toNat := by
    rw [← hneed, ← UInt32.toNat_toUInt64 remaining]
    exact UInt64.le_iff_toNat_le.mp (UInt64.not_lt.mp hend)
  refine .inr ⟨Nat.le_of_not_lt hlen, pathChars, pathOffset, hchars, hoff,
    .inr ⟨hzero, Nat.le_of_not_lt hstart, hle, ?_⟩⟩
  rw [← hneed]
  rfl

theorem validateWire_ne_fault (h : cur + remaining.toNat ≤ buf.length) :
    validateWire buf cur remaining ≠ .fault := by
  rcases validateWire_cases h with he | ⟨-, _, _, -, -, ⟨-, he⟩ | ⟨-, -, -, he⟩⟩ <;> rw [he] <;>
    exact nofun

theorem validateWire_error (h : cur + remaining.toNat ≤ buf.length)
    (hv : validateWire buf cur remaining = .error st) : st = statusInvalidParameter := by
  rcases validateWire_cases h with he | ⟨-, _, _, -, -, ⟨-, he⟩ | ⟨-, -, -, he⟩⟩ <;>
    rw [he] at hv <;> cases hv
  rfl

/-- An accepted wire is within the bytes left, and at least a structure long. -/
theorem validateWire_bounds (h : cur + remaining.toNat ≤ buf.length)
    (hv : validateWire buf cur remaining = .ok wireBytes) :
    ruleWireSize ≤ wireBytes.toNat ∧ wireBytes.toNat ≤ remaining.toNat := by
  have hlt := remaining.toNat_lt
  rcases validateWire_cases h with he | ⟨hlen, _, _, -, -, ⟨-, he⟩ | ⟨-, hstart, hle, he⟩⟩ <;>
    rw [he] at hv <;> cases hv
  · exact ⟨le_rfl, hlen⟩
  · rw [UInt32.toNat_ofNat_of_lt' (hle.trans_lt hlt)]
    exact ⟨by omega, hle⟩

/-- What `skValidateWire` accepts can be converted. -/
theorem convertWire_ok (h : cur + remaining.toNat ≤ buf.length)
    (hv : validateWire buf cur remaining = .ok wireBytes) : ∃ r, convertWire buf cur = .ok r := by
  have hsize : Layout.rule.size = 176 := rfl
  rcases validateWire_cases h with he | ⟨hlen, pathChars, pathOffset, hchars, hoff, hc⟩
  · rw [he] at hv
    cases hv
  simp only [ruleWireSize] at hlen
  have himage : ∃ m, (Layout.rule.read buf cur : Outcome NtStatus RuleImage) = .ok m :=
    read_of_le (by omega)
  obtain ⟨m, himage⟩ := himage
  rw [convertWire, himage, Outcome.ok_bind, hchars, Outcome.ok_bind]
  rcases hc with ⟨hzero, -⟩ | ⟨hne, hstart, hle, -⟩
  · exact ⟨_, if_pos hzero⟩
  · rw [if_neg hne, hoff, Outcome.ok_bind]
    obtain ⟨path, hpath⟩ : ∃ path,
        readPath buf (cur + pathOffset.toNat) pathChars.toNat = .ok path :=
      readPath_of_le (by omega)
    exact ⟨m.rule.withPath path, by rw [hpath, Outcome.ok_bind, Outcome.pure_eq]⟩

/-! ### Only the bytes of the wire matter -/

theorem readPath_append_left : readPath (l ++ buf) (l.length + off) n = readPath buf off n := by
  induction n generalizing off with
  | zero => rfl
  | succ n ih => rw [readPath, readPath, read_append_left, Nat.add_assoc, ih]

theorem validateWire_append_left (l buf : List UInt8) (cur : ℕ) (remaining : UInt32) :
    validateWire (l ++ buf) (l.length + cur) remaining = validateWire buf cur remaining := by
  rw [validateWire, validateWire, Nat.add_assoc, Nat.add_assoc, read_append_left,
    read_append_left]

theorem convertWire_append_left (l buf : List UInt8) (cur : ℕ) :
    convertWire (l ++ buf) (l.length + cur) = convertWire buf cur := by
  simp only [convertWire, Nat.add_assoc, read_append_left, readPath_append_left]

/-! ### Encoding -/

def encodePath (path : List UInt16) : List UInt8 := path.flatMap u16.encode

/-- The path comes right after the structure; without one the offset is 0. -/
def pathOffsetOf (path : List UInt16) : UInt32 :=
  if path = [] then 0 else UInt32.ofNat ruleWireSize

/-- A rule on the wire with its path. -/
def encodeWire (w : RuleImage × List UInt16) : List UInt8 :=
  Layout.rule.encode w.1 ++ (u32.encode (UInt32.ofNat w.2.length) ++
    (u32.encode (pathOffsetOf w.2) ++ encodePath w.2))

variable {w : RuleImage × List UInt16} {rest : List UInt8}

theorem length_encodePath : (encodePath path).length = 2 * path.length := by
  induction path with
  | nil => rfl
  | cons c path ih =>
    have hc : (u16.encode c).length = 2 := u16.length_encode c
    rw [encodePath, List.flatMap_cons, List.length_append, ← encodePath, ih, hc, List.length_cons]
    omega

theorem length_encodeWire : (encodeWire w).length = ruleWireSize + 2 * w.2.length := by
  have hrule : (Layout.rule.encode w.1).length = 176 := Layout.rule.length_encode w.1
  have hchars : (u32.encode (UInt32.ofNat w.2.length)).length = 4 := u32.length_encode _
  have hoff : (u32.encode (pathOffsetOf w.2)).length = 4 := u32.length_encode _
  simp only [encodeWire, List.length_append, length_encodePath, hrule, hchars, hoff, ruleWireSize]
  omega

theorem readPath_encode :
    readPath (l ++ (encodePath path ++ rest)) l.length path.length = .ok path := by
  induction path generalizing l with
  | nil => rfl
  | cons c path ih =>
    have hc : (u16.encode c).length = 2 := u16.length_encode c
    have hread : (u16.read (l ++ (encodePath (c :: path) ++ rest)) l.length :
        Outcome NtStatus UInt16) = .ok c := by
      rw [encodePath, List.flatMap_cons, List.append_assoc]
      exact read_append
    have hrest : l ++ (encodePath (c :: path) ++ rest) =
        (l ++ u16.encode c) ++ (encodePath path ++ rest) := by
      simp only [encodePath, List.flatMap_cons, List.append_assoc]
    have hlen : l.length + 2 = (l ++ u16.encode c).length := by rw [List.length_append, hc]
    rw [List.length_cons, readPath, hread, Outcome.ok_bind, hrest, hlen, ih]
    rfl

theorem read_image :
    (Layout.rule.read (encodeWire w ++ rest) 0 : Outcome NtStatus RuleImage) = .ok w.1 := by
  rw [encodeWire, List.append_assoc]
  exact read_append (l := [])

theorem read_pathChars : (u32.read (encodeWire w ++ rest) pathCharsOffset :
    Outcome NtStatus UInt32) = .ok (UInt32.ofNat w.2.length) := by
  have hrule : (Layout.rule.encode w.1).length = pathCharsOffset := Layout.rule.length_encode w.1
  rw [encodeWire, ← hrule, List.append_assoc, List.append_assoc]
  exact read_append

theorem read_pathOffset : (u32.read (encodeWire w ++ rest) pathOffsetOffset :
    Outcome NtStatus UInt32) = .ok (pathOffsetOf w.2) := by
  let front := Layout.rule.encode w.1 ++ u32.encode (UInt32.ofNat w.2.length)
  have hrule : (Layout.rule.encode w.1).length = 176 := Layout.rule.length_encode w.1
  have hchars : (u32.encode (UInt32.ofNat w.2.length)).length = 4 := u32.length_encode _
  have hfront : front.length = pathOffsetOffset := by
    rw [List.length_append, hrule, hchars]
    rfl
  have hbuf : encodeWire w ++ rest =
      front ++ (u32.encode (pathOffsetOf w.2) ++ (encodePath w.2 ++ rest)) := by
    simp only [encodeWire, front, List.append_assoc]
  rw [hbuf, ← hfront]
  exact read_append

theorem readPath_encodeWire : readPath (encodeWire w ++ rest) ruleWireSize w.2.length =
    .ok w.2 := by
  let front := Layout.rule.encode w.1 ++ u32.encode (UInt32.ofNat w.2.length) ++
    u32.encode (pathOffsetOf w.2)
  have hrule : (Layout.rule.encode w.1).length = 176 := Layout.rule.length_encode w.1
  have hchars : (u32.encode (UInt32.ofNat w.2.length)).length = 4 := u32.length_encode _
  have hoff : (u32.encode (pathOffsetOf w.2)).length = 4 := u32.length_encode _
  have hfront : front.length = ruleWireSize := by
    rw [List.length_append, List.length_append, hrule, hchars, hoff]
    rfl
  have hbuf : encodeWire w ++ rest = front ++ (encodePath w.2 ++ rest) := by
    simp only [encodeWire, front, List.append_assoc]
  rw [hbuf, ← hfront]
  exact readPath_encode

/-- The length of a path that is not too long. -/
theorem toNat_length (hmax : path.length ≤ rulePathMaxChars.toNat) :
    (UInt32.ofNat path.length).toNat = path.length := by
  refine UInt32.toNat_ofNat_of_lt' (hmax.trans_lt ?_)
  decide

theorem ofNat_length_eq_zero (hmax : path.length ≤ rulePathMaxChars.toNat) :
    UInt32.ofNat path.length = 0 ↔ path = [] := by
  have hlen := toNat_length hmax
  refine ⟨fun h => ?_, fun h => by rw [h]; rfl⟩
  rw [h] at hlen
  exact List.length_eq_zero_iff.mp hlen.symm

/-- The wire of a rule is accepted as a whole. -/
theorem validateWire_encode (hmax : w.2.length ≤ rulePathMaxChars.toNat)
    (hle : (encodeWire w).length ≤ remaining.toNat) :
    validateWire (encodeWire w ++ rest) 0 remaining =
      .ok (UInt32.ofNat (encodeWire w).length) := by
  have hlen := toNat_length hmax
  rw [length_encodeWire] at hle ⊢
  have hroom : ¬ remaining.toNat < ruleWireSize := by omega
  have hbound : ¬ rulePathMaxChars < UInt32.ofNat w.2.length := by
    rw [UInt32.not_lt, UInt32.le_iff_toNat_le, hlen]
    exact hmax
  rw [validateWire, if_neg hroom, Nat.zero_add, Nat.zero_add, read_pathChars, Outcome.ok_bind,
    read_pathOffset, Outcome.ok_bind, if_neg hbound]
  by_cases hpath : w.2 = []
  · rw [if_pos ((ofNat_length_eq_zero hmax).mpr hpath), hpath]
    rfl
  · have hoff : (pathOffsetOf w.2).toNat = ruleWireSize := by
      rw [pathOffsetOf, if_neg hpath]
      rfl
    have halign : ¬ pathOffsetOf w.2 % 2 ≠ 0 := by
      rw [pathOffsetOf, if_neg hpath]
      decide
    have hneed : ((pathOffsetOf w.2).toUInt64 + (UInt32.ofNat w.2.length).toUInt64 * 2).toNat =
        ruleWireSize + 2 * w.2.length := by
      rw [toNat_need (UInt32.not_lt.mp hbound), hoff, hlen]
    rw [if_neg (fun h => hpath ((ofNat_length_eq_zero hmax).mp h)), if_neg (by omega),
      if_neg halign, if_neg ?_, ← hneed]
    · rfl
    · rw [UInt64.not_lt, UInt64.le_iff_toNat_le, hneed, UInt32.toNat_toUInt64]
      exact hle

theorem convertWire_encode (hmax : w.2.length ≤ rulePathMaxChars.toNat) :
    convertWire (encodeWire w ++ rest) 0 = .ok (w.1.rule.withPath w.2) := by
  have hlen := toNat_length hmax
  rw [convertWire, read_image, Outcome.ok_bind, Nat.zero_add, read_pathChars, Outcome.ok_bind]
  by_cases hpath : w.2 = []
  · rw [if_pos ((ofNat_length_eq_zero hmax).mpr hpath), hpath]
  · have hoff : (pathOffsetOf w.2).toNat = ruleWireSize := by
      rw [pathOffsetOf, if_neg hpath]
      rfl
    rw [if_neg (fun h => hpath ((ofNat_length_eq_zero hmax).mp h)), Nat.zero_add,
      read_pathOffset, Outcome.ok_bind, hoff, hlen, Nat.zero_add, readPath_encodeWire,
      Outcome.ok_bind, Outcome.pure_eq]

end Sentinel
