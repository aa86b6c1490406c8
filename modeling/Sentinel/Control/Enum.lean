import Sentinel.Control.Dispatch

/-! What `skCmdEnumRules` leaves in the output buffer. -/
namespace Sentinel.Control

open Bytes Codec TwoRuns

/-- The rules on the wire; enumeration never replays paths. -/
def enumWires (images : List RuleImage) : List UInt8 := encodeWires (images.map fun m => (m, []))

/-- The output buffer is there, with the length the handler knows. -/
structure Call.Room (c : Call) (b : Buffers) : Prop where
  out : c.out = true
  header : ioctlHeaderSize ≤ b.input.length
  room : c.outLen.toNat ≤ b.out.length

/-- The rules that the two passes see, and that they fit. -/
structure EnumFits (c : Call) (d : Driver) (counted filled : List RuleImage) : Prop where
  view₀ : (d.view 0).images = some counted
  view₁ : (d.view 1).images = some filled
  out : c.out = true
  first : ioctlHeaderSize + enumHeaderSize + counted.length * ruleWireSize ≤ c.outLen.toNat
  second : ioctlHeaderSize + enumHeaderSize + filled.length * ruleWireSize ≤ c.outLen.toNat

variable {c : Call} {d : Driver} {b b' : Buffers} {off cursor : ℕ} {new new' : List UInt8}
  {images counted filled : List RuleImage} {remaining count n total : UInt32}

/-! ### Single writes -/

theorem out_write : (b.write off new).out = splice b.out off new := by
  cases h : b.output <;> simp only [Buffers.write, Buffers.out, h, Option.getD]

theorem write_write (h : off + new.length ≤ b.out.length) :
    (b.write off new).write (off + new.length) new' = b.write off (new ++ new') := by
  cases hb : b.output <;>
    simp only [Buffers.out, hb, Option.getD_none, Option.getD_some] at h <;>
    simp only [Buffers.write, hb, splice_splice h]

theorem write_nil : b.write off [] = b := by
  cases b with
  | mk input output =>
    cases output <;>
      simp only [Buffers.write, splice, List.length_nil, Nat.add_zero, List.nil_append,
        List.take_append_drop]

namespace Call.Room

theorem write (h : c.Room b) (hle : off + new.length ≤ c.outLen.toNat) :
    c.Room (b.write off new) := by
  have hroom := hle.trans h.room
  refine ⟨h.out, ?_, ?_⟩
  · cases hb : b.output with
    | none =>
      rw [Buffers.out, hb, Option.getD_none] at hroom
      simp only [Buffers.write, hb]
      exact h.header.trans (length_splice hroom).ge
    | some l =>
      simp only [Buffers.write, hb]
      exact h.header
  · rw [out_write, length_splice hroom]
    exact h.room

theorem put (h : c.Room b) (hle : off + new.length ≤ c.outLen.toNat) :
    c.put off new b = .ok (b.write off new) := if_pos ⟨h.out, hle⟩

theorem agree (h : c.Room b) (hle : off + new.length ≤ c.outLen.toNat) :
    Agree (fun i => i < off ∨ off + new.length ≤ i) b.out (b.write off new).out :=
  out_write ▸ .of_splice (hle.trans h.room)

/-- A write, with what it leaves alone. -/
theorem put_ok {known : ℕ → Prop} (h : c.Room b) (hle : off + new.length ≤ c.outLen.toNat)
    (hk : ∀ i, known i → i < off ∨ off + new.length ≤ i) :
    ∃ b', c.put off new b = .ok b' ∧ c.Room b' ∧ Agree known b.out b'.out :=
  ⟨_, h.put hle, h.write hle, (h.agree hle).mono hk⟩

/-- The echo of the header changes nothing behind it. -/
theorem echoHeader (h : c.Room b) (hle : ioctlHeaderSize ≤ c.outLen.toNat) :
    ∃ b', echoHeader c b total = .ok b' ∧ c.Room b' ∧
      Agree (ioctlHeaderSize ≤ ·) b.out b'.out := by
  have hput : ∀ {α : Type} (k : Codec α) (a : α) {b off}, c.Room b →
      off + k.size ≤ ioctlHeaderSize → ∃ b', c.put off (k.encode a) b = .ok b' ∧ c.Room b' ∧
        Agree (ioctlHeaderSize ≤ ·) b.out b'.out := by
    intro α k a b off hb hoff
    rw [← k.length_encode a] at hoff
    exact hb.put_ok (hoff.trans hle) fun i hi => .inr (hoff.trans hi)
  have hread : ∀ {α : Type} (k : Codec α) {b off}, c.Room b → off + k.size ≤ ioctlHeaderSize →
      ∃ a, (k.read b.input off : Outcome NtStatus α) = .ok a :=
    fun _ _ _ hb hoff => read_of_le (hoff.trans hb.header)
  obtain ⟨b₁, h₁, hb₁, hk₁⟩ := @hput _ u32 total b hdrSizeOffset h (by decide)
  obtain ⟨b₂, h₂, hb₂, hk₂⟩ := @hput _ u16 ioctlVersion b₁ hdrVersionOffset hb₁ (by decide)
  obtain ⟨command, hc⟩ := @hread _ u16 b₂ hdrCommandOffset hb₂ (by decide)
  obtain ⟨b₃, h₃, hb₃, hk₃⟩ := @hput _ u16 command b₂ hdrCommandOffset hb₂ (by decide)
  obtain ⟨b₄, h₄, hb₄, hk₄⟩ := @hput _ u32 0 b₃ hdrFlagsOffset hb₃ (by decide)
  obtain ⟨requestId, hr⟩ := @hread _ u64 b₄ hdrRequestIdOffset hb₄ (by decide)
  obtain ⟨b₅, h₅, hb₅, hk₅⟩ := @hput _ u64 requestId b₄ hdrRequestIdOffset hb₄ (by decide)
  refine ⟨b₅, ?_, hb₅, hk₁.trans (hk₂.trans (hk₃.trans (hk₄.trans hk₅)))⟩
  rw [Control.echoHeader, h₁, Outcome.ok_bind, h₂, Outcome.ok_bind, hc, Outcome.ok_bind, h₃,
    Outcome.ok_bind, h₄, Outcome.ok_bind, hr, Outcome.ok_bind, h₅]

end Call.Room

/-! ### The two passes -/

theorem enumCount_eq : enumCount images = UInt32.ofNat images.length := by
  have hfold : ∀ n : ℕ, images.foldl (fun m _ => m + 1) (UInt32.ofNat n) =
      UInt32.ofNat (n + images.length) := by
    induction images with
    | nil => exact fun n => rfl
    | cons m images ih =>
      intro n
      have hstep : UInt32.ofNat n + 1 = UInt32.ofNat (n + 1) := (UInt32.ofNat_add n 1).symm
      rw [List.foldl_cons, hstep, ih, List.length_cons, Nat.add_assoc, Nat.add_comm 1]
  rw [enumCount, ← Nat.zero_add images.length]
  exact hfold 0

theorem enumTotal_ofNat : enumTotal (UInt32.ofNat images.length) =
    UInt32.ofNat (ioctlHeaderSize + enumHeaderSize + images.length * ruleWireSize) := by
  rw [enumTotal, ← UInt32.ofNat_mul, ← UInt32.ofNat_add]

/-- The length of a reply with not too many rules. -/
theorem toNat_enumTotal (h : images.length ≤ ruleMax) :
    (enumTotal (UInt32.ofNat images.length)).toNat =
      ioctlHeaderSize + enumHeaderSize + images.length * ruleWireSize := by
  rw [enumTotal_ofNat]
  refine UInt32.toNat_ofNat_of_lt' ?_
  simp only [ioctlHeaderSize, enumHeaderSize, ruleWireSize, ruleMax, UInt32.size] at *
  omega

theorem length_enumWires : (enumWires images).length = images.length * ruleWireSize := by
  induction images with
  | nil => rfl
  | cons m images ih =>
    have hw : (encodeWire (m, [])).length = ruleWireSize := length_encodeWire
    simp only [enumWires, encodeWires, List.map_cons, List.flatMap_cons, List.length_append,
      List.length_cons] at ih ⊢
    rw [ih, hw, Nat.succ_mul, Nat.add_comm]

/-- The three writes for one rule. -/
theorem write_wire (m : RuleImage) (h : cursor + ruleWireSize ≤ b.out.length) :
    ((b.write cursor (Layout.rule.encode m)).write (cursor + pathCharsOffset)
      (u32.encode 0)).write (cursor + pathOffsetOffset) (u32.encode 0) =
      b.write cursor (encodeWire (m, [])) := by
  have hrule : (Layout.rule.encode m).length = pathCharsOffset := Layout.rule.length_encode m
  have hchars : (Layout.rule.encode m ++ u32.encode 0).length = pathOffsetOffset := by
    rw [List.length_append, hrule]
    rfl
  have hroom : cursor + pathCharsOffset ≤ b.out.length :=
    (Nat.add_le_add_left (by decide) cursor).trans h
  have hroom' : cursor + pathOffsetOffset ≤ b.out.length :=
    (Nat.add_le_add_left (by decide) cursor).trans h
  rw [← hrule, write_write (hrule ▸ hroom), ← hchars, write_write (hchars ▸ hroom'),
    List.append_assoc]
  rfl

/-- The second pass, when every rule fits. -/
theorem enumFill_fits (hb : c.Room b) (hroom : cursor + remaining.toNat ≤ c.outLen.toNat)
    (hfit : images.length * ruleWireSize ≤ remaining.toNat) :
    enumFill c images cursor remaining count b =
      .ok (count + UInt32.ofNat images.length, false, b.write cursor (enumWires images)) := by
  induction images generalizing cursor remaining count b with
  | nil =>
    have hcount : count + UInt32.ofNat 0 = count := UInt32.add_zero count
    rw [enumFill, enumWires, encodeWires, List.map_nil, List.flatMap_nil, write_nil,
      List.length_nil, hcount]
  | cons m images ih =>
    have hsize : (UInt32.ofNat ruleWireSize).toNat = ruleWireSize := rfl
    have hrule : (Layout.rule.encode m).length = pathCharsOffset := Layout.rule.length_encode m
    have hw : (encodeWire (m, [])).length = ruleWireSize := length_encodeWire
    rw [List.length_cons, Nat.succ_mul] at hfit
    have hle : UInt32.ofNat ruleWireSize ≤ remaining := by
      rw [UInt32.le_iff_toNat_le, hsize]
      omega
    have hleft := UInt32.toNat_sub_of_le _ _ hle
    have hout : cursor + ruleWireSize ≤ c.outLen.toNat := by omega
    have hput : ∀ {off : ℕ} {new : List UInt8} {b : Buffers}, c.Room b →
        off + new.length ≤ ruleWireSize →
        c.put (cursor + off) new b = .ok (b.write (cursor + off) new) ∧
          c.Room (b.write (cursor + off) new) := by
      intro off new b hb hoff
      have hoff' : cursor + off + new.length ≤ c.outLen.toNat := by omega
      exact ⟨hb.put hoff', hb.write hoff'⟩
    obtain ⟨h₁, hb₁⟩ := @hput 0 (Layout.rule.encode m) b hb (by rw [hrule]; decide)
    obtain ⟨h₂, hb₂⟩ := @hput pathCharsOffset (u32.encode 0) _ hb₁ (by decide)
    obtain ⟨h₃, hb₃⟩ := @hput pathOffsetOffset (u32.encode 0) _ hb₂ (by decide)
    rw [Nat.add_zero] at h₁ h₂ h₃ hb₃
    rw [write_wire m (hout.trans hb.room)] at h₃ hb₃
    have hwires : enumWires (m :: images) = encodeWire (m, []) ++ enumWires images := rfl
    have hcount : count + 1 + UInt32.ofNat images.length =
        count + UInt32.ofNat (images.length + 1) := by
      rw [UInt32.ofNat_add, UInt32.add_assoc, UInt32.add_comm 1]
      rfl
    rw [enumFill, if_neg (UInt32.not_lt.mpr hle), h₁, Outcome.ok_bind, h₂, Outcome.ok_bind, h₃,
      Outcome.ok_bind, ih hb₃ (by omega) (by omega), ← hw, write_write (hw ▸ hout.trans hb.room),
      hwires, hcount, List.length_cons]

/-- Without an overflow every rule has fit. -/
theorem enumFill_false (h : enumFill c images cursor remaining count b = .ok (n, false, b')) :
    images.length * ruleWireSize ≤ remaining.toNat := by
  induction images generalizing cursor remaining count b with
  | nil => rw [List.length_nil, Nat.zero_mul]; exact Nat.zero_le _
  | cons m images ih =>
    rw [enumFill] at h
    split at h
    · cases h
    · rename_i hle
      have hle := UInt32.not_lt.mp hle
      have hsize : (UInt32.ofNat ruleWireSize).toNat = ruleWireSize := rfl
      obtain ⟨_, -, h⟩ := Outcome.bind_eq_ok.mp h
      obtain ⟨_, -, h⟩ := Outcome.bind_eq_ok.mp h
      obtain ⟨_, -, h⟩ := Outcome.bind_eq_ok.mp h
      have hrest := ih h
      rw [UInt32.toNat_sub_of_le _ _ hle, hsize] at hrest
      rw [UInt32.le_iff_toNat_le, hsize] at hle
      rw [List.length_cons, Nat.succ_mul]
      omega

/-! ### The command -/

/-- What a reply with the rules `images` has: their wires, and nothing in the padding of
`SK_ENUM_HEADER`. -/
structure EnumReply (c : Call) (d : Driver) (b : Buffers) (images : List RuleImage) (a : Reply) :
    Prop where
  status : a.status = statusSuccess
  information : a.information = enumTotal (UInt32.ofNat images.length)
  store : a.store = d.store
  count : (u32.read a.buffers.out (ioctlHeaderSize + enumCountOffset) : Outcome NtStatus _) =
    .ok (UInt32.ofNat images.length)
  version : (u64.read a.buffers.out (ioctlHeaderSize + enumVersionOffset) :
    Outcome NtStatus _) = .ok (d.view 2).version
  wires : (a.buffers.out.drop (ioctlHeaderSize + enumHeaderSize)).take
    (images.length * ruleWireSize) = enumWires images
  padding : Agree (fun i => ioctlHeaderSize + enumCountOffset + 4 ≤ i ∧
    i < ioctlHeaderSize + enumVersionOffset) b.out a.buffers.out

theorem read_put {α : Type} {k : Codec α} {a : α} (h : c.Room b)
    (hle : off + k.size ≤ c.outLen.toNat) :
    (k.read (b.write off (k.encode a)).out off : Outcome NtStatus α) = .ok a := by
  rw [← k.length_encode a] at hle
  have hroom := hle.trans h.room
  have hslice := slice_splice hroom
  rw [read_eq_ok_iff, out_write, length_splice hroom, ← k.length_encode a]
  exact ⟨hroom, hslice⟩

/-- The writes before the wires, after those. -/
theorem enumHeader_ok (count : UInt32) (version : UInt64) (hb : c.Room b)
    (hfixed : ioctlHeaderSize + enumHeaderSize ≤ c.outLen.toNat) :
    ∃ b₁ b₂ b₃, echoHeader c b total = .ok b₁ ∧
      c.put (ioctlHeaderSize + enumCountOffset) (u32.encode count) b₁ = .ok b₂ ∧
      c.put (ioctlHeaderSize + enumVersionOffset) (u64.encode version) b₂ = .ok b₃ ∧
      (u32.read b₃.out (ioctlHeaderSize + enumCountOffset) : Outcome NtStatus _) = .ok count ∧
      (u64.read b₃.out (ioctlHeaderSize + enumVersionOffset) : Outcome NtStatus _) =
        .ok version ∧
      Agree (fun i => ioctlHeaderSize + enumCountOffset + 4 ≤ i ∧
        (i < ioctlHeaderSize + enumVersionOffset ∨ ioctlHeaderSize + enumHeaderSize ≤ i))
        b.out b₃.out := by
  obtain ⟨b₁, h₁, hb₁, hk₁⟩ := @Call.Room.echoHeader c b total hb (le_trans (by decide) hfixed)
  have hcount : ioctlHeaderSize + enumCountOffset + u32.size ≤ c.outLen.toNat :=
    le_trans (by decide) hfixed
  have hversion : ioctlHeaderSize + enumVersionOffset + u64.size ≤ c.outLen.toNat :=
    le_trans (by decide) hfixed
  have hread₂ := read_put (a := count) hb₁ hcount
  rw [← u32.length_encode count] at hcount
  have hb₂ := hb₁.write hcount
  have hk₂ := hb₁.agree hcount
  have hread₃ := read_put (a := version) hb₂ hversion
  rw [← u64.length_encode version] at hversion
  have hk₃ := hb₂.agree hversion
  rw [u32.length_encode] at hk₂
  rw [u64.length_encode] at hk₃
  refine ⟨_, _, _, h₁, hb₁.put hcount, hb₂.put hversion, ?_, hread₃, ?_⟩
  · rw [← hread₂]
    refine (hk₃.read_eq fun i _ hi => .inl ?_).symm
    exact lt_of_lt_of_le hi (by decide)
  · refine (hk₁.mono fun i hi => ?_).trans ((hk₂.mono fun i hi => ?_).trans
      (hk₃.mono fun i hi => ?_))
    · exact le_trans (by decide) hi.1
    · exact .inr hi.1
    · exact hi.2

/-- The check between the passes. -/
theorem not_lacks_iff (hmax : counted.length ≤ ruleMax) :
    ¬ c.lacks (enumTotal (enumCount counted)) ↔ c.out = true ∧
      ioctlHeaderSize + enumHeaderSize + counted.length * ruleWireSize ≤ c.outLen.toNat := by
  rw [Call.lacks, enumCount_eq, UInt32.lt_iff_toNat_lt, toNat_enumTotal hmax, not_or, Nat.not_lt,
    Bool.not_eq_false]

theorem toNat_remaining (hfixed : ioctlHeaderSize + enumHeaderSize ≤ c.outLen.toNat) :
    (c.outLen - UInt32.ofNat (ioctlHeaderSize + enumHeaderSize)).toNat =
      c.outLen.toNat - (ioctlHeaderSize + enumHeaderSize) :=
  UInt32.toNat_sub_of_le _ _ (UInt32.le_iff_toNat_le.mpr hfixed)

/-- The rules fit if neither pass finds the buffer too small. -/
theorem EnumFits.of_fill (hc : (d.view 0).images = some counted)
    (hf : (d.view 1).images = some filled) (hl : ¬ c.lacks (enumTotal (enumCount counted)))
    (h : enumFill c filled cursor (c.outLen - UInt32.ofNat (ioctlHeaderSize + enumHeaderSize)) count
      b = .ok (n, false, b')) : EnumFits c d counted filled := by
  obtain ⟨hout, hfirst⟩ := (not_lacks_iff ((d.view 0).bound _ hc)).mp hl
  have hfit := enumFill_false h
  rw [toNat_remaining (by omega)] at hfit
  exact ⟨hc, hf, hout, hfirst, by omega⟩

/-- `ENUM_RULES` when the rules fit. -/
theorem cmdEnumRules_fits (hb : c.Room b) (h : EnumFits c d counted filled) :
    ∃ a, cmdEnumRules c d b = .ok a ∧ EnumReply c d b filled a := by
  have hfirst := h.first
  have hsecond := h.second
  have hfixed : ioctlHeaderSize + enumHeaderSize ≤ c.outLen.toNat := by omega
  have hlacks := (not_lacks_iff ((d.view 0).bound _ h.view₀)).mpr ⟨h.out, hfirst⟩
  have hremaining := toNat_remaining hfixed
  have hfill := @enumFill_fits c b (ioctlHeaderSize + enumHeaderSize) filled
    (c.outLen - UInt32.ofNat (ioctlHeaderSize + enumHeaderSize)) 0 hb (by omega) (by omega)
  have hzero : 0 + UInt32.ofNat filled.length = UInt32.ofNat filled.length := UInt32.zero_add _
  rw [hzero] at hfill
  have hwires : ioctlHeaderSize + enumHeaderSize + (enumWires filled).length ≤
      c.outLen.toNat := by rw [length_enumWires]; exact hsecond
  obtain ⟨b₁, b₂, b₃, he₁, he₂, he₃, hcount, hversion, hkeep⟩ :=
    @enumHeader_ok c _ (enumTotal (UInt32.ofNat filled.length)) (UInt32.ofNat filled.length)
      (d.view 2).version (hb.write hwires) hfixed
  refine ⟨⟨statusSuccess, enumTotal (UInt32.ofNat filled.length), b₃, d.store, d.toTelemetry, []⟩,
    ?_, ⟨rfl, rfl, rfl, hcount, hversion, ?_, ?_⟩⟩
  · simp only [cmdEnumRules, h.view₀, h.view₁, if_neg hlacks, hfill, he₁, he₂, he₃,
      Outcome.ok_bind, Bool.false_eq_true, if_false, Outcome.pure_eq]
  · have hslice := slice_splice (hwires.trans hb.room)
    rw [← out_write, length_enumWires] at hslice
    refine (hkeep.slice_eq fun i hi _ => ⟨?_, .inr hi⟩).symm.trans hslice
    exact le_trans (by decide) hi
  · refine ((hb.agree hwires).mono fun i hi => ?_).trans (hkeep.mono fun i hi => ?_)
    · exact .inl (lt_trans hi.2 (by decide))
    · exact ⟨hi.1, .inl hi.2⟩

/-- `ENUM_RULES` does not succeed otherwise. -/
theorem cmdEnumRules_success {a : Reply} (h : cmdEnumRules c d b = .ok a)
    (hs : ntSuccess a.status = true) : ∃ counted filled, EnumFits c d counted filled := by
  rw [cmdEnumRules] at h
  cases hc : (d.view 0).images with
  | none =>
    rw [hc] at h
    cases h
    cases hs
  | some counted =>
    rw [hc] at h
    dsimp only at h
    split at h
    · cases h
      cases hs
    rename_i hlacks
    cases hf : (d.view 1).images with
    | none =>
      rw [hf] at h
      cases h
      cases hs
    | some filled =>
      rw [hf] at h
      obtain ⟨⟨n, overflow, b'⟩, hfill, h⟩ := Outcome.bind_eq_ok.mp h
      cases overflow with
      | true =>
        cases h
        cases hs
      | false => exact ⟨counted, filled, .of_fill hc hf hlacks hfill⟩

end Sentinel.Control
