import Sentinel.Control.Served

/-! Every write of a request stays inside its output buffer, and no size wraps. -/
namespace Sentinel.Control

open Bytes Codec TwoRuns Outcome

/-! ### The same with checks -/

/-- Arithmetic of 32 bits in which a wrap is a fault. -/
def checkedAdd (x y : UInt32) : Outcome NtStatus UInt32 :=
  if x.toNat + y.toNat < UInt32.size then .ok (x + y) else .fault

def checkedSub (x y : UInt32) : Outcome NtStatus UInt32 :=
  if y ≤ x then .ok (x - y) else .fault

def checkedMul (x y : UInt32) : Outcome NtStatus UInt32 :=
  if x.toNat * y.toNat < UInt32.size then .ok (x * y) else .fault

def enumCountChecked : List RuleImage → UInt32 → Outcome NtStatus UInt32
  | [], n => .ok n
  | _ :: images, n => do enumCountChecked images (← checkedAdd n 1)

def enumTotalChecked (count : UInt32) : Outcome NtStatus UInt32 := do
  let bytes ← checkedMul count (UInt32.ofNat ruleWireSize)
  checkedAdd (UInt32.ofNat (ioctlHeaderSize + enumHeaderSize)) bytes

variable (c : Call) (d : Driver) (b : Buffers)

def enumFillChecked : List RuleImage → ℕ → UInt32 → UInt32 → Buffers →
    Outcome NtStatus (UInt32 × Bool × Buffers)
  | [], _, _, count, b => .ok (count, false, b)
  | image :: images, cursor, remaining, count, b =>
    if remaining < UInt32.ofNat ruleWireSize then .ok (count, true, b)
    else do
      let b ← c.put cursor (Layout.rule.encode image) b
      let b ← c.put (cursor + pathCharsOffset) (u32.encode 0) b
      let b ← c.put (cursor + pathOffsetOffset) (u32.encode 0) b
      let remaining ← checkedSub remaining (UInt32.ofNat ruleWireSize)
      let count ← checkedAdd count 1
      enumFillChecked images (cursor + ruleWireSize) remaining count b

/-- `cmdEnumRules` with checked sizes. -/
def cmdEnumRulesChecked : Outcome NtStatus Reply :=
  match (d.view 0).images with
  | none => .ok (refuse d b statusInvalidDeviceState 0)
  | some images => do
    let count ← enumCountChecked images 0
    let total ← enumTotalChecked count
    if c.lacks total then return refuse d b statusBufferTooSmall total
    else match (d.view 1).images with
    | none => return refuse d b statusInvalidDeviceState 0
    | some images => do
      let remaining ← checkedSub c.outLen (UInt32.ofNat (ioctlHeaderSize + enumHeaderSize))
      let (count, overflow, b) ← enumFillChecked c images (ioctlHeaderSize + enumHeaderSize)
        remaining 0 b
      if overflow then return ⟨statusBufferTooSmall, 0, b, d.store, d.toTelemetry, []⟩
      else do
        let total ← enumTotalChecked count
        let b ← echoHeader c b total
        let b ← c.put (ioctlHeaderSize + enumCountOffset) (u32.encode count) b
        let b ← c.put (ioctlHeaderSize + enumVersionOffset) (u64.encode (d.view 2).version) b
        return ⟨statusSuccess, total, b, d.store, d.toTelemetry, []⟩

/-- `cmdFlushEvents` with checked sizes. -/
def cmdFlushEventsChecked : Outcome NtStatus Reply :=
  let fixedBytes := UInt32.ofNat (ioctlHeaderSize + Layout.flushHeader.size)
  if c.lacks fixedBytes then .ok (refuse d b statusBufferTooSmall fixedBytes)
  else do
    let room ← checkedSub c.outLen fixedBytes
    let cap := room / UInt32.ofNat eventRecordSize
    let cap := if UInt32.ofNat flushMaxEvents < cap then UInt32.ofNat flushMaxEvents else cap
    let count := flushCount d cap
    let bytes ← checkedMul count (UInt32.ofNat eventRecordSize)
    let total ← checkedAdd fixedBytes bytes
    let b ← flushRecords c d ((d.ringHead + telemetryRing - count) % telemetryRing) count.toNat 0
      fixedBytes.toNat b
    let b ← echoHeader c b total
    let b ← c.put ioctlHeaderSize
      (Layout.flushHeader.encode (count, UInt32.ofNat eventRecordSize)) b
    return ⟨statusSuccess, total, b, d.store, d.toTelemetry, []⟩

/-- The switch with the sizes checked that depend on a count. -/
def handleChecked : Command → Outcome NtStatus Reply
  | .enumRules => cmdEnumRulesChecked c d b
  | .flushEvents => cmdFlushEventsChecked c d b
  | command => handle c d b command

/-- `SkIoctlEvtDeviceControl` with checked sizes. -/
def evtDeviceControlChecked (r : Ioctl) (d : Driver) (b : Buffers) : Outcome NtStatus Reply :=
  match check r d b with
  | .fault => .fault
  | .error st => .ok (refuse d b st 0).complete
  | .ok command => do
    let payloadLen ← checkedSub (UInt32.ofNat r.input.length) (UInt32.ofNat ioctlHeaderSize)
    let reply ← handleChecked { r.call with payloadLen := payloadLen } d b command
    let reply ← echoIfRoom r.call reply
    return reply.complete

variable {c d b} {b₀ b' : Buffers} {bytes new : List UInt8} {total x y : UInt32} {off : ℕ}
  {images : List RuleImage} {cursor n i : ℕ} {remaining count start : UInt32} {r : Ioctl}
  {a : Reply}

theorem checkedSub_of_le (h : y ≤ x) : checkedSub x y = .ok (x - y) := if_pos h

theorem checkedAdd_of_lt (h : x.toNat + y.toNat < UInt32.size) : checkedAdd x y = .ok (x + y) :=
  if_pos h

theorem checkedMul_of_lt (h : x.toNat * y.toNat < UInt32.size) : checkedMul x y = .ok (x * y) :=
  if_pos h

theorem enumCountChecked_eq (h : n + images.length < UInt32.size) :
    enumCountChecked images (UInt32.ofNat n) = .ok (UInt32.ofNat (n + images.length)) := by
  induction images generalizing n with
  | nil => rfl
  | cons m images ih =>
    rw [List.length_cons] at h ⊢
    have hn : (UInt32.ofNat n).toNat = n := UInt32.toNat_ofNat_of_lt' (by omega)
    have hone : (1 : UInt32).toNat = 1 := rfl
    have hadd : checkedAdd (UInt32.ofNat n) 1 = .ok (UInt32.ofNat (n + 1)) := by
      rw [checkedAdd_of_lt (by omega), UInt32.ofNat_add]
      rfl
    rw [enumCountChecked, hadd, ok_bind, ih (by omega), Nat.add_assoc, Nat.add_comm 1]

theorem enumTotalChecked_eq (h : count.toNat ≤ ruleMax) :
    enumTotalChecked count = .ok (enumTotal count) := by
  have hwire : (UInt32.ofNat ruleWireSize).toNat = 184 := rfl
  have hfixed : (UInt32.ofNat (ioctlHeaderSize + enumHeaderSize)).toNat = 40 := rfl
  have hsize : UInt32.size = 2 ^ 32 := rfl
  have hmax : ruleMax = 4096 := rfl
  have hmul : (count * UInt32.ofNat ruleWireSize).toNat = count.toNat * 184 := by
    rw [UInt32.toNat_mul, hwire, Nat.mod_eq_of_lt (by omega)]
  rw [enumTotalChecked, checkedMul_of_lt (by rw [hwire]; omega), ok_bind,
    checkedAdd_of_lt (by omega)]
  rfl

/-- No step of the second pass wraps. -/
theorem enumFillChecked_eq (h : count.toNat + images.length < UInt32.size) :
    enumFillChecked c images cursor remaining count b =
      enumFill c images cursor remaining count b := by
  induction images generalizing cursor remaining count b with
  | nil => rfl
  | cons m images ih =>
    rw [List.length_cons] at h
    have hone : (1 : UInt32).toNat = 1 := rfl
    have hadd : checkedAdd count 1 = .ok (count + 1) := checkedAdd_of_lt (by omega)
    have hcount : (count + 1).toNat = count.toNat + 1 := by
      rw [UInt32.toNat_add, hone, Nat.mod_eq_of_lt (by rw [UInt32.size] at h; omega)]
    rw [enumFillChecked, enumFill]
    split
    · rfl
    · rename_i hle
      have hsub := checkedSub_of_le (UInt32.not_lt.mp hle)
      simp only [hsub, hadd, ok_bind]
      refine congrArg (_ >>= ·) (funext fun b => ?_)
      refine congrArg (_ >>= ·) (funext fun b => ?_)
      refine congrArg (_ >>= ·) (funext fun b => ?_)
      exact ih (by omega)

/-- The second pass counts no more rules than there are. -/
theorem enumFill_count {overflow : Bool}
    (h : enumFill c images cursor remaining count b = .ok (x, overflow, b')) :
    ∃ m ≤ images.length, x = count + UInt32.ofNat m := by
  have hzero : count = count + UInt32.ofNat 0 := (UInt32.add_zero _).symm
  induction images generalizing cursor remaining count b with
  | nil =>
    cases h
    exact ⟨0, le_rfl, hzero⟩
  | cons m images ih =>
    rw [enumFill] at h
    split at h
    · cases h
      exact ⟨0, Nat.zero_le _, hzero⟩
    · obtain ⟨_, -, h⟩ := bind_eq_ok.mp h
      obtain ⟨_, -, h⟩ := bind_eq_ok.mp h
      obtain ⟨_, -, h⟩ := bind_eq_ok.mp h
      obtain ⟨m, hm, hx⟩ := ih h (UInt32.add_zero _).symm
      refine ⟨m + 1, Nat.succ_le_succ hm, ?_⟩
      rw [hx, UInt32.ofNat_add, UInt32.add_assoc, UInt32.add_comm 1]
      rfl

theorem cmdEnumRulesChecked_eq : cmdEnumRulesChecked c d b = cmdEnumRules c d b := by
  have hfits : ∀ {n : ℕ}, n ≤ ruleMax → n < UInt32.size := by
    intro n hn
    rw [ruleMax] at hn
    rw [UInt32.size]
    omega
  rw [cmdEnumRulesChecked, cmdEnumRules]
  cases hc : (d.view 0).images with
  | none => rfl
  | some counted =>
    have hbound := (d.view 0).bound _ hc
    have hlen : (UInt32.ofNat counted.length).toNat = counted.length :=
      UInt32.toNat_ofNat_of_lt' (hfits hbound)
    have hcount : enumCountChecked counted 0 = .ok (UInt32.ofNat counted.length) := by
      have heq := @enumCountChecked_eq counted 0 (by rw [Nat.zero_add]; exact hfits hbound)
      rwa [Nat.zero_add] at heq
    dsimp only
    rw [hcount, ok_bind, enumTotalChecked_eq (hlen.trans_le hbound), ok_bind, ← enumCount_eq]
    split
    · rfl
    rename_i hl
    obtain ⟨-, hfirst⟩ := (not_lacks_iff hbound).mp hl
    have hfixed : UInt32.ofNat (ioctlHeaderSize + enumHeaderSize) ≤ c.outLen := by
      rw [UInt32.le_iff_toNat_le]
      exact le_trans (Nat.le_add_right _ _) hfirst
    cases hf : (d.view 1).images with
    | none => rfl
    | some filled =>
      have hbound := (d.view 1).bound _ hf
      have hfilled : (0 : UInt32).toNat + filled.length < UInt32.size := by
        rw [UInt32.toNat_zero, Nat.zero_add]
        exact hfits hbound
      dsimp only
      rw [checkedSub_of_le hfixed, ok_bind, enumFillChecked_eq hfilled]
      cases hfill : enumFill c filled (ioctlHeaderSize + enumHeaderSize)
          (c.outLen - UInt32.ofNat (ioctlHeaderSize + enumHeaderSize)) 0 b with
      | fault => rfl
      | error st => rfl
      | ok res =>
        obtain ⟨count, overflow, b⟩ := res
        obtain ⟨m, hm, hx⟩ := enumFill_count hfill
        have hle : count.toNat ≤ ruleMax := by
          rw [hx, UInt32.zero_add]
          exact (UInt32.toNat_ofNat_of_lt' (hfits (hm.trans hbound))).trans_le (hm.trans hbound)
        rw [ok_bind, ok_bind]
        dsimp only
        rw [enumTotalChecked_eq hle, ok_bind]

theorem cmdFlushEventsChecked_eq : cmdFlushEventsChecked c d b = cmdFlushEvents c d b := by
  rw [cmdFlushEventsChecked, cmdFlushEvents]
  dsimp only
  split
  · rfl
  rename_i hl
  rw [Call.lacks, not_or, UInt32.not_lt] at hl
  have hle := UInt32.le_iff_toNat_le.mp hl.2
  have hfixed : (UInt32.ofNat (ioctlHeaderSize + Layout.flushHeader.size)).toNat =
      ioctlHeaderSize + Layout.flushHeader.size := rfl
  have hrecord : (UInt32.ofNat eventRecordSize).toNat = eventRecordSize := rfl
  rw [hfixed] at hle
  have hcount := @flushCount_le c d hle
  have hlt := c.outLen.toNat_lt
  rw [checkedSub_of_le hl.2, ok_bind]
  have hcap : (if UInt32.ofNat flushMaxEvents <
      (c.outLen - UInt32.ofNat (ioctlHeaderSize + Layout.flushHeader.size)) /
        UInt32.ofNat eventRecordSize then UInt32.ofNat flushMaxEvents
      else (c.outLen - UInt32.ofNat (ioctlHeaderSize + Layout.flushHeader.size)) /
        UInt32.ofNat eventRecordSize) = flushCap c := rfl
  rw [hcap]
  generalize flushCount d (flushCap c) = count at hcount ⊢
  have hmul : count.toNat * (UInt32.ofNat eventRecordSize).toNat < UInt32.size := by
    rw [hrecord, UInt32.size]
    omega
  have hbytes : (count * UInt32.ofNat eventRecordSize).toNat = count.toNat * eventRecordSize := by
    rw [UInt32.toNat_mul, Nat.mod_eq_of_lt hmul, hrecord]
  rw [checkedMul_of_lt hmul, ok_bind, checkedAdd_of_lt, ok_bind]
  rw [hfixed, hbytes, UInt32.size]
  omega

/-- Nowhere does a size wrap. -/
theorem evtDeviceControlChecked_eq :
    evtDeviceControlChecked r d b = evtDeviceControl r d b := by
  have hhandle : ∀ {c : Call} {command : Command},
      handleChecked c d b command = handle c d b command := by
    intro c command
    cases command with
    | enumRules => exact cmdEnumRulesChecked_eq
    | flushEvents => exact cmdFlushEventsChecked_eq
    | queryCapabilities | getRuleVersion | addRule | updateRule | deleteRule | replaceRuleset
    | clearRules | setDefaultPolicy | getStats => rfl
  rw [evtDeviceControlChecked, evtDeviceControl]
  cases hc : check r d b with
  | fault => rfl
  | error st => rfl
  | ok command =>
    obtain ⟨hheader, hmax⟩ := check_lengths hc
    have hlen : (UInt32.ofNat r.input.length).toNat = r.input.length :=
      UInt32.toNat_ofNat_of_lt' (by rw [UInt32.size]; omega)
    have hsub : UInt32.ofNat ioctlHeaderSize ≤ UInt32.ofNat r.input.length := by
      rw [UInt32.le_iff_toNat_le, hlen]
      exact hheader
    dsimp only
    rw [checkedSub_of_le hsub, ok_bind, hhandle]
    rfl

/-! ### Where the writes go -/

/-- From `b₀` to `b` nothing was written but into the output buffer. -/
structure Inside (c : Call) (b₀ b : Buffers) : Prop where
  room : c.Room b
  apart : b.output.isSome = b₀.output.isSome
  input : b₀.output.isSome = true → b.input = b₀.input
  behind : Agree (c.outLen.toNat ≤ ·) b₀.out b.out

/-- Its `Size` is that of the output. -/
structure Sized (c : Call) (b₀ : Buffers) (total : UInt32) (b : Buffers) : Prop where
  inside : Inside c b₀ b
  size : (u32.read b.out hdrSizeOffset : Outcome NtStatus _) = .ok total

theorem Inside.refl (hb : c.Room b) : Inside c b b :=
  ⟨hb, rfl, fun _ => rfl, ⟨rfl, fun _ _ => rfl⟩⟩

theorem Inside.write (h : Inside c b₀ b) (hle : off + new.length ≤ c.outLen.toNat) :
    Inside c b₀ (b.write off new) where
  room := h.room.write hle
  apart := by
    rw [← h.apart, Buffers.write]
    cases b.output <;> rfl
  input hs := by
    rw [← h.apart] at hs
    obtain ⟨out, hout⟩ := Option.isSome_iff_exists.mp hs
    rw [Buffers.write, hout]
    exact h.input (h.apart ▸ hs)
  behind := h.behind.trans ((h.room.agree hle).mono fun _ hi => .inr (hle.trans hi))

theorem Inside.put (h : Inside c b₀ b) (hle : off + new.length ≤ c.outLen.toNat) :
    (c.put off new b).Returns (Inside c b₀) := ⟨_, h.room.put hle, h.write hle⟩

/-- Behind its field no write changes the size. -/
theorem Sized.put (h : Sized c b₀ total b) (hle : off + new.length ≤ c.outLen.toNat)
    (hoff : u32.size ≤ off) : (c.put off new b).Returns (Sized c b₀ total) := by
  refine ⟨_, h.inside.room.put hle, h.inside.write hle, ?_⟩
  rw [← h.size]
  refine ((h.inside.room.agree hle).read_eq fun i _ hi => .inl ?_).symm
  exact hi.trans_le hoff

theorem Inside.read {α : Type} (k : Codec α) (h : Inside c b₀ b)
    (hoff : off + k.size ≤ ioctlHeaderSize) :
    (k.read b.input off : Outcome NtStatus α).Returns fun _ => True := by
  obtain ⟨a, ha⟩ := read_of_le (hoff.trans h.room.header)
  exact ⟨a, ha, trivial⟩

/-- The header brings the size with it. -/
theorem Inside.echoHeader (h : Inside c b₀ b) (hle : ioctlHeaderSize ≤ c.outLen.toNat) :
    (echoHeader c b total).Returns (Sized c b₀ total) := by
  have hput : ∀ {α : Type} (k : Codec α) (a : α) {b off}, Sized c b₀ total b →
      off + k.size ≤ ioctlHeaderSize → u32.size ≤ off →
      (c.put off (k.encode a) b).Returns (Sized c b₀ total) := by
    intro α k a b off hb hoff hsize
    rw [← k.length_encode a] at hoff
    exact hb.put (hoff.trans hle) hsize
  have hfirst : (c.put hdrSizeOffset (u32.encode total) b).Returns (Sized c b₀ total) := by
    have hroom : hdrSizeOffset + u32.size ≤ c.outLen.toNat := le_trans (by decide) hle
    have hread := read_put (a := total) h.room hroom
    rw [← u32.length_encode total] at hroom
    exact ⟨_, h.room.put hroom, h.write hroom, hread⟩
  refine hfirst.bind fun b hb => ?_
  refine (hput u16 _ hb (by decide) (by decide)).bind fun b hb => ?_
  refine (hb.inside.read u16 (by decide)).bind fun command _ => ?_
  refine (hput u16 _ hb (by decide) (by decide)).bind fun b hb => ?_
  refine (hput u32 _ hb (by decide) (by decide)).bind fun b hb => ?_
  refine (hb.inside.read u64 (by decide)).bind fun requestId _ => ?_
  exact hput u64 _ hb (by decide) (by decide)

/-- What a handler leaves behind: a success says how many bytes of the buffer it has filled. -/
structure Bounded (c : Call) (b₀ : Buffers) (a : Reply) : Prop where
  backed : c.Backed a.buffers
  apart : a.buffers.output.isSome = b₀.output.isSome
  input : b₀.output.isSome = true → a.buffers.input = b₀.input
  behind : Agree (c.outLen.toNat ≤ ·) b₀.out a.buffers.out
  information : ntSuccess a.status = true → a.information ≤ c.outLen
  size : ntSuccess a.status = true → a.information ≠ 0 →
    (u32.read a.buffers.out hdrSizeOffset : Outcome NtStatus _) = .ok a.information

/-- A handler that writes nothing, and reports a length only together with an error. -/
theorem Bounded.unwritten (hb : c.Backed b) (ha : a.buffers = b)
    (hinfo : ntSuccess a.status = true → a.information = 0) : Bounded c b a where
  backed := ha ▸ hb
  apart := by rw [ha]
  input _ := by rw [ha]
  behind := by
    rw [ha]
    exact ⟨rfl, fun _ _ => rfl⟩
  information hs := by
    rw [hinfo hs]
    exact UInt32.zero_le
  size hs hne := absurd (hinfo hs) hne

theorem Bounded.refuse {st : NtStatus} (hb : c.Backed b) (hst : ntSuccess st = false) :
    Bounded c b (refuse d b st total) :=
  .unwritten hb rfl fun hs => absurd (hst.symm.trans hs) Bool.false_ne_true

theorem Inside.bounded (h : Inside c b₀ a.buffers) (hst : ntSuccess a.status = false) :
    Bounded c b₀ a where
  backed _ := h.room
  apart := h.apart
  input := h.input
  behind := h.behind
  information hs := absurd (hst.symm.trans hs) Bool.false_ne_true
  size hs := absurd (hst.symm.trans hs) Bool.false_ne_true

theorem Sized.bounded (h : Sized c b₀ a.information a.buffers) (hle : a.information ≤ c.outLen) :
    Bounded c b₀ a where
  backed _ := h.inside.room
  apart := h.inside.apart
  input := h.inside.input
  behind := h.inside.behind
  information _ := hle
  size _ _ := h.size

/-! ### The handlers -/

theorem fixedReply_bounded (hb : c.Backed b)
    (hlen : ioctlHeaderSize + bytes.length < UInt32.size) :
    (fixedReply c d b bytes).Returns (Bounded c b) := by
  rw [fixedReply]
  split
  · exact .of_ok (.refuse hb rfl)
  · rename_i hl
    obtain ⟨hroom, hle⟩ := room_of_not_lacks hb hl
    have hinfo := UInt32.le_iff_toNat_le.mpr hle
    rw [UInt32.toNat_ofNat_of_lt' hlen] at hle
    refine ((Inside.refl hroom).echoHeader (by omega)).bind fun b hb => ?_
    refine (hb.put hle (by decide)).bind fun b hb => ?_
    exact .of_ok (Sized.bounded hb hinfo)

theorem cmdGetRuleVersion_bounded (hb : c.Backed b) :
    (cmdGetRuleVersion c d b).Returns (Bounded c b) := by
  rw [cmdGetRuleVersion]
  split
  · exact .of_ok (.refuse hb rfl)
  · split
    · exact .of_ok (.refuse hb rfl)
    · apply fixedReply_bounded hb
      rw [Layout.ruleVersion.length_encode]
      decide

theorem cmdEnumRules_bounded (hb : c.Backed b) :
    (cmdEnumRules c d b).Returns (Bounded c b) := by
  rw [cmdEnumRules]
  cases hc : (d.view 0).images with
  | none => exact .of_ok (.refuse hb rfl)
  | some counted =>
    dsimp only
    split
    · exact .of_ok (.refuse hb rfl)
    rename_i hl
    obtain ⟨hout, hfirst⟩ := (not_lacks_iff ((d.view 0).bound _ hc)).mp hl
    have hfixed : ioctlHeaderSize + enumHeaderSize ≤ c.outLen.toNat := by omega
    cases hf : (d.view 1).images with
    | none => exact .of_ok (.refuse hb rfl)
    | some filled =>
      obtain ⟨⟨count, overflow, b₁⟩, hres, hb₁⟩ : (enumFill c filled
          (ioctlHeaderSize + enumHeaderSize)
          (c.outLen - UInt32.ofNat (ioctlHeaderSize + enumHeaderSize)) 0 b).Returns
            fun x => Inside c b x.2.2 :=
        enumFill_keeps Inside.put (.refl (hb hout)) (enumFill_room hfixed)
      dsimp only
      rw [hres, ok_bind]
      cases overflow with
      | true => exact .of_ok (Inside.bounded hb₁ rfl)
      | false =>
        -- The length is that of the rules written, whatever has been counted before.
        have hfit := EnumFits.of_fill hc hf hl hres
        obtain ⟨m, hm, hx⟩ := enumFill_count hres
        have hinfo : enumTotal count ≤ c.outLen := by
          have hsecond := hfit.second
          have hcount : UInt32.ofNat m = count := by rw [hx, UInt32.zero_add]
          have hle := toNat_add_mul_le (UInt32.ofNat (ioctlHeaderSize + enumHeaderSize)) count
            ruleWireSize
          have hfixed : (UInt32.ofNat (ioctlHeaderSize + enumHeaderSize)).toNat =
            ioctlHeaderSize + enumHeaderSize := rfl
          have hm' : count.toNat ≤ filled.length := by
            rw [← hcount, UInt32.toNat_ofNat']
            exact (Nat.mod_le _ _).trans hm
          have hmul := Nat.mul_le_mul_right ruleWireSize hm'
          rw [UInt32.le_iff_toNat_le, enumTotal]
          omega
        have hcount : ioctlHeaderSize + enumCountOffset + (u32.encode count).length ≤
          c.outLen.toNat := le_trans (by rw [u32.length_encode]; decide) hfixed
        have hversion : ioctlHeaderSize + enumVersionOffset +
            (u64.encode (d.view 2).version).length ≤ c.outLen.toNat :=
          le_trans (by rw [u64.length_encode]; decide) hfixed
        dsimp only
        rw [if_neg Bool.false_ne_true]
        refine (hb₁.echoHeader (by omega)).bind fun b hb => ?_
        refine (hb.put hcount (by decide)).bind fun b hb => ?_
        refine (hb.put hversion (by decide)).bind fun b hb => ?_
        exact .of_ok (Sized.bounded hb hinfo)

theorem cmdFlushEvents_bounded (hb : c.Backed b) :
    (cmdFlushEvents c d b).Returns (Bounded c b) := by
  rw [cmdFlushEvents]
  dsimp only
  split
  · exact .of_ok (.refuse hb rfl)
  · rename_i hl
    obtain ⟨hroom, hfixed⟩ := room_of_not_lacks hb hl
    have hcount := @flushCount_le c d hfixed
    have hinfo : UInt32.ofNat (ioctlHeaderSize + Layout.flushHeader.size) +
        flushCount d (flushCap c) * UInt32.ofNat eventRecordSize ≤ c.outLen := by
      rw [UInt32.le_iff_toNat_le]
      exact (toNat_add_mul_le _ _ eventRecordSize).trans hcount
    refine (flushRecords_keeps Inside.put (.refl hroom) hcount).bind fun b hb => ?_
    refine (hb.echoHeader (le_trans (by decide) hfixed)).bind fun b hb => ?_
    refine (hb.put (flushHeader_room hfixed _) (by decide)).bind fun b hb => ?_
    exact .of_ok (Sized.bounded hb hinfo)

theorem noPayload_bounded {x : Outcome NtStatus (NtStatus × Store)} (hb : c.Backed b)
    (hx : x.Returns fun p => Written d p.2) : (noPayload d b x).Returns (Bounded c b) := by
  obtain ⟨p, rfl, -⟩ := hx
  exact .of_ok (.unwritten hb rfl fun _ => rfl)

theorem handle_bounded (hb : c.Backed b) (command : Command) :
    (handle c d b command).Returns (Bounded c b) := by
  cases command with
  | queryCapabilities =>
    apply fixedReply_bounded hb
    rw [Layout.capabilities.length_encode]
    decide
  | getRuleVersion => exact cmdGetRuleVersion_bounded hb
  | enumRules => exact cmdEnumRules_bounded hb
  | getStats =>
    apply fixedReply_bounded hb
    rw [List.length_append, ruleStatsBytes, Layout.ruleStats.length_encode,
      Layout.queueStats.length_encode]
    decide
  | flushEvents => exact cmdFlushEvents_bounded hb
  | addRule => exact noPayload_bounded hb (cmdAddOrUpdateRule_written false)
  | updateRule => exact noPayload_bounded hb (cmdAddOrUpdateRule_written true)
  | deleteRule => exact noPayload_bounded hb cmdDeleteRule_written
  | replaceRuleset => exact noPayload_bounded hb cmdReplaceRuleset_written
  | clearRules => exact noPayload_bounded hb ⟨_, rfl, written_run .clear rfl⟩
  | setDefaultPolicy => exact noPayload_bounded hb cmdSetDefaultPolicy_written

theorem echoIfRoom_bounded (h : Bounded c b a) : (echoIfRoom c a).Returns (Bounded c b) := by
  rw [echoIfRoom]
  split
  · rename_i hroom
    obtain ⟨-, -, hout, hheader⟩ := hroom
    have hinside : Inside c b a.buffers := ⟨h.backed hout, h.apart, h.input, h.behind⟩
    refine (hinside.echoHeader (UInt32.le_iff_toNat_le.mp hheader)).bind fun b hb => ?_
    exact .of_ok (Sized.bounded hb hheader)
  · exact .of_ok h

/-- A request writes nothing outside of its output buffer; a success has filled no more than that,
and says the same in the header as in Information; and no size wraps. -/
theorem output_bounded (r : Ioctl) (d : Driver) (b : Buffers) (h : r.Loaded b) :
    (∃ a, evtDeviceControl r d b = .ok a ∧
      (b.output.isSome = true → a.buffers.input = b.input) ∧
      (∀ i, min r.outLen 0xFFFFFFFF ≤ i → a.buffers.out[i]? = b.out[i]?) ∧
      (ntSuccess a.status = true → a.information.toNat ≤ r.outLen ∧
        (a.information ≠ 0 →
          (u32.read a.buffers.out hdrSizeOffset : Outcome NtStatus _) = .ok a.information))) ∧
    evtDeviceControlChecked r d b = evtDeviceControl r d b := by
  refine ⟨?_, evtDeviceControlChecked_eq⟩
  rw [evtDeviceControl]
  obtain ⟨st, hc⟩ | ⟨command, hc, -⟩ := @check_served d b r h
  · rw [hc]
    exact ⟨_, rfl, fun _ => rfl, fun _ _ => rfl,
      fun _ => ⟨Nat.zero_le _, fun hne => absurd rfl hne⟩⟩
  · have hb := h.backed (check_length hc)
    obtain ⟨a, ha, hfirst⟩ := @handle_bounded _ d b hb command
    obtain ⟨a', ha', hbound⟩ := echoIfRoom_bounded hfirst
    have hlen := toNat_call_outLen r
    rw [hc]
    dsimp only
    rw [ha, ok_bind, ha', ok_bind]
    refine ⟨_, rfl, hbound.input, fun i hi => ?_, fun hs => ⟨?_, hbound.size hs⟩⟩
    · exact (hbound.behind.get i (hlen.trans_le hi)).symm
    · have hinfo := UInt32.le_iff_toNat_le.mp (hbound.information hs)
      rw [hlen] at hinfo
      exact hinfo.trans (min_le_left _ _)

/-- A driver with `portRule`. -/
def portDriver : Driver :=
  { emptyDriver with
    view := fun _ => ⟨some [⟨portRule, .replicate 2 0, .replicate 4 0⟩], 1, verdictPermit, by
      rintro l ⟨⟩
      decide⟩
    store := ((Store.init rateTableEmpty).run (ruleStoreAdd (some portRule)) .granted).2 }

/-- `enumRequest` with room for one rule. -/
def enumOneRequest : Ioctl := { enumRequest with outLen := 224 }

theorem output_bounded_enumOneRequest : ∃ a,
    evtDeviceControl enumOneRequest portDriver (enumOneRequest.buffered (.replicate 200 0)) =
      .ok a ∧ a.status = statusSuccess ∧ a.information.toNat ≤ 224 ∧
      (u32.read a.buffers.out hdrSizeOffset : Outcome NtStatus _) = .ok a.information := by
  have hloaded : enumOneRequest.Loaded (enumOneRequest.buffered (.replicate 200 0)) :=
    ⟨List.prefix_append _ _, by decide +kernel⟩
  obtain ⟨⟨a, ha, -, -, hinfo⟩, -⟩ := output_bounded enumOneRequest portDriver _ hloaded
  have hpass : (evtDeviceControl enumOneRequest portDriver
      (enumOneRequest.buffered (.replicate 200 0))).passes
        fun a => a.status = statusSuccess ∧ a.information ≠ 0 := by decide +kernel
  obtain ⟨a', ha', hp⟩ := Returns.of_passes hpass
  obtain rfl := Outcome.ok.inj (ha'.symm.trans ha)
  obtain ⟨hst, hne⟩ := of_decide_eq_true hp
  obtain ⟨hle, hsize⟩ := hinfo (by rw [hst]; rfl)
  exact ⟨a', ha, hst, hle, hsize hne⟩

end Sentinel.Control
