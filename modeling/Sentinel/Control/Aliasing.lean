import Sentinel.Control.Bounds

/-! METHOD_BUFFERED gives input and output one buffer: a request does the same as with two. -/
namespace Sentinel.Control

open Bytes Codec TwoRuns

/-! ### Reads that insist on the input -/

/-- A read through the input pointer that faults if the bytes are not those of `mem` any more. -/
def readGuarded {α : Type} (k : Codec α) (mem : List UInt8) (b : Buffers) (off : ℕ) :
    Outcome NtStatus α :=
  if (b.input.drop off).take k.size = (mem.drop off).take k.size then k.read b.input off
  else .fault

/-- A read through `c->payload` that faults if the payload is not that of `mem` any more. -/
def payloadGuarded (mem : List UInt8) (c : Call) (b : Buffers) : Outcome NtStatus (List UInt8) :=
  if c.payload b = c.payload ⟨mem, none⟩ then .ok (c.payload b) else .fault

/-- `echoHeader` with both reads guarded. -/
def echoHeaderGuarded (mem : List UInt8) (c : Call) (b : Buffers) (totalBytes : UInt32) :
    Outcome NtStatus Buffers := do
  let b ← c.put hdrSizeOffset (u32.encode totalBytes) b
  let b ← c.put hdrVersionOffset (u16.encode ioctlVersion) b
  let command ← readGuarded u16 mem b hdrCommandOffset
  let b ← c.put hdrCommandOffset (u16.encode command) b
  let b ← c.put hdrFlagsOffset (u32.encode 0) b
  let requestId ← readGuarded u64 mem b hdrRequestIdOffset
  c.put hdrRequestIdOffset (u64.encode requestId) b

section
variable (echo : Buffers → UInt32 → Outcome NtStatus Buffers)
  (load : Buffers → Outcome NtStatus (List UInt8)) (c : Call) (d : Driver) (b : Buffers)

/-! The handlers, with what they use to echo the header and to read the payload as parameters. -/

def fixedReplyWith (bytes : List UInt8) : Outcome NtStatus Reply :=
  let total := UInt32.ofNat (ioctlHeaderSize + bytes.length)
  if c.lacks total then .ok (refuse d b statusBufferTooSmall total)
  else do
    let b ← echo b total
    let b ← c.put ioctlHeaderSize bytes b
    return ⟨statusSuccess, total, b, d.store, d.toTelemetry, []⟩

def cmdGetRuleVersionWith : Outcome NtStatus Reply :=
  let total := UInt32.ofNat (ioctlHeaderSize + Layout.ruleVersion.size)
  if c.lacks total then .ok (refuse d b statusBufferTooSmall total)
  else match (d.view 0).images with
  | none => .ok (refuse d b statusInvalidDeviceState 0)
  | some images => fixedReplyWith echo c d b (Layout.ruleVersion.encode
      ((d.view 1).version, enumCount images, (d.view 2).defaultPolicy))

def cmdEnumRulesWith : Outcome NtStatus Reply :=
  match (d.view 0).images with
  | none => .ok (refuse d b statusInvalidDeviceState 0)
  | some images =>
    let total := enumTotal (enumCount images)
    if c.lacks total then .ok (refuse d b statusBufferTooSmall total)
    else match (d.view 1).images with
    | none => .ok (refuse d b statusInvalidDeviceState 0)
    | some images => do
      let (count, overflow, b) ← enumFill c images (ioctlHeaderSize + enumHeaderSize)
        (c.outLen - UInt32.ofNat (ioctlHeaderSize + enumHeaderSize)) 0 b
      if overflow then return ⟨statusBufferTooSmall, 0, b, d.store, d.toTelemetry, []⟩
      else do
        let b ← echo b (enumTotal count)
        let b ← c.put (ioctlHeaderSize + enumCountOffset) (u32.encode count) b
        let b ← c.put (ioctlHeaderSize + enumVersionOffset) (u64.encode (d.view 2).version) b
        return ⟨statusSuccess, enumTotal count, b, d.store, d.toTelemetry, []⟩

def cmdFlushEventsWith : Outcome NtStatus Reply :=
  let fixedBytes := UInt32.ofNat (ioctlHeaderSize + Layout.flushHeader.size)
  if c.lacks fixedBytes then .ok (refuse d b statusBufferTooSmall fixedBytes)
  else do
    let count := flushCount d (flushCap c)
    let total := fixedBytes + count * UInt32.ofNat eventRecordSize
    let b ← flushRecords c d ((d.ringHead + telemetryRing - count) % telemetryRing) count.toNat 0
      fixedBytes.toNat b
    let b ← echo b total
    let b ← c.put ioctlHeaderSize
      (Layout.flushHeader.encode (count, UInt32.ofNat eventRecordSize)) b
    return ⟨statusSuccess, total, b, d.store, d.toTelemetry, []⟩

def cmdAddOrUpdateRuleWith (isUpdate : Bool) : Outcome NtStatus (NtStatus × Store) := do
  let payload ← load b
  match validateWire payload 0 (UInt32.ofNat payload.length) with
  | .fault => .fault
  | .error st => .ok (st, d.store)
  | .ok wireBytes =>
    if wireBytes.toNat ≠ payload.length then .ok (statusInvalidParameter, d.store)
    else do
      let payload ← load b
      let rule ← convertWire payload 0
      return d.store.run
        (if isUpdate then ruleStoreUpdate (some rule) else ruleStoreAdd (some rule)) d.env

def cmdDeleteRuleWith : Outcome NtStatus (NtStatus × Store) :=
  if (c.payload b).length ≠ u64.size then .ok (statusInvalidParameter, d.store)
  else do
    let payload ← load b
    let ruleId ← u64.read payload 0
    return d.store.run (ruleStoreDelete ruleId) d.env

def cmdSetDefaultPolicyWith : Outcome NtStatus (NtStatus × Store) :=
  if (c.payload b).length ≠ u32.size then .ok (statusInvalidParameter, d.store)
  else do
    let payload ← load b
    let policy ← u32.read payload 0
    if policy ≠ verdictPermit ∧ policy ≠ verdictBlock then
      return (statusInvalidParameter, d.store)
    else return d.store.run (ruleStoreSetDefaultPolicy policy) d.env

def cmdReplaceRulesetWith : Outcome NtStatus (NtStatus × Store) := do
  let payload ← load b
  cmdReplaceRuleset payload d.alloc d.env d.store

def handleWith : Command → Outcome NtStatus Reply
  | .queryCapabilities => fixedReplyWith echo c d b (Layout.capabilities.encode
      (UInt32.ofNat ruleMax, UInt32.ofNat replaceMaxBytes, 0xF, ioctlVersion.toUInt32))
  | .getRuleVersion => cmdGetRuleVersionWith echo c d b
  | .enumRules => cmdEnumRulesWith echo c d b
  | .getStats => fixedReplyWith echo c d b (ruleStatsBytes d.stats ++
      Layout.queueStats.encode (d.posted, d.consumed, d.dropped, d.overflowDropped))
  | .flushEvents => cmdFlushEventsWith echo c d b
  | .addRule => noPayload d b (cmdAddOrUpdateRuleWith load d b false)
  | .updateRule => noPayload d b (cmdAddOrUpdateRuleWith load d b true)
  | .deleteRule => noPayload d b (cmdDeleteRuleWith load c d b)
  | .replaceRuleset => noPayload d b (cmdReplaceRulesetWith load d b)
  | .setDefaultPolicy => noPayload d b (cmdSetDefaultPolicyWith load c d b)
  | .clearRules => handle c d b .clearRules

def echoIfRoomWith (r : Reply) : Outcome NtStatus Reply :=
  if ntSuccess r.status = true ∧ r.information = 0 ∧ c.out = true ∧
      UInt32.ofNat ioctlHeaderSize ≤ c.outLen then do
    let b ← echo r.buffers (UInt32.ofNat ioctlHeaderSize)
    return { r with information := UInt32.ofNat ioctlHeaderSize, buffers := b }
  else .ok r

end

/-- `SkIoctlEvtDeviceControl`, where a read of an input field faults once the field has changed. -/
def evtDeviceControlGuarded (r : Ioctl) (d : Driver) (b : Buffers) : Outcome NtStatus Reply :=
  match check r d b with
  | .fault => .fault
  | .error st => .ok (refuse d b st 0).complete
  | .ok command => do
    let echo := echoHeaderGuarded b.input r.call
    let reply ← handleWith echo (payloadGuarded b.input r.call) r.call d b command
    let reply ← echoIfRoomWith echo r.call reply
    return reply.complete

variable {c : Call} {d : Driver} {b b' b₀ : Buffers} {mem sep new : List UInt8}
  {K K' : ℕ → Prop} {off i : ℕ} {total : UInt32} {images : List RuleImage} {r : Ioctl}
  {command : Command} {a a' : Reply}
  {echo echo' : Buffers → UInt32 → Outcome NtStatus Buffers}
  {load load' : Buffers → Outcome NtStatus (List UInt8)}

/-- Without guards these are the handlers. -/
theorem handleWith_echoHeader :
    handleWith (echoHeader c) (fun b => .ok (c.payload b)) c d b command =
      handle c d b command := by
  cases command <;> rfl

theorem echoIfRoomWith_echoHeader : echoIfRoomWith (echoHeader c) c a = echoIfRoom c a := rfl

theorem readGuarded_guards {α : Type} {k : Codec α} :
    Guards (readGuarded k mem b off) (k.read b.input off) := by
  rw [readGuarded]
  split
  · exact .refl
  · exact .inl rfl

theorem echoHeaderGuarded_guards :
    Guards (echoHeaderGuarded mem c b total) (echoHeader c b total) := by
  refine Guards.refl.bind fun b => ?_
  refine Guards.refl.bind fun b => ?_
  refine readGuarded_guards.bind fun command => ?_
  refine Guards.refl.bind fun b => ?_
  refine Guards.refl.bind fun b => ?_
  exact readGuarded_guards.bind fun requestId => .refl

theorem payloadGuarded_guards : Guards (payloadGuarded mem c b) (.ok (c.payload b)) := by
  rw [payloadGuarded]
  split
  · exact .refl
  · exact .inl rfl

section
variable (hload : ∀ b, Guards (load b) (load' b))
include hload

theorem cmdAddOrUpdateRuleWith_guards {isUpdate : Bool} :
    Guards (cmdAddOrUpdateRuleWith load d b isUpdate)
      (cmdAddOrUpdateRuleWith load' d b isUpdate) := by
  refine (hload b).bind fun payload => ?_
  split
  · exact .refl
  · exact .refl
  · split
    · exact .refl
    · exact (hload b).bind fun payload => .refl

theorem cmdDeleteRuleWith_guards :
    Guards (cmdDeleteRuleWith load c d b) (cmdDeleteRuleWith load' c d b) := by
  simp only [cmdDeleteRuleWith]
  split
  · exact .refl
  · exact (hload b).bind fun payload => .refl

theorem cmdSetDefaultPolicyWith_guards :
    Guards (cmdSetDefaultPolicyWith load c d b) (cmdSetDefaultPolicyWith load' c d b) := by
  simp only [cmdSetDefaultPolicyWith]
  split
  · exact .refl
  · exact (hload b).bind fun payload => .refl

end

section
variable (hecho : ∀ b total, Guards (echo b total) (echo' b total))
include hecho

theorem fixedReplyWith_guards :
    Guards (fixedReplyWith echo c d b new) (fixedReplyWith echo' c d b new) := by
  simp only [fixedReplyWith]
  split
  · exact .refl
  · exact (hecho _ _).bind fun b => .refl

theorem handleWith_guards (hload : ∀ b, Guards (load b) (load' b)) :
    Guards (handleWith echo load c d b command) (handleWith echo' load' c d b command) := by
  cases command with
  | queryCapabilities | getStats => exact fixedReplyWith_guards hecho
  | getRuleVersion =>
    simp only [handleWith, cmdGetRuleVersionWith]
    split
    · exact .refl
    · split
      · exact .refl
      · exact fixedReplyWith_guards hecho
  | enumRules =>
    simp only [handleWith, cmdEnumRulesWith]
    split
    · exact .refl
    · split
      · exact .refl
      · split
        · exact .refl
        · refine Guards.refl.bind fun x => ?_
          split
          · exact .refl
          · exact (hecho _ _).bind fun b => .refl
  | flushEvents =>
    simp only [handleWith, cmdFlushEventsWith]
    split
    · exact .refl
    · exact Guards.refl.bind fun b => (hecho _ _).bind fun b => .refl
  | addRule | updateRule => exact (cmdAddOrUpdateRuleWith_guards hload).bind fun p => .refl
  | deleteRule => exact (cmdDeleteRuleWith_guards hload).bind fun p => .refl
  | replaceRuleset => exact ((hload b).bind fun payload => .refl).bind fun p => .refl
  | setDefaultPolicy => exact (cmdSetDefaultPolicyWith_guards hload).bind fun p => .refl
  | clearRules => exact .refl

theorem echoIfRoomWith_guards :
    Guards (echoIfRoomWith echo c a) (echoIfRoomWith echo' c a) := by
  simp only [echoIfRoomWith]
  split
  · exact (hecho _ _).bind fun b => .refl
  · exact .refl

end

/-- Guards that do not fault change nothing. -/
theorem evtDeviceControlGuarded_guards :
    Guards (evtDeviceControlGuarded r d b) (evtDeviceControl r d b) := by
  rw [evtDeviceControlGuarded, evtDeviceControl]
  cases check r d b with
  | fault => exact .refl
  | error st => exact .refl
  | ok command =>
    dsimp only
    rw [← handleWith_echoHeader]
    refine (handleWith_guards (fun _ _ => echoHeaderGuarded_guards)
      fun _ => payloadGuarded_guards).bind fun a => ?_
    rw [← echoIfRoomWith_echoHeader]
    exact (echoIfRoomWith_guards fun _ _ => echoHeaderGuarded_guards).bind fun a => .refl

/-! ### One buffer and two -/

/-- The fields of the request header that are echoed: `Command` and `RequestId`. -/
def EchoedByte (i : ℕ) : Prop :=
  hdrCommandOffset ≤ i ∧ i < hdrFlagsOffset ∨ hdrRequestIdOffset ≤ i ∧ i < ioctlHeaderSize

/-- The padding behind `Flags`. -/
def HeaderPadding (i : ℕ) : Prop := hdrFlagsOffset + 4 ≤ i ∧ i < hdrRequestIdOffset

/-- The bytes of an output that no field is in. -/
def OutputPadding (command : Command) (i : ℕ) : Prop :=
  HeaderPadding i ∨ command = .enumRules ∧
    ioctlHeaderSize + enumCountOffset + 4 ≤ i ∧ i < ioctlHeaderSize + enumVersionOffset

/-- The shared memory `mem` in one run, and apart from the output the input `sep` in the other:
what has been echoed or not yet written is as it was, and where `K` says the outputs are equal. -/
structure Aliased (c : Call) (mem sep : List UInt8) (K : ℕ → Prop) (b b' : Buffers) : Prop where
  shared : b.output = none
  intact : Agree EchoedByte mem b.input
  apart : b'.output.isSome = true
  input : b'.input = sep
  room : c.outLen.toNat ≤ b.input.length
  room' : c.outLen.toNat ≤ b'.out.length
  agree : ∀ i, K i → b.input[i]? = b'.out[i]?

theorem Aliased.mono (h : Aliased c mem sep K b b') (hK : ∀ i, K' i → K i) :
    Aliased c mem sep K' b b' :=
  { h with agree := fun i hi => h.agree i (hK i hi) }

theorem Aliased.write (h : Aliased c mem sep K b b') (hle : off + new.length ≤ c.outLen.toNat)
    (hintact : Agree EchoedByte b.input (splice b.input off new))
    (hK : ∀ i, K' i → K i ∨ off ≤ i ∧ i < off + new.length) :
    Aliased c mem sep K' (b.write off new) (b'.write off new) := by
  have hroom : off + new.length ≤ b.input.length := hle.trans h.room
  have hroom' : off + new.length ≤ b'.out.length := hle.trans h.room'
  obtain ⟨out, hout⟩ := Option.isSome_iff_exists.mp h.apart
  have hinput : (b.write off new).input = splice b.input off new := by
    rw [Buffers.write, h.shared]
  constructor
  case shared => rw [Buffers.write, h.shared]
  case intact =>
    rw [hinput]
    exact h.intact.trans hintact
  case apart => rw [Buffers.write, hout, Option.isSome_some]
  case input =>
    rw [Buffers.write, hout]
    exact h.input
  case room =>
    rw [hinput, length_splice hroom]
    exact h.room
  case room' =>
    rw [out_write, length_splice hroom']
    exact h.room'
  case agree =>
    intro i hi
    rw [hinput, out_write]
    by_cases hin : off ≤ i ∧ i < off + new.length
    · rw [getElem?_splice_of_mem hroom hin.1 hin.2, getElem?_splice_of_mem hroom' hin.1 hin.2]
    · have hne : i < off ∨ off + new.length ≤ i := by omega
      rw [getElem?_splice_of_ne hroom hne, getElem?_splice_of_ne hroom' hne]
      exact h.agree i ((hK i hi).resolve_right hin)

/-- Both runs write the same, and not into what is echoed later. -/
theorem Aliased.put (h : Aliased c mem sep K b b')
    (hoff : ∀ i, off ≤ i → i < off + new.length → ¬ EchoedByte i)
    (hK : ∀ i, K' i → K i ∨ off ≤ i ∧ i < off + new.length) :
    Related (Aliased c mem sep K') (c.put off new b) (c.put off new b') := by
  rw [Call.put, Call.put]
  split
  · rename_i hroom
    refine h.write hroom.2 ?_ hK
    refine (Agree.of_splice (hroom.2.trans h.room)).mono fun i hi => ?_
    by_contra hin
    exact hoff i (by omega) (by omega) hi
  · trivial

/-- A field that is written back. -/
theorem Aliased.put_back {α : Type} {k : Codec α} {x : α} (h : Aliased c mem sep K b b')
    (hx : (k.read b.input off : Outcome NtStatus α) = .ok x)
    (hK : ∀ i, K' i → K i ∨ off ≤ i ∧ i < off + k.size) :
    Related (Aliased c mem sep K') (c.put off (k.encode x) b) (c.put off (k.encode x) b') := by
  rw [← k.length_encode x] at hK
  rw [Call.put, Call.put]
  split
  · rename_i hroom
    refine h.write hroom.2 ?_ hK
    obtain ⟨-, hslice⟩ := read_eq_ok_iff.mp hx
    rw [splice_self (by rw [k.length_encode]; exact hslice)]
    exact ⟨rfl, fun _ _ => rfl⟩
  · trivial

/-- A field of the header as it came, in the shared memory and apart from it. -/
def SameHeader (mem sep : List UInt8) : Prop :=
  ∀ {α : Type} (k : Codec α) (off : ℕ), off + k.size ≤ ioctlHeaderSize →
    (k.read mem off : Outcome NtStatus α) = k.read sep off

/-- What is read is what came. -/
theorem Aliased.read {α : Type} {k : Codec α} (h : Aliased c mem sep K b b')
    (hmem : SameHeader mem sep) (hoff : off + k.size ≤ ioctlHeaderSize)
    (hechoed : ∀ i, off ≤ i → i < off + k.size → EchoedByte i) :
    readGuarded k mem b off = k.read b'.input off ∧
      (k.read b.input off : Outcome NtStatus α) = k.read b'.input off := by
  have hread : (k.read b.input off : Outcome NtStatus α) = k.read b'.input off := by
    rw [h.input, ← hmem k off hoff]
    exact (h.intact.read_eq hechoed).symm
  rw [readGuarded, if_pos (h.intact.slice_eq hechoed).symm]
  exact ⟨hread, hread⟩

/-- What the header consists of. -/
def HeaderField (i : ℕ) : Prop := i < ioctlHeaderSize ∧ ¬ HeaderPadding i

theorem Aliased.echoHeader (h : Aliased c mem sep K b b') (hmem : SameHeader mem sep) :
    Related (Aliased c mem sep fun i => K i ∨ HeaderField i) (echoHeaderGuarded mem c b total)
      (echoHeader c b' total) := by
  have hsize : (u32.encode total).length = 4 := u32.length_encode _
  have hversion : (u16.encode ioctlVersion).length = 2 := u16.length_encode _
  have hflags : (u32.encode 0).length = 4 := u32.length_encode _
  have hu16 : u16.size = 2 := rfl
  have hu64 : u64.size = 8 := rfl
  simp only [HeaderField, HeaderPadding, hdrFlagsOffset, hdrRequestIdOffset, ioctlHeaderSize]
  have h₁ : Related (Aliased c mem sep fun i => K i ∨ i < 4)
      (c.put hdrSizeOffset (u32.encode total) b) (c.put hdrSizeOffset (u32.encode total) b') := by
    refine h.put ?_ ?_
    · simp only [hsize, EchoedByte, hdrSizeOffset, hdrCommandOffset, hdrFlagsOffset,
        hdrRequestIdOffset, ioctlHeaderSize]
      omega
    · intro i hi
      rw [hsize, hdrSizeOffset]
      rcases hi with hi | hi
      · exact .inl hi
      · exact .inr (by omega)
  refine h₁.bind fun b b' h => ?_
  have h₂ : Related (Aliased c mem sep fun i => K i ∨ i < 6)
      (c.put hdrVersionOffset (u16.encode ioctlVersion) b)
      (c.put hdrVersionOffset (u16.encode ioctlVersion) b') := by
    refine h.put ?_ ?_
    · simp only [hversion, EchoedByte, hdrVersionOffset, hdrCommandOffset, hdrFlagsOffset,
        hdrRequestIdOffset, ioctlHeaderSize]
      omega
    · intro i hi
      rw [hversion, hdrVersionOffset]
      rcases hi with hi | hi
      · exact .inl (.inl hi)
      · omega
  refine h₂.bind fun b b' h => ?_
  obtain ⟨hguard, hread⟩ := @Aliased.read _ _ _ _ _ _ hdrCommandOffset _ u16 h hmem (by decide)
    (by simp only [EchoedByte, hu16, hdrCommandOffset, hdrFlagsOffset]; omega)
  rw [hguard]
  refine Related.refl.bind_of_ok fun command _ hcommand he => ?_
  subst he
  have h₃ : Related (Aliased c mem sep fun i => K i ∨ i < 8)
      (c.put hdrCommandOffset (u16.encode command) b)
      (c.put hdrCommandOffset (u16.encode command) b') := by
    refine h.put_back (hread.trans hcommand) fun i hi => ?_
    rw [hu16, hdrCommandOffset]
    rcases hi with hi | hi
    · exact .inl (.inl hi)
    · omega
  refine h₃.bind fun b b' h => ?_
  have h₄ : Related (Aliased c mem sep fun i => K i ∨ i < 12)
      (c.put hdrFlagsOffset (u32.encode 0) b) (c.put hdrFlagsOffset (u32.encode 0) b') := by
    refine h.put ?_ ?_
    · simp only [hflags, EchoedByte, hdrCommandOffset, hdrFlagsOffset, hdrRequestIdOffset,
        ioctlHeaderSize]
      omega
    · intro i hi
      rw [hflags, hdrFlagsOffset]
      rcases hi with hi | hi
      · exact .inl (.inl hi)
      · omega
  refine h₄.bind fun b b' h => ?_
  obtain ⟨hguard, hread⟩ := @Aliased.read _ _ _ _ _ _ hdrRequestIdOffset _ u64 h hmem (by decide)
    (by simp only [EchoedByte, hu64, hdrRequestIdOffset, ioctlHeaderSize]; omega)
  rw [hguard]
  refine Related.refl.bind_of_ok fun requestId _ hrequestId he => ?_
  subst he
  refine h.put_back (hread.trans hrequestId) fun i hi => ?_
  rw [hu64, hdrRequestIdOffset]
  rcases hi with hi | hi
  · exact .inl (.inl hi)
  · omega

/-- A write behind the header. -/
theorem Aliased.put_body (h : Aliased c mem sep K b b') (hoff : ioctlHeaderSize ≤ off)
    (hK : ∀ i, K' i → K i ∨ off ≤ i ∧ i < off + new.length) :
    Related (Aliased c mem sep K') (c.put off new b) (c.put off new b') := by
  refine h.put ?_ hK
  simp only [EchoedByte, hdrCommandOffset, hdrFlagsOffset, hdrRequestIdOffset, ioctlHeaderSize]
    at hoff ⊢
  omega

/-! ### The handlers -/

/-- The outcome of a handler in both runs: after a success the fields of the output are equal. -/
structure AliasedReply (c : Call) (mem sep : List UInt8) (command : Command) (a a' : Reply) :
    Prop where
  status : a.status = a'.status
  information : a.information = a'.information
  store : a.store = a'.store
  buffers : Aliased c mem sep (fun _ => False) a.buffers a'.buffers
  output : ntSuccess a.status = true → Aliased c mem sep
    (fun i => i < a.information.toNat ∧ ¬ OutputPadding command i) a.buffers a'.buffers

theorem AliasedReply.complete (h : AliasedReply c mem sep command a a') :
    AliasedReply c mem sep command a.complete a'.complete :=
  ⟨h.status, h.information, h.store, h.buffers, h.output⟩

/-- A handler that fails before it has written a field. -/
theorem Aliased.refuse {st : NtStatus} (h : Aliased c mem sep K b b')
    (hst : ntSuccess st = false) :
    AliasedReply c mem sep command (refuse d b st total) (refuse d b' st total) :=
  ⟨rfl, rfl, rfl, h.mono fun _ => False.elim,
    fun hs => absurd (hst.symm.trans hs) Bool.false_ne_true⟩

theorem Aliased.fixedReply (h : Aliased c mem sep K b b') (hmem : SameHeader mem sep) :
    Related (AliasedReply c mem sep command) (fixedReplyWith (echoHeaderGuarded mem c) c d b new)
      (fixedReply c d b' new) := by
  simp only [fixedReplyWith, Control.fixedReply]
  split
  · exact h.refuse rfl
  refine (h.echoHeader hmem).bind fun b b' h => ?_
  have hput : Related (Aliased c mem sep fun i =>
      i < ioctlHeaderSize + new.length ∧ ¬ HeaderPadding i)
      (c.put ioctlHeaderSize new b) (c.put ioctlHeaderSize new b') := by
    refine h.put_body le_rfl fun i hi => ?_
    by_cases hlt : i < ioctlHeaderSize
    · exact .inl (.inr ⟨hlt, hi.2⟩)
    · exact .inr ⟨Nat.le_of_not_lt hlt, hi.1⟩
  refine hput.bind fun b b' h => ?_
  refine ⟨rfl, rfl, rfl, h.mono fun _ => False.elim, fun _ => h.mono fun i hi => ⟨?_, ?_⟩⟩
  · have hlt := hi.1
    rw [UInt32.toNat_ofNat'] at hlt
    exact hlt.trans_le (Nat.mod_le _ _)
  · exact fun hp => hi.2 (.inl hp)

theorem cmdGetRuleVersion_aliased (h : Aliased c mem sep K b b') (hmem : SameHeader mem sep) :
    Related (AliasedReply c mem sep command)
      (cmdGetRuleVersionWith (echoHeaderGuarded mem c) c d b) (cmdGetRuleVersion c d b') := by
  simp only [cmdGetRuleVersionWith, cmdGetRuleVersion]
  split
  · exact h.refuse rfl
  cases (d.view 0).images with
  | none => exact h.refuse rfl
  | some images => exact h.fixedReply hmem

/-- The wires go behind the header. -/
theorem enumFill_aliased {cursor : ℕ} {remaining count : UInt32} (h : Aliased c mem sep K b b')
    (hcursor : ioctlHeaderSize ≤ cursor) :
    Related (fun x x' => x.1 = x'.1 ∧ x.2.1 = x'.2.1 ∧ ∃ m : ℕ, x.1 = count + UInt32.ofNat m ∧
      Aliased c mem sep (fun i => K i ∨ cursor ≤ i ∧ i < cursor + m * ruleWireSize) x.2.2 x'.2.2)
      (enumFill c images cursor remaining count b)
      (enumFill c images cursor remaining count b') := by
  have hstop : ∀ {K} {b b' : Buffers} {cursor : ℕ} {count : UInt32}, Aliased c mem sep K b b' →
      ∃ m : ℕ, count = count + UInt32.ofNat m ∧
        Aliased c mem sep (fun i => K i ∨ cursor ≤ i ∧ i < cursor + m * ruleWireSize) b b' := by
    intro K b b' cursor count h
    refine ⟨0, (UInt32.add_zero count).symm, h.mono fun i hi => hi.resolve_right ?_⟩
    rw [Nat.zero_mul]
    omega
  induction images generalizing K b b' cursor remaining count with
  | nil => exact ⟨rfl, rfl, hstop h⟩
  | cons m images ih =>
    rw [enumFill, enumFill]
    split
    · exact ⟨rfl, rfl, hstop h⟩
    have hrule : (Layout.rule.encode m).length = pathCharsOffset := Layout.rule.length_encode m
    have h₁ : Related (Aliased c mem sep fun i => K i ∨ cursor ≤ i ∧ i < cursor + pathCharsOffset)
        (c.put cursor (Layout.rule.encode m) b) (c.put cursor (Layout.rule.encode m) b') :=
      h.put_body hcursor fun i hi => by rwa [hrule]
    refine h₁.bind fun b b' h => ?_
    have h₂ : Related (Aliased c mem sep fun i => K i ∨ cursor ≤ i ∧ i < cursor + pathOffsetOffset)
        (c.put (cursor + pathCharsOffset) (u32.encode 0) b)
        (c.put (cursor + pathCharsOffset) (u32.encode 0) b') :=
      h.put_body (Nat.le_add_right_of_le hcursor) (range_append rfl)
    refine h₂.bind fun b b' h => ?_
    have h₃ : Related (Aliased c mem sep fun i => K i ∨ cursor ≤ i ∧ i < cursor + ruleWireSize)
        (c.put (cursor + pathOffsetOffset) (u32.encode 0) b)
        (c.put (cursor + pathOffsetOffset) (u32.encode 0) b') :=
      h.put_body (Nat.le_add_right_of_le hcursor) (range_append rfl)
    refine h₃.bind fun b b' h => (ih h (Nat.le_add_right_of_le hcursor)).mono fun x x' hx => ?_
    obtain ⟨hn, ho, n, hcount, hk⟩ := hx
    refine ⟨hn, ho, n + 1, ?_, hk.mono fun i hi => ?_⟩
    · rw [hcount, UInt32.ofNat_add, UInt32.add_assoc, UInt32.add_comm (UInt32.ofNat n)]
      rfl
    · exact range_append ((Nat.succ_mul n _).trans (Nat.add_comm _ _)) i hi

/-- The bytes of a reply with `m` rules, without the padding. -/
theorem enum_fields {m : ℕ} (hi : i < ioctlHeaderSize + enumHeaderSize + m * ruleWireSize)
    (hpad : ¬ OutputPadding .enumRules i) :
    (((False ∨ ioctlHeaderSize + enumHeaderSize ≤ i ∧
      i < ioctlHeaderSize + enumHeaderSize + m * ruleWireSize) ∨ HeaderField i) ∨
      ioctlHeaderSize + enumCountOffset ≤ i ∧ i < ioctlHeaderSize + enumCountOffset + 4) ∨
      ioctlHeaderSize + enumVersionOffset ≤ i ∧ i < ioctlHeaderSize + enumVersionOffset + 8 := by
  simp only [OutputPadding, HeaderField, HeaderPadding, true_and, not_or, not_and, not_lt,
    ioctlHeaderSize, enumHeaderSize, enumCountOffset, enumVersionOffset, hdrFlagsOffset,
    hdrRequestIdOffset] at hi hpad ⊢
  omega

theorem cmdEnumRules_aliased (h : Aliased c mem sep (fun _ => False) b b')
    (hmem : SameHeader mem sep) :
    Related (AliasedReply c mem sep .enumRules)
      (cmdEnumRulesWith (echoHeaderGuarded mem c) c d b) (cmdEnumRules c d b') := by
  rw [cmdEnumRulesWith, cmdEnumRules]
  cases (d.view 0).images with
  | none => exact h.refuse rfl
  | some counted =>
    dsimp only
    split
    · exact h.refuse rfl
    cases (d.view 1).images with
    | none => exact h.refuse rfl
    | some filled =>
      refine (enumFill_aliased h (by decide)).bind fun x x' hxx => ?_
      obtain ⟨n, overflow, b⟩ := x
      obtain ⟨n', overflow', b'⟩ := x'
      obtain ⟨rfl, rfl, m, hcount, h⟩ := hxx
      cases overflow with
      | true => exact (h.mono fun _ => False.elim).refuse rfl
      | false =>
        rw [UInt32.zero_add] at hcount
        subst hcount
        refine (h.echoHeader hmem).bind fun b b' h => ?_
        have hcount : Related (Aliased c mem sep _)
            (c.put (ioctlHeaderSize + enumCountOffset) (u32.encode (UInt32.ofNat m)) b)
            (c.put (ioctlHeaderSize + enumCountOffset) (u32.encode (UInt32.ofNat m)) b') :=
          h.put_body (by decide) fun i hi => hi
        refine hcount.bind fun b b' h => ?_
        have hversion : Related (Aliased c mem sep _)
            (c.put (ioctlHeaderSize + enumVersionOffset) (u64.encode (d.view 2).version) b)
            (c.put (ioctlHeaderSize + enumVersionOffset) (u64.encode (d.view 2).version) b') :=
          h.put_body (by decide) fun i hi => hi
        refine hversion.bind fun b b' h => ?_
        refine ⟨rfl, rfl, rfl, h.mono fun _ => False.elim, fun _ => h.mono fun i hi => ?_⟩
        rw [u32.length_encode, u64.length_encode]
        have hm : (UInt32.ofNat m).toNat ≤ m := by
          rw [UInt32.toNat_ofNat']
          exact Nat.mod_le _ _
        refine enum_fields (hi.1.trans_le ((toNat_add_mul_le _ _ _).trans ?_)) hi.2
        exact Nat.add_le_add_left (Nat.mul_le_mul_right _ hm) _

theorem flushRecords_aliased {start : UInt32} {n cursor : ℕ} (h : Aliased c mem sep K b b')
    (hcursor : ioctlHeaderSize ≤ cursor) :
    Related (Aliased c mem sep fun i => K i ∨ cursor ≤ i ∧ i < cursor + n * eventRecordSize)
      (flushRecords c d start n off cursor b) (flushRecords c d start n off cursor b') := by
  induction n generalizing K b b' off cursor with
  | zero =>
    refine h.mono fun i hi => hi.resolve_right ?_
    rw [Nat.zero_mul]
    omega
  | succ n ih =>
    let record := (d.ring ((start + UInt32.ofNat off) % telemetryRing).toNat).toList
    have hput : Related (Aliased c mem sep fun i => K i ∨ cursor ≤ i ∧ i < cursor + eventRecordSize)
        (c.put cursor record b) (c.put cursor record b') :=
      h.put_body hcursor fun i hi => by rwa [Vector.length_toList]
    refine hput.bind fun b b' h => ?_
    refine (ih h (Nat.le_add_right_of_le hcursor)).mono fun b b' h => h.mono fun i hi => ?_
    exact range_append ((Nat.succ_mul _ _).trans (Nat.add_comm _ _)) i hi

theorem cmdFlushEvents_aliased (h : Aliased c mem sep (fun _ => False) b b')
    (hmem : SameHeader mem sep) :
    Related (AliasedReply c mem sep command) (cmdFlushEventsWith (echoHeaderGuarded mem c) c d b)
      (cmdFlushEvents c d b') := by
  simp only [cmdFlushEventsWith, cmdFlushEvents]
  split
  · exact h.refuse rfl
  generalize flushCount d (flushCap c) = count
  refine (flushRecords_aliased h (by decide)).bind fun b b' h => ?_
  refine (h.echoHeader hmem).bind fun b b' h => ?_
  let bytes := Layout.flushHeader.encode (count, UInt32.ofNat eventRecordSize)
  have hlen : bytes.length = Layout.flushHeader.size := Layout.flushHeader.length_encode _
  have hput : Related (Aliased c mem sep fun i =>
      i < ioctlHeaderSize + Layout.flushHeader.size + count.toNat * eventRecordSize ∧
        ¬ HeaderPadding i)
      (c.put ioctlHeaderSize bytes b) (c.put ioctlHeaderSize bytes b') := by
    refine h.put_body le_rfl fun i hi => ?_
    have hfixed : (UInt32.ofNat (ioctlHeaderSize + Layout.flushHeader.size)).toNat =
      ioctlHeaderSize + Layout.flushHeader.size := rfl
    rw [hlen, hfixed]
    by_cases hlt : i < ioctlHeaderSize
    · exact .inl (.inr ⟨hlt, hi.2⟩)
    · by_cases hbody : i < ioctlHeaderSize + Layout.flushHeader.size
      · exact .inr ⟨Nat.le_of_not_lt hlt, hbody⟩
      · exact .inl (.inl (.inr ⟨Nat.le_of_not_lt hbody, hi.1⟩))
  refine hput.bind fun b b' h => ?_
  refine ⟨rfl, rfl, rfl, h.mono fun _ => False.elim, fun _ => h.mono fun i hi => ⟨?_, ?_⟩⟩
  · exact hi.1.trans_le (toNat_add_mul_le _ count _)
  · exact fun hp => hi.2 (.inl hp)

theorem noPayload_aliased {x : Outcome NtStatus (NtStatus × Store)}
    (h : Aliased c mem sep (fun _ => False) b b') :
    Related (AliasedReply c mem sep command) (noPayload d b x) (noPayload d b' x) := by
  refine Related.refl.bind fun p p' hp => ?_
  subst hp
  exact ⟨rfl, rfl, rfl, h, fun _ => h.mono fun i hi => absurd hi.1 (Nat.not_lt_zero i)⟩

/-- Before anything has been written, both runs read the same payload. -/
structure SamePayload (c : Call) (mem : List UInt8) (b b' : Buffers) : Prop where
  came : c.payload b = c.payload ⟨mem, none⟩
  same : c.payload b = c.payload b'

theorem SamePayload.loaded (h : SamePayload c mem b b') :
    payloadGuarded mem c b = .ok (c.payload b') := by
  rw [payloadGuarded, if_pos h.came, h.same]

theorem handle_aliased (h : Aliased c mem sep (fun _ => False) b b')
    (hmem : SameHeader mem sep) (hp : SamePayload c mem b b') :
    Related (AliasedReply c mem sep command)
      (handleWith (echoHeaderGuarded mem c) (payloadGuarded mem c) c d b command)
      (handle c d b' command) := by
  cases command with
  | queryCapabilities | getStats => exact h.fixedReply hmem
  | getRuleVersion => exact cmdGetRuleVersion_aliased h hmem
  | enumRules => exact cmdEnumRules_aliased h hmem
  | flushEvents => exact cmdFlushEvents_aliased h hmem
  | addRule | updateRule =>
    simp only [handleWith, handle, cmdAddOrUpdateRuleWith, cmdAddOrUpdateRule, hp.loaded,
      Outcome.ok_bind]
    exact noPayload_aliased h
  | deleteRule =>
    simp only [handleWith, handle, cmdDeleteRuleWith, cmdDeleteRule, hp.loaded, hp.same,
      Outcome.ok_bind]
    exact noPayload_aliased h
  | replaceRuleset =>
    simp only [handleWith, handle, cmdReplaceRulesetWith, hp.loaded, Outcome.ok_bind]
    exact noPayload_aliased h
  | setDefaultPolicy =>
    simp only [handleWith, handle, cmdSetDefaultPolicyWith, cmdSetDefaultPolicy, hp.loaded, hp.same,
      Outcome.ok_bind]
    exact noPayload_aliased h
  | clearRules => exact noPayload_aliased h

theorem echoIfRoom_aliased (h : AliasedReply c mem sep command a a')
    (hmem : SameHeader mem sep) :
    Related (AliasedReply c mem sep command) (echoIfRoomWith (echoHeaderGuarded mem c) c a)
      (echoIfRoom c a') := by
  rw [echoIfRoomWith, echoIfRoom, ← h.status, ← h.information]
  split
  · refine (h.buffers.echoHeader hmem).bind fun b b' hb => ?_
    refine ⟨rfl, rfl, h.store, hb.mono fun _ => False.elim, fun _ => hb.mono fun i hi => ?_⟩
    exact .inr ⟨hi.1, fun hp => hi.2 (.inl hp)⟩
  · exact h

/-! ### The request -/

/-- The checks depend on the input only. -/
theorem check_loaded (h : r.input <+: b.input) : check r d b = check r d ⟨r.input, none⟩ := by
  obtain ⟨rest, hrest⟩ := h
  rw [← check_buffered r d rest, Ioctl.buffered, hrest]
  rfl

theorem sameHeader_loaded (h : r.input <+: mem) (h' : r.input <+: sep)
    (hlen : ioctlHeaderSize ≤ r.input.length) : SameHeader mem sep := by
  intro α k off hoff
  obtain ⟨rest, rfl⟩ := h
  obtain ⟨rest', rfl⟩ := h'
  rw [read_append_of_le (hoff.trans hlen), read_append_of_le (hoff.trans hlen)]

/-- With one buffer for input and output a request comes to the same status, Information and store
as with two, and after a success to the same fields; and no read of an input field comes after a
write that has changed it. -/
theorem aliasing_harmless (r : Ioctl) (d : Driver) (b b' : Buffers) (h : r.Loaded b)
    (h' : r.Loaded b') (hshared : b.output = none) (hapart : b'.output.isSome = true) :
    ∃ a a', evtDeviceControl r d b = .ok a ∧ evtDeviceControl r d b' = .ok a' ∧
      a.status = a'.status ∧ a.information = a'.information ∧ a.store = a'.store ∧
      (∀ command, check r d b = .ok command → ntSuccess a.status = true →
        ∀ i < a.information.toNat, ¬ OutputPadding command i →
          a.buffers.out[i]? = a'.buffers.out[i]?) ∧
      evtDeviceControlGuarded r d b = .ok a := by
  obtain ⟨a', ha', -⟩ := @evtDeviceControl_served d b' r h'
  have hcheck := check_loaded (d := d) h.input
  have hcheck' := check_loaded (d := d) h'.input
  cases hc : check r d ⟨r.input, none⟩ with
  | fault =>
    rw [evtDeviceControl, hcheck', hc] at ha'
    cases ha'
  | error st =>
    refine ⟨(refuse d b st 0).complete, (refuse d b' st 0).complete, ?_, ?_, rfl, rfl, rfl, ?_, ?_⟩
    · rw [evtDeviceControl, hcheck, hc]
    · rw [evtDeviceControl, hcheck', hc]
    · intro command hok
      rw [hcheck, hc] at hok
      cases hok
    · rw [evtDeviceControlGuarded, hcheck, hc]
  | ok command =>
    have hlen := check_length hc
    have hstart : Aliased r.call b.input b'.input (fun _ => False) b b' := by
      refine ⟨hshared, ⟨rfl, fun _ _ => rfl⟩, hapart, rfl, ?_, ?_, fun _ => False.elim⟩
      · have hout := h.output
        rw [Buffers.out, hshared, Option.getD_none] at hout
        rw [toNat_call_outLen]
        exact (min_le_left _ _).trans hout
      · rw [toNat_call_outLen]
        exact (min_le_left _ _).trans h'.output
    have hmem : SameHeader b.input b'.input := sameHeader_loaded h.input h'.input hlen
    have hpay : SamePayload r.call b.input b b' :=
      ⟨rfl, (call_payload hc h.input).trans (call_payload hc h'.input).symm⟩
    have hrel : Related (AliasedReply r.call b.input b'.input command)
        (evtDeviceControlGuarded r d b) (evtDeviceControl r d b') := by
      rw [evtDeviceControlGuarded, evtDeviceControl, hcheck, hcheck', hc]
      refine (handle_aliased hstart hmem hpay).bind fun a a' ha => ?_
      exact (echoIfRoom_aliased ha hmem).bind fun a a' ha => ha.complete
    rw [ha'] at hrel
    cases ha : evtDeviceControlGuarded r d b with
    | fault =>
      rw [ha] at hrel
      exact hrel.elim
    | error st =>
      rw [ha] at hrel
      exact hrel.elim
    | ok a =>
      rw [ha] at hrel
      refine ⟨a, a', evtDeviceControlGuarded_guards.eq_ok ha, ha', hrel.status,
        hrel.information, hrel.store, ?_, rfl⟩
      intro command' hok hs i hi hpad
      rw [hcheck, hc] at hok
      cases hok
      have hout : a.buffers.out = a.buffers.input := by
        rw [Buffers.out, hrel.buffers.shared, Option.getD_none]
      rw [hout]
      exact (hrel.output hs).agree i ⟨hi, hpad⟩

/-- `IOCTL_SHINKEN_ADD_RULE` with `portRule`, through a handle with the privilege. -/
def addRequest : Ioctl where
  ioControlCode := 0x9C402008
  paramsCode := 0x9C402008
  context := some true
  input := u32.encode 208 ++ u16.encode 1 ++ u16.encode 2 ++ u32.encode 0 ++ u32.encode 0 ++
    u64.encode 0 ++ Layout.rule.encode ⟨portRule, .replicate 2 0, .replicate 4 0⟩ ++
    u32.encode 0 ++ u32.encode 0
  outLen := 24
  inStatus := statusSuccess
  outStatus := statusSuccess
  outNull := false

theorem addRequest_loaded : addRequest.Loaded ⟨addRequest.input, none⟩ :=
  ⟨List.prefix_rfl, by decide +kernel⟩

theorem addRequest_adds : (evtDeviceControl addRequest emptyDriver ⟨addRequest.input, none⟩).Returns
    fun a => a.status = statusSuccess ∧ a.store.current.rules = [portRule] := by
  have hpass : (evtDeviceControl addRequest emptyDriver ⟨addRequest.input, none⟩).passes
      fun a => a.status = statusSuccess ∧ a.store.current.rules = [portRule] := by
    decide +kernel
  exact (Outcome.Returns.of_passes hpass).mono fun a ha => of_decide_eq_true ha

theorem aliasing_harmless_addRequest : ∃ a a',
    evtDeviceControl addRequest emptyDriver ⟨addRequest.input, none⟩ = .ok a ∧
      evtDeviceControl addRequest emptyDriver ⟨addRequest.input, some (.replicate 24 7)⟩ =
        .ok a' ∧ a.status = statusSuccess ∧ a'.status = statusSuccess ∧
      a'.store.current.rules = [portRule] ∧
      evtDeviceControlGuarded addRequest emptyDriver ⟨addRequest.input, none⟩ = .ok a := by
  have hloaded' : addRequest.Loaded ⟨addRequest.input, some (.replicate 24 7)⟩ :=
    ⟨List.prefix_rfl, by decide⟩
  obtain ⟨a, a', ha, ha', hst, -, hstore, -, hguarded⟩ :=
    aliasing_harmless addRequest emptyDriver _ _ addRequest_loaded hloaded' rfl rfl
  obtain ⟨a₁, ha₁, hok, hrules⟩ := addRequest_adds
  obtain rfl := Outcome.ok.inj (ha₁.symm.trans ha)
  exact ⟨a₁, a', ha, ha', hok, hst ▸ hok, hstore ▸ hrules, hguarded⟩

end Sentinel.Control
