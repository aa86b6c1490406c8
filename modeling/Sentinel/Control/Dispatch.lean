import Sentinel.Control.Replace
import Sentinel.General.TwoRuns
import Sentinel.Rules.Engine

/-! `SkIoctlEvtDeviceControl` and its command handlers, on the bytes of the system buffer. -/
namespace Sentinel.Control

open Bytes Codec TwoRuns

/-- `SK_IOCTL_COMMAND`. -/
inductive Command where
  | queryCapabilities
  | getRuleVersion
  | addRule
  | updateRule
  | deleteRule
  | enumRules
  | replaceRuleset
  | clearRules
  | setDefaultPolicy
  | getStats
  | flushEvents
  deriving DecidableEq

/-- `none` from `SkCmdMax` on. -/
def Command.ofCode : UInt16 → Option Command
  | 0 => some .queryCapabilities
  | 1 => some .getRuleVersion
  | 2 => some .addRule
  | 3 => some .updateRule
  | 4 => some .deleteRule
  | 5 => some .enumRules
  | 6 => some .replaceRuleset
  | 7 => some .clearRules
  | 8 => some .setDefaultPolicy
  | 9 => some .getStats
  | 10 => some .flushEvents
  | _ => none

/-- `skIsModifyCommand`. -/
def Command.isModify : Command → Bool
  | .addRule | .updateRule | .deleteRule | .replaceRuleset | .clearRules | .setDefaultPolicy =>
    true
  | .queryCapabilities | .getRuleVersion | .enumRules | .getStats | .flushEvents => false

/-- What a read of the store sees: the rules as they stand in memory (`none` if it is closed),
the version and the default policy. A snapshot never has too many rules. -/
structure View where
  images : Option (List RuleImage)
  version : UInt64
  defaultPolicy : UInt32
  bound : ∀ l, images = some l → l.length ≤ ruleMax

/-- The statistics, the counters of the event queue and the telemetry ring. -/
structure Telemetry where
  stats : RuleStats
  posted : UInt64
  consumed : UInt64
  dropped : UInt64
  overflowDropped : UInt64
  ring : ℕ → Vector UInt8 eventRecordSize
  ringHead : UInt32
  ringTotal : UInt64

/-- What a request meets. The reads of one request see `view 0`, `view 1`, `view 2`. -/
structure Driver extends Telemetry where
  gateOpen : Bool
  active : Bool
  view : ℕ → View
  store : Store
  env : Env
  alloc : Bool

/-- What a request brings along, its handle context (`none` without one) and what WDF answers. -/
structure Ioctl where
  ioControlCode : UInt32
  paramsCode : UInt32
  context : Option Bool
  input : List UInt8
  outLen : ℕ
  inStatus : NtStatus
  outStatus : NtStatus
  outNull : Bool

/-- The memory behind the input and the output pointer; `none` if it is the same. -/
structure Buffers where
  input : List UInt8
  output : Option (List UInt8)

namespace Buffers

/-- The memory behind the output pointer. -/
def out (b : Buffers) : List UInt8 := b.output.getD b.input

def write (b : Buffers) (off : ℕ) (new : List UInt8) : Buffers :=
  match b.output with
  | none => { b with input := splice b.input off new }
  | some out => { b with output := some (splice out off new) }

end Buffers

/-- `SK_IOCTL_CALL`. The payload begins behind the header of the input. -/
structure Call where
  payloadLen : UInt32
  out : Bool
  outLen : UInt32

/-- What a read of `c->payload` finds in memory. -/
def Call.payload (c : Call) (b : Buffers) : List UInt8 :=
  (b.input.drop ioctlHeaderSize).take c.payloadLen.toNat

/-- A write through `c->out`; one past its end is a fault. -/
def Call.put (c : Call) (off : ℕ) (new : List UInt8) (b : Buffers) : Outcome NtStatus Buffers :=
  if c.out ∧ off + new.length ≤ c.outLen.toNat then .ok (b.write off new) else .fault

/-- What a call of `skComplete` hands over, with the bytes that the caller gets. -/
structure Completion where
  status : NtStatus
  information : UInt32
  output : List UInt8
  deriving DecidableEq

/-- What the request has come to, and how often it has been completed so far. -/
structure Reply where
  status : NtStatus
  information : UInt32
  buffers : Buffers
  store : Store
  telemetry : Telemetry
  completions : List Completion

/-- The bytes the caller gets. -/
def Reply.output (a : Reply) : List UInt8 := a.buffers.out.take a.information.toNat

/-- `skComplete`. -/
def Reply.complete (a : Reply) : Reply :=
  { a with completions := a.completions ++ [⟨a.status, a.information, a.output⟩] }

variable (c : Call) (d : Driver) (b : Buffers)

/-- `skEchoHeader`. -/
def echoHeader (totalBytes : UInt32) : Outcome NtStatus Buffers := do
  let b ← c.put hdrSizeOffset (u32.encode totalBytes) b
  let b ← c.put hdrVersionOffset (u16.encode ioctlVersion) b
  let command ← u16.read b.input hdrCommandOffset
  let b ← c.put hdrCommandOffset (u16.encode command) b
  let b ← c.put hdrFlagsOffset (u32.encode 0) b
  let requestId ← u64.read b.input hdrRequestIdOffset
  c.put hdrRequestIdOffset (u64.encode requestId) b

/-- `!c->out || c->outLen < total`. -/
def Call.lacks (total : UInt32) : Prop := c.out = false ∨ c.outLen < total

instance (total : UInt32) : Decidable (c.lacks total) := inferInstanceAs (Decidable (_ ∨ _))

/-- A handler that fails before it writes. -/
def refuse (status : NtStatus) (information : UInt32) : Reply :=
  ⟨status, information, b, d.store, d.toTelemetry, []⟩

/-- The fixed part of an output: the echoed header and `bytes` after it. -/
def fixedReply (bytes : List UInt8) : Outcome NtStatus Reply :=
  let total := UInt32.ofNat (ioctlHeaderSize + bytes.length)
  if c.lacks total then .ok (refuse d b statusBufferTooSmall total)
  else do
    let b ← echoHeader c b total
    let b ← c.put ioctlHeaderSize bytes b
    return ⟨statusSuccess, total, b, d.store, d.toTelemetry, []⟩

/-- `skCmdQueryCapabilities`. -/
def cmdQueryCapabilities : Outcome NtStatus Reply :=
  fixedReply c d b (Layout.capabilities.encode
    (UInt32.ofNat ruleMax, UInt32.ofNat replaceMaxBytes, 0xF, ioctlVersion.toUInt32))

/-- `SkRuleStoreEnum` with `skEnumCountCb`. -/
def enumCount (images : List RuleImage) : UInt32 := images.foldl (fun n _ => n + 1) 0

/-- `skCmdGetRuleVersion`: the length is checked before the rules are counted. -/
def cmdGetRuleVersion : Outcome NtStatus Reply :=
  let total := UInt32.ofNat (ioctlHeaderSize + Layout.ruleVersion.size)
  if c.lacks total then .ok (refuse d b statusBufferTooSmall total)
  else match (d.view 0).images with
  | none => .ok (refuse d b statusInvalidDeviceState 0)
  | some images => fixedReply c d b (Layout.ruleVersion.encode
      ((d.view 1).version, enumCount images, (d.view 2).defaultPolicy))

/-- `skCmdAddOrUpdateRule`. -/
def cmdAddOrUpdateRule (isUpdate : Bool) : Outcome NtStatus (NtStatus × Store) :=
  match validateWire (c.payload b) 0 (UInt32.ofNat (c.payload b).length) with
  | .fault => .fault
  | .error st => .ok (st, d.store)
  | .ok wireBytes =>
    if wireBytes.toNat ≠ (c.payload b).length then .ok (statusInvalidParameter, d.store)
    else do
      let rule ← convertWire (c.payload b) 0
      return d.store.run
        (if isUpdate then ruleStoreUpdate (some rule) else ruleStoreAdd (some rule)) d.env

/-- `skCmdDeleteRule`. -/
def cmdDeleteRule : Outcome NtStatus (NtStatus × Store) :=
  if (c.payload b).length ≠ u64.size then .ok (statusInvalidParameter, d.store)
  else do
    let ruleId ← u64.read (c.payload b) 0
    return d.store.run (ruleStoreDelete ruleId) d.env

/-- `SkRuleStoreEnum` with `skEnumFillCb`: the count and whether a rule did not fit. -/
def enumFill : List RuleImage → ℕ → UInt32 → UInt32 → Buffers →
    Outcome NtStatus (UInt32 × Bool × Buffers)
  | [], _, _, count, b => .ok (count, false, b)
  | image :: images, cursor, remaining, count, b =>
    if remaining < UInt32.ofNat ruleWireSize then .ok (count, true, b)
    else do
      let b ← c.put cursor (Layout.rule.encode image) b
      let b ← c.put (cursor + pathCharsOffset) (u32.encode 0) b
      let b ← c.put (cursor + pathOffsetOffset) (u32.encode 0) b
      enumFill images (cursor + ruleWireSize) (remaining - UInt32.ofNat ruleWireSize) (count + 1) b

/-- The bytes of a reply with so many rules. -/
def enumTotal (count : UInt32) : UInt32 :=
  UInt32.ofNat (ioctlHeaderSize + enumHeaderSize) + count * UInt32.ofNat ruleWireSize

/-- `skCmdEnumRules`. -/
def cmdEnumRules : Outcome NtStatus Reply :=
  match (d.view 0).images with
  | none => .ok (refuse d b statusInvalidDeviceState 0)
  | some images =>
    let total := enumTotal (enumCount images)
    if c.lacks total then .ok (refuse d b statusBufferTooSmall total)
    else match (d.view 1).images with
    | none => .ok (refuse d b statusInvalidDeviceState 0)
    | some images => do
      let (count, overflow, b) ← enumFill c images (ioctlHeaderSize + enumHeaderSize)
        (c.outLen - UInt32.ofNat (ioctlHeaderSize + enumHeaderSize)) 0 b
      if overflow then return ⟨statusBufferTooSmall, 0, b, d.store, d.toTelemetry, []⟩
      else do
        let b ← echoHeader c b (enumTotal count)
        let b ← c.put (ioctlHeaderSize + enumCountOffset) (u32.encode count) b
        let b ← c.put (ioctlHeaderSize + enumVersionOffset) (u64.encode (d.view 2).version) b
        return ⟨statusSuccess, enumTotal count, b, d.store, d.toTelemetry, []⟩

/-- `skCmdSetDefaultPolicy`. -/
def cmdSetDefaultPolicy : Outcome NtStatus (NtStatus × Store) :=
  if (c.payload b).length ≠ u32.size then .ok (statusInvalidParameter, d.store)
  else do
    let policy ← u32.read (c.payload b) 0
    if policy ≠ verdictPermit ∧ policy ≠ verdictBlock then
      return (statusInvalidParameter, d.store)
    else return d.store.run (ruleStoreSetDefaultPolicy policy) d.env

/-- `SK_RULE_STATS` in the order of its fields. -/
def ruleStatsBytes (s : RuleStats) : List UInt8 :=
  Layout.ruleStats.encode (s.classifyCalls, s.verdictPermit, s.verdictBlock, s.verdictAudit,
    s.rateLimited, s.ruleHits, s.defaultHits, s.matchNsTotal, s.matchNsMax, s.matchNsSamples)

/-- `skCmdGetStats`. -/
def cmdGetStats : Outcome NtStatus Reply :=
  fixedReply c d b (ruleStatsBytes d.stats ++
    Layout.queueStats.encode (d.posted, d.consumed, d.dropped, d.overflowDropped))

/-- `SK_TELEMETRY_RING`. -/
def telemetryRing : UInt32 := 1024

/-- The copies of `SkTelemetryFlush`, `n` records from the index `start` on. -/
def flushRecords (start : UInt32) : ℕ → ℕ → ℕ → Buffers → Outcome NtStatus Buffers
  | 0, _, _, b => .ok b
  | n + 1, i, cursor, b => do
    let b ← c.put cursor (d.ring ((start + UInt32.ofNat i) % telemetryRing).toNat).toList b
    flushRecords start n (i + 1) (cursor + eventRecordSize) b

/-- How many records `SkTelemetryFlush` copies. -/
def flushCount (maxRecords : UInt32) : UInt32 :=
  let avail := if d.ringTotal < telemetryRing.toUInt64 then d.ringTotal.toUInt32 else telemetryRing
  if avail < maxRecords then avail else maxRecords

/-- The number of records that fit. -/
def flushCap : UInt32 :=
  let cap := (c.outLen - UInt32.ofNat (ioctlHeaderSize + Layout.flushHeader.size)) /
    UInt32.ofNat eventRecordSize
  if UInt32.ofNat flushMaxEvents < cap then UInt32.ofNat flushMaxEvents else cap

/-- `skCmdFlushEvents`. -/
def cmdFlushEvents : Outcome NtStatus Reply :=
  let fixedBytes := UInt32.ofNat (ioctlHeaderSize + Layout.flushHeader.size)
  if c.lacks fixedBytes then .ok (refuse d b statusBufferTooSmall fixedBytes)
  else do
    let count := flushCount d (flushCap c)
    let total := fixedBytes + count * UInt32.ofNat eventRecordSize
    let b ← flushRecords c d ((d.ringHead + telemetryRing - count) % telemetryRing) count.toNat 0
      fixedBytes.toNat b
    let b ← echoHeader c b total
    let b ← c.put ioctlHeaderSize
      (Layout.flushHeader.encode (count, UInt32.ofNat eventRecordSize)) b
    return ⟨statusSuccess, total, b, d.store, d.toTelemetry, []⟩

/-- A command without an output payload. -/
def noPayload (x : Outcome NtStatus (NtStatus × Store)) : Outcome NtStatus Reply := do
  let (status, store) ← x
  return ⟨status, 0, b, store, d.toTelemetry, []⟩

/-- The switch of `SkIoctlEvtDeviceControl`. -/
def handle : Command → Outcome NtStatus Reply
  | .queryCapabilities => cmdQueryCapabilities c d b
  | .getRuleVersion => cmdGetRuleVersion c d b
  | .addRule => noPayload d b (cmdAddOrUpdateRule c d b false)
  | .updateRule => noPayload d b (cmdAddOrUpdateRule c d b true)
  | .deleteRule => noPayload d b (cmdDeleteRule c d b)
  | .enumRules => cmdEnumRules c d b
  | .replaceRuleset => noPayload d b (cmdReplaceRuleset (c.payload b) d.alloc d.env d.store)
  | .clearRules => noPayload d b (.ok (d.store.run ruleStoreClear d.env))
  | .setDefaultPolicy => noPayload d b (cmdSetDefaultPolicy c d b)
  | .getStats => cmdGetStats c d b
  | .flushEvents => cmdFlushEvents c d b

/-- `skEchoIfRoom`, after a success that has written nothing. -/
def echoIfRoom (r : Reply) : Outcome NtStatus Reply :=
  if ntSuccess r.status = true ∧ r.information = 0 ∧ c.out = true ∧
      UInt32.ofNat ioctlHeaderSize ≤ c.outLen then do
    let b ← echoHeader c r.buffers (UInt32.ofNat ioctlHeaderSize)
    return { r with information := UInt32.ofNat ioctlHeaderSize, buffers := b }
  else .ok r

/-- The payload is what follows the header; the lengths of `SIZE_T` are cut to 32 bits. -/
def Ioctl.call (r : Ioctl) : Call where
  payloadLen := UInt32.ofNat r.input.length - UInt32.ofNat ioctlHeaderSize
  out := decide (0 < r.outLen)
  outLen := UInt32.ofNat (min r.outLen 0xFFFFFFFF)

/-- The checks of `SkIoctlEvtDeviceControl` on the header. -/
def checkHeader (r : Ioctl) (b : Buffers) : Outcome NtStatus Command := do
  let size ← u32.read b.input hdrSizeOffset
  if size.toNat ≠ r.input.length then .error statusInvalidParameter
  else do
  let version ← u16.read b.input hdrVersionOffset
  if version ≠ ioctlVersion then .error statusRevisionMismatch
  else do
  let flags ← u32.read b.input hdrFlagsOffset
  if flags ≠ 0 then .error statusInvalidParameter
  else do
  let code ← u16.read b.input hdrCommandOffset
  match Command.ofCode code with
  | none => .error statusInvalidDeviceRequest
  | some command =>
    if (r.ioControlCode >>> 2) &&& 0xFFF ≠ 0x800 + code.toUInt32 then
      .error statusInvalidDeviceRequest
    else .ok command

/-- The checks of `SkIoctlEvtDeviceControl` before the switch. -/
def check (r : Ioctl) (d : Driver) (b : Buffers) : Outcome NtStatus Command :=
  if d.gateOpen = false ∨ d.active = false then .error statusDeviceNotReady
  else if r.paramsCode ≠ r.ioControlCode then .error statusInvalidDeviceRequest
  else if ntSuccess r.inStatus = false then .error r.inStatus
  else if r.input.length < ioctlHeaderSize ∨ 0xFFFFFFFF < r.input.length then
    .error statusBufferTooSmall
  else do
    let command ← checkHeader r b
    if command.isModify = true ∧ r.context ≠ some true then .error statusAccessDenied
    else if 0 < r.outLen ∧ ntSuccess r.outStatus = false then .error r.outStatus
    else if 0 < r.outLen ∧ r.outNull = true then .error statusInvalidParameter
    else .ok command

/-- `SkIoctlEvtDeviceControl`: a check that fails completes the request and returns. -/
def evtDeviceControl (r : Ioctl) (d : Driver) (b : Buffers) : Outcome NtStatus Reply :=
  match check r d b with
  | .fault => .fault
  | .error st => .ok (refuse d b st 0).complete
  | .ok command => do
    let reply ← handle r.call d b command
    let reply ← echoIfRoom r.call reply
    return reply.complete

end Sentinel.Control
