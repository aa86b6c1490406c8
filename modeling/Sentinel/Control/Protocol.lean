import Sentinel.General.Bytes
import Sentinel.Rules.Types
import Sentinel.Status

/-! The structures of `control/protocol.h` on x64. -/
namespace Sentinel

open Bytes

/-- `SK_RULE_PATH_MAX_CHARS`. -/
def rulePathMaxChars : UInt32 := 260

/-- `SK_RULE` as it stands in memory, with its padding after `sid` and at its end. -/
structure RuleImage where
  rule : Rule
  sidPad : Vector UInt8 2
  endPad : Vector UInt8 4
  deriving DecidableEq

/-- The fields of `SK_RULE` in their order. -/
abbrev RuleFields :=
  UInt64 × (UInt32 × UInt32 × UInt32 × UInt32 × UInt32 × UInt32 × UInt32 × UInt32 × UInt32 ×
    UInt32) × (UInt64 × UInt64 × UInt64) × (UInt32 × UInt32 × UInt32 × UInt32) × (Addr × Addr) ×
    (UInt8 × UInt8 × Vector UInt8 32 × Vector UInt8 2) ×
    (UInt32 × UInt32 × UInt32 × UInt32 × Vector UInt8 4)

def ruleOfFields : RuleFields ≃ RuleImage where
  toFun
    | (ruleId, (priority, mask, action, enabled, family, direction, protocol, layerId, ifIndex,
        processId), (appId, notBefore, notAfter),
        (localPortMin, localPortMax, remotePortMin, remotePortMax), (localAddr, remoteAddr),
        (localPrefix, remotePrefix, sid, sidPad),
        (sidLength, rateTokens, rateIntervalMs, burst, endPad)) =>
      ⟨⟨ruleId, priority, mask, action, enabled, family, direction, protocol, layerId, ifIndex,
        processId, appId, notBefore, notAfter, localPortMin, localPortMax, remotePortMin,
        remotePortMax, localAddr, remoteAddr, localPrefix, remotePrefix, sid, sidLength,
        rateTokens, rateIntervalMs, burst⟩, sidPad, endPad⟩
  invFun m := (m.rule.ruleId, (m.rule.priority, m.rule.mask, m.rule.action, m.rule.enabled,
    m.rule.family, m.rule.direction, m.rule.protocol, m.rule.layerId, m.rule.ifIndex,
    m.rule.processId), (m.rule.appId, m.rule.notBefore, m.rule.notAfter),
    (m.rule.localPortMin, m.rule.localPortMax, m.rule.remotePortMin, m.rule.remotePortMax),
    (m.rule.localAddr, m.rule.remoteAddr),
    (m.rule.localPrefix, m.rule.remotePrefix, m.rule.sid, m.sidPad),
    (m.rule.sidLength, m.rule.rateTokens, m.rule.rateIntervalMs, m.rule.burst, m.endPad))
  left_inv _ := rfl
  right_inv _ := rfl

namespace Layout

open Codec

/-- `SK_RULE`. -/
def rule : Codec RuleImage :=
  (pair u64 (pair (pair u32 (pair u32 (pair u32 (pair u32 (pair u32 (pair u32 (pair u32 (pair u32
    (pair u32 u32))))))))) (pair (pair u64 (pair u64 u64)) (pair (pair u32 (pair u32
    (pair u32 u32))) (pair (pair (bytes 16) (bytes 16)) (pair (pair u8 (pair u8 (pair (bytes 32)
    (bytes 2)))) (pair u32 (pair u32 (pair u32 (pair u32 (bytes 4))))))))))).congr ruleOfFields

/-- `SK_CAPABILITIES`. -/
def capabilities : Codec (UInt32 × UInt32 × UInt32 × UInt32) := pair u32 (pair u32 (pair u32 u32))

/-- `SK_RULE_VERSION`. -/
def ruleVersion : Codec (UInt64 × UInt32 × UInt32) := pair u64 (pair u32 u32)

/-- `SK_STATS_OUT` without the queue counters, `SK_RULE_STATS`. -/
def ruleStats : Codec (UInt64 × UInt64 × UInt64 × UInt64 × UInt64 × UInt64 × UInt64 × UInt64 ×
    UInt64 × UInt64) :=
  pair u64 (pair u64 (pair u64 (pair u64 (pair u64 (pair u64 (pair u64 (pair u64
    (pair u64 u64))))))))

/-- The queue counters of `SK_STATS_OUT`. -/
def queueStats : Codec (UInt64 × UInt64 × UInt64 × UInt64) := pair u64 (pair u64 (pair u64 u64))

/-- `SK_FLUSH_HEADER`. -/
def flushHeader : Codec (UInt32 × UInt32) := pair u32 u32

/-- `SK_REPLACE_HEADER`. -/
def replaceHeader : Codec (UInt32 × UInt32 × UInt64) := pair u32 (pair u32 u64)

end Layout

/-- `SK_IOCTL_VERSION`. -/
def ioctlVersion : UInt16 := 1

/-- Where the fields of `SHINKEN_IOCTL_HEADER` stand; four bytes of padding follow `Flags`. -/
def hdrSizeOffset : ℕ := 0

def hdrVersionOffset : ℕ := 4

def hdrCommandOffset : ℕ := 6

def hdrFlagsOffset : ℕ := 8

def hdrRequestIdOffset : ℕ := 16

/-- `sizeof(SHINKEN_IOCTL_HEADER)`. -/
def ioctlHeaderSize : ℕ := 24

/-- Where the fields of `SK_ENUM_HEADER` stand; four bytes of padding follow `count`. -/
def enumCountOffset : ℕ := 0

def enumVersionOffset : ℕ := 8

/-- `sizeof(SK_ENUM_HEADER)`. -/
def enumHeaderSize : ℕ := 16

/-- `SK_EVENT_RECORD_SIZE`. -/
def eventRecordSize : ℕ := 80

/-- `SK_FLUSH_MAX_EVENTS`. -/
def flushMaxEvents : ℕ := 1024

/-- Where `pathChars` and `pathOffset` stand in `SK_RULE_WIRE`. -/
def pathCharsOffset : ℕ := 176

def pathOffsetOffset : ℕ := 180

/-- `sizeof(SK_RULE_WIRE)`. -/
def ruleWireSize : ℕ := 184

/-- `sizeof(SK_REPLACE_HEADER)`. -/
def replaceHeaderSize : ℕ := 16

end Sentinel
