import Mathlib.Tactic

/-! The public types of `rules/rule_types.h`. -/
namespace Sentinel

def ruleActionAllow : UInt32 := 0
def ruleActionBlock : UInt32 := 1
def ruleActionAudit : UInt32 := 2
def ruleActionRateLimit : UInt32 := 3

def ruleMFamily : UInt32 := 0x0001
def ruleMDirection : UInt32 := 0x0002
def ruleMProtocol : UInt32 := 0x0004
def ruleMLocalAddr : UInt32 := 0x0008
def ruleMRemoteAddr : UInt32 := 0x0010
def ruleMLocalPort : UInt32 := 0x0020
def ruleMRemotePort : UInt32 := 0x0040
def ruleMPid : UInt32 := 0x0080
def ruleMAppId : UInt32 := 0x0100
def ruleMLayer : UInt32 := 0x0200
def ruleMIfIndex : UInt32 := 0x0400
def ruleMSid : UInt32 := 0x0800
def ruleMTime : UInt32 := 0x1000

def ruleDirAny : UInt32 := 0
def ruleDirOut : UInt32 := 1
def ruleDirIn : UInt32 := 2
def ruleProtoAny : UInt32 := 0
def afInet : UInt32 := 2
def afInet6 : UInt32 := 23

/-- `SK_RULE_MAX`. -/
def ruleMax : ℕ := 4096

/-- `SK_REPLACE_MAX_BYTES`. -/
def replaceMaxBytes : ℕ := 1024 * 1024

/-- `sizeof(SK_RULE)` on x64. -/
def ruleSize : ℕ := 176

/-- `SK_LAYER_COUNT`. -/
def layerCount : UInt32 := 6

/-- The 16 address bytes, of which v4 uses the first four. -/
abbrev Addr := Vector UInt8 16

/-- `SK_RULE`. -/
structure Rule where
  ruleId : UInt64
  priority : UInt32
  mask : UInt32
  action : UInt32
  enabled : UInt32
  family : UInt32
  direction : UInt32
  protocol : UInt32
  layerId : UInt32
  ifIndex : UInt32
  processId : UInt32
  appId : UInt64
  notBefore : UInt64
  notAfter : UInt64
  localPortMin : UInt32
  localPortMax : UInt32
  remotePortMin : UInt32
  remotePortMax : UInt32
  localAddr : Addr
  remoteAddr : Addr
  localPrefix : UInt8
  remotePrefix : UInt8
  sid : Vector UInt8 32
  sidLength : UInt32
  rateTokens : UInt32
  rateIntervalMs : UInt32
  burst : UInt32
  deriving DecidableEq

/-- Zeroed memory: no condition, disabled, and no id yet. -/
def ruleZero : Rule where
  ruleId := 0
  priority := 0
  mask := 0
  action := 0
  enabled := 0
  family := 0
  direction := 0
  protocol := 0
  layerId := 0
  ifIndex := 0
  processId := 0
  appId := 0
  notBefore := 0
  notAfter := 0
  localPortMin := 0
  localPortMax := 0
  remotePortMin := 0
  remotePortMax := 0
  localAddr := .replicate 16 0
  remoteAddr := .replicate 16 0
  localPrefix := 0
  remotePrefix := 0
  sid := .replicate 32 0
  sidLength := 0
  rateTokens := 0
  rateIntervalMs := 0
  burst := 0

/-- Against connections to port 443. -/
def portRule : Rule :=
  { ruleZero with
    ruleId := 7
    mask := ruleMRemotePort
    action := ruleActionBlock
    enabled := 1
    remotePortMin := 443
    remotePortMax := 443 }

/-- Is the field of this mask bit present? -/
def Rule.has (rule : Rule) (bit : UInt32) : Bool := rule.mask &&& bit != 0

/-- `SK_CLASSIFY_TUPLE`; `userId` is `none` for NULL, else it has `userIdLength` bytes. -/
structure ClassifyTuple where
  family : UInt32
  direction : UInt32
  protocol : UInt32
  layerId : UInt32
  ifIndex : UInt32
  processId : UInt32
  appId : UInt64
  localPort : UInt32
  remotePort : UInt32
  localAddr : Addr
  remoteAddr : Addr
  userId : Option (List UInt8)
  userIdLength : UInt32
  nowUtc100ns : UInt64

/-- Zeroed memory: no metadata. -/
def tupleZero : ClassifyTuple where
  family := 0
  direction := 0
  protocol := 0
  layerId := 0
  ifIndex := 0
  processId := 0
  appId := 0
  localPort := 0
  remotePort := 0
  localAddr := .replicate 16 0
  remoteAddr := .replicate 16 0
  userId := none
  userIdLength := 0
  nowUtc100ns := 0

def verdictPermit : UInt32 := 0
def verdictBlock : UInt32 := 1
def verdictAudit : UInt32 := 2

def verdictReasonRuleMatch : UInt32 := 0
def verdictReasonNoMatch : UInt32 := 1
def verdictReasonSnapshotUnavailable : UInt32 := 2

/-- `SK_VERDICT`. -/
structure Verdict where
  action : UInt32
  ruleId : UInt64
  rateLimited : UInt32
  hardBlock : UInt32
  reason : UInt32
  deriving DecidableEq

/-- The content of a `SK_RULE_SNAPSHOT`; `count` is the length of `rules`. -/
structure Snapshot where
  rules : List Rule
  version : UInt64
  defaultPolicy : UInt32
  deriving DecidableEq

end Sentinel
