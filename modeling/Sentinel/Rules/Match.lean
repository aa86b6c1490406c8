import Sentinel.Rules.Types

/-! The boolean matcher of `rules/rule_match.c`, its address test and the path hash. -/
namespace Sentinel

/-- The width in bytes of an address of the family; `none` if it is unknown. -/
def addrWidth (family : UInt32) : Option ℕ :=
  if family = afInet then some 4 else if family = afInet6 then some 16 else none

/-- `SK_FNV1A64_OFFSET` and `SK_FNV1A64_PRIME`. -/
def fnv1a64Offset : UInt64 := 14695981039346656037

def fnv1a64Prime : UInt64 := 1099511628211

/-- `'A'` to `'Z'` in lower case, every other character as it is. -/
def foldChar (c : UInt16) : UInt16 := if 65 ≤ c ∧ c ≤ 90 then c + 32 else c

/-- `SkRuleHashAppPath`. -/
def ruleHashAppPath (path : List UInt16) : UInt64 :=
  if path = [] then 0
  else path.foldl (fun h c => (h ^^^ (foldChar c).toUInt64) * fnv1a64Prime) fnv1a64Offset

def Addr.byte (addr : Addr) (i : ℕ) : UInt8 := addr[i]?.getD 0

/-- `SkPkAddrMatch`. -/
def pkAddrMatch (addr ruleAddr : Addr) (bits : UInt8) (family : UInt32) : Bool :=
  match addrWidth family with
  | none => false
  | some width =>
    if width * 8 < bits.toNat then false
    else if bits = 0 then true
    else
      let full := bits.toNat / 8
      let remBits := bits.toNat % 8
      if (List.range full).all fun i => addr.byte i == ruleAddr.byte i then
        if remBits = 0 then true
        else
          let mask := UInt8.ofNat (0xFF <<< (8 - remBits))
          addr.byte full &&& mask == ruleAddr.byte full &&& mask
      else false

/-- A closed interval of ports. -/
def portMatch (port min max : UInt32) : Bool := min ≤ port && port ≤ max

/-- The test under `SK_RULE_M_SID`. -/
def sidMatch (rule : Rule) (tuple : ClassifyTuple) : Bool :=
  match tuple.userId with
  | none => false
  | some userId =>
    rule.sidLength != 0 && tuple.userIdLength == rule.sidLength &&
      rule.sid.toList.take rule.sidLength.toNat == userId.take rule.sidLength.toNat

/-- The test under `SK_RULE_M_TIME`; 0/0 is permanent. -/
def timeMatch (rule : Rule) (now : UInt64) : Bool :=
  rule.notBefore == 0 && rule.notAfter == 0 || rule.notBefore ≤ now && now ≤ rule.notAfter

/-- `SkRuleMatch`. -/
def ruleMatch (rule : Rule) (tuple : ClassifyTuple) : Bool :=
  rule.enabled != 0 &&
  (!rule.has ruleMFamily || rule.family == tuple.family) &&
  (!rule.has ruleMDirection || rule.direction == ruleDirAny ||
    rule.direction == tuple.direction) &&
  (!rule.has ruleMProtocol || rule.protocol == ruleProtoAny ||
    rule.protocol == tuple.protocol) &&
  (!rule.has ruleMLayer || rule.layerId == tuple.layerId) &&
  (!rule.has ruleMIfIndex || rule.ifIndex == 0 || rule.ifIndex == tuple.ifIndex) &&
  (!rule.has ruleMPid || rule.processId == 0 || rule.processId == tuple.processId) &&
  (!rule.has ruleMAppId || rule.appId == 0 || rule.appId == tuple.appId) &&
  (!rule.has ruleMLocalPort ||
    portMatch tuple.localPort rule.localPortMin rule.localPortMax) &&
  (!rule.has ruleMRemotePort ||
    portMatch tuple.remotePort rule.remotePortMin rule.remotePortMax) &&
  (!rule.has ruleMLocalAddr ||
    pkAddrMatch tuple.localAddr rule.localAddr rule.localPrefix tuple.family) &&
  (!rule.has ruleMRemoteAddr ||
    pkAddrMatch tuple.remoteAddr rule.remoteAddr rule.remotePrefix tuple.family) &&
  (!rule.has ruleMSid || sidMatch rule tuple) &&
  (!rule.has ruleMTime || timeMatch rule tuple.nowUtc100ns)

/-- An enabled rule all of whose present fields agree with the tuple. -/
structure Rule.Matches (rule : Rule) (tuple : ClassifyTuple) : Prop where
  enabled : rule.enabled ≠ 0
  family : rule.has ruleMFamily → rule.family = tuple.family
  direction : rule.has ruleMDirection → rule.direction = ruleDirAny ∨
    rule.direction = tuple.direction
  protocol : rule.has ruleMProtocol → rule.protocol = ruleProtoAny ∨
    rule.protocol = tuple.protocol
  layerId : rule.has ruleMLayer → rule.layerId = tuple.layerId
  ifIndex : rule.has ruleMIfIndex → rule.ifIndex = 0 ∨ rule.ifIndex = tuple.ifIndex
  processId : rule.has ruleMPid → rule.processId = 0 ∨ rule.processId = tuple.processId
  appId : rule.has ruleMAppId → rule.appId = 0 ∨ rule.appId = tuple.appId
  localPort : rule.has ruleMLocalPort →
    rule.localPortMin ≤ tuple.localPort ∧ tuple.localPort ≤ rule.localPortMax
  remotePort : rule.has ruleMRemotePort →
    rule.remotePortMin ≤ tuple.remotePort ∧ tuple.remotePort ≤ rule.remotePortMax
  localAddr : rule.has ruleMLocalAddr →
    pkAddrMatch tuple.localAddr rule.localAddr rule.localPrefix tuple.family = true
  remoteAddr : rule.has ruleMRemoteAddr →
    pkAddrMatch tuple.remoteAddr rule.remoteAddr rule.remotePrefix tuple.family = true
  sid : rule.has ruleMSid → sidMatch rule tuple = true
  time : rule.has ruleMTime → rule.notBefore = 0 ∧ rule.notAfter = 0 ∨
    rule.notBefore ≤ tuple.nowUtc100ns ∧ tuple.nowUtc100ns ≤ rule.notAfter

variable {rule : Rule} {tuple : ClassifyTuple}

theorem ruleMatch_iff : ruleMatch rule tuple = true ↔ rule.Matches tuple := by
  simp only [ruleMatch, portMatch, timeMatch, Bool.and_eq_true, Bool.or_eq_true,
    Bool.not_eq_true', bne_iff_ne, beq_iff_eq, decide_eq_true_eq, ne_eq, and_assoc, or_assoc]
  constructor
  · rintro ⟨h1, h2, h3, h4, h5, h6, h7, h8, h9, h10, h11, h12, h13, h14⟩
    constructor <;> first | assumption | (intro hb; simp_all)
  · rintro ⟨h1, h2, h3, h4, h5, h6, h7, h8, h9, h10, h11, h12, h13, h14⟩
    simp only [← Bool.not_eq_true, ← imp_iff_not_or]
    exact ⟨h1, h2, h3, h4, h5, h6, h7, h8, h9, h10, h11, h12, h13, h14⟩

theorem enabled_of_ruleMatch (h : ruleMatch rule tuple = true) : rule.enabled ≠ 0 := by
  simp only [ruleMatch, Bool.and_eq_true, bne_iff_ne] at h
  tauto

end Sentinel
