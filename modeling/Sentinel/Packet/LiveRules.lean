import Sentinel.Packet.AddrMatch
import Sentinel.Packet.Classify
import Sentinel.Rules.Validate

/-! Which accepted rules some connection can match. -/
namespace Sentinel

open Bits Bytes

/-- The layers that `skClassifyAleCommon` evaluates. -/
def aleLayers : List UInt32 :=
  [layerAleAuthConnectV4, layerAleAuthConnectV6, layerAleRecvAcceptV4, layerAleRecvAcceptV6]

/-- Some values, metadata and time at one of these layers make the rule match. -/
def Rule.Live (rule : Rule) : Prop :=
  ∃ layerId ∈ aleLayers, ∃ inFixed metadata now,
    ruleMatch rule (classifyBuildTuple layerId inFixed metadata now) = true

/-- The conditions that a layer decides: family, direction, the layer itself and what the width
of its family allows of the prefixes. -/
structure Rule.AgreesWith (rule : Rule) (layerId : UInt32) : Prop where
  family : rule.has ruleMFamily = true → rule.family = layerFamily layerId
  direction : rule.has ruleMDirection = true → rule.direction = ruleDirAny ∨
    rule.direction = layerDirection layerId
  layer : rule.has ruleMLayer = true → rule.layerId = layerId
  localPrefix : rule.has ruleMLocalAddr = true →
    PrefixFits (layerFamily layerId) rule.localPrefix
  remotePrefix : rule.has ruleMRemoteAddr = true →
    PrefixFits (layerFamily layerId) rule.remotePrefix

/-- The identity a rule asks for is that of some path, as `skConvertWire` makes it; a blob has
less than 2^31 characters. -/
def Rule.NamesPath (rule : Rule) : Prop :=
  rule.has ruleMAppId = true → ∃ path : List UInt16, path.length < 2 ^ 31 ∧
    rule.appId = ruleHashAppPath path

variable {rule : Rule} {layerId : UInt32} {inFixed : Option (List FwpValue)}
  {metadata : Option FwpsMetadata} {now : UInt64} {a : Addr} {path : List UInt16} {bits : UInt8}

/-! ### What a layer decides -/

theorem classifyBuildTuple_family :
    (classifyBuildTuple layerId inFixed metadata now).family = layerFamily layerId := by
  cases inFixed <;> cases metadata <;> rfl

theorem classifyBuildTuple_direction :
    (classifyBuildTuple layerId inFixed metadata now).direction = layerDirection layerId := by
  cases inFixed <;> cases metadata <;> rfl

theorem classifyBuildTuple_layerId :
    (classifyBuildTuple layerId inFixed metadata now).layerId = layerId := by
  cases inFixed <;> cases metadata <;> rfl

theorem agreesWith_of_matches
    (h : rule.Matches (classifyBuildTuple layerId inFixed metadata now)) :
    rule.AgreesWith layerId where
  family hb := (h.family hb).trans classifyBuildTuple_family
  direction hb := (h.direction hb).imp_right fun he => he.trans classifyBuildTuple_direction
  layer hb := (h.layerId hb).trans classifyBuildTuple_layerId
  localPrefix hb := by
    have hfits := (pkAddrMatch_iff.mp (h.localAddr hb)).1
    rwa [classifyBuildTuple_family] at hfits
  remotePrefix hb := by
    have hfits := (pkAddrMatch_iff.mp (h.remoteAddr hb)).1
    rwa [classifyBuildTuple_family] at hfits

/-- The identity of a blob is that of some path. -/
theorem blobAppId_path (blob : FwpByteBlob) :
    ∃ path : List UInt16, path.length < 2 ^ 31 ∧ blobAppId blob = ruleHashAppPath path := by
  rw [blobAppId]
  cases blob.data with
  | none => exact ⟨[], by decide, rfl⟩
  | some data =>
    dsimp only
    split
    · exact ⟨[], by decide, rfl⟩
    · refine ⟨_, ?_, rfl⟩
      have hsize := blob.size.toNat_lt
      have htwo : (2 : UInt32).toNat = 2 := rfl
      rw [List.length_take, UInt32.toNat_div, htwo]
      omega

theorem namesPath_of_matches
    (h : rule.Matches (classifyBuildTuple layerId inFixed metadata now)) : rule.NamesPath := by
  intro hb
  rcases h.appId hb with h0 | happ
  · exact ⟨[], by decide, h0⟩
  · rw [happ, classifyBuildTuple_appId]
    cases metadata.bind FwpsMetadata.processPath with
    | none => exact ⟨[], by decide, rfl⟩
    | some blob => exact blobAppId_path blob

/-! ### A connection for a rule -/

/-- A union that holds a number. -/
def FwpValue.ofWord (word : UInt64) : FwpValue := ⟨word, none⟩

/-- An address in network order: as a word the first four bytes, and a pointer to all. -/
def FwpValue.ofAddr (a : Addr) : FwpValue :=
  ⟨UInt64.ofNat ((a.byte 0).toNat * 2 ^ 24 + (a.byte 1).toNat * 2 ^ 16 +
    (a.byte 2).toNat * 2 ^ 8 + (a.byte 3).toNat), some a⟩

/-- The fields at the indices of the ALE layers. -/
def Rule.fieldValues (rule : Rule) : List FwpValue :=
  [.ofWord 0, .ofWord 0, .ofAddr rule.localAddr, .ofWord 0, .ofWord rule.localPortMin.toUInt64,
    .ofWord rule.protocol.toUInt64, .ofAddr rule.remoteAddr,
    .ofWord rule.remotePortMin.toUInt64]

/-- The image path in the metadata. -/
def pathBlob (path : List UInt16) : FwpByteBlob :=
  ⟨UInt32.ofNat (2 * path.length), some (path.flatMap Codec.u16.encode)⟩

theorem wideChars_flatMap : wideChars (path.flatMap Codec.u16.encode) = path := by
  induction path with
  | nil => rfl
  | cons c path ih =>
    have hc : Codec.u16.encode c =
        [UInt8.ofNat c.toNat, UInt8.ofNat (c.toNat / 256)] := rfl
    have hdecode := Codec.u16.decode_encode c
    rw [hc] at hdecode
    rw [List.flatMap_cons, hc, List.cons_append, List.cons_append, List.nil_append, wideChars, ih,
      hdecode]

theorem blobAppId_pathBlob (h : path.length < 2 ^ 31) :
    blobAppId (pathBlob path) = ruleHashAppPath path := by
  have hsize : (UInt32.ofNat (2 * path.length)).toNat = 2 * path.length :=
    UInt32.toNat_ofNat_of_lt' (by rw [UInt32.size]; omega)
  have htwo : (2 : UInt32).toNat = 2 := rfl
  have hlen : (UInt32.ofNat (2 * path.length) / 2).toNat = path.length := by
    rw [UInt32.toNat_div, hsize, htwo]
    omega
  simp only [blobAppId, pathBlob, wideChars_flatMap, hlen, List.take_length]
  cases path with
  | nil => rfl
  | cons c path =>
    rw [if_neg]
    rw [UInt32.lt_iff_toNat_lt, hsize, htwo, List.length_cons]
    omega

theorem addrOfWord_ofAddr {i : ℕ} (hi : i < 4) :
    (addrOfWord (FwpValue.ofAddr a).word.toUInt32).byte i = a.byte i := by
  have h0 := (a.byte 0).toNat_lt
  have h1 := (a.byte 1).toNat_lt
  have h2 := (a.byte 2).toNat_lt
  have h3 := (a.byte 3).toNat_lt
  have hword : (FwpValue.ofAddr a).word.toUInt32.toNat = (a.byte 0).toNat * 2 ^ 24 +
      (a.byte 1).toNat * 2 ^ 16 + (a.byte 2).toNat * 2 ^ 8 + (a.byte 3).toNat := by
    rw [UInt64.toNat_toUInt32, FwpValue.ofAddr, UInt64.toNat_ofNat']
    omega
  generalize (FwpValue.ofAddr a).word.toUInt32 = v at hword
  have hshift : ∀ k : UInt32, k.toNat < 32 →
      (v >>> k).toUInt8.toNat = v.toNat / 2 ^ k.toNat % 2 ^ 8 := by
    intro k hk
    rw [UInt32.toNat_toUInt8, UInt32.toNat_shiftRight, Nat.mod_eq_of_lt hk,
      Nat.shiftRight_eq_div_pow]
  interval_cases i
  · show (v >>> 24).toUInt8 = a.byte 0
    rw [← UInt8.toNat_inj, hshift 24 (by decide), hword]
    simp only [UInt32.reduceToNat]
    omega
  · show (v >>> 16).toUInt8 = a.byte 1
    rw [← UInt8.toNat_inj, hshift 16 (by decide), hword]
    simp only [UInt32.reduceToNat]
    omega
  · show (v >>> 8).toUInt8 = a.byte 2
    rw [← UInt8.toNat_inj, hshift 8 (by decide), hword]
    simp only [UInt32.reduceToNat]
    omega
  · show v.toUInt8 = a.byte 3
    rw [← UInt8.toNat_inj, UInt32.toNat_toUInt8, hword]
    omega

/-- The address of the field has every prefix that its family has. -/
theorem pkAddrMatch_ofAddr {family : UInt32} (h : PrefixFits family bits) :
    pkAddrMatch (if family = afInet then addrOfWord (FwpValue.ofAddr a).word.toUInt32
      else (FwpValue.ofAddr a).byteArray16.getD (.replicate 16 0)) a bits family = true := by
  refine pkAddrMatch_iff.mpr ⟨h, ?_⟩
  by_cases h4 : family = afInet
  · rw [if_pos h4]
    have hne : afInet ≠ afInet6 := by decide
    have hbits : bits ≤ 32 := by
      rcases h with ⟨-, hle⟩ | ⟨h6, -⟩
      · exact hle
      · exact absurd (h4.symm.trans h6) hne
    have hbits := UInt8.le_iff_toNat_le.mp hbits
    have h32 : (32 : UInt8).toNat = 32 := rfl
    refine SamePrefix.of_bytes fun i hi => addrOfWord_ofAddr ?_
    omega
  · rw [if_neg h4]
    exact (samePrefix_equivalence _).refl _

theorem toUInt16_toUInt32 {v : UInt32} (h : v ≤ 65535) : v.toUInt64.toUInt16.toUInt32 = v := by
  have hle := UInt32.le_iff_toNat_le.mp h
  have hmax : (65535 : UInt32).toNat = 65535 := rfl
  rw [← UInt32.toNat_inj, UInt16.toNat_toUInt32, UInt64.toNat_toUInt16, UInt32.toNat_toUInt64]
  omega

theorem toUInt8_toUInt32 {v : UInt32} (h : v ≤ 255) : v.toUInt64.toUInt8.toUInt32 = v := by
  have hle := UInt32.le_iff_toNat_le.mp h
  have hmax : (255 : UInt32).toNat = 255 := rfl
  rw [← UInt32.toNat_inj, UInt8.toNat_toUInt32, UInt64.toNat_toUInt8, UInt32.toNat_toUInt64]
  omega

/-- The lowest port of an accepted interval, as the tuple has it. -/
theorem port_in_interval {min max : UInt32} (hle : ¬ max < min) (hmax : ¬ 65535 < max) :
    min ≤ min.toUInt64.toUInt16.toUInt32 ∧ min.toUInt64.toUInt16.toUInt32 ≤ max := by
  have hle := UInt32.not_lt.mp hle
  rw [toUInt16_toUInt32 (UInt32.le_trans hle (UInt32.not_lt.mp hmax))]
  exact ⟨UInt32.le_refl _, hle⟩

/-- A condition that no classification could meet is refused. -/
theorem Rule.Valid.not_has (hv : rule.Valid) {b : UInt32}
    (hb : b &&& (ruleMIfIndex ||| ruleMSid) = b) : rule.has b = false := by
  have hmask : rule.mask &&& (ruleMIfIndex ||| ruleMSid) = 0 := by
    by_contra hne
    exact (Rule.valid_iff.mp hv).1 (.inr (.inr (.inl hne)))
  have hzero : rule.mask &&& b = 0 := by
    rw [← hb, UInt32.and_comm b, ← UInt32.and_assoc, hmask, UInt32.zero_and]
  rw [Rule.has, hzero]
  rfl

/-- An accepted rule matches a connection made for it at a layer that it agrees with. -/
theorem matches_of_agreesWith (hv : rule.Valid) (henabled : rule.enabled = 1)
    (h : rule.AgreesWith layerId) (hlen : path.length < 2 ^ 31)
    (hpath : rule.has ruleMAppId = true → rule.appId = ruleHashAppPath path) :
    rule.Matches (classifyBuildTuple layerId (some rule.fieldValues)
      (some ⟨some rule.processId.toUInt64, some (pathBlob path)⟩) rule.notBefore) := by
  obtain ⟨-, hconditions⟩ := Rule.valid_iff.mp hv
  simp only [ruleBadConditions, not_or, not_and] at hconditions
  obtain ⟨-, -, -, hprotocol, -, -, hlocalPort, hremotePort, htime⟩ := hconditions
  constructor
  case enabled =>
    rw [henabled]
    decide
  case family => exact h.family
  case direction => exact h.direction
  case protocol =>
    intro hb
    exact .inr (toUInt8_toUInt32 (UInt32.not_lt.mp (hprotocol hb))).symm
  case layerId => exact h.layer
  case ifIndex =>
    intro hb
    exact absurd (hb.symm.trans (hv.not_has (by decide))) (by decide)
  case processId =>
    intro _
    refine .inr ?_
    show rule.processId = rule.processId.toUInt64.toUInt32
    simp
  case appId =>
    intro hb
    exact .inr ((hpath hb).trans (blobAppId_pathBlob hlen).symm)
  case localPort =>
    intro hb
    exact port_in_interval (hlocalPort hb).1 (hlocalPort hb).2
  case remotePort =>
    intro hb
    exact port_in_interval (hremotePort hb).1 (hremotePort hb).2
  case localAddr => exact fun hb => pkAddrMatch_ofAddr (h.localPrefix hb)
  case remoteAddr => exact fun hb => pkAddrMatch_ofAddr (h.remotePrefix hb)
  case sid =>
    intro hb
    exact absurd (hb.symm.trans (hv.not_has (by decide))) (by decide)
  case time =>
    intro hb
    exact .inr ⟨UInt64.le_refl _, UInt64.not_lt.mp (htime hb)⟩

/-- An accepted, enabled rule can match just when one of the layers evaluated agrees with all that
the rule says of layers, and the identity it asks for is that of some path. -/
theorem live_iff (rule : Rule) (hv : rule.Valid) (henabled : rule.enabled = 1) :
    rule.Live ↔ (∃ layerId ∈ aleLayers, rule.AgreesWith layerId) ∧ rule.NamesPath := by
  constructor
  · rintro ⟨layerId, hmem, inFixed, metadata, now, hmatch⟩
    have hmatches := ruleMatch_iff.mp hmatch
    exact ⟨⟨layerId, hmem, agreesWith_of_matches hmatches⟩, namesPath_of_matches hmatches⟩
  · rintro ⟨⟨layerId, hmem, hagrees⟩, hpath⟩
    by_cases hb : rule.has ruleMAppId = true
    · obtain ⟨path, hlen, happ⟩ := hpath hb
      exact ⟨layerId, hmem, _, _, _,
        ruleMatch_iff.mpr (matches_of_agreesWith hv henabled hagrees hlen fun _ => happ)⟩
    · have hlen : ([] : List UInt16).length < 2 ^ 31 := by decide
      exact ⟨layerId, hmem, _, _, _,
        ruleMatch_iff.mpr (matches_of_agreesWith hv henabled hagrees hlen fun h => absurd h hb)⟩

/-- `c:\web` -/
def webPath : List UInt16 := [99, 58, 92, 119, 101, 98]

/-- It may not connect to port 443 of a network of IPv4. -/
def webRule : Rule :=
  { portRule with
    mask := ruleMFamily ||| ruleMLayer ||| ruleMRemoteAddr ||| ruleMRemotePort ||| ruleMAppId
    family := afInet
    layerId := layerAleAuthConnectV4
    appId := ruleHashAppPath webPath
    remoteAddr := #v[192, 168, 7, 0, 0, 0, 0, 0, 0, 0, 0, 0, 0, 0, 0, 0]
    remotePrefix := 24 }

theorem live_iff_webRule : webRule.Valid ∧ webRule.enabled = 1 ∧
    webRule.AgreesWith layerAleAuthConnectV4 ∧ webRule.NamesPath ∧ webRule.Live := by
  have hv : webRule.Valid := by decide +kernel
  have hagrees : webRule.AgreesWith layerAleAuthConnectV4 := by
    refine ⟨fun _ => by decide, fun h => ?_, fun _ => rfl, fun h => ?_, fun _ => ?_⟩
    · exact absurd h (by decide +kernel)
    · exact absurd h (by decide +kernel)
    · exact .inl ⟨by decide, by decide⟩
  have hpath : webRule.NamesPath := fun _ => ⟨webPath, by decide, rfl⟩
  exact ⟨hv, rfl, hagrees, hpath,
    (live_iff webRule hv rfl).mpr ⟨⟨_, List.mem_cons_self, hagrees⟩, hpath⟩⟩

/-- An enabled block rule without any condition. -/
def blockAll : Rule := { ruleZero with ruleId := 1, action := ruleActionBlock, enabled := 1 }

/-- The validator takes each condition for itself, so that a rule for IPv4 at a layer of IPv6 is
accepted, and no connection matches it. -/
theorem not_live_inet_at_v6 : ∃ rule : Rule, rule.Valid ∧ rule.enabled = 1 ∧ ¬ rule.Live := by
  refine ⟨{ blockAll with
    mask := ruleMFamily ||| ruleMLayer, family := afInet, layerId := layerAleAuthConnectV6 },
    by decide, rfl, ?_⟩
  rintro ⟨layerId, -, inFixed, metadata, now, hmatch⟩
  have hagrees := agreesWith_of_matches (ruleMatch_iff.mp hmatch)
  have hlayer : layerAleAuthConnectV6 = layerId := hagrees.layer (by decide)
  have hfamily : afInet = layerFamily layerId := hagrees.family (by decide)
  rw [← hlayer] at hfamily
  exact absurd hfamily (by decide)

end Sentinel
