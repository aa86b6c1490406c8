import Sentinel.General.Bytes
import Sentinel.Rules.Match

/-! `SkClassifyBuildTuple` of `packet/classify.c`, as the kernel build has it. -/
namespace Sentinel

/-- `SK_LAYER_ID`. -/
def layerAleAuthConnectV4 : UInt32 := 0
def layerAleAuthConnectV6 : UInt32 := 1
def layerAleRecvAcceptV4 : UInt32 := 2
def layerAleRecvAcceptV6 : UInt32 := 3
def layerFlowEstablishedV4 : UInt32 := 4
def layerFlowEstablishedV6 : UInt32 := 5

/-- The indices of the fields at the ALE layers. -/
def fieldLocalAddr : ℕ := 2
def fieldLocalPort : ℕ := 4
def fieldProtocol : ℕ := 5
def fieldRemoteAddr : ℕ := 6
def fieldRemotePort : ℕ := 7

/-- `FWP_VALUE0`: the union as a word, and the array it points to when it is such a pointer. -/
structure FwpValue where
  word : UInt64
  byteArray16 : Option Addr

/-- `FWP_BYTE_BLOB`; `none` for NULL data. -/
structure FwpByteBlob where
  size : UInt32
  data : Option (List UInt8)

/-- The metadata that the flags and the pointers show as present. -/
structure FwpsMetadata where
  processId : Option UInt64
  processPath : Option FwpByteBlob

/-- `skLayerFamily`. -/
def layerFamily (layerId : UInt32) : UInt32 :=
  if layerId = layerAleAuthConnectV4 ∨ layerId = layerAleRecvAcceptV4 ∨
    layerId = layerFlowEstablishedV4 then afInet
  else afInet6

/-- The direction a layer implies. -/
def layerDirection (layerId : UInt32) : UInt32 :=
  if layerId = layerAleAuthConnectV4 ∨ layerId = layerAleAuthConnectV6 then ruleDirOut
  else if layerId = layerAleRecvAcceptV4 ∨ layerId = layerAleRecvAcceptV6 then ruleDirIn
  else 0

/-- `skFieldU8`. -/
def fieldU8 (values : List FwpValue) (idx : ℕ) : UInt8 :=
  (values[idx]?.map fun v => v.word.toUInt8).getD 0

/-- `skFieldU16`. -/
def fieldU16 (values : List FwpValue) (idx : ℕ) : UInt16 :=
  (values[idx]?.map fun v => v.word.toUInt16).getD 0

/-- A network-order word at the beginning of an address. -/
def addrOfWord (v : UInt32) : Addr :=
  #v[(v >>> 24).toUInt8, (v >>> 16).toUInt8, (v >>> 8).toUInt8, v.toUInt8,
    0, 0, 0, 0, 0, 0, 0, 0, 0, 0, 0, 0]

/-- `skFieldAddr`. -/
def fieldAddr (values : List FwpValue) (idx : ℕ) (family : UInt32) : Addr :=
  match values[idx]? with
  | none => .replicate 16 0
  | some v =>
    if family = afInet then addrOfWord v.word.toUInt32
    else v.byteArray16.getD (.replicate 16 0)

/-- A byte buffer read as `WCHAR`s; an odd byte at its end is left. -/
def wideChars : List UInt8 → List UInt16
  | lo :: hi :: rest => Bytes.Codec.u16.decode [lo, hi] :: wideChars rest
  | _ => []

/-- The application identity of a process path. -/
def blobAppId (blob : FwpByteBlob) : UInt64 :=
  match blob.data with
  | none => 0
  | some data =>
    if blob.size < 2 then 0 else ruleHashAppPath ((wideChars data).take (blob.size / 2).toNat)

/-- The fields of the tuple that come from `inFixed`. -/
def tupleValues (values : List FwpValue) (out : ClassifyTuple) : ClassifyTuple :=
  { out with
    protocol := (fieldU8 values fieldProtocol).toUInt32
    localAddr := fieldAddr values fieldLocalAddr out.family
    remoteAddr := fieldAddr values fieldRemoteAddr out.family
    localPort := (fieldU16 values fieldLocalPort).toUInt32
    remotePort := (fieldU16 values fieldRemotePort).toUInt32 }

/-- The fields of the tuple that come from `meta`. -/
def tupleMetadata (metadata : FwpsMetadata) (out : ClassifyTuple) : ClassifyTuple :=
  { out with
    processId := (metadata.processId.getD 0).toUInt32
    appId := (metadata.processPath.map blobAppId).getD 0 }

/-- `SkClassifyBuildTuple`; `none` for NULL values or metadata. -/
def classifyBuildTuple (layerId : UInt32) (inFixed : Option (List FwpValue))
    (metadata : Option FwpsMetadata) (now : UInt64) : ClassifyTuple :=
  let out := { tupleZero with
    layerId := layerId, family := layerFamily layerId, direction := layerDirection layerId }
  let out := inFixed.elim out fun values => tupleValues values out
  let out := metadata.elim out fun m => tupleMetadata m out
  { out with nowUtc100ns := now }

variable {data : List UInt8} {metadata : Option FwpsMetadata} {layerId : UInt32}
  {inFixed : Option (List FwpValue)} {now : UInt64}

theorem length_wideChars : (wideChars data).length = data.length / 2 := by
  induction data using wideChars.induct with
  | case1 lo hi rest ih =>
    rw [wideChars, List.length_cons, ih, List.length_cons, List.length_cons]
    omega
  | case2 data h =>
    cases data with
    | nil => rfl
    | cons lo rest =>
      cases rest with
      | nil => simp [wideChars]
      | cons hi rest => exact absurd rfl (h lo hi rest)

/-- The application identity is that of the process path, whatever the layer and the values. -/
theorem classifyBuildTuple_appId :
    (classifyBuildTuple layerId inFixed metadata now).appId =
      ((metadata.bind FwpsMetadata.processPath).map blobAppId).getD 0 := by
  cases metadata <;> cases inFixed <;> rfl

end Sentinel
