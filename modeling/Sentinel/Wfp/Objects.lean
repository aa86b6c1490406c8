import Sentinel.Status

/-! The tracked WFP objects of `wfp/wfp_objects.c` and the layer table they belong to. -/
namespace Sentinel

structure Guid where
  data1 : UInt32
  data2 : UInt16
  data3 : UInt16
  data4 : List UInt8
  deriving DecidableEq

/-- `SK_LAYER_ID`, in the order of `g_SkCalloutDefs`. -/
abbrev Layer := Fin 6

def layers : List Layer := List.finRange 6

structure CalloutDef where
  calloutKey : Guid
  name : String
  deriving DecidableEq

def guidNone : Guid := ⟨0, 0, 0, [0, 0, 0, 0, 0, 0, 0, 0]⟩

/-- `g_SkProviderKey`. -/
def providerKey : Guid :=
  ⟨0x471b9041, 0x60c8, 0x4000, [0x89, 0xab, 0x0f, 0x99, 0xb7, 0x04, 0x95, 0xbe]⟩

/-- `g_SkSubLayerKey`. -/
def subLayerKey : Guid :=
  ⟨0xa0ee102a, 0x514e, 0x48ca, [0xa4, 0x35, 0x22, 0x5a, 0x4d, 0x30, 0x3c, 0xb0]⟩

/-- `g_SkCalloutDefs`: the keys of the callouts and the names. -/
def calloutDefs : Layer → CalloutDef
  | 0 => ⟨⟨0x9087874c, 0x8fa9, 0x4f56, [0xb4, 0x26, 0x45, 0x74, 0xe1, 0x17, 0xbd, 0x1f]⟩,
      "SkAleAuthConnectV4"⟩
  | 1 => ⟨⟨0x9679cb37, 0xab39, 0x4ad6, [0xb8, 0x12, 0xb8, 0x63, 0xc4, 0x3b, 0xa8, 0xa0]⟩,
      "SkAleAuthConnectV6"⟩
  | 2 => ⟨⟨0x1b8647f8, 0x9e64, 0x45ec, [0x89, 0xf6, 0xf2, 0x4b, 0x71, 0x70, 0x7b, 0x51]⟩,
      "SkAleRecvAcceptV4"⟩
  | 3 => ⟨⟨0x1db4282c, 0xa9ab, 0x4e2b, [0xb2, 0xcd, 0x35, 0x36, 0x39, 0xc1, 0x43, 0xbd]⟩,
      "SkAleRecvAcceptV6"⟩
  | 4 => ⟨⟨0xe5fb640f, 0x6ffc, 0x42df, [0xa0, 0xa3, 0xe0, 0xa9, 0x53, 0x5c, 0x10, 0xf8]⟩,
      "SkFlowEstablishedV4"⟩
  | 5 => ⟨⟨0x350e9656, 0xb326, 0x43e4, [0x8b, 0x6e, 0x59, 0x03, 0x91, 0x92, 0xd4, 0x00]⟩,
      "SkFlowEstablishedV6"⟩

/-- `skWfpDefByCalloutKey`. -/
def wfpDefByCalloutKey (key : Guid) : Option Layer :=
  layers.find? fun i => (calloutDefs i).calloutKey == key

/-- `SkCalloutDefById`. -/
def calloutDefById (layerId : ℕ) : Option CalloutDef :=
  if h : layerId < 6 then some (calloutDefs ⟨layerId, h⟩) else none

/-- `SK_WFP_OBJECT_STATE`. -/
inductive WfpObjectState where
  | uninitialized
  | prepared
  | registered
  | active
  | quiescing
  | deleted
  | failed
  | leaked
  deriving DecidableEq

/-- `SK_WFP_PHASE`. -/
inductive WfpPhase where
  | none
  | engineOpen
  | providerAdd
  | subLayerAdd
  | calloutRegister
  | calloutAdd
  | filterAdd
  | teardown
  deriving DecidableEq

/-- `SK_WFP_OBJECT`. -/
structure WfpObject where
  name : String
  key : Guid
  calloutRuntimeId : UInt32
  calloutId : UInt32
  filterId : UInt64
  state : WfpObjectState
  phase : WfpPhase
  lastStatus : NtStatus
  busyRetries : ℕ
  deriving DecidableEq

namespace WfpObject

/-- `SkWfpObjectReset`. -/
def reset (name : String) : WfpObject where
  name := name
  key := guidNone
  calloutRuntimeId := 0
  calloutId := 0
  filterId := 0
  state := .uninitialized
  phase := .none
  lastStatus := statusSuccess
  busyRetries := 0

/-- The `state == REGISTERED || state == ACTIVE` of the manager. -/
def isInstalled (o : WfpObject) : Bool := o.state == .registered || o.state == .active

/-- `st` and `id` are what `FwpsCalloutRegister1` returns. -/
def registerCallout (o : WfpObject) (st : NtStatus) (id : UInt32) : WfpObject :=
  if ntSuccess st then
    { o with phase := .calloutRegister, lastStatus := st, calloutRuntimeId := id,
             state := .registered }
  else
    { o with phase := .calloutRegister, lastStatus := st, calloutRuntimeId := 0,
             state := .failed }

/-- `st` and `id` are what `FwpmCalloutAdd0` returns. -/
def addCallout (o : WfpObject) (st : NtStatus) (id : UInt32) : WfpObject × NtStatus :=
  match wfpDefByCalloutKey o.key with
  | none =>
    ({ o with lastStatus := statusInvalidParameter, state := .failed }, statusInvalidParameter)
  | some _ =>
    if ntSuccess st then
      ({ o with phase := .calloutAdd, lastStatus := st, calloutId := id }, st)
    else
      ({ o with phase := .calloutAdd, lastStatus := st, calloutId := 0, state := .failed }, st)

/-- `st` and `id` are what `FwpmFilterAdd0` returns. -/
def addFilter (o : WfpObject) (layerId : ℕ) (st : NtStatus) (id : UInt64) :
    WfpObject × NtStatus :=
  match calloutDefById layerId with
  | none =>
    ({ o with lastStatus := statusInvalidParameter, state := .failed }, statusInvalidParameter)
  | some _ =>
    if ntSuccess st then
      ({ o with phase := .filterAdd, lastStatus := st, filterId := id, state := .registered },
        st)
    else
      ({ o with phase := .filterAdd, lastStatus := st, filterId := 0, state := .failed }, st)

/-- How one round of `SkWfpObjectUnregister` returns, if it does not retry. -/
def unregisterRound (o : WfpObject) (st : NtStatus) (attempt : ℕ) : Option WfpObject :=
  if st = statusSuccess ∨ st = fwpECalloutNotFound then
    some { o with lastStatus := st, state := .deleted, busyRetries := attempt }
  else if st ≠ statusDeviceBusy then
    some { o with lastStatus := st, busyRetries := attempt, state := .leaked }
  else none

/-- The loop of `SkWfpObjectUnregister` from one attempt on, with so many retries left;
`reply` is what `FwpsCalloutUnregisterById0` returns at each attempt. -/
def unregisterLoop (o : WfpObject) (reply : ℕ → NtStatus) (attempt : ℕ) :
    ℕ → WfpObject × NtStatus
  | 0 =>
    match o.unregisterRound (reply attempt) attempt with
    | some o' => (o', reply attempt)
    | none =>
      ({ o with lastStatus := reply attempt, busyRetries := attempt + 1, state := .leaked },
        reply attempt)
  | n + 1 =>
    match o.unregisterRound (reply attempt) attempt with
    | some o' => (o', reply attempt)
    | none => unregisterLoop { o with lastStatus := reply attempt } reply (attempt + 1) n

def unregister (o : WfpObject) (reply : ℕ → NtStatus) (maxBusyRetries : ℕ) :
    WfpObject × NtStatus :=
  if o.state = .deleted ∨ o.state = .uninitialized then (o, statusSuccess)
  else if o.state = .leaked then (o, statusDeviceBusy)
  else unregisterLoop { o with state := .quiescing } reply 0 maxBusyRetries

/-- `SkWfpObjectDelete`; the replies are those of `FwpmFilterDeleteById0` and
`FwpmCalloutDeleteById0`. -/
def delete (o : WfpObject) (filterReply calloutReply : NtStatus) : WfpObject × NtStatus :=
  if o.state = .leaked then (o, statusDeviceBusy)
  else if o.filterId ≠ 0 then
    if filterReply = statusSuccess ∨ filterReply = fwpEFilterNotFound then
      ({ o with lastStatus := filterReply, filterId := 0, state := .deleted }, filterReply)
    else ({ o with lastStatus := filterReply, state := .leaked }, filterReply)
  else if o.calloutId ≠ 0 then
    if calloutReply = statusSuccess ∨ calloutReply = fwpECalloutNotFound then
      ({ o with lastStatus := calloutReply, calloutId := 0, state := .deleted }, calloutReply)
    else ({ o with lastStatus := calloutReply, state := .leaked }, calloutReply)
  else (o, statusSuccess)

/-! ### What the operations do to the state and the ids -/

variable {o : WfpObject} {st : NtStatus} {reply : ℕ → NtStatus} {attempt n : ℕ}

theorem wfpDefByCalloutKey_self (i : Layer) :
    wfpDefByCalloutKey (calloutDefs i).calloutKey = some i := by
  revert i
  decide

/-- An unregister is confirmed by `STATUS_SUCCESS` or the documented "not found", after
none but BUSY answers. -/
def UnregisterConfirmed (reply : ℕ → NtStatus) (maxBusyRetries : ℕ) : Prop :=
  ∃ n ≤ maxBusyRetries, (∀ b < n, reply b = statusDeviceBusy) ∧
    (reply n = statusSuccess ∨ reply n = fwpECalloutNotFound)

instance (reply : ℕ → NtStatus) (n : ℕ) : Decidable (UnregisterConfirmed reply n) :=
  inferInstanceAs (Decidable (∃ m ≤ n, _))

theorem unregisterConfirmed_zero : UnregisterConfirmed reply 0 ↔
    reply 0 = statusSuccess ∨ reply 0 = fwpECalloutNotFound := by
  constructor
  · rintro ⟨m, hm, -, h⟩
    rwa [Nat.le_zero.mp hm] at h
  · exact fun h => ⟨0, le_rfl, nofun, h⟩

theorem unregisterConfirmed_succ : UnregisterConfirmed reply (n + 1) ↔
    (reply 0 = statusSuccess ∨ reply 0 = fwpECalloutNotFound) ∨
      reply 0 = statusDeviceBusy ∧ UnregisterConfirmed (fun b => reply (b + 1)) n := by
  constructor
  · rintro ⟨m, hm, hb, h⟩
    cases m with
    | zero => exact .inl h
    | succ m =>
      exact .inr ⟨hb 0 m.succ_pos, m, by omega, fun b hlt => hb (b + 1) (by omega), h⟩
  · rintro (h | ⟨h0, m, hm, hb, h⟩)
    · exact ⟨0, Nat.zero_le _, nofun, h⟩
    · refine ⟨m + 1, by omega, fun b hlt => ?_, h⟩
      cases b with
      | zero => exact h0
      | succ b => exact hb b (by omega)

theorem unregisterRound_eq : o.unregisterRound st attempt =
    if st = statusDeviceBusy then none
    else some { o with
      lastStatus := st
      state := if st = statusSuccess ∨ st = fwpECalloutNotFound then .deleted else .leaked
      busyRetries := attempt } := by
  unfold unregisterRound
  by_cases hb : st = statusDeviceBusy
  · subst hb
    rw [if_neg (by decide)]
    simp
  · by_cases hc : st = statusSuccess ∨ st = fwpECalloutNotFound <;> simp [hb, hc]

theorem unregisterLoop_return (hb : reply attempt ≠ statusDeviceBusy) :
    (unregisterLoop o reply attempt n).1 = { o with
      lastStatus := reply attempt
      state := if UnregisterConfirmed (fun m => reply (attempt + m)) n then .deleted
        else .leaked
      busyRetries := attempt } := by
  have hu : UnregisterConfirmed (fun m => reply (attempt + m)) n ↔
      (reply attempt = statusSuccess ∨ reply attempt = fwpECalloutNotFound) := by
    cases n with
    | zero => exact unregisterConfirmed_zero
    | succ n =>
      rw [unregisterConfirmed_succ]
      simp only [Nat.add_zero, hb, false_and, or_false]
  simp only [hu]
  cases n <;> rw [unregisterLoop, unregisterRound_eq, if_neg hb]

theorem unregisterLoop_retry (hb : reply attempt = statusDeviceBusy) :
    unregisterLoop o reply attempt (n + 1) =
      unregisterLoop { o with lastStatus := reply attempt } reply (attempt + 1) n := by
  rw [unregisterLoop, unregisterRound_eq, if_pos hb]

theorem not_confirmed_of_busy (hb : st = statusDeviceBusy) :
    ¬ (st = statusSuccess ∨ st = fwpECalloutNotFound) := by
  rw [hb]
  decide

theorem confirmed_of_retry (hb : reply attempt = statusDeviceBusy) :
    UnregisterConfirmed (fun m => reply (attempt + m)) (n + 1) ↔
      UnregisterConfirmed (fun m => reply (attempt + 1 + m)) n := by
  have hs : (fun m => reply (attempt + 1 + m)) = fun m => reply (attempt + (m + 1)) := by
    funext m
    rw [Nat.add_assoc, Nat.add_comm 1 m]
  rw [unregisterConfirmed_succ, Nat.add_zero, hs]
  exact ⟨fun h => (h.resolve_left (not_confirmed_of_busy hb)).2, fun h => .inr ⟨hb, h⟩⟩

/-- The loop touches state, status and retry count only, and ends in DELETED exactly when
the unregister is confirmed. -/
theorem unregisterLoop_eq : ∃ st b, (unregisterLoop o reply attempt n).1 =
    { o with
      lastStatus := st
      busyRetries := b
      state := if UnregisterConfirmed (fun m => reply (attempt + m)) n then .deleted
        else .leaked } := by
  induction n generalizing o attempt with
  | zero =>
    by_cases hb : reply attempt = statusDeviceBusy
    · refine ⟨reply attempt, attempt + 1, ?_⟩
      rw [unregisterLoop, unregisterRound_eq, if_pos hb,
        if_neg (mt unregisterConfirmed_zero.mp (not_confirmed_of_busy hb))]
    · exact ⟨_, _, unregisterLoop_return hb⟩
  | succ n ih =>
    by_cases hb : reply attempt = statusDeviceBusy
    · have hu := confirmed_of_retry (n := n) hb
      obtain ⟨st, b, h⟩ := ih (o := { o with lastStatus := reply attempt })
      refine ⟨st, b, ?_⟩
      rw [unregisterLoop_retry hb, h]
      simp only [hu]
    · exact ⟨_, _, unregisterLoop_return hb⟩

theorem unregisterLoop_status : ((unregisterLoop o reply attempt n).2 = statusSuccess ∨
    (unregisterLoop o reply attempt n).2 = fwpECalloutNotFound) ↔
      UnregisterConfirmed (fun m => reply (attempt + m)) n := by
  induction n generalizing o attempt with
  | zero =>
    rw [unregisterLoop, unregisterRound_eq, unregisterConfirmed_zero]
    split <;> rfl
  | succ n ih =>
    by_cases hb : reply attempt = statusDeviceBusy
    · rw [unregisterLoop_retry hb, ih, confirmed_of_retry hb]
    · rw [unregisterLoop, unregisterRound_eq, if_neg hb, unregisterConfirmed_succ]
      simp only [Nat.add_zero, hb, false_and, or_false]

/-- `SkWfpObjectUnregister` on a registered callout. -/
theorem unregister_eq (reply : ℕ → NtStatus) (n : ℕ) (ho : o.isInstalled = true) :
    (∃ st b, (o.unregister reply n).1 = { o with
      lastStatus := st
      busyRetries := b
      state := if UnregisterConfirmed reply n then .deleted else .leaked }) ∧
    (((o.unregister reply n).2 = statusSuccess ∨
      (o.unregister reply n).2 = fwpECalloutNotFound) ↔ UnregisterConfirmed reply n) := by
  have hd : ¬ (o.state = .deleted ∨ o.state = .uninitialized) := by
    rintro (h | h) <;> simp [isInstalled, h] at ho
  have hl : o.state ≠ .leaked := by
    intro h
    simp [isInstalled, h] at ho
  have hs : (fun m => reply (0 + m)) = reply := by
    funext m
    rw [Nat.zero_add]
  rw [unregister, if_neg hd, if_neg hl, unregisterLoop_status, hs]
  refine ⟨?_, Iff.rfl⟩
  obtain ⟨st, b, h⟩ : ∃ st b,
      (unregisterLoop { o with state := .quiescing } reply 0 n).1 = _ := unregisterLoop_eq
  exact ⟨st, b, by rw [h, hs]⟩

end WfpObject

end Sentinel
