import Sentinel.Control.Enum

/-! What a completed request shows of the system buffer beyond its own input. -/
namespace Sentinel.Control

open Bytes Codec TwoRuns

variable {r : Ioctl} {d : Driver} {c : Call} {b b' : Buffers} {K K' : ℕ → Prop} {off i : ℕ}
  {new rest rest' : List UInt8} {total : UInt32} {images : List RuleImage}

/-- The part of the system buffer that the request does not fill. -/
def Ioctl.spare (r : Ioctl) : ℕ := max r.input.length r.outLen - r.input.length

/-- METHOD_BUFFERED: one buffer for input and output, with what it held before after the input. -/
def Ioctl.buffered (r : Ioctl) (rest : List UInt8) : Buffers := ⟨r.input ++ rest, none⟩

/-- What the caller sees of two replies is the same. -/
def SameReply (a a' : Reply) : Prop :=
  a.status = a'.status ∧ a.information = a'.information ∧
    (ntSuccess a.status = true → a.output = a'.output)

/-- An ENUM_RULES request that succeeds and ends before the padding of `SK_ENUM_HEADER` does. -/
def ShowsPadding (r : Ioctl) (d : Driver) : Prop :=
  check r d ⟨r.input, none⟩ = .ok .enumRules ∧
  r.input.length < ioctlHeaderSize + enumVersionOffset ∧
  ∃ counted filled, (d.view 0).images = some counted ∧ (d.view 1).images = some filled ∧
    ioctlHeaderSize + enumHeaderSize + counted.length * ruleWireSize ≤ r.outLen ∧
    ioctlHeaderSize + enumHeaderSize + filled.length * ruleWireSize ≤ r.outLen

/-! ### Two runs of a handler -/

/-- One buffer in both runs, with the same bytes where `K` says. -/
structure Known (c : Call) (K : ℕ → Prop) (b b' : Buffers) : Prop where
  shared : b.output = none ∧ b'.output = none
  room : c.outLen.toNat ≤ b.input.length
  agree : Agree K b.input b'.input

theorem Known.mono (h : Known c K b b') (hK : ∀ i, K' i → K i) : Known c K' b b' :=
  ⟨h.shared, h.room, h.agree.mono hK⟩

/-- Both runs write the same. -/
theorem Known.put (h : Known c K b b')
    (hK : ∀ i, K' i → K i ∨ off ≤ i ∧ i < off + new.length) :
    Related (Known c K') (c.put off new b) (c.put off new b') := by
  rw [Call.put, Call.put]
  split
  · rename_i hroom
    have hle : off + new.length ≤ b.input.length := hroom.2.trans h.room
    obtain ⟨hb, hb'⟩ := h.shared
    refine ⟨?_, ?_, ?_⟩
    · simp only [Buffers.write, hb, hb', and_self]
    · simp only [Buffers.write, hb, length_splice hle]
      exact h.room
    · simp only [Buffers.write, hb, hb']
      exact h.agree.splice hle hK
  · trivial

/-- A write that is known already. -/
theorem Known.put_self (h : Known c K b b') :
    Related (Known c K) (c.put off new b) (c.put off new b') :=
  h.put fun _ => .inl

theorem Known.read {α : Type} {k : Codec α} (h : Known c K b b')
    (hK : ∀ i, off ≤ i → i < off + k.size → K i) :
    Related (· = ·) (k.read b.input off : Outcome NtStatus α) (k.read b'.input off) :=
  .of_eq (h.agree.read_eq hK)

/-- The header is echoed from what is known. -/
theorem Known.echoHeader (h : Known c K b b') (hK : ∀ i < ioctlHeaderSize, K i) :
    Related (Known c K) (echoHeader c b total) (echoHeader c b' total) := by
  refine h.put_self.bind fun b b' h => ?_
  refine h.put_self.bind fun b b' h => ?_
  refine (h.read fun i _ hi => hK i ?_).bind fun command _ he => ?_
  · exact hi.trans_le (by decide)
  subst he
  refine h.put_self.bind fun b b' h => ?_
  refine h.put_self.bind fun b b' h => ?_
  refine (h.read fun i _ hi => hK i ?_).bind fun requestId _ he => ?_
  · exact hi.trans_le (by decide)
  subst he
  exact h.put_self

/-- The outcome of a handler in two runs: what is known of the buffer, and of the output after a
success. -/
structure KnownReply (c : Call) (K : ℕ → Prop) (a a' : Reply) : Prop where
  status : a.status = a'.status
  information : a.information = a'.information
  store : a.store = a'.store
  buffers : Known c K a.buffers a'.buffers
  output : ntSuccess a.status = true → Known c (· < a.information.toNat) a.buffers a'.buffers

theorem KnownReply.same {a a' : Reply} (h : KnownReply c K a a') : SameReply a a' := by
  refine ⟨h.status, h.information, fun hs => ?_⟩
  have hk := h.output hs
  obtain ⟨hb, hb'⟩ := hk.shared
  rw [Reply.output, Reply.output, Buffers.out, Buffers.out, hb, hb', ← h.information]
  exact hk.agree.take_eq fun i hi => hi

/-- A handler that fails before it writes. -/
theorem Known.refuse (h : Known c K b b') {st : NtStatus} (hst : ntSuccess st = false) :
    KnownReply c K (refuse d b st total) (refuse d b' st total) :=
  ⟨rfl, rfl, rfl, h, fun hs => absurd (hst.symm.trans hs) Bool.false_ne_true⟩

theorem Known.fixedReply (h : Known c K b b') (hK : ∀ i < ioctlHeaderSize, K i) :
    Related (KnownReply c K) (fixedReply c d b new) (fixedReply c d b' new) := by
  simp only [Control.fixedReply]
  split
  · exact h.refuse rfl
  refine (h.echoHeader hK).bind fun b b' h => ?_
  have hput : Related (Known c fun i => K i ∨ i < ioctlHeaderSize + new.length)
      (c.put ioctlHeaderSize new b) (c.put ioctlHeaderSize new b') := by
    refine h.put fun i hi => ?_
    rcases hi with hi | hi
    · exact .inl hi
    · by_cases hlt : i < ioctlHeaderSize
      · exact .inl (hK i hlt)
      · exact .inr ⟨Nat.le_of_not_lt hlt, hi⟩
  refine hput.bind fun b b' h => ?_
  refine ⟨rfl, rfl, rfl, h.mono fun i hi => .inl hi, fun _ => h.mono fun i hi => .inr ?_⟩
  rw [UInt32.toNat_ofNat'] at hi
  exact hi.trans_le (Nat.mod_le _ _)

theorem cmdGetRuleVersion_known (h : Known c K b b') (hK : ∀ i < ioctlHeaderSize, K i) :
    Related (KnownReply c K) (cmdGetRuleVersion c d b) (cmdGetRuleVersion c d b') := by
  simp only [cmdGetRuleVersion]
  split
  · exact h.refuse rfl
  split
  · exact h.refuse rfl
  · exact h.fixedReply hK

/-- What is written in two parts. -/
theorem range_append {start m n k : ℕ} (hk : k = m + n) (i : ℕ)
    (hi : K i ∨ start ≤ i ∧ i < start + k) :
    (K i ∨ start ≤ i ∧ i < start + m) ∨ start + m ≤ i ∧ i < start + m + n := by
  rcases hi with hi | ⟨hle, hlt⟩
  · exact .inl (.inl hi)
  · by_cases hi : i < start + m
    · exact .inl (.inr ⟨hle, hi⟩)
    · exact .inr ⟨Nat.le_of_not_lt hi, by omega⟩

theorem flushRecords_known {start : UInt32} {n cursor : ℕ} (h : Known c K b b') :
    Related (Known c fun i => K i ∨ cursor ≤ i ∧ i < cursor + n * eventRecordSize)
      (flushRecords c d start n off cursor b) (flushRecords c d start n off cursor b') := by
  induction n generalizing K b b' off cursor with
  | zero =>
    refine h.mono fun i hi => hi.resolve_right ?_
    rw [Nat.zero_mul]
    omega
  | succ n ih =>
    let record := (d.ring ((start + UInt32.ofNat off) % telemetryRing).toNat).toList
    have hput : Related (Known c fun i => K i ∨ cursor ≤ i ∧ i < cursor + eventRecordSize)
        (c.put cursor record b) (c.put cursor record b') :=
      h.put fun i hi => by rwa [Vector.length_toList]
    refine hput.bind fun b b' h => (ih h).mono fun b b' h => h.mono fun i hi => ?_
    exact range_append ((Nat.succ_mul _ _).trans (Nat.add_comm _ _)) i hi

/-- A length in 32 bits is no longer than it should be. -/
theorem toNat_add_mul_le (x y : UInt32) (n : ℕ) :
    (x + y * UInt32.ofNat n).toNat ≤ x.toNat + y.toNat * n := by
  rw [UInt32.toNat_add, UInt32.toNat_mul]
  refine (Nat.mod_le _ _).trans (Nat.add_le_add_left ((Nat.mod_le _ _).trans ?_) _)
  rw [UInt32.toNat_ofNat']
  exact Nat.mul_le_mul_left _ (Nat.mod_le _ _)

theorem cmdFlushEvents_known (h : Known c K b b') (hK : ∀ i < ioctlHeaderSize, K i) :
    Related (KnownReply c K) (cmdFlushEvents c d b) (cmdFlushEvents c d b') := by
  simp only [cmdFlushEvents]
  split
  · exact h.refuse rfl
  generalize flushCount d (flushCap c) = count
  refine (flushRecords_known h).bind fun b b' h => ?_
  refine (h.echoHeader fun i hi => .inl (hK i hi)).bind fun b b' h => ?_
  let bytes := Layout.flushHeader.encode (count, UInt32.ofNat eventRecordSize)
  have hlen : bytes.length = Layout.flushHeader.size := Layout.flushHeader.length_encode _
  have hput : Related (Known c fun i => K i ∨
      i < ioctlHeaderSize + Layout.flushHeader.size + count.toNat * eventRecordSize)
      (c.put ioctlHeaderSize bytes b) (c.put ioctlHeaderSize bytes b') := by
    refine h.put fun i hi => ?_
    have hfixed : (UInt32.ofNat (ioctlHeaderSize + Layout.flushHeader.size)).toNat =
      ioctlHeaderSize + Layout.flushHeader.size := rfl
    have hhdr := hK i
    rw [hlen, hfixed]
    by_cases hi' : i < ioctlHeaderSize
    · exact .inl (.inl (hhdr hi'))
    · rcases hi with hi | hi
      · exact .inl (.inl hi)
      · omega
  refine hput.bind fun b b' h => ?_
  refine ⟨rfl, rfl, rfl, h.mono fun i hi => .inl hi, fun _ => h.mono fun i hi => .inr ?_⟩
  exact hi.trans_le (toNat_add_mul_le _ count _)

/-- The second pass writes as many wires as it counts. -/
theorem enumFill_known {cursor : ℕ} {remaining count : UInt32} (h : Known c K b b') :
    Related (fun x x' => x.1 = x'.1 ∧ x.2.1 = x'.2.1 ∧ ∃ m : ℕ, x.1 = count + UInt32.ofNat m ∧
      Known c (fun i => K i ∨ cursor ≤ i ∧ i < cursor + m * ruleWireSize) x.2.2 x'.2.2)
      (enumFill c images cursor remaining count b)
      (enumFill c images cursor remaining count b') := by
  have hstop : ∀ {K} {b b' : Buffers} {cursor : ℕ} {count : UInt32}, Known c K b b' →
      ∃ m : ℕ, count = count + UInt32.ofNat m ∧
        Known c (fun i => K i ∨ cursor ≤ i ∧ i < cursor + m * ruleWireSize) b b' := by
    intro K b b' cursor count h
    refine ⟨0, (UInt32.add_zero count).symm, h.mono fun i hi => hi.resolve_right ?_⟩
    rw [Nat.zero_mul]
    omega
  induction images generalizing K b b' cursor remaining count with
  | nil => exact ⟨rfl, rfl, hstop h⟩
  | cons m images ih =>
    rw [enumFill, enumFill]
    split
    · exact ⟨rfl, rfl, hstop h⟩
    have hrule : (Layout.rule.encode m).length = pathCharsOffset := Layout.rule.length_encode m
    have h₁ : Related (Known c fun i => K i ∨ cursor ≤ i ∧ i < cursor + pathCharsOffset)
        (c.put cursor (Layout.rule.encode m) b) (c.put cursor (Layout.rule.encode m) b') :=
      h.put fun i hi => by rwa [hrule]
    refine h₁.bind fun b b' h => ?_
    have h₂ : Related (Known c fun i => K i ∨ cursor ≤ i ∧ i < cursor + pathOffsetOffset)
        (c.put (cursor + pathCharsOffset) (u32.encode 0) b)
        (c.put (cursor + pathCharsOffset) (u32.encode 0) b') :=
      h.put (range_append rfl)
    refine h₂.bind fun b b' h => ?_
    have h₃ : Related (Known c fun i => K i ∨ cursor ≤ i ∧ i < cursor + ruleWireSize)
        (c.put (cursor + pathOffsetOffset) (u32.encode 0) b)
        (c.put (cursor + pathOffsetOffset) (u32.encode 0) b') :=
      h.put (range_append rfl)
    refine h₃.bind fun b b' h => (ih h).mono fun x x' hx => ?_
    obtain ⟨hn, ho, n, hcount, hk⟩ := hx
    refine ⟨hn, ho, n + 1, ?_, hk.mono fun i hi => ?_⟩
    · rw [hcount, UInt32.ofNat_add, UInt32.add_assoc, UInt32.add_comm (UInt32.ofNat n)]
      rfl
    · exact range_append ((Nat.succ_mul n _).trans (Nat.add_comm _ _)) i hi

theorem cmdEnumRules_known (h : Known c K b b') (hK : ∀ i < ioctlHeaderSize, K i)
    (hpad : ∀ counted filled, EnumFits c d counted filled →
      ∀ i < ioctlHeaderSize + enumVersionOffset, K i) :
    Related (KnownReply c K) (cmdEnumRules c d b) (cmdEnumRules c d b') := by
  rw [cmdEnumRules, cmdEnumRules]
  cases hc : (d.view 0).images with
  | none => exact h.refuse rfl
  | some counted =>
    dsimp only
    split
    · exact h.refuse rfl
    rename_i hlacks
    cases hf : (d.view 1).images with
    | none => exact h.refuse rfl
    | some filled =>
      refine (enumFill_known h).bind_of_ok fun x x' hx hxx => ?_
      obtain ⟨n, overflow, b⟩ := x
      obtain ⟨n', overflow', b'⟩ := x'
      obtain ⟨rfl, rfl, m, hcount, h⟩ := hxx
      cases overflow with
      | true => exact (h.mono fun i hi => .inl hi).refuse rfl
      | false =>
        have hK' := hpad counted filled (.of_fill hc hf hlacks hx)
        rw [UInt32.zero_add] at hcount
        subst hcount
        refine (h.echoHeader fun i hi => .inl (hK i hi)).bind fun b b' h => ?_
        refine h.put_self.bind fun b b' h => ?_
        let version := u64.encode (d.view 2).version
        have hlen : version.length = u64.size := u64.length_encode _
        have hput : Related (Known c fun i => K i ∨
            i < ioctlHeaderSize + enumHeaderSize + m * ruleWireSize)
            (c.put (ioctlHeaderSize + enumVersionOffset) version b)
            (c.put (ioctlHeaderSize + enumVersionOffset) version b') := by
          refine h.put fun i hi => ?_
          have hend : ioctlHeaderSize + enumVersionOffset + version.length =
            ioctlHeaderSize + enumHeaderSize := by rw [hlen]; rfl
          rw [hend]
          by_cases hi' : i < ioctlHeaderSize + enumVersionOffset
          · exact .inl (.inl (hK' i hi'))
          · rcases hi with hi | hi
            · exact .inl (.inl hi)
            · omega
        refine hput.bind fun b b' h => ?_
        refine ⟨rfl, rfl, rfl, h.mono fun i hi => .inl hi, fun _ => h.mono fun i hi => .inr ?_⟩
        have hm : (UInt32.ofNat m).toNat ≤ m := by
          rw [UInt32.toNat_ofNat']
          exact Nat.mod_le _ _
        refine hi.trans_le ((toNat_add_mul_le _ _ _).trans (Nat.add_le_add_left ?_ _))
        exact Nat.mul_le_mul_right _ hm

theorem noPayload_known {x : Outcome NtStatus (NtStatus × Store)} (h : Known c K b b') :
    Related (KnownReply c K) (noPayload d b x) (noPayload d b' x) := by
  refine Related.refl.bind fun p p' hp => ?_
  subst hp
  exact ⟨rfl, rfl, rfl, h, fun _ => h.mono fun i hi => absurd hi (Nat.not_lt_zero i)⟩

theorem handle_known {command : Command} (h : Known c K b b') (hK : ∀ i < ioctlHeaderSize, K i)
    (hpad : command = .enumRules → ∀ counted filled, EnumFits c d counted filled →
      ∀ i < ioctlHeaderSize + enumVersionOffset, K i) (hp : c.payload b = c.payload b') :
    Related (KnownReply c K) (handle c d b command) (handle c d b' command) := by
  cases command with
  | queryCapabilities => exact h.fixedReply hK
  | getRuleVersion => exact cmdGetRuleVersion_known h hK
  | getStats => exact h.fixedReply hK
  | flushEvents => exact cmdFlushEvents_known h hK
  | enumRules => exact cmdEnumRules_known h hK (hpad rfl)
  | addRule | updateRule =>
    simp only [handle, cmdAddOrUpdateRule, hp]
    exact noPayload_known h
  | deleteRule =>
    simp only [handle, cmdDeleteRule, hp]
    exact noPayload_known h
  | replaceRuleset =>
    simp only [handle, hp]
    exact noPayload_known h
  | clearRules => exact noPayload_known h
  | setDefaultPolicy =>
    simp only [handle, cmdSetDefaultPolicy, hp]
    exact noPayload_known h

theorem echoIfRoom_known {a a' : Reply} (h : KnownReply c K a a')
    (hK : ∀ i < ioctlHeaderSize, K i) :
    Related (KnownReply c K) (echoIfRoom c a) (echoIfRoom c a') := by
  rw [echoIfRoom, echoIfRoom, ← h.status, ← h.information]
  split
  · refine (h.buffers.echoHeader hK).bind fun b b' hb => ?_
    exact ⟨rfl, rfl, h.store, hb, fun _ => hb.mono hK⟩
  · exact h

/-! ### Two runs of a request -/

/-- The checks read the input only. -/
theorem check_buffered (r : Ioctl) (d : Driver) (rest : List UInt8) :
    check r d (r.buffered rest) = check r d ⟨r.input, none⟩ := by
  have hread : ∀ {α : Type} {k : Codec α} {off : ℕ}, ¬ r.input.length < ioctlHeaderSize →
      off + k.size ≤ ioctlHeaderSize →
      (k.read (r.buffered rest).input off : Outcome NtStatus α) = k.read r.input off :=
    fun hlen hoff => read_append_of_le (hoff.trans (Nat.le_of_not_lt hlen))
  rw [check, check]
  split
  · rfl
  split
  · rfl
  split
  · rfl
  split
  · rfl
  rename_i hlen
  rw [not_or] at hlen
  rw [checkHeader, checkHeader, hread hlen.1 (by decide), hread hlen.1 (by decide),
    hread hlen.1 (by decide), hread hlen.1 (by decide)]

theorem check_lengths {command : Command} (h : check r d b = .ok command) :
    ioctlHeaderSize ≤ r.input.length ∧ r.input.length ≤ 0xFFFFFFFF := by
  rw [check] at h
  split at h
  · cases h
  split at h
  · cases h
  split at h
  · cases h
  split at h
  · cases h
  rename_i hlen
  exact ⟨Nat.le_of_not_lt fun h => hlen (.inl h), Nat.le_of_not_lt fun h => hlen (.inr h)⟩

theorem check_length {command : Command} (h : check r d b = .ok command) :
    ioctlHeaderSize ≤ r.input.length := (check_lengths h).1

/-- The length of the payload has not wrapped. -/
theorem toNat_call_payloadLen {command : Command} (h : check r d b = .ok command) :
    r.call.payloadLen.toNat = r.input.length - ioctlHeaderSize := by
  obtain ⟨hheader, hmax⟩ := check_lengths h
  have hlen : (UInt32.ofNat r.input.length).toNat = r.input.length :=
    UInt32.toNat_ofNat_of_lt' (by rw [UInt32.size]; omega)
  have hsize : (UInt32.ofNat ioctlHeaderSize).toNat = ioctlHeaderSize := rfl
  rw [Ioctl.call, UInt32.toNat_sub_of_le _ _ (UInt32.le_iff_toNat_le.mpr (by omega)), hlen, hsize]

/-- The payload of a call is what follows the header of the input. -/
theorem call_payload {command : Command} (hc : check r d b = .ok command)
    (h : r.input <+: b'.input) : r.call.payload b' = r.input.drop ioctlHeaderSize := by
  obtain ⟨rest, hrest⟩ := h
  have hdrop : (r.input.drop ioctlHeaderSize).length = r.input.length - ioctlHeaderSize :=
    List.length_drop
  rw [Call.payload, ← hrest, List.drop_append_of_le_length (check_length hc),
    toNat_call_payloadLen hc, ← hdrop, List.take_left]

theorem toNat_call_outLen (r : Ioctl) : r.call.outLen.toNat = min r.outLen 0xFFFFFFFF := by
  refine UInt32.toNat_ofNat_of_lt' ?_
  have hsize : UInt32.size = 4294967296 := rfl
  omega

/-- At first the input is known. -/
theorem Ioctl.known (r : Ioctl) (h : rest.length = r.spare) (h' : rest'.length = r.spare) :
    Known r.call (· < r.input.length) (r.buffered rest) (r.buffered rest') := by
  refine ⟨⟨rfl, rfl⟩, ?_, ?_, fun i hi => ?_⟩
  · rw [toNat_call_outLen, buffered, List.length_append, h, spare]
    omega
  · rw [buffered, buffered, List.length_append, List.length_append, h, h']
  · rw [buffered, buffered, List.getElem?_append_left hi, List.getElem?_append_left hi]

/-- A request that succeeds with the padding of `SK_ENUM_HEADER` in its input, or is another
command, gets what the input and the driver determine. -/
theorem same_of_not_showsPadding (hs : ¬ ShowsPadding r d) (h : rest.length = r.spare)
    (h' : rest'.length = r.spare) :
    Related SameReply (evtDeviceControl r d (r.buffered rest))
      (evtDeviceControl r d (r.buffered rest')) := by
  rw [evtDeviceControl, evtDeviceControl, check_buffered, check_buffered]
  cases hc : check r d ⟨r.input, none⟩ with
  | fault => trivial
  | error st =>
    refine ⟨rfl, rfl, fun _ => ?_⟩
    rfl
  | ok command =>
    have hlen := check_length hc
    have hK : ∀ i < ioctlHeaderSize, i < r.input.length := fun i hi => hi.trans_le hlen
    have hpay : r.call.payload (r.buffered rest) = r.call.payload (r.buffered rest') := by
      rw [call_payload hc (List.prefix_append _ _), call_payload hc (List.prefix_append _ _)]
    refine (handle_known (r.known h h') hK ?_ hpay).bind fun a a' ha =>
      (echoIfRoom_known ha hK).bind fun a a' ha => ha.same
    rintro rfl counted filled hf i hi
    refine hi.trans_le (Nat.le_of_not_lt fun hshort => hs ⟨hc, hshort, counted, filled,
      hf.view₀, hf.view₁, hf.first.trans ?_, hf.second.trans ?_⟩)
    · rw [toNat_call_outLen]
      exact min_le_left _ _
    · rw [toNat_call_outLen]
      exact min_le_left _ _

theorem room_buffered (hlen : ioctlHeaderSize ≤ r.input.length) (hout : 0 < r.outLen)
    (h : rest.length = r.spare) : r.call.Room (r.buffered rest) := by
  refine ⟨decide_eq_true hout, ?_, (r.known h h).room⟩
  rw [Ioctl.buffered, List.length_append]
  omega

/-- The padding of `SK_ENUM_HEADER` is what the buffer held before. -/
theorem padding_of_showsPadding (hs : ShowsPadding r d) (h : rest.length = r.spare) :
    ∃ a, evtDeviceControl r d (r.buffered rest) = .ok a ∧ ntSuccess a.status = true ∧
      ∀ i, ioctlHeaderSize + enumCountOffset + 4 ≤ i → i < ioctlHeaderSize + enumVersionOffset →
        a.output[i]? = (r.input ++ rest)[i]? := by
  obtain ⟨hc, -, counted, filled, hcounted, hfilled, hfirst, hsecond⟩ := hs
  have hlen := check_length hc
  have hmax := (d.view 1).bound _ hfilled
  have hmax₀ := (d.view 0).bound _ hcounted
  have hfixed : 0 < ioctlHeaderSize + enumHeaderSize := by decide
  have hfits : EnumFits r.call d counted filled := by
    have hbig : ioctlHeaderSize + enumHeaderSize + ruleMax * ruleWireSize ≤ 0xFFFFFFFF := by decide
    have h₀ := Nat.mul_le_mul_right ruleWireSize hmax₀
    have h₁ := Nat.mul_le_mul_right ruleWireSize hmax
    refine ⟨hcounted, hfilled, decide_eq_true (by omega), ?_, ?_⟩ <;>
      rw [toNat_call_outLen, le_min_iff] <;> exact ⟨by assumption, by omega⟩
  obtain ⟨a, ha, hr⟩ := cmdEnumRules_fits (room_buffered hlen (by omega) h) hfits
  have hinfo : a.information.toNat = ioctlHeaderSize + enumHeaderSize +
      filled.length * ruleWireSize := by rw [hr.information, toNat_enumTotal hmax]
  have hne : a.information ≠ 0 := by
    intro hzero
    rw [hzero, UInt32.toNat_zero] at hinfo
    omega
  refine ⟨a.complete, ?_, by rw [Reply.complete, hr.status]; rfl, fun i hle hlt => ?_⟩
  · rw [evtDeviceControl, check_buffered, hc]
    dsimp only
    rw [handle, ha, Outcome.ok_bind, echoIfRoom,
      if_neg fun h => hne h.2.1]
    rfl
  · have hend : ioctlHeaderSize + enumVersionOffset ≤ ioctlHeaderSize + enumHeaderSize := by decide
    have hcut : i < a.complete.information.toNat := lt_of_lt_of_eq (by omega) hinfo.symm
    rw [Reply.output, List.getElem?_take_of_lt hcut]
    exact (hr.padding.get i ⟨hle, hlt⟩).symm

/-- What the last byte of the padding held before shows. -/
theorem not_same_of_showsPadding (hs : ShowsPadding r d) :
    ¬ Related SameReply (evtDeviceControl r d (r.buffered (.replicate r.spare 0)))
      (evtDeviceControl r d (r.buffered (.replicate r.spare 1))) := by
  intro hsame
  have hlen : ∀ v : UInt8, (List.replicate r.spare v).length = r.spare :=
    fun v => List.length_replicate
  obtain ⟨a, ha, hsucc, hpad⟩ := padding_of_showsPadding hs (hlen 0)
  obtain ⟨a', ha', -, hpad'⟩ := padding_of_showsPadding hs (hlen 1)
  rw [ha, ha'] at hsame
  have hout := hsame.2.2 hsucc
  have hlast : ioctlHeaderSize + enumCountOffset + 4 ≤ 31 ∧
    31 < ioctlHeaderSize + enumVersionOffset := by decide
  have hbyte : ∀ v : UInt8, (r.input ++ List.replicate r.spare v)[31]? = some v := by
    obtain ⟨hc, hshort, counted, filled, -, -, hfirst, -⟩ := hs
    have hinput := check_length hc
    intro v
    simp only [ioctlHeaderSize, enumVersionOffset, enumHeaderSize] at hshort hfirst
    rw [List.getElem?_append_right (by omega), List.getElem?_replicate_of_lt]
    rw [Ioctl.spare]
    omega
  have h31 := hpad 31 hlast.1 hlast.2
  rw [hout, hpad' 31 hlast.1 hlast.2, hbyte 0, hbyte 1] at h31
  exact absurd h31 (by decide)

/-- Nothing but the input and the driver shows, just when the padding does not. -/
theorem output_determined_iff (r : Ioctl) (d : Driver) :
    (∀ rest rest', rest.length = r.spare → rest'.length = r.spare →
      Related SameReply (evtDeviceControl r d (r.buffered rest))
        (evtDeviceControl r d (r.buffered rest'))) ↔ ¬ ShowsPadding r d :=
  ⟨fun h hs => not_same_of_showsPadding hs
      (h _ _ List.length_replicate List.length_replicate),
    fun hs _ _ h h' => same_of_not_showsPadding hs h h'⟩

/-- `IOCTL_SHINKEN_ENUM_RULES` with a header and nothing else. -/
def enumRequest : Ioctl where
  ioControlCode := 0x9C402014
  paramsCode := 0x9C402014
  context := none
  input := u32.encode 24 ++ u16.encode 1 ++ u16.encode 5 ++ u32.encode 0 ++ u32.encode 0 ++
    u64.encode 0
  outLen := 40
  inStatus := statusSuccess
  outStatus := statusSuccess
  outNull := false

/-- A driver with the empty rule set of `SkRuleStoreInit`. -/
def emptyDriver : Driver where
  gateOpen := true
  active := true
  view _ := ⟨some [], 0, verdictPermit, fun l h => by cases h; exact Nat.zero_le _⟩
  store := .init rateTableEmpty
  env := .granted
  alloc := true
  stats := ⟨0, 0, 0, 0, 0, 0, 0, 0, 0, 0⟩
  posted := 0
  consumed := 0
  dropped := 0
  overflowDropped := 0
  ring _ := .replicate eventRecordSize 0
  ringHead := 0
  ringTotal := 0

/-- The four bytes between `count` and `version` are what the pool has left there. -/
theorem output_shows_padding :
    ∃ rest rest', rest.length = enumRequest.spare ∧ rest'.length = enumRequest.spare ∧
      ¬ Related SameReply (evtDeviceControl enumRequest emptyDriver (enumRequest.buffered rest))
        (evtDeviceControl enumRequest emptyDriver (enumRequest.buffered rest')) := by
  refine ⟨_, _, List.length_replicate, List.length_replicate, not_same_of_showsPadding ?_⟩
  exact ⟨by decide, by decide, [], [], rfl, rfl, by decide, by decide⟩

end Sentinel.Control
