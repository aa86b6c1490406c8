import Sentinel.Control.Disclosure
import Sentinel.Store.WellFormed

/-! Every request is completed, and only a modify command can change the store. -/
namespace Sentinel.Control

open Bytes Codec TwoRuns Outcome

variable {c : Call} {d : Driver} {b b' : Buffers} {bytes : List UInt8} {total : UInt32}
  {images : List RuleImage} {cursor n i : ℕ} {remaining count start : UInt32} {r : Ioctl}

/-- The output pointer of a call points to what its length says. -/
def Call.Backed (c : Call) (b : Buffers) : Prop := c.out = true → c.Room b

/-- What a handler that only reads leaves behind. -/
structure Read (c : Call) (d : Driver) (a : Reply) : Prop where
  backed : c.Backed a.buffers
  store : a.store = d.store
  telemetry : a.telemetry = d.toTelemetry
  completions : a.completions = []

/-- What the writers of the store leave behind. -/
def Written (d : Driver) (s : Store) : Prop :=
  s = d.store ∨ ∃ req : Request, s = (d.store.run req.writer d.env).2

theorem Written.wellFormed {s : Store} (h : Written d s) (hd : d.store.WellFormed) :
    s.WellFormed := by
  obtain rfl | ⟨req, rfl⟩ := h
  · exact hd
  · exact Store.wellFormed_run hd

/-! ### The handlers that read -/

theorem read_refuse (hb : c.Backed b) (status : NtStatus) (information : UInt32) :
    Read c d (refuse d b status information) := ⟨hb, rfl, rfl, rfl⟩

theorem room_of_not_lacks (hb : c.Backed b) (hl : ¬ c.lacks total) :
    c.Room b ∧ total.toNat ≤ c.outLen.toNat := by
  rw [Call.lacks, not_or, Bool.not_eq_false, UInt32.lt_iff_toNat_lt, Nat.not_lt] at hl
  exact ⟨hb hl.1, hl.2⟩

theorem Call.Room.put_returns {off : ℕ} {new : List UInt8} (hb : c.Room b)
    (hle : off + new.length ≤ c.outLen.toNat) : (c.put off new b).Returns c.Room :=
  ⟨_, hb.put hle, hb.write hle⟩

theorem Call.Room.echoHeader_returns (hb : c.Room b) (hle : ioctlHeaderSize ≤ c.outLen.toNat) :
    (Control.echoHeader c b total).Returns c.Room := by
  obtain ⟨b', h, hb', -⟩ := @Call.Room.echoHeader c b total hb hle
  exact ⟨b', h, hb'⟩

theorem fixedReply_read (hb : c.Backed b)
    (hlen : ioctlHeaderSize + bytes.length < UInt32.size) :
    (fixedReply c d b bytes).Returns (Read c d) := by
  rw [fixedReply]
  split
  · exact .of_ok (read_refuse hb _ _)
  · rename_i hl
    obtain ⟨hroom, hle⟩ := room_of_not_lacks hb hl
    rw [UInt32.toNat_ofNat_of_lt' hlen] at hle
    refine (hroom.echoHeader_returns (by omega)).bind fun b hb => ?_
    refine (hb.put_returns hle).bind fun b hb => ?_
    exact .of_ok ⟨fun _ => hb, rfl, rfl, rfl⟩

theorem cmdGetRuleVersion_read (hb : c.Backed b) :
    (cmdGetRuleVersion c d b).Returns (Read c d) := by
  rw [cmdGetRuleVersion]
  split
  · exact .of_ok (read_refuse hb _ _)
  · split
    · exact .of_ok (read_refuse hb _ _)
    · apply fixedReply_read hb
      rw [Layout.ruleVersion.length_encode]
      decide

/-- The second pass keeps what every write into the output buffer keeps. -/
theorem enumFill_keeps {P : Buffers → Prop}
    (hput : ∀ {b off new}, P b → off + new.length ≤ c.outLen.toNat → (c.put off new b).Returns P)
    (hb : P b) (hroom : cursor + remaining.toNat ≤ c.outLen.toNat) :
    (enumFill c images cursor remaining count b).Returns fun x => P x.2.2 := by
  induction images generalizing cursor remaining count b with
  | nil => exact .of_ok hb
  | cons m images ih =>
    rw [enumFill]
    split
    · exact .of_ok hb
    · rename_i hle
      have hle := UInt32.not_lt.mp hle
      have hsize : (UInt32.ofNat ruleWireSize).toNat = 184 := rfl
      have hleft := UInt32.toNat_sub_of_le _ _ hle
      have hrule : (Layout.rule.encode m).length = 176 := Layout.rule.length_encode m
      have hwire : ruleWireSize = 184 := rfl
      have hchars : pathCharsOffset + (u32.encode 0).length = 180 := rfl
      have hoffset : pathOffsetOffset + (u32.encode 0).length = 184 := rfl
      rw [UInt32.le_iff_toNat_le] at hle
      refine (hput hb (by omega)).bind fun b hb => ?_
      refine (hput hb (by omega)).bind fun b hb => ?_
      refine (hput hb (by omega)).bind fun b hb => ?_
      exact ih hb (by omega)

/-- What the second pass has room for. -/
theorem enumFill_room (hfixed : ioctlHeaderSize + enumHeaderSize ≤ c.outLen.toNat) :
    ioctlHeaderSize + enumHeaderSize +
      (c.outLen - UInt32.ofNat (ioctlHeaderSize + enumHeaderSize)).toNat ≤ c.outLen.toNat := by
  rw [toNat_remaining hfixed]
  omega

theorem cmdEnumRules_read (hb : c.Backed b) : (cmdEnumRules c d b).Returns (Read c d) := by
  rw [cmdEnumRules]
  cases hc : (d.view 0).images with
  | none => exact .of_ok (read_refuse hb _ _)
  | some counted =>
    dsimp only
    split
    · exact .of_ok (read_refuse hb _ _)
    rename_i hl
    obtain ⟨hout, hfirst⟩ := (not_lacks_iff ((d.view 0).bound _ hc)).mp hl
    have hfixed : ioctlHeaderSize + enumHeaderSize ≤ c.outLen.toNat := by omega
    cases (d.view 1).images with
    | none => exact .of_ok (read_refuse hb _ _)
    | some filled =>
      refine (enumFill_keeps Call.Room.put_returns (hb hout) (enumFill_room hfixed)).bind ?_
      rintro ⟨count, overflow, b₀⟩ hb₀
      cases overflow with
      | true => exact .of_ok ⟨fun _ => hb₀, rfl, rfl, rfl⟩
      | false =>
        have hcount : ioctlHeaderSize + enumCountOffset + (u32.encode count).length ≤
          c.outLen.toNat := le_trans (by rw [u32.length_encode]; decide) hfixed
        have hversion : ioctlHeaderSize + enumVersionOffset +
            (u64.encode (d.view 2).version).length ≤ c.outLen.toNat :=
          le_trans (by rw [u64.length_encode]; decide) hfixed
        dsimp only
        rw [if_neg Bool.false_ne_true]
        refine (hb₀.echoHeader_returns (by omega)).bind fun b hb => ?_
        refine (hb.put_returns hcount).bind fun b hb => ?_
        refine (hb.put_returns hversion).bind fun b hb => ?_
        exact .of_ok ⟨fun _ => hb, rfl, rfl, rfl⟩

/-- A success reports the rules of the second read. -/
theorem cmdEnumRules_describes {a : Reply} (hb : c.Backed b) (h : cmdEnumRules c d b = .ok a)
    (hs : ntSuccess a.status = true) :
    ∃ filled, (d.view 1).images = some filled ∧ EnumReply c d b filled a := by
  obtain ⟨counted, filled, hfits⟩ := cmdEnumRules_success h hs
  obtain ⟨a', ha', hr⟩ := cmdEnumRules_fits (hb hfits.out) hfits
  obtain rfl := Outcome.ok.inj (h.symm.trans ha')
  exact ⟨filled, hfits.view₁, hr⟩

/-- The copies keep what every write into the output buffer keeps. -/
theorem flushRecords_keeps {P : Buffers → Prop}
    (hput : ∀ {b off new}, P b → off + new.length ≤ c.outLen.toNat → (c.put off new b).Returns P)
    (hb : P b) (hroom : cursor + n * eventRecordSize ≤ c.outLen.toNat) :
    (flushRecords c d start n i cursor b).Returns P := by
  induction n generalizing b cursor i with
  | zero => exact .of_ok hb
  | succ n ih =>
    rw [Nat.succ_mul] at hroom
    rw [flushRecords]
    have hlen : (d.ring ((start + UInt32.ofNat i) % telemetryRing).toNat).toList.length =
      eventRecordSize := Vector.length_toList
    refine (hput hb (by omega)).bind fun b hb => ?_
    exact ih hb (by omega)

/-- So many records fit. -/
theorem flushCount_le (hfixed : ioctlHeaderSize + Layout.flushHeader.size ≤ c.outLen.toNat) :
    ioctlHeaderSize + Layout.flushHeader.size + (flushCount d (flushCap c)).toNat *
      eventRecordSize ≤ c.outLen.toNat := by
  have hmin : ∀ x y : UInt32, (if x < y then x else y).toNat ≤ y.toNat := by
    intro x y
    split
    · rename_i h
      exact (UInt32.lt_iff_toNat_lt.mp h).le
    · exact le_rfl
  have hcount : (flushCount d (flushCap c)).toNat ≤ (flushCap c).toNat := hmin _ _
  have hle : UInt32.ofNat (ioctlHeaderSize + Layout.flushHeader.size) ≤ c.outLen :=
    UInt32.le_iff_toNat_le.mpr hfixed
  have hcap : (flushCap c).toNat ≤
      (c.outLen.toNat - (ioctlHeaderSize + Layout.flushHeader.size)) / eventRecordSize := by
    have hdiv : ((c.outLen - UInt32.ofNat (ioctlHeaderSize + Layout.flushHeader.size)) /
        UInt32.ofNat eventRecordSize).toNat =
        (c.outLen.toNat - (ioctlHeaderSize + Layout.flushHeader.size)) / eventRecordSize := by
      rw [UInt32.toNat_div, UInt32.toNat_sub_of_le _ _ hle]
      rfl
    rw [flushCap, ← hdiv]
    exact hmin _ _
  have hmul := Nat.div_mul_le_self
    (c.outLen.toNat - (ioctlHeaderSize + Layout.flushHeader.size)) eventRecordSize
  have hle := Nat.mul_le_mul_right eventRecordSize (hcount.trans hcap)
  omega

/-- The header of the records fits. -/
theorem flushHeader_room (hfixed : ioctlHeaderSize + Layout.flushHeader.size ≤ c.outLen.toNat)
    (x : UInt32 × UInt32) :
    ioctlHeaderSize + (Layout.flushHeader.encode x).length ≤ c.outLen.toNat := by
  rw [Layout.flushHeader.length_encode]
  exact hfixed

theorem cmdFlushEvents_read (hb : c.Backed b) : (cmdFlushEvents c d b).Returns (Read c d) := by
  rw [cmdFlushEvents]
  dsimp only
  split
  · exact .of_ok (read_refuse hb _ _)
  · rename_i hl
    obtain ⟨hroom, hfixed⟩ := room_of_not_lacks hb hl
    refine (flushRecords_keeps Call.Room.put_returns hroom (flushCount_le hfixed)).bind
      fun b hb => ?_
    refine (hb.echoHeader_returns (le_trans (by decide) hfixed)).bind fun b hb => ?_
    refine (hb.put_returns (flushHeader_room hfixed _)).bind fun b hb => ?_
    exact .of_ok ⟨fun _ => hb, rfl, rfl, rfl⟩

/-! ### The handlers that write -/

theorem written_run {w : Writer} (req : Request) (h : w = req.writer) :
    Written d (d.store.run w d.env).2 := .inr ⟨req, h ▸ rfl⟩

theorem cmdAddOrUpdateRule_written (isUpdate : Bool) :
    (cmdAddOrUpdateRule c d b isUpdate).Returns fun p => Written d p.2 := by
  have hof : 0 + (UInt32.ofNat (c.payload b).length).toNat ≤ (c.payload b).length := by
    rw [Nat.zero_add, UInt32.toNat_ofNat']
    exact Nat.mod_le _ _
  rw [cmdAddOrUpdateRule]
  cases hv : validateWire (c.payload b) 0 (UInt32.ofNat (c.payload b).length) with
  | fault => exact absurd hv (validateWire_ne_fault hof)
  | error st => exact .of_ok (.inl rfl)
  | ok wireBytes =>
    dsimp only
    split
    · exact .of_ok (.inl rfl)
    · obtain ⟨rule, hc⟩ := convertWire_ok hof hv
      rw [hc, Outcome.ok_bind]
      cases isUpdate with
      | false => exact .of_ok (written_run (.add (some rule)) rfl)
      | true => exact .of_ok (written_run (.update (some rule)) rfl)

theorem cmdDeleteRule_written : (cmdDeleteRule c d b).Returns fun p => Written d p.2 := by
  rw [cmdDeleteRule]
  split
  · exact .of_ok (.inl rfl)
  · rename_i hlen
    obtain ⟨ruleId, hr⟩ : ∃ a, (u64.read (c.payload b) 0 : Outcome NtStatus _) = .ok a :=
      read_of_le (by rw [not_not.mp hlen, Nat.zero_add])
    rw [hr, Outcome.ok_bind]
    exact .of_ok (written_run (.delete ruleId) rfl)

theorem cmdSetDefaultPolicy_written :
    (cmdSetDefaultPolicy c d b).Returns fun p => Written d p.2 := by
  rw [cmdSetDefaultPolicy]
  split
  · exact .of_ok (.inl rfl)
  · rename_i hlen
    obtain ⟨policy, hr⟩ : ∃ a, (u32.read (c.payload b) 0 : Outcome NtStatus _) = .ok a :=
      read_of_le (by rw [not_not.mp hlen, Nat.zero_add])
    rw [hr, Outcome.ok_bind]
    split
    · exact .of_ok (.inl rfl)
    · exact .of_ok (written_run (.setDefaultPolicy policy) rfl)

theorem cmdReplaceRuleset_written :
    (cmdReplaceRuleset (c.payload b) d.alloc d.env d.store).Returns fun p =>
      Written d p.2 := by
  rw [cmdReplaceRuleset]
  cases hp : parseReplace (c.payload b) d.alloc with
  | fault => exact absurd hp (parseReplace_ne_fault _ _)
  | error st => exact .of_ok (.inl rfl)
  | ok p => exact .of_ok (written_run (.replace p.1 p.2) rfl)

/-! ### The request -/

/-- What a handler leaves behind: the store may have changed after a modify command only, the
ring and the statistics have not, and the request is yet to be completed. -/
structure Served (c : Call) (d : Driver) (command : Command) (a : Reply) : Prop where
  backed : c.Backed a.buffers
  kept : command.isModify = false → a.store = d.store
  written : Written d a.store
  telemetry : a.telemetry = d.toTelemetry
  completions : a.completions = []

theorem Read.served {command : Command} {a : Reply} (h : Read c d a) : Served c d command a :=
  ⟨h.backed, fun _ => h.store, .inl h.store, h.telemetry, h.completions⟩

theorem noPayload_served {command : Command} {x : Outcome NtStatus (NtStatus × Store)}
    (hb : c.Backed b) (hm : command.isModify = true) (hx : x.Returns fun p => Written d p.2) :
    (noPayload d b x).Returns (Served c d command) := by
  obtain ⟨⟨st, s⟩, rfl, hw⟩ := hx
  exact .of_ok ⟨hb, by simp [hm], hw, rfl, rfl⟩

theorem handle_served (hb : c.Backed b) (command : Command) :
    (handle c d b command).Returns (Served c d command) := by
  have hread : ∀ {x : Outcome NtStatus Reply}, x.Returns (Read c d) →
      x.Returns (Served c d command) := fun hx => hx.mono fun _ => Read.served
  cases command with
  | queryCapabilities =>
    apply hread (fixedReply_read hb _)
    rw [Layout.capabilities.length_encode]
    decide
  | getRuleVersion => exact hread (cmdGetRuleVersion_read hb)
  | enumRules => exact hread (cmdEnumRules_read hb)
  | getStats =>
    apply hread (fixedReply_read hb _)
    rw [List.length_append, ruleStatsBytes, Layout.ruleStats.length_encode,
      Layout.queueStats.length_encode]
    decide
  | flushEvents => exact hread (cmdFlushEvents_read hb)
  | addRule => exact noPayload_served hb rfl (cmdAddOrUpdateRule_written false)
  | updateRule => exact noPayload_served hb rfl (cmdAddOrUpdateRule_written true)
  | deleteRule => exact noPayload_served hb rfl cmdDeleteRule_written
  | replaceRuleset => exact noPayload_served hb rfl cmdReplaceRuleset_written
  | clearRules => exact noPayload_served hb rfl ⟨_, rfl, written_run .clear rfl⟩
  | setDefaultPolicy => exact noPayload_served hb rfl cmdSetDefaultPolicy_written

theorem echoIfRoom_served {command : Command} {a : Reply} (h : Served c d command a) :
    (echoIfRoom c a).Returns (Served c d command) := by
  rw [echoIfRoom]
  split
  · rename_i hroom
    obtain ⟨-, -, hout, hheader⟩ := hroom
    have hle := UInt32.le_iff_toNat_le.mp hheader
    refine ((h.backed hout).echoHeader_returns hle).bind fun b hb => ?_
    exact .of_ok ⟨fun _ => hb, h.kept, h.written, h.telemetry, h.completions⟩
  · exact .of_ok h

/-- What WDF hands over: the input is where the input pointer points to, and the memory behind
the output pointer is as long as it says. -/
structure Ioctl.Loaded (r : Ioctl) (b : Buffers) : Prop where
  input : r.input <+: b.input
  output : r.outLen ≤ b.out.length

theorem Ioctl.Loaded.header (h : r.Loaded b) (hlen : ioctlHeaderSize ≤ r.input.length) :
    ioctlHeaderSize ≤ b.input.length := hlen.trans h.input.length_le

theorem Ioctl.Loaded.backed (h : r.Loaded b) (hlen : ioctlHeaderSize ≤ r.input.length) :
    r.call.Backed b := by
  refine fun hout => ⟨hout, h.header hlen, ?_⟩
  rw [toNat_call_outLen]
  exact (min_le_left _ _).trans h.output

theorem checkHeader_ne_fault (h : ioctlHeaderSize ≤ b.input.length) : checkHeader r b ≠ .fault := by
  have hread : ∀ {α : Type} (k : Codec α) {off : ℕ}, off + k.size ≤ ioctlHeaderSize →
      ∃ a, (k.read b.input off : Outcome NtStatus α) = .ok a :=
    fun _ _ hoff => read_of_le (hoff.trans h)
  obtain ⟨size, hs⟩ := @hread _ u32 hdrSizeOffset (by decide)
  obtain ⟨version, hv⟩ := @hread _ u16 hdrVersionOffset (by decide)
  obtain ⟨flags, hf⟩ := @hread _ u32 hdrFlagsOffset (by decide)
  obtain ⟨code, hc⟩ := @hread _ u16 hdrCommandOffset (by decide)
  rw [checkHeader, hs, Outcome.ok_bind]
  split
  · simp
  rw [hv, Outcome.ok_bind]
  split
  · simp
  rw [hf, Outcome.ok_bind]
  split
  · simp
  rw [hc, Outcome.ok_bind]
  split
  · simp
  · split <;> simp

/-- The checks come to a status or to a command that the handle may give. -/
theorem check_served (h : r.Loaded b) : (∃ st, check r d b = .error st) ∨
    ∃ command, check r d b = .ok command ∧
      (command.isModify = true → r.context = some true) := by
  rw [check]
  split
  · exact .inl ⟨_, rfl⟩
  split
  · exact .inl ⟨_, rfl⟩
  split
  · exact .inl ⟨_, rfl⟩
  split
  · exact .inl ⟨_, rfl⟩
  rename_i hlen
  have hheader := h.header (Nat.le_of_not_lt fun hlt => hlen (.inl hlt))
  cases hc : checkHeader r b with
  | fault => exact absurd hc (checkHeader_ne_fault hheader)
  | error st => exact .inl ⟨st, rfl⟩
  | ok command =>
    rw [Outcome.ok_bind]
    split
    · exact .inl ⟨_, rfl⟩
    rename_i hprivilege
    split
    · exact .inl ⟨_, rfl⟩
    split
    · exact .inl ⟨_, rfl⟩
    · exact .inr ⟨command, rfl, fun hm => not_not.mp fun hne => hprivilege ⟨hm, hne⟩⟩

/-- What `SkIoctlEvtDeviceControl` leaves behind: without the privilege the store is as before,
the ring and the statistics always are, and the request has been completed once. -/
structure Finished (r : Ioctl) (d : Driver) (a : Reply) : Prop where
  kept : r.context ≠ some true → a.store = d.store
  written : Written d a.store
  telemetry : a.telemetry = d.toTelemetry
  completions : a.completions = [⟨a.status, a.information, a.output⟩]

theorem evtDeviceControl_served (h : r.Loaded b) :
    (evtDeviceControl r d b).Returns (Finished r d) := by
  rw [evtDeviceControl]
  obtain ⟨st, hc⟩ | ⟨command, hc, hp⟩ := @check_served d b r h
  · rw [hc]
    exact .of_ok ⟨fun _ => rfl, .inl rfl, rfl, rfl⟩
  · have hb := h.backed (check_length hc)
    obtain ⟨a, ha, hs⟩ := @handle_served _ d b hb command
    obtain ⟨a', ha', hs'⟩ := echoIfRoom_served hs
    rw [hc]
    dsimp only
    rw [ha, Outcome.ok_bind, ha', Outcome.ok_bind]
    refine .of_ok ⟨fun hctx => hs'.kept ?_, hs'.written, hs'.telemetry, ?_⟩
    · exact Bool.eq_false_iff.mpr fun hm => hctx (hp hm)
    · rw [Reply.complete, hs'.completions]
      rfl

end Sentinel.Control
