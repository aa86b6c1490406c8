import Sentinel.Control.Served
import Sentinel.General.Ring
import Sentinel.Telemetry.Queue

/-! The ring of consumed records: `shTelemetrySink` and `SkTelemetryFlush`. -/
namespace Sentinel.Telemetry

open Bytes TwoRuns EventQueue Control RingBuffer

/-- `g_SkRing`, `g_SkRingSize`, `g_SkRingHead` and `g_SkRingTotal`. -/
structure EventRing where
  slot : ℕ → Vector UInt8 eventPayloadSize
  size : ℕ → UInt32
  head : UInt32
  total : UInt64

/-- Zeroed memory. -/
def ringInit : EventRing where
  slot _ := .replicate eventPayloadSize 0
  size _ := 0
  head := 0
  total := 0

/-- `RtlCopyMemory` to the beginning of a slot. -/
def overlay {n : ℕ} (slot : Vector UInt8 n) (payload : List UInt8) : Vector UInt8 n :=
  .ofFn fun i => payload[i.val]?.getD slot[i]

/-- `shTelemetrySink`, with the valid bytes of the payload. -/
def telemetrySink (r : EventRing) (payload : List UInt8) : EventRing :=
  if payload.length = 0 ∨ eventPayloadSize < payload.length then r
  else
    { slot := Function.update r.slot r.head.toNat (overlay (r.slot r.head.toNat) payload)
      size := Function.update r.size r.head.toNat (UInt32.ofNat payload.length)
      head := (r.head + 1) % telemetryRing
      total := r.total + 1 }

/-- `RtlCopyMemory`; a copy past the end of the destination is a fault. -/
def copyMemory (dst : List UInt8) (off : ℕ) (src : List UInt8) : Outcome NtStatus (List UInt8) :=
  if off + src.length ≤ dst.length then .ok (splice dst off src) else .fault

/-- The loop of `SkTelemetryFlush`: `n` records from the `i`-th on. -/
def flushCopy (r : EventRing) (start : UInt32) (recordSize : ℕ) :
    ℕ → ℕ → List UInt8 → Outcome NtStatus (List UInt8)
  | 0, _, out => .ok out
  | n + 1, i, out => do
    let idx := (start + UInt32.ofNat i) % telemetryRing
    let out ← copyMemory out (i * recordSize) ((r.slot idx.toNat).toList.take recordSize)
    flushCopy r start recordSize n (i + 1) out

/-- What `SkTelemetryFlush` returns and leaves behind; `out` is `none` for NULL. -/
structure Flushed where
  count : UInt32
  out : Option (List UInt8)
  ring : EventRing

/-- `SkTelemetryFlush`. -/
def telemetryFlush (r : EventRing) (out : Option (List UInt8)) (maxRecords recordSize : UInt32) :
    Outcome NtStatus Flushed :=
  match out with
  | none => .ok ⟨0, none, r⟩
  | some out =>
    if eventPayloadSize < recordSize.toNat ∨ recordSize = 0 then .ok ⟨0, some out, r⟩
    else do
      let avail := if r.total < telemetryRing.toUInt64 then r.total.toUInt32 else telemetryRing
      let n := if avail < maxRecords then avail else maxRecords
      let start := (r.head + telemetryRing - n) % telemetryRing
      let out ← flushCopy r start recordSize.toNat n.toNat 0 out
      return ⟨n, some out, r⟩

/-- The ring after the records of a sequence have been consumed. -/
def consume (rs : List (List UInt8)) : EventRing := rs.foldl telemetrySink ringInit

variable {r : EventRing} {es : List (List UInt8)} {payload : List UInt8} {out out' : List UInt8}
  {start maxRecords recordSize : UInt32} {n i k c size : ℕ}

/-! ### The ring -/

/-- The cells without their sizes and the number of writes. -/
def EventRing.cells (r : EventRing) : Cells (Vector UInt8 eventPayloadSize) :=
  ⟨r.slot, r.head.toNat⟩

/-- What the sink does not ignore. -/
def records (es : List (List UInt8)) : List (List UInt8) :=
  es.filter fun p => 0 < p.length ∧ p.length ≤ eventPayloadSize

theorem toNat_telemetryRing : telemetryRing.toNat = 1024 := rfl

theorem toNat_ring_add (x : UInt32) (i : ℕ) :
    ((x + UInt32.ofNat i) % telemetryRing).toNat = (x.toNat + i) % 1024 := by
  rw [UInt32.toNat_mod, toNat_telemetryRing, UInt32.toNat_add, UInt32.toNat_ofNat',
    Nat.add_mod_mod]
  exact Nat.mod_mod_of_dvd _ (by decide)

theorem telemetrySink_cells (hp : 0 < payload.length ∧ payload.length ≤ eventPayloadSize) :
    (telemetrySink r payload).cells = r.cells.push 1024 overlay payload ∧
      (telemetrySink r payload).total = r.total + 1 := by
  have hvalid : ¬ (payload.length = 0 ∨ eventPayloadSize < payload.length) := by omega
  have hhead : ((r.head + 1) % telemetryRing).toNat = (r.head.toNat + 1) % 1024 :=
    toNat_ring_add r.head 1
  rw [telemetrySink, if_neg hvalid]
  exact ⟨congrArg (Cells.mk _) hhead, rfl⟩

theorem telemetrySink_ignored (hp : ¬ (0 < payload.length ∧ payload.length ≤ eventPayloadSize)) :
    telemetrySink r payload = r := if_pos (by omega)

/-- The records go round the ring, and their number goes round the 64 bits of its counter. -/
theorem consume_cells (es : List (List UInt8)) :
    (consume es).cells = (records es).foldl (Cells.push 1024 overlay) ringInit.cells ∧
      (consume es).total = UInt64.ofNat (records es).length := by
  induction es using List.reverseRecOn with
  | nil => exact ⟨rfl, rfl⟩
  | append_singleton es p ih =>
    obtain ⟨hring, htotal⟩ := ih
    have hconsume : consume (es ++ [p]) = telemetrySink (consume es) p := List.foldl_concat ..
    rw [hconsume, records, List.filter_append, List.filter_singleton]
    by_cases hp : 0 < p.length ∧ p.length ≤ eventPayloadSize
    · obtain ⟨hr, ht⟩ := @telemetrySink_cells (consume es) p hp
      rw [decide_eq_true hp, hr, ht, hring, htotal]
      refine ⟨(List.foldl_concat ..).symm, ?_⟩
      rw [cond_true, List.length_append, UInt64.ofNat_add]
      rfl
    · rw [telemetrySink_ignored hp, decide_eq_false hp]
      rw [cond_false, List.append_nil]
      exact ⟨hring, htotal⟩

/-! ### The copies -/

theorem getElem?_overlay {m : ℕ} (slot : Vector UInt8 m) (hc : c < m) :
    (overlay slot payload).toList[c]? = (payload[c]?).or slot.toList[c]? := by
  rw [Vector.getElem?_toList, Vector.getElem?_toList, overlay, Vector.getElem?_ofFn, dif_pos hc,
    Vector.getElem?_eq_getElem hc]
  cases payload[c]? <;> rfl

theorem copyMemory_ok (h : k + payload.length ≤ out.length) :
    copyMemory out k payload = .ok (splice out k payload) := if_pos h

/-- The loop copies one record after the other and writes nothing else. -/
theorem flushCopy_ok (hsize : size ≤ eventPayloadSize) (hroom : (i + n) * size ≤ out.length) :
    ∃ out', flushCopy r start size n i out = .ok out' ∧ out'.length = out.length ∧
      (∀ k c, i ≤ k → k < i + n → c < size → out'[k * size + c]? =
        (r.slot ((start.toNat + k) % 1024)).toList[c]?) ∧
      ∀ b, b < i * size ∨ (i + n) * size ≤ b → out'[b]? = out[b]? := by
  induction n generalizing i out with
  | zero =>
    refine ⟨out, rfl, rfl, fun k c hi hk => ?_, fun _ _ => rfl⟩
    omega
  | succ n ih =>
    let record := (r.slot ((start.toNat + i) % 1024)).toList.take size
    have hlen : record.length = size := by
      rw [List.length_take, Vector.length_toList]
      omega
    have hnext : (i + 1) * size = i * size + size := Nat.succ_mul i size
    have hend : (i + 1 + n) * size ≤ out.length := by rwa [Nat.add_right_comm, Nat.add_assoc]
    have hle : (i + 1) * size ≤ (i + 1 + n) * size :=
      Nat.mul_le_mul_right size (Nat.le_add_right _ _)
    have hfit : i * size + record.length ≤ out.length := by omega
    have hsplice : (splice out (i * size) record).length = out.length := length_splice hfit
    obtain ⟨out', hok, hlength, hcopied, hkept⟩ :=
      @ih (splice out (i * size) record) (i + 1) (hsplice ▸ hend)
    refine ⟨out', ?_, hlength.trans hsplice, fun k c hi hk hc => ?_, fun b hb => ?_⟩
    · simp only [flushCopy, toNat_ring_add]
      rw [copyMemory_ok hfit, Outcome.ok_bind]
      exact hok
    · rcases Nat.eq_or_lt_of_le hi with rfl | hlt
      · rw [hkept _ (.inl (by omega)), getElem?_splice_of_mem hfit (by omega) (by omega),
          Nat.add_sub_cancel_left, List.getElem?_take_of_lt hc]
      · exact hcopied k c hlt (by omega) hc
    · have hbound : (i + (n + 1)) * size = (i + 1 + n) * size := by
        rw [Nat.add_right_comm, Nat.add_assoc]
      rw [hkept b (by omega), getElem?_splice_of_ne hfit (by omega)]

/-! ### The flush -/

/-- How many records a flush returns. -/
def flushLength (es : List (List UInt8)) (maxRecords : UInt32) : ℕ :=
  min ((records es).length % 2 ^ 64) (min 1024 maxRecords.toNat)

/-- What the slot of the `j`-th record holds when the record comes. -/
def slotBefore (rs : List (List UInt8)) (j : ℕ) : Vector UInt8 eventPayloadSize :=
  (lane 1024 (j % 1024) (rs.take j)).foldl overlay (.replicate eventPayloadSize 0)

theorem toNat_flushed (total : UInt64) (maxRecords : UInt32) :
    (let avail := if total < telemetryRing.toUInt64 then total.toUInt32 else telemetryRing
      if avail < maxRecords then avail else maxRecords).toNat =
      min total.toNat (min 1024 maxRecords.toNat) := by
  have havail : (if total < telemetryRing.toUInt64 then total.toUInt32 else telemetryRing).toNat =
      min total.toNat 1024 := by
    have hring : telemetryRing.toUInt64.toNat = 1024 := rfl
    split
    · rename_i hlt
      rw [UInt64.lt_iff_toNat_lt, hring] at hlt
      rw [UInt64.toNat_toUInt32]
      omega
    · rename_i hge
      rw [UInt64.lt_iff_toNat_lt, hring] at hge
      rw [toNat_telemetryRing]
      omega
  dsimp only
  generalize (if total < telemetryRing.toUInt64 then total.toUInt32 else telemetryRing) = avail
    at havail ⊢
  split
  · rename_i hlt
    rw [UInt32.lt_iff_toNat_lt, havail] at hlt
    rw [havail]
    omega
  · rename_i hge
    rw [UInt32.lt_iff_toNat_lt, havail] at hge
    omega

theorem toNat_start {head count : UInt32} (hhead : head.toNat < 1024)
    (hcount : count.toNat ≤ 1024) :
    ((head + telemetryRing - count) % telemetryRing).toNat =
      (head.toNat + 1024 - count.toNat) % 1024 := by
  have hadd : (head + telemetryRing).toNat = head.toNat + 1024 := by
    rw [UInt32.toNat_add, toNat_telemetryRing]
    omega
  rw [UInt32.toNat_mod, toNat_telemetryRing, UInt32.toNat_sub_of_le, hadd]
  rw [UInt32.le_iff_toNat_le, hadd]
  omega

theorem flushLength_le (es : List (List UInt8)) (maxRecords : UInt32) :
    flushLength es maxRecords ≤ (records es).length ∧ flushLength es maxRecords ≤ 1024 ∧
      flushLength es maxRecords ≤ maxRecords.toNat := by
  have hmod := Nat.mod_le (records es).length (2 ^ 64)
  rw [flushLength]
  omega

/-- A flush returns the slots of the newest records in their order, and writes nothing else. -/
theorem telemetryFlush_ok (es : List (List UInt8)) (maxRecords recordSize : UInt32)
    (hsize : 0 < recordSize.toNat ∧ recordSize.toNat ≤ eventPayloadSize)
    (hroom : flushLength es maxRecords * recordSize.toNat ≤ out.length) :
    ∃ count out', telemetryFlush (consume es) (some out) maxRecords recordSize =
        .ok ⟨count, some out', consume es⟩ ∧
      count.toNat = flushLength es maxRecords ∧ out'.length = out.length ∧
      (∀ i p, i < count.toNat →
        ((records es).drop ((records es).length - count.toNat))[i]? = some p →
        ∀ c < recordSize.toNat, out'[i * recordSize.toNat + c]? = (overlay
          (slotBefore (records es) ((records es).length - count.toNat + i)) p).toList[c]?) ∧
      ∀ b, count.toNat * recordSize.toNat ≤ b → out'[b]? = out[b]? := by
  obtain ⟨hcells, htotal⟩ := consume_cells es
  obtain ⟨hlen, hring, -⟩ := flushLength_le es maxRecords
  have hhead : (consume es).head.toNat = (records es).length % 1024 := by
    have hfold := congrArg Cells.head hcells
    rwa [head_foldl rfl] at hfold
  have hcount := toNat_flushed (consume es).total maxRecords
  rw [htotal, UInt64.toNat_ofNat', ← flushLength, ← htotal] at hcount
  generalize hc : (let avail := if (consume es).total < telemetryRing.toUInt64 then
    (consume es).total.toUInt32 else telemetryRing
    if avail < maxRecords then avail else maxRecords) = count at hcount
  have hstart := @toNat_start (consume es).head count
    (hhead ▸ Nat.mod_lt _ (by decide)) (hcount.trans_le hring)
  obtain ⟨out', hok, hlength, hcopied, hkept⟩ := @flushCopy_ok (consume es) out
    (((consume es).head + telemetryRing - count) % telemetryRing) count.toNat 0
    recordSize.toNat hsize.2 (by rwa [Nat.zero_add, hcount])
  refine ⟨count, out', ?_, hcount, hlength, fun i p hi hp c hc => ?_, fun b hb => ?_⟩
  · have hvalid : ¬ (eventPayloadSize < recordSize.toNat ∨ recordSize = 0) := by
      rw [← UInt32.toNat_inj, UInt32.toNat_zero]
      omega
    simp only [telemetryFlush, if_neg hvalid]
    simp only at hc
    rw [hc, hok]
    rfl
  · rw [hcopied i c (Nat.zero_le i) (by omega) hc, hstart]
    rw [hcount] at hp ⊢
    have hcell := @cell_newest _ _ 1024 _ _ overlay _ _ ringInit.cells rfl hlen hring hp
    rw [← hcells] at hcell
    exact congrArg (fun v => v.toList[c]?) hcell
  · rw [Nat.zero_add] at hkept
    exact hkept b (.inr hb)

theorem toNat_payloadSize : (UInt32.ofNat eventPayloadSize).toNat = eventPayloadSize := rfl

theorem records_length {p : List UInt8} {m : ℕ} (h : ((records es).drop m)[i]? = some p) :
    p.length ≤ eventPayloadSize := by
  have hmem := List.mem_of_mem_drop (List.mem_of_getElem? h)
  simp only [records, List.mem_filter, decide_eq_true_eq] at hmem
  exact hmem.2.2

/-- `SkTelemetryFlush` returns the newest records in the order of their consumption and leaves the
ring as it is: so many as there are, as the ring and as `out` have room for. -/
theorem flush_newest (es : List (List UInt8)) (out : List UInt8) (maxRecords : UInt32)
    (hroom : maxRecords.toNat * eventPayloadSize ≤ out.length) :
    ∃ count out', telemetryFlush (consume es) (some out) maxRecords
        (UInt32.ofNat eventPayloadSize) = .ok ⟨count, some out', consume es⟩ ∧
      count.toNat = min ((records es).length % 2 ^ 64) (min 1024 maxRecords.toNat) ∧
      (∀ i < count.toNat, ∃ p,
        ((records es).drop ((records es).length - count.toNat))[i]? = some p ∧
        p <+: out'.drop (i * eventPayloadSize)) ∧
      out'.length = out.length ∧
      (∀ b, count.toNat * eventPayloadSize ≤ b → out'[b]? = out[b]?) ∧
      ∀ again : List UInt8, maxRecords.toNat * eventPayloadSize ≤ again.length →
        ∃ again', telemetryFlush (consume es) (some again) maxRecords
            (UInt32.ofNat eventPayloadSize) = .ok ⟨count, some again', consume es⟩ ∧
          ∀ b < count.toNat * eventPayloadSize, again'[b]? = out'[b]? := by
  obtain ⟨hlen, -, hmax⟩ := flushLength_le es maxRecords
  have hsize : 0 < (UInt32.ofNat eventPayloadSize).toNat ∧
      (UInt32.ofNat eventPayloadSize).toNat ≤ eventPayloadSize := by decide
  have hle := Nat.mul_le_mul_right eventPayloadSize hmax
  have hflush := fun {out : List UInt8} (h : maxRecords.toNat * eventPayloadSize ≤ out.length) =>
    @telemetryFlush_ok out es maxRecords _ hsize (hle.trans h)
  simp only [toNat_payloadSize] at hflush
  obtain ⟨count, out', hok, hcount, hlength, hcopied, hkept⟩ := hflush hroom
  have hnewest : ∀ i < count.toNat, ∃ p,
      ((records es).drop ((records es).length - count.toNat))[i]? = some p := by
    intro i hi
    refine ⟨_, List.getElem?_eq_getElem ?_⟩
    rw [List.length_drop]
    omega
  refine ⟨count, out', hok, hcount, fun i hi => ?_, hlength, hkept, fun again hagain => ?_⟩
  · obtain ⟨p, hp⟩ := hnewest i hi
    refine ⟨p, hp, List.prefix_iff_getElem?.mpr fun c hc => ?_⟩
    have hfit : c < eventPayloadSize := hc.trans_le (records_length hp)
    rw [List.getElem?_drop, hcopied i p hi hp c hfit, getElem?_overlay _ hfit,
      List.getElem?_eq_getElem hc, Option.some_or]
  · obtain ⟨count', again', hok', hcount', -, hcopied', -⟩ := hflush hagain
    obtain rfl : count' = count := UInt32.toNat_inj.mp (hcount'.trans hcount.symm)
    refine ⟨again', hok', fun b hb => ?_⟩
    -- Every byte is in some record.
    have hpos : 0 < eventPayloadSize := by decide
    have hi : b / eventPayloadSize < count'.toNat := Nat.div_lt_of_lt_mul (by rwa [Nat.mul_comm])
    have hc : b % eventPayloadSize < eventPayloadSize := Nat.mod_lt _ hpos
    have hb' : b / eventPayloadSize * eventPayloadSize + b % eventPayloadSize = b :=
      Nat.div_add_mod' b eventPayloadSize
    obtain ⟨p, hp⟩ := hnewest _ hi
    rw [← hb', hcopied _ _ hi hp _ hc, hcopied' _ _ hi hp _ hc]

/-- Three records, of which a flush with room for two returns the last. -/
theorem flush_newest_two : ∃ count out',
    telemetryFlush (consume [[1], [2], [3, 4]]) (some (.replicate 160 0)) 2 80 =
        .ok ⟨count, some out', consume [[1], [2], [3, 4]]⟩ ∧
      count.toNat = 2 ∧ [3, 4] <+: out'.drop 80 := by
  obtain ⟨count, out', hok, hcount, hnewest, -⟩ :=
    flush_newest [[1], [2], [3, 4]] (.replicate 160 0) 2 (by rw [List.length_replicate]; decide)
  have htwo : count.toNat = 2 := hcount
  obtain ⟨p, hp, hprefix⟩ := hnewest 1 (by omega)
  rw [htwo] at hp
  cases hp
  exact ⟨count, out', hok, htwo, hprefix⟩

/-- Not for any number of records: the counter of 64 bits comes back to zero. -/
theorem flush_after_wrap : ¬ ∀ rs : List (List UInt8),
    (∀ p ∈ rs, 0 < p.length ∧ p.length ≤ eventPayloadSize) →
    ∀ (out : List UInt8) (maxRecords : UInt32), maxRecords.toNat * eventPayloadSize ≤ out.length →
      ∀ t, telemetryFlush (consume rs) (some out) maxRecords (UInt32.ofNat eventPayloadSize) =
          .ok t →
        t.count.toNat = min rs.length (min 1024 maxRecords.toNat) := by
  intro h
  have hrs : ∀ p ∈ List.replicate (2 ^ 64) ([0] : List UInt8),
      0 < p.length ∧ p.length ≤ eventPayloadSize := by
    intro p hp
    rw [List.eq_of_mem_replicate hp]
    decide
  have hrecords : records (.replicate (2 ^ 64) [0]) = .replicate (2 ^ 64) [0] :=
    List.filter_eq_self.mpr fun p hp => decide_eq_true (hrs p hp)
  obtain ⟨count, out', hok, hcount, -⟩ := @telemetryFlush_ok (.replicate 80 0)
    (.replicate (2 ^ 64) [0]) 1 (UInt32.ofNat eventPayloadSize) (by decide) (by
      rw [flushLength, hrecords, List.length_replicate, Nat.mod_self]
      exact Nat.zero_le _)
  have hclaim := h _ hrs (.replicate 80 0) 1 (by rw [List.length_replicate]; decide) _ hok
  rw [hcount, flushLength, hrecords, List.length_replicate, Nat.mod_self] at hclaim
  exact absurd hclaim (by decide)

/-! ### FLUSH_EVENTS -/

variable {call : Call} {d : Driver} {b : Buffers} {base : ℕ}

/-- The ring that a request meets. -/
def ringOf (d : Driver) (size : ℕ → UInt32) : EventRing := ⟨d.ring, size, d.ringHead, d.ringTotal⟩

theorem flushRecords_copies (hslot : r.slot = d.ring) (hb : call.Room b)
    (hroom : base + (i + n) * eventRecordSize ≤ call.outLen.toNat) :
    ∃ b', flushRecords call d start n i (base + i * eventRecordSize) b = .ok b' ∧
      call.Room b' ∧
      flushCopy r start eventRecordSize n i (b.out.drop base) = .ok (b'.out.drop base) := by
  induction n generalizing i b with
  | zero => exact ⟨b, rfl, hb, rfl⟩
  | succ n ih =>
    let record := (d.ring ((start + UInt32.ofNat i) % telemetryRing).toNat).toList
    have hlen : record.length = eventRecordSize := Vector.length_toList
    have htake : (r.slot ((start + UInt32.ofNat i) % telemetryRing).toNat).toList.take
        eventRecordSize = record := by
      rw [hslot]
      exact List.take_of_length_le hlen.le
    have hnext : (i + 1) * eventRecordSize = i * eventRecordSize + eventRecordSize :=
      Nat.succ_mul i eventRecordSize
    have hend : base + (i + 1 + n) * eventRecordSize ≤ call.outLen.toNat := by
      rwa [Nat.add_right_comm, Nat.add_assoc i]
    have hle : (i + 1) * eventRecordSize ≤ (i + 1 + n) * eventRecordSize :=
      Nat.mul_le_mul_right _ (Nat.le_add_right _ _)
    have hput : base + i * eventRecordSize + record.length ≤ call.outLen.toNat := by omega
    have hout := hput.trans hb.room
    have hcopy : i * eventRecordSize + record.length ≤ (b.out.drop base).length := by
      rw [List.length_drop]
      omega
    obtain ⟨b', hok, hb', hcopied⟩ := ih (hb.write hput) hend
    rw [out_write, drop_splice (by omega)] at hcopied
    refine ⟨b', ?_, hb', ?_⟩
    · rw [flushRecords, hb.put hput, Outcome.ok_bind, Nat.add_assoc, ← hnext]
      exact hok
    · simp only [flushCopy]
      rw [htake, copyMemory_ok hcopy, Outcome.ok_bind]
      exact hcopied

/-- What FLUSH_EVENTS copies behind its header is the output of `SkTelemetryFlush`. -/
theorem flushRecords_telemetryFlush (size : ℕ → UInt32) (hb : call.Room b)
    (hfixed : ioctlHeaderSize + Layout.flushHeader.size ≤ call.outLen.toNat) :
    ∃ b', flushRecords call d
        ((d.ringHead + telemetryRing - flushCount d (flushCap call)) % telemetryRing)
        (flushCount d (flushCap call)).toNat 0 (ioctlHeaderSize + Layout.flushHeader.size) b =
          .ok b' ∧
      telemetryFlush (ringOf d size)
        (some (b.out.drop (ioctlHeaderSize + Layout.flushHeader.size))) (flushCap call)
        (UInt32.ofNat eventRecordSize) = .ok ⟨flushCount d (flushCap call),
          some (b'.out.drop (ioctlHeaderSize + Layout.flushHeader.size)), ringOf d size⟩ := by
  have hcount := @flushCount_le call d hfixed
  obtain ⟨b', hok, -, hcopied⟩ := @flushRecords_copies (ringOf d size)
    ((d.ringHead + telemetryRing - flushCount d (flushCap call)) % telemetryRing)
    (flushCount d (flushCap call)).toNat 0 call d b (ioctlHeaderSize + Layout.flushHeader.size)
    rfl hb (by rwa [Nat.zero_add])
  refine ⟨b', by rwa [Nat.zero_mul, Nat.add_zero] at hok, ?_⟩
  have hvalid : ¬ (eventPayloadSize < (UInt32.ofNat eventRecordSize).toNat ∨
      UInt32.ofNat eventRecordSize = 0) := by decide
  rw [telemetryFlush, if_neg hvalid]
  exact Outcome.bind_eq_ok.mpr ⟨_, hcopied, rfl⟩

end Sentinel.Telemetry
