import Sentinel.Telemetry.Ring

/-! What a flushed record shows of the records that were in its slot before. -/
namespace Sentinel.Telemetry

open Bytes EventQueue RingBuffer

/-- The `i`-th record of a flush. -/
def Flushed.record (t : Flushed) (recordSize : UInt32) (i : ℕ) : List UInt8 :=
  ((t.out.getD []).drop (i * recordSize.toNat)).take recordSize.toNat

/-- Every record of a flush is determined by the one posted record it stands for: whatever the
bytes of the others are, and of the memory it is copied to. -/
def Unmixed (sizes : List ℕ) (maxRecords recordSize : UInt32) : Prop :=
  ∀ rs rs' : List (List UInt8), rs.map List.length = sizes → rs'.map List.length = sizes →
    ∀ out out' : List UInt8, maxRecords.toNat * recordSize.toNat ≤ out.length →
      maxRecords.toNat * recordSize.toNat ≤ out'.length →
      ∀ t t', telemetryFlush (consume rs) (some out) maxRecords recordSize = .ok t →
        telemetryFlush (consume rs') (some out') maxRecords recordSize = .ok t' →
        t.count = t'.count ∧ ∀ i < t.count.toNat,
          (rs.drop (rs.length - t.count.toNat))[i]? =
            (rs'.drop (rs'.length - t.count.toNat))[i]? →
          t.record recordSize i = t'.record recordSize i

/-- How many of `m` consumed records a flush returns. -/
def flushReturns (m : ℕ) (maxRecords recordSize : UInt32) : ℕ :=
  if 0 < recordSize.toNat ∧ recordSize.toNat ≤ eventPayloadSize then
    min (m % 2 ^ 64) (min 1024 maxRecords.toNat) else 0

/-- A flushed record is as long as all that was in its slot before, as far as the flush reads. -/
def Overwrites (sizes : List ℕ) (maxRecords recordSize : UInt32) : Prop :=
  ∀ j j' a a', sizes.length - flushReturns sizes.length maxRecords recordSize ≤ j →
    sizes[j]? = some a → sizes[j']? = some a' → j' < j → j' % 1024 = j % 1024 →
    min recordSize.toNat a' ≤ a

variable {rs : List (List UInt8)} {sizes : List ℕ} {l : List (List UInt8)} {m c i j : ℕ}
  {slot : Vector UInt8 m} {x : UInt8} {maxRecords recordSize : UInt32} {out : List UInt8}
  {t : Flushed}

/-! ### Slots -/

/-- Where no record of the lane has reached, the slot is as before. -/
theorem foldl_overlay_short (hc : c < m) (h : ∀ p ∈ l, p.length ≤ c) :
    (l.foldl overlay slot).toList[c]? = slot.toList[c]? := by
  induction l using List.reverseRecOn with
  | nil => rfl
  | append_singleton l p ih =>
    have hp : p.length ≤ c := h p (List.mem_append_right _ (List.mem_singleton_self p))
    rw [List.foldl_concat, getElem?_overlay _ hc, List.getElem?_eq_none hp, Option.none_or]
    exact ih fun q hq => h q (List.mem_append_left _ hq)

/-- Where one has, it shows what is in the records of the lane. -/
theorem foldl_overlay_filled (hc : c < m) (h : ∃ p ∈ l, c < p.length)
    (hx : ∀ p ∈ l, ∀ y ∈ p, y = x) : (l.foldl overlay slot).toList[c]? = some x := by
  induction l using List.reverseRecOn with
  | nil =>
    obtain ⟨p, hp, -⟩ := h
    cases hp
  | append_singleton l p ih =>
    have hp : p ∈ l ++ [p] := List.mem_append_right _ (List.mem_singleton_self p)
    rw [List.foldl_concat, getElem?_overlay _ hc]
    by_cases hlt : c < p.length
    · rw [List.getElem?_eq_getElem hlt, Option.some_or, hx p hp _ (List.getElem_mem hlt)]
    · rw [List.getElem?_eq_none (Nat.le_of_not_lt hlt), Option.none_or]
      refine ih ?_ fun q hq => hx q (List.mem_append_left _ hq)
      obtain ⟨q, hq, hcq⟩ := h
      rcases List.mem_append.mp hq with hq | hq
      · exact ⟨q, hq, hcq⟩
      · obtain rfl := List.mem_singleton.mp hq
        exact absurd hcq hlt

theorem mem_lane_take {p : List UInt8} :
    p ∈ lane 1024 (j % 1024) (rs.take j) ↔ ∃ j' < j, j' % 1024 = j % 1024 ∧ rs[j']? = some p := by
  rw [mem_lane]
  constructor
  · rintro ⟨j', hmod, hp⟩
    rw [List.getElem?_take] at hp
    split at hp
    · rename_i hlt
      exact ⟨j', hlt, hmod, hp⟩
    · cases hp
  · rintro ⟨j', hlt, hmod, hp⟩
    exact ⟨j', hmod, by rwa [List.getElem?_take_of_lt hlt]⟩

/-! ### Records -/

theorem flushReturns_le {n : ℕ} : flushReturns n maxRecords recordSize ≤ n := by
  rw [flushReturns]
  split
  · exact (min_le_left _ _).trans (Nat.mod_le _ _)
  · exact Nat.zero_le _

theorem records_eq_self (h : ∀ p ∈ rs, 0 < p.length ∧ p.length ≤ eventPayloadSize) :
    records rs = rs := List.filter_eq_self.mpr fun p hp => decide_eq_true (h p hp)

theorem valid_of_sizes (hsizes : ∀ a ∈ sizes, 0 < a ∧ a ≤ eventPayloadSize)
    (h : rs.map List.length = sizes) : ∀ p ∈ rs, 0 < p.length ∧ p.length ≤ eventPayloadSize :=
  fun _ hp => hsizes _ (h ▸ List.mem_map_of_mem hp)

/-- What comes out of a flush, byte by byte. -/
theorem flushed_bytes (hrs : ∀ p ∈ rs, 0 < p.length ∧ p.length ≤ eventPayloadSize)
    (hroom : maxRecords.toNat * recordSize.toNat ≤ out.length)
    (hok : telemetryFlush (consume rs) (some out) maxRecords recordSize = .ok t) :
    t.count.toNat = flushReturns rs.length maxRecords recordSize ∧
      ∀ i p, i < t.count.toNat → (rs.drop (rs.length - t.count.toNat))[i]? = some p →
        ∀ c < recordSize.toNat, (t.record recordSize i)[c]? =
          (p[c]?).or (slotBefore rs (rs.length - t.count.toNat + i)).toList[c]? := by
  by_cases hsize : 0 < recordSize.toNat ∧ recordSize.toNat ≤ eventPayloadSize
  · have hle := (flushLength_le rs maxRecords).2.2
    obtain ⟨count, out', hok', hcount, -, hcopied, -⟩ := telemetryFlush_ok rs maxRecords recordSize
      hsize ((Nat.mul_le_mul_right _ hle).trans hroom)
    obtain rfl := Outcome.ok.inj (hok.symm.trans hok')
    rw [records_eq_self hrs] at hcopied
    refine ⟨?_, fun i p hi hp c hc => ?_⟩
    · rw [flushReturns, if_pos hsize, hcount, flushLength, records_eq_self hrs]
    · rw [Flushed.record, Option.getD_some, List.getElem?_take_of_lt hc, List.getElem?_drop,
        hcopied i p hi hp c hc, getElem?_overlay _ (hc.trans_le hsize.2)]
  · have hinvalid : eventPayloadSize < recordSize.toNat ∨ recordSize = 0 := by
      rw [← UInt32.toNat_inj, UInt32.toNat_zero]
      omega
    simp only [telemetryFlush, if_pos hinvalid] at hok
    cases hok
    rw [flushReturns, if_neg hsize]
    exact ⟨rfl, fun i p hi => absurd hi (Nat.not_lt_zero i)⟩

theorem lane_short (h : Overwrites sizes maxRecords recordSize) (hrs : rs.map List.length = sizes)
    {p : List UInt8} (hp : rs[j]? = some p) (hc : c < recordSize.toNat) (hpc : p.length ≤ c)
    (hj : sizes.length - flushReturns sizes.length maxRecords recordSize ≤ j) :
    ∀ q ∈ lane 1024 (j % 1024) (rs.take j), q.length ≤ c := by
  intro q hq
  obtain ⟨j', hlt, hmod, hq⟩ := mem_lane_take.mp hq
  have hsize : ∀ {k : ℕ} {r : List UInt8}, rs[k]? = some r → sizes[k]? = some r.length := by
    intro k r hr
    rw [← hrs, List.getElem?_map, hr]
    rfl
  have hle := h j j' _ _ hj (hsize hp) (hsize hq) hlt hmod
  omega

theorem unmixed_of_overwrites (hsizes : ∀ a ∈ sizes, 0 < a ∧ a ≤ eventPayloadSize)
    (h : Overwrites sizes maxRecords recordSize) : Unmixed sizes maxRecords recordSize := by
  intro rs rs' hrs hrs' out out' hroom hroom' t t' hok hok'
  obtain ⟨hcount, hbytes⟩ := flushed_bytes (valid_of_sizes hsizes hrs) hroom hok
  obtain ⟨hcount', hbytes'⟩ := flushed_bytes (valid_of_sizes hsizes hrs') hroom' hok'
  have hlen : rs.length = sizes.length := by rw [← hrs, List.length_map]
  have hlen' : rs'.length = sizes.length := by rw [← hrs', List.length_map]
  have heq : t.count = t'.count := by
    rw [← UInt32.toNat_inj, hcount, hcount', hlen, hlen']
  refine ⟨heq, fun i hi hsame => ?_⟩
  have hle : t.count.toNat ≤ rs.length := hcount.trans_le flushReturns_le
  obtain ⟨p, hp⟩ : ∃ p, (rs.drop (rs.length - t.count.toNat))[i]? = some p := by
    refine ⟨_, List.getElem?_eq_getElem ?_⟩
    rw [List.length_drop]
    omega
  have hp' := hsame.symm.trans hp
  have hj : sizes.length - flushReturns sizes.length maxRecords recordSize ≤
      sizes.length - t.count.toNat + i := by
    rw [← hlen, ← hcount]
    exact Nat.le_add_right _ _
  apply List.ext_getElem?
  intro c
  by_cases hc : c < recordSize.toNat
  · rw [heq, hlen'] at hp'
    have hrecord' := hbytes' i p (heq ▸ hi) (by rwa [hlen']) c hc
    rw [hbytes i p hi hp c hc, hrecord', hlen, hlen', ← heq]
    by_cases hpc : c < p.length
    · rw [List.getElem?_eq_getElem hpc, Option.some_or, Option.some_or]
    · -- Behind its end a record shows the zeroes the ring had at first.
      have hzero : ∀ {rs : List (List UInt8)}, rs.map List.length = sizes →
          rs[sizes.length - t.count.toNat + i]? = some p →
          (slotBefore rs (sizes.length - t.count.toNat + i)).toList[c]? =
            (Vector.replicate eventPayloadSize (0 : UInt8)).toList[c]? := by
        intro rs hrs hp
        by_cases hsize : c < eventPayloadSize
        · exact foldl_overlay_short hsize
            (lane_short h hrs hp hc (Nat.le_of_not_lt hpc) hj)
        · rw [List.getElem?_eq_none (by rw [Vector.length_toList]; omega),
            List.getElem?_eq_none (by rw [Vector.length_toList]; omega)]
      rw [hlen, List.getElem?_drop] at hp
      rw [← heq, List.getElem?_drop] at hp'
      rw [hzero hrs hp, hzero hrs' hp']
  · have hshort : ∀ t : Flushed, (t.record recordSize i)[c]? = none := fun t =>
      List.getElem?_take_eq_none (Nat.le_of_not_lt hc)
    rw [hshort t, hshort t']

/-- A flush with room for its records returns. -/
theorem telemetryFlush_returns (rs : List (List UInt8))
    (hroom : maxRecords.toNat * recordSize.toNat ≤ out.length) :
    ∃ t, telemetryFlush (consume rs) (some out) maxRecords recordSize = .ok t := by
  by_cases hsize : 0 < recordSize.toNat ∧ recordSize.toNat ≤ eventPayloadSize
  · have hle := (flushLength_le rs maxRecords).2.2
    obtain ⟨count, out', hok, -⟩ := telemetryFlush_ok rs maxRecords recordSize hsize
      ((Nat.mul_le_mul_right _ hle).trans hroom)
    exact ⟨_, hok⟩
  · have hinvalid : eventPayloadSize < recordSize.toNat ∨ recordSize = 0 := by
      rw [← UInt32.toNat_inj, UInt32.toNat_zero]
      omega
    exact ⟨_, if_pos hinvalid⟩

/-- A byte that an earlier record has left, among records that are all of one byte. -/
theorem slotBefore_filled {j' : ℕ} (p' : List UInt8) (hc : c < eventPayloadSize) (hlt : j' < j)
    (hmod : j' % 1024 = j % 1024) (hp' : rs[j']? = some p') (hcp : c < p'.length)
    (hx : ∀ k < j, ∀ p, rs[k]? = some p → ∀ y ∈ p, y = x) :
    (slotBefore rs j).toList[c]? = some x := by
  refine foldl_overlay_filled hc ⟨p', mem_lane_take.mpr ⟨j', hlt, hmod, hp'⟩, hcp⟩ fun p hp => ?_
  obtain ⟨k, hk, -, hp⟩ := mem_lane_take.mp hp
  exact hx k hk p hp

/-- Where a flushed record ends, the longest record before it in its slot goes on. -/
theorem flushed_residue {p p' : List UInt8} {j' : ℕ}
    (hrs : ∀ p ∈ rs, 0 < p.length ∧ p.length ≤ eventPayloadSize)
    (hroom : maxRecords.toNat * recordSize.toNat ≤ out.length)
    (hok : telemetryFlush (consume rs) (some out) maxRecords recordSize = .ok t)
    (hi : i < t.count.toNat) (hj : rs.length - t.count.toNat + i = j) (hp : rs[j]? = some p)
    (hp' : rs[j']? = some p') (hlt : j' < j) (hmod : j' % 1024 = j % 1024)
    (hread : p.length < recordSize.toNat) (hlong : p.length < p'.length)
    (hx : ∀ k < j, ∀ q, rs[k]? = some q → ∀ y ∈ q, y = x) :
    (t.record recordSize i)[p.length]? = some x := by
  subst hj
  obtain ⟨-, hbytes⟩ := flushed_bytes hrs hroom hok
  have hfit := (hrs p' (List.mem_of_getElem? hp')).2
  rw [hbytes i p hi (by rw [List.getElem?_drop, hp]) _ hread, List.getElem?_eq_none (Nat.le_refl _),
    Option.none_or]
  exact slotBefore_filled p' (hlong.trans_le hfit) hlt hmod hp' hlong hx

/-- Records of given sizes, all of one byte. -/
def filled (sizes : List ℕ) (x : UInt8) : List (List UInt8) := sizes.map fun a => .replicate a x

theorem getElem?_filled : (filled sizes x)[i]? = (sizes[i]?).map fun a => .replicate a x :=
  List.getElem?_map

theorem length_filled : (filled sizes x).map List.length = sizes := by
  simp [filled, Function.comp_def]

theorem length_filled_set {a : ℕ} {y : UInt8} (ha : sizes[j]? = some a) :
    ((filled sizes x).set j (.replicate a y)).map List.length = sizes := by
  obtain ⟨hlt, hget⟩ := List.getElem?_eq_some_iff.mp ha
  rw [List.map_set, List.length_replicate, length_filled, ← hget]
  exact List.set_getElem_self hlt

theorem eq_of_mem_filled {q : List UInt8} (hq : (filled sizes x)[i]? = some q) :
    ∀ y ∈ q, y = x := by
  rw [getElem?_filled] at hq
  obtain ⟨a, -, rfl⟩ := Option.map_eq_some_iff.mp hq
  exact fun y hy => List.eq_of_mem_replicate hy

theorem overwrites_of_unmixed (hsizes : ∀ a ∈ sizes, 0 < a ∧ a ≤ eventPayloadSize)
    (h : Unmixed sizes maxRecords recordSize) : Overwrites sizes maxRecords recordSize := by
  intro j j' a a' hj ha ha' hlt hmod
  by_contra hmin
  have hjlen : j < sizes.length := (List.getElem?_eq_some_iff.mp ha).1
  -- Two runs that differ in the bytes of the other records only.
  let rs : List (List UInt8) := filled sizes 0
  let rs' : List (List UInt8) := (filled sizes 1).set j (.replicate a 0)
  have hrs : rs.map List.length = sizes := length_filled
  have hrs' : rs'.map List.length = sizes := length_filled_set ha
  have hlen : rs.length = sizes.length := by rw [← hrs, List.length_map]
  have hlen' : rs'.length = sizes.length := by rw [← hrs', List.length_map]
  have hp : rs[j]? = some (.replicate a 0) := by rw [getElem?_filled, ha, Option.map_some]
  have hp' : rs'[j]? = some (.replicate a 0) :=
    List.getElem?_set_self (by rwa [filled, List.length_map])
  have hother : ∀ k < j, rs'[k]? = (filled sizes 1)[k]? :=
    fun k hk => List.getElem?_set_ne (Nat.ne_of_gt hk)
  let out : List UInt8 := .replicate (maxRecords.toNat * recordSize.toNat) 0
  have hroom : maxRecords.toNat * recordSize.toNat ≤ out.length := List.length_replicate.ge
  obtain ⟨t, hok⟩ := telemetryFlush_returns rs hroom
  obtain ⟨t', hok'⟩ := telemetryFlush_returns rs' hroom
  have hvalid := valid_of_sizes hsizes hrs
  have hvalid' := valid_of_sizes hsizes hrs'
  have hcount := (flushed_bytes hvalid hroom hok).1
  obtain ⟨heq, hsame⟩ := h rs rs' hrs hrs' out out hroom hroom t t' hok hok'
  rw [← hlen, ← hcount] at hj
  obtain ⟨i, rfl⟩ := Nat.exists_eq_add_of_le hj
  have hle : t.count.toNat ≤ rs.length := hcount.trans_le flushReturns_le
  have hi : i < t.count.toNat := by omega
  have hsizea : (List.replicate a (0 : UInt8)).length = a := List.length_replicate
  have hread : (List.replicate a (0 : UInt8)).length < recordSize.toNat := by omega
  have hlong : ∀ x : UInt8,
      (List.replicate a (0 : UInt8)).length < (List.replicate a' x).length := by
    intro x
    rw [List.length_replicate, List.length_replicate]
    omega
  have hzero := flushed_residue hvalid hroom hok hi rfl hp
    (getElem?_filled.trans (by rw [ha', Option.map_some])) hlt hmod hread (hlong 0)
    fun k _ q hq => eq_of_mem_filled hq
  have hone := flushed_residue hvalid' hroom hok' (heq ▸ hi) (by rw [hlen', hlen, heq]) hp'
    ((hother j' hlt).trans (getElem?_filled.trans (by rw [ha', Option.map_some]))) hlt hmod hread
    (hlong 1) fun k hk q hq => eq_of_mem_filled ((hother k hk).symm.trans hq)
  have hrecord := hsame i hi (by
    rw [List.getElem?_drop, List.getElem?_drop, hlen', ← hlen, hp, hp'])
  rw [hrecord] at hzero
  exact absurd (hzero.symm.trans hone) (by decide)

/-- One record, and then one in every slot. -/
theorem valid_reused {a b : ℕ} (ha : 0 < a ∧ a ≤ eventPayloadSize)
    (hb : 0 < b ∧ b ≤ eventPayloadSize) :
    ∀ n ∈ a :: List.replicate 1024 b, 0 < n ∧ n ≤ eventPayloadSize := by
  intro n h
  rcases List.mem_cons.mp h with rfl | h
  · exact ha
  · exact List.eq_of_mem_replicate h ▸ hb

/-- Flushed records do not mix just when every one of them overwrites what the flush reads. -/
theorem unmixed_iff (hsizes : ∀ a ∈ sizes, 0 < a ∧ a ≤ eventPayloadSize) :
    Unmixed sizes maxRecords recordSize ↔ Overwrites sizes maxRecords recordSize :=
  ⟨overwrites_of_unmixed hsizes, unmixed_of_overwrites hsizes⟩

/-- The record flushed has overwritten a longer one, but the flush reads no more of it than its two
bytes. -/
theorem unmixed_iff_reused : Unmixed (3 :: List.replicate 1024 2) 1 2 := by
  refine (unmixed_iff (valid_reused (by decide) (by decide))).mpr ?_
  intro j j' a a' _ ha _ hlt _
  obtain ⟨i, rfl⟩ := Nat.exists_eq_add_of_lt hlt
  rw [List.getElem?_cons_succ] at ha
  obtain rfl := List.eq_of_mem_replicate (List.mem_of_getElem? ha)
  exact Nat.min_le_left _ _

/-- The second byte of the first record is behind the one byte of the record that overwrites it. -/
theorem residue_flushed : ¬ Unmixed (2 :: List.replicate 1024 1) 1 2 := by
  have hsizes := @valid_reused 2 1 (by decide) (by decide)
  intro h
  have hlast : (2 :: List.replicate 1024 1)[1024]? = some 1 := by
    rw [List.getElem?_cons_succ, List.getElem?_replicate]
    rfl
  have hmin := overwrites_of_unmixed hsizes h 1024 0 1 2 ?_ hlast rfl (by decide) rfl
  · exact absurd hmin (by decide)
  · have hreturns : flushReturns 1025 1 2 = 1 := by decide
    rw [List.length_cons, List.length_replicate, hreturns]

end Sentinel.Telemetry
