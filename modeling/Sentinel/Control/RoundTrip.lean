import Sentinel.Control.Unprivileged

/-! The records of an enumeration, submitted again. -/
namespace Sentinel

open Bytes Codec Control

variable {r : Rule} {rules : List Rule} {s : Store} {w : Writer} {set : RuleSet} {i : ℕ}

/-! ### A rule without its path -/

/-- No image path condition, and nothing left of one. -/
def Rule.Pathless (r : Rule) : Prop := r.appId = 0 ∧ r.mask &&& ruleMAppId = 0

instance (r : Rule) : Decidable r.Pathless := inferInstanceAs (Decidable (_ ∧ _))

theorem Rule.withPath_nil : r.withPath [] =
    { r with appId := 0, mask := r.mask &&& ~~~ruleMAppId } := if_pos rfl

theorem and_not_eq_self {m k : UInt32} : m &&& ~~~k = m ↔ m &&& k = 0 := by
  constructor
  · intro h
    rw [← h, UInt32.and_assoc, UInt32.not_and_self, UInt32.and_zero]
  · intro h
    have hsplit : m &&& (k ||| ~~~k) = m &&& k ||| m &&& ~~~k :=
      UInt32.toBitVec_inj.mp BitVec.and_or_distrib_left
    rw [h, UInt32.zero_or, UInt32.or_not_self, UInt32.and_neg_one] at hsplit
    exact hsplit.symm

/-- A rule without a path condition comes back as it was. -/
theorem Rule.withPath_nil_eq_self : r.withPath [] = r ↔ r.Pathless := by
  rw [withPath_nil, Pathless, ← and_not_eq_self]
  constructor
  · intro h
    exact ⟨(congrArg Rule.appId h).symm, congrArg Rule.mask h⟩
  · rintro ⟨ha, hm⟩
    rw [hm, ← ha]

theorem Rule.has_withPath_nil {bit : UInt32} (h : ~~~ruleMAppId &&& bit = bit) :
    (r.withPath []).has bit = r.has bit := by
  rw [withPath_nil, Rule.has, Rule.has, UInt32.and_assoc, h]

/-- What is left of a valid rule is valid. -/
theorem Rule.Valid.withPath_nil (h : r.Valid) : (r.withPath []).Valid := by
  obtain ⟨hf, hc⟩ := Rule.valid_iff.mp h
  have hall : ~~~ruleMAppId &&& ~~~ruleMAll = ~~~ruleMAll := by decide
  have hreserved : ~~~ruleMAppId &&& (ruleMIfIndex ||| ruleMSid) = ruleMIfIndex ||| ruleMSid := by
    decide
  refine Rule.valid_iff.mpr ⟨?_, ?_⟩
  · rw [Rule.withPath_nil]
    simpa only [ruleBadFields, UInt32.and_assoc, hall, hreserved] using hf
  · have hhas : ∀ {bit : UInt32}, ~~~ruleMAppId &&& bit = bit →
        (r.withPath []).has bit = r.has bit := Rule.has_withPath_nil
    have hlimit : rulePrefixLimit (r.withPath []) = rulePrefixLimit r := by
      rw [rulePrefixLimit, hhas (by decide), Rule.withPath_nil]
      rfl
    rw [ruleBadConditions, hlimit, hhas (by decide), hhas (by decide), hhas (by decide),
      hhas (by decide), hhas (by decide), hhas (by decide), hhas (by decide), hhas (by decide),
      hhas (by decide), Rule.withPath_nil]
    exact hc

/-! ### The store -/

theorem Store.run_granted (hp : ntSuccess w.precheck = true)
    (hd : w.draft s.current s.rollbackSlot = .ok set) :
    s.run w .granted = (statusSuccess, s.commit w set) := by
  simp [Store.run, hp, hd, Env.granted]

theorem replacePrecheck_ofRules (hl : rules.length ≤ ruleMax)
    (hi : (rules.map Rule.ruleId).Nodup) (hv : ∀ r ∈ rules, r.Valid) :
    replacePrecheck (.ofRules rules) = statusSuccess := by
  rw [RuleArray.ofRules]
  split
  · rfl
  · have hcount : ¬ ruleMax < (RuleArray.array rules).count := Nat.not_lt.mpr hl
    have hbytes : ¬ replaceMaxBytes < (RuleArray.array rules).count * ruleSize := by
      have hle : (RuleArray.array rules).count ≤ 4096 := hl
      simp only [replaceMaxBytes, ruleSize]
      omega
    have hfind : (rules.find? fun r => !ntSuccess (ruleValidate (some r))) = none := by
      apply List.find?_eq_none.mpr
      intro r hr
      simp [ntSuccess_ruleValidate.mpr (hv r hr)]
    rw [replacePrecheck, if_neg hcount, if_neg hbytes]
    simp only [hfind]
    exact if_pos (List.pairwise_map.mp hi)

/-- The loop finds a stored rule by its own id. -/
theorem ruleIndex_getElem (h : (rules.map Rule.ruleId).Nodup) (hi : i < rules.length) :
    ruleIndex rules rules[i].ruleId = some i := by
  cases hr : ruleIndex rules rules[i].ruleId with
  | none => exact absurd rfl (ruleIndex_eq_none.mp hr _ (List.getElem_mem hi))
  | some j =>
    obtain ⟨hj, hid⟩ := ruleIndex_eq_some hr
    have hrule : rules[j] = rules[i] :=
      List.inj_on_of_nodup_map h (List.getElem_mem hj) (List.getElem_mem hi) hid
    exact congrArg some ((List.Nodup.of_map _ h).getElem_inj_iff.mp hrule)

/-- The keys of the verdict order do not depend on the path. -/
theorem ruleKey_withPath_nil : ruleKey (r.withPath []) = ruleKey r := by
  rw [Rule.withPath_nil]
  rfl

theorem sortRules_withPath_nil (h : rules.Pairwise fun a b => rulePrecedes a b = true) :
    sortRules (rules.map (·.withPath [])) = rules.map (·.withPath []) := by
  apply sortRules_of_pairwise
  rw [pairwise_iff_ruleKey, List.map_map]
  have hkey : ruleKey ∘ (fun r : Rule => r.withPath []) = ruleKey :=
    funext fun r => ruleKey_withPath_nil
  rw [hkey]
  exact pairwise_iff_ruleKey.mp h

/-- The stored rules without their paths replace themselves. -/
theorem replace_resubmitted (h : s.WellFormed) :
    ∃ t, s.run (ruleStoreReplace (.ofRules (s.current.rules.map (·.withPath []))) 0) .granted =
      (statusSuccess, t) ∧ t.current.rules = s.current.rules.map (·.withPath []) := by
  have hc := h.current
  have hids : (s.current.rules.map (·.withPath [])).map Rule.ruleId =
      s.current.rules.map Rule.ruleId := by
    rw [List.map_map]
    exact List.map_congr_left fun r _ => by rw [Function.comp_apply, Rule.withPath_nil]
  have hrules : (RuleArray.ofRules (s.current.rules.map (·.withPath []))).rules =
      s.current.rules.map (·.withPath []) := by
    rw [RuleArray.ofRules]
    split
    · rename_i hnil
      exact hnil.symm
    · rfl
  have hp := @replacePrecheck_ofRules (s.current.rules.map (·.withPath []))
    (by rw [List.length_map]; exact hc.length_le) (by rw [hids]; exact hc.ids) (by
      intro r hr
      obtain ⟨r', hr', rfl⟩ := List.mem_map.mp hr
      exact (hc.valid r' hr').withPath_nil)
  refine ⟨_, Store.run_granted (congrArg ntSuccess hp) rfl, ?_⟩
  rw [Store.commit_current]
  exact (congrArg sortRules hrules).trans (sortRules_withPath_nil hc.sorted)

/-- One stored rule without its path updates itself. -/
theorem update_resubmitted (h : s.WellFormed) (hi : i < s.current.rules.length) :
    ∃ t, s.run (ruleStoreUpdate (some (s.current.rules[i].withPath []))) .granted =
      (statusSuccess, t) ∧
      t.current.rules = s.current.rules.set i (s.current.rules[i].withPath []) := by
  have hc := h.current
  have hid : (s.current.rules[i].withPath []).ruleId = s.current.rules[i].ruleId := by
    rw [Rule.withPath_nil]
  have hindex : ruleIndex s.current.rules (s.current.rules[i].withPath []).ruleId = some i := by
    rw [hid]
    exact ruleIndex_getElem hc.ids hi
  have hdraft : (ruleStoreUpdate (some (s.current.rules[i].withPath []))).draft s.current
      s.rollbackSlot = .ok ⟨sortRules (s.current.rules.set i (s.current.rules[i].withPath [])),
        s.current.defaultPolicy⟩ := by
    simp only [ruleStoreUpdate, hindex]
  have hvalid := (hc.valid _ (List.getElem_mem hi)).withPath_nil
  refine ⟨_, Store.run_granted (ntSuccess_ruleValidate.mpr hvalid) hdraft, ?_⟩
  rw [Store.commit_current]
  apply sortRules_of_pairwise
  rw [pairwise_iff_ruleKey, Keyed.map_set hi ruleKey_withPath_nil.symm]
  exact pairwise_iff_ruleKey.mp hc.sorted

/-! ### The records -/

namespace Control

variable {c : Call} {d : Driver} {b : Buffers} {a : Reply} {images : List RuleImage} {p : Policy}

/-- The `SK_RULE_WIRE` records of a reply, `count` of them. -/
def Reply.records (a : Reply) (count : ℕ) : List UInt8 :=
  (a.buffers.out.drop (ioctlHeaderSize + enumHeaderSize)).take (count * ruleWireSize)

/-- The record with the index `i`. -/
def record (records : List UInt8) (i : ℕ) : List UInt8 :=
  (records.drop (i * ruleWireSize)).take ruleWireSize

/-- `SK_REPLACE_HEADER` and the records after it. -/
def replacePayload (count : ℕ) (records : List UInt8) : List UInt8 :=
  Layout.replaceHeader.encode
    (UInt32.ofNat count, UInt32.ofNat (count * ruleWireSize), 0) ++ records

theorem record_enumWires (hi : i < images.length) :
    record (enumWires images) i = encodeWire (images[i], []) := by
  have hwire : ∀ m : RuleImage, (encodeWire (m, [])).length = ruleWireSize :=
    fun _ => length_encodeWire
  induction images generalizing i with
  | nil => exact absurd hi (Nat.not_lt_zero i)
  | cons m images ih =>
    have hcons : enumWires (m :: images) = encodeWire (m, []) ++ enumWires images := rfl
    rw [record, hcons]
    cases i with
    | zero =>
      rw [Nat.zero_mul, List.drop_zero]
      exact List.take_left' (hwire m)
    | succ i =>
      have hdrop : (i + 1) * ruleWireSize = (encodeWire (m, [])).length + i * ruleWireSize := by
        rw [hwire, Nat.succ_mul, Nat.add_comm]
      rw [hdrop, ← List.drop_drop, List.drop_left]
      exact ih (Nat.lt_of_succ_lt_succ hi)

/-- The records of an enumeration are the payload of a REPLACE of the rules without their paths. -/
theorem replacePayload_parses (hmax : images.length ≤ ruleMax) :
    parseReplace (replacePayload images.length (enumWires images)) true =
      .ok (.ofRules (images.map fun m => m.rule.withPath []), 0) := by
  let wires := images.map fun m => (m, ([] : List UInt16))
  have hlength : (encodeWires wires).length = images.length * ruleWireSize := length_enumWires
  have hpayload : replacePayload images.length (enumWires images) = encodeReplace wires 0 := by
    rw [replacePayload, encodeReplace, hlength, List.length_map]
    rfl
  have hcount : wires.length ≤ ruleMax := by rwa [List.length_map]
  have hpaths : ∀ w ∈ wires, w.2.length ≤ rulePathMaxChars.toNat := by
    intro w hw
    obtain ⟨m, -, rfl⟩ := List.mem_map.mp hw
    exact Nat.zero_le _
  have hbytes : (encodeWires wires).length ≤ replaceMaxBytes := by
    rw [hlength]
    exact (Nat.mul_le_mul_right ruleWireSize hmax).trans (by decide)
  rw [hpayload]
  refine parseReplace_iff.mpr ⟨_, encodeReplace_format 0 hcount hpaths hbytes, ?_⟩
  rw [List.map_map]
  rfl

theorem cmdUpdate_record (m : RuleImage) (hc : c.payload b = encodeWire (m, [])) :
    cmdAddOrUpdateRule c d b true =
      .ok (d.store.run (ruleStoreUpdate (some (m.rule.withPath []))) d.env) := by
  have hlen : (encodeWire (m, [])).length = ruleWireSize := length_encodeWire
  have hto : (UInt32.ofNat (encodeWire (m, [])).length).toNat = (encodeWire (m, [])).length := by
    rw [hlen]
    rfl
  have hv : validateWire (c.payload b) 0 (UInt32.ofNat (c.payload b).length) =
      .ok (UInt32.ofNat (c.payload b).length) := by
    rw [hc]
    have hvalid := @validateWire_encode _ (m, []) [] (Nat.zero_le _) hto.ge
    rwa [List.append_nil] at hvalid
  have hconvert : convertWire (c.payload b) 0 = .ok (m.rule.withPath []) := by
    rw [hc]
    have hw := @convertWire_encode (m, []) [] (Nat.zero_le _)
    rwa [List.append_nil] at hw
  rw [← hc] at hto
  rw [cmdAddOrUpdateRule, hv]
  dsimp only
  rw [if_neg (not_not.mpr hto), hconvert]
  rfl

/-! ### The round trip -/

/-- What submitting the records of a reply again does to the stored rules: each comes back
without its image path condition, and unchanged just if it has none. -/
structure Resubmitted (p : Policy) (a : Reply) : Prop where
  count : (u32.read a.buffers.out (ioctlHeaderSize + enumCountOffset) : Outcome NtStatus _) =
    .ok (UInt32.ofNat p.store.current.rules.length)
  replace : ∃ t, cmdReplaceRuleset (replacePayload p.store.current.rules.length
      (a.records p.store.current.rules.length)) true .granted p.store =
        .ok (statusSuccess, t) ∧
    t.current.rules = p.store.current.rules.map (·.withPath []) ∧
    (t.current.rules = p.store.current.rules ↔ ∀ r ∈ p.store.current.rules, r.Pathless)
  update : ∀ i, ∀ hi : i < p.store.current.rules.length, ∀ (c : Call) (d : Driver) (b : Buffers),
    c.payload b = record (a.records p.store.current.rules.length) i → d.store = p.store →
    d.env = .granted → ∃ t, cmdAddOrUpdateRule c d b true = .ok (statusSuccess, t) ∧
      t.current.rules =
        p.store.current.rules.set i (p.store.current.rules[i].withPath []) ∧
      (t.current.rules = p.store.current.rules ↔ p.store.current.rules[i].Pathless)

theorem map_withPath_nil_eq_self :
    rules.map (·.withPath []) = rules ↔ ∀ r ∈ rules, r.Pathless := by
  have hid : rules.map (·.withPath []) = rules ↔ rules.map (·.withPath []) = rules.map id := by
    rw [List.map_id]
  rw [hid, List.map_inj_left]
  exact forall₂_congr fun r _ => Rule.withPath_nil_eq_self

theorem set_withPath_nil_eq_self (hi : i < rules.length) :
    rules.set i (rules[i].withPath []) = rules ↔ rules[i].Pathless := by
  rw [← Rule.withPath_nil_eq_self]
  constructor
  · intro h
    have hget : (rules.set i (rules[i].withPath []))[i]? = rules[i]? := by rw [h]
    simpa [hi] using hget
  · intro h
    rw [h, List.set_getElem_self]

theorem Policy.length_images (p : Policy) :
    p.images.length = p.store.current.rules.length := by
  rw [← p.shown, List.length_map]

theorem Policy.rule_image (p : Policy) (hi : i < p.images.length)
    (hi' : i < p.store.current.rules.length) :
    p.images[i].rule = p.store.current.rules[i] := by
  simp only [← p.shown, List.getElem_map]

/-- The records of a successful enumeration are the wires of the stored rules. -/
theorem enum_records (hd : ∀ i, d.view i = p.view) (hb : c.Backed b)
    (ha : cmdEnumRules c d b = .ok a) (hs : ntSuccess a.status = true) :
    EnumReply c d b p.images a := by
  obtain ⟨filled, hview, hr⟩ := cmdEnumRules_describes hb ha hs
  have hfilled : filled = p.images := by
    rw [hd] at hview
    exact (Option.some.inj hview).symm
  exact hfilled ▸ hr

theorem cmdReplace_records (p : Policy) :
    ∃ t, cmdReplaceRuleset (replacePayload p.images.length (enumWires p.images)) true .granted
      p.store = .ok (statusSuccess, t) ∧
      t.current.rules = p.store.current.rules.map (·.withPath []) := by
  have hmax : p.images.length ≤ ruleMax := p.view.bound _ rfl
  obtain ⟨t, ht, hrules⟩ := replace_resubmitted p.wellFormed
  have hmap : (p.images.map fun m => m.rule.withPath []) =
      p.store.current.rules.map (·.withPath []) := by
    rw [← p.shown, List.map_map]
    rfl
  refine ⟨t, ?_, hrules⟩
  rw [cmdReplaceRuleset, replacePayload_parses hmax, hmap]
  exact congrArg Outcome.ok ht

/-- The records of an ENUM_RULES reply, submitted as they are. -/
theorem enum_resubmitted (hd : ∀ i, d.view i = p.view) (hb : c.Backed b)
    (ha : cmdEnumRules c d b = .ok a) (hs : ntSuccess a.status = true) : Resubmitted p a := by
  have hr := enum_records hd hb ha hs
  have hlen := p.length_images
  have hwires : a.records p.store.current.rules.length = enumWires p.images := by
    rw [← hlen]
    exact hr.wires
  refine ⟨hlen ▸ hr.count, ?_, ?_⟩
  · obtain ⟨t, ht, hrules⟩ := cmdReplace_records p
    rw [hwires, ← hlen]
    exact ⟨t, ht, hrules, hrules ▸ map_withPath_nil_eq_self⟩
  · intro i hi c d b hc hstore henv
    obtain ⟨t, ht, hrules⟩ := update_resubmitted p.wellFormed hi
    have hi' : i < p.images.length := hlen ▸ hi
    rw [hwires, record_enumWires hi'] at hc
    refine ⟨t, ?_, hrules, hrules ▸ set_withPath_nil_eq_self hi⟩
    rw [cmdUpdate_record _ hc, hstore, henv, p.rule_image hi' hi, ht]

/-- A rule with the image path "A". -/
def pathRule : Rule := ({ ruleZero with ruleId := 1 } : Rule).withPath [65]

/-- The store after ADD_RULE with it. -/
def pathStore : Store :=
  ((Store.init rateTableEmpty).run (ruleStoreAdd (some pathRule)) .granted).2

theorem pathStore_reachable : Store.system.Reachable pathStore :=
  .step (.of_init ⟨rateTableEmpty, rfl⟩)
    (.call : Store.Step _ ⟨.add (some pathRule), .granted⟩ pathStore)

def pathPolicy : Policy where
  store := pathStore
  images := [⟨pathRule, .replicate 2 0, .replicate 4 0⟩]
  wellFormed := Store.wellFormed_reachable pathStore_reachable
  shown := by decide

def pathDriver : Driver := { emptyDriver with view := fun _ => pathPolicy.view, store := pathStore }

def enumCall : Call := ⟨0, true, 224⟩

def enumBuffers : Buffers := ⟨.replicate 224 0, none⟩

theorem enumCall_backed : enumCall.Backed enumBuffers := by
  have hlen : enumBuffers.input.length = 224 := List.length_replicate
  exact fun _ => ⟨rfl, le_of_le_of_eq (by decide) hlen.symm, hlen.ge⟩

theorem enumCall_ok : ∃ a, cmdEnumRules enumCall pathDriver enumBuffers = .ok a ∧
    ntSuccess a.status = true := by
  obtain ⟨a, ha, hr⟩ := cmdEnumRules_fits (enumCall_backed rfl)
    (⟨rfl, rfl, rfl, by decide, by decide⟩ : EnumFits enumCall pathDriver _ _)
  exact ⟨a, ha, by rw [hr.status]; rfl⟩

theorem enum_resubmitted_pathStore :
    ∃ a, cmdEnumRules enumCall pathDriver enumBuffers = .ok a ∧ Resubmitted pathPolicy a := by
  obtain ⟨a, ha, hs⟩ := enumCall_ok
  exact ⟨a, ha, enum_resubmitted (fun _ => rfl) enumCall_backed ha hs⟩

/-- The rule with the path is not what is stored in its place. -/
theorem path_not_resubmitted : Store.system.Reachable pathPolicy.store ∧
    ∃ a, cmdEnumRules enumCall pathDriver enumBuffers = .ok a ∧ ntSuccess a.status = true ∧
      ¬ ∃ t, cmdReplaceRuleset (replacePayload 1 (a.records 1)) true .granted pathPolicy.store =
        .ok (statusSuccess, t) ∧ t.current.rules = pathPolicy.store.current.rules := by
  obtain ⟨a, ha, hs⟩ := enumCall_ok
  refine ⟨pathStore_reachable, a, ha, hs, ?_⟩
  rintro ⟨t, ht, hrules⟩
  have hr := enum_records (fun _ => rfl) enumCall_backed ha hs
  have hwires : a.records 1 = enumWires pathPolicy.images := hr.wires
  obtain ⟨t', ht', hrules'⟩ := cmdReplace_records pathPolicy
  rw [hwires] at ht
  obtain rfl : t = t' := congrArg Prod.snd (Outcome.ok.inj (ht.symm.trans ht'))
  rw [hrules'] at hrules
  have hpath := map_withPath_nil_eq_self.mp hrules pathRule (by decide)
  exact absurd hpath (by decide)

end Control

end Sentinel
