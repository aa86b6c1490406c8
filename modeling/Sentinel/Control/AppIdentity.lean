import Sentinel.Control.Wire
import Sentinel.Packet.Classify
import Sentinel.Rules.Validate

/-! The application identity of a rule with an image path, on the control and the data side. -/
namespace Sentinel

open Bytes Codec

/-- The test of `SkRuleMatch` under `SK_RULE_M_APPID`. -/
def appIdMatch (rule : Rule) (tuple : ClassifyTuple) : Bool :=
  !rule.has ruleMAppId || rule.appId == 0 || rule.appId == tuple.appId

/-- The state of `SkRuleHashAppPath` after the characters of `path`. -/
def hashState (path : List UInt16) : UInt64 :=
  path.foldl (fun h c => (h ^^^ (foldChar c).toUInt64) * fnv1a64Prime) fnv1a64Offset

/-- Equal up to the case of an ASCII letter. -/
def SameLetter (c d : UInt16) : Prop :=
  c = d ∨ 65 ≤ c ∧ c ≤ 90 ∧ d = c + 32 ∨ 65 ≤ d ∧ d ≤ 90 ∧ c = d + 32

variable {rule r : Rule} {tuple : ClassifyTuple} {path q : List UInt16} {c d : UInt16}
  {buf : List UInt8} {cur : ℕ} {remaining wireBytes pathChars : UInt32} {x : UInt64}

theorem appIdMatch_of_ruleMatch (h : ruleMatch rule tuple = true) :
    appIdMatch rule tuple = true := by
  simp only [ruleMatch, Bool.and_eq_true] at h
  exact h.1.1.1.1.1.1.2

/-! ### The hash -/

theorem hash_of_ne_nil (h : path ≠ []) : ruleHashAppPath path = hashState path := if_neg h

theorem hashState_append : hashState (path ++ [c]) =
    (hashState path ^^^ (foldChar c).toUInt64) * fnv1a64Prime := by
  rw [hashState, List.foldl_append, List.foldl_cons, List.foldl_nil, hashState]

/-- The prime is odd, so no factor 0 comes from it. -/
theorem mul_prime_eq_zero (h : x * fnv1a64Prime = 0) : x = 0 := by
  have hinv : fnv1a64Prime * 14886173955864302971 = 1 := by decide
  rw [← UInt64.mul_one x, ← hinv, ← UInt64.mul_assoc, h, UInt64.zero_mul]

/-- The hash is zero just when the last character meets its own value in the state. -/
theorem hashState_append_eq_zero :
    hashState (path ++ [c]) = 0 ↔ hashState path = (foldChar c).toUInt64 := by
  rw [hashState_append]
  constructor
  · intro h
    exact UInt64.xor_eq_zero_iff.mp (mul_prime_eq_zero h)
  · intro h
    rw [h, UInt64.xor_self, UInt64.zero_mul]

/-! ### Case folding -/

theorem foldChar_eq_of_sameLetter (h : SameLetter c d) : foldChar c = foldChar d := by
  have hlower : ∀ {c : UInt16}, 65 ≤ c → c ≤ 90 → foldChar (c + 32) = c + 32 := by
    intro c hmin hmax
    refine if_neg fun h => ?_
    rw [UInt16.le_iff_toNat_le] at hmin hmax h
    have hadd : (c + 32).toNat = c.toNat + 32 := by
      have h90 : (90 : UInt16).toNat = 90 := rfl
      have h32 : (32 : UInt16).toNat = 32 := rfl
      rw [UInt16.toNat_add, h32]
      omega
    have h65 : (65 : UInt16).toNat = 65 := rfl
    have h90 : (90 : UInt16).toNat = 90 := rfl
    have hle := UInt16.le_iff_toNat_le.mp h.2
    omega
  rcases h with rfl | ⟨hmin, hmax, rfl⟩ | ⟨hmin, hmax, rfl⟩
  · rfl
  · rw [hlower hmin hmax, foldChar, if_pos ⟨hmin, hmax⟩]
  · rw [hlower hmin hmax, foldChar, if_pos ⟨hmin, hmax⟩]

/-- The hash depends on the path in lower case only. -/
theorem hashState_congr (h : List.Forall₂ SameLetter path q) : hashState path = hashState q := by
  have hfold : ∀ s, path.foldl (fun h c => (h ^^^ (foldChar c).toUInt64) * fnv1a64Prime) s =
      q.foldl (fun h c => (h ^^^ (foldChar c).toUInt64) * fnv1a64Prime) s := by
    induction h with
    | nil => exact fun _ => rfl
    | cons hc _ ih =>
      intro s
      rw [List.foldl_cons, List.foldl_cons, foldChar_eq_of_sameLetter hc]
      exact ih _
  exact hfold _

theorem ruleHashAppPath_congr (h : List.Forall₂ SameLetter path q) :
    ruleHashAppPath path = ruleHashAppPath q := by
  cases h with
  | nil => rfl
  | cons hc h =>
    rw [hash_of_ne_nil (List.cons_ne_nil _ _), hash_of_ne_nil (List.cons_ne_nil _ _)]
    exact hashState_congr (.cons hc h)

/-! ### The rule of a path -/

theorem withPath_of_ne_nil (h : path ≠ []) : r.withPath path =
    { r with appId := ruleHashAppPath path, mask := r.mask ||| ruleMAppId } := if_neg h

theorem or_and_self_right (m b : UInt32) : (m ||| b) &&& b = b := by
  apply UInt32.toBitVec_inj.mp
  apply BitVec.eq_of_getLsbD_eq
  intro i _
  rw [UInt32.toBitVec_and, UInt32.toBitVec_or, BitVec.getLsbD_and, BitVec.getLsbD_or]
  cases m.toBitVec.getLsbD i <;> cases b.toBitVec.getLsbD i <;> rfl

theorem has_withPath (h : path ≠ []) : (r.withPath path).has ruleMAppId = true := by
  rw [withPath_of_ne_nil h, Rule.has, or_and_self_right]
  rfl

/-- The condition of a path holds for its own hash, and for every identity if that is 0. -/
theorem appIdMatch_withPath (h : path ≠ []) : appIdMatch (r.withPath path) tuple = true ↔
    hashState path = 0 ∨ hashState path = tuple.appId := by
  have happ : (r.withPath path).appId = hashState path := by
    rw [withPath_of_ne_nil h]
    exact hash_of_ne_nil h
  rw [appIdMatch, has_withPath h, happ]
  simp

/-- An accepted wire with a path is converted to the rule of that path. -/
theorem convertWire_path (hbuf : cur + remaining.toNat ≤ buf.length)
    (hv : validateWire buf cur remaining = .ok wireBytes)
    (hc : (u32.read buf (cur + pathCharsOffset) : Outcome NtStatus _) = .ok pathChars)
    (hne : pathChars ≠ 0) : ∃ image pathOffset path,
      (Layout.rule.read buf cur : Outcome NtStatus _) = .ok image ∧
      (u32.read buf (cur + pathOffsetOffset) : Outcome NtStatus _) = .ok pathOffset ∧
      readPath buf (cur + pathOffset.toNat) pathChars.toNat = .ok path ∧
      path.length = pathChars.toNat ∧ convertWire buf cur = .ok (image.rule.withPath path) := by
  obtain ⟨rule, hconv⟩ := convertWire_ok hbuf hv
  have hconv' := hconv
  rw [convertWire] at hconv
  obtain ⟨image, himage, hconv⟩ := Outcome.bind_eq_ok.mp hconv
  obtain ⟨chars, hchars, hconv⟩ := Outcome.bind_eq_ok.mp hconv
  rw [hc] at hchars
  cases hchars
  rw [if_neg hne] at hconv
  obtain ⟨pathOffset, hoff, hconv⟩ := Outcome.bind_eq_ok.mp hconv
  obtain ⟨path, hpath, hconv⟩ := Outcome.bind_eq_ok.mp hconv
  cases hconv
  exact ⟨image, pathOffset, path, himage, hoff, hpath, readPath_length hpath, hconv'⟩

/-- The rule has a condition that only the identity of the path satisfies, never a missing one. -/
structure PathCondition (rule : Rule) (path : List UInt16) : Prop where
  present : rule.has ruleMAppId = true
  missing : ∀ tuple : ClassifyTuple, tuple.appId = 0 → appIdMatch rule tuple = false
  own : ∀ tuple : ClassifyTuple, tuple.appId ≠ 0 → appIdMatch rule tuple = true →
    tuple.appId = ruleHashAppPath path

/-- The last character, in lower case, is the state of the hash before it. -/
def MeetsZero (path : List UInt16) : Prop :=
  ∃ front c, path = front ++ [c] ∧ hashState front = (foldChar c).toUInt64

theorem meetsZero_iff (h : path ≠ []) : MeetsZero path ↔ hashState path = 0 := by
  constructor
  · rintro ⟨front, c, rfl, hc⟩
    exact hashState_append_eq_zero.mpr hc
  · intro hz
    have hsplit := List.dropLast_append_getLast h
    rw [← hsplit, hashState_append_eq_zero] at hz
    exact ⟨_, _, hsplit.symm, hz⟩

theorem pathCondition_iff (h : path ≠ []) :
    PathCondition (r.withPath path) path ↔ ¬ MeetsZero path := by
  rw [meetsZero_iff h]
  constructor
  · intro hp hz
    have hmiss := hp.missing tupleZero rfl
    have hhit : appIdMatch (r.withPath path) tupleZero = true :=
      (appIdMatch_withPath h).mpr (.inl hz)
    exact Bool.false_ne_true (hmiss.symm.trans hhit)
  · intro hz
    refine ⟨has_withPath h, fun tuple ht => ?_, fun tuple _ hm => ?_⟩
    · rw [Bool.eq_false_iff]
      intro hm
      rcases (appIdMatch_withPath h).mp hm with h0 | h0
      · exact hz h0
      · exact hz (h0.trans ht)
    · rcases (appIdMatch_withPath h).mp hm with h0 | h0
      · exact absurd h0 hz
      · rw [hash_of_ne_nil h]
        exact h0.symm

/-- The rule of an accepted wire with a path has the condition of that path, unless the last
character meets its own value in the state of the hash: then the hash is the wildcard 0. -/
theorem path_condition_iff (hbuf : cur + remaining.toNat ≤ buf.length)
    (hv : validateWire buf cur remaining = .ok wireBytes)
    (hc : (u32.read buf (cur + pathCharsOffset) : Outcome NtStatus _) = .ok pathChars)
    (hne : pathChars ≠ 0) : ∃ pathOffset path rule,
      (u32.read buf (cur + pathOffsetOffset) : Outcome NtStatus _) = .ok pathOffset ∧
      readPath buf (cur + pathOffset.toNat) pathChars.toNat = .ok path ∧
      convertWire buf cur = .ok rule ∧
      (∀ tuple, ruleMatch rule tuple = true → appIdMatch rule tuple = true) ∧
      (PathCondition rule path ↔ ¬ MeetsZero path) := by
  obtain ⟨image, pathOffset, path, -, hoff, hpath, hlen, hconv⟩ := convertWire_path hbuf hv hc hne
  have hpath' : path ≠ [] := by
    rintro rfl
    exact hne (UInt32.toNat_inj.mp hlen.symm)
  exact ⟨pathOffset, path, _, hoff, hpath, hconv, fun _ => appIdMatch_of_ruleMatch,
    pathCondition_iff hpath'⟩

/-- A block rule without a condition of its own. -/
def pathRule : RuleImage :=
  ⟨{ ruleZero with ruleId := 7, action := ruleActionBlock, enabled := 1 }, .replicate 2 0,
    .replicate 4 0⟩

/-- Its wire with a path. -/
def pathWire (path : List UInt16) : List UInt8 := encodeWire (pathRule, path)

theorem pathWire_accepted (hlen : path.length ≤ rulePathMaxChars.toNat) :
    validateWire (pathWire path) 0 (UInt32.ofNat (pathWire path).length) =
      .ok (UInt32.ofNat (pathWire path).length) ∧
    convertWire (pathWire path) 0 = .ok (pathRule.rule.withPath path) ∧
    (u32.read (pathWire path) (0 + pathCharsOffset) : Outcome NtStatus _) =
      .ok (UInt32.ofNat path.length) ∧
    0 + (UInt32.ofNat (pathWire path).length).toNat ≤ (pathWire path).length := by
  have hmax : rulePathMaxChars.toNat = 260 := rfl
  have hsize : (pathWire path).length = ruleWireSize + 2 * path.length := length_encodeWire
  have hfit : (UInt32.ofNat (pathWire path).length).toNat = (pathWire path).length := by
    refine UInt32.toNat_ofNat_of_lt' ?_
    simp only [hsize, ruleWireSize, UInt32.size]
    omega
  have hvalid := @validateWire_encode (UInt32.ofNat (pathWire path).length) (pathRule, path) []
    hlen hfit.ge
  have hconv := @convertWire_encode (pathRule, path) [] hlen
  have hchars := @read_pathChars (pathRule, path) []
  rw [List.append_nil] at hvalid hconv hchars
  rw [Nat.zero_add, Nat.zero_add]
  exact ⟨hvalid, hconv, hchars, hfit.le⟩

/-- The path in the wire is the one it was made with. -/
theorem pathWire_path {pathOffset : UInt32} {path' : List UInt16} (hne : path ≠ [])
    (hlen : path.length ≤ rulePathMaxChars.toNat)
    (hoff : (u32.read (pathWire path) (0 + pathOffsetOffset) : Outcome NtStatus _) =
      .ok pathOffset)
    (hpath : readPath (pathWire path) (0 + pathOffset.toNat) (UInt32.ofNat path.length).toNat =
      .ok path') : path' = path := by
  have hmax : rulePathMaxChars.toNat = 260 := rfl
  have hread := @read_pathOffset (pathRule, path) []
  have hchars := @readPath_encodeWire (pathRule, path) []
  rw [List.append_nil] at hread hchars
  rw [Nat.zero_add] at hoff hpath
  obtain rfl : pathOffsetOf path = pathOffset := Outcome.ok.inj (hread.symm.trans hoff)
  have hsize : (pathOffsetOf path).toNat = ruleWireSize := by
    rw [pathOffsetOf, if_neg hne]
    rfl
  have hcount : (UInt32.ofNat path.length).toNat = path.length := by
    refine UInt32.toNat_ofNat_of_lt' ?_
    rw [UInt32.size]
    omega
  rw [hsize, hcount] at hpath
  exact (Outcome.ok.inj (hchars.symm.trans hpath)).symm

/-- `c:\windows\web.exe` -/
def imagePath : List UInt16 :=
  [99, 58, 92, 119, 105, 110, 100, 111, 119, 115, 92, 119, 101, 98, 46, 101, 120, 101]

theorem path_condition_iff_imagePath : ∃ rule, convertWire (pathWire imagePath) 0 = .ok rule ∧
    PathCondition rule imagePath := by
  obtain ⟨hv, -, hc, hbuf⟩ := @pathWire_accepted imagePath (by decide)
  obtain ⟨off, path, rule, hoff, hpath, hconv, -, hiff⟩ :=
    path_condition_iff hbuf hv hc (by decide)
  obtain rfl : path = imagePath := pathWire_path (by decide) (by decide) hoff hpath
  refine ⟨rule, hconv, hiff.mpr fun hz => ?_⟩
  exact absurd ((meetsZero_iff (by decide)).mp hz) (by decide +kernel)

/-- A path whose hash is 0. -/
def zeroPath : List UInt16 := [99, 58, 92, 0x5277, 0x6d72, 0x7ef9, 0x7a11, 0x7253]

/-- Its rule is accepted and blocks every connection, with whatever identity or none. -/
theorem zeroPath_is_wildcard : zeroPath.length = 8 ∧
    validateWire (pathWire zeroPath) 0 (UInt32.ofNat (pathWire zeroPath).length) =
      .ok (UInt32.ofNat (pathWire zeroPath).length) ∧
    convertWire (pathWire zeroPath) 0 = .ok (pathRule.rule.withPath zeroPath) ∧
    (pathRule.rule.withPath zeroPath).Valid ∧
    ¬ PathCondition (pathRule.rule.withPath zeroPath) zeroPath ∧
    ∀ appId, ruleMatch (pathRule.rule.withPath zeroPath) { tupleZero with appId := appId } =
      true := by
  obtain ⟨hv, hconv, -, -⟩ := @pathWire_accepted zeroPath (by decide)
  have happ : (pathRule.rule.withPath zeroPath).appId = 0 := by decide +kernel
  refine ⟨rfl, hv, hconv, by decide +kernel, ?_, fun appId => ?_⟩
  · intro hp
    have hmiss := hp.missing tupleZero rfl
    exact absurd hmiss (by decide +kernel)
  · have hmask : (pathRule.rule.withPath zeroPath).mask = ruleMAppId := by decide +kernel
    have henabled : (pathRule.rule.withPath zeroPath).enabled = 1 := by decide +kernel
    simp only [ruleMatch, Rule.has, happ, hmask, henabled]
    rfl

/-! ### Both sides -/

/-- The identity that the data side computes from the path in whatever case, with or without a
trailing odd byte, satisfies the condition of the rule that the control side has made from it. -/
theorem identity_agrees (hbuf : cur + remaining.toNat ≤ buf.length)
    (hv : validateWire buf cur remaining = .ok wireBytes)
    (hc : (u32.read buf (cur + pathCharsOffset) : Outcome NtStatus _) = .ok pathChars)
    (hne : pathChars ≠ 0) : ∃ pathOffset path rule,
      (u32.read buf (cur + pathOffsetOffset) : Outcome NtStatus _) = .ok pathOffset ∧
      readPath buf (cur + pathOffset.toNat) pathChars.toNat = .ok path ∧
      convertWire buf cur = .ok rule ∧
      ∀ (layerId : UInt32) (inFixed : Option (List FwpValue)) (metadata : FwpsMetadata)
        (blob : FwpByteBlob) (data : List UInt8) (now : UInt64),
        metadata.processPath = some blob → blob.data = some data →
        data.length = blob.size.toNat → List.Forall₂ SameLetter (wideChars data) path →
        let tuple := classifyBuildTuple layerId inFixed (some metadata) now
        rule.has ruleMAppId = true ∧ tuple.appId = rule.appId ∧
          appIdMatch rule tuple = true := by
  obtain ⟨image, pathOffset, path, -, hoff, hpath, hlen, hconv⟩ := convertWire_path hbuf hv hc hne
  have hpath' : path ≠ [] := by
    rintro rfl
    exact hne (UInt32.toNat_inj.mp hlen.symm)
  refine ⟨pathOffset, path, _, hoff, hpath, hconv, ?_⟩
  intro layerId inFixed metadata blob data now hmeta hdata hsize hsame
  have hchars := hsame.length_eq
  rw [length_wideChars] at hchars
  have hpos := List.length_pos_iff.mpr hpath'
  have hbig : ¬ blob.size < 2 := by
    have htwo : (2 : UInt32).toNat = 2 := rfl
    rw [UInt32.lt_iff_toNat_lt, htwo]
    omega
  have htake : (wideChars data).take (blob.size / 2).toNat = wideChars data := by
    refine List.take_of_length_le ?_
    rw [length_wideChars, hsize, UInt32.toNat_div]
    exact le_rfl
  have happ : (classifyBuildTuple layerId inFixed (some metadata) now).appId =
      ruleHashAppPath path := by
    rw [classifyBuildTuple_appId, Option.bind_some, hmeta, Option.map_some, Option.getD_some,
      blobAppId, hdata]
    dsimp only
    rw [if_neg hbig, htake]
    exact ruleHashAppPath_congr hsame
  refine ⟨has_withPath hpath', ?_, ?_⟩
  · rw [happ, withPath_of_ne_nil hpath']
  · rw [appIdMatch_withPath hpath', happ, hash_of_ne_nil hpath']
    exact .inr rfl

theorem identity_agrees_pathWire : ∃ rule, convertWire (pathWire [97, 66]) 0 = .ok rule ∧
    (classifyBuildTuple 0 none (some ⟨none, some ⟨5, some [65, 0, 98, 0, 7]⟩⟩) 0).appId =
      rule.appId := by
  obtain ⟨hv, -, hc, hbuf⟩ := @pathWire_accepted [97, 66] (by decide)
  obtain ⟨off, path, rule, hoff, hpath, hconv, hagree⟩ := identity_agrees hbuf hv hc (by decide)
  obtain rfl : path = [97, 66] := pathWire_path (by decide) (by decide) hoff hpath
  refine ⟨rule, hconv, (hagree 0 none _ _ _ 0 rfl rfl rfl ?_).2.1⟩
  exact .cons (.inr (.inl (by decide))) (.cons (.inr (.inr (by decide))) .nil)

end Sentinel
