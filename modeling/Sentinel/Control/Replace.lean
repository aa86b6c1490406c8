import Sentinel.Control.Wire
import Sentinel.Store.Operations

/-! `skCmdReplaceRuleset`: a whole rule set on the wire. -/
namespace Sentinel

open Bytes Codec

/-- The loop over the wires: the rules and the bytes left. A subtraction that wraps is a fault. -/
def parseWires (buf : List UInt8) : ℕ → ℕ → UInt32 → Outcome NtStatus (List Rule × UInt32)
  | 0, _, remaining => .ok ([], remaining)
  | count + 1, cur, remaining => do
    let wireBytes ← validateWire buf cur remaining
    let r ← convertWire buf cur
    if remaining < wireBytes then .fault
    else do
      let (rules, left) ← parseWires buf count (cur + wireBytes.toNat) (remaining - wireBytes)
      return (r :: rules, left)

/-- `skCmdReplaceRuleset` up to its call of `SkRuleStoreReplace`: the arguments of the call.
`alloc` says whether `AllocPool` succeeds. -/
def parseReplace (payload : List UInt8) (alloc : Bool) : Outcome NtStatus (RuleArray × UInt64) :=
  if payload.length < replaceHeaderSize then .error statusInvalidParameter
  else do
    let (count, rulesBytes, expectedVersion) ← Layout.replaceHeader.read payload 0
    if ruleMax < count.toNat then .error statusInvalidParameter
    else if replaceMaxBytes < rulesBytes.toNat then .error statusInvalidParameter
    else if replaceHeaderSize + rulesBytes.toNat ≠ payload.length then
      .error statusInvalidParameter
    else if count ≠ 0 ∧ rulesBytes.toNat < count.toNat * ruleWireSize then
      .error statusInvalidParameter
    else if count ≠ 0 ∧ alloc = false then .error statusInsufficientResources
    else do
      let (rules, left) ← parseWires payload count.toNat replaceHeaderSize rulesBytes
      if left ≠ 0 then .error statusInvalidParameter
      else return (if count = 0 then .null 0 else .array rules, expectedVersion)

/-- `skCmdReplaceRuleset`. -/
def cmdReplaceRuleset (payload : List UInt8) (alloc : Bool) (env : Env) (s : Store) :
    Outcome NtStatus (NtStatus × Store) :=
  match parseReplace payload alloc with
  | .fault => .fault
  | .error st => .ok (st, s)
  | .ok (rules, expectedVersion) => .ok (s.run (ruleStoreReplace rules expectedVersion) env)

/-- Wires one after the other that fill the bytes, and the rules they stand for. -/
inductive Wires : List UInt8 → List Rule → Prop where
  | nil : Wires [] []
  | cons {bytes : List UInt8} {wireBytes : UInt32} {r : Rule} {rules : List Rule}
      (hv : validateWire bytes 0 (UInt32.ofNat bytes.length) = .ok wireBytes)
      (hc : convertWire bytes 0 = .ok r) (h : Wires (bytes.drop wireBytes.toNat) rules) :
      Wires bytes (r :: rules)

/-- What `skCmdReplaceRuleset` takes for the rules: no array is allocated for none. -/
def RuleArray.ofRules (rules : List Rule) : RuleArray :=
  if rules = [] then .null 0 else .array rules

/-- The format: a header within the limits that fits the payload, and its wires. -/
def ReplaceFormat (payload : List UInt8) (rules : List Rule) (expectedVersion : UInt64) : Prop :=
  ∃ rulesBytes : UInt32, ∃ count : UInt32,
    (Layout.replaceHeader.read payload 0 : Outcome NtStatus _) =
      .ok (count, rulesBytes, expectedVersion) ∧
    count.toNat ≤ ruleMax ∧ rulesBytes.toNat ≤ replaceMaxBytes ∧
    replaceHeaderSize + rulesBytes.toNat = payload.length ∧
    rules.length = count.toNat ∧ Wires (payload.drop replaceHeaderSize) rules

/-- A rule set on the wire. -/
def encodeWires (ws : List (RuleImage × List UInt16)) : List UInt8 := ws.flatMap encodeWire

def encodeReplace (ws : List (RuleImage × List UInt16)) (expectedVersion : UInt64) : List UInt8 :=
  Layout.replaceHeader.encode
    (UInt32.ofNat ws.length, UInt32.ofNat (encodeWires ws).length, expectedVersion) ++
    encodeWires ws

variable {buf payload bytes : List UInt8} {count cur : ℕ} {remaining left : UInt32}
  {rules : List Rule} {st : NtStatus}

/-! ### The loop -/

theorem parseWires_ne_fault (h : cur + remaining.toNat ≤ buf.length) :
    parseWires buf count cur remaining ≠ .fault := by
  induction count generalizing cur remaining with
  | zero => exact nofun
  | succ count ih =>
    rw [parseWires]
    refine Outcome.bind_ne_fault (validateWire_ne_fault h) fun wireBytes hv => ?_
    obtain ⟨r, hc⟩ := convertWire_ok h hv
    obtain ⟨-, hle⟩ := validateWire_bounds h hv
    have hwrap : ¬ remaining < wireBytes := UInt32.not_lt.mpr (UInt32.le_iff_toNat_le.mpr hle)
    rw [hc, Outcome.ok_bind, if_neg hwrap]
    refine Outcome.bind_ne_fault (ih ?_) fun p _ => nofun
    rw [UInt32.toNat_sub_of_le _ _ (UInt32.le_iff_toNat_le.mpr hle)]
    omega

theorem parseWires_error (h : cur + remaining.toNat ≤ buf.length)
    (he : parseWires buf count cur remaining = .error st) : st = statusInvalidParameter := by
  induction count generalizing cur remaining with
  | zero => cases he
  | succ count ih =>
    rw [parseWires] at he
    cases hv : validateWire buf cur remaining with
    | fault => exact absurd hv (validateWire_ne_fault h)
    | error st' =>
      rw [hv] at he
      cases he
      exact validateWire_error h hv
    | ok wireBytes =>
      obtain ⟨r, hc⟩ := convertWire_ok h hv
      obtain ⟨-, hle⟩ := validateWire_bounds h hv
      have hwrap : ¬ remaining < wireBytes := UInt32.not_lt.mpr (UInt32.le_iff_toNat_le.mpr hle)
      rw [hv, Outcome.ok_bind, hc, Outcome.ok_bind, if_neg hwrap] at he
      have hroom : cur + wireBytes.toNat + (remaining - wireBytes).toNat ≤ buf.length := by
        rw [UInt32.toNat_sub_of_le _ _ (UInt32.le_iff_toNat_le.mpr hle)]
        omega
      cases hp : parseWires buf count (cur + wireBytes.toNat) (remaining - wireBytes) with
      | fault => exact absurd hp (parseWires_ne_fault hroom)
      | error st' =>
        rw [hp] at he
        cases he
        exact ih hroom hp
      | ok p =>
        rw [hp] at he
        cases he

/-- A wire at `cur` is a wire at the beginning of the bytes from there on. -/
theorem wire_drop (buf : List UInt8) (remaining : UInt32) (h : cur ≤ buf.length) :
    validateWire buf cur remaining = validateWire (buf.drop cur) 0 remaining ∧
      convertWire buf cur = convertWire (buf.drop cur) 0 := by
  have hlen : (buf.take cur).length = cur := List.length_take_of_le h
  have hv := validateWire_append_left (buf.take cur) (buf.drop cur) 0 remaining
  have hc := convertWire_append_left (buf.take cur) (buf.drop cur) 0
  rw [List.take_append_drop, hlen, Nat.add_zero] at hv hc
  exact ⟨hv, hc⟩

theorem ofNat_length_drop (h : cur + remaining.toNat = buf.length) :
    UInt32.ofNat (buf.drop cur).length = remaining := by
  have hlen : (buf.drop cur).length = remaining.toNat := by
    rw [List.length_drop]
    omega
  rw [hlen, UInt32.ofNat_toNat]

/-- The loop consumes everything just when there are `count` wires that fill the bytes left. -/
theorem parseWires_iff (h : cur + remaining.toNat = buf.length) :
    parseWires buf count cur remaining = .ok (rules, 0) ↔
      rules.length = count ∧ Wires (buf.drop cur) rules := by
  induction count generalizing cur remaining rules with
  | zero =>
    have hempty : remaining = 0 ↔ buf.drop cur = [] := by
      rw [← List.length_eq_zero_iff, List.length_drop, ← UInt32.toNat_inj, UInt32.toNat_zero]
      omega
    rw [parseWires, List.length_eq_zero_iff]
    constructor
    · intro he
      cases he
      rw [hempty.mp rfl]
      exact ⟨rfl, .nil⟩
    · rintro ⟨rfl, hw⟩
      cases hd : buf.drop cur with
      | nil => rw [hempty.mpr hd]
      | cons b bs =>
        rw [hd] at hw
        cases hw
  | succ count ih =>
    obtain ⟨hv', hc'⟩ := wire_drop buf remaining (Nat.le.intro h)
    have hof := ofNat_length_drop h
    have hnext : ∀ {wireBytes : UInt32}, validateWire buf cur remaining = .ok wireBytes →
        ¬ remaining < wireBytes ∧
        cur + wireBytes.toNat + (remaining - wireBytes).toNat = buf.length := by
      intro wireBytes hv
      obtain ⟨-, hle⟩ := validateWire_bounds h.le hv
      have hle' := UInt32.le_iff_toNat_le.mpr hle
      refine ⟨UInt32.not_lt.mpr hle', ?_⟩
      rw [UInt32.toNat_sub_of_le _ _ hle']
      omega
    rw [parseWires]
    constructor
    · intro he
      obtain ⟨wireBytes, hv, he⟩ := Outcome.bind_eq_ok.mp he
      obtain ⟨r, hc, he⟩ := Outcome.bind_eq_ok.mp he
      obtain ⟨hwrap, hrest⟩ := hnext hv
      rw [if_neg hwrap] at he
      obtain ⟨⟨rs, left⟩, hp, he⟩ := Outcome.bind_eq_ok.mp he
      cases he
      obtain ⟨hlen, hw⟩ := (ih hrest).mp hp
      rw [← List.drop_drop] at hw
      refine ⟨congrArg (· + 1) hlen, .cons ?_ (hc' ▸ hc) hw⟩
      rw [hof, ← hv', hv]
    · rintro ⟨hlen, hw⟩
      generalize hd : buf.drop cur = bytes at hw hof hv' hc'
      cases hw with
      | nil => cases hlen
      | cons hv hc hw =>
        rw [hof, ← hv'] at hv
        rw [← hc'] at hc
        obtain ⟨hwrap, hrest⟩ := hnext hv
        rw [← hd, List.drop_drop] at hw
        have hp := (ih hrest).mpr ⟨Nat.succ_inj.mp hlen, hw⟩
        rw [hv, Outcome.ok_bind, hc, Outcome.ok_bind, if_neg hwrap, hp, Outcome.ok_bind]
        rfl

/-! ### The command -/

theorem Wires.length_le (h : Wires bytes rules) :
    rules.length * ruleWireSize ≤ bytes.length := by
  induction h with
  | nil => exact Nat.le_refl 0
  | @cons bytes wireBytes r rules hv hc h ih =>
    have hof : 0 + (UInt32.ofNat bytes.length).toNat ≤ bytes.length := by
      rw [Nat.zero_add, UInt32.toNat_ofNat']
      exact Nat.mod_le _ _
    obtain ⟨hmin, hmax⟩ := validateWire_bounds hof hv
    rw [List.length_drop] at ih
    rw [List.length_cons, Nat.succ_mul]
    omega

theorem ofRules_eq {n : UInt32} (h : rules.length = n.toNat) :
    RuleArray.ofRules rules = if n = 0 then .null 0 else .array rules := by
  refine if_congr ?_ rfl rfl
  rw [← List.length_eq_zero_iff, h, ← UInt32.toNat_inj, UInt32.toNat_zero]

/-- The ways through `skCmdReplaceRuleset` up to its call of the store. -/
theorem parseReplace_cases (payload : List UInt8) (alloc : Bool) :
    parseReplace payload alloc = .error statusInvalidParameter ∨
    ∃ count rulesBytes expectedVersion,
      (Layout.replaceHeader.read payload 0 : Outcome NtStatus _) =
        .ok (count, rulesBytes, expectedVersion) ∧
      count.toNat ≤ ruleMax ∧ rulesBytes.toNat ≤ replaceMaxBytes ∧
      replaceHeaderSize + rulesBytes.toNat = payload.length ∧
      ((count ≠ 0 ∧ alloc = false ∧
        parseReplace payload alloc = .error statusInsufficientResources) ∨
      (count = 0 ∨ alloc = true) ∧ ∃ rules,
        parseWires payload count.toNat replaceHeaderSize rulesBytes = .ok (rules, 0) ∧
        parseReplace payload alloc = .ok (.ofRules rules, expectedVersion)) := by
  by_cases hlen : payload.length < replaceHeaderSize
  · exact .inl (by rw [parseReplace, if_pos hlen])
  obtain ⟨⟨count, rulesBytes, expectedVersion⟩, hread⟩ : ∃ h,
      (Layout.replaceHeader.read payload 0 : Outcome NtStatus _) = .ok h :=
    read_of_le (Nat.le_of_not_lt hlen)
  rw [parseReplace, if_neg hlen, hread, Outcome.ok_bind]
  dsimp only
  by_cases hcount : ruleMax < count.toNat
  · exact .inl (if_pos hcount)
  by_cases hbytes : replaceMaxBytes < rulesBytes.toNat
  · exact .inl (by rw [if_neg hcount, if_pos hbytes])
  by_cases hfit : replaceHeaderSize + rulesBytes.toNat ≠ payload.length
  · exact .inl (by rw [if_neg hcount, if_neg hbytes, if_pos hfit])
  have hfit' : replaceHeaderSize + rulesBytes.toNat = payload.length := not_not.mp hfit
  rw [if_neg hcount, if_neg hbytes, if_neg hfit]
  by_cases hroom : count ≠ 0 ∧ rulesBytes.toNat < count.toNat * ruleWireSize
  · exact .inl (if_pos hroom)
  rw [if_neg hroom]
  by_cases halloc : count ≠ 0 ∧ alloc = false
  · exact .inr ⟨count, rulesBytes, expectedVersion, rfl, Nat.le_of_not_lt hcount,
      Nat.le_of_not_lt hbytes, hfit', .inl ⟨halloc.1, halloc.2, if_pos halloc⟩⟩
  rw [if_neg halloc]
  cases hp : parseWires payload count.toNat replaceHeaderSize rulesBytes with
  | fault => exact absurd hp (parseWires_ne_fault hfit'.le)
  | error st =>
    rw [parseWires_error hfit'.le hp]
    exact .inl rfl
  | ok p =>
    obtain ⟨rules, left⟩ := p
    rw [Outcome.ok_bind]
    dsimp only
    by_cases hleft : left ≠ 0
    · exact .inl (if_pos hleft)
    · rw [if_neg hleft]
      obtain rfl := not_not.mp hleft
      have hlength := ((parseWires_iff hfit').mp hp).1
      refine .inr ⟨count, rulesBytes, expectedVersion, rfl, Nat.le_of_not_lt hcount,
        Nat.le_of_not_lt hbytes, hfit', .inr ⟨?_, rules, hp, ?_⟩⟩
      · rcases not_and_or.mp halloc with h | h
        · exact .inl (not_not.mp h)
        · exact .inr (by simpa using h)
      · rw [ofRules_eq hlength]
        rfl

theorem parseReplace_ne_fault (payload : List UInt8) (alloc : Bool) :
    parseReplace payload alloc ≠ .fault := by
  rcases parseReplace_cases payload alloc with he | ⟨_, _, _, -, -, -, -, ⟨-, -, he⟩ |
    ⟨-, _, -, he⟩⟩ <;> rw [he] <;> exact nofun

theorem parseReplace_error {alloc : Bool} (h : parseReplace payload alloc = .error st) :
    ntSuccess st = false := by
  rcases parseReplace_cases payload alloc with he | ⟨_, _, _, -, -, -, -, ⟨-, -, he⟩ |
    ⟨-, _, -, he⟩⟩ <;> rw [he] at h <;> cases h <;> rfl

/-- The store is called just for a payload of the format, with the rules of its wires. -/
theorem parseReplace_iff {args : RuleArray} {expectedVersion : UInt64} :
    parseReplace payload true = .ok (args, expectedVersion) ↔
      ∃ rules, ReplaceFormat payload rules expectedVersion ∧ args = .ofRules rules := by
  rcases parseReplace_cases payload true with he | ⟨count, rulesBytes, v, hread, hcount, hbytes,
    hfit, ⟨-, hno, -⟩ | ⟨-, rules, hp, he⟩⟩
  · rw [he]
    refine ⟨nofun, ?_⟩
    rintro ⟨rules, ⟨rulesBytes, count, hread, hcount, hbytes, hfit, hlen, hw⟩, rfl⟩
    have hp := (parseWires_iff hfit).mpr ⟨hlen, hw⟩
    have hmin := hw.length_le
    rw [List.length_drop] at hmin
    have hroom : ¬ (count ≠ 0 ∧ rulesBytes.toNat < count.toNat * ruleWireSize) := by
      rintro ⟨-, hlt⟩
      rw [hlen] at hmin
      omega
    have hsize : ¬ payload.length < replaceHeaderSize := by omega
    have hok : parseReplace payload true = .ok (.ofRules rules, expectedVersion) := by
      rw [parseReplace, if_neg hsize, hread, Outcome.ok_bind]
      dsimp only
      rw [if_neg (Nat.not_lt.mpr hcount), if_neg (Nat.not_lt.mpr hbytes),
        if_neg (not_not.mpr hfit), if_neg hroom, if_neg (by simp), hp, Outcome.ok_bind]
      dsimp only
      rw [if_neg (not_not.mpr rfl), ofRules_eq hlen]
      rfl
    rw [hok] at he
    cases he
  · cases hno
  · rw [he]
    obtain ⟨hlen, hw⟩ := (parseWires_iff hfit).mp hp
    constructor
    · intro h
      cases h
      exact ⟨rules, ⟨rulesBytes, count, hread, hcount, hbytes, hfit, hlen, hw⟩, rfl⟩
    · rintro ⟨rules', ⟨rulesBytes', count', hread', -, -, hfit', hlen', hw'⟩, rfl⟩
      rw [hread] at hread'
      cases hread'
      have hp' := (parseWires_iff hfit').mpr ⟨hlen', hw'⟩
      rw [hp] at hp'
      cases hp'
      rfl

/-- What is parsed without memory is parsed with it. -/
theorem parseReplace_alloc {alloc : Bool} {args : RuleArray × UInt64}
    (h : parseReplace payload alloc = .ok args) : parseReplace payload true = .ok args := by
  cases alloc with
  | true => exact h
  | false =>
    rcases parseReplace_cases payload false with he | ⟨count, rulesBytes, v, hread, hcount,
      hbytes, hfit, ⟨-, -, he⟩ | ⟨-, rules, hp, he⟩⟩ <;> rw [he] at h <;> cases h
    obtain ⟨hlen, hw⟩ := (parseWires_iff hfit).mp hp
    exact parseReplace_iff.mpr
      ⟨rules, ⟨rulesBytes, count, hread, hcount, hbytes, hfit, hlen, hw⟩, rfl⟩

/-! ### The encoder -/

theorem encodeWires_wires {ws : List (RuleImage × List UInt16)}
    (hmax : ∀ w ∈ ws, w.2.length ≤ rulePathMaxChars.toNat)
    (hlt : (encodeWires ws).length < UInt32.size) :
    Wires (encodeWires ws) (ws.map fun w => w.1.rule.withPath w.2) := by
  induction ws with
  | nil => exact .nil
  | cons w ws ih =>
    have hw := hmax w List.mem_cons_self
    have hcons : encodeWires (w :: ws) = encodeWire w ++ encodeWires ws := List.flatMap_cons
    rw [hcons, List.length_append] at hlt
    have hto : (UInt32.ofNat (encodeWire w ++ encodeWires ws).length).toNat =
        (encodeWire w).length + (encodeWires ws).length := by
      rw [List.length_append, UInt32.toNat_ofNat_of_lt' hlt]
    have hwire : (UInt32.ofNat (encodeWire w).length).toNat = (encodeWire w).length :=
      UInt32.toNat_ofNat_of_lt' (by omega)
    rw [hcons, List.map_cons]
    refine .cons (validateWire_encode hw (by omega)) (convertWire_encode hw) ?_
    rw [hwire, List.drop_left]
    exact ih (fun w' hw' => hmax w' (List.mem_cons_of_mem w hw')) (by omega)

/-- The encoder writes the format. -/
theorem encodeReplace_format {ws : List (RuleImage × List UInt16)} (expectedVersion : UInt64)
    (hcount : ws.length ≤ ruleMax) (hmax : ∀ w ∈ ws, w.2.length ≤ rulePathMaxChars.toNat)
    (hbytes : (encodeWires ws).length ≤ replaceMaxBytes) :
    ReplaceFormat (encodeReplace ws expectedVersion)
      (ws.map fun w => w.1.rule.withPath w.2) expectedVersion := by
  have hlt : (encodeWires ws).length < UInt32.size := hbytes.trans_lt (by decide)
  have hlt' : ws.length < UInt32.size := hcount.trans_lt (by decide)
  let header := Layout.replaceHeader.encode
    (UInt32.ofNat ws.length, UInt32.ofNat (encodeWires ws).length, expectedVersion)
  have hheader : header.length = replaceHeaderSize := Layout.replaceHeader.length_encode _
  have hto : (UInt32.ofNat (encodeWires ws).length).toNat = (encodeWires ws).length :=
    UInt32.toNat_ofNat_of_lt' hlt
  have hto' : (UInt32.ofNat ws.length).toNat = ws.length := UInt32.toNat_ofNat_of_lt' hlt'
  refine ⟨UInt32.ofNat (encodeWires ws).length, UInt32.ofNat ws.length, read_append (l := []),
    hto'.le.trans hcount, hto.le.trans hbytes, ?_, ?_, ?_⟩
  · rw [hto, encodeReplace, List.length_append]
    exact congrArg (· + _) hheader.symm
  · rw [List.length_map, hto']
  · have hdrop : (encodeReplace ws expectedVersion).drop replaceHeaderSize = encodeWires ws := by
      rw [encodeReplace]
      exact List.drop_left' hheader
    rw [hdrop]
    exact encodeWires_wires hmax hlt

/-- `skCmdReplaceRuleset` parses exactly its format: it stays in the payload, calls the store just
for a payload of the format, leaves it alone otherwise, and takes what the encoder writes. -/
theorem replaceRuleset_parses (payload : List UInt8) (alloc : Bool) (env : Env) (s : Store) :
    cmdReplaceRuleset payload alloc env s ≠ .fault ∧
    (∀ args expectedVersion, parseReplace payload true = .ok (args, expectedVersion) ↔
      ∃ rules, ReplaceFormat payload rules expectedVersion ∧ args = .ofRules rules) ∧
    (∀ args expectedVersion, parseReplace payload alloc = .ok (args, expectedVersion) →
      parseReplace payload true = .ok (args, expectedVersion) ∧
      cmdReplaceRuleset payload alloc env s =
        .ok (s.run (ruleStoreReplace args expectedVersion) env)) ∧
    ((∀ args, parseReplace payload alloc ≠ .ok args) →
      ∃ st, ntSuccess st = false ∧ cmdReplaceRuleset payload alloc env s = .ok (st, s)) ∧
    ∀ (ws : List (RuleImage × List UInt16)) (expectedVersion : UInt64), ws.length ≤ ruleMax →
      (∀ w ∈ ws, w.2.length ≤ rulePathMaxChars.toNat) →
      (encodeWires ws).length ≤ replaceMaxBytes →
      parseReplace (encodeReplace ws expectedVersion) true =
        .ok (.ofRules (ws.map fun w => w.1.rule.withPath w.2), expectedVersion) := by
  have hfault := parseReplace_ne_fault payload alloc
  refine ⟨?_, fun _ _ => parseReplace_iff, ?_, ?_, ?_⟩
  · rw [cmdReplaceRuleset]
    split
    · rename_i h
      exact absurd h hfault
    · exact nofun
    · exact nofun
  · intro args expectedVersion h
    exact ⟨parseReplace_alloc h, by rw [cmdReplaceRuleset, h]⟩
  · intro hno
    cases hp : parseReplace payload alloc with
    | fault => exact absurd hp hfault
    | error st => exact ⟨st, parseReplace_error hp, by rw [cmdReplaceRuleset, hp]⟩
    | ok args => exact absurd hp (hno args)
  · intro ws expectedVersion hcount hmax hbytes
    exact parseReplace_iff.mpr ⟨_, encodeReplace_format expectedVersion hcount hmax hbytes, rfl⟩

/-- A rule with the path "A". -/
theorem replaceRuleset_parses_one :
    parseReplace (encodeReplace [(⟨ruleZero, .replicate 2 0, .replicate 4 0⟩, [65])] 7) true =
      .ok (.array [ruleZero.withPath [65]], 7) :=
  (replaceRuleset_parses [] true .granted (Store.init rateTableEmpty)).2.2.2.2 _ 7
    (by decide) (by simp [rulePathMaxChars])
    (by simp [encodeWires, length_encodeWire, ruleWireSize, replaceMaxBytes])

end Sentinel
