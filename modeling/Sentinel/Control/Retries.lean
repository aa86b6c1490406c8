import Sentinel.Control.Aliasing
import Sentinel.Control.RoundTrip

/-! A modify command dispatched again. -/
namespace Sentinel

open Bytes Codec Control

variable {s : Store} {req : Request} {env env' : Env} {cur : Snapshot} {rb rb' : Option Snapshot}
  {set set' : RuleSet} {st : NtStatus}

/-! ### The store -/

/-- What a writer prepares from its own publication is the same again; a rollback alone goes back
and forth. -/
theorem draft_twice (hne : req ≠ .rollback) (hcur : cur.WellFormed) (hset : set.WellFormed)
    (hd : req.writer.draft cur rb = .ok set)
    (hd' : req.writer.draft ⟨set.rules, cur.version + 1, set.defaultPolicy⟩ rb' = .ok set') :
    set' = set := by
  cases req with
  | add rule =>
    cases rule with
    | none => cases hd
    | some rule =>
      simp only [Request.writer, ruleStoreAdd] at hd hd'
      split_ifs at hd with hfull hthere
      cases hd
      split_ifs at hd' with hfull' hthere'
      -- The rule is there already.
      refine absurd ?_ hthere'
      rw [Option.isSome_iff_ne_none]
      intro hnone
      refine ruleIndex_eq_none.mp hnone rule ?_ rfl
      exact sortRules_perm.mem_iff.mpr (List.mem_append_right _ (List.mem_singleton_self _))
  | update rule =>
    cases rule with
    | none => cases hd
    | some rule =>
      simp only [Request.writer, ruleStoreUpdate] at hd hd'
      cases hi : ruleIndex cur.rules rule.ruleId with
      | none => simp [hi] at hd
      | some i =>
        obtain ⟨hlt, -⟩ := ruleIndex_eq_some hi
        simp only [hi] at hd
        cases hd
        have hmem : rule ∈ sortRules (cur.rules.set i rule) :=
          sortRules_perm.mem_iff.mpr (List.mem_set hlt rule)
        obtain ⟨j, hj, hrule⟩ := List.getElem_of_mem hmem
        have hindex := ruleIndex_getElem hset.ids hj
        rw [hrule] at hindex
        simp only [hindex] at hd'
        cases hd'
        have hself : (sortRules (cur.rules.set i rule)).set j rule =
            sortRules (cur.rules.set i rule) := by
          have hget := List.set_getElem_self hj
          rwa [hrule] at hget
        rw [hself, sortRules_of_pairwise hset.sorted]
  | delete ruleId =>
    simp only [Request.writer, ruleStoreDelete] at hd hd'
    cases hi : ruleIndex cur.rules ruleId with
    | none => simp [hi] at hd
    | some i =>
      obtain ⟨hlt, hid⟩ := ruleIndex_eq_some hi
      simp only [hi] at hd
      cases hd
      cases hj : ruleIndex (cur.rules.take i ++ cur.rules.drop (i + 1)) ruleId with
      | none => simp [hj] at hd'
      | some j =>
        obtain ⟨hlt', hid'⟩ := ruleIndex_eq_some hj
        have hids : (cur.rules.map Rule.ruleId).Nodup := hcur.ids
        have hnot := Keyed.notMem_remove hids hlt
        rw [hid, ← hid'] at hnot
        exact absurd (List.mem_map_of_mem (List.getElem_mem hlt')) hnot
  | setEnabled ruleId enabled =>
    simp only [Request.writer, ruleStoreSetEnabled] at hd hd'
    cases hi : ruleIndex cur.rules ruleId with
    | none => simp [hi] at hd
    | some i =>
      obtain ⟨hlt, hid⟩ := ruleIndex_eq_some hi
      simp only [hi] at hd
      cases hd
      have hlt' : i < (cur.rules.modify i
          fun r => { r with enabled := if enabled then 1 else 0 }).length := by
        rwa [List.length_modify]
      have hindex := ruleIndex_getElem hset.ids hlt'
      rw [List.getElem_modify_eq, hid] at hindex
      simp only [hindex] at hd'
      cases hd'
      rw [List.modify_modify_eq]
      rfl
  | replace rules expectedVersion =>
    simp only [Request.writer, ruleStoreReplace] at hd hd'
    split_ifs at hd
    cases hd
    split_ifs at hd'
    cases hd'
    rfl
  | clear =>
    cases hd
    cases hd'
    rfl
  | rollback => exact absurd rfl hne
  | setDefaultPolicy policy =>
    cases hd
    cases hd'
    rfl

/-- A writer fails and leaves everything, or has committed its draft. -/
theorem run_commits (s : Store) (req : Request) (env : Env) :
    ntSuccess (s.run req.writer env).1 = false ∧ (s.run req.writer env).2 = s ∨
    (s.run req.writer env).1 = statusSuccess ∧ ntSuccess req.writer.precheck = true ∧
      ∃ set, req.writer.draft s.current s.rollbackSlot = .ok set ∧
        (s.run req.writer env).2 = s.commit req.writer set := by
  rcases s.run_cases req.writer env with ⟨hp, he⟩ | ⟨hp, ⟨-, he⟩ | ⟨-, ⟨st, hd, he⟩ |
    ⟨set, hd, ⟨-, he⟩ | ⟨-, ⟨-, he⟩ | ⟨-, he⟩⟩⟩⟩⟩ <;> rw [he]
  · exact .inl ⟨hp, rfl⟩
  · exact .inl ⟨rfl, rfl⟩
  · exact .inl ⟨Store.draft_error hd, rfl⟩
  · exact .inl ⟨rfl, rfl⟩
  · exact .inl ⟨rfl, rfl⟩
  · exact .inr ⟨rfl, hp, set, hd, rfl⟩

/-- The same writer again leaves the rules and the policy as the first run has left them. -/
theorem run_twice (hs : s.WellFormed) (hne : req ≠ .rollback)
    (hok : ntSuccess (s.run req.writer env).1 = true) :
    ((s.run req.writer env).2.run req.writer env').2.current.ruleSet =
      (s.run req.writer env).2.current.ruleSet := by
  rcases run_commits s req env with ⟨hfail, -⟩ | ⟨-, hp, set, hd, he⟩
  · exact absurd (hfail.symm.trans hok) Bool.false_ne_true
  rw [he]
  rcases run_commits (s.commit req.writer set) req env' with ⟨-, he'⟩ | ⟨-, -, set', hd', he'⟩
  · rw [he']
  · have hset := draft_wellFormed hp hd hs.current fun r hr => hs.rollbackSlot r hr
    have hsame := draft_twice hne hs.current hset hd hd'
    rw [he', hsame]
    rfl

end Sentinel

namespace Sentinel.Control

open Bytes Codec

variable {c c' : Call} {d d' : Driver} {b b' : Buffers} {command : Command} {r : Ioctl}
  {a a' : Reply} {st : NtStatus}

/-! ### The request -/

/-- A handler has failed before it came to the store, or has run the writer of `req`. -/
def Runs (d : Driver) (req : Option Request) (x : Outcome NtStatus (NtStatus × Store)) : Prop :=
  (∃ st, ntSuccess st = false ∧ x = .ok (st, d.store)) ∨
    ∃ q, req = some q ∧ q ≠ .rollback ∧ x = .ok (d.store.run q.writer d.env)

theorem cmdAddOrUpdateRule_runs (payload : List UInt8) (isUpdate : Bool) :
    ∃ req, ∀ c d b, c.payload b = payload → Runs d req (cmdAddOrUpdateRule c d b isUpdate) := by
  have hof : 0 + (UInt32.ofNat payload.length).toNat ≤ payload.length := by
    rw [Nat.zero_add, UInt32.toNat_ofNat']
    exact Nat.mod_le _ _
  cases hv : validateWire payload 0 (UInt32.ofNat payload.length) with
  | fault => exact absurd hv (validateWire_ne_fault hof)
  | error st =>
    have hst := validateWire_error hof hv
    refine ⟨none, fun c d b hp => .inl ⟨st, by rw [hst]; rfl, ?_⟩⟩
    rw [cmdAddOrUpdateRule, hp, hv]
  | ok wireBytes =>
    by_cases hlen : wireBytes.toNat ≠ payload.length
    · refine ⟨none, fun c d b hp => .inl ⟨statusInvalidParameter, rfl, ?_⟩⟩
      rw [cmdAddOrUpdateRule, hp, hv]
      dsimp only
      rw [if_pos hlen]
    · obtain ⟨rule, hc⟩ := convertWire_ok hof hv
      have hrun : ∀ (c : Call) (d : Driver) (b : Buffers), c.payload b = payload →
          cmdAddOrUpdateRule c d b isUpdate = .ok (d.store.run
            (if isUpdate then ruleStoreUpdate (some rule) else ruleStoreAdd (some rule))
            d.env) := by
        intro c d b hp
        rw [cmdAddOrUpdateRule, hp, hv]
        dsimp only
        rw [if_neg hlen, hc, Outcome.ok_bind]
        rfl
      cases isUpdate with
      | false =>
        exact ⟨some (.add (some rule)), fun c d b hp => .inr ⟨_, rfl, by simp, hrun c d b hp⟩⟩
      | true =>
        exact ⟨some (.update (some rule)), fun c d b hp => .inr ⟨_, rfl, by simp, hrun c d b hp⟩⟩

theorem cmdDeleteRule_runs (payload : List UInt8) :
    ∃ req, ∀ c d b, c.payload b = payload → Runs d req (cmdDeleteRule c d b) := by
  by_cases hlen : payload.length ≠ u64.size
  · refine ⟨none, fun c d b hp => .inl ⟨statusInvalidParameter, rfl, ?_⟩⟩
    rw [cmdDeleteRule, hp, if_pos hlen]
  · obtain ⟨ruleId, hr⟩ : ∃ a, (u64.read payload 0 : Outcome NtStatus _) = .ok a :=
      read_of_le (by rw [not_not.mp hlen, Nat.zero_add])
    refine ⟨some (.delete ruleId), fun c d b hp => .inr ⟨_, rfl, by simp, ?_⟩⟩
    rw [cmdDeleteRule, hp, if_neg hlen, hr, Outcome.ok_bind]
    rfl

theorem cmdSetDefaultPolicy_runs (payload : List UInt8) :
    ∃ req, ∀ c d b, c.payload b = payload → Runs d req (cmdSetDefaultPolicy c d b) := by
  by_cases hlen : payload.length ≠ u32.size
  · refine ⟨none, fun c d b hp => .inl ⟨statusInvalidParameter, rfl, ?_⟩⟩
    rw [cmdSetDefaultPolicy, hp, if_pos hlen]
  · obtain ⟨policy, hr⟩ : ∃ a, (u32.read payload 0 : Outcome NtStatus _) = .ok a :=
      read_of_le (by rw [not_not.mp hlen, Nat.zero_add])
    by_cases hbad : policy ≠ verdictPermit ∧ policy ≠ verdictBlock
    · refine ⟨none, fun c d b hp => .inl ⟨statusInvalidParameter, rfl, ?_⟩⟩
      rw [cmdSetDefaultPolicy, hp, if_neg hlen, hr, Outcome.ok_bind, if_pos hbad]
      rfl
    · refine ⟨some (.setDefaultPolicy policy), fun c d b hp => .inr ⟨_, rfl, by simp, ?_⟩⟩
      rw [cmdSetDefaultPolicy, hp, if_neg hlen, hr, Outcome.ok_bind, if_neg hbad]
      rfl

theorem cmdReplaceRuleset_runs (payload : List UInt8) :
    ∃ req, ∀ d, Runs d req (cmdReplaceRuleset payload d.alloc d.env d.store) := by
  simp only [cmdReplaceRuleset]
  have hfail : ∀ {d : Driver} {st req}, parseReplace payload d.alloc = .error st →
      Runs d req (cmdReplaceRuleset payload d.alloc d.env d.store) := by
    intro d st req hp
    exact .inl ⟨st, parseReplace_error hp, by rw [cmdReplaceRuleset, hp]⟩
  simp only [cmdReplaceRuleset] at hfail
  cases ht : parseReplace payload true with
  | fault => exact absurd ht (parseReplace_ne_fault _ _)
  | error st =>
    refine ⟨none, fun d => ?_⟩
    cases hp : parseReplace payload d.alloc with
    | fault => exact absurd hp (parseReplace_ne_fault _ _)
    | error st => simpa only [hp] using hfail hp
    | ok args =>
      have hok := ht.symm.trans (parseReplace_alloc hp)
      cases hok
  | ok args =>
    refine ⟨some (.replace args.1 args.2), fun d => ?_⟩
    cases hp : parseReplace payload d.alloc with
    | fault => exact absurd hp (parseReplace_ne_fault _ _)
    | error st => simpa only [hp] using hfail hp
    | ok args' =>
      obtain rfl := Outcome.ok.inj (ht.symm.trans (parseReplace_alloc hp))
      exact .inr ⟨_, rfl, by simp, rfl⟩

/-- A modify command fails before it comes to the store, or runs the writer that the payload
stands for. -/
theorem handle_runs (payload : List UInt8) (hm : command.isModify = true) :
    ∃ req, ∀ c d b, c.payload b = payload →
      ∃ x, handle c d b command = noPayload d b x ∧ Runs d req x := by
  have hintro : ∀ {x : Call → Driver → Buffers → Outcome NtStatus (NtStatus × Store)},
      (∃ req, ∀ c d b, c.payload b = payload → Runs d req (x c d b)) →
      (∀ c d b, handle c d b command = noPayload d b (x c d b)) →
      ∃ req, ∀ c d b, c.payload b = payload →
        ∃ x, handle c d b command = noPayload d b x ∧ Runs d req x :=
    fun ⟨req, h⟩ he => ⟨req, fun c d b hp => ⟨_, he c d b, h c d b hp⟩⟩
  cases command with
  | addRule => exact hintro (cmdAddOrUpdateRule_runs payload false) fun _ _ _ => rfl
  | updateRule => exact hintro (cmdAddOrUpdateRule_runs payload true) fun _ _ _ => rfl
  | deleteRule => exact hintro (cmdDeleteRule_runs payload) fun _ _ _ => rfl
  | replaceRuleset =>
    obtain ⟨req, h⟩ := cmdReplaceRuleset_runs payload
    exact hintro ⟨req, fun c d b hp => hp ▸ h d⟩ fun _ _ _ => rfl
  | clearRules =>
    exact hintro ⟨some .clear, fun c d b hp => .inr ⟨_, rfl, by simp, rfl⟩⟩ fun _ _ _ => rfl
  | setDefaultPolicy => exact hintro (cmdSetDefaultPolicy_runs payload) fun _ _ _ => rfl
  | queryCapabilities | getRuleVersion | enumRules | getStats | flushEvents => cases hm

theorem echoIfRoom_keeps (h : echoIfRoom c a = .ok a') :
    a'.status = a.status ∧ a'.store = a.store := by
  rw [echoIfRoom] at h
  split at h
  · obtain ⟨b, -, h⟩ := Outcome.bind_eq_ok.mp h
    cases h
    exact ⟨rfl, rfl⟩
  · cases h
    exact ⟨rfl, rfl⟩

/-- The command is the one that the header of the input names. -/
theorem check_code (h : r.Loaded b) (hc : check r d b = .ok command) :
    ∃ code, (u16.read r.input hdrCommandOffset : Outcome NtStatus _) = .ok code ∧
      Command.ofCode code = some command := by
  rw [check_loaded h.input, check] at hc
  split at hc
  · cases hc
  split at hc
  · cases hc
  split at hc
  · cases hc
  split at hc
  · cases hc
  obtain ⟨command', hh, hc⟩ := Outcome.bind_eq_ok.mp hc
  split_ifs at hc
  cases hc
  rw [checkHeader] at hh
  obtain ⟨size, -, hh⟩ := Outcome.bind_eq_ok.mp hh
  split_ifs at hh
  obtain ⟨version, -, hh⟩ := Outcome.bind_eq_ok.mp hh
  split_ifs at hh
  obtain ⟨flags, -, hh⟩ := Outcome.bind_eq_ok.mp hh
  split_ifs at hh
  obtain ⟨code, hcode, hh⟩ := Outcome.bind_eq_ok.mp hh
  refine ⟨code, hcode, ?_⟩
  cases ho : Command.ofCode code with
  | none =>
    rw [ho] at hh
    cases hh
  | some command' =>
    rw [ho] at hh
    dsimp only at hh
    split_ifs at hh
    cases hh
    rfl

/-- A check that is not passed is a failure. -/
theorem checkHeader_error (h : checkHeader r b = .error st) : ntSuccess st = false := by
  rw [checkHeader] at h
  obtain h | ⟨size, -, h⟩ := Outcome.bind_eq_error.mp h
  · exact absurd h read_ne_error
  split at h
  · cases h
    rfl
  obtain h | ⟨version, -, h⟩ := Outcome.bind_eq_error.mp h
  · exact absurd h read_ne_error
  split at h
  · cases h
    rfl
  obtain h | ⟨flags, -, h⟩ := Outcome.bind_eq_error.mp h
  · exact absurd h read_ne_error
  split at h
  · cases h
    rfl
  obtain h | ⟨code, -, h⟩ := Outcome.bind_eq_error.mp h
  · exact absurd h read_ne_error
  cases ho : Command.ofCode code with
  | none =>
    rw [ho] at h
    cases h
    rfl
  | some command =>
    rw [ho] at h
    dsimp only at h
    split at h <;> cases h
    rfl

theorem check_error (h : check r d b = .error st) : ntSuccess st = false := by
  rw [check] at h
  split at h
  · cases h
    rfl
  split at h
  · cases h
    rfl
  split at h
  · rename_i hin
    cases h
    exact hin
  split at h
  · cases h
    rfl
  obtain h | ⟨command, -, h⟩ := Outcome.bind_eq_error.mp h
  · exact checkHeader_error h
  split at h
  · cases h
    rfl
  split at h
  · rename_i hout
    cases h
    exact hout.2
  split at h
  · cases h
    rfl
  · cases h

/-- What a dispatch does to the store: it fails and leaves it alone, only reads it, or runs the
writer of `req`. -/
inductive Replied (d : Driver) (req : Option Request) (a : Reply) : Prop where
  | failed (hst : ntSuccess a.status = false) (hs : a.store = d.store)
  | read (hreq : req = none) (hs : a.store = d.store)
  | ran {q : Request} (hreq : req = some q) (hne : q ≠ .rollback)
      (hst : a.status = (d.store.run q.writer d.env).1)
      (hs : a.store = (d.store.run q.writer d.env).2)

/-- The bytes of the input alone say which writer. -/
theorem evtDeviceControl_replied (input : List UInt8) : ∃ req, ∀ r d b, r.input = input →
    r.Loaded b → ∃ a, evtDeviceControl r d b = .ok a ∧ Replied d req a := by
  by_cases hmod : ∃ code command, (u16.read input hdrCommandOffset : Outcome NtStatus _) =
      .ok code ∧ Command.ofCode code = some command ∧ command.isModify = true
  · obtain ⟨code, command, hcode, hof, hm⟩ := hmod
    obtain ⟨req, hreq⟩ := handle_runs (input.drop ioctlHeaderSize) hm
    refine ⟨req, fun r d b hr h => ?_⟩
    obtain ⟨a', ha', -⟩ := @evtDeviceControl_served d b r h
    refine ⟨a', ha', ?_⟩
    rw [evtDeviceControl] at ha'
    cases hc : check r d b with
    | fault =>
      rw [hc] at ha'
      cases ha'
    | error st =>
      rw [hc] at ha'
      cases ha'
      exact .failed (check_error hc) rfl
    | ok command' =>
      obtain ⟨code', hcode', hof'⟩ := check_code h hc
      rw [hr, hcode] at hcode'
      cases hcode'
      obtain rfl := Option.some.inj (hof.symm.trans hof')
      have hpay : r.call.payload b = input.drop ioctlHeaderSize :=
        hr ▸ call_payload hc h.input
      obtain ⟨x, hx, hruns⟩ := hreq r.call d b hpay
      rw [hc] at ha'
      dsimp only at ha'
      rw [hx] at ha'
      obtain ⟨a, ha, hrest⟩ := Outcome.bind_eq_ok.mp ha'
      obtain ⟨a₁, hecho, hcomplete⟩ := Outcome.bind_eq_ok.mp hrest
      obtain rfl := Outcome.ok.inj hcomplete
      obtain ⟨hst, hs⟩ := echoIfRoom_keeps hecho
      obtain ⟨st, hfail, rfl⟩ | ⟨q, rfl, hne, rfl⟩ := hruns <;> cases ha
      · exact .failed (hst ▸ hfail) hs
      · exact .ran rfl hne hst hs
  · refine ⟨none, fun r d b hr h => ?_⟩
    obtain ⟨a, ha, -⟩ := @evtDeviceControl_served d b r h
    refine ⟨a, ha, .read rfl ?_⟩
    rw [evtDeviceControl] at ha
    cases hc : check r d b with
    | fault =>
      rw [hc] at ha
      cases ha
    | error st =>
      rw [hc] at ha
      cases ha
      rfl
    | ok command =>
      obtain ⟨code, hcode, hof⟩ := check_code h hc
      have hread : command.isModify = false := by
        rw [← Bool.not_eq_true]
        exact fun hm => hmod ⟨code, command, hr ▸ hcode, hof, hm⟩
      obtain ⟨a₁, ha₁, hserved⟩ := @handle_served _ d b (h.backed (check_length hc)) command
      rw [hc] at ha
      dsimp only at ha
      rw [ha₁, Outcome.ok_bind] at ha
      obtain ⟨a₂, hecho, hcomplete⟩ := Outcome.bind_eq_ok.mp ha
      obtain rfl := Outcome.ok.inj hcomplete
      exact (echoIfRoom_keeps hecho).2.trans (hserved.kept hread)

/-- The same request again leaves the rules and the default policy as the first dispatch has left
them if that succeeded, and a dispatch that fails leaves the store as it was. -/
theorem retry_safe (r r' : Ioctl) (d : Driver) (b b' : Buffers) (hr : r'.input = r.input)
    (h : r.Loaded b) (h' : r'.Loaded b') (hs : Store.system.Reachable d.store) :
    ∃ a, evtDeviceControl r d b = .ok a ∧ (ntSuccess a.status = false → a.store = d.store) ∧
      (ntSuccess a.status = true → ∀ d', d'.store = a.store →
        ∃ a', evtDeviceControl r' d' b' = .ok a' ∧
          a'.store.current.ruleSet = a.store.current.ruleSet) := by
  obtain ⟨req, hreq⟩ := evtDeviceControl_replied r.input
  obtain ⟨a, ha, hfirst⟩ := hreq r d b rfl h
  refine ⟨a, ha, fun hfail => ?_, fun hok d' hd => ?_⟩
  · cases hfirst with
    | failed hst hs => exact hs
    | read hnone hs => exact hs
    | @ran q hq hne hst hs =>
      rw [hst] at hfail
      rcases run_commits d.store q d.env with ⟨-, he⟩ | ⟨hsuccess, -⟩
      · exact hs.trans he
      · rw [hsuccess] at hfail
        cases hfail
  · obtain ⟨a', ha', hsecond⟩ := hreq r' d' b' hr h'
    refine ⟨a', ha', ?_⟩
    cases hsecond with
    | failed hst hs => rw [hs, hd]
    | read hnone hs => rw [hs, hd]
    | @ran q hq hne hst' hs' =>
      cases hfirst with
      | failed hst hs => exact absurd (hst.symm.trans hok) Bool.false_ne_true
      | read hnone hs =>
        rw [hq] at hnone
        cases hnone
      | @ran p hp hne hst hs₁ =>
        obtain rfl := Option.some.inj (hp.symm.trans hq)
        rw [hst] at hok
        rw [hs', hd, hs₁]
        exact run_twice (Store.wellFormed_reachable hs) hne hok

/-- The second ADD_RULE finds the id taken. -/
theorem retry_safe_addRequest : ∃ a a',
    evtDeviceControl addRequest emptyDriver ⟨addRequest.input, none⟩ = .ok a ∧
      a.status = statusSuccess ∧ a.store.current.rules = [portRule] ∧
      evtDeviceControl addRequest { emptyDriver with store := a.store } ⟨addRequest.input, none⟩ =
        .ok a' ∧ a'.store.current.ruleSet = a.store.current.ruleSet := by
  obtain ⟨a, ha, -, hagain⟩ := retry_safe addRequest addRequest emptyDriver _ _ rfl
    addRequest_loaded addRequest_loaded (.of_init ⟨rateTableEmpty, rfl⟩)
  obtain ⟨a₁, ha₁, hok, hrules⟩ := addRequest_adds
  obtain rfl := Outcome.ok.inj (ha₁.symm.trans ha)
  obtain ⟨a', ha', hset⟩ := hagain (by rw [hok]; rfl) { emptyDriver with store := a₁.store } rfl
  exact ⟨a₁, a', ha, hok, hrules, ha', hset⟩

end Sentinel.Control
