import Sentinel.Packet.FlowContext

/-! Whether a context can stay on the table after its flow has ended. -/
namespace Sentinel.FlowContext

open Transition RefCount

variable {s t : State} {act : Action} {q : Call} {rest : Multiset Call} {c : CtxId} {d : Ctx}
  {st : NtStatus} {o : Option CtxId}

/-- What is assumed of WFP: `flowDeleteFn` comes once, and only for an association, and a context
is only removed from a flow that has one. -/
def Wfp (s : State) : Action → Prop
  | .deleteNotify (some c) => c ∈ s.associated ∧ c ∉ s.delivered
  | .run (.removing _ _ c) st => st = statusSuccess →
      ∃ c' ∈ s.associated, c' ∉ s.delivered ∧ (s.ctx c').association = (s.ctx c).association
  | .deleteNotify none | .run (.attach _) _ | .run (.associate _) _ | .run (.undo _) _
  | .run (.removeAll _) _ | .run (.sweep _ _) _ | .run (.relink _ _ _) _ | .callAttach _ _
  | .callRemoveAll _ | .release _ => True

/-- No flow ends while a `SkFlowRemoveAll` has its context, and no failing `SkFlowAttach` looks for
its context while a `SkFlowRemoveAll` has taken it from its local list. -/
def Catches (s : State) : Action → Prop
  | .deleteNotify (some c) => ∀ q ∈ s.calls, c ∉ q.held
  | .run (.undo c) _ => ∀ q ∈ s.calls, c ∉ q.popped
  | .deleteNotify none | .run (.attach _) _ | .run (.associate _) _ | .run (.removeAll _) _
  | .run (.sweep _ _) _ | .run (.removing _ _ _) _ | .run (.relink _ _ _) _ | .callAttach _ _
  | .callRemoveAll _ | .release _ => True

/-! ### References of the table -/

theorem mem_tableRefs : c ∈ s.tableRefs ↔ c ∈ s.table ∨ ∃ q ∈ s.calls, c ∈ q.held := by
  rw [State.tableRefs, Multiset.mem_add, mem_gather]
  rfl

theorem mem_callerRefs_of_owned (hq : q ∈ s.calls) (hc : c ∈ q.owned) : c ∈ s.callerRefs :=
  Multiset.mem_add.mpr (.inr (mem_gather.mpr ⟨q, hq, hc⟩))

theorem Counted.lt_of_owned (h : Counted s) (hq : q ∈ s.calls) (hc : c ∈ q.owned) :
    c < s.next :=
  h.owed.known_of_mem (Multiset.mem_add.mpr (.inl (mem_callerRefs_of_owned hq hc)))

/-- A reference that has been returned is gone. -/
theorem Counted.notMem_of_returned (h : Counted s) (hc : c ∈ s.returned) : c ∉ s.tableRefs := by
  intro hm
  have hone := h.once c
  have hpos := Multiset.count_pos.mpr hm
  have hpos' := List.count_pos_iff.mpr hc
  split at hone <;> omega

theorem Counted.mem_of_not_returned (h : Counted s) (hlt : c < s.next) (hc : c ∉ s.returned) :
    c ∈ s.tableRefs := by
  have hone := h.once c
  rw [if_pos hlt, List.count_eq_zero_of_not_mem hc] at hone
  exact Multiset.count_pos.mp (by omega)

theorem inited_run : (s.run rest st q).inited = s.inited := by
  cases q with
  | attach | associate | undo | removeAll | removing | relink =>
    simp only [State.run, State.insert, State.undo]
    repeat' split
    all_goals rfl
  | sweep calloutId stale => cases stale <;> rfl

theorem inited_step (h : Step s act t) : t.inited = s.inited := by
  cases h with
  | callAttach =>
    rw [State.callAttach]
    split <;> rfl
  | callRemoveAll =>
    rw [State.callRemoveAll]
    split <;> rfl
  | run => exact inited_run
  | release => rfl
  | deleteNotify =>
    rename_i o
    cases o with
    | none => rfl
    | some c =>
      rw [State.deleteNotify]
      repeat' split
      all_goals rfl

theorem returned_run (hc : c ∈ s.returned) : c ∈ (s.run rest st q).returned := by
  cases q with
  | attach d =>
    rw [State.run, State.insert]
    split <;> exact hc
  | associate | removeAll | relink =>
    rw [State.run]
    repeat' split
    all_goals exact hc
  | undo c' =>
    rw [State.run, State.undo]
    split
    · exact List.mem_cons_of_mem c' hc
    · exact hc
  | sweep calloutId stale => cases stale <;> exact hc
  | removing calloutId stale c' =>
    rw [State.run]
    split
    · exact List.mem_cons_of_mem c' hc
    · exact hc

theorem returned_step (h : Step s act t) (hc : c ∈ s.returned) : c ∈ t.returned := by
  cases h with
  | callAttach =>
    rw [State.callAttach]
    split <;> exact hc
  | callRemoveAll =>
    rw [State.callRemoveAll]
    split <;> exact hc
  | run st rest hq => exact returned_run hc
  | release => exact hc
  | deleteNotify =>
    rename_i o
    cases o with
    | none => exact hc
    | some c' =>
      rw [State.deleteNotify]
      split
      · exact hc
      split
      · exact List.mem_cons_of_mem c' hc
      · exact hc

/-- No step gives an old context a reference of the table. -/
theorem tableRefs_step (h : Step s act t) (hs : Counted s) (hlt : c < s.next)
    (hc : c ∈ t.tableRefs) : c ∈ s.tableRefs := by
  have ht := counted_step h hs
  refine hs.mem_of_not_returned hlt fun hm => ?_
  exact ht.notMem_of_returned (returned_step h hm) hc

/-! ### Live contexts -/

/-- What WFP has done with `c` is known to the driver, or a running `SkFlowAttach` is about to
see it. -/
structure Live (s : State) (c : CtxId) : Prop where
  delivered : c ∉ s.delivered
  failed : c ∈ s.failed → .undo c ∈ s.calls
  associated : c ∈ s.associated ∨ c ∈ s.failed ∨ .associate c ∈ s.calls

structure Alive (s : State) : Prop where
  known : ∀ c, c ∈ s.associated ∨ c ∈ s.failed ∨ c ∈ s.delivered → c < s.next
  live : ∀ c ∈ s.tableRefs, Live s c

theorem alive_init : Alive State.init where
  known c h := by
    rcases h with h | h | h <;> exact absurd h List.not_mem_nil
  live c h := absurd h (Multiset.notMem_zero c)

/-- A step of nothing WFP has to do with keeps a context live, unless the failing
`SkFlowAttach` of that context is what is run. -/
theorem Live.of_calls (h : Live s c) (hdelivered : t.delivered = s.delivered)
    (hfailed : t.failed = s.failed) (hassociated : t.associated = s.associated)
    (hundo : .undo c ∈ s.calls → .undo c ∈ t.calls)
    (hassociate : .associate c ∈ s.calls → .associate c ∈ t.calls) : Live t c := by
  refine ⟨?_, ?_, ?_⟩
  · rw [hdelivered]
    exact h.delivered
  · rw [hfailed]
    exact fun hf => hundo (h.failed hf)
  · rw [hassociated, hfailed]
    exact h.associated.imp_right (Or.imp_right hassociate)

/-- The calls other than `q` go on. -/
theorem mem_rest {q' : Call} (hc : s.calls = q ::ₘ rest) (hq' : q' ∈ s.calls) (hne : q' ≠ q) :
    q' ∈ rest := by
  rw [hc] at hq'
  exact (Multiset.mem_cons.mp hq').resolve_left hne

/-- A step that leaves what WFP has done alone. -/
theorem Alive.of_step (h : Alive s) (hst : Step s act t) (hs : Counted s)
    (hnext : t.next = s.next) (hdelivered : t.delivered = s.delivered)
    (hfailed : t.failed = s.failed) (hassociated : t.associated = s.associated)
    (hcalls : ∀ c ∈ t.tableRefs, ∀ q ∈ s.calls, q = .undo c ∨ q = .associate c → q ∈ t.calls) :
    Alive t := by
  have ht := counted_step hst hs
  refine ⟨?_, fun c hc => ?_⟩
  · rw [hnext, hdelivered, hfailed, hassociated]
    exact h.known
  · have hin := tableRefs_step hst hs (hnext ▸ ht.lt_of_mem hc) hc
    exact (h.live c hin).of_calls hdelivered hfailed hassociated
      (fun hm => hcalls c hc _ hm (.inl rfl)) (fun hm => hcalls c hc _ hm (.inr rfl))

theorem alive_insert (h : Alive s) (hs : Counted s) (hc : s.calls = .attach d ::ₘ rest) :
    Alive (s.insert rest d) := by
  have hst : Step s (.run (.attach d) statusSuccess) (s.insert rest d) :=
    .run statusSuccess rest hc
  have hrest : ∀ c, ∀ q ∈ s.calls, q = .undo c ∨ q = .associate c → q ∈ rest := by
    rintro c q hq (rfl | rfl) <;> exact mem_rest hc hq nofun
  cases hf : s.find d.flowId with
  | some old =>
    have he : s.insert rest d = { s with
        count := s.count.addRef old
        callers := old ::ₘ s.callers
        calls := rest } := by simp [State.insert, hf]
    refine h.of_step hst hs ?_ ?_ ?_ ?_ ?_ <;> rw [he]
    exact fun c _ => hrest c
  | none =>
    have ht := counted_step hst hs
    have he : s.insert rest d = { s.goOn rest (.associate s.next) with
        ctx := Function.update s.ctx s.next d
        next := s.next + 1
        count := s.count.create s.next 2
        table := s.table ++ [s.next]
        entries := s.entries + 1 } := by simp [State.insert, hf]
    refine ⟨fun c hk => ?_, fun c hc' => ?_⟩
    · rw [he] at hk ⊢
      exact Nat.lt_succ_of_lt (h.known c hk)
    have hlt : c < s.next + 1 := by
      have hlt := ht.lt_of_mem hc'
      rwa [he] at hlt
    rcases Nat.lt_succ_iff_lt_or_eq.mp hlt with hlt | rfl
    · have hin := tableRefs_step hst hs hlt hc'
      have hl := h.live c hin
      rw [he]
      exact hl.of_calls rfl rfl rfl
        (fun hm => Multiset.mem_cons_of_mem (hrest c _ hm (.inl rfl)))
        (fun hm => Multiset.mem_cons_of_mem (hrest c _ hm (.inr rfl)))
    · rw [he]
      refine ⟨fun hm => ?_, fun hm => ?_, .inr (.inr (Multiset.mem_cons_self _ rest))⟩
      · exact lt_irrefl _ (h.known _ (.inr (.inr hm)))
      · exact absurd (h.known _ (.inr (.inl hm))) (lt_irrefl _)

theorem alive_associate (h : Alive s) (hs : Counted s) (hc : s.calls = .associate c ::ₘ rest) :
    Alive (s.run rest st (.associate c)) := by
  have hst : Step s (.run (.associate c) st) (s.run rest st (.associate c)) := .run st rest hc
  have hlt : c < s.next := hs.lt_of_owned (hc ▸ Multiset.mem_cons_self _ rest) List.mem_cons_self
  have hnext : (s.run rest st (.associate c)).next = s.next := by
    rw [State.run]
    split <;> rfl
  have hlive : ∀ c' ∈ (s.run rest st (.associate c)).tableRefs, Live s c' := by
    intro c' hc'
    have ht := counted_step hst hs
    exact h.live c' (tableRefs_step hst hs (hnext ▸ ht.lt_of_mem hc') hc')
  have hundo : ∀ {c'}, .undo c' ∈ s.calls → .undo c' ∈ rest := fun hm => mem_rest hc hm (by simp)
  have hassociate : ∀ {c'}, c' ≠ c → .associate c' ∈ s.calls → .associate c' ∈ rest := by
    intro c' hne hm
    exact mem_rest hc hm fun he => hne (Call.associate.inj he)
  rw [State.run] at hlive ⊢
  split
  · rename_i hok
    rw [if_pos hok] at hlive
    refine ⟨fun c' hk => ?_, fun c' hc' => ?_⟩
    · rcases hk with hk | hk
      · rcases List.mem_cons.mp hk with rfl | hk
        · exact hlt
        · exact h.known c' (.inl hk)
      · exact h.known c' (.inr hk)
    · have hl := hlive c' hc'
      refine ⟨hl.delivered, fun hf => hundo (hl.failed hf), ?_⟩
      by_cases he : c' = c
      · exact .inl (he ▸ List.mem_cons_self)
      · rcases hl.associated with hk | hk | hk
        · exact .inl (List.mem_cons_of_mem c hk)
        · exact .inr (.inl hk)
        · exact .inr (.inr (hassociate he hk))
  · rename_i hno
    rw [if_neg hno] at hlive
    refine ⟨fun c' hk => ?_, fun c' hc' => ?_⟩
    · rcases hk with hk | hk | hk
      · exact h.known c' (.inl hk)
      · rcases List.mem_cons.mp hk with rfl | hk
        · exact hlt
        · exact h.known c' (.inr (.inl hk))
      · exact h.known c' (.inr (.inr hk))
    · have hl := hlive c' hc'
      refine ⟨hl.delivered, fun hf => ?_, ?_⟩
      · rcases List.mem_cons.mp hf with rfl | hf
        · exact Multiset.mem_cons_self _ rest
        · exact Multiset.mem_cons_of_mem (hundo (hl.failed hf))
      · by_cases he : c' = c
        · exact .inr (.inl (he ▸ List.mem_cons_self))
        · rcases hl.associated with hk | hk | hk
          · exact .inl hk
          · exact .inr (.inl (List.mem_cons_of_mem c hk))
          · exact .inr (.inr (Multiset.mem_cons_of_mem (hassociate he hk)))

/-- The failing `SkFlowAttach` leaves its context without a reference of the table. -/
theorem notMem_undo (hs : Counted s) (hc : s.calls = .undo c ::ₘ rest)
    (hg : Catches s (.run (.undo c) st)) : c ∉ (s.undo rest c).tableRefs := by
  have hst : Step s (.run (.undo c) statusSuccess) (s.undo rest c) := .run statusSuccess rest hc
  have ht := counted_step hst hs
  have hlt : c < s.next := hs.lt_of_owned (hc ▸ Multiset.mem_cons_self _ rest) List.mem_cons_self
  by_cases hl : s.Linked rest c
  · refine ht.notMem_of_returned ?_
    rw [State.undo, if_pos hl]
    exact List.mem_cons_self
  · intro hm
    rcases mem_tableRefs.mp (tableRefs_step hst hs hlt hm) with hm | ⟨q, hq, hm⟩
    · exact hl (.inl hm)
    · rcases List.mem_append.mp hm with hp | hm
      · exact hg q hq hp
      · refine hl (.inr (mem_gather.mpr ⟨q, mem_rest hc hq fun he => ?_, hm⟩))
        rw [he] at hm
        cases hm

theorem alive_undo (h : Alive s) (hs : Counted s) (hc : s.calls = .undo c ::ₘ rest)
    (hg : Catches s (.run (.undo c) st)) : Alive (s.undo rest c) := by
  have hst : Step s (.run (.undo c) statusSuccess) (s.undo rest c) := .run statusSuccess rest hc
  have hout := notMem_undo hs hc hg
  have hrest : ∀ c' ∈ (s.undo rest c).tableRefs, ∀ q ∈ s.calls, q = .undo c' ∨ q = .associate c' →
      q ∈ rest := by
    rintro c' hc' q hq (rfl | rfl)
    · refine mem_rest hc hq fun he => hout ?_
      exact Call.undo.inj he ▸ hc'
    · exact mem_rest hc hq nofun
  rw [State.undo] at hst hrest ⊢
  split
  · rename_i hl
    rw [if_pos hl] at hst hrest
    refine h.of_step hst hs rfl rfl rfl rfl fun c' hc' q hq he => ?_
    refine Multiset.mem_map.mpr ⟨q, hrest c' hc' q hq he, ?_⟩
    rcases he with rfl | rfl <;> rfl
  · rename_i hl
    rw [if_neg hl] at hst hrest
    exact h.of_step hst hs rfl rfl rfl rfl hrest

theorem alive_run (h : Alive s) (hs : Counted s) (hc : s.calls = q ::ₘ rest)
    (hg : Catches s (.run q st)) : Alive (s.run rest st q) := by
  have hst : Step s (.run q st) (s.run rest st q) := .run st rest hc
  have hrest : (∀ c, q ≠ .undo c) → (∀ c, q ≠ .associate c) → ∀ c, ∀ q' ∈ s.calls,
      q' = .undo c ∨ q' = .associate c → q' ∈ rest := by
    rintro hundo hassociate c q' hq' (rfl | rfl)
    · exact mem_rest hc hq' (hundo c).symm
    · exact mem_rest hc hq' (hassociate c).symm
  have hgo : (∀ c, q ≠ .undo c) → (∀ c, q ≠ .associate c) → ∀ q₀, ∀ c, ∀ q' ∈ s.calls,
      q' = .undo c ∨ q' = .associate c → q' ∈ q₀ ::ₘ rest :=
    fun hundo hassociate q₀ c q' hq' he =>
      Multiset.mem_cons_of_mem (hrest hundo hassociate c q' hq' he)
  cases q with
  | attach d => exact alive_insert h hs hc
  | associate c => exact alive_associate h hs hc
  | undo c => exact alive_undo h hs hc hg
  | removeAll calloutId =>
    exact h.of_step hst hs rfl rfl rfl rfl fun c _ => hgo (by simp) (by simp) _ c
  | sweep calloutId stale =>
    cases stale with
    | nil => exact h.of_step hst hs rfl rfl rfl rfl fun c _ => hrest (by simp) (by simp) c
    | cons c' stale => exact h.of_step hst hs rfl rfl rfl rfl fun c _ => hgo (by simp) (by simp) _ c
  | removing calloutId stale c' =>
    rw [State.run] at hst ⊢
    split
    · rename_i hok
      rw [if_pos hok] at hst
      exact h.of_step hst hs rfl rfl rfl rfl fun c _ => hgo (by simp) (by simp) _ c
    · rename_i hno
      rw [if_neg hno] at hst
      exact h.of_step hst hs rfl rfl rfl rfl fun c _ => hgo (by simp) (by simp) _ c
  | relink calloutId stale c' =>
    exact h.of_step hst hs rfl rfl rfl rfl fun c _ => hgo (by simp) (by simp) _ c

/-- The callback unlinks its context, which nobody else has. -/
theorem alive_deleteNotify (h : Alive s) (hs : Counted s) (hi : s.inited = true)
    (hw : Wfp s (.deleteNotify o)) (hg : Catches s (.deleteNotify o)) :
    Alive (s.deleteNotify o) := by
  cases o with
  | none => exact h
  | some c =>
    have hst : Step s (.deleteNotify (some c)) (s.deleteNotify (some c)) := .deleteNotify
    have ht := counted_step hst hs
    have hlt : c < s.next := h.known c (.inl hw.1)
    have hlive : ∀ c' < s.next, c' ∈ (s.deleteNotify (some c)).tableRefs → Live s c' :=
      fun c' hlt hc' => h.live c' (tableRefs_step hst hs hlt hc')
    have hknown : ∀ c', c' ∈ s.associated ∨ c' ∈ s.failed ∨ c' ∈ c :: s.delivered →
        c' < s.next := by
      rintro c' (hk | hk | hk)
      · exact h.known c' (.inl hk)
      · exact h.known c' (.inr (.inl hk))
      · rcases List.mem_cons.mp hk with rfl | hk
        · exact hlt
        · exact h.known c' (.inr (.inr hk))
    have hout : c ∉ (s.deleteNotify (some c)).tableRefs := by
      intro hm
      rcases mem_tableRefs.mp (tableRefs_step hst hs hlt hm) with hin | ⟨q, hq, hm⟩
      · refine ht.notMem_of_returned ?_ hm
        rw [State.deleteNotify, if_neg (by simp [hi]), if_pos hin]
        exact List.mem_cons_self
      · exact hg q hq hm
    have hcons : ∀ c' ∈ (s.deleteNotify (some c)).tableRefs, Live s c' →
        c' ∉ c :: s.delivered := by
      intro c' hc' hl hm
      rcases List.mem_cons.mp hm with rfl | hm
      · exact hout hc'
      · exact hl.delivered hm
    rw [State.deleteNotify, if_neg (by simp [hi])] at ht hlive hcons ⊢
    split
    · rename_i hin
      rw [if_pos hin] at ht hlive hcons
      refine ⟨hknown, fun c' hc' => ?_⟩
      have hl := hlive c' (ht.lt_of_mem hc') hc'
      exact ⟨hcons c' hc' hl, hl.failed, hl.associated⟩
    · rename_i hin
      rw [if_neg hin] at ht hlive hcons
      refine ⟨hknown, fun c' hc' => ?_⟩
      have hl := hlive c' (ht.lt_of_mem hc') hc'
      exact ⟨hcons c' hc' hl, hl.failed, hl.associated⟩

theorem alive_step (h : Step s act t) (hs : Counted s) (hi : s.inited = true) (hw : Wfp s act)
    (hg : Catches s act) (ha : Alive s) : Alive t := by
  have hst := h
  cases h with
  | callAttach =>
    rw [State.callAttach] at hst ⊢
    split
    · exact ha
    · rename_i hgo
      rw [if_neg hgo] at hst
      exact ha.of_step hst hs rfl rfl rfl rfl fun c _ q hq _ => Multiset.mem_cons_of_mem hq
  | callRemoveAll =>
    rw [State.callRemoveAll, if_pos hi] at hst ⊢
    exact ha.of_step hst hs rfl rfl rfl rfl fun c _ q hq _ => Multiset.mem_cons_of_mem hq
  | run st rest hc => exact alive_run ha hs hc hg
  | release => exact ha.of_step hst hs rfl rfl rfl rfl fun c _ q hq _ => hq
  | deleteNotify => exact alive_deleteNotify ha hs hi hw hg

/-- If no callback and no failing attach misses a context that a `SkFlowRemoveAll` has, every
context on the table has a live association when no call is in progress, and the reference of the
table has been returned once for each ended or failed one. -/
theorem no_orphan (h : (system.restrict fun s act => Wfp s act ∧ Catches s act).Reachable s)
    (hq : s.calls = 0) :
    (∀ c ∈ s.table, c ∈ s.associated ∧ c ∉ s.failed ∧ c ∉ s.delivered) ∧
    ∀ c, c ∈ s.failed ∨ c ∈ s.delivered → s.returned.count c = 1 := by
  have hinit : ∀ {s}, (system.restrict fun s act => Wfp s act ∧ Catches s act).init s →
      Counted s ∧ s.inited = true ∧ Alive s := by
    rintro s rfl
    exact ⟨counted_init, rfl, alive_init⟩
  have hstep : ∀ {s act t}, (Wfp s act ∧ Catches s act) ∧ Step s act t →
      Counted s ∧ s.inited = true ∧ Alive s → Counted t ∧ t.inited = true ∧ Alive t := by
    rintro s act t ⟨⟨hw, hg⟩, hst⟩ ⟨hs, hi, ha⟩
    exact ⟨counted_step hst hs, (inited_step hst).trans hi, alive_step hst hs hi hw hg ha⟩
  obtain ⟨hs, -, ha⟩ := h.invariant
    (I := fun s => Counted s ∧ s.inited = true ∧ Alive s) hinit hstep
  have hlive : ∀ c ∈ s.tableRefs, c ∈ s.associated ∧ c ∉ s.failed ∧ c ∉ s.delivered := by
    intro c hc
    have hl := ha.live c hc
    have hnone : ∀ q, q ∉ s.calls := by
      intro q hm
      rw [hq] at hm
      exact Multiset.notMem_zero q hm
    have hf : c ∉ s.failed := fun hf => hnone _ (hl.failed hf)
    refine ⟨?_, hf, hl.delivered⟩
    rcases hl.associated with hk | hk | hk
    · exact hk
    · exact absurd hk hf
    · exact absurd hk (hnone _)
  refine ⟨fun c hc => hlive c (mem_tableRefs.mpr (.inl hc)), fun c hc => ?_⟩
  have hout : c ∉ s.tableRefs := by
    intro hm
    obtain ⟨-, hf, hd⟩ := hlive c hm
    exact hc.elim hf hd
  have hone := hs.once c
  rw [if_pos (ha.known c (.inr hc)), Multiset.count_eq_zero_of_notMem hout] at hone
  omega

/-! ### Missed callbacks -/

/-- A flow has been attached and its caller has released it. -/
def attached : State where
  inited := true
  ctx := Function.update State.init.ctx 0 flow
  next := 1
  count := (Counter.init.create 0 2).release 0
  table := [0]
  entries := 1
  calls := 0
  callers := 0
  returned := []
  associated := [0]
  failed := []
  delivered := []

theorem attached_reachable : (system.restrict Wfp).Reachable attached := by
  have hinit : (system.restrict Wfp).Reachable State.init := .of_init rfl
  have hcall := reach_attach hinit flow (by trivial)
  have hlinked := reach_run hcall (.attach flow) 0 statusSuccess rfl (by trivial)
  have hdone := reach_run hlinked (.associate 0) 0 statusSuccess rfl (by trivial)
  exact reach_release hdone 0 0 rfl (by trivial)

/-- The flow ends while `SkFlowRemoveAll` has its context: the callback is lost, the removal fails
and the context is linked again for good. -/
theorem orphan : ¬ ∀ s, (system.restrict Wfp).Reachable s → s.calls = 0 →
    ∀ c ∈ s.table, c ∉ s.failed ∧ c ∉ s.delivered := by
  intro h
  have hremove := reach_removeAll attached_reachable 1 (by trivial)
  have hstale := reach_run hremove (.removeAll 1) 0 statusSuccess rfl (by trivial)
  have hended := reach_deleteNotify hstale (some 0) ⟨List.mem_cons_self, List.not_mem_nil⟩
  have hpop := reach_run hended (.sweep 1 [0]) 0 statusSuccess rfl (by trivial)
  have hfail := reach_run hpop (.removing 1 [] 0) 0 statusUnsuccessful rfl
    (fun he => absurd he (by decide))
  have hrelink := reach_run hfail (.relink 1 [] 0) 0 statusSuccess rfl (by trivial)
  have hdone := reach_run hrelink (.sweep 1 []) 0 statusSuccess rfl (by trivial)
  exact (h _ hdone rfl 0 List.mem_cons_self).2 List.mem_cons_self

/-- A `SkFlowRemoveAll` removes the first flow and fails to remove the second one, which then
ends. -/
theorem no_orphan_removed : ∃ s : State, s.table = [] ∧ s.delivered = [1] ∧
    s.returned.count 1 = 1 := by
  have hpair : (system.restrict fun s act => Wfp s act ∧ Catches s act).Reachable pair :=
    pair_reachable (fun _ _ => by trivial) (fun _ _ => by trivial) fun _ _ => by trivial
  have hremove := reach_removeAll hpair 1 (by trivial)
  have hstale := reach_run hremove (.removeAll 1) 0 statusSuccess rfl (by trivial)
  have hpop := reach_run hstale (.sweep 1 [0, 1]) 0 statusSuccess rfl (by trivial)
  have hremoved := reach_run hpop (.removing 1 [1] 0) 0 statusSuccess rfl
    ⟨fun _ => ⟨0, by decide, List.not_mem_nil, rfl⟩, trivial⟩
  have hpop' := reach_run hremoved (.sweep 1 [1]) 0 statusSuccess rfl (by trivial)
  have hfail := reach_run hpop' (.removing 1 [] 1) 0 statusUnsuccessful rfl
    ⟨fun he => absurd he (by decide), trivial⟩
  have hrelink := reach_run hfail (.relink 1 [] 1) 0 statusSuccess rfl (by trivial)
  have hdone := reach_run hrelink (.sweep 1 []) 0 statusSuccess rfl (by trivial)
  have hended := reach_deleteNotify hdone (some 1)
    ⟨⟨by decide, List.not_mem_nil⟩, fun q hq => absurd hq (Multiset.notMem_zero q)⟩
  exact ⟨_, rfl, rfl, (no_orphan hended rfl).2 1 (.inr List.mem_cons_self)⟩

end Sentinel.FlowContext
