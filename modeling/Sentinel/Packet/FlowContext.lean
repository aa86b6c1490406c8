import Sentinel.Status
import Sentinel.General.System
import Sentinel.General.RefCount

/-! The flow context table: `SkFlowAttach`, `SkFlowRelease`, `SkFlowDeleteNotify` and
`SkFlowRemoveAll`, any number of calls at a time. A section under `g_SkFlowLock`, a WFP call and a
step on the local list of `SkFlowRemoveAll` are one step each. -/
namespace Sentinel.FlowContext

open Transition RefCount

/-- Contexts are numbered in the order of their insertion. -/
abbrev CtxId := ℕ

/-- `SK_FLOW_CTX`, apart from its count and its link. -/
structure Ctx where
  flowId : BitVec 64
  layerId : BitVec 32
  calloutId : BitVec 32
  deriving DecidableEq

def skLayerFlowEstablishedV4 : BitVec 32 := 4
def skLayerFlowEstablishedV6 : BitVec 32 := 5

def skFlowWfpLayerId (layerId : BitVec 32) : BitVec 16 :=
  if layerId = skLayerFlowEstablishedV4 then 52
  else if layerId = skLayerFlowEstablishedV6 then 53
  else 0

/-- What WFP is told of a context. -/
def Ctx.association (d : Ctx) : BitVec 64 × BitVec 16 × BitVec 32 :=
  (d.flowId, skFlowWfpLayerId d.layerId, d.calloutId)

/-- The next step of a call. -/
inductive Call where
  | attach (d : Ctx)
  | associate (c : CtxId)
  | undo (c : CtxId)
  | removeAll (calloutId : BitVec 32)
  | sweep (calloutId : BitVec 32) (stale : List CtxId)
  | removing (calloutId : BitVec 32) (stale : List CtxId) (c : CtxId)
  | relink (calloutId : BitVec 32) (stale : List CtxId) (c : CtxId)
  deriving DecidableEq

namespace Call

/-- The local list. -/
def stale : Call → List CtxId
  | .sweep _ stale | .removing _ stale _ | .relink _ stale _ => stale
  | .attach _ | .associate _ | .undo _ | .removeAll _ => []

/-- The context taken from the local list. -/
def popped : Call → List CtxId
  | .removing _ _ c | .relink _ _ c => [c]
  | .attach _ | .associate _ | .undo _ | .removeAll _ | .sweep _ _ => []

/-- The context whose caller reference is still with `SkFlowAttach`. -/
def owned : Call → List CtxId
  | .associate c | .undo c => [c]
  | .attach _ | .removeAll _ | .sweep _ _ | .removing _ _ _ | .relink _ _ _ => []

/-- `c` is unlinked by its own links, whoever's list it is on. -/
def unlink (c : CtxId) : Call → Call
  | .sweep calloutId stale => .sweep calloutId (stale.erase c)
  | .removing calloutId stale c' => .removing calloutId (stale.erase c) c'
  | .relink calloutId stale c' => .relink calloutId (stale.erase c) c'
  | .attach d => .attach d
  | .associate c' => .associate c'
  | .undo c' => .undo c'
  | .removeAll calloutId => .removeAll calloutId

/-- The contexts whose table reference the call has. -/
def held (q : Call) : List CtxId := q.popped ++ q.stale

end Call

/-- The elements of `f q` for the calls `q` in progress. -/
def gather (f : Call → List CtxId) (calls : Multiset Call) : Multiset CtxId :=
  calls.bind fun q => (f q : Multiset CtxId)

/-- The table. The count of the entries, a `ULONG`, and those of the references, each a `LONG`, are
integers; `counters_range` says when they are in range. -/
structure State where
  inited : Bool
  ctx : CtxId → Ctx
  next : CtxId
  count : Counter CtxId
  table : List CtxId
  entries : ℤ
  calls : Multiset Call
  /-- References returned by `SkFlowAttach` and not yet released. -/
  callers : Multiset CtxId
  /-- Ghosts: table references returned, and what WFP has done. -/
  returned : List CtxId
  associated : List CtxId
  failed : List CtxId
  delivered : List CtxId

namespace State

variable (s : State) (rest : Multiset Call)

/-- After `SkFlowInit`. -/
def init : State where
  inited := true
  ctx _ := ⟨0, 0, 0⟩
  next := 0
  count := Counter.init
  table := []
  entries := 0
  calls := 0
  callers := 0
  returned := []
  associated := []
  failed := []
  delivered := []

def goOn (q : Call) : State := { s with calls := q ::ₘ rest }

/-- `SkFlowRelease`. -/
def release (c : CtxId) : State := { s with count := s.count.release c }

/-- `SkFlowRelease` of the reference of the table. -/
def releaseTable (c : CtxId) : State := { s.release c with returned := c :: s.returned }

/-- `skFlowFindLocked`. -/
def find (flowId : BitVec 64) : Option CtxId := s.table.find? fun c => (s.ctx c).flowId = flowId

/-- `ctx->link.Flink != NULL`: it is on the table or on the local list of a call. -/
def Linked (c : CtxId) : Prop := c ∈ s.table ∨ c ∈ gather Call.stale rest

instance (c : CtxId) : Decidable (s.Linked rest c) := inferInstanceAs (Decidable (_ ∨ _))

/-- The section of `SkFlowAttach` that looks the flow up. -/
def insert (d : Ctx) : State :=
  match s.find d.flowId with
  | some old => { s with
      count := s.count.addRef old
      callers := old ::ₘ s.callers
      calls := rest }
  | none => { s.goOn rest (.associate s.next) with
      ctx := Function.update s.ctx s.next d
      next := s.next + 1
      count := s.count.create s.next 2
      table := s.table ++ [s.next]
      entries := s.entries + 1 }

/-- The section of `SkFlowAttach` after a failed association, and the releases after it. -/
def undo (c : CtxId) : State :=
  if s.Linked rest c then
    ({ s with
      table := s.table.erase c
      calls := rest.map (Call.unlink c)
      entries := s.entries - 1 }.releaseTable c).release c
  else { s with calls := rest }.release c

/-- The next step of a call. A WFP call returns `st`. -/
def run (st : NtStatus) : Call → State
  | .attach d => s.insert rest d
  | .associate c =>
    if st = statusSuccess then { s with
      calls := rest
      callers := c ::ₘ s.callers
      associated := c :: s.associated }
    else { s.goOn rest (.undo c) with failed := c :: s.failed }
  | .undo c => s.undo rest c
  | .removeAll calloutId =>
    let stale := s.table.filter fun c => (s.ctx c).calloutId = calloutId
    { s.goOn rest (.sweep calloutId stale) with
      table := s.table.filter fun c => ¬ (s.ctx c).calloutId = calloutId
      entries := s.entries - stale.length }
  | .sweep _ [] => { s with calls := rest }
  | .sweep calloutId (c :: stale) => s.goOn rest (.removing calloutId stale c)
  | .removing calloutId stale c =>
    if st = statusSuccess then (s.goOn rest (.sweep calloutId stale)).releaseTable c
    else s.goOn rest (.relink calloutId stale c)
  | .relink calloutId stale c => { s.goOn rest (.sweep calloutId stale) with
      table := s.table ++ [c]
      entries := s.entries + 1 }

/-- `SkFlowAttach` up to its first section: `alloc` says whether `AllocPool` succeeds. -/
def callAttach (d : Ctx) (alloc : Bool) : State :=
  if d.flowId = 0 ∨ s.inited = false ∨ alloc = false then s
  else { s with calls := .attach d ::ₘ s.calls }

/-- `SkFlowRemoveAll` up to its first section. -/
def callRemoveAll (calloutId : BitVec 32) : State :=
  if s.inited then { s with calls := .removeAll calloutId ::ₘ s.calls } else s

/-- `SkFlowDeleteNotify`; `none` is a null context. -/
def deleteNotify : Option CtxId → State
  | none => s
  | some c =>
    if s.inited = false then { s with delivered := c :: s.delivered }
    else if c ∈ s.table then { s.releaseTable c with
      table := s.table.erase c
      entries := s.entries - 1
      delivered := c :: s.delivered }
    else { s with delivered := c :: s.delivered }

end State

inductive Action where
  | callAttach (d : Ctx) (alloc : Bool)
  | callRemoveAll (calloutId : BitVec 32)
  | run (q : Call) (st : NtStatus)
  | release (c : CtxId)
  | deleteNotify (c : Option CtxId)

inductive Step : State → Action → State → Prop where
  | callAttach {s : State} {d : Ctx} {alloc : Bool} :
      Step s (.callAttach d alloc) (s.callAttach d alloc)
  | callRemoveAll {s : State} {calloutId : BitVec 32} :
      Step s (.callRemoveAll calloutId) (s.callRemoveAll calloutId)
  | run {s : State} {q : Call} (st : NtStatus) (rest : Multiset Call) (h : s.calls = q ::ₘ rest) :
      Step s (.run q st) (s.run rest st q)
  | release {s : State} {c : CtxId} (rest : Multiset CtxId) (h : s.callers = c ::ₘ rest) :
      Step s (.release c) { s.release c with callers := rest }
  | deleteNotify {s : State} {c : Option CtxId} : Step s (.deleteNotify c) (s.deleteNotify c)

def system : System State Action where
  init s := s = State.init
  step := Step

variable {s t : State} {act : Action} {as : List Action} {q : Call} {rest : Multiset Call}
  {c : CtxId} {d : Ctx} {st : NtStatus} {f : Call → List CtxId}

/-! ### Contexts of calls in progress -/

@[simp] theorem gather_zero : gather f 0 = 0 := rfl

@[simp] theorem gather_cons : gather f (q ::ₘ rest) = (f q : Multiset CtxId) + gather f rest :=
  Multiset.cons_bind q rest _

theorem mem_gather : c ∈ gather f rest ↔ ∃ q ∈ rest, c ∈ f q := by simp [gather]

theorem gather_map {g : Call → Call} (h : ∀ q, f (g q) = f q) :
    gather f (rest.map g) = gather f rest := by
  simp [gather, Multiset.bind_map, h]

theorem owned_unlink : gather Call.owned (rest.map (Call.unlink c)) = gather Call.owned rest := by
  refine gather_map fun q => ?_
  cases q <;> rfl

theorem mem_held_of_mem_stale (h : c ∈ gather Call.stale rest) : c ∈ gather Call.held rest := by
  obtain ⟨q, hq, hc⟩ := mem_gather.mp h
  exact mem_gather.mpr ⟨q, hq, List.mem_append_right _ hc⟩

theorem stale_unlink : (q.unlink c).stale = q.stale.erase c := by
  cases q <;> rfl

theorem popped_unlink : (q.unlink c).popped = q.popped := by
  cases q <;> rfl

theorem unlink_of_notMem (h : c ∉ q.stale) : q.unlink c = q := by
  have he : q.stale.erase c = q.stale := List.erase_of_not_mem h
  cases q with
  | sweep calloutId stale => exact congrArg (Call.sweep calloutId) he
  | removing calloutId stale c' => exact congrArg (Call.removing calloutId · c') he
  | relink calloutId stale c' => exact congrArg (Call.relink calloutId · c') he
  | attach | associate | undo | removeAll => rfl

theorem held_unlink (h : c ∈ q.stale) (h' : c ∉ q.popped) :
    (q.held : Multiset CtxId) = c ::ₘ ((q.unlink c).held : Multiset CtxId) := by
  have herase : (q.unlink c).held = q.held.erase c := by
    simp only [Call.held, stale_unlink, popped_unlink, List.erase_append_right _ h']
  rw [herase, ← Multiset.coe_erase, Multiset.cons_erase]
  exact List.mem_append_right _ h

theorem map_unlink_of_notMem (h : c ∉ gather Call.stale rest) :
    rest.map (Call.unlink c) = rest := by
  have hq : ∀ q ∈ rest, q.unlink c = q := by
    intro q hq
    exact unlink_of_notMem fun hc => h (mem_gather.mpr ⟨q, hq, hc⟩)
  rw [Multiset.map_congr rfl hq, Multiset.map_id']

/-- A context on a local list is taken off it, and off no other. -/
theorem gather_held_unlink (h : c ∈ gather Call.stale rest)
    (hone : (gather Call.held rest).count c ≤ 1) :
    gather Call.held rest = c ::ₘ gather Call.held (rest.map (Call.unlink c)) := by
  induction rest using Multiset.induction_on with
  | empty => cases h
  | cons q rest ih =>
    rw [gather_cons, Multiset.count_add] at hone
    rw [Multiset.map_cons, gather_cons, gather_cons]
    by_cases hq : c ∈ q.stale
    · have hcount : 0 < q.stale.count c := List.count_pos_iff.mpr hq
      have hheld : (q.held : Multiset CtxId).count c = q.popped.count c + q.stale.count c := by
        rw [Multiset.coe_count, Call.held, List.count_append]
      have hrest : c ∉ gather Call.stale rest := by
        intro hm
        have hpos := Multiset.count_pos.mpr (mem_held_of_mem_stale hm)
        omega
      have hpop : c ∉ q.popped := by
        intro hm
        have hpos := List.count_pos_iff.mpr hm
        omega
      rw [map_unlink_of_notMem hrest, held_unlink hq hpop, Multiset.cons_add]
    · have hrest : c ∈ gather Call.stale rest := by
        rw [gather_cons] at h
        exact (Multiset.mem_add.mp h).resolve_left hq
      rw [unlink_of_notMem hq, ih hrest (by omega), Multiset.add_cons]

/-! ### References -/

/-- The references of callers, those of running `SkFlowAttach` calls included. -/
def State.callerRefs (s : State) : Multiset CtxId := s.callers + gather Call.owned s.calls

/-- One for each context on the table or with a running `SkFlowRemoveAll`. -/
def State.tableRefs (s : State) : Multiset CtxId :=
  (s.table : Multiset CtxId) + gather Call.held s.calls

/-- Every reference is accounted for, and a context has one reference of the table until that is
returned. -/
structure Counted (s : State) : Prop where
  owed : Owed s.count (· < s.next) (s.callerRefs + s.tableRefs)
  once : ∀ c, s.tableRefs.count c + s.returned.count c = if c < s.next then 1 else 0

theorem counted_init : Counted State.init where
  owed := owed_init.congr fun c => (iff_of_false (Nat.not_lt_zero c) not_false).symm
  once _ := rfl

theorem Counted.lt_of_mem (h : Counted s) (hc : c ∈ s.tableRefs) : c < s.next :=
  h.owed.known_of_mem (Multiset.mem_add.mpr (.inr hc))

theorem Counted.count_le (h : Counted s) (c : CtxId) : s.tableRefs.count c ≤ 1 := by
  have hone := h.once c
  split at hone <;> omega

/-- A step that only moves references about. -/
theorem Counted.of_eq (h : Counted s) (hcount : t.count = s.count) (hnext : t.next = s.next)
    (hcallers : t.callerRefs = s.callerRefs) (htable : t.tableRefs = s.tableRefs)
    (hreturned : t.returned = s.returned) : Counted t := by
  refine ⟨?_, ?_⟩
  · rw [hcount, hnext, hcallers, htable]
    exact h.owed
  · rw [hnext, htable, hreturned]
    exact h.once

/-- A step that releases the reference of a caller. -/
theorem Counted.of_release (h : Counted s) (hcount : t.count = s.count.release c)
    (hnext : t.next = s.next) (hcallers : s.callerRefs = c ::ₘ t.callerRefs)
    (htable : t.tableRefs = s.tableRefs) (hreturned : t.returned = s.returned) : Counted t := by
  refine ⟨?_, ?_⟩
  · have ho := h.owed
    rw [hcallers, Multiset.cons_add] at ho
    rw [hcount, hnext, htable]
    exact ho.release
  · rw [hnext, htable, hreturned]
    exact h.once

/-- A step that releases the reference of the table. -/
theorem Counted.of_releaseTable (h : Counted s) (hcount : t.count = s.count.release c)
    (hnext : t.next = s.next) (hcallers : t.callerRefs = s.callerRefs)
    (htable : s.tableRefs = c ::ₘ t.tableRefs) (hreturned : t.returned = c :: s.returned) :
    Counted t := by
  refine ⟨?_, ?_⟩
  · have ho := h.owed
    rw [htable, Multiset.add_cons] at ho
    rw [hcount, hnext, hcallers]
    exact ho.release
  · intro x
    have hone := h.once x
    rw [htable, Multiset.count_cons] at hone
    rw [hreturned, hnext, ← hone]
    by_cases he : x = c
    · rw [he, List.count_cons_self, if_pos rfl]
      omega
    · rw [List.count_cons_of_ne (Ne.symm he), if_neg he, Nat.add_zero]

/-- A step that gives a caller one more reference. -/
theorem Counted.of_addRef (h : Counted s) (hm : c ∈ s.tableRefs)
    (hcount : t.count = s.count.addRef c) (hnext : t.next = s.next)
    (hcallers : t.callerRefs = c ::ₘ s.callerRefs) (htable : t.tableRefs = s.tableRefs)
    (hreturned : t.returned = s.returned) : Counted t := by
  refine ⟨?_, ?_⟩
  · rw [hcount, hnext, hcallers, htable, Multiset.cons_add]
    exact h.owed.addRef (Multiset.mem_add.mpr (.inr hm))
  · rw [hnext, htable, hreturned]
    exact h.once

/-- A step that makes a context, for the table and for a caller. -/
theorem Counted.of_create (h : Counted s) (hcount : t.count = s.count.create s.next 2)
    (hnext : t.next = s.next + 1) (hcallers : t.callerRefs = s.next ::ₘ s.callerRefs)
    (htable : t.tableRefs = s.next ::ₘ s.tableRefs) (hreturned : t.returned = s.returned) :
    Counted t := by
  refine ⟨?_, ?_⟩
  · have ho : Owed (s.count.create s.next 2) (· < s.next + 1) _ :=
      (h.owed.create (lt_irrefl _) Nat.two_pos).congr fun c => Nat.lt_succ_iff_lt_or_eq.symm
    have hrefs : Multiset.replicate 2 s.next + (s.callerRefs + s.tableRefs) =
        s.next ::ₘ s.callerRefs + s.next ::ₘ s.tableRefs := by
      simp [Multiset.replicate_succ]
    rwa [hrefs, ← hcount, ← hnext, ← hcallers, ← htable] at ho
  · intro c
    have hone := h.once c
    rw [htable, hreturned, hnext, Multiset.count_cons]
    by_cases he : c = s.next
    · rw [if_neg (he ▸ lt_irrefl c)] at hone
      rw [if_pos he, if_pos (he ▸ Nat.lt_succ_self c)]
      omega
    · rw [if_neg he, Nat.add_zero, hone]
      refine if_congr ⟨Nat.lt_succ_of_lt, fun hc => ?_⟩ rfl rfl
      exact (Nat.lt_succ_iff_lt_or_eq.mp hc).resolve_right he

theorem callerRefs_cons (q : Call) (rest : Multiset Call) (h : s.calls = q ::ₘ rest) :
    s.callerRefs = s.callers + (q.owned + gather Call.owned rest) := by
  rw [State.callerRefs, h, gather_cons]

theorem tableRefs_cons (q : Call) (rest : Multiset Call) (h : s.calls = q ::ₘ rest) :
    s.tableRefs = s.table + (q.held + gather Call.held rest) := by
  rw [State.tableRefs, h, gather_cons]

theorem callerRefs_of_nil (h : s.calls = q ::ₘ rest) (hq : q.owned = []) :
    s.callerRefs = s.callers + gather Call.owned rest := by
  rw [callerRefs_cons q rest h, hq]
  exact congrArg _ (zero_add _)

theorem callerRefs_of_owned (h : s.calls = q ::ₘ rest) (hq : q.owned = [c]) :
    s.callerRefs = c ::ₘ (s.callers + gather Call.owned rest) := by
  rw [callerRefs_cons q rest h, hq, ← Multiset.add_cons]
  rfl

theorem coe_append_singleton {l : List CtxId} :
    ((l ++ [c] : List CtxId) : Multiset CtxId) = c ::ₘ l :=
  Multiset.coe_eq_coe.mpr (List.perm_append_singleton c l)

theorem tableRefs_of_nil (h : s.calls = q ::ₘ rest) (hq : q.held = []) :
    s.tableRefs = s.table + gather Call.held rest := by
  rw [tableRefs_cons q rest h, hq]
  exact congrArg _ (zero_add _)

theorem tableRefs_of_popped {stale : List CtxId} (h : s.calls = q ::ₘ rest)
    (hq : q.held = c :: stale) :
    s.tableRefs = c ::ₘ (s.table + (stale + gather Call.held rest)) := by
  rw [tableRefs_cons q rest h, hq, ← Multiset.add_cons, ← Multiset.cons_add]
  rfl

/-- A step of a call that keeps all its references. -/
theorem Counted.of_goOn (h : Counted s) (hc : s.calls = q ::ₘ rest) {q' : Call}
    (hcalls : t.calls = q' ::ₘ rest) (hcount : t.count = s.count) (hnext : t.next = s.next)
    (hcallers : t.callers = s.callers) (hreturned : t.returned = s.returned)
    (howned : q'.owned = q.owned)
    (hheld : (t.table : Multiset CtxId) + q'.held = s.table + q.held) :
    Counted t := by
  refine h.of_eq hcount hnext ?_ ?_ hreturned
  · rw [callerRefs_cons _ _ hc, callerRefs_cons _ _ hcalls, hcallers, howned]
  · rw [tableRefs_cons _ _ hc, tableRefs_cons _ _ hcalls, ← add_assoc, ← add_assoc, hheld]

theorem find_mem {flowId : BitVec 64} (h : s.find flowId = some c) : c ∈ s.table :=
  List.mem_of_find?_eq_some h

theorem counted_insert (h : Counted s) (hc : s.calls = .attach d ::ₘ rest) :
    Counted (s.insert rest d) := by
  have hcallers := callerRefs_of_nil hc rfl
  have htable := tableRefs_of_nil hc rfl
  rw [State.insert]
  split
  · rename_i old hf
    have hm : old ∈ s.tableRefs := Multiset.mem_add.mpr (.inl (find_mem hf))
    refine h.of_addRef hm rfl rfl ?_ htable.symm rfl
    rw [hcallers, ← Multiset.cons_add]
    rfl
  · refine h.of_create rfl rfl ?_ ?_ rfl
    · rw [hcallers]
      exact callerRefs_of_owned (q := .associate s.next) rfl rfl
    · rw [htable, tableRefs_of_nil (q := .associate s.next) rfl rfl,
        ← Multiset.cons_add, ← coe_append_singleton]

/-- A context that is linked somewhere is unlinked there. -/
theorem tableRefs_unlink (h : Counted s) (hc : s.calls = q ::ₘ rest) (hq : q.held = [])
    (hl : s.Linked rest c) : s.tableRefs =
      c ::ₘ ((s.table.erase c : Multiset CtxId) +
        gather Call.held (rest.map (Call.unlink c))) := by
  have hone := h.count_le c
  have htable := tableRefs_of_nil hc hq
  rw [htable, Multiset.count_add] at hone
  rw [htable]
  rcases hl with hm | hm
  · have hpos : 0 < (s.table : Multiset CtxId).count c := Multiset.count_pos.mpr hm
    have hrest : c ∉ gather Call.stale rest := by
      intro hm
      have hpos := Multiset.count_pos.mpr (mem_held_of_mem_stale hm)
      omega
    rw [map_unlink_of_notMem hrest, ← Multiset.cons_add, ← Multiset.coe_erase,
      Multiset.cons_erase hm]
  · have hpos := Multiset.count_pos.mpr (mem_held_of_mem_stale hm)
    have hrest : c ∉ s.table := by
      intro hm
      have hpos : 0 < (s.table : Multiset CtxId).count c := Multiset.count_pos.mpr hm
      omega
    rw [gather_held_unlink hm (by omega), List.erase_of_not_mem hrest, Multiset.add_cons]

theorem counted_undo (h : Counted s) (hc : s.calls = .undo c ::ₘ rest) :
    Counted (s.undo rest c) := by
  have hcallers := callerRefs_of_owned hc rfl
  rw [State.undo]
  split
  · rename_i hl
    have htable := tableRefs_unlink h hc rfl hl
    -- first the reference of the table, then the one of the caller
    let mid : State := { s with
      table := s.table.erase c
      calls := .undo c ::ₘ rest.map (Call.unlink c)
      entries := s.entries - 1 }.releaseTable c
    have hcallers' : mid.callerRefs =
        c ::ₘ (s.callers + gather Call.owned (rest.map (Call.unlink c))) :=
      callerRefs_of_owned rfl rfl
    have htable' : mid.tableRefs = (s.table.erase c : Multiset CtxId) +
        gather Call.held (rest.map (Call.unlink c)) := tableRefs_of_nil rfl rfl
    have hmid : Counted mid := by
      refine h.of_releaseTable (c := c) rfl rfl ?_ ?_ rfl
      · rw [hcallers', hcallers, owned_unlink]
      · rw [htable, htable']
    exact hmid.of_release rfl rfl hcallers' htable'.symm rfl
  · exact h.of_release rfl rfl hcallers (tableRefs_of_nil hc rfl).symm rfl

theorem counted_run (h : Counted s) (hc : s.calls = q ::ₘ rest) : Counted (s.run rest st q) := by
  cases q with
  | attach d => exact counted_insert h hc
  | associate c =>
    rw [State.run]
    split
    · refine h.of_eq rfl rfl ?_ (tableRefs_of_nil hc rfl).symm rfl
      rw [callerRefs_of_owned hc rfl, ← Multiset.cons_add]
      rfl
    · exact h.of_goOn hc rfl rfl rfl rfl rfl rfl rfl
  | undo c => exact counted_undo h hc
  | removeAll calloutId =>
    refine h.of_goOn hc rfl rfl rfl rfl rfl rfl ?_
    have hsplit := Multiset.filter_add_not (fun c => (s.ctx c).calloutId = calloutId)
      (s.table : Multiset CtxId)
    rw [add_comm] at hsplit
    exact hsplit.trans (add_zero _).symm
  | sweep calloutId stale =>
    cases stale with
    | nil =>
      exact h.of_eq rfl rfl (callerRefs_of_nil hc rfl).symm (tableRefs_of_nil hc rfl).symm rfl
    | cons c stale => exact h.of_goOn hc rfl rfl rfl rfl rfl rfl rfl
  | removing calloutId stale c =>
    rw [State.run]
    split
    · refine h.of_releaseTable (c := c) rfl rfl ?_ ?_ rfl
      · rw [callerRefs_of_nil hc rfl]
        exact callerRefs_of_nil (q := .sweep calloutId stale) rfl rfl
      · rw [tableRefs_of_popped hc rfl, tableRefs_cons (.sweep calloutId stale) rest rfl]
        rfl
    · exact h.of_goOn hc rfl rfl rfl rfl rfl rfl rfl
  | relink calloutId stale c =>
    refine h.of_goOn hc rfl rfl rfl rfl rfl rfl ?_
    change ((s.table ++ [c] : List CtxId) : Multiset CtxId) + (stale : Multiset CtxId) =
      s.table + (c ::ₘ (stale : Multiset CtxId))
    rw [coe_append_singleton, Multiset.cons_add, Multiset.add_cons]

/-- A call that begins has no references yet. -/
theorem counted_call (h : Counted s) (howned : q.owned = []) (hheld : q.held = []) :
    Counted { s with calls := q ::ₘ s.calls } := by
  refine h.of_eq rfl rfl ?_ ?_ rfl
  · exact callerRefs_of_nil (q := q) rfl howned
  · exact tableRefs_of_nil (q := q) rfl hheld

theorem counted_deleteNotify {o : Option CtxId} (h : Counted s) : Counted (s.deleteNotify o) := by
  cases o with
  | none => exact h
  | some c =>
    rw [State.deleteNotify]
    split
    · exact h.of_eq rfl rfl rfl rfl rfl
    split
    · rename_i hm
      refine h.of_releaseTable (c := c) rfl rfl rfl ?_ rfl
      have he := Multiset.cons_erase (s := (s.table : Multiset CtxId)) hm
      change (s.table : Multiset CtxId) + _ = c ::ₘ ((s.table.erase c : Multiset CtxId) + _)
      rw [← Multiset.coe_erase, ← Multiset.cons_add, he]
      rfl
    · exact h.of_eq rfl rfl rfl rfl rfl

theorem counted_step (h : Step s act t) (hs : Counted s) : Counted t := by
  cases h with
  | callAttach =>
    rw [State.callAttach]
    split
    · exact hs
    · exact counted_call hs rfl rfl
  | callRemoveAll =>
    rw [State.callRemoveAll]
    split
    · exact counted_call hs rfl rfl
    · exact hs
  | run st rest hc => exact counted_run hs hc
  | release rest hc =>
    refine hs.of_release rfl rfl ?_ rfl rfl
    rw [State.callerRefs, hc, Multiset.cons_add]
    rfl
  | deleteNotify => exact counted_deleteNotify hs

theorem counted_reachable (h : system.Reachable s) : Counted s := by
  refine h.invariant ?_ counted_step
  rintro s rfl
  exact counted_init

/-- A context has the references of its callers and one of the table, if that is not returned. -/
theorem Counted.ref_eq (h : Counted s) (hc : c < s.next) : s.count.ref c =
    s.callerRefs.count c + if c ∈ s.tableRefs then 1 else 0 := by
  have href := h.owed.ref hc
  have hle := h.count_le c
  rw [href, Multiset.count_add]
  split
  · rename_i hm
    have hpos := Multiset.count_pos.mpr hm
    omega
  · rename_i hm
    have hzero := Multiset.count_eq_zero_of_notMem hm
    omega

/-! ### The list and its count -/

/-- No failing `SkFlowAttach` finds its context on the local list of a `SkFlowRemoveAll`, and no
context is linked again when another one of its flow is on the table. -/
def KeepsTable (s : State) : Action → Prop
  | .run (.undo c) _ => ∀ q ∈ s.calls, c ∉ q.stale
  | .run (.relink _ _ c) _ => ∀ c' ∈ s.table, (s.ctx c').flowId ≠ (s.ctx c).flowId
  | .run (.attach _) _ | .run (.associate _) _ | .run (.removeAll _) _ | .run (.sweep _ _) _
  | .run (.removing _ _ _) _ | .callAttach _ _ | .callRemoveAll _ | .release _
  | .deleteNotify _ => True

def State.flowIds (s : State) : List (BitVec 64) := s.table.map fun c => (s.ctx c).flowId

/-- `g_SkFlowEntries` is the length of the list, and no flow is on it twice. -/
structure Listed (s : State) : Prop where
  entries : s.entries = s.table.length
  nodup : s.flowIds.Nodup

theorem listed_init : Listed State.init := ⟨rfl, List.nodup_nil⟩

/-- One context fewer. -/
theorem Listed.of_erase (h : Listed s) (hm : c ∈ s.table) (htable : t.table = s.table.erase c)
    (hctx : t.ctx = s.ctx) (hentries : t.entries = s.entries - 1) : Listed t := by
  refine ⟨?_, ?_⟩
  · have hlen := List.length_erase_of_mem hm
    have hpos := List.length_pos_of_mem hm
    rw [hentries, htable, h.entries, hlen]
    omega
  · rw [State.flowIds, htable, hctx]
    exact h.nodup.sublist (List.erase_sublist.map _)

/-- One context more. -/
theorem Listed.of_append (h : Listed s) (htable : t.table = s.table ++ [c])
    (hctx : ∀ c' ∈ s.table, (t.ctx c').flowId = (s.ctx c').flowId)
    (hentries : t.entries = s.entries + 1)
    (hnew : ∀ c' ∈ s.table, (s.ctx c').flowId ≠ (t.ctx c).flowId) : Listed t := by
  refine ⟨?_, ?_⟩
  · rw [hentries, htable, h.entries, List.length_append]
    rfl
  · have hids : t.flowIds = s.flowIds ++ [(t.ctx c).flowId] := by
      rw [State.flowIds, htable, List.map_append, List.map_congr_left hctx]
      rfl
    rw [hids, List.nodup_append_comm]
    refine List.nodup_cons.mpr ⟨fun hm => ?_, h.nodup⟩
    obtain ⟨c', hc', he⟩ := List.mem_map.mp hm
    exact hnew c' hc' he

theorem listed_insert (h : Listed s) (hs : Counted s) : Listed (s.insert rest d) := by
  rw [State.insert]
  split
  · exact ⟨h.entries, h.nodup⟩
  rename_i hf
  have hne : ∀ c' ∈ s.table, c' ≠ s.next := by
    intro c' hm he
    exact (hs.lt_of_mem (Multiset.mem_add.mpr (.inl hm))).ne he
  refine h.of_append (c := s.next) rfl ?_ rfl ?_
  · intro c' hm
    exact congrArg Ctx.flowId (Function.update_of_ne (hne c' hm) d s.ctx)
  · intro c' hm
    have hno := List.find?_eq_none.mp hf c' hm
    simpa using hno

theorem listed_run (h : Listed s) (hs : Counted s) (hc : s.calls = q ::ₘ rest)
    (hg : KeepsTable s (.run q st)) : Listed (s.run rest st q) := by
  cases q with
  | attach d => exact listed_insert h hs
  | associate c =>
    rw [State.run]
    split <;> exact ⟨h.entries, h.nodup⟩
  | undo c =>
    rw [State.run, State.undo]
    split
    · rename_i hl
      have hm : c ∈ s.table := by
        refine hl.resolve_right fun hm => ?_
        obtain ⟨q, hq, hcq⟩ := mem_gather.mp hm
        exact hg q (hc ▸ Multiset.mem_cons_of_mem hq) hcq
      exact h.of_erase hm rfl rfl rfl
    · exact ⟨h.entries, h.nodup⟩
  | removeAll calloutId =>
    refine ⟨?_, h.nodup.sublist (List.filter_sublist.map _)⟩
    have hlen := s.table.length_eq_countP_add_countP fun c => (s.ctx c).calloutId = calloutId
    change s.entries - ((s.table.filter _).length : ℤ) = (s.table.filter _).length
    rw [h.entries, ← List.countP_eq_length_filter, ← List.countP_eq_length_filter]
    simp only [decide_eq_true_eq] at hlen
    omega
  | sweep calloutId stale => cases stale <;> exact ⟨h.entries, h.nodup⟩
  | removing calloutId stale c =>
    rw [State.run]
    split <;> exact ⟨h.entries, h.nodup⟩
  | relink calloutId stale c => exact h.of_append rfl (fun _ _ => rfl) rfl hg

theorem listed_deleteNotify {o : Option CtxId} (h : Listed s) : Listed (s.deleteNotify o) := by
  cases o with
  | none => exact h
  | some c =>
    rw [State.deleteNotify]
    split
    · exact ⟨h.entries, h.nodup⟩
    split
    · rename_i hm
      exact h.of_erase hm rfl rfl rfl
    · exact ⟨h.entries, h.nodup⟩

theorem listed_step (h : Step s act t) (hg : KeepsTable s act) (ht : Counted s) (hs : Listed s) :
    Listed t := by
  cases h with
  | callAttach =>
    rw [State.callAttach]
    split <;> exact ⟨hs.entries, hs.nodup⟩
  | callRemoveAll =>
    rw [State.callRemoveAll]
    split <;> exact ⟨hs.entries, hs.nodup⟩
  | run st rest hc => exact listed_run hs ht hc hg
  | release => exact ⟨hs.entries, hs.nodup⟩
  | deleteNotify => exact listed_deleteNotify hs

theorem books_reachable (h : (system.restrict KeepsTable).Reachable s) : Counted s ∧ Listed s := by
  have hinit : ∀ {s}, (system.restrict KeepsTable).init s → Counted s ∧ Listed s := by
    rintro s rfl
    exact ⟨counted_init, listed_init⟩
  have hstep : ∀ {s act t}, KeepsTable s act ∧ Step s act t → Counted s ∧ Listed s →
      Counted t ∧ Listed t := by
    rintro s act t ⟨hg, hst⟩ ⟨ht, hl⟩
    exact ⟨counted_step hst ht, listed_step hst hg ht hl⟩
  exact h.invariant (I := fun s => Counted s ∧ Listed s) hinit hstep

/-- If no failing attach and no relink disturbs a `SkFlowRemoveAll`, the count is right and no flow
is on the table twice. References and frees are right in any case. -/
theorem table_correct (h : (system.restrict KeepsTable).Reachable s) :
    s.entries = s.table.length ∧ s.flowIds.Nodup ∧
    (∀ c < s.next, c ∉ s.count.freed →
      s.count.ref c = s.callerRefs.count c + if c ∈ s.tableRefs then 1 else 0) ∧
    ∀ c < s.next, s.count.freed.count c = if s.count.ref c = 0 then 1 else 0 := by
  obtain ⟨hs, hl⟩ := books_reachable h
  exact ⟨hl.entries, hl.nodup, fun c hc _ => hs.ref_eq hc, fun c hc => hs.owed.count_freed hc⟩

/-- With less than `2 ^ 31` references outstanding the count of the entries does not leave the
range of a `ULONG`, nor that of a context the range of a `LONG`. -/
theorem counters_range (h : (system.restrict KeepsTable).Reachable s)
    (hrefs : (s.callerRefs + s.tableRefs).card < 2 ^ 31) :
    (0 ≤ s.entries ∧ s.entries < 2 ^ 32) ∧
    ∀ c < s.next, 0 ≤ s.count.ref c ∧ s.count.ref c < 2 ^ 31 := by
  obtain ⟨hs, hl⟩ := books_reachable h
  refine ⟨?_, fun c hc => hs.owed.ref_range hc hrefs⟩
  have hentries := hl.entries
  simp only [State.tableRefs, Multiset.card_add, Multiset.coe_card] at hrefs
  omega

/-! ### Disturbed calls -/

section Runs

variable {P : State → Action → Prop}

theorem reach_attach (hs : (system.restrict P).Reachable s) (d : Ctx)
    (hP : P s (.callAttach d true)) : (system.restrict P).Reachable (s.callAttach d true) :=
  hs.step ⟨hP, .callAttach⟩

theorem reach_removeAll (hs : (system.restrict P).Reachable s) (calloutId : BitVec 32)
    (hP : P s (.callRemoveAll calloutId)) :
    (system.restrict P).Reachable (s.callRemoveAll calloutId) :=
  hs.step ⟨hP, .callRemoveAll⟩

theorem reach_deleteNotify (hs : (system.restrict P).Reachable s) (o : Option CtxId)
    (hP : P s (.deleteNotify o)) : (system.restrict P).Reachable (s.deleteNotify o) :=
  hs.step ⟨hP, .deleteNotify⟩

theorem reach_run (hs : (system.restrict P).Reachable s) (q : Call) (rest : Multiset Call)
    (st : NtStatus) (hc : s.calls = q ::ₘ rest) (hP : P s (.run q st)) :
    (system.restrict P).Reachable (s.run rest st q) :=
  hs.step ⟨hP, .run st rest hc⟩

theorem reach_release (hs : (system.restrict P).Reachable s) (c : CtxId) (rest : Multiset CtxId)
    (hc : s.callers = c ::ₘ rest) (hP : P s (.release c)) :
    (system.restrict P).Reachable { s.release c with callers := rest } :=
  hs.step ⟨hP, .release rest hc⟩

end Runs

/-- A flow of callout 1. -/
def flow : Ctx := ⟨7, skLayerFlowEstablishedV4, 1⟩

/-- The association fails when `SkFlowRemoveAll` has the context on its local list: the entry is
counted off twice. -/
theorem undone_twice : ¬ ∀ s, system.Reachable s → s.entries = s.table.length := by
  intro h
  have hinit : (system.restrict fun _ _ => True).Reachable State.init := .of_init rfl
  have hcall := reach_attach hinit flow trivial
  have hlinked := reach_run hcall (.attach flow) 0 statusSuccess rfl trivial
  have hremove := reach_removeAll hlinked 1 trivial
  have hstale := reach_run hremove (.removeAll 1) (.associate 0 ::ₘ 0) statusSuccess rfl trivial
  have hfail := reach_run hstale (.associate 0) (.sweep 1 [0] ::ₘ 0) statusUnsuccessful
    (Multiset.cons_swap _ _ 0) trivial
  have hundo := reach_run hfail (.undo 0) (.sweep 1 [0] ::ₘ 0) statusSuccess rfl trivial
  have hcount := h _ hundo.of_restrict
  revert hcount
  decide

/-- The flow is attached anew while `SkFlowRemoveAll` has its context, which is then linked again:
the flow is on the table twice. -/
theorem linked_twice : ¬ ∀ s, system.Reachable s → s.flowIds.Nodup := by
  intro h
  have hinit : (system.restrict fun _ _ => True).Reachable State.init := .of_init rfl
  have hcall := reach_attach hinit flow trivial
  have hlinked := reach_run hcall (.attach flow) 0 statusSuccess rfl trivial
  have hdone := reach_run hlinked (.associate 0) 0 statusSuccess rfl trivial
  have hremove := reach_removeAll hdone 1 trivial
  have hstale := reach_run hremove (.removeAll 1) 0 statusSuccess rfl trivial
  have hpop := reach_run hstale (.sweep 1 [0]) 0 statusSuccess rfl trivial
  have hanew := reach_run (reach_attach hpop flow trivial) (.attach flow) (.removing 1 [] 0 ::ₘ 0)
    statusSuccess rfl trivial
  have hfail := reach_run hanew (.removing 1 [] 0) (.associate 1 ::ₘ 0) statusUnsuccessful
    (Multiset.cons_swap _ _ 0) trivial
  have hrelink := reach_run hfail (.relink 1 [] 0) (.associate 1 ::ₘ 0) statusSuccess rfl trivial
  have htwice := h _ hrelink.of_restrict
  revert htwice
  decide

/-- Another flow of callout 1. -/
def otherFlow : Ctx := ⟨8, skLayerFlowEstablishedV6, 1⟩

/-- Both flows are attached. -/
def pair : State where
  inited := true
  ctx := Function.update (Function.update State.init.ctx 0 flow) 1 otherFlow
  next := 2
  count := (Counter.init.create 0 2).create 1 2
  table := [0, 1]
  entries := 2
  calls := 0
  callers := {1, 0}
  returned := []
  associated := [1, 0]
  failed := []
  delivered := []

theorem pair_reachable {P : State → Action → Prop} (hcall : ∀ s d, P s (.callAttach d true))
    (hattach : ∀ s d, P s (.run (.attach d) statusSuccess))
    (hassociate : ∀ s c, P s (.run (.associate c) statusSuccess)) :
    (system.restrict P).Reachable pair := by
  have hinit : (system.restrict P).Reachable State.init := .of_init rfl
  have hflow := reach_attach hinit flow (hcall _ _)
  have hlinked := reach_run hflow (.attach flow) 0 statusSuccess rfl (hattach _ _)
  have hdone := reach_run hlinked (.associate 0) 0 statusSuccess rfl (hassociate _ _)
  have hother := reach_attach hdone otherFlow (hcall _ _)
  have hlinked' := reach_run hother (.attach otherFlow) 0 statusSuccess rfl (hattach _ _)
  exact reach_run hlinked' (.associate 1) 0 statusSuccess rfl (hassociate _ _)

/-- A `SkFlowRemoveAll` removes the first flow, and links the second one again. The first one's
caller releases it. -/
theorem table_correct_removed : ∃ s : State, s.table = [1] ∧ s.entries = 1 ∧ s.flowIds.Nodup ∧
    s.count.ref 1 = 2 ∧ s.count.freed.count 0 = 1 := by
  have hpair : (system.restrict KeepsTable).Reachable pair :=
    pair_reachable (fun _ _ => trivial) (fun _ _ => trivial) fun _ _ => trivial
  have hremove := reach_removeAll hpair 1 trivial
  have hstale := reach_run hremove (.removeAll 1) 0 statusSuccess rfl trivial
  have hpop := reach_run hstale (.sweep 1 [0, 1]) 0 statusSuccess rfl trivial
  have hremoved := reach_run hpop (.removing 1 [1] 0) 0 statusSuccess rfl trivial
  have hpop' := reach_run hremoved (.sweep 1 [1]) 0 statusSuccess rfl trivial
  have hfail := reach_run hpop' (.removing 1 [] 1) 0 statusUnsuccessful rfl trivial
  have hrelink := reach_run hfail (.relink 1 [] 1) 0 statusSuccess rfl
    fun c hc => absurd hc List.not_mem_nil
  have hdone := reach_run hrelink (.sweep 1 []) 0 statusSuccess rfl trivial
  have hrelease := reach_release hdone 0 {1} (Multiset.pair_comm 1 0) trivial
  obtain ⟨hentries, hnodup, href, hfreed⟩ := table_correct hrelease
  exact ⟨_, rfl, hentries, hnodup, href 1 (by decide) (by decide), hfreed 0 (by decide)⟩

end Sentinel.FlowContext
