import Sentinel.General.System
import Sentinel.Status

/-! `ShThreadCreateFenced` and the wrapper of the threads it spawns, for any number of calls at a
time over one pool that reuses what has been freed. Every kernel call and every access to a
startup context is one step. -/
namespace Sentinel.ThreadFence

open Transition

/-- A call of `ShThreadCreateFenced`; it spawns at most one thread. -/
abbrev CallId := ℕ

/-- A block of the pool. -/
abbrev Addr := ℕ

def statusWait0 : NtStatus := 0x00000000#32
def statusWait1 : NtStatus := 0x00000001#32

/-- A `SHINKEN_THREAD_FN` and its context. -/
structure Work where
  body : ℕ
  ctx : ℕ
  deriving DecidableEq

/-- `SHINKEN_THREAD_STARTUP`; its two notification events stay set. -/
structure Startup where
  work : Work
  startup : Bool
  abort : Bool
  deriving DecidableEq

/-- Where a call of `ShThreadCreateFenced` stands, and after it its caller. -/
inductive Creator where
  | idle
  | alloc
  | fill (sc : Addr)
  | spawn (sc : Addr)
  | freeStartup (sc : Addr) (st : NtStatus)
  | reference (sc : Addr)
  | setStartup (sc : Addr)
  | closeHandle
  | setAbort (sc : Addr) (st : NtStatus)
  | wait (st : NtStatus)
  | closeFailed (st : NtStatus)
  | returned (st : NtStatus)
  | joined

/-- Where the thread stands in `shkThreadFenceWrapper`. -/
inductive Wrapper where
  | unspawned
  | gate (sc : Addr)
  | read (sc : Addr) (wait : NtStatus)
  | free (sc : Addr) (work : Work) (wait : NtStatus)
  | decide (work : Work) (wait : NtStatus)
  | body (work : Work)
  | exited

/-- A call with its arguments and its thread. The thread object lives while the thread runs, the
handle is open or a reference is held. -/
structure Call where
  work : Work
  creator : Creator
  wrapper : Wrapper
  handle : Bool
  refs : ℕ
  /-- Is `*outThreadObject` other than NULL? -/
  out : Bool
  /-- A ghost: what the thread has run. -/
  runs : List Work

structure State where
  heap : Addr → Option Startup
  calls : CallId → Call
  /-- A ghost: freed memory was touched, or a closed handle or a lost reference used. -/
  misused : Bool

def Call.initial : Call := ⟨⟨0, 0⟩, .idle, .unspawned, false, 0, false, []⟩

def initial : State := ⟨fun _ => none, fun _ => .initial, false⟩

/-- What the kernel calls of one step return. -/
structure Replies where
  addr : Option Addr
  st : NtStatus

namespace State

variable (s : State) (c : CallId)

def put (k : Call) : State := { s with calls := Function.update s.calls c k }

/-- An access to a startup context. -/
def write (sc : Addr) (f : Startup → Startup) : State :=
  match s.heap sc with
  | some x => { s with heap := Function.update s.heap sc (some (f x)) }
  | none => { s with misused := true }

def free (sc : Addr) : State :=
  match s.heap sc with
  | some _ => { s with heap := Function.update s.heap sc none }
  | none => { s with misused := true }

/-- The call needs its handle. -/
def useHandle : State := { s with misused := s.misused || !(s.calls c).handle }

/-- The next step of the call. -/
def runCreator (r : Replies) : State :=
  let k := s.calls c
  match k.creator with
  | .idle | .returned _ | .joined => s
  | .alloc =>
    match r.addr with
    | none => s.put c { k with creator := .returned statusInsufficientResources }
    | some a =>
      { s with heap := Function.update s.heap a (some ⟨⟨0, 0⟩, false, false⟩) }.put c
        { k with creator := .fill a }
  | .fill sc => (s.write sc fun _ => ⟨k.work, false, false⟩).put c { k with creator := .spawn sc }
  | .spawn sc =>
    if ntSuccess r.st then
      s.put c { k with creator := .reference sc, wrapper := .gate sc, handle := true }
    else s.put c { k with creator := .freeStartup sc r.st }
  | .freeStartup sc st => (s.free sc).put c { k with creator := .returned st }
  | .reference sc =>
    if ntSuccess r.st then
      (s.useHandle c).put c { k with creator := .setStartup sc, refs := k.refs + 1, out := true }
    else (s.useHandle c).put c { k with creator := .setAbort sc r.st }
  | .setStartup sc =>
    (s.write sc fun x => { x with startup := true }).put c { k with creator := .closeHandle }
  | .closeHandle =>
    (s.useHandle c).put c { k with creator := .returned statusSuccess, handle := false }
  | .setAbort sc st =>
    (s.write sc fun x => { x with abort := true }).put c { k with creator := .wait st }
  | .wait st => (s.useHandle c).put c { k with creator := .closeFailed st }
  | .closeFailed st =>
    (s.useHandle c).put c { k with creator := .returned st, handle := false, out := false }

/-- The next step of the thread; `wait` is what the gate returns. -/
def runWrapper (wait : NtStatus) : State :=
  let k := s.calls c
  match k.wrapper with
  | .unspawned | .exited => s
  | .gate sc => (s.write sc id).put c { k with wrapper := .read sc wait }
  | .read sc st =>
    match s.heap sc with
    | some x => s.put c { k with wrapper := .free sc x.work st }
    | none => { s with misused := true }
  | .free sc w st => (s.free sc).put c { k with wrapper := .decide w st }
  | .decide w st =>
    if st = statusWait0 then s.put c { k with wrapper := .body w, runs := w :: k.runs }
    else s.put c { k with wrapper := .exited }
  | .body _ => s.put c { k with wrapper := .exited }

/-- `shkThreadJoin` of the caller, once the thread has exited. -/
def join : State :=
  let k := s.calls c
  { s with misused := s.misused || k.refs == 0 }.put c
    { k with creator := .joined, refs := k.refs - 1 }

end State

inductive Action where
  | call (c : CallId) (w : Work)
  | creator (c : CallId) (r : Replies)
  | wrapper (c : CallId) (wait : NtStatus)
  | join (c : CallId)

/-- The pool hands out what is free, and a wait without a timeout ends with the thread. -/
def Call.CreatorMay (k : Call) (heap : Addr → Option Startup) (r : Replies) : Prop :=
  match k.creator with
  | .idle | .returned _ | .joined => False
  | .alloc => ∀ a, r.addr = some a → heap a = none
  | .wait _ => k.wrapper = .exited
  | .fill _ | .spawn _ | .freeStartup _ _ | .reference _ | .setStartup _ | .closeHandle
  | .setAbort _ _ | .closeFailed _ => True

inductive Step : State → Action → State → Prop where
  | call {s : State} {c : CallId} {w : Work} (h : (s.calls c).creator = .idle) :
      Step s (.call c w) (s.put c { s.calls c with work := w, creator := .alloc, out := false })
  | creator {s : State} {c : CallId} {r : Replies} (h : (s.calls c).CreatorMay s.heap r) :
      Step s (.creator c r) (s.runCreator c r)
  | wrapper {s : State} {c : CallId} {wait : NtStatus} (h : (s.calls c).wrapper ≠ .unspawned)
      (hx : (s.calls c).wrapper ≠ .exited) : Step s (.wrapper c wait) (s.runWrapper c wait)
  | join {s : State} {c : CallId} {st : NtStatus} (h : (s.calls c).creator = .returned st)
      (hs : ntSuccess st = true) (hx : (s.calls c).wrapper = .exited) :
      Step s (.join c) (s.join c)

def system : System State Action where
  init s := s = initial
  step := Step

/-- A wait for two events without a timeout ends with the index of one that is set. -/
def WaitsForEvent (s : State) : Action → Prop
  | .wrapper c wait => ∀ sc, (s.calls c).wrapper = .gate sc →
    ∃ x, s.heap sc = some x ∧
      (wait = statusWait0 ∧ x.startup = true ∨ wait = statusWait1 ∧ x.abort = true)
  | .call _ _ | .creator _ _ | .join _ => True

/-! ### One call at a time -/

/-- The startup context of a call, whoever has to free it. -/
def Creator.block : Creator → Option Addr
  | .fill sc | .spawn sc | .freeStartup sc _ => some sc
  | .idle | .alloc | .reference _ | .setStartup _ | .closeHandle | .setAbort _ _ | .wait _
  | .closeFailed _ | .returned _ | .joined => none

def Wrapper.block : Wrapper → Option Addr
  | .gate sc | .read sc _ | .free sc _ _ => some sc
  | .unspawned | .decide _ _ | .body _ | .exited => none

def Call.block (k : Call) : Option Addr := k.creator.block.or k.wrapper.block

/-- The thread on its way past the gate, which `startup` has opened or `abort`. -/
def Call.Past (k : Call) (heap : Addr → Option Startup) (opened : Bool) : Prop :=
  let index := if opened then statusWait0 else statusWait1
  match k.wrapper with
  | .unspawned => False
  | .gate sc => heap sc = some ⟨k.work, opened, !opened⟩ ∧ k.runs = []
  | .read sc st => heap sc = some ⟨k.work, opened, !opened⟩ ∧ st = index ∧ k.runs = []
  | .free sc w st =>
    heap sc = some ⟨k.work, opened, !opened⟩ ∧ w = k.work ∧ st = index ∧ k.runs = []
  | .decide w st => w = k.work ∧ st = index ∧ k.runs = []
  | .body w => opened = true ∧ w = k.work ∧ k.runs = [k.work]
  | .exited => k.runs = if opened then [k.work] else []

/-- What a call has left behind at each of its steps. -/
def Call.Table (k : Call) (heap : Addr → Option Startup) : Prop :=
  let new := k.wrapper = .unspawned ∧ k.handle = false ∧ k.refs = 0 ∧ k.out = false ∧ k.runs = []
  match k.creator with
  | .idle | .alloc => new
  | .fill sc => new ∧ heap sc ≠ none
  | .spawn sc => new ∧ heap sc = some ⟨k.work, false, false⟩
  | .freeStartup sc st => new ∧ heap sc ≠ none ∧ ntSuccess st = false
  | .reference sc => k.wrapper = .gate sc ∧ heap sc = some ⟨k.work, false, false⟩ ∧
    k.handle = true ∧ k.refs = 0 ∧ k.out = false ∧ k.runs = []
  | .setStartup sc => k.wrapper = .gate sc ∧ heap sc = some ⟨k.work, false, false⟩ ∧
    k.handle = true ∧ k.refs = 1 ∧ k.out = true ∧ k.runs = []
  | .closeHandle => k.Past heap true ∧ k.handle = true ∧ k.refs = 1 ∧ k.out = true
  | .setAbort sc st => k.wrapper = .gate sc ∧ heap sc = some ⟨k.work, false, false⟩ ∧
    k.handle = true ∧ k.refs = 0 ∧ k.out = false ∧ k.runs = [] ∧ ntSuccess st = false
  | .wait st => k.Past heap false ∧ k.handle = true ∧ k.refs = 0 ∧ k.out = false ∧
    ntSuccess st = false
  | .closeFailed st => k.wrapper = .exited ∧ k.runs = [] ∧ k.handle = true ∧ k.refs = 0 ∧
    ntSuccess st = false
  | .returned st => k.handle = false ∧
    if ntSuccess st then k.Past heap true ∧ k.refs = 1 ∧ k.out = true
    else (k.wrapper = .unspawned ∨ k.wrapper = .exited) ∧ k.refs = 0 ∧ k.out = false ∧ k.runs = []
  | .joined => k.wrapper = .exited ∧ k.runs = [k.work] ∧ k.handle = false ∧ k.refs = 0

/-- Every block belongs to one call, which knows what is in it. -/
structure Invariant (s : State) : Prop where
  table : ∀ c, (s.calls c).Table s.heap
  apart : ∀ {c c' a}, (s.calls c).block = some a → (s.calls c').block = some a → c = c'
  owned : ∀ {a}, s.heap a ≠ none → ∃ c, (s.calls c).block = some a
  misused : s.misused = false

variable {s t : State} {act : Action} {c : CallId} {k : Call} {sc : Addr} {x y : Startup}
  {heap heap' : Addr → Option Startup} {opened : Bool} {st wait : NtStatus} {r : Replies}

theorem Call.Past.block (h : k.Past heap opened) {a : Addr} (ha : k.wrapper.block = some a) :
    heap a ≠ none := by
  cases hw : k.wrapper with
  | unspawned | decide | body | exited => simp [hw, Wrapper.block] at ha
  | gate sc =>
    simp only [Call.Past, hw] at h
    simp only [hw, Wrapper.block, Option.some_inj] at ha
    simp [← ha, h.1]
  | read sc =>
    simp only [Call.Past, hw] at h
    simp only [hw, Wrapper.block, Option.some_inj] at ha
    simp [← ha, h.1]
  | free sc =>
    simp only [Call.Past, hw] at h
    simp only [hw, Wrapper.block, Option.some_inj] at ha
    simp [← ha, h.1]

theorem Call.Past.frame (h : k.Past heap opened)
    (he : ∀ a, k.wrapper.block = some a → heap' a = heap a) : k.Past heap' opened := by
  cases hw : k.wrapper with
  | unspawned => simp [Call.Past, hw] at h
  | gate sc =>
    have ha := he sc (by rw [hw]; rfl)
    simp only [Call.Past, hw] at h ⊢
    rwa [ha]
  | read sc =>
    have ha := he sc (by rw [hw]; rfl)
    simp only [Call.Past, hw] at h ⊢
    rwa [ha]
  | free sc =>
    have ha := he sc (by rw [hw]; rfl)
    simp only [Call.Past, hw] at h ⊢
    rwa [ha]
  | decide | body | exited =>
    simp only [Call.Past, hw] at h ⊢
    exact h

/-- A call knows of its block that it has been allocated. -/
theorem Call.Table.block (h : k.Table heap) {a : Addr} (ha : k.block = some a) : heap a ≠ none := by
  cases hc : k.creator with
  | idle | alloc =>
    simp only [Call.Table, hc] at h
    simp [Call.block, hc, h.1, Creator.block, Wrapper.block] at ha
  | fill sc | spawn sc | freeStartup sc =>
    simp only [Call.Table, hc] at h
    simp only [Call.block, hc, Creator.block, Option.or, Option.some_inj] at ha
    subst ha
    simp [h.2]
  | reference sc | setStartup sc | setAbort sc =>
    simp only [Call.Table, hc] at h
    simp only [Call.block, hc, h.1, Creator.block, Wrapper.block, Option.or, Option.some_inj] at ha
    subst ha
    simp [h.2.1]
  | closeHandle | wait =>
    simp only [Call.Table, hc] at h
    exact h.1.block (by simpa [Call.block, hc, Creator.block] using ha)
  | closeFailed | joined =>
    simp only [Call.Table, hc] at h
    simp [Call.block, hc, h.1, Creator.block, Wrapper.block] at ha
  | returned st =>
    simp only [Call.Table, hc] at h
    obtain ⟨-, h⟩ := h
    split at h
    · exact h.1.block (by simpa [Call.block, hc, Creator.block] using ha)
    · rcases h.1 with hw | hw <;> simp [Call.block, hc, hw, Creator.block, Wrapper.block] at ha

/-- Nothing but its own block matters to a call. -/
theorem Call.Table.frame (h : k.Table heap) (he : ∀ a, k.block = some a → heap' a = heap a) :
    k.Table heap' := by
  have hwrap : k.creator.block = none → ∀ a, k.wrapper.block = some a → heap' a = heap a := by
    intro hn a ha
    exact he a (by simp [Call.block, hn, ha])
  cases hc : k.creator with
  | idle | alloc | closeFailed | joined =>
    simp only [Call.Table, hc] at h ⊢
    exact h
  | fill sc | spawn sc | freeStartup sc =>
    have ha := he sc (by simp [Call.block, hc, Creator.block])
    simp only [Call.Table, hc] at h ⊢
    rwa [ha]
  | reference sc | setStartup sc | setAbort sc =>
    simp only [Call.Table, hc] at h ⊢
    have ha := hwrap (by rw [hc]; rfl) sc (by rw [h.1]; rfl)
    rwa [ha]
  | closeHandle | wait =>
    simp only [Call.Table, hc] at h ⊢
    exact ⟨h.1.frame (hwrap (by rw [hc]; rfl)), h.2⟩
  | returned st =>
    simp only [Call.Table, hc] at h ⊢
    refine ⟨h.1, ?_⟩
    cases hs : ntSuccess st with
    | false => simpa [hs] using h.2
    | true =>
      have h2 := h.2
      simp only [hs, if_true] at h2 ⊢
      exact ⟨h2.1.frame (hwrap (by rw [hc]; rfl)), h2.2⟩

/-! ### What a step of one call may do to the pool -/

theorem Invariant.allocated (hi : Invariant s) {a : Addr} (h : (s.calls c).block = some a) :
    s.heap a ≠ none := (hi.table c).block h

/-- A step of one call that leaves the blocks of the others alone. -/
theorem Invariant.update (hi : Invariant s) (hk : k.Table heap)
    (hkeep : ∀ a, (s.calls c).block ≠ some a → s.heap a ≠ none → heap a = s.heap a)
    (hmine : ∀ a, k.block = some a → (s.calls c).block = some a ∨ s.heap a = none)
    (hall : ∀ a, heap a ≠ none → k.block = some a ∨ s.heap a ≠ none ∧ (s.calls c).block ≠ some a) :
    Invariant ⟨heap, Function.update s.calls c k, s.misused⟩ := by
  have hother : ∀ {c' a}, c' ≠ c → (s.calls c').block = some a → heap a = s.heap a := by
    intro c' a hne ha
    exact hkeep a (fun hc => hne (hi.apart ha hc)) (hi.allocated ha)
  have hdis : ∀ {c' a}, c' ≠ c → (s.calls c').block = some a → k.block ≠ some a := by
    intro c' a hne ha hk
    rcases hmine a hk with hc | hn
    · exact hne (hi.apart ha hc)
    · exact hi.allocated ha hn
  refine ⟨?_, ?_, ?_, hi.misused⟩
  · intro c'
    by_cases hc : c' = c
    · subst hc
      simpa using hk
    · simp only [Function.update_of_ne hc]
      exact (hi.table c').frame fun a ha => hother hc ha
  · intro c₁ c₂ a h₁ h₂
    by_cases hc₁ : c₁ = c <;> by_cases hc₂ : c₂ = c
    · exact hc₁.trans hc₂.symm
    · subst hc₁
      simp only [Function.update_self, Function.update_of_ne hc₂] at h₁ h₂
      exact absurd h₁ (hdis hc₂ h₂)
    · subst hc₂
      simp only [Function.update_self, Function.update_of_ne hc₁] at h₁ h₂
      exact absurd h₂ (hdis hc₁ h₁)
    · simp only [Function.update_of_ne hc₁, Function.update_of_ne hc₂] at h₁ h₂
      exact hi.apart h₁ h₂
  · intro a ha
    rcases hall a ha with hk | ⟨hs, hne⟩
    · exact ⟨c, by simpa using hk⟩
    · obtain ⟨c', hc'⟩ := hi.owned hs
      refine ⟨c', ?_⟩
      have hcc : c' ≠ c := fun he => hne (he ▸ hc')
      simpa [Function.update_of_ne hcc] using hc'

/-- The pool stays as it is. -/
theorem Invariant.put (hi : Invariant s) (hk : k.Table s.heap) (hb : k.block = (s.calls c).block) :
    Invariant (s.put c k) := by
  refine hi.update hk (fun _ _ _ => rfl) (fun a ha => .inl (hb ▸ ha)) fun a ha => ?_
  by_cases hc : (s.calls c).block = some a
  · exact .inl (hb.trans hc)
  · exact .inr ⟨ha, hc⟩

/-- One block changes, which is the call's own or free. -/
theorem Invariant.set (hi : Invariant s) {v : Option Startup}
    (hs : (s.calls c).block = some sc ∨ (s.calls c).block = none ∧ s.heap sc = none)
    (hk : k.Table (Function.update s.heap sc v)) (hb : k.block = v.map fun _ => sc) :
    Invariant ⟨Function.update s.heap sc v, Function.update s.calls c k, s.misused⟩ := by
  have hother : ∀ a, a ≠ sc → Function.update s.heap sc v a = s.heap a :=
    fun a ha => Function.update_of_ne ha _ _
  refine hi.update hk ?_ ?_ ?_
  · intro a hne hall
    refine hother a ?_
    rintro rfl
    rcases hs with hs | ⟨-, hn⟩
    · exact hne hs
    · exact hall hn
  · intro a ha
    obtain ⟨-, -, rfl⟩ := Option.map_eq_some_iff.mp (hb.symm.trans ha)
    exact hs.imp_right And.right
  · intro a ha
    by_cases hc : a = sc
    · subst hc
      rw [Function.update_self] at ha
      obtain ⟨x, rfl⟩ := Option.ne_none_iff_exists'.mp ha
      exact .inl hb
    · rw [hother a hc] at ha
      refine .inr ⟨ha, fun h => ?_⟩
      rcases hs with hs | ⟨hs, -⟩
      · exact hc (Option.some_inj.mp (h.symm.trans hs))
      · rw [hs] at h
        cases h

/-- The call writes to its block. -/
theorem Invariant.write (hi : Invariant s) {f : Startup → Startup} (hx : s.heap sc = some x)
    (hs : (s.calls c).block = some sc)
    (hk : k.Table (Function.update s.heap sc (some (f x)))) (hb : k.block = some sc) :
    Invariant ((s.write sc f).put c k) := by
  have he : s.write sc f = { s with heap := Function.update s.heap sc (some (f x)) } := by
    simp [State.write, hx]
  rw [he]
  exact hi.set (.inl hs) hk hb

/-- The call gives its block back. -/
theorem Invariant.free (hi : Invariant s) (hs : (s.calls c).block = some sc)
    (hk : k.Table (Function.update s.heap sc none)) (hb : k.block = none) :
    Invariant ((s.free sc).put c k) := by
  obtain ⟨x, hx⟩ := Option.ne_none_iff_exists'.mp (hi.allocated hs)
  have he : s.free sc = { s with heap := Function.update s.heap sc none } := by
    simp [State.free, hx]
  rw [he]
  exact hi.set (.inl hs) hk hb

theorem useHandle_eq (h : (s.calls c).handle = true) : s.useHandle c = s := by
  simp [State.useHandle, h]

/-! ### Every step keeps the tables -/

theorem invariant_initial : Invariant initial where
  table _ := by simp [initial, Call.initial, Call.Table]
  apart h _ := by simp [initial, Call.initial, Call.block, Creator.block, Wrapper.block] at h
  owned h := by simp [initial] at h
  misused := rfl

theorem invariant_creator (hi : Invariant s) (h : (s.calls c).CreatorMay s.heap r) :
    Invariant (s.runCreator c r) := by
  have ht := hi.table c
  simp only [State.runCreator]
  cases hc : (s.calls c).creator with
  | idle | joined | returned => simp [Call.CreatorMay, hc] at h
  | alloc =>
    simp only [Call.CreatorMay, hc] at h
    simp only [Call.Table, hc] at ht
    cases hr : r.addr with
    | none =>
      refine hi.put ?_ (by simp [Call.block, hc, Creator.block])
      have hns : ntSuccess statusInsufficientResources = false := by decide
      simp [Call.Table, hns, ht]
    | some a =>
      refine hi.set (.inr ⟨?_, h a hr⟩) ?_ ?_
      · simp [Call.block, hc, ht, Creator.block, Wrapper.block]
      · simp [Call.Table, ht]
      · simp [Call.block, Creator.block]
  | fill sc =>
    simp only [Call.Table, hc] at ht
    obtain ⟨x, hx⟩ := Option.ne_none_iff_exists'.mp ht.2
    refine hi.write hx ?_ ?_ ?_
    · simp [Call.block, hc, Creator.block]
    · simp [Call.Table, ht]
    · simp [Call.block, Creator.block]
  | spawn sc =>
    simp only [Call.Table, hc] at ht
    cases hs : ntSuccess r.st with
    | true =>
      refine hi.put ?_ ?_
      · simp [Call.Table, ht]
      · simp [Call.block, hc, ht, Creator.block, Wrapper.block]
    | false =>
      refine hi.put ?_ ?_
      · simp [Call.Table, ht, hs]
      · simp [Call.block, hc, ht, Creator.block, Wrapper.block]
  | freeStartup sc st =>
    simp only [Call.Table, hc] at ht
    refine hi.free ?_ ?_ ?_
    · simp [Call.block, hc, Creator.block]
    · simp [Call.Table, ht]
    · simp [Call.block, ht, Creator.block, Wrapper.block]
  | reference sc =>
    simp only [Call.Table, hc] at ht
    simp only [useHandle_eq ht.2.2.1]
    cases hs : ntSuccess r.st with
    | true =>
      refine hi.put ?_ ?_
      · simp [Call.Table, ht]
      · simp [Call.block, hc, Creator.block]
    | false =>
      refine hi.put ?_ ?_
      · simp [Call.Table, ht, hs]
      · simp [Call.block, hc, Creator.block]
  | setStartup sc =>
    simp only [Call.Table, hc] at ht
    refine hi.write ht.2.1 ?_ ?_ ?_
    · simp [Call.block, hc, ht, Creator.block, Wrapper.block]
    · simp [Call.Table, Call.Past, ht]
    · simp [Call.block, ht, Creator.block, Wrapper.block]
  | closeHandle =>
    simp only [Call.Table, hc] at ht
    simp only [useHandle_eq ht.2.1]
    refine hi.put ?_ (by simp [Call.block, hc, Creator.block])
    have hs : ntSuccess statusSuccess = true := by decide
    simp only [Call.Table, hs, if_true]
    exact ⟨trivial, ht.1, ht.2.2⟩
  | setAbort sc st =>
    simp only [Call.Table, hc] at ht
    refine hi.write ht.2.1 ?_ ?_ ?_
    · simp [Call.block, hc, ht, Creator.block, Wrapper.block]
    · simp [Call.Table, Call.Past, ht]
    · simp [Call.block, ht, Creator.block, Wrapper.block]
  | wait st =>
    simp only [Call.CreatorMay, hc] at h
    simp only [Call.Table, hc] at ht
    simp only [useHandle_eq ht.2.1]
    refine hi.put ?_ (by simp [Call.block, hc, Creator.block])
    have hp := ht.1
    simp only [Call.Past, h] at hp
    simpa [Call.Table, h, ht] using hp
  | closeFailed st =>
    simp only [Call.Table, hc] at ht
    simp only [useHandle_eq ht.2.2.1]
    refine hi.put ?_ (by simp [Call.block, hc, Creator.block])
    simp [Call.Table, ht]

/-- A thread that has something to do is on its way past the gate, and how far it has come is all
that matters to its call. -/
theorem Call.Table.past (h : k.Table heap) (hu : k.wrapper ≠ .unspawned)
    (hx : k.wrapper ≠ .exited)
    (hg : ∀ sc, k.wrapper = .gate sc → heap sc ≠ some ⟨k.work, false, false⟩) :
    ∃ opened, k.Past heap opened ∧ k.creator.block = none ∧
      ∀ heap' w runs, Call.Past { k with wrapper := w, runs := runs } heap' opened →
        Call.Table { k with wrapper := w, runs := runs } heap' := by
  cases hc : k.creator with
  | idle | alloc =>
    simp only [Call.Table, hc] at h
    exact absurd h.1 hu
  | fill | spawn | freeStartup =>
    simp only [Call.Table, hc] at h
    exact absurd h.1.1 hu
  | reference sc | setStartup sc | setAbort sc =>
    simp only [Call.Table, hc] at h
    exact absurd h.2.1 (hg sc h.1)
  | closeHandle =>
    simp only [Call.Table, hc] at h
    refine ⟨true, h.1, rfl, ?_⟩
    intro heap' w runs hp
    simpa only [Call.Table, hc] using ⟨hp, h.2⟩
  | wait =>
    simp only [Call.Table, hc] at h
    refine ⟨false, h.1, rfl, ?_⟩
    intro heap' w runs hp
    simpa only [Call.Table, hc] using ⟨hp, h.2⟩
  | closeFailed | joined =>
    simp only [Call.Table, hc] at h
    exact absurd h.1 hx
  | returned st =>
    simp only [Call.Table, hc] at h
    cases hs : ntSuccess st with
    | false =>
      simp only [hs, Bool.false_eq_true, if_false] at h
      rcases h.2.1 with hw | hw
      · exact absurd hw hu
      · exact absurd hw hx
    | true =>
      simp only [hs, if_true] at h
      refine ⟨true, h.2.1, rfl, ?_⟩
      intro heap' w runs hp
      simpa only [Call.Table, hc, hs, if_true] using ⟨h.1, hp, h.2.2⟩

theorem invariant_wrapper (hi : Invariant s) (hu : (s.calls c).wrapper ≠ .unspawned)
    (hx : (s.calls c).wrapper ≠ .exited) (hg : WaitsForEvent s (.wrapper c wait)) :
    Invariant (s.runWrapper c wait) := by
  obtain ⟨opened, hp, hb, hput⟩ := (hi.table c).past hu hx (by
    intro sc hw hn
    obtain ⟨x, hx, hset⟩ := hg sc hw
    rw [hn] at hx
    cases hx
    simp at hset)
  simp only [State.runWrapper]
  cases hw : (s.calls c).wrapper with
  | unspawned => exact absurd hw hu
  | exited => exact absurd hw hx
  | gate sc =>
    simp only [Call.Past, hw] at hp
    obtain ⟨x, hx, hset⟩ := hg sc hw
    have hxe : x = ⟨(s.calls c).work, opened, !opened⟩ := Option.some_inj.mp (hx.symm.trans hp.1)
    refine hi.write hx ?_ (hput _ _ _ ?_) ?_
    · simp [Call.block, hb, hw, Wrapper.block]
    · subst hxe
      cases opened <;> simp_all [Call.Past]
    · simp [Call.block, hb, Wrapper.block]
  | read sc st =>
    simp only [Call.Past, hw] at hp
    simp only [hp.1]
    refine hi.put (hput _ _ _ ?_) ?_
    · simp [Call.Past, hp]
    · simp [Call.block, hb, hw, Wrapper.block]
  | free sc w st =>
    simp only [Call.Past, hw] at hp
    refine hi.free ?_ (hput _ _ _ ?_) ?_
    · simp [Call.block, hb, hw, Wrapper.block]
    · simp [Call.Past, hp]
    · simp [Call.block, hb, Wrapper.block]
  | decide w st =>
    simp only [Call.Past, hw] at hp
    have hne : statusWait1 ≠ statusWait0 := by decide
    by_cases hst : st = statusWait0
    · simp only [hst, if_true]
      refine hi.put (hput _ _ _ ?_) ?_
      · cases opened <;> simp_all [Call.Past]
      · simp [Call.block, hb, hw, Wrapper.block]
    · simp only [hst, if_false]
      refine hi.put (hput _ _ _ ?_) ?_
      · cases opened <;> simp_all [Call.Past]
      · simp [Call.block, hb, hw, Wrapper.block]
  | body w =>
    simp only [Call.Past, hw] at hp
    refine hi.put (hput _ _ _ ?_) ?_
    · simp [Call.Past, hp]
    · simp [Call.block, hb, hw, Wrapper.block]

theorem invariant_step (h : (system.restrict WaitsForEvent).step s act t) (hi : Invariant s) :
    Invariant t := by
  obtain ⟨hg, hst⟩ := h
  cases hst with
  | @call c w h =>
    have ht := hi.table c
    simp only [Call.Table, h] at ht
    refine hi.put ?_ ?_
    · simp [Call.Table, ht]
    · simp [Call.block, h, Creator.block]
  | creator h => exact invariant_creator hi h
  | wrapper hu hx => exact invariant_wrapper hi hu hx hg
  | @join c st h hs hx =>
    have ht := hi.table c
    simp only [Call.Table, h, hs, if_true, Call.Past, hx] at ht
    have he : (s.misused || (s.calls c).refs == 0) = s.misused := by simp [ht]
    simp only [State.join, he]
    refine hi.put ?_ ?_
    · simp [Call.Table, hx, ht]
    · simp [Call.block, h, Creator.block]

theorem invariant_reachable (h : (system.restrict WaitsForEvent).Reachable s) : Invariant s := by
  refine h.invariant ?_ invariant_step
  rintro s rfl
  exact invariant_initial

/-! ### The contract of the fence -/

theorem Call.Past.runs (h : k.Past heap opened) : (k.runs = [] ∨ k.runs = [k.work]) ∧
    (k.runs ≠ [] → opened = true) := by
  cases hw : k.wrapper <;> cases opened <;> simp_all [Call.Past]

/-- The thread of a call runs the body of the call, once at most and not before its object is the
caller's. -/
theorem Call.Table.runs (h : k.Table heap) : (k.runs = [] ∨ k.runs = [k.work]) ∧
    (k.runs ≠ [] → k.out = true ∨ k.creator = .joined) := by
  cases hc : k.creator with
  | idle | alloc | reference | setStartup | setAbort | closeFailed =>
    simp only [Call.Table, hc] at h
    simp [h]
  | fill | spawn | freeStartup =>
    simp only [Call.Table, hc] at h
    simp [h]
  | joined =>
    simp only [Call.Table, hc] at h
    simp [h]
  | closeHandle =>
    simp only [Call.Table, hc] at h
    exact ⟨h.1.runs.1, fun _ => .inl h.2.2.2⟩
  | wait =>
    simp only [Call.Table, hc] at h
    exact ⟨h.1.runs.1, fun hne => absurd (h.1.runs.2 hne) Bool.false_ne_true⟩
  | returned st =>
    simp only [Call.Table, hc] at h
    cases hs : ntSuccess st with
    | false =>
      simp only [hs, Bool.false_eq_true, if_false] at h
      simp [h]
    | true =>
      simp only [hs, if_true] at h
      exact ⟨h.2.1.runs.1, fun _ => .inl h.2.2.2⟩

theorem put_other {c' : CallId} (hne : c' ≠ c) : (s.put c' k).calls c = s.calls c :=
  Function.update_of_ne hne.symm _ _

theorem write_calls {f : Startup → Startup} : (s.write sc f).calls = s.calls := by
  unfold State.write
  split <;> rfl

theorem free_calls : (s.free sc).calls = s.calls := by
  unfold State.free
  split <;> rfl

theorem runCreator_other {c' : CallId} (hne : c' ≠ c) :
    (s.runCreator c' r).calls c = s.calls c := by
  simp only [State.runCreator]
  cases (s.calls c').creator with
  | idle | returned | joined => rfl
  | alloc => cases r.addr <;> exact put_other hne
  | fill | setStartup | setAbort => exact (put_other hne).trans (congrFun write_calls c)
  | freeStartup => exact (put_other hne).trans (congrFun free_calls c)
  | spawn | reference => simp only; split <;> exact put_other hne
  | closeHandle | wait | closeFailed => exact put_other hne

theorem runWrapper_other {c' : CallId} (hne : c' ≠ c) :
    (s.runWrapper c' wait).calls c = s.calls c := by
  simp only [State.runWrapper]
  cases (s.calls c').wrapper with
  | unspawned | exited => rfl
  | gate => exact (put_other hne).trans (congrFun write_calls c)
  | read sc =>
    cases hx : s.heap sc with
    | none => simp only [hx]
    | some x => simpa only [hx] using put_other hne
  | free => exact (put_other hne).trans (congrFun free_calls c)
  | decide => simp only; split <;> exact put_other hne
  | body => exact put_other hne

/-- The call that an action is a step of. -/
def Action.caller : Action → CallId
  | .call c _ | .creator c _ | .wrapper c _ | .join c => c

theorem step_other (h : system.step s act t) (hne : act.caller ≠ c) : t.calls c = s.calls c := by
  cases h with
  | call | join => exact put_other hne
  | creator => exact runCreator_other hne
  | wrapper => exact runWrapper_other hne

/-- A call that has failed stays as it is. -/
theorem failed_step (h : system.step s act t) (hi : Invariant s)
    (hc : (s.calls c).creator = .returned st) (hs : ntSuccess st = false) :
    t.calls c = s.calls c := by
  refine step_other h ?_
  have ht := hi.table c
  simp only [Call.Table, hc, hs, Bool.false_eq_true, if_false] at ht
  intro he
  cases h with
  | @call c' w hidle =>
    obtain rfl : c' = c := he
    simp [hc] at hidle
  | @creator c' r hmay =>
    obtain rfl : c' = c := he
    simp [Call.CreatorMay, hc] at hmay
  | @wrapper c' wait hu hx =>
    obtain rfl : c' = c := he
    exact ht.2.1.elim hu hx
  | @join c' st' hret hs' =>
    obtain rfl : c' = c := he
    cases hc.symm.trans hret
    exact absurd hs' (by simp [hs])

/-- However calls, threads and the pool take turns: no freed context is touched and no closed handle
or lost reference used; every context in the pool is that of exactly one call on its way; a thread
runs the body of its own call, once at most and not before its object is published; a call that
succeeds leaves its caller one reference to a spawned thread and no handle; a call that fails leaves
no reference, no handle and no thread, and its body is never run; after a join nothing is left. -/
theorem thread_fenced (h : (system.restrict WaitsForEvent).Reachable s) :
    s.misused = false ∧ (∀ a, s.heap a ≠ none → ∃! c, (s.calls c).block = some a) ∧
    ∀ c, let k := s.calls c
      (k.runs = [] ∨ k.runs = [k.work]) ∧
      (k.runs ≠ [] → k.out = true ∨ k.creator = .joined) ∧
      (∀ st, k.creator = .returned st → ntSuccess st = true →
        k.out = true ∧ k.refs = 1 ∧ k.handle = false ∧ k.wrapper ≠ .unspawned) ∧
      (∀ st, k.creator = .returned st → ntSuccess st = false →
        k.out = false ∧ k.refs = 0 ∧ k.handle = false ∧
        (k.wrapper = .unspawned ∨ k.wrapper = .exited) ∧
        ∀ as t, (system.restrict WaitsForEvent).Run s as t → (t.calls c).runs = []) ∧
      (k.creator = .joined →
        k.runs = [k.work] ∧ k.wrapper = .exited ∧ k.refs = 0 ∧ k.handle = false) := by
  have hi := invariant_reachable h
  refine ⟨hi.misused, ?_, fun c => ?_⟩
  · intro a ha
    obtain ⟨c, hc⟩ := hi.owned ha
    exact ⟨c, hc, fun c' hc' => hi.apart hc' hc⟩
  have ht := hi.table c
  refine ⟨ht.runs.1, ht.runs.2, ?_, ?_, ?_⟩
  · intro st hc hs
    simp only [Call.Table, hc, hs, if_true] at ht
    refine ⟨ht.2.2.2, ht.2.2.1, ht.1, ?_⟩
    intro hw
    simp [Call.Past, hw] at ht
  · intro st hc hs
    have ht' := ht
    simp only [Call.Table, hc, hs, Bool.false_eq_true, if_false] at ht'
    refine ⟨ht'.2.2.2.1, ht'.2.2.1, ht'.1, ht'.2.1, ?_⟩
    intro as t hr
    have hkeep : t.calls c = s.calls c ∧ Invariant t := by
      refine hr.preserves (I := fun u => u.calls c = s.calls c ∧ Invariant u) ?_ ⟨rfl, hi⟩
      rintro u act v hst ⟨he, hu⟩
      exact ⟨(failed_step hst.2 hu (by rw [he]; exact hc) hs).trans he, invariant_step hst hu⟩
    rw [hkeep.1]
    exact ht'.2.2.2.2
  · intro hc
    simp only [Call.Table, hc] at ht
    exact ⟨ht.2.1, ht.1, ht.2.2.2, ht.2.2.1⟩

/-- The reference of the first call fails; its context is freed and handed to the second call while
the first still waits for its thread. -/
theorem thread_fenced_reused : ∃ s, (system.restrict WaitsForEvent).Reachable s ∧
    (s.calls 0).creator = .returned statusUnsuccessful ∧ (s.calls 1).runs = [⟨7, 8⟩] ∧
    s.misused = false ∧ (s.calls 0).runs = [] := by
  have hwait : ∀ {s : State} {c : CallId} {wait : NtStatus},
      (∀ sc, (s.calls c).wrapper ≠ .gate sc) → WaitsForEvent s (.wrapper c wait) :=
    fun h sc hw => absurd hw (h sc)
  obtain ⟨s, hr, h0, h1⟩ : ∃ s, (system.restrict WaitsForEvent).Run initial
      [.call 0 ⟨5, 6⟩, .creator 0 ⟨some 3, 0⟩, .creator 0 ⟨none, 0⟩, .creator 0 ⟨none, 0⟩,
        .creator 0 ⟨none, statusUnsuccessful⟩, .creator 0 ⟨none, 0⟩, .wrapper 0 statusWait1,
        .wrapper 0 0, .wrapper 0 0, .call 1 ⟨7, 8⟩, .creator 1 ⟨some 3, 0⟩, .creator 1 ⟨none, 0⟩,
        .creator 1 ⟨none, 0⟩, .creator 1 ⟨none, 0⟩, .creator 1 ⟨none, 0⟩, .wrapper 0 0,
        .creator 0 ⟨none, 0⟩, .creator 0 ⟨none, 0⟩, .wrapper 1 statusWait0, .wrapper 1 0,
        .wrapper 1 0, .wrapper 1 0] s ∧
      (s.calls 0).creator = .returned statusUnsuccessful ∧ (s.calls 1).runs = [⟨7, 8⟩] :=
    ⟨_, .head ⟨trivial, .call rfl⟩ <|
      .head ⟨trivial, .creator (by rintro a ⟨⟩; rfl)⟩ <| .head ⟨trivial, .creator trivial⟩ <|
      .head ⟨trivial, .creator trivial⟩ <| .head ⟨trivial, .creator trivial⟩ <|
      .head ⟨trivial, .creator trivial⟩ <|
      .head ⟨by rintro sc ⟨⟩; exact ⟨_, rfl, .inr ⟨rfl, rfl⟩⟩, .wrapper nofun nofun⟩ <|
      .head ⟨hwait nofun, .wrapper nofun nofun⟩ <| .head ⟨hwait nofun, .wrapper nofun nofun⟩ <|
      .head ⟨trivial, .call rfl⟩ <|
      .head ⟨trivial, .creator (by rintro a ⟨⟩; rfl)⟩ <| .head ⟨trivial, .creator trivial⟩ <|
      .head ⟨trivial, .creator trivial⟩ <| .head ⟨trivial, .creator trivial⟩ <|
      .head ⟨trivial, .creator trivial⟩ <| .head ⟨hwait nofun, .wrapper nofun nofun⟩ <|
      .head ⟨trivial, .creator rfl⟩ <| .head ⟨trivial, .creator trivial⟩ <|
      .head ⟨by rintro sc ⟨⟩; exact ⟨_, rfl, .inl ⟨rfl, rfl⟩⟩, .wrapper nofun nofun⟩ <|
      .head ⟨hwait nofun, .wrapper nofun nofun⟩ <| .head ⟨hwait nofun, .wrapper nofun nofun⟩ <|
      .head ⟨hwait nofun, .wrapper nofun nofun⟩ .refl, rfl, rfl⟩
  have hreach : (system.restrict WaitsForEvent).Reachable s := ⟨initial, _, rfl, hr⟩
  obtain ⟨hm, -, hcalls⟩ := thread_fenced hreach
  obtain ⟨-, -, -, hfail, -⟩ := hcalls 0
  exact ⟨s, hreach, h0, h1, hm, (hfail _ h0 (by decide)).2.2.2.2 _ _ .refl⟩

/-- A wait at the gate that ended with an error would free the context under its creator. -/
theorem wait_error_misuses : ∃ s, system.Reachable s ∧ s.misused = true := by
  obtain ⟨s, hr, hm⟩ : ∃ s, system.Run initial [.call 0 ⟨5, 6⟩, .creator 0 ⟨some 3, 0⟩,
      .creator 0 ⟨none, 0⟩, .creator 0 ⟨none, 0⟩, .wrapper 0 statusUnsuccessful, .wrapper 0 0,
      .wrapper 0 0, .creator 0 ⟨none, 0⟩, .creator 0 ⟨none, 0⟩] s ∧ s.misused = true :=
    ⟨_, .head (.call rfl) <| .head (.creator (by rintro a ⟨⟩; rfl)) <| .head (.creator trivial) <|
      .head (.creator trivial) <| .head (.wrapper nofun nofun) <| .head (.wrapper nofun nofun) <|
      .head (.wrapper nofun nofun) <| .head (.creator trivial) <|
      .head (.creator trivial) .refl, rfl⟩
  exact ⟨s, ⟨initial, _, rfl, hr⟩, hm⟩

end Sentinel.ThreadFence
