import Sentinel.Packet.Injection

/-! Which handles and pools exist at each step of `packet/injection.c`, and which are given back. -/
namespace Sentinel.Injection

open Transition

variable {s t : State} {a : Action} {as : List Action} {r r' : Resource} {v6 : Bool}
  {rep : Replies} {us : List Undo}

/-- The global is set and the resource is there. -/
def State.Held (s : State) (r : Resource) : Prop := s.global r = true ∧ s.live r = true

def State.Gone (s : State) (r : Resource) : Prop := s.global r = false ∧ s.live r = false

/-- Its destroy is confirmed and its global is NULL. -/
def State.Deleted (s : State) (v6 : Bool) : Prop :=
  (s.track v6).state = .deleted ∧ s.Gone (.handle v6)

/-- A handle is there until its destroy is confirmed. -/
def State.Tracked (s : State) (v6 : Bool) : Prop :=
  ((s.track v6).state = .unregistered ∨ (s.track v6).state = .leaked) ∧ s.Held (.handle v6) ∨
    s.Deleted v6

def State.PoolsHeld (s : State) : Prop := s.Held .nblPool ∧ s.Held .nbPool

/-- The cleanup of a failed `SkInjectInit`: each statement to come finds its resource. -/
structure State.Undoing (s : State) (us : List Undo) : Prop where
  track : ∀ v6, s.track v6 = .init
  nodup : us.Nodup
  global : ∀ r, s.global r = true → .clear r ∈ us
  live : ∀ r, .release r ∈ us → s.live r = true
  nblPool : s.live .nblPool = true → .release .nblPool ∈ us
  nbPool : s.Gone .nbPool

/-- Where the main thread stands says which resources there are. -/
def State.Table (s : State) : Prop :=
  match s.main with
  | .init | .create false => (∀ v6, s.track v6 = .init) ∧ ∀ r, s.Gone r
  | .create true => (∀ v6, s.track v6 = .init) ∧ s.Held (.handle false) ∧
      s.Gone (.handle true) ∧ s.Gone .nblPool ∧ s.Gone .nbPool
  | .allocNblPool => (∀ v6, s.track v6 = .init) ∧ (∀ v6, s.Held (.handle v6)) ∧
      s.Gone .nblPool ∧ s.Gone .nbPool
  | .allocNbPool => (∀ v6, s.track v6 = .init) ∧ (∀ v6, s.Held (.handle v6)) ∧
      s.Held .nblPool ∧ s.Gone .nbPool
  | .undo us => s.Undoing us
  | .failed => s.Undoing []
  | .ready | .resetCount | .resetUnderflows | .activate | .active | .quiesce | .gateStop
  | .drain _ | .notQuiesced => s.PoolsHeld ∧ ∀ v6, s.Tracked v6
  | .destroy v6 attempt => s.PoolsHeld ∧ (∀ v6, s.Tracked v6) ∧
      (v6 = true → s.Deleted false) ∧ (attempt ≠ 0 → (s.track v6).state = .unregistered)
  | .clearHandle v6 => s.PoolsHeld ∧ (s.track v6).state = .deleted ∧
      s.live (.handle v6) = false ∧ if v6 then s.Deleted false else s.Tracked true
  | .quiesced => s.PoolsHeld ∧ ∀ v6, s.Deleted v6
  | .freePool r => (∀ v6, s.Deleted v6) ∧
      (r = .nbPool ∧ s.PoolsHeld ∨ r = .nblPool ∧ s.Gone .nbPool ∧ s.Held .nblPool)
  | .clearPool r => (∀ v6, s.Deleted v6) ∧ s.live r = false ∧
      (r = .nbPool ∧ s.Held .nblPool ∨ r = .nblPool ∧ s.Gone .nbPool)
  | .destroyed => (∀ v6, s.Deleted v6) ∧ s.Gone .nblPool ∧ s.Gone .nbPool

/-- `g_SkInjectInited`. -/
def Main.inited : Main → Bool
  | .init | .failed => false
  | _ => true

structure State.Ledger (s : State) : Prop where
  inited : s.inited = s.main.inited
  table : s.Table
  misused : s.misused = false

/-! ### The operations on one resource -/

theorem forall_resource {P : Resource → Prop} :
    (∀ r, P r) ↔ (∀ v6, P (.handle v6)) ∧ P .nblPool ∧ P .nbPool := by
  constructor
  · intro h
    exact ⟨fun v6 => h _, h _, h _⟩
  · rintro ⟨h, hl, hb⟩ (v6 | _ | _)
    · exact h v6
    · exact hl
    · exact hb

@[simp] theorem made_global : (s.made r).global = Function.update s.global r true := rfl

@[simp] theorem made_live : (s.made r).live = Function.update s.live r true := rfl

@[simp] theorem made_track : (s.made r).track = s.track := rfl

@[simp] theorem made_inited : (s.made r).inited = s.inited := rfl

@[simp] theorem made_misused : (s.made r).misused = s.misused := rfl

@[simp] theorem clear_global : (s.clear r).global = Function.update s.global r false := rfl

@[simp] theorem clear_live : (s.clear r).live = s.live := rfl

@[simp] theorem clear_track : (s.clear r).track = s.track := rfl

@[simp] theorem clear_inited : (s.clear r).inited = s.inited := rfl

@[simp] theorem clear_misused : (s.clear r).misused = s.misused := rfl

@[simp] theorem giveBack_global {ok : Bool} : (s.giveBack r ok).global = s.global := rfl

@[simp] theorem giveBack_track {ok : Bool} : (s.giveBack r ok).track = s.track := rfl

@[simp] theorem giveBack_inited {ok : Bool} : (s.giveBack r ok).inited = s.inited := rfl

@[simp] theorem giveBack_live {ok : Bool} : (s.giveBack r ok).live =
    if ok then Function.update s.live r false else s.live := rfl

/-- Only what exists may be given back. -/
theorem giveBack_misused (ok : Bool) (hm : s.misused = false) (hl : s.live r = true) :
    (s.giveBack r ok).misused = false := by
  simp [State.giveBack, hm, hl]

theorem held_made (s : State) (r : Resource) : (s.made r).Held r := by simp [State.Held]

theorem State.Held.made (h : s.Held r) (r' : Resource) : (s.made r').Held r := by
  by_cases hr : r = r'
  · exact hr ▸ held_made s r
  · simpa [State.Held, Function.update_of_ne hr] using h

theorem State.Gone.made (h : s.Gone r) (r' : Resource) (hr : r ≠ r') : (s.made r').Gone r := by
  simpa [State.Gone, Function.update_of_ne hr] using h

theorem State.Held.clear (h : s.Held r) (hr : r ≠ r') : (s.clear r').Held r := by
  simpa [State.Held, Function.update_of_ne hr] using h

theorem State.Gone.clear (h : s.Gone r) (r' : Resource) : (s.clear r').Gone r := by
  refine ⟨?_, h.2⟩
  by_cases hr : r = r'
  · simp [hr]
  · simpa [Function.update_of_ne hr] using h.1

/-! ### The failure paths of `SkInjectInit` -/

/-- What is there is given back and cleared by the statements to come. -/
def State.Due (s : State) (us : List Undo) (r : Resource) : Prop :=
  s.Held r ∧ .release r ∈ us ∧ .clear r ∈ us ∨ s.Gone r ∧ .release r ∉ us

theorem undoing_of_due (htrack : ∀ v6, s.track v6 = .init) (hnodup : us.Nodup)
    (h : ∀ r, s.Due us r) (hb : .release .nbPool ∉ us) : s.Undoing us where
  track := htrack
  nodup := hnodup
  global r hg := by
    rcases h r with ⟨-, -, hc⟩ | ⟨hgone, -⟩
    · exact hc
    · rw [hgone.1] at hg
      cases hg
  live r hr := by
    rcases h r with ⟨hheld, -⟩ | ⟨-, hn⟩
    · exact hheld.2
    · exact absurd hr hn
  nblPool hl := by
    rcases h .nblPool with ⟨-, hr, -⟩ | ⟨hgone, -⟩
    · exact hr
    · rw [hgone.2] at hl
      cases hl
  nbPool := by
    rcases h .nbPool with ⟨-, hr, -⟩ | ⟨hgone, -⟩
    · exact absurd hr hb
    · exact hgone

theorem undoing_release (ok : Bool) (h : s.Undoing (.release r :: us))
    (hok : r = .nblPool → ok = true) : (s.giveBack r ok).Undoing us where
  track := h.track
  nodup := (List.nodup_cons.mp h.nodup).2
  global r' hr' := by simpa using h.global r' hr'
  live r' hr' := by
    have hne : r' ≠ r := by
      rintro rfl
      exact (List.nodup_cons.mp h.nodup).1 hr'
    have hl := h.live r' (List.mem_cons_of_mem _ hr')
    cases ok <;> simp [hl, hne]
  nblPool hl := by
    by_cases hr : r = .nblPool
    · subst hr
      simp [hok rfl] at hl
    · have hl' : s.live .nblPool = true := by
        cases ok <;> simpa [Function.update_of_ne (Ne.symm hr)] using hl
      simpa [Ne.symm hr] using h.nblPool hl'
  nbPool := by
    have hne : r ≠ .nbPool := by
      rintro rfl
      have hl := h.live _ (List.mem_cons_self ..)
      rw [h.nbPool.2] at hl
      exact Bool.false_ne_true hl
    refine ⟨h.nbPool.1, ?_⟩
    cases ok <;> simp [h.nbPool.2, Function.update_of_ne hne.symm]

theorem undoing_clear (h : s.Undoing (.clear r :: us)) : (s.clear r).Undoing us where
  track := h.track
  nodup := (List.nodup_cons.mp h.nodup).2
  global r' hr' := by
    have hne : r' ≠ r := by
      rintro rfl
      simp at hr'
    simpa [hne] using h.global r' (by simpa [hne] using hr')
  live r' hr' := h.live r' (List.mem_cons_of_mem _ hr')
  nblPool hl := by simpa using h.nblPool hl
  nbPool := by
    refine ⟨?_, h.nbPool.2⟩
    by_cases hr : r = .nbPool
    · simp [hr]
    · simpa [Function.update_of_ne (Ne.symm hr)] using h.nbPool.1

/-- The second handle could not be created. -/
theorem due_create (hv4 : s.Held (.handle false)) (hv6 : s.Gone (.handle true))
    (hl : s.Gone .nblPool) (hb : s.Gone .nbPool) (r : Resource) :
    (s.clear (.handle true)).Due [.release (.handle false), .clear (.handle false)] r := by
  have hne : Resource.handle false ≠ .handle true := by decide
  revert r
  refine forall_resource.mpr ⟨?_, .inr ⟨hl.clear _, by decide⟩, .inr ⟨hb.clear _, by decide⟩⟩
  rintro (_ | _)
  · exact .inl ⟨hv4.clear hne, by decide, by decide⟩
  · exact .inr ⟨hv6.clear _, by decide⟩

/-- A pool could not be allocated. -/
theorem due_alloc (hh : ∀ v6, s.Held (.handle v6)) (hl : s.Due us .nblPool)
    (hb : s.Gone .nbPool) (hus : ∀ v6, .release (.handle v6) ∈ us ∧ .clear (.handle v6) ∈ us)
    (hn : .release .nbPool ∉ us) (r : Resource) : s.Due us r := by
  revert r
  exact forall_resource.mpr ⟨fun v6 => .inl ⟨hh v6, hus v6⟩, hl, .inr ⟨hb, hn⟩⟩

/-- A call of `SkInjectInit`, up to its statements for a failure. -/
def Main.creating : Main → Bool
  | .create _ | .allocNblPool | .allocNbPool => true
  | _ => false

/-- A call of `SkInjectInit` that fails. -/
structure Failing (s t : State) (us : List Undo) : Prop where
  inited : t.inited = s.inited
  misused : t.misused = s.misused
  track : ∀ v6, t.track v6 = .init
  nodup : us.Nodup
  due : ∀ r, t.Due us r
  nbPool : .release .nbPool ∉ us

/-- What a call that fails leaves is what the statements after it take back. -/
theorem failing_runMain (ht : s.Table) (hm : s.main.creating = true)
    (hu : (s.runMain rep).main = .undo us) : Failing s (s.runMain rep) us := by
  cases hc : s.main with
  | create v6 =>
    simp only [State.Table, hc] at ht
    simp only [State.runMain, hc] at hu ⊢
    split at hu
    · cases v6 <;> cases hu
    rename_i hst
    rw [if_neg hst]
    cases v6 with
    | false =>
      obtain rfl : [] = us := Main.undo.inj hu
      exact ⟨rfl, rfl, ht.1, by decide, fun r => .inr ⟨(ht.2 r).clear _, List.not_mem_nil⟩,
        by decide⟩
    | true =>
      obtain ⟨htr, hv4, hv6, hl, hb⟩ := ht
      obtain rfl : [.release (.handle false), .clear (.handle false)] = us := Main.undo.inj hu
      exact ⟨rfl, rfl, htr, by decide, due_create hv4 hv6 hl hb, by decide⟩
  | allocNblPool =>
    simp only [State.Table, hc] at ht
    obtain ⟨htr, hh, hl, hb⟩ := ht
    simp only [State.runMain, hc] at hu ⊢
    split at hu
    · cases hu
    rename_i ha
    obtain rfl := Main.undo.inj hu
    rw [if_neg ha]
    refine ⟨rfl, rfl, htr, by decide, ?_, by decide⟩
    exact due_alloc hh (.inr ⟨hl, by decide⟩) hb (by decide) (by decide)
  | allocNbPool =>
    simp only [State.Table, hc] at ht
    obtain ⟨htr, hh, hl, hb⟩ := ht
    simp only [State.runMain, hc] at hu ⊢
    split at hu
    · cases hu
    rename_i ha
    obtain rfl := Main.undo.inj hu
    rw [if_neg ha]
    refine ⟨rfl, rfl, htr, by decide, ?_, by decide⟩
    exact due_alloc hh (.inl ⟨hl, by decide, by decide⟩) hb (by decide) (by decide)
  | _ => simp [Main.creating, hc] at hm

theorem ledger_failing (hi : s.Ledger) (hm : s.main.creating = true)
    (hu : (s.runMain rep).main = .undo us) : (s.runMain rep).Ledger := by
  have hf := failing_runMain hi.table hm hu
  refine ⟨?_, ?_, hf.misused.trans hi.misused⟩
  · rw [hf.inited, hi.inited, hu]
    cases hs : s.main <;> simp [Main.creating, hs] at hm <;> rfl
  · simp only [State.Table, hu]
    exact undoing_of_due hf.track hf.nodup hf.due hf.nbPool

theorem ledger_create (hi : s.Ledger) (hm : s.main = .create v6) : (s.runMain rep).Ledger := by
  by_cases hst : ntSuccess rep.st = true
  · obtain ⟨hin, ht, hu⟩ := hi
    rw [hm] at hin
    simp only [State.Table, hm] at ht
    cases v6 with
    | false =>
      obtain ⟨htr, hgone⟩ := ht
      have he : s.runMain rep = { s.made (.handle false) with main := .create true } := by
        simp [State.runMain, hm, hst]
      rw [he]
      have hkeep : ∀ r, r ≠ .handle false → (s.made (.handle false)).Gone r :=
        fun r hr => (hgone r).made _ hr
      exact ⟨hin, ⟨htr, held_made s (.handle false), hkeep (.handle true) (by decide),
        hkeep .nblPool (by decide), hkeep .nbPool (by decide)⟩, hu⟩
    | true =>
      obtain ⟨htr, hv4, -, hl, hb⟩ := ht
      have he : s.runMain rep = { s.made (.handle true) with main := .allocNblPool } := by
        simp [State.runMain, hm, hst]
      have hh : ∀ v6, (s.made (.handle true)).Held (.handle v6) := by
        rintro (_ | _)
        · exact hv4.made _
        · exact held_made s (.handle true)
      rw [he]
      exact ⟨hin, ⟨htr, hh, hl.made (.handle true) (by decide),
        hb.made (.handle true) (by decide)⟩, hu⟩
  · have hu : ∃ us, (s.runMain rep).main = .undo us := ⟨_, by simp [State.runMain, hm, hst]; rfl⟩
    obtain ⟨us, hu⟩ := hu
    exact ledger_failing hi (by rw [hm]; rfl) hu

theorem ledger_alloc (hi : s.Ledger) (hm : s.main = .allocNblPool ∨ s.main = .allocNbPool) :
    (s.runMain rep).Ledger := by
  by_cases ha : rep.alloc = true
  · obtain ⟨hin, ht, hu⟩ := hi
    rcases hm with hm | hm
    · rw [hm] at hin
      simp only [State.Table, hm] at ht
      obtain ⟨htr, hh, -, hb⟩ := ht
      have he : s.runMain rep = { s.made .nblPool with main := .allocNbPool } := by
        simp [State.runMain, hm, ha]
      rw [he]
      exact ⟨hin, ⟨htr, fun v6 => (hh v6).made .nblPool, held_made s .nblPool,
        hb.made .nblPool (by decide)⟩, hu⟩
    · rw [hm] at hin
      simp only [State.Table, hm] at ht
      obtain ⟨htr, hh, hl, -⟩ := ht
      have he : s.runMain rep = { s.made .nbPool with main := .ready } := by
        simp [State.runMain, hm, ha]
      have htracked : ∀ v6, (s.made .nbPool).Tracked v6 := by
        intro v6
        exact .inl ⟨.inl (by rw [made_track, htr v6]; rfl), (hh v6).made _⟩
      rw [he]
      exact ⟨hin, ⟨⟨hl.made .nbPool, held_made s .nbPool⟩, htracked⟩, hu⟩
  · rcases hm with hm | hm
    · have hundo : (s.runMain rep).main = .undo [.release (.handle true), .release (.handle false),
          .clear (.handle true), .clear (.handle false)] := by
        simp [State.runMain, hm, ha]
      exact ledger_failing hi (by rw [hm]; rfl) hundo
    · exact ledger_failing hi (by rw [hm]; rfl) (by simp [State.runMain, hm, ha]; rfl)

theorem ledger_init (hi : s.Ledger) (hm : s.main = .init) : (s.runMain rep).Ledger := by
  obtain ⟨hin, ht, hu⟩ := hi
  simp only [State.Table, hm] at ht
  have hf : s.inited = false := by
    rw [hin, hm]
    rfl
  have he : s.runMain rep =
      { s with inited := true, track := fun _ => .init, main := .create false } := by
    simp [State.runMain, hm, hf]
  rw [he]
  exact ⟨rfl, ⟨fun _ => rfl, ht.2⟩, hu⟩

theorem ledger_undo (hi : s.Ledger) (hm : s.main = .undo us) : (s.runMain rep).Ledger := by
  obtain ⟨hin, ht, hu⟩ := hi
  simp only [State.Table, hm] at ht
  rw [hm] at hin
  rcases us with _ | ⟨r | r, us⟩ <;> refine ⟨?_, ?_, ?_⟩ <;> simp only [State.runMain, hm]
  · rfl
  · exact ⟨ht.track, ht.nodup, ht.global, ht.live, ht.nblPool, ht.nbPool⟩
  · exact hu
  · exact hin
  · have h := undoing_release (rep.st == statusSuccess || r == .nblPool || r == .nbPool)
      ht (by rintro rfl; simp)
    exact ⟨h.track, h.nodup, h.global, h.live, h.nblPool, h.nbPool⟩
  · exact giveBack_misused _ hu (ht.live r (List.mem_cons_self ..))
  · exact hin
  · have h := undoing_clear ht
    exact ⟨h.track, h.nodup, h.global, h.live, h.nblPool, h.nbPool⟩
  · exact hu

/-! ### Quiesce and destroy -/

/-- The main thread goes on to another place where the same holds. -/
theorem ledger_started (hi : s.Ledger) (hm : s.main = .ready ∨ s.main = .resetCount ∨
    s.main = .resetUnderflows ∨ s.main = .activate ∨ s.main = .active ∨ s.main = .quiesce ∨
    s.main = .gateStop ∨ (∃ i, s.main = .drain i) ∨ s.main = .notQuiesced) :
    (s.runMain rep).Ledger := by
  obtain ⟨hin, ht, hu⟩ := hi
  rcases hm with hm | hm | hm | hm | hm | hm | hm | ⟨i, hm⟩ | hm <;>
    rw [hm] at hin <;> simp only [State.Table, hm] at ht <;>
    simp only [State.runMain, hm] <;> (repeat' split)
  all_goals try exact ⟨hin, ht, hu⟩
  · rename_i hf
    exact absurd (hin.trans rfl) hf
  · exact ⟨hin, ⟨ht.1, ht.2, nofun, fun h => absurd rfl h⟩, hu⟩

/-- What a round of `ShInjectionDestroyTracked` comes to. -/
inductive Destroyed (s : State) (v6 : Bool) (attempt : ℕ) : State → Prop where
  /-- An earlier quiesce has destroyed the handle. -/
  | again (h : (s.track v6).state = .deleted) :
      Destroyed s v6 attempt { s with main := .clearHandle v6 }
  /-- An earlier quiesce has given the handle up. -/
  | refused (h : (s.track v6).state = .leaked) : Destroyed s v6 attempt
      { s with runtime := s.runtime.recordBlock .injectionDrain, main := .notQuiesced }
  | deleted (o : Track) (h : (s.track v6).state = .unregistered) (ho : o.state = .deleted) :
      Destroyed s v6 attempt { s.giveBack (.handle v6) true with
        track := Function.update s.track v6 o, main := .clearHandle v6 }
  | leaked (o : Track) (h : (s.track v6).state = .unregistered) (ho : o.state = .leaked) :
      Destroyed s v6 attempt { s.giveBack (.handle v6) false with
        track := Function.update s.track v6 o
        runtime := s.runtime.recordBlock .injectionDrain, main := .notQuiesced }
  | busy (o : Track) (h : (s.track v6).state = .unregistered) (ho : o.state = .unregistered) :
      Destroyed s v6 attempt { s.giveBack (.handle v6) false with
        track := Function.update s.track v6 o, main := .destroy v6 (attempt + 1) }

theorem destroy_round {attempt : ℕ} (st : NtStatus) (h : (s.track v6).state = .unregistered)
    (hg : s.global (.handle v6) = true) :
    Destroyed s v6 attempt (s.destroyTracked v6 attempt st) := by
  have hd : ¬ (attempt = 0 ∧ (s.global (.handle v6) = false ∨
      (s.track v6).state = .deleted)) := by simp [hg, h]
  have hl : ¬ (attempt = 0 ∧ (s.track v6).state = .leaked) := by simp [h]
  rw [State.destroyTracked, if_neg hd, if_neg hl]
  by_cases hs : st = statusSuccess
  · subst hs
    simp only [Track.destroyRound, State.afterDestroy, Function.update_self, if_true,
      beq_self_eq_true]
    exact .deleted _ h rfl
  have hb : (st == statusSuccess) = false := by simpa using hs
  by_cases hbusy : st ≠ statusDeviceBusy
  · have he : (s.track v6).destroyRound st attempt = (⟨.leaked, attempt, st⟩, some st) := by
      simp [Track.destroyRound, hs, hbusy]
    simp only [he, hb, State.afterDestroy, Function.update_self, reduceCtorEq, if_false, hs,
      ne_eq, not_false_iff, if_true]
    exact .leaked _ h rfl
  by_cases hle : injectBusyRetries ≤ attempt
  · have he : (s.track v6).destroyRound st attempt =
        (⟨.leaked, attempt + 1, st⟩, some st) := by
      simp [Track.destroyRound, hs, hbusy, hle]
    simp only [he, hb, State.afterDestroy, Function.update_self, reduceCtorEq, if_false, hs,
      ne_eq, not_false_iff, if_true]
    exact .leaked _ h rfl
  · have he : (s.track v6).destroyRound st attempt =
        ({ s.track v6 with lastStatus := st }, none) := by
      simp [Track.destroyRound, hs, hbusy, hle]
    simp only [he, hb]
    exact .busy _ h h

/-- Only what the table allows to be destroyed is given to WFP. -/
theorem destroy_cases {attempt : ℕ} (rep : Replies) (ht : s.Table)
    (hm : s.main = .destroy v6 attempt) :
    Destroyed s v6 attempt (s.runMain rep) := by
  simp only [State.Table, hm] at ht
  obtain ⟨-, htr, -, hat⟩ := ht
  have hr : s.runMain rep = s.destroyTracked v6 attempt rep.st := by simp [State.runMain, hm]
  rw [hr]
  rcases htr v6 with ⟨hu | hl, hg⟩ | hd
  · exact destroy_round rep.st hu hg.1
  · have h0 : attempt = 0 := by
      by_contra h0
      rw [hat h0] at hl
      cases hl
    have hb : statusDeviceBusy ≠ statusSuccess := by decide
    have he : s.destroyTracked v6 attempt rep.st =
        { s with runtime := s.runtime.recordBlock .injectionDrain, main := .notQuiesced } := by
      simp [State.destroyTracked, h0, hl, hg.1, State.afterDestroy, hb]
    rw [he]
    exact .refused hl
  · have h0 : attempt = 0 := by
      by_contra h0
      have hc := hd.1
      rw [hat h0] at hc
      cases hc
    have he : s.destroyTracked v6 attempt rep.st = { s with main := .clearHandle v6 } := by
      simp [State.destroyTracked, h0, hd.1, State.afterDestroy]
    rw [he]
    exact .again hd.1

theorem tracked_live (h : s.Tracked v6) (hu : (s.track v6).state = .unregistered) :
    s.live (.handle v6) = true := by
  rcases h with ⟨-, hg⟩ | hd
  · exact hg.2
  · rw [hd.1] at hu
    cases hu

/-- A round that does not confirm the destroy keeps what is tracked. -/
theorem tracked_update {o : Track} (htr : ∀ w, s.Tracked w)
    (h : (s.track v6).state = .unregistered)
    (ho : o.state = .unregistered ∨ o.state = .leaked)
    (hk : t.track = Function.update s.track v6 o) (hg : t.global = s.global)
    (hl : t.live = s.live) (w : Bool) : t.Tracked w := by
  have hheld : ∀ r, s.Held r → t.Held r := fun r hr => ⟨hg ▸ hr.1, hl ▸ hr.2⟩
  by_cases hw : w = v6
  · subst hw
    have ho' : (t.track w).state = .unregistered ∨ (t.track w).state = .leaked := by
      rw [hk, Function.update_self]
      exact ho
    rcases htr w with ⟨-, hr⟩ | hd
    · exact .inl ⟨ho', hheld _ hr⟩
    · rw [hd.1] at h
      cases h
  · have htw : t.track w = s.track w := by rw [hk, Function.update_of_ne hw]
    rcases htr w with ⟨hs, hr⟩ | ⟨hd, hgone⟩
    · exact .inl ⟨htw ▸ hs, hheld _ hr⟩
    · exact .inr ⟨htw ▸ hd, hg ▸ hgone.1, hl ▸ hgone.2⟩

theorem ledger_destroy {attempt : ℕ} (hi : s.Ledger) (hm : s.main = .destroy v6 attempt) :
    (s.runMain rep).Ledger := by
  obtain ⟨hin, ht, hu⟩ := hi
  have hr := destroy_cases rep ht hm
  simp only [State.Table, hm] at ht
  obtain ⟨hp, htr, hf, -⟩ := ht
  rw [hm] at hin
  generalize s.runMain rep = t at hr
  cases hr with
  | again h =>
    refine ⟨hin, ⟨hp, h, ?_, ?_⟩, hu⟩
    · rcases htr v6 with ⟨hs, -⟩ | hd
      · simp [h] at hs
      · exact hd.2.2
    · cases v6
      · exact htr true
      · exact hf rfl
  | refused h => exact ⟨hin, ⟨hp, htr⟩, hu⟩
  | deleted o h ho =>
    refine ⟨hin, ⟨hp, by simp [ho], by simp, ?_⟩,
      giveBack_misused true hu (tracked_live (htr v6) h)⟩
    -- The handle of the other family is as it was.
    cases v6
    · have hother := htr true
      simpa [State.Tracked, State.Deleted, State.Held, State.Gone, Function.update_apply]
        using hother
    · have hother := hf rfl
      simpa [State.Deleted, State.Gone, Function.update_apply] using hother
  | leaked o h ho =>
    exact ⟨hin, ⟨hp, tracked_update htr h (.inr ho) rfl rfl rfl⟩,
      giveBack_misused false hu (tracked_live (htr v6) h)⟩
  | busy o h ho =>
    refine ⟨hin, ⟨hp, tracked_update htr h (.inl ho) rfl rfl rfl, fun hv => ?_,
      fun _ => by simp [ho]⟩, giveBack_misused false hu (tracked_live (htr v6) h)⟩
    have hother := hf hv
    subst hv
    simpa [State.Deleted, State.Gone, Function.update_apply] using hother

theorem ledger_clearHandle (hi : s.Ledger) (hm : s.main = .clearHandle v6) :
    (s.runMain rep).Ledger := by
  obtain ⟨hin, ht, hu⟩ := hi
  simp only [State.Table, hm] at ht
  obtain ⟨hp, hd, hl, ho⟩ := ht
  rw [hm] at hin
  cases v6
  · refine ⟨?_, ?_, ?_⟩ <;> simp only [State.runMain, hm, State.nextHandle]
    · exact hin
    · refine ⟨by simpa [State.PoolsHeld, State.Held] using hp, ?_, ?_, fun h => absurd rfl h⟩
      · rintro (_ | _)
        · exact .inr ⟨hd, by simp, hl⟩
        · simpa [State.Tracked, State.Deleted, State.Held, State.Gone] using ho
      · exact fun _ => ⟨hd, by simp, hl⟩
    · exact hu
  · refine ⟨?_, ?_, ?_⟩ <;> simp only [State.runMain, hm, State.nextHandle]
    · exact hin
    · refine ⟨by simpa [State.PoolsHeld, State.Held] using hp, ?_⟩
      rintro (_ | _)
      · simpa [State.Deleted, State.Gone] using ho
      · exact ⟨hd, by simp, hl⟩
    · exact hu

theorem ledger_pools (hi : s.Ledger) (hm : s.main = .quiesced ∨ (∃ r, s.main = .freePool r) ∨
    (∃ r, s.main = .clearPool r) ∨ s.main = .destroyed ∨ s.main = .failed) :
    (s.runMain rep).Ledger := by
  obtain ⟨hin, ht, hu⟩ := hi
  rcases hm with hm | ⟨r, hm⟩ | ⟨r, hm⟩ | hm | hm <;> rw [hm] at hin <;>
    simp only [State.Table, hm] at ht
  · simp only [State.runMain, hm]
    split
    · exact ⟨hin, ⟨ht.2, .inl ⟨rfl, ht.1⟩⟩, hu⟩
    · exact ⟨hin, ⟨ht.1, fun v6 => .inr (ht.2 v6)⟩, hu⟩
  · obtain ⟨hd, hr⟩ := ht
    have hg : s.Held r := by
      rcases hr with ⟨rfl, hp⟩ | ⟨rfl, -, hp⟩
      · exact hp.2
      · exact hp
    refine ⟨?_, ?_, ?_⟩ <;> simp only [State.runMain, hm, hg.1, if_true]
    · exact hin
    · refine ⟨fun v6 => ?_, by simp, ?_⟩
      · rcases hr with ⟨rfl, -⟩ | ⟨rfl, -⟩ <;>
          simpa [State.Deleted, State.Gone, Function.update_apply] using hd v6
      · rcases hr with ⟨rfl, hp⟩ | ⟨rfl, hp⟩
        · exact .inl ⟨rfl, by simpa [State.Held, Function.update_apply] using hp.1⟩
        · exact .inr ⟨rfl, by simpa [State.Gone, Function.update_apply] using hp.1⟩
    · exact giveBack_misused true hu hg.2
  · obtain ⟨hd, hl, hr⟩ := ht
    rcases hr with ⟨rfl, hp⟩ | ⟨rfl, hp⟩ <;>
      refine ⟨?_, ?_, ?_⟩ <;> simp only [State.runMain, hm, State.nextPool]
    · exact hin
    · refine ⟨fun v6 => by simpa [State.Deleted, State.Gone] using hd v6, .inr ⟨rfl, ?_, ?_⟩⟩
      · exact ⟨by simp, hl⟩
      · simpa [State.Held] using hp
    · exact hu
    · exact hin
    · simp only [reduceCtorEq, if_false, State.Table]
      refine ⟨fun v6 => ?_, ⟨by simp, hl⟩, ?_⟩
      · simpa [State.Deleted, State.Gone] using hd v6
      · simpa [State.Gone] using hp
    · exact hu
  · have hs : s.runMain rep = s := by simp [State.runMain, hm]
    rw [hs]
    exact ⟨hm ▸ hin, by simpa [State.Table, hm] using ht, hu⟩
  · have hs : s.runMain rep = s := by simp [State.runMain, hm]
    rw [hs]
    exact ⟨hm ▸ hin, by simpa [State.Table, hm] using ht, hu⟩

theorem ledger_runMain (hi : s.Ledger) : (s.runMain rep).Ledger := by
  cases hm : s.main with
  | init => exact ledger_init hi hm
  | create v6 => exact ledger_create hi hm
  | allocNblPool => exact ledger_alloc hi (.inl hm)
  | allocNbPool => exact ledger_alloc hi (.inr hm)
  | undo us => exact ledger_undo hi hm
  | destroy v6 attempt => exact ledger_destroy hi hm
  | clearHandle v6 => exact ledger_clearHandle hi hm
  | quiesced | freePool | clearPool | destroyed | failed => exact ledger_pools hi (by simp [hm])
  | _ => exact ledger_started hi (by simp [hm])

/-- The other steps touch neither globals nor resources. -/
theorem table_congr (h : s.Table) (hm : t.main = s.main) (hk : t.track = s.track)
    (hg : t.global = s.global) (hl : t.live = s.live) : t.Table := by
  have hheld : t.Held = s.Held := by
    funext r
    rw [State.Held, State.Held, hg, hl]
  have hgone : t.Gone = s.Gone := by
    funext r
    rw [State.Gone, State.Gone, hg, hl]
  have hundo : ∀ us, s.Undoing us → t.Undoing us := fun us h =>
    ⟨hk ▸ h.track, h.nodup, hg ▸ h.global, hl ▸ h.live, hl ▸ h.nblPool, hgone ▸ h.nbPool⟩
  cases hs : s.main with
  | undo us => simpa only [State.Table, hm, hs] using hundo us (by simpa [State.Table, hs] using h)
  | failed => simpa only [State.Table, hm, hs] using hundo [] (by simpa [State.Table, hs] using h)
  | create v6 =>
    cases v6 <;> simpa only [State.Table, hm, hs, hk, hheld, hgone] using h
  | _ =>
    simpa only [State.Table, State.Tracked, State.Deleted, State.PoolsHeld, hm, hs, hk, hheld,
      hgone, hl] using h

theorem ledger_step (h : system.step s a t) (hi : s.Ledger) : t.Ledger := by
  cases h with
  | call => exact ⟨hi.inited, table_congr hi.table rfl rfl rfl rfl, hi.misused⟩
  | run cs hk => exact ⟨hi.inited, table_congr hi.table rfl rfl rfl rfl, hi.misused⟩
  | read cs hk => exact ⟨hi.inited, table_congr hi.table rfl rfl rfl rfl, hi.misused⟩
  | main => exact ledger_runMain hi

theorem ledger_reachable (h : system.Reachable s) : s.Ledger := by
  refine h.invariant ?_ (fun hs hi => ledger_step hs hi)
  rintro s rfl
  exact ⟨rfl, ⟨fun _ => rfl, fun _ => ⟨rfl, rfl⟩⟩, rfl⟩

/-! ### A handle that was given up -/

/-- Nothing makes up for a destroy that was not confirmed. -/
theorem leaked_step (h : system.step s a t) (hi : s.Ledger) (hl : (s.track v6).state = .leaked) :
    (t.track v6).state = .leaked := by
  cases h with
  | call => exact hl
  | run cs hk => exact hl
  | read cs hk => exact hl
  | @main rep =>
    have ht := hi.table
    cases hm : s.main with
    | init =>
      simp only [State.Table, hm] at ht
      simp [ht.1 v6, Track.init] at hl
    | destroy w attempt =>
      have hr := destroy_cases rep hi.table hm
      generalize s.runMain rep = t at hr
      have hne : (s.track w).state = .unregistered → v6 ≠ w := by
        rintro hw rfl
        rw [hw] at hl
        cases hl
      cases hr with
      | again h => exact hl
      | refused h => exact hl
      | deleted o h ho => simpa [Function.update_of_ne (hne h)] using hl
      | leaked o h ho => simpa [Function.update_of_ne (hne h)] using hl
      | busy o h ho => simpa [Function.update_of_ne (hne h)] using hl
    | undo us => rcases us with _ | ⟨r | r, us⟩ <;> simpa [State.runMain, hm] using hl
    | _ =>
      simp only [State.runMain, hm]
      (repeat' split) <;> exact hl

theorem table_leaked (ht : s.Table) (hl : (s.track v6).state = .leaked) :
    s.Held (.handle v6) ∧ s.PoolsHeld ∧ s.main ≠ .quiesced ∧ s.main ≠ .destroyed := by
  have hinit : ¬ ∀ w, s.track w = .init := by
    intro h
    simp [h v6, Track.init] at hl
  have hdel : ¬ s.Deleted v6 := by
    intro h
    simp [h.1] at hl
  have htr : s.Tracked v6 → s.Held (.handle v6) := fun h => (h.resolve_right hdel).2
  cases hm : s.main with
  | create w => cases w <;> simp only [State.Table, hm] at ht <;> exact absurd ht.1 hinit
  | undo us | failed =>
    simp only [State.Table, hm] at ht
    exact absurd ht.track hinit
  | init | allocNblPool | allocNbPool =>
    simp only [State.Table, hm] at ht
    exact absurd ht.1 hinit
  | clearHandle w =>
    simp only [State.Table, hm] at ht
    obtain ⟨hp, hd, -, ho⟩ := ht
    cases w <;> cases v6
    · simp [hd] at hl
    · exact ⟨htr (by simpa using ho), hp, nofun, nofun⟩
    · exact absurd (by simpa using ho) hdel
    · simp [hd] at hl
  | quiesced =>
    simp only [State.Table, hm] at ht
    exact absurd (ht.2 v6) hdel
  | freePool r | clearPool r =>
    simp only [State.Table, hm] at ht
    exact absurd (ht.1 v6) hdel
  | destroyed =>
    simp only [State.Table, hm] at ht
    exact absurd (ht.1 v6) hdel
  | destroy w attempt =>
    simp only [State.Table, hm] at ht
    exact ⟨htr (ht.2.1 v6), ht.1, nofun, nofun⟩
  | _ =>
    simp only [State.Table, hm] at ht
    exact ⟨htr (ht.2 v6), ht.1, nofun, nofun⟩

theorem leaked_run (h : system.Reachable s) (hr : system.Run s as t)
    (hl : (s.track v6).state = .leaked) : (t.track v6).state = .leaked := by
  induction hr with
  | refl => exact hl
  | head hst _ ih => exact ih (h.step hst) (leaked_step hst (ledger_reachable h) hl)

/-! ### A failed `SkInjectInit` -/

/-- `SkInjectInit` has succeeded. -/
def Main.started : Main → Bool
  | .init | .create _ | .allocNblPool | .allocNbPool | .undo _ | .failed => false
  | _ => true

theorem started_runMain (hl : s.Ledger) (hs : s.main.started = true) :
    (s.runMain rep).main.started = true := by
  cases hm : s.main with
  | destroy v6 attempt =>
    have hr := destroy_cases rep hl.table hm
    generalize s.runMain rep = t at hr
    cases hr <;> rfl
  | _ =>
    rw [hm] at hs
    simp only [State.runMain, hm, State.nextHandle, State.nextPool]
    (repeat' split) <;> first | rfl | exact absurd hs Bool.false_ne_true

/-- The destroys of a failed `SkInjectInit`, whose results it drops, succeed. -/
def UndoSucceeds (s : State) : Action → Prop
  | .main a => ∀ us, s.main = .undo us → a.st = statusSuccess
  | .call | .run _ | .read _ => True

/-- What is still there is still to be given back. -/
def Recoverable (s : State) : Prop :=
  ∀ us, (s.main = .undo us ∨ s.main = .failed ∧ us = []) →
    ∀ r, s.live r = true → .release r ∈ us

theorem recoverable_of_main (h : ∀ us, t.main ≠ .undo us) (hf : t.main ≠ .failed) :
    Recoverable t := by
  rintro us (hus | ⟨hus, -⟩)
  · exact absurd hus (h us)
  · exact absurd hus hf

theorem recoverable_of_started (h : t.main.started = true) : Recoverable t := by
  refine recoverable_of_main (fun us hus => ?_) fun hf => ?_
  · rw [hus] at h
    cases h
  · rw [hf] at h
    cases h

/-- A call that fails leaves nothing that its statements do not give back. -/
theorem recoverable_creating (ht : s.Table) (hm : s.main.creating = true) :
    Recoverable (s.runMain rep) := by
  have hne : (s.runMain rep).main ≠ .failed := by
    cases hc : s.main with
    | create v6 =>
      simp only [State.runMain, hc]
      split
      · cases v6 <;> rintro ⟨⟩
      · rintro ⟨⟩
    | allocNblPool | allocNbPool =>
      simp only [State.runMain, hc]
      split <;> rintro ⟨⟩
    | _ => simp [Main.creating, hc] at hm
  rintro us (hus | ⟨hus, -⟩) r hl
  · rcases (failing_runMain ht hm hus).due r with ⟨-, hr, -⟩ | ⟨hgone, -⟩
    · exact hr
    · rw [hgone.2] at hl
      cases hl
  · exact absurd hus hne

theorem recoverable_undo (hm : s.main = .undo us) (hi : Recoverable s)
    (hst : rep.st = statusSuccess) : Recoverable (s.runMain rep) := by
  have hi' := hi us (.inl hm)
  rcases us with _ | ⟨r | r, us⟩
  · intro us hus r hl
    obtain rfl : us = [] := by simpa [State.runMain, hm] using hus
    exact hi' r (by simpa [State.runMain, hm] using hl)
  · intro us' hus r' hl
    obtain rfl : us = us' := by simpa [State.runMain, hm] using hus
    have hne : r' ≠ r := by
      rintro rfl
      simp [State.runMain, hm, hst] at hl
    have hl' : s.live r' = true := by
      simpa [State.runMain, hm, hst, Function.update_of_ne hne] using hl
    simpa [hne] using hi' r' hl'
  · intro us' hus r' hl
    obtain rfl : us = us' := by simpa [State.runMain, hm] using hus
    simpa using hi' r' (by simpa [State.runMain, hm] using hl)

theorem recoverable_runMain (hl : s.Ledger) (hi : Recoverable s)
    (hg : UndoSucceeds s (.main rep)) : Recoverable (s.runMain rep) := by
  cases hm : s.main with
  | init =>
    have hf : s.inited = false := by
      rw [hl.inited, hm]
      rfl
    refine recoverable_of_main (fun us => ?_) ?_ <;> simp [State.runMain, hm, hf]
  | create | allocNblPool | allocNbPool => exact recoverable_creating hl.table (by rw [hm]; rfl)
  | undo us => exact recoverable_undo hm hi (hg us hm)
  | failed =>
    have hs : s.runMain rep = s := by simp [State.runMain, hm]
    rwa [hs]
  | _ => exact recoverable_of_started (started_runMain hl (by rw [hm]; rfl))

theorem recoverable_reachable (h : (system.restrict UndoSucceeds).Reachable s) :
    Recoverable s := by
  have hl : s.Ledger ∧ Recoverable s := by
    refine h.invariant (I := fun s => s.Ledger ∧ Recoverable s) ?_ ?_
    · rintro s rfl
      exact ⟨ledger_reachable (.of_init rfl), by simp [Recoverable, initial]⟩
    · rintro s a t ⟨hg, hs⟩ ⟨hl, hi⟩
      refine ⟨ledger_step hs hl, ?_⟩
      cases hs with
      | call | run | read => exact hi
      | main => exact recoverable_runMain hl hi hg
  exact hl.2

/-! ### All is given back -/

/-- Nothing is given back twice. After a quiesce that returned TRUE both handles are gone, after
`SkInjectDestroy` the pools too; a handle whose destroy was not confirmed keeps both pools, and no
later quiesce returns TRUE. A failed `SkInjectInit` leaves no global and no pool, and no handle
unless WFP refuses to take one back. -/
theorem injection_accounted (h : system.Reachable s) :
    s.misused = false ∧
      (s.main = .quiesced → s.PoolsHeld ∧ ∀ v6, s.Deleted v6) ∧
      (s.main = .destroyed → ∀ r, s.Gone r) ∧
      (∀ v6, (s.track v6).state = .leaked → ∀ as t, system.Run s as t →
        t.Held (.handle v6) ∧ t.PoolsHeld ∧ t.main ≠ .quiesced ∧ t.main ≠ .destroyed) ∧
      (s.main = .failed →
        (∀ r, s.global r = false) ∧ s.live .nblPool = false ∧ s.live .nbPool = false ∧
          ((system.restrict UndoSucceeds).Reachable s → ∀ r, s.Gone r)) := by
  have hi := ledger_reachable h
  have ht := hi.table
  refine ⟨hi.misused, fun hm => ?_, fun hm => ?_, fun v6 hl as t hr => ?_, fun hm => ?_⟩
  · simpa only [State.Table, hm] using ht
  · simp only [State.Table, hm] at ht
    exact forall_resource.mpr ⟨fun v6 => (ht.1 v6).2, ht.2⟩
  · exact table_leaked (ledger_reachable (h.run hr)).table (leaked_run h hr hl)
  · simp only [State.Table, hm] at ht
    have hglobal : ∀ r, s.global r = false := by
      intro r
      by_contra hc
      simpa using ht.global r (by simpa using hc)
    have hnbl : s.live .nblPool = false := by
      by_contra hc
      simpa using ht.nblPool (by simpa using hc)
    refine ⟨hglobal, hnbl, ht.nbPool.2, fun hg r => ⟨hglobal r, ?_⟩⟩
    by_contra hc
    simpa using recoverable_reachable hg [] (.inr ⟨hm, rfl⟩) r (by simpa using hc)

theorem reachable_runMain (h : system.Reachable s) (rs : List Replies) :
    system.Reachable (rs.foldl State.runMain s) := by
  induction rs generalizing s with
  | nil => exact h
  | cons rep rs ih => exact ih (h.step .main)

/-- WFP destroys the handle of AF_INET and fails on that of AF_INET6. -/
def givenUpReplies : List Replies :=
  List.replicate 15 ⟨statusSuccess, true, true⟩ ++ [⟨statusUnsuccessful, true, true⟩]

def givenUp : State := givenUpReplies.foldl State.runMain initial

theorem injection_accounted_givenUp : givenUp.misused = false ∧ givenUp.main = .notQuiesced ∧
    ∀ as t, system.Run givenUp as t → t.Held (.handle true) ∧ t.PoolsHeld ∧
      t.main ≠ .quiesced ∧ t.main ≠ .destroyed := by
  have hl : (givenUp.track true).state = .leaked := by decide
  have h := injection_accounted (reachable_runMain (.of_init rfl) givenUpReplies)
  exact ⟨h.1, by decide, h.2.2.2.1 true hl⟩

end Sentinel.Injection
