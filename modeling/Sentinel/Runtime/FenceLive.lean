import Sentinel.General.Fair
import Sentinel.Runtime.Fence

/-! Every creation of a thread ends, and the body of every thread that is published is run. -/
namespace Sentinel.ThreadFence

open Transition System

variable {s t : State} {act : Action} {c : CallId} {k : Call} {r : Replies} {wait : NtStatus}
  {heap : Addr → Option Startup} {E : Execution State Action}

/-- The thread of a call, or the thread that it has spawned. -/
inductive Agent where
  | creator (c : CallId)
  | wrapper (c : CallId)

def Agent.actions : Agent → Set Action
  | .creator c => {act | ∃ r, act = .creator c r}
  | .wrapper c => {act | ∃ wait, act = .wrapper c wait}

/-- The call has returned, and the body has been called if it was to be. -/
def Call.Settled (k : Call) : Prop :=
  k.creator = .joined ∨ ∃ st, k.creator = .returned st ∧ (ntSuccess st = true → k.runs = [k.work])

def Creator.left : Creator → ℕ
  | .alloc => 13
  | .fill _ => 12
  | .spawn _ => 11
  | .reference _ => 5
  | .setStartup _ | .setAbort _ _ => 4
  | .closeHandle | .wait _ => 3
  | .freeStartup _ _ | .closeFailed _ => 1
  | .idle | .returned _ | .joined => 0

def Wrapper.left : Wrapper → ℕ
  | .gate _ => 5
  | .read _ _ => 4
  | .free _ _ _ => 3
  | .decide _ _ => 2
  | .body _ => 1
  | .unspawned | .exited => 0

/-- The steps of a call and its thread still to come. -/
def Call.left (k : Call) : ℕ := k.creator.left + k.wrapper.left

/-- Whose step is next: the creator waits for a thread that it has aborted, and when it has returned
only the thread is left. -/
def Call.agent (k : Call) (c : CallId) : Agent :=
  match k.creator with
  | .wait _ => if k.wrapper.left = 0 then .creator c else .wrapper c
  | .returned _ => .wrapper c
  | .idle | .alloc | .fill _ | .spawn _ | .freeStartup _ _ | .reference _ | .setStartup _
  | .closeHandle | .setAbort _ _ | .closeFailed _ | .joined => .creator c

@[simp] theorem put_calls : (s.put c k).calls c = k := Function.update_self ..

theorem creator_left (ht : (s.calls c).Table s.heap) (h : (s.calls c).CreatorMay s.heap r) :
    ((s.runCreator c r).calls c).left < (s.calls c).left := by
  simp only [State.runCreator]
  cases hc : (s.calls c).creator with
  | idle | returned | joined => simp [Call.CreatorMay, hc] at h
  | alloc => cases r.addr <;> simp [Call.left, hc, Creator.left]
  | fill | freeStartup | setStartup | setAbort | closeHandle | wait | closeFailed =>
    simp [Call.left, hc, Creator.left]
  | spawn =>
    simp only [Call.Table, hc] at ht
    simp only
    split <;> simp [Call.left, hc, ht, Creator.left, Wrapper.left]
  | reference => simp only; split <;> simp [Call.left, hc, Creator.left]

theorem runCreator_started (h : (s.calls c).creator ≠ .idle) :
    ((s.runCreator c r).calls c).creator ≠ .idle := by
  simp only [State.runCreator]
  cases hc : (s.calls c).creator with
  | idle => exact absurd hc h
  | alloc => cases r.addr <;> simp
  | spawn | reference => simp only; split <;> simp
  | returned | joined => simp [hc]
  | fill | freeStartup | setStartup | setAbort | closeHandle | wait | closeFailed => simp

theorem Call.Table.wrapper_block (h : k.Table heap) {a : Addr} (ha : k.wrapper.block = some a) :
    heap a ≠ none := by
  cases hc : k.creator with
  | fill | spawn | freeStartup =>
    simp only [Call.Table, hc] at h
    simp [h.1.1, Wrapper.block] at ha
  | idle | alloc | reference | setStartup | closeHandle | setAbort | wait | closeFailed | returned
  | joined => exact h.block (by simp [Call.block, hc, Creator.block, ha])

/-- The thread takes its step and touches nothing of its creator's. -/
theorem wrapper_left (ht : (s.calls c).Table s.heap) (hu : (s.calls c).wrapper ≠ .unspawned)
    (hx : (s.calls c).wrapper ≠ .exited) (wait : NtStatus) :
    ((s.runWrapper c wait).calls c).creator = (s.calls c).creator ∧
      ((s.runWrapper c wait).calls c).left < (s.calls c).left := by
  simp only [State.runWrapper]
  cases hw : (s.calls c).wrapper with
  | unspawned => exact absurd hw hu
  | exited => exact absurd hw hx
  | gate | free | body => simp [Call.left, hw, Wrapper.left]
  | read sc st =>
    obtain ⟨x, hx⟩ := Option.ne_none_iff_exists'.mp (ht.wrapper_block (a := sc) (by rw [hw]; rfl))
    simp [hx, Call.left, hw, Wrapper.left]
  | decide => simp only; split <;> simp [Call.left, hw, Wrapper.left]

/-- Whoever has the next step of a call can take it. -/
theorem settled_enabled (hi : Invariant s) (hc : (s.calls c).creator ≠ .idle)
    (hn : ¬ (s.calls c).Settled) :
    (system.restrict WaitsForEvent).Enabled ((s.calls c).agent c).actions s := by
  have ht := hi.table c
  have hcreator : (s.calls c).agent c = .creator c → (s.calls c).CreatorMay s.heap ⟨none, 0⟩ →
      (system.restrict WaitsForEvent).Enabled ((s.calls c).agent c).actions s := by
    intro ha hm
    rw [ha]
    exact ⟨.creator c ⟨none, 0⟩, ⟨_, rfl⟩, _, trivial, .creator hm⟩
  have hwrapper : (s.calls c).agent c = .wrapper c → ∀ opened, (s.calls c).Past s.heap opened →
      (s.calls c).wrapper ≠ .exited →
      (system.restrict WaitsForEvent).Enabled ((s.calls c).agent c).actions s := by
    intro ha opened hp hx
    have hu : (s.calls c).wrapper ≠ .unspawned := by
      intro hw
      simp [Call.Past, hw] at hp
    rw [ha]
    refine ⟨.wrapper c (if opened then statusWait0 else statusWait1), ⟨_, rfl⟩, _, ?_,
      .wrapper hu hx⟩
    intro sc hw
    simp only [Call.Past, hw] at hp
    refine ⟨_, hp.1, ?_⟩
    cases opened <;> simp
  cases hk : (s.calls c).creator with
  | idle => exact absurd hk hc
  | joined => exact absurd (.inl hk) hn
  | alloc | fill | spawn | freeStartup | reference | setStartup | closeHandle | setAbort
  | closeFailed =>
    exact hcreator (by simp [Call.agent, hk]) (by simp [Call.CreatorMay, hk])
  | wait st =>
    simp only [Call.Table, hk] at ht
    by_cases hx : (s.calls c).wrapper = .exited
    · exact hcreator (by simp [Call.agent, hk, hx, Wrapper.left]) (by simpa [Call.CreatorMay, hk])
    · refine hwrapper ?_ false ht.1 hx
      cases hw : (s.calls c).wrapper with
      | unspawned => simp [Call.Past, hw] at ht
      | exited => exact absurd hw hx
      | gate | read | free | decide | body => simp [Call.agent, hk, hw, Wrapper.left]
  | returned st =>
    simp only [Call.Table, hk] at ht
    cases hs : ntSuccess st with
    | false => exact absurd (.inr ⟨st, hk, by simp [hs]⟩) hn
    | true =>
      simp only [hs, if_true] at ht
      refine hwrapper (by simp [Call.agent, hk]) true ht.2.1 ?_
      intro hx
      refine hn (.inr ⟨st, hk, fun _ => ?_⟩)
      simpa [Call.Past, hx] using ht.2.1

/-- A step brings a call forward, or it is not a step of the one whose turn it is. -/
theorem settled_step (h : system.step s act t) (hi : Invariant s)
    (hc : (s.calls c).creator ≠ .idle) (hn : ¬ (s.calls c).Settled) :
    (t.calls c).creator ≠ .idle ∧ ((t.calls c).left < (s.calls c).left ∨
      t.calls c = s.calls c ∧ act ∉ ((s.calls c).agent c).actions) := by
  have ht := hi.table c
  have hagent : (s.calls c).agent c = .creator c ∨ (s.calls c).agent c = .wrapper c := by
    unfold Call.agent
    (repeat' split) <;> simp
  by_cases hne : act.caller = c
  · cases h with
    | @call c' w hidle =>
      obtain rfl : c' = c := hne
      exact absurd hidle hc
    | @creator c' r hmay =>
      obtain rfl : c' = c := hne
      exact ⟨runCreator_started hc, .inl (creator_left ht hmay)⟩
    | @wrapper c' wait hu hx =>
      obtain rfl : c' = c := hne
      obtain ⟨hk, hlt⟩ := wrapper_left ht hu hx wait
      exact ⟨hk.symm ▸ hc, .inl hlt⟩
    | @join c' st hret hs hx =>
      obtain rfl : c' = c := hne
      simp only [Call.Table, hret, hs, if_true, Call.Past, hx] at ht
      exact absurd (.inr ⟨st, hret, fun _ => ht.2.1⟩) hn
  · have he := step_other h hne
    refine ⟨he.symm ▸ hc, .inr ⟨he, ?_⟩⟩
    rcases hagent with ha | ha <;> rw [ha] <;> rintro ⟨r, rfl⟩ <;> exact hne rfl

theorem settled_ranking (hE : (system.restrict WaitsForEvent).Executes E) (c : CallId) :
    (system.restrict WaitsForEvent).Ranking E Agent.actions 0
      (fun s => (s.calls c).creator ≠ .idle) (fun s => (s.calls c).Settled)
      (fun s => (s.calls c).left) (fun s => (s.calls c).agent c) where
  enabled n _ hP hQ := settled_enabled (invariant_reachable (hE.reachable n)) hP hQ
  step n a _ hP hQ he := by
    have hi := invariant_reachable (hE.reachable n)
    obtain ⟨hp, hlt | ⟨heq, hna⟩⟩ := settled_step (hE.step n a he).2 hi hP hQ
    · exact .inr ⟨hp, .inl hlt⟩
    · exact .inr ⟨hp, .inr ⟨by simp only [heq], by simp only [heq], hna⟩⟩

/-- In every fair execution every call returns, and the thread of one that succeeds runs its
body. -/
theorem creation_settles (hE : (system.restrict WaitsForEvent).Executes E)
    (hf : ∀ i, (system.restrict WaitsForEvent).Fair (Agent.actions i) E) {m : ℕ}
    (h : ((E.state m).calls c).creator ≠ .idle) :
    ∃ n, m ≤ n ∧ ((E.state n).calls c).Settled :=
  (settled_ranking hE c).eventually hE hf m.zero_le h

/-- One thread is created and runs its body to the end. -/
theorem creation_settles_returned : ∃ E, (system.restrict WaitsForEvent).Executes E ∧
    ∃ n, ((E.state n).calls 0).Settled := by
  have hwait : ∀ {s : State} {c : CallId} {wait : NtStatus},
      (∀ sc, (s.calls c).wrapper ≠ .gate sc) → WaitsForEvent s (.wrapper c wait) :=
    fun h sc hw => absurd hw (h sc)
  obtain ⟨t, hr, hc, hw⟩ : ∃ t, (system.restrict WaitsForEvent).Run initial
      [.call 0 ⟨5, 6⟩, .creator 0 ⟨some 3, 0⟩, .creator 0 ⟨none, 0⟩, .creator 0 ⟨none, 0⟩,
        .creator 0 ⟨none, 0⟩, .creator 0 ⟨none, 0⟩, .creator 0 ⟨none, 0⟩,
        .wrapper 0 statusWait0, .wrapper 0 0, .wrapper 0 0, .wrapper 0 0, .wrapper 0 0] t ∧
      (∀ c, ∃ st, (t.calls c).creator = if c = 0 then .returned st else .idle) ∧
      ∀ c, (t.calls c).wrapper = if c = 0 then .exited else .unspawned := by
    refine ⟨_, .head ⟨trivial, .call rfl⟩ <|
      .head ⟨trivial, .creator (by rintro a ⟨⟩; rfl)⟩ <| .head ⟨trivial, .creator trivial⟩ <|
      .head ⟨trivial, .creator trivial⟩ <| .head ⟨trivial, .creator trivial⟩ <|
      .head ⟨trivial, .creator trivial⟩ <| .head ⟨trivial, .creator trivial⟩ <|
      .head ⟨by rintro sc ⟨⟩; exact ⟨_, rfl, .inl ⟨rfl, rfl⟩⟩, .wrapper nofun nofun⟩ <|
      .head ⟨hwait nofun, .wrapper nofun nofun⟩ <| .head ⟨hwait nofun, .wrapper nofun nofun⟩ <|
      .head ⟨hwait nofun, .wrapper nofun nofun⟩ <|
      .head ⟨hwait nofun, .wrapper nofun nofun⟩ .refl, ?_, ?_⟩
    · rintro (_ | c)
      · exact ⟨statusSuccess, rfl⟩
      · exact ⟨statusSuccess, rfl⟩
    · rintro (_ | c) <;> rfl
  have hnone : ∀ b ∈ ([] : List Action), (system.restrict WaitsForEvent).step t b t :=
    fun b hb => absurd hb List.not_mem_nil
  obtain ⟨E, hE, hf, -, hend⟩ := System.exists_fair (A := Agent.actions) rfl hr hnone (by
    refine fun i => .inl ?_
    rintro ⟨act, ha, u, -, hu⟩
    cases i with
    | creator c =>
      obtain ⟨r, rfl⟩ := ha
      cases hu with
      | creator hm =>
        obtain ⟨st, hst⟩ := hc c
        unfold Call.CreatorMay at hm
        rw [hst] at hm
        by_cases hz : c = 0 <;> simp [hz] at hm
    | wrapper c =>
      obtain ⟨wait, rfl⟩ := ha
      cases hu with
      | wrapper hu hx =>
        rw [hw c] at hu hx
        by_cases hz : c = 0 <;> simp [hz] at hu hx)
  obtain ⟨st, hst⟩ := hc 0
  obtain ⟨n, -, hn⟩ := creation_settles (c := 0) hE hf (m := 12) (by
    rw [hend 12 (by simp), hst]
    simp)
  exact ⟨E, hE, n, hn⟩

end Sentinel.ThreadFence
