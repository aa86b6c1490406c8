import Sentinel.General.System
import Mathlib.Tactic

/-! A gate that counts references until it is stopped, apart from any encoding. -/
namespace RefGate

open Transition

/-- References handed out and not yet returned, and whether new ones are refused. -/
@[ext] structure State where
  holders : ℕ
  stopped : Bool
  deriving DecidableEq

inductive Action where
  | acquire
  | release
  | stop
  deriving DecidableEq

inductive Step : State → Action → State → Prop where
  | acquire {h : ℕ} : Step ⟨h, false⟩ .acquire ⟨h + 1, false⟩
  | release {h : ℕ} {b : Bool} : Step ⟨h + 1, b⟩ .release ⟨h, b⟩
  | stop {h : ℕ} {b : Bool} : Step ⟨h, b⟩ .stop ⟨h, true⟩

def system : System State Action where
  init s := s = ⟨0, false⟩
  step := Step

variable {s t : State} {a : Action} {as : List Action}

theorem stopped_step (h : Step s a t) (hs : s.stopped = true) : t.stopped = true := by
  cases h <;> simp_all

/-- A stopped gate only ever loses holders. -/
theorem holders_step (h : Step s a t) (hs : s.stopped = true) : t.holders ≤ s.holders := by
  cases h <;> simp_all

theorem stopped_run (h : system.Run s as t) (hs : s.stopped = true) :
    t.stopped = true ∧ t.holders ≤ s.holders := by
  induction h with
  | refl => exact ⟨hs, le_rfl⟩
  | head hst _ ih =>
    obtain ⟨ht, hle⟩ := ih (stopped_step hst hs)
    exact ⟨ht, hle.trans (holders_step hst hs)⟩

/-- Drained is for good: no run of a stopped gate without holders gives one out again. -/
theorem drained_run (h : system.Run s as t) (hs : s.stopped = true) (h0 : s.holders = 0) :
    t.holders = 0 := by
  have hle := (stopped_run h hs).2
  omega

end RefGate
