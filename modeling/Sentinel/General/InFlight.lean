import Mathlib.Tactic

/-! Calls in progress: a multiset of program counters, each with the data of its call. -/
namespace InFlight

variable {π ν : Type*} {f : π → ν → Bool} {calls : Multiset (π × ν)} {p : π} {n : ν}

/-- The data of the calls that stand where `f` says. -/
def select (f : π → ν → Bool) (calls : Multiset (π × ν)) : Multiset ν :=
  (calls.filter fun c => f c.1 c.2 = true).map Prod.snd

@[simp] theorem select_zero : select f 0 = 0 := rfl

@[simp] theorem select_cons :
    select f ((p, n) ::ₘ calls) = if f p n then n ::ₘ select f calls else select f calls := by
  by_cases h : f p n = true <;> simp [select, h]

end InFlight
