import Sentinel.General.Bytes

/-! Two runs of one program on memories that agree where they are known. -/
namespace TwoRuns

open Bytes

variable {α β α' β' ε : Type}

/-! ### Writes -/

/-- `new` written over `l` from `off` on. -/
def splice (l : List α) (off : ℕ) (new : List α) : List α :=
  l.take off ++ (new ++ l.drop (off + new.length))

variable {l l' new : List α} {off i : ℕ}

theorem length_splice (h : off + new.length ≤ l.length) :
    (splice l off new).length = l.length := by
  simp only [splice, List.length_append, List.length_take, List.length_drop]
  omega

/-- Outside of what is written nothing changes. -/
theorem getElem?_splice_of_ne (h : off + new.length ≤ l.length)
    (hi : i < off ∨ off + new.length ≤ i) : (splice l off new)[i]? = l[i]? := by
  have hlen : (l.take off).length = off := List.length_take_of_le (by omega)
  rcases hi with hi | hi
  · rw [splice, List.getElem?_append_left (by omega), List.getElem?_take_of_lt hi]
  · rw [splice, List.getElem?_append_right (by omega), hlen,
      List.getElem?_append_right (by omega), List.getElem?_drop]
    congr 1
    omega

theorem getElem?_splice_of_mem (h : off + new.length ≤ l.length) (hi : off ≤ i)
    (hi' : i < off + new.length) : (splice l off new)[i]? = new[i - off]? := by
  have hlen : (l.take off).length = off := List.length_take_of_le (by omega)
  rw [splice, List.getElem?_append_right (by omega), hlen, List.getElem?_append_left (by omega)]

/-- Two writes one after the other are one. -/
theorem splice_splice {a b : List α} (h : off + a.length ≤ l.length) :
    splice (splice l off a) (off + a.length) b = splice l off (a ++ b) := by
  have hlen : (l.take off ++ a).length = off + a.length := by
    rw [List.length_append, List.length_take_of_le (by omega)]
  have hsplit : splice l off a = l.take off ++ a ++ l.drop (off + a.length) := by
    rw [splice, List.append_assoc]
  rw [hsplit, splice, List.take_left' hlen, ← List.drop_drop, List.drop_left' hlen,
    List.drop_drop, splice, List.length_append]
  simp only [List.append_assoc, Nat.add_assoc]

/-- A write seen from a place in front of it. -/
theorem drop_splice {base : ℕ} (h : base ≤ l.length) :
    (splice l (base + off) new).drop base = splice (l.drop base) off new := by
  have hlen : base ≤ (l.take (base + off)).length := by
    rw [List.length_take]
    omega
  rw [splice, List.drop_append_of_le_length hlen, List.drop_take, Nat.add_sub_cancel_left, splice,
    List.drop_drop, Nat.add_assoc]

/-- What has been written is there. -/
theorem slice_splice (h : off + new.length ≤ l.length) :
    ((splice l off new).drop off).take new.length = new := by
  rw [splice, List.drop_left' (List.length_take_of_le (by omega)), List.take_left]

/-- What is there already can be written again. -/
theorem splice_self (h : (l.drop off).take new.length = new) : splice l off new = l := by
  have hrest : new ++ l.drop (off + new.length) = l.drop off := by
    conv_lhs => rw [← h, List.length_take, List.length_drop]
    rw [← List.drop_drop]
    have hlen := congrArg List.length h
    rw [List.length_take, List.length_drop] at hlen
    rw [hlen, List.take_append_drop]
  rw [splice, hrest, List.take_append_drop]

/-! ### Agreement -/

/-- Two memories of one size with the same contents where `known` says. -/
structure Agree (known : ℕ → Prop) (l l' : List α) : Prop where
  length : l.length = l'.length
  get : ∀ i, known i → l[i]? = l'[i]?

variable {known known' : ℕ → Prop}

theorem Agree.mono (h : Agree known l l') (hk : ∀ i, known' i → known i) : Agree known' l l' :=
  ⟨h.length, fun i hi => h.get i (hk i hi)⟩

/-- What is written is known. -/
theorem Agree.splice (h : Agree known l l') (hroom : off + new.length ≤ l.length)
    (hk : ∀ i, known' i → known i ∨ off ≤ i ∧ i < off + new.length) :
    Agree known' (splice l off new) (splice l' off new) := by
  have hroom' : off + new.length ≤ l'.length := h.length ▸ hroom
  refine ⟨?_, fun i hi => ?_⟩
  · rw [length_splice hroom, length_splice hroom', h.length]
  · by_cases hin : off ≤ i ∧ i < off + new.length
    · rw [getElem?_splice_of_mem hroom hin.1 hin.2, getElem?_splice_of_mem hroom' hin.1 hin.2]
    · have hout : i < off ∨ off + new.length ≤ i := by omega
      rw [getElem?_splice_of_ne hroom hout, getElem?_splice_of_ne hroom' hout]
      exact h.get i ((hk i hi).resolve_right hin)

theorem Agree.trans {l'' : List α} (h : Agree known l l') (h' : Agree known l' l'') :
    Agree known l l'' :=
  ⟨h.length.trans h'.length, fun i hi => (h.get i hi).trans (h'.get i hi)⟩

/-- A write changes nothing outside. -/
theorem Agree.of_splice (h : off + new.length ≤ l.length) :
    Agree (fun i => i < off ∨ off + new.length ≤ i) l (TwoRuns.splice l off new) :=
  ⟨(length_splice h).symm, fun _ hi => (getElem?_splice_of_ne h hi).symm⟩

/-- Known bytes in a row are equal. -/
theorem Agree.slice_eq {n : ℕ} (h : Agree known l l') (hk : ∀ i, off ≤ i → i < off + n → known i) :
    (l.drop off).take n = (l'.drop off).take n := by
  apply List.ext_getElem?
  intro i
  rw [List.getElem?_take, List.getElem?_take]
  split
  · rename_i hi
    rw [List.getElem?_drop, List.getElem?_drop]
    exact h.get (off + i) (hk _ (Nat.le_add_right off i) (by omega))
  · rfl

/-- Known prefixes are equal. -/
theorem Agree.take_eq {n : ℕ} (h : Agree known l l') (hk : ∀ i < n, known i) :
    l.take n = l'.take n := by
  have hslice := @Agree.slice_eq _ _ _ 0 _ n h fun i _ hi => hk i (by omega)
  exact hslice

theorem Agree.read_eq {c : Codec β} {b b' : List UInt8} (h : Agree known b b')
    (hk : ∀ i, off ≤ i → i < off + c.size → known i) :
    (c.read b off : Outcome ε β) = c.read b' off := by
  rw [Codec.read, Codec.read, h.slice_eq hk, h.length]

/-! ### Outcomes of two runs -/

/-- Both runs fault, fail alike, or give related values. -/
def Related (R : α → β → Prop) : Outcome ε α → Outcome ε β → Prop
  | .fault, .fault => True
  | .error e, .error e' => e = e'
  | .ok a, .ok b => R a b
  | .fault, .error _ | .fault, .ok _ | .error _, .fault | .error _, .ok _ | .ok _, .fault
  | .ok _, .error _ => False

variable {R R' : α → β → Prop} {S : α' → β' → Prop} {x : Outcome ε α} {y : Outcome ε β}

/-- The second parts may know how the first one has come out. -/
theorem Related.bind_of_ok {f : α → Outcome ε α'} {g : β → Outcome ε β'} (h : Related R x y)
    (hf : ∀ a b, x = .ok a → R a b → Related S (f a) (g b)) : Related S (x >>= f) (y >>= g) := by
  cases x with
  | fault => cases y <;> first | exact h.elim | exact h
  | error e => cases y <;> first | exact h.elim | exact h
  | ok a =>
    cases y with
    | fault => exact h.elim
    | error e => exact h.elim
    | ok b => exact hf a b rfl h

theorem Related.bind {f : α → Outcome ε α'} {g : β → Outcome ε β'} (h : Related R x y)
    (hf : ∀ a b, R a b → Related S (f a) (g b)) : Related S (x >>= f) (y >>= g) :=
  h.bind_of_ok fun a b _ => hf a b

theorem Related.mono (h : Related R x y) (hR : ∀ a b, R a b → R' a b) : Related R' x y := by
  cases x <;> cases y <;> first | exact h | exact hR _ _ h

/-- The same computation in both runs. -/
theorem Related.refl {x : Outcome ε α} : Related (· = ·) x x := by
  cases x
  · trivial
  · exact Eq.refl _
  · exact Eq.refl _

theorem Related.of_eq {x y : Outcome ε α} (h : x = y) : Related (· = ·) x y := h ▸ .refl

/-- The first computation faults where the second may go on; else they are the same. -/
def Guards (x y : Outcome ε α) : Prop := x = .fault ∨ x = y

variable {y : Outcome ε α} {f g : α → Outcome ε α'} {a : α}

theorem Guards.refl : Guards x x := .inr (Eq.refl x)

theorem Guards.bind (h : Guards x y) (hf : ∀ a, Guards (f a) (g a)) :
    Guards (x >>= f) (y >>= g) := by
  rcases h with rfl | rfl
  · exact .inl rfl
  · cases x with
    | fault => exact .inl rfl
    | error e => exact .inr rfl
    | ok a => exact hf a

/-- A value past the guards is that of the computation without them. -/
theorem Guards.eq_ok (h : Guards x y) (hx : x = .ok a) : y = .ok a := by
  rcases h with rfl | rfl
  · cases hx
  · exact hx

end TwoRuns
