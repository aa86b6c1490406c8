import Mathlib.Tactic

/-! Structures in memory: little-endian words, codecs of fixed size, checked reads and writes. -/
namespace Bytes

variable {α β ε : Type}

/-! ### Outcomes -/

/-- What a piece of code comes to: an access outside its buffer, an error, or a value. -/
inductive Outcome (ε α : Type) where
  | fault
  | error (e : ε)
  | ok (a : α)
  deriving DecidableEq

namespace Outcome

variable {x : Outcome ε α} {f : α → Outcome ε β} {a : α} {b : β} {e : ε}

def bind (x : Outcome ε α) (f : α → Outcome ε β) : Outcome ε β :=
  match x with
  | .fault => .fault
  | .error e => .error e
  | .ok a => f a

instance : Monad (Outcome ε) where
  pure := .ok
  bind := bind

@[simp] theorem pure_eq : (pure a : Outcome ε α) = .ok a := rfl

@[simp] theorem ok_bind : (Outcome.ok a >>= f) = f a := rfl

@[simp] theorem error_bind : ((Outcome.error e : Outcome ε α) >>= f) = .error e := rfl

@[simp] theorem fault_bind : ((Outcome.fault : Outcome ε α) >>= f) = .fault := rfl

theorem bind_eq_ok : (x >>= f) = .ok b ↔ ∃ a, x = .ok a ∧ f a = .ok b := by
  cases x <;> simp

theorem bind_eq_error :
    (x >>= f) = .error e ↔ x = .error e ∨ ∃ a, x = .ok a ∧ f a = .error e := by
  cases x <;> simp

/-- No fault in the whole, if there is none in the parts. -/
theorem bind_ne_fault (hx : x ≠ .fault) (hf : ∀ a, x = .ok a → f a ≠ .fault) :
    (x >>= f) ≠ .fault := by
  cases x with
  | fault => exact absurd rfl hx
  | error e => exact nofun
  | ok a => exact hf a rfl

/-- It comes to a value, and the value is in `P`. -/
def Returns (x : Outcome ε α) (P : α → Prop) : Prop := ∃ a, x = .ok a ∧ P a

variable {P P' : α → Prop} {Q : β → Prop}

theorem Returns.of_ok (h : P a) : (Outcome.ok a : Outcome ε α).Returns P := ⟨a, rfl, h⟩

theorem Returns.bind (h : x.Returns P) (hf : ∀ a, P a → (f a).Returns Q) :
    (x >>= f).Returns Q := by
  obtain ⟨a, rfl, ha⟩ := h
  exact hf a ha

theorem Returns.mono (h : x.Returns P) (hP : ∀ a, P a → P' a) : x.Returns P' := by
  obtain ⟨a, ha, hp⟩ := h
  exact ⟨a, ha, hP a hp⟩

/-- It comes to a value that passes. -/
def passes (x : Outcome ε α) (p : α → Bool) : Bool :=
  match x with
  | .ok a => p a
  | .error _ | .fault => false

theorem Returns.of_passes {p : α → Bool} (h : x.passes p = true) :
    x.Returns fun a => p a = true := by
  cases x with
  | ok a => exact .of_ok h
  | error e => cases h
  | fault => cases h

/-- A loop with a counter keeps its invariant. -/
theorem Returns.loop {f : α → ℕ → Outcome ε α} {I : ℕ → α → Prop} {k n : ℕ} (ha : I k a)
    (hf : ∀ i a, k ≤ i → i < k + n → I i a → (f a i).Returns (I (i + 1))) :
    ((List.range' k n).foldlM f a).Returns (I (k + n)) := by
  induction n generalizing k a with
  | zero => exact .of_ok ha
  | succ n ih =>
    rw [List.range'_succ, List.foldlM_cons]
    refine (hf k a (Nat.le_refl k) (by omega) ha).bind fun a ha => ?_
    rw [Nat.add_comm n 1, ← Nat.add_assoc]
    exact ih ha fun i a hi hin => hf i a (by omega) (by omega)

end Outcome

/-! ### Little-endian words -/

/-- The low `n` bytes of `v`, the lowest first. -/
def toLE : ℕ → ℕ → List UInt8
  | 0, _ => []
  | n + 1, v => UInt8.ofNat v :: toLE n (v / 256)

def ofLE : List UInt8 → ℕ
  | [] => 0
  | b :: bs => b.toNat + 256 * ofLE bs

theorem length_toLE {n v : ℕ} : (toLE n v).length = n := by
  induction n generalizing v with
  | zero => rfl
  | succ n ih => rw [toLE, List.length_cons, ih]

theorem ofLE_toLE {n v : ℕ} (h : v < 256 ^ n) : ofLE (toLE n v) = v := by
  induction n generalizing v with
  | zero =>
    rw [pow_zero, Nat.lt_one_iff] at h
    rw [h]
    rfl
  | succ n ih =>
    have hq : v / 256 < 256 ^ n := by
      rw [pow_succ] at h
      omega
    have hb : (UInt8.ofNat v).toNat = v % 256 := UInt8.toNat_ofNat'
    rw [toLE, ofLE, ih hq, hb]
    omega

theorem ofLE_lt {l : List UInt8} : ofLE l < 256 ^ l.length := by
  induction l with
  | nil => exact Nat.one_pos
  | cons b l ih =>
    have hb := b.toNat_lt
    rw [ofLE, List.length_cons, pow_succ]
    omega

theorem toLE_ofLE {l : List UInt8} : toLE l.length (ofLE l) = l := by
  induction l with
  | nil => rfl
  | cons b l ih =>
    have hb := b.toNat_lt
    have hlow : UInt8.ofNat (b.toNat + 256 * ofLE l) = b := by
      apply UInt8.toNat_inj.mp
      rw [UInt8.toNat_ofNat']
      omega
    have hhigh : (b.toNat + 256 * ofLE l) / 256 = ofLE l := by omega
    rw [List.length_cons, ofLE, toLE, hlow, hhigh, ih]

/-! ### Codecs -/

/-- The layout of a type: every value is `size` bytes and every `size` bytes are a value. -/
structure Codec (α : Type) where
  size : ℕ
  encode : α → List UInt8
  decode : List UInt8 → α
  length_encode : ∀ a, (encode a).length = size
  decode_encode : ∀ a, decode (encode a) = a
  encode_decode : ∀ l, l.length = size → encode (decode l) = l

namespace Codec

variable {c : Codec α} {d : Codec β} {a : α} {l l' buf : List UInt8} {off : ℕ}

/-- A word of `n` bytes. -/
def word (n : ℕ) (toNat : α → ℕ) (ofNat : ℕ → α) (hlt : ∀ a, toNat a < 256 ^ n)
    (hof : ∀ a, ofNat (toNat a) = a) (hto : ∀ v < 256 ^ n, toNat (ofNat v) = v) : Codec α where
  size := n
  encode a := toLE n (toNat a)
  decode l := ofNat (ofLE l)
  length_encode _ := length_toLE
  decode_encode a := by rw [ofLE_toLE (hlt a), hof]
  encode_decode l h := by
    rw [hto _ (h ▸ ofLE_lt), ← h]
    exact toLE_ofLE

def u8 : Codec UInt8 :=
  word 1 UInt8.toNat UInt8.ofNat UInt8.toNat_lt (fun _ => UInt8.ofNat_toNat)
    fun _ h => UInt8.toNat_ofNat_of_lt' h

def u16 : Codec UInt16 :=
  word 2 UInt16.toNat UInt16.ofNat UInt16.toNat_lt (fun _ => UInt16.ofNat_toNat)
    fun _ h => UInt16.toNat_ofNat_of_lt' h

def u32 : Codec UInt32 :=
  word 4 UInt32.toNat UInt32.ofNat UInt32.toNat_lt (fun _ => UInt32.ofNat_toNat)
    fun _ h => UInt32.toNat_ofNat_of_lt' h

def u64 : Codec UInt64 :=
  word 8 UInt64.toNat UInt64.ofNat UInt64.toNat_lt (fun _ => UInt64.ofNat_toNat)
    fun _ h => UInt64.toNat_ofNat_of_lt' h

/-- An array of bytes, or padding. -/
def bytes (n : ℕ) : Codec (Vector UInt8 n) where
  size := n
  encode v := v.toList
  decode l := if h : l.length = n then ⟨l.toArray, by simpa using h⟩ else .replicate n 0
  length_encode v := v.length_toList
  decode_encode v := by
    rw [dif_pos v.length_toList]
    rfl
  encode_decode l h := by
    rw [dif_pos h]
    rfl

/-- One after the other. -/
def pair (c : Codec α) (d : Codec β) : Codec (α × β) where
  size := c.size + d.size
  encode p := c.encode p.1 ++ d.encode p.2
  decode l := (c.decode (l.take c.size), d.decode (l.drop c.size))
  length_encode p := by rw [List.length_append, c.length_encode, d.length_encode]
  decode_encode p := by
    have hlen := c.length_encode p.1
    rw [List.take_left' hlen, List.drop_left' hlen, c.decode_encode, d.decode_encode]
  encode_decode l h := by
    have hleft : (l.take c.size).length = c.size := by
      rw [List.length_take]
      omega
    have hright : (l.drop c.size).length = d.size := by
      rw [List.length_drop]
      omega
    rw [c.encode_decode _ hleft, d.encode_decode _ hright, List.take_append_drop]

/-- The same bytes as another type. -/
def congr (c : Codec α) (e : α ≃ β) : Codec β where
  size := c.size
  encode b := c.encode (e.symm b)
  decode l := e (c.decode l)
  length_encode b := c.length_encode (e.symm b)
  decode_encode b := by rw [c.decode_encode, e.apply_symm_apply]
  encode_decode l h := by rw [e.symm_apply_apply, c.encode_decode l h]

/-- A read through a pointer into `buf`. -/
def read (c : Codec α) (buf : List UInt8) (off : ℕ) : Outcome ε α :=
  if off + c.size ≤ buf.length then .ok (c.decode ((buf.drop off).take c.size)) else .fault

theorem read_of_le (h : off + c.size ≤ buf.length) :
    ∃ a, (c.read buf off : Outcome ε α) = .ok a := ⟨_, if_pos h⟩

theorem read_ne_error : (c.read buf off : Outcome ε α) ≠ .error e := by
  rw [read]
  split
  · simp
  · simp

theorem read_eq_ok_iff : (c.read buf off : Outcome ε α) = .ok a ↔
    off + c.size ≤ buf.length ∧ (buf.drop off).take c.size = c.encode a := by
  rw [read]
  split
  · rename_i h
    have hlen : ((buf.drop off).take c.size).length = c.size := by
      rw [List.length_take, List.length_drop]
      omega
    refine ⟨fun he => ⟨h, ?_⟩, fun ⟨_, he⟩ => ?_⟩
    · cases he
      exact (c.encode_decode _ hlen).symm
    · rw [he, c.decode_encode]
  · rename_i h
    exact ⟨nofun, fun he => absurd he.1 h⟩

/-- A value is read where it stands. -/
theorem read_append : (c.read (l ++ (c.encode a ++ l')) l.length : Outcome ε α) = .ok a := by
  have hlen := c.length_encode a
  rw [read_eq_ok_iff]
  constructor
  · simp only [List.length_append]
    omega
  · rw [List.drop_left, List.take_left' hlen]

/-- What a read gives depends on the bytes from there on. -/
theorem read_append_left : (c.read (l ++ buf) (l.length + off) : Outcome ε α) =
    c.read buf off := by
  have hdrop : (l ++ buf).drop (l.length + off) = buf.drop off := by
    rw [← List.drop_drop, List.drop_left]
  rw [read, read, hdrop, List.length_append, Nat.add_assoc]
  exact if_congr (Nat.add_le_add_iff_left) rfl rfl

/-- What comes behind does not matter. -/
theorem read_append_of_le (h : off + c.size ≤ l.length) :
    (c.read (l ++ l') off : Outcome ε α) = c.read l off := by
  have hlen : c.size ≤ (l.drop off).length := by
    rw [List.length_drop]
    omega
  rw [read, read, if_pos h, if_pos (by rw [List.length_append]; omega),
    List.drop_append_of_le_length (by omega), List.take_append_of_le_length hlen]

end Codec

end Bytes
