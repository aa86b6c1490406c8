import Sentinel.General.TwoRuns

/-! Text in a buffer: a writer that stops at the end of its room, digits and separators. -/
namespace Text

open Bytes TwoRuns

variable {α : Type*} {ε : Type} {mem text : List UInt8} {buf stop : ℕ} {c : UInt8}

/-! ### Writing -/

/-- A memory and the place in it that is written next. -/
structure Pen where
  mem : List UInt8
  pos : ℕ

namespace Pen

/-- `*p = c`; outside of the memory this is a fault. -/
def store (s : Pen) (c : UInt8) : Outcome ε (List UInt8) :=
  if s.pos < s.mem.length then .ok (splice s.mem s.pos [c]) else .fault

/-- `if (p < end) *p++ = c`. -/
def put (s : Pen) (stop : ℕ) (c : UInt8) : Outcome ε Pen :=
  if s.pos < stop then do
    let mem ← s.store c
    return ⟨mem, s.pos + 1⟩
  else .ok s

/-- A loop that puts one character each while there are more and there is room. -/
def putWhile (s : Pen) (stop : ℕ) (char : α → Outcome ε UInt8) : List α → Outcome ε Pen
  | [] => .ok s
  | a :: as =>
    if s.pos < stop then do
      let c ← char a
      let mem ← s.store c
      putWhile ⟨mem, s.pos + 1⟩ stop char as
    else .ok s

end Pen

/-- As much of the text as there is room for stands in the memory, from `buf` on. -/
structure Wrote (mem : List UInt8) (buf stop : ℕ) (text : List UInt8) (s : Pen) : Prop where
  mem : s.mem = splice mem buf (text.take (stop - buf))
  pos : s.pos = buf + (text.take (stop - buf)).length

namespace Wrote

variable {s : Pen} {more : List UInt8}

theorem nil : Wrote mem buf stop [] ⟨mem, buf⟩ := by
  constructor
  · simp [splice]
  · simp

theorem length_le : (text.take (stop - buf)).length ≤ stop - buf := List.length_take_le _ _

/-- Where there is room all of the text has been written. -/
theorem take_eq (h : Wrote mem buf stop text s) (hroom : s.pos < stop) :
    text.take (stop - buf) = text ∧ text.length < stop - buf := by
  have hpos := h.pos
  rw [List.length_take] at hpos
  have hlen : text.length < stop - buf := by omega
  exact ⟨List.take_of_length_le hlen.le, hlen⟩

theorem store (h : Wrote mem buf stop text s) (hend : stop < mem.length) (hbuf : buf ≤ stop) :
    s.store c = (.ok (splice mem buf (text.take (stop - buf) ++ [c])) : Outcome ε _) := by
  have hle := @length_le text buf stop
  have hroom : buf + (text.take (stop - buf)).length ≤ mem.length := by omega
  have hlt : s.pos < s.mem.length := by
    rw [h.mem, length_splice hroom, h.pos]
    omega
  rw [Pen.store, if_pos hlt, h.mem, h.pos, splice_splice hroom]

/-- One character more, where there is room. -/
theorem next (h : Wrote mem buf stop text s) (hend : stop < mem.length) (hroom : s.pos < stop) :
    ∃ mem', (s.store c : Outcome ε _) = .ok mem' ∧
      Wrote mem buf stop (text ++ [c]) ⟨mem', s.pos + 1⟩ := by
  obtain ⟨htake, hlen⟩ := h.take_eq hroom
  have hbuf : buf ≤ stop := by omega
  have hnext : (text ++ [c]).take (stop - buf) = text ++ [c] := by
    apply List.take_of_length_le
    rw [List.length_append, List.length_singleton]
    omega
  refine ⟨_, h.store hend hbuf, ?_, ?_⟩
  · rw [hnext, htake]
  · rw [hnext, List.length_append, List.length_singleton, h.pos, htake, Nat.add_assoc]

/-- Without room nothing more is written. -/
theorem full (h : Wrote mem buf stop text s) (hroom : ¬ s.pos < stop) :
    Wrote mem buf stop (text ++ more) s := by
  have hpos := h.pos
  rw [List.length_take] at hpos
  have htake : (text ++ more).take (stop - buf) = text.take (stop - buf) :=
    List.take_append_of_le_length (by omega)
  exact ⟨htake ▸ h.mem, htake ▸ h.pos⟩

theorem put (h : Wrote mem buf stop text s) (hend : stop < mem.length) :
    (s.put stop c : Outcome ε Pen).Returns (Wrote mem buf stop (text ++ [c])) := by
  rw [Pen.put]
  split
  · rename_i hroom
    obtain ⟨mem', hstore, hnext⟩ := @next ε mem text buf stop c s h hend hroom
    rw [hstore]
    exact .of_ok hnext
  · rename_i hroom
    exact .of_ok (h.full hroom)

theorem putWhile {char : α → Outcome ε UInt8} {f : α → UInt8} {as : List α}
    (h : Wrote mem buf stop text s) (hend : stop < mem.length)
    (hchar : ∀ a ∈ as, char a = .ok (f a)) :
    (s.putWhile stop char as).Returns (Wrote mem buf stop (text ++ as.map f)) := by
  induction as generalizing s text with
  | nil =>
    rw [List.map_nil, List.append_nil]
    exact .of_ok h
  | cons a as ih =>
    obtain ⟨ha, has⟩ := List.forall_mem_cons.mp hchar
    rw [Pen.putWhile]
    split
    · rename_i hroom
      obtain ⟨mem', hstore, hnext⟩ := @next ε mem text buf stop (f a) s h hend hroom
      have hrest := ih hnext has
      rw [List.append_assoc, List.singleton_append] at hrest
      rw [ha, Outcome.ok_bind, hstore, Outcome.ok_bind]
      exact hrest
    · rename_i hroom
      exact .of_ok (h.full hroom)

end Wrote

/-! ### Strings -/

/-- The string at a pointer: what stands there in front of the first NUL. -/
def cString (mem : List UInt8) (p : ℕ) : List UInt8 := (mem.drop p).takeWhile (· ≠ 0)

theorem cString_splice (h : buf + (text ++ [0]).length ≤ mem.length) (htext : 0 ∉ text) :
    cString (splice mem buf (text ++ [0])) buf = text := by
  have hlen : (mem.take buf).length = buf := List.length_take_of_le (by omega)
  have hall : ∀ c ∈ text, decide (c ≠ 0) = true := by
    intro c hc
    exact decide_eq_true (fun h0 => htext (h0 ▸ hc))
  rw [cString, splice, List.drop_left' hlen, List.append_assoc,
    List.takeWhile_append_of_pos hall]
  simp

/-! ### Digits -/

variable {b n v : ℕ}

/-- The digits of a number with zeros in front. -/
def padded (b n v : ℕ) : List Char := (Nat.toDigits b v).leftpad n '0'

/-- The last digit comes off the end. -/
theorem padded_succ (hb : 1 < b) (hn : 0 < n) :
    padded b (n + 1) v = padded b n (v / b) ++ [Nat.digitChar (v % b)] := by
  simp only [padded, List.leftpad]
  by_cases hv : v < b
  · have hz : v / b = 0 := Nat.div_eq_of_lt hv
    obtain ⟨m, rfl⟩ := Nat.exists_eq_succ_of_ne_zero hn.ne'
    rw [Nat.toDigits_of_lt_base hv, hz, Nat.toDigits_zero, Nat.mod_eq_of_lt hv]
    simp [List.replicate_succ']
  · rw [Nat.toDigits_of_base_le hb (Nat.le_of_not_lt hv)]
    simp

theorem padded_one (hv : v < b) : padded b 1 v = [Nat.digitChar v] := by
  rw [padded, Nat.toDigits_of_lt_base hv]
  rfl

theorem length_padded (hb : 1 < b) (hn : 0 < n) (hv : v < b ^ n) : (padded b n v).length = n := by
  have hlen := (Nat.length_toDigits_le_iff hb hn).mpr hv
  rw [padded, List.length_leftpad]
  exact max_eq_left hlen

/-- Only the number 0 begins with a zero. -/
theorem head_toDigits (hb : 1 < b) (h : (Nat.toDigits b v).head? = some '0') : v = 0 := by
  induction v using Nat.strong_induction_on with
  | _ v ih =>
    rw [Nat.toDigits_eq_if hb] at h
    split at h
    · simpa using h
    · rename_i hv
      rw [List.head?_append_of_ne_nil _ Nat.toDigits_ne_nil] at h
      have hdiv := ih (v / b) (Nat.div_lt_self (by omega) hb) h
      rcases Nat.div_eq_zero_iff.mp hdiv with h0 | hlt
      · omega
      · exact absurd hlt hv

theorem mem_toDigits {c : Char} (hb : 1 < b) (h : c ∈ Nat.toDigits b v) :
    ∃ d < b, c = Nat.digitChar d := by
  induction v using Nat.strong_induction_on with
  | _ v ih =>
    rw [Nat.toDigits_eq_if hb] at h
    split at h
    · rename_i hv
      exact ⟨v, hv, List.mem_singleton.mp h⟩
    · rename_i hv
      rcases List.mem_append.mp h with hc | hc
      · exact ih (v / b) (Nat.div_lt_self (by omega) hb) hc
      · exact ⟨v % b, Nat.mod_lt v (by omega), List.mem_singleton.mp hc⟩

theorem mem_padded {c : Char} (hb : 1 < b) (h : c ∈ padded b n v) :
    ∃ d < b, c = Nat.digitChar d := by
  rw [padded, List.leftpad] at h
  rcases List.mem_append.mp h with hc | hc
  · exact ⟨0, by omega, (List.mem_replicate.mp hc).2⟩
  · exact mem_toDigits hb hc

/-! ### Separators -/

variable {sep : α} {piece : ℕ → List α}

theorem intercalate_concat {l : List (List α)} {x : List α} (h : l ≠ []) :
    [sep].intercalate (l ++ [x]) = [sep].intercalate l ++ (sep :: x) := by
  induction l with
  | nil => exact absurd rfl h
  | cons y l ih =>
    cases l with
    | nil => simp [List.intercalate_cons_cons]
    | cons z l =>
      have ih := ih (by simp)
      simp only [List.cons_append] at ih
      simp only [List.cons_append, List.intercalate_cons_cons, ih, List.append_assoc]

/-- So many pieces, with the separator between them. -/
def joined (sep : α) (piece : ℕ → List α) (n : ℕ) : List α :=
  [sep].intercalate ((List.range n).map piece)

theorem joined_zero : joined sep piece 0 = [] := rfl

theorem joined_succ : joined sep piece (n + 1) =
    joined sep piece n ++ ((if n = 0 then [] else [sep]) ++ piece n) := by
  rw [joined, joined, List.range_succ, List.map_append, List.map_singleton]
  split
  · rename_i hn
    subst hn
    simp
  · rename_i hn
    have hne : (List.range n).map piece ≠ [] := by simpa using hn
    rw [intercalate_concat hne, List.singleton_append]

theorem mem_joined {c : α} (h : c ∈ joined sep piece n) : c = sep ∨ ∃ i < n, c ∈ piece i := by
  induction n with
  | zero => cases h
  | succ n ih =>
    rw [joined_succ] at h
    rcases List.mem_append.mp h with hc | hc
    · rcases ih hc with rfl | ⟨i, hi, hc⟩
      · exact .inl rfl
      · exact .inr ⟨i, by omega, hc⟩
    · rcases List.mem_append.mp hc with hc | hc
      · split at hc
        · cases hc
        · exact .inl (List.mem_singleton.mp hc)
      · exact .inr ⟨n, Nat.lt_succ_self n, hc⟩

theorem length_joined_le {m : ℕ} (h : ∀ i < n, (piece i).length ≤ m) :
    (joined sep piece n).length ≤ n * (m + 1) := by
  induction n with
  | zero => simp [joined_zero]
  | succ n ih =>
    have hpre := ih fun i hi => h i (by omega)
    have hlast := h n (Nat.lt_succ_self n)
    have hsep : (if n = 0 then [] else [sep]).length ≤ 1 := by split <;> simp
    rw [joined_succ, List.length_append, List.length_append, Nat.succ_mul]
    omega

end Text
