import Mathlib

abbrev Bytes := List UInt8

instance : LawfulBEq Bytes := inferInstance

namespace ByteString

/-- A separator splits a string at its first occurrence. -/
theorem append_separator_inj {α : Type*} {sep : α} {a b c d : List α} (ha : sep ∉ a)
    (hc : sep ∉ c) (h : a ++ sep :: b = c ++ sep :: d) : a = c ∧ b = d := by
  induction a generalizing c with
  | nil =>
    cases c with
    | nil => exact ⟨rfl, (List.cons.inj h).2⟩
    | cons x c =>
      have head := (List.cons.inj h).1
      exact absurd (head ▸ List.mem_cons_self) hc
  | cons x a ih =>
    cases c with
    | nil =>
      have head := (List.cons.inj h).1
      exact absurd (head ▸ List.mem_cons_self) ha
    | cons y c =>
      obtain ⟨head, tail⟩ := List.cons.inj h
      obtain ⟨eq, rest⟩ := ih (fun mem => ha (List.mem_cons_of_mem _ mem))
        (fun mem => hc (List.mem_cons_of_mem _ mem)) tail
      exact ⟨by rw [head, eq], rest⟩

/-- A separator splits a string at its last occurrence. -/
theorem append_separator_inj_last {α : Type*} {sep : α} {a b c d : List α} (hb : sep ∉ b)
    (hd : sep ∉ d) (h : a ++ sep :: b = c ++ sep :: d) : a = c ∧ b = d := by
  have reversed := congrArg List.reverse h
  simp only [List.reverse_append, List.reverse_cons, List.append_assoc, List.singleton_append]
    at reversed
  have notMem : ∀ {l : List α}, sep ∉ l → sep ∉ l.reverse :=
    fun absent mem => absent (List.mem_reverse.mp mem)
  obtain ⟨tail, head⟩ := append_separator_inj (notMem hb) (notMem hd) reversed
  exact ⟨List.reverse_injective head, List.reverse_injective tail⟩

/-- Two strings that join to one, cut at an earlier separator than two others are. -/
def CutBefore {α : Type*} (sep : α) (a b c d : List α) : Prop :=
  ∃ w, c = a ++ sep :: w ∧ b = w ++ sep :: d

/-- A string with several separators can be cut at each of them. -/
theorem append_separator_eq_iff {α : Type*} {sep : α} {a b c d : List α} :
    a ++ sep :: b = c ++ sep :: d ↔
      (a = c ∧ b = d) ∨ CutBefore sep a b c d ∨ CutBefore sep c d a b := by
  constructor
  · intro h
    rcases List.append_eq_append_iff.mp h with ⟨w, hc, hb⟩ | ⟨w, ha, hd⟩
    · cases w with
      | nil => exact Or.inl ⟨by simpa using hc.symm, (List.cons.inj hb).2⟩
      | cons x w =>
        obtain ⟨rfl, rest⟩ := List.cons.inj hb
        exact Or.inr (Or.inl ⟨w, hc, rest⟩)
    · cases w with
      | nil => exact Or.inl ⟨by simpa using ha, (List.cons.inj hd).2.symm⟩
      | cons x w =>
        obtain ⟨rfl, rest⟩ := List.cons.inj hd
        exact Or.inr (Or.inr ⟨w, ha, rest⟩)
  · rintro (⟨rfl, rfl⟩ | ⟨w, rfl, rfl⟩ | ⟨w, rfl, rfl⟩) <;> simp

theorem CutBefore.ne {α : Type*} {sep : α} {a b c d : List α} (h : CutBefore sep a b c d) :
    a ≠ c := by
  obtain ⟨w, rfl, _⟩ := h
  intro eq
  have length := congrArg List.length eq
  simp at length

theorem not_cutBefore {α : Type*} {sep : α} {a b c d : List α} (hc : sep ∉ c) :
    ¬ CutBefore sep a b c d := by
  rintro ⟨w, rfl, _⟩
  simp at hc

def ascii (s : String) : Bytes := s.toList.map fun c => UInt8.ofNat c.toNat

/-- Little-endian digits of `n` in `width` bytes. -/
def leBytes : Nat → Nat → Bytes
  | 0, _ => []
  | width + 1, n => UInt8.ofNat n :: leBytes width (n / 256)

def fromLe : Bytes → Nat
  | [] => 0
  | b :: bs => b.toNat + 256 * fromLe bs

theorem fromLe_leBytes {width n : Nat} (h : n < 256 ^ width) : fromLe (leBytes width n) = n := by
  induction width generalizing n with
  | zero =>
    have zero : n = 0 := by simpa using h
    simp [leBytes, fromLe, zero]
  | succ width ih =>
    have less : n / 256 < 256 ^ width := by
      rw [Nat.pow_succ] at h
      exact Nat.div_lt_of_lt_mul (by omega)
    have digit : (UInt8.ofNat n).toNat = n % 256 := by simp
    rw [leBytes, fromLe, ih less, digit]
    omega

/-- The bytes of an eight-byte counter. A counter that outgrew eight bytes would
simply take more of them. -/
def rawId (id : Nat) : Bytes := leBytes (max 8 (id.log2 / 8 + 1)) id

theorem fromLe_rawId (id : Nat) : fromLe (rawId id) = id := by
  apply fromLe_leBytes
  have small : id < 2 ^ (id.log2 + 1) := Nat.lt_log2_self
  have wide : id.log2 + 1 ≤ 8 * max 8 (id.log2 / 8 + 1) := by omega
  have bytes : (256 : Nat) ^ max 8 (id.log2 / 8 + 1) = 2 ^ (8 * max 8 (id.log2 / 8 + 1)) := by
    rw [Nat.pow_mul]
  rw [bytes]
  exact small.trans_le (Nat.pow_le_pow_right (by omega) wide)

theorem rawId_injective : Function.Injective rawId :=
  Function.LeftInverse.injective fromLe_rawId

end ByteString
